import Rgnr8.Service.TieOut

/-! Refunds. The guard of a refund reads what has been paid off the document itself, as the total
less what is open. A credit lowers what is open without any cash coming in, and a refund leaves
it where it is, so the figure says what may be handed back only while neither has happened. -/

namespace Rgnr8.Service.ArAp
open Lib Lib.Js Fallible Kernel Subledger List Except

structure RefundRequest extends CreditRequest where
  bankCode : Option String

def shownPaid (doc : DocRecord) : Int := doc.totalMinor - doc.openMinor

def askedAmountOf (req : RefundRequest) (paid : Int) : Except ArApFailure Int :=
  match req.amountMinor with
  | none | some (.text "") => .ok paid
  | some v => minorOf v "amount_minor"

variable (docId : String) (req : RefundRequest)

def refundAmountOf (paid : Int) : Except ArApFailure Int := do
  if paid ≤ 0 then
    .error (.arAp (s!"nothing has been collected against {docId} — reduce what is owed with a " ++
      "credit instead"))
  else
    let amount ← askedAmountOf req paid
    if amount ≤ 0 then .error (.arAp "a refund must be positive")
    else if paid < amount then
      .error (.arAp (s!"only {fmt paid} has been collected against {docId} — you cannot refund " ++
        s!"{fmt amount}"))
    else .ok amount

def refundBank : Option String :=
  if trim (req.bankCode.getD "") = "" then req.accounts.bankCode
  else some (trim (req.bankCode.getD ""))

def refundDocument (docId date : String) (req : RefundRequest) (lines : List DocumentLine)
    (memo : String) : LineDocument :=
  ⟨textOr req.id s!"RF-{docId}-{date}", date, lines, some memo⟩

def draftRefund (docId date : String) (req : RefundRequest) (ctx : ArApContext)
    (doc : DocRecord) : Except ArApFailure CreditDraft := do
  let amount ← refundAmountOf docId req (shownPaid doc)
  let ctrl := controls ctx.localeLe ctx.chart req.accounts
  assertBankChosen ctx.chart (refundBank req)
  let accountCode ← primaryAccountOf doc req.accountCode
  assertNotControl ctx.chart accountCode doc
  let memo := textOr req.memo s!"Refund of {docId}"
  let lines ← reversalLines ctx doc amount accountCode req.toCreditRequest memo
  let bank ← idFor ctx.chart (textOr req.bankCode ctrl.bankCode) "bank"
  let command ← (refundReceiptToPostCommand (refundDocument docId date req lines memo) bank
    (docContext ctx "refund" date)).mapError .subledger
  return ⟨amount, command⟩

/-- The open balance of the invoice is untouched: what changes is that the cash goes back out. -/
def issueRefund (ctx : ArApContext) : ArApProg CreditResult := do
  let date := trim (req.date.getD "")
  Prog.refuseIf (¬ isIsoDate date) (.arAp "date must be YYYY-MM-DD")
  let doc ← Prog.perform (ArApCall.getDoc ctx.tenant .invoice docId)
  let doc ← Prog.ofExcept (found doc s!"unknown invoice {docId}")
  let draft ← Prog.ofExcept (draftRefund docId date req ctx doc)
  let entry ← post ctx draft.command
  return ⟨doc, entry.id, draft.amount⟩

def planRefund (ctx : ArApContext) (docs : InMemoryDocumentStore) : Except ArApFailure Plan :=
  let date := trim (req.date.getD "")
  if ¬ isIsoDate date then .error (.arAp "date must be YYYY-MM-DD")
  else do
    let doc ← found (docs.getDoc ctx.tenant .invoice docId) s!"unknown invoice {docId}"
    let draft ← draftRefund docId date req ctx doc
    return ⟨draft.command, id⟩

section
variable {ctx : ArApContext} {docs : InMemoryDocumentStore} {docId date : String}
variable {req : RefundRequest} {doc : DocRecord} {amount paid : Int} {plan : Plan}

theorem leaves_issueRefund {π : Type} [PeriodStore π] (s : ArApStores π) :
    Leaves ctx s (issueRefund docId req ctx) (planRefund docId req ctx s.docs) := by
  unfold issueRefund planRefund
  refine .refuse (.read rfl (.check fun doc => .check fun draft => ?_))
  exact .post ⟨draft.command, id⟩ fun _ _ => rfl

theorem refundAmountOf_eq_ok (h : refundAmountOf docId req paid = .ok amount) :
    0 < amount ∧ amount ≤ paid ∧ (req.amountMinor = none → amount = paid) := by
  simp only [refundAmountOf, refuse_eq_ok, bind_eq_ok] at h
  obtain ⟨-, a, ha, hpos, hle, h⟩ := h
  rw [← ok.inj h]
  refine ⟨not_le.mp hpos, not_lt.mp hle, fun hnone => ?_⟩
  have hall : askedAmountOf req paid = .ok paid := by rw [askedAmountOf, hnone]
  exact (ok.inj (hall.symm.trans ha)).symm

theorem tax_le_of_draftDocument {kind : DocKind} {req : CreateDocumentRequest} {party : PartyRecord}
    {draft : PostCommand × DocRecord} (h : draftDocument kind req ctx party = .ok draft) :
    draft.2.taxMinor ≤ draft.2.totalMinor := by
  simp only [draftDocument, bind_eq_ok, refuse_eq_ok] at h
  obtain ⟨b, -, hpos, due, -, rate, -, cmd, -, hd⟩ := h
  rw [← ok.inj hd]
  dsimp only
  omega

theorem planRefund_eq_ok (h : planRefund docId req ctx docs = .ok plan) :
    ∃ doc draft, docs.getDoc ctx.tenant .invoice docId = some doc ∧
      draftRefund docId (trim (req.date.getD "")) req ctx doc = .ok draft ∧
      plan = ⟨draft.command, id⟩ := by
  simp only [planRefund, refuse_eq_ok, bind_eq_ok] at h
  obtain ⟨-, doc, hdoc, draft, hdraft, hplan⟩ := h
  exact ⟨doc, draft, found_eq_ok hdoc, hdraft, (ok.inj hplan).symm⟩

/-- What a refund takes out of the bank. -/
structure PaysOut (ctx : ArApContext) (amount : Int) (cmd : PostCommand) : Prop where
  tenant : cmd.tenantId = ctx.tenant
  cash : sideTotal .credit cmd.lines = amount

theorem sideTotal_lineCommand {idPrefix : String} {side : DocumentSide} {credit : LineDocument}
    {anchor : AccountId} {post : DocPostContext} {cmd : PostCommand}
    (h : lineCommand idPrefix side .credit credit anchor post = .ok cmd) :
    cmd.tenantId = post.tenantId ∧
      sideTotal .credit cmd.lines = (credit.lines.map DocumentLine.minor).sum := by
  obtain ⟨lines, -, rfl⟩ := lineCommand_eq_ok h
  have hitems : ∀ l ∈ lines.map (itemLine .debit), l.side ≠ .credit := by
    intro l hl
    obtain ⟨r, -, rfl⟩ := mem_map.mp hl
    exact nofun
  refine ⟨rfl, ?_⟩
  let total : Money := ⟨(credit.lines.map DocumentLine.minor).sum, post.currency⟩
  have hanch : sideTotal .credit [anchorLine ⟨anchor, .credit⟩ total] = total.minorUnits :=
    Int.add_zero _
  change sideTotal .credit (lines.map (itemLine .debit) ++ [anchorLine ⟨anchor, .credit⟩ total]) = _
  rw [sideTotal_append, sideTotal_of_off hitems, hanch, Int.zero_add]

theorem paysOut_draftRefund {draft : CreditDraft}
    (h : draftRefund docId date req ctx doc = .ok draft) (htax : doc.taxMinor ≤ doc.totalMinor) :
    refundAmountOf docId req (shownPaid doc) = .ok draft.amount ∧
      PaysOut ctx draft.amount draft.command := by
  simp only [draftRefund, bind_eq_ok, mapError_eq_ok] at h
  obtain ⟨amount, hamt, -, -, code, -, -, -, lines, hlines, bank, -, cmd, hcmd, hd⟩ := h
  have hd := ok.inj hd
  subst hd
  obtain ⟨htenant, hcash⟩ := sideTotal_lineCommand hcmd
  have htot := (reversalLines_spec hlines (refundAmountOf_eq_ok hamt).1 htax).2
  exact ⟨hamt, htenant, hcash.trans htot⟩

end

/-! Runs of all four flows, with the cash that they have moved. -/

inductive CashRequest where
  | flow (r : ArApRequest)
  | refund (docId : String) (req : RefundRequest)

def CashRequest.plan (ctx : ArApContext) (docs : InMemoryDocumentStore) :
    CashRequest → Except ArApFailure Plan
  | flow r => r.plan ctx docs
  | refund docId req => planRefund docId req ctx docs

def CashRequest.program (ctx : ArApContext) : CashRequest → ArApProg Unit
  | flow r => do
    let _ ← r.program ctx
    return ()
  | refund docId req => do
    let _ ← issueRefund docId req ctx
    return ()

def CashRequest.collects : CashRequest → Option String
  | flow (.pay .invoice docId _ _) => some docId
  | _ => none

def CashRequest.refunds : CashRequest → Option String
  | refund docId _ => some docId
  | flow _ => none

structure CashCall (tenant : TenantId) where
  context : ArApContext
  tenant_eq : context.tenant = tenant
  request : CashRequest

/-- The stores, and the cash that has come in and gone out on every invoice. -/
structure Till (π : Type) where
  stores : ArApStores π
  collected : String → Int
  refunded : String → Int

def newEntries {π : Type} (tenant : TenantId) (s s' : ArApStores π) : List PostedEntry :=
  (s'.ledger.store.list tenant).drop (s.ledger.store.list tenant).length

def entriesTotal (side : EntrySide) (entries : List PostedEntry) : Int :=
  (entries.map fun e => sideTotal side e.lines).sum

def CashCall.after {π : Type} [PeriodStore π] {tenant : TenantId} (t : Till π)
    (call : CashCall tenant) : ArApStores π :=
  ((call.request.program call.context).run ArApCall.exec t.stores).2

def CashCall.step {π : Type} [PeriodStore π] {tenant : TenantId} (t : Till π)
    (call : CashCall tenant) : Till π where
  stores := call.after t
  collected id := t.collected id + if call.request.collects = some id then
    entriesTotal .debit (newEntries tenant t.stores (call.after t)) else 0
  refunded id := t.refunded id + if call.request.refunds = some id then
    entriesTotal .credit (newEntries tenant t.stores (call.after t)) else 0

/-- No more has gone out on an invoice than has come in. -/
def WithinCollected {π : Type} (t : Till π) : Prop := ∀ id, t.refunded id ≤ t.collected id

/-- What a refund that will be posted finds paid on the invoice is cash that has come in and has
not gone out again. -/
def CashCall.Covered {π : Type} [PeriodStore π] {tenant : TenantId} (t : Till π)
    (call : CashCall tenant) : Prop :=
  ∀ docId req, call.request = .refund docId req → ∀ plan,
    planRefund docId req call.context t.stores.docs = .ok plan → Posts call.context t.stores plan →
      ∀ doc ∈ t.stores.docs.getDoc tenant .invoice docId,
        shownPaid doc ≤ t.collected docId - t.refunded docId

/-- Nothing posted, no document and no cash moved yet. -/
def emptyTill {π : Type} (periods : π)
    (parties : OrderedMap (TenantId × PartyKind × String) PartyRecord) : Till π :=
  ⟨opening periods parties, fun _ => 0, fun _ => 0⟩

section
variable {π : Type} {tenant : TenantId} {ctx : ArApContext} {s : ArApStores π} {plan : Plan}
variable {docs : InMemoryDocumentStore}

theorem newEntries_of_ledger_eq (tenant : TenantId) {s' : ArApStores π} (h : s'.ledger = s.ledger) :
    newEntries tenant s s' = [] := by
  rw [newEntries, h]
  exact drop_length

theorem docsOk_plan {r : CashRequest} (h : r.plan ctx docs = .ok plan)
    (hdocs : DocsOk ctx.tenant docs) : DocsOk ctx.tenant (plan.write docs) := by
  rcases r with r | ⟨docId, req⟩
  · cases r with
    | create kind req =>
      simp only [CashRequest.plan, ArApRequest.plan, planCreate, bind_eq_ok, refuse_eq_ok] at h
      obtain ⟨-, -, -, party, -, draft, hdraft, hplan⟩ := h
      rw [← ok.inj hplan]
      exact docsOk_saveDoc hdocs (tax_le_of_draftDocument hdraft)
    | pay kind docId req accounts =>
      simp only [CashRequest.plan, ArApRequest.plan, planPayment, bind_eq_ok, refuse_eq_ok] at h
      obtain ⟨-, doc, hdoc, draft, hdraft, hplan⟩ := h
      rw [← ok.inj hplan]
      exact docsOk_writeOpen hdocs (found_eq_ok hdoc)
    | credit kind docId req =>
      simp only [CashRequest.plan, ArApRequest.plan, planCredit, bind_eq_ok, refuse_eq_ok] at h
      obtain ⟨-, doc, hdoc, draft, hdraft, hplan⟩ := h
      rw [← ok.inj hplan]
      exact docsOk_writeOpen hdocs (found_eq_ok hdoc)
  · have hrefund : planRefund docId req ctx docs = .ok plan := h
    obtain ⟨doc, draft, -, -, rfl⟩ := planRefund_eq_ok hrefund
    exact hdocs

variable [PeriodStore π]

theorem leaves_cashRequest (s : ArApStores π) (r : CashRequest) :
    Leaves ctx s (r.program ctx) (r.plan ctx s.docs) := by
  cases r with
  | flow r => exact (leaves_program ctx s r).result
  | refund docId req => exact (leaves_issueRefund s).result

theorem newEntries_postedTo (tenant : TenantId) (hposts : Posts ctx s plan) :
    ∃ e : PostedEntry, e.lines = plan.command.lines ∧
      newEntries tenant s (postedTo ctx s plan) =
        if tenant = plan.command.tenantId then [e] else [] := by
  let d := PostingEngine.draftOfCommand plan.command ⟨ctx.postedAt⟩ plan.command.lines
  refine ⟨(s.ledger.store.append d).1, ?_, ?_⟩
  · rw [InMemoryLedgerStore.append_of_none hposts.free]
    rfl
  · have hlist := InMemoryLedgerStore.list_append_of_none (d := d) hposts.free tenant
    have htenant : d.tenantId = plan.command.tenantId := rfl
    rw [htenant] at hlist
    change ((s.ledger.store.append d).2.list tenant).drop _ = _
    rw [hlist]
    split_ifs
    · exact drop_left
    · exact drop_length

theorem sideTotal_of_posts (hposts : Posts ctx s plan) (side : EntrySide) :
    0 ≤ sideTotal side plan.command.lines := by
  obtain ⟨lines, hlines⟩ := hposts.postable.lines
  obtain ⟨-, hok, -, -⟩ := validateAndBuildLines_eq_ok.mp hlines
  refine sum_nonneg fun n hn => ?_
  obtain ⟨l, hl, rfl⟩ := mem_map.mp hn
  obtain ⟨account, -, -, -, -, hpos⟩ := hok l (mem_of_mem_filter hl)
  exact hpos.le

end

/-! What a call does to the till. -/

section
variable {π : Type} [PeriodStore π] {tenant : TenantId} {t : Till π} {call : CashCall tenant}
variable {plan : Plan}

theorem CashCall.after_eq (t : Till π) (call : CashCall tenant) :
    call.after t = carryOut call.context t.stores (call.request.plan call.context t.stores.docs) :=
  leaves_cashRequest t.stores call.request

theorem CashCall.step_of_ledger_eq (h : (call.after t).ledger = t.stores.ledger) :
    (call.step t).collected = t.collected ∧ (call.step t).refunded = t.refunded := by
  have hnew := newEntries_of_ledger_eq tenant h
  constructor
  · funext id
    change t.collected id + (if _ then entriesTotal .debit _ else 0) = t.collected id
    rw [hnew]
    exact (congrArg _ (ite_self _)).trans (Int.add_zero _)
  · funext id
    change t.refunded id + (if _ then entriesTotal .credit _ else 0) = t.refunded id
    rw [hnew]
    exact (congrArg _ (ite_self _)).trans (Int.add_zero _)

theorem CashCall.collected_le (hposts : Posts call.context t.stores plan)
    (hafter : call.after t = postedTo call.context t.stores plan) (id : String) :
    t.collected id ≤ (call.step t).collected id := by
  obtain ⟨e, hlines, hnew⟩ := newEntries_postedTo tenant hposts
  have hpos := sideTotal_of_posts hposts .debit
  have htot : 0 ≤ entriesTotal .debit (newEntries tenant t.stores (call.after t)) := by
    rw [hafter, hnew]
    split_ifs
    · rw [entriesTotal, map_singleton, sum_singleton, hlines]
      exact hpos
    · exact le_rfl
  change t.collected id ≤ t.collected id + if _ then _ else 0
  split_ifs <;> omega

/-- A refund that is posted pays out at most what the invoice shows as paid, and all of it when no
amount is given. -/
theorem CashCall.refunded_eq {docId : String} {req : RefundRequest}
    (hdocs : DocsOk tenant t.stores.docs) (hreq : call.request = .refund docId req)
    (hplan : planRefund docId req call.context t.stores.docs = .ok plan)
    (hposts : Posts call.context t.stores plan)
    (hafter : call.after t = postedTo call.context t.stores plan) :
    ∃ doc amount, t.stores.docs.getDoc tenant .invoice docId = some doc ∧
      amount ≤ shownPaid doc ∧ (req.amountMinor = none → amount = shownPaid doc) ∧
      (call.step t).collected = t.collected ∧
      ∀ id, (call.step t).refunded id = t.refunded id + if docId = id then amount else 0 := by
  obtain ⟨doc, draft, hdoc, hdraft, rfl⟩ := planRefund_eq_ok hplan
  rw [call.tenant_eq] at hdoc
  obtain ⟨hamt, hpays⟩ := paysOut_draftRefund hdraft (hdocs .invoice docId doc hdoc)
  obtain ⟨-, hle, hall⟩ := refundAmountOf_eq_ok hamt
  obtain ⟨e, hlines, hnew⟩ := newEntries_postedTo tenant hposts
  rw [if_pos (call.tenant_eq.symm.trans hpays.tenant.symm)] at hnew
  have htot : entriesTotal .credit (newEntries tenant t.stores (call.after t)) = draft.amount := by
    rw [hafter, hnew, entriesTotal, map_singleton, sum_singleton, hlines]
    exact hpays.cash
  refine ⟨doc, draft.amount, hdoc, hle, hall, ?_, fun id => ?_⟩
  · funext id
    change t.collected id + (if call.request.collects = some id then _ else 0) = _
    rw [hreq]
    exact Int.add_zero _
  · change t.refunded id + (if call.request.refunds = some id then _ else 0) = _
    rw [htot, hreq]
    simp only [CashRequest.refunds, Option.some.injEq]

theorem CashCall.docsOk_step (hdocs : DocsOk tenant t.stores.docs) :
    DocsOk tenant (call.step t).stores.docs := by
  change DocsOk tenant (call.after t).docs
  rw [call.after_eq]
  cases hplan : call.request.plan call.context t.stores.docs with
  | error e => exact hdocs
  | ok plan =>
    have hkept : DocsOk tenant (plan.write t.stores.docs) := by
      rw [← call.tenant_eq] at hdocs ⊢
      exact docsOk_plan hplan hdocs
    generalize hafter : carryOut call.context t.stores (.ok plan) = s'
    have hout := carriedOut call.context t.stores plan
    rw [hafter] at hout
    cases hout with
    | refused => exact hdocs
    | replayed => exact hkept
    | posted => exact hkept

theorem CashCall.within_of_ledger_eq (h : WithinCollected t)
    (hledger : (call.after t).ledger = t.stores.ledger) : WithinCollected (call.step t) := by
  obtain ⟨hcol, href⟩ := CashCall.step_of_ledger_eq hledger
  intro id
  rw [hcol, href]
  exact h id

theorem CashCall.within_step (hdocs : DocsOk tenant t.stores.docs) (h : WithinCollected t)
    (hcover : call.Covered t) : WithinCollected (call.step t) := by
  have heq := call.after_eq t
  cases hplan : call.request.plan call.context t.stores.docs with
  | error e =>
    rw [hplan] at heq
    exact CashCall.within_of_ledger_eq h (congrArg ArApStores.ledger heq)
  | ok plan =>
    rw [hplan] at heq
    have hout := carriedOut call.context t.stores plan
    rw [← heq] at hout
    generalize hafter : call.after t = s' at hout
    cases hout with
    -- nothing reaches the ledger
    | refused => exact CashCall.within_of_ledger_eq h (congrArg ArApStores.ledger hafter)
    | replayed hr =>
      have hledger := congrArg ArApStores.ledger hafter
      exact CashCall.within_of_ledger_eq h hledger
    | posted hposts =>
      intro id
      have hid := h id
      cases hreq : call.request with
      -- a flow refunds nothing and can only collect
      | flow r =>
        have href : (call.step t).refunded id = t.refunded id := by
          change t.refunded id + (if call.request.refunds = some id then _ else 0) = _
          rw [hreq]
          exact Int.add_zero _
        rw [href]
        exact hid.trans (CashCall.collected_le hposts hafter id)
      | refund docId req =>
        rw [hreq] at hplan
        obtain ⟨doc, amount, hdoc, hle, -, hcol, href⟩ :=
          CashCall.refunded_eq hdocs hreq hplan hposts hafter
        have hcov := hcover docId req hreq plan hplan hposts doc hdoc
        rw [hcol, href]
        split_ifs with hdocId
        · subst hdocId
          omega
        · omega

theorem CashCall.within_step_iff {docId : String} {req : RefundRequest}
    (hdocs : DocsOk tenant t.stores.docs) (h : WithinCollected t)
    (hreq : call.request = .refund docId req) (hfull : req.amountMinor = none) :
    WithinCollected (call.step t) ↔ call.Covered t := by
  refine ⟨fun hwin => ?_, CashCall.within_step hdocs h⟩
  intro docId' req' hreq' plan hplan hposts doc hdoc
  obtain ⟨rfl, rfl⟩ := CashRequest.refund.inj (hreq.symm.trans hreq')
  have hafter : call.after t = postedTo call.context t.stores plan := by
    rw [call.after_eq, hreq]
    change carryOut call.context t.stores (planRefund docId req call.context t.stores.docs) = _
    rw [hplan, carryOut_of_posts hposts]
  obtain ⟨doc', amount, hdoc', -, hall, hcol, href⟩ :=
    CashCall.refunded_eq hdocs hreq hplan hposts hafter
  obtain rfl := Option.some.inj (hdoc.symm.trans hdoc')
  have hid := hwin docId
  rw [hcol, href, if_pos rfl, hall hfull] at hid
  omega

end

/-- A run whose refunds are all covered never pays out more on an invoice than it has collected on
it. Nothing weaker will do: a refund of all that shows as paid, made where the limit still holds,
keeps it exactly when it is covered. -/
theorem refunds_within_collections {π : Type} [PeriodStore π] (tenant : TenantId) (periods : π)
    (parties : OrderedMap (TenantId × PartyKind × String) PartyRecord)
    (calls : List (CashCall tenant)) :
    (EachStep CashCall.step CashCall.Covered (emptyTill periods parties) calls →
      Along CashCall.step WithinCollected (emptyTill periods parties) calls) ∧
    ∀ (call : CashCall tenant) (docId : String) (req : RefundRequest),
      call.request = .refund docId req → req.amountMinor = none →
      WithinCollected (calls.foldl CashCall.step (emptyTill periods parties)) →
      (WithinCollected (call.step (calls.foldl CashCall.step (emptyTill periods parties))) ↔
        call.Covered (calls.foldl CashCall.step (emptyTill periods parties))) := by
  have hopn : DocsOk tenant (emptyTill periods parties).stores.docs :=
    docsOk_opening tenant periods parties
  constructor
  · intro hsteps
    have halong := along_of_eachStep
      (G := fun t : Till π => DocsOk tenant t.stores.docs ∧ WithinCollected t)
      (fun t call hG hcover =>
        ⟨CashCall.docsOk_step hG.1, CashCall.within_step hG.1 hG.2 hcover⟩)
      ⟨hopn, fun _ => le_rfl⟩ hsteps
    exact along_imp (fun _ hG => hG.2) halong
  · intro call docId req hreq hfull hwin
    refine CashCall.within_step_iff ?_ hwin hreq hfull
    exact foldl_invariant (I := fun t : Till π => DocsOk tenant t.stores.docs)
      (fun t call hdocs => CashCall.docsOk_step hdocs) hopn calls

namespace Sample

def cashCall (request : CashRequest) : CashCall "acme" := ⟨context, rfl, request⟩

def raiseInvoice : CashCall "acme" := cashCall (.flow (.create .invoice invoice))

def collect (id amount : String) : CashCall "acme" :=
  cashCall (.flow (.pay .invoice "inv-1" (payment id amount) noOverrides))

/-- A credit of all that is open, and then a refund of all that shows as paid. -/
def creditAll : CashCall "acme" := cashCall (.flow (.credit .invoice "inv-1"
  ⟨none, some "2026-08-03", none, none, none, none, noOverrides⟩))

def refund (id : String) : CashCall "acme" := cashCall (.refund "inv-1"
  ⟨⟨some id, some "2026-08-04", none, none, none, none, noOverrides⟩, none⟩)

def till : Till (InMemoryPeriodStore TenantId PeriodKey) := emptyTill .empty customers

end Sample

theorem refund_after_credit : ¬ Along CashCall.step WithinCollected Sample.till
    [Sample.raiseInvoice, Sample.creditAll, Sample.refund "r1"] := by
  intro h
  have hwin := h _ prefix_rfl "inv-1"
  exact absurd hwin (by decide +kernel)

theorem refund_of_payment : Along CashCall.step WithinCollected Sample.till
      [Sample.raiseInvoice, Sample.collect "p1" "40", Sample.refund "r1"] ∧
    ¬ CashCall.Covered ([Sample.raiseInvoice, Sample.collect "p1" "40",
      Sample.refund "r1"].foldl CashCall.step Sample.till) (Sample.refund "r2") := by
  have halong : Along CashCall.step WithinCollected Sample.till
      [Sample.raiseInvoice, Sample.collect "p1" "40", Sample.refund "r1"] := by
    refine (refunds_within_collections "acme" _ _ _).1 ?_
    refine eachStep_cons.mpr ⟨?_, eachStep_cons.mpr ⟨?_, eachStep_cons.mpr ⟨?_, eachStep_nil⟩⟩⟩
    · intro docId req h
      cases h
    · intro docId req h
      cases h
    · intro docId req h plan _ _
      cases h
      decide +kernel
  have hiff := (refunds_within_collections "acme" _ _ _).2 (Sample.refund "r2") _ _ rfl rfl
    (halong _ prefix_rfl)
  refine ⟨halong, fun hcover => ?_⟩
  have hwin := hiff.mpr hcover "inv-1"
  exact absurd hwin (by decide +kernel)

end Rgnr8.Service.ArAp
