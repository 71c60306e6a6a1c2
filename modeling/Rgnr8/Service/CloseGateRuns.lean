import Rgnr8.Service.ClosePublish

/-! What was open as of the end of a period, read off the activity of a run. The current open total
counts what came after the period as well, and the verdict of the gate can turn on it. -/

namespace Rgnr8.Service.CloseGate
open Lib Lib.Js Fallible Kernel Subledger Close ArAp ClosePublish Service.Statements Option

/-- What one call has moved the open amount of its document by. -/
structure Activity where
  kind : DocKind
  docDate : String
  date : String
  moved : Int

def kindOf : ArApRequest → DocKind
  | .create kind _ | .pay kind _ _ _ | .credit kind _ _ => kind

def docIdOf : ArApRequest → String
  | .create _ req => req.id
  | .pay _ docId _ _ | .credit _ docId _ => docId

def dateOf : ArApRequest → String
  | .create _ req => req.date
  | .pay _ _ req _ => req.date
  | .credit _ _ req => trim (req.date.getD "")

def openOn (docs : InMemoryDocumentStore) (tenant : TenantId) (r : ArApRequest) : Int :=
  ((docs.getDoc tenant (kindOf r) (docIdOf r)).map DocRecord.openMinor).getD 0

def activityOf (tenant : TenantId) (r : ArApRequest) (before after : InMemoryDocumentStore) :
    Activity where
  kind := kindOf r
  docDate := ((after.getDoc tenant (kindOf r) (docIdOf r)).map DocRecord.date).getD ""
  date := dateOf r
  moved := openOn after tenant r - openOn before tenant r

variable (day : String)

def Activity.by_ (a : Activity) : Prop :=
  ¬ Before day a.docDate ∧ ¬ Before day a.date

instance (day : String) (a : Activity) : Decidable (a.by_ day) :=
  inferInstanceAs (Decidable (_ ∧ _))

variable (kind : DocKind) (activity : List Activity)

def moves : Int :=
  (activity.map fun a => if a.kind = kind then a.moved else 0).sum

def openAsOf : Int :=
  moves kind (activity.filter fun a => a.by_ day)

def openSince : Int :=
  moves kind (activity.filter fun a => ¬ a.by_ day)

theorem moves_concat (a : Activity) :
    moves kind (activity ++ [a]) = moves kind activity + if a.kind = kind then a.moved else 0 := by
  unfold moves
  rw [List.map_append, List.sum_append, List.map_singleton, List.sum_singleton]

theorem openAsOf_add_openSince :
    openAsOf day kind activity + openSince day kind activity = moves kind activity := by
  unfold openAsOf openSince moves
  rw [← List.sum_append, ← List.map_append]
  have hperm := List.filter_append_perm (fun a : Activity => decide (a.by_ day)) activity
  simp only [decide_not]
  exact (hperm.map _).sum_eq

theorem openAsOf_concat {day : String} {a : Activity} (h : Before day a.date) (kind : DocKind)
    (activity : List Activity) :
    openAsOf day kind (activity ++ [a]) = openAsOf day kind activity := by
  have hout : ¬ a.by_ day := fun hin => hin.2 h
  unfold openAsOf
  rw [List.filter_append, List.filter_singleton, decide_eq_false hout]
  simp

/-! What a plan writes and posts. -/

/-- A plan moves the open total of its kind by what it moves its document by, and posts under the
date of the activity. -/
structure PlanDated (ctx : ArApContext) (docs : InMemoryDocumentStore) (r : ArApRequest)
    (plan : Plan) : Prop where
  items : ∀ k, (plan.write docs).openSum ctx.tenant k = docs.openSum ctx.tenant k +
    if kindOf r = k then openOn (plan.write docs) ctx.tenant r - openOn docs ctx.tenant r else 0
  others : ∀ t, t ≠ ctx.tenant → (plan.write docs).openSum t = docs.openSum t
  entryDate : plan.command.entryDate = dateOf r
  tenantId : plan.command.tenantId = ctx.tenant

theorem openSum_saveDoc_of_ne {docs : InMemoryDocumentStore} {t t' : TenantId} (h : t' ≠ t)
    (d : DocRecord) : (docs.saveDoc t d).openSum t' = docs.openSum t' := by
  funext k
  have hne : ¬ t = t' := fun heq => h heq.symm
  rw [InMemoryDocumentStore.openSum, InMemoryDocumentStore.saveDoc, OrderedMap.total_set]
  cases docs.docs.get? (t, d.kind, d.id) with
  | none => simp [hne, InMemoryDocumentStore.openSum]
  | some old => simp [hne, InMemoryDocumentStore.openSum]

section
variable {ctx : ArApContext} {docs : InMemoryDocumentStore} {plan : Plan} {kind : DocKind}
variable {docId : String} {doc : DocRecord}

theorem openSum_writeOpen_of_ne {t t' : TenantId} (h : t' ≠ t) (amount : Int) :
    (writeOpen docs t kind docId doc amount).openSum t' = docs.openSum t' := by
  unfold writeOpen InMemoryDocumentStore.setOpen
  cases docs.getDoc t kind docId with
  | none => rfl
  | some existing => exact openSum_saveDoc_of_ne h _

theorem getDoc_writeOpen {t : TenantId} (hget : docs.getDoc t kind docId = some doc) (amount : Int) :
    ((writeOpen docs t kind docId doc amount).getDoc t kind docId).map DocRecord.openMinor =
      some (doc.openMinor - amount) := by
  rw [writeOpen, InMemoryDocumentStore.getDoc_setOpen hget, if_pos ⟨rfl, rfl, rfl⟩]
  rfl

theorem dated_documentCommand {req : CreateDocumentRequest} {docLines : List DocumentLine}
    {ratePpm : Int} {draft : PostCommand × Int}
    (h : documentCommand kind req ctx docLines ratePpm = .ok draft) :
    draft.1.entryDate = req.date ∧ draft.1.tenantId = ctx.tenant := by
  cases kind with
  | invoice =>
    simp only [documentCommand, invoiceCommand, bind_eq_ok, mapError_eq_ok] at h
    obtain ⟨ar, -, payable, -, taxed, htaxed, hd⟩ := h
    obtain ⟨lines, ht⟩ := taxedInvoice htaxed
    rw [← Except.ok.inj hd, ht.command]
    exact ⟨rfl, rfl⟩
  | bill =>
    simp only [documentCommand, billCommand, bind_eq_ok, mapError_eq_ok] at h
    obtain ⟨ap, -, cmd, hcmd, hd⟩ := h
    obtain ⟨lines, -, rfl⟩ := lineCommand_eq_ok hcmd
    rw [← Except.ok.inj hd]
    exact ⟨rfl, rfl⟩

theorem planDated_create {req : CreateDocumentRequest} (h : planCreate kind req ctx docs = .ok plan) :
    PlanDated ctx docs (.create kind req) plan := by
  simp only [planCreate, bind_eq_ok, refuse_eq_ok, ne_eq, not_not] at h
  obtain ⟨-, -, hnew, party, -, draft, hdraft, hplan⟩ := h
  obtain rfl := Except.ok.inj hplan
  simp only [draftDocument, bind_eq_ok, refuse_eq_ok] at hdraft
  obtain ⟨b, -, -, due, -, rate, -, cmd, hcmd, hd⟩ := hdraft
  have hdated := dated_documentCommand hcmd
  obtain rfl := Except.ok.inj hd
  refine ⟨fun k => ?_, fun t ht => openSum_saveDoc_of_ne ht _, hdated.1, hdated.2⟩
  dsimp only [kindOf]
  have hopen : openOn docs ctx.tenant (.create kind req) = 0 := by
    simp only [openOn, kindOf, docIdOf, hnew, map_none, getD_none]
  rw [InMemoryDocumentStore.openSum_saveDoc, hopen]
  simp only [openOn, kindOf, docIdOf, InMemoryDocumentStore.getDoc_saveDoc, hnew, and_self,
    if_true, map_some, getD_some, map_none, getD_none, eq_comm (a := kind)]

theorem planDated_write {r : ArApRequest} {amount : Int}
    (hget : docs.getDoc ctx.tenant (kindOf r) (docIdOf r) = some doc) (k : DocKind) :
    let docs' := writeOpen docs ctx.tenant (kindOf r) (docIdOf r) doc amount
    docs'.openSum ctx.tenant k = docs.openSum ctx.tenant k +
      if kindOf r = k then openOn docs' ctx.tenant r - openOn docs ctx.tenant r else 0 := by
  intro docs'
  have hafter : openOn docs' ctx.tenant r = doc.openMinor - amount := by
    rw [openOn, getDoc_writeOpen hget]
    rfl
  have hbef : openOn docs ctx.tenant r = doc.openMinor := by
    rw [openOn, hget]
    rfl
  have hdiff : doc.openMinor - amount - doc.openMinor = -amount := by omega
  rw [openSum_writeOpen hget, hafter, hbef, hdiff]
  simp only [eq_comm]

theorem planDated_pay {req : RecordPaymentRequest} {accounts : ControlOverrides}
    (h : planPayment kind docId req ctx accounts docs = .ok plan) :
    PlanDated ctx docs (.pay kind docId req accounts) plan := by
  simp only [planPayment, bind_eq_ok, refuse_eq_ok] at h
  obtain ⟨-, doc, hdoc, draft, -, hplan⟩ := h
  obtain rfl := Except.ok.inj hplan
  have hget := found_eq_ok hdoc
  exact ⟨planDated_write (r := .pay kind docId req accounts) hget,
    fun t ht => openSum_writeOpen_of_ne ht _, rfl, rfl⟩

theorem planDated_credit {req : CreditRequest} (h : planCredit kind docId req ctx docs = .ok plan) :
    PlanDated ctx docs (.credit kind docId req) plan := by
  simp only [planCredit, bind_eq_ok, refuse_eq_ok] at h
  obtain ⟨-, doc, hdoc, draft, hdraft, hplan⟩ := h
  obtain rfl := Except.ok.inj hplan
  have hget := found_eq_ok hdoc
  simp only [draftCredit, bind_eq_ok, refuse_eq_ok, mapError_eq_ok] at hdraft
  obtain ⟨-, amount, -, -, code, -, -, -, lines, -, control, -, cmd, hcmd, hd⟩ := hdraft
  obtain rfl := Except.ok.inj hd
  have hdated : cmd.entryDate = trim (req.date.getD "") ∧ cmd.tenantId = ctx.tenant := by
    cases kind with
    | invoice =>
      obtain ⟨_, -, rfl⟩ := lineCommand_eq_ok hcmd
      exact ⟨rfl, rfl⟩
    | bill =>
      obtain ⟨_, -, rfl⟩ := lineCommand_eq_ok hcmd
      exact ⟨rfl, rfl⟩
  exact ⟨planDated_write (r := .credit kind docId req) hget,
    fun t ht => openSum_writeOpen_of_ne ht _, hdated.1, hdated.2⟩

theorem planDated {r : ArApRequest} (h : r.plan ctx docs = .ok plan) : PlanDated ctx docs r plan := by
  cases r with
  | create kind req => exact planDated_create h
  | pay kind docId req accounts => exact planDated_pay h
  | credit kind docId req => exact planDated_credit h

end

/-! Runs. -/

variable {π τ : Type}

inductive Happening where
  | arAp (ctx : ArApContext) (r : ArApRequest)
  | ledger (c : LedgerCall)

structure Dated (π : Type) where
  books : ArApStores π
  activity : List Activity

variable (tenant : TenantId)

def Dated.step [PeriodStore π] (s : Dated π) : Happening → Dated π
  | .arAp ctx r =>
    let books := ((r.program ctx).run ArApCall.exec s.books).2
    ⟨books, if ctx.tenant = tenant
      then s.activity ++ [activityOf tenant r s.books.docs books.docs] else s.activity⟩
  | .ledger c => ⟨{ s.books with ledger := (c.exec s.books.ledger).2 }, s.activity⟩

def Dated.opening (ledger : Ledger π)
    (parties : OrderedMap (TenantId × PartyKind × String) PartyRecord) : Dated π :=
  ⟨⟨ledger, .ofParties parties⟩, []⟩

def Dated.backend (s : Dated π) (rest : BackendStores π τ) : BackendStores π τ where
  close := { rest.close with ledger := s.books.ledger }
  recon := rest.recon
  docs := s.books.docs

/-- What a call leaves: nothing new, or what its plan writes and an entry of its date at most. -/
structure Recorded (ctx : ArApContext) (r : ArApRequest) (s s' : ArApStores π) : Prop where
  items : ∀ k, s'.docs.openSum ctx.tenant k = s.docs.openSum ctx.tenant k +
    if kindOf r = k then openOn s'.docs ctx.tenant r - openOn s.docs ctx.tenant r else 0
  others : ∀ t, t ≠ ctx.tenant → s'.docs.openSum t = s.docs.openSum t
  journal : ∀ t, s'.ledger.store.list t = s.ledger.store.list t ∨
    ∃ e, e.entryDate = dateOf r ∧ s'.ledger.store.list t = s.ledger.store.list t ++ [e]

theorem recorded_unchanged (ctx : ArApContext) (r : ArApRequest) (s : ArApStores π) :
    Recorded ctx r s s := by
  refine ⟨fun k => ?_, fun _ _ => rfl, fun _ => .inl rfl⟩
  rw [Int.sub_self, ite_self, Int.add_zero]

variable [PeriodStore π]

theorem recorded (ctx : ArApContext) (r : ArApRequest) (s : ArApStores π) :
    Recorded ctx r s ((r.program ctx).run ArApCall.exec s).2 := by
  have hleav : ((r.program ctx).run ArApCall.exec s).2 = carryOut ctx s (r.plan ctx s.docs) :=
    leaves_program ctx s r
  rw [hleav]
  cases hplan : r.plan ctx s.docs with
  | error e => exact recorded_unchanged ctx r s
  | ok plan =>
    have hd := planDated hplan
    have hout := carriedOut ctx s plan
    generalize hafter : carryOut ctx s (.ok plan) = s'
    rw [hafter] at hout
    cases hout with
    | refused => exact recorded_unchanged ctx r s
    | replayed _ => exact ⟨hd.items, hd.others, fun _ => .inl rfl⟩
    | posted hp =>
      refine ⟨hd.items, hd.others, fun t => ?_⟩
      let d := PostingEngine.draftOfCommand plan.command ⟨ctx.postedAt⟩ plan.command.lines
      have hlist : (postedTo ctx s plan).ledger.store.list t =
          if t = d.tenantId then s.ledger.store.list t ++ [(s.ledger.store.append d).1]
          else s.ledger.store.list t := InMemoryLedgerStore.list_append_of_none hp.free t
      have hdate : (s.ledger.store.append d).1.entryDate = dateOf r := by
        rw [InMemoryLedgerStore.append_of_none hp.free, ← hd.entryDate]
        rfl
      by_cases ht : t = d.tenantId
      · rw [if_pos ht] at hlist
        exact .inr ⟨_, hdate, hlist⟩
      · rw [if_neg ht] at hlist
        exact .inl hlist

def AddsUp (s : Dated π) : Prop :=
  ∀ kind, s.books.docs.openSum tenant kind = moves kind s.activity

theorem addsUp_step {tenant : TenantId} {s : Dated π} (h : AddsUp tenant s) (x : Happening) :
    AddsUp tenant (s.step tenant x) := by
  intro kind
  cases x with
  | ledger c => exact h kind
  | arAp ctx r =>
    have hr := recorded ctx r s.books
    unfold Dated.step
    dsimp only
    by_cases ht : ctx.tenant = tenant
    · subst ht
      rw [if_pos rfl, moves_concat, ← h kind]
      exact hr.items kind
    · rw [if_neg ht, hr.others tenant (fun heq => ht heq.symm)]
      exact h kind

omit [PeriodStore π] in
theorem addsUp_opening (ledger : Ledger π)
    (parties : OrderedMap (TenantId × PartyKind × String) PartyRecord) :
    AddsUp tenant (Dated.opening ledger parties) := fun _ => rfl

theorem addsUp_run (ledger : Ledger π)
    (parties : OrderedMap (TenantId × PartyKind × String) PartyRecord) (past : List Happening) :
    AddsUp tenant (past.foldl (Dated.step tenant) (Dated.opening ledger parties)) :=
  foldl_invariant (I := AddsUp tenant) (fun _ x h => addsUp_step h x)
    (addsUp_opening tenant ledger parties) past

/-- The gate tests a control against what was open as of the end of the period exactly when what
that leaves out, raised and settled since, nets to nothing, or the ledger agrees neither with what
was open then nor with what is open now. A call dated after the period moves neither side of that
comparison, and the verdict stays unless the ledger agrees with what is open just before the call or
just after it and the call moves what is open. -/
theorem gate_tests_its_period [PackageStore τ] (tenant : TenantId) (ledger : Ledger π)
    (parties : OrderedMap (TenantId × PartyKind × String) PartyRecord) (past : List Happening)
    (rest : BackendStores π τ) (ctx : StatementsContext) (periodEnd : String)
    (tbInBalance requireSignOff : Bool) (kind : DocKind) (hcontrol : HasControl ctx.chart kind) :
    let s := past.foldl (Dated.step tenant) (Dated.opening ledger parties)
    let tied := fun s : Dated π =>
      verdict ctx tenant periodEnd tbInBalance requireSignOff (s.backend rest) kind
    let gl := fun s : Dated π =>
      controlAsOf ctx.chart kind periodEnd (s.books.ledger.store.list tenant)
    let opened := fun s : Dated π => openAsOf periodEnd kind s.activity
    let since := fun s : Dated π => openSince periodEnd kind s.activity
    (tied s = some (decide (gl s = opened s)) ↔
      since s = 0 ∨ (gl s ≠ opened s ∧ gl s ≠ opened s + since s)) ∧
    ∀ callCtx r, Before periodEnd (dateOf r) →
      let s' := s.step tenant (.arAp callCtx r)
      gl s' = gl s ∧ opened s' = opened s ∧
      (tied s' = tied s ↔ since s' = since s ∨
        (gl s ≠ opened s + since s ∧ gl s ≠ opened s + since s')) := by
  intro s tied gl opened since
  -- the sub-ledger is summed today: it includes what came since
  have htied : ∀ s : Dated π, AddsUp tenant s →
      tied s = some (decide (gl s = opened s + since s)) := by
    intro s h
    have hver := verdict_eq hcontrol tenant periodEnd tbInBalance requireSignOff (s.backend rest)
    have hsum : (s.backend rest).docs.openSum tenant kind = opened s + since s := by
      rw [openAsOf_add_openSince]
      exact h kind
    rw [hsum] at hver
    exact hver
  have hs : AddsUp tenant s := addsUp_run tenant ledger parties past
  constructor
  · rw [htied s hs, some_inj, decide_eq_decide]
    omega
  · intro callCtx r hlater s'
    have hs' : AddsUp tenant s' := addsUp_step hs _
    have hgl : gl s' = gl s := by
      rcases (recorded callCtx r s.books).journal tenant with hsame | ⟨e, hdate, happ⟩
      · exact congrArg (controlAsOf ctx.chart kind periodEnd) hsame
      · refine (congrArg (controlAsOf ctx.chart kind periodEnd) happ).trans ?_
        exact controlAsOf_concat (hdate ▸ hlater) ctx.chart kind _
    have hopened : opened s' = opened s := by
      have hact : s'.activity = if callCtx.tenant = tenant then s.activity ++
          [activityOf tenant r s.books.docs s'.books.docs] else s.activity := rfl
      by_cases ht : callCtx.tenant = tenant
      · rw [if_pos ht] at hact
        refine (congrArg (openAsOf periodEnd kind) hact).trans ?_
        exact openAsOf_concat hlater kind _
      · rw [if_neg ht] at hact
        exact congrArg (openAsOf periodEnd kind) hact
    refine ⟨hgl, hopened, ?_⟩
    rw [htied s hs, htied s' hs', hgl, hopened, some_inj, decide_eq_decide]
    omega

/-! A dollar invoiced in August and forty cents of it collected in September, at the close of
August. -/

namespace Autumn

def withSubtype (a : Account) (subtype : AccountSubtype) : Account :=
  { a with subtype := some subtype }

def chart : ChartOfAccounts :=
  (ChartOfAccounts.ofAccounts
    [withSubtype (Kernel.Sample.account "cash" "1000" .asset) .bank,
      withSubtype (Kernel.Sample.account "ar" "1200" .asset) .accountsReceivable,
      Kernel.Sample.account "sales" "4000" .revenue]).toOption.getD .empty

def calls : ArApContext := ⟨"acme", chart, usd, "2026-08-01", none, fun a b => a ≤ b⟩

def reports : StatementsContext := ⟨fun a b => a ≤ b, chart, usd⟩

def ledger : Ledger (InMemoryPeriodStore TenantId PeriodKey) := ⟨.empty, .empty⟩

def raised : Happening := .arAp calls (.create .invoice ArAp.Sample.invoice)

def collected : RecordPaymentRequest :=
  { ArAp.Sample.payment "p1" "40" with date := "2026-09-02" }

def paid : ArApRequest := .pay .invoice "inv-1" collected ArAp.Sample.noOverrides

def rest : BackendStores (InMemoryPeriodStore TenantId PeriodKey) InMemoryPackageStore :=
  ⟨⟨ledger, .empty, .empty⟩, .empty, .empty⟩

def books (past : List Happening) : Dated (InMemoryPeriodStore TenantId PeriodKey) :=
  past.foldl (Dated.step "acme") (Dated.opening ledger ArAp.Sample.customers)

variable (s : Dated (InMemoryPeriodStore TenantId PeriodKey))

def tied : Option Bool :=
  verdict reports "acme" "2026-08-31" true false (s.backend rest) .invoice

def gl : Int :=
  controlAsOf chart .invoice "2026-08-31" (s.books.ledger.store.list "acme")

def opened : Int :=
  openAsOf "2026-08-31" .invoice s.activity

def since : Int :=
  openSince "2026-08-31" .invoice s.activity

end Autumn

open Autumn in
theorem august_ties_until_it_is_collected :
    (tied (books [raised]) = some (decide (gl (books [raised]) = opened (books [raised]))) ↔
      since (books [raised]) = 0 ∨ (gl (books [raised]) ≠ opened (books [raised]) ∧
        gl (books [raised]) ≠ opened (books [raised]) + since (books [raised]))) ∧
    since (books [raised]) = 0 := by
  have hctl : HasControl reports.chart .invoice := by
    unfold HasControl
    decide
  exact ⟨(gate_tests_its_period "acme" ledger ArAp.Sample.customers [raised] rest reports
    "2026-08-31" true false .invoice hctl).1, by decide +kernel⟩

open Autumn in
theorem collected_later_unties :
    (¬ ∀ past, tied (books past) = some (decide (gl (books past) = opened (books past)))) ∧
    ¬ ∀ past r, Before "2026-08-31" (dateOf r) →
      tied (books (past ++ [.arAp calls r])) = tied (books past) := by
  constructor
  · intro h
    exact absurd (h [raised, .arAp calls paid]) (by decide +kernel)
  · intro h
    exact absurd (h [raised] paid (by decide)) (by decide +kernel)

end Rgnr8.Service.CloseGate
