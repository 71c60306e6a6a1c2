import Rgnr8.Service.ControlAccounts

/-! The control accounts against the open documents, over any run of the three flows. The post is
idempotent and the write-back is not, so the two part where a post is answered with an entry that
is already there. They also part where a command has a second line on a control account, and in
no other case. -/

namespace Rgnr8.Service.ArAp
open Lib Lib.Js Fallible Kernel Subledger InMemoryDocumentStore

def DocsOk (tenant : TenantId) (docs : InMemoryDocumentStore) : Prop :=
  ∀ k id d, docs.getDoc tenant k id = some d → d.taxMinor ≤ d.totalMinor

structure PlanMoves (c : ControlCodes) (ctx : ArApContext) (docs : InMemoryDocumentStore)
    (plan : Plan) (kind : DocKind) (amount : Int) : Prop where
  command : CommandMoves c ctx kind amount plan.command
  items : ∀ k, (plan.write docs).openSum ctx.tenant k =
    docs.openSum ctx.tenant k + if k = kind then amount else 0
  amount_ne : amount ≠ 0
  docsOk : DocsOk ctx.tenant (plan.write docs)

def ArApRequest.accounts : ArApRequest → ControlOverrides
  | create _ req => req.accounts
  | pay _ _ _ accounts => accounts
  | credit _ _ req => req.accounts

theorem found_eq_ok {α : Type} {x : Option α} {message : String} {a : α}
    (h : found x message = .ok a) : x = some a := by
  cases x with
  | none => cases h
  | some b => rw [Except.ok.inj h]

section
variable {c : ControlCodes} {ctx : ArApContext} {docs : InMemoryDocumentStore} {plan : Plan}
variable {kind : DocKind} {docId : String} {doc : DocRecord} {amount : Int}
variable {tenant : TenantId}

theorem docsOk_saveDoc (hdocs : DocsOk tenant docs) (hdoc : doc.taxMinor ≤ doc.totalMinor) :
    DocsOk tenant (docs.saveDoc tenant doc) := by
  intro k id d hd
  rw [getDoc_saveDoc] at hd
  split_ifs at hd with hkey
  · rwa [← Option.some.inj hd]
  · exact hdocs k id d hd

theorem docsOk_writeOpen (hdocs : DocsOk tenant docs)
    (hget : docs.getDoc tenant kind docId = some doc) :
    DocsOk tenant (writeOpen docs tenant kind docId doc amount) := by
  intro k id d hd
  rw [writeOpen, getDoc_setOpen hget] at hd
  split_ifs at hd with hkey
  · have hdoc := hdocs kind docId doc hget
    rwa [← Option.some.inj hd]
  · exact hdocs k id d hd

theorem openSum_writeOpen (hget : docs.getDoc tenant kind docId = some doc) (k : DocKind) :
    (writeOpen docs tenant kind docId doc amount).openSum tenant k =
      docs.openSum tenant k + if k = kind then -amount else 0 := by
  have hdiff : doc.openMinor - amount - doc.openMinor = -amount := by omega
  rw [writeOpen, openSum_setOpen hget, hdiff]

theorem moves_planCreate {req : CreateDocumentRequest}
    (hctrl : c.Used (controls ctx.localeLe ctx.chart req.accounts)) (hdocs : DocsOk ctx.tenant docs)
    (h : planCreate kind req ctx docs = .ok plan) :
    ∃ amount, PlanMoves c ctx docs plan kind amount := by
  simp only [planCreate, bind_eq_ok, refuse_eq_ok, ne_eq, not_not] at h
  obtain ⟨-, -, hnew, party, -, draft, hdraft, hplan⟩ := h
  have hplan := Except.ok.inj hplan
  subst hplan
  have hr := raised hdraft hctrl
  refine ⟨draft.2.openMinor, hr.moves, fun k => ?_, hr.pos.ne', docsOk_saveDoc hdocs hr.tax_le⟩
  dsimp only
  rw [openSum_saveDoc, hr.kind_eq, hr.id_eq, hnew]
  simp only [Option.map_none, Option.getD_none, Int.sub_zero]

theorem moves_planPayment {req : RecordPaymentRequest} {accounts : ControlOverrides}
    (hctrl : c.Used (controls ctx.localeLe ctx.chart accounts)) (hdocs : DocsOk ctx.tenant docs)
    (h : planPayment kind docId req ctx accounts docs = .ok plan) :
    ∃ amount, PlanMoves c ctx docs plan kind amount := by
  simp only [planPayment, bind_eq_ok, refuse_eq_ok] at h
  obtain ⟨-, doc, hdoc, draft, hdraft, hplan⟩ := h
  have hplan := Except.ok.inj hplan
  subst hplan
  have hget := found_eq_ok hdoc
  obtain ⟨hpos, hanc⟩ := moves_draftPayment hdraft hctrl
  refine ⟨-draft.amount, ⟨rfl, hanc⟩, fun k => ?_, by omega, ?_⟩
  · dsimp only
    rw [openSum_addPayment]
    exact openSum_writeOpen hget k
  · exact docsOk_writeOpen hdocs hget

theorem moves_planCredit {req : CreditRequest}
    (hctrl : c.Used (controls ctx.localeLe ctx.chart req.accounts)) (hdocs : DocsOk ctx.tenant docs)
    (h : planCredit kind docId req ctx docs = .ok plan) :
    ∃ amount, PlanMoves c ctx docs plan kind amount := by
  simp only [planCredit, bind_eq_ok, refuse_eq_ok] at h
  obtain ⟨-, doc, hdoc, draft, hdraft, hplan⟩ := h
  have hplan := Except.ok.inj hplan
  subst hplan
  have hget := found_eq_ok hdoc
  obtain ⟨hpos, hmoves⟩ := moves_draftCredit hdraft hctrl (hdocs kind docId doc hget)
  exact ⟨-draft.amount, hmoves, fun k => openSum_writeOpen hget k, by omega,
    docsOk_writeOpen hdocs hget⟩

theorem planMoves {r : ArApRequest} (hr : c.Used (controls ctx.localeLe ctx.chart r.accounts))
    (hdocs : DocsOk ctx.tenant docs) (h : r.plan ctx docs = .ok plan) :
    ∃ kind amount, PlanMoves c ctx docs plan kind amount := by
  cases r with
  | create kind req => exact ⟨kind, moves_planCreate hr hdocs h⟩
  | pay kind docId req accounts => exact ⟨kind, moves_planPayment hr hdocs h⟩
  | credit kind docId req => exact ⟨kind, moves_planCredit hr hdocs h⟩

end

/-! Runs. -/

variable {π : Type}

def TieOut (c : ControlCodes) (ctx : ArApContext) (s : ArApStores π) : Prop :=
  ∀ kind, c.balance ctx.chart kind (s.ledger.store.list ctx.tenant) =
    s.docs.openSum ctx.tenant kind

structure ControlCall (c : ControlCodes) (ctx : ArApContext) where
  postedAt : String
  request : ArApRequest
  used : c.Used (controls ctx.localeLe ctx.chart request.accounts)

namespace ControlCall
variable {c : ControlCodes} {ctx : ArApContext}

def context (call : ControlCall c ctx) : ArApContext := { ctx with postedAt := call.postedAt }

def step [PeriodStore π] (s : ArApStores π) (call : ControlCall c ctx) : ArApStores π :=
  ((call.request.program call.context).run ArApCall.exec s).2

/-- The call does not come to a post that an entry already there answers, and a command that it
does post has one line on a control account. -/
def Ties [PeriodStore π] (s : ArApStores π) (call : ControlCall c ctx) : Prop :=
  ∀ plan, call.request.plan call.context s.docs = .ok plan → ¬ Replays call.context s plan ∧
    (Posts call.context s plan → (c.linesOn ctx.chart plan.command.lines).length = 1)

end ControlCall

/-- Nothing posted and no document yet. -/
def opening (periods : π) (parties : OrderedMap (TenantId × PartyKind × String) PartyRecord) :
    ArApStores π := ⟨⟨.empty, periods⟩, .ofParties parties⟩

section
variable {c : ControlCodes} {ctx : ArApContext} {s : ArApStores π} {plan : Plan} {kind : DocKind}
variable {amount : Int}

theorem tieOut_opening (c : ControlCodes) (ctx : ArApContext) (periods : π)
    (parties : OrderedMap (TenantId × PartyKind × String) PartyRecord) :
    TieOut c ctx (opening periods parties) := fun _ => ControlCodes.balance_nil _

theorem docsOk_opening (tenant : TenantId) (periods : π)
    (parties : OrderedMap (TenantId × PartyKind × String) PartyRecord) :
    DocsOk tenant (opening periods parties).docs := by
  intro k id d h
  have hnone : (opening periods parties).docs.getDoc tenant k id = none := rfl
  rw [hnone] at h
  cases h

theorem tieOut_postedTo_iff (h : TieOut c ctx s) (hm : PlanMoves c ctx s.docs plan kind amount)
    (hfree : s.ledger.store.getByIdempotencyKey plan.command.tenantId
      plan.command.idempotencyKey = none) :
    TieOut c ctx (postedTo ctx s plan) ↔ (c.linesOn ctx.chart plan.command.lines).length = 1 := by
  obtain ⟨pre, l, post, hlines, hanc⟩ := hm.command.anchored
  let d := PostingEngine.draftOfCommand plan.command ⟨ctx.postedAt⟩ plan.command.lines
  have htenant : ctx.tenant = d.tenantId := hm.command.tenant.symm
  have hlist : (postedTo ctx s plan).ledger.store.list ctx.tenant =
      s.ledger.store.list ctx.tenant ++ [(s.ledger.store.append d).1] := by
    refine (InMemoryLedgerStore.list_append_of_none hfree ctx.tenant).trans ?_
    rw [if_pos htenant]
  have happ : (s.ledger.store.append d).1.lines = plan.command.lines := by
    rw [InMemoryLedgerStore.append_of_none hfree]
    rfl
  have hbalance : ∀ k, c.balance ctx.chart k ((postedTo ctx s plan).ledger.store.list ctx.tenant) =
      s.docs.openSum ctx.tenant k + c.net ctx.chart k plan.command.lines := by
    intro k
    rw [hlist, ControlCodes.balance_concat, happ, h k]
  rw [hlines, ← hanc.moves_iff, ← hlines]
  refine forall_congr' fun k => ?_
  have hitems := hm.items k
  rw [hbalance k]
  change _ = (plan.write s.docs).openSum ctx.tenant k ↔ _
  rw [hitems]
  exact Int.add_right_inj _

theorem not_tieOut_written (h : TieOut c ctx s) (hm : PlanMoves c ctx s.docs plan kind amount) :
    ¬ TieOut c ctx { s with docs := plan.write s.docs } := by
  intro htie
  have hafter := htie kind
  have hitems := hm.items kind
  rw [if_pos rfl] at hitems
  dsimp only at hafter
  rw [h kind, hitems] at hafter
  exact hm.amount_ne (by omega)

variable [PeriodStore π]
variable (call : ControlCall c ctx)

theorem step_eq : call.step s = carryOut call.context s (call.request.plan call.context s.docs) :=
  leaves_program call.context s call.request

theorem ControlCall.planMoves {docs : InMemoryDocumentStore} (hdocs : DocsOk ctx.tenant docs)
    (h : call.request.plan call.context docs = .ok plan) :
    ∃ kind amount, PlanMoves c call.context docs plan kind amount :=
  ArAp.planMoves call.used hdocs h

theorem tieOut_step (hdocs : DocsOk ctx.tenant s.docs) (h : TieOut c ctx s) (hties : call.Ties s) :
    DocsOk ctx.tenant (call.step s).docs ∧ TieOut c ctx (call.step s) := by
  rw [step_eq]
  cases hplan : call.request.plan call.context s.docs with
  | error e => exact ⟨hdocs, h⟩
  | ok plan =>
    obtain ⟨hrep, hone⟩ := hties plan hplan
    obtain ⟨kind, amount, hm⟩ := call.planMoves hdocs hplan
    have htie : TieOut c call.context s := h
    generalize hafter : carryOut call.context s (.ok plan) = s'
    have hout := carriedOut call.context s plan
    rw [hafter] at hout
    cases hout with
    | refused => exact ⟨hdocs, h⟩
    | replayed hr => exact absurd hr hrep
    | posted hp => exact ⟨hm.docsOk, (tieOut_postedTo_iff htie hm hp.free).mpr (hone hp)⟩

theorem not_tieOut_step (hdocs : DocsOk ctx.tenant s.docs) (h : TieOut c ctx s)
    (hties : ¬ call.Ties s) : ¬ TieOut c ctx (call.step s) := by
  simp only [ControlCall.Ties, not_forall, Classical.not_and_iff_not_or_not, not_not] at hties
  obtain ⟨plan, hplan, hbad⟩ := hties
  obtain ⟨kind, amount, hm⟩ := call.planMoves hdocs hplan
  have htie : TieOut c call.context s := h
  rw [step_eq, hplan]
  -- written back without an entry, or posted with a second line on the accounts
  rcases hbad with hrep | ⟨hp, hmore⟩
  · rw [carryOut_of_replays hrep]
    have hnot : ¬ TieOut c call.context { s with docs := plan.write s.docs } :=
      not_tieOut_written htie hm
    exact hnot
  · rw [carryOut_of_posts hp]
    exact fun hties => hmore ((tieOut_postedTo_iff htie hm hp.free).mp hties)

end

/-- The control accounts tie out after every call of a run exactly when no call of the run is
answered with an entry that was already there, and none posts a second line on a control account. -/
theorem along_tieOut_iff [PeriodStore π] (c : ControlCodes) (ctx : ArApContext) (periods : π)
    (parties : OrderedMap (TenantId × PartyKind × String) PartyRecord)
    (calls : List (ControlCall c ctx)) :
    Along ControlCall.step (TieOut c ctx) (opening periods parties) calls ↔
      EachStep ControlCall.step (fun s call => call.Ties s) (opening periods parties) calls :=
  along_iff_eachStep (J := fun s : ArApStores π => DocsOk ctx.tenant s.docs)
    (fun _ call hd h hties => tieOut_step call hd h hties)
    (fun _ call hd h hties => not_tieOut_step call hd h hties)
    (docsOk_opening ctx.tenant periods parties) (tieOut_opening c ctx periods parties) calls

/-! A business with one customer, one invoice of a dollar and payments on it, to try runs on. -/

namespace Sample

def chart : ChartOfAccounts :=
  (ChartOfAccounts.ofAccounts
    [Kernel.Sample.account "cash" "1000" .asset, Kernel.Sample.account "ar" "1200" .asset,
      Kernel.Sample.account "ap" "2000" .liability,
      Kernel.Sample.account "sales" "4000" .revenue]).toOption.getD .empty

def context : ArApContext := ⟨"acme", chart, usd, "2026-08-01", none, fun a b => a ≤ b⟩

def customers : OrderedMap (TenantId × PartyKind × String) PartyRecord :=
  (InMemoryDocumentStore.empty.upsertParty "acme" .customer ⟨"globex", "Globex", none⟩).parties

def noOverrides : ControlOverrides := ⟨none, none, none⟩

def invoice : CreateDocumentRequest where
  id := "inv-1"
  partyId := "globex"
  date := "2026-08-01"
  dueDate := none
  termsDays := none
  memo := none
  lines := [⟨none, none, .text "100", "4000", none, none⟩]
  accounts := noOverrides
  taxRatePpm := none
  salesTaxCode := none

def payment (id amount : String) : RecordPaymentRequest :=
  ⟨some id, "2026-08-02", .text amount, none, none, none⟩

def raise : ControlCall defaultCodes context where
  postedAt := "2026-08-01"
  request := .create .invoice invoice
  used kind := by cases kind <;> decide

def payForty : ControlCall defaultCodes context where
  postedAt := "2026-08-02"
  request := .pay .invoice "inv-1" (payment "p1" "40") noOverrides
  used kind := by cases kind <;> decide

end Sample

theorem payment_sent_twice : ¬ Along ControlCall.step (TieOut defaultCodes Sample.context)
    (opening (InMemoryPeriodStore.empty : InMemoryPeriodStore TenantId PeriodKey)
      Sample.customers) [Sample.raise, Sample.payForty, Sample.payForty] := by
  intro h
  have htie := h _ List.prefix_rfl .invoice
  exact absurd htie (by decide +kernel)

end Rgnr8.Service.ArAp
