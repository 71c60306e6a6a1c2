import Rgnr8.Service.ArAp

/-! What one call of the AR/AP flows does, run alone on its stores: it decides on a command and on
a write-back from what it reads, posts the command, and writes back if the post returns. -/

namespace Rgnr8.Service.ArAp
open Lib Lib.Js Kernel Subledger Prog
variable {π : Type} [PeriodStore π]
variable (ctx : ArApContext)

theorem run_post (command : PostCommand) (s : ArApStores π) :
    (post ctx command).run ArApCall.exec s = match validated ctx command with
      | .error e => (.error e, s)
      | .ok () =>
        let r := (PostingEngine.post ctx.chart command ⟨ctx.postedAt⟩).run LedgerCall.exec s.ledger
        (r.1.mapError .ledger, { s with ledger := r.2 }) := by
  rw [post, bind_eq, run_bind]
  cases validated ctx command with
  | error e => rfl
  | ok u =>
    exact run_interpret ArApStores.ledger (fun ledger s => { s with ledger := ledger })
      (fun _ _ => rfl) (fun _ _ _ => rfl) (fun _ => rfl) (fun _ _ => rfl) _ s

/-- A call of one of the flows. -/
inductive ArApRequest where
  | create (kind : DocKind) (req : CreateDocumentRequest)
  | pay (kind : DocKind) (docId : String) (req : RecordPaymentRequest) (accounts : ControlOverrides)
  | credit (kind : DocKind) (docId : String) (req : CreditRequest)

inductive ArApResult where
  | created (r : CreateDocumentResult)
  | paid (r : RecordPaymentResult)
  | credited (r : CreditResult)

def ArApRequest.program : ArApRequest → ArApProg ArApResult
  | create kind req => do return .created (← createDocument kind req ctx)
  | pay kind docId req accounts => do return .paid (← recordPayment kind docId req ctx accounts)
  | credit kind docId req => do return .credited (← issueCredit kind docId req ctx)

/-- What a call has decided on once it has read the documents. -/
structure Plan where
  command : PostCommand
  write : InMemoryDocumentStore → InMemoryDocumentStore

variable (docs : InMemoryDocumentStore) (kind : DocKind) (docId : String)
variable (req : RecordPaymentRequest)

def paymentIdIn (ctx : ArApContext) : String :=
  if trim (req.id.getD "") = "" then
    s!"{docId}-p{(docs.listPayments ctx.tenant kind docId).length + 1}"
  else trim (req.id.getD "")

def writeOpen (tenant : TenantId) (kind : DocKind) (docId : String) (doc : DocRecord)
    (amount : Int) : InMemoryDocumentStore :=
  docs.setOpen tenant kind docId (doc.openMinor - amount)
    (statusFor (doc.openMinor - amount) doc.totalMinor)

def planCreate (req : CreateDocumentRequest) (ctx : ArApContext) (docs : InMemoryDocumentStore) :
    Except ArApFailure Plan := do
  validateDoc req
  if docs.getDoc ctx.tenant kind req.id ≠ none then
    .error (.arAp s!"{kind.text} {req.id} already exists")
  else
    let party ← found (docs.getParty ctx.tenant (partyKindOf kind) req.partyId)
      s!"unknown {(partyKindOf kind).text} {req.partyId}"
    let draft ← draftDocument kind req ctx party
    return ⟨draft.1, fun docs => docs.saveDoc ctx.tenant draft.2⟩

def planPayment (ctx : ArApContext) (accounts : ControlOverrides) (docs : InMemoryDocumentStore) :
    Except ArApFailure Plan :=
  if ¬ isIsoDate req.date then .error (.arAp "date must be YYYY-MM-DD")
  else do
    let doc ← found (docs.getDoc ctx.tenant kind docId) s!"unknown {kind.text} {docId}"
    let draft ← draftPayment kind docId req ctx accounts doc
    let paymentId := paymentIdIn docs kind docId req ctx
    return ⟨paymentCommand kind docId req ctx draft.lines paymentId, fun docs =>
      (writeOpen docs ctx.tenant kind docId doc draft.amount).addPayment ctx.tenant
        ⟨paymentId, kind, docId, req.date, draft.amount, draft.bankCode⟩⟩

def planCredit (req : CreditRequest) (ctx : ArApContext) (docs : InMemoryDocumentStore) :
    Except ArApFailure Plan :=
  let date := trim (req.date.getD "")
  if ¬ isIsoDate date then .error (.arAp "date must be YYYY-MM-DD")
  else do
    let doc ← found (docs.getDoc ctx.tenant kind docId) s!"unknown {kind.text} {docId}"
    let draft ← draftCredit kind docId date req ctx doc
    return ⟨draft.command, fun docs => writeOpen docs ctx.tenant kind docId doc draft.amount⟩

def ArApRequest.plan : ArApRequest → Except ArApFailure Plan
  | create kind req => planCreate kind req ctx docs
  | pay kind docId req accounts => planPayment kind docId req ctx accounts docs
  | credit kind docId req => planCredit kind docId req ctx docs

def carryOut (s : ArApStores π) : Except ArApFailure Plan → ArApStores π
  | .error _ => s
  | .ok plan => match (post ctx plan.command).run ArApCall.exec s with
    | (.ok _, s') => { s' with docs := plan.write s'.docs }
    | (.error _, s') => s'

/-- Run in `s`, the program leaves what the decision says. -/
def Leaves {α : Type} (s : ArApStores π) (p : ArApProg α) (x : Except ArApFailure Plan) :
    Prop := (p.run ArApCall.exec s).2 = carryOut ctx s x

namespace Leaves
variable {α β : Type} {ctx : ArApContext} {s : ArApStores π}

theorem check {x : Except ArApFailure α} {f : α → ArApProg β} {g : α → Except ArApFailure Plan}
    (h : ∀ a, Leaves ctx s (f a) (g a)) : Leaves ctx s (Prog.ofExcept x >>= f) (x >>= g) := by
  cases x with
  | error e => rfl
  | ok a => exact h a

variable {x : Except ArApFailure Plan}

theorem refuse {p : Prop} [Decidable p] {e : ArApFailure} {f : Unit → ArApProg β}
    (h : Leaves ctx s (f ()) x) :
    Leaves ctx s (Prog.refuseIf p e >>= f) (if p then .error e else x) := by
  by_cases hp : p
  · rw [refuseIf_pos hp, if_pos hp]
    rfl
  · rw [refuseIf_neg hp, if_neg hp]
    exact h

theorem read {c : ArApCall} {f : c.Answer → ArApProg β} (hc : (c.exec s).2 = s)
    (h : Leaves ctx s (f (c.exec s).1) x) : Leaves ctx s (Prog.perform c >>= f) x := by
  have hrun : ((perform c >>= f).run ArApCall.exec s).2 =
      ((f (c.exec s).1).run ArApCall.exec (c.exec s).2).2 := rfl
  rw [Leaves, hrun, hc]
  exact h

theorem post (plan : Plan) {f : PostedEntry → ArApProg β}
    (h : ∀ e s', ((f e).run ArApCall.exec s').2 =
      ({ s' with docs := plan.write s'.docs } : ArApStores π)) :
    Leaves ctx s (ArAp.post ctx plan.command >>= f) (.ok plan) := by
  rw [Leaves, bind_eq, run_bind, carryOut]
  rcases (ArAp.post ctx plan.command).run ArApCall.exec s with ⟨r, s'⟩
  cases r with
  | error e => rfl
  | ok e => exact h e s'

theorem result {p : ArApProg α} {f : α → β} (h : Leaves ctx s p x) :
    Leaves ctx s (p >>= fun a => Prog.ret (f a)) x := by
  rw [Leaves, bind_eq, run_bind, ← h]
  rcases p.run ArApCall.exec s with ⟨_ | _, _⟩ <;> rfl

end Leaves

section
variable (ctx : ArApContext) (s : ArApStores π)
variable (kind : DocKind)

theorem leaves_createDocument (req : CreateDocumentRequest) :
    Leaves ctx s (createDocument kind req ctx) (planCreate kind req ctx s.docs) := by
  unfold createDocument planCreate
  refine .check fun _ => .read rfl (.refuse (.read rfl (.check fun party => .check fun draft => ?_)))
  exact .post ⟨draft.1, fun docs => docs.saveDoc ctx.tenant draft.2⟩ fun _ _ => rfl

theorem leaves_recordPayment (docId : String) (req : RecordPaymentRequest)
    (accounts : ControlOverrides) : Leaves ctx s (recordPayment kind docId req ctx accounts)
      (planPayment kind docId req ctx accounts s.docs) := by
  unfold recordPayment planPayment
  refine .refuse (.read rfl (.check fun doc => .check fun draft => ?_))
  -- the id is the request's own, or counts the payments of the document
  have hpost : ∀ paymentId, Leaves ctx s
      (post ctx (paymentCommand kind docId req ctx draft.lines paymentId) >>=
        writePayment kind docId req ctx doc draft paymentId)
      (.ok ⟨paymentCommand kind docId req ctx draft.lines paymentId, fun docs =>
        (writeOpen docs ctx.tenant kind docId doc draft.amount).addPayment ctx.tenant
          ⟨paymentId, kind, docId, req.date, draft.amount, draft.bankCode⟩⟩) :=
    fun _ => .post ⟨_, _⟩ fun _ _ => rfl
  unfold paymentIdOf
  by_cases hid : trim (req.id.getD "") = ""
  · rw [if_pos hid]
    have hin : paymentIdIn s.docs kind docId req ctx =
      s!"{docId}-p{(s.docs.listPayments ctx.tenant kind docId).length + 1}" := if_pos hid
    rw [hin]
    exact hpost _
  · rw [if_neg hid]
    have hin : paymentIdIn s.docs kind docId req ctx = trim (req.id.getD "") := if_neg hid
    rw [hin]
    exact hpost _

theorem leaves_issueCredit (docId : String) (req : CreditRequest) :
    Leaves ctx s (issueCredit kind docId req ctx) (planCredit kind docId req ctx s.docs) := by
  unfold issueCredit planCredit
  refine .refuse (.read rfl (.check fun doc => .check fun draft => ?_))
  exact .post ⟨draft.command, fun docs =>
    writeOpen docs ctx.tenant kind docId doc draft.amount⟩ fun _ _ => rfl

theorem leaves_program (r : ArApRequest) : Leaves ctx s (r.program ctx) (r.plan ctx s.docs) := by
  cases r with
  | create kind req => exact (leaves_createDocument ctx s kind req).result
  | pay kind docId req accounts => exact (leaves_recordPayment ctx s kind docId req accounts).result
  | credit kind docId req => exact (leaves_issueCredit ctx s kind docId req).result

end

variable (ctx : ArApContext) (s : ArApStores π)

/-- The command of the plan is one that the journal already answers: an entry under its key has
its fingerprint. -/
def Replays (plan : Plan) : Prop :=
  validated ctx plan.command = .ok () ∧ ∃ e, s.ledger.store.getByIdempotencyKey
    plan.command.tenantId plan.command.idempotencyKey = some e ∧
      fingerprintOfEntry e = fingerprintOfCommand plan.command

theorem carryOut_of_replays {ctx : ArApContext} {s : ArApStores π} {plan : Plan}
    (h : Replays ctx s plan) :
    carryOut ctx s (.ok plan) = { s with docs := plan.write s.docs } := by
  obtain ⟨hvalid, e, hkey, hsame⟩ := h
  rw [carryOut, run_post, hvalid]
  dsimp only
  rw [PostingEngine.post, PostingEngine.run_settle_of_some hkey, if_pos hsame]
  rfl

/-- The ledger will take the command if its key is free. -/
structure Postable (ctx : ArApContext) (periods : π) (command : PostCommand) : Prop where
  valid : validated ctx command = .ok ()
  opened : PeriodStore.status periods command.tenantId command.periodKey ≠ .locked
  lines : ∃ lines, validateAndBuildLines command.lines command.currency ctx.chart = .ok lines

structure Posts (ctx : ArApContext) (s : ArApStores π) (plan : Plan) : Prop where
  postable : Postable ctx s.ledger.periods plan.command
  free : s.ledger.store.getByIdempotencyKey plan.command.tenantId plan.command.idempotencyKey = none

def postedTo (plan : Plan) : ArApStores π :=
  ⟨s.ledger.append (PostingEngine.draftOfCommand plan.command ⟨ctx.postedAt⟩ plan.command.lines),
    plan.write s.docs⟩

/-- The three ends of a plan: it is not carried out, it is answered with an entry that is already
there, or it is posted and written back. -/
inductive CarriedOut (ctx : ArApContext) (s : ArApStores π) (plan : Plan) : ArApStores π → Prop where
  | refused : CarriedOut ctx s plan s
  | replayed (h : Replays ctx s plan) : CarriedOut ctx s plan { s with docs := plan.write s.docs }
  | posted (h : Posts ctx s plan) : CarriedOut ctx s plan (postedTo ctx s plan)

theorem carriedOut (plan : Plan) : CarriedOut ctx s plan (carryOut ctx s (.ok plan)) := by
  rw [carryOut, run_post]
  cases hvalid : validated ctx plan.command with
  | error e => exact .refused
  | ok u =>
    dsimp only
    rw [PostingEngine.post]
    generalize hr : run LedgerCall.exec (PostingEngine.settle _ _ _ _ _) s.ledger = r
    have hs := PostingEngine.settled plan.command.tenantId plan.command.idempotencyKey
      plan.command.periodKey (fingerprintOfCommand plan.command)
      ((validateAndBuildLines plan.command.lines plan.command.currency ctx.chart).map
        (PostingEngine.draftOfCommand plan.command ⟨ctx.postedAt⟩)) s.ledger
    rw [hr] at hs
    cases hs with
    | replayed hkey hsame => exact .replayed ⟨hvalid, _, hkey, hsame⟩
    | refused err => exact .refused
    | appended hfree hopen hdraft =>
      obtain ⟨lines, hlines, -⟩ := Fallible.map_eq_ok.mp hdraft
      obtain ⟨rfl, -⟩ := PostingEngine.draft_of_post hdraft
      exact .posted ⟨⟨hvalid, hopen, lines, hlines⟩, hfree⟩

theorem carryOut_of_posts {ctx : ArApContext} {s : ArApStores π} {plan : Plan}
    (h : Posts ctx s plan) : carryOut ctx s (.ok plan) = postedTo ctx s plan := by
  obtain ⟨⟨hvalid, hopen, lines, hlines⟩, hfree⟩ := h
  obtain ⟨-, -, -, rfl⟩ := validateAndBuildLines_eq_ok.mp hlines
  rw [carryOut, run_post, hvalid]
  dsimp only
  rw [PostingEngine.post, PostingEngine.run_settle_of_none hfree, PostingEngine.run_appendFresh,
    if_neg hopen, hlines]
  rfl

end Rgnr8.Service.ArAp
