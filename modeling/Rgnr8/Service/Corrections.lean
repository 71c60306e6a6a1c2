import Rgnr8.Service.ArApSpec
import Rgnr8.Service.Inbox
import Rgnr8.Service.Payroll

/-! The routes that correct an entry by reversing it, among all that post: the reversal of a journal
entry, the undo of a bank line and the void of a payroll run, each under a key of its own. The books
are the tenant's own; a tenant whose books QuickBooks keeps is refused all of this by its store. -/

namespace Rgnr8.Service.Corrections
open Lib Lib.Js Kernel ArAp Inbox Payroll Prog

/-! `POST /t/<tenant>/entries/<id>/reverse`. -/

inductive ReverseFailure where
  | bad (message : String)
  | notFound (message : String)
  | ledger (e : LedgerError)

def reverseDate (data : List (String × Json)) (original : PostedEntry) : Except ReverseFailure String :=
  let date := trim (str (lookup data "date"))
  let date := if date = "" then original.entryDate else date
  if ¬ isIsoDate date then .error (.bad "date must be YYYY-MM-DD") else .ok date

variable (ctx : EntryContext)

def reverseRequest (clock : Clock) (entryId : EntryId) (data : List (String × Json))
    (original : PostedEntry) (date : String) : ReverseRequest where
  coa := ctx.dimensions.chart
  tenant := ctx.tenant
  originalId := original.id
  opts := {
    idempotencyKey := "reverse:" ++ entryId
    periodKey := periodOf date
    entryDate := date
    postedAt := clock.postedAt
    provenance := Service.provenanceFor "manual-reversal" date clock.ingestedAt
    memo := if trim (str (lookup data "memo")) = "" then none
      else some (trim (str (lookup data "memo"))) }

def foundEntry (entryId : EntryId) (found : Option PostedEntry) : Except ReverseFailure PostedEntry :=
  match found with
  | none => .error (.notFound s!"unknown entry {entryId}")
  | some original => .ok original

def parsedBody (body : String) : Except ReverseFailure (List (String × Json)) :=
  match parseJson ctx.parse body with
  | none => .error (.bad "invalid JSON body")
  | some data => .ok data

def reverseEntry (clock : Clock) (entryId : EntryId) (body : String) :
    Prog LedgerCall LedgerCall.Answer ReverseFailure PostedEntry := do
  let data ← Prog.ofExcept (parsedBody ctx body)
  let found ← Prog.perform (LedgerCall.getById ctx.tenant entryId)
  let original ← Prog.ofExcept (foundEntry entryId found)
  let date ← Prog.ofExcept (reverseDate data original)
  (reverseRequest ctx clock entryId data original date).program.interpret Prog.perform .ledger

/-! The routes together. -/

structure Backend (π : Type) where
  ledger : Ledger π
  docs : InMemoryDocumentStore
  feed : FeedStore
  payroll : PayrollStore

namespace Backend
variable {π : Type}

def opening (periods : π) (docs : InMemoryDocumentStore) (feed : FeedStore) (payroll : PayrollStore) :
    Backend π := ⟨⟨.empty, periods⟩, docs, feed, payroll⟩

variable (b : Backend π)

def books : ArApStores π := ⟨b.ledger, b.docs⟩

def inbox : InboxStores π := ⟨b.books, b.feed⟩

def payrolls : Stores π PayrollStore := ⟨b.ledger, b.payroll⟩

def withBooks (s : ArApStores π) : Backend π :=
  { b with ledger := s.ledger, docs := s.docs }

def withInbox (s : InboxStores π) : Backend π :=
  { b with ledger := s.books.ledger, docs := s.books.docs, feed := s.feed }

def withPayroll (s : Stores π PayrollStore) : Backend π :=
  { b with ledger := s.ledger, payroll := s.own }

end Backend

/-- What happens to the books of a tenant. `post` is any route that posts, under any key. -/
inductive BackendOp where
  | post (coa : ChartOfAccounts) (command : PostCommand) (opts : PostOptions)
  | periods (op : PeriodOp TenantId PeriodKey)
  | party (tenant : TenantId) (kind : PartyKind) (party : PartyRecord)
  | arAp (ctx : ArApContext) (r : ArApRequest)
  | reverse (ctx : EntryContext) (clock : Clock) (entryId : EntryId) (body : String)
  | deliver (ctx : InboxContext) (accountCode : String) (txns : List FeedTxnInput) (source : String)
      (clocks : List Clock)
  | accept (ctx : InboxContext) (clock : Clock) (id categoryCode : String)
      (dimensions : Option Dimensions)
  | matchDoc (ctx : InboxContext) (postedAt id docKind docId : String)
  | exclude (ctx : InboxContext) (id reason : String)
  | undo (ctx : InboxContext) (clock : Clock) (id : String)
  | employee (ctx : PayrollContext) (input : EmployeeInput)
  | createRun (ctx : PayrollContext) (req : CreateRunRequest)
  | postRun (ctx : PayrollContext) (clock : Clock) (id : String) (overrides : CodeOverrides)
  | voidRun (ctx : PayrollContext) (clock : Clock) (id : String)
  | remit (ctx : PayrollContext) (clock : Clock) (req : RemitRequest)

section
variable {π : Type} [PeriodStore π]

def inboxStep {α : Type} (p : InboxProg α) (b : Backend π) : Backend π :=
  b.withInbox (p.run InboxCall.exec b.inbox).2

def payrollStep {α : Type} (p : PayrollProg α) (b : Backend π) : Backend π :=
  b.withPayroll (p.run PayrollCall.exec b.payrolls).2

variable (b : Backend π)

def step : BackendOp → Backend π
  | .post coa command opts =>
    { b with ledger := ((PostingEngine.post coa command opts).run LedgerCall.exec b.ledger).2 }
  | .periods op => { b with ledger.periods := PeriodStore.apply b.ledger.periods op }
  | .party tenant kind party => { b with docs := b.docs.upsertParty tenant kind party }
  | .arAp ctx r => b.withBooks ((r.program ctx).run ArApCall.exec b.books).2
  | .reverse ctx clock entryId body =>
    { b with ledger := ((reverseEntry ctx clock entryId body).run LedgerCall.exec b.ledger).2 }
  | .deliver ctx accountCode txns source clocks =>
    inboxStep (deliverFeed ctx accountCode txns source clocks) b
  | .accept ctx clock id categoryCode dimensions =>
    inboxStep (acceptTxn ctx clock id categoryCode dimensions) b
  | .matchDoc ctx postedAt id docKind docId => inboxStep (matchTxn ctx postedAt id docKind docId) b
  | .exclude ctx id reason => inboxStep (excludeTxn ctx id reason) b
  | .undo ctx clock id => inboxStep (undoTxn ctx clock id) b
  | .employee ctx input => payrollStep (Payroll.saveEmployee ctx input) b
  | .createRun ctx req => payrollStep (Payroll.createRun ctx req) b
  | .postRun ctx clock id overrides => payrollStep (Payroll.postRun ctx clock id overrides) b
  | .voidRun ctx clock id => payrollStep (Payroll.voidRun ctx clock id) b
  | .remit ctx clock req => payrollStep (Payroll.remit ctx clock req) b

def asked : BackendOp → Option ReverseRequest
  | .reverse ctx clock entryId body =>
    match parsedBody ctx body, b.ledger.store.getById ctx.tenant entryId with
    | .ok data, some original => (reverseDate data original).toOption.map fun date =>
        reverseRequest ctx clock entryId data original date
    | _, _ => none
  | .undo ctx clock id => (b.feed.getTxn ctx.tenant id).bind fun txn =>
      if txn.status = .pending ∨ txn.entryId = "" then none else some (undoRequest ctx clock txn)
  | .voidRun ctx clock id => (b.payroll.getRun ctx.tenant id).bind fun run =>
      if run.status = .posted then some (voidRequest ctx clock run) else none
  | _ => none

/-- No entry has two reversals, and one that has been reversed comes to nothing with its reversal. -/
structure Sound (b : Backend π) : Prop where
  once : ∀ tenant id, (b.ledger.reversalsOf tenant id).length ≤ 1
  toZero : ∀ tenant, ∀ e ∈ b.ledger.journal tenant, b.ledger.Reversed tenant e.id →
    b.ledger.NetsToZero tenant e

variable (op : BackendOp)

/-- Nothing is taken from the journal, and a correction that returns has the entry reversed: the
reversal route returns the reversal, the others leave it on record. -/
def Corrected : Prop :=
  (∀ tenant, b.ledger.journal tenant <+: (step b op).ledger.journal tenant) ∧
    match op with
    | .reverse ctx clock entryId body =>
      ∀ e, ((reverseEntry ctx clock entryId body).run LedgerCall.exec b.ledger).1 = .ok e →
        e.reversalOf = some entryId
    | .undo ctx clock id =>
      ∀ r, ((undoTxn ctx clock id).run InboxCall.exec b.inbox).1 = .ok r →
        ∀ txn ∈ b.feed.getTxn ctx.tenant id, txn.entryId ≠ "" →
          (step b op).ledger.Reversed ctx.tenant txn.entryId
    | .voidRun ctx clock id =>
      ∀ r, ((Payroll.voidRun ctx clock id).run PayrollCall.exec b.payrolls).1 = .ok r →
        ∀ run ∈ b.payroll.getRun ctx.tenant id,
          (step b op).ledger.Reversed ctx.tenant run.entryId
    | _ => True

def First : Prop :=
  ∀ q ∈ asked b op, ∀ original, b.ledger.AppendsReversal q original →
    ¬ b.ledger.Reversed q.tenant q.originalId

/-- An entry that the journal answers a request with, under the key of the request, is the reversal
asked for; to an undo or a void it is enough that the reversal is on record. -/
def AnsweredByReversal : Prop :=
  ∀ q ∈ asked b op, ∀ e, b.ledger.AnswersReversal q e →
    match op with
    | .reverse .. => e.reversalOf = some q.originalId
    | _ => b.ledger.Reversed q.tenant q.originalId

end

/-! The routes that reverse nothing: whatever their calls are answered, the drafts they append are
plain, and the reversals on record stay as they were. -/

-- a program is taken apart by the lemmas about `Makes` and never computed
attribute [local irreducible] Prog.Makes

def Plain (c : LedgerCall) : Prop := c.AppendsOnly fun d => d.reversalOf = none

def ArApPlain : ArApCall → Prop
  | .ledger c => Plain c
  | _ => True

def InboxPlain : InboxCall → Prop
  | .arAp c => ArApPlain c
  | _ => True

def PayrollPlain : PayrollCall → Prop
  | .ledger c => Plain c
  | _ => True

theorem plain_post (coa : ChartOfAccounts) (command : PostCommand) (opts : PostOptions) :
    (PostingEngine.post coa command opts).Makes Plain := by
  refine settle_makes fun d hdraft => ?_
  obtain ⟨lines, -, rfl⟩ := Fallible.map_eq_ok.mp hdraft
  rfl

/-! Documents and payments. -/

theorem plain_arApPost (ctx : ArApContext) (command : PostCommand) :
    (ArAp.post ctx command).Makes ArApPlain := by
  refine makes_bind (makes_ofExcept _) fun _ => ?_
  exact makes_interpret (fun c hc => makes_perform (c := ArApCall.ledger c) hc)
    (plain_post ..)

theorem plain_createDocument (kind : DocKind) (req : CreateDocumentRequest) (ctx : ArApContext) :
    (createDocument kind req ctx).Makes ArApPlain := by
  unfold createDocument
  refine makes_bind (makes_ofExcept _) fun _ => ?_
  refine makes_bind (makes_perform trivial) fun _ => ?_
  refine makes_bind (makes_refuseIf _ _) fun _ => ?_
  refine makes_bind (makes_perform trivial) fun _ => ?_
  refine makes_bind (makes_ofExcept _) fun party => ?_
  refine makes_bind (makes_ofExcept _) fun draft => ?_
  refine makes_bind (plain_arApPost ..) fun _ => ?_
  exact makes_bind (makes_perform trivial) fun _ => makes_ret _

theorem plain_recordPayment (kind : DocKind) (docId : String) (req : RecordPaymentRequest)
    (ctx : ArApContext) (accounts : ControlOverrides) :
    (recordPayment kind docId req ctx accounts).Makes ArApPlain := by
  have hid : (paymentIdOf kind docId req ctx).Makes ArApPlain := by
    unfold paymentIdOf
    split_ifs
    · exact makes_bind (makes_perform trivial) fun _ => makes_ret _
    · exact makes_ret _
  unfold recordPayment
  refine makes_bind (makes_refuseIf _ _) fun _ => ?_
  refine makes_bind (makes_perform trivial) fun _ => ?_
  refine makes_bind (makes_ofExcept _) fun doc => ?_
  refine makes_bind (makes_ofExcept _) fun draft => ?_
  refine makes_bind hid fun paymentId => ?_
  refine makes_bind (plain_arApPost ..) fun entry => ?_
  refine makes_bind (makes_perform trivial) fun _ => ?_
  exact makes_bind (makes_perform trivial) fun _ => makes_ret _

theorem plain_issueCredit (kind : DocKind) (docId : String) (req : CreditRequest)
    (ctx : ArApContext) : (issueCredit kind docId req ctx).Makes ArApPlain := by
  unfold issueCredit
  dsimp only
  refine makes_bind (makes_refuseIf _ _) fun _ => ?_
  refine makes_bind (makes_perform trivial) fun _ => ?_
  refine makes_bind (makes_ofExcept _) fun doc => ?_
  refine makes_bind (makes_ofExcept _) fun draft => ?_
  refine makes_bind (plain_arApPost ..) fun _ => ?_
  refine makes_bind (makes_perform trivial) fun _ => ?_
  exact makes_bind (makes_perform trivial) fun _ => makes_ret _

theorem plain_arApRequest (ctx : ArApContext) (r : ArApRequest) :
    (r.program ctx).Makes ArApPlain := by
  cases r with
  | create kind req => exact makes_bind (plain_createDocument ..) fun _ => makes_ret _
  | pay kind docId req accounts => exact makes_bind (plain_recordPayment ..) fun _ => makes_ret _
  | credit kind docId req => exact makes_bind (plain_issueCredit ..) fun _ => makes_ret _

/-! The inbox. -/

variable (ctx : InboxContext)

theorem plain_requirePending (id : String) : (requirePending ctx id).Makes InboxPlain := by
  refine makes_bind (makes_perform trivial) fun _ => ?_
  refine makes_bind (makes_ofExcept _) fun txn => ?_
  exact makes_bind (makes_refuseIf _ _) fun _ => makes_ret _

theorem plain_inboxPost (coa : ChartOfAccounts) (command : PostCommand) (opts : PostOptions) :
    (Inbox.onLedger (PostingEngine.post coa command opts)).Makes InboxPlain :=
  makes_interpret (fun c hc => makes_perform (c := InboxCall.arAp (.ledger c)) hc)
    (plain_post ..)

theorem plain_acceptTxn (clock : Clock) (id categoryCode : String)
    (dimensions : Option Dimensions) :
    (acceptTxn ctx clock id categoryCode dimensions).Makes InboxPlain := by
  unfold acceptTxn
  refine makes_bind (plain_requirePending ..) fun txn => ?_
  refine makes_bind (makes_refuseIf _ _) fun _ => ?_
  refine makes_bind (makes_ofExcept _) fun accounts => ?_
  refine makes_bind (makes_ofExcept _) fun _ => ?_
  refine makes_bind (plain_inboxPost ..) fun entry => ?_
  exact makes_bind (makes_perform trivial) fun _ => makes_ret _

theorem plain_autoAccept (records : List FeedTxnRecord) (clocks : List Clock) (autoPosted : Nat) :
    (autoAccept ctx records clocks autoPosted).Makes InboxPlain := by
  induction records generalizing clocks autoPosted with
  | nil => exact makes_ret _
  | cons record records ih =>
    unfold autoAccept
    refine makes_bind (makes_perform trivial) fun found => ?_
    dsimp only
    split
    · exact ih ..
    · exact makes_bind (makes_attempt (plain_acceptTxn ..)) fun outcome => ih ..

theorem plain_deliverFeed (accountCode : String) (txns : List FeedTxnInput) (source : String)
    (clocks : List Clock) : (deliverFeed ctx accountCode txns source clocks).Makes InboxPlain := by
  unfold deliverFeed
  refine makes_bind (makes_refuseIf _ _) fun _ => ?_
  refine makes_bind (makes_refuseIf _ _) fun _ => ?_
  refine makes_bind (makes_ofExcept _) fun records => ?_
  refine makes_bind (makes_perform trivial) fun added => ?_
  exact makes_bind (plain_autoAccept ..) fun _ => makes_ret _

theorem plain_matchTxn (postedAt id docKind docId : String) :
    (matchTxn ctx postedAt id docKind docId).Makes InboxPlain := by
  unfold matchTxn
  refine makes_bind (plain_requirePending ..) fun txn => ?_
  refine makes_bind (makes_ofExcept _) fun kind => ?_
  refine makes_bind ?_ fun paid => ?_
  · exact makes_interpret (fun c hc => makes_perform (c := InboxCall.arAp c) hc)
      (plain_recordPayment ..)
  · exact makes_bind (makes_perform trivial) fun _ => makes_ret _

theorem plain_excludeTxn (id reason : String) : (excludeTxn ctx id reason).Makes InboxPlain := by
  unfold excludeTxn
  refine makes_bind (plain_requirePending ..) fun txn => ?_
  exact makes_bind (makes_perform trivial) fun _ => makes_ret _

/-! Payroll. -/

theorem plain_payrollPost (coa : ChartOfAccounts) (command : PostCommand) (opts : PostOptions) :
    (Payroll.onLedger (PostingEngine.post coa command opts)).Makes PayrollPlain :=
  makes_interpret (fun c hc => makes_perform (c := PayrollCall.ledger c) hc)
    (plain_post ..)

theorem plain_saveEmployee (ctx : PayrollContext) (input : EmployeeInput) :
    (Payroll.saveEmployee ctx input).Makes PayrollPlain := by
  unfold Payroll.saveEmployee
  dsimp only
  refine makes_bind (makes_refuseIf _ _) fun _ => ?_
  refine makes_bind (makes_refuseIf _ _) fun _ => ?_
  refine makes_bind (makes_ofExcept _) fun costRate => ?_
  refine makes_bind (makes_ofExcept _) fun billRate => ?_
  exact makes_bind (makes_perform trivial) fun _ => makes_ret _

theorem plain_createRun (ctx : PayrollContext) (req : CreateRunRequest) :
    (Payroll.createRun ctx req).Makes PayrollPlain := by
  unfold Payroll.createRun
  refine makes_bind (makes_ofExcept _) fun date => ?_
  refine makes_bind (makes_refuseIf _ _) fun _ => ?_
  refine makes_bind (makes_perform trivial) fun employees => ?_
  refine makes_bind (makes_ofExcept _) fun lines => ?_
  refine makes_bind (makes_perform trivial) fun existing => ?_
  refine makes_bind (makes_refuseIf _ _) fun _ => ?_
  refine makes_bind (makes_ofExcept _) fun employerTaxes => ?_
  exact makes_bind (makes_perform trivial) fun _ => makes_ret _

theorem plain_postRun (ctx : PayrollContext) (clock : Clock) (id : String)
    (overrides : CodeOverrides) : (Payroll.postRun ctx clock id overrides).Makes PayrollPlain := by
  unfold Payroll.postRun
  refine makes_bind (makes_perform trivial) fun found => ?_
  refine makes_bind (makes_ofExcept _) fun run => ?_
  refine makes_bind (makes_ofExcept _) fun _ => ?_
  refine makes_bind (makes_ofExcept _) fun command => ?_
  refine makes_bind (plain_payrollPost ..) fun entry => ?_
  exact makes_bind (makes_perform trivial) fun _ => makes_ret _

theorem plain_remit (ctx : PayrollContext) (clock : Clock) (req : RemitRequest) :
    (Payroll.remit ctx clock req).Makes PayrollPlain := by
  unfold Payroll.remit
  refine makes_bind (makes_ofExcept _) fun date => ?_
  refine makes_bind (makes_ofExcept _) fun amount => ?_
  refine makes_bind (makes_refuseIf _ _) fun _ => ?_
  refine makes_bind (makes_perform trivial) fun journal => ?_
  refine makes_bind (makes_ofExcept _) fun owed => ?_
  refine makes_bind (makes_refuseIf _ _) fun _ => ?_
  refine makes_bind (makes_ofExcept _) fun liability => ?_
  refine makes_bind (makes_ofExcept _) fun bank => ?_
  exact makes_bind (plain_payrollPost ..) fun entry => makes_ret _

end Rgnr8.Service.Corrections
