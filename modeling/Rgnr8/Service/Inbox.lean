import Rgnr8.Kernel.ReverseEnds
import Rgnr8.Service.ArAp
import Rgnr8.Service.Dimensions

/-! The review inbox: bank lines that wait until somebody accepts, matches or excludes them, and undo,
which reverses the entry of a line and puts the line back into the queue. -/

namespace Rgnr8.Service.Inbox
open Lib Lib.Js Kernel ArAp

inductive FeedStatus where
  | pending | posted | matched | excluded
  deriving DecidableEq

def FeedStatus.text : FeedStatus → String
  | .pending => "pending"
  | .posted => "posted"
  | .matched => "matched"
  | .excluded => "excluded"

structure FeedTxnRecord where
  id : String
  accountCode : String
  date : String
  amountMinor : Int
  description : String
  counterparty : String
  status : FeedStatus
  categoryCode : String
  entryId : EntryId
  docKind : Option DocKind
  docId : String
  note : String
  source : String
  revision : Nat

structure FeedStore where
  txns : OrderedMap (TenantId × String) FeedTxnRecord

namespace FeedStore

def empty : FeedStore := ⟨.empty⟩

def getTxn (s : FeedStore) (tenant : TenantId) (id : String) : Option FeedTxnRecord :=
  s.txns.get? (tenant, id)

def updateTxn (s : FeedStore) (tenant : TenantId) (txn : FeedTxnRecord) : FeedStore :=
  ⟨s.txns.set (tenant, txn.id) txn⟩

/-- Lines that are known already are passed over. -/
def addTxns (s : FeedStore) (tenant : TenantId) : List FeedTxnRecord → Nat × FeedStore
  | [] => (0, s)
  | t :: ts =>
    if (s.getTxn tenant t.id).isSome then s.addTxns tenant ts
    else
      let (added, s') := (s.updateTxn tenant t).addTxns tenant ts
      (added + 1, s')

end FeedStore

inductive InboxCall where
  | arAp (c : ArApCall)
  | getTxn (tenant : TenantId) (id : String)
  | addTxns (tenant : TenantId) (txns : List FeedTxnRecord)
  | updateTxn (tenant : TenantId) (txn : FeedTxnRecord)

abbrev InboxCall.Answer : InboxCall → Type
  | arAp c => c.Answer
  | getTxn _ _ => Option FeedTxnRecord
  | addTxns _ _ => Nat
  | updateTxn _ _ => Unit

structure InboxStores (π : Type) where
  books : ArApStores π
  feed : FeedStore

def InboxCall.exec {π : Type} [PeriodStore π] :
    (c : InboxCall) → InboxStores π → c.Answer × InboxStores π
  | arAp c, s => ((c.exec s.books).1, { s with books := (c.exec s.books).2 })
  | getTxn t id, s => (s.feed.getTxn t id, s)
  | addTxns t txns, s =>
    ((s.feed.addTxns t txns).1, { s with feed := (s.feed.addTxns t txns).2 })
  | updateTxn t txn, s => ((), { s with feed := s.feed.updateTxn t txn })

inductive InboxFailure where
  | inbox (message : String)
  | dimension (message : String)
  | arAp (e : ArApFailure)
  | ledger (e : LedgerError)

abbrev InboxProg := Prog InboxCall InboxCall.Answer InboxFailure

def onLedger {α : Type} (p : LedgerProg α) : InboxProg α :=
  p.interpret (fun c => Prog.perform (InboxCall.arAp (.ledger c))) .ledger

/-- The tenant's side of a request. The chart is the one the dimensions are checked against, and
`autoPost` is what the rules that post without review say about a line. -/
structure InboxContext where
  tenant : TenantId
  currency : Currency
  dimensions : DimensionContext
  localeLe : String → String → Bool
  autoPost : FeedTxnRecord → Option String

variable (ctx : InboxContext)

def InboxContext.chart : ChartOfAccounts := ctx.dimensions.chart

structure ActionResult where
  id : String
  status : FeedStatus
  entryId : EntryId
  docKind : Option DocKind
  docId : String
  categoryCode : String

variable (txn : FeedTxnRecord)

def result : ActionResult :=
  ⟨txn.id, txn.status, txn.entryId, txn.docKind, txn.docId, txn.categoryCode⟩

def provenanceFor (source date at_ : String) : Provenance where
  sourceSystem := source
  sourceObject := "bank.feed"
  sourceVersion := "1"
  effectiveDate := date
  postedDate := date
  ingestedAt := at_
  normalizationVersion := "ledger-service/inbox-1"
  mappingVersion := "ledger-service/inbox-1"

def sourceOf : String := if txn.source = "" then "feed" else txn.source

def periodKeyOf : PeriodKey := String.ofList (txn.date.toList.take 7)

def foundTxn (id : String) (found : Option FeedTxnRecord) : Except InboxFailure FeedTxnRecord :=
  match found with
  | none => .error (.inbox s!"unknown transaction {id}")
  | some txn => .ok txn

def requirePending (id : String) : InboxProg FeedTxnRecord := do
  let found ← Prog.perform (InboxCall.getTxn ctx.tenant id)
  let txn ← Prog.ofExcept (foundTxn id found)
  Prog.refuseIf (txn.status ≠ .pending)
    (.inbox s!"{id} was already actioned ({txn.status.text}) — undo it first")
  return txn

/-! Accepting. -/

def accountsFor (chart : ChartOfAccounts) (txn : FeedTxnRecord) (code : String) :
    Except InboxFailure (AccountId × AccountId) :=
  match chart.getByCode txn.accountCode with
  | none => .error (.inbox s!"unknown account code {txn.accountCode}")
  | some bank => match chart.getByCode code with
    | none => .error (.inbox s!"unknown account code {code}")
    | some category =>
      if category.id = bank.id then
        .error (.inbox "a transaction cannot be categorized to its own bank account")
      else .ok (bank.id, category.id)

def magnitude : Int :=
  if 0 ≤ txn.amountMinor then txn.amountMinor else -txn.amountMinor

def acceptMemo : String :=
  if txn.description ≠ "" then txn.description
  else if txn.counterparty ≠ "" then txn.counterparty
  else if 0 ≤ txn.amountMinor then "Bank deposit" else "Bank payment"

def acceptLines (bank category : AccountId) (dimensions : Option Dimensions) :
    List JournalLineInput :=
  let money : Money := ⟨magnitude txn, ctx.currency⟩
  if 0 ≤ txn.amountMinor then
    [⟨bank, .debit, money, none, none⟩, ⟨category, .credit, money, none, dimensions⟩]
  else [⟨category, .debit, money, none, dimensions⟩, ⟨bank, .credit, money, none, none⟩]

variable (clock : Clock)

def acceptCommand (txn : FeedTxnRecord) (lines : List JournalLineInput) : PostCommand where
  tenantId := ctx.tenant
  idempotencyKey := s!"feed:{txn.id}#{txn.revision}"
  periodKey := periodKeyOf txn
  currency := ctx.currency
  entryDate := txn.date
  lines := lines
  provenance := provenanceFor (sourceOf txn) txn.date clock.ingestedAt
  memo := some (acceptMemo txn)

def acceptTxn (id categoryCode : String) (dimensions : Option Dimensions) :
    InboxProg ActionResult := do
  let txn ← requirePending ctx id
  let code := trim categoryCode
  Prog.refuseIf (code = "") (.inbox "a category account code is required")
  let (bank, category) ← Prog.ofExcept (accountsFor ctx.chart txn code)
  let command := acceptCommand ctx clock txn (acceptLines ctx txn bank category dimensions)
  Prog.ofExcept ((validateDimensions ctx.dimensions command).mapError .dimension)
  let entry ← onLedger (PostingEngine.post ctx.chart command ⟨clock.postedAt⟩)
  let updated := { txn with status := .posted, categoryCode := code, entryId := entry.id }
  Prog.perform (InboxCall.updateTxn ctx.tenant updated)
  return result updated

/-! Delivering. -/

structure FeedTxnInput where
  id : String
  date : String
  amountMinor : TextOrNumber
  description : Option String
  counterparty : Option String

def amountOf (t : FeedTxnInput) : Except InboxFailure Int :=
  match bigInt t.amountMinor with
  | none => .error (.inbox s!"transaction {t.id}: amount_minor must be an integer")
  | some minor =>
    if minor = 0 then .error (.inbox s!"transaction {t.id}: amount cannot be zero") else .ok minor

def deliveredTxn (accountCode source : String) (t : FeedTxnInput) :
    Except InboxFailure FeedTxnRecord := do
  Fallible.refuse (trim t.id = "") (.inbox "each transaction needs an id")
  Fallible.refuse (¬ isIsoDate t.date) (.inbox s!"transaction {t.id}: date must be YYYY-MM-DD")
  let minor ← amountOf t
  return {
    id := t.id
    accountCode := accountCode
    date := t.date
    amountMinor := minor
    description := t.description.getD ""
    counterparty := t.counterparty.getD ""
    status := .pending
    categoryCode := ""
    entryId := ""
    docKind := none
    docId := ""
    note := ""
    source := source
    revision := 0 }

def autoAccept (ctx : InboxContext) : List FeedTxnRecord → List Clock → Nat → InboxProg Nat
  | [], _, autoPosted => return autoPosted
  | record :: records, clocks, autoPosted => do
    let found ← Prog.perform (InboxCall.getTxn ctx.tenant record.id)
    let fresh := (found : Option FeedTxnRecord).filter fun t => t.status = .pending
    match fresh.bind fun t => (ctx.autoPost t).map fun code => (t.id, code) with
    | none => autoAccept ctx records clocks autoPosted
    | some (id, code) =>
      let outcome ← Prog.attempt (acceptTxn ctx (clocks.headD ⟨"", ""⟩) id code none)
      let posted := match (outcome : Except InboxFailure ActionResult) with
        | .ok _ => autoPosted + 1
        | .error _ => autoPosted
      autoAccept ctx records clocks.tail posted

structure DeliverResult where
  received : Nat
  added : Nat
  autoPosted : Nat

def deliverFeed (accountCode : String) (txns : List FeedTxnInput) (source : String)
    (clocks : List Clock) : InboxProg DeliverResult := do
  Prog.refuseIf (ctx.chart.getByCode accountCode).isNone
    (.inbox s!"unknown account code {accountCode}")
  Prog.refuseIf (txns = []) (.inbox "no transactions delivered")
  let records ← Prog.ofExcept (txns.mapM (deliveredTxn accountCode source))
  let added ← Prog.perform (InboxCall.addTxns ctx.tenant records)
  let autoPosted ← autoAccept ctx records clocks 0
  return ⟨records.length, added, autoPosted⟩

/-! Matching and excluding. -/

def docKindOf (docKind : String) (amountMinor : Int) : Except InboxFailure DocKind :=
  match [DocKind.invoice, .bill].find? fun k => k.text = docKind with
  | none => .error (.inbox "doc_kind must be invoice or bill")
  | some kind =>
    if 0 ≤ amountMinor ∧ kind ≠ .invoice then
      .error (.inbox "money in can only settle an invoice")
    else if amountMinor < 0 ∧ kind ≠ .bill then
      .error (.inbox "money out can only settle a bill")
    else .ok kind

def matchPayment : RecordPaymentRequest where
  id := some s!"feed:{txn.id}#{txn.revision}"
  date := txn.date
  amountMinor := .text (toString (magnitude txn))
  bankCode := some txn.accountCode
  memo := some txn.description
  dimensions := none

def matchTxn (postedAt id docKind docId : String) : InboxProg ActionResult := do
  let txn ← requirePending ctx id
  let kind ← Prog.ofExcept (docKindOf docKind txn.amountMinor)
  let arap : ArApContext := ⟨ctx.tenant, ctx.chart, ctx.currency, postedAt, none, ctx.localeLe⟩
  let paid ← (recordPayment kind docId (matchPayment txn) arap ⟨none, none, none⟩).interpret
    (fun c => Prog.perform (InboxCall.arAp c)) InboxFailure.arAp
  let updated := { txn with
    status := .matched, entryId := paid.entryId, docKind := some kind, docId := docId }
  Prog.perform (InboxCall.updateTxn ctx.tenant updated)
  return result updated

def excludeTxn (id reason : String) : InboxProg ActionResult := do
  let txn ← requirePending ctx id
  let updated := { txn with status := .excluded, note := trim reason }
  Prog.perform (InboxCall.updateTxn ctx.tenant updated)
  return result updated

/-! Undoing. -/

def undoRequest (txn : FeedTxnRecord) : ReverseRequest where
  coa := ctx.chart
  tenant := ctx.tenant
  originalId := txn.entryId
  opts := {
    idempotencyKey := s!"feed-undo:{txn.id}#{txn.revision}"
    periodKey := periodKeyOf txn
    entryDate := txn.date
    postedAt := clock.postedAt
    provenance := provenanceFor (sourceOf txn) txn.date clock.ingestedAt
    memo := some s!"Undo of bank line {txn.id}" }

/-- Nothing has been posted for an excluded line. -/
def reverseTxn (txn : FeedTxnRecord) : InboxProg Unit :=
  if txn.entryId = "" then return ()
  else do
    let _ ← onLedger (undoRequest ctx clock txn).program
    return ()

def reopenDoc : InboxProg Unit :=
  match txn.docKind with
  | none => return ()
  | some kind =>
    if txn.status ≠ .matched ∨ txn.docId = "" then return ()
    else do
      let found ← Prog.perform (InboxCall.arAp (.getDoc ctx.tenant kind txn.docId))
      match (found : Option DocRecord) with
      | none => return ()
      | some doc =>
        let restored := doc.openMinor + magnitude txn
        Prog.perform (InboxCall.arAp (.setOpen ctx.tenant kind doc.id restored
          (if doc.totalMinor ≤ restored then .opened else .partlyPaid)))

def undone : FeedTxnRecord :=
  { txn with status := .pending, entryId := "", docKind := none, docId := "", note := "",
             revision := txn.revision + 1 }

def undoTxn (id : String) : InboxProg ActionResult := do
  let found ← Prog.perform (InboxCall.getTxn ctx.tenant id)
  let txn ← Prog.ofExcept (foundTxn id found)
  Prog.refuseIf (txn.status = .pending) (.inbox s!"{id} is already in the queue")
  reverseTxn ctx clock txn
  reopenDoc ctx txn
  Prog.perform (InboxCall.updateTxn ctx.tenant (undone txn))
  return result (undone txn)

end Rgnr8.Service.Inbox
