import Rgnr8.Kernel.Money
import Rgnr8.Kernel.Fingerprint

/-! The receivables of the subledger: the invoices with what is open on each, the events their changes
leave behind, and the commands that post these events. -/

namespace Rgnr8.Subledger.Receivable
open Lib Kernel

/-- The source's `OPEN` and `PARTIAL` are `issued` and `partlyPaid`. -/
inductive DocStatus where
  | issued | partlyPaid | paid | disputed | writtenOff
  deriving DecidableEq

structure ARInvoiceInput where
  id : String
  customerId : String
  issueDate : String
  dueDate : String
  amount : Money
  disputed : Bool

structure Application where
  documentId : String
  date : String
  amount : Money

structure ARInvoice where
  id : String
  customerId : String
  issueDate : String
  dueDate : String
  originalAmount : Money
  openAmount : Money
  status : DocStatus
  settledDate : Option String

inductive AREventKind where
  | invoice | payment | writeOff

structure AREvent where
  id : String
  kind : AREventKind
  invoiceId : String
  customerId : String
  date : String
  amount : Money

structure ARSubledger where
  currency : Currency
  invoices : OrderedMap String ARInvoice
  log : List AREvent
  evSeq : Nat

inductive ARError where
  | own (message : String)
  | money (e : MoneyError)

namespace ARSubledger

def empty (currency : Currency) : ARSubledger := ⟨currency, .empty, [], 0⟩

variable (s : ARSubledger)

def addInvoice (input : ARInvoiceInput) : Except ARError Unit × ARSubledger :=
  match s.invoices.get? input.id with
  | some _ => (.error (.own s!"duplicate invoice {input.id}"), s)
  | none => (.ok (), { s with
      invoices := s.invoices.set input.id
        ⟨input.id, input.customerId, input.issueDate, input.dueDate, input.amount, input.amount,
          if input.disputed then .disputed else .issued, none⟩
      log := s.log ++ [⟨s!"{input.id}#issue", .invoice, input.id, input.customerId,
        input.issueDate, input.amount⟩] })

def settled (inv : ARInvoice) (date : String) (openAmount : Money) : ARInvoice :=
  if openAmount.minorUnits = 0 then
    { inv with openAmount := openAmount, status := .paid, settledDate := some date }
  else { inv with
    openAmount := openAmount
    status := if inv.status = .disputed then .disputed else .partlyPaid }

def applyPayment (app : Application) : Except ARError ARInvoice × ARSubledger :=
  match s.invoices.get? app.documentId with
  | none => (.error (.own s!"unknown invoice {app.documentId}"), s)
  | some inv =>
    if inv.status = .writtenOff then (.error (.own s!"invoice {inv.id} is written off"), s)
    else match inv.openAmount.minus app.amount with
      | .error e => (.error (.money e), s)
      | .ok remaining =>
        let left := if remaining.minorUnits < 0 then Money.zero s.currency else remaining
        let changed := { s with
          invoices := s.invoices.set inv.id (settled inv app.date left)
          evSeq := s.evSeq + 1 }
        match inv.openAmount.minus left with
        | .error e => (.error (.money e), changed)
        | .ok applied => (.ok (settled inv app.date left), { changed with
            log := s.log ++ [⟨s!"{inv.id}#pay-{s.evSeq + 1}", .payment, inv.id, inv.customerId,
              app.date, applied⟩] })

def writeOff (s : ARSubledger) (id date : String) : Except ARError ARInvoice × ARSubledger :=
  match s.invoices.get? id with
  | none => (.error (.own s!"unknown invoice {id}"), s)
  | some inv =>
    let written := { inv with
      openAmount := Money.zero s.currency, status := .writtenOff, settledDate := some date }
    (.ok written, { s with
      invoices := s.invoices.set inv.id written
      log := if 0 < inv.openAmount.minorUnits then
          s.log ++ [⟨s!"{inv.id}#writeoff", .writeOff, inv.id, inv.customerId, date,
            inv.openAmount⟩]
        else s.log })

/-- `sumMoney` -/
def sumMoney (currency : Currency) : List Money → Except MoneyError Money
  | [] => .ok (.zero currency)
  | first :: rest => rest.foldlM Money.plus first

def controlBalance : Except MoneyError Money :=
  sumMoney s.currency (s.invoices.values.map ARInvoice.openAmount)

inductive Call where
  | addInvoice (input : ARInvoiceInput)
  | applyPayment (app : Application)
  | writeOff (id date : String)

/-- What a call leaves, whether it returns or throws. -/
def step : Call → ARSubledger
  | .addInvoice input => (s.addInvoice input).2
  | .applyPayment app => (s.applyPayment app).2
  | .writeOff id date => (s.writeOff id date).2

end ARSubledger

/-! Posting. -/

structure SubledgerAccounts where
  arControl : AccountId
  revenue : AccountId
  cash : AccountId
  badDebt : AccountId
  mappingVersion : Option String

structure PostingContext where
  tenantId : TenantId
  currency : Currency

def command (ctx : PostingContext) (eventId kind date memo : String) (debit credit : AccountId)
    (amount : Money) (map : SubledgerAccounts) : PostCommand where
  tenantId := ctx.tenantId
  idempotencyKey := s!"sub:{eventId}"
  periodKey := String.ofList (date.toList.take 7)
  currency := ctx.currency
  entryDate := date
  lines := [⟨debit, .debit, amount, none, none⟩, ⟨credit, .credit, amount, none, none⟩]
  provenance := ⟨"subledger", kind, "1", date, date, date, "sub-1",
    map.mappingVersion.getD "sub-map-1"⟩
  memo := some memo

def commandOf (map : SubledgerAccounts) (ctx : PostingContext) (e : AREvent) : PostCommand :=
  match e.kind with
  | .invoice => command ctx e.id "ar.invoice" e.date s!"Invoice {e.invoiceId}" map.arControl
      map.revenue e.amount map
  | .payment => command ctx e.id "ar.payment" e.date s!"Receipt on {e.invoiceId}" map.cash
      map.arControl e.amount map
  | .writeOff => command ctx e.id "ar.writeoff" e.date s!"Write-off {e.invoiceId}" map.badDebt
      map.arControl e.amount map

def toARPostingCommands (events : List AREvent) (map : SubledgerAccounts) (ctx : PostingContext) :
    List PostCommand := events.map (commandOf map ctx)

/-- The commands one after another; the first that is refused ends it. -/
def postAll (coa : ChartOfAccounts) (opts : PostOptions) :
    List PostCommand → LedgerProg (List PostedEntry)
  | [] => return []
  | c :: rest => do
    let entry ← PostingEngine.post coa c opts
    let entries ← postAll coa opts rest
    return entry :: entries

end Rgnr8.Subledger.Receivable
