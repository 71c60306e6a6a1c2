import Rgnr8.Forecast.Inputs

/-! The forecast's inputs from the books: what the ledger answers, read by read, and how the answers
are put in the place of what the owner entered. -/

namespace Rgnr8.Forecast
open Lib Lib.Py

abbrev LedgerResponse (α : Type) := Except String α

structure ChartRow where
  code : String
  subtype : String

structure TrialRow where
  code : String
  debitMinor : String
  creditMinor : String

structure DocumentRow where
  id : String
  partyId : String
  date : String
  dueDate : String
  openMinor : String

structure OpenItemRow where
  qboId : String
  number : String
  party : String
  date : String
  dueDate : String
  openMinor : Int

structure OpenItems where
  invoices : List OpenItemRow
  bills : List OpenItemRow

def OpenItems.empty (items : OpenItems) : Bool := items.invoices = [] ∧ items.bills = []

structure LedgerReads where
  accounts : LedgerResponse (List ChartRow)
  trialBalance : LedgerResponse (List TrialRow)
  invoices : LedgerResponse (List DocumentRow)
  bills : LedgerResponse (List DocumentRow)
  /-- `owed_minor` -/
  payrollLiabilities : LedgerResponse String
  /-- `book_of_record` -/
  settings : LedgerResponse String
  /-- The snapshot, where one has been stored. -/
  openItems : LedgerResponse (Option OpenItems)

/-- `int` of a text, 0 where it is none. -/
def minor (text : String) : Int := (intOf text).getD 0

def dateOr (text : String) (fallback : Date) : Date := ((Date.fromIso text).toOption).getD fallback

structure LedgerFacts where
  cash : Money
  cashAccounts : Nat
  invoices : List Invoice
  bills : List Bill
  payrollLiability : Money
  problems : List String

def LedgerFacts.ok (facts : LedgerFacts) : Bool := facts.problems = []

def ask {α : Type} (what : String) (res : LedgerResponse α) : Except String α :=
  res.mapError fun e => "could not read " ++ what ++ ": " ++ e

def payrollLiabilityCode : String := "2300"

variable (reads : LedgerReads)

def chartCodes : List String :=
  match reads.accounts with
  | .ok rows => rows.map ChartRow.code
  | .error _ => []

def bankCodes (rows : List ChartRow) : List String :=
  ((rows.filter fun a => a.subtype ∈ ["BANK", "CASH", "UNDEPOSITED_FUNDS"]).map ChartRow.code).dedup

def bankCash : Except String (Money × Nat) := do
  let accounts ← ask "the chart of accounts" reads.accounts
  let codes := bankCodes accounts
  if codes = [] then
    throw "could not read cash on hand: your chart of accounts has no bank or cash account yet"
  let rows ← ask "the trial balance" reads.trialBalance
  let total := ((rows.filter fun r => r.code ∈ codes).map fun r =>
    minor r.debitMinor - minor r.creditMinor).sum
  return (⟨total, "USD"⟩, codes.length)

def openDocuments (what : String) (res : LedgerResponse (List DocumentRow)) :
    Except String (List DocumentRow) :=
  (ask what res).map fun docs => docs.filter fun d => 0 < minor d.openMinor

def inParallelRun : Bool :=
  match reads.settings with
  | .ok record => record = "quickbooks"
  | .error _ => false

def readOpenItems : Option OpenItems :=
  match reads.openItems with
  | .ok items => items
  | .error _ => none

section
variable (asOf : Date) (currency : String)

def invoiceOf (d : DocumentRow) : Invoice where
  id := d.id
  customerId := d.partyId
  issueDate := dateOr d.date asOf
  dueDate := dateOr d.dueDate asOf
  openAmount := ⟨minor d.openMinor, currency⟩
  status := .open_
  provenance := some ⟨"ledger", "invoice", d.id⟩

def billOf (d : DocumentRow) : Bill where
  id := d.id
  vendorId := d.partyId
  dueDate := dateOr d.dueDate asOf
  amount := ⟨minor d.openMinor, currency⟩
  scheduledDate := none
  provenance := some ⟨"ledger", "bill", d.id⟩

/-- `a or b` of texts. -/
def orText (a b : String) : String := if a = "" then b else a

def asForecastItems (items : OpenItems) : List Invoice × List Bill :=
  (items.invoices.map fun r => {
      id := orText r.number r.qboId
      customerId := orText r.party "customer"
      issueDate := dateOr r.date asOf
      dueDate := dateOr r.dueDate asOf
      openAmount := ⟨r.openMinor, currency⟩
      status := .open_
      provenance := some ⟨"quickbooks", "invoice", r.qboId⟩ },
    items.bills.map fun r => {
      id := r.qboId
      vendorId := orText r.party "vendor"
      dueDate := dateOr r.dueDate asOf
      amount := ⟨r.openMinor, currency⟩
      scheduledDate := none
      provenance := some ⟨"quickbooks", "bill", r.qboId⟩ })

variable (reads : LedgerReads)

/-- Receivables and payables of the books; QuickBooks' open items stand in where the books have been
read and are a mirror without documents. -/
def readDocuments : List Invoice × List Bill :=
  let invoices := openDocuments "invoices" reads.invoices
  let bills := openDocuments "bills" reads.bills
  let own := (((invoices.toOption).getD []).map (invoiceOf asOf currency),
    ((bills.toOption).getD []).map (billOf asOf currency))
  if invoices.toOption.any List.isEmpty ∧ bills.toOption.any List.isEmpty ∧ inParallelRun reads then
    match readOpenItems reads with
    | some snapshot => if snapshot.empty then own else asForecastItems asOf currency snapshot
    | none => own
  else own

def payrollAsked : Bool :=
  chartCodes reads = [] ∨ payrollLiabilityCode ∈ chartCodes reads

def problemOf {α : Type} : Except String α → List String
  | .ok _ => []
  | .error problem => [problem]

def readLedgerFacts : LedgerFacts :=
  let cash := bankCash reads
  let documents := readDocuments asOf currency reads
  let payroll := if payrollAsked reads then
      (ask "payroll liabilities" reads.payrollLiabilities).map some
    else .ok none
  { cash := (cash.toOption.map Prod.fst).getD ⟨0, "USD"⟩
    cashAccounts := (cash.toOption.map Prod.snd).getD 0
    invoices := documents.1.insertionSort fun i j =>
      toLex (i.dueDate, i.id) ≤ (toLex (j.dueDate, j.id) : Date ×ₗ String)
    bills := documents.2.insertionSort fun i j =>
      toLex (i.dueDate, i.id) ≤ (toLex (j.dueDate, j.id) : Date ×ₗ String)
    payrollLiability := (payroll.toOption.join.map fun owed => ⟨minor owed, currency⟩).getD ⟨0, "USD"⟩
    problems := problemOf cash ++ problemOf (openDocuments "invoices" reads.invoices) ++
      problemOf (openDocuments "bills" reads.bills) ++ problemOf payroll }

end

def isPayrollLiability (item : OneTimeItem) : Bool :=
  item.provenance.any fun p => p.sourceType = "payroll-liability"

def quickbooksBill (item : OneTimeItem) : Bool :=
  item.category = .vendorPayment ∧ item.confidence = .recorded

def payrollItem (owed : Money) (asOf : Date) : List OneTimeItem :=
  if 0 < owed.minorUnits then
    [{ label := "Payroll taxes and withholdings due"
       category := .payrollTax
       direction := .outflow
       amount := owed
       onDate := asOf
       confidence := .planned
       provenance := some ⟨"ledger", "payroll-liability", "payroll"⟩ }]
  else []

def mergeForecastInputs (assumptions : ForecastInputs) (facts : LedgerFacts) (asOf : Date) :
    ForecastInputs :=
  if !facts.ok ∧ facts.cashAccounts = 0 ∧ facts.invoices = [] ∧ facts.bills = [] then assumptions
  else
    let cashKnown : Bool := 0 < facts.cashAccounts
    let oneTime := assumptions.oneTime.filter fun i => !isPayrollLiability i
    let oneTime := if facts.bills ≠ [] then oneTime.filter fun i => !quickbooksBill i else oneTime
    { assumptions with
      opening := {
        asOf := asOf
        available := if cashKnown then facts.cash else assumptions.opening.available
        restricted := assumptions.opening.restricted
        verified := facts.ok && cashKnown }
      invoices := facts.invoices
      bills := facts.bills
      oneTime := oneTime ++ payrollItem facts.payrollLiability asOf }

def forecastFromLedger (reads : LedgerReads) (assumptions : ForecastInputs) (asOf : Date)
    (currency : String) : ForecastInputs :=
  mergeForecastInputs assumptions (readLedgerFacts asOf currency reads) asOf

end Rgnr8.Forecast
