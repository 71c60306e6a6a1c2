import Rgnr8.Kernel.ReverseEnds
import Rgnr8.Service.ChartEdit
import Rgnr8.Service.Flow
import Rgnr8.Subledger.Payroll

/-! Payroll: runs are drafted, posted gross to net, and voided by reversing their entry; what has been
withheld is remitted out of the liability account. -/

namespace Rgnr8.Service.Payroll
open Lib Lib.Js Kernel Subledger Subledger.Payroll

structure EmployeeRecord where
  id : String
  name : String
  active : Bool
  costRateMinor : Int
  billRateMinor : Int

structure PayrollLineRecord where
  employeeId : String
  grossMinor : Int
  employeeTaxesMinor : Int
  deductionsMinor : Int
  netMinor : Int
  deriving DecidableEq

inductive PayrollStatus where
  | draft | posted | void
  deriving DecidableEq

structure PayrollRunRecord where
  id : String
  date : String
  status : PayrollStatus
  employerTaxesMinor : Int
  memo : String
  entryId : EntryId
  bankCode : String
  lines : List PayrollLineRecord
  revision : Nat
  deriving DecidableEq

structure PayrollStore where
  employees : OrderedMap (TenantId × String) EmployeeRecord
  runs : OrderedMap (TenantId × String) PayrollRunRecord
  id_of_get : ∀ {t id r}, runs.get? (t, id) = some r → r.id = id

namespace PayrollStore

def empty : PayrollStore := ⟨.empty, .empty, nofun⟩

variable (s : PayrollStore) (tenant : TenantId)

def listEmployees : List EmployeeRecord :=
  (s.employees.filter fun key _ => key.1 = tenant).values

def saveEmployee (employee : EmployeeRecord) : PayrollStore :=
  { s with employees := s.employees.set (tenant, employee.id) employee }

def getRun (id : String) : Option PayrollRunRecord :=
  s.runs.get? (tenant, id)

def saveRun (run : PayrollRunRecord) : PayrollStore where
  employees := s.employees
  runs := s.runs.set (tenant, run.id) run
  id_of_get := by
    intro t id r h
    rw [OrderedMap.get?_set] at h
    split_ifs at h with hkey
    · rw [← Option.some.inj h, (Prod.mk.inj hkey).2]
    · exact s.id_of_get h

theorem getRun_saveRun (tenant t : TenantId) (run : PayrollRunRecord) (id : String) :
    (s.saveRun tenant run).getRun t id =
      if (t, id) = (tenant, run.id) then some run else s.getRun t id := OrderedMap.get?_set ..

end PayrollStore

inductive PayrollCall where
  | ledger (c : LedgerCall)
  | journal (tenant : TenantId)
  | listEmployees (tenant : TenantId)
  | saveEmployee (tenant : TenantId) (employee : EmployeeRecord)
  | getRun (tenant : TenantId) (id : String)
  | saveRun (tenant : TenantId) (run : PayrollRunRecord)

abbrev PayrollCall.Answer : PayrollCall → Type
  | ledger c => c.Answer
  | journal _ => List PostedEntry
  | listEmployees _ => List EmployeeRecord
  | getRun _ _ => Option PayrollRunRecord
  | saveEmployee _ _ | saveRun _ _ => Unit

def PayrollCall.exec {π : Type} [PeriodStore π] :
    (c : PayrollCall) → Stores π PayrollStore → c.Answer × Stores π PayrollStore
  | ledger c, s => ((c.exec s.ledger).1, { s with ledger := (c.exec s.ledger).2 })
  | journal t, s => (s.ledger.journal t, s)
  | listEmployees t, s => (s.own.listEmployees t, s)
  | saveEmployee t e, s => ((), { s with own := s.own.saveEmployee t e })
  | getRun t id, s => (s.own.getRun t id, s)
  | saveRun t run, s => ((), { s with own := s.own.saveRun t run })

inductive PayrollFailure where
  | own (message : String)
  /-- The text shows both amounts in units. -/
  | overpaid (owedMinor amountMinor : Int)
  | ledger (e : LedgerError)
  deriving DecidableEq

abbrev PayrollProg := Prog PayrollCall PayrollCall.Answer PayrollFailure

def onLedger {α : Type} (p : LedgerProg α) : PayrollProg α :=
  p.interpret (fun c => Prog.perform (PayrollCall.ledger c)) .ledger

/-- The tenant's side of a request, with the chart as the request has read it. -/
structure PayrollContext where
  tenant : TenantId
  chart : ChartOfAccounts
  currency : Currency
  localeLe : String → String → Bool

structure PayrollCodes where
  wagesExpense : String
  employerTaxExpense : String
  bank : String
  employeeTaxPayable : String
  employerTaxPayable : String
  deductionsPayable : String

def defaultPayrollCodes : PayrollCodes := ⟨"6200", "6210", "1000", "2300", "2300", "2300"⟩

structure CodeOverrides where
  wagesExpense : Option String
  employerTaxExpense : Option String
  bank : Option String
  employeeTaxPayable : Option String
  employerTaxPayable : Option String
  deductionsPayable : Option String

def noOverrides : CodeOverrides := ⟨none, none, none, none, none, none⟩

def digitsOf : Option TextOrNumber → Option Int
  | none => none
  | some (.text s) => if trim s = "" then none else wholeNumber (some (.text s))
  | some (.number n) => wholeNumber (some (.number n))

def minorOf (raw : Option TextOrNumber) (label : String) : Except PayrollFailure Int :=
  match digitsOf raw with
  | none => .error (.own s!"{label} must be an integer minor-unit amount")
  | some n => if n < 0 then .error (.own s!"{label} cannot be negative") else .ok n

def requireDate (raw : Option String) (label : String) : Except PayrollFailure String :=
  let date := trim (raw.getD "")
  if ¬ isIsoDate date then .error (.own s!"{label} must be YYYY-MM-DD") else .ok date

variable (ctx : PayrollContext)

def codeToId (code role : String) : Except PayrollFailure AccountId :=
  match ctx.chart.getByCode code with
  | none => .error (.own s!"{role}: unknown account code {code}")
  | some account => .ok account.id

def resolveAccounts (overrides : CodeOverrides) : Except PayrollFailure PayrollAccounts := do
  let d := defaultPayrollCodes
  let wagesExpense ← codeToId ctx (overrides.wagesExpense.getD d.wagesExpense) "wages expense"
  let employerTaxExpense ←
    codeToId ctx (overrides.employerTaxExpense.getD d.employerTaxExpense) "employer tax expense"
  let cash ← codeToId ctx (overrides.bank.getD d.bank) "bank"
  let employeeTaxPayable ←
    codeToId ctx (overrides.employeeTaxPayable.getD d.employeeTaxPayable) "employee tax payable"
  let employerTaxPayable ←
    codeToId ctx (overrides.employerTaxPayable.getD d.employerTaxPayable) "employer tax payable"
  let deductionsPayable ←
    codeToId ctx (overrides.deductionsPayable.getD d.deductionsPayable) "deductions payable"
  return ⟨wagesExpense, employerTaxExpense, cash, employeeTaxPayable, employerTaxPayable,
    deductionsPayable⟩

/-! Employees. -/

structure EmployeeInput where
  id : Option String
  name : Option String
  active : Option Bool
  costRateMinor : Option TextOrNumber
  billRateMinor : Option TextOrNumber

/-- `/[^a-z0-9]+/g` to a hyphen, and then no hyphen at either end. -/
def slug (text : String) : String :=
  let hyphened := (toLowerCase text).toList.foldr (fun c cs =>
    if c.isLower ∨ c.isDigit then c :: cs
    else if cs.head? = some '-' then cs else '-' :: cs) []
  let front := if hyphened.head? = some '-' then hyphened.drop 1 else hyphened
  String.ofList (if front.getLast? = some '-' then front.dropLast else front)

def rateOf (raw : Option TextOrNumber) (label : String) : Except PayrollFailure Int :=
  match (wholeNumber raw).filter (0 ≤ ·) with
  | none => .error (.own s!"{label} must be a whole number of minor units per hour")
  | some n => .ok n

def saveEmployee (ctx : PayrollContext) (input : EmployeeInput) : PayrollProg EmployeeRecord := do
  let name := trim (input.name.getD "")
  Prog.refuseIf (name = "") (.own "an employee needs a name")
  let id := if trim (input.id.getD "") = "" then slug name else trim (input.id.getD "")
  Prog.refuseIf (id = "") (.own "an employee needs an id")
  let costRate ← Prog.ofExcept (rateOf input.costRateMinor "cost rate")
  let billRate ← Prog.ofExcept (rateOf input.billRateMinor "bill rate")
  let employee : EmployeeRecord := ⟨id, name, input.active ≠ some false, costRate, billRate⟩
  Prog.perform (PayrollCall.saveEmployee ctx.tenant employee)
  return employee

/-! Drafting a run. -/

structure PayrollLineInput where
  employeeId : Option String
  grossMinor : Option TextOrNumber
  employeeTaxesMinor : Option TextOrNumber
  deductionsMinor : Option TextOrNumber

structure CreateRunRequest where
  id : Option String
  date : Option String
  memo : Option String
  employerTaxesMinor : Option TextOrNumber
  bankCode : Option String
  lines : List PayrollLineInput

def orZero (raw : Option TextOrNumber) : Option TextOrNumber := some (raw.getD (.text "0"))

def buildLine (known seen : List String) (l : PayrollLineInput) :
    Except PayrollFailure PayrollLineRecord := do
  let employeeId := trim (l.employeeId.getD "")
  Fallible.refuse (employeeId = "") (.own "each line needs an employee")
  Fallible.refuse (employeeId ∉ known) (.own s!"unknown employee {employeeId}")
  Fallible.refuse (employeeId ∈ seen) (.own s!"{employeeId} appears twice in the same run")
  let gross ← minorOf (orZero l.grossMinor) s!"{employeeId}: gross"
  let taxes ← minorOf (orZero l.employeeTaxesMinor) s!"{employeeId}: withholdings"
  let deductions ← minorOf (orZero l.deductionsMinor) s!"{employeeId}: deductions"
  Fallible.refuse (gross = 0) (.own s!"{employeeId}: gross pay cannot be zero")
  Fallible.refuse (gross - taxes - deductions < 0)
    (.own s!"{employeeId}: withholdings and deductions come to more than gross pay")
  return ⟨employeeId, gross, taxes, deductions, gross - taxes - deductions⟩

def buildLines (known : List String) :
    List String → List PayrollLineInput → Except PayrollFailure (List PayrollLineRecord)
  | _, [] => return []
  | seen, l :: ls => do
    let line ← buildLine known seen l
    let rest ← buildLines known (line.employeeId :: seen) ls
    return line :: rest

def createRun (req : CreateRunRequest) : PayrollProg PayrollRunRecord := do
  let date ← Prog.ofExcept (requireDate req.date "pay date")
  Prog.refuseIf (req.lines = []) (.own "a payroll run needs at least one employee")
  let employees ← Prog.perform (PayrollCall.listEmployees ctx.tenant)
  let lines ← Prog.ofExcept
    (buildLines ((employees : List EmployeeRecord).map EmployeeRecord.id) [] req.lines)
  let id := if trim (req.id.getD "") = "" then s!"PR-{date}" else trim (req.id.getD "")
  let existing ← Prog.perform (PayrollCall.getRun ctx.tenant id)
  let held := (existing : Option PayrollRunRecord)
  Prog.refuseIf (held.any fun r => r.status = .posted)
    (.own s!"payroll run {id} is already posted")
  let employerTaxes ← Prog.ofExcept (minorOf (orZero req.employerTaxesMinor) "employer taxes")
  let run : PayrollRunRecord := {
    id := id
    date := date
    status := .draft
    employerTaxesMinor := employerTaxes
    memo := trim (req.memo.getD "")
    entryId := ""
    bankCode := if trim (req.bankCode.getD "") = "" then defaultPayrollCodes.bank
      else trim (req.bankCode.getD "")
    lines := lines
    -- a run entered again after it was voided keeps its revision
    revision := (held.map PayrollRunRecord.revision).getD 0 }
  Prog.perform (PayrollCall.saveRun ctx.tenant run)
  return run

/-! Posting and voiding. -/

def provenanceFor (date at_ : String) : Provenance where
  sourceSystem := "payroll"
  sourceObject := "payroll.run"
  sourceVersion := "1"
  effectiveDate := date
  postedDate := date
  ingestedAt := at_
  normalizationVersion := "ledger-service/payroll-1"
  mappingVersion := "ledger-service/payroll-1"

def engineRunId (run : PayrollRunRecord) : String :=
  if 0 < run.revision then s!"{run.id}~r{run.revision}" else run.id

def toEngineRun (run : PayrollRunRecord) : PayrollRun where
  id := engineRunId run
  date := run.date
  employees := run.lines.map fun l =>
    ⟨l.employeeId, l.grossMinor, l.employeeTaxesMinor, l.deductionsMinor, l.netMinor⟩
  employerTaxes := run.employerTaxesMinor

def engineFailure (currency : Currency) : PayrollError → PayrollFailure
  | .noEmployees id => .own s!"Payroll run {id} has no employees"
  | .netDisagrees employeeId net expected =>
    let shown := fun n : Int => toDecimalString ⟨n, currency⟩
    .own (s!"Employee {employeeId}: net {shown net} != " ++
      s!"gross − taxes − deductions {shown expected}")

def foundRun (id : String) (found : Option PayrollRunRecord) :
    Except PayrollFailure PayrollRunRecord :=
  match found with
  | none => .error (.own s!"unknown payroll run {id}")
  | some run => .ok run

def postableRun (id : String) (run : PayrollRunRecord) : Except PayrollFailure Unit :=
  match run.status with
  | .posted => .error (.own s!"{id} is already posted")
  | .void => .error (.own s!"{id} was voided")
  | .draft => .ok ()

def runCommand (run : PayrollRunRecord) (overrides : CodeOverrides) (ingestedAt : String) :
    Except PayrollFailure PostCommand := do
  -- the bank of the run stands unless it is overridden
  let accounts ← resolveAccounts ctx { overrides with bank := overrides.bank.or (some run.bankCode) }
  (payrollRunToPostCommand (toEngineRun run) accounts
    ⟨ctx.tenant, ctx.currency, provenanceFor run.date ingestedAt, none⟩).mapError
      (engineFailure ctx.currency)

variable (clock : Clock)

def postRun (id : String) (overrides : CodeOverrides) : PayrollProg PayrollRunRecord := do
  let found ← Prog.perform (PayrollCall.getRun ctx.tenant id)
  let run ← Prog.ofExcept (foundRun id found)
  Prog.ofExcept (postableRun id run)
  let command ← Prog.ofExcept (runCommand ctx run overrides clock.ingestedAt)
  let entry ← onLedger (PostingEngine.post ctx.chart command ⟨clock.postedAt⟩)
  let posted := { run with status := .posted, entryId := entry.id }
  Prog.perform (PayrollCall.saveRun ctx.tenant posted)
  return posted

def voidRequest (run : PayrollRunRecord) : ReverseRequest where
  coa := ctx.chart
  tenant := ctx.tenant
  originalId := run.entryId
  opts := {
    idempotencyKey := s!"payroll-void:{run.id}~r{run.revision}"
    periodKey := periodOf run.date
    entryDate := run.date
    postedAt := clock.postedAt
    provenance := provenanceFor run.date clock.ingestedAt
    memo := some s!"Void of payroll {run.id}" }

def voidRun (id : String) : PayrollProg PayrollRunRecord :=
  do
  let found ← Prog.perform (PayrollCall.getRun ctx.tenant id)
  let run ← Prog.ofExcept (foundRun id found)
  Prog.refuseIf (run.status ≠ .posted) (.own s!"{id} is not posted")
  let _ ← onLedger (voidRequest ctx clock run).program
  let voided := { run with status := .void, revision := run.revision + 1 }
  Prog.perform (PayrollCall.saveRun ctx.tenant voided)
  return voided

/-! Remitting. -/

structure RemitRequest where
  id : Option String
  date : Option String
  amountMinor : Option TextOrNumber
  bankCode : Option String
  liabilityCode : Option String
  memo : Option String

def owedOn (journal : List PostedEntry) (code : String) : Except PayrollFailure Int :=
  match ctx.chart.getByCode code with
  | none => .error (.own s!"unknown account code {code}")
  | some _ =>
    let tb := computeTrialBalance ctx.localeLe ctx.chart ctx.currency none journal
    .ok (match tb.rows.find? fun r => r.code = code with
      | some row => row.credit.minorUnits - row.debit.minorUnits
      | none => 0)

def remitKey (explicitId date liabilityCode : String) (liability : AccountId)
    (journal : List PostedEntry) : IdempotencyKey :=
  if explicitId ≠ "" then s!"payroll-remit:{explicitId}"
  else
    let priorSameDay := journal.countP fun e => e.provenance.sourceSystem = "payroll" ∧
      e.provenance.sourceObject = "payroll.remit" ∧ e.entryDate = date ∧
        e.lines.any fun l => l.accountId = liability
    s!"payroll-remit:{date}:{liabilityCode}#{priorSameDay}"

def remitCommand (key : IdempotencyKey) (date memo : String) (liability bank : AccountId)
    (amount : Int) : PostCommand where
  tenantId := ctx.tenant
  idempotencyKey := key
  periodKey := periodOf date
  currency := ctx.currency
  entryDate := date
  lines := [⟨liability, .debit, ⟨amount, ctx.currency⟩, none, none⟩,
    ⟨bank, .credit, ⟨amount, ctx.currency⟩, none, none⟩]
  provenance := { provenanceFor date clock.ingestedAt with sourceObject := "payroll.remit" }
  memo := some memo

structure Remitted where
  entryId : EntryId
  date : String
  amountMinor : Int
  remainingMinor : Int

def remit (req : RemitRequest) : PayrollProg Remitted := do
  let date ← Prog.ofExcept (requireDate req.date "payment date")
  let amount ← Prog.ofExcept (minorOf req.amountMinor "amount")
  Prog.refuseIf (amount = 0) (.own "a remittance must be positive")
  let liabilityCode := trimmedOr req.liabilityCode defaultPayrollCodes.employeeTaxPayable
  let bankCode := trimmedOr req.bankCode defaultPayrollCodes.bank
  let journal ← Prog.perform (PayrollCall.journal ctx.tenant)
  let owed ← Prog.ofExcept (owedOn ctx journal liabilityCode)
  Prog.refuseIf (owed < amount) (.overpaid owed amount)
  let liability ← Prog.ofExcept (codeToId ctx liabilityCode "payroll liability")
  let bank ← Prog.ofExcept (codeToId ctx bankCode "bank")
  let key := remitKey (trim (req.id.getD "")) date liabilityCode liability journal
  let command := remitCommand ctx clock key date (trimmedOr req.memo "Payroll tax deposit")
    liability bank amount
  let entry ← onLedger (PostingEngine.post ctx.chart command ⟨clock.postedAt⟩)
  return ⟨entry.id, date, amount, owed - amount⟩

end Rgnr8.Service.Payroll
