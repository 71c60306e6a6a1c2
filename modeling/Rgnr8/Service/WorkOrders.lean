import Rgnr8.Service.Jobs
import Rgnr8.Service.Payroll

/-! Work orders: time, material and other costs are recorded against a job, and where there is an
account to take a cost from it is allocated to the job in the ledger. -/

namespace Rgnr8.Service.WorkOrders
open Lib Lib.Js Kernel Payroll

inductive WorkOrderStatus where
  | draft | scheduled | inProgress | complete | cancelled
  deriving DecidableEq

inductive EntryKind where
  | labor | material | equipment | other
  deriving DecidableEq

def EntryKind.text : EntryKind → String
  | .labor => "LABOR"
  | .material => "MATERIAL"
  | .equipment => "EQUIPMENT"
  | .other => "OTHER"

def kinds : List EntryKind := [.labor, .material, .equipment, .other]

structure WorkOrderRecord where
  id : String
  jobId : String
  title : String
  status : WorkOrderStatus

structure WorkOrderEntryRecord where
  id : String
  workOrderId : String
  kind : EntryKind
  date : String
  description : String
  costCode : String
  employeeId : String
  quantityMilli : Int
  unitCostMinor : Int
  unitBillMinor : Int
  billable : Bool
  costAccountCode : String
  relieveAccountCode : String
  entryId : EntryId
  invoiceId : String

structure WorkOrderStore where
  orders : OrderedMap (TenantId × String) WorkOrderRecord
  entries : OrderedMap (TenantId × String) WorkOrderEntryRecord
  id_of_get : ∀ {t id e}, entries.get? (t, id) = some e → e.id = id

namespace WorkOrderStore

def empty : WorkOrderStore := ⟨.empty, .empty, nofun⟩

def get (s : WorkOrderStore) (tenant : TenantId) (id : String) : Option WorkOrderRecord :=
  s.orders.get? (tenant, id)

variable (s : WorkOrderStore) (tenant : TenantId)

def listEntries (workOrderId : String) : List WorkOrderEntryRecord :=
  (s.entries.filter fun key e =>
    key.1 = tenant ∧ (workOrderId = "" ∨ e.workOrderId = workOrderId)).values

def getEntry (id : String) : Option WorkOrderEntryRecord :=
  s.entries.get? (tenant, id)

def saveEntry (entry : WorkOrderEntryRecord) : WorkOrderStore where
  orders := s.orders
  entries := s.entries.set (tenant, entry.id) entry
  id_of_get := by
    intro t id e h
    rw [OrderedMap.get?_set] at h
    split_ifs at h with hkey
    · rw [← Option.some.inj h, (Prod.mk.inj hkey).2]
    · exact s.id_of_get h

def removeEntry (id : String) : WorkOrderStore where
  orders := s.orders
  entries := s.entries.filter fun key _ => key ≠ (tenant, id)
  id_of_get := by
    intro t id e h
    rw [OrderedMap.get?_filter] at h
    exact s.id_of_get (Option.filter_eq_some_iff.mp h).1

theorem getEntry_saveEntry (tenant t : TenantId) (entry : WorkOrderEntryRecord) (id : String) :
    (s.saveEntry tenant entry).getEntry t id =
      if (t, id) = (tenant, entry.id) then some entry else s.getEntry t id := OrderedMap.get?_set ..

theorem getEntry_removeEntry (tenant t : TenantId) (removed id : String) :
    (s.removeEntry tenant removed).getEntry t id =
      if (t, id) = (tenant, removed) then none else s.getEntry t id := by
  unfold getEntry removeEntry
  rw [OrderedMap.get?_filter]
  by_cases hkey : (t, id) = (tenant, removed)
  · rw [if_pos hkey, Option.filter_eq_none_iff]
    intro e _
    rw [decide_eq_true_eq, not_not]
    exact hkey
  · rw [if_neg hkey]
    rcases s.entries.get? (t, id) with - | e
    · rfl
    · exact Option.filter_some_pos (decide_eq_true hkey)

end WorkOrderStore

structure WorkStores where
  work : WorkOrderStore
  jobs : JobStore
  payroll : PayrollStore

inductive WorkOrderCall where
  | get (tenant : TenantId) (id : String)
  | listEntries (tenant : TenantId) (workOrderId : String)
  | getEntry (tenant : TenantId) (id : String)
  | saveEntry (tenant : TenantId) (entry : WorkOrderEntryRecord)
  | removeEntry (tenant : TenantId) (id : String)
  | listEmployees (tenant : TenantId)
  | listCostCodes (tenant : TenantId)

abbrev WorkOrderCall.Answer : WorkOrderCall → Type
  | get _ _ => Option WorkOrderRecord
  | listEntries _ _ => List WorkOrderEntryRecord
  | getEntry _ _ => Option WorkOrderEntryRecord
  | saveEntry _ _ | removeEntry _ _ => Unit
  | listEmployees _ => List EmployeeRecord
  | listCostCodes _ => List CostCodeRecord

def WorkOrderCall.exec : (c : WorkOrderCall) → WorkStores → c.Answer × WorkStores
  | get t id, s => (s.work.get t id, s)
  | listEntries t id, s => (s.work.listEntries t id, s)
  | getEntry t id, s => (s.work.getEntry t id, s)
  | saveEntry t e, s => ((), { s with work := s.work.saveEntry t e })
  | removeEntry t id, s => ((), { s with work := s.work.removeEntry t id })
  | listEmployees t, s => (s.payroll.listEmployees t, s)
  | listCostCodes t, s => (s.jobs.listCostCodes t, s)

abbrev WorkProg := FlowProg WorkOrderCall WorkOrderCall.Answer

def own (c : WorkOrderCall) : WorkProg c.Answer := Prog.perform (FlowCall.own c)

structure EntryInput where
  id : Option String
  kind : Option String
  date : Option String
  description : Option String
  costCode : Option String
  employeeId : Option String
  quantityMilli : Option TextOrNumber
  unitCostMinor : Option TextOrNumber
  unitBillMinor : Option TextOrNumber
  billable : Option Bool
  costAccountCode : Option String
  relieveAccountCode : Option String
  post : Option Bool

/-! What a request says, with the rates and accounts it falls back on. -/

def requireDate (raw : Option String) (label : String) : Except FlowFailure String :=
  let date := trim (raw.getD "")
  if date = "" then .error (.own s!"{label} is required")
  else if ¬ isIsoDate date then .error (.own s!"{label} must be YYYY-MM-DD")
  else .ok date

def milliOf (raw : Option TextOrNumber) (label : String) : Except FlowFailure Int :=
  match digitsOnly raw with
  | none => .error (.own s!"{label} must be a whole number of thousandths")
  | some n => .ok n

def minorOf (raw : Option TextOrNumber) (label : String) : Except FlowFailure Int :=
  match digitsOnly raw with
  | none => .error (.own s!"{label} must be a whole number of minor units")
  | some n => .ok n

def openOrder (workOrderId : String) (found : Option WorkOrderRecord) :
    Except FlowFailure WorkOrderRecord :=
  match found with
  | none => .error (.own s!"unknown work order {workOrderId}")
  | some order =>
    if order.status = .cancelled then .error (.own s!"work order {workOrderId} was cancelled")
    else .ok order

def employeeOf (employees : List EmployeeRecord) (employeeId : String) :
    Except FlowFailure (Option EmployeeRecord) :=
  if employeeId = "" then .ok none
  else match employees.find? fun e => e.id = employeeId with
    | none => .error (.own s!"unknown employee {employeeId}")
    | some employee => .ok (some employee)

def isBlank : Option TextOrNumber → Bool
  | none => true
  | some (.text s) => trim s = ""
  | some (.number _) => false

def rateOf (raw : Option TextOrNumber) (fallback : Option Int) (label : String) :
    Except FlowFailure Int :=
  if isBlank raw then .ok (fallback.getD 0) else minorOf raw label

def costCodeOf (costCodes : List CostCodeRecord) (costCode : String) :
    Except FlowFailure (Option CostCodeRecord) :=
  let code := costCodes.find? fun c => c.code = costCode
  if costCode ≠ "" ∧ code = none then .error (.own s!"unknown cost code {costCode}") else .ok code

def costAccountCodeOf (chart : ChartOfAccounts) (kind : EntryKind) (code : Option CostCodeRecord)
    (raw : Option String) : String :=
  let named := trim (raw.getD "")
  let coded := (code.map CostCodeRecord.accountCode).getD ""
  if named ≠ "" then named
  else if coded ≠ "" then coded
  else if kind = .labor ∧ (chart.getByCode "5500").isSome then "5500"
  else if (chart.getByCode "5000").isSome then "5000"
  else ""

def costAccountOf (chart : ChartOfAccounts) (code : String) : Except FlowFailure Account :=
  match chart.getByCode code with
  | none => .error (.own ("unknown account code " ++ if code = "" then "(none)" else code))
  | some account =>
    if account.type ≠ .expense then .error (.own s!"{code} is not a cost account") else .ok account

def defaultRelieveCode (chart : ChartOfAccounts) : EntryKind → String
  | .labor => if (chart.getByCode "6200").isSome then "6200" else ""
  | .material => if (chart.getByCode "1300").isSome then "1300" else ""
  | _ => ""

def relieveAccountOf (chart : ChartOfAccounts) (code : String) :
    Except FlowFailure (Option AccountId) :=
  if code = "" then .ok none
  else match chart.getByCode code with
    | none => .error (.own s!"unknown account code {code}")
    | some account => .ok (some account.id)

structure EntryFields where
  kind : EntryKind
  date : String
  description : String
  costCode : String
  employeeId : String
  quantityMilli : Int
  unitCostMinor : Int
  unitBillMinor : Int
  billable : Bool
  costAccountCode : String
  costAccount : AccountId
  relieveAccountCode : String
  relieveAccount : Option AccountId

variable (ctx : FlowContext)

def fieldsOf (employees : List EmployeeRecord) (costCodes : List CostCodeRecord)
    (input : EntryInput) : Except FlowFailure EntryFields := do
  let kind ← oneOf ctx.letters kinds EntryKind.text input.kind .labor "kind"
  let date ← requireDate input.date "date"
  let quantityMilli ← milliOf input.quantityMilli "quantity"
  Fallible.refuse (quantityMilli = 0) (.own "quantity must be more than zero")
  let employeeId := trim (input.employeeId.getD "")
  let employee ← employeeOf employees employeeId
  let unitCost ← rateOf input.unitCostMinor (employee.map EmployeeRecord.costRateMinor) "unit cost"
  let unitBill ← rateOf input.unitBillMinor (employee.map EmployeeRecord.billRateMinor) "bill rate"
  let costCode := ctx.letters.toUpperCase (trim (input.costCode.getD ""))
  let code ← costCodeOf costCodes costCode
  let costAccountCode := costAccountCodeOf ctx.chart kind code input.costAccountCode
  let costAccount ← costAccountOf ctx.chart costAccountCode
  let relieveAccountCode := match input.relieveAccountCode with
    | none => defaultRelieveCode ctx.chart kind
    | some raw => trim raw
  let relieveAccount ← relieveAccountOf ctx.chart relieveAccountCode
  return {
    kind := kind
    date := date
    description := trim (input.description.getD "")
    costCode := costCode
    employeeId := employeeId
    quantityMilli := quantityMilli
    unitCostMinor := unitCost
    unitBillMinor := unitBill
    billable := input.billable ≠ some false
    costAccountCode := costAccountCode
    costAccount := costAccount.id
    relieveAccountCode := relieveAccountCode
    relieveAccount := relieveAccount }

/-! Recording. -/

def entryIdOf (workOrderId : String) (entries : List WorkOrderEntryRecord) (input : EntryInput) :
    String :=
  if trim (input.id.getD "") = "" then s!"{workOrderId}-e{entries.length + 1}"
  else trim (input.id.getD "")

def editable (id : String) (existing : Option WorkOrderEntryRecord) (fields : EntryFields) :
    Except FlowFailure Unit :=
  match existing with
  | none => .ok ()
  | some e =>
    if e.invoiceId ≠ "" then
      .error (.own s!"entry {id} has been invoiced — reverse the invoice to change it")
    else if e.entryId ≠ "" ∧ (e.quantityMilli ≠ fields.quantityMilli ∨
        e.unitCostMinor ≠ fields.unitCostMinor ∨ e.costCode ≠ fields.costCode ∨
        e.costAccountCode ≠ fields.costAccountCode ∨ e.kind ≠ fields.kind) then
      .error (.own (s!"entry {id} has already posted to the books — reverse entry {e.entryId} " ++
        "and add a new one rather than editing it"))
    else .ok ()

def provenanceFor (entryId date at_ : String) : Provenance where
  sourceSystem := "work-order"
  sourceObject := entryId
  sourceVersion := "1"
  effectiveDate := date
  postedDate := date
  ingestedAt := at_
  normalizationVersion := "ledger-service/work-order-1"
  mappingVersion := "ledger-service/work-order-1"

def extended (quantityMilli unitMinor : Int) : Int := mulDiv quantityMilli unitMinor 1000

def costDimensions (jobId costCode : String) : Dimensions :=
  let job := OrderedMap.empty.set jobDimension jobId
  if costCode = "" then job else job.set costCodeDimension costCode

variable (order : WorkOrderRecord)

def allocationCommand (id : String) (fields : EntryFields) (relieve : AccountId) : PostCommand :=
  let cost : Money := ⟨extended fields.quantityMilli fields.unitCostMinor, ctx.currency⟩
  { tenantId := ctx.tenant
    idempotencyKey := s!"wo-entry:{id}"
    periodKey := periodOf fields.date
    currency := ctx.currency
    entryDate := fields.date
    lines := [
      ⟨fields.costAccount, .debit, cost, some order.title,
        some (costDimensions order.jobId fields.costCode)⟩,
      ⟨relieve, .credit, cost, some s!"Allocated to {order.jobId}", none⟩]
    provenance := provenanceFor id fields.date ctx.clock.ingestedAt
    memo := some (if fields.description = "" then
        s!"{order.title} — {toLowerCase fields.kind.text}"
      else fields.description) }

def allocationOf (id : String) (fields : EntryFields) (existing : Option WorkOrderEntryRecord)
    (post : Option Bool) : Option PostCommand :=
  match fields.relieveAccount with
  | none => none
  | some relieve =>
    if post ≠ some false ∧ 0 < extended fields.quantityMilli fields.unitCostMinor ∧
        (existing.map WorkOrderEntryRecord.entryId).getD "" = "" then
      some (allocationCommand ctx order id fields relieve)
    else none

def unpostedReason (fields : EntryFields) (allocated : Bool) : String :=
  let free := extended fields.quantityMilli fields.unitCostMinor = 0
  if allocated then ""
  else if free then "no cost to allocate"
  else if fields.relieveAccountCode = "" then
    "nothing to take the cost from — say which account it comes from, or enter it as a bill " ++
      s!"coded to {order.jobId}"
  else ""

def entryRecord (workOrderId id : String) (fields : EntryFields)
    (existing : Option WorkOrderEntryRecord) (entryId : EntryId) : WorkOrderEntryRecord where
  id := id
  workOrderId := workOrderId
  kind := fields.kind
  date := fields.date
  description := fields.description
  costCode := fields.costCode
  employeeId := fields.employeeId
  quantityMilli := fields.quantityMilli
  unitCostMinor := fields.unitCostMinor
  unitBillMinor := fields.unitBillMinor
  billable := fields.billable
  costAccountCode := fields.costAccountCode
  relieveAccountCode := fields.relieveAccountCode
  entryId := entryId
  invoiceId := (existing.map WorkOrderEntryRecord.invoiceId).getD ""

structure AddEntryResult where
  entry : WorkOrderEntryRecord
  unpostedReason : String

def recordEntry (record : WorkOrderEntryRecord) (fields : EntryFields) (allocated : Bool) :
    WorkProg AddEntryResult := do
  own (.saveEntry ctx.tenant record)
  return ⟨record, unpostedReason order fields allocated⟩

def addEntry (dimensions : DimensionContext) (workOrderId : String) (input : EntryInput) :
    WorkProg AddEntryResult := do
  let found ← own (.get ctx.tenant workOrderId)
  let order ← Prog.ofExcept (openOrder workOrderId found)
  let employees ← own (.listEmployees ctx.tenant)
  let costCodes ← own (.listCostCodes ctx.tenant)
  let fields ← Prog.ofExcept (fieldsOf ctx employees costCodes input)
  let entries ← own (.listEntries ctx.tenant workOrderId)
  let id := entryIdOf workOrderId entries input
  let existing ← own (.getEntry ctx.tenant id)
  Prog.ofExcept (editable id existing fields)
  match allocationOf ctx order id fields existing input.post with
  | none =>
    let entryId := ((existing : Option WorkOrderEntryRecord).map
      WorkOrderEntryRecord.entryId).getD ""
    recordEntry ctx order (entryRecord workOrderId id fields existing entryId) fields false
  | some command => do
    Prog.ofExcept ((validateDimensions dimensions command).mapError .dimension)
    postFlow ctx command >>= fun entry =>
      recordEntry ctx order (entryRecord workOrderId id fields existing entry.id) fields true

/-- `DELETE /work-orders/<id>/entries/<entry>`. -/
def removeEntry (ctx : FlowContext) (id : String) : WorkProg Unit := do
  let found ← own (.getEntry ctx.tenant id)
  let posted := ((found : Option WorkOrderEntryRecord).map WorkOrderEntryRecord.entryId).getD ""
  Prog.refuseIf (posted ≠ "")
    (.own s!"entry {id} posted an allocation — reverse entry {posted} instead")
  own (.removeEntry ctx.tenant id)

end Rgnr8.Service.WorkOrders
