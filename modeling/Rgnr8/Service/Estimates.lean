import Rgnr8.Kernel.Chart
import Rgnr8.Lib.Program
import Rgnr8.Service.DocumentStore
import Rgnr8.Service.Jobs

/-! Estimates: a line has a cost and a price; an estimate that is revised leaves its revision before it
as it was; and an estimate that is accepted puts its price on the contract of a job and its costs on
the job's budget. -/

namespace Rgnr8.Service.Estimates
open Lib Lib.Js Fallible Kernel JobBudgets

inductive EstimateStatus where
  | draft | sent | accepted | declined | expired | superseded
  deriving DecidableEq

def EstimateStatus.text : EstimateStatus → String
  | .draft => "DRAFT"
  | .sent => "SENT"
  | .accepted => "ACCEPTED"
  | .declined => "DECLINED"
  | .expired => "EXPIRED"
  | .superseded => "SUPERSEDED"

def openStatuses : List EstimateStatus := [.draft, .sent]

structure EstimateLineRecord where
  lineNo : Nat
  description : String
  costCode : String
  quantityMilli : Int
  unitCostMinor : Int
  markupPpm : JsNumber
  unitPriceMinor : Int
  extendedCostMinor : Int
  extendedPriceMinor : Int
  accountCode : String
  taxable : Bool
  deriving DecidableEq

structure EstimateRecord where
  id : String
  rootId : String
  revision : Nat
  customerId : String
  jobId : String
  date : String
  expiryDate : String
  status : EstimateStatus
  taxRatePpm : JsNumber
  memo : String
  lines : List EstimateLineRecord
  deriving DecidableEq

structure EstimateStore where
  items : OrderedMap (TenantId × String) EstimateRecord
  id_of_get : ∀ {t id e}, items.get? (t, id) = some e → e.id = id

namespace EstimateStore

def empty : EstimateStore := ⟨.empty, nofun⟩

variable (s : EstimateStore)

def list (localeLe : String → String → Bool) (tenant : TenantId) : List EstimateRecord :=
  (s.items.filter fun key _ => key.1 = tenant).values.insertionSort fun a b =>
    if a.rootId = b.rootId then a.revision ≤ b.revision else localeLe a.rootId b.rootId = true

def get (s : EstimateStore) (tenant : TenantId) (id : String) : Option EstimateRecord :=
  s.items.get? (tenant, id)

def save (tenant : TenantId) (record : EstimateRecord) : EstimateStore where
  items := s.items.set (tenant, record.id) record
  id_of_get := by
    intro t id e h
    rw [OrderedMap.get?_set] at h
    split_ifs at h with hkey
    · rw [← Option.some.inj h, (Prod.mk.inj hkey).2]
    · exact s.id_of_get h

theorem get_save (tenant t : TenantId) (record : EstimateRecord) (id : String) :
    (s.save tenant record).get t id =
      if (t, id) = (tenant, record.id) then some record else s.get t id := OrderedMap.get?_set ..

end EstimateStore

inductive EstimateCall where
  | list (localeLe : String → String → Bool) (tenant : TenantId)
  | get (tenant : TenantId) (id : String)
  | save (tenant : TenantId) (record : EstimateRecord)
  | getParty (tenant : TenantId) (kind : PartyKind) (id : String)
  | getJob (tenant : TenantId) (id : String)
  | saveJob (tenant : TenantId) (record : JobRecord)
  | listCostCodes (tenant : TenantId)
  | listBudget (tenant : TenantId) (jobId : String)
  | saveBudget (tenant : TenantId) (jobId : String) (lines : List JobBudgetLine)

abbrev EstimateCall.Answer : EstimateCall → Type
  | list _ _ => List EstimateRecord
  | get _ _ => Option EstimateRecord
  | getParty _ _ _ => Option PartyRecord
  | getJob _ _ => Option JobRecord
  | listCostCodes _ => List CostCodeRecord
  | listBudget _ _ => List JobBudgetLine
  | save _ _ | saveJob _ _ | saveBudget _ _ _ => Unit

structure EstimateStores where
  docs : InMemoryDocumentStore
  jobs : JobStore
  estimates : EstimateStore

def EstimateCall.exec : (c : EstimateCall) → EstimateStores → c.Answer × EstimateStores
  | list le t, s => (s.estimates.list le t, s)
  | get t id, s => (s.estimates.get t id, s)
  | save t r, s => ((), { s with estimates := s.estimates.save t r })
  | getParty t kind id, s => (s.docs.getParty t kind id, s)
  | getJob t id, s => (s.jobs.getJob t id, s)
  | saveJob t r, s => ((), { s with jobs := s.jobs.saveJob t r })
  | listCostCodes t, s => (s.jobs.listCostCodes t, s)
  | listBudget t jobId, s => (s.jobs.listBudget t jobId, s)
  | saveBudget t jobId lines, s => ((), { s with jobs := s.jobs.saveBudget t jobId lines })

inductive EstimateFailure where
  | own (message : String)
  | job (message : String)
  /-- What `BigInt` throws for a number that is no integer. -/
  | notInteger (n : JsNumber)

abbrev EstimateProg := Prog EstimateCall EstimateCall.Answer EstimateFailure

/-- The tenant's side of a request, with the chart as the request has read it. -/
structure EstimateContext where
  tenant : TenantId
  chart : ChartOfAccounts
  localeLe : String → String → Bool

/-! The arithmetic. -/

def milli : Int := 1000

def priceFromMarkup (costMinor markupPpm : Int) : Int := mulDiv costMinor (million + markupPpm) million

def markupFromPrice (costMinor priceMinor : Int) : JsNumber :=
  if costMinor = 0 then some 0 else double (mulDiv (priceMinor - costMinor) million costMinor)

/-! Drawing up. -/

def requireDate (raw : Option String) (label : String) (required : Bool) :
    Except EstimateFailure String :=
  let date := trim (raw.getD "")
  if date = "" then
    if required then .error (.own s!"{label} is required") else .ok ""
  else if ¬ isIsoDate date then .error (.own s!"{label} must be YYYY-MM-DD") else .ok date

def minorOf (raw : Option TextOrNumber) (label : String) : Except EstimateFailure Int :=
  match wholeNumber raw with
  | none => .error (.own s!"{label} must be a whole number of minor units")
  | some n => if n < 0 then .error (.own s!"{label} cannot be negative") else .ok n

structure EstimateLineInput where
  description : Option String
  costCode : Option String
  quantityMilli : Option TextOrNumber
  unitCostMinor : Option TextOrNumber
  markupPpm : Option TextOrNumber
  unitPriceMinor : Option TextOrNumber
  accountCode : Option String
  taxable : Option Bool

structure EstimateInput where
  id : Option String
  customerId : Option String
  jobId : Option String
  date : Option String
  expiryDate : Option String
  taxRatePpm : Option TextOrNumber
  memo : Option String
  lines : Option (List EstimateLineInput)

def isTyped : Option TextOrNumber → Bool
  | none => false
  | some (.text s) => trim s ≠ ""
  | some (.number _) => true

def priceOf (l : EstimateLineInput) (lineNo : Nat) (unitCost : Int) :
    Except EstimateFailure (Int × JsNumber) :=
  if isTyped l.unitPriceMinor then do
    let unitPrice ← minorOf l.unitPriceMinor s!"line {lineNo} unit price"
    return (unitPrice, markupFromPrice unitCost unitPrice)
  else
    match (integerOf (Js.numberOf (l.markupPpm.getD (.number (some 0))))).filter (-million ≤ ·) with
    | none => .error (.own s!"line {lineNo}: markup must be a whole number of parts per million")
    | some ppm => .ok (priceFromMarkup unitCost ppm, some ppm)

def accountOf (chart : ChartOfAccounts) (raw : Option String) : Except EstimateFailure String :=
  let code := if trim (raw.getD "") = "" then
      if (chart.getByCode "4100").isSome then "4100" else "4000"
    else trim (raw.getD "")
  match chart.getByCode code with
  | none => .error (.own s!"unknown account code {code}")
  | some account => if account.type ≠ .revenue then
      .error (.own s!"{code} is not a revenue account — an estimate line bills to income")
    else .ok code

def buildLine (chart : ChartOfAccounts) (costCodes : List String) (lineNo : Nat)
    (l : EstimateLineInput) : Except EstimateFailure EstimateLineRecord := do
  let costCode := codeOf l.costCode
  refuse (costCode ≠ "" ∧ costCode ∉ costCodes) (.own s!"unknown cost code {costCode}")
  let quantity ← minorOf (some (l.quantityMilli.getD (.number (some 1000)))) s!"line {lineNo} quantity"
  refuse (quantity = 0) (.own s!"line {lineNo}: quantity must be more than zero")
  let unitCost ← minorOf l.unitCostMinor s!"line {lineNo} unit cost"
  let (unitPrice, markup) ← priceOf l lineNo unitCost
  refuse (unitPrice = 0 ∧ unitCost = 0) (.own s!"line {lineNo}: needs a cost or a price")
  let accountCode ← accountOf chart l.accountCode
  return {
    lineNo := lineNo
    description := trim (l.description.getD "")
    costCode := costCode
    quantityMilli := quantity
    unitCostMinor := unitCost
    markupPpm := markup
    unitPriceMinor := unitPrice
    extendedCostMinor := mulDiv quantity unitCost milli
    extendedPriceMinor := mulDiv quantity unitPrice milli
    accountCode := accountCode
    taxable := l.taxable ≠ some false }

def buildFrom (chart : ChartOfAccounts) (costCodes : List String) :
    Nat → List EstimateLineInput → Except EstimateFailure (List EstimateLineRecord)
  | _, [] => return []
  | lineNo, l :: ls => do
    let line ← buildLine chart costCodes lineNo l
    let rest ← buildFrom chart costCodes (lineNo + 1) ls
    return line :: rest

variable (ctx : EstimateContext)

def buildLines (lines : Option (List EstimateLineInput)) :
    EstimateProg (List EstimateLineRecord) := do
  Prog.refuseIf (lines.getD [] = []) (.own "an estimate needs at least one line")
  let costCodes ← Prog.perform (EstimateCall.listCostCodes ctx.tenant)
  Prog.ofExcept (buildFrom ctx.chart
    ((costCodes : List CostCodeRecord).map CostCodeRecord.code) 1 (lines.getD []))

def taxRateOf (raw : Option TextOrNumber) : Except EstimateFailure JsNumber :=
  let rate := Js.numberOf (raw.getD (.number (some 0)))
  match (integerOf rate).filter fun ppm => 0 ≤ ppm ∧ ppm ≤ million with
  | none => .error (.own "tax rate must be between 0 and 1,000,000 parts per million")
  | some _ => .ok rate

def slug (name : String) : String :=
  let hyphened := (toLowerCase name).toList.foldr (fun c cs =>
    if c.isLower ∨ c.isDigit then c :: cs
    else if cs.head? = some '-' then cs else '-' :: cs) []
  let front := if hyphened.head? = some '-' then hyphened.drop 1 else hyphened
  String.ofList ((if front.getLast? = some '-' then front.dropLast else front).take 48)

def estimateIdOf (raw : Option String) (date customerId : String) : String :=
  if trim (raw.getD "") = "" then
    "EST-" ++ String.ofList (date.toList.filter (· ≠ '-')) ++ "-" ++ slug customerId
  else trim (raw.getD "")

def editable (id : String) (held : Option EstimateRecord) : Except EstimateFailure Unit :=
  match held.filter fun e => e.status ∉ openStatuses with
  | some e => .error (.own s!"estimate {id} is {e.status.text} — revise it instead of editing it")
  | none => .ok ()

def saveEstimate (input : EstimateInput) : EstimateProg EstimateRecord := do
  let customerId := trim (input.customerId.getD "")
  Prog.refuseIf (customerId = "") (.own "an estimate needs a customer")
  let customer ← Prog.perform (EstimateCall.getParty ctx.tenant .customer customerId)
  Prog.refuseIf ((customer : Option PartyRecord) = none) (.own s!"unknown customer {customerId}")
  let date ← Prog.ofExcept (requireDate input.date "date" true)
  let expiryDate ← Prog.ofExcept (requireDate input.expiryDate "expiry date" false)
  Prog.refuseIf (expiryDate ≠ "" ∧ expiryDate < date)
    (.own "the expiry date is before the estimate date")
  let taxRatePpm ← Prog.ofExcept (taxRateOf input.taxRatePpm)
  let jobId := trim (input.jobId.getD "")
  let job ← Prog.perform (EstimateCall.getJob ctx.tenant jobId)
  Prog.refuseIf (jobId ≠ "" ∧ (job : Option JobRecord) = none) (.own s!"unknown job {jobId}")
  let id := estimateIdOf input.id date customerId
  let existing ← Prog.perform (EstimateCall.get ctx.tenant id)
  let held := (existing : Option EstimateRecord)
  Prog.ofExcept (editable id held)
  let lines ← buildLines ctx input.lines
  let record : EstimateRecord := {
    id := id
    rootId := (held.map EstimateRecord.rootId).getD id
    revision := (held.map EstimateRecord.revision).getD 1
    customerId := customerId
    jobId := jobId
    date := date
    expiryDate := expiryDate
    status := (held.map EstimateRecord.status).getD .draft
    taxRatePpm := taxRatePpm
    memo := trim (input.memo.getD "")
    lines := lines }
  Prog.perform (EstimateCall.save ctx.tenant record)
  return record

def foundEstimate (id : String) (found : Option EstimateRecord) :
    Except EstimateFailure EstimateRecord :=
  match found with
  | none => .error (.own s!"unknown estimate {id}")
  | some e => .ok e

def copiedLine (l : EstimateLineRecord) : EstimateLineInput where
  description := some l.description
  costCode := some l.costCode
  quantityMilli := some (.text (toString l.quantityMilli))
  unitCostMinor := some (.text (toString l.unitCostMinor))
  markupPpm := none
  unitPriceMinor := some (.text (toString l.unitPriceMinor))
  accountCode := some l.accountCode
  taxable := some l.taxable

def lastRevision (rootId : String) (estimates : List EstimateRecord) : Nat :=
  ((estimates.filter fun e => e.rootId = rootId).map EstimateRecord.revision).foldl max 0

def reviseEstimate (id : String) (input : EstimateInput) : EstimateProg EstimateRecord := do
  let found ← Prog.perform (EstimateCall.get ctx.tenant id)
  let previous ← Prog.ofExcept (foundEstimate id found)
  let all ← Prog.perform (EstimateCall.list ctx.localeLe ctx.tenant)
  let revision := lastRevision previous.rootId all + 1
  let lines ← buildLines ctx (some (input.lines.getD (previous.lines.map copiedLine)))
  let date ← Prog.ofExcept (requireDate (some (input.date.getD previous.date)) "date" true)
  let expiryDate ← Prog.ofExcept
    (requireDate (some (input.expiryDate.getD previous.expiryDate)) "expiry date" false)
  let record : EstimateRecord := {
    id := s!"{previous.rootId}-r{revision}"
    rootId := previous.rootId
    revision := revision
    customerId := input.customerId.getD previous.customerId
    jobId := input.jobId.getD previous.jobId
    date := date
    expiryDate := expiryDate
    status := .draft
    taxRatePpm := (input.taxRatePpm.map Js.numberOf).getD previous.taxRatePpm
    memo := input.memo.getD previous.memo
    lines := lines }
  Prog.perform (EstimateCall.save ctx.tenant record)
  Prog.perform (EstimateCall.save ctx.tenant { previous with status := .superseded })
  return record

def setEstimateStatus (id : String) (status : EstimateStatus) : EstimateProg EstimateRecord := do
  let found ← Prog.perform (EstimateCall.get ctx.tenant id)
  let estimate ← Prog.ofExcept (foundEstimate id found)
  let updated := { estimate with status := status }
  Prog.perform (EstimateCall.save ctx.tenant updated)
  return updated

/-! Totals. -/

structure EstimateTotals where
  costMinor : Int
  priceMinor : Int
  taxMinor : Int
  totalMinor : Int
  marginMinor : Int

def costTotal (e : EstimateRecord) : Int := (e.lines.map EstimateLineRecord.extendedCostMinor).sum

def priceTotal (e : EstimateRecord) : Int := (e.lines.map EstimateLineRecord.extendedPriceMinor).sum

def estimateTotals (e : EstimateRecord) : Except EstimateFailure EstimateTotals :=
  let taxable := ((e.lines.filter EstimateLineRecord.taxable).map
    EstimateLineRecord.extendedPriceMinor).sum
  match integerOf e.taxRatePpm with
  | none => .error (.notInteger e.taxRatePpm)
  | some ppm => .ok {
      costMinor := costTotal e
      priceMinor := priceTotal e
      taxMinor := mulDiv taxable ppm million
      totalMinor := priceTotal e + mulDiv taxable ppm million
      marginMinor := priceTotal e - costTotal e }

/-! Opening a job. -/

structure AcceptInput where
  jobId : Option String
  jobName : Option String
  billingMethod : Option String
  costMethod : Option String
  startDate : Option String
  endDate : Option String
  retainagePpm : Option JsNumber
  ignoreExpiry : Bool

def billingMethods : List String := 
  ["TIME_AND_MATERIALS", "PROGRESS", "FIXED_MILESTONES", "COST_PLUS"]

def costMethodOf (raw : Option String) : Except EstimateFailure CostMethod :=
  match toUpperCase (trim (raw.getD "AS_INCURRED")) with
  | "AS_INCURRED" => .ok .asIncurred
  | "CAPITALIZE" => .ok .capitalize
  | _ => .error (.job "cost method must be one of AS_INCURRED, CAPITALIZE")

def billingMethodOf (raw : Option String) : Except EstimateFailure String :=
  let method := toUpperCase (trim (raw.getD "PROGRESS"))
  if method ∉ billingMethods then
    .error (.job ("billing method must be one of " ++ ", ".intercalate billingMethods))
  else .ok method

def jobDate (raw : Option String) (label : String) : Except EstimateFailure String :=
  let date := trim (raw.getD "")
  if date ≠ "" ∧ ¬ isIsoDate date then .error (.job s!"{label} must be YYYY-MM-DD") else .ok date

def revenueAccountOf (chart : ChartOfAccounts) (raw : String) : Except EstimateFailure String :=
  let code := if trim raw = "" then if (chart.getByCode "4100").isSome then "4100" else "4000"
    else trim raw
  match chart.getByCode code with
  | none => .error (.job s!"unknown revenue account {code}")
  | some account => if account.type ≠ .revenue then .error (.job s!"{code} is not a revenue account")
    else .ok code

def nonblank (raw : Option String) : Option String := raw.filter fun text => text ≠ ""

def saveJob (ctx : EstimateContext) (estimate : EstimateRecord) (input : AcceptInput)
    (contractMinor : Int) : EstimateProg JobRecord := do
  let named := if trim (input.jobName.getD "") = "" then
      if estimate.memo = "" then s!"Job from {estimate.id}" else estimate.memo
    else trim (input.jobName.getD "")
  let name := trim named
  Prog.refuseIf (name = "") (.job "a job needs a name")
  let customerId := trim estimate.customerId
  Prog.refuseIf (customerId = "") (.job "a job belongs to a customer")
  let customer ← Prog.perform (EstimateCall.getParty ctx.tenant .customer customerId)
  Prog.refuseIf ((customer : Option PartyRecord) = none) (.job s!"unknown customer {customerId}")
  let billingMethod ← Prog.ofExcept (billingMethodOf input.billingMethod)
  let costMethod ← Prog.ofExcept (costMethodOf (nonblank input.costMethod))
  let startDate ← Prog.ofExcept (jobDate (nonblank input.startDate) "start date")
  let endDate ← Prog.ofExcept (jobDate (nonblank input.endDate) "end date")
  Prog.refuseIf (startDate ≠ "" ∧ endDate ≠ "" ∧ endDate < startDate)
    (.job "the end date is before the start date")
  let retainagePpm ← Prog.ofExcept
    (match (integerOf (input.retainagePpm.getD (some 0))).filter fun ppm => 0 ≤ ppm ∧ ppm ≤ million with
      | none => .error (.job "retainage must be between 0 and 1,000,000 parts per million")
      | some ppm => .ok ppm)
  let revenueAccountCode ← Prog.ofExcept
    (revenueAccountOf ctx.chart ((estimate.lines.head?.map EstimateLineRecord.accountCode).getD ""))
  let contract ← Prog.ofExcept
    ((requireMinor (some (.text (toString contractMinor))) "contract value").mapError .job)
  Prog.refuseIf (contract = 0 ∧ billingMethod = "PROGRESS")
    (.job "a progress-billed job needs a contract value to bill against")
  Prog.refuseIf (contract = 0 ∧ billingMethod = "FIXED_MILESTONES")
    (.job "a fixed-price job needs a contract value to bill against")
  let record : JobRecord := {
    id := slug name
    customerId := customerId
    name := name
    status := .active
    costMethod := costMethod
    contractMinor := contract
    retainagePpm := retainagePpm
    revenueAccountCode := revenueAccountCode }
  Prog.refuseIf (record.id = "") (.job "a job needs a name")
  Prog.perform (EstimateCall.saveJob ctx.tenant record)
  return record

/-! Accepting. -/

def costsByCode (e : EstimateRecord) : OrderedMap String (Int × Int) :=
  e.lines.foldl (fun m l => if l.costCode = "" then m else
    let bucket := (m.get? l.costCode).getD (0, 0)
    m.set l.costCode (bucket.1 + l.extendedCostMinor, bucket.2 + l.extendedPriceMinor)) .empty

variable (estimate : EstimateRecord) (jobId : String)

def IsSibling (e : EstimateRecord) : Prop :=
  e.rootId = estimate.rootId ∧ e.id ≠ estimate.id ∧ e.jobId = jobId

instance (estimate : EstimateRecord) (jobId : String) (e : EstimateRecord) :
    Decidable (IsSibling estimate jobId e) := inferInstanceAs (Decidable (_ ∧ _ ∧ _))

def priorRevision (all : List EstimateRecord) : Option EstimateRecord :=
  all.foldl (fun prior e => if ¬ IsSibling estimate jobId e then prior else
    match prior with
    | none => some e
    | some p => if p.revision < e.revision then some e else some p) none

def budgetInput (base : Option JobBudgetLine) (add prev : Int × Int) (code : String) :
    BudgetLineInput where
  costCode := some code
  budgetCostMinor := some (.text (toString
    ((base.map JobBudgetLine.budgetCostMinor).getD 0 + (add.1 - prev.1))))
  revisedCostMinor := some (.text (toString
    ((base.map JobBudgetLine.revisedCostMinor).getD 0 + (add.1 - prev.1))))
  budgetRevenueMinor := some (.text (toString
    ((base.map JobBudgetLine.budgetRevenueMinor).getD 0 + (add.2 - prev.2))))

/-- Every code of the budget, of the estimate and of the revision before it, with the difference the
estimate makes. -/
def budgetInputs (budget : List JobBudgetLine) (add prev : OrderedMap String (Int × Int)) :
    List BudgetLineInput :=
  let base := byCode budget
  (base.keys ++ add.keys ++ prev.keys).eraseDups.map fun code =>
    budgetInput (base.get? code) ((add.get? code).getD (0, 0)) ((prev.get? code).getD (0, 0)) code

def saveJobBudget (raws : List BudgetLineInput) : EstimateProg (List JobBudgetLine) := do
  let job ← Prog.perform (EstimateCall.getJob ctx.tenant jobId)
  Prog.refuseIf ((job : Option JobRecord) = none) (.own s!"unknown job {jobId}")
  let codes ← Prog.perform (EstimateCall.listCostCodes ctx.tenant)
  let existing ← Prog.perform (EstimateCall.listBudget ctx.tenant jobId)
  let lines ← Prog.ofExcept ((newBudget ctx.localeLe
    ((codes : List CostCodeRecord).map CostCodeRecord.code) existing raws).mapError .own)
  Prog.perform (EstimateCall.saveBudget ctx.tenant jobId lines)
  return lines

def linkedJob (input : AcceptInput) : String :=
  if trim (input.jobId.getD "") = "" then estimate.jobId else trim (input.jobId.getD "")

def jobFor (input : AcceptInput) (priceMinor : Int) : EstimateProg (String × Bool) :=
  let jobId := linkedJob estimate input
  if jobId ≠ "" then do
    let job ← Prog.perform (EstimateCall.getJob ctx.tenant jobId)
    Prog.refuseIf ((job : Option JobRecord) = none) (.own s!"unknown job {jobId}")
    return (jobId, false)
  else do
    let job ← saveJob ctx estimate input priceMinor
    return (job.id, true)

def priorOn (created : Bool) : EstimateProg (Option EstimateRecord) :=
  if created then return none else do
    let all ← Prog.perform (EstimateCall.list ctx.localeLe ctx.tenant)
    return priorRevision estimate jobId all

def seedBudget (estimate : EstimateRecord) (prior : Option EstimateRecord) : EstimateProg Unit :=
  let add := costsByCode estimate
  let prev := (prior.map costsByCode).getD .empty
  if add.keys = [] ∧ prev.keys = [] then return () else do
    let budget ← Prog.perform (EstimateCall.listBudget ctx.tenant jobId)
    let _ ← saveJobBudget ctx jobId (budgetInputs budget add prev)
    return ()

def raiseContract (created : Bool) (priceMinor : Int) (prior : Option EstimateRecord) :
    EstimateProg Unit :=
  if created then return () else do
    let found ← Prog.perform (EstimateCall.getJob ctx.tenant jobId)
    match (found : Option JobRecord) with
    | none => return ()
    | some job => do
      let priorPrice ← Prog.ofExcept (match prior with
        | none => .ok 0
        | some p => (estimateTotals p).map EstimateTotals.priceMinor)
      Prog.perform (EstimateCall.saveJob ctx.tenant
        { job with contractMinor := job.contractMinor + priceMinor - priorPrice })

structure AcceptResult where
  estimate : EstimateRecord
  jobId : String
  created : Bool
  budgetSeeded : Nat

def acceptable (id : String) (estimate : EstimateRecord) (input : AcceptInput) :
    Except EstimateFailure Unit := do
  let today := trim (input.startDate.getD "")
  refuse (estimate.status ∉ openStatuses)
    (.own s!"estimate {id} is {estimate.status.text} and cannot be accepted")
  refuse (estimate.expiryDate ≠ "" ∧ input.ignoreExpiry = false ∧ today ≠ "" ∧
      estimate.expiryDate < today)
    (.own (s!"estimate {id} expired on {estimate.expiryDate} — " ++
      "revise it, or accept it explicitly"))

def acceptEstimate (id : String) (input : AcceptInput) : EstimateProg AcceptResult := do
  let found ← Prog.perform (EstimateCall.get ctx.tenant id)
  let estimate ← Prog.ofExcept (foundEstimate id found)
  Prog.ofExcept (acceptable id estimate input)
  let totals ← Prog.ofExcept (estimateTotals estimate)
  let (jobId, created) ← jobFor ctx estimate input totals.priceMinor
  -- an earlier revision is looked for by its root and the job it has as its own
  let prior ← priorOn ctx estimate jobId created
  seedBudget ctx jobId estimate prior
  raiseContract ctx jobId created totals.priceMinor prior
  let accepted := { estimate with status := .accepted, jobId := jobId }
  Prog.perform (EstimateCall.save ctx.tenant accepted)
  return ⟨accepted, jobId, created, (costsByCode estimate).keys.length⟩

end Rgnr8.Service.Estimates
