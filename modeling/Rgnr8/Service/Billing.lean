import Rgnr8.Service.ArAp
import Rgnr8.Service.Flow
import Rgnr8.Service.Jobs

/-! Billing a job by its schedule of values or by milestones. Either way the bill is an ordinary
invoice for what is collectible now; what the customer holds back is posted beside it. -/

namespace Rgnr8.Service.Billing
open Lib Lib.Js Kernel ArAp

def retainageReceivableCode : String := "1260"

inductive MilestoneStatus where
  | pending | billed | cancelled
  deriving DecidableEq

def MilestoneStatus.text : MilestoneStatus → String
  | .pending => "PENDING"
  | .billed => "BILLED"
  | .cancelled => "CANCELLED"

structure ScheduleLineRecord where
  lineNo : Nat
  description : String
  costCode : String
  scheduledValueMinor : Int
  billedMinor : Int

structure MilestoneRecord where
  id : String
  jobId : String
  name : String
  amountMinor : Int
  dueDate : String
  status : MilestoneStatus
  invoiceId : String
  deriving DecidableEq

/-- A schedule is kept by job and replaced as a whole. -/
structure BillingStore where
  schedules : OrderedMap (TenantId × String) (List ScheduleLineRecord)
  milestones : OrderedMap (TenantId × String) MilestoneRecord

namespace BillingStore

def empty : BillingStore := ⟨.empty, .empty⟩

variable (s : BillingStore) (tenant : TenantId) (jobId : String)

def listSchedule : List ScheduleLineRecord := (s.schedules.get? (tenant, jobId)).getD []

variable (lines : List ScheduleLineRecord)

def saveSchedule : BillingStore :=
  { s with schedules := s.schedules.set (tenant, jobId) lines }

def listMilestones : List MilestoneRecord :=
  (s.milestones.filter fun key m => key.1 = tenant ∧ (jobId = "" ∨ m.jobId = jobId)).values

def saveMilestone (milestone : MilestoneRecord) :
    BillingStore := { s with milestones := s.milestones.set (tenant, milestone.id) milestone }

end BillingStore

inductive BillingCall where
  | arAp (c : ArApCall)
  | journal (tenant : TenantId)
  | getJob (tenant : TenantId) (id : String)
  | listCostCodes (tenant : TenantId)
  | listSchedule (tenant : TenantId) (jobId : String)
  | saveSchedule (tenant : TenantId) (jobId : String) (lines : List ScheduleLineRecord)
  | listMilestones (tenant : TenantId) (jobId : String)
  | saveMilestone (tenant : TenantId) (milestone : MilestoneRecord)

abbrev BillingCall.Answer : BillingCall → Type
  | arAp c => c.Answer
  | journal _ => List PostedEntry
  | getJob _ _ => Option JobRecord
  | listCostCodes _ => List CostCodeRecord
  | listSchedule _ _ => List ScheduleLineRecord
  | listMilestones _ _ => List MilestoneRecord
  | saveSchedule _ _ _ | saveMilestone _ _ => Unit

structure BillingStores (π : Type) where
  books : ArApStores π
  jobs : JobStore
  own : BillingStore

def BillingCall.exec {π : Type} [PeriodStore π] :
    (c : BillingCall) → BillingStores π → c.Answer × BillingStores π
  | arAp c, s => ((c.exec s.books).1, { s with books := (c.exec s.books).2 })
  | journal t, s => (s.books.ledger.journal t, s)
  | getJob t id, s => (s.jobs.getJob t id, s)
  | listCostCodes t, s => (s.jobs.listCostCodes t, s)
  | listSchedule t jobId, s => (s.own.listSchedule t jobId, s)
  | saveSchedule t jobId lines, s => ((), { s with own := s.own.saveSchedule t jobId lines })
  | listMilestones t jobId, s => (s.own.listMilestones t jobId, s)
  | saveMilestone t m, s => ((), { s with own := s.own.saveMilestone t m })

inductive BillingFailure where
  | own (message : String)
  /-- `the schedule has no line …` -/
  | noLine (lineNo : JsNumber)
  /-- What `BigInt` throws for a number that is no integer. -/
  | notInteger (n : JsNumber)
  | dimension (message : String)
  | arAp (e : ArApFailure)
  | ledger (e : LedgerError)
  deriving DecidableEq

abbrev BillingProg := Prog BillingCall BillingCall.Answer BillingFailure

/-- The tenant's side of a request; an invoice is posted through the context it gives AR. -/
structure BillingContext where
  tenant : TenantId
  currency : Currency
  dimensions : DimensionContext
  clock : Clock
  invoicedAt : String
  localeLe : String → String → Bool
  letters : CaseMapping

variable (ctx : BillingContext)

def BillingContext.chart : ChartOfAccounts := ctx.dimensions.chart

def BillingContext.arAp : ArApContext :=
  ⟨ctx.tenant, ctx.chart, ctx.currency, ctx.invoicedAt, some (validateDimensions ctx.dimensions),
    ctx.localeLe⟩

def requireDate (raw : Option String) (label : String) : Except BillingFailure String :=
  let date := trim (raw.getD "")
  if ¬ isIsoDate date then .error (.own s!"{label} must be YYYY-MM-DD") else .ok date

def minorOf (raw : Option TextOrNumber) (label : String) : Except BillingFailure Int :=
  match digitsOnly raw with
  | none => .error (.own s!"{label} must be a whole number of minor units")
  | some n => .ok n

def foundJob (jobId : String) (found : Option JobRecord) : Except BillingFailure JobRecord :=
  match found with
  | none => .error (.own s!"unknown job {jobId}")
  | some job => .ok job

def requireJob (jobId : String) : BillingProg JobRecord := do
  let found ← Prog.perform (BillingCall.getJob ctx.tenant jobId)
  Prog.ofExcept (foundJob jobId found)

def provenanceFor (source id date at_ : String) : Provenance where
  sourceSystem := source
  sourceObject := id
  sourceVersion := "1"
  effectiveDate := date
  postedDate := date
  ingestedAt := at_
  normalizationVersion := "ledger-service/billing-1"
  mappingVersion := "ledger-service/billing-1"

/-- What a billing call produces: an invoice to post, and what to record afterwards. -/
structure BillingDraft where
  request : CreateDocumentRequest
  job : JobRecord
  retainageMinor : Int
  grossMinor : Int
  scheduleLines : Option (List ScheduleLineRecord)
  milestoneId : Option String

/-! The schedule of values. -/

structure ScheduleLineInput where
  description : Option String
  costCode : Option String
  scheduledValueMinor : Option TextOrNumber

def cutLine (letters : CaseMapping) (codes : List String) (existing : List ScheduleLineRecord)
    (lineNo : Nat) (l : ScheduleLineInput) : Except BillingFailure ScheduleLineRecord := do
  let value ← minorOf l.scheduledValueMinor s!"line {lineNo} scheduled value"
  Fallible.refuse (value = 0) (.own s!"line {lineNo}: needs a value")
  let costCode := letters.toUpperCase (trim (l.costCode.getD ""))
  Fallible.refuse (costCode ≠ "" ∧ costCode ∉ codes) (.own s!"unknown cost code {costCode}")
  let billed := ((existing.find? fun x => x.lineNo = lineNo).map
    ScheduleLineRecord.billedMinor).getD 0
  Fallible.refuse (value < billed)
    (.own s!"line {lineNo} has already been billed {billed} — it cannot be cut to {value}")
  return ⟨lineNo, trim (l.description.getD ""), costCode, value, billed⟩

def cutLines (letters : CaseMapping) (codes : List String) (existing : List ScheduleLineRecord) :
    Nat → List ScheduleLineInput → Except BillingFailure (List ScheduleLineRecord)
  | _, [] => return []
  | lineNo, l :: ls => do
    let line ← cutLine letters codes existing lineNo l
    let rest ← cutLines letters codes existing (lineNo + 1) ls
    return line :: rest

def scheduledTotal (lines : List ScheduleLineRecord) : Int :=
  (lines.map ScheduleLineRecord.scheduledValueMinor).sum

def planSchedule (letters : CaseMapping) (codes : List String) (existing : List ScheduleLineRecord)
    (job : JobRecord) (input : List ScheduleLineInput) :
    Except BillingFailure (List ScheduleLineRecord) := do
  let lines ← cutLines letters codes existing 1 input
  Fallible.refuse (lines = []) (.own "a schedule of values needs at least one line")
  Fallible.refuse (0 < job.contractMinor ∧ scheduledTotal lines ≠ job.contractMinor)
    (.own (s!"the schedule adds up to {scheduledTotal lines} but the contract is " ++
      s!"{job.contractMinor} — they have to agree"))
  return lines

def saveSchedule (ctx : BillingContext) (jobId : String) (input : List ScheduleLineInput) :
    BillingProg (List ScheduleLineRecord) := do
  let job ← requireJob ctx jobId
  let existing ← Prog.perform (BillingCall.listSchedule ctx.tenant jobId)
  let costCodes ← Prog.perform (BillingCall.listCostCodes ctx.tenant)
  let codes := (costCodes : List CostCodeRecord).map CostCodeRecord.code
  let lines ← Prog.ofExcept (planSchedule ctx.letters codes existing job input)
  Prog.perform (BillingCall.saveSchedule ctx.tenant jobId lines)
  return lines

/-! Progress bills. -/

structure ProgressLineInput where
  lineNo : Option JsNumber
  percentPpm : Option JsNumber
  amountMinor : Option TextOrNumber

structure ProgressBillInput where
  id : Option String
  date : Option String
  dueDate : Option String
  memo : Option String
  retainagePpm : Option JsNumber
  lines : List ProgressLineInput

/-- A rate from nothing to the whole, in parts per million. -/
def ppmOf (n : JsNumber) : Option Int := (integerOf n).filter fun ppm => 0 ≤ ppm ∧ ppm ≤ million

def scheduleLine (schedule : List ScheduleLineRecord) (l : ProgressLineInput) :
    Except BillingFailure ScheduleLineRecord :=
  let lineNo := l.lineNo.getD (some 0)
  match schedule.find? fun x => integerOf lineNo = some (x.lineNo : Int) with
  | none => .error (.noLine lineNo)
  | some line => .ok line

def askedAmount (line : ScheduleLineRecord) (l : ProgressLineInput) : Except BillingFailure Int :=
  match l.percentPpm with
  | none => minorOf l.amountMinor s!"line {line.lineNo} amount"
  | some percent => match ppmOf percent with
    | none => .error (.own s!"line {line.lineNo}: percent complete must be between 0 and 100%")
    | some ppm => .ok (mulDiv line.scheduledValueMinor ppm million - line.billedMinor)

def wantedAmount (schedule : List ScheduleLineRecord) (l : ProgressLineInput) :
    Except BillingFailure (Nat × Int) := do
  let line ← scheduleLine schedule l
  let amount ← askedAmount line l
  Fallible.refuse (amount < 0) (.own (s!"line {line.lineNo}: that is less than has already been " ++
    "billed — issue a credit, don't bill backwards"))
  Fallible.refuse (amount ≠ 0 ∧ line.scheduledValueMinor < line.billedMinor + amount)
    (.own (s!"line {line.lineNo}: billing {line.billedMinor + amount} against a scheduled " ++
      s!"{line.scheduledValueMinor} — that is a change order, not a progress bill"))
  return (line.lineNo, amount)

def wantedAmounts (schedule : List ScheduleLineRecord) :
    List ProgressLineInput → OrderedMap Nat Int → Except BillingFailure (OrderedMap Nat Int)
  | [], wanted => return wanted
  | l :: ls, wanted => do
    let (lineNo, amount) ← wantedAmount schedule l
    wantedAmounts schedule ls (if amount = 0 then wanted else wanted.set lineNo amount)

def amountOn (wanted : OrderedMap Nat Int) (l : ScheduleLineRecord) : Int :=
  (wanted.get? l.lineNo).getD 0

def retainageRate (override : Option JsNumber) (job : JobRecord) : Except BillingFailure Int :=
  match ppmOf (override.getD (some job.retainagePpm)) with
  | none => .error (.own "retainage must be between 0 and 100%")
  | some ppm => .ok ppm

def jobOnly (job : JobRecord) : Dimensions := (OrderedMap.empty).set jobDimension job.id

def invoiceLine (job : JobRecord) (retainagePpm : Int) (wanted : OrderedMap Nat Int)
    (l : ScheduleLineRecord) : Option DocumentLineInput :=
  let amount := amountOn wanted l
  let net := amount - mulDiv amount retainagePpm million
  if net ≤ 0 then none
  else some {
    description := some (if l.description = "" then s!"Line {l.lineNo}" else l.description)
    quantity := none
    unitAmountMinor := .text (toString net)
    accountCode := job.revenueAccountCode
    taxable := some false
    dimensions := some (if l.costCode = "" then jobOnly job
      else (jobOnly job).set costCodeDimension l.costCode) }

def invoiceRequest (job : JobRecord) (id date : String) (dueDate memo : Option String)
    (defaultMemo : String) (lines : List DocumentLineInput) : CreateDocumentRequest where
  id := id
  partyId := job.customerId
  date := date
  dueDate := nonBlank dueDate
  termsDays := none
  memo := some (if memo.getD "" = "" then defaultMemo else memo.getD "")
  lines := lines
  accounts := ⟨none, none, none⟩
  taxRatePpm := none
  salesTaxCode := none

def billedLine (wanted : OrderedMap Nat Int) (l : ScheduleLineRecord) : ScheduleLineRecord :=
  { l with billedMinor := l.billedMinor + amountOn wanted l }

def draftProgress (job : JobRecord) (jobId : String) (schedule : List ScheduleLineRecord)
    (input : ProgressBillInput) : Except BillingFailure BillingDraft := do
  Fallible.refuse (schedule = [])
    (.own s!"job {jobId} has no schedule of values to bill against")
  let date ← requireDate input.date "date"
  let invoiceId := trim (input.id.getD "")
  Fallible.refuse (invoiceId = "") (.own "the invoice needs an id")
  let wanted ← wantedAmounts schedule input.lines .empty
  Fallible.refuse (wanted.entries = []) (.own "nothing to bill this period")
  let retainagePpm ← retainageRate input.retainagePpm job
  let lines := schedule.filterMap (invoiceLine job retainagePpm wanted)
  Fallible.refuse (lines = [])
    (.own "every line of this application is held as retainage — nothing to invoice")
  return {
    request := invoiceRequest job invoiceId date input.dueDate input.memo
      s!"{job.name} — progress billing" lines
    job := job
    retainageMinor := (schedule.map fun l => mulDiv (amountOn wanted l) retainagePpm million).sum
    grossMinor := (schedule.map (amountOn wanted)).sum
    scheduleLines := some (schedule.map (billedLine wanted))
    milestoneId := none }

def billProgress (jobId : String) (input : ProgressBillInput) : BillingProg BillingDraft := do
  let job ← requireJob ctx jobId
  let schedule ← Prog.perform (BillingCall.listSchedule ctx.tenant jobId)
  Prog.ofExcept (draftProgress job jobId schedule input)

/-! Milestones. -/

structure MilestoneBillInput where
  id : Option String
  milestoneId : Option String
  date : Option String
  dueDate : Option String
  memo : Option String
  retainagePpm : Option JsNumber

def pendingMilestone (milestones : List MilestoneRecord) (milestoneId : String) :
    Except BillingFailure MilestoneRecord :=
  match milestones.find? fun m => m.id = milestoneId with
  | none =>
    .error (.own ("unknown milestone " ++ if milestoneId = "" then "(none)" else milestoneId))
  | some milestone =>
    if milestone.status ≠ .pending then
      .error (.own s!"milestone {milestoneId} is {milestone.status.text}")
    else .ok milestone

/-- `BigInt` of the rate, whatever its range. -/
def milestoneRate (override : Option JsNumber) (job : JobRecord) : Except BillingFailure Int :=
  match integerOf (override.getD (some job.retainagePpm)) with
  | none => .error (.notInteger (override.getD (some job.retainagePpm)))
  | some ppm => .ok ppm

def draftMilestone (job : JobRecord) (milestones : List MilestoneRecord)
    (input : MilestoneBillInput) : Except BillingFailure BillingDraft := do
  let milestone ← pendingMilestone milestones (trim (input.milestoneId.getD ""))
  let date ← requireDate input.date "date"
  let invoiceId := trim (input.id.getD "")
  Fallible.refuse (invoiceId = "") (.own "the invoice needs an id")
  let retainagePpm ← milestoneRate input.retainagePpm job
  let retainage := mulDiv milestone.amountMinor retainagePpm million
  let net := milestone.amountMinor - retainage
  Fallible.refuse (net ≤ 0) (.own "the whole milestone is retainage — nothing to invoice")
  return {
    request := invoiceRequest job invoiceId date input.dueDate input.memo
      s!"{job.name} — {milestone.name}"
      [⟨some milestone.name, none, .text (toString net), job.revenueAccountCode, some false,
        some (jobOnly job)⟩]
    job := job
    retainageMinor := retainage
    grossMinor := milestone.amountMinor
    scheduleLines := none
    milestoneId := some milestone.id }

def billMilestone (jobId : String) (input : MilestoneBillInput) : BillingProg BillingDraft := do
  let job ← requireJob ctx jobId
  let milestones ← Prog.perform (BillingCall.listMilestones ctx.tenant jobId)
  Prog.ofExcept (draftMilestone job milestones input)

/-! What happens after the invoice has been posted. -/

def onLedger {α : Type} (p : LedgerProg α) : BillingProg α :=
  p.interpret (fun c => Prog.perform (BillingCall.arAp (.ledger c))) .ledger

def onArAp {α : Type} (p : ArApProg α) : BillingProg α :=
  p.interpret (fun c => Prog.perform (BillingCall.arAp c)) .arAp

variable (draft : BillingDraft)

def retainageCommand (invoiceId date : String) (retainage revenue : AccountId) : PostCommand where
  tenantId := ctx.tenant
  idempotencyKey := s!"retainage:{invoiceId}"
  periodKey := periodOf date
  currency := ctx.currency
  entryDate := date
  lines := [
    ⟨retainage, .debit, ⟨draft.retainageMinor, ctx.currency⟩, some "Held by the customer",
      some (jobOnly draft.job)⟩,
    ⟨revenue, .credit, ⟨draft.retainageMinor, ctx.currency⟩, some "Earned, not yet collectible",
      some (jobOnly draft.job)⟩]
  provenance := provenanceFor "retainage" invoiceId date ctx.clock.ingestedAt
  memo := some s!"{draft.job.name} — retainage held on {invoiceId}"

def retainageAccounts : Except BillingFailure (AccountId × AccountId) :=
  match ctx.chart.getByCode retainageReceivableCode,
    ctx.chart.getByCode draft.job.revenueAccountCode with
  | some retainage, some revenue => .ok (retainage.id, revenue.id)
  | _, _ => .error (.own (s!"this chart has no account {retainageReceivableCode} — create a job " ++
      "to have the job-costing accounts added"))

def postRetainage (invoiceId date : String) : BillingProg EntryId :=
  if draft.retainageMinor ≤ 0 then return ""
  else do
    let (retainage, revenue) ← Prog.ofExcept (retainageAccounts ctx draft)
    let command := retainageCommand ctx draft invoiceId date retainage revenue
    Prog.ofExcept ((validateDimensions ctx.dimensions command).mapError .dimension)
    let entry ← onLedger (PostingEngine.post ctx.chart command ⟨ctx.clock.postedAt⟩)
    return entry.id

def applySchedule : BillingProg Unit :=
  match draft.scheduleLines with
  | none => return ()
  | some lines => Prog.perform (BillingCall.saveSchedule ctx.tenant draft.job.id lines)

def applyMilestone (invoiceId : String) : BillingProg Unit :=
  match draft.milestoneId with
  | none => return ()
  | some id => do
    let milestones ← Prog.perform (BillingCall.listMilestones ctx.tenant draft.job.id)
    match (milestones : List MilestoneRecord).find? fun m => m.id = id with
    | none => return ()
    | some milestone => Prog.perform (BillingCall.saveMilestone ctx.tenant
        { milestone with status := .billed, invoiceId := invoiceId })

def applyDraft (invoiceId : String) : BillingProg Unit := do
  applySchedule ctx draft
  applyMilestone ctx draft invoiceId

structure PostedDraft where
  doc : DocRecord
  entryId : EntryId
  grossMinor : Int
  retainageMinor : Int
  retainageEntryId : EntryId

def postBillingDraft : BillingProg PostedDraft := do
  let result ← onArAp (createDocument .invoice draft.request ctx.arAp)
  let retainageEntry ← postRetainage ctx draft draft.request.id draft.request.date
  applyDraft ctx draft draft.request.id
  return ⟨result.doc, result.entryId, draft.grossMinor, draft.retainageMinor, retainageEntry⟩

/-! Releasing. -/

def jobAccountBalance (chart : ChartOfAccounts) (journal : List PostedEntry) (jobId code : String) :
    Int :=
  match chart.getByCode code with
  | none => 0
  | some account => (journal.map fun e => ((e.lines.filter fun l => l.accountId = account.id ∧
      (l.dimensions.getD .empty).get? jobDimension = some jobId).map fun l =>
        l.side.signed l.amount.minorUnits).sum).sum

variable (jobId : String)

def retainageHeld : BillingProg Int := do
  let journal ← Prog.perform (BillingCall.journal ctx.tenant)
  return jobAccountBalance ctx.chart journal jobId retainageReceivableCode

structure ReleaseInput where
  id : Option String
  date : Option String
  dueDate : Option String
  amountMinor : Option TextOrNumber
  memo : Option String

def isBlank : Option TextOrNumber → Bool
  | none => true
  | some (.text s) => trim s = ""
  | some (.number _) => false

def releaseAmount (held : Int) (jobId : String) (raw : Option TextOrNumber) :
    Except BillingFailure Int := do
  let amount ← if isBlank raw then .ok held else minorOf raw "amount"
  Fallible.refuse (amount ≤ 0) (.own s!"job {jobId} has no retainage to release")
  Fallible.refuse (held < amount)
    (.own s!"only {held} of retainage is held on {jobId}, not {amount}")
  return amount

def releaseRetainageRequest (input : ReleaseInput) : BillingProg CreateDocumentRequest := do
  let job ← requireJob ctx jobId
  let date ← Prog.ofExcept (requireDate input.date "date")
  let invoiceId := trim (input.id.getD "")
  Prog.refuseIf (invoiceId = "") (.own "the invoice needs an id")
  let held ← retainageHeld ctx jobId
  let amount ← Prog.ofExcept (releaseAmount held jobId input.amountMinor)
  return invoiceRequest job invoiceId date input.dueDate input.memo
    s!"{job.name} — retainage released"
    [⟨some "Retainage released", none, .text (toString amount), retainageReceivableCode, some false,
      some (jobOnly job)⟩]

/-- `POST /jobs/<id>/retainage/release`. -/
def releaseRetainage (input : ReleaseInput) : BillingProg CreateDocumentResult := do
  let request ← releaseRetainageRequest ctx jobId input
  onArAp (createDocument .invoice request ctx.arAp)

end Rgnr8.Service.Billing
