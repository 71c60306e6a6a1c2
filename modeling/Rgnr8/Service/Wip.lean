import Rgnr8.Service.Flow
import Rgnr8.Service.Jobs

/-! Work in progress: what a job has earned by percent complete, or defers until it is done, against
what its balance-sheet accounts carry, and the entry that moves them the difference. -/

namespace Rgnr8.Service.Wip
open Lib Lib.Js Fallible Kernel

def costsInExcessCode : String := "1250"

def billingsInExcessCode : String := "2450"

def workInProgressCode : String := "1270"

def wipSource : String := "wip-adjustment"

def listJobs (s : JobStore) (localeLe : String → String → Bool) (tenant : TenantId) :
    List JobRecord :=
  (s.jobs.filter fun key _ => key.1 = tenant).values.insertionSort fun a b =>
    localeLe a.id b.id = true

/-- The tenant's side of a request, with the records as the request has read them. No job is saved
without an id. -/
structure WipContext where
  tenant : TenantId
  chart : ChartOfAccounts
  currency : Currency
  clock : Clock
  dimensions : List DimensionDef
  jobs : JobStore
  localeLe : String → String → Bool
  named : ∀ j ∈ listJobs jobs localeLe tenant, j.id ≠ ""

inductive WipFailure where
  | own (message : String)
  | dimension (message : String)
  | ledger (e : LedgerError)
  /-- What `BigInt` throws for a number that is no integer. -/
  | notInteger
  deriving DecidableEq

/-! The journal as a job sees it. -/

structure JobLedgerView where
  costToDate : Int
  costByAccount : OrderedMap String Int
  billed : Int
  costsInExcess : Int
  billingsInExcess : Int
  workInProgress : Int

def JobLedgerView.empty : JobLedgerView := ⟨0, .empty, 0, 0, 0, 0⟩

def jobOf (line : PostedLine) : Option String := (line.dimensions.getD .empty).get? jobDimension

def signedAmount (line : PostedLine) : Int := line.side.signed line.amount.minorUnits

def viewAccount (isWip : Bool) (account : Account) (signed : Int) (v : JobLedgerView) :
    JobLedgerView :=
  if account.code = costsInExcessCode then { v with costsInExcess := v.costsInExcess + signed }
  else if account.code = billingsInExcessCode then
    { v with billingsInExcess := v.billingsInExcess + -signed }
  else if account.code = workInProgressCode then
    { v with workInProgress := v.workInProgress + signed }
  else if account.type = .expense then
    let known := (v.costByAccount.get? account.code).getD 0
    if isWip then { v with costByAccount := v.costByAccount.set account.code known }
    else { v with
      costToDate := v.costToDate + signed
      costByAccount := v.costByAccount.set account.code (known + signed) }
  else if account.type = .revenue ∧ ¬ isWip then { v with billed := v.billed + -signed }
  else v

def viewLine (chart : ChartOfAccounts) (jobId : String) (isWip : Bool) (v : JobLedgerView)
    (line : PostedLine) : JobLedgerView :=
  if jobOf line ≠ some jobId then v
  else match chart.get line.accountId with
    | none => v
    | some account => viewAccount isWip account (signedAmount line) v

def isWip (entry : PostedEntry) : Bool := entry.provenance.sourceSystem = wipSource

def viewEntry (chart : ChartOfAccounts) (jobId through : String) (v : JobLedgerView)
    (entry : PostedEntry) : JobLedgerView :=
  if through ≠ "" ∧ Before through entry.entryDate then v
  else entry.lines.foldl (viewLine chart jobId (isWip entry)) v

def ledgerView (chart : ChartOfAccounts) (journal : List PostedEntry) (jobId through : String) :
    JobLedgerView := journal.foldl (viewEntry chart jobId through) .empty

/-! What it should come to. -/

/-- `BigInt(Math.min(Number(ppm), 1000000))` -/
def cappedPpm (ppm : Int) : Except WipFailure Int :=
  if million ≤ ppm then .ok million
  else match integerOf (double ppm) with
    | none => .error .notInteger
    | some n => .ok (min n million)

def percentOf (part whole : Int) : Except WipFailure Int :=
  cappedPpm (if whole ≤ 0 then 0 else (part * million).tdiv whole)

structure JobMath where
  view : JobLedgerView
  estimated : Int
  percentPpm : Int
  earned : Int
  targetCostsInExcess : Int
  targetBillingsInExcess : Int
  targetWorkInProgress : Int
  targetDeferredBillings : Int

def estimatedCost (budget : List JobBudgetLine) (view : JobLedgerView) : Int :=
  let budgeted := (budget.map JobBudgetLine.revisedCostMinor).sum
  if 0 < budgeted then budgeted else view.costToDate

def mathAt (job : JobRecord) (budget : List JobBudgetLine) (view : JobLedgerView)
    (percentPpm : Int) : JobMath :=
  let earned := (job.contractMinor * percentPpm).tdiv million
  let complete := job.status = .complete ∨ job.status = .closed
  let capitalize := job.costMethod = .capitalize
  { view := view
    estimated := estimatedCost budget view
    percentPpm := percentPpm
    earned := earned
    targetCostsInExcess :=
      if capitalize then 0 else if view.billed < earned then earned - view.billed else 0
    targetBillingsInExcess :=
      if capitalize then 0 else if earned < view.billed then view.billed - earned else 0
    targetWorkInProgress := if capitalize ∧ ¬ complete then view.costToDate else 0
    targetDeferredBillings := if capitalize ∧ ¬ complete then view.billed else 0 }

variable (ctx : WipContext)

def jobMath (journal : List PostedEntry) (through : String) (job : JobRecord) :
    Except WipFailure JobMath := do
  let view := ledgerView ctx.chart journal job.id through
  let budget := ctx.jobs.listBudget ctx.tenant job.id
  let percentPpm ← percentOf view.costToDate (estimatedCost budget view)
  return mathAt job budget view percentPpm

/-! An amount split in proportion to weights. -/

structure Allocation where
  out : OrderedMap String Int
  assigned : Int
  largest : String
  largestWeight : Int

def allocateStep (total weightTotal : Int) (a : Allocation) (weight : String × Int) : Allocation :=
  let share := (total * weight.2).tdiv weightTotal
  { out := a.out.set weight.1 share
    assigned := a.assigned + share
    largest := if a.largestWeight < weight.2 then weight.1 else a.largest
    largestWeight := if a.largestWeight < weight.2 then weight.2 else a.largestWeight }

/-- The remainder of the rounding goes to the biggest. -/
def allocate (total : Int) (weights : OrderedMap String Int) : OrderedMap String Int :=
  let weightTotal := weights.values.sum
  if weightTotal ≤ 0 then .empty
  else
    let a := weights.entries.foldl (allocateStep total weightTotal) ⟨.empty, 0, "", -1⟩
    if a.assigned ≠ total ∧ a.largest ≠ "" then
      a.out.set a.largest ((a.out.get? a.largest).getD 0 + (total - a.assigned))
    else a.out

/-! The lines of a job. -/

def need (chart : ChartOfAccounts) (code : String) : Except WipFailure Account :=
  match chart.getByCode code with
  | none => .error (.own (s!"this chart has no account {code} — create a job to have the " ++
      "job-costing accounts added"))
  | some account => .ok account

def dimsOf (job : JobRecord) : Dimensions := OrderedMap.empty.set jobDimension job.id

/-- A line of a delta, if there is one, on the side `up` where it is positive. -/
def moved (job : JobRecord) (code : String) (up : EntrySide) (delta : Int) (memo : String) :
    Except WipFailure (List JournalLineInput) :=
  if delta = 0 then .ok []
  else do
    let account ← need ctx.chart code
    return [⟨account.id, if 0 < delta then up else up.swap, ⟨delta.natAbs, ctx.currency⟩,
      some s!"{job.name} — {memo}", some (dimsOf job)⟩]

def shareLine (job : JobRecord) (costDelta : Int) (share : String × Int) :
    Except WipFailure JournalLineInput := do
  let account ← need ctx.chart share.1
  return ⟨account.id, if 0 < costDelta then .credit else .debit,
    ⟨share.2.natAbs, ctx.currency⟩, some s!"{job.name} — cost deferred",
    some ((dimsOf job).set costCodeDimension "")⟩

def deferral (job : JobRecord) (view : JobLedgerView) (costDelta : Int) :
    Except WipFailure (List JournalLineInput) :=
  if costDelta = 0 then .ok []
  else do
    let weights := view.costByAccount.filter fun _ amount => 0 < amount
    let first ← moved ctx job workInProgressCode .debit costDelta "cost deferred"
    refuse (weights.entries = []) (.own s!"{job.id}: no cost accounts to defer against")
    let shares := (allocate costDelta weights).entries.filter fun share => share.2 ≠ 0
    let rest ← shares.mapM (shareLine ctx job costDelta)
    return first ++ rest

structure JobAdjustment where
  jobId : String
  adjustment : Int
  lossProvision : Int
  lines : List JournalLineInput

def capitalized (job : JobRecord) (m : JobMath) : Except WipFailure JobAdjustment := do
  let costDelta := m.targetWorkInProgress - m.view.workInProgress
  let billDelta := m.targetDeferredBillings - m.view.billingsInExcess
  let costs ← deferral ctx job m.view costDelta
  let billings ← moved ctx job billingsInExcessCode .credit billDelta "billings deferred"
  let revenue ← moved ctx job job.revenueAccountCode .debit billDelta "billings deferred"
  return ⟨job.id, costDelta, 0, costs ++ billings ++ revenue⟩

structure WipPostInput where
  date : Option String
  through : Option String
  jobId : Option String
  memo : Option String
  includeLossProvision : Bool

variable (input : WipPostInput)

/-- The whole foreseen loss, less the part already in the numbers. -/
def lossProvision (job : JobRecord) (m : JobMath) : Int :=
  if input.includeLossProvision ∧ job.contractMinor < m.estimated ∧ 0 < job.contractMinor then
    m.estimated - job.contractMinor -
      (if m.earned - m.view.costToDate < 0 then m.view.costToDate - m.earned else 0)
  else 0

def percentComplete (job : JobRecord) (m : JobMath) : Except WipFailure JobAdjustment := do
  let underDelta := m.targetCostsInExcess - m.view.costsInExcess
  let overDelta := m.targetBillingsInExcess - m.view.billingsInExcess
  let adjustment := underDelta - overDelta
  let earned ← moved ctx job costsInExcessCode .debit underDelta "earned, not yet billed"
  let ahead ← moved ctx job billingsInExcessCode .credit overDelta "billed ahead of the work"
  let revenue ← moved ctx job job.revenueAccountCode .credit adjustment "percent complete"
  let provision := max 0 (lossProvision input job m)
  let asset ← moved ctx job costsInExcessCode .credit provision "provision for loss on contract"
  let loss ← moved ctx job job.revenueAccountCode .debit provision "provision for loss on contract"
  return ⟨job.id, adjustment, lossProvision input job m,
    earned ++ ahead ++ revenue ++ (asset ++ loss)⟩

variable (journal : List PostedEntry)

def jobAdjustment (through : String) (job : JobRecord) : Except WipFailure JobAdjustment := do
  let m ← jobMath ctx journal through job
  match job.costMethod with
  | .capitalize => capitalized ctx job m
  | .asIncurred => percentComplete ctx input job m

/-! The entry. -/

def dateOf : String := trim ((input.date.or input.through).getD "")

def throughOf : String := trim (input.through.getD (dateOf input))

def scopeOf : String := input.jobId.getD ""

def covered : List JobRecord :=
  (listJobs ctx.jobs ctx.localeLe ctx.tenant).filter fun job =>
    job.status ≠ .estimating ∧ (scopeOf input = "" ∨ job.id = scopeOf input)

def cleaned (line : JournalLineInput) : JournalLineInput :=
  { line with dimensions := line.dimensions.map fun d => d.filter fun _ value => value ≠ "" }

def priorRuns : Nat :=
  (journal.filter fun e => isWip e ∧ e.entryDate = dateOf input ∧
    (scopeOf input = "" ∨ ∃ l ∈ e.lines, jobOf l = some (scopeOf input))).length

def wipKey : IdempotencyKey :=
  let scope := if scopeOf input = "" then "" else s!"{scopeOf input}:"
  s!"wip:{scope}{dateOf input}#{priorRuns input journal}"

def provenanceFor (date at_ : String) : Provenance :=
  ⟨wipSource, "wip", "1", date, date, at_, "ledger-service/wip-1", "ledger-service/wip-1"⟩

def wipCommand (lines : List JournalLineInput) : PostCommand where
  tenantId := ctx.tenant
  idempotencyKey := wipKey input journal
  periodKey := periodOf (dateOf input)
  currency := ctx.currency
  entryDate := dateOf input
  lines := lines.map cleaned
  provenance := provenanceFor (dateOf input) ctx.clock.ingestedAt
  memo := some (textOr input.memo s!"Work in progress through {throughOf input}")

structure WipJobResult where
  jobId : String
  adjustmentMinor : Int
  lossProvisionMinor : Int
  deriving DecidableEq

structure WipPostResult where
  entryId : EntryId
  posted : Bool
  jobs : List WipJobResult
  reason : String
  deriving DecidableEq

def nothingToPost : WipPostResult :=
  ⟨"", false, [], "the balance sheet already agrees with the schedule — nothing to post"⟩

variable (adjustments : List JobAdjustment)

def summaryOf : List WipJobResult :=
  (adjustments.filter fun a => a.adjustment ≠ 0 ∨ a.lossProvision ≠ 0).map fun a =>
    ⟨a.jobId, a.adjustment, a.lossProvision⟩

def WipContext.dimensionContext : DimensionContext where
  chart := ctx.chart
  dimensions := ctx.dimensions
  jobs := (listJobs ctx.jobs ctx.localeLe ctx.tenant).map JobRecord.id
  costCodes := (ctx.jobs.listCostCodes ctx.tenant).map CostCodeRecord.code

def adjustmentsOf : Except WipFailure (List JobAdjustment) := do
  refuse (¬ isIsoDate (dateOf input)) (.own "date must be YYYY-MM-DD")
  (covered ctx input).mapM (jobAdjustment ctx input journal (throughOf input))

def linesOf : List JournalLineInput :=
  adjustments.flatMap JobAdjustment.lines

def postCommand {π : Type} [PeriodStore π] (jobs : List WipJobResult) (command : PostCommand)
    (s : Ledger π) : Except WipFailure WipPostResult × Ledger π :=
  match validateDimensions ctx.dimensionContext command with
  | .error message => (.error (.dimension message), s)
  | .ok () =>
    let r := (PostingEngine.post ctx.chart command ⟨ctx.clock.postedAt⟩).run LedgerCall.exec s
    ((r.1.mapError .ledger).map fun entry => ⟨entry.id, true, jobs, ""⟩, r.2)

def postWipAdjustment {π : Type} [PeriodStore π] (s : Ledger π) :
    Except WipFailure WipPostResult × Ledger π :=
  let journal := s.journal ctx.tenant
  match adjustmentsOf ctx input journal with
  | .error e => (.error e, s)
  | .ok adjustments =>
    if linesOf adjustments = [] then (.ok nothingToPost, s)
    else postCommand ctx (summaryOf adjustments)
      (wipCommand ctx input journal (linesOf adjustments)) s

end Rgnr8.Service.Wip
