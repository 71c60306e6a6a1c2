import Rgnr8.Forecast.Recurrence
import Mathlib.Data.Prod.Lex
import Rgnr8.Forecast.LiquidityPath
import Rgnr8.Forecast.Scaling

/-! What a forecast is made from, and the assumptions that define a scenario. -/

namespace Rgnr8.Forecast
open Lib.Py List

/-- Where a projected flow came from. -/
structure Provenance where
  sourceSystem : String
  sourceType : String
  sourceId : String

structure CashPosition where
  asOf : Date
  available : Money
  restricted : Money
  verified : Bool

inductive InvoiceStatus where
  | open_ | partial_ | disputed
  deriving DecidableEq

structure Invoice where
  id : String
  customerId : String
  issueDate : Date
  dueDate : Date
  openAmount : Money
  status : InvoiceStatus
  provenance : Option Provenance

structure PaymentObservation where
  dueDate : Date
  paidDate : Date

def PaymentObservation.daysLate (o : PaymentObservation) : Int := o.paidDate.daysSince o.dueDate

structure CustomerHistory where
  customerId : String
  observations : List PaymentObservation
  overrideDaysLate : Option Int

structure Bill where
  id : String
  vendorId : String
  dueDate : Date
  amount : Money
  scheduledDate : Option Date
  provenance : Option Provenance

structure RecurringItem where
  label : String
  category : Category
  direction : Direction
  amount : Money
  recurrence : Recurrence
  deriving DecidableEq

structure PayrollSchedule where
  label : String
  recurrence : Recurrence
  netPay : Money
  payrollTaxes : Money
  taxRemitLagDays : Int

structure DebtInstrument where
  label : String
  recurrence : Recurrence
  payment : Money

structure OneTimeItem where
  label : String
  category : Category
  direction : Direction
  amount : Money
  onDate : Date
  confidence : Confidence
  provenance : Option Provenance

structure PipelineOpportunity where
  label : String
  customerId : String
  expectedDate : Date
  amount : Money
  probabilityBps : Int

structure ForecastInputs where
  opening : CashPosition
  currency : String
  invoices : List Invoice
  customerHistories : List CustomerHistory
  bills : List Bill
  recurring : List RecurringItem
  payroll : List PayrollSchedule
  debt : List DebtInstrument
  oneTime : List OneTimeItem
  pipeline : List PipelineOpportunity

def ForecastInputs.historyFor (inputs : ForecastInputs) (customerId : String) :
    Option CustomerHistory :=
  inputs.customerHistories.find? fun h => h.customerId = customerId

structure ScenarioAssumptions where
  arExtraDelayDays : Int
  badDebtAgeDays : Option Int
  badDebtBps : Int
  refundReserveBps : Int
  includePipeline : Bool
  /-- Receivables come in on their due dates. -/
  arOnTime : Bool

def baseAssumptions : ScenarioAssumptions := ⟨0, none, 0, 0, false, false⟩

def downsideAssumptions : ScenarioAssumptions := ⟨14, some 90, 2500, 150, false, false⟩

def upsideAssumptions : ScenarioAssumptions := ⟨0, none, 0, 0, true, true⟩

/-! How late a customer pays. -/

/-- `statistics.median` of numbers of days. -/
def median (samples : List Int) : Except PyError Rat :=
  let data := samples.insertionSort (· ≤ ·)
  let n := data.length
  if n = 0 then .error .value
  else if n % 2 = 1 then .ok (data.getD (n / 2) 0)
  else .ok (((data.getD (n / 2 - 1) 0 + data.getD (n / 2) 0 : Int) : Rat) / 2)

def predictDaysLate (history : Option CustomerHistory) (config : ForecastConfig) :
    Except PyError Int :=
  match history.bind CustomerHistory.overrideDaysLate with
  | some days => .ok days
  | none =>
    let samples := (history.map fun h => h.observations.map PaymentObservation.daysLate).getD []
    if config.minHistoryObservations ≤ samples.length then (median samples).map round
    else .ok config.defaultPaymentDelayDays

/-! The resolution of inputs into dated flows under the assumptions of a scenario, and the three
scenarios run from the same inputs. -/

def Direction.value : Direction → String
  | inflow => "INFLOW"
  | outflow => "OUTFLOW"

def Category.value : Category → String
  | customerReceipt => "CUSTOMER_RECEIPT"
  | pipelineReceipt => "PIPELINE_RECEIPT"
  | otherInflow => "OTHER_INFLOW"
  | vendorPayment => "VENDOR_PAYMENT"
  | payrollNet => "PAYROLL_NET"
  | payrollTax => "PAYROLL_TAX"
  | taxRemittance => "TAX_REMITTANCE"
  | debtService => "DEBT_SERVICE"
  | rent => "RENT"
  | ownerDistribution => "OWNER_DISTRIBUTION"
  | capitalExpenditure => "CAPITAL_EXPENDITURE"
  | refundChargeback => "REFUND_CHARGEBACK"
  | otherOutflow => "OTHER_OUTFLOW"
  | transfer => "TRANSFER"

def clamp (asOf d : Date) : Date := if asOf ≤ d then d else asOf

section
variable (asOf horizonEnd : Date)

def inWindow (d : Date) : Bool := asOf ≤ d ∧ d ≤ horizonEnd

section
variable (inputs : ForecastInputs) (config : ForecastConfig) (assumptions : ScenarioAssumptions)
variable (inv : Invoice)

def payDate : Except PyError Date :=
  if assumptions.arOnTime then return clamp asOf inv.dueDate
  else do
    let daysLate ← predictDaysLate (inputs.historyFor inv.customerId) config
    return clamp asOf (← inv.dueDate.addDays (daysLate + assumptions.arExtraDelayDays))

def receivable : Except PyError Money :=
  if assumptions.badDebtAgeDays.any (fun days => days < asOf.daysSince inv.dueDate) ∧
      0 < assumptions.badDebtBps then
    inv.openAmount.scaleBy (10000 - assumptions.badDebtBps) 10000
  else return inv.openAmount

def refundReserve (amount : Money) : Except PyError (Option Money) :=
  if 0 < assumptions.refundReserveBps then do
    let reserve ← amount.scaleBy assumptions.refundReserveBps 10000
    return if 0 < reserve.minorUnits then some reserve else none
  else return none

def receiptFlows : Except PyError (List CashFlow) :=
  if inv.status = .disputed then return []
  else do
    let onDate ← payDate asOf inputs config assumptions inv
    if !inWindow asOf horizonEnd onDate then return []
    else
      let amount ← receivable asOf assumptions inv
      if amount.minorUnits = 0 then return []
      else
        let reserve ← refundReserve assumptions amount
        return ⟨0, onDate, .inflow, amount, .customerReceipt, .predicted, some inv.id⟩ ::
          reserve.toList.map fun r =>
            ⟨0, onDate, .outflow, r, .refundChargeback, .scenario, some inv.id⟩

end

def pipelineFlows (opp : PipelineOpportunity) : Except PyError (List CashFlow) :=
  let d := clamp asOf opp.expectedDate
  if !inWindow asOf horizonEnd d then return []
  else do
    let weighted ← opp.amount.scaleBy opp.probabilityBps 10000
    return if weighted.minorUnits = 0 then []
      else [⟨0, d, .inflow, weighted, .pipelineReceipt, .scenario, some opp.customerId⟩]

def billFlows (bill : Bill) : List CashFlow :=
  let d := clamp asOf (bill.scheduledDate.getD bill.dueDate)
  if !inWindow asOf horizonEnd d then []
  else [⟨0, d, .outflow, bill.amount, .vendorPayment, .recorded, some bill.id⟩]

def recurringFlows (item : RecurringItem) : Except PyError (List CashFlow) :=
  if item.category = .transfer then return []
  else do
    let dates ← item.recurrence.occurrences asOf horizonEnd
    return dates.map fun d =>
      ⟨0, d, item.direction, item.amount, item.category, .recorded, some item.label⟩

def paydayFlows (pr : PayrollSchedule) (payday : Date) : Except PyError (List CashFlow) := do
  let net := ⟨0, payday, .outflow, pr.netPay, .payrollNet, .recorded, some pr.label⟩
  if 0 < pr.payrollTaxes.minorUnits then
    let remit ← payday.addDays pr.taxRemitLagDays
    return if inWindow asOf horizonEnd remit then
        [net, ⟨0, remit, .outflow, pr.payrollTaxes, .payrollTax, .recorded, some pr.label⟩]
      else [net]
  else return [net]

def payrollFlows (pr : PayrollSchedule) : Except PyError (List CashFlow) := do
  let paydays ← pr.recurrence.occurrences asOf horizonEnd
  return (← paydays.mapM (paydayFlows asOf horizonEnd pr)).flatten

def debtFlows (inst : DebtInstrument) : Except PyError (List CashFlow) := do
  let dates ← inst.recurrence.occurrences asOf horizonEnd
  return dates.map fun d => ⟨0, d, .outflow, inst.payment, .debtService, .recorded, some inst.label⟩

def oneTimeFlows (ot : OneTimeItem) : List CashFlow :=
  if ot.category = .transfer then []
  else if !inWindow asOf horizonEnd ot.onDate then []
  else [⟨0, ot.onDate, ot.direction, ot.amount, ot.category, ot.confidence, some ot.label⟩]

def commitmentFlows (inputs : ForecastInputs) : Except PyError (List CashFlow) := do
  let bills := (inputs.bills.map (billFlows asOf horizonEnd)).flatten
  let recurring ← inputs.recurring.mapM (recurringFlows asOf horizonEnd)
  let payroll ← inputs.payroll.mapM (payrollFlows asOf horizonEnd)
  let debt ← inputs.debt.mapM (debtFlows asOf horizonEnd)
  let oneTime := (inputs.oneTime.map (oneTimeFlows asOf horizonEnd)).flatten
  return bills ++ recurring.flatten ++ payroll.flatten ++ debt.flatten ++ oneTime

end

def sortKey (f : CashFlow) : Date ×ₗ String ×ₗ String ×ₗ String ×ₗ Int :=
  toLex (f.onDate, toLex (f.direction.value, toLex (f.category.value,
    toLex (f.originId.getD "", f.amount.minorUnits))))

def numbered (raw : List CashFlow) : List CashFlow :=
  (raw.insertionSort fun a b => sortKey a ≤ sortKey b).mapIdx fun i f => { f with seq := i + 1 }

def pipelineReceipts (asOf horizonEnd : Date) (inputs : ForecastInputs)
    (assumptions : ScenarioAssumptions) : Except PyError (List (List CashFlow)) :=
  if assumptions.includePipeline then inputs.pipeline.mapM (pipelineFlows asOf horizonEnd)
  else return []

variable (inputs : ForecastInputs) (config : ForecastConfig) (assumptions : ScenarioAssumptions)

def resolve : Except PyError (List CashFlow) := do
  let asOf := inputs.opening.asOf
  let horizonEnd ← asOf.addDays (config.horizonWeeks * 7 - 1)
  let receipts ← inputs.invoices.mapM (receiptFlows asOf horizonEnd inputs config assumptions)
  let pipeline ← pipelineReceipts asOf horizonEnd inputs assumptions
  let commitments ← commitmentFlows asOf horizonEnd inputs
  return numbered (receipts.flatten ++ pipeline.flatten ++ commitments)

def runForecast : Except PyError Projection := do
  let flows ← resolve inputs config assumptions
  computeProjection inputs.opening.available inputs.opening.restricted flows config
    inputs.opening.asOf

structure ScenarioComparison where
  base : Projection
  downside : Projection
  upside : Projection

def runAllScenarios : Except PyError ScenarioComparison := do
  let base ← runForecast inputs config baseAssumptions
  let downside ← runForecast inputs config downsideAssumptions
  let upside ← runForecast inputs config upsideAssumptions
  return ⟨base, downside, upside⟩

/-! What resolved flows come to through a day, part by part. -/

open Lib Fallible

section
variable (val : CashFlow → Int) (asOf : Date) (n : Int)

def counted (f : CashFlow) : Int := if asOf ≤ f.onDate ∧ f.onDate.ordinal ≤ n then val f else 0

theorem flowedThrough_eq_sum (flows : List CashFlow) :
    flowedThrough val flows asOf n = (flows.map (counted val asOf n)).sum := by
  unfold flowedThrough
  induction flows with
  | nil => rfl
  | cons f flows ih =>
    rw [filter_cons, map_cons, sum_cons, ← ih]
    unfold counted
    by_cases h : asOf ≤ f.onDate ∧ f.onDate.ordinal ≤ n
    · rw [if_pos (decide_eq_true h), if_pos h, map_cons, sum_cons]
    · rw [if_neg (by rwa [decide_eq_true_iff]), if_neg h, Int.zero_add]

theorem flowedThrough_append (flows flows' : List CashFlow) :
    flowedThrough val (flows ++ flows') asOf n =
      flowedThrough val flows asOf n + flowedThrough val flows' asOf n := by
  simp only [flowedThrough_eq_sum, map_append, sum_append]

end

section
variable {asOf : Date} {n : Int} {α : Type}

theorem numbered_perm (raw : List CashFlow) (g : CashFlow → Int)
    (hseq : ∀ f seq, g { f with seq := seq } = g f) :
    ((numbered raw).map g).Perm (raw.map g) := by
  have hmap : (numbered raw).map g = (raw.insertionSort fun a b => sortKey a ≤ sortKey b).map g := by
    unfold numbered
    refine ext_getElem (by simp) fun i hi hi' => ?_
    rw [getElem_map, getElem_map, getElem_mapIdx]
    exact hseq _ _
  rw [hmap]
  exact (perm_insertionSort _ raw).map g

theorem flowedThrough_numbered (raw : List CashFlow) :
    flowedThrough CashFlow.signedMinor (numbered raw) asOf n =
      flowedThrough CashFlow.signedMinor raw asOf n := by
  rw [flowedThrough_eq_sum, flowedThrough_eq_sum]
  exact (numbered_perm raw _ fun _ _ => rfl).sum_eq

theorem mem_numbered {raw : List CashFlow} {f : CashFlow} (hf : f ∈ numbered raw) :
    ∃ g ∈ raw, f.amount = g.amount ∧ f.onDate = g.onDate := by
  unfold numbered at hf
  rw [mem_mapIdx] at hf
  obtain ⟨i, hi, rfl⟩ := hf
  exact ⟨_, (mem_insertionSort _).mp (getElem_mem hi), rfl, rfl⟩

theorem flowedThrough_flatten {f : α → Except PyError (List CashFlow)} {xs : List α}
    {fss : List (List CashFlow)} (hfss : xs.mapM f = .ok fss) {g : α → Int}
    (hg : ∀ x ∈ xs, ∀ fs, f x = .ok fs → flowedThrough CashFlow.signedMinor fs asOf n = g x) :
    flowedThrough CashFlow.signedMinor fss.flatten asOf n = (xs.map g).sum := by
  rw [mapM_eq_ok] at hfss
  induction hfss with
  | nil => rfl
  | cons hx _ ih =>
    rw [forall_mem_cons] at hg
    rw [flatten_cons, flowedThrough_append, map_cons, sum_cons, hg.1 _ hx, ih hg.2]

theorem flowedThrough_flatten_le {f f' : α → Except PyError (List CashFlow)} {xs : List α}
    {fss fss' : List (List CashFlow)} (hfss : xs.mapM f = .ok fss) (hfss' : xs.mapM f' = .ok fss')
    (hle : ∀ x ∈ xs, ∀ fs fs', f x = .ok fs → f' x = .ok fs' →
      flowedThrough CashFlow.signedMinor fs asOf n ≤ flowedThrough CashFlow.signedMinor fs' asOf n) :
    flowedThrough CashFlow.signedMinor fss.flatten asOf n ≤
      flowedThrough CashFlow.signedMinor fss'.flatten asOf n := by
  rw [mapM_eq_ok] at hfss hfss'
  induction hfss generalizing fss' with
  | nil =>
    cases hfss'
    exact le_rfl
  | cons hx _ ih =>
    cases hfss' with
    | cons hx' hrest =>
      rw [forall_mem_cons] at hle
      rw [flatten_cons, flatten_cons, flowedThrough_append, flowedThrough_append]
      exact add_le_add (hle.1 _ _ hx hx') (ih hrest hle.2)

end

/-! Scaling. -/

theorem exists_scaleBy (m : Money) (num den : Int) (hnum : 0 ≤ num) (hden : 0 < den)
    (hle : num ≤ den) : ∃ q, m.scaleBy num den = .ok ⟨q, m.currency⟩ ∧
      (0 ≤ m.minorUnits → 0 ≤ q ∧ q ≤ m.minorUnits) := by
  have hden' : (0 : ℚ) < den := by exact_mod_cast hden
  obtain ⟨q, hq, -⟩ := Money.scaleBy_halfEven m num hden.ne'
  refine ⟨q, hq, fun hm => ?_⟩
  have hbet := Money.scaleBy_between hden.ne' (div_nonneg (by exact_mod_cast hnum) hden'.le)
    ((div_le_one hden').mpr (by exact_mod_cast hle)) hq
  rwa [min_eq_left hm, max_eq_right hm] at hbet

/-! The parts of a resolution. -/

section
variable {inputs : ForecastInputs} {config : ForecastConfig} {assumptions : ScenarioAssumptions}

theorem resolve_eq_ok {flows : List CashFlow} : resolve inputs config assumptions = .ok flows ↔
      ∃ horizonEnd receipts pipeline commitments,
        inputs.opening.asOf.addDays (config.horizonWeeks * 7 - 1) = .ok horizonEnd ∧
        inputs.invoices.mapM (receiptFlows inputs.opening.asOf horizonEnd inputs config assumptions) =
          .ok receipts ∧
        pipelineReceipts inputs.opening.asOf horizonEnd inputs assumptions = .ok pipeline ∧
        commitmentFlows inputs.opening.asOf horizonEnd inputs = .ok commitments ∧
        flows = numbered (receipts.flatten ++ pipeline.flatten ++ commitments) := by
  unfold resolve
  simp only [bind_eq_ok, exists_and_left]
  refine exists_congr fun horizonEnd => and_congr_right fun _ => exists_congr fun receipts =>
    and_congr_right fun _ => exists_congr fun pipeline => and_congr_right fun _ =>
    exists_congr fun commitments => and_congr_right fun _ => ?_
  exact ⟨fun h => (Except.ok.inj h).symm, fun h => congrArg _ h.symm⟩

variable {asOf horizonEnd : Date} {n : Int} {inv : Invoice} {fs : List CashFlow}

theorem ordinal_clamp (asOf d : Date) : (clamp asOf d).ordinal = max asOf.ordinal d.ordinal := by
  unfold clamp
  split_ifs with h
  · exact (max_eq_right (Date.le_def.mp h)).symm
  · exact (max_eq_left (Date.lt_def.mp (not_le.mp h)).le).symm

theorem flowedThrough_receipt
    (hfs : receiptFlows asOf horizonEnd inputs config assumptions inv = .ok fs)
    (hto : n ≤ horizonEnd.ordinal) (hstatus : inv.status ≠ .disputed) :
    ∃ p, payDate asOf inputs config assumptions inv = .ok p ∧
      ∀ amount reserve, receivable asOf assumptions inv = .ok amount →
        refundReserve assumptions amount = .ok reserve →
        (amount.minorUnits = 0 → reserve = none) →
        flowedThrough CashFlow.signedMinor fs asOf n = if p.ordinal ≤ n then
          amount.minorUnits - (reserve.map Money.minorUnits).getD 0 else 0 := by
  unfold receiptFlows at hfs
  rw [if_neg hstatus, bind_eq_ok] at hfs
  obtain ⟨p, hp, hfs⟩ := hfs
  refine ⟨p, hp, fun amount reserve hamt hres hnone => ?_⟩
  by_cases hwnd : inWindow asOf horizonEnd p = true
  · have hstart := Date.le_def.mp (of_decide_eq_true hwnd).1
    rw [hwnd, Bool.not_true, if_neg Bool.false_ne_true, hamt] at hfs
    rcases eq_or_ne amount.minorUnits 0 with hzero | hzero
    · replace hfs : (.ok [] : Except PyError (List CashFlow)) = .ok fs := by
        rw [← hfs]
        exact (if_pos hzero).symm
      rw [← Except.ok.inj hfs, hzero, hnone hzero]
      exact (ite_self _).symm
    · replace hfs : (.ok (⟨0, p, .inflow, amount, .customerReceipt, .predicted, some inv.id⟩ ::
          reserve.toList.map fun r => ⟨0, p, .outflow, r, .refundChargeback, .scenario, some inv.id⟩) :
            Except PyError (List CashFlow)) = .ok fs := by
        rw [← hfs]
        refine ((if_neg hzero).trans ?_).symm
        rw [hres]
        rfl
      rw [← Except.ok.inj hfs, flowedThrough_eq_sum]
      have hboth : ∀ {q : Prop} [Decidable q] {a b : Int}, (if asOf ≤ p ∧ q then a else b) =
          if q then a else b := by
        intro q _ a b
        have hp : asOf ≤ p := hstart
        simp only [hp, true_and]
      cases reserve with
      | none =>
        simp only [counted, map_cons, sum_cons, Option.toList_none, map_nil,
          sum_nil, hboth, CashFlow.signedMinor, Option.map_none, Option.getD_none,
          Int.add_zero, Int.sub_zero]
      | some r =>
        simp only [counted, map_cons, sum_cons, Option.toList_some, map_nil,
          sum_nil, hboth, CashFlow.signedMinor, Option.map_some, Option.getD_some, Int.add_zero]
        split_ifs
        · rfl
        · rfl
  · rw [Bool.not_eq_true] at hwnd
    rw [hwnd] at hfs
    replace hfs : (.ok [] : Except PyError (List CashFlow)) = .ok fs := hfs
    have hafter : ¬ p.ordinal ≤ n := by
      intro hle
      have hstart : asOf ≤ p := by
        unfold payDate at hp
        split_ifs at hp
        · rw [← Except.ok.inj hp, Date.le_def, ordinal_clamp]
          exact le_max_left _ _
        · simp only [bind_eq_ok] at hp
          obtain ⟨_, -, d, -, hp⟩ := hp
          rw [← Except.ok.inj hp, Date.le_def, ordinal_clamp]
          exact le_max_left _ _
      refine of_decide_eq_false hwnd ⟨hstart, Date.le_def.mpr (hle.trans hto)⟩
    rw [← Except.ok.inj hfs, if_neg hafter]
    rfl

end

end Rgnr8.Forecast
