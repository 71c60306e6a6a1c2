import Rgnr8.Lib.Python
import Rgnr8.Lib.OrderedMap
import Mathlib.Data.List.Sort
import Rgnr8.Lib.Fallible
import Mathlib.Algebra.BigOperators.Intervals
import Mathlib.Tactic.Linarith

/-! Money and the cash-flow record of the forecast engine. -/

namespace Rgnr8.Forecast
open Lib.Py List

structure Money where
  minorUnits : Int
  currency : String
  deriving DecidableEq

namespace Money

def zero (currency : String) : Money := ⟨0, currency⟩

def plus (a b : Money) : Except PyError Money :=
  if a.currency ≠ b.currency then .error (.currencyMismatch a.currency b.currency)
  else .ok ⟨a.minorUnits + b.minorUnits, a.currency⟩

def scaleBy (m : Money) (numerator denominator : Int) : Except PyError Money :=
  if denominator = 0 then .error .value
  else
    let num := if denominator < 0 then -(m.minorUnits * numerator) else m.minorUnits * numerator
    let den := |denominator|
    let q := num / den
    let twice := num % den * 2
    .ok ⟨if den < twice ∨ (twice = den ∧ q % 2 ≠ 0) then q + 1 else q, m.currency⟩

end Money

inductive Direction where
  | inflow | outflow
  deriving DecidableEq

inductive Confidence where
  | recorded | predicted | planned | scenario
  deriving DecidableEq

def Confidence.weight : Confidence → Int
  | recorded => 100
  | predicted => 70
  | planned => 55
  | scenario => 30

inductive Category where
  | customerReceipt | pipelineReceipt | otherInflow | vendorPayment | payrollNet | payrollTax
  | taxRemittance | debtService | rent | ownerDistribution | capitalExpenditure | refundChargeback
  | otherOutflow | transfer
  deriving DecidableEq

structure CashFlow where
  seq : Int
  onDate : Date
  direction : Direction
  amount : Money
  category : Category
  confidence : Confidence
  originId : Option String

namespace CashFlow

variable (f : CashFlow)

def signedMinor : Int :=
  match f.direction with
  | .inflow => f.amount.minorUnits
  | .outflow => -f.amount.minorUnits

def inMinor : Int := if f.direction = .inflow then f.amount.minorUnits else 0

def outMinor : Int := if f.direction = .inflow then 0 else f.amount.minorUnits

theorem signedMinor_eq : f.signedMinor = f.inMinor - f.outMinor := by
  unfold signedMinor inMinor outMinor
  cases f.direction with
  | inflow => exact (Int.sub_zero _).symm
  | outflow => exact (Int.zero_sub _).symm

end CashFlow

structure ForecastConfig where
  currency : String
  horizonWeeks : Int
  minimumCash : Money
  /-- The delay of a customer without a history to go by. -/
  defaultPaymentDelayDays : Int
  /-- How many observations a history needs to be gone by. -/
  minHistoryObservations : Int

/-! The projection: opening cash and dated flows, walked day by day and added up week by week. -/

open Lib

structure WeekBucket where
  index : Int
  start : Date
  /-- Inclusive. -/
  end_ : Date

def WeekBucket.contains (w : WeekBucket) (d : Date) : Bool := w.start ≤ d ∧ d ≤ w.end_

def weekBucket (asOf : Date) (i : Nat) : Except PyError WeekBucket := do
  let s ← asOf.addDays (7 * i)
  let e ← s.addDays 6
  return ⟨i + 1, s, e⟩

def weekBuckets (asOf : Date) (weeks : Int) : Except PyError (List WeekBucket) :=
  (List.range weeks.toNat).mapM (weekBucket asOf)

structure WeekLine where
  index : Int
  start : Date
  end_ : Date
  opening : Money
  inflows : Money
  outflows : Money
  net : Money
  closing : Money
  confidence : Int
  flowSeqs : List Int
  deriving DecidableEq

structure CashTrough where
  onDate : Date
  balance : Money
  deriving DecidableEq

structure Breach where
  breached : Bool
  floor : Money
  worstShortfall : Money
  firstDate : Option Date
  weeksUntil : Option Int
  recoveryDate : Option Date
  deriving DecidableEq

structure Projection where
  currency : String
  asOf : Date
  openingAvailable : Money
  restricted : Money
  effectiveFloor : Money
  weeks : List WeekLine
  totalInflows : Money
  totalOutflows : Money
  endingBalance : Money
  trough : CashTrough
  breach : Breach
  deriving DecidableEq

structure DailyWalk where
  balance : Int
  troughVal : Int
  troughDate : Date
  firstBreach : Option Date
  recovery : Option Date
  worstShortfall : Int

def walkDay (floor : Int) (dailyDelta : OrderedMap Date Int) (w : DailyWalk) (day : Date) :
    DailyWalk :=
  let balance := w.balance + dailyDelta.at_ day
  let w := { w with balance := balance }
  let w := if balance < w.troughVal then { w with troughVal := balance, troughDate := day } else w
  if balance < floor then
    let shortfall := floor - balance
    { w with
      firstBreach := if w.firstBreach = none then some day else w.firstBreach
      recovery := none
      worstShortfall := if w.worstShortfall < shortfall then shortfall else w.worstShortfall }
  else if w.firstBreach ≠ none ∧ w.recovery = none then { w with recovery := some day }
  else w

def confidenceOf (flows : List CashFlow) : Except PyError Int :=
  let totalWeight := (flows.map fun f => f.amount.minorUnits).sum
  let weighted := (flows.map fun f => f.amount.minorUnits * f.confidence.weight).sum
  if totalWeight = 0 then .ok 100 else (trueDiv weighted totalWeight).map round

def seqsByWeek (weeks : List WeekBucket) (flows : List CashFlow) (index : Int) : List Int :=
  (flows.filter fun f => (weeks.find? fun w => w.contains f.onDate).map WeekBucket.index =
    some index).map CashFlow.seq

section
variable (currency : String) (weeks : List WeekBucket) (flows : List CashFlow)
variable (dailyIn dailyOut : OrderedMap Date Int)

def weekLine (running : Int) (w : WeekBucket) : Except PyError WeekLine := do
  let days ← (List.range 7).mapM fun (k : Nat) => w.start.addDays k
  let weekIn := (days.map dailyIn.at_).sum
  let weekOut := (days.map dailyOut.at_).sum
  let confidence ← confidenceOf (flows.filter fun f => w.contains f.onDate)
  return {
    index := w.index
    start := w.start
    end_ := w.end_
    opening := ⟨running, currency⟩
    inflows := ⟨weekIn, currency⟩
    outflows := ⟨weekOut, currency⟩
    net := ⟨weekIn - weekOut, currency⟩
    closing := ⟨running + (weekIn - weekOut), currency⟩
    confidence := confidence
    flowSeqs := (seqsByWeek weeks flows w.index).insertionSort (· ≤ ·) }

def weekLines : List WeekBucket → Int → Except PyError (List WeekLine × Int)
  | [], running => return ([], running)
  | w :: rest, running => do
    let line ← weekLine currency weeks flows dailyIn dailyOut running w
    let (lines, ending) ← weekLines rest line.closing.minorUnits
    return (line :: lines, ending)

end

def computeProjection (openingAvailable restricted : Money) (flows : List CashFlow)
    (config : ForecastConfig) (asOf : Date) : Except PyError Projection := do
  let ccy := config.currency
  let weeks ← weekBuckets asOf config.horizonWeeks
  let horizonEnd ← match weeks.getLast? with
    | some w => .ok w.end_
    | none => .error .index
  let inHorizon := flows.filter fun f => asOf ≤ f.onDate ∧ f.onDate ≤ horizonEnd
  let dailyDelta := tally CashFlow.onDate CashFlow.signedMinor .empty inHorizon
  let dailyIn := tally CashFlow.onDate (fun f => f.amount.minorUnits) .empty
    (inHorizon.filter fun f => f.direction = .inflow)
  let dailyOut := tally CashFlow.onDate (fun f => f.amount.minorUnits) .empty
    (inHorizon.filter fun f => f.direction ≠ .inflow)
  let floor ← config.minimumCash.plus restricted
  let opening := openingAvailable.minorUnits
  let days ← (List.range (config.horizonWeeks * 7).toNat).mapM fun (i : Nat) => asOf.addDays i
  let walk := days.foldl (walkDay floor.minorUnits dailyDelta) ⟨opening, opening, asOf, none, none, 0⟩
  let (lines, running) ← weekLines ccy weeks flows dailyIn dailyOut weeks opening
  return {
    currency := ccy
    asOf := asOf
    openingAvailable := openingAvailable
    restricted := restricted
    effectiveFloor := floor
    weeks := lines
    totalInflows := ⟨dailyIn.total fun _ v => v, ccy⟩
    totalOutflows := ⟨dailyOut.total fun _ v => v, ccy⟩
    endingBalance := ⟨running, ccy⟩
    trough := ⟨walk.troughDate, ⟨walk.troughVal, ccy⟩⟩
    breach := {
      breached := walk.firstBreach.isSome
      floor := floor
      worstShortfall := ⟨walk.worstShortfall, ccy⟩
      firstDate := walk.firstBreach
      weeksUntil := walk.firstBreach.map fun (d : Date) => d.daysSince asOf / 7 + 1
      recoveryDate := walk.recovery } }

/-! What has flowed through a day, the days and weeks of a horizon that lies in the calendar, and the
sums the projection makes over them. -/

open Fallible
variable {flows : List CashFlow} {asOf : Date}

def flowedThrough (val : CashFlow → Int) (flows : List CashFlow) (asOf : Date) (n : Int) : Int :=
  ((flows.filter fun f => asOf ≤ f.onDate ∧ f.onDate.ordinal ≤ n).map val).sum

def balanceOn (opening : Int) (flows : List CashFlow) (asOf d : Date) : Int :=
  opening + flowedThrough CashFlow.signedMinor flows asOf d.ordinal

section
variable (val : CashFlow → Int)

theorem flowedThrough_before (flows : List CashFlow) (asOf : Date) :
    flowedThrough val flows asOf (asOf.ordinal - 1) = 0 := by
  have hnone : (flows.filter fun f =>
      asOf ≤ f.onDate ∧ f.onDate.ordinal ≤ asOf.ordinal - 1) = [] := by
    refine filter_eq_nil_iff.mpr fun f _ h => ?_
    obtain ⟨hle, hlt⟩ := of_decide_eq_true h
    have hle := Date.le_def.mp hle
    omega
  unfold flowedThrough
  rw [hnone]
  rfl

theorem flowedThrough_succ (flows : List CashFlow) (asOf : Date) (n : Int) :
    flowedThrough val flows asOf (n + 1) = flowedThrough val flows asOf n +
      ((flows.filter fun f => asOf ≤ f.onDate ∧ f.onDate.ordinal = n + 1).map val).sum := by
  unfold flowedThrough
  induction flows with
  | nil => rfl
  | cons f flows ih =>
    simp only [filter_cons]
    by_cases hfrom : asOf ≤ f.onDate
    · rcases lt_trichotomy f.onDate.ordinal (n + 1) with hlt | heq | hgt
      · have hle : f.onDate.ordinal ≤ n := by omega
        have hle' : f.onDate.ordinal ≤ n + 1 := hlt.le
        simp only [hfrom, hle, hle', hlt.ne, and_self, and_false, decide_true, decide_false, if_true,
          Bool.false_eq_true, if_false, map_cons, sum_cons, ih]
        omega
      · have hnot : ¬ f.onDate.ordinal ≤ n := by omega
        simp only [hfrom, heq, le_refl, and_self, decide_true, if_true, map_cons,
          sum_cons, ih]
        rw [if_neg (by simpa only [true_and, decide_eq_true_eq, heq] using hnot)]
        omega
      · have hnot : ¬ f.onDate.ordinal ≤ n := by omega
        have hnot' : ¬ f.onDate.ordinal ≤ n + 1 := by omega
        simp only [hfrom, hnot, hnot', hgt.ne', and_false, decide_false, Bool.false_eq_true,
          if_false, ih]
    · simp only [hfrom, false_and, decide_false, Bool.false_eq_true, if_false, ih]

theorem at_daily {horizonEnd d : Date} (hto : d ≤ horizonEnd) : (tally CashFlow.onDate val .empty
      (flows.filter fun f => asOf ≤ f.onDate ∧ f.onDate ≤ horizonEnd)).at_ d =
        flowedThrough val flows asOf d.ordinal - flowedThrough val flows asOf (d.ordinal - 1) := by
  have hsucc := flowedThrough_succ val flows asOf (d.ordinal - 1)
  rw [Int.sub_add_cancel] at hsucc
  rw [hsucc, at_tally, filter_filter]
  have hsame : ∀ f : CashFlow, (decide (f.onDate = d) &&
      decide (asOf ≤ f.onDate ∧ f.onDate ≤ horizonEnd)) =
        decide (asOf ≤ f.onDate ∧ f.onDate.ordinal = d.ordinal) := by
    intro f
    rw [← Bool.decide_and, decide_eq_decide, Date.ext_iff]
    exact ⟨fun h => ⟨h.2.1, h.1⟩, fun h => ⟨h.2, h.1, Date.le_def.mpr (h.2.trans_le hto)⟩⟩
  simp only [hsame]
  have hemp : (OrderedMap.empty : OrderedMap Date Int).at_ d = 0 := rfl
  rw [hemp]
  omega

theorem total_daily (horizonEnd : Date) : (tally CashFlow.onDate val .empty
      (flows.filter fun f => asOf ≤ f.onDate ∧ f.onDate ≤ horizonEnd)).total (fun _ v => v) =
        flowedThrough val flows asOf horizonEnd.ordinal := by
  rw [total_tally, OrderedMap.total_empty, Int.zero_add]
  rfl

theorem flowedThrough_signed (flows : List CashFlow) (asOf : Date) (n : Int) :
    flowedThrough CashFlow.signedMinor flows asOf n =
      flowedThrough CashFlow.inMinor flows asOf n - flowedThrough CashFlow.outMinor flows asOf n := by
  unfold flowedThrough
  generalize flows.filter _ = fs
  induction fs with
  | nil => rfl
  | cons f fs ih =>
    simp only [map_cons, sum_cons, ih, CashFlow.signedMinor_eq]
    omega

end

theorem tally_filter_at {val : CashFlow → Int} {p : CashFlow → Bool}
    (hval : ∀ f, p f = false → val f = 0) (fs : List CashFlow) (d : Date) :
    (tally CashFlow.onDate val .empty (fs.filter p)).at_ d =
      (tally CashFlow.onDate val .empty fs).at_ d := by
  rw [at_tally, at_tally]
  congr 1
  induction fs with
  | nil => rfl
  | cons f fs ih =>
    simp only [filter_cons]
    rcases hp : p f with - | -
    · simp only [Bool.false_eq_true, if_false, ih]
      split_ifs
      · rw [map_cons, sum_cons, hval f hp, Int.zero_add]
      · rfl
    · simp only [if_true, filter_cons]
      split_ifs
      · rw [map_cons, map_cons, sum_cons, sum_cons, ih]
      · exact ih

theorem tally_filter_total {val : CashFlow → Int} {p : CashFlow → Bool}
    (hval : ∀ f, p f = false → val f = 0) (fs : List CashFlow) :
    (tally CashFlow.onDate val .empty (fs.filter p)).total (fun _ v => v) =
      (tally CashFlow.onDate val .empty fs).total (fun _ v => v) := by
  rw [total_tally, total_tally]
  congr 1
  induction fs with
  | nil => rfl
  | cons f fs ih =>
    rw [filter_cons, map_cons, sum_cons]
    rcases hp : p f with - | -
    · rw [if_neg Bool.false_ne_true, ih, hval f hp, Int.zero_add]
    · rw [if_pos rfl, map_cons, sum_cons, ih]

theorem tally_congr {val val' : CashFlow → Int} {fs : List CashFlow} (m : OrderedMap Date Int)
    (h : ∀ f ∈ fs, val f = val' f) :
    tally CashFlow.onDate val m fs = tally CashFlow.onDate val' m fs := by
  induction fs generalizing m with
  | nil => rfl
  | cons f fs ih =>
    rw [forall_mem_cons] at h
    unfold tally at ih ⊢
    rw [foldl_cons, foldl_cons, h.1]
    exact ih _ h.2

/-! The days and weeks of a horizon. -/

def dayAt (asOf : Date) (i : Nat) : Date := ((asOf.addDays i).toOption).getD asOf

/-- The first so many days from a day are in the calendar. -/
def Fits (asOf : Date) (days : Nat) : Prop := asOf.ordinal + days ≤ maxOrdinal + 1

instance (asOf : Date) (days : Nat) : Decidable (Fits asOf days) := inferInstanceAs (Decidable (_ ≤ _))

variable {days : Nat}

theorem addDays_eq_dayAt (hfits : Fits asOf days) {i : Nat} (hi : i < days) :
    asOf.addDays i = .ok (dayAt asOf i) := by
  have hcal := asOf.inCalendar
  have hrange : 1 ≤ asOf.ordinal + i ∧ asOf.ordinal + i ≤ maxOrdinal := by
    unfold Fits at hfits
    omega
  have hok : asOf.addDays i = .ok ⟨asOf.ordinal + i, hrange⟩ := dif_pos hrange
  unfold dayAt
  rw [hok]
  rfl

theorem ordinal_dayAt (hfits : Fits asOf days) {i : Nat} (hi : i < days) :
    (dayAt asOf i).ordinal = asOf.ordinal + i :=
  Date.addDays_eq_ok.mp (addDays_eq_dayAt hfits hi)

theorem mapM_eq_ok_map {ε α β : Type} {f : α → Except ε β} {g : α → β} {as : List α}
    (h : ∀ a ∈ as, f a = .ok (g a)) : as.mapM f = .ok (as.map g) := by
  rw [mapM_eq_ok]
  induction as with
  | nil => exact .nil
  | cons a as ih =>
    rw [forall_mem_cons] at h
    exact .cons h.1 (ih h.2)

theorem sum_days (val : CashFlow → Int) (flows : List CashFlow) (hfits : Fits asOf days)
    {s m : Nat} (hm : s + m ≤ days) :
    ((List.range m).map fun k => flowedThrough val flows asOf (dayAt asOf (s + k)).ordinal -
        flowedThrough val flows asOf ((dayAt asOf (s + k)).ordinal - 1)).sum =
      flowedThrough val flows asOf (asOf.ordinal + (s + m : Nat) - 1) -
        flowedThrough val flows asOf (asOf.ordinal + s - 1) := by
  induction m with
  | zero => exact (Int.sub_self _).symm
  | succ m ih =>
    have hday := ordinal_dayAt hfits (i := s + m) (by omega)
    rw [range_succ, map_append, sum_append, ih (by omega), map_singleton,
      sum_singleton, hday]
    have hnext : asOf.ordinal + ((s + (m + 1) : Nat) : Int) - 1 = asOf.ordinal + (s + m : Nat) := by
      omega
    rw [hnext]
    omega

end Rgnr8.Forecast
