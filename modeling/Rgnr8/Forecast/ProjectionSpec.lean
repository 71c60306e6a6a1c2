import Rgnr8.Forecast.Flow
import Rgnr8.Lib.Watermark
import Rgnr8.Lib.Doubles
import Mathlib.Order.Bounds.Basic

/-! What a projection consists of: its weeks one by one, and the walk over its days as the watch of a
level against a floor. -/

namespace Rgnr8.Forecast
open Lib Lib.Py Fallible CashFlow List
variable {asOf : Date} {flows : List CashFlow} {weeks : Nat}

/-! The weeks. -/

def bucketAt (asOf : Date) (i : Nat) : WeekBucket :=
  ⟨i + 1, dayAt asOf (7 * i), dayAt asOf (7 * i + 6)⟩

theorem weekBuckets_eq_ok (hfits : Fits asOf (7 * weeks)) :
    weekBuckets asOf weeks = .ok ((List.range weeks).map (bucketAt asOf)) := by
  refine mapM_eq_ok_map fun i hi => ?_
  have hi := mem_range.mp hi
  have hstart := addDays_eq_dayAt hfits (i := 7 * i) (by omega)
  have hend : (dayAt asOf (7 * i)).addDays 6 = .ok (dayAt asOf (7 * i + 6)) := by
    rw [Date.addDays_eq_ok, ordinal_dayAt hfits (by omega), ordinal_dayAt hfits (by omega)]
    omega
  unfold weekBucket bucketAt
  rw [bind_eq_ok]
  exact ⟨_, hstart, by rw [hend]; rfl⟩

variable {d : Date} {i : Nat}

theorem contains_bucketAt (hfits : Fits asOf (7 * weeks)) (hi : i < weeks) :
    (bucketAt asOf i).contains d = true ↔
      asOf.ordinal + 7 * i ≤ d.ordinal ∧ d.ordinal ≤ asOf.ordinal + 7 * i + 6 := by
  unfold WeekBucket.contains bucketAt
  rw [decide_eq_true_iff, Date.le_def, Date.le_def, ordinal_dayAt hfits (by omega),
    ordinal_dayAt hfits (by omega)]
  push_cast
  rw [Int.add_assoc]

theorem eq_of_contains (hfits : Fits asOf (7 * weeks)) {j : Nat} (hi : i < weeks) (hj : j < weeks)
    (hdi : (bucketAt asOf i).contains d = true) (hdj : (bucketAt asOf j).contains d = true) :
    i = j := by
  rw [contains_bucketAt hfits hi] at hdi
  rw [contains_bucketAt hfits hj] at hdj
  omega

theorem find_bucket (hfits : Fits asOf (7 * weeks)) (hi : i < weeks) :
    (((List.range weeks).map (bucketAt asOf)).find? fun w => w.contains d).map WeekBucket.index =
      some ((i : Int) + 1) ↔ (bucketAt asOf i).contains d = true := by
  cases hfind : ((range weeks).map (bucketAt asOf)).find? fun w => w.contains d with
  | none =>
    refine iff_of_false (fun h => nomatch h) fun h => ?_
    exact find?_eq_none.mp hfind _ (mem_map_of_mem (mem_range.mpr hi)) h
  | some w =>
    obtain ⟨j, hj, rfl⟩ := mem_map.mp (mem_of_find?_eq_some hfind)
    have hj := mem_range.mp hj
    have hcont := find?_some hfind
    rw [Option.map_some, Option.some.injEq]
    constructor
    · intro hidx
      have hsame : j = i := by
        have hidx : (j : Int) + 1 = i + 1 := hidx
        omega
      rwa [← hsame]
    · intro hd
      rw [eq_of_contains hfits hj hi hcont hd]
      rfl

/-! The confidence of a week can be told where no amount is negative. -/

theorem weighted_le {fs : List CashFlow} (h : ∀ f ∈ fs, 0 ≤ f.amount.minorUnits) :
    let total := (fs.map fun f => f.amount.minorUnits).sum
    let weighted := (fs.map fun f => f.amount.minorUnits * f.confidence.weight).sum
    0 ≤ weighted ∧ weighted ≤ 100 * total := by
  induction fs with
  | nil => exact ⟨le_rfl, le_rfl⟩
  | cons f fs ih =>
    rw [forall_mem_cons] at h
    obtain ⟨hlow, hhigh⟩ := ih h.2
    have hwt : 0 ≤ f.confidence.weight ∧ f.confidence.weight ≤ 100 := by
      cases f.confidence <;> decide
    have hfst : 0 ≤ f.amount.minorUnits * f.confidence.weight := mul_nonneg h.1 hwt.1
    have hfst' := mul_le_mul_of_nonneg_left hwt.2 h.1
    simp only [map_cons, sum_cons] at hlow hhigh ⊢
    constructor <;> linarith

theorem exists_confidenceOf {fs : List CashFlow} (h : ∀ f ∈ fs, 0 ≤ f.amount.minorUnits) :
    ∃ c, confidenceOf fs = .ok c := by
  obtain ⟨hlow, hhigh⟩ := weighted_le h
  have htot : 0 ≤ (fs.map fun f => f.amount.minorUnits).sum := by
    refine sum_nonneg fun n hn => ?_
    obtain ⟨f, hf, rfl⟩ := mem_map.mp hn
    exact h f hf
  unfold confidenceOf
  dsimp only at hlow hhigh ⊢
  generalize (fs.map fun f => f.amount.minorUnits).sum = total at hhigh htot ⊢
  generalize (fs.map fun f => f.amount.minorUnits * f.confidence.weight).sum = weighted at hlow hhigh ⊢
  split_ifs with hzero
  · exact ⟨100, rfl⟩
  · have hpos : (0 : Rat) < total := by exact_mod_cast lt_of_le_of_ne htot fun h => hzero h.symm
    have hnn : (0 : Rat) ≤ weighted / total := div_nonneg (by exact_mod_cast hlow) hpos.le
    have hle : (weighted : Rat) / total ≤ 100 := by
      rw [div_le_iff₀ hpos]
      exact_mod_cast hhigh
    obtain ⟨d, hd⟩ := Js.double_isSome hnn hle
    unfold trueDiv
    rw [if_neg hzero, hd]
    exact ⟨_, rfl⟩

/-! The lines of the weeks. -/

variable (opening : Int)

/-- The balance before a week. -/
def openingAt (flows : List CashFlow) (asOf : Date) (i : Nat) : Int :=
  opening + flowedThrough CashFlow.signedMinor flows asOf (asOf.ordinal + (7 * i : Nat) - 1)

def weekly (val : CashFlow → Int) (flows : List CashFlow) (asOf : Date) (i : Nat) : Int :=
  flowedThrough val flows asOf (asOf.ordinal + (7 * i + 7 : Nat) - 1) -
    flowedThrough val flows asOf (asOf.ordinal + (7 * i : Nat) - 1)

def lineAt (currency : String) (opening : Int) (flows : List CashFlow) (asOf : Date) (weeks i : Nat) :
    WeekLine where
  index := i + 1
  start := dayAt asOf (7 * i)
  end_ := dayAt asOf (7 * i + 6)
  opening := ⟨openingAt opening flows asOf i, currency⟩
  inflows := ⟨weekly CashFlow.inMinor flows asOf i, currency⟩
  outflows := ⟨weekly CashFlow.outMinor flows asOf i, currency⟩
  net := ⟨weekly CashFlow.signedMinor flows asOf i, currency⟩
  closing := ⟨openingAt opening flows asOf (i + 1), currency⟩
  confidence := ((confidenceOf (flows.filter fun f =>
    (bucketAt asOf i).contains f.onDate)).toOption).getD 100
  flowSeqs := (seqsByWeek ((List.range weeks).map (bucketAt asOf)) flows (i + 1)).insertionSort (· ≤ ·)

theorem weekly_signed (flows : List CashFlow) (asOf : Date) (i : Nat) :
    weekly CashFlow.signedMinor flows asOf i =
      weekly CashFlow.inMinor flows asOf i - weekly CashFlow.outMinor flows asOf i := by
  unfold weekly
  rw [flowedThrough_signed, flowedThrough_signed]
  omega

theorem openingAt_succ (flows : List CashFlow) (asOf : Date) (i : Nat) :
    openingAt opening flows asOf (i + 1) =
      openingAt opening flows asOf i + weekly CashFlow.signedMinor flows asOf i := by
  unfold openingAt weekly
  rw [Nat.mul_succ]
  omega

theorem openingAt_zero (flows : List CashFlow) (asOf : Date) :
    openingAt opening flows asOf 0 = opening := by
  have hbef := flowedThrough_before signedMinor flows asOf
  unfold openingAt
  rw [Nat.mul_zero, Nat.cast_zero, Int.add_zero, hbef, Int.add_zero]

structure Daily (asOf : Date) (flows : List CashFlow) (val : CashFlow → Int) (days : Nat)
    (m : OrderedMap Date Int) : Prop where
  at_ : ∀ i < days, m.at_ (dayAt asOf i) =
    flowedThrough val flows asOf (dayAt asOf i).ordinal -
      flowedThrough val flows asOf ((dayAt asOf i).ordinal - 1)
  total : m.total (fun _ v => v) =
    flowedThrough val flows asOf (asOf.ordinal + days - 1)

theorem Daily.sum {val : CashFlow → Int} {m : OrderedMap Date Int}
    (h : Daily asOf flows val (7 * weeks) m) (hfits : Fits asOf (7 * weeks)) (hi : i < weeks) :
    (((List.range 7).map fun k => dayAt asOf (7 * i + k)).map m.at_).sum =
      weekly val flows asOf i := by
  unfold weekly
  rw [← sum_days val flows hfits (s := 7 * i) (m := 7) (by omega), map_map]
  refine congrArg List.sum (List.map_congr_left fun k hk => ?_)
  have hk := mem_range.mp hk
  exact h.at_ (7 * i + k) (by omega)

section
variable (currency : String) (opening : Int) {dailyIn dailyOut : OrderedMap Date Int}

theorem weekLine_eq_ok (hfits : Fits asOf (7 * weeks)) (hamoun : ∀ f ∈ flows, 0 ≤ f.amount.minorUnits)
    (hin : Daily asOf flows CashFlow.inMinor (7 * weeks) dailyIn)
    (hout : Daily asOf flows CashFlow.outMinor (7 * weeks) dailyOut) {i : Nat} (hi : i < weeks) :
    weekLine currency ((List.range weeks).map (bucketAt asOf)) flows dailyIn dailyOut
      (openingAt opening flows asOf i) (bucketAt asOf i) =
        .ok (lineAt currency opening flows asOf weeks i) := by
  have hdays : ((range 7).mapM fun (k : Nat) => (bucketAt asOf i).start.addDays k) =
      .ok ((range 7).map fun k => dayAt asOf (7 * i + k)) := by
    refine mapM_eq_ok_map fun k hk => ?_
    have hk := mem_range.mp hk
    have hstart : (bucketAt asOf i).start.ordinal = asOf.ordinal + (7 * i : Nat) :=
      ordinal_dayAt hfits (by omega)
    rw [Date.addDays_eq_ok, ordinal_dayAt hfits (by omega), hstart]
    omega
  have hwin : ∀ f ∈ flows.filter fun f => (bucketAt asOf i).contains f.onDate,
      0 ≤ f.amount.minorUnits := fun f hf => hamoun f (mem_of_mem_filter hf)
  obtain ⟨c, hc⟩ := exists_confidenceOf hwin
  have hsumIn := hin.sum hfits hi
  have hsum := hout.sum hfits hi
  unfold weekLine lineAt
  rw [hdays, hc, openingAt_succ, weekly_signed, ← hsumIn, ← hsum]
  rfl

theorem weekLines_eq_ok (hfits : Fits asOf (7 * weeks))
    (hamoun : ∀ f ∈ flows, 0 ≤ f.amount.minorUnits)
    (hin : Daily asOf flows CashFlow.inMinor (7 * weeks) dailyIn)
    (hout : Daily asOf flows CashFlow.outMinor (7 * weeks) dailyOut) (m i : Nat) (hm : i + m ≤ weeks) :
    weekLines currency ((List.range weeks).map (bucketAt asOf)) flows dailyIn dailyOut
      ((List.range' i m).map (bucketAt asOf)) (openingAt opening flows asOf i) =
        .ok ((List.range' i m).map (lineAt currency opening flows asOf weeks),
          openingAt opening flows asOf (i + m)) := by
  induction m generalizing i with
  | zero => rfl
  | succ m ih =>
    have hline := weekLine_eq_ok currency opening hfits hamoun hin hout (i := i) (by omega)
    have hrest := ih (i + 1) (by omega)
    have hnext : i + 1 + m = i + (m + 1) := by omega
    rw [hnext] at hrest
    rw [range'_succ, map_cons, weekLines, bind_eq_ok]
    exact ⟨_, hline, bind_eq_ok.mpr ⟨_, hrest, rfl⟩⟩

end

/-! The walk over the days. -/

def DailyWalk.ofWatch (balance : Int) (v : Watch Date) : DailyWalk :=
  ⟨balance, v.low, v.lowAt, v.firstBelow, v.recovered, v.worst⟩

theorem max_eq_ite (a b : Int) : (if a < b then b else a) = max a b := by
  rcases lt_or_ge a b with h | h
  · rw [if_pos h, max_eq_right h.le]
  · rw [if_neg (not_lt.mpr h), max_eq_left h]

theorem walkDay_ofWatch (floor balance : Int) (dailyDelta : OrderedMap Date Int) (v : Watch Date)
    (day : Date) : walkDay floor dailyDelta (.ofWatch balance v) day =
      .ofWatch (balance + dailyDelta.at_ day)
        (v.see floor day (balance + dailyDelta.at_ day)) := by
  obtain ⟨low, lowAt, firstBelow, recovered, worst⟩ := v
  unfold walkDay DailyWalk.ofWatch Watch.see
  dsimp only
  generalize balance + dailyDelta.at_ day = level
  simp only [apply_ite DailyWalk.firstBreach, apply_ite DailyWalk.recovery,
    apply_ite DailyWalk.worstShortfall, apply_ite DailyWalk.troughVal,
    apply_ite DailyWalk.troughDate, apply_ite DailyWalk.balance, ite_self, max_eq_ite]
  by_cases hbelow : level < floor
  · simp only [if_pos hbelow]
    cases firstBelow <;> rfl
  · simp only [if_neg hbelow]
    by_cases hlower : level < low
    · cases firstBelow <;> cases recovered <;> simp [hlower]
    · cases firstBelow <;> cases recovered <;> simp [hlower]

def levelAt (opening : Int) (flows : List CashFlow) (asOf : Date) (i : Nat) : Int :=
  balanceOn opening flows asOf (dayAt asOf i)

theorem walk_eq {days : Nat} (hfits : Fits asOf days) (floor opening : Int)
    {dailyDelta : OrderedMap Date Int}
    (hdelta : Daily asOf flows CashFlow.signedMinor days dailyDelta) (n : Nat) (hn : n ≤ days) :
    ((List.range n).map (dayAt asOf)).foldl (walkDay floor dailyDelta)
        ⟨opening, opening, asOf, none, none, 0⟩ =
      .ofWatch (opening + flowedThrough CashFlow.signedMinor flows asOf (asOf.ordinal + n - 1))
        (Watch.after floor (dayAt asOf) (levelAt opening flows asOf) (Watch.start opening asOf) n) := by
  induction n with
  | zero =>
    have hbef := flowedThrough_before signedMinor flows asOf
    rw [Nat.cast_zero, Int.add_zero, hbef, Int.add_zero]
    rfl
  | succ n ih =>
    have hday := ordinal_dayAt hfits (i := n) (by omega)
    have hlvl : opening + flowedThrough signedMinor flows asOf (asOf.ordinal + n - 1) +
        dailyDelta.at_ (dayAt asOf n) = levelAt opening flows asOf n := by
      rw [hdelta.at_ n (by omega), levelAt, balanceOn, hday]
      omega
    have hthru : asOf.ordinal + ((n + 1 : Nat) : Int) - 1 = (dayAt asOf n).ordinal := by
      rw [hday]
      omega
    rw [range_succ, map_append, foldl_append, ih (by omega), map_singleton,
      foldl_cons, foldl_nil, walkDay_ofWatch, hlvl, hthru]
    rfl

/-! The whole. -/

def watchOf (floor opening : Int) (flows : List CashFlow) (asOf : Date) (days : Nat) : Watch Date :=
  Watch.after floor (dayAt asOf) (levelAt opening flows asOf) (Watch.start opening asOf) days

def projectionOf (opening restricted floor : Money) (flows : List CashFlow) (currency : String)
    (asOf : Date) (weeks : Nat) : Projection :=
  let watch := watchOf floor.minorUnits opening.minorUnits flows asOf (7 * weeks)
  { currency := currency
    asOf := asOf
    openingAvailable := opening
    restricted := restricted
    effectiveFloor := floor
    weeks := (List.range weeks).map (lineAt currency opening.minorUnits flows asOf weeks)
    totalInflows :=
      ⟨flowedThrough CashFlow.inMinor flows asOf (asOf.ordinal + (7 * weeks : Nat) - 1), currency⟩
    totalOutflows :=
      ⟨flowedThrough CashFlow.outMinor flows asOf (asOf.ordinal + (7 * weeks : Nat) - 1), currency⟩
    endingBalance := ⟨openingAt opening.minorUnits flows asOf weeks, currency⟩
    trough := ⟨watch.lowAt, ⟨watch.low, currency⟩⟩
    breach := {
      breached := watch.firstBelow.isSome
      floor := floor
      worstShortfall := ⟨watch.worst, currency⟩
      firstDate := watch.firstBelow
      weeksUntil := watch.firstBelow.map fun (d : Date) => d.daysSince asOf / 7 + 1
      recoveryDate := watch.recovered } }

theorem daily_direction {val : CashFlow → Int} {p : CashFlow → Bool} {horizonEnd : Date} {days : Nat}
    (hfits : Fits asOf days) (hend : horizonEnd.ordinal = asOf.ordinal + days - 1)
    (hzero : ∀ f, p f = false → val f = 0) (hval : ∀ f, p f = true → f.amount.minorUnits = val f) :
    Daily asOf flows val days (tally CashFlow.onDate (fun f => f.amount.minorUnits) .empty
      ((flows.filter fun f => asOf ≤ f.onDate ∧ f.onDate ≤ horizonEnd).filter p)) := by
  have hcongr : tally onDate (fun f => f.amount.minorUnits) .empty
      ((flows.filter fun f => asOf ≤ f.onDate ∧ f.onDate ≤ horizonEnd).filter p) =
        tally onDate val .empty
          ((flows.filter fun f => asOf ≤ f.onDate ∧ f.onDate ≤ horizonEnd).filter p) :=
    tally_congr .empty fun f hf => hval f (mem_filter.mp hf).2
  rw [hcongr]
  constructor
  · intro i hi
    have hto : dayAt asOf i ≤ horizonEnd := by
      rw [Date.le_def, hend, ordinal_dayAt hfits hi]
      omega
    rw [tally_filter_at hzero, at_daily val hto]
  · rw [tally_filter_total hzero, total_daily, hend]

theorem computeProjection_eq_ok {opening restricted floor : Money} {config : ForecastConfig}
    (hfits : Fits asOf (7 * config.horizonWeeks.toNat)) (hweeks : 1 ≤ config.horizonWeeks)
    (hfloor : config.minimumCash.plus restricted = .ok floor)
    (hamoun : ∀ f ∈ flows, 0 ≤ f.amount.minorUnits) :
    computeProjection opening restricted flows config asOf =
      .ok (projectionOf opening restricted floor flows config.currency asOf
        config.horizonWeeks.toNat) := by
  obtain ⟨n, hn⟩ : ∃ n : Nat, config.horizonWeeks.toNat = n + 1 :=
    ⟨config.horizonWeeks.toNat - 1, by omega⟩
  rw [hn] at hfits ⊢
  have hbuc : weekBuckets asOf config.horizonWeeks =
      .ok ((range (n + 1)).map (bucketAt asOf)) := by
    have hcast : config.horizonWeeks = ((n + 1 : Nat) : Int) := by omega
    rw [hcast]
    exact weekBuckets_eq_ok hfits
  have hlast : ((range (n + 1)).map (bucketAt asOf)).getLast? = some (bucketAt asOf n) := by
    rw [range_succ, map_append, map_singleton, getLast?_concat]
  have hend : (bucketAt asOf n).end_.ordinal = asOf.ordinal + (7 * (n + 1) : Nat) - 1 := by
    have hday : (bucketAt asOf n).end_.ordinal = asOf.ordinal + (7 * n + 6 : Nat) :=
      ordinal_dayAt hfits (by omega)
    omega
  have hdays : (range (config.horizonWeeks * 7).toNat).mapM (fun (i : Nat) => asOf.addDays i) =
      .ok ((range (7 * (n + 1))).map (dayAt asOf)) := by
    have hcount : (config.horizonWeeks * 7).toNat = 7 * (n + 1) := by omega
    rw [hcount]
    exact mapM_eq_ok_map fun i hi => addDays_eq_dayAt hfits (mem_range.mp hi)
  have hdelta : Daily asOf flows signedMinor (7 * (n + 1))
      (tally onDate signedMinor .empty
        (flows.filter fun f => asOf ≤ f.onDate ∧ f.onDate ≤ (bucketAt asOf n).end_)) := by
    constructor
    · intro i hi
      refine at_daily _ ?_
      rw [Date.le_def, hend, ordinal_dayAt hfits hi]
      omega
    · rw [total_daily, hend]
  have hin : Daily asOf flows inMinor (7 * (n + 1)) _ :=
    daily_direction (p := fun f => decide (f.direction = .inflow)) hfits hend
      (fun f hf => if_neg (of_decide_eq_false hf)) fun f hf => (if_pos (of_decide_eq_true hf)).symm
  have hout : Daily asOf flows outMinor (7 * (n + 1)) _ :=
    daily_direction (p := fun f => decide (f.direction ≠ .inflow)) hfits hend
      (fun f hf => if_pos (not_not.mp (of_decide_eq_false hf)))
      fun f hf => (if_neg (of_decide_eq_true hf)).symm
  have hlines := weekLines_eq_ok config.currency opening.minorUnits hfits hamoun hin hout (n + 1) 0
    (by omega)
  rw [openingAt_zero, ← range_eq_range', Nat.zero_add] at hlines
  have hwalk := walk_eq hfits floor.minorUnits opening.minorUnits hdelta (7 * (n + 1)) le_rfl
  unfold computeProjection
  dsimp only
  rw [hbuc]
  refine bind_eq_ok.mpr ⟨_, rfl, ?_⟩
  rw [hlast]
  refine bind_eq_ok.mpr ⟨_, rfl, ?_⟩
  refine bind_eq_ok.mpr ⟨_, hfloor, ?_⟩
  refine bind_eq_ok.mpr ⟨_, hdays, ?_⟩
  refine bind_eq_ok.mpr ⟨_, hlines, ?_⟩
  dsimp only
  rw [hwalk, hin.total, hout.total]
  rfl

end Rgnr8.Forecast
