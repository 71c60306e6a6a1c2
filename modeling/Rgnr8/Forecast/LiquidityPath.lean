import Rgnr8.Forecast.ProjectionSpec

/-! The liquidity path of a projection is consistent: its weeks chain and add up to its totals, and
the trough, the breach and the recovery are those of the day-end balances. -/

namespace Rgnr8.Forecast
open Lib Lib.Py Fallible List

def InHorizon (asOf : Date) (weeks : Int) (d : Date) : Prop :=
  asOf ≤ d ∧ d.ordinal < asOf.ordinal + 7 * weeks

def belowFloor (floor opening : Int) (flows : List CashFlow) (asOf : Date) (weeks : Int) : Set Date :=
  {d | InHorizon asOf weeks d ∧ balanceOn opening flows asOf d < floor}

structure Consistent (opening restricted : Int) (flows : List CashFlow) (config : ForecastConfig)
    (asOf : Date) (p : Projection) : Prop where
  buckets : (p.weeks.map fun w => (w.index, w.start.ordinal, w.end_.ordinal)) =
    (List.range config.horizonWeeks.toNat).map fun (i : Nat) =>
      ((i : Int) + 1, asOf.ordinal + 7 * i, asOf.ordinal + 7 * i + 6)
  /-- Each week opens where the one before closed, the first at opening cash. -/
  chain : (p.weeks.map fun w => w.opening.minorUnits) =
    (opening :: p.weeks.map fun w => w.closing.minorUnits).dropLast
  closing : ∀ w ∈ p.weeks, w.closing.minorUnits = balanceOn opening flows asOf w.end_
  seqs : ∀ f ∈ flows, InHorizon asOf config.horizonWeeks f.onDate →
    ∃! w, w ∈ p.weeks ∧ f.seq ∈ w.flowSeqs
  inflows : p.totalInflows.minorUnits = (p.weeks.map fun w => w.inflows.minorUnits).sum
  outflows : p.totalOutflows.minorUnits = (p.weeks.map fun w => w.outflows.minorUnits).sum
  ending : p.endingBalance.minorUnits =
    opening + p.totalInflows.minorUnits - p.totalOutflows.minorUnits
  floor : p.effectiveFloor.minorUnits = config.minimumCash.minorUnits + restricted
  trough : IsLeast (insert opening
    {b | ∃ d, InHorizon asOf config.horizonWeeks d ∧ b = balanceOn opening flows asOf d})
    p.trough.balance.minorUnits
  breached : p.breach.breached = true ↔ (belowFloor p.effectiveFloor.minorUnits opening flows asOf
    config.horizonWeeks).Nonempty
  firstDate : ∀ d, p.breach.firstDate = some d ↔ IsLeast (belowFloor p.effectiveFloor.minorUnits
    opening flows asOf config.horizonWeeks) d
  weeksUntil : ∀ k, p.breach.weeksUntil = some k ↔ ∃ d, p.breach.firstDate = some d ∧
    ∃ w ∈ p.weeks, w.start ≤ d ∧ d ≤ w.end_ ∧ w.index = k
  /-- The largest gap of a day, nothing where no day is below the floor. -/
  worst : IsGreatest (insert 0 {g | ∃ d, InHorizon asOf config.horizonWeeks d ∧
    g = p.effectiveFloor.minorUnits - balanceOn opening flows asOf d})
    p.breach.worstShortfall.minorUnits
  recovery : ∀ d, p.breach.recoveryDate = some d ↔ InHorizon asOf config.horizonWeeks d ∧
    ∃ last, IsGreatest (belowFloor p.effectiveFloor.minorUnits opening flows asOf
      config.horizonWeeks) last ∧ d.ordinal = last.ordinal + 1

section
variable {asOf : Date} {flows : List CashFlow} {weeks : Nat} {opening floor : Int}

theorem inHorizon_iff (hfits : Fits asOf (7 * weeks)) {d : Date} :
    InHorizon asOf weeks d ↔ ∃ i < 7 * weeks, d = dayAt asOf i := by
  unfold InHorizon
  rw [Date.le_def]
  constructor
  · rintro ⟨hfrom, hto⟩
    have hi : (d.ordinal - asOf.ordinal).toNat < 7 * weeks := by omega
    refine ⟨(d.ordinal - asOf.ordinal).toNat, hi, Date.ext ?_⟩
    rw [ordinal_dayAt hfits hi]
    omega
  · rintro ⟨i, hi, rfl⟩
    rw [ordinal_dayAt hfits hi]
    omega

theorem sum_weekly (val : CashFlow → Int) (flows : List CashFlow) (asOf : Date) (weeks : Nat) :
    ((List.range weeks).map (weekly val flows asOf)).sum =
      flowedThrough val flows asOf (asOf.ordinal + (7 * weeks : Nat) - 1) := by
  induction weeks with
  | zero =>
    have hbef := flowedThrough_before val flows asOf
    rw [Nat.mul_zero, Nat.cast_zero, Int.add_zero, hbef]
    rfl
  | succ n ih =>
    rw [range_succ, map_append, sum_append, ih, map_singleton, sum_singleton,
      weekly, Nat.mul_succ]
    omega

theorem chain_openings (opening : Int) (flows : List CashFlow) (asOf : Date) (weeks : Nat) :
    (List.range weeks).map (openingAt opening flows asOf) =
      (opening :: (List.range weeks).map fun i => openingAt opening flows asOf (i + 1)).dropLast := by
  cases weeks with
  | zero => rfl
  | succ n =>
    have hlast : opening :: (range (n + 1)).map (fun i => openingAt opening flows asOf (i + 1)) =
        (opening :: (range n).map fun i => openingAt opening flows asOf (i + 1)) ++
          [openingAt opening flows asOf (n + 1)] := by
      rw [range_succ, map_append, map_singleton, cons_append]
    rw [hlast, dropLast_concat, range_succ_eq_map, map_cons, openingAt_zero,
      map_map]
    rfl

theorem mem_flowSeqs (hfits : Fits asOf (7 * weeks)) (hseqs : (flows.map CashFlow.seq).Nodup)
    (currency : String) {f : CashFlow} (hf : f ∈ flows) {i : Nat} (hi : i < weeks) :
    f.seq ∈ (lineAt currency opening flows asOf weeks i).flowSeqs ↔
      (bucketAt asOf i).contains f.onDate = true := by
  have hperm := (perm_insertionSort (· ≤ ·) (seqsByWeek
    ((range weeks).map (bucketAt asOf)) flows (i + 1))).mem_iff (a := f.seq)
  refine hperm.trans ?_
  unfold seqsByWeek
  simp only [mem_map, mem_filter, decide_eq_true_iff, find_bucket hfits hi]
  constructor
  · rintro ⟨g, ⟨hg, hcont⟩, hseq⟩
    rwa [← inj_on_of_nodup_map hseqs hg hf hseq]
  · intro hcont
    exact ⟨f, ⟨hf, hcont⟩, rfl⟩

theorem exists_week (hfits : Fits asOf (7 * weeks)) {d : Date} (hd : InHorizon asOf weeks d) :
    ∃ i < weeks, (bucketAt asOf i).contains d = true ∧ d.daysSince asOf / 7 = i := by
  obtain ⟨hfrom, hto⟩ := hd
  have hfrom := Date.le_def.mp hfrom
  unfold Date.daysSince
  have hi : ((d.ordinal - asOf.ordinal) / 7).toNat < weeks := by omega
  refine ⟨((d.ordinal - asOf.ordinal) / 7).toNat, hi, ?_, by omega⟩
  rw [contains_bucketAt hfits hi]
  omega

theorem mem_belowFloor (hfits : Fits asOf (7 * weeks)) {d : Date} :
    d ∈ belowFloor floor opening flows asOf weeks ↔
      ∃ i < 7 * weeks, d = dayAt asOf i ∧ levelAt opening flows asOf i < floor := by
  unfold belowFloor
  rw [Set.mem_ofPred_eq, inHorizon_iff hfits]
  constructor
  · rintro ⟨⟨i, hi, rfl⟩, hbelow⟩
    exact ⟨i, hi, rfl, hbelow⟩
  · rintro ⟨i, hi, rfl, hbelow⟩
    exact ⟨⟨i, hi, rfl⟩, hbelow⟩

theorem dayAt_le (hfits : Fits asOf (7 * weeks)) {i j : Nat} (hi : i < 7 * weeks)
    (hj : j < 7 * weeks) : dayAt asOf i ≤ dayAt asOf j ↔ i ≤ j := by
  rw [Date.le_def, ordinal_dayAt hfits hi, ordinal_dayAt hfits hj]
  omega

theorem isLeast_firstBelow (floor opening : Int) (flows : List CashFlow)
    (hfits : Fits asOf (7 * weeks)) {d : Date} :
    (watchOf floor opening flows asOf (7 * weeks)).firstBelow = some d ↔
      IsLeast (belowFloor floor opening flows asOf weeks) d := by
  rcases Watch.firstBelow_after floor (dayAt asOf) (levelAt opening flows asOf) opening asOf
    (7 * weeks) with ⟨hnone, hall⟩ | ⟨i, hi, hsome, hbelow, hbef⟩
  · unfold watchOf
    rw [hnone]
    refine iff_of_false (fun h => nomatch h) fun hleast => ?_
    obtain ⟨i, hi, -, hbelow⟩ := (mem_belowFloor hfits).mp hleast.1
    exact absurd (hall i hi) (not_le.mpr hbelow)
  · have hleast : IsLeast (belowFloor floor opening flows asOf weeks) (dayAt asOf i) := by
      refine ⟨(mem_belowFloor hfits).mpr ⟨i, hi, rfl, hbelow⟩, fun e he => ?_⟩
      obtain ⟨j, hj, rfl, hbel'⟩ := (mem_belowFloor hfits).mp he
      rw [dayAt_le hfits hi hj]
      by_contra hlt
      exact absurd (hbef j (not_le.mp hlt)) (not_le.mpr hbel')
    unfold watchOf
    rw [hsome, Option.some.injEq]
    constructor
    · rintro rfl
      exact hleast
    · exact fun h => hleast.unique h

theorem isGreatest_recovered (hfits : Fits asOf (7 * weeks)) {d : Date} :
    (watchOf floor opening flows asOf (7 * weeks)).recovered = some d ↔ InHorizon asOf weeks d ∧
      ∃ last, IsGreatest (belowFloor floor opening flows asOf weeks) last ∧
        d.ordinal = last.ordinal + 1 := by
  rcases Watch.recovered_after floor (dayAt asOf) (levelAt opening flows asOf) opening asOf
    (7 * weeks) with ⟨hnone, hall⟩ | ⟨i, hi, hbelow, hlater, hrec⟩
  · unfold watchOf
    rw [hnone]
    refine iff_of_false (fun h => nomatch h) ?_
    rintro ⟨-, last, hgreat, -⟩
    obtain ⟨i, hi, -, hbelow⟩ := (mem_belowFloor hfits).mp hgreat.1
    exact absurd (hall i hi) (not_le.mpr hbelow)
  · have hgreat : IsGreatest (belowFloor floor opening flows asOf weeks) (dayAt asOf i) := by
      refine ⟨(mem_belowFloor hfits).mpr ⟨i, hi, rfl, hbelow⟩, fun e he => ?_⟩
      obtain ⟨j, hj, rfl, hbel'⟩ := (mem_belowFloor hfits).mp he
      rw [dayAt_le hfits hj hi]
      by_contra hlt
      exact absurd (hlater j (not_le.mp hlt) hj) (not_le.mpr hbel')
    have hday := ordinal_dayAt hfits hi
    unfold watchOf
    rw [hrec]
    constructor
    · intro h
      split_ifs at h with hnext
      have hnex := ordinal_dayAt hfits hnext
      obtain rfl := Option.some.inj h
      refine ⟨(inHorizon_iff hfits).mpr ⟨i + 1, hnext, rfl⟩, _, hgreat, ?_⟩
      omega
    · rintro ⟨hd, last, hlast, hnext⟩
      obtain ⟨j, hj, rfl⟩ := (inHorizon_iff hfits).mp hd
      rw [hlast.unique hgreat, hday, ordinal_dayAt hfits hj] at hnext
      have hsame : j = i + 1 := by omega
      rw [← hsame, if_pos hj]

theorem isLeast_low (floor opening : Int) (flows : List CashFlow) (hfits : Fits asOf (7 * weeks)) :
    IsLeast (insert opening {b | ∃ d, InHorizon asOf weeks d ∧ b = balanceOn opening flows asOf d})
      (watchOf floor opening flows asOf (7 * weeks)).low := by
  obtain ⟨hopn, hall, hatt⟩ := Watch.low_after floor (dayAt asOf)
    (levelAt opening flows asOf) opening asOf (7 * weeks)
  constructor
  · rcases hatt with ⟨hlow, -⟩ | ⟨i, hi, hlow, -⟩
    · exact .inl hlow
    · exact .inr ⟨dayAt asOf i, (inHorizon_iff hfits).mpr ⟨i, hi, rfl⟩, hlow⟩
  · rintro b (rfl | ⟨d, hd, rfl⟩)
    · exact hopn
    · obtain ⟨i, hi, rfl⟩ := (inHorizon_iff hfits).mp hd
      exact hall i hi

theorem isGreatest_worst (hfits : Fits asOf (7 * weeks)) :
    IsGreatest (insert 0 {g | ∃ d, InHorizon asOf weeks d ∧
      g = floor - balanceOn opening flows asOf d})
        (watchOf floor opening flows asOf (7 * weeks)).worst := by
  obtain ⟨hnn, hall, hatt⟩ := Watch.worst_after floor (dayAt asOf)
    (levelAt opening flows asOf) opening asOf (7 * weeks)
  constructor
  · rcases hatt with hworst | ⟨i, hi, -, hworst⟩
    · exact .inl hworst
    · exact .inr ⟨dayAt asOf i, (inHorizon_iff hfits).mpr ⟨i, hi, rfl⟩, hworst⟩
  · rintro g (rfl | ⟨d, hd, rfl⟩)
    · exact hnn
    · obtain ⟨i, hi, rfl⟩ := (inHorizon_iff hfits).mp hd
      exact hall i hi

theorem firstBelow_isSome (hfits : Fits asOf (7 * weeks)) :
    (watchOf floor opening flows asOf (7 * weeks)).firstBelow.isSome = true ↔
      (belowFloor floor opening flows asOf weeks).Nonempty := by
  rcases Watch.firstBelow_after floor (dayAt asOf) (levelAt opening flows asOf) opening asOf
    (7 * weeks) with ⟨hnone, hall⟩ | ⟨i, hi, hsome, hbelow, -⟩
  · unfold watchOf
    rw [hnone]
    refine iff_of_false Bool.false_ne_true ?_
    rintro ⟨d, hd⟩
    obtain ⟨i, hi, -, hbelow⟩ := (mem_belowFloor hfits).mp hd
    exact absurd (hall i hi) (not_le.mpr hbelow)
  · unfold watchOf
    rw [hsome]
    exact iff_of_true rfl ⟨_, (mem_belowFloor hfits).mpr ⟨i, hi, rfl, hbelow⟩⟩

theorem weekOf_iff (hfits : Fits asOf (7 * weeks)) {currency : String} {d : Date}
    (hd : InHorizon asOf weeks d) (k : Int) : d.daysSince asOf / 7 + 1 = k ↔
      ∃ w ∈ (List.range weeks).map (lineAt currency opening flows asOf weeks),
        w.start ≤ d ∧ d ≤ w.end_ ∧ w.index = k := by
  obtain ⟨i, hi, hcont, hquot⟩ := exists_week hfits hd
  rw [hquot]
  constructor
  · rintro rfl
    have hbnds := of_decide_eq_true hcont
    exact ⟨_, mem_map_of_mem (mem_range.mpr hi), hbnds.1, hbnds.2, rfl⟩
  · rintro ⟨w, hw, hstart, hend, rfl⟩
    obtain ⟨j, hj, rfl⟩ := mem_map.mp hw
    have hj := mem_range.mp hj
    rw [eq_of_contains hfits hi hj hcont (decide_eq_true ⟨hstart, hend⟩)]
    rfl

theorem closing_lineAt (hfits : Fits asOf (7 * weeks)) {i : Nat} (hi : i < weeks) :
    openingAt opening flows asOf (i + 1) = balanceOn opening flows asOf (dayAt asOf (7 * i + 6)) := by
  unfold openingAt balanceOn
  rw [ordinal_dayAt hfits (by omega)]
  have hthru : asOf.ordinal + (7 * (i + 1) : Nat) - 1 = asOf.ordinal + (7 * i + 6 : Nat) := by omega
  rw [hthru]

theorem exists_unique_seq (hfits : Fits asOf (7 * weeks)) (hseqs : (flows.map CashFlow.seq).Nodup)
    {currency : String} {f : CashFlow} (hf : f ∈ flows) (hin : InHorizon asOf weeks f.onDate) :
    ∃! w, w ∈ (List.range weeks).map (lineAt currency opening flows asOf weeks) ∧
      f.seq ∈ w.flowSeqs := by
  obtain ⟨i, hi, hcont, -⟩ := exists_week hfits hin
  refine ⟨lineAt currency opening flows asOf weeks i, ⟨mem_map_of_mem (mem_range.mpr hi), ?_⟩, ?_⟩
  · exact (mem_flowSeqs hfits hseqs currency hf hi).mpr hcont
  · rintro w ⟨hw, hseq⟩
    obtain ⟨j, hj, rfl⟩ := mem_map.mp hw
    have hj := mem_range.mp hj
    rw [eq_of_contains hfits hj hi ((mem_flowSeqs hfits hseqs currency hf hj).mp hseq) hcont]

theorem consistent_projectionOf (hfits : Fits asOf (7 * weeks))
    (hseqs : (flows.map CashFlow.seq).Nodup) (opening restricted : Money)
    {config : ForecastConfig} (hweeks : config.horizonWeeks = weeks) {floor : Money}
    (hfloor : floor.minorUnits = config.minimumCash.minorUnits + restricted.minorUnits) :
    Consistent opening.minorUnits restricted.minorUnits flows config asOf
      (projectionOf opening restricted floor flows config.currency asOf weeks) := by
  have hcount : config.horizonWeeks.toNat = weeks := by omega
  have hfst := fun d => @isLeast_firstBelow asOf weeks floor.minorUnits
    opening.minorUnits flows hfits d
  rw [← hweeks] at hfst
  constructor
  case buckets =>
    rw [hcount]
    refine map_map.trans (map_congr_left fun i hi => ?_)
    have hi := mem_range.mp hi
    have hstart := ordinal_dayAt hfits (i := 7 * i) (by omega)
    have hend := ordinal_dayAt hfits (i := 7 * i + 6) (by omega)
    simp only [Function.comp_apply, lineAt, hstart, hend, Prod.mk.injEq, true_and]
    omega
  case chain =>
    have hchain := chain_openings opening.minorUnits flows asOf weeks
    simp only [projectionOf, map_map]
    exact hchain
  case closing =>
    intro w hw
    obtain ⟨i, hi, rfl⟩ := mem_map.mp hw
    exact closing_lineAt hfits (mem_range.mp hi)
  case seqs =>
    intro f hf hin
    rw [hweeks] at hin
    exact exists_unique_seq hfits hseqs hf hin
  case inflows =>
    have hsum := sum_weekly CashFlow.inMinor flows asOf weeks
    simp only [projectionOf, map_map]
    exact hsum.symm
  case outflows =>
    have hsum := sum_weekly CashFlow.outMinor flows asOf weeks
    simp only [projectionOf, map_map]
    exact hsum.symm
  case ending =>
    have hsgn := flowedThrough_signed flows asOf (asOf.ordinal + (7 * weeks : Nat) - 1)
    change openingAt opening.minorUnits flows asOf weeks = _
    unfold openingAt
    rw [hsgn]
    exact (Int.add_sub_assoc _ _ _).symm
  case floor => exact hfloor
  case trough =>
    rw [hweeks]
    exact isLeast_low _ _ _ hfits
  case breached =>
    rw [hweeks]
    exact firstBelow_isSome hfits
  case firstDate => exact hfst
  case weeksUntil =>
    intro k
    change Option.map _ _ = some k ↔ _
    rw [Option.map_eq_some_iff]
    refine exists_congr fun d => and_congr_right fun hd => ?_
    have hin := ((hfst d).mp hd).1.1
    rw [hweeks] at hin
    exact weekOf_iff hfits hin k
  case worst =>
    rw [hweeks]
    exact isGreatest_worst hfits
  case recovery =>
    intro d
    rw [hweeks]
    exact isGreatest_recovered hfits

end

/-- A projection whose last day is in the calendar is made, and is consistent. -/
theorem computeProjection_consistent (opening restricted : Money) (flows : List CashFlow)
    (config : ForecastConfig) (asOf : Date) (hweeks : 1 ≤ config.horizonWeeks)
    (hseqs : (flows.map CashFlow.seq).Nodup) (hamounts : ∀ f ∈ flows, 0 ≤ f.amount.minorUnits)
    (hcurrency : config.minimumCash.currency = restricted.currency)
    (hcalendar : asOf.ordinal + 7 * config.horizonWeeks - 1 ≤ maxOrdinal) :
    ∃ p, computeProjection opening restricted flows config asOf = .ok p ∧
      Consistent opening.minorUnits restricted.minorUnits flows config asOf p := by
  have hfits : Fits asOf (7 * config.horizonWeeks.toNat) := by
    unfold Fits
    omega
  have hfloor : config.minimumCash.plus restricted =
      .ok ⟨config.minimumCash.minorUnits + restricted.minorUnits, config.minimumCash.currency⟩ :=
    if_neg (not_not.mpr hcurrency)
  refine ⟨_, computeProjection_eq_ok hfits hweeks hfloor hamounts, ?_⟩
  exact consistent_projectionOf hfits hseqs opening restricted (by omega) rfl

theorem computeProjection_dip : let asOf : Date := ⟨739831, by decide⟩
    let flows : List CashFlow := [
      ⟨1, ⟨739836, by decide⟩, .outflow, ⟨1200000, "USD"⟩, .payrollNet, .planned, none⟩,
      ⟨2, ⟨739850, by decide⟩, .inflow, ⟨2000000, "USD"⟩, .customerReceipt, .recorded, none⟩]
    let config : ForecastConfig := ⟨"USD", 13, ⟨0, "USD"⟩, 5, 3⟩
    ∃ p, computeProjection ⟨1000000, "USD"⟩ ⟨0, "USD"⟩ flows config asOf = .ok p ∧
      Consistent 1000000 0 flows config asOf p :=
  computeProjection_consistent ⟨1000000, "USD"⟩ ⟨0, "USD"⟩ _ _ _ (by decide) (by decide) (by decide)
    rfl (by decide)

theorem computeProjection_at_the_last_day : let asOf : Date := ⟨maxOrdinal, by decide⟩
    let config : ForecastConfig := ⟨"USD", 1, ⟨0, "USD"⟩, 5, 3⟩
    asOf = ⟨3652059, by decide⟩ ∧
      ¬ ∃ p, computeProjection ⟨0, "USD"⟩ ⟨0, "USD"⟩ [] config asOf = .ok p := by
  have hrais : computeProjection ⟨0, "USD"⟩ ⟨0, "USD"⟩ [] ⟨"USD", 1, ⟨0, "USD"⟩, 5, 3⟩
      ⟨maxOrdinal, by decide⟩ = .error .overflow := by decide +kernel
  refine ⟨rfl, ?_⟩
  rintro ⟨p, hp⟩
  rw [hrais] at hp
  cases hp

end Rgnr8.Forecast
