import Rgnr8.Forecast.Inputs

/-! The scenarios as an envelope: which receivables keep base between downside and upside. -/

namespace Rgnr8.Forecast
open Lib Lib.Py Fallible Date List Except

/-- No amount is negative, and chances are fractions. -/
structure NonNegative (inputs : ForecastInputs) : Prop where
  invoices : ∀ inv ∈ inputs.invoices, 0 ≤ inv.openAmount.minorUnits
  bills : ∀ b ∈ inputs.bills, 0 ≤ b.amount.minorUnits
  recurring : ∀ item ∈ inputs.recurring, 0 ≤ item.amount.minorUnits
  netPay : ∀ pr ∈ inputs.payroll, 0 ≤ pr.netPay.minorUnits
  payrollTaxes : ∀ pr ∈ inputs.payroll, 0 ≤ pr.payrollTaxes.minorUnits
  debt : ∀ inst ∈ inputs.debt, 0 ≤ inst.payment.minorUnits
  oneTime : ∀ ot ∈ inputs.oneTime, 0 ≤ ot.amount.minorUnits
  pipeline : ∀ opp ∈ inputs.pipeline, 0 ≤ opp.amount.minorUnits
  probability : ∀ opp ∈ inputs.pipeline, 0 ≤ opp.probabilityBps ∧ opp.probabilityBps ≤ 10000

structure Envelope (c : ScenarioComparison) : Prop where
  downsideClosing : List.Forall₂ (fun v w => v.closing.minorUnits ≤ w.closing.minorUnits)
    c.downside.weeks c.base.weeks
  upsideClosing : List.Forall₂ (fun v w => v.closing.minorUnits ≤ w.closing.minorUnits)
    c.base.weeks c.upside.weeks
  downsideTrough : c.downside.trough.balance.minorUnits ≤ c.base.trough.balance.minorUnits
  upsideTrough : c.base.trough.balance.minorUnits ≤ c.upside.trough.balance.minorUnits
  breached : c.base.breach.breached = true → c.downside.breach.breached = true
  firstDate : ∀ d, c.base.breach.firstDate = some d →
    ∃ e ≤ d, c.downside.breach.firstDate = some e

section
variable (inputs : ForecastInputs) (config : ForecastConfig)

def predictedBy (d : Date) (inv : Invoice) : Bool :=
  (predictDaysLate (inputs.historyFor inv.customerId) config).toOption.any fun days =>
    inv.dueDate.ordinal + days ≤ d.ordinal

def collectible (p : Invoice → Bool) : Int :=
  (inputs.invoices.map fun inv =>
    if inv.status ≠ .disputed ∧ p inv = true then inv.openAmount.minorUnits else 0).sum

def weightedMinor (opp : PipelineOpportunity) : Int :=
  ((opp.amount.scaleBy opp.probabilityBps 10000).toOption.map Money.minorUnits).getD 0

def pipelineBy (d : Date) : Int :=
  (inputs.pipeline.map fun opp => if opp.expectedDate ≤ d then weightedMinor opp else 0).sum

/-- No more is predicted to be paid by a day than falls due and comes out of the pipeline by it. -/
def CoveredOn (d : Date) : Prop :=
  collectible inputs (predictedBy inputs config d) ≤
    collectible inputs (fun inv => inv.dueDate ≤ d) + pipelineBy inputs d

def Covered : Prop := ∀ d, InHorizon inputs.opening.asOf config.horizonWeeks d →
  CoveredOn inputs config d

instance (d : Date) : Decidable (CoveredOn inputs config d) := inferInstanceAs (Decidable (_ ≤ _))

end

structure SameReceivables (a b : ForecastInputs) : Prop where
  asOf : b.opening.asOf = a.opening.asOf
  invoices : b.invoices = a.invoices
  customerHistories : b.customerHistories = a.customerHistories
  pipeline : b.pipeline = a.pipeline

/-! What one invoice adds in each scenario. -/

section
variable {inputs : ForecastInputs} {config : ForecastConfig} {asOf horizonEnd : Date} {inv : Invoice}
variable {fs : List CashFlow} {d : Date}

theorem receivable_base : receivable asOf baseAssumptions inv = .ok inv.openAmount := rfl

theorem receivable_upside : receivable asOf upsideAssumptions inv = .ok inv.openAmount := rfl

theorem payDate_base {p : Date} (hp : payDate asOf inputs config baseAssumptions inv = .ok p)
    (hd : asOf ≤ d) : p.ordinal ≤ d.ordinal ↔ predictedBy inputs config d inv = true := by
  have hd := le_def.mp hd
  unfold payDate at hp
  rw [if_neg (by exact Bool.false_ne_true)] at hp
  simp only [bind_eq_ok] at hp
  obtain ⟨days, hdays, due, hdue, hp⟩ := hp
  rw [addDays_eq_ok] at hdue
  have hzero : baseAssumptions.arExtraDelayDays = 0 := rfl
  rw [← ok.inj hp, ordinal_clamp, hdue, hzero, predictedBy, hdays]
  simp only [Except.toOption, Option.any_some, decide_eq_true_iff]
  omega

theorem payDate_upside {p : Date} (hp : payDate asOf inputs config upsideAssumptions inv = .ok p)
    (hd : asOf ≤ d) : p.ordinal ≤ d.ordinal ↔ inv.dueDate ≤ d := by
  have hd := le_def.mp hd
  unfold payDate at hp
  rw [if_pos (by rfl)] at hp
  rw [← ok.inj hp, ordinal_clamp, le_def]
  omega

theorem payDate_downside {p p' : Date} (hp : payDate asOf inputs config downsideAssumptions inv = .ok p)
    (hp' : payDate asOf inputs config baseAssumptions inv = .ok p') : p'.ordinal ≤ p.ordinal := by
  unfold payDate at hp hp'
  rw [if_neg (by exact Bool.false_ne_true)] at hp hp'
  simp only [bind_eq_ok] at hp hp'
  obtain ⟨days, hdays, due, hdue, hp⟩ := hp
  obtain ⟨days', hdays', due', hdue', hp'⟩ := hp'
  obtain rfl : days = days' := ok.inj (hdays.symm.trans hdays')
  rw [addDays_eq_ok] at hdue hdue'
  have hzero : baseAssumptions.arExtraDelayDays = 0 := rfl
  have hdelay : downsideAssumptions.arExtraDelayDays = 14 := rfl
  rw [← ok.inj hp, ← ok.inj hp', ordinal_clamp, ordinal_clamp, hdue, hdue', hzero, hdelay]
  omega

theorem receipt_in_full {assumptions : ScenarioAssumptions} {P : Prop} [Decidable P]
    (hfs : receiptFlows asOf horizonEnd inputs config assumptions inv = .ok fs)
    (hto : d ≤ horizonEnd) (hamt : receivable asOf assumptions inv = .ok inv.openAmount)
    (hres : refundReserve assumptions inv.openAmount = .ok none)
    (hdate : ∀ p, payDate asOf inputs config assumptions inv = .ok p →
      (p.ordinal ≤ d.ordinal ↔ P)) :
    flowedThrough CashFlow.signedMinor fs asOf d.ordinal =
      if inv.status ≠ .disputed ∧ P then inv.openAmount.minorUnits else 0 := by
  by_cases hstatus : inv.status = .disputed
  · unfold receiptFlows at hfs
    rw [if_pos hstatus] at hfs
    rw [← ok.inj hfs, if_neg fun h => h.1 hstatus]
    rfl
  · obtain ⟨p, hp, hflow⟩ := flowedThrough_receipt hfs (le_def.mp hto) hstatus
    rw [hflow _ none hamt hres fun _ => rfl]
    simp only [hdate p hp, ne_eq, hstatus, not_false_eq_true, true_and, Option.map_none,
      Option.getD_none, Int.sub_zero]

theorem receipt_base (hfs : receiptFlows asOf horizonEnd inputs config baseAssumptions inv = .ok fs)
    (hd : asOf ≤ d) (hto : d ≤ horizonEnd) :
    flowedThrough CashFlow.signedMinor fs asOf d.ordinal =
      if inv.status ≠ .disputed ∧ predictedBy inputs config d inv = true then
        inv.openAmount.minorUnits else 0 :=
  receipt_in_full hfs hto receivable_base rfl fun _ hp => payDate_base hp hd

theorem receipt_upside (hfs : receiptFlows asOf horizonEnd inputs config upsideAssumptions inv = .ok fs)
    (hd : asOf ≤ d) (hto : d ≤ horizonEnd) :
    flowedThrough CashFlow.signedMinor fs asOf d.ordinal =
      if inv.status ≠ .disputed ∧ decide (inv.dueDate ≤ d) = true then
        inv.openAmount.minorUnits else 0 :=
  receipt_in_full hfs hto receivable_upside rfl fun _ hp =>
    (payDate_upside hp hd).trans decide_eq_true_iff.symm

theorem exists_receivable_downside (asOf : Date) (inv : Invoice) :
    ∃ amount reserve, receivable asOf downsideAssumptions inv = .ok amount ∧
      refundReserve downsideAssumptions amount = .ok reserve ∧
      (amount.minorUnits = 0 → reserve = none) ∧
      (0 ≤ inv.openAmount.minorUnits →
        0 ≤ amount.minorUnits - (reserve.map Money.minorUnits).getD 0 ∧
          amount.minorUnits - (reserve.map Money.minorUnits).getD 0 ≤ inv.openAmount.minorUnits ∧
          0 ≤ amount.minorUnits ∧ ∀ r ∈ reserve, 0 ≤ r.minorUnits) := by
  have hkept : ∃ amount, receivable asOf downsideAssumptions inv = .ok amount ∧
      (0 ≤ inv.openAmount.minorUnits →
        0 ≤ amount.minorUnits ∧ amount.minorUnits ≤ inv.openAmount.minorUnits) := by
    unfold receivable
    split_ifs
    · obtain ⟨q, hq, hbnds⟩ := exists_scaleBy inv.openAmount (10000 - 2500) 10000
        (by decide) (by decide) (by decide)
      exact ⟨_, hq, hbnds⟩
    · exact ⟨_, rfl, fun h => ⟨h, le_rfl⟩⟩
  obtain ⟨amount, hamt, hbnds⟩ := hkept
  obtain ⟨r, hr, hreser⟩ := exists_scaleBy amount 150 10000 (by decide) (by decide)
    (by decide)
  refine ⟨amount, if 0 < r then some ⟨r, amount.currency⟩ else none, hamt, ?_, ?_, ?_⟩
  · unfold refundReserve
    rw [if_pos (by decide)]
    exact bind_eq_ok.mpr ⟨_, hr, rfl⟩
  · intro hzero
    have hnot := (hreser hzero.symm.le).2
    exact if_neg (by omega)
  · intro hopen
    obtain ⟨hlow, hhigh⟩ := hbnds hopen
    obtain ⟨hr0, hrle⟩ := hreser hlow
    split_ifs with hpos
    · refine ⟨sub_nonneg.mpr hrle, ?_, hlow, ?_⟩
      · exact (sub_le_self _ hr0).trans hhigh
      · rintro r' hr'
        rw [← Option.some.inj hr']
        exact hr0
    · exact ⟨by rwa [Option.map_none, Option.getD_none, Int.sub_zero],
        by rwa [Option.map_none, Option.getD_none, Int.sub_zero], hlow,
        fun r hr => absurd hr (Option.not_mem_none r)⟩

theorem receipt_downside {fs' : List CashFlow} (hopen : 0 ≤ inv.openAmount.minorUnits)
    (hfs : receiptFlows asOf horizonEnd inputs config downsideAssumptions inv = .ok fs)
    (hfs' : receiptFlows asOf horizonEnd inputs config baseAssumptions inv = .ok fs')
    (hto : d ≤ horizonEnd) :
    flowedThrough CashFlow.signedMinor fs asOf d.ordinal ≤
      flowedThrough CashFlow.signedMinor fs' asOf d.ordinal := by
  by_cases hstatus : inv.status = .disputed
  · unfold receiptFlows at hfs hfs'
    rw [if_pos hstatus] at hfs hfs'
    rw [← ok.inj hfs, ← ok.inj hfs']
  · obtain ⟨p, hp, hflow⟩ := flowedThrough_receipt hfs (le_def.mp hto) hstatus
    obtain ⟨p', hp', hflow'⟩ := flowedThrough_receipt hfs' (le_def.mp hto) hstatus
    obtain ⟨amount, reserve, hamt, hres, hnone, hbnds⟩ :=
      exists_receivable_downside asOf inv
    have hlater := payDate_downside hp hp'
    obtain ⟨hlow, hhigh, -, -⟩ := hbnds hopen
    rw [hflow _ _ hamt hres hnone, hflow' _ none receivable_base rfl fun _ => rfl,
      Option.map_none, Option.getD_none, Int.sub_zero]
    split_ifs <;> omega

theorem pipeline_through {opp : PipelineOpportunity} (hfs : pipelineFlows asOf horizonEnd opp = .ok fs)
    (hd : asOf ≤ d) (hto : d ≤ horizonEnd) :
    flowedThrough CashFlow.signedMinor fs asOf d.ordinal =
      if opp.expectedDate ≤ d then weightedMinor opp else 0 := by
  have hd := le_def.mp hd
  have hto := le_def.mp hto
  have hday := ordinal_clamp asOf opp.expectedDate
  have hstart : asOf ≤ clamp asOf opp.expectedDate := by
    rw [le_def, hday]
    exact le_max_left _ _
  have hby : (clamp asOf opp.expectedDate).ordinal ≤ d.ordinal ↔ opp.expectedDate ≤ d := by
    rw [hday, le_def]
    omega
  unfold pipelineFlows at hfs
  dsimp only at hfs
  by_cases hwnd : inWindow asOf horizonEnd (clamp asOf opp.expectedDate) = true
  · rw [hwnd, Bool.not_true, if_neg Bool.false_ne_true, bind_eq_ok] at hfs
    obtain ⟨weighted, hweig, hfs⟩ := hfs
    have hmin : weightedMinor opp = weighted.minorUnits := by
      unfold weightedMinor
      rw [hweig]
      rfl
    rw [hmin, ← ok.inj hfs, flowedThrough_eq_sum]
    split_ifs with hzero hexp hexp
    · exact hzero.symm
    · rfl
    · simp only [map_singleton, sum_singleton, counted, hstart, hby, hexp, and_self,
        if_true, CashFlow.signedMinor]
    · simp only [map_singleton, sum_singleton, counted, hby, hexp, and_false, if_false]
  · have hafter : ¬ opp.expectedDate ≤ d := by
      rw [← hby]
      exact fun hle => hwnd (decide_eq_true ⟨hstart, le_def.mpr (hle.trans hto)⟩)
    rw [Bool.not_eq_true] at hwnd
    rw [hwnd] at hfs
    replace hfs : (.ok [] : Except PyError (List CashFlow)) = .ok fs := hfs
    rw [← ok.inj hfs, if_neg hafter]
    rfl

end

/-! A run. -/

section
variable {inputs : ForecastInputs} {config : ForecastConfig} {assumptions : ScenarioAssumptions}

def Positive (flows : List CashFlow) : Prop := ∀ f ∈ flows, 0 ≤ f.amount.minorUnits

theorem Positive.nil : Positive [] := fun _ hf => absurd hf not_mem_nil

theorem Positive.flatten {α : Type} {f : α → Except PyError (List CashFlow)} {xs : List α}
    {fss : List (List CashFlow)} (hfss : xs.mapM f = .ok fss)
    (hf : ∀ x ∈ xs, ∀ fs, f x = .ok fs → Positive fs) : Positive fss.flatten := by
  rw [mapM_eq_ok] at hfss
  induction hfss with
  | nil => exact .nil
  | cons hx _ ih =>
    rw [forall_mem_cons] at hf
    rw [flatten_cons]
    intro g hg
    rcases mem_append.mp hg with hg | hg
    · exact hf.1 _ hx g hg
    · exact ih hf.2 g hg

theorem Positive.of_map {dates : List Date} {mk : Date → CashFlow} {amount : Money}
    (hmk : ∀ d, (mk d).amount = amount) (h : 0 ≤ amount.minorUnits) : Positive (dates.map mk) := by
  intro f hf
  obtain ⟨d, -, rfl⟩ := mem_map.mp hf
  rw [hmk]
  exact h

variable {asOf horizonEnd : Date} {flows fs : List CashFlow}

theorem positive_receipts {inv : Invoice} (hass : assumptions = baseAssumptions ∨
      assumptions = downsideAssumptions ∨ assumptions = upsideAssumptions)
    (hopen : 0 ≤ inv.openAmount.minorUnits)
    (hfs : receiptFlows asOf horizonEnd inputs config assumptions inv = .ok fs) : Positive fs := by
  have hparts : ∃ amount reserve, receivable asOf assumptions inv = .ok amount ∧
      refundReserve assumptions amount = .ok reserve ∧ 0 ≤ amount.minorUnits ∧
      ∀ r ∈ reserve, 0 ≤ r.minorUnits := by
    rcases hass with rfl | rfl | rfl
    · exact ⟨_, none, receivable_base, rfl, hopen, fun r hr => absurd hr (Option.not_mem_none r)⟩
    · obtain ⟨amount, reserve, hamt, hres, -, hbnds⟩ := exists_receivable_downside asOf inv
      exact ⟨amount, reserve, hamt, hres, (hbnds hopen).2.2⟩
    · exact ⟨_, none, receivable_upside, rfl, hopen, fun r hr => absurd hr (Option.not_mem_none r)⟩
  obtain ⟨amount, reserve, hamt, hres, hlow, hlow'⟩ := hparts
  unfold receiptFlows at hfs
  split_ifs at hfs
  · rw [← ok.inj hfs]
    exact .nil
  · rw [bind_eq_ok] at hfs
    obtain ⟨p, -, hfs⟩ := hfs
    split_ifs at hfs
    · rw [← ok.inj hfs]
      exact .nil
    · rw [hamt] at hfs
      simp only [bind_eq_ok] at hfs
      obtain ⟨_, hsame, hfs⟩ := hfs
      obtain rfl := ok.inj hsame
      split_ifs at hfs
      · rw [← ok.inj hfs]
        exact .nil
      · rw [hres] at hfs
        rw [← ok.inj hfs]
        intro f hf
        rcases mem_cons.mp hf with rfl | hf
        · exact hlow
        · obtain ⟨r, hr, rfl⟩ := mem_map.mp hf
          exact hlow' r (Option.mem_toList.mp hr)

theorem positive_pipeline {opp : PipelineOpportunity} (hamt : 0 ≤ opp.amount.minorUnits)
    (hchan : 0 ≤ opp.probabilityBps ∧ opp.probabilityBps ≤ 10000)
    (hfs : pipelineFlows asOf horizonEnd opp = .ok fs) : Positive fs := by
  obtain ⟨q, hq, hbnds⟩ := exists_scaleBy opp.amount _ _ hchan.1 (by decide) hchan.2
  unfold pipelineFlows at hfs
  rw [hq] at hfs
  dsimp only at hfs
  split_ifs at hfs
  · rw [← ok.inj hfs]
    exact .nil
  · rw [← ok.inj hfs]
    dsimp only
    split_ifs
    · exact .nil
    · rw [Positive, forall_mem_singleton]
      exact (hbnds hamt).1

theorem positive_payday {payday : Date} {pr : PayrollSchedule} (hnet : 0 ≤ pr.netPay.minorUnits)
    (htaxes : 0 ≤ pr.payrollTaxes.minorUnits)
    (hfs : paydayFlows asOf horizonEnd pr payday = .ok fs) : Positive fs := by
  unfold paydayFlows at hfs
  dsimp only at hfs
  split_ifs at hfs
  · rw [bind_eq_ok] at hfs
    obtain ⟨remit, -, hfs⟩ := hfs
    rw [← ok.inj hfs]
    split_ifs
    · rw [Positive, forall_mem_cons, forall_mem_singleton]
      exact ⟨hnet, htaxes⟩
    · rw [Positive, forall_mem_singleton]
      exact hnet
  · rw [← ok.inj hfs, Positive, forall_mem_singleton]
    exact hnet

theorem positive_commitments (h : NonNegative inputs)
    (hfs : commitmentFlows asOf horizonEnd inputs = .ok fs) : Positive fs := by
  unfold commitmentFlows at hfs
  simp only [bind_eq_ok] at hfs
  obtain ⟨recurring, hrec, payroll, hpayr, debt, hdebt, hfs⟩ := hfs
  have hrec : Positive recurring.flatten := by
    refine .flatten hrec fun item hitem fs hfs => ?_
    unfold recurringFlows at hfs
    split_ifs at hfs
    · rw [← ok.inj hfs]
      exact .nil
    · rw [bind_eq_ok] at hfs
      obtain ⟨dates, -, hfs⟩ := hfs
      rw [← ok.inj hfs]
      exact .of_map (fun _ => rfl) (h.recurring item hitem)
  have hpayr : Positive payroll.flatten := by
    refine .flatten hpayr fun pr hpr fs hfs => ?_
    unfold payrollFlows at hfs
    simp only [bind_eq_ok] at hfs
    obtain ⟨paydays, -, fss, hfss, hfs⟩ := hfs
    rw [← ok.inj hfs]
    exact .flatten hfss fun _ _ _ => positive_payday (h.netPay pr hpr) (h.payrollTaxes pr hpr)
  have hdebt : Positive debt.flatten := by
    refine .flatten hdebt fun inst hinst fs hfs => ?_
    unfold debtFlows at hfs
    rw [bind_eq_ok] at hfs
    obtain ⟨dates, -, hfs⟩ := hfs
    rw [← ok.inj hfs]
    exact .of_map (fun _ => rfl) (h.debt inst hinst)
  rw [← ok.inj hfs]
  intro f hf
  simp only [mem_append, mem_flatten, mem_map] at hf
  rcases hf with (((⟨_, ⟨b, hb, rfl⟩, hf⟩ | hf) | hf) | hf) | ⟨_, ⟨ot, hot, rfl⟩, hf⟩
  · unfold billFlows at hf
    dsimp only at hf
    split_ifs at hf
    · cases hf
    · rw [mem_singleton.mp hf]
      exact h.bills b hb
  · exact hrec f (mem_flatten.mpr hf)
  · exact hpayr f (mem_flatten.mpr hf)
  · exact hdebt f (mem_flatten.mpr hf)
  · unfold oneTimeFlows at hf
    split_ifs at hf
    · cases hf
    · cases hf
    · rw [mem_singleton.mp hf]
      exact h.oneTime ot hot

theorem positive_resolved (h : NonNegative inputs) (hass : assumptions = baseAssumptions ∨
      assumptions = downsideAssumptions ∨ assumptions = upsideAssumptions)
    (hflows : resolve inputs config assumptions = .ok flows) : Positive flows := by
  obtain ⟨horizonEnd, receipts, pipeline, commitments, -, hrcpt, hpipe, hcoms, rfl⟩ :=
    resolve_eq_ok.mp hflows
  have hrcpt : Positive receipts.flatten := .flatten hrcpt fun inv hinv _ hfs =>
    positive_receipts hass (h.invoices inv hinv) hfs
  have hpipe : Positive pipeline.flatten := by
    unfold pipelineReceipts at hpipe
    split_ifs at hpipe
    · exact .flatten hpipe fun opp hopp _ hfs =>
        positive_pipeline (h.pipeline opp hopp) (h.probability opp hopp) hfs
    · rw [← ok.inj hpipe]
      exact .nil
  have hcoms := positive_commitments h hcoms
  intro f hf
  obtain ⟨g, hg, hamt, -⟩ := mem_numbered hf
  rw [hamt]
  rcases mem_append.mp hg with hg | hg
  · rcases mem_append.mp hg with hg | hg
    · exact hrcpt g hg
    · exact hpipe g hg
  · exact hcoms g hg

theorem computeProjection_returns {opening restricted : Money} {p : Projection}
    (hp : computeProjection opening restricted flows config asOf = .ok p) :
    1 ≤ config.horizonWeeks ∧ Fits asOf (7 * config.horizonWeeks.toNat) ∧
      ∃ floor, config.minimumCash.plus restricted = .ok floor := by
  unfold computeProjection at hp
  rw [bind_eq_ok] at hp
  obtain ⟨buckets, hbuc, hp⟩ := hp
  cases hlast : buckets.getLast? with
  | none =>
    rw [hlast] at hp
    cases hp
  | some last =>
  rw [hlast] at hp
  dsimp only at hp
  simp only [bind_eq_ok] at hp
  obtain ⟨_, -, floor, hfloor, days, hdays, -⟩ := hp
  have hweeks : 1 ≤ config.horizonWeeks := by
    by_contra hlt
    have hnone : config.horizonWeeks.toNat = 0 := by omega
    unfold weekBuckets at hbuc
    rw [hnone] at hbuc
    rw [← ok.inj hbuc] at hlast
    cases hlast
  refine ⟨hweeks, ?_, floor, hfloor⟩
  obtain ⟨day, -, hday⟩ := exists_of_forall₂ (mapM_eq_ok.mp hdays).flip
    (mem_range.mpr (Nat.sub_lt (n := (config.horizonWeeks * 7).toNat) (by omega) one_pos))
  have hday := addDays_eq_ok.mp hday
  have hcal := day.inCalendar
  unfold Fits
  omega

theorem runForecast_ok {p : Projection} (h : NonNegative inputs)
    (hass : assumptions = baseAssumptions ∨ assumptions = downsideAssumptions ∨
      assumptions = upsideAssumptions) (hp : runForecast inputs config assumptions = .ok p) :
    ∃ flows floor, resolve inputs config assumptions = .ok flows ∧ 1 ≤ config.horizonWeeks ∧
      Fits inputs.opening.asOf (7 * config.horizonWeeks.toNat) ∧
      config.minimumCash.plus inputs.opening.restricted = .ok floor ∧
      p = projectionOf inputs.opening.available inputs.opening.restricted floor flows config.currency
        inputs.opening.asOf config.horizonWeeks.toNat := by
  unfold runForecast at hp
  rw [bind_eq_ok] at hp
  obtain ⟨flows, hflows, hp⟩ := hp
  obtain ⟨hweeks, hfits, floor, hfloor⟩ := computeProjection_returns hp
  rw [computeProjection_eq_ok hfits hweeks hfloor (positive_resolved h hass hflows)] at hp
  exact ⟨flows, floor, hflows, hweeks, hfits, hfloor, (ok.inj hp).symm⟩

theorem runForecast_eq_ok {floor : Money} (h : NonNegative inputs)
    (hass : assumptions = baseAssumptions ∨ assumptions = downsideAssumptions ∨ assumptions
      = upsideAssumptions) (hflows : resolve inputs config assumptions = .ok flows)
    (hweeks : 1 ≤ config.horizonWeeks)
    (hfits : Fits inputs.opening.asOf (7 * config.horizonWeeks.toNat))
    (hfloor : config.minimumCash.plus inputs.opening.restricted = .ok floor) :
    runForecast inputs config assumptions = .ok (projectionOf inputs.opening.available
      inputs.opening.restricted floor flows config.currency inputs.opening.asOf
      config.horizonWeeks.toNat) := by
  unfold runForecast
  rw [hflows]
  exact computeProjection_eq_ok hfits hweeks hfloor (positive_resolved h hass hflows)

end

/-! Projections of one position compare as their balances do. -/

section
variable {asOf : Date} {weeks : Nat} {flows flows' : List CashFlow} {opening restricted floor : Money}
variable {currency : String}

theorem closings_iff (hfits : Fits asOf (7 * weeks)) :
    List.Forall₂ (fun v w => v.closing.minorUnits ≤ w.closing.minorUnits)
        (projectionOf opening restricted floor flows currency asOf weeks).weeks
        (projectionOf opening restricted floor flows' currency asOf weeks).weeks ↔
      ∀ i < weeks, balanceOn opening.minorUnits flows asOf (dayAt asOf (7 * i + 6)) ≤
        balanceOn opening.minorUnits flows' asOf (dayAt asOf (7 * i + 6)) := by
  unfold projectionOf
  rw [forall₂_map_left_iff, forall₂_map_right_iff, forall₂_same]
  refine forall_congr' fun i => ?_
  rw [mem_range]
  refine imp_congr_right fun hi => ?_
  rw [← closing_lineAt hfits hi, ← closing_lineAt hfits hi]
  rfl

theorem trough_le (hfits : Fits asOf (7 * weeks))
    (hle : ∀ d, InHorizon asOf weeks d → balanceOn opening.minorUnits flows asOf d ≤
      balanceOn opening.minorUnits flows' asOf d) :
    (projectionOf opening restricted floor flows currency asOf weeks).trough.balance.minorUnits ≤
      (projectionOf opening restricted floor flows' currency asOf weeks).trough.balance.minorUnits := by
  have hlow := isLeast_low floor.minorUnits opening.minorUnits flows hfits
  have hlow' := isLeast_low floor.minorUnits opening.minorUnits flows' hfits
  rcases hlow'.1 with hopn | ⟨d, hd, hbalance⟩
  · exact (hlow.2 (.inl rfl)).trans hopn.ge
  · exact ((hlow.2 (.inr ⟨d, hd, rfl⟩)).trans (hle d hd)).trans hbalance.ge

theorem firstDate_le (hfits : Fits asOf (7 * weeks))
    (hle : ∀ d, InHorizon asOf weeks d → balanceOn opening.minorUnits flows asOf d ≤
      balanceOn opening.minorUnits flows' asOf d) {d : Date}
    (hd : (projectionOf opening restricted floor flows' currency asOf weeks).breach.firstDate =
      some d) :
    ∃ e ≤ d, (projectionOf opening restricted floor flows currency asOf weeks).breach.firstDate =
      some e := by
  obtain ⟨hin, hbelow⟩ := ((isLeast_firstBelow _ _ _ hfits).mp hd).1
  have hmem : d ∈ belowFloor floor.minorUnits opening.minorUnits flows asOf weeks :=
    ⟨hin, (hle d hin).trans_lt hbelow⟩
  obtain ⟨e, he⟩ := Option.isSome_iff_exists.mp ((firstBelow_isSome hfits).mpr ⟨d, hmem⟩)
  exact ⟨e, ((isLeast_firstBelow _ _ _ hfits).mp he).2 hmem, he⟩

end

/-! The three resolutions. -/

section
variable {inputs : ForecastInputs} {config : ForecastConfig}

theorem resolved_through {flows down up : List CashFlow} (h : NonNegative inputs)
    (hbase : resolve inputs config baseAssumptions = .ok flows)
    (hdown : resolve inputs config downsideAssumptions = .ok down)
    (hup : resolve inputs config upsideAssumptions = .ok up) :
    ∃ horizonEnd commitments, horizonEnd.ordinal =
        inputs.opening.asOf.ordinal + (config.horizonWeeks * 7 - 1) ∧
      commitmentFlows inputs.opening.asOf horizonEnd inputs = .ok commitments ∧
      ∀ d, InHorizon inputs.opening.asOf config.horizonWeeks d →
        flowedThrough CashFlow.signedMinor flows inputs.opening.asOf d.ordinal =
          collectible inputs (predictedBy inputs config d) +
            flowedThrough CashFlow.signedMinor commitments inputs.opening.asOf d.ordinal ∧
        flowedThrough CashFlow.signedMinor up inputs.opening.asOf d.ordinal =
          collectible inputs (fun inv => inv.dueDate ≤ d) + pipelineBy inputs d +
            flowedThrough CashFlow.signedMinor commitments inputs.opening.asOf d.ordinal ∧
        flowedThrough CashFlow.signedMinor down inputs.opening.asOf d.ordinal ≤
          flowedThrough CashFlow.signedMinor flows inputs.opening.asOf d.ordinal := by
  obtain ⟨horizonEnd, receipts, pipeline, commitments, hend, hrcpt, hpipe, hcoms, rfl⟩ :=
    resolve_eq_ok.mp hbase
  obtain ⟨horizonEnd', receipts', pipeline', commitments', hend', hrcpt', hpipe',
    hcoms', rfl⟩ := resolve_eq_ok.mp hdown
  obtain ⟨horizonEnd'', receipts'', pipeline'', commitments'', hend'', hrcpt'', hpipe'',
    hcoms'', rfl⟩ := resolve_eq_ok.mp hup
  obtain rfl := ok.inj (hend.symm.trans hend')
  obtain rfl := ok.inj (hend.symm.trans hend'')
  obtain rfl := ok.inj (hcoms.symm.trans hcoms')
  obtain rfl := ok.inj (hcoms.symm.trans hcoms'')
  -- only the upside has a pipeline
  obtain rfl : [] = pipeline := ok.inj hpipe
  obtain rfl : [] = pipeline' := ok.inj hpipe'
  replace hpipe'' : inputs.pipeline.mapM (pipelineFlows inputs.opening.asOf horizonEnd) =
      .ok pipeline'' := hpipe''
  have hend := addDays_eq_ok.mp hend
  refine ⟨horizonEnd, commitments, hend, hcoms, fun d hd => ?_⟩
  have hto : d ≤ horizonEnd := by
    have hlt := hd.2
    rw [le_def, hend]
    omega
  simp only [flowedThrough_numbered, flowedThrough_append, flatten_nil]
  have hnil : flowedThrough CashFlow.signedMinor [] inputs.opening.asOf d.ordinal = 0 := rfl
  have hbase := flowedThrough_flatten hrcpt fun inv _ _ hfs => receipt_base hfs hd.1 hto
  have hup := flowedThrough_flatten hrcpt'' fun inv _ _ hfs => receipt_upside hfs hd.1 hto
  have hopps := flowedThrough_flatten hpipe'' fun opp _ _ hfs => pipeline_through hfs hd.1 hto
  have hdown := flowedThrough_flatten_le hrcpt' hrcpt fun inv hinv _ _ hfs hfs' =>
    receipt_downside (h.invoices inv hinv) hfs hfs' hto
  rw [hnil, Int.add_zero, Int.add_zero]
  refine ⟨?_, ?_, add_le_add hdown le_rfl⟩
  · rw [hbase]
    rfl
  · rw [hup, hopps]
    rfl

variable {c : ScenarioComparison}

theorem runAllScenarios_ok (h : NonNegative inputs) (hc : runAllScenarios inputs config = .ok c) :
    ∃ flows down up floor, resolve inputs config baseAssumptions = .ok flows ∧
      resolve inputs config downsideAssumptions = .ok down ∧
      resolve inputs config upsideAssumptions = .ok up ∧ 1 ≤ config.horizonWeeks ∧
      Fits inputs.opening.asOf (7 * config.horizonWeeks.toNat) ∧
      config.minimumCash.plus inputs.opening.restricted = .ok floor ∧
      let projection := fun flows => projectionOf inputs.opening.available inputs.opening.restricted
        floor flows config.currency inputs.opening.asOf config.horizonWeeks.toNat
      c = ⟨projection flows, projection down, projection up⟩ := by
  unfold runAllScenarios at hc
  simp only [bind_eq_ok] at hc
  obtain ⟨base, hbase, downside, hdow, upside, hups, hc⟩ := hc
  obtain ⟨flows, floor, hflows, hweeks, hfits, hfloor, rfl⟩ := runForecast_ok h (.inl rfl) hbase
  obtain ⟨down, floor', hdown, -, -, hfloor', rfl⟩ := runForecast_ok h (.inr (.inl rfl)) hdow
  obtain ⟨up, floor'', hup, -, -, hfloor'', rfl⟩ := runForecast_ok h (.inr (.inr rfl)) hups
  obtain rfl := ok.inj (hfloor.symm.trans hfloor')
  obtain rfl := ok.inj (hfloor.symm.trans hfloor'')
  exact ⟨flows, down, up, floor, hflows, hdown, hup, hweeks, hfits, hfloor, (ok.inj hc).symm⟩

theorem envelope_of_covered (h : NonNegative inputs) (hc : runAllScenarios inputs config = .ok c)
    (hcov : Covered inputs config) : Envelope c := by
  obtain ⟨flows, down, up, floor, hflows, hdown, hup, hweeks, hfits, -, rfl⟩ := runAllScenarios_ok h hc
  obtain ⟨_, commitments, -, -, hthru⟩ := resolved_through h hflows hdown hup
  have hcount : config.horizonWeeks = config.horizonWeeks.toNat := by omega
  have hbelow : ∀ d, InHorizon inputs.opening.asOf config.horizonWeeks.toNat d →
      balanceOn inputs.opening.available.minorUnits down inputs.opening.asOf d ≤
        balanceOn inputs.opening.available.minorUnits flows inputs.opening.asOf d := by
    intro d hd
    rw [← hcount] at hd
    exact add_le_add le_rfl (hthru d hd).2.2
  have habove : ∀ d, InHorizon inputs.opening.asOf config.horizonWeeks.toNat d →
      balanceOn inputs.opening.available.minorUnits flows inputs.opening.asOf d ≤
        balanceOn inputs.opening.available.minorUnits up inputs.opening.asOf d := by
    intro d hd
    rw [← hcount] at hd
    obtain ⟨hbase, hups, -⟩ := hthru d hd
    have hd := hcov d hd
    unfold CoveredOn at hd
    unfold balanceOn
    omega
  have hlast : ∀ i < config.horizonWeeks.toNat, InHorizon inputs.opening.asOf
      config.horizonWeeks.toNat (dayAt inputs.opening.asOf (7 * i + 6)) :=
    fun i hi => (inHorizon_iff hfits).mpr ⟨7 * i + 6, by omega, rfl⟩
  have hfst : ∀ d, (projectionOf inputs.opening.available inputs.opening.restricted floor flows
      config.currency inputs.opening.asOf config.horizonWeeks.toNat).breach.firstDate = some d →
        ∃ e ≤ d, (projectionOf inputs.opening.available inputs.opening.restricted floor down
          config.currency inputs.opening.asOf config.horizonWeeks.toNat).breach.firstDate = some e :=
    fun _ => firstDate_le hfits hbelow
  exact {
    downsideClosing := (closings_iff hfits).mpr fun i hi => hbelow _ (hlast i hi)
    upsideClosing := (closings_iff hfits).mpr fun i hi => habove _ (hlast i hi)
    downsideTrough := trough_le hfits hbelow
    upsideTrough := trough_le hfits habove
    breached := fun hbreac => by
      obtain ⟨d, hd⟩ := Option.isSome_iff_exists.mp hbreac
      obtain ⟨e, -, he⟩ := hfst d hd
      exact Option.isSome_iff_exists.mpr ⟨e, he⟩
    firstDate := hfst }

theorem upsideClosing_iff (h : NonNegative inputs) (hc : runAllScenarios inputs config = .ok c) :
    List.Forall₂ (fun v w => v.closing.minorUnits ≤ w.closing.minorUnits) c.base.weeks
        c.upside.weeks ↔
      ∀ i < config.horizonWeeks.toNat,
        CoveredOn inputs config (dayAt inputs.opening.asOf (7 * i + 6)) := by
  obtain ⟨flows, down, up, floor, hflows, hdown, hup, hweeks, hfits, -, rfl⟩ := runAllScenarios_ok h hc
  obtain ⟨_, commitments, -, -, hthru⟩ := resolved_through h hflows hdown hup
  have hcount : (config.horizonWeeks.toNat : Int) = config.horizonWeeks := by omega
  refine (closings_iff hfits).trans (forall_congr' fun i => imp_congr_right fun hi => ?_)
  have hin := (inHorizon_iff hfits).mpr ⟨7 * i + 6, by omega, rfl⟩
  rw [hcount] at hin
  obtain ⟨hbase, hups, -⟩ := hthru _ hin
  unfold balanceOn CoveredOn
  rw [hbase, hups]
  omega

/-! Receivables that are not covered, and a bill that shows it. -/

def withOneBill (inputs : ForecastInputs) (due : Date) (amount : Int) : ForecastInputs :=
  { inputs with
    opening := { inputs.opening with available := ⟨0, inputs.currency⟩ }
    bills := [⟨"", "", due, ⟨amount, inputs.currency⟩, none, none⟩]
    recurring := []
    payroll := []
    debt := []
    oneTime := [] }

theorem sameReceivables_withOneBill (inputs : ForecastInputs) (due : Date) (amount : Int) :
    SameReceivables inputs (withOneBill inputs due amount) := ⟨rfl, rfl, rfl, rfl⟩

theorem NonNegative.withOneBill (h : NonNegative inputs) (due : Date) {amount : Int}
    (hamt : 0 ≤ amount) : NonNegative (withOneBill inputs due amount) := by
  constructor
  case invoices => exact h.invoices
  case bills =>
    intro b hb
    rw [mem_singleton.mp hb]
    exact hamt
  case recurring => exact fun _ hitem => absurd hitem not_mem_nil
  case netPay => exact fun _ hpr => absurd hpr not_mem_nil
  case payrollTaxes => exact fun _ hpr => absurd hpr not_mem_nil
  case debt => exact fun _ hinst => absurd hinst not_mem_nil
  case oneTime => exact fun _ hot => absurd hot not_mem_nil
  case pipeline => exact h.pipeline
  case probability => exact h.probability

theorem commitmentFlows_withOneBill (inputs : ForecastInputs) (amount : Int)
    {asOf horizonEnd due : Date} (hfrom : asOf ≤ due) (hto : due ≤ horizonEnd) :
    commitmentFlows asOf horizonEnd (withOneBill inputs due amount) =
      .ok [⟨0, due, .outflow, ⟨amount, inputs.currency⟩, .vendorPayment, .recorded, some ""⟩] := by
  have hclamp : clamp asOf due = due := if_pos hfrom
  have hwnd : inWindow asOf horizonEnd due = true := decide_eq_true ⟨hfrom, hto⟩
  have hbill : billFlows asOf horizonEnd ⟨"", "", due, ⟨amount, inputs.currency⟩, none, none⟩ =
      [⟨0, due, .outflow, ⟨amount, inputs.currency⟩, .vendorPayment, .recorded, some ""⟩] := by
    unfold billFlows
    simp only [Option.getD_none, hclamp, hwnd, Bool.not_true, Bool.false_eq_true, if_false]
  unfold commitmentFlows withOneBill
  simp only [map_cons, map_nil, hbill]
  rfl

theorem resolve_withOneBill {assumptions : ScenarioAssumptions} {flows : List CashFlow} {due : Date}
    (amount : Int) (hflows : resolve inputs config assumptions = .ok flows)
    (hdue : InHorizon inputs.opening.asOf config.horizonWeeks due) :
    ∃ flows', resolve (withOneBill inputs due amount) config assumptions = .ok flows' := by
  obtain ⟨horizonEnd, receipts, pipeline, _, hend, hrcpt, hpipe, -, -⟩ :=
    resolve_eq_ok.mp hflows
  have hto : due ≤ horizonEnd := by
    have hend := addDays_eq_ok.mp hend
    have hlt := hdue.2
    rw [le_def, hend]
    omega
  exact ⟨_, resolve_eq_ok.mpr ⟨horizonEnd, receipts, pipeline, _, hend, hrcpt, hpipe,
    commitmentFlows_withOneBill inputs amount hdue.1 hto, rfl⟩⟩

theorem collectible_mono (h : NonNegative inputs) {p q : Invoice → Bool}
    (hpq : ∀ inv, p inv = true → q inv = true) : collectible inputs p ≤ collectible inputs q := by
  refine sum_le_sum fun inv hinv => ?_
  have hopen := h.invoices inv hinv
  by_cases hp : inv.status ≠ .disputed ∧ p inv = true
  · rw [if_pos hp, if_pos ⟨hp.1, hpq inv hp.2⟩]
  · rw [if_neg hp]
    split_ifs
    · exact hopen
    · exact le_rfl

theorem collectible_nonneg (h : NonNegative inputs) (p : Invoice → Bool) :
    0 ≤ collectible inputs p := by
  refine sum_nonneg fun n hn => ?_
  obtain ⟨inv, hinv, rfl⟩ := mem_map.mp hn
  split_ifs
  · exact h.invoices inv hinv
  · exact le_rfl

theorem predictedBy_mono {d d' : Date} (hle : d ≤ d') (inv : Invoice)
    (hd : predictedBy inputs config d inv = true) : predictedBy inputs config d' inv = true := by
  have hle := le_def.mp hle
  unfold predictedBy at hd ⊢
  rw [Option.any_eq_true] at hd ⊢
  obtain ⟨days, hdays, hby⟩ := hd
  exact ⟨days, hdays, decide_eq_true ((of_decide_eq_true hby).trans hle)⟩

theorem exists_not_envelope {t : Date} (h : NonNegative inputs)
    (hc : runAllScenarios inputs config = .ok c)
    (ht : InHorizon inputs.opening.asOf config.horizonWeeks t)
    (hnot : ¬ CoveredOn inputs config t) :
    ∃ amount c', 0 ≤ amount ∧ runAllScenarios (withOneBill inputs t amount) config = .ok c' ∧
      ¬ Envelope c' := by
  obtain ⟨_, _, _, floor, hflows, hdown, hup, hweeks, hfits, hfloor, -⟩ := runAllScenarios_ok h hc
  have hamt := collectible_nonneg h (predictedBy inputs config t)
  generalize hexp : collectible inputs (predictedBy inputs config t) = amount at hamt
  have h' := h.withOneBill t hamt
  obtain ⟨flows, hflows⟩ := resolve_withOneBill amount hflows ht
  obtain ⟨down, hdown⟩ := resolve_withOneBill amount hdown ht
  obtain ⟨up, hup⟩ := resolve_withOneBill amount hup ht
  have hbase := runForecast_eq_ok h' (.inl rfl) hflows hweeks hfits hfloor
  have hdow := runForecast_eq_ok h' (.inr (.inl rfl)) hdown hweeks hfits hfloor
  have hups := runForecast_eq_ok h' (.inr (.inr rfl)) hup hweeks hfits hfloor
  have hrun : ∃ c', runAllScenarios (withOneBill inputs t amount) config = .ok c' ∧
      c'.base = projectionOf ⟨0, inputs.currency⟩ inputs.opening.restricted floor flows
        config.currency inputs.opening.asOf config.horizonWeeks.toNat ∧
      c'.upside = projectionOf ⟨0, inputs.currency⟩ inputs.opening.restricted floor up
        config.currency inputs.opening.asOf config.horizonWeeks.toNat := by
    unfold runAllScenarios
    rw [hbase, hdow, hups]
    exact ⟨_, rfl, rfl, rfl⟩
  obtain ⟨c', hc', hbase, hups⟩ := hrun
  refine ⟨amount, c', hamt, hc', fun henv => ?_⟩
  obtain ⟨horizonEnd, commitments, hend, hcoms, hthru⟩ :=
    resolved_through h' hflows hdown hup
  have hcount : (config.horizonWeeks.toNat : Int) = config.horizonWeeks := by omega
  have hto : t ≤ horizonEnd := by
    have hlt := ht.2
    have hasOf : (withOneBill inputs t amount).opening.asOf = inputs.opening.asOf := rfl
    rw [le_def, hend, hasOf]
    omega
  have hbill := commitmentFlows_withOneBill inputs amount ht.1 hto
  obtain rfl := ok.inj (hbill.symm.trans hcoms)
  have hpaid : ∀ d, flowedThrough CashFlow.signedMinor [⟨0, t, .outflow, ⟨amount, inputs.currency⟩,
      .vendorPayment, .recorded, some ""⟩] inputs.opening.asOf d =
        if t.ordinal ≤ d then -amount else 0 := by
    intro d
    rw [flowedThrough_eq_sum]
    simp only [map_singleton, sum_singleton, counted, ht.1, true_and, CashFlow.signedMinor]
  have hbas : ∀ d, InHorizon inputs.opening.asOf config.horizonWeeks d →
      balanceOn 0 flows inputs.opening.asOf d = 0 + (collectible inputs (predictedBy inputs config d) +
        if t.ordinal ≤ d.ordinal then -amount else 0) := by
    intro d hd
    rw [← hpaid]
    exact congrArg _ (hthru d hd).1
  have hupOn : balanceOn 0 up inputs.opening.asOf t = 0 +
      (collectible inputs (fun inv => inv.dueDate ≤ t) + pipelineBy inputs t + -amount) := by
    have hbill := hpaid t.ordinal
    rw [if_pos le_rfl] at hbill
    rw [← hbill]
    exact congrArg _ (hthru t ht).2.1
  -- base never falls below nothing
  have hsol : 0 ≤ c'.base.trough.balance.minorUnits := by
    rw [hbase]
    rcases (isLeast_low floor.minorUnits 0 flows hfits).1 with
      hzero | ⟨d, hd, hbalance⟩
    · exact hzero.ge
    · rw [hcount] at hd
      have hcol := collectible_nonneg h (predictedBy inputs config d)
      have hbalance := hbalance.trans (hbas d hd)
      refine le_of_le_of_eq ?_ hbalance.symm
      split_ifs with hafter
      · have hmono := collectible_mono (p := predictedBy inputs config t)
          (q := predictedBy inputs config d) h (predictedBy_mono hafter)
        omega
      · omega
  have hsunk : c'.upside.trough.balance.minorUnits ≤ balanceOn 0 up inputs.opening.asOf t := by
    rw [hups]
    exact (isLeast_low floor.minorUnits 0 up hfits).2
      (.inr ⟨t, by rwa [hcount], rfl⟩)
  have htrough := hsol.trans (henv.upsideTrough.trans hsunk)
  rw [hupOn] at htrough
  unfold CoveredOn at hnot
  omega

/-- Base stays at or below upside, whatever else is expected, exactly where the receivables are
covered day by day. -/
theorem envelope_iff_covered (inputs : ForecastInputs) (config : ForecastConfig)
    (h : NonNegative inputs) (hreturns : ∃ c, runAllScenarios inputs config = .ok c) :
    ((∀ other c, SameReceivables inputs other → NonNegative other →
        runAllScenarios other config = .ok c → Envelope c) ↔ Covered inputs config) ∧
      ∀ c, runAllScenarios inputs config = .ok c →
        (List.Forall₂ (fun v w => v.closing.minorUnits ≤ w.closing.minorUnits) c.base.weeks
            c.upside.weeks ↔
          ∀ i < config.horizonWeeks.toNat,
            CoveredOn inputs config (dayAt inputs.opening.asOf (7 * i + 6))) := by
  obtain ⟨c, hc⟩ := hreturns
  refine ⟨⟨fun hall d hd => ?_, fun hcov other c hsame hother hc => ?_⟩,
    fun c hc => upsideClosing_iff h hc⟩
  · by_contra hnot
    obtain ⟨amount, c', hamt, hc', henv⟩ := exists_not_envelope h hc hd hnot
    exact henv (hall _ c' (sameReceivables_withOneBill inputs d amount)
      (h.withOneBill d hamt) hc')
  · refine envelope_of_covered hother hc ?_
    obtain ⟨hasOf, hinvs, hhis, hpipe⟩ := hsame
    unfold Covered CoveredOn collectible pipelineBy predictedBy ForecastInputs.historyFor
    rw [hasOf, hinvs, hhis, hpipe]
    exact hcov

end

theorem opens_inCalendar : 1 ≤ (739831 : Int) ∧ 739831 ≤ maxOrdinal := by decide

theorem billDue_inCalendar : 1 ≤ (739840 : Int) ∧ 739840 ≤ maxOrdinal := by decide

theorem due_inCalendar : 1 ≤ (739861 : Int) ∧ 739861 ≤ maxOrdinal := by decide

def earlyCustomer : ForecastInputs where
  opening := ⟨⟨739831, opens_inCalendar⟩, ⟨0, "USD"⟩, ⟨0, "USD"⟩, true⟩
  currency := "USD"
  invoices := [⟨"inv-1", "c-1", ⟨739831, opens_inCalendar⟩, ⟨739861, due_inCalendar⟩,
    ⟨1000000, "USD"⟩, .open_, none⟩]
  customerHistories := [⟨"c-1", [], some (-30)⟩]
  bills := [⟨"bill-1", "v-1", ⟨739840, billDue_inCalendar⟩, ⟨500000, "USD"⟩, none, none⟩]
  recurring := []
  payroll := []
  debt := []
  oneTime := []
  pipeline := []

def oneQuarter : ForecastConfig := ⟨"USD", 13, ⟨0, "USD"⟩, 5, 3⟩

theorem troughs_earlyCustomer : ((runAllScenarios earlyCustomer oneQuarter).toOption.map fun c =>
      (c.base.trough.balance.minorUnits, c.upside.trough.balance.minorUnits)) =
    some (0, -500000) := by decide +kernel

theorem earlyCustomer_not_envelope : NonNegative earlyCustomer ∧
    ∃ c, runAllScenarios earlyCustomer oneQuarter = .ok c ∧ ¬ Envelope c := by
  have hnn : NonNegative earlyCustomer := by
    constructor <;> decide
  refine ⟨hnn, ?_⟩
  have htroug := troughs_earlyCustomer
  cases hc : runAllScenarios earlyCustomer oneQuarter with
  | error e =>
    rw [hc] at htroug
    cases htroug
  | ok c =>
    rw [hc] at htroug
    obtain ⟨hbase, hups⟩ := Prod.ext_iff.mp (Option.some.inj htroug)
    refine ⟨c, rfl, fun h => ?_⟩
    have hle := h.upsideTrough
    have hlt : c.upside.trough.balance.minorUnits < c.base.trough.balance.minorUnits :=
      hups.trans_lt ((by decide : (-500000 : Int) < 0).trans_eq hbase.symm)
    exact absurd hle (not_le.mpr hlt)

theorem envelope_iff_covered_earlyCustomer :
    ((∀ other c, SameReceivables earlyCustomer other → NonNegative other →
        runAllScenarios other oneQuarter = .ok c → Envelope c) ↔ Covered earlyCustomer oneQuarter) ∧
      ∀ c, runAllScenarios earlyCustomer oneQuarter = .ok c →
        (List.Forall₂ (fun v w => v.closing.minorUnits ≤ w.closing.minorUnits) c.base.weeks
            c.upside.weeks ↔
          ∀ i < oneQuarter.horizonWeeks.toNat,
            CoveredOn earlyCustomer oneQuarter (dayAt earlyCustomer.opening.asOf (7 * i + 6))) := by
  have hret : ∃ c, runAllScenarios earlyCustomer oneQuarter = .ok c := by
    have htroug := troughs_earlyCustomer
    cases hc : runAllScenarios earlyCustomer oneQuarter with
    | error e =>
      rw [hc] at htroug
      cases htroug
    | ok c => exact ⟨c, rfl⟩
  exact envelope_iff_covered earlyCustomer oneQuarter (by constructor <;> decide) hret

end Rgnr8.Forecast
