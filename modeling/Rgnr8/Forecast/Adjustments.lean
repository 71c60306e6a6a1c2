import Rgnr8.Forecast.ScenarioEnvelope

/-! What-if adjustments, and what a customer who pays later does to the outlook. -/

namespace Rgnr8.Forecast
open Lib Lib.Py Fallible Date List

inductive Adjustment where
  | delayCustomerPayment (customerId : String) (days : Int)
  | oneTimeFlow (label : String) (amount : Money) (onDate : Date) (inflow : Bool)
  | scaleRecurring (labelMatch : String) (factor : Rat)
  | addRecurring (item : RecurringItem)
  | scalePayroll (factor : Rat)
  | setMinimumCash (amount : Money)

def scaleMoney (amount : Money) (factor : Rat) : Except PyError Money :=
  amount.scaleBy factor.num factor.den

def effectiveDaysLate : Option CustomerHistory → Except PyError Int
  | none => .ok 0
  | some h =>
    match h.overrideDaysLate with
    | some days => .ok days
    | none =>
      if h.observations ≠ [] then
        (median (h.observations.map PaymentObservation.daysLate)).map Py.round
      else .ok 0

def delayCustomer (histories : List CustomerHistory) (customerId : String) (days : Int) :
    Except PyError (List CustomerHistory) := do
  let existing := histories.find? fun h => h.customerId = customerId
  let effective ← effectiveDaysLate existing
  let updated := ⟨customerId, (existing.map CustomerHistory.observations).getD [],
    some (effective + days)⟩
  return (histories.filter fun h => h.customerId ≠ customerId) ++ [updated]

def adjust (inputs : ForecastInputs) : Adjustment → Except PyError ForecastInputs
  | .delayCustomerPayment customerId days => do
    let histories ← delayCustomer inputs.customerHistories customerId days
    return { inputs with customerHistories := histories }
  | .oneTimeFlow label amount onDate inflow =>
    return { inputs with oneTime := inputs.oneTime ++ [⟨label,
      if inflow then .otherInflow else .otherOutflow, if inflow then .inflow else .outflow, amount,
      onDate, .planned, none⟩] }
  | .scaleRecurring labelMatch factor => do
    let recurring ← inputs.recurring.mapM fun item =>
      if labelMatch.toList <:+: item.label.toList then do
        return { item with amount := ← scaleMoney item.amount factor }
      else return item
    return { inputs with recurring := recurring }
  | .addRecurring item => return { inputs with recurring := inputs.recurring ++ [item] }
  | .scalePayroll factor => do
    let payroll ← inputs.payroll.mapM fun pr => do
      let netPay ← scaleMoney pr.netPay factor
      return { pr with netPay := netPay, payrollTaxes := ← scaleMoney pr.payrollTaxes factor }
    return { inputs with payroll := payroll }
  | .setMinimumCash _ => return inputs

/-- `apply` -/
def applyScenario (inputs : ForecastInputs) (adjustments : List Adjustment) :
    Except PyError ForecastInputs := adjustments.foldlM adjust inputs

/-- The day a receipt is expected on in the base scenario, which may be past. -/
def expectedDate (inputs : ForecastInputs) (config : ForecastConfig) (inv : Invoice) :
    Except PyError Date := do
  let days ← predictDaysLate (inputs.historyFor inv.customerId) config
  inv.dueDate.addDays (days + baseAssumptions.arExtraDelayDays)

structure DelaysExactly (inputs : ForecastInputs) (config : ForecastConfig) (customerId : String)
    (days : Int) (delayed : ForecastInputs) : Prop where
  customer : ∃ before, predictDaysLate (inputs.historyFor customerId) config = .ok before ∧
    predictDaysLate (delayed.historyFor customerId) config = .ok (before + days)
  others : ∀ other ≠ customerId,
    predictDaysLate (delayed.historyFor other) config =
      predictDaysLate (inputs.historyFor other) config
  receipts : ∀ inv ∈ inputs.invoices, inv.customerId = customerId → ∀ d d',
    expectedDate inputs config inv = .ok d → expectedDate delayed config inv = .ok d' →
    d'.ordinal = d.ordinal + days
  closings : ∀ p p', runForecast inputs config baseAssumptions = .ok p →
    runForecast delayed config baseAssumptions = .ok p' →
    Forall₂ (fun v w => v.closing.minorUnits ≤ w.closing.minorUnits) p'.weeks p.weeks
  twice : ∀ more, applyScenario delayed [.delayCustomerPayment customerId more] =
    applyScenario inputs [.delayCustomerPayment customerId (days + more)]

/-- What the adjustment starts from is what the customer is predicted by. -/
def StartsFromPrediction (history : Option CustomerHistory) (config : ForecastConfig) : Prop :=
  let samples := (history.map fun h => h.observations.map PaymentObservation.daysLate).getD []
  (history.bind CustomerHistory.overrideDaysLate).isSome ∨
    (samples ≠ [] ∧ config.minHistoryObservations ≤ samples.length) ∨
    (samples.length < config.minHistoryObservations ∧
      ((samples = [] ∧ config.defaultPaymentDelayDays = 0) ∨
        (samples ≠ [] ∧ (median samples).map Py.round = .ok config.defaultPaymentDelayDays)))

theorem payDate_eq (asOf : Date) (inputs : ForecastInputs) (config : ForecastConfig) (inv : Invoice) :
    payDate asOf inputs config baseAssumptions inv =
      (expectedDate inputs config inv).map (clamp asOf) := by
  unfold payDate expectedDate
  rw [if_neg (by exact Bool.false_ne_true)]
  cases predictDaysLate (inputs.historyFor inv.customerId) config with
  | error e => rfl
  | ok days =>
    cases hdate : inv.dueDate.addDays (days + baseAssumptions.arExtraDelayDays) <;>
      simp only [bind, Except.bind, hdate, Except.map, pure, Except.pure]

/-! The prediction for one customer. -/

section
variable {history : Option CustomerHistory} {config : ForecastConfig} {days effective : Int}

theorem exists_median {samples : List Int} (h : samples ≠ []) : ∃ m, median samples = .ok m := by
  have hlength : (samples.insertionSort (· ≤ ·)).length ≠ 0 := by
    rwa [length_insertionSort, Ne, length_eq_zero_iff]
  unfold median
  rw [if_neg hlength]
  split_ifs <;> exact ⟨_, rfl⟩

/-- What the adjustment starts from where there is no override. -/
def usual (samples : List Int) : Except PyError Int :=
  if samples ≠ [] then (median samples).map Py.round else .ok 0

theorem exists_usual (samples : List Int) : ∃ days, usual samples = .ok days := by
  unfold usual
  split_ifs with h
  · obtain ⟨m, hm⟩ := exists_median h
    exact ⟨Py.round m, by rw [hm]; rfl⟩
  · exact ⟨0, rfl⟩

theorem usual_iff {samples : List Int} (h : usual samples = .ok effective) :
    (samples ≠ [] ∧ config.minHistoryObservations ≤ samples.length) ∨
      (samples.length < config.minHistoryObservations ∧
        ((samples = [] ∧ config.defaultPaymentDelayDays = 0) ∨
          (samples ≠ [] ∧ (median samples).map Py.round = .ok config.defaultPaymentDelayDays))) ↔
    (if config.minHistoryObservations ≤ samples.length then (median samples).map Py.round
      else .ok config.defaultPaymentDelayDays) = .ok effective := by
  unfold usual at h
  -- without observations only a default of 0, taken for want of them, agrees with the 0 taken here
  by_cases hnil : samples = []
  · rw [if_neg (not_not.mpr hnil)] at h
    obtain rfl := Except.ok.inj h
    subst hnil
    split_ifs with hmin
    · refine iff_of_false ?_ nofun
      rintro (⟨hne, -⟩ | ⟨hlt, -⟩)
      exacts [hne rfl, absurd hmin (not_le.mpr hlt)]
    · rw [length_nil] at hmin
      simp
      omega
  · rw [if_pos hnil] at h
    rw [h]
    split_ifs with hmin
    · exact iff_of_true (.inl ⟨hnil, hmin⟩) rfl
    · simp [hnil, hmin, not_le.mp hmin, eq_comm]

theorem exists_effective (config : ForecastConfig) (history : Option CustomerHistory) :
    ∃ effective, effectiveDaysLate history = .ok effective ∧
      (StartsFromPrediction history config ↔ predictDaysLate history config = .ok effective) := by
  cases history with
  | none => exact ⟨0, rfl, (or_iff_right nofun).trans (usual_iff rfl)⟩
  | some h =>
    unfold effectiveDaysLate StartsFromPrediction predictDaysLate
    dsimp only [Option.bind_some, Option.map_some, Option.getD_some]
    cases h.overrideDaysLate with
    | some days => exact ⟨days, rfl, iff_of_true (.inl rfl) rfl⟩
    | none =>
      obtain ⟨days, hdays⟩ := exists_usual (h.observations.map PaymentObservation.daysLate)
      refine ⟨days, ?_, (or_iff_right nofun).trans (usual_iff hdays)⟩
      rw [← hdays]
      unfold usual
      simp only [ne_eq, map_eq_nil_iff]

end

/-! The customer, and the others. -/

section
variable {inputs delayed : ForecastInputs} {config : ForecastConfig} {customerId : String} {days : Int}

/-- What the adjustment makes of the inputs, for a customer who is then `late` days late. -/
def delayedTo (inputs : ForecastInputs) (customerId : String) (late : Int) : ForecastInputs :=
  { inputs with customerHistories :=
      (inputs.customerHistories.filter fun h => h.customerId ≠ customerId) ++ [⟨customerId,
        ((inputs.historyFor customerId).map CustomerHistory.observations).getD [], some late⟩] }

theorem adjust_delay {effective : Int}
    (h : effectiveDaysLate (inputs.historyFor customerId) = .ok effective) (days : Int) :
    applyScenario inputs [.delayCustomerPayment customerId days] =
      .ok (delayedTo inputs customerId (effective + days)) := by
  unfold applyScenario adjust delayCustomer
  show (do
    let i ← (do
      let histories ← (do
        let e ← effectiveDaysLate (inputs.historyFor customerId)
        _)
      _)
    _) = _
  rw [h]
  rfl

theorem historyFor_delayedTo (late : Int) (other : String) :
    (delayedTo inputs customerId late).historyFor other =
      if other = customerId then some ⟨customerId,
        ((inputs.historyFor customerId).map CustomerHistory.observations).getD [], some late⟩
      else inputs.historyFor other := by
  unfold delayedTo ForecastInputs.historyFor
  dsimp only
  rw [find?_append, find?_filter, find?_singleton]
  split_ifs with h hother hother
  · subst hother
    rw [find?_eq_none.mpr fun h _ => by simp, Option.none_or]
  · exact absurd (of_decide_eq_true h).symm hother
  · exact absurd (decide_eq_true hother.symm) h
  · rw [Option.or_none]
    refine congrArg (find? · _) (funext fun h => ?_)
    by_cases hh : h.customerId = other
    · simp [hh, hother]
    · simp [hh]

theorem delayedTo_delayedTo (late late' : Int) :
    delayedTo (delayedTo inputs customerId late) customerId late' =
      delayedTo inputs customerId late' := by
  have hkept : (delayedTo inputs customerId late).customerHistories.filter
      (fun h => h.customerId ≠ customerId) =
        inputs.customerHistories.filter fun h => h.customerId ≠ customerId := by
    unfold delayedTo
    rw [filter_append, filter_filter, filter_singleton]
    simp
  have hobs : (((delayedTo inputs customerId late).historyFor customerId).map
      CustomerHistory.observations).getD [] =
        ((inputs.historyFor customerId).map CustomerHistory.observations).getD [] := by
    rw [historyFor_delayedTo, if_pos rfl]
    rfl
  unfold delayedTo at hkept hobs ⊢
  rw [hkept, hobs]

theorem closings_le {histories : List CustomerHistory} (hnn : NonNegative inputs)
    (hlater : ∀ inv d, predictedBy { inputs with customerHistories := histories } config d inv = true →
      predictedBy inputs config d inv = true) {p p' : Projection}
    (hp : runForecast inputs config baseAssumptions = .ok p)
    (hp' : runForecast { inputs with customerHistories := histories } config baseAssumptions =
      .ok p') :
    Forall₂ (fun v w => v.closing.minorUnits ≤ w.closing.minorUnits) p'.weeks p.weeks := by
  obtain ⟨flows, floor, hflows, hweeks, hfits, hfloor, rfl⟩ := runForecast_ok hnn (.inl rfl) hp
  have hnn' : NonNegative { inputs with customerHistories := histories } := { hnn with }
  obtain ⟨flows', floor', hflows', -, -, hfloor', rfl⟩ := runForecast_ok hnn' (.inl rfl) hp'
  obtain rfl := Except.ok.inj (hfloor.symm.trans hfloor')
  obtain ⟨horizonEnd, receipts, pipeline, commitments, hend, hrcpt, hpipe, hcoms, rfl⟩ :=
    resolve_eq_ok.mp hflows
  obtain ⟨horizonEnd', receipts', pipeline', commitments', hend', hrcpt', hpipe',
    hcoms', rfl⟩ := resolve_eq_ok.mp hflows'
  obtain rfl := Except.ok.inj (hend.symm.trans hend')
  obtain rfl := Except.ok.inj (hcoms.symm.trans hcoms')
  obtain rfl := Except.ok.inj (hpipe.symm.trans hpipe')
  -- all but the receipts is the same, and of those one that is later has not come in before
  refine (closings_iff hfits).mpr fun i hi => add_le_add le_rfl ?_
  have hin := (inHorizon_iff hfits).mpr ⟨7 * i + 6, by omega, rfl⟩
  have hto : dayAt inputs.opening.asOf (7 * i + 6) ≤ horizonEnd := by
    have hlt := hin.2
    rw [le_def, addDays_eq_ok.mp hend]
    omega
  simp only [flowedThrough_numbered, flowedThrough_append]
  refine add_le_add (add_le_add (flowedThrough_flatten_le hrcpt' hrcpt
    fun inv hinv fs fs' hfs hfs' => ?_) le_rfl) le_rfl
  rw [receipt_base hfs hin.1 hto, receipt_base hfs' hin.1 hto]
  have hopen := hnn.invoices inv hinv
  split_ifs with h' h
  exacts [le_rfl, absurd ⟨h'.1, hlater _ _ h'.2⟩ h, hopen, le_rfl]

theorem delays_iff (hnonneg : NonNegative inputs) (hdays : 0 ≤ days)
    (h : applyScenario inputs [.delayCustomerPayment customerId days] = .ok delayed) :
    DelaysExactly inputs config customerId days delayed ↔
      StartsFromPrediction (inputs.historyFor customerId) config := by
  obtain ⟨effective, heff, hstar⟩ := exists_effective config (inputs.historyFor customerId)
  rw [hstar]
  rw [adjust_delay heff] at h
  obtain rfl := Except.ok.inj h
  have hafter : predictDaysLate ((delayedTo inputs customerId (effective + days)).historyFor
      customerId) config = .ok (effective + days) := by
    rw [historyFor_delayedTo, if_pos rfl]
    rfl
  have hoth : ∀ other ≠ customerId, predictDaysLate ((delayedTo inputs customerId
      (effective + days)).historyFor other) config =
        predictDaysLate (inputs.historyFor other) config := by
    intro other hne
    rw [historyFor_delayedTo, if_neg hne]
  refine ⟨fun hexact => ?_, fun hbef => ⟨⟨effective, hbef, hafter⟩, hoth,
    fun inv _ hid d d' hd hd' => ?_, fun p p' hp hp' => closings_le hnonneg ?_ hp hp',
    fun more => ?_⟩⟩
  · obtain ⟨before, hbef, hlater⟩ := hexact.customer
    have heq := Except.ok.inj (hafter.symm.trans hlater)
    rw [hbef, add_right_cancel heq]
  · unfold expectedDate at hd hd'
    rw [hid, hbef] at hd
    rw [hid, hafter] at hd'
    have hd := addDays_eq_ok.mp hd
    have hd' := addDays_eq_ok.mp hd'
    omega
  · intro inv d hlate
    replace hlate : predictedBy (delayedTo inputs customerId (effective + days)) config d inv = true :=
      hlate
    unfold predictedBy at hlate ⊢
    by_cases hid : inv.customerId = customerId
    · rw [hid, hafter] at hlate
      rw [hid, hbef]
      simp only [Except.toOption, Option.any_some, decide_eq_true_iff] at hlate ⊢
      omega
    · rwa [hoth _ hid] at hlate
  · have heff' : effectiveDaysLate ((delayedTo inputs customerId (effective + days)).historyFor
        customerId) = .ok (effective + days) := by
      rw [historyFor_delayedTo, if_pos rfl]
      rfl
    rw [adjust_delay heff', adjust_delay heff, delayedTo_delayedTo, Int.add_assoc]

end

theorem early_customer_delayed : ∃ delayed,
    applyScenario earlyCustomer [.delayCustomerPayment "c-1" 10] = .ok delayed ∧
      DelaysExactly earlyCustomer oneQuarter "c-1" 10 delayed := by
  have hnn : NonNegative earlyCustomer := by
    constructor <;> decide
  exact ⟨_, rfl, (delays_iff hnn (by decide) rfl).mpr (.inl rfl)⟩

theorem new_customer_not_delayed : ¬ ∀ inputs config customerId days delayed,
    NonNegative inputs → 0 ≤ days →
    applyScenario inputs [.delayCustomerPayment customerId days] = .ok delayed →
    DelaysExactly inputs config customerId days delayed := by
  intro h
  have hnn : NonNegative earlyCustomer := by
    constructor <;> decide
  obtain ⟨before, hbef, hafter⟩ :=
    (h earlyCustomer oneQuarter "c-2" 10 _ hnn (by decide) rfl).customer
  obtain rfl : 5 = before := Except.ok.inj hbef
  exact absurd hafter (by decide)

end Rgnr8.Forecast
