import Rgnr8.Service.Worksheet

/-! When one rate leaves no translation difference. Every line is rounded on its own, so what the
lines are rounded away by must cancel out. -/

namespace Rgnr8.Service.Consolidation
open Lib Kernel Rgnr8.Statements List

/-- What rounding adds to the exact translation of an amount, in millionths: the distance of the
remainder to the nearer multiple of the scale, upwards at the half. -/
def roundedBy (signedMinor rateMicro : Int) : Int :=
  let remainder := |signedMinor| * rateMicro % rateMicroOne
  let distance := if rateMicroOne ≤ 2 * remainder then rateMicroOne - remainder else -remainder
  if signedMinor < 0 then -distance else distance

theorem translateAmount_mul {rateMicro : Int} (hrate : 0 < rateMicro) (signedMinor : Int) :
    translateAmount signedMinor rateMicro * rateMicroOne =
      signedMinor * rateMicro + roundedBy signedMinor rateMicro := by
  have hexact : 0 ≤ |signedMinor| * rateMicro := Int.mul_nonneg (abs_nonneg _) hrate.le
  have habs : (if signedMinor < 0 then -signedMinor else signedMinor) = |signedMinor| := by
    split_ifs with hneg
    · exact (abs_of_neg hneg).symm
    · exact (abs_of_nonneg (not_lt.mp hneg)).symm
  unfold translateAmount roundedBy
  rw [habs]
  have hone : rateMicroOne = 1000000 := rfl
  have hhalf : rateMicroOne.tdiv 2 = 500000 := rfl
  dsimp only
  rw [hhalf, hone]
  by_cases hneg : signedMinor < 0
  · have hprod : signedMinor * rateMicro = -(|signedMinor| * rateMicro) := by
      rw [abs_of_neg hneg, Int.neg_mul, Int.neg_neg]
    rw [if_pos hneg, if_pos hneg, hprod]
    generalize |signedMinor| * rateMicro = exact at hexact
    rw [Int.tdiv_eq_ediv_of_nonneg (by omega)]
    split_ifs <;> omega
  · rw [if_neg hneg, if_neg hneg, abs_of_nonneg (not_lt.mp hneg)] at *
    generalize signedMinor * rateMicro = exact at hexact
    rw [Int.tdiv_eq_ediv_of_nonneg (by omega)]
    split_ifs <;> omega

variable {tb : Rgnr8.Statements.TrialBalance} {rates : TranslationRatesMicro}

theorem sum_translateEntry {rateMicro : Int} (hrate : 0 < rateMicro)
    (hsame : ∀ rateClass, rates.rateOf rateClass = rateMicro)
    (hzero : (tb.entries.map TrialBalanceEntry.signed).sum = 0) :
    ((tb.entries.map (translateEntry rates)).map TrialBalanceEntry.signed).sum * rateMicroOne =
      (tb.entries.map fun e => roundedBy e.signed rateMicro).sum := by
  have hlines : ((tb.entries.map (translateEntry rates)).map TrialBalanceEntry.signed).sum *
      rateMicroOne = (tb.entries.map TrialBalanceEntry.signed).sum * rateMicro +
        (tb.entries.map fun e => roundedBy e.signed rateMicro).sum := by
    rw [map_map, ← sum_map_mul_right, ← sum_map_mul_right, ← sum_map_add]
    refine congrArg sum (map_congr_left fun e _ => ?_)
    unfold Function.comp translateEntry
    rw [hsame]
    exact translateAmount_mul hrate e.signed
  rw [hlines, hzero, Int.zero_mul, Int.zero_add]

theorem length_translated (localeLe : String → String → Bool) (currency : Currency)
    (entityId : String) :
    (translateTrialBalance localeLe tb currency entityId rates).tb.entries.length =
        tb.entries.length ↔
      ((tb.entries.map (translateEntry rates)).map TrialBalanceEntry.signed).sum = 0 := by
  unfold translateTrialBalance makeTrialBalance
  dsimp only
  rw [length_insertionSort]
  split_ifs with hzero
  · rw [length_append, length_map, length_singleton]
    exact iff_of_false (by omega) hzero
  · rw [length_map]
    exact iff_of_true rfl (not_not.mp hzero)

/-- A translation foots, and its adjustment is what has been carried in and what is new. With one
rate there is no adjustment exactly when the roundings of the lines cancel out. -/
theorem translation_foots_iff (localeLe : String → String → Bool) (currency : Currency)
    (entityId : String) (hzero : (tb.entries.map TrialBalanceEntry.signed).sum = 0)
    (hpositive : ∀ rateClass, 0 < rates.rateOf rateClass) :
    let translation := translateTrialBalance localeLe tb currency entityId rates
    ((translation.tb.entries.map TrialBalanceEntry.signed).sum = 0 ∧
      translation.cta.cumulativeMinor - translation.cta.priorMinor =
        translation.cta.currentPeriodMinor ∧
      (rates.currentMicro = rates.equityMicro → rates.equityMicro = rates.averageMicro →
        translation.tb.entries.length = tb.entries.length)) ↔
    (rates.currentMicro = rates.equityMicro → rates.equityMicro = rates.averageMicro →
      (tb.entries.map fun e => roundedBy e.signed rates.currentMicro).sum = 0) := by
  intro translation
  have hmov : translation.cta.cumulativeMinor - translation.cta.priorMinor =
      translation.cta.currentPeriodMinor := rfl
  rw [and_iff_right (sum_translated localeLe tb currency entityId rates), and_iff_right hmov]
  refine forall_congr' fun hequity => forall_congr' fun haver => ?_
  have hsame : ∀ rateClass, rates.rateOf rateClass = rates.currentMicro := by
    intro rateClass
    cases rateClass with
    | current => rfl
    | historical => exact hequity.symm
    | average => exact (hequity.trans haver).symm
  have hcur : 0 < rates.currentMicro := hpositive .current
  have hsum := sum_translateEntry hcur hsame hzero
  rw [length_translated, ← hsum, Int.mul_eq_zero]
  exact (or_iff_left (by decide)).symm

namespace TranslationSample

def entry (code : String) (accountClass : AccountClass) (signed : Int) : TrialBalanceEntry :=
  ⟨code, code, code, accountClass, none, signed⟩

def euro : Currency := ⟨"EUR", 2⟩

/-- Two lines of one cent against one of two. -/
def cents : Rgnr8.Statements.TrialBalance :=
  ⟨euro, [entry "1000" .asset 1, entry "1100" .asset 1, entry "2000" .liability (-2)]⟩

def oneRate (rateMicro : Int) : TranslationRatesMicro := ⟨rateMicro, rateMicro, rateMicro, 0⟩

end TranslationSample

open TranslationSample in
theorem doubled_cents_foot :
    (translateTrialBalance (fun a b => a ≤ b) cents usd "sub" (oneRate 2000000)).tb.entries.length =
      cents.entries.length :=
  ((translation_foots_iff (fun a b => a ≤ b) usd "sub" (by decide)
    (fun rateClass => by cases rateClass <;> decide)).mpr fun _ _ => by decide).2.2 rfl rfl

open TranslationSample in
theorem half_cents_add_a_line : ¬ ((cents.entries.map TrialBalanceEntry.signed).sum = 0 →
      (∀ rateClass, 0 < (oneRate 500000).rateOf rateClass) →
      (translateTrialBalance (fun a b => a ≤ b) cents usd "sub" (oneRate 500000)).tb.entries.length =
        cents.entries.length) := by
  intro h
  exact absurd (h (by decide) fun rateClass => by cases rateClass <;> decide) (by decide +kernel)

end Rgnr8.Service.Consolidation
