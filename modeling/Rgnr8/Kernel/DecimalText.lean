import Mathlib.Tactic.FieldSimp
import Mathlib.Tactic.Ring
import Rgnr8.Kernel.Money

/-! Decimal text denotes a rational number. Money is read from it without rounding. -/

namespace Rgnr8.Kernel.Money
open Lib.Js List
variable {negative : Bool} {whole frac text : List Char}

def denoted : Bool × List Char × List Char → Rat
  | (negative, whole, frac) => (if negative then -1 else 1) *
      (Nat.ofDigitChars 10 whole 0 + Nat.ofDigitChars 10 frac 0 / 10 ^ frac.length)

/-- The text is a decimal number with this value and this many digits after the point. -/
def Denotes (text : String) (value : Rat) (places : Nat) : Prop :=
  ∃ parts, decimalParts text.toList = some parts ∧ denoted parts = value ∧
    parts.2.2.length = places

theorem digits_of_decimalParts (h : decimalParts text = some (negative, whole, frac)) :
    whole ≠ [] ∧ Digits whole ∧ Digits frac := by
  have hdig : ∀ cs : List Char, Digits (cs.takeWhile Char.isDigit) := fun cs c hc =>
    mem_takeWhile_imp hc
  unfold decimalParts at h
  dsimp only at h
  generalize (if decide (text.head? = some '-') = true then text.drop 1 else text) = unsigned at h
  by_cases hne : unsigned.takeWhile Char.isDigit = []
  · rw [if_pos hne] at h
    cases h
  · rw [if_neg hne] at h
    split at h
    · cases h
      exact ⟨hne, hdig _, fun c hc => absurd hc not_mem_nil⟩
    · next frac' _ =>
      by_cases hfrac : frac' ≠ [] ∧ frac'.all Char.isDigit = true
      · rw [if_pos hfrac] at h
        cases h
        exact ⟨hne, hdig _, all_eq_true.mp hfrac.2⟩
      · rw [if_neg hfrac] at h
        cases h
    · cases h

theorem scaled_eq_denoted (zeros : Nat) : ((if negative then -1 else 1) *
      (Nat.ofDigitChars 10 (whole ++ (frac ++ List.replicate zeros '0')) 0 : Rat)) /
        10 ^ (frac.length + zeros) = denoted (negative, whole, frac) := by
  have hpow : ∀ n : Nat, (10 : Rat) ^ n ≠ 0 := fun n => pow_ne_zero n (by norm_num)
  rw [Nat.ofDigitChars_append, Nat.ofDigitChars_append, Nat.ofDigitChars_replicate_zero,
    Nat.ofDigitChars_eq_ofDigitChars_zero (l := frac)]
  unfold denoted
  push_cast
  have hlength := hpow frac.length
  have hzeros := hpow zeros
  rw [pow_add]
  field_simp

theorem naturalIn_of_digits (hne : text ≠ []) (h : Digits text) :
    naturalIn 10 text = some (Nat.ofDigitChars 10 text 0) := by
  cases text with
  | nil => exact absurd rfl hne
  | cons c cs => exact foldlM_digits h 0

theorem denotes_toDecimalString (m : Money) :
    Denotes m.toDecimalString (m.minorUnits / 10 ^ m.currency.scale) m.currency.scale := by
  have hlength := length_fracDigits m.currency.scale m.minorUnits.natAbs
  have hparts := decimalParts_decimalChars (wholeDigits_ne_nil _ _)
    (digits_wholeDigits m.currency.scale m.minorUnits.natAbs)
    (digits_fracDigits m.currency.scale m.minorUnits.natAbs) (decide (m.minorUnits < 0))
  simp only [decide_eq_true_eq] at hparts
  refine ⟨_, (congrArg decimalParts (toList_toDecimalString m)).trans hparts, ?_, hlength⟩
  have hval := naturalIn_digitsOf m.currency.scale m.minorUnits.natAbs
  have hlong := lt_length_digitsOf m.currency.scale m.minorUnits.natAbs
  rw [naturalIn_of_digits (ne_nil_of_length_pos (by omega)) (digits_digitsOf _ _),
    ← wholeDigits_append_fracDigits, Option.some.injEq] at hval
  rw [← scaled_eq_denoted 0, hlength, replicate_zero, append_nil, hval, Nat.add_zero]
  refine congrArg (· / (10 : Rat) ^ m.currency.scale) ?_
  by_cases hneg : m.minorUnits < 0
  · rw [if_pos (decide_eq_true hneg)]
    have habs : ((m.minorUnits.natAbs : Int) : Rat) = -(m.minorUnits : Rat) := by
      rw [Int.ofNat_natAbs_of_nonpos hneg.le]
      push_cast
      rfl
    rw [Int.cast_natCast] at habs
    rw [habs]
    ring
  · rw [if_neg (by simpa using hneg), one_mul]
    have habs := Int.natAbs_of_nonneg (not_lt.mp hneg)
    rw [← Int.cast_natCast, habs]

theorem fromDecimal_of_parts {s : String} {currency : Currency} {parts : Bool × List Char × List Char}
    (hparts : decimalParts (trim s).toList = some parts) (hplac : parts.2.2.length ≤ currency.scale) :
    ∃ m, fromDecimal s currency = .ok m ∧ m.currency = currency ∧
      (m.minorUnits : Rat) / 10 ^ currency.scale = denoted parts := by
  obtain ⟨negative, whole, frac⟩ := parts
  obtain ⟨hne, hwhole, hfrac⟩ := digits_of_decimalParts hparts
  have hread : naturalIn 10 (whole ++ (frac ++ replicate (currency.scale - frac.length) '0')) =
      some (Nat.ofDigitChars 10
        (whole ++ (frac ++ replicate (currency.scale - frac.length) '0')) 0) := by
    refine naturalIn_of_digits (by simp [hne]) fun c hc => ?_
    rcases mem_append.mp hc with hc | hc
    · exact hwhole c hc
    · rcases mem_append.mp hc with hc | hc
      · exact hfrac c hc
      · rw [eq_of_mem_replicate hc]
        decide
  unfold fromDecimal
  rw [hparts]
  dsimp only
  rw [if_neg (not_lt.mpr hplac), hread]
  refine ⟨_, rfl, rfl, ?_⟩
  rw [← scaled_eq_denoted (currency.scale - frac.length), Nat.add_sub_cancel' hplac,
    Option.getD_some]
  refine congrArg (· / (10 : Rat) ^ currency.scale) ?_
  cases negative with
  | true => simp
  | false => simp

theorem parts_of_fromDecimal {s : String} {currency : Currency} {m : Money}
    (h : fromDecimal s currency = .ok m) : ∃ parts,
      decimalParts (trim s).toList = some parts ∧ parts.2.2.length ≤ currency.scale := by
  unfold fromDecimal at h
  split at h
  · cases h
  · next hparts =>
    refine ⟨_, hparts, not_lt.mp fun hmore => ?_⟩
    rw [if_pos hmore] at h
    cases h

/-- An amount is read back from its text; what is accepted is written as the same number with all
digits of the scale; and text is accepted if and only if it has no more digits than that. -/
theorem decimalText_exact (currency : Currency) :
    (∀ amount, fromDecimal (toDecimalString ⟨amount, currency⟩) currency = .ok ⟨amount, currency⟩) ∧
    (∀ s m, fromDecimal s currency = .ok m → ∃ value places,
      Denotes (trim s) value places ∧ Denotes m.toDecimalString value currency.scale) ∧
    ∀ s, (∃ m, fromDecimal s currency = .ok m) ↔
      ∃ value places, Denotes (trim s) value places ∧ places ≤ currency.scale := by
  refine ⟨fun amount => fromDecimal_toDecimalString ⟨amount, currency⟩, ?_, fun s => ⟨?_, ?_⟩⟩
  · intro s m h
    obtain ⟨parts, hparts, hplac⟩ := parts_of_fromDecimal h
    obtain ⟨m', h', hccy, hval⟩ := fromDecimal_of_parts hparts hplac
    cases Except.ok.inj (h.symm.trans h')
    refine ⟨_, _, ⟨parts, hparts, rfl, rfl⟩, ?_⟩
    rw [← hval, ← hccy]
    exact denotes_toDecimalString m
  · rintro ⟨m, h⟩
    obtain ⟨parts, hparts, hplac⟩ := parts_of_fromDecimal h
    exact ⟨_, _, ⟨parts, hparts, rfl, rfl⟩, hplac⟩
  · rintro ⟨value, places, ⟨parts, hparts, -, rfl⟩, hplac⟩
    obtain ⟨m, h, -⟩ := fromDecimal_of_parts hparts hplac
    exact ⟨m, h⟩

end Rgnr8.Kernel.Money
