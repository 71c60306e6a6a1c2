import Rgnr8.Lib.Javascript
import Mathlib.Data.Rat.Floor
import Mathlib.Algebra.Order.Field.Power
import Mathlib.Data.Nat.Log
import Mathlib.Tactic.Positivity
import Mathlib.Tactic.NormNum
import Mathlib.Tactic.Linarith

/-! The double nearest to a number of ordinary size is a number. -/

namespace Rgnr8.Lib.Js
open Nat

theorem zpow_log_le {q : Rat} (hpos : 0 < q) :
    (2 : Rat) ^ ((Nat.log2 q.num.natAbs : Int) - Nat.log2 q.den) ≤ 2 * q := by
  have hnum : ((q.num.natAbs : Nat) : Rat) = q.num := by
    have habs := Int.natAbs_of_nonneg (Rat.num_pos.mpr hpos).le
    rw [← Int.cast_natCast, habs]
  have hne : q.num.natAbs ≠ 0 := Int.natAbs_ne_zero.mpr (Rat.num_pos.mpr hpos).ne'
  have hden : (0 : Rat) < q.den := by exact_mod_cast q.den_pos
  have hlow : (2 : Rat) ^ log2 q.num.natAbs ≤ q.num := by
    rw [← hnum]
    exact_mod_cast log2_self_le hne
  have hhigh : (q.den : Rat) ≤ 2 * 2 ^ log2 q.den := by
    have hlt := lt_log2_self (n := q.den)
    rw [pow_succ] at hlt
    have hle : q.den ≤ 2 * 2 ^ log2 q.den := by omega
    exact_mod_cast hle
  rw [zpow_sub₀ two_ne_zero, zpow_natCast, zpow_natCast, div_le_iff₀ (by positivity)]
  have hq : q * q.den = q.num := Rat.mul_den_eq_num q
  calc (2 : Rat) ^ log2 q.num.natAbs ≤ q.num := hlow
    _ = q * q.den := hq.symm
    _ ≤ q * (2 * 2 ^ log2 q.den) := mul_le_mul_of_nonneg_left hhigh hpos.le
    _ = 2 * q * 2 ^ log2 q.den := by ring

theorem nearestDouble_isSome {q : Rat} (hpos : 0 < q) (hle : q ≤ 100) :
    ∃ d, nearestDouble q = some d := by
  have hlog : (log2 q.num.natAbs : Int) - log2 q.den ≤ 52 := by
    by_contra hgt
    have hpow : (2 : Rat) ^ (53 : Int) ≤ 2 ^ ((log2 q.num.natAbs : Int) - log2 q.den) :=
      zpow_le_zpow_right₀ one_le_two (by omega)
    have hbound := hpow.trans (zpow_log_le hpos)
    norm_num at hbound
    linarith
  unfold nearestDouble
  dsimp only
  generalize hexp : max ((if q < (2 : Rat) ^ ((log2 q.num.natAbs : Int) - log2 q.den)
    then (log2 q.num.natAbs : Int) - log2 q.den - 1
    else (log2 q.num.natAbs : Int) - log2 q.den) - 52) (-1074) = exponent
  have hsmall : exponent ≤ 0 := by
    rw [← hexp]
    refine max_le ?_ (by decide)
    split_ifs <;> omega
  have hunit : (2 : Rat) ^ exponent ≤ 1 := zpow_le_one_of_nonpos₀ one_le_two hsmall
  have hunitP : (0 : Rat) < 2 ^ exponent := zpow_pos two_pos _
  refine ⟨_, if_neg (not_le.mpr ?_)⟩
  have hroun : ∀ p : Prop, [Decidable p] → (((if p then (q / 2 ^ exponent).floor
      else (q / 2 ^ exponent).floor + 1 : Int)) : Rat) ≤ q / 2 ^ exponent + 1 := by
    intro p _
    have hfloor : (((q / 2 ^ exponent).floor : Int) : Rat) ≤ q / 2 ^ exponent := Rat.floor_le _
    split_ifs
    · linarith
    · push_cast
      linarith
  calc _ ≤ (q / 2 ^ exponent + 1) * 2 ^ exponent :=
        mul_le_mul_of_nonneg_right (hroun _) hunitP.le
    _ = q + 2 ^ exponent := by
        rw [add_mul, div_mul_cancel₀ _ hunitP.ne', one_mul]
    _ < 2 ^ 1024 := by
        have hlarge : (101 : Rat) < 2 ^ 1024 :=
          lt_of_lt_of_le (by norm_num) (pow_le_pow_right₀ one_le_two (show 7 ≤ 1024 by decide))
        have hle : q + 2 ^ exponent ≤ 101 := by linarith
        exact hle.trans_lt hlarge
theorem double_isSome {q : Rat} (hnn : 0 ≤ q) (hle : q ≤ 100) : ∃ d, double q = some d := by
  unfold double
  split_ifs with hzero hpos
  · exact ⟨0, rfl⟩
  · exact nearestDouble_isSome hpos hle
  · exact absurd (lt_of_le_of_ne hnn fun h => hzero h.symm) hpos

end Rgnr8.Lib.Js
