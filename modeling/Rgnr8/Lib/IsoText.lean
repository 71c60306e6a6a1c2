import Rgnr8.Lib.Javascript
import Mathlib.Data.List.Lex
import Mathlib.Tactic.Ring

/-! Numbers of a fixed width, and dates written with them: their texts are in the order of the
numbers. -/

namespace Rgnr8.Lib
open List Nat

theorem append_lt_append {l m s t : List Char} (hlen : l.length = m.length) :
    l ++ s < m ++ t ↔ l < m ∨ (l = m ∧ s < t) := by
  induction l generalizing m with
  | nil =>
    rw [eq_nil_of_length_eq_zero hlen.symm]
    exact ⟨fun h => .inr ⟨rfl, h⟩, fun h => (h.resolve_left (not_lt_nil _)).2⟩
  | cons a l ih =>
    cases m with
    | nil => exact nomatch hlen
    | cons b m =>
      rw [cons_append, cons_append, cons_lt_cons_iff, cons_lt_cons_iff,
        ih (succ.inj hlen), cons.injEq]
      tauto

variable {a b width : Nat}

theorem digitChar_lt (ha : a < 10) (hb : b < 10) : Nat.digitChar a < Nat.digitChar b ↔ a < b := by
  have hall : ∀ a < 10, ∀ b < 10, (digitChar a < digitChar b ↔ a < b) := by decide
  exact hall a ha b hb

theorem digitChar_inj (ha : a < 10) (hb : b < 10) (h : Nat.digitChar a = Nat.digitChar b) :
    a = b := by
  rcases lt_trichotomy a b with hless | heq | hmore
  · have hlt := (digitChar_lt ha hb).mpr hless
    rw [h] at hlt
    exact absurd hlt (lt_irrefl _)
  · exact heq
  · have hlt := (digitChar_lt hb ha).mpr hmore
    rw [h] at hlt
    exact absurd hlt (lt_irrefl _)

def fixed : (width n : Nat) → List Char
  | 0, _ => []
  | width + 1, n => fixed width (n / 10) ++ [Nat.digitChar (n % 10)]

theorem length_fixed (width n : Nat) : (fixed width n).length = width := by
  induction width generalizing n with
  | zero => rfl
  | succ width ih => rw [fixed, length_append, ih, length_singleton]

theorem fixed_inj (ha : a < 10 ^ width) (hb : b < 10 ^ width) (h : fixed width a = fixed width b) :
    a = b := by
  induction width generalizing a b with
  | zero => omega
  | succ width ih =>
    rw [fixed, fixed] at h
    have hparts := append_inj h (by rw [length_fixed, length_fixed])
    have hlast := digitChar_inj (mod_lt a (by decide)) (mod_lt b (by decide))
      (singleton_inj.mp hparts.2)
    have hfront := ih (by omega) (by omega) hparts.1
    omega

theorem fixed_lt (ha : a < 10 ^ width) (hb : b < 10 ^ width) :
    fixed width a < fixed width b ↔ a < b := by
  induction width generalizing a b with
  | zero =>
    refine iff_of_false (not_lt_nil _) ?_
    omega
  | succ width ih =>
    have hfront : fixed width (a / 10) < fixed width (b / 10) ↔ a / 10 < b / 10 :=
      ih (by omega) (by omega)
    have heq : fixed width (a / 10) = fixed width (b / 10) ↔ a / 10 = b / 10 :=
      ⟨fixed_inj (by omega) (by omega), fun h => by rw [h]⟩
    rw [fixed, fixed, append_lt_append (by rw [length_fixed, length_fixed]), hfront, heq,
      cons_lt_cons_iff, digitChar_lt (mod_lt a (by decide)) (mod_lt b (by decide))]
    have hnil := not_lt_nil ([] : List Char)
    constructor
    · rintro (h | ⟨h, h' | h'⟩)
      · omega
      · omega
      · exact absurd h'.2 hnil
    · intro h
      by_cases hten : a / 10 < b / 10
      · exact .inl hten
      · exact .inr ⟨by omega, .inl (by omega)⟩

theorem fixed_zero (width : Nat) : fixed width 0 = List.replicate width '0' := by
  induction width with
  | zero => rfl
  | succ width ih =>
    rw [fixed, Nat.zero_div, ih, replicate_succ']
    rfl

theorem toList_padStart {n : Nat} (hwidth : 0 < width) (h : n < 10 ^ width) :
    (Js.padStart width n).toList = fixed width n := by
  have hshow (width n : Nat) : (Js.padStart width n).toList =
      replicate (width - (toDigits 10 n).length) '0' ++ toDigits 10 n := by
    have htext : (toString n).toList = toDigits 10 n := toList_repr
    unfold Js.padStart
    rw [String.toList_append, String.toList_ofList, ← String.length_toList, htext]
  obtain ⟨width, rfl⟩ : ∃ k, width = k + 1 := ⟨width - 1, by omega⟩
  clear hwidth
  rw [hshow]
  induction width generalizing n with
  | zero =>
    have hsmall : n < 10 := h
    rw [toDigits_of_lt_base hsmall, fixed, fixed, mod_eq_of_lt hsmall]
    rfl
  | succ width ih =>
    by_cases hsmall : n < 10
    · rw [toDigits_of_lt_base hsmall, fixed, div_eq_of_lt hsmall, fixed_zero, mod_eq_of_lt hsmall]
      rfl
    · have hrest := ih (n := n / 10) (by omega)
      rw [toDigits_of_base_le (by decide) (by omega), fixed, ← hrest, append_assoc,
        length_append, length_singleton, Nat.add_sub_add_right]

/-- `YYYY-MM-DD` -/
def isoChars (year month day : Nat) : List Char :=
  fixed 4 year ++ ('-' :: (fixed 2 month ++ ('-' :: fixed 2 day)))

theorem isoChars_lt {y m d y' m' d' : Nat} (hy : y < 10000) (hm : m < 100) (hd : d < 100)
    (hy' : y' < 10000) (hm' : m' < 100) (hd' : d' < 100) :
    isoChars y m d < isoChars y' m' d' ↔ y < y' ∨ (y = y' ∧ (m < m' ∨ (m = m' ∧ d < d'))) := by
  have hyear : fixed 4 y < fixed 4 y' ↔ y < y' := fixed_lt hy hy'
  have hmonth : fixed 2 m < fixed 2 m' ↔ m < m' := fixed_lt hm hm'
  have hday : fixed 2 d < fixed 2 d' ↔ d < d' := fixed_lt hd hd'
  have hyears : fixed 4 y = fixed 4 y' ↔ y = y' := ⟨fixed_inj hy hy', fun h => by rw [h]⟩
  have hmon : fixed 2 m = fixed 2 m' ↔ m = m' := ⟨fixed_inj hm hm', fun h => by rw [h]⟩
  have hdash (l l' : List Char) : '-' :: l < '-' :: l' ↔ l < l' := by
    rw [cons_lt_cons_iff]
    exact ⟨fun h => (h.resolve_left (lt_irrefl _)).2, fun h => .inr ⟨rfl, h⟩⟩
  unfold isoChars
  rw [append_lt_append (by rw [length_fixed, length_fixed]), hyear, hyears, hdash,
    append_lt_append (by rw [length_fixed, length_fixed]), hmonth, hmon, hdash, hday]

end Rgnr8.Lib
