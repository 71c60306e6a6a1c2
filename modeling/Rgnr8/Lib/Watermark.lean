import Mathlib.Order.MinMax
import Mathlib.Algebra.Order.Ring.Int

/-! A level watched day by day against a floor: the lowest it has been, the first day it is below
the floor, the day it is back after the last such day, and the widest gap. -/

namespace Rgnr8.Lib
variable {δ : Type}

structure Watch (δ : Type) where
  low : Int
  lowAt : δ
  firstBelow : Option δ
  recovered : Option δ
  worst : Int

namespace Watch

def start (level : Int) (day : δ) : Watch δ := ⟨level, day, none, none, 0⟩

def see (floor : Int) (w : Watch δ) (day : δ) (level : Int) : Watch δ where
  low := if level < w.low then level else w.low
  lowAt := if level < w.low then day else w.lowAt
  firstBelow := if level < floor then w.firstBelow.or (some day) else w.firstBelow
  recovered := if level < floor then none
    else if w.firstBelow.isSome ∧ w.recovered = none then some day else w.recovered
  worst := if level < floor then max w.worst (floor - level) else w.worst

variable (floor : Int) (days : Nat → δ) (level : Nat → Int)

/-- After the first `n` days. -/
def after (w : Watch δ) : Nat → Watch δ
  | 0 => w
  | n + 1 => (after w n).see floor (days n) (level n)

variable {floor : Int} {days : Nat → δ} {level : Nat → Int} {opening : Int} {day : δ}

theorem forall_lt_succ {p : Nat → Prop} {n : Nat} : (∀ i < n + 1, p i) ↔ (∀ i < n, p i) ∧ p n := by
  simp only [Nat.lt_succ_iff_lt_or_eq, or_imp, forall_and, forall_eq]

variable (floor days level opening day)

theorem low_after (n : Nat) :
    let w := after floor days level (start opening day) n
    w.low ≤ opening ∧ (∀ i < n, w.low ≤ level i) ∧
      ((w.low = opening ∧ w.lowAt = day) ∨ ∃ i < n, w.low = level i ∧ w.lowAt = days i) := by
  induction n with
  | zero => exact ⟨le_rfl, fun i hi => absurd hi (Nat.not_lt_zero i), .inl ⟨rfl, rfl⟩⟩
  | succ n ih =>
    obtain ⟨hopn, hall, hatt⟩ := ih
    simp only [after, see, forall_lt_succ]
    by_cases h : level n < (after floor days level (start opening day) n).low
    · rw [if_pos h, if_pos h]
      exact ⟨h.le.trans hopn, ⟨fun i hi => h.le.trans (hall i hi), le_rfl⟩,
        .inr ⟨n, n.lt_succ_self, rfl, rfl⟩⟩
    · rw [if_neg h, if_neg h]
      refine ⟨hopn, ⟨hall, not_lt.mp h⟩, hatt.imp_right ?_⟩
      rintro ⟨i, hi, hlow⟩
      exact ⟨i, hi.trans n.lt_succ_self, hlow⟩

theorem firstBelow_after (n : Nat) :
    let w := after floor days level (start opening day) n
    (w.firstBelow = none ∧ ∀ i < n, floor ≤ level i) ∨
      ∃ i < n, w.firstBelow = some (days i) ∧ level i < floor ∧ ∀ j < i, floor ≤ level j := by
  induction n with
  | zero => exact .inl ⟨rfl, fun i hi => absurd hi (Nat.not_lt_zero i)⟩
  | succ n ih =>
    simp only [after, see, forall_lt_succ]
    rcases ih with ⟨hnone, hall⟩ | ⟨i, hi, hsome, hbelow, hbef⟩
    · by_cases h : level n < floor
      · rw [if_pos h, hnone]
        exact .inr ⟨n, n.lt_succ_self, rfl, h, hall⟩
      · rw [if_neg h]
        exact .inl ⟨hnone, hall, not_lt.mp h⟩
    · refine .inr ⟨i, hi.trans n.lt_succ_self, ?_, hbelow, hbef⟩
      rw [hsome]
      split_ifs <;> rfl

theorem recovered_after (n : Nat) :
    let w := after floor days level (start opening day) n
    (w.recovered = none ∧ ∀ i < n, floor ≤ level i) ∨
      ∃ i < n, level i < floor ∧ (∀ j, i < j → j < n → floor ≤ level j) ∧
        w.recovered = if i + 1 < n then some (days (i + 1)) else none := by
  induction n with
  | zero => exact .inl ⟨rfl, fun i hi => absurd hi (Nat.not_lt_zero i)⟩
  | succ n ih =>
    have hfst := firstBelow_after floor days level opening day n
    simp only [after, see, forall_lt_succ]
    by_cases h : level n < floor
    · refine .inr ⟨n, n.lt_succ_self, h, fun j hj hj' => absurd hj' (by omega), ?_⟩
      rw [if_pos h, if_neg (lt_irrefl _)]
    · rw [if_neg h]
      rcases ih with ⟨hnone, hall⟩ | ⟨i, hi, hbelow, hlater, hrec⟩
      · refine .inl ⟨?_, hall, not_lt.mp h⟩
        rcases hfst with ⟨hfst, -⟩ | ⟨i, hi, -, hbelow, -⟩
        · rw [hfst, hnone]
          rfl
        · exact absurd (hall i hi) (not_le.mpr hbelow)
      · refine .inr ⟨i, hi.trans n.lt_succ_self, hbelow, fun j hj hj' => ?_, ?_⟩
        · rcases Nat.lt_succ_iff_lt_or_eq.mp hj' with hj' | rfl
          · exact hlater j hj hj'
          · exact not_lt.mp h
        · have hsome : (after floor days level (start opening day) n).firstBelow.isSome := by
            rcases hfst with ⟨-, hall⟩ | ⟨k, -, hsome, -⟩
            · exact absurd (hall i hi) (not_le.mpr hbelow)
            · rw [hsome]
              rfl
          rw [hrec, if_pos (Nat.succ_lt_succ hi)]
          -- the level is back today, or was back before
          rcases Nat.lt_or_ge (i + 1) n with hlt | hge
          · rw [if_pos hlt]
            exact if_neg fun hboth => nomatch hboth.2
          · have hlast : i + 1 = n := by omega
            rw [if_neg (Nat.not_lt.mpr hge), if_pos ⟨hsome, rfl⟩, hlast]

theorem worst_after (n : Nat) :
    let w := after floor days level (start opening day) n
    0 ≤ w.worst ∧ (∀ i < n, floor - level i ≤ w.worst) ∧
      (w.worst = 0 ∨ ∃ i < n, level i < floor ∧ w.worst = floor - level i) := by
  induction n with
  | zero => exact ⟨le_rfl, fun i hi => absurd hi (Nat.not_lt_zero i), .inl rfl⟩
  | succ n ih =>
    obtain ⟨hnn, hall, hatt⟩ := ih
    have hkept : ∀ {v : Int}, (v = 0 ∨ ∃ i < n, level i < floor ∧ v = floor - level i) →
        v = 0 ∨ ∃ i < n + 1, level i < floor ∧ v = floor - level i := by
      rintro v (hzero | ⟨i, hi, hv⟩)
      · exact .inl hzero
      · exact .inr ⟨i, hi.trans n.lt_succ_self, hv⟩
    simp only [after, see, forall_lt_succ]
    by_cases h : level n < floor
    · rw [if_pos h]
      refine ⟨hnn.trans (le_max_left _ _),
        ⟨fun i hi => (hall i hi).trans (le_max_left _ _), le_max_right _ _⟩, ?_⟩
      rcases max_choice (after floor days level (start opening day) n).worst (floor - level n) with
        hmax | hmax
      · rw [hmax]
        exact hkept hatt
      · exact .inr ⟨n, n.lt_succ_self, h, hmax⟩
    · rw [if_neg h]
      exact ⟨hnn, ⟨hall, by omega⟩, hkept hatt⟩

end Watch
end Rgnr8.Lib
