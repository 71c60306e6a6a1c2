import Mathlib.Data.Nat.Basic
import Mathlib.Tactic.Common

/-! Forests given by the parent of each node. A node that has a level is on no cycle. -/

namespace Rgnr8.Lib
variable {α : Type} {parent parent' : α → Option α} {a b c p : α} {n k : Nat}

inductive Level (parent : α → Option α) : α → Nat → Prop
  | root {a : α} (h : parent a = none) : Level parent a 1
  | sub {a p : α} {n : Nat} (h : parent a = some p) (hp : Level parent p n) : Level parent a (n + 1)

/-- The second node is `k` levels under the first. -/
inductive Below (parent : α → Option α) (a : α) : α → Nat → Prop
  | self : Below parent a a 0
  | sub {b p : α} {k : Nat} (h : parent b = some p) (hp : Below parent a p k) :
    Below parent a b (k + 1)

theorem Level.pos (h : Level parent a n) : 0 < n := by
  cases h <;> exact Nat.succ_pos _

theorem Level.unique (h : Level parent a n) (h' : Level parent a k) : n = k := by
  induction h generalizing k with
  | root hroot =>
    cases h' with
    | root => rfl
    | sub hpar => cases hroot.symm.trans hpar
  | sub hpar hp ih =>
    cases h' with
    | root hroot => cases hpar.symm.trans hroot
    | sub hpar' hp' =>
      obtain rfl := Option.some.inj (hpar.symm.trans hpar')
      rw [ih hp']

theorem Below.level (h : Below parent a b k) (ha : Level parent a n) :
    Level parent b (n + k) := by
  induction h with
  | self => exact ha
  | sub hpar hp ih => exact .sub hpar ih

theorem Below.eq_zero (h : Below parent a a k) (ha : Level parent a n) : k = 0 := by
  have heq := ha.unique (h.level ha)
  omega

theorem Below.child (h : Below parent a b (k + 1)) :
    ∃ c, parent c = some a ∧ Below parent c b k := by
  induction k generalizing b with
  | zero =>
    cases h with
    | sub hpar hp =>
      cases hp
      exact ⟨b, hpar, .self⟩
  | succ k ih =>
    cases h with
    | sub hpar hp =>
      obtain ⟨c, hc, hbelow⟩ := ih hp
      exact ⟨c, hc, .sub hpar hbelow⟩

section
variable (hsame : ∀ b, b ≠ a → parent' b = parent b)
include hsame

theorem Level.unmoved (h : Level parent b n) (hnot : ∀ k, ¬ Below parent a b k) :
    Level parent' b n := by
  induction h with
  | @root b hroot =>
    have hne : b ≠ a := by
      rintro rfl
      exact hnot 0 .self
    exact .root ((hsame b hne).trans hroot)
  | @sub b p n hpar hp ih =>
    have hne : b ≠ a := by
      rintro rfl
      exact hnot 0 .self
    exact .sub ((hsame b hne).trans hpar) (ih fun k hk => hnot (k + 1) (.sub hpar hk))

theorem Level.moved (ha : Level parent' a n) {m : Nat} (h : Level parent b m) :
    (∃ k, Below parent a b k ∧ Level parent' b (n + k)) ∨
      ((∀ k, ¬ Below parent a b k) ∧ Level parent' b m) := by
  induction h with
  | @root b hroot =>
    by_cases hne : b = a
    · subst hne
      exact .inl ⟨0, .self, ha⟩
    · refine .inr ⟨fun k hk => ?_, .root ((hsame b hne).trans hroot)⟩
      cases hk with
      | self => exact hne rfl
      | sub hpar => cases hroot.symm.trans hpar
  | @sub b p m hpar hp ih =>
    by_cases hne : b = a
    · subst hne
      exact .inl ⟨0, .self, ha⟩
    · have hpar' : parent' b = some p := (hsame b hne).trans hpar
      rcases ih with ⟨k, hk, hlvl⟩ | ⟨hnot, hlvl⟩
      · exact .inl ⟨k + 1, .sub hpar hk, .sub hpar' hlvl⟩
      · refine .inr ⟨fun k hk => ?_, .sub hpar' hlvl⟩
        cases hk with
        | self => exact hne rfl
        | sub hpar₂ hp₂ =>
          obtain rfl := Option.some.inj (hpar.symm.trans hpar₂)
          exact hnot _ hp₂

/-- Hung under a node that is not under it, or made a root, a node and what is under it take their
levels from there; the other nodes keep theirs. -/
theorem level_le_of_moved {bound height : Nat} (hlev : ∀ b, ∃ m ≤ bound, Level parent b m)
    (hheig : ∀ b k, Below parent a b k → k ≤ height) (ha : Level parent' a n)
    (hfits : n + height ≤ bound) (b : α) : ∃ m ≤ bound, Level parent' b m := by
  obtain ⟨m, hm, hlvl⟩ := hlev b
  rcases Level.moved hsame ha hlvl with ⟨k, hk, hmov⟩ | ⟨-, hstays⟩
  · have hle := hheig b k hk
    exact ⟨n + k, by omega, hmov⟩
  · exact ⟨m, hm, hstays⟩

end
end Rgnr8.Lib
