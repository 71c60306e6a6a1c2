import Mathlib.Data.List.Infix
import Mathlib.Tactic.Common

/-! The LIKE of SQL, for patterns without an escape: `%` stands for any run of characters and `_`
for any one. Which characters are the same letter differs between the engines. -/

namespace Rgnr8.Lib.Like
variable (same : Char → Char → Bool)

/-- `text LIKE pattern`. -/
def like : List Char → List Char → Bool
  | [], text => text.isEmpty
  | c :: pattern, text =>
    if c = '%' then text.tails.any fun rest => like pattern rest
    else match text with
      | [] => false
      | d :: text => (c = '_' || same c d) && like pattern text

/-- `text` begins with what `pattern`, which has no `%`, stands for. -/
def beginsLike : List Char → List Char → Bool
  | [], _ => true
  | _ :: _, [] => false
  | c :: pattern, d :: text => (c = '_' || same c d) && beginsLike pattern text

variable {same} {pattern text : List Char}

theorem like_percent (h : '%' ∉ pattern) :
    like same (pattern ++ ['%']) text = beginsLike same pattern text := by
  induction pattern generalizing text with
  | nil =>
    have hnil : text.tails.any (fun rest => like same [] rest) = true :=
      List.any_eq_true.mpr ⟨[], (List.mem_tails _ _).mpr List.nil_suffix, rfl⟩
    rw [List.nil_append, like.eq_def, beginsLike]
    exact hnil
  | cons c pattern ih =>
    rw [List.mem_cons, not_or] at h
    rw [List.cons_append, like.eq_def]
    cases text with
    | nil => exact if_neg (Ne.symm h.1)
    | cons d text =>
      refine (if_neg (Ne.symm h.1)).trans ?_
      rw [beginsLike, ← ih h.2]

theorem beginsLike_of_prefix (hsame : ∀ c, same c c = true) (h : pattern <+: text) :
    beginsLike same pattern text = true := by
  induction pattern generalizing text with
  | nil => rw [beginsLike]
  | cons c pattern ih =>
    obtain ⟨rest, rfl⟩ := h
    rw [List.cons_append, beginsLike, hsame, Bool.or_true, Bool.true_and]
    exact ih (List.prefix_append pattern rest)

end Rgnr8.Lib.Like
