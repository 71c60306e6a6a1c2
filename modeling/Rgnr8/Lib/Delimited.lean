import Mathlib

/-! Texts joined with delimiters, and when the pieces can be read back: a one-character delimiter
must not occur in them; a doubled one must not occur in them, nor arise at their end. -/

namespace Rgnr8.Lib
open List

def Free (c : Char) (s : String) : Prop := c ∉ s.toList

/-- No two adjacent `c` in `s`, and no `c` at its end. -/
def Undoubled (c : Char) (s : String) : Prop :=
  (s.toList ++ [c]).IsChain fun x y => x ≠ c ∨ y ≠ c

instance (c : Char) (s : String) : Decidable (Free c s) := inferInstanceAs (Decidable (_ ∉ _))

instance (c : Char) (s : String) : Decidable (Undoubled c s) :=
  inferInstanceAs (Decidable (List.IsChain _ _))

section
variable {c d : Char} {sep a a' b r r' : String}

theorem free_append : Free c (a ++ b) ↔ Free c a ∧ Free c b := by
  simp only [Free, String.toList_append, mem_append, not_or]

variable {pieces : List String}

theorem free_intercalate (hsep : Free c sep) (h : ∀ p ∈ pieces, Free c p) :
    Free c (sep.intercalate pieces) := by
  induction pieces with
  | nil => exact not_mem_nil
  | cons p pieces ih =>
    rw [forall_mem_cons] at h
    cases pieces with
    | nil => rw [String.intercalate_singleton]; exact h.1
    | cons q pieces =>
      rw [String.intercalate_cons_cons, free_append, free_append]
      exact ⟨⟨h.1, hsep⟩, ih h.2⟩

theorem append_inj_of_free (hsep : sep.toList = [c]) (ha : Free c a) (ha' : Free c a')
    (h : a ++ sep ++ r = a' ++ sep ++ r') : a = a' ∧ r = r' := by
  rw [← String.toList_inj] at h ⊢
  rw [← String.toList_inj]
  simp only [String.toList_append, hsep, append_assoc, singleton_append] at h
  -- either piece is what stands before the first delimiter
  have htake {l r : List Char} (hl : c ∉ l) : (l ++ c :: r).takeWhile (· ≠ c) = l := by
    rw [takeWhile_append_of_pos fun x hx => decide_eq_true (ne_of_mem_of_not_mem hx hl),
      takeWhile_cons_of_neg (by simp), append_nil]
  have hsame : a.toList = a'.toList := by rw [← htake ha, h, htake ha']
  rw [hsame, append_cancel_left_eq] at h
  exact ⟨hsame, (cons.inj h).2⟩

theorem append_inj_of_free_last (hsep : sep.toList = [c]) (hr : Free c r) (hr' : Free c r')
    (h : a ++ sep ++ r = a' ++ sep ++ r') : a = a' ∧ r = r' := by
  rw [← String.toList_inj] at h ⊢
  rw [← String.toList_inj]
  simp only [String.toList_append, hsep, append_assoc, singleton_append] at h
  -- past the shorter of the two pieces in front, the other rest would hold the delimiter
  rcases append_eq_append_iff.mp h with ⟨as, h1, h2⟩ | ⟨as, h1, h2⟩
  · cases as with
    | nil => exact ⟨by rw [h1, append_nil], (cons.inj h2).2⟩
    | cons x as =>
      have hmem : c ∈ r.toList := (cons.inj h2).2 ▸ mem_append_right _ mem_cons_self
      exact absurd hmem hr
  · cases as with
    | nil => exact ⟨by rw [h1, append_nil], (cons.inj h2).2.symm⟩
    | cons x as =>
      have hmem : c ∈ r'.toList := (cons.inj h2).2 ▸ mem_append_right _ mem_cons_self
      exact absurd hmem hr'

theorem not_undoubled_of_append {as : List Char} (h : a.toList ++ as = a'.toList)
    (has : ∃ r r', c :: c :: r = as ++ c :: c :: r') (hne : as ≠ []) : ¬ Undoubled c a' := by
  obtain ⟨r, r', hr⟩ := has
  intro hu
  rw [Undoubled, ← h] at hu
  cases as with
  | nil => exact hne rfl
  | cons x as =>
    rw [cons_append, cons.injEq] at hr
    obtain ⟨rfl, hr⟩ := hr
    have hchain := (isChain_append.mp (append_assoc .. ▸ hu)).2.1
    cases as with
    | nil => simp at hchain
    | cons y as =>
      rw [cons_append, cons.injEq] at hr
      simp [← hr.1] at hchain

theorem append_inj_of_undoubled (hsep : sep.toList = [c, c]) (ha : Undoubled c a)
    (ha' : Undoubled c a') (h : a ++ sep ++ r = a' ++ sep ++ r') : a = a' ∧ r = r' := by
  rw [← String.toList_inj] at h ⊢
  rw [← String.toList_inj]
  simp only [String.toList_append, hsep, append_assoc, cons_append, nil_append] at h
  -- a longer piece would hold both characters of the delimiter, or end in the first of them
  rcases append_eq_append_iff.mp h with ⟨as, h1, h2⟩ | ⟨as, h1, h2⟩
  · by_cases has : as = []
    · subst has
      simp_all
    · exact absurd ha' (not_undoubled_of_append h1.symm ⟨_, _, h2⟩ has)
  · by_cases has : as = []
    · subst has
      simp_all
    · exact absurd ha (not_undoubled_of_append h1.symm ⟨_, _, h2⟩ has)

theorem undoubled_append (hsep : sep.toList = [d]) (hd : d ≠ c) (ha : Undoubled c a)
    (hb : Undoubled c b) : Undoubled c (a ++ sep ++ b) := by
  rw [Undoubled] at ha hb ⊢
  have ha' := (isChain_append.mp ha).1
  simp only [String.toList_append, hsep, append_assoc]
  refine isChain_append.mpr ⟨ha', ?_, ?_⟩
  · refine isChain_append.mpr ⟨isChain_singleton _, hb, ?_⟩
    intro x hx y _
    simp only [getLast?_singleton, Option.mem_some_iff] at hx
    exact .inl (hx ▸ hd)
  · intro x _ y hy
    simp only [singleton_append, head?_cons, Option.mem_some_iff] at hy
    exact .inr (hy ▸ hd)

theorem undoubled_intercalate (hsep : sep.toList = [d]) (hd : d ≠ c)
    (h : ∀ p ∈ pieces, Undoubled c p) : Undoubled c (sep.intercalate pieces) := by
  induction pieces with
  | nil => exact isChain_singleton _
  | cons p pieces ih =>
    rw [forall_mem_cons] at h
    cases pieces with
    | nil => rw [String.intercalate_singleton]; exact h.1
    | cons q pieces =>
      rw [String.intercalate_cons_cons]
      exact undoubled_append hsep hd h.1 (ih h.2)

theorem intercalate_inj_of_free {ls ls' : List String} (hsep : sep.toList = [c])
    (h : ∀ p ∈ ls, Free c p) (h' : ∀ p ∈ ls', Free c p) (hne : ls ≠ []) (hne' : ls' ≠ [])
    (heq : sep.intercalate ls = sep.intercalate ls') : ls = ls' := by
  rw [← String.toList_inj, String.toList_intercalate, String.toList_intercalate, hsep] at heq
  have hsplit : ∀ {ls : List String}, (∀ p ∈ ls, Free c p) → ls ≠ [] →
      ([c].intercalate (ls.map String.toList)).splitOn c = ls.map String.toList := by
    intro ls h hne
    refine splitOn_intercalate c (fun p hp => ?_) (by simpa using hne)
    obtain ⟨q, hq, rfl⟩ := mem_map.mp hp
    exact h q hq
  have hmap := congrArg (splitOn c) heq
  rw [hsplit h hne, hsplit h' hne'] at hmap
  exact map_injective_iff.mpr (fun _ _ => String.toList_inj.mp) hmap

theorem intercalate_ne_empty {p : String} (hp : p ≠ "") : sep.intercalate (p :: pieces) ≠ "" := by
  intro h
  rw [← String.toList_inj] at h
  have hp' : p.toList ≠ [] := fun he => hp (String.toList_inj.mp he)
  cases pieces with
  | nil => rw [String.intercalate_singleton] at h; exact hp' h
  | cons q pieces =>
    rw [String.intercalate_cons_cons] at h
    simp only [String.toList_append, String.toList_empty, append_eq_nil_iff] at h
    exact hp' h.1.1

theorem intercalate_inj_of_ne_empty {ls ls' : List String} (hsep : sep.toList = [c])
    (h : ∀ p ∈ ls, Free c p ∧ p ≠ "") (h' : ∀ p ∈ ls', Free c p ∧ p ≠ "")
    (heq : sep.intercalate ls = sep.intercalate ls') : ls = ls' := by
  cases ls with
  | nil =>
    cases ls' with
    | nil => rfl
    | cons p' ls' => exact absurd heq.symm (intercalate_ne_empty (h' p' mem_cons_self).2)
  | cons p ls =>
    cases ls' with
    | nil => exact absurd heq (intercalate_ne_empty (h p mem_cons_self).2)
    | cons p' ls' =>
      exact intercalate_inj_of_free hsep (fun q hq => (h q hq).1) (fun q hq => (h' q hq).1)
        (cons_ne_nil _ _) (cons_ne_nil _ _) heq

end

theorem free_toString_int {c : Char} (hdig : c.isDigit = false) (hsign : c ≠ '-') (n : Int) :
    Free c (toString n) := by
  have hnat : ∀ m : Nat, Free c m.repr := by
    intro m hm
    rw [Nat.repr, String.toList_ofList] at hm
    rw [Nat.isDigit_of_mem_toDigits (by decide) (by decide) hm] at hdig
    cases hdig
  rw [Int.toString_eq_repr]
  cases n with
  | ofNat m => exact hnat m
  | negSucc m =>
    rw [show (Int.negSucc m).repr = "-" ++ m.succ.repr from rfl, free_append]
    exact ⟨fun h => hsign (by simpa using h), hnat _⟩

end Rgnr8.Lib
