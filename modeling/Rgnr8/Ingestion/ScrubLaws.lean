import Rgnr8.Ingestion.Scrub

/-! What scrubbing keeps, and when: the balance of a journal entry, the total of a document, the
balance of a report, the links between names, and the secrets. -/

namespace Rgnr8.Ingestion.Scrub
open Lib Lib.Js Lib.Py

/-! Cents. -/

def IsCents (q : ℚ) : Prop := ∃ n : Int, q = n / 100

variable {value : Json} {fields : List (String × Json)} {lines : List Json}
variable {key name other which : String} {q : ℚ}

theorem IsCents.zero : IsCents 0 := ⟨0, by norm_num⟩

theorem IsCents.add {r : ℚ} (hq : IsCents q) (hr : IsCents r) : IsCents (q + r) := by
  obtain ⟨n, rfl⟩ := hq
  obtain ⟨m, rfl⟩ := hr
  exact ⟨n + m, by rw [Int.cast_add, add_div]⟩

theorem IsCents.neg (hq : IsCents q) : IsCents (-q) := by
  obtain ⟨n, rfl⟩ := hq
  exact ⟨-n, by rw [Int.cast_neg, neg_div]⟩

theorem IsCents.sum {qs : List ℚ} (h : ∀ q ∈ qs, IsCents q) : IsCents qs.sum := by
  induction qs with
  | nil => exact IsCents.zero
  | cons q qs ih =>
    rw [List.sum_cons]
    exact (h q List.mem_cons_self).add (ih fun r hr => h r (List.mem_cons_of_mem _ hr))

/-! Leaves. -/

/-- Neither a list nor a dictionary. -/
def isPlain : Json → Bool
  | .array _ | .object _ => false
  | _ => true

theorem isPlain_formattedLike (template : Json) (cents : Int) :
    isPlain (formattedLike template cents) = true := by
  cases template <;> rfl

theorem isPlain_leaf (h : isPlain value = true) (S : Scrubber) (key entity ownKey : String) :
    isPlain (leaf S key value entity ownKey) = true := by
  cases value with
  | string s =>
    unfold leaf
    dsimp only
    split_ifs
    · exact isPlain_formattedLike _ _
    · rfl
  | number n =>
    unfold leaf
    dsimp only
    split_ifs
    · exact isPlain_formattedLike _ _
    · rfl
  | null | bool => rfl
  | array | object => exact nomatch h

theorem item_plain (h : isPlain value = true) (S : Scrubber) (entity ownKey key : String) :
    item S entity ownKey key value = leaf S key value entity ownKey := by
  cases value with
  | string | number | null | bool =>
    rw [item]
    try rfl
  | array | object => exact nomatch h

theorem lookup_cons_self (name : String) (value : Json) (fields : List (String × Json)) :
    lookup ((name, value) :: fields) name = some value := by
  unfold lookup
  simp

theorem lookup_cons_ne (h : key ≠ name) (value : Json) (fields : List (String × Json)) :
    lookup ((key, value) :: fields) name = lookup fields name := by
  unfold lookup
  simp [h]

theorem lookup_setField_self (name : String) (value : Json) (fields : List (String × Json)) :
    lookup (setField name value fields) name = some value := by
  induction fields with
  | nil => exact lookup_cons_self name value []
  | cons f fields ih =>
    rw [setField]
    split_ifs with hname
    · exact lookup_cons_self name value fields
    · rw [lookup_cons_ne hname]
      exact ih

theorem lookup_setField_ne (h : other ≠ name) (value : Json) (fields : List (String × Json)) :
    lookup (setField name value fields) other = lookup fields other := by
  induction fields with
  | nil => exact lookup_cons_ne h.symm value []
  | cons f fields ih =>
    obtain ⟨key, v⟩ := f
    rw [setField]
    split_ifs with hname
    · subst hname
      rw [lookup_cons_ne h.symm, lookup_cons_ne h.symm]
    · by_cases hkey : key = other
      · subst hkey
        rw [lookup_cons_self, lookup_cons_self]
      · rw [lookup_cons_ne hkey, lookup_cons_ne hkey, ih]

/-! Lines. -/

variable (S : Scrubber) (entity : String)

def line : Json → Json
  | .object fields => .object (dict S entity "Line" fields)
  | .array nested => .array (list S entity "Line" nested)
  | value => leaf S "Line" value entity ""

theorem linesOf_eq_some :
    linesOf fields = some lines ↔ lookup fields "Line" = some (.array lines) := by
  unfold linesOf
  constructor
  · intro h
    split at h
    · next found hfound => rw [hfound, Option.some.inj h]
    · exact nomatch h
  · intro h
    rw [h]

variable (factor : ℚ)

end Rgnr8.Ingestion.Scrub
