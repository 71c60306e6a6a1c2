import Mathlib.Algebra.BigOperators.Group.List.Basic
import Mathlib.Data.List.Nodup
import Mathlib.Algebra.Order.Ring.Int
import Mathlib.Algebra.BigOperators.Group.Finset.Basic
import Mathlib.Data.List.Perm.Basic

/-! Finite maps in insertion order: a new key goes to the end, a known key keeps its place.
The distinctness of the keys is part of the type. -/

namespace Rgnr8.Lib
open List

structure OrderedMap (κ α : Type) where
  entries : List (κ × α)
  nodup : (entries.map Prod.fst).Nodup
  deriving DecidableEq

namespace OrderedMap
variable {κ α : Type}

def empty : OrderedMap κ α := ⟨[], List.nodup_nil⟩

def keys (m : OrderedMap κ α) : List κ := m.entries.map Prod.fst

def values (m : OrderedMap κ α) : List α := m.entries.map Prod.snd

variable (f : κ → α → Int)

def total (m : OrderedMap κ α) : Int := (m.entries.map fun e => f e.1 e.2).sum

@[simp] theorem total_empty : (empty : OrderedMap κ α).total f = 0 := rfl

variable [DecidableEq κ]

def get? (m : OrderedMap κ α) (k : κ) : Option α :=
  (m.entries.find? (fun e => e.1 = k)).map Prod.snd

/-- Overwrite the entry of `k` in place, or add one at the end. -/
def put : List (κ × α) → κ → α → List (κ × α)
  | [], k, a => [(k, a)]
  | e :: es, k, a => if e.1 = k then (k, a) :: es else e :: put es k a

variable {m : OrderedMap κ α} {k : κ}

theorem put_cons_self {e : κ × α} (h : e.1 = k) (es : List (κ × α)) (a : α) :
    put (e :: es) k a = (k, a) :: es := if_pos h

theorem put_cons_ne {e : κ × α} (h : e.1 ≠ k) (es : List (κ × α)) (a : α) :
    put (e :: es) k a = e :: put es k a := if_neg h

theorem mem_put_key {es : List (κ × α)} {j : κ} {a : α} :
    j ∈ (put es k a).map Prod.fst ↔ j = k ∨ j ∈ es.map Prod.fst := by
  induction es with
  | nil => simp only [put, map_cons, map_nil, mem_singleton, not_mem_nil, or_false]
  | cons e es ih =>
    by_cases h : e.1 = k
    · rw [put_cons_self h, map_cons, map_cons, mem_cons, mem_cons, h]
      exact or_iff_right_of_imp Or.inl |>.symm
    · rw [put_cons_ne h, map_cons, map_cons, mem_cons, mem_cons, ih]
      exact or_left_comm

theorem nodup_put {es : List (κ × α)} (h : (es.map Prod.fst).Nodup) (k : κ) (a : α) :
    ((put es k a).map Prod.fst).Nodup := by
  induction es with
  | nil => exact nodup_singleton _
  | cons e es ih =>
    rw [map_cons, nodup_cons] at h
    by_cases hk : e.1 = k
    · rw [put_cons_self hk, map_cons, nodup_cons]
      exact ⟨hk ▸ h.1, h.2⟩
    · rw [put_cons_ne hk, map_cons, nodup_cons, mem_put_key, not_or]
      exact ⟨⟨hk, h.1⟩, ih h.2⟩

def set (m : OrderedMap κ α) (k : κ) (a : α) : OrderedMap κ α :=
  ⟨put m.entries k a, nodup_put m.nodup k a⟩

def filter (p : κ → α → Bool) (m : OrderedMap κ α) : OrderedMap κ α :=
  ⟨m.entries.filter (fun e => p e.1 e.2), by
    have h : (m.entries.filter (fun e => p e.1 e.2)).Sublist m.entries := List.filter_sublist
    exact m.nodup.sublist (h.map Prod.fst)⟩

@[simp] theorem get?_empty (k : κ) : (empty : OrderedMap κ α).get? k = none := rfl

theorem find?_put (es : List (κ × α)) (k j : κ) (a : α) :
    ((put es k a).find? (fun e => e.1 = j)).map Prod.snd =
      if j = k then some a else (es.find? (fun e => e.1 = j)).map Prod.snd := by
  induction es with
  | nil => by_cases h : k = j <;> simp [put, h, eq_comm]
  | cons e es ih =>
    by_cases hk : e.1 = k
    · by_cases hj : j = k
      · simp [put, hk, hj]
      · have hkj : ¬ k = j := fun h => hj h.symm
        simp [put, hk, hj, hkj]
    · by_cases hj : e.1 = j
      · have hjk : ¬ j = k := fun h => hk (hj.trans h)
        simp [put, hj, hjk]
      · simp only [put_cons_ne hk, find?_cons, hj, decide_false, ih]

@[simp] theorem get?_set (m : OrderedMap κ α) (k j : κ) (a : α) :
    (m.set k a).get? j = if j = k then some a else m.get? j :=
  find?_put m.entries k j a

theorem get?_set_self (m : OrderedMap κ α) (k : κ) (a : α) : (m.set k a).get? k = some a := by
  rw [get?_set, if_pos rfl]

theorem get?_set_ne (m : OrderedMap κ α) {j : κ} (a : α) (h : j ≠ k) :
    (m.set k a).get? j = m.get? j := by
  rw [get?_set, if_neg h]

theorem mem_entries {a : α} : (k, a) ∈ m.entries ↔ m.get? k = some a := by
  obtain ⟨es, hes⟩ := m
  simp only [get?]
  induction es with
  | nil => simp
  | cons e es ih =>
    rw [map_cons, nodup_cons] at hes
    by_cases hk : e.1 = k
    · have hno : (k, a) ∉ es := fun h => hes.1 (hk ▸ mem_map_of_mem (f := Prod.fst) h)
      simp only [mem_cons, hno, or_false, find?_cons, hk, decide_true, Option.map_some,
        Option.some.injEq]
      exact ⟨fun h => by rw [← h], fun h => Prod.ext hk.symm h.symm⟩
    · have hne : (k, a) ≠ e := fun h => hk (h ▸ rfl)
      simp only [mem_cons, hne, false_or, find?_cons, hk, decide_false]
      exact ih hes.2

theorem get?_filter (m : OrderedMap κ α) (p : κ → α → Bool) (k : κ) :
    (m.filter p).get? k = (m.get? k).filter (p k) := by
  ext a
  rw [← mem_entries, Option.filter_eq_some_iff, ← mem_entries]
  exact mem_filter

theorem mem_keys_iff : k ∈ m.keys ↔ ∃ a, m.get? k = some a := by
  simp only [keys, mem_map, ← mem_entries, Prod.exists, exists_and_right, exists_eq_right]

theorem keys_perm_of_get?_eq {m' : OrderedMap κ α} (h : ∀ k, m.get? k = m'.get? k) :
    m.keys.Perm m'.keys := by
  refine (perm_ext_iff_of_nodup m.nodup m'.nodup).mpr fun k => ?_
  rw [← keys, ← keys, mem_keys_iff, mem_keys_iff, h k]

omit [DecidableEq κ] in
theorem sum_values_filter (m : OrderedMap κ α) (p : κ → α → Bool) (f : α → Int) :
    ((m.filter p).values.map f).sum = m.total fun k a => if p k a then f a else 0 := by
  obtain ⟨es, hes⟩ := m
  simp only [values, filter, total]
  clear hes
  induction es with
  | nil => rfl
  | cons e es ih =>
    by_cases h : p e.1 e.2
    · simp only [filter_cons, if_pos h, map_cons, sum_cons, ih]
    · simp only [filter_cons, if_neg h, map_cons, sum_cons, ih, Int.zero_add]

theorem total_set (m : OrderedMap κ α) (k : κ) (a : α) :
    (m.set k a).total f = m.total f - ((m.get? k).map (f k)).getD 0 + f k a := by
  obtain ⟨es, hes⟩ := m
  simp only [total, set, get?]
  clear hes
  induction es with
  | nil => simp [put]
  | cons e es ih =>
    by_cases hk : e.1 = k
    · subst hk
      rw [put_cons_self rfl]
      simp [Int.add_comm]
    · rw [put_cons_ne hk]
      simp only [map_cons, sum_cons, ih, find?_cons, hk, decide_false]
      omega

theorem total_filter {f : κ → α → Int} {p : κ → α → Bool}
    (h : ∀ k a, m.get? k = some a → p k a = false → f k a = 0) :
    (m.filter p).total f = m.total f := by
  have hents : ∀ e ∈ m.entries, p e.1 e.2 = false → f e.1 e.2 = 0 :=
    fun e he => h e.1 e.2 (mem_entries.mp he)
  unfold total filter
  dsimp only
  generalize m.entries = es at hents
  induction es with
  | nil => rfl
  | cons e es ih =>
    rw [forall_mem_cons] at hents
    rcases hkeep : p e.1 e.2 with - | -
    · have hzero := hents.1 hkeep
      simp only [filter_cons, hkeep, Bool.false_eq_true, if_false, map_cons, sum_cons,
        hzero, ih hents.2, Int.zero_add]
    · simp only [filter_cons, hkeep, if_true, map_cons, sum_cons, ih hents.2]

end OrderedMap

/-! Amounts added up under keys, in a map that starts empty. -/

variable {κ α : Type} [DecidableEq κ]

namespace OrderedMap

variable (m : OrderedMap κ Int)

/-- What stands under a key, nothing where it is missing. -/
def at_ (k : κ) : Int := (m.get? k).getD 0

/-- `m[k] = m.get(k, 0) + n`. -/
def add (k : κ) (n : Int) : OrderedMap κ Int := m.set k (m.at_ k + n)

theorem at_add (k j : κ) (n : Int) : (m.add k n).at_ j = m.at_ j + if j = k then n else 0 := by
  unfold add at_
  by_cases h : j = k
  · subst h
    rw [get?_set_self, if_pos rfl]
    rfl
  · rw [get?_set_ne _ _ h, if_neg h, Int.add_zero]

theorem total_add (k : κ) (n : Int) :
    (m.add k n).total (fun _ v => v) = m.total (fun _ v => v) + n := by
  unfold add
  rw [total_set, at_]
  cases m.get? k with
  | none =>
    simp only [Option.map_none, Option.getD_none]
    omega
  | some v =>
    simp only [Option.map_some, Option.getD_some]
    omega

end OrderedMap

def tally (key : α → κ) (amount : α → Int) (m : OrderedMap κ Int) (xs : List α) :
    OrderedMap κ Int := xs.foldl (fun m x => m.add (key x) (amount x)) m

variable {key : α → κ} {amount : α → Int}

theorem at_tally (m : OrderedMap κ Int) (xs : List α) (k : κ) : (tally key amount m xs).at_ k =
    m.at_ k + ((xs.filter fun x => key x = k).map amount).sum := by
  induction xs generalizing m with
  | nil => exact (Int.add_zero _).symm
  | cons x xs ih =>
    have hstep : tally key amount m (x :: xs) = tally key amount (m.add (key x) (amount x)) xs := rfl
    rw [hstep, ih, OrderedMap.at_add, filter_cons]
    by_cases h : key x = k
    · simp only [h, decide_true, if_true, map_cons, sum_cons]
      omega
    · have h' : ¬ k = key x := fun heq => h heq.symm
      simp [h, h']

theorem total_tally (m : OrderedMap κ Int) (xs : List α) :
    (tally key amount m xs).total (fun _ v => v) = m.total (fun _ v => v) + (xs.map amount).sum := by
  induction xs generalizing m with
  | nil => exact (Int.add_zero _).symm
  | cons x xs ih =>
    have hstep : tally key amount m (x :: xs) = tally key amount (m.add (key x) (amount x)) xs := rfl
    rw [hstep, ih, OrderedMap.total_add, map_cons, sum_cons, Int.add_assoc]

theorem foldl_set_eq_tally {m : OrderedMap κ Int} {xs : List α} (hnd : (xs.map key).Nodup)
    (hnew : ∀ x ∈ xs, m.get? (key x) = none) :
    xs.foldl (fun m x => m.set (key x) (amount x)) m = tally key amount m xs := by
  induction xs generalizing m with
  | nil => rfl
  | cons x xs ih =>
    rw [map_cons, nodup_cons] at hnd
    rw [forall_mem_cons] at hnew
    have hadd : m.add (key x) (amount x) = m.set (key x) (amount x) := by
      unfold OrderedMap.add OrderedMap.at_
      rw [hnew.1, Option.getD_none, Int.zero_add]
    unfold tally
    rw [foldl_cons, foldl_cons, hadd]
    refine ih hnd.2 fun x' hx' => ?_
    have hne : key x' ≠ key x := fun h => hnd.1 (mem_map.mpr ⟨x', hx', h⟩)
    rw [OrderedMap.get?_set_ne _ _ hne]
    exact hnew.2 x' hx'

omit [DecidableEq κ] in
theorem sum_filter_decide (p : α → Prop) [DecidablePred p] (f : α → Int) (xs : List α) :
    ((xs.filter fun x => p x).map f).sum = (xs.map fun x => if p x then f x else 0).sum := by
  induction xs with
  | nil => rfl
  | cons x xs ih =>
    rw [filter_cons, map_cons, sum_cons, ← ih]
    by_cases h : p x
    · rw [if_pos (decide_eq_true h), if_pos h, map_cons, sum_cons]
    · rw [if_neg (by rwa [decide_eq_true_iff]), if_neg h, Int.zero_add]

namespace OrderedMap

theorem at_eq_zero {m : OrderedMap κ Int} {k : κ} (h : k ∉ m.keys) : m.at_ k = 0 := by
  unfold at_
  cases hk : m.get? k with
  | none => rfl
  | some n => exact absurd (mem_keys_iff.mpr ⟨n, hk⟩) h

theorem sum_at (m : OrderedMap κ Int) {keys : Finset κ} (h : ∀ k ∈ m.keys, k ∈ keys) :
    ∑ k ∈ keys, m.at_ k = m.total fun _ n => n := by
  have hsub : m.keys.toFinset ⊆ keys := fun k hk => h k (mem_toFinset.mp hk)
  have hnd : m.keys.Nodup := m.nodup
  rw [← Finset.sum_subset hsub fun k _ hk => at_eq_zero fun hmem => hk (mem_toFinset.mpr hmem),
    sum_toFinset _ hnd]
  unfold total OrderedMap.keys
  rw [map_map]
  refine congrArg sum (map_congr_left fun e he => ?_)
  unfold at_
  rw [Function.comp_apply, mem_entries.mp he]
  rfl

end OrderedMap

/-! A map whose keys are joined into one mirrors a table that keeps them apart, as long as no two
rows of the table are joined into one key. What is listed of them agrees once it is sorted, where no
two values are tied. -/

variable {σ ρ : Type}

theorem mergeSort_eq_of_perm {le : α → α → Bool} (htrans : ∀ a b c, le a b → le b c → le a c)
    (htot : ∀ a b, (le a b || le b a) = true) {as bs : List α} (h : as.Perm bs)
    (hties : ∀ a ∈ as, ∀ b ∈ as, le a b → le b a → a = b) : as.mergeSort le = bs.mergeSort le := by
  have hsort (l : List α) : (l.mergeSort le).Pairwise fun a b => le a b = true :=
    pairwise_mergeSort htrans htot l
  have hperm : (as.mergeSort le).Perm (bs.mergeSort le) :=
    ((mergeSort_perm as le).trans h).trans (mergeSort_perm bs le).symm
  refine List.Perm.eq_of_pairwise (fun a b ha hb hab hba => ?_) (hsort as) (hsort bs) hperm
  have ha' : a ∈ as := mem_mergeSort.mp ha
  have hb' : b ∈ as := h.mem_iff.mpr (mem_mergeSort.mp hb)
  exact hties a ha' b hb' hab hba

namespace OrderedMap

omit [DecidableEq κ] in
theorem nodup_entries (m : OrderedMap κ α) : m.entries.Nodup := m.nodup.of_map

theorem entries_perm_of_get?_eq {m m' : OrderedMap κ α} (h : ∀ k, m.get? k = m'.get? k) :
    m.entries.Perm m'.entries := by
  refine (perm_ext_iff_of_nodup m.nodup_entries m'.nodup_entries).mpr fun ⟨k, a⟩ => ?_
  rw [mem_entries, mem_entries, h k]

theorem filter_perm_of_get?_eq {m m' : OrderedMap κ α} {p : κ → α → Bool}
    (h : ∀ k a, p k a = true → m.get? k = m'.get? k) :
    (m.filter p).entries.Perm (m'.filter p).entries := by
  refine entries_perm_of_get?_eq fun k => ?_
  ext a
  rw [get?_filter, get?_filter, Option.filter_eq_some_iff, Option.filter_eq_some_iff]
  constructor
  · rintro ⟨hget, hp⟩
    exact ⟨by rw [← h k a hp, hget], hp⟩
  · rintro ⟨hget, hp⟩
    exact ⟨by rw [h k a hp, hget], hp⟩

end OrderedMap

variable [DecidableEq σ]

/-- No other row is joined into the key of `k`. -/
def OwnKey (join : κ → σ) (t : OrderedMap κ ρ) (k : κ) : Prop :=
  ∀ k' r, t.get? k' = some r → join k' = join k → k' = k

structure Mirrors (join : κ → σ) (decode : κ → ρ → α) (m : OrderedMap σ α) (t : OrderedMap κ ρ) :
    Prop where
  get? : ∀ key a, m.get? key = some a ↔
    ∃ k r, t.get? k = some r ∧ join k = key ∧ decode k r = a
  apart : ∀ k r, t.get? k = some r → OwnKey join t k

namespace Mirrors
variable {join : κ → σ} {decode decode' : κ → ρ → α} {m : OrderedMap σ α} {t : OrderedMap κ ρ}
  {k : κ} {r : ρ} {a : α}

theorem empty : Mirrors join decode (OrderedMap.empty : OrderedMap σ α) OrderedMap.empty where
  get? _ _ := iff_of_false (fun h => nomatch h) fun ⟨_, _, h, _⟩ => nomatch h
  apart _ _ h := nomatch h

theorem get?_of_own (h : Mirrors join decode m t) (hown : OwnKey join t k) :
    m.get? (join k) = (t.get? k).map (decode k) := by
  cases hk : t.get? k with
  | some r => exact (h.get? _ _).mpr ⟨k, r, hk, rfl, rfl⟩
  | none =>
    cases hm : m.get? (join k) with
    | none => rfl
    | some a =>
      obtain ⟨k', r, hr, hjoin, -⟩ := (h.get? _ _).mp hm
      rw [hown k' r hr hjoin, hk] at hr
      exact nomatch hr

theorem set (h : Mirrors join decode m t) (hown : OwnKey join t k)
    (hd : ∀ k' r', k' ≠ k → t.get? k' = some r' → decode' k' r' = decode k' r')
    (ha : decode' k r = a) : Mirrors join decode' (m.set (join k) a) (t.set k r) where
  get? key a' := by
    rw [OrderedMap.get?_set]
    split_ifs with hkey
    · subst hkey
      constructor
      · intro heq
        exact ⟨k, r, OrderedMap.get?_set_self .., rfl, by rw [ha, Option.some.inj heq]⟩
      · rintro ⟨k', r', hr', hjoin, ha'⟩
        by_cases hk : k' = k
        · rw [hk, OrderedMap.get?_set_self, Option.some.injEq] at hr'
          rw [← ha', hk, ← hr', ha]
        · rw [OrderedMap.get?_set_ne _ _ hk] at hr'
          exact absurd (hown k' r' hr' hjoin) hk
    · rw [h.get?]
      refine exists_congr fun k' => exists_congr fun r' => ?_
      constructor
      · rintro ⟨hr', hjoin, ha'⟩
        have hk : k' ≠ k := fun heq => hkey (by rw [← hjoin, heq])
        exact ⟨by rw [OrderedMap.get?_set_ne _ _ hk, hr'], hjoin, by rw [hd k' r' hk hr', ha']⟩
      · rintro ⟨hr', hjoin, ha'⟩
        have hk : k' ≠ k := fun heq => hkey (by rw [← hjoin, heq])
        rw [OrderedMap.get?_set_ne _ _ hk] at hr'
        exact ⟨hr', hjoin, by rw [← hd k' r' hk hr', ha']⟩
  apart k₁ r₁ h₁ k₂ r₂ h₂ hjoin := by
    by_cases hk₁ : k₁ = k
    · by_cases hk₂ : k₂ = k
      · rw [hk₁, hk₂]
      · rw [OrderedMap.get?_set_ne _ _ hk₂] at h₂
        rw [hk₁] at hjoin ⊢
        exact hown k₂ r₂ h₂ hjoin
    · rw [OrderedMap.get?_set_ne _ _ hk₁] at h₁
      by_cases hk₂ : k₂ = k
      · rw [hk₂] at hjoin ⊢
        exact (hown k₁ r₁ h₁ hjoin.symm).symm
      · rw [OrderedMap.get?_set_ne _ _ hk₂] at h₂
        exact h.apart k₁ r₁ h₁ k₂ r₂ h₂ hjoin

theorem set_same (h : Mirrors join decode m t) (hr : t.get? k = some r) (ha : decode k r = a) :
    Mirrors join decode (m.set (join k) a) t where
  get? key a' := by
    rw [← h.get?, OrderedMap.get?_set]
    split_ifs with hkey
    · rw [hkey, (h.get? (join k) a).mpr ⟨k, r, hr, rfl, ha⟩]
    · rfl
  apart := h.apart

theorem erase (h : Mirrors join decode m t) (hown : OwnKey join t k)
    (hd : ∀ k' r', k' ≠ k → t.get? k' = some r' → decode' k' r' = decode k' r') :
    Mirrors join decode' (m.filter fun key _ => key ≠ join k) (t.filter fun k' _ => k' ≠ k) where
  get? key a := by
    rw [OrderedMap.get?_filter, Option.filter_eq_some_iff, h.get?, decide_eq_true_iff]
    constructor
    · rintro ⟨⟨k', r', hr', hjoin, ha⟩, hne⟩
      have hk : k' ≠ k := fun heq => hne (by rw [← hjoin, heq])
      refine ⟨k', r', ?_, hjoin, by rw [hd k' r' hk hr', ha]⟩
      rw [OrderedMap.get?_filter, Option.filter_eq_some_iff, decide_eq_true_iff]
      exact ⟨hr', hk⟩
    · rintro ⟨k', r', hr', hjoin, ha⟩
      rw [OrderedMap.get?_filter, Option.filter_eq_some_iff, decide_eq_true_iff] at hr'
      refine ⟨⟨k', r', hr'.1, hjoin, by rw [← hd k' r' hr'.2 hr'.1, ha]⟩, fun heq => ?_⟩
      exact hr'.2 (hown k' r' hr'.1 (hjoin.trans heq))
  apart k₁ r₁ h₁ k₂ r₂ h₂ hjoin := by
    rw [OrderedMap.get?_filter, Option.filter_eq_some_iff] at h₁ h₂
    exact h.apart k₁ r₁ h₁.1 k₂ r₂ h₂.1 hjoin

end Mirrors
end Rgnr8.Lib
