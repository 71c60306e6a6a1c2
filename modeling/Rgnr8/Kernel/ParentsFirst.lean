import Rgnr8.Kernel.Chart

/-! A chart persisted in a database can come back in any row order. `parentsFirst` puts every parent
in front of its sub-accounts; it never drops or repeats an account as long as the ids differ. -/

namespace Rgnr8.Kernel
open Lib OrderedMap List
variable {byId : AccountId → Option Account} {a b : Account} {trail : List AccountId}
variable {accounts out : List Account} {n : Nat}

def place (byId : AccountId → Option Account) :
    Nat → List AccountId → List Account → Account → List Account
  | 0, _, out, _ => out
  | n + 1, trail, out, a =>
    if a.id ∈ out.map Account.id ∨ a.id ∈ trail then out
    else
      (match a.parentId.bind byId with
        | some parent => place byId n (a.id :: trail) out parent
        | none => out) ++ [a]

def lastOf (accounts : List Account) (id : AccountId) : Option Account :=
  accounts.reverse.find? fun a => a.id = id

def parentsFirst (accounts : List Account) : List Account :=
  accounts.foldl (place (lastOf accounts) (accounts.length + 1) []) []

theorem mem_of_lastOf {id : AccountId} (h : lastOf accounts id = some a) :
    a ∈ accounts ∧ a.id = id := by
  refine ⟨mem_reverse.mp (mem_of_find?_eq_some h), ?_⟩
  exact of_decide_eq_true (find?_some (p := fun a : Account => decide (a.id = id)) h)

theorem place_skip (h : a.id ∈ out.map Account.id ∨ a.id ∈ trail) :
    place byId (n + 1) trail out a = out := if_pos h

theorem place_step (h : ¬ (a.id ∈ out.map Account.id ∨ a.id ∈ trail)) :
    place byId (n + 1) trail out a = (match a.parentId.bind byId with
      | some parent => place byId n (a.id :: trail) out parent
      | none => out) ++ [a] := if_neg h

theorem mem_place (h : b ∈ place byId n trail out a) :
    b ∈ out ∨ b = a ∨ ∃ id, byId id = some b := by
  induction n generalizing a trail with
  | zero => exact .inl h
  | succ n ih =>
    by_cases hskip : a.id ∈ out.map Account.id ∨ a.id ∈ trail
    · rw [place_skip hskip] at h
      exact .inl h
    · rw [place_step hskip, mem_append, mem_singleton] at h
      rcases h with h | rfl
      · cases hpar : a.parentId.bind byId with
        | none =>
          rw [hpar] at h
          exact .inl h
        | some parent =>
          rw [hpar] at h
          obtain ⟨id, -, hget⟩ := Option.bind_eq_some_iff.mp hpar
          rcases ih h with hout | rfl | hfound
          · exact .inl hout
          · exact .inr (.inr ⟨id, hget⟩)
          · exact .inr (.inr hfound)
      · exact .inr (.inl rfl)

theorem subset_place : out ⊆ place byId n trail out a := by
  induction n generalizing a trail with
  | zero => exact List.Subset.refl _
  | succ n ih =>
    by_cases hskip : a.id ∈ out.map Account.id ∨ a.id ∈ trail
    · rw [place_skip hskip]
      exact List.Subset.refl _
    · rw [place_step hskip]
      cases a.parentId.bind byId with
      | none => exact subset_append_left ..
      | some parent => exact fun b hb => mem_append_left _ (ih hb)

theorem not_mem_place {id : AccountId} (htrail : id ∈ trail) (hout : id ∉ out.map Account.id) :
    id ∉ (place byId n trail out a).map Account.id := by
  induction n generalizing a trail with
  | zero => exact hout
  | succ n ih =>
    by_cases hskip : a.id ∈ out.map Account.id ∨ a.id ∈ trail
    · rw [place_skip hskip]
      exact hout
    · have hne : id ≠ a.id := by
        rintro rfl
        exact hskip (.inr htrail)
      rw [place_step hskip, map_append, mem_append, map_singleton,
        mem_singleton, not_or]
      refine ⟨?_, hne⟩
      cases a.parentId.bind byId with
      | none => exact hout
      | some parent => exact ih (mem_cons_of_mem _ htrail)

theorem nodup_place (h : (out.map Account.id).Nodup) :
    ((place byId n trail out a).map Account.id).Nodup := by
  induction n generalizing a trail with
  | zero => exact h
  | succ n ih =>
    by_cases hskip : a.id ∈ out.map Account.id ∨ a.id ∈ trail
    · rw [place_skip hskip]
      exact h
    · have hfree : a.id ∉ out.map Account.id := fun hmem => hskip (.inl hmem)
      rw [place_step hskip, map_append]
      refine List.Nodup.append ?_ (nodup_singleton _) ?_
      · cases a.parentId.bind byId with
        | none => exact h
        | some parent => exact ih
      · rw [map_singleton, disjoint_singleton]
        cases a.parentId.bind byId with
        | none => exact hfree
        | some parent => exact not_mem_place mem_cons_self hfree

theorem id_mem_place (h : a.id ∉ trail) : a.id ∈ (place byId (n + 1) trail out a).map Account.id := by
  by_cases hplac : a.id ∈ out.map Account.id
  · rw [place_skip (.inl hplac)]
    exact hplac
  · rw [place_step (not_or.mpr ⟨hplac, h⟩), map_append]
    exact mem_append_right _ mem_cons_self

theorem placed_parentsFirst (accounts : List Account) : parentsFirst accounts ⊆ accounts ∧
    ((parentsFirst accounts).map Account.id).Nodup ∧
      ∀ a ∈ accounts, a.id ∈ (parentsFirst accounts).map Account.id := by
  have hfold : ∀ rest out, rest ⊆ accounts → out ⊆ accounts → (out.map Account.id).Nodup →
      let placed := rest.foldl (place (lastOf accounts) (accounts.length + 1) []) out
      placed ⊆ accounts ∧ (placed.map Account.id).Nodup ∧ out ⊆ placed ∧
        ∀ a ∈ rest, a.id ∈ placed.map Account.id := by
    intro rest
    induction rest with
    | nil => exact fun out _ hout hnd =>
        ⟨hout, hnd, List.Subset.refl _, fun a ha => absurd ha not_mem_nil⟩
    | cons a rest ih =>
      intro out hrest hout hnd
      obtain ⟨ha, hrest'⟩ := cons_subset.mp hrest
      have hnext : place (lastOf accounts) (accounts.length + 1) [] out a ⊆ accounts := by
        intro b hb
        rcases mem_place hb with hb | rfl | ⟨id, hb⟩
        · exact hout hb
        · exact ha
        · exact (mem_of_lastOf hb).1
      obtain ⟨hsub, hids, hgrows, hmem⟩ := ih _ hrest' hnext (nodup_place hnd)
      refine ⟨hsub, hids, fun b hb => hgrows (subset_place hb), ?_⟩
      rw [forall_mem_cons]
      refine ⟨?_, hmem⟩
      exact map_subset _ hgrows (id_mem_place not_mem_nil)
  obtain ⟨hsub, hids, -, hmem⟩ := hfold accounts [] (List.Subset.refl _) (nil_subset _)
    nodup_nil
  exact ⟨hsub, hids, hmem⟩

theorem parentsFirst_perm (h : (accounts.map Account.id).Nodup) :
    (parentsFirst accounts).Perm accounts := by
  obtain ⟨hsub, hids, hmem⟩ := placed_parentsFirst accounts
  refine (perm_ext_iff_of_nodup hids.of_map h.of_map).mpr fun b => ⟨fun hb => hsub hb, ?_⟩
  intro hb
  obtain ⟨c, hc, hid⟩ := mem_map.mp (hmem b hb)
  rwa [← inj_on_of_nodup_map h (hsub hc) hb hid]

/-! The accounts a backend keeps of a tenant: the last saved version of each, where an account that
is saved again keeps its row. A chart is loaded from the rows in some order. -/

structure SavedAccounts where
  byId : OrderedMap AccountId Account
  id_of_get : ∀ {id a}, byId.get? id = some a → a.id = id

namespace SavedAccounts

def empty : SavedAccounts := ⟨.empty, nofun⟩

def get (s : SavedAccounts) (id : AccountId) : Option Account := s.byId.get? id

def list (s : SavedAccounts) : List Account := s.byId.values

def save (s : SavedAccounts) (a : Account) : SavedAccounts where
  byId := s.byId.set a.id a
  id_of_get := by
    intro id b h
    rw [OrderedMap.get?_set] at h
    split_ifs at h with hid
    · rw [hid, ← Option.some.inj h]
    · exact s.id_of_get h

def saveAll (s : SavedAccounts) (accounts : List Account) : SavedAccounts := accounts.foldl save s

variable {s : SavedAccounts} {a b : Account}

theorem get_save (s : SavedAccounts) (a : Account) (id : AccountId) :
    (s.save a).get id = if id = a.id then some a else s.get id := get?_set ..

theorem get_save_self (s : SavedAccounts) (a : Account) : (s.save a).get a.id = some a := by
  rw [get_save, if_pos rfl]

theorem get_save_ne {id : AccountId} (h : id ≠ a.id) : (s.save a).get id = s.get id := by
  rw [get_save, if_neg h]

theorem get_iff {id : AccountId} : s.get id = some a ↔ a ∈ s.list ∧ a.id = id := by
  unfold get list values
  constructor
  · intro h
    exact ⟨mem_map.mpr ⟨(id, a), mem_entries.mpr h, rfl⟩, s.id_of_get h⟩
  · rintro ⟨hmem, rfl⟩
    obtain ⟨⟨k, b⟩, he, rfl⟩ := mem_map.mp hmem
    have hget := mem_entries.mp he
    rw [s.id_of_get hget]
    exact hget

theorem mem_list : a ∈ s.list ↔ s.get a.id = some a := by
  rw [get_iff]
  exact (and_iff_left rfl).symm

theorem ids_list (s : SavedAccounts) : s.list.map Account.id = s.byId.keys := by
  unfold list values OrderedMap.keys
  rw [map_map]
  refine map_congr_left fun entry hent => ?_
  exact s.id_of_get (mem_entries.mp hent)

theorem nodup_ids (s : SavedAccounts) : (s.list.map Account.id).Nodup := by
  rw [ids_list]
  exact s.byId.nodup

theorem eq_of_id_eq (ha : a ∈ s.list) (hb : b ∈ s.list) (hid : a.id = b.id) : a = b :=
  inj_on_of_nodup_map s.nodup_ids ha hb hid

theorem get_eq_none_iff {id : AccountId} : s.get id = none ↔ ∀ a ∈ s.list, a.id ≠ id := by
  rw [Option.eq_none_iff_forall_ne_some]
  constructor
  · rintro h a ha rfl
    exact h a (mem_list.mp ha)
  · intro h a ha
    exact h a (get_iff.mp ha).1 (get_iff.mp ha).2

theorem mem_save : b ∈ (s.save a).list ↔ b = a ∨ (b ∈ s.list ∧ b.id ≠ a.id) := by
  rw [mem_list, get_save]
  by_cases hid : b.id = a.id
  · rw [if_pos hid]
    simp [hid, eq_comm]
  · rw [if_neg hid, ← mem_list]
    constructor
    · exact fun h => .inr ⟨h, hid⟩
    · rintro (rfl | ⟨h, -⟩)
      · exact absurd rfl hid
      · exact h

end SavedAccounts

structure RowOrder where
  rows : List Account → List Account
  perm : ∀ {accounts}, (accounts.map Account.id).Nodup → (rows accounts).Perm accounts

def RowOrder.inMemory : RowOrder := ⟨fun accounts => accounts, fun _ => .refl _⟩

def RowOrder.parentsFirst : RowOrder := ⟨Kernel.parentsFirst, parentsFirst_perm⟩

namespace SavedAccounts
variable {s : SavedAccounts} {order : RowOrder} {coa : ChartOfAccounts} {a : Account}

def chart (order : RowOrder) (s : SavedAccounts) : Except String ChartOfAccounts :=
  ChartOfAccounts.ofAccounts (order.rows s.list)

theorem list_chart (h : s.chart order = .ok coa) : coa.list.Perm (s.list.map Account.stored) := by
  rw [ChartOfAccounts.list_ofAccounts h]
  exact (order.perm s.nodup_ids).map _

theorem get_chart (h : s.chart order = .ok coa) (id : AccountId) :
    coa.get id = (s.get id).map Account.stored := by
  ext a
  rw [ChartOfAccounts.get_iff, (list_chart h).mem_iff, mem_map, Option.map_eq_some_iff]
  constructor
  · rintro ⟨⟨b, hb, rfl⟩, rfl⟩
    exact ⟨b, mem_list.mp hb, rfl⟩
  · rintro ⟨b, hb, rfl⟩
    obtain ⟨hmem, rfl⟩ := get_iff.mp hb
    exact ⟨⟨b, hmem, rfl⟩, rfl⟩

theorem loads_of_chart (h : s.chart order = .ok coa) : Loads (order.rows s.list) :=
  exists_ofAccounts_iff.mp ⟨coa, h⟩

end SavedAccounts
end Rgnr8.Kernel
