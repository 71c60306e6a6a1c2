import Rgnr8.Kernel.ParentsFirst

/-! Accounts that load stay as they are when parents are put first, and so does what has been loaded
from them; an account with a code of its own can be added behind them. -/

namespace Rgnr8.Kernel
open List
variable {accounts : List Account} {a : Account}

theorem place_behind {byId : AccountId → Option Account} {n : Nat} {out : List Account}
    (hby : ∀ id b, byId id = some b → b.id = id) (hnew : a.id ∉ out.map Account.id)
    (hpar : ∀ p, a.parentId = some p → p ∈ out.map Account.id) :
    place byId (n + 2) [] out a = out ++ [a] := by
  rw [place_step (not_or.mpr ⟨hnew, not_mem_nil⟩)]
  cases hget : a.parentId.bind byId with
  | none => rfl
  | some parent =>
    obtain ⟨p, hp, hbyId⟩ := Option.bind_eq_some_iff.mp hget
    have hid : parent.id = p := hby p parent hbyId
    rw [← hid] at hp
    dsimp only
    rw [place_skip (.inl (hpar parent.id hp))]

theorem foldl_place_of_loads {byId : AccountId → Option Account} {n : Nat}
    (hby : ∀ id b, byId id = some b → b.id = id) (h : Loads accounts) :
    accounts.foldl (place byId (n + 2) []) [] = accounts := by
  have hfold : ∀ rest before, accounts = before ++ rest →
      rest.foldl (place byId (n + 2) []) before = accounts := by
    intro rest
    induction rest with
    | nil =>
      intro before hsplit
      rw [hsplit, append_nil]
      rfl
    | cons b rest ih =>
      intro before hsplit
      have hids := h.ids
      rw [hsplit, map_append, map_cons] at hids
      have hnew : b.id ∉ before.map Account.id := fun hmem =>
        (nodup_append.mp hids).2.2 b.id hmem b.id mem_cons_self rfl
      rw [foldl_cons, place_behind hby hnew]
      · exact ih _ (by rw [hsplit, append_assoc, singleton_append])
      · intro p hp
        obtain ⟨parent, hmem, hid, -⟩ := h.parents before b rest hsplit p hp
        rw [← hid]
        exact mem_map_of_mem hmem
  exact hfold accounts [] rfl

theorem parentsFirst_concat (h : Loads accounts) (hroot : a.parentId = none) :
    parentsFirst (accounts ++ [a]) =
      if a.id ∈ accounts.map Account.id then accounts else accounts ++ [a] := by
  have hby : ∀ id b, lastOf (accounts ++ [a]) id = some b → b.id = id :=
    fun id b hb => (mem_of_lastOf hb).2
  unfold parentsFirst
  have hlength : (accounts ++ [a]).length + 1 = accounts.length + 2 := by
    rw [length_append, length_singleton]
  rw [hlength, foldl_append, foldl_place_of_loads hby h]
  split_ifs with hmem
  · exact place_skip (.inl hmem)
  · refine place_behind hby hmem fun p hp => ?_
    rw [hroot] at hp
    cases hp

theorem forall_split_concat {P : List Account → Account → Prop} {b : Account}
    (hlast : P accounts b) (hbef : ∀ before a after, accounts = before ++ a :: after → P before a) :
    ∀ before a after, accounts ++ [b] = before ++ a :: after → P before a := by
  intro before a after hsplit
  cases eq_nil_or_concat after with
  | inl hnil =>
    subst hnil
    obtain ⟨hfront, heq⟩ := append_inj' hsplit rfl
    rwa [← hfront, ← (cons.inj heq).1]
  | inr hcon =>
    obtain ⟨after, c, rfl⟩ := hcon
    have hsplit' : accounts ++ [b] = (before ++ a :: after) ++ [c] := by
      rw [hsplit, concat_eq_append, append_assoc, cons_append]
    exact hbef before a after (append_inj' hsplit' rfl).1

theorem Loads.concat (h : Loads accounts) (hid : a.id ∉ accounts.map Account.id)
    (hcode : a.code ∉ accounts.map Account.code) (hsub : a.SubtypeOk)
    (hpar : a.ParentIn accounts) : Loads (accounts ++ [a]) where
  ids := by
    rw [map_append, map_singleton]
    exact h.ids.append (nodup_singleton _) (disjoint_singleton.mpr hid)
  codes := by
    rw [map_append, map_singleton]
    exact h.codes.append (nodup_singleton _) (disjoint_singleton.mpr hcode)
  subtypes := forall_mem_append.mpr ⟨h.subtypes, forall_mem_singleton.mpr hsub⟩
  parents := forall_split_concat hpar h.parents

/-- A change that leaves all that loading looks at. -/
structure Keeps (f : Account → Account) : Prop where
  id : ∀ a, (f a).id = a.id
  code : ∀ a, (f a).code = a.code
  type : ∀ a, (f a).type = a.type
  subtype : ∀ a, (f a).subtype = a.subtype
  parentId : ∀ a, (f a).parentId = a.parentId

theorem Loads.map {f : Account → Account} (hf : Keeps f) (h : Loads accounts) :
    Loads (accounts.map f) where
  ids := by
    rw [map_map, show Account.id ∘ f = Account.id from funext hf.id]
    exact h.ids
  codes := by
    rw [map_map, show Account.code ∘ f = Account.code from funext hf.code]
    exact h.codes
  subtypes := by
    rw [forall_mem_map]
    intro a ha subtype hsub
    rw [hf.type, h.subtypes a ha subtype (hf.subtype a ▸ hsub)]
  parents := by
    intro before b after hsplit
    obtain ⟨before', rest, hsplit', rfl, hrest⟩ := map_eq_append_iff.mp hsplit
    obtain ⟨c, after', rfl, rfl, -⟩ := map_eq_cons_iff.mp hrest
    intro p hp
    obtain ⟨d, hd, hid, htype⟩ := h.parents before' c after' hsplit' p (hf.parentId c ▸ hp)
    exact ⟨f d, mem_map_of_mem hd, (hf.id d).trans hid, by rw [hf.type, hf.type, htype]⟩

theorem Loads.stored (h : Loads accounts) : Loads (accounts.map Account.stored) :=
  h.map ⟨fun _ => rfl, fun _ => rfl, fun _ => rfl, fun _ => rfl, fun _ => rfl⟩

end Rgnr8.Kernel
