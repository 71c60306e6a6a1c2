import Rgnr8.Kernel.ChartGrows

/-! The accounts of a chart come back in any order of rows. With parents put in front of their
sub-accounts they make the same chart again. -/

namespace Rgnr8.Kernel
open Lib ChartOfAccounts OrderedMap List
variable {accounts out rows : List Account} {a : Account} {trail : List AccountId} {n : Nat}
variable {rank : AccountId → Nat}

def ParentsLead (accounts : List Account) : Prop :=
  ∀ before a after, accounts = before ++ a :: after →
    ∀ p, a.parentId = some p → p ∈ before.map Account.id

def Ranked (rank : AccountId → Nat) (accounts : List Account) : Prop :=
  ∀ a ∈ accounts, ∀ p, a.parentId = some p → rank p < rank a.id ∧ p ∈ accounts.map Account.id

theorem ParentsLead.concat (h : ParentsLead out)
    (hpar : ∀ p, a.parentId = some p → p ∈ out.map Account.id) : ParentsLead (out ++ [a]) :=
  forall_split_concat (P := fun before a => ∀ p, a.parentId = some p → p ∈ before.map Account.id)
    hpar h

theorem exists_lastOf {id : AccountId} (h : id ∈ accounts.map Account.id) :
    ∃ b, lastOf accounts id = some b := by
  obtain ⟨b, hb, rfl⟩ := mem_map.mp h
  unfold lastOf
  rw [← Option.isSome_iff_exists, find?_isSome]
  exact ⟨b, mem_reverse.mpr hb, decide_eq_true rfl⟩

theorem lead_place (hrank : Ranked rank accounts) (ha : a ∈ accounts) (hn : rank a.id < n)
    (htrail : ∀ id ∈ trail, rank a.id < rank id) (hout : ParentsLead out) :
    ParentsLead (place (lastOf accounts) n trail out a) ∧
      a.id ∈ (place (lastOf accounts) n trail out a).map Account.id := by
  induction n generalizing a trail with
  | zero => exact absurd hn (Nat.not_lt_zero _)
  | succ n ih =>
    -- an account on the trail would rank below itself
    have hoff : a.id ∉ trail := fun hmem => absurd (htrail a.id hmem) (Nat.lt_irrefl _)
    refine ⟨?_, id_mem_place hoff⟩
    by_cases hplac : a.id ∈ out.map Account.id
    · rw [place_skip (.inl hplac)]
      exact hout
    · rw [place_step (not_or.mpr ⟨hplac, hoff⟩)]
      cases hpar : a.parentId with
      | none => exact hout.concat fun p hp => nomatch hpar.symm.trans hp
      | some p =>
        -- the parent ranks below the whole trail, so the walk places it
        obtain ⟨hlt, hmem⟩ := hrank a ha p hpar
        obtain ⟨b, hb⟩ := exists_lastOf hmem
        obtain ⟨hbmem, hbid⟩ := mem_of_lastOf hb
        rw [← hbid] at hlt
        have hlower : ∀ id ∈ a.id :: trail, rank b.id < rank id :=
          forall_mem_cons.mpr ⟨hlt, fun id hid => hlt.trans (htrail id hid)⟩
        obtain ⟨hlead, hfound⟩ := ih hbmem (by omega) hlower
        rw [Option.bind_some, hb]
        refine hlead.concat fun q hq => ?_
        cases hpar.symm.trans hq
        exact hbid ▸ hfound

theorem lead_parentsFirst (hrank : Ranked rank accounts)
    (hbound : ∀ a ∈ accounts, rank a.id ≤ accounts.length) : ParentsLead (parentsFirst accounts) := by
  have hfold : ∀ rest out, rest ⊆ accounts → ParentsLead out →
      ParentsLead (rest.foldl (place (lastOf accounts) (accounts.length + 1) []) out) := by
    intro rest
    induction rest with
    | nil => exact fun out _ hout => hout
    | cons a rest ih =>
      intro out hrest hout
      obtain ⟨ha, hrest'⟩ := cons_subset.mp hrest
      have hplac := lead_place hrank ha (Nat.lt_succ_of_le (hbound a ha))
        (fun id hid => absurd hid not_mem_nil) hout
      exact ih _ hrest' hplac.1
  refine hfold accounts [] (List.Subset.refl _) fun before a after hsplit => ?_
  exact absurd hsplit.symm (append_ne_nil_of_right_ne_nil _ (cons_ne_nil _ _))

theorem Loads.ranked (h : Loads accounts) (hperm : rows.Perm accounts) :
    Ranked (fun id => (accounts.map Account.id).idxOf id) rows := by
  intro a ha p hp
  obtain ⟨before, after, hsplit⟩ := append_of_mem (hperm.mem_iff.mp ha)
  obtain ⟨parent, hmem, rfl, -⟩ := h.parents before a after hsplit p hp
  refine ⟨?_, mem_map_of_mem (hperm.mem_iff.mpr (hsplit ▸ mem_append_left _ hmem))⟩
  have hids := h.ids
  rw [hsplit, map_append, map_cons] at hids
  have hlate : a.id ∉ before.map Account.id := fun hearly =>
    (nodup_append.mp hids).2.2 a.id hearly a.id mem_cons_self rfl
  have hearly := mem_map_of_mem (f := Account.id) hmem
  dsimp only
  rw [hsplit, map_append, idxOf_append_of_mem hearly, idxOf_append_of_notMem hlate]
  exact Nat.lt_add_right _ (idxOf_lt_length_of_mem hearly)

theorem Loads.parentsFirst (h : Loads accounts) (hperm : rows.Perm accounts) :
    ParentsLead (parentsFirst rows) ∧ Loads (parentsFirst rows) := by
  have hids := (hperm.map Account.id).nodup_iff.mpr h.ids
  have hplac := (parentsFirst_perm hids).trans hperm
  have hlead : ParentsLead (Kernel.parentsFirst rows) := by
    refine lead_parentsFirst (h.ranked hperm) fun a _ => ?_
    rw [hperm.length_eq, ← length_map (f := Account.id)]
    exact idxOf_le_length
  refine ⟨hlead, (hplac.map _).nodup_iff.mpr h.ids, (hplac.map _).nodup_iff.mpr h.codes,
    fun a ha => h.subtypes a (hplac.mem_iff.mp ha), fun before a after hsplit p hp => ?_⟩
  obtain ⟨parent, hmem, rfl⟩ := mem_map.mp (hlead before a after hsplit p hp)
  refine ⟨parent, hmem, rfl, ?_⟩
  have hin : ∀ b ∈ before ++ a :: after, b ∈ accounts := fun b hb =>
    hplac.mem_iff.mp (hsplit ▸ hb)
  obtain ⟨before', after', hsplit'⟩ := append_of_mem
    (hin a (mem_append_right _ mem_cons_self))
  obtain ⟨other, hother, hid, htype⟩ := h.parents before' a after' hsplit' _ hp
  rwa [← inj_on_of_nodup_map h.ids (hsplit' ▸ mem_append_left _ hother)
    (hin parent (mem_append_left _ hmem)) hid]

theorem place_enough (ha : a ∈ accounts)
    (h : (accounts.filter fun b => b.id ∉ trail).length < n) :
    place (lastOf accounts) (n + 1) trail out a = place (lastOf accounts) n trail out a := by
  induction n generalizing a trail with
  | zero => exact absurd h (Nat.not_lt_zero _)
  | succ n ih =>
    by_cases hskip : a.id ∈ out.map Account.id ∨ a.id ∈ trail
    · rw [place_skip hskip, place_skip hskip]
    · rw [place_step hskip, place_step hskip]
      cases hpar : a.parentId.bind (lastOf accounts) with
      | none => rfl
      | some parent =>
        obtain ⟨id, -, hlast⟩ := Option.bind_eq_some_iff.mp hpar
        have hshor : (accounts.filter fun b => b.id ∉ a.id :: trail).length <
            (accounts.filter fun b => b.id ∉ trail).length := by
          have hsub : (accounts.filter fun b => b.id ∉ a.id :: trail) =
              (accounts.filter fun b => b.id ∉ trail).filter fun b => b.id ≠ a.id := by
            rw [filter_filter]
            refine filter_congr fun b _ => ?_
            simp
          rw [hsub]
          refine length_filter_lt_length_iff_exists.mpr ⟨a, ?_, by simp⟩
          exact mem_filter.mpr ⟨ha, decide_eq_true fun hmem => hskip (.inr hmem)⟩
        dsimp only
        rw [ih (mem_of_lastOf hlast).1 (by omega)]

theorem place_fuel (ha : a ∈ accounts) (hn : accounts.length < n) :
    place (lastOf accounts) n [] out a = place (lastOf accounts) (accounts.length + 1) [] out a := by
  induction n, hn using Nat.le_induction with
  | base => rfl
  | succ n hn ih =>
    rw [place_enough ha (lt_of_le_of_lt (length_filter_le ..) hn), ih]

/-! The charts that come of adding accounts and of turning them on and off. -/

inductive Built : ChartOfAccounts → Prop
  | empty : Built .empty
  | add {coa coa' b} (hbuilt : Built coa) (h : coa.add b = .ok coa') : Built coa'
  | setActive {coa coa' id active} (hbuilt : Built coa)
    (h : coa.setActive id active = .ok coa') : Built coa'

variable {coa coa' : ChartOfAccounts}

theorem values_set_of_get {κ α : Type} [DecidableEq κ] {m : OrderedMap κ α} {k : κ} {b : α} (c : α)
    (h : m.get? k = some b) :
    (m.set k c).values = m.entries.map fun e => if e.1 = k then c else e.2 := by
  have hmem := mem_entries.mpr h
  have hnd := m.nodup
  unfold OrderedMap.values OrderedMap.set
  dsimp only
  generalize m.entries = entries at hmem hnd
  induction entries with
  | nil => exact absurd hmem not_mem_nil
  | cons e entries ih =>
    rw [map_cons, nodup_cons] at hnd
    by_cases hk : e.1 = k
    · rw [put_cons_self hk, map_cons, map_cons, if_pos hk]
      refine congrArg _ (map_congr_left fun e' he' => ?_)
      have hne : e'.1 ≠ k := fun hk' => hnd.1 (hk.trans hk'.symm ▸ mem_map_of_mem he')
      rw [if_neg hne]
    · rw [put_cons_ne hk, map_cons, map_cons, if_neg hk,
        ih ((mem_cons.mp hmem).resolve_left fun heq => hk (heq ▸ rfl)) hnd.2]

theorem ChartOfAccounts.list_setActive {id : AccountId} {active : Bool}
    (h : coa.setActive id active = .ok coa') : coa'.list =
      coa.list.map fun a => if a.id = id then { a with active := some active } else a := by
  unfold setActive at h
  split at h
  · cases h
  · next b hget =>
    obtain rfl := Except.ok.inj h
    unfold list withActive
    dsimp only
    rw [values_set_of_get _ hget]
    unfold values
    rw [map_map]
    refine map_congr_left fun e he => ?_
    have hent := mem_entries.mp he
    have heid : e.2.id = e.1 := (coa.id_of_get hent).1
    rw [Function.comp]
    by_cases hid : e.1 = id
    · rw [if_pos hid, if_pos (heid.trans hid)]
      rw [hid, hget] at hent
      rw [Option.some.inj hent]
    · rw [if_neg hid, if_neg fun h => hid (heid.symm.trans h)]

theorem Built.loads (h : Built coa) : Loads coa.list ∧ ∀ a ∈ coa.list, a.stored = a := by
  induction h with
  | empty => exact ⟨exists_ofAccounts_iff.mp ⟨.empty, rfl⟩, fun a ha => absurd ha not_mem_nil⟩
  | add hbuilt h ih =>
    obtain ⟨hid, hcode, rfl, hsubt, hpar⟩ := add_eq_ok_iff.mp h
    rw [list_insertNew]
    refine ⟨ih.1.concat ?_ ?_ hsubt hpar, forall_mem_append.mpr
      ⟨ih.2, forall_mem_singleton.mpr rfl⟩⟩
    · exact get_eq_none_iff.mp hid
    · exact getByCode_eq_none_iff.mp hcode
  | setActive hbuilt h ih =>
    rw [list_setActive h]
    refine ⟨ih.1.map ?_, ?_⟩
    · constructor <;> intro a <;> split_ifs <;> rfl
    · rw [forall_mem_map]
      intro a ha
      split_ifs
      · rfl
      · exact ih.2 a ha

/-- A chart loads again from its accounts in any order; and on accounts whose parents are missing or
go round in a circle, each id is placed once, with no more steps than there are accounts. -/
theorem parentsFirst_reloads :
    (∀ coa, Built coa → ∀ rows, rows.Perm coa.list → (parentsFirst rows).Perm rows ∧
      ParentsLead (parentsFirst rows) ∧
      ∃ coa', ChartOfAccounts.ofAccounts (parentsFirst rows) = .ok coa' ∧
        (∀ id, coa'.get id = coa.get id) ∧ ∀ code, coa'.getByCode code = coa.getByCode code) ∧
    ∀ accounts, (∀ n, accounts.length < n →
        accounts.foldl (place (lastOf accounts) n []) [] = parentsFirst accounts) ∧
      parentsFirst accounts ⊆ accounts ∧ ((parentsFirst accounts).map Account.id).Nodup ∧
      (∀ a ∈ accounts, a.id ∈ (parentsFirst accounts).map Account.id) ∧
      ((accounts.map Account.id).Nodup → (parentsFirst accounts).Perm accounts) := by
  refine ⟨fun coa hbuilt rows hperm => ?_, fun accounts => ⟨fun n hn => ?_, ?_⟩⟩
  · obtain ⟨hloads, hsto⟩ := hbuilt.loads
    have hplac := parentsFirst_perm ((hperm.map Account.id).nodup_iff.mpr hloads.ids)
    obtain ⟨hlead, hrel⟩ := hloads.parentsFirst hperm
    obtain ⟨coa', hcoa'⟩ := exists_ofAccounts_iff.mpr hrel
    have hmem : ∀ a, a ∈ coa'.list ↔ a ∈ coa.list := by
      intro a
      have hsame : (parentsFirst rows).map Account.stored = parentsFirst rows :=
        (map_congr_left (g := id) fun b hb =>
          hsto b ((hplac.trans hperm).mem_iff.mp hb)).trans (map_id _)
      rw [list_ofAccounts hcoa', hsame, (hplac.trans hperm).mem_iff]
    refine ⟨hplac, hlead, coa', hcoa', fun id => ?_, fun code => ?_⟩
    · ext a
      rw [get_iff, get_iff, hmem]
    · ext a
      rw [getByCode_iff, getByCode_iff, hmem]
  · exact foldl_ext _ _ _ fun out a ha => place_fuel ha hn
  · obtain ⟨hsub, hids, hmem⟩ := placed_parentsFirst accounts
    exact ⟨hsub, hids, hmem, parentsFirst_perm⟩

end Rgnr8.Kernel
