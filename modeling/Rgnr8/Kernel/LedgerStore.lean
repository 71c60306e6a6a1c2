import Mathlib
import Rgnr8.Kernel.Types

/-! The append-only journal. A log carries the proof that its two indexes list its entries and
that the entries are numbered without gaps, so no later argument has to reach for a run. -/

namespace Rgnr8.Kernel
open Lib

def DraftEntry.numbered (draft : DraftEntry) (sequence : Nat) : PostedEntry :=
  { draft with id := s!"{draft.tenantId}:{sequence}", sequence := sequence }

structure TenantLog where
  tenant : TenantId
  entries : List PostedEntry
  byKey : OrderedMap IdempotencyKey PostedEntry
  byId : OrderedMap EntryId PostedEntry
  key_iff : ∀ {k e}, byKey.get? k = some e ↔ e ∈ entries ∧ e.idempotencyKey = k
  id_iff : ∀ {id e}, byId.get? id = some e ↔ e ∈ entries ∧ e.id = id
  numbered : ∀ {i e}, entries[i]? = some e →
    e.tenantId = tenant ∧ e.sequence = i + 1 ∧ e.id = s!"{tenant}:{i + 1}"

namespace TenantLog

def empty (tenant : TenantId) : TenantLog where
  tenant := tenant
  entries := []
  byKey := .empty
  byId := .empty
  key_iff := by simp
  id_iff := by simp
  numbered := by simp

theorem id_ne_next {l : TenantLog} {e : PostedEntry} (h : e ∈ l.entries) :
    e.id ≠ s!"{l.tenant}:{l.entries.length + 1}" := by
  obtain ⟨i, hi⟩ := List.mem_iff_getElem?.mp h
  intro hid
  rw [(l.numbered hi).2.2] at hid
  have hlt : i < l.entries.length := (List.getElem?_eq_some_iff.mp hi).1
  have hnat : toString (i + 1) = toString (l.entries.length + 1) := by
    simpa [← String.toList_inj] using hid
  have := Nat.repr_injective hnat
  omega

def push (l : TenantLog) (draft : DraftEntry) (htenant : draft.tenantId = l.tenant)
    (hfree : l.byKey.get? draft.idempotencyKey = none) : TenantLog where
  tenant := l.tenant
  entries := l.entries ++ [draft.numbered (l.entries.length + 1)]
  byKey := l.byKey.set draft.idempotencyKey (draft.numbered (l.entries.length + 1))
  byId := l.byId.set (draft.numbered (l.entries.length + 1)).id
    (draft.numbered (l.entries.length + 1))
  key_iff := by
    intro k e
    rw [OrderedMap.get?_set, List.mem_append, List.mem_singleton]
    split_ifs with hk
    · subst hk
      refine ⟨fun h => ⟨.inr (Option.some.inj h).symm, by rw [← Option.some.inj h]; rfl⟩, ?_⟩
      rintro ⟨h | h, hek⟩
      -- the key is free, so no older entry has it
      · have := l.key_iff.mpr ⟨h, hek⟩
        rw [hfree] at this
        cases this
      · rw [h]
    · rw [l.key_iff]
      refine and_congr_left fun hek => (or_iff_left ?_).symm
      rintro rfl
      exact hk hek.symm
  id_iff := by
    intro id e
    have hnext : (draft.numbered (l.entries.length + 1)).id =
        s!"{l.tenant}:{l.entries.length + 1}" := by rw [← htenant]; rfl
    rw [OrderedMap.get?_set, List.mem_append, List.mem_singleton]
    split_ifs with hid
    · refine ⟨fun h => ⟨.inr (Option.some.inj h).symm, by rw [← Option.some.inj h, hid]⟩, ?_⟩
      rintro ⟨h | h, heid⟩
      -- an older id ends in a smaller number
      · exact absurd (heid.trans (hid.trans hnext)) (id_ne_next h)
      · rw [h]
    · rw [l.id_iff]
      refine and_congr_left fun heid => (or_iff_left ?_).symm
      rintro rfl
      exact hid heid.symm
  numbered := by
    intro i e h
    rw [List.getElem?_append] at h
    split_ifs at h with hi
    · exact l.numbered h
    · have hi' : i = l.entries.length := by
        have := (List.getElem?_eq_some_iff.mp h).1
        rw [List.length_singleton] at this
        omega
      rw [hi', Nat.sub_self, List.getElem?_cons_zero, Option.some.injEq] at h
      subst h
      rw [hi', ← htenant]
      exact ⟨rfl, rfl, rfl⟩

end TenantLog

structure InMemoryLedgerStore where
  tenants : OrderedMap TenantId TenantLog
  tenant_of_get : ∀ {t l}, tenants.get? t = some l → l.tenant = t

namespace InMemoryLedgerStore

def empty : InMemoryLedgerStore := ⟨.empty, nofun⟩

def log (s : InMemoryLedgerStore) (tenant : TenantId) : TenantLog :=
  (s.tenants.get? tenant).getD (.empty tenant)

@[simp] theorem tenant_log (s : InMemoryLedgerStore) (t : TenantId) : (s.log t).tenant = t := by
  rw [log]
  cases h : s.tenants.get? t with
  | none => rfl
  | some l => exact s.tenant_of_get h

def insertNew (s : InMemoryLedgerStore) (draft : DraftEntry)
    (hfree : (s.log draft.tenantId).byKey.get? draft.idempotencyKey = none) :
    InMemoryLedgerStore where
  tenants := s.tenants.set draft.tenantId
    ((s.log draft.tenantId).push draft (s.tenant_log _).symm hfree)
  tenant_of_get := by
    intro t l h
    rw [OrderedMap.get?_set] at h
    split_ifs at h with ht
    · rw [ht, ← Option.some.inj h]
      exact s.tenant_log _
    · exact s.tenant_of_get h

def append (s : InMemoryLedgerStore) (draft : DraftEntry) : PostedEntry × InMemoryLedgerStore :=
  match h : (s.log draft.tenantId).byKey.get? draft.idempotencyKey with
  -- a key already used returns the existing entry and appends nothing
  | some dup => (dup, s)
  | none => (draft.numbered ((s.log draft.tenantId).entries.length + 1), s.insertNew draft h)

def getByIdempotencyKey (s : InMemoryLedgerStore) (tenant : TenantId) (key : IdempotencyKey) :
    Option PostedEntry := (s.log tenant).byKey.get? key

def getById (s : InMemoryLedgerStore) (tenant : TenantId) (id : EntryId) : Option PostedEntry :=
  (s.log tenant).byId.get? id

def list (s : InMemoryLedgerStore) (tenant : TenantId) : List PostedEntry := (s.log tenant).entries

variable {s : InMemoryLedgerStore} {t : TenantId} {e : PostedEntry} {d : DraftEntry}

theorem list_empty (t : TenantId) : empty.list t = [] := rfl

variable {k : IdempotencyKey}

theorem getByIdempotencyKey_iff :
    s.getByIdempotencyKey t k = some e ↔ e ∈ s.list t ∧ e.idempotencyKey = k :=
  (s.log t).key_iff

theorem getByIdempotencyKey_eq_none :
    s.getByIdempotencyKey t k = none ↔ ∀ e ∈ s.list t, e.idempotencyKey ≠ k := by
  rw [Option.eq_none_iff_forall_ne_some]
  exact forall_congr' fun e => (not_congr getByIdempotencyKey_iff).trans not_and

theorem getById_iff {id : EntryId} : s.getById t id = some e ↔ e ∈ s.list t ∧ e.id = id :=
  (s.log t).id_iff

theorem list_getElem? {i : Nat} (h : (s.list t)[i]? = some e) :
    e.tenantId = t ∧ e.sequence = i + 1 ∧ e.id = s!"{t}:{i + 1}" := by
  have := (s.log t).numbered h
  rwa [tenant_log] at this

theorem append_of_some (h : s.getByIdempotencyKey d.tenantId d.idempotencyKey = some e) :
    s.append d = (e, s) := by
  rw [getByIdempotencyKey] at h
  rw [append]
  split
  · rename_i dup hdup
    rw [Option.some.inj (hdup.symm.trans h)]
  · rename_i hnone
    rw [hnone] at h
    cases h

theorem append_of_none (h : s.getByIdempotencyKey d.tenantId d.idempotencyKey = none) :
    s.append d = (d.numbered ((s.list d.tenantId).length + 1), s.insertNew d h) := by
  rw [getByIdempotencyKey] at h
  rw [append]
  split
  · rename_i dup hdup
    rw [hdup] at h
    cases h
  · rfl

theorem list_append_of_none (h : s.getByIdempotencyKey d.tenantId d.idempotencyKey = none)
    (t : TenantId) : (s.append d).2.list t =
      if t = d.tenantId then s.list t ++ [(s.append d).1] else s.list t := by
  rw [append_of_none h]
  simp only [list, log, insertNew, OrderedMap.get?_set]
  split_ifs with ht
  · subst ht
    rfl
  · rfl

theorem getByIdempotencyKey_append (s : InMemoryLedgerStore) (d : DraftEntry) :
    (s.append d).2.getByIdempotencyKey d.tenantId d.idempotencyKey = some (s.append d).1 := by
  cases h : s.getByIdempotencyKey d.tenantId d.idempotencyKey with
  | some e => rw [append_of_some h, h]
  | none =>
    rw [getByIdempotencyKey_iff, list_append_of_none h, if_pos rfl]
    refine ⟨List.mem_append_right _ (List.mem_singleton_self _), ?_⟩
    rw [append_of_none h]
    rfl

theorem getByIdempotencyKey_append_ne (s : InMemoryLedgerStore) {d : DraftEntry}
    (hk : k ≠ d.idempotencyKey) :
    (s.append d).2.getByIdempotencyKey t k = s.getByIdempotencyKey t k := by
  cases h : s.getByIdempotencyKey d.tenantId d.idempotencyKey with
  | some e => rw [append_of_some h]
  | none =>
    have hne : (s.append d).1.idempotencyKey ≠ k := by
      rw [append_of_none h]
      exact hk.symm
    ext e
    rw [getByIdempotencyKey_iff, getByIdempotencyKey_iff, list_append_of_none h]
    refine and_congr_left fun he => ?_
    split_ifs with ht
    · rw [List.mem_append, List.mem_singleton]
      refine or_iff_left ?_
      rintro rfl
      exact hne he
    · rfl

theorem list_prefix_append (s : InMemoryLedgerStore) (d : DraftEntry) (t : TenantId) :
    s.list t <+: (s.append d).2.list t := by
  cases h : s.getByIdempotencyKey d.tenantId d.idempotencyKey with
  | some e =>
    rw [append_of_some h]
  | none =>
    rw [list_append_of_none h]
    split_ifs with ht
    · exact List.prefix_append ..
    · exact List.prefix_rfl

end InMemoryLedgerStore

/-- Nothing is ever taken from a journal: each one is an initial part of its later self. -/
def InMemoryLedgerStore.Grows (s s' : InMemoryLedgerStore) : Prop :=
  ∀ t, s.list t <+: s'.list t

namespace InMemoryLedgerStore.Grows
variable {s s' s'' : InMemoryLedgerStore} {t : TenantId} {e : PostedEntry}

theorem refl (s : InMemoryLedgerStore) : s.Grows s := fun _ => List.prefix_rfl

theorem trans (h : s.Grows s') (h' : s'.Grows s'') : s.Grows s'' := fun t => (h t).trans (h' t)

theorem append (s : InMemoryLedgerStore) (d : DraftEntry) : s.Grows (s.append d).2 :=
  s.list_prefix_append d

theorem mem (h : s.Grows s') (he : e ∈ s.list t) : e ∈ s'.list t := (h t).subset he

theorem getByIdempotencyKey (h : s.Grows s') {k : IdempotencyKey}
    (he : s.getByIdempotencyKey t k = some e) : s'.getByIdempotencyKey t k = some e := by
  rw [getByIdempotencyKey_iff] at he ⊢
  exact ⟨h.mem he.1, he.2⟩

theorem getById (h : s.Grows s') {id : EntryId} (he : s.getById t id = some e) :
    s'.getById t id = some e := by
  rw [getById_iff] at he ⊢
  exact ⟨h.mem he.1, he.2⟩

end InMemoryLedgerStore.Grows
end Rgnr8.Kernel
