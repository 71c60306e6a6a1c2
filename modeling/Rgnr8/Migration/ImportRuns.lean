import Rgnr8.Migration.Compare

/-! An import command by command: the journal holds the first command of each key, and a later command
of a key is let pass only where its fingerprint is the same. -/

namespace Rgnr8.Migration
open Lib Kernel Fallible List

def firstOfKey (kept : List PostCommand) (c : PostCommand) : List PostCommand :=
  if c.idempotencyKey ∈ kept.map PostCommand.idempotencyKey then kept else kept ++ [c]

variable (commands : List PostCommand)

def firsts : List PostCommand := commands.foldl firstOfKey []

/-- An entry of the journal is what a command became. -/
structure Stands (e : PostedEntry) (c : PostCommand) : Prop where
  key : e.idempotencyKey = c.idempotencyKey
  fingerprint : fingerprintOfEntry e = fingerprintOfCommand c
  lines : e.lines = c.lines

def Consistent : Prop :=
  ∀ c ∈ commands, ∀ c' ∈ commands, c.idempotencyKey = c'.idempotencyKey →
    fingerprintOfCommand c = fingerprintOfCommand c'

instance (commands : List PostCommand) : Decidable (Consistent commands) :=
  inferInstanceAs (Decidable (∀ c ∈ commands, ∀ c' ∈ commands, _ → _))

section
variable {π : Type} {s : Ledger π} {tenant : TenantId} {kept commands : List PostCommand}
variable {c : PostCommand}

structure Holds (tenant : TenantId) (s : Ledger π) (kept : List PostCommand) : Prop where
  stands : List.Forall₂ Stands (s.journal tenant) kept
  nodup : (kept.map PostCommand.idempotencyKey).Nodup

theorem eq_of_key (hnd : (kept.map PostCommand.idempotencyKey).Nodup) {k k' : PostCommand}
    (hk : k ∈ kept) (hk' : k' ∈ kept) (h : k.idempotencyKey = k'.idempotencyKey) : k = k' :=
  inj_on_of_nodup_map hnd hk hk' h

theorem firsts_append (commands : List PostCommand) (c : PostCommand) :
    firsts (commands ++ [c]) = firstOfKey (firsts commands) c := by
  unfold firsts
  rw [foldl_append, foldl_cons, foldl_nil]

theorem mem_of_mem_firsts {k : PostCommand} (h : k ∈ firsts commands) : k ∈ commands := by
  induction commands using reverseRecOn with
  | nil => exact h
  | append_singleton commands c ih =>
    rw [firsts_append, firstOfKey] at h
    split_ifs at h
    · exact mem_append_left _ (ih h)
    · rcases mem_append.mp h with h | h
      · exact mem_append_left _ (ih h)
      · exact mem_append_right _ h

theorem exists_first (h : c ∈ commands) :
    ∃ k ∈ firsts commands, k.idempotencyKey = c.idempotencyKey := by
  induction commands using reverseRecOn with
  | nil => cases h
  | append_singleton commands c' ih =>
    rw [firsts_append, firstOfKey]
    rcases mem_append.mp h with h | h
    · obtain ⟨k, hk, hkey⟩ := ih h
      split_ifs
      · exact ⟨k, hk, hkey⟩
      · exact ⟨k, mem_append_left _ hk, hkey⟩
    · obtain rfl := mem_singleton.mp h
      split_ifs with hold
      · exact mem_map.mp hold
      · exact ⟨c, mem_append_right _ (mem_singleton_self c), rfl⟩

theorem consistent_of_nodup (hnd : (kept.map PostCommand.idempotencyKey).Nodup) :
    Consistent kept := by
  intro k hk k' hk' hkey
  rw [eq_of_key hnd hk hk' hkey]

theorem consistent_firstOfKey (hagree : ∀ k ∈ kept, k.idempotencyKey = c.idempotencyKey →
      fingerprintOfCommand k = fingerprintOfCommand c) :
    Consistent (kept ++ c :: commands) ↔ Consistent (firstOfKey kept c ++ commands) := by
  unfold firstOfKey
  split_ifs with hkey
  · obtain ⟨k, hk, hsame⟩ := mem_map.mp hkey
    constructor
    · intro h x hx y hy
      have hsub : ∀ x ∈ kept ++ commands, x ∈ kept ++ c :: commands := by
        intro x hx
        rcases mem_append.mp hx with hx | hx
        · exact mem_append_left _ hx
        · exact mem_append_right _ (mem_cons_of_mem _ hx)
      exact h x (hsub x hx) y (hsub y hy)
    · intro h
      -- the command is spoken for by the one that is kept
      have hrep : ∀ x ∈ kept ++ c :: commands, ∃ y ∈ kept ++ commands,
          x.idempotencyKey = y.idempotencyKey ∧ fingerprintOfCommand x = fingerprintOfCommand y := by
        intro x hx
        rcases mem_append.mp hx with hx | hx
        · exact ⟨x, mem_append_left _ hx, rfl, rfl⟩
        · rcases mem_cons.mp hx with rfl | hx
          · exact ⟨k, mem_append_left _ hk, hsame.symm, (hagree k hk hsame).symm⟩
          · exact ⟨x, mem_append_right _ hx, rfl, rfl⟩
      intro x hx y hy hxy
      obtain ⟨x', hx', hkeyx, hfx⟩ := hrep x hx
      obtain ⟨y', hy', hkeyy, hfy⟩ := hrep y hy
      rw [hfx, hfy]
      exact h x' hx' y' hy' (hkeyx.symm.trans (hxy.trans hkeyy))
  · rw [append_assoc, singleton_append]

theorem Holds.key_of_mem (h : Holds tenant s kept) {e : PostedEntry} (he : e ∈ s.journal tenant) :
    ∃ k ∈ kept, Stands e k := exists_of_forall₂ h.stands.flip he

theorem Holds.entry_of_mem (h : Holds tenant s kept) {k : PostCommand} (hk : k ∈ kept) :
    ∃ e ∈ s.journal tenant, Stands e k := exists_of_forall₂ h.stands hk

theorem Holds.lines (h : Holds tenant s kept) :
    (s.journal tenant).map (fun e => e.lines) = kept.map PostCommand.lines := by
  rw [← forall₂_eq_eq_eq, forall₂_map_left_iff, forall₂_map_right_iff]
  exact h.stands.imp fun _ _ h => h.lines

variable [PeriodStore π] (coa : ChartOfAccounts) (opts : PostOptions)

theorem Holds.post (h : Holds tenant s kept) (htenant : c.tenantId = tenant)
    (hopen : PeriodStore.status s.periods tenant c.periodKey ≠ .locked)
    (hlines : validateAndBuildLines c.lines c.currency coa = .ok c.lines) :
    if ∀ k ∈ kept, k.idempotencyKey = c.idempotencyKey →
        fingerprintOfCommand k = fingerprintOfCommand c
      then ∃ e t, (PostingEngine.post coa c opts).run LedgerCall.exec s = (.ok e, t) ∧
        Holds tenant t (firstOfKey kept c) ∧ t.periods = s.periods
      else ∃ err, (PostingEngine.post coa c opts).run LedgerCall.exec s = (.error err, s) := by
  subst htenant
  have hends := PostingEngine.postEnds coa c opts s
  generalize (PostingEngine.post coa c opts).run LedgerCall.exec s = r at hends ⊢
  cases hends with
  | @answered e hanswer =>
    obtain ⟨hmem, hkey⟩ := InMemoryLedgerStore.getByIdempotencyKey_iff.mp hanswer.1
    obtain ⟨k, hk, hstnd⟩ := h.key_of_mem hmem
    have hsame : k.idempotencyKey = c.idempotencyKey := hstnd.key.symm.trans hkey
    have hagree : ∀ k' ∈ kept, k'.idempotencyKey = c.idempotencyKey →
        fingerprintOfCommand k' = fingerprintOfCommand c := by
      intro k' hk' hkey'
      rw [eq_of_key h.nodup hk' hk (hkey'.trans hsame.symm), ← hstnd.fingerprint, hanswer.2]
    rw [if_pos hagree]
    refine ⟨e, s, rfl, ?_, rfl⟩
    unfold firstOfKey
    rwa [if_pos (mem_map.mpr ⟨k, hk, hsame⟩)]
  | refused err hanswers happends =>
    have hdis : ¬ ∀ k ∈ kept, k.idempotencyKey = c.idempotencyKey →
        fingerprintOfCommand k = fingerprintOfCommand c := by
      intro hagree
      cases hlook : s.store.getByIdempotencyKey c.tenantId c.idempotencyKey with
      | none => exact happends ⟨hlook, hopen, hlines⟩
      | some e =>
        obtain ⟨hmem, hkey⟩ := InMemoryLedgerStore.getByIdempotencyKey_iff.mp hlook
        obtain ⟨k, hk, hstnd⟩ := h.key_of_mem hmem
        refine hanswers e ⟨hlook, ?_⟩
        rw [hstnd.fingerprint, hagree k hk (hstnd.key.symm.trans hkey)]
    rw [if_neg hdis]
    exact ⟨err, rfl⟩
  | appended happends =>
    have hnew : c.idempotencyKey ∉ kept.map PostCommand.idempotencyKey := by
      intro hkey
      obtain ⟨k, hk, hsame⟩ := mem_map.mp hkey
      obtain ⟨e, he, hstnd⟩ := h.entry_of_mem hk
      exact InMemoryLedgerStore.getByIdempotencyKey_eq_none.mp happends.free e he
        (hstnd.key.trans hsame)
    have hagree : ∀ k ∈ kept, k.idempotencyKey = c.idempotencyKey →
        fingerprintOfCommand k = fingerprintOfCommand c := fun k hk hkey =>
      absurd (mem_map.mpr ⟨k, hk, hkey⟩) hnew
    rw [if_pos hagree]
    refine ⟨_, _, rfl, ?_, rfl⟩
    unfold firstOfKey
    rw [if_neg hnew]
    constructor
    · rw [Ledger.journal_posted opts happends, if_pos rfl]
      exact rel_append h.stands (.cons ⟨rfl, rfl, rfl⟩ .nil)
    · rw [map_append, map_singleton]
      exact nodup_append.mpr ⟨h.nodup, nodup_singleton _, fun a ha b hb => by
        rw [mem_singleton.mp hb]
        rintro rfl
        exact hnew ha⟩

theorem Holds.postCommands (h : Holds tenant s kept) (htenant : ∀ c ∈ commands, c.tenantId = tenant)
    (hopen : ∀ c ∈ commands, PeriodStore.status s.periods tenant c.periodKey ≠ .locked)
    (hlines : ∀ c ∈ commands, validateAndBuildLines c.lines c.currency coa = .ok c.lines) :
    if Consistent (kept ++ commands)
      then ∃ t, (postCommands coa opts commands).run LedgerCall.exec s = (.ok (), t) ∧
        Holds tenant t (commands.foldl firstOfKey kept)
      else ∃ err t, (postCommands coa opts commands).run LedgerCall.exec s = (.error err, t) := by
  induction commands generalizing s kept with
  | nil =>
    rw [append_nil, if_pos (consistent_of_nodup h.nodup)]
    exact ⟨s, rfl, h⟩
  | cons c commands ih =>
    rw [forall_mem_cons] at htenant hopen hlines
    have hpost := h.post coa opts htenant.1 hopen.1 hlines.1
    by_cases hagree : ∀ k ∈ kept, k.idempotencyKey = c.idempotencyKey →
        fingerprintOfCommand k = fingerprintOfCommand c
    · rw [if_pos hagree] at hpost
      obtain ⟨e, t, hrun, hholds, hperiods⟩ := hpost
      have hrest := ih hholds htenant.2 (by rw [hperiods]; exact hopen.2) hlines.2
      unfold Migration.postCommands
      rw [Prog.run_bind_ok hrun, foldl_cons]
      simp only [consistent_firstOfKey hagree]
      exact hrest
    · rw [if_neg hagree] at hpost
      obtain ⟨err, hrun⟩ := hpost
      have hnot : ¬ Consistent (kept ++ c :: commands) := by
        refine fun hall => hagree fun k hk hkey => ?_
        exact hall k (mem_append_left _ hk) c
          (mem_append_right _ mem_cons_self) hkey
      rw [if_neg hnot]
      unfold Migration.postCommands
      exact ⟨err, s, Prog.run_bind_error hrun⟩

end

end Rgnr8.Migration
