import Rgnr8.Kernel.AppendCalls

/-! How a reversal ends, said of the ledger it starts from, and the reversals that a journal has on
record for its entries. -/

namespace Rgnr8.Kernel
open Lib InMemoryLedgerStore PostingEngine List

structure ReverseRequest where
  coa : ChartOfAccounts
  tenant : TenantId
  originalId : EntryId
  opts : ReverseOptions

variable (q : ReverseRequest)

def ReverseRequest.program : LedgerProg PostedEntry :=
  PostingEngine.reverse q.coa q.tenant q.originalId q.opts

def ReverseRequest.fingerprint (original : PostedEntry) : String :=
  fingerprintOfReversal original.currency.code q.opts.periodKey q.opts.entryDate
    (PostingEngine.reversalMemo original q.opts) q.opts.provenance
    (PostingEngine.swapped original.lines)

def ReverseRequest.draft (original : PostedEntry) : DraftEntry :=
  PostingEngine.draftOfReversal q.tenant original q.opts

namespace Ledger
variable {π : Type}
variable (s : Ledger π) (q : ReverseRequest)

def Reversible (original : PostedEntry) : Prop :=
  s.store.getById q.tenant q.originalId = some original ∧
    PostingEngine.refuseInactive q.coa original.lines = .ok ()

def AnswersReversal (e : PostedEntry) : Prop :=
  ∃ original, s.Reversible q original ∧
    s.store.getByIdempotencyKey q.tenant q.opts.idempotencyKey = some e ∧
    fingerprintOfEntry e = q.fingerprint original

def AppendsReversal [PeriodStore π] (original : PostedEntry) : Prop :=
  s.Reversible q original ∧
    s.store.getByIdempotencyKey q.tenant q.opts.idempotencyKey = none ∧
    PeriodStore.status s.periods q.tenant q.opts.periodKey ≠ .locked

def reversalsOf (tenant : TenantId) (id : EntryId) : List PostedEntry :=
  (s.journal tenant).filter fun e => e.reversalOf = some id

def Reversed (tenant : TenantId) (id : EntryId) : Prop :=
  ∃ e ∈ s.journal tenant, e.reversalOf = some id

theorem mem_reversalsOf {s : Ledger π} {tenant : TenantId} {id : EntryId} {e : PostedEntry} :
    e ∈ s.reversalsOf tenant id ↔ e ∈ s.journal tenant ∧ e.reversalOf = some id := by
  unfold reversalsOf
  rw [mem_filter, decide_eq_true_eq]

theorem reversed_iff {s : Ledger π} {tenant : TenantId} {id : EntryId} :
    s.Reversed tenant id ↔ s.reversalsOf tenant id ≠ [] := by
  rw [ne_eq, eq_nil_iff_forall_not_mem, not_forall_not]
  exact exists_congr fun e => mem_reversalsOf.symm

instance (s : Ledger π) (tenant : TenantId) (id : EntryId) : Decidable (s.Reversed tenant id) :=
  decidable_of_iff' _ reversed_iff

def Mirrored : Prop :=
  ∀ tenant, ∀ r ∈ s.journal tenant, ∀ id, r.reversalOf = some id →
    ∃ e ∈ s.journal tenant, e.id = id ∧ r.lines = PostingEngine.swapped e.lines

/-- `s'` is `s` with entries appended that reverse nothing. -/
def AddsPlain (s s' : Ledger π) : Prop :=
  ∀ tenant, ∃ added, s'.journal tenant = s.journal tenant ++ added ∧
    ∀ e ∈ added, e.reversalOf = none

namespace AddsPlain
variable {s s' s'' : Ledger π}

theorem of_store_eq (h : s'.store = s.store) : s.AddsPlain s' := by
  intro tenant
  refine ⟨[], ?_, fun e he => absurd he not_mem_nil⟩
  unfold journal
  rw [h, append_nil]

theorem refl (s : Ledger π) : s.AddsPlain s := of_store_eq rfl

theorem trans (h : s.AddsPlain s') (h' : s'.AddsPlain s'') : s.AddsPlain s'' := by
  intro tenant
  obtain ⟨added, hjnl, hplain⟩ := h tenant
  obtain ⟨added', hjnl', hplain'⟩ := h' tenant
  refine ⟨added ++ added', ?_, fun e he => ?_⟩
  · rw [hjnl', hjnl, append_assoc]
  · rcases mem_append.mp he with he | he
    · exact hplain e he
    · exact hplain' e he

theorem reversalsOf_eq (h : s.AddsPlain s') (tenant : TenantId) (id : EntryId) :
    s'.reversalsOf tenant id = s.reversalsOf tenant id := by
  obtain ⟨added, hjnl, hplain⟩ := h tenant
  unfold reversalsOf
  have hnone : added.filter (fun e => e.reversalOf = some id) = [] := by
    rw [filter_eq_nil_iff]
    intro e he hrever
    rw [hplain e he] at hrever
    exact absurd (of_decide_eq_true hrever) (Option.some_ne_none id).symm
  rw [hjnl, filter_append, hnone, append_nil]

theorem mirrored (h : s.AddsPlain s') (hs : s.Mirrored) : s'.Mirrored := by
  intro tenant r hr id hid
  obtain ⟨added, hjnl, hplain⟩ := h tenant
  rw [hjnl] at hr ⊢
  rcases mem_append.mp hr with hr | hr
  · obtain ⟨e, he, hmir⟩ := hs tenant r hr id hid
    exact ⟨e, mem_append_left _ he, hmir⟩
  · rw [hplain r hr] at hid
    cases hid

theorem append {d : DraftEntry} (hd : d.reversalOf = none) (s : Ledger π) :
    s.AddsPlain (s.append d) := by
  intro tenant
  show ∃ added, (s.store.append d).2.list tenant = s.store.list tenant ++ added ∧ _
  rcases hkey : s.store.getByIdempotencyKey d.tenantId d.idempotencyKey with - | e
  · rw [list_append_of_none hkey]
    split_ifs with htenant
    · refine ⟨[(s.store.append d).1], rfl, fun e he => ?_⟩
      rw [mem_singleton.mp he, append_of_none hkey]
      exact hd
    · exact ⟨[], (append_nil _).symm, fun e he => absurd he not_mem_nil⟩
  · rw [append_of_some hkey]
    exact ⟨[], (append_nil _).symm, fun e he => absurd he not_mem_nil⟩

variable [PeriodStore π]

theorem exec {c : LedgerCall} (hc : c.AppendsOnly fun d => d.reversalOf = none) (s : Ledger π) :
    s.AddsPlain (c.exec s).2 := by
  cases c with
  | append draft => exact append hc s
  | _ => exact of_store_eq rfl

end AddsPlain

variable [PeriodStore π] {s : Ledger π} {q : ReverseRequest} {original : PostedEntry}

def reversedBy (s : Ledger π) (q : ReverseRequest) (original : PostedEntry) : Ledger π :=
  s.append (q.draft original)

def reversalEntry (s : Ledger π) (q : ReverseRequest) (original : PostedEntry) : PostedEntry :=
  (q.draft original).numbered ((s.journal q.tenant).length + 1)

theorem journal_reversedBy (h : s.AppendsReversal q original) (tenant : TenantId) :
    (s.reversedBy q original).journal tenant =
      if tenant = q.tenant then s.journal tenant ++ [s.reversalEntry q original]
      else s.journal tenant := by
  have hfree : s.store.getByIdempotencyKey (q.draft original).tenantId
      (q.draft original).idempotencyKey = none := h.2.1
  have hlist := list_append_of_none hfree tenant
  rw [append_of_none hfree] at hlist
  rw [journal, reversedBy, append, append_of_none hfree]
  exact hlist

omit [PeriodStore π] in
theorem Reversible.id_eq (h : s.Reversible q original) : original.id = q.originalId :=
  (getById_iff.mp h.1).2

omit [PeriodStore π] in
theorem reversalOf_reversalEntry (h : s.Reversible q original) :
    (s.reversalEntry q original).reversalOf = some q.originalId := congrArg some h.id_eq

theorem reversalsOf_reversedBy (h : s.AppendsReversal q original) (tenant : TenantId)
    (id : EntryId) : (s.reversedBy q original).reversalsOf tenant id =
      if tenant = q.tenant ∧ id = q.originalId then
        s.reversalsOf tenant id ++ [s.reversalEntry q original]
      else s.reversalsOf tenant id := by
  have hrever := reversalOf_reversalEntry h.1
  unfold reversalsOf
  rw [journal_reversedBy h]
  by_cases htenant : tenant = q.tenant
  · rw [if_pos htenant, filter_append]
    by_cases hid : id = q.originalId
    · rw [if_pos ⟨htenant, hid⟩, filter_cons_of_pos, filter_nil]
      rw [hrever, hid]
      exact decide_eq_true rfl
    · rw [if_neg fun hboth => hid hboth.2, filter_cons_of_neg, filter_nil, append_nil]
      rw [hrever, decide_eq_true_eq]
      exact fun heq => hid (Option.some.inj heq).symm
  · rw [if_neg htenant, if_neg fun hboth => htenant hboth.1]

theorem mirrored_reversedBy (h : s.AppendsReversal q original) (hs : s.Mirrored) :
    (s.reversedBy q original).Mirrored := by
  intro tenant r hr id hid
  rw [journal_reversedBy h] at hr ⊢
  split_ifs at hr ⊢ with htenant
  · rcases mem_append.mp hr with hr | hr
    · obtain ⟨e, he, hmir⟩ := hs tenant r hr id hid
      exact ⟨e, mem_append_left _ he, hmir⟩
    · rw [mem_singleton.mp hr] at hid ⊢
      have horiginal : original ∈ s.journal q.tenant :=
        (getById_iff.mp h.1.1).1
      rw [htenant]
      exact ⟨original, mem_append_left _ horiginal, Option.some.inj hid, rfl⟩
  · exact hs tenant r hr id hid

theorem netOn_swapped (id : AccountId) (lines : List PostedLine) :
    netOn id (PostingEngine.swapped lines) = -netOn id lines := by
  unfold swapped
  induction lines with
  | nil => rfl
  | cons l lines ih =>
    rw [map_cons, netOn_cons, ih, netOn_cons, Int.neg_add]
    dsimp only
    split_ifs
    · rw [EntrySide.signed_swap]
    · rfl

def NetsToZero (s : Ledger π) (tenant : TenantId) (e : PostedEntry) : Prop :=
  ∀ id, balanceOf id (e :: s.reversalsOf tenant e.id) = 0

omit [PeriodStore π] in
theorem netsToZero (hs : s.Mirrored) {tenant : TenantId} {e r : PostedEntry}
    (he : e ∈ s.journal tenant) (h : s.reversalsOf tenant e.id = [r]) : s.NetsToZero tenant e := by
  have hr : r ∈ s.journal tenant ∧ r.reversalOf = some e.id :=
    mem_reversalsOf.mp (h ▸ mem_singleton_self r)
  obtain ⟨e', he', hid, hlines⟩ := hs tenant r hr.1 e.id hr.2
  have hsame : e' = e := by
    have hget : s.store.getById tenant e.id = some e' := getById_iff.mpr ⟨he', hid⟩
    have hget' : s.store.getById tenant e.id = some e := getById_iff.mpr ⟨he, rfl⟩
    exact Option.some.inj (hget.symm.trans hget')
  intro id
  have hboth := balanceOf_concat id [e] r
  have hone := balanceOf_concat id [] e
  rw [h]
  show balanceOf id ([e] ++ [r]) = 0
  rw [hboth, hlines, hsame, netOn_swapped]
  show balanceOf id ([] ++ [e]) + -netOn id e.lines = 0
  rw [hone, balanceOf_nil]
  omega

end Ledger

variable {π : Type} [PeriodStore π]

inductive ReverseEnds (q : ReverseRequest) (s : Ledger π) :
    Except LedgerError PostedEntry × Ledger π → Prop where
  | answered {e : PostedEntry} (h : s.AnswersReversal q e) : ReverseEnds q s (.ok e, s)
  | refused (err : LedgerError) (hanswers : ∀ e, ¬ s.AnswersReversal q e)
      (happends : ∀ original, ¬ s.AppendsReversal q original) : ReverseEnds q s (.error err, s)
  | appended {original : PostedEntry} (h : s.AppendsReversal q original) :
      ReverseEnds q s (.ok (s.reversalEntry q original), s.reversedBy q original)

theorem reverseEnds (q : ReverseRequest) (s : Ledger π) :
    ReverseEnds q s (q.program.run LedgerCall.exec s) := by
  unfold ReverseRequest.program
  rcases horiginal : s.store.getById q.tenant q.originalId with - | original
  · rw [run_reverse_of_none horiginal]
    refine .refused _ (fun e h => ?_) fun original h => ?_
    · obtain ⟨original, hrev, -⟩ := h
      cases horiginal.symm.trans hrev.1
    · cases horiginal.symm.trans h.1.1
  · have huniq : ∀ o, s.Reversible q o → o = original :=
      fun o h => Option.some.inj (h.1.symm.trans horiginal)
    rw [run_reverse_of_some horiginal]
    rcases hactive : refuseInactive q.coa original.lines with err | u
    · refine .refused _ (fun e h => ?_) fun o h => ?_
      · obtain ⟨o, hrev, -⟩ := h
        have hok := hrev.2
        rw [huniq o hrev, hactive] at hok
        cases hok
      · have hok := h.1.2
        rw [huniq o h.1, hactive] at hok
        cases hok
    · have hrev : s.Reversible q original := ⟨horiginal, hactive⟩
      have hint : settleReversal q.tenant original q.opts =
          settle q.tenant q.opts.idempotencyKey q.opts.periodKey
            (q.fingerprint original) (.ok (q.draft original)) := rfl
      dsimp only
      rw [hint]
      rcases hkey : s.store.getByIdempotencyKey q.tenant q.opts.idempotencyKey with - | e
      · rw [run_settle_of_none hkey, run_appendFresh]
        split_ifs with hlkd
        · refine .refused _ (fun e h => ?_) fun o h => h.2.2 hlkd
          obtain ⟨-, -, hheld, -⟩ := h
          cases hkey.symm.trans hheld
        · have happends : s.AppendsReversal q original := ⟨hrev, hkey, hlkd⟩
          have hent : (s.store.append (q.draft original)).1 = s.reversalEntry q original := by
            rw [append_of_none hkey]
            rfl
          have hend : ReverseEnds q s (.ok (s.reversalEntry q original), s.reversedBy q original) :=
            .appended happends
          rw [← hent] at hend
          exact hend
      · rw [run_settle_of_some hkey]
        split_ifs with hsame
        · exact .answered ⟨original, hrev, hkey, hsame⟩
        · refine .refused _ (fun e' h => hsame ?_) fun o h => ?_
          · obtain ⟨o, ho, hheld, hsays⟩ := h
            rw [Option.some.inj (hkey.symm.trans hheld), ← huniq o ho]
            exact hsays
          · cases hkey.symm.trans h.2.1

end Rgnr8.Kernel
