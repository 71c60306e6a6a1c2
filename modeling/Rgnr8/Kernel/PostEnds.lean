import Rgnr8.Kernel.TrialBalance

/-! How a post ends, said of the ledger it starts from: the journal answers it, or appends it, or it
is refused. The flows of the service say with these words what their entry will do. -/

namespace Rgnr8.Kernel
open Lib InMemoryLedgerStore
variable {π : Type}

namespace Ledger

def journal (s : Ledger π) (tenant : TenantId) : List PostedEntry := s.store.list tenant

def Answers (s : Ledger π) (command : PostCommand) (e : PostedEntry) : Prop :=
  s.store.getByIdempotencyKey command.tenantId command.idempotencyKey = some e ∧
    fingerprintOfEntry e = fingerprintOfCommand command

theorem answers_iff {s : Ledger π} {command : PostCommand} : (∃ e, s.Answers command e) ↔
    ∃ e ∈ s.store.getByIdempotencyKey command.tenantId command.idempotencyKey,
      fingerprintOfEntry e = fingerprintOfCommand command := Iff.rfl

instance (s : Ledger π) (command : PostCommand) : Decidable (∃ e, s.Answers command e) :=
  decidable_of_iff' _ answers_iff

variable [PeriodStore π]

def Appends (s : Ledger π) (coa : ChartOfAccounts) (command : PostCommand) : Prop :=
  s.store.getByIdempotencyKey command.tenantId command.idempotencyKey = none ∧
    PeriodStore.status s.periods command.tenantId command.periodKey ≠ .locked ∧
    validateAndBuildLines command.lines command.currency coa = .ok command.lines

instance (s : Ledger π) (coa : ChartOfAccounts) (command : PostCommand) :
    Decidable (s.Appends coa command) := inferInstanceAs (Decidable (_ ∧ _ ∧ _))

/-- The post will return, with an old entry or a new one. -/
def Accepts (s : Ledger π) (coa : ChartOfAccounts) (command : PostCommand) : Prop :=
  (∃ e, s.Answers command e) ∨ s.Appends coa command

instance (s : Ledger π) (coa : ChartOfAccounts) (command : PostCommand) :
    Decidable (s.Accepts coa command) := inferInstanceAs (Decidable (_ ∨ _))

def posted (s : Ledger π) (command : PostCommand) (opts : PostOptions) : Ledger π :=
  s.append (PostingEngine.draftOfCommand command opts command.lines)

def entryOf (s : Ledger π) (command : PostCommand) (opts : PostOptions) : PostedEntry :=
  (PostingEngine.draftOfCommand command opts command.lines).numbered
    ((s.journal command.tenantId).length + 1)

variable {s : Ledger π} {coa : ChartOfAccounts} {command : PostCommand}

omit [PeriodStore π] in
theorem not_answers_of_free {e : PostedEntry}
    (h : s.store.getByIdempotencyKey command.tenantId command.idempotencyKey = none) :
    ¬ s.Answers command e := by
  intro ha
  rw [ha.1] at h
  cases h

theorem Appends.free (h : s.Appends coa command) :
    s.store.getByIdempotencyKey command.tenantId command.idempotencyKey = none := h.1

variable (opts : PostOptions)

theorem journal_posted (h : s.Appends coa command) (tenant : TenantId) :
    (s.posted command opts).journal tenant =
      if tenant = command.tenantId then s.journal tenant ++ [s.entryOf command opts]
      else s.journal tenant := by
  have hfree : s.store.getByIdempotencyKey
      (PostingEngine.draftOfCommand command opts command.lines).tenantId
      (PostingEngine.draftOfCommand command opts command.lines).idempotencyKey = none := h.free
  have hlist := list_append_of_none hfree tenant
  rw [append_of_none hfree] at hlist
  rw [journal, posted, append, append_of_none hfree]
  exact hlist

theorem balanceOf_posted (h : s.Appends coa command) (id : AccountId) :
    balanceOf id ((s.posted command opts).journal command.tenantId) =
      balanceOf id (s.journal command.tenantId) + netOn id command.lines := by
  rw [journal_posted opts h, if_pos rfl, balanceOf_concat]
  rfl

theorem getByIdempotencyKey_posted (h : s.Appends coa command) (tenant : TenantId)
    (k : IdempotencyKey) : (s.posted command opts).store.getByIdempotencyKey tenant k =
      if tenant = command.tenantId ∧ k = command.idempotencyKey then some (s.entryOf command opts)
      else s.store.getByIdempotencyKey tenant k := by
  have hjnl := journal_posted opts h tenant
  ext e
  have hnew : ((s.posted command opts).store.getByIdempotencyKey tenant k = some e) ↔
      e ∈ (s.posted command opts).journal tenant ∧ e.idempotencyKey = k :=
    getByIdempotencyKey_iff
  have hold : (s.store.getByIdempotencyKey tenant k = some e) ↔
      e ∈ s.journal tenant ∧ e.idempotencyKey = k := getByIdempotencyKey_iff
  have hfree := getByIdempotencyKey_eq_none.mp h.free
  rw [hnew, hjnl]
  by_cases ht : tenant = command.tenantId
  · subst ht
    rw [if_pos rfl, List.mem_append, List.mem_singleton]
    by_cases hk : k = command.idempotencyKey
    · subst hk
      rw [if_pos ⟨rfl, rfl⟩, Option.some.injEq]
      constructor
      · rintro ⟨hmem | rfl, hkey⟩
        · exact absurd hkey (hfree e hmem)
        · rfl
      · rintro rfl
        exact ⟨.inr rfl, rfl⟩
    · rw [if_neg fun hboth => hk hboth.2, hold]
      refine and_congr_left fun hkey => or_iff_left ?_
      rintro rfl
      exact hk hkey.symm
  · rw [if_neg ht, if_neg fun hboth => ht hboth.1, hold]

end Ledger

namespace PostingEngine
variable [PeriodStore π]

inductive PostEnds (coa : ChartOfAccounts) (command : PostCommand) (opts : PostOptions)
    (s : Ledger π) : Except LedgerError PostedEntry × Ledger π → Prop where
  | answered {e : PostedEntry} (h : s.Answers command e) : PostEnds coa command opts s (.ok e, s)
  | refused (err : LedgerError) (hanswers : ∀ e, ¬ s.Answers command e)
      (happends : ¬ s.Appends coa command) : PostEnds coa command opts s (.error err, s)
  | appended (h : s.Appends coa command) :
      PostEnds coa command opts s (.ok (s.entryOf command opts), s.posted command opts)

theorem postEnds (coa : ChartOfAccounts) (command : PostCommand) (opts : PostOptions)
    (s : Ledger π) :
    PostEnds coa command opts s ((post coa command opts).run LedgerCall.exec s) := by
  rw [post]
  cases hkey : s.store.getByIdempotencyKey command.tenantId command.idempotencyKey with
  | some e =>
    rw [run_settle_of_some hkey]
    split_ifs with hsame
    · exact .answered ⟨hkey, hsame⟩
    · refine .refused _ (fun e' h => ?_) fun h => ?_
      · obtain rfl := Option.some.inj (hkey.symm.trans h.1)
        exact hsame h.2
      · cases hkey.symm.trans h.free
  | none =>
    rw [run_settle_of_none hkey, run_appendFresh]
    split_ifs with hlkd
    · exact .refused _ (fun e => Ledger.not_answers_of_free hkey) fun h => h.2.1 hlkd
    · cases hlines : validateAndBuildLines command.lines command.currency coa with
      | error err =>
        refine .refused err (fun e => Ledger.not_answers_of_free hkey) fun h => ?_
        cases hlines.symm.trans h.2.2
      | ok lines =>
        obtain ⟨-, -, -, rfl⟩ := validateAndBuildLines_eq_ok.mp hlines
        have hposts : s.Appends coa command := ⟨hkey, hlkd, hlines⟩
        have hent : (s.store.append (draftOfCommand command opts command.lines)).1 =
            s.entryOf command opts := by
          rw [append_of_none hposts.free]
          rfl
        have hend : PostEnds coa command opts s (.ok (s.entryOf command opts), s.posted command opts) :=
          .appended hposts
        rw [← hent] at hend
        exact hend

end PostingEngine
end Rgnr8.Kernel
