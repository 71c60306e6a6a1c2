import Rgnr8.Postgres.PeriodStore
import Rgnr8.Close.CloseStateSpec

/-! Period stores in which a period can be locked on its own: the lock stands until that period is
unlocked, whatever happens to others. Both period stores are of this kind. -/

namespace Rgnr8.Close
open Lib Kernel Postgres CloseStores Option List

class IndividualLocks (π : Type) extends PeriodStore π where
  OwnLock : π → TenantId → PeriodKey → Prop
  status_of_ownLock : ∀ s t p, OwnLock s t p → status s t p = .locked
  ownLock_lock : ∀ s t p, OwnLock (lock s t p) t p
  ownLock_lock_of : ∀ s t p t' q, OwnLock s t p → OwnLock (lock s t' q) t p
  ownLock_unlock_ne : ∀ s t p t' q, (t, p) ≠ (t', q) → OwnLock s t p → OwnLock (unlock s t' q) t p

namespace InMemory
variable {T P : Type} [DecidableEq T] [LinearOrder P] {s : InMemoryPeriodStore T P} {t t' : T}
variable {p q : P}

def OwnLock (s : InMemoryPeriodStore T P) (t : T) (p : P) : Prop :=
  (t, p) ∈ s.locked ∧ (t, p) ∉ s.reopened

theorem status_of_ownLock (h : OwnLock s t p) : s.status t p = .locked :=
  InMemoryPeriodStore.status_eq_locked_iff.mpr ⟨h.2, .inl h.1⟩

theorem ownLock_lock (s : InMemoryPeriodStore T P) (t : T) (p : P) : OwnLock (s.lock t p) t p :=
  ⟨Finset.mem_insert_self .., Finset.notMem_erase (t, p) s.reopened⟩

theorem ownLock_lock_of (t' : T) (q : P) (h : OwnLock s t p) : OwnLock (s.lock t' q) t p :=
  ⟨Finset.mem_insert_of_mem h.1, fun hmem => h.2 (Finset.mem_of_mem_erase hmem)⟩

theorem ownLock_unlock_ne (hne : (t, p) ≠ (t', q)) (h : OwnLock s t p) :
    OwnLock (s.unlock t' q) t p := by
  refine ⟨Finset.mem_erase.mpr ⟨hne, h.1⟩, fun hmem => ?_⟩
  rcases InMemoryPeriodStore.mem_reopened_unlock.mp hmem with hr | ⟨hkey, -⟩
  · exact h.2 hr
  · exact hne hkey

end InMemory

instance : IndividualLocks (InMemoryPeriodStore TenantId PeriodKey) where
  OwnLock := InMemory.OwnLock
  status_of_ownLock _ _ _ h := InMemory.status_of_ownLock h
  ownLock_lock := InMemory.ownLock_lock
  ownLock_lock_of _ _ _ t' q h := InMemory.ownLock_lock_of t' q h
  ownLock_unlock_ne _ _ _ _ _ hne h := InMemory.ownLock_unlock_ne hne h

namespace Sql
variable {T P : Type} [DecidableEq T] [LinearOrder P] {s : SqlPeriodStore T P} {t t' : T}
variable {p q : P}

/-- A `LOCKED` row of the period itself. -/
def OwnLock (s : SqlPeriodStore T P) (t : T) (p : P) : Prop := s.row t p = some .locked

theorem ownLock_lock (s : SqlPeriodStore T P) (t : T) (p : P) : OwnLock (s.lock t p) t p :=
  (SqlPeriodStore.row_lock s t t p p).trans (if_pos rfl)

theorem ownLock_lock_of (t' : T) (q : P) (h : OwnLock s t p) : OwnLock (s.lock t' q) t p := by
  unfold OwnLock
  rw [SqlPeriodStore.row_lock]
  split_ifs
  · rfl
  · exact h

theorem ownLock_unlock_ne (hne : (t, p) ≠ (t', q)) (h : OwnLock s t p) :
    OwnLock (s.unlock t' q) t p := by
  unfold OwnLock
  rw [SqlPeriodStore.row_unlock, if_neg hne]
  exact h

end Sql

instance : IndividualLocks (SqlPeriodStore TenantId PeriodKey) where
  OwnLock := Sql.OwnLock
  status_of_ownLock _ _ _ h := SqlPeriodStore.status_of_locked (.inl h)
  ownLock_lock := Sql.ownLock_lock
  ownLock_lock_of _ _ _ t' q h := Sql.ownLock_lock_of t' q h
  ownLock_unlock_ne _ _ _ _ _ hne h := Sql.ownLock_unlock_ne hne h

/-! What every reachable close state stands for: a lock, a stored package, a gate that was passed,
and a pending request that the history ends with. -/

variable {π τ : Type} [IndividualLocks π] [PackageStore τ]

structure StateOk (s : CloseStores π τ) (t : TenantId) (p : PeriodKey) (st : CloseState) :
    Prop where
  keyed : st.tenantId = t ∧ st.periodKey = p
  locked : st.status = .published ∨ st.status = .reopenRequested →
    IndividualLocks.OwnLock s.ledger.periods t p
  stored : st.status = .published →
    ∃ kept, s.held t p = some kept ∧ st.packageFingerprint = some kept.fingerprint
  gate : st.status = .published → ∀ task ∈ failedTasks st.checklist,
    task.id ≠ "trial_balance" ∧ ∃ override, st.override = some override ∧ task ∈ override.checks
  pending : st.status = .reopenRequested → ∃ request, st.history.getLast? = some request ∧
    request.action = .requestReopen ∧ st.reopenRequestedBy = some request.by_

def StatesOk (s : CloseStores π τ) : Prop := ∀ t p st, s.state t p = some st → StateOk s t p st

theorem statesOk_opening (ledger : Ledger π) (packages : τ) :
    StatesOk (CloseStores.opening ledger packages) := fun _ _ _ h => nomatch h

theorem gateOverride_ok {input : PublishCloseInput} {override : Option CloseOverride}
    (h : input.gateOverride = .ok override) {task : CloseTask}
    (htask : task ∈ failedTasks input.checklist) :
    task.id ≠ "trial_balance" ∧ ∃ o, override = some o ∧ task ∈ o.checks := by
  have hne : failedTasks input.checklist ≠ [] := ne_nil_of_mem htask
  unfold PublishCloseInput.gateOverride at h
  cases hreq : input.override with
  | none =>
    simp only [hreq, if_pos hne] at h
    cases h
  | some text =>
    simp only [hreq, if_neg hne] at h
    split_ifs at h with hreas href
    rw [ne_eq, not_not, filter_eq_nil_iff] at href
    have hover : isOverridableCheck task.id = true := by
      simpa using href task htask
    refine ⟨(isOverridableCheck_iff (mem_failedTasks.mp htask).1).mp hover, _,
      (Except.ok.inj h).symm, htask⟩

variable {s s' : CloseStores π τ} {t : TenantId} {p : PeriodKey} {st : CloseState}

theorem StateOk.mono (h : StateOk s t p st) (hlock : IndividualLocks.OwnLock s.ledger.periods t p →
      IndividualLocks.OwnLock s'.ledger.periods t p)
    (hheld : ∀ kept, s.held t p = some kept →
      ∃ kept', s'.held t p = some kept' ∧ kept'.fingerprint = kept.fingerprint) :
    StateOk s' t p st where
  keyed := h.keyed
  locked hst := hlock (h.locked hst)
  stored hst := by
    obtain ⟨kept, hkept, hfin⟩ := h.stored hst
    obtain ⟨kept', hkept', hsame⟩ := hheld kept hkept
    exact ⟨kept', hkept', hfin.trans (congrArg some hsame.symm)⟩
  gate := h.gate
  pending := h.pending

theorem statesOk_lock (h : StatesOk s) (t : TenantId) (p : PeriodKey) : StatesOk (s.lock t p) := by
  intro t' p' st hst
  exact (h t' p' st hst).mono (IndividualLocks.ownLock_lock_of _ _ _ _ _)
    fun kept hkept => ⟨kept, hkept, rfl⟩

theorem statesOk_put (hst : StateOk s st.tenantId st.periodKey st)
    (h : ∀ t p st', (t, p) ≠ (st.tenantId, st.periodKey) → s.state t p = some st' →
      StateOk s t p st') : StatesOk (s.put st) := by
  have hput : ∀ {t p st'}, StateOk s t p st' → StateOk (s.put st) t p st' := fun hok =>
    hok.mono id fun kept hkept => ⟨kept, hkept, rfl⟩
  intro t p st' hst'
  rw [state_put] at hst'
  split_ifs at hst' with hkey
  · cases hkey
    rw [← some.inj hst']
    exact hput hst
  · exact hput (h t p st' hkey hst')

theorem statesOk_sealed {input : PublishCloseInput} (h : StatesOk s)
    {override : Option CloseOverride} (hgate : input.gateOverride = .ok override) {packages : τ}
    {kept : FinancialPackage} (hkept : kept.fingerprint = input.pkg.fingerprint)
    (hheld : ∀ t p, PackageStore.held packages t p =
      if (t, p) = (input.tenantId, input.pkg.periodKey) then some kept else s.held t p)
    (existing : Option CloseState) :
    StatesOk (({ s.lock input.tenantId input.pkg.periodKey with packages := packages }).put
      (input.sealedState existing override)) := by
  refine statesOk_put ⟨⟨rfl, rfl⟩, fun _ => ?_, fun _ => ?_, fun _ task htask => ?_, fun hst => ?_⟩
    fun t p st' hne hst' => ?_
  · exact IndividualLocks.ownLock_lock ..
  · refine ⟨kept, (hheld _ _).trans (if_pos rfl), ?_⟩
    rw [hkept]
    rfl
  · exact gateOverride_ok hgate htask
  · cases hst
  · refine (statesOk_lock h _ _ t p st' hst').mono id fun kept' hkept' => ?_
    exact ⟨kept', ((hheld t p).trans (if_neg hne)).trans hkept', rfl⟩

theorem statesOk_requested {input : RequestReopenInput} (h : StatesOk s)
    (hstate : s.state input.tenantId input.periodKey = some st) (hstatus : st.status = .published) :
    StatesOk (s.put (input.next st)) := by
  have hok := h _ _ st hstate
  obtain ⟨ht, hp⟩ := hok.keyed
  refine statesOk_put ⟨⟨rfl, rfl⟩, fun _ => ?_, fun hst => ?_, fun hst => ?_, fun _ => ?_⟩
    fun t p st' _ hst' => h t p st' hst'
  · show IndividualLocks.OwnLock s.ledger.periods st.tenantId st.periodKey
    rw [ht, hp]
    exact hok.locked (.inl hstatus)
  · cases hst
  · cases hst
  · exact ⟨_, getLast?_concat, rfl, rfl⟩

theorem statesOk_approved {input : ApproveReopenInput} (h : StatesOk s)
    (hstate : s.state input.tenantId input.periodKey = some st) :
    StatesOk ((s.unlock input.tenantId input.periodKey).put (input.next st)) := by
  obtain ⟨ht, hp⟩ := (h _ _ st hstate).keyed
  refine statesOk_put ⟨⟨rfl, rfl⟩, fun hst => ?_, fun hst => ?_, fun hst => ?_, fun hst => ?_⟩
    fun t p st' hne hst' => ?_
  · rcases hst with hst | hst <;> cases hst
  · cases hst
  · cases hst
  · cases hst
  · have hother : (t, p) ≠ (input.tenantId, input.periodKey) := by
      rw [← ht, ← hp]
      exact hne
    exact (h t p st' hst').mono (IndividualLocks.ownLock_unlock_ne _ _ _ _ _ hother)
      fun kept hkept => ⟨kept, hkept, rfl⟩

theorem statesOk_step (h : StatesOk s) (a : CloseRequest) : StatesOk (a.step s) := by
  have hmov := moved s a
  generalize a.step s = s' at hmov ⊢
  cases hmov with
  | stays => exact h
  | lockedOnly hseal => exact statesOk_lock h _ _
  | sealed hseal hyes hgate hkept hheld => exact statesOk_sealed h hgate hkept hheld _
  | requested hstate hstatus => exact statesOk_requested h hstate hstatus
  | approved hstate hstatus hother => exact statesOk_approved h hstate
  | posted hperiods =>
    intro t p st hst
    refine (h t p st hst).mono (fun hlock => ?_) fun kept hkept => ⟨kept, hkept, rfl⟩
    exact (congrArg (IndividualLocks.OwnLock · t p) hperiods).mpr hlock

theorem statesOk_run (ledger : Ledger π) (packages : τ) (as : List CloseRequest) :
    StatesOk (as.foldl CloseRequest.step (CloseStores.opening ledger packages)) :=
  foldl_invariant (I := StatesOk) (fun _ a h => statesOk_step h a)
    (statesOk_opening ledger packages) as

/-! Publishing locks the period, stores the package and records the state, all three or none: except
that a period is locked before the package store has been asked. -/

section
variable {π τ : Type}

/-- A publish that throws leaves lock, package and state of the period as they were. One that
returns leaves all three in place; the package held is the same one by its fingerprint, and the
very one given where none was held. -/
def AllOrNone [PeriodStore π] [PackageStore τ] (s : CloseStores π τ) (input : PublishCloseInput) :
    Prop :=
  let t := input.tenantId
  let p := input.pkg.periodKey
  match (publishClose input).run CloseCall.exec s with
  | (.error _, s') =>
    s'.lockStatus t p = s.lockStatus t p ∧ s'.held t p = s.held t p ∧ s'.state t p = s.state t p
  | (.ok st, s') =>
    s'.lockStatus t p = .locked ∧
      (∃ kept, s'.held t p = some kept ∧ kept.fingerprint = input.pkg.fingerprint ∧
        (s.held t p = none → kept = input.pkg)) ∧
      s'.state t p = some st ∧ st.status = .published ∧
      st.packageFingerprint = some input.pkg.fingerprint

/-- Everything the code checks before it locks lets an unlocked period through, and the package
store then refuses the package: it is broken or unbalanced, or another one is held. -/
def LocksInVain [PeriodStore π] [PackageStore τ] (s : CloseStores π τ) (input : PublishCloseInput) :
    Prop :=
  Sealable s input ∧ ¬ Accepts s input ∧ s.lockStatus input.tenantId input.pkg.periodKey ≠ .locked

theorem allOrNone_iff_of_statesOk [IndividualLocks π] [PackageStore τ] {s : CloseStores π τ}
    (hok : StatesOk s) (input : PublishCloseInput) : AllOrNone s input ↔ ¬ LocksInVain s input := by
  have h := published s input
  unfold AllOrNone
  generalize (publishClose input).run CloseCall.exec s = r at h ⊢
  -- the one way that goes wrong is a lock kept without its package
  cases h with
  | refused e hno => exact iff_of_true ⟨rfl, rfl, rfl⟩ fun hvain => hno hvain.1
  | @replayed st hstate hstatus hsame =>
    refine iff_of_true ⟨?_, ?_, hstate, hstatus, hsame⟩ fun hvain =>
      hvain.1.unpublished st hstate hstatus
    · exact IndividualLocks.status_of_ownLock _ _ _ ((hok _ _ st hstate).locked (.inl hstatus))
    · obtain ⟨kept, hkept, hfin⟩ := (hok _ _ st hstate).stored hstatus
      refine ⟨kept, hkept, some.inj (hfin.symm.trans hsame), fun hnone => ?_⟩
      cases hnone.symm.trans hkept
  | lockedOnly hseal e hno =>
    constructor
    · rintro ⟨hlock, -, -⟩ hvain
      exact hvain.2.2 (hlock.symm.trans (lockStatus_lock ..))
    · intro hnot
      refine ⟨?_, rfl, rfl⟩
      have hlkd : s.lockStatus input.tenantId input.pkg.periodKey = .locked :=
        not_not.mp fun h => hnot ⟨hseal, hno, h⟩
      exact (lockStatus_lock ..).trans hlkd.symm
  | @sealed hseal hyes override hgate packages kept hkept hnew hheld =>
    refine iff_of_true ⟨?_, ?_, ?_, rfl, rfl⟩ fun hvain => hvain.2.1 hyes
    · exact lockStatus_lock s input.tenantId input.pkg.periodKey
    · exact ⟨kept, (hheld _ _).trans (if_pos rfl), hkept, hnew⟩
    · rw [state_put]
      exact if_pos rfl

/-- In every state the close can reach, a publish is all or none exactly when it does not lock a
period for a package that the store then refuses. -/
theorem publishClose_allOrNone_iff [IndividualLocks π] [PackageStore τ] (ledger : Ledger π)
    (packages : τ) (as : List CloseRequest) (input : PublishCloseInput) :
    AllOrNone (as.foldl CloseRequest.step (CloseStores.opening ledger packages)) input ↔
      ¬ LocksInVain (as.foldl CloseRequest.step (CloseStores.opening ledger packages)) input :=
  allOrNone_iff_of_statesOk (statesOk_run ledger packages as) input

end

def Sample.reopenedAugust : CloseStores (InMemoryPeriodStore TenantId PeriodKey) InMemoryPackageStore :=
  (reopening "alex" "sam").foldl CloseRequest.step opening

open Sample in
theorem republish_after_reopen_locks : ¬ AllOrNone reopenedAugust (publishing sold) := by
  obtain ⟨hopen, hlkd, hthr⟩ : reopenedAugust.lockStatus "acme" "2026-08" ≠ .locked ∧
      ((publishClose (publishing sold)).run CloseCall.exec reopenedAugust).2.lockStatus
        "acme" "2026-08" = .locked ∧
      ((publishClose (publishing sold)).run CloseCall.exec reopenedAugust).1 =
        .error (.package (.published "acme" "2026-08")) := by decide +kernel
  unfold AllOrNone
  generalize (publishClose (publishing sold)).run CloseCall.exec reopenedAugust = r at hlkd hthr ⊢
  obtain ⟨x, s'⟩ := r
  cases hthr
  rintro ⟨hsame, -, -⟩
  exact hopen (hsame.symm.trans hlkd)

/-! The close state machine is safe: what is published is locked, only the approval of another
person unlocks it, and the record of it only grows. The checks on who acts take the empty text for
no name, so a person of that name is not told apart from nobody. -/

abbrev InMemoryStores (τ : Type) := CloseStores (InMemoryPeriodStore TenantId PeriodKey) τ

/-- What holds in every state. -/
structure SafeState (s : InMemoryStores τ) : Prop where
  locked : ∀ t p st, s.state t p = some st →
    st.status = .published ∨ st.status = .reopenRequested → s.lockStatus t p = .locked
  gate : ∀ t p st, s.state t p = some st → st.status = .published →
    ∀ task ∈ st.checklist, task.status = .failed →
      task.id ≠ "trial_balance" ∧ ∃ override, st.override = some override ∧ task ∈ override.checks

structure SafeStep (s : InMemoryStores τ) (a : CloseRequest) (s' : InMemoryStores τ) : Prop where
  unlocks : ∀ t p, s.lockStatus t p = .locked → s'.lockStatus t p ≠ .locked →
    ∃ input, a = .approveReopen input ∧ (t, p) = (input.tenantId, input.periodKey) ∧
      ∃ st request, s.state t p = some st ∧ st.status = .reopenRequested ∧
        st.history.getLast? = some request ∧ request.action = .requestReopen ∧
        input.approvedBy ≠ request.by_
  publishes : ∀ t p st, s'.state t p = some st → st.status = .published →
    s.state t p ≠ some st → ∃ input, a = .publish input ∧
      (t, p) = (input.tenantId, input.pkg.periodKey) ∧
      st.publishedBy = some input.publishedBy ∧ st.publishedBy ≠ input.preparedBy
  history : ∀ t p st, s.state t p = some st →
    ∃ st', s'.state t p = some st' ∧ st.history <+: st'.history

def Named (s : InMemoryStores τ) : CloseRequest → Prop
  | .publish input => ¬ (input.preparedBy = some "" ∧ input.publishedBy = "")
  | .approveReopen input => ∀ st, s.state input.tenantId input.periodKey = some st →
      ¬ (st.reopenRequestedBy = some "" ∧ input.approvedBy = "")
  | _ => True

theorem safeState (s : InMemoryStores τ) (h : StatesOk s) : SafeState s where
  locked t p st hst hstatus :=
    IndividualLocks.status_of_ownLock _ _ _ ((h t p st hst).locked hstatus)
  gate t p st hst hstatus task htask hfail :=
    (h t p st hst).gate hstatus task (mem_failedTasks.mpr ⟨htask, hfail⟩)

section
variable {s s' : InMemoryStores τ} {t : TenantId} {p : PeriodKey}

omit [PackageStore τ] in
theorem locked_lock (h : s.lockStatus t p = .locked) (t' : TenantId) (q : PeriodKey) :
    (s.lock t' q).lockStatus t p = .locked := by
  by_cases hkey : (t, p) = (t', q)
  · cases hkey
    exact lockStatus_lock s t p
  · exact (InMemoryPeriodStore.status_lock_ne s.ledger.periods hkey).trans h

omit [PackageStore τ] in
theorem signsOwnWork_of_named {input : PublishCloseInput} (hnamed : Named s (.publish input))
    (h : ¬ input.SignsOwnWork) : some input.publishedBy ≠ input.preparedBy := by
  intro hsame
  refine h ⟨fun hemp => hnamed ⟨hemp, ?_⟩, hsame.symm⟩
  exact some.inj (hsame.trans hemp)

variable {a : CloseRequest} {st : CloseState}

theorem unlocks_of_moved (hok : StatesOk s) (hnamed : Named s a) (hmov : Moved s a s')
    (hbef : s.lockStatus t p = .locked) (hafter : s'.lockStatus t p ≠ .locked) :
    ∃ input, a = .approveReopen input ∧ (t, p) = (input.tenantId, input.periodKey) ∧
      ∃ st request, s.state t p = some st ∧ st.status = .reopenRequested ∧
        st.history.getLast? = some request ∧ request.action = .requestReopen ∧
        input.approvedBy ≠ request.by_ := by
  cases hmov with
  | stays => exact absurd hbef hafter
  | lockedOnly => exact absurd (locked_lock hbef _ _) hafter
  | sealed => exact absurd (locked_lock hbef _ _) hafter
  | requested => exact absurd hbef hafter
  | posted hperiods =>
    refine absurd ?_ hafter
    unfold lockStatus
    rw [hperiods]
    exact hbef
  | @approved input st hstate hstatus hother =>
    by_cases hkey : (t, p) = (input.tenantId, input.periodKey)
    · refine ⟨input, rfl, hkey, st, ?_⟩
      obtain ⟨request, hlast, hact, hby⟩ := (hok _ _ st hstate).pending hstatus
      cases hkey
      refine ⟨request, hstate, hstatus, hlast, hact, fun hsame => ?_⟩
      rw [← hsame] at hby
      refine hother ⟨fun hemp => ?_, hby⟩
      exact hnamed st hstate ⟨hemp, some.inj (hby.symm.trans hemp)⟩
    · exact absurd ((InMemoryPeriodStore.status_unlock_ne s.ledger.periods hkey).trans hbef)
        hafter

theorem publishes_of_moved (hnamed : Named s a) (hmov : Moved s a s')
    (hst : s'.state t p = some st) (hstatus : st.status = .published)
    (hnew : s.state t p ≠ some st) :
    ∃ input, a = .publish input ∧ (t, p) = (input.tenantId, input.pkg.periodKey) ∧
      st.publishedBy = some input.publishedBy ∧ st.publishedBy ≠ input.preparedBy := by
  cases hmov with
  | stays => exact absurd hst hnew
  | lockedOnly => exact absurd hst hnew
  | posted => exact absurd hst hnew
  | @sealed input hseal =>
    rw [state_put] at hst
    split_ifs at hst with hkey
    · rw [← some.inj hst]
      exact ⟨input, rfl, hkey, rfl, signsOwnWork_of_named hnamed hseal.roles⟩
    · exact absurd hst hnew
  | requested =>
    rw [state_put] at hst
    split_ifs at hst
    · rw [← some.inj hst] at hstatus
      cases hstatus
    · exact absurd hst hnew
  | approved =>
    rw [state_put] at hst
    split_ifs at hst
    · rw [← some.inj hst] at hstatus
      cases hstatus
    · exact absurd hst hnew

omit [PackageStore τ] in
theorem history_put {next : CloseState} (hst : s.state t p = some st)
    (hgrows : ∀ old, s.state next.tenantId next.periodKey = some old → old.history <+:
      next.history) : ∃ st', (s.put next).state t p = some st' ∧ st.history <+: st'.history := by
  rw [state_put]
  split_ifs with hkey
  · cases hkey
    exact ⟨next, rfl, hgrows st hst⟩
  · exact ⟨st, hst, prefix_rfl⟩

theorem history_of_moved (hok : StatesOk s) (hmov : Moved s a s') (hst : s.state t p = some st) :
    ∃ st', s'.state t p = some st' ∧ st.history <+: st'.history := by
  cases hmov with
  | stays => exact ⟨st, hst, prefix_rfl⟩
  | lockedOnly => exact ⟨st, hst, prefix_rfl⟩
  | posted => exact ⟨st, hst, prefix_rfl⟩
  | @sealed input =>
    refine history_put hst fun old hold => ?_
    have hexi : s.state input.tenantId input.pkg.periodKey = some old := hold
    unfold PublishCloseInput.sealedState
    rw [hexi]
    exact prefix_append ..
  | @requested input before hstate =>
    obtain ⟨ht, hp⟩ := (hok _ _ before hstate).keyed
    refine history_put hst fun old hold => ?_
    have hold' : s.state before.tenantId before.periodKey = some old := hold
    rw [ht, hp, hstate] at hold'
    rw [← some.inj hold']
    exact prefix_append ..
  | @approved input before hstate =>
    obtain ⟨ht, hp⟩ := (hok _ _ before hstate).keyed
    refine history_put hst fun old hold => ?_
    have hold' : s.state before.tenantId before.periodKey = some old := hold
    rw [ht, hp, hstate] at hold'
    rw [← some.inj hold']
    exact prefix_append ..

theorem safeStep (hok : StatesOk s) (hnamed : Named s a) : SafeStep s a (a.step s) where
  unlocks _ _ := unlocks_of_moved hok hnamed (moved s a)
  publishes _ _ _ := publishes_of_moved hnamed (moved s a)
  history _ _ _ := history_of_moved hok (moved s a)

end

/-- In every run in which nobody of the empty name is compared with another, every state and every
step is safe. -/
theorem close_is_safe (ledger : Ledger (InMemoryPeriodStore TenantId PeriodKey)) (packages : τ)
    (as : List CloseRequest)
    (h : EachStep CloseRequest.step Named (CloseStores.opening ledger packages) as) :
    Along CloseRequest.step SafeState (CloseStores.opening ledger packages) as ∧
      EachStep CloseRequest.step (fun s a => SafeStep s a (a.step s))
        (CloseStores.opening ledger packages) as :=
  ⟨fun pre _ => safeState _ (statesOk_run ledger packages pre),
    fun pre a hpre => safeStep (statesOk_run ledger packages pre) (h pre a hpre)⟩

theorem reopened_by_two_safely :
    Along CloseRequest.step SafeState Sample.opening (Sample.reopening "alex" "sam") ∧
      EachStep CloseRequest.step (fun s a => SafeStep s a (a.step s)) Sample.opening
        (Sample.reopening "alex" "sam") := by
  refine close_is_safe _ _ _ (eachStep_cons.mpr ⟨?_, eachStep_cons.mpr ⟨trivial,
    eachStep_cons.mpr ⟨?_, eachStep_nil⟩⟩⟩)
  · exact fun h => absurd h.1 (by decide)
  · exact fun st _ h => absurd h.2 (by decide)

def Sample.pendingOfNobody : InMemoryStores InMemoryPackageStore :=
  [.publish (publishing unsold),
    .requestReopen ⟨"acme", "2026-08", "", "late invoice", "2026-09-02"⟩].foldl
      CloseRequest.step opening

open Sample in
theorem nobody_approves_own_reopen :
    ¬ EachStep CloseRequest.step (fun s a => SafeStep s a (a.step s)) Sample.opening
      (Sample.reopening "" "") := by
  intro h
  obtain ⟨hlkd, hopen, hby⟩ : pendingOfNobody.lockStatus "acme" "2026-08" = .locked ∧
      ((CloseRequest.approveReopen ⟨"acme", "2026-08", "", "2026-09-02"⟩).step
        pendingOfNobody).lockStatus "acme" "2026-08" ≠ .locked ∧
      (pendingOfNobody.state "acme" "2026-08").bind (fun st => st.history.getLast?.map (·.by_)) =
        some "" := by decide +kernel
  obtain ⟨input, hinput, -, st, request, hst, -, hlast, -, hother⟩ :=
    (h _ _ prefix_rfl).unlocks "acme" "2026-08" hlkd hopen
  have hst' : pendingOfNobody.state "acme" "2026-08" = some st := hst
  rw [hst', bind_some, hlast, map_some] at hby
  rw [← CloseRequest.approveReopen.inj hinput] at hother
  exact hother (some.inj hby).symm

end Rgnr8.Close
