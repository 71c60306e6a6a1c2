import Rgnr8.Kernel.EngineRun

/-! A posting call into a period while another request seals it. The period check and the append
are two steps against two stores, so a seal that falls between them comes too late. -/

namespace Rgnr8.Kernel
open Lib PostingEngine InMemoryLedgerStore Pool
variable {π : Type}

namespace PostingCall

def tenant : PostingCall → TenantId
  | post command _ => command.tenantId
  | reverse tenant _ _ => tenant

def key : PostingCall → IdempotencyKey
  | post command _ => command.idempotencyKey
  | reverse _ _ opts => opts.idempotencyKey

def period : PostingCall → PeriodKey
  | post command _ => command.periodKey
  | reverse _ _ opts => opts.periodKey

end PostingCall

structure DraftOf (c : PostingCall) (d : DraftEntry) : Prop where
  tenant_eq : d.tenantId = c.tenant
  key_eq : d.idempotencyKey = c.key
  period_eq : d.periodKey = c.period

inductive CallStage (chart : ChartOfAccounts) (c : PostingCall) : LedgerProg PostedEntry → Prop where
  | lookup : CallStage chart c (c.program chart)
  | tail {intended : String} {draft : Except LedgerError DraftEntry} {q : LedgerProg PostedEntry}
      (hdraft : ∀ d, draft = .ok d → DraftOf c d)
      (h : Stage c.tenant c.key c.period intended draft q) : CallStage chart c q

/-- Past the period check, with the append of a draft under a free key still to come. -/
def LateAppend (s : Ledger π) : LedgerProg PostedEntry → Prop
  | .call (.append d) _ => s.store.getByIdempotencyKey d.tenantId d.idempotencyKey = none
  | _ => False

theorem lateAppend_congr {s s' : Ledger π} (h : s.store = s'.store) (q : LedgerProg PostedEntry) :
    LateAppend s q ↔ LateAppend s' q := by
  unfold LateAppend
  split
  · rw [h]
  · rfl

variable [PeriodStore π]

section
variable {chart : ChartOfAccounts} {c : PostingCall} {q : LedgerProg PostedEntry}

theorem callStage_post {command : PostCommand} {opts : PostOptions} {q : LedgerProg PostedEntry}
    (h : Stage command.tenantId command.idempotencyKey command.periodKey
      (fingerprintOfCommand command) ((validateAndBuildLines command.lines command.currency
        chart).map (draftOfCommand command opts)) q) : CallStage chart (.post command opts) q := by
  refine .tail (fun d hd => ?_) h
  obtain ⟨rfl, -⟩ := draft_of_post hd
  exact ⟨rfl, rfl, rfl⟩

theorem callStage_settleReversal {tenant : TenantId} {originalId : EntryId}
    {opts : ReverseOptions} (original : PostedEntry) :
    CallStage chart (.reverse tenant originalId opts) (settleReversal tenant original opts) :=
  .tail (fun _ hd => Except.ok.inj hd ▸ ⟨rfl, rfl, rfl⟩) .start

theorem next_reverse {tenant : TenantId} {originalId : EntryId} {opts : ReverseOptions}
    (s : Ledger π) : (reverse chart tenant originalId opts).next LedgerCall.exec s =
      match s.store.getById tenant originalId with
      | none => .throw (.unknownEntry originalId)
      | some original => match refuseInactive chart original.lines with
        | .error err => .throw err
        | .ok () => settleReversal tenant original opts := by
  rw [reverse_eq, Prog.next]
  simp only [LedgerCall.exec]
  cases s.store.getById tenant originalId with
  | none => rfl
  | some original => cases h : refuseInactive chart original.lines <;> simp only [h] <;> rfl

theorem effect_program (s : Ledger π) : (c.program chart).effect LedgerCall.exec s = s := by
  cases c with
  | post command opts => exact effect_settle s
  | reverse tenant originalId opts =>
    rw [PostingCall.program, reverse_eq]
    rfl

theorem next_program (s s' : Ledger π) :
    CallStage chart c ((c.program chart).next LedgerCall.exec s) ∧
      ¬ LateAppend s' ((c.program chart).next LedgerCall.exec s) := by
  cases c with
  | post command opts =>
    refine ⟨callStage_post (Stage.start.next s), ?_⟩
    rw [PostingCall.program, post]
    cases hk : s.store.getByIdempotencyKey command.tenantId command.idempotencyKey with
    | some e =>
      rw [next_settle_of_some s hk, replay]
      split_ifs <;> exact id
    | none =>
      rw [next_settle_of_none s hk, appendFresh_eq]
      exact id
  | reverse tenant originalId opts =>
    have hthrow : ∀ err, CallStage chart (.reverse tenant originalId opts) (.throw err) := by
      intro err
      refine .tail (fun d hd => ?_) (Stage.failed err : Stage _ _ _ "" (.error err) _)
      cases hd
    rw [PostingCall.program, next_reverse]
    cases s.store.getById tenant originalId with
    | none => exact ⟨hthrow _, id⟩
    | some original =>
      cases h : refuseInactive chart original.lines with
      | error err =>
        simp only [h]
        exact ⟨hthrow err, id⟩
      | ok u =>
        simp only [h]
        refine ⟨callStage_settleReversal original, ?_⟩
        rw [settleReversal, settle_eq]
        exact id

theorem CallStage.next (h : CallStage chart c q) (s : Ledger π) :
    CallStage chart c (q.next LedgerCall.exec s) := by
  cases h with
  | lookup => exact (next_program s s).1
  | tail hdraft h => exact .tail hdraft (h.next s)

/-- While its period is locked, a call that has not come through to its append writes nothing and
does not come through any more. -/
theorem CallStage.blocked {s : Ledger π} (h : CallStage chart c q) (hq : ¬ LateAppend s q)
    (hlkd : PeriodStore.status s.periods c.tenant c.period = .locked) :
    q.effect LedgerCall.exec s = s ∧ ¬ LateAppend s (q.next LedgerCall.exec s) := by
  cases h with
  | lookup => exact ⟨effect_program s, (next_program s s).2⟩
  | tail hdraft h =>
    cases h with
    | start =>
      refine ⟨effect_settle s, ?_⟩
      cases hk : s.store.getByIdempotencyKey c.tenant c.key with
      | some e =>
        rw [next_settle_of_some s hk, replay]
        split_ifs <;> exact id
      | none =>
        rw [next_settle_of_none s hk, appendFresh_eq]
        exact id
    | fresh =>
      refine ⟨effect_appendFresh s, ?_⟩
      rw [next_appendFresh, if_pos hlkd]
      exact id
    -- the key was taken in the meantime: the append answers and writes nothing
    | @ready d h =>
      obtain ⟨e, he⟩ := Option.ne_none_iff_exists'.mp hq
      refine ⟨?_, id⟩
      change s.append d = s
      rw [Ledger.append, append_of_some he]
    | done e => exact ⟨rfl, id⟩
    | failed err => exact ⟨rfl, id⟩

theorem CallStage.late {s : Ledger π} (h : CallStage chart c q) (hq : LateAppend s q) :
    ∃ e ∈ (q.effect LedgerCall.exec s).store.list c.tenant,
      e.periodKey = c.period ∧ e ∉ s.store.list c.tenant := by
  cases h with
  -- a call that has not made its first step is before its append
  | lookup =>
    exfalso
    cases c with
    | post command opts =>
      rw [PostingCall.program, post, settle_eq] at hq
      exact hq
    | reverse tenant originalId opts =>
      rw [PostingCall.program, reverse_eq] at hq
      exact hq
  | tail hdraft h =>
    cases h with
    | start => rw [settle_eq] at hq; exact hq.elim
    | fresh => rw [appendFresh_eq] at hq; exact hq.elim
    | @ready d h =>
      obtain ⟨htenant, -, hper⟩ := hdraft d h
      have hfree : s.store.getByIdempotencyKey d.tenantId d.idempotencyKey = none := hq
      refine ⟨(s.store.append d).1, ?_, ?_, fun hmem => ?_⟩
      · change _ ∈ (s.store.append d).2.list c.tenant
        rw [list_append_of_none hfree, if_pos htenant.symm]
        exact List.mem_append_right _ (List.mem_singleton_self _)
      · rw [append_of_none hfree]
        exact hper
      · rw [← htenant] at hmem
        refine getByIdempotencyKey_eq_none.mp hfree _ hmem ?_
        rw [append_of_none hfree]
        rfl
    | done e => exact hq.elim
    | failed err => exact hq.elim

theorem CallStage.periods_effect (h : CallStage chart c q) (s : Ledger π) :
    (q.effect LedgerCall.exec s).periods = s.periods := by
  cases h with
  | lookup => rw [effect_program]
  | tail hdraft h =>
    rcases h.effect s with he | ⟨d, -, -, he⟩ <;> rw [he]
    rfl

end

inductive Seal (period : PeriodKey) where
  | lock
  | lockThrough (mark : PeriodKey) (h : period ≤ mark)

def Seal.op {period : PeriodKey} (tenant : TenantId) : Seal period → PeriodOp TenantId PeriodKey
  | lock => .lock tenant period
  | lockThrough mark _ => .lockThrough tenant mark

theorem Seal.status_apply {period : PeriodKey} (x : Seal period) (s : π) (t : TenantId) :
    PeriodStore.status (PeriodStore.apply s (x.op t)) t period = .locked := by
  cases x with
  | lock => exact PeriodStore.status_lock s t period
  | lockThrough mark h => exact PeriodStore.status_lockThrough s t period mark h

abbrev sealAnswer : Bool → Type
  | false => PostedEntry
  | true => Unit

abbrev SealPool (π : Type) :=
  Pool LedgerCall LedgerCall.Answer LedgerError Bool sealAnswer (Ledger π)

def sealRace (chart : ChartOfAccounts) (c : PostingCall) (x : Seal c.period) (s : Ledger π) :
    SealPool π where
  state := s
  proc
    | false => c.program chart
    | true => .call (.periods (x.op c.tenant)) fun _ => .ret ()

/-- From `w` on no entry of the period gets into the journal of the tenant. -/
def StaysSealed (c : PostingCall) (w : SealPool π) : Prop :=
  ∀ sched, ∀ e ∈ (w.runSchedule LedgerCall.exec sched).state.store.list c.tenant,
    e.periodKey = c.period → e ∈ w.state.store.list c.tenant

section
variable {chart : ChartOfAccounts} {c : PostingCall} {x : Seal c.period} {w : SealPool π}

/-- The seal request is through. -/
structure Sealed (chart : ChartOfAccounts) (c : PostingCall) (w : SealPool π) : Prop where
  stage : CallStage chart c (w.proc false)
  answered : w.proc true = .ret ()
  locked : PeriodStore.status w.state.periods c.tenant c.period = .locked

/-- What holds throughout a race. -/
structure Racing (chart : ChartOfAccounts) (c : PostingCall) (x : Seal c.period)
    (w : SealPool π) : Prop where
  stage : CallStage chart c (w.proc false)
  sealer : w.proc true = .call (.periods (x.op c.tenant)) (fun _ => .ret ()) ∨ Sealed chart c w

theorem Sealed.step (h : Sealed chart c w) (i : Bool) : Sealed chart c (w.step LedgerCall.exec i) := by
  cases i with
  | false =>
    refine ⟨?_, ?_, ?_⟩
    · rw [step_proc_self]
      exact h.stage.next w.state
    · rw [step_proc_ne w (by decide)]
      exact h.answered
    · rw [step_state, h.stage.periods_effect]
      exact h.locked
  | true =>
    refine ⟨?_, ?_, ?_⟩
    · rw [step_proc_ne w (by decide)]
      exact h.stage
    · rw [step_proc_self, h.answered]
      rfl
    · rw [step_state, h.answered]
      exact h.locked

theorem Racing.seal_step (h : Racing chart c x w) : Sealed chart c (w.step LedgerCall.exec true) ∧
    (w.step LedgerCall.exec true).state.store = w.state.store := by
  rcases h.sealer with hpend | hseal
  · have hstate : (w.step LedgerCall.exec true).state =
        { w.state with periods := PeriodStore.apply w.state.periods (x.op c.tenant) } := by
      rw [step_state, hpend]
      rfl
    refine ⟨⟨?_, ?_, ?_⟩, by rw [hstate]⟩
    · rw [step_proc_ne w (by decide)]
      exact h.stage
    · rw [step_proc_self, hpend]
      rfl
    · rw [hstate]
      exact x.status_apply w.state.periods c.tenant
  · refine ⟨hseal.step true, ?_⟩
    rw [step_state, hseal.answered]
    rfl

theorem Racing.step (h : Racing chart c x w) (i : Bool) :
    Racing chart c x (w.step LedgerCall.exec i) := by
  cases i with
  | false =>
    refine ⟨?_, h.sealer.imp (fun hp => ?_) fun hs => hs.step false⟩
    · rw [step_proc_self]
      exact h.stage.next w.state
    · rwa [step_proc_ne w (by decide)]
  | true => exact ⟨h.seal_step.1.stage, .inr h.seal_step.1⟩

theorem Sealed.state_eq (h : Sealed chart c w) (hq : ¬ LateAppend w.state (w.proc false))
    (sched : List Bool) : (w.runSchedule LedgerCall.exec sched).state = w.state := by
  induction sched generalizing w with
  | nil => rfl
  | cons i sched ih =>
    rw [runSchedule_cons]
    have hbloc := h.stage.blocked hq h.locked
    cases i with
    | false =>
      have hstate : (w.step LedgerCall.exec false).state = w.state := hbloc.1
      refine (ih (h.step false) ?_).trans hstate
      rw [hstate, step_proc_self]
      exact hbloc.2
    | true =>
      have hstate : (w.step LedgerCall.exec true).state = w.state := by
        rw [step_state, h.answered]
        rfl
      refine (ih (h.step true) ?_).trans hstate
      rwa [hstate, step_proc_ne w (by decide)]

theorem Sealed.staysSealed_iff (h : Sealed chart c w) :
    StaysSealed c w ↔ ¬ LateAppend w.state (w.proc false) := by
  constructor
  · intro hstay hlate
    obtain ⟨e, he, hper, hnew⟩ := h.stage.late hlate
    exact hnew (hstay [false] e he hper)
  · intro hq sched e he _
    rwa [h.state_eq hq sched] at he

end

theorem racing_sealRace (chart : ChartOfAccounts) (c : PostingCall) (x : Seal c.period)
    (s : Ledger π) : Racing chart c x (sealRace chart c x s) := ⟨.lookup, .inl rfl⟩

/-- Whatever was scheduled before the seal's own step, the period stays sealed after it exactly
when the posting call had not come through to its append by then. -/
theorem sealed_stays_iff (chart : ChartOfAccounts) (c : PostingCall) (x : Seal c.period)
    (s : Ledger π) (sched : List Bool) :
    StaysSealed c
        (((sealRace chart c x s).runSchedule LedgerCall.exec sched).step LedgerCall.exec true) ↔
      ¬ LateAppend ((sealRace chart c x s).runSchedule LedgerCall.exec sched).state
        (((sealRace chart c x s).runSchedule LedgerCall.exec sched).proc false) := by
  have hrace := runSchedule_invariant (I := Racing chart c x)
    (fun _ i h => Racing.step h i) (racing_sealRace chart c x s) sched
  obtain ⟨hseal, hstore⟩ := hrace.seal_step
  rw [hseal.staysSealed_iff, lateAppend_congr hstore, step_proc_ne _ (by decide)]

theorem sale_after_lock : ¬ StaysSealed (.post (Sample.sale none) ⟨"2026-08-01"⟩)
    (((sealRace Sample.chart (.post (Sample.sale none) ⟨"2026-08-01"⟩) .lock
      Sample.opening.ledger).runSchedule LedgerCall.exec [false, false]).step
        LedgerCall.exec true) := by
  intro h
  have hstay := h [false] ((draftOfCommand (Sample.sale none) ⟨"2026-08-01"⟩
    (Sample.sale none).lines).numbered 1) (by decide) rfl
  exact absurd hstay (by decide)

end Rgnr8.Kernel
