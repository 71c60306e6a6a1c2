import Rgnr8.Kernel.Fingerprint
import Rgnr8.Lib.Run

/-! What one call of the posting engine can do, run alone on its stores. -/

namespace Rgnr8.Kernel.PostingEngine
open Lib LedgerCall Prog
variable {π : Type} [PeriodStore π]
variable {tenant : TenantId} {key : IdempotencyKey} {period : PeriodKey} {intended : String}
variable {draft : Except LedgerError DraftEntry} {s : Ledger π} {e : PostedEntry}

theorem appendFresh_eq : appendFresh tenant period draft =
    .call (.status tenant period) fun status =>
      (Prog.refuseIf (status = PeriodStatus.locked) (.periodClosed period)).bind fun _ =>
        (Prog.ofExcept draft).bind fun d => .call (.append d) .ret := rfl

theorem settle_eq : settle tenant key period intended draft =
    .call (.getByIdempotencyKey tenant key) fun existing => match existing with
      | some existing => replay key intended existing
      | none => appendFresh tenant period draft := by
  rw [settle, Prog.bind_eq, Prog.perform, Prog.bind]
  congr 1
  funext existing
  cases existing <;> rfl

theorem run_replay : (replay key intended e).run LedgerCall.exec s =
    (if fingerprintOfEntry e = intended then .ok e else .error (.duplicateIdempotencyKey key), s) := by
  rw [replay]
  split_ifs <;> simp_all

theorem run_appendFresh : (appendFresh tenant period draft).run LedgerCall.exec s =
    if PeriodStore.status s.periods tenant period = .locked then
      (.error (.periodClosed period), s)
    else match draft with
      | .error err => (.error err, s)
      | .ok d => (.ok (s.store.append d).1, s.append d) := by
  rw [appendFresh_eq, run_call]
  by_cases h : (exec (.status tenant period) s).1 = PeriodStatus.locked
  · rw [refuseIf_pos h]
    exact (if_pos h).symm
  · rw [refuseIf_neg h]
    refine Eq.trans ?_ (if_neg h).symm
    cases draft <;> rfl

theorem run_settle_of_some (h : s.store.getByIdempotencyKey tenant key = some e) :
    (settle tenant key period intended draft).run LedgerCall.exec s =
      (if fingerprintOfEntry e = intended then .ok e
        else .error (.duplicateIdempotencyKey key), s) := by
  rw [settle_eq, run_call]
  simp only [exec, h]
  exact run_replay

theorem run_settle_of_none (h : s.store.getByIdempotencyKey tenant key = none) :
    (settle tenant key period intended draft).run LedgerCall.exec s =
      (appendFresh tenant period draft).run LedgerCall.exec s := by
  rw [settle_eq, run_call]
  simp only [exec, h]

inductive Settled (tenant : TenantId) (key : IdempotencyKey) (period : PeriodKey)
    (intended : String) (draft : Except LedgerError DraftEntry) (s : Ledger π) :
    Except LedgerError PostedEntry × Ledger π → Prop where
  | replayed {e : PostedEntry} (hkey : s.store.getByIdempotencyKey tenant key = some e)
      (hsame : fingerprintOfEntry e = intended) : Settled tenant key period intended draft s (.ok e, s)
  | refused (err : LedgerError) : Settled tenant key period intended draft s (.error err, s)
  | appended {d : DraftEntry} (hfree : s.store.getByIdempotencyKey tenant key = none)
      (hopen : PeriodStore.status s.periods tenant period ≠ .locked) (hdraft : draft = .ok d) :
      Settled tenant key period intended draft s (.ok (s.store.append d).1, s.append d)

theorem settled (tenant : TenantId) (key : IdempotencyKey) (period : PeriodKey) (intended : String)
    (draft : Except LedgerError DraftEntry) (s : Ledger π) :
    Settled tenant key period intended draft s
      ((settle tenant key period intended draft).run LedgerCall.exec s) := by
  cases hkey : s.store.getByIdempotencyKey tenant key with
  | some e =>
    rw [run_settle_of_some hkey]
    split_ifs with hsame
    · exact .replayed hkey hsame
    · exact .refused _
  | none =>
    rw [run_settle_of_none hkey, run_appendFresh]
    split_ifs with hlkd
    · exact .refused _
    · cases hd : draft with
      | error err => exact .refused err
      | ok d => exact .appended hkey hlkd rfl

theorem draft_of_post {coa : ChartOfAccounts} {command : PostCommand} {opts : PostOptions}
    {d : DraftEntry} (h : (validateAndBuildLines command.lines command.currency coa).map
      (draftOfCommand command opts) = .ok d) :
    d = draftOfCommand command opts command.lines ∧ 2 ≤ command.lines.length ∧
      (∀ l ∈ command.lines, LineOk command.currency coa l) ∧
      sideTotal .debit command.lines = sideTotal .credit command.lines := by
  obtain ⟨lines, hlines, rfl⟩ := Fallible.map_eq_ok.mp h
  obtain ⟨h2, hok, hbal, rfl⟩ := validateAndBuildLines_eq_ok.mp hlines
  exact ⟨rfl, h2, hok, hbal⟩

theorem refuseInactive_eq_ok {coa : ChartOfAccounts} {lines : List PostedLine} :
    refuseInactive coa lines = .ok () ↔
      ∀ l ∈ lines, ∀ a, coa.get l.accountId = some a → a.active ≠ some false := by
  induction lines with
  | nil => simp [refuseInactive]
  | cons l lines ih =>
    rw [refuseInactive, List.forall_mem_cons, ← ih]
    cases h : coa.get l.accountId with
    | none => simp
    | some account =>
      by_cases ha : account.active = some false
      · simp [ha]
      · simp [ha]

theorem sideTotal_swapped (side : EntrySide) (lines : List PostedLine) :
    sideTotal side (swapped lines) = sideTotal side.swap lines := by
  induction lines with
  | nil => rfl
  | cons l lines ih =>
    change sideTotal side ({ l with side := l.side.swap } :: swapped lines) = _
    by_cases h : l.side = side.swap
    · have h' : l.side.swap = side := by rw [h]; cases side <;> rfl
      rw [sideTotal_cons_self h, sideTotal_cons_self h', ih]
    · have h' : l.side.swap ≠ side := by
        intro he
        rw [← he] at h
        exact h (by cases l.side <;> rfl)
      rw [sideTotal_cons_ne h, sideTotal_cons_ne h', ih]

section
variable {coa : ChartOfAccounts} {originalId : EntryId} {ropts : ReverseOptions}

def settleReversal (tenant : TenantId) (original : PostedEntry) (opts : ReverseOptions) :
    LedgerProg PostedEntry :=
  settle tenant opts.idempotencyKey opts.periodKey
    (fingerprintOfReversal original.currency.code opts.periodKey opts.entryDate
      (reversalMemo original opts) opts.provenance (swapped original.lines))
    (.ok (draftOfReversal tenant original opts))

theorem reverse_eq : reverse coa tenant originalId ropts =
    .call (.getById tenant originalId) fun original => match original with
      | none => .throw (.unknownEntry originalId)
      | some original => (ofExcept (refuseInactive coa original.lines)).bind fun _ =>
          settleReversal tenant original ropts := by
  rw [reverse, Prog.bind_eq, Prog.perform, Prog.bind]
  congr 1
  funext original
  cases original <;> rfl

theorem run_reverse_of_none (h : s.store.getById tenant originalId = none) :
    (reverse coa tenant originalId ropts).run LedgerCall.exec s =
      (.error (.unknownEntry originalId), s) := by
  rw [reverse_eq, run_call]
  simp only [exec, h]
  rfl

theorem run_reverse_of_some (h : s.store.getById tenant originalId = some e) :
    (reverse coa tenant originalId ropts).run LedgerCall.exec s =
      match refuseInactive coa e.lines with
      | .error err => (.error err, s)
      | .ok () => (settleReversal tenant e ropts).run exec s := by
  rw [reverse_eq, run_call]
  simp only [exec, h]
  cases refuseInactive coa e.lines <;> rfl

end

/-! Where a posting call can stand between two of its steps, when other requests move in between. -/

/-- The stages of the common tail: before its read, before its period check, before its append,
or at its end. -/
inductive Stage (tenant : TenantId) (key : IdempotencyKey) (period : PeriodKey) (intended : String)
    (draft : Except LedgerError DraftEntry) : LedgerProg PostedEntry → Prop where
  | start : Stage tenant key period intended draft (settle tenant key period intended draft)
  | fresh : Stage tenant key period intended draft (appendFresh tenant period draft)
  | ready {d : DraftEntry} (h : draft = .ok d) :
      Stage tenant key period intended draft (.call (.append d) .ret)
  | done (e : PostedEntry) : Stage tenant key period intended draft (.ret e)
  | failed (err : LedgerError) : Stage tenant key period intended draft (.throw err)

section
variable {tenant : TenantId} {key : IdempotencyKey} {period : PeriodKey} {intended : String}
variable {draft : Except LedgerError DraftEntry} {q : LedgerProg PostedEntry} (s : Ledger π)

theorem next_settle_of_some {e : PostedEntry} (h : s.store.getByIdempotencyKey tenant key = some e) :
    (settle tenant key period intended draft).next LedgerCall.exec s = replay key intended e := by
  rw [settle_eq, next]
  simp only [exec, h]

theorem next_settle_of_none (h : s.store.getByIdempotencyKey tenant key = none) :
    (settle tenant key period intended draft).next LedgerCall.exec s =
      appendFresh tenant period draft := by
  rw [settle_eq, next]
  simp only [exec, h]

theorem next_appendFresh : (appendFresh tenant period draft).next LedgerCall.exec s =
    if PeriodStore.status s.periods tenant period = .locked then .throw (.periodClosed period)
    else match draft with
      | .error err => .throw err
      | .ok d => .call (.append d) .ret := by
  rw [appendFresh_eq, next]
  by_cases h : (exec (.status tenant period) s).1 = PeriodStatus.locked
  · rw [refuseIf_pos h]
    exact (if_pos h).symm
  · rw [refuseIf_neg h]
    refine Eq.trans ?_ (if_neg h).symm
    cases draft <;> rfl

theorem effect_settle : (settle tenant key period intended draft).effect LedgerCall.exec s = s := by
  rw [settle_eq]
  rfl

theorem effect_appendFresh : (appendFresh tenant period draft).effect LedgerCall.exec s = s := by
  rw [appendFresh_eq]
  rfl

theorem Stage.next (h : Stage tenant key period intended draft q) :
    Stage tenant key period intended draft (q.next LedgerCall.exec s) := by
  cases h with
  | start =>
    cases hk : s.store.getByIdempotencyKey tenant key with
    | some e =>
      rw [next_settle_of_some s hk, replay]
      split_ifs
      · exact .failed _
      · exact .done e
    | none =>
      rw [next_settle_of_none s hk]
      exact .fresh
  | fresh =>
    rw [next_appendFresh]
    split_ifs
    · exact .failed _
    · cases hd : draft with
      | error err => exact .failed err
      | ok d => exact .ready rfl
  | ready h => exact .done _
  | done e => exact .done e
  | failed err => exact .failed err

theorem Stage.effect (h : Stage tenant key period intended draft q) :
    q.effect LedgerCall.exec s = s ∨ ∃ d, draft = .ok d ∧ q = .call (.append d) .ret ∧
      q.effect LedgerCall.exec s = s.append d := by
  cases h with
  | start => exact .inl (effect_settle s)
  | fresh => exact .inl (effect_appendFresh s)
  | @ready d h => exact .inr ⟨d, h, rfl, rfl⟩
  | done e => exact .inl rfl
  | failed err => exact .inl rfl

end
end Rgnr8.Kernel.PostingEngine
