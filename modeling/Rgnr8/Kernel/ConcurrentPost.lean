import Rgnr8.Kernel.EngineRun

/-! Two posts of one tenant under one idempotency key, interleaved step by step. The journal takes
one entry at most; which payload a caller is told about is another matter, since the append
answers a lost race with the winner's entry. -/

namespace Rgnr8.Kernel
open Lib PostingEngine
variable {π : Type} [PeriodStore π]

/-- The two requests. -/
structure Rivals where
  chart : ChartOfAccounts
  tenant : TenantId
  key : IdempotencyKey
  command : Bool → PostCommand
  opts : Bool → PostOptions
  tenant_eq : ∀ i, (command i).tenantId = tenant
  key_eq : ∀ i, (command i).idempotencyKey = key

abbrev PostPool (π : Type) :=
  Pool LedgerCall LedgerCall.Answer LedgerError Bool (fun _ => PostedEntry) (Ledger π)

def Own (c : PostCommand) (e : PostedEntry) : Prop := contentOfEntry e = contentOfCommand c

/-- The step about to be taken does not answer with an entry of another content: the first read
finds no such entry under an equal fingerprint, the append finds none at all. -/
def OwnStep (c : PostCommand) (s : Ledger π) : LedgerProg PostedEntry → Prop
  | .call (.getByIdempotencyKey tenant key) _ =>
    ∀ e, s.store.getByIdempotencyKey tenant key = some e →
      fingerprintOfEntry e = fingerprintOfCommand c → Own c e
  | .call (.append d) _ =>
    ∀ e, s.store.getByIdempotencyKey d.tenantId d.idempotencyKey = some e → Own c e
  | _ => True

abbrev PostStage (coa : ChartOfAccounts) (c : PostCommand) (opts : PostOptions) :=
  Stage c.tenantId c.idempotencyKey c.periodKey (fingerprintOfCommand c)
    ((validateAndBuildLines c.lines c.currency coa).map (draftOfCommand c opts))

variable {c : PostCommand}

theorem own_numbered {coa : ChartOfAccounts} {opts : PostOptions} {d : DraftEntry}
    (h : (validateAndBuildLines c.lines c.currency coa).map (draftOfCommand c opts) = .ok d)
    (n : Nat) : Own c (d.numbered n) := by
  obtain ⟨rfl, -⟩ := draft_of_post h
  rfl

theorem own_of_call {l : LedgerCall} {k : l.Answer → LedgerProg PostedEntry} :
    ∀ e, (Prog.call l k : LedgerProg PostedEntry) = .ret e → Own c e := by
  intro e he
  cases he

theorem own_of_throw {err : LedgerError} :
    ∀ e, (Prog.throw err : LedgerProg PostedEntry) = .ret e → Own c e := by
  intro e he
  cases he

theorem own_next_iff {coa : ChartOfAccounts} {opts : PostOptions} {q : LedgerProg PostedEntry}
    (s : Ledger π) (hq : PostStage coa c opts q) (hown : ∀ e, q = .ret e → Own c e) :
    (∀ e, q.next LedgerCall.exec s = .ret e → Own c e) ↔ OwnStep c s q := by
  cases hq with
  | start =>
    cases hk : s.store.getByIdempotencyKey c.tenantId c.idempotencyKey with
    | none =>
      rw [next_settle_of_none s hk, settle_eq, appendFresh_eq]
      simp [OwnStep, hk]
    | some e =>
      rw [next_settle_of_some s hk, settle_eq, replay]
      by_cases hf : fingerprintOfEntry e = fingerprintOfCommand c <;> simp [OwnStep, hk, hf]
  | fresh =>
    rw [next_appendFresh, appendFresh_eq]
    refine iff_of_true ?_ trivial
    split
    · exact own_of_throw
    · cases (validateAndBuildLines c.lines c.currency coa).map (draftOfCommand c opts) with
      | error err => exact own_of_throw
      | ok d => exact own_of_call
  | @ready d hd =>
    have hnext : (Prog.call (.append d) Prog.ret : LedgerProg PostedEntry).next LedgerCall.exec s =
        .ret (s.store.append d).1 := rfl
    simp only [hnext, Prog.ret.injEq, forall_eq', OwnStep]
    cases hk : s.store.getByIdempotencyKey d.tenantId d.idempotencyKey with
    | some e => simp [InMemoryLedgerStore.append_of_some hk]
    | none =>
      rw [InMemoryLedgerStore.append_of_none hk]
      refine iff_of_true (own_numbered hd _) ?_
      intro e he
      cases he
  | done e => exact iff_of_true hown trivial
  | failed err => exact iff_of_true own_of_throw trivial

namespace Rivals
variable (r : Rivals)

def start (s : Ledger π) : PostPool π where
  state := s
  proc i := post r.chart (r.command i) (r.opts i)

variable (w : PostPool π)

/-- Every request that has returned, returned an entry of its own content. -/
def OwnEntries : Prop := ∀ i e, w.proc i = .ret e → Own (r.command i) e

def OwnSteps (i : Bool) : Prop := OwnStep (r.command i) w.state (w.proc i)

def Stages : Prop := ∀ i, PostStage r.chart (r.command i) (r.opts i) (w.proc i)

variable {r}

theorem stages_step {w : PostPool π} (h : r.Stages w) (i : Bool) :
    r.Stages (w.step LedgerCall.exec i) := by
  intro j
  by_cases hj : j = i
  · subst hj
    rw [Pool.step_proc_self]
    exact (h j).next w.state
  · rw [Pool.step_proc_ne w hj]
    exact h j

theorem ownEntries_step_iff {w : PostPool π} (hs : r.Stages w) (h : r.OwnEntries w) (i : Bool) :
    r.OwnEntries (w.step LedgerCall.exec i) ↔ r.OwnSteps w i := by
  rw [OwnSteps, ← own_next_iff w.state (hs i) (h i)]
  constructor
  · intro ho e he
    exact ho i e (by rwa [Pool.step_proc_self])
  · intro ho j e he
    by_cases hj : j = i
    · subst hj
      rw [Pool.step_proc_self] at he
      exact ho e he
    · rw [Pool.step_proc_ne w hj] at he
      exact h j e he

/-- The journals of `s'` are those of `s`, with one entry more at most in the tenant's, and the
key is used if there is one. -/
def OneMore (r : Rivals) (s s' : InMemoryLedgerStore) : Prop :=
  ∃ new : List PostedEntry, new.length ≤ 1 ∧
    (new ≠ [] → s'.getByIdempotencyKey r.tenant r.key ≠ none) ∧
    ∀ t, s'.list t = s.list t ++ if t = r.tenant then new else []

theorem oneMore_append {s s' : InMemoryLedgerStore} (h : r.OneMore s s') {d : DraftEntry}
    (ht : d.tenantId = r.tenant) (hk : d.idempotencyKey = r.key) :
    r.OneMore s (s'.append d).2 := by
  obtain ⟨new, hlen, hused, hlist⟩ := h
  cases hfree : s'.getByIdempotencyKey d.tenantId d.idempotencyKey with
  | some e =>
    rw [InMemoryLedgerStore.append_of_some hfree]
    exact ⟨new, hlen, hused, hlist⟩
  | none =>
    -- an entry appended before would hold the key
    have hnew : new = [] := by
      by_contra hne
      rw [ht, hk] at hfree
      exact hused hne hfree
    refine ⟨[(s'.append d).1], by simp, fun _ => ?_, fun t => ?_⟩
    · have hkey := s'.getByIdempotencyKey_append d
      rw [ht, hk] at hkey
      rw [hkey]
      exact Option.some_ne_none _
    · rw [InMemoryLedgerStore.list_append_of_none hfree, hlist, hnew, ht]
      split_ifs <;> simp

theorem oneMore_step {s : InMemoryLedgerStore} {w : PostPool π} (hs : r.Stages w)
    (h : r.OneMore s w.state.store) (i : Bool) :
    r.OneMore s (w.step LedgerCall.exec i).state.store := by
  rw [Pool.step_state]
  rcases (hs i).effect w.state with he | ⟨d, hd, -, he⟩
  · rwa [he]
  · rw [he]
    obtain ⟨rfl, -⟩ := draft_of_post hd
    exact oneMore_append h (r.tenant_eq i) (r.key_eq i)

/-- In every interleaving one entry is appended at most; and the requests return entries of their
own content throughout exactly when every step taken is an `OwnStep`. -/
theorem interleaved_posts (r : Rivals) (s : Ledger π) (sched : List Bool) :
    (∃ new : List PostedEntry, new.length ≤ 1 ∧
      ∀ t, ((r.start s).runSchedule LedgerCall.exec sched).state.store.list t =
        s.store.list t ++ if t = r.tenant then new else []) ∧
    (Along (Pool.step LedgerCall.exec) r.OwnEntries (r.start s) sched ↔
      EachStep (Pool.step LedgerCall.exec) r.OwnSteps (r.start s) sched) := by
  have hstag : r.Stages (r.start s) := fun _ => .start
  constructor
  · have hinv := Pool.runSchedule_invariant
      (I := fun w : PostPool π => r.Stages w ∧ r.OneMore s.store w.state.store)
      (fun w i h => ⟨stages_step h.1 i, oneMore_step h.1 h.2 i⟩)
      ⟨hstag, ⟨[], by simp, fun h => absurd rfl h, fun t => by simp [start]⟩⟩ sched
    obtain ⟨new, hlen, -, hlist⟩ := hinv.2
    exact ⟨new, hlen, hlist⟩
  · refine along_iff_eachStep (J := r.Stages) (fun w i hs h hok => ?_) (fun w i hs h hok => ?_)
      hstag (fun i e he => ?_) sched
    · exact ⟨stages_step hs i, (ownEntries_step_iff hs h i).mpr hok⟩
    · exact fun ho => hok ((ownEntries_step_iff hs h i).mp ho)
    · change post r.chart (r.command i) (r.opts i) = .ret e at he
      rw [post, settle_eq] at he
      cases he

end Rivals

def Sample.rivals : Rivals where
  chart := Sample.chart
  tenant := "acme"
  key := "sale"
  command i := Sample.sale (some (OrderedMap.empty.set "dept" (if i then "east" else "west")))
  opts _ := ⟨"2026-08-01"⟩
  tenant_eq _ := rfl
  key_eq _ := rfl

theorem lost_race_returns_other_entry : ¬ Sample.rivals.OwnEntries
    ((Sample.rivals.start Sample.opening.ledger).runSchedule LedgerCall.exec
      [false, true, false, true, false, true]) := by
  intro h
  have hown := h true _ rfl
  -- the two sales differ in their department, so also in their content
  have hlines := congrArg (fun c => c.lines.map fun l => l.dimension "dept") hown
  exact absurd hlines (by decide)

end Rgnr8.Kernel
