import Rgnr8.Lib.EachCall
import Rgnr8.Kernel.GoLive

/-! What a post, a cutover and a go-live hand to the journal: one draft, and only where the journal
takes it. -/

namespace Rgnr8.Kernel
open Lib Prog PostingEngine LedgerCall

/-- A call that appends nothing, or a draft that `Q` admits. -/
def LedgerCall.AppendsOnly (Q : DraftEntry → Prop) : LedgerCall → Prop
  | append draft => Q draft
  | _ => True

def GoLiveCall.AppendsOnly (Q : DraftEntry → Prop) : GoLiveCall → Prop
  | ledger c => c.AppendsOnly Q
  | saveChart _ _ => True

variable {π : Type} [PeriodStore π] {Q : DraftEntry → Prop}

variable {s : Ledger π}

theorem appendFresh_appendsOnly {tenant : TenantId} {period : PeriodKey}
    {draft : Except LedgerError DraftEntry} :
    (PostingEngine.appendFresh tenant period draft).EachCall LedgerCall.exec
        (fun c _ => c.AppendsOnly Q) s ↔
      (PeriodStore.status s.periods tenant period ≠ .locked → ∀ d, draft = .ok d → Q d) := by
  rw [appendFresh_eq, eachCall_call, ← bind_eq]
  refine (and_iff_right (show LedgerCall.AppendsOnly Q (.status tenant period) from trivial)).trans ?_
  show Prog.EachCall exec _ (refuseIf
    (PeriodStore.status s.periods tenant period = .locked) _ >>= _) s ↔ _
  by_cases hlkd : PeriodStore.status s.periods tenant period = .locked
  · rw [refuseIf_pos hlkd]
    exact iff_of_true trivial fun h => absurd hlkd h
  · rw [refuseIf_neg hlkd]
    cases draft with
    | error err => exact iff_of_true trivial fun _ d h => by cases h
    | ok d =>
      constructor
      · rintro h - d' hd
        rw [← Except.ok.inj hd]
        exact h.1
      · exact fun h => ⟨h hlkd d rfl, trivial⟩

theorem post_appendsOnly {coa : ChartOfAccounts} {command : PostCommand} {opts : PostOptions} :
    (PostingEngine.post coa command opts).EachCall LedgerCall.exec
        (fun c _ => c.AppendsOnly Q) s ↔
      (s.Appends coa command → Q (PostingEngine.draftOfCommand command opts command.lines)) := by
  unfold post
  rw [settle_eq, eachCall_call]
  refine (and_iff_right (show LedgerCall.AppendsOnly Q
    (.getByIdempotencyKey command.tenantId command.idempotencyKey) from trivial)).trans ?_
  cases hkey : s.store.getByIdempotencyKey command.tenantId command.idempotencyKey with
  | some e =>
    simp only [exec, hkey]
    refine iff_of_true ?_ fun happends => ?_
    · unfold replay
      split_ifs <;> trivial
    · cases happends.free.symm.trans hkey
  | none =>
    simp only [exec, hkey]
    rw [appendFresh_appendsOnly]
    constructor
    · intro h happends
      refine h happends.2.1 _ ?_
      rw [happends.2.2]
      rfl
    · intro h hopen d hdraft
      obtain ⟨lines, hlines, rfl⟩ := Fallible.map_eq_ok.mp hdraft
      obtain ⟨-, -, -, rfl⟩ := validateAndBuildLines_eq_ok.mp hlines
      exact h ⟨hkey, hopen, hlines⟩

omit [PeriodStore π] in
theorem settle_makes {tenant : TenantId} {key : IdempotencyKey} {period : PeriodKey}
    {intended : String} {draft : Except LedgerError DraftEntry} (h : ∀ d, draft = .ok d → Q d) :
    (PostingEngine.settle tenant key period intended draft).Makes fun c => c.AppendsOnly Q := by
  rw [settle_eq]
  refine ⟨trivial, fun existing => ?_⟩
  cases existing with
  | some e =>
    dsimp only
    unfold replay
    split_ifs <;> trivial
  | none =>
    refine ⟨trivial, fun status => ?_⟩
    show Prog.Makes _ (refuseIf (status = PeriodStatus.locked) _ >>= _)
    refine makes_bind ?_ fun _ => ?_
    · unfold refuseIf
      split_ifs <;> trivial
    · cases draft with
      | error err => trivial
      | ok d => exact ⟨h d rfl, fun _ => trivial⟩

theorem post_makes (coa : ChartOfAccounts) (command : PostCommand) (opts : PostOptions) :
    (PostingEngine.post coa command opts).Makes fun c => c.AppendsOnly fun d => EntryOk d := by
  refine settle_makes fun d hdraft => ?_
  obtain ⟨lines, hlines, rfl⟩ := Fallible.map_eq_ok.mp hdraft
  obtain ⟨htwo, hok, hbal, rfl⟩ := validateAndBuildLines_eq_ok.mp hlines
  refine ⟨htwo, fun l hl => ?_, hbal⟩
  obtain ⟨account, -, -, hcode, -, hpos⟩ := hok l hl
  exact ⟨hpos, hcode⟩

theorem entriesOk_exec {c : LedgerCall} (hc : c.AppendsOnly fun d => EntryOk d)
    (h : EntriesOk s.store) : EntriesOk (c.exec s).2.store := by
  cases c with
  | append draft =>
    show EntriesOk (s.store.append draft).2
    cases hkey : s.store.getByIdempotencyKey draft.tenantId draft.idempotencyKey with
    | some e =>
      rw [InMemoryLedgerStore.append_of_some hkey]
      exact h
    | none => exact h.append hkey hc
  | _ => exact h

theorem eachCall_engine {α : Type} (p : LedgerProg α) (s : Ledger π) :
    (p.interpret Prog.perform CutoverFailure.ledger).EachCall LedgerCall.exec
        (fun c _ => c.AppendsOnly Q) s ↔
      p.EachCall LedgerCall.exec (fun c _ => c.AppendsOnly Q) s := by
  refine (eachCall_interpret_iff exec id (fun a _ => a) (fun _ _ => rfl)
    (fun _ _ _ => rfl) (fun _ => rfl) (fun _ _ => rfl) p s).trans ?_
  simp only [eachCall_perform]
  rfl

theorem recordCutover_appendsOnly (plan : CutoverPlan) (postedAt : String) (entry : PostedEntry)
    (newlyPosted : Bool) (s : Ledger π) : (recordCutover plan postedAt entry newlyPosted).EachCall
      LedgerCall.exec (fun c _ => c.AppendsOnly Q) s := ⟨trivial, trivial⟩

theorem executeCutover_appendsOnly {coa : ChartOfAccounts} {plan : CutoverPlan}
    {postedAt : String} : (executeCutover coa plan postedAt).EachCall
        LedgerCall.exec (fun c _ => c.AppendsOnly Q) s ↔
      ∀ command, buildOpeningBalanceEntry plan = .ok command → s.Appends coa command →
        Q (PostingEngine.draftOfCommand command ⟨postedAt⟩ command.lines) := by
  cases hbuild : buildOpeningBalanceEntry plan with
  | error f =>
    unfold executeCutover
    rw [hbuild]
    exact iff_of_true trivial fun command h => by cases h
  | ok command =>
    have htenant : command.tenantId = plan.tenantId := by
      rw [openingCommand_of_build hbuild]
      rfl
    rw [executeCutover_eq hbuild, eachCall_call]
    refine (and_iff_right (show LedgerCall.AppendsOnly Q
      (.getByIdempotencyKey plan.tenantId command.idempotencyKey) from trivial)).trans ?_
    cases hkey : s.store.getByIdempotencyKey plan.tenantId command.idempotencyKey with
    | some entry =>
      simp only [exec, hkey]
      refine iff_of_true (recordCutover_appendsOnly ..) fun command' h happends => ?_
      rw [← Except.ok.inj h] at happends
      have hfree := happends.free
      rw [htenant] at hfree
      cases hfree.symm.trans hkey
    | none =>
      simp only [exec, hkey]
      rw [← bind_eq, eachCall_bind, eachCall_engine,
        and_iff_left fun entry s' _ => recordCutover_appendsOnly ..]
      refine post_appendsOnly.trans ⟨fun h command' hcommand => ?_, fun h => h command rfl⟩
      rwa [← Except.ok.inj hcommand]

theorem eachCall_cutover {K α : Type} [ChartStore K] (p : CutoverProg α) (s : GoLiveStores π K) :
    (p.interpret (fun c => Prog.perform (GoLiveCall.ledger c)) id).EachCall GoLiveCall.exec
        (fun c _ => c.AppendsOnly Q) s ↔
      p.EachCall LedgerCall.exec (fun c _ => c.AppendsOnly Q) s.ledger := by
  refine (eachCall_interpret_iff exec GoLiveStores.ledger
    (fun ledger s => { s with ledger := ledger }) (fun _ _ => rfl) (fun _ _ _ => rfl) (fun _ => rfl)
    (fun _ _ => rfl) p s).trans ?_
  simp only [eachCall_perform]
  rfl

theorem executeGoLive_appendsOnly {K : Type} [ChartStore K] {request : GoLiveRequest}
    {postedAt : String} {opts : GoLiveOptions} {s : GoLiveStores π K} :
    (executeGoLive request postedAt opts).EachCall GoLiveCall.exec (fun c _ => c.AppendsOnly Q) s ↔
      ∀ coa created command, buildGoLiveChart request = .ok (coa, created) →
        buildOpeningBalanceEntry (planOf request) = .ok command → s.ledger.Appends coa command →
        Q (PostingEngine.draftOfCommand command ⟨postedAt⟩ command.lines) := by
  by_cases hnone : request.sourceAccounts.length = 0
  · unfold executeGoLive
    rw [refuseIf_pos hnone]
    exact iff_of_true trivial fun coa created command _ hbuild =>
      absurd hnone (sources_of_build hbuild)
  · cases hchart : buildGoLiveChart request with
    | error f =>
      unfold executeGoLive
      rw [refuseIf_neg hnone, hchart]
      exact iff_of_true trivial fun coa created command h => by cases h
    | ok built =>
      obtain ⟨coa, created⟩ := built
      rw [executeGoLive_eq hnone hchart]
      have hper : (persistChart opts request.tenantId coa).EachCall GoLiveCall.exec
          (fun c _ => c.AppendsOnly Q) s := by
        unfold persistChart
        split_ifs
        · exact ⟨trivial, trivial⟩
        · trivial
      rw [eachCall_bind_of_ok (run_persistChart opts request.tenantId coa s),
        and_iff_right hper, eachCall_bind_ret, eachCall_cutover, executeCutover_appendsOnly,
        GoLiveStores.ledger_persisted]
      constructor
      · intro h coa' created' command hbuilt
        obtain ⟨rfl, -⟩ := Prod.mk.injEq .. ▸ Except.ok.inj hbuilt
        exact h command
      · exact fun h command => h coa created command rfl

end Rgnr8.Kernel
