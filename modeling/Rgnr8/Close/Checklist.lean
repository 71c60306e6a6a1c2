import Mathlib.Tactic.Common
import Rgnr8.Close.FinancialPackage

/-! The checklist of a close, built from the control results of the period, and which of its failed
checks a person may let through. -/

namespace Rgnr8.Close
open List

inductive TaskStatus where
  | passed | failed
  deriving DecidableEq

structure CloseTask where
  id : String
  label : String
  status : TaskStatus
  detail : String
  deriving DecidableEq

structure ReconLike where
  accountId : String
  status : String
  signedOff : Bool

structure ControlLike where
  name : String
  balanced : Bool

structure CloseGateInputs where
  reconciliations : List ReconLike
  controls : List ControlLike
  trialBalanceBalanced : Bool
  requireSignOff : Bool

def overridableCheckIds : List String :=
  ["bank_reconciliations", "reconciliation_signoff", "control_accounts"]

def isOverridableCheck (id : String) : Bool := overridableCheckIds.contains id

variable {α : Type}

def checkAll (id label : String) (results : List α) (bad : α → Bool) (name : α → String)
    (whenEmpty badPrefix whenGood : String) : CloseTask where
  id := id
  label := label
  status := if 0 < results.length ∧ (results.filter bad).length = 0 then .passed else .failed
  detail :=
    if results.length = 0 then whenEmpty
    else if (results.filter bad).length = 0 then whenGood
    else badPrefix ++ ", ".intercalate ((results.filter bad).map name)

variable (inputs : CloseGateInputs)

def bankReconciliations : CloseTask :=
  checkAll "bank_reconciliations" "All bank/card accounts reconciled" inputs.reconciliations
    (fun r => r.status ≠ "BALANCED") ReconLike.accountId
    "no bank/card reconciliations supplied for this period" "out of balance: "
    s!"{inputs.reconciliations.length} account(s) reconciled"

def reconciliationSignoff : CloseTask :=
  checkAll "reconciliation_signoff" "Reconciliations signed off by reviewer"
    inputs.reconciliations (fun r => !r.signedOff) ReconLike.accountId
    "no reconciliations to sign off" "unsigned: " "all reconciliations signed"

def controlAccounts : CloseTask :=
  checkAll "control_accounts" "Subledger control accounts tie to the GL" inputs.controls
    (fun c => !c.balanced) ControlLike.name
    "no subledger control accounts supplied for this period" "drift: " "AR/AP controls tied"

def trialBalance : CloseTask where
  id := "trial_balance"
  label := "Trial balance is in balance"
  status := if inputs.trialBalanceBalanced then .passed else .failed
  detail := if inputs.trialBalanceBalanced then "debits = credits" else "trial balance does not tie"

def buildCloseChecklist : List CloseTask :=
  bankReconciliations inputs ::
    (if inputs.requireSignOff then [reconciliationSignoff inputs] else []) ++
      [controlAccounts inputs, trialBalance inputs]

def failedTasks (tasks : List CloseTask) : List CloseTask :=
  tasks.filter fun t => t.status = .failed

theorem mem_failedTasks {tasks : List CloseTask} {t : CloseTask} :
    t ∈ failedTasks tasks ↔ t ∈ tasks ∧ t.status = .failed := by
  unfold failedTasks
  simp

theorem id_of_mem {inputs : CloseGateInputs} {t : CloseTask} (h : t ∈ buildCloseChecklist inputs) :
    t.id ∈ overridableCheckIds ∨ t.id = "trial_balance" := by
  unfold buildCloseChecklist at h
  simp only [cons_append, mem_cons, mem_append, not_mem_nil, or_false] at h
  rcases h with rfl | h | rfl | rfl
  · exact .inl (mem_cons_self ..)
  · have ht : t = reconciliationSignoff inputs := by
      split at h
      · exact mem_singleton.mp h
      · exact absurd h not_mem_nil
    rw [ht]
    exact .inl (mem_cons_of_mem _ (mem_cons_self ..))
  · exact .inl (mem_cons_of_mem _ (mem_cons_of_mem _ (mem_cons_self ..)))
  · exact .inr rfl

theorem isOverridableCheck_iff {inputs : CloseGateInputs} {t : CloseTask}
    (h : t ∈ buildCloseChecklist inputs) :
    isOverridableCheck t.id = true ↔ t.id ≠ "trial_balance" := by
  rw [isOverridableCheck, contains_iff_mem]
  constructor
  · intro hmem hid
    rw [hid] at hmem
    exact absurd hmem (by decide)
  · exact fun hid => (id_of_mem h).resolve_right hid

/-! The close state machine of a period: publish seals it, a reopen is requested by one person and
approved by another. Each transition is a program of calls on the period locks, the package store
and the close states; what it wrote before it throws stays written. -/

open Lib Kernel

inductive CloseStatus where
  | opened | published | reopenRequested | reopened
  deriving DecidableEq

inductive CloseAction where
  | publish | requestReopen | approveReopen
  deriving DecidableEq

structure CloseTransition where
  action : CloseAction
  by_ : String
  at_ : String
  note : Option String
  deriving DecidableEq

structure CloseOverride where
  by_ : String
  at_ : String
  reason : String
  checks : List CloseTask
  deriving DecidableEq

structure CloseState where
  tenantId : TenantId
  periodKey : PeriodKey
  status : CloseStatus
  checklist : List CloseTask
  publishedBy : Option String
  publishedAt : Option String
  override : Option CloseOverride
  packageFingerprint : Option String
  reopenRequestedBy : Option String
  reopenReason : Option String
  history : List CloseTransition
  deriving DecidableEq

inductive CloseError where
  | alreadyPublished (tenantId : TenantId) (periodKey : PeriodKey)
  | overrideReason
  | gate (blockers : List String) (failed : List CloseTask) (note : Option String)
  | preparedIt (publisher : String)
  | notPublished (tenantId : TenantId) (periodKey : PeriodKey)
  | reopenPending (periodKey : PeriodKey)
  | alreadyReopened (periodKey : PeriodKey)
  | reopenReason
  | noReopenAwaiting (tenantId : TenantId) (periodKey : PeriodKey)
  | requestedIt (approver : String)
  | package (e : PackageError)
  deriving DecidableEq

def CloseError.message : CloseError → String
  | alreadyPublished t p => s!"{t} {p} is already published with a different package"
  | overrideReason => "a gate override must state a reason"
  | gate blockers _ note => "close is blocked: " ++ "; ".intercalate blockers ++
      (note.elim "" fun n => s!" ({n})")
  | preparedIt publisher => s!"{publisher} prepared this close and cannot also publish it " ++
      "— a second person must sign off"
  | notPublished t p => s!"{t} {p} is not published — nothing to reopen"
  | reopenPending p => s!"a reopen is already pending approval for {p}"
  | alreadyReopened p => s!"{p} is already reopened"
  | reopenReason => "a reopen must state a reason"
  | noReopenAwaiting t p => s!"{t} {p} has no reopen awaiting approval"
  | requestedIt approver => s!"{approver} requested this reopen and cannot approve it " ++
      "— a second person must approve"
  | package e => e.message

/-- The durable seams of the close, one atomic step each. -/
inductive CloseCall where
  | ledger (c : LedgerCall)
  | getState (tenant : TenantId) (period : PeriodKey)
  | putState (state : CloseState)
  | savePackage (tenant : TenantId) (pkg : FinancialPackage)

abbrev CloseCall.Answer : CloseCall → Type
  | ledger c => c.Answer
  | getState _ _ => Option CloseState
  | putState _ => Unit
  | savePackage _ _ => Except PackageError Unit

structure CloseStores (π τ : Type) where
  ledger : Ledger π
  packages : τ
  states : OrderedMap (TenantId × PeriodKey) CloseState

namespace CloseStores
variable {π τ : Type} [PeriodStore π] [PackageStore τ]
variable (s : CloseStores π τ)

def state (tenant : TenantId) (period : PeriodKey) : Option CloseState :=
  s.states.get? (tenant, period)

def put (state : CloseState) : CloseStores π τ :=
  { s with states := s.states.set (state.tenantId, state.periodKey) state }

def lockStatus (tenant : TenantId) (period : PeriodKey) : PeriodStatus :=
  PeriodStore.status s.ledger.periods tenant period

def held (s : CloseStores π τ) (tenant : TenantId) (period : PeriodKey) :
    Option FinancialPackage := PackageStore.held s.packages tenant period

def lock (s : CloseStores π τ) (tenant : TenantId) (period : PeriodKey) : CloseStores π τ :=
  { s with ledger.periods := PeriodStore.lock s.ledger.periods tenant period }

def unlock (s : CloseStores π τ) (tenant : TenantId) (period : PeriodKey) : CloseStores π τ :=
  { s with ledger.periods := PeriodStore.unlock s.ledger.periods tenant period }

end CloseStores

def CloseCall.exec {π τ : Type} [PeriodStore π] [PackageStore τ] :
    (c : CloseCall) → CloseStores π τ → c.Answer × CloseStores π τ
  | ledger c, s => ((c.exec s.ledger).1, { s with ledger := (c.exec s.ledger).2 })
  | getState t p, s => (s.state t p, s)
  | putState state, s => ((), s.put state)
  | savePackage t pkg, s => match PackageStore.save s.packages t pkg with
    | .ok packages => (.ok (), { s with packages := packages })
    | .error e => (.error e, s)

abbrev CloseProg := Prog CloseCall CloseCall.Answer CloseError

structure PublishCloseInput where
  tenantId : TenantId
  inputs : CloseGateInputs
  pkg : FinancialPackage
  preparedBy : Option String
  publishedBy : String
  at_ : String
  /-- The reason of a request to seal over failed checks. -/
  override : Option String

namespace PublishCloseInput

variable (input : PublishCloseInput)

def checklist : List CloseTask := buildCloseChecklist input.inputs

def gateOverride : Except CloseError (Option CloseOverride) :=
  let failed := failedTasks input.checklist
  let labels := failed.map CloseTask.label
  match input.override with
  | some text =>
    let reason := Js.trim text
    -- an override request says why, even if nothing ends up overridden
    if reason = "" then .error .overrideReason
    else if failed = [] then .ok none
    else
      let refused := failed.filter fun t => !isOverridableCheck t.id
      if refused ≠ [] then
        .error (.gate labels failed
          (some ("; ".intercalate (refused.map CloseTask.label) ++ " cannot be overridden")))
      else .ok (some ⟨input.publishedBy, input.at_, reason, failed⟩)
  | none => if failed ≠ [] then .error (.gate labels failed none) else .ok none

/-- The publisher is named as the one who prepared the close. The empty text names nobody. -/
def SignsOwnWork : Prop :=
  input.preparedBy ≠ some "" ∧ input.preparedBy = some input.publishedBy

instance (input : PublishCloseInput) : Decidable input.SignsOwnWork :=
  inferInstanceAs (Decidable (_ ∧ _))

def overrideNote (override : CloseOverride) : String :=
  "gate overridden (" ++ "; ".intercalate (override.checks.map CloseTask.label) ++ "): " ++
    override.reason

variable (existing : Option CloseState)

def sealedState (override : Option CloseOverride) : CloseState where
  tenantId := input.tenantId
  periodKey := input.pkg.periodKey
  status := .published
  checklist := input.checklist
  publishedBy := some input.publishedBy
  publishedAt := some input.at_
  override := override
  packageFingerprint := some input.pkg.fingerprint
  reopenRequestedBy := none
  reopenReason := none
  history := (existing.map CloseState.history).getD [] ++
    [⟨.publish, input.publishedBy, input.at_, override.map overrideNote⟩]

def sealPeriod : CloseProg CloseState :=
  do
  let override ← Prog.ofExcept input.gateOverride
  Prog.refuseIf input.SignsOwnWork (.preparedIt input.publishedBy)
  Prog.perform (CloseCall.ledger (.periods (.lock input.tenantId input.pkg.periodKey)))
  let saved ← Prog.perform (CloseCall.savePackage input.tenantId input.pkg)
  Prog.ofExcept (Except.mapError CloseError.package saved)
  Prog.perform (CloseCall.putState (input.sealedState existing override))
  return input.sealedState existing override

end PublishCloseInput

def publishClose (input : PublishCloseInput) : CloseProg CloseState := do
  let existing ← Prog.perform (CloseCall.getState input.tenantId input.pkg.periodKey)
  match (existing : Option CloseState) with
  | some state =>
    if state.status = .published then
      if state.packageFingerprint = some input.pkg.fingerprint then return state
      else .throw (.alreadyPublished input.tenantId input.pkg.periodKey)
    else input.sealPeriod (some state)
  | none => input.sealPeriod none

structure RequestReopenInput where
  tenantId : TenantId
  periodKey : PeriodKey
  requestedBy : String
  reason : String
  at_ : String

def RequestReopenInput.next (input : RequestReopenInput) (state : CloseState) : CloseState :=
  { state with
    status := .reopenRequested
    reopenRequestedBy := some input.requestedBy
    reopenReason := some (Js.trim input.reason)
    history := state.history ++
      [⟨.requestReopen, input.requestedBy, input.at_, some (Js.trim input.reason)⟩] }

def requestReopen (input : RequestReopenInput) : CloseProg CloseState := do
  let found ← Prog.perform (CloseCall.getState input.tenantId input.periodKey)
  match (found : Option CloseState) with
  | none => .throw (.notPublished input.tenantId input.periodKey)
  | some state => match state.status with
    | .opened => .throw (.notPublished input.tenantId input.periodKey)
    | .reopenRequested => .throw (.reopenPending input.periodKey)
    | .reopened => .throw (.alreadyReopened input.periodKey)
    | .published =>
      Prog.refuseIf (Js.trim input.reason = "") .reopenReason
      Prog.perform (CloseCall.putState (input.next state))
      return input.next state

structure ApproveReopenInput where
  tenantId : TenantId
  periodKey : PeriodKey
  approvedBy : String
  at_ : String

variable (input : ApproveReopenInput)

def ApproveReopenInput.next (state : CloseState) : CloseState :=
  { state with
    status := .reopened
    history := state.history ++ [⟨.approveReopen, input.approvedBy, input.at_, none⟩] }

/-- The approver is named as the one who requested. The empty text names nobody. -/
def ApproveReopenInput.ApprovesOwn (state : CloseState) : Prop :=
  state.reopenRequestedBy ≠ some "" ∧ state.reopenRequestedBy = some input.approvedBy

instance (input : ApproveReopenInput) (state : CloseState) : Decidable (input.ApprovesOwn state) :=
  inferInstanceAs (Decidable (_ ∧ _))

def approveReopen : CloseProg CloseState := do
  let found ← Prog.perform (CloseCall.getState input.tenantId input.periodKey)
  match (found : Option CloseState) with
  | none => .throw (.noReopenAwaiting input.tenantId input.periodKey)
  | some state =>
    Prog.refuseIf (state.status ≠ .reopenRequested)
      (.noReopenAwaiting input.tenantId input.periodKey)
    Prog.refuseIf (input.ApprovesOwn state) (.requestedIt input.approvedBy)
    Prog.perform (CloseCall.ledger (.periods (.unlock input.tenantId input.periodKey)))
    Prog.perform (CloseCall.putState (input.next state))
    return input.next state

end Rgnr8.Close
