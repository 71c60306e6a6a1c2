import Rgnr8.Close.Checklist
import Rgnr8.Kernel.EngineRun

/-! What each transition of the close can do to the stores, said once. -/

namespace Rgnr8.Close
open Lib Kernel Prog CloseCall
variable {π τ : Type} [PeriodStore π] [PackageStore τ] {s : CloseStores π τ}

namespace CloseStores

omit [PeriodStore π] [PackageStore τ] in
@[simp] theorem state_put (s : CloseStores π τ) (st : CloseState) (t : TenantId) (p : PeriodKey) :
    (s.put st).state t p = if (t, p) = (st.tenantId, st.periodKey) then some st else s.state t p :=
  OrderedMap.get?_set ..

omit [PackageStore τ] in
@[simp] theorem lockStatus_lock (s : CloseStores π τ) (t : TenantId) (p : PeriodKey) :
    (s.lock t p).lockStatus t p = .locked := PeriodStore.status_lock s.ledger.periods t p

end CloseStores

/-- The gate and the roles let the input through, and the period is not published already. -/
structure Sealable (s : CloseStores π τ) (input : PublishCloseInput) : Prop where
  unpublished : ∀ st, s.state input.tenantId input.pkg.periodKey = some st → st.status ≠ .published
  gate : ∃ override, input.gateOverride = .ok override
  roles : ¬ input.SignsOwnWork

/-- The package store takes the package. -/
def Accepts (s : CloseStores π τ) (input : PublishCloseInput) : Prop :=
  assertIntact input.pkg = .ok () ∧ Fits (s.held input.tenantId input.pkg.periodKey) input.pkg

inductive Published (s : CloseStores π τ) (input : PublishCloseInput) :
    Except CloseError CloseState × CloseStores π τ → Prop
  | replayed {st : CloseState} (hstate : s.state input.tenantId input.pkg.periodKey = some st)
      (hstatus : st.status = .published)
      (hsame : st.packageFingerprint = some input.pkg.fingerprint) : Published s input (.ok st, s)
  | refused (e : CloseError) (h : ¬ Sealable s input) : Published s input (.error e, s)
  | lockedOnly (h : Sealable s input) (e : PackageError) (hno : ¬ Accepts s input) :
      Published s input (.error (.package e), s.lock input.tenantId input.pkg.periodKey)
  | sealed (h : Sealable s input) (hyes : Accepts s input) {override : Option CloseOverride}
      (hgate : input.gateOverride = .ok override) {packages : τ} {kept : FinancialPackage}
      (hkept : kept.fingerprint = input.pkg.fingerprint)
      (hnew : s.held input.tenantId input.pkg.periodKey = none → kept = input.pkg)
      (hheld : ∀ t p, PackageStore.held packages t p =
        if (t, p) = (input.tenantId, input.pkg.periodKey) then some kept else s.held t p) :
      Published s input
        (.ok (input.sealedState (s.state input.tenantId input.pkg.periodKey) override),
          ({ s.lock input.tenantId input.pkg.periodKey with packages := packages }).put
            (input.sealedState (s.state input.tenantId input.pkg.periodKey) override))

omit [PeriodStore π] in
theorem saved (s : CloseStores π τ) (input : PublishCloseInput) :
    (∃ e, PackageStore.save s.packages input.tenantId input.pkg = .error e ∧ ¬ Accepts s input) ∨
      ∃ packages kept, PackageStore.save s.packages input.tenantId input.pkg = .ok packages ∧
        Accepts s input ∧ kept.fingerprint = input.pkg.fingerprint ∧
        (s.held input.tenantId input.pkg.periodKey = none → kept = input.pkg) ∧
        ∀ t p, PackageStore.held packages t p =
          if (t, p) = (input.tenantId, input.pkg.periodKey) then some kept else s.held t p := by
  cases hint : assertIntact input.pkg with
  | error e =>
    refine .inl ⟨e, PackageStore.save_of_broken _ _ _ e hint, fun h => ?_⟩
    cases hint.symm.trans h.1
  | ok u =>
    by_cases hfits : Fits (s.held input.tenantId input.pkg.periodKey) input.pkg
    · obtain ⟨packages, kept, hsave, hkept⟩ := PackageStore.save_of_fits s.packages _ _ hint hfits
      exact .inr ⟨packages, kept, hsave, ⟨hint, hfits⟩, hkept⟩
    · exact .inl ⟨_, PackageStore.save_of_other _ _ _ hint hfits, fun h => hfits h.2⟩

variable {existing : Option CloseState} {input : PublishCloseInput}

theorem run_sealPeriod_of_gate_error {e : CloseError} (h : input.gateOverride = .error e) :
    (input.sealPeriod existing).run CloseCall.exec s = (.error e, s) := by
  unfold PublishCloseInput.sealPeriod
  rw [h]
  rfl

theorem run_sealPeriod_of_signs {override : Option CloseOverride}
    (h : input.gateOverride = .ok override) (hsigns : input.SignsOwnWork) :
    (input.sealPeriod existing).run CloseCall.exec s =
      (.error (.preparedIt input.publishedBy), s) := by
  unfold PublishCloseInput.sealPeriod
  rw [h, refuseIf_pos hsigns]
  rfl

theorem run_sealPeriod_of_passes {override : Option CloseOverride}
    (h : input.gateOverride = .ok override) (hroles : ¬ input.SignsOwnWork) :
    (input.sealPeriod existing).run CloseCall.exec s =
      match PackageStore.save s.packages input.tenantId input.pkg with
      | .error e => (.error (.package e), s.lock input.tenantId input.pkg.periodKey)
      | .ok packages => (.ok (input.sealedState existing override),
          ({ s.lock input.tenantId input.pkg.periodKey with packages := packages }).put
            (input.sealedState existing override)) := by
  unfold PublishCloseInput.sealPeriod
  rw [h, refuseIf_neg hroles]
  show Prog.run exec (Prog.bind (Prog.perform (savePackage _ _)) _)
    (s.lock input.tenantId input.pkg.periodKey) = _
  rw [run_bind, run_perform]
  have hpac : (s.lock input.tenantId input.pkg.periodKey).packages = s.packages := rfl
  simp only [exec, hpac]
  cases PackageStore.save s.packages input.tenantId input.pkg with
  | error e => rfl
  | ok packages => rfl

theorem published_sealPeriod (s : CloseStores π τ) (input : PublishCloseInput)
    (h : ∀ st, s.state input.tenantId input.pkg.periodKey = some st → st.status ≠ .published) :
    Published s input ((input.sealPeriod (s.state input.tenantId input.pkg.periodKey)).run
      CloseCall.exec s) := by
  cases hgate : input.gateOverride with
  | error e =>
    rw [run_sealPeriod_of_gate_error hgate]
    refine .refused e fun hseal => ?_
    obtain ⟨override, hok⟩ := hseal.gate
    cases hgate.symm.trans hok
  | ok override =>
    by_cases hsigns : input.SignsOwnWork
    · rw [run_sealPeriod_of_signs hgate hsigns]
      exact .refused _ fun hseal => hseal.roles hsigns
    · have hseal : Sealable s input := ⟨h, ⟨override, hgate⟩, hsigns⟩
      rw [run_sealPeriod_of_passes hgate hsigns]
      rcases saved s input with ⟨e, hsave, hno⟩ | ⟨packages, kept, hsave, hyes, hkept, hnew, hheld⟩
      · simp only [hsave]
        exact .lockedOnly hseal e hno
      · simp only [hsave]
        exact .sealed hseal hyes hgate hkept hnew hheld

theorem published (s : CloseStores π τ) (input : PublishCloseInput) :
    Published s input ((publishClose input).run CloseCall.exec s) := by
  unfold publishClose
  rw [bind_eq, run_bind, run_perform]
  simp only [exec]
  cases hstate : s.state input.tenantId input.pkg.periodKey with
  | none =>
    have h := published_sealPeriod s input (by simp [hstate])
    rwa [hstate] at h
  | some st =>
    by_cases hstatus : st.status = .published
    · simp only [if_pos hstatus]
      split_ifs with hsame
      · exact .replayed hstate hstatus hsame
      · exact .refused _ fun hseal => hseal.unpublished st hstate hstatus
    · simp only [if_neg hstatus]
      have h := published_sealPeriod s input (by simpa [hstate] using hstatus)
      rwa [hstate] at h

/-! Runs of the close: publishes, reopen requests and approvals of any people on any periods, with
postings in between. -/

inductive CloseRequest where
  | publish (input : PublishCloseInput)
  | requestReopen (input : RequestReopenInput)
  | approveReopen (input : ApproveReopenInput)
  | posting (chart : ChartOfAccounts) (c : PostingCall)

def CloseRequest.step (s : CloseStores π τ) : CloseRequest → CloseStores π τ
  | publish input => ((publishClose input).run CloseCall.exec s).2
  | requestReopen input => ((Close.requestReopen input).run CloseCall.exec s).2
  | approveReopen input => ((Close.approveReopen input).run CloseCall.exec s).2
  | posting chart c => { s with ledger := ((c.program chart).run LedgerCall.exec s.ledger).2 }

def CloseStores.opening (ledger : Ledger π) (packages : τ) : CloseStores π τ :=
  ⟨ledger, packages, .empty⟩

inductive Moved (s : CloseStores π τ) : CloseRequest → CloseStores π τ → Prop
  | stays (a : CloseRequest) : Moved s a s
  | lockedOnly {input : PublishCloseInput} (h : Sealable s input) :
      Moved s (.publish input) (s.lock input.tenantId input.pkg.periodKey)
  | sealed {input : PublishCloseInput} (h : Sealable s input) (hyes : Accepts s input)
      {override : Option CloseOverride} (hgate : input.gateOverride = .ok override) {packages : τ}
      {kept : FinancialPackage} (hkept : kept.fingerprint = input.pkg.fingerprint)
      (hheld : ∀ t p, PackageStore.held packages t p =
        if (t, p) = (input.tenantId, input.pkg.periodKey) then some kept else s.held t p) :
      Moved s (.publish input)
        (({ s.lock input.tenantId input.pkg.periodKey with packages := packages }).put
          (input.sealedState (s.state input.tenantId input.pkg.periodKey) override))
  | requested {input : RequestReopenInput} {st : CloseState}
      (hstate : s.state input.tenantId input.periodKey = some st)
      (hstatus : st.status = .published) : Moved s (.requestReopen input) (s.put (input.next st))
  | approved {input : ApproveReopenInput} {st : CloseState}
      (hstate : s.state input.tenantId input.periodKey = some st)
      (hstatus : st.status = .reopenRequested) (hother : ¬ input.ApprovesOwn st) :
      Moved s (.approveReopen input)
        ((s.unlock input.tenantId input.periodKey).put (input.next st))
  | posted {chart : ChartOfAccounts} {c : PostingCall} {ledger : Ledger π}
      (hperiods : ledger.periods = s.ledger.periods) :
      Moved s (.posting chart c) { s with ledger := ledger }

section
variable (s : CloseStores π τ)

theorem moved_requestReopen (input : RequestReopenInput) :
    Moved s (.requestReopen input) ((requestReopen input).run CloseCall.exec s).2 := by
  unfold requestReopen
  rw [bind_eq, run_bind, run_perform]
  simp only [exec]
  cases hstate : s.state input.tenantId input.periodKey with
  | none => exact .stays _
  | some st =>
    cases hstatus : st.status with
    | opened => simp only [hstatus]; exact .stays _
    | reopenRequested => simp only [hstatus]; exact .stays _
    | reopened => simp only [hstatus]; exact .stays _
    | published =>
      simp only [hstatus]
      by_cases hreas : Js.trim input.reason = ""
      · rw [refuseIf_pos hreas]
        exact .stays _
      · rw [refuseIf_neg hreas]
        exact .requested hstate hstatus

theorem moved_approveReopen (input : ApproveReopenInput) :
    Moved s (.approveReopen input) ((approveReopen input).run CloseCall.exec s).2 := by
  unfold approveReopen
  rw [bind_eq, run_bind, run_perform]
  simp only [exec]
  cases hstate : s.state input.tenantId input.periodKey with
  | none => exact .stays _
  | some st =>
    simp only
    by_cases hstatus : st.status = .reopenRequested
    · rw [refuseIf_neg (not_not.mpr hstatus)]
      by_cases hown : input.ApprovesOwn st
      · rw [refuseIf_pos hown]
        exact .stays _
      · rw [refuseIf_neg hown]
        exact .approved hstate hstatus hown
    · rw [refuseIf_pos hstatus]
      exact .stays _

theorem moved_publishClose (input : PublishCloseInput) :
    Moved s (.publish input) ((publishClose input).run CloseCall.exec s).2 := by
  have h := published s input
  generalize (publishClose input).run exec s = r at h
  cases h with
  | replayed => exact .stays _
  | refused => exact .stays _
  | lockedOnly hseal => exact .lockedOnly hseal
  | sealed hseal hyes hgate hkept hnew hheld => exact .sealed hseal hyes hgate hkept hheld

theorem periods_posting (chart : ChartOfAccounts) (c : PostingCall) (ledger : Ledger π) :
    ((c.program chart).run LedgerCall.exec ledger).2.periods = ledger.periods := by
  have h := Books.performed ⟨chart, ledger⟩ c
  unfold Books.perform at h
  simp only at h
  generalize (c.program chart).run LedgerCall.exec ledger = r at h
  obtain ⟨x, ledger'⟩ := r
  cases h with
  | unchanged r => rfl
  | posted => rfl
  | reversed => rfl

theorem moved (a : CloseRequest) : Moved s a (a.step s) := by
  cases a with
  | publish input => exact moved_publishClose s input
  | requestReopen input => exact moved_requestReopen s input
  | approveReopen input => exact moved_approveReopen s input
  | posting chart c => exact .posted (periods_posting chart c s.ledger)

end

/-! August closed with no bookings, reopened, and booked on. -/

namespace Sample

def noBooks : FinancialPackageInput where
  periodKey := "2026-08"
  currency := "USD"
  trialBalance := ⟨[], "0", "0", true⟩
  incomeStatement := ⟨"0", "0", "0", none, none⟩
  balanceSheet := ⟨"0", "0", "0", true, none, none, none⟩
  qboReconciliation := none

def soldBooks : FinancialPackageInput where
  periodKey := "2026-08"
  currency := "USD"
  trialBalance :=
    ⟨[⟨"1000", "Cash", "500", "0"⟩, ⟨"4000", "Sales", "0", "500"⟩], "500", "500", true⟩
  incomeStatement := ⟨"500", "0", "500", none, none⟩
  balanceSheet := ⟨"500", "500", "500", true, none, none, none⟩
  qboReconciliation := none

def packageOf (books : FinancialPackageInput) (fingerprint : String) : FinancialPackage :=
  { contentOf books with
    closedBy := "sam"
    closedAt := "2026-09-01"
    packagedAt := "2026-09-01"
    algorithm := fingerprintAlgorithm
    fingerprint := fingerprint }

def unsold : FinancialPackage :=
  packageOf noBooks "3fc2ab7753c8ac5d1cbbada9d65d73065cdb359442750ea88d540c14aa380dd7"

def sold : FinancialPackage :=
  packageOf soldBooks "237894e6116dd44c23b35977b41f3373abfbecc30427fd4c03d09957954e2a6a"

def publishing (pkg : FinancialPackage) : PublishCloseInput where
  tenantId := "acme"
  inputs := ⟨[⟨"1000", "BALANCED", true⟩], [⟨"AR", true⟩], true, false⟩
  pkg := pkg
  preparedBy := none
  publishedBy := "sam"
  at_ := "2026-09-01"
  override := none

def reopening (requestedBy approvedBy : String) : List CloseRequest :=
  [.publish (publishing unsold),
    .requestReopen ⟨"acme", "2026-08", requestedBy, "late invoice", "2026-09-02"⟩,
    .approveReopen ⟨"acme", "2026-08", approvedBy, "2026-09-02"⟩]

def opening : CloseStores (InMemoryPeriodStore TenantId PeriodKey) InMemoryPackageStore :=
  .opening ⟨.empty, .empty⟩ .empty

end Sample
end Rgnr8.Close
