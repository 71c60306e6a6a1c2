import Rgnr8.Service.EstimateScope

/-! Estimates drawn up, revised, moved between statuses and accepted onto one job, in any order. -/

namespace Rgnr8.Service.Estimates
open Lib Lib.Js Fallible Kernel JobBudgets EstimateCall Prog OrderedMap Option Except

/-! Drawing up keeps the codes of its lines as a budget has them, and touches no job. -/

section
variable {ctx : EstimateContext} {s : EstimateStores}

def Coded (ctx : EstimateContext) (s : EstimateStores) : Prop :=
  ∀ id e, s.estimates.get ctx.tenant id = some e → ∀ l ∈ e.lines, Normal l.costCode

theorem Coded.save (hs : Coded ctx s) {record : EstimateRecord}
    (hlines : ∀ l ∈ record.lines, Normal l.costCode) :
    Coded ctx { s with estimates := s.estimates.save ctx.tenant record } := by
  intro id e he
  have hget := EstimateStore.get_save s.estimates ctx.tenant ctx.tenant record id
  rw [show ({ s with estimates := s.estimates.save ctx.tenant record } : EstimateStores).estimates.get
    ctx.tenant id = _ from hget] at he
  split_ifs at he
  · rw [← some.inj he]
    exact hlines
  · exact hs id e he

/-- A call that leaves the jobs alone and saves estimates only with such codes. -/
def Drawn (ctx : EstimateContext) (s t : EstimateStores) : Prop :=
  t.jobs = s.jobs ∧ (Coded ctx s → Coded ctx t)

theorem Drawn.refl (ctx : EstimateContext) (s : EstimateStores) : Drawn ctx s s := ⟨rfl, id⟩

def Reseeded (ctx : EstimateContext) (e : EstimateRecord) (prior : Option EstimateRecord)
    (before after : List JobBudgetLine) : Prop :=
  ((costsByCode e).keys = [] ∧ ((prior.map costsByCode).getD .empty).keys = [] ∧ after = before) ∨
    ∃ codes, newBudget ctx.localeLe codes before
      (budgetInputs before (costsByCode e) ((prior.map costsByCode).getD .empty)) = .ok after

structure Accepted (ctx : EstimateContext) (jobId : String) (e : EstimateRecord)
    (prior : Option EstimateRecord) (s t : EstimateStores) (r : AcceptResult) : Prop where
  onto : r.jobId = jobId
  estimate : r.estimate = { e with status := .accepted, jobId := jobId }
  taxed : integerOf e.taxRatePpm ≠ none
  estimates : t.estimates = s.estimates.save ctx.tenant r.estimate
  contract : ∃ job, s.jobs.getJob ctx.tenant jobId = some job ∧
    t.jobs.getJob ctx.tenant jobId = some { job with
      contractMinor := job.contractMinor + priceTotal e - (prior.map priceTotal).getD 0 }
  budget : Reseeded ctx e prior (s.jobs.listBudget ctx.tenant jobId)
    (t.jobs.listBudget ctx.tenant jobId)

end

/-! Runs. -/

/-- The stores, and for each root the revision last accepted onto the job, as it was accepted. -/
structure EstimatedJob where
  stores : EstimateStores
  carried : OrderedMap String EstimateRecord

inductive EstimateOp where
  | save (chart : ChartOfAccounts) (input : EstimateInput)
  | revise (chart : ChartOfAccounts) (id : String) (input : EstimateInput)
  | setStatus (id : String) (status : EstimateStatus)
  | accept (chart : ChartOfAccounts) (id : String) (input : AcceptInput)

namespace EstimatedJob
variable {ctx : EstimateContext} {jobId : String}

def step (ctx : EstimateContext) (jobId : String) (s : EstimatedJob) : EstimateOp → EstimatedJob
  | .save chart input => { s with
      stores := ((saveEstimate { ctx with chart := chart } input).run EstimateCall.exec s.stores).2 }
  | .revise chart id input => { s with
      stores := ((reviseEstimate { ctx with chart := chart } id input).run EstimateCall.exec
        s.stores).2 }
  | .setStatus id status => { s with
      stores := ((setEstimateStatus ctx id status).run EstimateCall.exec s.stores).2 }
  | .accept chart id input =>
    match (acceptEstimate { ctx with chart := chart } id input).run EstimateCall.exec s.stores with
    | (.ok r, stores) => ⟨stores, if r.jobId = jobId then s.carried.set r.estimate.rootId r.estimate
        else s.carried⟩
    | (.error _, stores) => { s with stores := stores }

def opening (docs : InMemoryDocumentStore) (jobs : JobStore) : EstimatedJob :=
  ⟨⟨docs, jobs, .empty⟩, .empty⟩

structure Carries (ctx : EstimateContext) (jobId : String) (first : JobStore) (s : EstimatedJob) :
    Prop where
  contract : ∃ job₀ job, first.getJob ctx.tenant jobId = some job₀ ∧
    s.stores.jobs.getJob ctx.tenant jobId = some job ∧
      job.contractMinor = job₀.contractMinor + s.carried.total fun _ e => priceTotal e
  budget : ∀ code, code ≠ "" → budgetOn code (s.stores.jobs.listBudget ctx.tenant jobId) =
    budgetOn code (first.listBudget ctx.tenant jobId) +
      s.carried.total fun _ e => costOn code e.lines

/-- Where nothing of the estimate's root is carried, no other revision of it has the job as its own;
and else the highest of those that do says what the one carried said. -/
def LandedLast (ctx : EstimateContext) (jobId : String) (s : EstimatedJob) (e : EstimateRecord) :
    Prop :=
  let all := s.stores.estimates.list ctx.localeLe ctx.tenant
  match s.carried.get? e.rootId with
  | none => ∀ o ∈ all, ¬ IsSibling e jobId o
  | some a => ∃ p ∈ all, IsSibling e jobId p ∧ p.lines = a.lines ∧ p.taxRatePpm = a.taxRatePpm ∧
      ∀ o ∈ all, IsSibling e jobId o → o ≠ p → o.revision < p.revision

def Steady (ctx : EstimateContext) (jobId : String) (s : EstimatedJob) : EstimateOp → Prop
  | .accept _ id _ => ∀ e, s.stores.estimates.get ctx.tenant id = some e → s.LandedLast ctx jobId e
  | _ => True

instance (ctx : EstimateContext) (jobId : String) (s : EstimatedJob) (e : EstimateRecord) :
    Decidable (s.LandedLast ctx jobId e) :=
  match h : s.carried.get? e.rootId with
  | none => decidable_of_iff (∀ o ∈ s.stores.estimates.list ctx.localeLe ctx.tenant,
      ¬ IsSibling e jobId o) (by unfold LandedLast; rw [h])
  | some a => decidable_of_iff (∃ p ∈ s.stores.estimates.list ctx.localeLe ctx.tenant,
      IsSibling e jobId p ∧ p.lines = a.lines ∧ p.taxRatePpm = a.taxRatePpm ∧
        ∀ o ∈ s.stores.estimates.list ctx.localeLe ctx.tenant,
          IsSibling e jobId o → o ≠ p → o.revision < p.revision) (by unfold LandedLast; rw [h])

/-- What the calls keep. -/
structure Kept (ctx : EstimateContext) (jobId : String) (first : JobStore) (s : EstimatedJob) :
    Prop where
  coded : Coded ctx s.stores
  kept : WellKept (s.stores.jobs.listBudget ctx.tenant jobId)
  taxed : ∀ root a, s.carried.get? root = some a → integerOf a.taxRatePpm ≠ none
  carries : s.Carries ctx jobId first

variable {e : EstimateRecord} {s : EstimatedJob} {first : JobStore}

theorem Kept.drawn {stores : EstimateStores} (hs : s.Kept ctx jobId first)
    (h : Drawn ctx s.stores stores) :
    ({ s with stores := stores } : EstimatedJob).Kept ctx jobId first := by
  obtain ⟨hjobs, hcoded⟩ := h
  refine ⟨hcoded hs.coded, ?_, hs.taxed, ?_, ?_⟩
  · rw [hjobs]
    exact hs.kept
  · rw [hjobs]
    exact hs.carries.contract
  · rw [hjobs]
    exact hs.carries.budget

theorem LandedLast.prior (h : s.LandedLast ctx jobId e) :
    ∃ prior, priorRevision e jobId (s.stores.estimates.list ctx.localeLe ctx.tenant) = prior ∧
      (prior = none ∧ s.carried.get? e.rootId = none ∨
        ∃ p a, prior = some p ∧ p ∈ s.stores.estimates.list ctx.localeLe ctx.tenant ∧
          s.carried.get? e.rootId = some a ∧ p.lines = a.lines ∧ p.taxRatePpm = a.taxRatePpm) := by
  obtain ⟨hnone, hsome⟩ :=
    priorRevision_spec e jobId (s.stores.estimates.list ctx.localeLe ctx.tenant)
  refine ⟨_, rfl, ?_⟩
  unfold LandedLast at h
  dsimp only at h
  rcases hcarr : s.carried.get? e.rootId with - | a
  · rw [hcarr] at h
    refine .inl ⟨eq_none_iff_forall_ne_some.mpr fun p hp => ?_, rfl⟩
    obtain ⟨hmem, hsib, -⟩ := hsome p hp
    exact h p hmem hsib
  · rw [hcarr] at h
    obtain ⟨p, hp, hsib, hlines, hrate, hlast⟩ := h
    rcases hprior : priorRevision e jobId (s.stores.estimates.list ctx.localeLe ctx.tenant) with - | q
    · exact absurd hsib (hnone hprior p hp)
    · obtain ⟨hq, hqsib, hmax⟩ := hsome q hprior
      have hsame : q = p := by
        by_contra hne
        exact absurd (hlast q hq hqsib hne) (not_lt.mpr (hmax p hp hsib))
      rw [hsame]
      exact .inr ⟨p, a, rfl, hp, rfl, hlines, hrate⟩

theorem mem_list {estimates : EstimateStore} {le : String → String → Bool} {tenant : TenantId}
    (h : e ∈ estimates.list le tenant) : ∃ id, estimates.get tenant id = some e := by
  unfold EstimateStore.list at h
  rw [List.mem_insertionSort] at h
  obtain ⟨⟨⟨t, id⟩, e'⟩, hent, rfl⟩ := List.mem_map.mp h
  have hget := mem_entries.mp hent
  rw [get?_filter, filter_eq_some_iff] at hget
  obtain ⟨hget, htenant⟩ := hget
  rw [decide_eq_true_eq] at htenant
  subst htenant
  exact ⟨id, hget⟩

end EstimatedJob

namespace Remodelling

def context : EstimateContext where
  tenant := "acme"
  chart := (ChartOfAccounts.ofAccounts
    [⟨"sales", "4000", "Sales", .revenue, ⟨"USD", 2⟩, none, none, none, none⟩]).toOption.getD .empty
  localeLe := fun a b => a ≤ b

def docs : InMemoryDocumentStore :=
  .ofParties (OrderedMap.empty.set ("acme", .customer, "smith") ⟨"smith", "Smith", none⟩)

def jobs : JobStore :=
  (JobStore.empty.saveCostCode "acme" ⟨"LAB", "Labour", "5500", true⟩).saveJob "acme"
    ⟨"kitchen", "smith", "Kitchen", .active, .asIncurred, 1000, 0, "4000"⟩

def line (cost price : String) : EstimateLineInput where
  description := some "Remodelling"
  costCode := some "LAB"
  quantityMilli := none
  unitCostMinor := some (.text cost)
  markupPpm := none
  unitPriceMinor := some (.text price)
  accountCode := none
  taxable := none

def first (jobId : Option String) : EstimateInput where
  id := some "E1"
  customerId := some "smith"
  jobId := jobId
  date := some "2026-03-01"
  expiryDate := none
  taxRatePpm := none
  memo := none
  lines := some [line "400" "500"]

end Remodelling

end Rgnr8.Service.Estimates
