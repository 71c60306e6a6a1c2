import Rgnr8.Service.WipSpec

/-! The lines drawn up for a job by its method, and what the lines of all the jobs put on the
accounts of each. -/

namespace Rgnr8.Service.Wip
open Lib Lib.Js Fallible Kernel JobMath WipAccount JobLedgerView List

def JobMath.net (m : JobMath) (job : JobRecord) (provided : Int) (a : WipAccount) : Int :=
  m.due job a - (if a = .costsInExcess then provided else 0) +
    if job.revenueAccountCode = a.code then m.toRevenue job + provided else 0

section lines
variable {ctx : WipContext} {input : WipPostInput} {job : JobRecord} {m : JobMath}
variable {adjustment : JobAdjustment}

theorem drawn_capitalized (hid : job.id ≠ "") (hmeth : job.costMethod = .capitalize)
    (hview : m.view.CostsApart) (h : capitalized ctx job m = .ok adjustment) :
    DrawnFor ctx job (m.net job 0) adjustment.lines ∧
      (adjustment.lines = [] ↔ ∀ a, m.due job a = 0) := by
  unfold capitalized at h
  simp only [bind_eq_ok] at h
  obtain ⟨costs, hcosts, billings, hbils, revenue, hreven, h⟩ := h
  obtain rfl := Except.ok.inj h
  obtain ⟨dcosts, ecosts⟩ := drawn_deferral hid hview hcosts
  obtain ⟨dbillings, ebillings⟩ := drawn_moved hid hbils
  obtain ⟨drevenue, erevenue⟩ := drawn_moved hid hreven
  have hwip : m.due job .workInProgress = m.targetWorkInProgress - m.view.workInProgress := by
    simp [due, usedBy, hmeth, target, held]
  have hbill : m.due job .billingsInExcess =
      -(m.targetDeferredBillings - m.view.billingsInExcess) := by
    simp [due, usedBy, hmeth, target, held]
    omega
  have hcie : m.due job .costsInExcess = 0 := by
    simp [due, usedBy, hmeth]
  have hto : m.toRevenue job = m.targetDeferredBillings - m.view.billingsInExcess := by
    simp only [toRevenue, hmeth, hbill, Int.neg_neg]
  constructor
  · have hnet := (dcosts.append dbillings).append drevenue
    refine ⟨hnet.tagged, fun a => ?_⟩
    rw [hnet.net, net, hto]
    dsimp only [EntrySide.signed]
    by_cases hrev : job.revenueAccountCode = a.code
    · simp only [if_pos hrev]
      cases a <;> simp [hcie, hbill, hwip, code, workInProgressCode, costsInExcessCode,
        billingsInExcessCode]
    · simp only [if_neg hrev]
      cases a <;> simp [hcie, hbill, hwip, code, workInProgressCode, costsInExcessCode,
        billingsInExcessCode]
  · rw [append_eq_nil_iff, append_eq_nil_iff, ecosts, ebillings, erevenue]
    constructor
    · rintro ⟨⟨hc, hb⟩, -⟩ a
      cases a
      · exact hcie
      · rw [hbill, hb, Int.neg_zero]
      · rw [hwip, hc]
    · intro hdue
      have hb := hdue .billingsInExcess
      rw [hbill, Int.neg_eq_zero] at hb
      exact ⟨⟨hwip.symm.trans (hdue .workInProgress), hb⟩, hb⟩

theorem drawn_percentComplete (hid : job.id ≠ "") (hmeth : job.costMethod = .asIncurred)
    (h : percentComplete ctx input job m = .ok adjustment) :
    DrawnFor ctx job (m.net job (max 0 (lossProvision input job m))) adjustment.lines ∧
      (adjustment.lines = [] ↔ (∀ a, m.due job a = 0) ∧ max 0 (lossProvision input job m) = 0) := by
  unfold percentComplete at h
  simp only [bind_eq_ok] at h
  obtain ⟨earned, hear, ahead, hahead, revenue, hreven, asset, hasset, loss, hloss, h⟩ := h
  obtain rfl := Except.ok.inj h
  obtain ⟨dearned, eearned⟩ := drawn_moved hid hear
  obtain ⟨dahead, eahead⟩ := drawn_moved hid hahead
  obtain ⟨drevenue, erevenue⟩ := drawn_moved hid hreven
  obtain ⟨dasset, easset⟩ := drawn_moved hid hasset
  obtain ⟨dloss, eloss⟩ := drawn_moved hid hloss
  generalize max 0 (lossProvision input job m) = provided at *
  have hcie : m.due job .costsInExcess = m.targetCostsInExcess - m.view.costsInExcess := by
    simp [due, usedBy, hmeth, target, held]
  have hbill : m.due job .billingsInExcess =
      -(m.targetBillingsInExcess - m.view.billingsInExcess) := by
    simp [due, usedBy, hmeth, target, held]
    omega
  have hwip : m.due job .workInProgress = 0 := by
    simp [due, usedBy, hmeth]
  have hto : m.toRevenue job = -(m.targetCostsInExcess - m.view.costsInExcess -
      (m.targetBillingsInExcess - m.view.billingsInExcess)) := by
    simp only [toRevenue, hmeth, hbill, hcie]
    omega
  constructor
  · have hnet := ((dearned.append dahead).append drevenue).append (dasset.append dloss)
    refine ⟨hnet.tagged, fun a => ?_⟩
    rw [hnet.net, net, hto]
    dsimp only [EntrySide.signed]
    by_cases hrev : job.revenueAccountCode = a.code
    · simp only [if_pos hrev]
      cases a <;> simp [hcie, hbill, hwip, code, workInProgressCode, costsInExcessCode,
        billingsInExcessCode]
      omega
    · simp only [if_neg hrev]
      cases a <;> simp [hcie, hbill, hwip, code, workInProgressCode, costsInExcessCode,
        billingsInExcessCode]
      omega
  · simp only [append_eq_nil_iff, eearned, eahead, erevenue, easset, eloss]
    constructor
    · rintro ⟨⟨⟨hu, ho⟩, -⟩, hp, -⟩
      refine ⟨fun a => ?_, hp⟩
      cases a
      · rw [hcie, hu]
      · rw [hbill, ho, Int.neg_zero]
      · exact hwip
    · rintro ⟨hdue, hp⟩
      have hu := hcie.symm.trans (hdue .costsInExcess)
      have ho := hbill.symm.trans (hdue .billingsInExcess)
      rw [Int.neg_eq_zero] at ho
      exact ⟨⟨⟨hu, ho⟩, by rw [hu, ho, Int.sub_self]⟩, hp, hp⟩

variable {journal journal' : List PostedEntry} {through : String}

theorem jobMath_eq_ok (h : jobMath ctx journal through job = .ok m) :
    let view := ledgerView ctx.chart journal job.id through
    let budget := ctx.jobs.listBudget ctx.tenant job.id
    ∃ ppm, percentOf view.costToDate (estimatedCost budget view) = .ok ppm ∧
      m = mathAt job budget view ppm := by
  unfold jobMath at h
  rw [bind_eq_ok] at h
  obtain ⟨ppm, hppm, h⟩ := h
  exact ⟨ppm, hppm, (Except.ok.inj h).symm⟩

theorem view_of_jobMath (h : jobMath ctx journal through job = .ok m) :
    m.view = ledgerView ctx.chart journal job.id through := by
  obtain ⟨ppm, -, rfl⟩ := jobMath_eq_ok h
  rfl

theorem target_of_unused (h : jobMath ctx journal through job = .ok m) {a : WipAccount}
    (hunus : a.usedBy job.costMethod = false) : m.target job a = 0 := by
  obtain ⟨ppm, -, rfl⟩ := jobMath_eq_ok h
  cases a <;> cases hmeth : job.costMethod <;>
    simp_all [usedBy, target, mathAt]

theorem provision_of_costs {v : JobLedgerView} (h : v.costToDate = m.view.costToDate) :
    provision input job { m with view := v } = provision input job m := by
  obtain ⟨view, _, _, _, _, _, _, _⟩ := m
  obtain ⟨costToDate, _, _, _, _, _⟩ := v
  obtain ⟨costToDate', _, _, _, _, _⟩ := view
  have hcost : costToDate = costToDate' := h
  subst hcost
  rfl

theorem jobMath_of_facts (hm : jobMath ctx journal through job = .ok m)
    (hfacts : (ledgerView ctx.chart journal' job.id through).facts =
      (ledgerView ctx.chart journal job.id through).facts) :
    jobMath ctx journal' through job =
        .ok { m with view := ledgerView ctx.chart journal' job.id through } ∧
      provision input job { m with view := ledgerView ctx.chart journal' job.id through } =
        provision input job m := by
  have hcost := congrArg Prod.fst hfacts
  have hbil := congrArg Prod.snd hfacts
  dsimp only [facts] at hcost hbil
  obtain ⟨ppm, hppm, rfl⟩ := jobMath_eq_ok hm
  have hest : estimatedCost (ctx.jobs.listBudget ctx.tenant job.id)
      (ledgerView ctx.chart journal' job.id through) =
      estimatedCost (ctx.jobs.listBudget ctx.tenant job.id)
        (ledgerView ctx.chart journal job.id through) := by
    unfold estimatedCost
    rw [hcost]
  constructor
  · unfold jobMath
    dsimp only
    rw [hest, hcost, bind_eq_ok]
    refine ⟨ppm, hppm, congrArg Except.ok ?_⟩
    unfold mathAt
    rw [hest, hcost, hbil]
  · exact provision_of_costs hcost

theorem drawn_jobAdjustment (hid : job.id ≠ "")
    (h : jobAdjustment ctx input journal through job = .ok adjustment) :
    ∃ m, jobMath ctx journal through job = .ok m ∧
      DrawnFor ctx job (m.net job (provision input job m)) adjustment.lines ∧
      (adjustment.lines = [] ↔ (∀ a, m.due job a = 0) ∧ provision input job m = 0) := by
  unfold jobAdjustment at h
  rw [bind_eq_ok] at h
  obtain ⟨m, hm, h⟩ := h
  refine ⟨m, hm, ?_⟩
  have hview : m.view.CostsApart := by
    rw [view_of_jobMath hm]
    exact costsApart_ledgerView journal
  unfold provision
  cases hmeth : job.costMethod with
  | capitalize =>
    rw [hmeth] at h
    obtain ⟨hdrawn, hemp⟩ := drawn_capitalized hid hmeth hview h
    exact ⟨hdrawn, hemp.trans (and_iff_left rfl).symm⟩
  | asIncurred =>
    rw [hmeth] at h
    exact drawn_percentComplete hid hmeth h

theorem exists_jobAdjustment (hm : jobMath ctx journal through job = .ok m)
    (hdue : ∀ a, m.due job a = 0) (hprov : provision input job m = 0) :
    ∃ adjustment, jobAdjustment ctx input journal through job = .ok adjustment := by
  have hmov : ∀ code up memo, moved ctx job code up 0 memo = .ok [] := fun _ _ _ => if_pos rfl
  unfold jobAdjustment
  rw [hm]
  cases hmeth : job.costMethod with
  | capitalize =>
    have hcost : m.targetWorkInProgress - m.view.workInProgress = 0 := by
      simpa [due, usedBy, hmeth, target, held] using
        hdue .workInProgress
    have hbill : m.targetDeferredBillings - m.view.billingsInExcess = 0 := by
      have hdue := hdue .billingsInExcess
      simp only [due, usedBy, hmeth, target, held] at hdue
      simp only [if_true] at hdue
      omega
    refine ⟨⟨job.id, 0, 0, []⟩, ?_⟩
    show capitalized ctx job m = _
    unfold capitalized deferral
    simp only [hcost, hbill, hmov]
    rfl
  | asIncurred =>
    have hunder : m.targetCostsInExcess - m.view.costsInExcess = 0 := by
      simpa [due, usedBy, hmeth, target, held] using
        hdue .costsInExcess
    have hahead : m.targetBillingsInExcess - m.view.billingsInExcess = 0 := by
      have hdue := hdue .billingsInExcess
      simp only [due, usedBy, hmeth, target, held] at hdue
      simp only [if_true] at hdue
      omega
    have hloss : max 0 (lossProvision input job m) = 0 := by
      unfold provision at hprov
      rwa [hmeth] at hprov
    refine ⟨⟨job.id, 0, lossProvision input job m, []⟩, ?_⟩
    show percentComplete ctx input job m = _
    unfold percentComplete
    simp only [hunder, hahead, hloss, Int.sub_self, hmov]
    rfl

end lines

/-! The lines of all the jobs together. -/

theorem nodup_listJobs (s : JobStore) (localeLe : String → String → Bool) (tenant : TenantId) :
    ((listJobs s localeLe tenant).map JobRecord.id).Nodup := by
  unfold listJobs
  rw [((perm_insertionSort _ _).map JobRecord.id).nodup_iff]
  have hkeys : ∀ e ∈ (s.jobs.filter fun key _ => key.1 = tenant).entries,
      e.1.1 = tenant ∧ e.2.id = e.1.2 := by
    rintro ⟨⟨t, id⟩, j⟩ he
    rw [OrderedMap.mem_entries, OrderedMap.get?_filter, Option.filter_eq_some_iff] at he
    exact ⟨of_decide_eq_true he.2, s.id_of_get he.1⟩
  have hids : (s.jobs.filter fun key _ => key.1 = tenant).values.map JobRecord.id =
      (s.jobs.filter fun key _ => key.1 = tenant).keys.map Prod.snd := by
    unfold OrderedMap.values OrderedMap.keys
    rw [map_map, map_map]
    exact map_congr_left fun e he => (hkeys e he).2
  rw [hids]
  refine List.Nodup.map_on (fun k hk k' hk' hsnd => ?_) (OrderedMap.nodup _)
  obtain ⟨e, he, rfl⟩ := mem_map.mp hk
  obtain ⟨e', he', rfl⟩ := mem_map.mp hk'
  exact Prod.ext ((hkeys e he).1.trans (hkeys e' he').1.symm) hsnd

section covered
variable {ctx : WipContext} {input : WipPostInput} {journal : List PostedEntry} {through : String}

theorem nodup_covered (ctx : WipContext) (input : WipPostInput) :
    ((covered ctx input).map JobRecord.id).Nodup :=
  (nodup_listJobs ctx.jobs ctx.localeLe ctx.tenant).sublist (filter_sublist.map JobRecord.id)

theorem named_of_mem_covered {job : JobRecord} (h : job ∈ covered ctx input) : job.id ≠ "" :=
  ctx.named job (mem_filter.mp h).1

theorem tagged_linesOf {jobs : List JobRecord} {adjustments : List JobAdjustment}
    (h : List.Forall₂ (fun job a => jobAdjustment ctx input journal through job = .ok a) jobs
      adjustments) (hids : ∀ job ∈ jobs, job.id ≠ "") {l : PostedLine}
    (hl : l ∈ (linesOf adjustments).map cleaned) : ∃ job ∈ jobs, jobOf l = some job.id := by
  unfold linesOf at hl
  rw [map_flatMap, mem_flatMap] at hl
  obtain ⟨a, ha, hl⟩ := hl
  obtain ⟨job, hjob, hadj⟩ := exists_of_forall₂ h ha
  obtain ⟨m, -, hdrawn, -⟩ := drawn_jobAdjustment (hids job hjob) hadj
  exact ⟨job, hjob, hdrawn.tagged l hl⟩

theorem carried_linesOf {jobs : List JobRecord} {adjustments : List JobAdjustment}
    (h : List.Forall₂ (fun job a => jobAdjustment ctx input journal through job = .ok a) jobs
      adjustments) (hids : ∀ job ∈ jobs, job.id ≠ "") (hnd : (jobs.map JobRecord.id).Nodup)
    {job : JobRecord} (hjob : job ∈ jobs) : ∃ m, jobMath ctx journal through job = .ok m ∧
      ∀ a, carried ctx.chart a.code job.id ((linesOf adjustments).map cleaned) =
        m.net job (provision input job m) a := by
  induction h with
  | nil => exact absurd hjob not_mem_nil
  | @cons first adjustment jobs adjustments hfst hrest ih =>
    rw [forall_mem_cons] at hids
    rw [map_cons, nodup_cons] at hnd
    obtain ⟨m, hm, hdrawn, -⟩ := drawn_jobAdjustment hids.1 hfst
    have hsplit : (linesOf (adjustment :: adjustments)).map cleaned =
        adjustment.lines.map cleaned ++ (linesOf adjustments).map cleaned := by
      unfold linesOf
      rw [flatMap_cons, map_append]
    rcases mem_cons.mp hjob with rfl | hlater
    · refine ⟨m, hm, fun a => ?_⟩
      rw [hsplit, carried_append, hdrawn.net]
      refine (congrArg _ (carried_of_off fun l hl hown => ?_)).trans (Int.add_zero _)
      obtain ⟨other, hother, htag⟩ := tagged_linesOf hrest hids.2 hl
      have hsame : job.id = other.id := Option.some.inj (hown.symm.trans htag)
      exact absurd (hsame ▸ mem_map_of_mem hother) hnd.1
    · obtain ⟨m', hm', hnet⟩ := ih hids.2 hnd.2 hlater
      refine ⟨m', hm', fun a => ?_⟩
      rw [hsplit, carried_append, hnet]
      refine (congrArg (· + _) (carried_of_off fun l hl hown => ?_)).trans (Int.zero_add _)
      have hsame : first.id = job.id := Option.some.inj ((hdrawn.tagged l hl).symm.trans hown)
      exact absurd (hsame ▸ mem_map_of_mem hlater) hnd.1

end covered
end Rgnr8.Service.Wip
