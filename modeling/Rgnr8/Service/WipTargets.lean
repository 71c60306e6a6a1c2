import Rgnr8.Service.WipLines

/-! The entry for work in progress takes every job it covers to its target, and leaves nothing for the
next, exactly where no loss is provided for, the job is on one method and the entry is dated within
what it looks at. -/

namespace Rgnr8.Service.Wip
open Lib Lib.Js Fallible Kernel JobMath Except
variable {π : Type} [PeriodStore π]
variable (ctx : WipContext) (input : WipPostInput)

def OnTarget (journal : List PostedEntry) : Prop :=
  ∀ job ∈ covered ctx input, ∃ m, jobMath ctx journal (throughOf input) job = .ok m ∧
    ∀ a, m.view.held a =
      m.target job a - if a = .costsInExcess then provision input job m else 0

def EntryBalances (r : WipPostResult) (t : Ledger π) : Prop :=
  r.posted = true → ∃ e ∈ t.journal ctx.tenant, e.id = r.entryId ∧
    sideTotal .debit e.lines = sideTotal .credit e.lines

def PostsNothing (s : Ledger π) : Prop :=
  ∃ r, postWipAdjustment ctx input s = (.ok r, s) ∧ r.posted = false

def NothingDue (journal : List PostedEntry) : Prop :=
  ∀ job ∈ covered ctx input, ∀ m, jobMath ctx journal (throughOf input) job = .ok m →
    ∀ a, m.due job a = 0

/-- What the jobs, the journal and the request must be like. -/
structure Settles (ctx : WipContext) (input : WipPostInput) (s : Ledger π) : Prop where
  /-- No loss is to be provided for. -/
  unprovided : ∀ job ∈ covered ctx input, ∀ m,
    jobMath ctx (s.journal ctx.tenant) (throughOf input) job = .ok m → provision input job m = 0
  /-- Nothing is left on the account of the other method, nor lands there as revenue. -/
  onOneMethod : ∀ job ∈ covered ctx input, ∀ m,
    jobMath ctx (s.journal ctx.tenant) (throughOf input) job = .ok m →
      ∀ a, m.stranded job a + m.misplaced job a = 0
  /-- What is due is dated within the view, under a key of its own. -/
  lands : NothingDue ctx input (s.journal ctx.tenant) ∨
    Within (throughOf input) (dateOf input) ∧ s.store.getByIdempotencyKey ctx.tenant
      (wipKey input (s.journal ctx.tenant)) = none

section
variable {ctx : WipContext} {input : WipPostInput} {journal : List PostedEntry} {s : Ledger π}

/-- The math is known of each job, and asks for no line. -/
def Level (ctx : WipContext) (input : WipPostInput) (journal : List PostedEntry) : Prop :=
  ∀ job ∈ covered ctx input, ∃ m, jobMath ctx journal (throughOf input) job = .ok m ∧
    (∀ a, m.due job a = 0) ∧ provision input job m = 0

variable {m : JobMath} {job : JobRecord} {adjustments : List JobAdjustment}

theorem adjustmentsOf_eq_ok :
    adjustmentsOf ctx input journal = .ok adjustments ↔ isIsoDate (dateOf input) = true ∧
      List.Forall₂ (fun job a => jobAdjustment ctx input journal (throughOf input) job = .ok a)
        (covered ctx input) adjustments := by
  unfold adjustmentsOf
  rw [refuse_bind_eq_ok, not_not, mapM_eq_ok]

theorem level_iff (h : adjustmentsOf ctx input journal = .ok adjustments) :
    linesOf adjustments = [] ↔ Level ctx input journal := by
  obtain ⟨-, hall⟩ := adjustmentsOf_eq_ok.mp h
  unfold linesOf
  rw [List.flatMap_eq_nil_iff]
  constructor
  · intro hnil job hjob
    obtain ⟨a, ha, hadj⟩ := exists_of_forall₂ hall.flip hjob
    obtain ⟨m, hm, -, hemp⟩ := drawn_jobAdjustment (named_of_mem_covered hjob) hadj
    exact ⟨m, hm, hemp.mp (hnil a ha)⟩
  · intro hlvl a ha
    obtain ⟨job, hjob, hadj⟩ := exists_of_forall₂ hall ha
    obtain ⟨m, hm, -, hemp⟩ := drawn_jobAdjustment (named_of_mem_covered hjob) hadj
    obtain ⟨m', hm', hnoth⟩ := hlvl job hjob
    obtain rfl := ok.inj (hm.symm.trans hm')
    exact hemp.mpr hnoth

theorem exists_adjustments (hdate : isIsoDate (dateOf input) = true)
    (h : Level ctx input journal) : ∃ adjustments, adjustmentsOf ctx input journal = .ok adjustments := by
  simp only [adjustmentsOf_eq_ok, hdate, true_and]
  unfold Level at h
  generalize covered ctx input = jobs at h
  induction jobs with
  | nil => exact ⟨[], .nil⟩
  | cons job jobs ih =>
    rw [List.forall_mem_cons] at h
    obtain ⟨m, hm, hdue, hprov⟩ := h.1
    obtain ⟨a, ha⟩ : ∃ a, jobAdjustment ctx input journal (throughOf input) job = .ok a :=
      exists_jobAdjustment hm hdue hprov
    obtain ⟨adjustments, hrest⟩ := ih h.2
    exact ⟨a :: adjustments, .cons ha hrest⟩

/-- How a call that returns has ended. -/
inductive WipEnds (ctx : WipContext) (input : WipPostInput) (s : Ledger π)
    (adjustments : List JobAdjustment) : WipPostResult → Ledger π → Prop where
  | nothing (h : linesOf adjustments = []) : WipEnds ctx input s adjustments nothingToPost s
  | answered {r : WipPostResult} (hlines : linesOf adjustments ≠ []) (hposted : r.posted = true)
      {e : PostedEntry} (h : s.Answers (wipCommand ctx input (s.journal ctx.tenant)
        (linesOf adjustments)) e) : WipEnds ctx input s adjustments r s
  | appended {r : WipPostResult} (hlines : linesOf adjustments ≠ []) (hposted : r.posted = true)
      (h : s.Appends ctx.chart (wipCommand ctx input (s.journal ctx.tenant) (linesOf adjustments)))
      (hid : r.entryId = (s.entryOf (wipCommand ctx input (s.journal ctx.tenant)
        (linesOf adjustments)) ⟨ctx.clock.postedAt⟩).id) :
      WipEnds ctx input s adjustments r (s.posted (wipCommand ctx input (s.journal ctx.tenant)
        (linesOf adjustments)) ⟨ctx.clock.postedAt⟩)

theorem wipEnds {r : WipPostResult} (h : (postWipAdjustment ctx input s).1 = .ok r) :
    ∃ adjustments, adjustmentsOf ctx input (s.journal ctx.tenant) = .ok adjustments ∧
      WipEnds ctx input s adjustments r (postWipAdjustment ctx input s).2 := by
  unfold postWipAdjustment at h ⊢
  dsimp only at h ⊢
  cases hadjs : adjustmentsOf ctx input (s.journal ctx.tenant) with
  | error e =>
    rw [hadjs] at h
    cases h
  | ok adjustments =>
    rw [hadjs] at h
    dsimp only at h ⊢
    refine ⟨adjustments, rfl, ?_⟩
    by_cases hlines : linesOf adjustments = []
    · rw [if_pos hlines] at h ⊢
      obtain rfl := ok.inj h
      exact .nothing hlines
    · rw [if_neg hlines] at h ⊢
      unfold postCommand at h ⊢
      cases hdims : validateDimensions ctx.dimensionContext (wipCommand ctx input
        (s.journal ctx.tenant) (linesOf adjustments)) with
      | error message =>
        rw [hdims] at h
        cases h
      | ok u =>
        rw [hdims] at h
        dsimp only at h ⊢
        have hends := PostingEngine.postEnds ctx.chart (wipCommand ctx input
          (s.journal ctx.tenant) (linesOf adjustments)) ⟨ctx.clock.postedAt⟩ s
        generalize (PostingEngine.post ctx.chart _ _).run LedgerCall.exec s = end_ at h hends ⊢
        cases hends with
        | answered hanswers =>
          obtain rfl := ok.inj h
          exact .answered hlines rfl hanswers
        | refused err _ _ => cases h
        | appended happends =>
          obtain rfl := ok.inj h
          exact .appended hlines rfl happends rfl

theorem postsNothing_iff : PostsNothing ctx input s ↔
    isIsoDate (dateOf input) = true ∧ Level ctx input (s.journal ctx.tenant) := by
  constructor
  · rintro ⟨r, hrun, hposted⟩
    obtain ⟨adjustments, hadjs, hends⟩ := wipEnds (congrArg Prod.fst hrun)
    have hdate := (adjustmentsOf_eq_ok.mp hadjs).1
    generalize (postWipAdjustment ctx input s).2 = t at hends
    cases hends with
    | nothing hlines => exact ⟨hdate, (level_iff hadjs).mp hlines⟩
    | answered _ hposted' _ => exact absurd (hposted.symm.trans hposted') Bool.false_ne_true
    | appended _ hposted' _ _ => exact absurd (hposted.symm.trans hposted') Bool.false_ne_true
  · rintro ⟨hdate, hlvl⟩
    obtain ⟨adjustments, hadjs⟩ := exists_adjustments hdate hlvl
    refine ⟨nothingToPost, ?_, rfl⟩
    unfold postWipAdjustment
    dsimp only
    rw [hadjs]
    exact if_pos ((level_iff hadjs).mpr hlvl)

theorem held_add_due {through : String} (hm : jobMath ctx journal through job = .ok m)
    (a : WipAccount) : m.view.held a + m.due job a = m.target job a + m.stranded job a := by
  unfold due stranded
  cases hused : a.usedBy job.costMethod with
  | true => simp
  | false => simp [target_of_unused hm hused]

theorem carries_target_iff {through : String} (hm : jobMath ctx journal through job = .ok m)
    (provided : Int) (a : WipAccount) : m.view.held a + m.net job provided a =
        m.target job a - (if a = .costsInExcess then provided else 0) ↔
      m.stranded job a +
        (if job.revenueAccountCode = a.code then m.toRevenue job + provided else 0) = 0 := by
  have hdue := held_add_due hm a
  unfold net
  generalize (if a = .costsInExcess then provided else 0) = asset
  generalize (if job.revenueAccountCode = a.code then m.toRevenue job + provided else 0) = revenue
  omega

theorem net_of_nothing_due (hdue : ∀ a, m.due job a = 0) (a : WipAccount) : m.net job 0 a = 0 := by
  have hrev : m.toRevenue job = 0 := by
    unfold toRevenue
    cases job.costMethod
    · simp only [hdue, Int.add_zero, Int.neg_zero]
    · simp only [hdue, Int.neg_zero]
  unfold net
  simp only [hdue, hrev, Int.add_zero, ite_self, Int.sub_zero]

theorem misplaced_eq (job : JobRecord) (m : JobMath) (a : WipAccount) :
    (if job.revenueAccountCode = a.code then m.toRevenue job + 0 else 0) = m.misplaced job a := by
  unfold misplaced
  rw [Int.add_zero]

/-- Between two journals the accounts of the jobs covered have moved by the lines due, if those are
in view, and nothing else has. -/
def Moved (ctx : WipContext) (input : WipPostInput) (journal journal' : List PostedEntry)
    (seen : Prop) [Decidable seen] : Prop :=
  ∀ job ∈ covered ctx input, ∃ m m', jobMath ctx journal (throughOf input) job = .ok m ∧
    jobMath ctx journal' (throughOf input) job = .ok m' ∧
    m'.target job = m.target job ∧ provision input job m' = provision input job m ∧
    ∀ a, m'.view.held a = m.view.held a +
      if seen then m.net job (provision input job m) a else 0

theorem moved_append (hadjs : adjustmentsOf ctx input journal = .ok adjustments)
    {e : PostedEntry} (hlines : e.lines = (linesOf adjustments).map cleaned)
    (hwip : isWip e = true) :
    Moved ctx input journal (journal ++ [e]) (Within (throughOf input) e.entryDate) := by
  intro job hjob
  obtain ⟨-, hall⟩ := adjustmentsOf_eq_ok.mp hadjs
  obtain ⟨m, hm, hnet⟩ := carried_linesOf hall (fun j hj => named_of_mem_covered hj)
    (nodup_covered ctx input) hjob
  have hcon : ledgerView ctx.chart (journal ++ [e]) job.id (throughOf input) = _ :=
    ledgerView_concat journal e
  have hfacts : (ledgerView ctx.chart (journal ++ [e]) job.id (throughOf input)).facts =
      (ledgerView ctx.chart journal job.id (throughOf input)).facts := by
    rw [hcon, hwip]
    split_ifs
    · exact facts_foldl_viewLine e.lines _
    · rfl
  obtain ⟨hm', hprovis⟩ : _ ∧ provision input job _ = _ := jobMath_of_facts hm hfacts
  refine ⟨m, _, hm, hm', rfl, hprovis, fun a => ?_⟩
  rw [← hnet a, ← hlines, view_of_jobMath hm]
  dsimp only
  rw [hcon]
  split_ifs
  · exact held_foldl_viewLine e.lines a _
  · exact (Int.add_zero _).symm

theorem Level.moved (h : Level ctx input journal) : Moved ctx input journal journal True := by
  intro job hjob
  obtain ⟨m, hm, hdue, hprov⟩ := h job hjob
  refine ⟨m, m, hm, hm, rfl, rfl, fun a => ?_⟩
  rw [if_pos trivial, hprov, net_of_nothing_due hdue, Int.add_zero]

variable {journal' : List PostedEntry} {seen : Prop} [Decidable seen]

theorem Moved.level_of_unseen (h : Moved ctx input journal journal' seen) (hout : ¬ seen)
    (hlvl : Level ctx input journal') : Level ctx input journal := by
  intro job hjob
  obtain ⟨m, m', hm, hm', htgt, hprovis, hheld⟩ := h job hjob
  obtain ⟨m'', hm'', hdue, hprov⟩ := hlvl job hjob
  obtain rfl := ok.inj (hm'.symm.trans hm'')
  refine ⟨m, hm, fun a => ?_, hprovis.symm.trans hprov⟩
  have hdue := hdue a
  have hheld := hheld a
  rw [if_neg hout, Int.add_zero] at hheld
  unfold due at hdue ⊢
  rwa [htgt, hheld] at hdue

theorem Moved.settled (h : Moved ctx input journal journal' seen) (hin : seen)
    (hon : OnTarget ctx input journal') (hlvl : Level ctx input journal') :
    ∀ job ∈ covered ctx input, ∀ m, jobMath ctx journal (throughOf input) job = .ok m →
      provision input job m = 0 ∧ ∀ a, m.stranded job a + m.misplaced job a = 0 := by
  intro job hjob m hm
  obtain ⟨m₀, m', hm₀, hm', htgt, hprovis, hheld⟩ := h job hjob
  obtain rfl := ok.inj (hm.symm.trans hm₀)
  obtain ⟨m₁, hm₁, -, hprov⟩ := hlvl job hjob
  obtain rfl := ok.inj (hm'.symm.trans hm₁)
  obtain ⟨m₂, hm₂, hon⟩ := hon job hjob
  obtain rfl := ok.inj (hm'.symm.trans hm₂)
  rw [hprovis] at hprov hon
  refine ⟨hprov, fun a => ?_⟩
  have hon := hon a
  rwa [hheld a, if_pos hin, htgt, carries_target_iff hm, hprov, misplaced_eq] at hon

theorem Moved.reached (h : Moved ctx input journal journal' seen) (hin : seen)
    (hsett : ∀ job ∈ covered ctx input, ∀ m, jobMath ctx journal (throughOf input) job = .ok m →
      provision input job m = 0 ∧ ∀ a, m.stranded job a + m.misplaced job a = 0) :
    OnTarget ctx input journal' ∧ Level ctx input journal' := by
  have hrch : ∀ job ∈ covered ctx input, ∃ m, jobMath ctx journal' (throughOf input) job = .ok m ∧
      provision input job m = 0 ∧ ∀ a, m.view.held a = m.target job a := by
    intro job hjob
    obtain ⟨m, m', hm, hm', htgt, hprovis, hheld⟩ := h job hjob
    obtain ⟨hprov, hone⟩ := hsett job hjob m hm
    refine ⟨m', hm', hprovis.trans hprov, fun a => ?_⟩
    have hone := hone a
    rw [← misplaced_eq, ← carries_target_iff hm, ite_self, Int.sub_zero] at hone
    rw [hheld a, if_pos hin, htgt, hprov]
    exact hone
  constructor <;> intro job hjob <;> obtain ⟨m, hm, hprov, hheld⟩ := hrch job hjob
  · refine ⟨m, hm, fun a => ?_⟩
    rw [hheld a, hprov, ite_self, Int.sub_zero]
  · refine ⟨m, hm, fun a => ?_, hprov⟩
    unfold due
    rw [hheld a, Int.sub_self, ite_self]

omit [PeriodStore π] in
theorem Settles.level (hset : Settles ctx input s) (hknown : ∀ job ∈ covered ctx input, ∃ m,
      jobMath ctx (s.journal ctx.tenant) (throughOf input) job = .ok m)
    (hdue : NothingDue ctx input (s.journal ctx.tenant)) :
    Level ctx input (s.journal ctx.tenant) := by
  intro job hjob
  obtain ⟨m, hm⟩ := hknown job hjob
  exact ⟨m, hm, hdue job hjob m hm, hset.unprovided job hjob m hm⟩

theorem Level.nothingDue (h : Level ctx input journal) : NothingDue ctx input journal := by
  intro job hjob m hm
  obtain ⟨m', hm', hdue, -⟩ := h job hjob
  obtain rfl := ok.inj (hm.symm.trans hm')
  exact hdue

omit [PeriodStore π] in
/-- Where the jobs have moved in view, they are at their targets with nothing due just where they
settle. -/
theorem Moved.settles_iff (h : Moved ctx input (s.journal ctx.tenant) journal' seen) (hin : seen)
    (hlands : NothingDue ctx input (s.journal ctx.tenant) ∨
      Within (throughOf input) (dateOf input) ∧ s.store.getByIdempotencyKey ctx.tenant
        (wipKey input (s.journal ctx.tenant)) = none) :
    OnTarget ctx input journal' ∧ Level ctx input journal' ↔ Settles ctx input s := by
  constructor
  · rintro ⟨hon, hlvl⟩
    have hsett := h.settled hin hon hlvl
    exact ⟨fun job hjob m hm => (hsett job hjob m hm).1,
      fun job hjob m hm => (hsett job hjob m hm).2, hlands⟩
  · intro hset
    exact h.reached hin fun job hjob m hm =>
      ⟨hset.unprovided job hjob m hm, hset.onOneMethod job hjob m hm⟩

theorem journal_wipPosted (happends : s.Appends ctx.chart (wipCommand ctx input (s.journal
      ctx.tenant) (linesOf adjustments))) :
    (s.posted (wipCommand ctx input (s.journal ctx.tenant) (linesOf adjustments))
        ⟨ctx.clock.postedAt⟩).journal ctx.tenant =
      s.journal ctx.tenant ++ [s.entryOf (wipCommand ctx input (s.journal ctx.tenant)
        (linesOf adjustments)) ⟨ctx.clock.postedAt⟩] :=
  (Ledger.journal_posted ⟨ctx.clock.postedAt⟩ happends ctx.tenant).trans (if_pos rfl)

theorem entryBalances_posted {r : WipPostResult} (happends : s.Appends ctx.chart (wipCommand ctx
      input (s.journal ctx.tenant) (linesOf adjustments))) (hid : r.entryId = (s.entryOf
      (wipCommand ctx input (s.journal ctx.tenant) (linesOf adjustments)) ⟨ctx.clock.postedAt⟩).id) :
    EntryBalances ctx r (s.posted (wipCommand ctx input (s.journal ctx.tenant)
      (linesOf adjustments)) ⟨ctx.clock.postedAt⟩) := by
  intro _
  obtain ⟨-, -, hbal, -⟩ := validateAndBuildLines_eq_ok.mp happends.2.2
  refine ⟨_, ?_, hid.symm, hbal⟩
  rw [journal_wipPosted happends]
  exact List.mem_concat_self

end

/-- A call that returns has taken the jobs to their targets with an entry that balances, and called
again, whenever that is, posts nothing, if and only if no loss was to be provided for, each job was
on one method, and what was due could be dated within the view under a key of its own. -/
theorem wip_reaches_target_iff {ctx : WipContext} {input : WipPostInput} {s : Ledger π}
    {r : WipPostResult} (h : (postWipAdjustment ctx input s).1 = .ok r) :
    (OnTarget ctx input ((postWipAdjustment ctx input s).2.journal ctx.tenant) ∧
      EntryBalances ctx r (postWipAdjustment ctx input s).2 ∧
      ∀ clock, PostsNothing { ctx with clock := clock } input (postWipAdjustment ctx input s).2) ↔
    Settles ctx input s := by
  obtain ⟨adjustments, hadjs, hends⟩ := wipEnds h
  obtain ⟨hdate, hall⟩ := adjustmentsOf_eq_ok.mp hadjs
  have hknown : ∀ job ∈ covered ctx input, ∃ m,
      jobMath ctx (s.journal ctx.tenant) (throughOf input) job = .ok m := by
    intro job hjob
    obtain ⟨m, hm, -⟩ := carried_linesOf hall (fun j hj => named_of_mem_covered hj)
      (nodup_covered ctx input) hjob
    exact ⟨m, hm⟩
  have hagain : ∀ t : Ledger π, (∀ clock, PostsNothing { ctx with clock := clock } input t) ↔
      Level ctx input (t.journal ctx.tenant) := fun t =>
    ⟨fun hall => (postsNothing_iff.mp (hall ctx.clock)).2,
      fun hlvl clock => postsNothing_iff.mpr ⟨hdate, hlvl⟩⟩
  generalize (postWipAdjustment ctx input s).2 = t at hends ⊢
  rw [hagain]
  cases hends with
  | nothing hlines =>
    have hlvl := (level_iff hadjs).mp hlines
    rw [← hlvl.moved.settles_iff trivial (.inl hlvl.nothingDue)]
    exact and_congr_right fun _ =>
      and_iff_right fun hposted => absurd hposted Bool.false_ne_true
  | answered hlines hposted hanswers =>
    have hnot : ¬ Level ctx input (s.journal ctx.tenant) := fun hlvl =>
      hlines ((level_iff hadjs).mpr hlvl)
    refine iff_of_false (fun hall => hnot hall.2.2) fun hset => ?_
    rcases hset.lands with hdue | ⟨-, hfree⟩
    · exact hnot (hset.level hknown hdue)
    · exact absurd (hfree.symm.trans hanswers.1) nofun
  | appended hlines hposted happends hid =>
    have hnot : ¬ Level ctx input (s.journal ctx.tenant) := fun hlvl =>
      hlines ((level_iff hadjs).mpr hlvl)
    have hmov := moved_append hadjs (e := s.entryOf (wipCommand ctx input
      (s.journal ctx.tenant) (linesOf adjustments)) ⟨ctx.clock.postedAt⟩) rfl rfl
    change Moved ctx input _ _ (Within (throughOf input) (dateOf input)) at hmov
    rw [← journal_wipPosted happends] at hmov
    rw [and_iff_right (entryBalances_posted happends hid)]
    by_cases hin : Within (throughOf input) (dateOf input)
    · exact hmov.settles_iff hin (.inr ⟨hin, happends.free⟩)
    · -- an entry out of view leaves due what was due
      refine iff_of_false (fun hall => hnot (hmov.level_of_unseen hin hall.2)) fun hset => ?_
      rcases hset.lands with hdue | ⟨hin', -⟩
      · exact hnot (hset.level hknown hdue)
      · exact hin hin'

/-! A kitchen for 1000 that is estimated to cost 1200, of which 300 are billed ahead of the work. -/

namespace Kitchen

def jobs : JobStore :=
  (JobStore.empty.saveJob "acme"
    ⟨"kitchen", "smith", "Kitchen", .active, .asIncurred, 1000, 0, "4000"⟩).saveBudget "acme" "kitchen"
    [⟨"LAB", 1200, 1200, 0⟩]

def context : WipContext where
  tenant := "acme"
  chart := (ChartOfAccounts.ofAccounts [Sample.account "cash" "1000" .asset,
    Sample.account "excess" "1250" .asset, Sample.account "ahead" "2450" .liability,
    Sample.account "sales" "4000" .revenue]).toOption.getD .empty
  currency := usd
  clock := ⟨"2026-03-31T09:00:00Z", "2026-03-31T09:00:00Z"⟩
  dimensions := []
  jobs := jobs
  localeLe := fun a b => a ≤ b
  named := by decide +kernel

def bill : DraftEntry where
  tenantId := "acme"
  idempotencyKey := "doc:1"
  periodKey := "2026-03"
  currency := usd
  entryDate := "2026-03-05"
  status := .posted
  lines := [⟨"cash", .debit, ⟨300, usd⟩, none, none⟩,
    ⟨"sales", .credit, ⟨300, usd⟩, none, some (OrderedMap.empty.set "job" "kitchen")⟩]
  provenance := ⟨"invoice", "1", "1", "2026-03-05", "2026-03-05", "", "", ""⟩
  memo := none
  reversalOf := none
  postedAt := "2026-03-05T09:00:00Z"

def unbilled : Ledger (InMemoryPeriodStore TenantId PeriodKey) := ⟨.empty, .empty⟩

def billed : Ledger (InMemoryPeriodStore TenantId PeriodKey) := unbilled.append bill

def monthEnd (includeLossProvision : Bool) : WipPostInput :=
  ⟨some "2026-03-31", none, none, none, includeLossProvision⟩

end Kitchen

open Kitchen in
theorem kitchen_reaches_its_target : OnTarget context (monthEnd false)
        ((postWipAdjustment context (monthEnd false) billed).2.journal "acme") ∧
      EntryBalances context ⟨"acme:2", true, [⟨"kitchen", -300, 0⟩], ""⟩
        (postWipAdjustment context (monthEnd false) billed).2 ∧
      ∀ clock, PostsNothing { context with clock := clock } (monthEnd false)
        (postWipAdjustment context (monthEnd false) billed).2 := by
  refine (wip_reaches_target_iff (by decide +kernel)).mpr ⟨?_, ?_, .inr (by decide +kernel)⟩
  · intro job hjob
    refine onOk_iff.mp ?_
    revert job
    decide +kernel
  · intro job hjob
    refine onOk_iff.mp ?_
    revert job
    decide +kernel

open Kitchen in
theorem loss_is_provided_again : (postWipAdjustment context (monthEnd true) unbilled).1 =
        .ok ⟨"acme:1", true, [⟨"kitchen", 0, 200⟩], ""⟩ ∧
      ¬ PostsNothing context (monthEnd true)
        (postWipAdjustment context (monthEnd true) unbilled).2 := by
  refine ⟨by decide +kernel, ?_⟩
  rintro ⟨r, hrun, hposted⟩
  have hsec : (postWipAdjustment context (monthEnd true)
      (postWipAdjustment context (monthEnd true) unbilled).2).1 =
      .ok ⟨"acme:2", true, [⟨"kitchen", 200, 200⟩], ""⟩ := by decide +kernel
  rw [hrun] at hsec
  rw [ok.inj hsec] at hposted
  exact absurd hposted (by decide)

end Rgnr8.Service.Wip
