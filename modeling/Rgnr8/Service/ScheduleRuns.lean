import Rgnr8.Service.Billing

/-! A job billed by its schedule of values: cut, drawn on and recorded in any order. What has been
billed is carried from one cut to the next by line number alone, and a draft brings its own copy of
the schedule. -/

namespace Rgnr8.Service.Billing
open Lib Lib.Js Kernel ArAp Fallible BillingCall Prog List Except

def billedTotal (lines : List ScheduleLineRecord) : Int :=
  (lines.map ScheduleLineRecord.billedMinor).sum

def LinesWithin (lines : List ScheduleLineRecord) : Prop :=
  ∀ l ∈ lines, 0 ≤ l.billedMinor ∧ l.billedMinor ≤ l.scheduledValueMinor

/-- The lines carry the numbers from `k` on. -/
def Numbered : Nat → List ScheduleLineRecord → Prop
  | _, [] => True
  | k, l :: ls => l.lineNo = k ∧ Numbered (k + 1) ls

variable {lines ls : List ScheduleLineRecord} {k : Nat} {l : ScheduleLineRecord}

theorem Numbered.le (h : Numbered k ls) (hl : l ∈ ls) : k ≤ l.lineNo := by
  induction ls generalizing k with
  | nil => exact absurd hl not_mem_nil
  | cons x xs ih =>
    rcases mem_cons.mp hl with rfl | hl
    · exact le_of_eq h.1.symm
    · exact (Nat.le_succ k).trans (ih h.2 hl)

theorem Numbered.map {f : ScheduleLineRecord → ScheduleLineRecord}
    (hf : ∀ l, (f l).lineNo = l.lineNo) (h : Numbered k ls) : Numbered k (ls.map f) := by
  induction ls generalizing k with
  | nil => trivial
  | cons l ls ih => exact ⟨(hf l).trans h.1, ih h.2⟩

def WantedWithin (schedule : List ScheduleLineRecord) (wanted : OrderedMap Nat Int) : Prop :=
  ∀ n a, wanted.get? n = some a → 0 < a ∧ ∃ line ∈ schedule, line.lineNo = n ∧
    line.billedMinor + a ≤ line.scheduledValueMinor

theorem wantedAmount_eq_ok {schedule : List ScheduleLineRecord} {l : ProgressLineInput}
    {w : Nat × Int} (h : wantedAmount schedule l = .ok w) : 0 ≤ w.2 ∧ (w.2 ≠ 0 →
      ∃ line ∈ schedule, line.lineNo = w.1 ∧ line.billedMinor + w.2 ≤ line.scheduledValueMinor) := by
  unfold wantedAmount at h
  obtain ⟨line, hline, h⟩ := bind_eq_ok.mp h
  obtain ⟨amount, -, h⟩ := bind_eq_ok.mp h
  obtain ⟨hneg, h⟩ := refuse_bind_eq_ok.mp h
  obtain ⟨hover, h⟩ := refuse_bind_eq_ok.mp h
  rw [← ok.inj h]
  refine ⟨not_lt.mp hneg, fun hamt => ⟨line, ?_, rfl, ?_⟩⟩
  · unfold scheduleLine at hline
    dsimp only at hline
    split at hline
    · cases hline
    · next found hfound =>
      rw [← ok.inj hline]
      exact mem_of_find?_eq_some hfound
  · exact not_lt.mp fun hlt => hover ⟨hamt, hlt⟩

theorem wantedAmounts_eq_ok {schedule : List ScheduleLineRecord} {input : List ProgressLineInput}
    {wanted wanted' : OrderedMap Nat Int} (hwant : WantedWithin schedule wanted)
    (h : wantedAmounts schedule input wanted = .ok wanted') : WantedWithin schedule wanted' := by
  induction input generalizing wanted with
  | nil => exact ok.inj h ▸ hwant
  | cons l ls ih =>
    unfold wantedAmounts at h
    obtain ⟨⟨n, amount⟩, hline, h⟩ := bind_eq_ok.mp h
    obtain ⟨hnn, hfits⟩ := wantedAmount_eq_ok hline
    refine ih ?_ h
    split_ifs with hzero
    · exact hwant
    · intro m a hm
      rw [OrderedMap.get?_set] at hm
      split_ifs at hm with hsame
      · obtain rfl := Option.some.inj hm
        obtain rfl := hsame
        exact ⟨lt_of_le_of_ne hnn (Ne.symm hzero), hfits hzero⟩
      · exact hwant m a hm

/-- What a progress draft holds, of the schedule it was drawn from. -/
structure Drawn (job : JobRecord) (schedule : List ScheduleLineRecord) (d : BillingDraft)
    (lines : List ScheduleLineRecord) : Prop where
  job : d.job = job
  taken : d.scheduleLines = some lines
  numbered : Numbered 1 lines
  within : LinesWithin lines
  scheduled : scheduledTotal lines = scheduledTotal schedule
  gross : 0 < d.grossMinor
  nonempty : schedule ≠ []

section
variable {π : Type} [PeriodStore π]
variable (ctx : BillingContext) (jobId : String)

theorem run_requireJob (s : BillingStores π) : (requireJob ctx jobId).run BillingCall.exec s =
      (foundJob jobId (s.jobs.getJob ctx.tenant jobId), s) := by
  have hread : (perform (getJob ctx.tenant jobId) : BillingProg _).run
      exec s = (.ok (s.jobs.getJob ctx.tenant jobId), s) := rfl
  unfold requireJob
  rw [run_bind_ok hread]
  rcases s.jobs.getJob ctx.tenant jobId with - | job <;> rfl

variable (input : List ScheduleLineInput) (s : BillingStores π)

/-- The cut that a call of `saveSchedule` would make. -/
def plannedCut : Except BillingFailure (List ScheduleLineRecord) := do
  let job ← foundJob jobId (s.jobs.getJob ctx.tenant jobId)
  planSchedule ctx.letters ((s.jobs.listCostCodes ctx.tenant).map CostCodeRecord.code)
    (s.own.listSchedule ctx.tenant jobId) job input

theorem run_billProgress (input : ProgressBillInput) (s : BillingStores π) :
    (billProgress ctx jobId input).run BillingCall.exec s =
      (do
        let job ← foundJob jobId (s.jobs.getJob ctx.tenant jobId)
        draftProgress job jobId (s.own.listSchedule ctx.tenant jobId) input, s) := by
  have hjob := run_requireJob ctx jobId s
  unfold billProgress
  rcases hget : s.jobs.getJob ctx.tenant jobId with - | job <;> rw [hget] at hjob
  · rw [run_bind_error hjob]
    rfl
  · have hsched : (perform (listSchedule ctx.tenant jobId) : BillingProg
        _).run exec s = (.ok (s.own.listSchedule ctx.tenant jobId), s) := rfl
    rw [run_bind_ok hjob, run_bind_ok hsched]
    show _ = (draftProgress job jobId _ input, s)
    rcases draftProgress job jobId (s.own.listSchedule ctx.tenant jobId) input with e | d <;> rfl

structure JobBilling (π : Type) where
  stores : BillingStores π
  drafts : List BillingDraft
  applied : List BillingDraft

/-- `apply` records one of the drafts drawn so far, as often as it is called. -/
inductive ScheduleOp where
  | save (input : List ScheduleLineInput)
  | bill (input : ProgressBillInput)
  | apply (n : Nat) (invoiceId : String)

namespace JobBilling

def opening (books : ArApStores π) (jobs : JobStore) : JobBilling π := ⟨⟨books, jobs, .empty⟩, [], []⟩

variable (ctx : BillingContext) (jobId : String)

def step (s : JobBilling π) : ScheduleOp → JobBilling π
  | .save input =>
    { s with stores := ((saveSchedule ctx jobId input).run BillingCall.exec s.stores).2 }
  | .bill input => match (billProgress ctx jobId input).run BillingCall.exec s.stores with
    | (.ok d, stores) => { s with stores := stores, drafts := s.drafts ++ [d] }
    | (.error _, stores) => { s with stores := stores }
  | .apply n invoiceId => match s.drafts[n]? with
    | none => s
    | some d => { s with
        stores := ((applyDraft ctx d invoiceId).run BillingCall.exec s.stores).2
        applied := s.applied ++ [d] }

omit [PeriodStore π] in
def schedule (s : JobBilling π) : List ScheduleLineRecord :=
  s.stores.own.listSchedule ctx.tenant jobId

omit [PeriodStore π] in
def job (s : JobBilling π) : Option JobRecord := s.stores.jobs.getJob ctx.tenant jobId

def Steady (s : JobBilling π) : ScheduleOp → Prop
  | .save input => ∀ lines, plannedCut ctx jobId input s.stores = .ok lines →
      ∀ l ∈ s.schedule ctx jobId, l.billedMinor ≠ 0 → l.lineNo ≤ input.length
  | .bill _ => True
  | .apply n _ => ∀ d ∈ s.drafts[n]?, 0 < d.job.contractMinor ∧
      ∀ lines ∈ d.scheduleLines, billedTotal lines - d.grossMinor =
        billedTotal (s.schedule ctx jobId)

structure Kept (s : JobBilling π) : Prop where
  numbered : Numbered 1 (s.schedule ctx jobId)
  scheduled : ∀ job ∈ s.job ctx jobId, 0 < job.contractMinor →
    s.schedule ctx jobId = [] ∨ scheduledTotal (s.schedule ctx jobId) = job.contractMinor
  drafts : ∀ d ∈ s.drafts, s.job ctx jobId = some d.job ∧ d.job.id = jobId ∧ 0 < d.grossMinor ∧
    ∃ lines, d.scheduleLines = some lines ∧ Numbered 1 lines ∧ LinesWithin lines ∧
      (0 < d.job.contractMinor → scheduledTotal lines = d.job.contractMinor)

variable {ctx jobId}

variable {s : JobBilling π}

end JobBilling

end

/-! A job of 100 in two halves. The second half is billed, and then the schedule is cut to one line. -/

namespace Sample

def account (id code : String) (type : AccountType) : Account :=
  ⟨id, code, code, type, usd, none, none, none, none⟩

def chart : ChartOfAccounts :=
  (ChartOfAccounts.ofAccounts [account "ar" "1200" .asset, account "held" "1260" .asset,
    account "sales" "4000" .revenue]).toOption.getD .empty

def context : BillingContext where
  tenant := "acme"
  currency := usd
  dimensions := ⟨chart, [], ["kitchen"], []⟩
  clock := ⟨"2026-03-09T10:00:00.000Z", "2026-03-09T10:00:00.001Z"⟩
  invoicedAt := "2026-03-09T10:00:00.002Z"
  localeLe a b := a ≤ b
  letters := asciiLetters

def kitchen : JobRecord := ⟨"kitchen", "smith", "Kitchen", .active, .asIncurred, 100, 50000, "4000"⟩

def start : JobBilling (InMemoryPeriodStore TenantId PeriodKey) :=
  .opening ⟨⟨.empty, .empty⟩, .empty⟩ (JobStore.empty.saveJob "acme" kitchen)

def part (amount : String) : ScheduleLineInput := ⟨none, none, some (.text amount)⟩

def billOf (id : String) (lineNo : Rat) (amount : String) : ProgressBillInput :=
  ⟨some id, some "2026-03-09", none, none, none, [⟨some (some lineNo), none, some (.text amount)⟩]⟩

def ops : List ScheduleOp := [.save [part "50", part "50"], .bill (billOf "inv-1" 2 "50"),
  .apply 0 "inv-1", .save [part "100"], .bill (billOf "inv-2" 1 "100"), .apply 1 "inv-2"]

end Sample

end Rgnr8.Service.Billing
