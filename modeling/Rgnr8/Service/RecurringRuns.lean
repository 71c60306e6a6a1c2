import Rgnr8.Service.RecurringSpec

/-! Runs of what is due, with templates saved and removed, periods closed and reopened and other
entries posted in between. No occurrence is ever posted twice. A run handles each of its occurrences
on its own exactly when the chart still has all their accounts. -/

namespace Rgnr8.Service.Recurring
open Lib Lib.Js Fallible Kernel Subledger.Recurring

section
variable {π : Type} [PeriodStore π] {ctx : RecurringContext} {s : Stores π RecurringStore}

/-- An occurrence that a run is asked for. -/
def Chosen (onlyId : Option String) (id : String) : Prop := ∀ only ∈ onlyId, only = "" ∨ id = only

def InChart (ctx : RecurringContext) (t : RecurringRecord) : Prop :=
  ∀ l ∈ t.lines, ∃ account, ctx.chart.getByCode l.accountCode = some account

theorem exists_journalLines_iff {t : RecurringRecord} :
    (∃ lines, journalLines ctx t = .ok lines) ↔ InChart ctx t := by
  unfold journalLines InChart
  induction t.lines with
  | nil => exact iff_of_true ⟨[], rfl⟩ fun l hl => absurd hl List.not_mem_nil
  | cons l ls ih =>
    have hline : (∃ line, journalLine ctx l = .ok line) ↔
        ∃ account, ctx.chart.getByCode l.accountCode = some account := by
      unfold journalLine
      simp only [bind_eq_ok]
      constructor
      · rintro ⟨line, account, hacc, -⟩
        exact ⟨account, accountOf_eq_ok hacc⟩
      · rintro ⟨account, hacc⟩
        have hok : accountOf ctx.chart l.accountCode = .ok account := by
          unfold accountOf
          rw [hacc]
        exact ⟨_, account, hok, rfl⟩
    rw [List.forall_mem_cons, ← hline, ← ih]
    simp only [List.mapM_cons, bind_eq_ok]
    constructor
    · rintro ⟨lines, line, hl, rest, hrest, -⟩
      exact ⟨⟨line, hl⟩, rest, hrest⟩
    · rintro ⟨⟨line, hl⟩, rest, hrest⟩
      exact ⟨_, line, hl, rest, hrest, rfl⟩

def Isolated (ctx : RecurringContext) (asOfRaw onlyId : Option String) (clocks : List Clock)
    (s : Stores π RecurringStore) : Prop :=
  ∀ asOf, requireDate asOfRaw "as-of date" = .ok asOf →
    let r := (runDue ctx asOfRaw onlyId clocks).run exec s
    ∃ result, r.1 = .ok result ∧ ∀ t date, Due ctx s asOf t date → Chosen onlyId t.id →
      Handled ctx s r.2 result t date

/-- The accounts of every template with something due are in the chart. -/
def Stocked (ctx : RecurringContext) (asOfRaw onlyId : Option String)
    (s : Stores π RecurringStore) : Prop :=
  ∀ asOf, requireDate asOfRaw "as-of date" = .ok asOf →
    ∀ t date, Due ctx s asOf t date → Chosen onlyId t.id → InChart ctx t

omit [PeriodStore π] in
theorem Due.ahead {asOf date : String} {t : RecurringRecord} (h : Due ctx s asOf t date) :
    Ahead ctx s (dueOccurrence t date) t := by
  obtain ⟨dates, hdates, hdate⟩ := h.dated
  exact ⟨h.kept, free_of_mem_occurrencesBetween hdates hdate, h.unposted⟩

variable (ctx s) in
theorem run_runDue {asOfRaw : Option String} {asOf : String}
    (hasOf : requireDate asOfRaw "as-of date" = .ok asOf) (onlyId : Option String)
    (clocks : List Clock) : ∃ due : List DueOccurrence,
      (runDue ctx asOfRaw onlyId clocks).run exec s =
        (postDue ctx due clocks ⟨[], []⟩).run exec s ∧
      ∀ d, d ∈ due ↔ ∃ t date, Due ctx s asOf t date ∧ Chosen onlyId t.id ∧
        dueOccurrence t date = d := by
  have hagain : requireDate (some asOf) "as-of date" = .ok asOf := by
    have hiso := (requireDate_eq_ok hasOf).2
    have htrim : trim asOf = asOf := trim_of_isIsoDate hiso
    unfold requireDate
    rw [Option.getD_some, htrim, if_neg (not_not.mpr hiso)]
  obtain ⟨due, hrun, hmem⟩ := run_dueOccurrences ctx s hagain
  refine ⟨due.filter fun d => onlyId.all fun id => id = "" ∨ d.id = id, ?_, fun d => ?_⟩
  · have hread : (Prog.ofExcept (.ok asOf) : RecurringProg String).run exec s = (.ok asOf, s) := rfl
    unfold runDue
    rw [hasOf, Prog.run_bind_ok hread, Prog.run_bind_ok hrun]
  · have hchos : (onlyId.all fun id => decide (id = "" ∨ d.id = id)) = true ↔
        Chosen onlyId d.id := by
      unfold Chosen
      simp only [Option.all_eq_true, decide_eq_true_eq, Option.mem_def]
    rw [List.mem_filter, hmem, hchos]
    constructor
    · rintro ⟨⟨t, date, hdue, rfl⟩, hc⟩
      exact ⟨t, date, hdue, hc, rfl⟩
    · rintro ⟨t, date, hdue, hc, rfl⟩
      exact ⟨⟨t, date, hdue, rfl⟩, hc⟩

theorem isolated_iff_stocked (asOfRaw onlyId : Option String) (clocks : List Clock) :
    Isolated ctx asOfRaw onlyId clocks s ↔ Stocked ctx asOfRaw onlyId s := by
  refine forall₂_congr fun asOf hasOf => ?_
  obtain ⟨due, hrun, hmem⟩ := run_runDue ctx s hasOf onlyId clocks
  have hahead : ∀ d ∈ due, ∃ t, Ahead ctx s d t := by
    intro d hd
    obtain ⟨t, date, hdue, -, rfl⟩ := (hmem d).mp hd
    exact ⟨t, hdue.ahead⟩
  dsimp only
  rw [hrun]
  constructor
  · rintro ⟨result, hok, -⟩ t date hdue hchos
    have hd : dueOccurrence t date ∈ due := (hmem _).mpr ⟨t, date, hdue, hchos, rfl⟩
    exact exists_journalLines_iff.mp
      (built_of_run_postDue hahead (.refl s) hok _ hd t hdue.ahead)
  · intro hstock
    have hlines : ∀ d ∈ due, ∃ t, Ahead ctx s d t ∧ ∃ lines, journalLines ctx t = .ok lines := by
      intro d hd
      obtain ⟨t, date, hdue, hchos, rfl⟩ := (hmem d).mp hd
      exact ⟨t, hdue.ahead, exists_journalLines_iff.mpr (hstock t date hdue hchos)⟩
    obtain ⟨result, s', hend, -, -, -, hhan⟩ :=
      run_postDue hlines (.refl s) clocks ⟨[], []⟩
    rw [hend]
    refine ⟨result, rfl, fun t date hdue hchos => ?_⟩
    exact hhan _ ((hmem _).mpr ⟨t, date, hdue, hchos, rfl⟩) t hdue.ahead

/-! Runs. -/

/-- What happens to the templates and the books. Every request comes with the chart it has read. -/
inductive RecurringOp where
  | runDue (ctx : RecurringContext) (asOf onlyId : Option String) (clocks : List Clock)
  | saveRecurring (ctx : RecurringContext) (input : RecurringInput)
  | remove (tenant : TenantId) (id : String)
  | books (op : EngineOp)

def step (s : Stores π RecurringStore) : RecurringOp → Stores π RecurringStore
  | .runDue ctx asOf onlyId clocks => ((Recurring.runDue ctx asOf onlyId clocks).run exec s).2
  | .saveRecurring ctx input => ((Recurring.saveRecurring ctx input).run exec s).2
  | .remove tenant id => { s with own := s.own.remove tenant id }
  | .books op => { s with ledger := s.ledger.step op }

variable (s : Stores π RecurringStore)

/-- No occurrence has two entries. -/
def AtMostOnce : Prop :=
  ∀ tenant id date, (s.ledger.journal tenant).countP
    (fun e => e.idempotencyKey = idempotencyKeyFor id date) ≤ 1

def RecurringOp.Isolated : RecurringOp → Prop
  | .runDue ctx asOf onlyId clocks => Recurring.Isolated ctx asOf onlyId clocks s
  | _ => True

def RecurringOp.Stocked : RecurringOp → Prop
  | .runDue ctx asOf onlyId _ => Recurring.Stocked ctx asOf onlyId s
  | _ => True

omit [PeriodStore π] in
theorem atMostOnce : AtMostOnce s := by
  intro tenant id date
  have hnd : ((s.ledger.journal tenant).map fun e => e.idempotencyKey).Nodup :=
    s.ledger.store.nodup_keys tenant
  have hcount := List.nodup_iff_count_le_one.mp hnd (idempotencyKeyFor id date)
  rw [List.count_eq_countP, List.countP_map] at hcount
  refine le_trans (le_of_eq (List.countP_congr fun e _ => ?_)) hcount
  simp only [Function.comp_apply, beq_iff_eq, decide_eq_true_eq]

/-- In every run no occurrence is posted twice, and its runs of what is due handle their occurrences
one by one exactly when each of them finds the accounts of its templates in the chart. -/
theorem runs_isolated_iff (s : Stores π RecurringStore) (ops : List RecurringOp) :
    Along step AtMostOnce s ops ∧
      (EachStep step RecurringOp.Isolated s ops ↔ EachStep step RecurringOp.Stocked s ops) := by
  have hop : ∀ (s' : Stores π RecurringStore) (op : RecurringOp), op.Isolated s' ↔ op.Stocked s' := by
    intro s' op
    cases op with
    | runDue ctx asOf onlyId clocks => exact isolated_iff_stocked asOf onlyId clocks
    | _ => exact Iff.rfl
  refine ⟨fun pre _ => atMostOnce _, ?_⟩
  unfold EachStep
  simp only [hop]

end

/-! Two templates of the same day, one of them on an account whose code is changed before the run. -/

namespace Sample

def account (id code : String) (type : AccountType) : Account :=
  ⟨id, code, code, type, usd, none, none, none, none⟩

def chartWith (leaseCode : String) : ChartOfAccounts :=
  (ChartOfAccounts.ofAccounts [account "cash" "1000" .asset, account "lease" leaseCode .expense,
    account "power" "6100" .expense]).toOption.getD .empty

def context (leaseCode : String) : RecurringContext where
  tenant := "acme"
  currency := usd
  dimensions := ⟨chartWith leaseCode, [], [], []⟩
  letters := asciiLetters
  localeLe a b := a ≤ b

def monthly (name code : String) : RecurringInput where
  id := none
  name := some name
  frequency := some "monthly"
  interval := none
  startDate := some "2026-03-01"
  endDate := none
  memo := none
  active := none
  lines := [⟨some code, some "debit", some (.text "100"), none, none⟩,
    ⟨some "1000", some "credit", some (.text "100"), none, none⟩]

def saved : Stores (InMemoryPeriodStore TenantId PeriodKey) RecurringStore :=
  [RecurringOp.saveRecurring (context "6000") (monthly "Lease" "6000"),
    .saveRecurring (context "6000") (monthly "Power" "6100")].foldl step ⟨⟨.empty, .empty⟩, .empty⟩

def power : RecurringRecord where
  id := "power"
  name := "Power"
  frequency := .monthly
  interval := 1
  startDate := "2026-03-01"
  endDate := ""
  memo := ""
  active := true
  lastPosted := ""
  lines := [⟨"6100", .debit, 100, "", .empty⟩, ⟨"1000", .credit, 100, "", .empty⟩]

end Sample

theorem renumbered_account_stops_the_rest :
    let ctx := Sample.context "6005"
    let r := (runDue ctx (some "2026-03-31") none []).run exec Sample.saved
    Due ctx Sample.saved "2026-03-31" Sample.power "2026-03-01" ∧
      Postable ctx Sample.saved Sample.power "2026-03-01" ∧
      r.1 = .error (.own "unknown account code 6000") ∧ ¬ Posted ctx r.2 "power" "2026-03-01" ∧
      ¬ Isolated ctx (some "2026-03-31") none [] Sample.saved := by
  have hrun : ((runDue (Sample.context "6005") (some "2026-03-31") none []).run exec
      Sample.saved).1 = .error (.own "unknown account code 6000") := by decide +kernel
  refine ⟨?_, ?_, hrun, ?_, ?_⟩
  · refine ⟨by decide +kernel, rfl, ⟨["2026-03-01"], by decide +kernel, by decide⟩, ?_⟩
    refine not_not.mpr (Option.isNone_iff_eq_none.mp ?_)
    decide +kernel
  · refine ⟨(journalLines (Sample.context "6005") Sample.power).toOption.getD [], ?_, ?_, ?_, ?_⟩
    · decide +kernel
    · decide +kernel
    · decide +kernel
    · decide +kernel
  · refine not_not.mpr (Option.isNone_iff_eq_none.mp ?_)
    decide +kernel
  · intro h
    obtain ⟨result, hok, -⟩ := h "2026-03-31" (by decide +kernel)
    rw [hrun] at hok
    cases hok

end Rgnr8.Service.Recurring
