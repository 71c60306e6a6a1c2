import Rgnr8.Kernel.AppendCalls
import Rgnr8.Service.EntryRetry
import Rgnr8.Statements.CashFlowSpec

/-! The statements of a period, drawn from the tenant's own journal. -/

namespace Rgnr8.Service.Statements
open Lib Lib.Js Kernel Rgnr8.Statements

def datePart (iso : String) (start finish : Nat) : Nat :=
  (naturalIn 10 ((iso.toList.take finish).drop start)).getD 0

def pad2 (n : Nat) : String := if n < 10 then s!"0{n}" else toString n

def monthLengths (leap : Bool) : List Nat :=
  [31, if leap then 29 else 28, 31, 30, 31, 30, 31, 31, 30, 31, 30, 31]

/-- The day before a date, on its digits: the year is not padded, and past the last month of a
year there are no days. -/
def previousDay (iso : String) : String :=
  let y := datePart iso 0 4
  let m := datePart iso 5 7
  let d := datePart iso 8 10
  let leap : Bool := (y % 4 = 0 ∧ y % 100 ≠ 0) ∨ y % 400 = 0
  if 1 < d then s!"{y}-{pad2 m}-{pad2 (d - 1)}"
  else
    let (yy, mm) : Int × Nat := if 1 < m then (y, m - 1) else (y - 1, 12)
    let dd := match (monthLengths leap)[mm - 1]? with
      | some length => pad2 length
      | none => "undefined"
    s!"{yy}-{pad2 mm}-{dd}"

structure StatementsContext where
  localeLe : String → String → Bool
  chart : ChartOfAccounts
  currency : Currency

structure FinancialStatements where
  period : String
  currency : String
  income : IncomeStatement
  balanceSheet : BalanceSheet
  cashFlow : CashFlowStatement

namespace StatementsContext

def signedBalance (ctx : StatementsContext) (window : DateWindow) (journal : List PostedEntry) :
    Rgnr8.Statements.TrialBalance :=
  fromKernelTrialBalance ctx.localeLe
    (computeTrialBalance ctx.localeLe ctx.chart ctx.currency (some window) journal)

end StatementsContext

def draw (ctx : StatementsContext) (fromDate toDate : String) (journal : List PostedEntry) :
    FinancialStatements :=
  let periodTb := ctx.signedBalance ⟨some fromDate, some toDate⟩ journal
  let endTb := ctx.signedBalance ⟨none, some toDate⟩ journal
  let startTb := ctx.signedBalance ⟨none, some (previousDay fromDate)⟩ journal
  let income := incomeStatement ctx.localeLe periodTb
  let beginningRetained := (incomeStatement ctx.localeLe startTb).netIncome
  { period := s!"{fromDate}..{toDate}"
    currency := ctx.currency.code
    income := income
    balanceSheet := balanceSheet ctx.localeLe endTb income.netIncome (some beginningRetained)
    cashFlow := cashFlow startTb endTb income.netIncome (subtypeCashFlowClassifier ctx.chart) }

def statements (ctx : StatementsContext) (fromDate toDate : Option String)
    (journal : List PostedEntry) : Except ServiceError FinancialStatements :=
  match fromDate.filter (· ≠ ""), toDate.filter (· ≠ "") with
  | some fromDate, some toDate => .ok (draw ctx fromDate toDate journal)
  | _, _ => .error (.bad "statements need ?from=YYYY-MM-DD&to=YYYY-MM-DD")

end Rgnr8.Service.Statements

/-! Three trial balances, glued by the day before the period: the statements tie as long as the
windows of the two incomes part the entries up to the end of the period. -/

namespace Rgnr8.Service
open Lib Lib.Js Kernel
variable {π : Type} [PeriodStore π]

theorem guarded_makes {α : Type} {Q : DraftEntry → Prop} {p : LedgerProg α}
    (h : p.Makes fun c => c.AppendsOnly Q) (book : BookOfRecord) :
    (p.interpret (guardStore book) .ledger).Makes fun c => c.AppendsOnly Q := by
  refine Prog.makes_interpret (fun c hc => ?_) h
  cases c with
  | append draft =>
    simp only [guardStore]
    split_ifs
    · trivial
    · exact Prog.makes_perform hc
    · trivial
    · exact Prog.makes_perform hc
  | _ => exact Prog.makes_perform trivial

theorem postEntry_makes (ctx : EntryContext) (body : String) (clock : Clock) :
    (postEntry ctx body clock).Makes fun c => c.AppendsOnly fun d => EntryOk d := by
  unfold postEntry
  exact Prog.makes_bind (Prog.makes_ofExcept _) fun command => Prog.makes_bind
    (Prog.makes_ofExcept _) fun _ => guarded_makes (post_makes ..) ctx.book

/-- A body sent to `POST /entries`, what the request found of the tenant, and when. -/
structure EntryRequest where
  ctx : EntryContext
  body : String
  clock : Clock

def Ledger.answered (s : Ledger π) (request : EntryRequest) : Ledger π :=
  ((postEntry request.ctx request.body request.clock).run LedgerCall.exec s).2

theorem entriesOk_answered (s : Ledger π) (request : EntryRequest) (h : EntriesOk s.store) :
    EntriesOk (Ledger.answered s request).store := by
  have hkeep : ∀ (c : LedgerCall) (t : Ledger π), c.AppendsOnly (fun d => EntryOk d) →
      EntriesOk t.store → EntriesOk (c.exec t).2.store := fun _ _ => entriesOk_exec
  have hmakes := postEntry_makes request.ctx request.body request.clock
  generalize hprog : postEntry request.ctx request.body request.clock = program at hmakes
  have hansd : Ledger.answered s request = (program.run LedgerCall.exec s).2 := by
    rw [← hprog]
    rfl
  rw [hansd]
  exact (hmakes.keeps hkeep h).2

theorem entriesOk_requests (periods : π) (requests : List EntryRequest) :
    EntriesOk (requests.foldl Ledger.answered ⟨.empty, periods⟩).store := by
  have hemp : EntriesOk InMemoryLedgerStore.empty := by
    intro t e he
    rw [InMemoryLedgerStore.list_empty] at he
    exact absurd he List.not_mem_nil
  exact foldl_invariant (I := fun s : Ledger π => EntriesOk s.store) entriesOk_answered hemp
    requests

namespace Statements
open Rgnr8.Statements
variable {ctx : StatementsContext} {journal : List PostedEntry}

def missed (fromDate toDate : String) (journal : List PostedEntry) : List PostedEntry :=
  journal.filter fun e => Before (previousDay fromDate) e.entryDate ∧ Before e.entryDate fromDate ∧
    ¬ Before toDate e.entryDate

def doubled (fromDate toDate : String) (journal : List PostedEntry) : List PostedEntry :=
  journal.filter fun e => ¬ Before (previousDay fromDate) e.entryDate ∧
    (¬ Before e.entryDate fromDate ∨ Before toDate e.entryDate)

theorem weighed_filter (w : AccountId → Int) (p : PostedEntry → Bool) (journal : List PostedEntry) :
    weighed w (journal.filter p) =
      (journal.map fun e => if p e then weightedSum w e.lines else 0).sum := sum_filter ..

theorem earned_windows (coa : ChartOfAccounts) (fromDate toDate : String)
    (journal : List PostedEntry) :
    earned coa (entriesIn (some ⟨none, some toDate⟩) journal) =
      earned coa (entriesIn (some ⟨some fromDate, some toDate⟩) journal) +
      earned coa (entriesIn (some ⟨none, some (previousDay fromDate)⟩) journal) +
      earned coa (missed fromDate toDate journal) -
      earned coa (doubled fromDate toDate journal) := by
  unfold earned entriesIn missed doubled
  simp only [weighed_filter]
  have hsplit : ∀ w : AccountId → Int,
      (journal.map fun e => if inWindow e.entryDate (some ⟨none, some toDate⟩) then
        weightedSum w e.lines else 0).sum +
      (journal.map fun e => if decide (¬ Before (previousDay fromDate) e.entryDate ∧
        (¬ Before e.entryDate fromDate ∨ Before toDate e.entryDate)) then
        weightedSum w e.lines else 0).sum =
      (journal.map fun e => if inWindow e.entryDate (some ⟨some fromDate, some toDate⟩) then
        weightedSum w e.lines else 0).sum +
      (journal.map fun e => if inWindow e.entryDate (some ⟨none, some (previousDay fromDate)⟩) then
        weightedSum w e.lines else 0).sum +
      (journal.map fun e => if decide (Before (previousDay fromDate) e.entryDate ∧
        Before e.entryDate fromDate ∧ ¬ Before toDate e.entryDate) then
        weightedSum w e.lines else 0).sum := by
    intro w
    rw [← List.sum_map_add, ← List.sum_map_add, ← List.sum_map_add]
    refine congrArg List.sum (List.map_congr_left fun e _ => ?_)
    by_cases hprev : Before (previousDay fromDate) e.entryDate <;>
      by_cases hfrom : Before e.entryDate fromDate <;>
      by_cases hto : Before toDate e.entryDate <;>
      simp [inWindow, hprev, hfrom, hto]
  have h := hsplit (classWeight coa isEarnings)
  omega

structure FinancialStatements.Tie (statements : FinancialStatements) : Prop where
  residual : statements.balanceSheet.residual = 0
  cash : statements.cashFlow.operating + statements.cashFlow.investing +
    statements.cashFlow.financing =
      statements.cashFlow.endingCash - statements.cashFlow.beginningCash

theorem cashFlow_draw (ctx : StatementsContext) (fromDate toDate : String)
    (journal : List PostedEntry) : (draw ctx fromDate toDate journal).cashFlow =
      cashFlow (signedBalance ctx.localeLe ctx.chart ctx.currency
          (some ⟨none, some (previousDay fromDate)⟩) journal)
        (signedBalance ctx.localeLe ctx.chart ctx.currency (some ⟨none, some toDate⟩) journal)
        (incomeStatement ctx.localeLe
          (ctx.signedBalance ⟨some fromDate, some toDate⟩ journal)).netIncome
        (subtypeCashFlowClassifier ctx.chart) := rfl

theorem draw_tie_iff (hcov : Covers ctx.chart journal) (hbanks : BanksAreAssets ctx.chart)
    (hbal : ∀ e ∈ journal, sideTotal .debit e.lines = sideTotal .credit e.lines)
    (fromDate toDate : String) :
    ((draw ctx fromDate toDate journal).Tie ↔ earned ctx.chart (missed fromDate toDate journal) =
      earned ctx.chart (doubled fromDate toDate journal)) ∧
    ((draw ctx fromDate toDate journal).cashFlow.reconciled = true ↔
      (draw ctx fromDate toDate journal).balanceSheet.residual = 0) := by
  have hwin := earned_windows ctx.chart fromDate toDate journal
  have hper : (incomeStatement ctx.localeLe (ctx.signedBalance
      ⟨some fromDate, some toDate⟩ journal)).netIncome = _ := netIncome_eq (hcov.entriesIn _)
  have hprior : (incomeStatement ctx.localeLe (ctx.signedBalance
      ⟨none, some (previousDay fromDate)⟩ journal)).netIncome = _ :=
    netIncome_eq (hcov.entriesIn _)
  have hresid : (draw ctx fromDate toDate journal).balanceSheet.residual = _ :=
    residual_eq (hcov.entriesIn _) hbal ..
  rw [hper, hprior] at hresid
  have hin : ∀ window, ∀ e ∈ entriesIn window journal,
      sideTotal .debit e.lines = sideTotal .credit e.lines :=
    fun window e he => hbal e (List.mem_of_mem_filter he)
  obtain ⟨hrec, hcash⟩ := cashFlow_reconciled_iff
    (indexes_signedBalance ctx.localeLe ctx.currency
      (hcov.entriesIn (some ⟨none, some (previousDay fromDate)⟩)))
    (indexes_signedBalance ctx.localeLe ctx.currency (hcov.entriesIn (some ⟨none, some toDate⟩)))
    hbanks (hcov.entriesIn _) (hcov.entriesIn _) (hin _) (hin _)
    (incomeStatement ctx.localeLe (ctx.signedBalance
      ⟨some fromDate, some toDate⟩ journal)).netIncome
  have hflow := cashFlow_draw ctx fromDate toDate journal
  have hcas := hrec
  rw [← hflow, hper] at hcas
  rw [← hflow] at hcash
  have hboth : (draw ctx fromDate toDate journal).cashFlow.reconciled = true ↔
      (draw ctx fromDate toDate journal).balanceSheet.residual = 0 := by
    rw [hresid]
    refine hcas.trans ⟨fun h => ?_, fun h => ?_⟩
    · omega
    · omega
  refine ⟨⟨fun h => ?_, fun h => ?_⟩, hboth⟩
  · have hzero := h.residual
    rw [hresid] at hzero
    omega
  · have hzero : (draw ctx fromDate toDate journal).balanceSheet.residual = 0 := by
      rw [hresid]
      omega
    exact ⟨hzero, hcash.mp (hboth.mpr hzero)⟩

/-- Whatever was posted before, the handler answers, and its statements tie exactly when what the
two incomes miss has earned as much as what they count without its being theirs. -/
theorem statements_tie_iff (periods : π) (requests : List EntryRequest) (t : TenantId)
    (ctx : StatementsContext) (accounts : List Account) (fromDate toDate : String)
    (hfrom : isIsoDate fromDate = true) (hto : isIsoDate toDate = true)
    (hchart : ChartOfAccounts.ofAccounts accounts = .ok ctx.chart)
    (hcovers : Covers ctx.chart ((requests.foldl Ledger.answered ⟨.empty, periods⟩).store.list t)) :
    let journal := (requests.foldl Ledger.answered ⟨.empty, periods⟩).store.list t
    ∃ drawn, statements ctx (some fromDate) (some toDate) journal = .ok drawn ∧
      (drawn.Tie ↔ earned ctx.chart (missed fromDate toDate journal) =
        earned ctx.chart (doubled fromDate toDate journal)) := by
  intro journal
  have hne : ∀ date, isIsoDate date = true → (some date).filter (· ≠ "") = some date := by
    intro date hdate
    refine Option.filter_eq_some_iff.mpr ⟨rfl, decide_eq_true ?_⟩
    rintro rfl
    exact absurd hdate (by decide +kernel)
  refine ⟨draw ctx fromDate toDate journal, ?_, ?_⟩
  · unfold statements
    rw [hne fromDate hfrom, hne toDate hto]
  · exact (draw_tie_iff hcovers (banksAreAssets_of_ofAccounts hchart)
      (fun e he => (entriesOk_requests periods requests t e he).balanced) fromDate toDate).1

namespace Sample

variable (date : String)

/-- A body that sells for one dollar on a day. -/
def saleOn : String :=
  "\x7b\"date\":\"" ++ date ++ "\",\"lines\":[" ++
  "\x7b\"code\":\"1000\",\"side\":\"debit\",\"amount_minor\":\"100\"\x7d," ++
  "\x7b\"code\":\"4000\",\"side\":\"credit\",\"amount_minor\":\"100\"\x7d]\x7d"

def request : EntryRequest where
  ctx := { Service.Sample.context with
    parse := fun text => if text = saleOn date then some (.object [("date", .string date),
      ("lines", .array [Service.Sample.bodyLine "1000" "debit",
        Service.Sample.bodyLine "4000" "credit"])]) else none }
  body := saleOn date
  clock := Service.Sample.noon

def accounts : List Account :=
  [Kernel.Sample.account "cash" "1000" .asset, Kernel.Sample.account "sales" "4000" .revenue]

def context : StatementsContext := ⟨fun a b => a ≤ b, Kernel.Sample.chart, usd⟩

/-- The journal after a sale on a day, on empty books. -/
def soldOn : List PostedEntry :=
  ([request date].foldl Ledger.answered
    (⟨.empty, .empty⟩ : Ledger (InMemoryPeriodStore TenantId PeriodKey))).store.list "acme"

end Sample

theorem statements_of_august_tie :
    ∃ drawn, statements Sample.context (some "2026-08-01") (some "2026-08-31")
      (Sample.soldOn "2026-08-01") = .ok drawn ∧ (drawn.Tie ↔
        earned Kernel.Sample.chart (missed "2026-08-01" "2026-08-31" (Sample.soldOn "2026-08-01")) =
        earned Kernel.Sample.chart (doubled "2026-08-01" "2026-08-31" (Sample.soldOn "2026-08-01"))) :=
  statements_tie_iff (InMemoryPeriodStore.empty : InMemoryPeriodStore TenantId PeriodKey)
    [Sample.request "2026-08-01"] "acme" Sample.context Sample.accounts "2026-08-01" "2026-08-31"
    (by decide +kernel) (by decide +kernel) (by rfl) (by unfold Covers; decide +kernel)

theorem statements_off_by_impossible_day :
    Covers Sample.context.chart (Sample.soldOn "2024-02-30") ∧
    ∃ drawn, statements Sample.context (some "2024-03-01") (some "2024-03-31")
      (Sample.soldOn "2024-02-30") = .ok drawn ∧ drawn.balanceSheet.residual = 100 ∧
      drawn.cashFlow.reconciled = false ∧ ¬ drawn.Tie := by
  have hresid : (draw Sample.context "2024-03-01" "2024-03-31"
      (Sample.soldOn "2024-02-30")).balanceSheet.residual = 100 := by decide +kernel
  refine ⟨by unfold Covers; decide +kernel, draw Sample.context "2024-03-01" "2024-03-31"
    (Sample.soldOn "2024-02-30"), rfl, hresid, by decide +kernel, fun h => ?_⟩
  have hzero := h.residual
  rw [hresid] at hzero
  omega

end Statements
end Rgnr8.Service
