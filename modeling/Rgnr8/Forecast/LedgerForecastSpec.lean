import Rgnr8.Forecast.LedgerForecast

/-! When the forecast's inputs say of each item whether it comes from the books: what a failed read
does to what the owner entered. -/

namespace Rgnr8.Forecast
open Lib Lib.Py List

section
variable (reads : LedgerReads)

/-- Cash has been read: there is an account to hold it, and a balance of it. -/
def CashRead : Prop := ∃ n, bankCash reads = .ok n

def ok {α : Type} (res : LedgerResponse α) : Bool := res.toOption.isSome

/-- Whether both kinds of documents have been read and none is open, so that it matters whether
QuickBooks holds them. -/
def standInAsked : Bool :=
  (openDocuments "invoices" reads.invoices).toOption.any List.isEmpty ∧
    (openDocuments "bills" reads.bills).toOption.any List.isEmpty

def standInRead : Bool :=
  standInAsked reads → ok reads.settings ∧ (inParallelRun reads → ok reads.openItems)

def invoicesRead : Bool := ok reads.invoices ∧ standInRead reads

def billsRead : Bool := ok reads.bills ∧ standInRead reads

def payrollRead : Bool := payrollAsked reads → ok reads.payrollLiabilities

/-- Every read has succeeded of those that cash, receivables, payables and payroll depend on. -/
def AllRead : Prop :=
  CashRead reads ∧ invoicesRead reads = true ∧ billsRead reads = true ∧ payrollRead reads = true

end

def ownersOwn (item : OneTimeItem) : Bool := !isPayrollLiability item && !quickbooksBill item

/-- Every item says what the books say where they have been read, and what the owner says elsewhere. -/
structure Honest (owner : ForecastInputs) (reads : LedgerReads) (asOf : Date) (currency : String)
    (result : ForecastInputs) : Prop where
  cash : (∃ n, bankCash reads = .ok (result.opening.available, n)) ∨
    (¬ CashRead reads ∧ result.opening.available = owner.opening.available)
  invoices : result.invoices = if invoicesRead reads then
    (readLedgerFacts asOf currency reads).invoices else owner.invoices
  bills : result.bills = if billsRead reads then
    (readLedgerFacts asOf currency reads).bills else owner.bills
  payroll : result.oneTime.filter isPayrollLiability = if payrollRead reads then
    payrollItem (readLedgerFacts asOf currency reads).payrollLiability asOf
    else owner.oneTime.filter isPayrollLiability
  verified : result.opening.verified = true → AllRead reads
  restricted : result.opening.restricted = owner.opening.restricted
  currency : result.currency = owner.currency
  customerHistories : result.customerHistories = owner.customerHistories
  recurring : result.recurring = owner.recurring
  schedules : result.payroll = owner.payroll
  debt : result.debt = owner.debt
  pipeline : result.pipeline = owner.pipeline
  oneTime : result.oneTime.filter ownersOwn = owner.oneTime.filter ownersOwn

/-- Where cash has not been read and no document is open, the owner's inputs stay as they are. -/
def Untouched (reads : LedgerReads) (asOf : Date) (currency : String) : Prop :=
  ¬ CashRead reads ∧ (readLedgerFacts asOf currency reads).invoices = [] ∧
    (readLedgerFacts asOf currency reads).bills = []

/-- Then the owner has nothing where the books have been read and have nothing, and no checked cash. -/
structure NothingToRead (owner : ForecastInputs) (reads : LedgerReads) (asOf : Date)
    (currency : String) : Prop where
  invoices : invoicesRead reads = true → owner.invoices = []
  bills : billsRead reads = true → owner.bills = []
  payroll : payrollRead reads = true → owner.oneTime.filter isPayrollLiability =
    payrollItem (readLedgerFacts asOf currency reads).payrollLiability asOf
  verified : owner.opening.verified = false

/-- Elsewhere the owner has nothing where a read has failed, and no stand-in is missed unnoticed. -/
structure NothingToLose (owner : ForecastInputs) (reads : LedgerReads) (asOf : Date)
    (currency : String) : Prop where
  invoices : invoicesRead reads = false → owner.invoices = []
  bills : billsRead reads = false → owner.bills = []
  payroll : payrollRead reads = false → owner.oneTime.filter isPayrollLiability = []
  verified : (readLedgerFacts asOf currency reads).ok = true → standInRead reads = true

section
variable {reads : LedgerReads} {asOf : Date} {currency : String}

theorem bankCash_pos {cash : Money} {n : Nat} (h : bankCash reads = .ok (cash, n)) : 0 < n := by
  unfold bankCash at h
  cases hchart : ask "the chart of accounts" reads.accounts with
  | error e =>
    rw [hchart] at h
    cases h
  | ok rows =>
    rw [hchart] at h
    dsimp only [bind, Except.bind] at h
    split_ifs at h with hnone
    cases htrial : ask "the trial balance" reads.trialBalance with
    | error e =>
      rw [htrial] at h
      cases h
    | ok trial =>
      rw [htrial] at h
      have hn : (bankCodes rows).length = n := (Prod.ext_iff.mp (Except.ok.inj h)).2
      rw [← hn]
      exact length_pos_iff.mpr hnone

theorem cashRead_iff : CashRead reads ↔ 0 < (readLedgerFacts asOf currency reads).cashAccounts := by
  unfold CashRead readLedgerFacts
  cases h : bankCash reads with
  | error e => exact iff_of_false (fun h => nomatch h.choose_spec) (Nat.lt_irrefl 0)
  | ok cash => exact iff_of_true ⟨cash, rfl⟩ (bankCash_pos h)

variable {owner : ForecastInputs} {α : Type}
variable (what : String)

theorem ok_ask (res : LedgerResponse α) : problemOf (ask what res) = [] ↔ ok res = true := by
  cases res with
  | error e => exact iff_of_false (cons_ne_nil _ _) Bool.false_ne_true
  | ok a => exact iff_of_true rfl rfl

theorem ok_openDocuments (res : LedgerResponse (List DocumentRow)) :
    problemOf (openDocuments what res) = [] ↔ ok res = true := by
  cases res with
  | error e => exact iff_of_false (cons_ne_nil _ _) Bool.false_ne_true
  | ok a => exact iff_of_true rfl rfl

theorem facts_ok_iff : (readLedgerFacts asOf currency reads).ok = true ↔ CashRead reads ∧
    ok reads.invoices = true ∧ ok reads.bills = true ∧ payrollRead reads = true := by
  unfold LedgerFacts.ok readLedgerFacts
  dsimp only
  rw [decide_eq_true_iff, append_eq_nil_iff, append_eq_nil_iff, append_eq_nil_iff,
    ok_openDocuments, ok_openDocuments, and_assoc, and_assoc]
  refine and_congr ?_ (and_congr_right fun _ => and_congr_right fun _ => ?_)
  · unfold CashRead
    cases bankCash reads with
    | error e => exact iff_of_false (cons_ne_nil _ _) fun h => nomatch h.choose_spec
    | ok cash => exact iff_of_true rfl ⟨cash, rfl⟩
  · unfold payrollRead
    rw [decide_eq_true_iff]
    split_ifs with hasked
    · rw [← ok_ask "payroll liabilities"]
      cases ask "payroll liabilities" reads.payrollLiabilities with
      | error e => exact iff_of_false (cons_ne_nil _ _) fun h => nomatch h hasked
      | ok owed => exact iff_of_true rfl fun _ => rfl
    · exact iff_of_true rfl fun h => absurd h hasked

theorem documents_of_not_standInRead (h : standInRead reads = false) :
    readDocuments asOf currency reads = ([], []) := by
  unfold standInRead at h
  obtain ⟨hasked, hfail⟩ := Classical.not_imp.mp (of_decide_eq_false h)
  obtain ⟨hinvs, hbills⟩ := of_decide_eq_true hasked
  obtain ⟨docs, hdocs, hemp⟩ := Option.any_eq_true .. |>.mp hinvs
  obtain ⟨docs', hdocs', hemp'⟩ := Option.any_eq_true .. |>.mp hbills
  obtain rfl := isEmpty_iff.mp hemp
  obtain rfl := isEmpty_iff.mp hemp'
  unfold readDocuments
  simp only [hdocs, hdocs', Option.getD_some, map_nil, Option.any_some, isEmpty_nil, true_and]
  split_ifs with hpara
  · have hitems : readOpenItems reads = none := by
      have hitems : ok reads.openItems = false := by
        by_contra hok
        refine hfail ⟨?_, fun _ => Bool.not_eq_false _ |>.mp hok⟩
        unfold inParallelRun at hpara
        unfold ok
        cases hset : reads.settings with
        | error e =>
          rw [hset] at hpara
          cases hpara
        | ok record => rfl
      unfold readOpenItems
      unfold ok at hitems
      cases hsnap : reads.openItems with
      | error e => rfl
      | ok items =>
        rw [hsnap] at hitems
        cases hitems
    rw [hitems]
  · rfl

theorem toOption_openDocuments {res : LedgerResponse (List DocumentRow)} (h : ok res ≠ true) :
    (openDocuments what res).toOption = none := by
  cases res with
  | error e => rfl
  | ok docs => exact absurd rfl h

theorem invoices_of_not_read (h : invoicesRead reads = false) :
    (readLedgerFacts asOf currency reads).invoices = [] := by
  have hdoc : (readDocuments asOf currency reads).1 = [] := by
    rcases not_and_or.mp (of_decide_eq_false h) with hfail | hfail
    · unfold readDocuments
      dsimp only
      rw [toOption_openDocuments "invoices" hfail]
      simp only [Option.any_none, Bool.false_eq_true, false_and, if_false, Option.getD_none,
        map_nil]
    · rw [documents_of_not_standInRead (Bool.eq_false_of_not_eq_true hfail)]
  unfold readLedgerFacts
  dsimp only
  rw [hdoc]
  rfl

theorem bills_of_not_read (h : billsRead reads = false) :
    (readLedgerFacts asOf currency reads).bills = [] := by
  have hdoc : (readDocuments asOf currency reads).2 = [] := by
    rcases not_and_or.mp (of_decide_eq_false h) with hfail | hfail
    · unfold readDocuments
      dsimp only
      rw [toOption_openDocuments "bills" hfail]
      simp only [Option.any_none, Bool.false_eq_true, false_and, and_false, if_false,
        Option.getD_none, map_nil]
    · rw [documents_of_not_standInRead (Bool.eq_false_of_not_eq_true hfail)]
  unfold readLedgerFacts
  dsimp only
  rw [hdoc]
  rfl

theorem payrollItem_of_not_read (h : payrollRead reads = false) :
    payrollItem (readLedgerFacts asOf currency reads).payrollLiability asOf = [] := by
  unfold payrollRead at h
  obtain ⟨hasked, hfail⟩ := Classical.not_imp.mp (of_decide_eq_false h)
  unfold ok at hfail
  have hnone : (readLedgerFacts asOf currency reads).payrollLiability = ⟨0, "USD"⟩ := by
    unfold readLedgerFacts
    dsimp only
    rw [if_pos hasked]
    cases hpayr : reads.payrollLiabilities with
    | error e => rfl
    | ok owed =>
      rw [hpayr] at hfail
      exact absurd rfl hfail
  unfold payrollItem
  rw [hnone]
  rfl

/-! The one-time items of a merge. -/

theorem isPayrollLiability_payrollItem {owed : Money} {item : OneTimeItem}
    (h : item ∈ payrollItem owed asOf) : isPayrollLiability item = true := by
  unfold payrollItem at h
  split_ifs at h
  · rw [mem_singleton.mp h]
    rfl
  · cases h

def mergedOneTime (owner : List OneTimeItem) (facts : LedgerFacts) (asOf : Date) : List OneTimeItem :=
  (if facts.bills ≠ [] then (owner.filter fun i => !isPayrollLiability i).filter fun i =>
      !quickbooksBill i
    else owner.filter fun i => !isPayrollLiability i) ++ payrollItem facts.payrollLiability asOf

theorem mergedOneTime_payroll (owner : List OneTimeItem) (facts : LedgerFacts) (asOf : Date) :
    (mergedOneTime owner facts asOf).filter isPayrollLiability =
      payrollItem facts.payrollLiability asOf := by
  have hitem : (payrollItem facts.payrollLiability asOf).filter isPayrollLiability =
      payrollItem facts.payrollLiability asOf :=
    filter_eq_self.mpr fun _ => isPayrollLiability_payrollItem
  have hnone : (if facts.bills ≠ [] then (owner.filter fun i => !isPayrollLiability i).filter fun i =>
      !quickbooksBill i else owner.filter fun i => !isPayrollLiability i).filter
        isPayrollLiability = [] := by
    refine filter_eq_nil_iff.mpr fun item hitem hpayr => ?_
    have hmem : item ∈ owner.filter fun i => !isPayrollLiability i := by
      split_ifs at hitem
      · exact mem_of_mem_filter hitem
      · exact hitem
    have hnot := (mem_filter.mp hmem).2
    rw [hpayr] at hnot
    cases hnot
  unfold mergedOneTime
  rw [filter_append, hitem, hnone, nil_append]

theorem mergedOneTime_own (owner : List OneTimeItem) (facts : LedgerFacts) (asOf : Date) :
    (mergedOneTime owner facts asOf).filter ownersOwn = owner.filter ownersOwn := by
  have hitem : (payrollItem facts.payrollLiability asOf).filter ownersOwn = [] := by
    refine filter_eq_nil_iff.mpr fun item hitem hown => ?_
    unfold ownersOwn at hown
    rw [isPayrollLiability_payrollItem hitem] at hown
    cases hown
  unfold mergedOneTime
  rw [filter_append, hitem, append_nil]
  split_ifs
  · rw [filter_filter, filter_filter]
    refine filter_congr fun item _ => ?_
    unfold ownersOwn
    cases isPayrollLiability item <;> cases quickbooksBill item <;> rfl
  · rw [filter_filter]
    refine filter_congr fun item _ => ?_
    unfold ownersOwn
    cases isPayrollLiability item <;> cases quickbooksBill item <;> rfl

theorem merge_of_untouched (h : Untouched reads asOf currency) :
    forecastFromLedger reads owner asOf currency = owner := by
  obtain ⟨hcash, hinvs, hbills⟩ := h
  have hprob : (readLedgerFacts asOf currency reads).ok = false := by
    rw [← Bool.not_eq_true, facts_ok_iff]
    exact fun hok => hcash hok.1
  have hnone : (readLedgerFacts asOf currency reads).cashAccounts = 0 :=
    Nat.eq_zero_of_not_pos fun hpos => hcash (cashRead_iff.mpr hpos)
  unfold forecastFromLedger mergeForecastInputs
  exact if_pos ⟨by rw [hprob]; rfl, hnone, hinvs, hbills⟩

theorem merge_of_touched (h : ¬ Untouched reads asOf currency) :
    forecastFromLedger reads owner asOf currency =
      let facts := readLedgerFacts asOf currency reads
      let cashKnown : Bool := 0 < facts.cashAccounts
      { owner with
        opening := {
          asOf := asOf
          available := if cashKnown then facts.cash else owner.opening.available
          restricted := owner.opening.restricted
          verified := facts.ok && cashKnown }
        invoices := facts.invoices
        bills := facts.bills
        oneTime := mergedOneTime owner.oneTime facts asOf } := by
  unfold forecastFromLedger mergeForecastInputs
  refine if_neg fun hwhole => h ⟨fun hcash => ?_, hwhole.2.2⟩
  exact (cashRead_iff.mp hcash).ne' hwhole.2.1

theorem cash_of_merge : (∃ n, bankCash reads =
      .ok (if decide (0 < (readLedgerFacts asOf currency reads).cashAccounts) then
        (readLedgerFacts asOf currency reads).cash else owner.opening.available, n)) ∨
    (¬ CashRead reads ∧ (if decide (0 < (readLedgerFacts asOf currency reads).cashAccounts) then
        (readLedgerFacts asOf currency reads).cash else owner.opening.available) =
          owner.opening.available) := by
  by_cases hcash : CashRead reads
  · rw [if_pos (decide_eq_true (cashRead_iff.mp hcash))]
    obtain ⟨⟨cash, n⟩, hn⟩ := hcash
    refine .inl ⟨n, ?_⟩
    unfold readLedgerFacts
    rw [hn]
    rfl
  · have hzero : ¬ 0 < (readLedgerFacts asOf currency reads).cashAccounts :=
      fun hpos => hcash (cashRead_iff.mpr hpos)
    exact .inr ⟨hcash, if_neg (by rwa [decide_eq_true_iff])⟩

theorem eq_ite_iff {read : Bool} {books owner : List α} (hnone : read = false → books = []) :
    (books = if read then books else owner) ↔ (read = false → owner = []) := by
  cases read with
  | true => exact iff_of_true rfl (fun h => nomatch h)
  | false =>
    rw [hnone rfl]
    exact ⟨fun h _ => h.symm, fun h => (h rfl).symm⟩

theorem owner_eq_ite_iff {read : Bool} {books owner : List α} :
    (owner = if read then books else owner) ↔ (read = true → owner = books) := by
  cases read with
  | true => exact ⟨fun h _ => h, fun h => h rfl⟩
  | false => exact iff_of_true rfl (fun h => nomatch h)

/-- The forecast's inputs are honest exactly where there is nothing to lose by the reads that have
failed: the owner has entered nothing there, or nothing at all has come out of the books and the
owner has nothing where they have been read. -/
theorem honest_iff (owner : ForecastInputs) (reads : LedgerReads) (asOf : Date) (currency : String) :
    Honest owner reads asOf currency (forecastFromLedger reads owner asOf currency) ↔
      (Untouched reads asOf currency → NothingToRead owner reads asOf currency) ∧
        (¬ Untouched reads asOf currency → NothingToLose owner reads asOf currency) := by
  by_cases hwhole : Untouched reads asOf currency
  -- nothing was read: the forecast is the owner's own
  · rw [merge_of_untouched hwhole]
    obtain ⟨hcash, hinvs, hbills⟩ := id hwhole
    simp only [hwhole, true_imp_iff, not_true_eq_false, false_imp_iff, and_true]
    have hallR : ¬ AllRead reads := fun h => hcash h.1
    constructor
    · intro h
      constructor
      case invoices =>
        have heq := h.invoices
        rw [hinvs] at heq
        exact owner_eq_ite_iff.mp heq
      case bills =>
        have heq := h.bills
        rw [hbills] at heq
        exact owner_eq_ite_iff.mp heq
      case payroll => exact owner_eq_ite_iff.mp h.payroll
      case verified =>
        by_contra hver
        exact hallR (h.verified (Bool.not_eq_false _ |>.mp hver))
    · intro h
      exact {
        cash := .inr ⟨hcash, rfl⟩
        invoices := by
          rw [hinvs]
          exact owner_eq_ite_iff.mpr h.invoices
        bills := by
          rw [hbills]
          exact owner_eq_ite_iff.mpr h.bills
        payroll := owner_eq_ite_iff.mpr h.payroll
        verified := fun hver => by
          rw [h.verified] at hver
          cases hver
        restricted := rfl
        currency := rfl
        customerHistories := rfl
        recurring := rfl
        schedules := rfl
        debt := rfl
        pipeline := rfl
        oneTime := rfl }
  · rw [merge_of_touched hwhole]
    simp only [hwhole, false_imp_iff, not_false_eq_true, true_imp_iff, true_and]
    have hpayr := mergedOneTime_payroll owner.oneTime (readLedgerFacts asOf currency reads) asOf
    have hver : ((readLedgerFacts asOf currency reads).ok &&
        decide (0 < (readLedgerFacts asOf currency reads).cashAccounts)) =
          (readLedgerFacts asOf currency reads).ok := by
      cases hok : (readLedgerFacts asOf currency reads).ok with
      | false => rfl
      | true =>
        rw [Bool.true_and]
        exact decide_eq_true (cashRead_iff.mp (facts_ok_iff.mp hok).1)
    constructor
    · intro h
      constructor
      case invoices => exact (eq_ite_iff invoices_of_not_read).mp h.invoices
      case bills => exact (eq_ite_iff bills_of_not_read).mp h.bills
      case payroll => exact (eq_ite_iff payrollItem_of_not_read).mp (hpayr.symm.trans h.payroll)
      case verified =>
        intro hok
        have hall := h.verified (hver.trans hok)
        have hinvs := hall.2.1
        unfold invoicesRead at hinvs
        exact (of_decide_eq_true hinvs).2
    · intro h
      exact {
        cash := cash_of_merge
        invoices := (eq_ite_iff invoices_of_not_read).mpr h.invoices
        bills := (eq_ite_iff bills_of_not_read).mpr h.bills
        payroll := hpayr.trans ((eq_ite_iff payrollItem_of_not_read).mpr h.payroll)
        verified := fun hok => by
          have hok := hver.symm.trans hok
          obtain ⟨hcash, hinvs, hbills, hpaid⟩ := facts_ok_iff.mp hok
          have hstan := h.verified hok
          exact ⟨hcash, decide_eq_true ⟨hinvs, hstan⟩, decide_eq_true ⟨hbills, hstan⟩,
            hpaid⟩
        restricted := rfl
        currency := rfl
        customerHistories := rfl
        recurring := rfl
        schedules := rfl
        debt := rfl
        pipeline := rfl
        oneTime := mergedOneTime_own owner.oneTime _ asOf }

end

def expectant : ForecastInputs where
  opening := ⟨⟨739831, by decide⟩, ⟨100000, "USD"⟩, ⟨0, "USD"⟩, false⟩
  currency := "USD"
  invoices := [⟨"inv-1", "c-1", ⟨739831, by decide⟩, ⟨739861, by decide⟩, ⟨1000000, "USD"⟩, .open_,
    none⟩]
  customerHistories := []
  bills := []
  recurring := []
  payroll := []
  debt := []
  oneTime := []
  pipeline := []

def invoicesDown : LedgerReads where
  accounts := .ok [⟨"1000", "BANK"⟩]
  trialBalance := .ok [⟨"1000", "250000", "0"⟩]
  invoices := .error "ledger service returned 503"
  bills := .ok []
  payrollLiabilities := .ok "0"
  settings := .ok "rgnr8"
  openItems := .ok none

theorem invoicesDown_not_honest :
    (forecastFromLedger invoicesDown expectant expectant.opening.asOf "USD").invoices = [] ∧
      ¬ Honest expectant invoicesDown expectant.opening.asOf "USD"
        (forecastFromLedger invoicesDown expectant expectant.opening.asOf "USD") := by
  have hgone : (forecastFromLedger invoicesDown expectant expectant.opening.asOf "USD").invoices =
      [] := by decide +kernel
  have hfail : invoicesRead invoicesDown = false := by decide +kernel
  refine ⟨hgone, fun h => ?_⟩
  have hkept := h.invoices
  rw [hgone, hfail] at hkept
  cases hkept

end Rgnr8.Forecast
