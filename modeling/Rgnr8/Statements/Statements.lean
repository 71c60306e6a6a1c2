import Rgnr8.Kernel.TrialBalance

/-! The three financial statements, built from signed trial balances. All amounts of a statement
are minor units of its one currency. -/

namespace Rgnr8.Statements
open Lib Kernel List

inductive AccountClass where
  | asset | liability | equity | revenue | expense
  deriving DecidableEq

def classifyByType : AccountType → AccountClass
  | .asset => .asset
  | .liability => .liability
  | .equity => .equity
  | .revenue => .revenue
  | .expense => .expense

structure TrialBalanceEntry where
  accountId : AccountId
  code : String
  name : String
  accountClass : AccountClass
  subtype : Option AccountSubtype
  signed : Int

structure TrialBalance where
  currency : Currency
  entries : List TrialBalanceEntry

def entryOfRow (r : TrialBalanceRow) : TrialBalanceEntry where
  accountId := r.accountId
  code := r.code
  name := r.name
  accountClass := classifyByType r.type
  subtype := r.subtype
  signed := r.debit.minorUnits - r.credit.minorUnits

def fromKernelTrialBalance (localeLe : String → String → Bool) (ktb : Kernel.TrialBalance) :
    TrialBalance where
  currency := ktb.currency
  entries := (ktb.rows.map entryOfRow).insertionSort fun a b => localeLe a.code b.code = true

/-- What an account contributes to its statement total: its normal side reads positive. -/
def naturalAmount (entry : TrialBalanceEntry) : Int :=
  match entry.accountClass with
  | .asset | .expense => entry.signed
  | .liability | .equity | .revenue => -entry.signed

def entriesOfClass (tb : TrialBalance) (cls : AccountClass) : List TrialBalanceEntry :=
  tb.entries.filter fun e => e.accountClass = cls

def sumNatural (entries : List TrialBalanceEntry) : Int := (entries.map naturalAmount).sum

def indexById (tb : TrialBalance) : OrderedMap AccountId TrialBalanceEntry :=
  tb.entries.foldl (fun m e => m.set e.accountId e) .empty

structure StatementLine where
  accountId : AccountId
  code : String
  name : String
  accountClass : AccountClass
  subtype : Option AccountSubtype
  amount : Int

def toLine (e : TrialBalanceEntry) : StatementLine :=
  ⟨e.accountId, e.code, e.name, e.accountClass, e.subtype, naturalAmount e⟩

def sortLines (localeLe : String → String → Bool) (lines : List StatementLine) :
    List StatementLine := lines.insertionSort fun a b => localeLe a.code b.code = true

structure IncomeStatement where
  currency : Currency
  revenue : Int
  costOfGoodsSold : Int
  grossProfit : Int
  operatingExpenses : Int
  expenses : Int
  lines : List StatementLine
  netIncome : Int

def isCogs (e : TrialBalanceEntry) : Bool := e.subtype = some .costOfGoodsSold

def incomeStatement (localeLe : String → String → Bool) (tb : TrialBalance) : IncomeStatement :=
  let revLines := entriesOfClass tb .revenue
  let expLines := entriesOfClass tb .expense
  let revenue := sumNatural revLines
  let costOfGoodsSold := sumNatural (expLines.filter isCogs)
  let operatingExpenses := sumNatural (expLines.filter fun e => ¬ isCogs e)
  let expenses := costOfGoodsSold + operatingExpenses
  { currency := tb.currency
    revenue := revenue
    costOfGoodsSold := costOfGoodsSold
    grossProfit := revenue - costOfGoodsSold
    operatingExpenses := operatingExpenses
    expenses := expenses
    lines := sortLines localeLe ((revLines ++ expLines).map toLine)
    netIncome := revenue - expenses }

def netIncomeAccountId : AccountId := "__CURRENT_PERIOD_NET_INCOME__"

def retainedEarningsAccountId : AccountId := "__RETAINED_EARNINGS_PRIOR__"

structure BalanceSheet where
  currency : Currency
  assets : Int
  liabilities : Int
  equity : Int
  lines : List StatementLine
  residual : Int
  balanced : Bool

def balanceSheet (localeLe : String → String → Bool) (tb : TrialBalance) (netIncome : Int)
    (beginningRetained : Option Int) : BalanceSheet :=
  let assetLines := entriesOfClass tb .asset
  let liabLines := entriesOfClass tb .liability
  let equityLines := entriesOfClass tb .equity
  let priorRetained := beginningRetained.getD 0
  let assets := sumNatural assetLines
  let liabilities := sumNatural liabLines
  let equity := sumNatural equityLines + priorRetained + netIncome
  let residual := assets - (liabilities + equity)
  let niLine : StatementLine :=
    ⟨netIncomeAccountId, "3999", "Current-period net income", .equity, none, netIncome⟩
  let retainedLine : StatementLine := ⟨retainedEarningsAccountId, "3998",
    "Retained earnings (prior periods)", .equity, none, priorRetained⟩
  { currency := tb.currency
    assets := assets
    liabilities := liabilities
    equity := equity
    lines := sortLines localeLe ((assetLines ++ liabLines ++ equityLines).map toLine) ++
      if priorRetained = 0 then [niLine] else [retainedLine, niLine]
    residual := residual
    balanced := residual = 0 }

inductive CashFlowSection where
  | operating | investing | financing

structure CashFlowClassifier where
  isCash : TrialBalanceEntry → Bool
  section_ : TrialBalanceEntry → CashFlowSection

def sectionForSubtype : AccountSubtype → CashFlowSection
  | .accumulatedDepreciation => .operating
  | .fixedAsset | .otherAsset => .investing
  | .longTermLiability | .equity | .retainedEarnings => .financing
  | _ => .operating

def subtypeOf (coa : ChartOfAccounts) (id : AccountId) : Option AccountSubtype :=
  (coa.get id).bind fun a => a.subtype

def subtypeCashFlowClassifier (coa : ChartOfAccounts) : CashFlowClassifier where
  isCash entry := subtypeOf coa entry.accountId = some .bank
  section_ entry := match subtypeOf coa entry.accountId with
    | some subtype => sectionForSubtype subtype
    | none => if entry.accountClass = .equity then .financing else .operating

structure CashFlowStatement where
  currency : Currency
  operating : Int
  investing : Int
  financing : Int
  netChange : Int
  beginningCash : Int
  endingCash : Int
  reconciled : Bool

/-- The sums of the loop over the accounts. -/
structure CashFlowSums where
  beginningCash : Int
  endingCash : Int
  operatingWorkingCapital : Int
  investing : Int
  financing : Int

def cashFlowStep (classifier : CashFlowClassifier)
    (start finish : OrderedMap AccountId TrialBalanceEntry) (sums : CashFlowSums)
    (id : AccountId) : CashFlowSums :=
  match (finish.get? id).or (start.get? id) with
  | none => sums
  | some rep =>
    let signedStart := ((start.get? id).map fun e => e.signed).getD 0
    let signedEnd := ((finish.get? id).map fun e => e.signed).getD 0
    if classifier.isCash rep then
      { sums with
        beginningCash := sums.beginningCash + signedStart
        endingCash := sums.endingCash + signedEnd }
    else if rep.accountClass = .revenue ∨ rep.accountClass = .expense then sums
    else
      let contribution := signedStart - signedEnd
      match classifier.section_ rep with
      | .investing => { sums with investing := sums.investing + contribution }
      | .financing => { sums with financing := sums.financing + contribution }
      | .operating =>
        { sums with operatingWorkingCapital := sums.operatingWorkingCapital + contribution }

def idsOf (start finish : OrderedMap AccountId TrialBalanceEntry) : List AccountId :=
  start.keys ++ finish.keys.filter fun id => id ∉ start.keys

def cashFlow (tbStart tbEnd : TrialBalance) (netIncome : Int) (classifier : CashFlowClassifier) :
    CashFlowStatement :=
  let start := indexById tbStart
  let finish := indexById tbEnd
  let sums := (idsOf start finish).foldl (cashFlowStep classifier start finish) ⟨0, 0, 0, 0, 0⟩
  let operating := netIncome + sums.operatingWorkingCapital
  let netChange := sums.endingCash - sums.beginningCash
  { currency := tbEnd.currency
    operating := operating
    investing := sums.investing
    financing := sums.financing
    netChange := netChange
    beginningCash := sums.beginningCash
    endingCash := sums.endingCash
    reconciled := operating + sums.investing + sums.financing = netChange }

/-! What the statements say of the journals their trial balances were drawn from: every total is a
sum over the lines, weighted by the class of their accounts. -/

variable {localeLe : String → String → Bool} {coa : ChartOfAccounts} {currency : Currency}
variable {window : Option DateWindow} {journal : List PostedEntry}

theorem sum_filter {α : Type} (p : α → Bool) (f : α → Int) (l : List α) :
    ((l.filter p).map f).sum = (l.map fun x => if p x then f x else 0).sum := by
  induction l with
  | nil => rfl
  | cons x l ih =>
    by_cases h : p x
    · rw [filter_cons_of_pos h, map_cons, sum_cons, ih, map_cons,
        sum_cons, if_pos h]
    · rw [filter_cons_of_neg h, ih, map_cons, sum_cons, if_neg h, Int.zero_add]

theorem sum_filter_not {α : Type} (p : α → Bool) (f : α → Int) (l : List α) :
    ((l.filter p).map f).sum + ((l.filter fun x => ¬ p x).map f).sum = (l.map f).sum := by
  rw [sum_filter, sum_filter, ← sum_map_add]
  refine congrArg sum (map_congr_left fun x _ => ?_)
  cases p x <;> simp

/-- Whether an account is of a class that `p` admits, as a weight. -/
def classWeight (coa : ChartOfAccounts) (p : AccountClass → Bool) (id : AccountId) : Int :=
  if (coa.get id).any fun a => p (classifyByType a.type) then 1 else 0

theorem classWeight_of_get {id : AccountId} {a : Account} (h : coa.get id = some a)
    (p : AccountClass → Bool) :
    classWeight coa p id = if p (classifyByType a.type) then 1 else 0 := by
  unfold classWeight
  rw [h]
  rfl

abbrev signedBalance (localeLe : String → String → Bool) (coa : ChartOfAccounts)
    (currency : Currency) (window : Option DateWindow) (journal : List PostedEntry) :
    TrialBalance :=
  fromKernelTrialBalance localeLe (computeTrialBalance localeLe coa currency window journal)

theorem sum_entries_class (h : Covers coa (entriesIn window journal)) (p : AccountClass → Bool) :
    (((signedBalance localeLe coa currency window journal).entries.map fun e =>
      if p e.accountClass then e.signed else 0)).sum =
      weighed (classWeight coa p) (entriesIn window journal) := by
  have hperm := ((perm_insertionSort (fun a b : TrialBalanceEntry =>
    localeLe a.code b.code = true) ((computeTrialBalance localeLe coa currency window
      journal).rows.map entryOfRow)).map fun e => if p e.accountClass then e.signed else 0).sum_eq
  refine hperm.trans ?_
  rw [map_map, sum_rows h _ fun k n => classWeight coa p k * n, total_netByAccount]
  intro a n ha
  rw [classWeight_of_get ha, ite_mul, one_mul, zero_mul]
  have hsgn : (entryOfRow (trialBalanceRow currency n a)).signed = n :=
    position_trialBalanceRow currency n a
  show (if p (classifyByType a.type) then (entryOfRow (trialBalanceRow currency n a)).signed
    else 0) = _
  rw [hsgn]

theorem sumNatural_entriesOfClass (h : Covers coa (entriesIn window journal)) (cls : AccountClass) :
    sumNatural (entriesOfClass (signedBalance localeLe coa currency window journal) cls) =
      (match cls with
        | .asset | .expense => 1
        | .liability | .equity | .revenue => -1) *
        weighed (classWeight coa (· = cls)) (entriesIn window journal) := by
  unfold sumNatural entriesOfClass
  rw [sum_filter, ← sum_entries_class h, ← sum_map_mul_left]
  refine congrArg sum (map_congr_left fun e _ => ?_)
  by_cases hclass : e.accountClass = cls
  · subst hclass
    unfold naturalAmount
    cases e.accountClass <;> simp
  · simp [hclass]

def isEarnings : AccountClass → Bool
  | .revenue | .expense => true
  | .asset | .liability | .equity => false

def earned (coa : ChartOfAccounts) (journal : List PostedEntry) : Int :=
  -weighed (classWeight coa isEarnings) journal

theorem weighed_add (w w' : AccountId → Int) (journal : List PostedEntry) :
    weighed (fun k => w k + w' k) journal = weighed w journal + weighed w' journal := by
  unfold weighed weightedSum
  simp only [add_mul, sum_map_add]

theorem weighed_congr {w w' : AccountId → Int}
    (h : ∀ e ∈ journal, ∀ l ∈ e.lines, w l.accountId = w' l.accountId) :
    weighed w journal = weighed w' journal := by
  unfold weighed weightedSum
  refine congrArg sum (map_congr_left fun e he => ?_)
  exact congrArg sum (map_congr_left fun l hl => by rw [h e he l hl])

theorem earned_eq (coa : ChartOfAccounts) (journal : List PostedEntry) :
    earned coa journal = -weighed (classWeight coa (· = .revenue)) journal -
      weighed (classWeight coa (· = .expense)) journal := by
  have hsplit : classWeight coa isEarnings =
      fun k => classWeight coa (· = .revenue) k + classWeight coa (· = .expense) k := by
    funext k
    unfold classWeight
    cases coa.get k with
    | none => rfl
    | some a => cases htype : a.type <;> simp [htype, classifyByType, isEarnings]
  unfold earned
  rw [hsplit, weighed_add]
  ring

theorem netIncome_eq (h : Covers coa (entriesIn window journal)) :
    (incomeStatement localeLe (signedBalance localeLe coa currency window journal)).netIncome =
      earned coa (entriesIn window journal) := by
  have hexp : sumNatural ((entriesOfClass (signedBalance localeLe coa currency window journal)
        .expense).filter isCogs) +
      sumNatural ((entriesOfClass (signedBalance localeLe coa currency window journal)
        .expense).filter fun e => ¬ isCogs e) =
      sumNatural (entriesOfClass (signedBalance localeLe coa currency window journal) .expense) :=
    sum_filter_not ..
  unfold incomeStatement
  show sumNatural _ - (_ + _) = _
  rw [hexp, sumNatural_entriesOfClass h, sumNatural_entriesOfClass h, earned_eq]
  ring

theorem sheet_eq_earned (h : Covers coa journal)
    (hbal : ∀ e ∈ journal, sideTotal .debit e.lines = sideTotal .credit e.lines) :
    weighed (classWeight coa (· = .asset)) journal +
        weighed (classWeight coa (· = .liability)) journal +
        weighed (classWeight coa (· = .equity)) journal = earned coa journal := by
  have hone : weighed (fun k => classWeight coa (· = .asset) k + classWeight coa (· = .liability) k +
      classWeight coa (· = .equity) k + classWeight coa isEarnings k) journal = 0 := by
    rw [← weighed_one hbal]
    refine weighed_congr fun e he l hl => ?_
    obtain ⟨a, ha⟩ := Option.isSome_iff_exists.mp (h e he l hl)
    simp only [classWeight_of_get ha]
    cases a.type <;> simp [classifyByType, isEarnings]
  rw [weighed_add, weighed_add, weighed_add] at hone
  unfold earned
  omega

theorem residual_eq (h : Covers coa (entriesIn window journal))
    (hbal : ∀ e ∈ journal, sideTotal .debit e.lines = sideTotal .credit e.lines)
    (netIncome prior : Int) :
    (balanceSheet localeLe (signedBalance localeLe coa currency window journal) netIncome
        (some prior)).residual =
      earned coa (entriesIn window journal) - (prior + netIncome) := by
  unfold balanceSheet
  show sumNatural _ - (sumNatural _ + (sumNatural _ + prior + netIncome)) = _
  rw [sumNatural_entriesOfClass h, sumNatural_entriesOfClass h, sumNatural_entriesOfClass h,
    ← sheet_eq_earned h fun e he => hbal e (mem_of_mem_filter he)]
  ring

theorem get?_indexById {tb : TrialBalance}
    (h : (tb.entries.map TrialBalanceEntry.accountId).Nodup) {id : AccountId}
    {e : TrialBalanceEntry} :
    (indexById tb).get? id = some e ↔ e ∈ tb.entries ∧ e.accountId = id := by
  have hfold : ∀ (entries : List TrialBalanceEntry) (m : OrderedMap AccountId TrialBalanceEntry),
      (entries.map TrialBalanceEntry.accountId).Nodup →
      ((entries.foldl (fun m e => m.set e.accountId e) m).get? id = some e ↔
        (e ∈ entries ∧ e.accountId = id) ∨
          id ∉ entries.map TrialBalanceEntry.accountId ∧ m.get? id = some e) := by
    intro entries
    induction entries with
    | nil => simp
    | cons b entries ih =>
      intro m hnd
      rw [map_cons, nodup_cons] at hnd
      rw [foldl_cons, ih _ hnd.2, OrderedMap.get?_set]
      by_cases hid : id = b.accountId
      · subst hid
        have hnew : ∀ e ∈ entries, e.accountId ≠ b.accountId :=
          fun e he heq => hnd.1 (heq ▸ mem_map_of_mem he)
        constructor
        · rintro (⟨hmem, heq⟩ | ⟨-, heq⟩)
          · exact absurd heq (hnew e hmem)
          · rw [if_pos rfl] at heq
            exact .inl ⟨Option.some.inj heq ▸ mem_cons_self, by rw [Option.some.inj heq]⟩
        · rintro (⟨hmem, heq⟩ | ⟨hnotin, -⟩)
          · rcases mem_cons.mp hmem with rfl | hmem
            · exact .inr ⟨hnd.1, if_pos rfl⟩
            · exact absurd heq (hnew e hmem)
          · exact absurd mem_cons_self hnotin
      · rw [if_neg hid, map_cons, mem_cons, mem_cons, not_or]
        constructor
        · rintro (⟨hmem, heq⟩ | ⟨hnotin, hget⟩)
          · exact .inl ⟨.inr hmem, heq⟩
          · exact .inr ⟨⟨hid, hnotin⟩, hget⟩
        · rintro (⟨rfl | hmem, heq⟩ | ⟨⟨-, hnotin⟩, hget⟩)
          · exact absurd heq.symm hid
          · exact .inl ⟨hmem, heq⟩
          · exact .inr ⟨hnotin, hget⟩
  refine (hfold tb.entries .empty h).trans (or_iff_left ?_)
  rintro ⟨-, hget⟩
  cases hget

/-- What an index of a signed trial balance says of an account: its class from the chart, and what
it has moved by. -/
structure Indexes (coa : ChartOfAccounts) (journal : List PostedEntry)
    (index : OrderedMap AccountId TrialBalanceEntry) : Prop where
  found : ∀ id e, index.get? id = some e → e.accountId = id ∧ e.signed = balanceOf id journal ∧
    ∃ a, coa.get id = some a ∧ e.accountClass = classifyByType a.type
  missing : ∀ id, index.get? id = none → id ∉ (netByAccount journal).keys

variable (localeLe currency) in
theorem indexes_signedBalance (h : Covers coa (entriesIn window journal)) :
    Indexes coa (entriesIn window journal)
      (indexById (signedBalance localeLe coa currency window journal)) := by
  have hperm : (signedBalance localeLe coa currency window journal).entries.Perm
      ((computeTrialBalance localeLe coa currency window journal).rows.map entryOfRow) :=
    perm_insertionSort ..
  have hnd : ((signedBalance localeLe coa currency window journal).entries.map
      TrialBalanceEntry.accountId).Nodup := by
    refine (hperm.map _).nodup_iff.mpr ?_
    rw [map_map]
    exact nodup_rows localeLe coa currency window journal
  constructor
  · intro id e hget
    obtain ⟨hmem, rfl⟩ := (get?_indexById hnd).mp hget
    obtain ⟨r, hr, rfl⟩ := mem_map.mp (hperm.mem_iff.mp hmem)
    obtain ⟨a, -, ha, rfl⟩ := mem_rows.mp hr
    exact ⟨rfl, position_trialBalanceRow .., a, ha, rfl⟩
  · intro id hget hkey
    obtain ⟨a, ha, hid⟩ := h.get_of_mem_keys hkey
    obtain rfl := hid
    have hmem : entryOfRow (trialBalanceRow currency
        (balanceOf a.id (entriesIn window journal)) a) ∈
        (signedBalance localeLe coa currency window journal).entries :=
      hperm.mem_iff.mpr (mem_map_of_mem (mem_rows.mpr ⟨a, hkey, ha, rfl⟩))
    cases hget.symm.trans ((get?_indexById hnd).mpr ⟨hmem, rfl⟩)

end Rgnr8.Statements
