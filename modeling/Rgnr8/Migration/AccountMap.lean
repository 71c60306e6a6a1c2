import Rgnr8.Kernel.Chart
import Rgnr8.Lib.Javascript

/-! An export of QuickBooks, and the kernel's chart of its accounts. -/

namespace Rgnr8.Migration
open Lib Lib.Js Kernel

inductive QboAccountType where
  | bank | accountsReceivable | otherCurrentAsset | fixedAsset | otherAsset
  | accountsPayable | creditCard | otherCurrentLiability | longTermLiability
  | equity
  | income | otherIncome
  | costOfGoodsSold | expense | otherExpense
  deriving DecidableEq

structure QboAccount where
  name : String
  acctNum : Option String
  type : QboAccountType

structure QboJournalLine where
  account : String
  debit : Option String
  credit : Option String
  memo : Option String

structure QboJournalEntry where
  id : String
  date : String
  lines : List QboJournalLine
  memo : Option String

structure QboTrialBalanceRow where
  account : String
  debit : Option String
  credit : Option String

structure QboExport where
  accounts : List QboAccount
  entries : List QboJournalEntry
  reportedTrialBalance : Option (List QboTrialBalanceRow)

def mapQboType : QboAccountType → AccountType
  | .bank | .accountsReceivable | .otherCurrentAsset | .fixedAsset | .otherAsset => .asset
  | .accountsPayable | .creditCard | .otherCurrentLiability | .longTermLiability => .liability
  | .equity => .equity
  | .income | .otherIncome => .revenue
  | .costOfGoodsSold | .expense | .otherExpense => .expense

structure QboChart where
  coa : ChartOfAccounts
  /-- The account that a name stands for on a line. -/
  byName : OrderedMap String AccountId

/-- `[^a-z0-9]+` is a hyphen, and hyphens go from both ends. -/
def slug (lowerCase : String → String) (name : String) : String :=
  let hyphened := (lowerCase name).toList.foldr (fun c cs =>
    if c.isLower ∨ c.isDigit then c :: cs
    else match cs with
      | '-' :: _ => cs
      | _ => '-' :: cs) []
  String.ofList ((hyphened.dropWhile (· = '-')).reverse.dropWhile (· = '-')).reverse

/-- `code` with `-n`, `-(n+1)` and so on after it until it is free, in as many rounds as are given. -/
def freeCode (used : List String) : (rounds : Nat) → String → (n : Nat) → String
  | 0, code, _ => code
  | rounds + 1, code, n =>
    if code ∈ used then freeCode used rounds (code ++ "-" ++ toString n) (n + 1) else code

theorem freeCode_not_mem {used : List String} {rounds : Nat} {code : String} (n : Nat)
    (h : (used.filter fun u => code.length ≤ u.length).length ≤ rounds) :
    freeCode used rounds code n ∉ used := by
  induction rounds generalizing code n with
  | zero =>
    intro hmem
    have hin : code ∈ used.filter fun u => code.length ≤ u.length :=
      List.mem_filter.mpr ⟨hmem, decide_eq_true le_rfl⟩
    rw [Nat.le_zero, List.length_eq_zero_iff] at h
    rw [h] at hin
    cases hin
  | succ rounds ih =>
    unfold freeCode
    split_ifs with hmem
    · refine ih _ (Nat.le_of_lt_succ (lt_of_lt_of_le ?_ h))
      have hlon : code.length < (code ++ "-" ++ toString n).length := by
        rw [String.length_append, String.length_append]
        have hhyp : "-".length = 1 := rfl
        omega
      have hin : code ∈ used.filter fun u => code.length ≤ u.length :=
        List.mem_filter.mpr ⟨hmem, decide_eq_true le_rfl⟩
      have hsub : used.filter (fun u => (code ++ "-" ++ toString n).length ≤ u.length) =
          (used.filter fun u => code.length ≤ u.length).filter
            fun u => (code ++ "-" ++ toString n).length ≤ u.length := by
        rw [List.filter_filter]
        refine List.filter_congr fun u _ => ?_
        rw [Bool.eq_iff_iff, Bool.and_eq_true, decide_eq_true_iff, decide_eq_true_iff]
        omega
      rw [hsub]
      refine List.length_filter_lt_length_iff_exists.mpr ⟨code, hin, ?_⟩
      rw [decide_eq_true_iff]
      omega
    · exact hmem

section
-- `String.prototype.toLowerCase`
variable (lowerCase : String → String) (currency : Currency)

def codeOf (used : List String) (a : QboAccount) : String :=
  let code := ((a.acctNum.map trim).filter (· ≠ "")).getD (slug lowerCase a.name)
  let code := if code ∈ used then code ++ "-" ++ lowerCase (mapQboType a.type).text else code
  freeCode used used.length code 2

def addQboAccount (chart : QboChart) (usedCodes : List String) (a : QboAccount) :
    Except String (QboChart × List String) := do
  let code := codeOf lowerCase usedCodes a
  let id := "qbo:" ++ code
  let coa ← chart.coa.add {
    id := id
    code := code
    name := a.name
    type := mapQboType a.type
    currency := currency
    parentId := none
    subtype := none
    active := none
    origin := none }
  return (⟨coa, chart.byName.set a.name id⟩, code :: usedCodes)

def addQboAccounts : QboChart → List String → List QboAccount → Except String QboChart
  | chart, _, [] => .ok chart
  | chart, usedCodes, a :: accounts => do
    let (chart, usedCodes) ← addQboAccount lowerCase currency chart usedCodes a
    addQboAccounts chart usedCodes accounts

def buildChartFromQbo (accounts : List QboAccount) : Except String QboChart :=
  addQboAccounts lowerCase currency ⟨.empty, .empty⟩ [] accounts

end

/-- What a chart is like while it is built: ids are made of the codes in use, and a name stands for an
account of that name. -/
structure Charted (currency : Currency) (chart : QboChart) (usedCodes : List String) : Prop where
  ids : ∀ id a, chart.coa.get id = some a →
    a.id = "qbo:" ++ a.code ∧ a.code ∈ usedCodes ∧ a.currency = currency ∧ a.active ≠ some false
  names : ∀ name id, chart.byName.get? name = some id → ∃ a, chart.coa.get id = some a ∧ a.name = name

section
variable (lowerCase : String → String) {currency : Currency} {chart : QboChart}
variable {usedCodes : List String}

theorem codeOf_not_mem (used : List String) (a : QboAccount) : codeOf lowerCase used a ∉ used :=
  freeCode_not_mem 2 (List.length_filter_le _ _)

theorem Charted.add (h : Charted currency chart usedCodes) (a : QboAccount) :
    ∃ chart' usedCodes', addQboAccount lowerCase currency chart usedCodes a =
      .ok (chart', usedCodes') ∧ Charted currency chart' usedCodes' := by
  have hcode := codeOf_not_mem lowerCase usedCodes a
  unfold addQboAccount
  generalize codeOf lowerCase usedCodes a = code at hcode
  have hid : chart.coa.byId.get? ("qbo:" ++ code) = none := by
    refine Option.eq_none_iff_forall_not_mem.mpr fun b hb => hcode ?_
    obtain ⟨hmade, hused, -⟩ := h.ids _ b hb
    have hsame : "qbo:" ++ code = "qbo:" ++ b.code := (chart.coa.id_of_get hb).1.symm.trans hmade
    rwa [(String.append_right_inj _).mp hsame]
  have hfree : chart.coa.byCode.get? code = none := by
    refine Option.eq_none_iff_forall_not_mem.mpr fun b hb => hcode ?_
    obtain ⟨hbcode, hb⟩ := chart.coa.code_of_get hb
    rw [← hbcode]
    exact (h.ids _ b hb).2.1
  let account : Account := ⟨"qbo:" ++ code, code, a.name, mapQboType a.type, currency, none, none,
    none, none⟩
  have hadd : chart.coa.add account = .ok (chart.coa.insertNew account hid hfree) := by
    unfold ChartOfAccounts.add
    rw [dif_pos hid, dif_pos hfree]
    rfl
  dsimp only
  rw [hadd]
  refine ⟨_, _, rfl, ?_, ?_⟩
  · intro id b hb
    have hb : (chart.coa.byId.set _ _).get? id = some b := hb
    rw [OrderedMap.get?_set] at hb
    split_ifs at hb with hnew
    · rw [← Option.some.inj hb]
      exact ⟨rfl, List.mem_cons_self, rfl, nofun⟩
    · obtain ⟨hmade, hused, hccy, hactive⟩ := h.ids id b hb
      exact ⟨hmade, List.mem_cons_of_mem _ hused, hccy, hactive⟩
  · intro name id hname
    have hname : (chart.byName.set a.name ("qbo:" ++ code)).get? name = some id := hname
    rw [OrderedMap.get?_set] at hname
    split_ifs at hname with hsame
    · rw [← Option.some.inj hname, hsame]
      exact ⟨_, OrderedMap.get?_set_self .., rfl⟩
    · obtain ⟨b, hb, hbname⟩ := h.names name id hname
      have hne : id ≠ "qbo:" ++ code := by
        rintro rfl
        cases hid.symm.trans hb
      exact ⟨b, (OrderedMap.get?_set_ne _ _ hne).trans hb, hbname⟩

theorem Charted.addAll (h : Charted currency chart usedCodes) (accounts : List QboAccount) :
    ∃ chart' usedCodes', addQboAccounts lowerCase currency chart usedCodes accounts = .ok chart' ∧
      Charted currency chart' usedCodes' := by
  induction accounts generalizing chart usedCodes with
  | nil => exact ⟨chart, usedCodes, rfl, h⟩
  | cons a accounts ih =>
    obtain ⟨chart', usedCodes', hadd, h'⟩ := h.add lowerCase a
    obtain ⟨chart'', usedCodes'', hall, h''⟩ := ih h'
    refine ⟨chart'', usedCodes'', ?_, h''⟩
    unfold addQboAccounts
    rw [hadd]
    exact hall

theorem exists_chart (currency : Currency) (accounts : List QboAccount) :
    ∃ chart usedCodes, buildChartFromQbo lowerCase currency accounts = .ok chart ∧
      Charted currency chart usedCodes :=
  Charted.addAll lowerCase ⟨fun _ _ h => absurd h (Option.not_mem_none _), fun _ _ h =>
    absurd h (Option.not_mem_none _)⟩ accounts

end

end Rgnr8.Migration
