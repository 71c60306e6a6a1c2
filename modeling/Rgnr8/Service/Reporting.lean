import Mathlib.Data.List.Sort
import Rgnr8.Kernel.Chart
import Rgnr8.Kernel.Money

/-! Budgets: the lines an owner saves for a period, by account code, and what the budget report
counts of them, by account. -/

namespace Rgnr8.Service.Reporting
open Lib Lib.Js Fallible Kernel

structure BudgetLineRecord where
  period : String
  accountCode : String
  amountMinor : Int

structure BudgetStore where
  lines : OrderedMap (TenantId × String × String) Int

namespace BudgetStore

def empty : BudgetStore := ⟨.empty⟩

variable (s : BudgetStore)

def lineOf (tenant : TenantId) (period accountCode : String) : Option Int :=
  s.lines.get? (tenant, period, accountCode)

def listBudget (localeLe : String → String → Bool) (tenant : TenantId) (period : String) :
    List BudgetLineRecord :=
  ((s.lines.filter fun key _ => key.1 = tenant ∧ key.2.1 = period).entries.map fun e =>
    BudgetLineRecord.mk e.1.2.1 e.1.2.2 e.2).insertionSort
      fun a b => localeLe a.accountCode b.accountCode = true

def saveBudget (tenant : TenantId) (lines : List BudgetLineRecord) : BudgetStore :=
  ⟨lines.foldl (fun m l => m.set (tenant, l.period, l.accountCode) l.amountMinor) s.lines⟩

end BudgetStore

/-- `/^\d{4}-\d{2}$/` -/
def isPeriod (s : String) : Bool :=
  match s.toList with
  | [a, b, c, d, '-', e, f] => [a, b, c, d, e, f].all Char.isDigit
  | _ => false

def requirePeriod (raw : Option String) : Except String String :=
  let period := trim (raw.getD "")
  if ¬ isPeriod period then .error "period must be YYYY-MM" else .ok period

structure BudgetInputLine where
  accountCode : Option String
  amountMinor : Option String

structure BudgetInput where
  period : Option String
  lines : List BudgetInputLine

variable (chart : ChartOfAccounts)

def budgetLine (period : String) (l : BudgetInputLine) : Except String BudgetLineRecord :=
  let code := trim (l.accountCode.getD "")
  if (chart.getByCode code).isNone then .error s!"unknown account code {code}"
  else match Money.integerText (l.amountMinor.getD "") with
    | none => .error s!"{code}: amount must be an integer minor-unit value"
    | some amount => .ok ⟨period, code, amount⟩

structure BudgetSaved where
  period : String
  saved : Nat

def saveBudgetLines (tenant : TenantId) (chart : ChartOfAccounts) (budgets : BudgetStore)
    (input : BudgetInput) : Except String (BudgetSaved × BudgetStore) := do
  let period ← requirePeriod input.period
  refuse (input.lines = []) "a budget needs at least one line"
  let lines ← input.lines.mapM (budgetLine chart period)
  return (⟨period, lines.length⟩, budgets.saveBudget tenant lines)

structure CountedBudget where
  budget : OrderedMap AccountId Money
  missing : List String

def countLine (currency : Currency) (c : CountedBudget) (l : BudgetLineRecord) : CountedBudget :=
  match chart.getByCode l.accountCode with
  | none => { c with missing := c.missing ++ [l.accountCode] }
  | some account => { c with budget := c.budget.set account.id ⟨l.amountMinor, currency⟩ }

def countedBudget (currency : Currency) (stored : List BudgetLineRecord) : CountedBudget :=
  stored.foldl (countLine chart currency) ⟨.empty, []⟩

/-! What is counted for an account is the line under its code. -/

section
variable {s : BudgetStore} {chart : ChartOfAccounts} {currency : Currency} {account : Account}
variable {localeLe : String → String → Bool} {tenant : TenantId} {period : String}

theorem mem_listBudget {l : BudgetLineRecord} : l ∈ s.listBudget localeLe tenant period ↔
    l.period = period ∧ s.lineOf tenant period l.accountCode = some l.amountMinor := by
  unfold BudgetStore.listBudget BudgetStore.lineOf
  rw [List.mem_insertionSort, List.mem_map, ← OrderedMap.mem_entries]
  constructor
  · rintro ⟨⟨⟨t, p, code⟩, amount⟩, he, rfl⟩
    obtain ⟨hmem, hkey⟩ := List.mem_filter.mp he
    obtain ⟨rfl, rfl⟩ := of_decide_eq_true hkey
    exact ⟨rfl, hmem⟩
  · rintro ⟨rfl, hmem⟩
    exact ⟨_, List.mem_filter.mpr ⟨hmem, decide_eq_true ⟨rfl, rfl⟩⟩, rfl⟩

theorem get?_foldl_countLine (hcode : chart.getByCode account.code = some account) {n : Int}
    (lines : List BudgetLineRecord)
    (h : ∀ l ∈ lines, l.accountCode = account.code → l.amountMinor = n) (c : CountedBudget) :
    (lines.foldl (countLine chart currency) c).budget.get? account.id =
      if ∃ l ∈ lines, l.accountCode = account.code then some ⟨n, currency⟩
      else c.budget.get? account.id := by
  induction lines generalizing c with
  | nil => simp
  | cons l lines ih =>
    rw [List.forall_mem_cons] at h
    rw [List.foldl_cons, ih h.2]
    by_cases hrest : ∃ l ∈ lines, l.accountCode = account.code
    · obtain ⟨l', hl', hcode'⟩ := hrest
      rw [if_pos ⟨l', hl', hcode'⟩, if_pos ⟨l', List.mem_cons_of_mem _ hl', hcode'⟩]
    · rw [if_neg hrest]
      have hstep : (countLine chart currency c l).budget.get? account.id =
          if l.accountCode = account.code then some ⟨n, currency⟩
          else c.budget.get? account.id := by
        unfold countLine
        by_cases hl : l.accountCode = account.code
        · rw [hl, hcode, if_pos rfl, h.1 hl]
          exact OrderedMap.get?_set_self ..
        · rw [if_neg hl]
          cases hget : chart.getByCode l.accountCode with
          | none => rfl
          | some other =>
            refine OrderedMap.get?_set_ne _ _ fun hid => hl ?_
            exact ((ChartOfAccounts.id_eq_of_getByCode hcode hget).mp hid).symm
      rw [hstep]
      simp only [List.mem_cons, exists_eq_or_imp, hrest, or_false]

theorem budget_of_account (hcode : chart.getByCode account.code = some account) :
    (countedBudget chart currency (s.listBudget localeLe tenant period)).budget.get? account.id =
      (s.lineOf tenant period account.code).map fun n => ⟨n, currency⟩ := by
  unfold countedBudget
  cases hline : s.lineOf tenant period account.code with
  | none =>
    rw [get?_foldl_countLine hcode (n := 0)]
    · rw [if_neg]
      · rfl
      · rintro ⟨l, hl, heq⟩
        have hl := (mem_listBudget.mp hl).2
        rw [heq, hline] at hl
        cases hl
    · intro l hl heq
      have hl := (mem_listBudget.mp hl).2
      rw [heq, hline] at hl
      cases hl
  | some n =>
    rw [get?_foldl_countLine hcode (n := n)]
    · rw [if_pos]
      · rfl
      · exact ⟨⟨period, account.code, n⟩, mem_listBudget.mpr ⟨rfl, hline⟩, rfl⟩
    · intro l hl heq
      have hl := (mem_listBudget.mp hl).2
      rw [heq, hline] at hl
      exact (Option.some.inj hl).symm

theorem lineOf_saveBudgetLines {input : BudgetInput} {r : BudgetSaved × BudgetStore}
    (h : saveBudgetLines tenant chart s input = .ok r) {t : TenantId} {p code : String}
    (hcode : chart.getByCode code = none) : r.2.lineOf t p code = s.lineOf t p code := by
  simp only [saveBudgetLines, bind_eq_ok] at h
  obtain ⟨period, -, -, -, lines, hlines, h⟩ := h
  rw [← Except.ok.inj h]
  have hcodes : ∀ l ∈ lines, l.accountCode ≠ code := by
    rintro l hl rfl
    obtain ⟨i, -, hi⟩ := exists_of_forall₂ (mapM_eq_ok.mp hlines) hl
    unfold budgetLine at hi
    rw [refuse_eq_ok] at hi
    obtain ⟨hknown, hi⟩ := hi
    cases hamt : Money.integerText (i.amountMinor.getD "") with
    | none =>
      rw [hamt] at hi
      cases hi
    | some amount =>
      rw [hamt] at hi
      rw [← Except.ok.inj hi] at hcode
      exact hknown (Option.isNone_iff_eq_none.mpr hcode)
  clear hlines h
  unfold BudgetStore.saveBudget BudgetStore.lineOf
  generalize s.lines = m
  induction lines generalizing m with
  | nil => rfl
  | cons l lines ih =>
    rw [List.forall_mem_cons] at hcodes
    refine (ih hcodes.2 _).trans (OrderedMap.get?_set_ne _ _ fun heq => hcodes.1 ?_)
    exact (congrArg (fun k => k.2.2) heq).symm

end
end Rgnr8.Service.Reporting
