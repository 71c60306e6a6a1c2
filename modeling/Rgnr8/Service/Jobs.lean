import Rgnr8.Lib.Javascript
import Rgnr8.Kernel.Types
import Mathlib.Data.List.Sort
import Rgnr8.Lib.Fallible

/-! Jobs, their cost codes and their budgets, as the modules that bill and cost a job read them, and
the integer arithmetic these modules share. -/

namespace Rgnr8.Service
open Lib Lib.Js Kernel Int

def jobDimension : String := "job"

def costCodeDimension : String := "cost_code"

inductive CostMethod where
  | asIncurred | capitalize
  deriving DecidableEq

inductive JobStatus where
  | estimating | active | onHold | complete | closed
  deriving DecidableEq

structure JobRecord where
  id : String
  customerId : String
  name : String
  status : JobStatus
  costMethod : CostMethod
  contractMinor : Int
  retainagePpm : Int
  revenueAccountCode : String
  deriving DecidableEq

structure CostCodeRecord where
  code : String
  name : String
  accountCode : String
  active : Bool

structure JobBudgetLine where
  costCode : String
  budgetCostMinor : Int
  revisedCostMinor : Int
  budgetRevenueMinor : Int

structure JobStore where
  costCodes : OrderedMap (TenantId × String) CostCodeRecord
  jobs : OrderedMap (TenantId × String) JobRecord
  budgets : OrderedMap (TenantId × String) (List JobBudgetLine)
  id_of_get : ∀ {t id j}, jobs.get? (t, id) = some j → j.id = id

namespace JobStore

def empty : JobStore := ⟨.empty, .empty, .empty, nofun⟩

variable (s : JobStore) (tenant : TenantId)

def listCostCodes : List CostCodeRecord :=
  (s.costCodes.filter fun key _ => key.1 = tenant).values

def saveCostCode (record : CostCodeRecord) : JobStore :=
  { s with costCodes := s.costCodes.set (tenant, record.code) record }

def getJob (id : String) : Option JobRecord :=
  s.jobs.get? (tenant, id)

def saveJob (record : JobRecord) : JobStore where
  costCodes := s.costCodes
  jobs := s.jobs.set (tenant, record.id) record
  budgets := s.budgets
  id_of_get := by
    intro t id j h
    rw [OrderedMap.get?_set] at h
    split_ifs at h with hkey
    · rw [← Option.some.inj h, (Prod.mk.inj hkey).2]
    · exact s.id_of_get h

def listBudget (jobId : String) : List JobBudgetLine :=
  (s.budgets.get? (tenant, jobId)).getD []

def saveBudget (jobId : String) (lines : List JobBudgetLine) :
    JobStore := { s with budgets := s.budgets.set (tenant, jobId) lines }

end JobStore

/-- `/^\d+$/` of a text without the white space around it, or of a number as it is spelled; nothing is
zero. -/
def digitsOnly : Option TextOrNumber → Option Int
  | none => some 0
  | some (.number n) => (integerOf n).filter fun n => 0 ≤ n ∧ n < 10 ^ 21
  | some (.text s) => match (trim s).toList with
    | [] => some 0
    | cs => (naturalIn 10 cs).map Int.ofNat

theorem digitsOnly_nonneg {raw : Option TextOrNumber} {n : Int} (h : digitsOnly raw = some n) :
    0 ≤ n := by
  unfold digitsOnly at h
  split at h
  · rw [← Option.some.inj h]
  · obtain ⟨-, hrange⟩ := Option.filter_eq_some_iff.mp h
    exact (of_decide_eq_true hrange).1
  · split at h
    · rw [← Option.some.inj h]
    · obtain ⟨m, -, rfl⟩ := Option.map_eq_some_iff.mp h
      exact natCast_nonneg _

def million : Int := 1000000

/-- `a × b ÷ d`, rounded half away from zero. -/
def mulDiv (a b d : Int) : Int :=
  if a * b < 0 then -((-(a * b) + d / 2) / d) else (a * b + d / 2) / d

theorem mulDiv_nonneg {a b d : Int} (ha : 0 ≤ a) (hb : 0 ≤ b) (hd : 0 < d) : 0 ≤ mulDiv a b d := by
  have hprod : 0 ≤ a * b := mul_nonneg ha hb
  unfold mulDiv
  rw [if_neg (not_lt.mpr hprod)]
  exact ediv_nonneg (add_nonneg hprod (ediv_nonneg (le_of_lt hd) (by decide)))
    (le_of_lt hd)

theorem mulDiv_le {a b d : Int} (ha : 0 ≤ a) (hb : 0 ≤ b) (hle : b ≤ d) (hd : 0 < d) :
    mulDiv a b d ≤ a := by
  have hprod : 0 ≤ a * b := mul_nonneg ha hb
  unfold mulDiv
  rw [if_neg (not_lt.mpr hprod)]
  refine Int.lt_add_one_iff.mp (Int.ediv_lt_of_lt_mul hd ?_)
  have hshare : a * b ≤ a * d := Int.mul_le_mul_of_nonneg_left hle ha
  have hexp : (a + 1) * d = a * d + d := by rw [add_mul, one_mul]
  omega

end Rgnr8.Service

/-! The budget of a job: one line for each cost code, replaced as a whole. -/

namespace Rgnr8.Service.JobBudgets
open Lib Lib.Js Fallible

structure BudgetLineInput where
  costCode : Option String
  budgetCostMinor : Option TextOrNumber
  revisedCostMinor : Option TextOrNumber
  budgetRevenueMinor : Option TextOrNumber

def requireMinor (raw : Option TextOrNumber) (label : String) : Except String Int :=
  match wholeNumber raw, digitsOnly raw with
  | none, _ => .error s!"{label} must be a whole number of minor units"
  | some _, none => .error s!"{label} cannot be negative"
  | some _, some n => .ok n

def codeOf (raw : Option String) : String := toUpperCase (trim (raw.getD ""))

def shownCode (costCode : String) : String := if costCode = "" then "(none)" else costCode

variable (existing : OrderedMap String JobBudgetLine)

def everRevised (costCode : String) : Option Int :=
  ((existing.get? costCode).filter fun prior => prior.revisedCostMinor ≠ prior.budgetCostMinor).map
    JobBudgetLine.revisedCostMinor

def revisedOf (costCode : String) (raw : Option TextOrNumber) (budget : Int) : Except String Int :=
  if raw = none ∨ raw = some (.text "") then .ok ((everRevised existing costCode).getD budget)
  else requireMinor raw s!"{costCode} revised estimate"

def budgetLine (codes : List String) (existing : OrderedMap String JobBudgetLine)
    (seen : List String) (raw : BudgetLineInput) : Except String JobBudgetLine := do
  let costCode := codeOf raw.costCode
  refuse (costCode ∉ codes) s!"unknown cost code {shownCode costCode}"
  refuse (costCode ∈ seen) s!"cost code {costCode} appears twice"
  let budget ← requireMinor raw.budgetCostMinor s!"{costCode} budget"
  let revised ← revisedOf existing costCode raw.revisedCostMinor budget
  let revenue ← requireMinor raw.budgetRevenueMinor s!"{costCode} expected revenue"
  return ⟨costCode, budget, revised, revenue⟩

def budgetLines (codes : List String) (existing : OrderedMap String JobBudgetLine) :
    List String → List BudgetLineInput → Except String (List JobBudgetLine)
  | _, [] => return []
  | seen, raw :: raws => do
    let line ← budgetLine codes existing seen raw
    let rest ← budgetLines codes existing (line.costCode :: seen) raws
    return line :: rest

def byCode (lines : List JobBudgetLine) : OrderedMap String JobBudgetLine :=
  lines.foldl (fun m l => m.set l.costCode l) .empty

/-- What `saveJobBudget` writes for the lines typed. -/
def newBudget (localeLe : String → String → Bool) (codes : List String)
    (existing : List JobBudgetLine) (raws : List BudgetLineInput) :
    Except String (List JobBudgetLine) := do
  let lines ← budgetLines codes (byCode existing) [] raws
  return lines.insertionSort fun a b => localeLe a.costCode b.costCode = true

/-! What a budget that has been saved comes to under each cost code. -/

/-- A code as a budget keeps it. -/
def Normal (code : String) : Prop := codeOf (some code) = code

structure WellKept (lines : List JobBudgetLine) : Prop where
  nodup : (lines.map JobBudgetLine.costCode).Nodup
  normal : ∀ l ∈ lines, Normal l.costCode

def budgetOn (code : String) (lines : List JobBudgetLine) : Int :=
  ((lines.filter fun l => l.costCode = code).map JobBudgetLine.budgetCostMinor).sum

variable {ls : List JobBudgetLine} {codes : List String} {code : String}

end Rgnr8.Service.JobBudgets
