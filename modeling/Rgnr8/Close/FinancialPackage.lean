import Rgnr8.Kernel.Fingerprint
import Rgnr8.Lib.Javascript
import Rgnr8.Lib.Sha256

/-! The financial package of a closed period: its numbers frozen under a fingerprint, with a signing
envelope that the fingerprint does not cover. -/

namespace Rgnr8.Close
open Lib Lib.Js Lib.Fallible Kernel

def financialPackageVersion : String := "financial-package/1"

def fingerprintAlgorithm : String := "sha256"

structure PackagedTrialBalanceRow where
  code : String
  name : String
  debitMinor : String
  creditMinor : String

structure PackagedTrialBalance where
  rows : List PackagedTrialBalanceRow
  totalDebitMinor : String
  totalCreditMinor : String
  inBalance : Bool

structure PackagedStatementLine where
  code : String
  name : String
  amountMinor : String

structure PackagedIncomeStatement where
  revenueMinor : String
  expensesMinor : String
  netIncomeMinor : String
  revenueLines : Option (List PackagedStatementLine)
  expenseLines : Option (List PackagedStatementLine)

structure PackagedBalanceSheet where
  totalAssetsMinor : String
  totalLiabilitiesAndEquityMinor : String
  netIncomeMinor : String
  balances : Bool
  assetLines : Option (List PackagedStatementLine)
  liabilityLines : Option (List PackagedStatementLine)
  equityLines : Option (List PackagedStatementLine)

structure PackagedQboReconciliation where
  inAgreement : Bool
  totalAbsDeltaMinor : String
  mismatchCount : Nat
  onlyInRgnr8Count : Nat
  onlyInQboCount : Nat

structure FinancialPackageInput where
  periodKey : PeriodKey
  currency : String
  trialBalance : PackagedTrialBalance
  incomeStatement : PackagedIncomeStatement
  balanceSheet : PackagedBalanceSheet
  qboReconciliation : Option PackagedQboReconciliation

structure FinancialPackageContent extends FinancialPackageInput where
  version : String

structure FinancialPackage extends FinancialPackageContent where
  closedBy : String
  closedAt : String
  packagedAt : String
  algorithm : String
  fingerprint : String

structure PackageMeta where
  closedBy : String
  closedAt : String
  packagedAt : String

/-! The canonical serialization, as characters. -/

def canonicalText (s : String) : List Char := '"' :: s.toList.flatMap jsonChar ++ ['"']

def canonicalBool (b : Bool) : List Char :=
  if b then ['t', 'r', 'u', 'e'] else ['f', 'a', 'l', 's', 'e']

def canonicalArray (items : List (List Char)) : List Char :=
  '[' :: [','].intercalate items ++ [']']

def canonicalObject (members : List (String × List Char)) : List Char :=
  let sorted := members.insertionSort fun a b => utf16 a.1 ≤ utf16 b.1
  '\x7b' :: [','].intercalate (sorted.map fun m => canonicalText m.1 ++ ':' :: m.2) ++ ['\x7d']

def optionalMember (name : String) (value : Option (List Char)) : List (String × List Char) :=
  value.toList.map (name, ·)

def canonicalRow (r : PackagedTrialBalanceRow) : List Char :=
  canonicalObject [("code", canonicalText r.code), ("name", canonicalText r.name),
    ("debitMinor", canonicalText r.debitMinor), ("creditMinor", canonicalText r.creditMinor)]

def canonicalTrialBalance (tb : PackagedTrialBalance) : List Char :=
  canonicalObject [("rows", canonicalArray (tb.rows.map canonicalRow)),
    ("totalDebitMinor", canonicalText tb.totalDebitMinor),
    ("totalCreditMinor", canonicalText tb.totalCreditMinor),
    ("inBalance", canonicalBool tb.inBalance)]

def canonicalLines (lines : List PackagedStatementLine) : List Char :=
  canonicalArray (lines.map fun l => canonicalObject [("code", canonicalText l.code),
    ("name", canonicalText l.name), ("amountMinor", canonicalText l.amountMinor)])

def canonicalIncomeStatement (income : PackagedIncomeStatement) : List Char :=
  canonicalObject ([("revenueMinor", canonicalText income.revenueMinor),
    ("expensesMinor", canonicalText income.expensesMinor),
    ("netIncomeMinor", canonicalText income.netIncomeMinor)] ++
      optionalMember "revenueLines" (income.revenueLines.map canonicalLines) ++
      optionalMember "expenseLines" (income.expenseLines.map canonicalLines))

def canonicalBalanceSheet (bs : PackagedBalanceSheet) : List Char :=
  canonicalObject ([("totalAssetsMinor", canonicalText bs.totalAssetsMinor),
    ("totalLiabilitiesAndEquityMinor", canonicalText bs.totalLiabilitiesAndEquityMinor),
    ("netIncomeMinor", canonicalText bs.netIncomeMinor), ("balances", canonicalBool bs.balances)] ++
      optionalMember "assetLines" (bs.assetLines.map canonicalLines) ++
      optionalMember "liabilityLines" (bs.liabilityLines.map canonicalLines) ++
      optionalMember "equityLines" (bs.equityLines.map canonicalLines))

def canonicalQboReconciliation (qbo : PackagedQboReconciliation) : List Char :=
  canonicalObject [("inAgreement", canonicalBool qbo.inAgreement),
    ("totalAbsDeltaMinor", canonicalText qbo.totalAbsDeltaMinor),
    ("mismatchCount", Nat.toDigits 10 qbo.mismatchCount),
    ("onlyInRgnr8Count", Nat.toDigits 10 qbo.onlyInRgnr8Count),
    ("onlyInQboCount", Nat.toDigits 10 qbo.onlyInQboCount)]

def canonicalize (content : FinancialPackageContent) : List Char :=
  canonicalObject ([("version", canonicalText content.version),
    ("periodKey", canonicalText content.periodKey), ("currency", canonicalText content.currency),
    ("trialBalance", canonicalTrialBalance content.trialBalance),
    ("incomeStatement", canonicalIncomeStatement content.incomeStatement),
    ("balanceSheet", canonicalBalanceSheet content.balanceSheet)] ++
      optionalMember "qboReconciliation"
        (content.qboReconciliation.map canonicalQboReconciliation))

def fingerprintContent (content : FinancialPackageContent) : String :=
  Sha256.hex (canonicalize content)

variable (input : FinancialPackageInput)

def validatePackageContent : List String :=
  (if input.trialBalance.inBalance then [] else ["trial balance does not balance"]) ++
    (if input.balanceSheet.balances then [] else ["balance sheet does not balance"]) ++
    if input.qboReconciliation.any (fun qbo => !qbo.inAgreement) then
      ["QBO reconciliation is not in agreement"] else []

inductive PackageError where
  | integrity (periodKey : PeriodKey) (expected actual : String)
  | unbalanced (reasons : List String)
  | published (tenantId : TenantId) (periodKey : PeriodKey)
  deriving DecidableEq

def PackageError.message : PackageError → String
  | integrity period expected actual =>
    s!"financial package for {period} failed verification (expected {expected}, got {actual})"
  | unbalanced reasons =>
    "refusing to seal an invalid financial package: " ++ "; ".intercalate reasons
  | published tenant period => s!"a different financial package is already published for " ++
      s!"{tenant} {period}; a sealed period's record is immutable"

def contentOf : FinancialPackageContent :=
  { input with version := financialPackageVersion }

def buildFinancialPackage (envelope : PackageMeta) (allowUnbalanced : Bool) :
    Except PackageError FinancialPackage := do
  let reasons := validatePackageContent input
  refuse (reasons ≠ [] ∧ ¬ allowUnbalanced) (.unbalanced reasons)
  return { contentOf input with
    closedBy := envelope.closedBy
    closedAt := envelope.closedAt
    packagedAt := envelope.packagedAt
    algorithm := fingerprintAlgorithm
    fingerprint := fingerprintContent (contentOf input) }

structure VerificationResult where
  valid : Bool
  expected : String
  actual : String

def verifyFinancialPackage (pkg : FinancialPackage) : VerificationResult :=
  let actual := fingerprintContent pkg.toFinancialPackageContent
  ⟨actual = pkg.fingerprint, pkg.fingerprint, actual⟩

theorem buildFinancialPackage_eq_ok {input : FinancialPackageInput} {envelope : PackageMeta}
    {allowUnbalanced : Bool} {pkg : FinancialPackage}
    (h : buildFinancialPackage input envelope allowUnbalanced = .ok pkg) :
    pkg.toFinancialPackageContent = contentOf input ∧
      pkg.fingerprint = fingerprintContent (contentOf input) ∧ pkg.closedBy = envelope.closedBy := by
  unfold buildFinancialPackage at h
  have hpkg := Except.ok.inj (refuse_bind_eq_ok.mp h).2
  rw [← hpkg]
  exact ⟨rfl, rfl, rfl⟩

/-! The stores of sealed packages. A package is checked on the way in and a different one for the
same period is refused; packages with one fingerprint count as the same package. -/

def assertIntact (pkg : FinancialPackage) : Except PackageError Unit := do
  let v := verifyFinancialPackage pkg
  refuse (v.valid = false) (.integrity pkg.periodKey v.expected v.actual)
  let reasons := validatePackageContent pkg.toFinancialPackageInput
  refuse (reasons ≠ []) (.unbalanced reasons)

def Fits (held : Option FinancialPackage) (pkg : FinancialPackage) : Prop :=
  ∀ p, held = some p → p.fingerprint = pkg.fingerprint

theorem fits_none (pkg : FinancialPackage) : Fits none pkg := fun _ h => nomatch h

theorem fits_some_iff {p pkg : FinancialPackage} :
    Fits (some p) pkg ↔ p.fingerprint = pkg.fingerprint := by
  constructor
  · exact fun h => h p rfl
  · intro h q hq
    rwa [← Option.some.inj hq]

instance : (held : Option FinancialPackage) → (pkg : FinancialPackage) → Decidable (Fits held pkg)
  | none, pkg => isTrue (fits_none pkg)
  | some p, pkg => decidable_of_iff' (p.fingerprint = pkg.fingerprint) fits_some_iff

/-- A package store, and what its callers may rely on: which saves are refused, and what a save
leaves under its own key and under all others. -/
class PackageStore (τ : Type) where
  held : τ → TenantId → PeriodKey → Option FinancialPackage
  save : τ → TenantId → FinancialPackage → Except PackageError τ
  save_of_broken : ∀ s t pkg e, assertIntact pkg = .error e → save s t pkg = .error e
  save_of_other : ∀ s t pkg, assertIntact pkg = .ok () → ¬ Fits (held s t pkg.periodKey) pkg →
    save s t pkg = .error (.published t pkg.periodKey)
  save_of_fits : ∀ s t pkg, assertIntact pkg = .ok () → Fits (held s t pkg.periodKey) pkg →
    ∃ s' kept, save s t pkg = .ok s' ∧ kept.fingerprint = pkg.fingerprint ∧
      (held s t pkg.periodKey = none → kept = pkg) ∧
      ∀ t' p', held s' t' p' = if (t', p') = (t, pkg.periodKey) then some kept else held s t' p'

def PackageStore.get {τ : Type} [PackageStore τ] (s : τ) (tenant : TenantId) (period : PeriodKey) :
    Except PackageError (Option FinancialPackage) :=
  match held s tenant period with
  | none => .ok none
  | some pkg => (assertIntact pkg).map fun _ => some pkg

structure InMemoryPackageStore where
  byPeriod : OrderedMap (TenantId × PeriodKey) FinancialPackage

namespace InMemoryPackageStore

def empty : InMemoryPackageStore := ⟨.empty⟩

variable (s : InMemoryPackageStore) (tenant : TenantId)

def held (period : PeriodKey) : Option FinancialPackage := s.byPeriod.get? (tenant, period)

def save (pkg : FinancialPackage) : Except PackageError InMemoryPackageStore := do
  assertIntact pkg
  match s.held tenant pkg.periodKey with
  | some existing =>
    if existing.fingerprint ≠ pkg.fingerprint then .error (.published tenant pkg.periodKey)
    else .ok ⟨s.byPeriod.set (tenant, pkg.periodKey) pkg⟩
  | none => .ok ⟨s.byPeriod.set (tenant, pkg.periodKey) pkg⟩

theorem save_of_ok {pkg : FinancialPackage} (h : assertIntact pkg = .ok ()) : s.save tenant pkg =
      if Fits (s.held tenant pkg.periodKey) pkg then
        .ok ⟨s.byPeriod.set (tenant, pkg.periodKey) pkg⟩
      else .error (.published tenant pkg.periodKey) := by
  unfold save
  rw [h]
  cases hheld : s.held tenant pkg.periodKey with
  | none => exact (if_pos (fits_none pkg)).symm
  | some existing =>
    simp only [fits_some_iff]
    exact ite_not ..

end InMemoryPackageStore

instance : PackageStore InMemoryPackageStore where
  held := InMemoryPackageStore.held
  save := InMemoryPackageStore.save
  save_of_broken s t pkg e h := by
    unfold InMemoryPackageStore.save
    rw [h]
    rfl
  save_of_other s t pkg h hno := by rw [s.save_of_ok t h, if_neg hno]
  save_of_fits s t pkg h hfits :=
    ⟨_, pkg, (s.save_of_ok t h).trans (if_pos hfits), rfl, fun _ => rfl,
      fun _ _ => OrderedMap.get?_set ..⟩

/-- A row of `financial_package`: the fingerprint has a column of its own, written with the
package. -/
structure PackageRow where
  package : FinancialPackage
  fingerprint : String
  written : fingerprint = package.fingerprint

structure SqlPackageStore where
  rows : OrderedMap (TenantId × PeriodKey) PackageRow

namespace SqlPackageStore

def empty : SqlPackageStore := ⟨.empty⟩

variable (s : SqlPackageStore) (tenant : TenantId)

def row (period : PeriodKey) : Option PackageRow :=
  s.rows.get? (tenant, period)

def held (period : PeriodKey) :
    Option FinancialPackage := (s.row tenant period).map PackageRow.package

/-- The same package over again is not written: the first one stays, with its envelope. -/
def save (pkg : FinancialPackage) : Except PackageError SqlPackageStore := do
  assertIntact pkg
  match s.row tenant pkg.periodKey with
  | some row =>
    if row.fingerprint ≠ pkg.fingerprint then .error (.published tenant pkg.periodKey) else .ok s
  | none => .ok ⟨s.rows.set (tenant, pkg.periodKey) ⟨pkg, pkg.fingerprint, rfl⟩⟩

end SqlPackageStore

instance : PackageStore SqlPackageStore where
  held := SqlPackageStore.held
  save := SqlPackageStore.save
  save_of_broken s t pkg e h := by
    unfold SqlPackageStore.save
    rw [h]
    rfl
  save_of_other s t pkg h hno := by
    unfold SqlPackageStore.save
    rw [h]
    cases hrow : s.row t pkg.periodKey with
    | none =>
      have hheld : s.held t pkg.periodKey = none := by simp [SqlPackageStore.held, hrow]
      exact absurd (hheld ▸ fits_none pkg) hno
    | some row =>
      have hheld : s.held t pkg.periodKey = some row.package := by
        simp [SqlPackageStore.held, hrow]
      rw [hheld, fits_some_iff, ← row.written] at hno
      exact if_pos hno
  save_of_fits s t pkg h hfits := by
    unfold SqlPackageStore.save
    rw [h]
    cases hrow : s.row t pkg.periodKey with
    | none =>
      refine ⟨_, pkg, rfl, rfl, fun _ => rfl, fun t' p' => ?_⟩
      simp only [SqlPackageStore.held, SqlPackageStore.row, OrderedMap.get?_set]
      split_ifs <;> rfl
    | some row =>
      have hheld : s.held t pkg.periodKey = some row.package := by
        simp [SqlPackageStore.held, hrow]
      have hsame := fits_some_iff.mp (hheld ▸ hfits)
      refine ⟨s, row.package, if_neg (not_not.mpr (row.written.trans hsame)), hsame,
        fun hnone => ?_, fun t' p' => ?_⟩
      · rw [hheld] at hnone
        cases hnone
      · split_ifs with hkey
        · cases hkey
          exact hheld
        · rfl

end Rgnr8.Close
