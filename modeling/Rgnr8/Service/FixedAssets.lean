import Rgnr8.Service.Flow

/-! Fixed assets: a register of what they cost and how far they are written down. A depreciation run
posts what should have accumulated by a date less what has, once for each month of an asset. -/

namespace Rgnr8.Service.FixedAssets
open Lib Lib.Js Kernel

inductive DepreciationMethod where
  | straightLine | decliningBalance | unitsOfProduction
  deriving DecidableEq

def DepreciationMethod.text : DepreciationMethod → String
  | straightLine => "STRAIGHT_LINE"
  | decliningBalance => "DECLINING_BALANCE"
  | unitsOfProduction => "UNITS_OF_PRODUCTION"

def methods : List DepreciationMethod := [.straightLine, .decliningBalance, .unitsOfProduction]

inductive AssetStatus where
  | active | disposed
  deriving DecidableEq

structure AssetRecord where
  id : String
  name : String
  category : String
  inServiceDate : String
  costMinor : Int
  salvageMinor : Int
  method : DepreciationMethod
  usefulLifeMonths : Int
  decliningFactorMicro : Int
  totalUnitsMilli : Int
  unitsUsedMilli : Int
  accumulatedMinor : Int
  assetAccountCode : String
  accumAccountCode : String
  expenseAccountCode : String
  status : AssetStatus
  disposedDate : String
  memo : String
  deriving DecidableEq

structure DepreciationRow where
  period : Int
  throughDate : String
  expenseMinor : Int
  accumulatedMinor : Int
  bookValueMinor : Int
  deriving DecidableEq

def micro : Int := 1000000

def roundDiv (num den : Int) : Int :=
  if den = 0 then 0
  else
    let q := (num.natAbs + (den.natAbs : Int).tdiv 2).tdiv den.natAbs
    if (num < 0) ≠ (den < 0) then -q else q

variable (asset : AssetRecord)

/-- What will be written off over the life. -/
def depreciableBase : Int :=
  if 0 < asset.costMinor - asset.salvageMinor then asset.costMinor - asset.salvageMinor else 0

def addMonths (startDate : String) (months : Int) : Except FlowFailure String :=
  let unreadable := .error (.own s!"date must be YYYY-MM-DD, got {startDate}")
  match startDate.toList with
  | [a, b, c, d, '-', e, f, '-', g, h] =>
    match naturalIn 10 [a, b, c, d], naturalIn 10 [e, f], naturalIn 10 [g, h] with
    | some y, some m, some day =>
      if y = 0 ∨ m = 0 ∨ day = 0 then unreadable
      else
        let total : Int := (y * 12 + (m - 1)) + months
        let shifted := do
          let lastDay ← dateUtc (total / 12) (total % 12 + 1) 0
          isoDay (← dateUtc (total / 12) (total % 12) (min day (civilOfDays lastDay).2.2))
        match shifted with
        | none => .error (.date "Invalid time value")
        | some date => .ok date
    | _, _, _ => unreadable
  | _ => unreadable

def row (m expense accumulated : Int) : Except FlowFailure DepreciationRow := do
  let throughDate ← addMonths asset.inServiceDate m
  return ⟨m, throughDate, expense, accumulated, asset.costMinor - accumulated⟩

/-- Equal portions, of which the last lands on the base: the months from `m` on. -/
def straightLineRows (asset : AssetRecord) (per : Int) : (left : Nat) → (m accumulated : Int) →
    Except FlowFailure (List DepreciationRow)
  | 0, _, _ => .ok []
  | left + 1, m, accumulated => do
    let expense := if left = 0 then depreciableBase asset - accumulated else per
    let r ← row asset m expense (accumulated + expense)
    let rows ← straightLineRows asset per left (m + 1) (accumulated + expense)
    return r :: rows

def decliningExpense (factor book : Int) (last : Bool) : Int :=
  let share := roundDiv (book * factor) (micro * asset.usefulLifeMonths)
  let floored := if book - share < asset.salvageMinor then book - asset.salvageMinor else share
  if last then if 0 < book - asset.salvageMinor then book - asset.salvageMinor else 0
  else if floored < 0 then 0 else floored

def decliningRows (asset : AssetRecord) (factor : Int) : (left : Nat) →
    (m accumulated book : Int) → Except FlowFailure (List DepreciationRow)
  | 0, _, _, _ => .ok []
  | left + 1, m, accumulated, book => do
    let expense := decliningExpense asset factor book (left = 0)
    let r ← row asset m expense (accumulated + expense)
    if book - expense ≤ asset.salvageMinor then return [r]
    else
      let rows ← decliningRows asset factor left (m + 1) (accumulated + expense) (book - expense)
      return r :: rows

def depreciationSchedule : Except FlowFailure (List DepreciationRow) :=
  let life := asset.usefulLifeMonths
  if asset.method = .unitsOfProduction then .ok []
  else if life ≤ 0 then .ok []
  else if asset.method = .straightLine then
    straightLineRows asset ((depreciableBase asset).tdiv life) life.toNat 1 0
  else
    let factor := if 0 < asset.decliningFactorMicro then asset.decliningFactorMicro else 2 * micro
    decliningRows asset factor life.toNat 1 0 asset.costMinor

def targetIn (throughDate : String) : List DepreciationRow → (target : Int) → Int
  | [], target => target
  | r :: rows, target =>
    if r.throughDate ≤ throughDate then targetIn throughDate rows r.accumulatedMinor else target

def targetAccumulated (throughDate : String) : Except FlowFailure Int := do
  let schedule ← depreciationSchedule asset
  return if schedule = [] then asset.accumulatedMinor else targetIn throughDate schedule 0

/-- The two tables, under their primary keys. -/
structure FixedAssetStore where
  assets : OrderedMap (TenantId × String) AssetRecord
  periods : OrderedMap (TenantId × String × PeriodKey) EntryId
  asset_of_get : ∀ {t id a}, assets.get? (t, id) = some a → a.id = id

namespace FixedAssetStore

def empty : FixedAssetStore := ⟨.empty, .empty, fun h => by cases h⟩

variable (s : FixedAssetStore) (tenant : TenantId)

def getAsset (id : String) : Option AssetRecord :=
  s.assets.get? (tenant, id)

def saveAsset (asset : AssetRecord) : FixedAssetStore where
  assets := s.assets.set (tenant, asset.id) asset
  periods := s.periods
  asset_of_get := by
    intro t id a h
    rw [OrderedMap.get?_set] at h
    split_ifs at h with hkey
    · rw [← Option.some.inj h]
      exact (Prod.mk.inj hkey).2.symm
    · exact s.asset_of_get h

def postedPeriod (assetId : String) (period : PeriodKey) :
    Bool := (s.periods.get? (tenant, assetId, period)).isSome

def markPeriod (assetId : String) (period : PeriodKey) (entryId : EntryId) : FixedAssetStore :=
  if s.postedPeriod tenant assetId period then s
  else { s with periods := s.periods.set (tenant, assetId, period) entryId }

end FixedAssetStore

inductive FixedAssetCall where
  | getAsset (tenant : TenantId) (id : String)
  | saveAsset (tenant : TenantId) (asset : AssetRecord)
  | postedPeriod (tenant : TenantId) (assetId : String) (period : PeriodKey)
  | markPeriod (tenant : TenantId) (assetId : String) (period : PeriodKey) (entryId : EntryId)

abbrev FixedAssetCall.Answer : FixedAssetCall → Type
  | getAsset _ _ => Option AssetRecord
  | postedPeriod _ _ _ => Bool
  | saveAsset _ _ | markPeriod _ _ _ _ => Unit

def FixedAssetCall.exec : (c : FixedAssetCall) → FixedAssetStore → c.Answer × FixedAssetStore
  | getAsset t id, s => (s.getAsset t id, s)
  | saveAsset t a, s => ((), s.saveAsset t a)
  | postedPeriod t id period, s => (s.postedPeriod t id period, s)
  | markPeriod t id period e, s => ((), s.markPeriod t id period e)

abbrev FixedAssetProg := FlowProg FixedAssetCall FixedAssetCall.Answer

abbrev exec {π : Type} [PeriodStore π] : (c : FlowCall FixedAssetCall) →
    Stores π FixedAssetStore → FlowCall.Answer FixedAssetCall.Answer c × Stores π FixedAssetStore :=
  FlowCall.exec FixedAssetCall.exec

def ask (c : FixedAssetCall) : FixedAssetProg c.Answer := Prog.perform (FlowCall.own c)

def minorOf (raw : Option TextOrNumber) (label : String) : Except FlowFailure Int :=
  match wholeNumber raw with
  | none => .error (.own s!"{label} must be a whole number")
  | some n => .ok n

def provenanceFor (id date at_ : String) : Provenance :=
  ⟨"fixed-assets", id, "1", date, date, at_, "ledger-service/fixed-assets-1",
    "ledger-service/fixed-assets-1"⟩

variable (ctx : FlowContext)

def assetCommand (key object date memo : String) (lines : List JournalLineInput) : PostCommand where
  tenantId := ctx.tenant
  idempotencyKey := key
  periodKey := periodOf date
  currency := ctx.currency
  entryDate := date
  lines := lines
  provenance := provenanceFor object date ctx.clock.ingestedAt
  memo := some memo

/-! Entering an asset, or editing one. -/

structure AssetInput where
  id : Option String
  name : Option String
  category : Option String
  inServiceDate : Option String
  costMinor : Option TextOrNumber
  salvageMinor : Option TextOrNumber
  method : Option String
  usefulLifeMonths : Option TextOrNumber
  decliningFactorMicro : Option TextOrNumber
  totalUnitsMilli : Option TextOrNumber
  assetAccountCode : Option String
  accumAccountCode : Option String
  expenseAccountCode : Option String
  memo : Option String
  paidFromCode : Option String

structure AssetDraft where
  id : String
  name : String
  method : DepreciationMethod
  cost : Int
  salvage : Int
  life : Int
  totalUnits : Int
  assetAccountCode : String
  accumAccountCode : String
  expenseAccountCode : String

def lifeOf (raw : Option TextOrNumber) : Except FlowFailure Int :=
  match integerOf (Js.numberOf (raw.getD (.number (some 0)))) with
  | none => .error (.own "useful life must be whole months")
  | some life => if life < 0 then .error (.own "useful life must be whole months") else .ok life

def draftAsset (input : AssetInput) : Except FlowFailure AssetDraft :=
  let id := trim (input.id.getD "")
  let name := trim (input.name.getD "")
  if id = "" then .error (.own "an asset needs an id")
  else if name = "" then .error (.own "an asset needs a name")
  else do
    let method ←
      oneOf ctx.letters methods DepreciationMethod.text input.method .straightLine "method"
    let cost ← minorOf input.costMinor "cost"
    if cost ≤ 0 then .error (.own "an asset needs a cost")
    else
      let salvage ← minorOf input.salvageMinor "salvage"
      if salvage < 0 ∨ cost < salvage then .error (.own "salvage must be between 0 and cost")
      else
        let life ← lifeOf input.usefulLifeMonths
        if method ≠ .unitsOfProduction ∧ life ≤ 0 then
          .error (.own "a time-based method needs a useful life in months")
        else
          let totalUnits ← minorOf input.totalUnitsMilli "total units"
          if method = .unitsOfProduction ∧ totalUnits ≤ 0 then
            .error (.own "units-of-production needs total expected units")
          else
            let assetCode ← need ctx.chart (trimmedOr input.assetAccountCode "1500") "asset" .asset
            let accumCode ← need ctx.chart (trimmedOr input.accumAccountCode "1510") "asset" .asset
            let expenseCode ←
              need ctx.chart (trimmedOr input.expenseAccountCode "6900") "expense" .expense
            return ⟨id, name, method, cost, salvage, life, totalUnits, assetCode, accumCode,
              expenseCode⟩

def assetOf (input : AssetInput) (draft : AssetDraft) (existing : Option AssetRecord) :
    Except FlowFailure AssetRecord := do
  let inServiceDate ← requireDate input.inServiceDate "in-service date"
  let factor ← minorOf input.decliningFactorMicro "declining factor"
  return {
    id := draft.id
    name := draft.name
    category := trim (input.category.getD "")
    inServiceDate := inServiceDate
    costMinor := draft.cost
    salvageMinor := draft.salvage
    method := draft.method
    usefulLifeMonths := draft.life
    decliningFactorMicro := if factor = 0 then 2000000 else factor
    totalUnitsMilli := draft.totalUnits
    unitsUsedMilli := (existing.map AssetRecord.unitsUsedMilli).getD 0
    accumulatedMinor := (existing.map AssetRecord.accumulatedMinor).getD 0
    assetAccountCode := draft.assetAccountCode
    accumAccountCode := draft.accumAccountCode
    expenseAccountCode := draft.expenseAccountCode
    status := (existing.map AssetRecord.status).getD .active
    disposedDate := (existing.map AssetRecord.disposedDate).getD ""
    memo := input.memo.getD "" }

structure PurchaseAccounts where
  from_ : Account
  asset : Account

def purchaseAccounts (input : AssetInput) (asset : AssetRecord) :
    Except FlowFailure PurchaseAccounts := do
  let from_ ← accountOf ctx.chart (trim (input.paidFromCode.getD ""))
  let assetAccount ← accountOf ctx.chart asset.assetAccountCode
  return ⟨from_, assetAccount⟩

variable (asset : AssetRecord)

def purchaseCommand (accounts : PurchaseAccounts) : PostCommand :=
  assetCommand ctx ("asset-buy:" ++ asset.id) asset.id asset.inServiceDate
    s!"Asset acquired — {asset.name}"
    (twoLines ctx.currency accounts.asset.id accounts.from_.id asset.costMinor asset.name)

structure SaveAssetResult where
  asset : AssetRecord
  entryId : EntryId

def saveAsset (ctx : FlowContext) (input : AssetInput) : FixedAssetProg SaveAssetResult := do
  let draft ← Prog.ofExcept (draftAsset ctx input)
  let existing ← ask (.getAsset ctx.tenant draft.id)
  let asset ← Prog.ofExcept (assetOf input draft existing)
  if existing = none ∧ trim (input.paidFromCode.getD "") ≠ "" then do
    let accounts ← Prog.ofExcept (purchaseAccounts ctx input asset)
    let entry ← postFlow ctx (purchaseCommand ctx asset accounts)
    ask (.saveAsset ctx.tenant asset)
    return ⟨asset, entry.id⟩
  else do
    ask (.saveAsset ctx.tenant asset)
    return ⟨asset, ""⟩

/-! Depreciating one. -/

structure DepreciationAccounts where
  expense : Account
  accum : Account
  deriving DecidableEq

def depreciationAccounts : Except FlowFailure DepreciationAccounts := do
  let expense ← accountOf ctx.chart asset.expenseAccountCode
  let accum ← accountOf ctx.chart asset.accumAccountCode
  return ⟨expense, accum⟩

def depreciationKey (assetId period : String) : IdempotencyKey := "depr:" ++ assetId ++ ":" ++ period

def depreciationCommand (accounts : DepreciationAccounts) (amount : Int) (date period : String) :
    PostCommand :=
  assetCommand ctx (depreciationKey asset.id period) (asset.id ++ ":" ++ period) date
    s!"Depreciation — {asset.name}"
    (twoLines ctx.currency accounts.expense.id accounts.accum.id amount asset.name)

def postDepreciation (amount : Int) (date period : String) : FixedAssetProg EntryId := do
  let accounts ← Prog.ofExcept (depreciationAccounts ctx asset)
  let entry ← postFlow ctx (depreciationCommand ctx asset accounts amount date period)
  return entry.id

structure RunDepreciationInput where
  assetId : Option String
  throughDate : Option String

structure RunDepreciationResult where
  asset : AssetRecord
  postedMinor : Int
  entryId : EntryId

def calendarAsset (assetId : String) : Option AssetRecord → Except FlowFailure AssetRecord
  | none => .error (.own s!"unknown asset {assetId}")
  | some asset =>
    if asset.status = .disposed then .error (.own s!"{assetId} is disposed")
    else if asset.method = .unitsOfProduction then
      .error (.own s!"{assetId} depreciates by usage — record production instead")
    else .ok asset

def runDepreciation (input : RunDepreciationInput) : FixedAssetProg RunDepreciationResult := do
  let assetId := trim (input.assetId.getD "")
  let found ← ask (.getAsset ctx.tenant assetId)
  let asset ← Prog.ofExcept (calendarAsset assetId found)
  let throughDate ← Prog.ofExcept (requireDate input.throughDate "through date")
  let target ← Prog.ofExcept (targetAccumulated asset throughDate)
  let delta := target - asset.accumulatedMinor
  if delta ≤ 0 then return ⟨asset, 0, ""⟩
  else do
    let period := periodOf throughDate
    match (← ask (.postedPeriod ctx.tenant assetId period) : Bool) with
    | true => return ⟨asset, 0, ""⟩
    | false => do
      let entryId ← postDepreciation ctx asset delta throughDate period
      let updated := { asset with accumulatedMinor := target }
      ask (.saveAsset ctx.tenant updated)
      ask (.markPeriod ctx.tenant assetId period entryId)
      return ⟨updated, delta, entryId⟩

end Rgnr8.Service.FixedAssets
