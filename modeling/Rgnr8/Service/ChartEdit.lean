import Rgnr8.Kernel.CoaTemplates
import Rgnr8.Kernel.ParentsFirst
import Rgnr8.Kernel.TrialBalance
import Rgnr8.Lib.Javascript

/-! The rules that decide whether one account may be created, renamed, retyped, re-parented,
renumbered or made inactive. They read the chart and the journal, and hold no storage. -/

namespace Rgnr8.Kernel

def ChartOfAccounts.children (coa : ChartOfAccounts) (id : AccountId) : List Account :=
  coa.list.filter fun a => a.parentId = some id

def Account.isActive (a : Account) : Bool := a.active ≠ some false

def systemSubtypes : List AccountSubtype :=
  [.accountsReceivable, .accountsPayable, .undepositedFunds, .salesTaxPayable, .retainedEarnings]

def openingBalanceEquityName : String := "Opening Balance Equity"

def openingBalanceEquityCode : String := "3010"

def isSystemAccount (account : Account) : Bool :=
  if account.subtype.any fun s => s ∈ systemSubtypes then true
  else if account.subtype ≠ some .equity then false
  else account.code = openingBalanceEquityCode ∨ account.name = openingBalanceEquityName

end Rgnr8.Kernel

namespace Rgnr8.Service
open Lib Lib.Js Kernel

def maxChartDepth : Nat := 5

/-- A refused change, with what the service answers; the last is the chart's own refusal. -/
inductive ChartEditError where
  | badRequest (message : String)
  | conflict (message : String)
  | kernel (message : String)
  deriving DecidableEq

/-- What a caller asks to change. Where there is nothing, the account is left alone; a subtype or a
parent can also be cleared. -/
structure AccountChanges where
  name : Option String
  number : Option String
  type : Option AccountType
  subtype : Option (Option AccountSubtype)
  parentCode : Option (Option String)
  active : Option Bool

/-- The facts the rules read. -/
structure ChartEditContext where
  chart : ChartOfAccounts
  currency : Currency
  quickBooksOfRecord : Bool
  hasPostings : Account → Bool
  balanceMinor : Account → Int

def parentCodeIn (chart : ChartOfAccounts) (a : Account) : Option String :=
  (a.parentId.bind chart.get).map Account.code

/-- Levels over an account, at most `n` of them, up to one that has been seen. -/
def levelsAbove (chart : ChartOfAccounts) : Nat → List AccountId → Account → Nat
  | 0, _, _ => 0
  | n + 1, seen, cursor =>
    match cursor.parentId.bind chart.get with
    | none => 0
    | some parent =>
      if parent.id ∈ seen then 0 else 1 + levelsAbove chart n (parent.id :: seen) parent

/-- Levels from the top of the chart down to and including `a`. -/
def depthOf (chart : ChartOfAccounts) (a : Account) : Nat :=
  1 + levelsAbove chart chart.list.length [a.id] a

/-- Levels below an account, at most `n` of them. -/
def levelsBelow (chart : ChartOfAccounts) : Nat → AccountId → Nat
  | 0, _ => 0
  | n + 1, id => ((chart.children id).map fun k => 1 + levelsBelow chart n k.id).foldr max 0

def heightOf (chart : ChartOfAccounts) (a : Account) : Nat :=
  levelsBelow chart chart.list.length a.id

/-- Whether the walk up from an account, at most `n` steps of it, meets `target`. -/
def meets (chart : ChartOfAccounts) (target : AccountId) : Nat → List AccountId → Option Account → Bool
  | n + 1, seen, some up =>
    if up.id ∈ seen then false
    else if up.id = target then true
    else meets chart target n (up.id :: seen) (up.parentId.bind chart.get)
  | _, _, _ => false

/-- The parent an account of a type is to have. `accountId` is none while it is being created. -/
def checkParent (chart : ChartOfAccounts) (parentCode : String) (type : AccountType)
    (accountId : Option AccountId) (accountHeight : Nat) : Except ChartEditError Account :=
  match chart.getByCode parentCode with
  | none => .error (.badRequest s!"parent account {parentCode} does not exist")
  | some parent =>
    if accountId = some parent.id then
      .error (.badRequest "an account cannot be its own parent")
    else if accountId.any fun id => meets chart id (chart.list.length + 1) [] (some parent) then
      .error (.badRequest (s!"{parentCode} is already a sub-account of this account, " ++
        "so this would be a cycle"))
    else if ¬ parent.isActive then
      .error (.badRequest s!"parent account {parentCode} is inactive")
    else if parent.type ≠ type then
      .error (.badRequest (s!"parent account {parentCode} is {parent.type.text}; " ++
        s!"a sub-account must have the same type as its parent ({type.text})"))
    else
      let levels := depthOf chart parent + 1 + accountHeight
      if maxChartDepth < levels then
        .error (.badRequest (s!"the chart may nest at most {maxChartDepth} levels; " ++
          s!"this would be {levels}"))
      else .ok parent

def resolveTypeAndSubtype (current : Option Account) (changes : AccountChanges) :
    Except ChartEditError (AccountType × Option AccountSubtype) :=
  match changes.subtype.getD (current.bind Account.subtype) with
  | none => match changes.type.or (current.map Account.type) with
    | none => .error (.badRequest "an account needs a type or a detail type")
    | some type => .ok (type, none)
  | some subtype =>
    let fromSubtype := accountTypeOfSubtype subtype
    if changes.type.any fun type => type ≠ fromSubtype then
      .error (.badRequest (s!"detail type {subtype.text} belongs to {fromSubtype.text}, " ++
        s!"not {(changes.type.getD fromSubtype).text}"))
    else
      let type := changes.type.getD fromSubtype
      if fromSubtype ≠ type then
        .error (.badRequest (s!"detail type {subtype.text} does not belong to type {type.text}; " ++
          "choose a detail type for it"))
      else .ok (type, some subtype)

def cleanName (raw : Option String) (current : String) : Except ChartEditError String :=
  match raw with
  | none => .ok current
  | some raw => if trim raw = "" then .error (.badRequest "an account needs a name")
    else .ok (trim raw)

def cleanNumber (raw : String) : Except ChartEditError String :=
  if trim raw = "" then .error (.badRequest "an account needs a number") else .ok (trim raw)

def validate (accounts : List Account) : Except ChartEditError Unit :=
  ((ChartOfAccounts.ofAccounts (parentsFirst accounts)).map fun _ => ()).mapError .kernel

structure NewAccount where
  code : String
  name : String
  type : Option AccountType
  subtype : Option AccountSubtype
  parentCode : Option String

def parentOfNew (input : NewAccount) (chart : ChartOfAccounts) (type : AccountType) :
    Except ChartEditError (Option AccountId) :=
  match input.parentCode.filter (· ≠ "") with
  | none => .ok none
  | some parentCode => (checkParent chart parentCode type none 0).map fun parent => some parent.id

def planNewAccount (input : NewAccount) (ctx : ChartEditContext) :
    Except ChartEditError Account := do
  let code ← cleanNumber input.code
  let name ← cleanName (some input.name) ""
  Fallible.refuse ((ctx.chart.getByCode code).isSome) (.conflict s!"account {code} already exists")
  let (type, subtype) ← resolveTypeAndSubtype none
    ⟨none, none, input.type, some input.subtype, none, none⟩
  let parentId ← parentOfNew input ctx.chart type
  let account : Account := {
    id := accountIdFor code
    code := code
    name := name
    type := type
    currency := ctx.currency
    parentId := parentId
    subtype := subtype
    active := some true
    origin := some .rgnr8 }
  validate (ctx.chart.list ++ [account])
  return account

def toDecimalString (m : Money) : String :=
  let digits := (padStart (m.currency.scale + 1) m.minorUnits.natAbs).toList
  let cut := digits.length - m.currency.scale
  let frac := if 0 < m.currency.scale then "." ++ String.ofList (digits.drop cut) else ""
  (if m.minorUnits < 0 then "-" else "") ++ String.ofList (digits.take cut) ++ frac

/-- What would be different about an account. -/
structure Differences where
  name : Bool
  number : Bool
  type : Bool
  subtype : Bool
  parent : Bool
  active : Bool

def Differences.any (d : Differences) : Bool :=
  d.name || d.number || d.type || d.subtype || d.parent || d.active

variable (current : Account) (changes : AccountChanges)

def numberOf : Except ChartEditError String :=
  match changes.number with
  | none => .ok current.code
  | some number => cleanNumber number

def differences (chart : ChartOfAccounts) (type : AccountType) (subtype : Option AccountSubtype) :
    Except ChartEditError Differences := do
  let name ← cleanName changes.name current.name
  let number ← numberOf current changes
  return {
    name := name ≠ current.name
    number := number ≠ current.code
    type := type ≠ current.type
    subtype := subtype ≠ current.subtype
    parent := changes.parentCode.any fun code =>
      code.filter (· ≠ "") ≠ parentCodeIn chart current
    active := changes.active.any fun active => active ≠ current.isActive }

def refuseSystem (differs : Differences) : Except ChartEditError Unit :=
  if isSystemAccount current then
    if differs.type || differs.subtype then
      .error (.conflict (s!"{current.code} {current.name} is a system account: " ++
        "its type and detail type cannot change"))
    else if differs.number then
      .error (.conflict (s!"{current.code} {current.name} is a system account: " ++
        "its number cannot change"))
    else if differs.active ∧ changes.active = some false then
      .error (.conflict (s!"{current.code} {current.name} is a system account " ++
        "and cannot be made inactive"))
    else .ok ()
  else .ok ()

variable (ctx : ChartEditContext)

def refuseRetype (differs : Differences) : Except ChartEditError Unit :=
  if differs.type then
    if ctx.hasPostings current then
      .error (.conflict s!"{current.code} has posted entries, so its type cannot change")
    else
      let kids := (ctx.chart.children current.id).length
      if 0 < kids then
        .error (.conflict (s!"{current.code} has {kids} sub-account(s); " ++
          "move them before changing its type"))
      else .ok ()
  else .ok ()

def refuseInactivation : Except ChartEditError Unit :=
  let balance := ctx.balanceMinor current
  let shown := toDecimalString ⟨if balance < 0 then -balance else balance, ctx.currency⟩
  let side := if 0 < balance then "debit" else "credit"
  Fallible.refuse (changes.active = some false ∧ current.isActive ∧ balance ≠ 0)
    (.conflict (s!"{current.code} has a balance of {shown} {ctx.currency.code} ({side}); " ++
      "clear it before making it inactive"))

def refuseReactivation : Except ChartEditError Unit :=
  match current.parentId.bind ctx.chart.get with
  | some parent =>
    Fallible.refuse (changes.active = some true ∧ ¬ current.isActive ∧ ¬ parent.isActive)
      (.conflict s!"parent account {parent.code} is inactive; reactivate it first")
  | none => .ok ()

def resolveParent (chart : ChartOfAccounts) (type : AccountType) (differs : Differences) :
    Except ChartEditError (Option AccountId) :=
  match (changes.parentCode.map fun code => code.filter (· ≠ "")).getD (parentCodeIn chart current) with
  | none => .ok none
  | some code =>
    if differs.parent ∨ differs.type ∨ (differs.active ∧ changes.active = some true) then
      (checkParent chart code type (some current.id) (heightOf chart current)).map fun parent =>
        some parent.id
    else .ok current.parentId

def applyChanges (type : AccountType) (subtype : Option AccountSubtype) (differs : Differences) :
    Except ChartEditError Account := do
  Fallible.refuse (current.origin = some .quickbooks ∧ ctx.quickBooksOfRecord)
    (.conflict "edit this account in QuickBooks")
  refuseSystem current changes differs
  refuseRetype current ctx differs
  refuseInactivation current changes ctx
  refuseReactivation current changes ctx
  let parentId ← resolveParent current changes ctx.chart type differs
  let code ← numberOf current changes
  Fallible.refuse (differs.number ∧ (ctx.chart.getByCode code).isSome)
    (.conflict s!"account {code} already exists")
  let name ← cleanName changes.name current.name
  let next : Account := { current with
    code := code
    name := name
    type := type
    subtype := subtype
    parentId := parentId
    active := some (changes.active.getD current.isActive) }
  validate (ctx.chart.list.filter (fun a => a.id ≠ current.id) ++ [next])
  return next

def planAccountEdit : Except ChartEditError Account := do
  let (type, subtype) ← resolveTypeAndSubtype (some current) changes
  let differs ← differences current changes ctx.chart type subtype
  if differs.any then applyChanges current changes ctx type subtype differs else return current

/-- What the rules are told of a tenant's books besides the chart. -/
structure BookFacts where
  currency : Currency
  quickBooksOfRecord : Bool
  hasPostings : Account → Bool
  balanceMinor : Account → Int

def BookFacts.context (facts : BookFacts) (chart : ChartOfAccounts) : ChartEditContext :=
  ⟨chart, facts.currency, facts.quickBooksOfRecord, facts.hasPostings, facts.balanceMinor⟩

variable (order : RowOrder) (facts : BookFacts) (s : SavedAccounts)

def accountCreated (input : NewAccount) : Option Account := do
  let chart ← (s.chart order).toOption
  (planNewAccount input (facts.context chart)).toOption

def accountEdited (code : String) (changes : AccountChanges) : Option Account := do
  let chart ← (s.chart order).toOption
  let current ← chart.getByCode code
  let next ← (planAccountEdit current changes (facts.context chart)).toOption
  if next = current then none else some next

def createAccount (input : NewAccount) :
    SavedAccounts := (accountCreated order facts s input).elim s s.save

def editAccount (code : String) (changes : AccountChanges) : SavedAccounts :=
  (accountEdited order facts s code changes).elim s s.save

end Rgnr8.Service
