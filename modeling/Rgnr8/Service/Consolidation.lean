import Rgnr8.Service.BookOfRecord
import Rgnr8.Service.Statements
import Rgnr8.Statements.Consolidation

/-! Multi-entity consolidation: a report over the books of the members of a group. Members that keep
their books in another currency are translated, intercompany accounts and manual eliminations are
taken out, and the rest is merged. -/

namespace Rgnr8.Service.Consolidation
open Lib Lib.Js Kernel Rgnr8.Statements Service.Statements Service.Settings

structure GroupMember where
  tenantId : TenantId
  label : String
  ownershipPpm : Nat
  currency : String
  rateMicro : Option Int
  equityRateMicro : Option Int
  averageRateMicro : Option Int
  priorCtaMinor : Option Int

def rateMicroOne : Int := 1000000

def ctaCode : String := "3990"

def ctaName : String := "Cumulative translation adjustment"

/-- No member is saved twice, and a saved rate is positive. -/
structure GroupRecord where
  id : String
  name : String
  members : List GroupMember
  intercompanyCodes : List String
  distinct : (members.map GroupMember.tenantId).Nodup
  rates : ∀ m ∈ members, ∀ rate, m.rateMicro = some rate ∨ m.equityRateMicro = some rate ∨
    m.averageRateMicro = some rate → 0 < rate

structure EliminationEntryLine where
  accountCode : String
  side : EntrySide
  amountMinor : Int

def EliminationEntryLine.signed (line : EliminationEntryLine) : Int :=
  match line.side with
  | .debit => line.amountMinor
  | .credit => -line.amountMinor

structure EliminationEntry where
  id : String
  groupId : String
  description : String
  lines : List EliminationEntryLine
  balanced : (lines.map EliminationEntryLine.signed).sum = 0

inductive ConsolidationFailure where
  | service (message : String)
  | consolidation (message : String)
  deriving DecidableEq

structure Books where
  chart : ChartOfAccounts
  journal : List PostedEntry
  covers : Covers chart journal
  balanced : ∀ e ∈ journal, sideTotal .debit e.lines = sideTotal .credit e.lines
  banks : BanksAreAssets chart

structure ConsolidationContext where
  tenant : TenantId
  currency : Currency
  settings : AccountSettings
  books : TenantId → Books
  groups : OrderedMap (TenantId × String) GroupRecord
  eliminations : OrderedMap (TenantId × String) EliminationEntry
  letters : CaseMapping
  localeLe : String → String → Bool

namespace ConsolidationContext

def getGroup (ctx : ConsolidationContext) (id : String) : Option GroupRecord :=
  ctx.groups.get? (ctx.tenant, id)

def listEliminations (ctx : ConsolidationContext) (groupId : String) : List EliminationEntry :=
  ((ctx.eliminations.filter fun key e => key.1 = ctx.tenant ∧ e.groupId = groupId).values).insertionSort
    fun a b => ctx.localeLe a.id b.id = true

end ConsolidationContext

/-! Translation. -/

inductive RateClass where
  | current | historical | average

structure LineRateAudit where
  accountId : AccountId
  code : String
  rateClass : RateClass
  rateMicro : Int

structure CtaBreakdown where
  cumulativeMinor : Int
  priorMinor : Int
  currentPeriodMinor : Int

structure EntityTranslation where
  tb : Rgnr8.Statements.TrialBalance
  lines : List LineRateAudit
  cta : CtaBreakdown

structure TranslationRatesMicro where
  currentMicro : Int
  equityMicro : Int
  averageMicro : Int
  priorCtaMinor : Int

def translateAmount (signedMinor rateMicro : Int) : Int :=
  let abs := if signedMinor < 0 then -signedMinor else signedMinor
  let rounded := (abs * rateMicro + rateMicroOne.tdiv 2).tdiv rateMicroOne
  if signedMinor < 0 then -rounded else rounded

def rateClassOf : AccountClass → RateClass
  | .equity => .historical
  | .revenue | .expense => .average
  | .asset | .liability => .current

def TranslationRatesMicro.rateOf (rates : TranslationRatesMicro) : RateClass → Int
  | .current => rates.currentMicro
  | .historical => rates.equityMicro
  | .average => rates.averageMicro

def makeTrialBalance (localeLe : String → String → Bool) (currency : Currency)
    (entries : List TrialBalanceEntry) : Rgnr8.Statements.TrialBalance :=
  ⟨currency, entries.insertionSort fun a b => localeLe a.code b.code = true⟩

def ctaAccountId (entityId : String) : AccountId := s!"__cta__:{entityId}"

def ctaEntry (entityId : String) (cumulativeCta : Int) : TrialBalanceEntry where
  accountId := ctaAccountId entityId
  code := ctaCode
  name := ctaName
  accountClass := .equity
  subtype := none
  signed := cumulativeCta

def translateEntry (rates : TranslationRatesMicro) (e : TrialBalanceEntry) : TrialBalanceEntry :=
  { e with signed := translateAmount e.signed (rates.rateOf (rateClassOf e.accountClass)) }

/-- Assets and liabilities at the current rate, equity at the historical one, revenue and expense at
the average one. The gap this opens is a line of its own. -/
def translateTrialBalance (localeLe : String → String → Bool) (tb : Rgnr8.Statements.TrialBalance)
    (currency : Currency) (entityId : String) (rates : TranslationRatesMicro) : EntityTranslation :=
  let audit := tb.entries.map fun e => (⟨e.accountId, e.code, rateClassOf e.accountClass,
    rates.rateOf (rateClassOf e.accountClass)⟩ : LineRateAudit)
  let entries := tb.entries.map (translateEntry rates)
  let residual := (entries.map TrialBalanceEntry.signed).sum
  let cumulativeCta := -residual
  { tb := makeTrialBalance localeLe currency
      (if residual ≠ 0 then entries ++ [ctaEntry entityId cumulativeCta] else entries)
    lines := audit
    cta := ⟨cumulativeCta, rates.priorCtaMinor, cumulativeCta - rates.priorCtaMinor⟩ }

def translateEntity (localeLe : String → String → Bool) (tb : Rgnr8.Statements.TrialBalance)
    (member : GroupMember) (currency : Currency) : EntityTranslation :=
  translateTrialBalance localeLe tb currency member.tenantId {
    currentMicro := member.rateMicro.getD rateMicroOne
    equityMicro := (member.equityRateMicro.or member.rateMicro).getD rateMicroOne
    averageMicro := (member.averageRateMicro.or member.rateMicro).getD rateMicroOne
    priorCtaMinor := member.priorCtaMinor.getD 0 }

structure EntityBalances where
  member : GroupMember
  tb : Rgnr8.Statements.TrialBalance
  translation : Option EntityTranslation

def memberBalances (ctx : ConsolidationContext) (window : DateWindow) (member : GroupMember) :
    Except ConsolidationFailure EntityBalances :=
  let base := if ctx.settings.baseCurrency = "" then ctx.currency.code else ctx.settings.baseCurrency
  let books := ctx.books member.tenantId
  if books.chart.list = [] then
    .error (.service (s!"{member.tenantId} has no chart of accounts — it is not a set of " ++
      "books yet"))
  else
    let tb := signedBalance ctx.localeLe books.chart ctx.currency (some window) books.journal
    let memberCurrency := ctx.letters.toUpperCase (trim member.currency)
    if memberCurrency ≠ "" ∧ memberCurrency ≠ base then
      if ctx.settings.multiCurrencyEnabled = false then
        .error (.service (s!"{member.tenantId} reports in {memberCurrency} but multi-currency " ++
          "consolidation is off — enable it in settings to translate to the group base"))
      else if member.rateMicro = none then
        .error (.service (s!"{member.tenantId} reports in {memberCurrency} but no translation " ++
          s!"rate to {base} is configured for it"))
      else
        let translation := translateEntity ctx.localeLe tb member ctx.currency
        .ok ⟨member, translation.tb, some translation⟩
    else .ok ⟨member, tb, none⟩

def entityBalances (ctx : ConsolidationContext) (group : GroupRecord) (window : DateWindow) :
    Except ConsolidationFailure (List EntityBalances) :=
  group.members.mapM (memberBalances ctx window)

/-! The worksheet. -/

structure IntercompanyRow where
  accountCode : String
  byEntity : OrderedMap TenantId Int
  netMinor : Int

structure EliminationRow where
  accountCode : String
  signedMinor : Int
  reason : String

structure WorksheetRow where
  accountCode : String
  name : String
  byEntity : OrderedMap TenantId Int
  combinedMinor : Int
  eliminationMinor : Int
  consolidatedMinor : Int

structure ConsolidatedRow where
  accountCode : String
  name : String
  signedMinor : Int

structure Worksheet where
  entities : List EntityBalances
  rows : List WorksheetRow
  intercompany : List IntercompanyRow
  eliminations : List EliminationRow
  mismatchMinor : Int
  balanced : Bool
  consolidated : List ConsolidatedRow

inductive ConsolidationReport where
  | refused (intercompany : List IntercompanyRow) (mismatchMinor : Int)
  | drawn (worksheet : Worksheet)

structure ConsolidationInput where
  through : Option String
  from_ : Option String
  allowMismatch : Bool

def entryAt (tb : Rgnr8.Statements.TrialBalance) (code : String) : Option TrialBalanceEntry :=
  tb.entries.find? fun x => x.code = code

def signedAt (tb : Rgnr8.Statements.TrialBalance) (code : String) : Int :=
  ((entryAt tb code).map TrialBalanceEntry.signed).getD 0

variable (entities : List EntityBalances)

def byEntityAt (code : String) : OrderedMap TenantId Int :=
  entities.foldl (fun m e => m.set e.member.tenantId (signedAt e.tb code)) .empty

def combinedAt (code : String) : Int :=
  (entities.map fun e => signedAt e.tb code).sum

def allEntries : List TrialBalanceEntry :=
  entities.flatMap fun e => e.tb.entries

def accountOf (code : String) : Option TrialBalanceEntry :=
  (allEntries entities).find? fun x => x.code = code

structure Push where
  code : String
  signedMinor : Int
  why : String

def intercompanyPushes (codes : List String) : List Push :=
  codes.flatMap fun code => entities.filterMap fun e =>
    ((entryAt e.tb code).filter fun entry => entry.signed ≠ 0).map fun entry =>
      ⟨entry.code, -entry.signed, "intercompany"⟩

def manualPushes (manual : List EliminationEntry) : List Push :=
  manual.flatMap fun entry => entry.lines.map fun line =>
    ⟨line.accountCode, line.signed, if entry.description = "" then entry.id else entry.description⟩

def pushed (account : TrialBalanceEntry) (code name : String) (signedMinor : Int) :
    EliminationLine where
  accountId := account.accountId
  code := code
  name := name
  accountClass := account.accountClass
  subtype := none
  signed := signedMinor

def push (p : Push) : Except ConsolidationFailure EliminationLine :=
  match accountOf entities p.code with
  | none => .error (.service s!"no entity in this group has account {p.code}")
  | some account => .ok (pushed account p.code account.name p.signedMinor)

def residualLine (group : GroupRecord) (net : Int) :
    Except ConsolidationFailure (List EliminationLine) :=
  if net = 0 then .ok []
  else
    let code := group.intercompanyCodes.head?.getD ""
    match accountOf entities code with
    | none => .error (.service ("there is a difference to show but no intercompany account to " ++
        "show it against"))
    | some account => .ok [pushed account code "Unexplained intercompany difference" (-net)]

def entityTrialBalances : List EntityTrialBalance :=
  entities.map fun e => ⟨e.member.tenantId, e.tb⟩

def worksheetCodes (consolidated : Rgnr8.Statements.TrialBalance) : List String :=
  (((allEntries entities).map TrialBalanceEntry.code ++
    consolidated.entries.map TrialBalanceEntry.code).dedup).insertionSort fun a b => ¬ Before b a

def worksheetRow (eliminations : List EliminationLine)
    (consolidated : Rgnr8.Statements.TrialBalance) (code : String) : WorksheetRow where
  accountCode := code
  name := ((accountOf entities code).map TrialBalanceEntry.name).getD code
  byEntity := byEntityAt entities code
  combinedMinor := combinedAt entities code
  eliminationMinor := ((eliminations.filter fun x => x.code = code).map
    TrialBalanceEntry.signed).sum
  consolidatedMinor := signedAt consolidated code

def reportWindow (fromDate through : String) : DateWindow :=
  ⟨if fromDate = "" then none else some fromDate, if through = "" then none else some through⟩

def badDate (label : String) : ConsolidationFailure := .service s!"{label} must be YYYY-MM-DD"

variable (ctx : ConsolidationContext) (groupId : String)

def consolidate (input : ConsolidationInput) : Except ConsolidationFailure ConsolidationReport :=
  match ctx.getGroup groupId with
  | none => .error (.service s!"unknown group {groupId}")
  | some group =>
    let through := trim (input.through.getD "")
    let fromDate := trim (input.from_.getD "")
    if through ≠ "" ∧ ¬ isIsoDate through then .error (badDate "through")
    else if fromDate ≠ "" ∧ ¬ isIsoDate fromDate then .error (badDate "from")
    else do
      let entities ← entityBalances ctx group (reportWindow fromDate through)
      let intercompany := group.intercompanyCodes.map fun code =>
        (⟨code, byEntityAt entities code, combinedAt entities code⟩ : IntercompanyRow)
      let pushes := (intercompanyPushes entities group.intercompanyCodes ++
        manualPushes (ctx.listEliminations groupId)).filter fun p => p.signedMinor ≠ 0
      let lines ← pushes.mapM (push entities)
      let net := (lines.map TrialBalanceEntry.signed).sum
      if net ≠ 0 ∧ input.allowMismatch = false then return .refused intercompany (-net)
      else
        let residual ← residualLine entities group net
        let result ← (consolidateTrialBalances ctx.localeLe (entityTrialBalances entities)
          (lines ++ residual)).mapError .consolidation
        let codes := worksheetCodes entities result.consolidated
        let worksheet : Worksheet := {
          entities := entities
          rows := codes.map (worksheetRow entities (lines ++ residual) result.consolidated)
          intercompany := intercompany
          eliminations := pushes.map (fun p => (⟨p.code, p.signedMinor, p.why⟩ : EliminationRow)) ++
            residual.map fun x => ⟨x.code, x.signed, "unexplained intercompany difference"⟩
          mismatchMinor := (residual.map TrialBalanceEntry.signed).sum
          balanced := result.balanced
          consolidated := result.consolidated.entries.map fun e => ⟨e.code, e.name, e.signed⟩ }
        return .drawn worksheet

/-! The statements. -/

variable (group : GroupRecord)

def windowEliminations (entities : List EntityBalances) : List EliminationLine :=
  let intercompany := group.intercompanyCodes.flatMap fun code => entities.filterMap fun e =>
    ((entryAt e.tb code).filter fun entry => entry.signed ≠ 0).map fun entry =>
      { entry with signed := -entry.signed }
  let manual := (ctx.listEliminations groupId).flatMap fun entry =>
    entry.lines.filterMap fun line => (accountOf entities line.accountCode).map fun template =>
      { template with signed := line.signed }
  intercompany ++ manual

def consolidatedBalances (window : DateWindow) :
    Except ConsolidationFailure Rgnr8.Statements.TrialBalance := do
  let entities ← entityBalances ctx group window
  let eliminations := windowEliminations ctx groupId group entities
  let net : Int := (eliminations.map TrialBalanceEntry.signed).sum
  if net ≠ 0 then
    .error (.service (s!"intercompany balances don't agree by {-net} — the group's statements " ++
      "would be a plug. Reconcile the entities first"))
  else
    let result ← (consolidateTrialBalances ctx.localeLe (entityTrialBalances entities)
      eliminations).mapError .consolidation
    return result.consolidated

def firstChart : ChartOfAccounts :=
  (ctx.books ((group.members.map GroupMember.tenantId).head?.getD "")).chart

def consolidatedStatements (groupId fromDate toDate : String) :
    Except ConsolidationFailure FinancialStatements :=
  match ctx.getGroup groupId with
  | none => .error (.service s!"unknown group {groupId}")
  | some group =>
    if ¬ isIsoDate fromDate ∨ ¬ isIsoDate toDate then
      .error (.service "statements need from and to as YYYY-MM-DD")
    else do
      let period ← consolidatedBalances ctx groupId group ⟨some fromDate, some toDate⟩
      let finish ← consolidatedBalances ctx groupId group ⟨none, some toDate⟩
      let start ← consolidatedBalances ctx groupId group ⟨none, some (previousDay fromDate)⟩
      let income := incomeStatement ctx.localeLe period
      let beginningRetained := (incomeStatement ctx.localeLe start).netIncome
      return {
        period := s!"{fromDate}..{toDate}"
        currency := ctx.currency.code
        income := income
        balanceSheet := balanceSheet ctx.localeLe finish income.netIncome (some beginningRetained)
        cashFlow := cashFlow start finish income.netIncome
          (subtypeCashFlowClassifier (firstChart ctx group)) }

end Rgnr8.Service.Consolidation
