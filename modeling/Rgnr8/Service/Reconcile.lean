import Rgnr8.Reconciliation.LedgerRec

/-! Bank reconciliation in the service: the durable status of entries, kept by account code beside
the journal, and what an owner does with it. Reading a statement file is left to a parser. -/

namespace Rgnr8.Service.Reconcile
open Lib Lib.Js Fallible Kernel Reconciliation

structure InMemoryReconStore where
  byAccount : OrderedMap String (OrderedMap EntryId ClearStatus)
  through : OrderedMap String String

namespace InMemoryReconStore

def empty : InMemoryReconStore := ⟨.empty, .empty⟩

def key (tenant : TenantId) (code : String) : String := s!"{tenant} {code}"

variable (s : InMemoryReconStore) (tenant : TenantId) (accountCode : String)

def statuses : OrderedMap EntryId ClearStatus :=
  (s.byAccount.get? (key tenant accountCode)).getD .empty

def setStatus (entryId : EntryId) (status : ClearStatus) : InMemoryReconStore :=
  let m := (s.statuses tenant accountCode).set entryId status
  { s with byAccount := s.byAccount.set (key tenant accountCode) m }

def setMany (entryIds : List EntryId) (status : ClearStatus) : InMemoryReconStore :=
  entryIds.foldl (fun s id => s.setStatus tenant accountCode id status) s

def reconciledThrough : Option String :=
  s.through.get? (key tenant accountCode)

def setReconciledThrough (date : String) : InMemoryReconStore :=
  match s.reconciledThrough tenant accountCode with
  | none => { s with through := s.through.set (key tenant accountCode) date }
  | some prev =>
    if prev = "" ∨ Before prev date then
      { s with through := s.through.set (key tenant accountCode) date }
    else s

end InMemoryReconStore

inductive ReconcileFailure where
  /-- A `ReconcileError`. -/
  | refused (message : String)
  | money (e : MoneyError)
  | thrown (message : String)
  deriving DecidableEq

/-- A transaction of a statement file; the amount is a signed decimal text. -/
structure StatementTxn where
  fitid : String
  date : String
  amount : String
  description : String

structure ReconcileContext where
  tenant : TenantId
  currency : Currency
  parseStatement : String → Except String (List StatementTxn)

/-- What a call reads: the chart and the journal of the tenant, and the status of entries. -/
structure ReconcileBooks where
  chart : ChartOfAccounts
  entries : List PostedEntry
  recon : InMemoryReconStore

def loadRegister (recon : InMemoryReconStore) (tenant : TenantId) (accountId : AccountId)
    (accountCode : String) : ClearedRegister :=
  (recon.statuses tenant accountCode).entries.foldl
    (fun register e => register.setStatus accountId e.1 e.2) .empty

def resolveAccount (chart : ChartOfAccounts) (code : String) : Except ReconcileFailure Account :=
  match chart.getByCode code with
  | some account => .ok account
  | none => .error (.refused s!"unknown account code {code}")

def parseBalance (raw : Option String) (currency : Currency) : Except ReconcileFailure Money :=
  match Money.integerText (raw.getD "") with
  | some n => .ok ⟨n, currency⟩
  | none =>
    .error (.refused "statement_balance_minor is required, as integer minor units (cents)")

def requireDate (raw : Option String) : Except ReconcileFailure String :=
  let date := trim (raw.getD "")
  if ¬ isIsoDate date then .error (.refused "statement_date must be YYYY-MM-DD") else .ok date

variable (ctx : ReconcileContext) (books : ReconcileBooks)

def register (account : Account) (code : String) : Except ReconcileFailure (List RegisterLine) :=
  (bankRegister books.entries account.id ctx.currency
    (loadRegister books.recon ctx.tenant account.id code)).mapError .money

structure ViewLine where
  entryId : EntryId
  date : String
  memo : String
  amountMinor : String
  status : ClearStatus

structure ReconcileView where
  accountCode : String
  accountName : String
  statementDate : String
  statementBalanceMinor : String
  reconciledThrough : Option String
  reconciledBalanceMinor : String
  clearedThisSessionMinor : String
  clearedBalanceMinor : String
  differenceMinor : String
  canFinish : Bool
  lines : List ViewLine

def toView (code name : String) (recon : ManualReconciliation) (reconciledThrough : Option String)
    (lines : List RegisterLine) : ReconcileView where
  accountCode := code
  accountName := name
  statementDate := recon.statementDate
  statementBalanceMinor := toString recon.statementBalance.minorUnits
  reconciledThrough := reconciledThrough
  reconciledBalanceMinor := toString recon.reconciledBalance.minorUnits
  clearedThisSessionMinor := toString recon.clearedThisSession.minorUnits
  clearedBalanceMinor := toString recon.clearedBalance.minorUnits
  differenceMinor := toString recon.difference.minorUnits
  canFinish := recon.canFinish
  lines := lines.map fun l =>
    ⟨l.entryId, l.date, l.memo, toString l.amount.minorUnits, l.status⟩

variable (code : String) (statementDateRaw statementBalanceRaw : Option String)

def reconcileView : Except ReconcileFailure ReconcileView := do
  let account ← resolveAccount books.chart code
  let statementDate ← requireDate statementDateRaw
  let statementBalance ← parseBalance statementBalanceRaw ctx.currency
  let lines ← register ctx books account code
  let recon ← (manualReconciliation lines statementDate statementBalance).mapError .money
  return toView code account.name recon (books.recon.reconciledThrough ctx.tenant code) lines

def toggleCleared (entryId : EntryId) (cleared : Bool) :
    Except ReconcileFailure InMemoryReconStore := do
  let account ← resolveAccount books.chart code
  if trim entryId = "" then .error (.refused "entry_id is required")
  else if (books.recon.statuses ctx.tenant code).get? entryId = some .reconciled then
    .error (.refused (s!"{entryId} was locked in by a finished reconciliation and " ++
      "can't be changed"))
  else
    let lines ← register ctx books account code
    if ¬ lines.any fun l => l.entryId = entryId then
      .error (.refused s!"entry {entryId} does not affect account {code}")
    else
      return books.recon.setStatus ctx.tenant code entryId
        (if cleared then .cleared else .uncleared)

structure FinishResult where
  accountCode : String
  statementDate : String
  reconciledEntries : Nat
  reconciledThrough : String

def replaceFirst (text pattern replacement : List Char) : List Char :=
  if pattern.isPrefixOf text then replacement ++ text.drop pattern.length
  else match text with
    | [] => []
    | c :: text => c :: replaceFirst text pattern replacement

/-- Lock in what is ticked, whatever its date, where the difference is zero. -/
def finishReconciliation : Except ReconcileFailure (FinishResult × InMemoryReconStore) := do
  let account ← resolveAccount books.chart code
  let statementDate ← requireDate statementDateRaw
  let statementBalance ← parseBalance statementBalanceRaw ctx.currency
  let lines ← register ctx books account code
  let recon ← (manualReconciliation lines statementDate statementBalance).mapError .money
  match finishManualReconciliation recon (loadRegister books.recon ctx.tenant account.id code) with
  | .error message => .error (.refused
      (String.ofList (replaceFirst message.toList account.id.toList code.toList)))
  | .ok _ => return (⟨code, statementDate, recon.clearedEntryIds.length, statementDate⟩,
      (books.recon.setMany ctx.tenant code recon.clearedEntryIds .reconciled).setReconciledThrough
        ctx.tenant code statementDate)

structure MissingLine where
  date : String
  amountMinor : String
  description : String

structure OutstandingLine where
  entryId : EntryId
  date : String
  amountMinor : String
  memo : String

structure ImportResult where
  accountCode : String
  statementDate : String
  parsed : Nat
  matched : Nat
  newlyCleared : Nat
  differenceMinor : String
  canFinish : Bool
  missingFromBooks : List MissingLine
  notOnStatement : List OutstandingLine
  view : ReconcileView

def toStatementLine (txn : StatementTxn) (currency : Currency) :
    Except ReconcileFailure StatementLine := do
  let amount ← (Money.fromDecimal txn.amount currency).mapError .thrown
  return ⟨txn.fitid, txn.date, amount, txn.description, none⟩

/-- What an import finds out before it writes. -/
structure Imported where
  statementDate : String
  closing : Money
  parsed : Nat
  recon : BankReconciliation

def impliedStatement (accountId : AccountId) (statementDate : String) (closing : Money)
    (currency : Currency) (lines : List StatementLine) : Statement where
  accountId := accountId
  periodStart := (sortKeys (lines.map StatementLine.date)).head?.getD statementDate
  periodEnd := statementDate
  openingBalance := ⟨closing.minorUnits - (lines.map fun l => l.amount.minorUnits).sum, currency⟩
  closingBalance := closing
  lines := lines

def matchStatement (code text : String) (statementDateRaw statementBalanceRaw : Option String) :
    Except ReconcileFailure Imported := do
  let account ← resolveAccount books.chart code
  let statementDate ← requireDate statementDateRaw
  let closing ← parseBalance statementBalanceRaw ctx.currency
  if trim text = "" then .error (.refused "the statement file is empty")
  else
    let parsed ← (ctx.parseStatement text).mapError fun message =>
      .refused s!"this file could not be read as OFX or CSV: {message}"
    if parsed = [] then
      .error (.refused ("no transactions were found in this file — check it is the " ++
        "transaction export rather than a summary, and that it covers the right dates"))
    else
      let lines ← parsed.mapM fun t => toStatementLine t ctx.currency
      let recon ← (reconcileBankAccount books.entries account.id
        (impliedStatement account.id statementDate closing ctx.currency lines)
        (loadRegister books.recon ctx.tenant account.id code)).mapError .money
      return ⟨statementDate, closing, parsed.length, recon⟩

def importResult (before : OrderedMap EntryId ClearStatus) (imported : Imported)
    (view : ReconcileView) : ImportResult where
  accountCode := code
  statementDate := imported.statementDate
  parsed := imported.parsed
  matched := imported.recon.matched.length
  newlyCleared := (imported.recon.newlyClearedEntryIds.filter fun id =>
    before.get? id ≠ some .cleared).length
  differenceMinor := view.differenceMinor
  canFinish := view.canFinish
  missingFromBooks := imported.recon.unmatchedStatement.map fun l =>
    ⟨l.date, toString l.amount.minorUnits, l.description⟩
  notOnStatement := imported.recon.unclearedLines.map fun l =>
    ⟨l.entryId, l.date, toString l.amount.minorUnits, l.memo⟩
  view := view

def importStatement (code text : String) (statementDateRaw statementBalanceRaw : Option String) :
    Except ReconcileFailure ImportResult × InMemoryReconStore :=
  match matchStatement ctx books code text statementDateRaw statementBalanceRaw with
  | .error e => (.error e, books.recon)
  | .ok imported =>
    let before := books.recon.statuses ctx.tenant code
    let recon := books.recon.setMany ctx.tenant code imported.recon.newlyClearedEntryIds .cleared
    ((reconcileView ctx { books with recon := recon } code (some imported.statementDate)
      (some (toString imported.closing.minorUnits))).map (importResult code before imported), recon)

end Rgnr8.Service.Reconcile
