import Rgnr8.Lib.Python
import Rgnr8.Migration.Import
import Rgnr8.Service.ChartEditSpec
import Rgnr8.Service.Dimensions

/-! The refresh of a ledger that copies QuickBooks: one entry that moves every account by what it is
off QuickBooks' trial balance. -/

namespace Rgnr8.Migration
open Lib Kernel
open Service (planNewAccount quickbooksSource mirrorKeyPrefix provenanceFor)

/-- A row of the trial balance that is read from QuickBooks. -/
structure QboRow where
  code : String
  name : String
  accountType : String
  debitMinor : Int
  creditMinor : Int

inductive MirrorError where
  | journalRead (message : String)
  | foreign (entries : Nat)
  | quickBooksRead (message : String)
  | outOfBalance (minor : Int)
  | chartRead (message : String)
  | unplaceable (name code accountType : String)
  | notAdded (code : String) (message : String)
  | balancesRead (message : String)
  | refused (message : String)
  | stillDiffers (accounts : Nat)

structure MirrorResult where
  accountsMoved : Nat
  accountsCreated : Nat
  movedMinor : Int
  entryId : Option EntryId
  upToDate : Bool

/-- A refresh, with what each of its reads comes back with; a read of the ledger is an error or the
ledger's own state. -/
structure RefreshCall where
  asOf : String
  journal : Option String
  quickBooks : Except String (List QboRow)
  chart : Option String
  before : Option String
  after : Option String
  /-- The ledger's clock at the posting. -/
  now : String

def accountTypeToSubtype : List (String × AccountSubtype) := [
  ("bank", .bank), ("accounts receivable", .accountsReceivable),
  ("accounts_receivable", .accountsReceivable), ("undeposited funds", .undepositedFunds),
  ("other current asset", .otherCurrentAsset), ("other current assets", .otherCurrentAsset),
  ("inventory", .inventory), ("fixed asset", .fixedAsset), ("fixed assets", .fixedAsset),
  ("other asset", .otherAsset), ("other assets", .otherAsset),
  ("accounts payable", .accountsPayable), ("accounts_payable", .accountsPayable),
  ("credit card", .creditCard), ("other current liability", .otherCurrentLiability),
  ("other current liabilities", .otherCurrentLiability),
  ("long term liability", .longTermLiability), ("long-term liability", .longTermLiability),
  ("equity", .equity), ("income", .income), ("revenue", .income), ("other income", .otherIncome),
  ("cost of goods sold", .costOfGoodsSold), ("expense", .expense), ("expenses", .expense),
  ("other expense", .otherExpense), ("other expenses", .otherExpense)]

/-- The tenant's books as the ledger service keeps them. -/
structure Books (π : Type) where
  chart : ChartOfAccounts
  ledger : Ledger π

structure MirrorContext where
  tenant : TenantId
  currency : Currency
  /-- `str.lower` -/
  lower : String → String
  /-- The first sixteen hexadecimal digits of SHA-256. -/
  digest : String → String
  localeLe : String → String → Bool

def targetOf (rows : List QboRow) : OrderedMap String Int :=
  tally (fun r => Py.strip r.code) (fun r => r.debitMinor - r.creditMinor) .empty rows

def metaOf (rows : List QboRow) : OrderedMap String QboRow :=
  rows.foldl (fun m r => m.set (Py.strip r.code) r) .empty

def deltasOf (target ours : OrderedMap String Int) : List (String × Int) :=
  ((((target.keys ++ ours.keys).dedup).insertionSort fun a b => a ≤ b).map
    fun c => (c, target.at_ c - ours.at_ c)).filter fun p => p.2 ≠ 0

variable {π : Type} [PeriodStore π] (ctx : MirrorContext)

def subtypeForAccountType (accountType : String) : Option AccountSubtype :=
  (accountTypeToSubtype.find? fun p => p.1 = ctx.lower (Py.strip accountType)).map Prod.snd

variable (s : Books π)

def MirrorContext.journal : List PostedEntry := s.ledger.journal ctx.tenant

def ledgerBalances (asOf : String) : OrderedMap String Int :=
  (computeTrialBalance ctx.localeLe s.chart ctx.currency (some ⟨none, some asOf⟩)
    (ctx.journal s)).rows.foldl (fun m r => m.set r.code r.position) .empty

def foreignEntries : List PostedEntry :=
  (ctx.journal s).filter fun e => e.provenance.sourceSystem ≠ quickbooksSource

variable (call : RefreshCall)

def rowsToMatch : Except MirrorError (List QboRow) :=
  match call.journal with
  | some message => .error (.journalRead message)
  | none =>
    if foreignEntries ctx s ≠ [] then .error (.foreign (foreignEntries ctx s).length)
    else match call.quickBooks with
      | .error message => .error (.quickBooksRead message)
      | .ok rows =>
        let out := (targetOf rows).total fun _ n => n
        if out ≠ 0 then .error (.outOfBalance |out|)
        else match call.chart with
          | some message => .error (.chartRead message)
          | none => .ok rows

variable (chart : ChartOfAccounts)

def missing (rows : List QboRow) : List (String × QboRow) :=
  (metaOf rows).entries.filter fun p =>
    p.1 ∉ chart.list.map Account.code ∧ (targetOf rows).at_ p.1 ≠ 0

def addAccount (code name : String) (subtype : AccountSubtype) : Except String ChartOfAccounts :=
  match planNewAccount ⟨code, name, none, some subtype, none⟩
      ⟨chart, ctx.currency, true, fun _ => false, fun _ => 0⟩ with
  | .error _ => .error "the account is refused"
  | .ok account => chart.add account

def createMissing : ChartOfAccounts → List (String × QboRow) →
    Except MirrorError Unit × ChartOfAccounts
  | chart, [] => (.ok (), chart)
  | chart, (code, row) :: rest =>
    match subtypeForAccountType ctx row.accountType with
    | none => (.error (.unplaceable row.name code row.accountType), chart)
    | some subtype =>
      match addAccount ctx chart code (if row.name = "" then code else row.name) subtype with
      | .error message => (.error (.notAdded code message), chart)
      | .ok chart => createMissing chart rest

def mirrorKey (asOf : String) (deltas : List (String × Int)) : IdempotencyKey :=
  mirrorKeyPrefix ++ asOf ++ ":" ++
    ctx.digest ("|".intercalate (deltas.map fun p => s!"{p.1}:{p.2}"))

def deltaLine (p : String × Int) : Except MirrorError JournalLineInput :=
  match chart.getByCode (Js.trim p.1) with
  | none => .error (.refused s!"unknown account code {p.1}")
  | some account =>
    .ok ⟨account.id, if 0 < p.2 then .debit else .credit, ⟨|p.2|, ctx.currency⟩, none, none⟩

variable (deltas : List (String × Int))

def catchUpCommand (lines : List JournalLineInput) : PostCommand where
  tenantId := ctx.tenant
  idempotencyKey := mirrorKey ctx call.asOf deltas
  periodKey := String.ofList (call.asOf.toList.take 7)
  currency := ctx.currency
  entryDate := call.asOf
  lines := lines
  provenance := provenanceFor quickbooksSource call.asOf call.now
  memo := some s!"QuickBooks catch-up to {call.asOf}"

def postCatchUp : Except MirrorError PostedEntry × Books π :=
  match deltas.mapM (deltaLine ctx s.chart) with
  | .error e => (.error e, s)
  | .ok lines =>
    let (answer, ledger) := (PostingEngine.post s.chart (catchUpCommand ctx call deltas lines)
      ⟨call.now⟩).run LedgerCall.exec s.ledger
    (answer.mapError fun e => .refused e.message, { s with ledger := ledger })

def refreshMirror : Except MirrorError MirrorResult × Books π :=
  match rowsToMatch ctx s call with
  | .error e => (.error e, s)
  | .ok rows =>
    let new := missing s.chart rows
    match createMissing ctx s.chart new with
    | (.error e, chart) => (.error e, { s with chart := chart })
    | (.ok (), chart) =>
      let s := { s with chart := chart }
      match call.before with
      | some message => (.error (.balancesRead message), s)
      | none =>
        let deltas := deltasOf (targetOf rows) (ledgerBalances ctx s call.asOf)
        if deltas = [] then (.ok ⟨0, new.length, 0, none, true⟩, s)
        else match postCatchUp ctx s call deltas with
          | (.error e, s) => (.error e, s)
          | (.ok entry, s) => match call.after with
            | some message => (.error (.balancesRead message), s)
            | none =>
              let left := deltasOf (targetOf rows) (ledgerBalances ctx s call.asOf)
              if left ≠ [] then (.error (.stillDiffers left.length), s)
              else (.ok ⟨deltas.length, new.length, (deltas.map fun p => |p.2|).sum / 2, some entry.id,
                false⟩, s)

end Rgnr8.Migration
