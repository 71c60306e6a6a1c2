import Rgnr8.Migration.Import

/-! The ledger's trial balance beside the one that QuickBooks reports, name by name. -/

namespace Rgnr8.Migration
open Lib Lib.Js Kernel Fallible OrderedMap List

inductive DiffStatus where
  | match_ | mismatch | onlyRgnr8 | onlyQbo
  deriving DecidableEq

structure DiffRow where
  account : String
  rgnr8 : Money
  qbo : Money
  delta : Money
  status : DiffStatus

structure DiffReport where
  currency : String
  rows : List DiffRow
  inAgreement : Bool
  totalAbsDelta : Money
  matched : Nat
  mismatches : List DiffRow
  onlyInRgnr8 : List DiffRow
  onlyInQbo : List DiffRow

section
variable (currency : Currency)

def parseSide (text : Option String) : Except String Int :=
  match text.filter (· ≠ "") with
  | some text => (Money.fromDecimal text currency).map Money.minorUnits
  | none => .ok 0

def parseNetMinor (row : QboTrialBalanceRow) : Except String Int := do
  let d ← parseSide currency row.debit
  let c ← parseSide currency row.credit
  return d - c

def addReported (net : OrderedMap String Int) : List QboTrialBalanceRow →
    Except String (OrderedMap String Int)
  | [] => .ok net
  | row :: rows => do
    let minor ← parseNetMinor currency row
    addReported (net.add row.account minor) rows

def statusOf (tolerance : Int) (rgnr8 qbo : OrderedMap String Int) (name : String) : DiffStatus :=
  if qbo.get? name = none then .onlyRgnr8
  else if rgnr8.get? name = none then .onlyQbo
  else if |rgnr8.at_ name - qbo.at_ name| ≤ tolerance then .match_ else .mismatch

def diffRow (tolerance : Int) (rgnr8 qbo : OrderedMap String Int) (name : String) : DiffRow where
  account := name
  rgnr8 := ⟨rgnr8.at_ name, currency⟩
  qbo := ⟨qbo.at_ name, currency⟩
  delta := ⟨rgnr8.at_ name - qbo.at_ name, currency⟩
  status := statusOf tolerance rgnr8 qbo name

def compareTrialBalances (tolerance : Option Int) (rgnr8 : TrialBalance)
    (qbo : List QboTrialBalanceRow) : Except String DiffReport := do
  -- a later row of a name overwrites the earlier one
  let rgnr8Net := rgnr8.rows.foldl (fun net r => net.set r.name r.position) OrderedMap.empty
  let qboNet ← addReported currency .empty qbo
  let names := sortKeys (rgnr8Net.keys ++ qboNet.keys).dedup
  let rows := names.map (diffRow currency (tolerance.getD 0) rgnr8Net qboNet)
  let mismatches := rows.filter fun r => r.status = .mismatch
  let onlyInRgnr8 := rows.filter fun r => r.status = .onlyRgnr8
  let onlyInQbo := rows.filter fun r => r.status = .onlyQbo
  return {
    currency := currency.code
    rows := rows
    inAgreement := mismatches = [] ∧ onlyInRgnr8 = [] ∧ onlyInQbo = []
    totalAbsDelta := ⟨(rows.map fun r => |r.delta.minorUnits|).sum, currency⟩
    matched := (rows.filter fun r => r.status = .match_).length
    mismatches := mismatches
    onlyInRgnr8 := onlyInRgnr8
    onlyInQbo := onlyInQbo }

end

/-! What an agreement says. -/

def reportedNet (currency : Currency) (rows : List QboTrialBalanceRow) (name : String) : Int :=
  ((rows.filter fun r => r.account = name).map fun r =>
    (parseNetMinor currency r).toOption.getD 0).sum

section
variable {currency : Currency} {net : OrderedMap String Int} {rows : List QboTrialBalanceRow}
variable {net' : OrderedMap String Int}

theorem addReported_ok (h : addReported currency net rows = .ok net') (name : String) :
    net'.at_ name = net.at_ name + reportedNet currency rows name := by
  induction rows generalizing net with
  | nil =>
    rw [← Except.ok.inj h]
    exact (Int.add_zero _).symm
  | cons row rows ih =>
    unfold addReported at h
    rw [bind_eq_ok] at h
    obtain ⟨minor, hmin, h⟩ := h
    rw [ih h, at_add]
    unfold reportedNet
    by_cases hname : row.account = name
    · rw [filter_cons_of_pos (by simp [hname]), map_cons, sum_cons, hmin,
        if_pos hname.symm, Int.add_assoc]
      rfl
    · rw [filter_cons_of_neg (by simp [hname]), if_neg fun h => hname h.symm, Int.add_zero]

theorem mem_addReported (h : addReported currency net rows = .ok net') {name : String}
    (hin : net.get? name ≠ none ∨ ∃ r ∈ rows, r.account = name) : net'.get? name ≠ none := by
  induction rows generalizing net with
  | nil =>
    rw [← Except.ok.inj h]
    rcases hin with hin | ⟨r, hr, -⟩
    · exact hin
    · cases hr
  | cons row rows ih =>
    unfold addReported at h
    rw [bind_eq_ok] at h
    obtain ⟨minor, -, h⟩ := h
    refine ih h ?_
    unfold add
    rw [get?_set]
    by_cases hname : name = row.account
    · rw [if_pos hname]
      exact .inl (Option.some_ne_none _)
    · rw [if_neg hname]
      refine hin.imp_right ?_
      rintro ⟨r, hr, rfl⟩
      rcases mem_cons.mp hr with rfl | hr
      · exact absurd rfl hname
      · exact ⟨r, hr, rfl⟩

theorem exists_addReported (h : ∀ r ∈ rows, ∃ n, parseNetMinor currency r = .ok n)
    (net : OrderedMap String Int) : ∃ net', addReported currency net rows = .ok net' := by
  induction rows generalizing net with
  | nil => exact ⟨net, rfl⟩
  | cons row rows ih =>
    rw [forall_mem_cons] at h
    obtain ⟨minor, hmin⟩ := h.1
    obtain ⟨net', hnet'⟩ := ih h.2 (net.add row.account minor)
    exact ⟨net', bind_eq_ok.mpr ⟨minor, hmin, hnet'⟩⟩

theorem readable_of_addReported (h : addReported currency net rows = .ok net') :
    ∀ r ∈ rows, ∃ n, parseNetMinor currency r = .ok n := by
  induction rows generalizing net with
  | nil => exact forall_mem_nil _
  | cons row rows ih =>
    unfold addReported at h
    rw [bind_eq_ok] at h
    obtain ⟨minor, hmin, h⟩ := h
    exact forall_mem_cons.mpr ⟨⟨minor, hmin⟩, ih h⟩

theorem status_of_inAgreement {tolerance : Option Int} {tb : TrialBalance} {report : DiffReport}
    (h : compareTrialBalances currency tolerance tb rows = .ok report)
    (hagree : report.inAgreement = true) :
    ∃ qboNet, addReported currency .empty rows = .ok qboNet ∧
      ∀ name, (tb.rows.foldl (fun net r => net.set r.name r.position)
        (OrderedMap.empty : OrderedMap String Int)).get? name ≠ none ∨ qboNet.get? name ≠ none →
        statusOf (tolerance.getD 0) (tb.rows.foldl (fun net r => net.set r.name r.position) .empty)
          qboNet name = .match_ := by
  unfold compareTrialBalances at h
  dsimp only at h
  rw [bind_eq_ok] at h
  obtain ⟨qboNet, hqbo, h⟩ := h
  refine ⟨qboNet, hqbo, fun name hname => ?_⟩
  generalize tb.rows.foldl (fun net r => net.set r.name r.position)
    (empty : OrderedMap String Int) = rgnr8Net at h hname ⊢
  rw [← Except.ok.inj h] at hagree
  obtain ⟨hmis, hrgnr8, hqboOn⟩ := of_decide_eq_true hagree
  have hrow : diffRow currency (tolerance.getD 0) rgnr8Net qboNet name ∈
      (sortKeys (rgnr8Net.keys ++ qboNet.keys).dedup).map
        (diffRow currency (tolerance.getD 0) rgnr8Net qboNet) := by
    refine mem_map_of_mem ((mem_insertionSort _).mpr (mem_dedup.mpr ?_))
    rw [mem_append, mem_keys_iff, mem_keys_iff]
    rwa [Option.ne_none_iff_exists', Option.ne_none_iff_exists'] at hname
  rw [filter_eq_nil_iff] at hmis hrgnr8 hqboOn
  have hnotM := hmis _ hrow
  have hnotRgnr8 := hrgnr8 _ hrow
  have hnotQ := hqboOn _ hrow
  cases hstatus : statusOf (tolerance.getD 0) rgnr8Net qboNet name with
  | match_ => rfl
  | mismatch => exact absurd (decide_eq_true hstatus) hnotM
  | onlyRgnr8 => exact absurd (decide_eq_true hstatus) hnotRgnr8
  | onlyQbo => exact absurd (decide_eq_true hstatus) hnotQ

end

/-! The migration from end to end: chart, import, trial balance, comparison, and the opening of the
forecast out of the ledger's own cash. -/

inductive MigrationError where
  | chart (message : String)
  | ledger (e : LedgerError)
  | amount (message : String)
  /-- `BigInt` of a number that is no integer. -/
  | range

structure MoneyDTO where
  minor : Int
  currency : String

def moneyToDto (m : Money) : Except MigrationError MoneyDTO :=
  if |m.minorUnits| ≤ Money.maxSafeInteger then .ok ⟨m.minorUnits, m.currency.code⟩
  else .error .range

structure QboOpenInvoice where
  id : String
  customerId : String
  issueDate : String
  dueDate : String
  balance : String

structure QboOpenBill where
  id : String
  vendorId : String
  txnDate : String
  dueDate : String
  balance : String

structure OpenInvoiceDTO where
  id : String
  customerId : String
  issueDate : String
  dueDate : String
  openAmount : MoneyDTO

structure OpenBillDTO where
  id : String
  vendorId : String
  dueDate : String
  amount : MoneyDTO

structure OpeningDTO where
  asOf : String
  available : MoneyDTO
  verified : Bool

structure ForecastInputsDTO where
  currency : String
  opening : OpeningDTO
  invoices : List OpenInvoiceDTO
  bills : List OpenBillDTO

structure MigrationOnboardOptions where
  tenantId : TenantId
  currency : Currency
  asOf : String
  ingestedAt : String
  postedAt : String
  openInvoices : List QboOpenInvoice
  openBills : List QboOpenBill
  toleranceMinor : Option Int

variable (currency : Currency)

def openAmount (balance : String) : Except MigrationError (Option MoneyDTO) := do
  let amount ← (Money.fromDecimal balance currency).mapError .amount
  if 0 < amount.minorUnits then (moneyToDto amount).map some else return none

def invoiceDto (inv : QboOpenInvoice) : Except MigrationError (Option OpenInvoiceDTO) := do
  let amount ← openAmount currency inv.balance
  let dueDate := if inv.dueDate = "" then inv.issueDate else inv.dueDate
  return amount.map fun amount => ⟨inv.id, inv.customerId, inv.issueDate, dueDate, amount⟩

def billDto (bill : QboOpenBill) : Except MigrationError (Option OpenBillDTO) := do
  let amount ← openAmount currency bill.balance
  let dueDate := if bill.dueDate = "" then bill.txnDate else bill.dueDate
  return amount.map fun amount => ⟨bill.id, bill.vendorId, dueDate, amount⟩

variable (exp : QboExport)

def bankNames : List String :=
  (exp.accounts.filter fun a => a.type = .bank).map QboAccount.name

def buildMigrationForecastInputs (tb : TrialBalance) (opts : MigrationOnboardOptions)
    (openingVerified : Bool) : Except MigrationError ForecastInputsDTO := do
  let openingMinor := ((tb.rows.filter fun r => r.name ∈ bankNames exp).map
    TrialBalanceRow.position).sum
  let invoices ← opts.openInvoices.mapM (invoiceDto opts.currency)
  let bills ← opts.openBills.mapM (billDto opts.currency)
  let available ← moneyToDto ⟨openingMinor, opts.currency⟩
  return {
    currency := opts.currency.code
    opening := ⟨String.ofList (opts.asOf.toList.take 10), available, openingVerified⟩
    invoices := invoices.reduceOption
    bills := bills.reduceOption }

structure MigrationResult (π : Type) where
  chart : QboChart
  ledger : Ledger π
  importReport : ImportReport
  trialBalance : TrialBalance
  diff : Option DiffReport
  verified : Bool
  dto : ForecastInputsDTO

variable (opts : MigrationOnboardOptions)

def MigrationOnboardOptions.toImport : ImportOptions :=
  ⟨opts.tenantId, opts.currency, opts.ingestedAt, none⟩

def parallelClose (tb : TrialBalance) : Except MigrationError (Option DiffReport) :=
  match exp.reportedTrialBalance.filter (· ≠ []) with
  | none => .ok none
  | some reported =>
    ((compareTrialBalances opts.currency opts.toleranceMinor tb reported).mapError .amount).map some

variable {π : Type} [PeriodStore π]

def runMigrationOnboarding (lowerCase : String → String) (localeLe : String → String → Bool)
    (exp : QboExport) (opts : MigrationOnboardOptions) (s : Ledger π) :
    Except MigrationError (MigrationResult π) := do
  let chart ← (buildChartFromQbo lowerCase opts.currency exp.accounts).mapError .chart
  let imported := (importQbo chart opts.toImport exp opts.postedAt).run LedgerCall.exec s
  let importReport ← imported.1.mapError .ledger
  let tb := computeTrialBalance localeLe chart.coa opts.currency none (imported.2.journal opts.tenantId)
  let diff ← parallelClose exp opts tb
  let verified := diff.any DiffReport.inAgreement
  let dto ← buildMigrationForecastInputs exp tb opts verified
  return {
    chart := chart
    ledger := imported.2
    importReport := importReport
    trialBalance := tb
    diff := diff
    verified := verified
    dto := dto }

end Rgnr8.Migration
