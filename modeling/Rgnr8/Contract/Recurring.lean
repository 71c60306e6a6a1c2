import Rgnr8.Forecast.Inputs
import Rgnr8.Ingestion.Pipeline
import Rgnr8.Reconciliation.LedgerRec

/-! Recurring flows out of canonical transactions, as the contract `forecast-inputs/1` carries them
to the forecast engine. -/

namespace Rgnr8.Contract
open Lib Lib.Js Kernel Ingestion
open Reconciliation (dayNumber)

inductive BuildError where
  | money (e : MoneyError)
  /-- `BigInt` of a number that is no integer. -/
  | range
  | noAsOf
  deriving DecidableEq

/-- An amount that is safe as a number: of any other the check itself throws. -/
structure MoneyDTO where
  minor : Int
  currency : String
  deriving DecidableEq

def moneyToDto (m : Money) : Except BuildError MoneyDTO :=
  if |m.minorUnits| ≤ Money.maxSafeInteger then .ok ⟨m.minorUnits, m.currency.code⟩
  else .error .range

structure RecurrenceDTO where
  frequency : Forecast.Frequency
  anchor : String
  interval : Int
  secondDay : Option Int
  end_ : Option String
  count : Option Int
  deriving DecidableEq

structure RecurringItemDTO where
  label : String
  category : Forecast.Category
  direction : Forecast.Direction
  amount : MoneyDTO
  recurrence : RecurrenceDTO
  deriving DecidableEq

structure DetectOptions where
  minOccurrences : Nat
  amountToleranceBps : Int
  gapToleranceDays : Int

def defaultDetect : DetectOptions := ⟨3, 500, 4⟩

/-- `Math.round` of half a whole number. -/
def roundHalf (n : Int) : Int := (n + 1) / 2

def medianGap (nums : List Int) : Option Int :=
  let s := nums.insertionSort (· ≤ ·)
  let mid := s.length / 2
  if s.length % 2 = 1 then s[mid]?
  else do return roundHalf ((← s[mid - 1]?) + (← s[mid]?))

/-- In the order of numbers, infinity last. -/
def NumberLe (a b : JsNumber) : Prop :=
  match a, b with
  | _, none => True
  | none, some _ => False
  | some x, some y => x ≤ y

instance : DecidableRel NumberLe := fun a b =>
  match a, b with
  | _, none => isTrue (by unfold NumberLe; split <;> trivial)
  | none, some _ => isFalse nofun
  | some x, some y => inferInstanceAs (Decidable (x ≤ y))

def medianNumber (nums : List JsNumber) : JsNumber :=
  let s := nums.insertionSort NumberLe
  let mid := s.length / 2
  if s.length % 2 = 1 then (s[mid]?).join
  else do
    let sum ← double ((← (s[mid - 1]?).join) + (← (s[mid]?).join))
    return ((sum / 2 + 1 / 2).floor : Int)

def frequencyForGap (gap : Int) : Option Forecast.Frequency :=
  if 6 ≤ gap ∧ gap ≤ 8 then some .weekly
  else if 12 ≤ gap ∧ gap ≤ 16 then some .biweekly
  else if 26 ≤ gap ∧ gap ≤ 32 then some .monthly
  else if 85 ≤ gap ∧ gap ≤ 95 then some .quarterly
  else if 358 ≤ gap ∧ gap ≤ 372 then some .annual
  else none

def kindToCategory (kind : TransactionKind) (inflow : Bool) : Forecast.Category :=
  match kind with
  | .payrollNet => .payrollNet
  | .payrollTax => .payrollTax
  | .deposit => .customerReceipt
  | .interest | .refund => .otherInflow
  | .fee | .purchase => .otherOutflow
  | _ => if inflow then .otherInflow else .otherOutflow

/-- White space runs become one blank each. -/
def collapseSpace : List Char → List Char
  | [] => []
  | c :: cs =>
    if isSpace c then
      match collapseSpace cs with
      | ' ' :: rest => ' ' :: rest
      | rest => ' ' :: rest
    else c :: collapseSpace cs

section
-- `String.prototype.toLowerCase`
variable (lowerCase : String → String)

def normalize (s : String) : String := trim (String.ofList (collapseSpace (lowerCase s).toList))

def groupKey (t : CanonicalTransaction) : String :=
  (if t.direction = .inflow then "IN" else "OUT") ++ "|" ++
    normalize lowerCase (t.counterparty.getD t.description)

def groupsOf (txns : List CanonicalTransaction) : OrderedMap String (List CanonicalTransaction) :=
  txns.foldl (fun groups t =>
    if t.isInternalTransfer ∨ t.amount.minorUnits = 0 then groups
    else
      let key := groupKey lowerCase t
      groups.set key ((groups.get? key).getD [] ++ [t])) .empty

end

def byDate (items : List CanonicalTransaction) : List CanonicalTransaction :=
  items.insertionSort fun a b => ¬ Before b.date a.date

def firstTen (iso : String) : String := String.ofList (iso.toList.take 10)

variable (opts : DetectOptions) (sorted : List CanonicalTransaction)

def cadenceOf : Option Forecast.Frequency := do
  -- a day that is no date leaves a gap that nothing is near
  let days ← sorted.mapM fun t => dayNumber t.date
  let gaps := List.zipWith (fun a b => b - a) days (days.drop 1)
  let medGap ← medianGap gaps
  if gaps.all fun g => |g - medGap| ≤ opts.gapToleranceDays then frequencyForGap medGap else none

def amountOf : Except BuildError (Option Int) :=
  let magnitudes := sorted.map fun t => |t.amount.minorUnits|
  match medianNumber (magnitudes.map fun (m : Int) => double m) with
  | none => .error .range
  | some q =>
    let medAmt := q.floor
    if medAmt = 0 then .ok none
    else
      let tol := (medAmt * opts.amountToleranceBps).tdiv 10000
      .ok (if magnitudes.all fun m => |m - medAmt| ≤ tol then some medAmt else none)

def detectGroup (items : List CanonicalTransaction) : Except BuildError (Option RecurringItemDTO) :=
  if items.length < opts.minOccurrences then .ok none
  else
    let sorted := byDate items
    match cadenceOf opts sorted, sorted.head?, sorted.getLast? with
    | some freq, some first, some latest => do
      match ← amountOf opts sorted with
      | none => return none
      | some medAmt =>
        let inflow := first.direction = .inflow
        let amount ← moneyToDto ⟨medAmt, first.amount.currency⟩
        return some {
          label := first.counterparty.getD first.description
          category := kindToCategory first.kind inflow
          direction := if inflow then .inflow else .outflow
          amount := amount
          recurrence := {
            frequency := freq
            anchor := firstTen latest.date
            interval := 1
            secondDay := none
            end_ := none
            count := none } }
    | _, _, _ => .ok none

def detectRecurring (lowerCase : String → String) (txns : List CanonicalTransaction)
    (opts : DetectOptions) : Except BuildError (List RecurringItemDTO) := do
  let found ← (groupsOf lowerCase txns).values.mapM (detectGroup opts)
  return found.reduceOption.insertionSort fun a b => b.amount.minor ≤ a.amount.minor

end Rgnr8.Contract

/-! The inputs of the forecast out of reconciled activity, and their reading on the other side of the
contract. -/

namespace Rgnr8.Contract
open Lib Lib.Js Lib.Py Kernel Ingestion
open Reconciliation (StatementReconciliation isCleanForPublish sumMoney)

structure OpeningDTO where
  asOf : String
  available : MoneyDTO
  restricted : MoneyDTO
  verified : Bool

/-- What the subledger contributes passes through as it is. -/
structure Subledger where
  invoices : List Forecast.Invoice
  customerHistories : List Forecast.CustomerHistory
  bills : List Forecast.Bill

structure ForecastInputsDTO where
  currency : String
  opening : OpeningDTO
  subledger : Subledger
  recurring : List RecurringItemDTO

structure BuildOptions where
  currency : Option String
  reconciliations : List StatementReconciliation
  transactions : List CanonicalTransaction
  asOf : Option String
  restrictedMinor : Int
  detect : DetectOptions
  subledger : Subledger

def cleanOf (opts : BuildOptions) : List StatementReconciliation :=
  opts.reconciliations.filter fun r => isCleanForPublish r

def cleanTxns (opts : BuildOptions) : List CanonicalTransaction :=
  opts.transactions.filter fun t => t.accountId ∈ (cleanOf opts).map (·.accountId)

def latestPeriodEnd (clean : List StatementReconciliation) : Option String :=
  ((clean.map (·.periodEnd)).insertionSort fun a b => ¬ Before b a).getLast?

def buildForecastInputs (lowerCase : String → String) (opts : BuildOptions) :
    Except BuildError ForecastInputsDTO := do
  let clean := cleanOf opts
  let ccyObj := (clean.head?.map fun r => r.statementClosing.currency).getD usd
  let currency := opts.currency.getD ccyObj.code
  let asOf ← match (opts.asOf.or (latestPeriodEnd clean)).filter (· ≠ "") with
    | some asOf => .ok asOf
    | none => .error .noAsOf
  let available ← (sumMoney (clean.map (·.statementClosing)) ccyObj).mapError .money
  let recurring ← detectRecurring lowerCase (cleanTxns opts) opts.detect
  let dto ← moneyToDto available
  return {
    currency := currency
    opening := {
      asOf := firstTen asOf
      available := dto
      restricted := ⟨((double opts.restrictedMinor).map Rat.floor).getD 0, currency⟩
      verified := clean.length = opts.reconciliations.length ∧ clean ≠ [] }
    subledger := opts.subledger
    recurring := recurring }

/-! The other side. -/

def moneyFromDto (d : MoneyDTO) : Forecast.Money := ⟨d.minor, d.currency⟩

def recurrenceFromDto (d : RecurrenceDTO) : Except PyError Forecast.Recurrence := do
  let anchor ← Date.fromIso d.anchor
  let end_ ← match d.end_ with
    | some e => (Date.fromIso e).map some
    | none => pure none
  return ⟨d.frequency, anchor, d.interval, d.secondDay, end_, d.count⟩

def recurringFromDto (d : RecurringItemDTO) : Except PyError Forecast.RecurringItem := do
  let recurrence ← recurrenceFromDto d.recurrence
  return ⟨d.label, d.category, d.direction, moneyFromDto d.amount, recurrence⟩

/-- `from_dto` -/
def inputsFromDto (dto : ForecastInputsDTO) : Except PyError Forecast.ForecastInputs := do
  let asOf ← Date.fromIso dto.opening.asOf
  let recurring ← dto.recurring.mapM recurringFromDto
  return {
    opening := ⟨asOf, moneyFromDto dto.opening.available, moneyFromDto dto.opening.restricted,
      dto.opening.verified⟩
    currency := dto.currency
    invoices := dto.subledger.invoices
    customerHistories := dto.subledger.customerHistories
    bills := dto.subledger.bills
    recurring := recurring
    payroll := []
    debt := []
    oneTime := []
    pipeline := [] }

end Rgnr8.Contract
