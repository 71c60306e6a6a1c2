import Rgnr8.Service.Flow
import Rgnr8.Subledger.Recurring

/-! Recurring transactions: memorized templates with a schedule, posted when somebody runs what is
due. Each occurrence posts under a key derived from the template and the date. -/

namespace Rgnr8.Service.Recurring
open Lib Lib.Js Kernel Subledger.Recurring

structure RecurringLineRecord where
  accountCode : String
  side : EntrySide
  amountMinor : Int
  memo : String
  dimensions : Dimensions
  deriving DecidableEq

structure RecurringRecord where
  id : String
  name : String
  frequency : Frequency
  interval : ℕ+
  startDate : String
  endDate : String
  memo : String
  active : Bool
  lastPosted : String
  lines : List RecurringLineRecord
  deriving DecidableEq

structure RecurringStore where
  items : OrderedMap (TenantId × String) RecurringRecord
  id_of_get : ∀ {t id r}, items.get? (t, id) = some r → r.id = id

namespace RecurringStore

def empty : RecurringStore := ⟨.empty, nofun⟩

variable (s : RecurringStore) (tenant : TenantId)

def list : List RecurringRecord :=
  (s.items.filter fun key _ => key.1 = tenant).values

def get (s : RecurringStore) (tenant : TenantId) (id : String) : Option RecurringRecord :=
  s.items.get? (tenant, id)

def save (record : RecurringRecord) : RecurringStore where
  items := s.items.set (tenant, record.id) record
  id_of_get := by
    intro t id r h
    rw [OrderedMap.get?_set] at h
    split_ifs at h with hkey
    · rw [← Option.some.inj h, (Prod.mk.inj hkey).2]
    · exact s.id_of_get h

def remove (id : String) : RecurringStore where
  items := s.items.filter fun key _ => key ≠ (tenant, id)
  id_of_get := by
    intro t id' r h
    rw [OrderedMap.get?_filter, Option.filter_eq_some_iff] at h
    exact s.id_of_get h.1

theorem get_save (tenant t : TenantId) (record : RecurringRecord) (id : String) :
    (s.save tenant record).get t id =
      if (t, id) = (tenant, record.id) then some record else s.get t id := OrderedMap.get?_set ..

theorem mem_list {s : RecurringStore} {t : TenantId} {r : RecurringRecord} :
    r ∈ s.list t ↔ s.get t r.id = some r := by
  unfold list OrderedMap.values get
  rw [List.mem_map]
  constructor
  · rintro ⟨⟨⟨t', id⟩, r'⟩, hmem, rfl⟩
    obtain ⟨hmem, htenant⟩ := List.mem_filter.mp hmem
    have hget := OrderedMap.mem_entries.mp hmem
    have hid : r'.id = id := s.id_of_get hget
    have ht : t' = t := of_decide_eq_true htenant
    show s.items.get? (t, r'.id) = some r'
    rw [hid, ← ht]
    exact hget
  · intro h
    exact ⟨((t, r.id), r), List.mem_filter.mpr ⟨OrderedMap.mem_entries.mpr h,
      decide_eq_true rfl⟩, rfl⟩

end RecurringStore

inductive RecurringCall where
  | list (tenant : TenantId)
  | get (tenant : TenantId) (id : String)
  | save (tenant : TenantId) (record : RecurringRecord)

abbrev RecurringCall.Answer : RecurringCall → Type
  | list _ => List RecurringRecord
  | get _ _ => Option RecurringRecord
  | save _ _ => Unit

def RecurringCall.exec : (c : RecurringCall) → RecurringStore → c.Answer × RecurringStore
  | list t, s => (s.list t, s)
  | get t id, s => (s.get t id, s)
  | save t record, s => ((), s.save t record)

abbrev RecurringProg := FlowProg RecurringCall RecurringCall.Answer

abbrev exec {π : Type} [PeriodStore π] : (c : FlowCall RecurringCall) →
    Stores π RecurringStore → FlowCall.Answer RecurringCall.Answer c × Stores π RecurringStore :=
  FlowCall.exec RecurringCall.exec

/-- The tenant's side of a request. The chart is the one the dimensions are checked against. -/
structure RecurringContext where
  tenant : TenantId
  currency : Currency
  dimensions : DimensionContext
  letters : CaseMapping
  localeLe : String → String → Bool

variable (ctx : RecurringContext)

def RecurringContext.chart : ChartOfAccounts := ctx.dimensions.chart

/-! Saving a template. -/

structure LineInput where
  accountCode : Option String
  side : Option String
  amountMinor : Option TextOrNumber
  memo : Option String
  dimensions : Option Dimensions

structure RecurringInput where
  id : Option String
  name : Option String
  frequency : Option String
  interval : Option TextOrNumber
  startDate : Option String
  endDate : Option String
  memo : Option String
  active : Option Bool
  lines : List LineInput

def frequencies : List Frequency := [.daily, .weekly, .monthly, .yearly]

def frequencyOf (letters : CaseMapping) (raw : Option String) : Except FlowFailure Frequency :=
  match frequencies.find? fun f => f.text = letters.toUpperCase (trim (raw.getD "")) with
  | none => .error (.own ("frequency must be one of " ++
      ", ".intercalate (frequencies.map Frequency.text)))
  | some f => .ok f

theorem toNat_pos_of_not_lt {n : Int} (h : ¬ n < 1) : 0 < n.toNat := by
  omega

def intervalOf (raw : Option TextOrNumber) : Except FlowFailure ℕ+ :=
  match integerOf (Js.numberOf (raw.getD (.number (some 1)))) with
  | some n =>
    if h : n < 1 then .error (.own "interval must be a whole number of periods, at least 1")
    else .ok ⟨n.toNat, toNat_pos_of_not_lt h⟩
  | none => .error (.own "interval must be a whole number of periods, at least 1")

def endDateOf (raw : Option String) (startDate : String) : Except FlowFailure String := do
  let endDate := trim (raw.getD "")
  if endDate = "" then return endDate
  else
    let checked ← requireDate (some endDate) "end date"
    if Before checked startDate then .error (.own "the end date is before the start date")
    else return checked

def sideOf (letters : CaseMapping) (code : String) (raw : Option String) :
    Except FlowFailure EntrySide :=
  let side := letters.toUpperCase (raw.getD "")
  if side = "DEBIT" then .ok .debit
  else if side = "CREDIT" then .ok .credit
  else .error (.own s!"line {code}: side must be DEBIT or CREDIT")

def lineRecord (l : LineInput) : Except FlowFailure RecurringLineRecord :=
  do
  let code := trim (l.accountCode.getD "")
  let _ ← accountOf ctx.chart code
  let side ← sideOf ctx.letters code l.side
  let amount ← match (wholeNumber l.amountMinor).filter (0 < ·) with
    | some amount => .ok amount
    | none => .error (.own s!"line {code}: amount must be a positive integer minor-unit value")
  return ⟨code, side, amount, l.memo.getD "", l.dimensions.getD .empty⟩

def totalOf (side : EntrySide) (lines : List RecurringLineRecord) : Int :=
  ((lines.filter fun l => l.side = side).map RecurringLineRecord.amountMinor).sum

/-- `/[^a-z0-9]+/g` to a hyphen, and then no hyphen at either end. -/
def slugOf (name : String) : String :=
  let hyphened := (toLowerCase name).toList.foldr (fun c cs =>
    if c.isLower ∨ c.isDigit then c :: cs
    else if cs.head? = some '-' then cs else '-' :: cs) []
  let front := if hyphened.head? = some '-' then hyphened.drop 1 else hyphened
  String.ofList (if front.getLast? = some '-' then front.dropLast else front)

def templateOf (input : RecurringInput) : Except FlowFailure (String → RecurringRecord) := do
  let name := trim (input.name.getD "")
  Fallible.refuse (name = "") (.own "a recurring transaction needs a name")
  let frequency ← frequencyOf ctx.letters input.frequency
  let interval ← intervalOf input.interval
  let startDate ← requireDate input.startDate "start date"
  let endDate ← endDateOf input.endDate startDate
  Fallible.refuse (input.lines.length < 2)
    (.own "a recurring transaction needs at least two lines")
  let lines ← input.lines.mapM (lineRecord ctx)
  let debit := totalOf .debit lines
  let credit := totalOf .credit lines
  Fallible.refuse (debit ≠ credit)
    (.own s!"this template doesn't balance — debits {debit} vs credits {credit}")
  return fun lastPosted => {
    id := if trim (input.id.getD "") = "" then slugOf name else trim (input.id.getD "")
    name := name
    frequency := frequency
    interval := interval
    startDate := startDate
    endDate := endDate
    memo := trim (input.memo.getD "")
    active := input.active ≠ some false
    lastPosted := lastPosted
    lines := lines }

def saveRecurring (input : RecurringInput) : RecurringProg RecurringRecord := do
  let template ← Prog.ofExcept (templateOf ctx input)
  -- the template saved under the id before keeps its mark
  let existing ← match input.id.filter (· ≠ "") with
    | some id => Prog.perform (FlowCall.own (RecurringCall.get ctx.tenant id))
    | none => .ret none
  let record := template ((Option.map RecurringRecord.lastPosted existing).getD "")
  Prog.refuseIf (record.id = "") (.own "a recurring transaction needs a name")
  Prog.perform (FlowCall.own (RecurringCall.save ctx.tenant record))
  return record

/-! What is due. -/

def scheduleOf (r : RecurringRecord) : RecurringSchedule :=
  ⟨r.frequency, r.interval, r.startDate, if r.endDate = "" then none else some r.endDate, none⟩

def idempotencyKeyFor (templateId date : String) : IdempotencyKey :=
  "recurring:" ++ templateId ++ ":" ++ date

structure DueOccurrence where
  id : String
  name : String
  date : String
  memo : String
  amountMinor : Int

variable (t : RecurringRecord) (date : String)

def dueOccurrence : DueOccurrence where
  id := t.id
  name := t.name
  date := date
  memo := if t.memo = "" then t.name else t.memo
  amountMinor := totalOf .debit t.lines

def dueDates (ctx : RecurringContext) (t : RecurringRecord) :
    List String → RecurringProg (List DueOccurrence)
  | [] => return []
  | date :: dates => do
    let held ← Prog.perform (FlowCall.ledger
      (.getByIdempotencyKey ctx.tenant (idempotencyKeyFor t.id date)))
    let rest ← dueDates ctx t dates
    return if Option.isSome held then rest else dueOccurrence t date :: rest

def dueTemplates (ctx : RecurringContext) (asOf : String) :
    List RecurringRecord → RecurringProg (List DueOccurrence)
  | [] => return []
  | t :: ts =>
    if ¬ t.active then dueTemplates ctx asOf ts
    else do
      let dates ← Prog.ofExcept
        ((occurrencesBetween (scheduleOf t) t.startDate asOf).mapError FlowFailure.own)
      let due ← dueDates ctx t dates
      let rest ← dueTemplates ctx asOf ts
      return due ++ rest

def dueLe (a b : DueOccurrence) : Bool :=
  if a.date = b.date then ctx.localeLe a.id b.id else ctx.localeLe a.date b.date

def dueOccurrences (asOfRaw : Option String) : RecurringProg (List DueOccurrence) := do
  let asOf ← Prog.ofExcept (requireDate asOfRaw "as-of date")
  let templates ← Prog.perform (FlowCall.own (RecurringCall.list ctx.tenant))
  let due ← dueTemplates ctx asOf templates
  return due.insertionSort fun a b => dueLe ctx a b = true

/-! Running what is due. -/

def provenanceFor (templateId date at_ : String) : Provenance where
  sourceSystem := "recurring"
  sourceObject := templateId
  sourceVersion := "1"
  effectiveDate := date
  postedDate := date
  ingestedAt := at_
  normalizationVersion := "ledger-service/recurring-1"
  mappingVersion := "ledger-service/recurring-1"

def journalLine (l : RecurringLineRecord) : Except FlowFailure JournalLineInput := do
  let account ← accountOf ctx.chart l.accountCode
  return {
    accountId := account.id
    side := l.side
    amount := ⟨l.amountMinor, ctx.currency⟩
    memo := if l.memo = "" then none else some l.memo
    dimensions := if l.dimensions.entries = [] then none else some l.dimensions }

def commandFor (lines : List JournalLineInput) (ingestedAt : String) : PostCommand where
  tenantId := ctx.tenant
  idempotencyKey := idempotencyKeyFor t.id date
  periodKey := periodOf date
  currency := ctx.currency
  entryDate := date
  lines := lines
  provenance := provenanceFor t.id date ingestedAt
  memo := some (if t.memo = "" then t.name else t.memo)

structure RunEntry where
  id : String
  date : String
  entryId : EntryId
  deriving DecidableEq

structure RunFailure where
  id : String
  date : String
  error : FlowFailure
  deriving DecidableEq

structure RunResult where
  entries : List RunEntry
  failures : List RunFailure
  deriving DecidableEq

def RunResult.posted (r : RunResult) : Nat := r.entries.length

def RecurringContext.flow (clock : Clock) : FlowContext :=
  ⟨ctx.tenant, ctx.chart, ctx.currency, clock, ctx.letters⟩

/-- A later occurrence moves the template's mark. -/
def markPosted (entry : PostedEntry) : RecurringProg PostedEntry :=
  if Before t.lastPosted date then do
    Prog.perform (FlowCall.own (RecurringCall.save ctx.tenant { t with lastPosted := date }))
    return entry
  else return entry

/-- The part of the loop that is caught. -/
def postOccurrence (clock : Clock) (t : RecurringRecord) (date : String) (command : PostCommand) :
    RecurringProg PostedEntry := do
  Prog.ofExcept ((validateDimensions ctx.dimensions command).mapError FlowFailure.dimension)
  let entry ← postFlow (ctx.flow clock) command
  markPosted ctx t date entry

def RunResult.add (r : RunResult) (id date : String) : Except FlowFailure PostedEntry → RunResult
  | .ok entry => { r with entries := r.entries ++ [⟨id, date, entry.id⟩] }
  | .error e => { r with failures := r.failures ++ [⟨id, date, e⟩] }

/-- The loop. The lines are built outside of what is caught. -/
def postDue (ctx : RecurringContext) : List DueOccurrence → List Clock → RunResult →
    RecurringProg RunResult
  | [], _, result => return result
  | occurrence :: due, clocks, result => do
    let found ← Prog.perform (FlowCall.own (RecurringCall.get ctx.tenant occurrence.id))
    match (found : Option RecurringRecord) with
    | none => postDue ctx due clocks result
    | some t =>
      let clock := clocks.headD ⟨"", ""⟩
      let lines ← Prog.ofExcept (t.lines.mapM (journalLine ctx))
      let command := commandFor ctx t occurrence.date lines clock.ingestedAt
      let outcome ← Prog.attempt (postOccurrence ctx clock t occurrence.date command)
      postDue ctx due clocks.tail (result.add t.id occurrence.date outcome)

def runDue (asOfRaw : Option String) (onlyId : Option String) (clocks : List Clock) :
    RecurringProg RunResult := do
  let asOf ← Prog.ofExcept (requireDate asOfRaw "as-of date")
  let due ← dueOccurrences ctx (some asOf)
  postDue ctx (due.filter fun d => onlyId.all fun id => id = "" ∨ d.id = id) clocks ⟨[], []⟩

end Rgnr8.Service.Recurring
