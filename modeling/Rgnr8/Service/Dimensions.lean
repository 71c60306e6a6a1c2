import Rgnr8.Lib.Javascript
import Rgnr8.Kernel.RetryStability

/-! Dimensions on a request's lines: read from JSON, then checked against the defined keys and
values before anything is posted. -/

namespace Rgnr8.Service
open Lib Lib.Js Kernel

structure DimensionDef where
  key : String
  label : String
  values : List String
  required : Bool

def dimensionRegistry (defs : List DimensionDef) : OrderedMap String DimensionDef :=
  defs.foldl (fun m d => m.set d.key d) .empty

def checkDimension (registry : OrderedMap String DimensionDef) (key value : String) :
    Except String Unit :=
  match registry.get? key with
  | none => .error s!"unknown dimension \"{key}\""
  | some d =>
    if trim value = "" then .error s!"empty value for dimension \"{key}\""
    else if d.values ≠ [] ∧ value ∉ d.values then
      .error s!"value \"{value}\" is not allowed for dimension \"{key}\""
    else .ok ()

def validateLineDimensions (registry : OrderedMap String DimensionDef)
    (dimensions : Option Dimensions) : Except String Unit := do
  for (key, value) in (dimensions.getD .empty).entries do
    checkDimension registry key value
  for d in registry.values do
    if d.required ∧ d.key ∉ (dimensions.getD .empty).keys then
      .error s!"dimension \"{d.key}\" is required"

structure DimensionContext where
  chart : ChartOfAccounts
  dimensions : List DimensionDef
  jobs : List String
  costCodes : List String

/-- `job` and `cost_code` are defined by the jobs and cost codes of the tenant. -/
def reservedDimensions (ctx : DimensionContext) : List DimensionDef :=
  if ctx.jobs = [] then []
  else [⟨"job", "Job", ctx.jobs, false⟩, ⟨"cost_code", "Cost code", ctx.costCodes, false⟩]

def checkRequired (ctx : DimensionContext) (required : List DimensionDef) (line : PostedLine) :
    Except String Unit := do
  match ctx.chart.get line.accountId with
  | none => pure ()
  | some account =>
    if account.type = .revenue ∨ account.type = .expense then
      for d in required do
        if (((line.dimensions.getD .empty).get? d.key).getD "") = "" then
          .error s!"{account.code}: {d.label} is required on income and expense lines"

def validateDimensions (ctx : DimensionContext) (command : PostCommand) : Except String Unit := do
  let defs := ctx.dimensions ++ reservedDimensions ctx
  if defs = [] then
    for line in command.lines do
      match (line.dimensions.getD .empty).keys with
      | [] => pure ()
      | key :: _ =>
        .error s!"no dimensions are defined for this business, so \"{key}\" cannot be used"
  else
    -- keys and values are checked on every line, so the registry asks for none
    let shapes := dimensionRegistry (defs.map fun d => { d with required := false })
    for line in command.lines do
      validateLineDimensions shapes line.dimensions
      checkRequired ctx (defs.filter fun d => d.required) line

/-- Keep the set entries: a blank one means "not set", and `__proto__` cannot be assigned. -/
def collectDimensions (label : String) :
    List (String × Json) → Dimensions → Except String Dimensions
  | [], out => .ok out
  | (key, .string value) :: rest, out =>
    if trim value = "" ∨ key = "__proto__" then collectDimensions label rest out
    else collectDimensions label rest (out.set key (trim value))
  | (key, _) :: _, _ => .error s!"{label}: dimension \"{key}\" must be a string"

def dimensionsOf (raw : Option Json) (label : String) : Except String (Option Dimensions) :=
  match raw with
  | none | some .null => .ok none
  | some (.object fields) => (collectDimensions label fields .empty).map fun out =>
      if out.entries = [] then none else some out
  | some _ => .error s!"{label}: dimensions must be an object"

/-! `POST /t/<tenant>/entries`: from a JSON body to a posted entry. Every request builds its
provenance anew from the service clock. -/

/-- What a handler can end with instead of an answer. -/
inductive ServiceError where
  | bad (message : String)
  | dimension (message : String)
  | ledger (e : LedgerError)
  | bookOfRecord
  | afterCutover
  deriving DecidableEq

abbrev ServiceProg := Prog LedgerCall LedgerCall.Answer ServiceError

def mirrorKeyPrefix : String := "qbo-mirror:"

def openingKeyPrefix : String := "cutover:opening:"

def quickbooksSource : String := "quickbooks"

def startsWith (s p : String) : Bool := p.toList.isPrefixOf s.toList

structure BookOfRecord where
  parallelRun : Bool
  cutOver : Bool

def isQuickBooksCopy (draft : DraftEntry) : Bool :=
  draft.provenance.sourceSystem = quickbooksSource ∧
    (startsWith draft.idempotencyKey mirrorKeyPrefix ∨
      startsWith draft.idempotencyKey openingKeyPrefix)

/-- The guarded store: its `append` refuses what the book of record does not allow. -/
def guardStore (book : BookOfRecord) : (c : LedgerCall) → ServiceProg c.Answer
  | .append draft =>
    if isQuickBooksCopy draft then
      if book.cutOver then .throw .afterCutover else Prog.perform (LedgerCall.append draft)
    else if book.parallelRun then .throw .bookOfRecord
    else Prog.perform (LedgerCall.append draft)
  | .getByIdempotencyKey tenant key => Prog.perform (LedgerCall.getByIdempotencyKey tenant key)
  | .getById tenant id => Prog.perform (LedgerCall.getById tenant id)
  | .status tenant period => Prog.perform (LedgerCall.status tenant period)
  | .periods op => Prog.perform (LedgerCall.periods op)

/-- The tenant's side of a request. `parse` is `JSON.parse`, none where it throws. -/
structure EntryContext where
  tenant : TenantId
  currency : Currency
  dimensions : DimensionContext
  book : BookOfRecord
  parse : String → Option Json

/-- The readings of the service clock during one request, in the order they are taken. -/
structure Clock where
  ingestedAt : String
  postedAt : String

def parseJson (parse : String → Option Json) (body : String) : Option (List (String × Json)) :=
  if trim body = "" then some []
  else match parse body with
    | some (.object fields) => some fields
    | _ => none

def str : Option Json → String
  | some (.string s) => s
  | _ => ""

def provenanceFor (source date at_ : String) : Provenance :=
  ⟨source, "journal", "1", date, date, at_, "ledger-service/1", "ledger-service/1"⟩

def fieldsOf : Json → Option (List (String × Json))
  | .object fields => some fields
  | .array _ => some []
  | _ => none

def sideOf (code : String) (raw : String) : Except ServiceError EntrySide :=
  if toUpperCase raw = "DEBIT" then .ok .debit
  else if toUpperCase raw = "CREDIT" then .ok .credit
  else .error (.bad s!"line {code}: side must be DEBIT or CREDIT")

def minorOf (code : String) (raw : Option Json) : Except ServiceError Int :=
  let parsed : Except ServiceError (Option Int) := match raw with
    | some (.string s) => .ok (bigInt (.text s))
    | some (.number n) => .ok (bigInt (.number n))
    | _ => .error (.bad s!"line {code}: amount_minor must be an integer minor-unit value")
  match parsed with
  | .error e => .error e
  | .ok none => .error (.bad s!"line {code}: amount_minor is not an integer")
  | .ok (some minor) =>
    if minor ≤ 0 then
      .error (.bad s!"line {code}: amount must be positive (the side conveys direction)")
    else .ok minor

variable (ctx : EntryContext)

def entryLine (raw : Json) : Except ServiceError JournalLineInput :=
  match fieldsOf raw with
  | none => .error (.bad "each line must be an object")
  | some l =>
    let code := trim (str (lookup l "code"))
    match ctx.dimensions.chart.getByCode code with
    | none => .error (.bad s!"unknown account code {code}")
    | some account => do
      let side ← sideOf code (str (lookup l "side"))
      let minor ← minorOf code (lookup l "amount_minor")
      let dimensions ← (dimensionsOf (lookup l "dimensions") s!"line {code}").mapError .dimension
      let memo := str (lookup l "memo")
      return {
        accountId := account.id
        side := side
        amount := ⟨minor, ctx.currency⟩
        memo := if memo = "" then none else some memo
        dimensions := dimensions }

def claimsQuickBooks (source : String) : Bool := toLowerCase (trim source) = quickbooksSource

/-- The key a body without an `idempotency_key` gets. -/
def defaultKey (date : String) (lines : List JournalLineInput) : String :=
  let fingerprint := "|".intercalate (lines.map fun l =>
    s!"{l.accountId}:{l.side.text}:{l.amount.minorUnits}")
  s!"je:{date}:{fingerprint}"

def entryCommand (data : List (String × Json)) (date : String) (lines : List JournalLineInput)
    (now : String) : Except ServiceError PostCommand :=
  let memo := str (lookup data "memo")
  let ownKey := trim (str (lookup data "idempotency_key"))
  let key := if ownKey = "" then defaultKey date lines else ownKey
  let source := str (lookup data "source")
  if claimsQuickBooks source ∧ ¬ startsWith key mirrorKeyPrefix then
    .error (.bad "source \"quickbooks\" is reserved for the QuickBooks mirror")
  else .ok {
    tenantId := ctx.tenant
    idempotencyKey := key
    periodKey := String.ofList (date.toList.take 7)
    currency := ctx.currency
    entryDate := date
    lines := lines
    provenance := provenanceFor (if source = "" then "manual" else source) date now
    memo := if memo = "" then none else some memo }

def commandOf (body : String) (now : String) : Except ServiceError PostCommand :=
  match parseJson ctx.parse body with
  | none => .error (.bad "invalid JSON body")
  | some data =>
    let date := trim (str (lookup data "date"))
    if ¬ isIsoDate date then .error (.bad "date must be YYYY-MM-DD")
    else match lookup data "lines" with
      | some (.array rawLines) =>
        if rawLines.length < 2 then .error (.bad "an entry needs at least two lines")
        else do
          let lines ← rawLines.mapM (entryLine ctx)
          entryCommand ctx data date lines now
      | _ => .error (.bad "an entry needs at least two lines")

def postEntry (body : String) (clock : Clock) : ServiceProg PostedEntry := do
  let command ← Prog.ofExcept (commandOf ctx body clock.ingestedAt)
  Prog.ofExcept ((validateDimensions ctx.dimensions command).mapError .dimension)
  (PostingEngine.post ctx.dimensions.chart command ⟨clock.postedAt⟩).interpret
    (guardStore ctx.book) .ledger

end Rgnr8.Service
