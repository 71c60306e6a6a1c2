import Rgnr8.Reconciliation.Match
import Rgnr8.Kernel.PostEnds

/-! The ingestion pipeline: raw records of any provider come in batches, are normalized by the adapter
of their provider, and kept once each; a posted row replaces the pending row it names, and two rows
that move one amount between own accounts are a transfer. -/

namespace Rgnr8.Ingestion
open Lib Lib.Js Kernel

structure RawRecord (α : Type) where
  provider : String
  accountId : String
  externalId : String
  payload : α
  fetchedAt : String
  sourceVersion : String

inductive TransactionStatus where
  | pending | posted
  deriving DecidableEq

inductive Direction where
  | inflow | outflow
  deriving DecidableEq

inductive TransactionKind where
  | deposit | purchase | fee | interest | refund | payrollNet | payrollTax | transfer | other
  deriving DecidableEq

structure SourceRef where
  provider : String
  sourceType : String
  sourceId : String
  sourceVersion : String
  fetchedAt : String
  deriving DecidableEq

/-- A row as an adapter gives it; into the account is positive. -/
structure NormalizedInput where
  tenantId : TenantId
  accountId : String
  externalId : String
  status : TransactionStatus
  date : String
  amount : Money
  description : String
  counterparty : Option String
  kind : TransactionKind
  supersedesExternalId : Option String
  source : SourceRef

structure CanonicalTransaction where
  id : String
  tenantId : TenantId
  accountId : String
  externalId : String
  status : TransactionStatus
  date : String
  amount : Money
  direction : Direction
  description : String
  counterparty : Option String
  kind : TransactionKind
  isInternalTransfer : Bool
  dedupeKey : String
  source : SourceRef
  supersedes : Option String
  supersededBy : Option String
  deriving DecidableEq

/-- The pipeline's own row. -/
structure MutableCanonical extends CanonicalTransaction where
  superseded : Bool
  supersedesExternalId : Option String

def MutableCanonical.toPublic (r : MutableCanonical) : CanonicalTransaction :=
  r.toCanonicalTransaction

/-! Keys. -/

/-- `h * 33 ^ c` over the code units, in 64 bits, as 16 hexadecimal digits. -/
def djb2 (input : String) : String :=
  let h := (utf16 input).foldl (fun h c => (h * 33 ^^^ c) % 2 ^ 64) 5381
  String.ofList ((Nat.toDigits 16 h).leftpad 16 '0')

variable (n : NormalizedInput)

def dedupeKey : String :=
  if n.externalId ≠ "" then s!"{n.source.provider}:{n.accountId}:{n.externalId}"
  else
    let basis := String.intercalate "|" [n.source.provider, n.accountId, n.date,
      n.amount.currency.code, toString n.amount.minorUnits, n.description]
    s!"{n.source.provider}:{n.accountId}:h{djb2 basis}"

def directionOf : Direction :=
  if 0 ≤ n.amount.minorUnits then .inflow else .outflow

def rowOf : MutableCanonical where
  id := dedupeKey n
  tenantId := n.tenantId
  accountId := n.accountId
  externalId := n.externalId
  status := n.status
  date := n.date
  amount := n.amount
  direction := directionOf n
  description := n.description
  counterparty := n.counterparty.filter fun text => text ≠ ""
  kind := n.kind
  isInternalTransfer := false
  dedupeKey := dedupeKey n
  source := n.source
  supersedes := none
  supersededBy := none
  superseded := false
  supersedesExternalId := n.supersedesExternalId.filter fun id => id ≠ ""

/-! Transfers. -/

def isPair (windowDays : Nat) (a b : MutableCanonical) : Bool :=
  a.accountId ≠ b.accountId ∧ a.amount.currency.code = b.amount.currency.code ∧
    a.amount.minorUnits = -b.amount.minorUnits ∧
    ¬ Reconciliation.tooFar windowDays a.date b.date

def isOpen (t : MutableCanonical) : Bool :=
  t.status = .posted ∧ ¬ t.isInternalTransfer ∧ ¬ t.superseded ∧ t.amount.minorUnits ≠ 0

/-- The ids of the pairs: each row takes the first later one that is left and fits. -/
def transferPairs (windowDays : Nat) (matched : List String) :
    List MutableCanonical → List (String × String)
  | [] => []
  | a :: rest =>
    if a.id ∈ matched then transferPairs windowDays matched rest
    else match rest.find? fun b => b.id ∉ matched ∧ isPair windowDays a b with
      | some b => (a.id, b.id) :: transferPairs windowDays (a.id :: b.id :: matched) rest
      | none => transferPairs windowDays matched rest

def flagTransfer (r : MutableCanonical) : MutableCanonical :=
  { r with isInternalTransfer := true, kind := .transfer }

def detectInternalTransfers (txns : List MutableCanonical) (windowDays : Nat) :
    Nat × List MutableCanonical :=
  let pairs := transferPairs windowDays [] (txns.filter isOpen)
  let legs : List String := pairs.flatMap fun p => [p.1, p.2]
  (pairs.length, txns.map fun t => if t.id ∈ legs then flagTransfer t else t)

/-! Ingesting. -/

structure PipelineConfig (α : Type) where
  adapters : String → Option (RawRecord α → Except String (List NormalizedInput))
  transferWindow : Nat

/-- Rows stay in the order they came in; the ids of the rows are the keys seen. -/
structure IngestionPipeline (α : Type) where
  archive : List (RawRecord α)
  rows : List MutableCanonical

namespace IngestionPipeline
variable {α : Type}

def empty : IngestionPipeline α := ⟨[], []⟩

variable (p : IngestionPipeline α)

def row (id : String) : Option MutableCanonical :=
  p.rows.find? fun r => r.id = id

def seen (key : String) : Bool := p.rows.any fun r => r.id = key

def active : List CanonicalTransaction :=
  (p.rows.filter fun r => r.supersededBy.getD "" = "").map MutableCanonical.toPublic

def all : List CanonicalTransaction :=
  p.rows.map MutableCanonical.toPublic

end IngestionPipeline

inductive IssueKind where
  | noAdapter | normalizeFailed

structure IngestIssue where
  kind : IssueKind
  message : String
  accountId : String
  externalId : String

structure IngestResult where
  added : List CanonicalTransaction
  archived : Nat
  duplicates : Nat
  pendingSuperseded : Nat
  transfersDetected : Nat
  issues : List IngestIssue

/-- What the loop over a batch has come to. -/
structure Ingesting (α : Type) where
  pipeline : IngestionPipeline α
  issues : List IngestIssue
  added : List String
  archived : Nat
  duplicates : Nat

namespace Ingesting
variable {α : Type}

def archiveKey (r : RawRecord α) : String := s!"{r.provider} {r.accountId} {r.externalId}"

variable (s : Ingesting α)

def archiveRaw (raw : RawRecord α) : Ingesting α :=
  if s.pipeline.archive.any fun r => archiveKey r = archiveKey raw then s
  else { s with
    pipeline := ⟨s.pipeline.archive ++ [raw], s.pipeline.rows⟩
    archived := s.archived + 1 }

def addRow (n : NormalizedInput) : Ingesting α :=
  if s.pipeline.seen (dedupeKey n) then { s with duplicates := s.duplicates + 1 }
  else { s with
    pipeline := ⟨s.pipeline.archive, s.pipeline.rows ++ [rowOf n]⟩
    added := s.added ++ [dedupeKey n] }

def addIssue (raw : RawRecord α) (kind : IssueKind) (message : String) : Ingesting α :=
  { s with issues := s.issues ++ [⟨kind, message, raw.accountId, raw.externalId⟩] }

def addRaw (config : PipelineConfig α) (s : Ingesting α) (raw : RawRecord α) : Ingesting α :=
  let s := s.archiveRaw raw
  match config.adapters raw.provider with
  | none => s.addIssue raw .noAdapter
      ("no adapter registered for provider \"" ++ raw.provider ++ "\"")
  | some normalize => match normalize raw with
    | .error message => s.addIssue raw .normalizeFailed message
    | .ok normalized => normalized.foldl addRow s

end Ingesting

def supersede (acc : Nat × List MutableCanonical) (id : String) : Nat × List MutableCanonical :=
  match acc.2.find? fun r => r.id = id with
  | none => acc
  | some posted =>
    match posted.supersedesExternalId with
    | none => acc
    | some external =>
      let pendingKey := s!"{posted.source.provider}:{posted.accountId}:{external}"
      match acc.2.find? fun r => r.id = pendingKey with
      | none => acc
      | some pending =>
        if posted.status = .posted ∧ pending.status = .pending ∧
            pending.supersededBy.getD "" = "" then
          (acc.1 + 1, acc.2.map fun r =>
            if r.id = pending.id then { r with supersededBy := some posted.id, superseded := true }
            else if r.id = posted.id then { r with supersedes := some pending.id } else r)
        else acc

def resolvePendingPosted (rows : List MutableCanonical) (added : List String) :
    Nat × List MutableCanonical := added.foldl supersede (0, rows)

namespace IngestionPipeline
variable {α : Type}

def ingest (config : PipelineConfig α) (p : IngestionPipeline α) (raws : List (RawRecord α)) :
    IngestResult × IngestionPipeline α :=
  let s := raws.foldl (Ingesting.addRaw config) ⟨p, [], [], 0, 0⟩
  let resolved := resolvePendingPosted s.pipeline.rows s.added
  let detected := detectInternalTransfers resolved.2 config.transferWindow
  let p' : IngestionPipeline α := ⟨s.pipeline.archive, detected.2⟩
  (⟨(s.added.filterMap p'.row).map MutableCanonical.toPublic, s.archived, s.duplicates, resolved.1,
    detected.1, s.issues⟩, p')

end IngestionPipeline

/-! From the feed to the ledger: each live row becomes a journal of two lines against the cash account,
and the commands are posted one by one, a command whose key is in the ledger being passed over. -/

structure AccountMap where
  cash : AccountId
  income : AccountId
  expense : AccountId
  fees : AccountId
  payrollExpense : AccountId
  payrollTaxExpense : AccountId
  interestIncome : AccountId
  mappingVersion : Option String

structure RuleSubject where
  direction : Direction
  kind : TransactionKind
  counterparty : Option String
  description : String
  magnitudeMinor : Nat

abbrev RuleSet := RuleSubject → Option AccountId

def ruleSubject (t : CanonicalTransaction) : RuleSubject :=
  ⟨t.direction, t.kind, t.counterparty, t.description, t.amount.minorUnits.natAbs⟩

def counterAccount (kind : TransactionKind) (direction : Direction) (map : AccountMap) : AccountId :=
  match kind with
  | .deposit => map.income
  | .refund => map.expense
  | .interest => map.interestIncome
  | .fee => map.fees
  | .payrollNet => map.payrollExpense
  | .payrollTax => map.payrollTaxExpense
  | .purchase => map.expense
  | .transfer | .other => match direction with
    | .inflow => map.income
    | .outflow => map.expense

variable (map : AccountMap)

def cashLines (counter : AccountId) (direction : Direction) (magnitude : Money) :
    List JournalLineInput :=
  match direction with
  | .inflow => [⟨map.cash, .debit, magnitude, none, none⟩, ⟨counter, .credit, magnitude, none, none⟩]
  | .outflow => [⟨counter, .debit, magnitude, none, none⟩, ⟨map.cash, .credit, magnitude, none, none⟩]

def commandOf (rules : RuleSet) (t : CanonicalTransaction) : PostCommand where
  tenantId := t.tenantId
  idempotencyKey := s!"ingest:{t.id}"
  periodKey := String.ofList (t.date.toList.take 7)
  currency := t.amount.currency
  entryDate := t.date
  lines := cashLines map ((rules (ruleSubject t)).getD (counterAccount t.kind t.direction map))
    t.direction ⟨t.amount.minorUnits.natAbs, t.amount.currency⟩
  provenance := {
    sourceSystem := t.source.provider
    sourceObject := t.source.sourceType
    sourceVersion := t.source.sourceVersion
    effectiveDate := t.date
    postedDate := t.date
    ingestedAt := t.source.fetchedAt
    normalizationVersion := "ingest-1"
    mappingVersion := map.mappingVersion.getD "map-1" }
  memo := some t.description

structure MappedCommands where
  commands : List PostCommand
  skippedTransfers : Nat
  skippedZero : Nat

def mapTxn (rules : RuleSet) (m : MappedCommands) (t : CanonicalTransaction) : MappedCommands :=
  if t.isInternalTransfer then { m with skippedTransfers := m.skippedTransfers + 1 }
  else if t.amount.minorUnits = 0 then { m with skippedZero := m.skippedZero + 1 }
  else { m with commands := m.commands ++ [commandOf map rules t] }

variable (txns : List CanonicalTransaction)

def toPostingCommands (map : AccountMap) (rules : RuleSet) :
    MappedCommands := txns.foldl (mapTxn map rules) ⟨[], 0, 0⟩

structure PostingReport where
  posted : Nat
  alreadyPosted : Nat
  skippedTransfers : Nat
  skippedZero : Nat
  blockedByClosedPeriod : Nat
  failed : List (IdempotencyKey × LedgerError)
  entries : List PostedEntry

def PostingReport.outcome (report : PostingReport) (command : PostCommand) :
    Except LedgerError PostedEntry → PostingReport
  | .ok entry => { report with
    entries := report.entries ++ [entry], posted := report.posted + 1 }
  | .error (.periodClosed _) => { report with
    blockedByClosedPeriod := report.blockedByClosedPeriod + 1 }
  | .error e => { report with failed := report.failed ++ [(command.idempotencyKey, e)] }

def postCommands (coa : ChartOfAccounts) (opts : PostOptions) :
    List PostCommand → PostingReport → LedgerProg PostingReport
  | [], report => return report
  | command :: commands, report => do
    match (← Prog.perform (.getByIdempotencyKey command.tenantId command.idempotencyKey) :
        Option PostedEntry) with
    | some _ =>
      postCommands coa opts commands { report with alreadyPosted := report.alreadyPosted + 1 }
    | none =>
      let outcome ← Prog.attempt (PostingEngine.post coa command opts)
      postCommands coa opts commands (report.outcome command outcome)

def postCanonicalToLedger (map : AccountMap) (rules : RuleSet) (coa : ChartOfAccounts)
    (opts : PostOptions) : LedgerProg PostingReport :=
  let mapped := toPostingCommands txns map rules
  postCommands coa opts mapped.commands
    ⟨0, 0, mapped.skippedTransfers, mapped.skippedZero, 0, [], []⟩

/-! What posting comes to. -/

section
variable {π : Type} [PeriodStore π] (coa : ChartOfAccounts) (opts : PostOptions)

def postOne (s : Ledger π) (command : PostCommand) : Ledger π :=
  if s.Appends coa command then s.posted command opts else s

variable (txns : List CanonicalTransaction)

theorem commands_toPostingCommands (map : AccountMap) (rules : RuleSet) :
    (toPostingCommands txns map rules).commands =
      (txns.filter fun t => ¬ t.isInternalTransfer ∧ t.amount.minorUnits ≠ 0).map
        (commandOf map rules) := by
  have hfold : ∀ txns (m : MappedCommands), (List.foldl (mapTxn map rules) m txns).commands =
      m.commands ++ (txns.filter fun t => ¬ t.isInternalTransfer ∧ t.amount.minorUnits ≠ 0).map
        (commandOf map rules) := by
    intro txns
    induction txns with
    | nil => simp
    | cons t txns ih =>
      intro m
      rw [List.foldl_cons, ih]
      unfold mapTxn
      by_cases htran : t.isInternalTransfer = true
      · simp [htran]
      · by_cases hzero : t.amount.minorUnits = 0
        · simp [htran, hzero]
        · simp [htran, hzero]
  exact (hfold txns ⟨[], 0, 0⟩).trans (List.nil_append _)

theorem run_postCommands (commands : List PostCommand) (report : PostingReport) (s : Ledger π) :
    ((postCommands coa opts commands report).run LedgerCall.exec s).2 =
      commands.foldl (postOne coa opts) s := by
  induction commands generalizing report s with
  | nil => rfl
  | cons command commands ih =>
    rw [List.foldl_cons]
    unfold postCommands
    rw [Prog.bind_eq, Prog.run_bind, Prog.run_perform]
    have hanswer : (LedgerCall.exec (.getByIdempotencyKey command.tenantId command.idempotencyKey)
        s) = (s.store.getByIdempotencyKey command.tenantId command.idempotencyKey, s) := rfl
    rw [hanswer]
    dsimp only
    cases hkey : s.store.getByIdempotencyKey command.tenantId command.idempotencyKey with
    | some e =>
      have hnot : ¬ s.Appends coa command := by
        intro h
        rw [h.free] at hkey
        cases hkey
      rw [ih]
      unfold postOne
      rw [if_neg hnot]
    | none =>
      dsimp only
      rw [Prog.bind_eq, Prog.run_bind, Prog.run_attempt]
      dsimp only
      rw [ih]
      congr 1
      unfold postOne
      have hends := PostingEngine.postEnds coa command opts s
      generalize (PostingEngine.post coa command opts).run LedgerCall.exec s = ended at hends
      cases hends with
      | answered h => exact absurd h (Ledger.not_answers_of_free hkey)
      | refused err hanswers happends => rw [if_neg happends]
      | appended h => rw [if_pos h]

theorem run_postCanonicalToLedger (map : AccountMap) (rules : RuleSet) (s : Ledger π) :
    ((postCanonicalToLedger txns map rules coa opts).run LedgerCall.exec s).2 =
      ((txns.filter fun t => ¬ t.isInternalTransfer ∧ t.amount.minorUnits ≠ 0).map
        (commandOf map rules)).foldl (postOne coa opts) s := by
  unfold postCanonicalToLedger
  rw [run_postCommands, commands_toPostingCommands]

end
end Rgnr8.Ingestion
