import Rgnr8.Kernel.Money
import Rgnr8.Kernel.PostEnds
import Rgnr8.Migration.AccountMap

/-! The entries of an export as commands of the kernel, and their posting. An entry that cannot be
read is an issue and no command. -/

namespace Rgnr8.Migration
open Lib Lib.Js Kernel Fallible

structure ImportOptions where
  tenantId : TenantId
  currency : Currency
  ingestedAt : String
  sourceVersion : Option String

inductive ImportIssueKind where
  | unknownAccount | unbalanced | empty | badAmount

structure ImportIssue where
  entryId : String
  kind : ImportIssueKind
  detail : String

def periodKeyOf (isoDate : String) : PeriodKey := String.ofList (isoDate.toList.take 7)

def given (text : Option String) : Bool := text.any (· ≠ "")

section
variable (chart : QboChart) (opts : ImportOptions)

def buildLine (entryId : String) (l : QboJournalLine) : Except ImportIssue JournalLineInput :=
  match chart.byName.get? l.account with
  | none => .error ⟨entryId, .unknownAccount, l.account⟩
  | some accountId =>
    if given l.debit = given l.credit then
      .error ⟨entryId, .badAmount, s!"line for {l.account} needs exactly one of debit/credit"⟩
    else
      let text := (if given l.debit then l.debit else l.credit).getD ""
      match Money.fromDecimal text opts.currency with
      | .error _ =>
        let text := (l.debit.or l.credit).getD "undefined"
        .error ⟨entryId, .badAmount, s!"{l.account}: {text}"⟩
      | .ok amount =>
        if ¬ 0 < amount.minorUnits then
          .error ⟨entryId, .badAmount, s!"{l.account}: non-positive amount"⟩
        else .ok ⟨accountId, if given l.debit then .debit else .credit, amount, l.memo, none⟩

def qboMappingVersion : String := "qbo-map/1"

def provenanceOf (entry : QboJournalEntry) : Provenance where
  sourceSystem := "quickbooks"
  sourceObject := "journal:" ++ entry.id
  sourceVersion := opts.sourceVersion.getD "1"
  effectiveDate := entry.date
  postedDate := entry.date
  ingestedAt := opts.ingestedAt
  normalizationVersion := "qbo-norm/1"
  mappingVersion := qboMappingVersion

def buildOne (entry : QboJournalEntry) : Except ImportIssue PostCommand :=
  if entry.lines = [] then .error ⟨entry.id, .empty, "no lines"⟩
  else do
    let lines ← entry.lines.mapM (buildLine chart opts entry.id)
    let debitMinor := sideTotal .debit lines
    let creditMinor := sideTotal .credit lines
    if debitMinor ≠ creditMinor then
      .error ⟨entry.id, .unbalanced, s!"debits {debitMinor} != credits {creditMinor}"⟩
    else
      return {
        tenantId := opts.tenantId
        idempotencyKey := "qbo:" ++ entry.id
        periodKey := periodKeyOf entry.date
        currency := opts.currency
        entryDate := entry.date
        lines := lines
        provenance := provenanceOf opts entry
        memo := entry.memo }

structure BuildResult where
  commands : List PostCommand
  issues : List ImportIssue

def toPostCommands (exp : QboExport) : BuildResult where
  commands := exp.entries.filterMap fun entry => (buildOne chart opts entry).toOption
  issues := exp.entries.filterMap fun entry =>
    match buildOne chart opts entry with
    | .error issue => some issue
    | .ok _ => none

structure ImportReport where
  posted : Nat
  skipped : Nat
  issues : List ImportIssue
  periods : List PeriodKey

/-- The commands in their order; the first that is refused ends the import. -/
def postCommands (coa : ChartOfAccounts) (opts : PostOptions) : List PostCommand → LedgerProg Unit
  | [] => return ()
  | command :: commands => do
    let _ ← PostingEngine.post coa command opts
    postCommands coa opts commands

def importQbo (exp : QboExport) (postedAt : String) : LedgerProg ImportReport := do
  let built := toPostCommands chart opts exp
  postCommands chart.coa ⟨postedAt⟩ built.commands
  return {
    posted := built.commands.length
    skipped := built.issues.length
    issues := built.issues
    periods := sortKeys (built.commands.map PostCommand.periodKey).dedup }

end

/-! What a command has of its entry. -/

abbrev Saying := AccountId × EntrySide × Int × String

def said (l : PostedLine) : Saying := (l.accountId, l.side, l.amount.minorUnits, l.memo.getD "")

def ownLine (chart : QboChart) (currency : Currency) (l : QboJournalLine) : Option Saying := do
  let accountId ← chart.byName.get? l.account
  match l.debit.filter (· ≠ ""), l.credit.filter (· ≠ "") with
  | some debit, none =>
    let amount ← (Money.fromDecimal debit currency).toOption
    return (accountId, .debit, amount.minorUnits, l.memo.getD "")
  | none, some credit =>
    let amount ← (Money.fromDecimal credit currency).toOption
    return (accountId, .credit, amount.minorUnits, l.memo.getD "")
  | _, _ => none

structure Reads (chart : QboChart) (opts : ImportOptions) (entry : QboJournalEntry)
    (command : PostCommand) : Prop where
  tenant : command.tenantId = opts.tenantId
  key : command.idempotencyKey = "qbo:" ++ entry.id
  period : command.periodKey = periodKeyOf entry.date
  own : List.Forall₂ (fun q l => ownLine chart opts.currency q = some (said l)) entry.lines
    command.lines
  named : ∀ l ∈ command.lines, ∃ name, chart.byName.get? name = some l.accountId
  postable : validateAndBuildLines command.lines command.currency chart.coa = .ok command.lines

section
variable {chart : QboChart} {opts : ImportOptions} {entry : QboJournalEntry} {command : PostCommand}

theorem currency_of_fromDecimal {value : String} {currency : Currency} {m : Money}
    (h : Money.fromDecimal value currency = .ok m) : m.currency = currency := by
  unfold Money.fromDecimal at h
  split at h
  · cases h
  · rw [refuse_eq_ok] at h
    rw [← Except.ok.inj h.2]

theorem filter_of_given {text : Option String} (h : given text = true) :
    text.filter (· ≠ "") = some (text.getD "") := by
  cases text with
  | none => cases h
  | some t => exact Option.filter_some_pos h

theorem filter_of_not_given {text : Option String} (h : given text = false) :
    text.filter (· ≠ "") = none := by
  cases text with
  | none => rfl
  | some t =>
    have ht : decide (t ≠ "") = false := h
    rw [Option.filter_some, ht]
    rfl

theorem buildLine_ok {id : String} {q : QboJournalLine} {l : PostedLine}
    (h : buildLine chart opts id q = .ok l) :
    chart.byName.get? q.account = some l.accountId ∧ l.amount.currency = opts.currency ∧
      0 < l.amount.minorUnits ∧ ownLine chart opts.currency q = some (said l) := by
  unfold buildLine at h
  unfold ownLine
  cases hacc : chart.byName.get? q.account with
  | none =>
    rw [hacc] at h
    cases h
  | some accountId =>
    rw [hacc] at h
    dsimp only at h
    rw [refuse_eq_ok] at h
    obtain ⟨hone, h⟩ := h
    cases hamt : Money.fromDecimal ((if given q.debit then q.debit else q.credit).getD "")
        opts.currency with
    | error e =>
      rw [hamt] at h
      cases h
    | ok amount =>
      rw [hamt] at h
      dsimp only at h
      rw [refuse_eq_ok, not_not] at h
      obtain ⟨hpos, h⟩ := h
      rw [← Except.ok.inj h]
      refine ⟨rfl, currency_of_fromDecimal hamt, hpos, ?_⟩
      rw [Option.bind_eq_bind, Option.bind_some]
      cases hdebit : given q.debit with
      | true =>
        have hcr : given q.credit = false := by
          cases hcr : given q.credit with
          | true => exact absurd (hdebit.trans hcr.symm) hone
          | false => rfl
        rw [hdebit, if_pos rfl] at hamt
        rw [filter_of_given hdebit, filter_of_not_given hcr]
        dsimp only
        rw [hamt]
        rfl
      | false =>
        have hcr : given q.credit = true := by
          cases hcr : given q.credit with
          | true => rfl
          | false => exact absurd (hdebit.trans hcr.symm) hone
        rw [hdebit, if_neg Bool.false_ne_true] at hamt
        rw [filter_of_not_given hdebit, filter_of_given hcr]
        dsimp only
        rw [hamt]
        rfl

theorem buildOne_ok {usedCodes : List String} (hchart : Charted opts.currency chart usedCodes)
    (h : buildOne chart opts entry = .ok command) : Reads chart opts entry command := by
  unfold buildOne at h
  rw [refuse_eq_ok, bind_eq_ok] at h
  obtain ⟨hne, lines, hlines, h⟩ := h
  dsimp only at h
  rw [refuse_eq_ok, not_not] at h
  obtain ⟨hbal, h⟩ := h
  have hread := mapM_eq_ok.mp hlines
  have hfrom : ∀ l ∈ lines, ∃ q ∈ entry.lines, buildLine chart opts entry.id q = .ok l :=
    fun l hl => exists_of_forall₂ hread hl
  have hline : ∀ l ∈ lines, LineOk opts.currency chart.coa l := by
    intro l hl
    obtain ⟨q, -, hq⟩ := hfrom l hl
    obtain ⟨hname, hccy, hpos, -⟩ := buildLine_ok hq
    obtain ⟨a, ha, -⟩ := hchart.names _ _ hname
    obtain ⟨-, -, hacur, hactive⟩ := hchart.ids _ a ha
    exact ⟨a, ha, hactive, congrArg _ hccy, congrArg _ hacur, hpos⟩
  have hlength : 2 ≤ lines.length := by
    refine two_le_length ?_ (fun l hl => ?_) hbal
    · rintro rfl
      exact hne (List.forall₂_nil_right_iff.mp hread)
    · obtain ⟨_, _, _, _, _, hpos⟩ := hline l hl
      exact hpos
  rw [← Except.ok.inj h]
  constructor
  case tenant => rfl
  case key => rfl
  case period => rfl
  case own => exact hread.imp fun q l hq => (buildLine_ok hq).2.2.2
  case named =>
    intro l hl
    obtain ⟨q, -, hq⟩ := hfrom l hl
    exact ⟨_, (buildLine_ok hq).1⟩
  case postable => exact validateAndBuildLines_eq_ok.mpr ⟨hlength, hline, hbal, rfl⟩

end

end Rgnr8.Migration
