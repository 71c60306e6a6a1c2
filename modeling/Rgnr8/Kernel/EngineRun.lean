import Rgnr8.Kernel.EngineSpec

/-! Runs of the engine: posting calls of any tenants, period operations and changes to the chart,
in any order from an empty journal. -/

namespace Rgnr8.Kernel
open Lib PostingEngine InMemoryLedgerStore List

inductive PostingCall where
  | post (command : PostCommand) (opts : PostOptions)
  | reverse (tenant : TenantId) (originalId : EntryId) (opts : ReverseOptions)

def PostingCall.program (coa : ChartOfAccounts) : PostingCall → LedgerProg PostedEntry
  | post command opts => PostingEngine.post coa command opts
  | reverse tenant originalId opts => PostingEngine.reverse coa tenant originalId opts

inductive BooksOp where
  | call (c : PostingCall)
  | periods (op : PeriodOp TenantId PeriodKey)
  | activate (id : AccountId)
  | deactivate (id : AccountId)

structure Books (π : Type) where
  chart : ChartOfAccounts
  ledger : Ledger π

namespace Books
variable {π : Type}

def opening (chart : ChartOfAccounts) (periods : π) : Books π := ⟨chart, ⟨.empty, periods⟩⟩

def journal (b : Books π) (t : TenantId) : List PostedEntry := b.ledger.store.list t

def withChart (b : Books π) : Except String ChartOfAccounts → Books π
  | .ok chart => { b with chart := chart }
  | .error _ => b

theorem store_withChart (b : Books π) (x : Except String ChartOfAccounts) :
    (b.withChart x).ledger.store = b.ledger.store := by
  cases x <;> rfl

variable [PeriodStore π]

def perform (b : Books π) (c : PostingCall) : Except LedgerError PostedEntry × Books π :=
  let r := (c.program b.chart).run LedgerCall.exec b.ledger
  (r.1, { b with ledger := r.2 })

def step (b : Books π) : BooksOp → Books π
  | .call c => (b.perform c).2
  | .periods op => { b with ledger.periods := PeriodStore.apply b.ledger.periods op }
  | .activate id => b.withChart (b.chart.activate id)
  | .deactivate id => b.withChart (b.chart.deactivate id)

/-- What a posting call does: it fails or replays and changes nothing, or it appends one draft
that its checks let through. -/
inductive Performed (b : Books π) : PostingCall → Except LedgerError PostedEntry × Books π → Prop
  | unchanged {c : PostingCall} (r : Except LedgerError PostedEntry) : Performed b c (r, b)
  | posted {command : PostCommand} {opts : PostOptions}
      (hfree : b.ledger.store.getByIdempotencyKey command.tenantId command.idempotencyKey = none)
      (hopen : PeriodStore.status b.ledger.periods command.tenantId command.periodKey ≠ .locked)
      (hlines : 2 ≤ command.lines.length)
      (hok : ∀ l ∈ command.lines, LineOk command.currency b.chart l)
      (hbalance : sideTotal .debit command.lines = sideTotal .credit command.lines) :
      Performed b (.post command opts)
        (.ok (b.ledger.store.append (draftOfCommand command opts command.lines)).1,
          { b with ledger := b.ledger.append (draftOfCommand command opts command.lines) })
  | reversed {tenant : TenantId} {originalId : EntryId} {opts : ReverseOptions}
      {original : PostedEntry}
      (horiginal : b.ledger.store.getById tenant originalId = some original)
      (hactive : refuseInactive b.chart original.lines = .ok ())
      (hfree : b.ledger.store.getByIdempotencyKey tenant opts.idempotencyKey = none)
      (hopen : PeriodStore.status b.ledger.periods tenant opts.periodKey ≠ .locked) :
      Performed b (.reverse tenant originalId opts)
        (.ok (b.ledger.store.append (draftOfReversal tenant original opts)).1,
          { b with ledger := b.ledger.append (draftOfReversal tenant original opts) })

theorem performed (b : Books π) (c : PostingCall) : Performed b c (b.perform c) := by
  cases c with
  | post command opts =>
    rw [perform, PostingCall.program, post]
    generalize hr : Prog.run LedgerCall.exec (settle _ _ _ _ _) b.ledger = r
    have hs := settled command.tenantId command.idempotencyKey command.periodKey
      (fingerprintOfCommand command) ((validateAndBuildLines command.lines command.currency
        b.chart).map (draftOfCommand command opts)) b.ledger
    rw [hr] at hs
    cases hs with
    | replayed hkey hsame => exact .unchanged _
    | refused err => exact .unchanged _
    | appended hfree hopen hdraft =>
      obtain ⟨rfl, h2, hok, hbal⟩ := draft_of_post hdraft
      exact .posted hfree hopen h2 hok hbal
  | reverse tenant originalId opts =>
    rw [perform, PostingCall.program]
    cases horig : b.ledger.store.getById tenant originalId with
    | none =>
      rw [run_reverse_of_none horig]
      exact .unchanged _
    | some original =>
      rw [run_reverse_of_some horig]
      cases hact : refuseInactive b.chart original.lines with
      | error err => exact .unchanged _
      | ok u =>
        simp only [settleReversal]
        generalize hr : Prog.run LedgerCall.exec (settle _ _ _ _ _) b.ledger = r
        have hs := settled tenant opts.idempotencyKey opts.periodKey
          (fingerprintOfReversal original.currency.code opts.periodKey opts.entryDate
            (reversalMemo original opts) opts.provenance (swapped original.lines))
          (.ok (draftOfReversal tenant original opts)) b.ledger
        rw [hr] at hs
        cases hs with
        | replayed hkey hsame => exact .unchanged _
        | refused err => exact .unchanged _
        | appended hfree hopen hdraft =>
          cases hdraft
          exact .reversed horig hact hfree hopen

theorem perform_grows (b : Books π) (c : PostingCall) :
    b.ledger.store.Grows (b.perform c).2.ledger.store := by
  generalize hr : b.perform c = r
  have h := b.performed c
  rw [hr] at h
  cases h with
  | unchanged r => exact .refl _
  | posted => exact .append _ _
  | reversed => exact .append _ _

theorem perform_of_error {b : Books π} {c : PostingCall} {err : LedgerError}
    (h : (b.perform c).1 = .error err) : (b.perform c).2 = b := by
  generalize hr : b.perform c = r at h
  have hp := b.performed c
  rw [hr] at hp
  cases hp with
  | unchanged r => rfl
  | posted => cases h
  | reversed => cases h

theorem step_grows (b : Books π) (op : BooksOp) :
    b.ledger.store.Grows (b.step op).ledger.store := by
  cases op with
  | call c => exact b.perform_grows c
  | periods op => exact .refl _
  | activate id => rw [step, store_withChart]; exact .refl _
  | deactivate id => rw [step, store_withChart]; exact .refl _

theorem run_grows (b : Books π) (ops : List BooksOp) :
    b.ledger.store.Grows (ops.foldl step b).ledger.store :=
  foldl_rel (r := fun b b' : Books π => b.ledger.store.Grows b'.ledger.store)
    (fun _ => .refl _) (fun _ _ _ h h' => h.trans h') step_grows b ops

end Books

/-- What the checks of the two write paths leave true of an entry. -/
structure EntryOk (e : DraftEntry) : Prop where
  lines : 2 ≤ e.lines.length
  amounts : ∀ l ∈ e.lines, 0 < l.amount.minorUnits ∧ l.amount.currency.code = e.currency.code
  balanced : sideTotal .debit e.lines = sideTotal .credit e.lines

theorem EntryOk.swap {tenant : TenantId} {original : PostedEntry} {opts : ReverseOptions}
    (h : EntryOk original.toDraftEntry) : EntryOk (draftOfReversal tenant original opts) where
  lines := by
    rw [draftOfReversal, swapped, length_map]
    exact h.lines
  amounts := by
    intro l hl
    obtain ⟨l', hl', rfl⟩ := mem_map.mp hl
    exact h.amounts l' hl'
  balanced := by
    change sideTotal .debit (swapped original.lines) = sideTotal .credit (swapped original.lines)
    rw [sideTotal_swapped, sideTotal_swapped]
    exact h.balanced.symm

def EntriesOk (s : InMemoryLedgerStore) : Prop :=
  ∀ t, ∀ e ∈ s.list t, EntryOk e.toDraftEntry

theorem EntriesOk.append {s : InMemoryLedgerStore} (h : EntriesOk s) {d : DraftEntry}
    (hfree : s.getByIdempotencyKey d.tenantId d.idempotencyKey = none) (hd : EntryOk d) :
    EntriesOk (s.append d).2 := by
  intro t e he
  rw [list_append_of_none hfree] at he
  split_ifs at he with ht
  · rcases mem_append.mp he with he | he
    · exact h t e he
    · rw [mem_singleton.mp he, append_of_none hfree]
      exact hd
  · exact h t e he

namespace Books
variable {π : Type} [PeriodStore π]

theorem entriesOk_perform {b : Books π} (h : EntriesOk b.ledger.store) (c : PostingCall) :
    EntriesOk (b.perform c).2.ledger.store := by
  generalize hr : b.perform c = r
  have hp := b.performed c
  rw [hr] at hp
  cases hp with
  | unchanged r => exact h
  | posted hfree hopen hlines hok hbalance =>
    refine h.append hfree ⟨hlines, fun l hl => ?_, hbalance⟩
    obtain ⟨account, -, -, hcode, -, hpos⟩ := hok l hl
    exact ⟨hpos, hcode⟩
  | reversed horiginal hactive hfree hopen =>
    exact h.append hfree (h _ _ (getById_iff.mp horiginal).1).swap

theorem entriesOk_step {b : Books π} (op : BooksOp) (h : EntriesOk b.ledger.store) :
    EntriesOk (b.step op).ledger.store := by
  cases op with
  | call c => exact entriesOk_perform h c
  | periods op => exact h
  | activate id => rwa [step, store_withChart]
  | deactivate id => rwa [step, store_withChart]

end Books

/-- A well-formed journal of a tenant. -/
structure JournalOk (t : TenantId) (journal : List PostedEntry) : Prop where
  sequences : journal.map (fun e => e.sequence) = List.range' 1 journal.length
  ids : ∀ e ∈ journal, e.id = s!"{t}:{e.sequence}"
  keys : (journal.map fun e => e.idempotencyKey).Nodup
  entries : ∀ e ∈ journal, EntryOk e.toDraftEntry

namespace InMemoryLedgerStore
variable (s : InMemoryLedgerStore) (t : TenantId)

theorem sequences : (s.list t).map (fun e => e.sequence) = List.range' 1 (s.list t).length := by
  refine ext_getElem (by simp) fun i h1 h2 => ?_
  rw [length_map] at h1
  rw [getElem_map, getElem_range', (list_getElem? (getElem?_eq_getElem h1)).2.1]
  omega

theorem id_eq {e : PostedEntry} (h : e ∈ s.list t) : e.id = s!"{t}:{e.sequence}" := by
  obtain ⟨i, hi⟩ := mem_iff_getElem?.mp h
  obtain ⟨-, hseq, hid⟩ := list_getElem? hi
  rw [hid, hseq]

theorem nodup_list : (s.list t).Nodup := by
  refine List.Nodup.of_map (fun e => e.sequence) ?_
  rw [sequences]
  exact nodup_range'

theorem nodup_keys : ((s.list t).map fun e => e.idempotencyKey).Nodup := by
  refine (s.nodup_list t).map_on fun e he e' he' hkey => ?_
  have h := getByIdempotencyKey_iff.mpr ⟨he, rfl⟩
  have h' := getByIdempotencyKey_iff.mpr ⟨he', hkey.symm⟩
  exact Option.some.inj (h.symm.trans h')

end InMemoryLedgerStore

namespace Books
variable {π : Type} [PeriodStore π]

/-- The journal of every tenant is well formed in every reachable state, every operation extends
it, and a posting call that throws leaves it alone. -/
theorem reachable_journalOk (chart : ChartOfAccounts) (periods : π) (ops : List BooksOp)
    (op : BooksOp) (t : TenantId) :
    JournalOk t ((ops.foldl step (opening chart periods)).journal t) ∧
    (ops.foldl step (opening chart periods)).journal t <+:
      ((ops.foldl step (opening chart periods)).step op).journal t ∧
    ∀ c err, op = .call c → ((ops.foldl step (opening chart periods)).perform c).1 = .error err →
      ((ops.foldl step (opening chart periods)).step op).journal t =
        (ops.foldl step (opening chart periods)).journal t := by
  have hemp : EntriesOk (opening chart periods).ledger.store := fun t e he => by
    simp [opening, list_empty] at he
  have hents := foldl_invariant (I := fun b : Books π => EntriesOk b.ledger.store)
    (fun b op h => entriesOk_step op h) hemp ops
  refine ⟨⟨sequences _ t, fun e => id_eq _ t, nodup_keys _ t, hents t⟩, step_grows _ op t, ?_⟩
  rintro c err rfl herr
  rw [step, perform_of_error herr]

end Books

inductive EngineOp where
  | call (coa : ChartOfAccounts) (c : PostingCall)
  | periods (op : PeriodOp TenantId PeriodKey)

section
variable {π : Type} [PeriodStore π]

def Ledger.step (s : Ledger π) : EngineOp → Ledger π
  | .call coa c => ((c.program coa).run LedgerCall.exec s).2
  | .periods op => { s with periods := PeriodStore.apply s.periods op }

theorem entriesOk_ledgerStep (s : Ledger π) (op : EngineOp) (h : EntriesOk s.store) :
    EntriesOk (s.step op).store := by
  cases op with
  | call coa c => exact Books.entriesOk_perform (b := ⟨coa, s⟩) h c
  | periods op => exact h

theorem entriesOk_of_run (periods : π) (ops : List EngineOp) :
    EntriesOk (ops.foldl Ledger.step ⟨.empty, periods⟩).store := by
  have hemp : EntriesOk empty := by
    intro t e he
    rw [list_empty] at he
    exact absurd he not_mem_nil
  exact foldl_invariant (I := fun s : Ledger π => EntriesOk s.store) entriesOk_ledgerStep hemp ops

end

/-! Books with a cash and a sales account, and one sale in them, to try runs on. -/

namespace Sample

def account (id code : String) (type : AccountType) : Account :=
  ⟨id, code, code, type, usd, none, none, none, none⟩

def chart : ChartOfAccounts :=
  (ChartOfAccounts.ofAccounts
    [account "cash" "1000" .asset, account "sales" "4000" .revenue]).toOption.getD .empty

def provenance : Provenance :=
  ⟨"RGNR8", "journal", "1", "2026-08-01", "2026-08-01", "2026-08-01", "n1", "m1"⟩

def line (accountId : AccountId) (side : EntrySide) (dimensions : Option Dimensions) : PostedLine :=
  ⟨accountId, side, ⟨100, usd⟩, none, dimensions⟩

def sale (dimensions : Option Dimensions) : PostCommand where
  tenantId := "acme"
  idempotencyKey := "sale"
  periodKey := "2026-08"
  currency := usd
  entryDate := "2026-08-01"
  lines := [line "cash" .debit dimensions, line "sales" .credit none]
  provenance := provenance
  memo := none

def opening : Books (InMemoryPeriodStore TenantId PeriodKey) := .opening chart .empty

def books : Books (InMemoryPeriodStore TenantId PeriodKey) :=
  opening.step (.call (.post (sale none) ⟨"2026-08-01"⟩))

end Sample
end Rgnr8.Kernel
