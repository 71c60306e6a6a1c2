import Rgnr8.Kernel.LedgerStore
import Rgnr8.Lib.Program
import Rgnr8.Kernel.Journal
import Rgnr8.Kernel.Periods
import Rgnr8.Lib.Delimited

/-! The idempotency fingerprint: the economic identity of an entry as one delimited text. -/

namespace Rgnr8.Kernel
open Lib List

def utf16Units (c : Char) : List Nat :=
  if c.toNat < 0x10000 then [c.toNat]
  else [0xD800 + (c.toNat - 0x10000) / 0x400, 0xDC00 + (c.toNat - 0x10000) % 0x400]

def utf16 (s : String) : List Nat := s.toList.flatMap utf16Units

/-- The order in which the source compares texts, dates among them. -/
def Before (a b : String) : Prop := utf16 a < utf16 b

instance (a b : String) : Decidable (Before a b) := inferInstanceAs (Decidable (utf16 a < utf16 b))

def sortKeys (keys : List String) : List String :=
  keys.insertionSort fun a b => utf16 a ≤ utf16 b

def fingerprintDimensions : Option Dimensions → String
  | none => ""
  | some dims => ",".intercalate
      ((sortKeys dims.keys).map fun k => k ++ "=" ++ (dims.get? k).getD "undefined")

def fingerprintProvenance (p : Provenance) : String :=
  "|".intercalate [p.sourceSystem, p.sourceObject, p.sourceVersion, p.effectiveDate, p.postedDate,
    p.ingestedAt, p.normalizationVersion, p.mappingVersion]

def fingerprintLine (l : PostedLine) : String :=
  "|".intercalate [l.accountId, l.side.text, l.amount.currency.code, toString l.amount.minorUnits,
    l.memo.getD "", fingerprintDimensions l.dimensions]

def fingerprintLines (lines : List PostedLine) : String :=
  ";".intercalate (lines.map fingerprintLine)

variable (currencyCode periodKey entryDate memo : String) (provenance : Provenance)
variable (lines : List PostedLine)

def fingerprintOf : String :=
  "::".intercalate [currencyCode, periodKey, entryDate, memo, fingerprintProvenance provenance,
    fingerprintLines lines]

def fingerprintOfCommand (c : PostCommand) : String :=
  fingerprintOf c.currency.code c.periodKey c.entryDate (c.memo.getD "") c.provenance c.lines

def fingerprintOfEntry (e : PostedEntry) : String :=
  fingerprintOf e.currency.code e.periodKey e.entryDate (e.memo.getD "") e.provenance e.lines

def fingerprintOfReversal : String :=
  fingerprintOf currencyCode periodKey entryDate memo provenance lines

/-! The posting engine as a program over its two stores. `post` and `reverse` differ in what they
ask of the command first; the tail of both is `settle`. -/

/-- What a request may ask of the journal and of the period locks, one atomic step each. -/
inductive LedgerCall where
  | getByIdempotencyKey (tenant : TenantId) (key : IdempotencyKey)
  | getById (tenant : TenantId) (id : EntryId)
  | status (tenant : TenantId) (period : PeriodKey)
  | append (draft : DraftEntry)
  | periods (op : PeriodOp TenantId PeriodKey)

abbrev LedgerCall.Answer : LedgerCall → Type
  | getByIdempotencyKey _ _ | getById _ _ => Option PostedEntry
  | status _ _ => PeriodStatus
  | append _ => PostedEntry
  | periods _ => Unit

structure Ledger (π : Type) where
  store : InMemoryLedgerStore
  periods : π

def Ledger.append {π : Type} (s : Ledger π) (draft : DraftEntry) : Ledger π :=
  { s with store := (s.store.append draft).2 }

def PeriodStore.apply {π : Type} [PeriodStore π] (s : π) : PeriodOp TenantId PeriodKey → π
  | .lock t p => lock s t p
  | .lockThrough t p => lockThrough s t p
  | .unlock t p => unlock s t p

def LedgerCall.exec {π : Type} [PeriodStore π] : (c : LedgerCall) → Ledger π → c.Answer × Ledger π
  | getByIdempotencyKey t k, s => (s.store.getByIdempotencyKey t k, s)
  | getById t id, s => (s.store.getById t id, s)
  | status t p, s => (PeriodStore.status s.periods t p, s)
  | append d, s => ((s.store.append d).1, s.append d)
  | periods op, s => ((), { s with periods := PeriodStore.apply s.periods op })

abbrev LedgerProg := Prog LedgerCall LedgerCall.Answer LedgerError

structure PostOptions where
  postedAt : String

structure ReverseOptions where
  idempotencyKey : IdempotencyKey
  periodKey : PeriodKey
  entryDate : String
  postedAt : String
  provenance : Provenance
  memo : Option String

namespace PostingEngine

def replay (key : IdempotencyKey) (intended : String) (existing : PostedEntry) :
    LedgerProg PostedEntry :=
  if fingerprintOfEntry existing ≠ intended then .throw (.duplicateIdempotencyKey key)
  else .ret existing

variable (tenant : TenantId)

def appendFresh (period : PeriodKey) (draft : Except LedgerError DraftEntry) :
    LedgerProg PostedEntry := do
  let status ← Prog.perform (.status tenant period)
  Prog.refuseIf (status = PeriodStatus.locked) (.periodClosed period)
  let draft ← Prog.ofExcept draft
  Prog.perform (LedgerCall.append draft)

def settle (key : IdempotencyKey) (period : PeriodKey) (intended : String)
    (draft : Except LedgerError DraftEntry) : LedgerProg PostedEntry := do
  match (← Prog.perform (.getByIdempotencyKey tenant key) : Option PostedEntry) with
  | some existing => replay key intended existing
  | none => appendFresh tenant period draft

def draftOfCommand (command : PostCommand) (opts : PostOptions) (lines : List PostedLine) :
    DraftEntry where
  tenantId := command.tenantId
  idempotencyKey := command.idempotencyKey
  periodKey := command.periodKey
  currency := command.currency
  entryDate := command.entryDate
  status := .posted
  lines := lines
  provenance := command.provenance
  memo := command.memo
  reversalOf := none
  postedAt := opts.postedAt

def post (coa : ChartOfAccounts) (command : PostCommand) (opts : PostOptions) :
    LedgerProg PostedEntry :=
  settle command.tenantId command.idempotencyKey command.periodKey (fingerprintOfCommand command)
    ((validateAndBuildLines command.lines command.currency coa).map (draftOfCommand command opts))

def swapped (lines : List PostedLine) : List PostedLine :=
  lines.map fun l => { l with side := l.side.swap }

def refuseInactive (coa : ChartOfAccounts) : List PostedLine → Except LedgerError Unit
  | [] => .ok ()
  | l :: lines => match coa.get l.accountId with
    | some account =>
      if account.active = some false then .error (.inactiveAccount l.accountId account.code)
      else refuseInactive coa lines
    | none => refuseInactive coa lines

def reversalMemo (original : PostedEntry) (opts : ReverseOptions) : String :=
  opts.memo.getD s!"Reversal of {original.id}"

def draftOfReversal (original : PostedEntry) (opts : ReverseOptions) : DraftEntry where
  tenantId := tenant
  idempotencyKey := opts.idempotencyKey
  periodKey := opts.periodKey
  currency := original.currency
  entryDate := opts.entryDate
  status := .reversal
  lines := swapped original.lines
  provenance := opts.provenance
  memo := some (reversalMemo original opts)
  reversalOf := some original.id
  postedAt := opts.postedAt

def reverse (coa : ChartOfAccounts) (tenant : TenantId) (originalId : EntryId)
    (opts : ReverseOptions) : LedgerProg PostedEntry := do
  match (← Prog.perform (.getById tenant originalId) : Option PostedEntry) with
  | none => .throw (.unknownEntry originalId)
  | some original =>
    Prog.ofExcept (refuseInactive coa original.lines)
    settle tenant opts.idempotencyKey opts.periodKey
      (fingerprintOfReversal original.currency.code opts.periodKey opts.entryDate
        (reversalMemo original opts) opts.provenance (swapped original.lines))
      (.ok (draftOfReversal tenant original opts))

end PostingEngine

/-! What a command or an entry says, apart from how it is written down: dimensions are a map, an
absent memo is an empty one, a currency is its code. Equal contents have equal fingerprints; the
converse needs texts without the delimiters. -/

structure LineContent where
  accountId : AccountId
  side : EntrySide
  currencyCode : String
  minorUnits : Int
  memo : String
  dimension : String → Option String

structure Content where
  currencyCode : String
  periodKey : PeriodKey
  entryDate : String
  memo : String
  provenance : Provenance
  lines : List LineContent

variable (dimensions : Option Dimensions)

/-- The value of a dimension on a line, an absent map being empty. -/
def dimensionOf (k : String) : Option String :=
  dimensions.bind (·.get? k)

def contentOfLine (l : PostedLine) : LineContent where
  accountId := l.accountId
  side := l.side
  currencyCode := l.amount.currency.code
  minorUnits := l.amount.minorUnits
  memo := l.memo.getD ""
  dimension := dimensionOf l.dimensions

def contentOf (currencyCode periodKey entryDate memo : String) (provenance : Provenance)
    (lines : List PostedLine) : Content :=
  ⟨currencyCode, periodKey, entryDate, memo, provenance, lines.map contentOfLine⟩

def contentOfCommand (c : PostCommand) : Content :=
  contentOf c.currency.code c.periodKey c.entryDate (c.memo.getD "") c.provenance c.lines

def contentOfEntry (e : PostedEntry) : Content :=
  contentOf e.currency.code e.periodKey e.entryDate (e.memo.getD "") e.provenance e.lines

theorem utf16Units_ne_nil (c : Char) : utf16Units c ≠ [] := by
  rw [utf16Units]
  split_ifs <;> exact cons_ne_nil _ _

theorem utf16Units_append_inj {c d : Char} {us vs : List Nat}
    (h : utf16Units c ++ us = utf16Units d ++ vs) : c = d ∧ us = vs := by
  have hval : ∀ c : Char, c.toNat < 0xD800 ∨ 0xDFFF < c.toNat ∧ c.toNat < 0x110000 := fun c => c.valid
  have hc := hval c
  have hd := hval d
  -- one unit or two on each side; a first surrogate is in no character's own range
  rw [utf16Units, utf16Units] at h
  split_ifs at h with h1 h2 h2
  · simp only [singleton_append, cons.injEq] at h
    exact ⟨Char.toNat_inj.mp h.1, h.2⟩
  · simp only [cons_append, nil_append, cons.injEq] at h
    omega
  · simp only [cons_append, nil_append, cons.injEq] at h
    omega
  · simp only [cons_append, nil_append, cons.injEq] at h
    exact ⟨Char.toNat_inj.mp (by omega), h.2.2⟩

theorem utf16_injective : Function.Injective utf16 := by
  intro s s' h
  rw [← String.toList_inj]
  rw [utf16, utf16] at h
  generalize s.toList = cs at h
  generalize s'.toList = cs' at h
  induction cs generalizing cs' with
  | nil =>
    cases cs' with
    | nil => rfl
    | cons d ds =>
      rw [flatMap_cons] at h
      exact absurd (append_eq_nil_iff.mp h.symm).1 (utf16Units_ne_nil d)
  | cons c cs ih =>
    cases cs' with
    | nil =>
      rw [flatMap_cons] at h
      exact absurd (append_eq_nil_iff.mp h).1 (utf16Units_ne_nil c)
    | cons d ds =>
      rw [flatMap_cons, flatMap_cons] at h
      obtain ⟨rfl, hrest⟩ := utf16Units_append_inj h
      rw [ih _ hrest]

def Utf16Le (a b : String) : Prop := utf16 a ≤ utf16 b

instance : Std.Total Utf16Le := ⟨fun a b => le_total (utf16 a) (utf16 b)⟩

instance : IsTrans String Utf16Le := ⟨fun _ _ _ => le_trans (α := List Nat)⟩

instance : DecidableRel Utf16Le := fun a b => inferInstanceAs (Decidable (utf16 a ≤ utf16 b))

theorem sortKeys_eq_of_perm {ks ks' : List String} (h : ks.Perm ks') : sortKeys ks = sortKeys ks' := by
  have hsort : ∀ ks, (sortKeys ks).Pairwise Utf16Le := fun ks =>
    pairwise_insertionSort Utf16Le ks
  have hperm : (sortKeys ks).Perm (sortKeys ks') :=
    ((perm_insertionSort Utf16Le ks).trans h).trans (perm_insertionSort Utf16Le ks').symm
  refine List.Perm.eq_of_pairwise (fun a b _ _ hab hba => ?_) (hsort ks) (hsort ks') hperm
  exact utf16_injective (le_antisymm hab hba)

theorem mem_sortKeys {ks : List String} {k : String} : k ∈ sortKeys ks ↔ k ∈ ks :=
  (perm_insertionSort _ ks).mem_iff

def dimensionText (dims : Dimensions) (k : String) : String :=
  k ++ "=" ++ (dims.get? k).getD "undefined"

theorem fingerprintDimensions_some (dims : Dimensions) : fingerprintDimensions (some dims) =
    ",".intercalate ((sortKeys dims.keys).map (dimensionText dims)) := rfl

theorem fingerprintDimensions_getD :
    fingerprintDimensions dimensions = fingerprintDimensions (some (dimensions.getD .empty)) := by
  cases dimensions <;> rfl

theorem get?_getD_empty (k : String) :
    (dimensions.getD .empty).get? k = dimensionOf dimensions k := by
  cases dimensions <;> rfl

theorem fingerprintDimensions_congr {ds ds' : Option Dimensions}
    (h : dimensionOf ds = dimensionOf ds') : fingerprintDimensions ds = fingerprintDimensions ds' := by
  have hget : ∀ k, (ds.getD .empty).get? k = (ds'.getD .empty).get? k := fun k => by
    rw [get?_getD_empty, get?_getD_empty, h]
  rw [fingerprintDimensions_getD ds, fingerprintDimensions_getD ds', fingerprintDimensions_some,
    fingerprintDimensions_some, sortKeys_eq_of_perm (OrderedMap.keys_perm_of_get?_eq hget)]
  -- the same keys in the same order, with the same values
  congr 1
  refine map_congr_left fun k _ => ?_
  rw [dimensionText, dimensionText, hget]

theorem fingerprintLine_congr {l l' : PostedLine} (h : contentOfLine l = contentOfLine l') :
    fingerprintLine l = fingerprintLine l' := by
  simp only [contentOfLine, LineContent.mk.injEq] at h
  obtain ⟨h1, h2, h3, h4, h5, h6⟩ := h
  rw [fingerprintLine, fingerprintLine, h1, h2, h3, h4, h5, fingerprintDimensions_congr h6]

theorem fingerprintLines_congr {ls ls' : List PostedLine}
    (h : ls.map contentOfLine = ls'.map contentOfLine) :
    fingerprintLines ls = fingerprintLines ls' := by
  rw [fingerprintLines, fingerprintLines]
  congr 1
  induction ls generalizing ls' with
  | nil =>
    rw [map_nil, eq_comm, map_eq_nil_iff] at h
    rw [h]
  | cons l ls ih =>
    cases ls' with
    | nil => cases h
    | cons l' ls' =>
      rw [map_cons, map_cons, cons.injEq] at h
      rw [map_cons, map_cons, fingerprintLine_congr h.1, ih h.2]

variable {code code' period period' date date' memo memo' : String} {p p' : Provenance}
variable {ls ls' : List PostedLine}

theorem fingerprintOf_congr (h : contentOf code period date memo p ls =
    contentOf code' period' date' memo' p' ls') : fingerprintOf code period date memo p ls =
      fingerprintOf code' period' date' memo' p' ls' := by
  simp only [contentOf, Content.mk.injEq] at h
  obtain ⟨rfl, rfl, rfl, rfl, rfl, h⟩ := h
  rw [fingerprintOf, fingerprintOf, fingerprintLines_congr h]

end Rgnr8.Kernel
