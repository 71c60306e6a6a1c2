import Mathlib.Data.List.Sort
import Rgnr8.Kernel.Types
import Rgnr8.Lib.Fallible
import Rgnr8.Lib.Javascript

/-! The bank and card transactions of the other book, kept window by window as a copy that posts
nothing: the store in memory, the one in tables, and the requests that both take. -/

namespace Rgnr8.Service.BankHistory
open Lib Lib.Js Fallible Kernel

inductive HistoryAccountKind where
  | bank | card
  deriving DecidableEq

structure HistoryLine where
  id : String
  accountCode : String
  accountName : String
  accountKind : HistoryAccountKind
  date : String
  txnType : String
  number : String
  name : String
  memo : String
  split : String
  amountMinor : Int
  deriving DecidableEq

structure HistoryTieOut where
  accountCode : String
  accountName : String
  openingMinor : Int
  movementMinor : Int
  closingMinor : Int
  deriving DecidableEq

structure HistoryCoverage where
  from_ : String
  to_ : String
  importedAt : String
  tieOut : List HistoryTieOut
  deriving DecidableEq

structure HistoryImport where
  start : String
  end_ : String
  importedAt : String
  lines : List HistoryLine
  tieOut : List HistoryTieOut
  deriving DecidableEq

structure HistoryQuery where
  from_ : Option String
  to_ : Option String
  account : Option String

def HistoryCoverage.nothing : HistoryCoverage := ⟨"", "", "", []⟩

def widen (c : HistoryCoverage) (imp : HistoryImport) : HistoryCoverage where
  from_ := if c.from_ ≠ "" ∧ c.from_ < imp.start then c.from_ else imp.start
  to_ := if c.to_ ≠ "" ∧ imp.end_ < c.to_ then c.to_ else imp.end_
  importedAt := imp.importedAt
  tieOut := imp.tieOut

def bounds (bound : Option String) (test : String → Bool) : Bool :=
  match bound with
  | some b => b = "" ∨ test b
  | none => true

def fits (l : HistoryLine) (q : HistoryQuery) : Bool :=
  bounds q.from_ (fun b => ¬ l.date < b) ∧ bounds q.to_ (fun b => ¬ b < l.date) ∧
    bounds q.account (fun b => l.accountCode = b)

def byDate (idLe : String → String → Bool) (a b : HistoryLine) : Bool :=
  if a.date = b.date then idLe a.id b.id else a.date < b.date

def HistoryImport.Inside (imp : HistoryImport) (date : String) : Prop :=
  ¬ date < imp.start ∧ ¬ imp.end_ < date

instance (imp : HistoryImport) (date : String) : Decidable (imp.Inside date) :=
  inferInstanceAs (Decidable (_ ∧ _))

/-! In memory. -/

structure InMemoryBankHistoryStore where
  rows : OrderedMap TenantId (List HistoryLine)
  cover : OrderedMap TenantId HistoryCoverage

namespace InMemoryBankHistoryStore

def empty : InMemoryBankHistoryStore := ⟨.empty, .empty⟩

variable (s : InMemoryBankHistoryStore) (tenant : TenantId)

def rowsOf : List HistoryLine :=
  (s.rows.get? tenant).getD []

def coverage : HistoryCoverage :=
  (s.cover.get? tenant).getD .nothing

def lines (q : HistoryQuery) : List HistoryLine :=
  ((s.rowsOf tenant).filter fun l => fits l q).insertionSort
    fun a b => byDate (fun x y => ¬ y < x) a b = true

def replaceWindow (imp : HistoryImport) : InMemoryBankHistoryStore where
  rows := s.rows.set tenant ((s.rowsOf tenant).filter (fun l => ¬ imp.Inside l.date) ++ imp.lines)
  cover := s.cover.set tenant (widen (s.coverage tenant) imp)

end InMemoryBankHistoryStore

/-! In tables. -/

inductive PgFailure where
  | duplicateKey (id : String)
  | unstorable (id : String)

/-- A `bigint` has 64 bits, and a `text` no character of code 0. -/
def Storable (l : HistoryLine) : Bool :=
  -(2 ^ 63) ≤ l.amountMinor ∧ l.amountMinor < 2 ^ 63 ∧
    [l.id, l.accountCode, l.accountName, l.date, l.txnType, l.number, l.name, l.memo, l.split].all
      fun s => s.toList.all fun c => c ≠ Char.ofNat 0

/-- The rows of `mirror_bank_line` have tenant and id as their primary key, those of
`mirror_bank_history` the tenant. -/
structure PgBankHistoryStore where
  lineRows : OrderedMap (TenantId × String) HistoryLine
  history : OrderedMap TenantId HistoryCoverage
  id_of_get : ∀ {t id l}, lineRows.get? (t, id) = some l → l.id = id

namespace PgBankHistoryStore

def empty : PgBankHistoryStore := ⟨.empty, .empty, nofun⟩

variable (s : PgBankHistoryStore) (tenant : TenantId)

def coverage : HistoryCoverage :=
  (s.history.get? tenant).getD .nothing

/-- `idLe` is the collation of the database. -/
def lines (idLe : String → String → Bool) (s : PgBankHistoryStore) (tenant : TenantId)
    (q : HistoryQuery) : List HistoryLine :=
  ((s.lineRows.filter fun key _ => key.1 = tenant).values.filter fun l => fits l q).insertionSort
    fun a b => byDate idLe a b = true

def deleteWindow (imp : HistoryImport) : PgBankHistoryStore where
  lineRows := s.lineRows.filter fun key l => ¬ (key.1 = tenant ∧ imp.Inside l.date)
  history := s.history
  id_of_get := by
    intro t id l h
    rw [OrderedMap.get?_filter] at h
    exact s.id_of_get (Option.filter_eq_some_iff.mp h).1

def insertLine (s : PgBankHistoryStore) (l : HistoryLine) : Except PgFailure PgBankHistoryStore :=
  if ¬ Storable l then .error (.unstorable l.id)
  else if s.lineRows.get? (tenant, l.id) ≠ none then .error (.duplicateKey l.id)
  else .ok {
    lineRows := s.lineRows.set (tenant, l.id) l
    history := s.history
    id_of_get := by
      intro t id l' h
      rw [OrderedMap.get?_set] at h
      split_ifs at h with hkey
      · rw [← Option.some.inj h, (Prod.mk.inj hkey).2]
      · exact s.id_of_get h }

/-- The transaction: what throws leaves the tables as they were. -/
def replaceWindow (imp : HistoryImport) : Except PgFailure PgBankHistoryStore := do
  let inserted ← imp.lines.foldlM (insertLine tenant) (s.deleteWindow tenant imp)
  return { inserted with
    history := inserted.history.set tenant (widen (inserted.coverage tenant) imp) }

end PgBankHistoryStore

/-! Requests. -/

inductive BankHistoryFailure where
  | own (message : String)
  deriving DecidableEq

def maxLines : Nat := 50000

structure HistoryLineInput where
  id : Option String
  accountCode : Option String
  accountName : Option String
  accountKind : Option String
  date : Option String
  txnType : Option String
  number : Option String
  name : Option String
  memo : Option String
  split : Option String
  amountMinor : Option TextOrNumber

structure TieOutInput where
  accountCode : Option String
  accountName : Option String
  openingMinor : Option TextOrNumber
  movementMinor : Option TextOrNumber
  closingMinor : Option TextOrNumber

structure HistoryInput where
  start : Option String
  end_ : Option String
  importedAt : Option String
  lines : Option (List HistoryLineInput)
  tieOut : Option (List TieOutInput)

/-- `BigInt(String(v ?? ""))`; a number from 10^21 on is spelled with an exponent. -/
def minor (v : Option TextOrNumber) (what : String) : Except BankHistoryFailure Int :=
  let read : Option Int := match v with
    | none => some 0
    | some (.text s) => bigIntOfString s
    | some (.number n) => (integerOf n).filter fun n => n.natAbs < 10 ^ 21
  match read with
  | none => .error (.own s!"{what} must be an integer number of cents")
  | some n => .ok n

def kindOf (id : String) (raw : String) : Except BankHistoryFailure HistoryAccountKind :=
  if raw = "bank" then .ok .bank
  else if raw = "card" then .ok .card
  else .error (.own s!"line {id}: account_kind must be bank or card")

def lineOf (start end_ : String) (seen : List String) (o : HistoryLineInput) :
    Except BankHistoryFailure HistoryLine := do
  let id := trim (o.id.getD "")
  refuse (id = "") (.own "a line has no id")
  refuse (id ∈ seen) (.own s!"line {id} appears twice")
  let date := o.date.getD ""
  refuse (¬ isIsoDate date) (.own s!"line {id}: date must be YYYY-MM-DD")
  refuse (date < start ∨ end_ < date) (.own s!"line {id} is dated outside {start} to {end_}")
  let code := trim (o.accountCode.getD "")
  refuse (code = "") (.own s!"line {id} has no account_code")
  let kind ← kindOf id (o.accountKind.getD "")
  let amount ← minor o.amountMinor s!"line {id}: amount_minor"
  return {
    id := id
    accountCode := code
    accountName := o.accountName.getD ""
    accountKind := kind
    date := date
    txnType := o.txnType.getD ""
    number := o.number.getD ""
    name := o.name.getD ""
    memo := o.memo.getD ""
    split := o.split.getD ""
    amountMinor := amount }

def linesOf (start end_ : String) :
    List HistoryLineInput → List String → Except BankHistoryFailure (List HistoryLine)
  | [], _ => return []
  | o :: os, seen => do
    let line ← lineOf start end_ seen o
    let rest ← linesOf start end_ os (line.id :: seen)
    return line :: rest

def tieOutOf (o : TieOutInput) : Except BankHistoryFailure HistoryTieOut := do
  let opening ← minor o.openingMinor "tie_out opening_minor"
  let movement ← minor o.movementMinor "tie_out movement_minor"
  let closing ← minor o.closingMinor "tie_out closing_minor"
  return ⟨o.accountCode.getD "", o.accountName.getD "", opening, movement, closing⟩

/-- `now` is the reading of the clock, for an import that does not say when it was made. -/
def importFromJson (now : String) (data : HistoryInput) : Except BankHistoryFailure HistoryImport := do
  let start := trim (data.start.getD "")
  let end_ := trim (data.end_.getD "")
  refuse (¬ (isIsoDate start ∧ isIsoDate end_)) (.own "start and end must be YYYY-MM-DD")
  refuse (end_ < start) (.own "start must not be after end")
  let importedAt := trim (data.importedAt.getD "")
  let raw := data.lines.getD []
  refuse (maxLines < raw.length) (.own s!"at most {maxLines} lines per import")
  let lines ← linesOf start end_ raw []
  let tieOut ← (data.tieOut.getD []).mapM tieOutOf
  return ⟨start, end_, if importedAt = "" then now else importedAt, lines, tieOut⟩

structure ImportCall where
  tenant : TenantId
  now : String
  data : HistoryInput

/-- The two stores side by side, and the imports that were accepted so far. -/
structure Histories where
  memory : InMemoryBankHistoryStore
  tables : PgBankHistoryStore
  imports : List (TenantId × HistoryImport)

namespace Histories

def opening : Histories := ⟨.empty, .empty, []⟩

def take (s : Histories) (tenant : TenantId) (imp : HistoryImport) : Histories where
  memory := s.memory.replaceWindow tenant imp
  tables := match s.tables.replaceWindow tenant imp with
    | .error _ => s.tables
    | .ok tables => tables
  imports := s.imports ++ [(tenant, imp)]

def step (s : Histories) (c : ImportCall) : Histories :=
  match importFromJson c.now c.data with
  | .error _ => s
  | .ok imp => s.take c.tenant imp

end Histories

end Rgnr8.Service.BankHistory
