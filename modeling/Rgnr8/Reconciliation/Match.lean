import Rgnr8.Kernel.Money
import Rgnr8.Kernel.Fingerprint

/-! Matching the lines of a bank statement to items of the books: by external id first, then
greedily by amount within some days, in the order of dates and ids. -/

namespace Rgnr8.Reconciliation
open Lib Lib.Js Kernel

structure StatementLine where
  id : String
  date : String
  amount : Money
  description : String
  externalId : Option String

structure Statement where
  accountId : AccountId
  periodStart : String
  periodEnd : String
  openingBalance : Money
  closingBalance : Money
  lines : List StatementLine

structure BookItem where
  id : String
  date : String
  amount : Money
  description : String
  externalId : Option String

inductive MatchMethod where
  | externalId | amountDate

structure MatchPair where
  statement : StatementLine
  book : BookItem
  method : MatchMethod

structure MatchResult where
  matched : List MatchPair
  unmatchedStatement : List StatementLine
  unmatchedBook : List BookItem

def InOrder (date id date' id' : String) : Prop :=
  Before date date' ∨ (date = date' ∧ ¬ Before id' id)

instance (date id date' id' : String) : Decidable (InOrder date id date' id') :=
  inferInstanceAs (Decidable (_ ∨ _))

def dayNumber (iso : String) : Option Int := utcDay (String.ofList (iso.toList.take 10))

def tooFar (windowDays : Nat) (a b : String) : Bool :=
  match dayNumber a, dayNumber b with
  | some x, some y => windowDays < (x - y).natAbs
  | _, _ => false

def sameAmount (a : StatementLine) (b : BookItem) : Bool :=
  a.amount.currency.code = b.amount.currency.code ∧ a.amount.minorUnits = b.amount.minorUnits

def external (id : Option String) : Option String := id.filter fun e => e ≠ ""

/-- What the two passes have done so far; `left` are the statement lines without a match. -/
structure Matching where
  matched : List MatchPair
  bookUsed : List String
  left : List StatementLine

def Matching.pair (m : Matching) (s : StatementLine) (b : BookItem) (method : MatchMethod) :
    Matching :=
  { m with matched := m.matched ++ [⟨s, b, method⟩], bookUsed := b.id :: m.bookUsed }

def Matching.leave (m : Matching) (s : StatementLine) : Matching := { m with left := m.left ++ [s] }

def matchExternal (bookByExt : OrderedMap String BookItem) (m : Matching) (s : StatementLine) :
    Matching :=
  match (external s.externalId).bind bookByExt.get? with
  | some b => if b.id ∈ m.bookUsed then m.leave s else m.pair s b .externalId
  | none => m.leave s

def matchAmount (windowDays : Nat) (book : List BookItem) (m : Matching) (s : StatementLine) :
    Matching :=
  match book.find? fun b => b.id ∉ m.bookUsed ∧ sameAmount s b ∧ ¬ tooFar windowDays s.date b.date with
  | some b => m.pair s b .amountDate
  | none => m.leave s

def matchItems (statementLines : List StatementLine) (bookItems : List BookItem)
    (windowDays : Nat) : MatchResult :=
  let stmt := statementLines.insertionSort fun a b => InOrder a.date a.id b.date b.id
  let book := bookItems.insertionSort fun a b => InOrder a.date a.id b.date b.id
  let bookByExt : OrderedMap String BookItem := book.foldl (fun m b =>
    match external b.externalId with
    | some e => m.set e b
    | none => m) .empty
  let first := stmt.foldl (matchExternal bookByExt) ⟨[], [], []⟩
  let second := first.left.foldl (matchAmount windowDays book) { first with left := [] }
  ⟨second.matched, second.left, book.filter fun b => b.id ∉ second.bookUsed⟩

end Rgnr8.Reconciliation
