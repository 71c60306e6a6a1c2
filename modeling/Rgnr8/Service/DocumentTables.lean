import Rgnr8.Kernel.Fingerprint
import Rgnr8.Service.DocumentStore
import Mathlib.Algebra.Order.Round

/-! The two stores of the documents with every field: the maps in memory, whose keys join tenant,
kind and id with blanks, and the tables of PostgreSQL. -/

namespace Rgnr8.Service.Tables
open Lib Kernel

structure PartyRecord where
  id : String
  name : String
  email : Option String := none
  termsDays : Option Int := none
  is1099 : Option Bool := none
  taxId : Option String := none

structure DocLineRecord where
  description : String
  quantity : ℚ
  unitAmountMinor : String
  accountCode : String
  amountMinor : String
  taxable : Bool
  dimensions : Option Dimensions := none

structure DocRecord where
  id : String
  kind : DocKind
  partyId : String
  date : String
  dueDate : String
  netMinor : String
  taxMinor : String
  taxRatePpm : Int
  totalMinor : String
  openMinor : String
  status : DocStatus
  memo : String
  lines : List DocLineRecord

structure PaymentRecord where
  id : String
  docKind : DocKind
  docId : String
  date : String
  amountMinor : String
  bankCode : String

inductive Request where
  | upsertParty (tenant : TenantId) (kind : PartyKind) (party : PartyRecord)
  | saveDoc (tenant : TenantId) (doc : DocRecord)
  | deleteDoc (tenant : TenantId) (kind : DocKind) (id : String)
  | setOpen (tenant : TenantId) (kind : DocKind) (id openMinor : String) (status : DocStatus)
  | addPayment (tenant : TenantId) (payment : PaymentRecord)
  | getParty (tenant : TenantId) (kind : PartyKind) (id : String)
  | listParties (tenant : TenantId) (kind : PartyKind)
  | getDoc (tenant : TenantId) (kind : DocKind) (id : String)
  | listDocs (tenant : TenantId) (kind : DocKind)
  | listPayments (tenant : TenantId) (kind : DocKind) (docId : String)

namespace Request

def tenant : Request → TenantId
  | upsertParty t .. | saveDoc t _ | deleteDoc t .. | setOpen t .. | addPayment t _ | getParty t ..
  | listParties t _ | getDoc t .. | listDocs t _ | listPayments t .. => t

def Answer : Request → Type
  | upsertParty .. | saveDoc .. | deleteDoc .. | setOpen .. | addPayment .. => Unit
  | getParty .. => Option PartyRecord
  | listParties .. => List PartyRecord
  | getDoc .. => Option DocRecord
  | listDocs .. => List DocRecord
  | listPayments .. => List PaymentRecord

end Request

/-! The orders of the listings. -/

/-- `a.localeCompare(b) <= 0` -/
structure Collation where
  le : String → String → Bool
  trans : ∀ a b c, le a b → le b c → le a c
  total : ∀ a b, (le a b || le b a) = true

namespace Collation
variable (c : Collation)

def byName (a b : PartyRecord) : Bool := c.le a.name b.name

def byDate (a b : DocRecord) : Bool :=
  ¬ Utf16Le a.date b.date ∨ (a.date = b.date ∧ c.le a.id b.id)

def byPayDate (a b : PaymentRecord) : Bool := c.le a.date b.date

end Collation

/-! In memory. -/

structure InMemoryDocumentStore where
  parties : OrderedMap String PartyRecord
  docs : OrderedMap String DocRecord
  payments : OrderedMap String PaymentRecord

abbrev PartyKey := TenantId × PartyKind × String

abbrev DocKey := TenantId × DocKind × String

def partyPrefix (tenant : TenantId) (kind : PartyKind) : String := tenant ++ " " ++ kind.text ++ " "

def docPrefix (tenant : TenantId) (kind : DocKind) : String := tenant ++ " " ++ kind.text ++ " "

/-- `pk` -/
def partyPk (key : PartyKey) : String := partyPrefix key.1 key.2.1 ++ key.2.2

def docPk (key : DocKey) : String := docPrefix key.1 key.2.1 ++ key.2.2

def startsWith (key start : String) : Bool := start.toList <+: key.toList

namespace InMemoryDocumentStore

def empty : InMemoryDocumentStore := ⟨.empty, .empty, .empty⟩

def answer (c : Collation) (s : InMemoryDocumentStore) : (r : Request) → r.Answer
  | .upsertParty .. | .saveDoc .. | .deleteDoc .. | .setOpen .. | .addPayment .. => ()
  | .getParty tenant kind id => s.parties.get? (partyPk (tenant, kind, id))
  | .listParties tenant kind =>
    ((s.parties.filter fun key _ => startsWith key (partyPrefix tenant kind)).values).mergeSort
      c.byName
  | .getDoc tenant kind id => s.docs.get? (docPk (tenant, kind, id))
  | .listDocs tenant kind =>
    ((s.docs.filter fun key _ => startsWith key (docPrefix tenant kind)).values).mergeSort c.byDate
  | .listPayments tenant kind docId =>
    ((s.payments.filter fun key p =>
      startsWith key (docPrefix tenant kind) ∧ p.docId = docId).values).mergeSort c.byPayDate

def step (s : InMemoryDocumentStore) : Request → InMemoryDocumentStore
  | .upsertParty tenant kind party =>
    { s with parties := s.parties.set (partyPk (tenant, kind, party.id)) party }
  | .saveDoc tenant doc => { s with docs := s.docs.set (docPk (tenant, doc.kind, doc.id)) doc }
  | .deleteDoc tenant kind id =>
    { s with docs := s.docs.filter fun key _ => key ≠ docPk (tenant, kind, id) }
  | .setOpen tenant kind id openMinor status =>
    match s.docs.get? (docPk (tenant, kind, id)) with
    | some doc =>
      { s with docs := s.docs.set (docPk (tenant, kind, id)) { doc with openMinor, status } }
    | none => s
  | .addPayment tenant payment =>
    { s with
      payments := s.payments.set (docPk (tenant, payment.docKind, payment.id)) payment }
  | .getParty .. | .listParties .. | .getDoc .. | .listDocs .. | .listPayments .. => s

variable {s : InMemoryDocumentStore} {tenant : TenantId} {kind : DocKind} {id openMinor : String}
  {status : DocStatus}

theorem setOpen_none (h : s.docs.get? (docPk (tenant, kind, id)) = none) :
    s.step (.setOpen tenant kind id openMinor status) = s := by
  unfold step
  dsimp only
  rw [h]

theorem setOpen_some {doc : DocRecord} (h : s.docs.get? (docPk (tenant, kind, id)) = some doc) :
    s.step (.setOpen tenant kind id openMinor status) =
      { s with docs := s.docs.set (docPk (tenant, kind, id)) { doc with openMinor, status } } := by
  unfold step
  dsimp only
  rw [h]

end InMemoryDocumentStore

/-! In PostgreSQL. -/

inductive FieldCipher where
  | null
  | aesGcm (lock : Nat → String → String) (unlock : String → String)
      (unlock_lock : ∀ iv text, unlock (lock iv text) = text)

namespace FieldCipher

def encrypt : FieldCipher → Nat → String → String
  | null, _, plaintext => plaintext
  | aesGcm lock _ _, iv, plaintext =>
    if plaintext = "" then plaintext else "v1:" ++ lock iv plaintext

def decrypt : FieldCipher → String → String
  | null, stored => stored
  | aesGcm _ unlock _, stored =>
    if startsWith stored "v1:" then unlock (String.ofList (stored.toList.drop 3)) else stored

theorem decrypt_encrypt (cipher : FieldCipher) (iv : Nat) (text : String) :
    cipher.decrypt (cipher.encrypt iv text) = text := by
  cases cipher with
  | null => rfl
  | aesGcm lock unlock unlock_lock =>
    unfold encrypt decrypt
    dsimp only
    by_cases htext : text = ""
    · subst htext
      rfl
    · have hsto : ("v1:" ++ lock iv text).toList = 'v' :: '1' :: ':' :: (lock iv text).toList :=
        String.toList_append
      have hstar : startsWith ("v1:" ++ lock iv text) "v1:" = true := by
        refine decide_eq_true ?_
        rw [hsto]
        exact ⟨(lock iv text).toList, rfl⟩
      rw [if_neg htext, if_pos hstar, hsto]
      show unlock (String.ofList (lock iv text).toList) = text
      rw [String.ofList_toList, unlock_lock]

end FieldCipher

def digits (amount : String) : List Char :=
  match amount.toList with
  | '-' :: ds => ds
  | ds => ds

/-- What a `numeric(38,0)` column gives back of an integer text: no zeros in front, and no sign of
zero. -/
def numericText (amount : String) : String :=
  match (digits amount).dropWhile (· = '0') with
  | [] => "0"
  | ds => String.ofList (if amount.toList.head? = some '-' then '-' :: ds else ds)

/-- What a `numeric(20,4)` column gives back of a number: half a unit is rounded away from zero. -/
def roundedE4 (q : ℚ) : ℚ :=
  if 0 ≤ q then round (q * 10000) / 10000 else -(round (-q * 10000) / 10000)

structure PartyRow where
  name : String
  email : Option String
  termsDays : Option Int
  is1099 : Bool
  taxId : String

structure DocRow where
  partyId : String
  docDate : String
  dueDate : String
  netMinor : String
  taxMinor : String
  taxRatePpm : Int
  totalMinor : String
  openMinor : String
  status : DocStatus
  memo : String

/-- The dimensions as the text that `JSON.stringify` writes; absent ones are the empty object. -/
structure LineRow where
  description : String
  quantity : ℚ
  unitAmountMinor : String
  accountCode : String
  amountMinor : String
  taxable : Bool
  dimensions : Dimensions

structure PaymentRow where
  docId : String
  payDate : String
  amountMinor : String
  bankCode : String

structure PgDocumentStore where
  party : OrderedMap PartyKey PartyRow
  doc : OrderedMap DocKey DocRow
  docLine : OrderedMap (DocKey × Nat) LineRow
  docPayment : OrderedMap DocKey PaymentRow
  -- how many statements have been run
  statements : Nat

/-- The order in which a `SELECT` without `ORDER BY` gives the rows: any, and another each time. -/
structure RowOrder where
  rows : {α : Type} → Nat → List α → List α
  perm : ∀ {α : Type} (n : Nat) (l : List α), (rows n l).Perm l

def partyRow (cipher : FieldCipher) (iv : Nat) (p : PartyRecord) : PartyRow where
  name := p.name
  email := p.email
  termsDays := p.termsDays
  is1099 := p.is1099 = some true
  taxId := cipher.encrypt iv (p.taxId.getD "")

def docRow (d : DocRecord) : DocRow where
  partyId := d.partyId
  docDate := d.date
  dueDate := d.dueDate
  netMinor := numericText d.netMinor
  taxMinor := numericText d.taxMinor
  taxRatePpm := d.taxRatePpm
  totalMinor := numericText d.totalMinor
  openMinor := numericText d.openMinor
  status := d.status
  memo := d.memo

def lineRow (l : DocLineRecord) : LineRow where
  description := l.description
  quantity := roundedE4 l.quantity
  unitAmountMinor := numericText l.unitAmountMinor
  accountCode := l.accountCode
  amountMinor := numericText l.amountMinor
  taxable := l.taxable
  dimensions := l.dimensions.getD .empty

def paymentRow (p : PaymentRecord) : PaymentRow :=
  ⟨p.docId, p.date, numericText p.amountMinor, p.bankCode⟩

def nonEmpty (text : String) : Option String := if text = "" then none else some text

def rowToParty (cipher : FieldCipher) (key : PartyKey) (r : PartyRow) : PartyRecord where
  id := key.2.2
  name := r.name
  email := r.email.bind nonEmpty
  termsDays := r.termsDays
  is1099 := if r.is1099 then some true else none
  taxId := nonEmpty (cipher.decrypt r.taxId)

def parseDimensions (dimensions : Dimensions) : Option Dimensions :=
  if dimensions.entries = [] then none else some dimensions

def rowToLine (r : LineRow) : DocLineRecord where
  description := r.description
  quantity := r.quantity
  unitAmountMinor := r.unitAmountMinor
  accountCode := r.accountCode
  amountMinor := r.amountMinor
  taxable := r.taxable
  dimensions := parseDimensions r.dimensions

def byIndex (a b : (DocKey × Nat) × LineRow) : Bool := a.1.2 ≤ b.1.2

def rowToDoc (key : DocKey) (r : DocRow) (lines : List ((DocKey × Nat) × LineRow)) :
    DocRecord where
  id := key.2.2
  kind := key.2.1
  partyId := r.partyId
  date := r.docDate
  dueDate := r.dueDate
  netMinor := r.netMinor
  taxMinor := r.taxMinor
  taxRatePpm := r.taxRatePpm
  totalMinor := r.totalMinor
  openMinor := r.openMinor
  status := r.status
  memo := r.memo
  lines := (lines.mergeSort byIndex).map fun l => rowToLine l.2

def rowToPayment (key : DocKey) (r : PaymentRow) : PaymentRecord :=
  ⟨key.2.2, key.2.1, r.docId, r.payDate, r.amountMinor, r.bankCode⟩

def upsertLines (key : DocKey) : List DocLineRecord → Nat → OrderedMap (DocKey × Nat) LineRow →
    OrderedMap (DocKey × Nat) LineRow
  | [], _, t => t
  | l :: ls, i, t => upsertLines key ls (i + 1) (t.set (key, i) (lineRow l))

namespace PgDocumentStore

def empty : PgDocumentStore := ⟨.empty, .empty, .empty, .empty, 0⟩

def answer (c : Collation) (cipher : FieldCipher) (o : RowOrder) (s : PgDocumentStore) :
    (r : Request) → r.Answer
  | .upsertParty .. | .saveDoc .. | .deleteDoc .. | .setOpen .. | .addPayment .. => ()
  | .getParty tenant kind id =>
    (s.party.get? (tenant, kind, id)).map (rowToParty cipher (tenant, kind, id))
  | .listParties tenant kind =>
    ((o.rows s.statements (s.party.filter fun key _ =>
      key.1 = tenant ∧ key.2.1 = kind).entries).map fun e => rowToParty cipher e.1 e.2).mergeSort
        c.byName
  | .getDoc tenant kind id =>
    (s.doc.get? (tenant, kind, id)).map fun row =>
      rowToDoc (tenant, kind, id) row
        (o.rows (s.statements + 1) (s.docLine.filter fun key _ =>
          key.1 = (tenant, kind, id)).entries)
  | .listDocs tenant kind =>
    let lines := o.rows (s.statements + 1) (s.docLine.filter fun key _ =>
      key.1.1 = tenant ∧ key.1.2.1 = kind).entries
    -- the lines are grouped by their document
    ((o.rows s.statements (s.doc.filter fun key _ =>
      key.1 = tenant ∧ key.2.1 = kind).entries).map fun e =>
        rowToDoc e.1 e.2 (lines.filter fun l => l.1.1.2.2 = e.1.2.2)).mergeSort c.byDate
  | .listPayments tenant kind docId =>
    ((o.rows s.statements (s.docPayment.filter fun key r =>
      key.1 = tenant ∧ key.2.1 = kind ∧ r.docId = docId).entries).map fun e =>
        rowToPayment e.1 e.2).mergeSort c.byPayDate

def write (cipher : FieldCipher) (s : PgDocumentStore) : Request → PgDocumentStore
  | .upsertParty tenant kind p =>
    { s with party := s.party.set (tenant, kind, p.id) (partyRow cipher s.statements p) }
  | .saveDoc tenant d =>
    { s with
      doc := s.doc.set (tenant, d.kind, d.id) (docRow d)
      docLine := upsertLines (tenant, d.kind, d.id) d.lines 0 s.docLine }
  | .deleteDoc tenant kind id =>
    { s with
      docLine := s.docLine.filter fun key _ => key.1 ≠ (tenant, kind, id)
      doc := s.doc.filter fun key _ => key ≠ (tenant, kind, id) }
  | .setOpen tenant kind id openMinor status =>
    match s.doc.get? (tenant, kind, id) with
    | some row =>
      { s with
        doc := s.doc.set (tenant, kind, id)
          { row with openMinor := numericText openMinor, status } }
    | none => s
  | .addPayment tenant p =>
    match s.docPayment.get? (tenant, p.docKind, p.id) with
    | some _ => s
    | none => { s with docPayment := s.docPayment.set (tenant, p.docKind, p.id) (paymentRow p) }
  | .getParty .. | .listParties .. | .getDoc .. | .listDocs .. | .listPayments .. => s

def step (cipher : FieldCipher) (s : PgDocumentStore) (r : Request) : PgDocumentStore :=
  { s.write cipher r with statements := s.statements + 2 }

variable {cipher : FieldCipher} {s : PgDocumentStore} {tenant : TenantId} {kind : DocKind}
  {id openMinor : String} {status : DocStatus} {p : PaymentRecord}

theorem setOpen_none (h : s.doc.get? (tenant, kind, id) = none) :
    s.write cipher (.setOpen tenant kind id openMinor status) = s := by
  unfold write
  dsimp only
  rw [h]

theorem setOpen_some {row : DocRow} (h : s.doc.get? (tenant, kind, id) = some row) :
    s.write cipher (.setOpen tenant kind id openMinor status) =
      { s with
        doc := s.doc.set (tenant, kind, id)
          { row with openMinor := numericText openMinor, status } } := by
  unfold write
  dsimp only
  rw [h]

theorem addPayment_none (h : s.docPayment.get? (tenant, p.docKind, p.id) = none) :
    s.write cipher (.addPayment tenant p) =
      { s with docPayment := s.docPayment.set (tenant, p.docKind, p.id) (paymentRow p) } := by
  unfold write
  dsimp only
  rw [h]

theorem addPayment_some {row : PaymentRow}
    (h : s.docPayment.get? (tenant, p.docKind, p.id) = some row) :
    s.write cipher (.addPayment tenant p) = s := by
  unfold write
  dsimp only
  rw [h]

end PgDocumentStore
end Rgnr8.Service.Tables
