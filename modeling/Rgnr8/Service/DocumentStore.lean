import Rgnr8.Lib.Javascript
import Rgnr8.Kernel.Types

/-! The open-item detail that the journal cannot express: the documents, the parties they name and
the payments applied to them. -/

namespace Rgnr8.Service
open Lib Kernel

inductive DocKind where
  | invoice | bill
  deriving DecidableEq

def DocKind.text : DocKind → String
  | invoice => "invoice"
  | bill => "bill"

inductive PartyKind where
  | customer | vendor
  deriving DecidableEq

def PartyKind.text : PartyKind → String
  | customer => "customer"
  | vendor => "vendor"

inductive DocStatus where
  | opened | partlyPaid | paid
  deriving DecidableEq

structure PartyRecord where
  id : String
  name : String
  termsDays : Option Js.JsNumber

structure DocLineRecord where
  description : String
  quantity : Int
  unitAmountMinor : Int
  accountCode : String
  amountMinor : Int
  taxable : Bool
  dimensions : Option Dimensions
  deriving DecidableEq

structure DocRecord where
  id : String
  kind : DocKind
  partyId : String
  date : String
  dueDate : String
  netMinor : Int
  taxMinor : Int
  taxRatePpm : Int
  totalMinor : Int
  openMinor : Int
  status : DocStatus
  memo : String
  lines : List DocLineRecord
  deriving DecidableEq

structure PaymentRecord where
  id : String
  docKind : DocKind
  docId : String
  date : String
  amountMinor : Int
  bankCode : String

structure InMemoryDocumentStore where
  parties : OrderedMap (TenantId × PartyKind × String) PartyRecord
  docs : OrderedMap (TenantId × DocKind × String) DocRecord
  payments : OrderedMap (TenantId × DocKind × String) PaymentRecord
  doc_of_get : ∀ {t k id d}, docs.get? (t, k, id) = some d → d.kind = k ∧ d.id = id

namespace InMemoryDocumentStore

def ofParties (parties : OrderedMap (TenantId × PartyKind × String) PartyRecord) :
    InMemoryDocumentStore := ⟨parties, .empty, .empty, nofun⟩

def empty : InMemoryDocumentStore := ofParties .empty

def upsertParty (s : InMemoryDocumentStore) (tenant : TenantId) (kind : PartyKind)
    (party : PartyRecord) : InMemoryDocumentStore :=
  { s with parties := s.parties.set (tenant, kind, party.id) party }

def getParty (s : InMemoryDocumentStore) (tenant : TenantId) (kind : PartyKind) (id : String) :
    Option PartyRecord := s.parties.get? (tenant, kind, id)

def getDoc (s : InMemoryDocumentStore) (tenant : TenantId) (kind : DocKind) (id : String) :
    Option DocRecord := s.docs.get? (tenant, kind, id)

def saveDoc (s : InMemoryDocumentStore) (tenant : TenantId) (doc : DocRecord) :
    InMemoryDocumentStore where
  parties := s.parties
  docs := s.docs.set (tenant, doc.kind, doc.id) doc
  payments := s.payments
  doc_of_get := by
    intro t k id d h
    rw [OrderedMap.get?_set] at h
    split_ifs at h with hkey
    · simp only [Prod.mk.injEq] at hkey
      rw [← Option.some.inj h]
      exact ⟨hkey.2.1.symm, hkey.2.2.symm⟩
    · exact s.doc_of_get h

def deleteDoc (s : InMemoryDocumentStore) (tenant : TenantId) (kind : DocKind) (id : String) :
    InMemoryDocumentStore where
  parties := s.parties
  docs := s.docs.filter fun key _ => key ≠ (tenant, kind, id)
  payments := s.payments
  doc_of_get := by
    intro t k id d h
    rw [OrderedMap.get?_filter, Option.filter_eq_some_iff] at h
    exact s.doc_of_get h.1

def setOpen (s : InMemoryDocumentStore) (tenant : TenantId) (kind : DocKind) (id : String)
    (openMinor : Int) (status : DocStatus) : InMemoryDocumentStore :=
  match s.getDoc tenant kind id with
  | some existing => s.saveDoc tenant { existing with openMinor := openMinor, status := status }
  | none => s

def addPayment (s : InMemoryDocumentStore) (tenant : TenantId) (payment : PaymentRecord) :
    InMemoryDocumentStore :=
  { s with payments := s.payments.set (tenant, payment.docKind, payment.id) payment }

def listPayments (s : InMemoryDocumentStore) (tenant : TenantId) (kind : DocKind)
    (docId : String) : List PaymentRecord :=
  (s.payments.filter fun key p => key.1 = tenant ∧ key.2.1 = kind ∧ p.docId = docId).values

def openSum (s : InMemoryDocumentStore) (tenant : TenantId) (kind : DocKind) : Int :=
  s.docs.total fun key d => if key.1 = tenant ∧ key.2.1 = kind then d.openMinor else 0

variable {s : InMemoryDocumentStore} {t t' : TenantId} {k k' : DocKind} {id id' : String}
variable {d : DocRecord}

theorem kind_of_getDoc (h : s.getDoc t k id = some d) : d.kind = k := (s.doc_of_get h).1

theorem id_of_getDoc (h : s.getDoc t k id = some d) : d.id = id := (s.doc_of_get h).2

theorem getDoc_saveDoc (s : InMemoryDocumentStore) (t t' : TenantId) (d : DocRecord)
    (k : DocKind) (id : String) : (s.saveDoc t d).getDoc t' k id =
      if t' = t ∧ k = d.kind ∧ id = d.id then some d else s.getDoc t' k id := by
  rw [getDoc, saveDoc, OrderedMap.get?_set]
  simp only [Prod.mk.injEq]
  rfl

theorem getDoc_deleteDoc (s : InMemoryDocumentStore) (t t' : TenantId) (k k' : DocKind)
    (id id' : String) : (s.deleteDoc t k id).getDoc t' k' id' =
      if t' = t ∧ k' = k ∧ id' = id then none else s.getDoc t' k' id' := by
  unfold getDoc deleteDoc
  rw [OrderedMap.get?_filter]
  have hkey : (t', k', id') = (t, k, id) ↔ t' = t ∧ k' = k ∧ id' = id := by
    simp only [Prod.mk.injEq]
  by_cases h : (t', k', id') = (t, k, id)
  · rw [if_pos (hkey.mp h)]
    cases s.docs.get? (t', k', id') <;> simp [h]
  · rw [if_neg fun h' => h (hkey.mpr h')]
    cases s.docs.get? (t', k', id') <;> simp [h]

theorem openSum_saveDoc (s : InMemoryDocumentStore) (t : TenantId) (d : DocRecord) (k : DocKind) :
    (s.saveDoc t d).openSum t k = s.openSum t k +
      if k = d.kind then d.openMinor - ((s.getDoc t d.kind d.id).map (·.openMinor)).getD 0
      else 0 := by
  rw [openSum, saveDoc, OrderedMap.total_set, openSum, getDoc]
  by_cases hk : k = d.kind
  · subst hk
    cases s.docs.get? (t, d.kind, d.id) with
    | none => simp
    | some old => simp; omega
  · have hk' : ¬ d.kind = k := fun h => hk h.symm
    cases s.docs.get? (t, d.kind, d.id) with
    | none => simp [hk, hk']
    | some old => simp [hk, hk']

theorem openSum_setOpen (h : s.getDoc t k id = some d) (o : Int) (status : DocStatus)
    (k' : DocKind) : (s.setOpen t k id o status).openSum t k' =
      s.openSum t k' + if k' = k then o - d.openMinor else 0 := by
  have hkind := kind_of_getDoc h
  have hid := id_of_getDoc h
  rw [setOpen, h]
  dsimp only
  rw [openSum_saveDoc]
  simp only [hkind, hid, h, Option.map_some, Option.getD_some]

theorem getDoc_setOpen (h : s.getDoc t k id = some d) (o : Int) (status : DocStatus) :
    (s.setOpen t k id o status).getDoc t' k' id' = if t' = t ∧ k' = k ∧ id' = id then
      some { d with openMinor := o, status := status } else s.getDoc t' k' id' := by
  have hkind := kind_of_getDoc h
  have hid := id_of_getDoc h
  rw [setOpen, h]
  dsimp only
  rw [getDoc_saveDoc]
  simp only [hkind, hid]

@[simp] theorem openSum_addPayment (s : InMemoryDocumentStore) (t : TenantId) (p : PaymentRecord) :
    (s.addPayment t p).openSum = s.openSum := rfl

end InMemoryDocumentStore
end Rgnr8.Service
