import Rgnr8.Service.ControlAccounts

/-! Two payments on one document, each with an id of its own: what they decide on, and the shape of
the program that carries it out. The post comes between the read of the document and the
write-back of what is left open. -/

namespace Rgnr8.Service.ArAp
open Lib Lib.Js Fallible Kernel Subledger

def givenId (req : RecordPaymentRequest) : String := trim (req.id.getD "")

/-- Two payments with ids of their own on one document, none of them recorded yet. -/
structure RivalPayments (π : Type) where
  ctx : ArApContext
  kind : DocKind
  docId : String
  accounts : ControlOverrides
  req : Bool → RecordPaymentRequest
  postedAt : Bool → String
  start : ArApStores π
  doc : DocRecord
  id_given : ∀ i, givenId (req i) ≠ ""
  id_ne : givenId (req false) ≠ givenId (req true)
  unused : ∀ i, start.ledger.store.getByIdempotencyKey ctx.tenant
    s!"{kind.text}pay:{givenId (req i)}" = none
  raised : start.docs.getDoc ctx.tenant kind docId = some doc
  open_nonneg : 0 ≤ doc.openMinor

namespace RivalPayments
variable {π : Type} (r : RivalPayments π) (i : Bool)

def context : ArApContext := { r.ctx with postedAt := r.postedAt i }

def paymentId : String := givenId (r.req i)

def key : IdempotencyKey := s!"{r.kind.text}pay:{r.paymentId i}"

def draft (doc : DocRecord) : Except ArApFailure PaymentDraft :=
  draftPayment r.kind r.docId (r.req i) (r.context i) r.accounts doc

def command (draft : PaymentDraft) : PostCommand :=
  paymentCommand r.kind r.docId (r.req i) (r.context i) draft.lines (r.paymentId i)

def payment : ArApProg RecordPaymentResult :=
  recordPayment r.kind r.docId (r.req i) (r.context i) r.accounts

def controlId : Option AccountId :=
  (r.ctx.chart.getByCode (controlCodeOf r.kind
    (controls r.ctx.localeLe r.ctx.chart r.accounts))).map fun a => a.id

def settled (lines : List PostedLine) : Int :=
  sideTotal (controlSide r.kind).swap (lines.filter fun l => some l.accountId = r.controlId)

/-- What has been posted against the control account since the start. -/
def collected (s : ArApStores π) : Int :=
  (((s.ledger.store.list r.ctx.tenant).drop (r.start.ledger.store.list r.ctx.tenant).length).map
    fun e => r.settled e.lines).sum

def postedTotal (s : ArApStores π) : Int := r.doc.totalMinor - r.doc.openMinor + r.collected s

def rest (doc : DocRecord) (x : PaymentDraft) (q : LedgerProg PostedEntry) :
    ArApProg RecordPaymentResult :=
  (q.interpret (fun c => Prog.perform (ArApCall.ledger c)) .ledger).bind
    (writePayment r.kind r.docId (r.req i) (r.context i) doc x (r.paymentId i))

def entryDraft (x : PaymentDraft) : DraftEntry :=
  PostingEngine.draftOfCommand (r.command i x) ⟨r.postedAt i⟩ x.lines

inductive Pending (x : PaymentDraft) : LedgerProg PostedEntry → Prop where
  | looking : Pending x (PostingEngine.post r.ctx.chart (r.command i x) ⟨r.postedAt i⟩)
  | checking : Pending x (PostingEngine.appendFresh r.ctx.tenant (r.command i x).periodKey
      ((validateAndBuildLines x.lines r.ctx.currency r.ctx.chart).map
        (PostingEngine.draftOfCommand (r.command i x) ⟨r.postedAt i⟩)))

end RivalPayments

def Reads {α : Type} : ArApProg α → Prop
  | .call (.getDoc _ _ _) _ => True
  | _ => False

/-- Past the read of the document and before its write-back. -/
def Unwritten {α : Type} : ArApProg α → Prop
  | .call (.ledger _) _ | .call (.setOpen _ _ _ _ _) _ => True
  | _ => False

namespace RivalPayments

variable {π : Type} {r : RivalPayments π} {i : Bool} {doc doc' : DocRecord} {x x' : PaymentDraft}

/-! What a payment decides on, apart from whether the document leaves room for it. -/

theorem draft_spec (h : r.draft i doc = .ok x) : 0 < x.amount ∧ x.amount ≤ doc.openMinor ∧
    minorOf (r.req i).amountMinor "amount_minor" = .ok x.amount ∧
    ∃ bank control, idFor r.ctx.chart (paymentControls (r.req i) (r.context i)
        r.accounts).bankCode "bank" = .ok bank ∧
      idFor r.ctx.chart (controlCodeOf r.kind (paymentControls (r.req i) (r.context i)
        r.accounts)) (controlRole r.kind) = .ok control ∧
      x.bankCode = (paymentControls (r.req i) (r.context i) r.accounts).bankCode ∧
      x.lines = paymentLines r.kind r.docId (r.req i) bank control ⟨x.amount, r.ctx.currency⟩ := by
  simp only [draft, draftPayment, bind_eq_ok] at h
  obtain ⟨amount, hamt, -, -, bank, hbank, control, hctl, hd⟩ := h
  have hd := Except.ok.inj hd
  subst hd
  obtain ⟨hmin, hpos, hle⟩ := payableAmount_eq_ok hamt
  exact ⟨hpos, hle, hmin, bank, control, hbank, hctl, rfl, rfl⟩

theorem draft_unique (h : r.draft i doc = .ok x) (h' : r.draft i doc' = .ok x') : x = x' := by
  obtain ⟨-, -, hmin, bank, control, hbank, hctl, hcode, hlines⟩ := draft_spec h
  obtain ⟨-, -, hmin', bank', control', hbank', hctl', hcode', hlines'⟩ := draft_spec h'
  have hamt : x.amount = x'.amount := Except.ok.inj (hmin.symm.trans hmin')
  have hb : bank = bank' := Except.ok.inj (hbank.symm.trans hbank')
  have hc : control = control' := Except.ok.inj (hctl.symm.trans hctl')
  cases x
  cases x'
  simp only at hamt hcode hcode' hlines hlines'
  rw [PaymentDraft.mk.injEq]
  exact ⟨hamt, hcode.trans hcode'.symm, by rw [hlines, hlines', hamt, hb, hc]⟩

theorem settled_draft (h : r.draft i doc = .ok x) : r.settled x.lines = x.amount := by
  obtain ⟨-, -, -, bank, control, -, hctl, -, hlines⟩ := draft_spec h
  have hcode : controlCodeOf r.kind (paymentControls (r.req i) (r.context i) r.accounts) =
      controlCodeOf r.kind (controls r.ctx.localeLe r.ctx.chart r.accounts) :=
    controlCodeOf_paymentControls _ _ _ _
  have hid : r.controlId = some control := by
    rw [hcode] at hctl
    obtain ⟨a, ha, hida⟩ := getByCode_of_idFor hctl
    rw [controlId, ha, Option.map_some, hida]
  rw [settled, hid, hlines]
  cases r.kind <;> by_cases hbank : bank = control <;>
    simp [paymentLines, sideTotal, controlSide, EntrySide.swap, hbank]

theorem key_ne : r.key false ≠ r.key true := by
  intro h
  -- the keys have one prefix, so it is the ids that would be equal
  have hlist := congrArg String.toList h
  simp only [key, String.toList_append, List.append_cancel_left_eq] at hlist
  exact r.id_ne (String.toList_inj.mp hlist)

theorem key_not_ne (r : RivalPayments π) (i : Bool) : r.key (!i) ≠ r.key i := by
  cases i
  · exact key_ne.symm
  · exact key_ne

/-! The shape of the program. -/

variable {q : LedgerProg PostedEntry}

theorem not_ended_of_pending (hq : r.Pending i x q) : q.ended = false := by
  cases hq with
  | looking =>
    rw [PostingEngine.post, PostingEngine.settle_eq]
    rfl
  | checking =>
    rw [PostingEngine.appendFresh_eq]
    rfl

theorem payment_of_date (hdate : isIsoDate (r.req i).date = true) : r.payment i =
    .call (.getDoc r.ctx.tenant r.kind r.docId) fun found? =>
      (Prog.ofExcept (found found? s!"unknown {r.kind.text} {r.docId}")).bind fun doc =>
        (Prog.ofExcept (r.draft i doc)).bind fun x =>
          (Prog.ofExcept (validated (r.context i) (r.command i x))).bind fun _ =>
            r.rest i doc x (PostingEngine.post r.ctx.chart (r.command i x) ⟨r.postedAt i⟩) := by
  have hid : paymentIdOf r.kind r.docId (r.req i) (r.context i) = .ret (r.paymentId i) :=
    if_neg (r.id_given i)
  unfold payment recordPayment
  rw [Prog.refuseIf_neg (not_not.mpr hdate), hid]
  change Prog.call _ _ = _
  congr 1
  funext found?
  change (Prog.ofExcept (found found? _)).bind _ = _
  cases found found? s!"unknown {r.kind.text} {r.docId}" with
  | error e => rfl
  | ok doc =>
    change (Prog.ofExcept (r.draft i doc)).bind _ = (Prog.ofExcept (r.draft i doc)).bind _
    cases r.draft i doc with
    | error e => rfl
    | ok x =>
      change (post (r.context i) (r.command i x)).bind _ = _
      unfold post
      change Prog.bind (Prog.bind (Prog.ofExcept (validated (r.context i) (r.command i x))) _) _ =
        Prog.bind (Prog.ofExcept (validated (r.context i) (r.command i x))) _
      cases validated (r.context i) (r.command i x) <;> rfl

theorem payment_of_bad_date (hdate : isIsoDate (r.req i).date = false) :
    r.payment i = .throw (.arAp "date must be YYYY-MM-DD") := by
  have hbad : ¬ isIsoDate (r.req i).date = true := by rw [hdate]; exact Bool.false_ne_true
  unfold payment recordPayment
  rw [Prog.refuseIf_pos hbad]
  rfl

theorem ended_rest (hq : q.ended = false) : (r.rest i doc x q).ended = false := by
  cases q with
  | ret e => cases hq
  | throw e => cases hq
  | call c k => rfl

theorem unwritten_rest (hq : q.ended = false) : Unwritten (r.rest i doc x q) := by
  cases q with
  | ret e => cases hq
  | throw e => cases hq
  | call c k => trivial

theorem not_reads_rest (q : LedgerProg PostedEntry) : ¬ Reads (r.rest i doc x q) := by
  cases q <;> exact id

end RivalPayments

end Rgnr8.Service.ArAp
