import Rgnr8.Lib.WriteBack
import Rgnr8.Service.RivalPayments
import Rgnr8.Service.TieOut

/-! Two payments on one document, interleaved step by step. The open amount is read, the ledger is
posted to and the remainder is written back without a guard, so a payment that is read in between
the read and the write-back of the other is accepted against money that is already gone. -/

namespace Rgnr8.Service.ArAp
open Lib Lib.Js Fallible Kernel Subledger Pool ArApCall PostingEngine

abbrev PaymentPool (π : Type) :=
  Pool ArApCall ArApCall.Answer ArApFailure Bool (fun _ => RecordPaymentResult) (ArApStores π)

namespace RivalPayments
variable {π : Type} [PeriodStore π] (r : RivalPayments π)

def pool : PaymentPool π := ⟨r.start, r.payment⟩

/-- The payment gets through the checks that do not depend on what is open. -/
abbrev Posts (i : Bool) (draft : PaymentDraft) : Prop :=
  Postable (r.context i) r.start.ledger.periods (r.command i draft)

/-- A payment that will post does not read the document while the other one, which will post too,
is between its read and its write-back. -/
def Apart (w : PaymentPool π) (i : Bool) : Prop :=
  ¬ (Reads (w.proc i) ∧
    (∃ d x, w.state.docs.getDoc r.ctx.tenant r.kind r.docId = some d ∧ r.draft i d = .ok x ∧
      r.Posts i x) ∧
    Unwritten (w.proc (!i)) ∧ ∃ d x, r.draft (!i) d = .ok x ∧ r.Posts (!i) x)

def Within (w : PaymentPool π) : Prop := r.postedTotal w.state ≤ r.doc.totalMinor

def Exact (w : PaymentPool π) : Prop :=
  (w.state.docs.getDoc r.ctx.tenant r.kind r.docId).map (fun d => d.openMinor) =
    some (r.doc.totalMinor - r.postedTotal w.state)

variable (i : Bool)

open WriteBack

/-- Where a payment stands, and what that is to the value it draws on. -/
inductive At : Phase → ArApProg RecordPaymentResult → Prop where
  | start (hdate : isIsoDate (r.req i).date = true) : At .idle (r.payment i)
  | posting {doc : DocRecord} {x : PaymentDraft} {q : LedgerProg PostedEntry}
      (hdraft : r.draft i doc = .ok x) (hposts : r.Posts i x) (hq : r.Pending i x q) :
      At (.holding doc.openMinor x.amount) (r.rest i doc x q)
  | appending {doc : DocRecord} {x : PaymentDraft} (hdraft : r.draft i doc = .ok x)
      (hposts : r.Posts i x) :
      At (.holding doc.openMinor x.amount) (r.rest i doc x (.call (.append (r.entryDraft i x)) .ret))
  | writing {doc : DocRecord} {x : PaymentDraft} (hdraft : r.draft i doc = .ok x)
      (hposts : r.Posts i x) (e : PostedEntry) :
      At (.committed doc.openMinor x.amount) (r.rest i doc x (.ret e))
  | noting (amount : Int) (payment : PaymentRecord) (v : RecordPaymentResult) :
      At (.written amount) (.call (.addPayment r.ctx.tenant payment) fun _ => .ret v)
  | paid (amount : Int) (v : RecordPaymentResult) : At (.written amount) (.ret v)
  -- the post will be refused, so nothing will come of the read
  | doomed {doc : DocRecord} {x : PaymentDraft} {q : LedgerProg PostedEntry}
      (hdraft : r.draft i doc = .ok x) (hposts : ¬ r.Posts i x)
      (hvalid : validated (r.context i) (r.command i x) = .ok ()) (hq : r.Pending i x q) :
      At .out (r.rest i doc x q)
  | failed (e : ArApFailure) : At .out (.throw e)

/-- The stores and the two payments, as a value that two clients draw on. -/
structure Draws (w : PaymentPool π) (c : Cell) : Prop where
  doc : ∃ status, w.state.docs.getDoc r.ctx.tenant r.kind r.docId =
    some { r.doc with openMinor := c.value, status := status }
  journal : ∃ new, w.state.ledger.store.list r.ctx.tenant =
    r.start.ledger.store.list r.ctx.tenant ++ new ∧ (new.map fun e => r.settled e.lines).sum = c.taken
  periods : w.state.ledger.periods = r.start.ledger.periods
  unused : ∀ i, ¬ (c.phase i).Settled →
    w.state.ledger.store.getByIdempotencyKey r.ctx.tenant (r.key i) = none
  stage : ∀ i, r.At i (c.phase i) (w.proc i)

variable {r} {i : Bool} {doc doc' : DocRecord} {x x' : PaymentDraft}

/-! The steps of a payment. -/

variable {q : LedgerProg PostedEntry}

theorem step_rest (r : RivalPayments π) (i : Bool) (doc : DocRecord) (x : PaymentDraft)
    (hq : q.ended = false) (s : ArApStores π) :
    (r.rest i doc x q).next ArApCall.exec s = r.rest i doc x (q.next LedgerCall.exec s.ledger) ∧
      (r.rest i doc x q).effect ArApCall.exec s =
        { s with ledger := q.effect LedgerCall.exec s.ledger } := by
  cases q with
  | ret e => cases hq
  | throw e => cases hq
  | call c k => exact ⟨rfl, rfl⟩

theorem effect_of_pending (hq : r.Pending i x q) (s : Ledger π) :
    q.effect LedgerCall.exec s = s := by
  cases hq with
  | looking => exact effect_settle s
  | checking => exact effect_appendFresh s

variable {w : PaymentPool π} {c : Cell} {ph : Phase} {p : ArApProg RecordPaymentResult}

theorem active_iff (h : r.At i ph p) :
    ph.Active ↔ Unwritten p ∧ ∃ d x, r.draft i d = .ok x ∧ r.Posts i x := by
  cases h with
  | start hdate =>
    rw [payment_of_date hdate]
    exact ⟨False.elim, fun h => h.1.elim⟩
  | @posting doc x q hdraft hposts hq =>
    exact iff_of_true trivial ⟨unwritten_rest (not_ended_of_pending hq), doc, x, hdraft, hposts⟩
  | @appending doc x hdraft hposts => exact iff_of_true trivial ⟨trivial, doc, x, hdraft, hposts⟩
  | @writing doc x hdraft hposts e => exact iff_of_true trivial ⟨trivial, doc, x, hdraft, hposts⟩
  | noting amount payment v => exact ⟨False.elim, fun h => h.1.elim⟩
  | paid amount v => exact ⟨False.elim, fun h => h.1.elim⟩
  | @doomed doc x q hdraft hposts hvalid hq =>
    refine ⟨False.elim, ?_⟩
    rintro ⟨-, d, x', hdraft', hposts'⟩
    rw [draft_unique hdraft' hdraft] at hposts'
    exact hposts hposts'
  | failed e => exact ⟨False.elim, fun h => h.1.elim⟩

theorem Draws.put (h : r.Draws w c)
    (hledger : ((w.proc i).effect ArApCall.exec w.state).ledger = w.state.ledger)
    (hdocs : ((w.proc i).effect ArApCall.exec w.state).docs.getDoc = w.state.docs.getDoc)
    (htaken : ph.taken = (c.phase i).taken) (hsett : (c.phase i).Settled → ph.Settled)
    (hstage : r.At i ph ((w.proc i).next ArApCall.exec w.state)) :
    r.Draws (w.step ArApCall.exec i) (c.put i ph) := by
  obtain ⟨new, hlist, hsum⟩ := h.journal
  refine ⟨?_, ⟨new, ?_, ?_⟩, ?_, forall_client i ?_ ?_, forall_client i ?_ ?_⟩
  · rw [step_state, hdocs]
    exact h.doc
  · rw [step_state, hledger]
    exact hlist
  · rw [Cell.taken_put, hsum]
    omega
  · rw [step_state, hledger]
    exact h.periods
  · rw [Cell.phase_put_self, step_state, hledger]
    exact fun hn => h.unused i fun hs => hn (hsett hs)
  · rw [Cell.phase_put_not, step_state, hledger]
    exact h.unused (!i)
  · rwa [Cell.phase_put_self, step_proc_self]
  · rw [Cell.phase_put_not, step_proc_ne w (Bool.not_ne_self i)]
    exact h.stage (!i)

theorem Draws.stay (h : r.Draws w c) (hproc : w.proc i = p)
    (hledger : (p.effect ArApCall.exec w.state).ledger = w.state.ledger)
    (hdocs : (p.effect ArApCall.exec w.state).docs.getDoc = w.state.docs.getDoc)
    (hph : c.phase i = ph) (hstage : r.At i ph (p.next ArApCall.exec w.state)) :
    ∃ c', Move c i c' ∧ r.Draws (w.step ArApCall.exec i) c' := by
  subst hproc hph
  have hput := h.put hledger hdocs rfl id hstage
  rw [Cell.put_self] at hput
  exact ⟨c, .stay, hput⟩

theorem Draws.commit (h : r.Draws w c) (hdraft : r.draft i doc = .ok x) (hposts : r.Posts i x)
    (hph : c.phase i = .holding doc.openMinor x.amount)
    (hproc : w.proc i = r.rest i doc x (.call (.append (r.entryDraft i x)) .ret)) :
    r.Draws (w.step ArApCall.exec i) (c.put i (.committed doc.openMinor x.amount)) := by
  have hfree : w.state.ledger.store.getByIdempotencyKey (r.entryDraft i x).tenantId
      (r.entryDraft i x).idempotencyKey = none := h.unused i (by rw [hph]; exact id)
  have hstate : (w.proc i).effect exec w.state =
      { w.state with ledger := w.state.ledger.append (r.entryDraft i x) } := by
    rw [hproc]
    rfl
  have hlines : (w.state.ledger.store.append (r.entryDraft i x)).1.lines = x.lines := by
    rw [InMemoryLedgerStore.append_of_none hfree]
    rfl
  obtain ⟨new, hlist, hsum⟩ := h.journal
  refine ⟨?_, ⟨new ++ [(w.state.ledger.store.append (r.entryDraft i x)).1], ?_, ?_⟩, ?_,
    forall_client i ?_ ?_, forall_client i ?_ ?_⟩
  · rw [step_state, hstate]
    exact h.doc
  · rw [step_state, hstate]
    refine (InMemoryLedgerStore.list_append_of_none hfree r.ctx.tenant).trans ?_
    have htenant : r.ctx.tenant = (r.entryDraft i x).tenantId := rfl
    rw [if_pos htenant, hlist, List.append_assoc]
  · rw [List.map_append, List.sum_append, hsum, Cell.taken_put, hph, List.map_singleton,
      List.sum_singleton, hlines, settled_draft hdraft]
    simp only [Phase.taken, Int.sub_zero]
  · rw [step_state, hstate]
    exact h.periods
  · rw [Cell.phase_put_self]
    exact fun hn => absurd trivial hn
  · rw [Cell.phase_put_not, step_state, hstate]
    intro hn
    refine (InMemoryLedgerStore.getByIdempotencyKey_append_ne _ ?_).trans (h.unused (!i) hn)
    exact r.key_not_ne i
  · rw [Cell.phase_put_self, step_proc_self, hproc]
    exact .writing hdraft hposts _
  · rw [Cell.phase_put_not, step_proc_ne w (Bool.not_ne_self i)]
    exact h.stage (!i)

theorem Draws.write (h : r.Draws w c) {e : PostedEntry}
    (hph : c.phase i = .committed doc.openMinor x.amount)
    (hproc : w.proc i = r.rest i doc x (.ret e)) : r.Draws (w.step ArApCall.exec i)
      { c.put i (.written x.amount) with value := doc.openMinor - x.amount } := by
  have hstate : (w.proc i).effect exec w.state = { w.state with
      docs := w.state.docs.setOpen r.ctx.tenant r.kind r.docId (doc.openMinor - x.amount)
        (statusFor (doc.openMinor - x.amount) doc.totalMinor) } := by
    rw [hproc]
    rfl
  obtain ⟨new, hlist, hsum⟩ := h.journal
  obtain ⟨status, hdoc⟩ := h.doc
  refine ⟨⟨statusFor (doc.openMinor - x.amount) doc.totalMinor, ?_⟩, ⟨new, ?_, ?_⟩, ?_,
    forall_client i ?_ ?_, forall_client i ?_ ?_⟩
  · rw [step_state, hstate]
    refine (InMemoryDocumentStore.getDoc_setOpen hdoc _ _).trans ?_
    rw [if_pos ⟨rfl, rfl, rfl⟩]
  · rw [step_state, hstate]
    exact hlist
  · change _ = (c.put i (.written x.amount)).taken
    rw [hsum, Cell.taken_put, hph]
    simp only [Phase.taken]
    omega
  · rw [step_state, hstate]
    exact h.periods
  · change ¬ ((c.put i (.written x.amount)).phase i).Settled → _
    rw [Cell.phase_put_self]
    exact fun hn => absurd trivial hn
  · change ¬ ((c.put i (.written x.amount)).phase (!i)).Settled → _
    rw [Cell.phase_put_not, step_state, hstate]
    exact h.unused (!i)
  · change r.At i ((c.put i (.written x.amount)).phase i) _
    rw [Cell.phase_put_self, step_proc_self, hproc]
    exact .noting _ _ _
  · change r.At (!i) ((c.put i (.written x.amount)).phase (!i)) _
    rw [Cell.phase_put_not, step_proc_ne w (Bool.not_ne_self i)]
    exact h.stage (!i)

theorem next_payment (hdate : isIsoDate (r.req i).date = true) {s : ArApStores π}
    (hget : s.docs.getDoc r.ctx.tenant r.kind r.docId = some doc) :
    (r.payment i).next ArApCall.exec s = (Prog.ofExcept (r.draft i doc)).bind fun x =>
      (Prog.ofExcept (validated (r.context i) (r.command i x))).bind fun _ =>
        r.rest i doc x (PostingEngine.post r.ctx.chart (r.command i x) ⟨r.postedAt i⟩) := by
  rw [payment_of_date hdate, Prog.next]
  dsimp only [exec]
  rw [hget]
  rfl

/-- A payment that reads the document goes on to post exactly when it is accepted and its other
checks let it through; else nothing will come of it. -/
theorem after_read (r : RivalPayments π) (i : Bool) (doc : DocRecord) :
    (∃ x, r.draft i doc = .ok x ∧ r.Posts i x ∧
      ((Prog.ofExcept (r.draft i doc)).bind fun x =>
        (Prog.ofExcept (validated (r.context i) (r.command i x))).bind fun _ =>
          r.rest i doc x (PostingEngine.post r.ctx.chart (r.command i x) ⟨r.postedAt i⟩)) =
        r.rest i doc x (PostingEngine.post r.ctx.chart (r.command i x) ⟨r.postedAt i⟩)) ∨
    ((¬ ∃ x, r.draft i doc = .ok x ∧ r.Posts i x) ∧
      r.At i .out ((Prog.ofExcept (r.draft i doc)).bind fun x =>
        (Prog.ofExcept (validated (r.context i) (r.command i x))).bind fun _ =>
          r.rest i doc x (PostingEngine.post r.ctx.chart (r.command i x) ⟨r.postedAt i⟩))) := by
  cases hdraft : r.draft i doc with
  | error e =>
    refine .inr ⟨?_, .failed e⟩
    rintro ⟨x, hx, -⟩
    cases hx
  | ok x =>
    have huniq : (∃ x', Except.ok x = (Except.ok x' : Except ArApFailure PaymentDraft) ∧
        r.Posts i x') → r.Posts i x := by
      rintro ⟨x', hx', hposts⟩
      rwa [Except.ok.inj hx']
    simp only [Prog.ofExcept, Prog.bind]
    cases hvalid : validated (r.context i) (r.command i x) with
    | error e =>
      refine .inr ⟨fun h => ?_, .failed e⟩
      have hok := (huniq h).valid
      rw [hvalid] at hok
      cases hok
    | ok u =>
      by_cases hposts : r.Posts i x
      · exact .inl ⟨x, rfl, hposts, rfl⟩
      · exact .inr ⟨fun h => hposts (huniq h), .doomed hdraft hposts hvalid .looking⟩

theorem effect_payment (hdate : isIsoDate (r.req i).date = true) (s : ArApStores π) :
    (r.payment i).effect ArApCall.exec s = s := by
  rw [payment_of_date hdate]
  rfl

theorem draws_read (h : r.Draws w c) (hdate : isIsoDate (r.req i).date = true)
    (hph : c.phase i = .idle) (hproc : w.proc i = r.payment i) :
    (r.Apart w i → ∃ c', Move c i c' ∧ r.Draws (w.step ArApCall.exec i) c') ∧
    (¬ r.Apart w i → ∃ c', Overlap c i c' ∧ r.Draws (w.step ArApCall.exec i) c') := by
  obtain ⟨status, hget⟩ := h.doc
  have hother := active_iff (h.stage (!i))
  have heff : (w.proc i).effect exec w.state = w.state := by
    rw [hproc, effect_payment hdate]
  have hledger := congrArg ArApStores.ledger heff
  have hdocs := congrArg (fun s : ArApStores π => s.docs.getDoc) heff
  have hnext := next_payment hdate hget
  -- a payment that will not post takes no part, whoever else is active
  rcases r.after_read i _ with ⟨x, hdraft, hposts, hrest⟩ | ⟨hnone, hat⟩
  · obtain ⟨hpos, hle, -⟩ := draft_spec hdraft
    have hdraws : r.Draws (w.step exec i) (c.put i (.holding c.value x.amount)) := by
      refine h.put hledger hdocs (by rw [hph]; rfl) (by rw [hph]; exact False.elim) ?_
      rw [hproc, hnext, hrest]
      exact .posting hdraft hposts .looking
    by_cases hact : (c.phase (!i)).Active
    · refine ⟨fun hapart => absurd ?_ hapart, fun _ => ⟨_, .read hph hpos hle hact, hdraws⟩⟩
      have hreads : Reads (w.proc i) := by
        rw [hproc, payment_of_date hdate]
        trivial
      exact ⟨hreads, ⟨_, x, hget, hdraft, hposts⟩, hother.mp hact⟩
    · refine ⟨fun _ => ⟨_, .read hph hpos hle hact, hdraws⟩, fun hn => absurd ?_ hn⟩
      rintro ⟨-, -, hunw, hpost⟩
      exact hact (hother.mpr ⟨hunw, hpost⟩)
  · have hdraws : r.Draws (w.step exec i) (c.put i .out) := by
      refine h.put hledger hdocs (by rw [hph]; rfl) (by rw [hph]; exact False.elim) ?_
      rw [hproc, hnext]
      exact hat
    refine ⟨fun _ => ⟨_, .decline hph, hdraws⟩, fun hn => absurd ?_ hn⟩
    rintro ⟨-, ⟨d, x, hd, hdraft, hposts⟩, -⟩
    rw [hget] at hd
    rw [← Option.some.inj hd] at hdraft
    exact hnone ⟨x, hdraft, hposts⟩

theorem next_pending (h : r.Draws w c) (hq : r.Pending i x q)
    (hvalid : validated (r.context i) (r.command i x) = .ok ())
    (huns : ¬ (c.phase i).Settled) : r.Pending i x (q.next LedgerCall.exec w.state.ledger) ∨
      (r.Posts i x ∧ q.next LedgerCall.exec w.state.ledger =
        .call (.append (r.entryDraft i x)) .ret) ∨
      (¬ r.Posts i x ∧ ∃ e, q.next LedgerCall.exec w.state.ledger = .throw e) := by
  cases hq with
  | looking =>
    have hfree : w.state.ledger.store.getByIdempotencyKey (r.command i x).tenantId
      (r.command i x).idempotencyKey = none := h.unused i huns
    rw [PostingEngine.post, PostingEngine.next_settle_of_none _ hfree]
    exact .inl .checking
  | checking =>
    right
    rw [next_appendFresh, h.periods]
    by_cases hlkd : PeriodStore.status r.start.ledger.periods r.ctx.tenant
        (r.command i x).periodKey = .locked
    · rw [if_pos hlkd]
      exact .inr ⟨fun hposts => hposts.opened hlkd, _, rfl⟩
    · rw [if_neg hlkd]
      cases hlines : validateAndBuildLines x.lines r.ctx.currency r.ctx.chart with
      | error e =>
        refine .inr ⟨fun hposts => ?_, e, rfl⟩
        obtain ⟨lines, hok⟩ := hposts.lines
        cases hlines.symm.trans hok
      | ok lines =>
        obtain ⟨-, -, -, hsame⟩ := validateAndBuildLines_eq_ok.mp hlines
        rw [hsame]
        exact .inl ⟨⟨hvalid, hlkd, lines, hlines⟩, rfl⟩

theorem Draws.pending (h : r.Draws w c) (hproc : w.proc i = r.rest i doc x q)
    (hq : r.Pending i x q) (hph : c.phase i = ph)
    (hstage : r.At i ph (r.rest i doc x (q.next LedgerCall.exec w.state.ledger))) :
    ∃ c', Move c i c' ∧ r.Draws (w.step ArApCall.exec i) c' := by
  obtain ⟨hnext, heff⟩ := r.step_rest i doc x (not_ended_of_pending hq) w.state
  rw [effect_of_pending hq] at heff
  refine h.stay hproc ?_ ?_ hph ?_
  · rw [heff]
  · rw [heff]
  · rwa [hnext]

theorem draws_step (h : r.Draws w c) (hreads : ¬ Reads (w.proc i)) :
    ∃ c', Move c i c' ∧ r.Draws (w.step ArApCall.exec i) c' := by
  have hat := h.stage i
  generalize hph : c.phase i = ph at hat
  generalize hproc : w.proc i = p at hat
  cases hat with
  | start hdate =>
    rw [hproc, payment_of_date hdate] at hreads
    exact absurd trivial hreads
  | @posting doc x q hdraft hposts hq =>
    have huns : ¬ (c.phase i).Settled := by rw [hph]; exact id
    refine h.pending hproc hq hph ?_
    rcases next_pending h hq hposts.valid huns with hq' | ⟨-, hq'⟩ | ⟨hn, -⟩
    · exact .posting hdraft hposts hq'
    · rw [hq']
      exact .appending hdraft hposts
    · exact absurd hposts hn
  | @appending doc x hdraft hposts =>
    exact ⟨_, .commit hph, h.commit hdraft hposts hph hproc⟩
  | @writing doc x hdraft hposts e => exact ⟨_, .write hph, h.write hph hproc⟩
  | noting amount payment v => exact h.stay hproc rfl rfl hph (.paid amount v)
  | paid amount v => exact h.stay hproc rfl rfl hph (.paid amount v)
  | @doomed doc x q hdraft hposts hvalid hq =>
    have huns : ¬ (c.phase i).Settled := by rw [hph]; exact id
    refine h.pending hproc hq hph ?_
    rcases next_pending h hq hvalid huns with hq' | ⟨hp, -⟩ | ⟨-, e, hq'⟩
    · exact .doomed hdraft hposts hvalid hq'
    · exact absurd hp hposts
    · rw [hq']
      exact .failed (.ledger e)
  | failed e => exact h.stay hproc rfl rfl hph (.failed e)

theorem eq_of_reads (h : r.At i ph p) (hreads : Reads p) :
    ph = .idle ∧ p = r.payment i ∧ isIsoDate (r.req i).date = true := by
  cases h with
  | start hdate => exact ⟨rfl, rfl, hdate⟩
  | posting hdraft hposts hq => exact absurd hreads (not_reads_rest _)
  | appending hdraft hposts => exact absurd hreads (not_reads_rest _)
  | writing hdraft hposts e => exact absurd hreads (not_reads_rest _)
  | doomed hdraft hposts hvalid hq => exact absurd hreads (not_reads_rest _)
  | noting amount payment v => exact hreads.elim
  | paid amount v => exact hreads.elim
  | failed e => exact hreads.elim

/-- A step of a payment is a move of its client, unless it reads the document in between the other
payment's read and write-back. -/
theorem draws_next (h : r.Draws w c) (i : Bool) :
    (r.Apart w i → ∃ c', Move c i c' ∧ r.Draws (w.step ArApCall.exec i) c') ∧
    (¬ r.Apart w i → ∃ c', Overlap c i c' ∧ r.Draws (w.step ArApCall.exec i) c') := by
  by_cases hreads : Reads (w.proc i)
  · obtain ⟨hph, hproc, hdate⟩ := eq_of_reads (h.stage i) hreads
    exact draws_read h hdate hph hproc
  · exact ⟨fun _ => draws_step h hreads, fun hn => absurd (fun ha => hreads ha.1) hn⟩

def startPhase (r : RivalPayments π) (i : Bool) : Phase :=
  if isIsoDate (r.req i).date = true then .idle else .out

theorem at_start (r : RivalPayments π) (i : Bool) : r.At i (r.startPhase i) (r.payment i) ∧
    ¬ (r.startPhase i).Active ∧ ¬ (r.startPhase i).Settled ∧ (r.startPhase i).taken = 0 ∧
      (r.startPhase i).drawn = 0 := by
  unfold startPhase
  by_cases hdate : isIsoDate (r.req i).date = true
  · rw [if_pos hdate]
    exact ⟨.start hdate, id, id, rfl, rfl⟩
  · rw [if_neg hdate, payment_of_bad_date (Bool.eq_false_of_not_eq_true hdate)]
    exact ⟨.failed _, id, id, rfl, rfl⟩

theorem draws_start (r : RivalPayments π) : r.Draws r.pool ⟨r.doc.openMinor, r.startPhase⟩ := by
  obtain ⟨-, -, -, hfalse, -⟩ := r.at_start false
  obtain ⟨-, -, -, htrue, -⟩ := r.at_start true
  refine ⟨⟨r.doc.status, r.raised⟩, ⟨[], (List.append_nil _).symm, ?_⟩, rfl,
    fun i _ => r.unused i, fun i => (r.at_start i).1⟩
  change 0 = (r.startPhase false).taken + (r.startPhase true).taken
  rw [hfalse, htrue]
  rfl

theorem exclusive_start (r : RivalPayments π) :
    Exclusive r.doc.openMinor ⟨r.doc.openMinor, r.startPhase⟩ := by
  obtain ⟨-, -, -, -, hfalse⟩ := r.at_start false
  obtain ⟨-, -, -, -, htrue⟩ := r.at_start true
  refine ⟨?_, r.open_nonneg, fun i => fits_of_not_active (r.at_start i).2.1,
    fun i hact => absurd hact (r.at_start i).2.1⟩
  rw [Cell.drawn, hfalse, htrue]
  exact (Int.sub_zero _).symm

theorem collected_of_draws (h : r.Draws w c) : r.collected w.state = c.taken := by
  obtain ⟨new, hlist, hsum⟩ := h.journal
  rw [collected, hlist, List.drop_left, hsum]

theorem within_of_exclusive (h : r.Draws w c) (hex : Exclusive r.doc.openMinor c) : r.Within w := by
  have htaken := hex.taken_le
  rw [Within, postedTotal, collected_of_draws h]
  omega

theorem not_active_of_ended (h : r.At i ph p) (hended : p.ended = true) : ¬ ph.Active := by
  cases h with
  | start hdate => exact id
  | posting hdraft hposts hq =>
    rw [ended_rest (not_ended_of_pending hq)] at hended
    cases hended
  | appending hdraft hposts => cases hended
  | writing hdraft hposts e => cases hended
  | noting amount payment v => exact id
  | paid amount v => exact id
  | doomed hdraft hposts hvalid hq => exact id
  | failed e => exact id

theorem exact_iff (h : r.Draws w c) : r.Exact w ↔ c.value = r.doc.openMinor - c.taken := by
  obtain ⟨status, hdoc⟩ := h.doc
  rw [Exact, hdoc, Option.map_some, postedTotal, collected_of_draws h, Option.some.injEq]
  dsimp only
  constructor <;> intro heq <;> omega

/-- However the steps of the two payments are interleaved: if they keep apart, no more is ever
posted than the document comes to, and once both have ended the open amount is exact; and where
both have ended, the two together hold in no other case. -/
theorem rival_payments (r : RivalPayments π) (sched : List Bool) :
    (EachStep (Pool.step ArApCall.exec) r.Apart r.pool sched →
      Along (Pool.step ArApCall.exec) r.Within r.pool sched) ∧
    ((∀ i, ((r.pool.runSchedule ArApCall.exec sched).proc i).ended = true) →
      (Along (Pool.step ArApCall.exec) r.Within r.pool sched ∧
          r.Exact (r.pool.runSchedule ArApCall.exec sched) ↔
        EachStep (Pool.step ArApCall.exec) r.Apart r.pool sched)) := by
  -- exact and exclusive, or past an overlap that has lost an amount for good
  let good (w : PaymentPool π) := ∃ c, r.Draws w c ∧ Exclusive r.doc.openMinor c
  let lost (w : PaymentPool π) := ∃ c, r.Draws w c ∧ Lost r.doc.openMinor c
  have hstart : good r.pool := ⟨_, r.draws_start, r.exclusive_start⟩
  have hwin : ∀ w, good w → r.Within w := fun w ⟨c, h, hex⟩ => within_of_exclusive h hex
  have hrest : ∀ w c, r.Draws w c → (∀ i, (w.proc i).ended = true) → ∀ i, ¬ (c.phase i).Active :=
    fun w c h hended i => not_active_of_ended (h.stage i) (hended i)
  have hapart : ∀ w i, good w → r.Apart w i → good (w.step exec i) := by
    rintro w i ⟨c, h, hex⟩ hapart
    obtain ⟨c', hmove, h'⟩ := (draws_next h i).1 hapart
    exact ⟨c', h', hex.move hmove⟩
  have hoverl : ∀ w i, good w → ¬ r.Apart w i → lost (w.step exec i) := by
    rintro w i ⟨c, h, hex⟩ hapart
    obtain ⟨c', hover, h'⟩ := (draws_next h i).2 hapart
    exact ⟨c', h', hex.overlap hover⟩
  have hlost : ∀ w i, lost w → lost (w.step exec i) := by
    rintro w i ⟨c, h, hlost⟩
    by_cases hapart : r.Apart w i
    · obtain ⟨c', hmove, h'⟩ := (draws_next h i).1 hapart
      exact ⟨c', h', hlost.move hmove⟩
    · obtain ⟨c', hover, h'⟩ := (draws_next h i).2 hapart
      exact ⟨c', h', hlost.overlap hover⟩
  rcases eachStep_dichotomy hapart hoverl hlost hstart sched with
    ⟨hsteps, halong⟩ | ⟨hsteps, c, h, hcell⟩
  · refine ⟨fun _ => along_imp hwin halong, fun hended => iff_of_true ⟨?_, ?_⟩ hsteps⟩
    · exact along_imp hwin halong
    · obtain ⟨c, h, hex⟩ := halong sched List.prefix_rfl
      exact (exact_iff h).mpr (hex.exact (hrest _ c h hended))
  · refine ⟨fun hall => absurd hall hsteps, fun hended => iff_of_false ?_ hsteps⟩
    rintro ⟨-, hexact⟩
    exact hcell.not_exact (hrest _ c h hended) ((exact_iff h).mp hexact)

end RivalPayments

namespace Sample

def raised : ArApStores (InMemoryPeriodStore TenantId PeriodKey) :=
  raise.step (opening .empty customers)

def raisedInvoice : DocRecord where
  id := "inv-1"
  kind := .invoice
  partyId := "globex"
  date := "2026-08-01"
  dueDate := "2026-08-31"
  netMinor := 100
  taxMinor := 0
  taxRatePpm := 0
  totalMinor := 100
  openMinor := 100
  status := .opened
  memo := ""
  lines := [⟨"", 1, 100, "4000", 100, true, none⟩]

/-- Two callers that each pay all of it. -/
def rivals : RivalPayments (InMemoryPeriodStore TenantId PeriodKey) where
  ctx := context
  kind := .invoice
  docId := "inv-1"
  accounts := noOverrides
  req i := payment (if i then "p2" else "p1") "100"
  postedAt _ := "2026-08-02"
  start := raised
  doc := raisedInvoice
  id_given := by decide +kernel
  id_ne := by decide +kernel
  unused := by decide +kernel
  raised := by decide +kernel
  open_nonneg := by decide

/-- One after the other. -/
def inTurn : List Bool := List.replicate 7 false ++ List.replicate 7 true

/-- Both read the invoice before either writes it back. -/
def together : List Bool :=
  [false, true, false, false, false, true, true, true, false, true, false, true]

end Sample

open RivalPayments

theorem payments_in_turn : EachStep (Pool.step ArApCall.exec) Sample.rivals.Apart
    Sample.rivals.pool Sample.inTurn := by
  refine ((rival_payments Sample.rivals Sample.inTurn).2 (by decide +kernel)).mp ⟨?_, ?_⟩
  · have hinits : ∀ pre ∈ Sample.inTurn.inits,
        Sample.rivals.postedTotal (Sample.rivals.pool.runSchedule exec pre).state ≤
          Sample.rivals.doc.totalMinor := by decide +kernel
    exact fun pre hpre => hinits pre ((List.mem_inits _ _).mpr hpre)
  · unfold Exact
    decide +kernel

theorem payments_together :
    ¬ Sample.rivals.Within (Sample.rivals.pool.runSchedule ArApCall.exec Sample.together) ∧
      ¬ Sample.rivals.Exact (Sample.rivals.pool.runSchedule ArApCall.exec Sample.together) := by
  unfold Within Exact
  decide +kernel

end Rgnr8.Service.ArAp
