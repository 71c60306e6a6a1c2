import Rgnr8.Service.Corrections

/-! Three routes reverse, each under a key of its own, and none of them asks the journal whether the
entry has been reversed before. -/

namespace Rgnr8.Service.Corrections
open Lib Lib.Js Kernel ArAp Inbox Payroll Prog LedgerCall Ledger List
variable {π : Type} [PeriodStore π]

attribute [local irreducible] Prog.Makes

/-! What an operation does to the journal. -/

variable {b : Backend π} {op : BackendOp} {α : Type}

theorem addsPlain_arAp {p : ArApProg α} (hp : p.Makes ArApPlain) (s : ArApStores π) :
    s.ledger.AddsPlain (p.run ArApCall.exec s).2.ledger := by
  have hkeep : ∀ (c : ArApCall) (t : ArApStores π), ArApPlain c → s.ledger.AddsPlain t.ledger →
      s.ledger.AddsPlain (c.exec t).2.ledger := by
    intro c t hc h
    cases c with
    | ledger c => exact h.trans (Ledger.AddsPlain.exec hc t.ledger)
    | _ => exact h
  exact (hp.keeps hkeep (Ledger.AddsPlain.refl s.ledger)).2

theorem addsPlain_inbox {p : InboxProg α} (hp : p.Makes InboxPlain) (b : Backend π) :
    b.ledger.AddsPlain (inboxStep p b).ledger := by
  have hkeep : ∀ (c : InboxCall) (t : InboxStores π), InboxPlain c →
      b.ledger.AddsPlain t.books.ledger → b.ledger.AddsPlain (c.exec t).2.books.ledger := by
    intro c t hc h
    cases c with
    | arAp c => exact h.trans (addsPlain_arAp (makes_perform hc) t.books)
    | _ => exact h
  exact (hp.keeps hkeep (Ledger.AddsPlain.refl b.ledger)).2

theorem addsPlain_payroll {p : PayrollProg α} (hp : p.Makes PayrollPlain) (b : Backend π) :
    b.ledger.AddsPlain (payrollStep p b).ledger := by
  have hkeep : ∀ (c : PayrollCall) (t : Stores π PayrollStore), PayrollPlain c →
      b.ledger.AddsPlain t.ledger → b.ledger.AddsPlain (c.exec t).2.ledger := by
    intro c t hc h
    cases c with
    | ledger c => exact h.trans (Ledger.AddsPlain.exec hc t.ledger)
    | _ => exact h
  exact (hp.keeps hkeep (Ledger.AddsPlain.refl b.ledger)).2

/-- An operation carries a reversal out: it leaves the journal as the engine does and returns exactly
when the engine does. -/
structure CarriesOut (b : Backend π) (q : ReverseRequest) {ε α : Type} (r : Except ε α)
    (ledger : Ledger π) : Prop where
  left : ledger = (q.program.run LedgerCall.exec b.ledger).2
  returns : (∃ a, r = .ok a) ↔ ∃ e, (q.program.run LedgerCall.exec b.ledger).1 = .ok e

variable (p : LedgerProg α)

theorem run_routed (s : Ledger π) :
    (p.interpret Prog.perform ReverseFailure.ledger).run LedgerCall.exec s =
      ((p.run LedgerCall.exec s).1.mapError .ledger, (p.run LedgerCall.exec s).2) :=
  run_interpret id (fun ledger _ => ledger) (fun _ _ => rfl) (fun _ _ _ => rfl)
    (fun _ => rfl) (fun _ _ => rfl) p s

theorem reverse_cases (b : Backend π) (ctx : EntryContext) (clock : Clock) (entryId : EntryId)
    (body : String) :
    (asked b (.reverse ctx clock entryId body) = none ∧
      ∃ e, (reverseEntry ctx clock entryId body).run LedgerCall.exec b.ledger =
        (.error e, b.ledger)) ∨
    ∃ q, asked b (.reverse ctx clock entryId body) = some q ∧ q.originalId = entryId ∧
      (reverseEntry ctx clock entryId body).run LedgerCall.exec b.ledger =
        ((q.program.run LedgerCall.exec b.ledger).1.mapError .ledger,
          (q.program.run LedgerCall.exec b.ledger).2) := by
  have hread : (perform (getById ctx.tenant entryId) : Prog LedgerCall
      LedgerCall.Answer ReverseFailure _).run exec b.ledger =
        (.ok (b.ledger.store.getById ctx.tenant entryId), b.ledger) := rfl
  unfold asked reverseEntry
  dsimp only
  rcases hbody : parsedBody ctx body with err | data
  · exact .inl ⟨rfl, err, rfl⟩
  · have hpar : (ofExcept (.ok data) : Prog LedgerCall LedgerCall.Answer ReverseFailure
        _).run exec b.ledger = (.ok data, b.ledger) := rfl
    rw [run_bind_ok hpar, run_bind_ok hread]
    rcases horiginal : b.ledger.store.getById ctx.tenant entryId with - | original
    · exact .inl ⟨rfl, .notFound s!"unknown entry {entryId}", rfl⟩
    · have hfound : (ofExcept (foundEntry entryId (some original)) : Prog LedgerCall
          LedgerCall.Answer ReverseFailure _).run exec b.ledger =
            (.ok original, b.ledger) := rfl
      have hid : original.id = entryId := (InMemoryLedgerStore.getById_iff.mp horiginal).2
      rw [run_bind_ok hfound]
      dsimp only
      rcases reverseDate data original with err | date
      · exact .inl ⟨rfl, err, rfl⟩
      · right
        refine ⟨reverseRequest ctx clock entryId data original date, rfl, hid, ?_⟩
        exact run_routed _ b.ledger

theorem run_inboxLedger (s : InboxStores π) : (Inbox.onLedger p).run InboxCall.exec s =
      ((p.run LedgerCall.exec s.books.ledger).1.mapError .ledger,
        { s with books.ledger := (p.run LedgerCall.exec s.books.ledger).2 }) :=
  run_interpret (fun s : InboxStores π => s.books.ledger)
    (fun ledger s => { s with books.ledger := ledger }) (fun _ _ => rfl) (fun _ _ _ => rfl)
    (fun _ => rfl) (fun _ _ => rfl) p s

theorem run_payrollLedger (s : Stores π PayrollStore) :
    (Payroll.onLedger p).run PayrollCall.exec s =
      ((p.run LedgerCall.exec s.ledger).1.mapError .ledger,
        { s with ledger := (p.run LedgerCall.exec s.ledger).2 }) :=
  run_interpret (fun s : Stores π PayrollStore => s.ledger)
    (fun ledger s => { s with ledger := ledger }) (fun _ _ => rfl) (fun _ _ _ => rfl)
    (fun _ => rfl) (fun _ _ => rfl) p s

theorem run_reopenDoc (ctx : InboxContext) (txn : FeedTxnRecord) (s : InboxStores π) :
    ∃ docs, (reopenDoc ctx txn).run InboxCall.exec s = (.ok (), { s with books.docs := docs }) := by
  unfold reopenDoc
  rcases txn.docKind with - | kind
  · exact ⟨s.books.docs, rfl⟩
  · dsimp only
    split_ifs
    · exact ⟨s.books.docs, rfl⟩
    · have hread : InboxCall.exec (.arAp (.getDoc ctx.tenant kind txn.docId)) s =
          (s.books.docs.getDoc ctx.tenant kind txn.docId, s) := rfl
      rw [bind_eq, run_bind, run_perform, hread]
      rcases s.books.docs.getDoc ctx.tenant kind txn.docId with - | doc
      · exact ⟨s.books.docs, rfl⟩
      · exact ⟨_, rfl⟩

theorem run_undo_rest (ctx : InboxContext) (txn : FeedTxnRecord) (s : InboxStores π) :
    ∃ docs feed, (reopenDoc ctx txn >>= fun _ =>
        Prog.perform (InboxCall.updateTxn ctx.tenant (undone txn)) >>= fun _ =>
          pure (result (undone txn)) : InboxProg ActionResult).run InboxCall.exec s =
      (.ok (result (undone txn)), ⟨⟨s.books.ledger, docs⟩, feed⟩) := by
  obtain ⟨docs, hreop⟩ := run_reopenDoc ctx txn s
  rw [bind_eq, run_bind, hreop]
  exact ⟨docs, _, rfl⟩

theorem undo_cases (b : Backend π) (ctx : InboxContext) (clock : Clock) (id : String) :
    (asked b (.undo ctx clock id) = none ∧ (step b (.undo ctx clock id)).ledger = b.ledger ∧
      ∀ r, ((undoTxn ctx clock id).run InboxCall.exec b.inbox).1 = .ok r →
        ∀ txn ∈ b.feed.getTxn ctx.tenant id, txn.entryId = "") ∨
    ∃ q, asked b (.undo ctx clock id) = some q ∧
      (∃ txn, b.feed.getTxn ctx.tenant id = some txn ∧ txn.entryId ≠ "" ∧
        q.tenant = ctx.tenant ∧ q.originalId = txn.entryId) ∧
      CarriesOut b q ((undoTxn ctx clock id).run InboxCall.exec b.inbox).1
        (step b (.undo ctx clock id)).ledger := by
  have hasked : asked b (.undo ctx clock id) = (b.feed.getTxn ctx.tenant id).bind fun txn =>
      if txn.status = .pending ∨ txn.entryId = "" then none
      else some (undoRequest ctx clock txn) := rfl
  have hstep : (step b (.undo ctx clock id)).ledger =
      ((undoTxn ctx clock id).run InboxCall.exec b.inbox).2.books.ledger := rfl
  have hread : (perform (InboxCall.getTxn ctx.tenant id) : InboxProg _).run InboxCall.exec
      b.inbox = (.ok (b.feed.getTxn ctx.tenant id), b.inbox) := rfl
  rw [hasked, hstep]
  unfold undoTxn
  rw [run_bind_ok hread]
  rcases htxn : b.feed.getTxn ctx.tenant id with - | txn
  · exact .inl ⟨rfl, rfl, fun r hr => nomatch hr⟩
  have hfound : (ofExcept (foundTxn id (some txn)) : InboxProg _).run InboxCall.exec
      b.inbox = (.ok txn, b.inbox) := rfl
  rw [run_bind_ok hfound, Option.bind_some]
  by_cases hpend : txn.status = .pending
  · left
    rw [refuseIf_pos hpend, if_pos (.inl hpend)]
    exact ⟨rfl, rfl, fun r hr => nomatch hr⟩
  have hgo : (ret () : InboxProg Unit).run InboxCall.exec b.inbox = (.ok (), b.inbox) := rfl
  rw [refuseIf_neg hpend, run_bind_ok hgo]
  unfold reverseTxn
  by_cases hent : txn.entryId = ""
  · left
    obtain ⟨docs, feed, hrest⟩ := run_undo_rest ctx txn b.inbox
    rw [if_pos (.inr hent), if_pos hent, pure_eq, run_bind_ok hgo, hrest]
    refine ⟨rfl, rfl, fun r _ txn' htxn' => ?_⟩
    rw [← Option.some.inj htxn']
    exact hent
  · right
    rw [if_neg (not_or.mpr ⟨hpend, hent⟩), if_neg hent]
    refine ⟨undoRequest ctx clock txn, rfl, ⟨txn, rfl, hent, rfl, rfl⟩, ?_⟩
    have heng := run_inboxLedger (undoRequest ctx clock txn).program b.inbox
    have hbooks : b.inbox.books.ledger = b.ledger := rfl
    rw [hbooks] at heng
    rcases hrun : (undoRequest ctx clock txn).program.run exec b.ledger with
      ⟨err | e, ledger⟩
    · rw [hrun] at heng
      have hstop := run_bind_error (f := fun _ => (pure () : InboxProg Unit)) heng
      rw [run_bind_error hstop]
      refine ⟨by rw [hrun], ?_⟩
      rw [hrun]
      exact iff_of_false (fun h => nomatch h) (fun h => nomatch h)
    · rw [hrun] at heng
      have hon := run_bind_ok (f := fun _ => (pure () : InboxProg Unit)) heng
      have hdone : (pure () : InboxProg Unit).run InboxCall.exec
          { b.inbox with books.ledger := ledger } =
            (.ok (), { b.inbox with books.ledger := ledger }) := rfl
      replace hon := hon.trans hdone
      obtain ⟨docs, feed, hrest⟩ := run_undo_rest ctx txn { b.inbox with books.ledger := ledger }
      rw [run_bind_ok hon, hrest]
      refine ⟨by rw [hrun], ?_⟩
      rw [hrun]
      exact iff_of_true ⟨_, rfl⟩ ⟨e, rfl⟩

theorem void_cases (b : Backend π) (ctx : PayrollContext) (clock : Clock) (id : String) :
    (asked b (.voidRun ctx clock id) = none ∧ (step b (.voidRun ctx clock id)).ledger = b.ledger ∧
      ∃ e, ((Payroll.voidRun ctx clock id).run PayrollCall.exec b.payrolls).1 = .error e) ∨
    ∃ q, asked b (.voidRun ctx clock id) = some q ∧
      (∃ run, b.payroll.getRun ctx.tenant id = some run ∧ q.tenant = ctx.tenant ∧
        q.originalId = run.entryId) ∧
      CarriesOut b q ((Payroll.voidRun ctx clock id).run PayrollCall.exec b.payrolls).1
        (step b (.voidRun ctx clock id)).ledger := by
  have hasked : asked b (.voidRun ctx clock id) = (b.payroll.getRun ctx.tenant id).bind fun run =>
      if run.status = .posted then some (voidRequest ctx clock run) else none := rfl
  have hstep : (step b (.voidRun ctx clock id)).ledger =
      ((Payroll.voidRun ctx clock id).run PayrollCall.exec b.payrolls).2.ledger := rfl
  have hread : (perform (PayrollCall.getRun ctx.tenant id) : PayrollProg _).run
      PayrollCall.exec b.payrolls = (.ok (b.payroll.getRun ctx.tenant id), b.payrolls) := rfl
  rw [hasked, hstep]
  unfold Payroll.voidRun
  rw [run_bind_ok hread]
  rcases hget : b.payroll.getRun ctx.tenant id with - | run
  · exact .inl ⟨rfl, rfl, _, rfl⟩
  have hfound : (ofExcept (foundRun id (some run)) : PayrollProg _).run PayrollCall.exec
      b.payrolls = (.ok run, b.payrolls) := rfl
  rw [run_bind_ok hfound, Option.bind_some]
  by_cases hposted : run.status = .posted
  · right
    have hgo : (ret () : PayrollProg Unit).run PayrollCall.exec b.payrolls =
      (.ok (), b.payrolls) := rfl
    rw [refuseIf_neg (not_not.mpr hposted), run_bind_ok hgo, if_pos hposted]
    refine ⟨voidRequest ctx clock run, rfl, ⟨run, rfl, rfl, rfl⟩, ?_⟩
    have heng := run_payrollLedger (voidRequest ctx clock run).program b.payrolls
    have hbooks : b.payrolls.ledger = b.ledger := rfl
    rw [hbooks] at heng
    rcases hrun : (voidRequest ctx clock run).program.run exec b.ledger with
      ⟨err | e, ledger⟩
    · rw [hrun] at heng
      rw [run_bind_error heng]
      refine ⟨by rw [hrun], ?_⟩
      rw [hrun]
      exact iff_of_false (fun h => nomatch h) (fun h => nomatch h)
    · rw [hrun] at heng
      rw [run_bind_ok heng]
      refine ⟨by rw [hrun]; rfl, ?_⟩
      rw [hrun]
      exact iff_of_true ⟨_, rfl⟩ ⟨e, rfl⟩
  · left
    rw [refuseIf_pos hposted, if_neg hposted]
    exact ⟨rfl, rfl, _, rfl⟩

theorem addsPlain_step (h : asked b op = none) : b.ledger.AddsPlain (step b op).ledger := by
  cases op with
  | post coa command opts =>
    have hkeep : ∀ (c : LedgerCall) (t : Ledger π), Plain c → b.ledger.AddsPlain t →
        b.ledger.AddsPlain (c.exec t).2 := fun c t hc ht => ht.trans (Ledger.AddsPlain.exec hc t)
    exact ((plain_post coa command opts).keeps hkeep (Ledger.AddsPlain.refl b.ledger)).2
  | periods op => exact Ledger.AddsPlain.of_store_eq rfl
  | party tenant kind party => exact Ledger.AddsPlain.of_store_eq rfl
  | arAp ctx r => exact addsPlain_arAp (plain_arApRequest ctx r) b.books
  | reverse ctx clock entryId body =>
    rcases reverse_cases b ctx clock entryId body with ⟨-, e, hrun⟩ | ⟨q, hq, -⟩
    · have hledger : (step b (.reverse ctx clock entryId body)).ledger = b.ledger :=
        congrArg Prod.snd hrun
      exact Ledger.AddsPlain.of_store_eq (congrArg store hledger)
    · cases hq.symm.trans h
  | deliver ctx accountCode txns source clocks => exact addsPlain_inbox (plain_deliverFeed ..) b
  | accept ctx clock id categoryCode dimensions => exact addsPlain_inbox (plain_acceptTxn ..) b
  | matchDoc ctx postedAt id docKind docId => exact addsPlain_inbox (plain_matchTxn ..) b
  | exclude ctx id reason => exact addsPlain_inbox (plain_excludeTxn ..) b
  | undo ctx clock id =>
    rcases undo_cases b ctx clock id with ⟨-, hledger, -⟩ | ⟨q, hq, -⟩
    · exact Ledger.AddsPlain.of_store_eq (congrArg store hledger)
    · cases hq.symm.trans h
  | employee ctx input => exact addsPlain_payroll (plain_saveEmployee ..) b
  | createRun ctx req => exact addsPlain_payroll (plain_createRun ..) b
  | postRun ctx clock id overrides => exact addsPlain_payroll (plain_postRun ..) b
  | voidRun ctx clock id =>
    rcases void_cases b ctx clock id with ⟨-, hledger, -⟩ | ⟨q, hq, -⟩
    · exact Ledger.AddsPlain.of_store_eq (congrArg store hledger)
    · cases hq.symm.trans h
  | remit ctx clock req => exact addsPlain_payroll (plain_remit ..) b

theorem ledger_step {q : ReverseRequest} (h : asked b op = some q) :
    (step b op).ledger = (q.program.run LedgerCall.exec b.ledger).2 := by
  cases op with
  | reverse ctx clock entryId body =>
    rcases reverse_cases b ctx clock entryId body with ⟨hnone, -⟩ | ⟨q', hq, -, hrun⟩
    · cases hnone.symm.trans h
    · cases hq.symm.trans h
      exact congrArg Prod.snd hrun
  | undo ctx clock id =>
    rcases undo_cases b ctx clock id with ⟨hnone, -⟩ | ⟨q', hq, -, hout⟩
    · cases hnone.symm.trans h
    · cases hq.symm.trans h
      exact hout.left
  | voidRun ctx clock id =>
    rcases void_cases b ctx clock id with ⟨hnone, -⟩ | ⟨q', hq, -, hout⟩
    · cases hnone.symm.trans h
    · cases hq.symm.trans h
      exact hout.left
  | _ => cases h

/-! The reversals on record. -/

omit [PeriodStore π] in
theorem sound_iff (hmir : b.ledger.Mirrored) :
    Sound b ↔ ∀ tenant id, (b.ledger.reversalsOf tenant id).length ≤ 1 := by
  refine ⟨Sound.once, fun honce => ⟨honce, fun tenant e he hrevd => ?_⟩⟩
  rcases hall : b.ledger.reversalsOf tenant e.id with - | ⟨r, rest⟩
  · exact absurd hall (reversed_iff.mp hrevd)
  · have hlength := honce tenant e.id
    rw [hall, length_cons] at hlength
    obtain rfl : rest = [] := length_eq_zero_iff.mp (by omega)
    exact netsToZero hmir he hall

theorem sound_step (hmir : b.ledger.Mirrored) (hsound : Sound b) (hfst : First b op) :
    (step b op).ledger.Mirrored ∧ Sound (step b op) := by
  have hone := (sound_iff hmir).mp hsound
  rcases hasked : asked b op with - | q
  · have hplain := addsPlain_step hasked
    have hmir' := hplain.mirrored hmir
    refine ⟨hmir', (sound_iff hmir').mpr fun tenant id => ?_⟩
    rw [hplain.reversalsOf_eq]
    exact hone tenant id
  · have hledger := ledger_step hasked
    have hends := reverseEnds q b.ledger
    generalize q.program.run exec b.ledger = r at hends hledger
    cases hends with
    | answered h => exact ⟨hledger ▸ hmir, (sound_iff (hledger ▸ hmir)).mpr (hledger ▸ hone)⟩
    | refused err _ _ =>
      exact ⟨hledger ▸ hmir, (sound_iff (hledger ▸ hmir)).mpr (hledger ▸ hone)⟩
    | @appended original happends =>
      have hmir' : (step b op).ledger.Mirrored :=
        hledger ▸ mirrored_reversedBy happends hmir
      refine ⟨hmir', (sound_iff hmir').mpr fun tenant id => ?_⟩
      rw [hledger, reversalsOf_reversedBy happends]
      split_ifs with hsame
      · obtain ⟨rfl, rfl⟩ := hsame
        have hnone := not_not.mp (reversed_iff.not.mp (hfst q hasked original happends))
        rw [hnone]
        exact le_refl 1
      · exact hone tenant id

theorem not_sound_step (hfst : ¬ First b op) : ¬ Sound (step b op) := by
  intro hsound
  refine hfst fun q hasked original happends hrevd => ?_
  have hledger := ledger_step hasked
  have hends := reverseEnds q b.ledger
  generalize q.program.run exec b.ledger = r at hends hledger
  cases hends with
  | answered h =>
    obtain ⟨-, -, hheld, -⟩ := h
    cases hheld.symm.trans happends.2.1
  | refused err _ hno => exact hno original happends
  | @appended original' happends' =>
    have honce := hsound.once q.tenant q.originalId
    rw [hledger, reversalsOf_reversedBy happends', if_pos ⟨rfl, rfl⟩, length_append] at honce
    have hsome : 0 < (b.ledger.reversalsOf q.tenant q.originalId).length :=
      length_pos_of_ne_nil (reversed_iff.mp hrevd)
    rw [length_singleton] at honce
    omega

/-! What the correcting routes return. -/

theorem prefix_step (b : Backend π) (op : BackendOp) (tenant : TenantId) :
    b.ledger.journal tenant <+: (step b op).ledger.journal tenant := by
  rcases hasked : asked b op with - | q
  · obtain ⟨added, hjnl, -⟩ := addsPlain_step hasked tenant
    exact ⟨added, hjnl.symm⟩
  · rw [ledger_step hasked]
    have hends := reverseEnds q b.ledger
    generalize q.program.run exec b.ledger = r at hends
    cases hends with
    | answered h => exact prefix_rfl
    | refused err _ _ => exact prefix_rfl
    | appended h =>
      show b.ledger.journal tenant <+: (b.ledger.reversedBy _ _).journal tenant
      rw [journal_reversedBy h]
      split_ifs
      · exact prefix_append ..
      · exact prefix_rfl

theorem leaves_iff {q : ReverseRequest} {ε : Type} {r : Except ε α} {ledger : Ledger π}
    (h : CarriesOut b q r ledger) : (∀ a, r = .ok a → ledger.Reversed q.tenant q.originalId) ↔
      ∀ e, b.ledger.AnswersReversal q e → b.ledger.Reversed q.tenant q.originalId := by
  obtain ⟨hledger, hret⟩ := h
  have hends := reverseEnds q b.ledger
  generalize q.program.run exec b.ledger = out at hends hledger hret
  cases hends with
  | @answered e hanswers =>
    obtain ⟨a, ha⟩ := hret.mpr ⟨e, rfl⟩
    rw [hledger]
    exact ⟨fun hall _ _ => hall a ha, fun hall _ _ => hall e hanswers⟩
  | refused err hno _ =>
    refine iff_of_true (fun a ha => ?_) fun e he => absurd he (hno e)
    obtain ⟨e, he⟩ := hret.mp ⟨a, ha⟩
    cases he
  | @appended original happends =>
    refine iff_of_true (fun a _ => ?_) fun e he => ?_
    · rw [hledger, reversed_iff, reversalsOf_reversedBy happends, if_pos ⟨rfl, rfl⟩]
      exact append_ne_nil_of_right_ne_nil _ (cons_ne_nil _ _)
    · obtain ⟨-, -, hheld, -⟩ := he
      cases hheld.symm.trans happends.2.1

theorem corrected_iff (b : Backend π) (op : BackendOp) :
    Corrected b op ↔ AnsweredByReversal b op := by
  refine (and_iff_right (prefix_step b op)).trans ?_
  cases op with
  | reverse ctx clock entryId body =>
    rcases reverse_cases b ctx clock entryId body with ⟨hnone, err, hrun⟩ | ⟨q, hasked, hid, hrun⟩
    · refine iff_of_true (fun e he => ?_) fun q hq => ?_
      · cases (congrArg Prod.fst hrun).symm.trans he
      · cases hnone.symm.trans hq
    · dsimp only
      unfold AnsweredByReversal
      rw [hrun, hasked]
      have hends := reverseEnds q b.ledger
      generalize q.program.run exec b.ledger = r at hends
      constructor
      · rintro hall _ ⟨⟩ e he
        cases hends with
        | @answered e' he' =>
          obtain rfl : e = e' := Option.some.inj (he.choose_spec.2.1.symm.trans he'.choose_spec.2.1)
          rw [hid]
          exact hall e rfl
        | refused err hno _ => exact absurd he (hno e)
        | appended happends => cases he.choose_spec.2.1.symm.trans happends.2.1
      · intro hall e he
        cases hends with
        | answered he' =>
          cases he
          rw [← hid]
          exact hall q rfl e he'
        | refused err _ _ => cases he
        | appended happends =>
          cases he
          rw [← hid]
          exact reversalOf_reversalEntry happends.1
  | undo ctx clock id =>
    rcases undo_cases b ctx clock id with ⟨hnone, -, hemp⟩ | ⟨q, hasked, htxn, hout⟩
    · refine iff_of_true (fun r hr txn htxn hent => ?_) fun q hq => ?_
      · exact absurd (hemp r hr txn htxn) hent
      · cases hnone.symm.trans hq
    · obtain ⟨txn, htxn, hent, htenant, hid⟩ := htxn
      dsimp only
      unfold AnsweredByReversal
      rw [hasked, htxn]
      have hleav := leaves_iff hout
      rw [htenant, hid] at hleav
      constructor
      · rintro hall _ ⟨⟩ e he
        rw [htenant, hid]
        exact hleav.mp (fun r hr => hall r hr txn rfl hent) e he
      · rintro hall r hr _ ⟨⟩ -
        refine hleav.mpr (fun e he => ?_) r hr
        have hrevd := hall q rfl e he
        rwa [htenant, hid] at hrevd
  | voidRun ctx clock id =>
    rcases void_cases b ctx clock id with ⟨hnone, -, err, hrun⟩ | ⟨q, hasked, hget, hout⟩
    · refine iff_of_true (fun r hr => ?_) fun q hq => ?_
      · cases hrun.symm.trans hr
      · cases hnone.symm.trans hq
    · obtain ⟨run, hrun, htenant, hid⟩ := hget
      dsimp only
      unfold AnsweredByReversal
      rw [hasked, hrun]
      have hleav := leaves_iff hout
      rw [htenant, hid] at hleav
      constructor
      · rintro hall _ ⟨⟩ e he
        rw [htenant, hid]
        exact hleav.mp (fun r hr => hall r hr run rfl) e he
      · rintro hall r hr _ ⟨⟩
        refine hleav.mpr (fun e he => ?_) r hr
        have hrevd := hall q rfl e he
        rwa [htenant, hid] at hrevd
  | _ => exact iff_of_true trivial fun q hq => nomatch hq

omit [PeriodStore π] in
theorem sound_opening (periods : π) (docs : InMemoryDocumentStore) (feed : FeedStore)
    (payroll : PayrollStore) :
    (Backend.opening periods docs feed payroll).ledger.Mirrored ∧
      Sound (Backend.opening periods docs feed payroll) := by
  have hemp : ∀ tenant, (Backend.opening periods docs feed payroll).ledger.journal tenant = [] :=
    InMemoryLedgerStore.list_empty
  have hmir : (Backend.opening periods docs feed payroll).ledger.Mirrored := by
    intro tenant r hr
    rw [hemp] at hr
    exact absurd hr not_mem_nil
  refine ⟨hmir, (sound_iff hmir).mpr fun tenant id => ?_⟩
  unfold reversalsOf
  rw [hemp]
  exact Nat.zero_le 1

/-- No entry is reversed twice, a corrected entry comes to nothing and stays there, and what corrects
an entry has it reversed, exactly in the runs whose every reversal is the first of its entry and whose
every answer from the journal is a reversal of the entry asked for. -/
theorem one_reversal_iff (periods : π) (docs : InMemoryDocumentStore) (feed : FeedStore)
    (payroll : PayrollStore) (ops : List BackendOp) :
    (Along step Sound (Backend.opening periods docs feed payroll) ops ∧
        EachStep step Corrected (Backend.opening periods docs feed payroll) ops) ↔
      EachStep step (fun b op => First b op ∧ AnsweredByReversal b op)
        (Backend.opening periods docs feed payroll) ops := by
  obtain ⟨hmir, hsound⟩ := sound_opening periods docs feed payroll
  rw [along_iff_eachStep (J := fun b : Backend π => b.ledger.Mirrored)
    (fun b op hJ hP hOk => sound_step hJ hP hOk) (fun b op _ _ hOk => not_sound_step hOk) hmir
    hsound]
  constructor
  · rintro ⟨hfst, hcor⟩ pre op hpre
    exact ⟨hfst pre op hpre, (corrected_iff _ op).mp (hcor pre op hpre)⟩
  · intro h
    exact ⟨fun pre op hpre => (h pre op hpre).1,
      fun pre op hpre => (corrected_iff _ op).mpr (h pre op hpre).2⟩

/-! A bank line is accepted, its entry is reversed from the journal, and then the line is undone. -/

namespace Sample

def inbox : InboxContext where
  tenant := "acme"
  currency := usd
  dimensions := ⟨Kernel.Sample.chart, [], [], []⟩
  localeLe a b := a ≤ b
  autoPost _ := none

def entries : EntryContext where
  tenant := "acme"
  currency := usd
  dimensions := ⟨Kernel.Sample.chart, [], [], []⟩
  book := ⟨false, false⟩
  parse _ := none

def clock : Clock := ⟨"2026-03-09T10:00:00.000Z", "2026-03-09T10:00:00.001Z"⟩

def start : Backend (InMemoryPeriodStore TenantId PeriodKey) :=
  .opening .empty .empty .empty .empty

def corrections : List BackendOp := [
  .deliver inbox "1000" [⟨"dep-1", "2026-03-05", .text "100", none, none⟩] "" [],
  .accept inbox clock "dep-1" "4000" none,
  BackendOp.reverse entries clock "acme:1" "",
  .undo inbox clock "dep-1"]

end Sample

theorem undo_after_reverse_reverses_twice : let b := Sample.corrections.foldl step Sample.start
    (b.ledger.reversalsOf "acme" "acme:1").length = 2 ∧ ¬ Sound b := by
  have htwo : ((Sample.corrections.foldl step Sample.start).ledger.reversalsOf "acme"
      "acme:1").length = 2 := by decide +kernel
  refine ⟨htwo, fun h => ?_⟩
  have honce := h.once "acme" "acme:1"
  rw [htwo] at honce
  omega

end Rgnr8.Service.Corrections
