import Rgnr8.Kernel.PostEnds
import Rgnr8.Subledger.Receivable

/-! What the log of the receivables comes to: every event in it can be posted, under a key of its own,
and together they make up what is open on the invoices. -/

namespace Rgnr8.Subledger.Receivable
open Lib Lib.Js Kernel List Option

/-! Posting commands one after another. -/

section postAll
variable {π : Type} [PeriodStore π] {coa : ChartOfAccounts} {opts : PostOptions} {tenant : TenantId}

/-- Commands whose keys are free and distinct, whose periods are open and whose lines can be posted
are all accepted, and each account moves by what their lines put on it. -/
theorem run_postAll {commands : List PostCommand} {s : Ledger π}
    (htenant : ∀ c ∈ commands, c.tenantId = tenant)
    (hdis : (commands.map PostCommand.idempotencyKey).Nodup)
    (hfree : ∀ c ∈ commands, s.store.getByIdempotencyKey tenant c.idempotencyKey = none)
    (hopen : ∀ c ∈ commands, PeriodStore.status s.periods tenant c.periodKey ≠ .locked)
    (hlines : ∀ c ∈ commands, validateAndBuildLines c.lines c.currency coa = .ok c.lines) :
    ∃ entries t, (postAll coa opts commands).run LedgerCall.exec s = (.ok entries, t) ∧
      ∀ id, balanceOf id (t.journal tenant) = balanceOf id (s.journal tenant) +
        (commands.map fun c => netOn id c.lines).sum := by
  induction commands generalizing s with
  | nil => exact ⟨[], s, rfl, fun id => (Int.add_zero _).symm⟩
  | cons c commands ih =>
    rw [forall_mem_cons] at htenant hfree hopen hlines
    rw [map_cons, nodup_cons] at hdis
    obtain ⟨hc, htenant⟩ := htenant
    have happends : s.Appends coa c := by
      rw [Ledger.Appends, hc]
      exact ⟨hfree.1, hopen.1, hlines.1⟩
    have hpost : (PostingEngine.post coa c opts).run LedgerCall.exec s =
        (.ok (s.entryOf c opts), s.posted c opts) := by
      have hends := PostingEngine.postEnds coa c opts s
      generalize (PostingEngine.post coa c opts).run LedgerCall.exec s = r at hends ⊢
      cases hends with
      | answered h => exact absurd h (Ledger.not_answers_of_free happends.free)
      | refused err _ hnot => exact absurd happends hnot
      | appended h => rfl
    have hfree' : ∀ c' ∈ commands,
        (s.posted c opts).store.getByIdempotencyKey tenant c'.idempotencyKey = none := by
      intro c' hc'
      have hkey : c'.idempotencyKey ≠ c.idempotencyKey := fun hkey =>
        hdis.1 (hkey ▸ mem_map_of_mem hc')
      rw [Ledger.getByIdempotencyKey_posted opts happends, if_neg fun h => hkey h.2]
      exact hfree.2 c' hc'
    obtain ⟨entries, t, hrun, hbalance⟩ := ih htenant hdis.2 hfree' hopen.2 hlines.2
    refine ⟨s.entryOf c opts :: entries, t, ?_, fun id => ?_⟩
    · unfold postAll
      rw [Prog.run_bind_ok hpost, Prog.run_bind_ok hrun]
      rfl
    · have hposted := Ledger.balanceOf_posted opts happends id
      rw [hc] at hposted
      rw [hbalance, hposted, map_cons, sum_cons, Int.add_assoc]

end postAll

/-! The invoices and their log. -/

def AREventKind.suffix (n : Nat) : AREventKind → String
  | invoice => "issue"
  | payment => "pay-" ++ toString n
  | writeOff => "writeoff"

theorem free_suffix (kind : AREventKind) (n : Nat) : Free '#' (kind.suffix n) := by
  cases kind with
  | invoice => exact (by decide : Free '#' "issue")
  | writeOff => exact (by decide : Free '#' "writeoff")
  | payment =>
    unfold AREventKind.suffix
    rw [free_append]
    exact ⟨by decide, fun hmem => absurd (digits_toString n '#' hmem) (by decide)⟩

theorem suffix_injective {kind kind' : AREventKind} {n n' : Nat}
    (h : kind.suffix n = kind'.suffix n') : kind = kind' ∧ (kind = .payment → n = n') := by
  have hissue : ∀ m : Nat, "pay-" ++ toString m ≠ "issue" := by
    intro m heq
    have hhead := congrArg (fun t => t.toList.head?) heq
    rw [String.toList_append] at hhead
    simp at hhead
  have hwrite : ∀ m : Nat, "pay-" ++ toString m ≠ "writeoff" := by
    intro m heq
    have hhead := congrArg (fun t => t.toList.head?) heq
    rw [String.toList_append] at hhead
    simp at hhead
  cases kind <;> cases kind'
  case payment.payment =>
    refine ⟨rfl, fun _ => Nat.repr_injective ?_⟩
    exact (String.append_right_inj "pay-").mp h
  case payment.invoice => exact absurd h (hissue n)
  case payment.writeOff => exact absurd h (hwrite n)
  case invoice.payment => exact absurd h.symm (hissue n')
  case writeOff.payment => exact absurd h.symm (hwrite n')
  case invoice.invoice => exact ⟨rfl, nofun⟩
  case writeOff.writeOff => exact ⟨rfl, nofun⟩
  case invoice.writeOff => exact absurd h (by decide : "issue" ≠ "writeoff")
  case writeOff.invoice => exact absurd h (by decide : "writeoff" ≠ "issue")

theorem eventId_injective {id id' : String} {kind kind' : AREventKind} {n n' : Nat}
    (h : id ++ "#" ++ kind.suffix n = id' ++ "#" ++ kind'.suffix n') :
    id = id' ∧ kind = kind' ∧ (kind = .payment → n = n') := by
  obtain ⟨hid, hsuf⟩ := append_inj_of_free_last rfl (free_suffix kind n) (free_suffix kind' n') h
  exact ⟨hid, suffix_injective hsuf⟩

def AREvent.signed (e : AREvent) : Int :=
  match e.kind with
  | .invoice => e.amount.minorUnits
  | .payment | .writeOff => -e.amount.minorUnits

namespace ARSubledger

structure Recorded (s : ARSubledger) (e : AREvent) : Prop where
  positive : 0 < e.amount.minorUnits
  currency : e.amount.currency.code = s.currency.code
  id : ∃ n ≤ s.evSeq, e.id = e.invoiceId ++ "#" ++ e.kind.suffix n
  invoice : ∃ inv, s.invoices.get? e.invoiceId = some inv ∧
    (e.kind = .writeOff → inv.status = .writtenOff)

structure Held (s : ARSubledger) (id : String) (inv : ARInvoice) : Prop where
  named : inv.id = id
  currency : inv.openAmount.currency.code = s.currency.code
  nonneg : 0 ≤ inv.openAmount.minorUnits
  le_original : inv.openAmount.minorUnits ≤ inv.originalAmount.minorUnits
  closed : inv.openAmount.minorUnits = 0 → inv.status = .paid ∨ inv.status = .writtenOff
  written : inv.status = .writtenOff → inv.openAmount.minorUnits = 0 ∧
    ∃ e ∈ s.log, e.kind = .writeOff ∧ e.invoiceId = id

structure Sound (s : ARSubledger) : Prop where
  held : ∀ id inv, s.invoices.get? id = some inv → s.Held id inv
  recorded : ∀ e ∈ s.log, s.Recorded e
  distinct : (s.log.map AREvent.id).Nodup
  control : (s.log.map AREvent.signed).sum = s.invoices.total fun _ inv => inv.openAmount.minorUnits

theorem sound_empty (currency : Currency) : (empty currency).Sound :=
  ⟨fun _ _ h => absurd h nofun, fun _ h => absurd h not_mem_nil, nodup_nil, rfl⟩

variable {s : ARSubledger}

theorem Sound.fresh (hs : s.Sound) {id : String} {kind : AREventKind} {n : Nat}
    (hnew : ∀ e ∈ s.log, e.kind = kind → e.invoiceId = id → kind = .payment)
    (hnumb : kind = .payment → s.evSeq < n) :
    id ++ "#" ++ kind.suffix n ∉ s.log.map AREvent.id := by
  intro hmem
  obtain ⟨e, he, hid⟩ := mem_map.mp hmem
  obtain ⟨m, hm, heid⟩ := (hs.recorded e he).id
  obtain ⟨hinvoice, hkind, hsame⟩ := eventId_injective (heid.symm.trans hid)
  have hpay := hnew e he hkind hinvoice
  have hle := hsame (hkind.trans hpay)
  have hlt := hnumb hpay
  omega

def put (s : ARSubledger) (id : String) (inv : ARInvoice) (events : List AREvent) (evSeq : Nat) :
    ARSubledger :=
  { s with invoices := s.invoices.set id inv, log := s.log ++ events, evSeq := evSeq }

theorem total_put (id : String) (inv : ARInvoice) (events : List AREvent) (n : Nat) :
    (s.put id inv events n).invoices.total (fun _ inv => inv.openAmount.minorUnits) =
      (s.invoices.total fun _ inv => inv.openAmount.minorUnits) -
        ((s.invoices.get? id).map fun inv => inv.openAmount.minorUnits).getD 0 +
          inv.openAmount.minorUnits := OrderedMap.total_set ..

/-- An invoice that stays as it should be, with the events that account for its change, keeps the
subledger sound. -/
theorem Sound.put (hs : s.Sound) {id : String} {inv : ARInvoice} {events : List AREvent} {n : Nat}
    (hheld : (s.put id inv events n).Held id inv)
    (hwrit : ∀ e ∈ s.log, e.kind = .writeOff → e.invoiceId = id → inv.status = .writtenOff)
    (hn : s.evSeq ≤ n) (heven : ∀ e ∈ events, (s.put id inv events n).Recorded e)
    (hdis : ((s.log ++ events).map AREvent.id).Nodup)
    (hctl : (events.map AREvent.signed).sum = inv.openAmount.minorUnits -
      ((s.invoices.get? id).map fun inv => inv.openAmount.minorUnits).getD 0) :
    (s.put id inv events n).Sound := by
  have hget : ∀ j, (s.put id inv events n).invoices.get? j =
      if j = id then some inv else s.invoices.get? j := fun j => OrderedMap.get?_set ..
  refine ⟨fun j other hj => ?_, fun e he => ?_, hdis, ?_⟩
  · rw [hget] at hj
    split_ifs at hj with hid
    · obtain rfl := some.inj hj
      exact hid ▸ hheld
    · have hkept := hs.held j other hj
      refine ⟨hkept.named, hkept.currency, hkept.nonneg, hkept.le_original, hkept.closed,
        fun hstatus => ?_⟩
      obtain ⟨hzero, e, he, hkind⟩ := hkept.written hstatus
      exact ⟨hzero, e, mem_append_left _ he, hkind⟩
  · rcases mem_append.mp he with he | he
    · have hkept := hs.recorded e he
      obtain ⟨m, hm, heid⟩ := hkept.id
      obtain ⟨other, hother, hstatus⟩ := hkept.invoice
      refine ⟨hkept.positive, hkept.currency, ⟨m, hm.trans hn, heid⟩, ?_⟩
      rw [hget]
      by_cases hid : e.invoiceId = id
      · exact ⟨inv, if_pos hid, fun hkind => hwrit e he hkind hid⟩
      · exact ⟨other, (if_neg hid).trans hother, hstatus⟩
    · exact heven e he
  · rw [total_put]
    show ((s.log ++ events).map AREvent.signed).sum = _
    rw [map_append, sum_append, hs.control, hctl]
    omega

theorem Sound.nodup_concat (hs : s.Sound) {e : AREvent} (he : e.id ∉ s.log.map AREvent.id) :
    ((s.log ++ [e]).map AREvent.id).Nodup := by
  rw [map_append, map_singleton]
  exact nodup_append.mpr ⟨hs.distinct, nodup_singleton _, fun a ha b hb heq =>
    he ((mem_singleton.mp hb) ▸ heq ▸ ha)⟩

def Allowed (s : ARSubledger) : Call → Prop
  | .addInvoice input => 0 < input.amount.minorUnits ∧ input.amount.currency.code = s.currency.code
  | .applyPayment app => (0 < app.amount.minorUnits ∧ app.amount.currency.code = s.currency.code) ∧
    ∀ inv, s.invoices.get? app.documentId = some inv → inv.status ≠ .paid
  | .writeOff id _ => ∀ inv, s.invoices.get? id = some inv → inv.status ≠ .paid

theorem sound_addInvoice (hs : s.Sound) {input : ARInvoiceInput}
    (hallow : s.Allowed (.addInvoice input)) : (s.addInvoice input).2.Sound := by
  obtain ⟨hposv, hccy⟩ := hallow
  unfold addInvoice
  rcases hget : s.invoices.get? input.id with - | inv
  · have hnone : ∀ e ∈ s.log, e.invoiceId ≠ input.id := by
      intro e he hid
      obtain ⟨inv, hinv, -⟩ := (hs.recorded e he).invoice
      rw [hid, hget] at hinv
      cases hinv
    have hnew : s!"{input.id}#issue" = input.id ++ "#" ++ AREventKind.invoice.suffix 0 := by
      rw [String.append_assoc]
      rfl
    have hstatus : (if input.disputed then DocStatus.disputed else .issued) ≠ .writtenOff := by
      split_ifs <;> decide
    refine hs.put (n := s.evSeq) ⟨rfl, hccy, Int.le_of_lt hposv, le_rfl, ?_, ?_⟩ ?_ le_rfl
      ?_ ?_ ?_
    · exact fun hzero => absurd hzero (Int.ne_of_gt hposv)
    · exact fun hwrit => absurd hwrit hstatus
    · exact fun e he _ hid => absurd hid (hnone e he)
    · intro e he
      obtain rfl := mem_singleton.mp he
      exact ⟨hposv, hccy, ⟨0, Nat.zero_le _, hnew⟩, _, OrderedMap.get?_set_self _ _ _,
        nofun⟩
    · refine hs.nodup_concat ?_
      dsimp only
      rw [hnew]
      exact hs.fresh (fun e he _ hid => absurd hid (hnone e he)) nofun
    · rw [hget, map_none, getD_none, map_singleton, sum_singleton, Int.sub_zero]
      rfl
  · exact hs

theorem sound_applyPayment (hs : s.Sound) {app : Application}
    (hallow : s.Allowed (.applyPayment app)) : (s.applyPayment app).2.Sound := by
  obtain ⟨⟨hposv, hccy⟩, hnotp⟩ := hallow
  unfold applyPayment
  rcases hget : s.invoices.get? app.documentId with - | inv
  · exact hs
  · have hheld := hs.held _ inv hget
    dsimp only
    by_cases hwrit : inv.status = .writtenOff
    · rw [if_pos hwrit]
      exact hs
    · have hopen : 0 < inv.openAmount.minorUnits := by
        refine lt_of_le_of_ne hheld.nonneg fun hzero => ?_
        exact (hheld.closed hzero.symm).elim (hnotp inv hget) hwrit
      rw [if_neg hwrit, Money.minus_of_code_eq (hheld.currency.trans hccy.symm)]
      dsimp only
      -- an overpayment leaves nothing open
      generalize hleft : (if inv.openAmount.minorUnits - app.amount.minorUnits < 0 then
        Money.zero s.currency else ⟨inv.openAmount.minorUnits - app.amount.minorUnits,
          inv.openAmount.currency⟩) = left
      have hcode : left.currency.code = s.currency.code := by
        rw [← hleft]
        split_ifs
        · rfl
        · exact hheld.currency
      have hrange : 0 ≤ left.minorUnits ∧ left.minorUnits < inv.openAmount.minorUnits := by
        rw [← hleft]
        split_ifs with hover
        · exact ⟨le_rfl, hopen⟩
        · exact ⟨not_lt.mp hover, by dsimp only; omega⟩
      rw [Money.minus_of_code_eq (hheld.currency.trans hcode.symm)]
      have hname := hheld.named
      have hsett : (settled inv app.date left).id = inv.id ∧
          (settled inv app.date left).openAmount = left ∧
          (settled inv app.date left).originalAmount = inv.originalAmount ∧
          (settled inv app.date left).status ≠ .writtenOff ∧
          (left.minorUnits = 0 → (settled inv app.date left).status = .paid) := by
        unfold settled
        split_ifs with hzero hdisp
        · exact ⟨rfl, rfl, rfl, nofun, fun _ => rfl⟩
        · exact ⟨rfl, rfl, rfl, nofun, fun h => absurd h hzero⟩
        · exact ⟨rfl, rfl, rfl, nofun, fun h => absurd h hzero⟩
      obtain ⟨hid, hamt, horiginal, hstatus, hpaid⟩ := hsett
      have hnew : s!"{inv.id}#pay-{s.evSeq + 1}" =
          inv.id ++ "#" ++ AREventKind.payment.suffix (s.evSeq + 1) := by
        show inv.id ++ ("#" ++ "pay-") ++ toString (s.evSeq + 1) =
          inv.id ++ "#" ++ ("pay-" ++ toString (s.evSeq + 1))
        simp only [String.append_assoc]
      refine hs.put ⟨hid, ?_, ?_, ?_, ?_, ?_⟩ ?_
        (Nat.le_succ _) ?_ ?_ ?_
      · rw [hamt]
        exact hcode
      · rw [hamt]
        exact hrange.1
      · rw [hamt, horiginal]
        exact hrange.2.le.trans hheld.le_original
      · rw [hamt]
        exact fun hzero => .inl (hpaid hzero)
      · exact fun h => absurd h hstatus
      · intro e he hkind hinvoice
        obtain ⟨other, hother, hoff⟩ := (hs.recorded e he).invoice
        rw [hinvoice, hname, hget] at hother
        obtain rfl := some.inj hother
        exact absurd (hoff hkind) hwrit
      · intro e he
        obtain rfl := mem_singleton.mp he
        exact ⟨by dsimp only; omega, hheld.currency, ⟨s.evSeq + 1, le_rfl, hnew⟩,
          _, OrderedMap.get?_set_self _ _ _, nofun⟩
      · refine hs.nodup_concat ?_
        dsimp only
        rw [hnew]
        exact hs.fresh (fun e he hkind _ => rfl) fun _ => Nat.lt_succ_self _
      · rw [hname, hget, hamt, map_some, getD_some, map_singleton, sum_singleton]
        unfold AREvent.signed
        dsimp only
        omega

theorem sound_writeOff (hs : s.Sound) {id date : String}
    (hallow : s.Allowed (.writeOff id date)) : (s.writeOff id date).2.Sound := by
  unfold writeOff
  rcases hget : s.invoices.get? id with - | inv
  · exact hs
  · have hheld := hs.held _ inv hget
    have hname := hheld.named
    have hnew : s!"{inv.id}#writeoff" = inv.id ++ "#" ++ AREventKind.writeOff.suffix 0 := by
      rw [String.append_assoc]
      rfl
    dsimp only
    by_cases hopen : 0 < inv.openAmount.minorUnits
    · rw [if_pos hopen]
      have hbef : inv.status ≠ .writtenOff := fun h => Int.ne_of_gt hopen (hheld.written h).1
      refine hs.put (n := s.evSeq) ⟨rfl, rfl, le_rfl, hheld.nonneg.trans hheld.le_original,
        fun _ => .inr rfl, fun _ => ⟨rfl, _, mem_concat_self, rfl, rfl⟩⟩ (fun _ _ _ _ => rfl)
        le_rfl ?_ ?_ ?_
      · intro e he
        obtain rfl := mem_singleton.mp he
        exact ⟨hopen, hheld.currency, ⟨0, Nat.zero_le _, hnew⟩, _,
          OrderedMap.get?_set_self _ _ _, fun _ => rfl⟩
      · refine hs.nodup_concat ?_
        dsimp only
        rw [hnew]
        refine hs.fresh (fun e he hkind hinvoice => ?_) nofun
        obtain ⟨other, hother, hoff⟩ := (hs.recorded e he).invoice
        rw [hinvoice, hname, hget] at hother
        obtain rfl := some.inj hother
        exact absurd (hoff hkind) hbef
      · rw [hname, hget, map_some, getD_some, map_singleton, sum_singleton]
        exact (Int.zero_sub _).symm
    · rw [if_neg hopen]
      -- nothing is open and the invoice is not paid, so it was written off before
      have hzero : inv.openAmount.minorUnits = 0 := le_antisymm (not_lt.mp hopen) hheld.nonneg
      have hbef : inv.status = .writtenOff :=
        (hheld.closed hzero).resolve_left (hallow inv hget)
      obtain ⟨-, e, he, hkind, hinvoice⟩ := hheld.written hbef
      let written := { inv with
        openAmount := Money.zero s.currency, status := .writtenOff, settledDate := some date }
      have hput : (s.put inv.id written [] s.evSeq).Sound := hs.put
        ⟨rfl, rfl, le_rfl, hheld.nonneg.trans hheld.le_original, fun _ => .inr rfl,
          fun _ => ⟨rfl, e, mem_append_left _ he, hkind, hinvoice.trans hname.symm⟩⟩
        (fun _ _ _ _ => rfl) le_rfl (fun e he => absurd he not_mem_nil)
        (by rw [append_nil]; exact hs.distinct)
        (by rw [hname, hget, map_some, getD_some, hzero]; rfl)
      unfold ARSubledger.put at hput
      rwa [append_nil] at hput

theorem sound_step (hs : s.Sound) {c : Call} (hallow : s.Allowed c) : (s.step c).Sound := by
  cases c with
  | addInvoice input => exact sound_addInvoice hs hallow
  | applyPayment app => exact sound_applyPayment hs hallow
  | writeOff id date => exact sound_writeOff hs hallow

theorem currency_step (s : ARSubledger) (c : Call) : (s.step c).currency = s.currency := by
  cases c with
  | addInvoice input =>
    show (s.addInvoice input).2.currency = s.currency
    unfold addInvoice
    split <;> rfl
  | applyPayment app =>
    show (s.applyPayment app).2.currency = s.currency
    unfold applyPayment
    split
    · rfl
    · split_ifs
      · rfl
      · split
        · rfl
        · dsimp only
          split <;> rfl
  | writeOff id date =>
    show (s.writeOff id date).2.currency = s.currency
    unfold writeOff
    split <;> rfl

end ARSubledger
end Rgnr8.Subledger.Receivable
