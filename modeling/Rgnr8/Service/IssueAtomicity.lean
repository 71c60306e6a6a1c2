import Rgnr8.Service.InventorySpec

/-! Whether an issue that throws leaves everything as it was. It posts on the strength of a preview,
and only the draw that follows finds out whether the lots hold the quantity. -/

namespace Rgnr8.Service.Inventory
open Lib Lib.Js Kernel
variable {π : Type} [PeriodStore π]

/-- A call that throws has changed nothing. -/
def AllOrNothing {ε α σ : Type} (s : σ) (r : Except ε α × σ) : Prop :=
  ∀ e, r.1 = .error e → r.2 = s

variable {α ε σ : Type}

theorem allOrNothing_of_ok {s s' : σ} {a : α} : AllOrNothing s ((.ok a, s') : Except ε α × σ) := by
  intro e h
  cases h

theorem allOrNothing_of_eq {s : σ} {r : Except ε α} : AllOrNothing s (r, s) :=
  fun _ _ => rfl

theorem allOrNothing_error_iff {s s' : σ} {e : ε} :
    AllOrNothing s ((.error e, s') : Except ε α × σ) ↔ s' = s :=
  ⟨fun h => h e rfl, fun h _ _ => h⟩

theorem allOrNothing_discard {C : Type} {R : C → Type} {exec : (c : C) → σ → R c × σ}
    {p : Prog C R ε α} {s : σ} :
    AllOrNothing s ((p >>= fun _ => .ret ()).run exec s) ↔ AllOrNothing s (p.run exec s) := by
  rw [Prog.bind_eq, Prog.run_bind]
  rcases p.run exec s with ⟨_ | _, s'⟩
  · exact allOrNothing_error_iff.trans allOrNothing_error_iff.symm
  · exact iff_of_true allOrNothing_of_ok allOrNothing_of_ok

def Booking.Strands (ctx : InventoryContext) (s : Stores π InventoryStore) (b : Booking) :
    ShelfMove → Prop
  | .receipt _ => False
  | .issue input => TooSmall ctx s.own b.item.sku input.quantityMilli input.lotSeq ∧
      (s.ledger.Appends ctx.chart b.command ∨
        (∃ e, s.ledger.Answers b.command e) ∧ drawnOn ctx s.own b.item.sku input.lotSeq ≠ [])

/-- The issue posts although the lots of its draw do not hold its quantity. -/
def Strands (ctx : InventoryContext) (input : IssueInput) (s : Stores π InventoryStore) : Prop :=
  ∃ b, planIssue ctx input s.own = .ok (.book b) ∧ b.Strands ctx s b.move

variable {ctx : InventoryContext} {s : Stores π InventoryStore} {b : Booking}

theorem posted_ne (h : s.ledger.Appends ctx.chart b.command) (own : InventoryStore) :
    ({ s.posted ctx.toFlowContext b.command with own := own } : Stores π InventoryStore) ≠ s := by
  intro heq
  have hjnl := Ledger.journal_posted ⟨ctx.clock.postedAt⟩ h b.command.tenantId
  rw [if_pos rfl] at hjnl
  have hledger : s.ledger.posted b.command ⟨ctx.clock.postedAt⟩ = s.ledger :=
    congrArg Stores.ledger heq
  rw [hledger] at hjnl
  have hlength := congrArg List.length hjnl
  simp at hlength

theorem shelve_issue_iff {s' : Stores π InventoryStore} (hown : s'.own = s.own)
    (hb : Booked ctx s.own b) {input : ShelfIssue} (hmove : b.move = .issue input)
    (hfree : s.own.getMovement ctx.tenant b.move.id = none) (e : EntryId) :
    AllOrNothing s ((shelve ctx (b.move.stamped e)).run exec s') ↔
      (TooSmall ctx s.own b.item.sku input.quantityMilli input.lotSeq →
        { s' with own := s.own.drawn ctx b.item.sku input.quantityMilli input.lotSeq } = s) := by
  rw [← hown] at hb hfree
  rw [run_shelve_issue hb hmove hfree, hown]
  split_ifs with hsmall
  · rw [allOrNothing_error_iff]
    exact ⟨fun h _ => h, fun h => h hsmall⟩
  · exact iff_of_true allOrNothing_of_ok fun h => absurd h hsmall

omit [PeriodStore π] in
theorem drawn_eq_iff (hb : Booked ctx s.own b) {input : ShelfIssue} (hmove : b.move = .issue input)
    (hsmall : TooSmall ctx s.own b.item.sku input.quantityMilli input.lotSeq) :
    s.own.drawn ctx b.item.sku input.quantityMilli input.lotSeq = s.own ↔
      drawnOn ctx s.own b.item.sku input.lotSeq = [] := by
  unfold InventoryStore.drawn
  rw [if_pos hsmall.1]
  constructor
  · intro heq
    by_contra hne
    exact drawFrom_ne (onShelf_orderLotsFor ..) hne (hb.issue input hmove).positive heq
  · intro hnil
    rw [hnil]
    rfl

theorem bookStock_allOrNothing_iff (hb : Booked ctx s.own b)
    (hfree : s.own.getMovement ctx.tenant b.move.id = none) :
    AllOrNothing s ((bookStock ctx b).run exec s) ↔ ¬ b.Strands ctx s b.move := by
  have hends := flowPosts_bookStock ctx s b
  -- only an issue can strand: a receipt is shelved whole
  cases hmove : b.move with
  | receipt input =>
    refine iff_of_true ?_ not_false
    generalize (bookStock ctx b).run exec s = r at hends
    cases hends with
    | refused err _ _ => exact allOrNothing_of_eq
    | answered h =>
      rw [run_shelve_receipt hb hmove hfree]
      exact allOrNothing_of_ok
    | appended h =>
      have hrun := run_shelve_receipt (s := s.posted ctx.toFlowContext b.command) hb hmove hfree
      rw [hrun]
      exact allOrNothing_of_ok
  | issue input =>
    unfold Booking.Strands
    generalize (bookStock ctx b).run exec s = r at hends
    cases hends with
    | refused err hanswers happends =>
      refine iff_of_true allOrNothing_of_eq ?_
      rintro ⟨-, happends' | ⟨⟨e, hanswers'⟩, -⟩⟩
      · exact happends happends'
      · exact hanswers e hanswers'
    | @answered e h =>
      have hnot : ¬ s.ledger.Appends ctx.chart b.command := fun ha =>
        Ledger.not_answers_of_free ha.free h
      rw [shelve_issue_iff rfl hb hmove hfree]
      constructor
      · rintro hkept ⟨hsmall, happends | ⟨-, hne⟩⟩
        · exact hnot happends
        · exact hne ((drawn_eq_iff hb hmove hsmall).mp (congrArg Stores.own (hkept hsmall)))
      · intro hstr hsmall
        have hnil : drawnOn ctx s.own b.item.sku input.lotSeq = [] := by
          by_contra hne
          exact hstr ⟨hsmall, .inr ⟨⟨e, h⟩, hne⟩⟩
        rw [(drawn_eq_iff hb hmove hsmall).mpr hnil]
    | appended h =>
      have hown : (s.posted ctx.toFlowContext b.command).own = s.own := rfl
      rw [shelve_issue_iff hown hb hmove hfree]
      constructor
      · rintro hkept ⟨hsmall, -⟩
        exact posted_ne h _ (hkept hsmall)
      · intro hstr hsmall
        exact absurd ⟨hsmall, .inl h⟩ hstr

/-- An issue that throws has changed nothing, except exactly where it posts and then finds its lots
too small. -/
theorem issueStock_allOrNothing_iff (ctx : InventoryContext) (input : IssueInput)
    (s : Stores π InventoryStore) :
    AllOrNothing s ((issueStock ctx input).run exec s) ↔ ¬ Strands ctx input s := by
  have hdec := decides_issueStock ctx input s
  have hprog : InventoryRequest.program ctx (.issue input) =
    issueStock ctx input >>= fun _ => .ret () := rfl
  rw [← allOrNothing_discard, ← hprog]
  unfold Strands
  cases hplan : planIssue ctx input s.own with
  | error e =>
    rw [hdec.threw hplan]
    refine iff_of_true allOrNothing_of_eq ?_
    rintro ⟨b, hb, -⟩
    cases hb
  | ok plan =>
    rw [hdec.ran hplan]
    cases plan with
    | keep =>
      refine iff_of_true allOrNothing_of_ok ?_
      rintro ⟨b, hb, -⟩
      cases hb
    | correct item =>
      refine iff_of_true allOrNothing_of_ok ?_
      rintro ⟨b, hb, -⟩
      cases hb
    | book b =>
      obtain ⟨hbkd, hfree⟩ := booked_planIssue hplan
      unfold carryOut
      rw [bookStock_allOrNothing_iff hbkd hfree]
      constructor
      · rintro h ⟨b', hb', hstr⟩
        have hb' := Plan.book.inj (Except.ok.inj hb')
        subst hb'
        exact h hstr
      · intro h hstr
        exact h ⟨b, rfl, hstr⟩

theorem issue_beyond_lot_strands : ¬ AllOrNothing
    (Sample.after .specific [Sample.receive "r1" "5000" "100", Sample.receive "r2" "5000" "100"])
    ((issueStock (Sample.context .specific)
      (Sample.issueInput "i1" "8000" (some (.text "1")))).run exec
        (Sample.after .specific
          [Sample.receive "r1" "5000" "100", Sample.receive "r2" "5000" "100"])) := by
  intro h
  have hkept := h (lotTooSmall "BOLT" 8000 (some 1)) (by decide +kernel)
  have hheld := congrArg (fun s => s.own.heldIn LotRecord.remainingQtyMilli "acme" "BOLT") hkept
  exact absurd hheld (by decide +kernel)

end Rgnr8.Service.Inventory
