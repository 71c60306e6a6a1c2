import Rgnr8.Lib.Program

/-! What holds of every call a program makes, in the state it makes it in, and so of every state a
program may be stopped in before it is done. -/

namespace Rgnr8.Lib.Prog
variable {C C' : Type} {R : C → Type} {R' : C' → Type} {ε ε' α β σ σ' : Type}
variable {exec : (c : C) → σ → R c × σ} {exec' : (c : C') → σ' → R' c × σ'} {P : C → σ → Prop}

/-- Run in `s`, the program makes only calls that `P` allows in the state it has reached. -/
def EachCall (exec : (c : C) → σ → R c × σ) (P : C → σ → Prop) : Prog C R ε α → σ → Prop
  | ret _, _ => True
  | throw _, _ => True
  | call c k, s => P c s ∧ EachCall exec P (k (exec c s).1) (exec c s).2

instance decidableEachCall [∀ c s, Decidable (P c s)] :
    (p : Prog C R ε α) → (s : σ) → Decidable (p.EachCall exec P s)
  | ret _, _ => isTrue trivial
  | throw _, _ => isTrue trivial
  | call c k, s =>
    have := decidableEachCall (k (exec c s).1) (exec c s).2
    inferInstanceAs (Decidable (P c s ∧ _))

theorem eachCall_ret (a : α) (s : σ) : (ret a : Prog C R ε α).EachCall exec P s := trivial

variable {f : (c : C) → Prog C' R' ε' (R c)} {Q : C → Prop} {p : Prog C R ε α} {g : ε → ε'} {s : σ}

theorem eachCall_call {c : C} {k : R c → Prog C R ε α} : (call c k).EachCall exec P s ↔
    P c s ∧ (k (exec c s).1).EachCall exec P (exec c s).2 := Iff.rfl

theorem EachCall.mono {P' : C → σ → Prop} (h : p.EachCall exec P s) (himp : ∀ c t, P c t → P' c t) :
    p.EachCall exec P' s := by
  induction p generalizing s with
  | ret a => trivial
  | throw e => trivial
  | call c k ih => exact ⟨himp c s h.1, ih _ h.2⟩

theorem eachCall_perform {c : C} :
    (perform c : Prog C R ε (R c)).EachCall exec P s ↔ P c s := and_iff_left trivial

theorem eachCall_bind {f : α → Prog C R ε β} : (p >>= f).EachCall exec P s ↔ p.EachCall exec P s ∧
      ∀ a s', p.run exec s = (.ok a, s') → (f a).EachCall exec P s' := by
  rw [bind_eq]
  induction p generalizing s with
  | ret a =>
    constructor
    · rintro h
      refine ⟨trivial, fun a' s' hrun => ?_⟩
      rw [run_ret, Prod.mk.injEq, Except.ok.injEq] at hrun
      obtain ⟨rfl, rfl⟩ := hrun
      exact h
    · exact fun h => h.2 a s rfl
  | throw e => exact ⟨fun _ => ⟨trivial, fun a s' hrun => by cases hrun⟩, fun _ => trivial⟩
  | call c k ih =>
    rw [Prog.bind, eachCall_call, eachCall_call, ih, and_assoc]
    rfl

theorem eachCall_bind_of_ok {f : α → Prog C R ε β} {s' : σ} {a : α}
    (h : p.run exec s = (.ok a, s')) :
    (p >>= f).EachCall exec P s ↔ p.EachCall exec P s ∧ (f a).EachCall exec P s' := by
  rw [eachCall_bind]
  refine and_congr_right fun _ => ⟨fun hall => hall a s' h, fun hf a' t hrun => ?_⟩
  rw [h, Prod.mk.injEq, Except.ok.injEq] at hrun
  obtain ⟨rfl, rfl⟩ := hrun
  exact hf

theorem eachCall_bind_ret {g : α → β} :
    (p >>= fun a => ret (g a)).EachCall exec P s ↔ p.EachCall exec P s :=
  eachCall_bind.trans (and_iff_left fun a s' _ => eachCall_ret (g a) s')

theorem eachCall_interpret {Q : C' → σ' → Prop} (h : ∀ c s, (f c).EachCall exec' Q s)
    (p : Prog C R ε α) (s : σ') : (p.interpret f g).EachCall exec' Q s := by
  induction p generalizing s with
  | ret a => trivial
  | throw e => trivial
  | call c k ih =>
    rw [interpret, ← bind_eq, eachCall_bind]
    exact ⟨h c s, fun a s' _ => ih a s'⟩

variable (exec) in
/-- Interpreted call by call over a larger state, a program makes the calls it makes on the
component. -/
theorem eachCall_interpret_iff {Q : C' → σ' → Prop} (get : σ' → σ) (put : σ → σ' → σ')
    (hget : ∀ a s, get (put a s) = a) (hput : ∀ a b s, put a (put b s) = put a s)
    (hself : ∀ s, put (get s) s = s)
    (hf : ∀ c s, (f c).run exec' s = (.ok (exec c (get s)).1, put (exec c (get s)).2 s))
    (p : Prog C R ε α) (s : σ') : (p.interpret f g).EachCall exec' Q s ↔
      p.EachCall exec (fun c t => (f c).EachCall exec' Q (put t s)) (get s) := by
  induction p generalizing s with
  | ret a => exact Iff.rfl
  | throw e => exact Iff.rfl
  | call c k ih =>
    rw [interpret, ← bind_eq, eachCall_bind_of_ok (hf c s), eachCall_call, hself, ih, hget]
    simp only [hput]

/-- What is left of a program after `n` of its calls, and the state they have led to. -/
def after (exec : (c : C) → σ → R c × σ) : Nat → Prog C R ε α → σ → Prog C R ε α × σ
  | n + 1, call c k, s => after exec n (k (exec c s).1) (exec c s).2
  | _, p, s => (p, s)

theorem EachCall.after {I : σ → Prop} (h : p.EachCall exec (fun _ t => I t) s) (n : Nat)
    (hleft : (p.after exec n s).1.ended = false) : I (p.after exec n s).2 := by
  induction n generalizing p s with
  | zero =>
    cases p with
    | call c k => exact h.1
    | _ => cases hleft
  | succ n ih =>
    cases p with
    | call c k => exact ih h.2 hleft
    | _ => cases hleft

/-- Every call the program could make, whatever it is answered, is one of `Q`. -/
def Makes (Q : C → Prop) : Prog C R ε α → Prop
  | ret _ => True
  | throw _ => True
  | call c k => Q c ∧ ∀ r, (k r).Makes Q

theorem makes_ret (a : α) : (ret a : Prog C R ε α).Makes Q := trivial

theorem makes_perform {c : C} (h : Q c) :
    (perform c : Prog C R ε (R c)).Makes Q := ⟨h, fun _ => trivial⟩

theorem makes_bind {f : α → Prog C R ε β} (hp : p.Makes Q) (hf : ∀ a, (f a).Makes Q) :
    (p >>= f).Makes Q := by
  rw [bind_eq]
  induction p with
  | ret a => exact hf a
  | throw e => trivial
  | call c k ih => exact ⟨hp.1, fun r => ih r (hp.2 r)⟩

theorem makes_ofExcept (x : Except ε α) : (ofExcept x : Prog C R ε α).Makes Q := by
  rcases x with - | - <;> trivial

theorem makes_refuseIf (p : Prop) [Decidable p] (e : ε) :
    (refuseIf p e : Prog C R ε Unit).Makes Q := by
  by_cases h : p
  · rw [refuseIf_pos h]
    trivial
  · rw [refuseIf_neg h]
    trivial

theorem makes_interpret {Q' : C' → Prop} (hf : ∀ c, Q c → (f c).Makes Q') (hp : p.Makes Q) :
    (p.interpret f g).Makes Q' := by
  induction p with
  | ret a => trivial
  | throw e => trivial
  | call c k ih => exact makes_bind (hf c hp.1) fun r => ih r (hp.2 r)

theorem makes_attempt (hp : p.Makes Q) : (p.attempt : Prog C R ε' (Except ε α)).Makes Q := by
  induction p with
  | ret a => trivial
  | throw e => trivial
  | call c k ih => exact ⟨hp.1, fun r => ih r (hp.2 r)⟩

theorem Makes.keeps {I : σ → Prop} (hp : p.Makes Q) (hkeep : ∀ c s, Q c → I s → I (exec c s).2)
    (h : I s) : p.EachCall exec (fun _ t => I t) s ∧ I (p.run exec s).2 := by
  induction p generalizing s with
  | ret a => exact ⟨trivial, h⟩
  | throw e => exact ⟨trivial, h⟩
  | call c k ih =>
    obtain ⟨heach, hend⟩ := ih _ (hp.2 _) (hkeep c s hp.1 h)
    exact ⟨⟨h, heach⟩, hend⟩

end Rgnr8.Lib.Prog
