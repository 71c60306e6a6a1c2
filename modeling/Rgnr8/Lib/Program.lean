

/-! Requests as programs of calls on shared stores. A program is a tree: it returns, throws, or
makes one call and goes on with the answer. Run alone it is a state transformer with errors; a
call is also the unit in which concurrent programs interleave. -/

namespace Rgnr8.Lib

inductive Prog (C : Type) (R : C → Type) (ε α : Type) where
  | ret (a : α)
  | throw (e : ε)
  | call (c : C) (k : R c → Prog C R ε α)

namespace Prog
variable {C C' : Type} {R : C → Type} {R' : C' → Type} {ε ε' α β σ : Type}

def bind : Prog C R ε α → (α → Prog C R ε β) → Prog C R ε β
  | ret a, f => f a
  | throw e, _ => throw e
  | call c k, f => call c fun r => (k r).bind f

instance : Monad (Prog C R ε) where
  pure := ret
  bind := bind

@[simp] theorem bind_eq (p : Prog C R ε α) (f : α → Prog C R ε β) : p >>= f = p.bind f := rfl

@[simp] theorem pure_eq (a : α) : (Pure.pure a : Prog C R ε α) = ret a := rfl

def perform (c : C) : Prog C R ε (R c) := call c ret

def ofExcept : Except ε α → Prog C R ε α
  | .ok a => ret a
  | .error e => throw e

/-- Throw `e` when the test fails the request. -/
def refuseIf (p : Prop) [Decidable p] (e : ε) : Prog C R ε Unit :=
  if p then throw e else ret ()

theorem refuseIf_pos {p : Prop} [Decidable p] {e : ε} (h : p) :
    (refuseIf p e : Prog C R ε Unit) = throw e := if_pos h

theorem refuseIf_neg {p : Prop} [Decidable p] {e : ε} (h : ¬ p) :
    (refuseIf p e : Prog C R ε Unit) = ret () := if_neg h

def attempt : Prog C R ε α → Prog C R ε' (Except ε α)
  | ret a => ret (.ok a)
  | throw e => ret (.error e)
  | call c k => call c fun r => (k r).attempt

def interpret (f : (c : C) → Prog C' R' ε' (R c)) (g : ε → ε') :
    Prog C R ε α → Prog C' R' ε' α
  | ret a => ret a
  | throw e => throw (g e)
  | call c k => (f c).bind fun r => (k r).interpret f g

def ended : Prog C R ε α → Bool
  | ret _ | throw _ => true
  | call _ _ => false

/-- Run to the end, alone on the state. What was written before a throw stays written. -/
def run (exec : (c : C) → σ → R c × σ) : Prog C R ε α → σ → Except ε α × σ
  | ret a, s => (.ok a, s)
  | throw e, s => (.error e, s)
  | call c k, s => (k (exec c s).1).run exec (exec c s).2

section
variable (exec : (c : C) → σ → R c × σ) (s : σ)

@[simp] theorem run_ret (a : α) : (ret a : Prog C R ε α).run exec s = (.ok a, s) := rfl

@[simp] theorem run_throw (e : ε) : (throw e : Prog C R ε α).run exec s = (.error e, s) := rfl

@[simp] theorem run_call (c : C) (k : R c → Prog C R ε α) :
    (call c k).run exec s = (k (exec c s).1).run exec (exec c s).2 := rfl

@[simp] theorem run_perform (c : C) :
    (perform c : Prog C R ε (R c)).run exec s = (.ok (exec c s).1, (exec c s).2) := rfl

theorem run_bind (p : Prog C R ε α) (f : α → Prog C R ε β) :
    (p.bind f).run exec s = match p.run exec s with
      | (.ok a, s') => (f a).run exec s'
      | (.error e, s') => (.error e, s') := by
  induction p generalizing s with
  | ret a => rfl
  | throw e => rfl
  | call c k ih => simpa only [bind, run_call] using ih (exec c s).1 (exec c s).2

theorem run_attempt (p : Prog C R ε α) :
    (p.attempt : Prog C R ε' (Except ε α)).run exec s = (.ok (p.run exec s).1, (p.run exec s).2) := by
  induction p generalizing s with
  | ret a => rfl
  | throw e => rfl
  | call c k ih => exact ih (exec c s).1 (exec c s).2

end

/-- Interpreted over a larger state, of which each call sees and changes one component, a program
does to that component what it does on its own. -/
theorem run_interpret {σ' : Type} {exec : (c : C) → σ → R c × σ}
    {exec' : (c : C') → σ' → R' c × σ'} {f : (c : C) → Prog C' R' ε' (R c)} {g : ε → ε'}
    (get : σ' → σ) (put : σ → σ' → σ') (hget : ∀ a s, get (put a s) = a)
    (hput : ∀ a b s, put a (put b s) = put a s) (hself : ∀ s, put (get s) s = s)
    (hf : ∀ c s, (f c).run exec' s = (.ok (exec c (get s)).1, put (exec c (get s)).2 s))
    (p : Prog C R ε α) (s : σ') :
    (p.interpret f g).run exec' s =
      ((p.run exec (get s)).1.mapError g, put (p.run exec (get s)).2 s) := by
  induction p generalizing s with
  | ret a => exact Prod.ext rfl (hself s).symm
  | throw e => exact Prod.ext rfl (hself s).symm
  | call c k ih =>
    rw [interpret, run_bind, hf]
    dsimp only
    rw [ih, hget, hput]
    rfl

end Prog

/-! Programs that read and check before they act. What such a program goes on to do is decided by
the state it starts in, in a computation that makes no calls. -/

variable {C : Type} {R : C → Type} {ε α β γ σ : Type} {exec : (c : C) → σ → R c × σ} {s : σ}

/-- What was decided on, if anything, is as `P` says. -/
def OnOk (P : α → Prop) : Except ε α → Prop
  | .error _ => True
  | .ok a => P a

instance (P : α → Prop) [DecidablePred P] : ∀ x : Except ε α, Decidable (OnOk P x)
  | .error _ => inferInstanceAs (Decidable True)
  | .ok a => inferInstanceAs (Decidable (P a))

theorem onOk_iff {P : α → Prop} {x : Except ε α} : OnOk P x ↔ ∀ a, x = .ok a → P a := by
  cases x with
  | error e => exact iff_of_true trivial fun a h => by cases h
  | ok b =>
    constructor
    · rintro h a ⟨⟩
      exact h
    · exact fun h => h b rfl

/-- Run in `s`, the program throws what the decision throws and leaves `s` alone, or it does what
`act` says to what was decided. -/
def Decides (exec : (c : C) → σ → R c × σ) (s : σ) (p : Prog C R ε β) (x : Except ε α)
    (act : α → Except ε β × σ) : Prop :=
  p.run exec s = match x with
    | .error e => (.error e, s)
    | .ok a => act a

namespace Prog

theorem bind_assoc {δ : Type} (p : Prog C R ε δ) (f : δ → Prog C R ε γ) (g : γ → Prog C R ε β) :
    p >>= f >>= g = p >>= fun d => f d >>= g := by
  induction p with
  | ret a => rfl
  | throw e => rfl
  | call c k ih => exact congrArg (call c) (funext ih)

theorem run_bind_ok {p : Prog C R ε γ} {f : γ → Prog C R ε β} {c : γ} {s' : σ}
    (h : p.run exec s = (.ok c, s')) : (p >>= f).run exec s = (f c).run exec s' := by
  rw [bind_eq, run_bind, h]

theorem run_bind_error {p : Prog C R ε γ} {f : γ → Prog C R ε β} {e : ε} {s' : σ}
    (h : p.run exec s = (.error e, s')) : (p >>= f).run exec s = (.error e, s') := by
  rw [bind_eq, run_bind, h]

end Prog

namespace Decides
variable {act : α → Except ε β × σ}

theorem check {x : Except ε γ} {f : γ → Prog C R ε β} {g : γ → Except ε α}
    (h : ∀ a, x = .ok a → Decides exec s (f a) (g a) act) :
    Decides exec s (Prog.ofExcept x >>= f) (x >>= g) act := by
  cases x with
  | error e => rfl
  | ok a => exact h a rfl

variable {x : Except ε α} {p : Prog C R ε β}

theorem refuse {p : Prop} [Decidable p] {e : ε} {f : Unit → Prog C R ε β}
    (h : ¬ p → Decides exec s (f ()) x act) :
    Decides exec s (Prog.refuseIf p e >>= f) (if p then .error e else x) act := by
  by_cases hp : p
  · rw [Prog.refuseIf_pos hp, if_pos hp]
    rfl
  · rw [Prog.refuseIf_neg hp, if_neg hp]
    exact h hp

theorem read {c : C} {f : R c → Prog C R ε β} (hc : (exec c s).2 = s)
    (h : Decides exec s (f (exec c s).1) x act) : Decides exec s (Prog.perform c >>= f) x act := by
  have hrun : (Prog.perform c >>= f).run exec s = (f (exec c s).1).run exec (exec c s).2 := rfl
  rw [hc] at hrun
  exact hrun.trans h

theorem answer {p : Prog C R ε γ} {c : γ} {f : γ → Prog C R ε β} (hp : p.run exec s = (.ok c, s))
    (h : Decides exec s (f c) x act) :
    Decides exec s (p >>= f) x act := (Prog.run_bind_ok hp).trans h

theorem ran {a : α} (h : Decides exec s p x act) (hx : x = .ok a) : p.run exec s = act a := by
  subst hx
  exact h

theorem threw {e : ε} (h : Decides exec s p x act) (hx : x = .error e) :
    p.run exec s = (.error e, s) := by
  subst hx
  exact h

theorem done {a : α} (h : p.run exec s = act a) : Decides exec s p (.ok a) act := h

theorem bind {δ : Type} {p : Prog C R ε δ} {x : Except ε γ} {give : γ → δ}
    (hp : Decides exec s p x fun c => (.ok (give c), s)) {f : δ → Prog C R ε β}
    {g : γ → Except ε α} (h : ∀ c, x = .ok c → Decides exec s (f (give c)) (g c) act) :
    Decides exec s (p >>= f) (x >>= g) act := by
  unfold Decides at hp ⊢
  rw [Prog.bind_eq, Prog.run_bind, hp]
  cases x with
  | error e => rfl
  | ok c => exact h c rfl

end Decides
end Rgnr8.Lib
