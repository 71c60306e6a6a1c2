import Rgnr8.Lib.Run

/-! Programs of a pool that keep to a discipline. A local state follows what a program has done and
been answered; the discipline says which calls may come in it, and a program that follows the
discipline keeps to it whatever the others do between its calls. -/

namespace Rgnr8.Lib

/-- The local state after a call and its answer, the calls that may come, and the answers that are
relied on. -/
structure Discipline (C : Type) (R : C → Type) (S : Type) where
  after : S → (c : C) → R c → S
  may : S → C → Prop
  relies : (c : C) → R c → Prop

section
variable {C : Type} {R : C → Type} {ε ι α S σ : Type}

def Prog.Follows (d : Discipline C R S) (returns : S → α → Prop) (throws : S → ε → Prop) :
    S → Prog C R ε α → Prop
  | s, .ret a => returns s a
  | s, .throw e => throws s e
  | s, .call c k => d.may s c ∧ ∀ r, d.relies c r → (k r).Follows d returns throws (d.after s c r)

namespace Prog
variable {d : Discipline C R S} {returns : S → α → Prop} {throws : S → ε → Prop} {s : S}

theorem follows_throw {e : ε} (h : throws s e) :
    (throw e : Prog C R ε α).Follows d returns throws s := h

theorem follows_call {c : C} {k : R c → Prog C R ε α} (hmay : d.may s c)
    (hk : ∀ r, d.relies c r → (k r).Follows d returns throws (d.after s c r)) :
    (call c k).Follows d returns throws s := ⟨hmay, hk⟩

theorem follows_ite {p : Prop} [Decidable p] {a b : Prog C R ε α}
    (ha : p → a.Follows d returns throws s) (hb : ¬ p → b.Follows d returns throws s) :
    (if p then a else b).Follows d returns throws s := by
  split_ifs with h
  · exact ha h
  · exact hb h

end Prog

def Prog.call? : Prog C R ε α → Option C
  | .call c _ => some c
  | _ => none

structure Made (ι C : Type) (R : C → Type) where
  who : ι
  call : C
  answer : R call

/-- A pool with the local state of each program and the calls made so far, the latest first. -/
structure Watched (C : Type) (R : C → Type) (ε ι : Type) (α : ι → Type) (S σ : Type) where
  pool : Pool C R ε ι α σ
  locals : ι → S
  trace : List (Made ι C R)

end

theorem read_update {ι S β : Type} [DecidableEq ι] (f : S → β) (locals : ι → S) (i : ι) (s : S) :
    (fun j => f (Function.update locals i s j)) =
      Function.update (fun j => f (locals j)) i (f s) := by
  funext j
  exact Function.apply_update (fun _ => f) locals i s j

theorem read_update_same {ι S β : Type} [DecidableEq ι] (f : S → β) {locals : ι → S} {i : ι}
    {s : S} (h : f s = f (locals i)) :
    (fun j => f (Function.update locals i s j)) = fun j => f (locals j) := by
  rw [read_update, h, Function.update_eq_self]

namespace Watched
variable {C : Type} {R : C → Type} {ε ι S σ : Type} {α : ι → Type}

def Disciplined (d : Discipline C R S) (returns : (i : ι) → S → α i → Prop)
    (throws : (i : ι) → S → ε → Prop) (w : Watched C R ε ι α S σ) : Prop :=
  ∀ i, (w.pool.proc i).Follows d (returns i) (throws i) (w.locals i)

theorem Disciplined.may {d : Discipline C R S} {returns : (i : ι) → S → α i → Prop}
    {throws : (i : ι) → S → ε → Prop} {w : Watched C R ε ι α S σ}
    (h : w.Disciplined d returns throws) {i : ι} {c : C} {k : R c → Prog C R ε (α i)}
    (hp : w.pool.proc i = .call c k) : d.may (w.locals i) c := by
  have hi := h i
  rw [hp] at hi
  exact hi.1

variable [DecidableEq ι] (d : Discipline C R S) (exec : (c : C) → σ → R c × σ)

def step (w : Watched C R ε ι α S σ) (i : ι) : Watched C R ε ι α S σ :=
  match w.pool.proc i with
  | .call c _ =>
    { pool := w.pool.step exec i
      locals := Function.update w.locals i (d.after (w.locals i) c (exec c w.pool.state).1)
      trace := ⟨i, c, (exec c w.pool.state).1⟩ :: w.trace }
  | _ => w

variable {d exec} {w : Watched C R ε ι α S σ} {i : ι}

theorem step_cases (d : Discipline C R S) (exec : (c : C) → σ → R c × σ)
    (w : Watched C R ε ι α S σ) (i : ι) :
    ((w.pool.proc i).ended = true ∧ w.step d exec i = w) ∨
    ∃ c k, w.pool.proc i = .call c k ∧
      w.step d exec i =
        { pool :=
            { state := (exec c w.pool.state).2
              proc := Function.update w.pool.proc i (k (exec c w.pool.state).1) }
          locals := Function.update w.locals i (d.after (w.locals i) c (exec c w.pool.state).1)
          trace := ⟨i, c, (exec c w.pool.state).1⟩ :: w.trace } := by
  unfold step
  cases hp : w.pool.proc i with
  | ret a => exact .inl ⟨rfl, rfl⟩
  | throw e => exact .inl ⟨rfl, rfl⟩
  | call c k =>
    refine .inr ⟨c, k, rfl, ?_⟩
    unfold Pool.step
    rw [hp]
    rfl

variable {returns : (i : ι) → S → α i → Prop} {throws : (i : ι) → S → ε → Prop}

theorem Disciplined.step (h : Disciplined d returns throws w)
    (hrel : ∀ c, d.relies c (exec c w.pool.state).1) (i : ι) :
    Disciplined d returns throws (w.step d exec i) := by
  rcases step_cases d exec w i with ⟨-, hstep⟩ | ⟨c, k, hp, hstep⟩
  · rwa [hstep]
  · rw [hstep]
    intro j
    by_cases hj : j = i
    · subst hj
      have hi := h j
      rw [hp] at hi
      simp only [Function.update_self]
      exact hi.2 _ (hrel c)
    · simp only [Function.update_of_ne hj]
      exact h j

end Watched
end Rgnr8.Lib
