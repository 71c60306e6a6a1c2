import Mathlib.Data.List.Basic
import Mathlib.Tactic.Common
import Rgnr8.Lib.Program
import Mathlib.Logic.Function.Basic

/-! Runs of a step function over a list of actions, and what holds in every state they reach. -/

namespace Rgnr8.Lib
open List
variable {σ α : Type} {step : σ → α → σ}
variable {as : List α} {s : σ} {P : σ → Prop} {Ok : σ → α → Prop}

theorem foldl_invariant {I : σ → Prop} (hstep : ∀ s a, I s → I (step s a)) (h : I s) (as : List α) :
    I (as.foldl step s) := by
  induction as generalizing s with
  | nil => exact h
  | cons a as ih => exact ih (hstep s a h)

theorem foldl_rel {r : σ → σ → Prop} (hrefl : ∀ s, r s s)
    (htrans : ∀ s t u, r s t → r t u → r s u) (hstep : ∀ s a, r s (step s a)) (s : σ)
    (as : List α) : r s (as.foldl step s) := by
  induction as generalizing s with
  | nil => exact hrefl s
  | cons a as ih => exact htrans _ _ _ (hstep s a) (ih (step s a))

/-- `P` holds in every state a run passes through, its two ends included. -/
def Along (step : σ → α → σ) (P : σ → Prop) (s : σ) (as : List α) : Prop :=
  ∀ pre, pre <+: as → P (pre.foldl step s)

/-- Every step of a run meets `Ok` in the state it is taken in. -/
def EachStep (step : σ → α → σ) (Ok : σ → α → Prop) (s : σ) (as : List α) : Prop :=
  ∀ pre a, pre ++ [a] <+: as → Ok (pre.foldl step s) a

theorem along_nil : Along step P s [] ↔ P s := by
  constructor
  · exact fun h => h [] prefix_rfl
  · intro h pre hpre
    rwa [prefix_nil.mp hpre]

theorem along_cons {a : α} : Along step P s (a :: as) ↔ P s ∧ Along step P (step s a) as := by
  constructor
  · exact fun h => ⟨h [] nil_prefix, fun pre hpre =>
      h (a :: pre) (cons_prefix_cons.mpr ⟨rfl, hpre⟩)⟩
  · rintro ⟨h, ht⟩ pre hpre
    cases pre with
    | nil => exact h
    | cons b pre =>
      obtain ⟨rfl, h'⟩ := cons_prefix_cons.mp hpre
      exact ht pre h'

theorem eachStep_nil : EachStep step Ok s [] := by
  intro pre a h
  have := prefix_nil.mp h
  simp at this

theorem eachStep_cons {a : α} :
    EachStep step Ok s (a :: as) ↔ Ok s a ∧ EachStep step Ok (step s a) as := by
  constructor
  · exact fun h => ⟨h [] a (cons_prefix_cons.mpr ⟨rfl, nil_prefix⟩), fun pre b hb =>
      h (a :: pre) b (cons_prefix_cons.mpr ⟨rfl, hb⟩)⟩
  · rintro ⟨h, ht⟩ pre b hb
    cases pre with
    | nil =>
      obtain ⟨rfl, _⟩ := cons_prefix_cons.mp hb
      exact h
    | cons c pre =>
      obtain ⟨rfl, h'⟩ := cons_prefix_cons.mp hb
      exact ht pre b h'

theorem EachStep.after {pre rest : List α} (h : EachStep step Ok s as)
    (hsplit : pre ++ rest <+: as) : EachStep step Ok (pre.foldl step s) rest := by
  intro mid a hmid
  have hall : (pre ++ mid) ++ [a] <+: as := by
    rw [append_assoc]
    exact ((prefix_append_right_inj pre).mpr hmid).trans hsplit
  rw [← foldl_append]
  exact h (pre ++ mid) a hall

/-- Where a good step keeps `P` and a bad one breaks it at once, a run keeps `P` throughout
exactly when all its steps are good. `J` is what the argument has to know besides. -/
theorem along_iff_eachStep {J : σ → Prop}
    (hgood : ∀ s a, J s → P s → Ok s a → J (step s a) ∧ P (step s a))
    (hbad : ∀ s a, J s → P s → ¬ Ok s a → ¬ P (step s a)) (hJ : J s) (hP : P s) (as : List α) :
    Along step P s as ↔ EachStep step Ok s as := by
  induction as generalizing s with
  | nil => exact ⟨fun _ => eachStep_nil, fun _ => along_nil.mpr hP⟩
  | cons a as ih =>
    rw [along_cons, eachStep_cons]
    by_cases hOk : Ok s a
    · obtain ⟨hJ', hP'⟩ := hgood s a hJ hP hOk
      rw [ih hJ' hP']
      exact ⟨fun h => ⟨hOk, h.2⟩, fun h => ⟨hP, h.2⟩⟩
    · refine ⟨fun h => absurd (h.2 [] nil_prefix) (hbad s a hJ hP hOk), fun h => absurd h.1 hOk⟩

/-- Where two readings of a step agree as long as `I` holds, and a step read so keeps `I`, they agree
over every run. -/
theorem eachStep_congr {I : σ → Prop} {Ok' : σ → α → Prop}
    (hiff : ∀ s a, I s → (Ok s a ↔ Ok' s a)) (hstep : ∀ s a, I s → Ok' s a → I (step s a))
    (h : I s) (as : List α) : EachStep step Ok s as ↔ EachStep step Ok' s as := by
  induction as generalizing s with
  | nil => exact iff_of_true eachStep_nil eachStep_nil
  | cons a as ih =>
    rw [eachStep_cons, eachStep_cons, hiff s a h]
    exact and_congr_right fun hOk => ih (hstep s a h hOk)

theorem along_imp {Q : σ → Prop} (h : ∀ s, P s → Q s) (hP : Along step P s as) :
    Along step Q s as := fun pre hpre => h _ (hP pre hpre)

/-- Where a good step keeps `G`, a bad one turns it into `B`, and `B` never ends: a run either takes
good steps only and keeps `G` throughout, or it takes a bad one and ends in `B`. -/
theorem eachStep_dichotomy {G B : σ → Prop} (hgood : ∀ s a, G s → Ok s a → G (step s a))
    (hbad : ∀ s a, G s → ¬ Ok s a → B (step s a)) (hstay : ∀ s a, B s → B (step s a)) (h : G s)
    (as : List α) : (EachStep step Ok s as ∧ Along step G s as) ∨
      (¬ EachStep step Ok s as ∧ B (as.foldl step s)) := by
  induction as generalizing s with
  | nil => exact .inl ⟨eachStep_nil, along_nil.mpr h⟩
  | cons a as ih =>
    rw [eachStep_cons, along_cons]
    by_cases hOk : Ok s a
    · rcases ih (hgood s a h hOk) with ⟨hsteps, halong⟩ | ⟨hsteps, hB⟩
      · exact .inl ⟨⟨hOk, hsteps⟩, h, halong⟩
      · exact .inr ⟨fun hall => hsteps hall.2, hB⟩
    · exact .inr ⟨fun hall => hOk hall.1, foldl_invariant hstay (hbad s a h hOk) as⟩

theorem along_of_eachStep {G : σ → Prop} (hgood : ∀ s a, G s → Ok s a → G (step s a)) (h : G s)
    (hsteps : EachStep step Ok s as) : Along step G s as := by
  rcases eachStep_dichotomy (B := fun _ => True) hgood (fun _ _ _ _ => trivial)
    (fun _ _ _ => trivial) h as with ⟨-, halong⟩ | ⟨hnot, -⟩
  · exact halong
  · exact absurd hsteps hnot

end Rgnr8.Lib

/-! Programs sharing one state, one call at a time in any order. A schedule lists who moves; a
program that has ended stands still when it is scheduled. -/

namespace Rgnr8.Lib

structure Pool (C : Type) (R : C → Type) (ε : Type) (ι : Type) (α : ι → Type) (σ : Type) where
  state : σ
  proc : (i : ι) → Prog C R ε (α i)

namespace Prog
variable {C : Type} {R : C → Type} {ε α σ : Type}
variable (exec : (c : C) → σ → R c × σ)

def next : Prog C R ε α → σ → Prog C R ε α
  | call c k, s => k (exec c s).1
  | p, _ => p

def effect : Prog C R ε α → σ → σ
  | call c _, s => (exec c s).2
  | _, s => s

end Prog

namespace Pool
variable {C : Type} {R : C → Type} {ε ι σ : Type} {α : ι → Type} [DecidableEq ι]
variable (exec : (c : C) → σ → R c × σ)
variable (w : Pool C R ε ι α σ)

def step (i : ι) : Pool C R ε ι α σ where
  state := (w.proc i).effect exec w.state
  proc := Function.update w.proc i ((w.proc i).next exec w.state)

def runSchedule (sched : List ι) : Pool C R ε ι α σ :=
  sched.foldl (step exec) w

variable {exec}

@[simp] theorem step_state (i : ι) : (w.step exec i).state = (w.proc i).effect exec w.state := rfl

@[simp] theorem step_proc_self (i : ι) :
    (w.step exec i).proc i = (w.proc i).next exec w.state := Function.update_self ..

theorem step_proc_ne {i j : ι} (h : j ≠ i) :
    (w.step exec i).proc j = w.proc j := Function.update_of_ne h ..

@[simp] theorem runSchedule_cons (i : ι) (sched : List ι) :
    w.runSchedule exec (i :: sched) = (w.step exec i).runSchedule exec sched := rfl

theorem runSchedule_invariant {I : Pool C R ε ι α σ → Prop}
    (hstep : ∀ w i, I w → I (w.step exec i)) {w : Pool C R ε ι α σ} (h : I w) (sched : List ι) :
    I (w.runSchedule exec sched) := foldl_invariant hstep h sched

end Pool
end Rgnr8.Lib

/-! Rely and guarantee. A program relies on the answers it gets, and guarantees something of every
call it makes and of the value it returns. Other programs may move between two of its calls, as long
as the answers stay what it relies on. -/

namespace Rgnr8.Lib.Prog
variable {C C' : Type} {R : C → Type} {R' : C' → Type} {ε ε' α β σ : Type}
variable {A : (c : C) → R c → Prop} {Q : C → Prop} {P : α → Prop} {P' : β → Prop}

def Ensures (A : (c : C) → R c → Prop) (Q : C → Prop) (P : α → Prop) : Prog C R ε α → Prop
  | ret a => P a
  | throw _ => True
  | call c k => Q c ∧ ∀ r, A c r → (k r).Ensures A Q P

theorem ensures_perform {c : C} {P : R c → Prop} (hQ : Q c) (hA : ∀ r, A c r → P r) :
    (perform c : Prog C R ε (R c)).Ensures A Q P := ⟨hQ, hA⟩

theorem ensures_ofExcept {x : Except ε α} (h : ∀ a, x = .ok a → P a) :
    (ofExcept x : Prog C R ε α).Ensures A Q P := by
  cases x with
  | error e => trivial
  | ok a => exact h a rfl

theorem ensures_refuseIf {p : Prop} [Decidable p] {e : ε} {P : Unit → Prop} (h : ¬ p → P ()) :
    (refuseIf p e : Prog C R ε Unit).Ensures A Q P := by
  by_cases hp : p
  · rw [refuseIf_pos hp]
    trivial
  · rw [refuseIf_neg hp]
    exact h hp

variable {p : Prog C R ε α}

theorem ensures_bind {f : α → Prog C R ε β} (hp : p.Ensures A Q P)
    (hf : ∀ a, P a → (f a).Ensures A Q P') : (p >>= f).Ensures A Q P' := by
  rw [bind_eq]
  induction p with
  | ret a => exact hf a hp
  | throw e => trivial
  | call c k ih => exact ⟨hp.1, fun r hr => ih r (hp.2 r hr)⟩

theorem ensures_trivial (p : Prog C R ε α) :
    p.Ensures (fun _ _ => True) (fun _ => True) fun _ => True := by
  induction p with
  | ret a => trivial
  | throw e => trivial
  | call c k ih => exact ⟨trivial, fun r _ => ih r⟩

theorem ensures_attempt (hp : p.Ensures A Q P) :
    (p.attempt : Prog C R ε' (Except ε α)).Ensures A Q fun _ => True := by
  induction p with
  | ret a => trivial
  | throw e => trivial
  | call c k ih => exact ⟨hp.1, fun r hr => ih r (hp.2 r hr)⟩

/-- An interpretation ensures what the program does, where it answers each call as the program
relies on. -/
theorem ensures_interpret {A' : (c : C') → R' c → Prop} {Q' : C' → Prop}
    {f : (c : C) → Prog C' R' ε' (R c)} {g : ε → ε'} (hp : p.Ensures A Q P)
    (hf : ∀ c, Q c → (f c).Ensures A' Q' (A c)) : (p.interpret f g).Ensures A' Q' P := by
  induction p with
  | ret a => exact hp
  | throw e => trivial
  | call c k ih =>
    rw [interpret, ← bind_eq]
    exact ensures_bind (hf c hp.1) fun r hr => ih r (hp.2 r hr)

variable {exec : (c : C) → σ → R c × σ} {s : σ}

theorem Ensures.next (hp : p.Ensures A Q P) (hA : ∀ c, A c (exec c s).1) :
    (p.next exec s).Ensures A Q P := by
  cases p with
  | ret a => exact hp
  | throw e => trivial
  | call c k => exact hp.2 _ (hA c)

theorem Ensures.effect (hp : p.Ensures A Q P) :
    p.effect exec s = s ∨ ∃ c, Q c ∧ p.effect exec s = (exec c s).2 := by
  cases p with
  | ret a => exact .inl rfl
  | throw e => exact .inl rfl
  | call c k => exact .inr ⟨c, hp.1, rfl⟩

/-- Where the state answers as relied on while an invariant holds, and what is guaranteed keeps the
invariant, a program run alone keeps it. -/
theorem Ensures.run_invariant {I : σ → Prop} (hp : p.Ensures A Q P)
    (hA : ∀ c s, I s → A c (exec c s).1) (hQ : ∀ c s, I s → Q c → I (exec c s).2) (hs : I s) :
    I (p.run exec s).2 := by
  induction p generalizing s with
  | ret a => exact hs
  | throw e => exact hs
  | call c k ih => exact ih _ (hp.2 _ (hA c s hs)) (hQ c s hs hp.1)

theorem run_bind_eq_ok {f : α → Prog C R ε β} {b : β} :
    ((p >>= f).run exec s).1 = .ok b ↔ ∃ a, (p.run exec s).1 = .ok a ∧
      ((f a).run exec (p.run exec s).2).1 = .ok b := by
  rw [bind_eq, run_bind]
  rcases p.run exec s with ⟨e | a, s'⟩
  · exact ⟨nofun, fun ⟨_, h, _⟩ => nomatch h⟩
  · constructor
    · exact fun h => ⟨a, rfl, h⟩
    · rintro ⟨a', ha', h⟩
      obtain rfl := Except.ok.inj ha'
      exact h

end Rgnr8.Lib.Prog
