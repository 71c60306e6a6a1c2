import Mathlib.Logic.Function.Basic
import Mathlib.Tactic.Common
import Mathlib.Algebra.Order.Ring.Int

/-! Two clients that draw on one value without a guard: each reads it, commits to an amount that
fits what it has read, and writes back the difference. The value stays exact as long as neither
client reads between the other's read and its write, and an overlap loses an amount for good. -/

namespace Rgnr8.Lib.WriteBack

/-- Where a client stands. `out` has declined and will commit to nothing. -/
inductive Phase where
  | idle
  | holding (read amount : Int)
  | committed (read amount : Int)
  | written (amount : Int)
  | out

namespace Phase

/-- Past the read and before the write. -/
def Active : Phase → Prop
  | holding _ _ | committed _ _ => True
  | _ => False

def Settled : Phase → Prop
  | committed _ _ | written _ => True
  | _ => False

def taken : Phase → Int
  | committed _ a | written a => a
  | _ => 0

def drawn : Phase → Int
  | written a => a
  | _ => 0

end Phase

structure Cell where
  value : Int
  phase : Bool → Phase

namespace Cell

def taken (c : Cell) : Int := (c.phase false).taken + (c.phase true).taken

def drawn (c : Cell) : Int := (c.phase false).drawn + (c.phase true).drawn

variable (c : Cell) (i : Bool) (ph : Phase)

def put : Cell := { c with phase := Function.update c.phase i ph }

@[simp] theorem value_put : (c.put i ph).value = c.value := rfl

@[simp] theorem phase_put_self : (c.put i ph).phase i = ph :=
  Function.update_self ..

@[simp] theorem phase_put_not :
    (c.put i ph).phase (!i) = c.phase (!i) := Function.update_of_ne (Bool.not_ne_self i) ..

theorem put_self : c.put i (c.phase i) = c := by
  rw [put, Function.update_eq_self]

theorem taken_eq : c.taken = (c.phase i).taken + (c.phase (!i)).taken := by
  cases i
  · rfl
  · exact Int.add_comm _ _

theorem drawn_eq : c.drawn = (c.phase i).drawn + (c.phase (!i)).drawn := by
  cases i
  · rfl
  · exact Int.add_comm _ _

theorem taken_put : (c.put i ph).taken = c.taken - (c.phase i).taken + ph.taken := by
  rw [taken_eq _ i, taken_eq c i, phase_put_self, phase_put_not]
  omega

theorem drawn_put : (c.put i ph).drawn = c.drawn - (c.phase i).drawn + ph.drawn := by
  rw [drawn_eq _ i, drawn_eq c i, phase_put_self, phase_put_not]
  omega

end Cell

/-- A step of client `i` that does not overlap with the other client. -/
inductive Move (c : Cell) (i : Bool) : Cell → Prop where
  | stay : Move c i c
  | decline (h : c.phase i = .idle) : Move c i (c.put i .out)
  | read {a : Int} (h : c.phase i = .idle) (hpos : 0 < a) (hle : a ≤ c.value)
      (hother : ¬ (c.phase (!i)).Active) : Move c i (c.put i (.holding c.value a))
  | commit {r a : Int} (h : c.phase i = .holding r a) : Move c i (c.put i (.committed r a))
  | write {r a : Int} (h : c.phase i = .committed r a) :
      Move c i { c.put i (.written a) with value := r - a }

/-- A read of client `i` while the other client is past its read and before its write. -/
inductive Overlap (c : Cell) (i : Bool) : Cell → Prop where
  | read {a : Int} (h : c.phase i = .idle) (hpos : 0 < a) (hle : a ≤ c.value)
      (hother : (c.phase (!i)).Active) : Overlap c i (c.put i (.holding c.value a))

def Fits (value : Int) : Phase → Prop
  | .holding r a | .committed r a => r = value ∧ 0 < a ∧ a ≤ value
  | _ => True

/-- The value is exact, and at most one client is between its read and its write. -/
structure Exclusive (init : Int) (c : Cell) : Prop where
  value_eq : c.value = init - c.drawn
  nonneg : 0 ≤ c.value
  fits : ∀ i, Fits c.value (c.phase i)
  alone : ∀ i, (c.phase i).Active → ¬ (c.phase (!i)).Active

variable {init : Int} {c c' : Cell} {i : Bool}

theorem forall_client {p : Bool → Prop} (i : Bool) (hi : p i) (hother : p (!i)) : ∀ j, p j := by
  intro j
  cases i <;> cases j <;> first | exact hi | exact hother

section
variable {value : Int} {ph : Phase}

theorem fits_of_not_active (h : ¬ ph.Active) : Fits value ph := by
  unfold Phase.Active at h
  unfold Fits
  split <;> simp_all

theorem drawn_of_active (h : ph.Active) : ph.drawn = 0 := by
  unfold Phase.Active at h
  split at h <;> first | rfl | exact h.elim

theorem taken_of_not_active (h : ¬ ph.Active) : ph.taken = ph.drawn := by
  unfold Phase.Active at h
  unfold Phase.taken Phase.drawn
  split <;> simp_all

theorem taken_sub_drawn_le (h : Fits value ph) (hnn : 0 ≤ value) :
    ph.taken - ph.drawn ≤ value := by
  cases ph with
  | committed r a =>
    have hle : a ≤ value := h.2.2
    simpa [Phase.taken, Phase.drawn] using hle
  | _ => simpa [Phase.taken, Phase.drawn] using hnn

end

theorem Exclusive.put (h : Exclusive init c) {ph : Phase} (hdrawn : ph.drawn = (c.phase i).drawn)
    (hfits : Fits c.value ph) (halone : ph.Active → ¬ (c.phase (!i)).Active) :
    Exclusive init (c.put i ph) := by
  refine ⟨?_, h.nonneg, forall_client i ?_ ?_, forall_client i ?_ ?_⟩
  · rw [Cell.drawn_put, Cell.value_put, h.value_eq]
    omega
  · rwa [Cell.phase_put_self]
  · rw [Cell.phase_put_not]
    exact h.fits (!i)
  · rw [Cell.phase_put_self, Cell.phase_put_not]
    exact halone
  · rw [Cell.phase_put_not, Bool.not_not, Cell.phase_put_self]
    exact fun hact hph => halone hph hact

theorem Exclusive.write (h : Exclusive init c) {r a : Int} (hi : c.phase i = .committed r a) :
    Exclusive init { c.put i (.written a) with value := r - a } := by
  have halone : ¬ (c.phase (!i)).Active := h.alone i (by rw [hi]; trivial)
  have hfits := h.fits i
  rw [hi] at hfits
  obtain ⟨hr, hpos, hle⟩ := hfits
  have hdrawn := c.drawn_put i (.written a)
  rw [hi] at hdrawn
  -- the other client is not past its read, so the new value is news to nobody
  have hphase : ∀ j, ¬ ((c.put i (.written a)).phase j).Active := by
    refine forall_client i ?_ ?_
    · rw [Cell.phase_put_self]
      exact nofun
    · rwa [Cell.phase_put_not]
  refine ⟨?_, ?_, fun j => fits_of_not_active (hphase j), fun j hact => absurd hact (hphase j)⟩
  · have hval := h.value_eq
    have hnew : c.drawn - 0 + a = (c.put i (.written a)).drawn := hdrawn.symm
    change r - a = init - (c.put i (.written a)).drawn
    omega
  · change 0 ≤ r - a
    omega

theorem Exclusive.move (h : Exclusive init c) (hm : Move c i c') : Exclusive init c' := by
  cases hm with
  | stay => exact h
  | decline hi => exact h.put (by rw [hi]; rfl) trivial nofun
  | read hi hpos hle hother => exact h.put (by rw [hi]; rfl) ⟨rfl, hpos, hle⟩ fun _ => hother
  | commit hi =>
    have hfits := h.fits i
    rw [hi] at hfits
    exact h.put (by rw [hi]; rfl) hfits fun _ => h.alone i (by rw [hi]; trivial)
  | write hi => exact h.write hi

theorem Exclusive.taken_le (h : Exclusive init c) : c.taken ≤ init := by
  have hval := h.value_eq
  have hdrawn : c.drawn = (c.phase false).drawn + (c.phase true).drawn := rfl
  have htaken : c.taken = (c.phase false).taken + (c.phase true).taken := rfl
  have hone : ¬ (c.phase false).Active ∨ ¬ (c.phase true).Active := by
    by_contra hboth
    rw [not_or, not_not, not_not] at hboth
    exact h.alone false hboth.1 hboth.2
  rcases hone with hn | hn
  · have h1 := taken_of_not_active hn
    have h2 := taken_sub_drawn_le (h.fits true) h.nonneg
    omega
  · have h1 := taken_of_not_active hn
    have h2 := taken_sub_drawn_le (h.fits false) h.nonneg
    omega

theorem Exclusive.exact (h : Exclusive init c) (hrest : ∀ i, ¬ (c.phase i).Active) :
    c.value = init - c.taken := by
  have h1 := taken_of_not_active (hrest false)
  have h2 := taken_of_not_active (hrest true)
  rw [h.value_eq, Cell.drawn, Cell.taken, h1, h2]

/-- A client that is bound to draw a positive amount from a value it has read as `init`. -/
def Bound (init : Int) : Phase → Prop
  | .holding r a | .committed r a => r = init ∧ 0 < a
  | .written a => 0 < a
  | _ => False

theorem bound_of_fits {ph : Phase} (hact : ph.Active) (h : Fits init ph) : Bound init ph := by
  cases ph with
  | holding r a => exact ⟨h.1, h.2.1⟩
  | committed r a => exact ⟨h.1, h.2.1⟩
  | _ => exact hact.elim

/-- Both clients have read the same value, so what one of them has written back does not know of
the other's amount. -/
structure Lost (init : Int) (c : Cell) : Prop where
  bound : ∀ i, Bound init (c.phase i)
  value : ∀ i a, c.phase i = .written a → ∃ j b, c.phase j = .written b ∧ c.value = init - b

theorem Exclusive.overlap (h : Exclusive init c) (ho : Overlap c i c') : Lost init c' := by
  cases ho with
  | @read a hi hpos hle hother =>
    -- nobody has written yet, so both have read the value there was
    have hinit : c.value = init := by
      have hdrawn := c.drawn_eq i
      have hidle : (c.phase i).drawn = 0 := by rw [hi]; rfl
      have hnone := drawn_of_active hother
      have hval := h.value_eq
      omega
    have hfits := h.fits (!i)
    rw [hinit] at hfits
    refine ⟨forall_client i ?_ ?_, forall_client i ?_ ?_⟩
    · rw [Cell.phase_put_self]
      exact ⟨hinit, hpos⟩
    · rw [Cell.phase_put_not]
      exact bound_of_fits hother hfits
    · rw [Cell.phase_put_self]
      exact fun b => nofun
    · intro b hb
      rw [Cell.phase_put_not] at hb
      rw [hb] at hother
      exact hother.elim

theorem Lost.commit (h : Lost init c) {r a : Int} (hi : c.phase i = .holding r a) :
    Lost init (c.put i (.committed r a)) := by
  have hbound := h.bound i
  rw [hi] at hbound
  have hphase : ∀ j b, (c.put i (.committed r a)).phase j = .written b ↔ c.phase j = .written b := by
    refine forall_client i (fun b => ?_) (fun b => ?_)
    · rw [Cell.phase_put_self, hi]
      exact ⟨nofun, nofun⟩
    · rw [Cell.phase_put_not]
  refine ⟨forall_client i ?_ ?_, fun j b hj => ?_⟩
  · rwa [Cell.phase_put_self]
  · rw [Cell.phase_put_not]
    exact h.bound (!i)
  · obtain ⟨k, b', hk, hv⟩ := h.value j b ((hphase j b).mp hj)
    exact ⟨k, b', (hphase k b').mpr hk, hv⟩

theorem Lost.write (h : Lost init c) {r a : Int} (hi : c.phase i = .committed r a) :
    Lost init { c.put i (.written a) with value := r - a } := by
  have hbound := h.bound i
  rw [hi] at hbound
  have hself : (c.put i (.written a)).phase i = .written a := c.phase_put_self i _
  refine ⟨forall_client i ?_ ?_, fun j b hj => ⟨i, a, hself, by rw [hbound.1]⟩⟩
  · change Bound init ((c.put i (.written a)).phase i)
    rw [hself]
    exact hbound.2
  · change Bound init ((c.put i (.written a)).phase (!i))
    rw [Cell.phase_put_not]
    exact h.bound (!i)

theorem Lost.move (h : Lost init c) (hm : Move c i c') : Lost init c' := by
  have hbound := h.bound i
  cases hm with
  | stay => exact h
  | decline hi => rw [hi] at hbound; exact hbound.elim
  | read hi => rw [hi] at hbound; exact hbound.elim
  | commit hi => exact h.commit hi
  | write hi => exact h.write hi

theorem Lost.overlap (h : Lost init c) (ho : Overlap c i c') : Lost init c' := by
  have hbound := h.bound i
  cases ho with
  | read hi => rw [hi] at hbound; exact hbound.elim

theorem Lost.not_exact (h : Lost init c) (hrest : ∀ i, ¬ (c.phase i).Active) :
    c.value ≠ init - c.taken := by
  have hwrit : ∀ i, ∃ a, c.phase i = .written a ∧ 0 < a := by
    intro i
    have hbound := h.bound i
    have hi := hrest i
    cases hph : c.phase i with
    | written a => rw [hph] at hbound; exact ⟨a, rfl, hbound⟩
    | holding r a => rw [hph] at hi; exact absurd trivial hi
    | committed r a => rw [hph] at hi; exact absurd trivial hi
    | idle => rw [hph] at hbound; exact hbound.elim
    | out => rw [hph] at hbound; exact hbound.elim
  obtain ⟨a, ha, -⟩ := hwrit true
  obtain ⟨j, b, hj, hv⟩ := h.value true a ha
  obtain ⟨b', hother, hpos⟩ := hwrit (!j)
  rw [hv, c.taken_eq j, hj, hother]
  simp only [Phase.taken]
  omega

end Rgnr8.Lib.WriteBack
