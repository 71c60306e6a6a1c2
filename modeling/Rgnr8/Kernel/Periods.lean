import Rgnr8.Kernel.Types
import Mathlib.Data.Finset.Insert
import Mathlib.Data.Finset.Filter
import Mathlib.Data.Finset.Erase
import Mathlib.Data.String.Basic

/-! Period locks. The posting engine sees a store only through `PeriodStore`; the two facts it may
rely on are part of the interface. `InMemoryPeriodStore` is the process-local implementation. -/

namespace Rgnr8.Kernel
open Lib

inductive PeriodStatus where
  | opened | locked
  deriving DecidableEq

class PeriodStore (π : Type) where
  status : π → TenantId → PeriodKey → PeriodStatus
  lock : π → TenantId → PeriodKey → π
  lockThrough : π → TenantId → PeriodKey → π
  unlock : π → TenantId → PeriodKey → π
  status_lock : ∀ s t p, status (lock s t p) t p = .locked
  status_lockThrough : ∀ s t p q, p ≤ q → status (lockThrough s t q) t p = .locked

inductive PeriodOp (T P : Type) where
  | lock (tenant : T) (period : P)
  | lockThrough (tenant : T) (period : P)
  | unlock (tenant : T) (period : P)

/-- Keys are pairs: the source joins tenant and period with a NUL, which neither of them holds. -/
structure InMemoryPeriodStore (T P : Type) where
  locked : Finset (T × P)
  through : OrderedMap T P
  reopened : Finset (T × P)

namespace InMemoryPeriodStore
variable {T P : Type} [DecidableEq T] [LinearOrder P]

def empty : InMemoryPeriodStore T P := ⟨∅, .empty, ∅⟩

def status (s : InMemoryPeriodStore T P) (tenant : T) (period : P) : PeriodStatus :=
  if (tenant, period) ∈ s.reopened then .opened
  else if (tenant, period) ∈ s.locked then .locked
  else match s.through.get? tenant with
    | some mark => if period ≤ mark then .locked else .opened
    | none => .opened

def lock (s : InMemoryPeriodStore T P) (tenant : T) (period : P) : InMemoryPeriodStore T P :=
  { s with
    locked := insert (tenant, period) s.locked
    reopened := s.reopened.erase (tenant, period) }

/-- The mark only ever moves up. -/
def advance (through : OrderedMap T P) (tenant : T) (period : P) : OrderedMap T P :=
  match through.get? tenant with
  | some current => if current < period then through.set tenant period else through
  | none => through.set tenant period

def lockThrough (s : InMemoryPeriodStore T P) (tenant : T) (period : P) :
    InMemoryPeriodStore T P :=
  { s with
    through := advance s.through tenant period
    -- re-sealing clears the re-open exceptions at or below the mark
    reopened := s.reopened.filter fun key =>
      ¬ (key.1 = tenant ∧ ∃ mark ∈ (advance s.through tenant period).get? tenant, key.2 ≤ mark) }

def unlock (s : InMemoryPeriodStore T P) (tenant : T) (period : P) : InMemoryPeriodStore T P :=
  { s with
    locked := s.locked.erase (tenant, period)
    reopened := match s.through.get? tenant with
      | some mark => if period ≤ mark then insert (tenant, period) s.reopened else s.reopened
      | none => s.reopened }

def apply (s : InMemoryPeriodStore T P) : PeriodOp T P → InMemoryPeriodStore T P
  | .lock t p => s.lock t p
  | .lockThrough t p => s.lockThrough t p
  | .unlock t p => s.unlock t p

/-- At or below the watermark of the tenant. -/
def Marked (s : InMemoryPeriodStore T P) (t : T) (p : P) : Prop :=
  ∃ mark, s.through.get? t = some mark ∧ p ≤ mark

variable {s : InMemoryPeriodStore T P} {p q : P} {t t' : T}

theorem status_eq_locked_iff :
    s.status t p = .locked ↔ (t, p) ∉ s.reopened ∧ ((t, p) ∈ s.locked ∨ s.Marked t p) := by
  simp only [status, Marked]
  split_ifs with h1 h2
  · simp [h1]
  · simp [h1, h2]
  · cases hm : s.through.get? t with
    | none => simp [h2]
    | some mark => simp [h1, h2]

theorem get?_advance (through : OrderedMap T P) (t t' : T) (p : P) :
    (advance through t p).get? t' =
      if t' = t then some ((through.get? t).elim p (max p)) else through.get? t' := by
  cases h : through.get? t with
  | none => simp [advance, h]
  | some current =>
    by_cases hlt : current < p
    · simp [advance, h, hlt, max_eq_left hlt.le]
    · by_cases ht : t' = t
      · simp [advance, h, hlt, ht, max_eq_right (not_lt.mp hlt)]
      · simp [advance, h, hlt, ht]

theorem marked_lockThrough :
    (s.lockThrough t q).Marked t' p ↔ (t' = t ∧ p ≤ q) ∨ s.Marked t' p := by
  simp only [Marked, lockThrough, get?_advance]
  by_cases ht : t' = t
  · subst ht
    cases h : s.through.get? t' with
    | none => simp
    | some current => simp
  · simp [ht]

theorem mem_reopened_lockThrough : (t', p) ∈ (s.lockThrough t q).reopened ↔
      (t', p) ∈ s.reopened ∧ ¬ (t' = t ∧ (p ≤ q ∨ s.Marked t p)) := by
  have h : (s.lockThrough t q).Marked t p ↔ (p ≤ q ∨ s.Marked t p) := by
    simp only [marked_lockThrough, true_and]
  rw [← h]
  simp only [lockThrough, Finset.mem_filter, Marked, Option.mem_def]

theorem mem_reopened_unlock : (t', p) ∈ (s.unlock t q).reopened ↔
      (t', p) ∈ s.reopened ∨ ((t', p) = (t, q) ∧ s.Marked t q) := by
  cases h : s.through.get? t with
  | none => simp [unlock, Marked, h]
  | some mark =>
    by_cases hq : q ≤ mark
    · simp only [unlock, Marked, h, hq, if_true, Finset.mem_insert, Option.some.injEq,
        exists_eq_left', and_true]
      exact or_comm
    · simp [unlock, Marked, h, hq]

theorem status_lock (s : InMemoryPeriodStore T P) (t : T) (p : P) :
    (s.lock t p).status t p = .locked := by
  rw [status_eq_locked_iff]
  exact ⟨Finset.notMem_erase (t, p) s.reopened, .inl (Finset.mem_insert_self ..)⟩

theorem status_lockThrough (s : InMemoryPeriodStore T P) (t : T) (h : p ≤ q) :
    (s.lockThrough t q).status t p = .locked := by
  rw [status_eq_locked_iff, mem_reopened_lockThrough, marked_lockThrough]
  exact ⟨fun hr => hr.2 ⟨rfl, .inl h⟩, .inr (.inl ⟨rfl, h⟩)⟩

theorem status_lock_ne (s : InMemoryPeriodStore T P) (h : (t', q) ≠ (t, p)) :
    (s.lock t p).status t' q = s.status t' q := by
  simp only [status, lock, Finset.mem_erase, Finset.mem_insert, h, ne_eq, not_false_eq_true,
    true_and, false_or]

theorem status_unlock_ne (s : InMemoryPeriodStore T P) (h : (t', q) ≠ (t, p)) :
    (s.unlock t p).status t' q = s.status t' q := by
  have hreop : (t', q) ∈ (s.unlock t p).reopened ↔ (t', q) ∈ s.reopened := by
    rw [mem_reopened_unlock]
    exact or_iff_left fun hp => h hp.1
  simp only [status, hreop]
  simp only [unlock, Finset.mem_erase, h, ne_eq, not_false_eq_true, true_and]

end InMemoryPeriodStore

instance : PeriodStore (InMemoryPeriodStore TenantId PeriodKey) where
  status := InMemoryPeriodStore.status
  lock := InMemoryPeriodStore.lock
  lockThrough := InMemoryPeriodStore.lockThrough
  unlock := InMemoryPeriodStore.unlock
  status_lock := InMemoryPeriodStore.status_lock
  status_lockThrough s t _ _ h := InMemoryPeriodStore.status_lockThrough s t h

end Rgnr8.Kernel
