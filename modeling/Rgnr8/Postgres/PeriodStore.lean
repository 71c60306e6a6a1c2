import Rgnr8.Kernel.Periods
import Rgnr8.Lib.Run

/-! The durable period store: one `ledger_period` row a (tenant, period), whose status says an
individual lock, a watermark or an explicit re-open. A missing row means no word of its own. -/

namespace Rgnr8.Postgres
open Lib Kernel

inductive RowStatus where
  | opened | locked | lockedThrough
  deriving DecidableEq

structure SqlPeriodStore (T P : Type) where
  rows : OrderedMap (T × P) RowStatus

namespace SqlPeriodStore
variable {T P : Type} [DecidableEq T] [LinearOrder P]

def empty : SqlPeriodStore T P := ⟨.empty⟩

/-- The `EXISTS` of the status query. -/
def watermarked (s : SqlPeriodStore T P) (tenant : T) (period : P) : Bool :=
  s.rows.entries.any fun r => r.1.1 = tenant ∧ r.2 = .lockedThrough ∧ period ≤ r.1.2

def status (s : SqlPeriodStore T P) (tenant : T) (period : P) : PeriodStatus :=
  match s.rows.get? (tenant, period) with
  -- an explicit OPEN row is a re-open exception that overrides a watermark
  | some .opened => .opened
  | some .locked | some .lockedThrough => .locked
  | none => if s.watermarked tenant period then .locked else .opened

def lock (s : SqlPeriodStore T P) (tenant : T) (period : P) : SqlPeriodStore T P :=
  ⟨s.rows.set (tenant, period) .locked⟩

def lockThrough (s : SqlPeriodStore T P) (tenant : T) (period : P) : SqlPeriodStore T P :=
  ⟨(s.rows.set (tenant, period) .lockedThrough).filter fun key status =>
    ¬ (key.1 = tenant ∧ status = .opened ∧ key.2 ≤ period)⟩

def unlock (s : SqlPeriodStore T P) (tenant : T) (period : P) : SqlPeriodStore T P :=
  ⟨s.rows.set (tenant, period) .opened⟩

def apply (s : SqlPeriodStore T P) : PeriodOp T P → SqlPeriodStore T P
  | .lock t p => s.lock t p
  | .lockThrough t p => s.lockThrough t p
  | .unlock t p => s.unlock t p

def row (s : SqlPeriodStore T P) (t : T) (p : P) : Option RowStatus := s.rows.get? (t, p)

variable {p : P} {s : SqlPeriodStore T P} {t : T}

theorem watermarked_iff :
    s.watermarked t p = true ↔ ∃ q, s.row t q = some .lockedThrough ∧ p ≤ q := by
  simp only [watermarked, row, List.any_eq_true, decide_eq_true_eq, ← OrderedMap.mem_entries]
  constructor
  · rintro ⟨⟨⟨t', q⟩, st⟩, hm, rfl, rfl, hq⟩
    exact ⟨q, hm, hq⟩
  · rintro ⟨q, hm, hq⟩
    exact ⟨_, hm, rfl, rfl, hq⟩

theorem status_of_opened (h : s.row t p = some .opened) : s.status t p = .opened := by
  rw [row] at h
  simp only [status, h]

theorem status_of_locked (h : s.row t p = some .locked ∨ s.row t p = some .lockedThrough) :
    s.status t p = .locked := by
  rw [row] at h
  rcases h with h | h <;> simp only [status, h]

theorem status_of_none (h : s.row t p = none) :
    s.status t p = .locked ↔ ∃ q, s.row t q = some .lockedThrough ∧ p ≤ q := by
  rw [← watermarked_iff]
  rw [row] at h
  cases hw : s.watermarked t p <;> simp [status, h, hw]

theorem row_lock (s : SqlPeriodStore T P) (t t' : T) (p q : P) :
    (s.lock t p).row t' q = if (t', q) = (t, p) then some .locked else s.row t' q :=
  OrderedMap.get?_set ..

theorem row_unlock (s : SqlPeriodStore T P) (t t' : T) (p q : P) :
    (s.unlock t p).row t' q = if (t', q) = (t, p) then some .opened else s.row t' q :=
  OrderedMap.get?_set ..

theorem row_lockThrough (s : SqlPeriodStore T P) (t t' : T) (p q : P) :
    (s.lockThrough t p).row t' q =
      if (t', q) = (t, p) then some .lockedThrough
      else if t' = t ∧ s.row t' q = some .opened ∧ q ≤ p then none else s.row t' q := by
  have hget := (OrderedMap.get?_filter (s.rows.set (t, p) .lockedThrough) (fun key status =>
    ¬ (key.1 = t ∧ status = .opened ∧ key.2 ≤ p)) (t', q))
  rw [OrderedMap.get?_set] at hget
  refine hget.trans ?_
  by_cases h : (t', q) = (t, p)
  · simp [h]
  · rw [if_neg h, if_neg h]
    by_cases hd : t' = t ∧ s.row t' q = some .opened ∧ q ≤ p
    · rw [if_pos hd, ← row, hd.2.1]
      simp [hd.1, hd.2.2]
    · rw [if_neg hd]
      refine Option.ext fun st => Option.filter_eq_some_iff.trans ⟨And.left, fun hst => ⟨hst, ?_⟩⟩
      rw [decide_eq_true_eq]
      rintro ⟨ht, rfl, hq⟩
      exact hd ⟨ht, hst, hq⟩

theorem row_lockThrough_mark {t' : T} {q : P} : (s.lockThrough t p).row t' q = some .lockedThrough ↔
      (t', q) = (t, p) ∨ s.row t' q = some .lockedThrough := by
  rw [row_lockThrough]
  split_ifs with h1 h2
  · simp [h1]
  · simp [h1, h2.2.1]
  · simp [h1]

theorem status_lock (s : SqlPeriodStore T P) (t : T) (p : P) : (s.lock t p).status t p = .locked :=
  status_of_locked (.inl (by rw [row_lock, if_pos rfl]))

theorem status_lockThrough (s : SqlPeriodStore T P) (t : T) {q : P} (h : p ≤ q) :
    (s.lockThrough t q).status t p = .locked := by
  have hmark : (s.lockThrough t q).row t q = some .lockedThrough :=
    row_lockThrough_mark.mpr (.inl rfl)
  cases hr : (s.lockThrough t q).row t p with
  | none => exact (status_of_none hr).mpr ⟨q, hmark, h⟩
  | some st => cases st with
    | opened =>
      by_cases hpq : (t, p) = (t, q)
      · rw [row_lockThrough, if_pos hpq] at hr
        cases hr
      · rw [row_lockThrough, if_neg hpq] at hr
        split_ifs at hr with hd
        exact absurd ⟨rfl, hr, h⟩ hd
    | locked => exact status_of_locked (.inl hr)
    | lockedThrough => exact status_of_locked (.inr hr)

end SqlPeriodStore

instance : PeriodStore (SqlPeriodStore TenantId PeriodKey) where
  status := SqlPeriodStore.status
  lock := SqlPeriodStore.lock
  lockThrough := SqlPeriodStore.lockThrough
  unlock := SqlPeriodStore.unlock
  status_lock := SqlPeriodStore.status_lock
  status_lockThrough s t _ _ h := SqlPeriodStore.status_lockThrough s t h

end Rgnr8.Postgres

/-! What one operation on `ledger_period` does to the other periods. The watermark has no row of
its own: it shares the row of its month, and an upsert there can lift it. -/

namespace Rgnr8.Postgres.SqlPeriodStore
open Lib Kernel
variable {T P : Type} [DecidableEq T] [LinearOrder P]

def KeepsSeals (s s' : SqlPeriodStore T P) : PeriodOp T P → Prop
  | .lock _ _ | .lockThrough _ _ => ∀ t q, s.status t q = .locked → s'.status t q = .locked
  | .unlock t p => ∀ t' q, (t', q) ≠ (t, p) → s'.status t' q = s.status t' q

/-- Every earlier period without a row of its own that the watermark of `p` seals is sealed by
another watermark as well. -/
def Spare (s : SqlPeriodStore T P) (t : T) (p : P) : Prop :=
  s.row t p = some .lockedThrough → ∀ q, q < p → s.row t q = none →
    ∃ p', p' ≠ p ∧ s.row t p' = some .lockedThrough ∧ q ≤ p'

/-- The operation does not overwrite a watermark that some period still depends on. -/
def MarkSpared (s : SqlPeriodStore T P) : PeriodOp T P → Prop
  | .lock t p | .unlock t p => s.Spare t p
  | .lockThrough _ _ => True

/-- `s'` differs from `s` in the row of `(t, p)` alone, which is no watermark any more. -/
structure Overwrites (s s' : SqlPeriodStore T P) (t : T) (p : P) : Prop where
  self : s'.row t p ≠ none ∧ s'.row t p ≠ some .lockedThrough
  other : ∀ t' q, (t', q) ≠ (t, p) → s'.row t' q = s.row t' q

theorem overwrites_lock (s : SqlPeriodStore T P) (t : T) (p : P) :
    Overwrites s (s.lock t p) t p where
  self := by simp [row_lock]
  other t' q h := by rw [row_lock, if_neg h]

theorem overwrites_unlock (s : SqlPeriodStore T P) (t : T) (p : P) :
    Overwrites s (s.unlock t p) t p where
  self := by simp [row_unlock]
  other t' q h := by rw [row_unlock, if_neg h]

variable {p : P} {s s' : SqlPeriodStore T P} {t t' : T}

theorem Overwrites.mark_iff {p' : P} (h : Overwrites s s' t p) :
    s'.row t' p' = some .lockedThrough ↔
      (t', p') ≠ (t, p) ∧ s.row t' p' = some .lockedThrough := by
  by_cases he : (t', p') = (t, p)
  · obtain ⟨rfl, rfl⟩ := Prod.mk.injEq .. ▸ he
    exact ⟨fun hm => absurd hm h.self.2, fun hm => absurd rfl hm.1⟩
  · rw [h.other _ _ he]
    exact ⟨fun hm => ⟨he, hm⟩, And.right⟩

theorem Overwrites.status_eq {q : P} (h : Overwrites s s' t p) (hs : s.Spare t p)
    (hne : (t', q) ≠ (t, p)) : s'.status t' q = s.status t' q := by
  have hrow := h.other t' q hne
  cases hr : s.row t' q with
  | some st => cases st with
    | opened => rw [status_of_opened hr, status_of_opened (hrow.trans hr)]
    | locked => rw [status_of_locked (.inl hr), status_of_locked (.inl (hrow.trans hr))]
    | lockedThrough => rw [status_of_locked (.inr hr), status_of_locked (.inr (hrow.trans hr))]
  | none =>
    have hiff : s'.status t' q = .locked ↔ s.status t' q = .locked := by
      rw [status_of_none (hrow.trans hr), status_of_none hr]
      constructor
      · rintro ⟨p', hm, hle⟩
        exact ⟨p', (h.mark_iff.mp hm).2, hle⟩
      · rintro ⟨p', hm, hle⟩
        by_cases he : (t', p') = (t, p)
        -- the mark that is gone sealed `q`, so another one does too
        · obtain ⟨rfl, rfl⟩ := Prod.mk.injEq .. ▸ he
          have hlt : q < p' := lt_of_le_of_ne hle fun hq => hne (by rw [hq])
          obtain ⟨p'', hp, hm', hle'⟩ := hs hm q hlt hr
          exact ⟨p'', h.mark_iff.mpr ⟨fun he' => hp (Prod.mk.inj he').2, hm'⟩, hle'⟩
        · exact ⟨p', h.mark_iff.mpr ⟨he, hm⟩, hle⟩
    cases h1 : s.status t' q <;> cases h2 : s'.status t' q <;> simp_all

theorem Overwrites.reopens (h : Overwrites s s' t p) (hs : ¬ s.Spare t p) :
    ∃ q, q < p ∧ s.row t q = none ∧ s.row t p = some .lockedThrough ∧
      s.status t q = .locked ∧ s'.status t q ≠ .locked := by
  simp only [Spare, Classical.not_imp, not_forall, not_exists, not_and] at hs
  obtain ⟨hmark, q, hlt, hnone, hno⟩ := hs
  have hne : (t, q) ≠ (t, p) := fun he => hlt.ne (Prod.mk.inj he).2
  refine ⟨q, hlt, hnone, hmark, (status_of_none hnone).mpr ⟨p, hmark, hlt.le⟩, fun hl => ?_⟩
  obtain ⟨p', hm, hle⟩ := (status_of_none ((h.other t q hne).trans hnone)).mp hl
  obtain ⟨hp, hm⟩ := h.mark_iff.mp hm
  exact hno p' (fun he => hp (by rw [he])) hm hle

theorem locked_lockThrough {q : P} (h : s.status t' q = .locked) :
    (s.lockThrough t p).status t' q = .locked := by
  by_cases ht : t' = t ∧ q ≤ p
  · rw [ht.1]
    exact status_lockThrough s t ht.2
  have hne : (t', q) ≠ (t, p) := fun he =>
    ht ⟨(Prod.mk.inj he).1, ((Prod.mk.inj he).2 ▸ le_refl q)⟩
  have hrow : (s.lockThrough t p).row t' q = s.row t' q := by
    rw [row_lockThrough, if_neg hne, if_neg fun hd => ht ⟨hd.1, hd.2.2⟩]
  cases hr : s.row t' q with
  | some st => cases st with
    | opened => rw [status_of_opened hr] at h; cases h
    | locked => exact status_of_locked (.inl (hrow.trans hr))
    | lockedThrough => exact status_of_locked (.inr (hrow.trans hr))
  | none =>
    obtain ⟨p', hm, hle⟩ := (status_of_none hr).mp h
    exact (status_of_none (hrow.trans hr)).mpr ⟨p', row_lockThrough_mark.mpr (.inr hm), hle⟩

theorem keepsSeals_iff (s : SqlPeriodStore T P) (op : PeriodOp T P) :
    KeepsSeals s (s.apply op) op ↔ s.MarkSpared op := by
  cases op with
  | lockThrough t p => exact ⟨fun _ => trivial, fun _ _ _ h => locked_lockThrough h⟩
  | lock t p =>
    constructor
    · intro h
      by_contra hs
      obtain ⟨q, -, -, -, h1, h2⟩ := (overwrites_lock s t p).reopens hs
      exact h2 (h t q h1)
    · intro hs t' q h
      by_cases hne : (t', q) = (t, p)
      · obtain ⟨rfl, rfl⟩ := Prod.mk.injEq .. ▸ hne
        exact status_lock s t' q
      · exact ((overwrites_lock s t p).status_eq hs hne).trans h
  | unlock t p =>
    constructor
    · intro h
      by_contra hs
      obtain ⟨q, hlt, -, -, h1, h2⟩ := (overwrites_unlock s t p).reopens hs
      exact h2 ((h t q fun he => hlt.ne (Prod.mk.inj he).2).trans h1)
    · exact fun hs t' q hne => (overwrites_unlock s t p).status_eq hs hne

/-- In every reachable table the next operation keeps the seals exactly when it spares the mark. -/
theorem reachable_keepsSeals_iff (ops : List (PeriodOp T P)) (op : PeriodOp T P) :
    KeepsSeals (ops.foldl apply empty) ((ops.foldl apply empty).apply op) op ↔
      (ops.foldl apply empty).MarkSpared op := keepsSeals_iff _ _

theorem lock_of_watermark_reopens : ¬ KeepsSeals
    (empty.apply (.lockThrough "acme" "2026-08"))
    ((empty.apply (.lockThrough "acme" "2026-08")).apply (.lock "acme" "2026-08"))
    (.lock "acme" "2026-08") := by
  intro h
  have hopen := h "acme" "2026-07" (by decide)
  revert hopen
  decide

end Rgnr8.Postgres.SqlPeriodStore

/-! The two period stores side by side. `Sim` ties each status row to the sets and the single
watermark of the in-memory store; a step that a row cannot follow is one that `InStep` excludes. -/

namespace Rgnr8.Postgres
open Lib Kernel
variable {T P : Type} [DecidableEq T] [LinearOrder P]

abbrev Both (T P : Type) := InMemoryPeriodStore T P × SqlPeriodStore T P

variable (b : Both T P)

def stepBoth (op : PeriodOp T P) : Both T P := (b.1.apply op, b.2.apply op)

def Agree : Prop := ∀ t q, b.1.status t q = b.2.status t q

/-- No operation overwrites a watermark row that others depend on, and no `lockThrough` below the
watermark leaves a re-open row above it. -/
def InStep : PeriodOp T P → Prop
  | .lock t p | .unlock t p => b.2.Spare t p
  | .lockThrough t p => ∀ q, p < q → b.1.Marked t q → b.2.row t q ≠ some .opened

/-- A period under some `LOCKED_THROUGH` row of its tenant. -/
def SqlPeriodStore.Covered (s : SqlPeriodStore T P) (t : T) (q : P) : Prop :=
  ∃ p, s.row t p = some .lockedThrough ∧ q ≤ p

def Sim (m : InMemoryPeriodStore T P) (s : SqlPeriodStore T P) (t : T) (q : P) : Prop :=
  match s.row t q with
  | none => (t, q) ∉ m.reopened ∧ (t, q) ∉ m.locked ∧ (s.Covered t q ↔ m.Marked t q)
  | some .opened => (t, q) ∉ m.locked ∧ ((t, q) ∈ m.reopened ∨ ¬ m.Marked t q)
  | some .locked => (t, q) ∉ m.reopened ∧ ((t, q) ∈ m.locked ∨ m.Marked t q)
  | some .lockedThrough => (t, q) ∉ m.reopened ∧ m.Marked t q

variable {m m' : InMemoryPeriodStore T P} {s s' : SqlPeriodStore T P} {t : T} {p q : P}

theorem status_eq_of_sim (h : Sim m s t q) : m.status t q = s.status t q := by
  have hiff : m.status t q = .locked ↔ s.status t q = .locked := by
    rw [InMemoryPeriodStore.status_eq_locked_iff]
    rw [Sim] at h
    cases hr : s.row t q with
    | none =>
      rw [hr] at h
      obtain ⟨h1, h2, h3⟩ := h
      rw [SqlPeriodStore.status_of_none hr, ← h3]
      simp only [h1, h2, SqlPeriodStore.Covered, not_false_eq_true, true_and, false_or]
    | some st => cases st with
      | opened =>
        rw [hr] at h
        obtain ⟨h1, h2⟩ := h
        simp only [SqlPeriodStore.status_of_opened hr, h1, false_or, reduceCtorEq, iff_false]
        exact fun hl => h2.elim hl.1 fun hn => hn hl.2
      | locked =>
        rw [hr] at h
        exact iff_of_true h (SqlPeriodStore.status_of_locked (.inl hr))
      | lockedThrough =>
        rw [hr] at h
        exact iff_of_true ⟨h.1, .inr h.2⟩ (SqlPeriodStore.status_of_locked (.inr hr))
  cases h1 : m.status t q <;> cases h2 : s.status t q <;> simp_all

theorem Sim.frame (h : Sim m s t q) (hrow : s'.row t q = s.row t q)
    (hcov : s.row t q = none → (s'.Covered t q ↔ s.Covered t q))
    (hreop : (t, q) ∈ m'.reopened ↔ (t, q) ∈ m.reopened)
    (hlock : (t, q) ∈ m'.locked ↔ (t, q) ∈ m.locked)
    (hmark : m'.Marked t q ↔ m.Marked t q) : Sim m' s' t q := by
  rw [Sim] at h ⊢
  rw [hrow]
  cases hr : s.row t q with
  | none => rw [hr] at h; simpa only [hreop, hlock, hmark, hcov hr] using h
  | some st => rw [hr] at h; cases st <;> simpa only [hreop, hlock, hmark] using h

theorem covered_of_overwrites {t' : T} (h : SqlPeriodStore.Overwrites s s' t p)
    (hs : s.Spare t p) (hne : (t', q) ≠ (t, p)) (hr : s.row t' q = none) :
    s'.Covered t' q ↔ s.Covered t' q := by
  rw [SqlPeriodStore.Covered, ← SqlPeriodStore.status_of_none ((h.other t' q hne).trans hr),
    h.status_eq hs hne, SqlPeriodStore.status_of_none hr, SqlPeriodStore.Covered]

theorem sim_lock (h : ∀ t q, Sim m s t q) (hs : s.Spare t p) (t' : T) (q : P) :
    Sim (m.lock t p) (s.lock t p) t' q := by
  by_cases hne : (t', q) = (t, p)
  · rw [Sim, SqlPeriodStore.row_lock, if_pos hne, hne]
    exact ⟨Finset.notMem_erase (t, p) _, .inl (Finset.mem_insert_self ..)⟩
  · have hov := SqlPeriodStore.overwrites_lock s t p
    exact (h t' q).frame (hov.other t' q hne) (covered_of_overwrites hov hs hne)
      (by simp [InMemoryPeriodStore.lock, Finset.mem_erase, hne])
      (by simp [InMemoryPeriodStore.lock, Finset.mem_insert, hne]) Iff.rfl

theorem sim_unlock (h : ∀ t q, Sim m s t q) (hs : s.Spare t p) (t' : T) (q : P) :
    Sim (m.unlock t p) (s.unlock t p) t' q := by
  by_cases hne : (t', q) = (t, p)
  · obtain ⟨rfl, rfl⟩ := Prod.mk.injEq .. ▸ hne
    rw [Sim, SqlPeriodStore.row_unlock, if_pos rfl]
    refine ⟨Finset.notMem_erase (t', q) _, ?_⟩
    by_cases hm : m.Marked t' q
    · exact .inl (InMemoryPeriodStore.mem_reopened_unlock.mpr (.inr ⟨rfl, hm⟩))
    · exact .inr hm
  · have hov := SqlPeriodStore.overwrites_unlock s t p
    refine (h t' q).frame (hov.other t' q hne) (covered_of_overwrites hov hs hne) ?_
      (by simp [InMemoryPeriodStore.unlock, Finset.mem_erase, hne]) Iff.rfl
    simp [InMemoryPeriodStore.mem_reopened_unlock, hne]

theorem covered_lockThrough {t' : T} :
    (s.lockThrough t p).Covered t' q ↔ (t' = t ∧ q ≤ p) ∨ s.Covered t' q := by
  simp only [SqlPeriodStore.Covered, SqlPeriodStore.row_lockThrough_mark, Prod.mk.injEq, or_and_right,
    exists_or]
  refine or_congr_left ⟨?_, ?_⟩
  · rintro ⟨p', ⟨ht, rfl⟩, hq⟩
    exact ⟨ht, hq⟩
  · rintro ⟨ht, hq⟩
    exact ⟨p, ⟨ht, rfl⟩, hq⟩

theorem sim_lockThrough_le (h : Sim m s t q) (hq : q ≤ p) :
    Sim (m.lockThrough t p) (s.lockThrough t p) t q := by
  have hreop : (t, q) ∉ (m.lockThrough t p).reopened := fun hr =>
    (InMemoryPeriodStore.mem_reopened_lockThrough.mp hr).2 ⟨rfl, .inl hq⟩
  have hmark : (m.lockThrough t p).Marked t q :=
    InMemoryPeriodStore.marked_lockThrough.mpr (.inl ⟨rfl, hq⟩)
  have hcov : (s.lockThrough t p).Covered t q := covered_lockThrough.mpr (.inl ⟨rfl, hq⟩)
  rw [Sim] at h ⊢
  rw [SqlPeriodStore.row_lockThrough]
  split_ifs with he ho
  · exact ⟨hreop, hmark⟩
  · rw [ho.2.1] at h
    exact ⟨hreop, h.1, iff_of_true hcov hmark⟩
  · cases hr : s.row t q with
    | none => rw [hr] at h; exact ⟨hreop, h.2.1, iff_of_true hcov hmark⟩
    | some st => cases st with
      | opened => exact absurd ⟨rfl, hr, hq⟩ ho
      | locked => exact ⟨hreop, .inr hmark⟩
      | lockedThrough => exact ⟨hreop, hmark⟩

/-- Periods above the new mark, and other tenants: nothing moves, unless the old watermark of the
in-memory store clears an exception there. -/
theorem sim_lockThrough_gt {t' : T} (h : Sim m s t' q) (hq : ¬ (t' = t ∧ q ≤ p))
    (ho : t' = t → m.Marked t q → s.row t q ≠ some .opened) :
    Sim (m.lockThrough t p) (s.lockThrough t p) t' q := by
  have hrow : (s.lockThrough t p).row t' q = s.row t' q := by
    rw [SqlPeriodStore.row_lockThrough, if_neg fun he => hq ?_, if_neg fun hd => hq ⟨hd.1, hd.2.2⟩]
    exact ⟨(Prod.mk.inj he).1, (Prod.mk.inj he).2.le⟩
  refine h.frame hrow (fun _ => covered_lockThrough.trans (or_iff_right hq)) ?_ Iff.rfl
    (InMemoryPeriodStore.marked_lockThrough.trans (or_iff_right hq))
  rw [InMemoryPeriodStore.mem_reopened_lockThrough]
  refine ⟨And.left, fun hr => ⟨hr, ?_⟩⟩
  rintro ⟨rfl, hle | hm⟩
  · exact hq ⟨rfl, hle⟩
  · -- a re-open exception under the watermark has an OPEN row
    rw [Sim] at h
    cases hst : s.row t' q with
    | none => rw [hst] at h; exact h.1 hr
    | some st => cases st with
      | opened => exact ho rfl hm hst
      | locked => rw [hst] at h; exact h.1 hr
      | lockedThrough => rw [hst] at h; exact h.1 hr

theorem sim_stepBoth {b : Both T P} (h : ∀ t q, Sim b.1 b.2 t q) {op : PeriodOp T P}
    (hok : InStep b op) (t' : T) (q : P) : Sim (stepBoth b op).1 (stepBoth b op).2 t' q := by
  cases op with
  | lock t p => exact sim_lock h hok t' q
  | unlock t p => exact sim_unlock h hok t' q
  | lockThrough t p =>
    by_cases hq : t' = t ∧ q ≤ p
    · obtain ⟨rfl, hle⟩ := hq
      exact sim_lockThrough_le (h t' q) hle
    · refine sim_lockThrough_gt (h t' q) hq ?_
      rintro rfl
      exact hok q (not_le.mp fun hle => hq ⟨rfl, hle⟩)

theorem not_agree_of_overwrites (h : ∀ t q, Sim m s t q) (hov : SqlPeriodStore.Overwrites s s' t p)
    (hs : ¬ s.Spare t p) (hm : ∀ q, q < p → m'.status t q = m.status t q) :
    ¬ Agree (m', s') := by
  obtain ⟨q, hlt, -, -, hlkd, hopen⟩ := hov.reopens hs
  intro ha
  refine hopen ((ha t q).symm.trans ((hm q hlt).trans ((status_eq_of_sim (h t q)).trans hlkd)))

theorem not_agree_stepBoth {b : Both T P} (h : ∀ t q, Sim b.1 b.2 t q) {op : PeriodOp T P}
    (hok : ¬ InStep b op) : ¬ Agree (stepBoth b op) := by
  cases op with
  | lock t p =>
    exact not_agree_of_overwrites h (SqlPeriodStore.overwrites_lock ..) hok fun q hlt =>
      b.1.status_lock_ne fun he => hlt.ne (Prod.mk.inj he).2
  | unlock t p =>
    exact not_agree_of_overwrites h (SqlPeriodStore.overwrites_unlock ..) hok fun q hlt =>
      b.1.status_unlock_ne fun he => hlt.ne (Prod.mk.inj he).2
  | lockThrough t p =>
    simp only [InStep, not_forall, not_not] at hok
    obtain ⟨q, hlt, hm, hr⟩ := hok
    intro ha
    -- the row above the new mark stays OPEN, the exception under the old one is cleared
    have hrow : (b.2.lockThrough t p).row t q = some .opened := by
      rw [SqlPeriodStore.row_lockThrough, if_neg fun he => hlt.ne' (Prod.mk.inj he).2,
        if_neg fun hd => hlt.not_ge hd.2.2, hr]
    have hsql := SqlPeriodStore.status_of_opened hrow
    have hmem : (b.1.lockThrough t p).status t q = .locked := by
      rw [InMemoryPeriodStore.status_eq_locked_iff, InMemoryPeriodStore.mem_reopened_lockThrough,
        InMemoryPeriodStore.marked_lockThrough]
      exact ⟨fun hx => hx.2 ⟨rfl, .inr hm⟩, .inr (.inr hm)⟩
    exact absurd (hmem.symm.trans ((ha t q).trans hsql)) (by decide)

theorem sim_empty (t : T) (q : P) : Sim (.empty : InMemoryPeriodStore T P) .empty t q := by
  refine ⟨Finset.notMem_empty _, Finset.notMem_empty _, iff_of_false ?_ ?_⟩
  · rintro ⟨p, hp, -⟩
    cases hp
  · rintro ⟨mark, hmark, -⟩
    cases hmark

/-- The stores agree throughout a run exactly when every step of it is one both can follow. -/
theorem along_agree_iff (ops : List (PeriodOp T P)) :
    Along stepBoth Agree (.empty, .empty) ops ↔ EachStep stepBoth InStep (.empty, .empty) ops :=
  along_iff_eachStep (J := fun b => ∀ t q, Sim b.1 b.2 t q)
    (fun _ _ h _ hok => ⟨sim_stepBoth h hok, fun t q => status_eq_of_sim (sim_stepBoth h hok t q)⟩)
    (fun _ _ h _ hok => not_agree_stepBoth h hok) sim_empty
    (fun t q => status_eq_of_sim (sim_empty t q)) ops

theorem lock_of_watermark_disagrees : ¬ Agree
    ([.lockThrough "acme" "2026-08", .lock "acme" "2026-08"].foldl stepBoth
      ((.empty, .empty) : Both TenantId PeriodKey)) := by
  intro h
  have hjuly := h "acme" "2026-07"
  revert hjuly
  decide

end Rgnr8.Postgres
