import Rgnr8.Lib.Run
import Rgnr8.Service.BankHistory

/-! What the two stores of bank history hold after any imports, and what days they cover. -/

namespace Rgnr8.Service.BankHistory
open Lib Lib.Js Fallible Kernel OrderedMap InMemoryBankHistoryStore Histories List Except

/-! What an accepted import is like. -/

structure HistoryImport.Proper (imp : HistoryImport) : Prop where
  start : imp.start ≠ ""
  ordered : ¬ imp.end_ < imp.start
  once : (imp.lines.map HistoryLine.id).Nodup
  inside : ∀ l ∈ imp.lines, imp.Inside l.date

namespace PgBankHistoryStore

def Has (s : PgBankHistoryStore) (t : TenantId) (l : HistoryLine) : Prop :=
  s.lineRows.get? (t, l.id) = some l

variable {s : PgBankHistoryStore} {tenant : TenantId}

end PgBankHistoryStore

/-! Days and windows. -/

/-- A text that is the text of a day of the calendar. -/
def IsDay (d : String) : Prop := ∃ days, isoDay days = some d

/-- No day lies between what is covered and the window. -/
def HistoryCoverage.Joins (c : HistoryCoverage) (imp : HistoryImport) : Prop :=
  c.from_ ≠ "" → ∀ d, IsDay d → ¬ (c.to_ < d ∧ d < imp.start) ∧ ¬ (imp.end_ < d ∧ d < c.from_)

def HistoryCoverage.Covers (c : HistoryCoverage) (d : String) : Prop :=
  c.from_ ≠ "" ∧ ¬ d < c.from_ ∧ ¬ c.to_ < d

variable {imp : HistoryImport} {l : HistoryLine} {s : PgBankHistoryStore} {t tenant : TenantId}

/-- Everything. -/
def anyLine : HistoryQuery := ⟨none, none, none⟩

theorem mem_values_of_tenant :
    l ∈ (s.lineRows.filter fun key _ => key.1 = t).values ↔ s.Has t l := by
  unfold values PgBankHistoryStore.Has
  rw [mem_map]
  constructor
  · rintro ⟨⟨⟨t', id⟩, l'⟩, hmem, rfl⟩
    rw [mem_entries, get?_filter, Option.filter_eq_some_iff] at hmem
    obtain ⟨hget, htenant⟩ := hmem
    obtain rfl : t' = t := of_decide_eq_true htenant
    rw [s.id_of_get hget]
    exact hget
  · intro hget
    refine ⟨((t, l.id), l), ?_, rfl⟩
    rw [mem_entries, get?_filter, Option.filter_eq_some_iff]
    exact ⟨hget, decide_eq_true rfl⟩

theorem nodup_values_of_tenant (s : PgBankHistoryStore) (t : TenantId) :
    ((s.lineRows.filter fun key _ => key.1 = t).values.map HistoryLine.id).Nodup := by
  have hrow : ∀ e ∈ (s.lineRows.filter fun key _ => key.1 = t).entries,
      e.1.1 = t ∧ e.2.id = e.1.2 := by
    rintro ⟨⟨t', id⟩, l⟩ he
    rw [mem_entries, get?_filter, Option.filter_eq_some_iff] at he
    exact ⟨of_decide_eq_true he.2, s.id_of_get he.1⟩
  have hkeys : (s.lineRows.filter fun key _ => key.1 = t).values.map HistoryLine.id =
      ((s.lineRows.filter fun key _ => key.1 = t).entries.map Prod.fst).map Prod.snd := by
    unfold values
    rw [map_map, map_map]
    exact map_congr_left fun e he => (hrow e he).2
  rw [hkeys]
  refine (s.lineRows.filter fun key _ => key.1 = t).nodup.map_on ?_
  intro a ha b hb hab
  obtain ⟨e, he, rfl⟩ := mem_map.mp ha
  obtain ⟨e', he', rfl⟩ := mem_map.mp hb
  exact Prod.ext ((hrow e he).1.trans (hrow e' he').1.symm) hab

theorem lines_perm {idLe : String → String → Bool} {m : InMemoryBankHistoryStore}
    (honce : ((m.rowsOf t).map HistoryLine.id).Nodup) (hrows : ∀ l, l ∈ m.rowsOf t ↔ s.Has t l)
    (q : HistoryQuery) : (m.lines t q).Perm (s.lines idLe t q) := by
  have hrowsP : (m.rowsOf t).Perm (s.lineRows.filter fun key _ => key.1 = t).values := by
    rw [perm_ext_iff_of_nodup honce.of_map (nodup_values_of_tenant s t).of_map]
    intro l
    rw [hrows, mem_values_of_tenant]
  unfold lines PgBankHistoryStore.lines
  exact (perm_insertionSort ..).trans
    ((hrowsP.filter _).trans (perm_insertionSort ..).symm)

/-! Imports that keep ids where they are and leave no day out. -/

structure Histories.Fits (s : Histories) (t : TenantId) (imp : HistoryImport) : Prop where
  storable : ∀ l ∈ imp.lines, Storable l = true
  stays : ∀ l ∈ imp.lines, ∀ k ∈ s.memory.rowsOf t, k.id = l.id → imp.Inside k.date
  joins : (s.memory.coverage t).Joins imp

def Histories.Allowed (s : Histories) (c : ImportCall) : Prop :=
  ∀ imp, importFromJson c.now c.data = .ok imp → s.Fits c.tenant imp

structure Histories.Kept (s : Histories) : Prop where
  rows : ∀ t l, l ∈ s.memory.rowsOf t ↔ s.tables.Has t l
  once : ∀ t, ((s.memory.rowsOf t).map HistoryLine.id).Nodup
  coverage : ∀ t, s.memory.coverage t = s.tables.coverage t
  ends : ∀ t, (s.memory.coverage t).to_ ≠ "" → (s.memory.coverage t).from_ ≠ ""
  covered : ∀ t d, IsDay d → (s.memory.coverage t).Covers d →
    ∃ i ∈ s.imports, i.1 = t ∧ i.2.Inside d

variable (m : InMemoryBankHistoryStore)

/-- What an import leaves in the two stores. -/
structure Histories.Replaced (idLe : String → String → Bool) (s : Histories) (tenant : TenantId)
    (imp : HistoryImport) (s' : Histories) : Prop where
  succeeds : s.tables.replaceWindow tenant imp = .ok s'.tables
  memory : ∀ t l, l ∈ s'.memory.lines t anyLine ↔
    l ∈ s.memory.lines t anyLine ∧ ¬ (t = tenant ∧ imp.Inside l.date) ∨ t = tenant ∧ l ∈ imp.lines
  tables : ∀ t l, l ∈ s'.tables.lines idLe t anyLine ↔ l ∈ s.tables.lines idLe t anyLine ∧
    ¬ (t = tenant ∧ imp.Inside l.date) ∨ t = tenant ∧ l ∈ imp.lines

theorem fits_anyLine (l : HistoryLine) : fits l anyLine = true := rfl

/-- Every id is stored once, the stores report the same lines and the same coverage, and each day
covered was inside a window. -/
structure Histories.Sound (idLe : String → String → Bool) (s : Histories) : Prop where
  once : ∀ t, ((s.memory.lines t anyLine).map HistoryLine.id).Nodup ∧
    ((s.tables.lines idLe t anyLine).map HistoryLine.id).Nodup
  same : ∀ t q, (s.memory.lines t q).Perm (s.tables.lines idLe t q)
  coverage : ∀ t, s.memory.coverage t = s.tables.coverage t
  covered : ∀ t d, IsDay d → (s.memory.coverage t).Covers d →
    ∃ i ∈ s.imports, i.1 = t ∧ i.2.Inside d

theorem Histories.Kept.sound {s : Histories} (hs : s.Kept) (idLe : String → String → Bool) :
    s.Sound idLe := by
  have hsame : ∀ t q, (s.memory.lines t q).Perm (s.tables.lines idLe t q) :=
    fun t q => lines_perm (hs.once t) (hs.rows t) q
  have honce : ∀ t, ((s.memory.lines t anyLine).map HistoryLine.id).Nodup := by
    intro t
    have hperm : (s.memory.lines t anyLine).Perm (s.memory.rowsOf t) := by
      refine (perm_insertionSort ..).trans (List.Perm.of_eq ?_)
      exact filter_eq_self.mpr fun l _ => fits_anyLine l
    exact (hperm.map _).nodup_iff.mpr (hs.once t)
  exact ⟨fun t => ⟨honce t, ((hsame t anyLine).map _).nodup_iff.mp (honce t)⟩, hsame, hs.coverage,
    hs.covered⟩

/-- What is required of every import of a run: a request that is accepted replaces its window. -/
def Histories.Replaces (idLe : String → String → Bool) (s : Histories) (c : ImportCall) : Prop :=
  ∀ imp, importFromJson c.now c.data = .ok imp → s.Replaced idLe c.tenant imp (s.step c)

namespace Charge

def charge (date : String) : HistoryLineInput where
  id := some "a"
  accountCode := some "168"
  accountName := none
  accountKind := some "card"
  date := some date
  txnType := none
  number := none
  name := none
  memo := none
  split := none
  amountMinor := some (.text "-12000")

def window (start end_ : String) (lines : List HistoryLineInput) : ImportCall :=
  ⟨"acme", "2026-11-01T00:00:00Z", ⟨some start, some end_, none, some lines, none⟩⟩

/-- The collation `C`. -/
def collation (a b : String) : Bool := a ≤ b

def line (date : String) : HistoryLine :=
  ⟨"a", "168", "", .card, date, "", "", "", "", "", -12000⟩

def imported (start end_ date : String) : HistoryImport :=
  ⟨start, end_, "2026-11-01T00:00:00Z", [line date], []⟩

def earlier : ImportCall := window "2026-09-15" "2026-10-15" [charge "2026-09-30"]

end Charge

end Rgnr8.Service.BankHistory
