import Rgnr8.Lib.Python
import Mathlib.Data.List.Sort
import Rgnr8.Lib.Fallible

/-! Schedules: the dates of a recurrence within a window. -/

namespace Rgnr8.Forecast
open Lib.Py Except

inductive Frequency where
  | weekly | biweekly | semimonthly | monthly | quarterly | annual
  deriving DecidableEq

def addMonths (d : Date) (n : Int) : Except PyError Date :=
  let (y, m, day) := d.civil
  let m0 := m - 1 + n
  let year := y + m0 / 12
  let month := m0 % 12 + 1
  Date.ofCivil year month (min day (Date.daysInMonth year month))

structure Recurrence where
  frequency : Frequency
  anchor : Date
  interval : Int
  /-- The other day of a semimonthly schedule. -/
  secondDay : Option Int
  end_ : Option Date
  count : Option Int
  deriving DecidableEq

def loopSteps : Nat := 3652061

namespace Recurrence
variable (r : Recurrence)

/-- The occurrence `k` steps from the anchor. -/
def occ (k : Int) : Except PyError Date :=
  match r.frequency with
  | .weekly => r.anchor.addDays (7 * (r.interval * k))
  | .biweekly => r.anchor.addDays (7 * (2 * k))
  | .monthly => addMonths r.anchor (1 * r.interval * k)
  | .quarterly => addMonths r.anchor (3 * r.interval * k)
  | .annual => addMonths r.anchor (12 * r.interval * k)
  | .semimonthly => .error .key

section
variable (start hardEnd : Date)

def backfill : Nat → Int → Except PyError Int
  | 0, _ => .error .unending
  | fuel + 1, k => do
    if start ≤ (← r.occ (k - 1)) then backfill fuel (k - 1) else return k

def advance : Nat → Int → Except PyError Int
  | 0, _ => .error .unending
  | fuel + 1, k => do
    if (← r.occ k) < start then advance fuel (k + 1) else return k

def collect : Nat → Int → Except PyError (List Date)
  | 0, _ => .error .unending
  | fuel + 1, k => do
    let d ← r.occ k
    if hardEnd < d then return []
    else if r.count.any (· ≤ k) then return []
    else
      let rest ← collect fuel (k + 1)
      return if r.count.isNone ∨ 0 ≤ k then d :: rest else rest

def semimonthlyDays (last : Int) : List Int :=
  let (_, _, d1) := r.anchor.civil
  let a := min d1 last
  let b := min (r.secondDay.getD 31) last
  if a = b then [a] else if a < b then [a, b] else [b, a]

def semimonthlyFrom : Nat → Date → Except PyError (List Date)
  | 0, _ => .error .unending
  | fuel + 1, cursor => do
    if hardEnd < cursor then return []
    else
      let (year, month, _) := cursor.civil
      let days ← (r.semimonthlyDays (Date.daysInMonth year month)).mapM fun day =>
        Date.ofCivil year month day
      let rest ← semimonthlyFrom fuel (← addMonths cursor 1)
      return (days.filter fun d => start ≤ d ∧ d ≤ hardEnd) ++ rest

def semimonthly : Except PyError (List Date) := do
  let (year, month, _) := start.civil
  let out ← r.semimonthlyFrom start hardEnd loopSteps (← Date.ofCivil year month 1)
  return out.insertionSort (· ≤ ·)

end

def occurrences (start end_ : Date) : Except PyError (List Date) := do
  let hardEnd := (r.end_.map fun e => min end_ e).getD end_
  if hardEnd < start then return []
  else if r.frequency = .semimonthly then r.semimonthly start hardEnd
  else
    let k ← if r.count.isNone then r.backfill start loopSteps 0 else pure 0
    let k ← r.advance start loopSteps k
    r.collect hardEnd loopSteps k

end Recurrence

/-! The occurrences of a schedule that steps forward: none is before the window, and the anchor is
one if it is in the window's first day. -/

open Lib Lib.Py.Date Fallible

def monthIndex (d : Date) : Int := 12 * d.civil.1 + (d.civil.2.1 - 1)

theorem addMonths_ok {d e : Date} {n : Int} (h : addMonths d n = .ok e) :
    ∃ day, 1 ≤ day ∧ day ≤ monthLength (monthIndex d + n) ∧
      e.ordinal = monthStart (monthIndex d + n) + (day - 1) + 719163 := by
  unfold addMonths at h
  unfold monthIndex monthStart monthLength
  generalize d.civil = c at h ⊢
  obtain ⟨year, month, day⟩ := c
  dsimp only at h ⊢
  rw [ofCivil_eq_ok, daysOfCivil_day] at h
  obtain ⟨⟨-, -, -, -, hday, hlength⟩, hord⟩ := h
  have hyear : (12 * year + (month - 1) + n) / 12 = year + (month - 1 + n) / 12 := by omega
  have hmonth : (12 * year + (month - 1) + n) % 12 = (month - 1 + n) % 12 := by omega
  rw [hyear, hmonth]
  exact ⟨_, hday, hlength, hord⟩

theorem addMonths_zero (d : Date) : addMonths d 0 = .ok d := by
  have hspec := civil_spec d
  unfold addMonths
  generalize d.civil = c at hspec ⊢
  obtain ⟨year, month, day⟩ := c
  dsimp only at hspec ⊢
  obtain ⟨⟨-, -, hmonth1, hmonth12, hday1, hday⟩, -⟩ := ofCivil_eq_ok.mp hspec
  have hyear : year + (month - 1 + 0) / 12 = year := by omega
  have hmonth : (month - 1 + 0) % 12 + 1 = month := by omega
  rw [hyear, hmonth, min_eq_left hday]
  exact hspec

theorem addMonths_lt {d e e' : Date} {m n : Int} (h : addMonths d m = .ok e)
    (h' : addMonths d n = .ok e') (hlt : m < n) : e < e' := by
  obtain ⟨day, hday, hlength, hord⟩ := addMonths_ok h
  obtain ⟨day', hday', -, hord'⟩ := addMonths_ok h'
  have hstart := monthStart_lt (m := monthIndex d + m) (n := monthIndex d + n) (by omega)
  rw [Date.lt_def, hord, hord']
  omega

namespace Recurrence
variable {r : Recurrence}

theorem occ_zero (hfreq : r.frequency ≠ .semimonthly) : r.occ 0 = .ok r.anchor := by
  unfold occ
  cases hf : r.frequency with
  | semimonthly => exact absurd hf hfreq
  | weekly => simp only [mul_zero, addDays_eq_ok, add_zero]
  | biweekly => simp only [mul_zero, addDays_eq_ok, add_zero]
  | monthly => simp only [mul_zero, addMonths_zero]
  | quarterly => simp only [mul_zero, addMonths_zero]
  | annual => simp only [mul_zero, addMonths_zero]

variable {d : Date} {k : Int} {ds : List Date}

theorem occ_lt (hivl : 1 ≤ r.interval) {j : Int} {e : Date} (hj : r.occ j = .ok d)
    (hk : r.occ k = .ok e) (hlt : j < k) : d < e := by
  have hstep : r.interval * j < r.interval * k := mul_lt_mul_of_pos_left hlt (by omega)
  unfold occ at hj hk
  cases hf : r.frequency with
  | semimonthly =>
    rw [hf] at hj
    cases hj
  | weekly =>
    simp only [hf, addDays_eq_ok] at hj hk
    rw [Date.lt_def, hj, hk]
    omega
  | biweekly =>
    simp only [hf, addDays_eq_ok] at hj hk
    rw [Date.lt_def, hj, hk]
    omega
  | monthly =>
    simp only [hf, mul_assoc] at hj hk
    exact addMonths_lt hj hk (by omega)
  | quarterly =>
    simp only [hf, mul_assoc] at hj hk
    exact addMonths_lt hj hk (by omega)
  | annual =>
    simp only [hf, mul_assoc] at hj hk
    exact addMonths_lt hj hk (by omega)

theorem advance_ok {start : Date} {fuel : Nat} {n : Int} (h : r.advance start fuel k = .ok n) :
    ∃ d, r.occ n = .ok d ∧ start ≤ d := by
  induction fuel generalizing k with
  | zero => cases h
  | succ fuel ih =>
    unfold advance at h
    rw [bind_eq_ok] at h
    obtain ⟨d, hd, h⟩ := h
    split_ifs at h with hbef
    · exact ih h
    · rw [← ok.inj h]
      exact ⟨d, hd, not_lt.mp hbef⟩

theorem collect_ok {hardEnd : Date} {fuel : Nat} (h : r.collect hardEnd fuel k = .ok ds)
    (hd : d ∈ ds) : ∃ j, k ≤ j ∧ r.occ j = .ok d := by
  induction fuel generalizing k ds with
  | zero => cases h
  | succ fuel ih =>
    unfold collect at h
    rw [bind_eq_ok] at h
    obtain ⟨e, he, h⟩ := h
    by_cases hdone : hardEnd < e ∨ r.count.any (· ≤ k) = true
    · have hnil : ds = [] := by
        rcases hdone with hafter | hcount
        · rw [if_pos hafter] at h
          exact (ok.inj h).symm
        · rw [if_pos hcount, ite_self] at h
          exact (ok.inj h).symm
      rw [hnil] at hd
      cases hd
    · obtain ⟨hafter, hcount⟩ := not_or.mp hdone
      rw [if_neg hafter, if_neg hcount, bind_eq_ok] at h
      obtain ⟨rest, hrest, h⟩ := h
      have hmem : d = e ∨ d ∈ rest := by
        rw [← ok.inj h] at hd
        split_ifs at hd
        · exact List.mem_cons.mp hd
        · exact .inr hd
      rcases hmem with rfl | hd
      · exact ⟨k, le_rfl, he⟩
      · obtain ⟨j, hj, hocc⟩ := ih hrest hd
        exact ⟨j, by omega, hocc⟩

theorem le_of_mem_occurrences (hfreq : r.frequency ≠ .semimonthly)
    (hivl : 1 ≤ r.interval) {start end_ : Date} (h : r.occurrences start end_ = .ok ds)
    (hd : d ∈ ds) : start ≤ d := by
  unfold occurrences at h
  dsimp only at h
  by_cases hemp : (r.end_.map fun e => min end_ e).getD end_ < start
  · rw [if_pos hemp] at h
    rw [← ok.inj h] at hd
    cases hd
  · rw [if_neg hemp, if_neg hfreq] at h
    have hsteps : ∃ k n, r.advance start loopSteps k = .ok n ∧
        r.collect ((r.end_.map fun e => min end_ e).getD end_) loopSteps n = .ok ds := by
      split_ifs at h
      all_goals
        simp only [bind_eq_ok] at h
        obtain ⟨k, -, n, hn, h⟩ := h
        exact ⟨k, n, hn, h⟩
    obtain ⟨k, n, hn, h⟩ := hsteps
    obtain ⟨e, he, hstart⟩ := advance_ok hn
    obtain ⟨j, hj, hocc⟩ := collect_ok h hd
    rcases hj.lt_or_eq with hlt | rfl
    · exact hstart.trans (occ_lt hivl he hocc hlt).le
    · rwa [← ok.inj (he.symm.trans hocc)]

theorem anchor_mem_occurrences (hfreq : r.frequency ≠ .semimonthly)
    (hivl : 1 ≤ r.interval) (hend : r.end_ = none) (hcount : r.count = none) {end_ : Date}
    (hwnd : r.anchor ≤ end_) (h : r.occurrences r.anchor end_ = .ok ds) : r.anchor ∈ ds := by
  have hzero := occ_zero hfreq
  unfold occurrences at h
  rw [hend, hcount] at h
  dsimp only [Option.map_none, Option.getD_none, Option.isNone_none] at h
  rw [if_neg (not_lt.mpr hwnd), if_neg hfreq, if_pos rfl] at h
  simp only [bind_eq_ok] at h
  obtain ⟨k, hback, n, hfor, h⟩ := h
  have hk : k = 0 := by
    unfold loopSteps backfill at hback
    rw [bind_eq_ok] at hback
    obtain ⟨d, hd, hback⟩ := hback
    have hbef := occ_lt hivl hd hzero (by omega)
    rw [if_neg (not_le.mpr hbef)] at hback
    exact (Except.ok.inj hback).symm
  subst hk
  have hn : n = 0 := by
    unfold loopSteps advance at hfor
    rw [hzero] at hfor
    dsimp only [bind, Except.bind] at hfor
    rw [if_neg (lt_irrefl _)] at hfor
    exact (Except.ok.inj hfor).symm
  subst hn
  unfold loopSteps collect at h
  rw [hzero] at h
  dsimp only [bind, Except.bind] at h
  rw [if_neg (not_lt.mpr hwnd), hcount] at h
  change (do
    let rest ← r.collect end_ _ (0 + 1)
    pure (if (none : Option Int).isNone ∨ (0 : Int) ≤ 0 then r.anchor :: rest else rest)) = _ at h
  rw [bind_eq_ok] at h
  obtain ⟨rest, -, h⟩ := h
  rw [← Except.ok.inj h, if_pos (.inl rfl)]
  exact List.mem_cons_self

end Recurrence

end Rgnr8.Forecast
