import Rgnr8.Lib.IsoText
import Rgnr8.Lib.Python
import Rgnr8.Subledger.Recurring

/-! The dates a schedule fires on. Its window is read by day numbers that count the leap day of a
year from its first day on, so the last day of a leap year has the number of the day after it. -/

namespace Rgnr8.Subledger.Recurring
open Lib Lib.Js Lib.Py.Date Kernel Number List Nat

@[ext] structure CalendarDate where
  month : Int
  day : Int
  low : 1 ≤ day
  high : day ≤ monthLength month

namespace CalendarDate

variable (d : CalendarDate)

def year : Int := d.month / 12

def ordinal : Int := monthStart d.month + (d.day - 1)

instance : LT CalendarDate := ⟨fun a b => a.month < b.month ∨ (a.month = b.month ∧ a.day < b.day)⟩

instance : LE CalendarDate := ⟨fun a b => ¬ b < a⟩

variable {a b : CalendarDate}

theorem lt_iff : a < b ↔ a.ordinal < b.ordinal := by
  show a.month < b.month ∨ (a.month = b.month ∧ a.day < b.day) ↔ _
  have ha := a.low
  have ha' := a.high
  have hb := b.low
  have hb' := b.high
  unfold ordinal
  rcases lt_trichotomy a.month b.month with hless | heq | hmore
  · have hgap := monthStart_lt hless
    omega
  · rw [heq]
    omega
  · have hgap := monthStart_lt hmore
    omega

theorem le_iff : a ≤ b ↔ a.ordinal ≤ b.ordinal :=
  (not_congr lt_iff).trans not_lt

theorem eq_of_ordinal_eq (h : a.ordinal = b.ordinal) : a = b := by
  have hab : ¬ a < b := fun hlt => by rw [lt_iff] at hlt; omega
  have hba : ¬ b < a := fun hlt => by rw [lt_iff] at hlt; omega
  have hmonth : a.month = b.month := by
    by_contra hne
    rcases lt_or_gt_of_ne hne with hless | hmore
    · exact hab (.inl hless)
    · exact hba (.inl hmore)
  have hday : a.day = b.day := by
    unfold ordinal at h
    rw [hmonth] at h
    omega
  exact CalendarDate.ext hmonth hday

theorem month_bounds : 0 ≤ d.month % 12 ∧ d.month % 12 ≤ 11 ∧
    12 * d.year + d.month % 12 = d.month ∧ d.day ≤ 31 := by
  have hlength : monthLength d.month ≤ 31 := by
    unfold monthLength daysInMonth
    split_ifs <;> decide
  have hhigh := d.high
  unfold year
  omega

def ofOrdinal (n : Int) : CalendarDate where
  month := 12 * (civilOfDays n).1 + ((civilOfDays n).2.1 - 1)
  day := (civilOfDays n).2.2
  low := (daysOfCivil_civilOfDays n).2.2.2.1
  high := by
    obtain ⟨-, hmonth, hmonth', -, hday⟩ := daysOfCivil_civilOfDays n
    unfold monthLength
    rw [show (12 * (civilOfDays n).1 + ((civilOfDays n).2.1 - 1)) / 12 = (civilOfDays n).1 by omega,
      show (12 * (civilOfDays n).1 + ((civilOfDays n).2.1 - 1)) % 12 + 1 = (civilOfDays n).2.1 by
        omega]
    exact hday

theorem ordinal_ofOrdinal (n : Int) : (ofOrdinal n).ordinal = n := by
  obtain ⟨hdays, hmonth, hmonth', -, -⟩ := daysOfCivil_civilOfDays n
  show monthStart (12 * (civilOfDays n).1 + ((civilOfDays n).2.1 - 1)) +
    ((civilOfDays n).2.2 - 1) = n
  unfold monthStart
  rw [show (12 * (civilOfDays n).1 + ((civilOfDays n).2.1 - 1)) / 12 = (civilOfDays n).1 by omega,
    show (12 * (civilOfDays n).1 + ((civilOfDays n).2.1 - 1)) % 12 + 1 = (civilOfDays n).2.1 by
      omega, ← daysOfCivil_day]
  exact hdays

def plusDays (n : Nat) : CalendarDate := ofOrdinal (d.ordinal + n)

def plusMonths (n : Nat) : CalendarDate where
  month := d.month + n
  day := min d.day (monthLength (d.month + n))
  low := by
    have hlow := d.low
    have hlength := monthLength_pos (d.month + n)
    omega
  high := min_le_right _ _

/-- `YYYY-MM-DD` -/
def text : String :=
  String.ofList (isoChars d.year.toNat (d.month % 12 + 1).toNat d.day.toNat)

def FourDigits : Prop := 0 ≤ d.year ∧ d.year ≤ 9999

/-- A year that takes four digits without padding. -/
def Written : Prop := 1000 ≤ d.year ∧ d.year ≤ 9999

theorem Written.fourDigits {d : CalendarDate} (h : d.Written) : d.FourDigits :=
  ⟨h.1.trans' (by decide), h.2⟩

end CalendarDate

/-! Reading and writing a date. -/

variable {a b d : CalendarDate} {n : Nat}

theorem naturalIn_fixed {width : Nat} (h : n < 10 ^ (width + 1)) :
    naturalIn 10 (fixed (width + 1) n) = some n := by
  have hdig : ∀ k < 10, digitIn 10 (digitChar k) = some k := by decide
  have hfold : ∀ {width n : Nat}, n < 10 ^ width →
      (fixed width n).foldlM (fun n c => (digitIn 10 c).map (n * 10 + ·)) 0 = some n := by
    intro width
    induction width with
    | zero =>
      intro n hn
      rw [lt_one_iff.mp hn]
      rfl
    | succ width ih =>
      intro n hn
      rw [fixed, foldlM_append, ih (by omega)]
      show ((digitIn 10 (digitChar (n % 10))).map (n / 10 * 10 + ·)).bind _ = some n
      rw [hdig _ (mod_lt n (by decide))]
      show some (n / 10 * 10 + n % 10) = some n
      rw [div_add_mod']
  unfold naturalIn
  split
  · next hnil =>
    have hlength := length_fixed (width + 1) n
    rw [hnil] at hlength
    exact absurd hlength.symm (Nat.succ_ne_zero width)
  · exact hfold h

theorem mem_fixed {width : Nat} {c : Char} (h : c ∈ fixed width n) :
    c ≠ '-' ∧ c.toNat < 0x10000 := by
  have hdig : ∀ k < 10, digitChar k ≠ '-' ∧ (digitChar k).toNat < 0x10000 := by decide
  induction width generalizing n with
  | zero => exact absurd h not_mem_nil
  | succ width ih =>
    rw [fixed] at h
    rcases mem_append.mp h with h | h
    · exact ih h
    · rw [mem_singleton.mp h]
      exact hdig _ (mod_lt n (by decide))

theorem numberAt_eq (width : Nat) {date : String} {start finish : Nat}
    (h : (date.toList.take finish).drop start = fixed (width + 1) n) (hn : n < 10 ^ (width + 1)) :
    numberAt date start finish = some (n : Int) := by
  unfold numberAt
  rw [h]
  split
  · next hnil =>
    have hlength := length_fixed (width + 1) n
    rw [hnil] at hlength
    exact absurd hlength.symm (Nat.succ_ne_zero width)
  · next cs hdash =>
    have hmem : '-' ∈ fixed (width + 1) n := by
      rw [hdash]
      exact mem_cons_self
    exact absurd rfl (mem_fixed hmem).1
  · rw [naturalIn_fixed hn]
    rfl

theorem parts_text (h : d.FourDigits) :
    parts d.text = ⟨some d.year, some (d.month % 12 + 1), some d.day⟩ := by
  obtain ⟨hyear, hyear'⟩ := h
  obtain ⟨hmonth, hmonth', -, hday⟩ := d.month_bounds
  have hlow := d.low
  have hchars : d.text.toList =
      isoChars d.year.toNat (d.month % 12 + 1).toNat d.day.toNat := String.toList_ofList
  have hy : numberAt d.text 0 4 = some (d.year.toNat : Int) := by
    refine numberAt_eq 3 ?_ (by omega)
    rw [hchars]
    rfl
  have hm : numberAt d.text 5 7 = some ((d.month % 12 + 1).toNat : Int) := by
    refine numberAt_eq 1 ?_ (by omega)
    rw [hchars]
    rfl
  have hd : numberAt d.text 8 10 = some (d.day.toNat : Int) := by
    refine numberAt_eq 1 ?_ (by omega)
    rw [hchars]
    rfl
  unfold parts
  rw [hy, hm, hd, Int.toNat_of_nonneg hyear, Int.toNat_of_nonneg (by omega),
    Int.toNat_of_nonneg (by omega)]

theorem toList_toString (width : Nat) (hlow : 10 ^ width ≤ n) (hhigh : n < 10 ^ (width + 1)) :
    (toString n).toList = fixed (width + 1) n := by
  rw [toString_eq_repr, toList_repr]
  induction width generalizing n with
  | zero =>
    have hten : n < 10 := hhigh
    rw [toDigits_of_lt_base hten, fixed, fixed, mod_eq_of_lt hten]
    rfl
  | succ width ih =>
    have hten : 10 ≤ n := by
      have hpos : 0 < 10 ^ width := Nat.pow_pos (by decide)
      omega
    rw [toDigits_of_base_le (by decide) hten, fixed, ih (by omega) (by omega)]

theorem toList_pad2 {n : Int} (hlow : 1 ≤ n) (hhigh : n ≤ 31) :
    (pad2 (some n)).toList = fixed 2 n.toNat := by
  obtain ⟨n, rfl⟩ := Int.eq_ofNat_of_zero_le (by omega : 0 ≤ n)
  have hall : ∀ n : Nat, n < 32 → 1 ≤ n → (pad2 (some (n : Int))).toList = fixed 2 n := by decide
  exact hall n (by omega) (by omega)

theorem iso_eq_text (h : d.Written) :
    iso (some d.year) (some (d.month % 12 + 1)) (some d.day) = d.text := by
  obtain ⟨hmonth, hmonth', -, hday⟩ := d.month_bounds
  have hlow := d.low
  have hyear : (text (some d.year)).toList = fixed 4 d.year.toNat := by
    obtain ⟨y, hy⟩ := Int.eq_ofNat_of_zero_le (h.1.trans' (by decide))
    obtain ⟨h, h'⟩ := h
    rw [hy] at h h' ⊢
    exact toList_toString 3 (by omega) (by omega)
  apply String.toList_injective
  show (text (some d.year) ++ "-" ++ pad2 (some (d.month % 12 + 1)) ++ "-" ++
    pad2 (some d.day)).toList = _
  simp only [String.toList_append, hyear, toList_pad2 (by omega : 1 ≤ d.month % 12 + 1) (by omega),
    toList_pad2 hlow hday, CalendarDate.text, String.toList_ofList, append_assoc]
  rfl

/-! The calendar of the source. -/

theorem isLeap_eq (y : Int) : isLeap y = Lib.Py.Date.isLeap y := by
  unfold isLeap Lib.Py.Date.isLeap
  rw [decide_eq_decide]
  omega

theorem lastDay_eq (n : Int) :
    lastDay (some (n / 12)) (some (n % 12 + 1)) = some (monthLength n) := by
  have hlow : 0 ≤ n % 12 := Int.emod_nonneg n (by decide)
  have hhigh : n % 12 < 12 := Int.emod_lt_of_pos n (by decide)
  unfold lastDay monthLength daysInMonth
  simp only [Option.any_some, isLeap_eq]
  generalize n % 12 = m at *
  interval_cases m <;> rfl

theorem monthStart_year (y : Int) : monthStart (12 * y) =
    y * 365 + y / 4 - y / 100 + y / 400 - 719527 - (if isLeap y then 1 else 0) := by
  have hyear : 12 * y / 12 = y := by omega
  have hmonth : 12 * y % 12 + 1 = 1 := by omega
  unfold monthStart daysOfCivil isLeap
  rw [hyear, hmonth]
  simp only [decide_eq_true_eq]
  split_ifs <;> omega

theorem months_eq (k : Nat) : ((List.range k).map fun k => (some (k + 1) : Number)) =
    (List.range k).map fun j : Nat => some ((j : Int) + 1) := by
  show map _ ((range k).flatMap fun a : Nat => [(a : Int)]) = _
  rw [← map_eq_flatMap, map_map]
  rfl

theorem foldl_lastDay (y d : Int) {k : Nat} (hk : k ≤ 11) :
    ((List.range k).map fun j : Nat => some ((j : Int) + 1)).foldl
        (fun (days mm : Number) => days.add (lastDay (some y) mm)) (some d : Number) =
      some (d + (monthStart (12 * y + k) - monthStart (12 * y))) := by
  induction k with
  | zero => simp
  | succ k ih =>
    have hyear : (12 * y + k) / 12 = y := by omega
    have hmonth : (12 * y + k) % 12 = k := by omega
    have hlength := lastDay_eq (12 * y + k)
    have hnext := monthStart_succ (12 * y + k)
    have hcast : 12 * y + ((k + 1 : Nat) : Int) = 12 * y + k + 1 := by omega
    rw [hyear, hmonth] at hlength
    rw [range_succ, map_append, foldl_append, ih (by omega)]
    show add (some _) (lastDay (some y) (some ((k : Int) + 1))) = _
    rw [hlength, hcast, hnext]
    show some (_ + _) = some _
    congr 1
    omega

def serial (d : CalendarDate) : Int := d.ordinal + 719528 + (if isLeap d.year then 1 else 0)

theorem dayNumber_text (h : d.FourDigits) : dayNumber d.text = some (serial d) := by
  obtain ⟨hmonth, hmonth', hsplit, -⟩ := d.month_bounds
  have hcount : (d.month % 12 + 1 - 1).toNat ≤ 11 := by omega
  have hfold := foldl_lastDay d.year d.day hcount
  have hstart := monthStart_year d.year
  have hidx : 12 * d.year + ((d.month % 12 + 1 - 1).toNat : Int) = d.month := by omega
  rw [hidx] at hfold
  unfold dayNumber
  rw [parts_text h]
  dsimp only [Option.getD_some]
  rw [months_eq, hfold]
  show some (_ + (d.year * 365 + d.year / 4 - d.year / 100 + d.year / 400)) = some _
  unfold serial CalendarDate.ordinal
  congr 1
  omega

def LeapEve (a b : CalendarDate) : Prop :=
  isLeap a.year ∧ a.month % 12 = 11 ∧ a.day = 31 ∧ b.month = a.month + 1 ∧ b.day = 1

theorem leapEve_iff : LeapEve a b ↔
    b.ordinal = a.ordinal + 1 ∧ isLeap a.year = true ∧ isLeap b.year ≠ true := by
  have halow := a.low
  have hahigh := a.high
  have hblow := b.low
  have hnext := monthStart_succ a.month
  constructor
  · rintro ⟨hleap, hdec, hday, hmonth, hfst⟩
    have hlength : monthLength a.month = 31 := by
      unfold monthLength daysInMonth
      rw [hdec]
      rfl
    refine ⟨?_, hleap, ?_⟩
    · unfold CalendarDate.ordinal
      rw [hmonth, hnext]
      omega
    · have hyear : (a.month + 1) / 12 = a.month / 12 + 1 := by omega
      unfold isLeap CalendarDate.year at hleap ⊢
      rw [hmonth, hyear]
      simp only [ne_eq, decide_eq_true_eq] at hleap ⊢
      omega
  · rintro ⟨hord, hleap, hplain⟩
    have hyears : a.year ≠ b.year := fun h => hplain (h ▸ hleap)
    have hmon : a.month ≠ b.month := fun h => hyears (congrArg (· / 12) h)
    have hlt : a < b := CalendarDate.lt_iff.mpr (by omega)
    have hless : a.month < b.month := by
      rcases hlt with h | h
      · exact h
      · exact absurd h.1 hmon
    unfold CalendarDate.ordinal at hord
    have hsucc : b.month = a.month + 1 := by
      by_contra hne
      have hgap := monthStart_lt (by omega : a.month + 1 < b.month)
      have hlength := monthLength_pos (a.month + 1)
      omega
    rw [hsucc, hnext] at hord
    unfold CalendarDate.year at hyears
    have hdec : a.month % 12 = 11 := by omega
    have hlength : monthLength a.month = 31 := by
      unfold monthLength daysInMonth
      rw [hdec]
      rfl
    exact ⟨hleap, hdec, by omega, hsucc, by omega⟩

theorem serial_le_iff : serial a ≤ serial b ↔ a ≤ b ∨ LeapEve b a := by
  rw [leapEve_iff, CalendarDate.le_iff]
  unfold serial
  rcases eq_or_ne a.ordinal b.ordinal with heq | hne
  · rw [CalendarDate.eq_of_ordinal_eq heq]
    simp
  · split_ifs with ha hb hb <;> simp only [ha, hb] <;> simp <;> omega

/-! Stepping. -/

theorem carryForward_spec (fuel : Nat) {n d : Int} (hlow : 1 ≤ d) (hfuel : d ≤ fuel) :
    ∃ c : CalendarDate, c.ordinal = monthStart n + (d - 1) ∧
      carryForward fuel ⟨some (n / 12), some (n % 12 + 1), some d⟩ =
        ⟨some c.year, some (c.month % 12 + 1), some c.day⟩ := by
  induction fuel generalizing n d with
  | zero => omega
  | succ fuel ih =>
    have hlength := monthLength_pos n
    have hlt : lt (some (monthLength n)) (some d) = decide (monthLength n < d) := rfl
    rw [carryForward]
    dsimp only
    rw [lastDay_eq, hlt]
    by_cases hover : monthLength n < d
    · rw [if_pos (decide_eq_true hover)]
      obtain ⟨c, hc, hcarry⟩ := ih (n := n + 1) (d := d - monthLength n) (by omega) (by omega)
      have hnext := monthStart_succ n
      refine ⟨c, by omega, Eq.trans ?_ hcarry⟩
      show carryForward fuel (if decide ((12 : Int) < n % 12 + 1 + 1) = true
        then ⟨some (n / 12 + 1), some 1, some (d - monthLength n)⟩
        else ⟨some (n / 12), some (n % 12 + 1 + 1), some (d - monthLength n)⟩) = _
      by_cases hdec : n % 12 = 11
      · rw [if_pos (decide_eq_true (by omega)), show (n + 1) / 12 = n / 12 + 1 by omega,
          show (n + 1) % 12 + 1 = 1 by omega]
      · rw [if_neg (by rw [decide_eq_true_eq]; omega), show (n + 1) / 12 = n / 12 by omega,
          show (n + 1) % 12 + 1 = n % 12 + 1 + 1 by omega]
    · rw [if_neg (by rw [decide_eq_true_eq]; exact hover)]
      exact ⟨⟨n, d, hlow, by omega⟩, rfl, rfl⟩

theorem carryBack_of_pos {fuel : Nat} {p : DateParts} {d : Int} (hd : p.d = some d) (h : 1 ≤ d) :
    carryBack fuel p = p := by
  cases fuel with
  | zero => rfl
  | succ fuel =>
    have hnot : p.d.lt (some 1) = false := by
      rw [hd]
      exact decide_eq_false (by omega)
    rw [carryBack, hnot]
    rfl

theorem addDays_text (h : d.FourDigits) (hwrit : (d.plusDays n).Written) :
    addDays d.text n = (d.plusDays n).text := by
  have hlow := d.low
  obtain ⟨c, hc, hcarry⟩ := carryForward_spec (d.day + n).toNat (n := d.month)
    (d := d.day + n) (by omega) (by omega)
  have hsame : c = d.plusDays n := by
    apply CalendarDate.eq_of_ordinal_eq
    rw [CalendarDate.plusDays, CalendarDate.ordinal_ofOrdinal, hc, CalendarDate.ordinal]
    omega
  unfold addDays
  rw [parts_text h]
  dsimp only
  rw [show add (some d.day) (some (n : Int)) = some (d.day + n) from rfl, Option.getD_some]
  rw [show (some d.year : Number) = some (d.month / 12) from rfl, hcarry,
    carryBack_of_pos rfl c.low]
  rw [← hsame] at hwrit ⊢
  exact iso_eq_text hwrit

theorem addMonths_text (h : d.FourDigits) (hwrit : (d.plusMonths n).Written) :
    addMonths d.text n = (d.plusMonths n).text := by
  have hmon := d.month_bounds
  have hyear := h.1
  have htot : add (add ((some d.year : Number).map (· * 12))
      (sub (some (d.month % 12 + 1)) (some 1))) (some (n : Int)) = some (d.month + n) := by
    show some (d.year * 12 + (d.month % 12 + 1 - 1) + (n : Int)) = some (d.month + n)
    congr 1
    omega
  have hmod : (d.month + n).tmod 12 = (d.month + n) % 12 := Int.tmod_eq_emod_of_nonneg (by omega)
  unfold addMonths
  rw [parts_text h]
  dsimp only
  rw [htot, Option.map_some, Option.map_some, hmod, lastDay_eq]
  show iso (some ((d.month + n) / 12)) (some ((d.month + n) % 12 + 1))
    (some (min d.day (monthLength (d.month + n)))) = _
  have hiso := iso_eq_text hwrit
  exact hiso

/-! The order of the texts. -/

theorem toNat_lt {l m : List Char} : l.map Char.toNat < m.map Char.toNat ↔ l < m := by
  induction l generalizing m with
  | nil => cases m <;> simp
  | cons a l ih =>
    cases m with
    | nil => simp
    | cons b m =>
      rw [map_cons, map_cons, cons_lt_cons_iff, cons_lt_cons_iff, ih,
        Char.toNat_inj]
      rfl

theorem before_text (ha : a.FourDigits) (hb : b.FourDigits) : Before a.text b.text ↔ a < b := by
  have hunits (d : CalendarDate) : utf16 d.text = d.text.toList.map Char.toNat := by
    have hplain : ∀ c ∈ d.text.toList, utf16Units c = [c.toNat] := by
      intro c hc
      have hsmall : c.toNat < 0x10000 := by
        rw [CalendarDate.text, String.toList_ofList, isoChars] at hc
        simp only [mem_append, mem_cons] at hc
        rcases hc with h | rfl | h | rfl | h
        · exact (mem_fixed h).2
        · decide
        · exact (mem_fixed h).2
        · decide
        · exact (mem_fixed h).2
      rw [utf16Units, if_pos hsmall]
    rw [utf16, flatMap_congr hplain, map_eq_flatMap]
  have ham := a.month_bounds
  have hbm := b.month_bounds
  have hal := a.low
  have hbl := b.low
  unfold CalendarDate.FourDigits at ha hb
  rw [Before, hunits, hunits, toNat_lt]
  show (String.ofList _).toList < (String.ofList _).toList ↔
    a.month < b.month ∨ (a.month = b.month ∧ a.day < b.day)
  rw [String.toList_ofList, String.toList_ofList, isoChars_lt (by omega) (by omega) (by omega)
    (by omega) (by omega) (by omega)]
  omega

/-! Occurrences. -/

def occurrence (schedule : RecurringSchedule) (start : CalendarDate) (i : Nat) : CalendarDate :=
  let n := schedule.interval * i
  match schedule.frequency with
  | .daily => start.plusDays n
  | .weekly => start.plusDays (n * 7)
  | .monthly => start.plusMonths n
  | .yearly => start.plusMonths (n * 12)

theorem step_text {schedule : RecurringSchedule} {start : CalendarDate} (h : start.FourDigits)
    {i : Nat} (hwrit : (occurrence schedule start i).Written) :
    step start.text schedule i = (occurrence schedule start i).text := by
  unfold step occurrence at *
  cases hfreq : schedule.frequency with
  | daily | weekly =>
    rw [hfreq] at hwrit
    exact addDays_text h hwrit
  | monthly | yearly =>
    rw [hfreq] at hwrit
    exact addMonths_text h hwrit

theorem occurrence_lt {schedule : RecurringSchedule} (hivl : 1 ≤ schedule.interval)
    (start : CalendarDate) {i j : Nat} (hij : i < j) :
    occurrence schedule start i < occurrence schedule start j := by
  have hsteps : schedule.interval * i < schedule.interval * j :=
    mul_lt_mul_of_pos_left hij hivl
  have hdays {m n : Nat} (hmn : m < n) : start.plusDays m < start.plusDays n := by
    rw [CalendarDate.lt_iff, CalendarDate.plusDays, CalendarDate.plusDays,
      CalendarDate.ordinal_ofOrdinal, CalendarDate.ordinal_ofOrdinal]
    omega
  have hmon {m n : Nat} (hmn : m < n) : start.plusMonths m < start.plusMonths n :=
    .inl (show start.month + m < start.month + n by omega)
  unfold occurrence
  cases schedule.frequency with
  | daily => exact hdays hsteps
  | weekly => exact hdays (by omega)
  | monthly => exact hmon hsteps
  | yearly => exact hmon (by omega)

/-! The loop. -/

section
variable (schedule : RecurringSchedule) (fromDay toDay : Number)

def goesOn (i : Nat) : Bool :=
  ¬ schedule.count.any (· ≤ i) ∧
    ¬ schedule.endDate.any (fun hardEnd => Before hardEnd (step schedule.startDate schedule i)) ∧
    ¬ toDay.lt (dayNumber (step schedule.startDate schedule i))

def inWindow (i : Nat) : Bool := fromDay.le (dayNumber (step schedule.startDate schedule i))

theorem occurrencesFrom_eq (fuel i : Nat) : occurrencesFrom schedule fromDay toDay fuel i i =
    (((List.range' i fuel).takeWhile (goesOn schedule toDay)).filter
      (inWindow schedule fromDay)).map (step schedule.startDate schedule) := by
  induction fuel generalizing i with
  | zero => rfl
  | succ fuel ih =>
    rw [occurrencesFrom, range'_succ, ih (i + 1)]
    dsimp only
    split_ifs with hcount hend hto hfrom
    · rw [takeWhile_cons_of_neg (by simp [goesOn, hcount])]
      rfl
    · rw [takeWhile_cons_of_neg (by simp [goesOn, hend])]
      rfl
    · rw [takeWhile_cons_of_neg (by simp [goesOn, hto])]
      rfl
    · rw [takeWhile_cons_of_pos (by simp [goesOn, hcount, hend, hto]),
        filter_cons_of_pos (p := inWindow schedule fromDay) hfrom, map_cons]
    · rw [takeWhile_cons_of_pos (by simp [goesOn, hcount, hend, hto]),
        filter_cons_of_neg (p := inWindow schedule fromDay) hfrom]

end

theorem mem_takeWhile_range' {p : Nat → Bool} {fuel i j : Nat} :
    j ∈ (List.range' i fuel).takeWhile p ↔
      i ≤ j ∧ j < i + fuel ∧ ∀ k, i ≤ k → k ≤ j → p k = true := by
  induction fuel generalizing i with
  | zero =>
    refine iff_of_false not_mem_nil ?_
    omega
  | succ fuel ih =>
    rw [range'_succ]
    by_cases hp : p i = true
    · rw [takeWhile_cons_of_pos hp, mem_cons, ih]
      constructor
      · rintro (rfl | ⟨hlow, hhigh, hall⟩)
        · refine ⟨le_rfl, by omega, fun k hk hk' => ?_⟩
          rwa [le_antisymm hk' hk]
        · refine ⟨by omega, by omega, fun k hk hk' => ?_⟩
          rcases hk.eq_or_lt with rfl | hlt
          · exact hp
          · exact hall k hlt hk'
      · rintro ⟨hlow, hhigh, hall⟩
        rcases hlow.eq_or_lt with rfl | hlt
        · exact .inl rfl
        · exact .inr ⟨hlt, by omega, fun k hk hk' => hall k (by omega) hk'⟩
    · rw [takeWhile_cons_of_neg hp]
      refine iff_of_false not_mem_nil ?_
      rintro ⟨hlow, -, hall⟩
      exact hp (hall i le_rfl hlow)

/-! A schedule and its window. -/

section
variable (schedule : RecurringSchedule) (start : CalendarDate) (finish : Option CalendarDate)
  (first last : CalendarDate)

/-- An occurrence within the count and up to the end date. -/
def Held (i : Nat) : Prop :=
  (∀ c ∈ schedule.count, i < c) ∧ ∀ e ∈ finish, occurrence schedule start i ≤ e

/-- One in the window. -/
def Due (i : Nat) : Prop := Held schedule start finish i ∧
  first ≤ occurrence schedule start i ∧ occurrence schedule start i ≤ last

/-- A schedule with its dates as texts, and a window that it is past at step `n`, with no year of
more or fewer than four digits written until then. -/
structure Setting (n : Nat) : Prop where
  interval : 1 ≤ schedule.interval
  startDate : schedule.startDate = start.text
  endDate : schedule.endDate = finish.map CalendarDate.text
  digits : start.FourDigits ∧ first.FourDigits ∧ last.FourDigits ∧ ∀ e ∈ finish, e.FourDigits
  window : first ≤ last
  steps : n < maxIterations
  past : ¬ (Held schedule start finish n ∧ occurrence schedule start n ≤ last)
  written : ∀ i ≤ n, (∀ c ∈ schedule.count, i < c) → (occurrence schedule start i).Written

/-- The dates returned are the occurrences that are due, in their order. -/
structure FiresWhenDue (dates : List String) : Prop where
  due : ∀ date, date ∈ dates ↔
    ∃ i, Due schedule start finish first last i ∧ date = step schedule.startDate schedule i
  inOrder : ∃ days : List CalendarDate,
    dates = days.map CalendarDate.text ∧ days.Pairwise (· < ·)

/-- No occurrence is taken for the last day of the window, or for its first, that has only the
number of that day. -/
def Untied : Prop := ∀ i, Held schedule start finish i →
  ¬ LeapEve last (occurrence schedule start i) ∧ ¬ LeapEve (occurrence schedule start i) first

end

section
variable {schedule : RecurringSchedule} {start : CalendarDate} {finish : Option CalendarDate}
  {first last : CalendarDate} {n i : Nat}

theorem Setting.step_eq (h : Setting schedule start finish first last n) (hi : i ≤ n)
    (hcnt : ∀ c ∈ schedule.count, i < c) :
    step schedule.startDate schedule i = (occurrence schedule start i).text := by
  rw [h.startDate]
  exact step_text h.digits.1 (h.written i hi hcnt)

theorem Setting.goesOn_iff (h : Setting schedule start finish first last n) (hi : i ≤ n) :
    goesOn schedule (dayNumber last.text) i = true ↔ Held schedule start finish i ∧
      (occurrence schedule start i ≤ last ∨ LeapEve last (occurrence schedule start i)) := by
  have hcount : ¬ schedule.count.any (· ≤ i) = true ↔ ∀ c ∈ schedule.count, i < c := by
    cases schedule.count with
    | none => simp
    | some c => simp
  unfold goesOn
  rw [decide_eq_true_eq, hcount, Held, and_assoc]
  refine and_congr_right fun hcnt => ?_
  have hwrit := (h.written i hi hcnt).fourDigits
  rw [h.step_eq hi hcnt, h.endDate, dayNumber_text h.digits.2.2.1, dayNumber_text hwrit]
  refine and_congr ?_ ?_
  · cases hfin : finish with
    | none => simp
    | some e =>
      have hbef := before_text (h.digits.2.2.2 e hfin) hwrit
      simp only [Option.map_some, Option.any_some, decide_eq_true_eq, hbef, Option.mem_def,
        Option.some.injEq, forall_eq']
      rfl
  · show ¬ decide (serial last < serial _) = true ↔ _
    rw [decide_eq_true_eq, not_lt, serial_le_iff]

theorem Setting.inWindow_iff (h : Setting schedule start finish first last n) (hi : i ≤ n)
    (hcnt : ∀ c ∈ schedule.count, i < c) :
    inWindow schedule (dayNumber first.text) i = true ↔ first ≤ occurrence schedule start i ∨
      LeapEve (occurrence schedule start i) first := by
  have hwrit := (h.written i hi hcnt).fourDigits
  unfold inWindow
  rw [h.step_eq hi hcnt, dayNumber_text h.digits.2.1, dayNumber_text hwrit]
  show decide (serial first ≤ serial _) = true ↔ _
  rw [decide_eq_true_eq, serial_le_iff]

theorem Held.earlier (h : Held schedule start finish i) (hivl : 1 ≤ schedule.interval)
    {k : Nat} (hk : k ≤ i) : Held schedule start finish k := by
  refine ⟨fun c hc => hk.trans_lt (h.1 c hc), fun e he => ?_⟩
  rcases hk.eq_or_lt with rfl | hlt
  · exact h.2 e he
  · have hbef := CalendarDate.lt_iff.mp (occurrence_lt hivl start hlt)
    have hend := CalendarDate.le_iff.mp (h.2 e he)
    exact CalendarDate.le_iff.mpr (by omega)

theorem Setting.le_of_due (h : Setting schedule start finish first last n)
    (hheld : Held schedule start finish i) (hlast : (occurrence schedule start i).ordinal ≤
      last.ordinal + 1) : i ≤ n := by
  by_contra hmore
  have hlt := CalendarDate.lt_iff.mp (occurrence_lt h.interval start (not_le.mp hmore))
  exact h.past ⟨hheld.earlier h.interval (not_le.mp hmore).le, CalendarDate.le_iff.mpr (by omega)⟩

def shown (schedule : RecurringSchedule) (first last : CalendarDate) : List Nat :=
  ((List.range' 0 maxIterations).takeWhile (goesOn schedule (dayNumber last.text))).filter
    (inWindow schedule (dayNumber first.text))

theorem Setting.mem_shown (h : Setting schedule start finish first last n) (hi : i ≤ n) :
    i ∈ shown schedule first last ↔ Held schedule start finish i ∧
      (occurrence schedule start i ≤ last ∨ LeapEve last (occurrence schedule start i)) ∧
      (first ≤ occurrence schedule start i ∨ LeapEve (occurrence schedule start i) first) := by
  unfold shown
  rw [mem_filter, mem_takeWhile_range']
  constructor
  · rintro ⟨⟨-, -, hall⟩, hwnd⟩
    obtain ⟨hheld, hlast⟩ := (h.goesOn_iff hi).mp (hall i (zero_le i) le_rfl)
    exact ⟨hheld, hlast, (h.inWindow_iff hi hheld.1).mp hwnd⟩
  · rintro ⟨hheld, hlast, hfst⟩
    have hsteps := h.steps
    refine ⟨⟨zero_le i, by omega, fun k _ hk => ?_⟩, (h.inWindow_iff hi hheld.1).mpr hfst⟩
    refine (h.goesOn_iff (hk.trans hi)).mpr ⟨hheld.earlier h.interval hk, ?_⟩
    rcases hk.eq_or_lt with rfl | hlt
    · exact hlast
    · have hbef := CalendarDate.lt_iff.mp (occurrence_lt h.interval start hlt)
      rw [CalendarDate.le_iff, leapEve_iff] at hlast
      exact .inl (CalendarDate.le_iff.mpr (by omega))

theorem Setting.occurrencesBetween_eq (h : Setting schedule start finish first last n) :
    occurrencesBetween schedule first.text last.text =
      .ok ((shown schedule first last).map (step schedule.startDate schedule)) := by
  unfold occurrencesBetween
  rw [if_neg (not_lt.mpr h.interval), occurrencesFrom_eq]
  rfl

/-- A schedule fires when it is due exactly when no occurrence is the first day after the window's
leap year or the last day of the leap year before it. -/
theorem firesWhenDue_iff (h : Setting schedule start finish first last n) :
    (∃ dates, occurrencesBetween schedule first.text last.text = .ok dates ∧
      FiresWhenDue schedule start finish first last dates) ↔
        Untied schedule start finish first last := by
  rw [h.occurrencesBetween_eq]
  constructor
  · rintro ⟨dates, hdates, hdue, -⟩ i hheld
    rw [← Except.ok.inj hdates] at hdue
    -- what is shown is due
    have hshown (hi : i ≤ n) (hmem : i ∈ shown schedule first last) :
        Due schedule start finish first last i := by
      obtain ⟨j, hj, heq⟩ := (hdue _).mp (mem_map_of_mem hmem)
      have hjn : j ≤ n := by
        have hlast := CalendarDate.le_iff.mp hj.2.2
        exact h.le_of_due hj.1 (by omega)
      rw [h.step_eq hi hheld.1, h.step_eq hjn hj.1.1] at heq
      have hne {a b : Nat} (hab : a < b) (ha : (occurrence schedule start a).Written)
          (hb : (occurrence schedule start b).Written) :
          (occurrence schedule start a).text ≠ (occurrence schedule start b).text := by
        intro hsame
        have hbef := (before_text ha.fourDigits hb.fourDigits).mpr
          (occurrence_lt h.interval start hab)
        rw [hsame] at hbef
        exact lt_irrefl _ hbef
      have hwi := h.written i hi hheld.1
      have hwj := h.written j hjn hj.1.1
      rcases lt_trichotomy i j with hlt | rfl | hgt
      · exact absurd heq (hne hlt hwi hwj)
      · exact hj
      · exact absurd heq.symm (hne hgt hwj hwi)
    have hwnd := CalendarDate.le_iff.mp h.window
    constructor
    · intro htied
      have hnext := (leapEve_iff.mp htied).1
      have hi := h.le_of_due hheld hnext.le
      have hdue := hshown hi ((h.mem_shown hi).mpr
        ⟨hheld, .inr htied, .inl (CalendarDate.le_iff.mpr (by omega))⟩)
      have hlast := CalendarDate.le_iff.mp hdue.2.2
      omega
    · intro htied
      have hnext := (leapEve_iff.mp htied).1
      have hi := h.le_of_due hheld (by omega)
      have hdue := hshown hi ((h.mem_shown hi).mpr
        ⟨hheld, .inl (CalendarDate.le_iff.mpr (by omega)), .inr htied⟩)
      have hfst := CalendarDate.le_iff.mp hdue.2.1
      omega
  · intro hunt
    have hsmall : ∀ i ∈ shown schedule first last, i < n := by
      intro i hmem
      by_contra hge
      have hall := (mem_takeWhile_range'.mp (mem_of_mem_filter hmem)).2.2
      obtain ⟨hheld, hlast⟩ := (h.goesOn_iff le_rfl).mp (hall n (zero_le n) (not_lt.mp hge))
      exact h.past ⟨hheld, hlast.resolve_right (hunt n hheld).1⟩
    have hmem : ∀ i, i ∈ shown schedule first last ↔ Due schedule start finish first last i := by
      intro i
      constructor
      · intro hi
        obtain ⟨hheld, hlast, hfst⟩ := (h.mem_shown (hsmall i hi).le).mp hi
        exact ⟨hheld, hfst.resolve_right (hunt i hheld).2,
          hlast.resolve_right (hunt i hheld).1⟩
      · rintro ⟨hheld, hfst, hlast⟩
        have hle := CalendarDate.le_iff.mp hlast
        exact (h.mem_shown (h.le_of_due hheld (by omega))).mpr ⟨hheld, .inl hlast, .inl hfst⟩
    refine ⟨_, rfl, fun date => ?_, (shown schedule first last).map (occurrence schedule start),
      ?_, ?_⟩
    · rw [mem_map]
      constructor
      · rintro ⟨i, hi, rfl⟩
        exact ⟨i, (hmem i).mp hi, rfl⟩
      · rintro ⟨i, hi, rfl⟩
        exact ⟨i, (hmem i).mpr hi, rfl⟩
    · rw [map_map]
      apply map_congr_left
      intro i hi
      exact h.step_eq (hsmall i hi).le ((hmem i).mp hi).1.1
    · rw [pairwise_map]
      have hrange : (range' 0 maxIterations).Pairwise (· < ·) := pairwise_lt_range'
      have hsort : (shown schedule first last).Pairwise (· < ·) :=
        hrange.sublist (filter_sublist.trans (takeWhile_sublist _))
      exact hsort.imp fun hlt => occurrence_lt h.interval start hlt

end

namespace Sample

def yearEnd : CalendarDate := ⟨2024 * 12 + 11, 31, by decide, by decide⟩

def daily : RecurringSchedule := ⟨.daily, 1, "2024-12-31", none, none⟩

theorem occurrence_daily (i : Nat) :
    (occurrence daily yearEnd i).ordinal = yearEnd.ordinal + i := by
  show (yearEnd.plusDays (1 * i)).ordinal = _
  rw [CalendarDate.plusDays, CalendarDate.ordinal_ofOrdinal, one_mul]

theorem setting_daily : Setting daily yearEnd none yearEnd yearEnd 1 where
  interval := by decide
  startDate := by decide +kernel
  endDate := rfl
  digits := ⟨⟨by decide, by decide⟩, ⟨by decide, by decide⟩, ⟨by decide, by decide⟩, nofun⟩
  window := CalendarDate.le_iff.mpr le_rfl
  steps := by decide
  past := by
    rintro ⟨-, hlast⟩
    rw [CalendarDate.le_iff, occurrence_daily] at hlast
    omega
  written := by
    intro i hi _
    interval_cases i
    · exact ⟨by decide, by decide⟩
    · exact ⟨by decide, by decide⟩

end Sample

theorem firesWhenDue_daily_iff :
    (∃ dates, occurrencesBetween Sample.daily Sample.yearEnd.text Sample.yearEnd.text = .ok dates ∧
      FiresWhenDue Sample.daily Sample.yearEnd none Sample.yearEnd Sample.yearEnd dates) ↔
        Untied Sample.daily Sample.yearEnd none Sample.yearEnd Sample.yearEnd :=
  firesWhenDue_iff Sample.setting_daily

theorem fires_after_window :
    occurrencesBetween Sample.daily "2024-12-31" "2024-12-31" =
      .ok ["2024-12-31", "2025-01-01"] ∧
    ¬ ∃ dates, occurrencesBetween Sample.daily Sample.yearEnd.text Sample.yearEnd.text = .ok dates ∧
      FiresWhenDue Sample.daily Sample.yearEnd none Sample.yearEnd Sample.yearEnd dates := by
  have htext : Sample.yearEnd.text = "2024-12-31" := by decide +kernel
  have hruns : occurrencesBetween Sample.daily "2024-12-31" "2024-12-31" =
      .ok ["2024-12-31", "2025-01-01"] := by decide +kernel
  refine ⟨hruns, ?_⟩
  rintro ⟨dates, hdates, hdue, -⟩
  rw [htext, hruns] at hdates
  rw [← Except.ok.inj hdates] at hdue
  obtain ⟨i, hi, heq⟩ := (hdue "2025-01-01").mp (by decide)
  have hlast := CalendarDate.le_iff.mp hi.2.2
  rw [Sample.occurrence_daily] at hlast
  obtain rfl : i = 0 := by omega
  revert heq
  decide +kernel

end Rgnr8.Subledger.Recurring
