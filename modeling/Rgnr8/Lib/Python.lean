import Rgnr8.Lib.Javascript
import Mathlib.Order.Lattice
import Mathlib.Data.Rat.Floor
import Mathlib.Tactic.Common
import Mathlib.Tactic.IntervalCases

/-! The parts of the Python standard library that the forecast passes through: dates, which run from
0001-01-01 to 9999-12-31, and rounding to even. -/

namespace Rgnr8.Lib.Py
open Js List

inductive PyError where
  | overflow
  | value
  | currencyMismatch (a b : String)
  | index
  | key
  -- a loop that does not come to an end
  | unending
  deriving DecidableEq

def maxOrdinal : Int := 3652059

@[ext] structure Date where
  ordinal : Int
  inCalendar : 1 ≤ ordinal ∧ ordinal ≤ maxOrdinal
  deriving DecidableEq

namespace Date

instance : LinearOrder Date := LinearOrder.lift' Date.ordinal fun _ _ h => Date.ext h

theorem le_def {a b : Date} : a ≤ b ↔ a.ordinal ≤ b.ordinal := Iff.rfl

theorem lt_def {a b : Date} : a < b ↔ a.ordinal < b.ordinal := Iff.rfl

def ofOrdinal (n : Int) : Except PyError Date :=
  if h : 1 ≤ n ∧ n ≤ maxOrdinal then .ok ⟨n, h⟩ else .error .overflow

/-- `date + timedelta(days=n)`. -/
def addDays (d : Date) (n : Int) : Except PyError Date := ofOrdinal (d.ordinal + n)

/-- `(a - b).days`. -/
def daysSince (a b : Date) : Int := a.ordinal - b.ordinal

theorem ofOrdinal_eq_ok {n : Int} {d : Date} : ofOrdinal n = .ok d ↔ d.ordinal = n := by
  unfold ofOrdinal
  split_ifs with h
  · rw [Except.ok.injEq, Date.ext_iff]
    exact eq_comm
  · refine iff_of_false (fun h => nomatch h) fun hd => h ?_
    rw [← hd]
    exact d.inCalendar

theorem addDays_eq_ok {d e : Date} {n : Int} :
    d.addDays n = .ok e ↔ e.ordinal = d.ordinal + n := ofOrdinal_eq_ok

def civil (d : Date) : Int × Int × Int := civilOfDays (d.ordinal - 719163)

def isLeap (year : Int) : Bool := year % 4 = 0 ∧ (year % 100 ≠ 0 ∨ year % 400 = 0)

def daysInMonth (year month : Int) : Int :=
  if month = 2 then if isLeap year then 29 else 28
  else if month = 4 ∨ month = 6 ∨ month = 9 ∨ month = 11 then 30 else 31

/-- `date(year, month, day)`. -/
def ofCivil (year month day : Int) : Except PyError Date :=
  if 1 ≤ year ∧ year ≤ 9999 ∧ 1 ≤ month ∧ month ≤ 12 ∧ 1 ≤ day ∧ day ≤ daysInMonth year month then
    ofOrdinal (daysOfCivil year month day + 719163)
  else .error .value

end Date

/-- `round` of a number: to the nearest integer, the even one of two. -/
def round (q : Rat) : Int :=
  let rest := q - q.floor
  if rest < 1 / 2 ∨ (rest = 1 / 2 ∧ q.floor % 2 = 0) then q.floor else q.floor + 1

/-- `a / b` of integers. -/
def trueDiv (a b : Int) : Except PyError Rat :=
  if b = 0 then .error .value
  else match double ((a : Rat) / b) with
    | some q => .ok q
    | none => .error .overflow

/-- `str.isspace` of a character. -/
def isWhitespace (c : Char) : Bool :=
  c.toNat ∈ [0x85, 0xA0, 0x1680, 0x2028, 0x2029, 0x202F, 0x205F, 0x3000] ∨
    (0x09 ≤ c.toNat ∧ c.toNat ≤ 0x0D) ∨ (0x1C ≤ c.toNat ∧ c.toNat ≤ 0x20) ∨
    (0x2000 ≤ c.toNat ∧ c.toNat ≤ 0x200A)

/-- `str.strip` -/
def strip (s : String) : String :=
  String.ofList ((s.toList.dropWhile isWhitespace).reverse.dropWhile isWhitespace).reverse

/-- `int` of a text of decimal digits. -/
def intOf (text : String) : Option Int :=
  match (trim text).toList with
  | '-' :: cs => (naturalIn 10 cs).map fun n => -(n : Int)
  | '+' :: cs => (naturalIn 10 cs).map fun n => (n : Int)
  | cs => (naturalIn 10 cs).map fun n => (n : Int)

/-- `date.fromisoformat` of a text of the form YYYY-MM-DD. -/
def Date.fromIso (text : String) : Except PyError Date :=
  match text.toList with
  | [a, b, c, d, '-', e, f, '-', g, h] =>
    match naturalIn 10 [a, b, c, d], naturalIn 10 [e, f], naturalIn 10 [g, h] with
    | some year, some month, some day => Date.ofCivil year month day
    | _, _, _ => .error .value
  | _ => .error .value

/-! Texts cut at a delimiter. -/

/-- `text.split(c, 1)`, where the delimiter occurs. -/
def splitFirst (c : Char) : List Char → Option (List Char × List Char)
  | [] => none
  | d :: ds => if d = c then some ([], ds) else (splitFirst c ds).map fun p => (d :: p.1, p.2)

/-- `text.rsplit(c, 1)`, where the delimiter occurs. -/
def splitLast (c : Char) (text : List Char) : Option (List Char × List Char) :=
  (splitFirst c text.reverse).map fun p => (p.2.reverse, p.1.reverse)

theorem splitFirst_append {c : Char} {front : List Char} (h : c ∉ front) (rest : List Char) :
    splitFirst c (front ++ c :: rest) = some (front, rest) := by
  induction front with
  | nil => exact if_pos rfl
  | cons d front ih =>
    rw [mem_cons, not_or] at h
    rw [cons_append, splitFirst, if_neg (Ne.symm h.1), ih h.2]
    rfl

theorem eq_of_splitFirst {c : Char} {text front rest : List Char}
    (h : splitFirst c text = some (front, rest)) : text = front ++ c :: rest := by
  induction text generalizing front with
  | nil => exact nomatch h
  | cons d text ih =>
    rw [splitFirst] at h
    split_ifs at h with hd
    · obtain ⟨rfl, rfl⟩ := Prod.mk.inj (Option.some.inj h)
      rw [hd]
      rfl
    · obtain ⟨⟨front', rest'⟩, hcut, hp⟩ := Option.map_eq_some_iff.mp h
      obtain ⟨rfl, rfl⟩ := Prod.mk.inj hp
      rw [ih hcut]
      rfl

theorem splitLast_append {c : Char} {back : List Char} (h : c ∉ back) (front : List Char) :
    splitLast c (front ++ c :: back) = some (front, back) := by
  have hrev : (front ++ c :: back).reverse = back.reverse ++ c :: front.reverse := by
    rw [reverse_append, reverse_cons, append_assoc]
    rfl
  rw [splitLast, hrev, splitFirst_append fun hmem => h (mem_reverse.mp hmem)]
  rw [Option.map_some, reverse_reverse, reverse_reverse]

/-! `int` of what `str` writes. -/

theorem toList_toString_negSucc (n : Nat) :
    (toString (Int.negSucc n)).toList = '-' :: (toString (n + 1)).toList := String.toList_append

theorem trim_toString (n : Int) : trim (toString n) = toString n := by
  cases n with
  | ofNat n => exact trim_of_digits (digits_toString n)
  | negSucc n =>
    refine trim_of_not_space fun c hc => ?_
    rw [toList_toString_negSucc] at hc
    rcases mem_cons.mp hc with rfl | hc
    · decide
    · exact isSpace_of_isDigit (digits_toString (n + 1) c hc)

theorem intOf_toString (n : Int) : intOf (toString n) = some n := by
  unfold intOf
  rw [trim_toString]
  cases n with
  | ofNat n =>
    have hdig := digits_toString n
    have hread := naturalIn_toString n
    rw [show toString (Int.ofNat n) = toString n from rfl]
    generalize (toString n).toList = cs at hdig hread
    split
    · exact absurd (hdig '-' mem_cons_self) (by decide)
    · exact absurd (hdig '+' mem_cons_self) (by decide)
    · rw [hread]
      rfl
  | negSucc n =>
    rw [toList_toString_negSucc]
    show (naturalIn 10 (toString (n + 1)).toList).map (fun n => -(n : Int)) = _
    rw [naturalIn_toString]
    rfl

theorem not_mem_toString {c : Char} (hminus : c ≠ '-') (hdigit : c.isDigit = false) (n : Int) :
    c ∉ (toString n).toList := by
  intro hmem
  have hnot (n : Nat) : c ∉ (toString n).toList := by
    intro hc
    rw [digits_toString n c hc] at hdigit
    exact absurd hdigit (by decide)
  cases n with
  | ofNat n => exact hnot n hmem
  | negSucc n =>
    rw [toList_toString_negSucc] at hmem
    rcases mem_cons.mp hmem with hc | hc
    · exact hminus hc
    · exact hnot (n + 1) hc

end Rgnr8.Lib.Py

/-! The civil calendar: months follow one another, and a day is that of its year, month and day. -/

namespace Rgnr8.Lib.Py.Date
open Js

variable (n : Int)

def monthStart : Int := daysOfCivil (n / 12) (n % 12 + 1) 1

def monthLength : Int := daysInMonth (n / 12) (n % 12 + 1)

theorem daysOfCivil_day (year month day : Int) :
    daysOfCivil year month day = daysOfCivil year month 1 + (day - 1) := by
  unfold daysOfCivil
  dsimp only
  omega

theorem isLeap_iff (year : Int) : isLeap year = true ↔
    year % 4 = 0 ∧ (year % 100 ≠ 0 ∨ year % 400 = 0) := decide_eq_true_iff

theorem monthStart_succ : monthStart (n + 1) = monthStart n + monthLength n := by
  have hmonth : n % 12 = 11 ∨ n % 12 = 1 ∨ (n % 12 ≠ 11 ∧ n % 12 ≠ 1) := by omega
  rcases hmonth with hdec | hfeb | hother
  · have hyear : (n + 1) / 12 = n / 12 + 1 := by omega
    have hjan : (n + 1) % 12 = 0 := by omega
    unfold monthStart monthLength daysInMonth daysOfCivil
    rw [hyear, hjan, hdec]
    norm_num
    omega
  · have hyear : (n + 1) / 12 = n / 12 := by omega
    have hmar : (n + 1) % 12 = 2 := by omega
    unfold monthStart monthLength daysInMonth daysOfCivil
    rw [hyear, hmar, hfeb]
    generalize n / 12 = year
    have hleap := isLeap_iff year
    by_cases h : isLeap year = true
    · rw [h] at hleap ⊢
      have hdiv := hleap.mp rfl
      norm_num
      omega
    · have hdiv : ¬ (year % 4 = 0 ∧ (year % 100 ≠ 0 ∨ year % 400 = 0)) := fun h' => h (hleap.mpr h')
      rw [Bool.not_eq_true] at h
      rw [h]
      -- the cycle is that of the year before
      have hcycle : (year - 1) / 400 = year / 400 := by omega
      norm_num
      rw [hcycle]
      rcases eq_or_ne (year % 100) 0 with hcen | hcen <;> omega
  · have hyear : (n + 1) / 12 = n / 12 := by omega
    have hnext : (n + 1) % 12 = n % 12 + 1 := by omega
    unfold monthStart monthLength daysInMonth daysOfCivil
    rw [hyear, hnext]
    generalize n / 12 = year
    have hlow : 0 ≤ n % 12 := Int.emod_nonneg n (by decide)
    have hhigh : n % 12 < 11 := by omega
    generalize n % 12 = m at *
    interval_cases m <;> first | omega | (norm_num; done) | (norm_num; omega)

theorem monthLength_pos : 28 ≤ monthLength n := by
  unfold monthLength daysInMonth
  split_ifs <;> decide

theorem monthStart_lt {m n : Int} (h : m < n) : monthStart m + monthLength m ≤ monthStart n := by
  obtain ⟨k, rfl⟩ : ∃ k : Nat, n = m + 1 + k := ⟨(n - m - 1).toNat, by omega⟩
  clear h
  induction k with
  | zero =>
    rw [Nat.cast_zero, Int.add_zero, monthStart_succ]
  | succ k ih =>
    have hlength := monthLength_pos (m + 1 + k)
    have hnext : m + 1 + ((k + 1 : Nat) : Int) = m + 1 + k + 1 := by omega
    rw [hnext, monthStart_succ]
    omega

/-! A date from its year, month and day. -/

theorem ofCivil_eq_ok {year month day : Int} {d : Date} : ofCivil year month day = .ok d ↔
    (1 ≤ year ∧ year ≤ 9999 ∧ 1 ≤ month ∧ month ≤ 12 ∧ 1 ≤ day ∧ day ≤ daysInMonth year month) ∧
      d.ordinal = daysOfCivil year month day + 719163 := by
  unfold ofCivil
  split_ifs with h
  · rw [ofOrdinal_eq_ok]
    exact (and_iff_right h).symm
  · exact iff_of_false (fun h => nomatch h) fun hd => h hd.1

theorem yearOfEra_bounds {dayOfEra yearOfEra dayOfYear : Int} (hlow : 0 ≤ dayOfEra)
    (hhigh : dayOfEra ≤ 146096)
    (hyear : yearOfEra = (dayOfEra - dayOfEra / 1460 + dayOfEra / 36524 - dayOfEra / 146096) / 365)
    (hday : dayOfYear = dayOfEra - (365 * yearOfEra + yearOfEra / 4 - yearOfEra / 100)) :
    0 ≤ yearOfEra ∧ yearOfEra ≤ 399 ∧ 0 ≤ dayOfYear ∧ dayOfYear ≤ 365 := by
  have hcen : dayOfEra / 36524 = 0 ∨ dayOfEra / 36524 = 1 ∨ dayOfEra / 36524 = 2 ∨
      dayOfEra / 36524 = 3 ∨ dayOfEra / 36524 = 4 := by omega
  rcases hcen with h | h | h | h | h
  · have hhun : yearOfEra / 100 = 0 := by omega
    omega
  · have hhun : yearOfEra / 100 = 1 := by omega
    omega
  · have hhun : yearOfEra / 100 = 2 := by omega
    omega
  · have hhun : yearOfEra / 100 = 3 := by omega
    omega
  · omega

theorem leap_of_dayOfYear {dayOfEra yearOfEra : Int} (hlow : 0 ≤ dayOfEra)
    (hhigh : dayOfEra ≤ 146096)
    (hyear : yearOfEra = (dayOfEra - dayOfEra / 1460 + dayOfEra / 36524 - dayOfEra / 146096) / 365)
    (hday : 365 = dayOfEra - (365 * yearOfEra + yearOfEra / 4 - yearOfEra / 100)) :
    (yearOfEra + 1) % 4 = 0 ∧ ((yearOfEra + 1) % 100 ≠ 0 ∨ (yearOfEra + 1) % 400 = 0) := by
  have hcen : dayOfEra / 36524 = 0 ∨ dayOfEra / 36524 = 1 ∨ dayOfEra / 36524 = 2 ∨
      dayOfEra / 36524 = 3 ∨ dayOfEra = 146096 := by omega
  have hrest : yearOfEra % 4 = 0 ∨ yearOfEra % 4 = 1 ∨ yearOfEra % 4 = 2 ∨ yearOfEra % 4 = 3 := by
    omega
  rcases hcen with h | h | h | h | rfl
  · have hcycle : dayOfEra / 146096 = 0 := by omega
    have hhun : yearOfEra / 100 = 0 := by omega
    rcases hrest with hrest | hrest | hrest | hrest <;> omega
  · have hcycle : dayOfEra / 146096 = 0 := by omega
    have hhun : yearOfEra / 100 = 1 := by omega
    rcases hrest with hrest | hrest | hrest | hrest <;> omega
  · have hcycle : dayOfEra / 146096 = 0 := by omega
    have hhun : yearOfEra / 100 = 2 := by omega
    rcases hrest with hrest | hrest | hrest | hrest <;> omega
  · have hcycle : dayOfEra / 146096 = 0 := by omega
    have hhun : yearOfEra / 100 = 3 := by omega
    rcases hrest with hrest | hrest | hrest | hrest <;> omega
  · omega

theorem daysOfCivil_civilOfDays (days : Int) : let c := civilOfDays days
    daysOfCivil c.1 c.2.1 c.2.2 = days ∧ 1 ≤ c.2.1 ∧ c.2.1 ≤ 12 ∧ 1 ≤ c.2.2 ∧
      c.2.2 ≤ daysInMonth c.1 c.2.1 := by
  unfold civilOfDays
  dsimp only
  generalize hera : (days + 719468) / 146097 = era
  generalize hdoe : days + 719468 - era * 146097 = dayOfEra
  generalize hyear : (dayOfEra - dayOfEra / 1460 + dayOfEra / 36524 - dayOfEra / 146096) / 365 =
    yearOfEra
  generalize hday : dayOfEra - (365 * yearOfEra + yearOfEra / 4 - yearOfEra / 100) = dayOfYear
  obtain ⟨hyear0, hyear399, hday0, hday365⟩ := yearOfEra_bounds (by omega) (by omega) hyear.symm
    hday.symm
  have hleap := fun h : dayOfYear = 365 => @leap_of_dayOfYear dayOfEra _ (by omega)
    (by omega) hyear.symm (by omega)
  have hmarch0 : 0 ≤ (5 * dayOfYear + 2) / 153 := by omega
  have hmarch11 : (5 * dayOfYear + 2) / 153 ≤ 11 := by omega
  have hcycle : (yearOfEra + era * 400) / 400 = era := by omega
  have hrest : (yearOfEra + era * 400) - era * 400 = yearOfEra := by omega
  generalize hmarch : (5 * dayOfYear + 2) / 153 = fromMarch at hmarch0 hmarch11 ⊢
  by_cases hyearEnd : fromMarch < 10
  · have hnot : ¬ fromMarch + 3 ≤ 2 := by omega
    have hmonth : 2 < fromMarch + 3 := by omega
    have hback : fromMarch + 3 - 3 = fromMarch := by omega
    unfold daysOfCivil daysInMonth
    simp only [if_pos hyearEnd, if_neg hnot, if_pos hmonth, hcycle, hrest, hback]
    refine ⟨by omega, by omega, by omega, by omega, ?_⟩
    split_ifs <;> omega
  · have hle : fromMarch - 9 ≤ 2 := by omega
    have hmonth : ¬ 2 < fromMarch - 9 := by omega
    have hback : fromMarch - 9 + 9 = fromMarch := by omega
    have hyearB : yearOfEra + era * 400 + 1 - 1 = yearOfEra + era * 400 := by omega
    unfold daysOfCivil daysInMonth
    simp only [if_neg hyearEnd, if_pos hle, if_neg hmonth, hyearB, hcycle, hrest, hback]
    refine ⟨by omega, by omega, by omega, by omega, ?_⟩
    split_ifs with hfeb hisL hshort
    · omega
    · -- the last day of a February without a leap day is the 28th
      have hnotL : dayOfYear ≠ 365 := fun h => hisL ((isLeap_iff _).mpr (by
        have := hleap h
        omega))
      omega
    · omega
    · omega

theorem civil_spec (d : Date) : ofCivil d.civil.1 d.civil.2.1 d.civil.2.2 = .ok d := by
  have hspec := daysOfCivil_civilOfDays (d.ordinal - 719163)
  have hcal := d.inCalendar
  unfold civil
  generalize civilOfDays (d.ordinal - 719163) = c at hspec
  obtain ⟨year, month, day⟩ := c
  dsimp only at hspec ⊢
  obtain ⟨hdays, hmonth1, hmonth12, hday1, hday⟩ := hspec
  rw [ofCivil_eq_ok]
  have hyears : 1 ≤ year ∧ year ≤ 9999 := by
    have hlength : daysInMonth year month ≤ 31 := by
      unfold daysInMonth
      split_ifs <;> decide
    unfold maxOrdinal at hcal
    unfold daysOfCivil at hdays
    dsimp only at hdays
    constructor
    · by_contra hlt
      split_ifs at hdays <;> omega
    · by_contra hgt
      split_ifs at hdays <;> omega
  exact ⟨⟨hyears.1, hyears.2, hmonth1, hmonth12, hday1, hday⟩, by omega⟩

end Rgnr8.Lib.Py.Date
