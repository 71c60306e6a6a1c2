import Rgnr8.Kernel.Fingerprint
import Rgnr8.Lib.Javascript

/-! The occurrence dates of a memorized transaction, materialized from its schedule with no clock.
Numbers are integers or NaN, which is `none` here, as is a month's length read past the year. -/

namespace Rgnr8.Subledger.Recurring
open Lib Lib.Js Kernel

inductive Frequency where
  | daily | weekly | monthly | yearly
  deriving DecidableEq

def Frequency.text : Frequency → String
  | daily => "DAILY"
  | weekly => "WEEKLY"
  | monthly => "MONTHLY"
  | yearly => "YEARLY"

structure RecurringSchedule where
  frequency : Frequency
  interval : Nat
  startDate : String
  endDate : Option String
  count : Option Nat

/-- An integer, or NaN. -/
abbrev Number := Option Int

namespace Number

def add (a b : Number) : Number := do return (← a) + (← b)

def sub (a b : Number) : Number := do return (← a) - (← b)

/-- NaN is before nothing. -/
def lt : Number → Number → Bool
  | some a, some b => a < b
  | _, _ => false

def le : Number → Number → Bool
  | some a, some b => a ≤ b
  | _, _ => false

def text : Number → String
  | some n => toString n
  | none => "NaN"

end Number

/-- `Number` of a slice of digits and hyphens. -/
def numberAt (iso : String) (start finish : Nat) : Number :=
  match (iso.toList.take finish).drop start with
  | [] => some 0
  | '-' :: cs => (naturalIn 10 cs).map fun n => -(n : Int)
  | cs => (naturalIn 10 cs).map fun n => (n : Int)

structure DateParts where
  y : Number
  m : Number
  d : Number

def parts (iso : String) : DateParts := ⟨numberAt iso 0 4, numberAt iso 5 7, numberAt iso 8 10⟩

def pad2 (n : Number) : String := if n.lt (some 10) then "0" ++ n.text else n.text

def iso (y m d : Number) : String := "-".intercalate [y.text, pad2 m, pad2 d]

def isLeap (y : Int) : Bool := (y % 4 = 0 ∧ y % 100 ≠ 0) ∨ y % 400 = 0

def lastDay (y m : Number) : Number := do
  let m ← m
  if m < 1 then none
  else [31, if y.any isLeap then 29 else 28, 31, 30, 31, 30, 31, 31, 30, 31, 30, 31][(m - 1).toNat]?

def dayNumber (iso : String) : Number :=
  let p := parts iso
  let months := (List.range (p.m.getD 1 - 1).toNat).map fun k => (some (k + 1) : Number)
  let days := months.foldl (fun days mm => days.add (lastDay p.y mm)) p.d
  days.add (p.y.map fun y => y * 365 + y / 4 - y / 100 + y / 400)

/-- Carry days past the end of a month into the next ones; every month has at least 28. -/
def carryForward : Nat → DateParts → DateParts
  | 0, p => p
  | fuel + 1, p =>
    if (lastDay p.y p.m).lt p.d then
      let m := p.m.add (some 1)
      let d := p.d.sub (lastDay p.y p.m)
      carryForward fuel (if Number.lt (some 12) m then ⟨p.y.add (some 1), some 1, d⟩ else ⟨p.y, m, d⟩)
    else p

def carryBack : Nat → DateParts → DateParts
  | 0, p => p
  | fuel + 1, p =>
    if p.d.lt (some 1) then
      let m := p.m.sub (some 1)
      let (y, m) : Number × Number :=
        if m.lt (some 1) then (p.y.sub (some 1), some 12) else (p.y, m)
      carryBack fuel ⟨y, m, p.d.add (lastDay y m)⟩
    else p

variable (isoDate : String)

def addDays (n : Nat) : String :=
  let p := parts isoDate
  let day := p.d.add (some n)
  let q := carryForward (day.getD 0).toNat ⟨p.y, p.m, day⟩
  let r := carryBack (1 - q.d.getD 1).toNat q
  iso r.y r.m r.d

def addMonths (n : Nat) : String :=
  let p := parts isoDate
  let total : Number := Number.add (Number.add (p.y.map (· * 12)) (p.m.sub (some 1))) (some n)
  let year : Number := total.map (· / 12)
  let month : Number := total.map fun t => t.tmod 12 + 1
  let day : Number := do return min (← p.d) (← lastDay year month)
  iso year month day

variable (schedule : RecurringSchedule)

def step (i : Nat) : String :=
  let n := schedule.interval * i
  match schedule.frequency with
  | .daily => addDays isoDate n
  | .weekly => addDays isoDate (n * 7)
  | .monthly => addMonths isoDate n
  | .yearly => addMonths isoDate (n * 12)

/-- The loop, from occurrence `i` on with `fired` behind it. -/
def occurrencesFrom (schedule : RecurringSchedule) (fromDay toDay : Number) :
    Nat → Nat → Nat → List String
  | 0, _, _ => []
  | fuel + 1, i, fired =>
    if schedule.count.any (· ≤ fired) then []
    else
      let date := step schedule.startDate schedule i
      if schedule.endDate.any (fun hardEnd => Before hardEnd date) then []
      else if toDay.lt (dayNumber date) then []
      else
        let rest := occurrencesFrom schedule fromDay toDay fuel (i + 1) (fired + 1)
        if fromDay.le (dayNumber date) then date :: rest else rest

def maxIterations : Nat := 100000

def occurrencesBetween (fromDate toDate : String) : Except String (List String) :=
  if schedule.interval < 1 then .error "recurring interval must be >= 1"
  else .ok (occurrencesFrom schedule (dayNumber fromDate) (dayNumber toDate) maxIterations 0 0)

/-! An occurrence date holds no colon. -/

theorem free_text (n : Number) : Free ':' n.text := by
  cases n with
  | none => decide
  | some n => exact free_toString_int (by decide) (by decide) n

theorem free_iso (y m d : Number) : Free ':' (iso y m d) := by
  have hpad : ∀ n : Number, Free ':' (pad2 n) := by
    intro n
    unfold pad2
    split_ifs
    · exact free_append.mpr ⟨by decide, free_text n⟩
    · exact free_text n
  unfold iso
  refine free_intercalate (by decide) fun p hp => ?_
  simp only [List.mem_cons, List.not_mem_nil, or_false] at hp
  rcases hp with rfl | rfl | rfl
  · exact free_text y
  · exact hpad m
  · exact hpad d

theorem free_step (i : Nat) : Free ':' (step isoDate schedule i) := by
  unfold step
  cases schedule.frequency with
  | daily => exact free_iso _ _ _
  | weekly => exact free_iso _ _ _
  | monthly => exact free_iso _ _ _
  | yearly => exact free_iso _ _ _

theorem free_of_mem_occurrencesFrom {schedule : RecurringSchedule} {fromDay toDay : Number}
    {fuel i fired : Nat} {date : String}
    (h : date ∈ occurrencesFrom schedule fromDay toDay fuel i fired) : Free ':' date := by
  induction fuel generalizing i fired with
  | zero => exact absurd h List.not_mem_nil
  | succ fuel ih =>
    unfold occurrencesFrom at h
    dsimp only at h
    split_ifs at h
    · exact absurd h List.not_mem_nil
    · exact absurd h List.not_mem_nil
    · exact absurd h List.not_mem_nil
    · rcases List.mem_cons.mp h with rfl | h
      · exact free_step _ _ _
      · exact ih h
    · exact ih h

theorem free_of_mem_occurrencesBetween {schedule : RecurringSchedule} {fromDate toDate : String}
    {dates : List String} (hdates : occurrencesBetween schedule fromDate toDate = .ok dates)
    {date : String} (h : date ∈ dates) : Free ':' date := by
  unfold occurrencesBetween at hdates
  split_ifs at hdates
  rw [← Except.ok.inj hdates] at h
  exact free_of_mem_occurrencesFrom h

example : occurrencesBetween ⟨.monthly, 1, "2026-01-31", none, none⟩ "2026-01-31" "2026-03-31" =
    .ok ["2026-01-31", "2026-02-28", "2026-03-31"] := by decide +kernel

end Rgnr8.Subledger.Recurring
