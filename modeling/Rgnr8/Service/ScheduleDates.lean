import Rgnr8.Lib.IsoText
import Rgnr8.Lib.Python
import Rgnr8.Service.DepreciationRuns

/-! The months of a schedule as dates: when their texts are in order, and when they are not. -/

namespace Rgnr8.Lib.Py.Date
open Js

theorem civilOfDays_monthStart {n d : Int} (hlow : 1 ≤ d) (hhigh : d ≤ monthLength n) :
    civilOfDays (monthStart n + (d - 1)) = (n / 12, n % 12 + 1, d) := by
  have hspec := daysOfCivil_civilOfDays (monthStart n + (d - 1))
  generalize civilOfDays (monthStart n + (d - 1)) = c at hspec
  obtain ⟨year, month, day⟩ := c
  dsimp only at hspec
  obtain ⟨hdays, hmonth1, hmonth12, hday1, hday⟩ := hspec
  rw [daysOfCivil_day] at hdays
  -- the month it was found in
  have hyear : (year * 12 + (month - 1)) / 12 = year := by omega
  have hmonth : (year * 12 + (month - 1)) % 12 + 1 = month := by omega
  have hstart : monthStart (year * 12 + (month - 1)) = daysOfCivil year month 1 := by
    unfold monthStart
    rw [hyear, hmonth]
  have hlength : monthLength (year * 12 + (month - 1)) = daysInMonth year month := by
    unfold monthLength
    rw [hyear, hmonth]
  rw [← hstart] at hdays
  rw [← hlength] at hday
  rcases lt_trichotomy (year * 12 + (month - 1)) n with hless | heq | hmore
  · have hgap := monthStart_lt hless
    omega
  · rw [heq] at hdays
    have hsame : day = d := by omega
    rw [← heq, hyear, hmonth, hsame]
  · have hgap := monthStart_lt hmore
    omega

theorem monthLength_le (n : Int) : monthLength n ≤ 31 := by
  unfold monthLength daysInMonth
  split_ifs <;> decide

end Rgnr8.Lib.Py.Date

namespace Rgnr8.Lib
open Js Py Py.Date

theorem isoDay_monthStart {n d : Int} (hmon : 0 ≤ n) (hlow : 1 ≤ d) (hhigh : d ≤ monthLength n)
    {text : String} (h : isoDay (monthStart n + (d - 1)) = some text) :
    (n < 120000 → text.toList = isoChars (n / 12).toNat (n % 12 + 1).toNat d.toNat) ∧
      (120000 ≤ n → n / 12 < 1000000 ∧ text.toList =
        '+' :: (fixed 6 (n / 12).toNat ++ '-' :: fixed 2 (n % 12 + 1).toNat)) := by
  have hdays : d ≤ 31 := hhigh.trans (monthLength_le n)
  have hmonth : (padStart 2 (n % 12 + 1).toNat).toList = fixed 2 (n % 12 + 1).toNat :=
    toList_padStart (by decide) (by omega)
  have hday : (padStart 2 d.toNat).toList = fixed 2 d.toNat :=
    toList_padStart (by decide) (by omega)
  unfold isoDay at h
  rw [civilOfDays_monthStart hlow hhigh] at h
  split_ifs at h with hrange
  dsimp only at h
  have htext (yearText : String) :
      (s!"{yearText}-{padStart 2 (n % 12 + 1).toNat}-{padStart 2 d.toNat}").toList =
        yearText.toList ++ ('-' :: (fixed 2 (n % 12 + 1).toNat ++ ('-' :: fixed 2 d.toNat))) := by
    simp only [String.toList_append, toString, hmonth, hday, List.append_assoc]
    rfl
  constructor
  · intro hyear
    rw [if_pos (by omega)] at h
    rw [← Option.some.inj h, String.toList_ofList, htext,
      toList_padStart (by decide) (by omega), List.take_of_length_le]
    · rfl
    · simp only [List.length_append, List.length_cons, length_fixed]
      decide
  · intro hyear
    have hbound : n / 12 < 1000000 := by
      unfold monthStart daysOfCivil at hrange
      dsimp only at hrange
      omega
    refine ⟨hbound, ?_⟩
    rw [if_neg (by omega), if_pos (by omega)] at h
    rw [← Option.some.inj h, String.toList_ofList, htext, String.toList_append,
      toList_padStart (by decide) (by omega)]
    have hsplit : ("+".toList ++ fixed 6 (n / 12).natAbs) ++
        ('-' :: (fixed 2 (n % 12 + 1).toNat ++ ('-' :: fixed 2 d.toNat))) =
          ('+' :: (fixed 6 (n / 12).toNat ++ '-' :: fixed 2 (n % 12 + 1).toNat)) ++
            ('-' :: fixed 2 d.toNat) := by
      have habs : (n / 12).natAbs = (n / 12).toNat := by omega
      rw [habs]
      simp only [List.append_assoc, List.cons_append]
      rfl
    rw [hsplit, List.take_append_of_le_length, List.take_of_length_le]
    · simp only [List.length_append, List.length_cons, length_fixed]
      decide
    · simp only [List.length_append, List.length_cons, length_fixed]
      decide

/-- Days of two months: their texts are in the order of the months, where no year of five digits
comes after one of four. -/
theorem isoDay_lt {n n' d d' : Int} (hmon : 0 ≤ n) (hnext : n < n') (hlow : 1 ≤ d)
    (hhigh : d ≤ monthLength n) (hlow' : 1 ≤ d') (hhigh' : d' ≤ monthLength n')
    {text text' : String} (h : isoDay (monthStart n + (d - 1)) = some text)
    (h' : isoDay (monthStart n' + (d' - 1)) = some text') :
    (text < text' ↔ ¬ (n < 120000 ∧ 120000 ≤ n')) ∧ text ≠ text' := by
  have hdays := hhigh.trans (monthLength_le n)
  have hdays' := hhigh'.trans (monthLength_le n')
  obtain ⟨hnear, hfar⟩ := isoDay_monthStart hmon hlow hhigh h
  obtain ⟨hnear', hfar'⟩ := isoDay_monthStart (by omega) hlow' hhigh' h'
  have hlt {l l' : List Char} (hl : text.toList = l) (hl' : text'.toList = l') (hless : l < l') :
      text < text' ∧ text ≠ text' := by
    have hless : text < text' := by
      rw [String.lt_iff_toList_lt, hl, hl']
      exact hless
    exact ⟨hless, hless.ne⟩
  by_cases hfour : n' < 120000
  · have hless := (hlt (hnear (by omega)) (hnear' hfour) ((isoChars_lt (by omega) (by omega)
      (by omega) (by omega) (by omega) (by omega)).mpr (by omega)))
    exact ⟨iff_of_true hless.1 (by omega), hless.2⟩
  · obtain ⟨hbound', htext'⟩ := hfar' (by omega)
    by_cases hcross : n < 120000
    · -- a sign is before any digit
      have hback : text' < text := by
        rw [String.lt_iff_toList_lt, htext', hnear hcross]
        have hfst : ∃ c cs, fixed 4 (n / 12).toNat = c :: cs ∧ '+' < c := by
          have hdig (k : Nat) : ∃ a b c e, fixed 4 k =
              [Nat.digitChar a, b, c, e] ∧ a < 10 := ⟨_, _, _, _, rfl, Nat.mod_lt _ (by decide)⟩
          obtain ⟨a, b, c, e, heq, ha⟩ := hdig (n / 12).toNat
          refine ⟨_, _, heq, ?_⟩
          have hall : ∀ a < 10, '+' < Nat.digitChar a := by decide
          exact hall a ha
        obtain ⟨c, cs, heq, hc⟩ := hfst
        unfold isoChars
        rw [heq]
        exact List.cons_lt_cons_iff.mpr (.inl hc)
      exact ⟨iff_of_false (lt_asymm hback) (by omega), hback.ne'⟩
    · obtain ⟨hbound, htext⟩ := hfar (by omega)
      have hyear : fixed 6 (n / 12).toNat < fixed 6 (n' / 12).toNat ↔
          (n / 12).toNat < (n' / 12).toNat := fixed_lt (by omega) (by omega)
      have hmonth : fixed 2 (n % 12 + 1).toNat < fixed 2 (n' % 12 + 1).toNat ↔
          (n % 12 + 1).toNat < (n' % 12 + 1).toNat := fixed_lt (by omega) (by omega)
      have hless : ('+' :: (fixed 6 (n / 12).toNat ++ '-' :: fixed 2 (n % 12 + 1).toNat)) <
          ('+' :: (fixed 6 (n' / 12).toNat ++ '-' :: fixed 2 (n' % 12 + 1).toNat)) := by
        refine List.cons_lt_cons_iff.mpr (.inr ⟨rfl, ?_⟩)
        rw [append_lt_append (by rw [length_fixed, length_fixed]), hyear]
        by_cases hyears : n / 12 < n' / 12
        · exact .inl (by omega)
        · have hsame : n / 12 = n' / 12 := by omega
          rw [hsame]
          exact .inr ⟨rfl, List.cons_lt_cons_iff.mpr (.inr ⟨rfl, hmonth.mpr (by omega)⟩)⟩
      have hboth := hlt htext htext' hless
      exact ⟨iff_of_true hboth.1 (by omega), hboth.2⟩

end Rgnr8.Lib

namespace Rgnr8.Service.FixedAssets
open Lib Lib.Js Lib.Py Lib.Py.Date Fallible Kernel

/-! The through dates. -/

def monthAndDay (date : String) : Option (Int × Int) :=
  match date.toList with
  | [a, b, c, d, '-', e, f, '-', g, h] =>
    match naturalIn 10 [a, b, c, d], naturalIn 10 [e, f], naturalIn 10 [g, h] with
    | some y, some m, some day => some (y * 12 + (m - 1), day)
    | _, _, _ => none
  | _ => none

/-- The month that is shown: `Date.UTC` takes a year of two digits for one of the twentieth
century. -/
def shownMonth (n : Int) : Int := if n < 1200 then n + 22800 else n

theorem dateUtc_shown {n day : Int} (hn : 0 ≤ n) {days : Int}
    (h : dateUtc (n / 12) (n % 12) day = some days) :
    days = monthStart (shownMonth n) + (day - 1) := by
  have hmonth : n % 12 / 12 = 0 ∧ n % 12 % 12 = n % 12 := by omega
  unfold dateUtc at h
  dsimp only at h
  split_ifs at h with htwo hrange hrange
  · rw [← Option.some.inj h, daysOfCivil_day, hmonth.1, hmonth.2, add_zero]
    have hshown : shownMonth n / 12 = 1900 + n / 12 ∧ shownMonth n % 12 = n % 12 := by
      unfold shownMonth
      rw [if_pos (by omega)]
      omega
    unfold monthStart
    rw [hshown.1, hshown.2]
  · rw [← Option.some.inj h, daysOfCivil_day, hmonth.1, hmonth.2, add_zero]
    have hshown : shownMonth n = n := by
      unfold shownMonth
      exact if_neg (by omega)
    unfold monthStart
    rw [hshown]

theorem lastDay_shown {n : Int} (hn : 0 ≤ n) {days : Int}
    (h : dateUtc (n / 12) (n % 12 + 1) 0 = some days) :
    (civilOfDays days).2.2 = monthLength (shownMonth n) := by
  have hlength := monthLength_pos (shownMonth n)
  have hdays : days = monthStart (shownMonth n) + (monthLength (shownMonth n) - 1) := by
    have hnext : days = monthStart (shownMonth n + 1) + (0 - 1) := by
      unfold dateUtc at h
      dsimp only at h
      split_ifs at h with htwo hrange hrange
      · rw [← Option.some.inj h, daysOfCivil_day]
        have hshown : (shownMonth n + 1) / 12 = 1900 + n / 12 + (n % 12 + 1) / 12 ∧
            (shownMonth n + 1) % 12 = (n % 12 + 1) % 12 := by
          unfold shownMonth
          rw [if_pos (by omega)]
          omega
        unfold monthStart
        rw [hshown.1, hshown.2]
      · rw [← Option.some.inj h, daysOfCivil_day]
        have hshown : (shownMonth n + 1) / 12 = n / 12 + (n % 12 + 1) / 12 ∧
            (shownMonth n + 1) % 12 = (n % 12 + 1) % 12 := by
          unfold shownMonth
          rw [if_neg (by omega)]
          omega
        unfold monthStart
        rw [hshown.1, hshown.2]
    rw [hnext, monthStart_succ]
    omega
  rw [hdays, civilOfDays_monthStart (by omega) le_rfl]

variable {asset : AssetRecord} {accumulated book m : Int} {rows : List DepreciationRow}
variable {expenses : List Int}

theorem addMonths_eq_ok {startDate date : String} (hm : 0 ≤ m)
    (h : addMonths startDate m = .ok date) :
    ∃ start day, monthAndDay startDate = some (start, day) ∧ 12 ≤ start ∧ 1 ≤ day ∧
      isoDay (monthStart (shownMonth (start + m)) +
        (min day (monthLength (shownMonth (start + m))) - 1)) = some date := by
  unfold addMonths at h
  dsimp only at h
  split at h
  · next a b c d e f g k heq =>
    split at h
    · next y mo day hy hmo hday =>
      have hread : monthAndDay startDate =
          some ((y : Int) * 12 + ((mo : Int) - 1), (day : Int)) := by
        simp only [monthAndDay, heq, hy, hmo, hday]
      split_ifs at h with hzero
      refine ⟨_, _, hread, by omega, by omega, ?_⟩
      split at h
      · cases h
      · next shifted hshif =>
        obtain rfl := Except.ok.inj h
        obtain ⟨last, hlast, hshif⟩ := Option.bind_eq_some_iff.mp hshif
        obtain ⟨days, hdays, hshif⟩ := Option.bind_eq_some_iff.mp hshif
        rw [lastDay_shown (by omega) hlast] at hdays
        rw [← dateUtc_shown (by omega) hdays]
        exact hshif
    · cases h
  · cases h

theorem throughDates {startDate date date' : String} {start day : Int}
    (hstart : monthAndDay startDate = some (start, day)) (hm : 0 ≤ m)
    (h : addMonths startDate m = .ok date) (h' : addMonths startDate (m + 1) = .ok date') :
    date ≤ date' ↔ start + m ≠ 1199 ∧ start + m ≠ 119999 := by
  obtain ⟨_, _, heq, hlow, hday, hdate⟩ := addMonths_eq_ok hm h
  rw [hstart, Option.some.injEq, Prod.mk.injEq] at heq
  obtain ⟨rfl, rfl⟩ := heq
  obtain ⟨_, _, heq, -, -, hdate'⟩ := addMonths_eq_ok (by omega) h'
  rw [hstart, Option.some.injEq, Prod.mk.injEq] at heq
  obtain ⟨rfl, rfl⟩ := heq
  have hlength := monthLength_pos (shownMonth (start + m))
  have hlength' := monthLength_pos (shownMonth (start + (m + 1)))
  have hshown (n : Int) : shownMonth n = if n < 1200 then n + 22800 else n := rfl
  by_cases hcen : start + m = 1199
  · -- the year 99 is shown as 1999, and 100 as itself
    obtain ⟨hless, -⟩ := isoDay_lt (by rw [hshown]; omega) (by rw [hshown, hshown]; omega)
      (by omega) (min_le_right _ _) (by omega) (min_le_right _ _) hdate' hdate
    have hback := hless.mpr (by rw [hshown, hshown]; omega)
    exact iff_of_false (not_le_of_gt hback) fun hnot => hnot.1 hcen
  · obtain ⟨hless, hne⟩ := isoDay_lt (by rw [hshown]; omega) (by rw [hshown, hshown]; omega)
      (by omega) (min_le_right _ _) (by omega) (min_le_right _ _) hdate hdate'
    rw [le_iff_lt_or_eq, or_iff_left hne, hless, hshown, hshown]
    omega

/-! The expenses of a schedule, and its rows. -/

def rowsOf (asset : AssetRecord) : (m accumulated : Int) → List Int →
    Except FlowFailure (List DepreciationRow)
  | _, _, [] => .ok []
  | m, accumulated, expense :: expenses => do
    let r ← row asset m expense (accumulated + expense)
    let rows ← rowsOf asset (m + 1) (accumulated + expense) expenses
    return r :: rows

def straightLineExpenses (asset : AssetRecord) (per : Int) : (left : Nat) → (accumulated : Int) →
    List Int
  | 0, _ => []
  | left + 1, accumulated =>
    let expense := if left = 0 then depreciableBase asset - accumulated else per
    expense :: straightLineExpenses asset per left (accumulated + expense)

def decliningExpenses (asset : AssetRecord) (factor : Int) : (left : Nat) → (book : Int) → List Int
  | 0, _ => []
  | left + 1, book =>
    let expense := decliningExpense asset factor book (left = 0)
    if book - expense ≤ asset.salvageMinor then [expense]
    else expense :: decliningExpenses asset factor left (book - expense)

theorem straightLineRows_eq (asset : AssetRecord) (per : Int) (left : Nat) (m accumulated : Int) :
    straightLineRows asset per left m accumulated =
      rowsOf asset m accumulated (straightLineExpenses asset per left accumulated) := by
  induction left generalizing m accumulated with
  | zero => rfl
  | succ left ih =>
    unfold straightLineRows straightLineExpenses
    simp only [ih]
    rfl

theorem decliningRows_eq (asset : AssetRecord) (factor : Int) (left : Nat)
    (m accumulated book : Int) : decliningRows asset factor left m accumulated book =
      rowsOf asset m accumulated (decliningExpenses asset factor left book) := by
  induction left generalizing m accumulated book with
  | zero => rfl
  | succ left ih =>
    unfold decliningRows decliningExpenses
    dsimp only
    split_ifs with hdone
    · rfl
    · simp only [ih]
      rfl

theorem row_eq_ok {expense : Int} {r : DepreciationRow} :
    row asset m expense accumulated = .ok r ↔ addMonths asset.inServiceDate m = .ok r.throughDate ∧
      r = ⟨m, r.throughDate, expense, accumulated, asset.costMinor - accumulated⟩ := by
  unfold row
  rw [bind_eq_ok]
  constructor
  · rintro ⟨date, hdate, h⟩
    rw [← Except.ok.inj h]
    exact ⟨hdate, rfl⟩
  · rintro ⟨hdate, hr⟩
    exact ⟨_, hdate, congrArg Except.ok hr.symm⟩

theorem exists_rowsOf_iff : (∃ rows, rowsOf asset m accumulated expenses = .ok rows) ↔
      ∀ k < expenses.length, ∃ date, addMonths asset.inServiceDate (m + k) = .ok date := by
  induction expenses generalizing m accumulated with
  | nil => exact iff_of_true ⟨[], rfl⟩ fun k hk => absurd hk (Nat.not_lt_zero k)
  | cons expense expenses ih =>
    have hlater (k : Nat) : m + (k + 1 : Nat) = m + 1 + k := by
      rw [Nat.cast_succ]
      omega
    constructor
    · rintro ⟨rows, h⟩ k hk
      unfold rowsOf at h
      simp only [bind_eq_ok] at h
      obtain ⟨r, hr, rest, hrest, -⟩ := h
      cases k with
      | zero =>
        rw [Nat.cast_zero, add_zero]
        exact ⟨_, (row_eq_ok.mp hr).1⟩
      | succ k =>
        rw [hlater]
        exact ih.mp ⟨rest, hrest⟩ k (Nat.lt_of_succ_lt_succ hk)
    · intro h
      obtain ⟨date, hdate⟩ := h 0 (Nat.succ_pos _)
      rw [Nat.cast_zero, add_zero] at hdate
      have hlast : ∃ rest, rowsOf asset (m + 1) (accumulated + expense) expenses = .ok rest := by
        refine ih.mpr fun k hk => ?_
        rw [← hlater]
        exact h (k + 1) (Nat.succ_lt_succ hk)
      obtain ⟨rest, hrest⟩ := hlast
      refine ⟨⟨m, date, expense, accumulated + expense,
        asset.costMinor - (accumulated + expense)⟩ :: rest, ?_⟩
      unfold rowsOf
      simp only [bind_eq_ok]
      exact ⟨_, row_eq_ok.mpr ⟨hdate, rfl⟩, rest, hrest, rfl⟩

theorem rowsOf_get (h : rowsOf asset m accumulated expenses = .ok rows) :
    rows.map DepreciationRow.expenseMinor = expenses ∧ ∀ k (hk : k < rows.length),
      addMonths asset.inServiceDate (m + k) = .ok rows[k].throughDate ∧
        rows[k].accumulatedMinor = accumulated + (expenses.take (k + 1)).sum ∧
        rows[k].bookValueMinor = asset.costMinor - rows[k].accumulatedMinor := by
  induction expenses generalizing m accumulated rows with
  | nil =>
    rw [← Except.ok.inj h]
    exact ⟨rfl, fun k hk => absurd hk (Nat.not_lt_zero k)⟩
  | cons expense expenses ih =>
    unfold rowsOf at h
    simp only [bind_eq_ok] at h
    obtain ⟨r, hr, rest, hrest, h⟩ := h
    rw [← Except.ok.inj h]
    obtain ⟨hdate, hrow⟩ := row_eq_ok.mp hr
    obtain ⟨hmap, hget⟩ := ih hrest
    refine ⟨?_, fun k hk => ?_⟩
    · rw [List.map_cons, hmap, hrow]
    · cases k with
      | zero =>
        rw [Nat.cast_zero, add_zero, List.getElem_cons_zero, List.take_succ_cons, List.take_zero,
          List.sum_cons, List.sum_nil, add_zero]
        refine ⟨hdate, ?_, ?_⟩
        · rw [hrow]
        · rw [hrow]
      | succ k =>
        obtain ⟨hdate, hsum, hbook⟩ := hget k (Nat.lt_of_succ_lt_succ hk)
        rw [List.getElem_cons_succ, List.take_succ_cons, List.sum_cons, ← add_assoc]
        refine ⟨?_, hsum, hbook⟩
        have hlater : m + (k + 1 : Nat) = m + 1 + k := by
          rw [Nat.cast_succ]
          omega
        rw [hlater]
        exact hdate

/-! What the expenses come to. -/

theorem decliningExpense_le (h : asset.salvageMinor ≤ book) (factor : Int) (last : Bool) :
    decliningExpense asset factor book last ≤ book - asset.salvageMinor := by
  unfold decliningExpense
  dsimp only
  split_ifs <;> omega

theorem decliningExpense_last (h : asset.salvageMinor ≤ book) (factor : Int) :
    decliningExpense asset factor book true = book - asset.salvageMinor := by
  unfold decliningExpense
  dsimp only
  rw [if_pos rfl]
  split_ifs <;> omega

theorem straightLineExpenses_sum {per : Int} (hper : 0 ≤ per) (left : Nat) (accumulated : Int)
    (hroom : accumulated + per * left ≤ depreciableBase asset)
    (hlast : left = 0 → accumulated = depreciableBase asset) :
    (∀ e ∈ straightLineExpenses asset per left accumulated, 0 ≤ e) ∧
      accumulated + (straightLineExpenses asset per left accumulated).sum = depreciableBase asset ∧
      (straightLineExpenses asset per left accumulated).length = left := by
  induction left generalizing accumulated with
  | zero =>
    refine ⟨fun e he => absurd he List.not_mem_nil, ?_, rfl⟩
    unfold straightLineExpenses
    rw [List.sum_nil, add_zero]
    exact hlast rfl
  | succ left ih =>
    rw [Nat.cast_succ, mul_add, mul_one] at hroom
    have hprod : 0 ≤ per * left := mul_nonneg hper (Int.natCast_nonneg left)
    unfold straightLineExpenses
    dsimp only
    split_ifs with hzero
    · obtain ⟨hnn, hsum, hlength⟩ := ih
        (accumulated + (depreciableBase asset - accumulated))
        (by rw [hzero, Nat.cast_zero, mul_zero]; omega) fun _ => by omega
      refine ⟨?_, ?_, congrArg Nat.succ hlength⟩
      · intro e he
        rcases List.mem_cons.mp he with rfl | he
        · omega
        · exact hnn e he
      · rw [List.sum_cons, ← add_assoc]
        exact hsum
    · obtain ⟨hnn, hsum, hlength⟩ := ih (accumulated + per) (by omega)
        fun hleft => absurd hleft hzero
      refine ⟨?_, ?_, congrArg Nat.succ hlength⟩
      · intro e he
        rcases List.mem_cons.mp he with rfl | he
        · exact hper
        · exact hnn e he
      · rw [List.sum_cons, ← add_assoc]
        exact hsum

theorem decliningExpenses_sum (factor : Int) (left : Nat) (hbook : asset.salvageMinor ≤ book)
    (hlast : left = 0 → book = asset.salvageMinor) :
    (∀ e ∈ decliningExpenses asset factor left book, 0 ≤ e) ∧
      (decliningExpenses asset factor left book).sum = book - asset.salvageMinor := by
  induction left generalizing book with
  | zero =>
    refine ⟨fun e he => absurd he List.not_mem_nil, ?_⟩
    rw [hlast rfl, sub_self]
    rfl
  | succ left ih =>
    have hnn := decliningExpense_nonneg asset factor book (left = 0)
    have hle := decliningExpense_le hbook factor (left = 0)
    unfold decliningExpenses
    dsimp only
    split_ifs with hdone
    · refine ⟨fun e he => ?_, ?_⟩
      · rw [List.mem_singleton.mp he]
        exact hnn
      · rw [List.sum_singleton]
        omega
    · have hlow : asset.salvageMinor ≤ book - decliningExpense asset factor book (left = 0) := by
        omega
      obtain ⟨hrest, hsum⟩ := ih hlow fun hzero => by
        rw [decide_eq_true hzero, decliningExpense_last hbook] at hdone ⊢
        omega
      refine ⟨fun e he => ?_, ?_⟩
      · rcases List.mem_cons.mp he with rfl | he
        · exact hnn
        · exact hrest e he
      · rw [List.sum_cons, hsum]
        omega

/-! How many months there are. -/

def bookAfter (asset : AssetRecord) (factor : Int) : Nat → (book : Int) → Int
  | 0, book => book
  | k + 1, book => bookAfter asset factor k (book - decliningExpense asset factor book false)

theorem bookAfter_le (asset : AssetRecord) (factor : Int) (k : Nat) (book : Int) :
    bookAfter asset factor k book ≤ book := by
  induction k generalizing book with
  | zero => exact le_rfl
  | succ k ih =>
    have hnn := decliningExpense_nonneg asset factor book false
    exact (ih _).trans (by omega)

theorem lt_length_decliningExpenses (factor : Int) (left : Nat)
    (hbook : asset.salvageMinor ≤ book) (k : Nat) :
    k < (decliningExpenses asset factor left book).length ↔
      k < left ∧ (k = 0 ∨ asset.salvageMinor < bookAfter asset factor k book) := by
  induction left generalizing book k with
  | zero => exact iff_of_false (Nat.not_lt_zero k) fun h => Nat.not_lt_zero k h.1
  | succ left ih =>
    cases k with
    | zero =>
      refine iff_of_true ?_ ⟨Nat.succ_pos left, .inl rfl⟩
      unfold decliningExpenses
      dsimp only
      split_ifs <;> exact Nat.succ_pos _
    | succ k =>
      have hle := decliningExpense_le hbook factor false
      unfold decliningExpenses bookAfter
      dsimp only
      by_cases hzero : left = 0
      · rw [decide_eq_true hzero, decliningExpense_last hbook, if_pos (by omega),
          List.length_singleton]
        omega
      · rw [decide_eq_false hzero]
        split_ifs with hdone
        · -- the book value is down to salvage, and stays
          have hdown := bookAfter_le asset factor k
            (book - decliningExpense asset factor book false)
          rw [List.length_singleton, false_or]
          omega
        · rw [List.length_cons, Nat.succ_lt_succ_iff, ih (by omega), Nat.succ_lt_succ_iff]
          refine and_congr_right fun _ => ?_
          rw [false_or, or_iff_right_iff_imp]
          rintro rfl
          exact not_le.mp hdone

def factorOf (asset : AssetRecord) : Int :=
  if 0 < asset.decliningFactorMicro then asset.decliningFactorMicro else 2 * micro

/-- The schedule comes to a month: it is in the life, and what came before has left something above
salvage to write off. -/
def Reached (asset : AssetRecord) (m : Nat) : Prop :=
  1 ≤ m ∧ m ≤ asset.usefulLifeMonths ∧ (asset.method = .straightLine ∨ m = 1 ∨
    asset.salvageMinor < bookAfter asset (factorOf asset) (m - 1) asset.costMinor)

theorem expensesOf (hcal : asset.method ≠ .unitsOfProduction)
    (hsal : asset.salvageMinor ≤ asset.costMinor) (hlife : 1 ≤ asset.usefulLifeMonths) :
    ∃ expenses, depreciationSchedule asset = rowsOf asset 1 0 expenses ∧ (∀ e ∈ expenses, 0 ≤ e) ∧
      expenses.sum = asset.costMinor - asset.salvageMinor ∧
      ∀ k : Nat, k < expenses.length ↔ Reached asset (k + 1) := by
  have hbase : depreciableBase asset = asset.costMinor - asset.salvageMinor := by
    unfold depreciableBase
    split_ifs <;> omega
  unfold depreciationSchedule
  dsimp only
  rw [if_neg hcal, if_neg (by omega)]
  by_cases hmeth : asset.method = .straightLine
  · rw [if_pos hmeth, straightLineRows_eq]
    have hper : 0 ≤ (depreciableBase asset).tdiv asset.usefulLifeMonths :=
      Int.tdiv_nonneg (depreciableBase_nonneg asset) (by omega)
    obtain ⟨hnn, hsum, hlength⟩ := straightLineExpenses_sum hper
      asset.usefulLifeMonths.toNat 0 (by
        rw [Int.zero_add, Int.toNat_of_nonneg (by omega),
          Int.tdiv_eq_ediv_of_nonneg (depreciableBase_nonneg asset)]
        exact Int.ediv_mul_le _ (by omega)) (by omega)
    refine ⟨_, rfl, hnn, by omega, fun k => ?_⟩
    rw [hlength]
    have hwin : k < asset.usefulLifeMonths.toNat ↔
        1 ≤ k + 1 ∧ ((k + 1 : Nat) : Int) ≤ asset.usefulLifeMonths := by omega
    exact hwin.trans (and_congr_right fun _ => (and_iff_left (Or.inl hmeth)).symm)
  · rw [if_neg hmeth, decliningRows_eq]
    obtain ⟨hnn, hsum⟩ := decliningExpenses_sum (factorOf asset)
      asset.usefulLifeMonths.toNat hsal (by omega)
    refine ⟨_, rfl, hnn, hsum, fun k => ?_⟩
    refine (lt_length_decliningExpenses (factorOf asset) asset.usefulLifeMonths.toNat hsal
      k).trans ?_
    unfold Reached
    rw [or_iff_right hmeth, Nat.add_sub_cancel]
    omega

/-! What a schedule promises. -/

/-- The expenses of the rows write the asset off: none is negative, each total is the sum of the
expenses up to it, and the last one leaves salvage. -/
structure WritesOff (asset : AssetRecord) (rows : List DepreciationRow) : Prop where
  expense_nonneg : ∀ r ∈ rows, 0 ≤ r.expenseMinor
  running : ∀ k (hk : k < rows.length), rows[k].accumulatedMinor =
    ((rows.take (k + 1)).map DepreciationRow.expenseMinor).sum
  rises : (rows.map DepreciationRow.accumulatedMinor).IsChain (· ≤ ·)
  book : ∀ r ∈ rows, r.bookValueMinor = asset.costMinor - r.accumulatedMinor ∧
    asset.salvageMinor ≤ r.bookValueMinor
  lands : rows.getLast?.map DepreciationRow.accumulatedMinor =
    some (asset.costMinor - asset.salvageMinor)

structure Sound (asset : AssetRecord) (rows : List DepreciationRow) : Prop
    extends WritesOff asset rows where
  dated : (rows.map DepreciationRow.throughDate).IsChain (· ≤ ·)

theorem sum_take_le {l : List Int} (h : ∀ e ∈ l, 0 ≤ e) (k : Nat) : (l.take k).sum ≤ l.sum := by
  have hsplit : (l.take k).sum + (l.drop k).sum = l.sum := by
    rw [← List.sum_append, List.take_append_drop]
  have hrest : 0 ≤ (l.drop k).sum :=
    List.sum_nonneg fun e he => h e (List.drop_subset k l he)
  omega

theorem sum_take_mono {l : List Int} (h : ∀ e ∈ l, 0 ≤ e) {k : Nat} (hk : k < l.length) :
    (l.take k).sum ≤ (l.take (k + 1)).sum := by
  rw [List.take_succ_eq_append_getElem hk, List.sum_append, List.sum_singleton]
  exact le_add_of_nonneg_right (h _ (List.getElem_mem hk))

theorem writesOff (h : rowsOf asset 1 0 expenses = .ok rows) (hne : expenses ≠ [])
    (hnn : ∀ e ∈ expenses, 0 ≤ e) (hsum : expenses.sum = asset.costMinor - asset.salvageMinor) :
    WritesOff asset rows := by
  obtain ⟨hmap, hget⟩ := rowsOf_get h
  have hlength : rows.length = expenses.length := by
    rw [← hmap, List.length_map]
  refine ⟨fun r hr => ?_, fun k hk => ?_, ?_, fun r hr => ?_, ?_⟩
  · apply hnn
    rw [← hmap]
    exact List.mem_map_of_mem hr
  · rw [(hget k hk).2.1, ← hmap, zero_add, List.map_take]
  · rw [List.isChain_iff_getElem]
    intro k hk
    rw [List.length_map] at hk
    rw [List.getElem_map, List.getElem_map, (hget k (by omega)).2.1, (hget (k + 1) hk).2.1,
      zero_add, zero_add]
    exact sum_take_mono hnn (by omega)
  · obtain ⟨k, hk, rfl⟩ := List.mem_iff_getElem.mp hr
    obtain ⟨-, htot, hbook⟩ := hget k hk
    have hle := sum_take_le hnn (k + 1)
    refine ⟨hbook, ?_⟩
    rw [hbook, htot]
    omega
  · have hpos : 0 < expenses.length := List.length_pos_iff.mpr hne
    rw [List.getLast?_eq_getElem?, List.getElem?_eq_getElem (by omega), Option.map_some,
      (hget _ (by omega)).2.1, zero_add, List.take_of_length_le (by omega), hsum]

/-- The months after which a through date is before the one it follows: a year of two digits is
taken for one of the twentieth century, and a year of five has a sign before it. -/
def StepsBack (n : Int) : Prop := n = 1199 ∨ n = 119999

/-- The schedule does not go on from such a month. -/
def InOrder (asset : AssetRecord) : Prop :=
  ∀ start day, monthAndDay asset.inServiceDate = some (start, day) →
    ∀ m : Nat, 1 ≤ m → Reached asset (m + 1) → ¬ StepsBack (start + m)

theorem dated_iff (h : rowsOf asset 1 0 expenses = .ok rows) (hne : expenses ≠ [])
    (hrch : ∀ k : Nat, k < expenses.length ↔ Reached asset (k + 1)) :
    (rows.map DepreciationRow.throughDate).IsChain (· ≤ ·) ↔ InOrder asset := by
  obtain ⟨hmap, hget⟩ := rowsOf_get h
  have hlength : rows.length = expenses.length := by
    rw [← hmap, List.length_map]
  have hpos : 0 < expenses.length := List.length_pos_iff.mpr hne
  obtain ⟨start, day, hstart, -⟩ := addMonths_eq_ok (by omega) (hget 0 (by omega)).1
  have hstep (k : Nat) (hk : k + 1 < rows.length) : rows[k].throughDate ≤ rows[k + 1].throughDate ↔
      ¬ StepsBack (start + (k + 1 : Nat)) := by
    have hdate := (hget k (by omega)).1
    have hdate' := (hget (k + 1) hk).1
    have hmonth : (1 : Int) + (k + 1 : Nat) = 1 + k + 1 := by omega
    rw [hmonth] at hdate'
    rw [throughDates hstart (by omega) hdate hdate']
    unfold StepsBack
    omega
  rw [List.isChain_iff_getElem]
  constructor
  · intro hchain start' day' hstart' m hm hnext
    rw [hstart, Option.some.injEq, Prod.mk.injEq] at hstart'
    obtain ⟨rfl, rfl⟩ := hstart'
    obtain ⟨k, rfl⟩ : ∃ k, m = k + 1 := ⟨m - 1, by omega⟩
    have hk : k + 1 < rows.length := by
      rw [hlength]
      exact (hrch (k + 1)).mpr hnext
    rw [← hstep k hk]
    have hle := hchain k (by rw [List.length_map]; exact hk)
    rw [List.getElem_map, List.getElem_map] at hle
    exact hle
  · intro horder k hk
    rw [List.length_map] at hk
    rw [List.getElem_map, List.getElem_map, hstep k hk]
    refine horder start day hstart (k + 1) (by omega) ((hrch (k + 1)).mp ?_)
    rw [← hlength]
    exact hk

/-- A schedule is there where each month it comes to has a date, and it is sound where it does not
go on from a month after which the dates step back. -/
theorem schedule_sound {asset : AssetRecord} (hcalendar : asset.method ≠ .unitsOfProduction)
    (hsalvage : asset.salvageMinor ≤ asset.costMinor) (hlife : 1 ≤ asset.usefulLifeMonths) :
    ((∃ rows, depreciationSchedule asset = .ok rows) ↔
      ∀ m : Nat, Reached asset m → ∃ date, addMonths asset.inServiceDate m = .ok date) ∧
    ∀ rows, depreciationSchedule asset = .ok rows → (Sound asset rows ↔ InOrder asset) := by
  obtain ⟨expenses, hrows, hnn, hsum, hrch⟩ := expensesOf hcalendar hsalvage hlife
  have hfst : Reached asset 1 := ⟨le_rfl, hlife, .inr (.inl rfl)⟩
  have hne : expenses ≠ [] := List.length_pos_iff.mp ((hrch 0).mpr hfst)
  rw [hrows]
  constructor
  · rw [exists_rowsOf_iff]
    constructor
    · intro h m hm
      obtain ⟨k, rfl⟩ : ∃ k, m = k + 1 := ⟨m - 1, by have := hm.1; omega⟩
      obtain ⟨date, hdate⟩ := h k ((hrch k).mpr hm)
      have hmonth : ((k + 1 : Nat) : Int) = 1 + k := by omega
      rw [hmonth]
      exact ⟨date, hdate⟩
    · intro h k hk
      obtain ⟨date, hdate⟩ := h (k + 1) ((hrch k).mp hk)
      have hmonth : ((k + 1 : Nat) : Int) = 1 + k := by omega
      rw [hmonth] at hdate
      exact ⟨date, hdate⟩
  · intro rows h
    rw [← dated_iff h hne hrch]
    exact ⟨Sound.dated, fun hdated => ⟨writesOff h hne hnn hsum, hdated⟩⟩

namespace Sample

def press (inServiceDate : String) : AssetRecord where
  id := "press"
  name := "Press"
  category := ""
  inServiceDate := inServiceDate
  costMinor := 100000
  salvageMinor := 10000
  method := .straightLine
  usefulLifeMonths := 3
  decliningFactorMicro := 0
  totalUnitsMilli := 0
  unitsUsedMilli := 0
  accumulatedMinor := 0
  assetAccountCode := "1500"
  accumAccountCode := "1510"
  expenseAccountCode := "6900"
  status := .active
  disposedDate := ""
  memo := ""

def pressRows : List DepreciationRow :=
  [⟨1, "1999-12-30", 30000, 30000, 70000⟩, ⟨2, "0100-01-30", 30000, 60000, 40000⟩,
    ⟨3, "0100-02-28", 30000, 90000, 10000⟩]

theorem schedule_sound_press : ((∃ rows, depreciationSchedule (press "2025-01-31") = .ok rows) ↔
      ∀ m : Nat, Reached (press "2025-01-31") m → ∃ date, addMonths "2025-01-31" m = .ok date) ∧
    ∀ rows, depreciationSchedule (press "2025-01-31") = .ok rows →
      (Sound (press "2025-01-31") rows ↔ InOrder (press "2025-01-31")) :=
  schedule_sound (by decide) (by decide) (by decide)

theorem schedule_not_sound : ¬ ∀ (asset : AssetRecord) (rows : List DepreciationRow),
    asset.method ≠ .unitsOfProduction → 0 ≤ asset.salvageMinor →
      asset.salvageMinor ≤ asset.costMinor → 1 ≤ asset.usefulLifeMonths →
      depreciationSchedule asset = .ok rows → Sound asset rows := by
  intro h
  have hrows : (depreciationSchedule (press "0099-11-30")).toOption = some pressRows := by
    decide +kernel
  have hsound := h (press "0099-11-30") pressRows (by decide) (by decide) (by decide) (by decide)
    (toOption_eq_some.mp hrows)
  have hback : ¬ ((pressRows.map DepreciationRow.throughDate).IsChain (· ≤ ·)) := by decide +kernel
  exact hback hsound.dated

end Sample
end Rgnr8.Service.FixedAssets
