import Rgnr8.Kernel.Types
import Rgnr8.Lib.Javascript

/-! Arithmetic on money. It is exact, and it throws where two currencies meet or where a factor is
no longer exact as a number. -/

namespace Rgnr8.Kernel

inductive MoneyError where
  | currencyMismatch (a b : Currency)
  | unsafeInteger (n : Int)
  deriving DecidableEq

namespace Money

def zero (currency : Currency) : Money := ⟨0, currency⟩

def plus (a b : Money) : Except MoneyError Money :=
  if a.currency.code ≠ b.currency.code then .error (.currencyMismatch a.currency b.currency)
  else .ok ⟨a.minorUnits + b.minorUnits, a.currency⟩

def minus (a b : Money) : Except MoneyError Money :=
  if a.currency.code ≠ b.currency.code then .error (.currencyMismatch a.currency b.currency)
  else .ok ⟨a.minorUnits - b.minorUnits, a.currency⟩

def maxSafeInteger : Int := 2 ^ 53 - 1

def assertSafeInteger (n : Int) : Except MoneyError Int :=
  if maxSafeInteger < |n| then .error (.unsafeInteger n) else .ok n

def timesInteger (m : Money) (factor : Int) : Except MoneyError Money := do
  let f ← assertSafeInteger factor
  return ⟨m.minorUnits * f, m.currency⟩

variable {a b m : Money}

theorem plus_of_code_eq (h : a.currency.code = b.currency.code) :
    a.plus b = .ok ⟨a.minorUnits + b.minorUnits, a.currency⟩ := if_neg (not_not.mpr h)

theorem minus_of_code_eq (h : a.currency.code = b.currency.code) :
    a.minus b = .ok ⟨a.minorUnits - b.minorUnits, a.currency⟩ := if_neg (not_not.mpr h)

theorem eq_of_timesInteger {factor : Int} (h : a.timesInteger factor = .ok m) :
    m = ⟨a.minorUnits * factor, a.currency⟩ := by
  rw [timesInteger, assertSafeInteger] at h
  split_ifs at h
  · cases h
  · exact (Except.ok.inj h).symm

end Money
end Rgnr8.Kernel

/-! Money as decimal text. -/

namespace Rgnr8.Kernel.Money
open Lib.Js

def toDecimalString (m : Money) : String :=
  let digits := (padStart (m.currency.scale + 1) m.minorUnits.natAbs).toList
  let cut := digits.length - m.currency.scale
  let frac := if 0 < m.currency.scale then "." ++ String.ofList (digits.drop cut) else ""
  (if m.minorUnits < 0 then "-" else "") ++ String.ofList (digits.take cut) ++ frac

/-- `/^(-)?(\d+)(?:\.(\d+))?$/`: whether there is a sign, and the digits before and after the
point. -/
def decimalParts (text : List Char) : Option (Bool × List Char × List Char) :=
  let negative : Bool := text.head? = some '-'
  let unsigned := if negative then text.drop 1 else text
  let whole := unsigned.takeWhile Char.isDigit
  let rest := unsigned.drop whole.length
  if whole = [] then none
  else match rest with
    | [] => some (negative, whole, [])
    | '.' :: frac => if frac ≠ [] ∧ frac.all Char.isDigit then some (negative, whole, frac) else none
    | _ => none

def fromDecimal (value : String) (currency : Currency) : Except String Money :=
  match decimalParts (trim value).toList with
  | none => .error ("Not a valid decimal amount: \"" ++ value ++ "\"")
  | some (negative, whole, frac) =>
    if currency.scale < frac.length then
      .error ("Amount \"" ++ value ++ s!"\" has more precision than {currency.code} allows " ++
        s!"(scale {currency.scale})")
    else
      let padded := frac ++ List.replicate (currency.scale - frac.length) '0'
      let combined : Int := ((naturalIn 10 (whole ++ padded)).getD 0 : Nat)
      .ok ⟨if negative then -combined else combined, currency⟩

/-- The integer of `/^-?\d+$/`. -/
def integerText (text : String) : Option Int :=
  match (trim text).toList with
  | '-' :: cs => (naturalIn 10 cs).map fun n => -(n : Int)
  | cs => (naturalIn 10 cs).map fun n => (n : Int)

example : fromDecimal " -12.5 " usd = .ok ⟨-1250, usd⟩ := by decide +kernel

/-! An amount that is written as decimal text is read back as the amount. -/

variable (scale n : Nat)

/-- The digits of a number: one before the point at least, and as many behind it as are asked for. -/
def digitsOf : List Char := (padStart (scale + 1) n).toList

def wholeDigits : List Char :=
  (digitsOf scale n).take ((digitsOf scale n).length - scale)

def fracDigits : List Char :=
  (digitsOf scale n).drop ((digitsOf scale n).length - scale)

def decimalChars (whole frac : List Char) : List Char :=
  whole ++ if frac = [] then [] else '.' :: frac

theorem digitsOf_eq : digitsOf scale n =
    List.replicate (scale + 1 - (toString n).length) '0' ++ (toString n).toList := by
  unfold digitsOf padStart
  rw [String.toList_append, String.toList_ofList]

theorem digits_digitsOf : Digits (digitsOf scale n) := by
  rw [digitsOf_eq]
  intro c hc
  rcases List.mem_append.mp hc with hc | hc
  · rw [List.eq_of_mem_replicate hc]
    decide
  · exact digits_toString n c hc

theorem lt_length_digitsOf : scale < (digitsOf scale n).length := by
  rw [digitsOf_eq, List.length_append, List.length_replicate, String.length_toList]
  omega

theorem naturalIn_digitsOf : naturalIn 10 (digitsOf scale n) = some n := by
  have hread := foldlM_digits (digits_digitsOf scale n) 0
  have hval : Nat.ofDigitChars 10 (digitsOf scale n) 0 = n := by
    rw [digitsOf_eq, Nat.ofDigitChars_append, Nat.ofDigitChars_replicate_zero, Nat.mul_zero,
      Nat.toString_eq_repr, Nat.toList_repr, Nat.ofDigitChars_ten_toDigits]
  rw [hval] at hread
  have hlength := lt_length_digitsOf scale n
  unfold naturalIn
  split
  · next hnil =>
    rw [hnil] at hlength
    cases hlength
  · exact hread

theorem wholeDigits_append_fracDigits :
    wholeDigits scale n ++ fracDigits scale n = digitsOf scale n := List.take_append_drop _ _

theorem length_fracDigits : (fracDigits scale n).length = scale := by
  have hlength := lt_length_digitsOf scale n
  unfold fracDigits
  rw [List.length_drop]
  omega

theorem wholeDigits_ne_nil : wholeDigits scale n ≠ [] := by
  have hlength := lt_length_digitsOf scale n
  apply List.ne_nil_of_length_pos
  unfold wholeDigits
  rw [List.length_take]
  omega

theorem digits_wholeDigits : Digits (wholeDigits scale n) :=
  fun c hc => digits_digitsOf scale n c (List.mem_of_mem_take hc)

theorem digits_fracDigits : Digits (fracDigits scale n) :=
  fun c hc => digits_digitsOf scale n c (List.mem_of_mem_drop hc)

theorem toList_toDecimalString (m : Money) : m.toDecimalString.toList =
    (if m.minorUnits < 0 then ['-'] else []) ++
      decimalChars (wholeDigits m.currency.scale m.minorUnits.natAbs)
        (fracDigits m.currency.scale m.minorUnits.natAbs) := by
  have hlength := length_fracDigits m.currency.scale m.minorUnits.natAbs
  have hfrac : (fracDigits m.currency.scale m.minorUnits.natAbs = []) ↔ ¬ 0 < m.currency.scale := by
    rw [← List.length_eq_zero_iff, hlength, Nat.pos_iff_ne_zero, not_not]
  unfold toDecimalString decimalChars
  rw [String.toList_append, String.toList_append, String.toList_ofList, List.append_assoc]
  congr 1
  · split_ifs <;> rfl
  · congr 1
    by_cases hscale : 0 < m.currency.scale
    · rw [if_pos hscale, if_neg (fun h => hfrac.mp h hscale), String.toList_append,
        String.toList_ofList, String.toList_ofList]
      rfl
    · rw [if_neg hscale, if_pos (hfrac.mpr hscale)]
      rfl

theorem decimalParts_decimalChars {whole frac : List Char} (hne : whole ≠ []) (hwhole : Digits whole)
    (hfrac : Digits frac) (negative : Bool) :
    decimalParts ((if negative then ['-'] else []) ++ decimalChars whole frac) =
      some (negative, whole, frac) := by
  let rest : List Char := if frac = [] then [] else '.' :: frac
  have htext : decimalChars whole frac = whole ++ rest := rfl
  have hneg : decide (((if negative then ['-'] else []) ++ (whole ++ rest)).head? = some '-') =
      negative := by
    cases negative with
    | true => rfl
    | false =>
      cases whole with
      | nil => exact absurd rfl hne
      | cons c whole =>
        have hdig := hwhole c List.mem_cons_self
        refine decide_eq_false fun h => ?_
        have hc : c = '-' := Option.some.inj h
        rw [hc] at hdig
        exact absurd hdig (by decide)
  have huns : (if negative = true then
      ((if negative then ['-'] else []) ++ (whole ++ rest)).drop 1
      else (if negative then ['-'] else []) ++ (whole ++ rest)) = whole ++ rest := by
    cases negative <;> rfl
  have htake : (whole ++ rest).takeWhile Char.isDigit = whole := by
    have hrest : rest.takeWhile Char.isDigit = [] := by
      by_cases hnil : frac = []
      · rw [show rest = [] from if_pos hnil]
        rfl
      · rw [show rest = '.' :: frac from if_neg hnil]
        rfl
    rw [List.takeWhile_append_of_pos hwhole, hrest, List.append_nil]
  unfold decimalParts
  rw [htext]
  dsimp only
  rw [hneg, huns, htake, if_neg hne, List.drop_left]
  by_cases hnil : frac = []
  · rw [show rest = [] from if_pos hnil, hnil]
  · rw [show rest = '.' :: frac from if_neg hnil]
    exact if_pos ⟨hnil, List.all_eq_true.mpr hfrac⟩

theorem fromDecimal_toDecimalString (m : Money) :
    fromDecimal m.toDecimalString m.currency = .ok m := by
  have hlength := length_fracDigits m.currency.scale m.minorUnits.natAbs
  have hwhole := digits_wholeDigits m.currency.scale m.minorUnits.natAbs
  have hfrac := digits_fracDigits m.currency.scale m.minorUnits.natAbs
  have htext := toList_toDecimalString m
  have hval := naturalIn_digitsOf m.currency.scale m.minorUnits.natAbs
  rw [← wholeDigits_append_fracDigits] at hval
  have hparts := decimalParts_decimalChars (wholeDigits_ne_nil _ _) hwhole hfrac
    (decide (m.minorUnits < 0))
  have htrim : trim m.toDecimalString = m.toDecimalString := by
    refine trim_of_not_space fun c hc => ?_
    rw [htext] at hc
    rcases List.mem_append.mp hc with hc | hc
    · split_ifs at hc
      · rw [List.mem_singleton.mp hc]
        decide
      · cases hc
    · rcases List.mem_append.mp hc with hc | hc
      · exact isSpace_of_isDigit (hwhole c hc)
      · split_ifs at hc
        · cases hc
        · rcases List.mem_cons.mp hc with rfl | hc
          · decide
          · exact isSpace_of_isDigit (hfrac c hc)
  simp only [decide_eq_true_eq] at hparts
  unfold fromDecimal
  rw [htrim, htext, hparts]
  dsimp only
  rw [if_neg (by omega), hlength, Nat.sub_self, List.replicate_zero, List.append_nil, hval,
    Option.getD_some]
  congr 1
  obtain ⟨minorUnits, currency⟩ := m
  congr 1
  simp only [decide_eq_true_eq]
  split_ifs <;> omega

end Rgnr8.Kernel.Money
