import Mathlib.Data.Rat.Defs
import Mathlib.Data.String.Basic
import Mathlib.Data.List.DropRight

/-! The parts of the JavaScript standard library that requests pass through: JSON values, trimming,
letter case as far as ASCII words see it, the conversion to big integers, and days in UTC. -/

namespace Rgnr8.Lib.Js
open List Nat

/-- A number value: `none` stands for the infinities and NaN. -/
abbrev JsNumber := Option Rat

inductive Json where
  | null
  | bool (b : Bool)
  | number (n : JsNumber)
  | string (s : String)
  | array (items : List Json)
  | object (fields : List (String × Json))

/-- The value under a name, `none` where the source reads `undefined`. -/
def lookup (fields : List (String × Json)) (name : String) : Option Json :=
  (fields.find? fun f => f.1 = name).map Prod.snd

def isSpace (c : Char) : Bool :=
  c.toNat ∈ [0x09, 0x0A, 0x0B, 0x0C, 0x0D, 0x20, 0xA0, 0x1680, 0x2028, 0x2029, 0x202F, 0x205F,
    0x3000, 0xFEFF] ∨ (0x2000 ≤ c.toNat ∧ c.toNat ≤ 0x200A)

def trim (s : String) : String :=
  String.ofList ((s.toList.dropWhile isSpace).reverse.dropWhile isSpace).reverse

def upperChar (c : Char) : Char := if c = 'ı' then 'I' else c.toUpper

def lowerChar (c : Char) : Char := if c.toNat = 0x212A then 'k' else c.toLower

def toUpperCase (s : String) : String := String.ofList (s.toList.map upperChar)

def toLowerCase (s : String) : String := String.ofList (s.toList.map lowerChar)

/-- `/^\d{4}-\d{2}-\d{2}$/` -/
def isIsoDate (s : String) : Bool :=
  match s.toList with
  | [a, b, c, d, '-', e, f, '-', g, h] => [a, b, c, d, e, f, g, h].all Char.isDigit
  | _ => false

variable {c : Char} {s : String}

theorem toNat_of_isDigit (h : c.isDigit = true) : 48 ≤ c.toNat ∧ c.toNat ≤ 57 := by
  have hrange : '0'.toNat ≤ c.toNat ∧ c.toNat ≤ '9'.toNat := by
    simpa only [Char.isDigit, Char.toNat, UInt32.le_iff_toNat_le, Bool.and_eq_true,
      decide_eq_true_eq, ge_iff_le] using h
  exact hrange

theorem isSpace_of_isDigit (h : c.isDigit = true) : isSpace c = false := by
  have hrange := toNat_of_isDigit h
  unfold isSpace
  simp only [mem_cons, not_mem_nil, or_false, decide_eq_false_iff_not]
  omega

theorem trim_of_isIsoDate (h : isIsoDate s = true) : trim s = s := by
  unfold isIsoDate at h
  split at h
  · next a b c d e f g k heq =>
    rw [all_eq_true] at h
    have hfst : isSpace a = false := isSpace_of_isDigit (h a (by simp))
    have hlast : isSpace k = false := isSpace_of_isDigit (h k (by simp))
    have hback : (s.toList.dropWhile isSpace).reverse.dropWhile isSpace = s.toList.reverse := by
      rw [heq, dropWhile_cons_of_neg (by rw [hfst]; decide)]
      exact dropWhile_cons_of_neg (by rw [hlast]; decide)
    unfold trim
    rw [hback, reverse_reverse, String.ofList_toList]
  · cases h

def digitIn (base : Nat) (c : Char) : Option Nat :=
  let n := if c.isDigit then c.toNat - '0'.toNat
    else if c.toLower.isLower then c.toLower.toNat - 'a'.toNat + 10
    else base
  if n < base then some n else none

def naturalIn (base : Nat) : List Char → Option Nat
  | [] => none
  | cs => cs.foldlM (fun n c => (digitIn base c).map (n * base + ·)) 0

/-- `BigInt` of a text: white space around is dropped, nothing is zero, a sign goes with decimal
digits only, and what is not an integer throws. -/
def bigIntOfString (s : String) : Option Int :=
  match (trim s).toList with
  | [] => some 0
  | '-' :: cs => (naturalIn 10 cs).map fun n => -(n : Int)
  | '+' :: cs => (naturalIn 10 cs).map fun n => (n : Int)
  | '0' :: 'x' :: cs | '0' :: 'X' :: cs => (naturalIn 16 cs).map fun n => (n : Int)
  | '0' :: 'o' :: cs | '0' :: 'O' :: cs => (naturalIn 8 cs).map fun n => (n : Int)
  | '0' :: 'b' :: cs | '0' :: 'B' :: cs => (naturalIn 2 cs).map fun n => (n : Int)
  | cs => (naturalIn 10 cs).map fun n => (n : Int)

def integerOf (n : JsNumber) : Option Int := n.bind fun q => if q.den = 1 then some q.num else none

/-- `BigInt` of a text or a number. -/
inductive TextOrNumber where
  | text (s : String)
  | number (n : JsNumber)
  deriving DecidableEq

def bigInt : TextOrNumber → Option Int
  | .text s => bigIntOfString s
  | .number n => integerOf n

/-- The integer that a text or a number spells in decimal digits, none where it spells something
else. Nothing is zero, and a number from 10^21 on is spelled with an exponent. -/
def wholeNumber : Option TextOrNumber → Option Int
  | none => some 0
  | some (.number n) => (integerOf n).filter fun n => n.natAbs < 10 ^ 21
  | some (.text s) => match (trim s).toList with
    | [] => some 0
    | '-' :: cs => (naturalIn 10 cs).map fun n => -(n : Int)
    | cs => (naturalIn 10 cs).map fun n => (n : Int)

def nearestDouble (q : Rat) : JsNumber :=
  let log : Int := (Nat.log2 q.num.natAbs : Int) - Nat.log2 q.den
  let exponent := max ((if q < (2 : Rat) ^ log then log - 1 else log) - 52) (-1074)
  let scaled := q / (2 : Rat) ^ exponent
  let rest := scaled - scaled.floor
  let rounded := if rest < 1 / 2 ∨ (rest = 1 / 2 ∧ scaled.floor % 2 = 0) then scaled.floor
    else scaled.floor + 1
  let value := rounded * (2 : Rat) ^ exponent
  if (2 : Rat) ^ 1024 ≤ value then none else some value

def double (q : Rat) : JsNumber :=
  if q = 0 then some 0 else if 0 < q then nearestDouble q else (nearestDouble (-q)).map fun d => -d

def decimalOf (cs : List Char) : Option Rat := do
  let (mantissa, exponent) := cs.span fun c => c ≠ 'e' ∧ c ≠ 'E'
  let (whole, fraction) := mantissa.span fun c => c ≠ '.'
  let digits ← naturalIn 10 (whole ++ fraction.drop 1)
  let power : Int ← match exponent with
    | [] => some 0
    | _ :: '-' :: ds => (naturalIn 10 ds).map fun n => -(n : Int)
    | _ :: '+' :: ds => (naturalIn 10 ds).map fun n => (n : Int)
    | _ :: ds => (naturalIn 10 ds).map fun n => (n : Int)
  return digits * (10 : Rat) ^ (power - (fraction.drop 1).length)

/-- `Number` of a text or a number. -/
def numberOf : TextOrNumber → JsNumber
  | .number n => n
  | .text s => match (trim s).toList with
    | [] => some 0
    | '-' :: cs => (decimalOf cs).bind fun q => double (-q)
    | '+' :: cs => (decimalOf cs).bind double
    | '0' :: 'x' :: cs | '0' :: 'X' :: cs => (naturalIn 16 cs).bind fun n => double n
    | '0' :: 'o' :: cs | '0' :: 'O' :: cs => (naturalIn 8 cs).bind fun n => double n
    | '0' :: 'b' :: cs | '0' :: 'B' :: cs => (naturalIn 2 cs).bind fun n => double n
    | cs => (decimalOf cs).bind double

/-- Days since 1970-01-01 in the proleptic Gregorian calendar, counted in years from March and in
cycles of 400 years. A day past the end of its month counts into the next one. -/
def daysOfCivil (year month day : Int) : Int :=
  let y := if month ≤ 2 then year - 1 else year
  let yearOfEra := y - y / 400 * 400
  let dayOfYear := (153 * (if 2 < month then month - 3 else month + 9) + 2) / 5 + day - 1
  y / 400 * 146097 + yearOfEra * 365 + yearOfEra / 4 - yearOfEra / 100 + dayOfYear - 719468

def civilOfDays (days : Int) : Int × Int × Int :=
  let z := days + 719468
  let dayOfEra := z - z / 146097 * 146097
  let yearOfEra := (dayOfEra - dayOfEra / 1460 + dayOfEra / 36524 - dayOfEra / 146096) / 365
  let dayOfYear := dayOfEra - (365 * yearOfEra + yearOfEra / 4 - yearOfEra / 100)
  let fromMarch := (5 * dayOfYear + 2) / 153
  let month := if fromMarch < 10 then fromMarch + 3 else fromMarch - 9
  let year := yearOfEra + z / 146097 * 400
  (if month ≤ 2 then year + 1 else year, month, dayOfYear - (153 * fromMarch + 2) / 5 + 1)

def padStart (width : Nat) (n : Nat) : String :=
  String.ofList (List.replicate (width - (toString n).length) '0') ++ toString n

/-- The day of `new Date(date + "T00:00:00Z")`, none where the date is invalid. -/
def utcDay (date : String) : Option Int :=
  match date.toList with
  | [a, b, c, d, '-', e, f, '-', g, h] => do
    let year ← naturalIn 10 [a, b, c, d]
    let month ← naturalIn 10 [e, f]
    let day ← naturalIn 10 [g, h]
    if 1 ≤ month ∧ month ≤ 12 ∧ 1 ≤ day ∧ day ≤ 31 then some (daysOfCivil year month day) else none
  | _ => none

/-- `Date.UTC` of a year, a month from 0 and a day, in days: two-digit years are of the twentieth
century, and months past the end of the year count into the next one. -/
def dateUtc (year month day : Int) : Option Int :=
  let fullYear := if 0 ≤ year ∧ year ≤ 99 then 1900 + year else year
  let days := daysOfCivil (fullYear + month / 12) (month % 12 + 1) day
  if 100000000 < days.natAbs then none else some days

/-- The first ten characters of `toISOString`, none outside the range of dates. -/
def isoDay (days : Int) : Option String :=
  if 100000000 < days.natAbs then none
  else
    let (year, month, day) := civilOfDays days
    let yearText := if 0 ≤ year ∧ year ≤ 9999 then padStart 4 year.toNat
      else (if 0 ≤ year then "+" else "-") ++ padStart 6 year.natAbs
    let text := s!"{yearText}-{padStart 2 month.toNat}-{padStart 2 day.toNat}"
    some (String.ofList (text.toList.take 10))

def jsonChar (c : Char) : List Char :=
  if c = '"' then ['\\', '"']
  else if c = '\\' then ['\\', '\\']
  else if c.toNat = 0x08 then ['\\', 'b']
  else if c.toNat = 0x09 then ['\\', 't']
  else if c.toNat = 0x0A then ['\\', 'n']
  else if c.toNat = 0x0C then ['\\', 'f']
  else if c.toNat = 0x0D then ['\\', 'r']
  else if c.toNat < 0x20 then
    ['\\', 'u', '0', '0', Nat.digitChar (c.toNat / 16), Nat.digitChar (c.toNat % 16)]
  else [c]

/-- `JSON.stringify` of a text. -/
def jsonText (s : String) : String := String.ofList ('"' :: s.toList.flatMap jsonChar ++ ['"'])

/-- `JSON.stringify` of an array whose items have been written. -/
def jsonArray (items : List String) : String := "[" ++ ",".intercalate items ++ "]"

/-- `JSON.stringify` of an object whose values have been written. -/
def jsonObject (fields : List (String × String)) : String :=
  let members := fields.map fun f => jsonText f.1 ++ ":" ++ f.2
  String.ofList ('\x7b' :: (",".intercalate members).toList ++ ['\x7d'])

/-! Texts trimmed and put in capitals, once and again. -/

theorem trim_eq_rdropWhile (s : String) :
    trim s = String.ofList ((s.toList.dropWhile isSpace).rdropWhile isSpace) := rfl

theorem trim_trim (s : String) : trim (trim s) = trim s := by
  rw [trim_eq_rdropWhile s, trim_eq_rdropWhile, String.toList_ofList]
  have hfront : ((s.toList.dropWhile isSpace).rdropWhile isSpace).dropWhile isSpace =
      (s.toList.dropWhile isSpace).rdropWhile isSpace := by
    rw [dropWhile_eq_self_iff]
    intro hpos
    have hpref := rdropWhile_prefix (p := isSpace) (l := s.toList.dropWhile isSpace)
    have hlength : 0 < (s.toList.dropWhile isSpace).length := lt_of_lt_of_le hpos hpref.length_le
    have hsame := hpref.getElem hpos
    have hhead := dropWhile_get_zero_not isSpace s.toList hlength
    simpa [hsame] using hhead
  rw [hfront, rdropWhile_idempotent]

def Digits (cs : List Char) : Prop := ∀ c ∈ cs, c.isDigit = true

theorem digits_toString (n : Nat) : Digits (toString n).toList := by
  intro c hc
  rw [toString_eq_repr, toList_repr] at hc
  exact isDigit_of_mem_toDigits (by decide) (by decide) hc

theorem digitIn_of_isDigit (h : c.isDigit = true) : digitIn 10 c = some (c.toNat - '0'.toNat) := by
  have hrange := toNat_of_isDigit h
  have hzero : '0'.toNat = 48 := rfl
  have hsmall : c.toNat - '0'.toNat < 10 := by omega
  unfold digitIn
  rw [if_pos h]
  exact if_pos hsmall

theorem foldlM_digits {cs : List Char} (h : Digits cs) (init : Nat) :
    cs.foldlM (fun n c => (digitIn 10 c).map (n * 10 + ·)) init =
      some (Nat.ofDigitChars 10 cs init) := by
  induction cs generalizing init with
  | nil => rw [ofDigitChars_nil]; rfl
  | cons c cs ih =>
    have hc := h c mem_cons_self
    have hcs : Digits cs := fun d hd => h d (mem_cons_of_mem _ hd)
    rw [foldlM_cons, digitIn_of_isDigit hc, ofDigitChars_cons, mul_comm 10 init]
    exact ih hcs _

theorem naturalIn_toString (n : Nat) : naturalIn 10 (toString n).toList = some n := by
  have hread := foldlM_digits (digits_toString n) 0
  have hval : ofDigitChars 10 (toString n).toList 0 = n := by
    rw [toString_eq_repr, toList_repr, ofDigitChars_ten_toDigits]
  rw [hval] at hread
  unfold naturalIn
  split
  · next hnil =>
    rw [toString_eq_repr, toList_repr] at hnil
    exact absurd hnil toDigits_ne_nil
  · exact hread

theorem trim_of_not_space (hspace : ∀ c ∈ s.toList, isSpace c = false) : trim s = s := by
  have hfront : s.toList.dropWhile isSpace = s.toList := by
    rcases hs : s.toList with - | ⟨c, cs⟩
    · rfl
    · have hc := hspace c (hs ▸ mem_cons_self)
      exact dropWhile_cons_of_neg (by rw [hc]; decide)
  have hback : s.toList.reverse.dropWhile isSpace = s.toList.reverse := by
    rcases hs : s.toList.reverse with - | ⟨c, cs⟩
    · rfl
    · have hc := hspace c (mem_reverse.mp (hs ▸ mem_cons_self))
      exact dropWhile_cons_of_neg (by rw [hc]; decide)
  unfold trim
  rw [hfront, hback, reverse_reverse, String.ofList_toList]

theorem trim_of_digits (h : Digits s.toList) : trim s = s :=
  trim_of_not_space fun c hc => isSpace_of_isDigit (h c hc)

theorem bigIntOfString_toString (n : Nat) : bigIntOfString (toString n) = some (n : Int) := by
  have hdig := digits_toString n
  have hread := naturalIn_toString n
  unfold bigIntOfString
  rw [trim_of_digits hdig]
  generalize (toString n).toList = cs at hdig hread
  -- no sign and no prefix of another base is made of digits
  split
  · cases hread
  · exact absurd (hdig '-' mem_cons_self) (by decide)
  · exact absurd (hdig '+' mem_cons_self) (by decide)
  · exact absurd (hdig 'x' (by simp)) (by decide)
  · exact absurd (hdig 'X' (by simp)) (by decide)
  · exact absurd (hdig 'o' (by simp)) (by decide)
  · exact absurd (hdig 'O' (by simp)) (by decide)
  · exact absurd (hdig 'b' (by simp)) (by decide)
  · exact absurd (hdig 'B' (by simp)) (by decide)
  · rw [hread]
    rfl

theorem bigIntOfString_negSucc (n : Nat) :
    bigIntOfString (toString (Int.negSucc n)) = some (Int.negSucc n) := by
  have hdig := digits_toString (n + 1)
  have hread := naturalIn_toString (n + 1)
  have htext : (toString (Int.negSucc n)).toList = '-' :: (toString (n + 1)).toList :=
    String.toList_append
  have htrim : trim (toString (Int.negSucc n)) = toString (Int.negSucc n) := by
    refine trim_of_not_space fun c hc => ?_
    rw [htext] at hc
    rcases mem_cons.mp hc with rfl | hc
    · decide
    · exact isSpace_of_isDigit (hdig c hc)
  unfold bigIntOfString
  rw [htrim, htext]
  show (naturalIn 10 (toString (n + 1)).toList).map (fun n => -(n : Int)) = _
  rw [hread]
  rfl

theorem bigInt_toString (n : Int) : bigInt (.text (toString n)) = some n := by
  cases n with
  | ofNat n => exact bigIntOfString_toString n
  | negSucc n => exact bigIntOfString_negSucc n

end Rgnr8.Lib.Js
