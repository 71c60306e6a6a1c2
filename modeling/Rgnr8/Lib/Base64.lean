import Mathlib.Data.List.Basic
import Mathlib.Tactic.Common

/-! Base64 with the URL-safe letters, written without padding, and the lenient reader of the Python
library: characters that are no letters are passed, and a full padding ends the text. -/

namespace Rgnr8.Lib.Base64

def letter (n : Nat) : Char :=
  if n < 26 then Char.ofNat (65 + n)
  else if n < 52 then Char.ofNat (97 + (n - 26))
  else if n < 62 then Char.ofNat (48 + (n - 52))
  else if n = 62 then '-' else '_'

/-- The six-bit value of a letter, of either alphabet. -/
def value (c : Char) : Option Nat :=
  if c.isUpper then some (c.toNat - 65)
  else if c.isLower then some (c.toNat - 97 + 26)
  else if c.isDigit then some (c.toNat - 48 + 52)
  else if c = '-' ∨ c = '+' then some 62
  else if c = '_' ∨ c = '/' then some 63
  else none

def encode : List UInt8 → List Char
  | [] => []
  | [a] => [letter (a.toNat / 4), letter (a.toNat % 4 * 16)]
  | [a, b] =>
    [letter (a.toNat / 4), letter (a.toNat % 4 * 16 + b.toNat / 16), letter (b.toNat % 16 * 4)]
  | a :: b :: c :: rest =>
    letter (a.toNat / 4) :: letter (a.toNat % 4 * 16 + b.toNat / 16) ::
      letter (b.toNat % 16 * 4 + c.toNat / 64) :: letter (c.toNat % 64) :: encode rest

def bytesOf : List Nat → List UInt8
  | [a, b] => [.ofNat (a * 4 + b / 16)]
  | [a, b, c] => [.ofNat (a * 4 + b / 16), .ofNat (b % 16 * 16 + c / 4)]
  | [a, b, c, d] =>
    [.ofNat (a * 4 + b / 16), .ofNat (b % 16 * 16 + c / 4), .ofNat (c % 4 * 64 + d)]
  | _ => []

/-- Reads on with the values of the quad begun and the number of `=` seen since the last letter. -/
def scan : List Nat → Nat → List Char → Option (List UInt8)
  | quad, _, [] => if quad = [] then some [] else none
  | quad, pads, c :: cs =>
    if c = '=' then
      if quad.length < 2 then scan quad pads cs
      else if 4 ≤ quad.length + (pads + 1) then some (bytesOf quad)
      else scan quad (pads + 1) cs
    else match value c with
      | none => scan quad pads cs
      | some v =>
        if quad.length < 3 then scan (quad ++ [v]) 0 cs
        else (scan [] 0 cs).map (bytesOf (quad ++ [v]) ++ ·)

def decode (text : List Char) : Option (List UInt8) :=
  if text.all fun c => c.toNat < 128 then
    scan [] 0 (text ++ List.replicate ((4 - text.length % 4) % 4) '=')
  else none

/-! What is written is read back. -/

theorem letter_facts : ∀ n < 64, value (letter n) = some n ∧ letter n ≠ '=' ∧ letter n ≠ '.' ∧
    (letter n).toNat < 128 := by decide

theorem scan_letter {quad : List Nat} {v : Nat} (hv : v < 64) (hq : quad.length < 3) (pads : Nat)
    (cs : List Char) : scan quad pads (letter v :: cs) = scan (quad ++ [v]) 0 cs := by
  obtain ⟨hval, hpad, -⟩ := letter_facts v hv
  rw [scan, if_neg hpad, hval]
  exact if_pos hq

theorem scan_fourth {quad : List Nat} {v : Nat} (hv : v < 64) (hq : quad.length = 3) (pads : Nat)
    (cs : List Char) :
    scan quad pads (letter v :: cs) = (scan [] 0 cs).map (bytesOf (quad ++ [v]) ++ ·) := by
  obtain ⟨hval, hpad, -⟩ := letter_facts v hv
  rw [scan, if_neg hpad, hval]
  exact if_neg (by omega)

theorem ofNat_eq {a : UInt8} {n : Nat} (h : n = a.toNat) : UInt8.ofNat n = a := by
  rw [h, UInt8.ofNat_toNat]

theorem scan_encode (bytes : List UInt8) :
    scan [] 0 (encode bytes ++
      List.replicate ((4 - (encode bytes).length % 4) % 4) '=') = some bytes := by
  induction bytes using encode.induct with
  | case1 => rfl
  | case2 a =>
    have ha := a.toNat_lt
    rw [encode]
    show scan [] 0 (letter _ :: letter _ :: ['=', '=']) = _
    rw [scan_letter (by omega) (by simp), scan_letter (by omega) (by simp)]
    show some (bytesOf [_, _]) = _
    rw [bytesOf, ofNat_eq (a := a) (by omega)]
  | case3 a b =>
    have ha := a.toNat_lt
    have hb := b.toNat_lt
    rw [encode]
    show scan [] 0 (letter _ :: letter _ :: letter _ :: ['=']) = _
    rw [scan_letter (by omega) (by simp), scan_letter (by omega) (by simp),
      scan_letter (by omega) (by simp)]
    show some (bytesOf [_, _, _]) = _
    rw [bytesOf, ofNat_eq (a := a) (by omega), ofNat_eq (a := b) (by omega)]
  | case4 a b c rest ih =>
    have ha := a.toNat_lt
    have hb := b.toNat_lt
    have hc := c.toNat_lt
    have hlength : (encode (a :: b :: c :: rest)).length % 4 = (encode rest).length % 4 := by
      rw [encode]
      simp only [List.length_cons]
      omega
    rw [hlength, encode]
    simp only [List.cons_append]
    rw [scan_letter (by omega) (by simp), scan_letter (by omega) (by simp),
      scan_letter (by omega) (by simp), scan_fourth (by omega) (by simp), ih]
    show some (bytesOf [_, _, _, _] ++ rest) = _
    rw [bytesOf, ofNat_eq (a := a) (by omega), ofNat_eq (a := b) (by omega),
      ofNat_eq (a := c) (by omega)]
    rfl

theorem mem_encode {bytes : List UInt8} {c : Char} (h : c ∈ encode bytes) :
    c ≠ '.' ∧ c.toNat < 128 := by
  have hlet {n : Nat} (hn : n < 64) (hc : c = letter n) : c ≠ '.' ∧ c.toNat < 128 := by
    rw [hc]
    exact (letter_facts n hn).2.2
  induction bytes using encode.induct with
  | case1 => exact absurd h List.not_mem_nil
  | case2 a =>
    have ha := a.toNat_lt
    rw [encode] at h
    simp only [List.mem_cons, List.not_mem_nil, or_false] at h
    rcases h with h | h <;> exact hlet (by omega) h
  | case3 a b =>
    have ha := a.toNat_lt
    have hb := b.toNat_lt
    rw [encode] at h
    simp only [List.mem_cons, List.not_mem_nil, or_false] at h
    rcases h with h | h | h <;> exact hlet (by omega) h
  | case4 a b c' rest ih =>
    have ha := a.toNat_lt
    have hb := b.toNat_lt
    have hc := c'.toNat_lt
    rw [encode] at h
    simp only [List.mem_cons] at h
    rcases h with h | h | h | h | h
    · exact hlet (by omega) h
    · exact hlet (by omega) h
    · exact hlet (by omega) h
    · exact hlet (by omega) h
    · exact ih h

theorem decode_encode (bytes : List UInt8) : decode (encode bytes) = some bytes := by
  have hall : (encode bytes).all (fun c => decide (c.toNat < 128)) = true :=
    List.all_eq_true.mpr fun c hc => decide_eq_true (mem_encode hc).2
  rw [decode, if_pos hall, scan_encode]

end Rgnr8.Lib.Base64
