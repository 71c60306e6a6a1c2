import Rgnr8.Kernel.Fingerprint
import Rgnr8.Kernel.Money

/-! Exchange rates are decimal texts. A table of them is asked for the rate of a pair on a date. -/

namespace Rgnr8.Kernel
open Lib Lib.Js List

/-- The digits of a decimal as one integer, and how many of them are behind the point. -/
def parseDecimal (s : String) : Except String (Int × Nat) :=
  match Money.decimalParts (trim s).toList with
  | none => .error ("Not a valid rate: \"" ++ s ++ "\"")
  | some (negative, whole, frac) =>
    let num : Int := ((naturalIn 10 (whole ++ frac)).getD 0 : Nat)
    .ok (if negative then -num else num, frac.length)

def divRoundHalfUp (numerator denominator : Int) : Int :=
  let n := if denominator < 0 then -numerator else numerator
  let d := |denominator|
  let rounded := if d ≤ |n| % d * 2 then |n| / d + 1 else |n| / d
  if n < 0 then -rounded else rounded

structure FxRate where
  source : String
  target : String
  asOf : String
  rate : String
  deriving DecidableEq

abbrev FxRateTable := List FxRate

def FxRate.Applies (source target asOf : String) (r : FxRate) : Prop :=
  r.source = source ∧ r.target = target ∧ ¬ Before asOf r.asOf

instance (source target asOf : String) : DecidablePred (FxRate.Applies source target asOf) :=
  fun _ => inferInstanceAs (Decidable (_ ∧ _))

namespace FxRateTable

def latest (rates : FxRateTable) (source target asOf : String) : Option FxRate :=
  rates.foldl (fun best r =>
    if r.Applies source target asOf ∧ best.all fun b => Before b.asOf r.asOf then some r
    else best) none

end FxRateTable

variable {rates : FxRateTable} {source target asOf : String} {r : FxRate}

/-- No record that applies is newer, and those in front are older. -/
def FirstNewest (rates : FxRateTable) (source target asOf : String) (r : FxRate) : Prop :=
  r.Applies source target asOf ∧ ∃ before after, rates = before ++ r :: after ∧
    (∀ b ∈ before, b.Applies source target asOf → Before b.asOf r.asOf) ∧
    ∀ b ∈ after, b.Applies source target asOf → ¬ Before r.asOf b.asOf

theorem FirstNewest.mem (h : FirstNewest rates source target asOf r) : r ∈ rates := by
  obtain ⟨-, before, after, rfl, -⟩ := h
  exact mem_append_right _ mem_cons_self

namespace FxSample

end FxSample

end Rgnr8.Kernel
