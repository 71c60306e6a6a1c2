import Rgnr8.Kernel.DecimalText
import Rgnr8.Kernel.FxRates
import Rgnr8.Kernel.TrialBalance

/-! Conversion at an exchange rate, and the revaluation of what an account holds in a foreign
currency. Conversion is exact up to one rounding, half away from zero. -/

namespace Rgnr8.Kernel
open Lib Lib.Js Money PostingEngine Int

def convert (amount : Money) (target : Currency) (rateDecimal : String) : Except String Money := do
  let (rateNum, rateScale) ← parseDecimal rateDecimal
  let numerator := amount.minorUnits * rateNum * 10 ^ target.scale
  let denominator := 10 ^ rateScale * 10 ^ amount.currency.scale
  return ⟨divRoundHalfUp numerator denominator, target⟩

variable {rateDecimal : String} {rate : Rat} {places : Nat}

variable {opts : FxRevaluationCommandOptions} {reval : Revaluation} {command : PostCommand}

variable {π : Type} [PeriodStore π]

theorem journal_of_posted {b : Books π} {postOpts : PostOptions} {e : PostedEntry}
    (hfree : b.ledger.store.getByIdempotencyKey command.tenantId command.idempotencyKey = none)
    (hposted : (b.perform (.post command postOpts)).1 = .ok e) :
    (b.perform (.post command postOpts)).2.journal command.tenantId =
      b.journal command.tenantId ++ [e] ∧ e.lines = command.lines := by
  unfold Books.perform PostingCall.program post at *
  generalize hr : Prog.run LedgerCall.exec (settle _ _ _ _ _) b.ledger = r at *
  have hs := settled command.tenantId command.idempotencyKey command.periodKey
    (fingerprintOfCommand command) ((validateAndBuildLines command.lines command.currency
      b.chart).map (draftOfCommand command postOpts)) b.ledger
  rw [hr] at hs
  cases hs with
  | replayed hkey => cases hfree.symm.trans hkey
  | refused err => cases hposted
  | appended _ _ hdraft =>
    obtain ⟨rfl, -⟩ := draft_of_post hdraft
    cases hposted
    refine ⟨(InMemoryLedgerStore.list_append_of_none hfree _).trans (if_pos rfl), ?_⟩
    rw [InMemoryLedgerStore.append_of_none hfree]
    rfl

end Rgnr8.Kernel
