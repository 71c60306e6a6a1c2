import Rgnr8.Service.Worksheet

/-! When the consolidated statements tie. They are glued from three windows, each translated,
rounded and eliminated on its own. -/

namespace Rgnr8.Service.Consolidation
open Lib Lib.Js Fallible Kernel Rgnr8.Statements Service.Statements List Option Except

variable {ctx : ConsolidationContext} {group : GroupRecord} {window : DateWindow}
variable {entities : List EntityBalances} {groupId : String}

variable {m : GroupMember}

namespace Shops

def julySale : PostCommand :=
  { Kernel.Sample.sale none with
    idempotencyKey := "july"
    periodKey := "2026-07"
    entryDate := "2026-07-01" }

def summer : List PostedEntry :=
  ((([.call Kernel.Sample.chart (.post julySale ⟨"2026-07-01"⟩),
    .call Kernel.Sample.chart (.post (Kernel.Sample.sale none) ⟨"2026-08-01"⟩)] :
    List EngineOp).foldl Ledger.step
      (⟨.empty, .empty⟩ : Ledger (InMemoryPeriodStore TenantId PeriodKey))).store).list "acme"

def summerBooks : Books where
  chart := chartOf (accounts "1000")
  journal := summer
  covers := by
    unfold Covers
    decide +kernel
  balanced := by decide +kernel
  banks := numbered.banks

variable (group : GroupRecord)

def statementsContext : ConsolidationContext where
  tenant := "east"
  currency := usd
  settings := { Settings.defaultSettings with multiCurrencyEnabled := true }
  books _ := summerBooks
  groups := OrderedMap.empty.set ("east", "shops") group
  eliminations := .empty
  letters := asciiLetters
  localeLe a b := a ≤ b

def drawn : Option FinancialStatements :=
  (consolidatedStatements (statementsContext group) "shops" "2026-08-01" "2026-08-31").toOption

end Shops

end Rgnr8.Service.Consolidation
