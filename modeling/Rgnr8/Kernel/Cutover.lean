import Rgnr8.Kernel.PostEnds

/-! Cutover: the source system's balances as one opening entry, and every period up to the cutover
month locked. -/

namespace Rgnr8.Kernel
open Lib Fallible Int

/-- The last is any other text: a request is cast to its type, not checked. -/
inductive SourceSystem where
  | quickbooks | xero | other
  | unlisted (text : String)
  deriving DecidableEq

def SourceSystem.text : SourceSystem → String
  | quickbooks => "quickbooks"
  | xero => "xero"
  | other => "other"
  | unlisted text => text

/-- A balance as of the cutover date, debit-positive. -/
structure OpeningBalance where
  accountId : AccountId
  balance : Money

structure CutoverPlan where
  tenantId : TenantId
  sourceSystem : SourceSystem
  cutoverDate : String
  currency : Currency
  balances : List OpeningBalance
  openingBalanceEquityId : AccountId
  provenance : Provenance
  memo : Option String

/-- What a cutover can end with instead of a record. -/
inductive CutoverFailure where
  | cutover (message : String)
  | thrown (message : String)
  | ledger (e : LedgerError)
  deriving DecidableEq

def openingPrefix : String := "cutover:opening:"

def openingKey (cutoverDate : String) : IdempotencyKey := openingPrefix ++ cutoverDate

variable (plan : CutoverPlan)

def CutoverPlan.period : PeriodKey :=
  String.ofList (plan.cutoverDate.toList.take 7)

def openingLines (currency : Currency) : List OpeningBalance → (residualMinor : Int) →
    (lines : List JournalLineInput) → Except CutoverFailure (Int × List JournalLineInput)
  | [], residualMinor, lines => .ok (residualMinor, lines)
  | ob :: balances, residualMinor, lines =>
    if ob.balance.currency.code ≠ currency.code then
      .error (.cutover (s!"opening balance for {ob.accountId} is {ob.balance.currency.code}, " ++
        s!"expected {currency.code}"))
    else if ob.balance.minorUnits = 0 then openingLines currency balances residualMinor lines
    else if ¬ ob.balance.minorUnits < 0 then
      openingLines currency balances (residualMinor + ob.balance.minorUnits)
        (lines ++ [⟨ob.accountId, .debit, ob.balance, some "Opening balance", none⟩])
    else
      openingLines currency balances (residualMinor + ob.balance.minorUnits)
        (lines ++ [⟨ob.accountId, .credit, ⟨-ob.balance.minorUnits, ob.balance.currency⟩,
          some "Opening balance", none⟩])

def residualLine (residualMinor : Int) : JournalLineInput where
  accountId := plan.openingBalanceEquityId
  side := if 0 < residualMinor then .credit else .debit
  amount := ⟨if residualMinor < 0 then -residualMinor else residualMinor, plan.currency⟩
  memo := some "Opening Balance Equity"
  dimensions := none

def balancedLines : Except CutoverFailure (List JournalLineInput) := do
  let (residualMinor, lines) ← openingLines plan.currency plan.balances 0 []
  if lines.length = 0 then
    .error (.cutover "all opening balances are zero — nothing to convert")
  else if residualMinor ≠ 0 then return lines ++ [residualLine plan residualMinor]
  else if lines.length < 2 then
    .error (.cutover "opening balances net to a single line — cannot balance")
  else return lines

def openingCommand (lines : List JournalLineInput) : PostCommand where
  tenantId := plan.tenantId
  idempotencyKey := openingKey plan.cutoverDate
  periodKey := plan.period
  currency := plan.currency
  entryDate := plan.cutoverDate
  lines := lines
  provenance := plan.provenance
  memo := some (plan.memo.getD s!"Cutover from {plan.sourceSystem.text} — opening balances")

def buildOpeningBalanceEntry : Except CutoverFailure PostCommand :=
  if plan.balances.length = 0 then .error (.cutover "cutover has no opening balances")
  else (balancedLines plan).map (openingCommand plan)

structure CutoverRecord where
  tenantId : TenantId
  sourceSystem : SourceSystem
  cutoverDate : String
  openingEntryId : EntryId
  openingTotal : Money
  lockedThroughPeriod : PeriodKey
  postedAt : String

structure CutoverResult where
  entry : PostedEntry
  record : CutoverRecord
  newlyPosted : Bool

def cutoverRecord (entry : PostedEntry) (postedAt : String) : CutoverRecord where
  tenantId := plan.tenantId
  sourceSystem := plan.sourceSystem
  cutoverDate := plan.cutoverDate
  openingEntryId := entry.id
  openingTotal := ⟨sideTotal .debit entry.lines, plan.currency⟩
  lockedThroughPeriod := plan.period
  postedAt := postedAt

abbrev CutoverProg := Prog LedgerCall LedgerCall.Answer CutoverFailure

def recordCutover (postedAt : String) (entry : PostedEntry) (newlyPosted : Bool) :
    CutoverProg CutoverResult := do
  Prog.perform (LedgerCall.periods (.lockThrough plan.tenantId plan.period))
  return ⟨entry, cutoverRecord plan entry postedAt, newlyPosted⟩

def executeCutover (coa : ChartOfAccounts) (plan : CutoverPlan) (postedAt : String) :
    CutoverProg CutoverResult := do
  let command ← Prog.ofExcept (buildOpeningBalanceEntry plan)
  match (← Prog.perform (LedgerCall.getByIdempotencyKey plan.tenantId command.idempotencyKey) :
    Option PostedEntry) with
  -- the key is enough: what the entry says is not compared
  | some existing => recordCutover plan postedAt existing false
  | none =>
    let entry ← (PostingEngine.post coa command ⟨postedAt⟩).interpret Prog.perform .ledger
    recordCutover plan postedAt entry true

def importedOn (id : AccountId) (balances : List OpeningBalance) : Int :=
  (balances.map fun ob => if ob.accountId = id then ob.balance.minorUnits else 0).sum

def importedTotal (balances : List OpeningBalance) : Int :=
  (balances.map fun ob => ob.balance.minorUnits).sum

section
variable {currency : Currency} {plan : CutoverPlan} {command : PostCommand} {id : AccountId}

theorem openingLines_eq_ok (id : AccountId) {balances : List OpeningBalance}
    {residual residual' : Int} {lines lines' : List JournalLineInput}
    (h : openingLines currency balances residual lines = .ok (residual', lines')) :
    residual' = residual + importedTotal balances ∧
      netOn id lines' = netOn id lines + importedOn id balances := by
  induction balances generalizing residual lines with
  | nil =>
    unfold openingLines at h
    rw [Except.ok.injEq, Prod.mk.injEq] at h
    obtain ⟨rfl, rfl⟩ := h
    exact ⟨(add_zero _).symm, (add_zero _).symm⟩
  | cons ob balances ih =>
    have htot : importedTotal (ob :: balances) =
        ob.balance.minorUnits + importedTotal balances := List.sum_cons
    have hon : importedOn id (ob :: balances) =
        (if ob.accountId = id then ob.balance.minorUnits else 0) + importedOn id balances :=
      List.sum_cons
    unfold openingLines at h
    rw [refuse_eq_ok] at h
    have hrest := h.2
    rw [htot, hon]
    split_ifs at hrest with hzero hside
    · obtain ⟨hr, hn⟩ := ih hrest
      rw [hr, hn, hzero, ite_self, zero_add, zero_add]
      exact ⟨rfl, rfl⟩
    · obtain ⟨hr, hn⟩ := ih hrest
      rw [hr, hn, netOn_append, netOn_cons, netOn_nil, add_zero, add_assoc, add_assoc]
      refine ⟨rfl, ?_⟩
      show _ + ((if _ then - -ob.balance.minorUnits else 0) + _) = _
      rw [neg_neg]
    · obtain ⟨hr, hn⟩ := ih hrest
      rw [hr, hn, netOn_append, netOn_cons, netOn_nil, add_zero, add_assoc, add_assoc]
      exact ⟨rfl, rfl⟩

theorem netOn_residualLine (plan : CutoverPlan) {residual : Int} (h : residual ≠ 0) :
    netOn id [residualLine plan residual] =
      if plan.openingBalanceEquityId = id then -residual else 0 := by
  rw [netOn_cons, netOn_nil, add_zero]
  unfold residualLine
  rcases lt_or_gt_of_ne h with hneg | hpos
  · have hnot : ¬ 0 < residual := by omega
    simp only [if_neg hnot, if_pos hneg]
    rfl
  · have hnot : ¬ residual < 0 := by omega
    simp only [if_pos hpos, if_neg hnot]
    rfl

theorem netOn_of_buildOpeningBalanceEntry (h : buildOpeningBalanceEntry plan = .ok command)
    (id : AccountId) : netOn id command.lines = importedOn id plan.balances -
      if plan.openingBalanceEquityId = id then importedTotal plan.balances else 0 := by
  unfold buildOpeningBalanceEntry at h
  rw [refuse_eq_ok, map_eq_ok] at h
  obtain ⟨-, lines, hlines, rfl⟩ := h
  unfold balancedLines at hlines
  rw [bind_eq_ok] at hlines
  obtain ⟨⟨residual, built⟩, hbuilt, hlines⟩ := hlines
  obtain ⟨hresid, hnet⟩ := openingLines_eq_ok id hbuilt
  rw [zero_add] at hresid
  rw [netOn_nil, zero_add] at hnet
  rw [refuse_eq_ok] at hlines
  have hlines := hlines.2
  show netOn id lines = _
  by_cases hzero : residual ≠ 0
  · rw [if_pos hzero] at hlines
    rw [← Except.ok.inj hlines, netOn_append, netOn_residualLine plan hzero, hnet, hresid]
    split_ifs
    · exact Int.sub_eq_add_neg.symm
    · rw [add_zero, sub_zero]
  · rw [if_neg hzero, refuse_eq_ok] at hlines
    have hnone := not_not.mp hzero
    rw [← Except.ok.inj hlines.2, hnet, ← hresid, hnone, ite_self, sub_zero]

theorem openingCommand_of_build (h : buildOpeningBalanceEntry plan = .ok command) :
    command = openingCommand plan command.lines := by
  unfold buildOpeningBalanceEntry at h
  rw [refuse_eq_ok, map_eq_ok] at h
  obtain ⟨-, lines, -, rfl⟩ := h
  rfl

end

section
variable {π : Type} [PeriodStore π]

def Ledger.sealedAt (s : Ledger π) (plan : CutoverPlan) : Ledger π :=
  { s with periods := PeriodStore.lockThrough s.periods plan.tenantId plan.period }

inductive CutoverEnds (coa : ChartOfAccounts) (plan : CutoverPlan) (postedAt : String)
    (s : Ledger π) : Except CutoverFailure CutoverResult × Ledger π → Prop where
  | refused (f : CutoverFailure) (hfree : ∀ command, buildOpeningBalanceEntry plan = .ok command →
        s.store.getByIdempotencyKey plan.tenantId command.idempotencyKey = none) :
      CutoverEnds coa plan postedAt s (.error f, s)
  | reused {command : PostCommand} {entry : PostedEntry}
      (hbuild : buildOpeningBalanceEntry plan = .ok command)
      (hkey : s.store.getByIdempotencyKey plan.tenantId command.idempotencyKey = some entry) :
      CutoverEnds coa plan postedAt s
        (.ok ⟨entry, cutoverRecord plan entry postedAt, false⟩, s.sealedAt plan)
  | posted {command : PostCommand} (hbuild : buildOpeningBalanceEntry plan = .ok command)
      (happends : s.Appends coa command) :
      CutoverEnds coa plan postedAt s
        (.ok ⟨s.entryOf command ⟨postedAt⟩,
          cutoverRecord plan (s.entryOf command ⟨postedAt⟩) postedAt, true⟩,
          (s.posted command ⟨postedAt⟩).sealedAt plan)

theorem run_engine {α : Type} (p : LedgerProg α) (s : Ledger π) :
    (p.interpret Prog.perform CutoverFailure.ledger).run LedgerCall.exec s =
      ((p.run LedgerCall.exec s).1.mapError .ledger, (p.run LedgerCall.exec s).2) :=
  Prog.run_interpret id (fun a _ => a) (fun _ _ => rfl) (fun _ _ _ => rfl) (fun _ => rfl)
    (fun _ _ => rfl) p s

theorem executeCutover_eq {coa : ChartOfAccounts} {plan : CutoverPlan} {postedAt : String}
    {command : PostCommand} (h : buildOpeningBalanceEntry plan = .ok command) :
    executeCutover coa plan postedAt =
      .call (.getByIdempotencyKey plan.tenantId command.idempotencyKey) fun existing =>
        match existing with
        | some existing => recordCutover plan postedAt existing false
        | none => ((PostingEngine.post coa command ⟨postedAt⟩).interpret Prog.perform .ledger).bind
            fun entry => recordCutover plan postedAt entry true := by
  unfold executeCutover
  rw [h]
  rfl

theorem cutoverEnds (coa : ChartOfAccounts) (plan : CutoverPlan) (postedAt : String)
    (s : Ledger π) : CutoverEnds coa plan postedAt s
      ((executeCutover coa plan postedAt).run LedgerCall.exec s) := by
  cases hbuild : buildOpeningBalanceEntry plan with
  | error f =>
    unfold executeCutover
    rw [hbuild]
    exact .refused f fun command h => by cases hbuild.symm.trans h
  | ok command =>
    have htenant : command.tenantId = plan.tenantId := by
      rw [openingCommand_of_build hbuild]
      rfl
    rw [executeCutover_eq hbuild, Prog.run_call]
    cases hkey : s.store.getByIdempotencyKey plan.tenantId command.idempotencyKey with
    | some entry =>
      simp only [LedgerCall.exec, hkey]
      exact .reused hbuild hkey
    | none =>
      have hends := PostingEngine.postEnds coa command ⟨postedAt⟩ s
      simp only [LedgerCall.exec, hkey]
      rw [Prog.run_bind, run_engine]
      generalize (PostingEngine.post coa command ⟨postedAt⟩).run LedgerCall.exec s = r at hends ⊢
      cases hends with
      | answered h =>
        have hheld := h.1
        rw [htenant, hkey] at hheld
        cases hheld
      | refused err _ _ =>
        refine .refused (.ledger err) fun command' h => ?_
        rwa [← Except.ok.inj (hbuild.symm.trans h)]
      | appended h => exact .posted hbuild h

end
end Rgnr8.Kernel
