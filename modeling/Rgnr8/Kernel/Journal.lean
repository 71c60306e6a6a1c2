import Rgnr8.Kernel.Chart

/-! The one path to postable lines. It returns the proposed lines unchanged or not at all. -/

namespace Rgnr8.Kernel

def checkLine (line : JournalLineInput) (currency : Currency) (coa : ChartOfAccounts) :
    Except LedgerError Unit :=
  match coa.get line.accountId with
  | none => .error (.unknownAccount line.accountId)
  | some account =>
    if account.active = some false then .error (.inactiveAccount line.accountId account.code)
    else if line.amount.currency.code ≠ currency.code then
      .error (.lineCurrency line.accountId
        s!"Line amount currency {line.amount.currency.code} != entry currency {currency.code}")
    else if account.currency.code ≠ currency.code then
      .error (.lineCurrency line.accountId
        s!"Account currency {account.currency.code} != entry currency {currency.code}")
    else if ¬ 0 < line.amount.minorUnits then .error (.nonPositiveAmount line.accountId)
    else .ok ()

def buildLines (currency : Currency) (coa : ChartOfAccounts) :
    List JournalLineInput → (debitMinor creditMinor : Int) → (built : List PostedLine) →
    Except LedgerError (List PostedLine)
  | [], debitMinor, creditMinor, built =>
    if debitMinor ≠ creditMinor then .error (.unbalancedEntry debitMinor creditMinor)
    else .ok built
  | line :: lines, debitMinor, creditMinor, built =>
    match checkLine line currency coa with
    | .error e => .error e
    | .ok () => match line.side with
      | .debit =>
        buildLines currency coa lines (debitMinor + line.amount.minorUnits) creditMinor
          (built ++ [line])
      | .credit =>
        buildLines currency coa lines debitMinor (creditMinor + line.amount.minorUnits)
          (built ++ [line])

def validateAndBuildLines (lines : List JournalLineInput) (currency : Currency)
    (coa : ChartOfAccounts) : Except LedgerError (List PostedLine) :=
  if lines.length < 2 then .error .emptyEntry else buildLines currency coa lines 0 0 []

def sideTotal (side : EntrySide) (lines : List PostedLine) : Int :=
  ((lines.filter fun l => l.side = side).map fun l => l.amount.minorUnits).sum

@[simp] theorem sideTotal_nil (side : EntrySide) : sideTotal side [] = 0 := rfl

variable {coa : ChartOfAccounts} {currency : Currency} {side : EntrySide} {lines : List PostedLine}

theorem sideTotal_cons_self {l : PostedLine} (h : l.side = side) (lines : List PostedLine) :
    sideTotal side (l :: lines) = l.amount.minorUnits + sideTotal side lines := by
  simp [sideTotal, h]

theorem sideTotal_cons_ne {l : PostedLine} (h : l.side ≠ side) (lines : List PostedLine) :
    sideTotal side (l :: lines) = sideTotal side lines := by
  simp [sideTotal, h]

theorem sideTotal_append (side : EntrySide) (lines lines' : List PostedLine) :
    sideTotal side (lines ++ lines') = sideTotal side lines + sideTotal side lines' := by
  simp [sideTotal]

theorem sideTotal_of_off (h : ∀ l ∈ lines, l.side ≠ side) : sideTotal side lines = 0 := by
  induction lines with
  | nil => rfl
  | cons l lines ih =>
    rw [List.forall_mem_cons] at h
    rw [sideTotal_cons_ne h.1, ih h.2]

theorem two_le_length (hne : lines ≠ []) (hpos : ∀ l ∈ lines, 0 < l.amount.minorUnits)
    (hbal : sideTotal .debit lines = sideTotal .credit lines) : 2 ≤ lines.length := by
  match lines with
  | [] => exact absurd rfl hne
  | [l] =>
    have hl := hpos l (List.mem_singleton_self l)
    cases hside : l.side with
    | debit =>
      rw [sideTotal_cons_self hside, sideTotal_cons_ne (by rw [hside]; exact nofun), sideTotal_nil,
        sideTotal_nil] at hbal
      omega
    | credit =>
      rw [sideTotal_cons_self hside, sideTotal_cons_ne (by rw [hside]; exact nofun), sideTotal_nil,
        sideTotal_nil] at hbal
      omega
  | _ :: _ :: lines => exact Nat.le_add_left 2 lines.length

def LineOk (currency : Currency) (coa : ChartOfAccounts) (line : PostedLine) : Prop :=
  ∃ account, coa.get line.accountId = some account ∧ account.active ≠ some false ∧
    line.amount.currency.code = currency.code ∧ account.currency.code = currency.code ∧
    0 < line.amount.minorUnits

theorem checkLine_eq_ok {line : PostedLine} :
    checkLine line currency coa = .ok () ↔ LineOk currency coa line := by
  rw [checkLine, LineOk]
  cases coa.get line.accountId with
  | none => simp
  | some account =>
    simp only [Option.some.injEq, exists_eq_left']
    split_ifs with h1 h2 h3 h4
    · simp [h1]
    · simp [h2]
    · simp [h3]
    · exact iff_of_true rfl ⟨h1, not_not.mp h2, not_not.mp h3, h4⟩
    · simp [h4]

theorem buildLines_eq_ok {built out : List PostedLine} {d c : Int} :
    buildLines currency coa lines d c built = .ok out ↔
      (∀ l ∈ lines, LineOk currency coa l) ∧
      d + sideTotal .debit lines = c + sideTotal .credit lines ∧ out = built ++ lines := by
  induction lines generalizing d c built with
  | nil =>
    rw [buildLines]
    split_ifs with h
    · simp [h]
    · simp_all [eq_comm]
  | cons line lines ih =>
    rw [buildLines, List.forall_mem_cons, ← checkLine_eq_ok]
    cases hc : checkLine line currency coa with
    | error e => simp
    | ok u =>
      have happ : built ++ [line] ++ lines = built ++ line :: lines := by simp
      cases hs : line.side with
      | debit =>
        have hne : line.side ≠ .credit := by simp [hs]
        simp only [ih, happ, sideTotal_cons_self hs, sideTotal_cons_ne hne, Int.add_assoc, true_and]
      | credit =>
        have hne : line.side ≠ .debit := by simp [hs]
        simp only [ih, happ, sideTotal_cons_self hs, sideTotal_cons_ne hne, Int.add_assoc, true_and]

theorem validateAndBuildLines_eq_ok {out : List PostedLine} :
    validateAndBuildLines lines currency coa = .ok out ↔
      2 ≤ lines.length ∧ (∀ l ∈ lines, LineOk currency coa l) ∧
      sideTotal .debit lines = sideTotal .credit lines ∧ out = lines := by
  rw [validateAndBuildLines]
  split_ifs with h
  · simp only [false_iff, not_and]
    intro h2
    omega
  · rw [buildLines_eq_ok]
    simp only [Int.zero_add, List.nil_append, not_lt.mp h, true_and]

end Rgnr8.Kernel
