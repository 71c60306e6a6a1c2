import Mathlib.Tactic.Linarith
import Mathlib.Tactic.Ring
import Rgnr8.Service.Debt

/-! The schedule of a loan, in scaled integers. The level payment covers the interest of the first
period, the balance only falls, and the last payment retires it. -/

namespace Rgnr8.Service.Debt
open Lib Lib.Js Fallible Kernel

/-! The arithmetic. -/

/-- `(base / scale) ^ n`, in units of `scale`. -/
def powScaled (base : Int) : (n : Nat) → Int
  | 0 => scale
  | n + 1 => (powScaled base n * base).tdiv scale

/-- The payment that retires a principal over `n` periods. -/
def levelPayment (principalMinor rScaled : Int) (n : Int) : Int :=
  if n ≤ 0 then principalMinor
  else if rScaled = 0 then (principalMinor + n - 1).tdiv n
  else
    let pow := powScaled (scale + rScaled) n.toNat
    let denom := scale - (scale * scale).tdiv pow
    roundDiv (principalMinor * rScaled) denom

def paymentOf (loan : LoanRecord) : Int :=
  if 0 < loan.paymentMinor then loan.paymentMinor
  else levelPayment loan.originalPrincipalMinor
    (periodicRateScaled loan.annualRateMicro loan.frequency) loan.termPeriods

structure ScheduleRow where
  period : Int
  dueDate : String
  paymentMinor : Int
  principalMinor : Int
  interestMinor : Int
  balanceMinor : Int
  deriving DecidableEq

def addPeriods (startDate : String) (freq : PaymentFrequency) (i : Int) :
    Except FlowFailure String :=
  let unreadable := .error (.own s!"start date must be YYYY-MM-DD, got {startDate}")
  let dated : Option String → Except FlowFailure String
    | none => .error (.date "Invalid time value")
    | some date => .ok date
  match startDate.toList with
  | [a, b, c, d, '-', e, f, '-', g, h] =>
    match naturalIn 10 [a, b, c, d], naturalIn 10 [e, f], naturalIn 10 [g, h] with
    | some y, some m, some day =>
      if y = 0 ∨ m = 0 ∨ day = 0 then unreadable
      else
        let addDays (days : Int) : Option String := do isoDay ((← dateUtc y (m - 1) day) + days)
        let addMonths (months : Int) : Option String := do
          let total : Int := (y * 12 + (m - 1)) + months
          let lastDay ← dateUtc (total / 12) (total % 12 + 1) 0
          isoDay (← dateUtc (total / 12) (total % 12) (min day (civilOfDays lastDay).2.2))
        dated (match freq with
          | .weekly => addDays (7 * i)
          | .biweekly => addDays (14 * i)
          | .quarterly => addMonths (3 * i)
          | .annual => addMonths (12 * i)
          | .monthly => addMonths i)
    | _, _, _ => unreadable
  | _ => unreadable

/-- The rows from period `i` on. The payment that reaches the balance, or the last one, retires it
exactly. -/
def scheduleRows (loan : LoanRecord) (payment rScaled : Int) : (left : Nat) → (i balance : Int) →
    Except FlowFailure (List ScheduleRow)
  | 0, _, _ => .ok []
  | left + 1, i, balance => do
    let interest := roundDiv (balance * rScaled) scale
    let retires : Prop := balance ≤ payment - interest ∨ left = 0
    let principalPart := if retires then balance else payment - interest
    let thisPayment := if retires then balance + interest else payment
    let dueDate ← addPeriods loan.startDate loan.frequency i
    let row : ScheduleRow :=
      ⟨i, dueDate, thisPayment, principalPart, interest, balance - principalPart⟩
    if balance - principalPart ≤ 0 then return [row]
    else
      let rows ← scheduleRows loan payment rScaled left (i + 1) (balance - principalPart)
      return row :: rows

def amortizationSchedule (loan : LoanRecord) : Except FlowFailure (List ScheduleRow) :=
  if loan.termPeriods ≤ 0 then .ok []
  else
    scheduleRows loan (paymentOf loan) (periodicRateScaled loan.annualRateMicro loan.frequency)
      loan.termPeriods.toNat 1 loan.originalPrincipalMinor

/-! Rounded interest. -/

theorem scale_pos : 0 < scale := by decide

variable {balance den i num rScaled : Int} {loan : LoanRecord} {left : Nat}

theorem roundDiv_eq (hnum : 0 ≤ num) (hden : 0 < den) :
    roundDiv num den = (num + den / 2) / den := by
  unfold roundDiv
  rw [if_neg hden.ne', Int.tdiv_eq_ediv_of_nonneg hden.le, Int.tdiv_eq_ediv_of_nonneg (by omega)]

theorem roundDiv_nonneg (hnum : 0 ≤ num) (hden : 0 < den) : 0 ≤ roundDiv num den := by
  rw [roundDiv_eq hnum hden]
  exact Int.ediv_nonneg (by omega) hden.le

theorem roundDiv_mono {num' : Int} (hnum : 0 ≤ num) (hle : num ≤ num') (hden : 0 < den) :
    roundDiv num den ≤ roundDiv num' den := by
  rw [roundDiv_eq hnum hden, roundDiv_eq (hnum.trans hle) hden]
  exact Int.ediv_le_ediv hden (by omega)

def interestOn (rScaled balance : Int) : Int := roundDiv (balance * rScaled) scale

theorem interestOn_nonneg (hrate : 0 ≤ rScaled) (hbalance : 0 ≤ balance) :
    0 ≤ interestOn rScaled balance :=
  roundDiv_nonneg (mul_nonneg hbalance hrate) scale_pos

theorem interestOn_mono {balance' : Int} (hrate : 0 ≤ rScaled) (hbalance : 0 ≤ balance)
    (hle : balance ≤ balance') : interestOn rScaled balance ≤ interestOn rScaled balance' :=
  roundDiv_mono (mul_nonneg hbalance hrate) (mul_le_mul_of_nonneg_right hle hrate) scale_pos

theorem periodicRateScaled_nonneg {rate : Int} (h : 0 ≤ rate) (freq : PaymentFrequency) :
    0 ≤ periodicRateScaled rate freq := by
  unfold periodicRateScaled
  refine Int.tdiv_nonneg (mul_nonneg h scale_pos.le) ?_
  cases freq <;> decide

/-! The level payment. -/

theorem le_powScaled (hrate : 0 < rScaled) (n : Nat) :
    scale + n ≤ powScaled (scale + rScaled) n := by
  induction n with
  | zero =>
    rw [powScaled]
    exact le_of_eq (add_zero scale)
  | succ n ih =>
    have hpow : 0 ≤ powScaled (scale + rScaled) n := by
      have hscale := scale_pos
      omega
    have hprod : (powScaled (scale + rScaled) n + 1) * scale ≤
        powScaled (scale + rScaled) n * (scale + rScaled) := by
      have hscale : scale ≤ powScaled (scale + rScaled) n := by omega
      nlinarith
    rw [powScaled, Int.tdiv_eq_ediv_of_nonneg (mul_nonneg hpow (by
      have hscale := scale_pos
      omega))]
    have hnext := (Int.le_ediv_iff_mul_le scale_pos).mpr hprod
    rw [Nat.cast_succ]
    omega

theorem denom_bounds (hrate : 0 < rScaled) {n : Nat} (hn : 0 < n) :
    0 < scale - (scale * scale).tdiv (powScaled (scale + rScaled) n) ∧
      scale - (scale * scale).tdiv (powScaled (scale + rScaled) n) ≤ scale := by
  have hpow := le_powScaled hrate n
  have hscale := scale_pos
  have hpos : 0 < powScaled (scale + rScaled) n := by omega
  rw [Int.tdiv_eq_ediv_of_nonneg (mul_nonneg hscale.le hscale.le)]
  constructor
  · have hless : scale * scale / powScaled (scale + rScaled) n < scale := by
      rw [Int.ediv_lt_iff_lt_mul hpos]
      exact mul_lt_mul_of_pos_left (by omega) hscale
    omega
  · have hquot := Int.ediv_nonneg (mul_nonneg hscale.le hscale.le) hpos.le
    omega

theorem roundDiv_anti (hnum : 0 ≤ num) (hden : 0 < den) (hle : den ≤ scale) :
    roundDiv num scale ≤ roundDiv num den := by
  rw [roundDiv_eq hnum scale_pos, roundDiv_eq hnum hden, Int.le_ediv_iff_mul_le hden]
  have hquot := Int.ediv_mul_le (num + scale / 2) scale_pos.ne'
  generalize hq : (num + scale / 2) / scale = q at hquot ⊢
  have hqNon : 0 ≤ q := by
    rw [← hq]
    exact Int.ediv_nonneg (by
      have hscale := scale_pos
      omega) scale_pos.le
  have heven : 2 * (scale / 2) = scale := by decide
  rcases hqNon.eq_or_lt with hzero | hpos
  · rw [← hzero, zero_mul]
    omega
  · rcases hle.eq_or_lt with heq | hless
    · rw [heq]
      exact hquot
    · -- each unit of the scale that is missing saves at least half of one
      have hsav : q * den + (scale - den) ≤ q * scale := by nlinarith
      omega

theorem interestOn_le_levelPayment {principal n : Int} (hprin : 0 ≤ principal)
    (hrate : 0 ≤ rScaled) (hn : 0 < n) :
    interestOn rScaled principal ≤ levelPayment principal rScaled n := by
  unfold levelPayment
  rw [if_neg (not_le.mpr hn)]
  split_ifs with hzero
  · have hint : interestOn rScaled principal = 0 := by
      unfold interestOn
      rw [hzero, mul_zero, roundDiv_eq le_rfl scale_pos]
      decide
    rw [hint]
    exact Int.tdiv_nonneg (by omega) hn.le
  · have hposv : 0 < rScaled := lt_of_le_of_ne hrate (Ne.symm hzero)
    obtain ⟨hdenom, hdenomLe⟩ := denom_bounds hposv (n := n.toNat) (by omega)
    exact roundDiv_anti (mul_nonneg hprin hrate) hdenom hdenomLe

/-! The schedule. -/

def Descends : (balance : Int) → List ScheduleRow → Prop
  | _, [] => True
  | balance, r :: rows =>
    r.balanceMinor = balance - r.principalMinor ∧ r.balanceMinor ≤ balance ∧
      Descends r.balanceMinor rows

structure Closes (balance : Int) (periods : Int) (rows : List ScheduleRow) : Prop where
  count : 1 ≤ rows.length ∧ rows.length ≤ periods
  parts : ∀ r ∈ rows, r.paymentMinor = r.principalMinor + r.interestMinor ∧ 0 ≤ r.principalMinor
  descends : Descends balance rows
  total : (rows.map ScheduleRow.principalMinor).sum = balance
  last : (rows.getLast?).map ScheduleRow.balanceMinor = some 0

theorem scheduleRows_step {payment : Int} {rows : List ScheduleRow}
    (h : scheduleRows loan payment rScaled (left + 1) i balance = .ok rows) :
    ∃ row rest, rows = row :: rest ∧ row.interestMinor = interestOn rScaled balance ∧
      row.paymentMinor = row.principalMinor + row.interestMinor ∧
      row.balanceMinor = balance - row.principalMinor ∧
      (row.principalMinor = balance ∧ rest = [] ∨
        left ≠ 0 ∧ row.principalMinor = payment - interestOn rScaled balance ∧
          row.principalMinor < balance ∧
          scheduleRows loan payment rScaled left (i + 1) row.balanceMinor = .ok rest) := by
  unfold scheduleRows at h
  rw [bind_eq_ok] at h
  obtain ⟨dueDate, -, h⟩ := h
  have hint : roundDiv (balance * rScaled) scale = interestOn rScaled balance := rfl
  rw [hint] at h
  by_cases hrets : balance ≤ payment - interestOn rScaled balance ∨ left = 0
  · simp only [if_pos hrets, sub_self, le_refl, if_true] at h
    refine ⟨_, [], (Except.ok.inj h).symm, rfl, rfl, ?_, .inl ⟨rfl, rfl⟩⟩
    exact (sub_self balance).symm
  · simp only [if_neg hrets] at h
    rw [if_neg (by omega), bind_eq_ok] at h
    obtain ⟨rest, hrest, h⟩ := h
    refine ⟨_, rest, (Except.ok.inj h).symm, rfl, ?_, rfl, .inr ⟨?_, rfl, ?_, hrest⟩⟩
    · exact (sub_add_cancel payment _).symm
    · exact fun hzero => hrets (.inr hzero)
    · exact not_le.mp fun hle => hrets (.inl hle)

theorem closes_retired {row : ScheduleRow} {periods : Int} (hbalance : 0 ≤ balance)
    (hpay : row.paymentMinor = row.principalMinor + row.interestMinor)
    (hrow : row.balanceMinor = balance - row.principalMinor)
    (hret : row.principalMinor = balance) (hperiods : 1 ≤ periods) :
    Closes balance periods [row] where
  count := ⟨le_rfl, hperiods⟩
  parts := by
    intro r hr
    rw [List.mem_singleton.mp hr]
    exact ⟨hpay, by omega⟩
  descends := ⟨hrow, by omega, trivial⟩
  total := by
    rw [List.map_singleton, List.sum_singleton]
    exact hret
  last := by
    have hzero : row.balanceMinor = 0 := by omega
    exact congrArg some hzero

theorem closes_cons {row : ScheduleRow} {rest : List ScheduleRow} {periods : Int}
    (hpart : 0 ≤ row.principalMinor)
    (hpay : row.paymentMinor = row.principalMinor + row.interestMinor)
    (hrow : row.balanceMinor = balance - row.principalMinor)
    (hrest : Closes row.balanceMinor periods rest) :
    Closes balance (periods + 1) (row :: rest) where
  count := by
    obtain ⟨hlow, hhigh⟩ := hrest.count
    rw [List.length_cons]
    omega
  parts := by
    intro r hr
    rcases List.mem_cons.mp hr with rfl | hr
    · exact ⟨hpay, hpart⟩
    · exact hrest.parts r hr
  descends := ⟨hrow, by omega, hrest.descends⟩
  total := by
    rw [List.map_cons, List.sum_cons, hrest.total]
    omega
  last := by
    have hne : rest ≠ [] := List.length_pos_iff.mp hrest.count.1
    rw [List.getLast?_cons_of_ne_nil hne]
    exact hrest.last

theorem closes_scheduleRows {payment : Int} (hrate : 0 ≤ rScaled) {rows : List ScheduleRow}
    (hbalance : 0 ≤ balance) (hpay : interestOn rScaled balance ≤ payment)
    (h : scheduleRows loan payment rScaled (left + 1) i balance = .ok rows) :
    Closes balance (left + 1) rows := by
  induction left generalizing i balance rows with
  | zero =>
    obtain ⟨row, rest, rfl, hint, hparts, hrow, ⟨hret, rfl⟩ | ⟨hleft, -⟩⟩ :=
      scheduleRows_step h
    · exact closes_retired hbalance hparts hrow hret (by omega)
    · exact absurd rfl hleft
  | succ left ih =>
    obtain ⟨row, rest, rfl, hint, hparts, hrow, ⟨hret, rfl⟩ | ⟨-, hpart, hless, hrest⟩⟩ :=
      scheduleRows_step h
    · exact closes_retired hbalance hparts hrow hret (by omega)
    · have hlow : 0 ≤ row.balanceMinor := by omega
      -- on less, the interest is no more, so the payment still covers it
      have hcov : interestOn rScaled row.balanceMinor ≤ payment :=
        (interestOn_mono hrate hlow (by omega)).trans hpay
      have hclos := closes_cons (by omega) hparts hrow (ih hlow hcov hrest)
      rw [Nat.cast_succ]
      exact hclos

theorem exists_scheduleRows (payment rScaled : Int) (balance : Int)
    (hdates : ∀ k : Nat, k < left → ∃ date, addPeriods loan.startDate loan.frequency (i + k) = .ok
      date) : ∃ rows, scheduleRows loan payment rScaled left i balance = .ok rows := by
  induction left generalizing i balance with
  | zero => exact ⟨[], rfl⟩
  | succ left ih =>
    obtain ⟨date, hdate⟩ := hdates 0 (Nat.succ_pos left)
    rw [Nat.cast_zero, add_zero] at hdate
    have hlater (k : Nat) (hk : k < left) :
        ∃ date, addPeriods loan.startDate loan.frequency (i + 1 + k) = .ok date := by
      have hper : i + 1 + (k : Int) = i + (k + 1 : Nat) := by omega
      rw [hper]
      exact hdates (k + 1) (Nat.succ_lt_succ hk)
    unfold scheduleRows
    simp only [hdate, bind, Except.bind]
    split_ifs
    · exact ⟨_, rfl⟩
    · obtain ⟨rows, hrows⟩ := ih _ hlater
      rw [hrows]
      exact ⟨_, rfl⟩
    · exact ⟨_, rfl⟩
    · obtain ⟨rows, hrows⟩ := ih _ hlater
      rw [hrows]
      exact ⟨_, rfl⟩

theorem firstInterest_le (hterm : 1 ≤ loan.termPeriods)
    (hprin : 0 ≤ loan.originalPrincipalMinor) (hrate : 0 ≤ loan.annualRateMicro)
    (hpay : loan.paymentMinor = 0 ∨ interestOn (periodicRateScaled loan.annualRateMicro
      loan.frequency) loan.originalPrincipalMinor ≤ loan.paymentMinor) :
    interestOn (periodicRateScaled loan.annualRateMicro loan.frequency)
      loan.originalPrincipalMinor ≤ paymentOf loan := by
  have hrSc := periodicRateScaled_nonneg hrate loan.frequency
  unfold paymentOf
  split_ifs with hposv
  · exact hpay.resolve_left hposv.ne'
  · exact interestOn_le_levelPayment hprin hrSc (by omega)

/-- A payment that is derived, or covers the first interest, closes the loan: where each period has
its date there is a schedule, and a schedule retires the principal in its periods. -/
theorem amortization_closes {loan : LoanRecord} (hterm : 1 ≤ loan.termPeriods)
    (hprincipal : 0 ≤ loan.originalPrincipalMinor) (hrate : 0 ≤ loan.annualRateMicro)
    (hpayment : loan.paymentMinor = 0 ∨
      interestOn (periodicRateScaled loan.annualRateMicro loan.frequency)
        loan.originalPrincipalMinor ≤ loan.paymentMinor) :
    ((∀ i, 1 ≤ i → i ≤ loan.termPeriods →
        ∃ date, addPeriods loan.startDate loan.frequency i = .ok date) →
      ∃ rows, amortizationSchedule loan = .ok rows) ∧
    ∀ rows, amortizationSchedule loan = .ok rows →
      Closes loan.originalPrincipalMinor loan.termPeriods rows := by
  unfold amortizationSchedule
  rw [if_neg (by omega)]
  obtain ⟨left, hleft⟩ : ∃ left : Nat, loan.termPeriods.toNat = left + 1 :=
    ⟨loan.termPeriods.toNat - 1, by omega⟩
  rw [hleft]
  constructor
  · intro hdates
    exact exists_scheduleRows _ _ _ fun k hk => hdates _ (by omega) (by omega)
  · intro rows h
    have hclos := closes_scheduleRows (periodicRateScaled_nonneg hrate loan.frequency) hprincipal
      (firstInterest_le hterm hprincipal hrate hpayment) h
    have hperiods : loan.termPeriods = (left : Int) + 1 := by omega
    rw [hperiods]
    exact hclos

namespace Sample

def truck (paymentMinor : Int) : LoanRecord where
  id := "truck"
  lender := "First Bank"
  kind := .auto
  originalPrincipalMinor := 100000
  currentPrincipalMinor := 100000
  annualRateMicro := 120000
  startDate := "2025-01-31"
  termPeriods := 3
  frequency := .monthly
  paymentMinor := paymentMinor
  liabilityAccountCode := "2500"
  interestAccountCode := "7100"
  minDscrMicro := 0
  active := true
  memo := ""

def truckRows : List ScheduleRow :=
  [⟨1, "2025-02-28", 34002, 33002, 1000, 66998⟩, ⟨2, "2025-03-31", 34002, 33332, 670, 33666⟩,
    ⟨3, "2025-04-30", 34003, 33666, 337, 0⟩]

theorem amortization_closes_truck : (amortizationSchedule (truck 0)).toOption = some truckRows ∧
    Closes 100000 3 truckRows := by
  have hrows : (amortizationSchedule (truck 0)).toOption = some truckRows := by decide +kernel
  exact ⟨hrows, (amortization_closes (by decide) (by decide) (by decide) (.inl rfl)).2 truckRows
    (toOption_eq_some.mp hrows)⟩

end Sample

/-! Paying off early. -/

structure PayoffRun where
  periods : Int
  interest : Int

/-- The periods from one on, as long as something is left, and at most so many. A payment within the
interest never amortizes. -/
def payoffRun (payment rScaled : Int) : (left : Nat) → (balance interest periods : Int) → PayoffRun
  | 0, _, interest, periods => ⟨periods, interest⟩
  | left + 1, balance, interest, periods =>
    if 0 < balance then
      let i := roundDiv (balance * rScaled) scale
      let principalPart := payment - i
      if principalPart ≤ 0 then ⟨-1, -1⟩
      else
        payoffRun payment rScaled left
          (balance - (if balance < principalPart then balance else principalPart)) (interest + i)
          (periods + 1)
    else ⟨periods, interest⟩

def maxPeriods : Nat := 10000

structure PayoffPlan where
  contract : String
  loanId : String
  extraPerPeriodMinor : Int
  basePeriods : Int
  acceleratedPeriods : Int
  periodsSaved : Int
  interestSavedMinor : Int

def payoffPlan (loan : LoanRecord) (extraPerPeriodMinor : Int) : PayoffPlan :=
  let rScaled := periodicRateScaled loan.annualRateMicro loan.frequency
  let run (extra : Int) :=
    payoffRun (paymentOf loan + extra) rScaled maxPeriods loan.currentPrincipalMinor 0 0
  let base := run 0
  let accelerated := run extraPerPeriodMinor
  { contract := "payoff-plan/1"
    loanId := loan.id
    extraPerPeriodMinor := extraPerPeriodMinor
    basePeriods := base.periods
    acceleratedPeriods := accelerated.periods
    periodsSaved := if 0 ≤ base.periods ∧ 0 ≤ accelerated.periods
      then base.periods - accelerated.periods else 0
    interestSavedMinor := if 0 ≤ base.interest ∧ 0 ≤ accelerated.interest
      then base.interest - accelerated.interest else 0 }

def afterPeriod (payment rScaled balance : Int) : Int :=
  balance - min (payment - interestOn rScaled balance) balance

def after (payment rScaled : Int) : Nat → (balance : Int) → Int
  | 0, balance => balance
  | k + 1, balance => after payment rScaled k (afterPeriod payment rScaled balance)

/-- A number of periods that is reported pays the balance off, and no fewer do. -/
def TellsTruth (payment rScaled balance periods : Int) : Prop :=
  ∀ k : Nat, periods = k →
    after payment rScaled k balance = 0 ∧ ∀ j < k, after payment rScaled j balance ≠ 0

/-- The balance is none that is owed by the lender, and a payment that amortizes pays it off before
the loop is cut off. -/
def PaidInTime (payment rScaled balance : Int) : Prop :=
  0 ≤ balance ∧
    (interestOn rScaled balance < payment → after payment rScaled maxPeriods balance = 0)

theorem payoffRun_succ (payment rScaled : Int) (left : Nat) (balance interest periods : Int) :
    payoffRun payment rScaled (left + 1) balance interest periods =
      if 0 < balance then
        if payment ≤ interestOn rScaled balance then ⟨-1, -1⟩
        else payoffRun payment rScaled left (afterPeriod payment rScaled balance)
          (interest + interestOn rScaled balance) (periods + 1)
      else ⟨periods, interest⟩ := by
  rw [payoffRun]
  have hint : roundDiv (balance * rScaled) scale = interestOn rScaled balance := rfl
  have hpart : (if balance < payment - interestOn rScaled balance then balance
      else payment - interestOn rScaled balance) =
        min (payment - interestOn rScaled balance) balance := by
    rw [min_def]
    split_ifs <;> omega
  simp only [hint, hpart, sub_nonpos]
  rfl

theorem afterPeriod_nonneg (payment rScaled balance : Int) :
    0 ≤ afterPeriod payment rScaled balance :=
  sub_nonneg.mpr (min_le_right _ _)

variable {balance payment rScaled : Int}

theorem afterPeriod_le (hbalance : 0 ≤ balance) (hpays : interestOn rScaled balance ≤ payment) :
    afterPeriod payment rScaled balance ≤ balance :=
  sub_le_self _ (le_min (sub_nonneg.mpr hpays) hbalance)

theorem afterPeriod_mono {payment' balance' : Int} (hrate : 0 ≤ rScaled) (hbalance : 0 ≤ balance')
    (hle : balance' ≤ balance) (hpay : payment ≤ payment') :
    afterPeriod payment' rScaled balance' ≤ afterPeriod payment rScaled balance := by
  have hint := interestOn_mono hrate hbalance hle
  unfold afterPeriod
  omega

theorem covers_afterPeriod (hrate : 0 ≤ rScaled) (hbalance : 0 ≤ balance)
    (hpays : interestOn rScaled balance < payment) :
    interestOn rScaled (afterPeriod payment rScaled balance) < payment :=
  (interestOn_mono hrate (afterPeriod_nonneg _ _ _)
    (afterPeriod_le hbalance hpays.le)).trans_lt hpays

theorem after_zero (hpays : interestOn rScaled 0 < payment) (k : Nat) :
    after payment rScaled k 0 = 0 := by
  have hstay : afterPeriod payment rScaled 0 = 0 :=
    le_antisymm (afterPeriod_le le_rfl hpays.le) (afterPeriod_nonneg _ _ _)
  induction k with
  | zero => rfl
  | succ k ih =>
    rw [after, hstay]
    exact ih

theorem payoffRun_counts (left : Nat) (hrate : 0 ≤ rScaled) (interest periods : Int)
    (hbalance : 0 ≤ balance) (hpays : interestOn rScaled balance < payment) :
    ∃ n : Nat, (payoffRun payment rScaled left balance interest periods).periods = periods + n ∧
      interest ≤ (payoffRun payment rScaled left balance interest periods).interest ∧ n ≤ left ∧
      (∀ j < n, after payment rScaled j balance ≠ 0) ∧
      (after payment rScaled n balance = 0 ↔ after payment rScaled left balance = 0) := by
  induction left generalizing balance interest periods with
  | zero =>
    exact ⟨0, (add_zero periods).symm, le_rfl, le_rfl,
      fun j hj => absurd hj (Nat.not_lt_zero j), Iff.rfl⟩
  | succ left ih =>
    rw [payoffRun_succ]
    split_ifs with hposv hnever
    · exact absurd hpays (not_lt.mpr hnever)
    · obtain ⟨n, hperiods, hint, hle, hbef, hends⟩ := ih
        (interest + interestOn rScaled balance) (periods + 1) (afterPeriod_nonneg _ _ _)
        (covers_afterPeriod hrate hbalance hpays)
      have hcost := interestOn_nonneg hrate hbalance
      refine ⟨n + 1, ?_, by omega, Nat.succ_le_succ hle, ?_, hends⟩
      · rw [hperiods]
        omega
      · intro j hj
        cases j with
        | zero => exact hposv.ne'
        | succ j => exact hbef j (Nat.lt_of_succ_lt_succ hj)
    · have hzero : balance = 0 := le_antisymm (not_lt.mp hposv) hbalance
      rw [hzero] at hpays ⊢
      refine ⟨0, (add_zero periods).symm, le_rfl, Nat.zero_le _,
        fun j hj => absurd hj (Nat.not_lt_zero j), ?_⟩
      rw [after_zero hpays, after_zero hpays]

theorem payoffRun_mono {payment' : Int} (hrate : 0 ≤ rScaled) (hpay : payment ≤ payment')
    {left : Nat} {balance' interest interest' : Int} (periods : Int) (hbalance : 0 ≤ balance')
    (hle : balance' ≤ balance) (hint : interest' ≤ interest)
    (hpays : interestOn rScaled balance < payment) :
    (payoffRun payment' rScaled left balance' interest' periods).periods ≤
        (payoffRun payment rScaled left balance interest periods).periods ∧
      (payoffRun payment' rScaled left balance' interest' periods).interest ≤
        (payoffRun payment rScaled left balance interest periods).interest := by
  induction left generalizing balance balance' interest interest' periods with
  | zero => exact ⟨le_rfl, hint⟩
  | succ left ih =>
    by_cases hposv : 0 < balance'
    · have hmono := interestOn_mono hrate hbalance hle
      rw [payoffRun_succ, payoffRun_succ, if_pos hposv, if_pos (hposv.trans_le hle),
        if_neg (not_le.mpr hpays), if_neg (by omega)]
      exact ih (periods + 1) (afterPeriod_nonneg _ _ _)
        (afterPeriod_mono hrate hbalance hle hpay) (add_le_add hint hmono)
        (covers_afterPeriod hrate (hbalance.trans hle) hpays)
    · obtain ⟨n, hperiods, hmore, -⟩ := payoffRun_counts (left + 1) hrate interest periods
        (hbalance.trans hle) hpays
      rw [payoffRun_succ payment', if_neg hposv]
      constructor
      · rw [hperiods]
        exact le_add_of_nonneg_right (Int.natCast_nonneg n)
      · exact hint.trans hmore

theorem tellsTruth_iff (hrate : 0 ≤ rScaled) : TellsTruth payment rScaled balance
        (payoffRun payment rScaled maxPeriods balance 0 0).periods ↔
      PaidInTime payment rScaled balance := by
  unfold PaidInTime
  by_cases hbalance : 0 ≤ balance
  · rw [and_iff_right hbalance]
    by_cases hpays : interestOn rScaled balance < payment
    · obtain ⟨n, hperiods, -, -, hbef, hends⟩ :=
        payoffRun_counts maxPeriods hrate 0 0 hbalance hpays
      rw [hperiods, imp_iff_right hpays, ← hends]
      constructor
      · exact fun h => (h n (zero_add _)).1
      · intro hpaid k hk
        obtain rfl : n = k := by omega
        exact ⟨hpaid, hbef⟩
    · refine iff_of_true ?_ fun h => absurd h hpays
      intro k hk
      rw [maxPeriods, payoffRun_succ, if_pos (not_lt.mp hpays)] at hk
      split_ifs at hk with hposv
      · exact absurd hk (by dsimp only; omega)
      · have hzero : balance = 0 := le_antisymm (not_lt.mp hposv) hbalance
        have hnone : k = 0 := by
          dsimp only at hk
          omega
        rw [hnone]
        exact ⟨hzero, fun j hj => absurd hj (Nat.not_lt_zero j)⟩
  · refine iff_of_false ?_ fun h => hbalance h.1
    intro h
    have hnone : (payoffRun payment rScaled maxPeriods balance 0 0).periods = (0 : Nat) := by
      rw [maxPeriods, payoffRun_succ, if_neg fun hposv => hbalance hposv.le]
      rfl
    exact hbalance (h 0 hnone).1.ge

/-- The plan tells the truth about both runs, and the one with the extra saves. -/
structure PlanTrue (loan : LoanRecord) (extra : Int) (plan : PayoffPlan) : Prop where
  base : TellsTruth (paymentOf loan) (periodicRateScaled loan.annualRateMicro loan.frequency)
    loan.currentPrincipalMinor plan.basePeriods
  accelerated : TellsTruth (paymentOf loan + extra)
    (periodicRateScaled loan.annualRateMicro loan.frequency) loan.currentPrincipalMinor
    plan.acceleratedPeriods
  saves : 0 ≤ plan.basePeriods → 0 ≤ plan.acceleratedPeriods →
    plan.acceleratedPeriods ≤ plan.basePeriods ∧ 0 ≤ plan.interestSavedMinor

theorem basePeriods_eq (loan : LoanRecord) (extra : Int) :
    (payoffPlan loan extra).basePeriods = (payoffRun (paymentOf loan)
      (periodicRateScaled loan.annualRateMicro loan.frequency) maxPeriods
      loan.currentPrincipalMinor 0 0).periods := by
  unfold payoffPlan
  dsimp only
  rw [add_zero]

theorem interestSaved_nonneg {loan : LoanRecord} {extra : Int}
    (hcheap : (payoffRun (paymentOf loan + extra)
        (periodicRateScaled loan.annualRateMicro loan.frequency) maxPeriods
        loan.currentPrincipalMinor 0 0).interest ≤
      (payoffRun (paymentOf loan) (periodicRateScaled loan.annualRateMicro loan.frequency)
        maxPeriods loan.currentPrincipalMinor 0 0).interest) :
    0 ≤ (payoffPlan loan extra).interestSavedMinor := by
  unfold payoffPlan
  dsimp only
  split_ifs
  · rw [add_zero]
    exact sub_nonneg.mpr hcheap
  · exact le_rfl

theorem payoffPlan_saves {loan : LoanRecord} {extra : Int} (hrate : 0 ≤ loan.annualRateMicro)
    (hextra : 0 ≤ extra) (hbase : 0 ≤ (payoffPlan loan extra).basePeriods) :
    (payoffPlan loan extra).acceleratedPeriods ≤ (payoffPlan loan extra).basePeriods ∧
      0 ≤ (payoffPlan loan extra).interestSavedMinor := by
  have hrSc := periodicRateScaled_nonneg hrate loan.frequency
  rw [basePeriods_eq] at hbase ⊢
  by_cases hposv : 0 < loan.currentPrincipalMinor
  · have hpays : interestOn (periodicRateScaled loan.annualRateMicro loan.frequency)
        loan.currentPrincipalMinor < paymentOf loan := by
      by_contra hnever
      rw [maxPeriods, payoffRun_succ, if_pos hposv, if_pos (not_lt.mp hnever)] at hbase
      exact absurd hbase (by decide)
    obtain ⟨hsoon, hcheap⟩ := payoffRun_mono hrSc (le_add_of_nonneg_right hextra)
      0 hposv.le le_rfl (le_refl 0) hpays
    exact ⟨hsoon, interestSaved_nonneg hcheap⟩
  · have hnone (payment : Int) : payoffRun payment
        (periodicRateScaled loan.annualRateMicro loan.frequency) maxPeriods
        loan.currentPrincipalMinor 0 0 = ⟨0, 0⟩ := by
      rw [maxPeriods, payoffRun_succ, if_neg hposv]
    constructor
    · rw [hnone]
      exact (congrArg PayoffRun.periods (hnone _)).le
    · apply interestSaved_nonneg
      rw [hnone, hnone]

/-- The plan is true where both runs pay off in time. -/
theorem payoffPlan_true {loan : LoanRecord} {extra : Int} (hrate : 0 ≤ loan.annualRateMicro)
    (hextra : 0 ≤ extra) : PlanTrue loan extra (payoffPlan loan extra) ↔
      PaidInTime (paymentOf loan) (periodicRateScaled loan.annualRateMicro loan.frequency)
          loan.currentPrincipalMinor ∧
        PaidInTime (paymentOf loan + extra)
          (periodicRateScaled loan.annualRateMicro loan.frequency) loan.currentPrincipalMinor := by
  have hrSc := periodicRateScaled_nonneg hrate loan.frequency
  rw [← tellsTruth_iff hrSc, ← tellsTruth_iff hrSc]
  constructor
  · intro h
    have hbase := h.base
    rw [basePeriods_eq] at hbase
    exact ⟨hbase, h.accelerated⟩
  · rintro ⟨hbase, hacc⟩
    refine ⟨?_, hacc, fun hnn _ => payoffPlan_saves hrate hextra hnn⟩
    rw [basePeriods_eq]
    exact hbase

namespace Sample

theorem payoffPlan_true_truck : PlanTrue (truck 0) 5000 (payoffPlan (truck 0) 5000) ↔
    PaidInTime (paymentOf (truck 0)) (periodicRateScaled 120000 .monthly) 100000 ∧
      PaidInTime (paymentOf (truck 0) + 5000) (periodicRateScaled 120000 .monthly) 100000 :=
  payoffPlan_true (by decide) (by decide)

/-- A loan without interest, paid off one unit at a time. -/
def favor : LoanRecord :=
  { truck 1 with
    annualRateMicro := 0
    originalPrincipalMinor := 10001
    currentPrincipalMinor := 10001 }

theorem after_favor (k : Nat) {balance : Int} (h : k ≤ balance) :
    after 1 0 k balance = balance - k := by
  induction k generalizing balance with
  | zero => exact (sub_zero balance).symm
  | succ k ih =>
    have hfree : interestOn 0 balance = 0 := by
      unfold interestOn
      rw [mul_zero]
      decide
    have hstep : afterPeriod 1 0 balance = balance - 1 := by
      unfold afterPeriod
      rw [hfree]
      omega
    rw [after, hstep, ih (by omega)]
    omega

theorem payoffPlan_not_true : ¬ ∀ (loan : LoanRecord) (extra : Int), 0 ≤ loan.annualRateMicro →
    0 ≤ extra → PlanTrue loan extra (payoffPlan loan extra) := by
  intro h
  have hbase := (h favor 0 (by decide) le_rfl).base
  rw [basePeriods_eq, tellsTruth_iff (by decide)] at hbase
  have hleft : after 1 0 maxPeriods 10001 = 0 := hbase.2 (by decide)
  rw [after_favor maxPeriods (by decide)] at hleft
  exact absurd hleft (by decide)

end Sample
end Rgnr8.Service.Debt
