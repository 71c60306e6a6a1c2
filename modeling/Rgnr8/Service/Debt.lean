import Rgnr8.Service.Flow

/-! Loans: what is owed, as a record beside the liability account that only posted payments and
draws move. The id of a payment makes it idempotent; without one it is the next of its day. -/

namespace Rgnr8.Service.Debt
open Lib Lib.Js Kernel

inductive LoanKind where
  | term | sba | mortgage | equipment | auto | ownerNote | mca | intercompany | lineOfCredit
  | creditCard
  deriving DecidableEq

def LoanKind.text : LoanKind → String
  | term => "TERM"
  | sba => "SBA"
  | mortgage => "MORTGAGE"
  | equipment => "EQUIPMENT"
  | auto => "AUTO"
  | ownerNote => "OWNER_NOTE"
  | mca => "MCA"
  | intercompany => "INTERCOMPANY"
  | lineOfCredit => "LINE_OF_CREDIT"
  | creditCard => "CREDIT_CARD"

def loanKinds : List LoanKind :=
  [.term, .sba, .mortgage, .equipment, .auto, .ownerNote, .mca, .intercompany, .lineOfCredit,
    .creditCard]

def isRevolving (kind : LoanKind) : Bool := kind ∈ [LoanKind.lineOfCredit, .creditCard]

inductive PaymentFrequency where
  | monthly | biweekly | weekly | quarterly | annual

def PaymentFrequency.text : PaymentFrequency → String
  | monthly => "MONTHLY"
  | biweekly => "BIWEEKLY"
  | weekly => "WEEKLY"
  | quarterly => "QUARTERLY"
  | annual => "ANNUAL"

def frequencies : List PaymentFrequency := [.monthly, .biweekly, .weekly, .quarterly, .annual]

def periodsPerYear : PaymentFrequency → Int
  | .monthly => 12
  | .biweekly => 26
  | .weekly => 52
  | .quarterly => 4
  | .annual => 1

structure LoanRecord where
  id : String
  lender : String
  kind : LoanKind
  originalPrincipalMinor : Int
  currentPrincipalMinor : Int
  annualRateMicro : Int
  startDate : String
  termPeriods : Int
  frequency : PaymentFrequency
  paymentMinor : Int
  liabilityAccountCode : String
  interestAccountCode : String
  minDscrMicro : Int
  active : Bool
  memo : String

inductive MoveKind where
  | payment | draw
  deriving DecidableEq

structure LoanPaymentRecord where
  id : String
  loanId : String
  date : String
  principalMinor : Int
  interestMinor : Int
  kind : MoveKind
  entryId : EntryId
  memo : String

def scale : Int := 1000000000000

def roundDiv (num den : Int) : Int := if den = 0 then 0 else (num + den.tdiv 2).tdiv den

/-- The rate of one period, in units of `scale`. -/
def periodicRateScaled (annualRateMicro : Int) (freq : PaymentFrequency) : Int :=
  (annualRateMicro * scale).tdiv (1000000 * periodsPerYear freq)

/-- The two tables, under their primary keys. -/
structure DebtStore where
  loans : OrderedMap (TenantId × String) LoanRecord
  payments : OrderedMap (TenantId × String) LoanPaymentRecord
  loan_of_get : ∀ {t id l}, loans.get? (t, id) = some l → l.id = id

namespace DebtStore

def empty : DebtStore := ⟨.empty, .empty, fun h => by cases h⟩

variable (s : DebtStore) (tenant : TenantId)

def getLoan (id : String) : Option LoanRecord :=
  s.loans.get? (tenant, id)

def saveLoan (loan : LoanRecord) : DebtStore where
  loans := s.loans.set (tenant, loan.id) loan
  payments := s.payments
  loan_of_get := by
    intro t id l h
    rw [OrderedMap.get?_set] at h
    split_ifs at h with hkey
    · rw [← Option.some.inj h]
      exact (Prod.mk.inj hkey).2.symm
    · exact s.loan_of_get h

def listPayments (loanId : String) : List LoanPaymentRecord :=
  (s.payments.filter fun key p => key.1 = tenant ∧ (loanId = "" ∨ p.loanId = loanId)).values

def getPayment (id : String) : Option LoanPaymentRecord :=
  s.payments.get? (tenant, id)

def savePayment (payment : LoanPaymentRecord) : DebtStore :=
  { s with payments := s.payments.set (tenant, payment.id) payment }

end DebtStore

inductive DebtCall where
  | getLoan (tenant : TenantId) (id : String)
  | saveLoan (tenant : TenantId) (loan : LoanRecord)
  | listPayments (tenant : TenantId) (loanId : String)
  | getPayment (tenant : TenantId) (id : String)
  | savePayment (tenant : TenantId) (payment : LoanPaymentRecord)

abbrev DebtCall.Answer : DebtCall → Type
  | getLoan _ _ => Option LoanRecord
  | listPayments _ _ => List LoanPaymentRecord
  | getPayment _ _ => Option LoanPaymentRecord
  | saveLoan _ _ | savePayment _ _ => Unit

def DebtCall.exec : (c : DebtCall) → DebtStore → c.Answer × DebtStore
  | getLoan t id, s => (s.getLoan t id, s)
  | saveLoan t loan, s => ((), s.saveLoan t loan)
  | listPayments t loanId, s => (s.listPayments t loanId, s)
  | getPayment t id, s => (s.getPayment t id, s)
  | savePayment t p, s => ((), s.savePayment t p)

abbrev DebtProg := FlowProg DebtCall DebtCall.Answer

abbrev exec {π : Type} [PeriodStore π] : (c : FlowCall DebtCall) →
    Stores π DebtStore → FlowCall.Answer DebtCall.Answer c × Stores π DebtStore :=
  FlowCall.exec DebtCall.exec

def ask (c : DebtCall) : DebtProg c.Answer := Prog.perform (FlowCall.own c)

def minorOf (raw : Option TextOrNumber) (label : String) : Except FlowFailure Int :=
  match wholeNumber raw with
  | none => .error (.own s!"{label} must be a whole number of minor units")
  | some n => .ok n

def provenanceFor (id date at_ : String) : Provenance :=
  ⟨"debt", id, "1", date, date, at_, "ledger-service/debt-1", "ledger-service/debt-1"⟩

/-! Opening a loan, or editing one. -/

structure LoanInput where
  id : Option String
  lender : Option String
  kind : Option String
  originalPrincipalMinor : Option TextOrNumber
  annualRateMicro : Option TextOrNumber
  startDate : Option String
  termPeriods : Option TextOrNumber
  frequency : Option String
  paymentMinor : Option TextOrNumber
  liabilityAccountCode : Option String
  interestAccountCode : Option String
  minDscrMicro : Option TextOrNumber
  memo : Option String
  proceedsToCode : Option String
  active : Option Bool

def termOf (raw : Option TextOrNumber) : Except FlowFailure Int :=
  match integerOf (Js.numberOf (raw.getD (.number (some 0)))) with
  | none => .error (.own "term must be a whole number of periods, 0 or more")
  | some term =>
    if term < 0 then .error (.own "term must be a whole number of periods, 0 or more") else .ok term

structure LoanDraft where
  id : String
  kind : LoanKind
  frequency : PaymentFrequency
  principal : Int
  rate : Int
  term : Int
  startDate : String
  liabilityAccountCode : String
  interestAccountCode : String

variable (ctx : FlowContext)

def draftLoan (input : LoanInput) : Except FlowFailure LoanDraft :=
  let id := trim (input.id.getD "")
  if id = "" then .error (.own "a loan needs an id")
  else do
    let kind ← oneOf ctx.letters loanKinds LoanKind.text input.kind .term "kind"
    let frequency ←
      oneOf ctx.letters frequencies PaymentFrequency.text input.frequency .monthly "frequency"
    let principal ← minorOf input.originalPrincipalMinor "original principal"
    if principal < 0 then .error (.own "principal cannot be negative")
    else
      let rate ← minorOf input.annualRateMicro "annual rate"
      if rate < 0 then .error (.own "interest rate cannot be negative")
      else
        let term ← termOf input.termPeriods
        if ¬ isRevolving kind ∧ term = 0 ∧ 0 < principal then
          .error (.own "an amortizing loan needs a term (number of payments)")
        else
          let startDate ← requireDate input.startDate "start date"
          let liability ← need ctx.chart (trimmedOr input.liabilityAccountCode "2700") "liability"
            .liability
          let interest ← need ctx.chart (trimmedOr input.interestAccountCode "6950") "expense"
            .expense
          return ⟨id, kind, frequency, principal, rate, term, startDate, liability, interest⟩

def loanOf (input : LoanInput) (draft : LoanDraft) (existing : Option LoanRecord) :
    Except FlowFailure LoanRecord := do
  let payment ← minorOf input.paymentMinor "payment"
  let minDscr ← minorOf input.minDscrMicro "minimum DSCR"
  return {
    id := draft.id
    lender := trimmedOr input.lender draft.id
    kind := draft.kind
    originalPrincipalMinor := draft.principal
    currentPrincipalMinor := (existing.map LoanRecord.currentPrincipalMinor).getD draft.principal
    annualRateMicro := draft.rate
    startDate := draft.startDate
    termPeriods := draft.term
    frequency := draft.frequency
    paymentMinor := payment
    liabilityAccountCode := draft.liabilityAccountCode
    interestAccountCode := draft.interestAccountCode
    minDscrMicro := minDscr
    active := input.active.getD true
    memo := input.memo.getD "" }

def debtCommand (keyPrefix id date memo : String) (lines : List JournalLineInput) :
    PostCommand where
  tenantId := ctx.tenant
  idempotencyKey := keyPrefix ++ id
  periodKey := periodOf date
  currency := ctx.currency
  entryDate := date
  lines := lines
  provenance := provenanceFor id date ctx.clock.ingestedAt
  memo := some memo

structure OpeningAccounts where
  proceeds : Account
  liability : Account

def openingAccounts (input : LoanInput) (loan : LoanRecord) :
    Except FlowFailure OpeningAccounts := do
  let proceeds ← accountOf ctx.chart (trim (input.proceedsToCode.getD ""))
  let liability ← accountOf ctx.chart loan.liabilityAccountCode
  return ⟨proceeds, liability⟩

def openingCommand (draft : LoanDraft) (loan : LoanRecord) (accounts : OpeningAccounts) :
    PostCommand :=
  debtCommand ctx "loan-open:" draft.id draft.startDate s!"Loan drawn — {loan.lender}"
    (twoLines ctx.currency accounts.proceeds.id accounts.liability.id draft.principal loan.lender)

structure SaveLoanResult where
  loan : LoanRecord
  entryId : EntryId

def saveLoan (ctx : FlowContext) (input : LoanInput) : DebtProg SaveLoanResult := do
  let draft ← Prog.ofExcept (draftLoan ctx input)
  let existing ← ask (.getLoan ctx.tenant draft.id)
  let loan ← Prog.ofExcept (loanOf input draft existing)
  if existing = none ∧ trim (input.proceedsToCode.getD "") ≠ "" ∧ 0 < draft.principal then do
    let accounts ← Prog.ofExcept (openingAccounts ctx input loan)
    let entry ← postFlow ctx (openingCommand ctx draft loan accounts)
    ask (.saveLoan ctx.tenant loan)
    return ⟨loan, entry.id⟩
  else do
    ask (.saveLoan ctx.tenant loan)
    return ⟨loan, ""⟩

/-! Payments and draws. -/

def requireLoan (loanId : String) : DebtProg LoanRecord := do
  match (← ask (.getLoan ctx.tenant loanId) : Option LoanRecord) with
  | none => .throw (.own s!"unknown loan {loanId}")
  | some loan => return loan

def moveId (explicit : Option String) (loanId date infix_ : String) (kind : MoveKind)
    (payments : List LoanPaymentRecord) : String :=
  trimmedOr explicit
    s!"{loanId}{infix_}-{date}#{(payments.filter fun p => p.date = date ∧ p.kind = kind).length}"

def moveIdOf (explicit : Option String) (loanId date infix_ : String) (kind : MoveKind) :
    DebtProg String :=
  if trim (explicit.getD "") = "" then do
    let payments ← ask (.listPayments ctx.tenant loanId)
    return moveId explicit loanId date infix_ kind payments
  else .ret (trim (explicit.getD ""))

structure MoveDraft where
  date : String
  amount : Int

def draftMove (date : Option String) (amount : Option TextOrNumber) (what : String) :
    Except FlowFailure MoveDraft := do
  let date ← requireDate date "date"
  let amount ← minorOf amount "amount"
  if amount ≤ 0 then .error (.own s!"a {what} needs an amount") else return ⟨date, amount⟩

structure LoanMove where
  loan : LoanRecord
  command : PostCommand
  record : EntryId → LoanPaymentRecord

def LoanMove.draft (m : LoanMove) : LoanPaymentRecord := m.record ""

def LoanMove.updated (m : LoanMove) : LoanRecord :=
  { m.loan with currentPrincipalMinor := m.loan.currentPrincipalMinor - m.draft.principalMinor }

def postMove (m : LoanMove) : DebtProg PostedEntry := do
  let entry ← postFlow ctx m.command
  ask (.saveLoan ctx.tenant m.updated)
  ask (.savePayment ctx.tenant (m.record entry.id))
  return entry

structure PaymentInput where
  id : Option String
  loanId : Option String
  date : Option String
  amountMinor : Option TextOrNumber
  paidFromCode : Option String
  memo : Option String

structure PaymentParts where
  principal : Int
  interest : Int

def partsOf (loan : LoanRecord) (amount : Int) : PaymentParts :=
  let balance := loan.currentPrincipalMinor
  let rScaled := periodicRateScaled loan.annualRateMicro loan.frequency
  let interestDue := roundDiv (balance * rScaled) scale
  let interest := if amount < interestDue then amount else interestDue
  let principalPart := amount - interest
  ⟨if balance < principalPart then balance else principalPart, interest⟩

structure PaymentAccounts where
  paidFrom : Account
  liability : Account
  interest : Account

variable (input : PaymentInput) (loan : LoanRecord)

def paymentAccounts : Except FlowFailure PaymentAccounts := do
  let paidFrom ← accountOf ctx.chart (trimmedOr input.paidFromCode "1000")
  let liability ← accountOf ctx.chart loan.liabilityAccountCode
  let interest ← accountOf ctx.chart loan.interestAccountCode
  return ⟨paidFrom, liability, interest⟩

def paymentLines (parts : PaymentParts) (accounts : PaymentAccounts) : List JournalLineInput :=
  (if 0 < parts.principal then
    [⟨accounts.liability.id, .debit, ⟨parts.principal, ctx.currency⟩, some "Principal", none⟩]
  else []) ++
  (if 0 < parts.interest then
    [⟨accounts.interest.id, .debit, ⟨parts.interest, ctx.currency⟩, some "Interest", none⟩]
  else []) ++
  [⟨accounts.paidFrom.id, .credit, ⟨parts.principal + parts.interest, ctx.currency⟩,
    some s!"Payment — {loan.lender}", none⟩]

def paymentMove (draft : MoveDraft) (accounts : PaymentAccounts) (id : String) : LoanMove where
  loan := loan
  command := debtCommand ctx "loan-pay:" id draft.date
    (textOr input.memo s!"Loan payment — {loan.lender}")
    (paymentLines ctx loan (partsOf loan draft.amount) accounts)
  record entryId :=
    { id := id
      loanId := trim (input.loanId.getD "")
      date := draft.date
      principalMinor := (partsOf loan draft.amount).principal
      interestMinor := (partsOf loan draft.amount).interest
      kind := .payment
      entryId := entryId
      memo := input.memo.getD "" }

structure PaymentResult where
  loan : LoanRecord
  entryId : EntryId
  principalMinor : Int
  interestMinor : Int

def recordLoanPayment : DebtProg PaymentResult := do
  let loanId := trim (input.loanId.getD "")
  let loan ← requireLoan ctx loanId
  let draft ← Prog.ofExcept (draftMove input.date input.amountMinor "payment")
  let parts := partsOf loan draft.amount
  let id ← moveIdOf ctx input.id loanId draft.date "" .payment
  match (← ask (.getPayment ctx.tenant id) : Option LoanPaymentRecord) with
  | some seen => return ⟨loan, seen.entryId, seen.principalMinor, seen.interestMinor⟩
  | none => do
    let accounts ← Prog.ofExcept (paymentAccounts ctx input loan)
    let move := paymentMove ctx input loan draft accounts id
    let entry ← postMove ctx move
    return ⟨move.updated, entry.id, parts.principal, parts.interest⟩

structure DrawInput where
  id : Option String
  loanId : Option String
  date : Option String
  amountMinor : Option TextOrNumber
  depositToCode : Option String
  memo : Option String

structure DrawAccounts where
  deposit : Account
  liability : Account

def drawAccounts (input : DrawInput) (loan : LoanRecord) : Except FlowFailure DrawAccounts := do
  let deposit ← accountOf ctx.chart (trimmedOr input.depositToCode "1000")
  let liability ← accountOf ctx.chart loan.liabilityAccountCode
  return ⟨deposit, liability⟩

def drawMove (input : DrawInput) (loan : LoanRecord) (draft : MoveDraft) (accounts : DrawAccounts)
    (id : String) : LoanMove where
  loan := loan
  command := debtCommand ctx "loan-draw:" id draft.date (textOr input.memo s!"Draw — {loan.lender}")
    (twoLines ctx.currency accounts.deposit.id accounts.liability.id draft.amount loan.lender)
  record entryId :=
    { id := id
      loanId := trim (input.loanId.getD "")
      date := draft.date
      principalMinor := -draft.amount
      interestMinor := 0
      kind := .draw
      entryId := entryId
      memo := input.memo.getD "" }

structure DrawResult where
  loan : LoanRecord
  entryId : EntryId

def recordDraw (input : DrawInput) : DebtProg DrawResult := do
  let loanId := trim (input.loanId.getD "")
  let loan ← requireLoan ctx loanId
  Prog.refuseIf (¬ isRevolving loan.kind)
    (.own s!"{loanId} is a {loan.kind.text} — draws are only for a line of credit or card")
  let draft ← Prog.ofExcept (draftMove input.date input.amountMinor "draw")
  let id ← moveIdOf ctx input.id loanId draft.date "-draw" .draw
  match (← ask (.getPayment ctx.tenant id) : Option LoanPaymentRecord) with
  | some seen => return ⟨loan, seen.entryId⟩
  | none => do
    let accounts ← Prog.ofExcept (drawAccounts ctx input loan)
    let move := drawMove ctx input loan draft accounts id
    let entry ← postMove ctx move
    return ⟨move.updated, entry.id⟩

end Rgnr8.Service.Debt
