import Rgnr8.Service.Debt

/-! What one call of the loan flows does, run alone on its stores: it decides on a plan from what it
reads, and a plan that posts writes its records behind its entry. -/

namespace Rgnr8.Service.Debt
open Lib Lib.Js Fallible Kernel ChartOfAccounts Except

inductive LoanRequest where
  | save (input : LoanInput)
  | payment (input : PaymentInput)
  | draw (input : DrawInput)

structure Receipt where
  loanId : String
  kind : MoveKind
  entryId : EntryId
  deriving DecidableEq

variable (ctx : FlowContext)

def LoanRequest.program : LoanRequest → DebtProg (Option Receipt)
  | save input => do
    let _ ← saveLoan ctx input
    return none
  | payment input => do
    let result ← recordLoanPayment ctx input
    return some ⟨trim (input.loanId.getD ""), .payment, result.entryId⟩
  | draw input => do
    let result ← recordDraw ctx input
    return some ⟨trim (input.loanId.getD ""), .draw, result.entryId⟩

inductive Plan where
  | file (loan : LoanRecord)
  | opened (loan : LoanRecord) (command : PostCommand)
  | seen (loanId : String) (kind : MoveKind) (record : LoanPaymentRecord)
  | move (m : LoanMove)

def foundLoan (loanId : String) (own : DebtStore) : Except FlowFailure LoanRecord :=
  match own.getLoan ctx.tenant loanId with
  | none => .error (.own s!"unknown loan {loanId}")
  | some loan => .ok loan

def planSave (input : LoanInput) (own : DebtStore) : Except FlowFailure Plan := do
  let draft ← draftLoan ctx input
  let loan ← loanOf input draft (own.getLoan ctx.tenant draft.id)
  if own.getLoan ctx.tenant draft.id = none ∧ trim (input.proceedsToCode.getD "") ≠ "" ∧
      0 < draft.principal then
    let accounts ← openingAccounts ctx input loan
    return .opened loan (openingCommand ctx draft loan accounts)
  else return .file loan

def planPayment (input : PaymentInput) (own : DebtStore) : Except FlowFailure Plan := do
  let loanId := trim (input.loanId.getD "")
  let loan ← foundLoan ctx loanId own
  let draft ← draftMove input.date input.amountMinor "payment"
  let id := moveId input.id loanId draft.date "" .payment (own.listPayments ctx.tenant loanId)
  match own.getPayment ctx.tenant id with
  | some seen => return .seen loanId .payment seen
  | none =>
    let accounts ← paymentAccounts ctx input loan
    return .move (paymentMove ctx input loan draft accounts id)

def planDraw (input : DrawInput) (own : DebtStore) : Except FlowFailure Plan := do
  let loanId := trim (input.loanId.getD "")
  let loan ← foundLoan ctx loanId own
  if ¬ isRevolving loan.kind then
    .error (.own s!"{loanId} is a {loan.kind.text} — draws are only for a line of credit or card")
  else
    let draft ← draftMove input.date input.amountMinor "draw"
    let id := moveId input.id loanId draft.date "-draw" .draw (own.listPayments ctx.tenant loanId)
    match own.getPayment ctx.tenant id with
    | some seen => return .seen loanId .draw seen
    | none =>
      let accounts ← drawAccounts ctx input loan
      return .move (drawMove ctx input loan draft accounts id)

def LoanRequest.plan (own : DebtStore) : LoanRequest → Except FlowFailure Plan
  | save input => planSave ctx input own
  | payment input => planPayment ctx input own
  | draw input => planDraw ctx input own

section
variable {π : Type} [PeriodStore π] {ctx : FlowContext}

def fileOpened (ctx : FlowContext) (loan : LoanRecord) (_ : PostedEntry) :
    DebtProg (Option Receipt) := do
  ask (.saveLoan ctx.tenant loan)
  return none

def fileMove (ctx : FlowContext) (m : LoanMove) (entry : PostedEntry) :
    DebtProg (Option Receipt) := do
  ask (.saveLoan ctx.tenant m.updated)
  ask (.savePayment ctx.tenant (m.record entry.id))
  return some ⟨m.draft.loanId, m.draft.kind, entry.id⟩

def carryOut (ctx : FlowContext) (s : Stores π DebtStore) :
    Plan → Except FlowFailure (Option Receipt) × Stores π DebtStore
  | .file loan => (.ok none, { s with own := s.own.saveLoan ctx.tenant loan })
  | .opened loan command => (postFlow ctx command >>= fileOpened ctx loan).run exec s
  | .seen loanId kind record => (.ok (some ⟨loanId, kind, record.entryId⟩), s)
  | .move m => (postFlow ctx m.command >>= fileMove ctx m).run exec s

theorem decides_requireLoan (s : Stores π DebtStore) (loanId : String) :
    Decides exec s (requireLoan ctx loanId) (foundLoan ctx loanId s.own) fun l => (.ok l, s) := by
  unfold requireLoan
  refine .read rfl ?_
  unfold foundLoan
  dsimp only [exec, FlowCall.exec, DebtCall.exec]
  cases s.own.getLoan ctx.tenant loanId <;> rfl

theorem run_moveIdOf (ctx : FlowContext) (explicit : Option String) (loanId date infix_ : String)
    (kind : MoveKind) (s : Stores π DebtStore) :
    (moveIdOf ctx explicit loanId date infix_ kind).run exec s =
      (.ok (moveId explicit loanId date infix_ kind (s.own.listPayments ctx.tenant loanId)), s) := by
  unfold moveIdOf
  split_ifs with hid
  · rfl
  · have heq : moveId explicit loanId date infix_ kind (s.own.listPayments ctx.tenant loanId) =
        trim (explicit.getD "") := if_neg hid
    rw [heq]
    rfl

theorem decides_saveLoan (ctx : FlowContext) (input : LoanInput) (s : Stores π DebtStore) :
    Decides exec s (LoanRequest.program ctx (.save input)) (planSave ctx input s.own)
      (carryOut ctx s) := by
  unfold LoanRequest.program saveLoan planSave
  simp only [Prog.bind_assoc]
  refine .check fun draft _ => .read rfl ?_
  generalize hexi : (exec (FlowCall.own (DebtCall.getLoan ctx.tenant draft.id)) s).1 = existing
  have hfound : s.own.getLoan ctx.tenant draft.id = existing := hexi
  rw [hfound]
  refine .check fun loan _ => ?_
  by_cases hopens : existing = none ∧ trim (input.proceedsToCode.getD "") ≠ "" ∧ 0 < draft.principal
  · rw [if_pos hopens, if_pos hopens]
    simp only [Prog.bind_assoc]
    refine .check fun accounts _ => .done ?_
    unfold carryOut
    rfl
  · rw [if_neg hopens, if_neg hopens]
    exact .done rfl

theorem decides_recordLoanPayment (ctx : FlowContext) (input : PaymentInput)
    (s : Stores π DebtStore) : Decides exec s (LoanRequest.program ctx (.payment input))
      (planPayment ctx input s.own) (carryOut ctx s) := by
  unfold LoanRequest.program recordLoanPayment planPayment
  simp only [Prog.bind_assoc]
  refine .bind (decides_requireLoan s _) fun loan _ => .check fun draft _ => ?_
  refine .answer (run_moveIdOf ..) (.read rfl ?_)
  dsimp only [exec, FlowCall.exec, DebtCall.exec]
  generalize moveId input.id _ _ _ _ _ = id
  cases s.own.getPayment ctx.tenant id with
  | some seen => exact .done rfl
  | none =>
    simp only [Prog.bind_assoc]
    refine .check fun accounts _ => .done ?_
    unfold carryOut postMove
    simp only [Prog.bind_assoc]
    rfl

theorem decides_recordDraw (ctx : FlowContext) (input : DrawInput) (s : Stores π DebtStore) :
    Decides exec s (LoanRequest.program ctx (.draw input)) (planDraw ctx input s.own)
      (carryOut ctx s) := by
  unfold LoanRequest.program recordDraw planDraw
  simp only [Prog.bind_assoc]
  refine .bind (decides_requireLoan s _) fun loan _ => .refuse fun _ => .check fun draft _ => ?_
  refine .answer (run_moveIdOf ..) (.read rfl ?_)
  dsimp only [exec, FlowCall.exec, DebtCall.exec]
  generalize moveId input.id _ _ _ _ _ = id
  cases s.own.getPayment ctx.tenant id with
  | some seen => exact .done rfl
  | none =>
    simp only [Prog.bind_assoc]
    refine .check fun accounts _ => .done ?_
    unfold carryOut postMove
    simp only [Prog.bind_assoc]
    rfl

theorem decides_program (ctx : FlowContext) (r : LoanRequest) (s : Stores π DebtStore) :
    Decides exec s (r.program ctx) (r.plan ctx s.own) (carryOut ctx s) := by
  rcases r with input | input | input
  · exact decides_saveLoan ctx input s
  · exact decides_recordLoanPayment ctx input s
  · exact decides_recordDraw ctx input s

/-! What one call can leave behind. -/

def Plan.command : Plan → Option PostCommand
  | .opened _ command => some command
  | .move m => some m.command
  | .file _ | .seen _ _ _ => none

/-- The answer of a call and the stores after it. The last case is that of an entry which the
records do not know of. -/
inductive Turns (ctx : FlowContext) (s : Stores π DebtStore) (r : LoanRequest) :
    Except FlowFailure (Option Receipt) × Stores π DebtStore → Prop where
  | refused (e : FlowFailure) : Turns ctx s r (.error e, s)
  | filed {loan : LoanRecord} (hplan : r.plan ctx s.own = .ok (.file loan)) :
      Turns ctx s r (.ok none, { s with own := s.own.saveLoan ctx.tenant loan })
  | opened {loan : LoanRecord} {command : PostCommand}
      (hplan : r.plan ctx s.own = .ok (.opened loan command))
      (happends : s.ledger.Appends ctx.chart command) :
      Turns ctx s r (.ok none, { s.posted ctx command with own := s.own.saveLoan ctx.tenant loan })
  | seen {loanId : String} {kind : MoveKind} {record : LoanPaymentRecord}
      (hplan : r.plan ctx s.own = .ok (.seen loanId kind record)) :
      Turns ctx s r (.ok (some ⟨loanId, kind, record.entryId⟩), s)
  | moved {m : LoanMove} (hplan : r.plan ctx s.own = .ok (.move m))
      (happends : s.ledger.Appends ctx.chart m.command) :
      Turns ctx s r (.ok (some ⟨m.draft.loanId, m.draft.kind, (s.entryOf ctx m.command).id⟩),
        { s.posted ctx m.command with
          own := (s.own.saveLoan ctx.tenant m.updated).savePayment ctx.tenant
            (m.record (s.entryOf ctx m.command).id) })
  | unknown {plan : Plan} {command : PostCommand} (hplan : r.plan ctx s.own = .ok plan)
      (hcommand : plan.command = some command) {e : PostedEntry}
      (hanswers : s.ledger.Answers command e)
      (end_ : Except FlowFailure (Option Receipt) × Stores π DebtStore) : Turns ctx s r end_

theorem turns (ctx : FlowContext) (s : Stores π DebtStore) (r : LoanRequest) :
    Turns ctx s r ((r.program ctx).run exec s) := by
  have hdec := decides_program ctx r s
  rcases hplan : r.plan ctx s.own with e | plan
  · rw [hdec.threw hplan]
    exact .refused e
  · rw [hdec.ran hplan]
    cases plan with
    | file loan => exact .filed hplan
    | seen loanId kind record => exact .seen hplan
    | opened loan command =>
      have hends := flowPosts DebtCall.exec ctx command (fileOpened ctx loan) s
      unfold carryOut
      dsimp only
      generalize (postFlow ctx command >>= fileOpened ctx loan).run exec s = end_ at hends ⊢
      cases hends with
      | refused err _ _ => exact .refused _
      | answered h => exact .unknown hplan rfl h _
      | appended h => exact .opened hplan h
    | move m =>
      have hends := flowPosts DebtCall.exec ctx m.command (fileMove ctx m) s
      unfold carryOut
      dsimp only
      generalize (postFlow ctx m.command >>= fileMove ctx m).run exec s = end_ at hends ⊢
      cases hends with
      | refused err _ _ => exact .refused _
      | answered h => exact .unknown hplan rfl h _
      | appended h => exact .moved hplan h

/-! What a plan is made of. -/

def LoanRequest.counterCode : LoanRequest → String
  | save input => trim (input.proceedsToCode.getD "")
  | payment input => trimmedOr input.paidFromCode "1000"
  | draw input => trimmedOr input.depositToCode "1000"

/-- The accounts of a loan play their roles. -/
structure Placed (chart : ChartOfAccounts) (loan : LoanRecord) : Prop where
  liability : ∃ a, chart.getByCode loan.liabilityAccountCode = some a ∧ a.type = .liability
  interest : ∃ a, chart.getByCode loan.interestAccountCode = some a ∧ a.type = .expense

def Charges (chart : ChartOfAccounts) (command : PostCommand) (loan : LoanRecord)
    (counterCode : String) (amount : Int) : Prop :=
  ∀ code a, chart.getByCode code = some a → code ≠ counterCode → code ≠ loan.interestAccountCode →
    netOn a.id command.lines = if loan.liabilityAccountCode = code then amount else 0

def MoveKind.keyPrefix : MoveKind → String
  | payment => "loan-pay:"
  | draw => "loan-draw:"

/-- A loan saved without an entry: an edit, or a loan of which nothing is put down as owed. -/
structure FiledLoan (ctx : FlowContext) (own : DebtStore) (loan : LoanRecord) : Prop where
  placed : Placed ctx.chart loan
  kept : ∀ old, own.getLoan ctx.tenant loan.id = some old →
    loan.currentPrincipalMinor = old.currentPrincipalMinor
  owes : own.getLoan ctx.tenant loan.id = none → 0 ≤ loan.currentPrincipalMinor

structure OpenedLoan (ctx : FlowContext) (own : DebtStore) (counterCode : String)
    (loan : LoanRecord) (command : PostCommand) : Prop where
  placed : Placed ctx.chart loan
  fresh : own.getLoan ctx.tenant loan.id = none
  owes : 0 < loan.currentPrincipalMinor
  tenant : command.tenantId = ctx.tenant
  key : command.idempotencyKey = "loan-open:" ++ loan.id
  charges : Charges ctx.chart command loan counterCode (-loan.currentPrincipalMinor)

structure MovedLoan (ctx : FlowContext) (own : DebtStore) (counterCode : String) (m : LoanMove) :
    Prop where
  found : own.getLoan ctx.tenant m.loan.id = some m.loan
  fresh : own.getPayment ctx.tenant m.draft.id = none
  loanId : m.draft.loanId = m.loan.id
  record : ∀ e, m.record e = { m.draft with entryId := e }
  tenant : m.command.tenantId = ctx.tenant
  key : m.command.idempotencyKey = m.draft.kind.keyPrefix ++ m.draft.id
  within : 0 ≤ m.loan.currentPrincipalMinor →
    m.draft.principalMinor ≤ m.loan.currentPrincipalMinor
  charges : 0 ≤ m.loan.currentPrincipalMinor →
    Charges ctx.chart m.command m.loan counterCode m.draft.principalMinor

omit [PeriodStore π]
variable {own : DebtStore} {loan : LoanRecord} {command : PostCommand}

theorem foundLoan_eq_ok {loanId : String} (h : foundLoan ctx loanId own = .ok loan) :
    own.getLoan ctx.tenant loanId = some loan ∧ loanId = loan.id := by
  unfold foundLoan at h
  rcases hget : own.getLoan ctx.tenant loanId with - | found
  · rw [hget] at h
    cases h
  · rw [hget] at h
    have hsame := ok.inj h
    subst hsame
    exact ⟨rfl, (own.loan_of_get hget).symm⟩

variable {draft : LoanDraft} {input : LoanInput} {plan : Plan}

theorem draftLoan_eq_ok (h : draftLoan ctx input = .ok draft) : 0 ≤ draft.principal ∧
      (∃ a, ctx.chart.getByCode draft.liabilityAccountCode = some a ∧ a.type = .liability) ∧
      ∃ a, ctx.chart.getByCode draft.interestAccountCode = some a ∧ a.type = .expense := by
  simp only [draftLoan, bind_eq_ok, refuse_eq_ok] at h
  obtain ⟨-, kind, -, frequency, -, principal, -, hprin, rate, -, -, term, -, -, date, -,
    liability, hliab, interest, hint, hdraft⟩ := h
  have hdraft := ok.inj hdraft
  subst hdraft
  exact ⟨not_lt.mp hprin, need_eq_ok hliab, need_eq_ok hint⟩

theorem loanOf_eq_ok {existing : Option LoanRecord} (h : loanOf input draft existing = .ok loan) :
    loan.id = draft.id ∧
      loan.liabilityAccountCode = draft.liabilityAccountCode ∧
      loan.interestAccountCode = draft.interestAccountCode ∧ loan.currentPrincipalMinor =
        (existing.map LoanRecord.currentPrincipalMinor).getD draft.principal := by
  simp only [loanOf, bind_eq_ok] at h
  obtain ⟨payment, -, minDscr, -, hloan⟩ := h
  have hloan := ok.inj hloan
  subst hloan
  exact ⟨rfl, rfl, rfl, rfl⟩

theorem placed_of_draft {existing : Option LoanRecord} (hdraft : draftLoan ctx input = .ok draft)
    (hloan : loanOf input draft existing = .ok loan) : Placed ctx.chart loan := by
  obtain ⟨-, hliab, hint⟩ := draftLoan_eq_ok hdraft
  obtain ⟨-, hliabil, hinter, -⟩ := loanOf_eq_ok hloan
  rw [← hliabil] at hliab
  rw [← hinter] at hint
  exact ⟨hliab, hint⟩

theorem charges_twoLines {chart : ChartOfAccounts} {counter liability : Account}
    {counterCode memo : String} {currency : Currency} {amount : Int}
    (hctr : chart.getByCode counterCode = some counter)
    (hliab : chart.getByCode loan.liabilityAccountCode = some liability)
    (hlines : command.lines = twoLines currency counter.id liability.id amount memo) :
    Charges chart command loan counterCode (-amount) := by
  intro code a ha hne _
  have hother : counter.id ≠ a.id := fun heq =>
    hne ((id_eq_of_getByCode hctr ha).mp heq).symm
  have hsame := id_eq_of_getByCode hliab ha
  rw [hlines, netOn_twoLines, if_neg hother, Int.zero_add]
  simp only [hsame]

theorem partsOf_principal (loan : LoanRecord) (amount : Int)
    (howes : 0 ≤ loan.currentPrincipalMinor) : 0 ≤ (partsOf loan amount).principal ∧
      (partsOf loan amount).principal ≤ loan.currentPrincipalMinor := by
  unfold partsOf
  dsimp only
  generalize roundDiv _ _ = interestDue
  split_ifs <;> omega

theorem draftMove_eq_ok {date : Option String} {amount : Option TextOrNumber} {what : String}
    {draft : MoveDraft} (h : draftMove date amount what = .ok draft) : 0 < draft.amount := by
  simp only [draftMove, bind_eq_ok, refuse_eq_ok] at h
  obtain ⟨date, -, amount, -, hamt, h⟩ := h
  have hdraft := ok.inj h
  subst hdraft
  exact not_le.mp hamt

theorem charges_payment {input : PaymentInput} {draft : MoveDraft} {accounts : PaymentAccounts}
    {id : String} (haccounts : paymentAccounts ctx input loan = .ok accounts)
    (hprin : 0 ≤ (partsOf loan draft.amount).principal) :
    Charges ctx.chart (paymentMove ctx input loan draft accounts id).command loan
      (trimmedOr input.paidFromCode "1000") (partsOf loan draft.amount).principal := by
  simp only [paymentAccounts, bind_eq_ok] at haccounts
  obtain ⟨paidFrom, hpaidF, liability, hliab, interest, hint, haccounts⟩ := haccounts
  have haccounts := ok.inj haccounts
  subst haccounts
  intro code a ha hctr hinter
  have hpaid : paidFrom.id ≠ a.id := fun heq =>
    hctr ((id_eq_of_getByCode (accountOf_eq_ok hpaidF) ha).mp heq).symm
  have hspent : interest.id ≠ a.id := fun heq => hinter
    ((id_eq_of_getByCode (accountOf_eq_ok hint) ha).mp heq).symm
  have hsame := id_eq_of_getByCode (accountOf_eq_ok hliab) ha
  unfold paymentMove debtCommand paymentLines
  dsimp only
  generalize partsOf loan draft.amount = parts at hprin ⊢
  rw [netOn_append, netOn_append, netOn_cons, netOn_nil, if_neg hpaid, Int.add_zero]
  have hints : netOn a.id (if 0 < parts.interest then
      [⟨interest.id, .debit, ⟨parts.interest, ctx.currency⟩, some "Interest", none⟩] else []) = 0 := by
    split_ifs
    · rw [netOn_cons, if_neg hspent, netOn_nil]
      rfl
    · rfl
  rw [hints, Int.add_zero, Int.add_zero]
  by_cases hpart : 0 < parts.principal
  · rw [if_pos hpart, netOn_cons, netOn_nil, Int.add_zero]
    simp only [hsame]
    rfl
  · have hzero : parts.principal = 0 := le_antisymm (not_lt.mp hpart) hprin
    rw [if_neg hpart, hzero, netOn_nil, ite_self]

def Plan.Sound (ctx : FlowContext) (own : DebtStore) (counterCode : String) : Plan → Prop
  | .file loan => FiledLoan ctx own loan
  | .opened loan command => OpenedLoan ctx own counterCode loan command
  | .seen _ _ record => ∃ id, own.getPayment ctx.tenant id = some record
  | .move m => MovedLoan ctx own counterCode m

theorem sound_planSave (h : planSave ctx input own = .ok plan) :
    plan.Sound ctx own (trim (input.proceedsToCode.getD "")) := by
  simp only [planSave, bind_eq_ok] at h
  obtain ⟨draft, hdraft, loan, hloan, h⟩ := h
  obtain ⟨hid, -, -, hcur⟩ := loanOf_eq_ok hloan
  split_ifs at h with hopens
  · rw [bind_eq_ok] at h
    obtain ⟨accounts, haccounts, h⟩ := h
    have hopened := ok.inj h
    subst hopened
    simp only [openingAccounts, bind_eq_ok] at haccounts
    obtain ⟨proceeds, hproc, liability, hliab, haccounts⟩ := haccounts
    have haccounts := ok.inj haccounts
    subst haccounts
    obtain ⟨hnone, -, hposv⟩ := hopens
    rw [hnone] at hcur
    have howes : loan.currentPrincipalMinor = draft.principal := hcur
    refine ⟨placed_of_draft hdraft hloan, ?_, ?_, rfl, ?_, ?_⟩
    · rw [hid]
      exact hnone
    · rw [howes]
      exact hposv
    · rw [hid]
      rfl
    · rw [howes]
      exact charges_twoLines (accountOf_eq_ok hproc) (accountOf_eq_ok hliab) rfl
  · have hfiled := ok.inj h
    subst hfiled
    rw [← hid] at hcur
    refine ⟨placed_of_draft hdraft hloan, fun old hold => ?_, fun hnone => ?_⟩
    · rw [hcur, hold]
      rfl
    · rw [hcur, hnone]
      exact (draftLoan_eq_ok hdraft).1

theorem sound_planPayment {input : PaymentInput} (h : planPayment ctx input own = .ok plan) :
    plan.Sound ctx own (trimmedOr input.paidFromCode "1000") := by
  simp only [planPayment, bind_eq_ok] at h
  obtain ⟨loan, hloan, draft, -, h⟩ := h
  generalize moveId input.id _ _ _ _ _ = id at h
  rcases hseen : own.getPayment ctx.tenant id with - | seen
  · rw [hseen] at h
    simp only [bind_eq_ok] at h
    obtain ⟨accounts, haccounts, h⟩ := h
    have hmove := ok.inj h
    subst hmove
    obtain ⟨hget, hid⟩ := foundLoan_eq_ok hloan
    have hparts := partsOf_principal loan draft.amount
    rw [hid] at hget
    exact ⟨hget, hseen, hid, fun _ => rfl, rfl, rfl, fun howes => (hparts howes).2,
      fun howes => charges_payment haccounts (hparts howes).1⟩
  · rw [hseen] at h
    have hanswer := ok.inj h
    subst hanswer
    exact ⟨id, hseen⟩

theorem sound_planDraw {input : DrawInput} (h : planDraw ctx input own = .ok plan) :
    plan.Sound ctx own (trimmedOr input.depositToCode "1000") := by
  simp only [planDraw, bind_eq_ok, refuse_eq_ok] at h
  obtain ⟨loan, hloan, -, draft, hdraft, h⟩ := h
  generalize moveId input.id _ _ _ _ _ = id at h
  rcases hseen : own.getPayment ctx.tenant id with - | seen
  · rw [hseen] at h
    simp only [bind_eq_ok] at h
    obtain ⟨accounts, haccounts, h⟩ := h
    have hmove := ok.inj h
    subst hmove
    simp only [drawAccounts, bind_eq_ok] at haccounts
    obtain ⟨deposit, hdep, liability, hliab, haccounts⟩ := haccounts
    have haccounts := ok.inj haccounts
    subst haccounts
    obtain ⟨hget, hid⟩ := foundLoan_eq_ok hloan
    have hamt := draftMove_eq_ok hdraft
    rw [hid] at hget
    refine ⟨hget, hseen, hid, fun _ => rfl, rfl, rfl, fun howes => ?_, fun _ => ?_⟩
    · have howes : 0 ≤ loan.currentPrincipalMinor := howes
      have hneg : -draft.amount ≤ loan.currentPrincipalMinor := by omega
      exact hneg
    · exact charges_twoLines (accountOf_eq_ok hdep) (accountOf_eq_ok hliab) rfl
  · rw [hseen] at h
    have hanswer := ok.inj h
    subst hanswer
    exact ⟨id, hseen⟩

theorem sound_plan {r : LoanRequest} (h : r.plan ctx own = .ok plan) :
    plan.Sound ctx own r.counterCode := by
  rcases r with input | input | input
  · exact sound_planSave h
  · exact sound_planPayment h
  · exact sound_planDraw h

end
end Rgnr8.Service.Debt
