import Rgnr8.Close.Checklist
import Rgnr8.Service.Statements
import Rgnr8.Service.TieOut

/-! `POST /t/<tenant>/close/publish`: the package is computed from the journal, the gate from the
tenant's own records, and then the close is published. Another request may move between any two of
the calls. -/

namespace Rgnr8.Service.ClosePublish
open Lib Lib.Js Kernel Close Rgnr8.Statements Service.Statements

inductive BackendCall where
  | close (c : CloseCall)
  | entries (tenant : TenantId)
  | reconciledThrough (tenant : TenantId) (accountCode : String)
  | listDocs (tenant : TenantId) (kind : DocKind)

abbrev BackendCall.Answer : BackendCall → Type
  | close c => c.Answer
  | entries _ => List PostedEntry
  | reconciledThrough _ _ => Option String
  | listDocs _ _ => List DocRecord

structure BackendStores (π τ : Type) where
  close : CloseStores π τ
  recon : OrderedMap (TenantId × String) String
  docs : InMemoryDocumentStore

namespace BackendStores
variable {π τ : Type}

def journal (s : BackendStores π τ) (tenant : TenantId) : List PostedEntry :=
  s.close.ledger.store.list tenant

/-- The order of the list is left out: of the documents only a sum is read here. -/
def listDocs (s : BackendStores π τ) (tenant : TenantId) (kind : DocKind) : List DocRecord :=
  (s.docs.docs.filter fun key _ => key.1 = tenant ∧ key.2.1 = kind).values

end BackendStores

def BackendCall.exec {π τ : Type} [PeriodStore π] [PackageStore τ] :
    (c : BackendCall) → BackendStores π τ → c.Answer × BackendStores π τ
  | close c, s => ((c.exec s.close).1, { s with close := (c.exec s.close).2 })
  | entries t, s => (s.journal t, s)
  | reconciledThrough t code, s => (s.recon.get? (t, code), s)
  | listDocs t kind, s => (s.listDocs t kind, s)

/-- What a request can end with instead of an answer. -/
inductive RequestError where
  | bad (message : String)
  | conflict (message : String)
  | blocked (message : String) (checks : List (CloseTask × Bool))
  | thrown (e : PackageError)
  | posting (e : LedgerError)

abbrev BackendProg := Prog BackendCall BackendCall.Answer RequestError

variable (ctx : StatementsContext)

def kernelTrialBalance (window : DateWindow) (journal : List PostedEntry) : Kernel.TrialBalance :=
  computeTrialBalance ctx.localeLe ctx.chart ctx.currency (some window) journal

def packageInput (period : PeriodKey) (tbK endTbK startTbK : Kernel.TrialBalance) :
    FinancialPackageInput :=
  let periodTb := fromKernelTrialBalance ctx.localeLe tbK
  let endTb := fromKernelTrialBalance ctx.localeLe endTbK
  let startTb := fromKernelTrialBalance ctx.localeLe startTbK
  let income := incomeStatement ctx.localeLe periodTb
  let beginningRetained := (incomeStatement ctx.localeLe startTb).netIncome
  let bs := balanceSheet ctx.localeLe endTb income.netIncome (some beginningRetained)
  { periodKey := period
    currency := ctx.currency.code
    trialBalance := {
      rows := tbK.rows.map fun r =>
        ⟨r.code, r.name, toString r.debit.minorUnits, toString r.credit.minorUnits⟩
      totalDebitMinor := toString tbK.totalDebit.minorUnits
      totalCreditMinor := toString tbK.totalCredit.minorUnits
      inBalance := tbK.inBalance }
    incomeStatement := {
      revenueMinor := toString income.revenue
      expensesMinor := toString income.expenses
      netIncomeMinor := toString income.netIncome
      revenueLines := none
      expenseLines := none }
    balanceSheet := {
      totalAssetsMinor := toString bs.assets
      totalLiabilitiesAndEquityMinor := toString (bs.liabilities + bs.equity)
      netIncomeMinor := toString income.netIncome
      balances := bs.balanced
      assetLines := none
      liabilityLines := none
      equityLines := none }
    qboReconciliation := none }

def periodWindow (fromDate toDate : String) : DateWindow := ⟨some fromDate, some toDate⟩

def endWindow (toDate : String) : DateWindow := ⟨none, some toDate⟩

def startWindow (fromDate : String) : DateWindow := ⟨none, some (previousDay fromDate)⟩

variable (tenant : TenantId)

def buildPackageInput (fromDate toDate : String) (period : PeriodKey) :
    BackendProg FinancialPackageInput := do
  let first ← Prog.perform (BackendCall.entries tenant)
  let second ← Prog.perform (BackendCall.entries tenant)
  let third ← Prog.perform (BackendCall.entries tenant)
  return packageInput ctx period
    (kernelTrialBalance ctx (periodWindow fromDate toDate) first)
    (kernelTrialBalance ctx (endWindow toDate) second)
    (kernelTrialBalance ctx (startWindow fromDate) third)

def signedByCode (tb : Kernel.TrialBalance) : OrderedMap String Int :=
  tb.rows.foldl (fun m r => m.set r.code (r.debit.minorUnits - r.credit.minorUnits)) .empty

variable (signed : OrderedMap String Int)

def signedOf (acct : Account) : Int :=
  (signed.get? acct.code).getD 0

def bankReconciliations (tenant : TenantId) (periodEnd : String) (signed : OrderedMap String Int) :
    List Account → BackendProg (List ReconLike)
  | [] => return []
  | acct :: accounts =>
    if acct.subtype ≠ some .bank ∨ signedOf signed acct = 0 then
      bankReconciliations tenant periodEnd signed accounts
    else do
      let through ← Prog.perform (BackendCall.reconciledThrough tenant acct.code)
      let others ← bankReconciliations tenant periodEnd signed accounts
      let balanced := Option.any (fun date => ¬ Before date periodEnd) through
      return ⟨acct.code, if balanced then "BALANCED" else "UNRECONCILED", false⟩ :: others

def glOf (chart : ChartOfAccounts) (signed : OrderedMap String Int) (subtype : AccountSubtype)
    (creditNormal : Bool) : Int :=
  ((chart.list.filter fun a => a.subtype = some subtype).map fun a =>
    if creditNormal then -signedOf signed a else signedOf signed a).sum

def controlTie (subtype : AccountSubtype) (creditNormal : Bool) (kind : DocKind) (name : String) :
    BackendProg (List ControlLike) :=
  if ctx.chart.list.any fun a => a.subtype = some subtype then do
    let docs ← Prog.perform (BackendCall.listDocs tenant kind)
    let openSum := (List.map DocRecord.openMinor docs).sum
    return [⟨name, glOf ctx.chart signed subtype creditNormal = openSum⟩]
  else return []

def computeCloseGate (periodEnd : String) (tbInBalance requireSignOff : Bool) :
    BackendProg CloseGateInputs := do
  let journal ← Prog.perform (BackendCall.entries tenant)
  let signed := signedByCode (kernelTrialBalance ctx (endWindow periodEnd) journal)
  let reconciliations ← bankReconciliations tenant periodEnd signed ctx.chart.list
  let receivable ← controlTie ctx tenant signed .accountsReceivable false .invoice
    "Accounts receivable ties to the subledger"
  let payable ← controlTie ctx tenant signed .accountsPayable true .bill
    "Accounts payable ties to the subledger"
  return ⟨reconciliations, receivable ++ payable, tbInBalance, requireSignOff⟩

/-- The fields of the request body, the empty text where a field is no text. -/
structure ClosePublishBody where
  fromDate : String
  toDate : String
  publishedBy : String
  preparedBy : String
  period : String
  override : Bool
  overrideReason : String
  requireSignoff : Bool

def ClosePublishBody.periodKey (body : ClosePublishBody) : PeriodKey :=
  if trim body.period ≠ "" then trim body.period else String.ofList (body.toDate.toList.take 7)

def routeError : CloseError → RequestError
  | .gate blockers failed note => .blocked (CloseError.gate blockers failed note).message
      (failed.map fun t => (t, isOverridableCheck t.id))
  | .package (.published t p) => .conflict (PackageError.published t p).message
  | .package e => .thrown e
  | e => .conflict e.message

def onClose (c : CloseCall) : BackendProg c.Answer := Prog.perform (BackendCall.close c)

def closePublish (now : String) (body : ClosePublishBody) : BackendProg CloseState := do
  Prog.refuseIf (body.fromDate = "" ∨ body.toDate = "")
    (.bad "close publish needs from and to (YYYY-MM-DD)")
  let publishedBy := trim body.publishedBy
  Prog.refuseIf (publishedBy = "") (.bad "published_by is required")
  let preparedBy := trim body.preparedBy
  let overrideReason := trim body.overrideReason
  Prog.refuseIf (body.override = true ∧ overrideReason = "")
    (.bad "a gate override must state a reason (override_reason)")
  let input ← buildPackageInput ctx tenant body.fromDate body.toDate body.periodKey
  let pkg ← Prog.ofExcept ((buildFinancialPackage input ⟨publishedBy, now, now⟩ false).mapError
    fun e => RequestError.conflict e.message)
  let gate ← computeCloseGate ctx tenant body.toDate input.trialBalance.inBalance body.requireSignoff
  (publishClose {
    tenantId := tenant
    inputs := gate
    pkg := pkg
    preparedBy := if preparedBy = "" then none else some preparedBy
    publishedBy := publishedBy
    at_ := now
    override := if body.override then some overrideReason else none }).interpret onClose routeError

end Rgnr8.Service.ClosePublish

/-! What the close gate compares. The ledger side of a control is read as of the end of the period,
the documents side as it is now. -/

namespace Rgnr8.Service.CloseGate
open Lib Lib.Js Fallible Kernel Subledger Close Service.Statements ArAp ClosePublish

/-! The ledger side. -/

section
variable {localeLe : String → String → Bool} {coa : ChartOfAccounts} {currency : Currency}
variable {window : Option DateWindow} {journal : List PostedEntry}

theorem get?_foldl_rows {code : String} {n : Int} (rows : List TrialBalanceRow)
    (h : ∀ r ∈ rows, r.code = code → r.position = n) (m : OrderedMap String Int) :
    (rows.foldl (fun m r => m.set r.code (r.debit.minorUnits - r.credit.minorUnits)) m).get? code =
      if ∃ r ∈ rows, r.code = code then some n else m.get? code := by
  induction rows generalizing m with
  | nil => simp
  | cons r rows ih =>
    rw [List.forall_mem_cons] at h
    rw [List.foldl_cons, ih h.2]
    by_cases hrows : ∃ r ∈ rows, r.code = code
    · obtain ⟨r', hr', hcode⟩ := hrows
      rw [if_pos ⟨r', hr', hcode⟩, if_pos ⟨r', List.mem_cons_of_mem _ hr', hcode⟩]
    · rw [if_neg hrows, OrderedMap.get?_set]
      by_cases hcode : code = r.code
      · have hn : r.debit.minorUnits - r.credit.minorUnits = n := h.1 hcode.symm
        rw [if_pos hcode, if_pos ⟨r, List.mem_cons_self, hcode.symm⟩, hn]
      · rw [if_neg hcode, if_neg]
        rintro ⟨r', hr', hcode'⟩
        rcases List.mem_cons.mp hr' with rfl | hr'
        · exact hcode hcode'.symm
        · exact hrows ⟨r', hr', hcode'⟩

theorem signedOf_eq {a : Account} (ha : a ∈ coa.list) :
    signedOf (signedByCode (computeTrialBalance localeLe coa currency window journal)) a =
      balanceOf a.id (entriesIn window journal) := by
  have hcode := ChartOfAccounts.getByCode_of_mem ha
  have hget : coa.get a.id = some a := (coa.code_of_get hcode).2
  have hrows : ∀ r ∈ (computeTrialBalance localeLe coa currency window journal).rows,
      r.code = a.code → r.position = balanceOf a.id (entriesIn window journal) := by
    intro r hr hr'
    obtain ⟨b, -, hb, rfl⟩ := mem_rows.mp hr
    have hsame : b.code = a.code := hr'
    have hfound := (coa.id_of_get hb).2
    rw [hsame] at hfound
    rw [position_trialBalanceRow, Option.some.inj (hfound.symm.trans hcode)]
  unfold signedOf signedByCode
  rw [get?_foldl_rows _ hrows]
  by_cases hmem : ∃ r ∈ (computeTrialBalance localeLe coa currency window journal).rows,
      r.code = a.code
  · rw [if_pos hmem]
    rfl
  · -- without a row the account has no net position
    rw [if_neg hmem, balanceOf]
    cases hnet : (netByAccount (entriesIn window journal)).get? a.id with
    | none => rfl
    | some n =>
      refine absurd ⟨_, mem_rows.mpr ⟨a, ?_, hget, rfl⟩, rfl⟩ hmem
      exact OrderedMap.mem_keys_iff.mpr ⟨n, hnet⟩

end

def controlSubtype : DocKind → AccountSubtype
  | .invoice => .accountsReceivable
  | .bill => .accountsPayable

def controlName : DocKind → String
  | .invoice => "Accounts receivable ties to the subledger"
  | .bill => "Accounts payable ties to the subledger"

def HasControl (coa : ChartOfAccounts) (kind : DocKind) : Prop :=
  ∃ a ∈ coa.list, a.subtype = some (controlSubtype kind)

def controlAsOf (coa : ChartOfAccounts) (kind : DocKind) (day : String)
    (journal : List PostedEntry) : Int :=
  ((coa.list.filter fun a => a.subtype = some (controlSubtype kind)).map fun a =>
    (controlSide kind).signed (balanceOf a.id (entriesIn (some (endWindow day)) journal))).sum

theorem glOf_eq (ctx : StatementsContext) (kind : DocKind) (day : String)
    (journal : List PostedEntry) :
    glOf ctx.chart (signedByCode (kernelTrialBalance ctx (endWindow day) journal))
      (controlSubtype kind) (kind = .bill) = controlAsOf ctx.chart kind day journal := by
  unfold glOf controlAsOf
  refine congrArg List.sum (List.map_congr_left fun a ha => ?_)
  have hsgn : signedOf (signedByCode (kernelTrialBalance ctx (endWindow day) journal)) a =
      balanceOf a.id (entriesIn (some (endWindow day)) journal) :=
    signedOf_eq (List.mem_of_mem_filter ha)
  rw [hsgn]
  cases kind <;> rfl

theorem controlAsOf_concat {day : String} {e : PostedEntry} (h : Before day e.entryDate)
    (coa : ChartOfAccounts) (kind : DocKind) (journal : List PostedEntry) :
    controlAsOf coa kind day (journal ++ [e]) = controlAsOf coa kind day journal := by
  have hout : inWindow e.entryDate (some (endWindow day)) = false := by
    simp [inWindow, endWindow, h]
  have hents : entriesIn (some (endWindow day)) (journal ++ [e]) =
      entriesIn (some (endWindow day)) journal := by
    unfold entriesIn
    rw [List.filter_append, List.filter_singleton, hout]
    exact List.append_nil _
  unfold controlAsOf
  rw [hents]

/-! The verdict. -/

section
variable {π τ : Type}

theorem sum_listDocs (s : BackendStores π τ) (tenant : TenantId) (kind : DocKind) :
    ((s.listDocs tenant kind).map DocRecord.openMinor).sum = s.docs.openSum tenant kind := by
  unfold BackendStores.listDocs InMemoryDocumentStore.openSum
  rw [OrderedMap.sum_values_filter]
  simp only [decide_eq_true_eq]

variable [PeriodStore π] [PackageStore τ]

theorem run_bankReconciliations (tenant : TenantId) (periodEnd : String)
    (signed : OrderedMap String Int) (accounts : List Account) (s : BackendStores π τ) :
    ∃ recs, (ClosePublish.bankReconciliations tenant periodEnd signed accounts).run
      ClosePublish.BackendCall.exec s = (.ok recs, s) := by
  induction accounts with
  | nil => exact ⟨[], rfl⟩
  | cons acct accounts ih =>
    unfold ClosePublish.bankReconciliations
    by_cases hskip : acct.subtype ≠ some .bank ∨ signedOf signed acct = 0
    · rw [if_pos hskip]
      exact ih
    · obtain ⟨recs, hrecs⟩ := ih
      rw [if_neg hskip]
      simp only [Prog.bind_eq, Prog.run_bind, Prog.run_perform,
        ClosePublish.BackendCall.exec, hrecs, Prog.pure_eq, Prog.run_ret]
      exact ⟨_, rfl⟩

theorem run_controlTie (ctx : StatementsContext) (tenant : TenantId)
    (signed : OrderedMap String Int) (subtype : AccountSubtype) (creditNormal : Bool)
    (kind : DocKind) (name : String) (s : BackendStores π τ) :
    (controlTie ctx tenant signed subtype creditNormal kind name).run
        ClosePublish.BackendCall.exec s = (.ok (if ctx.chart.list.any fun a => a.subtype = some subtype then
        [⟨name, glOf ctx.chart signed subtype creditNormal = s.docs.openSum tenant kind⟩] else []),
        s) := by
  unfold controlTie
  by_cases hany : ctx.chart.list.any fun a => a.subtype = some subtype
  · rw [if_pos hany, if_pos hany, ← sum_listDocs]
    rfl
  · rw [if_neg hany, if_neg hany]
    rfl

def verdict (ctx : StatementsContext) (tenant : TenantId) (periodEnd : String)
    (tbInBalance requireSignOff : Bool) (s : BackendStores π τ) (kind : DocKind) : Option Bool :=
  match ((computeCloseGate ctx tenant periodEnd tbInBalance requireSignOff).run
      ClosePublish.BackendCall.exec s).1 with
  | .ok gate => (gate.controls.find? fun c => c.name = controlName kind).map ControlLike.balanced
  | .error _ => none

theorem verdict_eq {ctx : StatementsContext} {kind : DocKind} (h : HasControl ctx.chart kind)
    (tenant : TenantId) (periodEnd : String) (tbInBalance requireSignOff : Bool)
    (s : BackendStores π τ) :
    verdict ctx tenant periodEnd tbInBalance requireSignOff s kind =
      some (decide (controlAsOf ctx.chart kind periodEnd (s.journal tenant) =
        s.docs.openSum tenant kind)) := by
  obtain ⟨recs, hrecs⟩ := run_bankReconciliations tenant periodEnd
    (signedByCode (kernelTrialBalance ctx (endWindow periodEnd) (s.journal tenant)))
    ctx.chart.list s
  have hany : (ctx.chart.list.any fun a => a.subtype = some (controlSubtype kind)) = true := by
    obtain ⟨a, ha, hsub⟩ := h
    exact List.any_eq_true.mpr ⟨a, ha, decide_eq_true hsub⟩
  have hgl := glOf_eq ctx kind periodEnd (s.journal tenant)
  unfold verdict computeCloseGate
  simp only [Prog.bind_eq, Prog.run_bind, Prog.run_perform, ClosePublish.BackendCall.exec, hrecs,
    run_controlTie, Prog.pure_eq, Prog.run_ret]
  -- the other kind has a control of another name, or none
  cases kind with
  | invoice =>
    have hany' : (ctx.chart.list.any fun a => a.subtype = some .accountsReceivable) = true := hany
    rw [hany', if_pos rfl, ← hgl]
    rfl
  | bill =>
    have hany' : (ctx.chart.list.any fun a => a.subtype = some .accountsPayable) = true := hany
    rw [hany', if_pos rfl, ← hgl]
    split_ifs <;> rfl

end
end Rgnr8.Service.CloseGate
