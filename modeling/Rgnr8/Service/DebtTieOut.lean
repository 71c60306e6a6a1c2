import Rgnr8.Service.DebtSpec

/-! What the loans say is owed against what their liability accounts say, over any run of the three
flows, and what a payment or a draw that returns has left on file. -/

namespace Rgnr8.Service.Debt
open Lib Lib.Js Fallible Kernel OrderedMap Option String

structure LoanAccounts (chart : ChartOfAccounts) where
  codes : Finset String
  liability : ∀ code ∈ codes, ∃ a, chart.getByCode code = some a ∧ a.type = .liability

variable (tenant : TenantId)

def owed (code : String) (own : DebtStore) : Int :=
  own.loans.total fun key l =>
    if key.1 = tenant ∧ l.liabilityAccountCode = code then l.currentPrincipalMinor else 0

def creditBalance {π : Type} (chart : ChartOfAccounts) (tenant : TenantId) (code : String)
    (ledger : Ledger π) : Int :=
  match chart.getByCode code with
  | some account => -balanceOf account.id (ledger.journal tenant)
  | none => 0

def TiesOut {π : Type} {chart : ChartOfAccounts} (accounts : LoanAccounts chart) (tenant : TenantId)
    (s : Stores π DebtStore) : Prop :=
  ∀ code ∈ accounts.codes, creditBalance chart tenant code s.ledger = owed tenant code s.own

def NothingNegative {π : Type} (s : Stores π DebtStore) : Prop :=
  ∀ id loan, s.own.getLoan tenant id = some loan → 0 ≤ loan.currentPrincipalMinor

/-- The stores of a run, and what its last call was answered if it was a payment or a draw. -/
structure Turn (π : Type) where
  stores : Stores π DebtStore
  answer : Option Receipt

def Turn.Filed {π : Type} (t : Turn π) : Prop :=
  ∀ receipt ∈ t.answer, ∃ id record, t.stores.own.getPayment tenant id = some record ∧
    record.loanId = receipt.loanId ∧ record.kind = receipt.kind ∧ record.entryId = receipt.entryId

structure LoanCall (tenant : TenantId) (chart : ChartOfAccounts) where
  context : FlowContext
  tenant_eq : context.tenant = tenant
  chart_eq : context.chart = chart
  request : LoanRequest

def LoanCall.step {π : Type} [PeriodStore π] {tenant : TenantId} {chart : ChartOfAccounts}
    (t : Turn π) (call : LoanCall tenant chart) : Turn π :=
  let result := (call.request.program call.context).run exec t.stores
  ⟨result.2, result.1.toOption.getD none⟩

def LoanRecord.Follows (loan : LoanRecord) : Option LoanRecord → Prop
  | some old => loan.liabilityAccountCode = old.liabilityAccountCode
  | none => loan.currentPrincipalMinor = 0

instance (loan : LoanRecord) : ∀ old, Decidable (loan.Follows old)
  | some _ => inferInstanceAs (Decidable (_ = _))
  | none => inferInstanceAs (Decidable (_ = _))

def Plan.Apart {chart : ChartOfAccounts} (accounts : LoanAccounts chart) (tenant : TenantId)
    (own : DebtStore) (counterCode : String) : Plan → Prop
  | .file loan => loan.liabilityAccountCode ∈ accounts.codes ∧
      loan.Follows (own.getLoan tenant loan.id)
  | .opened loan _ => loan.liabilityAccountCode ∈ accounts.codes ∧ counterCode ∉ accounts.codes
  | .seen _ _ _ => True
  | .move _ => counterCode ∉ accounts.codes

def Plan.OwnId : Plan → Prop
  | .seen loanId kind record => record.loanId = loanId ∧ record.kind = kind
  | .file _ | .opened _ _ | .move _ => True

section
variable {π : Type} {tenant : TenantId} {chart : ChartOfAccounts} (accounts : LoanAccounts chart)

def LoanCall.Apart (t : Turn π) (call : LoanCall tenant chart) : Prop :=
  OnOk (Plan.Apart accounts tenant t.stores.own call.request.counterCode)
    (call.request.plan call.context t.stores.own)

def LoanCall.OwnId (t : Turn π) (call : LoanCall tenant chart) : Prop :=
  OnOk Plan.OwnId (call.request.plan call.context t.stores.own)

/-- What the tie rests on: every loan is on accounts that play their roles, and the journal holds
no entry of the flows without its record. -/
structure Sound (accounts : LoanAccounts chart) (tenant : TenantId) (s : Stores π DebtStore) :
    Prop where
  ties : TiesOut accounts tenant s
  owes : NothingNegative tenant s
  placed : ∀ id loan, s.own.getLoan tenant id = some loan → Placed chart loan
  opened : ∀ id, s.ledger.store.getByIdempotencyKey tenant ("loan-open:" ++ id) ≠ none →
    s.own.getLoan tenant id ≠ none
  moved : ∀ (kind : MoveKind) id,
    s.ledger.store.getByIdempotencyKey tenant (kind.keyPrefix ++ id) ≠ none →
      s.own.getPayment tenant id ≠ none

end

instance {chart : ChartOfAccounts} (accounts : LoanAccounts chart) (tenant : TenantId)
    (own : DebtStore) (counterCode : String) :
    ∀ plan : Plan, Decidable (plan.Apart accounts tenant own counterCode)
  | .file _ => inferInstanceAs (Decidable (_ ∧ _))
  | .opened _ _ => inferInstanceAs (Decidable (_ ∧ _))
  | .seen _ _ _ => inferInstanceAs (Decidable True)
  | .move _ => inferInstanceAs (Decidable (_ ∉ _))

instance : ∀ plan : Plan, Decidable plan.OwnId
  | .seen _ _ _ => inferInstanceAs (Decidable (_ ∧ _))
  | .file _ | .opened _ _ | .move _ => inferInstanceAs (Decidable True)

instance {π : Type} {tenant : TenantId} {chart : ChartOfAccounts} (accounts : LoanAccounts chart)
    (t : Turn π) (call : LoanCall tenant chart) : Decidable (call.Apart accounts t) :=
  inferInstanceAs (Decidable (OnOk _ _))

instance {π : Type} {tenant : TenantId} {chart : ChartOfAccounts} (t : Turn π)
    (call : LoanCall tenant chart) : Decidable (call.OwnId t) :=
  inferInstanceAs (Decidable (OnOk _ _))

section
variable {own : DebtStore} {t : TenantId} {loan : LoanRecord}

theorem getLoan_saveLoan (own : DebtStore) (t : TenantId) (loan : LoanRecord) (id : String) :
    (own.saveLoan t loan).getLoan t id = if id = loan.id then some loan else own.getLoan t id := by
  unfold DebtStore.getLoan DebtStore.saveLoan
  rw [get?_set]
  simp only [Prod.mk.injEq, true_and]

theorem getPayment_savePayment (own : DebtStore) (t : TenantId) (record : LoanPaymentRecord)
    (id : String) : (own.savePayment t record).getPayment t id =
      if id = record.id then some record else own.getPayment t id := by
  unfold DebtStore.getPayment DebtStore.savePayment
  rw [get?_set]
  simp only [Prod.mk.injEq, true_and]

theorem owed_saveLoan_new (h : own.getLoan t loan.id = none) (code : String) :
    owed t code (own.saveLoan t loan) = owed t code own +
      if loan.liabilityAccountCode = code then loan.currentPrincipalMinor else 0 := by
  have hnone : own.loans.get? (t, loan.id) = none := h
  unfold owed DebtStore.saveLoan
  rw [total_set, hnone]
  simp only [map_none, getD_none, Int.sub_zero, true_and]

theorem owed_saveLoan_again (loan : LoanRecord) {old : LoanRecord}
    (h : own.getLoan t loan.id = some old)
    (hcode : loan.liabilityAccountCode = old.liabilityAccountCode) (code : String) :
    owed t code (own.saveLoan t loan) = owed t code own + if old.liabilityAccountCode = code then
      loan.currentPrincipalMinor - old.currentPrincipalMinor else 0 := by
  have hold : own.loans.get? (t, loan.id) = some old := h
  unfold owed DebtStore.saveLoan
  rw [total_set, hold]
  simp only [map_some, getD_some, true_and, hcode]
  split_ifs <;> omega

end

section
variable {π : Type} [PeriodStore π] {tenant : TenantId} {chart : ChartOfAccounts}
variable {accounts : LoanAccounts chart} {s : Stores π DebtStore} {ctx : FlowContext}

omit [PeriodStore π] in
theorem keyPrefix_ne (kind : MoveKind) (id id' : String) :
    "loan-open:" ++ id ≠ kind.keyPrefix ++ id' := by
  intro h
  rw [← toList_inj, toList_append, toList_append] at h
  rcases kind with - | - <;> simp [MoveKind.keyPrefix] at h

omit [PeriodStore π] in
theorem keyPrefix_inj {kind kind' : MoveKind} {id id' : String}
    (h : kind.keyPrefix ++ id = kind'.keyPrefix ++ id') : id = id' := by
  rw [← toList_inj, toList_append, toList_append] at h
  rw [← toList_inj]
  rcases kind with - | - <;> rcases kind' with - | - <;> simp [MoveKind.keyPrefix] at h <;> exact h

variable {loan : LoanRecord} {command : PostCommand} {counterCode : String} {t : Turn π}

theorem creditBalance_posted {code : String} {amount : Int}
    (htenant : command.tenantId = ctx.tenant) (happends : s.ledger.Appends ctx.chart command)
    (hchar : Charges ctx.chart command loan counterCode amount)
    (hplac : Placed ctx.chart loan) {accounts : LoanAccounts ctx.chart}
    (hctr : counterCode ∉ accounts.codes) (hcode : code ∈ accounts.codes) :
    creditBalance ctx.chart ctx.tenant code (s.posted ctx command).ledger =
      creditBalance ctx.chart ctx.tenant code s.ledger -
        if loan.liabilityAccountCode = code then amount else 0 := by
  obtain ⟨account, hacc, htype⟩ := accounts.liability code hcode
  have hint : code ≠ loan.interestAccountCode := by
    rintro rfl
    obtain ⟨a, ha, hexp⟩ := hplac.interest
    rw [hacc] at ha
    rw [some.inj ha, hexp] at htype
    cases htype
  have hother : code ≠ counterCode := fun heq => hctr (heq ▸ hcode)
  have hnet := hchar code account hacc hother hint
  have hbalance := Ledger.balanceOf_posted ⟨ctx.clock.postedAt⟩ happends account.id
  rw [htenant, hnet] at hbalance
  unfold creditBalance Stores.posted
  rw [hacc]
  dsimp only
  rw [hbalance, Int.neg_add, Int.sub_eq_add_neg]

omit [PeriodStore π] in
theorem getLoan_ne_none_saveLoan (own : DebtStore) (loan : LoanRecord) {id : String}
    (h : own.getLoan tenant id ≠ none) : (own.saveLoan tenant loan).getLoan tenant id ≠ none := by
  rw [getLoan_saveLoan]
  split_ifs
  · exact some_ne_none _
  · exact h

omit [PeriodStore π] in
theorem forall_getLoan_saveLoan {P : LoanRecord → Prop} {own : DebtStore} (hloan : P loan)
    (h : ∀ id l, own.getLoan tenant id = some l → P l) (id : String) (l : LoanRecord)
    (hget : (own.saveLoan tenant loan).getLoan tenant id = some l) : P l := by
  rw [getLoan_saveLoan] at hget
  split_ifs at hget
  · rw [← some.inj hget]
    exact hloan
  · exact h id l hget

omit [PeriodStore π] in
theorem sound_filed {accounts : LoanAccounts ctx.chart} (h : Sound accounts ctx.tenant s)
    (hfiled : FiledLoan ctx s.own loan)
    (hapart : Plan.Apart accounts ctx.tenant s.own counterCode (.file loan)) :
    Sound accounts ctx.tenant { s with own := s.own.saveLoan ctx.tenant loan } := by
  obtain ⟨-, hfol⟩ := hapart
  have howed : ∀ code, owed ctx.tenant code (s.own.saveLoan ctx.tenant loan) =
      owed ctx.tenant code s.own := by
    intro code
    rcases hget : s.own.getLoan ctx.tenant loan.id with - | old
    · rw [hget] at hfol
      have hzero : loan.currentPrincipalMinor = 0 := hfol
      rw [owed_saveLoan_new hget, hzero, ite_self, Int.add_zero]
    · rw [hget] at hfol
      rw [owed_saveLoan_again loan hget hfol, hfiled.kept old hget, Int.sub_self, ite_self,
        Int.add_zero]
  have howes : 0 ≤ loan.currentPrincipalMinor := by
    rcases hget : s.own.getLoan ctx.tenant loan.id with - | old
    · exact hfiled.owes hget
    · rw [hfiled.kept old hget]
      exact h.owes loan.id old hget
  refine ⟨fun code hcode => ?_, forall_getLoan_saveLoan howes h.owes,
    forall_getLoan_saveLoan hfiled.placed h.placed, fun id hkey => ?_, h.moved⟩
  · rw [howed]
    exact h.ties code hcode
  · exact getLoan_ne_none_saveLoan s.own loan (h.opened id hkey)

theorem sound_opened {accounts : LoanAccounts ctx.chart} (h : Sound accounts ctx.tenant s)
    (hopened : OpenedLoan ctx s.own counterCode loan command)
    (happends : s.ledger.Appends ctx.chart command)
    (hapart : Plan.Apart accounts ctx.tenant s.own counterCode (.opened loan command)) :
    Sound accounts ctx.tenant
      { s.posted ctx command with own := s.own.saveLoan ctx.tenant loan } := by
  obtain ⟨-, hctr⟩ := hapart
  refine ⟨fun code hcode => ?_, forall_getLoan_saveLoan hopened.owes.le h.owes,
    forall_getLoan_saveLoan hopened.placed h.placed, fun id hkey => ?_, fun kind id hkey => ?_⟩
  · dsimp only
    rw [creditBalance_posted hopened.tenant happends hopened.charges hopened.placed hctr hcode,
      owed_saveLoan_new hopened.fresh, h.ties code hcode]
    split_ifs <;> omega
  · rcases Stores.key_posted hopened.tenant happends hkey with hsame | hold
    · rw [hopened.key] at hsame
      have hid : id = loan.id := (append_right_inj _).mp hsame
      dsimp only
      rw [getLoan_saveLoan, if_pos hid]
      exact some_ne_none _
    · exact getLoan_ne_none_saveLoan s.own loan (h.opened id hold)
  · rcases Stores.key_posted hopened.tenant happends hkey with hsame | hold
    · rw [hopened.key] at hsame
      exact absurd hsame.symm (keyPrefix_ne kind loan.id id)
    · exact h.moved kind id hold

theorem sound_moved {m : LoanMove} {accounts : LoanAccounts ctx.chart}
    (h : Sound accounts ctx.tenant s) (hmov : MovedLoan ctx s.own counterCode m)
    (happends : s.ledger.Appends ctx.chart m.command)
    (hapart : Plan.Apart accounts ctx.tenant s.own counterCode (.move m)) (e : EntryId) :
    Sound accounts ctx.tenant { s.posted ctx m.command with
      own := (s.own.saveLoan ctx.tenant m.updated).savePayment ctx.tenant (m.record e) } := by
  have howes := h.owes m.loan.id m.loan hmov.found
  have hplac := h.placed m.loan.id m.loan hmov.found
  have hwin := hmov.within howes
  have hupd : 0 ≤ m.updated.currentPrincipalMinor := by
    unfold LoanMove.updated
    dsimp only
    omega
  have hid : (m.record e).id = m.draft.id := by rw [hmov.record]
  refine ⟨fun code hcode => ?_, forall_getLoan_saveLoan hupd h.owes,
    forall_getLoan_saveLoan ⟨hplac.liability, hplac.interest⟩ h.placed, fun id hkey => ?_,
    fun kind id hkey => ?_⟩
  -- the entry and the loan row move the code by the same amount
  · have howed : owed ctx.tenant code (s.own.saveLoan ctx.tenant m.updated) =
        owed ctx.tenant code s.own + if m.loan.liabilityAccountCode = code then
          m.updated.currentPrincipalMinor - m.loan.currentPrincipalMinor else 0 :=
      owed_saveLoan_again m.updated hmov.found rfl code
    have hcharg := creditBalance_posted hmov.tenant happends (hmov.charges howes) hplac hapart
      hcode
    change creditBalance ctx.chart ctx.tenant code (s.posted ctx m.command).ledger =
      owed ctx.tenant code (s.own.saveLoan ctx.tenant m.updated)
    rw [hcharg, howed, h.ties code hcode]
    unfold LoanMove.updated
    dsimp only
    split_ifs <;> omega
  · rcases Stores.key_posted hmov.tenant happends hkey with hsame | hold
    · rw [hmov.key] at hsame
      exact absurd hsame (keyPrefix_ne m.draft.kind id m.draft.id)
    · exact getLoan_ne_none_saveLoan s.own m.updated (h.opened id hold)
  · dsimp only
    rw [getPayment_savePayment, hid]
    split_ifs with hnew
    · exact some_ne_none _
    · rcases Stores.key_posted hmov.tenant happends hkey with hsame | hold
      · rw [hmov.key] at hsame
        exact absurd (keyPrefix_inj hsame) hnew
      · exact h.moved kind id hold

omit [PeriodStore π] in
theorem not_answers {plan : Plan} {accounts : LoanAccounts ctx.chart}
    (h : Sound accounts ctx.tenant s) (hplan : plan.Sound ctx s.own counterCode)
    (hcommand : plan.command = some command) (e : PostedEntry) : ¬ s.ledger.Answers command e := by
  intro hanswers
  cases plan with
  | file loan => cases hcommand
  | seen loanId kind record => cases hcommand
  | opened loan command' =>
    obtain rfl := some.inj hcommand
    have hopened : OpenedLoan ctx s.own counterCode loan command' := hplan
    refine h.opened loan.id ?_ hopened.fresh
    rw [← hopened.key, ← hopened.tenant, hanswers.1]
    exact some_ne_none _
  | move m =>
    obtain rfl := some.inj hcommand
    have hmov : MovedLoan ctx s.own counterCode m := hplan
    refine h.moved m.draft.kind m.draft.id ?_ hmov.fresh
    rw [← hmov.key, ← hmov.tenant, hanswers.1]
    exact some_ne_none _

theorem LoanCall.sound_step {call : LoanCall tenant chart} (h : Sound accounts tenant t.stores)
    (hapart : call.Apart accounts t) : Sound accounts tenant (call.step t).stores ∧
      (call.OwnId t → (call.step t).Filed tenant) := by
  obtain ⟨ctx, rfl, rfl, r⟩ := call
  have hturns := turns ctx t.stores r
  have hapart := onOk_iff.mp hapart
  unfold LoanCall.step LoanCall.OwnId
  rw [onOk_iff]
  dsimp only at h hapart ⊢
  generalize (r.program ctx).run exec t.stores = end_ at hturns ⊢
  have hnoth : ∀ {s' : Stores π DebtStore}, (⟨s', none⟩ : Turn π).Filed ctx.tenant :=
    fun {_} receipt hmem => absurd hmem (not_mem_none receipt)
  cases hturns with
  | refused e => exact ⟨h, fun _ => hnoth⟩
  | @filed loan hplan =>
    have hfiled : FiledLoan ctx t.stores.own loan := sound_plan hplan
    exact ⟨sound_filed h hfiled (hapart _ hplan), fun _ => hnoth⟩
  | @opened loan command hplan happends =>
    have hopened : OpenedLoan ctx t.stores.own r.counterCode loan command := sound_plan hplan
    exact ⟨sound_opened h hopened happends (hapart _ hplan), fun _ => hnoth⟩
  | @seen loanId kind record hplan =>
    refine ⟨h, fun hown receipt hmem => ?_⟩
    obtain rfl := some.inj hmem
    obtain ⟨id, hget⟩ := sound_plan hplan
    obtain ⟨hloanId, hkind⟩ := hown _ hplan
    exact ⟨id, record, hget, hloanId, hkind, rfl⟩
  | @moved m hplan happends =>
    have hmov : MovedLoan ctx t.stores.own r.counterCode m := sound_plan hplan
    refine ⟨sound_moved h hmov happends (hapart _ hplan) _, fun _ receipt hmem => ?_⟩
    obtain rfl := some.inj hmem
    generalize (t.stores.entryOf ctx m.command).id = e
    have hrec := hmov.record e
    have hsav := getPayment_savePayment (t.stores.own.saveLoan ctx.tenant m.updated) ctx.tenant
      (m.record e) (m.record e).id
    rw [if_pos rfl] at hsav
    refine ⟨(m.record e).id, m.record e, hsav, ?_, ?_, ?_⟩
    · rw [hrec]
    · rw [hrec]
    · rw [hrec]
  | @unknown plan command hplan hcommand e hanswers =>
    exact absurd hanswers (not_answers h (sound_plan hplan) hcommand e)

/-- Before any loan is opened: nothing on file, no entry of the flows, nothing on the accounts. -/
structure Untouched (accounts : LoanAccounts chart) (tenant : TenantId) (t : Turn π) : Prop where
  loans : ∀ id, t.stores.own.getLoan tenant id = none
  codes : ∀ code ∈ accounts.codes, creditBalance chart tenant code t.stores.ledger = 0
  opened : ∀ id, t.stores.ledger.store.getByIdempotencyKey tenant ("loan-open:" ++ id) = none
  moved : ∀ (kind : MoveKind) id,
    t.stores.ledger.store.getByIdempotencyKey tenant (kind.keyPrefix ++ id) = none
  answer : t.answer = none

omit [PeriodStore π] in
theorem sound_of_untouched (h : Untouched accounts tenant t) : Sound accounts tenant t.stores := by
  have hnone : ∀ {id loan}, t.stores.own.getLoan tenant id ≠ some loan := by
    intro id loan hget
    rw [h.loans id] at hget
    cases hget
  have howed : ∀ code, owed tenant code t.stores.own = 0 := by
    intro code
    unfold owed total
    refine List.sum_eq_zero fun n hn => ?_
    obtain ⟨⟨key, loan⟩, hmem, rfl⟩ := List.mem_map.mp hn
    refine if_neg fun hkey => ?_
    have hget := mem_entries.mp hmem
    have hloan : t.stores.own.getLoan tenant key.2 = some loan := by
      rw [← hkey.1]
      exact hget
    exact hnone hloan
  refine ⟨fun code hcode => ?_, fun id loan hget => absurd hget hnone,
    fun id loan hget => absurd hget hnone, fun id hkey => absurd (h.opened id) hkey,
    fun kind id hkey => absurd (h.moved kind id) hkey⟩
  rw [h.codes code hcode, howed]

end

namespace Sample

def chart : ChartOfAccounts :=
  (ChartOfAccounts.ofAccounts
    [Kernel.Sample.account "cash" "1000" .asset, Kernel.Sample.account "loans" "2700" .liability,
      Kernel.Sample.account "interest" "6950" .expense]).toOption.getD .empty

def accounts : LoanAccounts chart where
  codes := {"2700"}
  liability := by
    intro code hcode
    rw [Finset.mem_singleton.mp hcode]
    exact ⟨⟨"loans", "2700", "2700", .liability, usd, none, none, some true, none⟩,
      by decide +kernel⟩

def context : FlowContext where
  tenant := "acme"
  chart := chart
  currency := usd
  clock := ⟨"2026-03-01T09:00:00Z", "2026-03-01T09:00:00Z"⟩
  letters := asciiLetters

def call (request : LoanRequest) : LoanCall "acme" chart := ⟨context, rfl, rfl, request⟩

def start : Turn (InMemoryPeriodStore TenantId PeriodKey) := ⟨⟨⟨.empty, .empty⟩, .empty⟩, none⟩

/-- A line of credit of a thousand dollars at six per cent, paid out to the bank. -/
def credit (id : String) : LoanCall "acme" chart :=
  call (.save ⟨some id, none, some "line_of_credit", some (.text "100000"), some (.text "60000"),
    some "2026-01-01", none, none, none, none, none, none, none, some "1000", none⟩)

def payment (id loanId amount : String) : LoanCall "acme" chart :=
  call (.payment ⟨some id, some loanId, some "2026-02-01", some (.text amount), none, none⟩)

def draw (id loanId amount : String) : LoanCall "acme" chart :=
  call (.draw ⟨some id, some loanId, some "2026-02-15", some (.text amount), none, none⟩)

def sharedId : List (LoanCall "acme" chart) :=
  [credit "L1", credit "L2", payment "p1" "L1" "20000", payment "p1" "L2" "30000"]

theorem untouched : Untouched accounts "acme" start := by
  refine ⟨fun _ => rfl, fun code hcode => ?_, fun _ => rfl, fun _ _ => rfl, rfl⟩
  rw [Finset.mem_singleton.mp hcode]
  decide +kernel

end Sample

section
variable {π : Type} [PeriodStore π] {tenant : TenantId} {chart : ChartOfAccounts}
variable {accounts : LoanAccounts chart}

/-- The loans tie out after every call, nothing is owed below zero, and what a payment or a draw was
answered is on file, as long as ids are not shared between loans or between the two kinds. -/
theorem loans_tie_out (t : Turn π) (h : Untouched accounts tenant t)
    (calls : List (LoanCall tenant chart))
    (hapart : EachStep LoanCall.step (LoanCall.Apart accounts) t calls)
    (hown : EachStep LoanCall.step LoanCall.OwnId t calls) :
    Along LoanCall.step (fun t => TiesOut accounts tenant t.stores ∧
      NothingNegative tenant t.stores ∧ t.Filed tenant) t calls := by
  have hstart : Sound accounts tenant t.stores ∧ t.Filed tenant := by
    refine ⟨sound_of_untouched h, fun receipt hmem => ?_⟩
    rw [h.answer] at hmem
    cases hmem
  have hsteps : EachStep LoanCall.step (fun (t : Turn π) (call : LoanCall tenant chart) =>
      call.Apart accounts t ∧ call.OwnId t) t calls :=
    fun pre call hpre => ⟨hapart pre call hpre, hown pre call hpre⟩
  have halong : Along LoanCall.step (fun t => Sound accounts tenant t.stores ∧ t.Filed tenant) t
      calls := by
    refine along_of_eachStep
      (G := fun t : Turn π => Sound accounts tenant t.stores ∧ t.Filed tenant)
      (fun t call hG hcall => ?_) hstart hsteps
    obtain ⟨hsound, hfiled⟩ := LoanCall.sound_step hG.1 hcall.1
    exact ⟨hsound, hfiled hcall.2⟩
  exact along_imp (fun t hG => ⟨hG.1.ties, hG.1.owes, hG.2⟩) halong

end

theorem payments_of_credit : Along LoanCall.step (fun t => TiesOut Sample.accounts "acme" t.stores ∧
    NothingNegative "acme" t.stores ∧ t.Filed "acme") Sample.start
      [Sample.credit "L1", Sample.payment "p1" "L1" "20000", Sample.draw "d1" "L1" "5000",
        Sample.payment "p1" "L1" "20000"] := by
  refine loans_tie_out Sample.start Sample.untouched _ ?_ ?_
  · refine eachStep_cons.mpr ⟨by decide +kernel, eachStep_cons.mpr ⟨by decide +kernel, ?_⟩⟩
    exact eachStep_cons.mpr ⟨by decide +kernel, eachStep_cons.mpr ⟨by decide +kernel, eachStep_nil⟩⟩
  · refine eachStep_cons.mpr ⟨by decide +kernel, eachStep_cons.mpr ⟨by decide +kernel, ?_⟩⟩
    exact eachStep_cons.mpr ⟨by decide +kernel, eachStep_cons.mpr ⟨by decide +kernel, eachStep_nil⟩⟩

theorem payment_under_other_loans_id :
    EachStep LoanCall.step (LoanCall.Apart Sample.accounts) Sample.start
        Sample.sharedId ∧
      ¬ Along LoanCall.step (fun t => TiesOut Sample.accounts "acme" t.stores ∧
        NothingNegative "acme" t.stores ∧ t.Filed "acme") Sample.start Sample.sharedId := by
  constructor
  · refine eachStep_cons.mpr ⟨by decide +kernel, eachStep_cons.mpr ⟨by decide +kernel, ?_⟩⟩
    exact eachStep_cons.mpr ⟨by decide +kernel, eachStep_cons.mpr ⟨by decide +kernel, eachStep_nil⟩⟩
  · intro h
    obtain ⟨-, -, hfiled⟩ := h _ List.prefix_rfl
    obtain ⟨id, record, hget, hloanId, -⟩ :=
      hfiled ⟨"L2", .payment, "acme:3"⟩ (by decide +kernel)
    have hall : ∀ e ∈ (Sample.sharedId.foldl LoanCall.step
        Sample.start).stores.own.payments.entries, e.2.loanId ≠ "L2" := by
      decide +kernel
    exact hall _ (mem_entries.mpr hget) hloanId

end Rgnr8.Service.Debt
