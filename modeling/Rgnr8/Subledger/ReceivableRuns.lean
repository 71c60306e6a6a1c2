import Rgnr8.Subledger.ReceivableTies

/-! The receivables against the ledger: where no paid invoice is paid or written off again, every
event can be posted and the control account holds what is open. -/

namespace Rgnr8.Subledger.Receivable
open Lib Kernel

/-- The accounts of the mapping take postings, and the control account is none of the others. -/
structure AccountsReady (map : SubledgerAccounts) (coa : ChartOfAccounts) (currency : Currency) :
    Prop where
  active : ∀ id ∈ [map.arControl, map.revenue, map.cash, map.badDebt], ∃ account,
    coa.get id = some account ∧ account.active ≠ some false ∧ account.currency.code = currency.code
  apart : map.arControl ∉ [map.revenue, map.cash, map.badDebt]

structure OpenTo {π : Type} [PeriodStore π] (ctx : PostingContext) (log : List AREvent)
    (ledger : Ledger π) : Prop where
  free : ∀ e ∈ log, ledger.store.getByIdempotencyKey ctx.tenantId s!"sub:{e.id}" = none
  unlocked : ∀ e ∈ log, PeriodStore.status ledger.periods ctx.tenantId
    (String.ofList (e.date.toList.take 7)) ≠ .locked

/-- The whole log can be posted and moves the control account by what is open, what is open on an
invoice is between nothing and its amount, and what is written off was written off. -/
structure Ties (π : Type) [PeriodStore π] (map : SubledgerAccounts) (coa : ChartOfAccounts)
    (ctx : PostingContext) (opts : PostOptions) (s : ARSubledger) : Prop where
  posts : ∀ ledger : Ledger π, OpenTo ctx s.log ledger → ∃ entries t balance,
    (postAll coa opts (toARPostingCommands s.log map ctx)).run LedgerCall.exec ledger =
        (.ok entries, t) ∧
      s.controlBalance = .ok balance ∧
      balanceOf map.arControl (t.journal ctx.tenantId) =
        balanceOf map.arControl (ledger.journal ctx.tenantId) + balance.minorUnits
  within : ∀ id inv, s.invoices.get? id = some inv →
    0 ≤ inv.openAmount.minorUnits ∧ inv.openAmount.minorUnits ≤ inv.originalAmount.minorUnits
  written : ∀ id inv, s.invoices.get? id = some inv → inv.status = .writtenOff →
    ∃ e ∈ s.log, e.kind = .writeOff ∧ e.invoiceId = id ∧ 0 < e.amount.minorUnits

section
variable {map : SubledgerAccounts} {coa : ChartOfAccounts} {ctx : PostingContext} {e : AREvent}

theorem postable_commandOf (hready : AccountsReady map coa ctx.currency)
    (hposv : 0 < e.amount.minorUnits) (hcode : e.amount.currency.code = ctx.currency.code) :
    validateAndBuildLines (commandOf map ctx e).lines (commandOf map ctx e).currency coa =
      .ok (commandOf map ctx e).lines := by
  have hline : ∀ id ∈ [map.arControl, map.revenue, map.cash, map.badDebt], ∀ side,
      LineOk ctx.currency coa ⟨id, side, e.amount, none, none⟩ := by
    intro id hid side
    obtain ⟨account, hget, hactive, hccy⟩ := hready.active id hid
    exact ⟨account, hget, hactive, hcode, hccy, hposv⟩
  have htwo : ∀ debit ∈ [map.arControl, map.revenue, map.cash, map.badDebt],
      ∀ credit ∈ [map.arControl, map.revenue, map.cash, map.badDebt],
      validateAndBuildLines [⟨debit, .debit, e.amount, none, none⟩,
        ⟨credit, .credit, e.amount, none, none⟩] ctx.currency coa =
        .ok [⟨debit, .debit, e.amount, none, none⟩, ⟨credit, .credit, e.amount, none, none⟩] := by
    intro debit hdebit credit hcr
    refine validateAndBuildLines_eq_ok.mpr ⟨le_rfl, ?_, rfl, rfl⟩
    rw [List.forall_mem_cons, List.forall_mem_singleton]
    exact ⟨hline debit hdebit .debit, hline credit hcr .credit⟩
  unfold commandOf
  cases e.kind
  · exact htwo _ (by simp) _ (by simp)
  · exact htwo _ (by simp) _ (by simp)
  · exact htwo _ (by simp) _ (by simp)

theorem netOn_commandOf (hready : AccountsReady map coa ctx.currency) (e : AREvent) :
    netOn map.arControl (commandOf map ctx e).lines = e.signed := by
  have hapart := hready.apart
  simp only [List.mem_cons, List.not_mem_nil, or_false, not_or] at hapart
  obtain ⟨hrev, hcash, hbad⟩ := hapart
  unfold commandOf AREvent.signed
  cases e.kind
  · simp [command, Ne.symm hrev, EntrySide.signed]
  · simp [command, Ne.symm hcash, EntrySide.signed]
  · simp [command, Ne.symm hbad, EntrySide.signed]

theorem key_commandOf (e : AREvent) : (commandOf map ctx e).idempotencyKey = s!"sub:{e.id}" := by
  unfold commandOf
  cases e.kind <;> rfl

theorem period_commandOf (e : AREvent) :
    (commandOf map ctx e).periodKey = String.ofList (e.date.toList.take 7) := by
  unfold commandOf
  cases e.kind <;> rfl

theorem tenant_commandOf (e : AREvent) : (commandOf map ctx e).tenantId = ctx.tenantId := by
  unfold commandOf
  cases e.kind <;> rfl

end

theorem sumMoney_eq_ok {currency : Currency} {items : List Money}
    (h : ∀ m ∈ items, m.currency.code = currency.code) : ∃ total,
      ARSubledger.sumMoney currency items = .ok total ∧ total.currency.code = currency.code ∧
        total.minorUnits = (items.map Money.minorUnits).sum := by
  cases items with
  | nil => exact ⟨_, rfl, rfl, rfl⟩
  | cons first rest =>
    rw [List.forall_mem_cons] at h
    obtain ⟨hfst, hrest⟩ := h
    show ∃ total, rest.foldlM Money.plus first = .ok total ∧ _
    rw [List.map_cons, List.sum_cons]
    induction rest generalizing first with
    | nil => exact ⟨first, rfl, hfst, (Int.add_zero _).symm⟩
    | cons m rest ih =>
      rw [List.forall_mem_cons] at hrest
      rw [List.foldlM_cons, Money.plus_of_code_eq (hfst.trans hrest.1.symm)]
      obtain ⟨total, hsum, hcode, htot⟩ :=
        ih ⟨first.minorUnits + m.minorUnits, first.currency⟩ hfst hrest.2
      refine ⟨total, hsum, hcode, ?_⟩
      rw [htot, List.map_cons, List.sum_cons, Int.add_assoc]

namespace ARSubledger
variable {π : Type} [PeriodStore π] {map : SubledgerAccounts} {coa : ChartOfAccounts}
variable {ctx : PostingContext} {s : ARSubledger}

theorem controlBalance_eq_ok (hs : s.Sound) : ∃ balance, s.controlBalance = .ok balance ∧
    balance.minorUnits = (s.log.map AREvent.signed).sum := by
  have hcodes : ∀ m ∈ s.invoices.values.map ARInvoice.openAmount,
      m.currency.code = s.currency.code := by
    intro m hm
    obtain ⟨inv, hinv, rfl⟩ := List.mem_map.mp hm
    obtain ⟨entry, hent, rfl⟩ := List.mem_map.mp hinv
    exact (hs.held _ _ (OrderedMap.mem_entries.mp hent)).currency
  obtain ⟨balance, hbalance, -, htot⟩ := sumMoney_eq_ok hcodes
  refine ⟨balance, hbalance, ?_⟩
  rw [htot, hs.control]
  unfold OrderedMap.values OrderedMap.total
  rw [List.map_map, List.map_map]
  rfl

theorem Sound.ties (hs : s.Sound) (hccy : s.currency = ctx.currency)
    (hready : AccountsReady map coa ctx.currency) (opts : PostOptions) :
    Ties π map coa ctx opts s := by
  refine ⟨fun ledger hledger => ?_, fun id inv hinv => ?_, fun id inv hinv hstatus => ?_⟩
  · obtain ⟨balance, hbalance, hsum⟩ := controlBalance_eq_ok hs
    have hkeys : (toARPostingCommands s.log map ctx).map PostCommand.idempotencyKey =
        (s.log.map AREvent.id).map ("sub:" ++ ·) := by
      unfold toARPostingCommands
      rw [List.map_map, List.map_map]
      exact List.map_congr_left fun e _ => key_commandOf e
    have hevent : ∀ {P : PostCommand → Prop}, (∀ e ∈ s.log, P (commandOf map ctx e)) →
        ∀ c ∈ toARPostingCommands s.log map ctx, P c := by
      intro P h c hc
      obtain ⟨e, he, rfl⟩ := List.mem_map.mp hc
      exact h e he
    obtain ⟨entries, t, hrun, hmov⟩ : ∃ entries t, (postAll coa opts
        (toARPostingCommands s.log map ctx)).run LedgerCall.exec ledger = (.ok entries, t) ∧ _ :=
      run_postAll (hevent fun e _ => tenant_commandOf e)
      (by
        rw [hkeys]
        exact hs.distinct.map fun a b hab => (String.append_right_inj "sub:").mp hab)
      (hevent fun e he => by
        rw [key_commandOf]
        exact hledger.free e he)
      (hevent fun e he => by
        rw [period_commandOf]
        exact hledger.unlocked e he)
      (hevent fun e he => by
        have hrec := hs.recorded e he
        exact postable_commandOf hready hrec.positive (hccy ▸ hrec.currency))
    refine ⟨entries, t, balance, hrun, hbalance, ?_⟩
    rw [hmov, hsum]
    unfold toARPostingCommands
    rw [List.map_map]
    exact congrArg (fun moves => _ + List.sum moves)
      (List.map_congr_left fun e _ => netOn_commandOf hready e)
  · have hheld := hs.held id inv hinv
    exact ⟨hheld.nonneg, hheld.le_original⟩
  · obtain ⟨-, e, he, hkind, hinvoice⟩ := (hs.held id inv hinv).written hstatus
    exact ⟨e, he, hkind, hinvoice, (hs.recorded e he).positive⟩

end ARSubledger

open ARSubledger in
/-- In a run of calls for positive amounts in the currency of the subledger, in which no paid invoice
is paid or written off, the receivables tie to the ledger throughout. -/
theorem receivables_tie {π : Type} [PeriodStore π] {map : SubledgerAccounts} {coa : ChartOfAccounts}
    {ctx : PostingContext} (opts : PostOptions) (hready : AccountsReady map coa ctx.currency)
    {calls : List Call} (hallowed : EachStep step Allowed (empty ctx.currency) calls) :
    Along step (Ties π map coa ctx opts) (empty ctx.currency) calls := by
  have halong := along_of_eachStep (G := fun s => s.Sound ∧ s.currency = ctx.currency)
    (fun s c hs hc => ⟨sound_step hs.1 hc, (currency_step s c).trans hs.2⟩)
    ⟨sound_empty ctx.currency, rfl⟩ hallowed
  exact along_imp (fun s hs => hs.1.ties hs.2 hready opts) halong

/-! An invoice for 100, of which 40 are paid and the rest is written off, and one that is paid twice. -/

namespace Invoiced

def map : SubledgerAccounts := ⟨"ar", "sales", "cash", "bad", none⟩

def coa : ChartOfAccounts := (ChartOfAccounts.ofAccounts [Kernel.Sample.account "ar" "1100" .asset,
  Kernel.Sample.account "sales" "4000" .revenue, Kernel.Sample.account "cash" "1000" .asset,
  Kernel.Sample.account "bad" "6100" .expense]).toOption.getD .empty

def ctx : PostingContext := ⟨"acme", usd⟩

theorem ready : AccountsReady map coa ctx.currency := by
  refine ⟨fun id hid => ?_, by decide⟩
  have hsome : ∀ id ∈ [map.arControl, map.revenue, map.cash, map.badDebt],
      ∃ account ∈ coa.get id, account.active ≠ some false ∧ account.currency.code = "USD" := by
    decide +kernel
  exact hsome id hid

def invoice : ARSubledger.Call :=
  .addInvoice ⟨"I1", "smith", "2026-03-01", "2026-03-31", ⟨100, usd⟩, false⟩

def payment (amount : Int) : ARSubledger.Call := .applyPayment ⟨"I1", "2026-03-20", ⟨amount, usd⟩⟩

def unlocked : Ledger (InMemoryPeriodStore TenantId PeriodKey) := ⟨.empty, .empty⟩

end Invoiced

open Invoiced ARSubledger in
theorem rest_is_written_off :
    Along step (Ties (InMemoryPeriodStore TenantId PeriodKey) map coa ctx ⟨""⟩) (empty usd)
      [invoice, payment 40, .writeOff "I1" "2026-06-30"] := by
  refine receivables_tie ⟨""⟩ ready (eachStep_cons.mpr ⟨?_, eachStep_cons.mpr ⟨?_,
    eachStep_cons.mpr ⟨?_, eachStep_nil⟩⟩⟩)
  · exact ⟨by decide, rfl⟩
  · refine ⟨⟨by decide, rfl⟩, fun inv hinv => ?_⟩
    have hstatus : ((step (empty usd) invoice).invoices.get? "I1").all
        (fun inv => inv.status ≠ .paid) = true := by decide
    exact of_decide_eq_true ((Option.all_eq_true ..).mp hstatus inv hinv)
  · intro inv hinv
    have hstatus : ((step (step (empty usd) invoice) (payment 40)).invoices.get? "I1").all
        (fun inv => inv.status ≠ .paid) = true := by decide
    exact of_decide_eq_true ((Option.all_eq_true ..).mp hstatus inv hinv)

open Invoiced ARSubledger in
theorem paid_invoice_cannot_be_paid_again :
    ¬ Along step (Ties (InMemoryPeriodStore TenantId PeriodKey) map coa ctx ⟨""⟩) (empty usd)
      [invoice, payment 100, payment 50] := by
  intro halong
  have hledger : OpenTo ctx ([invoice, payment 100, payment 50].foldl step (empty usd)).log
      unlocked := ⟨by decide +kernel, by decide +kernel⟩
  obtain ⟨entries, t, balance, hrun, -, -⟩ := (halong _ List.prefix_rfl).posts unlocked hledger
  have href : ((postAll coa ⟨""⟩ (toARPostingCommands
      ([invoice, payment 100, payment 50].foldl step (empty usd)).log map ctx)).run
        LedgerCall.exec unlocked).1 = .error (.nonPositiveAmount "cash") := by decide +kernel
  rw [hrun] at href
  cases href

end Rgnr8.Subledger.Receivable
