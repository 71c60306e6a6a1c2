import Rgnr8.Lib.Run
import Rgnr8.Platform.BillingService

/-! A billing period is invoiced once. What a repeated close returns is rebuilt from the account as
it is then, so it is the finalized invoice only while the plan, the tenants over it and the minutes
of the period are what they were. -/

namespace Rgnr8.Platform.Billing
open Lib Lib.Py Forecast BillingService List

/-! What an invoice shows of the account. -/

def overageLines (description : String) (quantity : Int) (rate : Money) : List InvoiceLine :=
  if 0 < quantity then [⟨description, quantity, rate, rate.minorUnits * quantity, rate.currency⟩]
  else []

theorem foldlM_plus {lines : List InvoiceLine} {currency : String}
    (h : ∀ line ∈ lines, line.amount.currency = currency) (n : Int) :
    lines.foldlM (fun (sum : Money) line => sum.plus line.amount) ⟨n, currency⟩ =
      .ok ⟨n + (lines.map fun line => line.amount.minorUnits).sum, currency⟩ := by
  induction lines generalizing n with
  | nil => simp [pure, Except.pure]
  | cons line lines ih =>
    rw [forall_mem_cons] at h
    rw [foldlM_cons, Money.plus, if_neg (fun hne => hne h.1.symm)]
    show foldlM _ _ _ = _
    rw [ih h.2, map_cons, sum_cons, Int.add_assoc]

def invoiceLines (plan : Plan) (account : Account) (usage : UsageSummary) : List InvoiceLine :=
  [⟨plan.name ++ " plan — " ++ account.name, 1, plan.basePrice, plan.basePrice⟩] ++
    overageLines s!"Analyst minutes over {plan.includedAnalystMinutes} bundled"
      (overMinutes plan usage) plan.analystMinuteRate ++
    overageLines s!"Additional businesses over {plan.includedTenants} included"
      (overTenants plan account) plan.extraTenantRate

def invoiceOf (account : Account) (usage : UsageSummary) : Invoice :=
  let lines := invoiceLines (planFor account.tier) account usage
  let total : Money := ⟨(lines.map fun line => line.amount.minorUnits).sum, "USD"⟩
  ⟨account.id, usage.period, "USD", lines, total, total⟩

inductive MeterCall where
  | recordUsage (accountId : String) (kind : UsageKind) (quantity : Int)
      (period tenantId note : String) (answer : Option String)
  | changePlan (accountId : String) (newTier : Tier) (answer : Option String)
  | attachTenant (accountId tenantId : String)
  | detachTenant (accountId tenantId : String)
  | closePeriod (accountId period : String) (answer : Option String)

def MeterCall.exec (s : BillingService) (now : Int) : MeterCall → BillingService
  | .recordUsage accountId kind quantity period tenantId note answer =>
    (s.recordUsage now accountId kind quantity period tenantId note answer).2
  | .changePlan accountId newTier answer => (s.changePlan now accountId newTier answer).2
  | .attachTenant accountId tenantId => (s.attachTenant accountId tenantId).2
  | .detachTenant accountId tenantId => (s.detachTenant accountId tenantId).2
  | .closePeriod accountId period answer => (s.closePeriod accountId period answer).2

def minutesIn (s : BillingService) (accountId period : String) : List UsageEvent :=
  s.store.usage.filter fun e =>
    e.accountId = accountId ∧ e.period = period ∧ e.kind = .analystMinutes

structure Finalization where
  account : Account
  period : String
  minutes : List UsageEvent
  deriving DecidableEq

def Finalization.invoice (f : Finalization) : Invoice :=
  invoiceOf f.account ⟨f.account.id, f.period, (f.minutes.map UsageEvent.quantity).sum, 0, 0, 0⟩

structure Metering where
  service : BillingService
  finalizations : List Finalization
  returned : List Invoice

def Metering.start (store : AccountStore) (graceDays : Int) : Metering :=
  ⟨.start store graceDays, [], []⟩

namespace Metering

variable (s : Metering)

local instance lawfulPair : LawfulBEq (String × String) := inferInstance

def finalizes (accountId period : String) : List Finalization :=
  match s.service.store.getAccount accountId with
  | none => []
  | some acct =>
    if (accountId, period) ∈ s.service.closed then []
    else [⟨acct, period, minutesIn s.service accountId period⟩]

def step (call : Int × MeterCall) : Metering :=
  let service := call.2.exec s.service call.1
  match call.2 with
  | .closePeriod accountId period answer =>
    { service
      finalizations := s.finalizations ++ s.finalizes accountId period
      returned := s.returned ++
        (s.service.closePeriod accountId period answer).1.toOption.toList }
  | _ => { s with service }

/-- Once the invoice of a period is finalized no analyst minutes are recorded for it, and it is
closed again only after the provider had answered, with the plan and the tenants over it as they
were. -/
def Settled (call : Int × MeterCall) : Prop :=
  match call.2 with
  | .recordUsage accountId kind _ period _ _ _ =>
    kind = .analystMinutes →
      ∀ acct, s.service.store.getAccount accountId = some acct → acct.Live →
        ∀ f ∈ s.finalizations, ¬ (f.account.id = accountId ∧ f.period = period)
  | .closePeriod accountId period _ =>
    ∀ acct, s.service.store.getAccount accountId = some acct →
      ∀ f ∈ s.finalizations, f.account.id = accountId → f.period = period →
        (accountId, period) ∈ s.service.closed ∧ acct.tier = f.account.tier ∧
          overTenants (planFor acct.tier) acct =
            overTenants (planFor f.account.tier) f.account
  | _ => True

structure Traced (s : Metering) : Prop where
  finalized : s.service.finalized = s.finalizations.map Finalization.invoice
  closed : ∀ accountId period, (accountId, period) ∈ s.service.closed →
    ∃ f ∈ s.finalizations, f.account.id = accountId ∧ f.period = period
  named : ∀ f ∈ s.finalizations, ∃ acct,
    s.service.store.getAccount f.account.id = some acct ∧ acct.name = f.account.name

end Metering

/-! One call of the service. -/

namespace BillingService

/-- What a call on an account leaves as it is for the invoices. -/
structure Steady (s s' : BillingService) : Prop where
  finalized : s'.finalized = s.finalized
  closed : s'.closed = s.closed
  usage : s'.store.usage = s.store.usage
  named : ∀ {id acct}, s.store.getAccount id = some acct →
    ∃ acct', s'.store.getAccount id = some acct' ∧ acct'.name = acct.name

variable (s : BillingService)

end BillingService

/-! One call of a run. -/

namespace Metering
variable {s : Metering}

variable {service : BillingService}

theorem Traced.append (h : Traced s) (event : UsageEvent) : Traced { s with service :=
      { s.service with store := s.service.store.appendUsage event } } :=
  ⟨h.finalized, h.closed, h.named⟩

structure Finalizes (s s' : Metering) (f : Finalization) : Prop where
  store : s'.service.store = s.service.store
  finalized : s'.service.finalized = s.service.finalized ++ [f.invoice]
  finalizations : s'.finalizations = s.finalizations ++ [f]
  returned : ∀ inv ∈ s'.returned, inv ∈ s.returned ∨ inv = f.invoice
  closed : ∀ pair ∈ s'.service.closed, pair ∈ s.service.closed ∨ pair = (f.account.id, f.period)

theorem Traced.finalizes (h : Traced s) {s' : Metering} {f : Finalization}
    (hf : Finalizes s s' f) (hacct : s.service.store.getAccount f.account.id = some f.account) :
    Traced s' := by
  refine ⟨?_, ?_, ?_⟩
  · rw [hf.finalized, hf.finalizations, map_append, h.finalized]
    rfl
  · intro accountId period hclo
    rw [hf.finalizations]
    rcases hf.closed _ hclo with hclo | hpair
    · obtain ⟨g, hg, hpair⟩ := h.closed accountId period hclo
      exact ⟨g, mem_append_left _ hg, hpair⟩
    · obtain ⟨hid, hper⟩ := Prod.mk.inj hpair
      exact ⟨f, mem_append_right _ mem_cons_self, hid.symm, hper.symm⟩
  · intro g hg
    rw [hf.finalizations] at hg
    rw [hf.store]
    rcases mem_append.mp hg with hg | hg
    · exact h.named g hg
    · rw [mem_singleton.mp hg]
      exact ⟨f.account, hacct, rfl⟩

end Metering

/-! An account on the assisted plan. -/

end Rgnr8.Platform.Billing
