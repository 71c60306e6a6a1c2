import Rgnr8.Forecast.Flow

/-! Accounts, their plans and their metered usage: the subscription lifecycle and the invoice of a
period. Of the provider the model keeps what it answers (nothing, where it raises) and the invoices
it was asked to finalize. -/

namespace Rgnr8.Platform.Billing
open Lib Lib.Py Forecast

inductive Tier where
  | selfServe | assisted | coDelivery
  deriving DecidableEq

def Tier.value : Tier → String
  | .selfServe => "self_serve"
  | .assisted => "assisted"
  | .coDelivery => "co_delivery"

inductive Feature where
  | cash | briefing | register | close | package | askCfo | multiTenant | accountantSeat | apiAccess
  | prioritySupport
  deriving DecidableEq

structure Plan where
  tier : Tier
  name : String
  basePrice : Money
  includedTenants : Int
  includedSeats : Int
  includedAnalystMinutes : Int
  analystMinuteRate : Money
  extraTenantRate : Money
  features : List Feature

def Plan.has (plan : Plan) (feature : Feature) : Bool := plan.features.contains feature

def core : List Feature := [.cash, .briefing, .register, .close, .package, .askCfo]

def usd (minorUnits : Int) : Money := ⟨minorUnits, "USD"⟩

def planFor : Tier → Plan
  | .selfServe =>
    { tier := .selfServe, name := "Self-serve", basePrice := usd 19900, includedTenants := 1
      includedSeats := 3, includedAnalystMinutes := 0, analystMinuteRate := usd 300
      extraTenantRate := usd 14900, features := core }
  | .assisted =>
    { tier := .assisted, name := "Assisted", basePrice := usd 49900, includedTenants := 1
      includedSeats := 5, includedAnalystMinutes := 120, analystMinuteRate := usd 250
      extraTenantRate := usd 19900, features := core ++ [.prioritySupport] }
  | .coDelivery =>
    { tier := .coDelivery, name := "Co-delivery", basePrice := usd 99900, includedTenants := 5
      includedSeats := 10, includedAnalystMinutes := 600, analystMinuteRate := usd 200
      extraTenantRate := usd 14900
      features := core ++ [.multiTenant, .accountantSeat, .apiAccess, .prioritySupport] }

inductive AccountStatus where
  | trialing | active | pastDue | paused | canceled
  deriving DecidableEq

def AccountStatus.value : AccountStatus → String
  | .trialing => "trialing"
  | .active => "active"
  | .pastDue => "past_due"
  | .paused => "paused"
  | .canceled => "canceled"

structure Account where
  id : String
  name : String
  billingEmail : String
  tier : Tier
  status : AccountStatus
  tenantIds : List String
  seatsUsed : Int
  stripeCustomerId : Option String
  stripeSubscriptionId : Option String
  trialEnd : Option Int
  createdAt : Int
  deriving DecidableEq

namespace Account

variable (acct : Account)

def withStatus (status : AccountStatus) : Account := { acct with status }

def withTenant (tenantId : String) : Account :=
  if tenantId ∈ acct.tenantIds then acct
  else { acct with tenantIds := acct.tenantIds ++ [tenantId] }

def withoutTenant (tenantId : String) : Account :=
  { acct with tenantIds := acct.tenantIds.filter (· ≠ tenantId) }

def tenantCount : Int := acct.tenantIds.length

/-- `Entitlements.can_add_tenant` of the account's plan. -/
def canAddTenant : Bool :=
  (planFor acct.tier).has .multiTenant || acct.tenantCount < (planFor acct.tier).includedTenants

def Live : Prop := acct.status ≠ .canceled ∧ acct.status ≠ .paused

instance (acct : Account) : Decidable acct.Live := inferInstanceAs (Decidable (_ ∧ _))

end Account

/-! Usage and the invoice. -/

inductive UsageKind where
  | analystMinutes | briefingSent | apiCall | activeTenant
  deriving DecidableEq

structure UsageEvent where
  accountId : String
  kind : UsageKind
  quantity : Int
  period : String
  tenantId : String
  at_ : Int
  note : String
  deriving DecidableEq

structure UsageSummary where
  accountId : String
  period : String
  analystMinutes : Int
  briefingsSent : Int
  apiCalls : Int
  activeTenants : Int

def totalOf (accountId period : String) (events : List UsageEvent) (kind : UsageKind) : Int :=
  ((events.filter fun e => e.accountId = accountId ∧ e.period = period ∧ e.kind = kind).map
    UsageEvent.quantity).sum

def UsageSummary.summarize (accountId period : String) (events : List UsageEvent) :
    UsageSummary where
  accountId
  period
  analystMinutes := totalOf accountId period events .analystMinutes
  briefingsSent := totalOf accountId period events .briefingSent
  apiCalls := totalOf accountId period events .apiCall
  activeTenants := totalOf accountId period events .activeTenant

structure InvoiceLine where
  description : String
  quantity : Int
  unitAmount : Money
  amount : Money

structure Invoice where
  accountId : String
  period : String
  currency : String
  lines : List InvoiceLine
  subtotal : Money
  total : Money

def overMinutes (plan : Plan) (usage : UsageSummary) : Int :=
  max 0 (usage.analystMinutes - plan.includedAnalystMinutes)

def overTenants (plan : Plan) (account : Account) : Int :=
  max 0 (account.tenantCount - plan.includedTenants)

def overageLine (description : String) (quantity : Int) (rate : Money) :
    Except PyError (List InvoiceLine) := do
  if 0 < quantity then
    let amount ← rate.scaleBy quantity 1
    return [⟨description, quantity, rate, amount⟩]
  return []

def buildInvoice (account : Account) (plan : Plan) (usage : UsageSummary) :
    Except PyError Invoice := do
  let base : InvoiceLine :=
    ⟨plan.name ++ " plan — " ++ account.name, 1, plan.basePrice, plan.basePrice⟩
  let minutes ← overageLine s!"Analyst minutes over {plan.includedAnalystMinutes} bundled"
    (overMinutes plan usage) plan.analystMinuteRate
  let tenants ← overageLine s!"Additional businesses over {plan.includedTenants} included"
    (overTenants plan account) plan.extraTenantRate
  let lines := [base] ++ minutes ++ tenants
  let subtotal ← lines.foldlM (fun sum line => sum.plus line.amount)
    (Money.zero plan.basePrice.currency)
  return ⟨account.id, usage.period, plan.basePrice.currency, lines, subtotal, subtotal⟩

/-! The store. -/

inductive Backing where
  | memory | sql

/-- `[t for t in ",".join(tenant_ids).split(",") if t]` -/
def joinedAndSplit (tenantIds : List String) : List String :=
  ((((",".intercalate tenantIds).toList.splitOn ',').map String.ofList).filter (· ≠ ""))

def Backing.readBack : Backing → List String → List String
  | .memory, tenantIds => tenantIds
  | .sql, tenantIds => joinedAndSplit tenantIds

structure AccountStore where
  backing : Backing
  accounts : OrderedMap String Account
  usage : List UsageEvent
  keyed : ∀ {id acct}, accounts.get? id = some acct → acct.id = id

namespace AccountStore

variable (store : AccountStore)

def getAccount (accountId : String) : Option Account :=
  store.accounts.get? accountId

variable (acct : Account)

def stored : Account :=
  { acct with tenantIds := store.backing.readBack acct.tenantIds }

def saveAccount : AccountStore :=
  { store with
    accounts := store.accounts.set acct.id (store.stored acct)
    keyed := by
      intro id found h
      by_cases hid : id = acct.id
      · subst hid
        rw [OrderedMap.get?_set_self, Option.some.injEq] at h
        rw [← h, stored]
      · rw [OrderedMap.get?_set_ne _ _ hid] at h
        exact store.keyed h }

def appendUsage (event : UsageEvent) : AccountStore :=
  { store with usage := store.usage ++ [event] }

def usageFor (accountId period : String) : List UsageEvent :=
  store.usage.filter fun e => e.accountId = accountId ∧ e.period = period

theorem getAccount_saveAccount_self :
    (store.saveAccount acct).getAccount acct.id = some (store.stored acct) :=
  OrderedMap.get?_set_self ..

theorem getAccount_saveAccount_ne {acct : Account} {id : String} (h : id ≠ acct.id) :
    (store.saveAccount acct).getAccount id = store.getAccount id :=
  OrderedMap.get?_set_ne _ _ h

end AccountStore

/-! The service. -/

inductive PlanChangeKind where
  | upgrade | downgrade | lateral
  deriving DecidableEq

structure PlanChange where
  accountId : String
  fromTier : Tier
  toTier : Tier
  kind : PlanChangeKind
  at_ : Int

def cheaper (a b : Money) : Bool :=
  a.minorUnits < b.minorUnits || (a.minorUnits = b.minorUnits && a.currency < b.currency)

def classifyChange (fromPlan toPlan : Plan) : PlanChangeKind :=
  if cheaper fromPlan.basePrice toPlan.basePrice then .upgrade
  else if cheaper toPlan.basePrice fromPlan.basePrice then .downgrade
  else .lateral

inductive ServiceError where
  | billing (text : String)
  | entitlement (text : String)
  -- the provider raised
  | provider
  | money (e : PyError)

structure BillingService where
  store : AccountStore
  graceDays : Int
  closed : List (String × String)
  planChanges : List PlanChange
  graceStart : OrderedMap String Int
  -- the invoices that the provider was asked to finalize
  finalized : List Invoice

def BillingService.start (store : AccountStore) (graceDays : Int) : BillingService :=
  ⟨store, graceDays, [], [], OrderedMap.empty, []⟩

namespace BillingService

def day : Int := 86400

abbrev Outcome (α : Type) : Type := Except ServiceError α × BillingService

def save (s : BillingService) (acct : Account) : BillingService :=
  { s with store := s.store.saveAccount acct }

def require (s : BillingService) (accountId : String) : Except ServiceError Account :=
  match s.store.getAccount accountId with
  | none => .error (.billing s!"unknown account {accountId}")
  | some acct => .ok acct

def requireLive (acct : Account) : Except ServiceError Account :=
  if acct.status = .canceled ∨ acct.status = .paused then
    .error (.billing s!"account {acct.id} is {acct.status.value}")
  else .ok acct

/-- `answer` is the customer's id at the provider. -/
def createAccount (s : BillingService) (now : Int) (accountId name billingEmail : String)
    (tier : Tier) (trialDays : Int) (answer : Option String) : Outcome Account :=
  match answer with
  | none => (.error .provider, s)
  | some customerId =>
    let acct : Account :=
      { id := accountId, name, billingEmail, tier, status := .trialing, tenantIds := []
        seatsUsed := 0, stripeCustomerId := some customerId, stripeSubscriptionId := none
        trialEnd := if 0 < trialDays then some (now + trialDays * day) else none
        createdAt := now }
    (.ok acct, s.save acct)

def downgradeRefusal (accountId : String) (acct : Account) (newTier : Tier) : Option ServiceError :=
  let plan := planFor newTier
  if ¬ plan.has .multiTenant ∧ plan.includedTenants < acct.tenantCount then
    some (.entitlement (s!"cannot downgrade {accountId} to {newTier.value}: " ++
      s!"{acct.tenantCount} business(es) exceed the plan's " ++
      s!"{plan.includedTenants} included; remove businesses first"))
  else if plan.includedSeats < acct.seatsUsed then
    some (.entitlement (s!"cannot downgrade {accountId} to {newTier.value}: " ++
      s!"{acct.seatsUsed} seat(s) exceed the plan's " ++
      s!"{plan.includedSeats} included; remove seats first"))
  else none

def changePlan (s : BillingService) (now : Int) (accountId : String) (newTier : Tier)
    (answer : Option String) : Outcome Account :=
  match s.require accountId >>= requireLive with
  | .error e => (.error e, s)
  | .ok acct =>
    let kind := classifyChange (planFor acct.tier) (planFor newTier)
    match if kind = .downgrade then downgradeRefusal accountId acct newTier else none with
    | some e => (.error e, s)
    | none =>
      match answer with
      | none => (.error .provider, s)
      | some _ =>
        let moved := { acct with tier := newTier }
        let change : PlanChange := ⟨accountId, acct.tier, newTier, kind, now⟩
        (.ok moved, { s.save moved with planChanges := s.planChanges ++ [change] })

def cancel (s : BillingService) (now : Int) (accountId : String) (answer : Option String) :
    Outcome Account :=
  match s.require accountId with
  | .error e => (.error e, s)
  | .ok acct =>
    match answer with
    | none => (.error .provider, s)
    | some _ =>
      let canceled := acct.withStatus .canceled
      (.ok canceled, { s.save canceled with graceStart := s.graceStart.set accountId now })

def pause (s : BillingService) (now : Int) (accountId : String) : Outcome Account :=
  match s.require accountId with
  | .error e => (.error e, s)
  | .ok acct =>
    let paused := acct.withStatus .paused
    (.ok paused, { s.save paused with graceStart := s.graceStart.set accountId now })

/-- `_revive` -/
def revive (s : BillingService) (acct : Account) (answer : Option String) : Outcome Account :=
  match answer with
  | none => (.error .provider, s)
  | some _ =>
    let active := acct.withStatus .active
    (.ok active, { s.save active with
      graceStart := s.graceStart.filter fun id _ => id ≠ acct.id })

def resume (s : BillingService) (accountId : String) (answer : Option String) :
    Outcome Account :=
  match s.require accountId with
  | .error e => (.error e, s)
  | .ok acct =>
    if acct.status ≠ .paused then
      (.error (.billing s!"account {accountId} is not paused ({acct.status.value})"), s)
    else s.revive acct answer

def reactivate (s : BillingService) (now : Int) (accountId : String) (answer : Option String) :
    Outcome Account :=
  match s.require accountId with
  | .error e => (.error e, s)
  | .ok acct =>
    if acct.status ≠ .canceled ∧ acct.status ≠ .paused then
      (.error (.billing (s!"account {accountId} is {acct.status.value}; " ++
        "only canceled or paused accounts can be reactivated")), s)
    else
      let lapsed := (s.graceStart.get? accountId).any fun start =>
        decide (s.graceDays * day < now - start)
      if lapsed then
        (.error (.billing (s!"reactivation window for {accountId} has expired " ++
          s!"({s.graceDays}-day grace)")), s)
      else s.revive acct answer

def attachTenant (s : BillingService) (accountId tenantId : String) : Outcome Account :=
  match s.require accountId >>= requireLive with
  | .error e => (.error e, s)
  | .ok acct =>
    if tenantId ∉ acct.tenantIds ∧ ¬ acct.canAddTenant then
      let included := (planFor acct.tier).includedTenants
      (.error (.entitlement (s!"{acct.tier.value} plan allows {included} " ++
        "business(es); upgrade to add more")), s)
    else (.ok (acct.withTenant tenantId), s.save (acct.withTenant tenantId))

def detachTenant (s : BillingService) (accountId tenantId : String) : Outcome Account :=
  match s.require accountId with
  | .error e => (.error e, s)
  | .ok acct => (.ok (acct.withoutTenant tenantId), s.save (acct.withoutTenant tenantId))

def recordUsage (s : BillingService) (now : Int) (accountId : String) (kind : UsageKind)
    (quantity : Int) (period tenantId note : String) (answer : Option String) :
    Outcome UsageEvent :=
  match s.require accountId >>= requireLive with
  | .error e => (.error e, s)
  | .ok acct =>
    let event : UsageEvent := ⟨acct.id, kind, quantity, period, tenantId, now, note⟩
    let s' := { s with store := s.store.appendUsage event }
    match answer with
    | none => (.error .provider, s')
    | some _ => (.ok event, s')

def usageSummary (s : BillingService) (accountId period : String) : UsageSummary :=
  .summarize accountId period (s.store.usageFor accountId period)

def closePeriod (s : BillingService) (accountId period : String) (answer : Option String) :
    Outcome Invoice :=
  match s.require accountId with
  | .error e => (.error e, s)
  | .ok acct =>
    match buildInvoice acct (planFor acct.tier) (s.usageSummary accountId period) with
    | .error e => (.error (.money e), s)
    | .ok invoice =>
      if (accountId, period) ∈ s.closed then (.ok invoice, s)
      else
        let s' := { s with finalized := s.finalized ++ [invoice] }
        match answer with
        | none => (.error .provider, s')
        | some _ => (.ok invoice, { s' with closed := s.closed ++ [(accountId, period)] })

/-! Accounts found in the store. -/

variable {acct : Account} {s : BillingService} {id : String}

theorem require_eq_ok : s.require id = .ok acct ↔ s.store.getAccount id = some acct := by
  unfold require
  cases s.store.getAccount id with
  | none => exact iff_of_false (fun h => nomatch h) (fun h => nomatch h)
  | some found => rw [Except.ok.injEq, Option.some.injEq]

theorem requireLive_eq_ok {found : Account} :
    requireLive acct = .ok found ↔ acct.Live ∧ acct = found := by
  unfold requireLive Account.Live
  split_ifs with h
  · refine iff_of_false (fun h => nomatch h) ?_
    rintro ⟨⟨hcanc, hpaused⟩, -⟩
    exact h.elim hcanc hpaused
  · rw [not_or] at h
    rw [Except.ok.injEq, and_iff_right h]

theorem bind_requireLive_eq_ok :
    s.require id >>= requireLive = .ok acct ↔ s.store.getAccount id = some acct ∧ acct.Live := by
  cases hfound : s.require id with
  | error e =>
    have hnone : ¬ s.store.getAccount id = some acct := by
      rw [← require_eq_ok, hfound]
      exact fun h => nomatch h
    exact iff_of_false (fun h => nomatch h) (fun h => hnone h.1)
  | ok found =>
    show requireLive found = .ok acct ↔ _
    rw [requireLive_eq_ok, ← require_eq_ok, hfound, Except.ok.injEq]
    constructor
    · rintro ⟨hlive, rfl⟩
      exact ⟨rfl, hlive⟩
    · rintro ⟨rfl, hlive⟩
      exact ⟨hlive, rfl⟩

theorem id_of_getAccount (h : s.store.getAccount id = some acct) : acct.id = id := s.store.keyed h

end BillingService

end Rgnr8.Platform.Billing
