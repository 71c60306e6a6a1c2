import Rgnr8.Kernel.CoaTemplates
import Rgnr8.Kernel.Cutover
import Rgnr8.Lib.Javascript

/-! Go-live: a chart of accounts from a template and the source's own accounts, and the cutover
posted over it. -/

namespace Rgnr8.Kernel
open Lib

structure SourceAccount where
  code : String
  name : String
  balance : Money
  subtype : Option AccountSubtype
  type : Option AccountType

structure GoLiveRequest where
  tenantId : TenantId
  sourceSystem : SourceSystem
  cutoverDate : String
  currency : Currency
  coaCategory : Option BusinessCategory
  sourceAccounts : List SourceAccount
  openingBalanceEquityCode : String
  provenance : Provenance

/-- The list of the source and its index by code are one map: they hold the same accounts, and
what replaces an account takes its place. -/
structure GoLiveChart where
  accounts : CodedAccounts
  created : List Account

variable (request : GoLiveRequest)

def sourceOrigin : AccountOrigin :=
  if request.sourceSystem = .quickbooks then .quickbooks else .rgnr8

variable (src : SourceAccount)

def SourceAccount.placedType : Option AccountType :=
  match src.subtype with
  | some subtype => some (accountTypeOfSubtype subtype)
  | none => src.type

def newAccount (type : AccountType) : Account where
  id := accountIdFor src.code
  code := src.code
  name := src.name
  type := type
  currency := request.currency
  parentId := none
  subtype := src.subtype
  active := some true
  origin := some (sourceOrigin request)

theorem id_newAccount (type : AccountType) :
    (newAccount request src type).id = accountIdFor (newAccount request src type).code := rfl

def bringOver (chart : GoLiveChart) (src : SourceAccount) : Except CutoverFailure GoLiveChart :=
  match h : chart.accounts.byCode.get? src.code with
  | some existing =>
    -- the template already has this code: it is the source's account too
    if sourceOrigin request = .quickbooks ∧ existing.origin ≠ some .quickbooks then
      let marked : Account := { existing with origin := some (sourceOrigin request) }
      have hcoded : marked.id = accountIdFor marked.code := by
        obtain ⟨hcode, hid⟩ := chart.accounts.coded h
        exact hid.trans (congrArg accountIdFor hcode.symm)
      .ok { chart with accounts := chart.accounts.put marked hcoded }
    else .ok chart
  | none => match src.placedType with
    | none => .error (.cutover s!"source account {src.code} has neither a subtype nor a type")
    | some type => .ok {
        accounts := chart.accounts.put (newAccount request src type) (id_newAccount request src type)
        created := chart.created ++ [newAccount request src type] }

def openingEquityAccount : Account where
  id := accountIdFor request.openingBalanceEquityCode
  code := request.openingBalanceEquityCode
  name := "Opening Balance Equity"
  type := .equity
  currency := request.currency
  parentId := none
  subtype := some .equity
  active := some true
  origin := none

theorem id_openingEquityAccount :
    (openingEquityAccount request).id = accountIdFor (openingEquityAccount request).code := rfl

def ensureOpeningEquity (chart : GoLiveChart) : GoLiveChart :=
  if (chart.accounts.byCode.get? request.openingBalanceEquityCode).isSome then chart
  else
    { accounts := chart.accounts.put (openingEquityAccount request) (id_openingEquityAccount request)
      created := chart.created ++ [openingEquityAccount request] }

def templateOf : GoLiveChart where
  accounts := match request.coaCategory with
    | some category => templateAccounts category request.currency
    | none => .empty
  created := []

def buildGoLiveChart : Except CutoverFailure (ChartOfAccounts × List Account) := do
  let merged ← request.sourceAccounts.foldlM (bringOver request) (templateOf request)
  let chart := ensureOpeningEquity request merged
  let coa ← (ChartOfAccounts.ofAccounts chart.accounts.byCode.values).mapError .thrown
  return (coa, chart.created)

structure GoLiveResult where
  chart : ChartOfAccounts
  createdAccounts : List Account
  cutover : CutoverResult
  chartPersisted : Bool

/-- One after the other, or all of them or none. -/
inductive TransactionRunner where
  | sequentially | atomically

structure GoLiveOptions where
  chartStore : Bool
  transaction : TransactionRunner

inductive GoLiveCall where
  | ledger (c : LedgerCall)
  | saveChart (tenant : TenantId) (coa : ChartOfAccounts)

abbrev GoLiveCall.Answer : GoLiveCall → Type
  | ledger c => c.Answer
  | saveChart _ _ => Unit

/-- Where a go-live puts its chart, for good. -/
class ChartStore (K : Type) where
  saveChart : K → TenantId → ChartOfAccounts → K

abbrev InMemoryChartStore := OrderedMap TenantId ChartOfAccounts

instance : ChartStore InMemoryChartStore := ⟨fun charts tenant coa => charts.set tenant coa⟩

structure GoLiveStores (π K : Type) where
  ledger : Ledger π
  charts : K

def GoLiveCall.exec {π K : Type} [PeriodStore π] [ChartStore K] :
    (c : GoLiveCall) → GoLiveStores π K → c.Answer × GoLiveStores π K
  | ledger c, s => ((c.exec s.ledger).1, { s with ledger := (c.exec s.ledger).2 })
  | saveChart tenant coa, s => ((), { s with charts := ChartStore.saveChart s.charts tenant coa })

abbrev GoLiveProg := Prog GoLiveCall GoLiveCall.Answer CutoverFailure

def planOf : CutoverPlan where
  tenantId := request.tenantId
  sourceSystem := request.sourceSystem
  cutoverDate := request.cutoverDate
  currency := request.currency
  balances := request.sourceAccounts.map fun src => ⟨accountIdFor src.code, src.balance⟩
  openingBalanceEquityId := accountIdFor request.openingBalanceEquityCode
  provenance := request.provenance
  memo := some s!"Go-live from {request.sourceSystem.text}"

def persistChart (opts : GoLiveOptions) (tenant : TenantId) (coa : ChartOfAccounts) :
    GoLiveProg Unit :=
  if opts.chartStore then Prog.perform (GoLiveCall.saveChart tenant coa) else .ret ()

def executeGoLive (postedAt : String) (opts : GoLiveOptions) : GoLiveProg GoLiveResult := do
  Prog.refuseIf (request.sourceAccounts.length = 0)
    (.cutover "go-live has no source accounts to open with")
  let (chart, created) ← Prog.ofExcept (buildGoLiveChart request)
  -- the chart first, so that the entry never names an account that was not stored
  persistChart opts request.tenantId chart
  let cutover ← (executeCutover chart (planOf request) postedAt).interpret
    (fun c => Prog.perform (GoLiveCall.ledger c)) id
  return ⟨chart, created, cutover, opts.chartStore⟩

def goLive {π K : Type} [PeriodStore π] [ChartStore K] (postedAt : String) (opts : GoLiveOptions)
    (s : GoLiveStores π K) : Except CutoverFailure GoLiveResult × GoLiveStores π K :=
  match opts.transaction, (executeGoLive request postedAt opts).run GoLiveCall.exec s with
  | .atomically, (.error f, _) => (.error f, s)
  | _, ended => ended

/-! The `go-live/1` contract: a go-live as the operator sends it, in texts. -/

open Lib.Js

def goLiveContract : String := "go-live/1"

structure GoLiveDtoAccount where
  code : String
  name : String
  balanceMinor : String
  subtype : Option AccountSubtype
  type : Option AccountType

structure GoLiveDto where
  contract : String
  tenantId : String
  sourceSystem : String
  cutoverDate : String
  currency : String
  coaCategory : Option String
  openingBalanceEquityCode : String
  sourceAccounts : List GoLiveDtoAccount
  provenance : Option Provenance

namespace BusinessCategory

def all : List BusinessCategory :=
  [serviceGeneral, professionalServices, contractorTrades, retail, ecommerce, restaurant, realEstate,
    healthcarePractice, nonprofit]

def text : BusinessCategory → String
  | serviceGeneral => "SERVICE_GENERAL"
  | professionalServices => "PROFESSIONAL_SERVICES"
  | contractorTrades => "CONTRACTOR_TRADES"
  | retail => "RETAIL"
  | ecommerce => "ECOMMERCE"
  | restaurant => "RESTAURANT"
  | realEstate => "REAL_ESTATE"
  | healthcarePractice => "HEALTHCARE_PRACTICE"
  | nonprofit => "NONPROFIT"

end BusinessCategory

def SourceSystem.ofText (text : String) : SourceSystem :=
  if text = "quickbooks" then .quickbooks
  else if text = "xero" then .xero
  else if text = "other" then .other
  else .unlisted text

def defaultProvenance (dto : GoLiveDto) : Provenance where
  sourceSystem := dto.sourceSystem
  sourceObject := "trial_balance"
  sourceVersion := "1"
  effectiveDate := dto.cutoverDate
  postedDate := dto.cutoverDate
  ingestedAt := dto.cutoverDate
  normalizationVersion := "go-live/1"
  mappingVersion := "go-live/1"

def sourceAccountFromDto (currency : Currency) (s : GoLiveDtoAccount) :
    Except CutoverFailure SourceAccount :=
  match bigIntOfString s.balanceMinor with
  | none => .error (.thrown s!"Cannot convert {s.balanceMinor} to a BigInt")
  | some minor => .ok ⟨s.code, s.name, ⟨minor, currency⟩, s.subtype, s.type⟩

def coaCategoryFromDto : Option String → Except CutoverFailure (Option BusinessCategory)
  | none => .ok none
  | some text => match BusinessCategory.all.find? fun category => category.text = text with
    | none => .error (.cutover s!"unknown coa_category {text}")
    | some category => .ok (some category)

variable (currencies : String → Option Currency)

/-- `currencies` is the registry of currencies by code. -/
def getCurrency (code : String) : Except CutoverFailure Currency :=
  match currencies code with
  | none => .error (.thrown s!"Unknown currency code: {code}. Define it with defineCurrency() first.")
  | some currency => .ok currency

def goLiveFromDto (dto : GoLiveDto) : Except CutoverFailure GoLiveRequest := do
  if dto.contract ≠ goLiveContract then
    .error (.cutover s!"expected {goLiveContract}, got {dto.contract}")
  else
    let currency ← getCurrency currencies dto.currency
    let coaCategory ← coaCategoryFromDto dto.coaCategory
    let sourceAccounts ← dto.sourceAccounts.mapM (sourceAccountFromDto currency)
    return {
      tenantId := dto.tenantId
      sourceSystem := .ofText dto.sourceSystem
      cutoverDate := dto.cutoverDate
      currency := currency
      coaCategory := coaCategory
      sourceAccounts := sourceAccounts
      openingBalanceEquityCode := dto.openingBalanceEquityCode
      provenance := dto.provenance.getD (defaultProvenance dto) }

variable {currencies : String → Option Currency} {dto : GoLiveDto} {request : GoLiveRequest}

/-! What one go-live can do: the chart it builds, and the three ends of its run. -/

variable {chart chart' : GoLiveChart} {src : SourceAccount} {code : String}

def GoLiveChart.Has (chart : GoLiveChart) (code : String) : Prop :=
  ∃ a, chart.accounts.byCode.get? code = some a

theorem GoLiveChart.has_put {accounts : CodedAccounts} {created : List Account} {account : Account}
    (h : account.id = accountIdFor account.code) :
    (⟨accounts.put account h, created⟩ : GoLiveChart).Has code ↔
      code = account.code ∨ ∃ a, accounts.byCode.get? code = some a := by
  unfold Has CodedAccounts.put
  simp only [OrderedMap.get?_set]
  split_ifs with hcode
  · exact ⟨fun _ => .inl hcode, fun _ => ⟨account, rfl⟩⟩
  · exact (or_iff_right hcode).symm

theorem has_bringOver (h : bringOver request chart src = .ok chart') :
    chart'.Has src.code ∧ ∀ code, chart.Has code → chart'.Has code := by
  unfold bringOver at h
  split at h
  · rename_i existing hexi
    have hcode : existing.code = src.code := (chart.accounts.coded hexi).1
    split_ifs at h
    · rw [← Except.ok.inj h, GoLiveChart.has_put]
      refine ⟨.inl hcode.symm, fun code hhas => ?_⟩
      rw [GoLiveChart.has_put]
      exact .inr hhas
    · rw [← Except.ok.inj h]
      exact ⟨⟨existing, hexi⟩, fun code hhas => hhas⟩
  · split at h
    · cases h
    · rw [← Except.ok.inj h, GoLiveChart.has_put]
      refine ⟨.inl rfl, fun code hhas => ?_⟩
      rw [GoLiveChart.has_put]
      exact .inr hhas

theorem has_of_bringOver_all {sources : List SourceAccount}
    (h : sources.foldlM (bringOver request) chart = .ok chart') :
    (∀ src ∈ sources, chart'.Has src.code) ∧ ∀ code, chart.Has code → chart'.Has code := by
  induction sources generalizing chart with
  | nil =>
    rw [← Except.ok.inj h]
    exact ⟨fun src hsrc => absurd hsrc List.not_mem_nil, fun code hhas => hhas⟩
  | cons src sources ih =>
    rw [List.foldlM_cons, Fallible.bind_eq_ok] at h
    obtain ⟨mid, hmid, hrest⟩ := h
    have hfst : chart'.Has src.code := (ih hrest).2 _ (has_bringOver hmid).1
    refine ⟨?_, fun code hhas => (ih hrest).2 code ((has_bringOver hmid).2 code hhas)⟩
    rw [List.forall_mem_cons]
    exact ⟨hfst, (ih hrest).1⟩

theorem has_ensureOpeningEquity (request : GoLiveRequest) (chart : GoLiveChart) :
    (ensureOpeningEquity request chart).Has request.openingBalanceEquityCode ∧
      ∀ code, chart.Has code → (ensureOpeningEquity request chart).Has code := by
  unfold ensureOpeningEquity
  split_ifs with hhas
  · exact ⟨Option.isSome_iff_exists.mp hhas, fun code h => h⟩
  · rw [GoLiveChart.has_put]
    refine ⟨.inl rfl, fun code h => ?_⟩
    rw [GoLiveChart.has_put]
    exact .inr h

def GoLiveRequest.codes (request : GoLiveRequest) : List String :=
  request.openingBalanceEquityCode :: request.sourceAccounts.map SourceAccount.code

theorem getByCode_of_buildGoLiveChart {coa : ChartOfAccounts} {created : List Account}
    (h : buildGoLiveChart request = .ok (coa, created)) :
    ∀ code ∈ request.codes, ∃ a, coa.getByCode code = some a ∧ a.id = accountIdFor code := by
  unfold buildGoLiveChart at h
  rw [Fallible.bind_eq_ok] at h
  obtain ⟨merged, hmer, h⟩ := h
  rw [Fallible.bind_eq_ok] at h
  obtain ⟨coa', hcoa, h⟩ := h
  rw [Fallible.mapError_eq_ok] at hcoa
  obtain ⟨rfl, -⟩ := Prod.mk.injEq .. ▸ Except.ok.inj h
  obtain ⟨hequity, hkeeps⟩ := has_ensureOpeningEquity request merged
  have hhas : ∀ code ∈ request.codes, (ensureOpeningEquity request merged).Has code := by
    unfold GoLiveRequest.codes
    rw [List.forall_mem_cons, List.forall_mem_map]
    exact ⟨hequity, fun src hsrc =>
      hkeeps _ ((has_of_bringOver_all hmer).1 src hsrc)⟩
  intro code hcode
  obtain ⟨a, ha⟩ := hhas code hcode
  obtain ⟨hacode, haid⟩ := (ensureOpeningEquity request merged).accounts.coded ha
  have hmem : a ∈ (ensureOpeningEquity request merged).accounts.byCode.values :=
    List.mem_map.mpr ⟨(code, a), OrderedMap.mem_entries.mpr ha, rfl⟩
  have hfound := ChartOfAccounts.getByCode_of_ofAccounts hcoa hmem
  rw [hacode] at hfound
  exact ⟨_, hfound, haid⟩

section
variable {π K : Type} [PeriodStore π] [ChartStore K]

inductive GoLiveEnds (request : GoLiveRequest) (postedAt : String) (opts : GoLiveOptions)
    (s : GoLiveStores π K) : Except CutoverFailure GoLiveResult × GoLiveStores π K → Prop where
  | refused (f : CutoverFailure) {s' : GoLiveStores π K}
      (hfree : ∀ built command, buildGoLiveChart request = .ok built →
        buildOpeningBalanceEntry (planOf request) = .ok command →
        s.ledger.store.getByIdempotencyKey request.tenantId command.idempotencyKey = none)
      (hledger : s'.ledger = s.ledger) :
      GoLiveEnds request postedAt opts s (.error f, s')
  | reused {coa : ChartOfAccounts} {created : List Account} {command : PostCommand}
      {entry : PostedEntry} {s' : GoLiveStores π K}
      (hchart : buildGoLiveChart request = .ok (coa, created))
      (hbuild : buildOpeningBalanceEntry (planOf request) = .ok command)
      (hkey : s.ledger.store.getByIdempotencyKey request.tenantId command.idempotencyKey =
        some entry)
      (hledger : s'.ledger = s.ledger.sealedAt (planOf request)) :
      GoLiveEnds request postedAt opts s (.ok ⟨coa, created,
        ⟨entry, cutoverRecord (planOf request) entry postedAt, false⟩, opts.chartStore⟩, s')
  | posted {coa : ChartOfAccounts} {created : List Account} {command : PostCommand}
      {s' : GoLiveStores π K} (hchart : buildGoLiveChart request = .ok (coa, created))
      (hbuild : buildOpeningBalanceEntry (planOf request) = .ok command)
      (happends : s.ledger.Appends coa command)
      (hledger : s'.ledger = (s.ledger.posted command ⟨postedAt⟩).sealedAt (planOf request)) :
      GoLiveEnds request postedAt opts s (.ok ⟨coa, created,
        ⟨s.ledger.entryOf command ⟨postedAt⟩, cutoverRecord (planOf request)
          (s.ledger.entryOf command ⟨postedAt⟩) postedAt, true⟩, opts.chartStore⟩, s')

def GoLiveStores.persisted (s : GoLiveStores π K) (opts : GoLiveOptions) (tenant : TenantId)
    (coa : ChartOfAccounts) : GoLiveStores π K :=
  if opts.chartStore then { s with charts := ChartStore.saveChart s.charts tenant coa } else s

omit [PeriodStore π] in
theorem GoLiveStores.ledger_persisted (s : GoLiveStores π K) (opts : GoLiveOptions)
    (tenant : TenantId) (coa : ChartOfAccounts) : (s.persisted opts tenant coa).ledger = s.ledger := by
  unfold persisted
  split_ifs <;> rfl

theorem run_persistChart (opts : GoLiveOptions) (tenant : TenantId) (coa : ChartOfAccounts)
    (s : GoLiveStores π K) : (persistChart opts tenant coa).run GoLiveCall.exec s =
      (.ok (), s.persisted opts tenant coa) := by
  unfold persistChart GoLiveStores.persisted
  split_ifs <;> rfl

theorem run_cutover {α : Type} (p : CutoverProg α) (s : GoLiveStores π K) :
    (p.interpret (fun c => Prog.perform (GoLiveCall.ledger c)) id).run GoLiveCall.exec s =
      ((p.run LedgerCall.exec s.ledger).1.mapError id,
        { s with ledger := (p.run LedgerCall.exec s.ledger).2 }) :=
  Prog.run_interpret GoLiveStores.ledger (fun ledger s => { s with ledger := ledger })
    (fun _ _ => rfl) (fun _ _ _ => rfl) (fun _ => rfl) (fun _ _ => rfl) p s

theorem executeGoLive_eq {postedAt : String} {opts : GoLiveOptions} {coa : ChartOfAccounts}
    {created : List Account} (hsome : request.sourceAccounts.length ≠ 0)
    (hchart : buildGoLiveChart request = .ok (coa, created)) :
    executeGoLive request postedAt opts = (persistChart opts request.tenantId coa >>= fun _ =>
      (executeCutover coa (planOf request) postedAt).interpret
        (fun c => Prog.perform (GoLiveCall.ledger c)) id >>= fun cutover =>
          Prog.ret (⟨coa, created, cutover, opts.chartStore⟩ : GoLiveResult)) := by
  unfold executeGoLive
  rw [Prog.refuseIf_neg hsome, hchart]
  rfl

omit [PeriodStore π] [ChartStore K] in
theorem sources_of_build {command : PostCommand}
    (h : buildOpeningBalanceEntry (planOf request) = .ok command) :
    request.sourceAccounts.length ≠ 0 := by
  intro hnone
  have hemp : (planOf request).balances.length = 0 := (List.length_map _).trans hnone
  unfold buildOpeningBalanceEntry at h
  rw [if_pos hemp] at h
  cases h

theorem executeGoLive_ends (request : GoLiveRequest) (postedAt : String) (opts : GoLiveOptions)
    (s : GoLiveStores π K) : GoLiveEnds request postedAt opts s
      ((executeGoLive request postedAt opts).run GoLiveCall.exec s) := by
  by_cases hnone : request.sourceAccounts.length = 0
  · unfold executeGoLive
    rw [Prog.refuseIf_pos hnone]
    exact .refused _ (fun built command _ hbuild => absurd hnone (sources_of_build hbuild)) rfl
  · cases hchart : buildGoLiveChart request with
    | error f =>
      unfold executeGoLive
      rw [Prog.refuseIf_neg hnone, hchart]
      exact .refused f (fun built command h => by cases hchart.symm.trans h) rfl
    | ok built =>
      obtain ⟨coa, created⟩ := built
      rw [executeGoLive_eq hnone hchart,
        Prog.run_bind_ok (run_persistChart opts request.tenantId coa s), Prog.bind_eq,
        Prog.run_bind, run_cutover, GoLiveStores.ledger_persisted]
      have hends := cutoverEnds coa (planOf request) postedAt s.ledger
      generalize (executeCutover coa (planOf request) postedAt).run LedgerCall.exec s.ledger = r
        at hends ⊢
      cases hends with
      | refused f hfree => exact .refused f (fun built command _ h => hfree command h) rfl
      | reused hbuild hkey => exact .reused hchart hbuild hkey rfl
      | posted hbuild happends => exact .posted hchart hbuild happends rfl

theorem goLiveEnds (request : GoLiveRequest) (postedAt : String) (opts : GoLiveOptions)
    (s : GoLiveStores π K) : GoLiveEnds request postedAt opts s (goLive request postedAt opts s) := by
  have hends := executeGoLive_ends request postedAt opts s
  unfold goLive
  generalize (executeGoLive request postedAt opts).run GoLiveCall.exec s = ended at hends ⊢
  cases hends with
  | refused f hfree hledger =>
    split
    · exact .refused _ hfree rfl
    · exact .refused f hfree hledger
  | reused hchart hbuild hkey hledger =>
    cases opts.transaction <;> exact .reused hchart hbuild hkey hledger
  | posted hchart hbuild happends hledger =>
    cases opts.transaction <;> exact .posted hchart hbuild happends hledger

end
end Rgnr8.Kernel
