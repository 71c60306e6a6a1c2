import Rgnr8.Kernel.GoLive

/-! What a go-live leaves behind: alone on a fresh ledger, and as one of many for its tenant. -/

namespace Rgnr8.Kernel
open Lib InMemoryLedgerStore List

namespace GoLiveRequest

variable (request : GoLiveRequest)

def imported (code : String) : Int :=
  (request.sourceAccounts.map fun src => if src.code = code then src.balance.minorUnits else 0).sum

def importedTotal : Int :=
  (request.sourceAccounts.map fun src => src.balance.minorUnits).sum

theorem importedOn_planOf (code : String) :
    importedOn (accountIdFor code) (planOf request).balances = request.imported code := by
  unfold importedOn planOf imported
  rw [map_map]
  refine congrArg sum (map_congr_left fun src _ => ?_)
  simp only [Function.comp_apply, accountIdFor_injective.eq_iff]

theorem importedTotal_planOf :
    Kernel.importedTotal (planOf request).balances = request.importedTotal := by
  unfold Kernel.importedTotal planOf importedTotal
  rw [map_map]
  rfl

end GoLiveRequest

def Records (e : PostedEntry) (command : PostCommand) : Prop :=
  e.toDraftEntry = PostingEngine.draftOfCommand command ⟨e.postedAt⟩ command.lines

instance (e : PostedEntry) (command : PostCommand) : Decidable (Records e command) :=
  inferInstanceAs (Decidable (_ = _))

section
variable {π : Type} {request : GoLiveRequest} {command : PostCommand} {e : PostedEntry}

theorem Records.lines (h : Records e command) : e.lines = command.lines :=
  congrArg DraftEntry.lines h

theorem Records.key (h : Records e command) : e.idempotencyKey = command.idempotencyKey :=
  congrArg DraftEntry.idempotencyKey h

theorem records_entryOf (s : Ledger π) (command : PostCommand) (opts : PostOptions) :
    Records (s.entryOf command opts) command := rfl

theorem balanceOf_singleton (id : AccountId) (e : PostedEntry) :
    balanceOf id [e] = netOn id e.lines := by
  have hcon := balanceOf_concat id [] e
  rw [balanceOf_nil, Int.zero_add] at hcon
  exact hcon

theorem balanceOf_opening (hbuild : buildOpeningBalanceEntry (planOf request) = .ok command)
    (hrecs : Records e command) (code : String) :
    balanceOf (accountIdFor code) [e] = request.imported code -
      if request.openingBalanceEquityCode = code then request.importedTotal else 0 := by
  have hnet := netOn_of_buildOpeningBalanceEntry hbuild (accountIdFor code)
  rw [balanceOf_singleton, hrecs.lines, hnet, GoLiveRequest.importedOn_planOf,
    GoLiveRequest.importedTotal_planOf]
  have hid : (planOf request).openingBalanceEquityId = accountIdFor code ↔
      request.openingBalanceEquityCode = code := accountIdFor_injective.eq_iff
  simp only [hid]

theorem tenantId_of_build (hbuild : buildOpeningBalanceEntry (planOf request) = .ok command) :
    command.tenantId = request.tenantId := by
  rw [openingCommand_of_build hbuild]
  rfl

theorem key_of_build (hbuild : buildOpeningBalanceEntry (planOf request) = .ok command) :
    command.idempotencyKey = openingKey request.cutoverDate := by
  rw [openingCommand_of_build hbuild]
  rfl

variable {K : Type} [PeriodStore π] [ChartStore K]

@[simp] theorem journal_sealedAt (s : Ledger π) (plan : CutoverPlan) (t : TenantId) :
    (s.sealedAt plan).journal t = s.journal t := rfl

/-- What a go-live over a fresh ledger leaves behind. -/
structure FaithfulGoLive (request : GoLiveRequest) (result : GoLiveResult) (s : GoLiveStores π K) :
    Prop where
  ids : (result.chart.list.map Account.id).Nodup
  codes : (result.chart.list.map Account.code).Nodup
  present : ∀ code ∈ request.codes,
    ∃ a, result.chart.getByCode code = some a ∧ a.id = accountIdFor code
  journal : s.ledger.journal request.tenantId = [result.cutover.entry]
  balanced : sideTotal .debit result.cutover.entry.lines =
    sideTotal .credit result.cutover.entry.lines
  source_balance : ∀ src ∈ request.sourceAccounts, src.code ≠ request.openingBalanceEquityCode →
    balanceOf (accountIdFor src.code) (s.ledger.journal request.tenantId) =
      request.imported src.code
  equity_balance :
    balanceOf (accountIdFor request.openingBalanceEquityCode)
        (s.ledger.journal request.tenantId) =
      request.imported request.openingBalanceEquityCode - request.importedTotal
  sealed : ∀ period ≤ (planOf request).period,
    PeriodStore.status s.ledger.periods request.tenantId period = .locked
  again : ∀ postedAt opts, ∃ result',
    (goLive request postedAt opts s).1 = .ok result' ∧
      result'.cutover.entry = result.cutover.entry ∧ result'.cutover.newlyPosted = false ∧
      ∀ t, (goLive request postedAt opts s).2.ledger.journal t = s.ledger.journal t

theorem goLive_again {coa : ChartOfAccounts} {created : List Account} {s : GoLiveStores π K}
    (hchart : buildGoLiveChart request = .ok (coa, created))
    (hbuild : buildOpeningBalanceEntry (planOf request) = .ok command)
    (hmem : e ∈ s.ledger.journal request.tenantId) (hrecs : Records e command)
    (postedAt : String) (opts : GoLiveOptions) : ∃ result,
      (goLive request postedAt opts s).1 = .ok result ∧ result.cutover.entry = e ∧
        result.cutover.newlyPosted = false ∧
        ∀ t, (goLive request postedAt opts s).2.ledger.journal t = s.ledger.journal t := by
  have hheld : s.ledger.store.getByIdempotencyKey request.tenantId command.idempotencyKey = some e :=
    getByIdempotencyKey_iff.mpr ⟨hmem, hrecs.key⟩
  have hends := goLiveEnds request postedAt opts s
  generalize goLive request postedAt opts s = ended at hends ⊢
  cases hends with
  | refused f hfree _ => cases (hfree _ _ hchart hbuild).symm.trans hheld
  | reused _ hbuild' hkey hledger =>
    rw [← Except.ok.inj (hbuild.symm.trans hbuild')] at hkey
    refine ⟨_, rfl, Option.some.inj (hkey.symm.trans hheld), rfl, fun t => ?_⟩
    rw [hledger, journal_sealedAt]
  | posted _ hbuild' happends _ =>
    rw [← Except.ok.inj (hbuild.symm.trans hbuild')] at happends
    have hfree := happends.free
    rw [tenantId_of_build hbuild] at hfree
    cases hfree.symm.trans hheld

theorem goLive_faithful {s : GoLiveStores π K} (hfresh : s.ledger.journal request.tenantId = [])
    (postedAt : String) (opts : GoLiveOptions) {result : GoLiveResult}
    (h : (goLive request postedAt opts s).1 = .ok result) :
    FaithfulGoLive request result (goLive request postedAt opts s).2 := by
  have hends := goLiveEnds request postedAt opts s
  generalize goLive request postedAt opts s = ended at hends h ⊢
  cases hends with
  | refused f _ _ => cases h
  | reused _ _ hkey _ =>
    have hmem := (getByIdempotencyKey_iff.mp hkey).1
    change _ ∈ s.ledger.journal request.tenantId at hmem
    rw [hfresh] at hmem
    exact absurd hmem not_mem_nil
  | @posted coa created command s' hchart hbuild happends hledger =>
    obtain rfl := Except.ok.inj h
    have hjnl : s'.ledger.journal request.tenantId =
        [s.ledger.entryOf command ⟨postedAt⟩] := by
      rw [hledger, journal_sealedAt, Ledger.journal_posted _ happends,
        if_pos (tenantId_of_build hbuild).symm, hfresh]
      rfl
    have hrecs := records_entryOf s.ledger command ⟨postedAt⟩
    have hbals := balanceOf_opening hbuild hrecs
    refine {
      ids := coa.nodup_ids
      codes := coa.nodup_codes
      present := getByCode_of_buildGoLiveChart hchart
      journal := hjnl
      balanced := (validateAndBuildLines_eq_ok.mp happends.2.2).2.2.1
      source_balance := fun src _ hne => ?_
      equity_balance := ?_
      sealed := fun period hle => ?_
      again := fun postedAt' opts' => ?_ }
    · rw [hjnl, hbals, if_neg hne.symm, Int.sub_zero]
    · rw [hjnl, hbals, if_pos rfl]
    · rw [hledger]
      exact PeriodStore.status_lockThrough _ _ _ _ hle
    · have hmem : s.ledger.entryOf command ⟨postedAt⟩ ∈ s'.ledger.journal request.tenantId := by
        rw [hjnl]
        exact mem_singleton_self _
      exact goLive_again hchart hbuild hmem hrecs postedAt' opts'

end

namespace GoLiveSample

def source (code : String) (minor : Int) (subtype : AccountSubtype) : SourceAccount :=
  ⟨code, code, ⟨minor, usd⟩, some subtype, none⟩

def request (date : String) (bank : Int) : GoLiveRequest where
  tenantId := "acme"
  sourceSystem := .quickbooks
  cutoverDate := date
  currency := usd
  coaCategory := none
  sourceAccounts := [source "1000" bank .bank, source "2700" (-300) .longTermLiability,
    source "1000" 50 .bank, source "3900" (-20) .equity]
  openingBalanceEquityCode := "3900"
  provenance := ⟨"quickbooks", "trial_balance", "1", date, date, date, "go-live/1", "go-live/1"⟩

def stores : GoLiveStores (InMemoryPeriodStore TenantId PeriodKey) InMemoryChartStore :=
  ⟨⟨.empty, .empty⟩, .empty⟩

def opts : GoLiveOptions := ⟨true, .atomically⟩

end GoLiveSample

open GoLiveSample in
theorem goLive_of_sample : ∃ result,
    (goLive (request "2026-03-31" 100) "2026-04-01" opts stores).1 = .ok result ∧
      FaithfulGoLive (request "2026-03-31" 100) result
        (goLive (request "2026-03-31" 100) "2026-04-01" opts stores).2 := by
  have hret : (goLive (request "2026-03-31" 100) "2026-04-01" opts stores).1.isOk := by
    decide +kernel
  cases h : (goLive (request "2026-03-31" 100) "2026-04-01" opts stores).1 with
  | error f => rw [h] at hret; cases hret
  | ok result => exact ⟨result, rfl, goLive_faithful rfl "2026-04-01" opts h⟩

def IsOpening (e : PostedEntry) : Prop := openingPrefix.toList <+: e.idempotencyKey.toList

instance (e : PostedEntry) : Decidable (IsOpening e) :=
  inferInstanceAs (Decidable (_ <+: _))

def openings (journal : List PostedEntry) : List PostedEntry :=
  journal.filter fun e => IsOpening e

theorem isOpening_of_records {request : GoLiveRequest} {command : PostCommand} {e : PostedEntry}
    (hbuild : buildOpeningBalanceEntry (planOf request) = .ok command) (h : Records e command) :
    IsOpening e := by
  have hkey : e.idempotencyKey = openingPrefix ++ request.cutoverDate :=
    h.key.trans (key_of_build hbuild)
  unfold IsOpening
  rw [hkey, String.toList_append]
  exact prefix_append ..

structure Attempt where
  request : GoLiveRequest
  postedAt : String
  opts : GoLiveOptions

namespace Attempt
variable {π K : Type} [PeriodStore π] [ChartStore K]

def run (a : Attempt) (s : GoLiveStores π K) : Except CutoverFailure GoLiveResult × GoLiveStores π K :=
  goLive a.request a.postedAt a.opts s

def step (s : GoLiveStores π K) (a : Attempt) : GoLiveStores π K := (a.run s).2

def Returns (s : GoLiveStores π K) (a : Attempt) : Prop := ∃ result, (a.run s).1 = .ok result

def journal (s : GoLiveStores π K) (a : Attempt) : List PostedEntry :=
  s.ledger.journal a.request.tenantId

def OneTrueOpening (a : Attempt) (s : GoLiveStores π K) : Prop :=
  ∃ command e, buildOpeningBalanceEntry (planOf a.request) = .ok command ∧
    openings (a.journal s) = [e] ∧ Records e command ∧
    ∀ src ∈ a.request.sourceAccounts, src.code ≠ a.request.openingBalanceEquityCode →
      balanceOf (accountIdFor src.code) (a.journal s) = a.request.imported src.code

def NoOther (s : GoLiveStores π K) (a : Attempt) : Prop :=
  ∀ e ∈ openings (a.journal s), ∃ command,
    buildOpeningBalanceEntry (planOf a.request) = .ok command ∧ Records e command

omit [PeriodStore π] [ChartStore K] in
theorem noOther_iff {s : GoLiveStores π K} {a : Attempt} : NoOther s a ↔
    ∀ e ∈ openings (a.journal s), ∃ command,
      buildOpeningBalanceEntry (planOf a.request) = .ok command ∧ Records e command := Iff.rfl

instance (s : GoLiveStores π K) (a : Attempt) : Decidable (NoOther s a) :=
  decidable_of_iff' _ noOther_iff

def OnlyOpenings (tenant : TenantId) (s : GoLiveStores π K) : Prop :=
  ∀ e ∈ s.ledger.journal tenant, IsOpening e

variable {a : Attempt} {s : GoLiveStores π K} {tenant : TenantId}

theorem onlyOpenings_step (s : GoLiveStores π K) (a : Attempt) (h : OnlyOpenings tenant s) :
    OnlyOpenings tenant (step s a) := by
  have hends := goLiveEnds a.request a.postedAt a.opts s
  unfold OnlyOpenings step run
  generalize goLive a.request a.postedAt a.opts s = ended at hends ⊢
  cases hends with
  | refused f _ hledger => rwa [hledger]
  | reused _ _ _ hledger => rwa [hledger, journal_sealedAt]
  | posted _ hbuild happends hledger =>
    rw [hledger, journal_sealedAt, Ledger.journal_posted _ happends]
    split_ifs
    · rw [forall_mem_append, forall_mem_singleton]
      exact ⟨h, isOpening_of_records hbuild (records_entryOf s.ledger _ _)⟩
    · exact h

omit [PeriodStore π] in
theorem eq_of_key_eq {s : Ledger π} {e e' : PostedEntry} (he : e ∈ s.journal tenant)
    (he' : e' ∈ s.journal tenant) (hkey : e.idempotencyKey = e'.idempotencyKey) : e = e' := by
  have h := getByIdempotencyKey_iff.mpr ⟨he, hkey⟩
  have h' := getByIdempotencyKey_iff.mpr ⟨he', rfl⟩
  exact Option.some.inj (h.symm.trans h')

omit [PeriodStore π] in
theorem journal_eq_singleton {s : Ledger π} {e : PostedEntry} (he : e ∈ s.journal tenant)
    (hall : ∀ e' ∈ s.journal tenant, e'.idempotencyKey = e.idempotencyKey) :
    s.journal tenant = [e] := by
  by_contra hne
  have hnd : (s.journal tenant).Nodup := s.store.nodup_list tenant
  rcases (hnd.ne_singleton_iff e).mp hne with hnil | ⟨e', he', hdif⟩
  · rw [hnil] at he
    exact absurd he not_mem_nil
  · exact hdif (eq_of_key_eq he' he (hall e' he'))

omit [PeriodStore π] [ChartStore K] in
theorem oneTrueOpening_of_journal {command : PostCommand} {e : PostedEntry}
    (hbuild : buildOpeningBalanceEntry (planOf a.request) = .ok command)
    (hrecs : Records e command) (hjnl : a.journal s = [e]) : OneTrueOpening a s := by
  refine ⟨command, e, hbuild, ?_, hrecs, fun src _ hne => ?_⟩
  · unfold openings
    rw [hjnl, filter_singleton, decide_eq_true (isOpening_of_records hbuild hrecs)]
    rfl
  · rw [hjnl, balanceOf_opening hbuild hrecs, if_neg hne.symm, Int.sub_zero]

theorem noOther_of_oneTrueOpening (hgrows : a.journal s <+: a.journal (step s a))
    (h : OneTrueOpening a (step s a)) : NoOther s a := by
  obtain ⟨command, e, hbuild, hone, hrecs, -⟩ := h
  intro e' he'
  have hlater : e' ∈ openings (a.journal (step s a)) := by
    rw [openings, mem_filter] at he' ⊢
    exact ⟨hgrows.subset he'.1, he'.2⟩
  rw [hone, mem_singleton] at hlater
  rw [hlater]
  exact ⟨command, hbuild, hrecs⟩

theorem oneTrueOpening_step_iff (honly : OnlyOpenings a.request.tenantId s) (h : a.Returns s) :
    OneTrueOpening a (step s a) ↔ NoOther s a := by
  obtain ⟨result, h⟩ := h
  have hends := goLiveEnds a.request a.postedAt a.opts s
  have hstep : step s a = (goLive a.request a.postedAt a.opts s).2 := rfl
  unfold run at h
  generalize goLive a.request a.postedAt a.opts s = ended at hends h hstep
  cases hends with
  | refused f _ _ => cases h
  | @reused _ _ command entry s' _ hbuild hkey hledger =>
    have hjnl : a.journal (step s a) = a.journal s := by
      unfold journal
      rw [hstep, hledger, journal_sealedAt]
    constructor
    · intro htrue
      refine noOther_of_oneTrueOpening ?_ htrue
      rw [hjnl]
    · intro hnone
      have hmem : entry ∈ a.journal s := (getByIdempotencyKey_iff.mp hkey).1
      have hsame : ∀ e ∈ a.journal s, Records e command := fun e he => by
        have hopn : e ∈ openings (a.journal s) :=
          mem_filter.mpr ⟨he, decide_eq_true (honly e he)⟩
        obtain ⟨command', hbuild', hrecs⟩ := hnone e hopn
        rwa [Except.ok.inj (hbuild.symm.trans hbuild')]
      refine oneTrueOpening_of_journal hbuild (hsame entry hmem) ?_
      rw [hjnl]
      exact journal_eq_singleton hmem fun e he => (hsame e he).key.trans (hsame entry hmem).key.symm
  | @posted _ _ command s' _ hbuild happends hledger =>
    have hjnl : a.journal (step s a) = a.journal s ++ [s.ledger.entryOf command ⟨a.postedAt⟩] := by
      unfold journal
      rw [hstep, hledger, journal_sealedAt, Ledger.journal_posted _ happends,
        if_pos (tenantId_of_build hbuild).symm]
    constructor
    · intro htrue
      refine noOther_of_oneTrueOpening ?_ htrue
      rw [hjnl]
      exact prefix_append ..
    · intro hnone
      have hfree := happends.free
      rw [tenantId_of_build hbuild, getByIdempotencyKey_eq_none] at hfree
      have hemp : a.journal s = [] := eq_nil_iff_forall_not_mem.mpr fun e he => by
        have hopn : e ∈ openings (a.journal s) :=
          mem_filter.mpr ⟨he, decide_eq_true (honly e he)⟩
        obtain ⟨command', hbuild', hrecs⟩ := hnone e hopn
        rw [← Except.ok.inj (hbuild.symm.trans hbuild')] at hrecs
        exact hfree e he hrecs.key
      refine oneTrueOpening_of_journal hbuild (records_entryOf s.ledger command ⟨a.postedAt⟩) ?_
      rw [hjnl, hemp, nil_append]

/-- Over any run of go-lives of a tenant with an empty journal: the calls that return leave the one
true opening exactly when each of them finds no other in the journal. -/
theorem oneTrueOpening_iff (hempty : s.ledger.journal tenant = []) (attempts : List Attempt)
    (htenant : ∀ a ∈ attempts, a.request.tenantId = tenant) :
    EachStep step (fun s a => a.Returns s → OneTrueOpening a (step s a)) s attempts ↔
      EachStep step (fun s a => a.Returns s → NoOther s a) s attempts := by
  have hstart : OnlyOpenings tenant s := fun e he => by
    rw [hempty] at he
    exact absurd he not_mem_nil
  have heach : ∀ before a, before ++ [a] <+: attempts →
      ((a.Returns (before.foldl step s) → OneTrueOpening a (step (before.foldl step s) a)) ↔
        (a.Returns (before.foldl step s) → NoOther (before.foldl step s) a)) := by
    intro before a hbef
    have hmem : a ∈ attempts :=
      hbef.subset (mem_append_right _ (mem_singleton_self a))
    have honly : OnlyOpenings tenant (before.foldl step s) :=
      foldl_invariant (I := OnlyOpenings tenant) onlyOpenings_step hstart before
    rw [← htenant a hmem] at honly
    exact imp_congr_right fun hret => oneTrueOpening_step_iff honly hret
  exact forall_congr' fun before => forall_congr' fun a => imp_congr_right (heach before a)

open GoLiveSample

def sample (date : String) (bank : Int) : Attempt :=
  ⟨GoLiveSample.request date bank, "2026-06-01", GoLiveSample.opts⟩

theorem reruns_of_sample :
    EachStep step (fun s a => a.Returns s → OneTrueOpening a (step s a)) stores
      [sample "2026-03-31" 100, sample "2026-03-31" 100] := by
  have hemp : stores.ledger.journal "acme" = [] := rfl
  refine (oneTrueOpening_iff hemp _ ?_).mpr ?_
  · rw [forall_mem_cons, forall_mem_singleton]
    exact ⟨rfl, rfl⟩
  · rw [eachStep_cons, eachStep_cons]
    exact ⟨fun _ => by decide +kernel, fun _ => by decide +kernel, eachStep_nil⟩

theorem returns_of_isOk (h : (a.run s).1.isOk) : a.Returns s := by
  unfold Returns
  cases hrun : (a.run s).1 with
  | error f => rw [hrun] at h; cases h
  | ok result => exact ⟨result, rfl⟩

theorem not_oneTrueOpening {first second : Attempt} {src : SourceAccount}
    (hret : (second.run (step stores first)).1.isOk) (hsrc : src ∈ second.request.sourceAccounts)
    (hother : src.code ≠ second.request.openingBalanceEquityCode)
    (hbalance : balanceOf (accountIdFor src.code)
      (second.journal (step (step stores first) second)) ≠ second.request.imported src.code) :
    ¬ EachStep step (fun s a => a.Returns s → OneTrueOpening a (step s a)) stores
      [first, second] := by
  intro h
  rw [eachStep_cons, eachStep_cons] at h
  obtain ⟨command, e, -, -, -, hbals⟩ := h.2.1 (returns_of_isOk hret)
  exact hbalance (hbals src hsrc hother)

theorem corrected_balances_are_dropped :
    (¬ EachStep step (fun s a => a.Returns s → OneTrueOpening a (step s a)) stores
      [sample "2026-03-31" 100, sample "2026-03-31" 250]) ∧
    ¬ EachStep step (fun s a => a.Returns s → OneTrueOpening a (step s a)) stores
      [sample "2026-03-31" 100, sample "2026-04-30" 100] := by
  constructor
  · exact not_oneTrueOpening (by decide +kernel) mem_cons_self (by decide +kernel)
      (by decide +kernel)
  · exact not_oneTrueOpening (by decide +kernel) mem_cons_self (by decide +kernel)
      (by decide +kernel)

end Attempt
end Rgnr8.Kernel
