import Rgnr8.Lib.Run
import Rgnr8.Platform.BillingService

/-! Subscriptions over whole histories: the tenants of an account within its plan, a tenant on one
account, and a canceled account back only within the grace window. Nothing looks for the tenant on
another account when it is attached, and a pause is accepted on a canceled account, after which
`resume` asks for no window. -/

namespace Rgnr8.Platform.Billing
open Lib BillingService Account Option List

inductive LifecycleCall where
  | createAccount (accountId name billingEmail : String) (tier : Tier) (trialDays : Int)
      (answer : Option String)
  | attachTenant (accountId tenantId : String)
  | detachTenant (accountId tenantId : String)
  | changePlan (accountId : String) (newTier : Tier) (answer : Option String)
  | cancel (accountId : String) (answer : Option String)
  | pause (accountId : String)
  | resume (accountId : String) (answer : Option String)
  | reactivate (accountId : String) (answer : Option String)

def LifecycleCall.exec (s : BillingService) (now : Int) : LifecycleCall → BillingService
  | .createAccount accountId name billingEmail tier trialDays answer =>
    (s.createAccount now accountId name billingEmail tier trialDays answer).2
  | .attachTenant accountId tenantId => (s.attachTenant accountId tenantId).2
  | .detachTenant accountId tenantId => (s.detachTenant accountId tenantId).2
  | .changePlan accountId newTier answer => (s.changePlan now accountId newTier answer).2
  | .cancel accountId answer => (s.cancel now accountId answer).2
  | .pause accountId => (s.pause now accountId).2
  | .resume accountId answer => (s.resume accountId answer).2
  | .reactivate accountId answer => (s.reactivate now accountId answer).2

def LifecycleCall.cancels (s : BillingService) (id : String) : LifecycleCall → Bool
  | .cancel accountId answer =>
    accountId = id && answer.isSome && (s.store.getAccount accountId).isSome
  | _ => false

/-- The service, with the time at which each account that has not been active since was last
canceled. -/
structure History where
  service : BillingService
  canceledAt : String → Option Int

namespace History

theorem keyed_empty {id : String} {acct : Account}
    (h : (OrderedMap.empty : OrderedMap String Account).get? id = some acct) : acct.id = id :=
  absurd (h : none = some acct) (some_ne_none acct).symm

def start (backing : Backing) (graceDays : Int) : History :=
  ⟨.start ⟨backing, OrderedMap.empty, [], @keyed_empty⟩ graceDays, fun _ => none⟩

def step (h : History) (call : Int × LifecycleCall) : History :=
  let service := call.2.exec h.service call.1
  { service
    canceledAt := fun id =>
      if (service.store.getAccount id).any fun acct => acct.status = .active then none
      else if call.2.cancels h.service id then some call.1
      else h.canceledAt id }

structure Sound (h : History) : Prop where
  limit : ∀ {id acct}, h.service.store.getAccount id = some acct →
    (planFor acct.tier).has .multiTenant = false →
      acct.tenantCount ≤ (planFor acct.tier).includedTenants
  single : ∀ {id id' acct acct' tenantId}, h.service.store.getAccount id = some acct →
    h.service.store.getAccount id' = some acct' → tenantId ∈ acct.tenantIds →
      tenantId ∈ acct'.tenantIds → id = id'

/-- What a call keeps to: a suspended account gains no tenant, and one that was canceled becomes
active within the grace window. -/
structure Guarded (h : History) (call : Int × LifecycleCall) : Prop where
  noGain : ∀ {id acct acct'}, h.service.store.getAccount id = some acct → ¬ acct.Live →
    (h.step call).service.store.getAccount id = some acct' → acct'.tenantIds ⊆ acct.tenantIds
  inGrace : ∀ {id acct' canceled}, (h.step call).service.store.getAccount id = some acct' →
    acct'.status = .active →
    (∀ acct, h.service.store.getAccount id = some acct → acct.status ≠ .active) →
    h.canceledAt id = some canceled → call.1 ≤ canceled + h.service.graceDays * BillingService.day

def Fair (h : History) (call : Int × LifecycleCall) : Prop :=
  match call.2 with
  | .attachTenant accountId tenantId =>
    (∀ acct, h.service.store.getAccount accountId = some acct → acct.Live → acct.canAddTenant →
      ∀ other acct', h.service.store.getAccount other = some acct' →
        tenantId ∈ acct'.tenantIds → other = accountId) ∧
      (h.service.store.backing = .sql → ',' ∉ tenantId.toList)
  | .pause accountId => h.canceledAt accountId = none
  | _ => True

end History

/-! What the store keeps of the tenants. -/

theorem joinedAndSplit_of_free {ids : List String} (h : ∀ id ∈ ids, ',' ∉ id.toList) :
    joinedAndSplit ids = ids.filter (· ≠ "") := by
  by_cases hne : ids = []
  · subst hne
    decide
  · unfold joinedAndSplit
    rw [String.toList_intercalate]
    have hsplit : ([','].intercalate (ids.map String.toList)).splitOn ',' =
        ids.map String.toList := by
      refine splitOn_intercalate ',' (fun p hp => ?_) (by simpa using hne)
      obtain ⟨id, hid, rfl⟩ := mem_map.mp hp
      exact h id hid
    rw [show (",".toList) = [','] from rfl, hsplit, List.map_map]
    congr 1
    exact map_id'' (fun id => String.ofList_toList) ids

theorem readBack_sublist {backing : Backing} {ids : List String}
    (h : backing = .sql → ∀ id ∈ ids, ',' ∉ id.toList) : (backing.readBack ids).Sublist ids := by
  cases backing with
  | memory => exact List.Sublist.refl ids
  | sql =>
    show (joinedAndSplit ids).Sublist ids
    rw [joinedAndSplit_of_free (h rfl)]
    exact filter_sublist

/-! What a call does. -/

inductive Change (s : BillingService) (now : Int) :
    LifecycleCall → Account → OrderedMap String Int → Prop where
  | created {id name email tier trialDays answer acct} (hid : acct.id = id)
      (hstatus : acct.status = .trialing) (htenants : acct.tenantIds = []) :
      Change s now (.createAccount id name email tier trialDays answer) acct s.graceStart
  | attached {id tenantId acct} (hacct : s.store.getAccount id = some acct) (hlive : acct.Live)
      (hroom : tenantId ∈ acct.tenantIds ∨ acct.canAddTenant = true) :
      Change s now (.attachTenant id tenantId) (acct.withTenant tenantId) s.graceStart
  | detached {id tenantId acct} (hacct : s.store.getAccount id = some acct) :
      Change s now (.detachTenant id tenantId) (acct.withoutTenant tenantId) s.graceStart
  | moved {id tier answer acct} (hacct : s.store.getAccount id = some acct) (hlive : acct.Live)
      (hfits : classifyChange (planFor acct.tier) (planFor tier) = .downgrade →
        BillingService.downgradeRefusal id acct tier = none) :
      Change s now (.changePlan id tier answer) { acct with tier } s.graceStart
  | canceled {id answer acct} (hacct : s.store.getAccount id = some acct)
      (hanswer : answer.isSome = true) :
      Change s now (.cancel id answer) (acct.withStatus .canceled) (s.graceStart.set id now)
  | paused {id acct} (hacct : s.store.getAccount id = some acct) :
      Change s now (.pause id) (acct.withStatus .paused) (s.graceStart.set id now)
  | resumed {id answer acct} (hacct : s.store.getAccount id = some acct)
      (hpaused : acct.status = .paused) :
      Change s now (.resume id answer) (acct.withStatus .active)
        (s.graceStart.filter fun key _ => key ≠ acct.id)
  | reactivated {id answer acct} (hacct : s.store.getAccount id = some acct)
      (hstatus : acct.status = .canceled ∨ acct.status = .paused)
      (hgrace : ∀ start, s.graceStart.get? id = some start →
        now - start ≤ s.graceDays * BillingService.day) :
      Change s now (.reactivate id answer) (acct.withStatus .active)
        (s.graceStart.filter fun key _ => key ≠ acct.id)

/-- The call that is refused changes nothing that matters here. -/
structure Refused (s s' : BillingService) (call : LifecycleCall) : Prop where
  store : s'.store = s.store
  graceStart : s'.graceStart = s.graceStart
  cancels : ∀ id, call.cancels s id = false

theorem refused_rfl {s : BillingService} {call : LifecycleCall}
    (h : ∀ id, call.cancels s id = false) : Refused s s call := ⟨rfl, rfl, h⟩

structure Changed (s s' : BillingService) (now : Int) (call : LifecycleCall) (acct : Account) :
    Prop where
  store : s'.store = s.store.saveAccount acct
  change : Change s now call acct s'.graceStart

theorem exec_cases (s : BillingService) (now : Int) (call : LifecycleCall) :
    Refused s (call.exec s now) call ∨ ∃ acct, Changed s (call.exec s now) now call acct := by
  cases call with
  | createAccount id name email tier trialDays answer =>
    cases answer with
    | none => exact .inl (refused_rfl fun _ => rfl)
    | some customer => exact .inr ⟨_, rfl, .created rfl rfl rfl⟩
  | attachTenant id tenantId =>
    simp only [LifecycleCall.exec, attachTenant]
    cases hacct : s.require id >>= requireLive with
    | error e => exact .inl (refused_rfl fun _ => rfl)
    | ok acct =>
      obtain ⟨hfound, hlive⟩ := bind_requireLive_eq_ok.mp hacct
      dsimp only
      split_ifs with hfull
      · exact .inl (refused_rfl fun _ => rfl)
      · rw [not_and_or, not_not, not_not] at hfull
        exact .inr ⟨_, rfl, .attached hfound hlive hfull⟩
  | detachTenant id tenantId =>
    simp only [LifecycleCall.exec, detachTenant]
    cases hacct : s.require id with
    | error e => exact .inl (refused_rfl fun _ => rfl)
    | ok acct => exact .inr ⟨_, rfl, .detached (require_eq_ok.mp hacct)⟩
  | changePlan id tier answer =>
    simp only [LifecycleCall.exec, changePlan]
    cases hacct : s.require id >>= requireLive with
    | error e => exact .inl (refused_rfl fun _ => rfl)
    | ok acct =>
      obtain ⟨hfound, hlive⟩ := bind_requireLive_eq_ok.mp hacct
      dsimp only
      split
      · exact .inl (refused_rfl fun _ => rfl)
      · rename_i hfits
        cases answer with
        | none => exact .inl (refused_rfl fun _ => rfl)
        | some _ =>
          refine .inr ⟨_, rfl, .moved hfound hlive fun hdown => ?_⟩
          rwa [if_pos hdown] at hfits
  | cancel id answer =>
    simp only [LifecycleCall.exec, cancel]
    cases hacct : s.require id with
    | error e =>
      refine .inl (refused_rfl fun id' => ?_)
      have hnone : s.store.getAccount id = none := by
        cases hfound : s.store.getAccount id with
        | none => rfl
        | some acct =>
          rw [require_eq_ok.mpr hfound] at hacct
          exact nomatch hacct
      simp [LifecycleCall.cancels, hnone]
    | ok acct =>
      cases answer with
      | none => exact .inl (refused_rfl fun id' => by simp [LifecycleCall.cancels])
      | some _ =>
        exact .inr ⟨_, rfl, .canceled (require_eq_ok.mp hacct) rfl⟩
  | pause id =>
    simp only [LifecycleCall.exec, pause]
    cases hacct : s.require id with
    | error e => exact .inl (refused_rfl fun _ => rfl)
    | ok acct => exact .inr ⟨_, rfl, .paused (require_eq_ok.mp hacct)⟩
  | resume id answer =>
    simp only [LifecycleCall.exec, resume, revive]
    cases hacct : s.require id with
    | error e => exact .inl (refused_rfl fun _ => rfl)
    | ok acct =>
      dsimp only
      split_ifs with hpaused
      · exact .inl (refused_rfl fun _ => rfl)
      · rw [not_not] at hpaused
        cases answer with
        | none => exact .inl (refused_rfl fun _ => rfl)
        | some _ =>
          exact .inr ⟨_, rfl, .resumed (require_eq_ok.mp hacct) hpaused⟩
  | reactivate id answer =>
    simp only [LifecycleCall.exec, reactivate, revive]
    cases hacct : s.require id with
    | error e => exact .inl (refused_rfl fun _ => rfl)
    | ok acct =>
      dsimp only
      split_ifs with hstatus hlaps
      · exact .inl (refused_rfl fun _ => rfl)
      · exact .inl (refused_rfl fun _ => rfl)
      · cases answer with
        | none => exact .inl (refused_rfl fun _ => rfl)
        | some _ =>
          rw [← not_or, not_not] at hstatus
          refine .inr ⟨_, rfl, .reactivated (require_eq_ok.mp hacct) hstatus fun start hstart => ?_⟩
          rw [hstart, any_some, decide_eq_true_eq] at hlaps
          exact not_lt.mp hlaps

/-! The account that a call saves. -/

section
variable {s : BillingService} {now : Int} {call : LifecycleCall} {acct : Account}
  {grace : OrderedMap String Int}

theorem withTenant_id (acct : Account) (tenantId : String) :
    (acct.withTenant tenantId).id = acct.id ∧ (acct.withTenant tenantId).tier = acct.tier ∧
      (acct.withTenant tenantId).status = acct.status := by
  unfold withTenant
  split_ifs <;> exact ⟨rfl, rfl, rfl⟩

theorem Change.tenants (h : Change s now call acct grace) {tenantId : String}
    (hmem : tenantId ∈ acct.tenantIds) :
    (∃ old, s.store.getAccount acct.id = some old ∧ tenantId ∈ old.tenantIds) ∨
      ∃ old, call = .attachTenant acct.id tenantId ∧ s.store.getAccount acct.id = some old ∧
        old.Live ∧ old.canAddTenant = true := by
  cases h with
  | created hid hstatus htenants =>
    rw [htenants] at hmem
    exact absurd hmem not_mem_nil
  | @attached id attached old hacct hlive hroom =>
    have hid := id_of_getAccount hacct
    subst hid
    rw [(withTenant_id old attached).1]
    unfold withTenant at hmem
    split_ifs at hmem with hhas
    · exact .inl ⟨old, hacct, hmem⟩
    · rcases mem_append.mp hmem with hmem | hmem
      · exact .inl ⟨old, hacct, hmem⟩
      · rw [mem_singleton.mp hmem]
        exact .inr ⟨old, rfl, hacct, hlive, hroom.resolve_left hhas⟩
  | detached hacct =>
    have hid := id_of_getAccount hacct
    subst hid
    exact .inl ⟨_, hacct, mem_of_mem_filter hmem⟩
  | moved hacct hlive hfits =>
    have hid := id_of_getAccount hacct
    subst hid
    exact .inl ⟨_, hacct, hmem⟩
  | canceled hacct hanswer =>
    have hid := id_of_getAccount hacct
    subst hid
    exact .inl ⟨_, hacct, hmem⟩
  | paused hacct =>
    have hid := id_of_getAccount hacct
    subst hid
    exact .inl ⟨_, hacct, hmem⟩
  | resumed hacct hpaused =>
    have hid := id_of_getAccount hacct
    subst hid
    exact .inl ⟨_, hacct, hmem⟩
  | reactivated hacct hstatus hgrace =>
    have hid := id_of_getAccount hacct
    subst hid
    exact .inl ⟨_, hacct, hmem⟩

theorem includedTenants_pos (tier : Tier) : 0 ≤ (planFor tier).includedTenants := by
  cases tier <;> decide

theorem limit_of_not_downgrade {tier tier' : Tier}
    (h : classifyChange (planFor tier) (planFor tier') ≠ .downgrade)
    (hsing : (planFor tier').has .multiTenant = false) :
    (planFor tier).has .multiTenant = false ∧
      (planFor tier).includedTenants ≤ (planFor tier').includedTenants := by
  revert h hsing
  cases tier <;> cases tier' <;> decide

theorem count_of_fits {id : String} {tier : Tier}
    (h : BillingService.downgradeRefusal id acct tier = none)
    (hsing : (planFor tier).has .multiTenant = false) :
    acct.tenantCount ≤ (planFor tier).includedTenants := by
  unfold downgradeRefusal at h
  by_contra hover
  rw [if_pos ⟨by rw [hsing]; exact Bool.false_ne_true, not_le.mp hover⟩] at h
  exact nomatch h

theorem Change.limit (h : Change s now call acct grace)
    (hlim : ∀ {id acct}, s.store.getAccount id = some acct →
      (planFor acct.tier).has .multiTenant = false →
        acct.tenantCount ≤ (planFor acct.tier).includedTenants)
    (hsing : (planFor acct.tier).has .multiTenant = false) :
    acct.tenantCount ≤ (planFor acct.tier).includedTenants := by
  cases h with
  | created hid hstatus htenants =>
    unfold tenantCount
    rw [htenants]
    exact includedTenants_pos _
  | @attached id tenantId old hacct hlive hroom =>
    rw [(withTenant_id old tenantId).2.1] at hsing ⊢
    unfold withTenant
    split_ifs with hhas
    · exact hlim hacct hsing
    · have hcan := hroom.resolve_left hhas
      unfold canAddTenant at hcan
      rw [hsing, Bool.false_or, decide_eq_true_eq] at hcan
      unfold tenantCount at hcan ⊢
      rw [length_append, length_singleton]
      exact hcan
  | @detached id tenantId old hacct =>
    have hold := hlim hacct hsing
    exact (Int.ofNat_le.mpr (length_filter_le _ old.tenantIds)).trans hold
  | @moved id tier answer old hacct hlive hfits =>
    by_cases hdown : classifyChange (planFor old.tier) (planFor tier) = .downgrade
    · exact count_of_fits (hfits hdown) hsing
    · obtain ⟨hold, hle⟩ := limit_of_not_downgrade hdown hsing
      exact (hlim hacct hold).trans hle
  | canceled hacct hanswer =>
    have hold := hlim hacct hsing
    exact hold
  | paused hacct =>
    have hold := hlim hacct hsing
    exact hold
  | resumed hacct hpaused =>
    have hold := hlim hacct hsing
    exact hold
  | reactivated hacct hstatus hgrace =>
    have hold := hlim hacct hsing
    exact hold

theorem get?_erase_ne {starts : OrderedMap String Int} {id gone : String} (hne : id ≠ gone) :
    (starts.filter fun key _ => key ≠ gone).get? id = starts.get? id := by
  rw [OrderedMap.get?_filter]
  cases starts.get? id with
  | none => rfl
  | some start => exact if_pos (decide_eq_true hne)

theorem Change.grace_ne (h : Change s now call acct grace) {id : String} (hne : id ≠ acct.id) :
    grace.get? id = s.graceStart.get? id := by
  cases h with
  | created | attached | detached | moved => rfl
  | canceled hacct hanswer =>
    have hid := id_of_getAccount hacct
    exact OrderedMap.get?_set_ne _ _ fun h => hne (h.trans hid.symm)
  | paused hacct =>
    have hid := id_of_getAccount hacct
    exact OrderedMap.get?_set_ne _ _ fun h => hne (h.trans hid.symm)
  | resumed hacct hpaused => exact get?_erase_ne hne
  | reactivated hacct hstatus hgrace => exact get?_erase_ne hne

theorem Change.cancels_iff (h : Change s now call acct grace) {id : String} :
    call.cancels s id = true → id = acct.id ∧ acct.status = .canceled ∧
      grace.get? id = some now := by
  intro hcans
  cases h with
  | created | attached | detached | moved | paused | resumed | reactivated =>
    exact absurd hcans Bool.false_ne_true
  | @canceled id' answer old hacct hanswer =>
    unfold LifecycleCall.cancels at hcans
    rw [Bool.and_eq_true, Bool.and_eq_true, decide_eq_true_eq] at hcans
    rw [← hcans.1.1]
    exact ⟨(id_of_getAccount hacct).symm, rfl, OrderedMap.get?_set_self ..⟩

end

namespace History
variable {h : History} {call : Int × LifecycleCall}

/-- A canceled account waits as it was canceled, or was created again over it; and no tenant that
SQL keeps has a comma in its id. -/
structure Tracked (h : History) : Prop where
  waiting : ∀ {id canceled}, h.canceledAt id = some canceled →
    ∃ acct, h.service.store.getAccount id = some acct ∧ (acct.status = .trialing ∨
      (acct.status = .canceled ∧ h.service.graceStart.get? id = some canceled))
  plain : h.service.store.backing = .sql → ∀ {id acct tenantId},
    h.service.store.getAccount id = some acct → tenantId ∈ acct.tenantIds →
      ',' ∉ tenantId.toList

variable {acct : Account}

theorem getAccount_changed {s s' : BillingService} {now : Int} {call : LifecycleCall}
    (h : Changed s s' now call acct) (id : String) : s'.store.getAccount id =
      if id = acct.id then some (s.store.stored acct) else s.store.getAccount id := by
  rw [h.store]
  split_ifs with hid
  · rw [hid, AccountStore.getAccount_saveAccount_self]
  · rw [AccountStore.getAccount_saveAccount_ne _ hid]

theorem stored_sublist {store : AccountStore}
    (h : store.backing = .sql → ∀ id ∈ acct.tenantIds, ',' ∉ id.toList) :
    (store.stored acct).tenantIds.Sublist acct.tenantIds := readBack_sublist h

theorem plain_changed (ht : Tracked h) (hfair : Fair h call)
    (hchg : Changed h.service (h.step call).service call.1 call.2 acct)
    (hsql : h.service.store.backing = .sql) : ∀ id ∈ acct.tenantIds, ',' ∉ id.toList := by
  intro tenantId hmem
  rcases hchg.change.tenants hmem with ⟨old, hold, hmem⟩ | ⟨old, hcall, -⟩
  · exact ht.plain hsql hold hmem
  · unfold Fair at hfair
    rw [hcall] at hfair
    exact hfair.2 hsql

theorem sound_changed (hs : Sound h) (ht : Tracked h) (hfair : Fair h call)
    (hchg : Changed h.service (h.step call).service call.1 call.2 acct) :
    Sound (h.step call) := by
  have hsub := stored_sublist fun hsql => plain_changed ht hfair hchg hsql
  -- a tenant of the saved account is on no other one
  have hown {id : String} {acct' : Account} {tenantId : String}
      (hmem : tenantId ∈ acct.tenantIds) (hacct' : h.service.store.getAccount id = some acct')
      (hmem' : tenantId ∈ acct'.tenantIds) : id = acct.id := by
    rcases hchg.change.tenants hmem with ⟨old, hold, hmem⟩ | ⟨old, hcall, hold, hlive, hcan⟩
    · exact hs.single hacct' hold hmem' hmem
    · unfold Fair at hfair
      rw [hcall] at hfair
      exact hfair.1 old hold hlive hcan id acct' hacct' hmem'
  refine ⟨?_, ?_⟩
  · intro id found hfound hsing
    rw [getAccount_changed hchg] at hfound
    split_ifs at hfound with hid
    · rw [some.injEq] at hfound
      subst hfound
      have hlim := hchg.change.limit hs.limit hsing
      exact (Int.ofNat_le.mpr hsub.length_le).trans hlim
    · exact hs.limit hfound hsing
  · intro id id' found found' tenantId hfound hfound' hmem hmem'
    rw [getAccount_changed hchg] at hfound hfound'
    split_ifs at hfound hfound' with hid hid' hid'
    · exact hid.trans hid'.symm
    · rw [some.injEq] at hfound
      subst hfound
      exact hid.trans (hown (hsub.subset hmem) hfound' hmem').symm
    · rw [some.injEq] at hfound'
      subst hfound'
      exact (hown (hsub.subset hmem') hfound hmem).trans hid'.symm
    · exact hs.single hfound hfound' hmem hmem'

theorem active_changed (ht : Tracked h)
    (hchg : Changed h.service (h.step call).service call.1 call.2 acct)
    (hactive : acct.status = .active)
    (hbef : ∀ old, h.service.store.getAccount acct.id = some old → old.status ≠ .active)
    {canceled : Int} (hcanc : h.canceledAt acct.id = some canceled) :
    call.1 ≤ canceled + h.service.graceDays * BillingService.day := by
  obtain ⟨waiting, hwait, hstatus⟩ := ht.waiting hcanc
  obtain ⟨now, call⟩ := call
  have hchg := hchg.change
  generalize (h.step (now, call)).service.graceStart = grace at hchg
  cases hchg with
  | created hid hnew htenants =>
    rw [hnew] at hactive
    exact nomatch hactive
  | @attached id tenantId old hacct hlive hroom =>
    obtain ⟨hid, -, hsame⟩ := withTenant_id old tenantId
    rw [hid, id_of_getAccount hacct] at hbef
    exact absurd (hsame.symm.trans hactive) (hbef old hacct)
  | @detached id tenantId old hacct =>
    have hid := id_of_getAccount hacct
    subst hid
    exact absurd hactive (hbef old hacct)
  | @moved id tier answer old hacct hlive hfits =>
    have hid := id_of_getAccount hacct
    subst hid
    exact absurd hactive (hbef old hacct)
  | canceled hacct hanswer => exact nomatch hactive
  | paused hacct => exact nomatch hactive
  | @resumed id answer old hacct hpaused =>
    have hid := id_of_getAccount hacct
    subst hid
    obtain rfl := some.inj (hacct.symm.trans hwait)
    rw [hpaused] at hstatus
    rcases hstatus with hstatus | ⟨hstatus, -⟩ <;> exact nomatch hstatus
  | @reactivated id answer old hacct hold hgrace =>
    have hid := id_of_getAccount hacct
    subst hid
    obtain rfl := some.inj (hacct.symm.trans hwait)
    rcases hstatus with hstatus | ⟨-, hstart⟩
    · rw [hstatus] at hold
      rcases hold with hold | hold <;> exact nomatch hold
    · have hwnd := hgrace canceled hstart
      show now ≤ _
      omega

theorem guarded_changed (ht : Tracked h) (hfair : Fair h call)
    (hchg : Changed h.service (h.step call).service call.1 call.2 acct) : Guarded h call := by
  have hsub := stored_sublist fun hsql => plain_changed ht hfair hchg hsql
  refine ⟨?_, ?_⟩
  · intro id old found hold hlive hfound tenantId hmem
    rw [getAccount_changed hchg] at hfound
    split_ifs at hfound with hid
    · rw [some.injEq] at hfound
      subst hfound hid
      rcases hchg.change.tenants (hsub.subset hmem) with
        ⟨before, hbef, hmem⟩ | ⟨before, -, hbef, hbefor, -⟩
      · rwa [some.inj (hold.symm.trans hbef)]
      · exact absurd (some.inj (hold.symm.trans hbef) ▸ hbefor) hlive
    · rwa [some.inj (hold.symm.trans hfound)]
  · intro id found canceled hfound hactive hbef hcanc
    rw [getAccount_changed hchg] at hfound
    split_ifs at hfound with hid
    · rw [some.injEq] at hfound
      subst hfound hid
      exact active_changed ht hchg hactive hbef hcanc
    · exact absurd hactive (hbef found hfound)

theorem waiting_changed (ht : Tracked h) (hfair : Fair h call)
    (hchg : Changed h.service (h.step call).service call.1 call.2 acct) {id : String}
    {canceled : Int} (hcanc : (h.step call).canceledAt id = some canceled) :
    ∃ found, (h.step call).service.store.getAccount id = some found ∧
      (found.status = .trialing ∨ (found.status = .canceled ∧
        (h.step call).service.graceStart.get? id = some canceled)) := by
  have hget := getAccount_changed hchg id
  have hcases : (¬ ((h.step call).service.store.getAccount id).any
        (fun acct => decide (acct.status = .active)) = true) ∧
      ((call.2.cancels h.service id = true ∧ call.1 = canceled) ∨
        (call.2.cancels h.service id = false ∧ h.canceledAt id = some canceled)) := by
    unfold step at hcanc ⊢
    dsimp only at hcanc ⊢
    split_ifs at hcanc with hactive hcans
    · exact ⟨hactive, .inl ⟨hcans, some.inj hcanc⟩⟩
    · exact ⟨hactive, .inr ⟨Bool.eq_false_iff.mpr hcans, hcanc⟩⟩
  obtain ⟨hinact, ⟨hcans, rfl⟩ | ⟨hcans, hwas⟩⟩ := hcases
  · obtain ⟨rfl, hstatus, hstart⟩ := hchg.change.cancels_iff hcans
    rw [if_pos rfl] at hget
    exact ⟨_, hget, .inr ⟨hstatus, hstart⟩⟩
  · obtain ⟨waiting, hwait, hstatus⟩ := ht.waiting hwas
    by_cases hid : id = acct.id
    · subst hid
      rw [if_pos rfl] at hget
      refine ⟨_, hget, ?_⟩
      rw [hget, any_some] at hinact
      obtain ⟨now, call⟩ := call
      have hchg := hchg.change
      revert hchg hinact
      generalize (h.step (now, call)).service.graceStart = grace
      intro hinact hchg
      cases hchg with
      | created hid hnew htenants => exact .inl hnew
      | @attached _ tenantId old hacct hlive hroom =>
        obtain ⟨hid, -, hsame⟩ := withTenant_id old tenantId
        rw [hid] at hwait
        rw [id_of_getAccount hacct] at hwait
        obtain rfl := some.inj (hacct.symm.trans hwait)
        exact .inl (hsame.trans (hstatus.resolve_right fun hcanc => hlive.1 hcanc.1))
      | @detached id tenantId old hacct =>
        have hid := id_of_getAccount hacct
        subst hid
        obtain rfl := some.inj (hacct.symm.trans hwait)
        exact hstatus
      | @moved id tier answer old hacct hlive hfits =>
        have hid := id_of_getAccount hacct
        subst hid
        obtain rfl := some.inj (hacct.symm.trans hwait)
        exact hstatus
      | @canceled id answer old hacct hanswer =>
        have hid := id_of_getAccount hacct
        subst hid
        simp [LifecycleCall.cancels, hanswer, hacct, withStatus] at hcans
      | @paused id old hacct =>
        have hid := id_of_getAccount hacct
        subst hid
        have hnone : h.canceledAt old.id = none := hfair
        exact nomatch hwas.symm.trans hnone
      | resumed | reactivated => exact absurd (decide_eq_true rfl) hinact
    · rw [if_neg hid] at hget
      rw [hget, hchg.change.grace_ne hid]
      exact ⟨waiting, hwait, hstatus⟩

theorem step_backing (h : History) (call : Int × LifecycleCall) :
    (h.step call).service.store.backing = h.service.store.backing := by
  rcases exec_cases h.service call.1 call.2 with href | ⟨acct, hchg⟩
  · exact congrArg AccountStore.backing href.store
  · have hbac := congrArg AccountStore.backing hchg.store
    exact hbac

theorem tracked_changed (ht : Tracked h) (hfair : Fair h call)
    (hchg : Changed h.service (h.step call).service call.1 call.2 acct) :
    Tracked (h.step call) := by
  refine ⟨fun hcanc => waiting_changed ht hfair hchg hcanc, ?_⟩
  intro hsql id found tenantId hfound hmem
  rw [step_backing] at hsql
  have hplain := plain_changed ht hfair hchg hsql
  rw [getAccount_changed hchg] at hfound
  split_ifs at hfound with hid
  · rw [some.injEq] at hfound
    subst hfound
    exact hplain tenantId ((stored_sublist fun _ => hplain).subset hmem)
  · exact ht.plain hsql hfound hmem

theorem refused_step (href : Refused h.service (h.step call).service call.2) (hs : Sound h)
    (ht : Tracked h) : (Sound (h.step call) ∧ Tracked (h.step call)) ∧ Guarded h call := by
  have hget (id : String) :
      (h.step call).service.store.getAccount id = h.service.store.getAccount id := by
    rw [href.store]
  refine ⟨⟨⟨?_, ?_⟩, ⟨?_, ?_⟩⟩, ⟨?_, ?_⟩⟩
  · intro id acct hacct
    rw [hget] at hacct
    exact hs.limit hacct
  · intro id id' acct acct' tenantId hacct hacct'
    rw [hget] at hacct hacct'
    exact hs.single hacct hacct'
  · intro id canceled hcanc
    unfold step at hcanc
    dsimp only at hcanc
    rw [href.cancels, if_neg Bool.false_ne_true] at hcanc
    split_ifs at hcanc
    rw [hget, href.graceStart]
    exact ht.waiting hcanc
  · intro hsql id acct tenantId hacct
    rw [step_backing] at hsql
    rw [hget] at hacct
    exact ht.plain hsql hacct
  · intro id acct acct' hacct _ hacct'
    rw [hget, hacct] at hacct'
    rw [some.inj hacct']
    exact List.Subset.refl _
  · intro id acct canceled hacct hactive hbef _
    rw [hget] at hacct
    exact absurd hactive (hbef acct hacct)

theorem step_fair (hs : Sound h) (ht : Tracked h) (hfair : Fair h call) :
    (Sound (h.step call) ∧ Tracked (h.step call)) ∧ Guarded h call := by
  rcases exec_cases h.service call.1 call.2 with href | ⟨acct, hchg⟩
  · exact refused_step href hs ht
  · exact ⟨⟨sound_changed hs ht hfair hchg, tracked_changed ht hfair hchg⟩,
      guarded_changed ht hfair hchg⟩

theorem start_sound (backing : Backing) (graceDays : Int) :
    Sound (start backing graceDays) ∧ Tracked (start backing graceDays) := by
  refine ⟨⟨fun h => (nomatch h), fun h => (nomatch h)⟩, ⟨fun h => (nomatch h), ?_⟩⟩
  exact fun _ _ _ _ h => nomatch h

/-- Over every history of fair calls the accounts keep to their plans, a tenant is on one account,
no suspended account gains one, and a canceled account is active again only within the window. -/
theorem history_kept (backing : Backing) (graceDays : Int) {calls : List (Int × LifecycleCall)}
    (hfair : EachStep step Fair (start backing graceDays) calls) :
    Along step Sound (start backing graceDays) calls ∧
      EachStep step Guarded (start backing graceDays) calls := by
  have hstep (h : History) (call : Int × LifecycleCall) (hboth : Sound h ∧ Tracked h)
      (hfair : Fair h call) : Sound (h.step call) ∧ Tracked (h.step call) :=
    (step_fair hboth.1 hboth.2 hfair).1
  have hboth := along_of_eachStep hstep (start_sound backing graceDays) hfair
  refine ⟨along_imp (fun _ hboth => hboth.1) hboth, ?_⟩
  intro pre call hpre
  have hbef := hboth pre ((prefix_append pre [call]).trans hpre)
  exact (step_fair hbef.1 hbef.2 (hfair pre call hpre)).2

end History

/-! Two histories. -/

theorem fair_attach {h : History} {now : Int} {accountId tenantId : String}
    (hents : ∀ e ∈ h.service.store.accounts.entries, tenantId ∈ e.2.tenantIds →
      e.1 = accountId) (hmemory : h.service.store.backing = .memory) :
    History.Fair h (now, .attachTenant accountId tenantId) := by
  refine ⟨fun _ _ _ _ other acct hacct hmem => ?_, fun hsql => ?_⟩
  · exact hents (other, acct) (OrderedMap.mem_entries.mpr hacct) hmem
  · rw [hmemory] at hsql
    exact nomatch hsql

/-- Two businesses on accounts of their own; one account is canceled and comes back in its window.
-/
def ownAccounts : List (Int × LifecycleCall) :=
  [(0, .createAccount "a1" "Acme" "owner@acme.test" .selfServe 14 (some "cus_a1")),
    (0, .createAccount "a2" "Bolt" "owner@bolt.test" .selfServe 14 (some "cus_a2")),
    (1, .attachTenant "a1" "t1"), (2, .attachTenant "a2" "t2"), (10, .cancel "a1" (some "ok")),
    (20, .reactivate "a1" (some "ok"))]

theorem ownAccounts_kept : Along History.step History.Sound (History.start .memory 30) ownAccounts ∧
      EachStep History.step History.Guarded (History.start .memory 30) ownAccounts := by
  refine History.history_kept .memory 30 ?_
  simp only [ownAccounts, eachStep_cons]
  exact ⟨trivial, trivial, fair_attach (by decide) rfl, fair_attach (by decide) rfl, trivial,
    trivial, eachStep_nil⟩

def pausedLater : List (Int × LifecycleCall) :=
  [(0, .createAccount "a1" "Acme" "owner@acme.test" .selfServe 14 (some "cus_a1")),
    (0, .cancel "a1" (some "ok")), (31536000, .pause "a1")]

theorem canceled_resumes_late : ¬ ∀ calls,
    EachStep History.step History.Guarded (History.start .memory 30) calls := by
  intro hall
  have hguar := hall (pausedLater ++ [(31536000, .resume "a1" (some "ok"))]) pausedLater _
    prefix_rfl
  have hlate : ¬ (31536000 : Int) ≤ 0 + 30 * day := by decide
  refine hlate (@hguar.inGrace "a1" _ 0 rfl rfl ?_ rfl)
  intro acct hacct
  rw [← some.inj hacct]
  decide

end Rgnr8.Platform.Billing
