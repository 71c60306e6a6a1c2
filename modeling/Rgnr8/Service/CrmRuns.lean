import Rgnr8.Service.Crm

/-! What holds of the pipeline and of its feed, over every run of the calls. -/

namespace Rgnr8.Service.Crm
open Lib Lib.Js Fallible Kernel CrmStore CrmStores CrmEvent Option List Except

/-! What a reader of the feed makes of it. -/

def Stage.named (text : String) : Option Stage := stages.find? fun m => m.text = text

theorem Stage.named_text (m : Stage) : Stage.named m.text = some m := by cases m <;> decide

def CrmEvent.text (e : CrmEvent) (field : String) : String := (e.payload.lookup field).getD ""

/-- The stage that an event names for the opportunity `id`. -/
def CrmEvent.stage (e : CrmEvent) (id : String) : Option Stage :=
  if e.subject ≠ id then none else
  match e.kind with
  | .opportunityCreated | .opportunityUpdated => Stage.named (e.text "stage")
  | .stageChanged | .reopened => Stage.named (e.text "to")
  | .won => some .won
  | .lost => some .lost
  | _ => none

def stageTold (id : String) (feed : List CrmEventRecord) : Option Stage :=
  feed.foldl (fun told e => (e.stage id).or told) none

theorem stageTold_append (id : String) (feed : List CrmEventRecord) (e : CrmEventRecord) :
    stageTold id (feed ++ [e]) = (e.stage id).or (stageTold id feed) := by
  unfold stageTold
  rw [foldl_append]
  rfl

def Numbered (feed : List CrmEventRecord) : Prop :=
  feed.map CrmEventRecord.sequence = List.range' 1 feed.length

theorem Numbered.append {feed : List CrmEventRecord} (h : Numbered feed) (e : CrmEvent) :
    Numbered (feed ++ [⟨e, feed.length + 1⟩]) := by
  unfold Numbered at *
  rw [map_append, h, length_append]
  show _ = range' 1 (feed.length + 1)
  rw [range'_1_concat, Nat.add_comm]
  rfl

variable {ctx : CrmContext} {e : CrmEvent} {s : CrmStores}
variable {event : EventKind × List (String × String)} {lead : LeadRecord} {input : OpportunityInput}
variable {o : OpportunityRecord} {id : String} {t : TenantId} {reopens : TenantId → String → Prop}

theorem CrmStore.listEvents_eq_log {s : CrmStore} (h : Numbered (s.log t)) {limit : Nat}
    (hlim : (s.log t).length ≤ limit) : s.listEvents t 0 limit = s.log t := by
  unfold listEvents
  rw [filter_eq_self.mpr, take_of_length_le hlim]
  intro e he
  have hmem : e.sequence ∈ range' 1 (s.log t).length := by
    rw [← h]
    exact mem_map_of_mem he
  have : 1 ≤ e.sequence := (mem_range'_1.mp hmem).1
  exact decide_eq_true this

/-! What the records have to satisfy. -/

structure OpportunityRecord.Sound (o : OpportunityRecord) : Prop where
  lost : o.stage = .lost → o.lostReason ≠ "" ∧ o.probabilityPpm = 0 ∧ o.jobId = ""
  won : o.stage = .won → o.probabilityPpm = 1000000

structure CrmStore.Sound (s : CrmStore) : Prop where
  converted : ∀ t id l, s.getLead t id = some l → l.status = .converted → l.customerId ≠ ""
  closed : ∀ t id o, s.getOpportunity t id = some o → o.Sound
  numbered : ∀ t, Numbered (s.log t)
  told : ∀ t id o limit, s.getOpportunity t id = some o → (s.log t).length ≤ limit →
    stageTold id (s.listEvents t 0 limit) = some o.stage

theorem CrmStore.Sound.told_log {s : CrmStore} (h : s.Sound) (ho : s.getOpportunity t id = some o) :
    stageTold id (s.log t) = some o.stage := by
  rw [← listEvents_eq_log (h.numbered t) le_rfl]
  exact h.told t id o _ ho le_rfl

theorem CrmStore.getOpportunity_empty (t : TenantId) (id : String) :
    CrmStore.empty.getOpportunity t id = none := rfl

theorem CrmStore.sound_empty : CrmStore.empty.Sound := by
  refine ⟨?_, ?_, fun _ => rfl, ?_⟩
  · intro t id l hl
    have hnone : (none : Option LeadRecord) = some l := hl
    cases hnone
  · intro t id o ho
    rw [getOpportunity_empty] at ho
    cases ho
  · intro t id o limit ho
    rw [getOpportunity_empty] at ho
    cases ho

/-- Won and lost are left by reopening alone, and a stage that is new is in an event that is new. -/
structure CrmStore.Follows (reopens : TenantId → String → Prop) (s s' : CrmStore) : Prop where
  sticky : ∀ t id o, s.getOpportunity t id = some o → o.stage = .won ∨ o.stage = .lost →
    ¬ reopens t id → ∃ o', s'.getOpportunity t id = some o' ∧ o'.stage = o.stage
  told : ∀ t id o', s'.getOpportunity t id = some o' →
    (∀ o, s.getOpportunity t id = some o → o.stage ≠ o'.stage) →
    ∃ e ∈ (s'.log t).drop (s.log t).length, e.stage id = some o'.stage

theorem CrmStore.follows_refl (reopens : TenantId → String → Prop) (s : CrmStore) :
    s.Follows reopens s where
  sticky _ _ o ho _ _ := ⟨o, ho, rfl⟩
  told _ _ o' ho' hnew := absurd rfl (hnew o' ho')

/-! Requests that keep to what the dedicated calls do. -/

def LeadInput.Fits (ctx : CrmContext) (input : LeadInput) (s : CrmStores) : Prop :=
  leadStatusOf ctx input = .ok .converted →
    ∃ l, s.crm.getLead ctx.tenant (leadId input) = some l ∧ l.status = .converted

/-- Lost is saved only over lost, and a typed probability is the one of the stage. -/
structure OpportunityInput.Fits (ctx : CrmContext) (input : OpportunityInput) (s : CrmStores) :
    Prop where
  lost : stageOf ctx input = .ok .lost →
    (∃ o, s.crm.getOpportunity ctx.tenant (opportunityId input) = some o ∧ o.stage = .lost) ∧
      ∀ raw, input.probabilityPpm = some raw → integerOf (Js.numberOf raw) = some 0
  won : stageOf ctx input = .ok .won →
    ∀ raw, input.probabilityPpm = some raw → integerOf (Js.numberOf raw) = some 1000000

/-- What an accepted call has to satisfy: saving keeps off what is for converting and losing, and
an estimate goes to an opportunity that has one to come. -/
def CrmStores.Allowed (s : CrmStores) : CrmOp → Prop
  | .saveLead ctx input => (∃ lead, leadOf ctx input s = .ok lead) → input.Fits ctx s
  | .saveOpportunity ctx input => (∃ o, opportunityOf ctx input s = .ok o) → input.Fits ctx s
  | .convertLead ctx id input => ∀ lead customerId opportunity,
      customerOf ctx id input s = .ok (lead, customerId) → input.opportunity = some opportunity →
      let opened := openedWith lead customerId opportunity
      let converted := s.convert ctx lead customerId input.termsDays
      (∃ o, opportunityOf ctx.later opened converted = .ok o) → opened.Fits ctx.later converted
  | .attachEstimate ctx id estimateId => ctx.estimates.get ctx.tenant estimateId ≠ none →
      ∀ o, s.crm.getOpportunity ctx.tenant id = some o → o.stage ≠ .new ∧ o.stage ≠ .qualified
  | _ => True

def CrmOp.Reopens : CrmOp → TenantId → String → Prop
  | .reopenOpportunity ctx id _, t, i => ctx.tenant = t ∧ id = i
  | _, _, _ => False

/-! Saving a record and telling the feed. -/

theorem CrmStore.log_appendEvent (s : CrmStore) (t u : TenantId) (e : CrmEvent) :
    (s.appendEvent t e).log u =
      if u = t then s.log t ++ [⟨e, (s.log t).length + 1⟩] else s.log u := by
  unfold appendEvent log
  rw [OrderedMap.get?_set]
  split_ifs with h
  · rfl
  · rfl

/-- A store of which one tenant's feed has one event more is sound when its records are and the
feed tells their stages. -/
theorem CrmStore.Sound.append {s s' : CrmStore} (h : s.Sound)
    (hlog : ∀ u, s'.log u = if u = t then s.log t ++ [⟨e, (s.log t).length + 1⟩] else s.log u)
    (hleads : ∀ u id l, s'.getLead u id = some l → l.status = .converted → l.customerId ≠ "")
    (hrecs : ∀ u id o, s'.getOpportunity u id = some o → o.Sound ∧ stageTold id (s'.log u) =
      some o.stage) : s'.Sound := by
  have hnumd : ∀ u, Numbered (s'.log u) := by
    intro u
    rw [hlog]
    split_ifs with hu
    · exact (h.numbered t).append e
    · exact h.numbered u
  refine ⟨hleads, fun u id o ho => (hrecs u id o ho).1, hnumd, ?_⟩
  intro u id o limit ho hlim
  rw [listEvents_eq_log (hnumd u) hlim]
  exact (hrecs u id o ho).2

def leadKind : EventKind → Prop
  | .leadCreated | .leadUpdated | .leadConverted => True
  | _ => False

theorem CrmEvent.stage_of_leadKind (h : leadKind e.kind) (id : String) : e.stage id = none := by
  unfold stage
  split_ifs
  · rfl
  · cases hkind : e.kind <;> simp_all [leadKind]

theorem CrmStore.sound_saveLead {s : CrmStore} (h : s.Sound)
    (hlead : lead.status = .converted → lead.customerId ≠ "") (hkind : leadKind e.kind) :
    ((s.saveLead t lead).appendEvent t e).Sound := by
  refine h.append (fun u => log_appendEvent _ t u e) ?_ ?_
  · intro u id l hl
    have hget : ((s.leads.set (t, lead.id) lead).get? (u, id)) = some l := hl
    rw [OrderedMap.get?_set] at hget
    split_ifs at hget with hkey
    · rwa [← some.inj hget]
    · exact h.converted u id l hget
  · intro u id o ho
    refine ⟨h.closed u id o ho, ?_⟩
    rw [log_appendEvent]
    split_ifs with hu
    · subst u
      rw [stageTold_append, stage_of_leadKind hkind, none_or]
      exact h.told_log ho
    · exact h.told_log ho

theorem CrmStore.follows_saveLead (reopens : TenantId → String → Prop) (s : CrmStore)
    (t : TenantId) (lead : LeadRecord) (e : CrmEvent) :
    s.Follows reopens ((s.saveLead t lead).appendEvent t e) where
  sticky _ _ o ho _ _ := ⟨o, ho, rfl⟩
  told _ _ o' ho' hnew := absurd rfl (hnew o' ho')

theorem CrmStores.getOpportunity_put (s : CrmStores) (ctx : CrmContext) (o : OpportunityRecord)
    (event : EventKind × List (String × String)) (t : TenantId) (id : String) :
    (s.put ctx o event).crm.getOpportunity t id =
      if (t, id) = (ctx.tenant, o.id) then some o else s.crm.getOpportunity t id :=
  OrderedMap.get?_set s.crm.opportunities (ctx.tenant, o.id) (t, id) o

theorem CrmStores.log_put (s : CrmStores) (ctx : CrmContext) (o : OpportunityRecord)
    (event : EventKind × List (String × String)) (t : TenantId) :
    (s.put ctx o event).crm.log t = if t = ctx.tenant then
      s.crm.log ctx.tenant ++ [⟨⟨ctx.now 0, event.1, o.id, event.2⟩, (s.crm.log ctx.tenant).length + 1⟩]
      else s.crm.log t := log_appendEvent _ _ _ _

/-- What an event has to do for the record saved with it: name its stage, or say nothing of a stage
that stays. -/
def CrmStores.Tells (s : CrmStores) (ctx : CrmContext) (o : OpportunityRecord)
    (event : EventKind × List (String × String)) : Prop :=
  (∀ at_, (CrmEvent.mk at_ event.1 o.id event.2).stage o.id = some o.stage) ∨
    event.1 = .estimateAttached ∧
      ∃ o₀, s.crm.getOpportunity ctx.tenant o.id = some o₀ ∧ o₀.stage = o.stage

theorem CrmEvent.stage_estimateAttached (at_ subject id : String) (payload : List (String × String)) :
    (CrmEvent.mk at_ .estimateAttached subject payload).stage id = none := by
  unfold stage
  split_ifs
  · rfl
  · rfl

theorem CrmEvent.stage_of_ne (h : e.subject ≠ id) : e.stage id = none := if_pos h

theorem CrmStores.sound_put (h : s.crm.Sound) (ho : o.Sound) (htells : s.Tells ctx o event) :
    (s.put ctx o event).crm.Sound := by
  refine h.append (fun u => s.log_put ctx o event u) h.converted ?_
  intro u id o' ho'
  rw [getOpportunity_put] at ho'
  rw [log_put]
  split_ifs at ho' with hkey
  · obtain ⟨hu, hid⟩ := Prod.mk.inj hkey
    rw [if_pos hu, stageTold_append, hid, ← some.inj ho']
    refine ⟨ho, ?_⟩
    rcases htells with hstage | ⟨hkind, o₀, ho₀, hsame⟩
    · rw [hstage, some_or]
    · rw [hkind, stage_estimateAttached, none_or, h.told_log ho₀, hsame]
  · refine ⟨h.closed u id o' ho', ?_⟩
    split_ifs with hu
    · subst u
      have hne : o.id ≠ id := fun hid => hkey (Prod.ext rfl hid.symm)
      rw [stageTold_append, stage_of_ne hne, none_or]
      exact h.told_log ho'
    · exact h.told_log ho'

theorem CrmStores.follows_put (hstays : ∀ o₀, s.crm.getOpportunity ctx.tenant o.id = some o₀ →
      o₀.stage = .won ∨ o₀.stage = .lost → ¬ reopens ctx.tenant o.id → o.stage = o₀.stage)
    (htells : s.Tells ctx o event) : s.crm.Follows reopens (s.put ctx o event).crm := by
  constructor
  · intro t id o₀ ho₀ hclo hnot
    rw [getOpportunity_put]
    split_ifs with hkey
    · obtain ⟨rfl, rfl⟩ := Prod.mk.inj hkey
      exact ⟨o, rfl, hstays o₀ ho₀ hclo hnot⟩
    · exact ⟨o₀, ho₀, rfl⟩
  · intro t id o' ho' hnew
    rw [getOpportunity_put] at ho'
    split_ifs at ho' with hkey
    · obtain ⟨rfl, rfl⟩ := Prod.mk.inj hkey
      obtain rfl := some.inj ho'
      rcases htells with hstage | ⟨-, o₀, ho₀, hsame⟩
      · rw [log_put, if_pos rfl, drop_left]
        exact ⟨_, mem_singleton_self _, hstage _⟩
      · exact absurd hsame (hnew o₀ ho₀)
    · exact absurd rfl (hnew o' ho')

/-! The calls. -/

theorem leadOf_spec {input : LeadInput} (h : leadOf ctx input s = .ok lead) :
    leadStatusOf ctx input = .ok lead.status ∧ lead.id = leadId input ∧
      lead.customerId =
        ((s.crm.getLead ctx.tenant (leadId input)).map LeadRecord.customerId).getD "" := by
  unfold leadOf at h
  obtain ⟨-, h⟩ := refuse_bind_eq_ok.mp h
  obtain ⟨status, hstatus, h⟩ := bind_eq_ok.mp h
  obtain ⟨-, h⟩ := refuse_bind_eq_ok.mp h
  obtain ⟨created, -, hlead⟩ := bind_eq_ok.mp h
  obtain rfl := ok.inj hlead
  dsimp only
  exact ⟨hstatus, rfl, rfl⟩

structure OpportunityOf (ctx : CrmContext) (input : OpportunityInput) (s : CrmStores)
    (o : OpportunityRecord) : Prop where
  id : o.id = opportunityId input
  stage : stageOf ctx input = .ok o.stage
  stays : ∀ o₀, s.crm.getOpportunity ctx.tenant o.id = some o₀ →
    o₀.stage = .won ∨ o₀.stage = .lost → o.stage = o₀.stage
  probability :
    probabilityOf input (s.crm.getOpportunity ctx.tenant o.id) o.stage = .ok o.probabilityPpm
  jobId : o.jobId =
    ((s.crm.getOpportunity ctx.tenant o.id).map OpportunityRecord.jobId).getD ""
  lostReason : o.lostReason =
    ((s.crm.getOpportunity ctx.tenant o.id).map OpportunityRecord.lostReason).getD ""

theorem opportunityOf_spec (h : opportunityOf ctx input s = .ok o) :
    OpportunityOf ctx input s o := by
  unfold opportunityOf at h
  obtain ⟨-, h⟩ := refuse_bind_eq_ok.mp h
  obtain ⟨stage, hstage, h⟩ := bind_eq_ok.mp h
  obtain ⟨-, h⟩ := refuse_bind_eq_ok.mp h
  obtain ⟨-, h⟩ := refuse_bind_eq_ok.mp h
  obtain ⟨-, h⟩ := refuse_bind_eq_ok.mp h
  obtain ⟨hstays, h⟩ := refuse_bind_eq_ok.mp h
  obtain ⟨p, hp, h⟩ := bind_eq_ok.mp h
  obtain ⟨value, -, h⟩ := bind_eq_ok.mp h
  obtain ⟨expected, -, h⟩ := bind_eq_ok.mp h
  obtain ⟨created, -, ho⟩ := bind_eq_ok.mp h
  obtain rfl := ok.inj ho
  constructor <;> dsimp only
  · exact hstage
  · intro o₀ ho₀ hclo
    by_contra hne
    simp only [ho₀, any_some, decide_eq_true_eq] at hstays
    exact hstays ⟨hclo, hne⟩
  · exact hp

theorem probabilityOf_eq {existing : Option OpportunityRecord} {stage : Stage} {p c : Int}
    (h : probabilityOf input existing stage = .ok p)
    (htyped : ∀ raw, input.probabilityPpm = some raw → integerOf (Js.numberOf raw) = some c)
    (hfile : (((existing.filter fun e => e.stage = stage).map
      OpportunityRecord.probabilityPpm).getD (defaultProbability stage)) = c) : p = c := by
  unfold probabilityOf at h
  cases htext : input.probabilityPpm with
  | none =>
    simp only [htext, hfile] at h
    split at h
    · cases h
    · rename_i q hq
      rw [← ok.inj h]
      exact (some.inj (filter_eq_some_iff.mp hq).1).symm
  | some raw =>
    simp only [htext, htyped raw htext] at h
    split at h
    · cases h
    · rename_i q hq
      rw [← ok.inj h]
      exact (some.inj (filter_eq_some_iff.mp hq).1).symm

theorem OpportunityInput.sound_of_fits (hs : s.crm.Sound) (hfits : input.Fits ctx s)
    (h : OpportunityOf ctx input s o) : o.Sound := by
  constructor
  · intro hlost
    -- lost before: what the stored row records is carried over
    obtain ⟨⟨o₀, ho₀, hlost₀⟩, htyped⟩ := hfits.lost (by rw [h.stage, hlost])
    rw [← h.id] at ho₀
    obtain ⟨hreas, hprob, hjob⟩ := (hs.closed ctx.tenant o.id o₀ ho₀).lost hlost₀
    refine ⟨?_, ?_, ?_⟩
    · rw [h.lostReason, ho₀]
      exact hreas
    · have hfile : ((some o₀).filter fun e => e.stage = o.stage) = some o₀ :=
        filter_eq_some_iff.mpr ⟨rfl, decide_eq_true (hlost₀.trans hlost.symm)⟩
      refine probabilityOf_eq h.probability htyped ?_
      rw [ho₀, hfile]
      exact hprob
    · rw [h.jobId, ho₀]
      exact hjob
  · intro hwon
    have htyped := hfits.won (by rw [h.stage, hwon])
    refine probabilityOf_eq h.probability htyped ?_
    cases hfile : (s.crm.getOpportunity ctx.tenant o.id).filter fun e => e.stage = o.stage with
    | none =>
      rw [hwon]
      rfl
    | some o₀ =>
      obtain ⟨ho₀, hsame⟩ := filter_eq_some_iff.mp hfile
      exact (hs.closed ctx.tenant o.id o₀ ho₀).won ((of_decide_eq_true hsame).trans hwon)

theorem stage_event_of_lookup {at_ : String} {stage : Stage} {field : String}
    (hfield : event.2.lookup field = some stage.text) :
    Stage.named ((CrmEvent.mk at_ event.1 id event.2).text field) = some stage := by
  unfold text
  rw [hfield]
  exact stage.named_text

theorem savedEvent_tells (s : CrmStores) (ctx : CrmContext) (existing : Option OpportunityRecord)
    (o : OpportunityRecord) : s.Tells ctx o (savedEvent existing o) := by
  refine .inl fun at_ => ?_
  unfold stage
  rw [if_neg (not_not_intro rfl)]
  unfold savedEvent
  cases existing with
  | none => exact stage_event_of_lookup rfl
  | some e =>
    dsimp only
    split_ifs
    · exact stage_event_of_lookup rfl
    · exact stage_event_of_lookup rfl

theorem sound_saveOpportunity (hs : s.crm.Sound)
    (hfits : (∃ o, opportunityOf ctx input s = .ok o) → input.Fits ctx s) :
    (saveOpportunity ctx input s).2.crm.Sound := by
  unfold saveOpportunity
  cases ho : opportunityOf ctx input s with
  | error e => exact hs
  | ok o =>
    exact sound_put hs (OpportunityInput.sound_of_fits hs (hfits ⟨o, ho⟩)
      (opportunityOf_spec ho)) (savedEvent_tells s ctx _ o)

theorem follows_saveOpportunity (reopens : TenantId → String → Prop) (ctx : CrmContext)
    (input : OpportunityInput) (s : CrmStores) :
    s.crm.Follows reopens (saveOpportunity ctx input s).2.crm := by
  unfold saveOpportunity
  cases ho : opportunityOf ctx input s with
  | error e => exact follows_refl _ _
  | ok o =>
    exact follows_put (fun o₀ ho₀ hclo _ => (opportunityOf_spec ho).stays o₀ ho₀ hclo)
      (savedEvent_tells s ctx _ o)

theorem CrmStores.withCustomer_crm (s : CrmStores) (ctx : CrmContext) (lead : LeadRecord)
    (customerId : String) (termsDays : Option TextOrNumber) :
    (s.withCustomer ctx lead customerId termsDays).crm = s.crm := by
  unfold withCustomer
  split
  · rfl
  · rfl

theorem CrmStores.convert_crm (s : CrmStores) (ctx : CrmContext) (lead : LeadRecord)
    (customerId : String) (termsDays : Option TextOrNumber) :
    (s.convert ctx lead customerId termsDays).crm =
      (s.crm.saveLead ctx.tenant { lead with status := .converted, customerId := customerId }).appendEvent
        ctx.tenant ⟨ctx.now 0, .leadConverted, lead.id, [("customer_id", customerId)]⟩ := by
  unfold convert recordEvent
  dsimp only
  rw [withCustomer_crm]

theorem CrmStores.sound_convert (hs : s.crm.Sound) (ctx : CrmContext) (lead : LeadRecord)
    {customerId : String} (hcus : customerId ≠ "") (termsDays : Option TextOrNumber) :
    (s.convert ctx lead customerId termsDays).crm.Sound := by
  rw [convert_crm]
  exact sound_saveLead hs (fun _ => hcus) trivial

theorem CrmStore.Follows.before {s s' : CrmStore}
    (h : ((s.saveLead t lead).appendEvent t e).Follows reopens s') : s.Follows reopens s' where
  sticky u id o ho hclo hnot := h.sticky u id o ho hclo hnot
  told u id o' ho' hnew := by
    obtain ⟨e', he', hstage⟩ := h.told u id o' ho' hnew
    refine ⟨e', drop_subset_drop_left _ ?_ he', hstage⟩
    have hlog := (s.saveLead t lead).log_appendEvent t u e
    rw [hlog]
    split_ifs with hu
    · rw [hu, length_append]
      exact Nat.le_add_right _ _
    · exact le_rfl

theorem customerOf_ne_empty {customerId : String} {input : ConvertInput}
    (h : customerOf ctx id input s = .ok (lead, customerId)) : customerId ≠ "" := by
  unfold customerOf at h
  cases hl : s.crm.getLead ctx.tenant id with
  | none =>
    rw [hl] at h
    cases h
  | some l =>
    rw [hl] at h
    obtain ⟨-, h⟩ := refuse_bind_eq_ok.mp h
    obtain ⟨-, h⟩ := refuse_bind_eq_ok.mp h
    obtain ⟨hne, h⟩ := refuse_bind_eq_ok.mp h
    rwa [← (Prod.mk.inj (ok.inj h)).2]

theorem sound_convertLead {input : ConvertInput} (hs : s.crm.Sound)
    (hallow : s.Allowed (.convertLead ctx id input)) :
    (convertLead ctx id input s).2.crm.Sound := by
  unfold convertLead
  cases hc : customerOf ctx id input s with
  | error e => exact hs
  | ok c =>
    obtain ⟨lead, customerId⟩ := c
    have hs₁ := sound_convert hs ctx lead (customerOf_ne_empty hc) input.termsDays
    dsimp only
    cases ho : input.opportunity with
    | none => exact hs₁
    | some opportunity =>
      have hfits := hallow lead customerId opportunity hc ho
      dsimp only at hfits ⊢
      exact sound_saveOpportunity hs₁ hfits

theorem follows_convertLead (reopens : TenantId → String → Prop) (ctx : CrmContext) (id : String)
    (input : ConvertInput) (s : CrmStores) :
    s.crm.Follows reopens (convertLead ctx id input s).2.crm := by
  unfold convertLead
  cases hc : customerOf ctx id input s with
  | error e => exact follows_refl _ _
  | ok c =>
    obtain ⟨lead, customerId⟩ := c
    dsimp only
    cases ho : input.opportunity with
    | none =>
      dsimp only
      rw [convert_crm]
      exact follows_saveLead _ _ _ _ _
    | some opportunity =>
      have h := follows_saveOpportunity reopens ctx.later (openedWith lead customerId opportunity)
        (s.convert ctx lead customerId input.termsDays)
      rw [convert_crm] at h
      dsimp only
      exact h.before

theorem sound_saveLead {input : LeadInput} (hs : s.crm.Sound)
    (hallow : s.Allowed (.saveLead ctx input)) : (saveLead ctx input s).2.crm.Sound := by
  unfold saveLead
  cases hl : leadOf ctx input s with
  | error e => exact hs
  | ok lead =>
    obtain ⟨hstatus, hid, hcus⟩ := leadOf_spec hl
    refine CrmStore.sound_saveLead hs ?_ ?_
    · intro hcon
      obtain ⟨l, hl₀, hl₁⟩ := hallow ⟨lead, hl⟩ (by rw [hstatus, hcon])
      rw [hcus, hl₀]
      exact hs.converted ctx.tenant _ l hl₀ hl₁
    · dsimp only
      split_ifs
      · trivial
      · trivial

theorem follows_saveLead (reopens : TenantId → String → Prop) (ctx : CrmContext)
    (input : LeadInput) (s : CrmStores) :
    s.crm.Follows reopens (saveLead ctx input s).2.crm := by
  unfold saveLead
  cases leadOf ctx input s with
  | error e => exact follows_refl _ _
  | ok lead => exact CrmStore.follows_saveLead _ _ _ _ _

/-! The changes of an opportunity on file. -/

theorem found_spec (h : found ctx id s = .ok o) : s.crm.getOpportunity ctx.tenant id = some o ∧
      s.crm.getOpportunity ctx.tenant o.id = some o := by
  unfold found at h
  cases ho : s.crm.getOpportunity ctx.tenant id with
  | none =>
    rw [ho] at h
    cases h
  | some o' =>
    rw [ho] at h
    obtain rfl := ok.inj h
    rw [s.crm.id_of_get ho]
    exact ⟨rfl, ho⟩

/-- What a change has to do for the store to stay sound, and for the record to follow the one on
file. -/
structure Changes (reopens : TenantId → String → Prop) (ctx : CrmContext) (s : CrmStores)
    (o : OpportunityRecord) (event : EventKind × List (String × String)) : Prop where
  sound : o.Sound
  tells : s.Tells ctx o event
  stays : ∀ o₀, s.crm.getOpportunity ctx.tenant o.id = some o₀ →
    o₀.stage = .won ∨ o₀.stage = .lost → ¬ reopens ctx.tenant o.id → o.stage = o₀.stage

theorem change_spec
    {x : Except CrmFailure (OpportunityRecord × EventKind × List (String × String))}
    (hs : s.crm.Sound) (h : ∀ o event, x = .ok (o, event) → Changes reopens ctx s o event) :
    (change ctx s x).2.crm.Sound ∧ s.crm.Follows reopens (change ctx s x).2.crm := by
  unfold change
  cases x with
  | error e => exact ⟨hs, follows_refl _ _⟩
  | ok r =>
    obtain ⟨o, event⟩ := r
    have hchg := h o event rfl
    exact ⟨sound_put hs hchg.sound hchg.tells,
      follows_put hchg.stays hchg.tells⟩

theorem attached_changes {estimateId : String} (hs : s.crm.Sound)
    (hallow : s.Allowed (.attachEstimate ctx id estimateId))
    (h : attached ctx id estimateId s = .ok (o, event)) : Changes reopens ctx s o event := by
  unfold attached at h
  obtain ⟨o₀, hfound, h⟩ := bind_eq_ok.mp h
  obtain ⟨hest, h⟩ := refuse_bind_eq_ok.mp h
  obtain ⟨hid, ho₀⟩ := found_spec hfound
  have hlate : ¬ (o₀.stage = .new ∨ o₀.stage = .qualified) :=
    not_or.mpr (hallow hest o₀ hid)
  simp only [if_neg hlate] at h
  obtain ⟨rfl, rfl⟩ := Prod.mk.inj (ok.inj h)
  have hsound := hs.closed ctx.tenant o₀.id o₀ ho₀
  refine ⟨⟨hsound.lost, hsound.won⟩, .inr ⟨rfl, o₀, ho₀, rfl⟩, ?_⟩
  intro o' ho' _ _
  rw [some.inj (ho₀.symm.trans ho')]

theorem won_changes {input : CloseInput} (h : won ctx id input s = .ok (o, event)) :
    Changes reopens ctx s o event := by
  unfold won at h
  obtain ⟨o₀, hfound, h⟩ := bind_eq_ok.mp h
  obtain ⟨-, ho₀⟩ := found_spec hfound
  obtain ⟨hwon, h⟩ := refuse_bind_eq_ok.mp h
  obtain ⟨hlost, h⟩ := refuse_bind_eq_ok.mp h
  obtain ⟨-, h⟩ := refuse_bind_eq_ok.mp h
  obtain ⟨value, -, h⟩ := bind_eq_ok.mp h
  obtain ⟨rfl, rfl⟩ := Prod.mk.inj (ok.inj h)
  refine ⟨⟨nofun, fun _ => rfl⟩, .inl fun _ => if_neg (not_not_intro rfl), ?_⟩
  intro o' ho' hclo _
  rw [← some.inj (ho₀.symm.trans ho')] at hclo
  exact absurd hclo (not_or.mpr ⟨hwon, hlost⟩)

theorem lost_changes {input : CloseInput} (h : lost ctx id input s = .ok (o, event)) :
    Changes reopens ctx s o event := by
  unfold lost at h
  obtain ⟨o₀, hfound, h⟩ := bind_eq_ok.mp h
  obtain ⟨-, ho₀⟩ := found_spec hfound
  obtain ⟨hlost, h⟩ := refuse_bind_eq_ok.mp h
  obtain ⟨hwon, h⟩ := refuse_bind_eq_ok.mp h
  obtain ⟨hreas, h⟩ := refuse_bind_eq_ok.mp h
  obtain ⟨rfl, rfl⟩ := Prod.mk.inj (ok.inj h)
  refine ⟨⟨fun _ => ⟨hreas, rfl, rfl⟩, nofun⟩, .inl fun _ => if_neg (not_not_intro rfl), ?_⟩
  intro o' ho' hclo _
  rw [← some.inj (ho₀.symm.trans ho')] at hclo
  exact absurd hclo (not_or.mpr ⟨hwon, hlost⟩)

theorem openStages_open {m : Stage} (h : m ∈ openStages) : m ≠ .won ∧ m ≠ .lost := by
  revert m
  decide

theorem reopened_changes {stage : Option String} (h : reopened ctx id stage s = .ok (o, event)) :
    Changes (CrmOp.reopenOpportunity ctx id stage).Reopens ctx s o event := by
  unfold reopened at h
  obtain ⟨o₀, hfound, h⟩ := bind_eq_ok.mp h
  obtain ⟨hid, -⟩ := found_spec hfound
  obtain ⟨-, h⟩ := refuse_bind_eq_ok.mp h
  split at h
  · cases h
  · rename_i target htgt
    obtain ⟨rfl, rfl⟩ := Prod.mk.inj (ok.inj h)
    obtain ⟨hwon, hlost⟩ := openStages_open (mem_of_find?_eq_some htgt)
    refine ⟨⟨fun h' => absurd h' hlost, fun h' => absurd h' hwon⟩, .inl fun _ => ?_, ?_⟩
    · unfold CrmEvent.stage
      rw [if_neg (not_not_intro rfl)]
      exact stage_event_of_lookup rfl
    · exact fun o' _ _ hnot => absurd ⟨rfl, (s.crm.id_of_get hid).symm⟩ hnot

theorem allowed_step (hs : s.crm.Sound) {op : CrmOp} (hop : s.Allowed op) :
    (s.step op).crm.Sound ∧ s.crm.Follows op.Reopens (s.step op).crm := by
  cases op <;> simp only [step]
  case saveLead ctx input => exact ⟨sound_saveLead hs hop, follows_saveLead _ ctx input s⟩
  case convertLead ctx id input =>
    exact ⟨sound_convertLead hs hop, follows_convertLead _ ctx id input s⟩
  case saveOpportunity ctx input =>
    exact ⟨sound_saveOpportunity hs hop, follows_saveOpportunity _ ctx input s⟩
  case attachEstimate ctx id estimateId =>
    exact change_spec hs fun o event h => attached_changes hs hop h
  case winOpportunity ctx id input => exact change_spec hs fun o event h => won_changes h
  case loseOpportunity ctx id input => exact change_spec hs fun o event h => lost_changes h
  case reopenOpportunity ctx id stage => exact change_spec hs fun o event h => reopened_changes h

/-- Over a run of such calls, the records and the feed are sound in every state, and every call
follows the state before it. -/
theorem pipeline_sound (docs : InMemoryDocumentStore) (ops : List CrmOp)
    (hops : EachStep CrmStores.step CrmStores.Allowed ⟨.empty, docs⟩ ops) :
    Along CrmStores.step (fun s => s.crm.Sound) ⟨.empty, docs⟩ ops ∧
      EachStep CrmStores.step (fun s op => s.crm.Follows op.Reopens (s.step op).crm)
        ⟨.empty, docs⟩ ops := by
  have hsound : Along step (fun s => s.crm.Sound) ⟨.empty, docs⟩ ops :=
    along_of_eachStep (fun _ _ hs hop => (allowed_step hs hop).1) sound_empty hops
  refine ⟨hsound, fun pre op hpre => ?_⟩
  exact (allowed_step (hsound pre ((prefix_append pre [op]).trans hpre)) (hops pre op hpre)).2

/-! A lead for a kitchen that is lost on price, and comes back. -/

namespace Kitchen

def context : CrmContext where
  tenant := "acme"
  letters := asciiLetters
  now := fun _ => "2026-03-01T09:00:00Z"
  jobs := .empty
  estimates := .empty

def smith : LeadInput where
  id := some "smith"
  name := some "Smith"
  company := none
  email := none
  phone := none
  source := none
  status := none
  owner := none
  createdDate := none
  notes := none

def kitchen (leadId stage : Option String) : OpportunityInput where
  id := some "kitchen"
  leadId := leadId
  customerId := none
  name := some "Kitchen"
  stage := stage
  valueMinor := some (.text "50000")
  probabilityPpm := none
  expectedCloseDate := none
  owner := none
  source := none
  createdDate := none

def comesBack : List CrmOp :=
  [.saveLead context smith, .convertLead context "smith" ⟨none, none, some (kitchen none none)⟩,
    .loseOpportunity context "kitchen" ⟨none, some "price", none⟩,
    .reopenOpportunity context "kitchen" none,
    .winOpportunity context "kitchen" ⟨none, none, none⟩]

def savedAsLost : List CrmOp :=
  [.saveLead context smith, .saveOpportunity context (kitchen (some "smith") (some "lost"))]

end Kitchen

open Kitchen in
theorem lost_kitchen_comes_back :
    Along CrmStores.step (fun s => s.crm.Sound) ⟨.empty, .empty⟩ comesBack ∧
      EachStep CrmStores.step (fun s op => s.crm.Follows op.Reopens (s.step op).crm)
        ⟨.empty, .empty⟩ comesBack := by
  refine pipeline_sound .empty comesBack ?_
  have hlead : leadStatusOf context smith ≠ .ok .converted := by decide +kernel
  have hstage : stageOf context (kitchen none none) = .ok .new := by decide +kernel
  have hfits : ∀ lead customerId (s : CrmStores),
      (openedWith lead customerId (kitchen none none)).Fits context.later s := by
    intro lead customerId s
    have hopened : stageOf context.later (openedWith lead customerId (kitchen none none)) =
      .ok .new := hstage
    constructor
    · intro hlost
      rw [hopened] at hlost
      cases hlost
    · intro hwon
      rw [hopened] at hwon
      cases hwon
  refine eachStep_cons.mpr ⟨fun _ h => absurd h hlead, eachStep_cons.mpr ⟨?_,
    eachStep_cons.mpr ⟨trivial, eachStep_cons.mpr ⟨trivial,
      eachStep_cons.mpr ⟨trivial, eachStep_nil⟩⟩⟩⟩⟩
  intro lead customerId opportunity _ hopp _ _ _
  obtain rfl := some.inj hopp
  exact hfits lead customerId _

open Kitchen in
theorem saved_as_lost_without_reason :
    ¬ Along CrmStores.step (fun s => s.crm.Sound) ⟨.empty, .empty⟩ savedAsLost := by
  intro halong
  have hsav : ((savedAsLost.foldl step ⟨.empty, .empty⟩).crm.getOpportunity "acme"
    "kitchen").map (fun o => (o.stage, o.lostReason)) = some (.lost, "") := by decide +kernel
  obtain ⟨o, ho, heq⟩ := map_eq_some_iff.mp hsav
  obtain ⟨hlost, hreas⟩ := Prod.mk.inj heq
  have hsound := (halong savedAsLost prefix_rfl).closed "acme" "kitchen" o ho
  exact (hsound.lost hlost).1 hreas

end Rgnr8.Service.Crm
