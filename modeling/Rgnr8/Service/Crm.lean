import Rgnr8.Service.Estimates
import Rgnr8.Service.Flow

/-! The pipeline: leads, opportunities, and the feed of events that their changes leave behind. -/

namespace Rgnr8.Service.Crm
open Lib Lib.Js Fallible Kernel

inductive LeadStatus where
  | new | working | qualified | disqualified | converted
  deriving DecidableEq

def LeadStatus.text : LeadStatus → String
  | .new => "NEW"
  | .working => "WORKING"
  | .qualified => "QUALIFIED"
  | .disqualified => "DISQUALIFIED"
  | .converted => "CONVERTED"

def leadStatuses : List LeadStatus := [.new, .working, .qualified, .disqualified, .converted]

inductive Stage where
  | new | qualified | proposal | negotiation | won | lost
  deriving DecidableEq

def Stage.text : Stage → String
  | .new => "NEW"
  | .qualified => "QUALIFIED"
  | .proposal => "PROPOSAL"
  | .negotiation => "NEGOTIATION"
  | .won => "WON"
  | .lost => "LOST"

def stages : List Stage := [.new, .qualified, .proposal, .negotiation, .won, .lost]

def defaultProbability : Stage → Int
  | .new => 100000
  | .qualified => 250000
  | .proposal => 500000
  | .negotiation => 750000
  | .won => 1000000
  | .lost => 0

structure LeadRecord where
  id : String
  name : String
  company : String
  email : String
  phone : String
  source : String
  status : LeadStatus
  owner : String
  createdDate : String
  notes : String
  customerId : String

structure OpportunityRecord where
  id : String
  leadId : String
  customerId : String
  name : String
  stage : Stage
  valueMinor : Int
  probabilityPpm : Int
  expectedCloseDate : String
  owner : String
  source : String
  estimateId : String
  jobId : String
  lostReason : String
  createdDate : String

inductive EventKind where
  | leadCreated | leadUpdated | leadConverted
  | opportunityCreated | opportunityUpdated | stageChanged | estimateAttached | won | lost | reopened

def EventKind.text : EventKind → String
  | .leadCreated => "lead.created"
  | .leadUpdated => "lead.updated"
  | .leadConverted => "lead.converted"
  | .opportunityCreated => "opportunity.created"
  | .opportunityUpdated => "opportunity.updated"
  | .stageChanged => "opportunity.stage_changed"
  | .estimateAttached => "opportunity.estimate_attached"
  | .won => "opportunity.won"
  | .lost => "opportunity.lost"
  | .reopened => "opportunity.reopened"

/-- The payload is the object that is written as JSON; all its values are texts. -/
structure CrmEvent where
  at_ : String
  kind : EventKind
  subject : String
  payload : List (String × String)

structure CrmEventRecord extends CrmEvent where
  sequence : Nat

structure CrmStore where
  leads : OrderedMap (TenantId × String) LeadRecord
  opportunities : OrderedMap (TenantId × String) OpportunityRecord
  events : OrderedMap TenantId (List CrmEventRecord)
  id_of_get : ∀ {t id o}, opportunities.get? (t, id) = some o → o.id = id

namespace CrmStore

def empty : CrmStore := ⟨.empty, .empty, .empty, nofun⟩

variable (s : CrmStore) (tenant : TenantId)

def getLead (id : String) : Option LeadRecord :=
  s.leads.get? (tenant, id)

def saveLead (lead : LeadRecord) : CrmStore :=
  { s with leads := s.leads.set (tenant, lead.id) lead }

def getOpportunity (id : String) : Option OpportunityRecord :=
  s.opportunities.get? (tenant, id)

def saveOpportunity (o : OpportunityRecord) : CrmStore where
  leads := s.leads
  opportunities := s.opportunities.set (tenant, o.id) o
  events := s.events
  id_of_get := by
    intro t id o' h
    rw [OrderedMap.get?_set] at h
    split_ifs at h with hkey
    · rw [← Option.some.inj h, (Prod.mk.inj hkey).2]
    · exact s.id_of_get h

def log : List CrmEventRecord := (s.events.get? tenant).getD []

def appendEvent (event : CrmEvent) : CrmStore :=
  let log := s.log tenant
  { s with events := s.events.set tenant (log ++ [⟨event, log.length + 1⟩]) }

def listEvents (since limit : Nat) : List CrmEventRecord :=
  ((s.log tenant).filter fun e => since < e.sequence).take limit

end CrmStore

structure CrmStores where
  crm : CrmStore
  docs : InMemoryDocumentStore

/-- The tenant's side of a request, with the other stores as the request reads them; `now` are the
readings of the service clock during it. -/
structure CrmContext where
  tenant : TenantId
  letters : CaseMapping
  now : Nat → String
  jobs : JobStore
  estimates : Estimates.EstimateStore

inductive CrmFailure where
  | own (message : String)
  deriving DecidableEq

def optionalDate (raw : Option String) (label : String) : Except CrmFailure String :=
  let date := trim (raw.getD "")
  if date ≠ "" ∧ ¬ isIsoDate date then .error (.own s!"{label} must be YYYY-MM-DD") else .ok date

def minorOf (raw : Option TextOrNumber) (label : String) : Except CrmFailure Int :=
  match digitsOnly raw with
  | none => .error (.own s!"{label} must be a whole number of minor units")
  | some n => .ok n

variable (ctx : CrmContext)

def memberOf {α : Type} (members : List α) (text : α → String) (raw : String) (label : String) :
    Except CrmFailure α :=
  match members.find? fun m => text m = ctx.letters.toUpperCase (trim raw) with
  | none => .error (.own (s!"{label} must be one of " ++ ", ".intercalate (members.map text)))
  | some m => .ok m

/-- `a || b` on texts. -/
def orElse (a b : String) : String := if a = "" then b else a

def CrmStores.recordEvent (s : CrmStores) (ctx : CrmContext) (kind : EventKind) (subject : String)
    (payload : List (String × String)) : CrmStores :=
  { s with crm := s.crm.appendEvent ctx.tenant ⟨ctx.now 0, kind, subject, payload⟩ }

/-! Leads. -/

structure LeadInput where
  id : Option String
  name : Option String
  company : Option String
  email : Option String
  phone : Option String
  source : Option String
  status : Option String
  owner : Option String
  createdDate : Option String
  notes : Option String

def leadId (input : LeadInput) : String :=
  let name := trim (input.name.getD "")
  orElse (trim (input.id.getD ""))
    (orElse (Estimates.slug (name ++ "-" ++ input.company.getD "")) (Estimates.slug name))

def leadStatusOf (input : LeadInput) : Except CrmFailure LeadStatus :=
  memberOf ctx leadStatuses LeadStatus.text (input.status.getD "NEW") "status"

def leadOf (input : LeadInput) (s : CrmStores) : Except CrmFailure LeadRecord := do
  let name := trim (input.name.getD "")
  refuse (name = "") (.own "a lead needs a name")
  let status ← leadStatusOf ctx input
  let id := leadId input
  let existing := s.crm.getLead ctx.tenant id
  refuse (existing.any (fun e => e.status = .converted) ∧ status ≠ .converted)
    (.own (s!"lead {id} has already been converted to customer " ++
      (existing.map LeadRecord.customerId).getD ""))
  let created ← optionalDate input.createdDate "created date"
  return {
    id := id
    name := name
    company := trim (input.company.getD "")
    email := trim (input.email.getD "")
    phone := trim (input.phone.getD "")
    source := trim (input.source.getD "")
    status := status
    owner := trim (input.owner.getD "")
    createdDate := orElse created ((existing.map LeadRecord.createdDate).getD "")
    notes := trim (input.notes.getD "")
    customerId := (existing.map LeadRecord.customerId).getD "" }

def saveLead (ctx : CrmContext) (input : LeadInput) (s : CrmStores) :
    Except CrmFailure LeadRecord × CrmStores :=
  match leadOf ctx input s with
  | .error e => (.error e, s)
  | .ok lead =>
    let kind := if (s.crm.getLead ctx.tenant lead.id).isSome then .leadUpdated else .leadCreated
    (.ok lead, { s with crm := s.crm.saveLead ctx.tenant lead }.recordEvent ctx kind lead.id
      [("name", lead.name), ("status", lead.status.text), ("source", lead.source)])

/-! Opportunities. -/

structure OpportunityInput where
  id : Option String
  leadId : Option String
  customerId : Option String
  name : Option String
  stage : Option String
  valueMinor : Option TextOrNumber
  probabilityPpm : Option TextOrNumber
  expectedCloseDate : Option String
  owner : Option String
  source : Option String
  createdDate : Option String

variable (input : OpportunityInput)

def opportunityId : String :=
  orElse (trim (input.id.getD "")) (Estimates.slug (trim (input.name.getD "")))

def stageOf : Except CrmFailure Stage :=
  memberOf ctx stages Stage.text (input.stage.getD "NEW") "stage"

def probabilityOf (existing : Option OpportunityRecord) (stage : Stage) : Except CrmFailure Int :=
  let probability : Option Int := match input.probabilityPpm with
    | none => some (((existing.filter fun e => e.stage = stage).map
        OpportunityRecord.probabilityPpm).getD (defaultProbability stage))
    | some raw => integerOf (Js.numberOf raw)
  match probability.filter fun p => 0 ≤ p ∧ p ≤ million with
  | none => .error (.own "probability must be between 0 and 1,000,000 parts per million")
  | some p => .ok p

variable (s : CrmStores)

def opportunityOf : Except CrmFailure OpportunityRecord := do
  let name := trim (input.name.getD "")
  refuse (name = "") (.own "an opportunity needs a name")
  let stage ← stageOf ctx input
  let customerId := trim (input.customerId.getD "")
  refuse (customerId ≠ "" ∧ s.docs.getParty ctx.tenant .customer customerId = none)
    (.own s!"unknown customer {customerId}")
  let leadId := trim (input.leadId.getD "")
  refuse (leadId ≠ "" ∧ s.crm.getLead ctx.tenant leadId = none) (.own s!"unknown lead {leadId}")
  refuse (customerId = "" ∧ leadId = "") (.own "an opportunity belongs to a lead or a customer")
  let id := opportunityId input
  let existing := s.crm.getOpportunity ctx.tenant id
  refuse (existing.any fun e => (e.stage = .won ∨ e.stage = .lost) ∧ stage ≠ e.stage)
    (.own (s!"opportunity {id} is " ++ (existing.map fun e => e.stage.text).getD "" ++
      " — reopen it explicitly rather than editing it back"))
  let probability ← probabilityOf input existing stage
  let value ← minorOf input.valueMinor "value"
  let expected ← optionalDate input.expectedCloseDate "expected close date"
  let created ← optionalDate input.createdDate "created date"
  return {
    id := id
    leadId := leadId
    customerId := customerId
    name := name
    stage := stage
    valueMinor := value
    probabilityPpm := probability
    expectedCloseDate := expected
    owner := trim (input.owner.getD "")
    source := trim (input.source.getD "")
    estimateId := (existing.map OpportunityRecord.estimateId).getD ""
    jobId := (existing.map OpportunityRecord.jobId).getD ""
    lostReason := (existing.map OpportunityRecord.lostReason).getD ""
    createdDate := orElse created ((existing.map OpportunityRecord.createdDate).getD "") }

def savedEvent (existing : Option OpportunityRecord) (record : OpportunityRecord) :
    EventKind × List (String × String) :=
  match existing with
  | none => (.opportunityCreated, [("name", record.name), ("stage", record.stage.text),
      ("value_minor", toString record.valueMinor)])
  | some e =>
    if e.stage ≠ record.stage then (.stageChanged, [("from", e.stage.text),
      ("to", record.stage.text), ("value_minor", toString record.valueMinor)])
    else (.opportunityUpdated, [("name", record.name), ("stage", record.stage.text),
      ("value_minor", toString record.valueMinor)])

def CrmStores.put (ctx : CrmContext) (record : OpportunityRecord)
    (event : EventKind × List (String × String)) : CrmStores :=
  { s with crm := s.crm.saveOpportunity ctx.tenant record }.recordEvent ctx event.1 record.id event.2

def saveOpportunity : Except CrmFailure OpportunityRecord × CrmStores :=
  match opportunityOf ctx input s with
  | .error e => (.error e, s)
  | .ok record =>
    (.ok record, s.put ctx record (savedEvent (s.crm.getOpportunity ctx.tenant record.id) record))

structure ConvertInput where
  customerId : Option String
  termsDays : Option TextOrNumber
  opportunity : Option OpportunityInput

variable (id : String)

def customerOf (input : ConvertInput) (s : CrmStores) : Except CrmFailure (LeadRecord × String) :=
  match s.crm.getLead ctx.tenant id with
  | none => .error (.own s!"unknown lead {id}")
  | some lead => do
    refuse (lead.status = .converted) (.own s!"lead {id} is already customer {lead.customerId}")
    refuse (lead.status = .disqualified)
      (.own s!"lead {id} was disqualified — reopen it before converting it")
    let customerId := orElse (trim (input.customerId.getD ""))
      (Estimates.slug (orElse lead.company lead.name))
    refuse (customerId = "") (.own "the customer needs an id")
    return (lead, customerId)

def CrmStores.withCustomer (ctx : CrmContext) (lead : LeadRecord) (customerId : String)
    (termsDays : Option TextOrNumber) : CrmStores :=
  match s.docs.getParty ctx.tenant .customer customerId with
  | some _ => s
  | none =>
    let party := ⟨customerId, orElse lead.company lead.name, termsDays.map Js.numberOf⟩
    { s with docs := s.docs.upsertParty ctx.tenant .customer party }

def CrmStores.convert (ctx : CrmContext) (lead : LeadRecord) (customerId : String)
    (termsDays : Option TextOrNumber) : CrmStores :=
  let s₁ := s.withCustomer ctx lead customerId termsDays
  let converted := { lead with status := .converted, customerId := customerId }
  { s₁ with crm := s₁.crm.saveLead ctx.tenant converted }.recordEvent ctx .leadConverted lead.id
    [("customer_id", customerId)]

def CrmContext.later : CrmContext := { ctx with now := fun n => ctx.now (n + 1) }

def openedWith (lead : LeadRecord) (customerId : String) (input : OpportunityInput) :
    OpportunityInput :=
  { input with
    leadId := some lead.id
    customerId := some customerId
    name := if input.name.getD "" = "" then some (orElse lead.company lead.name) else input.name }

def convertLead (input : ConvertInput) (s : CrmStores) :
    Except CrmFailure (LeadRecord × Option OpportunityRecord) × CrmStores :=
  match customerOf ctx id input s with
  | .error e => (.error e, s)
  | .ok (lead, customerId) =>
    let converted := { lead with status := .converted, customerId := customerId }
    let s₁ := s.convert ctx lead customerId input.termsDays
    match input.opportunity with
    | none => (.ok (converted, none), s₁)
    | some opportunity =>
      let r := saveOpportunity ctx.later (openedWith lead customerId opportunity) s₁
      (r.1.map fun o => (converted, some o), r.2)

def found (s : CrmStores) : Except CrmFailure OpportunityRecord :=
  match s.crm.getOpportunity ctx.tenant id with
  | none => .error (.own s!"unknown opportunity {id}")
  | some o => .ok o

def change (x : Except CrmFailure (OpportunityRecord × EventKind × List (String × String))) :
    Except CrmFailure OpportunityRecord × CrmStores :=
  match x with
  | .error e => (.error e, s)
  | .ok (record, event) => (.ok record, s.put ctx record event)

def attached (id estimateId : String) (s : CrmStores) :
    Except CrmFailure (OpportunityRecord × EventKind × List (String × String)) := do
  let o ← found ctx id s
  refuse (ctx.estimates.get ctx.tenant estimateId = none) (.own s!"unknown estimate {estimateId}")
  let early := o.stage = .new ∨ o.stage = .qualified
  return ({ o with
    estimateId := estimateId
    stage := if early then .proposal else o.stage
    probabilityPpm := if early then defaultProbability .proposal else o.probabilityPpm },
    .estimateAttached, [("estimate_id", estimateId)])

def attachEstimate (id estimateId : String) (s : CrmStores) :
    Except CrmFailure OpportunityRecord × CrmStores := change ctx s (attached ctx id estimateId s)

structure CloseInput where
  jobId : Option String
  reason : Option String
  valueMinor : Option TextOrNumber

def won (ctx : CrmContext) (id : String) (input : CloseInput) (s : CrmStores) :
    Except CrmFailure (OpportunityRecord × EventKind × List (String × String)) := do
  let o ← found ctx id s
  refuse (o.stage = .won) (.own s!"opportunity {id} is already won")
  refuse (o.stage = .lost) (.own s!"opportunity {id} was lost — reopen it before marking it won")
  let jobId := trim (input.jobId.getD "")
  refuse (jobId ≠ "" ∧ ctx.jobs.getJob ctx.tenant jobId = none) (.own s!"unknown job {jobId}")
  let value ← (if input.valueMinor = none then .ok o.valueMinor
    else minorOf input.valueMinor "value" : Except CrmFailure Int)
  let record := { o with
    stage := .won
    probabilityPpm := 1000000
    jobId := orElse jobId o.jobId
    valueMinor := value
    lostReason := "" }
  return (record, .won, [("value_minor", toString record.valueMinor), ("job_id", record.jobId)])

def winOpportunity (input : CloseInput) (s : CrmStores) :
    Except CrmFailure OpportunityRecord × CrmStores := change ctx s (won ctx id input s)

def lost (ctx : CrmContext) (id : String) (input : CloseInput) (s : CrmStores) :
    Except CrmFailure (OpportunityRecord × EventKind × List (String × String)) := do
  let o ← found ctx id s
  refuse (o.stage = .lost) (.own s!"opportunity {id} is already lost")
  refuse (o.stage = .won) (.own s!"opportunity {id} was won — reopen it before marking it lost")
  let reason := trim (input.reason.getD "")
  refuse (reason = "")
    (.own "say why it was lost — the pattern in those reasons is the point")
  return ({ o with stage := .lost, probabilityPpm := 0, lostReason := reason, jobId := "" },
    .lost, [("reason", reason), ("value_minor", toString o.valueMinor)])

def loseOpportunity (input : CloseInput) (s : CrmStores) :
    Except CrmFailure OpportunityRecord × CrmStores := change ctx s (lost ctx id input s)

def openStages : List Stage := [.new, .qualified, .proposal, .negotiation]

def reopened (ctx : CrmContext) (id : String) (stage : Option String) (s : CrmStores) :
    Except CrmFailure (OpportunityRecord × EventKind × List (String × String)) := do
  let o ← found ctx id s
  refuse (o.stage ≠ .won ∧ o.stage ≠ .lost)
    (.own s!"opportunity {id} is already open ({o.stage.text})")
  match openStages.find? fun m =>
      m.text = ctx.letters.toUpperCase (trim (stage.getD "NEGOTIATION")) with
  | none => .error (.own "reopen onto an open stage: NEW, QUALIFIED, PROPOSAL, or NEGOTIATION")
  | some target => return ({ o with
      stage := target, probabilityPpm := defaultProbability target, lostReason := "", jobId := "" },
      .reopened, [("from", o.stage.text), ("to", target.text)])

def reopenOpportunity (stage : Option String) (s : CrmStores) :
    Except CrmFailure OpportunityRecord × CrmStores := change ctx s (reopened ctx id stage s)

inductive CrmOp where
  | saveLead (ctx : CrmContext) (input : LeadInput)
  | convertLead (ctx : CrmContext) (id : String) (input : ConvertInput)
  | saveOpportunity (ctx : CrmContext) (input : OpportunityInput)
  | attachEstimate (ctx : CrmContext) (id estimateId : String)
  | winOpportunity (ctx : CrmContext) (id : String) (input : CloseInput)
  | loseOpportunity (ctx : CrmContext) (id : String) (input : CloseInput)
  | reopenOpportunity (ctx : CrmContext) (id : String) (stage : Option String)

/-- What a call leaves, whether it returns or throws. -/
def CrmStores.step : CrmOp → CrmStores
  | .saveLead ctx input => (Crm.saveLead ctx input s).2
  | .convertLead ctx id input => (Crm.convertLead ctx id input s).2
  | .saveOpportunity ctx input => (Crm.saveOpportunity ctx input s).2
  | .attachEstimate ctx id estimateId => (Crm.attachEstimate ctx id estimateId s).2
  | .winOpportunity ctx id input => (Crm.winOpportunity ctx id input s).2
  | .loseOpportunity ctx id input => (Crm.loseOpportunity ctx id input s).2
  | .reopenOpportunity ctx id stage => (Crm.reopenOpportunity ctx id stage s).2

end Rgnr8.Service.Crm
