import Rgnr8.Service.WorkOrders

/-! What the work orders have allocated, read twice: from the entries they keep and from the ledger. -/

namespace Rgnr8.Service.WorkOrders
open Lib Lib.Js Kernel Payroll WorkOrderCall Fallible OrderedMap Prog Option

/-- What a request will record once it has read the stores. -/
structure EntryPlan where
  order : WorkOrderRecord
  id : String
  existing : Option WorkOrderEntryRecord
  fields : EntryFields

def planEntry (ctx : FlowContext) (s : WorkStores) (workOrderId : String) (input : EntryInput) :
    Except FlowFailure EntryPlan := do
  let order ← openOrder workOrderId (s.work.get ctx.tenant workOrderId)
  let fields ← fieldsOf ctx (s.payroll.listEmployees ctx.tenant) (s.jobs.listCostCodes ctx.tenant)
    input
  let id := entryIdOf workOrderId (s.work.listEntries ctx.tenant workOrderId) input
  let existing := s.work.getEntry ctx.tenant id
  editable id existing fields
  return ⟨order, id, existing, fields⟩

namespace EntryPlan

def posted (p : EntryPlan) : EntryId := (p.existing.map WorkOrderEntryRecord.entryId).getD ""

def record (p : EntryPlan) (workOrderId : String) (entryId : EntryId) : WorkOrderEntryRecord :=
  entryRecord workOrderId p.id p.fields p.existing entryId

def command (p : EntryPlan) (ctx : FlowContext) (post : Option Bool) : Option PostCommand :=
  allocationOf ctx p.order p.id p.fields p.existing post

/-- What is left to do of a request once its plan stands. -/
def carryOut (p : EntryPlan) (ctx : FlowContext) (dimensions : DimensionContext)
    (workOrderId : String) (post : Option Bool) : WorkProg AddEntryResult :=
  match p.command ctx post with
  | none => recordEntry ctx p.order (p.record workOrderId p.posted) p.fields false
  | some command => do
    Prog.ofExcept ((validateDimensions dimensions command).mapError .dimension)
    postFlow ctx command >>= fun entry =>
      recordEntry ctx p.order (p.record workOrderId entry.id) p.fields true

end EntryPlan

section
variable {ctx : FlowContext} {dimensions : DimensionContext} {workOrderId : String}
variable {input : EntryInput} {p : EntryPlan}

theorem openOrder_eq_ok {found : Option WorkOrderRecord} {order : WorkOrderRecord}
    (h : openOrder workOrderId found = .ok order) : found = some order := by
  unfold openOrder at h
  rcases found with - | found
  · cases h
  · obtain ⟨-, h⟩ := refuse_eq_ok.mp h
    exact congrArg some (Except.ok.inj h)

theorem costAccountOf_eq_ok {chart : ChartOfAccounts} {code : String} {account : Account}
    (h : costAccountOf chart code = .ok account) : chart.getByCode code = some account := by
  unfold costAccountOf at h
  rcases hfound : chart.getByCode code with - | found
  · rw [hfound] at h
    cases h
  · rw [hfound] at h
    obtain ⟨-, h⟩ := refuse_eq_ok.mp h
    exact congrArg some (Except.ok.inj h)

theorem fieldsOf_eq_ok {employees : List EmployeeRecord} {costCodes : List CostCodeRecord}
    {fields : EntryFields} (h : fieldsOf ctx employees costCodes input = .ok fields) :
    ∃ account, ctx.chart.getByCode fields.costAccountCode = some account ∧
      account.id = fields.costAccount := by
  unfold fieldsOf at h
  obtain ⟨kind, -, h⟩ := bind_eq_ok.mp h
  obtain ⟨date, -, h⟩ := bind_eq_ok.mp h
  obtain ⟨quantity, -, h⟩ := bind_eq_ok.mp h
  obtain ⟨-, h⟩ := refuse_bind_eq_ok.mp h
  obtain ⟨employee, -, h⟩ := bind_eq_ok.mp h
  obtain ⟨unitCost, -, h⟩ := bind_eq_ok.mp h
  obtain ⟨unitBill, -, h⟩ := bind_eq_ok.mp h
  obtain ⟨code, -, h⟩ := bind_eq_ok.mp h
  obtain ⟨account, hacc, h⟩ := bind_eq_ok.mp h
  obtain ⟨relieve, -, h⟩ := bind_eq_ok.mp h
  have hfound := costAccountOf_eq_ok hacc
  rw [← Except.ok.inj h]
  exact ⟨account, hfound, rfl⟩

theorem planEntry_eq_ok {s : WorkStores} (h : planEntry ctx s workOrderId input = .ok p) :
    s.work.get ctx.tenant workOrderId = some p.order ∧
      p.id = entryIdOf workOrderId (s.work.listEntries ctx.tenant workOrderId) input ∧
      p.existing = s.work.getEntry ctx.tenant p.id ∧
      (∃ account, ctx.chart.getByCode p.fields.costAccountCode = some account ∧
        account.id = p.fields.costAccount) ∧ editable p.id p.existing p.fields = .ok () := by
  unfold planEntry at h
  obtain ⟨order, horder, h⟩ := bind_eq_ok.mp h
  obtain ⟨fields, hflds, h⟩ := bind_eq_ok.mp h
  dsimp only at h
  obtain ⟨u, hedit, h⟩ := bind_eq_ok.mp h
  have hplan := (Except.ok.inj h).symm
  have hid := congrArg EntryPlan.id hplan
  have hexi := congrArg EntryPlan.existing hplan
  dsimp only at hid hexi
  rw [← hid] at hexi hedit
  rw [← hexi] at hedit
  have hord' := congrArg EntryPlan.order hplan
  have hflds' := congrArg EntryPlan.fields hplan
  dsimp only at hord' hflds'
  rw [← hflds'] at hflds hedit
  rw [← hord'] at horder
  exact ⟨openOrder_eq_ok horder, hid, hexi, fieldsOf_eq_ok hflds, hedit⟩

theorem frozen_of_editable {id : String} {e : WorkOrderEntryRecord} {fields : EntryFields}
    (h : editable id (some e) fields = .ok ()) (hposted : e.entryId ≠ "") :
    e.quantityMilli = fields.quantityMilli ∧ e.unitCostMinor = fields.unitCostMinor ∧
      e.costCode = fields.costCode ∧ e.costAccountCode = fields.costAccountCode := by
  unfold editable at h
  obtain ⟨-, h⟩ := refuse_eq_ok.mp h
  obtain ⟨hsame, -⟩ := refuse_eq_ok.mp h
  simp only [not_and, not_or, ne_eq, not_not] at hsame
  obtain ⟨hquan, hcost, hcode, hacc, -⟩ := hsame hposted
  exact ⟨hquan, hcost, hcode, hacc⟩

variable {π : Type} [PeriodStore π]

theorem run_own (c : WorkOrderCall) (s : Stores π WorkStores) :
    (own c).run (FlowCall.exec WorkOrderCall.exec) s =
      (.ok (c.exec s.own).1, { s with own := (c.exec s.own).2 }) := rfl

variable (ctx dimensions workOrderId input) in
theorem run_addEntry (s : Stores π WorkStores) :
    (addEntry ctx dimensions workOrderId input).run (FlowCall.exec WorkOrderCall.exec) s =
      match planEntry ctx s.own workOrderId input with
      | .error e => (.error e, s)
      | .ok p => (p.carryOut ctx dimensions workOrderId input.post).run
          (FlowCall.exec exec) s := by
  unfold addEntry planEntry
  rw [run_bind_ok (run_own _ s)]
  dsimp only [exec]
  rcases openOrder workOrderId (s.own.work.get ctx.tenant workOrderId) with e | order
  · rfl
  have horder : (ofExcept (.ok order) : WorkProg _).run (FlowCall.exec exec) s =
    (.ok order, s) := rfl
  rw [run_bind_ok horder, run_bind_ok (run_own _ s)]
  dsimp only [exec]
  rw [run_bind_ok (run_own _ s)]
  dsimp only [exec]
  rcases fieldsOf ctx (s.own.payroll.listEmployees ctx.tenant)
    (s.own.jobs.listCostCodes ctx.tenant) input with e | fields
  · rfl
  have hflds : (ofExcept (.ok fields) : WorkProg _).run (FlowCall.exec exec) s =
    (.ok fields, s) := rfl
  rw [run_bind_ok hflds, run_bind_ok (run_own _ s)]
  dsimp only [exec]
  rw [run_bind_ok (run_own _ s)]
  dsimp only [exec]
  generalize entryIdOf workOrderId (s.own.work.listEntries ctx.tenant workOrderId) input = id
  generalize s.own.work.getEntry ctx.tenant id = existing
  dsimp only [Bind.bind, Except.bind]
  rcases editable id existing fields with e | u <;> rfl

def recorded (s : Stores π WorkStores) (tenant : TenantId) (record : WorkOrderEntryRecord) :
    Stores π WorkStores :=
  { s with own := { s.own with work := s.own.work.saveEntry tenant record } }

omit [PeriodStore π] in
theorem getEntry_recorded (s : Stores π WorkStores) (tenant : TenantId)
    (record : WorkOrderEntryRecord) (id : String) :
    (recorded s tenant record).own.work.getEntry tenant id =
      if id = record.id then some record else s.own.work.getEntry tenant id := by
  refine (WorkOrderStore.getEntry_saveEntry ..).trans ?_
  simp only [Prod.mk.injEq, true_and]

/-- What a request whose plan stands can leave behind. -/
inductive Carried (p : EntryPlan) (ctx : FlowContext) (workOrderId : String) (post : Option Bool)
    (s : Stores π WorkStores) : Stores π WorkStores → Prop where
  | refused : Carried p ctx workOrderId post s s
  | kept (h : p.command ctx post = none) :
      Carried p ctx workOrderId post s (recorded s ctx.tenant (p.record workOrderId p.posted))
  | answered {command : PostCommand} {e : PostedEntry} (h : p.command ctx post = some command)
      (hanswers : s.ledger.Answers command e) :
      Carried p ctx workOrderId post s (recorded s ctx.tenant (p.record workOrderId e.id))
  | appended {command : PostCommand} (h : p.command ctx post = some command)
      (happends : s.ledger.Appends ctx.chart command) :
      Carried p ctx workOrderId post s (recorded (s.posted ctx command) ctx.tenant
        (p.record workOrderId (s.entryOf ctx command).id))

theorem carried (p : EntryPlan) (ctx : FlowContext) (dimensions : DimensionContext)
    (workOrderId : String) (post : Option Bool) (s : Stores π WorkStores) :
    Carried p ctx workOrderId post s
      ((p.carryOut ctx dimensions workOrderId post).run (FlowCall.exec WorkOrderCall.exec) s).2 := by
  unfold EntryPlan.carryOut
  rcases hcommand : p.command ctx post with - | command
  · exact .kept hcommand
  · dsimp only
    rcases (validateDimensions dimensions command).mapError FlowFailure.dimension with e | u
    · exact .refused
    · have hvalid : (ofExcept (.ok u) : WorkProg _).run (FlowCall.exec exec) s =
        (.ok u, s) := rfl
      rw [run_bind_ok hvalid]
      have hends := flowPosts exec ctx command (fun entry =>
        recordEntry ctx p.order (p.record workOrderId entry.id) p.fields true) s
      generalize (postFlow ctx command >>= fun entry => recordEntry ctx p.order
        (p.record workOrderId entry.id) p.fields true).run (FlowCall.exec exec) s =
          r at hends ⊢
      cases hends with
      | refused => exact .refused
      | answered hanswers => exact .answered hcommand hanswers
      | appended happends => exact .appended hcommand happends

theorem run_removeEntry (id : String) (s : Stores π WorkStores) :
    ((removeEntry ctx id).run (FlowCall.exec WorkOrderCall.exec) s).2 =
      if ((s.own.work.getEntry ctx.tenant id).map WorkOrderEntryRecord.entryId).getD "" ≠ "" then s
      else { s with own := { s.own with work := s.own.work.removeEntry ctx.tenant id } } := by
  unfold removeEntry
  rw [run_bind_ok (run_own _ s)]
  dsimp only [exec]
  by_cases hposted :
    ((s.own.work.getEntry ctx.tenant id).map WorkOrderEntryRecord.entryId).getD "" ≠ ""
  · rw [refuseIf_pos hposted, if_pos hposted]
    rfl
  · rw [refuseIf_neg hposted, if_neg hposted]
    rfl

end

/-! Where a cost is put, and how much. -/

structure CostPlace where
  jobId : String
  account : AccountId
  costCode : String
  deriving DecidableEq

def linePlace (l : PostedLine) : Option CostPlace :=
  ((l.dimensions.getD .empty).get? jobDimension).map fun jobId =>
    ⟨jobId, l.accountId, ((l.dimensions.getD .empty).get? costCodeDimension).getD ""⟩

def lineCost (place : CostPlace) (l : PostedLine) : Int :=
  if linePlace l = some place then l.side.signed l.amount.minorUnits else 0

def entryCost (place : CostPlace) (e : PostedEntry) : Int :=
  if e.provenance.sourceSystem = "work-order" then (e.lines.map (lineCost place)).sum else 0

def postedCost (place : CostPlace) (journal : List PostedEntry) : Int :=
  (journal.map (entryCost place)).sum

def recordPlace (ctx : FlowContext) (work : WorkOrderStore) (e : WorkOrderEntryRecord) :
    Option CostPlace := do
  let order ← work.get ctx.tenant e.workOrderId
  let account ← ctx.chart.getByCode e.costAccountCode
  return ⟨order.jobId, account.id, e.costCode⟩

def recordCost (ctx : FlowContext) (work : WorkOrderStore) (place : CostPlace)
    (key : TenantId × String) (e : WorkOrderEntryRecord) : Int :=
  if key.1 = ctx.tenant ∧ e.entryId ≠ "" ∧ recordPlace ctx work e = some place then
    extended e.quantityMilli e.unitCostMinor
  else 0

def storedCost (ctx : FlowContext) (work : WorkOrderStore) (place : CostPlace) : Int :=
  work.entries.total (recordCost ctx work place)

theorem linePlace_cost (jobId costCode : String) (account : AccountId) (side : EntrySide)
    (amount : Money) (memo : Option String) :
    linePlace ⟨account, side, amount, memo, some (costDimensions jobId costCode)⟩ =
      some ⟨jobId, account, costCode⟩ := by
  have hne : jobDimension ≠ costCodeDimension := by decide
  have hne' : costCodeDimension ≠ jobDimension := by decide
  unfold linePlace costDimensions
  dsimp only
  rw [getD_some]
  split_ifs with hblank
  · rw [get?_set_self, get?_set_ne _ _ hne', get?_empty, hblank]
    rfl
  · rw [get?_set_ne _ _ hne, get?_set_self, get?_set_self]
    rfl

namespace EntryPlan

def place (p : EntryPlan) : CostPlace := ⟨p.order.jobId, p.fields.costAccount, p.fields.costCode⟩

def cost (p : EntryPlan) : Int := extended p.fields.quantityMilli p.fields.unitCostMinor

end EntryPlan

section
variable {π : Type} [PeriodStore π] {ctx : FlowContext} {workOrderId : String} {input : EntryInput}
variable {p : EntryPlan} {s : Stores π WorkStores} {post : Option Bool} {place : CostPlace}

theorem command_eq_some {command : PostCommand} (h : p.command ctx post = some command) :
    p.posted = "" ∧
      ∃ relieve, command = allocationCommand ctx p.order p.id p.fields relieve := by
  unfold EntryPlan.command allocationOf at h
  split at h
  · cases h
  · next relieve _ =>
    split_ifs at h with hposts
    exact ⟨hposts.2.2, relieve, (some.inj h).symm⟩

omit [PeriodStore π] in
theorem entryCost_allocation (relieve : AccountId) :
    entryCost place (s.entryOf ctx (allocationCommand ctx p.order p.id p.fields relieve)) =
      if p.place = place then p.cost else 0 := by
  have hcost := linePlace_cost p.order.jobId p.fields.costCode p.fields.costAccount .debit
    ⟨p.cost, ctx.currency⟩ (some p.order.title)
  have hrel : linePlace ⟨relieve, .credit, ⟨p.cost, ctx.currency⟩,
    some s!"Allocated to {p.order.jobId}", none⟩ = none := rfl
  have hent : entryCost place
      (s.entryOf ctx (allocationCommand ctx p.order p.id p.fields relieve)) =
        lineCost place ⟨p.fields.costAccount, .debit, ⟨p.cost, ctx.currency⟩, some p.order.title,
          some (costDimensions p.order.jobId p.fields.costCode)⟩ +
        (lineCost place ⟨relieve, .credit, ⟨p.cost, ctx.currency⟩,
          some s!"Allocated to {p.order.jobId}", none⟩ + 0) := rfl
  rw [hent]
  unfold lineCost
  have hnow : ¬ (none : Option CostPlace) = some place := fun h => by cases h
  rw [hcost, hrel, if_neg hnow, add_zero, add_zero]
  exact if_congr some_inj rfl rfl

omit [PeriodStore π] in
theorem recordPlace_plan (hplan : planEntry ctx s.own workOrderId input = .ok p)
    (entryId : EntryId) :
    recordPlace ctx s.own.work (p.record workOrderId entryId) = some p.place := by
  obtain ⟨horder, -, -, ⟨account, hacc, hid⟩, -⟩ := planEntry_eq_ok hplan
  have hget : s.own.work.get ctx.tenant (p.record workOrderId entryId).workOrderId = some p.order :=
    horder
  have hcode : ctx.chart.getByCode (p.record workOrderId entryId).costAccountCode = some account :=
    hacc
  unfold recordPlace
  rw [hget, hcode]
  exact congrArg some (congrArg (CostPlace.mk p.order.jobId · p.fields.costCode) hid)

theorem recordCost_unposted {work : WorkOrderStore} {key : TenantId × String}
    {e : WorkOrderEntryRecord} (h : e.entryId = "") : recordCost ctx work place key e = 0 :=
  if_neg fun hcnt => hcnt.2.1 h

omit [PeriodStore π] in
theorem recordCost_plan (hplan : planEntry ctx s.own workOrderId input = .ok p) {entryId : EntryId}
    (hposted : entryId ≠ "") :
    recordCost ctx s.own.work place (ctx.tenant, p.id) (p.record workOrderId entryId) =
      if p.place = place then p.cost else 0 := by
  unfold recordCost
  rw [recordPlace_plan hplan entryId]
  refine if_congr ?_ rfl rfl
  rw [some_inj]
  exact ⟨fun h => h.2.2, fun h => ⟨rfl, hposted, h⟩⟩

omit [PeriodStore π] in
theorem storedCost_recorded (ledger : Ledger π)
    (hplan : planEntry ctx s.own workOrderId input = .ok p) (entryId : EntryId)
    (place : CostPlace) :
    storedCost ctx (recorded ⟨ledger, s.own⟩ ctx.tenant (p.record workOrderId entryId)).own.work
        place =
      storedCost ctx s.own.work place -
        (p.existing.map (recordCost ctx s.own.work place (ctx.tenant, p.id))).getD 0 +
        recordCost ctx s.own.work place (ctx.tenant, p.id) (p.record workOrderId entryId) := by
  obtain ⟨-, -, hexi, -, -⟩ := planEntry_eq_ok hplan
  rw [hexi]
  exact total_set ..

/-! The tie. -/

/-- On every job, account and cost code there is as much in the journal as in the stored entries. -/
def Tied (ctx : FlowContext) (s : Stores π WorkStores) : Prop :=
  ∀ place, postedCost place (s.ledger.journal ctx.tenant) = storedCost ctx s.own.work place

omit [PeriodStore π] in
theorem entryOf_id_ne_empty (s : Stores π WorkStores) (ctx : FlowContext) (command : PostCommand) :
    (s.entryOf ctx command).id ≠ "" := by
  intro h
  have htext : toString command.tenantId ++ ":" ++
      toString ((s.ledger.journal command.tenantId).length + 1) = "" := h
  have hlist := congrArg String.toList htext
  simp only [String.toList_append, String.toList_empty, List.append_eq_nil_iff] at hlist
  exact absurd hlist.1.2 (by decide)

def entryKey (id : String) : IdempotencyKey := s!"wo-entry:{id}"

omit [PeriodStore π] in
theorem entryKey_inj {id id' : String} (h : entryKey id = entryKey id') : id = id' := by
  have htext := congrArg String.toList h
  unfold entryKey at htext
  simp only [String.toList_append, List.append_cancel_left_eq] at htext
  exact String.toList_inj.mp htext

def Backed (ctx : FlowContext) (s : Stores π WorkStores) : Prop :=
  ∀ id e, s.ledger.store.getByIdempotencyKey ctx.tenant (entryKey id) = some e →
    ∃ r, s.own.work.getEntry ctx.tenant id = some r ∧ r.entryId ≠ ""

/-- The stored entry that an accepted request writes over, if any, has been named by the request and
is on a work order of the same job if it is in the books. -/
def SameJob (ctx : FlowContext) (work : WorkOrderStore) (p : EntryPlan) : Prop :=
  ∀ e ∈ p.existing, e.entryId ≠ "" →
    ∃ order ∈ work.get ctx.tenant e.workOrderId, order.jobId = p.order.jobId

omit [PeriodStore π] in
theorem cost_kept (hplan : planEntry ctx s.own workOrderId input = .ok p)
    (hjob : SameJob ctx s.own.work p) :
    recordCost ctx s.own.work place (ctx.tenant, p.id) (p.record workOrderId p.posted) =
      (p.existing.map (recordCost ctx s.own.work place (ctx.tenant, p.id))).getD 0 := by
  obtain ⟨-, -, -, ⟨account, hacc, hid⟩, hedit⟩ := planEntry_eq_ok hplan
  rcases hexi : p.existing with - | e
  · have hposted : p.posted = "" := by
      unfold EntryPlan.posted
      rw [hexi]
      rfl
    rw [hposted]
    exact recordCost_unposted rfl
  · have hposted : p.posted = e.entryId := by
      unfold EntryPlan.posted
      rw [hexi]
      rfl
    rw [hposted, map_some, getD_some]
    by_cases hblank : e.entryId = ""
    · rw [recordCost_unposted hblank]
      exact recordCost_unposted hblank
    · rw [hexi] at hedit
      obtain ⟨hquan, hunit, hcode, hcos⟩ := frozen_of_editable hedit hblank
      obtain ⟨order, horder, hsame⟩ := hjob e hexi hblank
      have hplace : recordPlace ctx s.own.work e = some p.place := by
        unfold recordPlace
        rw [mem_def.mp horder, hcos, hacc, hcode]
        unfold EntryPlan.place
        rw [← hsame, ← hid]
        rfl
      rw [recordCost_plan hplan hblank]
      unfold recordCost EntryPlan.cost
      rw [hplace, hquan, hunit]
      refine if_congr ?_ rfl rfl
      rw [some_inj]
      exact ⟨fun h => ⟨rfl, hblank, h⟩, fun h => h.2.2⟩

theorem carried_ties (hplan : planEntry ctx s.own workOrderId input = .ok p)
    (hjob : SameJob ctx s.own.work p) (hbckd : Backed ctx s) (htied : Tied ctx s)
    {t : Stores π WorkStores} (h : Carried p ctx workOrderId post s t) :
    Backed ctx t ∧ Tied ctx t := by
  obtain ⟨-, -, hexi, -, -⟩ := planEntry_eq_ok hplan
  -- where the request posts, the stored entry is not in the books yet
  have hfree : p.posted = "" → ∀ e ∈ p.existing, e.entryId = "" := by
    intro hposted e he
    unfold EntryPlan.posted at hposted
    rw [mem_def.mp he] at hposted
    exact hposted
  cases h with
  | refused => exact ⟨hbckd, htied⟩
  | kept _ =>
    refine ⟨fun id e he => ?_, fun place => ?_⟩
    · obtain ⟨r, hr, hposted⟩ := hbckd id e he
      rw [getEntry_recorded]
      split_ifs with hid
      · refine ⟨_, rfl, ?_⟩
        have hsame : p.existing = some r := by
          rw [hexi, ← hr, hid]
          rfl
        unfold EntryPlan.posted
        rw [hsame]
        exact hposted
      · exact ⟨r, hr, hposted⟩
    · rw [storedCost_recorded s.ledger hplan, cost_kept hplan hjob, Int.sub_add_cancel]
      exact htied place
  | answered hcommand hanswers =>
    obtain ⟨hposted, relieve, rfl⟩ := command_eq_some hcommand
    obtain ⟨r, hr, hne⟩ := hbckd p.id _ hanswers.1
    exact absurd (hfree hposted r (hexi.trans hr)) hne
  | @appended command hcommand happends =>
    obtain ⟨hposted, relieve, rfl⟩ := command_eq_some hcommand
    have hid : (s.entryOf ctx (allocationCommand ctx p.order p.id p.fields relieve)).id ≠ "" :=
      entryOf_id_ne_empty s ctx _
    have hposts : (recorded (s.posted ctx (allocationCommand ctx p.order p.id p.fields relieve))
        ctx.tenant (p.record workOrderId
          (s.entryOf ctx (allocationCommand ctx p.order p.id p.fields relieve)).id)).ledger =
      s.ledger.posted (allocationCommand ctx p.order p.id p.fields relieve)
        ⟨ctx.clock.postedAt⟩ := rfl
    refine ⟨fun id e he => ?_, fun place => ?_⟩
    · rw [getEntry_recorded]
      split_ifs with hsame
      · exact ⟨_, rfl, hid⟩
      · have hkey := Ledger.getByIdempotencyKey_posted ⟨ctx.clock.postedAt⟩ happends ctx.tenant
          (entryKey id)
        have hother : ¬ (ctx.tenant = ctx.tenant ∧ entryKey id = entryKey p.id) :=
          fun h => hsame (entryKey_inj h.2)
        rw [hposts] at he
        exact hbckd id e ((hkey.trans (if_neg hother)).symm.trans he)
    · have hjnl := (Ledger.journal_posted ⟨ctx.clock.postedAt⟩ happends ctx.tenant).trans
        (if_pos rfl)
      have hnew : s.ledger.entryOf (allocationCommand ctx p.order p.id p.fields relieve)
          ⟨ctx.clock.postedAt⟩ =
        s.entryOf ctx (allocationCommand ctx p.order p.id p.fields relieve) := rfl
      have hold : (p.existing.map (recordCost ctx s.own.work place (ctx.tenant, p.id))).getD 0 = 0 := by
        rcases he : p.existing with - | e
        · rfl
        · exact recordCost_unposted (hfree hposted e he)
      have hsto := storedCost_recorded
        (s.posted ctx (allocationCommand ctx p.order p.id p.fields relieve)).ledger hplan
        (s.entryOf ctx (allocationCommand ctx p.order p.id p.fields relieve)).id place
      rw [hold, recordCost_plan hplan hid, Int.sub_zero, ← htied place] at hsto
      rw [hposts, hjnl, hnew]
      refine Eq.trans ?_ hsto.symm
      unfold postedCost
      rw [List.map_append, List.sum_append, List.map_singleton, List.sum_singleton,
        entryCost_allocation]

/-! One request after another. -/

inductive WorkOp where
  | add (clock : Clock) (workOrderId : String) (input : EntryInput)
  | remove (id : String)

def step (ctx : FlowContext) (dimensions : DimensionContext) (s : Stores π WorkStores) :
    WorkOp → Stores π WorkStores
  | .add clock workOrderId input => ((addEntry { ctx with clock := clock } dimensions workOrderId
      input).run (FlowCall.exec WorkOrderCall.exec) s).2
  | .remove id => ((removeEntry ctx id).run (FlowCall.exec WorkOrderCall.exec) s).2

def opening (periods : π) (orders : OrderedMap (TenantId × String) WorkOrderRecord) (jobs : JobStore)
    (payroll : PayrollStore) : Stores π WorkStores :=
  ⟨⟨.empty, periods⟩, ⟨⟨orders, .empty, @WorkOrderStore.id_of_get .empty⟩, jobs, payroll⟩⟩

def Unnamed (input : EntryInput) : Prop := trim (input.id.getD "") = ""

def LeavesStored (ctx : FlowContext) (dimensions : DimensionContext) (s : Stores π WorkStores) :
    WorkOp → Prop
  | .add clock workOrderId input => Unnamed input → ∀ id e, s.own.work.getEntry ctx.tenant id = some e →
      (step ctx dimensions s (.add clock workOrderId input)).own.work.getEntry ctx.tenant id = some e
  | .remove _ => True

/-- What an accepted request writes over, if anything, it has named, and if that is in the books it
is on a work order of the same job. -/
def Steady (ctx : FlowContext) (s : Stores π WorkStores) : WorkOp → Prop
  | .add _ workOrderId input => ∀ p, planEntry ctx s.own workOrderId input = .ok p →
      (Unnamed input → p.existing = none) ∧ SameJob ctx s.own.work p
  | .remove _ => True

theorem step_add_cases (ctx : FlowContext) (dimensions : DimensionContext) (s : Stores π WorkStores)
    (clock : Clock) (workOrderId : String) (input : EntryInput) :
    step ctx dimensions s (.add clock workOrderId input) = s ∨
      ∃ p, planEntry ctx s.own workOrderId input = .ok p ∧
        Carried p { ctx with clock := clock } workOrderId input.post s
          (step ctx dimensions s (.add clock workOrderId input)) := by
  have hplan : planEntry { ctx with clock := clock } s.own workOrderId input =
    planEntry ctx s.own workOrderId input := rfl
  have hrun := run_addEntry { ctx with clock := clock } dimensions workOrderId input s
  rw [hplan] at hrun
  unfold step
  dsimp only
  rw [hrun]
  rcases planEntry ctx s.own workOrderId input with e | p
  · exact .inl rfl
  · exact .inr ⟨p, rfl, carried p _ dimensions workOrderId input.post s⟩

theorem step_ties {s : Stores π WorkStores} (hbckd : Backed ctx s) (htied : Tied ctx s)
    (dimensions : DimensionContext) (op : WorkOp) (hop : Steady ctx s op) :
    Backed ctx (step ctx dimensions s op) ∧ Tied ctx (step ctx dimensions s op) := by
  cases op with
  | add clock workOrderId input =>
    rcases step_add_cases ctx dimensions s clock workOrderId input with hsame | ⟨p, hplan, hcarr⟩
    · rw [hsame]
      exact ⟨hbckd, htied⟩
    · have hjob : SameJob ctx s.own.work p := (hop p hplan).2
      have hplan' : planEntry { ctx with clock := clock } s.own workOrderId input = .ok p := hplan
      exact carried_ties hplan' hjob hbckd htied hcarr
  | remove id =>
    have hstep : step ctx dimensions s (.remove id) = _ := run_removeEntry id s
    rw [hstep]
    split_ifs with hposted
    · exact ⟨hbckd, htied⟩
    · have hunp : ∀ e, s.own.work.getEntry ctx.tenant id = some e → e.entryId = "" := by
        intro e he
        rw [he] at hposted
        exact not_not.mp hposted
      refine ⟨fun id' e he => ?_, fun place => (htied place).trans ?_⟩
      · obtain ⟨r, hr, hne⟩ := hbckd id' e he
        refine ⟨r, ?_, hne⟩
        rw [WorkOrderStore.getEntry_removeEntry, if_neg, hr]
        intro hkey
        rw [(Prod.mk.inj hkey).2] at hr
        exact hne (hunp r hr)
      · refine (total_filter fun key e he hout => ?_).symm
        have hkey : key = (ctx.tenant, id) := by
          by_contra hne
          rw [decide_eq_true hne] at hout
          cases hout
        rw [hkey] at he
        exact recordCost_unposted (hunp e he)

theorem step_leaves {s : Stores π WorkStores} (dimensions : DimensionContext) (op : WorkOp)
    (hop : Steady ctx s op) : LeavesStored ctx dimensions s op := by
  cases op with
  | remove id => trivial
  | add clock workOrderId input =>
    intro hunn id e he
    rcases step_add_cases ctx dimensions s clock workOrderId input with hsame | ⟨p, hplan, hcarr⟩
    · rw [hsame]
      exact he
    · obtain ⟨-, -, hexi, -, -⟩ := planEntry_eq_ok hplan
      have hnew : id ≠ p.id := by
        rintro rfl
        rw [(hop p hplan).1 hunn, he] at hexi
        cases hexi
      generalize step ctx dimensions s (.add clock workOrderId input) = t at hcarr ⊢
      cases hcarr with
      | refused => exact he
      | kept _ => exact (getEntry_recorded ..).trans ((if_neg hnew).trans he)
      | answered _ _ => exact (getEntry_recorded ..).trans ((if_neg hnew).trans he)
      | appended _ _ => exact (getEntry_recorded ..).trans ((if_neg hnew).trans he)

/-- In a run of such requests the work orders tie to the ledger throughout, and no entry without an
id changes a stored one. -/
theorem work_orders_tie (ctx : FlowContext) (dimensions : DimensionContext) (periods : π)
    (orders : OrderedMap (TenantId × String) WorkOrderRecord) (jobs : JobStore)
    (payroll : PayrollStore) (ops : List WorkOp)
    (h : EachStep (step ctx dimensions) (Steady ctx) (opening periods orders jobs payroll) ops) :
    Along (step ctx dimensions) (Tied ctx) (opening periods orders jobs payroll) ops ∧
      EachStep (step ctx dimensions) (LeavesStored ctx dimensions)
        (opening periods orders jobs payroll) ops := by
  have hstart : Backed ctx (opening periods orders jobs payroll) ∧
      Tied ctx (opening periods orders jobs payroll) := by
    refine ⟨fun id e he => ?_, fun place => rfl⟩
    have hmem := (InMemoryLedgerStore.getByIdempotencyKey_iff.mp he).1
    exact absurd hmem List.not_mem_nil
  have halong := along_of_eachStep (G := fun s => Backed ctx s ∧ Tied ctx s)
    (fun s op hs hop => step_ties hs.1 hs.2 dimensions op hop) hstart h
  exact ⟨along_imp (fun s hs => hs.2) halong, fun pre op hpre => step_leaves dimensions op (h pre op hpre)⟩

end

/-! Two work orders, one for a kitchen and one for a bath. -/

namespace Sample

def account (id code : String) : Account := ⟨id, code, code, .expense, usd, none, none, none, none⟩

def chart : ChartOfAccounts :=
  (ChartOfAccounts.ofAccounts [account "costs" "5000", account "wages" "6200"]).toOption.getD .empty

def clock : Clock := ⟨"2026-03-09T10:00:00.000Z", "2026-03-09T10:00:00.001Z"⟩

def context : FlowContext := ⟨"acme", chart, usd, clock, asciiLetters⟩

def dimensions : DimensionContext := ⟨chart, [], ["kitchen", "bath"], []⟩

def order (id jobId : String) : WorkOrderRecord := ⟨id, jobId, id, .scheduled⟩

def start : Stores (InMemoryPeriodStore TenantId PeriodKey) WorkStores :=
  opening .empty ((OrderedMap.empty.set ("acme", "wo-1") (order "wo-1" "kitchen")).set
    ("acme", "wo-2") (order "wo-2" "bath")) .empty .empty

def hours (id : Option String) (n : String) : EntryInput where
  id := id
  kind := none
  date := some "2026-03-09"
  description := none
  costCode := none
  employeeId := none
  quantityMilli := some (.text n)
  unitCostMinor := some (.text "50")
  unitBillMinor := none
  billable := none
  costAccountCode := none
  relieveAccountCode := none
  post := none

def unposted (n : String) : EntryInput := { hours none n with post := some false }

def kitchenCosts : CostPlace := ⟨"kitchen", "costs", ""⟩

/-- The same entry comes again, under the work order of another job. -/
def movedOps : List WorkOp :=
  [.add clock "wo-1" (hours (some "e1") "1000"), .add clock "wo-2" (hours (some "e1") "1000")]

/-- The first of two entries is removed, and a third is recorded. -/
def renumberedOps : List WorkOp := [.add clock "wo-1" (unposted "1000"),
  .add clock "wo-1" (unposted "2000"), .remove "wo-1-e1", .add clock "wo-1" (unposted "3000")]

end Sample

open Sample in
theorem recorded_hour_ties : Along (step context dimensions) (Tied context) start
      [.add clock "wo-1" (hours (some "e1") "1000")] ∧
    EachStep (step context dimensions) (LeavesStored context dimensions) start
      [.add clock "wo-1" (hours (some "e1") "1000")] := by
  refine work_orders_tie context dimensions _ _ _ _ _ ?_
  refine eachStep_cons.mpr ⟨fun p hplan => ?_, eachStep_nil⟩
  obtain ⟨-, -, hexi, -, -⟩ := planEntry_eq_ok hplan
  have hnone : p.existing = none := hexi
  refine ⟨fun _ => hnone, fun e he => ?_⟩
  rw [hnone] at he
  cases he

open Sample in
theorem repeated_entry_breaks_the_tie :
    ¬ Along (step context dimensions) (Tied context) start movedOps ∧
      ¬ EachStep (step context dimensions) (LeavesStored context dimensions) start renumberedOps := by
  constructor
  · intro halong
    have hposted : postedCost kitchenCosts
        ((movedOps.foldl (step context dimensions) start).ledger.journal "acme") = 50 := by
      decide +kernel
    have hsto : storedCost context (movedOps.foldl (step context dimensions) start).own.work
        kitchenCosts = 0 := by decide +kernel
    have htied := halong movedOps List.prefix_rfl kitchenCosts
    rw [hsto] at htied
    exact absurd (hposted.symm.trans htied) (by decide)
  · intro hsteps
    have hbef : (((renumberedOps.take 3).foldl (step context dimensions)
        start).own.work.getEntry "acme" "wo-1-e2").map WorkOrderEntryRecord.quantityMilli =
          some 2000 := by decide +kernel
    have hafter : ((renumberedOps.foldl (step context dimensions)
        start).own.work.getEntry "acme" "wo-1-e2").map WorkOrderEntryRecord.quantityMilli =
          some 3000 := by decide +kernel
    obtain ⟨e, he, hquan⟩ := map_eq_some_iff.mp hbef
    have hlast := hsteps (renumberedOps.take 3) (.add clock "wo-1" (unposted "3000"))
      List.prefix_rfl rfl "wo-1-e2" e he
    have hsame : ((renumberedOps.foldl (step context dimensions)
        start).own.work.getEntry "acme" "wo-1-e2").map WorkOrderEntryRecord.quantityMilli =
          some 2000 := (congrArg _ hlast).trans (congrArg some hquan)
    rw [hafter] at hsame
    exact absurd hsame (by decide)

end Rgnr8.Service.WorkOrders
