import Rgnr8.Service.Flow

/-! Stock: what is on the shelf and what it cost. Receiving, issuing and counting post an entry and
then move the shelf; a movement id makes the second half idempotent with the first. -/

namespace Rgnr8.Service.Inventory
open Lib Lib.Js Kernel

inductive ItemKind where
  | stock | nonStock | service
  deriving DecidableEq

def ItemKind.text : ItemKind → String
  | stock => "STOCK"
  | nonStock => "NON_STOCK"
  | service => "SERVICE"

inductive MovementKind where
  | receipt | issue | count | writeOff
  deriving DecidableEq

inductive CostingMethod where
  | movingAverage | fifo | lifo | specific
  deriving DecidableEq

def CostingMethod.usesLots (method : CostingMethod) : Bool := method ≠ movingAverage

structure ItemRecord where
  sku : String
  name : String
  kind : ItemKind
  quantityMilli : Int
  unitCostMinor : Int
  valueMinor : Int
  inventoryAccountCode : String
  costAccountCode : String
  deriving DecidableEq

structure MovementRecord where
  id : String
  sku : String
  date : String
  kind : MovementKind
  quantityMilli : Int
  unitCostMinor : Int
  valueMinor : Int
  reference : String
  entryId : String
  memo : String

structure LotRecord where
  seq : Int
  sku : String
  date : String
  unitCostMinor : Int
  remainingQtyMilli : Int
  remainingValueMinor : Int

/-- The three tables, under their primary keys. -/
structure InventoryStore where
  items : OrderedMap (TenantId × String) ItemRecord
  movements : OrderedMap (TenantId × String) MovementRecord
  lotRows : OrderedMap (TenantId × String × Int) LotRecord
  item_of_get : ∀ {t sku i}, items.get? (t, sku) = some i → i.sku = sku
  lot_of_get : ∀ {t sku seq l}, lotRows.get? (t, sku, seq) = some l → l.sku = sku ∧ l.seq = seq

namespace InventoryStore

def ofItems (items : OrderedMap (TenantId × String) ItemRecord)
    (h : ∀ {t sku i}, items.get? (t, sku) = some i → i.sku = sku) : InventoryStore :=
  ⟨items, .empty, .empty, h, fun h => by cases h⟩

def empty : InventoryStore := ofItems .empty fun h => by cases h

variable (s : InventoryStore) (tenant : TenantId) (sku : String)

def getItem : Option ItemRecord :=
  s.items.get? (tenant, sku)

def saveItem (item : ItemRecord) : InventoryStore where
  items := s.items.set (tenant, item.sku) item
  movements := s.movements
  lotRows := s.lotRows
  item_of_get := by
    intro t sku i h
    rw [OrderedMap.get?_set] at h
    split_ifs at h with hkey
    · rw [← Option.some.inj h]
      exact (Prod.mk.inj hkey).2.symm
    · exact s.item_of_get h
  lot_of_get := s.lot_of_get

/-- The movements of an item. Their order is of no use to the flows, which count them. -/
def listMovements : List MovementRecord :=
  (s.movements.filter fun key m => key.1 = tenant ∧ m.sku = sku).values

def getMovement (id : String) : Option MovementRecord :=
  s.movements.get? (tenant, id)

def saveMovement (movement : MovementRecord) : InventoryStore :=
  { s with movements := s.movements.set (tenant, movement.id) movement }

def lots : List LotRecord :=
  ((s.lotRows.filter fun key _ => key.1 = tenant ∧ key.2.1 = sku).values).insertionSort
    fun a b => a.seq ≤ b.seq

def saveLot (lot : LotRecord) : InventoryStore where
  items := s.items
  movements := s.movements
  lotRows := s.lotRows.set (tenant, lot.sku, lot.seq) lot
  item_of_get := s.item_of_get
  lot_of_get := by
    intro t sku seq l h
    rw [OrderedMap.get?_set] at h
    split_ifs at h with hkey
    · simp only [Prod.mk.injEq] at hkey
      rw [← Option.some.inj h]
      exact ⟨hkey.2.1.symm, hkey.2.2.symm⟩
    · exact s.lot_of_get h

end InventoryStore

inductive InventoryCall where
  | getItem (tenant : TenantId) (sku : String)
  | saveItem (tenant : TenantId) (item : ItemRecord)
  | listMovements (tenant : TenantId) (sku : String)
  | getMovement (tenant : TenantId) (id : String)
  | saveMovement (tenant : TenantId) (movement : MovementRecord)
  | lots (tenant : TenantId) (sku : String)
  | saveLot (tenant : TenantId) (lot : LotRecord)

abbrev InventoryCall.Answer : InventoryCall → Type
  | getItem _ _ => Option ItemRecord
  | listMovements _ _ => List MovementRecord
  | getMovement _ _ => Option MovementRecord
  | lots _ _ => List LotRecord
  | saveItem _ _ | saveMovement _ _ | saveLot _ _ => Unit

def InventoryCall.exec : (c : InventoryCall) → InventoryStore → c.Answer × InventoryStore
  | getItem t sku, s => (s.getItem t sku, s)
  | saveItem t item, s => ((), s.saveItem t item)
  | listMovements t sku, s => (s.listMovements t sku, s)
  | getMovement t id, s => (s.getMovement t id, s)
  | saveMovement t m, s => ((), s.saveMovement t m)
  | lots t sku, s => (s.lots t sku, s)
  | saveLot t lot, s => ((), s.saveLot t lot)

abbrev InventoryProg := FlowProg InventoryCall InventoryCall.Answer

abbrev exec {π : Type} [PeriodStore π] : (c : FlowCall InventoryCall) →
    Stores π InventoryStore → FlowCall.Answer InventoryCall.Answer c × Stores π InventoryStore :=
  FlowCall.exec InventoryCall.exec

def ask (c : InventoryCall) : InventoryProg c.Answer := Prog.perform (FlowCall.own c)

structure InventoryContext extends FlowContext where
  method : CostingMethod
  jobs : List String
  costCodes : List (String × String)
  dimensions : List DimensionDef

variable (ctx : InventoryContext)

def InventoryContext.dimensionContext : DimensionContext :=
  ⟨ctx.chart, ctx.dimensions, ctx.jobs, ctx.costCodes.map Prod.fst⟩

def milli : Int := 1000

/-- `a * b / d`, rounded half away from zero. -/
def mulDiv (a b d : Int) : Int :=
  let product := a * b
  let rounded := ((if product < 0 then -product else product) + d.tdiv 2).tdiv d
  if product < 0 then -rounded else rounded

def wholeOf (raw : Option TextOrNumber) (label : String) : Except FlowFailure Int :=
  match wholeNumber raw with
  | none => .error (.own s!"{label} must be a whole number")
  | some n => .ok n

def provenanceFor (id date at_ : String) : Provenance :=
  ⟨"inventory", id, "1", date, date, at_, "ledger-service/inventory-1",
    "ledger-service/inventory-1"⟩

def stockItem (sku : String) : Option ItemRecord → Except FlowFailure ItemRecord
  | none => .error (.own s!"unknown item {sku}")
  | some item =>
    if item.kind ≠ .stock then
      .error (.own s!"{sku} is a {toLowerCase item.kind.text} item — it has no stock to move")
    else .ok item

def requireStockItem (sku : String) : InventoryProg ItemRecord := do
  let item ← ask (.getItem ctx.tenant (ctx.letters.toUpperCase sku))
  Prog.ofExcept (stockItem sku item)

/-! Moving the shelf. Neither half posts. -/

structure ShelfReceipt where
  sku : String
  date : String
  quantityMilli : Int
  unitCostMinor : Int
  reference : String
  entryId : String
  memo : String
  id : String

def received (item : ItemRecord) (input : ShelfReceipt) : ItemRecord :=
  let quantity := item.quantityMilli + input.quantityMilli
  let value := item.valueMinor + mulDiv input.quantityMilli input.unitCostMinor milli
  { item with
    quantityMilli := quantity
    valueMinor := value
    unitCostMinor := if 0 < quantity then mulDiv value milli quantity else 0 }

def receiptMovement (item : ItemRecord) (input : ShelfReceipt) : MovementRecord where
  id := input.id
  sku := item.sku
  date := input.date
  kind := .receipt
  quantityMilli := input.quantityMilli
  unitCostMinor := input.unitCostMinor
  valueMinor := mulDiv input.quantityMilli input.unitCostMinor milli
  reference := input.reference
  entryId := input.entryId
  memo := input.memo

def receiptLot (item : ItemRecord) (input : ShelfReceipt) (existing : List LotRecord) :
    LotRecord where
  seq := existing.foldl (fun m l => max m l.seq) 0 + 1
  sku := item.sku
  date := input.date
  unitCostMinor := input.unitCostMinor
  remainingQtyMilli := input.quantityMilli
  remainingValueMinor := mulDiv input.quantityMilli input.unitCostMinor milli

def addLot (item : ItemRecord) (input : ShelfReceipt) : InventoryProg Unit :=
  if ctx.method.usesLots then do
    let existing ← ask (.lots ctx.tenant item.sku)
    ask (.saveLot ctx.tenant (receiptLot item input existing))
  else .ret ()

def applyReceipt (input : ShelfReceipt) : InventoryProg ItemRecord := do
  let item ← requireStockItem ctx input.sku
  Prog.refuseIf (input.quantityMilli ≤ 0) (.own "a receipt needs a quantity")
  match (← ask (.getMovement ctx.tenant input.id) : Option MovementRecord) with
  | some _ => return item
  | none =>
    ask (.saveItem ctx.tenant (received item input))
    ask (.saveMovement ctx.tenant (receiptMovement item input))
    addLot ctx item input
    return received item input

def orderLotsFor (lots : List LotRecord) (method : CostingMethod) (lotSeq : Option Int) :
    List LotRecord :=
  let opened := lots.filter fun l => 0 < l.remainingQtyMilli
  match method, lotSeq with
  | .specific, some seq => opened.filter fun l => l.seq = seq
  | .lifo, _ => opened.insertionSort fun a b => b.seq ≤ a.seq
  | _, _ => opened.insertionSort fun a b => a.seq ≤ b.seq

/-- What taking `take` out of a lot costs: all of it takes its value exactly. -/
def takenValue (lot : LotRecord) (take : Int) : Int :=
  if take = lot.remainingQtyMilli then lot.remainingValueMinor
  else mulDiv take lot.unitCostMinor milli

def drawnLot (lot : LotRecord) (take : Int) : LotRecord :=
  { lot with
    remainingQtyMilli := lot.remainingQtyMilli - take
    remainingValueMinor := lot.remainingValueMinor - takenValue lot take }

def drawLots (tenant : TenantId) : List LotRecord → (need cost : Int) → InventoryProg (Int × Int)
  | [], need, cost => .ret (need, cost)
  | lot :: lots, need, cost =>
    if need ≤ 0 then .ret (need, cost)
    else do
      let take := if need < lot.remainingQtyMilli then need else lot.remainingQtyMilli
      ask (.saveLot tenant (drawnLot lot take))
      drawLots tenant lots (need - take) (cost + takenValue lot take)

def lotTooSmall (sku : String) (qty : Int) (lotSeq : Option Int) : FlowFailure :=
  let named := (lotSeq.map toString).getD "undefined"
  .own (s!"{sku}: lot {named} does not hold {qty} thousandths — name a lot with enough on " ++ "hand")

def consumeLots (sku : String) (qty : Int) (lotSeq : Option Int) : InventoryProg Int := do
  let lots ← ask (.lots ctx.tenant sku)
  let (need, cost) ← drawLots ctx.tenant (orderLotsFor lots ctx.method lotSeq) qty 0
  Prog.refuseIf (0 < need) (lotTooSmall sku qty lotSeq)
  return cost

def previewLots : List LotRecord → (need cost : Int) → Int
  | [], _, cost => cost
  | lot :: lots, need, cost =>
    if need ≤ 0 then cost
    else
      let take := if need < lot.remainingQtyMilli then need else lot.remainingQtyMilli
      previewLots lots (need - take) (cost + takenValue lot take)

def previewLotCost (sku : String) (qty : Int) (lotSeq : Option Int) : InventoryProg Int := do
  let lots ← ask (.lots ctx.tenant sku)
  return previewLots (orderLotsFor lots ctx.method lotSeq) qty 0

structure ShelfIssue where
  sku : String
  date : String
  quantityMilli : Int
  reference : String
  entryId : String
  memo : String
  kind : MovementKind
  id : String
  lotSeq : Option Int

structure ShelfIssueResult where
  item : ItemRecord
  valueMinor : Int
  unitCostMinor : Int

/-- A draw on a lot the request names takes no shortcut, not even when it empties the item. -/
def namesLot (method : CostingMethod) (lotSeq : Option Int) : Bool :=
  method = .specific ∧ lotSeq.isSome

def issueValue (item : ItemRecord) (input : ShelfIssue) : InventoryProg Int :=
  if input.quantityMilli = item.quantityMilli ∧ ¬ namesLot ctx.method input.lotSeq then
    if ctx.method.usesLots then do
      let _ ← consumeLots ctx item.sku input.quantityMilli input.lotSeq
      return item.valueMinor
    else .ret item.valueMinor
  else if ctx.method.usesLots then consumeLots ctx item.sku input.quantityMilli input.lotSeq
  else .ret (mulDiv input.quantityMilli item.unitCostMinor milli)

def relieved (item : ItemRecord) (input : ShelfIssue) (value : Int) : ItemRecord :=
  let quantity := item.quantityMilli - input.quantityMilli
  let remaining := item.valueMinor - value
  { item with
    quantityMilli := quantity
    valueMinor := remaining
    unitCostMinor := if 0 < quantity then mulDiv remaining milli quantity else 0 }

def issueUnitCost (item : ItemRecord) (input : ShelfIssue) (value : Int) : Int :=
  if ctx.method.usesLots ∧ 0 < input.quantityMilli then mulDiv value milli input.quantityMilli
  else item.unitCostMinor

def issueMovement (item : ItemRecord) (input : ShelfIssue) (value : Int) : MovementRecord where
  id := input.id
  sku := item.sku
  date := input.date
  kind := input.kind
  quantityMilli := -input.quantityMilli
  unitCostMinor := issueUnitCost ctx item input value
  valueMinor := -value
  reference := input.reference
  entryId := input.entryId
  memo := input.memo

def shortOnHand (sku : String) (quantity onHand : Int) : FlowFailure :=
  .own s!"{sku}: {quantity} thousandths issued against {onHand} on hand — count it before you cost it"

def applyIssue (input : ShelfIssue) : InventoryProg ShelfIssueResult := do
  let item ← requireStockItem ctx input.sku
  Prog.refuseIf (input.quantityMilli ≤ 0) (.own "an issue needs a quantity")
  match (← ask (.getMovement ctx.tenant input.id) : Option MovementRecord) with
  | some seen => return ⟨item, -seen.valueMinor, seen.unitCostMinor⟩
  | none =>
    Prog.refuseIf (item.quantityMilli < input.quantityMilli)
      (shortOnHand item.sku input.quantityMilli item.quantityMilli)
    let value ← issueValue ctx item input
    ask (.saveItem ctx.tenant (relieved item input value))
    ask (.saveMovement ctx.tenant (issueMovement ctx item input value))
    return ⟨relieved item input value, value, issueUnitCost ctx item input value⟩

/-! The three flows. -/

def transfer (currency : Currency) (debit credit : AccountId) (amount : Int) (memo : String)
    (dimensions : Option Dimensions) : List JournalLineInput :=
  [⟨debit, .debit, ⟨amount, currency⟩, some memo, dimensions⟩,
    ⟨credit, .credit, ⟨amount, currency⟩, some memo, none⟩]

def stockCommand (keyPrefix id date memo : String) (lines : List JournalLineInput) :
    PostCommand where
  tenantId := ctx.tenant
  idempotencyKey := keyPrefix ++ id
  periodKey := periodOf date
  currency := ctx.currency
  entryDate := date
  lines := lines
  provenance := provenanceFor id date ctx.clock.ingestedAt
  memo := some memo

def movementId (explicit : Option String) (sku date infix_ : String) (kind : MovementKind)
    (movements : List MovementRecord) : String :=
  trimmedOr explicit
    s!"{sku}-{date}{infix_}#{(movements.filter fun m => m.date = date ∧ m.kind = kind).length}"

def movementIdOf (explicit : Option String) (sku date infix_ : String) (kind : MovementKind) :
    InventoryProg String :=
  if trim (explicit.getD "") = "" then do
    let movements ← ask (.listMovements ctx.tenant sku)
    return movementId explicit sku date infix_ kind movements
  else .ret (trim (explicit.getD ""))

structure ReceiveInput where
  id : Option String
  sku : Option String
  date : Option String
  quantityMilli : Option TextOrNumber
  unitCostMinor : Option TextOrNumber
  paidFromCode : Option String
  reference : Option String
  memo : Option String

structure ReceiptDraft where
  date : String
  quantity : Int
  unitCost : Int
  inventory : Account
  paidFrom : Account

def draftReceipt (input : ReceiveInput) (item : ItemRecord) : Except FlowFailure ReceiptDraft := do
  let date ← requireDate input.date "date"
  let quantity ← wholeOf input.quantityMilli "quantity"
  let unitCost ← wholeOf input.unitCostMinor "unit cost"
  if quantity ≤ 0 then .error (.own "a receipt needs a quantity")
  else if unitCost ≤ 0 then .error (.own "a receipt needs a unit cost")
  else
    let inventory ← accountOf ctx.chart item.inventoryAccountCode
    let paidFrom ← accountOf ctx.chart (trimmedOr input.paidFromCode "1000")
    return ⟨date, quantity, unitCost, inventory, paidFrom⟩

def receiptCommand (input : ReceiveInput) (item : ItemRecord) (draft : ReceiptDraft) (id : String) :
    PostCommand :=
  stockCommand ctx "stock-in:" id draft.date (textOr input.memo s!"Stock received — {item.name}")
    (transfer ctx.currency draft.inventory.id draft.paidFrom.id
      (mulDiv draft.quantity draft.unitCost milli) item.name none)

def receiptShelf (input : ReceiveInput) (sku : String) (draft : ReceiptDraft) (id : String)
    (entryId : EntryId) : ShelfReceipt where
  sku := sku
  date := draft.date
  quantityMilli := draft.quantity
  unitCostMinor := draft.unitCost
  reference := input.reference.getD ""
  entryId := entryId
  memo := input.memo.getD ""
  id := "mv:" ++ id

structure ReceiveResult where
  item : ItemRecord
  entryId : EntryId

def skuOf (sku : Option String) : String :=
  ctx.letters.toUpperCase (trim (sku.getD ""))

def receiveStock (input : ReceiveInput) : InventoryProg ReceiveResult := do
  let sku := skuOf ctx input.sku
  let item ← requireStockItem ctx sku
  let draft ← Prog.ofExcept (draftReceipt ctx input item)
  let id ← movementIdOf ctx input.id sku draft.date "" .receipt
  let entry ← postFlow ctx.toFlowContext (receiptCommand ctx input item draft id)
  let updated ← applyReceipt ctx (receiptShelf input sku draft id entry.id)
  return ⟨updated, entry.id⟩

structure IssueInput where
  id : Option String
  sku : Option String
  date : Option String
  quantityMilli : Option TextOrNumber
  jobId : Option String
  costCode : Option String
  workOrderId : Option String
  costAccountCode : Option String
  memo : Option String
  lotSeq : Option TextOrNumber

structure IssueDraft where
  date : String
  quantity : Int
  cost : Account
  inventory : Account

variable (input : IssueInput)

def jobOf : String := trim (input.jobId.getD "")

def costCodeOf : String :=
  ctx.letters.toUpperCase (trim (input.costCode.getD ""))

variable (item : ItemRecord)

def costAccountCodeOf : String :=
  let ofCostCode := if costCodeOf ctx input = "" then none
    else (ctx.costCodes.find? fun c => c.1 = costCodeOf ctx input).map Prod.snd
  trimmedOr input.costAccountCode (textOr ofCostCode item.costAccountCode)

def draftIssue : Except FlowFailure IssueDraft := do
  let date ← requireDate input.date "date"
  let quantity ← wholeOf input.quantityMilli "quantity"
  if quantity ≤ 0 then .error (.own "an issue needs a quantity")
  else if jobOf input ≠ "" ∧ jobOf input ∉ ctx.jobs then
    .error (.own s!"unknown job {jobOf input}")
  else
    let cost ← accountOf ctx.chart (costAccountCodeOf ctx input item)
    let inventory ← accountOf ctx.chart item.inventoryAccountCode
    return ⟨date, quantity, cost, inventory⟩

def lotSeqOf : Except FlowFailure (Option Int) :=
  match input.lotSeq with
  | none => .ok none
  | some (.text s) =>
    if trim s = "" then .ok none else (wholeOf (some (.text s)) "lot").map some
  | some (.number n) => (wholeOf (some (.number n)) "lot").map some

variable (sku : String)

def namedLot : Except FlowFailure (Option Int) := do
  let lotSeq ← lotSeqOf input
  if ctx.method = .specific ∧ lotSeq = none then
    .error (.own s!"{sku}: specific-identification costing requires naming the lot to issue from")
  else return lotSeq

def previewValue (preview : ItemRecord) (sku : String) (quantity : Int) (lotSeq : Option Int) :
    InventoryProg Int :=
  if quantity = preview.quantityMilli ∧ ¬ namesLot ctx.method lotSeq then .ret preview.valueMinor
  else if ctx.method.usesLots then previewLotCost ctx sku quantity lotSeq
  else .ret (mulDiv quantity preview.unitCostMinor milli)

def issueDimensions : Option Dimensions :=
  let job : Dimensions := OrderedMap.empty.set "job" (jobOf input)
  if jobOf input = "" then none
  else if costCodeOf ctx input = "" then some job
  else some (job.set "cost_code" (costCodeOf ctx input))

def issueCommand (draft : IssueDraft) (id : String) (value : Int) : PostCommand :=
  let job := if jobOf input = "" then "the job" else jobOf input
  stockCommand ctx "stock-out:" id draft.date
    (textOr input.memo s!"Issued to {job} — {item.name}")
    (transfer ctx.currency draft.cost.id draft.inventory.id value item.name
      (issueDimensions ctx input))

def issueShelf (draft : IssueDraft) (id : String) (lotSeq : Option Int) (entryId : EntryId) :
    ShelfIssue where
  sku := sku
  date := draft.date
  quantityMilli := draft.quantity
  reference := input.workOrderId.getD (jobOf input)
  entryId := entryId
  memo := input.memo.getD ""
  kind := .issue
  id := "mv:" ++ id
  lotSeq := lotSeq

structure IssueResult where
  item : ItemRecord
  entryId : EntryId
  valueMinor : Int
  deriving DecidableEq

def issueFresh (item : ItemRecord) (draft : IssueDraft) (id : String) :
    InventoryProg IssueResult := do
  let preview ← requireStockItem ctx sku
  Prog.refuseIf (preview.quantityMilli < draft.quantity)
    (shortOnHand sku draft.quantity preview.quantityMilli)
  let lotSeq ← Prog.ofExcept (namedLot ctx input sku)
  let value ← previewValue ctx preview sku draft.quantity lotSeq
  Prog.refuseIf (value = 0) (.own s!"{sku} has no value on hand to issue")
  let command := issueCommand ctx input item draft id value
  Prog.ofExcept ((validateDimensions ctx.dimensionContext command).mapError .dimension)
  let entry ← postFlow ctx.toFlowContext command
  let result ← applyIssue ctx (issueShelf input sku draft id lotSeq entry.id)
  return ⟨result.item, entry.id, result.valueMinor⟩

def issueStock : InventoryProg IssueResult := do
  let sku := skuOf ctx input.sku
  let item ← requireStockItem ctx sku
  let draft ← Prog.ofExcept (draftIssue ctx input item)
  let id ← movementIdOf ctx input.id sku draft.date "-out" .issue
  -- an issue that has posted already is answered from its movement
  match (← ask (.getMovement ctx.tenant ("mv:" ++ id)) : Option MovementRecord) with
  | some seenMv => do
    let item ← requireStockItem ctx sku
    return ⟨item, seenMv.entryId, -seenMv.valueMinor⟩
  | none => issueFresh ctx input sku item draft id

structure CountInput where
  id : Option String
  sku : Option String
  date : Option String
  countedMilli : Option TextOrNumber
  adjustmentAccountCode : Option String
  memo : Option String

structure CountResult where
  item : ItemRecord
  entryId : EntryId
  differenceMilli : Int

structure CountRead where
  date : String
  counted : Int

def readCount (input : CountInput) : Except FlowFailure CountRead := do
  let date ← requireDate input.date "date"
  let counted ← wholeOf input.countedMilli "counted quantity"
  if counted < 0 then .error (.own "a count cannot be negative") else return ⟨date, counted⟩

structure CountAccounts where
  adjustment : Account
  inventory : Account

def countAccounts (input : CountInput) (item : ItemRecord) : Except FlowFailure CountAccounts := do
  let fallback := if (ctx.chart.getByCode "5300").isSome then "5300" else item.costAccountCode
  let adjustment ← accountOf ctx.chart (trimmedOr input.adjustmentAccountCode fallback)
  let inventory ← accountOf ctx.chart item.inventoryAccountCode
  return ⟨adjustment, inventory⟩

def countValue (counted : Int) : Int :=
  let difference := counted - item.quantityMilli
  if 0 < difference then mulDiv difference item.unitCostMinor milli
  else if counted = 0 then item.valueMinor
  else mulDiv (-difference) item.unitCostMinor milli

def countCommand (input : CountInput) (item : ItemRecord) (read : CountRead)
    (accounts : CountAccounts) (id : String) : PostCommand :=
  stockCommand ctx "stock-count:" id read.date (textOr input.memo s!"Stock count — {item.name}")
    (if 0 < read.counted - item.quantityMilli then
      transfer ctx.currency accounts.inventory.id accounts.adjustment.id
        (countValue item read.counted) "Found on count" none
    else transfer ctx.currency accounts.adjustment.id accounts.inventory.id
        (countValue item read.counted) "Shrinkage" none)

def foundShelf (item : ItemRecord) (read : CountRead) (id : String) (entryId : EntryId) :
    ShelfReceipt where
  sku := sku
  date := read.date
  quantityMilli := read.counted - item.quantityMilli
  unitCostMinor := item.unitCostMinor
  reference := "count"
  entryId := entryId
  memo := "Found on count"
  id := "mv:" ++ id

def shrinkageShelf (item : ItemRecord) (read : CountRead) (id : String) (entryId : EntryId) :
    ShelfIssue where
  sku := sku
  date := read.date
  quantityMilli := -(read.counted - item.quantityMilli)
  reference := "count"
  entryId := entryId
  memo := "Shrinkage"
  kind := .count
  id := "mv:" ++ id
  lotSeq := none

def shelveCount (item : ItemRecord) (read : CountRead) (id : String) (entry : PostedEntry) :
    InventoryProg ItemRecord :=
  if 0 < read.counted - item.quantityMilli then
    applyReceipt ctx (foundShelf sku item read id entry.id)
  else do
    let result ← applyIssue ctx (shrinkageShelf sku item read id entry.id)
    return result.item

def postCount (input : CountInput) (sku : String) (item : ItemRecord) (read : CountRead)
    (accounts : CountAccounts) : InventoryProg CountResult := do
  let id := trimmedOr input.id s!"{sku}-count-{read.date}"
  let entry ← postFlow ctx.toFlowContext (countCommand ctx input item read accounts id)
  let updated ← shelveCount ctx sku item read id entry
  return ⟨updated, entry.id, read.counted - item.quantityMilli⟩

def correctCount (read : CountRead) : InventoryProg CountResult := do
  let updated := { item with quantityMilli := read.counted }
  ask (.saveItem ctx.tenant updated)
  return ⟨updated, "", read.counted - item.quantityMilli⟩

def recordCount (input : CountInput) : InventoryProg CountResult := do
  let sku := skuOf ctx input.sku
  let item ← requireStockItem ctx sku
  let read ← Prog.ofExcept (readCount input)
  if read.counted - item.quantityMilli = 0 then return ⟨item, "", 0⟩
  else do
    let accounts ← Prog.ofExcept (countAccounts ctx input item)
    if countValue item read.counted = 0 then correctCount ctx item read
    else postCount ctx input sku item read accounts

end Rgnr8.Service.Inventory
