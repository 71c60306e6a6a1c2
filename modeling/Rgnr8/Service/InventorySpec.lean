import Rgnr8.Service.StockLots

/-! What one call of the stock flows does, run alone on its stores: it decides on a movement from
what it reads, posts the entry of the movement, and then moves the shelf. -/

namespace Rgnr8.Service.Inventory
open Lib Lib.Js Fallible Kernel Prog Except

/-! The two halves that move the shelf. -/

variable (ctx : InventoryContext)

def foundItem (sku : String) (own : InventoryStore) : Except FlowFailure ItemRecord :=
  stockItem sku (own.getItem ctx.tenant (ctx.letters.toUpperCase sku))

variable (own : InventoryStore)

def InventoryStore.receive (ctx : InventoryContext) (item : ItemRecord) (input : ShelfReceipt) :
    InventoryStore :=
  let moved := (own.saveItem ctx.tenant (received item input)).saveMovement ctx.tenant
    (receiptMovement item input)
  if ctx.method.usesLots then
    moved.saveLot ctx.tenant (receiptLot item input (own.lots ctx.tenant item.sku))
  else moved

def drawnOn (sku : String) (lotSeq : Option Int) :
    List LotRecord := orderLotsFor (own.lots ctx.tenant sku) ctx.method lotSeq

/-- The lots drawn on hold less than is asked for. -/
def TooSmall (sku : String) (quantity : Int) (lotSeq : Option Int) : Prop :=
  ctx.method.usesLots ∧ 0 < needAfter (drawnOn ctx own sku lotSeq) quantity

instance (ctx : InventoryContext) (own : InventoryStore) (sku : String) (quantity : Int)
    (lotSeq : Option Int) : Decidable (TooSmall ctx own sku quantity lotSeq) :=
  inferInstanceAs (Decidable (_ ∧ _))

def issueCost (item : ItemRecord) (quantity : Int) (lotSeq : Option Int) : Int :=
  if quantity = item.quantityMilli ∧ ¬ namesLot ctx.method lotSeq then item.valueMinor
  else if ctx.method.usesLots then previewLots (drawnOn ctx own item.sku lotSeq) quantity 0
  else mulDiv quantity item.unitCostMinor milli

def InventoryStore.drawn (ctx : InventoryContext) (sku : String) (quantity : Int)
    (lotSeq : Option Int) : InventoryStore :=
  if ctx.method.usesLots then
    drawFrom ctx.tenant (drawnOn ctx own sku lotSeq) quantity own
  else own

def InventoryStore.issue (ctx : InventoryContext) (item : ItemRecord) (input : ShelfIssue) :
    InventoryStore :=
  let value := issueCost ctx own item input.quantityMilli input.lotSeq
  ((own.drawn ctx item.sku input.quantityMilli input.lotSeq).saveItem ctx.tenant
    (relieved item input value)).saveMovement ctx.tenant (issueMovement ctx item input value)

section
variable {π : Type} [PeriodStore π] {ctx : InventoryContext} {s : Stores π InventoryStore}
variable {item : ItemRecord} {own : InventoryStore}

theorem foundItem_eq_ok {sku : String} : foundItem ctx sku own = .ok item ↔
    own.getItem ctx.tenant (ctx.letters.toUpperCase sku) = some item ∧ item.kind = .stock := by
  unfold foundItem
  cases own.getItem ctx.tenant (ctx.letters.toUpperCase sku) with
  | none => exact iff_of_false (fun h => by cases h) fun h => by cases h.1
  | some found =>
    rw [stockItem, refuse_eq_ok, ok.injEq, Option.some.injEq, not_not]
    constructor
    · rintro ⟨hkind, rfl⟩
      exact ⟨rfl, hkind⟩
    · rintro ⟨rfl, hkind⟩
      exact ⟨hkind, rfl⟩

theorem sku_of_foundItem {sku : String} (h : foundItem ctx sku own = .ok item) :
    item.sku = ctx.letters.toUpperCase sku := own.item_of_get (foundItem_eq_ok.mp h).1

theorem decides_requireStockItem (s : Stores π InventoryStore) (sku : String) :
    Decides exec s (requireStockItem ctx sku) (foundItem ctx sku s.own) fun item => (.ok item, s) := by
  unfold requireStockItem
  refine .read rfl ?_
  unfold foundItem
  change run exec (ofExcept (stockItem sku
    (s.own.getItem ctx.tenant (ctx.letters.toUpperCase sku)))) s = _
  cases stockItem sku (s.own.getItem ctx.tenant (ctx.letters.toUpperCase sku)) <;> rfl

theorem run_requireStockItem {sku : String} (h : foundItem ctx sku s.own = .ok item) :
    (requireStockItem ctx sku).run exec s = (.ok item, s) :=
  (decides_requireStockItem s sku).ran h

theorem run_applyReceipt (input : ShelfReceipt) (hitem : foundItem ctx input.sku s.own = .ok item)
    (hqty : 0 < input.quantityMilli) :
    (applyReceipt ctx input).run exec s = match s.own.getMovement ctx.tenant input.id with
      | some _ => (.ok item, s)
      | none => (.ok (received item input), { s with own := s.own.receive ctx item input }) := by
  unfold applyReceipt
  rw [run_bind_ok (run_requireStockItem hitem), refuseIf_neg (not_le.mpr hqty)]
  change run exec (ask (.getMovement ctx.tenant input.id) >>= _) s = _
  have hseen : (ask (.getMovement ctx.tenant input.id)).run exec s =
    (.ok (s.own.getMovement ctx.tenant input.id), s) := rfl
  rw [run_bind_ok hseen]
  cases s.own.getMovement ctx.tenant input.id with
  | some seen => rfl
  | none =>
    unfold InventoryStore.receive addLot
    by_cases hlots : ctx.method.usesLots
    · simp only [hlots, if_true]
      rfl
    · simp only [hlots]
      rfl

theorem run_drawLots (lots : List LotRecord) (need cost : Int) (s : Stores π InventoryStore) :
    (drawLots ctx.tenant lots need cost).run exec s =
      (.ok (needAfter lots need, previewLots lots need cost),
        { s with own := drawFrom ctx.tenant lots need s.own }) := by
  induction lots generalizing need cost s with
  | nil => rfl
  | cons lot lots ih =>
    unfold drawLots needAfter previewLots drawFrom
    by_cases hdone : need ≤ 0
    · simp only [if_pos hdone]
      rfl
    · simp only [if_neg hdone]
      exact ih (need - takeFrom lot need) (cost + takenValue lot (takeFrom lot need)) _

theorem run_consumeLots (ctx : InventoryContext) (sku : String) (quantity : Int) (lotSeq : Option Int)
    (s : Stores π InventoryStore) : (consumeLots ctx sku quantity lotSeq).run exec s =
      (if 0 < needAfter (drawnOn ctx s.own sku lotSeq) quantity then
          .error (lotTooSmall sku quantity lotSeq)
        else .ok (previewLots (drawnOn ctx s.own sku lotSeq) quantity 0),
        { s with own := drawFrom ctx.tenant (drawnOn ctx s.own sku lotSeq) quantity s.own }) := by
  unfold consumeLots
  change Prog.run exec (Prog.bind (drawLots ctx.tenant (drawnOn ctx s.own sku lotSeq) quantity 0) _) s
    = _
  rw [run_bind, run_drawLots]
  dsimp only
  split_ifs with hshort
  · rw [refuseIf_pos hshort]
    rfl
  · rw [refuseIf_neg hshort]
    rfl

theorem run_issueValue (ctx : InventoryContext) (item : ItemRecord) (input : ShelfIssue)
    (s : Stores π InventoryStore) : (issueValue ctx item input).run exec s =
      (if TooSmall ctx s.own item.sku input.quantityMilli input.lotSeq then
          .error (lotTooSmall item.sku input.quantityMilli input.lotSeq)
        else .ok (issueCost ctx s.own item input.quantityMilli input.lotSeq),
        { s with own := s.own.drawn ctx item.sku input.quantityMilli input.lotSeq }) := by
  have hcon := run_consumeLots ctx item.sku input.quantityMilli input.lotSeq s
  unfold issueValue issueCost InventoryStore.drawn TooSmall
  by_cases hlots : ctx.method.usesLots
  · simp only [hlots, if_true, true_and]
    by_cases hall : input.quantityMilli = item.quantityMilli ∧ ¬ namesLot ctx.method input.lotSeq
    · rw [if_pos hall, if_pos hall]
      by_cases hshort : 0 < needAfter (drawnOn ctx s.own item.sku input.lotSeq) input.quantityMilli
      · rw [if_pos hshort] at hcon ⊢
        exact run_bind_error hcon
      · rw [if_neg hshort] at hcon ⊢
        exact run_bind_ok hcon
    · rw [if_neg hall, if_neg hall]
      exact hcon
  · simp only [hlots, if_false, false_and, Bool.false_eq_true]
    split_ifs <;> rfl

theorem run_applyIssue (input : ShelfIssue) (hitem : foundItem ctx input.sku s.own = .ok item)
    (hqty : 0 < input.quantityMilli) (hhand : input.quantityMilli ≤ item.quantityMilli)
    (hfree : s.own.getMovement ctx.tenant input.id = none) :
    let value := issueCost ctx s.own item input.quantityMilli input.lotSeq
    (applyIssue ctx input).run exec s =
      if TooSmall ctx s.own item.sku input.quantityMilli input.lotSeq then
        (.error (lotTooSmall item.sku input.quantityMilli input.lotSeq),
          { s with own := s.own.drawn ctx item.sku input.quantityMilli input.lotSeq })
      else (.ok ⟨relieved item input value, value, issueUnitCost ctx item input value⟩,
        { s with own := s.own.issue ctx item input }) := by
  have hval := run_issueValue ctx item input s
  unfold applyIssue
  rw [run_bind_ok (run_requireStockItem hitem), refuseIf_neg (not_le.mpr hqty)]
  change run exec (ask (.getMovement ctx.tenant input.id) >>= _) s = _
  have hseen : (ask (.getMovement ctx.tenant input.id)).run exec s = (.ok none, s) := by
    rw [← hfree]
    rfl
  rw [run_bind_ok hseen]
  dsimp only
  rw [refuseIf_neg (not_lt.mpr hhand)]
  change run exec (issueValue ctx item input >>= _) s = _
  by_cases hshort : TooSmall ctx s.own item.sku input.quantityMilli input.lotSeq
  · rw [if_pos hshort] at hval ⊢
    exact run_bind_error hval
  · rw [if_neg hshort] at hval ⊢
    rw [run_bind_ok hval]
    rfl

end

/-! What a call decides on. -/

inductive InventoryRequest where
  | receive (input : ReceiveInput)
  | issue (input : IssueInput)
  | count (input : CountInput)

variable (ctx : InventoryContext)

def InventoryRequest.program : InventoryRequest → InventoryProg Unit
  | receive input => do let _ ← receiveStock ctx input
  | issue input => do let _ ← issueStock ctx input
  | count input => do let _ ← recordCount ctx input

inductive ShelfMove where
  | receipt (input : ShelfReceipt)
  | issue (input : ShelfIssue)

def ShelfMove.id : ShelfMove → String
  | receipt input => input.id
  | issue input => input.id

def ShelfMove.stamped (entryId : EntryId) : ShelfMove → ShelfMove
  | receipt input => .receipt { input with entryId := entryId }
  | issue input => .issue { input with entryId := entryId }

def shelve : ShelfMove → InventoryProg Unit
  | .receipt input => do let _ ← applyReceipt ctx input
  | .issue input => do let _ ← applyIssue ctx input

structure Booking where
  item : ItemRecord
  counter : AccountId
  amount : Int
  command : PostCommand
  move : ShelfMove

inductive Plan where
  | keep
  | correct (item : ItemRecord)
  | book (b : Booking)

def planReceive (input : ReceiveInput) (own : InventoryStore) : Except FlowFailure Plan := do
  let sku := skuOf ctx input.sku
  let item ← foundItem ctx sku own
  let draft ← draftReceipt ctx input item
  let id := movementId input.id sku draft.date "" .receipt (own.listMovements ctx.tenant sku)
  return .book ⟨item, draft.paidFrom.id, mulDiv draft.quantity draft.unitCost milli,
    receiptCommand ctx input item draft id, .receipt (receiptShelf input sku draft id "")⟩

def planFresh (input : IssueInput) (sku : String) (item : ItemRecord) (draft : IssueDraft)
    (id : String) (own : InventoryStore) : Except FlowFailure Plan :=
  if item.quantityMilli < draft.quantity then
    .error (shortOnHand sku draft.quantity item.quantityMilli)
  else do
    let lotSeq ← namedLot ctx input sku
    let value := issueCost ctx own item draft.quantity lotSeq
    if value = 0 then .error (.own s!"{sku} has no value on hand to issue")
    else
      let command := issueCommand ctx input item draft id value
      (validateDimensions ctx.dimensionContext command).mapError .dimension
      return .book ⟨item, draft.cost.id, value, command,
        .issue (issueShelf input sku draft id lotSeq "")⟩

def planIssue (input : IssueInput) (own : InventoryStore) : Except FlowFailure Plan := do
  let sku := skuOf ctx input.sku
  let item ← foundItem ctx sku own
  let draft ← draftIssue ctx input item
  let id := movementId input.id sku draft.date "-out" .issue (own.listMovements ctx.tenant sku)
  match own.getMovement ctx.tenant ("mv:" ++ id) with
  | some _ => return .keep
  | none => planFresh ctx input sku item draft id own

def countMove (sku : String) (item : ItemRecord) (read : CountRead) (id : String) : ShelfMove :=
  if 0 < read.counted - item.quantityMilli then .receipt (foundShelf sku item read id "")
  else .issue (shrinkageShelf sku item read id "")

def planCount (input : CountInput) (own : InventoryStore) : Except FlowFailure Plan := do
  let sku := skuOf ctx input.sku
  let item ← foundItem ctx sku own
  let read ← readCount input
  if read.counted - item.quantityMilli = 0 then return .keep
  else
    let accounts ← countAccounts ctx input item
    let id := trimmedOr input.id s!"{sku}-count-{read.date}"
    if countValue item read.counted = 0 then
      return .correct { item with quantityMilli := read.counted }
    else return .book ⟨item, accounts.adjustment.id, countValue item read.counted,
      countCommand ctx input item read accounts id, countMove sku item read id⟩

def InventoryRequest.plan (own : InventoryStore) : InventoryRequest → Except FlowFailure Plan
  | receive input => planReceive ctx input own
  | issue input => planIssue ctx input own
  | count input => planCount ctx input own

section
variable {π : Type} [PeriodStore π] {ctx : InventoryContext}

def bookStock (ctx : InventoryContext) (b : Booking) : InventoryProg Unit := do
  let entry ← postFlow ctx.toFlowContext b.command
  shelve ctx (b.move.stamped entry.id)

def carryOut (ctx : InventoryContext) (s : Stores π InventoryStore) :
    Plan → Except FlowFailure Unit × Stores π InventoryStore
  | .keep => (.ok (), s)
  | .correct item => (.ok (), { s with own := s.own.saveItem ctx.tenant item })
  | .book b => (bookStock ctx b).run exec s

theorem run_movementIdOf (ctx : InventoryContext) (explicit : Option String)
    (sku date infix_ : String) (kind : MovementKind) (s : Stores π InventoryStore) :
    (movementIdOf ctx explicit sku date infix_ kind).run exec s =
      (.ok (movementId explicit sku date infix_ kind (s.own.listMovements ctx.tenant sku)), s) := by
  unfold movementIdOf
  split_ifs with hid
  · rfl
  · have heq : movementId explicit sku date infix_ kind (s.own.listMovements ctx.tenant sku) =
        trim (explicit.getD "") := if_neg hid
    rw [heq]
    rfl

theorem decides_receiveStock (ctx : InventoryContext) (input : ReceiveInput)
    (s : Stores π InventoryStore) : Decides exec s (InventoryRequest.program ctx (.receive input))
      (planReceive ctx input s.own) (carryOut ctx s) := by
  unfold InventoryRequest.program receiveStock planReceive
  simp only [bind_assoc]
  refine .bind (decides_requireStockItem s _) fun item hitem => ?_
  refine .check fun draft _ => .answer (run_movementIdOf ..) (.done ?_)
  unfold carryOut bookStock
  rfl

variable {item : ItemRecord}

theorem run_previewValue {sku : String} (hsku : item.sku = sku) (quantity : Int)
    (lotSeq : Option Int) (s : Stores π InventoryStore) :
    (previewValue ctx item sku quantity lotSeq).run exec s =
      (.ok (issueCost ctx s.own item quantity lotSeq), s) := by
  subst hsku
  unfold previewValue issueCost
  split_ifs <;> rfl

theorem decides_issueFresh {input : IssueInput} {sku : String} {draft : IssueDraft} {id : String}
    {s : Stores π InventoryStore} (hitem : foundItem ctx sku s.own = .ok item)
    (hsku : item.sku = sku) :
    Decides exec s (issueFresh ctx input sku item draft id >>= fun _ => .ret ())
      (planFresh ctx input sku item draft id s.own) (carryOut ctx s) := by
  unfold issueFresh planFresh
  simp only [bind_assoc]
  refine .answer (run_requireStockItem hitem) (.refuse fun _ => .check fun lotSeq _ => ?_)
  refine .answer (run_previewValue hsku _ _ _) (.refuse fun _ => .check fun _ _ => .done ?_)
  unfold carryOut bookStock
  rfl

theorem decides_issueStock (ctx : InventoryContext) (input : IssueInput)
    (s : Stores π InventoryStore) : Decides exec s (InventoryRequest.program ctx (.issue input))
      (planIssue ctx input s.own) (carryOut ctx s) := by
  unfold InventoryRequest.program issueStock planIssue
  simp only [bind_assoc]
  refine .bind (decides_requireStockItem s _) fun item hitem => ?_
  refine .check fun draft _ => .answer (run_movementIdOf ..) (.read rfl ?_)
  have hsku : item.sku = skuOf ctx input.sku := by
    rw [sku_of_foundItem hitem]
    exact ctx.letters.idempotent _
  dsimp only [exec, FlowCall.exec, InventoryCall.exec]
  generalize movementId input.id _ _ _ _ _ = id
  cases s.own.getMovement ctx.tenant ("mv:" ++ id) with
  | some seen =>
    refine .done ?_
    rw [bind_assoc]
    exact run_bind_ok (run_requireStockItem hitem)
  | none => exact decides_issueFresh hitem hsku

theorem decides_recordCount (ctx : InventoryContext) (input : CountInput)
    (s : Stores π InventoryStore) : Decides exec s (InventoryRequest.program ctx (.count input))
      (planCount ctx input s.own) (carryOut ctx s) := by
  unfold InventoryRequest.program recordCount planCount
  simp only [bind_assoc]
  refine .bind (decides_requireStockItem s _) fun item hitem => .check fun read _ => ?_
  by_cases hsame : read.counted - item.quantityMilli = 0
  · rw [if_pos hsame, if_pos hsame]
    exact .done rfl
  · rw [if_neg hsame, if_neg hsame]
    simp only [bind_assoc]
    refine .check fun accounts _ => ?_
    by_cases hval : countValue item read.counted = 0
    · rw [if_pos hval, if_pos hval]
      exact .done rfl
    · rw [if_neg hval, if_neg hval]
      refine .done ?_
      unfold carryOut bookStock postCount shelveCount countMove
      by_cases hfound : 0 < read.counted - item.quantityMilli
      · simp only [if_pos hfound, bind_assoc]
        rfl
      · simp only [if_neg hfound, bind_assoc]
        rfl

theorem decides_program (ctx : InventoryContext) (r : InventoryRequest)
    (s : Stores π InventoryStore) :
    Decides exec s (r.program ctx) (r.plan ctx s.own) (carryOut ctx s) := by
  rcases r with input | input | input
  · exact decides_receiveStock ctx input s
  · exact decides_issueStock ctx input s
  · exact decides_recordCount ctx input s

/-! What a booking is made of. -/

def Booking.Named (b : Booking) : Prop :=
  ∃ p ∈ ["stock-in:", "stock-out:", "stock-count:"], ∃ id : String,
    b.command.idempotencyKey = p ++ id ∧ b.move.id = "mv:" ++ id

/-- The amount goes from the first account to the second. -/
def Booking.Carries (b : Booking) (debit credit : AccountId) : Prop :=
  ∃ currency memo dimensions, b.command.lines = transfer currency debit credit b.amount memo dimensions

/-- A receipt brings in what its entry debits to the inventory. -/
structure ReceiptBooked (ctx : InventoryContext) (own : InventoryStore) (b : Booking)
    (input : ShelfReceipt) : Prop where
  found : foundItem ctx input.sku own = .ok b.item
  positive : 0 < input.quantityMilli
  carries : ∃ inventory, ctx.chart.getByCode b.item.inventoryAccountCode = some inventory ∧
    b.Carries inventory.id b.counter
  amount : b.amount = mulDiv input.quantityMilli input.unitCostMinor milli

/-- An issue takes out what its entry credits to the inventory; only a count that leaves something
on the shelf is entered at the average whatever the method. -/
structure IssueBooked (ctx : InventoryContext) (own : InventoryStore) (b : Booking)
    (input : ShelfIssue) : Prop where
  found : foundItem ctx input.sku own = .ok b.item
  positive : 0 < input.quantityMilli
  onHand : input.quantityMilli ≤ b.item.quantityMilli
  carries : ∃ inventory, ctx.chart.getByCode b.item.inventoryAccountCode = some inventory ∧
    b.Carries b.counter inventory.id
  amount : b.amount = issueCost ctx own b.item input.quantityMilli input.lotSeq ∨
    (input.kind = .count ∧ input.quantityMilli ≠ b.item.quantityMilli ∧
      b.amount = mulDiv input.quantityMilli b.item.unitCostMinor milli)
  nonzero : b.amount ≠ 0
  named : input.kind = .count → input.lotSeq = none

structure Booked (ctx : InventoryContext) (own : InventoryStore) (b : Booking) : Prop where
  tenant : b.command.tenantId = ctx.tenant
  named : b.Named
  receipt : ∀ input, b.move = .receipt input → ReceiptBooked ctx own b input
  issue : ∀ input, b.move = .issue input → IssueBooked ctx own b input

variable {own : InventoryStore} {b : Booking}

theorem booked_planReceive {input : ReceiveInput} (h : planReceive ctx input own = .ok (.book b)) :
    Booked ctx own b := by
  simp only [planReceive, draftReceipt, bind_eq_ok, refuse_eq_ok] at h
  obtain ⟨item, hitem, draft, ⟨date, -, quantity, -, unitCost, -, hquan, -, inventory,
    hinvt, paidFrom, -, hdraft⟩, hb⟩ := h
  have hdraft := ok.inj hdraft
  subst hdraft
  have hb := Plan.book.inj (ok.inj hb)
  subst hb
  refine ⟨rfl, ⟨"stock-in:", by decide, _, rfl, rfl⟩, ?_, ?_⟩
  · intro input' hmove
    have hmove := ShelfMove.receipt.inj hmove
    subst hmove
    exact ⟨hitem, not_le.mp hquan, ⟨inventory, accountOf_eq_ok hinvt, _, _, _, rfl⟩, rfl⟩
  · intro input' hmove
    cases hmove

theorem booked_planIssue {input : IssueInput} (h : planIssue ctx input own = .ok (.book b)) :
    Booked ctx own b ∧ own.getMovement ctx.tenant b.move.id = none := by
  simp only [planIssue, draftIssue, bind_eq_ok, refuse_eq_ok] at h
  obtain ⟨item, hitem, draft, ⟨date, -, quantity, -, hquan, -, cost, -, inventory, hinvt,
    hdraft⟩, h⟩ := h
  have hdraft := ok.inj hdraft
  subst hdraft
  generalize movementId input.id _ _ _ _ _ = id at h
  cases hseen : own.getMovement ctx.tenant ("mv:" ++ id) with
  | some seen =>
    rw [hseen] at h
    cases ok.inj h
  | none =>
    rw [hseen] at h
    simp only [planFresh, bind_eq_ok, refuse_eq_ok] at h
    obtain ⟨hhand, lotSeq, -, hval, -, -, hb⟩ := h
    have hb := Plan.book.inj (ok.inj hb)
    subst hb
    refine ⟨⟨rfl, ⟨"stock-out:", by decide, _, rfl, rfl⟩, ?_, ?_⟩, hseen⟩
    · intro input' hmove
      cases hmove
    · intro input' hmove
      have hmove := ShelfMove.issue.inj hmove
      subst hmove
      have hcount : MovementKind.issue = .count → lotSeq = none := fun h => by cases h
      exact ⟨hitem, not_le.mp hquan, not_lt.mp hhand,
        ⟨inventory, accountOf_eq_ok hinvt, _, _, _, rfl⟩, .inl rfl, hval, hcount⟩

theorem countValue_of_shrinkage (ctx : InventoryContext) (own : InventoryStore) {counted : Int}
    (h : ¬ 0 < counted - item.quantityMilli) :
    countValue item counted = issueCost ctx own item (-(counted - item.quantityMilli)) none ∨
      (-(counted - item.quantityMilli) ≠ item.quantityMilli ∧ countValue item counted =
        mulDiv (-(counted - item.quantityMilli)) item.unitCostMinor milli) := by
  unfold countValue issueCost
  rw [if_neg h]
  have hname : namesLot ctx.method none = false := by
    unfold namesLot
    simp
  by_cases hzero : counted = 0
  · left
    rw [if_pos hzero, if_pos]
    refine ⟨by omega, ?_⟩
    rw [hname]
    exact Bool.false_ne_true
  · right
    rw [if_neg hzero]
    exact ⟨by omega, rfl⟩

theorem booked_planCount {input : CountInput} (h : planCount ctx input own = .ok (.book b)) :
    Booked ctx own b := by
  simp only [planCount, bind_eq_ok] at h
  obtain ⟨item, hitem, read, hread, h⟩ := h
  by_cases hsame : read.counted - item.quantityMilli = 0
  · rw [if_pos hsame] at h
    cases ok.inj h
  · rw [if_neg hsame, bind_eq_ok] at h
    obtain ⟨accounts, haccounts, h⟩ := h
    by_cases hval : countValue item read.counted = 0
    · rw [if_pos hval] at h
      cases ok.inj h
    · rw [if_neg hval] at h
      have hb := Plan.book.inj (ok.inj h)
      subst hb
      simp only [countAccounts, bind_eq_ok] at haccounts
      obtain ⟨adjustment, -, inventory, hinvt, haccounts⟩ := haccounts
      have haccounts := ok.inj haccounts
      subst haccounts
      have hcnt : 0 ≤ read.counted := by
        simp only [readCount, bind_eq_ok, refuse_eq_ok] at hread
        obtain ⟨date, -, counted, -, hcnt, hread⟩ := hread
        have hread := ok.inj hread
        subst hread
        exact not_lt.mp hcnt
      have hinvt := accountOf_eq_ok hinvt
      unfold countMove countCommand
      by_cases hfound : 0 < read.counted - item.quantityMilli
      · rw [if_pos hfound, if_pos hfound]
        refine ⟨rfl, ⟨"stock-count:", by decide, _, rfl, rfl⟩, ?_, ?_⟩
        · intro input' hmove
          have hmove := ShelfMove.receipt.inj hmove
          subst hmove
          exact ⟨hitem, hfound, ⟨inventory, hinvt, _, _, _, rfl⟩, if_pos hfound⟩
        · intro input' hmove
          cases hmove
      · rw [if_neg hfound, if_neg hfound]
        refine ⟨rfl, ⟨"stock-count:", by decide, _, rfl, rfl⟩, ?_, ?_⟩
        · intro input' hmove
          cases hmove
        · intro input' hmove
          have hmove := ShelfMove.issue.inj hmove
          subst hmove
          have hposv : 0 < -(read.counted - item.quantityMilli) := by omega
          have honH : -(read.counted - item.quantityMilli) ≤ item.quantityMilli := by omega
          refine ⟨hitem, hposv, honH, ⟨inventory, hinvt, _, _, _, rfl⟩, ?_, hval,
            fun _ => rfl⟩
          rcases countValue_of_shrinkage ctx own hfound with hcost | hcost
          · exact .inl hcost
          · exact .inr ⟨rfl, hcost⟩

theorem booked {r : InventoryRequest} (h : r.plan ctx own = .ok (.book b)) : Booked ctx own b := by
  rcases r with input | input | input
  · exact booked_planReceive h
  · exact (booked_planIssue h).1
  · exact booked_planCount h

theorem planIssue_cases {input : IssueInput} {plan : Plan} (h : planIssue ctx input own = .ok plan) :
    plan = .keep ∨ ∃ b shelf, plan = .book b ∧ b.move = .issue shelf := by
  simp only [planIssue, bind_eq_ok] at h
  obtain ⟨found, -, draft, -, h⟩ := h
  generalize movementId input.id _ _ _ _ _ = id at h
  cases hseen : own.getMovement ctx.tenant ("mv:" ++ id) with
  | some seen =>
    rw [hseen] at h
    exact .inl (ok.inj h).symm
  | none =>
    rw [hseen] at h
    simp only [planFresh, bind_eq_ok, refuse_eq_ok] at h
    obtain ⟨-, lotSeq, -, -, checked, -, h⟩ := h
    exact .inr ⟨_, _, (ok.inj h).symm, rfl⟩

theorem correction {r : InventoryRequest} (h : r.plan ctx own = .ok (.correct item)) :
    ∃ found counted,
      own.getItem ctx.tenant found.sku = some found ∧ counted ≠ found.quantityMilli ∧
        found.kind = .stock ∧ item = { found with quantityMilli := counted } := by
  rcases r with input | input | input
  · simp only [InventoryRequest.plan, planReceive, bind_eq_ok] at h
    obtain ⟨found, -, draft, -, h⟩ := h
    cases ok.inj h
  · rcases planIssue_cases h with hkeep | ⟨b, shelf, hbook, -⟩
    · cases hkeep
    · cases hbook
  · simp only [InventoryRequest.plan, planCount, bind_eq_ok] at h
    obtain ⟨found, hfound, read, -, h⟩ := h
    by_cases hsame : read.counted - found.quantityMilli = 0
    · rw [if_pos hsame] at h
      cases ok.inj h
    · rw [if_neg hsame, bind_eq_ok] at h
      obtain ⟨accounts, -, h⟩ := h
      by_cases hval : countValue found read.counted = 0
      · rw [if_pos hval] at h
        obtain ⟨hget, hkind⟩ := foundItem_eq_ok.mp hfound
        rw [← sku_of_foundItem hfound] at hget
        refine ⟨found, read.counted, hget, fun heq => hsame (by omega), hkind, ?_⟩
        exact (Plan.correct.inj (ok.inj h)).symm
      · rw [if_neg hval] at h
        cases ok.inj h

/-! What a booking does to the shelf once its entry is there. -/

variable {s : Stores π InventoryStore}

theorem run_shelve_seen (hb : Booked ctx s.own b) {seen : MovementRecord}
    (h : s.own.getMovement ctx.tenant b.move.id = some seen) (e : EntryId) :
    (shelve ctx (b.move.stamped e)).run exec s = (.ok (), s) := by
  cases hmove : b.move with
  | receipt input =>
    have hr := hb.receipt input hmove
    have hrun := run_applyReceipt { input with entryId := e } hr.found hr.positive
    rw [hmove] at h
    rw [show s.own.getMovement ctx.tenant input.id = some seen from h] at hrun
    exact run_bind_ok hrun
  | issue input =>
    have hi := hb.issue input hmove
    rw [hmove] at h
    have hrun : (applyIssue ctx { input with entryId := e }).run exec s =
        (.ok ⟨b.item, -seen.valueMinor, seen.unitCostMinor⟩, s) := by
      unfold applyIssue
      rw [run_bind_ok (run_requireStockItem hi.found), refuseIf_neg (not_le.mpr hi.positive)]
      change run exec (ask (.getMovement ctx.tenant input.id) >>= _) s = _
      have hseen : (ask (.getMovement ctx.tenant input.id)).run exec s = (.ok (some seen), s) := by
        rw [← show s.own.getMovement ctx.tenant input.id = some seen from h]
        rfl
      rw [run_bind_ok hseen]
      rfl
    exact run_bind_ok hrun

theorem run_shelve_receipt (hb : Booked ctx s.own b) {input : ShelfReceipt}
    (hmove : b.move = .receipt input) (h : s.own.getMovement ctx.tenant b.move.id = none)
    (e : EntryId) : (shelve ctx (b.move.stamped e)).run exec s =
      (.ok (), { s with own := s.own.receive ctx b.item { input with entryId := e } }) := by
  have hr := hb.receipt input hmove
  have hrun := run_applyReceipt { input with entryId := e } hr.found hr.positive
  rw [hmove] at h ⊢
  rw [show s.own.getMovement ctx.tenant input.id = none from h] at hrun
  exact run_bind_ok hrun

theorem run_shelve_issue (hb : Booked ctx s.own b) {input : ShelfIssue}
    (hmove : b.move = .issue input) (h : s.own.getMovement ctx.tenant b.move.id = none)
    (e : EntryId) : (shelve ctx (b.move.stamped e)).run exec s =
      if TooSmall ctx s.own b.item.sku input.quantityMilli input.lotSeq then
        (.error (lotTooSmall b.item.sku input.quantityMilli input.lotSeq),
          { s with own := s.own.drawn ctx b.item.sku input.quantityMilli input.lotSeq })
      else (.ok (), { s with own := s.own.issue ctx b.item { input with entryId := e } }) := by
  have hi := hb.issue input hmove
  rw [hmove] at h ⊢
  have hrun := run_applyIssue { input with entryId := e } hi.found hi.positive hi.onHand h
  dsimp only at hrun
  split_ifs at hrun ⊢ with hsmall
  · exact run_bind_error hrun
  · exact run_bind_ok hrun

def InventoryStore.shelved (own : InventoryStore) (ctx : InventoryContext) (b : Booking)
    (e : EntryId) : InventoryStore :=
  match own.getMovement ctx.tenant b.move.id with
  | some _ => own
  | none => match b.move with
    | .receipt input => own.receive ctx b.item { input with entryId := e }
    | .issue input =>
      if TooSmall ctx own b.item.sku input.quantityMilli input.lotSeq then
        own.drawn ctx b.item.sku input.quantityMilli input.lotSeq
      else own.issue ctx b.item { input with entryId := e }

theorem run_shelve (hb : Booked ctx s.own b) (e : EntryId) :
    ((shelve ctx (b.move.stamped e)).run exec s).2 = { s with own := s.own.shelved ctx b e } := by
  unfold InventoryStore.shelved
  cases hseen : s.own.getMovement ctx.tenant b.move.id with
  | some seen => rw [run_shelve_seen hb hseen]
  | none =>
    cases hmove : b.move with
    | receipt input =>
      have hrun := run_shelve_receipt hb hmove hseen e
      rw [hmove] at hrun
      rw [hrun]
    | issue input =>
      have hrun := run_shelve_issue hb hmove hseen e
      rw [hmove] at hrun
      rw [hrun]
      dsimp only
      split_ifs <;> rfl

theorem flowPosts_bookStock (ctx : InventoryContext) (s : Stores π InventoryStore) (b : Booking) :
    FlowPosts InventoryCall.exec ctx.toFlowContext b.command
      (fun entry => shelve ctx (b.move.stamped entry.id)) s ((bookStock ctx b).run exec s) :=
  flowPosts InventoryCall.exec ctx.toFlowContext b.command _ s

inductive Entered (ctx : InventoryContext) (s : Stores π InventoryStore) (b : Booking) :
    Ledger π → Prop where
  | answered {e : PostedEntry} (h : s.ledger.Answers b.command e) : Entered ctx s b s.ledger
  | appended (h : s.ledger.Appends ctx.chart b.command) :
      Entered ctx s b (s.ledger.posted b.command ⟨ctx.clock.postedAt⟩)

theorem Entered.accepts {ledger : Ledger π} (h : Entered ctx s b ledger) :
    s.ledger.Accepts ctx.chart b.command := by
  cases h with
  | answered h => exact .inl ⟨_, h⟩
  | appended h => exact .inr h

/-- All that one call can leave behind. -/
inductive StepEnds (ctx : InventoryContext) (s : Stores π InventoryStore) (r : InventoryRequest) :
    Stores π InventoryStore → Prop where
  | idle (h : ∀ plan, r.plan ctx s.own = .ok plan → plan = .keep) : StepEnds ctx s r s
  | refused {b : Booking} (hplan : r.plan ctx s.own = .ok (.book b))
      (h : ¬ s.ledger.Accepts ctx.chart b.command) : StepEnds ctx s r s
  | corrected {item : ItemRecord} (hplan : r.plan ctx s.own = .ok (.correct item)) :
      StepEnds ctx s r { s with own := s.own.saveItem ctx.tenant item }
  | entered {b : Booking} {ledger : Ledger π} (e : EntryId) (hplan : r.plan ctx s.own = .ok (.book b))
      (hentered : Entered ctx s b ledger) : StepEnds ctx s r ⟨ledger, s.own.shelved ctx b e⟩

theorem stepEnds (ctx : InventoryContext) (s : Stores π InventoryStore) (r : InventoryRequest) :
    StepEnds ctx s r ((r.program ctx).run exec s).2 := by
  have hdec := decides_program ctx r s
  cases hplan : r.plan ctx s.own with
  | error e =>
    rw [hdec.threw hplan]
    refine .idle fun plan h => ?_
    rw [hplan] at h
    cases h
  | ok plan =>
    rw [hdec.ran hplan]
    cases plan with
    | keep =>
      refine .idle fun plan h => ?_
      rw [hplan] at h
      exact (ok.inj h).symm
    | correct item => exact .corrected hplan
    | book b =>
      have hb := booked hplan
      have hends := flowPosts_bookStock ctx s b
      change StepEnds ctx s r ((bookStock ctx b).run exec s).2
      generalize (bookStock ctx b).run exec s = result at hends
      cases hends with
      | refused err hanswers happends =>
        refine .refused hplan fun h => ?_
        rcases h with ⟨e, h⟩ | h
        · exact hanswers e h
        · exact happends h
      | @answered e h =>
        have hrun := run_shelve (s := s) hb e.id
        rw [hrun]
        exact .entered e.id hplan (.answered h)
      | appended h =>
        have hrun := run_shelve (s := s.posted ctx.toFlowContext b.command) hb
          (s.entryOf ctx.toFlowContext b.command).id
        rw [hrun]
        exact .entered _ hplan (.appended h)

end

namespace Sample

def chart : ChartOfAccounts :=
  (ChartOfAccounts.ofAccounts
    [Kernel.Sample.account "cash" "1000" .asset, Kernel.Sample.account "stock" "1300" .asset,
      Kernel.Sample.account "cogs" "5100" .expense,
      Kernel.Sample.account "shrinkage" "5300" .expense]).toOption.getD .empty

def context (method : CostingMethod) : InventoryContext where
  tenant := "acme"
  chart := chart
  currency := usd
  clock := ⟨"2026-03-01T09:00:00Z", "2026-03-01T09:00:00Z"⟩
  letters := asciiLetters
  method := method
  jobs := []
  costCodes := []
  dimensions := []

def shelf : Stores (InMemoryPeriodStore TenantId PeriodKey) InventoryStore :=
  ⟨⟨.empty, .empty⟩,
    InventoryStore.empty.saveItem "acme" ⟨"BOLT", "Bolt", .stock, 0, 0, 0, "1300", "5100"⟩⟩

def receive (id quantity unitCost : String) : InventoryRequest :=
  .receive ⟨some id, some "BOLT", some "2026-03-01", some (.text quantity), some (.text unitCost),
    none, none, none⟩

def issueInput (id quantity : String) (lotSeq : Option TextOrNumber) : IssueInput :=
  ⟨some id, some "BOLT", some "2026-03-02", some (.text quantity), none, none, none, none, none,
    lotSeq⟩

def issue (id quantity : String) (lotSeq : Option TextOrNumber) : InventoryRequest :=
  .issue (issueInput id quantity lotSeq)

def count (id counted : String) : InventoryRequest :=
  .count ⟨some id, some "BOLT", some "2026-03-03", some (.text counted), none, none⟩

def after (method : CostingMethod) (requests : List InventoryRequest) :
    Stores (InMemoryPeriodStore TenantId PeriodKey) InventoryStore :=
  requests.foldl (fun s r => ((r.program (context method)).run exec s).2) shelf

end Sample
end Rgnr8.Service.Inventory
