import Rgnr8.Service.StockLayers

/-! The shelf against the inventory accounts of the ledger, over any run of the three flows. Every
flow values its movement twice, for the entry and for the shelf; the two agree as long as the shelf
really moves when the entry is appended, and moves by the value that was entered. -/

namespace Rgnr8.Service.Inventory
open Lib Lib.Js Fallible Kernel InventoryStore List

variable (tenant : TenantId)

def stockValueOn (code : String) (own : InventoryStore) : Int :=
  own.items.total fun key i =>
    if key.1 = tenant ∧ i.kind = .stock ∧ i.inventoryAccountCode = code then i.valueMinor else 0

def stockValue (own : InventoryStore) : Int :=
  own.items.total fun key i => if key.1 = tenant ∧ i.kind = .stock then i.valueMinor else 0

def shelfCodes (own : InventoryStore) : Finset String :=
  ((own.items.entries.filter fun e => e.1.1 = tenant ∧ e.2.kind = .stock).map
    fun e => e.2.inventoryAccountCode).toFinset

variable (chart : ChartOfAccounts)

def ledgerValueOn {π : Type} (tenant : TenantId) (code : String) (ledger : Ledger π) : Int :=
  match chart.getByCode code with
  | some account => balanceOf account.id (ledger.journal tenant)
  | none => 0

def ledgerValue {π : Type} (tenant : TenantId) (s : Stores π InventoryStore) : Int :=
  ∑ code ∈ shelfCodes tenant s.own, ledgerValueOn chart tenant code s.ledger

def TiesOut {π : Type} (tenant : TenantId) (s : Stores π InventoryStore) : Prop :=
  ∀ code ∈ shelfCodes tenant s.own,
    stockValueOn tenant code s.own = ledgerValueOn chart tenant code s.ledger

instance {π : Type} (chart : ChartOfAccounts) (tenant : TenantId) (s : Stores π InventoryStore) :
    Decidable (TiesOut chart tenant s) := inferInstanceAs (Decidable (∀ code ∈ _, _ = _))

def stockPrefixes : List String := ["stock-in:", "stock-out:", "stock-count:"]

/-- Every entry of the flows has its movement on file. -/
def Moved {π : Type} (s : Stores π InventoryStore) : Prop :=
  ∀ p ∈ stockPrefixes, ∀ id, s.ledger.store.getByIdempotencyKey tenant (p ++ id) ≠ none →
    s.own.getMovement tenant ("mv:" ++ id) ≠ none

section
variable {own own' : InventoryStore} {t : TenantId} {item found : ItemRecord} {code : String}

theorem mem_shelfCodes : code ∈ shelfCodes t own ↔ ∃ sku item,
    own.getItem t sku = some item ∧ item.kind = .stock ∧ item.inventoryAccountCode = code := by
  unfold shelfCodes getItem
  rw [mem_toFinset, mem_map]
  constructor
  · rintro ⟨⟨⟨t', sku⟩, i⟩, hmem, rfl⟩
    rw [mem_filter] at hmem
    obtain ⟨rfl, hkind⟩ := of_decide_eq_true hmem.2
    exact ⟨sku, i, OrderedMap.mem_entries.mp hmem.1, hkind, rfl⟩
  · rintro ⟨sku, i, hget, hkind, rfl⟩
    refine ⟨((t, sku), i), ?_, rfl⟩
    rw [mem_filter]
    exact ⟨OrderedMap.mem_entries.mpr hget, decide_eq_true ⟨rfl, hkind⟩⟩

theorem stockValue_eq_sum (t : TenantId) (own : InventoryStore) :
    stockValue t own = ∑ code ∈ shelfCodes t own, stockValueOn t code own := by
  have hall : ∀ e ∈ own.items.entries, e.1.1 = t ∧ e.2.kind = .stock →
      e.2.inventoryAccountCode ∈ shelfCodes t own := by
    intro e he hstock
    unfold shelfCodes
    rw [mem_toFinset, mem_map]
    exact ⟨e, mem_filter.mpr ⟨he, decide_eq_true hstock⟩, rfl⟩
  unfold stockValue stockValueOn OrderedMap.total
  generalize shelfCodes t own = codes at hall ⊢
  generalize own.items.entries = entries at hall ⊢
  induction entries with
  | nil => simp
  | cons e es ih =>
    rw [forall_mem_cons] at hall
    simp only [map_cons, sum_cons]
    rw [Finset.sum_add_distrib, ih hall.2]
    by_cases hstock : e.1.1 = t ∧ e.2.kind = .stock
    · simp only [hstock, and_self, if_true, true_and, Finset.sum_ite_eq, hall.1 hstock]
    · have hnone : ∀ code, ¬ (e.1.1 = t ∧ e.2.kind = .stock ∧ e.2.inventoryAccountCode = code) :=
        fun code h => hstock ⟨h.1, h.2.1⟩
      simp only [hstock, hnone, if_false, Finset.sum_const_zero]

/-- Saved over the record it was made from, on the same account. -/
structure Replaces (t : TenantId) (own : InventoryStore) (found item : ItemRecord) : Prop where
  held : own.getItem t found.sku = some found
  stock : found.kind = .stock
  sku : item.sku = found.sku
  kind : item.kind = found.kind
  account : item.inventoryAccountCode = found.inventoryAccountCode

theorem stockValueOn_saveItem (h : Replaces t own found item) (code : String) :
    stockValueOn t code (own.saveItem t item) = stockValueOn t code own +
      if found.inventoryAccountCode = code then item.valueMinor - found.valueMinor else 0 := by
  have hheld : own.items.get? (t, item.sku) = some found := by
    rw [h.sku]
    exact h.held
  unfold stockValueOn saveItem
  rw [OrderedMap.total_set, hheld]
  simp only [Option.map_some, Option.getD_some, h.kind, h.stock, h.account, true_and]
  split_ifs <;> omega

theorem shelfCodes_saveItem (h : Replaces t own found item) :
    shelfCodes t (own.saveItem t item) = shelfCodes t own := by
  ext code
  rw [mem_shelfCodes, mem_shelfCodes]
  constructor
  · rintro ⟨sku, i, hget, hkind, hcode⟩
    rw [getItem_saveItem] at hget
    split_ifs at hget with hkey
    · rw [← Option.some.inj hget, h.account] at hcode
      exact ⟨found.sku, found, h.held, h.stock, hcode⟩
    · exact ⟨sku, i, hget, hkind, hcode⟩
  · rintro ⟨sku, i, hget, hkind, hcode⟩
    by_cases hkey : sku = item.sku
    · subst hkey
      rw [h.sku, h.held] at hget
      rw [← Option.some.inj hget, ← h.account] at hcode
      refine ⟨item.sku, item, ?_, h.kind.trans h.stock, hcode⟩
      rw [getItem_saveItem, if_pos ⟨rfl, rfl⟩]
    · refine ⟨sku, i, ?_, hkind, hcode⟩
      rw [getItem_saveItem, if_neg fun hboth => hkey hboth.2]
      exact hget

theorem stockValueOn_congr (h : own'.items = own.items) (code : String) :
    stockValueOn t code own' = stockValueOn t code own := by
  unfold stockValueOn
  rw [h]

theorem shelfCodes_congr (h : own'.items = own.items) : shelfCodes t own' = shelfCodes t own := by
  unfold shelfCodes
  rw [h]

end

/-! What an entry moves on an inventory account. -/

section
variable {ctx : InventoryContext} {own : InventoryStore} {b : Booking} {chart : ChartOfAccounts}

theorem netOn_transfer (id debit credit : AccountId) (currency : Currency) (amount : Int)
    (memo : String) (dimensions : Option Dimensions) :
    netOn id (transfer currency debit credit amount memo dimensions) =
      (if debit = id then amount else 0) + (if credit = id then -amount else 0) := by
  unfold transfer
  simp only [netOn_cons, netOn_nil, Int.add_zero]
  rfl

/-- The signed value a booking brings to the shelf by its entry. -/
def Booking.entered (b : Booking) : Int :=
  match b.move with
  | .receipt _ => b.amount
  | .issue _ => -b.amount

def Booking.Apart (b : Booking) (chart : ChartOfAccounts) (codes : Finset String) : Prop :=
  ∀ code ∈ codes, ∀ account ∈ chart.getByCode code, account.id ≠ b.counter

instance (b : Booking) (chart : ChartOfAccounts) (codes : Finset String) :
    Decidable (b.Apart chart codes) := inferInstanceAs (Decidable (∀ code ∈ _, ∀ account ∈ _, _ ≠ _))

theorem netOn_of_booked (hb : Booked ctx own b) {account : Account} {code : String}
    (hacc : ctx.chart.getByCode code = some account) (hapart : account.id ≠ b.counter) :
    netOn account.id b.command.lines =
      if b.item.inventoryAccountCode = code then b.entered else 0 := by
  have hctr : b.counter ≠ account.id := fun h => hapart h.symm
  cases hmove : b.move with
  | receipt input =>
    obtain ⟨inventory, hinvt, currency, memo, dimensions, hlines⟩ :=
      (hb.receipt input hmove).carries
    have hid := ChartOfAccounts.id_eq_of_getByCode hinvt hacc
    have hentered : b.entered = b.amount := by rw [Booking.entered, hmove]
    rw [hlines, netOn_transfer, if_neg hctr, Int.add_zero, hentered]
    simp only [hid]
  | issue input =>
    obtain ⟨inventory, hinvt, currency, memo, dimensions, hlines⟩ :=
      (hb.issue input hmove).carries
    have hid := ChartOfAccounts.id_eq_of_getByCode hinvt hacc
    have hentered : b.entered = -b.amount := by rw [Booking.entered, hmove]
    rw [hlines, netOn_transfer, if_neg hctr, Int.zero_add, hentered]
    simp only [hid]

/-! What a booking moves on the shelf. -/

def ShelfMove.Priced (ctx : InventoryContext) (own : InventoryStore) (item : ItemRecord) :
    ShelfMove → Prop
  | .receipt _ => True
  | .issue input => ¬ TooSmall ctx own item.sku input.quantityMilli input.lotSeq ∧
      (input.kind = .count → ctx.method.usesLots → input.quantityMilli ≠ item.quantityMilli →
        previewLots (drawnOn ctx own item.sku input.lotSeq) input.quantityMilli 0 =
          mulDiv input.quantityMilli item.unitCostMinor milli)

instance (ctx : InventoryContext) (own : InventoryStore) (item : ItemRecord) :
    ∀ move : ShelfMove, Decidable (move.Priced ctx own item)
  | .receipt _ => inferInstanceAs (Decidable True)
  | .issue _ => inferInstanceAs (Decidable (¬ _ ∧ (_ → _ → _ → _)))

theorem amount_of_priced (hb : Booked ctx own b) {input : ShelfIssue} (hmove : b.move = .issue input)
    (hpric : b.move.Priced ctx own b.item) :
    b.amount = issueCost ctx own b.item input.quantityMilli input.lotSeq := by
  have hissue := hb.issue input hmove
  rw [hmove] at hpric
  rcases hissue.amount with hamt | ⟨hkind, hne, hamt⟩
  · exact hamt
  · rw [hamt]
    unfold issueCost
    rw [if_neg fun hall => hne hall.1]
    by_cases hlots : ctx.method.usesLots
    · rw [if_pos hlots, hpric.2 hkind hlots hne]
    · rw [if_neg hlots]

theorem receive_spec (ctx : InventoryContext) (own : InventoryStore) (item : ItemRecord)
    (input : ShelfReceipt) :
    (own.receive ctx item input).items =
        (own.saveItem ctx.tenant (received item input)).items ∧
      ∀ id, (own.receive ctx item input).getMovement ctx.tenant id =
        if id = input.id then some (receiptMovement item input)
        else own.getMovement ctx.tenant id := by
  have hsav : ∀ id, ((own.saveItem ctx.tenant (received item input)).saveMovement ctx.tenant
      (receiptMovement item input)).getMovement ctx.tenant id =
        if id = input.id then some (receiptMovement item input)
        else own.getMovement ctx.tenant id := by
    intro id
    have hsav := getMovement_saveMovement (own.saveItem ctx.tenant
      (received item input)) ctx.tenant ctx.tenant (receiptMovement item input) id
    simp only [true_and] at hsav
    exact hsav
  unfold receive
  by_cases hlots : ctx.method.usesLots
  · rw [if_pos hlots]
    exact ⟨rfl, hsav⟩
  · rw [if_neg hlots]
    exact ⟨rfl, hsav⟩

theorem issue_spec (ctx : InventoryContext) (own : InventoryStore) (item : ItemRecord)
    (input : ShelfIssue) :
    let value := issueCost ctx own item input.quantityMilli input.lotSeq
    (own.issue ctx item input).items =
        (own.saveItem ctx.tenant (relieved item input value)).items ∧
      ∀ id, (own.issue ctx item input).getMovement ctx.tenant id =
        if id = input.id then some (issueMovement ctx item input value)
        else own.getMovement ctx.tenant id := by
  have hdrawn : (own.drawn ctx item.sku input.quantityMilli input.lotSeq).items = own.items ∧
      (own.drawn ctx item.sku input.quantityMilli input.lotSeq).movements = own.movements := by
    by_cases hlots : ctx.method.usesLots
    · have hspec := drawn_spec hlots own item.sku input.quantityMilli input.lotSeq
      exact ⟨hspec.items, hspec.movements⟩
    · unfold drawn
      rw [if_neg hlots]
      exact ⟨rfl, rfl⟩
  constructor
  · change (own.drawn ctx item.sku input.quantityMilli input.lotSeq).items.set _ _ = _
    rw [hdrawn.1]
    rfl
  · intro id
    unfold issue
    rw [getMovement_saveMovement, getMovement_saveItem]
    unfold getMovement
    rw [hdrawn.2]
    simp only [true_and]
    rfl

theorem getMovement_filed {own' : InventoryStore} {filed : String} {x : MovementRecord}
    (h : ∀ id, own'.getMovement ctx.tenant id =
      if id = filed then some x else own.getMovement ctx.tenant id) :
    own'.getMovement ctx.tenant filed ≠ none ∧
      ∀ id, own.getMovement ctx.tenant id ≠ none → own'.getMovement ctx.tenant id ≠ none := by
  constructor
  · rw [h, if_pos rfl]
    exact Option.some_ne_none _
  · intro id hid
    rw [h]
    split_ifs
    · exact Option.some_ne_none _
    · exact hid

theorem shelved_of_priced (hb : Booked ctx own b)
    (hfree : own.getMovement ctx.tenant b.move.id = none) (hpric : b.move.Priced ctx own b.item)
    (e : EntryId) : ∃ item, Replaces ctx.tenant own b.item item ∧
      item.valueMinor - b.item.valueMinor = b.entered ∧
      (own.shelved ctx b e).items = (own.saveItem ctx.tenant item).items ∧
      (own.shelved ctx b e).getMovement ctx.tenant b.move.id ≠ none ∧
      ∀ id, own.getMovement ctx.tenant id ≠ none →
        (own.shelved ctx b e).getMovement ctx.tenant id ≠ none := by
  unfold shelved
  rw [hfree]
  cases hmove : b.move with
  | receipt input =>
    have hrec := hb.receipt input hmove
    have hkind := (foundItem_eq_ok.mp hrec.found).2
    have hval : (received b.item { input with entryId := e }).valueMinor - b.item.valueMinor =
        b.entered := by
      have hentered : b.entered = b.amount := by rw [Booking.entered, hmove]
      rw [hentered, hrec.amount]
      change b.item.valueMinor + mulDiv input.quantityMilli input.unitCostMinor milli -
        b.item.valueMinor = _
      omega
    obtain ⟨hitems, hmovem⟩ := receive_spec ctx own b.item { input with entryId := e }
    exact ⟨received b.item { input with entryId := e },
      ⟨getItem_of_foundItem hrec.found, hkind, rfl, rfl, rfl⟩, hval, hitems,
      getMovement_filed hmovem⟩
  | issue input =>
    have hissue := hb.issue input hmove
    have hkind := (foundItem_eq_ok.mp hissue.found).2
    have hamt := amount_of_priced hb hmove hpric
    rw [hmove] at hpric
    have hval : (relieved b.item { input with entryId := e }
        (issueCost ctx own b.item input.quantityMilli input.lotSeq)).valueMinor -
          b.item.valueMinor = b.entered := by
      have hentered : b.entered = -b.amount := by rw [Booking.entered, hmove]
      rw [hentered, hamt]
      change b.item.valueMinor - issueCost ctx own b.item input.quantityMilli input.lotSeq -
        b.item.valueMinor = -issueCost ctx own b.item input.quantityMilli input.lotSeq
      omega
    obtain ⟨hitems, hmovem⟩ := issue_spec ctx own b.item { input with entryId := e }
    dsimp only
    rw [if_neg hpric.1]
    exact ⟨relieved b.item { input with entryId := e } _,
      ⟨getItem_of_foundItem hissue.found, hkind, rfl, rfl, rfl⟩, hval, hitems,
      getMovement_filed hmovem⟩

end

/-! Calls and runs. -/

def Plan.Steady {π : Type} [PeriodStore π] (ctx : InventoryContext) (s : Stores π InventoryStore) :
    Plan → Prop
  | .keep => True
  | .correct _ => True
  | .book b => b.Apart ctx.chart (shelfCodes ctx.tenant s.own) ∧
      (s.ledger.Appends ctx.chart b.command →
        s.own.getMovement ctx.tenant b.move.id = none ∧ b.move.Priced ctx s.own b.item)

instance {π : Type} [PeriodStore π] (ctx : InventoryContext) (s : Stores π InventoryStore) :
    ∀ plan : Plan, Decidable (plan.Steady ctx s)
  | .keep => inferInstanceAs (Decidable True)
  | .correct _ => inferInstanceAs (Decidable True)
  | .book _ => inferInstanceAs (Decidable (_ ∧ (_ → _ ∧ _)))

def StockCall.Steady {π : Type} [PeriodStore π] {tenant : TenantId} {method : CostingMethod}
    (chart : ChartOfAccounts) (s : Stores π InventoryStore) (call : StockCall tenant method) : Prop :=
  call.context.chart = chart ∧
    OnOk (Plan.Steady call.context s) (call.request.plan call.context s.own)

section
variable {π : Type} [PeriodStore π] {tenant : TenantId} {method : CostingMethod}
variable {chart : ChartOfAccounts} {s : Stores π InventoryStore} {call : StockCall tenant method}

theorem id_eq_of_key_eq {p p' id id' : String} (hp : p ∈ stockPrefixes) (hp' : p' ∈ stockPrefixes)
    (h : p ++ id = p' ++ id') : id = id' := by
  unfold stockPrefixes at hp hp'
  simp only [mem_cons, not_mem_nil, or_false] at hp hp'
  rw [← String.toList_inj, String.toList_append, String.toList_append] at h
  rw [← String.toList_inj]
  rcases hp with rfl | rfl | rfl <;> rcases hp' with rfl | rfl | rfl <;> simp at h <;> exact h

theorem moved_entered {ctx : InventoryContext} {b : Booking} (hmov : Moved ctx.tenant s)
    (hb : Booked ctx s.own b) (happends : s.ledger.Appends ctx.chart b.command) {own : InventoryStore}
    (hnew : own.getMovement ctx.tenant b.move.id ≠ none)
    (hold : ∀ id, s.own.getMovement ctx.tenant id ≠ none → own.getMovement ctx.tenant id ≠ none) :
    Moved ctx.tenant (⟨s.ledger.posted b.command ⟨ctx.clock.postedAt⟩, own⟩ :
      Stores π InventoryStore) := by
  intro p hp id hkey
  obtain ⟨p', hp', id', hcommand, hmove⟩ := hb.named
  have hposted := Ledger.getByIdempotencyKey_posted ⟨ctx.clock.postedAt⟩ happends ctx.tenant (p ++ id)
  rw [hposted, hb.tenant, hcommand] at hkey
  by_cases hsame : p ++ id = p' ++ id'
  · rw [id_eq_of_key_eq hp hp' hsame, ← hmove]
    exact hnew
  · rw [if_neg fun hboth => hsame hboth.2] at hkey
    exact hold _ (hmov p hp id hkey)

theorem tiesOut_entered {ctx : InventoryContext} {b : Booking} (hties : TiesOut ctx.chart ctx.tenant s)
    (hb : Booked ctx s.own b) (happends : s.ledger.Appends ctx.chart b.command)
    (hapart : b.Apart ctx.chart (shelfCodes ctx.tenant s.own)) {item : ItemRecord}
    (hitem : Replaces ctx.tenant s.own b.item item)
    (hval : item.valueMinor - b.item.valueMinor = b.entered) {own : InventoryStore}
    (hown : own.items = (s.own.saveItem ctx.tenant item).items) :
    TiesOut ctx.chart ctx.tenant (⟨s.ledger.posted b.command ⟨ctx.clock.postedAt⟩, own⟩ :
      Stores π InventoryStore) := by
  intro code hcode
  dsimp only at hcode ⊢
  rw [shelfCodes_congr hown, shelfCodes_saveItem hitem] at hcode
  rw [stockValueOn_congr hown, stockValueOn_saveItem hitem, hties code hcode, hval]
  unfold ledgerValueOn
  cases hacc : ctx.chart.getByCode code with
  | none =>
    -- an item without an account of the chart is never booked
    have hne : b.item.inventoryAccountCode ≠ code := by
      rintro rfl
      cases hmove : b.move with
      | receipt input =>
        obtain ⟨inventory, hinvt, -⟩ := (hb.receipt input hmove).carries
        rw [hacc] at hinvt
        cases hinvt
      | issue input =>
        obtain ⟨inventory, hinvt, -⟩ := (hb.issue input hmove).carries
        rw [hacc] at hinvt
        cases hinvt
    rw [if_neg hne, Int.add_zero]
  | some account =>
    have hbalance := Ledger.balanceOf_posted ⟨ctx.clock.postedAt⟩ happends account.id
    rw [hb.tenant] at hbalance
    have hnet := netOn_of_booked hb hacc (hapart code hcode account hacc)
    dsimp only
    rw [hbalance, hnet]

theorem StockCall.steady_step (hties : TiesOut chart tenant s) (hmov : Moved tenant s)
    (hcall : call.Steady chart s) :
    TiesOut chart tenant (call.step s) ∧ Moved tenant (call.step s) := by
  obtain ⟨ctx, rfl, rfl, r⟩ := call
  obtain ⟨rfl, hcall⟩ := hcall
  have hcall := onOk_iff.mp hcall
  have hends := stepEnds ctx s r
  unfold StockCall.step
  dsimp only at hties hmov hcall ⊢
  generalize ((r.program ctx).run exec s).2 = s' at hends ⊢
  cases hends with
  | idle _ => exact ⟨hties, hmov⟩
  | refused _ _ => exact ⟨hties, hmov⟩
  | @corrected item hplan =>
    obtain ⟨found, counted, hget, -, hkind, rfl⟩ := correction hplan
    have hitem : Replaces ctx.tenant s.own found { found with quantityMilli := counted } :=
      ⟨hget, hkind, rfl, rfl, rfl⟩
    refine ⟨fun code hcode => ?_, hmov⟩
    dsimp only at hcode ⊢
    rw [shelfCodes_saveItem hitem] at hcode
    rw [stockValueOn_saveItem hitem, Int.sub_self, ite_self, Int.add_zero]
    exact hties code hcode
  | @entered b ledger e hplan hentered =>
    have hb := booked hplan
    obtain ⟨hapart, hfresh⟩ := hcall _ hplan
    cases hentered with
    | @answered e' h =>
      -- the movement of the old entry is on file, so the shelf stays
      obtain ⟨p, hp, id, hcommand, hmove⟩ := hb.named
      have hkey : s.ledger.store.getByIdempotencyKey ctx.tenant (p ++ id) ≠ none := by
        rw [← hcommand, ← hb.tenant, h.1]
        exact Option.some_ne_none _
      obtain ⟨seen, hseen⟩ := Option.ne_none_iff_exists'.mp (hmov p hp id hkey)
      have hshel : s.own.shelved ctx b e = s.own := by
        unfold shelved
        rw [hmove, hseen]
      rw [hshel]
      exact ⟨hties, hmov⟩
    | appended happends =>
      obtain ⟨hfree, hpric⟩ := hfresh happends
      obtain ⟨item, hitem, hval, hitems, hnew, hold⟩ := shelved_of_priced hb hfree hpric e
      exact ⟨tiesOut_entered hties hb happends hapart hitem hval hitems,
        moved_entered hmov hb happends hnew hold⟩

omit [PeriodStore π] in
theorem stockValue_of_tiesOut (h : TiesOut chart tenant s) :
    stockValue tenant s.own = ledgerValue chart tenant s := by
  rw [stockValue_eq_sum]
  exact Finset.sum_congr rfl h

end

/-- From stores that tie out, with no entry of the flows in the journal yet, a run of steady calls
ties out after every call: on each inventory account, and so in all. -/
theorem stock_ties_out {π : Type} [PeriodStore π] {tenant : TenantId} {method : CostingMethod}
    (chart : ChartOfAccounts) (s : Stores π InventoryStore) (hties : TiesOut chart tenant s)
    (hfresh : ∀ p ∈ stockPrefixes, ∀ id, s.ledger.store.getByIdempotencyKey tenant (p ++ id) = none)
    (calls : List (StockCall tenant method))
    (hsteady : EachStep StockCall.step (StockCall.Steady chart) s calls) :
    Along StockCall.step (fun s => TiesOut chart tenant s ∧
      stockValue tenant s.own = ledgerValue chart tenant s) s calls := by
  have hmov : Moved tenant s := fun p hp id hkey => absurd (hfresh p hp id) hkey
  have halong := along_of_eachStep
    (G := fun s : Stores π InventoryStore => TiesOut chart tenant s ∧ Moved tenant s)
    (fun s call hG hcall => call.steady_step hG.1 hG.2 hcall) ⟨hties, hmov⟩ hsteady
  exact along_imp (fun s hG => ⟨hG.1, stockValue_of_tiesOut hG.1⟩) halong

theorem ties_out_of_deliveries :
    Along StockCall.step (fun s => TiesOut Sample.chart "acme" s ∧
      stockValue "acme" s.own = ledgerValue Sample.chart "acme" s) Sample.shelf
      [Sample.call .fifo (Sample.receive "r1" "5000" "100"),
        Sample.call .fifo (Sample.receive "r2" "5000" "100"),
        Sample.call .fifo (Sample.issue "i1" "7000" none),
        Sample.call .fifo (Sample.count "c1" "2500")] := by
  refine stock_ties_out Sample.chart Sample.shelf (by decide +kernel) (fun _ _ _ => rfl) _ ?_
  refine eachStep_cons.mpr ⟨⟨rfl, by decide +kernel⟩, eachStep_cons.mpr
    ⟨⟨rfl, by decide +kernel⟩, eachStep_cons.mpr ⟨⟨rfl, by decide +kernel⟩, ?_⟩⟩⟩
  exact eachStep_cons.mpr ⟨⟨rfl, by decide +kernel⟩, eachStep_nil⟩

theorem receipt_under_issue_id :
    ¬ Along StockCall.step (fun s => stockValue "acme" s.own = ledgerValue Sample.chart "acme" s)
      Sample.shelf [Sample.call .movingAverage (Sample.receive "r1" "5000" "100"),
        Sample.call .movingAverage (Sample.issue "x" "2000" none),
        Sample.call .movingAverage (Sample.receive "x" "5000" "100")] := by
  intro h
  have hafter := h _ prefix_rfl
  exact absurd hafter (by decide +kernel)

end Rgnr8.Service.Inventory
