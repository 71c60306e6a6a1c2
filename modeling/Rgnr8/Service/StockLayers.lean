import Rgnr8.Service.InventorySpec

/-! Under a method that keeps lots, an item is the sum of its lots: what has to be true of a call
for this to stay so, over any run of the three flows. -/

namespace Rgnr8.Service.Inventory
open Lib Lib.Js Fallible Kernel InventoryStore List

structure StockCall (tenant : TenantId) (method : CostingMethod) where
  context : InventoryContext
  tenant_eq : context.tenant = tenant
  method_eq : context.method = method
  request : InventoryRequest

def StockCall.step {π : Type} [PeriodStore π] {tenant : TenantId} {method : CostingMethod}
    (s : Stores π InventoryStore) (call : StockCall tenant method) : Stores π InventoryStore :=
  ((call.request.program call.context).run exec s).2

def LotsAreItem (tenant : TenantId) (sku : String) (own : InventoryStore) : Prop :=
  ∀ item, own.getItem tenant sku = some item →
    item.quantityMilli = own.heldIn LotRecord.remainingQtyMilli tenant sku ∧
    item.valueMinor = own.heldIn LotRecord.remainingValueMinor tenant sku

section
variable {own : InventoryStore} {ctx : InventoryContext} {item : ItemRecord} {sku : String}

theorem getItem_of_foundItem (h : foundItem ctx sku own = .ok item) :
    own.getItem ctx.tenant item.sku = some item := by
  rw [sku_of_foundItem h]
  exact (foundItem_eq_ok.mp h).1

theorem getItem_receive (own : InventoryStore) (ctx : InventoryContext) (item : ItemRecord)
    (input : ShelfReceipt) (t : TenantId) (sku : String) :
    (own.receive ctx item input).getItem t sku =
      if t = ctx.tenant ∧ sku = item.sku then some (received item input) else own.getItem t sku := by
  have hsav := getItem_saveItem own ctx.tenant t (received item input) sku
  unfold receive
  by_cases hlots : ctx.method.usesLots
  · rw [if_pos hlots]
    exact hsav
  · rw [if_neg hlots]
    exact hsav

theorem getLot_receiptLot (own : InventoryStore) (t : TenantId) (item : ItemRecord)
    (input : ShelfReceipt) :
    own.getLot t item.sku (receiptLot item input (own.lots t item.sku)).seq = none := by
  have hmax : ∀ (lots : List LotRecord) (m : Int), m ≤ lots.foldl (fun m l => max m l.seq) m ∧
      ∀ l ∈ lots, l.seq ≤ lots.foldl (fun m l => max m l.seq) m := by
    intro lots
    induction lots with
    | nil => exact fun m => ⟨le_rfl, fun l hl => absurd hl not_mem_nil⟩
    | cons l lots ih =>
      intro m
      obtain ⟨hm, hlots⟩ := ih (max m l.seq)
      refine ⟨(le_max_left m l.seq).trans hm, fun l' hl' => ?_⟩
      rcases mem_cons.mp hl' with rfl | hl'
      · exact (le_max_right m l'.seq).trans hm
      · exact hlots l' hl'
  cases hlot : own.getLot t item.sku (receiptLot item input (own.lots t item.sku)).seq with
  | none => rfl
  | some l =>
    have hseq : l.seq = (own.lots t item.sku).foldl (fun m l => max m l.seq) 0 + 1 :=
      (own.lot_of_get hlot).2
    have hmem : l ∈ own.lots t item.sku := by
      rw [mem_lots, hseq]
      exact hlot
    have hle := (hmax (own.lots t item.sku) 0).2 l hmem
    omega

theorem heldIn_receive (hlots : ctx.method.usesLots) (f : LotRecord → Int) (input : ShelfReceipt)
    (sku : String) : (own.receive ctx item input).heldIn f ctx.tenant sku =
      own.heldIn f ctx.tenant sku +
        if sku = item.sku then f (receiptLot item input (own.lots ctx.tenant item.sku)) else 0 := by
  unfold receive
  rw [if_pos hlots, heldIn_saveLot]
  have hnone := getLot_receiptLot own ctx.tenant item input
  have hlot : ((own.saveItem ctx.tenant (received item input)).saveMovement ctx.tenant
      (receiptMovement item input)).getLot ctx.tenant
        (receiptLot item input (own.lots ctx.tenant item.sku)).sku
        (receiptLot item input (own.lots ctx.tenant item.sku)).seq = none := hnone
  rw [hlot]
  have hheld : ((own.saveItem ctx.tenant (received item input)).saveMovement ctx.tenant
      (receiptMovement item input)).heldIn f ctx.tenant sku = own.heldIn f ctx.tenant sku := rfl
  rw [hheld]
  simp only [true_and, Option.map_none, Option.getD_none, Int.sub_zero]
  rfl

theorem LotsSound.receive (h : LotsSound own ctx.tenant sku) {input : ShelfReceipt}
    (hqty : 0 < input.quantityMilli) : LotsSound (own.receive ctx item input) ctx.tenant sku := by
  unfold InventoryStore.receive
  have hmov : LotsSound ((own.saveItem ctx.tenant (received item input)).saveMovement ctx.tenant
    (receiptMovement item input)) ctx.tenant sku := h
  split_ifs
  · refine hmov.saveLot ⟨hqty.le, fun hzero => ?_⟩
    have hnone : input.quantityMilli = 0 := hzero
    omega
  · exact hmov

theorem drawn_spec (hlots : ctx.method.usesLots) (own : InventoryStore) (sku : String)
    (quantity : Int) (lotSeq : Option Int) : Drawn own (own.drawn ctx sku quantity lotSeq) ctx.tenant
      sku (drawnOn ctx own sku lotSeq) quantity := by
  unfold drawn
  rw [if_pos hlots]
  exact drawn_drawFrom (onShelf_orderLotsFor own ctx.tenant sku ctx.method lotSeq) quantity

variable {b : Booking} {t : TenantId}

theorem heldIn_congr {own' : InventoryStore}
    (h : ∀ seq, own'.getLot t sku seq = own.getLot t sku seq) (f : LotRecord → Int) :
    own'.heldIn f t sku = own.heldIn f t sku := by
  have hmem : ∀ l, l ∈ own'.lots t sku ↔ l ∈ own.lots t sku := by
    intro l
    rw [mem_lots, mem_lots, h]
  have hnd : ∀ own : InventoryStore, (own.lots t sku).Nodup := by
    intro own
    refine (pairwise_lots own t sku).imp fun hne => ?_
    rintro rfl
    exact hne rfl
  have hperm := (perm_ext_iff_of_nodup (hnd own') (hnd own)).mpr hmem
  exact (hperm.map f).sum_eq

theorem heldIn_value_of_empty (h : LotsSound own t sku)
    (hzero : own.heldIn LotRecord.remainingQtyMilli t sku = 0) :
    own.heldIn LotRecord.remainingValueMinor t sku = 0 := by
  have hsound : ∀ l ∈ own.lots t sku, 0 ≤ l.remainingQtyMilli ∧
      (l.remainingQtyMilli = 0 → l.remainingValueMinor = 0) :=
    fun l hl => h l.seq l (mem_lots.mp hl)
  unfold heldIn at hzero ⊢
  have hall : ∀ l ∈ own.lots t sku, l.remainingQtyMilli = 0 := by
    intro l hl
    have hnn : ∀ n ∈ (own.lots t sku).map LotRecord.remainingQtyMilli, 0 ≤ n := by
      intro n hn
      obtain ⟨l', hl', rfl⟩ := mem_map.mp hn
      exact (hsound l' hl').1
    have hle := single_le_sum hnn _ (mem_map_of_mem hl)
    have hpos := (hsound l hl).1
    omega
  refine sum_eq_zero fun n hn => ?_
  obtain ⟨l, hl, rfl⟩ := mem_map.mp hn
  exact (hsound l hl).2 (hall l hl)

/-! One booking. -/

theorem lotsAreItem_apart {own' : InventoryStore} (h : LotsAreItem t sku own)
    (hitem : own'.getItem t sku = own.getItem t sku)
    (hlots : ∀ seq, own'.getLot t sku seq = own.getLot t sku seq) : LotsAreItem t sku own' := by
  intro item hget
  rw [hitem] at hget
  rw [heldIn_congr hlots, heldIn_congr hlots]
  exact h item hget

theorem lotsAreItem_receive (hlots : ctx.method.usesLots) (h : LotsAreItem ctx.tenant sku own)
    (hget : own.getItem ctx.tenant item.sku = some item) (input : ShelfReceipt) :
    LotsAreItem ctx.tenant sku (own.receive ctx item input) := by
  intro found hfound
  rw [getItem_receive] at hfound
  rw [heldIn_receive hlots, heldIn_receive hlots]
  by_cases hsku : sku = item.sku
  · subst hsku
    rw [if_pos ⟨rfl, rfl⟩] at hfound
    obtain ⟨hqty, hval⟩ := h item hget
    rw [← Option.some.inj hfound, if_pos rfl, if_pos rfl, ← hqty, ← hval]
    exact ⟨rfl, rfl⟩
  · rw [if_neg fun hboth => hsku hboth.2] at hfound
    rw [if_neg hsku, if_neg hsku, Int.add_zero, Int.add_zero]
    exact h found hfound

theorem getItem_issue (hlots : ctx.method.usesLots) (own : InventoryStore) (item : ItemRecord)
    (input : ShelfIssue) (t : TenantId) (sku : String) :
    (own.issue ctx item input).getItem t sku = if t = ctx.tenant ∧ sku = item.sku then
      some (relieved item input (issueCost ctx own item input.quantityMilli input.lotSeq))
      else own.getItem t sku := by
  have hsav := getItem_saveItem
    (own.drawn ctx item.sku input.quantityMilli input.lotSeq) ctx.tenant t
    (relieved item input (issueCost ctx own item input.quantityMilli input.lotSeq)) sku
  have hitems := (drawn_spec hlots own item.sku input.quantityMilli input.lotSeq).items
  have hsame : (own.drawn ctx item.sku input.quantityMilli input.lotSeq).getItem t sku =
    own.getItem t sku := congrArg (fun items => items.get? (t, sku)) hitems
  rw [hsame] at hsav
  exact hsav

theorem needAfter_of_fits (hlots : ctx.method.usesLots) {quantity : Int} {lotSeq : Option Int}
    (hqty : 0 < quantity) (hfits : ¬ TooSmall ctx own sku quantity lotSeq) :
    needAfter (drawnOn ctx own sku lotSeq) quantity = 0 := by
  have hafter := needAfter_eq (onShelf_orderLotsFor own ctx.tenant sku ctx.method lotSeq).opened hqty.le
  have hle : ¬ 0 < needAfter (drawnOn ctx own sku lotSeq) quantity := fun h => hfits ⟨hlots, h⟩
  unfold drawnOn at hle ⊢
  omega

theorem lotsAreItem_issue (hlots : ctx.method.usesLots) (hsound : LotsSound own ctx.tenant sku)
    (h : LotsAreItem ctx.tenant sku own) (hget : own.getItem ctx.tenant item.sku = some item)
    {input : ShelfIssue} (hqty : 0 < input.quantityMilli)
    (hfits : item.sku = sku → ¬ TooSmall ctx own item.sku input.quantityMilli input.lotSeq) :
    LotsAreItem ctx.tenant sku (own.issue ctx item input) := by
  have hdrawn := drawn_spec hlots own item.sku input.quantityMilli input.lotSeq
  have hheld : ∀ f, (own.issue ctx item input).heldIn f ctx.tenant sku =
    (own.drawn ctx item.sku input.quantityMilli input.lotSeq).heldIn f ctx.tenant sku := fun _ => rfl
  intro found hfound
  rw [getItem_issue hlots] at hfound
  rw [hheld, hheld]
  by_cases hsku : sku = item.sku
  · subst hsku
    rw [if_pos ⟨rfl, rfl⟩] at hfound
    obtain ⟨hitemQ, hitemV⟩ := h item hget
    have hneed := needAfter_of_fits hlots hqty (hfits rfl)
    have hquan := hdrawn.quantity
    have hval := hdrawn.value
    rw [hneed, ← hitemQ] at hquan
    rw [← hitemV] at hval
    rw [← Option.some.inj hfound]
    refine ⟨?_, ?_⟩
    · change item.quantityMilli - input.quantityMilli = _
      omega
    · change item.valueMinor - issueCost ctx own item input.quantityMilli input.lotSeq = _
      unfold issueCost
      by_cases hall : input.quantityMilli = item.quantityMilli ∧ ¬ namesLot ctx.method input.lotSeq
      · -- the item is emptied: its lots hold nothing, so nothing of value
        have hzero := heldIn_value_of_empty (hdrawn.sound hsound) (by omega)
        rw [if_pos hall, hzero, Int.sub_self]
      · rw [if_neg hall, if_pos hlots]
        omega
  · rw [if_neg fun hboth => hsku hboth.2] at hfound
    have hapart : ∀ seq, (own.drawn ctx item.sku input.quantityMilli input.lotSeq).getLot ctx.tenant
      sku seq = own.getLot ctx.tenant sku seq := fun seq => hdrawn.apart ctx.tenant sku seq (.inr hsku)
    rw [heldIn_congr hapart, heldIn_congr hapart]
    exact h found hfound

def ShelfMove.Fits (ctx : InventoryContext) (own : InventoryStore) (item : ItemRecord) :
    ShelfMove → Prop
  | .receipt _ => True
  | .issue input => ¬ TooSmall ctx own item.sku input.quantityMilli input.lotSeq

instance (ctx : InventoryContext) (own : InventoryStore) (item : ItemRecord) :
    ∀ move : ShelfMove, Decidable (move.Fits ctx own item)
  | .receipt _ => inferInstanceAs (Decidable True)
  | .issue _ => inferInstanceAs (Decidable (¬ _))

theorem sound_shelved (hlots : ctx.method.usesLots) (hb : Booked ctx own b)
    (hsound : LotsSound own ctx.tenant sku) (e : EntryId) :
    LotsSound (own.shelved ctx b e) ctx.tenant sku := by
  unfold shelved
  cases own.getMovement ctx.tenant b.move.id with
  | some seen => exact hsound
  | none =>
    cases hmove : b.move with
    | receipt input => exact hsound.receive (hb.receipt input hmove).positive
    | issue input =>
      have hdrawn := drawn_spec hlots own b.item.sku input.quantityMilli input.lotSeq
      have hkept : LotsSound (own.drawn ctx b.item.sku input.quantityMilli input.lotSeq) ctx.tenant
          sku := by
        by_cases hsku : sku = b.item.sku
        · subst hsku
          exact hdrawn.sound hsound
        · intro seq l hl
          rw [hdrawn.apart _ _ _ (.inr hsku)] at hl
          exact hsound seq l hl
      dsimp only
      split_ifs
      · exact hkept
      · exact hkept

theorem lotsAreItem_shelved (hlots : ctx.method.usesLots) (hb : Booked ctx own b)
    (hsound : LotsSound own ctx.tenant sku) (h : LotsAreItem ctx.tenant sku own)
    (hfits : b.item.sku = sku → own.getMovement ctx.tenant b.move.id = none → b.move.Fits ctx own
      b.item) (e : EntryId) : LotsAreItem ctx.tenant sku (own.shelved ctx b e) := by
  unfold shelved
  cases hfree : own.getMovement ctx.tenant b.move.id with
  | some seen => exact h
  | none =>
    cases hmove : b.move with
    | receipt input =>
      exact lotsAreItem_receive hlots h (getItem_of_foundItem (hb.receipt input hmove).found) _
    | issue input =>
      have hissue := hb.issue input hmove
      rw [hmove] at hfits hfree
      dsimp only
      by_cases hsmall : TooSmall ctx own b.item.sku input.quantityMilli input.lotSeq
      · -- only the lots of another item can be too small
        have hsku : sku ≠ b.item.sku := fun heq => hfits heq.symm hfree hsmall
        have hdrawn := drawn_spec hlots own b.item.sku input.quantityMilli input.lotSeq
        rw [if_pos hsmall]
        refine lotsAreItem_apart h ?_ fun seq => hdrawn.apart ctx.tenant sku seq (.inr hsku)
        exact congrArg (fun items => items.get? (ctx.tenant, sku)) hdrawn.items
      · rw [if_neg hsmall]
        exact lotsAreItem_issue hlots hsound h (getItem_of_foundItem hissue.found) hissue.positive
          fun _ => hsmall

/-! A draw that does not fit. -/

theorem sum_orderLotsFor {lots : List LotRecord} {method : CostingMethod} {lotSeq : Option Int}
    (hname : ¬ namesLot method lotSeq) : ((orderLotsFor lots method lotSeq).map
      LotRecord.remainingQtyMilli).sum =
        ((lots.filter fun l => 0 < l.remainingQtyMilli).map LotRecord.remainingQtyMilli).sum := by
  unfold orderLotsFor
  split
  · exact absurd (decide_eq_true ⟨rfl, rfl⟩) hname
  · exact ((perm_insertionSort _ _).map _).sum_eq
  · exact ((perm_insertionSort _ _).map _).sum_eq

theorem sum_opened (hsound : LotsSound own t sku) :
    (((own.lots t sku).filter fun l => 0 < l.remainingQtyMilli).map
      LotRecord.remainingQtyMilli).sum = own.heldIn LotRecord.remainingQtyMilli t sku := by
  unfold heldIn
  have hnn : ∀ l ∈ own.lots t sku, 0 ≤ l.remainingQtyMilli :=
    fun l hl => (hsound l.seq l (mem_lots.mp hl)).1
  revert hnn
  generalize own.lots t sku = lots
  intro hnn
  induction lots with
  | nil => rfl
  | cons l lots ih =>
    rw [forall_mem_cons] at hnn
    have hrest := ih hnn.2
    have hl := hnn.1
    by_cases hopen : 0 < l.remainingQtyMilli
    · simp only [filter_cons, decide_eq_true_eq, if_pos hopen, map_cons, sum_cons, hrest]
    · simp only [filter_cons, decide_eq_true_eq, if_neg hopen, map_cons, sum_cons, hrest]
      omega

theorem not_lotsAreItem_drawn (hlots : ctx.method.usesLots) (hb : Booked ctx own b)
    (hsound : LotsSound own ctx.tenant b.item.sku) (h : LotsAreItem ctx.tenant b.item.sku own)
    {input : ShelfIssue} (hmove : b.move = .issue input)
    (hsmall : TooSmall ctx own b.item.sku input.quantityMilli input.lotSeq) :
    ¬ LotsAreItem ctx.tenant b.item.sku
      (own.drawn ctx b.item.sku input.quantityMilli input.lotSeq) := by
  intro hafter
  have hissue := hb.issue input hmove
  have hget := getItem_of_foundItem hissue.found
  have hdrawn := drawn_spec hlots own b.item.sku input.quantityMilli input.lotSeq
  have hget' : (own.drawn ctx b.item.sku input.quantityMilli input.lotSeq).getItem ctx.tenant
      b.item.sku = some b.item := by
    rw [← hget]
    exact congrArg (fun items => items.get? (ctx.tenant, b.item.sku)) hdrawn.items
  have hbef := (h b.item hget).1
  have hleft := (hafter b.item hget').1
  rw [hdrawn.quantity] at hleft
  have hshelf := onShelf_orderLotsFor own ctx.tenant b.item.sku ctx.method input.lotSeq
  have hneed := needAfter_eq hshelf.opened hissue.positive.le
  have hposv := hissue.positive
  have hhand := hissue.onHand
  have hshort := hsmall.2
  unfold drawnOn at hleft hshort
  -- nothing was drawn, so there was nothing to draw on
  have hnoth : ((orderLotsFor (own.lots ctx.tenant b.item.sku) ctx.method input.lotSeq).map
      LotRecord.remainingQtyMilli).sum ≤ 0 := by omega
  by_cases hname : namesLot ctx.method input.lotSeq
  · have hnil : orderLotsFor (own.lots ctx.tenant b.item.sku) ctx.method input.lotSeq = [] := by
      rw [eq_nil_iff_forall_not_mem]
      intro l hl
      have hnn : ∀ n ∈ (orderLotsFor (own.lots ctx.tenant b.item.sku) ctx.method
          input.lotSeq).map LotRecord.remainingQtyMilli, 0 ≤ n := by
        intro n hn
        obtain ⟨l', hl', rfl⟩ := mem_map.mp hn
        exact (hshelf.opened l' hl').le
      have hle := single_le_sum hnn _ (mem_map_of_mem hl)
      have hopen := hshelf.opened l hl
      omega
    -- and a named lot that is not open has no value to enter
    rcases hissue.amount with hamt | ⟨hcount, -⟩
    · apply hissue.nonzero
      unfold issueCost drawnOn at hamt
      rw [if_neg fun hall => hall.2 hname, if_pos hlots, hnil] at hamt
      exact hamt
    · rw [hissue.named hcount] at hname
      unfold namesLot at hname
      simp at hname
  · rw [sum_orderLotsFor hname, sum_opened hsound] at hnoth
    omega

end

/-! Calls and runs. -/

/-- A plan that keeps the item the sum of its lots: not a correction of its quantity alone, and not
a draw that is entered though its lots do not hold it. -/
def Plan.Layered {π : Type} [PeriodStore π] (ctx : InventoryContext) (s : Stores π InventoryStore)
    (sku : String) : Plan → Prop
  | .keep => True
  | .correct item => item.sku ≠ sku
  | .book b => b.item.sku = sku → s.ledger.Accepts ctx.chart b.command →
      s.own.getMovement ctx.tenant b.move.id = none → b.move.Fits ctx s.own b.item

instance {π : Type} [PeriodStore π] (ctx : InventoryContext) (s : Stores π InventoryStore)
    (sku : String) : ∀ plan : Plan, Decidable (plan.Layered ctx s sku)
  | .keep => inferInstanceAs (Decidable True)
  | .correct _ => inferInstanceAs (Decidable (_ ≠ _))
  | .book _ => inferInstanceAs (Decidable (_ → _ → _ → _))

def StockCall.Layered {π : Type} [PeriodStore π] {tenant : TenantId} {method : CostingMethod}
    (sku : String) (s : Stores π InventoryStore) (call : StockCall tenant method) : Prop :=
  OnOk (Plan.Layered call.context s sku) (call.request.plan call.context s.own)

instance {π : Type} [PeriodStore π] {tenant : TenantId} {method : CostingMethod} (sku : String)
    (s : Stores π InventoryStore) (call : StockCall tenant method) :
    Decidable (call.Layered sku s) := inferInstanceAs (Decidable (OnOk _ _))

section
variable {π : Type} [PeriodStore π] {tenant : TenantId} {method : CostingMethod} {sku : String}
variable {s : Stores π InventoryStore} {call : StockCall tenant method}

theorem StockCall.layered_step (hlots : method.usesLots) (hsound : LotsSound s.own tenant sku)
    (h : LotsAreItem tenant sku s.own) (hcall : call.Layered sku s) :
    LotsSound (call.step s).own tenant sku ∧ LotsAreItem tenant sku (call.step s).own := by
  obtain ⟨ctx, rfl, rfl, r⟩ := call
  have hends := stepEnds ctx s r
  have hcall := onOk_iff.mp hcall
  unfold StockCall.step
  generalize ((r.program ctx).run exec s).2 = s' at hends ⊢
  cases hends with
  | idle _ => exact ⟨hsound, h⟩
  | refused _ _ => exact ⟨hsound, h⟩
  | @corrected item hplan =>
    have hsku : item.sku ≠ sku := hcall _ hplan
    refine ⟨hsound, lotsAreItem_apart h ?_ fun _ => rfl⟩
    rw [getItem_saveItem, if_neg fun hboth => hsku hboth.2.symm]
  | @entered b ledger e hplan hentered =>
    have hb := booked hplan
    have hfits := fun hsku hfree => hcall _ hplan hsku hentered.accepts hfree
    exact ⟨sound_shelved hlots hb hsound e, lotsAreItem_shelved hlots hb hsound h hfits e⟩

theorem StockCall.not_lotsAreItem_step (hlots : method.usesLots)
    (hsound : LotsSound s.own tenant sku) (h : LotsAreItem tenant sku s.own)
    (hcall : ¬ call.Layered sku s) : ¬ LotsAreItem tenant sku (call.step s).own := by
  obtain ⟨ctx, rfl, rfl, r⟩ := call
  have hends := stepEnds ctx s r
  unfold StockCall.Layered at hcall
  rw [onOk_iff] at hcall
  push Not at hcall
  obtain ⟨plan, hplan, hbad⟩ := hcall
  unfold StockCall.step
  generalize ((r.program ctx).run exec s).2 = s' at hends ⊢
  cases hends with
  | idle hidle =>
    rw [hidle plan hplan] at hbad
    exact absurd trivial hbad
  | @refused b hbook href =>
    obtain rfl := Except.ok.inj (hplan.symm.trans hbook)
    exact absurd (fun _ hacc => absurd hacc href) hbad
  | @corrected item hcor =>
    obtain rfl := Except.ok.inj (hplan.symm.trans hcor)
    have hsku : item.sku = sku := not_not.mp hbad
    obtain ⟨found, counted, hget, hne, -, rfl⟩ := correction hcor
    subst hsku
    intro hafter
    have hsav : (s.own.saveItem ctx.tenant { found with quantityMilli := counted }).getItem
        ctx.tenant found.sku = some { found with quantityMilli := counted } := by
      rw [getItem_saveItem, if_pos ⟨rfl, rfl⟩]
    have hbef := (h found hget).1
    have hcnt := (hafter _ hsav).1
    exact hne (hcnt.trans hbef.symm)
  | @entered b ledger e hbook hentered =>
    obtain rfl := Except.ok.inj (hplan.symm.trans hbook)
    have hb := booked hbook
    unfold Plan.Layered at hbad
    push Not at hbad
    obtain ⟨rfl, -, hfree, hfits⟩ := hbad
    unfold shelved
    rw [hfree]
    cases hmove : b.move with
    | receipt input =>
      rw [hmove] at hfits
      exact absurd trivial hfits
    | issue input =>
      rw [hmove] at hfits
      have hsmall := not_not.mp hfits
      dsimp only
      rw [if_pos hsmall]
      exact not_lotsAreItem_drawn hlots hb hsound h hmove hsmall

end

/-- Starting from an item with no stock, a run keeps the item the sum of its lots throughout exactly
when every call of it does not correct the quantity alone and does not draw beyond a lot. -/
theorem along_lotsAreItem_iff {π : Type} [PeriodStore π] {tenant : TenantId}
    {method : CostingMethod} (hlots : method.usesLots) (sku : String)
    (s : Stores π InventoryStore) (hempty : s.own.lots tenant sku = [])
    (hitem : ∀ item, s.own.getItem tenant sku = some item →
      item.quantityMilli = 0 ∧ item.valueMinor = 0) (calls : List (StockCall tenant method)) :
    Along StockCall.step (fun s => LotsAreItem tenant sku s.own) s calls ↔
      EachStep StockCall.step (StockCall.Layered sku) s calls := by
  have hsound : LotsSound s.own tenant sku := by
    intro seq l hl
    have hseq : l.seq = seq := (s.own.lot_of_get hl).2
    have hmem : l ∈ s.own.lots tenant sku := by
      rw [mem_lots, hseq]
      exact hl
    rw [hempty] at hmem
    exact absurd hmem not_mem_nil
  have hstart : LotsAreItem tenant sku s.own := by
    intro item hget
    unfold heldIn
    rw [hempty]
    exact hitem item hget
  exact along_iff_eachStep (J := fun s : Stores π InventoryStore => LotsSound s.own tenant sku)
    (P := fun s => LotsAreItem tenant sku s.own)
    (fun s call hJ hP hOk => call.layered_step hlots hJ hP hOk)
    (fun s call hJ hP hbad => call.not_lotsAreItem_step hlots hJ hP hbad) hsound hstart calls

namespace Sample

def call (method : CostingMethod) (request : InventoryRequest) : StockCall "acme" method :=
  ⟨context method, rfl, rfl, request⟩

end Sample

theorem layers_of_deliveries : Along StockCall.step (fun s => LotsAreItem "acme" "BOLT" s.own)
    Sample.shelf [Sample.call .fifo (Sample.receive "r1" "5000" "100"),
      Sample.call .fifo (Sample.receive "r2" "5000" "120"),
      Sample.call .fifo (Sample.issue "i1" "7000" none),
      Sample.call .fifo (Sample.count "c1" "2500")] := by
  refine (along_lotsAreItem_iff rfl "BOLT" Sample.shelf (by decide +kernel) ?_ _).mpr ?_
  · intro item hitem
    have hbolt : Sample.shelf.own.getItem "acme" "BOLT" =
      some ⟨"BOLT", "Bolt", .stock, 0, 0, 0, "1300", "5100"⟩ := by decide +kernel
    rw [← Option.some.inj (hbolt.symm.trans hitem)]
    exact ⟨rfl, rfl⟩
  · refine eachStep_cons.mpr ⟨by decide +kernel, eachStep_cons.mpr ⟨by decide +kernel, ?_⟩⟩
    exact eachStep_cons.mpr ⟨by decide +kernel, eachStep_cons.mpr ⟨by decide +kernel, eachStep_nil⟩⟩

theorem count_of_empty_item : ¬ Along StockCall.step (fun s => LotsAreItem "acme" "BOLT" s.own)
    Sample.shelf [Sample.call .fifo (Sample.count "c1" "5000")] := by
  intro h
  have hafter := h _ prefix_rfl
  have hitem := hafter ⟨"BOLT", "Bolt", .stock, 5000, 0, 0, "1300", "5100"⟩ (by decide +kernel)
  exact absurd hitem.1 (by decide +kernel)

end Rgnr8.Service.Inventory
