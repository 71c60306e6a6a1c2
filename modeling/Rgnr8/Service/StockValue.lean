import Rgnr8.Service.StockLayers

/-! The value of the stock under receipts and issues: it stays at zero or above, and is zero where
nothing is on hand, for as long as no part of an item or a lot is priced above what is left of it.
-/

namespace Rgnr8.Service.Inventory
open Lib Lib.Js Fallible Kernel InventoryStore List Int

/-- A quantity and its value: nothing negative, and nothing of value where nothing is on hand. -/
def Worth (quantity value : Int) : Prop := 0 ≤ value ∧ (quantity = 0 → value = 0)

instance (quantity value : Int) : Decidable (Worth quantity value) :=
  inferInstanceAs (Decidable (_ ∧ _))

structure ValueSound (t : TenantId) (own : InventoryStore) : Prop where
  items : ∀ sku item, own.getItem t sku = some item → Worth item.quantityMilli item.valueMinor
  lots : ∀ sku seq lot, own.getLot t sku seq = some lot →
    Worth lot.remainingQtyMilli lot.remainingValueMinor

/-- A part of a lot costs no more than the lot is worth: `part * unitCost / 1000`, rounded, is at
most its value. -/
def PartWithin (part unitCost value : Int) : Prop := part * unitCost < milli * value + 500

instance (part unitCost value : Int) : Decidable (PartWithin part unitCost value) :=
  inferInstanceAs (Decidable (_ < _))

/-- The lots are taken whole up to the one that has more than is still needed; of that one no more
is taken than it is worth. -/
def PricedWithin : List LotRecord → Int → Prop
  | [], _ => True
  | lot :: lots, need =>
    if need < lot.remainingQtyMilli then
      0 < need → PartWithin need lot.unitCostMinor lot.remainingValueMinor
    else PricedWithin lots (need - lot.remainingQtyMilli)

instance decidablePricedWithin : ∀ (lots : List LotRecord) (need : Int),
    Decidable (PricedWithin lots need)
  | [], _ => inferInstanceAs (Decidable True)
  | lot :: lots, need =>
    have := decidablePricedWithin lots (need - lot.remainingQtyMilli)
    inferInstanceAs (Decidable (ite _ _ _))

def ShelfMove.WithinWorth (ctx : InventoryContext) (own : InventoryStore) (item : ItemRecord) :
    ShelfMove → Prop
  | .receipt _ => True
  | .issue input =>
    if ctx.method.usesLots then
      PricedWithin (drawnOn ctx own item.sku input.lotSeq) input.quantityMilli
    else input.quantityMilli = item.quantityMilli ∨
      PartWithin input.quantityMilli item.unitCostMinor item.valueMinor

instance (ctx : InventoryContext) (own : InventoryStore) (item : ItemRecord) :
    ∀ move : ShelfMove, Decidable (move.WithinWorth ctx own item)
  | .receipt _ => inferInstanceAs (Decidable True)
  | .issue _ => inferInstanceAs (Decidable (ite _ _ _))

theorem mulDiv_milli_nonneg {a b d : Int} (ha : 0 ≤ a) (hb : 0 ≤ b) (hd : 0 < d) :
    0 ≤ mulDiv a b d := by
  have hprod : 0 ≤ a * b := mul_nonneg ha hb
  unfold mulDiv
  rw [if_neg (not_lt.mpr hprod), if_neg (not_lt.mpr hprod)]
  apply Int.tdiv_nonneg _ hd.le
  have hhalf : 0 ≤ d.tdiv 2 := Int.tdiv_nonneg hd.le (by decide)
  omega

theorem mulDiv_le_iff {part unitCost value : Int} (hval : 0 ≤ value) :
    mulDiv part unitCost milli ≤ value ↔ PartWithin part unitCost value := by
  unfold mulDiv PartWithin milli
  by_cases hneg : part * unitCost < 0
  · have hback : 0 ≤ (-(part * unitCost) + 500).tdiv 1000 := by
      apply Int.tdiv_nonneg
      · omega
      · decide
    rw [if_pos hneg, if_pos hneg, show (1000 : Int).tdiv 2 = 500 from rfl]
    constructor <;> intro <;> omega
  · have hdiv : (part * unitCost + 500).tdiv 1000 = (part * unitCost + 500) / 1000 := by
      apply Int.tdiv_eq_ediv_of_nonneg
      omega
    rw [if_neg hneg, if_neg hneg, show (1000 : Int).tdiv 2 = 500 from rfl, hdiv]
    constructor <;> intro <;> omega

/-! A walk over the lots. -/

section
variable {s : InventoryStore} {t : TenantId} {sku : String} {lots : List LotRecord} {need : Int}

/-- No lot of the item is worth less than nothing. -/
def NoDebt (s : InventoryStore) (t : TenantId) (sku : String) : Prop :=
  ∀ seq lot, s.getLot t sku seq = some lot → 0 ≤ lot.remainingValueMinor

theorem drawFrom_done (hneed : need ≤ 0) : drawFrom t lots need s = s := by
  cases lots with
  | nil => rfl
  | cons lot lots => exact if_pos hneed

theorem noDebt_saveLot (h : NoDebt s t sku) {lot : LotRecord} (hsku : lot.sku = sku) :
    NoDebt (s.saveLot t lot) t sku ↔ 0 ≤ lot.remainingValueMinor := by
  constructor
  · intro hafter
    apply hafter lot.seq lot
    rw [getLot_saveLot, if_pos ⟨rfl, hsku.symm, rfl⟩]
  · intro hlot seq l hl
    rw [getLot_saveLot] at hl
    split_ifs at hl with hkey
    · rwa [← Option.some.inj hl]
    · exact h seq l hl

theorem noDebt_drawFrom (hshelf : OnShelf s t sku lots) (h : NoDebt s t sku) :
    NoDebt (drawFrom t lots need s) t sku ↔ PricedWithin lots need := by
  induction lots generalizing s need with
  | nil => exact iff_of_true h trivial
  | cons lot lots ih =>
    have hopen := hshelf.opened lot mem_cons_self
    have hworth : 0 ≤ lot.remainingValueMinor :=
      h lot.seq lot (hshelf.held lot mem_cons_self)
    have hsav : ∀ take, NoDebt (s.saveLot t (drawnLot lot take)) t sku ↔
        0 ≤ (drawnLot lot take).remainingValueMinor :=
      fun take => noDebt_saveLot h (hshelf.sku_eq lot mem_cons_self)
    rw [drawFrom, PricedWithin]
    by_cases hdone : need ≤ 0
    · rw [if_pos hdone, if_pos (by omega)]
      exact iff_of_true h fun hneed => absurd hneed (not_lt.mpr hdone)
    rw [if_neg hdone]
    by_cases hpart : need < lot.remainingQtyMilli
    · -- the last lot of the walk, taken in part
      have htake : takeFrom lot need = need := if_pos hpart
      have hcost : takenValue lot need = mulDiv need lot.unitCostMinor milli :=
        if_neg (by omega)
      have hleft : 0 ≤ (drawnLot lot need).remainingValueMinor ↔
          takenValue lot need ≤ lot.remainingValueMinor := sub_nonneg
      rw [htake, drawFrom_done (by omega), if_pos hpart, hsav, hleft, hcost, mulDiv_le_iff hworth]
      exact ⟨fun hwin _ => hwin, fun hwin => hwin (not_le.mp hdone)⟩
    · have htake : takeFrom lot need = lot.remainingQtyMilli := if_neg hpart
      have hcost : takenValue lot lot.remainingQtyMilli = lot.remainingValueMinor := if_pos rfl
      have hemp : (drawnLot lot lot.remainingQtyMilli).remainingValueMinor = 0 := by
        show lot.remainingValueMinor - takenValue lot lot.remainingQtyMilli = 0
        rw [hcost, sub_self]
      rw [htake, if_neg hpart]
      exact ih (hshelf.tail _) ((hsav _).mpr hemp.ge)

theorem cost_of_short (hopen : ∀ l ∈ lots, 0 < l.remainingQtyMilli)
    (hshort : 0 < needAfter lots need) :
    previewLots lots need 0 = (lots.map LotRecord.remainingValueMinor).sum := by
  induction lots generalizing need with
  | nil => rfl
  | cons lot lots ih =>
    rw [forall_mem_cons] at hopen
    have hneed : ¬ need ≤ 0 := by
      intro hdone
      rw [needAfter, if_pos hdone] at hshort
      omega
    rw [needAfter, if_neg hneed] at hshort
    have hall : takeFrom lot need = lot.remainingQtyMilli := by
      by_cases hlt : need < lot.remainingQtyMilli
      · have hnone : need - takeFrom lot need = 0 := by
          rw [takeFrom, if_pos hlt, sub_self]
        rw [hnone, needAfter_eq hopen.2 le_rfl] at hshort
        have hpos : 0 ≤ (lots.map LotRecord.remainingQtyMilli).sum := by
          apply sum_nonneg
          intro n hn
          obtain ⟨l, hl, rfl⟩ := mem_map.mp hn
          exact (hopen.2 l hl).le
        omega
      · rw [takeFrom, if_neg hlt]
    have hval : takenValue lot (takeFrom lot need) = lot.remainingValueMinor := by
      rw [takenValue, if_pos hall]
    rw [previewLots_cons, if_neg hneed, previewLots_eq, ih hopen.2 hshort, hval, map_cons,
      sum_cons, zero_add]

theorem heldIn_nonneg {f : LotRecord → Int}
    (h : ∀ seq lot, s.getLot t sku seq = some lot → 0 ≤ f lot) : 0 ≤ s.heldIn f t sku := by
  apply sum_nonneg
  intro n hn
  obtain ⟨l, hl, rfl⟩ := mem_map.mp hn
  exact h l.seq l (mem_lots.mp hl)

end

/-! Under a method that keeps lots, an item covers its lots: it has what they hold at least, and if
it has no more than that in quantity, then not in value either. A draw that fails on a named lot
that is too small empties it and leaves the item. -/

structure Covers (t : TenantId) (own : InventoryStore) (sku : String) : Prop where
  sound : LotsSound own t sku
  quantity : ∀ item, own.getItem t sku = some item →
    own.heldIn LotRecord.remainingQtyMilli t sku ≤ item.quantityMilli
  value : ∀ item, own.getItem t sku = some item →
    own.heldIn LotRecord.remainingValueMinor t sku ≤ item.valueMinor
  exact_ : ∀ item, own.getItem t sku = some item →
    own.heldIn LotRecord.remainingQtyMilli t sku = item.quantityMilli →
      own.heldIn LotRecord.remainingValueMinor t sku = item.valueMinor

section
variable {own : InventoryStore} {ctx : InventoryContext} {item : ItemRecord} {sku : String}
  {t : TenantId}

theorem Covers.worth (h : Covers t own sku) (hdebt : NoDebt own t sku)
    (hget : own.getItem t sku = some item) : Worth item.quantityMilli item.valueMinor := by
  have hval := heldIn_nonneg hdebt
  have hquan : 0 ≤ own.heldIn LotRecord.remainingQtyMilli t sku :=
    heldIn_nonneg fun seq lot hlot => (h.sound seq lot hlot).1
  have hle := h.quantity item hget
  refine ⟨hval.trans (h.value item hget), fun hzero => ?_⟩
  have hnone : own.heldIn LotRecord.remainingQtyMilli t sku = 0 := by omega
  rw [← h.exact_ item hget (hnone.trans hzero.symm)]
  exact heldIn_value_of_empty h.sound hnone

theorem Covers.apart {own' : InventoryStore} (h : Covers t own sku)
    (hitem : own'.getItem t sku = own.getItem t sku)
    (hlots : ∀ seq, own'.getLot t sku seq = own.getLot t sku seq) : Covers t own' sku where
  sound seq lot hlot := h.sound seq lot (hlots seq ▸ hlot)
  quantity item hget := heldIn_congr hlots _ ▸ h.quantity item (hitem ▸ hget)
  value item hget := heldIn_congr hlots _ ▸ h.value item (hitem ▸ hget)
  exact_ item hget := by
    rw [heldIn_congr hlots, heldIn_congr hlots]
    exact h.exact_ item (hitem ▸ hget)

theorem Covers.receive (hlots : ctx.method.usesLots) (h : Covers ctx.tenant own sku)
    (hget : own.getItem ctx.tenant item.sku = some item) {input : ShelfReceipt}
    (hqty : 0 < input.quantityMilli) : Covers ctx.tenant (own.receive ctx item input) sku := by
  have hsound : LotsSound (own.receive ctx item input) ctx.tenant sku := h.sound.receive hqty
  have hgot : ∀ found, (own.receive ctx item input).getItem ctx.tenant sku = some found →
      (sku = item.sku ∧ found = received item input) ∨
        (sku ≠ item.sku ∧ own.getItem ctx.tenant sku = some found) := by
    intro found hfound
    rw [getItem_receive] at hfound
    split_ifs at hfound with hkey
    · exact .inl ⟨hkey.2, (Option.some.inj hfound).symm⟩
    · exact .inr ⟨fun hsku => hkey ⟨rfl, hsku⟩, hfound⟩
  refine ⟨hsound, ?_, ?_, ?_⟩ <;> intro found hfound <;>
    rcases hgot found hfound with ⟨rfl, rfl⟩ | ⟨hsku, hfound⟩
  · rw [heldIn_receive hlots, if_pos rfl]
    exact Int.add_le_add_right (h.quantity item hget) _
  · rw [heldIn_receive hlots, if_neg hsku, add_zero]
    exact h.quantity found hfound
  · rw [heldIn_receive hlots, if_pos rfl]
    exact Int.add_le_add_right (h.value item hget) _
  · rw [heldIn_receive hlots, if_neg hsku, add_zero]
    exact h.value found hfound
  · rw [heldIn_receive hlots, heldIn_receive hlots, if_pos rfl, if_pos rfl]
    intro hsame
    have hbef := h.exact_ item hget (add_right_cancel hsame)
    rw [hbef]
    rfl
  · rw [heldIn_receive hlots, heldIn_receive hlots, if_neg hsku, if_neg hsku, add_zero, add_zero]
    exact h.exact_ found hfound

theorem noDebt_receive (h : NoDebt own ctx.tenant sku) {input : ShelfReceipt}
    (hqty : 0 < input.quantityMilli) (hcost : 0 < input.unitCostMinor) :
    NoDebt (own.receive ctx item input) ctx.tenant sku := by
  unfold receive
  have hmov : NoDebt ((own.saveItem ctx.tenant (received item input)).saveMovement ctx.tenant
    (receiptMovement item input)) ctx.tenant sku := h
  split_ifs
  · intro seq l hl
    rw [getLot_saveLot] at hl
    split_ifs at hl with hkey
    · rw [← Option.some.inj hl]
      exact mulDiv_milli_nonneg hqty.le hcost.le (by decide)
    · exact hmov seq l hl
  · exact hmov

theorem getItem_drawn (hlots : ctx.method.usesLots) (own : InventoryStore) (sku' : String)
    (quantity : Int) (lotSeq : Option Int) :
    (own.drawn ctx sku' quantity lotSeq).getItem t sku = own.getItem t sku :=
  congrArg (fun items => items.get? (t, sku)) (drawn_spec hlots own sku' quantity lotSeq).items

theorem Covers.short (hlots : ctx.method.usesLots) {sku' : String} (h : Covers ctx.tenant own sku)
    (hdebt : NoDebt own ctx.tenant sku) {quantity : Int} {lotSeq : Option Int}
    (hqty : 0 < quantity) (hsmall : TooSmall ctx own sku' quantity lotSeq) :
    Covers ctx.tenant (own.drawn ctx sku' quantity lotSeq) sku := by
  have hdrawn := drawn_spec hlots own sku' quantity lotSeq
  by_cases hsku : sku = sku'
  · subst hsku
    have hshelf := onShelf_orderLotsFor own ctx.tenant sku ctx.method lotSeq
    have hcost := cost_of_short hshelf.opened hsmall.2
    have hneed := needAfter_eq hshelf.opened hqty.le
    have hquan := hdrawn.quantity
    have hval := hdrawn.value
    have hshort := hsmall.2
    unfold drawnOn at hquan hval hshort
    have hworth : 0 ≤ ((orderLotsFor (own.lots ctx.tenant sku) ctx.method lotSeq).map
        LotRecord.remainingValueMinor).sum := by
      apply sum_nonneg
      intro n hn
      obtain ⟨l, hl, rfl⟩ := mem_map.mp hn
      exact hdebt l.seq l (hshelf.held l hl)
    have htaken : 0 ≤ ((orderLotsFor (own.lots ctx.tenant sku) ctx.method lotSeq).map
        LotRecord.remainingQtyMilli).sum := by
      apply sum_nonneg
      intro n hn
      obtain ⟨l, hl, rfl⟩ := mem_map.mp hn
      exact (hshelf.opened l hl).le
    refine ⟨hdrawn.sound h.sound, ?_, ?_, ?_⟩ <;> intro found hfound <;>
      rw [getItem_drawn hlots] at hfound
    · have hle := h.quantity found hfound
      omega
    · have hle := h.value found hfound
      omega
    · intro hsame
      have hle := h.quantity found hfound
      -- nothing has been drawn
      have hnone : orderLotsFor (own.lots ctx.tenant sku) ctx.method lotSeq = [] := by
        rw [eq_nil_iff_forall_not_mem]
        intro l hl
        have hnn : ∀ n ∈ (orderLotsFor (own.lots ctx.tenant sku) ctx.method lotSeq).map
            LotRecord.remainingQtyMilli, 0 ≤ n := by
          intro n hn
          obtain ⟨l', hl', rfl⟩ := mem_map.mp hn
          exact (hshelf.opened l' hl').le
        have hone := single_le_sum hnn _ (mem_map_of_mem hl)
        have hopen := hshelf.opened l hl
        omega
      rw [hnone] at hcost hneed hquan
      have hbef := h.exact_ found hfound (by
        rw [map_nil, sum_nil] at hneed
        omega)
      rw [hval, hnone]
      exact (sub_zero _).trans hbef
  · apply h.apart (getItem_drawn hlots ..)
    exact fun seq => hdrawn.apart ctx.tenant sku seq (.inr hsku)

theorem Covers.issue (hlots : ctx.method.usesLots) (h : Covers ctx.tenant own sku)
    (hget : own.getItem ctx.tenant item.sku = some item) {input : ShelfIssue}
    (hqty : 0 < input.quantityMilli)
    (hfits : ¬ TooSmall ctx own item.sku input.quantityMilli input.lotSeq) :
    Covers ctx.tenant (own.issue ctx item input) sku := by
  have hdrawn := drawn_spec hlots own item.sku input.quantityMilli input.lotSeq
  have hheld : ∀ f, (own.issue ctx item input).heldIn f ctx.tenant sku =
      (own.drawn ctx item.sku input.quantityMilli input.lotSeq).heldIn f ctx.tenant sku :=
    fun _ => rfl
  by_cases hsku : sku = item.sku
  · subst hsku
    have hneed := needAfter_of_fits hlots hqty hfits
    have hquan := hdrawn.quantity
    have hval := hdrawn.value
    have hbefor := h.quantity item hget
    have hbeforeV := h.value item hget
    have hexact := h.exact_ item hget
    have hsound := hdrawn.sound h.sound
    rw [hneed] at hquan
    have hlef : 0 ≤ (own.drawn ctx item.sku input.quantityMilli input.lotSeq).heldIn
        LotRecord.remainingQtyMilli ctx.tenant item.sku :=
      heldIn_nonneg fun seq lot hlot => (hsound seq lot hlot).1
    have hemp := heldIn_value_of_empty (t := ctx.tenant) hsound
    have hcost : ∀ held, held = (own.drawn ctx item.sku input.quantityMilli input.lotSeq).heldIn
        LotRecord.remainingValueMinor ctx.tenant item.sku →
        held ≤ item.valueMinor - issueCost ctx own item input.quantityMilli input.lotSeq ∧
          (item.quantityMilli = own.heldIn LotRecord.remainingQtyMilli ctx.tenant item.sku →
            held = item.valueMinor - issueCost ctx own item input.quantityMilli input.lotSeq) := by
      rintro held rfl
      unfold issueCost
      by_cases hall : input.quantityMilli = item.quantityMilli ∧ ¬ namesLot ctx.method input.lotSeq
      · have hzero := hemp (by omega)
        rw [if_pos hall, hzero, sub_self]
        exact ⟨le_rfl, fun _ => rfl⟩
      · rw [if_neg hall, if_pos hlots]
        exact ⟨by omega, fun hsame => by have := hexact hsame.symm; omega⟩
    have hgot : ∀ found, (own.issue ctx item input).getItem ctx.tenant item.sku = some found →
        found = relieved item input (issueCost ctx own item input.quantityMilli input.lotSeq) := by
      intro found hfound
      rw [getItem_issue hlots, if_pos ⟨rfl, rfl⟩] at hfound
      exact (Option.some.inj hfound).symm
    refine ⟨hsound, ?_, ?_, ?_⟩ <;> intro found hfound <;> rw [hgot found hfound, hheld]
    · show _ ≤ item.quantityMilli - input.quantityMilli
      omega
    · exact (hcost _ rfl).1
    · rw [hheld]
      intro hsame
      have hqtys : item.quantityMilli =
          own.heldIn LotRecord.remainingQtyMilli ctx.tenant item.sku := by
        have hsame' : _ = item.quantityMilli - input.quantityMilli := hsame
        omega
      exact (hcost _ rfl).2 hqtys
  · apply h.apart
    · rw [getItem_issue hlots, if_neg fun hboth => hsku hboth.2]
    · exact fun seq => hdrawn.apart ctx.tenant sku seq (.inr hsku)

end

theorem valueSound_of_covers {t : TenantId} {own : InventoryStore}
    (hcov : ∀ sku, Covers t own sku) (hdebt : ∀ sku, NoDebt own t sku) : ValueSound t own where
  items sku _ hget := (hcov sku).worth (hdebt sku) hget
  lots sku seq lot hlot := ⟨hdebt sku seq lot hlot, ((hcov sku).sound seq lot hlot).2⟩

theorem ValueSound.noDebt {t : TenantId} {own : InventoryStore} (h : ValueSound t own)
    (sku : String) : NoDebt own t sku := fun seq lot hlot => (h.lots sku seq lot hlot).1

section
variable {own : InventoryStore} {ctx : InventoryContext} {b : Booking}

theorem noDebt_drawn (hlots : ctx.method.usesLots) (h : ∀ sku, NoDebt own ctx.tenant sku)
    (sku' : String) (quantity : Int) (lotSeq : Option Int) :
    (∀ sku, NoDebt (own.drawn ctx sku' quantity lotSeq) ctx.tenant sku) ↔
      PricedWithin (drawnOn ctx own sku' lotSeq) quantity := by
  have hdrawn := drawn_spec hlots own sku' quantity lotSeq
  have hshelf := onShelf_orderLotsFor own ctx.tenant sku' ctx.method lotSeq
  have hself : NoDebt (own.drawn ctx sku' quantity lotSeq) ctx.tenant sku' ↔
      PricedWithin (drawnOn ctx own sku' lotSeq) quantity := by
    unfold drawn
    rw [if_pos hlots]
    exact noDebt_drawFrom hshelf (h sku')
  constructor
  · exact fun hall => hself.mp (hall sku')
  · intro hpric sku
    by_cases hsku : sku = sku'
    · subst hsku
      exact hself.mpr hpric
    · intro seq lot hlot
      rw [hdrawn.apart ctx.tenant sku seq (.inr hsku)] at hlot
      exact h sku seq lot hlot

theorem covers_shelved (hlots : ctx.method.usesLots) (hb : Booked ctx own b)
    (hcost : ∀ input, b.move = .receipt input → 0 < input.unitCostMinor)
    (hcov : ∀ sku, Covers ctx.tenant own sku) (hdebt : ∀ sku, NoDebt own ctx.tenant sku)
    (hpric : own.getMovement ctx.tenant b.move.id = none → b.move.WithinWorth ctx own b.item)
    (e : EntryId) : (∀ sku, Covers ctx.tenant (own.shelved ctx b e) sku) ∧
      ∀ sku, NoDebt (own.shelved ctx b e) ctx.tenant sku := by
  unfold shelved
  cases hfree : own.getMovement ctx.tenant b.move.id with
  | some seen => exact ⟨hcov, hdebt⟩
  | none =>
    have hprice := hpric hfree
    cases hmove : b.move with
    | receipt input =>
      have hr := hb.receipt input hmove
      have hget := getItem_of_foundItem hr.found
      exact ⟨fun sku => (hcov sku).receive hlots hget hr.positive,
        fun sku => noDebt_receive (hdebt sku) hr.positive (hcost input hmove)⟩
    | issue input =>
      have hi := hb.issue input hmove
      rw [hmove, ShelfMove.WithinWorth, if_pos hlots] at hprice
      have hdrawn := (noDebt_drawn hlots hdebt b.item.sku input.quantityMilli
        input.lotSeq).mpr hprice
      dsimp only
      split_ifs with hsmall
      · exact ⟨fun sku => (hcov sku).short hlots (hdebt sku) hi.positive hsmall, hdrawn⟩
      · exact ⟨fun sku => (hcov sku).issue hlots (getItem_of_foundItem hi.found) hi.positive
          hsmall, hdrawn⟩

/-! Under the moving average an item stands alone. -/

def OnHand (t : TenantId) (own : InventoryStore) : Prop :=
  ∀ sku item, own.getItem t sku = some item → 0 ≤ item.quantityMilli

theorem getItem_issue_average (hlots : ¬ ctx.method.usesLots) (own : InventoryStore)
    (item : ItemRecord) (input : ShelfIssue) (sku : String) :
    (own.issue ctx item input).getItem ctx.tenant sku = if sku = item.sku then
      some (relieved item input (issueCost ctx own item input.quantityMilli input.lotSeq))
      else own.getItem ctx.tenant sku := by
  unfold issue drawn
  rw [if_neg hlots, getItem_saveMovement, getItem_saveItem]
  simp [relieved]

theorem getLot_issue_average (hlots : ¬ ctx.method.usesLots) (own : InventoryStore)
    (item : ItemRecord) (input : ShelfIssue) :
    (own.issue ctx item input).getLot = own.getLot := by
  unfold issue drawn
  rw [if_neg hlots]
  rfl

theorem getLot_receive_average (hlots : ¬ ctx.method.usesLots) (own : InventoryStore)
    (item : ItemRecord) (input : ShelfReceipt) :
    (own.receive ctx item input).getLot = own.getLot := by
  unfold receive
  rw [if_neg hlots]
  rfl

theorem worth_relieved (own : InventoryStore) (hlots : ¬ ctx.method.usesLots)
    {item : ItemRecord} {input : ShelfIssue} (hval : 0 ≤ item.valueMinor) :
    Worth (item.quantityMilli - input.quantityMilli)
      (item.valueMinor - issueCost ctx own item input.quantityMilli input.lotSeq) ↔
        (ShelfMove.issue input).WithinWorth ctx own item := by
  have hname : ¬ namesLot ctx.method input.lotSeq := by
    intro hname
    have hspec : ctx.method = .specific := (of_decide_eq_true hname).1
    rw [hspec] at hlots
    exact hlots rfl
  rw [ShelfMove.WithinWorth, if_neg hlots]
  unfold Worth issueCost
  by_cases hall : input.quantityMilli = item.quantityMilli
  · rw [if_pos ⟨hall, hname⟩, sub_self]
    exact iff_of_true ⟨le_rfl, fun _ => rfl⟩ (.inl hall)
  · rw [if_neg fun h => hall h.1, if_neg hlots, ← mulDiv_le_iff hval, sub_nonneg]
    constructor
    · exact fun h => .inr h.1
    · intro h
      refine ⟨h.resolve_left hall, fun hzero => absurd ?_ hall⟩
      omega

theorem sound_shelved_average (hlots : ¬ ctx.method.usesLots) (hb : Booked ctx own b)
    (hcost : ∀ input, b.move = .receipt input → 0 < input.unitCostMinor)
    (hhand : OnHand ctx.tenant own) (h : ValueSound ctx.tenant own)
    (hpric : own.getMovement ctx.tenant b.move.id = none → b.move.WithinWorth ctx own b.item)
    (e : EntryId) : OnHand ctx.tenant (own.shelved ctx b e) ∧
      ValueSound ctx.tenant (own.shelved ctx b e) := by
  unfold shelved
  cases hfree : own.getMovement ctx.tenant b.move.id with
  | some seen => exact ⟨hhand, h⟩
  | none =>
    have hprice := hpric hfree
    cases hmove : b.move with
    | receipt input =>
      have hr := hb.receipt input hmove
      have hget := getItem_of_foundItem hr.found
      have hqty := hhand _ _ hget
      have hworth := h.items _ _ hget
      have hposv := hr.positive
      have hadded : 0 ≤ mulDiv input.quantityMilli input.unitCostMinor milli :=
        mulDiv_milli_nonneg hposv.le (hcost input hmove).le (by decide)
      have hgot : ∀ sku found, (own.receive ctx b.item { input with entryId := e }).getItem
          ctx.tenant sku = some found →
            found = received b.item input ∨ own.getItem ctx.tenant sku = some found := by
        intro sku found hfound
        rw [getItem_receive] at hfound
        split_ifs at hfound with hkey
        · exact .inl (Option.some.inj hfound).symm
        · exact .inr hfound
      refine ⟨?_, ?_, ?_⟩
      · intro sku found hfound
        rcases hgot sku found hfound with rfl | hold
        · show 0 ≤ b.item.quantityMilli + input.quantityMilli
          omega
        · exact hhand sku found hold
      · intro sku found hfound
        rcases hgot sku found hfound with rfl | hold
        · show Worth (b.item.quantityMilli + input.quantityMilli)
            (b.item.valueMinor + mulDiv input.quantityMilli input.unitCostMinor milli)
          exact ⟨add_nonneg hworth.1 hadded, fun hzero => absurd hzero (by omega)⟩
        · exact h.items sku found hold
      · intro sku seq lot hlot
        rw [getLot_receive_average hlots] at hlot
        exact h.lots sku seq lot hlot
    | issue input =>
      have hi := hb.issue input hmove
      have hworth := h.items _ _ (getItem_of_foundItem hi.found)
      have hsmall : ¬ TooSmall ctx own b.item.sku input.quantityMilli input.lotSeq :=
        fun hsmall => hlots hsmall.1
      have hleft := hi.onHand
      rw [hmove] at hprice
      have hrel := (worth_relieved own hlots hworth.1).mpr hprice
      have hgot : ∀ sku found, (own.issue ctx b.item { input with entryId := e }).getItem
          ctx.tenant sku = some found → found = relieved b.item input
            (issueCost ctx own b.item input.quantityMilli input.lotSeq) ∨
              own.getItem ctx.tenant sku = some found := by
        intro sku found hfound
        rw [getItem_issue_average hlots] at hfound
        split_ifs at hfound with hkey
        · exact .inl (Option.some.inj hfound).symm
        · exact .inr hfound
      dsimp only
      rw [if_neg hsmall]
      refine ⟨?_, ?_, ?_⟩
      · intro sku found hfound
        rcases hgot sku found hfound with rfl | hold
        · show 0 ≤ b.item.quantityMilli - input.quantityMilli
          omega
        · exact hhand sku found hold
      · intro sku found hfound
        rcases hgot sku found hfound with rfl | hold
        · exact hrel
        · exact h.items sku found hold
      · intro sku seq lot hlot
        rw [getLot_issue_average hlots] at hlot
        exact h.lots sku seq lot hlot

theorem not_valueSound_shelved (hb : Booked ctx own b) (h : ValueSound ctx.tenant own)
    (hfree : own.getMovement ctx.tenant b.move.id = none)
    (hpric : ¬ b.move.WithinWorth ctx own b.item) (e : EntryId) :
    ¬ ValueSound ctx.tenant (own.shelved ctx b e) := by
  unfold shelved
  rw [hfree]
  cases hmove : b.move with
  | receipt input =>
    rw [hmove] at hpric
    exact absurd trivial hpric
  | issue input =>
    have hi := hb.issue input hmove
    rw [hmove] at hpric
    dsimp only
    by_cases hlots : ctx.method.usesLots
    · rw [ShelfMove.WithinWorth, if_pos hlots] at hpric
      have hdrawn := fun hall => hpric ((noDebt_drawn hlots h.noDebt b.item.sku
        input.quantityMilli input.lotSeq).mp hall)
      split_ifs
      · exact fun hafter => hdrawn hafter.noDebt
      · exact fun hafter => hdrawn fun sku => hafter.noDebt sku
    · have hsmall : ¬ TooSmall ctx own b.item.sku input.quantityMilli input.lotSeq :=
        fun hsmall => hlots hsmall.1
      rw [if_neg hsmall]
      intro hafter
      have hworth := h.items _ _ (getItem_of_foundItem hi.found)
      have hget : (own.issue ctx b.item { input with entryId := e }).getItem ctx.tenant
          b.item.sku = some (relieved b.item { input with entryId := e }
            (issueCost ctx own b.item input.quantityMilli input.lotSeq)) := by
        rw [getItem_issue_average hlots, if_pos rfl]
      exact hpric ((worth_relieved own hlots hworth.1).mp (hafter.items _ _ hget))

end

/-! Calls and runs. -/

def InventoryRequest.Moves : InventoryRequest → Prop
  | .receive _ | .issue _ => True
  | .count _ => False

structure ShelfCall (tenant : TenantId) (method : CostingMethod) extends
    StockCall tenant method where
  moves : request.Moves

def ShelfCall.step {π : Type} [PeriodStore π] {tenant : TenantId} {method : CostingMethod}
    (s : Stores π InventoryStore) (call : ShelfCall tenant method) : Stores π InventoryStore :=
  call.toStockCall.step s

def Plan.WithinWorth {π : Type} [PeriodStore π] (ctx : InventoryContext)
    (s : Stores π InventoryStore) : Plan → Prop
  | .book b => s.ledger.Accepts ctx.chart b.command →
      s.own.getMovement ctx.tenant b.move.id = none → b.move.WithinWorth ctx s.own b.item
  | _ => True

instance {π : Type} [PeriodStore π] (ctx : InventoryContext) (s : Stores π InventoryStore) :
    ∀ plan : Plan, Decidable (plan.WithinWorth ctx s)
  | .keep => inferInstanceAs (Decidable True)
  | .correct _ => inferInstanceAs (Decidable True)
  | .book _ => inferInstanceAs (Decidable (_ → _ → _))

def ShelfCall.WithinWorth {π : Type} [PeriodStore π] {tenant : TenantId} {method : CostingMethod}
    (s : Stores π InventoryStore) (call : ShelfCall tenant method) : Prop :=
  OnOk (Plan.WithinWorth call.context s) (call.request.plan call.context s.own)

instance {π : Type} [PeriodStore π] {tenant : TenantId} {method : CostingMethod}
    (s : Stores π InventoryStore) (call : ShelfCall tenant method) :
    Decidable (call.WithinWorth s) :=
  inferInstanceAs (Decidable (OnOk _ _))

theorem plan_of_moves {ctx : InventoryContext} {own : InventoryStore} {r : InventoryRequest}
    (hmoves : r.Moves) {plan : Plan} (h : r.plan ctx own = .ok plan) :
    plan = .keep ∨ ∃ b, plan = .book b ∧
      ∀ input, b.move = .receipt input → 0 < input.unitCostMinor := by
  rcases r with input | input | input
  · simp only [InventoryRequest.plan, planReceive, draftReceipt, bind_eq_ok, refuse_eq_ok] at h
    obtain ⟨item, -, draft, ⟨date, -, quantity, -, unitCost, -, -, hcost, inventory, -, paidFrom,
      -, hdraft⟩, hb⟩ := h
    have hdraft := Except.ok.inj hdraft
    subst hdraft
    refine .inr ⟨_, (Except.ok.inj hb).symm, fun input' hmove => ?_⟩
    have hmove := ShelfMove.receipt.inj hmove
    subst hmove
    exact not_le.mp hcost
  · obtain hkeep | ⟨b, shelf, hbook, hissue⟩ := planIssue_cases h
    · exact .inl hkeep
    · refine .inr ⟨b, hbook, fun input' hmove => ?_⟩
      rw [hissue] at hmove
      cases hmove
  · exact absurd hmoves id

/-- What the stock has to keep besides its values, under each method. -/
def Stocked (t : TenantId) (method : CostingMethod) (own : InventoryStore) : Prop :=
  if method.usesLots then ∀ sku, Covers t own sku else OnHand t own

section
variable {π : Type} [PeriodStore π] {tenant : TenantId} {method : CostingMethod}
variable {s : Stores π InventoryStore} {call : ShelfCall tenant method}

theorem ShelfCall.sound_step (hstock : Stocked tenant method s.own)
    (h : ValueSound tenant s.own) (hcall : call.WithinWorth s) :
    Stocked tenant method (call.step s).own ∧ ValueSound tenant (call.step s).own := by
  obtain ⟨⟨ctx, rfl, rfl, r⟩, hmoves⟩ := call
  have hends := stepEnds ctx s r
  have hcall := onOk_iff.mp hcall
  unfold ShelfCall.step StockCall.step
  dsimp only
  generalize ((r.program ctx).run exec s).2 = s' at hends ⊢
  cases hends with
  | idle _ => exact ⟨hstock, h⟩
  | refused _ _ => exact ⟨hstock, h⟩
  | corrected hplan =>
    rcases plan_of_moves hmoves hplan with hkeep | ⟨b, hbook, -⟩
    · cases hkeep
    · cases hbook
  | @entered b ledger e hplan hentered =>
    have hb := booked hplan
    have hpric := fun hfree => hcall _ hplan hentered.accepts hfree
    have hcost : ∀ input, b.move = .receipt input → 0 < input.unitCostMinor := by
      rcases plan_of_moves hmoves hplan with hkeep | ⟨b', hbook, hcost⟩
      · cases hkeep
      · rwa [Plan.book.inj hbook]
    unfold Stocked at hstock ⊢
    by_cases hlots : ctx.method.usesLots
    · rw [if_pos hlots] at hstock ⊢
      obtain ⟨hcov, hdebt⟩ := covers_shelved hlots hb hcost hstock h.noDebt hpric e
      exact ⟨hcov, valueSound_of_covers hcov hdebt⟩
    · rw [if_neg hlots] at hstock ⊢
      exact sound_shelved_average hlots hb hcost hstock h hpric e

theorem ShelfCall.not_sound_step (h : ValueSound tenant s.own) (hcall : ¬ call.WithinWorth s) :
    ¬ ValueSound tenant (call.step s).own := by
  obtain ⟨⟨ctx, rfl, rfl, r⟩, hmoves⟩ := call
  have hends := stepEnds ctx s r
  unfold ShelfCall.WithinWorth at hcall
  rw [onOk_iff] at hcall
  push Not at hcall
  obtain ⟨plan, hplan, hbad⟩ := hcall
  obtain ⟨b, rfl, -⟩ : ∃ b, plan = .book b ∧ _ := by
    rcases plan_of_moves hmoves hplan with rfl | hbook
    · exact absurd trivial hbad
    · exact hbook
  unfold Plan.WithinWorth at hbad
  push Not at hbad
  obtain ⟨hacc, hfree, hpric⟩ := hbad
  unfold ShelfCall.step StockCall.step
  dsimp only
  generalize ((r.program ctx).run exec s).2 = s' at hends ⊢
  cases hends with
  | idle hidle => cases hidle _ hplan
  | @refused b' hbook href =>
    obtain rfl := Plan.book.inj (Except.ok.inj (hplan.symm.trans hbook))
    exact absurd hacc href
  | corrected hcor => cases Except.ok.inj (hplan.symm.trans hcor)
  | @entered b' ledger e hbook hentered =>
    obtain rfl := Plan.book.inj (Except.ok.inj (hplan.symm.trans hbook))
    exact not_valueSound_shelved (booked hbook) h hfree hpric e

end

/-- Starting with no stock, every value stays at zero or above and is zero with no quantity exactly
when every issue takes no more than is left of what it is taken from. -/
theorem along_valueSound_iff {π : Type} [PeriodStore π] {tenant : TenantId}
    {method : CostingMethod} (s : Stores π InventoryStore)
    (hlots : ∀ sku, s.own.lots tenant sku = [])
    (hitems : ∀ sku item, s.own.getItem tenant sku = some item →
      item.quantityMilli = 0 ∧ item.valueMinor = 0) (calls : List (ShelfCall tenant method)) :
    Along ShelfCall.step (fun s => ValueSound tenant s.own) s calls ↔
      EachStep ShelfCall.step ShelfCall.WithinWorth s calls := by
  have hnone : ∀ sku seq lot, s.own.getLot tenant sku seq ≠ some lot := by
    intro sku seq lot hlot
    have hseq : lot.seq = seq := (s.own.lot_of_get hlot).2
    have hmem : lot ∈ s.own.lots tenant sku := by
      rw [mem_lots, hseq]
      exact hlot
    rw [hlots sku] at hmem
    exact absurd hmem not_mem_nil
  have hsound : ValueSound tenant s.own := by
    refine ⟨fun sku item hget => ?_, fun sku seq lot hlot => absurd hlot (hnone sku seq lot)⟩
    obtain ⟨-, hval⟩ := hitems sku item hget
    exact ⟨hval.ge, fun _ => hval⟩
  have hheld : ∀ f sku, s.own.heldIn f tenant sku = 0 := by
    intro f sku
    unfold heldIn
    rw [hlots sku]
    rfl
  have hstock : Stocked tenant method s.own := by
    unfold Stocked
    split_ifs
    · intro sku
      refine ⟨fun seq lot hlot => absurd hlot (hnone sku seq lot), ?_, ?_, ?_⟩ <;>
        intro item hget <;> obtain ⟨hqty, hval⟩ := hitems sku item hget
      · rw [hheld, hqty]
      · rw [hheld, hval]
      · rw [hheld, hheld, hval]
        exact fun _ => rfl
    · exact fun sku item hget => (hitems sku item hget).1.ge
  exact along_iff_eachStep (J := fun s : Stores π InventoryStore => Stocked tenant method s.own)
    (P := fun s => ValueSound tenant s.own)
    (fun s call hJ hP hOk => call.sound_step hJ hP hOk)
    (fun s call _ hP hbad => call.not_sound_step hP hbad) hstock hsound calls

namespace Sample

def receiptCall (method : CostingMethod) (id quantity unitCost : String) :
    ShelfCall "acme" method :=
  ⟨call method (receive id quantity unitCost), trivial⟩

def issueCall (method : CostingMethod) (id quantity : String) : ShelfCall "acme" method :=
  ⟨call method (issue id quantity none), trivial⟩

theorem no_lots (sku : String) : shelf.own.lots "acme" sku = [] := rfl

theorem no_stock (sku : String) (item : ItemRecord)
    (h : shelf.own.getItem "acme" sku = some item) :
    item.quantityMilli = 0 ∧ item.valueMinor = 0 := by
  have hget : (empty.saveItem "acme"
      ⟨"BOLT", "Bolt", .stock, 0, 0, 0, "1300", "5100"⟩).getItem "acme" sku = some item := h
  rw [getItem_saveItem] at hget
  split_ifs at hget
  · rw [← Option.some.inj hget]
    exact ⟨rfl, rfl⟩
  · cases hget

end Sample

theorem valueSound_of_deliveries :
    Along ShelfCall.step (fun s => ValueSound "acme" s.own) Sample.shelf
      [Sample.receiptCall .fifo "r1" "5000" "100", Sample.receiptCall .fifo "r2" "5000" "120",
        Sample.issueCall .fifo "i1" "7000"] := by
  refine (along_valueSound_iff Sample.shelf Sample.no_lots Sample.no_stock _).mpr ?_
  refine eachStep_cons.mpr ⟨by decide +kernel, eachStep_cons.mpr ⟨by decide +kernel, ?_⟩⟩
  exact eachStep_cons.mpr ⟨by decide +kernel, eachStep_nil⟩

theorem value_below_zero : ¬ Along ShelfCall.step (fun s => ValueSound "acme" s.own) Sample.shelf
    [Sample.receiptCall .movingAverage "r1" "1400" "1",
      Sample.receiptCall .movingAverage "r2" "1400" "1",
      Sample.issueCall .movingAverage "i1" "2700"] := by
  intro h
  have hafter := (h _ prefix_rfl).items "BOLT"
    ⟨"BOLT", "Bolt", .stock, 100, -10, -1, "1300", "5100"⟩ (by decide +kernel)
  exact absurd hafter (by decide)

end Rgnr8.Service.Inventory
