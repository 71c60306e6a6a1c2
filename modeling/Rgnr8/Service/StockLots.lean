import Rgnr8.Service.Inventory

/-! The cost layers of an item under receipts and draws: what the store holds of them in all, and
what one walk of the loop over the lots takes. -/

namespace Rgnr8.Service.Inventory
open Lib Lib.Js Kernel OrderedMap InventoryStore

namespace InventoryStore
variable {s : InventoryStore} {t t' : TenantId} {sku sku' : String} {item : ItemRecord}

theorem getItem_saveItem (s : InventoryStore) (t t' : TenantId) (item : ItemRecord) (sku : String) :
    (s.saveItem t item).getItem t' sku =
      if t' = t ∧ sku = item.sku then some item else s.getItem t' sku := by
  rw [getItem, saveItem, get?_set]
  simp only [Prod.mk.injEq]
  rfl

theorem getMovement_saveMovement (s : InventoryStore) (t t' : TenantId) (m : MovementRecord)
    (id : String) : (s.saveMovement t m).getMovement t' id =
      if t' = t ∧ id = m.id then some m else s.getMovement t' id := by
  rw [getMovement, saveMovement, get?_set]
  simp only [Prod.mk.injEq]
  rfl

@[simp] theorem getItem_saveMovement (s : InventoryStore) (t : TenantId) (m : MovementRecord) :
    (s.saveMovement t m).getItem = s.getItem := rfl

@[simp] theorem getMovement_saveItem (s : InventoryStore) (t : TenantId) (item : ItemRecord) :
    (s.saveItem t item).getMovement = s.getMovement := rfl

def getLot (s : InventoryStore) (t : TenantId) (sku : String) (seq : Int) : Option LotRecord :=
  s.lotRows.get? (t, sku, seq)

theorem getLot_saveLot (s : InventoryStore) (t t' : TenantId) (lot : LotRecord) (sku : String)
    (seq : Int) : (s.saveLot t lot).getLot t' sku seq =
      if t' = t ∧ sku = lot.sku ∧ seq = lot.seq then some lot else s.getLot t' sku seq := by
  rw [getLot, saveLot, get?_set]
  simp only [Prod.mk.injEq]
  rfl

theorem mem_lots {l : LotRecord} : l ∈ s.lots t sku ↔ s.getLot t sku l.seq = some l := by
  rw [lots, (List.perm_insertionSort _ _).mem_iff, values, List.mem_map, getLot, ← mem_entries]
  constructor
  · rintro ⟨⟨⟨t', sku', seq⟩, l'⟩, hmem, rfl⟩
    rw [filter, List.mem_filter] at hmem
    obtain ⟨hmem, hkey⟩ := hmem
    obtain ⟨rfl, rfl⟩ := of_decide_eq_true hkey
    rw [(s.lot_of_get (mem_entries.mp hmem)).2]
    exact hmem
  · intro hmem
    refine ⟨((t, sku, l.seq), l), ?_, rfl⟩
    rw [filter, List.mem_filter]
    exact ⟨hmem, decide_eq_true ⟨rfl, rfl⟩⟩

theorem sku_of_mem_lots {l : LotRecord} (h : l ∈ s.lots t sku) : l.sku = sku :=
  (s.lot_of_get (mem_lots.mp h)).1

def heldIn (s : InventoryStore) (f : LotRecord → Int) (t : TenantId) (sku : String) : Int :=
  ((s.lots t sku).map f).sum

theorem heldIn_eq_total (s : InventoryStore) (f : LotRecord → Int) (t : TenantId) (sku : String) :
    s.heldIn f t sku = s.lotRows.total fun key l => if key.1 = t ∧ key.2.1 = sku then f l else 0 := by
  have hperm := (List.perm_insertionSort (fun a b : LotRecord => a.seq ≤ b.seq)
    ((s.lotRows.filter fun key _ => key.1 = t ∧ key.2.1 = sku).values)).map f
  rw [heldIn, lots, hperm.sum_eq, sum_values_filter]
  simp only [decide_eq_true_eq]

theorem heldIn_saveLot (s : InventoryStore) (f : LotRecord → Int) (t t' : TenantId)
    (lot : LotRecord) (sku : String) : (s.saveLot t lot).heldIn f t' sku = s.heldIn f t' sku +
      if t' = t ∧ sku = lot.sku then f lot - ((s.getLot t lot.sku lot.seq).map f).getD 0
      else 0 := by
  rw [heldIn_eq_total, heldIn_eq_total, saveLot, total_set, getLot]
  by_cases hkey : t' = t ∧ sku = lot.sku
  · obtain ⟨rfl, rfl⟩ := hkey
    cases s.lotRows.get? (t', lot.sku, lot.seq) with
    | none => simp
    | some old => simp; omega
  · have hkey' : ¬ (t = t' ∧ lot.sku = sku) := fun h => hkey ⟨h.1.symm, h.2.symm⟩
    cases s.lotRows.get? (t, lot.sku, lot.seq) with
    | none => simp [hkey, hkey']
    | some old => simp [hkey, hkey']

end InventoryStore

/-! The loop over the lots. -/

def takeFrom (lot : LotRecord) (need : Int) : Int :=
  if need < lot.remainingQtyMilli then need else lot.remainingQtyMilli

def drawFrom (t : TenantId) : List LotRecord → Int → InventoryStore → InventoryStore
  | [], _, s => s
  | lot :: lots, need, s =>
    if need ≤ 0 then s
    else drawFrom t lots (need - takeFrom lot need) (s.saveLot t (drawnLot lot (takeFrom lot need)))

def needAfter : List LotRecord → Int → Int
  | [], need => need
  | lot :: lots, need => if need ≤ 0 then need else needAfter lots (need - takeFrom lot need)

theorem previewLots_cons (lot : LotRecord) (lots : List LotRecord) (need cost : Int) :
    previewLots (lot :: lots) need cost = if need ≤ 0 then cost
      else previewLots lots (need - takeFrom lot need) (cost + takenValue lot (takeFrom lot need)) :=
  rfl

theorem previewLots_eq (lots : List LotRecord) (need cost : Int) :
    previewLots lots need cost = cost + previewLots lots need 0 := by
  induction lots generalizing need cost with
  | nil => exact (Int.add_zero cost).symm
  | cons lot lots ih =>
    rw [previewLots_cons, previewLots_cons]
    split_ifs
    · exact (Int.add_zero cost).symm
    · rw [ih, ih _ (0 + _)]
      omega

variable {need : Int} {s : InventoryStore} {lots : List LotRecord} {lot : LotRecord} {sku : String}
variable {t : TenantId}

theorem take_bounds (hlot : 0 < lot.remainingQtyMilli) (hneed : 0 < need) :
    0 < takeFrom lot need ∧ takeFrom lot need ≤ lot.remainingQtyMilli ∧
      takeFrom lot need ≤ need := by
  rw [takeFrom]
  split_ifs <;> omega

theorem needAfter_eq (h : ∀ l ∈ lots, 0 < l.remainingQtyMilli) (hneed : 0 ≤ need) :
    needAfter lots need = max 0 (need - (lots.map LotRecord.remainingQtyMilli).sum) := by
  induction lots generalizing need with
  | nil =>
    rw [needAfter, List.map_nil, List.sum_nil]
    omega
  | cons lot lots ih =>
    rw [List.forall_mem_cons] at h
    have hrest : 0 ≤ (lots.map LotRecord.remainingQtyMilli).sum := by
      refine List.sum_nonneg fun n hn => ?_
      obtain ⟨l, hl, rfl⟩ := List.mem_map.mp hn
      exact (h.2 l hl).le
    rw [needAfter, List.map_cons, List.sum_cons]
    split_ifs with hdone
    · have := h.1
      omega
    · have htake := take_bounds h.1 (not_le.mp hdone)
      rw [ih h.2 (by omega), takeFrom]
      split_ifs with hlt <;> omega

/-- The lots as they stand in the store, each once. -/
structure OnShelf (s : InventoryStore) (t : TenantId) (sku : String) (lots : List LotRecord) :
    Prop where
  held : ∀ l ∈ lots, s.getLot t sku l.seq = some l
  sku_eq : ∀ l ∈ lots, l.sku = sku
  opened : ∀ l ∈ lots, 0 < l.remainingQtyMilli
  distinct : lots.Pairwise fun a b => a.seq ≠ b.seq

theorem OnShelf.tail (h : OnShelf s t sku (lot :: lots)) (take : Int) :
    OnShelf (s.saveLot t (drawnLot lot take)) t sku lots where
  held := by
    intro l hl
    rw [getLot_saveLot, if_neg]
    · exact h.held l (List.mem_cons_of_mem _ hl)
    · exact fun hkey => (List.pairwise_cons.mp h.distinct).1 l hl hkey.2.2.symm
  sku_eq := fun l hl => h.sku_eq l (List.mem_cons_of_mem _ hl)
  opened := fun l hl => h.opened l (List.mem_cons_of_mem _ hl)
  distinct := (List.pairwise_cons.mp h.distinct).2

/-- What holds of every lot of an item at any time: nothing negative is left in it, and nothing of
value in an empty one. -/
def LotsSound (s : InventoryStore) (t : TenantId) (sku : String) : Prop :=
  ∀ seq l, s.getLot t sku seq = some l →
    0 ≤ l.remainingQtyMilli ∧ (l.remainingQtyMilli = 0 → l.remainingValueMinor = 0)

/-- One walk of the loop: what the item holds goes down by what was taken, at its cost, and nothing
else moves. -/
structure Drawn (s s' : InventoryStore) (t : TenantId) (sku : String) (lots : List LotRecord)
    (need : Int) : Prop where
  items : s'.items = s.items
  movements : s'.movements = s.movements
  quantity : s'.heldIn LotRecord.remainingQtyMilli t sku =
    s.heldIn LotRecord.remainingQtyMilli t sku - (need - needAfter lots need)
  value : s'.heldIn LotRecord.remainingValueMinor t sku =
    s.heldIn LotRecord.remainingValueMinor t sku - previewLots lots need 0
  apart : ∀ t' sku' seq, (t' ≠ t ∨ sku' ≠ sku) → s'.getLot t' sku' seq = s.getLot t' sku' seq
  sound : LotsSound s t sku → LotsSound s' t sku

theorem Drawn.refl (s : InventoryStore) (t : TenantId) (sku : String)
    (hneed : needAfter lots need = need) (hcost : previewLots lots need 0 = 0) :
    Drawn s s t sku lots need where
  items := rfl
  movements := rfl
  quantity := by rw [hneed]; omega
  value := by rw [hcost]; omega
  apart := fun _ _ _ _ => rfl
  sound := id

theorem LotsSound.saveLot (h : LotsSound s t sku)
    (hlot : 0 ≤ lot.remainingQtyMilli ∧ (lot.remainingQtyMilli = 0 → lot.remainingValueMinor = 0)) :
    LotsSound (s.saveLot t lot) t sku := by
  intro seq l hl
  rw [getLot_saveLot] at hl
  split_ifs at hl with hkey
  · rwa [← Option.some.inj hl]
  · exact h seq l hl

theorem drawnLot_sound {take : Int} (hle : take ≤ lot.remainingQtyMilli) :
    0 ≤ (drawnLot lot take).remainingQtyMilli ∧
      ((drawnLot lot take).remainingQtyMilli = 0 → (drawnLot lot take).remainingValueMinor = 0) := by
  have hqty : (drawnLot lot take).remainingQtyMilli = lot.remainingQtyMilli - take := rfl
  refine ⟨by omega, fun hzero => ?_⟩
  -- a lot that is emptied gives up its value exactly
  have hall : take = lot.remainingQtyMilli := by omega
  change lot.remainingValueMinor - takenValue lot take = 0
  rw [takenValue, if_pos hall, Int.sub_self]

theorem drawn_drawFrom (h : OnShelf s t sku lots) (need : Int) :
    Drawn s (drawFrom t lots need s) t sku lots need := by
  induction lots generalizing s need with
  | nil => exact .refl s t sku rfl rfl
  | cons lot lots ih =>
    rw [drawFrom]
    split_ifs with hdone
    · exact .refl s t sku (if_pos hdone) (if_pos hdone)
    · have htake := take_bounds (h.opened lot List.mem_cons_self) (not_le.mp hdone)
      have hnext := ih (h.tail (takeFrom lot need)) (need - takeFrom lot need)
      have hsku : lot.sku = sku := h.sku_eq lot List.mem_cons_self
      have hkey : t = t ∧ sku = (drawnLot lot (takeFrom lot need)).sku := ⟨rfl, hsku.symm⟩
      have hheld : s.getLot t (drawnLot lot (takeFrom lot need)).sku
          (drawnLot lot (takeFrom lot need)).seq = some lot := by
        rw [← hkey.2]
        exact h.held lot List.mem_cons_self
      have hneed : needAfter (lot :: lots) need = needAfter lots (need - takeFrom lot need) :=
        if_neg hdone
      have hcost : previewLots (lot :: lots) need 0 =
          takenValue lot (takeFrom lot need) + previewLots lots (need - takeFrom lot need) 0 := by
        rw [previewLots_cons, if_neg hdone, previewLots_eq, Int.zero_add]
      refine ⟨hnext.items, hnext.movements, ?_, ?_, fun t' sku' seq hne => ?_, fun hsound => ?_⟩
      · rw [hnext.quantity, heldIn_saveLot, if_pos hkey, hheld, hneed]
        change _ + (lot.remainingQtyMilli - takeFrom lot need - lot.remainingQtyMilli) - _ = _
        omega
      · rw [hnext.value, heldIn_saveLot, if_pos hkey, hheld, hcost]
        change _ + (lot.remainingValueMinor - takenValue lot (takeFrom lot need) -
          lot.remainingValueMinor) - _ = _
        omega
      · rw [hnext.apart t' sku' seq hne, getLot_saveLot, if_neg]
        rintro ⟨rfl, rfl, -⟩
        exact hne.elim (fun ht => ht rfl) (fun hs => hs hsku)
      · exact hnext.sound (hsound.saveLot (drawnLot_sound htake.2.1))

theorem drawFrom_ne (h : OnShelf s t sku lots) (hlots : lots ≠ []) (hneed : 0 < need) :
    drawFrom t lots need s ≠ s := by
  intro heq
  have hdrawn := (drawn_drawFrom h need).quantity
  have hafter := needAfter_eq h.opened hneed.le
  rw [heq] at hdrawn
  obtain ⟨lot, rest, rfl⟩ := List.exists_cons_of_ne_nil hlots
  have hopen := h.opened
  rw [List.forall_mem_cons] at hopen
  have hrest : 0 ≤ (rest.map LotRecord.remainingQtyMilli).sum := by
    refine List.sum_nonneg fun n hn => ?_
    obtain ⟨l, hl, rfl⟩ := List.mem_map.mp hn
    exact (hopen.2 l hl).le
  rw [List.map_cons, List.sum_cons] at hafter
  have hpos := hopen.1
  omega

/-! The order of the lots. -/

theorem mem_orderLotsFor {method : CostingMethod} {lotSeq : Option Int} {l : LotRecord}
    (h : l ∈ orderLotsFor lots method lotSeq) : l ∈ lots ∧ 0 < l.remainingQtyMilli := by
  have hopened : l ∈ lots.filter fun l => 0 < l.remainingQtyMilli := by
    unfold orderLotsFor at h
    split at h
    · exact List.mem_of_mem_filter h
    · exact (List.perm_insertionSort _ _).mem_iff.mp h
    · exact (List.perm_insertionSort _ _).mem_iff.mp h
  rw [List.mem_filter] at hopened
  exact ⟨hopened.1, of_decide_eq_true hopened.2⟩

theorem pairwise_lots (s : InventoryStore) (t : TenantId) (sku : String) :
    (s.lots t sku).Pairwise fun a b => a.seq ≠ b.seq := by
  refine (List.perm_insertionSort _ _).symm.pairwise ?_ fun h => Ne.symm h
  rw [values, List.pairwise_map]
  have hnd := (s.lotRows.filter fun key _ => key.1 = t ∧ key.2.1 = sku).nodup
  rw [List.nodup_iff_pairwise_ne, List.pairwise_map] at hnd
  refine hnd.imp_of_mem fun {a b} ha hb hne hseq => hne ?_
  rw [filter, List.mem_filter] at ha hb
  obtain ⟨ha1, ha2⟩ := of_decide_eq_true ha.2
  obtain ⟨hb1, hb2⟩ := of_decide_eq_true hb.2
  have hseqa := (s.lot_of_get (mem_entries.mp ha.1)).2
  have hseqb := (s.lot_of_get (mem_entries.mp hb.1)).2
  refine Prod.ext (ha1.trans hb1.symm) (Prod.ext (ha2.trans hb2.symm) ?_)
  rw [← hseqa, ← hseqb, hseq]

theorem pairwise_orderLotsFor (h : lots.Pairwise fun a b => a.seq ≠ b.seq)
    (method : CostingMethod) (lotSeq : Option Int) :
    (orderLotsFor lots method lotSeq).Pairwise fun a b => a.seq ≠ b.seq := by
  have hopened := h.filter fun l => 0 < l.remainingQtyMilli
  unfold orderLotsFor
  split
  · exact hopened.filter _
  · exact (List.perm_insertionSort _ _).symm.pairwise hopened fun h => Ne.symm h
  · exact (List.perm_insertionSort _ _).symm.pairwise hopened fun h => Ne.symm h

theorem onShelf_orderLotsFor (s : InventoryStore) (t : TenantId) (sku : String)
    (method : CostingMethod) (lotSeq : Option Int) :
    OnShelf s t sku (orderLotsFor (s.lots t sku) method lotSeq) where
  held := fun _ hl => mem_lots.mp (mem_orderLotsFor hl).1
  sku_eq := fun _ hl => sku_of_mem_lots (mem_orderLotsFor hl).1
  opened := fun _ hl => (mem_orderLotsFor hl).2
  distinct := pairwise_orderLotsFor (pairwise_lots s t sku) method lotSeq

end Rgnr8.Service.Inventory
