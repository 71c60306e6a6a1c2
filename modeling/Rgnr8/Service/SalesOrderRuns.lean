import Rgnr8.Service.RetainagePosts
import Rgnr8.Service.SalesOrders

/-! What the invoices that draw an order down come to, line by line. -/

namespace Rgnr8.Service.SalesOrders
open Lib Lib.Js Fallible Kernel ArAp SalesOrderLineRecord List Except Int

/-! Shares of a price. -/

/-- What rounding a product to the nearest thousandth leaves of it. -/
def residue (x : Int) : Int := (x + 500) % 1000 - 500

theorem residue_bounds (x : Int) : -500 ≤ residue x ∧ residue x < 500 := by
  unfold residue
  omega

theorem mulDiv_add_residue {a b : Int} (h : 0 ≤ a * b) :
    1000 * mulDiv a b milli + residue (a * b) = a * b := by
  unfold mulDiv residue milli
  rw [if_neg (not_lt.mpr h)]
  generalize a * b = x
  omega

theorem pos_of_mulDiv_pos {a b : Int} (h : 0 < mulDiv a b milli) : 0 < a * b := by
  unfold mulDiv milli at h
  generalize a * b = x at h
  split_ifs at h with hneg
  · omega
  · omega

theorem shares_exact_iff {whole billed residues : Int} {a b : Int} (hwhole : a * b = whole)
    (hnn : 0 ≤ whole) (h : 1000 * billed + residues = whole) :
    billed = mulDiv a b milli ↔ -500 ≤ residues ∧ residues < 500 := by
  subst hwhole
  have hroun := mulDiv_add_residue hnn
  have hbnds := residue_bounds (a * b)
  constructor
  · rintro rfl
    omega
  · intro hres
    omega

/-! The quantities that a request takes. -/

/-- Some of what is left of the lines, and of nothing else. -/
def Within (lines : List SalesOrderLineRecord) (wanted : OrderedMap Nat Int) : Prop :=
  ∀ n q, wanted.get? n = some q → 0 < q ∧ ∃ l ∈ lines, l.lineNo = n ∧ q ≤ l.remaining

theorem within_empty (lines : List SalesOrderLineRecord) : Within lines .empty := by
  intro n q h
  rw [OrderedMap.get?_empty] at h
  cases h

theorem Within.set {lines : List SalesOrderLineRecord} {wanted : OrderedMap Nat Int}
    (h : Within lines wanted) {l : SalesOrderLineRecord} (hl : l ∈ lines) {q : Int} (hpos : 0 < q)
    (hq : q ≤ l.remaining) : Within lines (wanted.set l.lineNo q) := by
  intro n q' hget
  rw [OrderedMap.get?_set] at hget
  split_ifs at hget with hn
  · rw [← Option.some.inj hget]
    exact ⟨hpos, l, hl, hn.symm, hq⟩
  · exact h n q' hget

theorem within_wantedLines {order : SalesOrderRecord} {named : List InvoiceLineInput}
    {wanted taken : OrderedMap Nat Int} (hwant : Within order.lines wanted)
    (h : wantedLines order named wanted = .ok taken) : Within order.lines taken := by
  induction named generalizing wanted with
  | nil =>
    obtain rfl := ok.inj h
    exact hwant
  | cons l ls ih =>
    unfold wantedLines at h
    obtain ⟨line, hline, h⟩ := bind_eq_ok.mp h
    obtain ⟨quantity, -, h⟩ := bind_eq_ok.mp h
    obtain ⟨hleft, h⟩ := refuse_bind_eq_ok.mp h
    refine ih ?_ h
    split_ifs with hnone
    · exact hwant
    · have hpos : 0 < quantity := not_le.mp hnone
      have hmem : line ∈ order.lines := by
        unfold lineNamed at hline
        dsimp only at hline
        split at hline
        · cases hline
        · rename_i found hfound
          rw [← ok.inj hline]
          exact mem_of_find?_eq_some hfound
      exact hwant.set hmem hpos (not_lt.mp fun hlt => hleft ⟨hpos, hlt⟩)

theorem within_outstanding (lines : List SalesOrderLineRecord) :
    Within lines (outstanding lines) := by
  have hfold : ∀ (ls : List SalesOrderLineRecord) (wanted : OrderedMap Nat Int), ls ⊆ lines →
      Within lines wanted → Within lines (ls.foldl (fun wanted l =>
        if 0 < l.remaining then wanted.set l.lineNo l.remaining else wanted) wanted) := by
    intro ls
    induction ls with
    | nil => exact fun _ _ h => h
    | cons l ls ih =>
      intro wanted hsub h
      obtain ⟨hl, hsub⟩ := cons_subset.mp hsub
      refine ih _ hsub ?_
      dsimp only
      split_ifs with hleft
      · exact h.set hl hleft le_rfl
      · exact h
  exact hfold lines .empty (List.Subset.refl lines) (within_empty lines)

theorem within_wantedOf {order : SalesOrderRecord} {named : List InvoiceLineInput}
    {wanted : OrderedMap Nat Int} (h : wantedOf order named = .ok wanted) :
    Within order.lines wanted := by
  unfold wantedOf at h
  split_ifs at h
  · exact within_wantedLines (within_empty _) h
  · obtain rfl := ok.inj h
    exact within_outstanding _

theorem eq_of_lineNo_eq {lines : List SalesOrderLineRecord}
    (hdis : (lines.map SalesOrderLineRecord.lineNo).Nodup) {l l' : SalesOrderLineRecord}
    (hl : l ∈ lines) (hl' : l' ∈ lines) (h : l.lineNo = l'.lineNo) : l = l' :=
  inj_on_of_nodup_map hdis hl hl' h

theorem Within.quantityOn {lines : List SalesOrderLineRecord} {wanted : OrderedMap Nat Int}
    (h : Within lines wanted) (hdis : (lines.map SalesOrderLineRecord.lineNo).Nodup)
    {l : SalesOrderLineRecord} (hl : l ∈ lines) :
    quantityOn wanted l = 0 ∨ 0 < quantityOn wanted l ∧ quantityOn wanted l ≤ l.remaining := by
  unfold SalesOrders.quantityOn
  cases hget : wanted.get? l.lineNo with
  | none => exact .inl rfl
  | some q =>
    obtain ⟨hpos, l', hl', hno, hq⟩ := h l.lineNo q hget
    obtain rfl := eq_of_lineNo_eq hdis hl' hl hno
    exact .inr ⟨hpos, hq⟩

/-! What an invoice has for each line. -/

/-- What the document lines raised from the order lines of number `n` come to. -/
def amountFrom (n : Nat) (drawn : List SalesOrderLineRecord) (records : List DocLineRecord) : Int :=
  (((drawn.zip records).filter fun x => x.1.lineNo = n).map fun x => x.2.amountMinor).sum

def Priced (wanted : OrderedMap Nat Int) (l : SalesOrderLineRecord) (d : DocLineRecord) : Prop :=
  d.amountMinor = mulDiv (quantityOn wanted l) l.unitPriceMinor milli ∧ 0 < d.amountMinor

theorem amountFrom_of_off {drawn : List SalesOrderLineRecord} {n : Nat}
    (hoff : ∀ l ∈ drawn, l.lineNo ≠ n) (records : List DocLineRecord) :
    amountFrom n drawn records = 0 := by
  unfold amountFrom
  rw [filter_eq_nil_iff.mpr]
  · rfl
  · intro x hx
    have hne := hoff x.1 (of_mem_zip hx).1
    simpa using hne

theorem amountFrom_of_mem {wanted : OrderedMap Nat Int} {drawn : List SalesOrderLineRecord}
    {records : List DocLineRecord} (h : List.Forall₂ (Priced wanted) drawn records)
    (hdis : (drawn.map SalesOrderLineRecord.lineNo).Nodup) {l : SalesOrderLineRecord}
    (hl : l ∈ drawn) : amountFrom l.lineNo drawn records =
      mulDiv (quantityOn wanted l) l.unitPriceMinor milli := by
  induction h with
  | nil => exact absurd hl not_mem_nil
  | @cons first d drawn records hpric hrest ih =>
    rw [map_cons, nodup_cons] at hdis
    have hcons : amountFrom l.lineNo (first :: drawn) (d :: records) =
        (if first.lineNo = l.lineNo then d.amountMinor else 0) + amountFrom l.lineNo drawn records := by
      unfold amountFrom
      rw [zip_cons_cons, filter_cons]
      by_cases hno : first.lineNo = l.lineNo
      · simp [hno]
      · simp [hno]
    rw [hcons]
    rcases mem_cons.mp hl with rfl | hl
    · have hoff : ∀ l' ∈ drawn, l'.lineNo ≠ l.lineNo := fun l' hl' hno =>
        hdis.1 (hno ▸ mem_map_of_mem hl')
      rw [if_pos rfl, amountFrom_of_off hoff, add_zero, hpric.1]
    · have hno : first.lineNo ≠ l.lineNo := fun hno => hdis.1 (hno ▸ mem_map_of_mem hl)
      rw [if_neg hno, zero_add]
      exact ih hdis.2 hl

theorem amountFrom_drawnOn {wanted : OrderedMap Nat Int} {lines : List SalesOrderLineRecord}
    {records : List DocLineRecord}
    (h : List.Forall₂ (Priced wanted) (drawnOn wanted lines) records)
    (hdis : (lines.map SalesOrderLineRecord.lineNo).Nodup) {l : SalesOrderLineRecord}
    (hl : l ∈ lines) : amountFrom l.lineNo (drawnOn wanted lines) records =
      mulDiv (quantityOn wanted l) l.unitPriceMinor milli := by
  have hsub : (drawnOn wanted lines).Sublist lines := filter_sublist
  by_cases hzero : quantityOn wanted l = 0
  · rw [amountFrom_of_off, hzero]
    · unfold mulDiv
      rw [zero_mul]
      rfl
    · intro l' hl' hno
      obtain ⟨hmem, hdrawn⟩ := mem_filter.mp hl'
      obtain rfl := eq_of_lineNo_eq hdis hmem hl hno
      exact of_decide_eq_true hdrawn hzero
  · exact amountFrom_of_mem h (hdis.sublist (hsub.map _))
      (mem_filter.mpr ⟨hl, decide_eq_true hzero⟩)

theorem priced_of_draft {order : SalesOrderRecord} {wanted : OrderedMap Nat Int} {ctx : ArApContext}
    {req : CreateDocumentRequest} {party : PartyRecord} {draft : PostCommand × DocRecord}
    {drawn : List SalesOrderLineRecord} (hlines : req.lines = drawn.map (requestLine order wanted))
    (h : draftDocument .invoice req ctx party = .ok draft) :
    List.Forall₂ (Priced wanted) drawn draft.2.lines := by
  simp only [draftDocument, bind_eq_ok, refuse_eq_ok] at h
  obtain ⟨built, hbuilt, -, due, -, rate, -, command, -, hdraft⟩ := h
  obtain ⟨xs, hxs, hbuilt⟩ := bind_eq_ok.mp hbuilt
  obtain rfl := ok.inj hbuilt
  obtain rfl := ok.inj hdraft
  rw [hlines, mapM_eq_ok, forall₂_map_left_iff] at hxs
  refine forall₂_map_right_iff.mpr (hxs.imp fun l x hx => ?_)
  simp only [buildLine, bind_eq_ok, refuse_eq_ok] at hx
  obtain ⟨account, -, unit, hunit, hpos, quantity, hquan, hx⟩ := hx
  obtain rfl := ok.inj hx
  have hone : quantity = 1 := (ok.inj hquan).symm
  have hread : unit = mulDiv (quantityOn wanted l) l.unitPriceMinor milli := by
    unfold ArAp.minorOf requestLine at hunit
    dsimp only at hunit
    rw [bigInt_toString] at hunit
    exact (ok.inj hunit).symm
  have hamt : unit * quantity = unit := by rw [hone, mul_one]
  refine ⟨hamt.trans hread, ?_⟩
  show 0 < unit * quantity
  rw [hamt]
  exact not_le.mp hpos

section
variable {π : Type} [PeriodStore π]

theorem priced_of_created {order : SalesOrderRecord} {wanted : OrderedMap Nat Int}
    {ctx : ArApContext} {req : CreateDocumentRequest} {drawn : List SalesOrderLineRecord}
    {s books : ArApStores π} {result : CreateDocumentResult}
    (hlines : req.lines = drawn.map (requestLine order wanted))
    (h : (createDocument .invoice req ctx).run ArApCall.exec s = (.ok result, books)) :
    List.Forall₂ (Priced wanted) drawn result.doc.lines := by
  have hcreat := Billing.created ctx req s
  rw [h] at hcreat
  cases hcreat with
  | answered hnew hdraft hanswers => exact priced_of_draft hlines hdraft
  | appended hnew hdraft happends => exact priced_of_draft hlines hdraft

/-! A request. -/

/-- What an accepted request has done. -/
structure Accepted (r : InvoiceCall) (s : SalesStores π) (order : SalesOrderRecord)
    (wanted : OrderedMap Nat Int) (inv : Invoiced) : Prop where
  found : s.orders.get r.arAp.tenant r.orderId = some order
  asked : wantedOf order (r.input.lines.getD []) = .ok wanted
  status : order.status ≠ .cancelled
  answer : (r.serve s).1 = .ok inv
  priced : List.Forall₂ (Priced wanted) (drawnOn wanted order.lines) inv.invoice.lines
  stored : (step s r).orders = s.orders.save r.arAp.tenant { order with
    lines := order.lines.map (drawnLine wanted)
    status := statusFor order.status (order.lines.map (drawnLine wanted)) }

theorem draftFor_spec {order : SalesOrderRecord} {input : InvoiceFromOrderInput} {d : InvoiceDraft}
    (h : draftFor order input = .ok d) : ∃ wanted,
      wantedOf order (input.lines.getD []) = .ok wanted ∧ order.status ≠ .cancelled ∧
      d.request.lines = (drawnOn wanted order.lines).map (requestLine order wanted) ∧
      d.order = { order with
        lines := order.lines.map (drawnLine wanted)
        status := statusFor order.status (order.lines.map (drawnLine wanted)) } := by
  unfold draftFor at h
  obtain ⟨hstatus, h⟩ := refuse_bind_eq_ok.mp h
  obtain ⟨wanted, hwant, h⟩ := bind_eq_ok.mp h
  obtain ⟨-, h⟩ := refuse_bind_eq_ok.mp h
  obtain ⟨date, -, h⟩ := bind_eq_ok.mp h
  obtain ⟨-, h⟩ := refuse_bind_eq_ok.mp h
  obtain rfl := ok.inj h
  exact ⟨wanted, hwant, hstatus, rfl, rfl⟩

theorem serve_cases (r : InvoiceCall) (s : SalesStores π) :
    ((∃ e, (r.serve s).1 = .error e) ∧ (step s r).orders = s.orders) ∨
      ∃ order wanted inv, Accepted r s order wanted inv := by
  unfold step
  cases hdraft : invoiceFromOrder s.orders r.arAp.tenant r.orderId r.input with
  | error e =>
    have hserve : r.serve s = (.error e, s) := by
      unfold InvoiceCall.serve
      rw [hdraft]
    rw [hserve]
    exact .inl ⟨⟨e, rfl⟩, rfl⟩
  | ok d =>
    cases hrun : (createDocument .invoice d.request r.arAp).run ArApCall.exec s.books with
    | mk answer books =>
      cases answer with
      | error e =>
        have hserve : r.serve s = (.error (.arAp e), { s with books := books }) := by
          unfold InvoiceCall.serve
          rw [hdraft]
          dsimp only
          rw [hrun]
        rw [hserve]
        exact .inl ⟨⟨_, rfl⟩, rfl⟩
      | ok result =>
        have hserve : r.serve s = (.ok ⟨d.order, result.doc, result.entryId⟩,
            { s with books := books, orders := s.orders.save r.arAp.tenant d.order }) := by
          unfold InvoiceCall.serve
          rw [hdraft]
          dsimp only
          rw [hrun]
        unfold invoiceFromOrder at hdraft
        cases hget : s.orders.get r.arAp.tenant r.orderId with
        | none =>
          rw [hget] at hdraft
          cases hdraft
        | some order =>
          rw [hget] at hdraft
          obtain ⟨wanted, hwant, hstatus, hlines, hdrawn⟩ := draftFor_spec hdraft
          refine .inr ⟨order, wanted, _, hget, hwant, hstatus, congrArg Prod.fst hserve,
            priced_of_created hlines hrun, ?_⟩
          unfold step
          rw [hserve, ← hdrawn]

/-! What the requests of a run take and bill. -/

def InvoiceCall.wanted (r : InvoiceCall) (s : SalesStores π) : OrderedMap Nat Int :=
  ((s.orders.get r.arAp.tenant r.orderId).bind fun order =>
    (wantedOf order (r.input.lines.getD [])).toOption).getD .empty

def linesAt (s : SalesStores π) (t : TenantId) (id : String) : List SalesOrderLineRecord :=
  ((s.orders.get t id).map SalesOrderRecord.lines).getD []

/-- The quantity that a request takes of line `n` of an order; a refused request takes nothing. -/
def drawn (t : TenantId) (id : String) (n : Nat) (s : SalesStores π) (r : InvoiceCall) : Int :=
  match (r.serve s).1 with
  | .error _ => 0
  | .ok _ => if (t, id) = (r.arAp.tenant, r.orderId) then ((r.wanted s).get? n).getD 0 else 0

/-- The untaxed amount for line `n` on the invoice that a request has raised. -/
def billed (t : TenantId) (id : String) (n : Nat) (s : SalesStores π) (r : InvoiceCall) : Int :=
  match (r.serve s).1 with
  | .error _ => 0
  | .ok inv => if (t, id) = (r.arAp.tenant, r.orderId) then
      amountFrom n (drawnOn (r.wanted s) (linesAt s t id)) inv.invoice.lines else 0

/-- What rounding has left of the share of a line that a request bills. -/
def rest (t : TenantId) (id : String) (l : SalesOrderLineRecord) (s : SalesStores π)
    (r : InvoiceCall) : Int := residue (drawn t id l.lineNo s r * l.unitPriceMinor)

def runTotal (f : SalesStores π → InvoiceCall → Int) : SalesStores π → List InvoiceCall → Int
  | _, [] => 0
  | s, r :: rs => f s r + runTotal f (step s r) rs

def SalesOrderLineRecord.draw (l : SalesOrderLineRecord) (q : Int) : SalesOrderLineRecord :=
  { l with invoicedMilli := l.invoicedMilli + q }

theorem map_draw_zero (lines : List SalesOrderLineRecord) {q : SalesOrderLineRecord → Int}
    (h : ∀ l ∈ lines, q l = 0) : lines.map (fun l => l.draw (q l)) = lines := by
  refine (map_congr_left fun l hl => ?_).trans (map_id lines)
  unfold draw
  rw [h l hl, add_zero]
  rfl

/-- What is taken of a line and billed for it, with what rounding has left of it. -/
structure Share (l : SalesOrderLineRecord) (taken amount left : Int) : Prop where
  nonneg : 0 ≤ taken
  within : taken = 0 ∨ taken ≤ l.remaining
  worth : 0 ≤ taken * l.unitPriceMinor
  exact_ : 1000 * amount + left = taken * l.unitPriceMinor

theorem share_zero (l : SalesOrderLineRecord) : Share l 0 0 0 where
  nonneg := le_rfl
  within := .inl rfl
  worth := by rw [zero_mul]
  exact_ := by rw [zero_mul]; rfl

theorem Share.add {l : SalesOrderLineRecord} {taken amount left taken' amount' left' : Int}
    (h : Share l taken amount left) (h' : Share (l.draw taken) taken' amount' left') :
    Share l (taken + taken') (amount + amount') (left + left') := by
  have hleft : (l.draw taken).remaining = l.remaining - taken := by
    unfold remaining draw
    dsimp only
    omega
  have hwin := h.within
  have hwin' := h'.within
  rw [hleft] at hwin'
  have hwor' : 0 ≤ taken' * l.unitPriceMinor := h'.worth
  have hexact' : 1000 * amount' + left' = taken' * l.unitPriceMinor := h'.exact_
  refine ⟨add_nonneg h.nonneg h'.nonneg, ?_, ?_, ?_⟩
  · omega
  · rw [add_mul]
    exact add_nonneg h.worth hwor'
  · rw [add_mul, ← h.exact_, ← hexact']
    omega

/-- What a request does to an order. -/
structure Drawing (t : TenantId) (id : String) (o o' : SalesOrderRecord)
    (taken : Nat → Int) : Prop where
  lines : o'.lines = o.lines.map fun l => l.draw (taken l.lineNo)
  status : o'.status = o.status ∧ (∀ n, taken n = 0) ∨
    o.status ≠ .cancelled ∧ o'.status = statusFor o.status o'.lines

theorem step_order {s : SalesStores π} {t : TenantId} {id : String} {o : SalesOrderRecord}
    (ho : s.orders.get t id = some o)
    (hdis : (o.lines.map SalesOrderLineRecord.lineNo).Nodup) (r : InvoiceCall) :
    (∃ o', (step s r).orders.get t id = some o' ∧ Drawing t id o o' fun n => drawn t id n s r) ∧
      ∀ l ∈ o.lines, Share l (drawn t id l.lineNo s r) (billed t id l.lineNo s r) (rest t id l s r) := by
  have hzero : residue 0 = 0 := rfl
  have hnone : (∀ n, drawn t id n s r = 0) → (∀ n, billed t id n s r = 0) →
      (step s r).orders.get t id = some o →
      (∃ o', (step s r).orders.get t id = some o' ∧ Drawing t id o o' fun n => drawn t id n s r) ∧
        ∀ l ∈ o.lines,
          Share l (drawn t id l.lineNo s r) (billed t id l.lineNo s r) (rest t id l s r) := by
    intro hdrawn hbil hget
    refine ⟨⟨o, hget, (map_draw_zero o.lines fun l _ => hdrawn l.lineNo).symm, .inl ⟨rfl, hdrawn⟩⟩,
      fun l _ => ?_⟩
    unfold rest
    rw [hdrawn, hbil, zero_mul, hzero]
    exact share_zero l
  rcases serve_cases r s with ⟨⟨e, he⟩, hord⟩ | ⟨order, wanted, inv, h⟩
  · refine hnone (fun n => ?_) (fun n => ?_) (by rw [hord]; exact ho)
    · unfold drawn
      rw [he]
    · unfold billed
      rw [he]
  · have hid : order.id = r.orderId := s.orders.id_of_get h.found
    have hget : (step s r).orders.get t id = if (t, id) = (r.arAp.tenant, r.orderId) then
        some { order with
          lines := order.lines.map (drawnLine wanted)
          status := statusFor order.status (order.lines.map (drawnLine wanted)) }
        else some o := by
      rw [h.stored, SalesOrderStore.get_save, ho]
      dsimp only
      rw [hid]
    by_cases hkey : (t, id) = (r.arAp.tenant, r.orderId)
    · obtain ⟨rfl, rfl⟩ := Prod.mk.inj hkey
      obtain rfl := Option.some.inj (h.found.symm.trans ho)
      have hwant : r.wanted s = wanted := by
        unfold InvoiceCall.wanted
        rw [h.found, Option.bind_some, h.asked]
        rfl
      have hdrawn : ∀ l, drawn r.arAp.tenant r.orderId l.lineNo s r = quantityOn wanted l := by
        intro l
        unfold drawn quantityOn
        rw [h.answer]
        dsimp only
        rw [if_pos rfl, hwant]
      have hbil : ∀ l ∈ order.lines, billed r.arAp.tenant r.orderId l.lineNo s r =
          mulDiv (quantityOn wanted l) l.unitPriceMinor milli := by
        intro l hl
        unfold billed linesAt
        rw [h.answer]
        dsimp only
        rw [if_pos rfl, hwant, h.found]
        exact amountFrom_drawnOn h.priced hdis hl
      have hlines : order.lines.map (drawnLine wanted) = order.lines.map fun l =>
          l.draw (drawn r.arAp.tenant r.orderId l.lineNo s r) := by
        refine map_congr_left fun l _ => ?_
        rw [hdrawn]
        rfl
      rw [if_pos rfl] at hget
      refine ⟨⟨_, hget, hlines, .inr ⟨h.status, rfl⟩⟩, fun l hl => ?_⟩
      unfold rest
      rw [hdrawn, hbil l hl]
      rcases (within_wantedOf h.asked).quantityOn hdis hl with hq | ⟨hpos, hle⟩
      · have hfree : mulDiv 0 l.unitPriceMinor milli = 0 := by
          unfold mulDiv
          rw [zero_mul]
          rfl
        rw [hq, hfree, zero_mul, hzero]
        exact share_zero l
      · have hmem : l ∈ drawnOn wanted order.lines :=
          mem_filter.mpr ⟨hl, decide_eq_true hpos.ne'⟩
        obtain ⟨d, -, hprice, hd⟩ := exists_of_forall₂ h.priced.flip hmem
        have hworth : 0 < quantityOn wanted l * l.unitPriceMinor := pos_of_mulDiv_pos (hprice ▸ hd)
        exact ⟨hpos.le, .inr hle, hworth.le, mulDiv_add_residue hworth.le⟩
    · refine hnone (fun n => ?_) (fun n => ?_) (by rw [hget, if_neg hkey])
      · unfold drawn
        rw [h.answer]
        dsimp only
        rw [if_neg hkey]
      · unfold billed
        rw [h.answer]
        dsimp only
        rw [if_neg hkey]

/-! A run. -/

theorem statusFor_statusFor (status : SalesOrderStatus) (lines lines' : List SalesOrderLineRecord) :
    statusFor (statusFor status lines) lines' = statusFor status lines' := by
  unfold statusFor
  by_cases h : status = .cancelled ∨ status = .closed
  · rw [if_pos h, if_pos h]
  · rw [if_neg h]
    split_ifs <;> simp_all

theorem Drawing.trans {t : TenantId} {id : String} {o o₁ o' : SalesOrderRecord}
    {taken taken' : Nat → Int} (h : Drawing t id o o₁ taken) (h' : Drawing t id o₁ o' taken') :
    Drawing t id o o' fun n => taken n + taken' n := by
  have hlines : o'.lines = o.lines.map fun l => l.draw (taken l.lineNo + taken' l.lineNo) := by
    rw [h'.lines, h.lines, map_map]
    refine map_congr_left fun l _ => ?_
    simp only [Function.comp_apply, draw, add_assoc]
  refine ⟨hlines, ?_⟩
  rcases h.status with ⟨hstatus, hnone⟩ | ⟨hlive, hstatus⟩
  · rcases h'.status with ⟨hstatus', hnone'⟩ | ⟨hlive', hstatus'⟩
    · exact .inl ⟨hstatus'.trans hstatus, fun n => by rw [hnone, hnone']; rfl⟩
    · rw [hstatus] at hlive' hstatus'
      exact .inr ⟨hlive', hstatus'⟩
  · rcases h'.status with ⟨hstatus', hnone'⟩ | ⟨-, hstatus'⟩
    · refine .inr ⟨hlive, ?_⟩
      rw [hstatus', hstatus, h'.lines, map_draw_zero _ fun l _ => hnone' l.lineNo]
    · refine .inr ⟨hlive, ?_⟩
      rw [hstatus', hstatus, statusFor_statusFor]

theorem lineNos_draw (lines : List SalesOrderLineRecord) (q : SalesOrderLineRecord → Int) :
    (lines.map fun l => l.draw (q l)).map SalesOrderLineRecord.lineNo =
      lines.map SalesOrderLineRecord.lineNo := by
  rw [map_map]
  rfl

theorem run_order {s : SalesStores π} {t : TenantId} {id : String} {o : SalesOrderRecord}
    (ho : s.orders.get t id = some o)
    (hdis : (o.lines.map SalesOrderLineRecord.lineNo).Nodup) (rs : List InvoiceCall) :
    (∃ o', (rs.foldl step s).orders.get t id = some o' ∧
      Drawing t id o o' fun n => runTotal (drawn t id n) s rs) ∧
      ∀ l ∈ o.lines, Share l (runTotal (drawn t id l.lineNo) s rs)
        (runTotal (billed t id l.lineNo) s rs) (runTotal (rest t id l) s rs) := by
  induction rs generalizing s o with
  | nil =>
    refine ⟨⟨o, ho, (map_draw_zero o.lines fun _ _ => rfl).symm, .inl ⟨rfl, fun _ => rfl⟩⟩, ?_⟩
    exact fun l _ => share_zero l
  | cons r rs ih =>
    obtain ⟨⟨o₁, ho₁, hfst⟩, hshare⟩ := step_order ho hdis r
    have hdis₁ : (o₁.lines.map lineNo).Nodup := by
      rw [hfst.lines, lineNos_draw]
      exact hdis
    obtain ⟨⟨o', ho', hlater⟩, hshar⟩ := ih ho₁ hdis₁
    refine ⟨⟨o', ho', hfst.trans hlater⟩, fun l hl => ?_⟩
    have hl₁ : l.draw (drawn t id l.lineNo s r) ∈ o₁.lines := by
      rw [hfst.lines]
      exact mem_map_of_mem hl
    exact (hshare l hl).add (hshar _ hl₁)

/-- An order as it is taken: numbered lines, each of some quantity and none of it invoiced. -/
structure SalesOrderRecord.Placed (o : SalesOrderRecord) : Prop where
  lines : o.lines ≠ []
  distinct : (o.lines.map SalesOrderLineRecord.lineNo).Nodup
  ordered : ∀ l ∈ o.lines, 0 < l.quantityMilli
  uninvoiced : ∀ l ∈ o.lines, l.invoicedMilli = 0

theorem placed_of_orderLines {chart : ChartOfAccounts} {costCodes : List String}
    {existing : Option SalesOrderRecord} {n : Nat} {typed : List SalesOrderLineInput}
    {lines : List SalesOrderLineRecord}
    (hexi : ∀ e, existing = some e → ∀ l ∈ e.lines, l.invoicedMilli = 0)
    (h : orderLines chart costCodes existing n typed = .ok lines) :
    lines.map SalesOrderLineRecord.lineNo = List.range' n typed.length ∧
      ∀ l ∈ lines, 0 < l.quantityMilli ∧ l.invoicedMilli = 0 := by
  induction typed generalizing n lines with
  | nil =>
    obtain rfl := ok.inj h
    exact ⟨rfl, fun l hl => absurd hl not_mem_nil⟩
  | cons t typed ih =>
    unfold orderLines at h
    obtain ⟨line, hline, h⟩ := bind_eq_ok.mp h
    obtain ⟨others, hoth, h⟩ := bind_eq_ok.mp h
    obtain rfl := ok.inj h
    obtain ⟨hnum, hlines⟩ := ih hoth
    unfold orderLine at hline
    obtain ⟨quantity, hquan, hline⟩ := bind_eq_ok.mp hline
    obtain ⟨hsome, hline⟩ := refuse_bind_eq_ok.mp hline
    obtain ⟨price, -, hline⟩ := bind_eq_ok.mp hline
    obtain ⟨-, hline⟩ := refuse_bind_eq_ok.mp hline
    obtain ⟨code, -, hline⟩ := bind_eq_ok.mp hline
    obtain ⟨-, hline⟩ := refuse_bind_eq_ok.mp hline
    obtain rfl := ok.inj hline
    have hnn : 0 ≤ quantity := by
      unfold milliOf at hquan
      split at hquan
      · cases hquan
      · rename_i q hq
        rw [← ok.inj hquan]
        exact digitsOnly_nonneg hq
    refine ⟨?_, forall_mem_cons.mpr ⟨⟨lt_of_le_of_ne hnn (Ne.symm hsome), ?_⟩, hlines⟩⟩
    · rw [map_cons, hnum, length_cons, range'_succ]
    · dsimp only
      cases hbef : existing.bind fun e => e.lines.find? fun x => x.lineNo = n with
      | none => rfl
      | some l =>
        obtain ⟨e, he, hl⟩ := Option.bind_eq_some_iff.mp hbef
        exact hexi e he l (mem_of_find?_eq_some hl)

structure LinesPlaced (lines : List SalesOrderLineRecord) : Prop where
  some : lines ≠ []
  distinct : (lines.map SalesOrderLineRecord.lineNo).Nodup
  each : ∀ l ∈ lines, 0 < l.quantityMilli ∧ l.invoicedMilli = 0

theorem placed_of_estimate {e : Estimates.EstimateRecord} (hsome : e.lines ≠ [])
    (horder : ∀ l ∈ e.lines, 0 < l.quantityMilli) : LinesPlaced (linesFromEstimate e) := by
  refine ⟨fun hnil => hsome ?_, ?_, fun l hl => ?_⟩
  · have hlength := congrArg length hnil
    unfold linesFromEstimate at hlength
    rw [length_map, length_zipIdx] at hlength
    exact eq_nil_of_length_eq_zero hlength
  · have hnum : (linesFromEstimate e).map lineNo =
        (e.lines.zipIdx.map Prod.snd).map (· + 1) := by
      unfold linesFromEstimate
      rw [map_map, map_map]
      rfl
    rw [hnum]
    exact (nodup_zipIdx_map_snd e.lines).map fun a b hab => Nat.succ.inj hab
  · obtain ⟨x, hx, rfl⟩ := mem_map.mp hl
    exact ⟨horder x.1 (fst_mem_of_mem_zipIdx hx), rfl⟩

theorem placed_of_linesOf {chart : ChartOfAccounts} {costCodes : List String}
    {existing : Option SalesOrderRecord} {typed : List SalesOrderLineInput}
    {estimate : Option Estimates.EstimateRecord} {lines : List SalesOrderLineRecord}
    (hexi : ∀ e, existing = some e → ∀ l ∈ e.lines, l.invoicedMilli = 0)
    (hest : ∀ e, estimate = some e → e.lines ≠ [] ∧ ∀ l ∈ e.lines, 0 < l.quantityMilli)
    (h : linesOf chart costCodes existing typed estimate = .ok lines) : LinesPlaced lines := by
  unfold linesOf at h
  split_ifs at h with htyped
  · obtain ⟨hnum, heach⟩ := placed_of_orderLines hexi h
    refine ⟨fun hnil => htyped ?_, ?_, heach⟩
    · have hlength := congrArg length hnum
      rw [length_map, length_range', hnil] at hlength
      exact eq_nil_of_length_eq_zero hlength.symm
    · rw [hnum]
      exact nodup_range'
  · cases hfrom : estimate with
    | none =>
      rw [hfrom] at h
      cases h
    | some e =>
      rw [hfrom] at h
      obtain rfl := ok.inj h
      obtain ⟨hsome, horder⟩ := hest e hfrom
      exact placed_of_estimate hsome horder

theorem acceptedEstimate_eq_some {estimates : Estimates.EstimateStore} {tenant : TenantId}
    {id : String} {e : Estimates.EstimateRecord}
    (h : acceptedEstimate estimates tenant id = .ok (some e)) : estimates.get tenant id = some e := by
  unfold acceptedEstimate at h
  split_ifs at h
  · cases ok.inj h
  · split at h
    · cases h
    · rename_i found hfound
      split_ifs at h
      rw [hfound, ok.inj h]

omit [PeriodStore π] in
/-- An order that is saved is placed, where no order on file has less than nothing invoiced and
estimates have lines of some quantity each. -/
theorem placed_of_save {tenant : TenantId} {chart : ChartOfAccounts} {input : SalesOrderInput}
    {s : SalesStores π} {o : SalesOrderRecord}
    (hord : ∀ id e, s.orders.get tenant id = some e → ∀ l ∈ e.lines, 0 ≤ l.invoicedMilli)
    (hests : ∀ id e, s.estimates.get tenant id = some e →
      e.lines ≠ [] ∧ ∀ l ∈ e.lines, 0 < l.quantityMilli)
    (h : salesOrderOf tenant chart input s = .ok o) : o.Placed := by
  unfold salesOrderOf at h
  obtain ⟨estimate, hest, h⟩ := bind_eq_ok.mp h
  obtain ⟨-, h⟩ := refuse_bind_eq_ok.mp h
  obtain ⟨-, h⟩ := refuse_bind_eq_ok.mp h
  obtain ⟨-, h⟩ := refuse_bind_eq_ok.mp h
  obtain ⟨date, -, h⟩ := bind_eq_ok.mp h
  obtain ⟨requested, -, h⟩ := bind_eq_ok.mp h
  obtain ⟨-, h⟩ := refuse_bind_eq_ok.mp h
  obtain ⟨hunin, h⟩ := refuse_bind_eq_ok.mp h
  obtain ⟨lines, hlines, h⟩ := bind_eq_ok.mp h
  obtain rfl := ok.inj h
  have hplac : LinesPlaced lines := by
    refine placed_of_linesOf (fun e he l hl => ?_) (fun e he => ?_) hlines
    · refine le_antisymm (not_lt.mp fun hpos => hunin ?_) (hord _ e he l hl)
      rw [he, Option.any_some, any_eq_true]
      exact ⟨l, hl, decide_eq_true hpos⟩
    · rw [he] at hest
      exact hests _ e (acceptedEstimate_eq_some hest)
  constructor <;> dsimp only
  · exact hplac.some
  · exact hplac.distinct
  · exact fun l hl => (hplac.each l hl).1
  · exact fun l hl => (hplac.each l hl).2

def SalesOrderLineRecord.extendedPrice (l : SalesOrderLineRecord) : Int :=
  mulDiv l.quantityMilli l.unitPriceMinor milli

theorem statusFor_complete_iff {status : SalesOrderStatus} {lines : List SalesOrderLineRecord}
    (hlive : status ≠ .cancelled) (h : ∀ l ∈ lines, l.invoicedMilli = l.quantityMilli) :
    statusFor status lines = .fulfilled ↔ status ≠ .closed := by
  have hall : (lines.all fun l => l.quantityMilli ≤ l.invoicedMilli) = true := by
    rw [all_eq_true]
    exact fun l hl => decide_eq_true (h l hl).ge
  unfold statusFor
  by_cases hclo : status = .closed
  · rw [if_pos (.inr hclo), hclo]
    decide
  · rw [if_neg (not_or.mpr ⟨hlive, hclo⟩), if_pos hall]
    exact iff_of_true rfl hclo

/-- Over every run of invoice requests, no line of an order is invoiced for more than was ordered;
and where all of it has been invoiced, the order is fulfilled and each line billed at its extended
price exactly when the order was not closed and what rounding has left of the shares of a line comes
to no more than half a unit. -/
theorem order_billed_exactly_iff {s : SalesStores π} {t : TenantId} {id : String}
    {o : SalesOrderRecord} (ho : s.orders.get t id = some o) (hplaced : o.Placed)
    (rs : List InvoiceCall) :
    Along step (fun s' => ∀ o', s'.orders.get t id = some o' →
      ∀ l ∈ o'.lines, l.invoicedMilli ≤ l.quantityMilli) s rs ∧
    ∀ o', (rs.foldl step s).orders.get t id = some o' →
      (∀ l ∈ o'.lines, l.invoicedMilli = l.quantityMilli) →
      ((o'.status = .fulfilled ∧
          ∀ l ∈ o'.lines, runTotal (billed t id l.lineNo) s rs = l.extendedPrice) ↔
        o.status ≠ .closed ∧ ∀ l ∈ o.lines,
          -500 ≤ runTotal (rest t id l) s rs ∧ runTotal (rest t id l) s rs < 500) := by
  constructor
  · intro pre _ o' ho' l' hl'
    obtain ⟨⟨o₁, ho₁, hdraw⟩, hshar⟩ := run_order ho hplaced.distinct pre
    obtain rfl := Option.some.inj (ho₁.symm.trans ho')
    rw [hdraw.lines] at hl'
    obtain ⟨l, hl, rfl⟩ := mem_map.mp hl'
    have hwin := (hshar l hl).within
    have hpos := hplaced.ordered l hl
    have hnone := hplaced.uninvoiced l hl
    simp only [remaining, draw] at hwin ⊢
    omega
  · intro o' ho' hcomp
    obtain ⟨⟨o₁, ho₁, hdraw⟩, hshar⟩ := run_order ho hplaced.distinct rs
    obtain rfl := Option.some.inj (ho₁.symm.trans ho')
    have htaken : ∀ l ∈ o.lines, runTotal (drawn t id l.lineNo) s rs = l.quantityMilli := by
      intro l hl
      have hmem : l.draw (runTotal (drawn t id l.lineNo) s rs) ∈ o₁.lines := by
        rw [hdraw.lines]
        exact mem_map_of_mem hl
      have hline := hcomp _ hmem
      simp only [draw, hplaced.uninvoiced l hl, zero_add] at hline
      exact hline
    have hstatus : o₁.status = .fulfilled ↔ o.status ≠ .closed := by
      rcases hdraw.status with ⟨-, hnone⟩ | ⟨hlive, hstatus⟩
      · obtain ⟨l, hl⟩ := exists_mem_of_ne_nil _ hplaced.lines
        have hpos := hplaced.ordered l hl
        rw [← htaken l hl, hnone] at hpos
        exact absurd hpos (lt_irrefl 0)
      · rw [hstatus]
        exact statusFor_complete_iff hlive hcomp
    have hexact : ∀ l ∈ o.lines,
        (runTotal (billed t id l.lineNo) s rs = l.extendedPrice ↔
          -500 ≤ runTotal (rest t id l) s rs ∧ runTotal (rest t id l) s rs < 500) := by
      intro l hl
      have hshare := hshar l hl
      exact shares_exact_iff (htaken l hl ▸ rfl) hshare.worth hshare.exact_
    rw [hstatus, hdraw.lines, forall_mem_map]
    exact and_congr Iff.rfl (forall₂_congr hexact)

end

/-! An order of one yard, invoiced in two halves. -/

namespace Halves

def chart : ChartOfAccounts :=
  (ChartOfAccounts.ofAccounts
    [Kernel.Sample.account "cash" "1000" .asset, Kernel.Sample.account "ar" "1200" .asset,
      Kernel.Sample.account "sales" "4000" .revenue]).toOption.getD .empty

def context : ArApContext := ⟨"acme", chart, usd, "2026-08-01", none, fun a b => a ≤ b⟩

def yard (unitPriceMinor : Int) : SalesOrderRecord where
  id := "SO-1"
  customerId := "harper"
  jobId := ""
  estimateId := ""
  date := "2026-06-01"
  requestedDate := ""
  status := .opened
  taxRatePpm := some 0
  memo := ""
  lines := [⟨1, "Trim", "", 1000, 0, unitPriceMinor, "4000", true⟩]

def ordered (unitPriceMinor : Int) : SalesStores (InMemoryPeriodStore TenantId PeriodKey) where
  books := ⟨⟨.empty, .empty⟩,
    InMemoryDocumentStore.empty.upsertParty "acme" .customer ⟨"harper", "Harper", none⟩⟩
  jobs := .empty
  estimates := .empty
  orders := SalesOrderStore.empty.save "acme" (yard unitPriceMinor)

def half (invoiceId : String) : InvoiceCall :=
  ⟨context, "SO-1", ⟨some invoiceId, some "2026-08-01", none, none,
    some [⟨some (some 1), some (.text "500")⟩]⟩⟩

def halves : List InvoiceCall := [half "INV-1", half "INV-2"]

theorem placed_yard (unitPriceMinor : Int) : (yard unitPriceMinor).Placed where
  lines := cons_ne_nil _ _
  distinct := nodup_singleton _
  ordered l hl := by
    rw [mem_singleton.mp hl]
    show (0 : Int) < 1000
    decide
  uninvoiced l hl := by
    rw [mem_singleton.mp hl]

end Halves

open Halves in
theorem yard_at_hundred_is_billed_exactly : ∃ o',
    (halves.foldl step (ordered 100)).orders.get "acme" "SO-1" = some o' ∧
      o'.status = .fulfilled ∧
        ∀ l ∈ o'.lines, runTotal (billed "acme" "SO-1" l.lineNo) (ordered 100) halves =
          l.extendedPrice := by
  have hsome : ((halves.foldl step (ordered 100)).orders.get "acme" "SO-1").isSome = true := by
    decide +kernel
  obtain ⟨o', ho'⟩ := Option.isSome_iff_exists.mp hsome
  have hcomp : ((halves.foldl step (ordered 100)).orders.get "acme" "SO-1").all
      (fun o => o.lines.all fun l => l.invoicedMilli = l.quantityMilli) = true := by decide +kernel
  rw [ho', Option.all_some, all_eq_true] at hcomp
  have hrest : (yard 100).lines.all (fun l =>
      (-500 ≤ runTotal (rest "acme" "SO-1" l) (ordered 100) halves : Bool) &&
        (runTotal (rest "acme" "SO-1" l) (ordered 100) halves < 500 : Bool)) = true := by
    decide +kernel
  rw [all_eq_true] at hrest
  have hexact := (order_billed_exactly_iff (by decide +kernel) (placed_yard 100) halves).2 o'
    ho' fun l hl => of_decide_eq_true (hcomp l hl)
  refine ⟨o', ho', hexact.mpr ⟨nofun, fun l hl => ?_⟩⟩
  simpa using hrest l hl

open Halves in
theorem yard_at_one_is_billed_twice : ¬ ∀ o',
    (halves.foldl step (ordered 1)).orders.get "acme" "SO-1" = some o' →
      (∀ l ∈ o'.lines, l.invoicedMilli = l.quantityMilli) →
      o'.status = .fulfilled ∧
        ∀ l ∈ o'.lines, runTotal (billed "acme" "SO-1" l.lineNo) (ordered 1) halves =
          l.extendedPrice := by
  intro h
  have hend : ((halves.foldl step (ordered 1)).orders.get "acme" "SO-1").map
      SalesOrderRecord.lines = some [⟨1, "Trim", "", 1000, 1000, 1, "4000", true⟩] := by
    decide +kernel
  have hbil : runTotal (billed "acme" "SO-1" 1) (ordered 1) halves = 2 := by decide +kernel
  obtain ⟨o', ho', hlines⟩ := Option.map_eq_some_iff.mp hend
  have hall := h o' ho'
  rw [hlines] at hall
  have hexact := (hall fun l hl => by rw [mem_singleton.mp hl]).2 _ (mem_singleton_self _)
  rw [hbil] at hexact
  exact absurd hexact (by decide)

end Rgnr8.Service.SalesOrders
