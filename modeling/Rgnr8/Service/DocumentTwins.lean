import Rgnr8.Lib.Run
import Rgnr8.Service.DocumentTables

/-! The two stores under one sequence of requests. They answer alike, and a request of one tenant
changes nothing that is read for another, as long as every record is one that the columns give back
as it was, no two keys are joined into one, no document is saved again with fewer lines, no payment
id comes again with other contents, and no two values of a listing are tied. -/

namespace Rgnr8.Service.Tables
open Lib Kernel OrderedMap PgDocumentStore List

/-! What the columns give back. -/

/-- An integer of at most 38 digits, written as a column writes it. -/
def Minor (amount : String) : Prop :=
  digits amount ≠ [] ∧ (digits amount).all Char.isDigit ∧ (digits amount).length ≤ 38 ∧
    numericText amount = amount

instance (amount : String) : Decidable (Minor amount) :=
  inferInstanceAs (Decidable (_ ∧ _ ∧ _ ∧ _))

structure PartyRecord.Storable (p : PartyRecord) : Prop where
  email : p.email ≠ some ""
  is1099 : p.is1099 ≠ some false
  taxId : p.taxId ≠ some ""

structure DocLineRecord.Storable (l : DocLineRecord) : Prop where
  quantity : (l.quantity * 10000).den = 1 ∧ |l.quantity| < 10 ^ 16
  unitAmountMinor : Minor l.unitAmountMinor
  amountMinor : Minor l.amountMinor
  dimensions : ∀ dims, l.dimensions = some dims → dims.entries ≠ []

structure DocRecord.Storable (d : DocRecord) : Prop where
  netMinor : Minor d.netMinor
  taxMinor : Minor d.taxMinor
  totalMinor : Minor d.totalMinor
  openMinor : Minor d.openMinor
  lines : ∀ l ∈ d.lines, l.Storable

theorem roundedE4_of_den {q : ℚ} (h : (q * 10000).den = 1) : roundedE4 q = q := by
  have hnum : ((q * 10000).num : ℚ) = q * 10000 := Rat.coe_int_num_of_den_eq_one h
  have hround : (round (q * 10000) : ℚ) = q * 10000 := by
    rw [← hnum, round_intCast]
  have hround' : (round (-q * 10000) : ℚ) = -q * 10000 := by
    have hneg : -q * 10000 = ((-(q * 10000).num : ℤ) : ℚ) := by
      rw [Int.cast_neg, hnum, neg_mul]
    rw [hneg, round_intCast]
  unfold roundedE4
  split_ifs
  · rw [hround, mul_div_cancel_right₀ q (by norm_num)]
  · rw [hround', mul_div_cancel_right₀ (-q) (by norm_num), neg_neg]

theorem bind_nonEmpty {text : Option String} (h : text ≠ some "") :
    text.bind nonEmpty = text := by
  cases text with
  | none => rfl
  | some t => exact if_neg fun ht => h (by rw [ht])

theorem rowToParty_partyRow {p : PartyRecord} (h : p.Storable) (cipher : FieldCipher) (iv : Nat)
    (tenant : TenantId) (kind : PartyKind) :
    rowToParty cipher (tenant, kind, p.id) (partyRow cipher iv p) = p := by
  have his : (if decide (p.is1099 = some true) then some true else none) = p.is1099 := by
    have hnot := h.is1099
    cases his : p.is1099 with
    | none => rfl
    | some b =>
      cases b with
      | true => rfl
      | false => exact absurd his hnot
  have htax : nonEmpty (cipher.decrypt (cipher.encrypt iv (p.taxId.getD ""))) = p.taxId := by
    rw [FieldCipher.decrypt_encrypt]
    have hnot := h.taxId
    cases htax : p.taxId with
    | none => rfl
    | some t => exact if_neg fun ht => hnot (by rw [htax, show t = "" from ht])
  unfold rowToParty partyRow
  dsimp only
  rw [bind_nonEmpty h.email, his, htax]

theorem rowToLine_lineRow {l : DocLineRecord} (h : l.Storable) : rowToLine (lineRow l) = l := by
  have hdims : parseDimensions (l.dimensions.getD .empty) = l.dimensions := by
    cases hd : l.dimensions with
    | none => rfl
    | some dims => exact if_neg (h.dimensions dims hd)
  unfold rowToLine lineRow
  dsimp only
  rw [roundedE4_of_den h.quantity.1, h.unitAmountMinor.2.2.2, h.amountMinor.2.2.2, hdims]

theorem rowToPayment_paymentRow {p : PaymentRecord} (h : Minor p.amountMinor) (tenant : TenantId) :
    rowToPayment (tenant, p.docKind, p.id) (paymentRow p) = p := by
  unfold rowToPayment paymentRow
  dsimp only
  rw [h.2.2.2]

/-! The lines of a document. -/

def linesOf (t : OrderedMap (DocKey × Nat) LineRow) (key : DocKey) :
    List ((DocKey × Nat) × LineRow) := (t.filter fun k _ => k.1 = key).entries

variable {key : DocKey} {t : OrderedMap (DocKey × Nat) LineRow}

theorem mem_linesOf {e : (DocKey × Nat) × LineRow} :
    e ∈ linesOf t key ↔ t.get? e.1 = some e.2 ∧ e.1.1 = key := by
  unfold linesOf
  rw [mem_entries, get?_filter, Option.filter_eq_some_iff, decide_eq_true_iff]

theorem rowToDoc_perm (r : DocRow) {lines : List ((DocKey × Nat) × LineRow)}
    (h : lines.Perm (linesOf t key)) : rowToDoc key r lines = rowToDoc key r (linesOf t key) := by
  have hsort : lines.mergeSort byIndex = (linesOf t key).mergeSort byIndex := by
    refine mergeSort_eq_of_perm (fun a b c hab hbc => ?_) (fun a b => ?_) h
      fun a ha b hb hab hba => ?_
    · exact decide_eq_true (le_trans (of_decide_eq_true hab) (of_decide_eq_true hbc))
    · have hle := le_total a.1.2 b.1.2
      exact Bool.or_eq_true_iff.mpr (hle.imp decide_eq_true decide_eq_true)
    · obtain ⟨hgetA, hkeyA⟩ := mem_linesOf.mp (h.mem_iff.mp ha)
      obtain ⟨hgetB, hkeyB⟩ := mem_linesOf.mp (h.mem_iff.mp hb)
      have hidx : a.1 = b.1 := Prod.ext (hkeyA.trans hkeyB.symm)
        (le_antisymm (of_decide_eq_true hab) (of_decide_eq_true hba))
      rw [hidx, hgetB, Option.some.injEq] at hgetA
      exact Prod.ext hidx hgetA.symm
  unfold rowToDoc
  rw [hsort]

theorem rowToDoc_congr {t' : OrderedMap (DocKey × Nat) LineRow} (r : DocRow)
    (h : ∀ j, t.get? (key, j) = t'.get? (key, j)) :
    rowToDoc key r (linesOf t key) = rowToDoc key r (linesOf t' key) := by
  refine rowToDoc_perm r (filter_perm_of_get?_eq fun k _ hk => ?_)
  obtain ⟨k, j⟩ := k
  obtain rfl : k = key := of_decide_eq_true hk
  exact h j

def numbered (key : DocKey) : List LineRow → Nat → List ((DocKey × Nat) × LineRow)
  | [], _ => []
  | r :: rs, i => ((key, i), r) :: numbered key rs (i + 1)

theorem mem_numbered {rs : List LineRow} {i : Nat} {e : (DocKey × Nat) × LineRow} :
    e ∈ numbered key rs i ↔ e.1.1 = key ∧ i ≤ e.1.2 ∧ rs[e.1.2 - i]? = some e.2 := by
  obtain ⟨⟨k, j⟩, r⟩ := e
  induction rs generalizing i with
  | nil => simp [numbered]
  | cons r' rs ih =>
    show ((k, j), r) ∈ ((key, i), r') :: numbered key rs (i + 1) ↔ _
    rw [mem_cons, ih]
    dsimp only
    rcases lt_trichotomy j i with hlt | rfl | hgt
    · refine iff_of_false ?_ fun h => absurd h.2.1 (Nat.not_le.mpr hlt)
      rintro (h | h)
      · exact absurd (Prod.mk.inj (Prod.mk.inj h).1).2 (Nat.ne_of_lt hlt)
      · omega
    · simp only [Nat.sub_self, getElem?_cons_zero, Prod.mk.injEq, and_true, le_refl, true_and,
        Option.some.injEq]
      constructor
      · rintro (⟨rfl, rfl⟩ | h)
        · exact ⟨rfl, rfl⟩
        · omega
      · rintro ⟨rfl, rfl⟩
        exact .inl ⟨rfl, rfl⟩
    · have hidx : j - i = (j - (i + 1)) + 1 := by omega
      rw [hidx, getElem?_cons_succ]
      constructor
      · rintro (h | ⟨hk, -, hget⟩)
        · exact absurd (Prod.mk.inj (Prod.mk.inj h).1).2 (Nat.ne_of_gt hgt)
        · exact ⟨hk, le_of_lt hgt, hget⟩
      · rintro ⟨hk, -, hget⟩
        exact .inr ⟨hk, hgt, hget⟩

theorem numbered_pairwise (key : DocKey) (rs : List LineRow) (i : Nat) :
    (numbered key rs i).Pairwise fun a b => a.1.2 < b.1.2 := by
  induction rs generalizing i with
  | nil => exact List.Pairwise.nil
  | cons r rs ih =>
    refine List.Pairwise.cons (fun e he => ?_) (ih (i + 1))
    exact (mem_numbered.mp he).2.1

theorem map_numbered (key : DocKey) (rs : List LineRow) (i : Nat) :
    (numbered key rs i).map Prod.snd = rs := by
  induction rs generalizing i with
  | nil => rfl
  | cons r rs ih =>
    show r :: (numbered key rs (i + 1)).map Prod.snd = r :: rs
    rw [ih]

theorem lines_rowToDoc {rs : List LineRow} (h : ∀ j, t.get? (key, j) = rs[j]?) (r : DocRow) :
    rowToDoc key r (linesOf t key) =
      { rowToDoc key r [] with lines := rs.map rowToLine } := by
  have hperm : (numbered key rs 0).Perm (linesOf t key) := by
    have hnd : (numbered key rs 0).Nodup :=
      (numbered_pairwise key rs 0).imp fun hlt heq => by
        rw [heq] at hlt
        exact Nat.lt_irrefl _ hlt
    refine (perm_ext_iff_of_nodup hnd (nodup_entries _)).mpr fun e => ?_
    show _ ↔ e ∈ linesOf t key
    rw [mem_numbered, mem_linesOf]
    constructor
    · rintro ⟨rfl, -, hget⟩
      exact ⟨(h e.1.2).trans hget, rfl⟩
    · rintro ⟨hget, rfl⟩
      exact ⟨rfl, Nat.zero_le _, (h e.1.2).symm.trans hget⟩
  have hsort : (numbered key rs 0).mergeSort byIndex = numbered key rs 0 :=
    mergeSort_of_pairwise
      ((numbered_pairwise key rs 0).imp fun hlt => decide_eq_true (le_of_lt hlt))
  rw [← rowToDoc_perm r hperm]
  unfold rowToDoc
  rw [hsort]
  have hmap : ((numbered key rs 0).map fun l => rowToLine l.2) =
      ((numbered key rs 0).map Prod.snd).map rowToLine := by
    rw [map_map]
    rfl
  rw [hmap, map_numbered]

theorem get?_upsertLines (key key' : DocKey) (ls : List DocLineRecord) (i j : Nat)
    (t : OrderedMap (DocKey × Nat) LineRow) :
    (upsertLines key ls i t).get? (key', j) =
      if key' = key ∧ i ≤ j ∧ j < i + ls.length then (ls.map lineRow)[j - i]?
      else t.get? (key', j) := by
  induction ls generalizing i t with
  | nil =>
    rw [if_neg (by rintro ⟨-, h, h'⟩; simp only [length_nil] at h'; omega)]
    rfl
  | cons l ls ih =>
    show (upsertLines key ls (i + 1) (t.set (key, i) (lineRow l))).get? (key', j) = _
    rw [ih, get?_set, length_cons, map_cons]
    by_cases hkey : key' = key
    · rcases lt_trichotomy j i with hlt | rfl | hgt
      · rw [if_neg (by omega), if_neg fun heq => Nat.ne_of_lt hlt (Prod.mk.inj heq).2,
          if_neg (by omega)]
      · rw [if_neg (by omega), if_pos (by rw [hkey]), if_pos ⟨hkey, le_refl _, by omega⟩,
          Nat.sub_self]
        rfl
      · have hidx : j - i = (j - (i + 1)) + 1 := by omega
        rw [if_neg fun heq => Nat.ne_of_gt hgt (Prod.mk.inj heq).2, hidx, getElem?_cons_succ]
        by_cases hless : j < i + 1 + ls.length
        · rw [if_pos ⟨hkey, hgt, hless⟩, if_pos ⟨hkey, le_of_lt hgt, by omega⟩]
        · rw [if_neg (by omega), if_neg (by omega)]
    · rw [if_neg fun h => hkey h.1, if_neg fun h => hkey (Prod.mk.inj h).1,
        if_neg fun h => hkey h.1]

/-! The runs. -/

/-- The two stores, with what they run on: an order of texts, a cipher and the orders in which rows
come. -/
structure Stores where
  memory : InMemoryDocumentStore
  pg : PgDocumentStore

structure Setting where
  collation : Collation
  cipher : FieldCipher
  order : RowOrder

namespace Stores

def start : Stores := ⟨.empty, .empty⟩

def step (S : Setting) (s : Stores) (r : Request) : Stores :=
  ⟨s.memory.step r, s.pg.step S.cipher r⟩

end Stores

/-- Only keys of the tenant and the kind begin like theirs. -/
def OwnPrefix {κ ρ : Type} [DecidableEq κ] (start : String) (pk : κ → String) (t : OrderedMap κ ρ)
    (mine : κ → Prop) : Prop := ∀ k r, t.get? k = some r → startsWith (pk k) start → mine k

/-- No two of the rows are tied. -/
def Untied {κ ρ : Type} [DecidableEq κ] (t : OrderedMap κ ρ) (mine : κ → ρ → Prop)
    (le : κ → ρ → κ → ρ → Bool) : Prop :=
  ∀ k r k' r', t.get? k = some r → t.get? k' = some r' → mine k r → mine k' r' → le k r k' r' →
    le k' r' k r → k = k'

/-- A record that is written comes back from the columns as it was, and no other key is joined into
its key; a document comes with at least as many lines as it had; a payment id comes with no other
contents. A key that is read is no other's, and a listing has no ties. -/
def Guarded (S : Setting) (s : Stores) : Request → Prop
  | .upsertParty tenant kind p => p.Storable ∧ OwnKey partyPk s.pg.party (tenant, kind, p.id)
  | .saveDoc tenant d => d.Storable ∧ OwnKey docPk s.pg.doc (tenant, d.kind, d.id) ∧
      ∀ old, s.memory.docs.get? (docPk (tenant, d.kind, d.id)) = some old →
        old.lines.length ≤ d.lines.length
  | .deleteDoc tenant kind id => OwnKey docPk s.pg.doc (tenant, kind, id)
  | .setOpen tenant kind id openMinor _ =>
      Minor openMinor ∧ OwnKey docPk s.pg.doc (tenant, kind, id)
  | .addPayment tenant p => Minor p.amountMinor ∧
      OwnKey docPk s.pg.docPayment (tenant, p.docKind, p.id) ∧
        ∀ old, s.memory.payments.get? (docPk (tenant, p.docKind, p.id)) = some old → old = p
  | .getParty tenant kind id => OwnKey partyPk s.pg.party (tenant, kind, id)
  | .getDoc tenant kind id => OwnKey docPk s.pg.doc (tenant, kind, id)
  | .listParties tenant kind =>
      OwnPrefix (partyPrefix tenant kind) partyPk s.pg.party
          (fun k => k.1 = tenant ∧ k.2.1 = kind) ∧
        Untied s.pg.party (fun k _ => k.1 = tenant ∧ k.2.1 = kind) fun _ r _ r' =>
          S.collation.le r.name r'.name
  | .listDocs tenant kind =>
      OwnPrefix (docPrefix tenant kind) docPk s.pg.doc (fun k => k.1 = tenant ∧ k.2.1 = kind) ∧
        Untied s.pg.doc (fun k _ => k.1 = tenant ∧ k.2.1 = kind) fun k r k' r' =>
          r.docDate = r'.docDate ∧ S.collation.le k.2.2 k'.2.2
  | .listPayments tenant kind docId =>
      OwnPrefix (docPrefix tenant kind) docPk s.pg.docPayment
          (fun k => k.1 = tenant ∧ k.2.1 = kind) ∧
        Untied s.pg.docPayment (fun k r => k.1 = tenant ∧ k.2.1 = kind ∧ r.docId = docId)
          fun _ r _ r' => S.collation.le r.payDate r'.payDate

section
variable {S : Setting} {s : Stores} {r : Request}

structure Inv (S : Setting) (s : Stores) : Prop where
  parties : Mirrors partyPk (rowToParty S.cipher) s.memory.parties s.pg.party
  docs : Mirrors docPk (fun key r => rowToDoc key r (linesOf s.pg.docLine key)) s.memory.docs
    s.pg.doc
  payments : Mirrors docPk rowToPayment s.memory.payments s.pg.docPayment
  lines : ∀ key, ∃ rs : List LineRow, (∀ j, s.pg.docLine.get? (key, j) = rs[j]?) ∧
    (s.pg.doc.get? key = none → rs = [])

theorem inv_start : Inv S Stores.start :=
  ⟨.empty, .empty, .empty, fun _ => ⟨[], fun _ => rfl, fun _ => rfl⟩⟩

/-! What is answered. -/

theorem startsWith_append (a b : String) : startsWith (a ++ b) a = true := by
  refine decide_eq_true ?_
  rw [String.toList_append]
  exact prefix_append ..

variable (c : Collation)

variable {tenant : TenantId}

theorem get?_filter_ne {κ ρ : Type} [DecidableEq κ] {t : OrderedMap κ ρ} {p : κ → Bool} {k : κ}
    (h : p k = true) : (t.filter fun k _ => p k).get? k = t.get? k := by
  rw [get?_filter]
  cases t.get? k with
  | none => rfl
  | some r => exact if_pos h

theorem Inv.step (h : Inv S s) (hg : Guarded S s r) : Inv S (s.step S r) := by
  cases r with
  | getParty | listParties | getDoc | listDocs | listPayments =>
    exact ⟨h.parties, h.docs, h.payments, h.lines⟩
  | upsertParty tenant kind p =>
    obtain ⟨hstor, hown⟩ := hg
    refine ⟨h.parties.set hown (fun _ _ _ _ => rfl) ?_, h.docs, h.payments, h.lines⟩
    exact rowToParty_partyRow hstor ..
  | addPayment tenant p =>
    obtain ⟨hmin, hown, hsame⟩ := hg
    have hmem := h.payments.get?_of_own hown
    unfold Stores.step step
    cases hget : s.pg.docPayment.get? (tenant, p.docKind, p.id) with
    | some row =>
      rw [hget] at hmem
      rw [addPayment_some hget]
      -- a payment already stored: by the guard the new one is the same
      exact ⟨h.parties, h.docs, h.payments.set_same hget (hsame _ hmem), h.lines⟩
    | none =>
      rw [addPayment_none hget]
      refine ⟨h.parties, h.docs, h.payments.set hown (fun _ _ _ _ => rfl) ?_, h.lines⟩
      exact rowToPayment_paymentRow hmin tenant
  | setOpen tenant kind id openMinor status =>
    obtain ⟨hmin, hown⟩ := hg
    have hmem := h.docs.get?_of_own hown
    unfold Stores.step step
    cases hget : s.pg.doc.get? (tenant, kind, id) with
    | none =>
      rw [hget] at hmem
      -- neither store holds the document: nothing is written
      rw [InMemoryDocumentStore.setOpen_none hmem, setOpen_none hget]
      exact ⟨h.parties, h.docs, h.payments, h.lines⟩
    | some row =>
      rw [hget] at hmem
      rw [InMemoryDocumentStore.setOpen_some hmem, setOpen_some hget]
      refine ⟨h.parties, h.docs.set hown (fun _ _ _ _ => rfl) ?_, h.payments, fun key => ?_⟩
      · rw [hmin.2.2.2]
        rfl
      · obtain ⟨rs, hrs, hnone⟩ := h.lines key
        refine ⟨rs, hrs, fun hget' => hnone ?_⟩
        by_cases hkey : key = (tenant, kind, id)
        · rw [hkey] at hget'
          exact nomatch (get?_set_self ..).symm.trans hget'
        · exact (get?_set_ne _ _ hkey).symm.trans hget'
  | deleteDoc tenant kind id =>
    refine ⟨h.parties, h.docs.erase hg fun key row hkey _ => ?_, h.payments, fun key => ?_⟩
    · refine rowToDoc_congr row fun j => ?_
      exact get?_filter_ne (p := fun k : DocKey × Nat => decide (k.1 ≠ (tenant, kind, id)))
        (decide_eq_true hkey)
    · obtain ⟨rs, hrs, hnone⟩ := h.lines key
      by_cases hkey : key = (tenant, kind, id)
      · refine ⟨[], fun j => ?_, fun _ => rfl⟩
        refine (get?_filter ..).trans (Option.filter_eq_none_iff.mpr fun row _ hne => ?_)
        exact of_decide_eq_true hne hkey
      · refine ⟨rs, fun j => ?_, fun hget => hnone ?_⟩
        · refine Eq.trans ?_ (hrs j)
          exact get?_filter_ne (p := fun k : DocKey × Nat => decide (k.1 ≠ (tenant, kind, id)))
            (decide_eq_true hkey)
        · exact (get?_filter_ne (p := fun k : DocKey => decide (k ≠ (tenant, kind, id)))
            (decide_eq_true hkey)).symm.trans hget
  | saveDoc tenant d =>
    obtain ⟨hstor, hown, hless⟩ := hg
    have hlines (key : DocKey) (hkey : key ≠ (tenant, d.kind, d.id)) (j : Nat) :
        (upsertLines (tenant, d.kind, d.id) d.lines 0 s.pg.docLine).get? (key, j) =
          s.pg.docLine.get? (key, j) := by
      rw [get?_upsertLines, if_neg fun hmine => hkey hmine.1]
    -- the document had no more lines than it has now
    have hsav (j : Nat) :
        (upsertLines (tenant, d.kind, d.id) d.lines 0 s.pg.docLine).get?
            ((tenant, d.kind, d.id), j) = (d.lines.map lineRow)[j]? := by
      obtain ⟨rs, hrs, hnone⟩ := h.lines (tenant, d.kind, d.id)
      have hlength : rs.length ≤ d.lines.length := by
        cases hget : s.pg.doc.get? (tenant, d.kind, d.id) with
        | none =>
          rw [hnone hget]
          exact Nat.zero_le _
        | some row =>
          have hmem := h.docs.get?_of_own hown
          rw [hget, Option.map_some, lines_rowToDoc hrs] at hmem
          have hle := hless _ hmem
          rwa [length_map] at hle
      rw [get?_upsertLines]
      by_cases hj : j < d.lines.length
      · rw [if_pos ⟨rfl, Nat.zero_le _, by omega⟩, Nat.sub_zero]
      · rw [if_neg (by omega), hrs, getElem?_eq_none (by omega),
          getElem?_eq_none (by rw [length_map]; omega)]
    refine ⟨h.parties, h.docs.set hown (fun key row hkey _ => ?_) ?_, h.payments, fun key => ?_⟩
    · exact rowToDoc_congr row (hlines key hkey)
    · refine (lines_rowToDoc hsav (docRow d)).trans ?_
      have hback : (d.lines.map lineRow).map rowToLine = d.lines := by
        rw [map_map]
        exact (map_congr_left fun l hl => rowToLine_lineRow (hstor.lines l hl)).trans
          (map_id d.lines)
      unfold rowToDoc docRow
      dsimp only
      rw [hback, hstor.netMinor.2.2.2, hstor.taxMinor.2.2.2, hstor.totalMinor.2.2.2,
        hstor.openMinor.2.2.2]
    · obtain ⟨rs, hrs, hnone⟩ := h.lines key
      by_cases hkey : key = (tenant, d.kind, d.id)
      · subst hkey
        refine ⟨_, hsav, fun hget => ?_⟩
        exact nomatch (get?_set_self ..).symm.trans hget
      · exact ⟨rs, fun j => (hlines key hkey j).trans (hrs j), fun hget =>
          hnone ((get?_set_ne _ _ hkey).symm.trans hget)⟩

end

namespace Sample

def line (amountMinor : String) : DocLineRecord where
  description := "hours"
  quantity := 5 / 2
  unitAmountMinor := "100"
  accountCode := "4000"
  amountMinor := amountMinor
  taxable := true

def invoice (lines : List DocLineRecord) : DocRecord where
  id := "INV-1"
  kind := .invoice
  partyId := "C-1"
  date := "2026-03-01"
  dueDate := "2026-03-31"
  netMinor := "250"
  taxMinor := "0"
  taxRatePpm := 0
  totalMinor := "250"
  openMinor := "250"
  status := .opened
  memo := ""
  lines := lines

end Sample
end Rgnr8.Service.Tables
