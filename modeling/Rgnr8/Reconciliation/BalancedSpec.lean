import Rgnr8.Reconciliation.MatchSpec

/-! What a balanced reconciliation says of its statement and its books, and when it says it rightly.
-/

namespace Rgnr8.Reconciliation
open Lib Kernel Fallible Money List

def total {α : Type} (amount : α → Money) (xs : List α) : Int :=
  (xs.map fun x => (amount x).minorUnits).sum

section
variable {items : List Money} {currency : Currency} {m sum : Money}

theorem foldlM_plus (h : items.foldlM Money.plus m = .ok sum) :
    sum.minorUnits = m.minorUnits + (items.map Money.minorUnits).sum := by
  induction items generalizing m with
  | nil =>
    rw [← Except.ok.inj h]
    exact (Int.add_zero _).symm
  | cons x items ih =>
    rw [foldlM_cons, bind_eq_ok] at h
    obtain ⟨m', hm', h⟩ := h
    have hcode : m.currency.code = x.currency.code := by
      by_contra hne
      rw [plus, if_pos hne] at hm'
      cases hm'
    rw [plus_of_code_eq hcode] at hm'
    rw [ih h, ← Except.ok.inj hm', map_cons, sum_cons, Int.add_assoc]

theorem minorUnits_sumMoney (h : sumMoney items currency = .ok sum) :
    sum.minorUnits = (items.map Money.minorUnits).sum := by
  cases items with
  | nil =>
    rw [← Except.ok.inj h]
    rfl
  | cons x items =>
    rw [foldlM_plus h, map_cons, sum_cons]

theorem exists_foldlM_plus (hcode : ∀ x ∈ items, x.currency.code = m.currency.code) :
    ∃ sum, items.foldlM Money.plus m = .ok sum ∧ sum.currency.code = m.currency.code := by
  induction items generalizing m with
  | nil => exact ⟨m, rfl, rfl⟩
  | cons x items ih =>
    rw [forall_mem_cons] at hcode
    rw [foldlM_cons, plus_of_code_eq hcode.1.symm]
    exact ih hcode.2

theorem exists_sumMoney (hcode : ∀ x ∈ items, x.currency.code = currency.code) :
    ∃ sum, sumMoney items currency = .ok sum ∧ sum.currency.code = currency.code := by
  cases items with
  | nil => exact ⟨_, rfl, rfl⟩
  | cons x items =>
    rw [forall_mem_cons] at hcode
    obtain ⟨sum, hsum, hsame⟩ := exists_foldlM_plus (m := x) fun y hy =>
      (hcode.2 y hy).trans hcode.1.symm
    exact ⟨sum, hsum, hsame.trans hcode.1⟩

theorem total_map {α : Type} (amount : α → Money) (xs : List α) :
    ((xs.map amount).map Money.minorUnits).sum = total amount xs := by
  rw [map_map]
  rfl

end

structure Right (statement : Statement) (bookItems : List BookItem) (recon : StatementReconciliation) :
    Prop where
  closing : statement.openingBalance.minorUnits + total StatementLine.amount statement.lines =
    statement.closingBalance.minorUnits
  lines : (recon.matched.map MatchPair.statement).Perm statement.lines
  items : ∀ p ∈ recon.matched, p.book ∈ bookItems
  once : (recon.matched.map fun p => p.book.id).Nodup
  amounts : ∀ p ∈ recon.matched, sameAmount p.statement p.book = true
  difference : recon.bookClosing.minorUnits - statement.closingBalance.minorUnits =
    total BookItem.amount recon.unmatchedBook

def ExternalAgree (lines : List StatementLine) (items : List BookItem) : Prop :=
  ∀ e s b, firstLine (sortedLines lines) e = some s →
    (indexed (sortedItems items)).get? e = some b → sameAmount s b = true

section
variable {statement : Statement} {bookItems : List BookItem} {windowDays : Nat}
variable {recon : StatementReconciliation}

/-- What a reconciliation that comes out has been made of. -/
structure Reconciled (statement : Statement) (bookItems : List BookItem) (windowDays : Nat)
    (recon : StatementReconciliation) : Prop where
  matched : recon.matched = (matchItems statement.lines bookItems windowDays).matched
  unmatchedBook : recon.unmatchedBook = (matchItems statement.lines bookItems windowDays).unmatchedBook
  bookClosing : recon.bookClosing.minorUnits =
    statement.openingBalance.minorUnits + total BookItem.amount bookItems
  balanced : recon.status = .balanced ↔
    statement.openingBalance.minorUnits + total StatementLine.amount statement.lines =
        statement.closingBalance.minorUnits ∧
      (matchItems statement.lines bookItems windowDays).unmatchedStatement = [] ∧
      recon.bookClosing.minorUnits - statement.closingBalance.minorUnits =
        total BookItem.amount recon.unmatchedBook

theorem minorUnits_plus {a b c : Money} (h : a.plus b = .ok c) :
    c.minorUnits = a.minorUnits + b.minorUnits ∧ c.currency = a.currency := by
  unfold plus at h
  split_ifs at h
  rw [← Except.ok.inj h]
  exact ⟨rfl, rfl⟩

theorem minorUnits_minus {a b c : Money} (h : a.minus b = .ok c) :
    c.minorUnits = a.minorUnits - b.minorUnits ∧ a.currency.code = b.currency.code := by
  unfold minus at h
  split_ifs at h with hcode
  rw [← Except.ok.inj h]
  exact ⟨rfl, not_not.mp hcode⟩

theorem reconciled (h : reconcileStatement statement bookItems windowDays = .ok recon) :
    Reconciled statement bookItems windowDays recon := by
  unfold reconcileStatement at h
  simp only [bind_eq_ok] at h
  obtain ⟨sumStatement, hlines, derived, hder, sumBook, hbook, bookClosing, hclos, difference,
    hdiff, timing, htim, residual, hresid, h⟩ := h
  have hlines := (minorUnits_sumMoney hlines).trans (total_map _ _)
  have hbook := (minorUnits_sumMoney hbook).trans (total_map _ _)
  have htim := (minorUnits_sumMoney htim).trans (total_map _ _)
  obtain ⟨hder, hccy⟩ := minorUnits_plus hder
  obtain ⟨hclos, hccy'⟩ := minorUnits_plus hclos
  obtain ⟨hdiff, hcode⟩ := minorUnits_minus hdiff
  obtain ⟨hresid, -⟩ := minorUnits_minus hresid
  have hsame : derived.currency.code = statement.closingBalance.currency.code := by
    rw [hccy, ← hcode, hccy']
  rw [← Except.ok.inj h]
  refine ⟨rfl, rfl, by rw [hclos, hbook], ?_⟩
  rw [← htim, ← hlines, ← hder]
  have hzero : residual.minorUnits = 0 ↔
      bookClosing.minorUnits - statement.closingBalance.minorUnits = timing.minorUnits := by omega
  simp only [hzero, hsame, true_and, decide_eq_true_iff, ite_eq_left_iff, reduceCtorEq, imp_false,
    not_not]

theorem sameAmount_iff {s : StatementLine} {b : BookItem} : sameAmount s b = true ↔
    s.amount.currency.code = b.amount.currency.code ∧ s.amount.minorUnits = b.amount.minorUnits :=
  decide_eq_true_iff

theorem right_iff (hids : (bookItems.map BookItem.id).Nodup)
    (h : reconcileStatement statement bookItems windowDays = .ok recon)
    (hbal : recon.status = .balanced) :
    Right statement bookItems recon ↔ ExternalAgree statement.lines bookItems := by
  have hr := reconciled h
  have hm := matched_matchItems hids statement.lines windowDays
  obtain ⟨hclos, hcomp, hdiff⟩ := hr.balanced.mp hbal
  constructor
  · intro hright e s b hline hidx
    obtain ⟨p, hp, rfl, rfl⟩ := hm.external e s b hline hidx
    exact hright.amounts p (hr.matched ▸ hp)
  · intro hagree
    have hlines := hm.ofLines
    rw [hcomp, append_nil] at hlines
    constructor
    case closing => exact hclos
    case lines => rwa [hr.matched]
    case items =>
      intro p hp
      rw [hr.matched] at hp
      exact hm.ofItems.mem_iff.mp (mem_append_left _ (mem_map_of_mem hp))
    case once =>
      rw [hr.matched]
      exact hm.once
    case amounts =>
      intro p hp
      rw [hr.matched] at hp
      rcases hm.pairs p hp with ⟨e, hline, hidx⟩ | hsame
      · exact hagree e _ _ hline hidx
      · exact hsame
    case difference => exact hdiff

structure OneCurrency (statement : Statement) (bookItems : List BookItem) : Prop where
  closing : statement.closingBalance.currency.code = statement.openingBalance.currency.code
  lines : ∀ s ∈ statement.lines, s.amount.currency.code = statement.openingBalance.currency.code
  items : ∀ b ∈ bookItems, b.amount.currency.code = statement.openingBalance.currency.code

theorem exists_reconciled (hids : (bookItems.map BookItem.id).Nodup)
    (hone : OneCurrency statement bookItems) (windowDays : Nat) :
    ∃ recon, reconcileStatement statement bookItems windowDays = .ok recon := by
  have hcodes : ∀ {α : Type} {amount : α → Money} {xs : List α},
      (∀ x ∈ xs, (amount x).currency.code = statement.openingBalance.currency.code) →
        ∀ m ∈ xs.map amount, m.currency.code = statement.openingBalance.currency.code := by
    intro α amount xs h m hm
    obtain ⟨x, hx, rfl⟩ := mem_map.mp hm
    exact h x hx
  have hunm : ∀ b ∈ (matchItems statement.lines bookItems windowDays).unmatchedBook,
      b.amount.currency.code = statement.openingBalance.currency.code := fun b hb =>
    hone.items b ((matched_matchItems hids statement.lines windowDays).ofItems.mem_iff.mp
      (mem_append_right _ hb))
  obtain ⟨sumStatement, hlines, hcode⟩ := exists_sumMoney (hcodes hone.lines)
  obtain ⟨sumBook, hbook, hcode'⟩ := exists_sumMoney (hcodes hone.items)
  obtain ⟨timing, htim, hcode''⟩ := exists_sumMoney (hcodes hunm)
  have hder := plus_of_code_eq hcode.symm
  have hclos := plus_of_code_eq hcode'.symm
  have hdiff := fun n => minus_of_code_eq
    (a := ⟨n, statement.openingBalance.currency⟩) hone.closing.symm
  have hresid := fun n => minus_of_code_eq
    (a := ⟨n, statement.openingBalance.currency⟩) hcode''.symm
  unfold reconcileStatement
  simp only [hlines, hder, hbook, hclos, hdiff, htim, hresid, bind, Except.bind]
  exact ⟨_, rfl⟩

/-! Statements whose lines all have an item of the same external id and amount. -/

section
variable {α β : Type} {f : α → Option β} {xs : List α}

theorem eq_of_nodup_filterMap (h : (xs.filterMap f).Nodup) {x y : α} {e : β} (hx : x ∈ xs)
    (hy : y ∈ xs) (hfx : f x = some e) (hfy : f y = some e) : x = y := by
  induction xs with
  | nil => exact absurd hx not_mem_nil
  | cons a xs ih =>
    rw [filterMap_cons] at h
    cases hfa : f a with
    | none =>
      rw [hfa] at h
      have hx := (mem_cons.mp hx).resolve_left fun ha => by
        rw [ha, hfa] at hfx
        cases hfx
      have hy := (mem_cons.mp hy).resolve_left fun ha => by
        rw [ha, hfa] at hfy
        cases hfy
      exact ih h hx hy
    | some b =>
      rw [hfa] at h
      obtain ⟨hnew, h⟩ := nodup_cons.mp h
      rcases mem_cons.mp hx with rfl | hx' <;> rcases mem_cons.mp hy with rfl | hy'
      · rfl
      · obtain rfl : b = e := Option.some.inj (hfa.symm.trans hfx)
        exact absurd (mem_filterMap.mpr ⟨y, hy', hfy⟩) hnew
      · obtain rfl : b = e := Option.some.inj (hfa.symm.trans hfy)
        exact absurd (mem_filterMap.mpr ⟨x, hx', hfx⟩) hnew
      · exact ih h hx' hy'

theorem nodup_of_filterMap (h : (xs.filterMap f).Nodup) (hsome : ∀ x ∈ xs, ∃ e, f x = some e) :
    xs.Nodup := by
  induction xs with
  | nil => exact .nil
  | cons a xs ih =>
    rw [forall_mem_cons] at hsome
    obtain ⟨⟨e, hfa⟩, hsome⟩ := hsome
    rw [filterMap_cons, hfa] at h
    obtain ⟨hnew, h⟩ := nodup_cons.mp h
    exact nodup_cons.mpr ⟨fun ha => hnew (mem_filterMap.mpr ⟨a, ha, hfa⟩), ih h hsome⟩

end

theorem firstLine_of_mem {lines : List StatementLine} {s : StatementLine} {e : String}
    (hs : s ∈ lines) (he : external s.externalId = some e)
    (honly : ∀ t ∈ lines, external t.externalId = some e → t = s) :
    firstLine lines e = some s := by
  cases hfst : firstLine lines e with
  | none =>
    exact absurd (decide_eq_true he) (find?_eq_none.mp hfst s hs)
  | some t =>
    have ht := find?_some hfst
    rw [honly t (mem_of_find?_eq_some hfst) (of_decide_eq_true ht)]

def Backed (lines : List StatementLine) (items : List BookItem) : Prop :=
  ∀ s ∈ lines, ∃ e, external s.externalId = some e ∧
    ∃ b ∈ items, external b.externalId = some e ∧ sameAmount s b = true

theorem balanced_of_backed (hids : (bookItems.map BookItem.id).Nodup)
    (hone : OneCurrency statement bookItems) (windowDays : Nat)
    (hcons : statement.openingBalance.minorUnits + total StatementLine.amount statement.lines =
      statement.closingBalance.minorUnits)
    (hlines : (statement.lines.filterMap fun s => external s.externalId).Nodup)
    (hitems : (bookItems.filterMap fun b => external b.externalId).Nodup)
    (hbckd : Backed statement.lines bookItems) :
    ∃ recon, reconcileStatement statement bookItems windowDays = .ok recon ∧
      recon.status = .balanced := by
  obtain ⟨recon, hrecon⟩ := exists_reconciled hids hone windowDays
  have hr := reconciled hrecon
  have hm := matched_matchItems hids statement.lines windowDays
  have hsort : (sortedLines statement.lines).Perm statement.lines := perm_insertionSort _ _
  have hsort' : (sortedItems bookItems).Perm bookItems := perm_insertionSort _ _
  -- what external ids lead to
  have hpair : ∀ s ∈ statement.lines, ∃ p ∈ (matchItems statement.lines bookItems windowDays).matched,
      p.statement = s := by
    intro s hs
    obtain ⟨e, he, b, hb, hbe, -⟩ := hbckd s hs
    have hfst : firstLine (sortedLines statement.lines) e = some s :=
      firstLine_of_mem (hsort.mem_iff.mpr hs) he fun t ht hte =>
        eq_of_nodup_filterMap hlines (hsort.mem_iff.mp ht) hs hte he
    have hidx : (indexed (sortedItems bookItems)).get? e = some b :=
      get?_indexed_of_mem (hsort'.mem_iff.mpr hb) hbe fun c hc hce =>
        eq_of_nodup_filterMap hitems (hsort'.mem_iff.mp hc) hb hce hbe
    obtain ⟨p, hp, hps, -⟩ := hm.external e s b hfst hidx
    exact ⟨p, hp, hps⟩
  have hamoun : ∀ p ∈ (matchItems statement.lines bookItems windowDays).matched,
      p.statement.amount.minorUnits = p.book.amount.minorUnits := by
    intro p hp
    rcases hm.pairs p hp with ⟨e, hline, hidx⟩ | hsame
    · have hs := hsort.mem_iff.mp (mem_of_find?_eq_some hline)
      have hse := find?_some hline
      obtain ⟨e', he', b, hb, hbe, hsame⟩ := hbckd _ hs
      obtain rfl : e = e' := Option.some.inj ((of_decide_eq_true hse).symm.trans he')
      obtain ⟨hpb, hpbe⟩ := get?_indexed hidx
      rw [eq_of_nodup_filterMap hitems (hsort'.mem_iff.mp hpb) hb hpbe hbe]
      exact (sameAmount_iff.mp hsame).2
    · exact (sameAmount_iff.mp hsame).2
  have hcomp : (matchItems statement.lines bookItems windowDays).unmatchedStatement = [] := by
    have hnd := hm.ofLines.nodup_iff.mpr (nodup_of_filterMap hlines fun s hs =>
      (hbckd s hs).imp fun _ h => h.1)
    refine eq_nil_iff_forall_not_mem.mpr fun u hu => ?_
    obtain ⟨p, hp, hpu⟩ := hpair u (hm.ofLines.mem_iff.mp (mem_append_right _ hu))
    exact (disjoint_of_nodup_append hnd) (mem_map.mpr ⟨p, hp, hpu⟩) hu
  have hsums : total StatementLine.amount statement.lines +
      total BookItem.amount (matchItems statement.lines bookItems windowDays).unmatchedBook =
        total BookItem.amount bookItems := by
    have hof := (hm.ofLines.map fun s => s.amount.minorUnits).sum_eq
    have hof' := (hm.ofItems.map fun b => b.amount.minorUnits).sum_eq
    rw [hcomp, append_nil, map_map] at hof
    rw [map_append, sum_append, map_map] at hof'
    unfold total
    rw [← hof, ← hof']
    refine congrArg (· + _) (congrArg sum (map_congr_left fun p hp => ?_))
    exact hamoun p hp
  refine ⟨recon, hrecon, hr.balanced.mpr ⟨hcons, hcomp, ?_⟩⟩
  rw [hr.bookClosing, hr.unmatchedBook, ← hsums, ← hcons]
  omega

/-- A balanced reconciliation is right exactly where external ids pair equal amounts; and where
every line has an item of its own external id and amount, it is balanced. -/
theorem reconcileStatement_balanced (statement : Statement) (bookItems : List BookItem)
    (windowDays : Nat) (hids : (bookItems.map BookItem.id).Nodup) :
    (∀ recon, reconcileStatement statement bookItems windowDays = .ok recon →
      recon.status = .balanced →
        (Right statement bookItems recon ↔ ExternalAgree statement.lines bookItems)) ∧
    (OneCurrency statement bookItems →
      statement.openingBalance.minorUnits + total StatementLine.amount statement.lines =
        statement.closingBalance.minorUnits →
      (statement.lines.filterMap fun s => external s.externalId).Nodup →
      (bookItems.filterMap fun b => external b.externalId).Nodup →
      Backed statement.lines bookItems →
        ∃ recon, reconcileStatement statement bookItems windowDays = .ok recon ∧
          recon.status = .balanced) :=
  ⟨fun _ h hbal => right_iff hids h hbal, fun hone hcons hlines hitems hbckd =>
      balanced_of_backed hids hone windowDays hcons hlines hitems hbckd⟩

end

def swappedStatement : Statement where
  accountId := "1000"
  periodStart := "2026-07-01"
  periodEnd := "2026-07-31"
  openingBalance := ⟨0, usd⟩
  closingBalance := ⟨30000, usd⟩
  lines := [⟨"s-1", "2026-07-10", ⟨10000, usd⟩, "", some "x-1"⟩,
    ⟨"s-2", "2026-07-11", ⟨20000, usd⟩, "", some "x-2"⟩]

def swappedItems : List BookItem := [⟨"b-1", "2026-07-10", ⟨20000, usd⟩, "", some "x-1"⟩,
  ⟨"b-2", "2026-07-11", ⟨10000, usd⟩, "", some "x-2"⟩]

theorem swapped_not_right : (swappedItems.map BookItem.id).Nodup ∧
    ∃ recon, reconcileStatement swappedStatement swappedItems 4 = .ok recon ∧
      recon.status = .balanced ∧ ¬ Right swappedStatement swappedItems recon := by
  have hone : OneCurrency swappedStatement swappedItems := by
    constructor <;> decide
  obtain ⟨recon, hrecon⟩ := exists_reconciled (by decide) hone 4
  have hrun : ((reconcileStatement swappedStatement swappedItems 4).toOption.map fun r =>
      (r.status, r.matched.map fun p => sameAmount p.statement p.book)) =
        some (.balanced, [false, false]) := by decide +kernel
  rw [hrecon] at hrun
  obtain ⟨hstatus, hpairs⟩ := Prod.ext_iff.mp (Option.some.inj hrun)
  refine ⟨by decide, recon, hrecon, hstatus, fun hright => ?_⟩
  have hpairs : (recon.matched.map fun p => sameAmount p.statement p.book) = [false, false] := hpairs
  have hfalse : false ∈ recon.matched.map fun p => sameAmount p.statement p.book := by
    rw [hpairs]
    decide
  obtain ⟨p, hp, huneq⟩ := mem_map.mp hfalse
  rw [hright.amounts p hp] at huneq
  cases huneq

theorem reconcileStatement_balanced_swapped :
    (∀ recon, reconcileStatement swappedStatement swappedItems 4 = .ok recon →
      recon.status = .balanced →
        (Right swappedStatement swappedItems recon ↔
          ExternalAgree swappedStatement.lines swappedItems)) ∧
    (OneCurrency swappedStatement swappedItems → swappedStatement.openingBalance.minorUnits +
          total StatementLine.amount swappedStatement.lines =
        swappedStatement.closingBalance.minorUnits →
      (swappedStatement.lines.filterMap fun s => external s.externalId).Nodup →
      (swappedItems.filterMap fun b => external b.externalId).Nodup →
      Backed swappedStatement.lines swappedItems →
        ∃ recon, reconcileStatement swappedStatement swappedItems 4 = .ok recon ∧
          recon.status = .balanced) :=
  reconcileStatement_balanced swappedStatement swappedItems 4 (by decide)

end Rgnr8.Reconciliation
