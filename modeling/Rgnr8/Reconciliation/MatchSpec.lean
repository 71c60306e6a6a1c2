import Mathlib.Data.List.Perm.Lattice
import Mathlib.Tactic.ApplyAt
import Rgnr8.Reconciliation.LedgerRec

/-! What the two passes pair: under each external id the first line with the last item, then lines
and items of one amount; every line and item is paired once at most. -/

namespace Rgnr8.Reconciliation
open Lib Kernel List

def indexed (book : List BookItem) : OrderedMap String BookItem := book.foldl (fun m b =>
  match external b.externalId with
  | some e => m.set e b
  | none => m) .empty

def sortedLines (lines : List StatementLine) : List StatementLine :=
  lines.insertionSort fun a b => InOrder a.date a.id b.date b.id

def sortedItems (items : List BookItem) : List BookItem :=
  items.insertionSort fun a b => InOrder a.date a.id b.date b.id

def firstLine (lines : List StatementLine) (e : String) : Option StatementLine :=
  lines.find? fun s => external s.externalId = some e

section
variable {book : List BookItem} {e : String} {b : BookItem}

theorem get?_indexed (h : (indexed book).get? e = some b) :
    b ∈ book ∧ external b.externalId = some e := by
  unfold indexed at h
  induction book using reverseRecOn with
  | nil => cases h
  | append_singleton book c ih =>
    rw [foldl_append, foldl_cons, foldl_nil] at h
    cases hext : external c.externalId with
    | none =>
      rw [hext] at h
      exact (ih h).imp_left (mem_append_left _)
    | some e' =>
      rw [hext] at h
      dsimp only at h
      by_cases he : e = e'
      · rw [he, OrderedMap.get?_set_self, Option.some.injEq] at h
        rw [← h, he]
        exact ⟨mem_append_right _ (mem_singleton_self c), hext⟩
      · rw [OrderedMap.get?_set_ne _ _ he] at h
        exact (ih h).imp_left (mem_append_left _)

theorem get?_indexed_of_mem (hb : b ∈ book) (he : external b.externalId = some e)
    (honly : ∀ c ∈ book, external c.externalId = some e → c = b) :
    (indexed book).get? e = some b := by
  have hsome : ∀ book : List BookItem, b ∈ book → ∃ c, (indexed book).get? e = some c := by
    intro book hb
    unfold indexed
    induction book using reverseRecOn with
    | nil => exact absurd hb not_mem_nil
    | append_singleton book c ih =>
      rw [foldl_append, foldl_cons, foldl_nil]
      cases hext : external c.externalId with
      | none =>
        rcases mem_append.mp hb with hb | hb
        · exact ih hb
        · rw [← mem_singleton.mp hb, he] at hext
          cases hext
      | some e' =>
        dsimp only
        by_cases hee : e = e'
        · exact ⟨c, by rw [hee, OrderedMap.get?_set_self]⟩
        · rw [OrderedMap.get?_set_ne _ _ hee]
          rcases mem_append.mp hb with hb | hb
          · exact ih hb
          · rw [← mem_singleton.mp hb, he] at hext
            exact absurd (Option.some.inj hext) hee
  obtain ⟨c, hc⟩ := hsome book hb
  obtain ⟨hmem, hext⟩ := get?_indexed hc
  rw [hc, honly c hmem hext]

end

structure Passed (book : List BookItem) (seen : List StatementLine) (m : Matching) : Prop where
  lines : (m.matched.map MatchPair.statement ++ m.left).Perm seen
  used : m.bookUsed.Perm (m.matched.map fun p => p.book.id)
  items : ∀ p ∈ m.matched, p.book ∈ book
  once : m.bookUsed.Nodup

section
variable {book : List BookItem} {seen : List StatementLine} {m : Matching} {s : StatementLine}
variable {b : BookItem} {method : MatchMethod}

theorem Passed.pair (h : Passed book seen m) (hb : b ∈ book) (hnew : b.id ∉ m.bookUsed) :
    Passed book (seen ++ [s]) (m.pair s b method) where
  lines := by
    have hmove : ((m.matched ++ [(⟨s, b, method⟩ : MatchPair)]).map MatchPair.statement ++ m.left).Perm
        ((m.matched.map MatchPair.statement ++ m.left) ++ [s]) := by
      rw [map_append, append_assoc, append_assoc]
      exact perm_append_comm.append_left _
    exact hmove.trans (h.lines.append_right _)
  used := by
    have hend : ((m.matched ++ [(⟨s, b, method⟩ : MatchPair)]).map fun p => p.book.id) =
        (m.matched.map fun p => p.book.id) ++ [b.id] := map_append ..
    exact (h.used.cons b.id).trans ((perm_append_singleton _ _).symm.trans (.of_eq hend.symm))
  items := by
    intro p hp
    rcases mem_append.mp hp with hp | hp
    · exact h.items p hp
    · rw [mem_singleton.mp hp]
      exact hb
  once := nodup_cons.mpr ⟨hnew, h.once⟩

theorem Passed.leave (h : Passed book seen m) : Passed book (seen ++ [s]) (m.leave s) where
  lines := by
    have hmove : (m.matched.map MatchPair.statement ++ (m.left ++ [s])) =
        (m.matched.map MatchPair.statement ++ m.left) ++ [s] := (append_assoc ..).symm
    exact (List.Perm.of_eq hmove).trans (h.lines.append_right _)
  used := h.used
  items := h.items
  once := h.once

theorem Passed.again (h : Passed book seen m) :
    Passed book (m.matched.map MatchPair.statement) { m with left := [] } where
  lines := .of_eq (append_nil _)
  used := h.used
  items := h.items
  once := h.once

end

/-! The first pass. -/

section
variable {book : List BookItem}

structure ByExternal (book : List BookItem) (seen : List StatementLine) (m : Matching) : Prop
    extends Passed book seen m where
  pairs : ∀ p ∈ m.matched, ∃ e, (indexed book).get? e = some p.book ∧
    firstLine seen e = some p.statement
  all : ∀ e s b, firstLine seen e = some s → (indexed book).get? e = some b →
    ∃ p ∈ m.matched, p.statement = s ∧ p.book = b

theorem firstLine_append (seen : List StatementLine) (s : StatementLine) (e : String) :
    firstLine (seen ++ [s]) e = (firstLine seen e).or
      (if external s.externalId = some e then some s else none) := by
  unfold firstLine
  rw [find?_append, find?_singleton]
  simp only [decide_eq_true_iff]

variable {seen : List StatementLine}

theorem ByExternal.step {m : Matching} (h : ByExternal book seen m)
    (hids : (book.map BookItem.id).Nodup) (s : StatementLine) :
    ByExternal book (seen ++ [s]) (matchExternal (indexed book) m s) := by
  have hkept : ∀ p ∈ m.matched, ∃ e, (indexed book).get? e = some p.book ∧
      firstLine (seen ++ [s]) e = some p.statement := by
    intro p hp
    obtain ⟨e, hidx, hfst⟩ := h.pairs p hp
    exact ⟨e, hidx, by rw [firstLine_append, hfst, Option.some_or]⟩
  unfold matchExternal
  cases hlook : (external s.externalId).bind (indexed book).get? with
  | none =>
    refine { toPassed := h.toPassed.leave, pairs := hkept, all := fun e t b hfst hidx => ?_ }
    rw [firstLine_append, Option.or_eq_some_iff] at hfst
    rcases hfst with hfst | ⟨-, hfst⟩
    · exact h.all e t b hfst hidx
    · split_ifs at hfst with hext
      rw [hext, Option.bind_some, hidx] at hlook
      cases hlook
  | some b =>
    obtain ⟨e, hext, hidx⟩ := Option.bind_eq_some_iff.mp hlook
    obtain ⟨hb, hbext⟩ := get?_indexed hidx
    dsimp only
    split_ifs with hused
    · refine { toPassed := h.toPassed.leave, pairs := hkept, all := fun e' t c hfst hidx' => ?_ }
      -- the item is taken, so an earlier line has its external id
      obtain ⟨p, hp, hid⟩ := mem_map.mp (h.used.mem_iff.mp hused)
      obtain rfl : p.book = b := inj_on_of_nodup_map hids (h.items p hp) hb hid
      obtain ⟨e'', hidx'', hfst''⟩ := h.pairs p hp
      rw [firstLine_append, Option.or_eq_some_iff] at hfst
      rcases hfst with hfst | ⟨hnone, hfst⟩
      · exact h.all e' t c hfst hidx'
      · split_ifs at hfst with hext'
        have hsame : e'' = e' := by
          have hsame := (get?_indexed hidx'').2.symm.trans hbext
          rw [Option.some.inj hsame, ← Option.some.injEq, ← hext, hext']
        rw [← hsame, hfst''] at hnone
        cases hnone
    · have hnone : firstLine seen e = none := by
        by_contra hsome
        obtain ⟨t, ht⟩ := Option.ne_none_iff_exists'.mp hsome
        obtain ⟨p, hp, -, hpb⟩ := h.all e t b ht hidx
        exact hused (h.used.mem_iff.mpr (mem_map.mpr ⟨p, hp, by rw [hpb]⟩))
      have hfst : firstLine (seen ++ [s]) e = some s := by
        rw [firstLine_append, hnone, if_pos hext, Option.none_or]
      refine { toPassed := h.toPassed.pair hb hused, pairs := fun p hp => ?_,
               all := fun e' t c hfst' hidx' => ?_ }
      · rcases mem_append.mp hp with hp | hp
        · exact hkept p hp
        · rw [mem_singleton.mp hp]
          exact ⟨e, hidx, hfst⟩
      · rw [firstLine_append, Option.or_eq_some_iff] at hfst'
        rcases hfst' with hfst' | ⟨-, hfst'⟩
        · obtain ⟨p, hp, hpair⟩ := h.all e' t c hfst' hidx'
          exact ⟨p, mem_append_left _ hp, hpair⟩
        · split_ifs at hfst' with hext'
          obtain rfl : e' = e := Option.some.inj (hext'.symm.trans hext)
          refine ⟨⟨s, b, .externalId⟩, mem_append_right _ (mem_singleton_self _),
            Option.some.inj hfst', Option.some.inj (hidx.symm.trans hidx')⟩

theorem byExternal_foldl (hids : (book.map BookItem.id).Nodup) (lines : List StatementLine) :
    ByExternal book lines (lines.foldl (matchExternal (indexed book)) ⟨[], [], []⟩) := by
  induction lines using reverseRecOn with
  | nil =>
    exact { lines := .nil, used := .nil, items := fun _ hp => absurd hp not_mem_nil,
            once := .nil, pairs := fun _ hp => absurd hp not_mem_nil,
            all := fun e s b hfst _ => nomatch hfst }
  | append_singleton lines s ih =>
    rw [foldl_append, foldl_cons, foldl_nil]
    exact ih.step hids s

/-! The second pass. -/

structure ByAmount (book : List BookItem) (first : Matching) (seen : List StatementLine)
    (m : Matching) : Prop
    extends Passed book seen m where
  matched : ∃ added, m.matched = first.matched ++ added ∧
    ∀ p ∈ added, sameAmount p.statement p.book = true

theorem ByAmount.step {first : Matching} {m : Matching} (h : ByAmount book first seen m)
    (windowDays : Nat) (s : StatementLine) :
    ByAmount book first (seen ++ [s]) (matchAmount windowDays book m s) := by
  unfold matchAmount
  cases hfind : book.find? fun b => b.id ∉ m.bookUsed ∧ sameAmount s b ∧
      ¬ tooFar windowDays s.date b.date with
  | none => exact { toPassed := h.toPassed.leave, matched := h.matched }
  | some b =>
    have hfound := find?_some hfind
    obtain ⟨hnew, hamt, -⟩ := of_decide_eq_true hfound
    obtain ⟨added, hadded, hsame⟩ := h.matched
    refine { toPassed := h.toPassed.pair (mem_of_find?_eq_some hfind) hnew,
             matched := ⟨added ++ [⟨s, b, .amountDate⟩], ?_, fun p hp => ?_⟩ }
    · rw [← append_assoc, ← hadded]
      rfl
    · rcases mem_append.mp hp with hp | hp
      · exact hsame p hp
      · rw [mem_singleton.mp hp]
        exact hamt

theorem byAmount_foldl {first : Matching} (h : Passed book seen first) (windowDays : Nat)
    (lines : List StatementLine) :
    ByAmount book first (first.matched.map MatchPair.statement ++ lines)
      (lines.foldl (matchAmount windowDays book) { first with left := [] }) := by
  induction lines using reverseRecOn with
  | nil =>
    rw [append_nil]
    exact { toPassed := h.again,
            matched := ⟨[], (append_nil _).symm, fun _ hp => absurd hp not_mem_nil⟩ }
  | append_singleton lines s ih =>
    rw [foldl_append, foldl_cons, foldl_nil, ← append_assoc]
    exact ih.step windowDays s

/-! Both passes. -/

/-- What the passes come to. -/
structure Matched (lines : List StatementLine) (items : List BookItem) (r : MatchResult) : Prop where
  ofLines : (r.matched.map MatchPair.statement ++ r.unmatchedStatement).Perm lines
  ofItems : (r.matched.map MatchPair.book ++ r.unmatchedBook).Perm items
  once : (r.matched.map fun p => p.book.id).Nodup
  /-- The pairs that external ids make. -/
  external : ∀ e s b, firstLine (sortedLines lines) e = some s →
    (indexed (sortedItems items)).get? e = some b →
      ∃ p ∈ r.matched, p.statement = s ∧ p.book = b
  pairs : ∀ p ∈ r.matched, (∃ e, firstLine (sortedLines lines) e = some p.statement ∧
    (indexed (sortedItems items)).get? e = some p.book) ∨ sameAmount p.statement p.book = true

theorem perm_split {book : List BookItem} {used : List String} {taken : List BookItem}
    (hids : (book.map BookItem.id).Nodup) (htaken : ∀ b ∈ taken, b ∈ book)
    (honce : (taken.map BookItem.id).Nodup) (hused : ∀ id, id ∈ used ↔ id ∈ taken.map BookItem.id) :
    (taken ++ book.filter fun b => b.id ∉ used).Perm book := by
  have hsame : (book.filter fun b => b.id ∈ used).Perm taken := by
    refine (perm_ext_iff_of_nodup (hids.of_map.filter _) honce.of_map).mpr fun b => ?_
    rw [mem_filter, decide_eq_true_iff, hused, mem_map]
    constructor
    · rintro ⟨hb, c, hc, hid⟩
      rwa [← inj_on_of_nodup_map hids (htaken c hc) hb hid]
    · exact fun hb => ⟨htaken b hb, b, hb, rfl⟩
  have hrest : (book.filter fun b => b.id ∉ used) = book.filter fun b => !decide (b.id ∈ used) :=
    filter_congr fun b _ => decide_not
  rw [hrest]
  exact (hsame.symm.append_right _).trans (filter_append_perm _ book)

theorem matched_matchItems {items : List BookItem} (hids : (items.map BookItem.id).Nodup)
    (lines : List StatementLine) (windowDays : Nat) :
    Matched lines items (matchItems lines items windowDays) := by
  have hsort : (sortedItems items).Perm items := perm_insertionSort _ _
  have hids' : ((sortedItems items).map BookItem.id).Nodup :=
    (hsort.map BookItem.id).nodup_iff.mpr hids
  have hfst := byExternal_foldl hids' (sortedLines lines)
  generalize hm : (sortedLines lines).foldl (matchExternal (indexed (sortedItems items)))
    ⟨[], [], []⟩ = first at hfst
  have hsec := byAmount_foldl hfst.toPassed windowDays first.left
  generalize hm' : first.left.foldl (matchAmount windowDays (sortedItems items))
    { first with left := [] } = second at hsec
  have hres : matchItems lines items windowDays =
      ⟨second.matched, second.left, (sortedItems items).filter fun b => b.id ∉ second.bookUsed⟩ := by
    rw [← hm', ← hm]
    rfl
  obtain ⟨added, hadded, hsame⟩ := hsec.matched
  rw [hres]
  constructor
  case ofLines =>
    exact hsec.lines.trans (hfst.lines.trans (perm_insertionSort _ _))
  case ofItems =>
    refine (perm_split hids' ?_ ?_ fun id => ?_).trans hsort
    · intro b hb
      obtain ⟨p, hp, rfl⟩ := mem_map.mp hb
      exact hsec.items p hp
    · rw [map_map]
      exact hsec.used.nodup_iff.mp hsec.once
    · rw [hsec.used.mem_iff, map_map]
      rfl
  case once => exact hsec.used.nodup_iff.mp hsec.once
  case external =>
    intro e s b hline hidx
    obtain ⟨p, hp, hpair⟩ := hfst.all e s b hline hidx
    exact ⟨p, hadded ▸ mem_append_left _ hp, hpair⟩
  case pairs =>
    intro p hp
    change p ∈ second.matched at hp
    rw [hadded] at hp
    rcases mem_append.mp hp with hp | hp
    · obtain ⟨e, hidx, hline⟩ := hfst.pairs p hp
      exact .inl ⟨e, hline, hidx⟩
    · exact .inr (hsame p hp)

end

end Rgnr8.Reconciliation
