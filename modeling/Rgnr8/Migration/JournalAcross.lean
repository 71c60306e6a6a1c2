import Rgnr8.Migration.Csv

/-! Which journal reports come across whole: every transaction as one command, under a key of its
own, with its accounts, sides and amounts. -/

namespace Rgnr8.Migration
open Lib Lib.Js Kernel Money Fallible List Nat

def isAscii (s : String) : Bool := s.toList.all fun c => c.toNat < 128

def LowersAscii (lowerCase : String → String) : Prop :=
  ∀ s, isAscii s = true → lowerCase s = toLowerCase s

def Bears (chart : QboChart) (currency : Currency) (t : Transaction) (command : PostCommand) : Prop :=
  List.Forall₂ (fun w l => chart.byName.get? w.account = some l.accountId ∧ l.side = w.side ∧
    l.amount = ⟨w.minor, currency⟩) t.lines command.lines

section
variable (lowerCase : String → String)

def kindOf (t : Transaction) : String :=
  let kind := lowerCase (String.ofList (hyphened (trim t.type).toList))
  if kind = "" then "txn" else kind

def refOf (p : Transaction × Nat) : String :=
  if trim p.1.num = "" then toString p.2 else trim p.1.num

/-- The types and the numbers agree, or one type goes on with what the other's number begins with. -/
def Clash (p q : Transaction × Nat) : Prop :=
  (kindOf lowerCase p.1 = kindOf lowerCase q.1 ∧ refOf p = refOf q) ∨
    (∃ s, kindOf lowerCase q.1 = kindOf lowerCase p.1 ++ "-" ++ s ∧ refOf p = s ++ "-" ++ refOf q) ∨
    ∃ s, kindOf lowerCase p.1 = kindOf lowerCase q.1 ++ "-" ++ s ∧ refOf q = s ++ "-" ++ refOf p

structure Readable (chart : QboChart) (account : String) : Prop where
  filled : trim account ≠ ""
  untotalled : isTotalRow (trim account) = false
  same : chart.byName.get? (trim account) = chart.byName.get? account

structure Legible (chart : QboChart) (ts : List Transaction) : Prop where
  accounts : ∀ t ∈ ts, ∀ w ∈ t.lines, Readable chart w.account
  types : ∀ t ∈ ts, isTotalRow (trim t.type) = false
  apart : (ts.zipIdx 1).Pairwise fun p q => ¬ Clash lowerCase p q

def ComesAcross (style : CsvStyle) (chart : QboChart) (opts : ImportOptions) (exp : QboExport)
    (ts : List Transaction) : Prop :=
  ∃ entries, parseJournalCsv lowerCase (journalText style opts.currency ts) = .ok entries ∧
    let commands := (toPostCommands chart opts { exp with entries := entries }).commands
    List.Forall₂ (Bears chart opts.currency) ts commands ∧
      (commands.map PostCommand.idempotencyKey).Nodup

end

/-! How many lines are read, whatever the file holds. -/

def linesOf (entries : List QboJournalEntry) : Nat := (entries.map fun e => e.lines.length).sum

theorem linesOf_append (es es' : List QboJournalEntry) :
    linesOf (es ++ es') = linesOf es + linesOf es' := by
  unfold linesOf
  rw [map_append, sum_append]

theorem linesOf_singleton (e : QboJournalEntry) : linesOf [e] = e.lines.length := sum_singleton

def JournalState.size (s : JournalState) : Nat := linesOf s.entries + linesOf s.current.toList

/-- A row that adds no line, whatever amounts it has. -/
def isLost (cols : JournalColumns) (row : List String) : Bool :=
  isTotalRow (cellText row cols.account) ∨
    (cellText row cols.date ≠ "" ∧ isTotalRow (cellText row cols.type)) ∨
    cellText row cols.account = ""

section
variable (lowerCase : String → String) (cols : JournalColumns) (s : JournalState)
variable (row : List String)

theorem linesOf_flush : linesOf s.flush.entries = s.size := by
  obtain ⟨es, current, n⟩ := s
  cases current with
  | none => rfl
  | some e =>
    unfold JournalState.flush JournalState.size
    dsimp only
    rw [Option.toList_some, linesOf_singleton]
    split_ifs with hlines
    · rw [linesOf_append, linesOf_singleton]
    · rw [not_not.mp hlines]
      rfl

theorem size_openEntry : (openEntry lowerCase cols s row).size = s.size := by
  unfold openEntry
  dsimp only
  split_ifs
  · exact linesOf_flush s
  · rfl

theorem size_readLine : (readLine cols s row).size ≤
    s.size + if cellText row cols.account = "" then 0 else 1 := by
  unfold readLine
  dsimp only
  split
  · exact le_add_right _ _
  · next e hcur =>
    by_cases hblank : cellText row cols.account = ""
    · rw [if_pos hblank]
      exact le_add_right _ _
    · rw [if_neg hblank, if_neg hblank]
      split
      · exact le_add_right _ _
      · unfold JournalState.size
        rw [hcur, Option.toList_some, Option.toList_some, linesOf_singleton, linesOf_singleton]
        dsimp only
        rw [length_append, length_singleton, add_assoc]

theorem size_readRow : (readRow lowerCase cols s row).size ≤
    s.size + if isLost cols row then 0 else 1 := by
  unfold readRow
  split_ifs with htot hlost hlost
  · exact le_rfl
  · exact le_add_right _ _
  · -- no total row is left, so the account is blank
    have hblank : cellText row cols.account = "" := by
      have hlost := of_decide_eq_true hlost
      rcases hlost with h | h | h
      · exact absurd (.inl h) htot
      · exact absurd (.inr h) htot
      · exact h
    have hadd := size_readLine cols (openEntry lowerCase cols s row) row
    rw [if_pos hblank, size_openEntry] at hadd
    exact hadd
  · have hadd := size_readLine cols (openEntry lowerCase cols s row) row
    rw [size_openEntry] at hadd
    refine hadd.trans (Nat.add_le_add_left ?_ _)
    split_ifs
    · exact zero_le 1
    · exact le_rfl

theorem size_foldl (rows : List (List String)) : (rows.foldl (readRow lowerCase cols) s).size ≤
    s.size + (rows.filter fun row => ¬ isLost cols row).length := by
  induction rows generalizing s with
  | nil => exact le_rfl
  | cons row rows ih =>
    have hrow := size_readRow lowerCase cols s row
    have hrest := ih (readRow lowerCase cols s row)
    rw [foldl_cons, filter_cons]
    cases hlost : isLost cols row with
    | true =>
      rw [hlost, if_pos rfl] at hrow
      rw [if_neg (by decide)]
      exact hrest.trans (Nat.add_le_add_right hrow _)
    | false =>
      rw [hlost, if_neg Bool.false_ne_true] at hrow
      rw [if_pos (by decide), length_cons]
      omega

end

section
variable {chart : QboChart} {opts : ImportOptions} {exp : QboExport}

theorem length_of_buildOne {entry : QboJournalEntry} {command : PostCommand}
    (h : buildOne chart opts entry = .ok command) : command.lines.length = entry.lines.length := by
  unfold buildOne at h
  rw [refuse_eq_ok, bind_eq_ok] at h
  obtain ⟨-, lines, hlines, h⟩ := h
  dsimp only at h
  rw [refuse_eq_ok] at h
  rw [← Except.ok.inj h.2]
  exact (mapM_eq_ok.mp hlines).length_eq.symm

theorem sum_commands_le (entries : List QboJournalEntry) :
    ((toPostCommands chart opts { exp with entries := entries }).commands.map
      fun c => c.lines.length).sum ≤ linesOf entries := by
  unfold toPostCommands linesOf
  dsimp only
  induction entries with
  | nil => exact le_rfl
  | cons entry entries ih =>
    rw [map_cons, sum_cons]
    cases hbuilt : buildOne chart opts entry with
    | error issue =>
      rw [filterMap_cons_none (by rw [hbuilt]; rfl)]
      exact ih.trans (le_add_left _ _)
    | ok command =>
      rw [filterMap_cons_some (by rw [hbuilt]; rfl), map_cons, sum_cons, length_of_buildOne hbuilt]
      exact Nat.add_le_add_left ih _

end

/-! The rows of the report one by one. -/

def journalCols : JournalColumns := ⟨some 0, some 1, some 2, some 5, some 6, some 7, some 4⟩

section
variable {lowerCase : String → String} (style : CsvStyle) (currency : Currency)

theorem colIndex_congr (hlower : LowersAscii lowerCase) {header names : List String}
    (hhead : ∀ h ∈ header, isAscii (trim h) = true)
    (hnames : ∀ name ∈ names, isAscii name = true) :
    colIndex lowerCase header names = colIndex toLowerCase header names := by
  unfold colIndex
  rw [map_congr_left fun h hh => hlower (trim h) (hhead h hh),
    map_congr_left fun name hname => hlower name (hnames name hname)]

theorem colIndex_header (hlower : LowersAscii lowerCase) {names : List String}
    (hnames : ∀ name ∈ names, isAscii name = true) :
    colIndex lowerCase journalHeader names = colIndex toLowerCase journalHeader names :=
  colIndex_congr hlower (by decide) hnames

theorem journalColumns_header (hlower : LowersAscii lowerCase) :
    journalColumns lowerCase journalHeader = journalCols := by
  unfold journalColumns
  rw [colIndex_header hlower (by decide), colIndex_header hlower (by decide),
    colIndex_header hlower (by decide), colIndex_header hlower (by decide),
    colIndex_header hlower (by decide), colIndex_header hlower (by decide),
    colIndex_header hlower (by decide)]
  decide

theorem not_isBlankRow_lineCells (date type num : String) (l : SourceLine) :
    isBlankRow (lineCells style currency date type num l) = false := by
  have hamt : trim (moneyText style currency l.minor) ≠ "" := by
    rw [trim_moneyText]
    intro h
    exact moneyText_toList_ne_nil style currency l.minor (by rw [h]; rfl)
  have hmem : moneyText style currency l.minor ∈ lineCells style currency date type num l := by
    unfold lineCells
    dsimp only
    split_ifs <;> simp
  refine Bool.eq_false_iff.mpr fun h => hamt ?_
  exact of_decide_eq_true (all_eq_true.mp h _ hmem)

theorem mem_transactionRows {t : Transaction} {row : List String}
    (h : row ∈ transactionRows style currency t) :
    ∃ date type num, ∃ w ∈ t.lines, row = lineCells style currency date type num w := by
  rcases mem_cons.mp h with rfl | h
  · exact ⟨_, _, _, t.first, mem_cons_self, rfl⟩
  · obtain ⟨w, hw, rfl⟩ := mem_map.mp h
    exact ⟨_, _, _, w, mem_cons_of_mem _ hw, rfl⟩

theorem parseJournalCsv_journalText (hlower : LowersAscii lowerCase) (ts : List Transaction) :
    parseJournalCsv lowerCase (journalText style currency ts) =
      .ok ((ts.flatMap (transactionRows style currency)).foldl (readRow lowerCase journalCols)
        ⟨[], none, 0⟩).flush.entries := by
  have hrow : ∀ row ∈ ts.flatMap (transactionRows style currency),
      ∃ date type num w, row = lineCells style currency date type num w := by
    intro row hrow
    obtain ⟨t, -, hrow⟩ := mem_flatMap.mp hrow
    obtain ⟨date, type, num, w, -, h⟩ := mem_transactionRows style currency hrow
    exact ⟨date, type, num, w, h⟩
  have hparse : parseCsv (journalText style currency ts) =
      journalHeader :: ts.flatMap (transactionRows style currency) := by
    unfold journalText
    rw [parseCsv_csvText]
    · refine filter_eq_self.mpr fun row hmem => ?_
      rcases mem_cons.mp hmem with rfl | hmem
      · decide
      · obtain ⟨date, type, num, w, rfl⟩ := hrow row hmem
        rw [not_isBlankRow_lineCells]
        rfl
    · intro row hmem
      rcases mem_cons.mp hmem with rfl | hmem
      · exact cons_ne_nil _ _
      · obtain ⟨date, type, num, w, rfl⟩ := hrow row hmem
        exact cons_ne_nil _ _
  have hhead : findHeader lowerCase
      (journalHeader :: ts.flatMap (transactionRows style currency)) ["date", "account"] =
        some 0 := by
    have hfound : (["date", "account"].all fun name =>
        (colIndex lowerCase journalHeader [name]).isSome) = true := by
      rw [all_cons, all_cons, all_nil, colIndex_header hlower (by decide),
        colIndex_header hlower (by decide)]
      decide
    unfold findHeader
    rw [findIdx?_cons, hfound]
    rfl
  unfold parseJournalCsv
  rw [hparse]
  dsimp only
  rw [hhead]
  dsimp only
  rw [getD_cons_zero, journalColumns_header hlower, zero_add, drop_one, tail_cons]

def lineOf (w : SourceLine) : QboJournalLine where
  account := trim w.account
  debit := if w.side = .debit then some (Money.toDecimalString ⟨w.minor, currency⟩) else none
  credit := if w.side = .debit then none else some (Money.toDecimalString ⟨w.minor, currency⟩)
  memo := if trim w.memo ≠ "" then some (trim w.memo) else none

def entryOf (lowerCase : String → String) (p : Transaction × Nat) : QboJournalEntry where
  id := entryId lowerCase (trim p.1.type) (trim p.1.num) p.2
  date := trim p.1.date
  lines := p.1.lines.map (lineOf currency)
  memo := none

theorem readLine_lineCells (date type num : String) {w : SourceLine} (hfil : trim w.account ≠ "")
    (es : List QboJournalEntry) (e : QboJournalEntry) (n : Nat) :
    readLine journalCols ⟨es, some e, n⟩ (lineCells style currency date type num w) =
      ⟨es, some ⟨e.id, e.date, e.lines ++ [lineOf currency w], e.memo⟩, n⟩ := by
  have hdebit : parseAmount (cellAt (lineCells style currency date type num w) journalCols.debit) =
      (lineOf currency w).debit := by
    show parseAmount (some (if w.side = .debit then _ else "")) = if w.side = .debit then _ else _
    split_ifs
    · exact parseAmount_moneyText ..
    · exact parseAmount_empty
  have hcr : parseAmount (cellAt (lineCells style currency date type num w) journalCols.credit) =
      (lineOf currency w).credit := by
    show parseAmount (some (if w.side = .debit then "" else _)) = if w.side = .debit then _ else _
    split_ifs
    · exact parseAmount_empty
    · exact parseAmount_moneyText ..
  have hgiven : ¬ ((lineOf currency w).debit = none ∧ (lineOf currency w).credit = none) := by
    unfold lineOf
    dsimp only
    split_ifs
    · exact fun h => nomatch h.1
    · exact fun h => nomatch h.2
  have hacc : cellText (lineCells style currency date type num w) journalCols.account =
      trim w.account := rfl
  have hmemo : cellText (lineCells style currency date type num w) journalCols.memo =
      trim w.memo := rfl
  unfold readLine
  dsimp only
  rw [hacc, hmemo, hdebit, hcr, if_neg hfil, if_neg hgiven]
  rfl

theorem readRow_rest {w : SourceLine} (hfil : trim w.account ≠ "")
    (htot : isTotalRow (trim w.account) = false) (es : List QboJournalEntry)
    (e : QboJournalEntry) (n : Nat) :
    readRow lowerCase journalCols ⟨es, some e, n⟩ (lineCells style currency "" "" "" w) =
      ⟨es, some ⟨e.id, e.date, e.lines ++ [lineOf currency w], e.memo⟩, n⟩ := by
  have hacc : cellText (lineCells style currency "" "" "" w) journalCols.account =
      trim w.account := rfl
  have hdate : cellText (lineCells style currency "" "" "" w) journalCols.date = "" := rfl
  unfold readRow openEntry
  dsimp only
  rw [hacc, hdate, htot, if_neg (by simp), if_neg (by simp), readLine_lineCells _ _ _ _ _ hfil]

theorem foldl_rest {rest : List SourceLine} (hfil : ∀ w ∈ rest, trim w.account ≠ "")
    (htot : ∀ w ∈ rest, isTotalRow (trim w.account) = false) (es : List QboJournalEntry)
    (e : QboJournalEntry) (n : Nat) :
    (rest.map (lineCells style currency "" "" "")).foldl (readRow lowerCase journalCols)
        ⟨es, some e, n⟩ =
      ⟨es, some ⟨e.id, e.date, e.lines ++ rest.map (lineOf currency), e.memo⟩, n⟩ := by
  induction rest generalizing e with
  | nil => rw [map_nil, map_nil, foldl_nil, append_nil]
  | cons w rest ih =>
    rw [forall_mem_cons] at hfil htot
    rw [map_cons, foldl_cons, readRow_rest style currency hfil.1 htot.1,
      ih hfil.2 htot.2, append_assoc]
    rfl

theorem foldl_transactionRows {t : Transaction} (hfil : ∀ w ∈ t.lines, trim w.account ≠ "")
    (htot : ∀ w ∈ t.lines, isTotalRow (trim w.account) = false)
    (htype : isTotalRow (trim t.type) = false) (s : JournalState) :
    (transactionRows style currency t).foldl (readRow lowerCase journalCols) s =
      ⟨s.flush.entries, some (entryOf currency lowerCase (t, s.counter + 1)), s.counter + 1⟩ := by
  have hfst := forall_mem_cons.mp hfil
  have hrest := forall_mem_cons.mp htot
  let row := lineCells style currency t.date t.type t.num t.first
  have hacc : cellText row journalCols.account = trim t.first.account := rfl
  have hdate : cellText row journalCols.date = trim t.date := rfl
  have hkind : cellText row journalCols.type = trim t.type := rfl
  have hnum : cellText row journalCols.num = trim t.num := rfl
  have hread : readRow lowerCase journalCols s row =
      ⟨s.flush.entries, some ⟨entryId lowerCase (trim t.type) (trim t.num) (s.counter + 1),
        trim t.date, [lineOf currency t.first], none⟩, s.counter + 1⟩ := by
    unfold readRow openEntry
    dsimp only
    rw [hacc, hdate, hkind, hnum, hrest.1, htype, if_neg (by simp), if_pos t.dated,
      show s.flush.counter = s.counter from rfl, readLine_lineCells _ _ _ _ _ hfst.1]
    rfl
  unfold transactionRows entryOf Transaction.lines
  rw [foldl_cons, hread, foldl_rest style currency hfst.2 hrest.2, map_cons]
  rfl

theorem foldl_transactions {ts : List Transaction}
    (hfil : ∀ t ∈ ts, ∀ w ∈ t.lines, trim w.account ≠ "")
    (htot : ∀ t ∈ ts, ∀ w ∈ t.lines, isTotalRow (trim w.account) = false)
    (htype : ∀ t ∈ ts, isTotalRow (trim t.type) = false) (s : JournalState) :
    ((ts.flatMap (transactionRows style currency)).foldl (readRow lowerCase journalCols)
        s).flush.entries =
      s.flush.entries ++ (ts.zipIdx (s.counter + 1)).map (entryOf currency lowerCase) := by
  induction ts generalizing s with
  | nil => exact (append_nil _).symm
  | cons t ts ih =>
    rw [forall_mem_cons] at hfil htot htype
    have hflush : (⟨s.flush.entries, some (entryOf currency lowerCase (t, s.counter + 1)),
        s.counter + 1⟩ : JournalState).flush.entries =
          s.flush.entries ++ [entryOf currency lowerCase (t, s.counter + 1)] := by
      have hlines : (entryOf currency lowerCase (t, s.counter + 1)).lines ≠ [] :=
        cons_ne_nil _ _
      unfold JournalState.flush
      dsimp only
      rw [if_pos hlines]
    rw [flatMap_cons, foldl_append,
      foldl_transactionRows style currency hfil.1 htot.1 htype.1, ih hfil.2 htot.2 htype.2,
      hflush, zipIdx_cons, map_cons, append_assoc]
    rfl

theorem length_rows (ts : List Transaction) : (ts.flatMap (transactionRows style currency)).length =
    (ts.map fun t => t.lines.length).sum := by
  rw [length_flatMap]
  refine congrArg sum (map_congr_left fun t _ => ?_)
  unfold transactionRows Transaction.lines
  rw [length_cons, length_cons, length_map]

end

/-! The commands made of the entries. -/

def Made (chart : QboChart) (currency : Currency) (w : SourceLine) (l : PostedLine) : Prop :=
  chart.byName.get? (trim w.account) = some l.accountId ∧ l.side = w.side ∧
    l.amount = ⟨w.minor, currency⟩

section
variable {lowerCase : String → String} {chart : QboChart} {opts : ImportOptions} {exp : QboExport}

theorem toDecimalString_ne_empty (m : Money) : m.toDecimalString ≠ "" := by
  intro h
  have htext := toList_toDecimalString m
  rw [h] at htext
  have hnil := (append_eq_nil_iff.mp (append_eq_nil_iff.mp htext.symm).2).1
  exact wholeDigits_ne_nil _ _ hnil

theorem buildLine_of_amount {text : String} {amount : Money} (id account : String)
    (memo : Option String) (side : EntrySide) (htext : text ≠ "")
    (hamt : Money.fromDecimal text opts.currency = .ok amount) (hpos : 0 < amount.minorUnits) :
    buildLine chart opts id ⟨account, if side = .debit then some text else none,
        if side = .debit then none else some text, memo⟩ =
      match chart.byName.get? account with
      | none => .error ⟨id, .unknownAccount, account⟩
      | some accountId => .ok ⟨accountId, side, amount, memo, none⟩ := by
  have hgiven : given (some text) = true := decide_eq_true htext
  have hnone : given none = false := rfl
  unfold buildLine
  dsimp only
  cases chart.byName.get? account with
  | none => rfl
  | some accountId =>
    cases side with
    | debit =>
      dsimp only
      rw [if_pos rfl, if_pos rfl, hgiven, hnone, if_neg (Ne.symm Bool.false_ne_true), if_pos rfl,
        Option.getD_some, hamt]
      exact if_neg (not_not.mpr hpos)
    | credit =>
      have hoff : EntrySide.credit ≠ .debit := nofun
      dsimp only
      rw [if_neg hoff, if_neg hoff, hgiven, hnone, if_neg Bool.false_ne_true,
        if_neg Bool.false_ne_true, Option.getD_some, hamt]
      exact if_neg (not_not.mpr hpos)

theorem buildLine_lineOf {w : SourceLine} (hpos : 0 < w.minor) (id : String) :
    buildLine chart opts id (lineOf opts.currency w) = match chart.byName.get? (trim w.account) with
      | none => .error ⟨id, .unknownAccount, trim w.account⟩
      | some accountId =>
        .ok ⟨accountId, w.side, ⟨w.minor, opts.currency⟩, (lineOf opts.currency w).memo, none⟩ :=
  buildLine_of_amount id _ _ w.side (toDecimalString_ne_empty _)
    (fromDecimal_toDecimalString ⟨w.minor, opts.currency⟩) (Int.natCast_pos.mpr hpos)

theorem buildLine_lineOf_iff {w : SourceLine} (hpos : 0 < w.minor) {id : String} :
    (∀ l, buildLine chart opts id (lineOf opts.currency w) = .ok l → Made chart opts.currency w l) ∧
      ((∃ l, buildLine chart opts id (lineOf opts.currency w) = .ok l) ↔
        (chart.byName.get? (trim w.account)).isSome = true) := by
  rw [buildLine_lineOf hpos]
  unfold Made
  cases chart.byName.get? (trim w.account) with
  | none => exact ⟨nofun, nofun, nofun⟩
  | some accountId =>
    refine ⟨fun l h => ?_, fun _ => rfl, fun _ => ⟨_, rfl⟩⟩
    rw [← Except.ok.inj h]
    exact ⟨rfl, rfl, rfl⟩

theorem sideTotal_of_made {ws : List SourceLine} {ls : List PostedLine}
    (h : List.Forall₂ (Made chart opts.currency) ws ls) (side : EntrySide) :
    sideTotal side ls = (minorOf side ws : Int) := by
  induction h with
  | nil => rfl
  | @cons w l ws ls hmade _ ih =>
    obtain ⟨-, hside, hamt⟩ := hmade
    unfold minorOf at ih ⊢
    rw [filter_cons]
    by_cases hw : w.side = side
    · rw [sideTotal_cons_self (hside.trans hw), if_pos (decide_eq_true hw), map_cons,
        sum_cons, cast_add, ih, hamt]
    · rw [sideTotal_cons_ne (fun hl => hw (hside.symm.trans hl)),
        if_neg (fun h => hw (of_decide_eq_true h)), ih]

theorem made_of_built {p : Transaction × Nat} {lines : List JournalLineInput}
    (h : (entryOf opts.currency lowerCase p).lines.mapM
      (buildLine chart opts (entryOf opts.currency lowerCase p).id) = .ok lines) :
    List.Forall₂ (Made chart opts.currency) p.1.lines lines := by
  have hbuilt := forall₂_map_left_iff.mp (mapM_eq_ok.mp h)
  have hpos : ∀ w ∈ p.1.lines, 0 < w.minor := p.1.positive
  refine ((forall₂_and_left _ _).mpr ⟨hpos, hbuilt⟩).imp fun w l hw => ?_
  exact (buildLine_lineOf_iff hw.1).1 l hw.2

theorem buildOne_entryOf {p : Transaction × Nat} {command : PostCommand}
    (h : buildOne chart opts (entryOf opts.currency lowerCase p) = .ok command) :
    command.idempotencyKey = "qbo:" ++ (entryOf opts.currency lowerCase p).id ∧
      List.Forall₂ (Made chart opts.currency) p.1.lines command.lines := by
  unfold buildOne at h
  rw [refuse_eq_ok, bind_eq_ok] at h
  obtain ⟨-, lines, hlines, h⟩ := h
  dsimp only at h
  rw [refuse_eq_ok] at h
  rw [← Except.ok.inj h.2]
  exact ⟨rfl, made_of_built hlines⟩

theorem exists_buildOne_entryOf {p : Transaction × Nat}
    (hknown : ∀ w ∈ p.1.lines, (chart.byName.get? (trim w.account)).isSome = true) :
    ∃ command, buildOne chart opts (entryOf opts.currency lowerCase p) = .ok command := by
  have hlines : ∃ lines, (entryOf opts.currency lowerCase p).lines.mapM
      (buildLine chart opts (entryOf opts.currency lowerCase p).id) = .ok lines := by
    refine exists_mapM_iff.mpr fun q hq => ?_
    obtain ⟨w, hw, rfl⟩ := mem_map.mp hq
    exact (buildLine_lineOf_iff (p.1.positive w hw)).2.mpr (hknown w hw)
  obtain ⟨lines, hlines⟩ := hlines
  have hmade := made_of_built hlines
  have hbal : sideTotal .debit lines = sideTotal .credit lines := by
    rw [sideTotal_of_made hmade, sideTotal_of_made hmade]
    exact congrArg Nat.cast p.1.balanced
  have hne : (entryOf opts.currency lowerCase p).lines ≠ [] := cons_ne_nil _ _
  unfold buildOne
  rw [if_neg hne, hlines]
  exact ⟨_, if_neg (not_not.mpr hbal)⟩

theorem commands_of_length {ps : List (Transaction × Nat)}
    (h : (toPostCommands chart opts { exp with
      entries := ps.map (entryOf opts.currency lowerCase) }).commands.length = ps.length) :
    List.Forall₂ (fun p c => buildOne chart opts (entryOf opts.currency lowerCase p) = .ok c) ps
      (toPostCommands chart opts { exp with
        entries := ps.map (entryOf opts.currency lowerCase) }).commands := by
  unfold toPostCommands at h ⊢
  dsimp only at h ⊢
  rw [filterMap_map] at h ⊢
  refine (forall₂_filterMap h).imp fun p c hc => ?_
  exact toOption_eq_some.mp hc

theorem entryId_eq (p : Transaction × Nat) : entryId lowerCase (trim p.1.type) (trim p.1.num) p.2 =
    kindOf lowerCase p.1 ++ "-" ++ refOf p := by
  have hkind : kindOf lowerCase p.1 ≠ "" := by
    unfold kindOf
    dsimp only
    split_ifs with hnone
    · decide
    · exact hnone
  have href : refOf p ≠ "" := by
    unfold refOf
    split_ifs with hnone
    · intro h
      have hread := naturalIn_toString p.2
      rw [h] at hread
      cases hread
    · exact hnone
  show "-".intercalate ([kindOf lowerCase p.1, refOf p].filter (· ≠ "")) = _
  rw [filter_cons, if_pos (decide_eq_true hkind), filter_cons,
    if_pos (decide_eq_true href), filter_nil, String.intercalate_cons_cons,
    String.intercalate_singleton]

theorem entryId_eq_iff (p q : Transaction × Nat) :
    (entryOf opts.currency lowerCase p).id = (entryOf opts.currency lowerCase q).id ↔
      Clash lowerCase p q := by
  show entryId lowerCase _ _ _ = entryId lowerCase _ _ _ ↔ _
  rw [entryId_eq, entryId_eq]
  unfold Clash
  generalize kindOf lowerCase p.1 = k
  generalize kindOf lowerCase q.1 = k'
  generalize refOf p = r
  generalize refOf q = r'
  have hhyp : "-".toList = ['-'] := rfl
  have htext : ∀ a b : String, (a ++ "-" ++ b).toList = a.toList ++ '-' :: b.toList := by
    intro a b
    rw [String.toList_append, String.toList_append, hhyp, append_assoc, singleton_append]
  constructor
  · intro h
    rw [← String.toList_inj, htext, htext] at h
    -- one type ends where the other does, or goes on past the other's end
    rcases append_eq_append_iff.mp h with ⟨as, hk, hr⟩ | ⟨as, hk, hr⟩
    · cases as with
      | nil =>
        rw [append_nil] at hk
        exact .inl ⟨(String.toList_inj.mp hk).symm, String.toList_inj.mp (cons.inj hr).2⟩
      | cons c as =>
        obtain ⟨rfl, hrest⟩ := cons.inj hr
        refine .inr (.inl ⟨String.ofList as, ?_, ?_⟩)
        · rw [← String.toList_inj, hk, htext, String.toList_ofList]
        · rw [← String.toList_inj, htext, String.toList_ofList]
          exact hrest
    · cases as with
      | nil =>
        rw [append_nil] at hk
        exact .inl ⟨String.toList_inj.mp hk, (String.toList_inj.mp (cons.inj hr).2).symm⟩
      | cons c as =>
        obtain ⟨rfl, hrest⟩ := cons.inj hr
        refine .inr (.inr ⟨String.ofList as, ?_, ?_⟩)
        · rw [← String.toList_inj, hk, htext, String.toList_ofList]
        · rw [← String.toList_inj, htext, String.toList_ofList]
          exact hrest
  · rintro (⟨rfl, rfl⟩ | ⟨s, rfl, rfl⟩ | ⟨s, rfl, rfl⟩)
    · rfl
    · simp only [String.append_assoc]
    · simp only [String.append_assoc]

theorem nodup_keys_iff {ps : List (Transaction × Nat)} {commands : List PostCommand}
    (h : List.Forall₂ (fun p c =>
      buildOne chart opts (entryOf opts.currency lowerCase p) = .ok c) ps commands) :
    (commands.map PostCommand.idempotencyKey).Nodup ↔
      ps.Pairwise fun p q => ¬ Clash lowerCase p q := by
  have hkeys : ps.map (fun p => "qbo:" ++ (entryOf opts.currency lowerCase p).id) =
      commands.map PostCommand.idempotencyKey := by
    rw [← forall₂_eq_eq_eq, forall₂_map_left_iff, forall₂_map_right_iff]
    exact h.imp fun p c hc => (buildOne_entryOf hc).1.symm
  rw [← hkeys, List.Nodup, pairwise_map]
  refine List.Pairwise.iff fun p q => not_congr ?_
  rw [String.append_right_inj, entryId_eq_iff]

end

section
variable {lowerCase : String → String} (style : CsvStyle) (chart : QboChart) (opts : ImportOptions)
variable (exp : QboExport) {ts : List Transaction}

theorem comesAcross_of_legible (hlower : LowersAscii lowerCase)
    (hknown : ∀ t ∈ ts, ∀ w ∈ t.lines, (chart.byName.get? w.account).isSome = true)
    (h : Legible lowerCase chart ts) : ComesAcross lowerCase style chart opts exp ts := by
  obtain ⟨haccounts, htypes, hapart⟩ := h
  refine ⟨_, parseJournalCsv_journalText style opts.currency hlower ts, ?_⟩
  rw [foldl_transactions style opts.currency (fun t ht w hw => (haccounts t ht w hw).filled)
    (fun t ht w hw => (haccounts t ht w hw).untotalled) htypes]
  show List.Forall₂ _ ts (toPostCommands chart opts { exp with
    entries := (ts.zipIdx 1).map (entryOf opts.currency lowerCase) }).commands ∧ _
  have hsame : ∀ p ∈ ts.zipIdx 1, ∀ w ∈ p.1.lines,
      chart.byName.get? (trim w.account) = chart.byName.get? w.account := by
    intro p hp w hw
    exact (haccounts p.1 (fst_mem_of_mem_zipIdx hp) w hw).same
  have hlength : (toPostCommands chart opts { exp with
      entries := (ts.zipIdx 1).map (entryOf opts.currency lowerCase) }).commands.length =
        (ts.zipIdx 1).length := by
    unfold toPostCommands
    dsimp only
    rw [filterMap_map, filterMap_length_eq_length]
    intro p hp
    have hbuil : ∃ command, buildOne chart opts (entryOf opts.currency lowerCase p) =
        .ok command := by
      refine exists_buildOne_entryOf fun w hw => ?_
      rw [hsame p hp w hw]
      exact hknown p.1 (fst_mem_of_mem_zipIdx hp) w hw
    obtain ⟨command, hcommand⟩ := hbuil
    unfold Function.comp
    dsimp only
    rw [hcommand]
    rfl
  have hbuilt := commands_of_length hlength
  refine ⟨?_, (nodup_keys_iff hbuilt).mpr hapart⟩
  have hbears : List.Forall₂ (fun p c => Bears chart opts.currency p.1 c) (ts.zipIdx 1)
      (toPostCommands chart opts { exp with
        entries := (ts.zipIdx 1).map (entryOf opts.currency lowerCase) }).commands := by
    refine ((forall₂_and_left _ _).mpr ⟨hsame, hbuilt⟩).imp fun p c hp => ?_
    refine ((forall₂_and_left _ _).mpr ⟨hp.1, (buildOne_entryOf hp.2).2⟩).imp fun w l hw => ?_
    rw [← hw.1]
    exact hw.2
  rw [← forall₂_map_left_iff, zipIdx_map_fst] at hbears
  exact hbears

theorem kept_of_comesAcross (hlower : LowersAscii lowerCase)
    (h : ComesAcross lowerCase style chart opts exp ts) :
    ∀ row ∈ ts.flatMap (transactionRows style opts.currency), isLost journalCols row = false := by
  obtain ⟨entries, hparse, hbears, -⟩ := h
  rw [parseJournalCsv_journalText style opts.currency hlower] at hparse
  by_contra hlost
  push Not at hlost
  obtain ⟨row, hrow, hlost⟩ := hlost
  have hread := size_foldl lowerCase journalCols ⟨[], none, 0⟩
    (ts.flatMap (transactionRows style opts.currency))
  rw [← linesOf_flush, Except.ok.inj hparse] at hread
  have hfewer : ((ts.flatMap (transactionRows style opts.currency)).filter
      fun row => ¬ isLost journalCols row).length <
        (ts.flatMap (transactionRows style opts.currency)).length :=
    length_filter_lt_length_iff_exists.mpr ⟨row, hrow, by simpa using hlost⟩
  have hcom : ((toPostCommands chart opts { exp with entries := entries }).commands.map
      fun c => c.lines.length).sum ≤ linesOf entries := sum_commands_le entries
  have hsum : (ts.map fun t => t.lines.length).sum =
      ((toPostCommands chart opts { exp with entries := entries }).commands.map
        fun c => c.lines.length).sum := by
    refine congrArg sum ?_
    rw [← forall₂_eq_eq_eq, forall₂_map_left_iff, forall₂_map_right_iff]
    exact hbears.imp fun t c hc => hc.length_eq
  rw [← length_rows style opts.currency] at hsum
  have hsize : (⟨[], none, 0⟩ : JournalState).size = 0 := rfl
  omega

theorem not_isLost_iff (date type num : String) (w : SourceLine) :
    isLost journalCols (lineCells style opts.currency date type num w) = false ↔
      isTotalRow (trim w.account) = false ∧ (trim date ≠ "" → isTotalRow (trim type) = false) ∧
        trim w.account ≠ "" := by
  show decide (isTotalRow (trim w.account) = true ∨
    (trim date ≠ "" ∧ isTotalRow (trim type) = true) ∨ trim w.account = "") = false ↔ _
  rw [decide_eq_false_iff_not, not_or, not_or, not_and, Bool.not_eq_true, Bool.not_eq_true]

theorem legible_of_comesAcross (hlower : LowersAscii lowerCase)
    (h : ComesAcross lowerCase style chart opts exp ts) : Legible lowerCase chart ts := by
  have hkept := kept_of_comesAcross style chart opts exp hlower h
  have hfst : ∀ t ∈ ts, isLost journalCols
      (lineCells style opts.currency t.date t.type t.num t.first) = false := fun t ht =>
    hkept _ (mem_flatMap.mpr ⟨t, ht, mem_cons_self⟩)
  have htypes : ∀ t ∈ ts, isTotalRow (trim t.type) = false := fun t ht =>
    ((not_isLost_iff style opts _ _ _ _).mp (hfst t ht)).2.1 t.dated
  have hlines : ∀ t ∈ ts, ∀ w ∈ t.lines, isTotalRow (trim w.account) = false ∧
      trim w.account ≠ "" := by
    intro t ht w hw
    rcases mem_cons.mp hw with rfl | hw
    · have hread := (not_isLost_iff style opts _ _ _ _).mp (hfst t ht)
      exact ⟨hread.1, hread.2.2⟩
    · have hread := (not_isLost_iff style opts _ _ _ _).mp (hkept _ (mem_flatMap.mpr
        ⟨t, ht, mem_cons_of_mem _ (mem_map_of_mem hw)⟩))
      exact ⟨hread.1, hread.2.2⟩
  obtain ⟨entries, hparse, hbears, hkeys⟩ := h
  rw [parseJournalCsv_journalText style opts.currency hlower,
    foldl_transactions style opts.currency (fun t ht w hw => (hlines t ht w hw).2)
      (fun t ht w hw => (hlines t ht w hw).1) htypes] at hparse
  have hents : (ts.zipIdx 1).map (entryOf opts.currency lowerCase) = entries :=
    Except.ok.inj hparse
  rw [← hents] at hbears hkeys
  have hbuilt := commands_of_length (by rw [← hbears.length_eq, length_zipIdx])
  generalize (toPostCommands chart opts { exp with
    entries := (ts.zipIdx 1).map (entryOf opts.currency lowerCase) }).commands = commands
    at hbears hkeys hbuilt
  have hpairs : List.Forall₂ (fun p c => Bears chart opts.currency p.1 c) (ts.zipIdx 1) commands := by
    rw [← forall₂_map_left_iff, zipIdx_map_fst]
    exact hbears
  refine ⟨fun t ht w hw => ⟨(hlines t ht w hw).2, (hlines t ht w hw).1, ?_⟩, htypes,
    (nodup_keys_iff hbuilt).mp hkeys⟩
  have hboth := List.Forall₂.mp (S := fun p _ => ∀ w ∈ p.1.lines,
    chart.byName.get? (trim w.account) = chart.byName.get? w.account) (fun p c hb hc w hw => ?_)
    hpairs hbuilt
  · rw [← zipIdx_map_fst 1 ts] at ht
    obtain ⟨p, hp, rfl⟩ := mem_map.mp ht
    obtain ⟨c, -, hc⟩ := exists_of_forall₂ hboth.flip hp
    exact hc w hw
  · -- the account of the command's line is the one of the name as it stands and as it is read
    have hline := List.Forall₂.mp (S := fun (w : SourceLine) _ =>
      chart.byName.get? (trim w.account) = chart.byName.get? w.account)
      (fun w l hw hmade => hmade.1.trans hw.1.symm) hb (buildOne_entryOf hc).2
    obtain ⟨l, -, hl⟩ := exists_of_forall₂ hline.flip hw
    exact hl

theorem journal_comes_across_iff (hlower : LowersAscii lowerCase)
    (hknown : ∀ t ∈ ts, ∀ w ∈ t.lines, (chart.byName.get? w.account).isSome = true) :
    ComesAcross lowerCase style chart opts exp ts ↔ Legible lowerCase chart ts :=
  ⟨legible_of_comesAcross style chart opts exp hlower,
    comesAcross_of_legible style chart opts exp hlower hknown⟩

end

def plainStyle : CsvStyle where
  quotes _ := false
  crlf := false
  dollar := false

def cashAndSales : QboChart where
  coa := .empty
  byName := (OrderedMap.empty.set "Cash" "qbo:cash").set "Sales" "qbo:sales"

def importOptions : ImportOptions where
  tenantId := "acme"
  currency := usd
  ingestedAt := "2026-08-01T00:00:00Z"
  sourceVersion := none

def emptyExport : QboExport := ⟨[], [], none⟩

def invoiceOf (date : String) (hdate : trim date ≠ "") : Transaction where
  date := date
  type := "Invoice"
  num := "1001"
  first := ⟨"Acme", "", "Cash", .debit, 120000⟩
  rest := [⟨"", "", "Sales", .credit, 120000⟩]
  dated := hdate
  positive := by decide
  balanced := by decide

def julyInvoice : Transaction := invoiceOf "2026-07-05" (by decide)

def augustInvoice : Transaction := invoiceOf "2026-08-05" (by decide)

theorem lowersAscii_toLowerCase : LowersAscii toLowerCase := fun _ _ => rfl

theorem repeated_number_does_not_come_across : (∀ t ∈ [julyInvoice, augustInvoice], ∀ w ∈ t.lines,
      (cashAndSales.byName.get? w.account).isSome = true) ∧
    ¬ ComesAcross toLowerCase plainStyle cashAndSales importOptions emptyExport
      [julyInvoice, augustInvoice] := by
  have hclash : Clash toLowerCase (julyInvoice, 1) (augustInvoice, 2) := by
    have htype : julyInvoice.type = "Invoice" := rfl
    have htype' : augustInvoice.type = "Invoice" := rfl
    have hnum : julyInvoice.num = "1001" := rfl
    have hnum' : augustInvoice.num = "1001" := rfl
    have hgiven : ¬ trim "1001" = "" := by decide
    refine .inl ⟨?_, ?_⟩
    · unfold kindOf
      rw [htype, htype']
    · unfold refOf
      rw [hnum, hnum', if_neg hgiven, if_neg hgiven]
  refine ⟨by decide, fun h => ?_⟩
  have hapart := (legible_of_comesAcross plainStyle cashAndSales importOptions emptyExport
    lowersAscii_toLowerCase h).apart
  rw [zipIdx_cons, zipIdx_cons] at hapart
  exact rel_of_pairwise_cons hapart mem_cons_self hclash

theorem one_invoice_comes_across :
    ComesAcross toLowerCase plainStyle cashAndSales importOptions emptyExport [julyInvoice] := by
  refine (journal_comes_across_iff plainStyle cashAndSales importOptions emptyExport
    lowersAscii_toLowerCase (by decide)).mpr ⟨?_, by decide, pairwise_singleton _ _⟩
  have hread : ∀ account ∈ ["Cash", "Sales"], Readable cashAndSales account := by
    intro account hacc
    simp only [mem_cons, not_mem_nil, or_false] at hacc
    rcases hacc with rfl | rfl <;> exact ⟨by decide, by decide, by decide⟩
  intro t ht w hw
  rw [mem_singleton.mp ht] at hw
  have hmem : w.account ∈ julyInvoice.lines.map SourceLine.account := mem_map_of_mem hw
  exact hread _ hmem

end Rgnr8.Migration
