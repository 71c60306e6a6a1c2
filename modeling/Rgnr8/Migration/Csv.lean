import Rgnr8.Migration.Import

/-! The journal report of QuickBooks, read from the text of its CSV file. -/

namespace Rgnr8.Migration
open Lib Lib.Js Kernel List

/-- The rows from a place in the text on: whether the place is between quotes, and the field and the
row it is in as far as they have been read. -/
def rowsFrom : (inQuotes : Bool) → (field : List Char) → (row : List String) → List Char →
    List (List String)
  | _, field, row, [] => if field ≠ [] ∨ row ≠ [] then [row ++ [String.ofList field]] else []
  | true, field, row, '"' :: '"' :: cs => rowsFrom true (field ++ ['"']) row cs
  | true, field, row, '"' :: cs => rowsFrom false field row cs
  | true, field, row, c :: cs => rowsFrom true (field ++ [c]) row cs
  | false, field, row, c :: cs =>
    if c = '"' then rowsFrom true field row cs
    else if c = ',' then rowsFrom false [] (row ++ [String.ofList field]) cs
    else if c = '\r' then rowsFrom false field row cs
    else if c = '\n' then (row ++ [String.ofList field]) :: rowsFrom false [] [] cs
    else rowsFrom false (field ++ [c]) row cs

variable (row : List String)

def isBlankRow : Bool := row.all fun cell => trim cell = ""

def parseCsv (text : String) : List (List String) :=
  (rowsFrom false [] [] text.toList).filter fun row => ¬ isBlankRow row

/-- `[$\s,]` -/
def isMoneySign (c : Char) : Bool := c = '$' ∨ isSpace c ∨ c = ','

def parseAmount (raw : Option String) : Option String := do
  let s := (trim (← raw)).toList
  if s = [] ∨ s = ['-'] then none
  else
    let negative : Bool := s.head? = some '(' ∧ s.getLast? = some ')'
    let s := (if negative then (s.drop 1).dropLast else s).filter fun c => ¬ isMoneySign c
    let minus : Bool := s.head? = some '-'
    let s := if minus then s.drop 1 else s
    match Money.decimalParts s with
    | some (false, _) => some ((if negative ≠ minus then "-" else "") ++ String.ofList s)
    | _ => none

/-- `/^total\b/i` -/
def isTotalRow (label : String) : Bool :=
  let s := (trim label).toList
  (s.take 5).map Char.toLower = "total".toList ∧
    ¬ (s.drop 5).head?.any fun c => c.isAlphanum ∨ c = '_'

def cellAt (column : Option Nat) : Option String := column.bind fun i => row[i]?

def cellText (column : Option Nat) : String :=
  trim ((cellAt row column).getD "")

/-- `\s+` is a hyphen. -/
def hyphened : List Char → List Char
  | [] => []
  | c :: cs =>
    if isSpace c then if cs.head?.any isSpace then hyphened cs else '-' :: hyphened cs
    else c :: hyphened cs

structure JournalColumns where
  date : Option Nat
  type : Option Nat
  num : Option Nat
  account : Option Nat
  debit : Option Nat
  credit : Option Nat
  memo : Option Nat
  deriving DecidableEq

/-- The entries that are closed, the one that is open and the number of dates read. -/
structure JournalState where
  entries : List QboJournalEntry
  current : Option QboJournalEntry
  counter : Nat

def JournalState.flush (s : JournalState) : JournalState where
  entries := match s.current with
    | some entry => if entry.lines ≠ [] then s.entries ++ [entry] else s.entries
    | none => s.entries
  current := none
  counter := s.counter

section
-- `String.prototype.toLowerCase`
variable (lowerCase : String → String)

def colIndex (header names : List String) : Option Nat :=
  let lower := header.map fun h => lowerCase (trim h)
  (names.map lowerCase).findSome? fun target =>
    lower.findIdx? fun h => decide (target.toList <:+: h.toList)

def findHeader (rows : List (List String)) (required : List String) : Option Nat :=
  rows.findIdx? fun row => required.all fun name => (colIndex lowerCase row [name]).isSome

def entryId (type num : String) (counter : Nat) : String :=
  let kind := lowerCase (String.ofList (hyphened type.toList))
  "-".intercalate ([if kind = "" then "txn" else kind,
    if num = "" then toString counter else num].filter (· ≠ ""))

variable (cols : JournalColumns) (s : JournalState) (row : List String)

def openEntry : JournalState :=
  let date := cellText row cols.date
  if date ≠ "" then
    let s := s.flush
    let id := entryId lowerCase (cellText row cols.type) (cellText row cols.num) (s.counter + 1)
    ⟨s.entries, some ⟨id, date, [], none⟩, s.counter + 1⟩
  else s

def readLine : JournalState :=
  let account := cellText row cols.account
  match s.current with
  | none => s
  | some entry =>
    if account = "" then s
    else
      let debit := parseAmount (cellAt row cols.debit)
      let credit := parseAmount (cellAt row cols.credit)
      if debit = none ∧ credit = none then s
      else
        let memo := cellText row cols.memo
        let line := ⟨account, debit, credit, if memo ≠ "" then some memo else none⟩
        ⟨s.entries, some ⟨entry.id, entry.date, entry.lines ++ [line], entry.memo⟩, s.counter⟩

def readRow : JournalState :=
  if isTotalRow (cellText row cols.account) ∨
      (cellText row cols.date ≠ "" ∧ isTotalRow (cellText row cols.type)) then s
  else readLine cols (openEntry lowerCase cols s row) row

def journalColumns (header : List String) : JournalColumns where
  date := colIndex lowerCase header ["date"]
  type := colIndex lowerCase header ["transaction type", "type"]
  num := colIndex lowerCase header ["num", "number"]
  account := colIndex lowerCase header ["account"]
  debit := colIndex lowerCase header ["debit"]
  credit := colIndex lowerCase header ["credit"]
  memo := colIndex lowerCase header ["memo", "description"]

def parseJournalCsv (text : String) : Except String (List QboJournalEntry) :=
  let rows := parseCsv text
  match findHeader lowerCase rows ["date", "account"] with
  | none => .error "journal CSV: could not find a 'Date'/'Account' header row"
  | some h =>
    let cols := journalColumns lowerCase (rows.getD h [])
    .ok ((rows.drop (h + 1)).foldl (readRow lowerCase cols) ⟨[], none, 0⟩).flush.entries

end

/-! The journal report as QuickBooks writes it, and its cells read back. -/

open Money

/-- What is left open to whoever writes the file. -/
structure CsvStyle where
  /-- The cells that are quoted without need. -/
  quotes : String → Bool
  /-- Whether a row ends in a carriage return and a line feed. -/
  crlf : Bool
  /-- Whether an amount has a dollar sign in front. -/
  dollar : Bool

def needsQuotes (s : String) : Bool := s.toList.any fun c => c ∈ [',', '"', '\r', '\n']

def escaped (cs : List Char) : List Char := cs.flatMap fun c => if c = '"' then ['"', '"'] else [c]

/-- A comma in front of every third digit from the end. -/
def grouped : List Char → List Char
  | [] => []
  | [d] => [d]
  | d :: d' :: ds =>
    if (d' :: ds).length % 3 = 0 then d :: ',' :: grouped (d' :: ds) else d :: grouped (d' :: ds)

structure SourceLine where
  name : String
  memo : String
  account : String
  side : EntrySide
  minor : Nat

def minorOf (side : EntrySide) (lines : List SourceLine) : Nat :=
  ((lines.filter (·.side = side)).map SourceLine.minor).sum

structure Transaction where
  date : String
  type : String
  num : String
  first : SourceLine
  rest : List SourceLine
  dated : trim date ≠ ""
  positive : ∀ l ∈ first :: rest, 0 < l.minor
  balanced : minorOf .debit (first :: rest) = minorOf .credit (first :: rest)

def Transaction.lines (t : Transaction) : List SourceLine := t.first :: t.rest

section
variable (style : CsvStyle) (currency : Currency)

def csvCell (s : String) : List Char :=
  if style.quotes s ∨ needsQuotes s then '"' :: (escaped s.toList ++ ['"']) else s.toList

def lineEnd : List Char := if style.crlf then ['\r', '\n'] else ['\n']

def csvRow (cells : List String) : List Char :=
  [','].intercalate (cells.map (csvCell style)) ++ lineEnd style

def csvText (rows : List (List String)) : String := String.ofList (rows.flatMap (csvRow style))

def moneyText (minor : Nat) : String :=
  String.ofList ((if style.dollar then ['$'] else []) ++
    decimalChars (grouped (wholeDigits currency.scale minor)) (fracDigits currency.scale minor))

def journalHeader : List String :=
  ["Date", "Transaction Type", "Num", "Name", "Memo/Description", "Account", "Debit", "Credit"]

def lineCells (date type num : String) (l : SourceLine) : List String :=
  let amount := moneyText style currency l.minor
  [date, type, num, l.name, l.memo, l.account, if l.side = .debit then amount else "",
    if l.side = .debit then "" else amount]

def transactionRows (t : Transaction) : List (List String) :=
  lineCells style currency t.date t.type t.num t.first ::
    t.rest.map (lineCells style currency "" "" "")

def journalText (ts : List Transaction) : String :=
  csvText style (journalHeader :: ts.flatMap (transactionRows style currency))

end

section
variable {field : List Char} {row : List String} {rest : List Char}

theorem rowsFrom_escaped (s : List Char) (hrest : rest.head? ≠ some '"') :
    rowsFrom true field row (escaped s ++ '"' :: rest) = rowsFrom false (field ++ s) row rest := by
  induction s generalizing field with
  | nil =>
    rw [append_nil]
    cases rest with
    | nil => rfl
    | cons c rest =>
      have hc : c ≠ '"' := fun h => hrest (congrArg some h)
      exact rowsFrom.eq_3 _ _ _ fun cs h => hc (cons.inj h).1
  | cons c s ih =>
    by_cases hc : c = '"'
    · rw [hc, show escaped ('"' :: s) ++ '"' :: rest = '"' :: '"' :: (escaped s ++ '"' :: rest) from rfl,
        rowsFrom.eq_2, ih, append_assoc]
      rfl
    · have hcons : escaped (c :: s) ++ '"' :: rest = c :: (escaped s ++ '"' :: rest) := by
        unfold escaped
        rw [flatMap_cons, if_neg hc]
        rfl
      rw [hcons, rowsFrom.eq_4 _ _ _ _ (fun cs h => absurd h hc) hc, ih, append_assoc]
      rfl

theorem rowsFrom_plain (s : List Char) (hplain : ∀ c ∈ s, c ∉ [',', '"', '\r', '\n']) :
    rowsFrom false field row (s ++ rest) = rowsFrom false (field ++ s) row rest := by
  induction s generalizing field with
  | nil => rw [nil_append, append_nil]
  | cons c s ih =>
    have hc := hplain c mem_cons_self
    simp only [mem_cons, not_mem_nil, or_false, not_or] at hc
    obtain ⟨hcomma, hquote, hret, hfeed⟩ := hc
    rw [cons_append, rowsFrom, if_neg hquote, if_neg hcomma, if_neg hret, if_neg hfeed,
      ih fun d hd => hplain d (mem_cons_of_mem _ hd), append_assoc]
    rfl

variable (style : CsvStyle)

theorem rowsFrom_csvCell (s : String) (hrest : rest.head? ≠ some '"') :
    rowsFrom false field row (csvCell style s ++ rest) =
      rowsFrom false (field ++ s.toList) row rest := by
  unfold csvCell
  split_ifs with hquot
  · rw [cons_append, append_assoc, rowsFrom, if_pos rfl]
    exact rowsFrom_escaped _ hrest
  · refine rowsFrom_plain _ fun c hc hspec => hquot (.inr ?_)
    exact any_eq_true.mpr ⟨c, hc, decide_eq_true hspec⟩

/-- The cells of a row, in front of what ends it. -/
theorem rowsFrom_cells {cells : List String} {rows : List (List String)} (hne : cells ≠ [])
    (hrest : rest.head? ≠ some '"') (hend : ∀ front s, front ++ [s] = row ++ cells →
      rowsFrom false s.toList front rest = rows) :
    rowsFrom false [] row ([','].intercalate (cells.map (csvCell style)) ++ rest) = rows := by
  induction cells generalizing row with
  | nil => exact absurd rfl hne
  | cons s cells ih =>
    cases cells with
    | nil =>
      rw [map_singleton, intercalate_singleton, rowsFrom_csvCell style s hrest, nil_append]
      exact hend row s rfl
    | cons t cells =>
      have hcomma : ∀ cs : List Char, ([','] ++ cs).head? ≠ some '"' :=
        fun cs h => absurd (Option.some.inj h) (by decide)
      rw [map_cons, map_cons, intercalate_cons_cons, append_assoc, append_assoc,
        rowsFrom_csvCell style s (hcomma _), nil_append]
      show rowsFrom false [] (row ++ [String.ofList s.toList]) _ = _
      rw [String.ofList_toList]
      exact ih (cons_ne_nil _ _) fun front u h => hend front u (by rw [h, append_assoc]; rfl)

theorem rowsFrom_csvRow {cells : List String} (hne : cells ≠ []) :
    rowsFrom false [] row (csvRow style cells ++ rest) =
      (row ++ cells) :: rowsFrom false [] [] rest := by
  unfold csvRow
  rw [append_assoc]
  refine rowsFrom_cells style hne ?_ fun front s h => ?_
  · unfold lineEnd
    split_ifs <;> exact fun h => absurd (Option.some.inj h) (by decide)
  · rw [← h]
    unfold lineEnd
    rw [← String.ofList_toList (s := s)]
    split_ifs <;> simp [rowsFrom]

theorem parseCsv_csvText {rows : List (List String)} (hne : ∀ cells ∈ rows, cells ≠ []) :
    parseCsv (csvText style rows) = rows.filter fun cells => ¬ isBlankRow cells := by
  have hrows : rowsFrom false [] [] (rows.flatMap (csvRow style)) = rows := by
    induction rows with
    | nil => rfl
    | cons cells rows ih =>
      rw [flatMap_cons, rowsFrom_csvRow style (hne _ mem_cons_self), nil_append,
        ih fun r hr => hne r (mem_cons_of_mem _ hr)]
  unfold parseCsv csvText
  rw [String.toList_ofList, hrows]

end

/-! An amount is read back in plain decimals. -/

variable {ds : List Char}

theorem mem_grouped {c : Char} (h : c ∈ grouped ds) : c = ',' ∨ c ∈ ds := by
  induction ds using grouped.induct with
  | case1 => cases h
  | case2 d => exact .inr h
  | case3 d d' ds hthird ih =>
    rw [grouped, if_pos hthird] at h
    rcases mem_cons.mp h with rfl | h
    · exact .inr mem_cons_self
    · rcases mem_cons.mp h with rfl | h
      · exact .inl rfl
      · exact (ih h).imp_right (mem_cons_of_mem _)
  | case4 d d' ds hthird ih =>
    rw [grouped, if_neg hthird] at h
    rcases mem_cons.mp h with rfl | h
    · exact .inr mem_cons_self
    · exact (ih h).imp_right (mem_cons_of_mem _)

theorem isMoneySign_of_isDigit {c : Char} (h : c.isDigit = true) : isMoneySign c = false := by
  refine decide_eq_false ?_
  rintro (rfl | hspace | rfl)
  · exact absurd h (by decide)
  · rw [isSpace_of_isDigit h] at hspace
    cases hspace
  · exact absurd h (by decide)

theorem filter_digits (h : Digits ds) : ds.filter (fun c => ¬ isMoneySign c) = ds :=
  filter_eq_self.mpr fun c hc => by rw [isMoneySign_of_isDigit (h c hc)]; rfl

theorem filter_grouped (h : Digits ds) : (grouped ds).filter (fun c => ¬ isMoneySign c) = ds := by
  induction ds using grouped.induct with
  | case1 => rfl
  | case2 d => exact filter_digits h
  | case3 d d' ds hthird ih =>
    have hd : decide (¬ isMoneySign d = true) = true := by
      rw [isMoneySign_of_isDigit (h d mem_cons_self)]
      rfl
    rw [grouped, if_pos hthird, filter_cons, if_pos hd, filter_cons, if_neg (by decide),
      ih fun c hc => h c (mem_cons_of_mem _ hc)]
  | case4 d d' ds hthird ih =>
    have hd : decide (¬ isMoneySign d = true) = true := by
      rw [isMoneySign_of_isDigit (h d mem_cons_self)]
      rfl
    rw [grouped, if_neg hthird, filter_cons, if_pos hd,
      ih fun c hc => h c (mem_cons_of_mem _ hc)]

theorem grouped_ne_nil (h : ds ≠ []) : grouped ds ≠ [] := by
  cases ds with
  | nil => exact absurd rfl h
  | cons d ds =>
    cases ds with
    | nil => exact cons_ne_nil _ _
    | cons d' ds =>
      rw [grouped]
      split_ifs <;> exact cons_ne_nil _ _

section
variable (style : CsvStyle) (currency : Currency) (minor : Nat)

theorem mem_moneyText {c : Char} (h : c ∈ (moneyText style currency minor).toList) :
    c = '$' ∨ c = ',' ∨ c = '.' ∨ c.isDigit = true := by
  unfold moneyText at h
  rw [String.toList_ofList] at h
  rcases mem_append.mp h with h | h
  · split_ifs at h
    · exact .inl (mem_singleton.mp h)
    · cases h
  · rcases mem_append.mp h with h | h
    · rcases mem_grouped h with h | h
      · exact .inr (.inl h)
      · exact .inr (.inr (.inr (digits_wholeDigits _ _ c h)))
    · split_ifs at h
      · cases h
      · rcases mem_cons.mp h with h | h
        · exact .inr (.inr (.inl h))
        · exact .inr (.inr (.inr (digits_fracDigits _ _ c h)))

theorem trim_moneyText : trim (moneyText style currency minor) = moneyText style currency minor := by
  refine trim_of_not_space fun c hc => ?_
  rcases mem_moneyText style currency minor hc with rfl | rfl | rfl | hdig
  · decide
  · decide
  · decide
  · exact isSpace_of_isDigit hdig

theorem moneyText_toList_ne_nil : (moneyText style currency minor).toList ≠ [] := by
  unfold moneyText decimalChars
  rw [String.toList_ofList]
  intro h
  have hwhole := (append_eq_nil_iff.mp (append_eq_nil_iff.mp h).2).1
  exact grouped_ne_nil (wholeDigits_ne_nil _ _) hwhole

theorem head?_moneyText_ne {d : Char} (hd : ¬ (d = '$' ∨ d = ',' ∨ d = '.' ∨ d.isDigit = true)) :
    (moneyText style currency minor).toList.head? ≠ some d :=
  fun h => hd (mem_moneyText style currency minor (mem_of_head? h))

theorem filter_moneyText :
    (moneyText style currency minor).toList.filter (fun c => ¬ isMoneySign c) =
      decimalChars (wholeDigits currency.scale minor) (fracDigits currency.scale minor) := by
  have hsign : (if style.dollar then ['$'] else []).filter (fun c => ¬ isMoneySign c) = [] := by
    split_ifs <;> rfl
  unfold moneyText decimalChars
  rw [String.toList_ofList, filter_append, hsign, nil_append, filter_append,
    filter_grouped (digits_wholeDigits _ _)]
  congr 1
  split_ifs with hfrac
  · rfl
  · rw [filter_cons, if_pos (by decide), filter_digits (digits_fracDigits _ _)]

theorem parseAmount_moneyText : parseAmount (some (moneyText style currency minor)) =
    some (Money.toDecimalString ⟨minor, currency⟩) := by
  have hne := moneyText_toList_ne_nil style currency minor
  have hminus : (moneyText style currency minor).toList ≠ ['-'] := fun h =>
    head?_moneyText_ne style currency minor (d := '-') (by decide) (by rw [h]; rfl)
  have hparts := decimalParts_decimalChars (wholeDigits_ne_nil currency.scale minor)
    (digits_wholeDigits _ _) (digits_fracDigits currency.scale minor) false
  have hhead : (decimalChars (wholeDigits currency.scale minor)
      (fracDigits currency.scale minor)).head? ≠ some '-' := by
    rw [← filter_moneyText style]
    intro h
    have hmem := mem_of_mem_filter (mem_of_head? h)
    exact absurd (mem_moneyText style currency minor hmem) (by decide)
  have htext : String.ofList (decimalChars (wholeDigits currency.scale minor)
      (fracDigits currency.scale minor)) = Money.toDecimalString ⟨minor, currency⟩ := by
    rw [← String.toList_inj, String.toList_ofList, toList_toDecimalString]
    rw [if_neg (not_lt.mpr (Int.natCast_nonneg minor)), Int.natAbs_natCast, nil_append]
  unfold parseAmount
  rw [Option.bind_eq_bind, Option.bind_some, trim_moneyText]
  dsimp only
  rw [if_neg (by rintro (h | h); exacts [hne h, hminus h])]
  have hopen : decide ((moneyText style currency minor).toList.head? = some '(' ∧
      (moneyText style currency minor).toList.getLast? = some ')') = false :=
    decide_eq_false fun h => head?_moneyText_ne style currency minor (by decide) h.1
  rw [hopen, if_neg Bool.false_ne_true, filter_moneyText, decide_eq_false hhead,
    if_neg Bool.false_ne_true]
  rw [if_neg Bool.false_ne_true, nil_append] at hparts
  rw [hparts]
  dsimp only
  rw [if_neg (not_not.mpr rfl), htext]
  rfl

end

theorem parseAmount_empty : parseAmount (some "") = none := rfl

end Rgnr8.Migration
