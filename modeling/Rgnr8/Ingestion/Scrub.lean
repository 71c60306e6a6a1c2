import Rgnr8.Kernel.Money
import Rgnr8.Platform.OAuthState
import Mathlib.Algebra.Order.Round

/-! The scrubber of recorded documents. Amounts are scaled by one factor and rounded one by one, and
the documents repaired after it; personal texts are replaced by pseudonyms in a recursive walk. -/

namespace Rgnr8.Ingestion.Scrub
open Lib Lib.Js Lib.Py List

/-! Amounts. -/

/-- `-?\$?[0-9][0-9,]*(\.[0-9]+)?`: whether there is a sign, and the digits before and after the
point. -/
def moneyParts (text : List Char) : Option (Bool × List Char × List Char) :=
  let negative : Bool := text.head? = some '-'
  let unsigned := if negative then text.drop 1 else text
  let bare := if unsigned.head? = some '$' then unsigned.drop 1 else unsigned
  let whole := bare.takeWhile fun c => c.isDigit ∨ c = ','
  let frac := bare.drop whole.length
  match whole with
  | [] => none
  | first :: _ =>
    if ¬ first.isDigit then none
    else match frac with
      | [] => some (negative, whole, [])
      | '.' :: frac =>
        if frac ≠ [] ∧ frac.all Char.isDigit then some (negative, whole, frac) else none
      | _ => none

/-- The amount that a text is, if it is one: `_is_money` and `_to_decimal` of a text. -/
def moneyText (s : String) : Option ℚ :=
  match moneyParts (strip s).toList with
  | none => none
  | some (negative, whole, frac) =>
    let n : ℚ := ((naturalIn 10 (whole.filter (· ≠ ',') ++ frac)).getD 0 : Nat) / 10 ^ frac.length
    some (if negative then -n else n)

/-- `_amount`, where `_is_money`. -/
def money : Json → Option ℚ
  | .string s => moneyText s
  | .number q => q
  | _ => none

def isMoney (value : Json) : Bool := (money value).isSome

/-- `_amount` of what a document has under a name. -/
def amount (value : Option Json) : ℚ := ((value.bind money)).getD 0

/-- `quantize(CENT, ROUND_HALF_UP)`, in cents. -/
def toCents (q : ℚ) : Int := if 0 ≤ q then ⌊q * 100 + 1 / 2⌋ else -⌊-q * 100 + 1 / 2⌋

def grouped : List Char → List Char
  | [] => []
  | d :: ds => if ds ≠ [] ∧ ds.length % 3 = 0 then d :: ',' :: grouped ds else d :: grouped ds

/-- `f"{amount:.2f}"`, or `f"{amount:,.2f}"`, of an amount in cents. -/
def fixed2 (separated : Bool) (cents : Int) : String :=
  let whole := Kernel.Money.wholeDigits 2 cents.natAbs
  String.ofList ((if cents < 0 then ['-'] else []) ++
    ((if separated then grouped whole else whole) ++
      '.' :: Kernel.Money.fracDigits 2 cents.natAbs))

/-- `_formatted_like`, of an amount in cents. -/
def formattedLike (template : Json) (cents : Int) : Json :=
  match template with
  | .string s => .string (fixed2 (',' ∈ s.toList) cents)
  | _ => .number (some (cents / 100))

/-- `_scaled` -/
def scaled (factor : ℚ) (value : Json) : Json :=
  formattedLike value (toCents (amount (some value) * factor))

/-! What is written is read back. -/

theorem filter_grouped {digits : List Char} (h : Digits digits) :
    (grouped digits).filter (· ≠ ',') = digits := by
  induction digits with
  | nil => rfl
  | cons d ds ih =>
    have hd : d ≠ ',' := by
      rintro rfl
      exact absurd (h _ mem_cons_self) (by decide)
    have hrest := ih fun c hc => h c (mem_cons_of_mem _ hc)
    have hkeep (cs : List Char) : (d :: cs).filter (· ≠ ',') = d :: cs.filter (· ≠ ',') :=
      filter_cons_of_pos (decide_eq_true hd)
    rw [grouped]
    split_ifs
    · rw [hkeep, filter_cons_of_neg (by decide), hrest]
    · rw [hkeep, hrest]

structure UnicodeTables where
  fold : Char → List Char
  isWord : Char → Bool
  fold_newline : fold '\n' = ['\n']
  newline_not_word : isWord '\n' = false

def UnicodeTables.casefold (u : UnicodeTables) (s : String) : String :=
  String.ofList (s.toList.flatMap u.fold)

structure Pseudonyms where
  key : List Nat
  unicode : UnicodeTables

namespace Pseudonyms
variable (p : Pseudonyms)
variable (label value : String)

/-- `_digest`, of eight digits. -/
def digest : List Char :=
  let hex (n : Nat) : Char := "0123456789abcdef".toList.getD n '0'
  let mac := Platform.OAuth.hmac p.key (Sha256.utf8 (label.toList ++ Char.ofNat 0 :: value.toList))
  (mac.flatMap fun byte => [hex (byte / 16), hex (byte % 16)]).take 8

def digestText : String := String.ofList (p.digest label value)

def digestNat : Nat := (naturalIn 16 (p.digest label value)).getD 0

/-- Case and the space around do not change the pseudonym. -/
def normal (value : String) : String := p.unicode.casefold (strip value)

def name (value : String) : String := "Name-" ++ p.digestText "name" (p.normal value)

def memo (value : String) : String := "memo " ++ p.digestText "memo" value

def email (value : String) : String :=
  "user-" ++ p.digestText "email" (p.normal value) ++ "@example.com"

def phone (value : String) : String := "555-" ++ padStart 4 (p.digestNat "phone" value % 10000)

def web (value : String) : String := "https://example.com/" ++ p.digestText "web" value

def addressLine (value : String) : String :=
  toString (p.digestNat "line" value % 9000 + 100) ++ " Fixture Way"

def city (value : String) : String := "City-" ++ p.digestText "city" value

def postal (value : String) : String := padStart 5 (p.digestNat "postal" value % 100000)

def file (value : String) : String := "file-" ++ p.digestText "file" value

def identifier (value : String) : String := "ID-" ++ p.digestText "id" value

def other (value : String) : String := "x-" ++ p.digestText "other" value

end Pseudonyms

/-! The walk. -/

def ENTITIES : List String :=
  ["Account", "Customer", "Vendor", "Employee", "Item", "Class", "Department", "Term",
    "PaymentMethod", "TaxCode", "TaxRate", "Invoice", "Payment", "SalesReceipt", "CreditMemo",
    "RefundReceipt", "Deposit", "Transfer", "Bill", "BillPayment", "VendorCredit", "Purchase",
    "JournalEntry", "Estimate", "PurchaseOrder", "TimeActivity", "Attachable"]

def MONEY_KEYS : List String :=
  ["TotalAmt", "Balance", "BalanceWithJobs", "Amount", "UnitPrice", "PurchaseCost", "TotalTax",
    "TaxAmount", "TaxInclusiveAmount", "NetAmountTaxable", "UnappliedAmt", "RemainingCredit",
    "CurrentBalance", "CurrentBalanceWithSubAccounts", "HomeBalance",
    "HomeBalanceWithSubAccounts", "BillRate", "PayRate", "HourlyRate"]

def TOTALLED : List String :=
  ["Invoice", "SalesReceipt", "CreditMemo", "RefundReceipt", "Estimate", "PurchaseOrder", "Bill",
    "VendorCredit", "Purchase", "Deposit", "BillPayment", "Payment"]

def NAME_KEYS : List String :=
  ["DisplayName", "CompanyName", "LegalName", "GivenName", "FamilyName", "MiddleName",
    "PrintOnCheckName"]

def NAME_KEEP_ENTITIES : List String :=
  ["Account", "Class", "Department", "Term", "PaymentMethod", "TaxCode", "TaxRate"]

def KEEP_REF_NAMES : List String :=
  ["ClassRef", "DepartmentRef", "TaxCodeRef", "TermRef", "PaymentMethodRef", "CurrencyRef",
    "TxnTaxCodeRef", "TaxRateRef"]

def MEMO_KEYS : List String :=
  ["PrivateNote", "Memo", "Description", "CustomerMemo", "Note", "Notes"]

def ID_NUMBER_KEYS : List String :=
  ["TaxIdentifier", "SSN", "EIN", "AcctNum", "BankAccountNumber", "RoutingNumber",
    "AccountNumber", "ResaleNum", "TaxNumber"]

def EMAIL_PARENTS : List String := ["PrimaryEmailAddr", "EmailAddr", "Email", "BillEmail"]

def ADDRESS_LINE_KEYS : List String := ["Line1", "Line2", "Line3", "Line4", "Line5"]

def ADDRESS_KEPT_KEYS : List String := ["Country", "CountrySubDivisionCode"]

def KEEP_KEYS : List String :=
  ["Id", "SyncToken", "TxnType", "TxnId", "type", "Type", "AccountType", "AccountSubType",
    "Classification", "Domain", "value", "PostingType", "DetailType", "DocNumber", "Active",
    "Taxable", "FiscalYearStartMonth", "ContentType", "Currency", "Level", "SubAccount",
    "Sparse", "Qty", "Rate", "RateValue", "TaxPercent", "Size"]

def KEEP_SUFFIXES : List String := ["Date", "Time", "Status", "Id"]

def endsWith (text suffix : String) : Bool := suffix.toList <:+ text.toList

structure Personal where
  category : String
  original : String
  replacement : String

/-- What becomes of a text: what stands in its place, the personal values that were replaced, and
the replacements that the leak check leaves out. -/
structure Outcome where
  text : String
  personal : List Personal
  generated : List String

/-- `_personal`; the walk refuses a replacement equal to the original. -/
def personal (category original replacement : String) : Outcome :=
  ⟨replacement, [⟨category, original, replacement⟩], [replacement]⟩

def segments : List Char → List (List Char)
  | [] => [[]]
  | c :: cs =>
    if c = ':' then [] :: segments cs
    else match segments cs with
      | [] => [[c]]
      | seg :: segs => (c :: seg) :: segs

def fullyQualified (p : Pseudonyms) (value : String) : Outcome :=
  let outcomes := (segments value.toList).map fun seg =>
    let text := String.ofList seg
    if strip text = "" then ⟨text, [], []⟩ else personal "name" (strip text) (p.name text)
  { text := ":".intercalate (outcomes.map Outcome.text)
    personal := outcomes.flatMap Outcome.personal
    generated := outcomes.flatMap Outcome.generated }

/-- `_string` -/
def string (p : Pseudonyms) (key value entity ownKey : String) : Outcome :=
  if value = "" then ⟨value, [], []⟩
  else if key ∈ NAME_KEYS then personal "name" value (p.name value)
  else if key = "Name" then
    if entity ∈ NAME_KEEP_ENTITIES ∨ ownKey = "CustomField" then ⟨value, [], []⟩
    else personal "name" value (p.name value)
  else if key = "FullyQualifiedName" then
    if entity ∈ NAME_KEEP_ENTITIES then ⟨value, [], []⟩ else fullyQualified p value
  else if key = "name" then
    if endsWith ownKey "AccountRef" ∨ ownKey ∈ KEEP_REF_NAMES then ⟨value, [], []⟩
    else if ownKey = "ParentRef" ∧ entity = "Account" then ⟨value, [], []⟩
    else personal "name" value (p.name value)
  else if key ∈ MEMO_KEYS then personal "memo" value (p.memo value)
  else if key = "value" ∧ ownKey ∈ MEMO_KEYS then personal "memo" value (p.memo value)
  else if key ∈ ID_NUMBER_KEYS then
    if key = "AcctNum" ∧ entity = "Account" then ⟨value, [], []⟩
    else personal "identifier" value (p.identifier value)
  else if key = "FileName" then personal "file" value (p.file value)
  else if key = "URI" then personal "web" value (p.web value)
  else if key = "FreeFormNumber" then personal "phone" value (p.phone value)
  else if key = "Address" ∧ ownKey ∈ EMAIL_PARENTS then personal "email" value (p.email value)
  else if endsWith ownKey "Addr" ∧ key ∈ ADDRESS_LINE_KEYS then
    personal "address" value (p.addressLine value)
  else if endsWith ownKey "Addr" ∧ key = "City" then personal "address" value (p.city value)
  else if endsWith ownKey "Addr" ∧ key = "PostalCode" then personal "address" value (p.postal value)
  else if endsWith ownKey "Addr" ∧ (key = "Lat" ∨ key = "Long") then ⟨"0", [], ["0"]⟩
  else if endsWith ownKey "Addr" ∧ key ∈ ADDRESS_KEPT_KEYS then ⟨value, [], []⟩
  else if key ∈ KEEP_KEYS ∨ KEEP_SUFFIXES.any (endsWith key) then ⟨value, [], []⟩
  else ⟨p.other value, [], [p.other value]⟩

structure Scrubber where
  pseudonyms : Pseudonyms
  factor : ℚ

/-- `_leaf` -/
def leaf (S : Scrubber) (key : String) (value : Json) (entity ownKey : String) : Json :=
  match value with
  | .string s =>
    if key ∈ MONEY_KEYS ∧ isMoney value then scaled S.factor value
    else .string (string S.pseudonyms key s entity ownKey).text
  | .number _ => if key ∈ MONEY_KEYS ∧ isMoney value then scaled S.factor value else value
  | _ => value

/-! Totals. -/

/-- `out[name] = value` -/
def setField (name : String) (value : Json) : List (String × Json) → List (String × Json)
  | [] => [(name, value)]
  | f :: fields =>
    if f.1 = name then (name, value) :: fields else f :: setField name value fields

def under (value : Option Json) (name : String) : Option Json :=
  match value with
  | some (.object fields) => lookup fields name
  | _ => none

def isText (value : Option Json) (text : String) : Bool :=
  match value with
  | some (.string s) => s = text
  | _ => false

def linesOf (fields : List (String × Json)) : Option (List Json) :=
  match lookup fields "Line" with
  | some (.array lines) => some lines
  | _ => none

/-- `_line_amount` -/
def lineAmount (line : Json) : ℚ := amount (under (some line) "Amount")

def lineTotal (line : Json) : ℚ :=
  if isText (under (some line) "DetailType") "SubTotalLineDetail" then 0 else lineAmount line

/-- `_document_total` -/
def documentTotal (row : List (String × Json)) : ℚ :=
  (((linesOf row).getD []).map lineTotal).sum +
    amount (under (lookup row "TxnTaxDetail") "TotalTax") + amount (lookup row "UnappliedAmt")

def posting (line : Json) : Option Json :=
  under (under (some line) "JournalEntryLineDetail") "PostingType"

def side (which : String) (lines : List Json) : ℚ :=
  (lines.map fun line => if isText (posting line) which then lineAmount line else 0).sum

def isCandidate (which : String) (line : Json) : Bool :=
  isText (posting line) which ∧ (under (some line) "Amount").any isMoney

def largest (which : String) : List Json → Option ℚ
  | [] => none
  | line :: lines =>
    if isCandidate which line then
      some ((largest which lines).elim (lineAmount line) (max (lineAmount line)))
    else largest which lines

def raised (difference : ℚ) : Json → Json
  | .object fields =>
    let old := (lookup fields "Amount").getD .null
    let cents := toCents (amount (some old) + difference)
    .object (setField "Amount" (formattedLike old cents) fields)
  | line => line

def raiseFirst (which : String) (most difference : ℚ) : List Json → List Json
  | [] => []
  | line :: lines =>
    if isCandidate which line ∧ lineAmount line = most then raised difference line :: lines
    else line :: raiseFirst which most difference lines

/-- `_rebalance_journal` -/
def rebalance (source out : List (String × Json)) : List (String × Json) :=
  match linesOf source, linesOf out with
  | some sourceLines, some outLines =>
    if side "Debit" sourceLines ≠ side "Credit" sourceLines then out
    else
      let difference := side "Debit" outLines - side "Credit" outLines
      if difference = 0 then out
      else
        let want := if 0 < difference then "Credit" else "Debit"
        match largest want outLines with
        | none => out
        | some most => setField "Line" (.array (raiseFirst want most |difference| outLines)) out
  | _, _ => out

/-- `_fix_totals` -/
def fixTotals (entity : String) (source out : List (String × Json)) : List (String × Json) :=
  if entity = "JournalEntry" then rebalance source out
  else if entity ∉ TOTALLED then out
  else match lookup source "TotalAmt", linesOf out with
    | some total, some _ =>
      if documentTotal source ≠ amount (some total) then out
      else
        let cents := toCents (documentTotal out)
        let out := setField "TotalAmt" (formattedLike total cents) out
        match lookup source "Balance" with
        | some balance =>
          if amount (some balance) = amount (some total) ∧ isMoney balance then
            setField "Balance" (formattedLike balance cents) out
          else out
        | none => out
    | _, _ => out

/-! The walk. -/

mutual

/-- `_dict` -/
def dict (S : Scrubber) (entity ownKey : String) : List (String × Json) → List (String × Json)
  | [] => []
  | (key, value) :: fields =>
    if key = "TempDownloadUri" then dict S entity ownKey fields
    else (key, item S entity ownKey key value) :: dict S entity ownKey fields

def item (S : Scrubber) (entity ownKey key : String) : Json → Json
  | .object fields => .object (dict S entity key fields)
  | .array items => .array (list S entity key items)
  | .null => .null
  | .bool b => .bool b
  | .number n => leaf S key (.number n) entity ownKey
  | .string s => leaf S key (.string s) entity ownKey

/-- `_list`: under the name of an entity its items are rows of it. -/
def list (S : Scrubber) (entity key : String) : List Json → List Json
  | [] => []
  | .object fields :: items =>
    .object (if key ∈ ENTITIES then fixTotals key fields (dict S key key fields)
      else dict S entity key fields) :: list S entity key items
  | .array nested :: items => .array (list S entity key nested) :: list S entity key items
  | .null :: items => .null :: list S entity key items
  | .bool b :: items => .bool b :: list S entity key items
  | .number n :: items => leaf S key (.number n) entity "" :: list S entity key items
  | .string s :: items => leaf S key (.string s) entity "" :: list S entity key items

end

def row (S : Scrubber) (entity : String) (fields : List (String × Json)) : List (String × Json) :=
  fixTotals entity fields (dict S entity entity fields)

/-! The texts that the walk replaces or keeps, each with its path. -/

structure Occurrence where
  key : String
  value : String
  entity : String
  ownKey : String
  path : String

def Occurrence.outcome (p : Pseudonyms) (o : Occurrence) : Outcome :=
  string p o.key o.value o.entity o.ownKey

def leafTexts (entity path ownKey key s : String) : List Occurrence :=
  if key ∈ MONEY_KEYS ∧ isMoney (.string s) then [] else [⟨key, s, entity, ownKey, path⟩]

def childPath (path key : String) : String := if path = "" then key else path ++ "." ++ key

def itemPath (path : String) (index : Nat) : String := path ++ "[" ++ toString index ++ "]"

mutual

def dictTexts (entity path ownKey : String) : List (String × Json) → List Occurrence
  | [] => []
  | (key, value) :: fields =>
    if key = "TempDownloadUri" then dictTexts entity path ownKey fields
    else itemTexts entity (childPath path key) ownKey key value ++
      dictTexts entity path ownKey fields

def itemTexts (entity path ownKey key : String) : Json → List Occurrence
  | .object fields => dictTexts entity path key fields
  | .array items => listTexts entity path key 0 items
  | .string s => leafTexts entity path ownKey key s
  | _ => []

def listTexts (entity path key : String) (index : Nat) : List Json → List Occurrence
  | [] => []
  | .object fields :: items =>
    dictTexts (if key ∈ ENTITIES then key else entity) (itemPath path index) key fields ++
      listTexts entity path key (index + 1) items
  | .array nested :: items =>
    listTexts entity (itemPath path index) key 0 nested ++
      listTexts entity path key (index + 1) items
  | .string s :: items =>
    leafTexts entity (itemPath path index) "" key s ++ listTexts entity path key (index + 1) items
  | _ :: items => listTexts entity path key (index + 1) items

end

/-- `document` -/
def document (S : Scrubber) (entity : String) : Json → Json
  | .object fields => .object (dict S entity "" fields)
  | .array items => .array (list S entity "" items)
  | value => value

def documentTexts (entity path : String) : Json → List Occurrence
  | .object fields => dictTexts entity path "" fields
  | .array items => listTexts entity path "" 0 items
  | _ => []

/-! Reports. -/

variable (fields : List (String × Json))

def columns : Option (List Json) :=
  match lookup fields "ColData" with
  | some (.array cols) => some cols
  | _ => none

def cellValue (cell : Json) : Option Json := under (some cell) "value"

def isAccountRow : List Json → Bool
  | first :: _ :: _ :: _ => (under (some first) "id").isSome
  | _ => false

def isTotalRow : List Json → Bool
  | first :: _ :: _ :: _ =>
    match cellValue first with
    | some (.string s) => toUpperCase (strip s) = "TOTAL"
    | _ => false
  | _ => false

def totalRow : Option (List Json) :=
  match lookup fields "Summary" with
  | some (.object summary) => (columns summary).filter isTotalRow
  | _ => none

mutual

/-- `_cells_of`: the rows of accounts. -/
def accountRows : Json → List (List Json)
  | .object fields => ((columns fields).filter isAccountRow).toList ++ accountRowsOfFields fields
  | .array items => accountRowsOfItems items
  | _ => []

def accountRowsOfFields : List (String × Json) → List (List Json)
  | [] => []
  | (_, value) :: fields => accountRows value ++ accountRowsOfFields fields

def accountRowsOfItems : List Json → List (List Json)
  | [] => []
  | value :: items => accountRows value ++ accountRowsOfItems items

end

mutual

/-- `_cells_of`: the TOTAL rows. -/
def totalRows : Json → List (List Json)
  | .object fields => (totalRow fields).toList ++ totalRowsOfFields fields
  | .array items => totalRowsOfItems items
  | _ => []

def totalRowsOfFields : List (String × Json) → List (List Json)
  | [] => []
  | (_, value) :: fields => totalRows value ++ totalRowsOfFields fields

def totalRowsOfItems : List Json → List (List Json)
  | [] => []
  | value :: items => totalRows value ++ totalRowsOfItems items

end

def scaleCell (factor : ℚ) (cell : Json) : Json :=
  match cell with
  | .object fields =>
    match lookup fields "value" with
    | some value =>
      if isMoney value then .object (setField "value" (scaled factor value) fields) else cell
    | none => cell
  | _ => cell

def debitCredit (cols : List Json) : ℚ × ℚ :=
  (amount (cols[1]?.bind cellValue), amount (cols[2]?.bind cellValue))

def sums (rows : List (List Json)) : ℚ × ℚ :=
  ((rows.map fun cols => (debitCredit cols).1).sum, (rows.map fun cols => (debitCredit cols).2).sum)

/-- `cell["value"] = value`, of a dictionary. -/
def setValue (cell : Json) (value : Json) : Json :=
  match cell with
  | .object fields => .object (setField "value" value fields)
  | _ => cell

def setTotals (sourceSums newSums : ℚ × ℚ) (source out : List Json) : List Json :=
  if debitCredit source = sourceSums then
    match out with
    | first :: debit :: credit :: cells =>
      first ::
        setValue debit (formattedLike ((cellValue debit).getD .null) (toCents newSums.1)) ::
        setValue credit (formattedLike ((cellValue credit).getD .null) (toCents newSums.2)) :: cells
    | _ => out
  else out

def scaleColumns (factor : ℚ) (fields : List (String × Json)) : List (String × Json) :=
  match columns fields with
  | some (first :: cells) =>
    setField "ColData" (.array (first :: cells.map (scaleCell factor))) fields
  | _ => fields

def fixSummary (fix : List Json → List Json → List Json) (source out : List (String × Json)) :
    List (String × Json) :=
  match totalRow source, lookup out "Summary" with
  | some cols, some (.object summary) =>
    setField "Summary" (.object (setField "ColData"
      (.array (fix cols ((columns summary).getD []))) summary)) out
  | _, _ => out

mutual

def reportNode (factor : ℚ) (fix : List Json → List Json → List Json) : Json → Json
  | .object fields =>
    .object (fixSummary fix fields (scaleColumns factor (reportFields factor fix fields)))
  | .array items => .array (reportItems factor fix items)
  | .null => .null
  | .bool b => .bool b
  | .number n => .number n
  | .string s => .string s

def reportFields (factor : ℚ) (fix : List Json → List Json → List Json) :
    List (String × Json) → List (String × Json)
  | [] => []
  | (key, value) :: fields => (key, reportNode factor fix value) :: reportFields factor fix fields

def reportItems (factor : ℚ) (fix : List Json → List Json → List Json) : List Json → List Json
  | [] => []
  | value :: items => reportNode factor fix value :: reportItems factor fix items

end

mutual

/-- `_strings` -/
def strings : Json → List String
  | .object fields => stringsOfFields fields
  | .array items => stringsOfItems items
  | .string s => [s]
  | _ => []

def stringsOfFields : List (String × Json) → List String
  | [] => []
  | (_, value) :: fields => strings value ++ stringsOfFields fields

def stringsOfItems : List Json → List String
  | [] => []
  | value :: items => strings value ++ stringsOfItems items

end

variable (u : UnicodeTables)

def boundary (c : Option Char) : Bool := ¬ c.any u.isWord

def hasWord (u : UnicodeTables) (word : List Char) (before : Option Char) : List Char → Bool
  | [] => word = [] ∧ boundary u before
  | c :: cs =>
    (word <+: c :: cs ∧ boundary u before ∧ boundary u ((c :: cs).drop word.length).head?) ∨
      hasWord u word (some c) cs

structure Recorded where
  parts : List String
  doc : Json

namespace Recorded

variable (file : Recorded)

def isReport : Bool := file.parts.head? = some "reports"

def entity : String :=
  if file.parts.head? = some "CDC" then "" else file.parts.headD ""

def texts : List Occurrence :=
  if file.isReport then []
  else documentTexts file.entity ("/".intercalate file.parts) file.doc

end Recorded

inductive Failure where
  /-- A pseudonym is the value itself: what it is of, and its path. -/
  | unchanged (category path : String)
  | leak (path : String)
  | crashed

/-- What of a text is refused. -/
def unchanged (p : Pseudonyms) (o : Occurrence) : Option Failure :=
  ((o.outcome p).personal.find? fun e => e.replacement = e.original).map fun e =>
    .unchanged e.category o.path

variable (S : Scrubber)

variable (files : List Recorded)

end Rgnr8.Ingestion.Scrub
