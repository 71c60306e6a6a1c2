import Rgnr8.Ingestion.ScrubReports

/-! What a whole recording keeps once it is scrubbed: its rows, the totals of its reports, the links
between names, and its secrets. -/

namespace Rgnr8.Ingestion.Scrub
open Lib Lib.Js Lib.Py List Option

/-! Rows. -/

mutual

def rowsOfFields (entity : String) : List (String × Json) → List (List (String × Json))
  | [] => []
  | (key, value) :: fields => rowsOfItem entity key value ++ rowsOfFields entity fields

def rowsOfItem (entity key : String) : Json → List (List (String × Json))
  | .object fields => rowsOfFields entity fields
  | .array items => rowsOfList entity key items
  | _ => []

def rowsOfList (entity key : String) : List Json → List (List (String × Json))
  | [] => []
  | .object fields :: items =>
    (if key = entity then [fields] else []) ++ rowsOfFields entity fields ++
      rowsOfList entity key items
  | .array nested :: items => rowsOfList entity key nested ++ rowsOfList entity key items
  | _ :: items => rowsOfList entity key items

end

def rows (entity : String) : Json → List (List (String × Json))
  | .object fields => rowsOfFields entity fields
  | .array items => rowsOfList entity "" items
  | _ => []

variable {value : Json} {entity : String}

theorem rowsOfItem_plain (h : isPlain value = true) (entity key : String) :
    rowsOfItem entity key value = [] := by
  cases value with
  | string | number | null | bool => rw [rowsOfItem] <;> exact fun _ => nofun
  | array | object => exact nomatch h

theorem rowsOfList_cons_plain (h : isPlain value = true) (entity key : String) (items : List Json) :
    rowsOfList entity key (value :: items) = rowsOfList entity key items := by
  cases value with
  | string | number | null | bool => rw [rowsOfList] <;> exact fun _ => nofun
  | array | object => exact nomatch h

theorem rowsOfFields_eq (entity : String) (fields : List (String × Json)) :
    rowsOfFields entity fields = fields.flatMap fun f => rowsOfItem entity f.1 f.2 := by
  induction fields with
  | nil => rfl
  | cons f fields ih => rw [rowsOfFields, flatMap_cons, ih]

theorem rowsOfItem_subset {name : String} {fields : List (String × Json)}
    (h : lookup fields name = some value) :
    rowsOfItem entity name value ⊆ rowsOfFields entity fields := by
  rw [rowsOfFields_eq]
  exact subset_flatMap_of_lookup (rowsOfItem entity) h

theorem rowsOfFields_setField (entity name : String) (value : Json)
    (fields : List (String × Json)) : rowsOfFields entity (setField name value fields) ⊆
      rowsOfItem entity name value ++ rowsOfFields entity fields := by
  rw [rowsOfFields_eq, rowsOfFields_eq]
  exact flatMap_setField_subset (rowsOfItem entity) name value fields

theorem rowsOfFields_setField_plain (h : isPlain value = true) (entity name : String)
    (fields : List (String × Json)) :
    rowsOfFields entity (setField name value fields) ⊆ rowsOfFields entity fields := by
  have hset := rowsOfFields_setField entity name value fields
  rwa [rowsOfItem_plain h, nil_append] at hset

theorem rowsOfList_raiseFirst (h : "Line" ≠ entity) (which : String) (most difference : ℚ)
    (lines : List Json) : rowsOfList entity "Line" (raiseFirst which most difference lines) ⊆
      rowsOfList entity "Line" lines := by
  induction lines with
  | nil => exact List.Subset.refl _
  | cons l lines ih =>
    rw [raiseFirst]
    split_ifs
    · cases l with
      | object fields =>
        rw [raised, rowsOfList, rowsOfList, if_neg h, if_neg h, nil_append, nil_append]
        refine append_subset.mpr ⟨?_, subset_append_right _ _⟩
        exact List.Subset.trans
          (rowsOfFields_setField_plain (isPlain_formattedLike _ _) entity "Amount" fields)
          (subset_append_left _ _)
      | null | bool | number | string | array => exact List.Subset.refl _
    · cases l with
      | object fields =>
        rw [rowsOfList, rowsOfList]
        exact append_subset.mpr ⟨subset_append_left _ _,
          List.Subset.trans ih (subset_append_right _ _)⟩
      | array nested =>
        rw [rowsOfList, rowsOfList]
        exact append_subset.mpr ⟨subset_append_left _ _,
          List.Subset.trans ih (subset_append_right _ _)⟩
      | null | bool | number | string =>
        rw [rowsOfList_cons_plain rfl, rowsOfList_cons_plain rfl]
        exact ih

theorem rowsOfFields_fixTotals (h : "Line" ≠ entity) (key : String)
    (source out : List (String × Json)) :
    rowsOfFields entity (fixTotals key source out) ⊆ rowsOfFields entity out := by
  have hplain (name : String) (template : Json) (cents : Int) (fields : List (String × Json)) :=
    rowsOfFields_setField_plain (isPlain_formattedLike template cents) entity name fields
  have hlines {lines : List Json} (hfound : linesOf out = some lines) (which : String)
      (most difference : ℚ) : rowsOfFields entity
        (setField "Line" (.array (raiseFirst which most difference lines)) out) ⊆
          rowsOfFields entity out := by
    refine List.Subset.trans (rowsOfFields_setField ..)
      (append_subset.mpr ⟨?_, List.Subset.refl _⟩)
    have hitem : rowsOfItem entity "Line" (.array lines) ⊆ rowsOfFields entity out :=
      rowsOfItem_subset (linesOf_eq_some.mp hfound)
    rw [rowsOfItem] at hitem ⊢
    exact List.Subset.trans (rowsOfList_raiseFirst h which most difference lines) hitem
  unfold fixTotals rebalance
  split
  · split
    · next sourceLines outLines _ hfound =>
      split
      · exact List.Subset.refl _
      · dsimp only
        split
        · exact List.Subset.refl _
        · split
          · exact List.Subset.refl _
          · exact hlines hfound _ _ _
    · exact List.Subset.refl _
  · split
    · exact List.Subset.refl _
    · split
      · split
        · exact List.Subset.refl _
        · dsimp only
          split
          · split
            · exact List.Subset.trans (hplain ..) (hplain ..)
            · exact hplain ..
          · exact hplain ..
      · exact List.Subset.refl _

mutual

theorem rows_dict (S : Scrubber) {key : String} (hkey : key ∈ ENTITIES) (hline : "Line" ≠ key)
    (entity ownKey : String) : ∀ fields : List (String × Json),
    ∀ out ∈ rowsOfFields key (dict S entity ownKey fields),
      ∃ source ∈ rowsOfFields key fields, out = row S key source
  | [], out, hout => by
    rw [dict, rowsOfFields] at hout
    exact nomatch hout
  | (name, value) :: fields, out, hout => by
    rw [dict] at hout
    rw [rowsOfFields]
    split_ifs at hout
    · obtain ⟨source, hsrc, heq⟩ := rows_dict S hkey hline entity ownKey fields out hout
      exact ⟨source, mem_append_right _ hsrc, heq⟩
    · rw [rowsOfFields] at hout
      rcases mem_append.mp hout with hout | hout
      · obtain ⟨source, hsrc, heq⟩ := rows_item S hkey hline entity ownKey name value out hout
        exact ⟨source, mem_append_left _ hsrc, heq⟩
      · obtain ⟨source, hsrc, heq⟩ := rows_dict S hkey hline entity ownKey fields out hout
        exact ⟨source, mem_append_right _ hsrc, heq⟩

theorem rows_item (S : Scrubber) {key : String} (hkey : key ∈ ENTITIES) (hline : "Line" ≠ key)
    (entity ownKey name : String) : ∀ value : Json,
    ∀ out ∈ rowsOfItem key name (item S entity ownKey name value),
      ∃ source ∈ rowsOfItem key name value, out = row S key source
  | .object fields, out, hout => by
    rw [item, rowsOfItem] at hout
    rw [rowsOfItem]
    exact rows_dict S hkey hline entity name fields out hout
  | .array items, out, hout => by
    rw [item, rowsOfItem] at hout
    rw [rowsOfItem]
    exact rows_list S hkey hline entity name items out hout
  | .null, out, hout | .bool _, out, hout | .number _, out, hout | .string _, out, hout => by
    rw [item_plain rfl, rowsOfItem_plain (isPlain_leaf rfl ..)] at hout
    exact nomatch hout

theorem rows_list (S : Scrubber) {key : String} (hkey : key ∈ ENTITIES) (hline : "Line" ≠ key)
    (entity name : String) : ∀ items : List Json,
    ∀ out ∈ rowsOfList key name (list S entity name items),
      ∃ source ∈ rowsOfList key name items, out = row S key source
  | [], out, hout => by
    rw [list, rowsOfList] at hout
    exact nomatch hout
  | .object fields :: items, out, hout => by
    rw [list, rowsOfList] at hout
    rw [rowsOfList]
    rcases mem_append.mp hout with hout | hout
    · rcases mem_append.mp hout with hself | hinner
      · by_cases hname : name = key
        · -- a row of the entity, scrubbed
          subst hname
          rw [if_pos rfl, if_pos hkey, mem_singleton] at hself
          refine ⟨fields, ?_, hself⟩
          rw [if_pos rfl]
          exact mem_append_left _ (mem_append_left _ mem_cons_self)
        · rw [if_neg hname] at hself
          exact nomatch hself
      · have hinner : ∃ source ∈ rowsOfFields key fields, out = row S key source := by
          split_ifs at hinner
          · exact rows_dict S hkey hline name name fields out
              (rowsOfFields_fixTotals hline name _ _ hinner)
          · exact rows_dict S hkey hline entity name fields out hinner
        obtain ⟨source, hsrc, heq⟩ := hinner
        exact ⟨source, mem_append_left _ (mem_append_right _ hsrc), heq⟩
    · obtain ⟨source, hsrc, heq⟩ := rows_list S hkey hline entity name items out hout
      exact ⟨source, mem_append_right _ hsrc, heq⟩
  | .array nested :: items, out, hout => by
    rw [list, rowsOfList] at hout
    rw [rowsOfList]
    rcases mem_append.mp hout with hout | hout
    · obtain ⟨source, hsrc, heq⟩ := rows_list S hkey hline entity name nested out hout
      exact ⟨source, mem_append_left _ hsrc, heq⟩
    · obtain ⟨source, hsrc, heq⟩ := rows_list S hkey hline entity name items out hout
      exact ⟨source, mem_append_right _ hsrc, heq⟩
  | .null :: items, out, hout | .bool _ :: items, out, hout | .number _ :: items, out, hout
  | .string _ :: items, out, hout => by
    rw [list, rowsOfList_cons_plain (by first | rfl | exact isPlain_leaf rfl ..)] at hout
    rw [rowsOfList_cons_plain rfl]
    exact rows_list S hkey hline entity name items out hout

end

/-- A text that is replaced as a name. -/
def IsName (p : Pseudonyms) (o : Occurrence) : Prop :=
  ∃ e ∈ (o.outcome p).personal, e.category = "name"

def Whole (o : Occurrence) : Prop := o.key = "FullyQualifiedName" → ':' ∉ o.value.toList

/-- Nothing is replaced as a name. -/
def Nameless (outcome : Outcome) : Prop := ∀ e ∈ outcome.personal, e.category ≠ "name"

theorem Nameless.ite {c : Prop} [Decidable c] {a b : Outcome} (ha : Nameless a)
    (hb : Nameless b) : Nameless (if c then a else b) := by
  split_ifs
  · exact ha
  · exact hb

theorem nameless_kept (text : String) (generated : List String) :
    Nameless ⟨text, [], generated⟩ := fun _ he => absurd he not_mem_nil

theorem nameless_personal {category : String} (h : category ≠ "name")
    (original replacement : String) : Nameless (personal category original replacement) := by
  intro e he
  rw [mem_singleton.mp he]
  exact h

variable {cs : List Char} {p : Pseudonyms} {S : Scrubber} {u : UnicodeTables}

theorem IsName.outcome {o : Occurrence} (h : IsName p o) :
    (o.key = "FullyQualifiedName" ∧ o.outcome p = fullyQualified p o.value) ∨
      (o.key ≠ "FullyQualifiedName" ∧ (o.outcome p).text = p.name o.value) := by
  obtain ⟨e, he, hname⟩ := h
  have hkeys : "FullyQualifiedName" ∉ NAME_KEYS := by decide
  have hsing (h : o.key ≠ "FullyQualifiedName") (heq : o.outcome p =
      personal "name" o.value (p.name o.value)) :
      o.key ≠ "FullyQualifiedName" ∧ (o.outcome p).text = p.name o.value :=
    ⟨h, by rw [heq]; rfl⟩
  unfold Occurrence.outcome string at he hsing ⊢
  -- the branches of `string` in order: the other kinds are no names
  by_cases hemp : o.value = ""
  · rw [if_pos hemp] at he
    exact nomatch he
  rw [if_neg hemp] at he hsing ⊢
  by_cases hnames : o.key ∈ NAME_KEYS
  · rw [if_pos hnames] at hsing ⊢
    exact .inr (hsing (fun heq => hkeys (heq ▸ hnames)) rfl)
  rw [if_neg hnames] at he hsing ⊢
  by_cases hkey : o.key = "Name"
  · rw [if_pos hkey] at he hsing ⊢
    split_ifs at he hsing ⊢
    · exact nomatch he
    · exact .inr (hsing (by rw [hkey]; decide) rfl)
  rw [if_neg hkey] at he hsing ⊢
  by_cases hqual : o.key = "FullyQualifiedName"
  · rw [if_pos hqual] at he ⊢
    split_ifs at he ⊢
    · exact nomatch he
    · exact .inl ⟨hqual, rfl⟩
  rw [if_neg hqual] at he hsing ⊢
  by_cases href : o.key = "name"
  · rw [if_pos href] at he hsing ⊢
    by_cases hkept : endsWith o.ownKey "AccountRef" = true ∨ o.ownKey ∈ KEEP_REF_NAMES
    · rw [if_pos hkept] at he
      exact nomatch he
    rw [if_neg hkept] at he hsing ⊢
    by_cases hpar : o.ownKey = "ParentRef" ∧ o.entity = "Account"
    · rw [if_pos hpar] at he
      exact nomatch he
    rw [if_neg hpar] at hsing ⊢
    exact .inr (hsing hqual rfl)
  rw [if_neg href] at he
  -- no other key has names
  refine absurd hname ((?_ : Nameless _) e he)
  repeat' with_reducible apply Nameless.ite
  all_goals first
    | with_reducible exact nameless_kept _ _
    | with_reducible exact nameless_personal (by decide) _ _

theorem segments_of_not_mem (h : ':' ∉ cs) : segments cs = [cs] := by
  induction cs with
  | nil => rfl
  | cons c cs ih =>
    have hc : c ≠ ':' := fun heq => h (heq ▸ mem_cons_self)
    rw [segments, if_neg hc, ih fun hmem => h (mem_cons_of_mem _ hmem)]

theorem segments_of_mem (h : ':' ∈ cs) :
    ∃ first second rest, segments cs = first :: second :: rest := by
  have hne (cs : List Char) : segments cs ≠ [] := by
    cases cs with
    | nil => exact cons_ne_nil _ _
    | cons c cs =>
      rw [segments]
      split
      · exact cons_ne_nil _ _
      · split
        · exact cons_ne_nil _ _
        · exact cons_ne_nil _ _
  induction cs with
  | nil => exact nomatch h
  | cons c cs ih =>
    rw [segments]
    split_ifs with hc
    · cases hrest : segments cs with
      | nil => exact absurd hrest (hne cs)
      | cons second rest => exact ⟨[], second, rest, rfl⟩
    · have hmem : ':' ∈ cs := (mem_cons.mp h).resolve_left fun heq => hc heq.symm
      obtain ⟨first, second, rest, hrest⟩ := ih hmem
      rw [hrest]
      exact ⟨c :: first, second, rest, rfl⟩

theorem mem_intercalate (first second : String) (rest : List String) :
    ':' ∈ (":".intercalate (first :: second :: rest)).toList := by
  rw [String.intercalate_cons_cons, String.toList_append, String.toList_append]
  refine mem_append_left _ (mem_append_right _ ?_)
  decide

theorem IsName.text {o : Occurrence} (h : IsName p o) :
    (Whole o → (o.outcome p).text = p.name o.value) ∧
      (¬ Whole o → ':' ∈ (o.outcome p).text.toList) := by
  rcases h.outcome with ⟨hkey, houtc⟩ | ⟨hkey, htext⟩
  · constructor
    · intro hwhole
      obtain ⟨e, he, -⟩ := h
      rw [houtc] at he ⊢
      unfold fullyQualified at he ⊢
      rw [segments_of_not_mem (hwhole hkey)] at he ⊢
      dsimp only at he ⊢
      rw [map_singleton, String.ofList_toList] at he ⊢
      by_cases hblank : strip o.value = ""
      · rw [if_pos hblank] at he
        exact absurd he not_mem_nil
      · rw [if_neg hblank]
        exact String.intercalate_singleton
    · intro hnot
      unfold Whole at hnot
      have hcolon : ':' ∈ o.value.toList := by
        by_contra hmem
        exact hnot fun _ => hmem
      obtain ⟨first, second, rest, hseg⟩ := segments_of_mem hcolon
      rw [houtc]
      unfold fullyQualified
      rw [hseg]
      dsimp only
      rw [map_cons, map_cons, map_cons, map_cons]
      exact mem_intercalate _ _ _
  · exact ⟨fun _ => htext, fun hnot => absurd (fun heq => absurd heq hkey) hnot⟩

/-- A text has a word, in whatever case. -/
def Contains (u : UnicodeTables) (s : String) (word : List Char) : Prop :=
  hasWord u word none (u.casefold s).toList = true

namespace Sample

def tables : UnicodeTables where
  fold c := [c.toLower]
  isWord c := c.isAlphanum || c = '_'
  fold_newline := by decide
  newline_not_word := by decide

def text (s : String) : Json := .string s

def accountRow (id debit credit : String) : Json :=
  .object [("ColData", .array [.object [("value", text id), ("id", text id)],
    .object [("value", text debit)], .object [("value", text credit)]])]

/-- Two debits of a cent, and a credit of two. -/
def trialBalance : Recorded where
  parts := ["reports", "TrialBalance", "2025-12-31.json"]
  doc := .object [
    ("Rows", .array [accountRow "1" "0.01" "", accountRow "2" "0.01" "", accountRow "3" "" "0.02"]),
    ("Summary", .object [("ColData", .array [.object [("value", text "TOTAL")],
      .object [("value", text "0.02")], .object [("value", text "0.02")]])])]

def journalLine (side amount : String) : Json :=
  .object [("Amount", text amount),
    ("JournalEntryLineDetail", .object [("PostingType", text side)])]

def entry : List (String × Json) :=
  [("Line", .array [journalLine "Debit" "0.01", journalLine "Debit" "0.01",
    journalLine "Debit" "-0.02"])]

def payment : List (String × Json) :=
  [("TotalAmt", text "0.02"), ("UnappliedAmt", text "0.01"),
    ("TxnTaxDetail", .object [("TotalTax", text "0.01")])]

def books : Recorded where
  parts := ["CDC", "1.json"]
  doc := .object [("JournalEntry", .array [.object entry]), ("Payment", .array [.object payment])]

def customers : Recorded where
  parts := ["Customer", "1.json"]
  doc := .object [("Customer", .array [.object [("DisplayName", text "Name")]])]

def child : Occurrence := ⟨"FullyQualifiedName", "Ann:Yard", "Customer", "Customer", "a"⟩

def reference : Occurrence := ⟨"name", "Ann:Yard", "Invoice", "CustomerRef", "b"⟩

variable (result : Except Failure (List Json))

def texts : Option (List String) :=
  match result with
  | .ok outputs => some (outputs.flatMap strings)
  | .error _ => none

def totals : List (ℚ × ℚ) :=
  match result with
  | .ok outputs => (outputs.flatMap totalRows).map debitCredit
  | .error _ => []

variable {fields : List (String × Json)}

end Sample

end Rgnr8.Ingestion.Scrub
