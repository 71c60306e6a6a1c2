import Rgnr8.Ingestion.ScrubLaws

/-! The TOTAL rows of a scrubbed report: each is one of the report, scaled, or set to what the rows
of accounts come to once they are scaled. -/

namespace Rgnr8.Ingestion.Scrub
open Lib Lib.Js Lib.Py List

def scaledRow (factor : ℚ) (fix : List Json → List Json → List Json) : List Json → List Json
  | [] => []
  | first :: cells =>
    reportNode factor fix first ::
      cells.map fun cell => scaleCell factor (reportNode factor fix cell)

def reportObject (factor : ℚ) (fix : List Json → List Json → List Json)
    (fields : List (String × Json)) : List (String × Json) :=
  fixSummary fix fields (scaleColumns factor (reportFields factor fix fields))

/-! What it has under a name. -/

section
variable (factor : ℚ) (fix : List Json → List Json → List Json)

theorem reportItems_eq_map (items : List Json) :
    reportItems factor fix items = items.map (reportNode factor fix) := by
  induction items with
  | nil => rw [reportItems, map_nil]
  | cons value items ih => rw [reportItems, ih, map_cons]

theorem lookup_reportFields (name : String) (fields : List (String × Json)) :
    lookup (reportFields factor fix fields) name =
      (lookup fields name).map (reportNode factor fix) := by
  induction fields with
  | nil =>
    rw [reportFields]
    rfl
  | cons f fields ih =>
    obtain ⟨key, value⟩ := f
    rw [reportFields]
    by_cases hkey : key = name
    · subst hkey
      rw [lookup_cons_self, lookup_cons_self]
      rfl
    · rw [lookup_cons_ne hkey, lookup_cons_ne hkey, ih]

variable {value : Json} {fields : List (String × Json)} {cols : List Json} {name : String}

theorem lookup_scaleColumns (h : name ≠ "ColData") (fields : List (String × Json)) :
    lookup (scaleColumns factor fields) name = lookup fields name := by
  unfold scaleColumns
  split
  · exact lookup_setField_ne h _ _
  · rfl

theorem lookup_fixSummary (h : name ≠ "Summary") (source out : List (String × Json)) :
    lookup (fixSummary fix source out) name = lookup out name := by
  unfold fixSummary
  split
  · exact lookup_setField_ne h _ _
  · rfl

theorem reportNode_object (fields : List (String × Json)) :
    reportNode factor fix (.object fields) = .object (reportObject factor fix fields) := by
  rw [reportNode]
  rfl

theorem lookup_reportObject (hcol : name ≠ "ColData") (hsum : name ≠ "Summary")
    (fields : List (String × Json)) : lookup (reportObject factor fix fields) name =
      (lookup fields name).map (reportNode factor fix) := by
  unfold reportObject
  rw [lookup_fixSummary fix hsum, lookup_scaleColumns factor hcol, lookup_reportFields]

theorem columns_eq_some :
    columns fields = some cols ↔ lookup fields "ColData" = some (.array cols) := by
  unfold columns
  constructor
  · intro h
    split at h
    · next found hfound => rw [hfound, Option.some.inj h]
    · exact nomatch h
  · intro h
    rw [h]

theorem columns_reportFields (fields : List (String × Json)) :
    columns (reportFields factor fix fields) =
      (columns fields).map (List.map (reportNode factor fix)) := by
  unfold columns
  rw [lookup_reportFields]
  cases lookup fields "ColData" with
  | none => rfl
  | some value =>
    cases value with
    | array items =>
      rw [Option.map_some, reportNode, reportItems_eq_map]
      rfl
    | null | bool | number | string | object =>
      rw [Option.map_some, reportNode]
      rfl

theorem columns_reportObject (fields : List (String × Json)) :
    columns (reportObject factor fix fields) = (columns fields).map (scaledRow factor fix) := by
  have hfix : columns (reportObject factor fix fields) =
      columns (scaleColumns factor (reportFields factor fix fields)) := by
    unfold columns reportObject
    rw [lookup_fixSummary fix (by decide)]
  have hrep := columns_reportFields factor fix fields
  rw [hfix]
  unfold scaleColumns
  cases hcols : columns fields with
  | none =>
    rw [hcols] at hrep
    rw [hrep]
    exact hrep
  | some cols =>
    rw [hcols] at hrep
    rw [hrep]
    cases cols with
    | nil => exact hrep
    | cons first cells =>
      refine columns_eq_some.mpr ((lookup_setField_self ..).trans ?_)
      rw [map_map]
      rfl

/-! Cells. -/

theorem cellValue_reportNode (cell : Json) :
    cellValue (reportNode factor fix cell) = (cellValue cell).map (reportNode factor fix) := by
  cases cell with
  | object fields =>
    rw [reportNode_object]
    exact lookup_reportObject factor fix (by decide) (by decide) fields
  | string | number | null | bool | array =>
    rw [reportNode]
    rfl

theorem isTotalRow_scaledRow (cols : List Json) :
    isTotalRow (scaledRow factor fix cols) = isTotalRow cols := by
  rcases cols with - | ⟨first, - | ⟨second, - | ⟨third, cells⟩⟩⟩
  · rfl
  · rfl
  · rfl
  · rw [scaledRow, map_cons, map_cons, isTotalRow, isTotalRow, cellValue_reportNode]
    cases cellValue first with
    | none => rfl
    | some value =>
      cases value with
      | string | number | null | bool | array | object =>
        rw [Option.map_some, reportNode]

theorem totalRow_eq_some : totalRow fields = some cols ↔ isTotalRow cols = true ∧ ∃ summary,
      lookup fields "Summary" = some (.object summary) ∧ columns summary = some cols := by
  unfold totalRow
  constructor
  · intro h
    split at h
    · next summary hsum =>
      obtain ⟨hcols, htot⟩ := Option.filter_eq_some_iff.mp h
      exact ⟨htot, summary, hsum, hcols⟩
    · exact nomatch h
  · rintro ⟨htot, summary, hsum, hcols⟩
    rw [hsum]
    exact Option.filter_eq_some_iff.mpr ⟨hcols, htot⟩

theorem totalRow_reportObject {out : List Json}
    (h : totalRow (reportObject factor fix fields) = some out) :
    ∃ cols, totalRow fields = some cols ∧ out = fix cols (scaledRow factor fix cols) := by
  obtain ⟨htot, summary, hsum, hcol⟩ := totalRow_eq_some.mp h
  have hscal : lookup (scaleColumns factor (reportFields factor fix fields)) "Summary" =
      (lookup fields "Summary").map (reportNode factor fix) := by
    rw [lookup_scaleColumns factor (by decide), lookup_reportFields]
  unfold reportObject fixSummary at hsum
  split at hsum
  · next cols found hcols hfound =>
    -- the summary was set
    refine ⟨cols, hcols, ?_⟩
    obtain ⟨-, source, hsrc, hsour⟩ := totalRow_eq_some.mp hcols
    rw [lookup_setField_self, Option.some.injEq, Json.object.injEq] at hsum
    rw [← hsum, columns_eq_some, lookup_setField_self, Option.some.injEq,
      Json.array.injEq] at hcol
    rw [hscal, hsrc, Option.map_some, reportNode_object, Option.some.injEq,
      Json.object.injEq] at hfound
    rw [← hcol, ← hfound, columns_reportObject, hsour]
    rfl
  · next hnone =>
    -- it was not, so it is no TOTAL row
    exfalso
    rw [hscal] at hsum
    cases hsrc : lookup fields "Summary" with
    | none =>
      rw [hsrc] at hsum
      exact nomatch hsum
    | some value =>
      rw [hsrc, Option.map_some, Option.some.injEq] at hsum
      cases value with
      | object source =>
        rw [reportNode_object, Json.object.injEq] at hsum
        rw [← hsum, columns_reportObject] at hcol
        obtain ⟨cols, hcols, rfl⟩ := Option.map_eq_some_iff.mp hcol
        rw [isTotalRow_scaledRow] at htot
        refine hnone cols (reportObject factor fix source)
          (totalRow_eq_some.mpr ⟨htot, source, hsrc, hcols⟩) ?_
        rw [hscal, hsrc, Option.map_some, reportNode_object]
      | string | number | null | bool | array =>
        rw [reportNode] at hsum
        exact nomatch hsum

/-! No other TOTAL row appears. -/

theorem totalRows_plain (h : isPlain value = true) : totalRows value = [] := by
  cases value with
  | string | number | null | bool => rw [totalRows] <;> exact fun _ => nofun
  | array | object => exact nomatch h

theorem mem_setField {f : String × Json} {fields : List (String × Json)}
    (h : f ∈ setField name value fields) : f = (name, value) ∨ f ∈ fields := by
  induction fields with
  | nil => exact .inl (mem_singleton.mp h)
  | cons e fields ih =>
    rw [setField] at h
    split_ifs at h <;> rcases mem_cons.mp h with rfl | h
    · exact .inl rfl
    · exact .inr (mem_cons_of_mem _ h)
    · exact .inr mem_cons_self
    · exact (ih h).imp_right (mem_cons_of_mem _)

theorem flatMap_setField_subset {β : Type} (g : String → Json → List β) (name : String)
    (value : Json) (fields : List (String × Json)) :
    ((setField name value fields).flatMap fun f => g f.1 f.2) ⊆
      g name value ++ fields.flatMap fun f => g f.1 f.2 := by
  intro x hx
  obtain ⟨f, hf, hx⟩ := mem_flatMap.mp hx
  rcases mem_setField hf with rfl | hf
  · exact mem_append_left _ hx
  · exact mem_append_right _ (mem_flatMap.mpr ⟨f, hf, hx⟩)

theorem subset_flatMap_of_lookup {β : Type} (g : String → Json → List β)
    {fields : List (String × Json)} (h : lookup fields name = some value) :
    g name value ⊆ fields.flatMap fun f => g f.1 f.2 := by
  obtain ⟨f, hf, rfl⟩ := Option.map_eq_some_iff.mp h
  have hname : f.1 = name := by simpa using find?_some hf
  subst hname
  exact fun x hx => mem_flatMap.mpr ⟨f, mem_of_find?_eq_some hf, hx⟩

theorem totalRowsOfFields_eq (fields : List (String × Json)) :
    totalRowsOfFields fields = fields.flatMap fun f => totalRows f.2 := by
  induction fields with
  | nil => rfl
  | cons f fields ih => rw [totalRowsOfFields, flatMap_cons, ih]

theorem totalRows_subset (h : lookup fields name = some value) :
    totalRows value ⊆ totalRowsOfFields fields := by
  rw [totalRowsOfFields_eq]
  exact subset_flatMap_of_lookup (fun _ => totalRows) h

theorem totalRowsOfFields_setField (h : totalRows value ⊆ totalRowsOfFields fields) :
    totalRowsOfFields (setField name value fields) ⊆ totalRowsOfFields fields := by
  refine List.Subset.trans ?_ (append_subset.mpr ⟨h, List.Subset.refl _⟩)
  rw [totalRowsOfFields_eq, totalRowsOfFields_eq]
  exact flatMap_setField_subset (fun _ => totalRows) name value fields

theorem totalRows_object (fields : List (String × Json)) :
    totalRows (.object fields) = (totalRow fields).toList ++ totalRowsOfFields fields := by
  rw [totalRows]

theorem totalRows_setField (hname : "Summary" ≠ name)
    (h : totalRows value ⊆ totalRowsOfFields fields) :
    totalRows (.object (setField name value fields)) ⊆ totalRows (.object fields) := by
  have hrow : totalRow (setField name value fields) = totalRow fields := by
    unfold totalRow
    rw [lookup_setField_ne hname]
  rw [totalRows_object, totalRows_object, hrow]
  exact append_subset.mpr ⟨subset_append_left _ _,
    List.Subset.trans (totalRowsOfFields_setField h) (subset_append_right _ _)⟩

theorem totalRows_scaleCell (cell : Json) : totalRows (scaleCell factor cell) ⊆ totalRows cell := by
  unfold scaleCell
  split
  · split
    · split_ifs
      · refine totalRows_setField (by decide) ?_
        rw [scaled, totalRows_plain (isPlain_formattedLike _ _)]
        exact nil_subset _
      · exact List.Subset.refl _
    · exact List.Subset.refl _
  · exact List.Subset.refl _

theorem totalRowsOfItems_map {f : Json → Json} (h : ∀ cell, totalRows (f cell) ⊆ totalRows cell)
    (cells : List Json) : totalRowsOfItems (cells.map f) ⊆ totalRowsOfItems cells := by
  induction cells with
  | nil => exact List.Subset.refl _
  | cons cell cells ih =>
    rw [map_cons, totalRowsOfItems, totalRowsOfItems]
    exact append_subset.mpr
      ⟨List.Subset.trans (h cell) (subset_append_left _ _),
        List.Subset.trans ih (subset_append_right _ _)⟩

theorem totalRowsOfItems_columns (h : columns fields = some cols) :
    totalRowsOfItems cols ⊆ totalRowsOfFields fields := by
  have hsub := totalRows_subset (columns_eq_some.mp h)
  rwa [totalRows] at hsub

theorem totalRowsOfFields_scaleColumns (fields : List (String × Json)) :
    totalRowsOfFields (scaleColumns factor fields) ⊆ totalRowsOfFields fields := by
  unfold scaleColumns
  split
  · next first cells hcols =>
    refine totalRowsOfFields_setField ?_
    rw [totalRows]
    refine List.Subset.trans ?_ (totalRowsOfItems_columns hcols)
    rw [totalRowsOfItems, totalRowsOfItems]
    exact append_subset.mpr ⟨subset_append_left _ _, List.Subset.trans
      (totalRowsOfItems_map (totalRows_scaleCell factor) cells) (subset_append_right _ _)⟩
  · exact List.Subset.refl _

/-- What fixes a row sets values of its cells, and no more. -/
def Tame (fix : List Json → List Json → List Json) : Prop :=
  ∀ source out, totalRowsOfItems (fix source out) ⊆ totalRowsOfItems out

theorem totalRowsOfFields_fixSummary (htame : Tame fix) (source out : List (String × Json)) :
    totalRowsOfFields (fixSummary fix source out) ⊆ totalRowsOfFields out := by
  unfold fixSummary
  split
  · next cols summary _ hsum =>
    refine totalRowsOfFields_setField (List.Subset.trans ?_ (totalRows_subset hsum))
    refine totalRows_setField (by decide) ?_
    rw [totalRows]
    refine List.Subset.trans (htame _ _) ?_
    cases hcols : columns summary with
    | none => exact nil_subset _
    | some found => exact totalRowsOfItems_columns hcols
  · exact List.Subset.refl _

variable {fix}

mutual

theorem totalRows_node (htame : Tame fix) : ∀ value : Json,
    ∀ out ∈ totalRows (reportNode factor fix value),
      ∃ cols ∈ totalRows value, isTotalRow cols = true ∧ out = fix cols (scaledRow factor fix cols)
  | .object fields, out, hout => by
    rw [reportNode_object, totalRows_object] at hout
    rw [totalRows_object]
    rcases mem_append.mp hout with hout | hout
    · obtain ⟨cols, hcols, heq⟩ :=
        totalRow_reportObject factor fix (Option.mem_toList.mp hout)
      exact ⟨cols, mem_append_left _ (Option.mem_toList.mpr hcols),
        (totalRow_eq_some.mp hcols).1, heq⟩
    · have hflds : out ∈ totalRowsOfFields (reportFields factor fix fields) :=
        totalRowsOfFields_scaleColumns factor _ (totalRowsOfFields_fixSummary fix htame _ _ hout)
      obtain ⟨cols, hcols, hrest⟩ := totalRows_fields htame fields out hflds
      exact ⟨cols, mem_append_right _ hcols, hrest⟩
  | .array items, out, hout => by
    rw [reportNode, totalRows] at hout
    rw [totalRows]
    exact totalRows_items htame items out hout
  | .null, out, hout | .bool _, out, hout | .number _, out, hout | .string _, out, hout => by
    rw [reportNode, totalRows_plain rfl] at hout
    exact nomatch hout

theorem totalRows_fields (htame : Tame fix) : ∀ fields : List (String × Json),
    ∀ out ∈ totalRowsOfFields (reportFields factor fix fields),
      ∃ cols ∈ totalRowsOfFields fields,
        isTotalRow cols = true ∧ out = fix cols (scaledRow factor fix cols)
  | [], out, hout => by
    rw [reportFields, totalRowsOfFields] at hout
    exact nomatch hout
  | (_, value) :: fields, out, hout => by
    rw [reportFields, totalRowsOfFields] at hout
    rw [totalRowsOfFields]
    rcases mem_append.mp hout with hout | hout
    · obtain ⟨cols, hcols, hrest⟩ := totalRows_node htame value out hout
      exact ⟨cols, mem_append_left _ hcols, hrest⟩
    · obtain ⟨cols, hcols, hrest⟩ := totalRows_fields htame fields out hout
      exact ⟨cols, mem_append_right _ hcols, hrest⟩

theorem totalRows_items (htame : Tame fix) : ∀ items : List Json,
    ∀ out ∈ totalRowsOfItems (reportItems factor fix items),
      ∃ cols ∈ totalRowsOfItems items,
        isTotalRow cols = true ∧ out = fix cols (scaledRow factor fix cols)
  | [], out, hout => by
    rw [reportItems, totalRowsOfItems] at hout
    exact nomatch hout
  | value :: items, out, hout => by
    rw [reportItems, totalRowsOfItems] at hout
    rw [totalRowsOfItems]
    rcases mem_append.mp hout with hout | hout
    · obtain ⟨cols, hcols, hrest⟩ := totalRows_node htame value out hout
      exact ⟨cols, mem_append_left _ hcols, hrest⟩
    · obtain ⟨cols, hcols, hrest⟩ := totalRows_items htame items out hout
      exact ⟨cols, mem_append_right _ hcols, hrest⟩

end

end

/-! The totals of a trial balance. -/

variable (factor : ℚ) (rows : List (List Json))

mutual

theorem isTotalRow_of_mem : ∀ value : Json, ∀ cols ∈ totalRows value, isTotalRow cols = true
  | .object fields, cols, hcols => by
    rw [totalRows_object] at hcols
    rcases mem_append.mp hcols with hcols | hcols
    · exact (totalRow_eq_some.mp (Option.mem_toList.mp hcols)).1
    · exact isTotalRow_of_mem_fields fields cols hcols
  | .array items, cols, hcols => by
    rw [totalRows] at hcols
    exact isTotalRow_of_mem_items items cols hcols
  | .null, cols, hcols | .bool _, cols, hcols | .number _, cols, hcols
  | .string _, cols, hcols => by
    rw [totalRows_plain rfl] at hcols
    exact nomatch hcols

theorem isTotalRow_of_mem_fields : ∀ fields : List (String × Json),
    ∀ cols ∈ totalRowsOfFields fields, isTotalRow cols = true
  | [], cols, hcols => by
    rw [totalRowsOfFields] at hcols
    exact nomatch hcols
  | (_, value) :: fields, cols, hcols => by
    rw [totalRowsOfFields] at hcols
    rcases mem_append.mp hcols with hcols | hcols
    · exact isTotalRow_of_mem value cols hcols
    · exact isTotalRow_of_mem_fields fields cols hcols

theorem isTotalRow_of_mem_items : ∀ items : List Json,
    ∀ cols ∈ totalRowsOfItems items, isTotalRow cols = true
  | [], cols, hcols => by
    rw [totalRowsOfItems] at hcols
    exact nomatch hcols
  | value :: items, cols, hcols => by
    rw [totalRowsOfItems] at hcols
    rcases mem_append.mp hcols with hcols | hcols
    · exact isTotalRow_of_mem value cols hcols
    · exact isTotalRow_of_mem_items items cols hcols

end

def balanceFix (factor : ℚ) (doc : Json) : List Json → List Json → List Json :=
  setTotals (sums (accountRows doc))
    (sums ((accountRows doc).map fun cols => cols.map (scaleCell factor)))

def totalOf (factor : ℚ) (doc : Json) (cols : List Json) : List Json :=
  balanceFix factor doc cols (scaledRow factor (balanceFix factor doc) cols)

variable {doc out : Json} {factor : ℚ}

def Even (cols : List Json) : Prop := (debitCredit cols).1 = (debitCredit cols).2

end Rgnr8.Ingestion.Scrub
