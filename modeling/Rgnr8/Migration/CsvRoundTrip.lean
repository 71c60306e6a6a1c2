import Rgnr8.Migration.Csv

/-! Tables of cells, written as CSV and read back. -/

namespace Rgnr8.Migration
open Lib Js List

variable {row : List String} {rest : List Char}

def csvCells (style : CsvStyle) (cells : List String) : List Char :=
  [','].intercalate (cells.map (csvCell style))

/-- Every row is written in its own style. -/
def csvLines (rows : List (CsvStyle × List String)) : List Char :=
  rows.flatMap fun r => csvRow r.1 r.2

theorem rowsFrom_csvLines (rows : List (CsvStyle × List String)) (hne : ∀ r ∈ rows, r.2 ≠ []) :
    rowsFrom false [] [] (csvLines rows ++ rest) = rows.map Prod.snd ++ rowsFrom false [] [] rest := by
  unfold csvLines
  induction rows with
  | nil => rfl
  | cons r rows ih =>
    rw [forall_mem_cons] at hne
    rw [flatMap_cons, append_assoc, rowsFrom_csvRow r.1 hne.1, nil_append, ih hne.2,
      map_cons, cons_append]

theorem rowsFrom_csvCells (style : CsvStyle) {cells : List String} (hne : cells ≠ [])
    (hread : row ≠ [] ∨ cells ≠ [""]) :
    rowsFrom false [] row (csvCells style cells) = [row ++ cells] := by
  unfold csvCells
  rw [← append_nil ([','].intercalate _)]
  refine rowsFrom_cells style hne (by decide) fun front s h => ?_
  -- the last row is closed at the end of the text, as it is not an empty field alone
  have hopen : s.toList ≠ [] ∨ front ≠ [] := by
    by_contra hnone
    rw [not_or, not_not, not_not, String.toList_eq_nil_iff] at hnone
    obtain ⟨rfl, rfl⟩ := hnone
    rcases append_eq_singleton_iff.mp h.symm with ⟨hrow, hcells⟩ | ⟨-, hcells⟩
    · exact hread.elim (fun h => h hrow) fun h => h hcells
    · exact hne hcells
  rw [rowsFrom, if_pos hopen, String.ofList_toList, h]

theorem filter_not_blank {rows : List (List String)} (hblank : ∀ r ∈ rows, isBlankRow r = false) :
    (rows.filter fun r => ¬ isBlankRow r) = rows := by
  refine filter_eq_self.mpr fun r hr => ?_
  rw [hblank r hr]
  rfl

theorem ne_nil_of_not_blank (h : isBlankRow row = false) : row ≠ [] := by
  rintro rfl
  cases h

theorem parseCsv_csvLines : (∀ rows, (∀ r ∈ rows, isBlankRow r.2 = false) →
      parseCsv (String.ofList (csvLines rows)) = rows.map Prod.snd) ∧
    (∀ rows style cells, (∀ r ∈ rows, isBlankRow r.2 = false) → isBlankRow cells = false →
      parseCsv (String.ofList (csvLines rows ++ csvCells style cells)) = rows.map Prod.snd ++ [cells]) ∧
    ∀ text, ∀ cells ∈ parseCsv text, isBlankRow cells = false := by
  refine ⟨fun rows hrows => ?_, fun rows style cells hrows hcells => ?_, fun text cells h => ?_⟩
  · have hread : rowsFrom false [] [] (csvLines rows ++ []) = _ :=
      rowsFrom_csvLines rows fun r hr => ne_nil_of_not_blank (hrows r hr)
    unfold parseCsv
    rw [String.toList_ofList, ← append_nil (csvLines rows), hread]
    refine (congrArg _ (append_nil _)).trans (filter_not_blank fun r hr => ?_)
    obtain ⟨w, hw, rfl⟩ := mem_map.mp hr
    exact hrows w hw
  · have hlast : cells ≠ [""] := by
      rintro rfl
      exact absurd hcells (by decide)
    unfold parseCsv
    rw [String.toList_ofList, rowsFrom_csvLines rows fun r hr => ne_nil_of_not_blank (hrows r hr),
      rowsFrom_csvCells style (ne_nil_of_not_blank hcells) (.inr hlast), nil_append]
    refine filter_not_blank fun r hr => ?_
    rcases mem_append.mp hr with hr | hr
    · obtain ⟨w, hw, rfl⟩ := mem_map.mp hr
      exact hrows w hw
    · rw [mem_singleton.mp hr]
      exact hcells
  · have hblank := (mem_filter.mp h).2
    rw [decide_eq_true_iff] at hblank
    exact Bool.eq_false_iff.mpr hblank

end Rgnr8.Migration
