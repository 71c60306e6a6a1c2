import Rgnr8.Lib.Run
import Rgnr8.Service.Estimates

/-! What a job carries of the estimates accepted onto it. -/

namespace Rgnr8.Service.Estimates
open Lib Lib.Js Fallible Kernel JobBudgets OrderedMap List

/-! Costs by code. -/

def costOn (code : String) (lines : List EstimateLineRecord) : Int :=
  ((lines.filter fun l => l.costCode = code).map EstimateLineRecord.extendedCostMinor).sum

variable (m : OrderedMap String (Int × Int))

variable (e : EstimateRecord)

variable {code : String}

theorem priorRevision_spec (jobId : String) (all : List EstimateRecord) :
    (priorRevision e jobId all = none → ∀ o ∈ all, ¬ IsSibling e jobId o) ∧
      ∀ p, priorRevision e jobId all = some p → p ∈ all ∧ IsSibling e jobId p ∧
        ∀ o ∈ all, IsSibling e jobId o → o.revision ≤ p.revision := by
  induction all using reverseRecOn with
  | nil =>
    refine ⟨fun _ o ho => absurd ho not_mem_nil, fun p hp => ?_⟩
    exact absurd (hp : none = some p) (Option.some_ne_none p).symm
  | append_singleton all x ih =>
    obtain ⟨hnone, hsome⟩ := ih
    rw [priorRevision, foldl_append, foldl_cons, foldl_nil, ← priorRevision]
    generalize priorRevision e jobId all = prior at hnone hsome ⊢
    by_cases hx : IsSibling e jobId x
    · rw [if_neg (not_not.mpr hx)]
      have hlast : x ∈ all ++ [x] := mem_append_right _ (mem_singleton_self x)
      rcases prior with - | p
      · refine ⟨fun hp => absurd hp (Option.some_ne_none _), fun q hq => ?_⟩
        obtain rfl := Option.some.inj hq
        refine ⟨hlast, hx, fun o ho hsib => ?_⟩
        rcases mem_append.mp ho with ho | ho
        · exact absurd hsib (hnone rfl o ho)
        · rw [mem_singleton.mp ho]
      · obtain ⟨hp, hpsib, hmax⟩ := hsome p rfl
        dsimp only
        split_ifs with hlt
        · refine ⟨False.elim, fun q hq => ?_⟩
          obtain rfl := Option.some.inj hq
          refine ⟨hlast, hx, fun o ho hsib => ?_⟩
          rcases mem_append.mp ho with ho | ho
          · exact (hmax o ho hsib).trans hlt.le
          · rw [mem_singleton.mp ho]
        · refine ⟨False.elim, fun q hq => ?_⟩
          obtain rfl := Option.some.inj hq
          refine ⟨mem_append_left _ hp, hpsib, fun o ho hsib => ?_⟩
          rcases mem_append.mp ho with ho | ho
          · exact hmax o ho hsib
          · rw [mem_singleton.mp ho]
            exact not_lt.mp hlt
    · rw [if_pos hx]
      refine ⟨fun hp o ho => ?_, fun p hp => ?_⟩
      · rcases mem_append.mp ho with ho | ho
        · exact hnone hp o ho
        · rw [mem_singleton.mp ho]
          exact hx
      · obtain ⟨hmem, hsib, hmax⟩ := hsome p hp
        refine ⟨mem_append_left _ hmem, hsib, fun o ho hosib => ?_⟩
        rcases mem_append.mp ho with ho | ho
        · exact hmax o ho hosib
        · exact absurd ((mem_singleton.mp ho) ▸ hosib) hx

end Rgnr8.Service.Estimates
