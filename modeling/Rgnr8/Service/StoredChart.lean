import Rgnr8.Kernel.SavedLoads
import Rgnr8.Service.ChartEditSpec

/-! The chart of a tenant in memory, over any run of creates, edits, seeds and go-lives. Accounts are
kept under an id made from their first code, and loaded in the order they were first saved in. -/

namespace Rgnr8.Service
open Lib Kernel SavedAccounts

inductive ChartOp where
  | create (facts : BookFacts) (input : NewAccount)
  | edit (facts : BookFacts) (code : String) (changes : AccountChanges)
  | seedChart (category : BusinessCategory) (currency : Currency)
  | goLive (request : GoLiveRequest)

def ChartOp.saves (s : SavedAccounts) : ChartOp → List Account
  | create facts input => (accountCreated .inMemory facts s input).toList
  | edit facts code changes => (accountEdited .inMemory facts s code changes).toList
  | seedChart category currency => (templateAccounts category currency).byCode.values
  | goLive request => match buildGoLiveChart request with
    | .ok (coa, _) => coa.list
    | .error _ => []

def ChartOp.step (s : SavedAccounts) (op : ChartOp) : SavedAccounts := s.saveAll (op.saves s)

section
variable {s : SavedAccounts} {facts : BookFacts} {a next : Account}

theorem savable_saves (s : SavedAccounts) (op : ChartOp) : SavedAccounts.Savable (op.saves s) := by
  cases op with
  | create facts input =>
    show SavedAccounts.Savable (accountCreated .inMemory facts s input).toList
    cases hcreat : accountCreated .inMemory facts s input with
    | none => exact savable_nil
    | some a =>
      obtain ⟨chart, -, hok⟩ := accountCreated_eq_some hcreat
      exact savable_singleton hok.subtype
  | edit facts code changes =>
    show SavedAccounts.Savable (accountEdited .inMemory facts s code changes).toList
    cases hedit : accountEdited .inMemory facts s code changes with
    | none => exact savable_nil
    | some next =>
      obtain ⟨chart, current, -, -, hok⟩ := accountEdited_eq_some hedit
      exact savable_singleton hok.subtype
  | seedChart category currency => exact savable_template category currency
  | goLive request =>
    cases hbuild : buildGoLiveChart request with
    | error f =>
      simp only [ChartOp.saves, hbuild]
      exact savable_nil
    | ok built =>
      simp only [ChartOp.saves, hbuild]
      exact savable_goLive hbuild

def ChartLoads (s : SavedAccounts) : Prop :=
  ∃ chart, s.chart .inMemory = .ok chart ∧ ∀ id, chart.get id = (s.get id).map Account.stored

theorem chartLoads_iff : ChartLoads s ↔ Loads s.list := by
  constructor
  · rintro ⟨chart, hchart, -⟩
    exact loads_of_chart hchart
  · intro h
    obtain ⟨chart, hchart⟩ := exists_ofAccounts_iff.mpr h
    have hload : s.chart .inMemory = .ok chart := hchart
    exact ⟨chart, hload, get_chart hload⟩

end

/-- Over any run of creates, edits, seeds and go-lives: the chart loads at every point, with the last
version of every account, exactly when every save fits in with the accounts kept before it. -/
theorem stored_chart_loads_iff (ops : List ChartOp) : Along ChartOp.step ChartLoads .empty ops ↔
      EachStep ChartOp.step (fun s op => s.Fits (op.saves s)) .empty ops := by
  have hemp : ChartLoads .empty := ⟨.empty, rfl, fun _ => rfl⟩
  refine along_iff_eachStep (J := fun _ => True) ?_ ?_ trivial hemp ops
  · intro s op _ hloads hfits
    refine ⟨trivial, chartLoads_iff.mpr ?_⟩
    exact (loads_saveAll_iff (chartLoads_iff.mp hloads) (savable_saves s op)).mpr hfits
  · intro s op _ hloads hnot hnext
    exact hnot ((loads_saveAll_iff (chartLoads_iff.mp hloads)
      (savable_saves s op)).mp (chartLoads_iff.mp hnext))

namespace StoredSample

def facts : BookFacts := ⟨usd, false, fun _ => false, fun _ => 0⟩

def expense (code name : String) : ChartOp := .create facts ⟨code, name, none, some .expense, none⟩

def moved : List ChartOp :=
  [expense "6100" "Online ads", expense "6200" "Marketing",
    .edit facts "6100" ⟨none, none, none, none, some (some "6200"), none⟩]

end StoredSample

theorem chart_lost_by_move :
    ((StoredSample.moved.foldl ChartOp.step .empty).get "acct:6100").bind Account.parentId =
      some "acct:6200" ∧
    (((StoredSample.moved.foldl ChartOp.step .empty).chart .inMemory).map fun _ => ()) =
      .error "Account 6100: unknown parentId acct:6200" ∧
    ¬ ChartLoads (StoredSample.moved.foldl ChartOp.step .empty) := by
  have hthr : (((StoredSample.moved.foldl ChartOp.step .empty).chart .inMemory).map
      fun _ => ()) = .error "Account 6100: unknown parentId acct:6200" := by decide +kernel
  refine ⟨by decide +kernel, hthr, ?_⟩
  rintro ⟨chart, hchart, -⟩
  rw [hchart] at hthr
  cases hthr

end Rgnr8.Service
