import Mathlib.Data.Finset.Insert
import Mathlib.Data.Finset.Filter
import Mathlib.Data.Finset.Dedup

/-! The dispatcher of alerts: a key is marked active, then sent; what clears is unmarked. -/

namespace Rgnr8.Alerts
open List

structure Alert where
  key : String
  title : String
  message : String

/-- What a tick brings, and the keys for which `send` raises in it. -/
structure Tick where
  alerts : List Alert
  fails : String → Bool

def Tick.present (t : Tick) : Finset String := (t.alerts.map Alert.key).toFinset

structure Delivery where
  active : Finset String
  delivered : List Alert
  /-- The key whose send raised, which ended the tick. -/
  raised : Option String

def sendNew (fails : String → Bool) : (seen active : Finset String) → List Alert → Delivery
  | _, active, [] => ⟨active, [], none⟩
  | seen, active, a :: alerts =>
    if a.key ∈ seen then sendNew fails seen active alerts
    else if a.key ∈ active then sendNew fails (insert a.key seen) active alerts
    else if fails a.key then ⟨insert a.key active, [], some a.key⟩
    else
      let d := sendNew fails (insert a.key seen) (insert a.key active) alerts
      { d with delivered := a :: d.delivered }

def dispatch (active : Finset String) (t : Tick) : Delivery :=
  sendNew t.fails ∅ (active.filter fun k => k ∈ t.present) t.alerts

def activeAfter (ts : List Tick) : Finset String :=
  ts.foldl (fun active t => (dispatch active t).active) ∅

section
variable (before : List Tick) (t : Tick) (k : String)

def deliveredAt : List String := (dispatch (activeAfter before) t).delivered.map Alert.key

/-- The key was delivered and has been present since. -/
def ToldSince : Prop :=
  ∃ p u q, before = p ++ u :: q ∧ k ∈ deliveredAt p u ∧ ∀ v ∈ q, k ∈ v.present

def Once : Prop := (deliveredAt before t).Nodup ∧ ∀ k ∈ deliveredAt before t, ¬ ToldSince before k

def lastPresent : Finset String := (before.getLast?.map Tick.present).getD ∅

end

/-- The send of a key that was absent in the tick before succeeds. -/
def Succeeds (ts : List Tick) : Prop :=
  ∀ before t rest, ts = before ++ t :: rest → ∀ k ∈ t.present, k ∉ lastPresent before →
    t.fails k = false

/-! One tick. -/

structure Sent (fails : String → Bool) (active : Finset String) (alerts : List Alert) (d : Delivery) :
    Prop where
  active_iff : ∀ k, k ∈ d.active ↔ k ∈ active ∨ k ∈ d.delivered.map Alert.key ∨ d.raised = some k
  nodup : (d.delivered.map Alert.key).Nodup
  new : ∀ k, k ∈ d.delivered.map Alert.key ∨ d.raised = some k →
    k ∈ alerts.map Alert.key ∧ k ∉ active
  fails : ∀ k, d.raised = some k → fails k = true
  all : d.raised = none → ∀ k ∈ alerts.map Alert.key, k ∈ d.active

theorem sendNew_sent (fails : String → Bool) (alerts : List Alert) {seen active : Finset String}
    (hseen : seen ⊆ active) : Sent fails active alerts (sendNew fails seen active alerts) := by
  induction alerts generalizing seen active with
  | nil => exact ⟨fun k => by simp [sendNew], nodup_nil, by simp [sendNew], nofun, nofun⟩
  | cons a alerts ih =>
    unfold sendNew
    have hskip : a.key ∈ active → ∀ {seen}, seen ⊆ active →
        Sent fails active (a :: alerts) (sendNew fails seen active alerts) := by
      intro hactive seen hseen
      have h := ih hseen
      refine ⟨h.active_iff, h.nodup, fun k hk => ?_, h.fails, fun hrais k hk => ?_⟩
      · exact (h.new k hk).imp_left (mem_cons_of_mem _)
      · rcases mem_cons.mp hk with rfl | hk
        · exact (h.active_iff _).mpr (.inl hactive)
        · exact h.all hrais k hk
    -- seen in this tick, active since another one, refused by the sink, or sent
    split_ifs with hin hactive hfails
    · exact hskip (hseen hin) hseen
    · exact hskip hactive (Finset.insert_subset hactive hseen)
    · refine ⟨fun k => ?_, nodup_nil, fun k hk => ?_, fun k hk => ?_, nofun⟩
      · simp [eq_comm, or_comm]
      · obtain rfl : a.key = k := by simpa using hk
        exact ⟨mem_cons_self, hactive⟩
      · obtain rfl : a.key = k := by simpa using hk
        exact hfails
    · have h := ih (Finset.insert_subset_insert a.key hseen)
      refine ⟨fun k => ?_, ?_, fun k hk => ?_, h.fails, fun hrais k hk => ?_⟩
      · rw [h.active_iff]
        simp only [Finset.mem_insert, map_cons, mem_cons]
        tauto
      · refine nodup_cons.mpr ⟨fun hk => ?_, h.nodup⟩
        exact (h.new _ (.inl hk)).2 (Finset.mem_insert_self _ _)
      · by_cases hkey : k = a.key
        · rw [hkey]
          exact ⟨mem_cons_self, hactive⟩
        · have hk' := h.new k (hk.imp_left fun hk => (mem_cons.mp hk).resolve_left hkey)
          exact ⟨mem_cons_of_mem _ hk'.1, fun hin => hk'.2 (Finset.mem_insert_of_mem hin)⟩
      · rcases mem_cons.mp hk with rfl | hk
        · exact (h.active_iff _).mpr (.inl (Finset.mem_insert_self _ _))
        · exact h.all hrais k hk

variable {before : List Tick} {t : Tick} {k : String}

theorem dispatch_sent (active : Finset String) (t : Tick) :
    Sent t.fails (active.filter fun k => k ∈ t.present) t.alerts (dispatch active t) :=
  sendNew_sent t.fails t.alerts (Finset.empty_subset _)

theorem mem_present : k ∈ t.present ↔ k ∈ t.alerts.map Alert.key := mem_toFinset

theorem activeAfter_append (ts : List Tick) (t : Tick) :
    activeAfter (ts ++ [t]) = (dispatch (activeAfter ts) t).active := by
  unfold activeAfter
  rw [foldl_append]
  rfl

/-! A whole run. -/

theorem activeAfter_of_toldSince (h : ToldSince before k) : k ∈ activeAfter before := by
  obtain ⟨p, u, q, rfl, hk, hq⟩ := h
  induction q using reverseRecOn with
  | nil =>
    rw [activeAfter_append]
    exact ((dispatch_sent _ u).active_iff k).mpr (.inr (.inl hk))
  | append_singleton q v ih =>
    rw [← cons_append, ← append_assoc, activeAfter_append]
    have hbef := ih fun w hw => hq w (mem_append_left _ hw)
    refine ((dispatch_sent _ v).active_iff k).mpr (.inl (Finset.mem_filter.mpr ⟨hbef, ?_⟩))
    exact hq v (mem_append_right _ (mem_singleton_self v))

theorem once (before : List Tick) (t : Tick) : Once before t := by
  have h := dispatch_sent (activeAfter before) t
  refine ⟨h.nodup, fun k hk htold => ?_⟩
  obtain ⟨hin, hnew⟩ := h.new k (.inl hk)
  exact hnew (Finset.mem_filter.mpr ⟨activeAfter_of_toldSince htold, mem_present.mpr hin⟩)

section
variable {rest : List Tick}

end

def shortfall : Alert := ⟨"breach", "Cash falls short", "Below the floor in three weeks"⟩

end Rgnr8.Alerts
