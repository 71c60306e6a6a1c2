import Mathlib.Algebra.Order.Ring.Int
import Mathlib.Data.List.Nodup
import Mathlib.Data.List.TakeWhile
import Rgnr8.Lib.Run

/-! Scheduled reports. Each tick reads all schedules, renders and sends those that are due one after
the other, advances the cursors of the sent ones, and writes them back when the batch is through.
Times are instants in microseconds; a time zone is a fixed offset from UTC. -/

namespace Rgnr8.Platform.Reports
open Lib List

/-- A weekday, with Monday as 0, and a time of day in a zone that many seconds ahead of UTC. -/
structure Schedule where
  weekday : Int
  hour : Int
  minute : Int
  utcOffset : Int
  deriving DecidableEq

def day : Int := 86400000000

def mostRecentFire (schedule : Schedule) (now : Int) : Int :=
  let localTime := now + schedule.utcOffset * 1000000
  let today := localTime / day
  let daysBack := ((today + 3) % 7 - schedule.weekday) % 7
  let candidate := today * day + (schedule.hour * 3600 + schedule.minute * 60) * 1000000 -
    daysBack * day
  (if localTime < candidate then candidate - 7 * day else candidate) -
    schedule.utcOffset * 1000000

def isDue (schedule : Schedule) (now : Int) : (lastSent : Option Int) → Bool
  | none => true
  | some sent => sent < mostRecentFire schedule now

structure ReportSchedule where
  tenantId : String
  reportId : String
  schedule : Schedule
  lastSent : Option Int := none
  active : Bool := true
  deriving DecidableEq

def ReportSchedule.key (s : ReportSchedule) : String × String := (s.tenantId, s.reportId)

def ReportSchedule.fire (now : Int) (s : ReportSchedule) : Int := mostRecentFire s.schedule now

/-- What comes of a schedule that is due: its spec or its context is missing, rendering or sending
it raises, or it is sent. -/
inductive Attempt where
  | notReady | raises | sends
  deriving DecidableEq

inductive Skipped where
  | paused | notDue | notReady
  deriving DecidableEq

/-- The fire time of a schedule that was sent, or why it was not. -/
structure ReportOutcome where
  key : String × String
  fired : Except Skipped Int
  deriving DecidableEq

/-- The outcomes of a batch, none where it was aborted; the schedules as the loop leaves the
objects; and what the sink was given, with the fire times. -/
structure Batch where
  outcomes : Option (List ReportOutcome)
  schedules : List ReportSchedule
  sent : List ((String × String) × Int)

def Batch.after (o : ReportOutcome) (s : ReportSchedule) (sent : List ((String × String) × Int))
    (rest : Batch) : Batch :=
  ⟨rest.outcomes.map fun os => o :: os, s :: rest.schedules, sent ++ rest.sent⟩

section
variable (now : Int) (attempt : String × String → Attempt)

def runDueReports : List ReportSchedule → Batch
  | [] => ⟨some [], [], []⟩
  | s :: rest =>
    if ¬ s.active then .after ⟨s.key, .error .paused⟩ s [] (runDueReports rest)
    else if ¬ isDue s.schedule now s.lastSent then
      .after ⟨s.key, .error .notDue⟩ s [] (runDueReports rest)
    else match attempt s.key with
      | .notReady => .after ⟨s.key, .error .notReady⟩ s [] (runDueReports rest)
      | .raises => ⟨none, s :: rest, []⟩
      | .sends => .after ⟨s.key, .ok (s.fire now)⟩ { s with lastSent := some (s.fire now) }
        [(s.key, s.fire now)] (runDueReports rest)

end

inductive Backing where
  | memory | sql
  deriving DecidableEq

def save (schedules : List ReportSchedule) (s : ReportSchedule) : List ReportSchedule :=
  schedules.map fun old => if old.key = s.key then s else old

def saveFired (stored : List ReportSchedule) (batch : List ReportSchedule)
    (outcomes : List ReportOutcome) : List ReportSchedule :=
  (outcomes.filter fun o => o.fired.toOption.isSome).foldl (fun stored o =>
    match batch.find? fun s => s.key = o.key with
    | none => stored
    | some s => save stored s) stored

/-- The stored schedules in the order of `list_all`, under their keys, and all that was sent. -/
structure State where
  schedules : List ReportSchedule
  sent : List ((String × String) × Int)
  distinct : (schedules.map ReportSchedule.key).Nodup

/-- One call of `ReportJob.run`: the time, and what would come of each schedule in it. -/
structure Tick where
  now : Int
  attempt : String × String → Attempt

def storedAfter (backing : Backing) (stored : List ReportSchedule) (b : Batch) :
    List ReportSchedule :=
  let held := match backing with
    | .memory => b.schedules
    | .sql => stored
  match b.outcomes with
  | none => held
  | some outcomes => saveFired held b.schedules outcomes

/-! What one batch does. -/

section
variable (now : Int) (attempt : String × String → Attempt)

def Due (s : ReportSchedule) : Prop := s.active ∧ isDue s.schedule now s.lastSent

def Succeeds (s : ReportSchedule) : Prop := Due now s ∧ attempt s.key = .sends

def Raises (s : ReportSchedule) : Prop := Due now s ∧ attempt s.key = .raises

instance (s : ReportSchedule) : Decidable (Due now s) := inferInstanceAs (Decidable (_ ∧ _))

instance (s : ReportSchedule) : Decidable (Succeeds now attempt s) :=
  inferInstanceAs (Decidable (_ ∧ _))

instance (s : ReportSchedule) : Decidable (Raises now attempt s) :=
  inferInstanceAs (Decidable (_ ∧ _))

variable (schedules : List ReportSchedule)

def reached : List ReportSchedule :=
  schedules.takeWhile fun s => ¬ Raises now attempt s

/-- That one and the rest. -/
def unreached : List ReportSchedule :=
  schedules.dropWhile fun s => ¬ Raises now attempt s

def advanced (s : ReportSchedule) : ReportSchedule :=
  if Succeeds now attempt s then { s with lastSent := some (s.fire now) } else s

def outcomeOf (s : ReportSchedule) : ReportOutcome :=
  ⟨s.key, if Succeeds now attempt s then .ok (s.fire now)
    else if ¬ s.active then .error .paused
    else if ¬ isDue s.schedule now s.lastSent then .error .notDue
    else .error .notReady⟩

variable {now attempt}

theorem key_advanced (s : ReportSchedule) : (advanced now attempt s).key = s.key := by
  unfold advanced
  split_ifs <;> rfl

theorem runDueReports_cons {s : ReportSchedule} (h : ¬ Raises now attempt s)
    (rest : List ReportSchedule) : runDueReports now attempt (s :: rest) =
      .after (outcomeOf now attempt s) (advanced now attempt s)
        (if Succeeds now attempt s then [(s.key, s.fire now)] else [])
        (runDueReports now attempt rest) := by
  rw [runDueReports]
  by_cases hactive : s.active = true
  · by_cases hdue : isDue s.schedule now s.lastSent = true
    · have hnow : Due now s := ⟨hactive, hdue⟩
      cases hattem : attempt s.key with
      | notReady =>
        have hno : ¬ Succeeds now attempt s := by
          intro hs
          have hsends := hs.2
          simp [hattem] at hsends
        simp [hactive, hdue, outcomeOf, advanced, hno]
      | raises => exact absurd ⟨hnow, hattem⟩ h
      | sends =>
        have hyes : Succeeds now attempt s := ⟨hnow, hattem⟩
        simp [hactive, hdue, outcomeOf, advanced, hyes]
    · have hno : ¬ Succeeds now attempt s := fun hs => hdue hs.1.2
      simp [hactive, hdue, outcomeOf, advanced, hno]
  · have hno : ¬ Succeeds now attempt s := fun hs => hactive hs.1.1
    simp [hactive, outcomeOf, advanced, hno]

theorem runDueReports_raises {s : ReportSchedule} (h : Raises now attempt s)
    (rest : List ReportSchedule) :
    runDueReports now attempt (s :: rest) = ⟨none, s :: rest, []⟩ := by
  obtain ⟨⟨hactive, hdue⟩, hattem⟩ := h
  simp [runDueReports, hactive, hdue, hattem]

theorem runDueReports_eq : runDueReports now attempt schedules =
      ⟨if ∃ s ∈ schedules, Raises now attempt s then none
          else some (schedules.map (outcomeOf now attempt)),
        (reached now attempt schedules).map (advanced now attempt) ++
          unreached now attempt schedules,
        ((reached now attempt schedules).filter (Succeeds now attempt ·)).map
          fun s => (s.key, s.fire now)⟩ := by
  induction schedules with
  | nil => simp [runDueReports, reached, unreached]
  | cons s rest ih =>
    by_cases hrais : Raises now attempt s
    · rw [runDueReports_raises hrais]
      simp [reached, unreached, hrais]
    · rw [runDueReports_cons hrais, ih]
      by_cases hsome : ∃ s ∈ rest, Raises now attempt s
      · by_cases hsucc : Succeeds now attempt s <;>
          simp [Batch.after, reached, unreached, hrais, hsome, hsucc]
      · by_cases hsucc : Succeeds now attempt s <;>
          simp [Batch.after, reached, unreached, hrais, hsome, hsucc]

end

/-! What a batch leaves in the store. -/

section
variable {now : Int} {attempt : String × String → Attempt} {schedules : List ReportSchedule}

theorem eq_of_key_eq (hdis : (schedules.map ReportSchedule.key).Nodup) {a b : ReportSchedule}
    (ha : a ∈ schedules) (hb : b ∈ schedules) (h : a.key = b.key) : a = b :=
  inj_on_of_nodup_map hdis ha hb h

theorem find_advanced (hdis : (schedules.map ReportSchedule.key).Nodup) {s : ReportSchedule}
    (hs : s ∈ schedules) : (schedules.map (advanced now attempt)).find? (fun x => x.key = s.key) =
      some (advanced now attempt s) := by
  cases hfind : (schedules.map (advanced now attempt)).find? (fun x => x.key = s.key) with
  | none =>
    have hnot := find?_eq_none.mp hfind _ (mem_map_of_mem hs)
    simp [key_advanced] at hnot
  | some found =>
    have hkey : found.key = s.key := by simpa using find?_some hfind
    obtain ⟨x, hx, rfl⟩ := mem_map.mp (mem_of_find?_eq_some hfind)
    rw [key_advanced] at hkey
    rw [eq_of_key_eq hdis hx hs hkey]

theorem foldl_save (hdis : (schedules.map ReportSchedule.key).Nodup)
    (fired : List ReportOutcome) (hfired : ∀ o ∈ fired, ∃ s ∈ schedules, s.key = o.key)
    (g : ReportSchedule → ReportSchedule) (hg : ∀ s, (g s).key = s.key) :
    fired.foldl (fun stored o =>
        match (schedules.map (advanced now attempt)).find? fun s => s.key = o.key with
        | none => stored
        | some s => save stored s) (schedules.map g) =
      schedules.map fun s =>
        if s.key ∈ fired.map ReportOutcome.key then advanced now attempt s else g s := by
  induction fired generalizing g with
  | nil => simp
  | cons o fired ih =>
    rw [forall_mem_cons] at hfired
    obtain ⟨⟨s, hs, hkey⟩, hrest⟩ := hfired
    have hfind : (schedules.map (advanced now attempt)).find? (fun x => x.key = o.key) =
        some (advanced now attempt s) := by
      rw [← hkey]
      exact find_advanced hdis hs
    have hsav : save (schedules.map g) (advanced now attempt s) =
        schedules.map fun x => if x.key = o.key then advanced now attempt x else g x := by
      unfold save
      rw [map_map]
      apply map_congr_left
      intro x hx
      simp only [Function.comp_apply, hg, key_advanced, hkey]
      split_ifs with hsame
      · rw [eq_of_key_eq hdis hx hs (hsame.trans hkey.symm)]
      · rfl
    rw [foldl_cons, hfind]
    dsimp only
    rw [hsav, ih hrest _ (fun x => by split_ifs <;> simp [key_advanced, hg])]
    apply map_congr_left
    intro x _
    by_cases hx : x.key = o.key
    · simp [hx]
    · simp [hx]

theorem saveFired_eq (hdis : (schedules.map ReportSchedule.key).Nodup)
    (g : ReportSchedule → ReportSchedule) (hg : ∀ s, (g s).key = s.key)
    (hkeep : ∀ s ∈ schedules, ¬ Succeeds now attempt s → g s = s) :
    saveFired (schedules.map g) (schedules.map (advanced now attempt))
      (schedules.map (outcomeOf now attempt)) = schedules.map (advanced now attempt) := by
  have hisF : ∀ s, (outcomeOf now attempt s).fired.toOption.isSome = true ↔
      Succeeds now attempt s := by
    intro s
    unfold outcomeOf
    split_ifs with h <;> simp [Except.toOption, h]
  unfold saveFired
  rw [foldl_save hdis _ _ g hg]
  · apply map_congr_left
    intro s hs
    split_ifs with hmem
    · rfl
    · have hno : ¬ Succeeds now attempt s := by
        intro hsucc
        apply hmem
        refine mem_map.mpr ⟨outcomeOf now attempt s, ?_, rfl⟩
        rw [mem_filter]
        exact ⟨mem_map_of_mem hs, (hisF s).mpr hsucc⟩
      rw [hkeep s hs hno, advanced, if_neg hno]
  · intro o ho
    obtain ⟨s, hs, rfl⟩ := mem_map.mp (mem_of_mem_filter ho)
    exact ⟨s, hs, rfl⟩

theorem reached_of_calm (h : ¬ ∃ s ∈ schedules, Raises now attempt s) :
    reached now attempt schedules = schedules ∧ unreached now attempt schedules = [] := by
  have hall : ∀ s ∈ schedules, decide (¬ Raises now attempt s) = true := by
    intro s hs
    exact decide_eq_true fun hrais => h ⟨s, hs, hrais⟩
  exact ⟨takeWhile_eq_self_iff.mpr hall, dropWhile_eq_nil_iff.mpr hall⟩

theorem storedAfter_memory (hdis : (schedules.map ReportSchedule.key).Nodup) :
    storedAfter .memory schedules (runDueReports now attempt schedules) =
      (reached now attempt schedules).map (advanced now attempt) ++
        unreached now attempt schedules := by
  rw [runDueReports_eq]
  by_cases hsome : ∃ s ∈ schedules, Raises now attempt s
  · simp only [storedAfter, if_pos hsome]
  · obtain ⟨hrch, hunr⟩ := reached_of_calm hsome
    simp only [storedAfter, if_neg hsome, hrch, hunr, append_nil]
    refine saveFired_eq hdis _ key_advanced fun s _ hno => ?_
    rw [advanced, if_neg hno]

theorem storedAfter_sql (hdis : (schedules.map ReportSchedule.key).Nodup) :
    storedAfter .sql schedules (runDueReports now attempt schedules) =
      if ∃ s ∈ schedules, Raises now attempt s then schedules
      else schedules.map (advanced now attempt) := by
  rw [runDueReports_eq]
  by_cases hsome : ∃ s ∈ schedules, Raises now attempt s
  · simp only [storedAfter, if_pos hsome]
  · obtain ⟨hrch, hunr⟩ := reached_of_calm hsome
    simp only [storedAfter, if_neg hsome, hrch, hunr, append_nil]
    have hsame : saveFired (schedules.map id) (schedules.map (advanced now attempt))
        (schedules.map (outcomeOf now attempt)) = schedules.map (advanced now attempt) :=
      saveFired_eq hdis id (fun _ => rfl) fun _ _ _ => rfl
    rwa [map_id] at hsame

theorem keys_storedAfter (hdis : (schedules.map ReportSchedule.key).Nodup)
    (backing : Backing) :
    (storedAfter backing schedules (runDueReports now attempt schedules)).map ReportSchedule.key =
      schedules.map ReportSchedule.key := by
  have hkeys : ReportSchedule.key ∘ advanced now attempt = ReportSchedule.key := by
    funext s
    exact key_advanced s
  cases backing with
  | memory =>
    rw [storedAfter_memory hdis, map_append, map_map, hkeys, ← map_append]
    exact congrArg (map ReportSchedule.key) takeWhile_append_dropWhile
  | sql =>
    rw [storedAfter_sql hdis]
    split_ifs
    · rfl
    · rw [map_map, hkeys]

end

/-! Ticks. -/

variable (backing : Backing)

def step (s : State) (tick : Tick) : State where
  schedules := storedAfter backing s.schedules
    (runDueReports tick.now tick.attempt s.schedules)
  sent := s.sent ++ (runDueReports tick.now tick.attempt s.schedules).sent
  distinct := by
    rw [keys_storedAfter s.distinct]
    exact s.distinct

section
variable {backing : Backing} {s : State} {tick : Tick}

variable {sched : ReportSchedule}

/-- Nothing has been sent twice, and each cursor is at or past all fire times its schedule was sent
for. -/
structure Once (s : State) : Prop where
  nodup : s.sent.Nodup
  cursor : ∀ p ∈ s.sent, ∀ sched ∈ s.schedules, sched.key = p.1 →
    ∃ sent, sched.lastSent = some sent ∧ p.2 ≤ sent

end

namespace Sample

def mondays : Schedule := ⟨0, 8, 0, 0⟩

def weekly (tenantId reportId : String) : ReportSchedule where
  tenantId := tenantId
  reportId := reportId
  schedule := mondays

def stored : State where
  schedules := [weekly "acme" "board-pack", weekly "globex" "board-pack"]
  sent := []
  distinct := by decide

def monday : Int := 1772442000000000

local instance lawfulPair : LawfulBEq (String × String) := inferInstance

def tick (bad : List (String × String)) : Tick where
  now := monday
  attempt key := if key ∈ bad then .raises else .sends

end Sample

end Rgnr8.Platform.Reports
