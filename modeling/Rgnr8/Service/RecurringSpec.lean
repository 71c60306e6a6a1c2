import Rgnr8.Service.Recurring

/-! What one press of the button does. What is due is read off the stores, and the loop that posts
it changes nothing that decides about the occurrences still ahead. -/

namespace Rgnr8.Service.Recurring
open Lib Lib.Js Fallible Kernel Subledger.Recurring Prog List
variable {π : Type} [PeriodStore π] {ctx : RecurringContext} {s s₀ : Stores π RecurringStore}

/-- The journal has an entry for an occurrence. -/
def Posted (ctx : RecurringContext) (s : Stores π RecurringStore) (id date : String) : Prop :=
  s.ledger.store.getByIdempotencyKey ctx.tenant (idempotencyKeyFor id date) ≠ none

/-- An occurrence of an active template through a date, with no entry yet. -/
structure Due (ctx : RecurringContext) (s : Stores π RecurringStore) (asOf : String)
    (t : RecurringRecord) (date : String) : Prop where
  kept : s.own.get ctx.tenant t.id = some t
  active : t.active = true
  dated : ∃ dates, occurrencesBetween (scheduleOf t) t.startDate asOf = .ok dates ∧ date ∈ dates
  unposted : ¬ Posted ctx s t.id date

def journalLines (ctx : RecurringContext) (t : RecurringRecord) :
    Except FlowFailure (List JournalLineInput) := t.lines.mapM (journalLine ctx)

/-- What it takes for an occurrence to become an entry: accounts in the chart, dimensions that are
allowed, an open period, and lines that the kernel takes. -/
def Postable (ctx : RecurringContext) (s : Stores π RecurringStore) (t : RecurringRecord)
    (date : String) : Prop :=
  ∃ lines, journalLines ctx t = .ok lines ∧
    validateDimensions ctx.dimensions (commandFor ctx t date lines "") = .ok () ∧
    PeriodStore.status s.ledger.periods ctx.tenant (periodOf date) ≠ .locked ∧
    validateAndBuildLines lines ctx.currency ctx.chart = .ok lines

/-! What is due. -/

def unpostedOf (ctx : RecurringContext) (s : Stores π RecurringStore) (t : RecurringRecord)
    (dates : List String) : List DueOccurrence :=
  (dates.filter fun date => (s.ledger.store.getByIdempotencyKey ctx.tenant
    (idempotencyKeyFor t.id date)).isNone).map (dueOccurrence t)

variable {d : DueOccurrence} {t : RecurringRecord} {date : String}

omit [PeriodStore π] in
theorem mem_unpostedOf {dates : List String} : d ∈ unpostedOf ctx s t dates ↔
      ∃ date ∈ dates, ¬ Posted ctx s t.id date ∧ dueOccurrence t date = d := by
  unfold unpostedOf Posted
  simp only [mem_map, mem_filter, Option.isNone_iff_eq_none, not_not, and_assoc]

theorem run_dueDates (t : RecurringRecord) (dates : List String) :
    (dueDates ctx t dates).run exec s = (.ok (unpostedOf ctx s t dates), s) := by
  induction dates with
  | nil => rfl
  | cons date dates ih =>
    unfold dueDates
    simp only [bind_eq, run_bind, run_perform]
    have hsame : (exec (.ledger (.getByIdempotencyKey ctx.tenant (idempotencyKeyFor t.id date))) s).2 =
        s := rfl
    have hheld : (exec (.ledger (.getByIdempotencyKey ctx.tenant (idempotencyKeyFor t.id date))) s).1 =
        s.ledger.store.getByIdempotencyKey ctx.tenant (idempotencyKeyFor t.id date) := rfl
    rw [hsame, hheld, ih]
    unfold unpostedOf
    rw [filter_cons]
    rcases s.ledger.store.getByIdempotencyKey ctx.tenant (idempotencyKeyFor t.id date) with - | e
    · rfl
    · rfl

theorem exists_occurrences (t : RecurringRecord) (fromDate toDate : String) :
    ∃ dates, occurrencesBetween (scheduleOf t) fromDate toDate = .ok dates :=
  ⟨_, if_neg (not_lt.mpr t.interval.pos)⟩

variable (ctx s) in
theorem run_dueTemplates (asOf : String) (ts : List RecurringRecord) :
    ∃ due, (dueTemplates ctx asOf ts).run exec s = (.ok due, s) ∧
      ∀ d, d ∈ due ↔ ∃ t ∈ ts, t.active = true ∧ ∃ dates,
        occurrencesBetween (scheduleOf t) t.startDate asOf = .ok dates ∧
          ∃ date ∈ dates, ¬ Posted ctx s t.id date ∧ dueOccurrence t date = d := by
  induction ts with
  | nil => exact ⟨[], rfl, fun d => iff_of_false not_mem_nil fun ⟨t, ht, _⟩ =>
      not_mem_nil ht⟩
  | cons t ts ih =>
    obtain ⟨rest, hrest, hmem⟩ := ih
    unfold dueTemplates
    by_cases hactive : t.active = true
    · obtain ⟨dates, hdates⟩ := exists_occurrences t t.startDate asOf
      rw [if_neg (not_not.mpr hactive), hdates]
      refine ⟨unpostedOf ctx s t dates ++ rest, ?_, fun d => ?_⟩
      · exact (run_bind_ok (run_dueDates t dates)).trans (run_bind_ok hrest)
      · rw [mem_append, hmem, exists_mem_cons_iff]
        refine or_congr ?_ Iff.rfl
        rw [mem_unpostedOf]
        constructor
        · exact fun hd => ⟨hactive, dates, hdates, hd⟩
        · rintro ⟨-, dates', hdat', hd⟩
          rwa [Except.ok.inj (hdates.symm.trans hdat')]
    · rw [if_pos hactive]
      refine ⟨rest, hrest, fun d => ?_⟩
      rw [hmem, exists_mem_cons_iff]
      exact (or_iff_right fun h => hactive h.1).symm

variable (ctx s) in
theorem run_dueOccurrences {asOf : String} (hasOf : requireDate (some asOf) "as-of date" = .ok asOf) :
    ∃ due, (dueOccurrences ctx (some asOf)).run exec s = (.ok due, s) ∧
      ∀ d, d ∈ due ↔ ∃ t date, Due ctx s asOf t date ∧ dueOccurrence t date = d := by
  obtain ⟨due, hrun, hmem⟩ := run_dueTemplates ctx s asOf (s.own.list ctx.tenant)
  refine ⟨due.insertionSort fun a b => dueLe ctx a b = true, ?_, fun d => ?_⟩
  · unfold dueOccurrences
    rw [hasOf]
    exact run_bind_ok hrun
  · rw [mem_insertionSort, hmem]
    constructor
    · rintro ⟨t, ht, hactive, dates, hdates, date, hdate, hfree, hd⟩
      exact ⟨t, date, ⟨RecurringStore.mem_list.mp ht, hactive, ⟨dates, hdates, hdate⟩, hfree⟩, hd⟩
    · rintro ⟨t, date, ⟨hkept, hactive, ⟨dates, hdates, hdate⟩, hfree⟩, hd⟩
      exact ⟨t, RecurringStore.mem_list.mpr hkept, hactive, dates, hdates, date, hdate, hfree, hd⟩

/-! One occurrence. -/

def RecurringRecord.unmarked (t : RecurringRecord) : RecurringRecord := { t with lastPosted := "" }

omit [PeriodStore π] in
theorem journalLines_unmarked {t' : RecurringRecord} (h : t.unmarked = t'.unmarked) :
    journalLines ctx t = journalLines ctx t' := by
  have hlines : t.unmarked.lines = t'.unmarked.lines := congrArg _ h
  unfold journalLines
  exact congrArg _ hlines

theorem postable_congr {t' : RecurringRecord} (h : t.unmarked = t'.unmarked)
    (hperiods : s.ledger.periods = s₀.ledger.periods) (date : String) :
    Postable ctx s t date ↔ Postable ctx s₀ t' date := by
  have hmark : ∀ (u : RecurringRecord) (x : Stores π RecurringStore),
      Postable ctx x u date ↔ Postable ctx x u.unmarked date := fun _ _ => Iff.rfl
  rw [hmark, h, ← hmark]
  unfold Postable
  rw [hperiods]

def marked (ctx : RecurringContext) (t : RecurringRecord) (date : String)
    (s : Stores π RecurringStore) : Stores π RecurringStore :=
  if Before t.lastPosted date then
    { s with own := s.own.save ctx.tenant { t with lastPosted := date } }
  else s

omit [PeriodStore π] in
@[simp] theorem marked_ledger (t : RecurringRecord) (date : String) :
    (marked ctx t date s).ledger = s.ledger := by
  unfold marked
  split_ifs <;> rfl

omit [PeriodStore π] in
theorem unmarked_marked (ht : s.own.get ctx.tenant t.id = some t) (date id : String) :
    ((marked ctx t date s).own.get ctx.tenant id).map
      RecurringRecord.unmarked = (s.own.get ctx.tenant id).map RecurringRecord.unmarked := by
  unfold marked
  split_ifs with hbef
  · show ((s.own.save ctx.tenant { t with lastPosted := date }).get ctx.tenant id).map
      RecurringRecord.unmarked = _
    rw [RecurringStore.get_save]
    split_ifs with hid
    · rw [(Prod.mk.inj hid).2]
      exact (congrArg (Option.map RecurringRecord.unmarked) ht).symm
    · rfl
  · rfl

theorem run_markPosted (t : RecurringRecord) (date : String) (entry : PostedEntry) :
    (markPosted ctx t date entry).run exec s = (.ok entry, marked ctx t date s) := by
  unfold markPosted marked
  split_ifs <;> rfl

inductive OccurrenceEnds (ctx : RecurringContext) (s : Stores π RecurringStore)
    (t : RecurringRecord) (date : String) :
    Except FlowFailure PostedEntry × Stores π RecurringStore → Prop where
  | failed (e : FlowFailure) (h : Postable ctx s t date → Posted ctx s t.id date) :
      OccurrenceEnds ctx s t date (.error e, s)
  | answered (e : PostedEntry) (h : Posted ctx s t.id date) :
      OccurrenceEnds ctx s t date (.ok e, marked ctx t date s)
  | appended {clock : Clock} {command : PostCommand} (e : PostedEntry)
      (hkey : command.idempotencyKey = idempotencyKeyFor t.id date)
      (htenant : command.tenantId = ctx.tenant)
      (happends : s.ledger.Appends ctx.chart command) (h : Postable ctx s t date) :
      OccurrenceEnds ctx s t date (.ok e, marked ctx t date (s.posted (ctx.flow clock) command))

theorem occurrenceEnds {lines : List JournalLineInput} (hlines : journalLines ctx t = .ok lines)
    (clock : Clock) (date : String) : OccurrenceEnds ctx s t date ((postOccurrence ctx clock t date
      (commandFor ctx t date lines clock.ingestedAt)).run exec s) := by
  have hdim : validateDimensions ctx.dimensions
      (commandFor ctx t date lines clock.ingestedAt) =
        validateDimensions ctx.dimensions (commandFor ctx t date lines "") := rfl
  unfold postOccurrence
  rw [hdim]
  rcases hvalid : validateDimensions ctx.dimensions (commandFor ctx t date lines "") with e | u
  · refine .failed (.dimension e) fun hpost => ?_
    obtain ⟨lines', hlines', hvalid', -⟩ := hpost
    rw [← Except.ok.inj (hlines.symm.trans hlines')] at hvalid'
    cases hvalid.symm.trans hvalid'
  · have hends := flowPosts RecurringCall.exec (ctx.flow clock)
      (commandFor ctx t date lines clock.ingestedAt) (markPosted ctx t date) s
    have hrun : ∀ p : RecurringProg PostedEntry, (do
        ofExcept ((Except.ok u).mapError FlowFailure.dimension)
        p : RecurringProg PostedEntry).run exec s = p.run exec s := fun _ => rfl
    rw [hrun]
    generalize (postFlow (ctx.flow clock) (commandFor ctx t date lines clock.ingestedAt) >>=
      markPosted ctx t date).run exec s = r at hends ⊢
    cases hends with
    | refused err _ happends =>
      refine .failed (.ledger err) fun hpost hfree => happends ?_
      obtain ⟨lines', hlines', -, hopen, hbuilt⟩ := hpost
      rw [← Except.ok.inj (hlines.symm.trans hlines')] at hbuilt
      exact ⟨hfree, hopen, hbuilt⟩
    | @answered e h =>
      rw [run_markPosted]
      exact .answered e (Option.ne_none_iff_exists'.mpr ⟨e, h.1⟩)
    | appended h =>
      rw [run_markPosted]
      exact .appended _ rfl rfl h ⟨lines, hlines, hvalid, h.2.1, h.2.2⟩

/-! The loop. -/

omit [PeriodStore π] in
theorem idempotencyKeyFor_inj {id id' date' : String} (hdate : Free ':' date)
    (hdate' : Free ':' date') (h : idempotencyKeyFor id date = idempotencyKeyFor id' date') :
    id = id' ∧ date = date' := by
  obtain ⟨hid, hsame⟩ := append_inj_of_free_last (by decide) hdate hdate' h
  rw [← String.toList_inj, String.toList_append, String.toList_append, append_cancel_left_eq,
    String.toList_inj] at hid
  exact ⟨hid, hsame⟩

/-- What the loop has done so far: it changed no period and no template but its mark, dropped no
entry, and added entries of occurrences that could be posted. -/
structure Behind (ctx : RecurringContext) (s₀ s : Stores π RecurringStore) : Prop where
  periods : s.ledger.periods = s₀.ledger.periods
  templates : ∀ id, (s.own.get ctx.tenant id).map RecurringRecord.unmarked =
    (s₀.own.get ctx.tenant id).map RecurringRecord.unmarked
  kept : ∀ id date, Posted ctx s₀ id date → Posted ctx s id date
  added : ∀ id date, Free ':' date → Posted ctx s id date → ¬ Posted ctx s₀ id date →
    ∃ t, s₀.own.get ctx.tenant id = some t ∧ Postable ctx s₀ t date

theorem Behind.refl (s : Stores π RecurringStore) : Behind ctx s s where
  periods := rfl
  templates _ := rfl
  kept _ _ h := h
  added _ _ _ h hnot := absurd h hnot

/-- The stores after an occurrence, seen from those before it. -/
structure OccurrenceStep (ctx : RecurringContext) (s : Stores π RecurringStore)
    (t : RecurringRecord) (date : String)
    (r : Except FlowFailure PostedEntry × Stores π RecurringStore) : Prop where
  periods : r.2.ledger.periods = s.ledger.periods
  templates : ∀ id, (r.2.own.get ctx.tenant id).map RecurringRecord.unmarked =
    (s.own.get ctx.tenant id).map RecurringRecord.unmarked
  kept : ∀ id date, Posted ctx s id date → Posted ctx r.2 id date
  added : ∀ id date', Posted ctx r.2 id date' → Posted ctx s id date' ∨
    idempotencyKeyFor id date' = idempotencyKeyFor t.id date ∧ Postable ctx s t date
  posted : Postable ctx s t date → Posted ctx r.2 t.id date
  failed : ¬ Postable ctx s t date → ¬ Posted ctx s t.id date → ∃ e, r.1 = .error e

theorem OccurrenceEnds.step {r : Except FlowFailure PostedEntry × Stores π RecurringStore}
    (ht : s.own.get ctx.tenant t.id = some t) (h : OccurrenceEnds ctx s t date r) :
    OccurrenceStep ctx s t date r := by
  cases h with
  | failed e h => exact ⟨rfl, fun _ => rfl, fun _ _ hp => hp, fun _ _ hp => .inl hp, h,
      fun _ _ => ⟨e, rfl⟩⟩
  | answered e h =>
    have hsame : ∀ id date', Posted ctx (marked ctx t date s) id date' ↔ Posted ctx s id date' := by
      intro id date'
      unfold Posted
      rw [marked_ledger]
    exact ⟨congrArg Ledger.periods (marked_ledger t date), unmarked_marked ht date,
      fun id date' hp => (hsame id date').mpr hp, fun id date' hp => .inl ((hsame id date').mp hp),
      fun _ => (hsame t.id date).mpr h, fun _ hnot => absurd h hnot⟩
  | @appended clock command e hkey htenant happends h =>
    have hposted : ∀ id date', Posted ctx (marked ctx t date (s.posted (ctx.flow clock) command)) id
        date' ↔ Posted ctx s id date' ∨ idempotencyKeyFor id date' = idempotencyKeyFor t.id date := by
      intro id date'
      unfold Posted
      rw [marked_ledger]
      show (s.ledger.posted command _).store.getByIdempotencyKey ctx.tenant
        (idempotencyKeyFor id date') ≠ none ↔ _
      rw [Ledger.getByIdempotencyKey_posted _ happends, hkey, htenant]
      split_ifs with hsame
      · exact iff_of_true (Option.some_ne_none _) (.inr hsame.2)
      · exact (or_iff_left fun h => hsame ⟨rfl, h⟩).symm
    have hown : (s.posted (ctx.flow clock) command).own.get ctx.tenant t.id = some t := ht
    refine ⟨(congrArg Ledger.periods (marked_ledger t date)).trans rfl, unmarked_marked hown date,
      fun id date' hp => (hposted id date').mpr (.inl hp), fun id date' hp => ?_,
      fun _ => (hposted t.id date).mpr (.inr rfl), fun hnot => absurd h hnot⟩
    exact ((hposted id date').mp hp).imp_right fun hsame => ⟨hsame, h⟩

theorem Behind.step {r : Except FlowFailure PostedEntry × Stores π RecurringStore}
    (h : Behind ctx s₀ s) (ht : s.own.get ctx.tenant t.id = some t) (hdate : Free ':' date)
    (hstep : OccurrenceStep ctx s t date r) : Behind ctx s₀ r.2 where
  periods := hstep.periods.trans h.periods
  templates id := (hstep.templates id).trans (h.templates id)
  kept id date' hp := hstep.kept id date' (h.kept id date' hp)
  added id date' hfree hp hnot := by
    rcases hstep.added id date' hp with hp | ⟨hkey, hpost⟩
    · exact h.added id date' hfree hp hnot
    · obtain ⟨rfl, rfl⟩ := idempotencyKeyFor_inj hfree hdate hkey
      have hsame := h.templates t.id
      rw [ht, Option.map_some, eq_comm, Option.map_eq_some_iff] at hsame
      obtain ⟨t₀, ht₀, hunm⟩ := hsame
      exact ⟨t₀, ht₀, (postable_congr hunm.symm h.periods _).mp hpost⟩

theorem run_postDue_cons (ht : s.own.get ctx.tenant d.id = some t) (due : List DueOccurrence)
    (clocks : List Clock) (result : RunResult) : (postDue ctx (d :: due) clocks result).run exec s =
      match journalLines ctx t with
      | .error e => (.error e, s)
      | .ok lines =>
        let clock := clocks.headD ⟨"", ""⟩
        let r := (postOccurrence ctx clock t d.date
          (commandFor ctx t d.date lines clock.ingestedAt)).run exec s
        (postDue ctx due clocks.tail (result.add t.id d.date r.1)).run exec r.2 := by
  have hfound : (perform (FlowCall.own (RecurringCall.get ctx.tenant d.id)) :
      RecurringProg (Option RecurringRecord)).run exec s = (.ok (some t), s) := by
    rw [← ht]
    rfl
  rw [postDue, run_bind_ok hfound]
  unfold journalLines
  dsimp only
  rcases t.lines.mapM (journalLine ctx) with e | lines
  · rfl
  · exact run_bind_ok (run_attempt _ _ _)

structure Ahead (ctx : RecurringContext) (s₀ : Stores π RecurringStore) (d : DueOccurrence)
    (t : RecurringRecord) : Prop where
  template : s₀.own.get ctx.tenant d.id = some t
  dated : Free ':' d.date
  unposted : ¬ Posted ctx s₀ d.id d.date

/-- What the run is there for: an occurrence that can be posted is, and one that cannot is not and is
reported. -/
structure Handled (ctx : RecurringContext) (s s' : Stores π RecurringStore) (result : RunResult)
    (t : RecurringRecord) (date : String) : Prop where
  posted : Postable ctx s t date → Posted ctx s' t.id date
  reported : ¬ Postable ctx s t date → ¬ Posted ctx s' t.id date ∧
    ∃ e, ⟨t.id, date, e⟩ ∈ result.failures

omit [PeriodStore π] in
theorem Ahead.id_eq (h : Ahead ctx s₀ d t) : t.id = d.id :=
  s₀.own.id_of_get h.template

theorem Ahead.now (hd : Ahead ctx s₀ d t) (h : Behind ctx s₀ s) :
    ∃ t', s.own.get ctx.tenant d.id = some t' ∧ t'.id = d.id ∧
      t'.unmarked = t.unmarked := by
  have hsame := h.templates d.id
  rw [hd.template, Option.map_some, Option.map_eq_some_iff] at hsame
  obtain ⟨t', ht', hunm⟩ := hsame
  exact ⟨t', ht', s.own.id_of_get ht', hunm⟩

theorem run_postDue_turn (hd : Ahead ctx s₀ d t) (h : Behind ctx s₀ s)
    {lines : List JournalLineInput} (hlines : journalLines ctx t = .ok lines)
    (due : List DueOccurrence) (clocks : List Clock) (result : RunResult) :
    ∃ (s' : Stores π RecurringStore) (outcome : Except FlowFailure PostedEntry),
      (postDue ctx (d :: due) clocks result).run exec s =
        (postDue ctx due clocks.tail (result.add d.id d.date outcome)).run exec s' ∧
      Behind ctx s₀ s' ∧ (∀ id date, Posted ctx s id date → Posted ctx s' id date) ∧
      (Postable ctx s₀ t d.date → Posted ctx s' d.id d.date) ∧
      (¬ Postable ctx s₀ t d.date → ∃ e, outcome = .error e) := by
  obtain ⟨t', ht', hid, hunm⟩ := hd.now h
  have hlines' : journalLines ctx t' = .ok lines := (journalLines_unmarked hunm).trans hlines
  have hown : s.own.get ctx.tenant t'.id = some t' := hid ▸ ht'
  have hstep := (occurrenceEnds hlines' (clocks.headD ⟨"", ""⟩) d.date).step hown
  have hpost : Postable ctx s t' d.date ↔ Postable ctx s₀ t d.date :=
    postable_congr hunm h.periods d.date
  have hrun := run_postDue_cons ht' due clocks result
  rw [hlines', hid] at hrun
  refine ⟨_, _, hrun, h.step hown hd.dated hstep, hstep.kept, fun hp => ?_, fun hp => ?_⟩
  · rw [← hid]
    exact hstep.posted (hpost.mpr hp)
  · refine hstep.failed (fun hp' => hp (hpost.mp hp')) fun hposted => hp ?_
    rw [hid] at hposted
    obtain ⟨t₀, ht₀, hp₀⟩ := h.added d.id d.date hd.dated hposted hd.unposted
    rwa [Option.some.inj (hd.template.symm.trans ht₀)]

/-- Where the lines of all its templates can be built, the loop comes to its end and has handled
every occurrence: by induction on what is ahead. -/
theorem run_postDue {due : List DueOccurrence} (hdue : ∀ d ∈ due, ∃ t, Ahead ctx s₀ d t ∧
      ∃ lines, journalLines ctx t = .ok lines) (h : Behind ctx s₀ s) (clocks : List Clock)
    (result : RunResult) : ∃ (result' : RunResult) (s' : Stores π RecurringStore),
      (postDue ctx due clocks result).run exec s = (.ok result', s') ∧ Behind ctx s₀ s' ∧
      (∀ id date, Posted ctx s id date → Posted ctx s' id date) ∧
      (∀ f ∈ result.failures, f ∈ result'.failures) ∧
      ∀ d ∈ due, ∀ t, Ahead ctx s₀ d t → Handled ctx s₀ s' result' t d.date := by
  induction due generalizing s clocks result with
  | nil => exact ⟨result, s, rfl, h, fun _ _ hp => hp, fun _ hf => hf, fun d hd =>
      absurd hd not_mem_nil⟩
  | cons d due ih =>
    rw [forall_mem_cons] at hdue
    obtain ⟨⟨t, hd, lines, hlines⟩, hdue⟩ := hdue
    obtain ⟨s₁, outcome, hrun, hbeh, hkept, hposted, hfailed⟩ :=
      run_postDue_turn hd h hlines due clocks result
    obtain ⟨result', s', hrest, hbeh', hkept', hfail, hhan⟩ :=
      ih hdue hbeh clocks.tail (result.add d.id d.date outcome)
    refine ⟨result', s', hrun.trans hrest, hbeh', fun id date hp =>
      hkept' id date (hkept id date hp), fun f hf => hfail f ?_, fun d' hd' t' ht' => ?_⟩
    · rcases outcome with e | entry
      · exact mem_append_left _ hf
      · exact hf
    · rcases mem_cons.mp hd' with rfl | hd'
      · obtain rfl := Option.some.inj (hd.template.symm.trans ht'.template)
        constructor
        · intro hp
          rw [hd.id_eq]
          exact hkept' d'.id d'.date (hposted hp)
        · intro hp
          obtain ⟨e, rfl⟩ := hfailed hp
          rw [hd.id_eq]
          refine ⟨fun hposted' => hp ?_, e, hfail _ (mem_append_right _
            mem_cons_self)⟩
          obtain ⟨t₀, ht₀, hp₀⟩ := hbeh'.added d'.id d'.date hd.dated hposted' hd.unposted
          rwa [Option.some.inj (hd.template.symm.trans ht₀)]
      · exact hhan d' hd' t' ht'

theorem built_of_run_postDue {due : List DueOccurrence} (hdue : ∀ d ∈ due, ∃ t, Ahead ctx s₀ d t)
    (h : Behind ctx s₀ s) {clocks : List Clock} {result result' : RunResult}
    (hrun : ((postDue ctx due clocks result).run exec s).1 = .ok result') :
    ∀ d ∈ due, ∀ t, Ahead ctx s₀ d t → ∃ lines, journalLines ctx t = .ok lines := by
  induction due generalizing s clocks result with
  | nil => exact fun d hd => absurd hd not_mem_nil
  | cons d due ih =>
    rw [forall_mem_cons] at hdue ⊢
    obtain ⟨⟨t, hd⟩, hdue⟩ := hdue
    rcases hlines : journalLines ctx t with e | lines
    · obtain ⟨t', ht', -, hunm⟩ := hd.now h
      rw [run_postDue_cons ht', journalLines_unmarked hunm, hlines] at hrun
      cases hrun
    · obtain ⟨s₁, outcome, hturn, hbeh, -⟩ := run_postDue_turn hd h hlines due clocks result
      rw [hturn] at hrun
      refine ⟨fun t' ht' => ?_, ih hdue hbeh hrun⟩
      obtain rfl := Option.some.inj (hd.template.symm.trans ht'.template)
      exact ⟨lines, hlines⟩

end Rgnr8.Service.Recurring
