import Rgnr8.Lib.Like
import Mathlib.Algebra.Group.Int.Defs
import Mathlib.Data.List.Sort
import Rgnr8.Lib.Run

/-! The audit trail, held in memory and in a SQL table. A retention sweep drops a tenant's aged
events, except the evidence of the close and of access. -/

namespace Rgnr8.Platform.Audit
open Lib.Like List

def protectedAuditPrefixes : List String :=
  ["close.", "data.", "membership.", "platform_role.", "support.", "retention.", "settings.",
    "integration."]

def isProtectedAction (action : String) : Bool :=
  protectedAuditPrefixes.any fun pfx => pfx.toList.isPrefixOf action.toList

/-- What a caller records: an event without its number. -/
structure Entry where
  actor : String
  action : String
  at_ : Int
  tenantId : String
  accountId : String
  target : String
  detail : String

structure AuditEvent extends Entry where
  seq : Nat

def Entry.aged (tenantId : String) (beforeAt : Int) (e : Entry) : Bool :=
  e.tenantId = tenantId && e.at_ < beforeAt

namespace InMemoryAuditLog

def record (log : List AuditEvent) (e : Entry) : List AuditEvent × AuditEvent :=
  let ev : AuditEvent := { toEntry := e, seq := log.length + 1 }
  (log ++ [ev], ev)

def purgeOlderThan (log : List AuditEvent) (tenantId : String) (beforeAt : Int) :
    List AuditEvent × Nat :=
  let keep := log.filter fun e => !(e.aged tenantId beforeAt && !isProtectedAction e.action)
  (keep, log.length - keep.length)

end InMemoryAuditLog

inductive Engine where
  | sqlite | postgres

namespace Engine

def same : Engine → Char → Char → Bool
  | .sqlite, c, d => c.toLower = d.toLower
  | .postgres, c, d => c = d

def reads : Engine → String → List Char
  | .sqlite, text => text.toList.takeWhile (· ≠ Char.ofNat 0)
  | .postgres, text => text.toList

variable (engine : Engine)

/-- `action LIKE 'pfx%'` for one of the prefixes. -/
def likeProtected (action : String) : Bool :=
  protectedAuditPrefixes.any fun pfx => like engine.same (pfx.toList ++ ['%']) (engine.reads action)

def takesText : Engine → String → Bool
  | .sqlite, _ => true
  | .postgres, text => !text.toList.contains (Char.ofNat 0)

def holdsInt : Engine → Int → Bool
  | .sqlite, n => -2 ^ 63 ≤ n && n < 2 ^ 63
  | .postgres, n => -2 ^ 31 ≤ n && n < 2 ^ 31

def bindsInt : Engine → Int → Bool
  | .sqlite, n => -2 ^ 63 ≤ n && n < 2 ^ 63
  | .postgres, _ => true

def storesEntry (e : Entry) : Bool :=
  [e.actor, e.action, e.tenantId, e.accountId, e.target, e.detail].all engine.takesText &&
    engine.holdsInt e.at_

def bindsPurge (tenantId : String) (beforeAt : Int) : Bool :=
  engine.takesText tenantId && engine.bindsInt beforeAt

end Engine

/-- The table: its rows in the order they were inserted, and the last number that the identity
column gave out. -/
structure SqlAuditLog where
  engine : Engine
  rows : List AuditEvent
  counter : Nat

namespace SqlAuditLog

variable (log : SqlAuditLog)

/-- `none` where the engine raises. -/
def record (e : Entry) : Option (SqlAuditLog × AuditEvent) :=
  if log.engine.storesEntry e then
    let ev : AuditEvent := { toEntry := e, seq := log.counter + 1 }
    some ({ log with rows := log.rows ++ [ev], counter := log.counter + 1 }, ev)
  else none

/-- Every event, `ORDER BY seq`. -/
def events : List AuditEvent :=
  log.rows.insertionSort fun a b => a.seq ≤ b.seq

/-- `DELETE ... WHERE tenant_id=? AND at<? AND action NOT LIKE ?...`, and the number of rows
removed. -/
def purgeOlderThan (tenantId : String) (beforeAt : Int) : Option (SqlAuditLog × Nat) :=
  if log.engine.bindsPurge tenantId beforeAt then
    let rows := log.rows.filter fun e =>
      !(e.aged tenantId beforeAt && !log.engine.likeProtected e.action)
    some ({ log with rows }, log.rows.length - rows.length)
  else none

end SqlAuditLog

/-! What LIKE protects. -/

variable (engine : Engine)

/-- The action begins with one of the prefixes, the `_` of `platform_role.` standing for any
character, and letters compared as the engine does. -/
def Engine.spares (action : String) : Bool :=
  protectedAuditPrefixes.any fun pfx => beginsLike engine.same pfx.toList (engine.reads action)

theorem Engine.likeProtected_eq_spares (action : String) :
    engine.likeProtected action = engine.spares action := by
  have hplain : ∀ pfx ∈ protectedAuditPrefixes, '%' ∉ pfx.toList := by decide
  unfold Engine.likeProtected Engine.spares
  rw [Bool.eq_iff_iff, any_eq_true, any_eq_true]
  refine exists_congr fun pfx => and_congr_right fun hpfx => ?_
  rw [like_percent (hplain pfx hpfx)]

theorem Engine.same_refl (c : Char) : engine.same c c = true := by
  cases engine <;> simp [Engine.same]

theorem Engine.reads_prefix {pfx action : String} (hpfx : Char.ofNat 0 ∉ pfx.toList)
    (h : pfx.toList <+: action.toList) : pfx.toList <+: engine.reads action := by
  cases engine with
  | postgres => exact h
  | sqlite =>
    obtain ⟨rest, hrest⟩ := h
    have hall : ∀ c ∈ pfx.toList, decide (c ≠ Char.ofNat 0) = true := by
      intro c hc
      exact decide_eq_true fun h0 => hpfx (h0 ▸ hc)
    rw [Engine.reads, ← hrest, takeWhile_append_of_pos hall]
    exact prefix_append _ _

theorem Engine.spares_of_isProtectedAction {action : String} (h : isProtectedAction action = true) :
    engine.spares action = true := by
  have hplain : ∀ pfx ∈ protectedAuditPrefixes, Char.ofNat 0 ∉ pfx.toList := by decide
  obtain ⟨pfx, hpfx, hpref⟩ := any_eq_true.mp h
  refine any_eq_true.mpr ⟨pfx, hpfx, beginsLike_of_prefix engine.same_refl ?_⟩
  exact engine.reads_prefix (hplain pfx hpfx) (List.isPrefixOf_iff_prefix.mp hpref)

/-! The two audit logs under the same calls: they hold the same events, numbered in the order in
which they were recorded, as long as no purge meets an action that only LIKE protects and no event
is recorded after a purge that has left a later one. -/

open Lib

inductive Call where
  | record (e : Entry)
  | purgeOlderThan (tenantId : String) (beforeAt : Int)

structure Logs where
  mem : List AuditEvent
  sql : SqlAuditLog

def Logs.fresh : Logs := ⟨[], engine, [], 0⟩

def step (s : Logs) : Call → Logs
  | .record e =>
    ⟨(InMemoryAuditLog.record s.mem e).1, ((s.sql.record e).map Prod.fst).getD s.sql⟩
  | .purgeOlderThan tenantId beforeAt =>
    ⟨(InMemoryAuditLog.purgeOlderThan s.mem tenantId beforeAt).1,
      ((s.sql.purgeOlderThan tenantId beforeAt).map Prod.fst).getD s.sql⟩

def contents (events : List AuditEvent) : List Entry := events.map AuditEvent.toEntry

def Entry.purgeable (tenantId : String) (beforeAt : Int) (e : Entry) : Bool :=
  e.aged tenantId beforeAt && !isProtectedAction e.action

def Increasing (events : List AuditEvent) : Prop := (events.map AuditEvent.seq).Pairwise (· < ·)

instance (events : List AuditEvent) : Decidable (Increasing events) :=
  inferInstanceAs (Decidable (List.Pairwise _ _))

/-- What a call has to leave behind. -/
structure Kept (s : Logs) (call : Call) : Prop where
  same : contents (step s call).mem = contents (step s call).sql.events
  purged : ∀ tenantId beforeAt, call = .purgeOlderThan tenantId beforeAt →
    (step s call).mem = s.mem.filter (fun e => !e.purgeable tenantId beforeAt) ∧
      (step s call).sql.events = s.sql.events.filter fun e => !e.purgeable tenantId beforeAt
  memSeqs : Increasing (step s call).mem
  sqlSeqs : Increasing (step s call).sql.rows

/-- An event is recorded while the log in memory holds no number above its length, and its texts and
stamp fit the table. A purge meets no action that LIKE protects and the prefixes do not; one that
the engine cannot bind has nothing to remove. -/
def Fair (s : Logs) : Call → Prop
  | .record e => s.sql.engine.storesEntry e = true ∧ ∀ ev ∈ s.mem, ev.seq ≤ s.mem.length
  | .purgeOlderThan tenantId beforeAt =>
    if s.sql.engine.bindsPurge tenantId beforeAt then
      ∀ ev ∈ s.mem, ev.aged tenantId beforeAt → s.sql.engine.spares ev.action →
        isProtectedAction ev.action
    else ∀ ev ∈ s.mem, ev.aged tenantId beforeAt → isProtectedAction ev.action

structure Agree (s : Logs) : Prop where
  same : contents s.mem = contents s.sql.rows
  memSeqs : Increasing s.mem
  sqlSeqs : Increasing s.sql.rows
  counted : ∀ ev ∈ s.sql.rows, ev.seq ≤ s.sql.counter

/-! Lists of events. -/

theorem SqlAuditLog.events_eq_rows {log : SqlAuditLog} (h : Increasing log.rows) :
    log.events = log.rows := by
  refine List.Pairwise.insertionSort_eq ?_
  exact (pairwise_map.mp h).imp fun hlt => le_of_lt hlt

theorem increasing_append_iff {events : List AuditEvent} {ev : AuditEvent} :
    Increasing (events ++ [ev]) ↔ Increasing events ∧ ∀ e ∈ events, e.seq < ev.seq := by
  unfold Increasing
  rw [map_append, pairwise_append]
  constructor
  · rintro ⟨heven, -, hlast⟩
    exact ⟨heven, fun e he => hlast _ (mem_map_of_mem he) _ mem_cons_self⟩
  · rintro ⟨heven, hlast⟩
    refine ⟨heven, pairwise_singleton _ _, ?_⟩
    rintro _ hn m hm
    obtain ⟨e, he, rfl⟩ := mem_map.mp hn
    rw [mem_singleton.mp hm]
    exact hlast e he

theorem Increasing.filter {events : List AuditEvent} (h : Increasing events)
    (p : AuditEvent → Bool) : Increasing (events.filter p) :=
  h.sublist (filter_sublist.map AuditEvent.seq)

theorem contents_filter (p : Entry → Bool) (events : List AuditEvent) :
    contents (events.filter fun e => p e.toEntry) = (contents events).filter p :=
  (filter_map ..).symm

theorem filter_eq_filter_iff {α : Type} {p q : α → Bool} {xs : List α} :
    xs.filter p = xs.filter q ↔ ∀ x ∈ xs, p x = q x := by
  constructor
  · intro h x hx
    have hmem : x ∈ xs.filter p ↔ x ∈ xs.filter q := by rw [h]
    rw [mem_filter, mem_filter, and_iff_right hx, and_iff_right hx] at hmem
    exact Bool.eq_iff_iff.mpr hmem
  · exact filter_congr

theorem forall_mem_of_contents {xs ys : List AuditEvent} (h : contents xs = contents ys)
    {P : Entry → Prop} : (∀ e ∈ xs, P e.toEntry) ↔ ∀ e ∈ ys, P e.toEntry := by
  have hall (zs : List AuditEvent) :
      (∀ e ∈ zs, P e.toEntry) ↔ ∀ e ∈ contents zs, P e := forall_mem_map.symm
  rw [hall, hall, h]

/-! One call. -/

section
variable {s : Logs}

theorem Agree.record (h : Agree s) {e : Entry} (hfair : Fair s (.record e)) :
    Agree (step s (.record e)) := by
  obtain ⟨hstor, hlast⟩ := hfair
  have hsql : (step s (.record e)).sql = { s.sql with
      rows := s.sql.rows ++ [{ toEntry := e, seq := s.sql.counter + 1 }]
      counter := s.sql.counter + 1 } := by
    simp only [step, SqlAuditLog.record, hstor, if_true, Option.map_some, Option.getD_some]
  refine ⟨?_, ?_, ?_, ?_⟩
  · rw [hsql]
    have hsame := h.same
    unfold contents at hsame ⊢
    show (s.mem ++ [_]).map _ = (s.sql.rows ++ [_]).map _
    rw [map_append, map_append, hsame]
    rfl
  · exact increasing_append_iff.mpr ⟨h.memSeqs, fun ev hev => Nat.lt_succ_of_le (hlast ev hev)⟩
  · rw [hsql]
    exact increasing_append_iff.mpr
      ⟨h.sqlSeqs, fun ev hev => Nat.lt_succ_of_le (h.counted ev hev)⟩
  · rw [hsql]
    intro ev hev
    rcases mem_append.mp hev with hev | hev
    · exact Nat.le_succ_of_le (h.counted ev hev)
    · rw [mem_singleton.mp hev]

theorem purge_rows_iff (h : Agree s) (tenantId : String) (beforeAt : Int) :
    (step s (.purgeOlderThan tenantId beforeAt)).sql.rows =
        s.sql.rows.filter (fun e => !e.purgeable tenantId beforeAt) ↔
      Fair s (.purgeOlderThan tenantId beforeAt) := by
  by_cases hbinds : s.sql.engine.bindsPurge tenantId beforeAt = true
  · have hrows : (step s (.purgeOlderThan tenantId beforeAt)).sql.rows = s.sql.rows.filter
        fun e => !(e.aged tenantId beforeAt && !s.sql.engine.likeProtected e.action) := by
      simp only [step, SqlAuditLog.purgeOlderThan, hbinds, if_true, Option.map_some,
        Option.getD_some]
    rw [hrows, filter_eq_filter_iff, Fair, if_pos hbinds]
    rw [forall_mem_of_contents h.same (P := fun e => e.aged tenantId beforeAt = true →
      s.sql.engine.spares e.action = true → isProtectedAction e.action = true)]
    refine forall₂_congr fun ev _ => ?_
    have hprot : isProtectedAction ev.action = true → s.sql.engine.spares ev.action = true :=
      s.sql.engine.spares_of_isProtectedAction
    rw [Entry.purgeable, s.sql.engine.likeProtected_eq_spares]
    revert hprot
    cases ev.aged tenantId beforeAt <;> cases s.sql.engine.spares ev.action <;>
      cases isProtectedAction ev.action <;> decide
  · have hrows : (step s (.purgeOlderThan tenantId beforeAt)).sql.rows = s.sql.rows := by
      simp only [step, SqlAuditLog.purgeOlderThan, if_neg hbinds, Option.map_none, Option.getD_none]
    rw [hrows, Fair, if_neg hbinds, eq_comm, filter_eq_self]
    rw [forall_mem_of_contents h.same (P := fun e => e.aged tenantId beforeAt = true →
      isProtectedAction e.action = true)]
    refine forall₂_congr fun ev _ => ?_
    rw [Entry.purgeable]
    cases ev.aged tenantId beforeAt <;> cases isProtectedAction ev.action <;> decide

theorem increasing_purge (h : Agree s) (tenantId : String) (beforeAt : Int) :
    Increasing (step s (.purgeOlderThan tenantId beforeAt)).sql.rows := by
  simp only [step, SqlAuditLog.purgeOlderThan]
  split
  · exact h.sqlSeqs.filter _
  · exact h.sqlSeqs

theorem Agree.purge (h : Agree s) {tenantId : String} {beforeAt : Int}
    (hfair : Fair s (.purgeOlderThan tenantId beforeAt)) :
    Agree (step s (.purgeOlderThan tenantId beforeAt)) := by
  have hrows := (purge_rows_iff h tenantId beforeAt).mpr hfair
  have hctr : (step s (.purgeOlderThan tenantId beforeAt)).sql.counter = s.sql.counter := by
    simp only [step, SqlAuditLog.purgeOlderThan]
    split <;> rfl
  refine ⟨?_, h.memSeqs.filter _, increasing_purge h tenantId beforeAt, ?_⟩
  · rw [hrows]
    have hsame := congrArg (filter fun e => !e.purgeable tenantId beforeAt) h.same
    rw [← contents_filter, ← contents_filter] at hsame
    exact hsame
  · rw [hrows, hctr]
    exact fun ev hev => h.counted ev (mem_of_mem_filter hev)

theorem Agree.after (h : Agree s) {call : Call} (hfair : Fair s call) : Agree (step s call) := by
  cases call with
  | record e => exact h.record hfair
  | purgeOlderThan tenantId beforeAt => exact h.purge hfair

theorem kept_of_fair (h : Agree s) {call : Call} (hfair : Fair s call) : Kept s call := by
  have hafter := h.after hfair
  refine ⟨?_, ?_, hafter.memSeqs, hafter.sqlSeqs⟩
  · rw [SqlAuditLog.events_eq_rows hafter.sqlSeqs]
    exact hafter.same
  · rintro tenantId beforeAt rfl
    rw [SqlAuditLog.events_eq_rows hafter.sqlSeqs, SqlAuditLog.events_eq_rows h.sqlSeqs]
    exact ⟨rfl, (purge_rows_iff h tenantId beforeAt).mpr hfair⟩

theorem fair_of_kept (h : Agree s) {call : Call} (hkept : Kept s call) : Fair s call := by
  cases call with
  | record e =>
    refine ⟨?_, fun ev hev => ?_⟩
    · by_contra hno
      have hsql : (step s (.record e)).sql = s.sql := by
        simp only [step, SqlAuditLog.record, if_neg hno, Option.map_none, Option.getD_none]
      -- the log in memory is then one event ahead
      have hlength := congrArg length hkept.same
      rw [hsql, SqlAuditLog.events_eq_rows h.sqlSeqs, ← h.same] at hlength
      simp [contents, step, InMemoryAuditLog.record] at hlength
    · have hlast := (increasing_append_iff.mp hkept.memSeqs).2 ev hev
      exact Nat.le_of_lt_succ hlast
  | purgeOlderThan tenantId beforeAt =>
    have hpur := (hkept.purged tenantId beforeAt rfl).2
    rw [SqlAuditLog.events_eq_rows (increasing_purge h tenantId beforeAt),
      SqlAuditLog.events_eq_rows h.sqlSeqs] at hpur
    exact (purge_rows_iff h tenantId beforeAt).mp hpur

end

theorem agree_fresh (engine : Engine) : Agree (Logs.fresh engine) :=
  ⟨rfl, List.Pairwise.nil, List.Pairwise.nil, fun _ h => nomatch h⟩

/-- Over a run the two logs stay one trail exactly when each call is fair. -/
theorem trail_kept_iff (engine : Engine) (calls : List Call) :
    EachStep step Kept (Logs.fresh engine) calls ↔
      EachStep step Fair (Logs.fresh engine) calls := by
  have hiff (s : Logs) (call : Call) (h : Agree s) : Kept s call ↔ Fair s call :=
    ⟨fair_of_kept h, kept_of_fair h⟩
  exact eachStep_congr hiff (fun _ _ h => h.after) (agree_fresh engine) calls

def invited (at_ : Int) : Entry :=
  { actor := "owner", action := "invite.created", at_, tenantId := "acme", accountId := "",
    target := "", detail := "" }

theorem purge_repeats_seq : ¬ ∀ calls, EachStep step Kept (Logs.fresh .sqlite) calls := by
  intro hall
  have hkept := hall [.record (invited 100), .record (invited 300), .purgeOlderThan "acme" 200,
    .record (invited 400)]
  have hlast := hkept [.record (invited 100), .record (invited 300), .purgeOlderThan "acme" 200]
    (.record (invited 400)) prefix_rfl
  have hseqs := hlast.memSeqs
  revert hseqs
  decide

end Rgnr8.Platform.Audit
