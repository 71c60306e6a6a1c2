import Mathlib.Data.Fintype.Basic
import Rgnr8.Lib.Watched
import Rgnr8.Platform.WebhookOutbox

/-! Enqueues, workers, replays and changes of the endpoints, their steps in any order. Nothing is
dropped as long as the ids of the rows keep the events apart, and nothing is sent twice as long as a
worker sends, and writes unsent, only rows that are pending and that no other worker has in hand. -/

namespace Rgnr8.Platform.Outbox
open Lib WebhookOutbox Function Option List

inductive Request (δ : Type) where
  | enqueue (event : PlatformEvent δ)
  | deliverDue (limit : Int)
  | replay (deliveryId : String)
  | saveEndpoint (ep : WebhookEndpoint)
  | deleteEndpoint (id : String)

namespace Request
variable {δ : Type}

def Result : Request δ → Type
  | .enqueue _ => Nat
  | .deliverDue _ => DeliverySummary
  | .replay _ => Bool
  | .saveEndpoint _ | .deleteEndpoint _ => Unit

def program (envelope : PlatformEvent δ → String) (maxAttempts : Int) :
    (r : Request δ) → Service r.Result
  | .enqueue event => Outbox.enqueue envelope event
  | .deliverDue limit => Outbox.deliverDue maxAttempts limit
  | .replay deliveryId => Outbox.replay deliveryId
  | .saveEndpoint ep => .call (.saveEndpoint ep) fun _ => .ret ()
  | .deleteEndpoint id => .call (.deleteEndpoint id) fun _ => .ret ()

def event? : Request δ → Option (PlatformEvent δ)
  | .enqueue event => some event
  | _ => none

def isReplay : Request δ → Bool
  | .replay _ => true
  | _ => false

end Request

/-- What a call has read and done so far: the endpoints it fans out to and the rows it has queued;
the rows it has read; and the row it has sent and not yet written, with whether the endpoint took
it. -/
structure Local (δ : Type) where
  request : Request δ
  endpoints : Option (List WebhookEndpoint) := none
  queued : List OutboxDelivery := []
  rows : List OutboxDelivery := []
  posted : Option (OutboxDelivery × Bool) := none

namespace Local
variable {δ : Type}
variable (s : Local δ)

def sawEndpoints (eps : List WebhookEndpoint) : Local δ :=
  { s with endpoints := some eps }

def queue (d : OutboxDelivery) : Local δ := { s with queued := d :: s.queued }

def sawRows (rows : List OutboxDelivery) : Local δ :=
  { s with rows := rows ++ s.rows }

def post (d : OutboxDelivery) (ok : Bool) : Local δ :=
  { s with posted := some (d, ok) }

def wrote : Local δ := { s with posted := none }

def Writes (maxAttempts : Int) (s : Local δ) (d : OutboxDelivery) : Prop :=
  (∃ old ∈ s.rows, SameLetter old d) ∧
    ((s.request.isReplay = true ∧ s.posted = none ∧ d.status = .pending) ∨
      (s.request.isReplay = false ∧ (d.status = .pending → d.attempts < maxAttempts) ∧
        ((s.posted = none ∧ d.status ≠ .delivered) ∨
          ∃ sent ok, s.posted = some (sent, ok) ∧ sent.id = d.id ∧
            (d.status = .delivered ↔ ok = true))))

end Local

section
variable {δ : Type} {envelope : PlatformEvent δ → String} {maxAttempts : Int}

def discipline (envelope : PlatformEvent δ → String) (maxAttempts : Int) :
    Discipline Call Call.Answer (Local δ) where
  after s
    | .endpointsFor _, r => s.sawEndpoints r
    | .enqueue d, _ => s.queue d
    | .due .., r => s.sawRows r
    | .get _, r => s.sawRows (Option.toList r)
    | .postJson _ d, r => s.post d (HttpOutcome.Ok r)
    | .update _, _ => s.wrote
    | .clock, _ | .saveEndpoint _, _ | .deleteEndpoint _, _ | .validateTarget _, _ => s
  may s
    | .endpointsFor _ => s.request.event?.isSome → s.endpoints = none
    | .enqueue d => ∃ event ep now, s.request.event? = some event ∧
        d = newDelivery envelope event ep now
    | .postJson ep d => s.posted = none ∧ d ∈ s.rows ∧ ep.id = d.endpointId
    | .update d => s.Writes maxAttempts d
    | .due .. | .get _ | .clock | .saveEndpoint _ | .deleteEndpoint _ | .validateTarget _ => True
  relies _ _ := True

def Returns (envelope : PlatformEvent δ → String) {α : Type} (s : Local δ) (_ : α) : Prop :=
  ∀ event, s.request.event? = some event → ∃ eps, s.endpoints = some eps ∧
    ∀ ep ∈ eps, ep.wants event.type →
      ∃ d ∈ s.queued, d.endpointId = ep.id ∧ d.eventId = event.id ∧ d.body = envelope event

/-- An enqueue does not raise. -/
def Throws (s : Local δ) (_ : String) : Prop := s.request.event? = none

variable {s : Local δ}

theorem follows_enqueueAll {event : PlatformEvent δ} {now : Int} {eps todo : List WebhookEndpoint}
    {n : Nat} (hevent : s.request.event? = some event) (hend : s.endpoints = some eps)
    (hdone : ∀ ep ∈ eps, ep.wants event.type → ep ∈ todo ∨ ∃ d ∈ s.queued, d.endpointId = ep.id ∧
      d.eventId = event.id ∧ d.body = envelope event) :
    (enqueueAll envelope event now todo n).Follows (discipline envelope maxAttempts)
      (Returns envelope) Throws s := by
  induction todo generalizing n s with
  | nil =>
    intro event' hevent'
    obtain rfl := some.inj (hevent.symm.trans hevent')
    exact ⟨eps, hend, fun ep hep hwants =>
      (hdone ep hep hwants).resolve_left not_mem_nil⟩
  | cons first todo ih =>
    unfold enqueueAll
    refine Prog.follows_ite (fun hnot => ?_) fun _ => ?_
    · refine ih hevent hend fun ep hep hwants => ?_
      rcases hdone ep hep hwants with hmem | hqueued
      · rcases mem_cons.mp hmem with rfl | hmem
        · exact absurd hwants hnot
        · exact .inl hmem
      · exact .inr hqueued
    · refine ⟨⟨event, first, now, hevent, rfl⟩, fun _ _ => ?_⟩
      refine ih hevent hend fun ep hep hwants => ?_
      rcases hdone ep hep hwants with hmem | ⟨d, hd, hflds⟩
      · rcases mem_cons.mp hmem with rfl | hmem
        · exact .inr ⟨_, mem_cons_self, rfl, rfl, rfl⟩
        · exact .inl hmem
      · exact .inr ⟨d, mem_cons_of_mem _ hd, hflds⟩

theorem follows_fail {α : Type} {returns : Local δ → α → Prop} {d : OutboxDelivery}
    {attempts status : Int} {error : String} {k : OutboxDelivery → Service α}
    (hk : ∀ d' : OutboxDelivery, SameLetter d d' → d'.status ≠ .delivered → (d'.status = .pending →
      d'.attempts < maxAttempts) → (k d').Follows (discipline envelope maxAttempts) returns Throws
      s) :
    (fail maxAttempts d attempts status error k).Follows (discipline envelope maxAttempts) returns
      Throws s := by
  refine ⟨trivial, fun now _ => ?_⟩
  refine Prog.follows_ite (fun _ => ?_) fun hless => ?_
  · exact hk _ ⟨rfl, rfl, rfl, rfl⟩ (fun h => nomatch h) fun h => nomatch h
  · exact hk _ ⟨rfl, rfl, rfl, rfl⟩ (fun h => nomatch h) fun _ => Int.not_le.mp hless

theorem follows_attempt {α : Type} {returns : Local δ → α → Prop} {d : OutboxDelivery}
    {ep : Option WebhookEndpoint} {k : OutboxDelivery → Service α}
    (hrepl : s.request.isReplay = false) (hevent : s.request.event? = none)
    (hposted : s.posted = none) (hd : d ∈ s.rows) (hep : ∀ e, ep = some e → e.id = d.endpointId)
    (hk : ∀ (s' : Local δ) (d' : OutboxDelivery), s'.request = s.request → s'.rows = s.rows →
      s'.Writes maxAttempts d' → (k d').Follows (discipline envelope maxAttempts) returns Throws
      s') :
    (attempt maxAttempts d ep k).Follows (discipline envelope maxAttempts) returns Throws s := by
  have huns {attempts status : Int} {error : String} :
      (fail maxAttempts d attempts status error k).Follows (discipline envelope maxAttempts)
        returns Throws s := by
    refine follows_fail fun d' hlet hstatus hless => ?_
    exact hk s d' rfl rfl ⟨⟨d, hd, hlet⟩, .inr ⟨hrepl, hless, .inl ⟨hposted, hstatus⟩⟩⟩
  have hsent {attempts status : Int} {error : String} :
      (fail maxAttempts d attempts status error k).Follows (discipline envelope maxAttempts)
        returns Throws (s.post d false) := by
    refine follows_fail fun d' hlet hstatus hless => ?_
    exact hk (s.post d false) d' rfl rfl ⟨⟨d, hd, hlet⟩, .inr ⟨hrepl, hless,
      .inr ⟨d, false, rfl, hlet.id.symm, iff_of_false hstatus Bool.false_ne_true⟩⟩⟩
  cases ep with
  | none => exact huns
  | some ep =>
    refine ⟨trivial, fun blocked _ => ?_⟩
    rcases blocked with e | _ | text
    · exact hevent
    · refine ⟨⟨hposted, hd, hep ep rfl⟩, fun outcome _ => ?_⟩
      cases outcome with
      | raised error => exact hsent
      | response status =>
        by_cases hok : 200 ≤ status ∧ status < 300
        · have hafter : HttpOutcome.Ok (.response status) = true := decide_eq_true hok
          show Prog.Follows _ _ _ (s.post d (HttpOutcome.Ok (.response status)))
            (if 200 ≤ status ∧ status < 300 then _ else _)
          rw [if_pos hok, hafter]
          refine hk (s.post d true) _ rfl rfl ⟨⟨d, hd, ⟨rfl, rfl, rfl, rfl⟩⟩, .inr ⟨hrepl, ?_,
            .inr ⟨d, true, rfl, rfl, iff_of_true rfl rfl⟩⟩⟩
          exact fun h => nomatch h
        · have hafter : HttpOutcome.Ok (.response status) = false := decide_eq_false hok
          show Prog.Follows _ _ _ (s.post d (HttpOutcome.Ok (.response status)))
            (if 200 ≤ status ∧ status < 300 then _ else _)
          rw [if_neg hok, hafter]
          exact hsent
    · exact huns

theorem follows_deliverAll {todo : List OutboxDelivery}
    {known : OrderedMap String WebhookEndpoint} {summary : DeliverySummary}
    (hrepl : s.request.isReplay = false) (hevent : s.request.event? = none)
    (hposted : s.posted = none) (htodo : ∀ d ∈ todo, d ∈ s.rows)
    (hknown : ∀ id ep, known.get? id = some ep → ep.id = id) :
    (deliverAll maxAttempts todo known summary).Follows (discipline envelope maxAttempts)
      (Returns envelope) Throws s := by
  induction todo generalizing known summary s with
  | nil =>
    intro event h
    rw [hevent] at h
    exact absurd h.symm (Option.some_ne_none event)
  | cons d todo ih =>
    have hd : d ∈ s.rows := htodo d mem_cons_self
    -- the row is written, and the others come after it
    have hrest {s₀ : Local δ} {known' : OrderedMap String WebhookEndpoint}
        (hreq₀ : s₀.request = s.request) (hrows₀ : s₀.rows = s.rows)
        (hknown' : ∀ id ep, known'.get? id = some ep → ep.id = id) (s' : Local δ)
        (d' : OutboxDelivery) (hreq : s'.request = s₀.request) (hrows : s'.rows = s₀.rows)
        (hwrit : s'.Writes maxAttempts d') :
        (Prog.call (.update d') fun _ =>
          deliverAll maxAttempts todo known' (summary.count d'.status)).Follows
            (discipline envelope maxAttempts) (Returns envelope) Throws s' := by
      refine ⟨hwrit, fun _ _ => ?_⟩
      refine ih (s := s'.wrote) ?_ ?_ rfl (fun d₁ hd₁ => ?_) hknown'
      · show s'.request.isReplay = false
        rw [hreq, hreq₀, hrepl]
      · show s'.request.event? = none
        rw [hreq, hreq₀, hevent]
      · show d₁ ∈ s'.rows
        rw [hrows, hrows₀]
        exact htodo d₁ (mem_cons_of_mem _ hd₁)
    unfold deliverAll
    cases hfound : known.get? d.endpointId with
    | some ep =>
      refine follows_attempt hrepl hevent hposted hd (fun e he => ?_) (hrest rfl rfl hknown)
      rw [← some.inj he]
      exact hknown _ _ hfound
    | none =>
      refine ⟨fun h => ?_, fun eps _ => ?_⟩
      · rw [hevent] at h
        exact absurd h Bool.false_ne_true
      · have hattem {ep : Option WebhookEndpoint} {known' : OrderedMap String WebhookEndpoint}
            (hep : ∀ e, ep = some e → e.id = d.endpointId)
            (hknown' : ∀ id ep, known'.get? id = some ep → ep.id = id) :
            (attempt maxAttempts d ep fun outcome => Prog.call (.update outcome) fun _ =>
              deliverAll maxAttempts todo known' (summary.count outcome.status)).Follows
                (discipline envelope maxAttempts) (Returns envelope) Throws
                (s.sawEndpoints eps) :=
          follows_attempt hrepl hevent hposted hd hep (hrest rfl rfl hknown')
        dsimp only
        cases hfind :
            find? (fun ep : WebhookEndpoint => decide (ep.id = d.endpointId)) eps with
        | none => exact hattem (fun e he => absurd he.symm (Option.some_ne_none e)) hknown
        | some ep =>
          have hid : ep.id = d.endpointId := by
            have hfound := find?_some hfind
            exact of_decide_eq_true hfound
          refine hattem (fun e he => ?_) fun id ep' hget => ?_
          · rw [← some.inj he]
            exact hid
          · by_cases hkey : id = d.endpointId
            · rw [hkey, OrderedMap.get?_set_self, some.injEq] at hget
              rw [← hget, hkey]
              exact hid
            · rw [OrderedMap.get?_set_ne _ _ hkey] at hget
              exact hknown id ep' hget

theorem follows_program (r : Request δ) :
    (r.program envelope maxAttempts).Follows (discipline envelope maxAttempts) (Returns envelope)
      Throws { request := r } := by
  cases r with
  | enqueue event =>
    refine ⟨trivial, fun now _ => ⟨fun _ => rfl, fun eps _ => ?_⟩⟩
    exact follows_enqueueAll rfl rfl fun ep hep _ => .inl hep
  | deliverDue limit =>
    refine ⟨trivial, fun now _ => ⟨trivial, fun rows _ => ?_⟩⟩
    refine follows_deliverAll rfl rfl rfl (fun d hd => ?_) fun _ _ h => nomatch h
    exact mem_append_left _ hd
  | replay deliveryId =>
    refine ⟨trivial, fun found _ => ?_⟩
    cases found with
    | none => exact fun _ h => nomatch h
    | some d =>
      refine ⟨trivial, fun now _ => ⟨⟨⟨d, mem_cons_self, ⟨rfl, rfl, rfl, rfl⟩⟩,
        .inl ⟨rfl, rfl, rfl⟩⟩, fun _ _ _ h => nomatch h⟩⟩
  | saveEndpoint ep => exact ⟨trivial, fun _ _ _ h => nomatch h⟩
  | deleteEndpoint id => exact ⟨trivial, fun _ _ _ h => nomatch h⟩

end

/-! The calls of a dispatcher. -/

/-- `DurableWebhookDispatcher`: the outbox that it is given, how many attempts it makes, how an
event is written out, and what it meets. -/
structure Dispatcher (δ : Type) where
  backing : Backing
  maxAttempts : Int
  envelope : PlatformEvent δ → String
  environment : Environment

section
variable {δ ι : Type} {D : Dispatcher δ} {requests : ι → Request δ}

abbrev Calls (requests : ι → Request δ) : Type :=
  Watched Call Call.Answer String ι (fun i => (requests i).Result) (Local δ) World

namespace Calls

def start (D : Dispatcher δ) (endpoints : OrderedMap String WebhookEndpoint)
    (requests : ι → Request δ) : Calls requests where
  pool :=
    { state := { outbox := WebhookOutbox.empty, endpoints, used := 0 }
      proc := fun i => (requests i).program D.envelope D.maxAttempts }
  locals i := { request := requests i }
  trace := []

def step [DecidableEq ι] (D : Dispatcher δ) (w : Calls requests) (i : ι) : Calls requests :=
  Watched.step (discipline D.envelope D.maxAttempts) (exec D.backing D.environment) w i

end Calls

def answerOf (requests : ι → Request δ) (endpointId eventId : String) :
    Made ι Call Call.Answer → Option Bool
  | ⟨_, .postJson ep d, r⟩ =>
    if ep.id = endpointId ∧ d.eventId = eventId ∧ HttpOutcome.Ok r = true then some true else none
  | ⟨i, .update d, _⟩ =>
    if (requests i).isReplay = true ∧ d.endpointId = endpointId ∧ d.eventId = eventId then
      some false
    else none
  | _ => none

/-- The endpoint has answered the event with 2xx, and the row has not been replayed since. -/
def Answered (requests : ι → Request δ) (endpointId eventId : String)
    (trace : List (Made ι Call Call.Answer)) : Prop :=
  trace.findSome? (answerOf requests endpointId eventId) = some true

instance (endpointId eventId : String) (trace : List (Made ι Call Call.Answer)) :
    Decidable (Answered requests endpointId eventId trace) :=
  inferInstanceAs (Decidable (trace.findSome? (answerOf requests endpointId eventId) = some true))

def Replayed (requests : ι → Request δ) (id : String) : List (Made ι Call Call.Answer) → Prop
  | [] => False
  | ⟨i, .update d, _⟩ :: trace =>
    ((requests i).isReplay = true ∧ d.id = id) ∨ Replayed requests id trace
  | _ :: trace => Replayed requests id trace

def WebhookOutbox.OneRow (s : WebhookOutbox) (endpointId eventId body : String) : Prop :=
  ∃ d, s.get d.id = some d ∧ d.endpointId = endpointId ∧ d.eventId = eventId ∧ d.body = body ∧
    ∀ d', s.get d'.id = some d' → d'.endpointId = endpointId → d'.eventId = eventId → d' = d

/-- Of an event that has been enqueued, every endpoint that wanted it has one row; and a row is
pending after fewer attempts than the dispatcher makes, or it was replayed. -/
structure NoneDropped (D : Dispatcher δ) (w : Calls requests) : Prop where
  rows : ∀ i event, (requests i).event? = some event → (w.pool.proc i).ended →
    ∀ tenantId (eps : List WebhookEndpoint), ⟨i, .endpointsFor tenantId, eps⟩ ∈ w.trace →
      ∀ ep ∈ eps, ep.wants event.type →
        w.pool.state.outbox.OneRow ep.id event.id (D.envelope event)
  pending : ∀ id d, w.pool.state.outbox.get id = some d → d.status = .pending →
    d.attempts < D.maxAttempts ∨ Replayed requests id w.trace

/-- A step removes no row, and sends no event to an endpoint that has answered it, but for a
replay. -/
structure NoneRepeated [DecidableEq ι] (D : Dispatcher δ) (w : Calls requests) (i : ι) :
    Prop where
  kept : ∀ id d, w.pool.state.outbox.get id = some d →
    ∃ d', (w.step D i).pool.state.outbox.get id = some d' ∧ SameLetter d d'
  sent : ∀ ep d, (w.pool.proc i).call? = some (.postJson ep d) →
    ¬ Answered requests ep.id d.eventId w.trace

/-- A row that is queued finds none of another endpoint, event or body under its id; a row that is
sent is still pending, and no other worker has sent it and not written it yet; a row that is written
without having been sent is still pending, but for a replay. -/
def Allowed (w : Calls requests) (i : ι) : Call → Prop
  | .enqueue d => ∀ d' ∈ w.pool.state.outbox.get d.id, SameLetter d d'
  | .postJson _ d =>
    (∀ d' ∈ w.pool.state.outbox.get d.id, d'.status = .pending) ∧
      ∀ j, j ≠ i → ∀ sent ∈ (w.locals j).posted, sent.1.id ≠ d.id
  | .update d => (requests i).isReplay = false → (w.locals i).posted = none →
    ∀ d' ∈ w.pool.state.outbox.get d.id, d'.status = .pending
  | _ => True

def Guarded (w : Calls requests) (i : ι) : Prop := ∀ c ∈ (w.pool.proc i).call?, Allowed w i c

instance [Fintype ι] [DecidableEq ι] (w : Calls requests) (i : ι) :
    DecidablePred (Allowed w i)
  | .enqueue d =>
    inferInstanceAs (Decidable (∀ d' ∈ w.pool.state.outbox.get d.id, SameLetter d d'))
  | .postJson _ d => inferInstanceAs (Decidable
      ((∀ d' ∈ w.pool.state.outbox.get d.id, d'.status = .pending) ∧
        ∀ j, j ≠ i → ∀ sent ∈ (w.locals j).posted, sent.1.id ≠ d.id))
  | .update d => inferInstanceAs (Decidable
      ((requests i).isReplay = false → (w.locals i).posted = none →
        ∀ d' ∈ w.pool.state.outbox.get d.id, d'.status = .pending))
  | .clock | .endpointsFor _ | .saveEndpoint _ | .deleteEndpoint _ | .due .. | .get _
  | .validateTarget _ => inferInstanceAs (Decidable True)

instance [Fintype ι] [DecidableEq ι] (w : Calls requests) (i : ι) : Decidable (Guarded w i) :=
  inferInstanceAs (Decidable (∀ c ∈ (w.pool.proc i).call?, Allowed w i c))

/-! The invariant. -/

/-- The row is stored, whatever has become of it. -/
def WebhookOutbox.Has (s : WebhookOutbox) (d : OutboxDelivery) : Prop :=
  ∃ d', s.get d.id = some d' ∧ SameLetter d d'

variable {d d' : OutboxDelivery} {s : WebhookOutbox}

theorem WebhookOutbox.has_of_get {id : String} (h : s.get id = some d) : s.Has d := by
  have hid : d.id = id := s.keyed _ _ h
  refine ⟨d, ?_, SameLetter.refl d⟩
  rwa [hid]

theorem WebhookOutbox.Has.of_letter (h : s.Has d) (hlet : SameLetter d d') : s.Has d' := by
  obtain ⟨row, hrow, hrowL⟩ := h
  refine ⟨row, ?_, hlet.symm.trans hrowL⟩
  rwa [hlet.id]

theorem WebhookOutbox.Has.enqueue (h : s.Has d') (d : OutboxDelivery) : (s.enqueue d).2.Has d' := by
  rcases s.enqueue_cases d with ⟨-, -, hsame⟩ | ⟨hnone, hput⟩
  · rwa [hsame]
  · obtain ⟨row, hrow, hlet⟩ := h
    have hkey : d'.id ≠ d.id := by
      intro hid
      rw [hid, hnone] at hrow
      exact nomatch hrow
    rw [hput]
    exact ⟨row, by rw [get_put_ne s hkey, hrow], hlet⟩

theorem WebhookOutbox.Has.update {b : Backing} (hd : s.Has d) (h : s.Has d') :
    (s.update b d).Has d' := by
  obtain ⟨cur, hcur, hcurL⟩ := hd
  obtain ⟨row, hrow, hrowL⟩ := h
  by_cases hid : d'.id = d.id
  · rw [hid, hcur, some.injEq] at hrow
    subst hrow
    obtain ⟨new, hnew, hlet, -, -⟩ :=
      get_update_self (b := b) hcur hcurL.symm
    exact ⟨new, by rw [hid, hnew], hrowL.trans hlet⟩
  · exact ⟨row, by rw [get_update_ne hid, hrow], hrowL⟩

/-- What is known of the rows that are stored, of the rows that the calls have read, queued or sent,
and of the endpoints that have answered. -/
structure Mail (maxAttempts : Int) (s : WebhookOutbox) (locals : ι → Local δ)
    (answered : String → String → Prop) (replayed : String → Prop) : Prop where
  keyed : ∀ id d, s.get id = some d → id = d.endpointId ++ ":" ++ d.eventId
  read : ∀ i, ∀ d ∈ (locals i).rows, s.Has d
  queued : ∀ i, ∀ d ∈ (locals i).queued, s.Has d
  posted : ∀ i d ok, (locals i).posted = some (d, ok) → s.Has d
  single : ∀ i j d d' ok ok', (locals i).posted = some (d, ok) →
    (locals j).posted = some (d', ok') → d.id = d'.id → i = j
  unanswered : ∀ i d, (locals i).posted = some (d, false) → ¬ answered d.endpointId d.eventId
  answered : ∀ endpointId eventId, answered endpointId eventId →
    ∃ d, s.get (endpointId ++ ":" ++ eventId) = some d ∧ d.endpointId = endpointId ∧
      d.eventId = eventId ∧ (d.status = .delivered ∨
        ∃ i d', (locals i).posted = some (d', true) ∧ d'.id = d.id)
  pending : ∀ id d, s.get id = some d → d.status = .pending →
    d.attempts < maxAttempts ∨ replayed id

namespace Mail
variable {maxAttempts : Int} {s : WebhookOutbox} {locals : ι → Local δ}
  {answered : String → String → Prop} {replayed : String → Prop}

variable {d : OutboxDelivery}

theorem id_of_has (h : Mail maxAttempts s locals answered replayed) (hd : s.Has d) :
    d.id = d.endpointId ++ ":" ++ d.eventId := by
  obtain ⟨d', hget, hlet⟩ := hd
  rw [h.keyed _ _ hget, hlet.endpointId, hlet.eventId]

theorem answered_pending (h : Mail maxAttempts s locals answered replayed) (hd : s.Has d)
    (hansd : answered d.endpointId d.eventId)
    (hpend : ∀ d', s.get d.id = some d' → d'.status = .pending) :
    ∃ i d', (locals i).posted = some (d', true) ∧ d'.id = d.id := by
  obtain ⟨row, hrow, -, -, hstatus⟩ := h.answered _ _ hansd
  rw [← h.id_of_has hd] at hrow
  have hid : row.id = d.id := s.keyed _ _ hrow
  rcases hstatus with hdel | hposted
  · rw [hpend row hrow] at hdel
    exact nomatch hdel
  · rwa [hid] at hposted

theorem mono (h : Mail maxAttempts s locals answered replayed)
    {answered' : String → String → Prop} {replayed' : String → Prop}
    (hansd : ∀ e v, answered' e v → answered e v)
    (hrep : ∀ id, replayed id → replayed' id) :
    Mail maxAttempts s locals answered' replayed' where
  keyed := h.keyed
  read := h.read
  queued := h.queued
  posted := h.posted
  single := h.single
  unanswered i d hi ha := h.unanswered i d hi (hansd _ _ ha)
  answered e v ha := h.answered e v (hansd e v ha)
  pending id d hd hs := (h.pending id d hd hs).imp_right (hrep id)

theorem start (requests : ι → Request δ) : Mail maxAttempts WebhookOutbox.empty
    (fun i => { request := requests i }) (fun e v => Answered requests e v []) fun _ => False where
  keyed _ _ h := nomatch h
  read _ _ h := nomatch h
  queued _ _ h := nomatch h
  posted _ _ _ h := nomatch h
  single _ _ _ _ _ _ h := nomatch h
  unanswered _ _ h := nomatch h
  answered _ _ h := nomatch h
  pending _ _ h := nomatch h

variable [DecidableEq ι] {i : ι} {here : Local δ}

theorem of_update {P : Local δ → Prop} {j : ι} (h : P (Function.update locals i here j)) :
    (j = i ∧ P here) ∨ (j ≠ i ∧ P (locals j)) := by
  by_cases hj : j = i
  · rw [hj, update_self] at h
    exact .inl ⟨hj, h⟩
  · rw [update_of_ne hj] at h
    exact .inr ⟨hj, h⟩

theorem learn (h : Mail maxAttempts s locals answered replayed)
    (hposted : here.posted = (locals i).posted)
    (hrows : ∀ d ∈ here.rows, d ∈ (locals i).rows ∨ s.Has d)
    (hqueued : here.queued = (locals i).queued) :
    Mail maxAttempts s (Function.update locals i here) answered replayed := by
  have hsame : (fun j => (update locals i here j).posted) = fun j => (locals j).posted :=
    read_update_same Local.posted hposted
  have hpost (j : ι) : (update locals i here j).posted = (locals j).posted :=
    congrFun hsame j
  refine ⟨h.keyed, fun j d hd => ?_, fun j d hd => ?_, fun j d ok hj => ?_,
    fun j k d d' ok ok' hj hk => ?_, fun j d hj => ?_, fun e v ha => ?_, h.pending⟩
  · rcases of_update (P := fun l => d ∈ l.rows) hd with ⟨-, hd⟩ | ⟨-, hd⟩
    · exact (hrows d hd).elim (h.read i d) id
    · exact h.read j d hd
  · rcases of_update (P := fun l => d ∈ l.queued) hd with ⟨-, hd⟩ | ⟨-, hd⟩
    · rw [hqueued] at hd
      exact h.queued i d hd
    · exact h.queued j d hd
  · rw [hpost] at hj
    exact h.posted j d ok hj
  · rw [hpost] at hj hk
    exact h.single j k d d' ok ok' hj hk
  · rw [hpost] at hj
    exact h.unanswered j d hj
  · obtain ⟨d, hget, hendpoint, hevent, hstatus⟩ := h.answered e v ha
    refine ⟨d, hget, hendpoint, hevent, hstatus.imp_right ?_⟩
    rintro ⟨j, d', hj, hid⟩
    exact ⟨j, d', (hpost j).trans hj, hid⟩

theorem enqueue (h : Mail maxAttempts s locals answered replayed) (hmax : 0 < maxAttempts)
    (hid : d.id = d.endpointId ++ ":" ++ d.eventId) (hatt : d.attempts = 0)
    (hfree : ∀ d', s.get d.id = some d' → SameLetter d d') :
    Mail maxAttempts (s.enqueue d).2 (Function.update locals i ((locals i).queue d)) answered
      replayed := by
  have hput : (∀ id d', (s.enqueue d).2.get id = some d' →
      s.get id = some d' ∨ (id = d.id ∧ d' = d)) ∧ ∀ id d', s.get id = some d' →
        (s.enqueue d).2.get id = some d' := by
    rcases s.enqueue_cases d with ⟨-, -, hsame⟩ | ⟨hnone, hput⟩
    · rw [hsame]
      exact ⟨fun _ _ => .inl, fun _ _ => id⟩
    · rw [hput]
      refine ⟨fun id d' hget => ?_, fun id d' hget => ?_⟩
      · by_cases hkey : id = d.id
        · rw [hkey, get_put_self, some.injEq] at hget
          exact .inr ⟨hkey, hget.symm⟩
        · rw [get_put_ne s hkey] at hget
          exact .inl hget
      · have hkey : id ≠ d.id := by
          rintro rfl
          rw [hnone] at hget
          exact nomatch hget
        rwa [get_put_ne s hkey]
  have hhas {d' : OutboxDelivery} (hd' : s.Has d') : (s.enqueue d).2.Has d' := hd'.enqueue d
  have hhere : (s.enqueue d).2.Has d := by
    rcases s.enqueue_cases d with ⟨old, hold, hsame⟩ | ⟨-, hput⟩
    · rw [hsame]
      exact ⟨old, hold, hfree old hold⟩
    · rw [hput]
      exact ⟨d, get_put_self s d, SameLetter.refl d⟩
  have hsame : (fun j => (update locals i ((locals i).queue d) j).posted) =
      fun j => (locals j).posted := read_update_same Local.posted rfl
  have hpost (j : ι) :
      (update locals i ((locals i).queue d) j).posted = (locals j).posted :=
    congrFun hsame j
  refine ⟨fun id d' hget => ?_, fun j d' hd' => ?_, fun j d' hd' => ?_, fun j d' ok hj => ?_,
    fun j k d₁ d₂ ok ok' hj hk => ?_, fun j d' hj => ?_, fun e v ha => ?_,
    fun id d' hget hpend => ?_⟩
  · rcases hput.1 id d' hget with hold | ⟨rfl, rfl⟩
    · exact h.keyed id d' hold
    · exact hid
  · rcases of_update (P := fun l => d' ∈ l.rows) hd' with ⟨-, hd'⟩ | ⟨-, hd'⟩
    · exact hhas (h.read i d' hd')
    · exact hhas (h.read j d' hd')
  · rcases of_update (P := fun l => d' ∈ l.queued) hd' with ⟨-, hd'⟩ | ⟨-, hd'⟩
    · rcases mem_cons.mp hd' with rfl | hd'
      · exact hhere
      · exact hhas (h.queued i d' hd')
    · exact hhas (h.queued j d' hd')
  · rw [hpost] at hj
    exact hhas (h.posted j d' ok hj)
  · rw [hpost] at hj hk
    exact h.single j k d₁ d₂ ok ok' hj hk
  · rw [hpost] at hj
    exact h.unanswered j d' hj
  · obtain ⟨row, hget, hendpoint, hevent, hstatus⟩ := h.answered e v ha
    refine ⟨row, hput.2 _ _ hget, hendpoint, hevent, hstatus.imp_right ?_⟩
    rintro ⟨j, d', hj, hid⟩
    exact ⟨j, d', (hpost j).trans hj, hid⟩
  · rcases hput.1 id d' hget with hold | ⟨-, rfl⟩
    · exact h.pending id d' hold hpend
    · rw [hatt]
      exact .inl hmax

theorem post (h : Mail maxAttempts s locals answered replayed) (ok : Bool)
    (hnone : (locals i).posted = none) (hd : d ∈ (locals i).rows)
    (hpend : ∀ d', s.get d.id = some d' → d'.status = .pending)
    (halone : ∀ j, j ≠ i → ∀ sent ∈ (locals j).posted, sent.1.id ≠ d.id) :
    ¬ answered d.endpointId d.eventId ∧
      Mail maxAttempts s (Function.update locals i ((locals i).post d ok))
        (fun e v => (d.endpointId = e ∧ d.eventId = v ∧ ok = true) ∨ answered e v) replayed := by
  have hhas := h.read i d hd
  have hnot : ¬ answered d.endpointId d.eventId := by
    intro ha
    obtain ⟨j, d', hj, hid⟩ := h.answered_pending hhas ha hpend
    by_cases hji : j = i
    · rw [hji, hnone] at hj
      exact nomatch hj
    · exact halone j hji _ hj hid
  have hposted {j : ι} {d' : OutboxDelivery} {ok' : Bool}
      (hj : (update locals i ((locals i).post d ok) j).posted = some (d', ok')) :
      (j = i ∧ (d, ok) = (d', ok')) ∨ (j ≠ i ∧ (locals j).posted = some (d', ok')) :=
    (of_update (P := fun l => l.posted = some (d', ok')) hj).imp_left
      (And.imp_right some.inj)
  refine ⟨hnot, h.keyed, fun j d' hd' => ?_, fun j d' hd' => ?_, fun j d' ok' hj => ?_,
    fun j k d₁ d₂ ok₁ ok₂ hj hk heq => ?_, fun j d' hj ha => ?_, fun e v ha => ?_, h.pending⟩
  · exact (of_update (P := fun l => d' ∈ l.rows) hd').elim (fun hi => h.read i d' hi.2)
      fun hj => h.read j d' hj.2
  · exact (of_update (P := fun l => d' ∈ l.queued) hd').elim (fun hi => h.queued i d' hi.2)
      fun hj => h.queued j d' hj.2
  · rcases hposted hj with ⟨-, hpair⟩ | ⟨-, hj⟩
    · obtain ⟨rfl, -⟩ := Prod.mk.inj hpair
      exact hhas
    · exact h.posted j d' ok' hj
  · rcases hposted hj with ⟨hji, hpair⟩ | ⟨hji, hj⟩
    · rcases hposted hk with ⟨hki, -⟩ | ⟨hki, hk⟩
      · rw [hji, hki]
      · obtain ⟨rfl, -⟩ := Prod.mk.inj hpair
        exact absurd heq.symm (halone k hki _ hk)
    · rcases hposted hk with ⟨-, hpair⟩ | ⟨-, hk⟩
      · obtain ⟨rfl, -⟩ := Prod.mk.inj hpair
        exact absurd heq (halone j hji _ hj)
      · exact h.single j k d₁ d₂ ok₁ ok₂ hj hk heq
  · rcases hposted hj with ⟨-, hpair⟩ | ⟨hji, hj⟩
    · obtain ⟨rfl, hok⟩ := Prod.mk.inj hpair
      rcases ha with ⟨-, -, htrue⟩ | ha
      · rw [hok] at htrue
        exact nomatch htrue
      · exact hnot ha
    · rcases ha with ⟨hendpoint, hevent, -⟩ | ha
      · refine halone j hji _ hj ?_
        rw [h.id_of_has hhas, h.id_of_has (h.posted j d' false hj), hendpoint, hevent]
      · exact h.unanswered j d' hj ha
  · rcases ha with ⟨rfl, rfl, rfl⟩ | ha
    · obtain ⟨row, hrow, hlet⟩ := hhas
      rw [h.id_of_has ⟨row, hrow, hlet⟩] at hrow
      refine ⟨row, hrow, hlet.endpointId, hlet.eventId, .inr ⟨i, d, ?_, hlet.id.symm⟩⟩
      rw [update_self]
      rfl
    · obtain ⟨row, hget, hendpoint, hevent, hstatus⟩ := h.answered e v ha
      refine ⟨row, hget, hendpoint, hevent, hstatus.imp_right ?_⟩
      rintro ⟨j, d', hj, hid⟩
      have hji : j ≠ i := by
        rintro rfl
        rw [hnone] at hj
        exact nomatch hj
      exact ⟨j, d', by rw [update_of_ne hji, hj], hid⟩

theorem update (h : Mail maxAttempts s locals answered replayed) {b : Backing}
    (hwrit : (locals i).Writes maxAttempts d) (hpend : (locals i).request.isReplay = false →
      (locals i).posted = none → ∀ d', s.get d.id = some d' → d'.status = .pending) :
    Mail maxAttempts (s.update b d) (Function.update locals i (locals i).wrote)
      (fun e v => ¬ ((locals i).request.isReplay = true ∧ d.endpointId = e ∧ d.eventId = v) ∧
        answered e v)
      fun id => ((locals i).request.isReplay = true ∧ d.id = id) ∨ replayed id := by
  obtain ⟨⟨old, hold, holdL⟩, hkind⟩ := hwrit
  have hhas : s.Has d := (h.read i old hold).of_letter holdL
  obtain ⟨cur, hcur, hcurL⟩ := hhas
  obtain ⟨row, hrow, hrowL, hstatus, hatt⟩ :=
    get_update_self (b := b) hcur hcurL.symm
  have hget {id : String} (hne : id ≠ d.id) : (s.update b d).get id = s.get id :=
    get_update_ne hne
  have hkept {d' : OutboxDelivery} (hd' : s.Has d') : (s.update b d).Has d' :=
    WebhookOutbox.Has.update ⟨cur, hcur, hcurL⟩ hd'
  have hposted {j : ι} {d' : OutboxDelivery} {ok : Bool}
      (hj : (Function.update locals i (locals i).wrote j).posted = some (d', ok)) :
      j ≠ i ∧ (locals j).posted = some (d', ok) := by
    rcases of_update (P := fun l => l.posted = some (d', ok)) hj with ⟨-, hi⟩ | hj
    · exact nomatch hi
    · exact hj
  -- only the row of `d` and what call `i` holds have changed
  refine ⟨fun id d' hd' => ?_, fun j d' hd' => ?_, fun j d' hd' => ?_, fun j d' ok hj => ?_,
    fun j k d₁ d₂ ok₁ ok₂ hj hk => ?_, fun j d' hj ha => ?_, fun e v ha => ?_,
    fun id d' hd' hstill => ?_⟩
  · by_cases hid : id = d.id
    · rw [hid, hrow, some.injEq] at hd'
      rw [hid, ← hd', hrowL.endpointId, hrowL.eventId]
      exact h.keyed _ cur hcur
    · rw [hget hid] at hd'
      exact h.keyed id d' hd'
  · exact hkept ((of_update (P := fun l => d' ∈ l.rows) hd').elim (fun hi => h.read i d' hi.2)
      fun hj => h.read j d' hj.2)
  · exact hkept ((of_update (P := fun l => d' ∈ l.queued) hd').elim (fun hi => h.queued i d' hi.2)
      fun hj => h.queued j d' hj.2)
  · exact hkept (h.posted j d' ok (hposted hj).2)
  · exact h.single j k d₁ d₂ ok₁ ok₂ (hposted hj).2 (hposted hk).2
  · exact h.unanswered j d' (hposted hj).2 ha.2
  · obtain ⟨hnot, ha⟩ := ha
    obtain ⟨row', hrow', hendpoint, hevent, hansd⟩ := h.answered e v ha
    by_cases hid : e ++ ":" ++ v = d.id
    · rw [hid, hcur, some.injEq] at hrow'
      subst hrow'
      refine ⟨row, by rw [hid, hrow], hrowL.endpointId.trans hendpoint,
        hrowL.eventId.trans hevent, ?_⟩
      have hpair : d.endpointId = e ∧ d.eventId = v :=
        ⟨hcurL.endpointId.symm.trans hendpoint, hcurL.eventId.symm.trans hevent⟩
      rcases hkind with ⟨hrepl, -, -⟩ | ⟨hrepl, -, ⟨hnone, -⟩ | ⟨sent, ok, hsent, hsen, hok⟩⟩
      · exact absurd ⟨hrepl, hpair⟩ hnot
      · -- it was not sent: another call has sent it, and writes it after this one
        obtain ⟨j, d', hj, hd'⟩ := h.answered_pending ⟨cur, hcur, hcurL⟩
          (by rwa [hpair.1, hpair.2]) (hpend hrepl hnone)
        have hji : j ≠ i := by
          rintro rfl
          rw [hnone] at hj
          exact nomatch hj
        refine .inr ⟨j, d', by rw [Function.update_of_ne hji, hj], ?_⟩
        rw [hd', hrowL.id, hcurL.id]
      · cases ok with
        | true =>
          rw [hstatus]
          exact .inl (hok.mpr rfl)
        | false =>
          -- the endpoint had not answered when the row was sent, nor since
          obtain ⟨row', hsentR, hsentL⟩ := h.posted i sent false hsent
          rw [hsen, hcur, some.injEq] at hsentR
          subst hsentR
          refine absurd ?_ (h.unanswered i sent hsent)
          rwa [← hsentL.endpointId, ← hsentL.eventId, hendpoint, hevent]
    · refine ⟨row', by rw [hget hid, hrow'], hendpoint, hevent, hansd.imp_right ?_⟩
      rintro ⟨j, d', hj, hd'⟩
      have hji : j ≠ i := by
        rintro rfl
        rcases hkind with ⟨-, hnone, -⟩ | ⟨-, -, ⟨hnone, -⟩ | ⟨sent, ok, hsent, hsen, -⟩⟩
        · rw [hnone] at hj
          exact nomatch hj
        · rw [hnone] at hj
          exact nomatch hj
        · rw [hj, some.injEq] at hsent
          obtain ⟨rfl, -⟩ := Prod.mk.inj hsent
          refine hid ?_
          rw [← hsen, hd']
          exact (s.keyed _ _ hrow').symm
      exact ⟨j, d', by rw [Function.update_of_ne hji, hj], hd'⟩
  · by_cases hid : id = d.id
    · rw [hid, hrow, some.injEq] at hd'
      rw [← hd', hstatus] at hstill
      rw [← hd', hatt]
      rcases hkind with ⟨hrepl, -, -⟩ | ⟨-, hless, -⟩
      · exact .inr (.inl ⟨hrepl, hid.symm⟩)
      · exact .inl (hless hstill)
    · rw [hget hid] at hd'
      exact (h.pending id d' hd' hstill).imp_right .inr

end Mail

/-! The runs. -/

variable {w : Calls requests}
variable (endpointId eventId : String)

theorem answered_post {i : ι} {ep : WebhookEndpoint} {d : OutboxDelivery} {r : HttpOutcome}
    {trace : List (Made ι Call Call.Answer)} :
    Answered requests endpointId eventId (⟨i, .postJson ep d, r⟩ :: trace) ↔
      (ep.id = endpointId ∧ d.eventId = eventId ∧ r.Ok = true) ∨
        Answered requests endpointId eventId trace := by
  unfold Answered
  by_cases h : ep.id = endpointId ∧ d.eventId = eventId ∧ r.Ok = true
  · have hof : answerOf requests endpointId eventId ⟨i, .postJson ep d, r⟩ = some true := if_pos h
    rw [findSome?_cons, hof]
    exact iff_of_true rfl (.inl h)
  · have hof : answerOf requests endpointId eventId ⟨i, .postJson ep d, r⟩ = none := if_neg h
    rw [findSome?_cons, hof]
    exact (or_iff_right h).symm

theorem answered_update {i : ι} {d : OutboxDelivery} {r : (Call.update d).Answer}
    {trace : List (Made ι Call Call.Answer)} :
    Answered requests endpointId eventId (⟨i, .update d, r⟩ :: trace) ↔
      ¬ ((requests i).isReplay = true ∧ d.endpointId = endpointId ∧ d.eventId = eventId) ∧
        Answered requests endpointId eventId trace := by
  unfold Answered
  by_cases h : (requests i).isReplay = true ∧ d.endpointId = endpointId ∧ d.eventId = eventId
  · have hof : answerOf requests endpointId eventId ⟨i, .update d, r⟩ = some false := if_pos h
    rw [findSome?_cons, hof]
    exact iff_of_false (fun heq => nomatch heq) fun hnot => hnot.1 h
  · have hof : answerOf requests endpointId eventId ⟨i, .update d, r⟩ = none := if_neg h
    rw [findSome?_cons, hof]
    exact (and_iff_right h).symm

structure Inv (D : Dispatcher δ) (w : Calls requests) : Prop where
  disciplined : w.Disciplined (discipline D.envelope D.maxAttempts)
    (fun _ => Returns D.envelope) fun _ => Throws
  request : ∀ i, (w.locals i).request = requests i
  endpoints : ∀ i, (requests i).event?.isSome → ∀ tenantId (eps : List WebhookEndpoint),
    ⟨i, .endpointsFor tenantId, eps⟩ ∈ w.trace → (w.locals i).endpoints = some eps
  mail : Mail D.maxAttempts w.pool.state.outbox w.locals
    (fun endpointId eventId => Answered requests endpointId eventId w.trace)
    fun id => Replayed requests id w.trace

theorem inv_start (endpoints : OrderedMap String WebhookEndpoint) :
    Inv D (Calls.start D endpoints requests) where
  disciplined i := follows_program (requests i)
  request _ := rfl
  endpoints _ _ _ _ h := nomatch h
  mail := Mail.start requests

theorem Inv.noneDropped (h : Inv D w) : NoneDropped D w where
  rows i event hevent hended tenantId eps hsaw ep hep hwants := by
    have hsome : (requests i).event?.isSome := by
      rw [hevent]
      rfl
    have hend := h.endpoints i hsome tenantId eps hsaw
    have hret : Returns D.envelope (w.locals i) () := by
      have hfol := h.disciplined i
      cases hp : w.pool.proc i with
      | ret a =>
        rw [hp] at hfol
        exact hfol
      | throw e =>
        rw [hp] at hfol
        have hnone : (w.locals i).request.event? = none := hfol
        rw [h.request i, hevent] at hnone
        exact nomatch hnone
      | call c k =>
        rw [hp] at hended
        exact nomatch hended
    obtain ⟨eps', heps', hqueued⟩ := hret event (by rw [h.request i, hevent])
    obtain rfl := some.inj (hend.symm.trans heps')
    obtain ⟨d, hd, hendpoint, hid, hbody⟩ := hqueued ep hep hwants
    obtain ⟨row, hrow, hlet⟩ := h.mail.queued i d hd
    refine ⟨row, ?_, hlet.endpointId.trans hendpoint, hlet.eventId.trans hid,
      hlet.body.trans hbody, fun d' hd' hendpoint' hid' => ?_⟩
    · rwa [hlet.id]
    · have hkey : d'.id = d.id := by
        rw [h.mail.keyed _ d' hd', h.mail.keyed _ row hrow, hendpoint', hid', hlet.endpointId,
          hlet.eventId, hendpoint, hid]
      rw [hkey, hrow, some.injEq] at hd'
      exact hd'.symm
  pending := h.mail.pending

variable [DecidableEq ι] {i : ι}

theorem Inv.saw (h : Inv D w) {here : Local δ} {m : Made ι Call Call.Answer}
    (hhere : here.endpoints = (w.locals i).endpoints)
    (hm : ∀ j tenantId (eps : List WebhookEndpoint), m ≠ ⟨j, .endpointsFor tenantId, eps⟩) (j : ι)
    (hj : (requests j).event?.isSome) (tenantId : String) (eps : List WebhookEndpoint)
    (hmem : ⟨j, .endpointsFor tenantId, eps⟩ ∈ m :: w.trace) :
    (Function.update w.locals i here j).endpoints = some eps := by
  have hsame : (fun k => (update w.locals i here k).endpoints) =
      fun k => (w.locals k).endpoints := read_update_same Local.endpoints hhere
  have hold : ⟨j, .endpointsFor tenantId, eps⟩ ∈ w.trace :=
    (mem_cons.mp hmem).resolve_left fun heq => hm j tenantId eps heq.symm
  exact (congrFun hsame j).trans (h.endpoints j hj tenantId eps hold)

theorem Inv.step (h : Inv D w) (hmax : 0 < D.maxAttempts) (hguard : Guarded w i) :
    Inv D (w.step D i) ∧ NoneRepeated D w i := by
  have hdisc : Watched.Disciplined (discipline D.envelope D.maxAttempts)
      (fun _ => Returns D.envelope) (fun _ => Throws) (w.step D i) :=
    h.disciplined.step (fun _ => trivial) i
  have huns {c : Call} {k : c.Answer → Prog Call Call.Answer String _}
      (hp : w.pool.proc i = .call c k) (hc : ∀ ep d, c ≠ .postJson ep d) (ep : WebhookEndpoint)
      (d : OutboxDelivery) (hcall : (w.pool.proc i).call? = some (.postJson ep d)) :
      ¬ Answered requests ep.id d.eventId w.trace := by
    rw [hp] at hcall
    exact absurd (some.inj hcall) (hc ep d)
  have hreq {s : Local δ} (hs : s.request = (w.locals i).request) (j : ι) :
      (update w.locals i s j).request = requests j := by
    have hsame : (fun j => (update w.locals i s j).request) =
        fun j => (w.locals j).request := read_update_same Local.request hs
    exact (congrFun hsame j).trans (h.request j)
  have hkeep {s : WebhookOutbox} (hs : (w.step D i).pool.state.outbox = s)
      (hhas : ∀ d, w.pool.state.outbox.Has d → s.Has d) (id : String) (d : OutboxDelivery)
      (hd : w.pool.state.outbox.get id = some d) :
      ∃ d', (w.step D i).pool.state.outbox.get id = some d' ∧ SameLetter d d' := by
    obtain ⟨d', hd', hlet⟩ := hhas d (has_of_get hd)
    have hid : d.id = id := w.pool.state.outbox.keyed _ _ hd
    rw [hid] at hd'
    exact ⟨d', by rw [hs, hd'], hlet⟩
  rcases w.step_cases (discipline D.envelope D.maxAttempts) (exec D.backing D.environment) i with
    ⟨hended, hstep⟩ | ⟨c, k, hp, hstep⟩
  · have hstep' : w.step D i = w := hstep
    refine ⟨by rwa [hstep'], hkeep (by rw [hstep']) fun _ => id, fun ep d hcall => ?_⟩
    cases hp : w.pool.proc i with
    | ret a =>
      rw [hp] at hcall
      exact nomatch hcall
    | throw e =>
      rw [hp] at hcall
      exact nomatch hcall
    | call c k =>
      rw [hp] at hended
      exact nomatch hended
  have hmay := h.disciplined.may hp
  have hallow : Allowed w i c := hguard c (by rw [hp]; rfl)
  have hstate : (w.step D i).pool.state.outbox =
      (exec D.backing D.environment c w.pool.state).2.outbox :=
    congrArg (fun w : Calls requests => w.pool.state.outbox) hstep
  unfold Calls.step at hdisc ⊢
  rw [hstep] at hdisc ⊢
  cases c with
  | clock =>
    refine ⟨⟨hdisc, hreq rfl, h.saw rfl fun _ _ _ => nofun, ?_⟩,
      hkeep hstate fun _ => id, huns hp fun _ _ => nofun⟩
    exact h.mail.learn rfl (fun d hd => .inl hd) rfl
  | endpointsFor tenantId =>
    refine ⟨⟨hdisc, hreq rfl, fun j hj t eps hmem => ?_, ?_⟩,
      hkeep hstate fun _ => id, huns hp fun _ _ => nofun⟩
    · show (update w.locals i _ j).endpoints = some eps
      by_cases hji : j = i
      · subst hji
        rw [update_self]
        rcases mem_cons.mp hmem with heq | hold
        · injection heq with _ hcall hanswer
          injection hcall with htenant
          subst htenant
          rw [hanswer]
          rfl
        · have hnone := hmay (by rwa [h.request])
          rw [h.endpoints j hj t eps hold] at hnone
          exact nomatch hnone
      · rw [update_of_ne hji]
        refine h.endpoints j hj t eps ((mem_cons.mp hmem).resolve_left fun heq => ?_)
        injection heq with hwho
        exact hji hwho
    · exact h.mail.learn rfl (fun d hd => .inl hd) rfl
  | saveEndpoint ep =>
    refine ⟨⟨hdisc, hreq rfl, h.saw rfl fun _ _ _ => nofun, ?_⟩,
      hkeep hstate fun _ => id, huns hp fun _ _ => nofun⟩
    exact h.mail.learn rfl (fun d hd => .inl hd) rfl
  | deleteEndpoint endpointId =>
    refine ⟨⟨hdisc, hreq rfl, h.saw rfl fun _ _ _ => nofun, ?_⟩,
      hkeep hstate fun _ => id, huns hp fun _ _ => nofun⟩
    exact h.mail.learn rfl (fun d hd => .inl hd) rfl
  | enqueue d =>
    refine ⟨⟨hdisc, hreq rfl, h.saw rfl fun _ _ _ => nofun, ?_⟩,
      hkeep hstate fun _ hd => hd.enqueue d, huns hp fun _ _ => nofun⟩
    obtain ⟨event, ep, now, -, rfl⟩ := hmay
    exact h.mail.enqueue hmax rfl rfl hallow
  | due now limit =>
    refine ⟨⟨hdisc, hreq rfl, h.saw rfl fun _ _ _ => nofun, ?_⟩,
      hkeep hstate fun _ => id, huns hp fun _ _ => nofun⟩
    refine h.mail.learn rfl (fun d hd => ?_) rfl
    exact (mem_append.mp hd).symm.imp_right fun hdue =>
      has_of_get (mem_due hdue).1
  | get deliveryId =>
    refine ⟨⟨hdisc, hreq rfl, h.saw rfl fun _ _ _ => nofun, ?_⟩,
      hkeep hstate fun _ => id, huns hp fun _ _ => nofun⟩
    refine h.mail.learn rfl (fun d hd => ?_) rfl
    exact (mem_append.mp hd).symm.imp_right fun hfound =>
      has_of_get (mem_toList.mp hfound)
  | update d =>
    have hwrit : (w.locals i).Writes D.maxAttempts d := hmay
    have hhas : w.pool.state.outbox.Has d := by
      obtain ⟨⟨old, hold, hlet⟩, -⟩ := hwrit
      exact (h.mail.read i old hold).of_letter hlet
    refine ⟨⟨hdisc, hreq rfl, h.saw rfl fun _ _ _ => nofun, ?_⟩,
      hkeep hstate fun _ hd => hhas.update hd, huns hp fun _ _ => nofun⟩
    have hmail := h.mail.update (b := D.backing) hwrit (by rw [h.request]; exact hallow)
    rw [h.request] at hmail
    exact hmail.mono (fun e v => (answered_update e v).mp) fun _ => id
  | validateTarget url =>
    refine ⟨⟨hdisc, hreq rfl, h.saw rfl fun _ _ _ => nofun, ?_⟩,
      hkeep hstate fun _ => id, huns hp fun _ _ => nofun⟩
    exact h.mail.learn rfl (fun d hd => .inl hd) rfl
  | postJson ep d =>
    obtain ⟨hnone, hd, hep⟩ := hmay
    obtain ⟨hpend, halone⟩ := hallow
    have hansd (ok : Bool) := h.mail.post ok hnone hd hpend halone
    rw [← hep] at hansd
    refine ⟨⟨hdisc, hreq rfl, h.saw rfl fun _ _ _ => nofun, ?_⟩,
      hkeep hstate fun _ => id, fun ep' d' hcall => ?_⟩
    · exact (hansd _).2.mono (fun e v => (answered_post e v).mp) fun _ => id
    · rw [hp] at hcall
      obtain ⟨rfl, rfl⟩ := Call.postJson.inj (some.inj hcall)
      exact (hansd true).1

/-- However the steps are ordered: no row is dropped and none is sent again, as long as the ids of
the rows keep the events apart, a worker sends and writes only rows that are still pending, or that
it has sent itself, and no two workers have sent one row and not written it yet. -/
theorem outbox_kept (D : Dispatcher δ) (endpoints : OrderedMap String WebhookEndpoint)
    (requests : ι → Request δ) (sched : List ι) (hmax : 0 < D.maxAttempts)
    (h : EachStep (Calls.step D) Guarded (Calls.start D endpoints requests) sched) :
    Along (Calls.step D) (NoneDropped D) (Calls.start D endpoints requests) sched ∧
      EachStep (Calls.step D) (NoneRepeated D) (Calls.start D endpoints requests) sched := by
  have hrun : ∀ (w : Calls requests) (sched : List ι), Inv D w →
      EachStep (Calls.step D) Guarded w sched →
        Along (Calls.step D) (NoneDropped D) w sched ∧
          EachStep (Calls.step D) (NoneRepeated D) w sched := by
    intro w sched
    induction sched generalizing w with
    | nil => exact fun hinv _ => ⟨along_nil.mpr hinv.noneDropped, eachStep_nil⟩
    | cons i sched ih =>
      intro hinv hgrd
      obtain ⟨hguard, hrest⟩ := eachStep_cons.mp hgrd
      obtain ⟨hinv', hnone⟩ := hinv.step hmax hguard
      obtain ⟨hdrop, hrepeat⟩ := ih _ hinv' hrest
      exact ⟨along_cons.mpr ⟨hinv.noneDropped, hdrop⟩, eachStep_cons.mpr ⟨hnone, hrepeat⟩⟩
  exact hrun _ sched (inv_start endpoints) h

end

namespace Sample

/-- The endpoints are reached, and answer 200. -/
def dispatcher : Dispatcher String where
  backing := .sql
  maxAttempts := 6
  envelope event := event.data
  environment := ⟨fun _ => 100, fun _ _ => .ok none, fun _ _ => .response 200⟩

def endpoint : WebhookEndpoint :=
  ⟨"crm", "t1", "https://crm.example.com/hook", "secret", ["close.sealed"], true⟩

def endpoints : OrderedMap String WebhookEndpoint := OrderedMap.empty.set endpoint.id endpoint

def event : PlatformEvent String := ⟨"e1", "close.sealed", "t1", 90, "sealed"⟩

def requests : Fin 3 → Request String
  | 0 => .enqueue event
  | _ => .deliverDue 100

def delivery : OutboxDelivery := newDelivery dispatcher.envelope event endpoint 100

theorem outbox_kept_sample :
    EachStep (Calls.step dispatcher) Guarded (Calls.start dispatcher endpoints requests)
        [0, 0, 0, 1, 1, 1, 1, 1, 1] ∧
      Along (Calls.step dispatcher) (NoneDropped dispatcher)
        (Calls.start dispatcher endpoints requests) [0, 0, 0, 1, 1, 1, 1, 1, 1] ∧
      EachStep (Calls.step dispatcher) (NoneRepeated dispatcher)
        (Calls.start dispatcher endpoints requests) [0, 0, 0, 1, 1, 1, 1, 1, 1] := by
  have hgrd : EachStep (Calls.step dispatcher) Guarded
      (Calls.start dispatcher endpoints requests) [0, 0, 0, 1, 1, 1, 1, 1, 1] := by
    iterate 9 refine eachStep_cons.mpr ⟨by decide +kernel, ?_⟩
    exact eachStep_nil
  exact ⟨hgrd, outbox_kept dispatcher endpoints requests _ (by decide) hgrd⟩

theorem sent_twice : ¬ EachStep (Calls.step dispatcher) (NoneRepeated dispatcher)
      (Calls.start dispatcher endpoints requests)
      [0, 0, 0, 1, 1, 2, 2, 1, 1, 1, 1, 2, 2, 2] := by
  intro h
  have hnone := h [0, 0, 0, 1, 1, 2, 2, 1, 1, 1, 1, 2, 2] 2 prefix_rfl
  have hansd : Answered requests endpoint.id delivery.eventId
      ([0, 0, 0, 1, 1, 2, 2, 1, 1, 1, 1, 2, 2].foldl (Calls.step dispatcher)
        (Calls.start dispatcher endpoints requests)).trace := by decide +kernel
  exact hnone.sent endpoint delivery (by decide +kernel) hansd

end Sample
end Rgnr8.Platform.Outbox
