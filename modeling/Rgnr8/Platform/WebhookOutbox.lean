import Rgnr8.Platform.OAuthState

/-! The outbox of outbound webhooks. An event is written as one row for each subscribed endpoint; a
worker reads the rows that are due, POSTs them one after the other, and writes each back. -/

namespace Rgnr8.Platform.Outbox
open Lib

inductive DeliveryStatus where
  | pending | delivered | dead
  deriving DecidableEq

def backoffSeconds (attempts : Int) : Int :=
  if attempts ≤ 0 then 60 else min (60 * 2 ^ (attempts - 1).toNat) 3600

structure WebhookEndpoint where
  id : String
  tenantId : String
  url : String
  secret : String
  events : List String := ["cash.at_risk", "close.sealed", "briefing.sent"]
  active : Bool := true
  deriving DecidableEq

def WebhookEndpoint.wants (ep : WebhookEndpoint) (eventType : String) : Bool :=
  ep.active ∧ eventType ∈ ep.events

structure PlatformEvent (δ : Type) where
  id : String
  type : String
  tenantId : String
  at_ : Int
  data : δ

structure OutboxDelivery where
  id : String
  tenantId : String
  endpointId : String
  eventId : String
  eventType : String
  body : String
  status : DeliveryStatus := .pending
  attempts : Int := 0
  nextAttemptAt : Int := 0
  lastError : String := ""
  lastStatus : Int := 0
  createdAt : Int := 0
  deriving DecidableEq

/-- The row, with what came of it in another reading of it. -/
def OutboxDelivery.withOutcome (old d : OutboxDelivery) : OutboxDelivery :=
  { old with
    status := d.status, attempts := d.attempts, nextAttemptAt := d.nextAttemptAt
    lastError := d.lastError, lastStatus := d.lastStatus }

/-! The outbox. -/

/-- `InMemoryWebhookOutbox`, or `SqlWebhookOutbox`. -/
inductive Backing where
  | memory | sql

structure WebhookOutbox where
  rows : OrderedMap String OutboxDelivery
  keyed : ∀ id d, rows.get? id = some d → d.id = id

namespace WebhookOutbox

def empty : WebhookOutbox := ⟨OrderedMap.empty, fun _ _ h => nomatch h⟩

def get (s : WebhookOutbox) (id : String) : Option OutboxDelivery := s.rows.get? id

variable (s : WebhookOutbox) (d : OutboxDelivery)

def put : WebhookOutbox where
  rows := s.rows.set d.id d
  keyed := by
    intro id d' h
    by_cases hid : id = d.id
    · subst hid
      rw [OrderedMap.get?_set_self, Option.some.injEq] at h
      rw [← h]
    · rw [OrderedMap.get?_set_ne _ _ hid] at h
      exact s.keyed _ _ h

theorem get_put_self : (s.put d).get d.id = some d :=
  OrderedMap.get?_set_self ..

theorem get_put_ne {d : OutboxDelivery} {id : String} (h : id ≠ d.id) :
    (s.put d).get id = s.get id := OrderedMap.get?_set_ne _ _ h

def enqueue : Bool × WebhookOutbox :=
  if (s.get d.id).isSome then (false, s) else (true, s.put d)

def dueBefore (a b : OutboxDelivery) : Bool :=
  a.nextAttemptAt < b.nextAttemptAt ∨ (a.nextAttemptAt = b.nextAttemptAt ∧
    (a.createdAt < b.createdAt ∨ (a.createdAt = b.createdAt ∧ a.id ≤ b.id)))

def limited (b : Backing) (limit : Int) (rows : List OutboxDelivery) : List OutboxDelivery :=
  match b, limit with
  | _, .ofNat n => rows.take n
  | .memory, .negSucc n => rows.take (rows.length - (n + 1))
  | .sql, .negSucc _ => rows

def due (b : Backing) (s : WebhookOutbox) (now limit : Int) : List OutboxDelivery :=
  limited b limit <|
    (s.rows.values.filter fun d => d.status = .pending ∧ d.nextAttemptAt ≤ now).mergeSort dueBefore

/-- The table takes the status, the attempts and what the last one came to, of a row it has. -/
def update (b : Backing) (s : WebhookOutbox) (d : OutboxDelivery) : WebhookOutbox :=
  match b, s.get d.id with
  | .memory, _ => s.put d
  | .sql, none => s
  | .sql, some old => s.put (old.withOutcome d)

end WebhookOutbox

/-! The calls. -/

/-- `sign` -/
def sign (body secret : String) : String :=
  let hex (n : Nat) : Char := "0123456789abcdef".toList.getD n '0'
  let mac := OAuth.hmac (Sha256.utf8 secret.toList) (Sha256.utf8 body.toList)
  "sha256=" ++ String.ofList (mac.flatMap fun byte => [hex (byte / 16), hex (byte % 16)])

structure HttpRequest where
  url : String
  body : String
  signature : String
  eventId : String

inductive HttpOutcome where
  | response (status : Int)
  | raised (error : String)

def HttpOutcome.Ok : HttpOutcome → Bool
  | .response status => 200 ≤ status ∧ status < 300
  | .raised _ => false

structure Environment where
  clock : Nat → Int
  validateTarget : Nat → String → Except String (Option String)
  postJson : Nat → HttpRequest → HttpOutcome

structure World where
  outbox : WebhookOutbox
  endpoints : OrderedMap String WebhookEndpoint
  -- how much of the environment has been used
  used : Nat

inductive Call where
  | clock
  | endpointsFor (tenantId : String)
  | saveEndpoint (ep : WebhookEndpoint)
  | deleteEndpoint (id : String)
  | enqueue (d : OutboxDelivery)
  | due (now limit : Int)
  | get (id : String)
  | update (d : OutboxDelivery)
  | validateTarget (url : String)
  | postJson (ep : WebhookEndpoint) (d : OutboxDelivery)
  deriving DecidableEq

def Call.Answer : Call → Type
  | .clock => Int
  | .endpointsFor _ => List WebhookEndpoint
  | .enqueue _ => Bool
  | .due .. => List OutboxDelivery
  | .get _ => Option OutboxDelivery
  | .validateTarget _ => Except String (Option String)
  | .postJson .. => HttpOutcome
  | .saveEndpoint _ | .deleteEndpoint _ | .update _ => Unit

def requestTo (ep : WebhookEndpoint) (d : OutboxDelivery) : HttpRequest :=
  ⟨ep.url, d.body, sign d.body ep.secret, d.eventId⟩

/-- `for_tenant`, in the order of the ids. -/
def endpointsFor (endpoints : OrderedMap String WebhookEndpoint) (tenantId : String) :
    List WebhookEndpoint :=
  (endpoints.values.filter fun ep => ep.tenantId = tenantId).mergeSort fun a b => a.id ≤ b.id

def exec (b : Backing) (env : Environment) : (c : Call) → World → c.Answer × World
  | .clock, s => (env.clock s.used, { s with used := s.used + 1 })
  | .endpointsFor tenantId, s => (endpointsFor s.endpoints tenantId, s)
  | .saveEndpoint ep, s => ((), { s with endpoints := s.endpoints.set ep.id ep })
  | .deleteEndpoint id, s => ((), { s with endpoints := s.endpoints.filter fun k _ => k ≠ id })
  | .enqueue d, s => ((s.outbox.enqueue d).1, { s with outbox := (s.outbox.enqueue d).2 })
  | .due now limit, s => (s.outbox.due b now limit, s)
  | .get id, s => (s.outbox.get id, s)
  | .update d, s => ((), { s with outbox := s.outbox.update b d })
  | .validateTarget url, s => (env.validateTarget s.used url, { s with used := s.used + 1 })
  | .postJson ep d, s => (env.postJson s.used (requestTo ep d), { s with used := s.used + 1 })

/-! The dispatcher. -/

abbrev Service (α : Type) := Prog Call Call.Answer String α

def newDelivery {δ : Type} (envelope : PlatformEvent δ → String) (event : PlatformEvent δ)
    (ep : WebhookEndpoint) (now : Int) : OutboxDelivery :=
  { id := ep.id ++ ":" ++ event.id, tenantId := event.tenantId, endpointId := ep.id
    eventId := event.id, eventType := event.type, body := envelope event
    nextAttemptAt := now, createdAt := now }

def enqueueAll {δ : Type} (envelope : PlatformEvent δ → String) (event : PlatformEvent δ)
    (now : Int) : List WebhookEndpoint → Nat → Service Nat
  | [], queued => .ret queued
  | ep :: eps, queued =>
    if ¬ ep.wants event.type then enqueueAll envelope event now eps queued
    else
      .call (.enqueue (newDelivery envelope event ep now)) fun (fresh : Bool) =>
        enqueueAll envelope event now eps (if fresh then queued + 1 else queued)

def enqueue {δ : Type} (envelope : PlatformEvent δ → String) (event : PlatformEvent δ) :
    Service Nat :=
  .call .clock fun now =>
    .call (.endpointsFor event.tenantId) fun eps => enqueueAll envelope event now eps 0

/-- `_fail` -/
def fail {α : Type} (maxAttempts : Int) (d : OutboxDelivery) (attempts status : Int)
    (error : String) (k : OutboxDelivery → Service α) : Service α :=
  .call .clock fun (now : Int) =>
    if attempts ≥ maxAttempts then
      k { d with
        status := .dead, attempts, lastStatus := status, lastError := error, nextAttemptAt := now }
    else
      k { d with
        status := .pending, attempts, lastStatus := status, lastError := error
        nextAttemptAt := now + backoffSeconds attempts }

/-- `_attempt`; what the check of the target raises is not caught. -/
def attempt {α : Type} (maxAttempts : Int) (d : OutboxDelivery) (ep : Option WebhookEndpoint)
    (k : OutboxDelivery → Service α) : Service α :=
  match ep with
  | none => fail maxAttempts d (d.attempts + 1) 0 "endpoint no longer registered" k
  | some ep =>
    .call (.validateTarget ep.url) fun blocked =>
      match blocked with
      | .error e => .throw e
      | .ok (some text) => fail maxAttempts d (d.attempts + 1) 0 text k
      | .ok none =>
        .call (.postJson ep d) fun outcome =>
          match outcome with
          | .response status =>
            if 200 ≤ status ∧ status < 300 then
              k { d with
                status := .delivered, attempts := d.attempts + 1, lastStatus := status
                lastError := "" }
            else
              fail maxAttempts d (d.attempts + 1) status ("HTTP " ++ toString status) k
          | .raised error => fail maxAttempts d (d.attempts + 1) 0 error k

structure DeliverySummary where
  considered : Nat
  delivered : Nat := 0
  retried : Nat := 0
  dead : Nat := 0

def DeliverySummary.count (s : DeliverySummary) : DeliveryStatus → DeliverySummary
  | .delivered => { s with delivered := s.delivered + 1 }
  | .dead => { s with dead := s.dead + 1 }
  | .pending => { s with retried := s.retried + 1 }

def deliverAll (maxAttempts : Int) : List OutboxDelivery → OrderedMap String WebhookEndpoint →
    DeliverySummary → Service DeliverySummary
  | [], _, summary => .ret summary
  | d :: ds, known, summary =>
    match known.get? d.endpointId with
    | some ep =>
      attempt maxAttempts d (some ep) fun outcome =>
        .call (.update outcome) fun _ =>
          deliverAll maxAttempts ds known (summary.count outcome.status)
    | none =>
      .call (.endpointsFor d.tenantId) fun eps =>
        match eps.find? fun ep => ep.id = d.endpointId with
        | some ep =>
          attempt maxAttempts d (some ep) fun outcome =>
            .call (.update outcome) fun _ =>
              deliverAll maxAttempts ds (known.set d.endpointId ep) (summary.count outcome.status)
        | none =>
          attempt maxAttempts d none fun outcome =>
            .call (.update outcome) fun _ =>
              deliverAll maxAttempts ds known (summary.count outcome.status)

def deliverDue (maxAttempts limit : Int) : Service DeliverySummary :=
  .call .clock fun now =>
    .call (.due now limit) fun rows =>
      deliverAll maxAttempts rows OrderedMap.empty { considered := rows.length }

def replay (deliveryId : String) : Service Bool :=
  .call (.get deliveryId) fun found =>
    match found with
    | none => .ret false
    | some d =>
      .call .clock fun now =>
        .call (.update { d with
            status := .pending, nextAttemptAt := now, lastError := "", lastStatus := 0 })
          fun _ => .ret true

/-! What the outbox holds. -/

/-- The same row but for what becomes of it. -/
structure SameLetter (d d' : OutboxDelivery) : Prop where
  id : d'.id = d.id
  endpointId : d'.endpointId = d.endpointId
  eventId : d'.eventId = d.eventId
  body : d'.body = d.body

instance (d d' : OutboxDelivery) : Decidable (SameLetter d d') :=
  decidable_of_iff
    (d'.id = d.id ∧ d'.endpointId = d.endpointId ∧ d'.eventId = d.eventId ∧ d'.body = d.body)
    ⟨fun ⟨hid, hendpoint, hevent, hbody⟩ => ⟨hid, hendpoint, hevent, hbody⟩,
      fun h => ⟨h.id, h.endpointId, h.eventId, h.body⟩⟩

theorem SameLetter.refl (d : OutboxDelivery) : SameLetter d d := ⟨rfl, rfl, rfl, rfl⟩

theorem SameLetter.trans {a b c : OutboxDelivery} (h : SameLetter a b) (h' : SameLetter b c) :
    SameLetter a c :=
  ⟨h'.id.trans h.id, h'.endpointId.trans h.endpointId, h'.eventId.trans h.eventId,
    h'.body.trans h.body⟩

theorem SameLetter.symm {a b : OutboxDelivery} (h : SameLetter a b) : SameLetter b a :=
  ⟨h.id.symm, h.endpointId.symm, h.eventId.symm, h.body.symm⟩

namespace WebhookOutbox
variable {b : Backing} {s : WebhookOutbox} {d : OutboxDelivery}

theorem enqueue_cases (s : WebhookOutbox) (d : OutboxDelivery) :
    (∃ old, s.get d.id = some old ∧ (s.enqueue d).2 = s) ∨
      (s.get d.id = none ∧ (s.enqueue d).2 = s.put d) := by
  unfold enqueue
  cases hget : s.get d.id with
  | none => exact .inr ⟨rfl, rfl⟩
  | some old => exact .inl ⟨old, rfl, rfl⟩

theorem mem_due {now limit : Int} (h : d ∈ s.due b now limit) :
    s.get d.id = some d ∧ d.status = .pending := by
  have hsort : d ∈ (s.rows.values.filter fun d => d.status = .pending ∧ d.nextAttemptAt ≤
      now).mergeSort dueBefore := by
    unfold due limited at h
    split at h
    · exact List.mem_of_mem_take h
    · exact List.mem_of_mem_take h
    · exact h
  rw [List.mem_mergeSort, List.mem_filter, decide_eq_true_iff] at hsort
  obtain ⟨hval, hpend, -⟩ := hsort
  obtain ⟨e, he, rfl⟩ := List.mem_map.mp hval
  have hget : s.get e.1 = some e.2 := OrderedMap.mem_entries.mp he
  rw [s.keyed _ _ hget]
  exact ⟨hget, hpend⟩

theorem get_update_self {old : OutboxDelivery} (hget : s.get d.id = some old)
    (hlet : SameLetter old d) :
    ∃ row, (s.update b d).get d.id = some row ∧ SameLetter old row ∧ row.status = d.status ∧
      row.attempts = d.attempts := by
  unfold update
  rw [hget]
  cases b with
  | memory => exact ⟨d, get_put_self s d, hlet, rfl, rfl⟩
  | sql =>
    refine ⟨old.withOutcome d, ?_, ⟨rfl, rfl, rfl, rfl⟩, rfl, rfl⟩
    rw [hlet.id]
    exact get_put_self s (old.withOutcome d)

theorem get_update_ne {id : String} (hne : id ≠ d.id) : (s.update b d).get id = s.get id := by
  unfold update
  cases b with
  | memory => exact get_put_ne s hne
  | sql =>
    cases hget : s.get d.id with
    | none => rfl
    | some old =>
      have hid : old.id = d.id := s.keyed _ _ hget
      refine get_put_ne s ?_
      show id ≠ old.id
      rwa [hid]

end WebhookOutbox
end Rgnr8.Platform.Outbox
