import Rgnr8.Lib.Program
import Mathlib.Logic.Function.Basic
import Mathlib.Tactic.Common

/-! The QuickBooks connection of one tenant. Reading it, exchanging its refresh token and saving
what comes back are separate steps; the lock around them holds within one process only, so that
calls from several processes take them in any order. -/

namespace Rgnr8.Platform.QboConnect
open Lib Function

inductive QboStatus where
  | connected | expired | revoked | disconnected | error | needsReconnect
  deriving DecidableEq

/-- The tokens of an authorization, numbered in the order they are issued. -/
structure RefreshToken where
  grant : Nat
  generation : Nat
  deriving DecidableEq

structure QboConnection where
  realmId : String
  accessToken : String
  refreshToken : RefreshToken
  accessExpiresAt : Int
  refreshExpiresAt : Int
  status : QboStatus := .connected
  connectedAt : Option Int := none

def QboConnection.accessValid (conn : QboConnection) (now skewSeconds : Int) : Bool :=
  now + skewSeconds < conn.accessExpiresAt

def QboConnection.refreshValid (conn : QboConnection) (now : Int) : Bool :=
  now < conn.refreshExpiresAt

/-! Intuit: each refresh token is accepted once, and its successor returned. -/

structure Intuit where
  grants : Nat
  newest : Nat → Nat
  revoked : Nat → Bool

namespace Intuit

def start : Intuit := ⟨0, fun _ => 0, fun _ => false⟩

def Accepts (s : Intuit) (t : RefreshToken) : Prop :=
  t.grant < s.grants ∧ s.newest t.grant = t.generation ∧ s.revoked t.grant = false

instance (s : Intuit) (t : RefreshToken) : Decidable (s.Accepts t) :=
  inferInstanceAs (Decidable (_ ∧ _ ∧ _))

/-- The token will not be accepted again: it has a successor, or its authorization was revoked. -/
def Spent (s : Intuit) (t : RefreshToken) : Prop :=
  t.generation < s.newest t.grant ∨ s.revoked t.grant = true

/-- `exchange_code`: a new authorization. -/
def authorize (s : Intuit) : RefreshToken × Intuit :=
  (⟨s.grants, 0⟩,
    { grants := s.grants + 1
      newest := Function.update s.newest s.grants 0
      revoked := Function.update s.revoked s.grants false })

/-- `refresh_tokens`; no token is returned where Intuit refuses with `invalid_grant`. -/
def refresh (s : Intuit) (t : RefreshToken) : Option RefreshToken × Intuit :=
  if s.Accepts t then
    (some { t with generation := t.generation + 1 },
      { s with newest := Function.update s.newest t.grant (t.generation + 1) })
  else (none, s)

def revoke (s : Intuit) (t : RefreshToken) : Intuit :=
  { s with revoked := Function.update s.revoked t.grant true }

variable {s : Intuit} {t : RefreshToken}

theorem Spent.not_accepts (h : s.Spent t) : ¬ s.Accepts t := by
  rintro ⟨-, hnewest, hrevok⟩
  rcases h with hlt | hrev
  · rw [hnewest] at hlt
    exact absurd hlt (Nat.lt_irrefl _)
  · rw [hrevok] at hrev
    exact nomatch hrev

theorem spent_of_refused (hgrant : t.grant < s.grants)
    (hgen : t.generation ≤ s.newest t.grant) (h : ¬ s.Accepts t) : s.Spent t := by
  rcases Nat.lt_or_eq_of_le hgen with hlt | heq
  · exact .inl hlt
  · refine .inr ?_
    by_contra hrevok
    exact h ⟨hgrant, heq.symm, Bool.eq_false_iff.mpr hrevok⟩

theorem Spent.authorize (h : s.Spent t) (hgrant : t.grant < s.grants) : s.authorize.2.Spent t := by
  have hne : t.grant ≠ s.grants := Nat.ne_of_lt hgrant
  unfold Spent Intuit.authorize
  dsimp only
  rw [update_of_ne hne, update_of_ne hne]
  exact h

theorem Spent.revoke (h : s.Spent t) (t' : RefreshToken) : (s.revoke t').Spent t := by
  refine h.imp_right fun hrevok => ?_
  unfold Intuit.revoke
  dsimp only
  by_cases heq : t.grant = t'.grant
  · rw [heq, update_self]
  · rw [update_of_ne heq]
    exact hrevok

theorem Spent.advance (h : s.Spent t) {t' : RefreshToken}
    (hnewest : s.newest t'.grant = t'.generation) :
    ({ s with newest := Function.update s.newest t'.grant (t'.generation + 1) } : Intuit).Spent
      t := by
  refine h.imp_left fun hlt => ?_
  dsimp only
  by_cases heq : t.grant = t'.grant
  · rw [heq, hnewest] at hlt
    rw [heq, update_self]
    exact Nat.lt_succ_of_lt hlt
  · rw [update_of_ne heq]
    exact hlt

theorem refresh_cases (s : Intuit) (t : RefreshToken) : (¬ s.Accepts t ∧ s.refresh t = (none, s)) ∨
      (s.Accepts t ∧ s.refresh t = (some { t with generation := t.generation + 1 },
        { s with newest := Function.update s.newest t.grant (t.generation + 1) })) := by
  unfold refresh
  by_cases h : s.Accepts t
  · exact .inr ⟨h, if_pos h⟩
  · exact .inl ⟨h, if_neg h⟩

end Intuit

structure Issue where
  accessToken : String
  expiresIn : Int
  refreshTokenExpiresIn : Int

/-! The store, and the calls. -/

structure World where
  stored : Option QboConnection
  intuit : Intuit

inductive Call where
  | get
  | save (conn : QboConnection)
  | delete
  | replaceIfRefreshToken (expected : RefreshToken) (conn : QboConnection)
  | exchangeCode
  | refreshTokens (t : RefreshToken)
  -- the revocation is best-effort: it gets through or not
  | revoke (t : RefreshToken) (arrives : Bool)

def Call.Answer : Call → Type
  | .get => Option QboConnection
  | .replaceIfRefreshToken .. => Bool
  | .exchangeCode => RefreshToken
  | .refreshTokens _ => Option RefreshToken
  | .save _ | .delete | .revoke .. => Unit

def World.Carries (s : World) (t : RefreshToken) : Prop :=
  s.stored.map QboConnection.refreshToken = some t

instance (s : World) (t : RefreshToken) : Decidable (s.Carries t) :=
  inferInstanceAs (Decidable (_ = _))

/-- `replace_if_refresh_token`, the one conditional write. -/
def World.replaceIfRefreshToken (s : World) (expected : RefreshToken) (conn : QboConnection) :
    Bool × World :=
  if s.Carries expected then (true, { s with stored := some conn }) else (false, s)

def exec : (c : Call) → World → c.Answer × World
  | .get, s => (s.stored, s)
  | .save conn, s => ((), { s with stored := some conn })
  | .delete, s => ((), { s with stored := none })
  | .replaceIfRefreshToken expected conn, s =>
    s.replaceIfRefreshToken expected conn
  | .exchangeCode, s => (s.intuit.authorize.1, { s with intuit := s.intuit.authorize.2 })
  | .refreshTokens t, s => ((s.intuit.refresh t).1, { s with intuit := (s.intuit.refresh t).2 })
  | .revoke t arrives, s =>
    ((), if arrives then { s with intuit := s.intuit.revoke t } else s)

/-! The service. -/

inductive ConnectError where
  | state (text : String)
  | oauth (text : String)
  | invalidGrant (text : String)

abbrev Service (α : Type) := Prog Call Call.Answer ConnectError α

structure Readings where
  first : Int
  locked : Int
  refresh : Int
  stamp : Int

/-- `_connection_from_tokens` -/
def connectionFromTokens (realmId : String) (t : RefreshToken) (issue : Issue) (now : Int)
    (connectedAt : Option Int) : QboConnection where
  realmId := realmId
  accessToken := issue.accessToken
  refreshToken := t
  accessExpiresAt := now + issue.expiresIn
  refreshExpiresAt := now + issue.refreshTokenExpiresIn
  status := .connected
  connectedAt := connectedAt

/-- `_mark_needs_reconnect` -/
def markNeedsReconnect {α : Type} (conn : QboConnection) (k : QboConnection → Service α) :
    Service α :=
  let marked : QboConnection := { conn with status := .needsReconnect }
  .call (.replaceIfRefreshToken conn.refreshToken marked) fun replaced =>
    match replaced with
    | true => k marked
    | false =>
      .call .get fun latest =>
        match latest with
        | some latest => k latest
        | none => k marked

/-- `_refresh_locked` -/
def refreshLocked {α : Type} (at_ : Readings) (issue : Issue) (conn : QboConnection)
    (k : QboConnection → Service α) : Service α :=
  if ¬ conn.refreshValid at_.refresh then
    let expired : QboConnection := { conn with status := .expired }
    .call (.save expired) fun _ => k expired
  else
    .call (.refreshTokens conn.refreshToken) fun token =>
      match token with
      | none => markNeedsReconnect conn k
      | some t =>
        let refreshed := connectionFromTokens conn.realmId t issue at_.stamp conn.connectedAt
        .call (.save refreshed) fun _ => k refreshed

/-- `_is_usable` -/
def isUsable (conn : QboConnection) (now skewSeconds : Int) : Bool :=
  conn.status = .connected ∧ conn.accessValid now skewSeconds

def ensureFresh (skewSeconds : Int) (at_ : Readings) (issue : Issue) :
    Service (Option QboConnection) :=
  .call .get fun found =>
    match found with
    | none => .ret none
    | some conn =>
      if isUsable conn at_.first skewSeconds ∨ conn.status = .needsReconnect then .ret (some conn)
      else
        .call .get fun current =>
          match current with
          | none => .ret none
          | some current =>
            if isUsable current at_.locked skewSeconds ∨ current.status = .needsReconnect then
              .ret (some current)
            else refreshLocked at_ issue current fun conn => .ret (some conn)

/-- `_access_after_unauthorized` -/
def accessAfterUnauthorized (rejected : String) (at_ : Readings) (issue : Issue) :
    Service String :=
  .call .get fun current =>
    match current with
    | none => .throw (.invalidGrant "QuickBooks is no longer connected; reconnect it")
    | some current =>
      if current.status = .needsReconnect then
        .throw (.invalidGrant "QuickBooks is no longer connected; reconnect it")
      else if current.accessToken ≠ rejected then .ret current.accessToken
      else refreshLocked at_ issue current fun refreshed =>
        if refreshed.status ≠ .connected then
          .throw (.invalidGrant "QuickBooks needs the connection re-authorized; reconnect it")
        else .ret refreshed.accessToken

/-- `complete`, with what is wrong with the state or with the code, if anything. -/
def complete (stateError codeError : Option String) (realmId : String) (now stamp : Int)
    (issue : Issue) : Service QboConnection :=
  match stateError, codeError with
  | some text, _ => .throw (.state text)
  | none, some text =>
    .throw (if realmId = "" then .state "callback missing realmId" else .oauth text)
  | none, none =>
    if realmId = "" then .throw (.state "callback missing realmId")
    else
      .call .exchangeCode fun t =>
        let conn := connectionFromTokens realmId t issue now (some stamp)
        .call (.save conn) fun _ => .ret conn

def disconnect (revocationArrives : Bool) : Service Bool :=
  .call .get fun found =>
    match found with
    | none => .ret false
    | some conn =>
      .call (.revoke conn.refreshToken revocationArrives) fun _ =>
        .call .delete fun _ => .ret true

end Rgnr8.Platform.QboConnect
