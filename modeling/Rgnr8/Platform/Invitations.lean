import Rgnr8.Lib.OrderedMap
import Rgnr8.Lib.Program

/-! Team invitations. Accepting and revoking one read it, and later save it as a whole; accepting
writes the membership in between. -/

namespace Rgnr8.Platform.Invites
open Lib

inductive Role where
  | owner | controller | bookkeeper | accountant | viewer | operator | support
  deriving DecidableEq

def Role.value : Role → String
  | .owner => "owner"
  | .controller => "controller"
  | .bookkeeper => "bookkeeper"
  | .accountant => "accountant"
  | .viewer => "viewer"
  | .operator => "operator"
  | .support => "support"

def Role.isPlatform (role : Role) : Bool := role = .operator ∨ role = .support

inductive InvitationStatus where
  | pending | accepted | revoked | expired
  deriving DecidableEq

def InvitationStatus.value : InvitationStatus → String
  | .pending => "pending"
  | .accepted => "accepted"
  | .revoked => "revoked"
  | .expired => "expired"

structure Invitation where
  token : String
  email : String
  tenantId : String
  role : Role
  invitedBy : String
  status : InvitationStatus := .pending
  createdAt : Int := 0
  expiresAt : Int := 0

def Invitation.isExpired (inv : Invitation) (now : Int) : Bool :=
  inv.expiresAt ≠ 0 ∧ now ≥ inv.expiresAt

/-! The stores. -/

/-- `InMemoryInvitationStore`, or `SqlInvitationStore`. -/
inductive Backing where
  | memory | sql

structure InvitationStore where
  rows : OrderedMap String Invitation
  keyed : ∀ token inv, rows.get? token = some inv → inv.token = token

/-- What a save leaves under the token. On a conflict the table takes the new status alone. -/
def Backing.written (b : Backing) (stored : Option Invitation) (inv : Invitation) : Invitation :=
  match b, stored with
  | .sql, some old => { old with status := inv.status }
  | _, _ => inv

namespace InvitationStore

def empty : InvitationStore := ⟨OrderedMap.empty, fun _ _ h => nomatch h⟩

def get (s : InvitationStore) (token : String) : Option Invitation := s.rows.get? token

theorem token_written {b : Backing} {stored : Option Invitation} {inv : Invitation}
    (h : ∀ old, stored = some old → old.token = inv.token) :
    (b.written stored inv).token = inv.token := by
  cases b with
  | memory => rfl
  | sql =>
    cases stored with
    | none => rfl
    | some old => exact h old rfl

def save (b : Backing) (s : InvitationStore) (inv : Invitation) : InvitationStore where
  rows := s.rows.set inv.token (b.written (s.get inv.token) inv)
  keyed := by
    intro token inv' h
    by_cases htoken : token = inv.token
    · subst htoken
      rw [OrderedMap.get?_set_self, Option.some.injEq] at h
      rw [← h]
      exact token_written fun old hold => s.keyed _ _ hold
    · rw [OrderedMap.get?_set_ne _ _ htoken] at h
      exact s.keyed _ _ h

def status (s : InvitationStore) (token : String) : Option InvitationStatus :=
  (s.get token).map Invitation.status

theorem status_save_self (b : Backing) (s : InvitationStore) (inv : Invitation) :
    (s.save b inv).status inv.token = some inv.status := by
  have hget : (s.save b inv).get inv.token = some (b.written (s.get inv.token) inv) :=
    OrderedMap.get?_set_self ..
  rw [status, hget, Option.map_some]
  cases b with
  | memory => rfl
  | sql => cases s.get inv.token <;> rfl

end InvitationStore

structure User where
  id : String
  email : String
  name : String := ""

structure Membership where
  userId : String
  tenantId : String
  role : Role

/-- What the service asks of a `UserDirectory`. -/
structure UserDirectory (δ : Type) where
  findByEmail : String → δ → Option User
  upsertUser : User → δ → δ
  setMembership : Membership → δ → δ

structure InMemoryUsers where
  users : OrderedMap String User
  byEmail : OrderedMap String String
  memberships : OrderedMap (String × String) Membership

/-- `InMemoryUserDirectory` -/
def inMemoryUserDirectory (lower : String → String) : UserDirectory InMemoryUsers where
  findByEmail email d := (d.byEmail.get? (lower email)).bind d.users.get?
  upsertUser user d :=
    { d with
      users := d.users.set user.id user
      byEmail := d.byEmail.set (lower user.email) user.id }
  setMembership m d := { d with memberships := d.memberships.set (m.userId, m.tenantId) m }

structure AuditRecord where
  actor : String
  action : String
  at_ : Int
  tenantId : String
  target : String
  detail : String := ""

/-! The service. -/

structure Stores (δ : Type) where
  invitations : InvitationStore
  directory : δ
  audit : List AuditRecord

inductive Call where
  | get (token : String)
  | save (inv : Invitation)
  | findByEmail (email : String)
  | upsertUser (user : User)
  | setMembership (m : Membership)
  | record (r : AuditRecord)

def Call.Answer : Call → Type
  | .get _ => Option Invitation
  | .findByEmail _ => Option User
  | _ => Unit

def exec {δ : Type} (b : Backing) (dir : UserDirectory δ) :
    (c : Call) → Stores δ → c.Answer × Stores δ
  | .get token, s => (s.invitations.get token, s)
  | .save inv, s => ((), { s with invitations := s.invitations.save b inv })
  | .findByEmail email, s => (dir.findByEmail email s.directory, s)
  | .upsertUser user, s => ((), { s with directory := dir.upsertUser user s.directory })
  | .setMembership m, s => ((), { s with directory := dir.setMembership m s.directory })
  | .record r, s => ((), { s with audit := s.audit ++ [r] })

inductive InvitationError where
  | invalidEmail | platformRole | unknown | closed (status : InvitationStatus) | expired

def InvitationError.text : InvitationError → String
  | .invalidEmail => "a valid email is required"
  | .platformRole => "platform roles are not invitable per-business"
  | .unknown => "unknown invitation"
  | .closed status => "invitation is " ++ status.value
  | .expired => "invitation has expired"

abbrev Service (α : Type) := Prog Call Call.Answer InvitationError α

variable (audited : Bool)

def andRecord {α : Type} (r : AuditRecord) (a : α) : Service α :=
  if audited then .call (.record r) fun _ => .ret a else .ret a

def invite (audited : Bool) (ttlDays : Int) (token : String) (now : Int)
    (email tenantId : String) (role : Role) (invitedBy : String) : Service Invitation :=
  if '@' ∉ email.toList then .throw .invalidEmail
  else if role.isPlatform then .throw .platformRole
  else
    let inv : Invitation :=
      { token, email, tenantId, role, invitedBy
        createdAt := now, expiresAt := now + ttlDays * 86400 }
    .call (.save inv) fun _ =>
      andRecord audited ⟨invitedBy, "invite.created", now, tenantId, email, role.value⟩ inv

/-- `accept`, once the user is known. -/
def grant (now : Int) (inv : Invitation) (user : User) : Service Membership :=
  .call (.setMembership ⟨user.id, inv.tenantId, inv.role⟩) fun _ =>
    .call (.save { inv with status := .accepted }) fun _ =>
      andRecord audited ⟨user.id, "membership.set", now, inv.tenantId, user.id, inv.role.value⟩
        ⟨user.id, inv.tenantId, inv.role⟩

/-- `accept`, with the invitation as it was read. -/
def acceptFound (now : Int) (name : String) (inv : Invitation) : Service Membership :=
  if inv.status ≠ .pending then .throw (.closed inv.status)
  else if inv.isExpired now then
    .call (.save { inv with status := .expired }) fun _ => .throw .expired
  else
    .call (.findByEmail inv.email) fun found =>
      match found with
      | some user => grant audited now inv user
      | none =>
        let user : User := ⟨inv.email, inv.email, name⟩
        .call (.upsertUser user) fun _ => grant audited now inv user

def accept (token : String) (now : Int) (name : String) : Service Membership :=
  .call (.get token) fun found =>
    match found with
    | none => .throw .unknown
    | some inv => acceptFound audited now name inv

def revoke (token : String) (now : Int) (revokedBy : String) : Service Invitation :=
  .call (.get token) fun found =>
    match found with
    | none => .throw .unknown
    | some inv =>
      let updated : Invitation := { inv with status := .revoked }
      .call (.save updated) fun _ =>
        andRecord audited ⟨revokedBy, "invite.revoked", now, inv.tenantId, inv.email, ""⟩ updated

end Rgnr8.Platform.Invites
