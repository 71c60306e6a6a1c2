import Rgnr8.Lib.Watched
import Rgnr8.Platform.Invitations

/-! Calls on one token, their steps in any order. An invitation is redeemed at most once, and a
revoked one never, as long as each membership and each status is written over an invitation that is
still pending. -/

namespace Rgnr8.Platform.Invites
open Lib Function List

inductive Request where
  | invite (email tenantId : String) (role : Role) (invitedBy : String) (now : Int)
  | accept (name : String) (now : Int)
  | revoke (revokedBy : String) (now : Int)

namespace Request

def Result : Request → Type
  | .accept .. => Membership
  | _ => Invitation

def program (audited : Bool) (ttlDays : Int) (token : String) : (r : Request) → Service r.Result
  | .invite email tenantId role invitedBy now =>
    Invites.invite audited ttlDays token now email tenantId role invitedBy
  | .accept name now => Invites.accept audited token now name
  | .revoke revokedBy now => Invites.revoke audited token now revokedBy

def isAccept : Request → Bool
  | .accept .. => true
  | _ => false

def isRevoke : Request → Bool
  | .revoke .. => true
  | _ => false

end Request

/-- What a call has done so far: whether it found the invitation, wrote the membership, and saved
the invitation as accepted. -/
structure Local where
  request : Request
  found : Bool := false
  granted : Bool := false
  sealed : Bool := false

namespace Local

def look (s : Local) (found : Bool) : Local := { s with found }

def grant (s : Local) : Local := { s with granted := true }

def save (s : Local) (status : InvitationStatus) : Local :=
  { s with sealed := s.sealed || status = .accepted }

@[simp] theorem look_request (s : Local) (found : Bool) : (s.look found).request = s.request := rfl

@[simp] theorem look_granted (s : Local) (found : Bool) : (s.look found).granted = s.granted := rfl

@[simp] theorem look_sealed (s : Local) (found : Bool) : (s.look found).sealed = s.sealed := rfl

@[simp] theorem grant_request (s : Local) : s.grant.request = s.request := rfl

@[simp] theorem grant_found (s : Local) : s.grant.found = s.found := rfl

@[simp] theorem grant_sealed (s : Local) : s.grant.sealed = s.sealed := rfl

@[simp] theorem save_request (s : Local) (status : InvitationStatus) :
    (s.save status).request = s.request := rfl

@[simp] theorem save_granted (s : Local) (status : InvitationStatus) :
    (s.save status).granted = s.granted := rfl

def Saves (s : Local) (status : InvitationStatus) : Prop :=
  match s.request with
  | .invite .. => status = .pending
  | .accept .. => s.found ∧ (status = .accepted ∨ status = .expired ∧ s.granted = false)
  | .revoke .. => s.found ∧ status = .revoked

theorem Saves.revoked {s : Local} {status : InvitationStatus} (h : s.Saves status)
    (hrev : s.request.isRevoke) : status = .revoked := by
  unfold Saves at h
  cases hreq : s.request with
  | invite | accept =>
    rw [hreq] at hrev
    exact nomatch hrev
  | revoke revokedBy now =>
    rw [hreq] at h
    exact h.2

theorem Saves.found {s : Local} {status : InvitationStatus} (h : s.Saves status) :
    s.found ∨ status = .pending := by
  unfold Saves at h
  cases hreq : s.request with
  | invite email tenantId role invitedBy now =>
    rw [hreq] at h
    exact .inr h
  | accept | revoke =>
    rw [hreq] at h
    exact .inl h.1

end Local

def discipline (token : String) : Discipline Call Call.Answer Local where
  after s
    | .get _, r => s.look (Option.isSome r)
    | .save inv, _ => s.save inv.status
    | .setMembership _, _ => s.grant
    | .findByEmail _, _ | .upsertUser _, _ | .record _, _ => s
  may s
    | .get t => t = token
    | .save inv => inv.token = token ∧ s.Saves inv.status
    | .setMembership _ => s.request.isAccept
    | .findByEmail _ | .upsertUser _ | .record _ => True
  relies
    | .get token, r => ∀ inv, r = some inv → inv.token = token
    | _, _ => True

def Returns {α : Type} (s : Local) (_ : α) : Prop := s.request.isAccept → s.sealed

/-- A call that throws wrote no membership. -/
def Throws (s : Local) (_ : InvitationError) : Prop := s.granted = false

section
variable {token : String} {audited : Bool} {ttlDays : Int} {s : Local}

theorem follows_andRecord {α : Type} {r : AuditRecord} {a : α} (h : Returns s a) :
    (andRecord audited r a).Follows (discipline token) Returns Throws s := by
  cases audited with
  | true => exact ⟨trivial, fun _ _ => h⟩
  | false => exact h

theorem follows_grant {name : String} {at_ now : Int} {inv : Invitation} {user : User}
    (hinv : inv.token = token) :
    (grant audited now inv user).Follows (discipline token) Returns Throws
      { request := .accept name at_, found := true } := by
  refine ⟨rfl, fun _ _ => ⟨⟨hinv, rfl, .inl rfl⟩, fun _ _ => ?_⟩⟩
  apply follows_andRecord
  exact fun _ => rfl

theorem follows_program (r : Request) :
    (r.program audited ttlDays token).Follows (discipline token) Returns Throws
      { request := r } := by
  cases r with
  | invite email tenantId role invitedBy now =>
    show (Invites.invite audited ttlDays token now email tenantId role invitedBy).Follows
      (discipline token) Returns Throws _
    unfold invite
    by_cases hemail : '@' ∉ email.toList
    · rw [if_pos hemail]
      rfl
    by_cases hrole : role.isPlatform
    · rw [if_neg hemail, if_pos hrole]
      rfl
    · rw [if_neg hemail, if_neg hrole]
      refine ⟨⟨rfl, rfl⟩, fun _ _ => ?_⟩
      apply follows_andRecord
      exact fun h => nomatch h
  | accept name now =>
    refine ⟨rfl, fun found hfound => ?_⟩
    cases found with
    | none => exact (rfl : false = false)
    | some inv =>
      have hinv : inv.token = token := hfound inv rfl
      show (acceptFound audited now name inv).Follows (discipline token) Returns Throws
        { request := .accept name now, found := true }
      unfold acceptFound
      split_ifs with hstatus hexp
      · rfl
      · exact ⟨⟨hinv, rfl, .inr ⟨rfl, rfl⟩⟩, fun _ _ => rfl⟩
      · refine ⟨trivial, fun user _ => ?_⟩
        cases user with
        | some user => exact follows_grant hinv
        | none => exact ⟨trivial, fun _ _ => follows_grant hinv⟩
  | revoke revokedBy now =>
    refine ⟨rfl, fun found hfound => ?_⟩
    cases found with
    | none => exact (rfl : false = false)
    | some inv =>
      refine ⟨⟨hfound inv rfl, rfl, rfl⟩, fun _ _ => ?_⟩
      apply follows_andRecord
      exact fun h => nomatch h

end

section
variable {δ ι : Type}

abbrev Calls (δ : Type) {ι : Type} (requests : ι → Request) : Type :=
  Watched Call Call.Answer InvitationError ι (fun i => (requests i).Result) Local (Stores δ)

namespace Calls
variable (b : Backing) (dir : UserDirectory δ) (token : String) {requests : ι → Request}

def start (audited : Bool) (ttlDays : Int) (requests : ι → Request) (stores : Stores δ) :
    Calls δ requests where
  pool :=
    { state := stores
      proc := fun i => (requests i).program audited ttlDays token }
  locals i := { request := requests i }
  trace := []

def step [DecidableEq ι] (w : Calls δ requests) (i : ι) : Calls δ requests :=
  Watched.step (discipline token) (exec b dir) w i

def status (w : Calls δ requests) : Option InvitationStatus :=
  w.pool.state.invitations.status token

def HasAccepted (w : Calls δ requests) (i : ι) : Prop :=
  (requests i).isAccept ∧ ∃ m, w.pool.proc i = .ret m

end Calls

def Moves (before after : Option InvitationStatus) : Prop :=
  before = after ∨ (before = none ∧ after = some .pending) ∨ before = some .pending

def NoneAfterRevoke (requests : ι → Request) (trace : List (Made ι Call Call.Answer)) : Prop :=
  ∀ later i m earlier, trace = later ++ ⟨i, .setMembership m, ()⟩ :: earlier →
    ∀ j inv, ⟨j, .save inv, ()⟩ ∈ earlier → (requests j).isRevoke = false

structure RedeemedOnce (token : String) {requests : ι → Request} (w : Calls δ requests) :
    Prop where
  once : ∀ i j, w.HasAccepted i → w.HasAccepted j → i = j
  granted : ∀ i m, ⟨i, .setMembership m, ()⟩ ∈ w.trace → (w.pool.proc i).ended →
    w.HasAccepted i ∧ w.status token = some .accepted
  byAccept : ∀ i m, ⟨i, .setMembership m, ()⟩ ∈ w.trace → (requests i).isAccept
  noneAfterRevoke : NoneAfterRevoke requests w.trace

/-- A membership is written while the invitation is pending. A status is saved over a pending
invitation, or over the same status when that is not ACCEPTED. -/
def Guarded (token : String) {requests : ι → Request} (w : Calls δ requests) (i : ι) : Prop :=
  match w.pool.proc i with
  | .call (.setMembership _) _ => ∀ st, w.status token = some st → st = .pending
  | .call (.save inv) _ => ∀ st, w.status token = some st →
      st = .pending ∨ (st = inv.status ∧ st ≠ .accepted)
  | _ => True

/-- What the calls made so far say of the status stored. -/
structure Consistent (requests : ι → Request) (status : Option InvitationStatus)
    (locals : ι → Local) (trace : List (Made ι Call Call.Answer)) : Prop where
  request : ∀ i, (locals i).request = requests i
  found : ∀ i, (locals i).found → status ≠ none
  granted : ∀ i m, ⟨i, .setMembership m, ()⟩ ∈ trace →
    (locals i).granted ∧ (requests i).isAccept
  sealed : ∀ i, (locals i).sealed → status = some .accepted
  once : ∀ i j, (locals i).sealed → (locals j).sealed → i = j
  revoked : ∀ j inv, ⟨j, .save inv, ()⟩ ∈ trace → (requests j).isRevoke → status = some .revoked
  ordered : NoneAfterRevoke requests trace

namespace Consistent
variable {requests : ι → Request} {status : Option InvitationStatus} {locals : ι → Local}
  {trace : List (Made ι Call Call.Answer)} {i : ι}

theorem start : Consistent requests status (fun i => { request := requests i }) [] where
  request _ := rfl
  found _ h := nomatch h
  granted _ _ h := nomatch h
  sealed _ h := nomatch h
  once _ _ h := nomatch h
  revoked _ _ h := nomatch h
  ordered later _ _ _ h := by
    cases later with
    | nil => exact nomatch h
    | cons => exact nomatch h

theorem noneAfterRevoke_cons {c : Call} {r : c.Answer} (h : NoneAfterRevoke requests trace)
    (hc : ∀ m, c = .setMembership m →
      ∀ j inv, ⟨j, .save inv, ()⟩ ∈ trace → (requests j).isRevoke = false) :
    NoneAfterRevoke requests (⟨i, c, r⟩ :: trace) := by
  intro later j m earlier hsplit
  cases later with
  | nil =>
    obtain ⟨hhead, htail⟩ := cons.inj hsplit
    have hm : c = .setMembership m := congrArg Made.call hhead
    rw [← htail]
    exact hc m hm
  | cons e later =>
    obtain ⟨-, htail⟩ := cons.inj hsplit
    exact h later j m earlier htail

variable [DecidableEq ι]

theorem read_update {β : Type} {s : Local} (f : Local → β) (heq : f s = f (locals i)) (j : ι) :
    f (Function.update locals i s j) = f (locals j) := by
  by_cases hj : j = i
  · rw [hj, update_self, heq]
  · rw [update_of_ne hj]

theorem quiet (h : Consistent requests status locals trace) {c : Call} {r : c.Answer} {s : Local}
    (hsave : ∀ inv, c ≠ .save inv) (hset : ∀ m, c ≠ .setMembership m)
    (hreq : s.request = (locals i).request) (hfound : s.found → status ≠ none)
    (hgran : s.granted = (locals i).granted) (hseal : s.sealed = (locals i).sealed) :
    Consistent requests status (Function.update locals i s) (⟨i, c, r⟩ :: trace) := by
  refine ⟨fun j => ?_, fun j hj => ?_, fun j m hm => ?_, fun j hj => ?_, fun j k hj hk => ?_,
    fun j inv hj => ?_, ?_⟩
  · rw [read_update _ hreq]
    exact h.request j
  · by_cases hji : j = i
    · rw [hji, update_self] at hj
      exact hfound hj
    · rw [update_of_ne hji] at hj
      exact h.found j hj
  · rw [read_update _ hgran]
    rcases mem_cons.mp hm with heq | hm
    · exact absurd (congrArg Made.call heq).symm (hset m)
    · exact h.granted j m hm
  · rw [read_update _ hseal] at hj
    exact h.sealed j hj
  · rw [read_update _ hseal] at hj hk
    exact h.once j k hj hk
  · rcases mem_cons.mp hj with heq | hj
    · exact absurd (congrArg Made.call heq).symm (hsave inv)
    · exact h.revoked j inv hj
  · exact noneAfterRevoke_cons h.ordered fun m hm => absurd hm (hset m)

theorem set (h : Consistent requests status locals trace) (m : Membership)
    (hacc : (locals i).request.isAccept)
    (hguard : ∀ st, status = some st → st = .pending) :
    Consistent requests status
      (Function.update locals i (locals i).grant) (⟨i, .setMembership m, ()⟩ :: trace) := by
  refine ⟨fun j => ?_, fun j hj => ?_, fun j m' hm => ?_, fun j hj => ?_, fun j k hj hk => ?_,
    fun j inv hj => ?_, ?_⟩
  · rw [read_update Local.request (Local.grant_request _)]
    exact h.request j
  · rw [read_update Local.found (Local.grant_found _)] at hj
    exact h.found j hj
  · by_cases hji : j = i
    · rw [hji, update_self]
      exact ⟨rfl, by rw [← h.request i]; exact hacc⟩
    · rw [update_of_ne hji]
      rcases mem_cons.mp hm with heq | hm
      · exact absurd (congrArg Made.who heq) hji
      · exact h.granted j m' hm
  · rw [read_update Local.sealed (Local.grant_sealed _)] at hj
    exact h.sealed j hj
  · rw [read_update Local.sealed (Local.grant_sealed _)] at hj hk
    exact h.once j k hj hk
  · rcases mem_cons.mp hj with heq | hj
    · exact Call.noConfusion (congrArg Made.call heq)
    · exact h.revoked j inv hj
  · refine noneAfterRevoke_cons h.ordered fun _ _ j inv hj => ?_
    by_contra hrev
    have hstatus := h.revoked j inv hj (Bool.eq_true_of_not_eq_false hrev)
    exact nomatch hguard _ hstatus

theorem save (h : Consistent requests status locals trace) {inv : Invitation}
    (hsaves : (locals i).Saves inv.status)
    (hguard : ∀ st, status = some st → st = .pending ∨ (st = inv.status ∧ st ≠ .accepted)) :
    Consistent requests (some inv.status)
      (Function.update locals i ((locals i).save inv.status)) (⟨i, .save inv, ()⟩ :: trace) := by
  have hnone (j : ι) : (locals j).sealed = false := by
    by_contra hj
    have hstatus := h.sealed j (Bool.eq_true_of_not_eq_false hj)
    rcases hguard _ hstatus with hpend | ⟨-, hne⟩
    · exact nomatch hpend
    · exact hne rfl
  -- the only call that can have saved the invitation as accepted is this one
  have hself {j : ι} (hj : (update locals i ((locals i).save inv.status) j).sealed) :
      j = i ∧ inv.status = .accepted := by
    by_cases hji : j = i
    · rw [hji, update_self, Local.save, hnone i, Bool.false_or, decide_eq_true_iff] at hj
      exact ⟨hji, hj⟩
    · rw [update_of_ne hji, hnone j] at hj
      exact nomatch hj
  refine ⟨fun j => ?_, fun j _ => Option.some_ne_none _, fun j m hm => ?_, fun j hj => ?_,
    fun j k hj hk => ?_, fun j inv' hj hrev => ?_, ?_⟩
  · rw [read_update Local.request (Local.save_request _ _)]
    exact h.request j
  · rw [read_update Local.granted (Local.save_granted _ _)]
    rcases mem_cons.mp hm with heq | hm
    · exact Call.noConfusion (congrArg Made.call heq)
    · exact h.granted j m hm
  · rw [(hself hj).2]
  · rw [(hself hj).1, (hself hk).1]
  · rcases mem_cons.mp hj with heq | hj
    · have hj : j = i := congrArg Made.who heq
      subst hj
      rw [← h.request j] at hrev
      rw [hsaves.revoked hrev]
    · have hstatus := h.revoked j inv' hj hrev
      rcases hguard _ hstatus with hpend | ⟨hsame, -⟩
      · exact nomatch hpend
      · rw [← hsame]
  · exact noneAfterRevoke_cons h.ordered fun m hm => nomatch hm

end Consistent

section
variable {b : Backing} {dir : UserDirectory δ} {token : String}
  {requests : ι → Request} {w : Calls δ requests} {i : ι}

/-- Every call in progress follows the discipline, and the status stored is what was saved. -/
structure Inv (token : String) (w : Calls δ requests) : Prop where
  disciplined : Watched.Disciplined (discipline token) (fun _ => Returns) (fun _ => Throws) w
  consistent : Consistent requests (w.status token) w.locals w.trace

theorem inv_start (audited : Bool) (ttlDays : Int) (stores : Stores δ) :
    Inv token (Calls.start token audited ttlDays requests stores) where
  disciplined i := follows_program (requests i)
  consistent := Consistent.start

theorem Inv.redeemedOnce (h : Inv token w) : RedeemedOnce token w := by
  have hseal {i : ι} (hi : w.HasAccepted i) : (w.locals i).sealed := by
    obtain ⟨hacc, m, hm⟩ := hi
    have hfol := h.disciplined i
    rw [hm] at hfol
    apply hfol
    rwa [h.consistent.request]
  refine ⟨fun i j hi hj => h.consistent.once i j (hseal hi) (hseal hj),
    fun i m hm hended => ?_, fun i m hm => (h.consistent.granted i m hm).2, h.consistent.ordered⟩
  obtain ⟨hgran, hacc⟩ := h.consistent.granted i m hm
  have hret : w.HasAccepted i := by
    refine ⟨hacc, ?_⟩
    have hfol := h.disciplined i
    cases hp : w.pool.proc i with
    | ret a => exact ⟨a, rfl⟩
    | throw e =>
      rw [hp] at hfol
      have hnot : (w.locals i).granted = false := hfol
      rw [hgran] at hnot
      exact nomatch hnot
    | call c k =>
      rw [hp] at hended
      exact nomatch hended
  exact ⟨hret, h.consistent.sealed i (hseal hret)⟩

variable [DecidableEq ι]

theorem relies_exec (s : Stores δ) (c : Call) :
    (discipline token).relies c (exec b dir c s).1 := by
  cases c with
  | get token => exact fun inv h => s.invitations.keyed _ _ h
  | _ => trivial

theorem Inv.step (b : Backing) (dir : UserDirectory δ) (h : Inv token w) (hguard : Guarded token w i) :
    Inv token (w.step b dir token i) ∧
      Moves (w.status token) ((w.step b dir token i).status token) := by
  have hdisc : Watched.Disciplined (discipline token) (fun _ => Returns) (fun _ => Throws)
      (w.step b dir token i) := h.disciplined.step (fun c => relies_exec _ c) i
  unfold Calls.step at hdisc ⊢
  rcases w.step_cases (discipline token) (exec b dir) i with
    ⟨-, hstep⟩ | ⟨c, k, hp, hstep⟩
  · rw [hstep]
    exact ⟨h, .inl rfl⟩
  · have hmay := h.disciplined.may hp
    unfold Guarded at hguard
    rw [hp] at hguard
    rw [hstep] at hdisc ⊢
    cases c with
    | get t =>
      refine ⟨⟨hdisc, ?_⟩, .inl rfl⟩
      have ht : t = token := hmay
      refine h.consistent.quiet (fun _ => Call.noConfusion) (fun _ => Call.noConfusion)
        (Local.look_request _ _) (fun hfound hnone => ?_) (Local.look_granted _ _)
        (Local.look_sealed _ _)
      obtain ⟨inv, hinv⟩ := Option.isSome_iff_exists.mp hfound
      have hget : w.pool.state.invitations.get token = some inv := by rw [← ht]; exact hinv
      have hsome : w.status token = some inv.status := by
        unfold Calls.status InvitationStore.status
        rw [hget, Option.map_some]
      rw [hsome] at hnone
      exact nomatch hnone
    | save inv =>
      obtain ⟨htoken, hsaves⟩ := hmay
      have hsav : ((exec b dir (.save inv) w.pool.state).2).invitations.status token =
          some inv.status := by
        rw [← htoken]
        exact InvitationStore.status_save_self b _ inv
      have hcons := h.consistent.save hsaves hguard
      rw [← hsav] at hcons
      refine ⟨⟨hdisc, hcons⟩, ?_⟩
      show Moves (w.status token)
        (((exec b dir (.save inv) w.pool.state).2).invitations.status token)
      rw [hsav]
      cases hstatus : w.status token with
      | none =>
        rcases hsaves.found with hfound | hpend
        · exact absurd hstatus (h.consistent.found i hfound)
        · exact .inr (.inl ⟨rfl, congrArg some hpend⟩)
      | some st =>
        rcases hguard st hstatus with rfl | ⟨rfl, -⟩
        · exact .inr (.inr rfl)
        · exact .inl rfl
    | setMembership m =>
      exact ⟨⟨hdisc, h.consistent.set m hmay hguard⟩, .inl rfl⟩
    | findByEmail | upsertUser | record =>
      refine ⟨⟨hdisc, ?_⟩, .inl rfl⟩
      exact h.consistent.quiet (fun _ => Call.noConfusion) (fun _ => Call.noConfusion) rfl
        (h.consistent.found i) rfl rfl

/-- However the steps are ordered: a status that is not pending stays, at most one accept returns
normally, a membership is written by an accept alone, which if it ends has returned and left the
invitation accepted, and none is written after a revoke has saved, as long as what each membership
and each status is written over is still pending. -/
theorem redeemed_once (b : Backing) (dir : UserDirectory δ) (token : String) (audited : Bool)
    (ttlDays : Int) (requests : ι → Request) (stores : Stores δ) (sched : List ι)
    (h : EachStep (Calls.step b dir token) (Guarded token)
      (Calls.start token audited ttlDays requests stores) sched) :
    Along (Calls.step b dir token) (RedeemedOnce token)
        (Calls.start token audited ttlDays requests stores) sched ∧
      EachStep (Calls.step b dir token)
        (fun w i => Moves (w.status token) ((w.step b dir token i).status token))
        (Calls.start token audited ttlDays requests stores) sched := by
  have hrun : ∀ (w : Calls δ requests) (sched : List ι), Inv token w →
      EachStep (Calls.step b dir token) (Guarded token) w sched →
      Along (Calls.step b dir token) (RedeemedOnce token) w sched ∧
        EachStep (Calls.step b dir token)
          (fun w i => Moves (w.status token) ((w.step b dir token i).status token)) w sched := by
    intro w sched
    induction sched generalizing w with
    | nil => exact fun hinv _ => ⟨along_nil.mpr hinv.redeemedOnce, eachStep_nil⟩
    | cons i sched ih =>
      intro hinv hgrd
      obtain ⟨hguard, hrest⟩ := eachStep_cons.mp hgrd
      obtain ⟨hnext, hmoves⟩ := Inv.step b dir hinv hguard
      obtain ⟨halong, heach⟩ := ih _ hnext hrest
      exact ⟨along_cons.mpr ⟨hinv.redeemedOnce, halong⟩, eachStep_cons.mpr ⟨hmoves, heach⟩⟩
  exact hrun _ sched (inv_start audited ttlDays stores) h

end
end

namespace Sample

def sent : Invitation :=
  { token := "tok-1", email := "cpa@firm.test", tenantId := "t-acme", role := .accountant
    invitedBy := "owner@acme.test", expiresAt := 604800 }

def stores : Stores InMemoryUsers where
  invitations := InvitationStore.empty.save .memory sent
  directory := ⟨OrderedMap.empty, OrderedMap.empty, OrderedMap.empty⟩
  audit := []

def requests : Fin 3 → Request
  | 0 => .accept "Ada" 100
  | 1 => .accept "Ada" 101
  | 2 => .revoke "owner@acme.test" 102

def start : Calls InMemoryUsers requests := Calls.start "tok-1" false 7 requests stores

def step : Calls InMemoryUsers requests → Fin 3 → Calls InMemoryUsers requests :=
  Calls.step .memory (inMemoryUserDirectory id) "tok-1"

/-- The first accept, from its first step to its last. -/
def acceptance : List (Fin 3) := [0, 0, 0, 0, 0]

theorem redeemed_once_sample :
    EachStep step (Guarded "tok-1") start acceptance ∧
      Along step (RedeemedOnce "tok-1") start acceptance := by
  have hgrd : EachStep step (Guarded "tok-1") start acceptance := by
    refine eachStep_cons.mpr ⟨trivial, eachStep_cons.mpr ⟨trivial, eachStep_cons.mpr ⟨trivial,
      eachStep_cons.mpr ⟨fun st h => ?_, eachStep_cons.mpr ⟨fun st h => ?_, eachStep_nil⟩⟩⟩⟩⟩
    · have hst : some InvitationStatus.pending = some st := h
      exact (Option.some.inj hst).symm
    · have hst : some InvitationStatus.pending = some st := h
      exact .inl (Option.some.inj hst).symm
  exact ⟨hgrd, (redeemed_once .memory (inMemoryUserDirectory id) "tok-1" false 7 requests stores
    acceptance hgrd).1⟩

theorem accepted_then_revoked :
    ¬ EachStep step (fun w i => Moves (w.status "tok-1") ((step w i).status "tok-1")) start
        (acceptance ++ [2, 2]) ∧
      ¬ Along step (RedeemedOnce "tok-1") start ([0, 1] ++ [0, 0, 0, 0] ++ [1, 1, 1, 1]) := by
  refine ⟨fun h => ?_, fun h => ?_⟩
  · have hmoves := h (acceptance ++ [2]) 2 prefix_rfl
    have hnot : ¬ Moves (some .accepted) (some .revoked) := by
      rintro (h | ⟨h, -⟩ | h)
      · exact nomatch h
      · exact nomatch h
      · exact nomatch h
    exact hnot hmoves
  · have hboth := h _ prefix_rfl
    have hfst : (0 : Fin 3) = 1 := hboth.once 0 1 ⟨rfl, _, rfl⟩ ⟨rfl, _, rfl⟩
    exact absurd hfst (by decide)

end Sample
end Rgnr8.Platform.Invites
