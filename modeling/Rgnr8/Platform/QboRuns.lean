import Rgnr8.Lib.Watched
import Rgnr8.Platform.QboConnect

/-! Calls from several processes, their steps in any order. No connection is lost, or comes back, as
long as each refreshed or expired connection is saved over the refresh token that its call had
read. -/

namespace Rgnr8.Platform.QboConnect
open Lib Function Option Nat

inductive Request where
  | ensureFresh (skewSeconds : Int) (at_ : Readings) (issue : Issue)
  | accessAfterUnauthorized (rejected : String) (at_ : Readings) (issue : Issue)
  | complete (stateError codeError : Option String) (realmId : String) (now stamp : Int)
      (issue : Issue)
  | disconnect (revocationArrives : Bool)

namespace Request

def Result : Request → Type
  | .ensureFresh .. => Option QboConnection
  | .accessAfterUnauthorized .. => String
  | .complete .. => QboConnection
  | .disconnect _ => Bool

def program : (r : Request) → Service r.Result
  | .ensureFresh skewSeconds at_ issue => QboConnect.ensureFresh skewSeconds at_ issue
  | .accessAfterUnauthorized rejected at_ issue =>
    QboConnect.accessAfterUnauthorized rejected at_ issue
  | .complete stateError codeError realmId now stamp issue =>
    QboConnect.complete stateError codeError realmId now stamp issue
  | .disconnect revocationArrives => QboConnect.disconnect revocationArrives

def realm? : Request → Option String
  | .complete _ _ realmId _ _ _ => some realmId
  | _ => none

def lapsedAt? : Request → Option Int
  | .ensureFresh _ at_ _ | .accessAfterUnauthorized _ at_ _ => some at_.refresh
  | _ => none

end Request

/-- The connection a call last read, the token it was issued and has not saved, and whether Intuit
refused the token it read. -/
structure Local where
  request : Request
  held : Option QboConnection := none
  issued : Option RefreshToken := none
  refused : Bool := false

namespace Local

variable (s : Local)

def read (found : Option QboConnection) : Local :=
  { s with held := found, refused := false }

def receive (t : Option RefreshToken) : Local :=
  { s with issued := t, refused := t.isNone }

def wrote : Local := { s with issued := none }

def Saves (conn : QboConnection) : Prop :=
  (∃ realmId t, s.request.realm? = some realmId ∧ s.issued = some t ∧
    conn.realmId = realmId ∧ conn.refreshToken = t ∧ conn.status = .connected) ∨
  ∃ held, s.request.realm? = none ∧ s.held = some held ∧ conn.realmId = held.realmId ∧
    ((s.issued = some conn.refreshToken ∧ conn.refreshToken.grant = held.refreshToken.grant ∧
        conn.status = .connected) ∨
      (s.issued = none ∧ conn.refreshToken = held.refreshToken ∧ conn.status = .expired ∧
        ∃ now, s.request.lapsedAt? = some now ∧ conn.refreshExpiresAt ≤ now))

end Local

def discipline : Discipline Call Call.Answer Local where
  after s
    | .get, r => s.read r
    | .exchangeCode, r => s.receive (some r)
    | .refreshTokens _, r => s.receive r
    | .save _, _ => s.wrote
    | .delete, _ | .replaceIfRefreshToken .., _ | .revoke .., _ => s
  may s
    | .get => s.issued = none
    | .exchangeCode => s.issued = none ∧ s.request.realm?.isSome
    | .refreshTokens t => s.request.realm? = none ∧ s.issued = none ∧
        s.held.map QboConnection.refreshToken = some t
    | .save conn => s.Saves conn
    | .replaceIfRefreshToken expected conn => s.issued = none ∧ s.refused = true ∧
        ∃ held, s.held = some held ∧ expected = held.refreshToken ∧
          conn = { held with status := .needsReconnect }
    | .delete | .revoke .. => s.issued = none
  relies
    | .refreshTokens t, r => ∀ t', r = some t' → t'.grant = t.grant
    | _, _ => True

/-- A call that has ended has saved the token it was issued. -/
def Ends {α : Type} (s : Local) (_ : α) : Prop := s.issued = none

theorem follows_markNeedsReconnect {α : Type} {conn : QboConnection} {s : Local}
    {k : QboConnection → Service α} (hheld : s.held = some conn) (hiss : s.issued = none)
    (hrefd : s.refused = true)
    (hk : ∀ s' : Local, s'.issued = none → ∀ c, (k c).Follows discipline Ends Ends s') :
    (markNeedsReconnect conn k).Follows discipline Ends Ends s := by
  refine ⟨⟨hiss, hrefd, conn, hheld, rfl, rfl⟩, fun replaced _ => ?_⟩
  cases replaced with
  | true => exact hk s hiss _
  | false =>
    refine ⟨hiss, fun latest _ => ?_⟩
    cases latest with
    | some latest => exact hk (s.read (some latest)) hiss latest
    | none => exact hk (s.read none) hiss _

theorem follows_refreshLocked {α : Type} {at_ : Readings} {issue : Issue} {conn : QboConnection}
    {s : Local} {k : QboConnection → Service α} (hrealm : s.request.realm? = none)
    (hlaps : s.request.lapsedAt? = some at_.refresh) (hheld : s.held = some conn)
    (hiss : s.issued = none)
    (hk : ∀ s' : Local, s'.issued = none → ∀ c, (k c).Follows discipline Ends Ends s') :
    (refreshLocked at_ issue conn k).Follows discipline Ends Ends s := by
  unfold refreshLocked
  refine Prog.follows_ite (fun hlapse => ?_) fun _ => ?_
  · refine ⟨.inr ⟨conn, hrealm, hheld, rfl, .inr ⟨hiss, rfl, rfl, at_.refresh, hlaps, ?_⟩⟩,
      fun _ _ => hk _ rfl _⟩
    unfold QboConnection.refreshValid at hlapse
    exact Int.not_lt.mp fun h => hlapse (decide_eq_true h)
  · refine ⟨⟨hrealm, hiss, by rw [hheld, map_some]⟩, fun t ht => ?_⟩
    cases t with
    | none => exact follows_markNeedsReconnect hheld rfl rfl hk
    | some t =>
      exact ⟨.inr ⟨conn, hrealm, hheld, rfl, .inl ⟨rfl, ht t rfl, rfl⟩⟩, fun _ _ => hk _ rfl _⟩

theorem follows_program (r : Request) :
    r.program.Follows discipline Ends Ends { request := r } := by
  cases r with
  | ensureFresh skewSeconds at_ issue =>
    refine ⟨rfl, fun found _ => ?_⟩
    cases found with
    | none => exact (rfl : (none : Option RefreshToken) = none)
    | some conn =>
      refine Prog.follows_ite (fun _ => (rfl : (none : Option RefreshToken) = none)) fun _ => ?_
      refine ⟨rfl, fun current _ => ?_⟩
      cases current with
      | none => exact (rfl : (none : Option RefreshToken) = none)
      | some current =>
        refine Prog.follows_ite (fun _ => (rfl : (none : Option RefreshToken) = none)) fun _ => ?_
        exact follows_refreshLocked rfl rfl rfl rfl fun _ h _ => h
  | accessAfterUnauthorized rejected at_ issue =>
    refine ⟨rfl, fun current _ => ?_⟩
    cases current with
    | none => exact (rfl : (none : Option RefreshToken) = none)
    | some current =>
      refine Prog.follows_ite (fun _ => (rfl : (none : Option RefreshToken) = none)) fun _ => ?_
      refine Prog.follows_ite (fun _ => (rfl : (none : Option RefreshToken) = none)) fun _ => ?_
      refine follows_refreshLocked rfl rfl rfl rfl fun s' h c => ?_
      exact Prog.follows_ite (fun _ => h) fun _ => h
  | complete stateError codeError realmId now stamp issue =>
    cases stateError with
    | some text => exact (rfl : (none : Option RefreshToken) = none)
    | none =>
      cases codeError with
      | some text => exact (rfl : (none : Option RefreshToken) = none)
      | none =>
        refine Prog.follows_ite (fun _ => (rfl : (none : Option RefreshToken) = none)) fun _ => ?_
        refine ⟨⟨rfl, rfl⟩, fun t _ => ?_⟩
        exact ⟨.inl ⟨realmId, t, rfl, rfl, rfl, rfl, rfl⟩, fun _ _ => rfl⟩
  | disconnect arrives =>
    refine ⟨rfl, fun found _ => ?_⟩
    cases found with
    | none => exact (rfl : (none : Option RefreshToken) = none)
    | some conn => exact ⟨rfl, fun _ _ => ⟨rfl, fun _ _ => rfl⟩⟩

section
variable {ι : Type} {requests : ι → Request}

abbrev Calls (requests : ι → Request) : Type :=
  Watched Call Call.Answer ConnectError ι (fun i => (requests i).Result) Local World

namespace Calls

def start (requests : ι → Request) : Calls requests where
  pool :=
    { state := { stored := none, intuit := Intuit.start }
      proc := fun i => (requests i).program }
  locals i := { request := requests i }
  trace := []

def step [DecidableEq ι] (w : Calls requests) (i : ι) : Calls requests :=
  Watched.step discipline exec w i

end Calls

inductive Effect (ι : Type) where
  | disconnected
  | authorized (i : ι) (grant : Nat)

def effectOf (requests : ι → Request) : Made ι Call Call.Answer → Option (Effect ι)
  | ⟨_, .delete, _⟩ => some .disconnected
  | ⟨i, .save conn, _⟩ =>
    if (requests i).realm?.isSome then some (.authorized i conn.refreshToken.grant) else none
  | _ => none

def lastEffect (requests : ι → Request) (trace : List (Made ι Call Call.Answer)) :
    Option (Effect ι) := trace.findSome? (effectOf requests)

/-- The connection is of the authorization, and carries the newest refresh token issued under it.
Its status says that the token is of no more use only where Intuit would refuse it, or a call found
that it had lapsed. -/
structure Current (requests : ι → Request) (intuit : Intuit) (i : ι) (grant : Nat)
    (conn : QboConnection) : Prop where
  realm : (requests i).realm? = some conn.realmId
  ofGrant : conn.refreshToken.grant = grant
  newest : conn.refreshToken.generation = intuit.newest grant
  refused : conn.status = .needsReconnect → ¬ intuit.Accepts conn.refreshToken
  lapsed : conn.status = .expired →
    ∃ j now, (requests j).lapsedAt? = some now ∧ conn.refreshExpiresAt ≤ now

/-- Nothing is stored after a disconnect; after an authorization, its connection. -/
def ConnectionKept (w : Calls requests) : Prop :=
  match lastEffect requests w.trace with
  | some (.authorized i grant) => ∃ conn, w.pool.state.stored = some conn ∧
      Current requests w.pool.state.intuit i grant conn
  | _ => w.pool.state.stored = none

/-- A connection that is not a new authorization's is saved over the refresh token that its call had
read. -/
def Guarded (w : Calls requests) (i : ι) : Prop :=
  match w.pool.proc i with
  | .call (.save _) _ => (requests i).realm? = none →
      w.pool.state.stored.map QboConnection.refreshToken =
        (w.locals i).held.map QboConnection.refreshToken
  | _ => True

structure Rotation (requests : ι → Request) (intuit : Intuit) (stored : Option QboConnection)
    (held : ι → Option QboConnection) (issued : ι → Option RefreshToken) (refused : ι → Bool) :
    Prop where
  issuedNewest : ∀ i t, issued i = some t →
    t.grant < intuit.grants ∧ t.generation = intuit.newest t.grant
  issuedFirst : ∀ i t, issued i = some t → (requests i).realm?.isSome → t.generation = 0
  issuedOnce : ∀ i j t t', issued i = some t → issued j = some t' → t.grant = t'.grant → i = j
  storedKnown : ∀ c, stored = some c → c.refreshToken.grant < intuit.grants
  storedNewest : ∀ c, stored = some c →
    c.refreshToken.generation = intuit.newest c.refreshToken.grant ∨
      ∃ i t, issued i = some t ∧ t.grant = c.refreshToken.grant
  storedOlder : ∀ c i t, stored = some c → issued i = some t → t.grant = c.refreshToken.grant →
    c.refreshToken.generation < t.generation
  heldKnown : ∀ j c, held j = some c → c.refreshToken.grant < intuit.grants ∧
    c.refreshToken.generation ≤ intuit.newest c.refreshToken.grant
  heldOlder : ∀ j c i t, held j = some c → issued i = some t → t.grant = c.refreshToken.grant →
    c.refreshToken.generation < t.generation
  heldRealm : ∀ j c c', held j = some c → stored = some c' →
    c.refreshToken.grant = c'.refreshToken.grant → c.realmId = c'.realmId
  storedRefused : ∀ c, stored = some c → c.status = .needsReconnect →
    intuit.Spent c.refreshToken
  heldRefused : ∀ j c, held j = some c → refused j = true → intuit.Spent c.refreshToken

namespace Rotation
variable {intuit : Intuit} {stored : Option QboConnection} {held : ι → Option QboConnection}
  {issued : ι → Option RefreshToken} {refused : ι → Bool}

theorem start : Rotation requests Intuit.start none (fun _ => none) (fun _ => none)
    fun _ => false where
  issuedNewest _ _ h := nomatch h
  issuedFirst _ _ h := nomatch h
  issuedOnce _ _ _ _ h := nomatch h
  storedKnown _ h := nomatch h
  storedNewest _ h := nomatch h
  storedOlder _ _ _ h := nomatch h
  heldKnown _ _ h := nomatch h
  heldOlder _ _ _ _ h := nomatch h
  heldRealm _ _ _ h := nomatch h
  storedRefused _ h := nomatch h
  heldRefused _ _ h := nomatch h

variable {c : QboConnection} {t : RefreshToken}

theorem stored_le (h : Rotation requests intuit stored held issued refused) (hc : stored = some c) :
    c.refreshToken.generation ≤ intuit.newest c.refreshToken.grant := by
  rcases h.storedNewest c hc with heq | ⟨i, t, ht, hgrant⟩
  · exact Nat.le_of_eq heq
  · have hlt := h.storedOlder c i t hc ht hgrant
    rw [(h.issuedNewest i t ht).2, hgrant] at hlt
    exact Nat.le_of_lt hlt

theorem delete (h : Rotation requests intuit stored held issued refused) :
    Rotation requests intuit none held issued refused where
  issuedNewest := h.issuedNewest
  issuedFirst := h.issuedFirst
  issuedOnce := h.issuedOnce
  storedKnown _ hc := nomatch hc
  storedNewest _ hc := nomatch hc
  storedOlder _ _ _ hc := nomatch hc
  heldKnown := h.heldKnown
  heldOlder := h.heldOlder
  heldRealm _ _ _ _ hc := nomatch hc
  storedRefused _ hc := nomatch hc
  heldRefused := h.heldRefused

theorem revoke (h : Rotation requests intuit stored held issued refused) (t : RefreshToken) :
    Rotation requests (intuit.revoke t) stored held issued refused where
  issuedNewest := h.issuedNewest
  issuedFirst := h.issuedFirst
  issuedOnce := h.issuedOnce
  storedKnown := h.storedKnown
  storedNewest := h.storedNewest
  storedOlder := h.storedOlder
  heldKnown := h.heldKnown
  heldOlder := h.heldOlder
  heldRealm := h.heldRealm
  storedRefused c hc hs := (h.storedRefused c hc hs).revoke t
  heldRefused j c hc hr := (h.heldRefused j c hc hr).revoke t

theorem rewrite (h : Rotation requests intuit stored held issued refused) {c' : QboConnection}
    (hc : stored = some c) (htoken : c'.refreshToken = c.refreshToken)
    (hrealm : c'.realmId = c.realmId)
    (hrefd : c'.status = .needsReconnect → intuit.Spent c'.refreshToken) :
    Rotation requests intuit (some c') held issued refused where
  issuedNewest := h.issuedNewest
  issuedFirst := h.issuedFirst
  issuedOnce := h.issuedOnce
  storedKnown c₁ hc₁ := by
    obtain rfl := some.inj hc₁
    rw [htoken]
    exact h.storedKnown c hc
  storedNewest c₁ hc₁ := by
    obtain rfl := some.inj hc₁
    rw [htoken]
    exact h.storedNewest c hc
  storedOlder c₁ i t hc₁ := by
    obtain rfl := some.inj hc₁
    rw [htoken]
    exact h.storedOlder c i t hc
  heldKnown := h.heldKnown
  heldOlder := h.heldOlder
  heldRealm j c₁ c₂ hj hc₂ := by
    obtain rfl := some.inj hc₂
    rw [htoken, hrealm]
    exact h.heldRealm j c₁ c hj hc
  storedRefused c₁ hc₁ := by
    obtain rfl := some.inj hc₁
    exact hrefd
  heldRefused := h.heldRefused

variable [DecidableEq ι] {i : ι}

theorem get (h : Rotation requests intuit stored held issued refused) :
    Rotation requests intuit stored (Function.update held i stored) issued
      (Function.update refused i false) := by
  have hheld {j : ι} {c : QboConnection} (hj : update held i stored j = some c) :
      (j = i ∧ stored = some c) ∨ (j ≠ i ∧ held j = some c) := by
    by_cases hji : j = i
    · rw [hji, update_self] at hj
      exact .inl ⟨hji, hj⟩
    · rw [update_of_ne hji] at hj
      exact .inr ⟨hji, hj⟩
  refine ⟨h.issuedNewest, h.issuedFirst, h.issuedOnce, h.storedKnown, h.storedNewest,
    h.storedOlder, fun j c hj => ?_, fun j c k t hj => ?_, fun j c c' hj hc' heq => ?_,
    h.storedRefused, fun j c hj hr => ?_⟩
  · rcases hheld hj with ⟨-, hc⟩ | ⟨-, hj⟩
    · exact ⟨h.storedKnown c hc, h.stored_le hc⟩
    · exact h.heldKnown j c hj
  · rcases hheld hj with ⟨-, hc⟩ | ⟨-, hj⟩
    · exact h.storedOlder c k t hc
    · exact h.heldOlder j c k t hj
  · rcases hheld hj with ⟨-, hc⟩ | ⟨-, hj⟩
    · rw [some.inj (hc.symm.trans hc')]
    · exact h.heldRealm j c c' hj hc' heq
  · rcases hheld hj with ⟨hji, -⟩ | ⟨hji, hj⟩
    · rw [hji, update_self] at hr
      exact nomatch hr
    · rw [update_of_ne hji] at hr
      exact h.heldRefused j c hj hr

theorem refuse (h : Rotation requests intuit stored held issued refused)
    (hiss : issued i = none) (hheld : (held i).map QboConnection.refreshToken = some t)
    (hnot : ¬ intuit.Accepts t) :
    Rotation requests intuit stored held (Function.update issued i none)
      (Function.update refused i true) := by
  have hsame : update issued i none = issued := by
    rw [← hiss, update_eq_self]
  rw [hsame]
  refine ⟨h.issuedNewest, h.issuedFirst, h.issuedOnce, h.storedKnown, h.storedNewest,
    h.storedOlder, h.heldKnown, h.heldOlder, h.heldRealm, h.storedRefused, fun j c hj hr => ?_⟩
  by_cases hji : j = i
  · rw [hji] at hj
    rw [hj, map_some, some.injEq] at hheld
    obtain ⟨hgrant, hgen⟩ := h.heldKnown i c hj
    rw [hheld] at hgrant hgen ⊢
    exact Intuit.spent_of_refused hgrant hgen hnot
  · rw [update_of_ne hji] at hr
    exact h.heldRefused j c hj hr

theorem issued_update {t₀ : Option RefreshToken} {j : ι}
    (hj : Function.update issued i t₀ j = some t) :
    (j = i ∧ t₀ = some t) ∨ (j ≠ i ∧ issued j = some t) := by
  by_cases hji : j = i
  · rw [hji, update_self] at hj
    exact .inl ⟨hji, hj⟩
  · rw [update_of_ne hji] at hj
    exact .inr ⟨hji, hj⟩

omit [DecidableEq ι] in
theorem ne_of_issued {j : ι} (hiss : issued i = none) (hj : issued j = some t) : j ≠ i := by
  rintro rfl
  rw [hiss] at hj
  exact nomatch hj

theorem refused_update {j : ι} (hr : Function.update refused i false j = true) :
    refused j = true := by
  by_cases hji : j = i
  · rw [hji, update_self] at hr
    exact nomatch hr
  · rwa [update_of_ne hji] at hr

theorem once_update (h : Rotation requests intuit stored held issued refused) {j k : ι}
    {new t t' : RefreshToken} (hj : Function.update issued i (some new) j = some t)
    (hk : Function.update issued i (some new) k = some t') (heq : t.grant = t'.grant)
    (hother : ∀ {j t}, issued j = some t → t.grant ≠ new.grant) : j = k := by
  rcases issued_update hj with ⟨hji, ht⟩ | ⟨-, hj⟩
  · rcases issued_update hk with ⟨hki, -⟩ | ⟨-, hk⟩
    · rw [hji, hki]
    · rw [← some.inj ht] at heq
      exact absurd heq.symm (hother hk)
  · rcases issued_update hk with ⟨-, ht'⟩ | ⟨-, hk⟩
    · rw [← some.inj ht'] at heq
      exact absurd heq (hother hj)
    · exact h.issuedOnce j k t t' hj hk heq

theorem authorize (h : Rotation requests intuit stored held issued refused)
    (hiss : issued i = none) :
    Rotation requests intuit.authorize.2 stored held
      (Function.update issued i (some intuit.authorize.1)) (Function.update refused i false) := by
  have hnewest {g : Nat} (hg : g < intuit.grants) :
      intuit.authorize.2.newest g = intuit.newest g :=
    update_of_ne (Nat.ne_of_lt hg) ..
  have hgran : intuit.authorize.2.grants = intuit.grants + 1 := rfl
  have hother {j : ι} {t : RefreshToken} (hj : issued j = some t) :
      t.grant ≠ intuit.authorize.1.grant := Nat.ne_of_lt (h.issuedNewest j t hj).1
  refine ⟨fun j t hj => ?_, fun j t hj hr => ?_, fun j k t t' hj hk heq => ?_, fun c hc => ?_,
    fun c hc => ?_, fun c j t hc hj heq => ?_, fun j c hc => ?_, fun j c k t hc hk heq => ?_,
    h.heldRealm, fun c hc hs => ?_, fun j c hc hr => ?_⟩
  · rcases issued_update hj with ⟨-, ht⟩ | ⟨-, hj⟩
    · have hfst : intuit.authorize.2.newest intuit.grants = 0 := update_self ..
      rw [← some.inj ht]
      exact ⟨lt_succ_self _, hfst.symm⟩
    · obtain ⟨hgrant, hgen⟩ := h.issuedNewest j t hj
      rw [hnewest hgrant]
      exact ⟨lt_succ_of_lt hgrant, hgen⟩
  · rcases issued_update hj with ⟨-, ht⟩ | ⟨-, hj⟩
    · rw [← some.inj ht]
      rfl
    · exact h.issuedFirst j t hj hr
  · exact h.once_update hj hk heq hother
  · exact lt_succ_of_lt (h.storedKnown c hc)
  · rw [hnewest (h.storedKnown c hc)]
    refine (h.storedNewest c hc).imp_right fun ⟨j, t, hj, hgrant⟩ => ⟨j, t, ?_, hgrant⟩
    rw [update_of_ne (ne_of_issued hiss hj), hj]
  · rcases issued_update hj with ⟨-, ht⟩ | ⟨-, hj⟩
    · rw [← some.inj ht] at heq
      exact absurd heq.symm (Nat.ne_of_lt (h.storedKnown c hc))
    · exact h.storedOlder c j t hc hj heq
  · obtain ⟨hgrant, hgen⟩ := h.heldKnown j c hc
    rw [hnewest hgrant]
    exact ⟨lt_succ_of_lt hgrant, hgen⟩
  · rcases issued_update hk with ⟨-, ht⟩ | ⟨-, hk⟩
    · rw [← some.inj ht] at heq
      exact absurd heq.symm (Nat.ne_of_lt (h.heldKnown j c hc).1)
    · exact h.heldOlder j c k t hc hk heq
  · exact (h.storedRefused c hc hs).authorize (h.storedKnown c hc)
  · exact (h.heldRefused j c hc (refused_update hr)).authorize (h.heldKnown j c hc).1

theorem advance (h : Rotation requests intuit stored held issued refused)
    (hiss : issued i = none) (hrealm : (requests i).realm? = none)
    (hheld : (held i).map QboConnection.refreshToken = some t) (hacc : intuit.Accepts t) :
    Rotation requests
      { intuit with newest := Function.update intuit.newest t.grant (t.generation + 1) } stored held
      (Function.update issued i (some { t with generation := t.generation + 1 }))
      (Function.update refused i false) := by
  obtain ⟨hgrant, hnewest, -⟩ := hacc
  obtain ⟨own, hown, rfl⟩ := map_eq_some_iff.mp hheld
  -- no other call has been issued a token of this authorization
  have hother {j : ι} {t' : RefreshToken} (hj : issued j = some t') :
      t'.grant ≠ own.refreshToken.grant := by
    intro heq
    have hlt := h.heldOlder i own j t' hown hj heq
    rw [(h.issuedNewest j t' hj).2, heq, hnewest] at hlt
    exact absurd hlt (Nat.lt_irrefl _)
  have hupd {g n : Nat} (hle : n ≤ intuit.newest g) :
      n ≤ update intuit.newest own.refreshToken.grant (own.refreshToken.generation + 1)
        g := by
    by_cases hg : g = own.refreshToken.grant
    · rw [hg, hnewest] at hle
      rw [hg, update_self]
      exact le_succ_of_le hle
    · rwa [update_of_ne hg]
  refine ⟨fun j t hj => ?_, fun j t hj hr => ?_, fun j k t t' hj hk heq => ?_, h.storedKnown,
    fun c hc => ?_, fun c j t hc hj heq => ?_, fun j c hc => ?_, fun j c k t hc hk heq => ?_,
    h.heldRealm, fun c hc hs => ?_, fun j c hc hr => ?_⟩
  · rcases issued_update hj with ⟨-, ht⟩ | ⟨-, hj⟩
    · rw [← some.inj ht]
      refine ⟨hgrant, ?_⟩
      dsimp only
      rw [update_self]
    · obtain ⟨hgrant', hgen⟩ := h.issuedNewest j t hj
      refine ⟨hgrant', ?_⟩
      dsimp only
      rw [update_of_ne (hother hj)]
      exact hgen
  · rcases issued_update hj with ⟨hji, -⟩ | ⟨-, hj⟩
    · rw [hji, hrealm] at hr
      exact nomatch hr
    · exact h.issuedFirst j t hj hr
  · exact h.once_update hj hk heq hother
  · by_cases hg : c.refreshToken.grant = own.refreshToken.grant
    · exact .inr ⟨i, _, update_self .., hg.symm⟩
    · dsimp only
      rw [update_of_ne hg]
      refine (h.storedNewest c hc).imp_right fun ⟨j, t, hj, hgrant'⟩ => ⟨j, t, ?_, hgrant'⟩
      rw [update_of_ne (ne_of_issued hiss hj), hj]
  · rcases issued_update hj with ⟨-, ht⟩ | ⟨-, hj⟩
    · have hle := h.stored_le hc
      rw [← some.inj ht] at heq ⊢
      rw [← heq, hnewest] at hle
      exact lt_succ_of_le hle
    · exact h.storedOlder c j t hc hj heq
  · obtain ⟨hgrant', hgen⟩ := h.heldKnown j c hc
    exact ⟨hgrant', hupd hgen⟩
  · rcases issued_update hk with ⟨-, ht⟩ | ⟨-, hk⟩
    · have hle := (h.heldKnown j c hc).2
      rw [← some.inj ht] at heq ⊢
      rw [← heq, hnewest] at hle
      exact lt_succ_of_le hle
    · exact h.heldOlder j c k t hc hk heq
  · exact (h.storedRefused c hc hs).advance hnewest
  · exact (h.heldRefused j c hc (refused_update hr)).advance hnewest

theorem save (h : Rotation requests intuit stored held issued refused)
    (hiss : issued i = some c.refreshToken) (hstatus : c.status = .connected)
    (hrealm : ∀ j c', held j = some c' → c'.refreshToken.grant = c.refreshToken.grant → c'.realmId
      = c.realmId) :
    Rotation requests intuit (some c) held (Function.update issued i none) refused := by
  obtain ⟨hgrant, hgen⟩ := h.issuedNewest i _ hiss
  have hold {j : ι} {t : RefreshToken} (hj : update issued i none j = some t) :
      j ≠ i ∧ issued j = some t := by
    rcases issued_update hj with ⟨-, ht⟩ | hj
    · exact nomatch ht
    · exact hj
  refine ⟨fun j t hj => h.issuedNewest j t (hold hj).2, fun j t hj => h.issuedFirst j t (hold hj).2,
    fun j k t t' hj hk => h.issuedOnce j k t t' (hold hj).2 (hold hk).2, fun c' hc' => ?_,
    fun c' hc' => ?_, fun c' j t hc' hj heq => ?_, h.heldKnown,
    fun j c' k t hc' hk => h.heldOlder j c' k t hc' (hold hk).2, fun j c₁ c₂ hj hc₂ heq => ?_,
    fun c' hc' hs => ?_, h.heldRefused⟩
  · rw [← some.inj hc']
    exact hgrant
  · rw [← some.inj hc']
    exact .inl hgen
  · rw [← some.inj hc'] at heq
    exact absurd (h.issuedOnce j i _ _ (hold hj).2 hiss heq) (hold hj).1
  · rw [← some.inj hc₂] at heq ⊢
    exact hrealm j c₁ hj heq
  · rw [← some.inj hc', hstatus] at hs
    exact nomatch hs

end Rotation

/-! The runs. -/

/-- What is stored is of the last authorization, and nothing after a disconnect. -/
def Connected (requests : ι → Request) (effect : Option (Effect ι))
    (stored : Option QboConnection) : Prop :=
  match effect with
  | some (.authorized i grant) => ∃ conn, stored = some conn ∧
      (requests i).realm? = some conn.realmId ∧ conn.refreshToken.grant = grant ∧
      (conn.status = .expired →
        ∃ j now, (requests j).lapsedAt? = some now ∧ conn.refreshExpiresAt ≤ now)
  | _ => stored = none

theorem Connected.replace {effect : Option (Effect ι)} {c c' : QboConnection}
    (h : Connected requests effect (some c)) (hrealm : c'.realmId = c.realmId)
    (hgrant : c'.refreshToken.grant = c.refreshToken.grant)
    (hlaps : c'.status = .expired →
      ∃ j now, (requests j).lapsedAt? = some now ∧ c'.refreshExpiresAt ≤ now) :
    Connected requests effect (some c') := by
  unfold Connected at h ⊢
  cases effect with
  | none => exact nomatch h
  | some e =>
    cases e with
    | disconnected => exact nomatch h
    | authorized i grant =>
      obtain ⟨conn, hconn, hrealm', hgrant', -⟩ := h
      obtain rfl := some.inj hconn
      exact ⟨c', rfl, by rw [hrealm', hrealm], hgrant.trans hgrant', hlaps⟩

variable {w : Calls requests}

structure Inv (w : Calls requests) : Prop where
  disciplined : Watched.Disciplined discipline (fun _ => Ends) (fun _ => Ends) w
  request : ∀ i, (w.locals i).request = requests i
  rotation : Rotation requests w.pool.state.intuit w.pool.state.stored
    (fun i => (w.locals i).held) (fun i => (w.locals i).issued) fun i => (w.locals i).refused
  connected : Connected requests (lastEffect requests w.trace) w.pool.state.stored

theorem inv_start : Inv (Calls.start requests) where
  disciplined i := follows_program (requests i)
  request _ := rfl
  rotation := Rotation.start
  connected := rfl

theorem Inv.kept (h : Inv w) (hended : ∀ i, (w.pool.proc i).ended) : ConnectionKept w := by
  have hiss (i : ι) : (w.locals i).issued = none := by
    have hfol := h.disciplined i
    have hend := hended i
    cases hp : w.pool.proc i with
    | ret a =>
      rw [hp] at hfol
      exact hfol
    | throw e =>
      rw [hp] at hfol
      exact hfol
    | call c k =>
      rw [hp] at hend
      exact nomatch hend
  have hcon := h.connected
  unfold ConnectionKept
  unfold Connected at hcon
  cases heff : lastEffect requests w.trace with
  | none =>
    rw [heff] at hcon
    exact hcon
  | some e =>
    rw [heff] at hcon
    cases e with
    | disconnected => exact hcon
    | authorized i grant =>
      obtain ⟨conn, hsto, hrealm, hgrant, hlaps⟩ := hcon
      refine ⟨conn, hsto, hrealm, hgrant, ?_, fun hs => ?_, hlaps⟩
      · rcases h.rotation.storedNewest conn hsto with hnewest | ⟨j, t, hj, -⟩
        · rw [← hgrant, hnewest]
        · rw [hiss j] at hj
          exact nomatch hj
      · exact (h.rotation.storedRefused conn hsto hs).not_accepts

theorem lastEffect_cons_none {m : Made ι Call Call.Answer} (h : effectOf requests m = none)
    (trace : List (Made ι Call Call.Answer)) :
    lastEffect requests (m :: trace) = lastEffect requests trace :=
  List.findSome?_cons_of_isNone (by rw [h]; rfl)

theorem lastEffect_cons_some {m : Made ι Call Call.Answer} {e : Effect ι}
    (h : effectOf requests m = some e) (trace : List (Made ι Call Call.Answer)) :
    lastEffect requests (m :: trace) = some e := by
  unfold lastEffect
  rw [List.findSome?_cons, h]

theorem effectOf_save_none {i : ι} {c : QboConnection} {r : (Call.save c).Answer}
    (h : (requests i).realm? = none) : effectOf requests ⟨i, .save c, r⟩ = none := by
  show (if (requests i).realm?.isSome then _ else _) = _
  rw [h]
  rfl

theorem effectOf_save_some {i : ι} {c : QboConnection} {r : (Call.save c).Answer}
    (h : (requests i).realm?.isSome) :
    effectOf requests ⟨i, .save c, r⟩ = some (.authorized i c.refreshToken.grant) := if_pos h

variable [DecidableEq ι] {i : ι}

theorem rotation_update {intuit : Intuit} {stored : Option QboConnection} {locals : ι → Local}
    {s : Local} {held' : ι → Option QboConnection} {issued' : ι → Option RefreshToken}
    {refused' : ι → Bool} (hheld : Function.update (fun j => (locals j).held) i s.held = held')
    (hiss : Function.update (fun j => (locals j).issued) i s.issued = issued')
    (hrefd : Function.update (fun j => (locals j).refused) i s.refused = refused')
    (h : Rotation requests intuit stored held' issued' refused') :
    Rotation requests intuit stored (fun j => (Function.update locals i s j).held)
      (fun j => (Function.update locals i s j).issued)
      fun j => (Function.update locals i s j).refused := by
  rw [read_update Local.held, read_update Local.issued, read_update Local.refused, hheld, hiss,
    hrefd]
  exact h

theorem relies_exec (s : World) (c : Call) : discipline.relies c (exec c s).1 := by
  cases c with
  | refreshTokens t =>
    rcases s.intuit.refresh_cases t with ⟨-, href⟩ | ⟨-, href⟩
    · intro t' ht'
      have hanswer : (exec (.refreshTokens t) s).1 = none := congrArg Prod.fst href
      rw [hanswer] at ht'
      exact nomatch ht'
    · intro t' ht'
      have hanswer : (exec (.refreshTokens t) s).1 =
          some { t with generation := t.generation + 1 } := congrArg Prod.fst href
      have hsome : some { t with generation := t.generation + 1 } = some t' := hanswer ▸ ht'
      rw [← some.inj hsome]
  | get | save | delete | replaceIfRefreshToken | exchangeCode | revoke => trivial

theorem Inv.step (h : Inv w) (hguard : Guarded w i) : Inv (w.step i) := by
  have hdisc : Watched.Disciplined discipline (fun _ => Ends) (fun _ => Ends) (w.step i) :=
    h.disciplined.step (fun c => relies_exec _ c) i
  unfold Calls.step at hdisc ⊢
  rcases w.step_cases discipline exec i with ⟨-, hstep⟩ | ⟨c, k, hp, hstep⟩
  · rw [hstep]
    exact h
  have hmay := h.disciplined.may hp
  unfold Guarded at hguard
  rw [hp] at hguard
  rw [hstep] at hdisc ⊢
  have hreq {s : Local} (hs : s.request = (w.locals i).request) (j : ι) :
      (update w.locals i s j).request = requests j := by
    by_cases hj : j = i
    · rw [hj, update_self, hs]
      exact h.request i
    · rw [update_of_ne hj]
      exact h.request j
  cases c with
  | get =>
    refine ⟨hdisc, hreq rfl, ?_, ?_⟩
    · exact rotation_update rfl (update_eq_self ..) rfl h.rotation.get
    · show Connected requests (lastEffect requests (_ :: w.trace)) w.pool.state.stored
      rw [lastEffect_cons_none rfl]
      exact h.connected
  | save conn =>
    have hkind : (w.locals i).Saves conn := hmay
    unfold Local.Saves at hkind
    rw [h.request] at hkind
    rcases hkind with ⟨realmId, t, hrealm, hiss, hconn, rfl, hstatus⟩ |
      ⟨held, hrealm, hheld, hconn, hkind⟩
    · have hsome : (requests i).realm?.isSome := by
        rw [hrealm]
        rfl
      have hfst := h.rotation.issuedFirst i _ hiss hsome
      refine ⟨hdisc, hreq rfl, ?_, ?_⟩
      · refine rotation_update (update_eq_self ..) rfl (update_eq_self ..)
          (h.rotation.save hiss hstatus fun j c' hj hgrant => ?_)
        -- the token is the first of its authorization: no call has read one
        have hlt := h.rotation.heldOlder j c' i _ hj hiss hgrant.symm
        rw [hfst] at hlt
        exact absurd hlt (not_lt_zero _)
      · show Connected requests (lastEffect requests (_ :: w.trace)) (some conn)
        rw [lastEffect_cons_some (effectOf_save_some hsome)]
        refine ⟨conn, rfl, by rw [hrealm, hconn], rfl, fun hs => ?_⟩
        rw [hstatus] at hs
        exact nomatch hs
    · have hsame := hguard hrealm
      rw [hheld, map_some] at hsame
      obtain ⟨old, hsto, htoken⟩ := map_eq_some_iff.mp hsame
      have hreal : held.realmId = old.realmId :=
        h.rotation.heldRealm i held old hheld hsto (by rw [htoken])
      have hcon := h.connected
      rw [hsto] at hcon
      have hcarry (hgrant : conn.refreshToken.grant = held.refreshToken.grant)
          (hlaps : conn.status = .expired →
            ∃ j now, (requests j).lapsedAt? = some now ∧ conn.refreshExpiresAt ≤ now) :
          Connected requests (lastEffect requests (⟨i, .save conn, ()⟩ :: w.trace))
            (some conn) := by
        have heff : lastEffect requests (⟨i, .save conn, ()⟩ :: w.trace) =
            lastEffect requests w.trace := lastEffect_cons_none (effectOf_save_none hrealm) _
        rw [heff]
        exact hcon.replace (hconn.trans hreal) (by rw [hgrant, htoken]) hlaps
      rcases hkind with ⟨hiss, hgrant, hstatus⟩ | ⟨hiss, htoken', hstatus, hlaps⟩
      · refine ⟨hdisc, hreq rfl, ?_, hcarry hgrant fun hs => ?_⟩
        · refine rotation_update (update_eq_self ..) rfl (update_eq_self ..)
            (h.rotation.save hiss hstatus fun j c' hj heq => ?_)
          rw [hconn, hreal]
          exact h.rotation.heldRealm j c' old hj hsto (by rw [heq, hgrant, htoken])
        · rw [hstatus] at hs
          exact nomatch hs
      · refine ⟨hdisc, hreq rfl, ?_, hcarry (by rw [htoken']) fun _ => ?_⟩
        · have hiss' : update (fun j => (w.locals j).issued) i none =
              fun j => (w.locals j).issued := by
            rw [← hiss]
            exact update_eq_self ..
          refine rotation_update (update_eq_self ..) hiss' (update_eq_self ..)
            (h.rotation.rewrite hsto (htoken'.trans htoken.symm) (hconn.trans hreal) ?_)
          intro hs
          rw [hstatus] at hs
          exact nomatch hs
        · obtain ⟨now, hnow, hle⟩ := hlaps
          exact ⟨i, now, hnow, hle⟩
  | delete =>
    refine ⟨hdisc, hreq rfl, ?_, ?_⟩
    · exact rotation_update (update_eq_self ..) (update_eq_self ..)
        (update_eq_self ..) h.rotation.delete
    · show Connected requests (lastEffect requests (_ :: w.trace)) none
      rw [lastEffect_cons_some rfl]
      rfl
  | replaceIfRefreshToken expected conn =>
    obtain ⟨-, hrefd, held, hheld, rfl, rfl⟩ := hmay
    by_cases hcar : w.pool.state.Carries held.refreshToken
    · have hstate : (exec (.replaceIfRefreshToken held.refreshToken
          { held with status := .needsReconnect }) w.pool.state).2 =
            { w.pool.state with stored := some { held with status := .needsReconnect } } :=
        congrArg Prod.snd (if_pos hcar)
      obtain ⟨old, hsto, htoken⟩ := map_eq_some_iff.mp hcar
      have hrealm : held.realmId = old.realmId :=
        h.rotation.heldRealm i held old hheld hsto (by rw [htoken])
      refine ⟨hdisc, hreq rfl, ?_, ?_⟩
      · dsimp only
        rw [hstate]
        exact rotation_update (update_eq_self ..) (update_eq_self ..)
          (update_eq_self ..) (h.rotation.rewrite hsto htoken.symm hrealm fun _ =>
            h.rotation.heldRefused i held hheld hrefd)
      · show Connected requests (lastEffect requests (_ :: w.trace)) _
        rw [lastEffect_cons_none rfl]
        have hcon := h.connected
        rw [hsto] at hcon
        dsimp only
        rw [hstate]
        exact hcon.replace hrealm (by rw [htoken]) fun hs => nomatch hs
    · have hstate : (exec (.replaceIfRefreshToken held.refreshToken
          { held with status := .needsReconnect }) w.pool.state).2 = w.pool.state :=
        congrArg Prod.snd (if_neg hcar)
      refine ⟨hdisc, hreq rfl, ?_, ?_⟩
      · dsimp only
        rw [hstate]
        exact rotation_update (update_eq_self ..) (update_eq_self ..)
          (update_eq_self ..) h.rotation
      · show Connected requests (lastEffect requests (_ :: w.trace)) _
        rw [lastEffect_cons_none rfl]
        dsimp only
        rw [hstate]
        exact h.connected
  | exchangeCode =>
    refine ⟨hdisc, hreq rfl, ?_, ?_⟩
    · exact rotation_update (update_eq_self ..) rfl rfl (h.rotation.authorize hmay.1)
    · show Connected requests (lastEffect requests (_ :: w.trace)) w.pool.state.stored
      rw [lastEffect_cons_none rfl]
      exact h.connected
  | refreshTokens t =>
    obtain ⟨hrealm, hiss, hheld⟩ := hmay
    rw [h.request] at hrealm
    refine ⟨hdisc, hreq rfl, ?_, ?_⟩
    · rcases w.pool.state.intuit.refresh_cases t with ⟨hnot, href⟩ | ⟨hacc, href⟩
      · have hanswer : (exec (.refreshTokens t) w.pool.state).1 = none :=
          congrArg Prod.fst href
        have hint : (exec (.refreshTokens t) w.pool.state).2.intuit = w.pool.state.intuit :=
          congrArg Prod.snd href
        have hstate : (exec (.refreshTokens t) w.pool.state).2.stored = w.pool.state.stored := rfl
        dsimp only
        rw [hint, hstate, hanswer]
        exact rotation_update (update_eq_self ..) rfl rfl
          (h.rotation.refuse hiss hheld hnot)
      · have hanswer : (exec (.refreshTokens t) w.pool.state).1 =
            some { t with generation := t.generation + 1 } := congrArg Prod.fst href
        have hint : (exec (.refreshTokens t) w.pool.state).2.intuit =
            { w.pool.state.intuit with
              newest := update w.pool.state.intuit.newest t.grant (t.generation + 1) } :=
          congrArg Prod.snd href
        have hstate : (exec (.refreshTokens t) w.pool.state).2.stored = w.pool.state.stored := rfl
        dsimp only
        rw [hint, hstate, hanswer]
        exact rotation_update (update_eq_self ..) rfl rfl
          (h.rotation.advance hiss hrealm hheld hacc)
    · show Connected requests (lastEffect requests (_ :: w.trace)) w.pool.state.stored
      rw [lastEffect_cons_none rfl]
      exact h.connected
  | revoke t arrives =>
    cases arrives with
    | false =>
      refine ⟨hdisc, hreq rfl, ?_, ?_⟩
      · exact rotation_update (update_eq_self ..) (update_eq_self ..)
          (update_eq_self ..) h.rotation
      · show Connected requests (lastEffect requests (_ :: w.trace)) w.pool.state.stored
        rw [lastEffect_cons_none rfl]
        exact h.connected
    | true =>
      refine ⟨hdisc, hreq rfl, ?_, ?_⟩
      · exact rotation_update (update_eq_self ..) (update_eq_self ..)
          (update_eq_self ..) (h.rotation.revoke t)
      · show Connected requests (lastEffect requests (_ :: w.trace)) w.pool.state.stored
        rw [lastEffect_cons_none rfl]
        exact h.connected

/-- However the steps are ordered: when all calls have ended, nothing is stored after a disconnect,
and after an authorization its connection with the newest refresh token, as long as each refreshed
or expired connection is saved over the refresh token that its call had read. -/
theorem connection_kept (requests : ι → Request) (sched : List ι)
    (h : EachStep Calls.step Guarded (Calls.start requests) sched) :
    Along Calls.step (fun w => (∀ i, (w.pool.proc i).ended) → ConnectionKept w)
      (Calls.start requests) sched := by
  have hrun : ∀ (w : Calls requests) (sched : List ι), Inv w → EachStep Calls.step Guarded w sched →
      Along Calls.step (fun w => (∀ i, (w.pool.proc i).ended) → ConnectionKept w) w sched := by
    intro w sched
    induction sched generalizing w with
    | nil => exact fun hinv _ => along_nil.mpr hinv.kept
    | cons i sched ih =>
      intro hinv hgrd
      obtain ⟨hguard, hrest⟩ := eachStep_cons.mp hgrd
      exact along_cons.mpr ⟨hinv.kept, ih _ (hinv.step hguard) hrest⟩
  exact hrun _ sched inv_start h

end

namespace Sample

def issue : Issue := ⟨"access", 3600, 8640000⟩

/-- A connection is authorized, refreshed an hour later, and taken down. -/
def requests : Fin 3 → Request
  | 0 => .complete none none "9130" 100 100 issue
  | 1 => .ensureFresh 300 ⟨4000, 4000, 4000, 4001⟩ issue
  | 2 => .disconnect true

theorem connection_kept_sample :
    EachStep Calls.step Guarded (Calls.start requests) [0, 0, 1, 1, 1, 1, 2, 2, 2] ∧
      Along Calls.step (fun w => (∀ i, (w.pool.proc i).ended) → ConnectionKept w)
        (Calls.start requests) [0, 0, 1, 1, 1, 1, 2, 2, 2] := by
  have hgrd : EachStep Calls.step Guarded (Calls.start requests)
      [0, 0, 1, 1, 1, 1, 2, 2, 2] := by
    have haut : Guarded (Calls.start requests |>.step 0) 0 :=
      fun h => nomatch (h : some "9130" = none)
    have hrefr : Guarded ([0, 0, 1, 1, 1].foldl Calls.step (Calls.start requests)) 1 :=
      fun _ => rfl
    refine eachStep_cons.mpr ⟨trivial, eachStep_cons.mpr ⟨haut, ?_⟩⟩
    refine eachStep_cons.mpr ⟨trivial, eachStep_cons.mpr ⟨trivial, eachStep_cons.mpr ⟨trivial, ?_⟩⟩⟩
    refine eachStep_cons.mpr ⟨hrefr, eachStep_cons.mpr ⟨trivial, ?_⟩⟩
    exact eachStep_cons.mpr ⟨trivial, eachStep_cons.mpr ⟨trivial, eachStep_nil⟩⟩
  exact ⟨hgrd, connection_kept requests _ hgrd⟩

theorem disconnected_comes_back :
    ¬ Along Calls.step (fun w => (∀ i, (w.pool.proc i).ended) → ConnectionKept w)
      (Calls.start requests) [0, 0, 1, 1, 1, 2, 2, 2, 1] := by
  intro h
  have hkept := h _ List.prefix_rfl fun i => match i with | 0 => rfl | 1 => rfl | 2 => rfl
  have hsto : some (connectionFromTokens "9130" ⟨0, 1⟩ issue 4001 (some 100)) = none := hkept
  exact nomatch hsto

end Sample
end Rgnr8.Platform.QboConnect
