import Rgnr8.Lib.OrderedMap
import Rgnr8.Lib.Program
import Rgnr8.Lib.Python

/-! Password login. Verifying an email and resetting a password read the whole credential, consume
the token in one step, and then write the whole credential back. -/

namespace Rgnr8.Platform.Auth
open Lib Lib.Py OrderedMap Option

structure PasswordHasher where
  hash : String → String → String
  verify : String → String → Bool
  verify_hash : ∀ password salt given, verify given (hash password salt) = true ↔ given = password

structure Credential where
  userId : String
  email : String
  passwordHash : String
  verified : Bool := false
  createdAt : Int := 0

inductive TokenPurpose where
  | verifyEmail | passwordReset
  deriving DecidableEq

structure VerificationToken where
  token : String
  userId : String
  email : String
  purpose : TokenPurpose
  createdAt : Int := 0
  expiresAt : Int := 0
  consumed : Bool := false

def VerificationToken.isExpired (tok : VerificationToken) (now : Int) : Bool :=
  tok.expiresAt ≠ 0 ∧ now ≥ tok.expiresAt

/-! The stores. -/

inductive Backing where
  | memory | sql

/-- The index by address is the in-memory store's; the table has none. -/
structure CredentialStore where
  byId : OrderedMap String Credential
  byEmail : OrderedMap String String

namespace CredentialStore

def empty : CredentialStore := ⟨OrderedMap.empty, OrderedMap.empty⟩

def getByUserId (s : CredentialStore) (userId : String) : Option Credential := s.byId.get? userId

def getByEmail (b : Backing) (lower : String → String) (s : CredentialStore) (email : String) :
    Option Credential :=
  match b with
  | .memory => (s.byEmail.get? (lower email)).bind s.byId.get?
  | .sql => s.byId.values.find? fun c => lower c.email = lower email

/-- What a save leaves. On a conflict the table keeps the time of creation. -/
def written (b : Backing) (stored : Option Credential) (c : Credential) : Credential :=
  match b, stored with
  | .sql, some old => { c with createdAt := old.createdAt }
  | _, _ => c

def save (b : Backing) (lower : String → String) (s : CredentialStore) (c : Credential) :
    CredentialStore where
  byId := s.byId.set c.userId (written b (s.getByUserId c.userId) c)
  byEmail := match b with
    | .memory => s.byEmail.set (lower c.email) c.userId
    | .sql => s.byEmail

end CredentialStore

structure TokenStore where
  rows : OrderedMap String VerificationToken
  keyed : ∀ token tok, rows.get? token = some tok → tok.token = token

namespace TokenStore

def empty : TokenStore := ⟨OrderedMap.empty, fun _ _ h => nomatch h⟩

def get (s : TokenStore) (token : String) : Option VerificationToken := s.rows.get? token

variable (s : TokenStore)

def put (tok : VerificationToken) : TokenStore where
  rows := s.rows.set tok.token tok
  keyed := by
    intro token tok' h
    by_cases htoken : token = tok.token
    · subst htoken
      rw [OrderedMap.get?_set_self, Option.some.injEq] at h
      rw [← h]
    · rw [OrderedMap.get?_set_ne _ _ htoken] at h
      exact s.keyed _ _ h

theorem get_put_self (tok : VerificationToken) :
    (s.put tok).get tok.token = some tok := get?_set_self ..

theorem get_put_ne {tok : VerificationToken} {token : String} (h : token ≠ tok.token) :
    (s.put tok).get token = s.get token := get?_set_ne _ _ h

/-- On a conflict the table takes the flag alone. -/
def save (b : Backing) (s : TokenStore) (tok : VerificationToken) : TokenStore :=
  match b, s.get tok.token with
  | .sql, some old => s.put { old with consumed := tok.consumed }
  | _, _ => s.put tok

/-- The single-use gate: true for the one call that flips the flag. -/
def consume (token : String) : Bool × TokenStore :=
  match s.get token with
  | none => (false, s)
  | some tok => if tok.consumed then (false, s) else (true, s.put { tok with consumed := true })

end TokenStore

structure AuditRecord where
  actor : String
  action : String
  at_ : Int
  target : String

/-! The service. -/

structure Stores where
  credentials : CredentialStore
  tokens : TokenStore
  audit : List AuditRecord

def Stores.empty : Stores := ⟨CredentialStore.empty, TokenStore.empty, []⟩

inductive Call where
  | getByEmail (email : String)
  | getByUserId (userId : String)
  | saveCredential (c : Credential)
  | getToken (token : String)
  | saveToken (tok : VerificationToken)
  | consume (token : String)
  | record (r : AuditRecord)

def Call.Answer : Call → Type
  | .getByEmail _ | .getByUserId _ => Option Credential
  | .getToken _ => Option VerificationToken
  | .consume _ => Bool
  | .saveCredential _ | .saveToken _ | .record _ => Unit

def exec (b : Backing) (lower : String → String) : (c : Call) → Stores → c.Answer × Stores
  | .getByEmail email, s => (s.credentials.getByEmail b lower email, s)
  | .getByUserId userId, s => (s.credentials.getByUserId userId, s)
  | .saveCredential c, s => ((), { s with credentials := s.credentials.save b lower c })
  | .getToken token, s => (s.tokens.get token, s)
  | .saveToken tok, s => ((), { s with tokens := s.tokens.save b tok })
  | .consume token, s =>
    ((s.tokens.consume token).1, { s with tokens := (s.tokens.consume token).2 })
  | .record r, s => ((), { s with audit := s.audit ++ [r] })

inductive AuthError where
  | invalidEmail | weakPassword (minLength : Nat) | registered

def AuthError.text : AuthError → String
  | .invalidEmail => "a valid email is required"
  | .weakPassword minLength => "password must be at least " ++ toString minLength ++ " characters"
  | .registered => "that email is already registered"

abbrev Service (α : Type) := Prog Call Call.Answer AuthError α

structure AuthConfig where
  hasher : PasswordHasher
  audited : Bool
  minPasswordLength : Nat
  verifyTtl : Int
  resetTtl : Int

variable (cfg : AuthConfig)

def andRecord {α : Type} (r : AuditRecord) (a : α) : Service α :=
  if cfg.audited then .call (.record r) fun _ => .ret a else .ret a

/-- The token that `_issue_token` saves. -/
def newToken (cred : Credential) (purpose : TokenPurpose) (ttl : Int) (token : String)
    (now : Int) : VerificationToken :=
  { token, userId := cred.userId, email := cred.email, purpose
    createdAt := now, expiresAt := now + ttl }

/-- The credential that `signup` saves. -/
def newCredential (email password salt : String) (now : Int) : Credential :=
  { userId := strip email, email := strip email, passwordHash := cfg.hasher.hash password salt
    createdAt := now }

def signup (cfg : AuthConfig) (email password salt token : String) (now tokenNow : Int) :
    Service (Credential × String) :=
  if '@' ∉ (strip email).toList then .throw .invalidEmail
  else if password.length < cfg.minPasswordLength then
    .throw (.weakPassword cfg.minPasswordLength)
  else
    .call (.getByEmail (strip email)) fun found =>
      match found with
      | some _ => .throw .registered
      | none =>
        let cred := newCredential cfg email password salt now
        .call (.saveCredential cred) fun _ =>
          .call (.saveToken (newToken cred .verifyEmail cfg.verifyTtl token tokenNow)) fun _ =>
            andRecord cfg ⟨cred.userId, "user.signup", now, strip email⟩ (cred, token)

/-- `verify_email` and `reset_password` once the token is good: read the credential, consume the
token, and save the credential changed. -/
def applyToken (now : Int) (action : String) (tok : VerificationToken)
    (change : Credential → Credential) : Service Bool :=
  .call (.getByUserId tok.userId) fun found =>
    match found with
    | none => .ret false
    | some cred =>
      .call (.consume tok.token) fun won =>
        match won with
        | false => .ret false
        | true =>
          .call (.saveCredential (change cred)) fun _ =>
            andRecord cfg ⟨cred.userId, action, now, cred.email⟩ true

def verifyEmail (cfg : AuthConfig) (token : String) (now : Int) : Service Bool :=
  .call (.getToken token) fun found =>
    match found with
    | none => .ret false
    | some tok =>
      if tok.purpose ≠ .verifyEmail ∨ tok.consumed then .ret false
      else if tok.isExpired now then .ret false
      else applyToken cfg now "user.verified" tok fun cred => { cred with verified := true }

def login (email password : String) : Service (Option String) :=
  .call (.getByEmail email) fun found =>
    match found with
    | none => .ret none
    | some cred =>
      if ¬ cfg.hasher.verify password cred.passwordHash then .ret none
      else if ¬ cred.verified then .ret none
      else .ret (some cred.userId)

def requestPasswordReset (email token : String) (now : Int) : Service (Option String) :=
  .call (.getByEmail email) fun found =>
    match found with
    | none => .ret none
    | some cred =>
      .call (.saveToken (newToken cred .passwordReset cfg.resetTtl token now)) fun _ =>
        .ret (some token)

def resetPassword (token newPassword salt : String) (now : Int) : Service Bool :=
  .call (.getToken token) fun found =>
    match found with
    | none => .ret false
    | some tok =>
      if tok.purpose ≠ .passwordReset ∨ tok.consumed then .ret false
      else if tok.isExpired now then .ret false
      else if newPassword.length < cfg.minPasswordLength then .ret false
      else applyToken cfg now "password.reset" tok fun cred =>
        { cred with passwordHash := cfg.hasher.hash newPassword salt, verified := true }

/-! What the stores hold. -/

namespace CredentialStore
variable {b : Backing} {lower : String → String} {s : CredentialStore}
variable (stored : Option Credential)

@[simp] theorem written_userId (c : Credential) : (written b stored c).userId = c.userId := by
  cases b <;> cases stored <;> rfl

@[simp] theorem written_email (c : Credential) : (written b stored c).email = c.email := by
  cases b <;> cases stored <;> rfl

@[simp] theorem written_passwordHash (c : Credential) :
    (written b stored c).passwordHash = c.passwordHash := by
  cases b <;> cases stored <;> rfl

@[simp] theorem written_verified (c : Credential) : (written b stored c).verified = c.verified := by
  cases b <;> cases stored <;> rfl

theorem getByUserId_save_self (s : CredentialStore) (b : Backing) (lower : String → String)
    (c : Credential) : (s.save b lower c).getByUserId c.userId =
      some (written b (s.getByUserId c.userId) c) := get?_set_self ..

variable {c : Credential}

theorem getByUserId_save_ne {userId : String} (h : userId ≠ c.userId) :
    (s.save b lower c).getByUserId userId = s.getByUserId userId := get?_set_ne _ _ h

/-- Each credential is under its address, and no two addresses differ in case alone. -/
structure Registered (b : Backing) (lower : String → String) (s : CredentialStore) : Prop where
  keyed : ∀ userId c, s.getByUserId userId = some c → c.userId = userId ∧ c.email = userId
  one : ∀ u c u' c', s.getByUserId u = some c → s.getByUserId u' = some c' →
    lower u = lower u' → u = u'
  indexed : b = .memory → ∀ key u,
    s.byEmail.get? key = some u ↔ lower u = key ∧ (s.getByUserId u).isSome

theorem registered_empty : Registered b lower empty where
  keyed _ _ h := nomatch h
  one _ _ _ _ h := nomatch h
  indexed _ _ _ := iff_of_false nofun fun h => nomatch h.2

theorem Registered.getByEmail_iff (h : s.Registered b lower) {email : String} :
    s.getByEmail b lower email = some c ↔
      s.getByUserId c.userId = some c ∧ lower c.userId = lower email := by
  cases b with
  | memory =>
    unfold getByEmail
    constructor
    · intro hfound
      obtain ⟨u, hidx, hget⟩ := bind_eq_some_iff.mp hfound
      have hu : c.userId = u := (h.keyed u c hget).1
      rw [hu]
      exact ⟨hget, ((h.indexed rfl _ _).mp hidx).1⟩
    · rintro ⟨hget, hlower⟩
      refine bind_eq_some_iff.mpr ⟨c.userId, (h.indexed rfl _ _).mpr ⟨hlower, ?_⟩, hget⟩
      rw [hget]
      rfl
  | sql =>
    unfold getByEmail
    constructor
    · intro hfound
      have hlower := List.find?_some hfound
      obtain ⟨e, he, rfl⟩ := List.mem_map.mp (List.mem_of_find?_eq_some hfound)
      have hget : s.getByUserId e.1 = some e.2 := mem_entries.mp he
      obtain ⟨hid, hemail⟩ := h.keyed _ _ hget
      rw [hid]
      rw [decide_eq_true_iff, hemail] at hlower
      exact ⟨hget, hlower⟩
    · rintro ⟨hget, hlower⟩
      have hmem : c ∈ s.byId.values :=
        List.mem_map.mpr ⟨(c.userId, c), mem_entries.mpr hget, rfl⟩
      have hemail : lower c.email = lower email := by rw [(h.keyed _ _ hget).2, hlower]
      cases hfound : s.byId.values.find? fun c => lower c.email = lower email with
      | none =>
        have hnot := List.find?_eq_none.mp hfound c hmem
        exact absurd (decide_eq_true hemail) hnot
      | some c' =>
        have hlow' := List.find?_some hfound
        obtain ⟨e, he, rfl⟩ := List.mem_map.mp (List.mem_of_find?_eq_some hfound)
        have hget' : s.getByUserId e.1 = some e.2 := mem_entries.mp he
        rw [decide_eq_true_iff, (h.keyed _ _ hget').2] at hlow'
        have hsame := h.one _ _ _ _ hget' hget (hlow'.trans hlower.symm)
        rw [hsame] at hget'
        exact congrArg some (some.inj (hget'.symm.trans hget))

theorem Registered.getByEmail_eq_none (h : s.Registered b lower) {email : String}
    (hnone : s.getByEmail b lower email = none) {userId : String}
    (hget : s.getByUserId userId = some c) : lower userId ≠ lower email := by
  intro hlower
  have hid := (h.keyed _ _ hget).1
  have hfound : s.getByEmail b lower email = some c := by
    rw [h.getByEmail_iff, hid]
    exact ⟨hget, hlower⟩
  rw [hnone] at hfound
  exact nomatch hfound

theorem Registered.save (h : s.Registered b lower) (hemail : c.email = c.userId)
    (hknown : (s.getByUserId c.userId).isSome ∨ s.getByEmail b lower c.email = none) :
    (s.save b lower c).Registered b lower := by
  -- an address that differs from this one in case alone is this one
  have hone {u : String} {c' : Credential} (hget : s.getByUserId u = some c')
      (hlower : lower u = lower c.userId) : u = c.userId := by
    rcases hknown with hsome | hnone
    · obtain ⟨old, hold⟩ := isSome_iff_exists.mp hsome
      exact h.one _ _ _ _ hget hold hlower
    · rw [← hemail] at hlower
      exact absurd hlower (h.getByEmail_eq_none hnone hget)
  refine ⟨fun u c' hget => ?_, fun u c₁ u' c₂ hget hget' hlower => ?_, fun hb key u => ?_⟩
  · by_cases hu : u = c.userId
    · rw [hu, getByUserId_save_self, some.injEq] at hget
      rw [← hget, written_userId, written_email, hemail, hu]
      exact ⟨rfl, rfl⟩
    · rw [getByUserId_save_ne hu] at hget
      exact h.keyed u c' hget
  · by_cases hu : u = c.userId
    · by_cases hu' : u' = c.userId
      · rw [hu, hu']
      · rw [getByUserId_save_ne hu'] at hget'
        rw [hu] at hlower ⊢
        exact (hone hget' hlower.symm).symm
    · rw [getByUserId_save_ne hu] at hget
      by_cases hu' : u' = c.userId
      · rw [hu'] at hlower ⊢
        exact hone hget hlower
      · rw [getByUserId_save_ne hu'] at hget'
        exact h.one _ _ _ _ hget hget' hlower
  · subst hb
    have hidx : (s.save .memory lower c).byEmail = s.byEmail.set (lower c.email) c.userId := rfl
    rw [hidx, hemail]
    by_cases hu : u = c.userId
    · rw [hu, getByUserId_save_self]
      by_cases hkey : key = lower c.userId
      · rw [hkey, get?_set_self]
        exact iff_of_true rfl ⟨rfl, rfl⟩
      · rw [get?_set_ne _ _ hkey, h.indexed rfl]
        exact iff_of_false (fun h => hkey h.1.symm) fun h => hkey h.1.symm
    · rw [getByUserId_save_ne hu]
      by_cases hkey : key = lower c.userId
      · rw [hkey, get?_set_self, some.injEq]
        refine iff_of_false (fun heq => hu heq.symm) fun ⟨hlower, hsome⟩ => ?_
        obtain ⟨c', hget⟩ := isSome_iff_exists.mp hsome
        exact hu (hone hget hlower)
      · rw [get?_set_ne _ _ hkey]
        exact h.indexed rfl key u

end CredentialStore

namespace TokenStore
variable {s : TokenStore} {token : String}

theorem consume_cases (s : TokenStore) (token : String) :
    s.consume token = (false, s) ∨ ∃ tok, s.get token = some tok ∧ tok.consumed = false ∧
      s.consume token = (true, s.put { tok with consumed := true }) := by
  unfold consume
  cases hget : s.get token with
  | none => exact .inl rfl
  | some tok =>
    cases hcons : tok.consumed with
    | true => exact .inl (by simp only [hcons, if_pos])
    | false => exact .inr ⟨tok, rfl, hcons, by simp [hcons]⟩

variable {tok : VerificationToken}

theorem save_of_fresh {b : Backing} (h : s.get tok.token = none) : s.save b tok = s.put tok := by
  unfold save
  rw [h]
  cases b <;> rfl

def Issued (s : TokenStore) (tok : VerificationToken) : Prop :=
  ∃ stored, s.get tok.token = some stored ∧ stored.purpose = tok.purpose ∧
    stored.userId = tok.userId

def Spent (s : TokenStore) (token : String) : Prop :=
  ∃ stored, s.get token = some stored ∧ stored.consumed = true

def Extends (s s' : TokenStore) : Prop :=
  ∀ token tok, s.get token = some tok → ∃ tok', s'.get token = some tok' ∧
    tok'.purpose = tok.purpose ∧ tok'.userId = tok.userId ∧
    (tok.consumed = true → tok'.consumed = true)

theorem Extends.issued {s' : TokenStore} (h : s.Extends s') (hiss : s.Issued tok) :
    s'.Issued tok := by
  obtain ⟨stored, hget, hpur, huser⟩ := hiss
  obtain ⟨stored', hget', hpur', huser', -⟩ := h _ _ hget
  exact ⟨stored', hget', hpur'.trans hpur, huser'.trans huser⟩

theorem Extends.spent {s' : TokenStore} (h : s.Extends s') (hspent : s.Spent token) :
    s'.Spent token := by
  obtain ⟨stored, hget, hcons⟩ := hspent
  obtain ⟨stored', hget', -, -, hcons'⟩ := h _ _ hget
  exact ⟨stored', hget', hcons' hcons⟩

theorem extends_put_of_fresh (h : s.get tok.token = none) : s.Extends (s.put tok) := by
  intro token tok' hget
  have hne : token ≠ tok.token := by
    intro heq
    rw [heq, h] at hget
    exact nomatch hget
  exact ⟨tok', (get_put_ne s hne).trans hget, rfl, rfl, id⟩

theorem extends_put_consumed (h : s.get token = some tok) :
    s.Extends (s.put { tok with consumed := true }) := by
  intro token' tok' hget
  by_cases heq : token' = tok.token
  · have htoken : tok.token = token := s.keyed _ _ h
    rw [heq, htoken, h, some.injEq] at hget
    subst hget
    rw [heq]
    exact ⟨_, get_put_self s _, rfl, rfl, fun _ => rfl⟩
  · refine ⟨tok', ?_, rfl, rfl, id⟩
    rw [← hget]
    exact get_put_ne s heq

end TokenStore

end Rgnr8.Platform.Auth
