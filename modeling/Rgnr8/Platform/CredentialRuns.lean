import Rgnr8.Lib.Watched
import Rgnr8.Platform.Credentials

/-! The calls of the password login, their steps in any order. -/

namespace Rgnr8.Platform.Auth
open Lib Lib.Py Prog

inductive Request where
  | signup (email password salt token : String) (now tokenNow : Int)
  | verifyEmail (token : String) (now : Int)
  | login (email password : String)
  | requestPasswordReset (email token : String) (now : Int)
  | resetPassword (token newPassword salt : String) (now : Int)

namespace Request

def Result : Request → Type
  | .signup .. => Credential × String
  | .verifyEmail .. | .resetPassword .. => Bool
  | .login .. | .requestPasswordReset .. => Option String

def program (cfg : AuthConfig) : (r : Request) → Service r.Result
  | .signup email password salt token now tokenNow =>
    Auth.signup cfg email password salt token now tokenNow
  | .verifyEmail token now => Auth.verifyEmail cfg token now
  | .login email password => Auth.login cfg email password
  | .requestPasswordReset email token now => Auth.requestPasswordReset cfg email token now
  | .resetPassword token newPassword salt now =>
    Auth.resetPassword cfg token newPassword salt now

def mints : Request → Option String
  | .signup _ _ _ token _ _ | .requestPasswordReset _ token _ => some token
  | _ => none

def redeems : Request → Option (TokenPurpose × String)
  | .verifyEmail token _ => some (.verifyEmail, token)
  | .resetPassword token _ _ _ => some (.passwordReset, token)
  | _ => none

def registers (cfg : AuthConfig) : Request → Option Credential
  | .signup email password salt _ now _ => some (newCredential cfg email password salt now)
  | _ => none

def change (cfg : AuthConfig) : Request → Credential → Credential
  | .resetPassword _ newPassword salt _, cred =>
    { cred with passwordHash := cfg.hasher.hash newPassword salt, verified := true }
  | _, cred => { cred with verified := true }

def sets : Request → Option String
  | .signup _ password _ _ _ _ => some password
  | .resetPassword _ newPassword _ _ => some newPassword
  | _ => none

def hashed (cfg : AuthConfig) : Request → Option String
  | .signup _ password salt _ _ _ => some (cfg.hasher.hash password salt)
  | .resetPassword _ newPassword salt _ => some (cfg.hasher.hash newPassword salt)
  | _ => none

def isReset : Request → Bool
  | .resetPassword .. => true
  | _ => false

@[simp] theorem change_userId (cfg : AuthConfig) (r : Request) (cred : Credential) :
    (r.change cfg cred).userId = cred.userId := by
  cases r <;> rfl

@[simp] theorem change_email (cfg : AuthConfig) (r : Request) (cred : Credential) :
    (r.change cfg cred).email = cred.email := by
  cases r <;> rfl

variable {cfg : AuthConfig} {cred : Credential} {r : Request}

theorem hashed_of_registers (h : r.registers cfg = some cred) :
    r.hashed cfg = some cred.passwordHash := by
  cases r with
  | signup => exact congrArg (Option.map Credential.passwordHash) h
  | verifyEmail | login | requestPasswordReset | resetPassword => exact nomatch h

theorem redeems_of_registers (h : r.registers cfg = some cred) : r.redeems = none := by
  cases r with
  | signup => rfl
  | verifyEmail | login | requestPasswordReset | resetPassword => exact nomatch h

theorem fields_of_registers (h : r.registers cfg = some cred) :
    cred.email = cred.userId ∧ cred.verified = false := by
  cases r with
  | signup =>
    obtain rfl := Option.some.inj h
    exact ⟨rfl, rfl⟩
  | verifyEmail | login | requestPasswordReset | resetPassword => exact nomatch h

theorem not_reset_of_registers (h : r.registers cfg = some cred) : r.isReset = false := by
  cases r with
  | signup => rfl
  | verifyEmail | login | requestPasswordReset | resetPassword => exact nomatch h

theorem sets_of_hashed {hash : String} (h : r.hashed cfg = some hash) :
    ∃ password, r.sets = some password ∧
      ∀ given, cfg.hasher.verify given hash = true ↔ given = password := by
  cases r with
  | signup email password salt =>
    obtain rfl := Option.some.inj h
    exact ⟨password, rfl, cfg.hasher.verify_hash password salt⟩
  | resetPassword token newPassword salt =>
    obtain rfl := Option.some.inj h
    exact ⟨newPassword, rfl, cfg.hasher.verify_hash newPassword salt⟩
  | verifyEmail | login | requestPasswordReset => exact nomatch h

end Request

/-- What a call has read and done so far. -/
structure Local where
  request : Request
  token : Option VerificationToken := none
  cred : Option Credential := none
  won : Bool := false
  saved : Bool := false
  minted : Bool := false

namespace Local

variable (s : Local)

def sawToken (token : Option VerificationToken) : Local := { s with token }

def sawCredential (cred : Option Credential) : Local := { s with cred }

def consumed (won : Bool) : Local := { s with won }

def save : Local := { s with saved := true }

def mint : Local := { s with minted := true }

def Holds (tok : VerificationToken) (cred : Credential) : Prop :=
  s.token = some tok ∧ s.cred = some cred ∧ cred.userId = tok.userId ∧
    s.request.redeems = some (tok.purpose, tok.token)

def target : Option String :=
  if s.won then s.cred.map Credential.userId else none

theorem target_of_won {s : Local} {tok : VerificationToken} {cred : Credential}
    (hwon : s.won = true) (hholds : s.Holds tok cred) : s.target = some cred.userId := by
  unfold target
  rw [if_pos hwon, hholds.2.1, Option.map_some]

theorem target_of_not_won {s : Local} (hwon : s.won = false) : s.target = none := by
  unfold target
  rw [hwon]
  rfl

end Local

def discipline (cfg : AuthConfig) : Discipline Call Call.Answer Local where
  after s
    | .getByEmail _, r | .getByUserId _, r => s.sawCredential r
    | .getToken _, r => s.sawToken r
    | .consume _, r => s.consumed r
    | .saveCredential _, _ => s.save
    | .saveToken _, _ => s.mint
    | .record _, _ => s
  may s
    | .getByEmail _ => s.won = false ∧ s.saved = false
    | .getToken _ => s.won = false
    | .getByUserId userId => s.won = false ∧ ∃ tok, s.token = some tok ∧ tok.userId = userId ∧
        s.request.redeems = some (tok.purpose, tok.token)
    | .consume token => s.won = false ∧ s.saved = false ∧
        ∃ tok cred, tok.token = token ∧ s.Holds tok cred
    | .saveCredential c => s.saved = false ∧
        (s.request.registers cfg = some c ∨
          s.won = true ∧ ∃ cred, s.cred = some cred ∧ c = s.request.change cfg cred)
    | .saveToken tok => s.minted = false ∧ s.request.mints = some tok.token ∧ tok.consumed = false
    | .record _ => True
  relies
    | .getByUserId userId, r => ∀ c, r = some c → c.userId = userId
    | .getToken token, r => ∀ tok, r = some tok → tok.token = token
    | _, _ => True

/-- A call that has consumed its token has saved the credential when it returns. -/
abbrev Saved {α : Type} (s : Local) (_ : α) : Prop := s.won = true → s.saved = true

def Request.Returns (cfg : AuthConfig) : (r : Request) → Local → r.Result → Prop
  | .login _ password => fun s subject => ∀ userId, subject = some userId →
      ∃ cred, s.cred = some cred ∧ cred.userId = userId ∧ cred.verified = true ∧
        cfg.hasher.verify password cred.passwordHash = true
  | .signup .. | .verifyEmail .. | .requestPasswordReset .. | .resetPassword .. => Saved

theorem Request.Returns.saved {cfg : AuthConfig} {r : Request} {s : Local} {a : r.Result}
    (h : r.Returns cfg s a) (hred : r.redeems ≠ none) (hwon : s.won = true) :
    s.saved = true := by
  cases r with
  | login => exact absurd rfl hred
  | signup | verifyEmail | requestPasswordReset | resetPassword => exact h hwon

def Request.subject : (r : Request) → r.Result → Option String
  | .login .., subject => subject
  | .signup .., _ | .verifyEmail .., _ | .requestPasswordReset .., _ | .resetPassword .., _ => none

theorem Request.Returns.subject {cfg : AuthConfig} {r : Request} {s : Local} {a : r.Result}
    {userId : String} (h : r.Returns cfg s a) (hsub : r.subject a = some userId) :
    ∃ cred, s.cred = some cred ∧ cred.userId = userId ∧ cred.verified = true := by
  cases r with
  | login email password =>
    obtain ⟨cred, hcred, hid, hver, -⟩ := h userId hsub
    exact ⟨cred, hcred, hid, hver⟩
  | signup | verifyEmail | requestPasswordReset | resetPassword => exact nomatch hsub

def Throws (s : Local) (_ : AuthError) : Prop := s.won = false

section
variable {cfg : AuthConfig}

theorem follows_andRecord {α : Type} {returns : Local → α → Prop} {s : Local} {r : AuditRecord}
    {a : α} (h : returns s a) :
    (andRecord cfg r a).Follows (discipline cfg) returns Throws s := by
  unfold andRecord
  split_ifs with haud
  · exact ⟨trivial, fun _ _ => h⟩
  · exact h

variable {now : Int} {email token : String}

theorem follows_applyToken {action : String} {tok : VerificationToken} {r : Request}
    (hred : r.redeems = some (tok.purpose, tok.token)) :
    (applyToken cfg now action tok (r.change cfg)).Follows (discipline cfg)
      Saved Throws { request := r, token := some tok } := by
  refine ⟨⟨rfl, tok, rfl, rfl, hred⟩, fun found hfound => ?_⟩
  cases found with
  | none => exact fun h => nomatch h
  | some cred =>
    have huser : cred.userId = tok.userId := hfound cred rfl
    refine ⟨⟨rfl, rfl, tok, cred, rfl, rfl, rfl, huser, hred⟩, fun won _ => ?_⟩
    cases won with
    | false => exact fun h => nomatch h
    | true =>
      refine ⟨⟨rfl, .inr ⟨rfl, cred, rfl, rfl⟩⟩, fun _ _ => ?_⟩
      apply follows_andRecord
      exact fun _ => rfl

theorem follows_verifyEmail : (verifyEmail cfg token now).Follows (discipline cfg) Saved Throws
      { request := .verifyEmail token now } := by
  unfold verifyEmail
  refine ⟨rfl, fun found hfound => ?_⟩
  cases found with
  | none => exact fun h => nomatch h
  | some tok =>
    have htoken : tok.token = token := hfound tok rfl
    refine follows_ite (fun _ h => nomatch h) fun hgood => ?_
    refine follows_ite (fun _ h => nomatch h) fun _ => ?_
    rw [not_or, not_not] at hgood
    have hred : (Request.verifyEmail token now).redeems = some (tok.purpose, tok.token) := by
      rw [hgood.1, htoken]
      rfl
    exact follows_applyToken hred

theorem follows_resetPassword {newPassword salt : String} :
    (resetPassword cfg token newPassword salt now).Follows (discipline cfg) Saved Throws
      { request := .resetPassword token newPassword salt now } := by
  unfold resetPassword
  refine ⟨rfl, fun found hfound => ?_⟩
  cases found with
  | none => exact fun h => nomatch h
  | some tok =>
    have htoken : tok.token = token := hfound tok rfl
    refine follows_ite (fun _ h => nomatch h) fun hgood => ?_
    refine follows_ite (fun _ h => nomatch h) fun _ => ?_
    refine follows_ite (fun _ h => nomatch h) fun _ => ?_
    rw [not_or, not_not] at hgood
    have hred : (Request.resetPassword token newPassword salt now).redeems =
        some (tok.purpose, tok.token) := by
      rw [hgood.1, htoken]
      rfl
    exact follows_applyToken hred

theorem follows_requestPasswordReset :
    (requestPasswordReset cfg email token now).Follows (discipline cfg) Saved Throws
      { request := .requestPasswordReset email token now } := by
  unfold requestPasswordReset
  refine ⟨⟨rfl, rfl⟩, fun found _ => ?_⟩
  cases found with
  | none => exact fun h => nomatch h
  | some cred => exact ⟨⟨rfl, rfl, rfl⟩, fun _ _ h => nomatch h⟩

theorem follows_login {password : String} : (login cfg email password).Follows (discipline cfg)
      ((Request.login email password).Returns cfg) Throws
      { request := .login email password } := by
  unfold login
  refine ⟨⟨rfl, rfl⟩, fun found _ => ?_⟩
  cases found with
  | none => exact fun _ h => nomatch h
  | some cred =>
    refine follows_ite (fun _ _ h => nomatch h) fun hvrf => ?_
    refine follows_ite (fun _ _ h => nomatch h) fun hver => ?_
    exact fun userId h =>
      ⟨cred, rfl, Option.some.inj h, not_not.mp hver, not_not.mp hvrf⟩

-- what a signup does depends on the address stripped, which is not to be computed
attribute [local irreducible] Prog.Follows

theorem follows_signup {password salt : String} {tokenNow : Int} :
    (signup cfg email password salt token now tokenNow).Follows (discipline cfg) Saved Throws
      { request := .signup email password salt token now tokenNow } := by
  unfold signup
  refine follows_ite (fun _ => follows_throw rfl) fun _ => ?_
  refine follows_ite (fun _ => follows_throw rfl) fun _ => ?_
  refine follows_call ⟨rfl, rfl⟩ fun found _ => ?_
  cases found with
  | some cred => exact follows_throw rfl
  | none =>
    refine follows_call ⟨rfl, .inl rfl⟩ fun _ _ => ?_
    refine follows_call ⟨rfl, rfl, rfl⟩ fun _ _ => ?_
    apply follows_andRecord
    exact fun _ => rfl

theorem follows_program (r : Request) :
    (r.program cfg).Follows (discipline cfg) (r.Returns cfg) Throws { request := r } := by
  cases r with
  | signup => exact follows_signup
  | verifyEmail => exact follows_verifyEmail
  | login => exact follows_login
  | requestPasswordReset => exact follows_requestPasswordReset
  | resetPassword => exact follows_resetPassword

end
end Rgnr8.Platform.Auth
