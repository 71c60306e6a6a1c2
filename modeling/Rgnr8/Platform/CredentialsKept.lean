import Rgnr8.Platform.CredentialRaces

/-! What the calls of the password login leave, in every order of their steps. -/

namespace Rgnr8.Platform.Auth
open Lib Lib.Py Local Request Option

section
variable {ι : Type} {requests : ι → Request}

namespace Calls

def Consumed (w : Calls requests) (userId : String) : Prop :=
  ∃ i token tok, ⟨i, .consume token, true⟩ ∈ w.trace ∧
    w.pool.state.tokens.get token = some tok ∧ tok.userId = userId

variable (cfg : AuthConfig)

def SignedUp (w : Calls requests) (i : ι) (userId : String) : Prop :=
  ∃ c, (requests i).registers cfg = some c ∧ c.userId = userId ∧
    ⟨i, .saveCredential c, ()⟩ ∈ w.trace

def PasswordOf (w : Calls requests) (userId password : String) : Prop :=
  match (resets requests w.target w.trace userId).head? with
  | some i => (requests i).sets = some password
  | none => ∃ i, w.SignedUp cfg i userId ∧ (∀ j, w.SignedUp cfg j userId → j = i) ∧
      (requests i).sets = some password

def loginNow (b : Backing) (lower : String → String) (w : Calls requests)
    (email password : String) : Option String :=
  match ((login cfg email password).run (exec b lower) w.pool.state).1 with
  | .ok subject => subject
  | .error _ => none

end Calls

structure CredentialsKept (cfg : AuthConfig) (b : Backing) (lower : String → String)
    (w : Calls requests) : Prop where
  tokensOnce : ∀ i j c c' purpose purpose' token,
    ⟨i, .saveCredential c, ()⟩ ∈ w.trace → ⟨j, .saveCredential c', ()⟩ ∈ w.trace →
    (requests i).redeems = some (purpose, token) →
    (requests j).redeems = some (purpose', token) → i = j
  ownPurpose : ∀ i c purpose token, ⟨i, .saveCredential c, ()⟩ ∈ w.trace →
    (requests i).redeems = some (purpose, token) →
    ∃ tok, w.pool.state.tokens.get token = some tok ∧ tok.purpose = purpose ∧
      tok.userId = c.userId ∧ tok.consumed = true
  accepted : (∀ i, (w.pool.proc i).ended) → ∀ email c,
    w.pool.state.credentials.getByEmail b lower email = some c →
    ∃ password, w.PasswordOf cfg c.userId password ∧
      ∀ given, w.loginNow cfg b lower email given = some c.userId ↔
        given = password ∧ c.verified = true
  loginsNow : ∀ email given userId,
    w.loginNow cfg b lower email given = some userId → w.Consumed userId
  loginsBefore : ∀ i a userId, w.pool.proc i = .ret a →
    (requests i).subject a = some userId → w.Consumed userId

/-- A signup leaves the password and the flag of every registered address as they are. -/
def SignupKeeps (b : Backing) (lower : String → String) (i : ι) (w w' : Calls requests) : Prop :=
  (requests i).redeems = none → ∀ email c,
    w.pool.state.credentials.getByEmail b lower email = some c →
    ∃ c', w'.pool.state.credentials.getByEmail b lower email = some c' ∧
      c'.userId = c.userId ∧ c'.passwordHash = c.passwordHash ∧ c'.verified = c.verified

/-- A signup saves its credential while the address is not registered, a verification over the
password it had read, and a reset while none has saved that consumed its token later. -/
def SavesInTurn [DecidableEq ι] (b : Backing) (lower : String → String) (w : Calls requests) (i : ι)
    (c : Credential) : Prop :=
  match requests i with
  | .signup .. => w.pool.state.credentials.getByEmail b lower c.email = none
  | .resetPassword .. =>
    ∀ j ∈ (resets requests w.target w.trace c.userId).takeWhile (· ≠ i), w.saved j = false
  | _ => ∀ old, w.pool.state.credentials.getByUserId c.userId = some old →
      old.passwordHash = c.passwordHash

def Guarded [DecidableEq ι] (b : Backing) (lower : String → String) (w : Calls requests) (i : ι) :
    Prop :=
  match w.pool.proc i with
  | .call (.saveCredential c) _ => SavesInTurn b lower w i c
  | _ => True

variable {cfg : AuthConfig} {b : Backing} {lower : String → String} {w : Calls requests}

structure Inv (cfg : AuthConfig) (b : Backing) (lower : String → String) (w : Calls requests) :
    Prop where
  disciplined : Watched.Disciplined (discipline cfg) (fun i => (requests i).Returns cfg)
    (fun _ => Throws) w
  redeemed : Redeemed requests w.pool.state.tokens w.locals w.trace
  passwords : Passwords cfg requests w.pool.state.credentials.getByUserId w.target w.saved w.trace
  accounts : Accounts cfg b lower requests w.pool.state.credentials w.target w.saved
    fun i => (w.locals i).cred

theorem inv_start : Inv cfg b lower (Calls.start cfg requests) where
  disciplined i := follows_program (requests i)
  redeemed := Redeemed.start
  passwords := Passwords.start
  accounts := Accounts.start

namespace Inv

variable {userId : String} {i : ι}

theorem of_target (h : Inv cfg b lower w) (htgt : w.target i = some userId) :
    (w.locals i).won = true ∧ ∃ tok cred, (w.locals i).Holds tok cred ∧ cred.userId = userId ∧
      w.pool.state.tokens.Issued tok ∧ w.pool.state.tokens.Spent tok.token ∧
      ⟨i, .consume tok.token, true⟩ ∈ w.trace := by
  have hwon : (w.locals i).won = true := by
    by_contra hnot
    have hnone := target_of_not_won (Bool.eq_false_of_not_eq_true hnot)
    unfold Calls.target at htgt
    rw [hnone] at htgt
    exact nomatch htgt
  obtain ⟨tok, cred, hholds, hspent, hmem⟩ := h.redeemed.won i hwon
  have hid := target_of_won hwon hholds
  unfold Calls.target at htgt
  rw [hid, some.injEq] at htgt
  exact ⟨hwon, tok, cred, hholds, htgt, h.redeemed.read i tok hholds.1, hspent, hmem⟩

theorem redeems_of_target (h : Inv cfg b lower w) (htgt : w.target i = some userId) :
    (requests i).redeems ≠ none := by
  obtain ⟨-, tok, cred, hholds, -⟩ := h.of_target htgt
  have hred := hholds.2.2.2
  rw [h.redeemed.request] at hred
  rw [hred]
  exact some_ne_none _

theorem consumed_of_target (h : Inv cfg b lower w) (htgt : w.target i = some userId) :
    w.Consumed userId := by
  obtain ⟨-, tok, cred, hholds, hid, ⟨stored, hget, -, huser⟩, -, hmem⟩ := h.of_target htgt
  refine ⟨i, tok.token, stored, hmem, hget, ?_⟩
  rw [huser, ← hholds.2.2.1, hid]

theorem target_of_save (h : Inv cfg b lower w) {c : Credential} {purpose : TokenPurpose}
    {token : String} (hmem : ⟨i, .saveCredential c, ()⟩ ∈ w.trace)
    (hred : (requests i).redeems = some (purpose, token)) : w.target i = some c.userId := by
  rcases (h.passwords.saves i c hmem).2 with hreg | htgt
  · rw [redeems_of_registers hreg] at hred
    exact nomatch hred
  · exact htgt

theorem holds_of_redeems (h : Inv cfg b lower w) {tok : VerificationToken} {cred : Credential}
    {purpose : TokenPurpose} {token : String} (hholds : (w.locals i).Holds tok cred)
    (hred : (requests i).redeems = some (purpose, token)) :
    tok.purpose = purpose ∧ tok.token = token := by
  have hred' := hholds.2.2.2
  rw [h.redeemed.request, hred, some.injEq] at hred'
  exact Prod.mk.inj hred'.symm

theorem loginNow_iff {email given : String} : w.loginNow cfg b lower email given = some userId ↔
      ∃ c, w.pool.state.credentials.getByEmail b lower email = some c ∧ c.userId = userId ∧
        cfg.hasher.verify given c.passwordHash = true ∧ c.verified = true := by
  have hrun : w.loginNow cfg b lower email given =
      match w.pool.state.credentials.getByEmail b lower email with
      | none => none
      | some c => if cfg.hasher.verify given c.passwordHash = true ∧ c.verified = true then
          some c.userId else none := by
    unfold Calls.loginNow login
    rw [Prog.run_call]
    cases hfound : w.pool.state.credentials.getByEmail b lower email with
    | none =>
      have hanswer : (exec b lower (.getByEmail email) w.pool.state).1 = none := hfound
      rw [hanswer]
      rfl
    | some c =>
      have hanswer : (exec b lower (.getByEmail email) w.pool.state).1 = some c := hfound
      rw [hanswer]
      dsimp only
      by_cases hvrf : cfg.hasher.verify given c.passwordHash = true
      · by_cases hver : c.verified = true
        · rw [if_neg (not_not.mpr hvrf), if_neg (not_not.mpr hver),
            if_pos ⟨hvrf, hver⟩]
          rfl
        · rw [if_neg (not_not.mpr hvrf), if_pos hver, if_neg fun h => hver h.2]
          rfl
      · rw [if_pos hvrf, if_neg fun h => hvrf h.1]
        rfl
  rw [hrun]
  cases w.pool.state.credentials.getByEmail b lower email with
  | none => exact iff_of_false nofun fun ⟨_, h, _⟩ => nomatch h
  | some c =>
    simp only [ite_none_right_eq_some, some.injEq]
    constructor
    · exact fun ⟨⟨hvrf, hver⟩, hid⟩ => ⟨c, rfl, hid, hvrf, hver⟩
    · rintro ⟨c', rfl, hid, hvrf, hver⟩
      exact ⟨⟨hvrf, hver⟩, hid⟩

theorem saved_of_ended (h : Inv cfg b lower w) (hended : (w.pool.proc i).ended)
    (htgt : w.target i = some userId) : w.saved i = true := by
  have hwon := (h.of_target htgt).1
  have hfol := h.disciplined i
  cases hp : w.pool.proc i with
  | ret a =>
    rw [hp] at hfol
    have hrets : (requests i).Returns cfg (w.locals i) a := hfol
    exact hrets.saved (h.redeems_of_target htgt) hwon
  | throw e =>
    rw [hp] at hfol
    have hnot : (w.locals i).won = false := hfol
    rw [hwon] at hnot
    exact nomatch hnot
  | call c k =>
    rw [hp] at hended
    exact nomatch hended

theorem passwordOf (h : Inv cfg b lower w) (hended : ∀ i, (w.pool.proc i).ended) {u : String}
    {c : Credential} (hget : w.pool.state.credentials.getByUserId u = some c) :
    ∃ password, w.PasswordOf cfg u password ∧
      ∀ given, cfg.hasher.verify given c.passwordHash = true ↔ given = password := by
  obtain ⟨i, hset, hhash⟩ := h.passwords.setBy u c hget
  obtain ⟨password, hsets, hvrf⟩ := sets_of_hashed hhash
  refine ⟨password, ?_, hvrf⟩
  have hfst : (resets requests w.target w.trace u).find? w.saved =
      (resets requests w.target w.trace u).head? := by
    cases hl : resets requests w.target w.trace u with
    | nil => rfl
    | cons j l =>
      have hmem : j ∈ resets requests w.target w.trace u := by
        rw [hl]
        exact List.mem_cons_self
      exact List.find?_cons_of_pos (h.saved_of_ended (hended j) (mem_resets.mp hmem).2.1)
  unfold Calls.PasswordOf
  rcases hset with hfind | ⟨hfind, hsav, c₀, hreg, hid⟩
  · rw [hfst] at hfind
    rw [hfind]
    exact hsets
  · rw [hfst] at hfind
    rw [hfind]
    refine ⟨i, ⟨c₀, hreg, hid, h.passwords.signups i c₀ hsav hreg⟩, ?_, hsets⟩
    rintro j ⟨c', hreg', hid', hmem⟩
    exact h.accounts.once j i c' c₀ (h.passwords.saves j c' hmem).1 hsav hreg' hreg
      (hid'.trans hid.symm)

theorem kept (h : Inv cfg b lower w) : CredentialsKept cfg b lower w where
  tokensOnce i j c c' purpose purpose' token hi hj hri hrj := by
    obtain ⟨hwon, tok, cred, hholds, -⟩ := h.of_target (h.target_of_save hi hri)
    obtain ⟨hwon', tok', cred', hhol', -⟩ := h.of_target (h.target_of_save hj hrj)
    refine h.redeemed.once i j tok tok' cred cred' hwon hwon' hholds hhol' ?_
    rw [(h.holds_of_redeems hholds hri).2, (h.holds_of_redeems hhol' hrj).2]
  ownPurpose i c purpose token hi hri := by
    obtain ⟨-, tok, cred, hholds, hid, ⟨stored, hget, hpur, huser⟩,
      ⟨stored', hget', hcons⟩, -⟩ := h.of_target (h.target_of_save hi hri)
    obtain ⟨hp, ht⟩ := h.holds_of_redeems hholds hri
    rw [hget, some.injEq] at hget'
    rw [← hget'] at hcons
    rw [ht] at hget
    refine ⟨stored, hget, hpur.trans hp, ?_, hcons⟩
    rw [huser, ← hholds.2.2.1, hid]
  accepted hended email c hfound := by
    have hget := (h.accounts.registered.getByEmail_iff.mp hfound).1
    obtain ⟨password, hpas, hvrf⟩ := h.passwordOf hended hget
    refine ⟨password, hpas, fun given => ?_⟩
    rw [loginNow_iff, ← hvrf given]
    constructor
    · rintro ⟨c', hfound', -, hgiven, hver⟩
      obtain rfl := some.inj (hfound.symm.trans hfound')
      exact ⟨hgiven, hver⟩
    · exact fun ⟨hgiven, hver⟩ => ⟨c, hfound, rfl, hgiven, hver⟩
  loginsNow email given userId hlogin := by
    obtain ⟨c, hfound, rfl, -, hver⟩ := loginNow_iff.mp hlogin
    have hget := (h.accounts.registered.getByEmail_iff.mp hfound).1
    obtain ⟨j, hj⟩ := h.accounts.verified _ c hget hver
    exact h.consumed_of_target hj
  loginsBefore i a userId hret hsub := by
    have hfol := h.disciplined i
    rw [hret] at hfol
    have hrets : (requests i).Returns cfg (w.locals i) a := hfol
    obtain ⟨cred, hcred, rfl, hver⟩ := hrets.subject hsub
    obtain ⟨j, hj⟩ := (h.accounts.seen i cred hcred).2.2 hver
    exact h.consumed_of_target hj

end Inv

variable [DecidableEq ι] {i : ι}

theorem relies_exec {s : Stores} (hkeyed : s.credentials.Registered b lower) (c : Call) :
    (discipline cfg).relies c (exec b lower c s).1 := by
  cases c with
  | getByUserId userId => exact fun c h => (hkeyed.keyed _ _ h).1
  | getToken token => exact fun tok h => s.tokens.keyed _ _ h
  | getByEmail | saveCredential | saveToken | consume | record => trivial

namespace Inv

variable {w' : Calls requests}

theorem quiet (h : Inv cfg b lower w) {s : Local} {m : Made ι Call Call.Answer}
    (hdisc : Watched.Disciplined (discipline cfg) (fun i => (requests i).Returns cfg) (fun _
      => Throws) w') (hloc : w'.locals = Function.update w.locals i s)
    (htrace : w'.trace = m :: w.trace)
    (hcreden : w'.pool.state.credentials = w.pool.state.credentials)
    (hext : w.pool.state.tokens.Extends w'.pool.state.tokens)
    (hmin : ∀ token tok, w'.pool.state.tokens.get token = some tok → w.pool.state.tokens.get
      token = some tok ∨ (s.minted = true ∧ (requests i).mints = some token))
    (hreq : s.request = (w.locals i).request)
    (hread : ∀ tok, s.token = some tok → w'.pool.state.tokens.Issued tok)
    (hwon : s.won = (w.locals i).won)
    (hstill : s.won = true → s.token = (w.locals i).token ∧ s.cred = (w.locals i).cred)
    (hsav : s.saved = (w.locals i).saved)
    (hmints : (w.locals i).minted = true → s.minted = true) (hcred : s.cred = (w.locals i).cred ∨ ∀
      c, s.cred = some c → w.pool.state.credentials.getByUserId c.userId = some c)
    (hsave : ∀ c, m.call ≠ .saveCredential c) (hwins : Wins m = false) : Inv cfg b lower w' := by
  have htgt : s.target = (w.locals i).target := by
    by_cases hs : s.won = true
    · unfold target
      rw [hwon, (hstill hs).2]
    · have hfalse := Bool.eq_false_of_not_eq_true hs
      rw [target_of_not_won hfalse, target_of_not_won (hwon ▸ hfalse)]
  have htar : w'.target = w.target := by
    unfold Calls.target
    rw [hloc]
    exact read_update_same target htgt
  have hsaves : w'.saved = w.saved := by
    unfold Calls.saved
    rw [hloc]
    exact read_update_same saved hsav
  refine ⟨hdisc, ?_, ?_, ?_⟩
  · rw [hloc, htrace]
    exact h.redeemed.quiet hext hreq hread ⟨hwon, hstill⟩ hmints hmin
  · rw [hcreden, htar, hsaves, htrace]
    exact h.passwords.quiet hsave hwins
  · rw [hcreden, htar, hsaves, hloc, read_update cred]
    rcases hcred with hsame | hfound
    · rw [hsame, Function.update_eq_self]
      exact h.accounts
    · exact h.accounts.read hfound

theorem win (h : Inv cfg b lower w) {stored tok : VerificationToken} {cred : Credential}
    (hdisc : Watched.Disciplined (discipline cfg) (fun i => (requests i).Returns cfg) (fun _
      => Throws) w')
    (hloc : w'.locals = Function.update w.locals i ((w.locals i).consumed true))
    (htrace : w'.trace = ⟨i, .consume tok.token, true⟩ :: w.trace)
    (hcreden : w'.pool.state.credentials = w.pool.state.credentials)
    (htoks : w'.pool.state.tokens = w.pool.state.tokens.put { stored with consumed := true })
    (hwon : (w.locals i).won = false) (hsav : (w.locals i).saved = false)
    (hholds : (w.locals i).Holds tok cred)
    (hget : w.pool.state.tokens.get tok.token = some stored) (hcons : stored.consumed = false) :
    Inv cfg b lower w' := by
  have hself : ((w.locals i).consumed true).Holds tok cred := hholds
  have htar : w'.target = Function.update w.target i (some cred.userId) := by
    unfold Calls.target
    rw [hloc, read_update, target_of_won rfl hself]
  have hsaves : w'.saved = w.saved := by
    unfold Calls.saved
    rw [hloc]
    exact read_update_same saved rfl
  have hcreds : (fun j => (w'.locals j).cred) = fun j => (w.locals j).cred := by
    rw [hloc]
    exact read_update_same Local.cred rfl
  have htgt : w.target i = none := target_of_not_won hwon
  refine ⟨hdisc, ?_, ?_, ?_⟩
  · rw [hloc, htrace, htoks]
    exact h.redeemed.win hwon hholds hget hcons
  · rw [hcreden, htar, hsaves, htrace]
    exact h.passwords.win htgt hsav (h.accounts.seen i cred hholds.2.1).2.1
  · rw [hcreden, htar, hsaves, hcreds]
    exact h.accounts.win htgt

theorem save (h : Inv cfg b lower w) {c : Credential} (hdisc : Watched.Disciplined
      (discipline cfg) (fun i => (requests i).Returns cfg) (fun _ => Throws) w')
    (hloc : w'.locals = Function.update w.locals i (w.locals i).save)
    (htrace : w'.trace = ⟨i, .saveCredential c, ()⟩ :: w.trace)
    (hcreden : w'.pool.state.credentials = w.pool.state.credentials.save b lower c)
    (htoks : w'.pool.state.tokens = w.pool.state.tokens) (hemail : c.email = c.userId)
    (hregs : ∀ c₀, (requests i).registers cfg = some c₀ → c₀ = c)
    (hkind : ((requests i).registers cfg = some c ∧ w.pool.state.credentials.getByEmail b lower
      c.email = none) ∨ (w.target i = some c.userId ∧ (requests i).registers cfg = none ∧
      (((requests i).isReset = false ∧ ∀ old, w.pool.state.credentials.getByUserId c.userId = some
      old → old.passwordHash = c.passwordHash) ∨ ((requests i).isReset ∧ (requests i).hashed cfg =
      some c.passwordHash ∧ ∀ j ∈ (resets requests w.target w.trace c.userId).takeWhile (· ≠ i),
      w.saved j = false)))) : Inv cfg b lower w' := by
  have htar : w'.target = w.target := by
    unfold Calls.target
    rw [hloc]
    exact read_update_same target rfl
  have hsaves : w'.saved = Function.update w.saved i true := by
    unfold Calls.saved
    rw [hloc]
    exact read_update saved ..
  have hcreds : (fun j => (w'.locals j).cred) = fun j => (w.locals j).cred := by
    rw [hloc]
    exact read_update_same cred rfl
  refine ⟨hdisc, ?_, ?_, ?_⟩
  · rw [hloc, htrace, htoks]
    exact h.redeemed.quiet (fun token tok hget => ⟨tok, hget, rfl, rfl, id⟩) rfl
      (fun tok htok => h.redeemed.read i tok htok) ⟨rfl, fun _ => ⟨rfl, rfl⟩⟩ id
      fun token tok hget => .inl hget
  · rw [hcreden, htar, hsaves, htrace]
    refine h.passwords.save (CredentialStore.getByUserId_save_self _ b lower c)
      (fun u hu => CredentialStore.getByUserId_save_ne hu)
      (CredentialStore.written_passwordHash _ c) hregs (hkind.imp_left fun hnew => ?_)
    refine ⟨hnew.1, ?_⟩
    by_contra hsto
    obtain ⟨old, hold⟩ := ne_none_iff_exists'.mp hsto
    refine h.accounts.registered.getByEmail_eq_none hnew.2 hold ?_
    rw [hemail]
  · rw [hcreden, htar, hsaves, hcreds]
    refine h.accounts.save hemail (hkind.imp_right fun hknown => ?_)
    exact ⟨hknown.2.1, hknown.1, (h.passwords.listed i _ hknown.1).1⟩

theorem step (h : Inv cfg b lower w)
    (hfresh : ∀ i j token, (requests i).mints = some token → (requests j).mints = some token →
      i = j) (hguard : Guarded b lower w i) :
    Inv cfg b lower (w.step cfg b lower i) ∧ SignupKeeps b lower i w (w.step cfg b lower i) := by
  have hdisc : Watched.Disciplined (discipline cfg) (fun i => (requests i).Returns cfg)
      (fun _ => Throws) (w.step cfg b lower i) :=
    h.disciplined.step (fun c => relies_exec h.accounts.registered c) i
  unfold Calls.step at hdisc ⊢
  rcases w.step_cases (discipline cfg) (exec b lower) i with ⟨-, hstep⟩ | ⟨c, k, hp, hstep⟩
  · rw [hstep]
    exact ⟨h, fun _ email c hc => ⟨c, hc, rfl, rfl, rfl⟩⟩
  have hmay := h.disciplined.may hp
  have hsame : w.pool.state.tokens.Extends w.pool.state.tokens :=
    fun token tok hget => ⟨tok, hget, rfl, rfl, id⟩
  have hreadS (tok : VerificationToken) (htok : (w.locals i).token = some tok) :
      w.pool.state.tokens.Issued tok := h.redeemed.read i tok htok
  unfold Guarded at hguard
  rw [hp] at hguard
  rw [hstep] at hdisc ⊢
  -- the reads change no store: `quiet` keeps the invariant
  cases c with
  | getByEmail email =>
    refine ⟨h.quiet hdisc rfl rfl rfl hsame (fun _ _ => .inl) rfl hreadS rfl
      (fun hwon => absurd (hmay.1.symm.trans hwon) Bool.false_ne_true) rfl id (.inr fun c hc => ?_)
      (fun _ => Call.noConfusion) rfl, fun _ email c hc => ⟨c, hc, rfl, rfl, rfl⟩⟩
    exact (h.accounts.registered.getByEmail_iff.mp hc).1
  | getByUserId userId =>
    refine ⟨h.quiet hdisc rfl rfl rfl hsame (fun _ _ => .inl) rfl hreadS rfl
      (fun hwon => absurd (hmay.1.symm.trans hwon) Bool.false_ne_true) rfl id (.inr fun c hc => ?_)
      (fun _ => Call.noConfusion) rfl, fun _ email c hc => ⟨c, hc, rfl, rfl, rfl⟩⟩
    rw [(h.accounts.registered.keyed _ _ hc).1]
    exact hc
  | getToken token =>
    refine ⟨h.quiet hdisc rfl rfl rfl hsame (fun _ _ => .inl) rfl (fun tok htok => ?_) rfl
      (fun hwon => absurd (hmay.symm.trans hwon) Bool.false_ne_true) rfl id (.inl rfl)
      (fun _ => Call.noConfusion) rfl, fun _ email c hc => ⟨c, hc, rfl, rfl, rfl⟩⟩
    have hget : w.pool.state.tokens.get token = some tok := htok
    rw [← w.pool.state.tokens.keyed _ _ hget] at hget
    exact ⟨tok, hget, rfl, rfl⟩
  | record r =>
    exact ⟨h.quiet hdisc rfl rfl rfl hsame (fun _ _ => .inl) rfl hreadS rfl
      (fun _ => ⟨rfl, rfl⟩) rfl id (.inl rfl) (fun _ => Call.noConfusion) rfl,
      fun _ email c hc => ⟨c, hc, rfl, rfl, rfl⟩⟩
  | saveToken tok =>
    obtain ⟨hmin, hmints, -⟩ := hmay
    rw [h.redeemed.request] at hmints
    have hnew : w.pool.state.tokens.get tok.token = none := by
      by_contra hsto
      obtain ⟨old, hold⟩ := ne_none_iff_exists'.mp hsto
      obtain ⟨j, hj, hmin'⟩ := h.redeemed.minted _ old hold
      rw [hfresh j i _ hmin' hmints, hmin] at hj
      exact nomatch hj
    have htoks : w.pool.state.tokens.save b tok = w.pool.state.tokens.put tok :=
      TokenStore.save_of_fresh hnew
    have hext : w.pool.state.tokens.Extends (w.pool.state.tokens.save b tok) := by
      rw [htoks]
      exact TokenStore.extends_put_of_fresh hnew
    refine ⟨h.quiet hdisc rfl rfl rfl hext (fun token tok' hget => ?_) rfl
      (fun tok' htok => hext.issued (hreadS tok' htok)) rfl (fun _ => ⟨rfl, rfl⟩) rfl
      (fun _ => rfl) (.inl rfl) (fun _ => Call.noConfusion) rfl,
      fun _ email c hc => ⟨c, hc, rfl, rfl, rfl⟩⟩
    have hget' : (w.pool.state.tokens.save b tok).get token = some tok' := hget
    rw [htoks] at hget'
    by_cases htoken : token = tok.token
    · rw [htoken]
      exact .inr ⟨rfl, hmints⟩
    · rw [TokenStore.get_put_ne _ htoken] at hget'
      exact .inl hget'
  | consume token =>
    obtain ⟨hwon, hsav, tok, cred, rfl, hholds⟩ := hmay
    rcases w.pool.state.tokens.consume_cases tok.token with
      hlost | ⟨stored, hget, hcons, hwins⟩
    · have hanswer : (exec b lower (.consume tok.token) w.pool.state).1 = false :=
        congrArg Prod.fst hlost
      have htoks : (exec b lower (.consume tok.token) w.pool.state).2.tokens =
          w.pool.state.tokens := congrArg Prod.snd hlost
      have hlocal : (w.locals i).consumed false = w.locals i := by
        rw [← hwon]
        rfl
      refine ⟨h.quiet (s := w.locals i) hdisc ?_ rfl rfl ?_ ?_ rfl ?_ rfl
        (fun _ => ⟨rfl, rfl⟩) rfl id (.inl rfl) (fun _ => Call.noConfusion) hanswer,
        fun _ email c hc => ⟨c, hc, rfl, rfl, rfl⟩⟩
      · show Function.update w.locals i ((w.locals i).consumed _) = _
        rw [hanswer, hlocal]
      · rw [htoks]
        exact hsame
      · rw [htoks]
        exact fun _ _ => .inl
      · rw [htoks]
        exact hreadS
    · have hanswer : (exec b lower (.consume tok.token) w.pool.state).1 = true :=
        congrArg Prod.fst hwins
      refine ⟨h.win hdisc ?_ ?_ rfl (congrArg Prod.snd hwins) hwon hsav hholds hget
        hcons, fun _ email c hc => ⟨c, hc, rfl, rfl, rfl⟩⟩
      · show Function.update w.locals i ((w.locals i).consumed _) = _
        rw [hanswer]
      · show (⟨i, .consume tok.token, _⟩ : Made ι Call Call.Answer) :: w.trace = _
        rw [hanswer]
  | saveCredential c =>
    obtain ⟨hsav, hkind⟩ := hmay
    rw [h.redeemed.request] at hkind
    have hturn : SavesInTurn b lower w i c := hguard
    unfold SavesInTurn at hturn
    rcases hkind with hreg | ⟨hwon, cred, hcred, hc⟩
    · have hunr : w.pool.state.credentials.getByEmail b lower c.email = none := by
        cases hreq : requests i with
        | signup =>
          rw [hreq] at hturn
          exact hturn
        | verifyEmail | login | requestPasswordReset | resetPassword =>
          rw [hreq] at hreg
          exact nomatch hreg
      have hemail := (fields_of_registers hreg).1
      have hnext := h.save hdisc rfl rfl rfl rfl hemail
        (fun c₀ hc₀ => some.inj (hc₀.symm.trans hreg)) (.inl ⟨hreg, hunr⟩)
      refine ⟨hnext, fun _ email c' hfound => ⟨c', ?_, rfl, rfl, rfl⟩⟩
      have hgetB := h.accounts.registered.getByEmail_iff.mp hfound
      refine hnext.accounts.registered.getByEmail_iff.mpr ⟨?_, hgetB.2⟩
      have hne : c'.userId ≠ c.userId := by
        intro heq
        refine h.accounts.registered.getByEmail_eq_none hunr hgetB.1 ?_
        rw [hemail, heq]
      exact (CredentialStore.getByUserId_save_ne hne).trans hgetB.1
    · obtain ⟨tok, cred', hholds, -⟩ := h.redeemed.won i hwon
      obtain rfl : cred = cred' := some.inj (hcred.symm.trans hholds.2.1)
      have htgt : w.target i = some c.userId := by
        rw [hc, change_userId]
        exact target_of_won hwon hholds
      have hred : (requests i).redeems = some (tok.purpose, tok.token) := by
        rw [← h.redeemed.request]
        exact hholds.2.2.2
      have hreg : (requests i).registers cfg = none := by
        by_contra hsome
        obtain ⟨c₀, hc₀⟩ := ne_none_iff_exists'.mp hsome
        rw [redeems_of_registers hc₀] at hred
        exact nomatch hred
      have hemail : c.email = c.userId := by
        rw [hc, change_email, change_userId]
        exact (h.accounts.seen i cred hcred).1
      refine ⟨h.save hdisc rfl rfl rfl rfl hemail (fun c₀ hc₀ => ?_)
        (.inr ⟨htgt, hreg, ?_⟩), fun hnot => ?_⟩
      · rw [hreg] at hc₀
        exact nomatch hc₀
      · cases hreq : requests i with
        | resetPassword =>
          rw [hreq] at hturn hc
          refine .inr ⟨rfl, ?_, hturn⟩
          rw [hc]
          rfl
        | verifyEmail =>
          rw [hreq] at hturn
          exact .inl ⟨rfl, hturn⟩
        | signup | login | requestPasswordReset =>
          rw [hreq] at hred
          exact nomatch hred
      · rw [hred] at hnot
        exact nomatch hnot

end Inv

/-- However the steps are ordered: each token takes effect once and for its purpose, a signup leaves
what is registered, the password accepted in the end is the one set last, and a login succeeds only
where a token was consumed, as long as each signup saves while its address is not registered, each
verification over the password it had read, and each reset while none has saved that consumed its
token later. -/
theorem credentials_kept (cfg : AuthConfig) (b : Backing) (lower : String → String)
    (requests : ι → Request)
    (hfresh : ∀ i j token, (requests i).mints = some token → (requests j).mints = some token →
      i = j) (sched : List ι)
    (h : EachStep (Calls.step cfg b lower) (Guarded b lower) (Calls.start cfg requests) sched) :
    Along (Calls.step cfg b lower) (CredentialsKept cfg b lower) (Calls.start cfg requests) sched ∧
      EachStep (Calls.step cfg b lower)
        (fun w i => SignupKeeps b lower i w (w.step cfg b lower i)) (Calls.start cfg requests)
        sched := by
  have hrun : ∀ (w : Calls requests) (sched : List ι), Inv cfg b lower w →
      EachStep (Calls.step cfg b lower) (Guarded b lower) w sched →
      Along (Calls.step cfg b lower) (CredentialsKept cfg b lower) w sched ∧
        EachStep (Calls.step cfg b lower)
          (fun w i => SignupKeeps b lower i w (w.step cfg b lower i)) w sched := by
    intro w sched
    induction sched generalizing w with
    | nil => exact fun hinv _ => ⟨along_nil.mpr hinv.kept, eachStep_nil⟩
    | cons i sched ih =>
      intro hinv hgrd
      obtain ⟨hguard, hrest⟩ := eachStep_cons.mp hgrd
      obtain ⟨hnext, hkeeps⟩ := hinv.step hfresh hguard
      obtain ⟨halong, heach⟩ := ih _ hnext hrest
      exact ⟨along_cons.mpr ⟨hinv.kept, halong⟩, eachStep_cons.mpr ⟨hkeeps, heach⟩⟩
  exact hrun _ sched inv_start h

end

namespace Sample

def cfg : AuthConfig where
  hasher :=
    { hash := fun password _ => password
      verify := fun given hash => given = hash
      verify_hash := fun _ _ _ => decide_eq_true_iff }
  audited := false
  minPasswordLength := 8
  verifyTtl := 86400
  resetTtl := 3600

def requests : Fin 4 → Request
  | 0 => .signup "ada@firm.test" "correct horse" "salt" "tok-0" 100 100
  | 1 => .verifyEmail "tok-0" 200
  | 2 => .requestPasswordReset "ada@firm.test" "tok-2" 300
  | 3 => .resetPassword "tok-2" "battery staple" "salt" 400

def signups : Fin 2 → Request
  | 0 => .signup "ada@firm.test" "correct horse" "salt" "tok-0" 100 100
  | 1 => .signup "ada@firm.test" "battery staple" "salt" "tok-1" 101 101

theorem requests_fresh (i j : Fin 4) (token : String) (hi : (requests i).mints = some token)
    (hj : (requests j).mints = some token) : i = j := by
  have hall : ∀ i j : Fin 4, (requests i).mints.isSome → (requests i).mints = (requests j).mints →
      i = j := by decide
  refine hall i j ?_ (hi.trans hj.symm)
  rw [hi]
  rfl

theorem credentials_kept_sample :
    EachStep (Calls.step cfg .memory id) (Guarded .memory id) (Calls.start cfg requests)
        [0, 0, 0, 1, 1, 1, 1] ∧
      Along (Calls.step cfg .memory id) (CredentialsKept cfg .memory id)
        (Calls.start cfg requests) [0, 0, 0, 1, 1, 1, 1] := by
  have hgrd : EachStep (Calls.step cfg .memory id) (Guarded .memory id)
      (Calls.start cfg requests) [0, 0, 0, 1, 1, 1, 1] := by
    refine eachStep_cons.mpr ⟨trivial, eachStep_cons.mpr ⟨?_, eachStep_cons.mpr ⟨trivial,
      eachStep_cons.mpr ⟨trivial, eachStep_cons.mpr ⟨trivial, eachStep_cons.mpr ⟨trivial,
      eachStep_cons.mpr ⟨fun old hold => ?_, eachStep_nil⟩⟩⟩⟩⟩⟩⟩
    · exact (rfl : (none : Option Credential) = none)
    · have hsto : some (newCredential cfg "ada@firm.test" "correct horse" "salt" 100) =
          some old := hold
      rw [← some.inj hsto]
      rfl
  exact ⟨hgrd, (credentials_kept cfg .memory id requests requests_fresh _ hgrd).1⟩

theorem password_overwritten : ¬ EachStep (Calls.step cfg .memory id)
        (fun w i => SignupKeeps .memory id i w (w.step cfg .memory id i))
        (Calls.start cfg signups) [0, 1, 0, 0, 1] ∧
      ¬ Along (Calls.step cfg .memory id) (CredentialsKept cfg .memory id)
        (Calls.start cfg requests) [0, 0, 0, 2, 2, 1, 1, 3, 3, 3, 3, 1, 1] := by
  refine ⟨fun h => ?_, fun h => ?_⟩
  · have hkeeps := h [0, 1, 0, 0] 1 List.prefix_rfl
    obtain ⟨c, hfound, -, hhash, -⟩ := hkeeps rfl "ada@firm.test"
      (newCredential cfg "ada@firm.test" "correct horse" "salt" 100) rfl
    have hafter : some (newCredential cfg "ada@firm.test" "battery staple" "salt" 101) = some c :=
      hfound
    rw [← some.inj hafter] at hhash
    exact absurd hhash (by decide)
  · have hkept := h _ List.prefix_rfl
    obtain ⟨password, hpas, hlogin⟩ := hkept.accepted
      (fun i => match i with | 0 => rfl | 1 => rfl | 2 => rfl | 3 => rfl) "ada@firm.test"
      { newCredential cfg "ada@firm.test" "correct horse" "salt" 100 with verified := true } rfl
    have hsets : some "battery staple" = some password := hpas
    have href : none = some "ada@firm.test" :=
      (hlogin "battery staple").mpr ⟨some.inj hsets, rfl⟩
    exact nomatch href

end Sample
end Rgnr8.Platform.Auth
