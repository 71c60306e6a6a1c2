import Rgnr8.Platform.CredentialRuns
import Mathlib.Data.List.Find

/-! Credentials under races: what the calls leave, whatever the order of their steps, as long as no
write of a credential comes over one that its call had not read. -/

namespace Rgnr8.Platform.Auth
open Lib Lib.Py Function List

abbrev Calls {ι : Type} (requests : ι → Request) : Type :=
  Watched Call Call.Answer AuthError ι (fun i => (requests i).Result) Local Stores

section
variable {ι : Type} {requests : ι → Request}

namespace Calls

def start (cfg : AuthConfig) (requests : ι → Request) : Calls requests where
  pool :=
    { state := Stores.empty
      proc := fun i => (requests i).program cfg }
  locals i := { request := requests i }
  trace := []

def step [DecidableEq ι] (cfg : AuthConfig) (b : Backing) (lower : String → String)
    (w : Calls requests) (i : ι) : Calls requests :=
  Watched.step (discipline cfg) (exec b lower) w i

end Calls

def Wins (m : Made ι Call Call.Answer) : Bool :=
  match m with
  | ⟨_, .consume _, won⟩ => won
  | _ => false

/-- The resets of a credential in the order in which they consumed their tokens, the latest first.
-/
def resets (requests : ι → Request) (target : ι → Option String)
    (trace : List (Made ι Call Call.Answer)) (userId : String) : List ι :=
  (trace.filter fun m =>
    Wins m ∧ (requests m.who).isReset ∧ target m.who = some userId).map Made.who

namespace Calls

def target (w : Calls requests) (i : ι) : Option String := (w.locals i).target

def saved (w : Calls requests) (i : ι) : Bool := (w.locals i).saved

end Calls

/-! Whose password is stored. -/

section
variable {target : ι → Option String} {saved : ι → Bool}
  {trace : List (Made ι Call Call.Answer)}

theorem mem_resets {i : ι} {userId : String} : i ∈ resets requests target trace userId ↔
      (requests i).isReset ∧ target i = some userId ∧ ∃ m ∈ trace, m.who = i ∧ Wins m := by
  unfold resets
  simp only [mem_map, mem_filter, decide_eq_true_eq]
  constructor
  · rintro ⟨m, ⟨hm, hwins, hreset, htgt⟩, rfl⟩
    exact ⟨hreset, htgt, m, hm, rfl, hwins⟩
  · rintro ⟨hreset, htgt, m, hm, rfl, hwins⟩
    exact ⟨m, ⟨hm, hwins, hreset, htgt⟩, rfl⟩

theorem resets_cons_of_not_wins {m : Made ι Call Call.Answer} (h : Wins m = false)
    (userId : String) :
    resets requests target (m :: trace) userId = resets requests target trace userId := by
  unfold resets
  rw [filter_cons_of_neg]
  simp [h]

theorem find?_of_takeWhile [DecidableEq ι] {l : List ι} {p : ι → Bool} {i : ι} (hi : i ∈ l)
    (hbef : ∀ j ∈ l.takeWhile (· ≠ i), p j = false) (hp : p i = true) : l.find? p = some i := by
  induction l with
  | nil => exact nomatch hi
  | cons j l ih =>
    by_cases hj : j = i
    · subst hj
      exact find?_cons_of_pos hp
    · have hkeep : (j :: l).takeWhile (· ≠ i) = j :: l.takeWhile (· ≠ i) :=
        takeWhile_cons_of_pos (by simpa using hj)
      rw [hkeep] at hbef
      have hpj : ¬ p j = true := by
        rw [hbef j mem_cons_self]
        exact Bool.false_ne_true
      rw [find?_cons_of_neg hpj]
      refine ih ((mem_cons.mp hi).resolve_left (Ne.symm hj)) fun k hk => ?_
      exact hbef k (mem_cons_of_mem _ hk)

/-- The call whose password is stored: of the resets that have saved, the one that consumed its
token last, and else a signup. -/
def SetBy (cfg : AuthConfig) (requests : ι → Request) (target : ι → Option String)
    (saved : ι → Bool) (trace : List (Made ι Call Call.Answer)) (userId : String) (i : ι) : Prop :=
  (resets requests target trace userId).find? saved = some i ∨
    ((resets requests target trace userId).find? saved = none ∧ saved i = true ∧
      ∃ c, (requests i).registers cfg = some c ∧ c.userId = userId)

structure Passwords (cfg : AuthConfig) (requests : ι → Request)
    (stored : String → Option Credential) (target : ι → Option String) (saved : ι → Bool)
    (trace : List (Made ι Call Call.Answer)) : Prop where
  setBy : ∀ u c, stored u = some c →
    ∃ i, SetBy cfg requests target saved trace u i ∧
      (requests i).hashed cfg = some c.passwordHash
  saves : ∀ i c, ⟨i, .saveCredential c, ()⟩ ∈ trace →
    saved i = true ∧ ((requests i).registers cfg = some c ∨ target i = some c.userId)
  signups : ∀ i c, saved i = true → (requests i).registers cfg = some c →
    ⟨i, .saveCredential c, ()⟩ ∈ trace
  wins : ∀ m ∈ trace, Wins m → target m.who ≠ none
  listed : ∀ i u, target i = some u → (stored u).isSome ∧ ∃ m ∈ trace, m.who = i ∧ Wins m

namespace Passwords
variable {cfg : AuthConfig} {stored : String → Option Credential}

theorem start : Passwords cfg requests (fun _ => none) (fun _ => none) (fun _ => false) [] where
  setBy _ _ h := nomatch h
  saves _ _ h := nomatch h
  signups _ _ h := nomatch h
  wins _ h := nomatch h
  listed _ _ h := nomatch h

theorem quiet (h : Passwords cfg requests stored target saved trace)
    {m : Made ι Call Call.Answer} (hsave : ∀ c, m.call ≠ .saveCredential c)
    (hwins : Wins m = false) : Passwords cfg requests stored target saved (m :: trace) where
  setBy u c hc := by
    obtain ⟨i, hi, hhash⟩ := h.setBy u c hc
    refine ⟨i, ?_, hhash⟩
    unfold SetBy
    rw [resets_cons_of_not_wins hwins]
    exact hi
  saves i c hmem := by
    rcases mem_cons.mp hmem with heq | hmem
    · exact absurd (congrArg Made.call heq).symm (hsave c)
    · exact h.saves i c hmem
  signups i c hi hc := mem_cons_of_mem _ (h.signups i c hi hc)
  wins m' hm' hwins' := by
    rcases mem_cons.mp hm' with rfl | hm'
    · rw [hwins] at hwins'
      exact nomatch hwins'
    · exact h.wins m' hm' hwins'
  listed i u hi := by
    obtain ⟨hsome, m', hm', hwho, hwins'⟩ := h.listed i u hi
    exact ⟨hsome, m', mem_cons_of_mem _ hm', hwho, hwins'⟩

variable [DecidableEq ι] {i : ι}

theorem win (h : Passwords cfg requests stored target saved trace) {token userId : String}
    (htgt : target i = none) (hsav : saved i = false) (hsome : (stored userId).isSome) :
    Passwords cfg requests stored (Function.update target i (some userId)) saved
      (⟨i, .consume token, true⟩ :: trace) := by
  -- the entries made so far are of other calls
  have hother {m : Made ι Call Call.Answer} (hm : m ∈ trace) (hwins : Wins m) : m.who ≠ i :=
    fun hwho => h.wins m hm hwins (hwho ▸ htgt)
  have hres (u : String) : resets requests (update target i (some userId))
      (⟨i, .consume token, true⟩ :: trace) u =
        (if (requests i).isReset ∧ userId = u then [i] else []) ++
          resets requests target trace u := by
    have hold : (trace.filter fun m => Wins m ∧ (requests m.who).isReset ∧
        update target i (some userId) m.who = some u) =
        trace.filter fun m => Wins m ∧ (requests m.who).isReset ∧ target m.who = some u := by
      refine filter_congr fun m hm => ?_
      by_cases hwins : Wins m
      · rw [update_of_ne (hother hm hwins)]
      · simp [hwins]
    unfold resets
    rw [filter_cons, hold]
    have hwin : Wins (⟨i, .consume token, true⟩ : Made ι Call Call.Answer) = true := rfl
    simp only [hwin, update_self, Option.some.injEq, true_and, decide_eq_true_eq]
    split_ifs with hhead
    · rfl
    · rfl
  have hfind (u : String) : (resets requests (update target i (some userId))
      (⟨i, .consume token, true⟩ :: trace) u).find? saved =
        (resets requests target trace u).find? saved := by
    rw [hres]
    split_ifs with hhead
    · rw [singleton_append, find?_cons_of_neg]
      rw [hsav]
      exact Bool.false_ne_true
    · rfl
  refine ⟨fun u c hc => ?_, fun j c hmem => ?_, fun j c hj hc => ?_, fun m hm hwins => ?_,
    fun j u hj => ?_⟩
  · obtain ⟨j, hj, hhash⟩ := h.setBy u c hc
    refine ⟨j, ?_, hhash⟩
    unfold SetBy
    rw [hfind]
    exact hj
  · rcases mem_cons.mp hmem with heq | hmem
    · exact Call.noConfusion (congrArg Made.call heq)
    · obtain ⟨hsaves, hwho⟩ := h.saves j c hmem
      have hne : j ≠ i := by
        rintro rfl
        rw [hsav] at hsaves
        exact nomatch hsaves
      rw [update_of_ne hne]
      exact ⟨hsaves, hwho⟩
  · exact mem_cons_of_mem _ (h.signups j c hj hc)
  · rcases mem_cons.mp hm with rfl | hm
    · rw [update_self]
      exact Option.some_ne_none _
    · rw [update_of_ne (hother hm hwins)]
      exact h.wins m hm hwins
  · by_cases hji : j = i
    · rw [hji, update_self, Option.some.injEq] at hj
      rw [← hj]
      exact ⟨hsome, _, mem_cons_self, hji.symm, rfl⟩
    · rw [update_of_ne hji] at hj
      obtain ⟨hsome', m, hm, hwho, hwins⟩ := h.listed j u hj
      exact ⟨hsome', m, mem_cons_of_mem _ hm, hwho, hwins⟩

theorem find?_update_of_not_mem {u : String} (h : i ∉ resets requests target trace u) :
    (resets requests target trace u).find? (Function.update saved i true) =
      (resets requests target trace u).find? saved := by
  refine find?_congr fun j hj => ?_
  have hne : j ≠ i := fun heq => h (heq ▸ hj)
  rw [update_of_ne hne]

theorem save (h : Passwords cfg requests stored target saved trace) {c c' : Credential}
    {stored' : String → Option Credential} (hself : stored' c.userId = some c')
    (hother : ∀ u, u ≠ c.userId → stored' u = stored u)
    (hhash : c'.passwordHash = c.passwordHash)
    (hregs : ∀ c₀, (requests i).registers cfg = some c₀ → c₀ = c)
    (hkind : ((requests i).registers cfg = some c ∧ stored c.userId = none) ∨
      (target i = some c.userId ∧ (requests i).registers cfg = none ∧
        (((requests i).isReset = false ∧
            ∀ old, stored c.userId = some old → old.passwordHash = c.passwordHash) ∨
          ((requests i).isReset ∧ (requests i).hashed cfg = some c.passwordHash ∧
            ∀ j ∈ (resets requests target trace c.userId).takeWhile (· ≠ i), saved j = false)))) :
    Passwords cfg requests stored' target (Function.update saved i true)
      (⟨i, .saveCredential c, ()⟩ :: trace) := by
  have hres (u : String) : resets requests target (⟨i, .saveCredential c, ()⟩ :: trace) u =
      resets requests target trace u := resets_cons_of_not_wins rfl u
  have hsome {u : String} (hu : (stored u).isSome) : (stored' u).isSome := by
    by_cases heq : u = c.userId
    · rw [heq, hself]
      rfl
    · rw [hother u heq]
      exact hu
  -- what is stored under an address is set by the same call as before
  have hkeep {u : String} {j : ι} (hnot : i ∉ resets requests target trace u)
      (hj : SetBy cfg requests target saved trace u j) :
      SetBy cfg requests target (update saved i true)
        (⟨i, .saveCredential c, ()⟩ :: trace) u j := by
    unfold SetBy at hj ⊢
    rw [hres, find?_update_of_not_mem hnot]
    refine hj.imp_right fun ⟨hfind, hsav, hc⟩ => ⟨hfind, ?_, hc⟩
    by_cases hji : j = i
    · rw [hji, update_self]
    · rw [update_of_ne hji, hsav]
  refine ⟨fun u c₁ hu => ?_, fun j c₁ hmem => ?_, fun j c₁ hj hc => ?_, fun m hm hwins => ?_,
    fun j u hj => ?_⟩
  · by_cases heq : u = c.userId
    · subst heq
      rw [hself, Option.some.injEq] at hu
      subst hu
      rw [hhash]
      rcases hkind with
        ⟨hreg, hnone⟩ | ⟨htgt, hreg, ⟨hreset, hsame⟩ | ⟨hreset, hhas, hbef⟩⟩
      · -- no reset of an address that was not stored
        have hnil : resets requests target trace c.userId = [] := by
          refine eq_nil_iff_forall_not_mem.mpr fun j hj => ?_
          obtain ⟨-, htgt, -⟩ := mem_resets.mp hj
          have hsto := (h.listed j _ htgt).1
          rw [hnone] at hsto
          exact nomatch hsto
        refine ⟨i, .inr ⟨?_, update_self .., c, hreg, rfl⟩, Request.hashed_of_registers hreg⟩
        rw [hres, hnil]
        rfl
      · obtain ⟨old, hold⟩ := Option.isSome_iff_exists.mp (h.listed i _ htgt).1
        obtain ⟨j, hj, hhashj⟩ := h.setBy _ old hold
        have hnot : i ∉ resets requests target trace c.userId := by
          intro hmem
          have hisR := (mem_resets.mp hmem).1
          rw [hreset] at hisR
          exact nomatch hisR
        rw [hsame old hold] at hhashj
        exact ⟨j, hkeep hnot hj, hhashj⟩
      · have hmem : i ∈ resets requests target trace c.userId :=
          mem_resets.mpr ⟨hreset, htgt, (h.listed i _ htgt).2⟩
        refine ⟨i, .inl ?_, hhas⟩
        rw [hres]
        refine find?_of_takeWhile hmem (fun j hj => ?_) (update_self ..)
        have hne : j ≠ i := by simpa using mem_takeWhile_imp hj
        rw [update_of_ne hne]
        exact hbef j hj
    · rw [hother u heq] at hu
      obtain ⟨j, hj, hhashj⟩ := h.setBy u c₁ hu
      have hnot : i ∉ resets requests target trace u := by
        intro hmem
        obtain ⟨hisR, htgt, -⟩ := mem_resets.mp hmem
        rcases hkind with ⟨hreg, -⟩ | ⟨htgt', -⟩
        · rw [Request.not_reset_of_registers hreg] at hisR
          exact nomatch hisR
        · rw [htgt'] at htgt
          exact heq (Option.some.inj htgt).symm
      exact ⟨j, hkeep hnot hj, hhashj⟩
  · rcases mem_cons.mp hmem with hhead | hmem
    · obtain rfl : j = i := congrArg Made.who hhead
      obtain rfl : c₁ = c := Call.saveCredential.inj (congrArg Made.call hhead)
      exact ⟨update_self .., hkind.imp (·.1) (·.1)⟩
    · obtain ⟨hsav, hwho⟩ := h.saves j c₁ hmem
      refine ⟨?_, hwho⟩
      by_cases hji : j = i
      · rw [hji, update_self]
      · rw [update_of_ne hji, hsav]
  · by_cases hji : j = i
    · subst hji
      rw [hregs c₁ hc]
      exact mem_cons_self
    · rw [update_of_ne hji] at hj
      exact mem_cons_of_mem _ (h.signups j c₁ hj hc)
  · rcases mem_cons.mp hm with rfl | hm
    · exact nomatch hwins
    · exact h.wins m hm hwins
  · obtain ⟨hsto, m, hm, hwho, hwins⟩ := h.listed j u hj
    exact ⟨hsome hsto, m, mem_cons_of_mem _ hm, hwho, hwins⟩

end Passwords
end

/-! The tokens. -/

structure Redeemed (requests : ι → Request) (tokens : TokenStore) (locals : ι → Local)
    (trace : List (Made ι Call Call.Answer)) : Prop where
  request : ∀ i, (locals i).request = requests i
  read : ∀ i tok, (locals i).token = some tok → tokens.Issued tok
  won : ∀ i, (locals i).won = true → ∃ tok cred, (locals i).Holds tok cred ∧
    tokens.Spent tok.token ∧ ⟨i, .consume tok.token, true⟩ ∈ trace
  once : ∀ i j tok tok' cred cred', (locals i).won = true → (locals j).won = true →
    (locals i).Holds tok cred → (locals j).Holds tok' cred' → tok.token = tok'.token → i = j
  minted : ∀ token tok, tokens.get token = some tok →
    ∃ i, (locals i).minted = true ∧ (requests i).mints = some token

namespace Redeemed
variable {tokens : TokenStore} {locals : ι → Local} {trace : List (Made ι Call Call.Answer)}

theorem start : Redeemed requests TokenStore.empty (fun i => { request := requests i }) [] where
  request _ := rfl
  read _ _ h := nomatch h
  won _ h := nomatch h
  once _ _ _ _ _ _ h := nomatch h
  minted _ _ h := nomatch h

variable [DecidableEq ι] {i : ι}

theorem quiet (h : Redeemed requests tokens locals trace) {tokens' : TokenStore} {s : Local}
    {m : Made ι Call Call.Answer} (hext : tokens.Extends tokens')
    (hreq : s.request = (locals i).request)
    (hread : ∀ tok, s.token = some tok → tokens'.Issued tok)
    (hstill : s.won = (locals i).won ∧
      (s.won = true → s.token = (locals i).token ∧ s.cred = (locals i).cred))
    (hmints : (locals i).minted = true → s.minted = true)
    (hmin : ∀ token tok, tokens'.get token = some tok → tokens.get token = some tok ∨
      (s.minted = true ∧ (requests i).mints = some token)) :
    Redeemed requests tokens' (Function.update locals i s) (m :: trace) := by
  have hwonOld {j : ι} (hwon : (update locals i s j).won = true) :
      (locals j).won = true := by
    by_cases hj : j = i
    · subst hj
      rwa [update_self, hstill.1] at hwon
    · rwa [update_of_ne hj] at hwon
  have hholds {j : ι} (hwon : (update locals i s j).won = true)
      {tok : VerificationToken} {cred : Credential} :
      (update locals i s j).Holds tok cred ↔ (locals j).Holds tok cred := by
    by_cases hj : j = i
    · subst hj
      rw [update_self] at hwon ⊢
      obtain ⟨htoken, hcred⟩ := hstill.2 hwon
      unfold Local.Holds
      rw [htoken, hcred, hreq]
    · rw [update_of_ne hj]
  refine ⟨fun j => ?_, fun j tok htok => ?_, fun j hwon => ?_,
    fun j k tok tok' cred cred' hj hk hhol hhold => ?_, fun token tok htok => ?_⟩
  · by_cases hj : j = i
    · rw [hj, update_self, hreq]
      exact h.request i
    · rw [update_of_ne hj]
      exact h.request j
  · by_cases hj : j = i
    · rw [hj, update_self] at htok
      exact hread tok htok
    · rw [update_of_ne hj] at htok
      exact hext.issued (h.read j tok htok)
  · obtain ⟨tok, cred, hold, hspent, hmem⟩ := h.won j (hwonOld hwon)
    exact ⟨tok, cred, (hholds hwon).mpr hold, hext.spent hspent, mem_cons_of_mem _ hmem⟩
  · exact h.once j k tok tok' cred cred' (hwonOld hj) (hwonOld hk) ((hholds hj).mp hhol)
      ((hholds hk).mp hhold)
  · have hkeep {j : ι} (hj : (locals j).minted = true) :
        (update locals i s j).minted = true := by
      by_cases hji : j = i
      · subst hji
        rw [update_self]
        exact hmints hj
      · rw [update_of_ne hji]
        exact hj
    rcases hmin token tok htok with hold | ⟨hs, hmint⟩
    · obtain ⟨j, hj, hmint⟩ := h.minted token tok hold
      exact ⟨j, hkeep hj, hmint⟩
    · refine ⟨i, ?_, hmint⟩
      rw [update_self]
      exact hs

theorem win (h : Redeemed requests tokens locals trace) {stored tok : VerificationToken}
    {cred : Credential} (hwon : (locals i).won = false) (hholds : (locals i).Holds tok cred)
    (hget : tokens.get tok.token = some stored) (hcons : stored.consumed = false) :
    Redeemed requests (tokens.put { stored with consumed := true })
      (Function.update locals i ((locals i).consumed true))
      (⟨i, .consume tok.token, true⟩ :: trace) := by
  have hext := TokenStore.extends_put_consumed hget
  have htoken : stored.token = tok.token := tokens.keyed _ _ hget
  have hspent : (tokens.put { stored with consumed := true }).Spent tok.token := by
    rw [← htoken]
    exact ⟨_, TokenStore.get_put_self _ _, rfl⟩
  -- a token consumed before is another one
  have hother {j : ι} {tok' : VerificationToken} {cred' : Credential}
      (hj : (locals j).won = true) (hhol : (locals j).Holds tok' cred') :
      tok'.token ≠ tok.token := by
    intro heq
    obtain ⟨tok'', cred'', hhol'', ⟨stored', hget', hcons'⟩, -⟩ := h.won j hj
    have hsame : tok'' = tok' := Option.some.inj (hhol''.1.symm.trans hhol.1)
    rw [hsame, heq, hget, Option.some.injEq] at hget'
    rw [hget', hcons'] at hcons
    exact nomatch hcons
  have hlocal {j : ι} (hj : (update locals i ((locals i).consumed true) j).won = true) :
      j = i ∨ j ≠ i ∧ (locals j).won = true := by
    by_cases hji : j = i
    · exact .inl hji
    · rw [update_of_ne hji] at hj
      exact .inr ⟨hji, hj⟩
  have hself : ((locals i).consumed true).Holds tok cred := hholds
  refine ⟨fun j => ?_, fun j tok' htok => ?_, fun j hj => ?_,
    fun j k tokj tokk credj credk hj hk hhol hhold heq => ?_, fun token tok' htok => ?_⟩
  · by_cases hj : j = i
    · rw [hj, update_self]
      exact h.request i
    · rw [update_of_ne hj]
      exact h.request j
  · by_cases hj : j = i
    · rw [hj, update_self] at htok
      exact hext.issued (h.read i tok' htok)
    · rw [update_of_ne hj] at htok
      exact hext.issued (h.read j tok' htok)
  · rcases hlocal hj with rfl | ⟨hji, hj⟩
    · rw [update_self]
      exact ⟨tok, cred, hself, hspent, mem_cons_self⟩
    · obtain ⟨tok', cred', hhol', hspent', hmem⟩ := h.won j hj
      rw [update_of_ne hji]
      exact ⟨tok', cred', hhol', hext.spent hspent', mem_cons_of_mem _ hmem⟩
  · have hmine {tok' : VerificationToken} {cred' : Credential}
        (h' : ((locals i).consumed true).Holds tok' cred') : tok' = tok :=
      Option.some.inj (h'.1.symm.trans hself.1)
    rcases hlocal hj with hji | ⟨hji, hj'⟩
    · rw [hji, update_self] at hhol
      rcases hlocal hk with hki | ⟨hki, hk'⟩
      · rw [hji, hki]
      · rw [update_of_ne hki] at hhold
        rw [hmine hhol] at heq
        exact absurd heq.symm (hother hk' hhold)
    · rw [update_of_ne hji] at hhol
      rcases hlocal hk with hki | ⟨hki, hk'⟩
      · rw [hki, update_self] at hhold
        rw [hmine hhold] at heq
        exact absurd heq (hother hj' hhol)
      · rw [update_of_ne hki] at hhold
        exact h.once j k tokj tokk credj credk hj' hk' hhol hhold heq
  · have hkeep {j : ι} : (update locals i ((locals i).consumed true) j).minted =
        (locals j).minted := by
      by_cases hji : j = i
      · rw [hji, update_self]
        rfl
      · rw [update_of_ne hji]
    have hold : ∃ tok', tokens.get token = some tok' := by
      by_cases heq : token = stored.token
      · rw [heq, htoken]
        exact ⟨stored, hget⟩
      · have hne : token ≠ ({ stored with consumed := true } : VerificationToken).token := heq
        rw [TokenStore.get_put_ne tokens hne] at htok
        exact ⟨tok', htok⟩
    obtain ⟨old, hold⟩ := hold
    obtain ⟨j, hj, hmint⟩ := h.minted token old hold
    exact ⟨j, by rw [hkeep, hj], hmint⟩

end Redeemed

/-! The credentials. -/

/-- What is known of the credentials stored and read. -/
structure Accounts (cfg : AuthConfig) (b : Backing) (lower : String → String)
    (requests : ι → Request) (credentials : CredentialStore) (target : ι → Option String)
    (saved : ι → Bool) (seen : ι → Option Credential) : Prop where
  registered : credentials.Registered b lower
  seen : ∀ i c, seen i = some c → c.email = c.userId ∧
    (credentials.getByUserId c.userId).isSome ∧ (c.verified = true → ∃ j, target j = some c.userId)
  verified : ∀ u c, credentials.getByUserId u = some c → c.verified = true →
    ∃ j, target j = some u
  signedUp : ∀ i c, saved i = true → (requests i).registers cfg = some c →
    (credentials.getByUserId c.userId).isSome
  once : ∀ i j c c', saved i = true → saved j = true → (requests i).registers cfg = some c →
    (requests j).registers cfg = some c' → c.userId = c'.userId → i = j

namespace Accounts
variable {cfg : AuthConfig} {b : Backing} {lower : String → String}
  {credentials : CredentialStore} {target : ι → Option String} {saved : ι → Bool}
  {seen : ι → Option Credential}

theorem start : Accounts cfg b lower requests CredentialStore.empty (fun _ => none)
    (fun _ => false) fun _ => none where
  registered := CredentialStore.registered_empty
  seen _ _ h := nomatch h
  verified _ _ h := nomatch h
  signedUp _ _ h := nomatch h
  once _ _ _ _ h := nomatch h

variable [DecidableEq ι] {i : ι}

theorem read (h : Accounts cfg b lower requests credentials target saved seen)
    {found : Option Credential}
    (hfound : ∀ c, found = some c → credentials.getByUserId c.userId = some c) :
    Accounts cfg b lower requests credentials target saved (Function.update seen i found) := by
  refine ⟨h.registered, fun j c hj => ?_, h.verified, h.signedUp, h.once⟩
  by_cases hji : j = i
  · rw [hji, update_self] at hj
    have hget := hfound c hj
    refine ⟨(h.registered.keyed _ _ hget).2, ?_, h.verified _ _ hget⟩
    rw [hget]
    rfl
  · rw [update_of_ne hji] at hj
    exact h.seen j c hj

theorem win (h : Accounts cfg b lower requests credentials target saved seen) {userId : String}
    (htgt : target i = none) :
    Accounts cfg b lower requests credentials (Function.update target i (some userId)) saved
      seen := by
  have hkeep {u : String} (hu : ∃ j, target j = some u) :
      ∃ j, update target i (some userId) j = some u := by
    obtain ⟨j, hj⟩ := hu
    have hne : j ≠ i := by
      rintro rfl
      rw [htgt] at hj
      exact nomatch hj
    exact ⟨j, by rw [update_of_ne hne, hj]⟩
  refine ⟨h.registered, fun j c hj => ?_, fun u c hget hver => hkeep (h.verified u c hget
    hver), h.signedUp, h.once⟩
  obtain ⟨hemail, hsome, hver⟩ := h.seen j c hj
  exact ⟨hemail, hsome, fun hc => hkeep (hver hc)⟩

theorem save (h : Accounts cfg b lower requests credentials target saved seen) {c : Credential}
    (hemail : c.email = c.userId)
    (hkind : ((requests i).registers cfg = some c ∧ credentials.getByEmail b lower c.email = none) ∨
      ((requests i).registers cfg = none ∧ target i = some c.userId ∧
        (credentials.getByUserId c.userId).isSome)) :
    Accounts cfg b lower requests (credentials.save b lower c) target
      (Function.update saved i true) seen := by
  have hself := credentials.getByUserId_save_self b lower c
  have hsome {u : String} (hu : (credentials.getByUserId u).isSome) :
      ((credentials.save b lower c).getByUserId u).isSome := by
    by_cases heq : u = c.userId
    · rw [heq, hself]
      rfl
    · rw [CredentialStore.getByUserId_save_ne heq]
      exact hu
  -- no other signup has saved a credential under this address
  have hfst {j : ι} {c₀ cj : Credential} (hi : (requests i).registers cfg = some c₀)
      (hj : saved j = true) (hcj : (requests j).registers cfg = some cj) :
      c₀.userId ≠ cj.userId := by
    intro heq
    rcases hkind with ⟨hreg, hnone⟩ | ⟨hreg, -⟩
    · obtain rfl := Option.some.inj (hi.symm.trans hreg)
      obtain ⟨old, hold⟩ := Option.isSome_iff_exists.mp (h.signedUp j cj hj hcj)
      refine h.registered.getByEmail_eq_none hnone hold ?_
      rw [hemail, heq]
    · rw [hreg] at hi
      exact nomatch hi
  refine ⟨?_, fun j c' hj => ?_, fun u c' hget hver => ?_, fun j c' hj hc' => ?_,
    fun j k cj ck hj hk hcj hck heq => ?_⟩
  · exact h.registered.save hemail (hkind.symm.imp (·.2.2) (·.2))
  · obtain ⟨hemail', hsome', hver⟩ := h.seen j c' hj
    exact ⟨hemail', hsome hsome', hver⟩
  · by_cases heq : u = c.userId
    · rw [heq, hself, Option.some.injEq] at hget
      rw [← hget, CredentialStore.written_verified] at hver
      rcases hkind with ⟨hreg, -⟩ | ⟨-, htgt, -⟩
      · rw [(Request.fields_of_registers hreg).2] at hver
        exact nomatch hver
      · rw [heq]
        exact ⟨i, htgt⟩
    · rw [CredentialStore.getByUserId_save_ne heq] at hget
      exact h.verified u c' hget hver
  · by_cases hji : j = i
    · rcases hkind with ⟨hreg, -⟩ | ⟨hreg, -⟩
      · rw [hji, hreg, Option.some.injEq] at hc'
        rw [← hc', hself]
        rfl
      · rw [hji, hreg] at hc'
        exact nomatch hc'
    · rw [update_of_ne hji] at hj
      exact hsome (h.signedUp j c' hj hc')
  · by_cases hji : j = i
    · by_cases hki : k = i
      · rw [hji, hki]
      · rw [update_of_ne hki] at hk
        rw [hji] at hcj
        exact absurd heq (hfst hcj hk hck)
    · rw [update_of_ne hji] at hj
      by_cases hki : k = i
      · rw [hki] at hck
        exact absurd heq.symm (hfst hck hj hcj)
      · rw [update_of_ne hki] at hk
        exact h.once j k cj ck hj hk hcj hck heq

end Accounts

end
end Rgnr8.Platform.Auth
