import Rgnr8.Lib.OrderedMap

/-! Partner API keys. A key is `rgk_<key_id>_<secret>`; the store keeps a hash of the secret, and
the scopes that narrow the key, which the table writes as one text. -/

namespace Rgnr8.Platform.ApiKeys
open Lib OrderedMap

structure ApiKey where
  keyId : String
  secretHash : String
  tenantId : String
  subject : String
  name : String := ""
  createdAt : Int := 0
  expiresAt : Int := 0
  revoked : Bool := false
  scopes : Option (List String) := none

/-! The two stores. -/

structure ApiKeyStore (σ : Type) where
  empty : σ
  save : ApiKey → σ → σ
  get : σ → String → Option ApiKey

def inMemoryApiKeyStore : ApiKeyStore (OrderedMap String ApiKey) where
  empty := OrderedMap.empty
  save key s := s.set key.keyId key
  get s keyId := s.get? keyId

/-- The columns beside the primary key. -/
structure Row where
  secretHash : String
  tenantId : String
  subject : String
  name : String
  createdAt : Int
  expiresAt : Int
  revoked : Int
  scopes : String

/-- The empty text is for a key that has its subject's full role. -/
def encodeScopes : Option (List String) → String
  | none => ""
  | some scopes => ",".intercalate scopes

def decodeScopes (rawScopes : String) : Option (List String) :=
  if rawScopes = "" then none else some ((rawScopes.toList.splitOn ',').map String.ofList)

def ApiKey.row (key : ApiKey) : Row where
  secretHash := key.secretHash
  tenantId := key.tenantId
  subject := key.subject
  name := key.name
  createdAt := key.createdAt
  expiresAt := key.expiresAt
  revoked := if key.revoked then 1 else 0
  scopes := encodeScopes key.scopes

def toKey (keyId : String) (r : Row) : ApiKey where
  keyId := keyId
  secretHash := r.secretHash
  tenantId := r.tenantId
  subject := r.subject
  name := r.name
  createdAt := r.createdAt
  expiresAt := r.expiresAt
  revoked := r.revoked ≠ 0
  scopes := decodeScopes r.scopes

def upsert (key : ApiKey) : Option Row → Row
  | none => key.row
  | some r => { r with revoked := key.row.revoked, name := key.row.name, scopes := key.row.scopes }

def sqlApiKeyStore : ApiKeyStore (OrderedMap String Row) where
  empty := OrderedMap.empty
  save key s := s.set key.keyId (upsert key (s.get? key.keyId))
  get s keyId := (s.get? keyId).map (toKey keyId)

/-! The service. -/

/-- A request to issue, with the id and the secret drawn for it and the time of the clock. -/
structure Issue where
  tenantId : String
  subject : String
  name : String := ""
  scopes : Option (List String) := none
  keyId : String
  raw : String
  now : Int
  deriving DecidableEq

def plaintext (keyId raw : String) : String := "rgk" ++ "_" ++ keyId ++ "_" ++ raw

def expiry (ttlDays now : Int) : Int := if 0 < ttlDays then now + ttlDays * 86400 else 0

structure ApiKeyService where
  hash : String → String
  ttlDays : Int

namespace ApiKeyService
variable {σ : Type} (service : ApiKeyService) (store : ApiKeyStore σ)

def keyOf (i : Issue) : ApiKey where
  keyId := i.keyId
  secretHash := service.hash i.raw
  tenantId := i.tenantId
  subject := i.subject
  name := i.name
  createdAt := i.now
  expiresAt := expiry service.ttlDays i.now
  scopes := i.scopes

def issue (i : Issue) (s : σ) : (ApiKey × String) × σ :=
  ((service.keyOf i, plaintext i.keyId i.raw), store.save (service.keyOf i) s)

end ApiKeyService

/-- The text before the first separator and the text after it. -/
def splitOnce (sep : Char) : List Char → Option (List Char × List Char)
  | [] => none
  | c :: cs => if c = sep then some ([], cs) else (splitOnce sep cs).map fun p => (c :: p.1, p.2)

/-- The three parts of `presented.split("_", 2)`, where there are three. -/
def parts (presented : String) : Option (String × String × String) :=
  (splitOnce '_' presented.toList).bind fun p => (splitOnce '_' p.2).map fun q =>
    (String.ofList p.1, String.ofList q.1, String.ofList q.2)

namespace ApiKeyService
variable {σ : Type} (service : ApiKeyService) (store : ApiKeyStore σ)

/-- The checks a record passes, the expiry last. -/
def admits (rec : ApiKey) (raw : String) (now : Int) : Bool :=
  ¬ rec.revoked ∧ rec.secretHash = service.hash raw ∧ ¬ (rec.expiresAt ≠ 0 ∧ rec.expiresAt ≤ now)

def resolveRecord (s : σ) (presented : String) (now : Int) : Option ApiKey :=
  match parts presented with
  | none => none
  | some (tag, keyId, raw) =>
    if tag ≠ "rgk" then none else
      (store.get s keyId).filter fun rec => service.admits rec raw now

def verify (s : σ) (presented : String) (now : Int) : Option (String × String) :=
  (service.resolveRecord store s presented now).map fun rec => (rec.tenantId, rec.subject)

def resolve (s : σ) (presented : String) (now : Int) :
    Option (String × String × Option (List String)) :=
  (service.resolveRecord store s presented now).map fun rec =>
    (rec.tenantId, rec.subject, rec.scopes)

end ApiKeyService

def revoke {σ : Type} (store : ApiKeyStore σ) (keyId : String) (s : σ) : Bool × σ :=
  match store.get s keyId with
  | none => (false, s)
  | some rec => (true, store.save { rec with revoked := true } s)

/-! Sequences of calls. -/

inductive Call where
  | issue (i : Issue)
  | resolve (presented : String) (now : Int)
  | verify (presented : String) (now : Int)
  | revoke (keyId : String)

inductive Answer where
  | issued (key : ApiKey) (plaintext : String)
  | resolved (principal : Option (String × String × Option (List String)))
  | verified (principal : Option (String × String))
  | revoked (found : Bool)

section Runs
variable {σ : Type} (service : ApiKeyService) (store : ApiKeyStore σ)

def step (s : σ) : Call → Answer × σ
  | .issue i => (.issued (service.issue store i s).1.1 (service.issue store i s).1.2,
      (service.issue store i s).2)
  | .resolve presented now => (.resolved (service.resolve store s presented now), s)
  | .verify presented now => (.verified (service.verify store s presented now), s)
  | .revoke keyId => (.revoked (revoke store keyId s).1, (revoke store keyId s).2)

variable (calls : List Call)

def after : σ := calls.foldl (fun s c => (step service store s c).2) store.empty

def answersFrom (s : σ) : List Call → List Answer
  | [] => []
  | c :: calls => (step service store s c).1 :: answersFrom (step service store s c).2 calls

def answers : List Answer := answersFrom service store store.empty calls

theorem after_snoc (c : Call) :
    after service store (calls ++ [c]) = (step service store (after service store calls) c).2 :=
  List.foldl_append ..

theorem answersFrom_snoc (s : σ) (calls : List Call) (c : Call) :
    answersFrom service store s (calls ++ [c]) = answersFrom service store s calls ++
      [(step service store (calls.foldl (fun s c => (step service store s c).2) s) c).1] := by
  induction calls generalizing s with
  | nil => rfl
  | cons d calls ih => simp only [List.cons_append, answersFrom, ih, List.foldl_cons]

theorem answers_snoc (c : Call) :
    answers service store (calls ++ [c]) = answers service store calls ++
      [(step service store (after service store calls) c).1] :=
  answersFrom_snoc ..

end Runs

/-! What has been granted: each key as it was asked for, and whether it has been revoked since. -/

structure Grant where
  issue : Issue
  revoked : Bool := false
  deriving DecidableEq

namespace Grant

def plaintext (g : Grant) : String := ApiKeys.plaintext g.issue.keyId g.issue.raw

/-- A key given a number of days lasts them from its issue. -/
def Expired (ttlDays : Int) (g : Grant) (now : Int) : Prop :=
  0 < ttlDays ∧ g.issue.now + ttlDays * 86400 ≤ now

instance (ttlDays : Int) (g : Grant) (now : Int) : Decidable (g.Expired ttlDays now) :=
  inferInstanceAs (Decidable (_ ∧ _))

def revokedBy (keyId : String) (g : Grant) : Grant :=
  if g.issue.keyId = keyId then { g with revoked := true } else g

/-- The record of the key, in a store that keeps `kept` of the scopes. -/
def record (service : ApiKeyService) (kept : Option (List String) → Option (List String))
    (g : Grant) : ApiKey :=
  { service.keyOf g.issue with revoked := g.revoked, scopes := kept g.issue.scopes }

end Grant

def grant (gs : List Grant) : Call → List Grant
  | .issue i => gs ++ [{ issue := i }]
  | .revoke keyId => gs.map (Grant.revokedBy keyId)
  | _ => gs

variable (calls : List Call)

def grants : List Grant := calls.foldl grant []

theorem grants_snoc (c : Call) :
    grants (calls ++ [c]) = grant (grants calls) c := List.foldl_append ..

def issues : List Issue :=
  calls.filterMap fun | .issue i => some i | _ => none

theorem issues_snoc (c : Call) :
    issues (calls ++ [c]) = issues calls ++ issues [c] := List.filterMap_append ..

theorem grants_issue : (grants calls).map Grant.issue = issues calls := by
  induction calls using List.reverseRecOn with
  | nil => rfl
  | append_singleton calls c ih =>
    rw [grants_snoc, issues_snoc, ← ih]
    cases c with
    | issue i => simp [grant, issues]
    | revoke keyId =>
      have hkeep : Grant.issue ∘ Grant.revokedBy keyId = Grant.issue := by
        funext g
        simp only [Function.comp_apply, Grant.revokedBy]
        split <;> rfl
      simp [grant, issues, hkeep]
    | resolve presented now => simp [grant, issues]
    | verify presented now => simp [grant, issues]

/-- The ids are drawn without a collision, and as hexadecimal digits. -/
structure Drawn (calls : List Call) : Prop where
  distinct : ((issues calls).map Issue.keyId).Nodup
  plain : ∀ i ∈ issues calls, '_' ∉ i.keyId.toList

theorem Drawn.of_prefix {calls pre : List Call} (h : Drawn calls) (hpre : pre <+: calls) :
    Drawn pre := by
  have hsub : (issues pre).Sublist (issues calls) := hpre.sublist.filterMap _
  exact ⟨h.distinct.sublist (hsub.map _), fun i hi => h.plain i (hsub.subset hi)⟩

/-! The text of the scopes. -/

theorem encode_decode (rawScopes : String) : encodeScopes (decodeScopes rawScopes) = rawScopes := by
  unfold decodeScopes
  split
  · next h => exact h.symm
  · have hback : ((rawScopes.toList.splitOn ',').map String.ofList).map String.toList =
        rawScopes.toList.splitOn ',' := by
      simp only [List.map_map]
      exact List.map_id'' (fun cs => String.toList_ofList) _
    apply String.toList_inj.mp
    show (",".intercalate _).toList = _
    rw [String.toList_intercalate, hback]
    exact List.intercalate_splitOn ','

/-- The table tells the scopes apart from the full role. -/
def Narrows (scopes : Option (List String)) : Prop := scopes ≠ some [] ∧ scopes ≠ some [""]

theorem decode_encode_iff {scopes : Option (List String)}
    (hfree : ∀ names ∈ scopes, ∀ name ∈ names, ',' ∉ name.toList) :
    decodeScopes (encodeScopes scopes) = scopes ↔ Narrows scopes := by
  cases scopes with
  | none => simp [Narrows, encodeScopes, decodeScopes]
  | some names =>
    by_cases hnil : names = []
    · simp [hnil, Narrows, encodeScopes, decodeScopes]
    have hsplit : (",".intercalate names).toList.splitOn ',' = names.map String.toList := by
      rw [String.toList_intercalate]
      apply List.splitOn_intercalate
      · intro cs hcs
        obtain ⟨name, hname, rfl⟩ := List.mem_map.mp hcs
        exact hfree names rfl name hname
      · simpa using hnil
    by_cases hemp : ",".intercalate names = ""
    · have hone : names.map String.toList = [""].map String.toList := by
        rw [← hsplit, hemp]
        rfl
      have hnames : names = [""] :=
        List.map_injective_iff.mpr (fun _ _ => String.toList_inj.mp) hone
      simp [hnames, Narrows, encodeScopes, decodeScopes]
    · have hne : names ≠ [""] := by
        rintro rfl
        exact hemp (by simp)
      have hback : (names.map String.toList).map String.ofList = names := by
        simp only [List.map_map]
        exact List.map_id'' (fun name => String.ofList_toList) _
      have hdec : decodeScopes (",".intercalate names) = some names := by
        rw [decodeScopes, if_neg hemp, hsplit, hback]
      simp [encodeScopes, hdec, Narrows, hnil, hne]

/-! What a store keeps of a key: all of it, up to what it makes of the scopes. -/

structure Lawful {σ : Type} (store : ApiKeyStore σ)
    (kept : Option (List String) → Option (List String)) : Prop where
  get_empty : ∀ keyId, store.get store.empty keyId = none
  get_new : ∀ {s key}, store.get s key.keyId = none →
    store.get (store.save key s) key.keyId = some { key with scopes := kept key.scopes }
  get_revoked : ∀ {s key}, store.get s key.keyId = some key →
    store.get (store.save { key with revoked := true } s) key.keyId =
      some { key with revoked := true }
  get_other : ∀ {s key keyId}, keyId ≠ key.keyId →
    store.get (store.save key s) keyId = store.get s keyId

theorem lawful_memory : Lawful inMemoryApiKeyStore id where
  get_empty _ := rfl
  get_new _ := get?_set_self ..
  get_revoked _ := get?_set_self ..
  get_other h := get?_set_ne _ _ h

theorem lawful_sql : Lawful sqlApiKeyStore fun scopes => decodeScopes (encodeScopes scopes) where
  get_empty _ := rfl
  get_new {s key} h := by
    have hnone : s.get? key.keyId = none := Option.map_eq_none_iff.mp h
    show ((s.set key.keyId (upsert key (s.get? key.keyId))).get? key.keyId).map _ = _
    rw [get?_set_self, hnone]
    cases hrev : key.revoked <;> simp [upsert, ApiKey.row, toKey, hrev]
  get_revoked {s key} h := by
    obtain ⟨r, hr, hkey⟩ := Option.map_eq_some_iff.mp h
    have hscop : decodeScopes (encodeScopes key.scopes) = key.scopes := by
      rw [← hkey]
      exact congrArg decodeScopes (encode_decode r.scopes)
    show ((s.set key.keyId (upsert { key with revoked := true } (s.get? key.keyId))).get?
      key.keyId).map _ = _
    rw [get?_set_self, hr]
    simp only [upsert, ApiKey.row, toKey, Option.map_some, hscop, Option.some.injEq]
    rw [← hkey]
    simp [toKey]
  get_other {s key keyId} h := by
    show ((s.set key.keyId _).get? keyId).map _ = _
    rw [get?_set_ne _ _ h]
    rfl

section Held
variable {σ : Type} {service : ApiKeyService} {store : ApiKeyStore σ}
  {kept : Option (List String) → Option (List String)}

def Held (service : ApiKeyService) (store : ApiKeyStore σ)
    (kept : Option (List String) → Option (List String)) (s : σ) (gs : List Grant) : Prop :=
  ∀ keyId, store.get s keyId =
    (gs.find? fun g => g.issue.keyId = keyId).map (Grant.record service kept)

theorem find_revokedBy (gs : List Grant) (k keyId : String) :
    (gs.map (Grant.revokedBy k)).find? (fun g => g.issue.keyId = keyId) =
      (gs.find? fun g => g.issue.keyId = keyId).map (Grant.revokedBy k) := by
  rw [List.find?_map]
  congr 2
  funext g
  simp only [Function.comp_apply, Grant.revokedBy]
  split <;> rfl

theorem held_issue (hlawf : Lawful store kept) {s : σ} {gs : List Grant}
    (hheld : Held service store kept s gs) {i : Issue}
    (hfresh : i.keyId ∉ gs.map fun g => g.issue.keyId) :
    Held service store kept (service.issue store i s).2 (grant gs (.issue i)) := by
  have hnone : (gs.find? fun g => g.issue.keyId = i.keyId) = none := by
    rw [List.find?_eq_none]
    intro g hg hkey
    exact hfresh (List.mem_map.mpr ⟨g, hg, by simpa using hkey⟩)
  intro keyId
  show store.get (store.save (service.keyOf i) s) keyId = _
  by_cases hkey : keyId = i.keyId
  · subst hkey
    have hnew : store.get s (service.keyOf i).keyId = none := by
      rw [hheld, show (service.keyOf i).keyId = i.keyId from rfl, hnone, Option.map_none]
    have hfound : (grant gs (.issue i)).find? (fun g => g.issue.keyId = i.keyId) =
        some { issue := i } := by
      rw [grant, List.find?_append, hnone]
      simp
    rw [show i.keyId = (service.keyOf i).keyId from rfl, hlawf.get_new hnew]
    show _ = ((grant gs (.issue i)).find? (fun g => g.issue.keyId = i.keyId)).map _
    rw [hfound]
    rfl
  · have hsav : store.get (store.save (service.keyOf i) s) keyId = store.get s keyId :=
      hlawf.get_other hkey
    rw [hsav, hheld keyId]
    have hother : ¬ i.keyId = keyId := fun h => hkey h.symm
    simp [grant, hother]

theorem held_revoke (hlawf : Lawful store kept) {s : σ} {gs : List Grant}
    (hheld : Held service store kept s gs) (k : String) :
    Held service store kept (revoke store k s).2 (grant gs (.revoke k)) := by
  intro keyId
  show _ = ((gs.map (Grant.revokedBy k)).find? _).map _
  rw [find_revokedBy, Option.map_map]
  have hk := hheld k
  cases hfind : gs.find? fun g => g.issue.keyId = k with
  | none =>
    rw [hfind, Option.map_none] at hk
    -- no grant has this key: nothing is revoked
    have hsame : (revoke store k s).2 = s := by simp [revoke, hk]
    rw [hsame, hheld keyId]
    cases hother : gs.find? fun g => g.issue.keyId = keyId with
    | none => rfl
    | some g =>
      have hg : g.issue.keyId ≠ k := by
        have hmem := List.mem_of_find?_eq_some hother
        simpa using List.find?_eq_none.mp hfind g hmem
      simp [Grant.revokedBy, hg]
  | some g =>
    have hg : g.issue.keyId = k := by simpa using List.find?_some hfind
    rw [hfind, Option.map_some] at hk
    have hsto : store.get s (g.record service kept).keyId = some (g.record service kept) := by
      rw [← hk, ← hg]
      rfl
    have hrevoke : (revoke store k s).2 =
        store.save { g.record service kept with revoked := true } s := by
      simp only [revoke, hk]
    rw [hrevoke]
    -- the revoked key reads back revoked, any other as before
    by_cases hkey : keyId = k
    · have hback := hlawf.get_revoked hsto
      rw [hkey, hfind, show k = (g.record service kept).keyId from hg.symm, hback]
      simp [Grant.revokedBy, Grant.record, hg, ApiKeyService.keyOf]
    · have hsav : store.get (store.save { g.record service kept with revoked := true } s) keyId =
          store.get s keyId := hlawf.get_other fun h => hkey (h.trans hg)
      rw [hsav, hheld keyId]
      cases hother : gs.find? fun g => g.issue.keyId = keyId with
      | none => rfl
      | some g' =>
        have hg' : g'.issue.keyId ≠ k := by
          have hid : g'.issue.keyId = keyId := by simpa using List.find?_some hother
          exact fun h => hkey (hid.symm.trans h)
        simp [Grant.revokedBy, hg']

theorem held_after (hlawf : Lawful store kept) {calls : List Call} (hdrawn : Drawn calls) :
    Held service store kept (after service store calls) (grants calls) := by
  induction calls using List.reverseRecOn with
  | nil => exact fun keyId => hlawf.get_empty keyId
  | append_singleton calls c ih =>
    have hheld := ih (hdrawn.of_prefix (List.prefix_append ..))
    rw [after_snoc, grants_snoc]
    cases c with
    | issue i =>
      apply held_issue hlawf hheld
      have hnd := hdrawn.distinct
      rw [issues_snoc, List.map_append, List.nodup_append] at hnd
      have hids : (grants calls).map (fun g => g.issue.keyId) =
          (issues calls).map Issue.keyId := by
        rw [← grants_issue, List.map_map]
        rfl
      rw [hids]
      exact fun hmem => hnd.2.2 _ hmem i.keyId (by simp [issues]) rfl
    | resolve presented now => exact hheld
    | verify presented now => exact hheld
    | revoke k => exact held_revoke hlawf hheld k

end Held

/-! The parts of a key. -/

theorem splitOnce_eq_some {sep : Char} {cs a b : List Char} :
    splitOnce sep cs = some (a, b) ↔ sep ∉ a ∧ cs = a ++ sep :: b := by
  induction cs generalizing a with
  | nil => simp [splitOnce]
  | cons c cs ih =>
    by_cases hc : c = sep
    · subst hc
      cases a with
      | nil => simp [splitOnce, eq_comm]
      | cons d a =>
        simp only [splitOnce, if_true, Option.some.injEq, Prod.mk.injEq, List.cons_append,
          List.cons.injEq, List.mem_cons, not_or]
        constructor
        · rintro ⟨h, -⟩
          exact nomatch h
        · rintro ⟨⟨h, -⟩, h', -⟩
          exact absurd h' h
    · cases a with
      | nil => simp [splitOnce, hc]
      | cons d a =>
        have hcons : splitOnce sep (c :: cs) = some (d :: a, b) ↔
            c = d ∧ splitOnce sep cs = some (a, b) := by
          simp only [splitOnce, if_neg hc, Option.map_eq_some_iff, Prod.exists, Prod.mk.injEq,
            List.cons.injEq]
          constructor
          · rintro ⟨a', b', h, ⟨rfl, rfl⟩, rfl⟩
            exact ⟨rfl, h⟩
          · rintro ⟨rfl, h⟩
            exact ⟨a, b, h, ⟨rfl, rfl⟩, rfl⟩
        rw [hcons, ih]
        simp only [List.mem_cons, not_or, List.cons_append, List.cons.injEq]
        constructor
        · rintro ⟨rfl, h, h'⟩
          exact ⟨⟨fun he => hc he.symm, h⟩, rfl, h'⟩
        · rintro ⟨⟨-, h⟩, h', h''⟩
          exact ⟨h', h, h''⟩

theorem toList_plaintext (keyId raw : String) :
    (plaintext keyId raw).toList = "rgk".toList ++ '_' :: (keyId.toList ++ '_' :: raw.toList) := by
  simp [plaintext]

theorem parts_plaintext {keyId : String} (h : '_' ∉ keyId.toList) (raw : String) :
    parts (plaintext keyId raw) = some ("rgk", keyId, raw) := by
  have houter : splitOnce '_' (plaintext keyId raw).toList =
      some ("rgk".toList, keyId.toList ++ '_' :: raw.toList) :=
    splitOnce_eq_some.mpr ⟨by decide, toList_plaintext keyId raw⟩
  have hinner : splitOnce '_' (keyId.toList ++ '_' :: raw.toList) =
      some (keyId.toList, raw.toList) := splitOnce_eq_some.mpr ⟨h, rfl⟩
  simp [parts, houter, hinner]

theorem eq_plaintext {presented keyId raw : String}
    (h : parts presented = some ("rgk", keyId, raw)) : presented = plaintext keyId raw := by
  simp only [parts, Option.bind_eq_some_iff, Option.map_eq_some_iff, Prod.mk.injEq] at h
  obtain ⟨⟨tag, rest⟩, houter, ⟨key, secret⟩, hinner, htag, rfl, rfl⟩ := h
  have hrest : rest = key ++ '_' :: secret := (splitOnce_eq_some.mp hinner).2
  have hall : presented.toList = tag ++ '_' :: rest := (splitOnce_eq_some.mp houter).2
  have htags : "rgk".toList = tag := by
    rw [← htag, String.toList_ofList]
  apply String.toList_inj.mp
  rw [toList_plaintext, hall, htags, hrest, String.toList_ofList, String.toList_ofList]

/-! A presented key. -/

section Resolved
variable {σ : Type} {service : ApiKeyService} {store : ApiKeyStore σ}
  {kept : Option (List String) → Option (List String)} {s : σ} {gs : List Grant}

theorem find_grant {g : Grant} (hg : g ∈ gs) (hnd : (gs.map fun g => g.issue.keyId).Nodup) :
    (gs.find? fun g' => g'.issue.keyId = g.issue.keyId) = some g := by
  induction gs with
  | nil => exact absurd hg List.not_mem_nil
  | cons head gs ih =>
    rw [List.map_cons, List.nodup_cons] at hnd
    rcases List.mem_cons.mp hg with rfl | hg
    · simp
    · have hne : ¬ head.issue.keyId = g.issue.keyId := by
        intro h
        exact hnd.1 (List.mem_map.mpr ⟨g, hg, h.symm⟩)
      rw [List.find?_cons, decide_eq_false hne]
      exact ih hg hnd.2

def storedExpired (service : ApiKeyService) (g : Grant) (now : Int) : Prop :=
  expiry service.ttlDays g.issue.now ≠ 0 ∧ expiry service.ttlDays g.issue.now ≤ now

instance (g : Grant) (now : Int) : Decidable (storedExpired service g now) :=
  inferInstanceAs (Decidable (_ ∧ _))

theorem resolve_issued (hheld : Held service store kept s gs)
    (hnd : (gs.map fun g => g.issue.keyId).Nodup) {g : Grant} (hg : g ∈ gs)
    (hplain : '_' ∉ g.issue.keyId.toList) (now : Int) :
    service.resolve store s g.plaintext now =
      if g.revoked ∨ storedExpired service g now then none
      else some (g.issue.tenantId, g.issue.subject, kept g.issue.scopes) := by
  have hget : store.get s g.issue.keyId = some (g.record service kept) := by
    rw [hheld, find_grant hg hnd, Option.map_some]
  have hadm : service.admits (g.record service kept) g.issue.raw now = true ↔
      ¬ (g.revoked ∨ storedExpired service g now) := by
    simp only [ApiKeyService.admits, Grant.record, ApiKeyService.keyOf, storedExpired, not_or]
    simp [or_iff_not_imp_left]
  have hrecord : service.resolveRecord store s g.plaintext now =
      (some (g.record service kept)).filter fun rec => service.admits rec g.issue.raw now := by
    simp only [ApiKeyService.resolveRecord, Grant.plaintext, parts_plaintext hplain, hget,
      ne_eq, not_true_eq_false, if_false]
  rw [ApiKeyService.resolve, hrecord, Option.filter_some]
  by_cases hno : g.revoked = true ∨ storedExpired service g now
  · rw [if_pos hno, if_neg (fun h => (hadm.mp h) hno)]
    rfl
  · rw [if_neg hno, if_pos (hadm.mpr hno)]
    rfl

theorem resolve_unknown (hhash : Function.Injective service.hash)
    (hheld : Held service store kept s gs) {presented : String}
    (hunk : ∀ g ∈ gs, presented ≠ g.plaintext) (now : Int) :
    service.resolve store s presented now = none := by
  rw [ApiKeyService.resolve, Option.map_eq_none_iff, ApiKeyService.resolveRecord]
  split
  · rfl
  · next tag keyId raw hparts =>
    by_cases htag : tag = "rgk"
    · subst htag
      rw [if_neg (fun h => h rfl), Option.filter_eq_none_iff]
      intro rec hrec hadm
      rw [hheld keyId, Option.map_eq_some_iff] at hrec
      obtain ⟨g, hfind, rfl⟩ := hrec
      have hkey : g.issue.keyId = keyId := by simpa using List.find?_some hfind
      have hraw : service.hash g.issue.raw = service.hash raw := by
        simp only [ApiKeyService.admits, Grant.record, ApiKeyService.keyOf] at hadm
        simpa using (of_decide_eq_true hadm).2.1
      have hpres := eq_plaintext hparts
      rw [← hkey, ← hhash hraw] at hpres
      exact hunk g (List.mem_of_find?_eq_some hfind) hpres
    · exact if_pos htag

end Resolved

/-! The law of the keys. -/

/-- Each plaintext issued resolves to what it was issued with while it lasts, and no other text
resolves. -/
structure GrantsExactly {σ : Type} (service : ApiKeyService) (store : ApiKeyStore σ) (s : σ)
    (gs : List Grant) : Prop where
  issued : ∀ g ∈ gs, ∀ now, service.resolve store s g.plaintext now =
    if g.revoked ∨ g.Expired service.ttlDays now then none
    else some (g.issue.tenantId, g.issue.subject, g.issue.scopes)
  others : ∀ presented, (∀ g ∈ gs, presented ≠ g.plaintext) →
    ∀ now, service.resolve store s presented now = none

def ApiKeyLaw (service : ApiKeyService) (calls : List Call) : Prop :=
  ∀ pre, pre <+: calls →
    GrantsExactly service inMemoryApiKeyStore (after service inMemoryApiKeyStore pre) (grants pre) ∧
    GrantsExactly service sqlApiKeyStore (after service sqlApiKeyStore pre) (grants pre) ∧
    answers service inMemoryApiKeyStore pre = answers service sqlApiKeyStore pre

/-- A key that is to last has a time of expiry other than the 0 of the keys without one. -/
def Dated (ttlDays : Int) (i : Issue) : Prop := 0 < ttlDays → i.now + ttlDays * 86400 ≠ 0

def CommaFree (scopes : Option (List String)) : Prop :=
  ∀ names ∈ scopes, ∀ name ∈ names, ',' ∉ name.toList

variable {service : ApiKeyService} {g : Grant} {calls : List Call} {σ : Type}
variable {store : ApiKeyStore σ}

theorem storedExpired_iff (hdated : Dated service.ttlDays g.issue) (now : Int) :
    storedExpired service g now ↔ g.Expired service.ttlDays now := by
  unfold storedExpired Grant.Expired expiry
  by_cases httl : 0 < service.ttlDays
  · simp [httl, hdated httl]
  · simp [httl]

theorem not_storedExpired_at_issue (service : ApiKeyService) (i : Issue) :
    ¬ storedExpired service { issue := i } i.now := by
  unfold storedExpired expiry
  by_cases httl : 0 < service.ttlDays
  · simp only [httl, if_true]
    omega
  · simp [httl]

theorem grants_ids (calls : List Call) :
    (grants calls).map (fun g => g.issue.keyId) = (issues calls).map Issue.keyId := by
  rw [← grants_issue, List.map_map]
  rfl

theorem issue_mem (hg : g ∈ grants calls) : g.issue ∈ issues calls := by
  rw [← grants_issue]
  exact List.mem_map_of_mem hg

theorem resolve_after {kept : Option (List String) → Option (List String)}
    (hlawf : Lawful store kept) (hdrawn : Drawn calls) (hg : g ∈ grants calls) (now : Int) :
    service.resolve store (after service store calls) g.plaintext now =
      if g.revoked ∨ storedExpired service g now then none
      else some (g.issue.tenantId, g.issue.subject, kept g.issue.scopes) :=
  resolve_issued (held_after hlawf hdrawn) (grants_ids calls ▸ hdrawn.distinct) hg
    (hdrawn.plain _ (issue_mem hg)) now

theorem grantsExactly_after {kept : Option (List String) → Option (List String)}
    (hlawf : Lawful store kept) (hhash : Function.Injective service.hash) (hdrawn : Drawn calls)
    (hkept : ∀ i ∈ issues calls, kept i.scopes = i.scopes ∧ Dated service.ttlDays i) :
    GrantsExactly service store (after service store calls) (grants calls) where
  issued g hg now := by
    obtain ⟨hscop, hdated⟩ := hkept g.issue (issue_mem hg)
    rw [resolve_after hlawf hdrawn hg, hscop]
    simp only [storedExpired_iff hdated]
  others _ hunk now := resolve_unknown hhash (held_after hlawf hdrawn) hunk now

theorem answer_congr {τ : Type} {store' : ApiKeyStore τ} {s : σ} {t : τ}
    (h : ∀ keyId, store.get s keyId = store'.get t keyId) (c : Call) :
    (step service store s c).1 = (step service store' t c).1 := by
  have hrecord : ∀ presented now, service.resolveRecord store s presented now =
      service.resolveRecord store' t presented now := by
    intro presented now
    simp only [ApiKeyService.resolveRecord, h]
  cases c with
  | issue i => rfl
  | resolve presented now => simp only [step, ApiKeyService.resolve, hrecord]
  | verify presented now => simp only [step, ApiKeyService.verify, hrecord]
  | revoke keyId =>
    simp only [step, revoke, h]
    cases store'.get t keyId <;> rfl

theorem answers_agree (hdrawn : Drawn calls)
    (hkept : ∀ i ∈ issues calls, decodeScopes (encodeScopes i.scopes) = i.scopes) :
    answers service inMemoryApiKeyStore calls = answers service sqlApiKeyStore calls := by
  induction calls using List.reverseRecOn with
  | nil => rfl
  | append_singleton calls c ih =>
    have hpre : calls <+: calls ++ [c] := List.prefix_append ..
    have hold := hdrawn.of_prefix hpre
    have hkept' : ∀ i ∈ issues calls, decodeScopes (encodeScopes i.scopes) = i.scopes := by
      intro i hi
      apply hkept i
      rw [issues_snoc]
      exact List.mem_append_left _ hi
    have hget : ∀ keyId, inMemoryApiKeyStore.get (after service inMemoryApiKeyStore calls) keyId =
        sqlApiKeyStore.get (after service sqlApiKeyStore calls) keyId := by
      intro keyId
      rw [held_after lawful_memory hold keyId, held_after lawful_sql hold keyId]
      apply Option.map_congr
      intro g hg
      have hscop := hkept' g.issue (issue_mem (List.mem_of_find?_eq_some hg))
      simp only [Grant.record, id_eq, hscop]
    rw [answers_snoc, answers_snoc, ih hold hkept', answer_congr hget c]

theorem issued_at {i : Issue} (hi : i ∈ issues calls) : ∃ pre, pre ++ [Call.issue i] <+: calls := by
  obtain ⟨c, hc, hissue⟩ := List.mem_filterMap.mp hi
  have heq : c = .issue i := by
    cases c with
    | issue j => rw [Option.some.inj hissue]
    | resolve presented now => exact nomatch hissue
    | verify presented now => exact nomatch hissue
    | revoke keyId => exact nomatch hissue
  obtain ⟨pre, post, hcalls⟩ := List.append_of_mem hc
  exact ⟨pre, post, by simp [hcalls, heq]⟩

theorem law_issue (hdrawn : Drawn calls) (hlaw : ApiKeyLaw service calls) {i : Issue}
    (hi : i ∈ issues calls) :
    decodeScopes (encodeScopes i.scopes) = i.scopes ∧ Dated service.ttlDays i := by
  obtain ⟨pre, hpre⟩ := issued_at hi
  obtain ⟨hmemory, hsql, -⟩ := hlaw _ hpre
  have hg : { issue := i } ∈ grants (pre ++ [.issue i]) := by
    simp [grants_snoc, grant]
  have hold := hdrawn.of_prefix hpre
  constructor
  · have hnot : ¬ Grant.Expired service.ttlDays { issue := i } i.now := by
      rintro ⟨httl, hle⟩
      have hlater : i.now + service.ttlDays * 86400 ≤ i.now := hle
      omega
    have hresd := hsql.issued _ hg i.now
    rw [resolve_after lawful_sql hold hg] at hresd
    simpa [not_storedExpired_at_issue service i, hnot] using hresd
  · intro httl hzero
    have hnot : ¬ storedExpired service { issue := i } 0 := by
      simp [storedExpired, expiry, httl, hzero]
    have hexp : Grant.Expired service.ttlDays { issue := i } 0 := ⟨httl, le_of_eq hzero⟩
    have hresd := hmemory.issued _ hg 0
    rw [resolve_after lawful_memory hold hg] at hresd
    simp [hnot, hexp] at hresd

theorem keys_grant_exactly {service : ApiKeyService} (hhash : Function.Injective service.hash)
    {calls : List Call} (hdrawn : Drawn calls)
    (hfree : ∀ i ∈ issues calls, CommaFree i.scopes) :
    ApiKeyLaw service calls ↔
      ∀ i ∈ issues calls, Narrows i.scopes ∧ Dated service.ttlDays i := by
  constructor
  · intro hlaw i hi
    obtain ⟨hscop, hdated⟩ := law_issue hdrawn hlaw hi
    exact ⟨(decode_encode_iff (hfree i hi)).mp hscop, hdated⟩
  · intro h pre hpre
    have hold := hdrawn.of_prefix hpre
    have hsub : ∀ i ∈ issues pre, i ∈ issues calls :=
      fun i hi => (hpre.sublist.filterMap _).subset hi
    have hkept : ∀ i ∈ issues pre, decodeScopes (encodeScopes i.scopes) = i.scopes :=
      fun i hi => (decode_encode_iff (hfree i (hsub i hi))).mpr (h i (hsub i hi)).1
    refine ⟨grantsExactly_after lawful_memory hhash hold ?_,
      grantsExactly_after lawful_sql hhash hold ?_, answers_agree hold hkept⟩
    · exact fun i hi => ⟨rfl, (h i (hsub i hi)).2⟩
    · exact fun i hi => ⟨hkept i hi, (h i (hsub i hi)).2⟩

namespace Sample

/-- With no hash at all, which is free of collisions. -/
def plainService : ApiKeyService := ⟨id, 30⟩

variable (scopes : List String)

def keyFor : Issue where
  tenantId := "acme"
  subject := "svc-import"
  scopes := some scopes
  keyId := "3f9a0c"
  raw := "q_7"
  now := 1000

def history : List Call :=
  [.issue (keyFor scopes), .resolve "rgk_3f9a0c_q_7" 2000, .revoke "3f9a0c",
    .resolve "rgk_3f9a0c_q_7" 3000]

theorem drawn_history : Drawn (history scopes) where
  distinct := by simp [history, issues]
  plain := by
    intro i hi
    have heq : i = keyFor scopes := by simpa [history, issues] using hi
    rw [heq]
    show '_' ∉ "3f9a0c".toList
    decide

theorem keys_grant_exactly_import :
    ApiKeyLaw plainService (history ["journal:post", "report:read"]) ↔
      ∀ i ∈ issues (history ["journal:post", "report:read"]), Narrows i.scopes ∧ Dated 30 i :=
  keys_grant_exactly Function.injective_id (drawn_history _) (by
    intro i hi
    have heq : i = keyFor ["journal:post", "report:read"] := by
      simpa [history, issues] using hi
    rw [heq]
    show ∀ names ∈ some ["journal:post", "report:read"], ∀ name ∈ names, ',' ∉ name.toList
    simp)

theorem keys_not_exact : ¬ ∀ (service : ApiKeyService) (calls : List Call),
    Function.Injective service.hash → Drawn calls → (∀ i ∈ issues calls, CommaFree i.scopes) →
    ApiKeyLaw service calls := by
  intro h
  have hlaw := h plainService (history []) Function.injective_id (drawn_history [])
    (by simp [history, issues, keyFor, CommaFree])
  obtain ⟨-, hsql, -⟩ := hlaw [.issue (keyFor [])] ⟨_, rfl⟩
  have hiss := hsql.issued { issue := keyFor [] } (by decide) 2000
  revert hiss
  decide +kernel

end Sample
end Rgnr8.Platform.ApiKeys
