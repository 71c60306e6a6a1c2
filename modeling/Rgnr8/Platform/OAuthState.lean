import Rgnr8.Lib.Base64
import Rgnr8.Lib.OrderedMap
import Rgnr8.Lib.Python
import Rgnr8.Lib.Sha256
import Rgnr8.Lib.Run

/-! The signed `state` of the connect flow: the tenant, the time of issue and a nonce, under a
keyed hash. A nonce is taken once; what was issued more than the lifetime before the state being
verified is forgotten. -/

namespace Rgnr8.Platform.OAuth
open Lib Lib.Py List

/-! HMAC-SHA256. -/

def bytesOfWord (w : UInt32) : List Nat :=
  (List.range 4).map fun i => w.toNat >>> (8 * (3 - i)) % 256

def sha256 (bytes : List Nat) : List Nat :=
  let ws := Sha256.words (Sha256.pad bytes)
  let v := (Sha256.blocks (ws.length / 16) ws).foldl Sha256.compress Sha256.initial
  [v.a, v.b, v.c, v.d, v.e, v.f, v.g, v.h].flatMap bytesOfWord

def blockKey (key : List Nat) : List Nat :=
  let key := if 64 < key.length then sha256 key else key
  key ++ List.replicate (64 - key.length) 0

def hmac (key message : List Nat) : List Nat :=
  let inner := sha256 ((blockKey key).map (· ^^^ 0x36) ++ message)
  sha256 ((blockKey key).map (· ^^^ 0x5c) ++ inner)

/-- `_b64u` -/
def b64u (raw : List UInt8) : List Char := Base64.encode raw

variable (secret : String)

/-- `_mac` -/
def macOf (payload : List Char) : List Char :=
  b64u ((hmac (Sha256.utf8 secret.toList) (Sha256.utf8 payload)).map UInt8.ofNat)

/-! Issuing. -/

structure Nonce where
  text : String
  nonempty : text ≠ ""
  plain : '|' ∉ text.toList
  deriving DecidableEq

structure Issue where
  tenantId : String
  issued : Int
  nonce : Nonce
  deriving DecidableEq

variable (i : Issue)

def Issue.fields : String :=
  i.tenantId ++ "|" ++ toString i.issued ++ "|" ++ i.nonce.text

def Issue.payload : List Char := b64u i.fields.toUTF8.data.toList

/-- `StateSigner.issue` -/
def Issue.state : List Char :=
  i.payload ++ '.' :: macOf secret i.payload

/-! Verifying. -/

inductive StateError where
  | malformed | signatureMismatch | undecodable | expired | inFuture | alreadyUsed

def StateError.text : StateError → String
  | .malformed => "malformed state"
  | .signatureMismatch => "state signature mismatch"
  | .undecodable => "undecodable state"
  | .expired => "state expired"
  | .inFuture => "state issued in the future"
  | .alreadyUsed => "state already used"

structure Reading where
  tenantId : String
  issued : Int
  nonce : String

/-- The three fields, from the right; a state of two has no nonce. -/
def readFields (text : List Char) : Option Reading := do
  let (front, last) ← splitLast '|' text
  match splitLast '|' front with
  | some (tenantId, issued) =>
    return ⟨String.ofList tenantId, ← intOf (String.ofList issued), String.ofList last⟩
  | none => return ⟨String.ofList front, ← intOf (String.ofList last), ""⟩

/-- `verify` up to the clock: the signature, and the fields under it. -/
def readState (state : List Char) : Except StateError Reading :=
  match splitFirst '.' state with
  | none => .error .malformed
  | some (payload, mac) =>
    if mac ≠ macOf secret payload then .error .signatureMismatch
    else
      let reading := do
        let raw ← Base64.decode payload
        let text ← String.fromUTF8? ⟨raw.toArray⟩
        readFields text.toList
      match reading with
      | none => .error .undecodable
      | some reading => .ok reading

/-- The nonces seen, with the time of issue of their states: a dict, or the rows of a table. -/
abbrev NonceStore := OrderedMap String Int

/-- `consume`: forgets what was issued more than the lifetime before this state, and takes the
nonce if it is not there. -/
def consume (ttl : Nat) (seen : NonceStore) (nonce : String) (issued : Int) : Bool × NonceStore :=
  let kept := seen.filter fun _ t => issued - ttl ≤ t
  if (kept.get? nonce).isSome then (false, kept) else (true, kept.set nonce issued)

/-- `StateSigner.verify`, at a reading of the clock. -/
def verify (ttl : Nat) (seen : NonceStore) (state : List Char) (now : Int) :
    Except StateError String × NonceStore :=
  match readState secret state with
  | .error e => (.error e, seen)
  | .ok reading =>
    if ttl < now - reading.issued then (.error .expired, seen)
    else if now + 60 < reading.issued then (.error .inFuture, seen)
    else if reading.nonce = "" then (.ok reading.tenantId, seen)
    else
      let (fresh, seen') := consume ttl seen reading.nonce reading.issued
      if fresh then (.ok reading.tenantId, seen') else (.error .alreadyUsed, seen')

/-! What is issued is read back. -/

theorem fromUTF8?_toUTF8 (s : String) :
    String.fromUTF8? ⟨s.toUTF8.data.toList.toArray⟩ = some s := by
  have hbytes : (⟨s.toUTF8.data.toList.toArray⟩ : ByteArray) = s.toUTF8 := by
    rw [Array.toArray_toList]
  rw [hbytes]
  exact dif_pos s.isValidUTF8

theorem dot_not_mem_payload : '.' ∉ i.payload :=
  fun h => (Base64.mem_encode h).1 rfl

theorem readFields_fields :
    readFields i.fields.toList = some ⟨i.tenantId, i.issued, i.nonce.text⟩ := by
  have hflds : i.fields.toList = (i.tenantId.toList ++ '|' :: (toString i.issued).toList) ++
      '|' :: i.nonce.text.toList := by
    simp only [Issue.fields, String.toList_append, append_assoc]
    rfl
  have hiss : '|' ∉ (toString i.issued).toList := not_mem_toString (by decide) (by decide) _
  unfold readFields
  rw [hflds, splitLast_append i.nonce.plain]
  simp only [Option.bind_eq_bind, Option.bind_some, splitLast_append hiss, String.ofList_toList,
    intOf_toString]
  rfl

theorem readState_state :
    readState secret (i.state secret) = .ok ⟨i.tenantId, i.issued, i.nonce.text⟩ := by
  unfold readState Issue.state
  rw [splitFirst_append (dot_not_mem_payload i)]
  dsimp only
  rw [if_neg (fun hne => hne rfl)]
  unfold Issue.payload b64u
  simp only [Base64.decode_encode, Option.bind_eq_bind, Option.bind_some, fromUTF8?_toUTF8,
    readFields_fields]

/-! A state is taken once, for its tenant and within its lifetime, in every order of callbacks and
at any readings of the clocks, as long as no state issued more than the lifetime later is verified
between two callbacks with it: what that one lets the store forget is the nonce of the first. -/

structure Issuance where
  issues : List Issue
  distinct : (issues.map fun i => i.nonce.text).Nodup

/-- A call of `verify`. A text whose signature matches was issued. -/
structure Callback (secret : String) (issuance : Issuance) where
  state : List Char
  now : Int
  unforged : ∀ payload, splitFirst '.' state = some (payload, macOf secret payload) →
    ∃ i ∈ issuance.issues, payload = i.payload

structure Consumption where
  nonce : String
  issued : Int
  taken : Bool

structure Acceptance where
  state : List Char
  tenantId : String
  now : Int

structure Callbacks where
  seen : NonceStore
  consumed : List Consumption
  accepted : List Acceptance

def Callbacks.start : Callbacks := ⟨OrderedMap.empty, [], []⟩

/-- Within its lifetime, and not issued more than the tolerated minute ahead. -/
def Timely (ttl : Nat) (issued now : Int) : Prop := now - issued ≤ ttl ∧ issued ≤ now + 60

instance (ttl : Nat) (issued now : Int) : Decidable (Timely ttl issued now) :=
  inferInstanceAs (Decidable (_ ∧ _))

section
variable {secret : String} {issuance : Issuance} {ttl : Nat}

def step (ttl : Nat) (s : Callbacks) (call : Callback secret issuance) : Callbacks :=
  let (result, seen) := verify secret ttl s.seen call.state call.now
  { seen
    consumed := match readState secret call.state with
      | .error _ => s.consumed
      | .ok reading =>
        if Timely ttl reading.issued call.now ∧ reading.nonce ≠ "" then
          ⟨reading.nonce, reading.issued, result.toOption.isSome⟩ :: s.consumed
        else s.consumed
    accepted := match result with
      | .error _ => s.accepted
      | .ok tenantId => ⟨call.state, tenantId, call.now⟩ :: s.accepted }

structure SingleUse (secret : String) (issuance : Issuance) (ttl : Nat) (s : Callbacks) : Prop where
  once : (s.accepted.map Acceptance.state).Nodup
  bound : ∀ a ∈ s.accepted, ∃ i ∈ issuance.issues,
    a.state = i.state secret ∧ a.tenantId = i.tenantId ∧ a.now - i.issued ≤ ttl

def Held (ttl : Nat) (nonce : String) (issued : Int) : List Consumption → Prop
  | [] => False
  | c :: earlier =>
    (c.nonce = nonce ∧ c.taken = true) ∨ (c.issued ≤ issued + ttl ∧ Held ttl nonce issued earlier)

/-- A state that was accepted before, and is presented again within its lifetime, is still held. -/
def Remembered (ttl : Nat) (s : Callbacks) (call : Callback secret issuance) : Prop :=
  ∀ i ∈ issuance.issues, call.state = i.state secret → Timely ttl i.issued call.now →
    (∃ a ∈ s.accepted, a.state = call.state) → Held ttl i.nonce.text i.issued s.consumed

def present (secret : String) (ttl : Nat) (s : Callbacks) (i : Issue) (now : Int) : Callbacks :=
  let p := consume ttl s.seen i.nonce.text i.issued
  ⟨p.2, ⟨i.nonce.text, i.issued, p.1⟩ :: s.consumed,
    if p.1 then ⟨i.state secret, i.tenantId, now⟩ :: s.accepted else s.accepted⟩

theorem issue_of_readState (call : Callback secret issuance) {reading : Reading}
    (h : readState secret call.state = .ok reading) :
    ∃ i ∈ issuance.issues, call.state = i.state secret ∧
      reading = ⟨i.tenantId, i.issued, i.nonce.text⟩ := by
  cases hsplit : splitFirst '.' call.state with
  | none =>
    rw [readState, hsplit] at h
    exact nomatch h
  | some p =>
    obtain ⟨payload, mac⟩ := p
    have hmac : mac = macOf secret payload := by
      by_contra hne
      rw [readState, hsplit] at h
      dsimp only at h
      rw [if_pos hne] at h
      exact nomatch h
    subst hmac
    obtain ⟨i, hi, rfl⟩ := call.unforged payload hsplit
    have hstate : call.state = i.state secret := eq_of_splitFirst hsplit
    rw [hstate, readState_state, Except.ok.injEq] at h
    exact ⟨i, hi, hstate, h.symm⟩

theorem step_cases (s : Callbacks) (call : Callback secret issuance) :
    ((∀ i ∈ issuance.issues, call.state = i.state secret → ¬ Timely ttl i.issued call.now) ∧
      step ttl s call = s) ∨
    ∃ i ∈ issuance.issues, call.state = i.state secret ∧ Timely ttl i.issued call.now ∧
      step ttl s call = present secret ttl s i call.now := by
  cases hread : readState secret call.state with
  | error e =>
    refine .inl ⟨fun i _ hstate => ?_, ?_⟩
    · rw [hstate, readState_state] at hread
      exact nomatch hread
    · simp only [step, verify, hread]
  | ok reading =>
    obtain ⟨i, hi, hstate, rfl⟩ := issue_of_readState call hread
    by_cases htime : Timely ttl i.issued call.now
    · refine .inr ⟨i, hi, hstate, htime, ?_⟩
      have hage : ¬ (ttl : Int) < call.now - i.issued := not_lt.mpr htime.1
      have hahead : ¬ call.now + 60 < i.issued := not_lt.mpr htime.2
      simp only [step, verify, hread, if_neg hage, if_neg hahead, if_neg i.nonce.nonempty,
        if_pos (And.intro htime i.nonce.nonempty), present]
      cases hfresh : (consume ttl s.seen i.nonce.text i.issued).1 with
      | false => simp [Except.toOption]
      | true => simp [Except.toOption, hstate]
    · refine .inl ⟨fun j hj hstate' => ?_, ?_⟩
      · have hsame := hread
        rw [hstate', readState_state, Except.ok.injEq, Reading.mk.injEq] at hsame
        rwa [hsame.2.1]
      · have hnot : ¬ (Timely ttl i.issued call.now ∧ i.nonce.text ≠ "") := fun h => htime h.1
        by_cases hage : (ttl : Int) < call.now - i.issued
        · simp only [step, verify, hread, if_neg hnot, if_pos hage]
        · have hahead : call.now + 60 < i.issued :=
            not_le.mp fun hle => htime ⟨not_lt.mp hage, hle⟩
          simp only [step, verify, hread, if_neg hnot, if_neg hage, if_pos hahead]

end

/-! One callback. -/

/-- The store has the nonces that are still held, and none that was not issued. -/
structure Traced (issuance : Issuance) (ttl : Nat) (s : Callbacks) : Prop where
  held : ∀ i ∈ issuance.issues,
    (s.seen.get? i.nonce.text).isSome = true ↔ Held ttl i.nonce.text i.issued s.consumed
  stamped : ∀ i ∈ issuance.issues, ∀ t, s.seen.get? i.nonce.text = some t → t = i.issued

theorem Issuance.eq_of_nonce (issuance : Issuance) {i j : Issue} (hi : i ∈ issuance.issues)
    (hj : j ∈ issuance.issues) (h : i.nonce.text = j.nonce.text) : i = j :=
  inj_on_of_nodup_map issuance.distinct hi hj h

theorem eq_of_state {secret : String} {i j : Issue} (h : i.state secret = j.state secret) :
    i.tenantId = j.tenantId ∧ i.issued = j.issued ∧ i.nonce.text = j.nonce.text := by
  have hread := readState_state secret i
  rw [h, readState_state, Except.ok.injEq, Reading.mk.injEq] at hread
  exact ⟨hread.1.symm, hread.2.1.symm, hread.2.2.symm⟩

theorem get?_forget {seen : NonceStore} {nonce : String} {cutoff t : Int} :
    (seen.filter fun _ t => cutoff ≤ t).get? nonce = some t ↔
      seen.get? nonce = some t ∧ cutoff ≤ t := by
  rw [OrderedMap.get?_filter, Option.filter_eq_some_iff, decide_eq_true_eq]

section
variable {secret : String} {issuance : Issuance} {ttl : Nat} {s : Callbacks} {i : Issue}

theorem kept_iff (ht : Traced issuance ttl s) {j : Issue} (hj : j ∈ issuance.issues)
    (cutoff : Int) :
    ((s.seen.filter fun _ t => cutoff ≤ t).get? j.nonce.text).isSome = true ↔
      cutoff ≤ j.issued ∧ Held ttl j.nonce.text j.issued s.consumed := by
  rw [← ht.held j hj, Option.isSome_iff_exists, Option.isSome_iff_exists]
  constructor
  · rintro ⟨t, h⟩
    obtain ⟨hseen, hcut⟩ := get?_forget.mp h
    rw [ht.stamped j hj t hseen] at hcut
    exact ⟨hcut, t, hseen⟩
  · rintro ⟨hcut, t, hseen⟩
    have hstamp := ht.stamped j hj t hseen
    exact ⟨t, get?_forget.mpr ⟨hseen, hstamp ▸ hcut⟩⟩

theorem consume_fresh_iff (ht : Traced issuance ttl s) (hi : i ∈ issuance.issues) :
    (consume ttl s.seen i.nonce.text i.issued).1 = true ↔
      ¬ Held ttl i.nonce.text i.issued s.consumed := by
  have hkept := kept_iff ht hi (i.issued - ttl)
  rw [and_iff_right (by omega)] at hkept
  unfold consume
  dsimp only
  split_ifs with h
  · exact iff_of_false id fun hnot => hnot (hkept.mp h)
  · exact iff_of_true rfl fun hheld => h (hkept.mpr hheld)

theorem get?_consume_iff (ht : Traced issuance ttl s) {j : Issue} (hj : j ∈ issuance.issues) :
    ((consume ttl s.seen i.nonce.text i.issued).2.get? j.nonce.text).isSome = true ↔
      (i.nonce.text = j.nonce.text ∧ (consume ttl s.seen i.nonce.text i.issued).1 = true) ∨
      (i.issued ≤ j.issued + ttl ∧ Held ttl j.nonce.text j.issued s.consumed) := by
  have hkept := kept_iff ht hj (i.issued - ttl)
  rw [sub_le_iff_le_add] at hkept
  unfold consume
  dsimp only
  split_ifs with h
  · rw [hkept]
    exact (or_iff_right fun hfalse => hfalse.2).symm
  · by_cases hsame : j.nonce.text = i.nonce.text
    · rw [hsame, OrderedMap.get?_set_self]
      exact iff_of_true rfl (.inl ⟨rfl, rfl⟩)
    · rw [OrderedMap.get?_set_ne _ _ hsame, hkept]
      exact (or_iff_right fun h => hsame h.1.symm).symm

theorem accepted_present (now : Int) (h : (consume ttl s.seen i.nonce.text i.issued).1 = true) :
    (present secret ttl s i now).accepted = ⟨i.state secret, i.tenantId, now⟩ :: s.accepted :=
  if_pos h

theorem Traced.present (ht : Traced issuance ttl s) (hi : i ∈ issuance.issues) (now : Int) :
    Traced issuance ttl (present secret ttl s i now) := by
  refine ⟨fun j hj => ?_, fun j hj t => ?_⟩
  · exact get?_consume_iff ht hj
  · unfold OAuth.present consume
    dsimp only
    split_ifs with h
    · exact fun hkept => ht.stamped j hj t (get?_forget.mp hkept).1
    · intro hset
      by_cases hsame : j.nonce.text = i.nonce.text
      · rw [hsame, OrderedMap.get?_set_self, Option.some.injEq] at hset
        rw [issuance.eq_of_nonce hj hi hsame]
        exact hset.symm
      · rw [OrderedMap.get?_set_ne _ _ hsame] at hset
        exact ht.stamped j hj t (get?_forget.mp hset).1

theorem step_traced (ht : Traced issuance ttl s) (call : Callback secret issuance) :
    Traced issuance ttl (step ttl s call) := by
  rcases step_cases s call with ⟨-, hstep⟩ | ⟨i, hi, -, -, hstep⟩
  · rwa [hstep]
  · rw [hstep]
    exact ht.present hi call.now

theorem step_singleUse_iff (ht : Traced issuance ttl s) (hs : SingleUse secret issuance ttl s)
    (call : Callback secret issuance) :
    SingleUse secret issuance ttl (step ttl s call) ↔ Remembered ttl s call := by
  rcases step_cases s call with ⟨hnot, hstep⟩ | ⟨i, hi, hstate, htime, hstep⟩
  · rw [hstep]
    exact iff_of_true hs fun i hi hstate htime => absurd htime (hnot i hi hstate)
  · have hrem : Remembered ttl s call ↔
        ((∃ a ∈ s.accepted, a.state = call.state) → Held ttl i.nonce.text i.issued s.consumed) := by
      constructor
      · exact fun h => h i hi hstate htime
      · intro h j hj hstate' _ hbef
        obtain ⟨-, hiss, hnonce⟩ := eq_of_state (hstate.symm.trans hstate')
        rw [← hnonce, ← hiss]
        exact h hbef
    rw [hstep, hrem]
    cases hfresh : (consume ttl s.seen i.nonce.text i.issued).1 with
    | false =>
      have hacc : (OAuth.present secret ttl s i call.now).accepted = s.accepted := by
        simp only [OAuth.present, hfresh, Bool.false_eq_true, if_false]
      have hheld : Held ttl i.nonce.text i.issued s.consumed := by
        by_contra hnot
        rw [(consume_fresh_iff ht hi).mpr hnot] at hfresh
        exact nomatch hfresh
      refine iff_of_true ⟨?_, ?_⟩ fun _ => hheld
      · rw [hacc]
        exact hs.once
      · rw [hacc]
        exact hs.bound
    | true =>
      have hacc : (OAuth.present secret ttl s i call.now).accepted =
          ⟨i.state secret, i.tenantId, call.now⟩ :: s.accepted := accepted_present _ hfresh
      have hheld := (consume_fresh_iff ht hi).mp hfresh
      have honce : ((OAuth.present secret ttl s i call.now).accepted.map
          Acceptance.state).Nodup ↔ ¬ ∃ a ∈ s.accepted, a.state = call.state := by
        rw [hacc, map_cons, nodup_cons, and_iff_left hs.once, mem_map, hstate]
      constructor
      · exact fun h hbef => absurd hbef (honce.mp h.once)
      · intro h
        refine ⟨honce.mpr fun hbef => hheld (h hbef), ?_⟩
        rw [hacc]
        intro a ha
        rcases mem_cons.mp ha with rfl | ha
        · exact ⟨i, hi, rfl, rfl, htime.1⟩
        · exact hs.bound a ha

theorem start_traced : Traced issuance ttl .start :=
  ⟨fun _ _ => iff_of_false Bool.false_ne_true id, fun _ _ _ h => (nomatch h)⟩

theorem start_singleUse : SingleUse secret issuance ttl .start :=
  ⟨nodup_nil, fun _ h => (nomatch h)⟩

end

/-- Over a run of callbacks each state is used once, for its tenant and in time, exactly when every
one that was accepted before is still held when it is presented again. -/
theorem states_single_use_iff (secret : String) (issuance : Issuance) (ttl : Nat)
    (calls : List (Callback secret issuance)) :
    Along (step ttl) (SingleUse secret issuance ttl) .start calls ↔
      EachStep (step ttl) (Remembered ttl) .start calls := by
  refine along_iff_eachStep (J := Traced issuance ttl) ?_ ?_ start_traced start_singleUse calls
  · exact fun s call ht hs hok => ⟨step_traced ht call, (step_singleUse_iff ht hs call).mpr hok⟩
  · exact fun s call ht hs hnot h => hnot ((step_singleUse_iff ht hs call).mp h)

/-! Two issues, the second stamped by a clock that is fast by 55 seconds. -/

def firstIssue : Issue := ⟨"acme", 0, ⟨"n1", by decide, by decide⟩⟩

def secondIssue : Issue := ⟨"bolt", 905, ⟨"n2", by decide, by decide⟩⟩

def twoIssues : Issuance := ⟨[firstIssue, secondIssue], by decide⟩

def presented (secret : String) (i : Issue) (hi : i ∈ twoIssues.issues) (now : Int) :
    Callback secret twoIssues where
  state := i.state secret
  now
  unforged := by
    intro payload hsplit
    rw [Issue.state, splitFirst_append (dot_not_mem_payload i)] at hsplit
    exact ⟨i, hi, (Prod.mk.inj (Option.some.inj hsplit)).1.symm⟩

variable {now : Int} {i : Issue} {ttl : Nat} {secret : String}

theorem step_presented (hi : i ∈ twoIssues.issues) (htime : Timely ttl i.issued now)
    (s : Callbacks) : step ttl s (presented secret i hi now) = present secret ttl s i now := by
  rcases step_cases s (presented secret i hi now) with ⟨hnot, -⟩ | ⟨j, hj, hstate, -, hstep⟩
  · exact absurd htime (hnot i hi rfl)
  · have hij := twoIssues.eq_of_nonce hi hj (eq_of_state hstate).2.2
    subst hij
    exact hstep

theorem not_singleUse_again {issuance : Issuance} {s : Callbacks}
    (hfresh : (consume ttl s.seen i.nonce.text i.issued).1 = true)
    (hbef : i.state secret ∈ s.accepted.map Acceptance.state) :
    ¬ SingleUse secret issuance ttl (present secret ttl s i now) := by
  intro h
  have honce := h.once
  rw [accepted_present now hfresh, map_cons, nodup_cons] at honce
  exact honce.1 hbef

theorem mem_accepted_present {s : Callbacks}
    (hfresh : (consume ttl s.seen i.nonce.text i.issued).1 = true) {state : List Char} :
    state ∈ (present secret ttl s i now).accepted.map Acceptance.state ↔
      state = i.state secret ∨ state ∈ s.accepted.map Acceptance.state := by
  rw [accepted_present now hfresh, map_cons, mem_cons]

theorem replayed_state_accepted : ¬ ∀ calls : List (Callback "s3cret" twoIssues),
    Along (step 900) (SingleUse "s3cret" twoIssues 900) .start calls := by
  intro hall
  have hafter := hall [presented _ firstIssue (by decide) 840,
    presented _ secondIssue (by decide) 850, presented _ firstIssue (by decide) 851] _
    prefix_rfl
  -- by rewriting: reducing the fold would compute the signatures
  rw [foldl_cons, step_presented _ (by decide), foldl_cons,
    step_presented _ (by decide), foldl_cons, step_presented _ (by decide), foldl_nil]
    at hafter
  refine not_singleUse_again (by decide) ?_ hafter
  rw [mem_accepted_present (by decide), mem_accepted_present (by decide)]
  exact .inr (.inl rfl)

end Rgnr8.Platform.OAuth
