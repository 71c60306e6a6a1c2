import Rgnr8.Lib.Fallible
import Rgnr8.Kernel.Types

/-! The chart of accounts: lookups by id and by code that agree with one another. -/

namespace Rgnr8.Kernel
open Lib OrderedMap List

structure ChartOfAccounts where
  byId : OrderedMap AccountId Account
  byCode : OrderedMap String Account
  id_of_get : ∀ {id a}, byId.get? id = some a → a.id = id ∧ byCode.get? a.code = some a
  code_of_get : ∀ {code a}, byCode.get? code = some a → a.code = code ∧ byId.get? a.id = some a

namespace ChartOfAccounts

def empty : ChartOfAccounts := ⟨.empty, .empty, nofun, nofun⟩

def get (coa : ChartOfAccounts) (id : AccountId) : Option Account := coa.byId.get? id

def getByCode (coa : ChartOfAccounts) (code : String) : Option Account := coa.byCode.get? code

def list (coa : ChartOfAccounts) : List Account := coa.byId.values

def listActive (coa : ChartOfAccounts) : List Account :=
  coa.list.filter fun a => a.active ≠ some false

variable {a : Account} {coa coa' : ChartOfAccounts}

theorem id_eq_of_getByCode {code code' : String} {a' : Account} (h : coa.getByCode code = some a)
    (h' : coa.getByCode code' = some a') : a.id = a'.id ↔ code = code' := by
  obtain ⟨hc, hi⟩ := coa.code_of_get h
  obtain ⟨hc', hi'⟩ := coa.code_of_get h'
  constructor
  · intro he
    rw [he, hi'] at hi
    rw [← hc, ← hc', Option.some.inj hi]
  · rintro rfl
    rw [Option.some.inj (h.symm.trans h')]

def insertNew (coa : ChartOfAccounts) (account : Account) (hid : coa.byId.get? account.id = none)
    (hcode : coa.byCode.get? account.code = none) : ChartOfAccounts where
  byId := coa.byId.set account.id { account with active := some (account.active.getD true) }
  byCode := coa.byCode.set account.code { account with active := some (account.active.getD true) }
  id_of_get := by
    intro id a h
    rw [OrderedMap.get?_set] at h
    split_ifs at h with he
    · cases h
      exact ⟨he.symm, OrderedMap.get?_set_self ..⟩
    · obtain ⟨h1, h2⟩ := coa.id_of_get h
      have hne : a.code ≠ account.code := fun hc => by simp [hc, hcode] at h2
      exact ⟨h1, (OrderedMap.get?_set_ne _ _ hne).trans h2⟩
  code_of_get := by
    intro code a h
    rw [OrderedMap.get?_set] at h
    split_ifs at h with he
    · cases h
      exact ⟨he.symm, OrderedMap.get?_set_self ..⟩
    · obtain ⟨h1, h2⟩ := coa.code_of_get h
      have hne : a.id ≠ account.id := fun hi => by simp [hi, hid] at h2
      exact ⟨h1, (OrderedMap.get?_set_ne _ _ hne).trans h2⟩

def add (coa : ChartOfAccounts) (account : Account) : Except String ChartOfAccounts :=
  if hid : coa.byId.get? account.id = none then
    if hcode : coa.byCode.get? account.code = none then
      match account.subtype.filter fun s => accountTypeOfSubtype s ≠ account.type with
      | some subtype => .error (s!"Account {account.code}: subtype {subtype.text} does not " ++
          s!"belong to type {account.type.text}")
      | none => match account.parentId with
        | none => .ok (coa.insertNew account hid hcode)
        | some parentId => match coa.byId.get? parentId with
          | none => .error s!"Account {account.code}: unknown parentId {parentId}"
          | some parent =>
            if parent.type ≠ account.type then
              .error (s!"Account {account.code}: sub-account type {account.type.text} must " ++
                s!"match parent type {parent.type.text}")
            else if parentId = account.id then
              .error s!"Account {account.code}: cannot be its own parent"
            else .ok (coa.insertNew account hid hcode)
    else .error s!"Duplicate account code: {account.code}"
  else .error s!"Duplicate account id: {account.id}"

theorem add_eq_ok {account : Account} (h : coa.add account = .ok coa') :
    ∃ hid hcode, coa' = coa.insertNew account hid hcode := by
  unfold add at h
  split_ifs at h with hid hcode
  · refine ⟨hid, hcode, ?_⟩
    split at h
    · cases h
    · split at h
      · exact (Except.ok.inj h).symm
      · split at h
        · cases h
        · split_ifs at h
          exact (Except.ok.inj h).symm

theorem getByCode_add {account : Account} (h : coa.add account = .ok coa') (code : String) :
    coa'.getByCode code = if code = account.code
      then some { account with active := some (account.active.getD true) }
      else coa.getByCode code := by
  obtain ⟨hid, hcode, rfl⟩ := add_eq_ok h
  exact get?_set ..

theorem nodup_ids (coa : ChartOfAccounts) : (coa.list.map Account.id).Nodup := by
  have hids : coa.list.map Account.id = coa.byId.keys := by
    unfold list values OrderedMap.keys
    rw [map_map]
    refine map_congr_left fun entry hent => ?_
    exact (coa.id_of_get (mem_entries.mp hent)).1
  rw [hids]
  exact coa.byId.nodup

theorem getByCode_of_mem (h : a ∈ coa.list) : coa.getByCode a.code = some a := by
  obtain ⟨entry, hent, rfl⟩ := mem_map.mp h
  exact (coa.id_of_get (mem_entries.mp hent)).2

theorem nodup_codes (coa : ChartOfAccounts) : (coa.list.map Account.code).Nodup := by
  refine List.Nodup.map_on (fun a ha b hb hcode => ?_) (List.Nodup.of_map _ coa.nodup_ids)
  have hfound := getByCode_of_mem ha
  rw [hcode, getByCode_of_mem hb] at hfound
  exact (Option.some.inj hfound).symm

def ofAccounts (accounts : List Account) : Except String ChartOfAccounts :=
  accounts.foldlM add empty

theorem getByCode_of_foldlM {accounts : List Account} (h : accounts.foldlM add coa = .ok coa')
    {code : String} (ha : coa.getByCode code = some a) : coa'.getByCode code = some a := by
  induction accounts generalizing coa with
  | nil => rwa [← Except.ok.inj h]
  | cons account accounts ih =>
    rw [foldlM_cons, Fallible.bind_eq_ok] at h
    obtain ⟨mid, hadd, hrest⟩ := h
    refine ih hrest ?_
    obtain ⟨-, hcode, -⟩ := add_eq_ok hadd
    have hne : code ≠ account.code := by
      rintro rfl
      cases hcode.symm.trans ha
    rw [getByCode_add hadd, if_neg hne, ha]

theorem getByCode_of_ofAccounts {accounts : List Account} (h : ofAccounts accounts = .ok coa)
    (ha : a ∈ accounts) :
    coa.getByCode a.code = some { a with active := some (a.active.getD true) } := by
  obtain ⟨before, after, rfl⟩ := append_of_mem ha
  unfold ofAccounts at h
  rw [foldlM_append, Fallible.bind_eq_ok] at h
  obtain ⟨mid, -, h⟩ := h
  rw [foldlM_cons, Fallible.bind_eq_ok] at h
  obtain ⟨mid', hadd, hrest⟩ := h
  refine getByCode_of_foldlM hrest ?_
  rw [getByCode_add hadd, if_pos rfl]

def withActive (coa : ChartOfAccounts) (id : AccountId) (a : Account) (active : Bool)
    (h : coa.byId.get? id = some a) : ChartOfAccounts where
  byId := coa.byId.set id { a with active := some active }
  byCode := coa.byCode.set a.code { a with active := some active }
  id_of_get := by
    intro j b hb
    rw [OrderedMap.get?_set] at hb
    split_ifs at hb with he
    · cases hb
      exact ⟨(coa.id_of_get h).1.trans he.symm, OrderedMap.get?_set_self ..⟩
    · obtain ⟨h1, h2⟩ := coa.id_of_get hb
      have hne : b.code ≠ a.code := fun hc => by
        rw [hc, (coa.id_of_get h).2] at h2
        exact he (by rw [← h1, ← Option.some.inj h2, (coa.id_of_get h).1])
      exact ⟨h1, (OrderedMap.get?_set_ne _ _ hne).trans h2⟩
  code_of_get := by
    intro code b hb
    rw [OrderedMap.get?_set] at hb
    split_ifs at hb with he
    · cases hb
      refine ⟨he.symm, ?_⟩
      rw [show id = a.id from (coa.id_of_get h).1.symm]
      exact OrderedMap.get?_set_self ..
    · obtain ⟨h1, h2⟩ := coa.code_of_get hb
      have hne : b.id ≠ id := fun hi => by
        rw [hi, h] at h2
        exact he (by rw [← h1, Option.some.inj h2])
      exact ⟨h1, (OrderedMap.get?_set_ne _ _ hne).trans h2⟩

def setActive (coa : ChartOfAccounts) (id : AccountId) (active : Bool) :
    Except String ChartOfAccounts :=
  match h : coa.byId.get? id with
  | none => .error s!"Unknown account: {id}"
  | some a => .ok (coa.withActive id a active h)

def deactivate (coa : ChartOfAccounts) (id : AccountId) : Except String ChartOfAccounts :=
  coa.setActive id false

def activate (coa : ChartOfAccounts) (id : AccountId) : Except String ChartOfAccounts :=
  coa.setActive id true

end ChartOfAccounts

/-! What accounts a chart loads from: distinct ids and codes, detail types of their own type, and
every parent in front of its sub-accounts. -/

variable (a : Account)

def Account.stored : Account := { a with active := some (a.active.getD true) }

@[simp] theorem Account.id_stored : a.stored.id = a.id := rfl

@[simp] theorem Account.code_stored : a.stored.code = a.code := rfl

@[simp] theorem Account.parentId_stored : a.stored.parentId = a.parentId := rfl

def Account.SubtypeOk : Prop :=
  ∀ subtype, a.subtype = some subtype → accountTypeOfSubtype subtype = a.type

/-- The parent of an account is among `accounts`, and of its type. -/
def Account.ParentIn (accounts : List Account) (a : Account) : Prop :=
  ∀ p, a.parentId = some p → ∃ parent ∈ accounts, parent.id = p ∧ parent.type = a.type

namespace ChartOfAccounts
variable {coa coa' : ChartOfAccounts} {a : Account} {accounts : List Account}

theorem get_iff {id : AccountId} : coa.get id = some a ↔ a ∈ coa.list ∧ a.id = id := by
  unfold get list values
  constructor
  · intro h
    exact ⟨mem_map.mpr ⟨(id, a), mem_entries.mpr h, rfl⟩, (coa.id_of_get h).1⟩
  · rintro ⟨hmem, rfl⟩
    obtain ⟨⟨k, b⟩, he, rfl⟩ := mem_map.mp hmem
    have hget := mem_entries.mp he
    rw [(coa.id_of_get hget).1]
    exact hget

theorem getByCode_iff {code : String} :
    coa.getByCode code = some a ↔ a ∈ coa.list ∧ a.code = code := by
  constructor
  · intro h
    obtain ⟨hcode, hget⟩ := coa.code_of_get h
    exact ⟨(get_iff.mp hget).1, hcode⟩
  · rintro ⟨hmem, rfl⟩
    exact getByCode_of_mem hmem

theorem get_eq_none_iff {id : AccountId} : coa.get id = none ↔ id ∉ coa.list.map Account.id := by
  rw [Option.eq_none_iff_forall_ne_some, mem_map]
  constructor
  · rintro h ⟨b, hb, rfl⟩
    exact h b (get_iff.mpr ⟨hb, rfl⟩)
  · exact fun h b hb => h ⟨b, get_iff.mp hb⟩

theorem getByCode_eq_none_iff {code : String} :
    coa.getByCode code = none ↔ code ∉ coa.list.map Account.code := by
  rw [Option.eq_none_iff_forall_ne_some, mem_map]
  constructor
  · rintro h ⟨b, hb, rfl⟩
    exact h b (getByCode_iff.mpr ⟨hb, rfl⟩)
  · exact fun h b hb => h ⟨b, getByCode_iff.mp hb⟩

theorem list_insertNew (hid : coa.byId.get? a.id = none) (hcode : coa.byCode.get? a.code = none) :
    (coa.insertNew a hid hcode).list = coa.list ++ [a.stored] := by
  unfold list values insertNew
  have hput : ∀ (es : List (AccountId × Account)), (∀ e ∈ es, e.1 ≠ a.id) →
      put es a.id a.stored = es ++ [(a.id, a.stored)] := by
    intro es hes
    induction es with
    | nil => rfl
    | cons e es ih =>
      obtain ⟨hne, hrest⟩ := forall_mem_cons.mp hes
      rw [put_cons_ne hne, ih hrest, cons_append]
  have hnew : ∀ e ∈ coa.byId.entries, e.1 ≠ a.id := by
    rintro ⟨k, b⟩ he rfl
    cases hid.symm.trans (mem_entries.mp he)
  show (put coa.byId.entries a.id a.stored).map Prod.snd = _
  rw [hput _ hnew, map_append]
  rfl

theorem subtypeOk_iff : a.SubtypeOk ↔
    (a.subtype.filter fun s => accountTypeOfSubtype s ≠ a.type) = none := by
  rw [Option.filter_eq_none_iff]
  refine forall_congr' fun subtype => imp_congr_right fun _ => ?_
  rw [decide_eq_true_iff, not_not]

theorem parentIn_iff : a.ParentIn coa.list ↔
    ∀ p, a.parentId = some p → ∃ parent, coa.byId.get? p = some parent ∧ parent.type = a.type := by
  refine forall_congr' fun p => imp_congr_right fun _ => exists_congr fun parent => ?_
  rw [← and_assoc]
  exact and_congr_left fun _ => get_iff.symm

/-- What `add` checks, and what it adds. That an account is not its own parent needs no check: it
is not registered yet. -/
theorem add_eq_ok_iff : coa.add a = .ok coa' ↔
    ∃ hid hcode, coa' = coa.insertNew a hid hcode ∧ a.SubtypeOk ∧ a.ParentIn coa.list := by
  rw [subtypeOk_iff, parentIn_iff]
  unfold add
  by_cases hid : coa.byId.get? a.id = none
  · by_cases hcode : coa.byCode.get? a.code = none
    · rw [dif_pos hid, dif_pos hcode, exists_prop_of_true hid, exists_prop_of_true hcode]
      cases hfilt : a.subtype.filter fun s => accountTypeOfSubtype s ≠ a.type with
      | some subtype => simp
      | none =>
        cases hpar : a.parentId with
        | none => simp [eq_comm]
        | some p =>
          cases hget : coa.byId.get? p with
          | none => simp [hget]
          | some parent =>
            have hne : p ≠ a.id := by
              rintro rfl
              cases hid.symm.trans hget
            by_cases htype : parent.type = a.type
            · simp [hget, htype, hne, eq_comm]
            · simp [hget, htype]
    · rw [dif_pos hid, dif_neg hcode]
      exact iff_of_false (by simp) fun h => hcode h.2.1
  · rw [dif_neg hid]
    exact iff_of_false (by simp) fun h => hid h.1

def LoadsAfter (seen : List Account) : List Account → Prop
  | [] => True
  | a :: accounts => a.id ∉ seen.map Account.id ∧ a.code ∉ seen.map Account.code ∧ a.SubtypeOk ∧
    a.ParentIn seen ∧ LoadsAfter (seen ++ [a.stored]) accounts

theorem exists_foldlM_iff : (∃ coa', accounts.foldlM add coa = .ok coa') ↔
    LoadsAfter coa.list accounts := by
  induction accounts generalizing coa with
  | nil => exact iff_of_true ⟨coa, rfl⟩ trivial
  | cons a accounts ih =>
    have hid : coa.byId.get? a.id = none ↔ a.id ∉ coa.list.map Account.id := get_eq_none_iff
    have hcode : coa.byCode.get? a.code = none ↔ a.code ∉ coa.list.map Account.code :=
      getByCode_eq_none_iff
    rw [LoadsAfter, ← hid, ← hcode]
    constructor
    · rintro ⟨coa', h⟩
      rw [foldlM_cons, Fallible.bind_eq_ok] at h
      obtain ⟨mid, hadd, hrest⟩ := h
      obtain ⟨hnewId, hnewC, rfl, hsub, hpar⟩ := add_eq_ok_iff.mp hadd
      have hloads := ih.mp ⟨coa', hrest⟩
      rw [list_insertNew] at hloads
      exact ⟨hnewId, hnewC, hsub, hpar, hloads⟩
    · rintro ⟨hnewId, hnewC, hsub, hpar, hloads⟩
      have hadd := add_eq_ok_iff.mpr ⟨hnewId, hnewC, rfl, hsub, hpar⟩
      rw [← list_insertNew hnewId hnewC] at hloads
      obtain ⟨coa', hrest⟩ := ih.mpr hloads
      refine ⟨coa', ?_⟩
      rw [foldlM_cons, hadd]
      exact hrest

theorem list_foldlM (h : accounts.foldlM add coa = .ok coa') :
    coa'.list = coa.list ++ accounts.map Account.stored := by
  induction accounts generalizing coa with
  | nil =>
    rw [← Except.ok.inj h]
    exact (append_nil _).symm
  | cons a accounts ih =>
    rw [foldlM_cons, Fallible.bind_eq_ok] at h
    obtain ⟨mid, hadd, hrest⟩ := h
    obtain ⟨hid, hcode, rfl, -, -⟩ := add_eq_ok_iff.mp hadd
    rw [ih hrest, list_insertNew, append_assoc]
    rfl

theorem list_ofAccounts (h : ofAccounts accounts = .ok coa) :
    coa.list = accounts.map Account.stored := list_foldlM h

end ChartOfAccounts

variable {accounts seen : List Account}

theorem Account.ParentIn.mono {seen' : List Account} {a : Account} (h : a.ParentIn seen)
    (himp : ∀ b ∈ seen, ∃ b' ∈ seen', b'.id = b.id ∧ b'.type = b.type) : a.ParentIn seen' := by
  intro p hp
  obtain ⟨parent, hmem, hid, htype⟩ := h p hp
  obtain ⟨parent', hmem', hid', htype'⟩ := himp parent hmem
  exact ⟨parent', hmem', hid'.trans hid, htype'.trans htype⟩

/-- What a chart loads from. -/
structure Loads (accounts : List Account) : Prop where
  ids : (accounts.map Account.id).Nodup
  codes : (accounts.map Account.code).Nodup
  subtypes : ∀ a ∈ accounts, a.SubtypeOk
  parents : ∀ before a after, accounts = before ++ a :: after → a.ParentIn before

theorem forall_split_cons {P : List Account → Account → Prop} {b : Account} :
    (∀ before a after, b :: accounts = before ++ a :: after → P before a) ↔
      P [] b ∧ ∀ before a after, accounts = before ++ a :: after → P (b :: before) a := by
  constructor
  · intro h
    refine ⟨h [] b accounts rfl, fun before a after heq => h (b :: before) a after ?_⟩
    rw [heq]
    rfl
  · rintro ⟨hfst, hrest⟩ before a after heq
    cases before with
    | nil =>
      obtain ⟨rfl, rfl⟩ := cons.inj heq
      exact hfst
    | cons c before =>
      obtain ⟨rfl, htail⟩ := cons.inj heq
      exact hrest before a after htail

theorem nodup_after_cons {f : Account → String} (hf : ∀ a : Account, f a.stored = f a)
    {b : Account} : (((b :: accounts).map f).Nodup ∧ ∀ a ∈ b :: accounts, f a ∉ seen.map f) ↔
      f b ∉ seen.map f ∧ (accounts.map f).Nodup ∧
        ∀ a ∈ accounts, f a ∉ (seen ++ [b.stored]).map f := by
  have hmem : ∀ a, f a ∉ (seen ++ [b.stored]).map f ↔ f a ∉ seen.map f ∧ f a ≠ f b := by
    intro a
    rw [map_append, mem_append, not_or, map_singleton, mem_singleton, hf]
  have hnew : f b ∉ accounts.map f ↔ ∀ a ∈ accounts, f a ≠ f b := by
    rw [mem_map, not_exists]
    exact forall_congr' fun a => not_and
  simp only [map_cons, nodup_cons, forall_mem_cons, hmem, hnew, forall_and]
  tauto

theorem loadsAfter_iff : ChartOfAccounts.LoadsAfter seen accounts ↔
      ((accounts.map Account.id).Nodup ∧ ∀ a ∈ accounts, a.id ∉ seen.map Account.id) ∧
      ((accounts.map Account.code).Nodup ∧ ∀ a ∈ accounts, a.code ∉ seen.map Account.code) ∧
      (∀ a ∈ accounts, a.SubtypeOk) ∧
      ∀ before a after, accounts = before ++ a :: after → a.ParentIn (seen ++ before) := by
  induction accounts generalizing seen with
  | nil => simp [ChartOfAccounts.LoadsAfter]
  | cons b accounts ih =>
    have hseen : ∀ before a, Account.ParentIn (seen ++ [b.stored] ++ before) a ↔
        a.ParentIn (seen ++ b :: before) := by
      intro before a
      constructor
      · refine fun h => h.mono fun c hc => ?_
        rw [append_assoc, mem_append, singleton_append, mem_cons] at hc
        rcases hc with hc | rfl | hc
        · exact ⟨c, mem_append_left _ hc, rfl, rfl⟩
        · exact ⟨b, mem_append_right _ mem_cons_self, rfl, rfl⟩
        · exact ⟨c, mem_append_right _ (mem_cons_of_mem _ hc), rfl, rfl⟩
      · refine fun h => h.mono fun c hc => ?_
        rw [append_assoc]
        rw [mem_append, mem_cons] at hc
        rcases hc with hc | rfl | hc
        · exact ⟨c, mem_append_left _ hc, rfl, rfl⟩
        · exact ⟨c.stored, mem_append_right _ mem_cons_self, rfl, rfl⟩
        · exact ⟨c, mem_append_right _ (mem_cons_of_mem _ hc), rfl, rfl⟩
    rw [ChartOfAccounts.LoadsAfter, ih, nodup_after_cons Account.id_stored,
      nodup_after_cons Account.code_stored, forall_split_cons, append_nil,
      forall_mem_cons]
    simp only [hseen]
    tauto

theorem exists_ofAccounts_iff :
    (∃ coa, ChartOfAccounts.ofAccounts accounts = .ok coa) ↔ Loads accounts := by
  have hemp : ChartOfAccounts.empty.list = [] := rfl
  unfold ChartOfAccounts.ofAccounts
  rw [ChartOfAccounts.exists_foldlM_iff, loadsAfter_iff, hemp]
  constructor
  · rintro ⟨⟨hids, -⟩, ⟨hcodes, -⟩, hsubs, hpars⟩
    exact ⟨hids, hcodes, hsubs, hpars⟩
  · rintro ⟨hids, hcodes, hsubs, hpars⟩
    exact ⟨⟨hids, fun _ _ => not_mem_nil⟩, ⟨hcodes, fun _ _ => not_mem_nil⟩, hsubs, hpars⟩

end Rgnr8.Kernel
