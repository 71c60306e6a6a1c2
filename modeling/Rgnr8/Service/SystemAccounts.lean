import Rgnr8.Service.ChartEditSpec

/-! System accounts over whole runs of edits. Whether an account is one is worked out anew for each
edit, from its subtype, its code and its name; the name is the one of the three an edit may take. -/

namespace Rgnr8.Service
open Lib Lib.Js Kernel

structure EditRequest where
  facts : BookFacts
  code : String
  changes : AccountChanges

def SavedAccounts.edited (order : RowOrder) (s : SavedAccounts) (request : EditRequest) :
    SavedAccounts := editAccount order request.facts s request.code request.changes

def SystemByName (a : Account) : Prop :=
  a.subtype = some .equity ∧ a.code ≠ openingBalanceEquityCode ∧ a.name = openingBalanceEquityName

def KeepsSystemName (s : SavedAccounts) (request : EditRequest) : Prop :=
  ∀ a ∈ s.list, a.code = request.code → SystemByName a →
    ∀ name ∈ request.changes.name, trim name = openingBalanceEquityName

/-- What is protected of a system account, from one version of it to a later one. -/
structure Protected (a a' : Account) : Prop where
  system : isSystemAccount a' = true
  type : a'.type = a.type
  subtype : a'.subtype = a.subtype
  code : a'.code = a.code
  active : a.isActive = true → a'.isActive = true

theorem Protected.refl {a : Account} (h : isSystemAccount a = true) : Protected a a :=
  ⟨h, rfl, rfl, rfl, id⟩

theorem Protected.trans {a b c : Account} (h : Protected a b) (h' : Protected b c) :
    Protected a c where
  system := h'.system
  type := h'.type.trans h.type
  subtype := h'.subtype.trans h.subtype
  code := h'.code.trans h.code
  active := fun hactive => h'.active (h.active hactive)

theorem isActive_stored (a : Account) : a.stored.isActive = a.isActive := by
  unfold Account.isActive Account.stored
  cases a.active with
  | none => rfl
  | some active => rfl

theorem isSystemAccount_of_kept {a b : Account} (h : isSystemAccount a = true)
    (hsub : b.subtype = a.subtype) (hcode : b.code = a.code)
    (hname : SystemByName a → b.name = openingBalanceEquityName) : isSystemAccount b = true := by
  unfold isSystemAccount at h ⊢
  rw [hsub, hcode]
  by_cases hlis : a.subtype.any (fun s => s ∈ systemSubtypes) = true
  · rw [if_pos hlis]
  · rw [if_neg hlis] at h ⊢
    by_cases hequity : a.subtype ≠ some .equity
    · rw [if_pos hequity] at h
      cases h
    · rw [if_neg hequity] at h ⊢
      have hkind : a.code = openingBalanceEquityCode ∨ a.name = openingBalanceEquityName :=
        of_decide_eq_true h
      refine decide_eq_true ?_
      by_cases hopn : a.code = openingBalanceEquityCode
      · exact .inl hopn
      · exact .inr (hname ⟨not_not.mp hequity, hopn, hkind.resolve_left hopn⟩)

theorem protected_edited {order : RowOrder} {s : SavedAccounts} {request : EditRequest}
    (hkeeps : KeepsSystemName s request) {id : AccountId} {a : Account} (ha : s.get id = some a)
    (hsyst : isSystemAccount a = true) :
    ∃ a', (SavedAccounts.edited order s request).get id = some a' ∧ Protected a a' := by
  unfold SavedAccounts.edited editAccount
  cases hedit : accountEdited order request.facts s request.code request.changes with
  | none => exact ⟨a, ha, .refl hsyst⟩
  | some next =>
    obtain ⟨chart, current, hchart, hcur, hnext⟩ := accountEdited_eq_some hedit
    show ∃ a', (s.save next).get id = some a' ∧ _
    rw [SavedAccounts.get_save]
    by_cases hid : id = next.id
    · rw [if_pos hid]
      refine ⟨next, rfl, ?_⟩
      -- the account edited is the stored version of this one
      obtain ⟨hmem, hcode⟩ := ChartOfAccounts.getByCode_iff.mp hcur
      have hget := SavedAccounts.get_chart hchart id
      rw [hid, hnext.id, ChartOfAccounts.get_iff.mpr ⟨hmem, rfl⟩, ← hnext.id, ← hid, ha] at hget
      obtain rfl : current = a.stored := Option.some.inj hget
      obtain ⟨htype, hsub, hnumb, hactive⟩ := hnext.system hsyst
      refine ⟨isSystemAccount_of_kept hsyst hsub hnumb ?_, htype, hsub, hnumb, ?_⟩
      · intro hbyN
        rw [hnext.name]
        cases hname : request.changes.name with
        | none => exact hbyN.2.2
        | some name =>
          exact hkeeps a (SavedAccounts.get_iff.mp ha).1 hcode hbyN name hname
      · rw [isActive_stored] at hactive
        exact hactive
    · rw [if_neg hid]
      exact ⟨a, ha, .refl hsyst⟩

/-- Over a run of edits none of which takes the name from an account that is a system account by it,
every account that is one at the start keeps its type, detail type and code, and stays active, in
every state of the run. -/
theorem system_accounts_protected (order : RowOrder) (s : SavedAccounts)
    (requests : List EditRequest)
    (h : EachStep (SavedAccounts.edited order) KeepsSystemName s requests) (id : AccountId)
    (a : Account) (ha : s.get id = some a) (hsystem : isSystemAccount a = true) :
    Along (SavedAccounts.edited order) (fun s' => ∃ a', s'.get id = some a' ∧ Protected a a') s
      requests := by
  refine along_of_eachStep (fun s' request hstate hkeeps => ?_) ⟨a, ha, .refl hsystem⟩ h
  obtain ⟨b, hb, hprot⟩ := hstate
  obtain ⟨c, hc, hnext⟩ := protected_edited hkeeps hb hprot.system
  exact ⟨c, hc, hprot.trans hnext⟩

namespace SystemSample

def equity : Account :=
  ⟨"acct:3900", "3900", "Opening Balance Equity", .equity, usd, none, some .equity, none, none⟩

def saved : SavedAccounts := .save .empty equity

def facts : BookFacts := ⟨usd, false, fun _ => false, fun _ => 0⟩

def noChanges : AccountChanges := ⟨none, none, none, none, none, none⟩

def rename : EditRequest := ⟨facts, "3900", { noChanges with name := some "Owner contributions" }⟩

def inactivate : EditRequest := ⟨facts, "3900", { noChanges with active := some false }⟩

end SystemSample

theorem opening_equity_protected : Along (SavedAccounts.edited .inMemory)
    (fun s' => ∃ a', s'.get "acct:3900" = some a' ∧ Protected SystemSample.equity a')
    SystemSample.saved [SystemSample.inactivate] :=
  system_accounts_protected .inMemory SystemSample.saved [SystemSample.inactivate]
    (eachStep_cons.mpr ⟨by unfold KeepsSystemName SystemByName; decide +kernel, eachStep_nil⟩)
    "acct:3900" SystemSample.equity (by decide +kernel) (by decide +kernel)

theorem opening_equity_renamed_and_inactive :
    isSystemAccount SystemSample.equity = true ∧ SystemSample.equity.isActive = true ∧
    SystemSample.saved.get "acct:3900" = some SystemSample.equity ∧
    (([SystemSample.rename, SystemSample.inactivate].foldl (SavedAccounts.edited .inMemory)
      SystemSample.saved).get "acct:3900").map Account.isActive = some false := by
  decide +kernel

end Rgnr8.Service
