import Rgnr8.Service.ChartEdit

/-! What an accepted plan has been checked for. -/

namespace Rgnr8.Service
open Lib Lib.Js Kernel Fallible Option Except
variable {chart : ChartOfAccounts} {ctx : ChartEditContext} {changes : AccountChanges}
variable {current next account parent : Account} {type : AccountType}
variable {subtype : Option AccountSubtype} {differs : Differences}

structure ParentChecked (chart : ChartOfAccounts) (type : AccountType)
    (accountId : Option AccountId) (height : Nat) (parent : Account) : Prop where
  found : parent ∈ chart.list
  noCycle : ∀ id, accountId = some id →
    meets chart id (chart.list.length + 1) [] (some parent) = false
  active : parent.isActive = true
  type : parent.type = type
  levels : depthOf chart parent + 1 + height ≤ maxChartDepth

theorem checkParent_ok {code : String} {accountId : Option AccountId} {height : Nat}
    (h : checkParent chart code type accountId height = .ok parent) :
    ParentChecked chart type accountId height parent ∧ chart.getByCode code = some parent := by
  unfold checkParent at h
  cases hget : chart.getByCode code with
  | none =>
    rw [hget] at h
    cases h
  | some found =>
    rw [hget] at h
    dsimp only at h
    rw [refuse_eq_ok, refuse_eq_ok, refuse_eq_ok, refuse_eq_ok, refuse_eq_ok] at h
    obtain ⟨-, hcycle, hactive, htype, hlev, hpar⟩ := h
    obtain rfl := ok.inj hpar
    refine ⟨⟨(ChartOfAccounts.getByCode_iff.mp hget).1, ?_, not_not.mp hactive, not_not.mp htype,
      not_lt.mp hlev⟩, rfl⟩
    rintro id rfl
    exact Bool.eq_false_iff.mpr hcycle

theorem resolveTypeAndSubtype_ok {current : Option Account}
    (h : resolveTypeAndSubtype current changes = .ok (type, subtype)) :
    ∀ s, subtype = some s → accountTypeOfSubtype s = type := by
  unfold resolveTypeAndSubtype at h
  cases hsub : changes.subtype.getD (current.bind Account.subtype) with
  | none =>
    rw [hsub] at h
    cases htype : changes.type.or (current.map Account.type) with
    | none =>
      rw [htype] at h
      cases h
    | some t =>
      rw [htype] at h
      obtain ⟨-, rfl⟩ := Prod.mk.injEq .. ▸ ok.inj h
      exact fun s hs => by cases hs
  | some s =>
    rw [hsub] at h
    dsimp only at h
    rw [refuse_eq_ok, refuse_eq_ok] at h
    obtain ⟨-, hsame, hok⟩ := h
    obtain ⟨rfl, rfl⟩ := Prod.mk.injEq .. ▸ ok.inj hok
    rintro s' hs'
    obtain rfl := some.inj hs'
    exact not_not.mp hsame

/-- What an accepted new account looks like. -/
structure Created (ctx : ChartEditContext) (input : NewAccount) (account : Account) : Prop where
  number : account.code = trim input.code
  id : account.id = accountIdFor account.code
  code : ctx.chart.getByCode account.code = none
  subtype : account.SubtypeOk
  active : account.isActive = true
  parent : ∀ p, account.parentId = some p →
    ∃ parent, parent.id = p ∧ ParentChecked ctx.chart account.type none 0 parent

theorem planNewAccount_ok {input : NewAccount} (h : planNewAccount input ctx = .ok account) :
    Created ctx input account := by
  unfold planNewAccount at h
  rw [bind_eq_ok] at h
  obtain ⟨code, hnumb, h⟩ := h
  rw [bind_eq_ok] at h
  obtain ⟨name, -, h⟩ := h
  rw [refuse_bind_eq_ok, bind_eq_ok] at h
  obtain ⟨hcode, ⟨type, subtype⟩, hresv, h⟩ := h
  dsimp only at h
  rw [bind_eq_ok] at h
  obtain ⟨parentId, hpar, h⟩ := h
  rw [bind_eq_ok] at h
  obtain ⟨-, -, hok⟩ := h
  obtain rfl := ok.inj hok
  have hnone : ctx.chart.getByCode code = none := by
    rw [← not_isSome_iff_eq_none]
    exact hcode
  refine ⟨?_, rfl, hnone, resolveTypeAndSubtype_ok hresv, rfl, ?_⟩
  · unfold cleanNumber at hnumb
    rw [refuse_eq_ok] at hnumb
    exact (ok.inj hnumb.2).symm
  rintro p rfl
  unfold parentOfNew at hpar
  cases hcode : input.parentCode.filter (· ≠ "") with
  | none =>
    rw [hcode] at hpar
    cases hpar
  | some parentCode =>
    rw [hcode] at hpar
    obtain ⟨parent, hcheck, hid⟩ := map_eq_ok.mp hpar
    exact ⟨parent, some.inj hid, (checkParent_ok hcheck).1⟩

/-- What an accepted edit has kept, and what it has been checked for. -/
structure Edited (current : Account) (changes : AccountChanges) (ctx : ChartEditContext)
    (next : Account) : Prop where
  id : next.id = current.id
  name : next.name = (changes.name.map trim).getD current.name
  code : next.code = current.code ∨ ctx.chart.getByCode next.code = none
  subtype : next.SubtypeOk
  active : next.active = some (changes.active.getD current.isActive)
  retyped : next.type ≠ current.type →
    ctx.hasPostings current = false ∧ ctx.chart.children current.id = []
  inactivated : changes.active = some false → current.isActive = true → ctx.balanceMinor current = 0
  system : isSystemAccount current = true → next.type = current.type ∧
    next.subtype = current.subtype ∧ next.code = current.code ∧
      (current.isActive = true → next.isActive = true)
  parent : next.parentId = none ∨
    (∃ parent, next.parentId = some parent.id ∧ ParentChecked ctx.chart next.type (some current.id)
      (heightOf ctx.chart current) parent) ∨
    (next.parentId = current.parentId ∧ next.type = current.type ∧
      (next.isActive = true → current.isActive = true))

theorem refuseSystem_ok (h : refuseSystem current changes differs = .ok ())
    (hsyst : isSystemAccount current = true) : differs.type = false ∧ differs.subtype = false ∧
      differs.number = false ∧ ¬ (differs.active = true ∧ changes.active = some false) := by
  unfold refuseSystem at h
  rw [if_pos hsyst, refuse_eq_ok, refuse_eq_ok, refuse_eq_ok] at h
  obtain ⟨htypes, hnumb, hactive, -⟩ := h
  rw [Bool.or_eq_true, not_or, Bool.not_eq_true, Bool.not_eq_true] at htypes
  exact ⟨htypes.1, htypes.2, Bool.eq_false_iff.mpr hnumb, hactive⟩

theorem refuseRetype_ok (h : refuseRetype current ctx differs = .ok ())
    (htype : differs.type = true) :
    ctx.hasPostings current = false ∧ ctx.chart.children current.id = [] := by
  unfold refuseRetype at h
  rw [if_pos htype, refuse_eq_ok] at h
  dsimp only at h
  rw [refuse_eq_ok] at h
  obtain ⟨hposs, hkids, -⟩ := h
  refine ⟨Bool.eq_false_iff.mpr hposs, List.length_eq_zero_iff.mp ?_⟩
  omega

theorem differences_ok (h : differences current changes chart type subtype = .ok differs) :
    (∃ number, numberOf current changes = .ok number ∧ differs.number = decide (number ≠ current.code)) ∧
    differs.type = decide (type ≠ current.type) ∧
    differs.subtype = decide (subtype ≠ current.subtype) ∧
    differs.active = changes.active.any fun active => active ≠ current.isActive := by
  unfold differences at h
  rw [bind_eq_ok] at h
  obtain ⟨name, -, h⟩ := h
  rw [bind_eq_ok] at h
  obtain ⟨number, hnumb, hok⟩ := h
  obtain rfl := ok.inj hok
  exact ⟨⟨number, hnumb, rfl⟩, rfl, rfl, rfl⟩

theorem cleanName_ok {raw : Option String} {before name : String}
    (h : cleanName raw before = .ok name) : name = (raw.map trim).getD before := by
  cases raw with
  | none => exact (ok.inj h).symm
  | some raw =>
    unfold cleanName at h
    dsimp only at h
    rw [refuse_eq_ok] at h
    exact (ok.inj h.2).symm

theorem resolveParent_ok {parentId : Option AccountId}
    (h : resolveParent current changes chart type differs = .ok parentId) :
    parentId = none ∨
    (∃ parent, parentId = some parent.id ∧ ParentChecked chart type (some current.id)
      (heightOf chart current) parent) ∨
    (parentId = current.parentId ∧ differs.type = false ∧
      ¬ (differs.active = true ∧ changes.active = some true)) := by
  unfold resolveParent at h
  cases hcode : (changes.parentCode.map fun code => code.filter (· ≠ "")).getD
      (parentCodeIn chart current) with
  | none =>
    rw [hcode] at h
    exact .inl (ok.inj h).symm
  | some code =>
    rw [hcode] at h
    dsimp only at h
    by_cases hchk : differs.parent = true ∨ differs.type = true ∨
        (differs.active = true ∧ changes.active = some true)
    · rw [if_pos hchk] at h
      obtain ⟨parent, hcheck, hid⟩ := map_eq_ok.mp h
      exact .inr (.inl ⟨parent, hid.symm, (checkParent_ok hcheck).1⟩)
    · rw [if_neg hchk] at h
      obtain ⟨-, htype, hactive⟩ : _ ∧ ¬ differs.type = true ∧ _ := by
        rw [not_or, not_or] at hchk
        exact hchk
      exact .inr (.inr ⟨(ok.inj h).symm, Bool.eq_false_iff.mpr htype, hactive⟩)

theorem applyChanges_ok (hresv : resolveTypeAndSubtype (some current) changes =
      .ok (type, subtype))
    (hdif : differences current changes ctx.chart type subtype = .ok differs)
    (h : applyChanges current changes ctx type subtype differs = .ok next) :
    Edited current changes ctx next := by
  obtain ⟨⟨number, hnumb, hnums⟩, htyp, hsubs, hacts⟩ :=
    differences_ok hdif
  unfold applyChanges at h
  rw [refuse_bind_eq_ok, bind_eq_ok] at h
  obtain ⟨-, ⟨⟩, hsyst, h⟩ := h
  rw [bind_eq_ok] at h
  obtain ⟨⟨⟩, hret, h⟩ := h
  rw [bind_eq_ok] at h
  obtain ⟨⟨⟩, hinac, h⟩ := h
  rw [bind_eq_ok] at h
  obtain ⟨-, -, h⟩ := h
  rw [bind_eq_ok] at h
  obtain ⟨parentId, hpar, h⟩ := h
  rw [hnumb, bind_eq_ok] at h
  obtain ⟨code, hcode, h⟩ := h
  obtain rfl := ok.inj hcode
  rw [refuse_bind_eq_ok, bind_eq_ok] at h
  obtain ⟨hfree, name, hname, h⟩ := h
  rw [bind_eq_ok] at h
  obtain ⟨-, -, hok⟩ := h
  obtain rfl := ok.inj hok
  have htypeS : differs.type = false → type = current.type := by
    intro hsame
    rw [htyp] at hsame
    exact not_not.mp (of_decide_eq_false hsame)
  refine ⟨rfl, cleanName_ok hname, ?_, resolveTypeAndSubtype_ok hresv, rfl, ?_, ?_, ?_, ?_⟩
  · by_cases hsame : number = current.code
    · exact .inl hsame
    · refine .inr (not_isSome_iff_eq_none.mp fun hsome => hfree ⟨?_, hsome⟩)
      rw [hnums]
      exact decide_eq_true hsame
  · intro htype
    refine refuseRetype_ok hret ?_
    rw [htyp]
    exact decide_eq_true htype
  · intro hchg hactive
    unfold refuseInactivation refuse at hinac
    dsimp only at hinac
    rw [refuse_eq_ok] at hinac
    by_contra hbalance
    exact hinac.1 ⟨hchg, hactive, hbalance⟩
  · intro hsys
    obtain ⟨htype, hsubt, hnum, hact⟩ := refuseSystem_ok hsyst hsys
    rw [hsubs] at hsubt
    rw [hnums] at hnum
    refine ⟨htypeS htype, not_not.mp (of_decide_eq_false hsubt),
      not_not.mp (of_decide_eq_false hnum), fun hactive => ?_⟩
    show decide (some (changes.active.getD current.isActive) ≠ some false) = true
    rw [hacts, hactive] at hact
    cases hchg : changes.active with
    | none => simp [hactive]
    | some active =>
      cases active with
      | true => rfl
      | false => exact absurd ⟨by simp [hchg], hchg⟩ hact
  · rcases resolveParent_ok hpar with hnone | hchk | ⟨hsame, htype, hact⟩
    · exact .inl hnone
    · exact .inr (.inl hchk)
    · refine .inr (.inr ⟨hsame, htypeS htype, fun hnext => ?_⟩)
      change decide (some (changes.active.getD current.isActive) ≠ some false) = true at hnext
      by_contra hinact
      rw [Bool.not_eq_true] at hinact
      rw [hacts, hinact] at hact
      cases hchg : changes.active with
      | none => simp [hchg, hinact] at hnext
      | some active =>
        cases active with
        | true => exact hact ⟨by simp [hchg], hchg⟩
        | false => simp [hchg] at hnext

theorem planAccountEdit_ok (h : planAccountEdit current changes ctx = .ok next) :
    next = current ∨ Edited current changes ctx next := by
  unfold planAccountEdit at h
  rw [bind_eq_ok] at h
  obtain ⟨⟨type, subtype⟩, hresv, h⟩ := h
  dsimp only at h
  rw [bind_eq_ok] at h
  obtain ⟨differs, hdif, h⟩ := h
  by_cases hany : differs.any = true
  · rw [if_pos hany] at h
    exact .inr (applyChanges_ok hresv hdif h)
  · rw [if_neg hany] at h
    exact .inl (ok.inj h).symm

section
variable {order : RowOrder} {facts : BookFacts} {s : SavedAccounts} {a : Account}

theorem accountCreated_eq_some {input : NewAccount}
    (h : accountCreated order facts s input = some a) :
    ∃ chart, s.chart order = .ok chart ∧ Created (facts.context chart) input a := by
  unfold accountCreated at h
  obtain ⟨chart, hchart, hplan⟩ := bind_eq_some_iff.mp h
  exact ⟨chart, toOption_eq_some.mp hchart, planNewAccount_ok (toOption_eq_some.mp hplan)⟩

theorem accountEdited_eq_some {code : String}
    (h : accountEdited order facts s code changes = some next) :
    ∃ chart current, s.chart order = .ok chart ∧ chart.getByCode code = some current ∧
      Edited current changes (facts.context chart) next := by
  unfold accountEdited at h
  obtain ⟨chart, hchart, h⟩ := bind_eq_some_iff.mp h
  obtain ⟨current, hcur, h⟩ := bind_eq_some_iff.mp h
  obtain ⟨planned, hplan, h⟩ := bind_eq_some_iff.mp h
  by_cases hsame : planned = current
  · rw [if_pos hsame] at h
    cases h
  · rw [if_neg hsame] at h
    obtain rfl := some.inj h
    refine ⟨chart, current, toOption_eq_some.mp hchart, hcur, ?_⟩
    exact (planAccountEdit_ok (toOption_eq_some.mp hplan)).resolve_left hsame

end

end Rgnr8.Service
