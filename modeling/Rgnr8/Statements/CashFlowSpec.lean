import Rgnr8.Statements.Statements

/-! The cash-flow statement between two journals. Its three sections and the change of cash are
sums over the accounts, and so over the lines. -/

namespace Rgnr8.Statements
open Lib Kernel List
variable {coa : ChartOfAccounts} {before after : List PostedEntry}
variable {start finish : OrderedMap AccountId TrialBalanceEntry}
variable {cls : AccountId → AccountClass}

def cashWeight (coa : ChartOfAccounts) (id : AccountId) : Int :=
  if subtypeOf coa id = some .bank then 1 else 0

def sectionWeight (coa : ChartOfAccounts) (id : AccountId) : Int :=
  if subtypeOf coa id = some .bank then 0
  else if (coa.get id).any fun a => isEarnings (classifyByType a.type) then 0 else 1

/-- What the sections gather besides the net income. -/
def CashFlowSums.moved (sums : CashFlowSums) : Int :=
  sums.operatingWorkingCapital + sums.investing + sums.financing

variable {journal : List PostedEntry} {index : OrderedMap AccountId TrialBalanceEntry}

theorem balanceOf_of_not_mem_keys {id : AccountId} (h : id ∉ (netByAccount journal).keys) :
    balanceOf id journal = 0 := by
  have hnone : (netByAccount journal).get? id = none := by
    rw [Option.eq_none_iff_forall_ne_some]
    exact fun n hn => h (OrderedMap.mem_keys_iff.mpr ⟨n, hn⟩)
  unfold balanceOf
  rw [hnone]
  rfl

theorem Indexes.signed (h : Indexes coa journal index) (id : AccountId) :
    ((index.get? id).map fun e => e.signed).getD 0 = balanceOf id journal := by
  cases hget : index.get? id with
  | none => exact (balanceOf_of_not_mem_keys (h.missing id hget)).symm
  | some e => exact (h.found id e hget).2.1

theorem Indexes.keys_subset (h : Indexes coa journal index) :
    (netByAccount journal).keys ⊆ index.keys := by
  intro id hid
  cases hget : index.get? id with
  | none => exact absurd hid (h.missing id hget)
  | some e => exact OrderedMap.mem_keys_iff.mpr ⟨e, hget⟩

def heldIn (index : OrderedMap AccountId TrialBalanceEntry) (id : AccountId) : Int :=
  ((index.get? id).map TrialBalanceEntry.signed).getD 0

def Listed (cls : AccountId → AccountClass) (index : OrderedMap AccountId TrialBalanceEntry) :
    Prop := ∀ id e, index.get? id = some e → e.accountId = id ∧ e.accountClass = cls id

def restWeight (coa : ChartOfAccounts) (cls : AccountId → AccountClass) (id : AccountId) : Int :=
  if subtypeOf coa id = some .bank then 0 else if isEarnings (cls id) then 0 else 1

variable (coa) in
theorem cashFlowStep_listed (hstart : Listed cls start) (hfin : Listed cls finish)
    (sums : CashFlowSums) (id : AccountId) :
    let next := cashFlowStep (subtypeCashFlowClassifier coa) start finish sums id
    next.beginningCash = sums.beginningCash + cashWeight coa id * heldIn start id ∧
    next.endingCash = sums.endingCash + cashWeight coa id * heldIn finish id ∧
    next.moved = sums.moved + restWeight coa cls id * (heldIn start id - heldIn finish id) := by
  intro next
  cases hrep : (finish.get? id).or (start.get? id) with
  | none =>
    obtain ⟨hnone, hnone'⟩ := Option.or_eq_none_iff.mp hrep
    have hnext : next = sums := by
      unfold next cashFlowStep
      rw [hrep]
    rw [hnext]
    simp [heldIn, hnone, hnone']
  | some rep =>
    have hrepOk : rep.accountId = id ∧ rep.accountClass = cls id := by
      rcases Option.or_eq_some_iff.mp hrep with h | ⟨-, h⟩
      · exact hfin id rep h
      · exact hstart id rep h
    obtain ⟨rfl, hclass⟩ := hrepOk
    unfold next cashFlowStep cashWeight restWeight
    rw [hrep, ← hclass]
    dsimp only
    by_cases hcash : subtypeOf coa rep.accountId = some .bank
    · simp [subtypeCashFlowClassifier, hcash, CashFlowSums.moved, heldIn]
    · have hnot : (subtypeCashFlowClassifier coa).isCash rep = false := decide_eq_false hcash
      rw [hnot, if_neg Bool.false_ne_true, if_neg hcash, if_neg hcash]
      by_cases hearns : rep.accountClass = .revenue ∨ rep.accountClass = .expense
      · have hwt : isEarnings rep.accountClass = true := by
          rcases hearns with h | h <;> rw [h] <;> rfl
        rw [if_pos hearns, hwt]
        simp
      · have hwt : isEarnings rep.accountClass = false := by
          revert hearns
          cases rep.accountClass <;> simp [isEarnings]
        rw [if_neg hearns, hwt]
        cases (subtypeCashFlowClassifier coa).section_ rep <;>
          simp [CashFlowSums.moved, heldIn] <;> ring

variable (coa) in
theorem cashFlow_listed (hstart : Listed cls start) (hfin : Listed cls finish)
    (ids : List AccountId) (sums : CashFlowSums) :
    let total := ids.foldl (cashFlowStep (subtypeCashFlowClassifier coa) start finish) sums
    total.beginningCash =
      sums.beginningCash + (ids.map fun id => cashWeight coa id * heldIn start id).sum ∧
    total.endingCash =
      sums.endingCash + (ids.map fun id => cashWeight coa id * heldIn finish id).sum ∧
    total.moved = sums.moved + (ids.map fun id =>
      restWeight coa cls id * (heldIn start id - heldIn finish id)).sum := by
  induction ids generalizing sums with
  | nil => simp
  | cons id ids ih =>
    obtain ⟨hbegin, hend, hmov⟩ :=
      cashFlowStep_listed coa hstart hfin sums id
    obtain ⟨hbeg', hend', hmov'⟩ :=
      ih (cashFlowStep (subtypeCashFlowClassifier coa) start finish sums id)
    rw [foldl_cons]
    refine ⟨hbeg'.trans ?_, hend'.trans ?_, hmov'.trans ?_⟩
    · rw [hbegin, map_cons, sum_cons, Int.add_assoc]
    · rw [hend, map_cons, sum_cons, Int.add_assoc]
    · rw [hmov, map_cons, sum_cons, Int.add_assoc]

def chartClass (coa : ChartOfAccounts) (id : AccountId) : AccountClass :=
  (coa.get id).elim .asset fun a => classifyByType a.type

theorem restWeight_chartClass (coa : ChartOfAccounts) (id : AccountId) :
    restWeight coa (chartClass coa) id = sectionWeight coa id := by
  unfold restWeight sectionWeight chartClass
  cases coa.get id <;> rfl

theorem Indexes.listed (h : Indexes coa journal index) : Listed (chartClass coa) index := by
  intro id e hget
  obtain ⟨hid, -, a, ha, hclass⟩ := h.found id e hget
  refine ⟨hid, hclass.trans ?_⟩
  unfold chartClass
  rw [ha]
  rfl

theorem cashFlow_sums (hstart : Indexes coa before start) (hfin : Indexes coa after finish)
    (ids : List AccountId) (sums : CashFlowSums) :
    let total := ids.foldl (cashFlowStep (subtypeCashFlowClassifier coa) start finish) sums
    total.beginningCash =
      sums.beginningCash + (ids.map fun id => cashWeight coa id * balanceOf id before).sum ∧
    total.endingCash =
      sums.endingCash + (ids.map fun id => cashWeight coa id * balanceOf id after).sum ∧
    total.moved = sums.moved + (ids.map fun id =>
      sectionWeight coa id * (balanceOf id before - balanceOf id after)).sum := by
  have hlis := cashFlow_listed coa hstart.listed hfin.listed ids sums
  have hbef : heldIn start = fun id => balanceOf id before := funext hstart.signed
  have hafter : heldIn finish = fun id => balanceOf id after := funext hfin.signed
  simp only [hbef, hafter, restWeight_chartClass] at hlis
  exact hlis

theorem sum_balances {ids : List AccountId} (hnd : ids.Nodup)
    (hsub : (netByAccount journal).keys ⊆ ids) (w : AccountId → Int) :
    (ids.map fun id => w id * balanceOf id journal).sum = weighed w journal := by
  have hkeys : ((netByAccount journal).keys.map fun id => w id * balanceOf id journal).sum =
      weighed w journal := by
    rw [← total_netByAccount]
    unfold OrderedMap.keys OrderedMap.total
    rw [map_map]
    refine congrArg sum (map_congr_left fun e he => ?_)
    show w e.1 * balanceOf e.1 journal = w e.1 * e.2
    unfold balanceOf
    rw [OrderedMap.mem_entries.mp (show (e.1, e.2) ∈ _ from he)]
    rfl
  have hkeysN : (netByAccount journal).keys.Nodup := (netByAccount journal).nodup
  rw [← hkeys, ← sum_toFinset _ hnd, ← sum_toFinset _ hkeysN]
  refine (Finset.sum_subset ?_ fun id _ hid => ?_).symm
  · intro id hid
    rw [mem_toFinset] at hid ⊢
    exact hsub hid
  · rw [mem_toFinset] at hid
    rw [balanceOf_of_not_mem_keys hid, mul_zero]

theorem nodup_idsOf : (idsOf start finish).Nodup := by
  unfold idsOf
  refine List.Nodup.append start.nodup (finish.nodup.filter _) fun id hid hid' => ?_
  have hnot := (mem_filter.mp hid').2
  exact (of_decide_eq_true hnot) hid

theorem subset_idsOf : start.keys ⊆ idsOf start finish ∧ finish.keys ⊆ idsOf start finish := by
  unfold idsOf
  constructor
  · exact subset_append_left ..
  · intro id hid
    by_cases hmem : id ∈ start.keys
    · exact mem_append_left _ hmem
    · exact mem_append_right _ (mem_filter.mpr ⟨hid, decide_eq_true hmem⟩)

theorem sum_map_sub (w : AccountId → Int) (ids : List AccountId) (f g : AccountId → Int) :
    (ids.map fun id => w id * (f id - g id)).sum =
      (ids.map fun id => w id * f id).sum - (ids.map fun id => w id * g id).sum := by
  induction ids with
  | nil => rfl
  | cons id ids ih =>
    simp only [map_cons, sum_cons, ih]
    ring

def BanksAreAssets (coa : ChartOfAccounts) : Prop :=
  ∀ id a, coa.get id = some a → a.subtype = some .bank → a.type = .asset

theorem banksAreAssets_of_ofAccounts {accounts : List Account}
    (h : ChartOfAccounts.ofAccounts accounts = .ok coa) : BanksAreAssets coa := by
  intro id a ha hbank
  have hmem : a ∈ accounts.map Account.stored := by
    rw [← ChartOfAccounts.list_ofAccounts h]
    exact (ChartOfAccounts.get_iff.mp ha).1
  obtain ⟨b, hb, rfl⟩ := mem_map.mp hmem
  exact ((exists_ofAccounts_iff.mp ⟨coa, h⟩).subtypes b hb .bank hbank).symm

theorem cash_eq_earned (hcov : Covers coa journal) (hbanks : BanksAreAssets coa)
    (hbal : ∀ e ∈ journal, sideTotal .debit e.lines = sideTotal .credit e.lines) :
    weighed (cashWeight coa) journal + weighed (sectionWeight coa) journal =
      earned coa journal := by
  have hone : weighed (fun k => cashWeight coa k + sectionWeight coa k + classWeight coa isEarnings k)
      journal = 0 := by
    rw [← weighed_one hbal]
    refine weighed_congr fun e he l hl => ?_
    obtain ⟨a, ha⟩ := Option.isSome_iff_exists.mp (hcov e he l hl)
    have hbank := hbanks _ a ha
    simp only [classWeight_of_get ha, cashWeight, sectionWeight, subtypeOf, ha, Option.bind_some,
      Option.any_some]
    by_cases h : a.subtype = some .bank
    · simp [h, hbank h, classifyByType, isEarnings]
    · cases hearns : isEarnings (classifyByType a.type) <;> simp [h]
  rw [weighed_add, weighed_add] at hone
  unfold earned
  omega

/-- The statement reconciles exactly when the net income it is given is what was earned between the
two journals. -/
theorem cashFlow_reconciled_iff {tbStart tbEnd : TrialBalance}
    (hstart : Indexes coa before (indexById tbStart)) (hfin : Indexes coa after (indexById tbEnd))
    (hbanks : BanksAreAssets coa) (hcov : Covers coa before) (hcov' : Covers coa after)
    (hbal : ∀ e ∈ before, sideTotal .debit e.lines = sideTotal .credit e.lines)
    (hbal' : ∀ e ∈ after, sideTotal .debit e.lines = sideTotal .credit e.lines)
    (netIncome : Int) :
    let statement := cashFlow tbStart tbEnd netIncome (subtypeCashFlowClassifier coa)
    (statement.reconciled = true ↔ earned coa after - earned coa before = netIncome) ∧
    (statement.reconciled = true ↔ statement.operating + statement.investing +
      statement.financing = statement.endingCash - statement.beginningCash) := by
  intro statement
  obtain ⟨hbegin, hend, hmov⟩ := cashFlow_sums hstart hfin
    (idsOf (indexById tbStart) (indexById tbEnd)) ⟨0, 0, 0, 0, 0⟩
  have hsub : (netByAccount before).keys ⊆ idsOf (indexById tbStart) (indexById tbEnd) :=
    fun id hid => subset_idsOf.1 (hstart.keys_subset hid)
  have hsub' : (netByAccount after).keys ⊆ idsOf (indexById tbStart) (indexById tbEnd) :=
    fun id hid => subset_idsOf.2 (hfin.keys_subset hid)
  rw [sum_balances nodup_idsOf hsub] at hbegin
  rw [sum_balances nodup_idsOf hsub'] at hend
  rw [sum_map_sub, sum_balances nodup_idsOf hsub, sum_balances nodup_idsOf hsub'] at hmov
  have hcash := cash_eq_earned hcov hbanks hbal
  have hcash' := cash_eq_earned hcov' hbanks hbal'
  have hties : statement.operating + statement.investing + statement.financing = netIncome +
      (weighed (sectionWeight coa) before - weighed (sectionWeight coa) after) := by
    have hzero : CashFlowSums.moved ⟨0, 0, 0, 0, 0⟩ = 0 := rfl
    rw [hzero, Int.zero_add] at hmov
    rw [← hmov]
    unfold statement cashFlow CashFlowSums.moved
    dsimp only
    ring
  have hchg : statement.endingCash - statement.beginningCash =
      weighed (cashWeight coa) after - weighed (cashWeight coa) before := by
    unfold statement cashFlow
    dsimp only
    rw [hbegin, hend, Int.zero_add, Int.zero_add]
  have hrec : statement.reconciled = true ↔ statement.operating + statement.investing +
      statement.financing = statement.endingCash - statement.beginningCash := decide_eq_true_iff
  refine ⟨hrec.trans ?_, hrec⟩
  rw [hties, hchg]
  constructor
  · intro h
    omega
  · intro h
    omega

end Rgnr8.Statements
