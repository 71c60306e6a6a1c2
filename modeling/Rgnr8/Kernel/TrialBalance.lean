import Rgnr8.Kernel.EngineRun

/-! Account balances, debit-positive, derived from the whole journal or from a window of dates, and
the trial balance they make. -/

namespace Rgnr8.Kernel
open Lib OrderedMap EntrySide

def addLine (net : OrderedMap AccountId Int) (line : PostedLine) : OrderedMap AccountId Int :=
  net.set line.accountId
    ((net.get? line.accountId).getD 0 + line.side.signed line.amount.minorUnits)

def netByAccount (journal : List PostedEntry) : OrderedMap AccountId Int :=
  journal.foldl (fun net entry => entry.lines.foldl addLine net) .empty

def balanceOf (id : AccountId) (journal : List PostedEntry) : Int :=
  ((netByAccount journal).get? id).getD 0

/-- Inclusive bounds on the date of an entry. -/
structure DateWindow where
  fromDate : Option String
  toDate : Option String

def inWindow (entryDate : String) : Option DateWindow → Bool
  | none => true
  | some window =>
    if window.fromDate.any (fun fromDate => Before entryDate fromDate) then false
    else if window.toDate.any (fun toDate => Before toDate entryDate) then false
    else true

def netByAccountIn (window : Option DateWindow) (journal : List PostedEntry) :
    OrderedMap AccountId Int :=
  journal.foldl (fun net entry =>
    if inWindow entry.entryDate window then entry.lines.foldl addLine net else net) .empty

structure TrialBalanceRow where
  accountId : AccountId
  code : String
  name : String
  type : AccountType
  subtype : Option AccountSubtype
  debit : Money
  credit : Money

structure TrialBalance where
  currency : Currency
  rows : List TrialBalanceRow
  totalDebit : Money
  totalCredit : Money
  inBalance : Bool

def trialBalanceRow (currency : Currency) (n : Int) (account : Account) : TrialBalanceRow where
  accountId := account.id
  code := account.code
  name := account.name
  type := account.type
  subtype := account.subtype
  debit := ⟨if 0 < n then n else 0, currency⟩
  credit := ⟨if n < 0 then -n else 0, currency⟩

def computeTrialBalance (localeLe : String → String → Bool) (coa : ChartOfAccounts)
    (currency : Currency) (window : Option DateWindow) (journal : List PostedEntry) :
    TrialBalance :=
  let net := netByAccountIn window journal
  let accounts := (net.keys.filterMap coa.get).insertionSort fun a b => localeLe a.code b.code = true
  let rows := accounts.map fun a => trialBalanceRow currency ((net.get? a.id).getD 0) a
  let totalDebit := (rows.map fun r => r.debit.minorUnits).sum
  let totalCredit := (rows.map fun r => r.credit.minorUnits).sum
  { currency := currency
    rows := rows
    totalDebit := ⟨totalDebit, currency⟩
    totalCredit := ⟨totalCredit, currency⟩
    inBalance := totalDebit = totalCredit }

def netOn (id : AccountId) (lines : List PostedLine) : Int :=
  (lines.map fun l => if l.accountId = id then l.side.signed l.amount.minorUnits else 0).sum

@[simp] theorem netOn_nil (id : AccountId) : netOn id [] = 0 := rfl

@[simp] theorem netOn_cons (id : AccountId) (l : PostedLine) (lines : List PostedLine) :
    netOn id (l :: lines) =
      (if l.accountId = id then l.side.signed l.amount.minorUnits else 0) + netOn id lines :=
  List.sum_cons

@[simp] theorem netOn_append (id : AccountId) (lines lines' : List PostedLine) :
    netOn id (lines ++ lines') = netOn id lines + netOn id lines' := by
  rw [netOn, List.map_append, List.sum_append]
  rfl

variable {id : AccountId} {lines : List PostedLine}

theorem netOn_of_off (h : ∀ l ∈ lines, l.accountId ≠ id) : netOn id lines = 0 := by
  induction lines with
  | nil => rfl
  | cons l lines ih =>
    rw [List.forall_mem_cons] at h
    rw [netOn_cons, if_neg h.1, ih h.2, Int.add_zero]

theorem signed_netOn {side : EntrySide} (h : ∀ l ∈ lines, l.side = side ∧ 0 < l.amount.minorUnits) :
    0 ≤ side.signed (netOn id lines) ∧
      ((∃ l ∈ lines, l.accountId = id) → 0 < side.signed (netOn id lines)) := by
  induction lines with
  | nil =>
    refine ⟨?_, ?_⟩
    · rw [netOn_nil, signed_zero]
    · rintro ⟨l, hl, -⟩
      exact absurd hl List.not_mem_nil
  | cons l lines ih =>
    rw [List.forall_mem_cons] at h
    obtain ⟨⟨hside, hpos⟩, hrest⟩ := h
    obtain ⟨hnn, hmem⟩ := ih hrest
    rw [netOn_cons, signed_add]
    by_cases hid : l.accountId = id
    · rw [if_pos hid, hside, signed_signed]
      exact ⟨by omega, fun _ => by omega⟩
    · rw [if_neg hid, signed_zero, Int.zero_add]
      refine ⟨hnn, ?_⟩
      rintro ⟨x, hx, hxid⟩
      rcases List.mem_cons.mp hx with rfl | hx
      · exact absurd hxid hid
      · exact hmem ⟨x, hx, hxid⟩

theorem get?_foldl_addLine (id : AccountId) (lines : List PostedLine)
    (net : OrderedMap AccountId Int) :
    ((lines.foldl addLine net).get? id).getD 0 = (net.get? id).getD 0 + netOn id lines := by
  induction lines generalizing net with
  | nil => exact (Int.add_zero _).symm
  | cons l lines ih =>
    rw [List.foldl_cons, ih, addLine, get?_set, netOn_cons]
    by_cases h : id = l.accountId
    · rw [if_pos h, if_pos h.symm, Option.getD_some, h, Int.add_assoc]
    · rw [if_neg h, if_neg (Ne.symm h), Int.zero_add]

@[simp] theorem balanceOf_nil (id : AccountId) : balanceOf id [] = 0 := rfl

theorem balanceOf_concat (id : AccountId) (journal : List PostedEntry) (e : PostedEntry) :
    balanceOf id (journal ++ [e]) = balanceOf id journal + netOn id e.lines := by
  rw [balanceOf, netByAccount, List.foldl_append, List.foldl_cons, List.foldl_nil,
    get?_foldl_addLine]
  rfl

/-! A trial balance balances and adds up: per account it is the signed sum of the lines in its
window, and over a journal of balanced entries its columns have one total. -/

variable {journal : List PostedEntry} {window : Option DateWindow} {coa : ChartOfAccounts}
variable {localeLe : String → String → Bool} {currency : Currency}
variable (w : AccountId → Int)

def weightedSum (lines : List PostedLine) : Int :=
  (lines.map fun l => w l.accountId * l.side.signed l.amount.minorUnits).sum

theorem weightedSum_cons (l : PostedLine) (lines : List PostedLine) : weightedSum w (l :: lines) =
      w l.accountId * l.side.signed l.amount.minorUnits + weightedSum w lines := List.sum_cons

theorem weightedSum_one (lines : List PostedLine) :
    weightedSum (fun _ => 1) lines = sideTotal .debit lines - sideTotal .credit lines := by
  induction lines with
  | nil => rfl
  | cons l lines ih =>
    rw [weightedSum_cons, ih]
    rcases hside : l.side with _ | _
    · have hne : l.side ≠ .credit := by simp [hside]
      rw [sideTotal_cons_self hside, sideTotal_cons_ne hne, signed]
      ring
    · have hne : l.side ≠ .debit := by simp [hside]
      rw [sideTotal_cons_self hside, sideTotal_cons_ne hne, signed]
      ring

theorem weightedSum_single (id : AccountId) (lines : List PostedLine) :
    weightedSum (fun k => if k = id then 1 else 0) lines = netOn id lines := by
  unfold weightedSum netOn
  simp only [ite_mul, one_mul, zero_mul]

def weighed (journal : List PostedEntry) : Int :=
  (journal.map fun e => weightedSum w e.lines).sum

def entriesIn (window : Option DateWindow) (journal : List PostedEntry) : List PostedEntry :=
  journal.filter fun e => inWindow e.entryDate window

theorem netByAccountIn_eq (window : Option DateWindow) (journal : List PostedEntry) :
    netByAccountIn window journal = netByAccount (entriesIn window journal) := by
  unfold netByAccountIn netByAccount entriesIn
  rw [List.foldl_filter]

theorem total_foldl_addLine (lines : List PostedLine) (net : OrderedMap AccountId Int) :
    (lines.foldl addLine net).total (fun k n => w k * n) =
      net.total (fun k n => w k * n) + weightedSum w lines := by
  induction lines generalizing net with
  | nil => exact (Int.add_zero _).symm
  | cons l lines ih =>
    rw [List.foldl_cons, ih, addLine, total_set, weightedSum_cons]
    rcases net.get? l.accountId with _ | n
    · simp only [Option.map_none, Option.getD_none]
      ring
    · simp only [Option.map_some, Option.getD_some]
      ring

theorem weighed_append (journal journal' : List PostedEntry) :
    weighed w (journal ++ journal') = weighed w journal + weighed w journal' := by
  unfold weighed
  rw [List.map_append, List.sum_append]

theorem total_netByAccount (journal : List PostedEntry) :
    (netByAccount journal).total (fun k n => w k * n) = weighed w journal := by
  unfold netByAccount
  induction journal using List.reverseRecOn with
  | nil => rfl
  | append_singleton journal e ih =>
    rw [List.foldl_append, List.foldl_cons, List.foldl_nil, total_foldl_addLine, ih, weighed_append]
    exact congrArg _ (Int.add_zero _).symm

theorem weighed_one (h : ∀ e ∈ journal, sideTotal .debit e.lines = sideTotal .credit e.lines) :
    weighed (fun _ => 1) journal = 0 := by
  unfold weighed
  refine List.sum_eq_zero fun n hn => ?_
  obtain ⟨e, he, rfl⟩ := List.mem_map.mp hn
  rw [weightedSum_one, h e he, Int.sub_self]

def movedOn (id : AccountId) (journal : List PostedEntry) : Int :=
  (journal.map fun e => netOn id e.lines).sum

theorem weighed_single (id : AccountId) (journal : List PostedEntry) :
    weighed (fun k => if k = id then 1 else 0) journal = movedOn id journal := by
  unfold weighed movedOn
  simp only [weightedSum_single]

theorem mem_keys_foldl_addLine {net : OrderedMap AccountId Int}
    (h : id ∈ (lines.foldl addLine net).keys) : id ∈ net.keys ∨ ∃ l ∈ lines, l.accountId = id := by
  induction lines generalizing net with
  | nil => exact .inl h
  | cons l lines ih =>
    rcases ih h with hmem | ⟨l', hl', hid⟩
    · obtain ⟨n, hn⟩ := mem_keys_iff.mp hmem
      rw [addLine, get?_set] at hn
      split_ifs at hn with heq
      · exact .inr ⟨l, List.mem_cons_self, heq.symm⟩
      · exact .inl (mem_keys_iff.mpr ⟨n, hn⟩)
    · exact .inr ⟨l', List.mem_cons_of_mem _ hl', hid⟩

theorem mem_keys_netByAccount (h : id ∈ (netByAccount journal).keys) :
    ∃ e ∈ journal, ∃ l ∈ e.lines, l.accountId = id := by
  unfold netByAccount at h
  induction journal using List.reverseRecOn with
  | nil => exact absurd h List.not_mem_nil
  | append_singleton journal e ih =>
    rw [List.foldl_append, List.foldl_cons, List.foldl_nil] at h
    rcases mem_keys_foldl_addLine h with hmem | ⟨l, hl, hid⟩
    · obtain ⟨e', he', hline⟩ := ih hmem
      exact ⟨e', List.mem_append_left _ he', hline⟩
    · exact ⟨e, List.mem_append_right _ List.mem_cons_self, l, hl, hid⟩

def Covers (coa : ChartOfAccounts) (journal : List PostedEntry) : Prop :=
  ∀ e ∈ journal, ∀ l ∈ e.lines, (coa.get l.accountId).isSome

theorem Covers.entriesIn (h : Covers coa journal) (window : Option DateWindow) :
    Covers coa (entriesIn window journal) := fun e he => h e (List.mem_of_mem_filter he)

theorem Covers.get_of_mem_keys (h : Covers coa journal) (hid : id ∈ (netByAccount journal).keys) :
    ∃ a, coa.get id = some a ∧ a.id = id := by
  obtain ⟨e, he, l, hl, rfl⟩ := mem_keys_netByAccount hid
  obtain ⟨a, ha⟩ := Option.isSome_iff_exists.mp (h e he l hl)
  exact ⟨a, ha, (coa.id_of_get ha).1⟩

theorem sum_rows (h : Covers coa (entriesIn window journal)) (g : TrialBalanceRow → Int)
    (g' : AccountId → Int → Int)
    (hg : ∀ a n, coa.get a.id = some a → g (trialBalanceRow currency n a) = g' a.id n) :
    ((computeTrialBalance localeLe coa currency window journal).rows.map g).sum =
      (netByAccount (entriesIn window journal)).total g' := by
  unfold computeTrialBalance
  rw [netByAccountIn_eq]
  set net := netByAccount (entriesIn window journal) with hnet
  -- the sum does not depend on the order of the rows
  have hperm : ((((net.keys.filterMap coa.get).insertionSort fun a b =>
      localeLe a.code b.code = true).map fun a =>
        trialBalanceRow currency ((net.get? a.id).getD 0) a).map g).Perm
      (((net.keys.filterMap coa.get).map fun a =>
        trialBalanceRow currency ((net.get? a.id).getD 0) a).map g) :=
    ((List.perm_insertionSort ..).map _).map g
  refine hperm.sum_eq.trans ?_
  unfold total keys
  refine congrArg List.sum ?_
  have hkeys : ∀ e ∈ net.entries, ∃ a, coa.get e.1 = some a ∧ a.id = e.1 ∧
      (net.get? e.1).getD 0 = e.2 := by
    intro e he
    obtain ⟨a, ha, hid⟩ := h.get_of_mem_keys (List.mem_map_of_mem he)
    refine ⟨a, ha, hid, ?_⟩
    rw [mem_entries.mp he]
    rfl
  generalize net.entries = entries at hkeys ⊢
  induction entries with
  | nil => rfl
  | cons e entries ih =>
    obtain ⟨a, ha, hid, hn⟩ := hkeys e List.mem_cons_self
    rw [List.map_cons, List.filterMap_cons_some ha, List.map_cons, List.map_cons, List.map_cons,
      hg a _ (hid ▸ ha), hid, hn]
    exact congrArg _ (ih fun e' he' => hkeys e' (List.mem_cons_of_mem _ he'))

theorem mem_rows {r : TrialBalanceRow} :
    r ∈ (computeTrialBalance localeLe coa currency window journal).rows ↔
      ∃ a, a.id ∈ (netByAccount (entriesIn window journal)).keys ∧ coa.get a.id = some a ∧
        r = trialBalanceRow currency (balanceOf a.id (entriesIn window journal)) a := by
  unfold computeTrialBalance
  rw [netByAccountIn_eq]
  simp only [List.mem_map, List.mem_insertionSort, List.mem_filterMap]
  constructor
  · rintro ⟨a, ⟨k, hk, ha⟩, rfl⟩
    obtain rfl := (coa.id_of_get ha).1
    exact ⟨a, hk, ha, rfl⟩
  · rintro ⟨a, hk, ha, rfl⟩
    exact ⟨a, ⟨a.id, hk, ha⟩, rfl⟩

def TrialBalanceRow.position (r : TrialBalanceRow) : Int :=
  r.debit.minorUnits - r.credit.minorUnits

@[simp] theorem position_trialBalanceRow (currency : Currency) (n : Int) (a : Account) :
    (trialBalanceRow currency n a).position = n := by
  unfold TrialBalanceRow.position trialBalanceRow
  dsimp only
  split_ifs <;> omega

def TrialBalance.positionOf (tb : TrialBalance) (id : AccountId) : Int :=
  (tb.rows.map fun r => if r.accountId = id then r.position else 0).sum

theorem positionOf_eq (h : Covers coa (entriesIn window journal)) (id : AccountId) :
    (computeTrialBalance localeLe coa currency window journal).positionOf id =
      movedOn id (entriesIn window journal) := by
  unfold TrialBalance.positionOf
  rw [sum_rows h _ fun k n => (if k = id then 1 else 0) * n, total_netByAccount, weighed_single]
  intro a n ha
  rw [position_trialBalanceRow, ite_mul, one_mul, zero_mul]
  rfl

theorem inBalance_eq_true (h : Covers coa (entriesIn window journal))
    (hbal : ∀ e ∈ journal, sideTotal .debit e.lines = sideTotal .credit e.lines) :
    (computeTrialBalance localeLe coa currency window journal).inBalance = true := by
  have hposs : ((computeTrialBalance localeLe coa currency window journal).rows.map
      TrialBalanceRow.position).sum = 0 := by
    rw [sum_rows h _ fun _ n => 1 * n, total_netByAccount]
    · exact weighed_one fun e he => hbal e (List.mem_of_mem_filter he)
    · exact fun a n _ => (position_trialBalanceRow currency n a).trans (one_mul n).symm
  have hcol : ((computeTrialBalance localeLe coa currency window journal).rows.map
      fun r => r.position + r.credit.minorUnits).sum = _ := List.sum_map_add
  have hdebit : (fun r : TrialBalanceRow => r.position + r.credit.minorUnits) =
      fun r => r.debit.minorUnits := funext fun r => Int.sub_add_cancel ..
  rw [hposs, Int.zero_add, hdebit] at hcol
  exact decide_eq_true hcol

theorem nodup_rows (localeLe : String → String → Bool) (coa : ChartOfAccounts)
    (currency : Currency) (window : Option DateWindow) (journal : List PostedEntry) :
    ((computeTrialBalance localeLe coa currency window journal).rows.map
      TrialBalanceRow.accountId).Nodup := by
  unfold computeTrialBalance
  dsimp only
  have hids : ∀ keys : List AccountId, (keys.filterMap coa.get).map Account.id =
      keys.filter fun k => (coa.get k).isSome := by
    intro keys
    induction keys with
    | nil => rfl
    | cons k keys ih =>
      cases hk : coa.get k with
      | none => rw [List.filterMap_cons_none hk, ih, List.filter_cons_of_neg (by simp [hk])]
      | some a =>
        rw [List.filterMap_cons_some hk, List.map_cons, ih, (coa.id_of_get hk).1,
          List.filter_cons_of_pos (by simp [hk])]
  rw [List.map_map]
  refine ((List.perm_insertionSort ..).map _).nodup_iff.mpr ?_
  show ((_ : List Account).map Account.id).Nodup
  rw [hids]
  exact (netByAccountIn window journal).nodup.filter _

theorem movedOn_append (id : AccountId) (journal journal' : List PostedEntry) :
    movedOn id (journal ++ journal') = movedOn id journal + movedOn id journal' := by
  unfold movedOn
  rw [List.map_append, List.sum_append]

theorem movedOn_split (id : AccountId) (d : String) (journal : List PostedEntry) :
    movedOn id (entriesIn (some ⟨none, some d⟩) journal) +
      movedOn id (journal.filter fun e => Before d e.entryDate) = movedOn id journal := by
  rw [← movedOn_append]
  unfold movedOn
  have hafter : (fun e : PostedEntry => !inWindow e.entryDate (some ⟨none, some d⟩)) =
      fun e => decide (Before d e.entryDate) := by
    funext e
    unfold inWindow
    by_cases h : Before d e.entryDate
    · simp [h]
    · simp [h]
  rw [← hafter]
  exact ((List.filter_append_perm _ journal).map _).sum_eq

/-- Over whatever engines have posted, in whatever window: the columns of a trial balance have one
total, an account's debit less its credit is the signed sum of its lines in the window, and what
lies up to a date and what lies after it add up to the whole. -/
theorem trialBalance_sound {π : Type} [PeriodStore π] (periods : π) (ops : List EngineOp)
    (t : TenantId) (localeLe : String → String → Bool) (coa : ChartOfAccounts)
    (currency : Currency) (window : Option DateWindow)
    (h : Covers coa ((ops.foldl Ledger.step ⟨.empty, periods⟩).store.list t)) :
    let journal := (ops.foldl Ledger.step ⟨.empty, periods⟩).store.list t
    let trialBalance := computeTrialBalance localeLe coa currency
    (trialBalance window journal).inBalance = true ∧
    ((trialBalance window journal).rows.map TrialBalanceRow.accountId).Nodup ∧
    (∀ id, (trialBalance window journal).positionOf id =
      ((journal.filter fun e => inWindow e.entryDate window).map fun e => netOn id e.lines).sum) ∧
    ∀ d id, (trialBalance (some ⟨none, some d⟩) journal).positionOf id +
        (trialBalance none (journal.filter fun e => Before d e.entryDate)).positionOf id =
      (trialBalance none journal).positionOf id := by
  intro journal trialBalance
  have hents : EntriesOk (ops.foldl Ledger.step ⟨.empty, periods⟩).store :=
    entriesOk_of_run periods ops
  refine ⟨?_, nodup_rows .., fun id => positionOf_eq (h.entriesIn window) id, fun d id => ?_⟩
  · exact inBalance_eq_true (h.entriesIn window) fun e he => (hents t e he).balanced
  · have hafter : Covers coa (journal.filter fun e => Before d e.entryDate) :=
      fun e he => h e (List.mem_of_mem_filter he)
    have hall : ∀ journal : List PostedEntry, entriesIn none journal = journal :=
      fun journal => List.filter_eq_self.mpr fun _ _ => rfl
    rw [positionOf_eq (h.entriesIn _), positionOf_eq (hafter.entriesIn none),
      positionOf_eq (h.entriesIn none), hall, hall]
    exact movedOn_split id d journal

open Sample in
theorem trialBalance_of_sale :
    let sold := ([.call chart (.post (sale none) ⟨"2026-08-01"⟩)] : List EngineOp).foldl
      Ledger.step (⟨.empty, .empty⟩ : Ledger (InMemoryPeriodStore TenantId PeriodKey))
    (computeTrialBalance (fun a b => a ≤ b) chart usd none (sold.store.list "acme")).inBalance =
      true :=
  (trialBalance_sound _ _ "acme" _ chart usd none (by unfold Covers; decide +kernel)).1

end Rgnr8.Kernel
