import Rgnr8.Kernel.TrialBalance

/-! Trial balances split by the value of one dimension. Whatever the dimensions of the lines are,
the parts add up to the whole. -/

namespace Rgnr8.Kernel
open Lib OrderedMap List

/-- The bucket of lines that do not carry a given dimension. -/
def unassigned : String := "(unassigned)"

def bucketOf (dimensionKey : String) (line : PostedLine) : String :=
  (line.dimensions.bind fun dimensions => dimensions.get? dimensionKey).getD unassigned

abbrev Buckets := OrderedMap String (OrderedMap AccountId Int)

def addToBucket (dimensionKey : String) (buckets : Buckets) (line : PostedLine) : Buckets :=
  buckets.set (bucketOf dimensionKey line)
    (addLine ((buckets.get? (bucketOf dimensionKey line)).getD .empty) line)

def bucketsIn (dimensionKey : String) (window : Option DateWindow) (journal : List PostedEntry) :
    Buckets :=
  journal.foldl (fun buckets entry =>
    if inWindow entry.entryDate window then entry.lines.foldl (addToBucket dimensionKey) buckets
    else buckets) .empty

/-- Rows carry no detail type here. -/
def bucketBalance (localeLe : String → String → Bool) (coa : ChartOfAccounts) (currency : Currency)
    (net : OrderedMap AccountId Int) : TrialBalance :=
  let accounts := (net.keys.filterMap coa.get).insertionSort fun a b => localeLe a.code b.code = true
  let rows := accounts.map fun a =>
    { trialBalanceRow currency ((net.get? a.id).getD 0) a with subtype := none }
  let totalDebit := (rows.map fun r => r.debit.minorUnits).sum
  let totalCredit := (rows.map fun r => r.credit.minorUnits).sum
  { currency := currency
    rows := rows
    totalDebit := ⟨totalDebit, currency⟩
    totalCredit := ⟨totalCredit, currency⟩
    inBalance := totalDebit = totalCredit }

def trialBalanceByDimension (localeLe : String → String → Bool) (coa : ChartOfAccounts)
    (currency : Currency) (dimensionKey : String) (window : Option DateWindow)
    (journal : List PostedEntry) : OrderedMap String TrialBalance :=
  let buckets := bucketsIn dimensionKey window journal
  ⟨buckets.entries.map fun e => (e.1, bucketBalance localeLe coa currency e.2), by
    rw [List.map_map]
    exact buckets.nodup⟩

variable {localeLe : String → String → Bool} {coa : ChartOfAccounts} {currency : Currency}
variable {dimensionKey : String} {window : Option DateWindow} {journal : List PostedEntry}

def linesIn (window : Option DateWindow) (journal : List PostedEntry) : List PostedLine :=
  (entriesIn window journal).flatMap fun e => e.lines

theorem bucketsIn_eq (dimensionKey : String) (window : Option DateWindow)
    (journal : List PostedEntry) : bucketsIn dimensionKey window journal =
      (linesIn window journal).foldl (addToBucket dimensionKey) .empty := by
  unfold bucketsIn linesIn entriesIn
  rw [foldl_flatMap, foldl_filter]

theorem netByAccountIn_eq_lines (window : Option DateWindow) (journal : List PostedEntry) :
    netByAccountIn window journal = (linesIn window journal).foldl addLine .empty := by
  unfold netByAccountIn linesIn entriesIn
  rw [foldl_flatMap, foldl_filter]

/-! A bucket holds the lines that carry its value. -/

theorem get?_foldl_addToBucket (dimensionKey b : String) (lines : List PostedLine) (buckets : Buckets) :
    ((lines.foldl (addToBucket dimensionKey) buckets).get? b).getD .empty =
      (lines.filter fun l => bucketOf dimensionKey l = b).foldl addLine
        ((buckets.get? b).getD .empty) := by
  induction lines generalizing buckets with
  | nil => rfl
  | cons l lines ih =>
    rw [foldl_cons, ih, addToBucket, get?_set]
    by_cases hb : bucketOf dimensionKey l = b
    · rw [if_pos hb.symm, filter_cons_of_pos (by simpa using hb), foldl_cons, hb]
      rfl
    · rw [if_neg (Ne.symm hb), filter_cons_of_neg (by simpa using hb)]

theorem mem_keys_foldl_addToBucket (b : String) (lines : List PostedLine) (buckets : Buckets) :
    b ∈ (lines.foldl (addToBucket dimensionKey) buckets).keys ↔
      b ∈ buckets.keys ∨ ∃ l ∈ lines, bucketOf dimensionKey l = b := by
  induction lines generalizing buckets with
  | nil => simp
  | cons l lines ih =>
    have hset : b ∈ (addToBucket dimensionKey buckets l).keys ↔
        b = bucketOf dimensionKey l ∨ b ∈ buckets.keys := mem_put_key
    rw [foldl_cons, ih, hset, exists_mem_cons_iff]
    tauto

/-- What one line adds to the buckets together is what it adds to its account. -/
theorem total_foldl_addToBucket (dimensionKey : String) (id : AccountId) (lines : List PostedLine)
    (buckets : Buckets) :
    (lines.foldl (addToBucket dimensionKey) buckets).total (fun _ net => (net.get? id).getD 0) =
      buckets.total (fun _ net => (net.get? id).getD 0) + netOn id lines := by
  induction lines generalizing buckets with
  | nil => exact (Int.add_zero _).symm
  | cons l lines ih =>
    have hadd := get?_foldl_addLine id [l]
      ((buckets.get? (bucketOf dimensionKey l)).getD .empty)
    rw [foldl_cons, foldl_nil, netOn_cons, netOn_nil, Int.add_zero] at hadd
    rw [foldl_cons, ih, addToBucket, total_set, hadd, netOn_cons]
    cases buckets.get? (bucketOf dimensionKey l) with
    | none =>
      simp only [Option.map_none, Option.getD_none, get?_empty]
      omega
    | some net =>
      simp only [Option.map_some, Option.getD_some]
      omega

/-! Only the accounts of the chart have rows. -/

theorem sum_positions {net : OrderedMap AccountId Int} (row : Account → TrialBalanceRow)
    (hid : ∀ a, (row a).accountId = a.id)
    (hposit : ∀ a, (row a).position = (net.get? a.id).getD 0) (id : AccountId) :
    ((((net.keys.filterMap coa.get).insertionSort fun a b => localeLe a.code b.code = true).map
      row).map fun r => if r.accountId = id then r.position else 0).sum =
        if (coa.get id).isSome then (net.get? id).getD 0 else 0 := by
  have hperm := (((perm_insertionSort (fun a b : Account => localeLe a.code b.code = true)
    (net.keys.filterMap coa.get)).map row).map
      fun r => if r.accountId = id then r.position else 0)
  rw [hperm.sum_eq, map_map]
  have hsum : ∀ keys : List AccountId, keys.Nodup → ((keys.filterMap coa.get).map
      ((fun r => if r.accountId = id then r.position else 0) ∘ row)).sum =
        if id ∈ keys ∧ (coa.get id).isSome then (net.get? id).getD 0 else 0 := by
    intro keys hnd
    induction keys with
    | nil => simp
    | cons k keys ih =>
      rw [nodup_cons] at hnd
      specialize ih hnd.2
      cases hk : coa.get k with
      | none =>
        rw [filterMap_cons_none hk, ih]
        by_cases heq : id = k
        · simp [heq, hk]
        · simp [heq]
      | some a =>
        have haid := (coa.id_of_get hk).1
        rw [filterMap_cons_some hk, map_cons, sum_cons, ih, Function.comp, hid, hposit, haid]
        by_cases heq : k = id
        · subst heq
          rw [if_pos rfl, if_neg fun h => hnd.1 h.1, Int.add_zero,
            if_pos ⟨mem_cons_self, by rw [hk]; rfl⟩]
        · rw [if_neg heq, Int.zero_add]
          simp [Ne.symm heq]
  rw [hsum net.keys net.nodup]
  by_cases hmem : id ∈ net.keys
  · simp [hmem]
  · have hnone : net.get? id = none := by
      rw [Option.eq_none_iff_forall_ne_some]
      exact fun n hn => hmem (mem_keys_iff.mpr ⟨n, hn⟩)
    simp [hnone]

theorem positionOf_bucketBalance (net : OrderedMap AccountId Int) (id : AccountId) :
    (bucketBalance localeLe coa currency net).positionOf id =
      if (coa.get id).isSome then (net.get? id).getD 0 else 0 :=
  sum_positions
    (fun a => { trialBalanceRow currency ((net.get? a.id).getD 0) a with subtype := none })
    (fun _ => rfl) (fun a => position_trialBalanceRow currency _ a) id

theorem positionOf_computeTrialBalance (id : AccountId) :
    (computeTrialBalance localeLe coa currency window journal).positionOf id =
      if (coa.get id).isSome then netOn id (linesIn window journal) else 0 := by
  have hnet := get?_foldl_addLine id (linesIn window journal) .empty
  rw [← netByAccountIn_eq_lines, get?_empty, Option.getD_none, Int.zero_add] at hnet
  rw [← hnet]
  exact sum_positions _ (fun _ => rfl) (fun a => position_trialBalanceRow currency _ a) id

/-- The parts of an account's position add up to the whole of it; every line of the window is in
exactly one bucket; and each bucket has the lines that carry its value and no others. -/
theorem trialBalanceByDimension_adds_up (localeLe : String → String → Bool) (coa : ChartOfAccounts)
    (currency : Currency) (dimensionKey : String) (window : Option DateWindow)
    (journal : List PostedEntry) :
    let parts := trialBalanceByDimension localeLe coa currency dimensionKey window journal
    (∀ id, parts.total (fun _ tb => tb.positionOf id) =
      (computeTrialBalance localeLe coa currency window journal).positionOf id) ∧
    (∀ l ∈ linesIn window journal, ∃! b, b ∈ parts.keys ∧ bucketOf dimensionKey l = b) ∧
    ∀ b tb, parts.get? b = some tb → ∀ id, tb.positionOf id = if (coa.get id).isSome then
      netOn id ((linesIn window journal).filter fun l => bucketOf dimensionKey l = b) else 0 := by
  intro parts
  have hbuc := bucketsIn_eq dimensionKey window journal
  have hkeys : parts.keys = (bucketsIn dimensionKey window journal).keys :=
    map_map
  refine ⟨fun id => ?_, fun l hl => ?_, fun b tb hb id => ?_⟩
  · have htot := total_foldl_addToBucket dimensionKey id (linesIn window journal) .empty
    rw [← hbuc, total_empty, Int.zero_add] at htot
    have hparts : parts.total (fun _ tb => tb.positionOf id) =
        (bucketsIn dimensionKey window journal).total fun _ net =>
          if (coa.get id).isSome then (net.get? id).getD 0 else 0 := by
      unfold total
      show (map _ (map _ _)).sum = _
      rw [map_map]
      exact congrArg sum (map_congr_left fun e _ => positionOf_bucketBalance e.2 id)
    rw [hparts, positionOf_computeTrialBalance, ← htot]
    split_ifs
    · rfl
    · exact sum_eq_zero fun n hn => by
        obtain ⟨e, -, rfl⟩ := mem_map.mp hn
        rfl
  · refine ⟨bucketOf dimensionKey l, ⟨?_, rfl⟩, fun b hb => hb.2.symm⟩
    rw [hkeys, hbuc, mem_keys_foldl_addToBucket]
    exact .inr ⟨l, hl, rfl⟩
  · obtain ⟨⟨b', net⟩, hent, heq⟩ := mem_map.mp (mem_entries.mpr hb)
    obtain ⟨rfl, rfl⟩ := Prod.mk.inj heq
    have hnet := get?_foldl_addToBucket dimensionKey b' (linesIn window journal) .empty
    rw [← hbuc, mem_entries.mp hent, Option.getD_some, get?_empty, Option.getD_none] at hnet
    have hon := get?_foldl_addLine id
      ((linesIn window journal).filter fun l => bucketOf dimensionKey l = b') .empty
    rw [← hnet, get?_empty, Option.getD_none, Int.zero_add] at hon
    rw [positionOf_bucketBalance, hon]

end Rgnr8.Kernel
