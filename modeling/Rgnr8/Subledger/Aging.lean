import Rgnr8.Subledger.ReceivableRuns

/-! Open items by days past due: one row for each party, one column for each bucket. -/

namespace Rgnr8.Subledger.OpenItems
open Lib Lib.Js Kernel Fallible List

def dayNumber (iso : String) : Option Int := utcDay (String.ofList (iso.toList.take 10))

structure PartyOpenItem where
  partyId : String
  dueDate : String
  openAmount : Money

/-- The days from `min` on and before `max`; without one the bucket has no end on that side. -/
structure Bucket where
  label : String
  min : Option Int
  max : Option Int

def BUCKETS : List Bucket :=
  [⟨"Current", none, some 1⟩, ⟨"1-30", some 1, some 31⟩, ⟨"31-60", some 31, some 61⟩,
    ⟨"61-90", some 61, some 91⟩, ⟨"90+", some 91, none⟩]

def Bucket.holds (b : Bucket) (days : Int) : Bool := b.min.all (· ≤ days) && b.max.all (days < ·)

structure AgingBucket where
  label : String
  minDays : Int
  maxDays : Option Int
  amount : Money

structure Aging where
  asOf : String
  buckets : List AgingBucket
  total : Money

structure AgingReportRow where
  partyId : String
  buckets : List Money
  total : Money

structure AgingReport where
  asOf : String
  bucketLabels : List String
  rows : List AgingReportRow
  columnTotals : List Money
  grandTotal : Money

def addAt (sums : List Money) (amount : Money) (i : Nat) : Except MoneyError (List Money) :=
  match sums[i]? with
  | none => .ok sums
  | some s => (s.plus amount).map fun s => sums.set i s

section
variable (asOf : String)

def daysPastDue (it : PartyOpenItem) : Option Int :=
  match dayNumber asOf, dayNumber it.dueDate with
  | some asOfDay, some day => some (asOfDay - day)
  | _, _ => none

def bucketOf (it : PartyOpenItem) : Option Nat :=
  (daysPastDue asOf it).bind fun days => BUCKETS.findIdx? fun b => b.holds days

def ageItem (sums : List Money) (it : PartyOpenItem) : Except MoneyError (List Money) :=
  if it.openAmount.minorUnits = 0 then .ok sums
  else match bucketOf asOf it with
    | none => .ok sums
    | some i => addAt sums it.openAmount i

variable (items : List PartyOpenItem) (currency : Currency)

def ageItems : Except MoneyError Aging := do
  let sums ← items.foldlM (ageItem asOf) (BUCKETS.map fun _ => Money.zero currency)
  let total ← Receivable.ARSubledger.sumMoney currency (items.map PartyOpenItem.openAmount)
  return ⟨asOf, (BUCKETS.zip sums).map fun p =>
    ⟨p.1.label, p.1.min.getD (-999999), p.1.max.map (· - 1), p.2⟩, total⟩

def byParty : OrderedMap String (List PartyOpenItem) :=
  items.foldl (fun m it =>
    if it.openAmount.minorUnits = 0 then m
    else m.set it.partyId ((m.get? it.partyId).getD [] ++ [it])) .empty

def addRow (report : List Money × List AgingReportRow) (partyId : String) :
    Except MoneyError (List Money × List AgingReportRow) := do
  let aging ← ageItems asOf (((byParty items).get? partyId).getD []) currency
  let buckets := aging.buckets.map AgingBucket.amount
  let totals ← (report.1.zip buckets).mapM fun p => p.1.plus p.2
  return (totals, report.2 ++ [⟨partyId, buckets, aging.total⟩])

end

/-! What a report says. -/

def minorSum (items : List PartyOpenItem) : Int := (items.map fun it => it.openAmount.minorUnits).sum

def minorAt (sums : List Money) (i : Nat) : Int := ((sums[i]?).map Money.minorUnits).getD 0

/-- The days from the first to the last. -/
def Bucket.Contains (b : Bucket) (days : Int) : Prop :=
  (∀ m, b.min = some m → m ≤ days) ∧ ∀ m, b.max = some m → days ≤ m - 1

structure TiesOut (asOf : String) (items : List PartyOpenItem) (report : AgingReport) : Prop where
  labels : report.bucketLabels = BUCKETS.map Bucket.label
  parties : (report.rows.map AgingReportRow.partyId).Nodup
  placed : ∀ it ∈ items, it.openAmount.minorUnits ≠ 0 →
    (∃! r, r ∈ report.rows ∧ r.partyId = it.partyId) ∧
    ∃! i, bucketOf asOf it = some i
  bucket : ∀ it ∈ items, ∀ i, bucketOf asOf it = some i ↔
    ∃ b days, BUCKETS[i]? = some b ∧ daysPastDue asOf it = some days ∧ b.Contains days
  amounts : ∀ r ∈ report.rows, r.buckets.length = BUCKETS.length ∧ ∀ i, minorAt r.buckets i =
    minorSum (items.filter fun it => it.partyId = r.partyId ∧ bucketOf asOf it = some i)
  totals : ∀ r ∈ report.rows, r.total.minorUnits = (r.buckets.map Money.minorUnits).sum
  columns : ∀ i, minorAt report.columnTotals i = (report.rows.map fun r => minorAt r.buckets i).sum
  grand : report.grandTotal.minorUnits = minorSum items

/-! The buckets have no day in common and leave none out. -/

theorem holds_iff {b : Bucket} {days : Int} : b.holds days = true ↔ b.Contains days := by
  obtain ⟨label, min, max⟩ := b
  unfold Bucket.holds Bucket.Contains
  cases min <;> cases max <;> simp

theorem findIdx_holds (days : Int) : BUCKETS.findIdx? (fun b => b.holds days) =
    some (if days < 1 then 0 else if days < 31 then 1 else if days < 61 then 2
      else if days < 91 then 3 else 4) := by
  simp only [BUCKETS, findIdx?_cons, Bucket.holds, Option.all_some, Option.all_none,
    Bool.true_and, Bool.and_true, Bool.and_eq_true, decide_eq_true_iff]
  split_ifs <;> first | rfl | omega

variable {asOf : String} {currency : Currency}

def InCurrency (currency : Currency) (sums : List Money) : Prop :=
  ∀ m ∈ sums, m.currency.code = currency.code

theorem exists_plus {a b : Money} (ha : a.currency.code = currency.code)
    (hb : b.currency.code = currency.code) :
    ∃ c, a.plus b = .ok c ∧ c.currency.code = currency.code ∧
      c.minorUnits = a.minorUnits + b.minorUnits :=
  ⟨_, Money.plus_of_code_eq (ha.trans hb.symm), ha, rfl⟩

/-! One item, and a list of them. -/

structure Dated (asOf : String) (currency : Currency) (it : PartyOpenItem) : Prop where
  days : ∃ days, daysPastDue asOf it = some days
  currency : it.openAmount.currency.code = currency.code

variable {it : PartyOpenItem} {items : List PartyOpenItem} {sums : List Money}

theorem Dated.exists_bucket (h : Dated asOf currency it) : ∃ i < 5, bucketOf asOf it = some i := by
  obtain ⟨days, hdays⟩ := h.days
  refine ⟨_, ?_, by rw [bucketOf, hdays, Option.bind_some, findIdx_holds]⟩
  split_ifs <;> decide

structure Aged (asOf : String) (currency : Currency) (sums : List Money) (items : List PartyOpenItem)
    (sums' : List Money) : Prop where
  length : sums'.length = 5
  currency : InCurrency currency sums'
  amounts : ∀ i, minorAt sums' i =
    minorAt sums i + minorSum (items.filter fun it => bucketOf asOf it = some i)

theorem minorSum_singleton (it : PartyOpenItem) (p : PartyOpenItem → Bool) :
    minorSum ([it].filter p) = if p it = true then it.openAmount.minorUnits else 0 := by
  cases h : p it <;> simp [minorSum, h]

theorem minorSum_cons (it : PartyOpenItem) (items : List PartyOpenItem) (p : PartyOpenItem → Bool) :
    minorSum ((it :: items).filter p) = minorSum ([it].filter p) + minorSum (items.filter p) := by
  unfold minorSum
  rw [← singleton_append, filter_append, map_append, sum_append]

theorem ageItem_ok (hlength : sums.length = 5) (hsums : InCurrency currency sums)
    (hit : Dated asOf currency it) :
    ∃ sums', ageItem asOf sums it = .ok sums' ∧ Aged asOf currency sums [it] sums' := by
  obtain ⟨i, hi, hbuc⟩ := hit.exists_bucket
  have hcount : ∀ j, minorSum ([it].filter fun it => bucketOf asOf it = some j) =
      if i = j then it.openAmount.minorUnits else 0 := by
    intro j
    rw [minorSum_singleton, hbuc]
    simp only [Option.some.injEq, decide_eq_true_iff]
  unfold ageItem
  split_ifs with hzero
  · refine ⟨sums, rfl, hlength, hsums, fun j => ?_⟩
    rw [hcount, hzero, ite_self, Int.add_zero]
  · have hlt : i < sums.length := hlength ▸ hi
    obtain ⟨c, hplus, hcode, hmin⟩ := exists_plus (hsums _ (getElem_mem hlt)) hit.currency
    refine ⟨sums.set i c, ?_, by rwa [length_set], fun m hm => ?_, fun j => ?_⟩
    · rw [hbuc]
      dsimp only [addAt]
      rw [getElem?_eq_getElem hlt]
      dsimp only
      rw [hplus]
      rfl
    · rcases mem_or_eq_of_mem_set hm with hm | rfl
      exacts [hsums m hm, hcode]
    · rw [hcount]
      unfold minorAt
      by_cases hj : i = j
      · subst hj
        rw [getElem?_set_self hlt, if_pos rfl, getElem?_eq_getElem hlt]
        exact hmin
      · rw [getElem?_set_ne hj, if_neg hj, Int.add_zero]

theorem foldlM_ageItem (hlength : sums.length = 5) (hsums : InCurrency currency sums)
    (hitems : ∀ it ∈ items, Dated asOf currency it) :
    ∃ sums', items.foldlM (ageItem asOf) sums = .ok sums' ∧ Aged asOf currency sums items sums' := by
  induction items generalizing sums with
  | nil => exact ⟨sums, rfl, hlength, hsums, fun i => (Int.add_zero _).symm⟩
  | cons it items ih =>
    rw [forall_mem_cons] at hitems
    obtain ⟨middle, hmid, hit⟩ := ageItem_ok hlength hsums hitems.1
    obtain ⟨sums', hsums', hrest⟩ := ih hit.length hit.currency hitems.2
    refine ⟨sums', ?_, hrest.length, hrest.currency, fun i => ?_⟩
    · rw [foldlM_cons, hmid]
      exact hsums'
    · rw [hrest.amounts, hit.amounts, minorSum_cons it items, Int.add_assoc]

theorem ageItems_ok (hitems : ∀ it ∈ items, Dated asOf currency it) :
    ∃ aging, ageItems asOf items currency = .ok aging ∧
      aging.buckets.map AgingBucket.label = BUCKETS.map Bucket.label ∧
      Aged asOf currency (BUCKETS.map fun _ => .zero currency) items
        (aging.buckets.map AgingBucket.amount) ∧
      aging.total.currency.code = currency.code ∧ aging.total.minorUnits = minorSum items := by
  have hzero : InCurrency currency (BUCKETS.map fun _ => .zero currency) := by
    intro m hm
    obtain ⟨-, -, rfl⟩ := mem_map.mp hm
    rfl
  have hcodes : ∀ m ∈ items.map PartyOpenItem.openAmount, m.currency.code = currency.code := by
    intro m hm
    obtain ⟨it, hit, rfl⟩ := mem_map.mp hm
    exact (hitems it hit).currency
  obtain ⟨sums, hsums, haged⟩ := foldlM_ageItem rfl hzero hitems
  obtain ⟨total, htot, hcode, hmin⟩ := Receivable.sumMoney_eq_ok hcodes
  refine ⟨⟨asOf, _, total⟩,
    bind_eq_ok.mpr ⟨sums, hsums, bind_eq_ok.mpr ⟨total, htot, rfl⟩⟩, ?_, ?_, hcode, ?_⟩
  · have hfst : (BUCKETS.zip sums).map Prod.fst = BUCKETS :=
      map_fst_zip (by rw [haged.length]; rfl)
    conv_rhs => rw [← hfst]
    rw [map_map, map_map]
    rfl
  · have hsnd : (BUCKETS.zip sums).map Prod.snd = sums :=
      map_snd_zip (by rw [haged.length]; rfl)
    rw [map_map]
    exact hsnd.symm ▸ haged
  · rw [hmin, map_map]
    rfl

/-! The parties. -/

def isOpen (partyId : String) (it : PartyOpenItem) : Bool :=
  it.partyId = partyId ∧ it.openAmount.minorUnits ≠ 0

theorem get?_byParty (items : List PartyOpenItem) (partyId : String) :
    (byParty items).get? partyId =
      if items.filter (isOpen partyId) = [] then none else some (items.filter (isOpen partyId)) := by
  unfold byParty
  -- each item goes to the end of its party's group, unless nothing is open
  induction items using reverseRecOn with
  | nil => rfl
  | append_singleton items it ih =>
    rw [foldl_append, foldl_cons, foldl_nil, filter_append, filter_singleton]
    by_cases hzero : it.openAmount.minorUnits = 0
    · have hnot : isOpen partyId it = false := decide_eq_false fun h => h.2 hzero
      rw [if_pos hzero, hnot, ih]
      rw [cond_false, append_nil]
    · rw [if_neg hzero]
      by_cases hparty : it.partyId = partyId
      · have hopen : isOpen partyId it = true := decide_eq_true ⟨hparty, hzero⟩
        rw [hparty, OrderedMap.get?_set_self, ih, hopen, cond_true,
          if_neg (append_ne_nil_of_right_ne_nil _ (cons_ne_nil _ _))]
        split_ifs with hnil
        · rw [hnil]
          rfl
        · rfl
      · have hnot : isOpen partyId it = false := decide_eq_false fun h => hparty h.1
        rw [OrderedMap.get?_set_ne _ _ (Ne.symm hparty), hnot, ih]
        rw [cond_false, append_nil]

structure RowOk (asOf : String) (items : List PartyOpenItem) (r : AgingReportRow) : Prop where
  length : r.buckets.length = BUCKETS.length
  amounts : ∀ i, minorAt r.buckets i =
    minorSum (items.filter fun it => it.partyId = r.partyId ∧ bucketOf asOf it = some i)
  sum : r.total.minorUnits = (r.buckets.map Money.minorUnits).sum
  total : r.total.minorUnits = minorSum (items.filter (isOpen r.partyId))

theorem minorSum_buckets (hitems : ∀ it ∈ items, Dated asOf currency it) :
    (((List.range 5).map fun i =>
      minorSum (items.filter fun it => bucketOf asOf it = some i)).sum) = minorSum items := by
  -- each item adds its amount to the sum of one bucket
  induction items with
  | nil => rfl
  | cons it items ih =>
    rw [forall_mem_cons] at hitems
    obtain ⟨i, hi, hbuc⟩ := hitems.1.exists_bucket
    simp only [minorSum_cons it items, minorSum_singleton, hbuc, sum_map_add, ih hitems.2]
    refine congrArg (· + minorSum items) ?_
    interval_cases i <;> simp [range_succ]

theorem sum_eq_minorAt (hlength : sums.length = 5) :
    (sums.map Money.minorUnits).sum = ((List.range 5).map (minorAt sums)).sum := by
  match sums, hlength with
  | [a, b, c, d, e], _ => rfl

theorem minorAt_zero (i : Nat) : minorAt (BUCKETS.map fun _ => .zero currency) i = 0 := by
  unfold minorAt
  rw [getElem?_map]
  cases BUCKETS[i]? <;> rfl

def OpenDated (asOf : String) (currency : Currency) (items : List PartyOpenItem) : Prop :=
  ∀ it ∈ items, it.openAmount.minorUnits ≠ 0 → Dated asOf currency it

theorem minorSum_isOpen (partyId : String) (i : Nat) :
    minorSum ((items.filter (isOpen partyId)).filter fun it => bucketOf asOf it = some i) =
      minorSum (items.filter fun it => it.partyId = partyId ∧ bucketOf asOf it = some i) := by
  induction items with
  | nil => rfl
  | cons it items ih =>
    rw [minorSum_cons, minorSum_singleton, filter_cons, ← ih]
    by_cases hzero : it.openAmount.minorUnits = 0
    · have hclo : ¬ isOpen partyId it = true := fun h => (of_decide_eq_true h).2 hzero
      rw [if_neg hclo, hzero, ite_self, Int.zero_add]
    · by_cases hparty : it.partyId = partyId
      · have hin : isOpen partyId it = true := decide_eq_true ⟨hparty, hzero⟩
        rw [if_pos hin, minorSum_cons, minorSum_singleton]
        simp only [hparty, true_and]
      · have hclo : ¬ isOpen partyId it = true := fun h => hparty (of_decide_eq_true h).1
        rw [if_neg hclo, if_neg fun h => hparty (of_decide_eq_true h).1, Int.zero_add]

theorem zip_plus_ok {others : List Money} (hlength : sums.length = others.length)
    (hsums : InCurrency currency sums) (hoth : InCurrency currency others) :
    ∃ sums', ((sums.zip others).mapM fun p => p.1.plus p.2) = .ok sums' ∧
      sums'.length = sums.length ∧ InCurrency currency sums' ∧
      ∀ i, minorAt sums' i = minorAt sums i + minorAt others i := by
  induction sums generalizing others with
  | nil =>
    cases others with
    | nil => exact ⟨[], rfl, rfl, nofun, fun i => rfl⟩
    | cons b others => cases hlength
  | cons a sums ih =>
    cases others with
    | nil => cases hlength
    | cons b others =>
      unfold InCurrency at hsums hoth
      rw [forall_mem_cons] at hsums hoth
      obtain ⟨c, hplus, hcode, hmin⟩ := exists_plus hsums.1 hoth.1
      obtain ⟨rest, hrest, hres, hcodes, hmins⟩ :=
        ih (Nat.succ.inj hlength) hsums.2 hoth.2
      refine ⟨c :: rest, ?_, congrArg (· + 1) hres, forall_mem_cons.mpr ⟨hcode, hcodes⟩,
        fun i => ?_⟩
      · rw [mapM_eq_ok] at hrest ⊢
        exact .cons hplus hrest
      · cases i with
        | zero => exact hmin
        | succ i => exact hmins i

theorem foldlM_addRow (rows : List AgingReportRow) (hopen : OpenDated asOf currency items)
    {keys : List String} {totals : List Money} (hlength : totals.length = 5)
    (htots : InCurrency currency totals)
    (hkeys : ∀ partyId ∈ keys, partyId ∈ (byParty items).keys) :
    ∃ totals' new, keys.foldlM (addRow asOf items currency) (totals, rows) =
        .ok (totals', rows ++ new) ∧
      new.map AgingReportRow.partyId = keys ∧ (∀ r ∈ new, RowOk asOf items r) ∧
      InCurrency currency (new.map AgingReportRow.total) ∧
      ∀ i, minorAt totals' i = minorAt totals i + (new.map fun r => minorAt r.buckets i).sum := by
  induction keys generalizing totals rows with
  | nil =>
    exact ⟨totals, [], by rw [append_nil]; rfl, rfl, nofun, nofun,
      fun i => (Int.add_zero _).symm⟩
  | cons partyId keys ih =>
    rw [forall_mem_cons] at hkeys
    -- the group of the party is what is open of it
    have hgroup : ((byParty items).get? partyId).getD [] = items.filter (isOpen partyId) := by
      rw [get?_byParty]
      split_ifs with hnil
      · exact hnil.symm
      · rfl
    have hdated : ∀ it ∈ items.filter (isOpen partyId), Dated asOf currency it := fun it hit =>
      hopen it (mem_of_mem_filter hit) (of_decide_eq_true (mem_filter.mp hit).2).2
    obtain ⟨aging, haging, -, haged, hcode, htot⟩ := ageItems_ok hdated
    have hplace : totals.length = (aging.buckets.map AgingBucket.amount).length :=
      hlength.trans haged.length.symm
    obtain ⟨totals', hzip, hlength', hcodes, hmins⟩ := zip_plus_ok hplace htots haged.currency
    have hrow : RowOk asOf items ⟨partyId, aging.buckets.map AgingBucket.amount, aging.total⟩ := by
      refine ⟨haged.length, fun i => ?_, ?_, htot⟩
      · rw [haged.amounts, minorAt_zero, Int.zero_add]
        exact minorSum_isOpen partyId i
      · rw [htot, sum_eq_minorAt haged.length, ← minorSum_buckets hdated]
        refine congrArg sum (map_congr_left fun i _ => ?_)
        rw [haged.amounts, minorAt_zero, Int.zero_add]
    let row : AgingReportRow := ⟨partyId, aging.buckets.map AgingBucket.amount, aging.total⟩
    obtain ⟨last, new, hrun, hnew, hrows, hnews, hlast⟩ :=
      ih (rows ++ [row]) (hlength'.trans hlength) hcodes hkeys.2
    refine ⟨last, row :: new, ?_, congrArg (partyId :: ·) hnew, forall_mem_cons.mpr ⟨hrow, hrows⟩,
      forall_mem_cons.mpr ⟨hcode, hnews⟩, fun i => ?_⟩
    · rw [append_assoc] at hrun
      rw [foldlM_cons, bind_eq_ok]
      refine ⟨_, ?_, hrun⟩
      unfold addRow
      rw [hgroup]
      exact bind_eq_ok.mpr ⟨aging, haging, bind_eq_ok.mpr ⟨totals', hzip, rfl⟩⟩
    · rw [hlast, hmins, map_cons, sum_cons, Int.add_assoc]

end Rgnr8.Subledger.OpenItems
