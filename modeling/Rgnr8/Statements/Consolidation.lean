import Rgnr8.Lib.Javascript
import Rgnr8.Statements.CashFlowSpec

/-! Consolidation: the trial balances of several entities are merged account by account, by account
id, and eliminations that net to zero are applied on top. -/

namespace Rgnr8.Statements
open Lib Lib.Js Kernel OrderedMap List

structure EntityTrialBalance where
  entityId : String
  tb : TrialBalance

/-- A signed adjustment. -/
abbrev EliminationLine := TrialBalanceEntry

structure ConsolidationResult where
  consolidated : TrialBalance
  combined : TrialBalance
  eliminations : List EliminationLine
  balanced : Bool

def mergeSigned (target : OrderedMap AccountId TrialBalanceEntry) (entry : TrialBalanceEntry) :
    OrderedMap AccountId TrialBalanceEntry :=
  match target.get? entry.accountId with
  | some existing =>
    target.set entry.accountId { existing with signed := existing.signed + entry.signed }
  | none => target.set entry.accountId entry

variable (localeLe : String → String → Bool)

def toTrialBalance (map : OrderedMap AccountId TrialBalanceEntry) (currency : Currency) :
    TrialBalance where
  currency := currency
  entries := (map.values.filter fun e => e.signed ≠ 0).insertionSort
    fun a b => localeLe a.code b.code = true

/-- `Money.toDecimalString`. -/
def toDecimalString (minor : Int) (currency : Currency) : String :=
  let digits := padStart (currency.scale + 1) minor.natAbs
  let cut := digits.length - currency.scale
  let frac := if 0 < currency.scale then "." ++ (digits.drop cut).toString else ""
  (if minor < 0 then "-" else "") ++ (digits.take cut).toString ++ frac

def consolidateTrialBalances (entities : List EntityTrialBalance)
    (eliminations : List EliminationLine) : Except String ConsolidationResult :=
  match entities with
  | [] => .error "no entities to consolidate"
  | first :: _ =>
    let currency := first.tb.currency
    match entities.find? fun e => e.tb.currency.code ≠ currency.code with
    | some e => .error (s!"entity {e.entityId} currency {e.tb.currency.code} != " ++
        s!"{currency.code} (translate first)")
    | none =>
      let combinedMap := (entities.flatMap fun e => e.tb.entries).foldl mergeSigned .empty
      let elimSum := (eliminations.map TrialBalanceEntry.signed).sum
      if elimSum ≠ 0 then
        .error (s!"eliminations are unbalanced (net {toDecimalString elimSum currency}); " ++
          "they must sum to zero")
      else
        let consolidated := toTrialBalance localeLe (eliminations.foldl mergeSigned combinedMap)
          currency
        .ok {
          consolidated := consolidated
          combined := toTrialBalance localeLe combinedMap currency
          eliminations := eliminations
          balanced := (consolidated.entries.map TrialBalanceEntry.signed).sum = 0 }

/-! What merging leaves. -/

def signedOn (id : AccountId) (entries : List TrialBalanceEntry) : Int :=
  (entries.map fun e => if e.accountId = id then e.signed else 0).sum

def signedUnder (code : String) (entries : List TrialBalanceEntry) : Int :=
  (entries.map fun e => if e.code = code then e.signed else 0).sum

theorem signedUnder_append (code : String) (entries entries' : List TrialBalanceEntry) :
    signedUnder code (entries ++ entries') =
      signedUnder code entries + signedUnder code entries' := by
  unfold signedUnder
  rw [map_append, sum_append]

variable {entries : List TrialBalanceEntry}

theorem signedUnder_of_off {code : String} (h : ∀ e ∈ entries, e.code ≠ code) :
    signedUnder code entries = 0 := by
  refine sum_eq_zero fun n hn => ?_
  obtain ⟨e, he, rfl⟩ := mem_map.mp hn
  exact if_neg (h e he)

theorem sum_signedUnder {codes : List String} (hnd : codes.Nodup)
    (h : ∀ e ∈ entries, e.code ∈ codes) : (codes.map fun code => signedUnder code entries).sum =
      (entries.map TrialBalanceEntry.signed).sum := by
  induction entries with
  | nil =>
    refine sum_eq_zero fun n hn => ?_
    obtain ⟨code, -, rfl⟩ := mem_map.mp hn
    rfl
  | cons e entries ih =>
    rw [forall_mem_cons] at h
    have hcons : ∀ code, signedUnder code (e :: entries) =
        (if code = e.code then e.signed else 0) + signedUnder code entries := by
      intro code
      unfold signedUnder
      rw [map_cons, sum_cons]
      simp only [eq_comm]
    have hone : (codes.map fun code => if code = e.code then e.signed else 0).sum = e.signed := by
      rw [← sum_toFinset _ hnd, Finset.sum_ite_eq', if_pos (mem_toFinset.mpr h.1)]
    simp only [hcons]
    rw [sum_map_add, hone, ih h.2, map_cons, sum_cons]

theorem signedOn_cons (id : AccountId) (e : TrialBalanceEntry) (entries : List TrialBalanceEntry) :
    signedOn id (e :: entries) =
      (if e.accountId = id then e.signed else 0) + signedOn id entries := sum_cons

theorem get?_merged (entries : List TrialBalanceEntry)
    (m : OrderedMap AccountId TrialBalanceEntry) (id : AccountId) :
    (entries.foldl mergeSigned m).get? id =
      ((m.get? id).or ((entries.find? fun e => e.accountId = id).map
        fun e => { e with signed := 0 })).map
          fun e => { e with signed := e.signed + signedOn id entries } := by
  induction entries generalizing m with
  | nil =>
    rw [foldl_nil, find?_nil, Option.map_none, Option.or_none]
    cases m.get? id with
    | none => rfl
    | some e => simp [signedOn]
  | cons x entries ih =>
    rw [foldl_cons, ih, signedOn_cons]
    by_cases hid : x.accountId = id
    · subst hid
      rw [find?_cons_of_pos (by simp), mergeSigned]
      cases hget : m.get? x.accountId with
      | none => simp
      | some e => simp [Int.add_assoc]
    · rw [find?_cons_of_neg (by simpa using hid), if_neg hid, Int.zero_add]
      have hkeep : (mergeSigned m x).get? id = m.get? id := by
        unfold mergeSigned
        cases m.get? x.accountId with
        | none => exact get?_set_ne _ _ fun heq => hid heq.symm
        | some e => exact get?_set_ne _ _ fun heq => hid heq.symm
      rw [hkeep]

theorem get?_merged_eq_some {id : AccountId} {e : TrialBalanceEntry}
    (h : (entries.foldl mergeSigned .empty).get? id = some e) :
    ∃ x ∈ entries, x.accountId = id ∧ e = { x with signed := signedOn id entries } := by
  rw [get?_merged, get?_empty, Option.none_or, Option.map_map] at h
  obtain ⟨x, hx, rfl⟩ := Option.map_eq_some_iff.mp h
  refine ⟨x, mem_of_find?_eq_some hx, ?_, ?_⟩
  · simpa using find?_some hx
  · simp

def Aligned (entries : List TrialBalanceEntry) : Prop :=
  ∀ x ∈ entries, ∀ y ∈ entries, x.accountId = y.accountId ↔ x.code = y.code

theorem Aligned.signedOn_eq (h : Aligned entries) {x : TrialBalanceEntry} (hx : x ∈ entries) :
    signedOn x.accountId entries = signedUnder x.code entries := by
  unfold signedOn signedUnder
  refine congrArg sum (map_congr_left fun y hy => ?_)
  simp only [h y hy x hx]

theorem Aligned.signed_find?_merged (h : Aligned entries) (localeLe : String → String → Bool)
    (currency : Currency) (code : String) :
    (((toTrialBalance localeLe (entries.foldl mergeSigned .empty) currency).entries.find?
      fun x => x.code = code).map TrialBalanceEntry.signed).getD 0 = signedUnder code entries := by
  have hmem : ∀ e, e ∈ (toTrialBalance localeLe (entries.foldl mergeSigned .empty)
      currency).entries ↔ e.signed ≠ 0 ∧
        ∃ id, (entries.foldl mergeSigned .empty).get? id = some e := by
    intro e
    unfold toTrialBalance values
    rw [mem_insertionSort, mem_filter, decide_eq_true_eq, and_comm, mem_map]
    refine and_congr_right fun _ => ⟨?_, ?_⟩
    · rintro ⟨⟨id, e'⟩, hent, rfl⟩
      exact ⟨id, mem_entries.mp hent⟩
    · rintro ⟨id, hid⟩
      exact ⟨(id, e), mem_entries.mpr hid, rfl⟩
  cases hfind : (toTrialBalance localeLe (entries.foldl mergeSigned .empty)
      currency).entries.find? fun x => x.code = code with
  | some e =>
    have hcode : e.code = code := by simpa using find?_some hfind
    obtain ⟨-, id, hget⟩ := (hmem e).mp (mem_of_find?_eq_some hfind)
    obtain ⟨x, hx, rfl, rfl⟩ := get?_merged_eq_some hget
    rw [Option.map_some, Option.getD_some, ← hcode]
    exact h.signedOn_eq hx
  | none =>
    -- what merges to nothing is left out
    rw [Option.map_none, Option.getD_none]
    by_cases hany : ∃ x ∈ entries, x.code = code
    · obtain ⟨x, hx, rfl⟩ := hany
      rw [← h.signedOn_eq hx]
      by_contra hzero
      have hget := get?_merged entries .empty x.accountId
      rw [get?_empty, Option.none_or, Option.map_map] at hget
      cases hfst : entries.find? fun e => e.accountId = x.accountId with
      | none =>
        have hnot := find?_eq_none.mp hfst x hx
        simp at hnot
      | some y =>
        rw [hfst] at hget
        have hy := mem_of_find?_eq_some hfst
        have hyid : y.accountId = x.accountId := by simpa using find?_some hfst
        have hent := (hmem _).mpr ⟨by simpa using fun heq => hzero heq.symm, _, hget⟩
        refine absurd (find?_eq_none.mp hfind _ hent) ?_
        simpa using (h y hy x hx).mp hyid
    · refine (signedUnder_of_off fun e he hcode => hany ⟨e, he, hcode⟩).symm

end Rgnr8.Statements

/-! The statements of signed trial balances that no single journal stands behind. All that is asked
of them is that their entries sum to zero and that an account is of one class wherever it is listed. -/

namespace Rgnr8.Statements
open Lib Kernel

variable (w : AccountId → Int)

variable {localeLe : String → String → Bool} {currency : Currency}
variable {entries : List TrialBalanceEntry}
variable {tb : TrialBalance} {cls : AccountId → AccountClass}

variable {coa : ChartOfAccounts} {start finish : OrderedMap AccountId TrialBalanceEntry}

end Rgnr8.Statements
