import Rgnr8.Service.Wip

/-! What a job carries on its three balance-sheet accounts, and what the lines drawn up for it add
there. -/

namespace Rgnr8.Service.Wip
open Lib Lib.Js Fallible Kernel OrderedMap List

/-- The balance-sheet accounts of a job. -/
inductive WipAccount where
  | costsInExcess | billingsInExcess | workInProgress
  deriving DecidableEq

namespace WipAccount

theorem forall_iff {P : WipAccount → Prop} :
    (∀ a, P a) ↔ P costsInExcess ∧ P billingsInExcess ∧ P workInProgress := by
  refine ⟨fun h => ⟨h _, h _, h _⟩, fun h a => ?_⟩
  cases a
  · exact h.1
  · exact h.2.1
  · exact h.2.2

instance (P : WipAccount → Prop) [DecidablePred P] : Decidable (∀ a, P a) :=
  decidable_of_iff' _ forall_iff

def code : WipAccount → String
  | costsInExcess => costsInExcessCode
  | billingsInExcess => billingsInExcessCode
  | workInProgress => workInProgressCode

def usedBy : WipAccount → CostMethod → Bool
  | costsInExcess, method => method = .asIncurred
  | billingsInExcess, _ => true
  | workInProgress, method => method = .capitalize

end WipAccount

def JobLedgerView.held (v : JobLedgerView) : WipAccount → Int
  | .costsInExcess => v.costsInExcess
  | .billingsInExcess => -v.billingsInExcess
  | .workInProgress => v.workInProgress

variable (m : JobMath) (job : JobRecord)

/-- What it should carry there. -/
def JobMath.target : WipAccount → Int
  | .costsInExcess => m.targetCostsInExcess
  | .billingsInExcess => match job.costMethod with
    | .capitalize => -m.targetDeferredBillings
    | .asIncurred => -m.targetBillingsInExcess
  | .workInProgress => m.targetWorkInProgress

variable (a : WipAccount)

def JobMath.due : Int :=
  if a.usedBy job.costMethod then m.target job a - m.view.held a else 0

def JobMath.stranded : Int :=
  if a.usedBy job.costMethod then 0 else m.view.held a

def JobMath.toRevenue : Int :=
  match job.costMethod with
  | .capitalize => -m.due job .billingsInExcess
  | .asIncurred => -(m.due job .costsInExcess + m.due job .billingsInExcess)

def JobMath.misplaced : Int :=
  if job.revenueAccountCode = a.code then m.toRevenue job else 0

def provision (input : WipPostInput) (job : JobRecord) (m : JobMath) : Int :=
  match job.costMethod with
  | .capitalize => 0
  | .asIncurred => max 0 (lossProvision input job m)

def carried (chart : ChartOfAccounts) (code jobId : String) (lines : List PostedLine) : Int :=
  (lines.map fun l => if jobOf l = some jobId ∧ (chart.get l.accountId).map Account.code = some code
    then signedAmount l else 0).sum

section carried
variable {chart : ChartOfAccounts} {code jobId : String}

@[simp] theorem carried_nil : carried chart code jobId [] = 0 := rfl

@[simp] theorem carried_cons (l : PostedLine) (lines : List PostedLine) :
    carried chart code jobId (l :: lines) =
      (if jobOf l = some jobId ∧ (chart.get l.accountId).map Account.code = some code
        then signedAmount l else 0) + carried chart code jobId lines := sum_cons

@[simp] theorem carried_append (lines lines' : List PostedLine) :
    carried chart code jobId (lines ++ lines') =
      carried chart code jobId lines + carried chart code jobId lines' := by
  unfold carried
  rw [map_append, sum_append]

theorem carried_of_off {lines : List PostedLine} (h : ∀ l ∈ lines, jobOf l = some jobId →
    (chart.get l.accountId).map Account.code ≠ some code) : carried chart code jobId lines = 0 := by
  induction lines with
  | nil => rfl
  | cons l lines ih =>
    rw [forall_mem_cons] at h
    have hoff : ¬(jobOf l = some jobId ∧ (chart.get l.accountId).map Account.code = some code) :=
      fun hon => h.1 hon.1 hon.2
    rw [carried_cons, if_neg hoff, ih h.2, Int.add_zero]

end carried

/-! The view of a journal, entry by entry. -/

section view
variable {chart : ChartOfAccounts} {jobId through : String} {v : JobLedgerView} {wip : Bool}

theorem held_viewAccount (account : Account) (signed : Int) (v : JobLedgerView) (a : WipAccount) :
    (viewAccount wip account signed v).held a =
      v.held a + if account.code = a.code then signed else 0 := by
  unfold viewAccount
  split_ifs with h1 h2 h3 h4 h5 h6 <;> cases a <;>
    simp_all [JobLedgerView.held, WipAccount.code, costsInExcessCode, billingsInExcessCode,
      workInProgressCode]
  omega

theorem held_viewLine (line : PostedLine) (a : WipAccount) :
    (viewLine chart jobId wip v line).held a = v.held a +
      if jobOf line = some jobId ∧ (chart.get line.accountId).map Account.code = some a.code
        then signedAmount line else 0 := by
  unfold viewLine
  by_cases hjob : jobOf line = some jobId
  · rw [if_neg (not_not.mpr hjob)]
    cases chart.get line.accountId with
    | none => simp
    | some account =>
      dsimp only
      rw [held_viewAccount]
      simp [hjob]
  · rw [if_pos hjob]
    simp [hjob]

variable (lines : List PostedLine)

theorem held_foldl_viewLine (a : WipAccount) (v : JobLedgerView) :
    (lines.foldl (viewLine chart jobId wip) v).held a = v.held a + carried chart a.code jobId lines := by
  induction lines generalizing v with
  | nil => exact (Int.add_zero _).symm
  | cons l lines ih => rw [foldl_cons, ih, held_viewLine, carried_cons, Int.add_assoc]

def JobLedgerView.facts (v : JobLedgerView) : Int × Int := (v.costToDate, v.billed)

theorem facts_viewLine (line : PostedLine) : (viewLine chart jobId true v line).facts = v.facts := by
  unfold viewLine
  split_ifs
  · rfl
  · cases chart.get line.accountId with
    | none => rfl
    | some account =>
      dsimp only
      unfold viewAccount
      split_ifs <;> first | rfl | simp_all

theorem facts_foldl_viewLine (v : JobLedgerView) :
    (lines.foldl (viewLine chart jobId true) v).facts = v.facts := by
  induction lines generalizing v with
  | nil => rfl
  | cons l lines ih => rw [foldl_cons, ih, facts_viewLine]

/-- The date is one the view looks at. -/
def Within (through date : String) : Prop := through = "" ∨ ¬ Before through date

instance (through date : String) : Decidable (Within through date) :=
  inferInstanceAs (Decidable (_ ∨ _))

theorem ledgerView_concat (journal : List PostedEntry) (e : PostedEntry) :
    ledgerView chart (journal ++ [e]) jobId through =
      if Within through e.entryDate then
        e.lines.foldl (viewLine chart jobId (isWip e)) (ledgerView chart journal jobId through)
      else ledgerView chart journal jobId through := by
  have hlast : ledgerView chart (journal ++ [e]) jobId through =
      viewEntry chart jobId through (ledgerView chart journal jobId through) e := by
    unfold ledgerView
    rw [foldl_append, foldl_cons, foldl_nil]
  rw [hlast]
  unfold viewEntry
  by_cases hin : Within through e.entryDate
  · rw [if_neg (fun h => hin.elim h.1 fun hlate => hlate h.2), if_pos hin]
  · have hout : through ≠ "" ∧ Before through e.entryDate := by
      rwa [Within, not_or, not_not] at hin
    rw [if_pos hout, if_neg hin]

def JobLedgerView.CostsApart (v : JobLedgerView) : Prop :=
  ∀ code ∈ v.costByAccount.keys, ∀ a : WipAccount, code ≠ a.code

theorem costsApart_set {costs : OrderedMap String Int} {code : String} {amount : Int}
    (hcosts : ∀ k ∈ costs.keys, ∀ a : WipAccount, k ≠ a.code) (hcode : ∀ a : WipAccount, code ≠ a.code) :
    ∀ k ∈ (costs.set code amount).keys, ∀ a : WipAccount, k ≠ a.code := by
  intro k hk
  rcases mem_put_key.mp hk with rfl | hk
  · exact hcode
  · exact hcosts k hk

theorem costsApart_viewAccount (account : Account) (signed : Int) (h : v.CostsApart) :
    (viewAccount wip account signed v).CostsApart := by
  unfold viewAccount
  split_ifs with h1 h2 h3 h4 h5 h6
  iterate 3 exact h
  · refine costsApart_set h fun a => ?_
    cases a <;> assumption
  · refine costsApart_set h fun a => ?_
    cases a <;> assumption
  iterate 2 exact h

theorem costsApart_foldl_viewLine (h : v.CostsApart) :
    (lines.foldl (viewLine chart jobId wip) v).CostsApart := by
  induction lines generalizing v with
  | nil => exact h
  | cons l lines ih =>
    refine ih ?_
    unfold viewLine
    split_ifs
    · exact h
    · cases chart.get l.accountId with
      | none => exact h
      | some account => exact costsApart_viewAccount account _ h

theorem costsApart_ledgerView (journal : List PostedEntry) :
    (ledgerView chart journal jobId through).CostsApart := by
  induction journal using reverseRecOn with
  | nil => exact fun code h => absurd h not_mem_nil
  | append_singleton journal e ih =>
    rw [ledgerView_concat]
    split_ifs
    · exact costsApart_foldl_viewLine e.lines ih
    · exact ih

end view

/-! The accounts an allocation names. -/

/-- Everything named so far is among some keys. -/
def Allocation.Among (keys : List String) (a : Allocation) : Prop :=
  (∀ code ∈ a.out.keys, code ∈ keys) ∧ (a.largest ≠ "" → a.largest ∈ keys)

theorem Allocation.Among.step {keys : List String} {a : Allocation} {total weightTotal : Int}
    {weight : String × Int} (h : a.Among keys) (hwt : weight.1 ∈ keys) :
    (allocateStep total weightTotal a weight).Among keys := by
  constructor
  · intro code hcode
    rcases mem_put_key.mp hcode with rfl | hcode
    · exact hwt
    · exact h.1 code hcode
  · unfold allocateStep
    dsimp only
    split_ifs
    · exact fun _ => hwt
    · exact h.2

theorem among_foldl {keys : List String} {total weightTotal : Int} {weights : List (String × Int)}
    {a : Allocation} (h : a.Among keys) (hweig : ∀ w ∈ weights, w.1 ∈ keys) :
    (weights.foldl (allocateStep total weightTotal) a).Among keys := by
  induction weights generalizing a with
  | nil => exact h
  | cons w weights ih =>
    rw [forall_mem_cons] at hweig
    exact ih (h.step hweig.1) hweig.2

theorem mem_keys_of_allocate {total : Int} {weights : OrderedMap String Int} {code : String}
    (h : code ∈ (allocate total weights).keys) : code ∈ weights.keys := by
  have hstart : (⟨.empty, 0, "", -1⟩ : Allocation).Among weights.keys :=
    ⟨fun k hk => absurd hk not_mem_nil, fun hne => absurd rfl hne⟩
  have hend : (weights.entries.foldl (allocateStep total weights.values.sum)
      ⟨.empty, 0, "", -1⟩).Among weights.keys :=
    among_foldl hstart fun w hw => mem_map_of_mem hw
  unfold allocate at h
  dsimp only at h
  split_ifs at h with hnone hrest
  · exact absurd h not_mem_nil
  · rcases mem_put_key.mp h with rfl | h
    · exact hend.2 hrest.2
    · exact hend.1 code h
  · exact hend.1 code h

/-! The lines of a job. -/

section lines
variable {ctx : WipContext} {job : JobRecord}

/-- Lines that all carry the job and put some amounts on its three accounts. -/
structure DrawnFor (ctx : WipContext) (job : JobRecord) (net : WipAccount → Int)
    (lines : List JournalLineInput) : Prop where
  tagged : ∀ l ∈ lines.map cleaned, jobOf l = some job.id
  net : ∀ a, carried ctx.chart a.code job.id (lines.map cleaned) = net a

theorem DrawnFor.nil : DrawnFor ctx job (fun _ => 0) [] :=
  ⟨fun _ h => absurd h not_mem_nil, fun _ => rfl⟩

variable {lines : List JournalLineInput} {code : String}

theorem DrawnFor.append {lines' : List JournalLineInput} {net net' : WipAccount → Int}
    (h : DrawnFor ctx job net lines) (h' : DrawnFor ctx job net' lines') :
    DrawnFor ctx job (fun a => net a + net' a) (lines ++ lines') := by
  constructor
  · intro l hl
    rw [map_append, mem_append] at hl
    exact hl.elim (h.tagged l) (h'.tagged l)
  · intro a
    rw [map_append, carried_append, h.net, h'.net]

theorem jobOf_cleaned {l : PostedLine} {id : String} (h : jobOf l = some id) (hid : id ≠ "") :
    jobOf (cleaned l) = some id := by
  unfold jobOf at h
  unfold jobOf cleaned
  cases hdims : l.dimensions with
  | none =>
    rw [hdims] at h
    cases h
  | some d =>
    rw [hdims] at h
    have hget : d.get? jobDimension = some id := h
    show (d.filter fun _ value => value ≠ "").get? jobDimension = some id
    rw [get?_filter, hget]
    simp [hid]

theorem need_eq_ok {chart : ChartOfAccounts} {account : Account}
    (h : need chart code = .ok account) : (chart.get account.id).map Account.code = some code := by
  unfold need at h
  cases hcode : chart.getByCode code with
  | none =>
    rw [hcode] at h
    cases h
  | some a =>
    rw [hcode] at h
    obtain rfl := Except.ok.inj h
    obtain ⟨hname, hget⟩ := chart.code_of_get hcode
    have hid : chart.get a.id = some a := hget
    rw [hid, Option.map_some, hname]

theorem signed_of_delta (up : EntrySide) (delta : Int) :
    (if 0 < delta then up else up.swap).signed delta.natAbs = up.signed delta := by
  split_ifs with h
  · rw [Int.natAbs_of_nonneg (Int.le_of_lt h)]
  · rw [EntrySide.signed_swap]
    have habs : (delta.natAbs : Int) = -delta := by omega
    rw [habs]
    cases up
    · exact Int.neg_neg delta
    · exact Int.neg_neg (-delta)

theorem drawn_line {l : JournalLineInput} (hid : job.id ≠ "") (hjob : jobOf l = some job.id)
    (hcode : (ctx.chart.get l.accountId).map Account.code = some code) :
    DrawnFor ctx job (fun a => if code = a.code then signedAmount l else 0) [l] := by
  have htag : jobOf (cleaned l) = some job.id := jobOf_cleaned hjob hid
  constructor
  · intro k hk
    rw [map_singleton, mem_singleton] at hk
    rwa [hk]
  · intro a
    have hacc : (ctx.chart.get (cleaned l).accountId).map Account.code = some code := hcode
    rw [map_singleton, carried_cons, carried_nil, Int.add_zero, htag, hacc]
    simp only [true_and, Option.some.injEq]
    rfl

theorem drawn_moved {memo : String} {up : EntrySide} {delta : Int} (hid : job.id ≠ "")
    (h : moved ctx job code up delta memo = .ok lines) :
    DrawnFor ctx job (fun a => if code = a.code then up.signed delta else 0) lines ∧
      (lines = [] ↔ delta = 0) := by
  unfold moved at h
  by_cases hzero : delta = 0
  · rw [if_pos hzero] at h
    obtain rfl := Except.ok.inj h
    subst hzero
    refine ⟨?_, iff_of_true rfl rfl⟩
    simpa using (DrawnFor.nil : DrawnFor ctx job (fun _ => 0) [])
  · rw [if_neg hzero, bind_eq_ok] at h
    obtain ⟨account, hacc, h⟩ := h
    obtain rfl := Except.ok.inj h
    have hline := drawn_line (l := ⟨account.id, if 0 < delta then up else up.swap,
      ⟨delta.natAbs, ctx.currency⟩, some s!"{job.name} — {memo}", some (dimsOf job)⟩) hid
      (get?_set_self _ _ _) (need_eq_ok hacc)
    unfold signedAmount at hline
    rw [signed_of_delta] at hline
    exact ⟨hline, iff_of_false (cons_ne_nil _ _) hzero⟩

theorem drawn_shares {costDelta : Int} {shares : List (String × Int)} (hid : job.id ≠ "")
    (hoff : ∀ share ∈ shares, ∀ a : WipAccount, share.1 ≠ a.code)
    (h : shares.mapM (shareLine ctx job costDelta) = .ok lines) :
    DrawnFor ctx job (fun _ => 0) lines := by
  rw [mapM_eq_ok] at h
  induction h with
  | nil => exact .nil
  | @cons share line shares lines hline _ ih =>
    rw [forall_mem_cons] at hoff
    unfold shareLine at hline
    rw [bind_eq_ok] at hline
    obtain ⟨account, hacc, hline⟩ := hline
    obtain rfl := Except.ok.inj hline
    have hjob : ((dimsOf job).set costCodeDimension "").get? jobDimension = some job.id := by
      rw [get?_set_ne _ _ (by decide)]
      exact get?_set_self _ _ _
    have hfst := drawn_line (l := ⟨account.id, if 0 < costDelta then .credit else .debit,
      ⟨share.2.natAbs, ctx.currency⟩, some s!"{job.name} — cost deferred",
      some ((dimsOf job).set costCodeDimension "")⟩) hid hjob (need_eq_ok hacc)
    have hboth := hfst.append (ih hoff.2)
    refine ⟨hboth.tagged, fun a => ?_⟩
    have hnet := hboth.net a
    rwa [if_neg (hoff.1 a)] at hnet

theorem drawn_deferral {view : JobLedgerView} {costDelta : Int} (hid : job.id ≠ "")
    (hview : view.CostsApart) (h : deferral ctx job view costDelta = .ok lines) :
    DrawnFor ctx job (fun a => if workInProgressCode = a.code then costDelta else 0) lines ∧
      (lines = [] ↔ costDelta = 0) := by
  unfold deferral at h
  by_cases hzero : costDelta = 0
  · rw [if_pos hzero] at h
    obtain rfl := Except.ok.inj h
    subst hzero
    refine ⟨?_, iff_of_true rfl rfl⟩
    simpa using (DrawnFor.nil : DrawnFor ctx job (fun _ => 0) [])
  · rw [if_neg hzero, bind_eq_ok] at h
    obtain ⟨first, hfst, h⟩ := h
    rw [refuse_bind_eq_ok, bind_eq_ok] at h
    obtain ⟨-, rest, hrest, h⟩ := h
    obtain rfl := Except.ok.inj h
    obtain ⟨hdrawn, hemp⟩ := drawn_moved hid hfst
    have hoff : ∀ share ∈ (allocate costDelta (view.costByAccount.filter
        fun _ amount => 0 < amount)).entries.filter fun share => share.2 ≠ 0,
        ∀ a : WipAccount, share.1 ≠ a.code := by
      intro share hshare
      have hkey := mem_keys_of_allocate (mem_map_of_mem (mem_filter.mp hshare).1)
      obtain ⟨weight, hwt, hname⟩ := mem_map.mp hkey
      rw [← hname]
      exact hview weight.1 (mem_map_of_mem (mem_filter.mp hwt).1)
    have hboth := hdrawn.append (drawn_shares hid hoff hrest)
    refine ⟨⟨hboth.tagged, fun a => ?_⟩, ?_⟩
    · have hnet := hboth.net a
      rwa [Int.add_zero] at hnet
    · rw [append_eq_nil_iff, hemp]
      exact ⟨fun hnil => hnil.1, fun hnil => absurd hnil hzero⟩

end lines
end Rgnr8.Service.Wip
