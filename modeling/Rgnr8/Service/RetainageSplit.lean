import Rgnr8.Service.ArApSpec
import Rgnr8.Service.ScheduleRuns

/-! What a billing draft bills now and what it holds back come to its gross amount, and what is held
on a job is what its drafts have held less what has been released. -/

namespace Rgnr8.Service.Billing
open Lib Lib.Js Fallible Kernel ArAp Subledger List Except

/-! What lines leave on an account under a job, and what they credit to an account. -/

variable (account : AccountId)

def OnJob (jobId : String) (l : PostedLine) : Prop :=
  l.accountId = account ∧ (l.dimensions.getD .empty).get? jobDimension = some jobId

instance (account : AccountId) (jobId : String) : DecidablePred (OnJob account jobId) :=
  fun _ => inferInstanceAs (Decidable (_ ∧ _))

def onJob (jobId : String) (lines : List PostedLine) : Int :=
  ((lines.filter fun l => OnJob account jobId l).map fun l => l.side.signed l.amount.minorUnits).sum

def creditOn (lines : List PostedLine) : Int :=
  ((lines.filter fun l => l.side = .credit ∧ l.accountId = account).map fun l =>
    l.amount.minorUnits).sum

def amountTotal (lines : List PostedLine) : Int := (lines.map fun l => l.amount.minorUnits).sum

section
variable {account : AccountId} {jobId : String} {l : PostedLine}

theorem onJob_cons_of (h : OnJob account jobId l) (lines : List PostedLine) :
    onJob account jobId (l :: lines) = l.side.signed l.amount.minorUnits + onJob account jobId lines := by
  unfold onJob
  simp only [filter_cons, h, decide_true, if_true, map_cons, sum_cons]

theorem onJob_cons_off (h : ¬ OnJob account jobId l) (lines : List PostedLine) :
    onJob account jobId (l :: lines) = onJob account jobId lines := by
  unfold onJob
  rw [filter_cons_of_neg (by rw [decide_eq_true_eq]; exact h)]

theorem creditOn_cons_of (h : l.side = .credit ∧ l.accountId = account) (lines : List PostedLine) :
    creditOn account (l :: lines) = l.amount.minorUnits + creditOn account lines := by
  unfold creditOn
  simp only [filter_cons, h, and_self, decide_true, if_true, map_cons, sum_cons]

theorem creditOn_cons_off (h : ¬ (l.side = .credit ∧ l.accountId = account))
    (lines : List PostedLine) : creditOn account (l :: lines) = creditOn account lines := by
  unfold creditOn
  rw [filter_cons_of_neg (by rw [decide_eq_true_eq]; exact h)]

structure Credits (account : AccountId) (jobId : String) (l : PostedLine) : Prop where
  side : l.side = .credit
  on : OnJob account jobId l

variable {lines : List PostedLine}

theorem onJob_credits (h : ∀ l ∈ lines, Credits account jobId l) :
    onJob account jobId lines = -amountTotal lines := by
  induction lines with
  | nil => rfl
  | cons l lines ih =>
    rw [forall_mem_cons] at h
    have hsgn : l.side.signed l.amount.minorUnits = -l.amount.minorUnits := by
      rw [h.1.side]
      rfl
    have hsum : amountTotal (l :: lines) = l.amount.minorUnits + amountTotal lines := sum_cons
    rw [onJob_cons_of h.1.on, hsgn, ih h.2, hsum, Int.neg_add]

theorem onJob_credits_off {other : AccountId} (hne : account ≠ other)
    (h : ∀ l ∈ lines, Credits account jobId l) : onJob other jobId lines = 0 := by
  induction lines with
  | nil => rfl
  | cons l lines ih =>
    rw [forall_mem_cons] at h
    rw [onJob_cons_off fun hon => hne (h.1.on.1.symm.trans hon.1)]
    exact ih h.2

theorem creditOn_credits (h : ∀ l ∈ lines, Credits account jobId l) :
    creditOn account lines = amountTotal lines := by
  induction lines with
  | nil => rfl
  | cons l lines ih =>
    rw [forall_mem_cons] at h
    have hsum : amountTotal (l :: lines) = l.amount.minorUnits + amountTotal lines := sum_cons
    rw [creditOn_cons_of ⟨h.1.side, h.1.on.1⟩, ih h.2, hsum]

end

/-! The lines of an invoice. -/

/-- A line in the form in which billing asks for it: untaxed, under the job, of some account. -/
structure BillsJob (jobId code : String) (l : DocumentLineInput) : Prop where
  account : l.accountCode = code
  quantity : l.quantity = none
  dimensions : ∃ ds : Dimensions, l.dimensions = some ds ∧ ds.get? jobDimension = some jobId

def amountOf (l : DocumentLineInput) : Int := (bigInt l.unitAmountMinor).getD 0

section
variable {chart : ChartOfAccounts} {currency : Currency} {jobId code : String}

theorem someDimensions_of_get {ds : Dimensions} {key value : String} (h : ds.get? key = some value) :
    someDimensions (some ds) = some ds := by
  refine Option.filter_some_pos (decide_eq_true fun hnil => ?_)
  have hmem := OrderedMap.mem_entries.mpr h
  rw [hnil] at hmem
  exact not_mem_nil hmem

theorem credits_of_line {l : DocumentLineInput} {x : DocumentLine × DocLineRecord}
    {r : ResolvedLine} (hl : BillsJob jobId code l) (hx : buildLine chart currency l = .ok x)
    (hr : resolveLine .income currency x.1 = .ok r) :
    (∃ a, chart.getByCode (trim code) = some a ∧ Credits a.id jobId (itemLine .credit r)) ∧
      r.amount.minorUnits = amountOf l ∧ x.2.amountMinor = amountOf l := by
  obtain ⟨ds, hds, hjob⟩ := hl.dimensions
  have hkept := someDimensions_of_get hjob
  have hres := resolves hr
  unfold buildLine at hx
  dsimp only at hx
  rw [hl.account] at hx
  obtain ⟨id, hid, hx⟩ := bind_eq_ok.mp hx
  obtain ⟨unit, hunit, hx⟩ := bind_eq_ok.mp hx
  obtain ⟨-, hx⟩ := refuse_eq_ok.mp hx
  obtain ⟨qty, hqty, hx⟩ := bind_eq_ok.mp hx
  have hone : qty = 1 := by
    rw [hl.quantity] at hqty
    exact (ok.inj hqty).symm
  have hamt : amountOf l = unit := by
    unfold ArAp.minorOf at hunit
    unfold amountOf
    rcases hread : bigInt l.unitAmountMinor with - | n
    · rw [hread] at hunit
      cases hunit
    · rw [hread] at hunit
      exact ok.inj hunit
  obtain rfl := ok.inj hx
  subst hone
  have hacc : ∃ a, chart.getByCode (trim code) = some a ∧ a.id = id := by
    unfold idFor at hid
    rcases hfound : chart.getByCode (trim code) with - | a
    · rw [hfound] at hid
      cases hid
    · rw [hfound] at hid
      exact ⟨a, rfl, ok.inj hid⟩
  have hmin : r.amount.minorUnits = unit := hres.amount.trans (Int.mul_one unit)
  refine ⟨?_, hmin.trans hamt.symm, (Int.mul_one unit).trans hamt.symm⟩
  obtain ⟨a, ha, rfl⟩ := hacc
  refine ⟨a, ha, rfl, ?_⟩
  unfold resolveLine at hr
  dsimp only at hr
  obtain ⟨-, hr⟩ := refuse_eq_ok.mp hr
  obtain ⟨-, hr⟩ := refuse_eq_ok.mp hr
  obtain ⟨amount, -, hr⟩ := bind_eq_ok.mp hr
  rw [← ok.inj hr, hds, hkept]
  refine ⟨rfl, ?_⟩
  have hget : (someDimensions (some ds)).getD .empty = ds := by
    rw [hkept]
    rfl
  exact (congrArg (fun d : Dimensions => d.get? jobDimension) hget).trans hjob

theorem credits_of_lines {inputs : List DocumentLineInput}
    {xs : List (DocumentLine × DocLineRecord)} {lines : List ResolvedLine}
    (hinp : ∀ l ∈ inputs, BillsJob jobId code l)
    (hxs : List.Forall₂ (fun l x => buildLine chart currency l = .ok x) inputs xs)
    (hlines : List.Forall₂ (fun d r => resolveLine .income currency d = .ok r) (xs.map Prod.fst)
      lines) :
    (∀ l ∈ lines.map (itemLine .credit), ∃ a, chart.getByCode (trim code) = some a ∧
      Credits a.id jobId l) ∧
      amountTotal (lines.map (itemLine .credit)) = (inputs.map amountOf).sum ∧
      (xs.map fun x => x.2.amountMinor).sum = (inputs.map amountOf).sum := by
  induction hxs generalizing lines with
  | nil =>
    rw [map_nil, forall₂_nil_left_iff] at hlines
    rw [hlines]
    exact ⟨fun l hl => absurd hl not_mem_nil, rfl, rfl⟩
  | @cons l x inputs xs hx _ ih =>
    rw [map_cons, forall₂_cons_left_iff] at hlines
    obtain ⟨r, rest, hr, hrest, rfl⟩ := hlines
    rw [forall_mem_cons] at hinp
    obtain ⟨hcrs, hamt, hrec⟩ := credits_of_line hinp.1 hx hr
    obtain ⟨hall, hitems, hrecs⟩ := ih hinp.2 hrest
    refine ⟨?_, ?_, ?_⟩
    · rw [map_cons, forall_mem_cons]
      exact ⟨hcrs, hall⟩
    · rw [map_cons, map_cons, sum_cons, ← hamt, ← hitems]
      exact sum_cons
    · rw [map_cons, map_cons, sum_cons, sum_cons, hrec, hrecs]

end

/-- An invoice as billing raises it: the control account in full, and credits under the job. -/
structure BillsInvoice (ctx : ArApContext) (jobId code : String) (req : CreateDocumentRequest)
    (draft : PostCommand × DocRecord) : Prop where
  tenant : draft.1.tenantId = ctx.tenant
  key : draft.1.idempotencyKey = s!"invoice:{req.id}"
  doc : draft.2.kind = .invoice ∧ draft.2.id = req.id
  net : draft.2.netMinor = (req.lines.map amountOf).sum
  lines : ∃ control total items, draft.1.lines = anchorLine ⟨control, .debit⟩ total :: items ∧
    (∀ l ∈ items, ∃ a, ctx.chart.getByCode (trim code) = some a ∧ Credits a.id jobId l) ∧
    amountTotal items = (req.lines.map amountOf).sum

theorem taxOnMinor_zero (base : Int) : taxOnMinor base 0 = .ok 0 := by
  have hzero : ((if base < 0 then -base else base) * 0 + ppm.tdiv 2).tdiv ppm = 0 := by
    rw [Int.mul_zero]
    rfl
  unfold taxOnMinor
  rw [if_neg (lt_irrefl 0)]
  dsimp only
  rw [hzero]
  split_ifs <;> rfl

theorem billsInvoice {ctx : ArApContext} {jobId code : String} {req : CreateDocumentRequest}
    {party : PartyRecord} {draft : PostCommand × DocRecord} (htax : req.taxRatePpm = none)
    (hlines : ∀ l ∈ req.lines, BillsJob jobId code l)
    (h : draftDocument .invoice req ctx party = .ok draft) :
    BillsInvoice ctx jobId code req draft := by
  simp only [draftDocument, bind_eq_ok, refuse_eq_ok] at h
  obtain ⟨b, hb, -, due, -, rate, hrate, cmd, hcmd, hd⟩ := h
  have hzero : rate = 0 := by
    have hrate' : taxRateOf req = .ok rate := hrate
    unfold taxRateOf at hrate'
    rw [htax] at hrate'
    exact (ok.inj hrate').symm
  subst hzero
  have hcmd' : invoiceCommand req ctx b.docLines 0 = .ok cmd := hcmd
  simp only [invoiceCommand, bind_eq_ok, mapError_eq_ok] at hcmd'
  obtain ⟨control, -, payable, -, r, hr, hcmd'⟩ := hcmd'
  simp only [taxedInvoiceToPostCommand, bind_eq_ok, mapError_eq_ok] at hr
  obtain ⟨lines, hresd, net, -, base, -, tax, htaxed, total, -, hr⟩ := hr
  have hnotax : tax.minorUnits = 0 := by
    unfold taxOnAmount at htaxed
    rw [taxOnMinor_zero] at htaxed
    rw [← ok.inj htaxed]
  obtain ⟨xs, hxs, hb⟩ := bind_eq_ok.mp hb
  obtain rfl := ok.inj hb
  rw [resolveLines, refuse_eq_ok, mapM_eq_ok] at hresd
  obtain ⟨hcrs, hitems, hrecs⟩ :=
    credits_of_lines hlines (mapM_eq_ok.mp hxs) hresd.2
  obtain rfl := ok.inj hr
  obtain rfl := ok.inj hcmd'
  obtain rfl := ok.inj hd
  have hnol : taxLines payable tax = [] := if_pos hnotax
  refine ⟨rfl, rfl, ⟨rfl, rfl⟩, hrecs, control, total, lines.map (itemLine .credit), ?_, hcrs,
    hitems⟩
  exact congrArg (anchorLine ⟨control, .debit⟩ total :: ·)
    ((congrArg (lines.map (itemLine .credit) ++ ·) hnol).trans (append_nil _))

end Rgnr8.Service.Billing
