import Rgnr8.Service.RetainagePosts

/-! A job's drafts are posted and its retainage is released, in any order. -/

namespace Rgnr8.Service.Billing
open Lib Lib.Js Fallible Kernel ArAp Subledger BillingCall Prog List Option Except

/-! Drafts as they are drawn. -/

/-- What an accepted draft bills now and holds back make up its gross amount. -/
structure Splits (jobId : String) (d : BillingDraft) : Prop where
  job : d.job.id = jobId
  untaxed : d.request.taxRatePpm = none
  lines : ∀ l ∈ d.request.lines, BillsJob jobId d.job.revenueAccountCode l
  net : (d.request.lines.map amountOf).sum = d.grossMinor - d.retainageMinor
  held : 0 ≤ d.retainageMinor
  within : d.retainageMinor ≤ d.grossMinor

theorem amountOf_text {l : DocumentLineInput} {n : Int}
    (h : l.unitAmountMinor = .text (toString n)) : amountOf l = n := by
  unfold amountOf
  rw [h, bigInt_toString]
  rfl

variable {ppm : Int} {job : JobRecord} {wanted : OrderedMap Nat Int}

theorem invoiceLine_eq_some {l : ScheduleLineRecord} {line : DocumentLineInput}
    (h : invoiceLine job ppm wanted l = some line) : BillsJob job.id job.revenueAccountCode line ∧
      amountOf line = amountOn wanted l - mulDiv (amountOn wanted l) ppm million := by
  have hne : jobDimension ≠ costCodeDimension := by decide
  unfold invoiceLine at h
  dsimp only at h
  by_cases hnet : amountOn wanted l - mulDiv (amountOn wanted l) ppm million ≤ 0
  · rw [if_pos hnet] at h
    cases h
  · rw [if_neg hnet] at h
    obtain rfl := some.inj h
    refine ⟨⟨rfl, rfl, _, rfl, ?_⟩, amountOf_text rfl⟩
    split_ifs with hcode
    · exact get_jobOnly job
    · exact (OrderedMap.get?_set_ne _ _ hne).trans (get_jobOnly job)

theorem invoiceLine_eq_none {l : ScheduleLineRecord} (h : invoiceLine job ppm wanted l = none) :
    amountOn wanted l - mulDiv (amountOn wanted l) ppm million ≤ 0 := by
  unfold invoiceLine at h
  dsimp only at h
  by_contra hnet
  rw [if_neg hnet] at h
  cases h

theorem sum_invoiceLines {schedule : List ScheduleLineRecord}
    (hle : ∀ l ∈ schedule, mulDiv (amountOn wanted l) ppm million ≤ amountOn wanted l) :
    ((schedule.filterMap (invoiceLine job ppm wanted)).map amountOf).sum =
      (schedule.map (amountOn wanted)).sum -
        (schedule.map fun l => mulDiv (amountOn wanted l) ppm million).sum := by
  induction schedule with
  | nil => rfl
  | cons l ls ih =>
    rw [forall_mem_cons] at hle
    have hrest := ih hle.2
    rw [map_cons, sum_cons, map_cons, sum_cons]
    rcases hline : invoiceLine job ppm wanted l with - | line
    · have hnone := invoiceLine_eq_none hline
      have hwhole := hle.1
      rw [filterMap_cons_none hline, hrest]
      omega
    · have hamt := (invoiceLine_eq_some hline).2
      rw [filterMap_cons_some hline, map_cons, sum_cons, hrest, hamt]
      omega

theorem splits_progress {jobId : String} {schedule : List ScheduleLineRecord}
    {input : ProgressBillInput} {d : BillingDraft}
    (h : draftProgress job jobId schedule input = .ok d) : d.job = job ∧ Splits job.id d := by
  unfold draftProgress at h
  obtain ⟨-, h⟩ := refuse_bind_eq_ok.mp h
  obtain ⟨date, -, h⟩ := bind_eq_ok.mp h
  obtain ⟨-, h⟩ := refuse_bind_eq_ok.mp h
  obtain ⟨wanted, hwant, h⟩ := bind_eq_ok.mp h
  obtain ⟨-, h⟩ := refuse_bind_eq_ok.mp h
  obtain ⟨ppm, hppm, h⟩ := bind_eq_ok.mp h
  obtain ⟨-, h⟩ := refuse_bind_eq_ok.mp h
  obtain rfl := ok.inj h
  have hfits : WantedWithin schedule wanted :=
    wantedAmounts_eq_ok (fun n a hget => by rw [OrderedMap.get?_empty] at hget; cases hget) hwant
  have hamt : ∀ l, 0 ≤ amountOn wanted l := by
    intro l
    unfold amountOn
    rcases hget : wanted.get? l.lineNo with - | a
    · exact le_refl 0
    · exact (hfits l.lineNo a hget).1.le
  have hrate : 0 ≤ ppm ∧ ppm ≤ million := by
    unfold retainageRate at hppm
    rcases hread : ppmOf (input.retainagePpm.getD (some job.retainagePpm)) with - | n
    · rw [hread] at hppm
      cases hppm
    · rw [hread] at hppm
      rw [← ok.inj hppm]
      exact of_decide_eq_true (filter_eq_some_iff.mp hread).2
  have hshare : ∀ l, 0 ≤ mulDiv (amountOn wanted l) ppm million :=
    fun l => mulDiv_nonneg (hamt l) hrate.1 (by decide)
  have hle : ∀ l, mulDiv (amountOn wanted l) ppm million ≤ amountOn wanted l :=
    fun l => mulDiv_le (hamt l) hrate.1 hrate.2 (by decide)
  refine ⟨rfl, rfl, rfl, fun l hl => ?_, sum_invoiceLines fun l _ => hle l, ?_, ?_⟩
  · obtain ⟨line, -, hline⟩ := mem_filterMap.mp hl
    exact (invoiceLine_eq_some hline).1
  · refine sum_nonneg fun n hn => ?_
    obtain ⟨l, -, rfl⟩ := mem_map.mp hn
    exact hshare l
  · exact sum_le_sum fun l _ => hle l

def HoldsNoLess (job : JobRecord) (milestones : List MilestoneRecord) (input : MilestoneBillInput) :
    Prop :=
  ∀ milestone ppm, pendingMilestone milestones (trim (input.milestoneId.getD "")) = .ok milestone →
    milestoneRate input.retainagePpm job = .ok ppm →
      0 ≤ mulDiv milestone.amountMinor ppm million

theorem splits_milestone {milestones : List MilestoneRecord} {input : MilestoneBillInput}
    {d : BillingDraft} (hrate : HoldsNoLess job milestones input)
    (h : draftMilestone job milestones input = .ok d) : d.job = job ∧ Splits job.id d := by
  unfold draftMilestone at h
  obtain ⟨milestone, hmil, h⟩ := bind_eq_ok.mp h
  obtain ⟨date, -, h⟩ := bind_eq_ok.mp h
  obtain ⟨-, h⟩ := refuse_bind_eq_ok.mp h
  obtain ⟨ppm, hppm, h⟩ := bind_eq_ok.mp h
  obtain ⟨hnet, h⟩ := refuse_bind_eq_ok.mp h
  obtain rfl := ok.inj h
  have hheld := hrate milestone ppm hmil hppm
  have hpos := not_le.mp hnet
  refine ⟨rfl, rfl, rfl, fun l hl => ?_, ?_, hheld, ?_⟩
  · rw [mem_singleton.mp hl]
    exact ⟨rfl, rfl, _, rfl, get_jobOnly job⟩
  · refine (sum_singleton ..).trans ?_
    exact amountOf_text rfl
  · exact (Int.sub_pos.mp hpos).le

/-! One call. -/

section
variable {π : Type} [PeriodStore π] {ctx : BillingContext} {jobId : String}

def Fresh (ctx : BillingContext) (s : BillingStores π) : Prop :=
  ∀ id, s.books.docs.getDoc ctx.tenant .invoice id = none →
    s.books.ledger.store.getByIdempotencyKey ctx.tenant s!"invoice:{id}" = none ∧
      s.books.ledger.store.getByIdempotencyKey ctx.tenant s!"retainage:{id}" = none

omit [PeriodStore π] in
theorem invoiceKey_inj {id other : String} (h : s!"invoice:{id}" = s!"invoice:{other}") : id = other := by
  have htext := congrArg String.toList h
  simp only [String.toList_append, append_cancel_left_eq] at htext
  exact String.toList_inj.mp htext

omit [PeriodStore π] in
theorem retainageKey_inj {id other : String} (h : s!"retainage:{id}" = s!"retainage:{other}") :
    id = other := by
  have htext := congrArg String.toList h
  simp only [String.toList_append, append_cancel_left_eq] at htext
  exact String.toList_inj.mp htext

omit [PeriodStore π] in
theorem invoiceKey_ne_retainageKey (id other : String) :
    s!"invoice:{id}" ≠ s!"retainage:{other}" := by
  intro h
  have hinv : (toString "invoice:").toList.head? = some 'i' := by decide
  have hret : (toString "retainage:").toList.head? = some 'r' := by decide
  have hhead := congrArg (fun text => text.toList.head?) h
  simp only [String.toList_append, head?_append, hinv, hret] at hhead
  cases hhead

structure Billed (ctx : BillingContext) (jobId code : String) (req : CreateDocumentRequest)
    (s : BillingStores π) (r : CreateDocumentResult) (books : ArApStores π) : Prop where
  net : r.doc.netMinor = (req.lines.map amountOf).sum
  stored : books.docs.getDoc ctx.tenant .invoice req.id ≠ none
  fresh : ∀ own, Fresh ctx { s with books := books, own := own }
  free : books.ledger.store.getByIdempotencyKey ctx.tenant s!"retainage:{req.id}" = none
  lines : ∃ control total items,
    (∀ l ∈ items, ∃ a, ctx.chart.getByCode (trim code) = some a ∧ Credits a.id jobId l) ∧
    amountTotal items = (req.lines.map amountOf).sum ∧
    heldIn ctx jobId books.ledger = heldIn ctx jobId s.books.ledger +
      heldBy ctx jobId (anchorLine ⟨control, .debit⟩ total :: items) ∧
    ∀ code', creditedIn ctx code' books.ledger = creditedIn ctx code' s.books.ledger +
      creditedBy ctx code' (anchorLine ⟨control, .debit⟩ total :: items)

variable {s : BillingStores π}

theorem billed {code : String} {req : CreateDocumentRequest} (hfresh : Fresh ctx s)
    (hunt : req.taxRatePpm = none) (hlines : ∀ l ∈ req.lines, BillsJob jobId code l) :
    (∃ e, (onArAp (createDocument .invoice req ctx.arAp)).run BillingCall.exec s = (.error e, s)) ∨
      ∃ r books, (onArAp (createDocument .invoice req ctx.arAp)).run BillingCall.exec s =
        (.ok r, { s with books := books }) ∧ Billed ctx jobId code req s r books := by
  rw [run_onArAp]
  have hends := created ctx.arAp req s.books
  generalize (createDocument .invoice req ctx.arAp).run ArApCall.exec s.books = r at hends ⊢
  cases hends with
  | refused e => exact .inl ⟨_, rfl⟩
  | @answered party draft entry hnew hdraft hanswers =>
    have hinv := billsInvoice hunt hlines hdraft
    have hkey := hanswers.1
    have htenant : draft.1.tenantId = ctx.tenant := hinv.tenant
    rw [htenant, hinv.key, (hfresh req.id hnew).1] at hkey
    cases hkey
  | @appended party draft hnew hdraft happends =>
    have hinv := billsInvoice hunt hlines hdraft
    have htenant : draft.1.tenantId = ctx.tenant := hinv.tenant
    have hkeys := Ledger.getByIdempotencyKey_posted ⟨ctx.arAp.postedAt⟩ happends ctx.tenant
    have hdocs : ∀ id, (raised ctx.arAp s.books draft).docs.getDoc ctx.tenant .invoice id =
        if id = req.id then some draft.2 else s.books.docs.getDoc ctx.tenant .invoice id := by
      intro id
      refine (InMemoryDocumentStore.getDoc_saveDoc ..).trans ?_
      rw [hinv.doc.1, hinv.doc.2]
      exact if_congr ⟨fun h => h.2.2, fun h => ⟨rfl, rfl, h⟩⟩ rfl rfl
    have hret : ∀ id : String, s.books.ledger.store.getByIdempotencyKey ctx.tenant s!"retainage:{id}" =
        none → (s.books.ledger.posted draft.1 ⟨ctx.arAp.postedAt⟩).store.getByIdempotencyKey
          ctx.tenant s!"retainage:{id}" = none := by
      intro id hfree
      rw [hkeys, if_neg, hfree]
      rw [hinv.key]
      exact fun h => invoiceKey_ne_retainageKey _ _ h.2.symm
    refine .inr ⟨_, _, rfl, hinv.net, ?_, fun own id hid => ?_, ?_, ?_⟩
    · rw [hdocs, if_pos rfl]
      exact some_ne_none _
    · have hother : id ≠ req.id := by
        rintro rfl
        rw [hdocs, if_pos rfl] at hid
        cases hid
      rw [hdocs, if_neg hother] at hid
      obtain ⟨hinvoic, hretain⟩ := hfresh id hid
      refine ⟨?_, hret id hretain⟩
      refine (hkeys s!"invoice:{id}").trans ((if_neg ?_).trans hinvoic)
      rw [hinv.key]
      exact fun h => hother (invoiceKey_inj h.2)
    · exact hret req.id (hfresh req.id hnew).2
    · obtain ⟨control, total, items, hitems, hcrs, htot⟩ := hinv.lines
      refine ⟨control, total, items, hcrs, htot, ?_, fun code' => ?_⟩
      · rw [← hitems]
        exact heldIn_posted jobId ⟨ctx.arAp.postedAt⟩ htenant happends
      · rw [← hitems]
        exact creditedIn_posted code' ⟨ctx.arAp.postedAt⟩ htenant happends

structure PostSplits (ctx : BillingContext) (d : BillingDraft) (s t : BillingStores π)
    (r : PostedDraft) : Prop where
  net : r.doc.netMinor + (heldIn ctx d.job.id t.books.ledger - heldIn ctx d.job.id s.books.ledger) =
    d.grossMinor
  revenue : creditedIn ctx d.job.revenueAccountCode t.books.ledger -
    creditedIn ctx d.job.revenueAccountCode s.books.ledger = d.grossMinor
  held : heldIn ctx d.job.id t.books.ledger = heldIn ctx d.job.id s.books.ledger + d.retainageMinor
  answer : r.retainageMinor = d.retainageMinor
  within : 0 ≤ d.retainageMinor ∧ d.retainageMinor ≤ d.grossMinor

theorem post_splits {d : BillingDraft} (hfresh : Fresh ctx s) (hd : Splits d.job.id d)
    (hapart : RevenueApart d.job.revenueAccountCode) :
    Fresh ctx ((postBillingDraft ctx d).run BillingCall.exec s).2 ∧
      ((postBillingDraft ctx d).run BillingCall.exec s).2.jobs = s.jobs ∧
      match (postBillingDraft ctx d).run BillingCall.exec s with
      | (.error _, t) => heldIn ctx d.job.id t.books.ledger = heldIn ctx d.job.id s.books.ledger
      | (.ok r, t) => PostSplits ctx d s t r := by
  unfold postBillingDraft
  -- the invoice is posted first: a refusal leaves what was held
  rcases billed hfresh hd.untaxed hd.lines with ⟨e, hrun⟩ | ⟨r, books, hrun, hbil⟩
  · rw [run_bind_error hrun]
    exact ⟨hfresh, rfl, rfl⟩
  obtain ⟨control, total, items, hcrs, htot, hhel, hcred⟩ := hbil.lines
  have hnoth := heldBy_invoice control total hapart hcrs
  have hrev := (creditedBy_invoice control total hapart.1 hcrs).trans
    (htot.trans hd.net)
  rw [hnoth, Int.add_zero] at hhel
  have hcredited := hcred d.job.revenueAccountCode
  rw [hrev] at hcredited
  have hnet := hbil.net.trans hd.net
  have hwin := hd.within
  have hnn := hd.held
  rw [run_bind_ok hrun]
  -- then the retainage entry: refused, not needed, or answered
  have hends := holdsBack ctx d { s with books := books }
  rw [bind_eq, run_bind]
  generalize (postRetainage ctx d d.request.id d.request.date).run exec
    { s with books := books } = outcome at hends ⊢
  cases hends with
  | refused e => exact ⟨hbil.fresh _, rfl, hhel⟩
  | nothing hzero =>
    obtain ⟨own, happly⟩ := run_applyDraft_books ctx d d.request.id { s with books := books }
    dsimp only
    rw [bind_eq, run_bind, happly]
    have hret : d.retainageMinor = 0 := le_antisymm hzero hnn
    refine ⟨hbil.fresh own, rfl, ?_, ?_, ?_, rfl, hnn, hwin⟩
    · dsimp only
      omega
    · dsimp only
      omega
    · dsimp only
      omega
  | answered hpos haccounts hanswers =>
    have hkey := hanswers.1
    have hfree := hbil.free
    exact absurd (hfree.symm.trans hkey) (by simp)
  | @appended retainage revenue hpos haccounts happends =>
    obtain ⟨hheldBy, hcreditedBy⟩ := heldBy_retainage hapart haccounts d.request.id d.request.date
    have hheld : heldIn ctx d.job.id
        (withheld ctx d { s with books := books } retainage revenue).books.ledger =
          heldIn ctx d.job.id books.ledger + d.retainageMinor :=
      (heldIn_posted d.job.id ⟨ctx.clock.postedAt⟩ rfl happends).trans (congrArg (_ + ·) hheldBy)
    have hcr : creditedIn ctx d.job.revenueAccountCode
        (withheld ctx d { s with books := books } retainage revenue).books.ledger =
          creditedIn ctx d.job.revenueAccountCode books.ledger + d.retainageMinor :=
      (creditedIn_posted d.job.revenueAccountCode ⟨ctx.clock.postedAt⟩ rfl happends).trans
        (congrArg (_ + ·) hcreditedBy)
    have hfresh' : ∀ own, Fresh ctx
        { withheld ctx d { s with books := books } retainage revenue with own := own } := by
      intro own id hid
      obtain ⟨hinv, hret⟩ := hbil.fresh own id hid
      have hkeys := Ledger.getByIdempotencyKey_posted ⟨ctx.clock.postedAt⟩ happends ctx.tenant
      have hother : id ≠ d.request.id := by
        rintro rfl
        exact hbil.stored hid
      refine ⟨(hkeys _).trans ((if_neg fun h => ?_).trans hinv),
        (hkeys _).trans ((if_neg fun h => ?_).trans hret)⟩
      · exact invoiceKey_ne_retainageKey _ _ h.2
      · exact hother (retainageKey_inj h.2)
    obtain ⟨own, happly⟩ := run_applyDraft_books ctx d d.request.id
      (withheld ctx d { s with books := books } retainage revenue)
    dsimp only
    rw [bind_eq, run_bind, happly]
    refine ⟨hfresh' own, rfl, ?_, ?_, ?_, rfl, hnn, hwin⟩
    · dsimp only
      omega
    · dsimp only
      omega
    · dsimp only
      omega

theorem run_billMilestone (ctx : BillingContext) (jobId : String) (input : MilestoneBillInput)
    (s : BillingStores π) : (billMilestone ctx jobId input).run BillingCall.exec s =
      (do
        let job ← foundJob jobId (s.jobs.getJob ctx.tenant jobId)
        draftMilestone job (s.own.listMilestones ctx.tenant jobId) input, s) := by
  have hjob := run_requireJob ctx jobId s
  unfold billMilestone
  rcases hget : s.jobs.getJob ctx.tenant jobId with - | job <;> rw [hget] at hjob
  · rw [run_bind_error hjob]
    rfl
  · have hmils : (perform (listMilestones ctx.tenant jobId) : BillingProg
        _).run exec s = (.ok (s.own.listMilestones ctx.tenant jobId), s) := rfl
    rw [run_bind_ok hjob, run_bind_ok hmils]
    show _ = (draftMilestone job _ input, s)
    rcases draftMilestone job (s.own.listMilestones ctx.tenant jobId) input with e | d <;> rfl

omit [PeriodStore π] in
theorem foundJob_eq_ok {found : Option JobRecord} {job : JobRecord}
    (h : foundJob jobId found = .ok job) : found = some job := by
  rcases found with - | found
  · cases h
  · exact congrArg some (ok.inj h)

/-! Releasing. -/

def plannedRelease (ctx : BillingContext) (jobId : String) (input : ReleaseInput)
    (s : BillingStores π) : Except BillingFailure CreateDocumentRequest := do
  let job ← foundJob jobId (s.jobs.getJob ctx.tenant jobId)
  let date ← requireDate input.date "date"
  Fallible.refuse (trim (input.id.getD "") = "") (.own "the invoice needs an id")
  let amount ← releaseAmount (heldIn ctx jobId s.books.ledger) jobId input.amountMinor
  return invoiceRequest job (trim (input.id.getD "")) date input.dueDate input.memo
    s!"{job.name} — retainage released"
    [⟨some "Retainage released", none, .text (toString amount), retainageReceivableCode, some false,
      some (jobOnly job)⟩]

theorem run_releaseRetainageRequest (ctx : BillingContext) (jobId : String) (input : ReleaseInput)
    (s : BillingStores π) : (releaseRetainageRequest ctx jobId input).run BillingCall.exec s =
      (plannedRelease ctx jobId input s, s) := by
  have hjob := run_requireJob ctx jobId s
  unfold releaseRetainageRequest plannedRelease
  rcases hget : s.jobs.getJob ctx.tenant jobId with - | job <;> rw [hget] at hjob
  · rw [run_bind_error hjob]
    rfl
  rw [run_bind_ok hjob]
  rcases requireDate input.date "date" with e | date
  · rfl
  have hdate : (ofExcept (.ok date) : BillingProg _).run exec s = (.ok date, s) :=
    rfl
  rw [run_bind_ok hdate]
  dsimp only
  by_cases hid : trim (input.id.getD "") = ""
  · rw [refuseIf_pos hid]
    unfold Fallible.refuse
    rw [if_pos hid]
    rfl
  have hgo : (ret () : BillingProg Unit).run exec s = (.ok (), s) := rfl
  have hheld : (retainageHeld ctx jobId).run exec s =
    (.ok (heldIn ctx jobId s.books.ledger), s) := rfl
  rw [refuseIf_neg hid, run_bind_ok hgo, run_bind_ok hheld]
  unfold Fallible.refuse
  rw [if_neg hid]
  show _ = ((releaseAmount (heldIn ctx jobId s.books.ledger) jobId input.amountMinor >>=
    fun amount => _ : Except BillingFailure CreateDocumentRequest), s)
  rcases releaseAmount (heldIn ctx jobId s.books.ledger) jobId input.amountMinor with e | amount <;>
    rfl

omit [PeriodStore π] in
theorem releaseAmount_eq_ok {held amount : Int} {raw : Option TextOrNumber}
    (h : releaseAmount held jobId raw = .ok amount) : 0 < amount ∧ amount ≤ held := by
  unfold releaseAmount at h
  dsimp only at h
  split_ifs at h
  · obtain ⟨asked, -, h⟩ := bind_eq_ok.mp h
    obtain ⟨hpos, h⟩ := refuse_bind_eq_ok.mp h
    obtain ⟨hle, h⟩ := refuse_bind_eq_ok.mp h
    rw [← ok.inj h]
    exact ⟨not_le.mp hpos, not_lt.mp hle⟩
  · obtain ⟨asked, -, h⟩ := bind_eq_ok.mp h
    obtain ⟨hpos, h⟩ := refuse_bind_eq_ok.mp h
    obtain ⟨hle, h⟩ := refuse_bind_eq_ok.mp h
    rw [← ok.inj h]
    exact ⟨not_le.mp hpos, not_lt.mp hle⟩

omit [PeriodStore π] in
theorem plannedRelease_eq_ok {input : ReleaseInput} {req : CreateDocumentRequest}
    (h : plannedRelease ctx jobId input s = .ok req) :
    req.taxRatePpm = none ∧ (∀ l ∈ req.lines, BillsJob jobId retainageReceivableCode l) ∧
      0 < (req.lines.map amountOf).sum ∧
      (req.lines.map amountOf).sum ≤ heldIn ctx jobId s.books.ledger := by
  unfold plannedRelease at h
  obtain ⟨job, hjob, h⟩ := bind_eq_ok.mp h
  obtain ⟨date, -, h⟩ := bind_eq_ok.mp h
  obtain ⟨-, h⟩ := refuse_bind_eq_ok.mp h
  obtain ⟨amount, hamt, h⟩ := bind_eq_ok.mp h
  have hid : job.id = jobId := s.jobs.id_of_get (foundJob_eq_ok hjob)
  obtain ⟨hpos, hle⟩ := releaseAmount_eq_ok hamt
  obtain rfl := ok.inj h
  have hsum : ([⟨some "Retainage released", none, .text (toString amount), retainageReceivableCode,
      some false, some (jobOnly job)⟩].map amountOf).sum = amount :=
    (sum_singleton ..).trans (amountOf_text rfl)
  refine ⟨rfl, fun l hl => ?_, ?_, ?_⟩
  · rw [mem_singleton.mp hl]
    exact ⟨rfl, rfl, _, rfl, hid ▸ get_jobOnly job⟩
  · exact lt_of_lt_of_eq hpos hsum.symm
  · exact le_of_eq_of_le hsum hle

variable (jobId) in
theorem release_held (hfresh : Fresh ctx s) (input : ReleaseInput) :
    Fresh ctx ((releaseRetainage ctx jobId input).run BillingCall.exec s).2 ∧
      ((releaseRetainage ctx jobId input).run BillingCall.exec s).2.jobs = s.jobs ∧
      match (releaseRetainage ctx jobId input).run BillingCall.exec s with
      | (.error _, t) => heldIn ctx jobId t.books.ledger = heldIn ctx jobId s.books.ledger
      | (.ok r, t) => heldIn ctx jobId t.books.ledger =
          heldIn ctx jobId s.books.ledger - r.doc.netMinor ∧ 0 ≤ heldIn ctx jobId t.books.ledger := by
  have hplan := run_releaseRetainageRequest ctx jobId input s
  unfold releaseRetainage
  rcases hreq : plannedRelease ctx jobId input s with e | req <;> rw [hreq] at hplan
  · rw [run_bind_error hplan]
    exact ⟨hfresh, rfl, rfl⟩
  obtain ⟨hunt, hlines, hpos, hle⟩ := plannedRelease_eq_ok hreq
  rw [run_bind_ok hplan]
  rcases billed hfresh hunt hlines with ⟨e, hrun⟩ | ⟨r, books, hrun, hbil⟩
  · rw [hrun]
    exact ⟨hfresh, rfl, rfl⟩
  obtain ⟨control, total, items, hcrs, htot, hhel, -⟩ := hbil.lines
  have hreleas := heldBy_release control total hcrs
  have hnet := hbil.net
  rw [hreleas] at hhel
  rw [hrun]
  refine ⟨hbil.fresh _, rfl, ?_, ?_⟩
  · dsimp only
    omega
  · dsimp only
    omega

end

/-! Runs. -/

structure RetainedJob (π : Type) where
  stores : BillingStores π
  drafts : List BillingDraft
  held : Int
  released : Int

/-- When a request is served. -/
structure Moment where
  clock : Clock
  invoicedAt : String

def BillingContext.at_ (ctx : BillingContext) (moment : Moment) : BillingContext :=
  { ctx with clock := moment.clock, invoicedAt := moment.invoicedAt }

inductive RetainageOp where
  | progress (input : ProgressBillInput)
  | milestone (input : MilestoneBillInput)
  | post (moment : Moment) (n : Nat)
  | release (moment : Moment) (input : ReleaseInput)

namespace RetainedJob
variable {π : Type} [PeriodStore π] (ctx : BillingContext) (jobId : String)

def step (s : RetainedJob π) : RetainageOp → RetainedJob π
  | .progress input => match (billProgress ctx jobId input).run BillingCall.exec s.stores with
    | (.ok d, stores) => { s with stores := stores, drafts := s.drafts ++ [d] }
    | (.error _, stores) => { s with stores := stores }
  | .milestone input => match (billMilestone ctx jobId input).run BillingCall.exec s.stores with
    | (.ok d, stores) => { s with stores := stores, drafts := s.drafts ++ [d] }
    | (.error _, stores) => { s with stores := stores }
  | .post moment n => match s.drafts[n]? with
    | none => s
    | some d => match (postBillingDraft (ctx.at_ moment) d).run BillingCall.exec s.stores with
      | (.ok r, stores) => { s with stores := stores, held := s.held + r.retainageMinor }
      | (.error _, stores) => { s with stores := stores }
  | .release moment input =>
    match (releaseRetainage (ctx.at_ moment) jobId input).run BillingCall.exec s.stores with
    | (.ok r, stores) => { s with stores := stores, released := s.released + r.doc.netMinor }
    | (.error _, stores) => { s with stores := stores }

/-- Nothing has been invoiced or held; the jobs, their schedules and milestones are any. -/
def opening (periods : π) (parties : OrderedMap (TenantId × PartyKind × String) PartyRecord)
    (jobs : JobStore) (own : BillingStore) : RetainedJob π :=
  ⟨⟨⟨⟨.empty, periods⟩, .ofParties parties⟩, jobs, own⟩, [], 0, 0⟩

omit [PeriodStore π] in
def HeldRight (s : RetainedJob π) : Prop :=
  heldIn ctx jobId s.stores.books.ledger = s.held - s.released ∧
    0 ≤ heldIn ctx jobId s.stores.books.ledger

def SplitsExactly (s : RetainedJob π) : RetainageOp → Prop
  | .post moment n => ∀ d ∈ s.drafts[n]?, ∀ r t,
      (postBillingDraft (ctx.at_ moment) d).run BillingCall.exec s.stores = (.ok r, t) →
        PostSplits ctx d s.stores t r
  | _ => True

def Steady (s : RetainedJob π) : RetainageOp → Prop
  | .progress _ => ∀ job ∈ s.stores.jobs.getJob ctx.tenant jobId, RevenueApart job.revenueAccountCode
  | .milestone input => ∀ job ∈ s.stores.jobs.getJob ctx.tenant jobId,
      RevenueApart job.revenueAccountCode ∧
        HoldsNoLess job (s.stores.own.listMilestones ctx.tenant jobId) input
  | .post _ _ => True
  | .release _ _ => True

structure Kept (s : RetainedJob π) : Prop where
  fresh : Fresh ctx s.stores
  drafts : ∀ d ∈ s.drafts, Splits jobId d ∧ RevenueApart d.job.revenueAccountCode

variable {ctx jobId}

variable {s : RetainedJob π}

omit [PeriodStore π] in
theorem Kept.push (hkept : s.Kept ctx jobId) {d : BillingDraft}
    (hd : Splits jobId d ∧ RevenueApart d.job.revenueAccountCode) :
    ({ s with drafts := s.drafts ++ [d] } : RetainedJob π).Kept ctx jobId := by
  refine ⟨hkept.fresh, fun d' hd' => ?_⟩
  rcases mem_append.mp hd' with hd' | hd'
  · exact hkept.drafts d' hd'
  · rw [mem_singleton.mp hd']
    exact hd

theorem step_post (hkept : s.Kept ctx jobId) (hright : s.HeldRight ctx jobId) (moment : Moment)
    (n : Nat) : (s.step ctx jobId (.post moment n)).Kept ctx jobId ∧
      (s.step ctx jobId (.post moment n)).HeldRight ctx jobId ∧
      s.SplitsExactly ctx (.post moment n) := by
  have hstep : s.step ctx jobId (.post moment n) = match s.drafts[n]? with
      | none => s
      | some d => match (postBillingDraft (ctx.at_ moment) d).run exec s.stores with
        | (.ok r, stores) => { s with stores := stores, held := s.held + r.retainageMinor }
        | (.error _, stores) => { s with stores := stores } := rfl
  unfold SplitsExactly
  rcases hd : s.drafts[n]? with - | d
  · rw [hd] at hstep
    rw [hstep]
    refine ⟨hkept, hright, fun d' hd' => ?_⟩
    cases hd.symm.trans hd'
  obtain ⟨hspl, hapart⟩ := hkept.drafts d (mem_of_getElem? hd)
  have hjob := hspl.job
  obtain ⟨hheld, hnn⟩ := hright
  rw [← hjob] at hspl hheld hnn
  have hfresh : Fresh (ctx.at_ moment) s.stores := hkept.fresh
  have hpost := post_splits hfresh hspl hapart
  rw [hd] at hstep
  dsimp only at hstep
  rcases hrun : (postBillingDraft (ctx.at_ moment) d).run exec s.stores with ⟨e | r, t⟩ <;>
    rw [hrun] at hpost hstep
  · obtain ⟨hfresh, -, hsame⟩ := hpost
    have hsame' : heldIn ctx d.job.id t.books.ledger = heldIn ctx d.job.id s.stores.books.ledger :=
      hsame
    rw [hstep]
    refine ⟨⟨hfresh, hkept.drafts⟩, ?_, ?_⟩
    · rw [← hjob]
      exact ⟨hsame'.trans hheld, hsame'.symm ▸ hnn⟩
    · intro d' hd' r' t' hrun'
      obtain rfl := some.inj (hd.symm.trans hd')
      rw [hrun] at hrun'
      cases hrun'
  · obtain ⟨hfresh, -, hposted⟩ := hpost
    have hmov : heldIn ctx d.job.id t.books.ledger =
      heldIn ctx d.job.id s.stores.books.ledger + d.retainageMinor := hposted.held
    have hret := hposted.answer
    have hback := hspl.held
    rw [hstep]
    refine ⟨⟨hfresh, hkept.drafts⟩, ?_, ?_⟩
    · rw [← hjob]
      refine ⟨?_, ?_⟩
      · dsimp only
        omega
      · dsimp only
        omega
    · intro d' hd' r' t' hrun'
      obtain rfl := some.inj (hd.symm.trans hd')
      rw [hrun] at hrun'
      obtain ⟨hr, rfl⟩ := Prod.mk.inj hrun'
      obtain rfl := ok.inj hr
      exact ⟨hposted.net, hposted.revenue, hposted.held, hposted.answer, hposted.within⟩

theorem step_release (hkept : s.Kept ctx jobId) (hright : s.HeldRight ctx jobId) (moment : Moment)
    (input : ReleaseInput) : (s.step ctx jobId (.release moment input)).Kept ctx jobId ∧
      (s.step ctx jobId (.release moment input)).HeldRight ctx jobId := by
  have hstep : s.step ctx jobId (.release moment input) =
      match (releaseRetainage (ctx.at_ moment) jobId input).run exec s.stores with
      | (.ok r, stores) => { s with stores := stores, released := s.released + r.doc.netMinor }
      | (.error _, stores) => { s with stores := stores } := rfl
  obtain ⟨hheld, hnn⟩ := hright
  have hfresh : Fresh (ctx.at_ moment) s.stores := hkept.fresh
  have hrel := release_held jobId hfresh input
  rcases hrun : (releaseRetainage (ctx.at_ moment) jobId input).run exec s.stores with
    ⟨e | r, t⟩ <;> rw [hrun] at hrel hstep
  · obtain ⟨hfresh, -, hsame⟩ := hrel
    have hsame' : heldIn ctx jobId t.books.ledger = heldIn ctx jobId s.stores.books.ledger := hsame
    rw [hstep]
    exact ⟨⟨hfresh, hkept.drafts⟩, hsame'.trans hheld, hsame'.symm ▸ hnn⟩
  · obtain ⟨hfresh, -, hmov, hleft⟩ := hrel
    have hmov' : heldIn ctx jobId t.books.ledger =
      heldIn ctx jobId s.stores.books.ledger - r.doc.netMinor := hmov
    rw [hstep]
    refine ⟨⟨hfresh, hkept.drafts⟩, ?_, hleft⟩
    dsimp only
    omega

theorem step_keeps (hkept : s.Kept ctx jobId) (hright : s.HeldRight ctx jobId) (op : RetainageOp)
    (hop : s.Steady ctx jobId op) : (s.step ctx jobId op).Kept ctx jobId ∧
      (s.step ctx jobId op).HeldRight ctx jobId ∧ s.SplitsExactly ctx op := by
  cases op with
  | progress input =>
    have hstep : s.step ctx jobId (.progress input) =
        match (billProgress ctx jobId input).run exec s.stores with
        | (.ok d, stores) => { s with stores := stores, drafts := s.drafts ++ [d] }
        | (.error _, stores) => { s with stores := stores } := rfl
    rw [run_billProgress] at hstep
    rcases hdraft : (do
      let job ← foundJob jobId (s.stores.jobs.getJob ctx.tenant jobId)
      draftProgress job jobId (s.stores.own.listSchedule ctx.tenant jobId) input) with e | d <;>
      rw [hdraft] at hstep <;> rw [hstep]
    · exact ⟨hkept, hright, trivial⟩
    · obtain ⟨job, hjob, hdrawn⟩ := bind_eq_ok.mp hdraft
      have hfound := foundJob_eq_ok hjob
      obtain ⟨rfl, hspl⟩ := splits_progress hdrawn
      rw [s.stores.jobs.id_of_get hfound] at hspl
      exact ⟨hkept.push ⟨hspl, hop d.job hfound⟩, hright, trivial⟩
  | milestone input =>
    have hstep : s.step ctx jobId (.milestone input) =
        match (billMilestone ctx jobId input).run exec s.stores with
        | (.ok d, stores) => { s with stores := stores, drafts := s.drafts ++ [d] }
        | (.error _, stores) => { s with stores := stores } := rfl
    rw [run_billMilestone] at hstep
    rcases hdraft : (do
      let job ← foundJob jobId (s.stores.jobs.getJob ctx.tenant jobId)
      draftMilestone job (s.stores.own.listMilestones ctx.tenant jobId) input) with e | d <;>
      rw [hdraft] at hstep <;> rw [hstep]
    · exact ⟨hkept, hright, trivial⟩
    · obtain ⟨job, hjob, hdrawn⟩ := bind_eq_ok.mp hdraft
      have hfound := foundJob_eq_ok hjob
      obtain ⟨hapart, hrate⟩ := hop job hfound
      obtain ⟨rfl, hspl⟩ := splits_milestone hrate hdrawn
      rw [s.stores.jobs.id_of_get hfound] at hspl
      exact ⟨hkept.push ⟨hspl, hapart⟩, hright, trivial⟩
  | post moment n => exact step_post hkept hright moment n
  | release moment input =>
    obtain ⟨hkept', hrig'⟩ := step_release hkept hright moment input
    exact ⟨hkept', hrig', trivial⟩

end RetainedJob

open RetainedJob in
/-- In a run of such bills every posted draft splits its gross amount, and what is held on the job is
what has been held less what has been released. -/
theorem retainage_splits {π : Type} [PeriodStore π] (ctx : BillingContext) (jobId : String)
    (periods : π) (parties : OrderedMap (TenantId × PartyKind × String) PartyRecord)
    (jobs : JobStore) (own : BillingStore) (ops : List RetainageOp)
    (h : EachStep (step ctx jobId) (Steady ctx jobId) (opening periods parties jobs own) ops) :
    Along (step ctx jobId) (HeldRight ctx jobId) (opening periods parties jobs own) ops ∧
      EachStep (step ctx jobId) (SplitsExactly ctx) (opening periods parties jobs own) ops := by
  have hkept : (opening periods parties jobs own).Kept ctx jobId := by
    refine ⟨fun id _ => ⟨?_, ?_⟩, fun d hd => absurd hd not_mem_nil⟩
    · exact InMemoryLedgerStore.getByIdempotencyKey_eq_none.mpr fun e he => absurd he not_mem_nil
    · exact InMemoryLedgerStore.getByIdempotencyKey_eq_none.mpr fun e he => absurd he not_mem_nil
  have hright : (opening periods parties jobs own).HeldRight ctx jobId := by
    have hzero : heldIn ctx jobId (opening periods parties jobs own).stores.books.ledger = 0 :=
      heldIn_eq.trans rfl
    exact ⟨hzero, hzero.ge⟩
  have hgood : ∀ (s : RetainedJob π) op, (s.Kept ctx jobId ∧ s.HeldRight ctx jobId) → s.Steady ctx jobId op →
      (s.step ctx jobId op).Kept ctx jobId ∧ (s.step ctx jobId op).HeldRight ctx jobId :=
    fun s op hs hop => ⟨(step_keeps hs.1 hs.2 op hop).1, (step_keeps hs.1 hs.2 op hop).2.1⟩
  have halong := along_of_eachStep (G := fun s => s.Kept ctx jobId ∧ s.HeldRight ctx jobId) hgood
    ⟨hkept, hright⟩ h
  refine ⟨along_imp (fun s hs => hs.2) halong, fun pre op hpre => ?_⟩
  obtain ⟨hkep, hrig⟩ := halong pre ((prefix_append pre [op]).trans hpre)
  exact (step_keeps hkep hrig op (h pre op hpre)).2.2

/-! A deposit of 100 on the kitchen, of which a tenth is held back, or a tenth less than nothing. -/

namespace Sample

def deposit : MilestoneRecord := ⟨"kitchen-M1", "kitchen", "Deposit", 100, "", .pending, ""⟩

def retained : RetainedJob (InMemoryPeriodStore TenantId PeriodKey) :=
  .opening .empty (OrderedMap.empty.set ("acme", .customer, "smith") ⟨"smith", "Smith", none⟩)
    (JobStore.empty.saveJob "acme" kitchen) (BillingStore.empty.saveMilestone "acme" deposit)

def moment : Moment := ⟨context.clock, context.invoicedAt⟩

def depositBill (ppm : Rat) : MilestoneBillInput where
  id := some "inv-1"
  milestoneId := some "kitchen-M1"
  date := some "2026-03-09"
  dueDate := none
  memo := none
  retainagePpm := some (some ppm)

def releaseAll : ReleaseInput := ⟨some "inv-2", some "2026-04-09", none, none, none⟩

def depositOps (ppm : Rat) : List RetainageOp :=
  [.milestone (depositBill ppm), .post moment 0, .release moment releaseAll]

end Sample

open Sample RetainedJob in
theorem tenth_is_held_and_released :
    Along (step context "kitchen") (HeldRight context "kitchen") retained (depositOps 100000) ∧
      EachStep (step context "kitchen") (SplitsExactly context) retained (depositOps 100000) := by
  refine retainage_splits context "kitchen" _ _ _ _ _ ?_
  refine eachStep_cons.mpr ⟨fun job hjob => ?_, ?_⟩
  · have hkit : retained.stores.jobs.getJob "acme" "kitchen" = some kitchen := by decide +kernel
    obtain rfl := some.inj (hkit.symm.trans hjob)
    refine ⟨⟨by decide, by decide⟩, fun milestone ppm hmil hppm => ?_⟩
    have hpend : pendingMilestone (retained.stores.own.listMilestones "acme" "kitchen")
        (trim "kitchen-M1") = .ok deposit := by decide +kernel
    have hrate : milestoneRate (some (some 100000)) kitchen = .ok 100000 := by decide +kernel
    obtain rfl := ok.inj (hpend.symm.trans hmil)
    obtain rfl := ok.inj (hrate.symm.trans hppm)
    decide
  · exact eachStep_cons.mpr ⟨trivial, eachStep_cons.mpr ⟨trivial, eachStep_nil⟩⟩

open Sample RetainedJob in
theorem negative_rate_overbills : ¬ EachStep (step context "kitchen") (SplitsExactly context) retained
    (depositOps (-100000)) := by
  intro hsteps
  have hdraft : ((step context "kitchen" retained (.milestone (depositBill (-100000)))).drafts[0]?).map
      (fun d => (d.grossMinor, d.retainageMinor, (d.request.lines.map amountOf).sum)) =
        some (100, -10, 110) := by decide +kernel
  have hrets : ((step context "kitchen" retained (.milestone (depositBill (-100000)))).drafts[0]?.map
      fun d => ((postBillingDraft (context.at_ moment) d).run exec
        (step context "kitchen" retained (.milestone (depositBill (-100000)))).stores).1.isOk) =
          some true := by decide +kernel
  rcases hd : (step context "kitchen" retained (.milestone (depositBill (-100000)))).drafts[0]? with
    - | d
  · rw [hd] at hdraft
    cases hdraft
  rw [hd] at hdraft hrets
  unfold depositOps at hsteps
  have hpost := (eachStep_cons.mp (eachStep_cons.mp hsteps).2).1
  rcases hrun : (postBillingDraft (context.at_ moment) d).run exec
    (step context "kitchen" retained (.milestone (depositBill (-100000)))).stores with ⟨e | r, t⟩
  · rw [map_some, hrun] at hrets
    cases hrets
  · have hsplit := hpost d hd r t hrun
    rw [map_some, some_inj, Prod.mk.injEq, Prod.mk.injEq] at hdraft
    obtain ⟨-, hheld, -⟩ := hdraft
    have hnn := hsplit.within.1
    rw [hheld] at hnn
    exact absurd hnn (by decide)

end Rgnr8.Service.Billing
