import Rgnr8.Service.RetainageSplit

/-! How raising a billing invoice and holding back its retainage end, and what they leave on the
accounts. -/

namespace Rgnr8.Service.Billing
open Lib Lib.Js Fallible Kernel ArAp Subledger Prog ArApCall Option List

section
variable {π : Type} [PeriodStore π]

theorem run_onLedger {α : Type} (p : LedgerProg α) (s : BillingStores π) :
    (onLedger p).run BillingCall.exec s =
      ((p.run LedgerCall.exec s.books.ledger).1.mapError .ledger,
        { s with books := { s.books with ledger := (p.run LedgerCall.exec s.books.ledger).2 } }) :=
  run_interpret (fun s : BillingStores π => s.books.ledger)
    (fun ledger s => { s with books := { s.books with ledger := ledger } })
    (fun _ _ => rfl) (fun _ _ _ => rfl) (fun _ => rfl) (fun _ _ => rfl) p s

theorem run_onArAp {α : Type} (p : ArApProg α) (s : BillingStores π) :
    (onArAp p).run BillingCall.exec s =
      ((p.run ArApCall.exec s.books).1.mapError .arAp,
        { s with books := (p.run ArApCall.exec s.books).2 }) :=
  run_interpret (fun s : BillingStores π => s.books) (fun books s => { s with books := books })
    (fun _ _ => rfl) (fun _ _ _ => rfl) (fun _ => rfl) (fun _ _ => rfl) p s

/-! The invoice. -/

def raised (ctx : ArApContext) (s : ArApStores π) (draft : PostCommand × DocRecord) : ArApStores π :=
  ⟨s.ledger.posted draft.1 ⟨ctx.postedAt⟩, s.docs.saveDoc ctx.tenant draft.2⟩

inductive Created (ctx : ArApContext) (req : CreateDocumentRequest) (s : ArApStores π) :
    Except ArApFailure CreateDocumentResult × ArApStores π → Prop where
  | refused (e : ArApFailure) : Created ctx req s (.error e, s)
  | answered {party : PartyRecord} {draft : PostCommand × DocRecord} {entry : PostedEntry}
      (hnew : s.docs.getDoc ctx.tenant .invoice req.id = none)
      (hdraft : draftDocument .invoice req ctx party = .ok draft)
      (hanswers : s.ledger.Answers draft.1 entry) :
      Created ctx req s (.ok ⟨draft.2, entry.id⟩,
        { s with docs := s.docs.saveDoc ctx.tenant draft.2 })
  | appended {party : PartyRecord} {draft : PostCommand × DocRecord}
      (hnew : s.docs.getDoc ctx.tenant .invoice req.id = none)
      (hdraft : draftDocument .invoice req ctx party = .ok draft)
      (happends : s.ledger.Appends ctx.chart draft.1) :
      Created ctx req s (.ok ⟨draft.2, (s.ledger.entryOf draft.1 ⟨ctx.postedAt⟩).id⟩,
        raised ctx s draft)

theorem created (ctx : ArApContext) (req : CreateDocumentRequest) (s : ArApStores π) :
    Created ctx req s ((createDocument .invoice req ctx).run ArApCall.exec s) := by
  unfold createDocument
  rcases validateDoc req with e | u
  · exact .refused e
  have hvalid : (ofExcept (.ok u) : ArApProg Unit).run exec s = (.ok u, s) := rfl
  have hread : (perform (getDoc ctx.tenant .invoice req.id) : ArApProg _).run
    exec s = (.ok (s.docs.getDoc ctx.tenant .invoice req.id), s) := rfl
  rw [run_bind_ok hvalid, run_bind_ok hread]
  by_cases hnew : s.docs.getDoc ctx.tenant .invoice req.id ≠ none
  · rw [refuseIf_pos hnew]
    exact .refused _
  have hgo : (ret () : ArApProg Unit).run exec s = (.ok (), s) := rfl
  have hparty : (perform (getParty ctx.tenant (partyKindOf .invoice) req.partyId) :
    ArApProg _).run exec s =
      (.ok (s.docs.getParty ctx.tenant (partyKindOf .invoice) req.partyId), s) := rfl
  rw [refuseIf_neg hnew, run_bind_ok hgo, run_bind_ok hparty]
  rcases found (s.docs.getParty ctx.tenant (partyKindOf .invoice) req.partyId) _ with e | party
  · exact .refused e
  have hfound : (ofExcept (.ok party) : ArApProg _).run exec s = (.ok party, s) := rfl
  rw [run_bind_ok hfound]
  rcases hdraft : draftDocument .invoice req ctx party with e | draft
  · exact .refused e
  have hdrawn : (ofExcept (.ok draft) : ArApProg _).run exec s = (.ok draft, s) := rfl
  rw [run_bind_ok hdrawn]
  dsimp only
  rw [bind_eq, run_bind, run_post]
  rcases validated ctx draft.1 with e | u
  · exact .refused e
  have hends := PostingEngine.postEnds ctx.chart draft.1 ⟨ctx.postedAt⟩ s.ledger
  dsimp only
  generalize (PostingEngine.post ctx.chart draft.1 ⟨ctx.postedAt⟩).run LedgerCall.exec s.ledger = r
    at hends ⊢
  cases hends with
  | answered h => exact .answered (not_not.mp hnew) hdraft h
  | refused err _ _ => exact .refused _
  | appended h => exact .appended (not_not.mp hnew) hdraft h

/-! What is held back. -/

/-- The stores with the entry beside the invoice appended. -/
def withheld (ctx : BillingContext) (d : BillingDraft) (s : BillingStores π)
    (retainage revenue : AccountId) : BillingStores π :=
  let command := retainageCommand ctx d d.request.id d.request.date retainage revenue
  { s with books := { s.books with ledger := s.books.ledger.posted command ⟨ctx.clock.postedAt⟩ } }

inductive HoldsBack (ctx : BillingContext) (d : BillingDraft) (s : BillingStores π) :
    Except BillingFailure EntryId × BillingStores π → Prop where
  | refused (e : BillingFailure) : HoldsBack ctx d s (.error e, s)
  | nothing (h : d.retainageMinor ≤ 0) : HoldsBack ctx d s (.ok "", s)
  | answered {retainage revenue : AccountId} {entry : PostedEntry} (hpos : 0 < d.retainageMinor)
      (haccounts : retainageAccounts ctx d = .ok (retainage, revenue))
      (hanswers : s.books.ledger.Answers
        (retainageCommand ctx d d.request.id d.request.date retainage revenue) entry) :
      HoldsBack ctx d s (.ok entry.id, s)
  | appended {retainage revenue : AccountId} (hpos : 0 < d.retainageMinor)
      (haccounts : retainageAccounts ctx d = .ok (retainage, revenue))
      (happends : s.books.ledger.Appends ctx.chart
        (retainageCommand ctx d d.request.id d.request.date retainage revenue)) :
      HoldsBack ctx d s (.ok (s.books.ledger.entryOf
          (retainageCommand ctx d d.request.id d.request.date retainage revenue)
          ⟨ctx.clock.postedAt⟩).id, withheld ctx d s retainage revenue)

theorem holdsBack (ctx : BillingContext) (d : BillingDraft) (s : BillingStores π) :
    HoldsBack ctx d s ((postRetainage ctx d d.request.id d.request.date).run BillingCall.exec s) := by
  unfold postRetainage
  by_cases hpos : d.retainageMinor ≤ 0
  · rw [if_pos hpos]
    exact .nothing hpos
  rw [if_neg hpos]
  rcases haccounts : retainageAccounts ctx d with e | ⟨retainage, revenue⟩
  · exact .refused e
  have hfound : (ofExcept (.ok (retainage, revenue)) : BillingProg _).run BillingCall.exec s =
    (.ok (retainage, revenue), s) := rfl
  rw [run_bind_ok hfound]
  dsimp only
  rcases (validateDimensions ctx.dimensions
    (retainageCommand ctx d d.request.id d.request.date retainage revenue)).mapError
      BillingFailure.dimension with e | u
  · exact .refused e
  have hvalid : (ofExcept (.ok u) : BillingProg _).run BillingCall.exec s = (.ok u, s) := rfl
  rw [run_bind_ok hvalid, bind_eq, run_bind, run_onLedger]
  have hends := PostingEngine.postEnds ctx.chart
    (retainageCommand ctx d d.request.id d.request.date retainage revenue) ⟨ctx.clock.postedAt⟩
    s.books.ledger
  generalize (PostingEngine.post ctx.chart
    (retainageCommand ctx d d.request.id d.request.date retainage revenue)
    ⟨ctx.clock.postedAt⟩).run LedgerCall.exec s.books.ledger = r at hends ⊢
  cases hends with
  | answered h => exact .answered (not_le.mp hpos) haccounts h
  | refused err _ _ => exact .refused _
  | appended h => exact .appended (not_le.mp hpos) haccounts h

theorem run_applyDraft_books (ctx : BillingContext) (d : BillingDraft) (invoiceId : String)
    (s : BillingStores π) : ∃ own, (applyDraft ctx d invoiceId).run BillingCall.exec s =
      (.ok (), { s with own := own }) := by
  have hsave : ∃ own, (applySchedule ctx d).run BillingCall.exec s =
      (.ok (), { s with own := own }) := by
    unfold applySchedule
    rcases d.scheduleLines with - | lines
    · exact ⟨_, rfl⟩
    · exact ⟨_, rfl⟩
  obtain ⟨own, hown⟩ := hsave
  unfold applyDraft
  rw [run_bind_ok hown]
  unfold applyMilestone
  rcases d.milestoneId with - | id
  · exact ⟨_, rfl⟩
  · have hlist : (perform (BillingCall.listMilestones ctx.tenant d.job.id) : BillingProg _).run
        BillingCall.exec { s with own := own } =
      (.ok (own.listMilestones ctx.tenant d.job.id), { s with own := own }) := rfl
    dsimp only
    rw [run_bind_ok hlist]
    split
    · exact ⟨_, rfl⟩
    · exact ⟨_, rfl⟩

/-! What the entries leave on the accounts. -/

def heldBy (ctx : BillingContext) (jobId : String) (lines : List PostedLine) : Int :=
  ((ctx.chart.getByCode retainageReceivableCode).map fun a => onJob a.id jobId lines).getD 0

def creditedBy (ctx : BillingContext) (code : String) (lines : List PostedLine) : Int :=
  ((ctx.chart.getByCode code).map fun a => creditOn a.id lines).getD 0

/-- What `retainageHeld` answers. -/
def heldIn (ctx : BillingContext) (jobId : String) (ledger : Ledger π) : Int :=
  jobAccountBalance ctx.chart (ledger.journal ctx.tenant) jobId retainageReceivableCode

def creditedIn (ctx : BillingContext) (code : String) (ledger : Ledger π) : Int :=
  ((ledger.journal ctx.tenant).map fun e => creditedBy ctx code e.lines).sum

variable {ctx : BillingContext} {jobId code : String} {ledger : Ledger π} {command : PostCommand}

omit [PeriodStore π] in
theorem heldIn_eq : heldIn ctx jobId ledger =
    ((ledger.journal ctx.tenant).map fun e => heldBy ctx jobId e.lines).sum := by
  unfold heldIn heldBy jobAccountBalance
  rcases ctx.chart.getByCode retainageReceivableCode with - | a
  · exact (sum_eq_zero fun n hn => by
      obtain ⟨e, -, rfl⟩ := mem_map.mp hn
      rfl).symm
  · rfl

variable (jobId) in
theorem heldIn_posted (opts : PostOptions) (htenant : command.tenantId = ctx.tenant)
    (h : ledger.Appends ctx.chart command) : heldIn ctx jobId (ledger.posted command opts) =
      heldIn ctx jobId ledger + heldBy ctx jobId command.lines := by
  rw [heldIn_eq, heldIn_eq, Ledger.journal_posted opts h, if_pos htenant.symm, map_append,
    sum_append, map_singleton, sum_singleton]
  rfl

variable (code) in
theorem creditedIn_posted (opts : PostOptions) (htenant : command.tenantId = ctx.tenant)
    (h : ledger.Appends ctx.chart command) : creditedIn ctx code (ledger.posted command opts) =
      creditedIn ctx code ledger + creditedBy ctx code command.lines := by
  unfold creditedIn
  rw [Ledger.journal_posted opts h, if_pos htenant.symm, map_append, sum_append,
    map_singleton, sum_singleton]
  rfl

end

section
variable {ctx : BillingContext} {jobId code : String}

/-- The job's revenue has an account of its own, under a code as `saveJob` stores it. -/
def RevenueApart (code : String) : Prop := trim code = code ∧ code ≠ retainageReceivableCode

theorem id_ne_of_apart (h : RevenueApart code) {a b : Account}
    (ha : ctx.chart.getByCode code = some a)
    (hb : ctx.chart.getByCode retainageReceivableCode = some b) : a.id ≠ b.id :=
  fun hid => h.2 ((ChartOfAccounts.id_eq_of_getByCode ha hb).mp hid)

variable {items : List PostedLine} (control : AccountId) (total : Money)

theorem onJob_anchor (account : AccountId) (items : List PostedLine) :
    onJob account jobId (anchorLine ⟨control, .debit⟩ total :: items) = onJob account jobId items := by
  refine onJob_cons_off (fun hon => ?_) items
  have hnone : (OrderedMap.empty : Dimensions).get? jobDimension = some jobId := hon.2
  rw [OrderedMap.get?_empty] at hnone
  cases hnone

theorem creditOn_anchor (account : AccountId) (items : List PostedLine) :
    creditOn account (anchorLine ⟨control, .debit⟩ total :: items) = creditOn account items :=
  creditOn_cons_off (fun hon => by cases hon.1) items

theorem credits_or_nil {account : String} (htrim : trim account = code) (hitems : ∀ l ∈ items,
    ∃ a, ctx.chart.getByCode (trim account) = some a ∧ Credits a.id jobId l) :
    (∃ a, ctx.chart.getByCode code = some a ∧ ∀ l ∈ items, Credits a.id jobId l) ∨
      (ctx.chart.getByCode code = none ∧ items = []) := by
  rw [htrim] at hitems
  rcases hcode : ctx.chart.getByCode code with - | a
  · refine .inr ⟨rfl, eq_nil_iff_forall_not_mem.mpr fun l hl => ?_⟩
    obtain ⟨a, ha, -⟩ := hitems l hl
    rw [hcode] at ha
    cases ha
  · refine .inl ⟨a, rfl, fun l hl => ?_⟩
    obtain ⟨a', ha', hcrs⟩ := hitems l hl
    rw [some.inj (hcode.symm.trans ha')]
    exact hcrs

theorem heldBy_invoice (hapart : RevenueApart code) (hitems : ∀ l ∈ items,
    ∃ a, ctx.chart.getByCode (trim code) = some a ∧ Credits a.id jobId l) :
    heldBy ctx jobId (anchorLine ⟨control, .debit⟩ total :: items) = 0 := by
  unfold heldBy
  rcases hheld : ctx.chart.getByCode retainageReceivableCode with - | b
  · rfl
  rw [map_some, getD_some, onJob_anchor]
  obtain ⟨a, hrev, hcrs⟩ | ⟨-, rfl⟩ := credits_or_nil hapart.1 hitems
  · exact onJob_credits_off (id_ne_of_apart hapart hrev hheld) hcrs
  · rfl

theorem creditedBy_invoice (htrim : trim code = code) (hitems : ∀ l ∈ items,
    ∃ a, ctx.chart.getByCode (trim code) = some a ∧ Credits a.id jobId l) :
    creditedBy ctx code (anchorLine ⟨control, .debit⟩ total :: items) = amountTotal items := by
  unfold creditedBy
  obtain ⟨a, hrev, hcrs⟩ | ⟨hnone, rfl⟩ := credits_or_nil htrim hitems
  · rw [hrev, map_some, getD_some, creditOn_anchor]
    exact creditOn_credits hcrs
  · rw [hnone]
    rfl

theorem heldBy_release (hitems : ∀ l ∈ items,
    ∃ a, ctx.chart.getByCode (trim retainageReceivableCode) = some a ∧ Credits a.id jobId l) :
    heldBy ctx jobId (anchorLine ⟨control, .debit⟩ total :: items) = -amountTotal items := by
  unfold heldBy
  have htrim : trim retainageReceivableCode = retainageReceivableCode := by decide
  obtain ⟨a, hheld, hcrs⟩ | ⟨hnone, rfl⟩ := credits_or_nil htrim hitems
  · rw [hheld, map_some, getD_some, onJob_anchor]
    exact onJob_credits hcrs
  · rw [hnone]
    rfl

variable {d : BillingDraft} {retainage revenue : AccountId}

theorem retainageAccounts_eq_ok (h : retainageAccounts ctx d = .ok (retainage, revenue)) :
    ∃ a b, ctx.chart.getByCode retainageReceivableCode = some a ∧ a.id = retainage ∧
      ctx.chart.getByCode d.job.revenueAccountCode = some b ∧ b.id = revenue := by
  unfold retainageAccounts at h
  rcases hheld : ctx.chart.getByCode retainageReceivableCode with - | a
  · rw [hheld] at h
    cases h
  rcases hrev : ctx.chart.getByCode d.job.revenueAccountCode with - | b
  · rw [hheld, hrev] at h
    cases h
  · rw [hheld, hrev] at h
    obtain ⟨rfl, rfl⟩ := Prod.mk.inj (Except.ok.inj h)
    exact ⟨a, b, rfl, rfl, rfl, rfl⟩

theorem get_jobOnly (job : JobRecord) : (jobOnly job).get? jobDimension = some job.id :=
  OrderedMap.get?_set_self ..

theorem heldBy_retainage (hapart : RevenueApart d.job.revenueAccountCode)
    (h : retainageAccounts ctx d = .ok (retainage, revenue)) (invoiceId date : String) :
    heldBy ctx d.job.id (retainageCommand ctx d invoiceId date retainage revenue).lines =
        d.retainageMinor ∧
      creditedBy ctx d.job.revenueAccountCode
        (retainageCommand ctx d invoiceId date retainage revenue).lines = d.retainageMinor := by
  obtain ⟨a, b, hheld, rfl, hrev, rfl⟩ := retainageAccounts_eq_ok h
  have hne := id_ne_of_apart hapart hrev hheld
  unfold heldBy creditedBy
  rw [hheld, hrev, map_some, map_some, getD_some, getD_some]
  unfold retainageCommand
  dsimp only
  constructor
  · have hhel : OnJob a.id d.job.id ⟨a.id, .debit, ⟨d.retainageMinor, ctx.currency⟩,
      some "Held by the customer", some (jobOnly d.job)⟩ := ⟨rfl, get_jobOnly d.job⟩
    refine (onJob_cons_of hhel _).trans ?_
    rw [onJob_cons_off fun hon => hne hon.1]
    exact Int.add_zero _
  · refine (creditOn_cons_off (fun hon => by cases hon.1) _).trans ?_
    exact (creditOn_cons_of ⟨rfl, rfl⟩ _).trans (Int.add_zero _)

end
end Rgnr8.Service.Billing
