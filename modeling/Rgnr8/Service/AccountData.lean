import Rgnr8.Service.ChartBooks
import Rgnr8.Service.Inbox
import Rgnr8.Service.Reconcile
import Rgnr8.Service.Reporting

/-! What the service keeps of an account by its code, beside a chart that can be edited: the status
of entries, the bank lines and the budget. Nothing comes to be kept under a code no account has. -/

namespace Rgnr8.Service.AccountData
open Lib Lib.Js Fallible Kernel Reconciliation Reconcile Reporting Inbox Prog

/-- The tenant's side of its requests. -/
structure ServiceContext extends ReconcileContext where
  localeLe : String → String → Bool
  dimensions : List DimensionDef
  jobs : List String
  costCodes : List String
  autoPost : FeedTxnRecord → Option String

structure AccountBooks (π : Type) where
  chart : ChartOfAccounts
  inbox : InboxStores π
  recon : InMemoryReconStore
  budgets : BudgetStore

namespace AccountBooks
variable {π : Type} (ctx : ServiceContext) (s : AccountBooks π)

def journal : List PostedEntry := s.inbox.books.ledger.store.list ctx.tenant

def reconcileBooks : ReconcileBooks := ⟨s.chart, s.journal ctx, s.recon⟩

def inboxContext : InboxContext where
  tenant := ctx.tenant
  currency := ctx.currency
  dimensions := ⟨s.chart, ctx.dimensions, ctx.jobs, ctx.costCodes⟩
  localeLe := ctx.localeLe
  autoPost := ctx.autoPost

def editContext (quickBooksOfRecord : Bool) : ChartEditContext where
  chart := s.chart
  currency := ctx.currency
  quickBooksOfRecord := quickBooksOfRecord
  hasPostings a := Posted a.id (s.journal ctx)
  balanceMinor a := balanceOf a.id (s.journal ctx)

end AccountBooks

def reloaded (chart : ChartOfAccounts) (a : Account) : Except String ChartOfAccounts :=
  ChartOfAccounts.ofAccounts (parentsFirst (chart.list.filter (fun x => x.id ≠ a.id) ++ [a]))

inductive InboxRequest where
  | deliver (accountCode : String) (txns : List FeedTxnInput) (source : String)
      (clocks : List Clock)
  | accept (clock : Clock) (id categoryCode : String) (dimensions : Option Dimensions)
  | settle (postedAt id docKind docId : String)
  | exclude (id reason : String)
  | undo (clock : Clock) (id : String)

def InboxRequest.program (ctx : InboxContext) : InboxRequest → InboxProg Unit
  | .deliver accountCode txns source clocks => do
    let _ ← deliverFeed ctx accountCode txns source clocks
    return ()
  | .accept clock id categoryCode dimensions => do
    let _ ← acceptTxn ctx clock id categoryCode dimensions
    return ()
  | .settle postedAt id docKind docId => do
    let _ ← matchTxn ctx postedAt id docKind docId
    return ()
  | .exclude id reason => do
    let _ ← excludeTxn ctx id reason
    return ()
  | .undo clock id => do
    let _ ← undoTxn ctx clock id
    return ()

inductive AccountOp where
  | edit (quickBooksOfRecord : Bool) (code : String) (changes : AccountChanges)
  | create (input : NewAccount)
  | toggle (code : String) (entryId : EntryId) (cleared : Bool)
  | importStatement (code text : String) (statementDate statementBalance : Option String)
  | finish (code : String) (statementDate statementBalance : Option String)
  | inbox (r : InboxRequest)
  | saveBudget (input : BudgetInput)
  | ledger (op : EngineOp)

section
variable {π : Type} [PeriodStore π]

def AccountBooks.step (ctx : ServiceContext) (s : AccountBooks π) : AccountOp → AccountBooks π
  | .edit quickBooksOfRecord code changes =>
    match s.chart.getByCode code with
    | none => s
    | some current =>
      match planAccountEdit current changes (s.editContext ctx quickBooksOfRecord) with
      | .error _ => s
      | .ok next =>
        if next = current then s
        else { s with chart := (reloaded s.chart next).toOption.getD s.chart }
  | .create input =>
    match planNewAccount input (s.editContext ctx false) with
    | .error _ => s
    | .ok account => { s with chart := (reloaded s.chart account).toOption.getD s.chart }
  | .toggle code entryId cleared =>
    match toggleCleared ctx.toReconcileContext (s.reconcileBooks ctx) code entryId cleared with
    | .error _ => s
    | .ok recon => { s with recon := recon }
  | .importStatement code text date balance => { s with
      recon := (importStatement ctx.toReconcileContext (s.reconcileBooks ctx) code text date
        balance).2 }
  | .finish code date balance =>
    match finishReconciliation ctx.toReconcileContext (s.reconcileBooks ctx) code date balance with
    | .error _ => s
    | .ok (_, recon) => { s with recon := recon }
  | .inbox r => { s with
      inbox := ((r.program (s.inboxContext ctx)).run InboxCall.exec s.inbox).2 }
  | .saveBudget input =>
    match saveBudgetLines ctx.tenant s.chart s.budgets input with
    | .error _ => s
    | .ok (_, budgets) => { s with budgets := budgets }
  | .ledger op => { s with inbox.books.ledger := s.inbox.books.ledger.step op }

end

structure NothingUnder {π : Type} (ctx : ServiceContext) (code : String) (s : AccountBooks π) :
    Prop where
  statuses : ∀ id, (s.recon.statuses ctx.tenant code).get? id = none
  through : s.recon.reconciledThrough ctx.tenant code = none
  bankLines : ∀ id txn, s.inbox.feed.getTxn ctx.tenant id = some txn → txn.accountCode ≠ code
  budget : ∀ period, s.budgets.lineOf ctx.tenant period code = none

/-! What is written under one code is not under another. -/

namespace Keys
variable {store : InMemoryReconStore} {tenant : TenantId} {code code' : String}

theorem key_inj (h : InMemoryReconStore.key tenant code = InMemoryReconStore.key tenant code') :
    code = code' := by
  unfold InMemoryReconStore.key at h
  have hcodes : (toString code).toList = (toString code').toList := by
    simpa [← String.toList_inj] using h
  exact String.toList_inj.mp hcodes

theorem key_ne (h : code ≠ code') :
    InMemoryReconStore.key tenant code ≠ InMemoryReconStore.key tenant code' :=
  fun heq => h (key_inj heq)

theorem statuses_setStatus_of_ne (h : code ≠ code') (id : EntryId) (status : ClearStatus) :
    (store.setStatus tenant code' id status).statuses tenant code = store.statuses tenant code := by
  unfold InMemoryReconStore.setStatus InMemoryReconStore.statuses
  dsimp only
  rw [OrderedMap.get?_set_ne _ _ (key_ne h)]

theorem statuses_setMany_of_ne (h : code ≠ code') (ids : List EntryId) (status : ClearStatus) :
    (store.setMany tenant code' ids status).statuses tenant code = store.statuses tenant code := by
  induction ids generalizing store with
  | nil => rfl
  | cons id ids ih =>
    have hcons : store.setMany tenant code' (id :: ids) status =
        (store.setStatus tenant code' id status).setMany tenant code' ids status := rfl
    rw [hcons, ih, statuses_setStatus_of_ne h]

theorem reconciledThrough_setMany (ids : List EntryId) (status : ClearStatus) :
    (store.setMany tenant code' ids status).reconciledThrough tenant code =
      store.reconciledThrough tenant code := by
  induction ids generalizing store with
  | nil => rfl
  | cons id ids ih => exact ih

variable (store tenant) in
theorem setReconciledThrough_of_ne (h : code ≠ code') (date : String) :
    (store.setReconciledThrough tenant code' date).reconciledThrough tenant code =
      store.reconciledThrough tenant code ∧
    (store.setReconciledThrough tenant code' date).statuses tenant code =
      store.statuses tenant code := by
  unfold InMemoryReconStore.setReconciledThrough
  cases store.reconciledThrough tenant code' with
  | none => exact ⟨OrderedMap.get?_set_ne _ _ (key_ne h), rfl⟩
  | some prev =>
    dsimp only
    split_ifs
    · exact ⟨OrderedMap.get?_set_ne _ _ (key_ne h), rfl⟩
    · exact ⟨rfl, rfl⟩

end Keys

/-! Bank lines. What is written of a line keeps its account code, so what is said of the code alone
holds of whatever is written. -/

section
variable {tenant : TenantId} {P : FeedTxnRecord → Prop}

/-- Every line that an answer hands out is as `P` says. -/
def FeedAnswered (tenant : TenantId) (P : FeedTxnRecord → Prop) : (c : InboxCall) → c.Answer → Prop
  | .getTxn t _, found => t = tenant → ∀ txn, found = some txn → P txn
  | _, _ => True

/-- Every line that is written is as `P` says. -/
def FeedGuaranteed (tenant : TenantId) (P : FeedTxnRecord → Prop) : InboxCall → Prop
  | .updateTxn t txn => t = tenant → P txn
  | .addTxns t txns => t = tenant → ∀ txn ∈ txns, P txn
  | _ => True

def Settled (P : FeedTxnRecord → Prop) : Prop :=
  ∀ txn txn' : FeedTxnRecord, txn'.accountCode = txn.accountCode → P txn → P txn'

abbrev Writes (tenant : TenantId) (P : FeedTxnRecord → Prop) {α : Type} (p : InboxProg α)
    (Q : α → Prop) : Prop :=
  p.Ensures (FeedAnswered tenant P) (FeedGuaranteed tenant P) Q

theorem writes_onLedger {α : Type} (p : LedgerProg α) :
    Writes tenant P (Inbox.onLedger p) fun _ => True :=
  ensures_interpret (ensures_trivial p)
    fun _ _ => ensures_perform trivial fun _ _ => trivial

theorem writes_arAp {α : Type} (p : ArAp.ArApProg α) :
    Writes tenant P (p.interpret (fun c => Prog.perform (InboxCall.arAp c)) InboxFailure.arAp)
      fun _ => True :=
  ensures_interpret (ensures_trivial p)
    fun _ _ => ensures_perform trivial fun _ _ => trivial

theorem writes_line {α : Type} {txn : FeedTxnRecord} {t : TenantId} {a : α} (htxn : P txn) :
    Writes tenant P (do
      Prog.perform (InboxCall.updateTxn t txn)
      return a) fun _ => True :=
  ensures_bind (P := fun _ => True)
    (ensures_perform (fun _ => htxn) fun _ _ => trivial) fun _ _ => trivial

section
variable (ctx : InboxContext) (htenant : ctx.tenant = tenant) (hP : Settled P)
include htenant

theorem writes_foundTxn {β : Type} {id : String} {f : FeedTxnRecord → InboxProg β} {Q : β → Prop}
    (hf : ∀ txn, P txn → Writes tenant P (f txn) Q) :
    Writes tenant P (do
      let found ← Prog.perform (InboxCall.getTxn ctx.tenant id)
      let txn ← Prog.ofExcept (foundTxn id found)
      f txn) Q := by
  refine ensures_bind (P := fun found : Option FeedTxnRecord => ∀ txn, found = some txn → P txn)
    (ensures_perform trivial fun r hr => hr htenant) fun found hfound => ?_
  refine ensures_bind (P := P) (ensures_ofExcept fun txn htxn => ?_) hf
  cases found with
  | none => cases htxn
  | some txn' =>
    obtain rfl := Except.ok.inj htxn
    exact hfound txn' rfl

theorem writes_requirePending (id : String) : Writes tenant P (requirePending ctx id) P := by
  unfold requirePending
  refine writes_foundTxn ctx htenant fun txn htxn => ?_
  exact ensures_bind (P := fun _ => True) (ensures_refuseIf fun _ => trivial)
    fun _ _ => htxn

include hP

theorem writes_acceptTxn (clock : Clock) (id categoryCode : String)
    (dimensions : Option Dimensions) :
    Writes tenant P (acceptTxn ctx clock id categoryCode dimensions) fun _ => True := by
  unfold acceptTxn
  refine ensures_bind (writes_requirePending ctx htenant id) fun txn htxn => ?_
  refine ensures_bind (P := fun _ => True) (ensures_refuseIf fun _ => trivial)
    fun _ _ => ?_
  refine ensures_bind (P := fun _ => True) (ensures_ofExcept fun _ _ => trivial)
    fun accounts _ => ?_
  obtain ⟨bank, category⟩ := accounts
  refine ensures_bind (P := fun _ => True) (ensures_ofExcept fun _ _ => trivial)
    fun _ _ => ?_
  refine ensures_bind (writes_onLedger _) fun entry _ => ?_
  exact writes_line (hP txn _ rfl htxn)

theorem writes_autoAccept (records : List FeedTxnRecord) (clocks : List Clock) (posted : Nat) :
    Writes tenant P (autoAccept ctx records clocks posted) fun _ => True := by
  induction records generalizing clocks posted with
  | nil => trivial
  | cons record records ih =>
    unfold autoAccept
    refine ensures_bind (P := fun _ => True) (ensures_perform trivial fun _ _ => trivial)
      fun found _ => ?_
    dsimp only
    split
    · exact ih clocks posted
    · exact ensures_bind (ensures_attempt (writes_acceptTxn ctx htenant hP ..))
        fun outcome _ => ih _ _

theorem writes_deliverFeed {accountCode : String} (txns : List FeedTxnInput) (source : String)
    (clocks : List Clock) (hnew : ∀ txn : FeedTxnRecord,
      (ctx.chart.getByCode txn.accountCode).isSome = true → P txn) :
    Writes tenant P (deliverFeed ctx accountCode txns source clocks) fun _ => True := by
  unfold deliverFeed
  refine ensures_bind (P := fun _ => (ctx.chart.getByCode accountCode).isSome = true)
    (ensures_refuseIf fun hknown => by
      rwa [Option.isNone_iff_eq_none, ← ne_eq, ← Option.isSome_iff_ne_none] at hknown)
    fun _ hsome => ?_
  refine ensures_bind (P := fun _ => True) (ensures_refuseIf fun _ => trivial)
    fun _ _ => ?_
  refine ensures_bind (P := fun records => ∀ txn ∈ records, P txn)
    (ensures_ofExcept fun records hrecs => ?_) fun records hrecs => ?_
  · intro txn htxn
    obtain ⟨input, -, hinput⟩ := exists_of_forall₂ (mapM_eq_ok.mp hrecs) htxn
    simp only [deliveredTxn, bind_eq_ok] at hinput
    obtain ⟨-, -, -, -, minor, -, hok⟩ := hinput
    have hcode : txn.accountCode = accountCode := by rw [← Except.ok.inj hok]
    exact hnew txn (hcode ▸ hsome)
  refine ensures_bind (P := fun _ => True)
    (ensures_perform (fun _ => hrecs) fun _ _ => trivial) fun added _ => ?_
  exact ensures_bind (writes_autoAccept ctx htenant hP records clocks 0) fun _ _ => trivial

theorem writes_undoTxn (clock : Clock) (id : String) :
    Writes tenant P (undoTxn ctx clock id) fun _ => True := by
  unfold undoTxn
  refine writes_foundTxn ctx htenant fun txn htxn => ?_
  refine ensures_bind (P := fun _ => True) (ensures_refuseIf fun _ => trivial)
    fun _ _ => ?_
  refine ensures_bind (P := fun _ => True) ?_ fun _ _ => ?_
  · unfold reverseTxn
    split_ifs
    · trivial
    · exact ensures_bind (writes_onLedger _) fun _ _ => trivial
  refine ensures_bind (P := fun _ => True) ?_ fun _ _ => ?_
  · unfold reopenDoc
    cases txn.docKind with
    | none => trivial
    | some kind =>
      dsimp only
      split_ifs
      · trivial
      · refine ensures_bind (P := fun _ => True)
          (ensures_perform trivial fun _ _ => trivial) fun found _ => ?_
        cases (found : Option DocRecord) with
        | none => trivial
        | some doc => exact ensures_perform trivial fun _ _ => trivial
  exact writes_line (hP txn (undone txn) rfl htxn)

theorem writes_program (r : InboxRequest)
    (hnew : ∀ txn : FeedTxnRecord, (ctx.chart.getByCode txn.accountCode).isSome = true → P txn) :
    Writes tenant P (r.program ctx) fun _ => True := by
  cases r with
  | deliver accountCode txns source clocks =>
    exact ensures_bind (writes_deliverFeed ctx htenant hP txns source clocks hnew)
      fun _ _ => trivial
  | accept clock id categoryCode dimensions =>
    exact ensures_bind (writes_acceptTxn ctx htenant hP ..) fun _ _ => trivial
  | settle postedAt id docKind docId =>
    refine ensures_bind (P := fun _ => True) ?_ fun _ _ => trivial
    unfold matchTxn
    refine ensures_bind (writes_requirePending ctx htenant id) fun txn htxn => ?_
    refine ensures_bind (P := fun _ => True) (ensures_ofExcept fun _ _ => trivial)
      fun kind _ => ?_
    refine ensures_bind (writes_arAp _) fun paid _ => ?_
    exact writes_line (hP txn _ rfl htxn)
  | exclude id reason =>
    refine ensures_bind (P := fun _ => True) ?_ fun _ _ => trivial
    unfold excludeTxn
    refine ensures_bind (writes_requirePending ctx htenant id) fun txn htxn => ?_
    exact writes_line (hP txn _ rfl htxn)
  | undo clock id =>
    exact ensures_bind (writes_undoTxn ctx htenant hP clock id) fun _ _ => trivial

end

/-! What the feed says after a write. -/

theorem getTxn_updateTxn (feed : FeedStore) (t t' : TenantId) (txn : FeedTxnRecord) (id : String) :
    (feed.updateTxn t txn).getTxn t' id =
      if (t', id) = (t, txn.id) then some txn else feed.getTxn t' id := OrderedMap.get?_set ..

theorem forall_addTxns {feed : FeedStore} {t t' : TenantId} {txns : List FeedTxnRecord}
    (h : ∀ id txn, feed.getTxn t' id = some txn → P txn)
    (htxns : t = t' → ∀ txn ∈ txns, P txn) :
    ∀ id txn, (feed.addTxns t txns).2.getTxn t' id = some txn → P txn := by
  induction txns generalizing feed with
  | nil => exact h
  | cons new txns ih =>
    have hrest : t = t' → ∀ txn ∈ txns, P txn :=
      fun ht txn htxn => htxns ht txn (List.mem_cons_of_mem _ htxn)
    unfold FeedStore.addTxns
    split_ifs
    · exact ih h hrest
    · refine ih (fun id txn htxn => ?_) hrest
      rw [getTxn_updateTxn] at htxn
      split_ifs at htxn with hkey
      · rw [← Option.some.inj htxn]
        exact htxns (congrArg Prod.fst hkey).symm new List.mem_cons_self
      · exact h id txn htxn

/-- The lines of a tenant are as `P` says. -/
def FeedAll (tenant : TenantId) (P : FeedTxnRecord → Prop) (feed : FeedStore) : Prop :=
  ∀ id txn, feed.getTxn tenant id = some txn → P txn

variable {π : Type} [PeriodStore π]

theorem feedAll_program (ctx : InboxContext) (htenant : ctx.tenant = tenant) (hP : Settled P)
    (r : InboxRequest) (hnew : ∀ txn : FeedTxnRecord,
      (ctx.chart.getByCode txn.accountCode).isSome = true → P txn) {s : InboxStores π}
    (h : FeedAll tenant P s.feed) :
    FeedAll tenant P ((r.program ctx).run InboxCall.exec s).2.feed := by
  have hwrit := writes_program ctx htenant hP r hnew
  refine hwrit.run_invariant (I := fun s : InboxStores π => FeedAll tenant P s.feed)
    (fun c s hs => ?_) (fun c s hs hq => ?_) h
  · cases c with
    | getTxn t id =>
      rintro rfl txn htxn
      exact hs id txn htxn
    | arAp c => trivial
    | addTxns t txns => trivial
    | updateTxn t txn => trivial
  · cases c with
    | getTxn t id => exact hs
    | arAp c => exact hs
    | addTxns t txns => exact forall_addTxns hs hq
    | updateTxn t txn =>
      intro id other hother
      have hget : (s.feed.updateTxn t txn).getTxn tenant id = some other := hother
      rw [getTxn_updateTxn] at hget
      split_ifs at hget with hkey
      · rw [← Option.some.inj hget]
        exact hq (congrArg Prod.fst hkey).symm
      · exact hs id other hget

end

/-! While no account has a code, what is kept under it stays as it is. -/

/-- What is kept under a code is the same in two states. -/
structure SameUnder {π : Type} (ctx : ServiceContext) (code : String) (s t : AccountBooks π) :
    Prop where
  statuses : t.recon.statuses ctx.tenant code = s.recon.statuses ctx.tenant code
  through : t.recon.reconciledThrough ctx.tenant code = s.recon.reconciledThrough ctx.tenant code
  budget : ∀ period, t.budgets.lineOf ctx.tenant period code = s.budgets.lineOf ctx.tenant period code
  off : FeedAll ctx.tenant (fun txn => txn.accountCode ≠ code) s.inbox.feed →
    FeedAll ctx.tenant (fun txn => txn.accountCode ≠ code) t.inbox.feed

section
variable {π : Type} {ctx : ServiceContext} {s t u : AccountBooks π} {code : String}

theorem SameUnder.refl (ctx : ServiceContext) (code : String) (s : AccountBooks π) :
    SameUnder ctx code s s := ⟨rfl, rfl, fun _ => rfl, fun h => h⟩

theorem SameUnder.trans (h : SameUnder ctx code s t) (h' : SameUnder ctx code t u) :
    SameUnder ctx code s u where
  statuses := h'.statuses.trans h.statuses
  through := h'.through.trans h.through
  budget := fun period => (h'.budget period).trans (h.budget period)
  off := fun hoff => h'.off (h.off hoff)

theorem SameUnder.nothingUnder (h : SameUnder ctx code s t) (hs : NothingUnder ctx code s) :
    NothingUnder ctx code t :=
  ⟨fun id => by rw [h.statuses, hs.statuses], h.through.trans hs.through, h.off hs.bankLines,
    fun period => (h.budget period).trans (hs.budget period)⟩

theorem SameUnder.recon {store : InMemoryReconStore}
    (hstat : store.statuses ctx.tenant code = s.recon.statuses ctx.tenant code)
    (hthru : store.reconciledThrough ctx.tenant code = s.recon.reconciledThrough ctx.tenant code) :
    SameUnder ctx code s { s with recon := store } :=
  ⟨hstat, hthru, fun _ => rfl, fun h => h⟩

theorem SameUnder.chart (chart : ChartOfAccounts) : SameUnder ctx code s { s with chart := chart } :=
  ⟨rfl, rfl, fun _ => rfl, fun h => h⟩

theorem code_ne_of_resolve {chart : ChartOfAccounts} {code' : String} {account : Account}
    (hfree : chart.getByCode code = none) (h : resolveAccount chart code' = .ok account) :
    code ≠ code' := by
  rintro rfl
  unfold resolveAccount at h
  rw [hfree] at h
  cases h

variable [PeriodStore π]

theorem sameUnder_step (hfree : s.chart.getByCode code = none) (op : AccountOp) :
    SameUnder ctx code s (s.step ctx op) := by
  cases op with
  | edit quickBooksOfRecord code' changes =>
    unfold AccountBooks.step
    dsimp only
    cases s.chart.getByCode code' with
    | none => exact .refl ctx code s
    | some current =>
      dsimp only
      cases planAccountEdit current changes (s.editContext ctx quickBooksOfRecord) with
      | error e => exact .refl ctx code s
      | ok next =>
        dsimp only
        split_ifs
        · exact .refl ctx code s
        · exact .chart _
  | create input =>
    unfold AccountBooks.step
    dsimp only
    cases planNewAccount input (s.editContext ctx false) with
    | error e => exact .refl ctx code s
    | ok account => exact .chart _
  | toggle code' entryId cleared =>
    unfold AccountBooks.step
    dsimp only
    cases htog : toggleCleared ctx.toReconcileContext (s.reconcileBooks ctx) code' entryId
        cleared with
    | error e => exact .refl ctx code s
    | ok recon =>
      simp only [toggleCleared, bind_eq_ok, refuse_eq_ok] at htog
      obtain ⟨account, hacc, -, -, lines, -, -, hrecon⟩ := htog
      obtain rfl := Except.ok.inj hrecon
      have hne := code_ne_of_resolve hfree hacc
      exact .recon (Keys.statuses_setStatus_of_ne hne entryId _) rfl
  | importStatement code' text date balance =>
    unfold AccountBooks.step importStatement
    dsimp only
    cases himp : matchStatement ctx.toReconcileContext (s.reconcileBooks ctx) code' text date
        balance with
    | error e => exact .refl ctx code s
    | ok imported =>
      simp only [matchStatement, bind_eq_ok, refuse_eq_ok] at himp
      obtain ⟨account, hacc, -⟩ := himp
      have hne := code_ne_of_resolve hfree hacc
      exact .recon (Keys.statuses_setMany_of_ne hne _ _) (Keys.reconciledThrough_setMany _ _)
  | finish code' date balance =>
    unfold AccountBooks.step
    dsimp only
    cases hfin : finishReconciliation ctx.toReconcileContext (s.reconcileBooks ctx) code' date
        balance with
    | error e => exact .refl ctx code s
    | ok r =>
      simp only [finishReconciliation, bind_eq_ok] at hfin
      obtain ⟨account, hacc, day, -, amount, -, lines, -, recon, -, hok⟩ := hfin
      have hne := code_ne_of_resolve hfree hacc
      cases hmrk : finishManualReconciliation recon (loadRegister (s.reconcileBooks ctx).recon
          ctx.tenant account.id code') with
      | error message =>
        rw [hmrk] at hok
        cases hok
      | ok marked =>
        rw [hmrk] at hok
        obtain rfl := Except.ok.inj hok
        obtain ⟨hthru, hstat⟩ := Keys.setReconciledThrough_of_ne
          (s.recon.setMany ctx.tenant code' recon.clearedEntryIds .reconciled) ctx.tenant hne day
        exact .recon (hstat.trans (Keys.statuses_setMany_of_ne hne _ _))
          (hthru.trans (Keys.reconciledThrough_setMany _ _))
  | inbox r =>
    refine ⟨rfl, rfl, fun _ => rfl, fun h => ?_⟩
    refine feedAll_program (s.inboxContext ctx) rfl (fun txn txn' hcode hne => hcode ▸ hne) r
      (fun txn hsome hcode => ?_) h
    rw [hcode] at hsome
    have hnone : (s.inboxContext ctx).chart.getByCode code = none := hfree
    rw [hnone] at hsome
    cases hsome
  | saveBudget input =>
    unfold AccountBooks.step
    dsimp only
    cases hsav : saveBudgetLines ctx.tenant s.chart s.budgets input with
    | error e => exact .refl ctx code s
    | ok r =>
      exact ⟨rfl, rfl, fun period => lineOf_saveBudgetLines hsav hfree, fun h => h⟩
  | ledger op => exact ⟨rfl, rfl, fun _ => rfl, fun h => h⟩

theorem sameUnder_run {ops : List AccountOp}
    (hfree : Along (AccountBooks.step ctx) (fun t => t.chart.getByCode code = none) s ops) :
    SameUnder ctx code s (ops.foldl (AccountBooks.step ctx) s) := by
  induction ops generalizing s with
  | nil => exact .refl ctx code s
  | cons op ops ih =>
    obtain ⟨hhere, hrest⟩ := along_cons.mp hfree
    exact (sameUnder_step hhere op).trans (ih hrest)

end
end Rgnr8.Service.AccountData
