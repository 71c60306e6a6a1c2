import Rgnr8.Service.AccountData
import Rgnr8.Service.ReconcileRuns
import Rgnr8.Kernel.ChartGrows

/-! Renumbering an account. The journal knows an account by its id, so its entries stay its own; what
the service keeps by code stays where it is, under the old code. -/

namespace Rgnr8.Service.AccountData
open Lib Lib.Js Fallible Kernel Reconciliation Reconcile Reporting Inbox ChartOfAccounts List

section
variable {accounts : List Account}

theorem exists_planNewAccount (ctx : ChartEditContext)
    (hload : ChartOfAccounts.ofAccounts accounts = .ok ctx.chart) {code : String}
    (htrim : trim code = code) (hne : code ≠ "") (hfree : ctx.chart.getByCode code = none) :
    ∃ input account, planNewAccount input ctx = .ok account ∧ account.code = code := by
  have hloads : Loads ctx.chart.list := by
    rw [list_ofAccounts hload]
    exact (exists_ofAccounts_iff.mp ⟨_, hload⟩).stored
  let account : Account := {
    id := accountIdFor code
    code := code
    name := code
    type := .asset
    currency := ctx.currency
    parentId := none
    subtype := none
    active := some true
    origin := some .rgnr8 }
  have hcodes : account.code ∉ ctx.chart.list.map Account.code := by
    intro hmem
    obtain ⟨b, hb, hcode⟩ := mem_map.mp hmem
    have hfound := getByCode_of_mem hb
    rw [hcode] at hfound
    cases hfound.symm.trans hfree
  have hvalid : ∃ coa, ofAccounts (parentsFirst (ctx.chart.list ++ [account])) =
      .ok coa := by
    rw [exists_ofAccounts_iff, parentsFirst_concat hloads rfl]
    split_ifs with hmem
    · exact hloads
    · exact Loads.concat hloads hmem hcodes (fun _ h => nomatch h) (fun _ h => nomatch h)
  obtain ⟨coa, hcoa⟩ := hvalid
  have hval : validate (ctx.chart.list ++ [account]) = .ok () := by
    unfold validate
    rw [hcoa]
    rfl
  refine ⟨⟨code, code, some .asset, none, none⟩, account, ?_, rfl⟩
  have hnumb : cleanNumber code = .ok code := by
    unfold cleanNumber
    rw [htrim, if_neg hne]
  have hname : cleanName (some code) "" = .ok code := by
    unfold cleanName
    dsimp only
    rw [htrim, if_neg hne]
  unfold planNewAccount
  rw [bind_eq_ok]
  refine ⟨code, hnumb, ?_⟩
  rw [bind_eq_ok]
  refine ⟨code, hname, ?_⟩
  rw [refuse_bind_eq_ok, hfree, bind_eq_ok]
  refine ⟨nofun, (.asset, none), rfl, ?_⟩
  dsimp only
  rw [bind_eq_ok]
  refine ⟨none, rfl, ?_⟩
  rw [bind_eq_ok]
  exact ⟨(), hval, rfl⟩

end

/-! The chart an edit leaves. -/

section
variable {ctx : ChartEditContext} {current next : Account} {changes : AccountChanges}

theorem planAccountEdit_reloads (h : planAccountEdit current changes ctx = .ok next)
    (hne : next ≠ current) :
    next.id = current.id ∧ ∃ chart, reloaded ctx.chart next = .ok chart := by
  unfold planAccountEdit at h
  rw [bind_eq_ok] at h
  obtain ⟨⟨type, subtype⟩, hresv, h⟩ := h
  dsimp only at h
  rw [bind_eq_ok] at h
  obtain ⟨differs, hdif, h⟩ := h
  split_ifs at h
  · unfold applyChanges at h
    rw [refuse_bind_eq_ok, bind_eq_ok] at h
    obtain ⟨-, ⟨⟩, -, h⟩ := h
    rw [bind_eq_ok] at h
    obtain ⟨⟨⟩, -, h⟩ := h
    rw [bind_eq_ok] at h
    obtain ⟨⟨⟩, -, h⟩ := h
    rw [bind_eq_ok] at h
    obtain ⟨⟨⟩, -, h⟩ := h
    rw [bind_eq_ok] at h
    obtain ⟨parentId, -, h⟩ := h
    rw [bind_eq_ok] at h
    obtain ⟨code, -, h⟩ := h
    rw [refuse_bind_eq_ok, bind_eq_ok] at h
    obtain ⟨-, name, -, h⟩ := h
    rw [bind_eq_ok] at h
    obtain ⟨⟨⟩, hvalid, hok⟩ := h
    obtain rfl := Except.ok.inj hok
    unfold validate at hvalid
    rw [mapError_eq_ok, map_eq_ok] at hvalid
    obtain ⟨chart, hchart, -⟩ := hvalid
    exact ⟨rfl, chart, hchart⟩
  · exact absurd (Except.ok.inj h).symm hne

theorem codes_of_reloaded {chart' chart : ChartOfAccounts} (hcur : chart.getByCode current.code = some current)
    (hid : next.id = current.id) (hcode : next.code ≠ current.code)
    (h : reloaded chart next = .ok chart') :
    chart'.getByCode current.code = none ∧ chart'.getByCode next.code = some next.stored := by
  unfold reloaded at h
  have hnd : ((chart.list.filter (fun x => x.id ≠ next.id) ++ [next]).map Account.id).Nodup := by
    rw [map_append, map_singleton]
    refine (List.Nodup.sublist (filter_sublist.map _) chart.nodup_ids).append
      (nodup_singleton _) (disjoint_singleton.mpr fun hmem => ?_)
    obtain ⟨x, hx, heq⟩ := mem_map.mp hmem
    exact of_decide_eq_true (mem_filter.mp hx).2 heq
  have hlist : ∀ x, x ∈ chart'.list ↔
      ∃ y ∈ chart.list.filter (fun x => x.id ≠ next.id) ++ [next], y.stored = x := by
    intro x
    rw [list_ofAccounts h, mem_map]
    simp only [(parentsFirst_perm hnd).mem_iff]
  constructor
  · rw [Option.eq_none_iff_forall_ne_some]
    intro x hx
    obtain ⟨hmem, hxcode⟩ := getByCode_iff.mp hx
    obtain ⟨y, hy, rfl⟩ := (hlist x).mp hmem
    rw [mem_append, mem_singleton, mem_filter] at hy
    rcases hy with ⟨hy, hyid⟩ | rfl
    · have hfound := getByCode_of_mem hy
      have hycode : y.code = current.code := hxcode
      rw [hycode, hcur] at hfound
      obtain rfl := Option.some.inj hfound
      exact of_decide_eq_true hyid hid.symm
    · exact hcode hxcode
  · refine getByCode_iff.mpr ⟨(hlist _).mpr ⟨next, ?_, rfl⟩, rfl⟩
    exact mem_append_right _ mem_cons_self

end

/-! Reading an account under another code. -/

section
variable {entries : List PostedEntry} {accountId : AccountId} {currency : Currency}
variable {r r' : ClearedRegister}

theorem bankRegister_congr (h : r.statusOf accountId = r'.statusOf accountId) :
    bankRegister entries accountId currency r = bankRegister entries accountId currency r' := by
  have hlines : registerLines accountId currency r entries =
      registerLines accountId currency r' entries := by
    induction entries with
    | nil => rfl
    | cons entry entries ih =>
      unfold registerLines registerLine
      rw [ih, h]
  unfold bankRegister
  rw [hlines]

variable {ctx : ReconcileContext} {books books' : ReconcileBooks}
variable {code code' : String}

theorem reconcileView_renumbered (account account' : Account) (hid : account'.id = account.id)
    (hcode : books.chart.getByCode code = some account)
    (hcode' : books'.chart.getByCode code' = some account') (hents : books'.entries = books.entries)
    (hstat : ∀ id, (books'.recon.statuses ctx.tenant code').get? id =
      (books.recon.statuses ctx.tenant code).get? id)
    (hthru : books'.recon.reconciledThrough ctx.tenant code' =
      books.recon.reconciledThrough ctx.tenant code) (date balance : Option String) :
    reconcileView ctx books' code' date balance =
      (reconcileView ctx books code date balance).map fun view =>
        { view with accountCode := code', accountName := account'.name } := by
  have hreg : register ctx books' account' code' = register ctx books account code := by
    unfold register
    rw [hents, hid]
    refine congrArg _ (bankRegister_congr ?_)
    rw [InMemoryReconStore.statusOf_loadRegister, InMemoryReconStore.statusOf_loadRegister]
    funext id
    unfold InMemoryReconStore.statusOf
    rw [hstat]
  unfold reconcileView resolveAccount
  rw [hcode, hcode', hthru]
  cases Reconcile.requireDate date with
  | error e => rfl
  | ok day =>
    cases parseBalance balance ctx.currency with
    | error e => rfl
    | ok amount =>
      show (do
        let lines ← register ctx books' account' code'
        let recon ← (manualReconciliation lines day amount).mapError ReconcileFailure.money
        return toView code' account'.name recon (books.recon.reconciledThrough ctx.tenant code)
          lines) = Except.map _ (do
        let lines ← register ctx books account code
        let recon ← (manualReconciliation lines day amount).mapError ReconcileFailure.money
        return toView code account.name recon (books.recon.reconciledThrough ctx.tenant code)
          lines)
      rw [hreg]
      cases register ctx books account code with
      | error e => rfl
      | ok lines =>
        show (do
          let recon ← (manualReconciliation lines day amount).mapError ReconcileFailure.money
          return toView code' account'.name recon (books.recon.reconciledThrough ctx.tenant code)
            lines) = Except.map _ (do
          let recon ← (manualReconciliation lines day amount).mapError ReconcileFailure.money
          return toView code account.name recon (books.recon.reconciledThrough ctx.tenant code)
            lines)
        cases (manualReconciliation lines day amount).mapError ReconcileFailure.money with
        | error e => rfl
        | ok recon => rfl

end

/-! What has to move with the number of an account. -/

section
variable {π : Type} [PeriodStore π] (ctx : ServiceContext)

/-- Nothing has been delivered, ticked or budgeted yet. -/
def AccountBooks.opening (chart : ChartOfAccounts) (books : ArAp.ArApStores π) : AccountBooks π :=
  ⟨chart, ⟨books, .empty⟩, .empty, .empty⟩

def Acceptable (s : AccountBooks π) (id : String) : Prop :=
  ∃ clock categoryCode dimensions r, ((acceptTxn (s.inboxContext ctx) clock id categoryCode
    dimensions).run InboxCall.exec s.inbox).1 = .ok r

def AccountBooks.counted (s : AccountBooks π) (period : String) : OrderedMap AccountId Money :=
  (countedBudget s.chart ctx.currency
    (s.budgets.listBudget ctx.localeLe ctx.tenant period)).budget

/-- What was kept of an account under its old number is there under the new one, and until another
account takes the old number nothing is kept under it for that account to find. -/
structure DataMoves (s s' : AccountBooks π) (current next : Account) : Prop where
  view : ∀ date balance,
    reconcileView ctx.toReconcileContext (s'.reconcileBooks ctx) next.code date balance =
      (reconcileView ctx.toReconcileContext (s.reconcileBooks ctx) current.code date balance).map
        fun view => { view with accountCode := next.code, accountName := next.name }
  statuses : ∀ id, (s'.recon.statuses ctx.tenant next.code).get? id =
    (s.recon.statuses ctx.tenant current.code).get? id
  through : s'.recon.reconciledThrough ctx.tenant next.code =
    s.recon.reconciledThrough ctx.tenant current.code
  bankLines : ∀ id txn, s.inbox.feed.getTxn ctx.tenant id = some txn →
    txn.accountCode = current.code → Acceptable ctx s id → Acceptable ctx s' id
  budget : ∀ period amount, (s.counted ctx period).get? current.id = some amount →
    (s'.counted ctx period).get? current.id = some amount
  reuse : ∀ ops input created,
    Along (AccountBooks.step ctx) (fun t => t.chart.getByCode current.code = none) s' ops →
    planNewAccount input ((ops.foldl (AccountBooks.step ctx) s').editContext ctx false) =
      .ok created →
    created.code = current.code →
    NothingUnder ctx current.code ((ops ++ [AccountOp.create input]).foldl (AccountBooks.step ctx) s')

/-- Nothing is kept under a number that an account can be given, or can be told from what is kept
under another. -/
structure NothingLeftBehind (s : AccountBooks π) (code code' : String) : Prop where
  statuses : ∀ id, (s.recon.statuses ctx.tenant code').get? id =
    (s.recon.statuses ctx.tenant code).get? id
  through : s.recon.reconciledThrough ctx.tenant code' = s.recon.reconciledThrough ctx.tenant code
  bankLines : ∀ id txn, s.inbox.feed.getTxn ctx.tenant id = some txn → txn.accountCode = code →
    ¬ Acceptable ctx s id
  budget : ∀ period amount, s.budgets.lineOf ctx.tenant period code = some amount →
    s.budgets.lineOf ctx.tenant period code' = some amount
  reuse : trim code = code → code ≠ "" → NothingUnder ctx code s

variable {ctx} {s : AccountBooks π} {current next : Account} {chart' : ChartOfAccounts}

theorem account_of_acceptable {id : String} {txn : FeedTxnRecord}
    (htxn : s.inbox.feed.getTxn ctx.tenant id = some txn) (h : Acceptable ctx s id) :
    s.chart.getByCode txn.accountCode ≠ none := by
  obtain ⟨clock, categoryCode, dimensions, r, hrun⟩ := h
  unfold acceptTxn at hrun
  obtain ⟨txn', hpend, hrun⟩ := Prog.run_bind_eq_ok.mp hrun
  obtain ⟨-, -, hrun⟩ := Prog.run_bind_eq_ok.mp hrun
  obtain ⟨accounts, haccounts, -⟩ := Prog.run_bind_eq_ok.mp hrun
  have hline : txn' = txn := by
    unfold requirePending at hpend
    obtain ⟨found, hfound, hpend⟩ := Prog.run_bind_eq_ok.mp hpend
    obtain ⟨txn'', hsome, hpend⟩ := Prog.run_bind_eq_ok.mp hpend
    obtain ⟨-, -, hpend⟩ := Prog.run_bind_eq_ok.mp hpend
    have hget : s.inbox.feed.getTxn ctx.tenant id = found := Except.ok.inj hfound
    rw [htxn] at hget
    rw [← hget] at hsome
    have h'' : txn = txn'' := Except.ok.inj hsome
    have h' : txn'' = txn' := Except.ok.inj hpend
    rw [h'', h']
  rw [hline] at haccounts
  intro hnone
  unfold accountsFor at haccounts
  rw [show (s.inboxContext ctx).chart.getByCode txn.accountCode = none from hnone] at haccounts
  cases haccounts

theorem nothingUnder_create {code : String} {input : NewAccount} :
    NothingUnder ctx code (s.step ctx (.create input)) ↔ NothingUnder ctx code s := by
  have hsame : ∃ chart, s.step ctx (.create input) = { s with chart := chart } := by
    unfold AccountBooks.step
    dsimp only
    cases planNewAccount input (s.editContext ctx false) with
    | error e => exact ⟨s.chart, rfl⟩
    | ok account => exact ⟨_, rfl⟩
  obtain ⟨chart, hchart⟩ := hsame
  rw [hchart]
  exact ⟨fun h => ⟨h.statuses, h.through, h.bankLines, h.budget⟩,
    fun h => ⟨h.statuses, h.through, h.bankLines, h.budget⟩⟩

theorem code_of_planNewAccount {edit : ChartEditContext} {input : NewAccount} {created : Account}
    (h : planNewAccount input edit = .ok created) : trim created.code = created.code ∧
      created.code ≠ "" := by
  have hnumb := (planNewAccount_ok h).number
  refine ⟨by rw [hnumb, trim_trim], fun hemp => ?_⟩
  rw [hemp] at hnumb
  unfold planNewAccount cleanNumber at h
  rw [if_pos hnumb.symm] at h
  cases h

omit [PeriodStore π] in
theorem counted_of_account (account : Account)
    (hcode : s.chart.getByCode account.code = some account) (period : String) :
    (s.counted ctx period).get? account.id =
      (s.budgets.lineOf ctx.tenant period account.code).map fun n => ⟨n, ctx.currency⟩ :=
  budget_of_account hcode

theorem dataMoves_iff (hcur : s.chart.getByCode current.code = some current)
    (hid : next.id = current.id) (hcode : next.code ≠ current.code)
    (hchart : reloaded s.chart next = .ok chart') :
    DataMoves ctx s { s with chart := chart' } current next ↔
      NothingLeftBehind ctx s current.code next.code := by
  obtain ⟨hfree, hnext⟩ := codes_of_reloaded hcur hid hcode hchart
  have hcnt : ∀ period, (s.counted ctx period).get? current.id =
      (s.budgets.lineOf ctx.tenant period current.code).map fun n => ⟨n, ctx.currency⟩ :=
    counted_of_account current hcur
  have hcnt' : ∀ period, (AccountBooks.counted ctx { s with chart := chart' } period).get?
      current.id = (s.budgets.lineOf ctx.tenant period next.code).map fun n => ⟨n, ctx.currency⟩ := by
    intro period
    rw [← hid]
    exact counted_of_account next.stored hnext period
  constructor
  · intro h
    refine ⟨h.statuses, h.through, fun id txn htxn hline hacc => ?_,
      fun period n hn => ?_, fun htrim hne => ?_⟩
    · have hafter := account_of_acceptable (s := { s with chart := chart' }) htxn
        (h.bankLines id txn htxn hline hacc)
      rw [hline] at hafter
      exact hafter hfree
    · have hbef := hcnt period
      rw [hn] at hbef
      have hafter := h.budget period _ hbef
      rw [hcnt', Option.map_eq_some_iff] at hafter
      obtain ⟨n', hn', heq⟩ := hafter
      rw [hn', (Money.mk.inj heq).1]
    · obtain ⟨input, created, hplan, hcreat⟩ := exists_planNewAccount
        (AccountBooks.editContext ctx { s with chart := chart' } false) hchart htrim hne hfree
      have hreuse := h.reuse [] input created (along_nil.mpr hfree) hplan hcreat
      have hunder := nothingUnder_create.mp hreuse
      exact ⟨hunder.statuses, hunder.through, hunder.bankLines, hunder.budget⟩
  · intro h
    refine ⟨?_, h.statuses, h.through, fun id txn htxn hline hacc => ?_,
      fun period amount hamt => ?_, fun ops input created hops hplan hcreat => ?_⟩
    · exact reconcileView_renumbered current next.stored hid hcur hnext rfl h.statuses h.through
    · exact absurd hacc (h.bankLines id txn htxn hline)
    · rw [hcnt, Option.map_eq_some_iff] at hamt
      obtain ⟨n, hn, rfl⟩ := hamt
      rw [hcnt', h.budget period n hn]
      rfl
    · obtain ⟨htrim, hne⟩ := code_of_planNewAccount hplan
      rw [hcreat] at htrim hne
      have hunder := h.reuse htrim hne
      have hafter : NothingUnder ctx current.code { s with chart := chart' } :=
        ⟨hunder.statuses, hunder.through, hunder.bankLines, hunder.budget⟩
      rw [foldl_append]
      exact nothingUnder_create.mpr ((sameUnder_run hops).nothingUnder hafter)

/-- An account that is given another number takes all that is kept of it along, and leaves nothing
for the next account under the old one, exactly where nothing was kept under the old number, or what
was kept was kept under the new one as well and the old one cannot be given again. -/
theorem renumbering_moves_data_iff (ctx : ServiceContext) (chart : ChartOfAccounts)
    (books : ArAp.ArApStores π) (past : List AccountOp) (quickBooksOfRecord : Bool) (code : String)
    (changes : AccountChanges) {current next : Account} :
    let s := past.foldl (AccountBooks.step ctx) (.opening chart books)
    s.chart.getByCode code = some current →
    planAccountEdit current changes (s.editContext ctx quickBooksOfRecord) = .ok next →
    next.code ≠ code →
    (DataMoves ctx s (s.step ctx (.edit quickBooksOfRecord code changes)) current next ↔
      NothingLeftBehind ctx s code next.code) := by
  intro s hcur hplan hcode
  obtain rfl := (getByCode_iff.mp hcur).2
  have hne : next ≠ current := fun heq => hcode (congrArg Account.code heq)
  obtain ⟨hid, chart', hchart⟩ := planAccountEdit_reloads hplan hne
  have hstep : s.step ctx (.edit quickBooksOfRecord current.code changes) =
      { s with chart := chart' } := by
    have hrel : reloaded s.chart next = .ok chart' := hchart
    unfold AccountBooks.step
    dsimp only
    rw [hcur]
    dsimp only
    rw [hplan]
    dsimp only
    rw [if_neg hne, hrel]
    rfl
  rw [hstep]
  exact dataMoves_iff hcur hid hcode hchart

end

/-! A dollar of sales at the bank, and the bank account under another number. -/

namespace Renumbered

def context : ServiceContext where
  tenant := "acme"
  currency := usd
  parseStatement _ := .ok []
  localeLe a b := a ≤ b
  dimensions := []
  jobs := []
  costCodes := []
  autoPost _ := none

def books (ops : List AccountOp) : AccountBooks (InMemoryPeriodStore TenantId PeriodKey) :=
  ops.foldl (AccountBooks.step context) (.opening Kernel.Sample.chart ⟨⟨.empty, .empty⟩, .empty⟩)

def sold : AccountOp :=
  .ledger (.call Kernel.Sample.chart (.post (Kernel.Sample.sale none) ⟨"2026-08-01"⟩))

def changes : AccountChanges := ⟨none, some "1010", none, none, none, none⟩

def renumber : AccountOp := .edit false "1000" changes

/-- The sale is ticked off, and locked in against the statement of August. -/
def lockedIn : List AccountOp :=
  [sold, .toggle "1000" "acme:1" true, .finish "1000" (some "2026-08-31") (some "100")]

def cash : Account := (Kernel.Sample.account "cash" "1000" .asset).stored

def renumberedCash : Account := { cash with code := "1010" }

end Renumbered

open Renumbered in
theorem unticked_account_moves : DataMoves context (books [sold]) (books [sold, renumber]) cash
    renumberedCash := by
  have hcur : (books [sold]).chart.getByCode "1000" = some cash := by decide +kernel
  have hplan : planAccountEdit cash changes ((books [sold]).editContext context false) =
      .ok renumberedCash := by decide +kernel
  refine (renumbering_moves_data_iff context Kernel.Sample.chart
    (⟨⟨.empty, .empty⟩, .empty⟩ : ArAp.ArApStores (InMemoryPeriodStore TenantId PeriodKey)) [sold]
    false "1000" changes hcur hplan (by decide)).mpr ⟨fun _ => rfl, rfl, fun id txn htxn => ?_, fun _ _ h => h, fun _ _ => ?_⟩
  · cases htxn
  · exact ⟨fun _ => rfl, rfl, fun id txn htxn => (nomatch htxn), fun _ => rfl⟩

open Renumbered in
theorem locked_lines_stay_behind : ¬ ∀ ops code changes current next,
    (books ops).chart.getByCode code = some current →
    planAccountEdit current changes ((books ops).editContext context false) = .ok next →
    next.code ≠ code →
    DataMoves context (books ops) (books (ops ++ [.edit false code changes])) current next := by
  intro h
  have hmoves := h lockedIn "1000" changes cash renumberedCash (by decide +kernel)
    (by decide +kernel) (by decide)
  have hbef : ((books lockedIn).recon.statuses "acme" "1000").get? "acme:1" =
      some .reconciled := by decide +kernel
  have hafter : ((books (lockedIn ++ [renumber])).recon.statuses "acme" "1010").get? "acme:1" =
      none := by decide +kernel
  cases hafter.symm.trans ((hmoves.statuses "acme:1").trans hbef)

end Rgnr8.Service.AccountData
