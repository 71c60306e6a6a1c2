import Rgnr8.Kernel.EngineRun
import Rgnr8.Service.Reconcile

/-! Runs of the reconciliation of one bank account. What a finish has locked stays locked, and adds
up to the balance it was finished against until the next finish. -/

namespace Rgnr8.Service.Reconcile
open Lib Lib.Js Fallible Kernel Reconciliation InMemoryReconStore List

/-! What the stores say after a write. -/

namespace InMemoryReconStore
variable (s : InMemoryReconStore) (tenant : TenantId) (code : String)

def statusOf (id : EntryId) : ClearStatus :=
  ((s.statuses tenant code).get? id).getD .uncleared

theorem statuses_setStatus (id : EntryId) (status : ClearStatus) :
    (s.setStatus tenant code id status).statuses tenant code =
      (s.statuses tenant code).set id status := by
  unfold setStatus
  dsimp only
  rw [statuses, OrderedMap.get?_set_self, Option.getD_some]

theorem statusOf_setStatus (id id' : EntryId) (status : ClearStatus) :
    (s.setStatus tenant code id status).statusOf tenant code id' =
      if id' = id then status else s.statusOf tenant code id' := by
  unfold statusOf
  rw [statuses_setStatus, OrderedMap.get?_set]
  by_cases h : id' = id
  · rw [if_pos h, if_pos h, Option.getD_some]
  · rw [if_neg h, if_neg h]

theorem statusOf_setMany (ids : List EntryId) (id' : EntryId) (status : ClearStatus) :
    (s.setMany tenant code ids status).statusOf tenant code id' =
      if id' ∈ ids then status else s.statusOf tenant code id' := by
  induction ids generalizing s with
  | nil => simp [setMany]
  | cons id ids ih =>
    have hcons : s.setMany tenant code (id :: ids) status =
        (s.setStatus tenant code id status).setMany tenant code ids status := rfl
    rw [hcons, ih, statusOf_setStatus]
    by_cases hmem : id' ∈ ids
    · rw [if_pos hmem, if_pos (mem_cons_of_mem _ hmem)]
    · simp only [mem_cons, hmem, or_false, if_false]

theorem through_setMany (ids : List EntryId) (status : ClearStatus) :
    (s.setMany tenant code ids status).through = s.through := by
  induction ids generalizing s with
  | nil => rfl
  | cons id ids ih => exact ih _

def laterOf (through : Option String) (date : String) : String :=
  match through with
  | none => date
  | some prev => if prev = "" ∨ Before prev date then date else prev

theorem reconciledThrough_setReconciledThrough (date : String) :
    (s.setReconciledThrough tenant code date).reconciledThrough tenant code =
      some (laterOf (s.reconciledThrough tenant code) date) := by
  unfold setReconciledThrough laterOf
  cases hprev : s.reconciledThrough tenant code with
  | none => exact OrderedMap.get?_set_self ..
  | some prev =>
    dsimp only
    split_ifs with h
    · exact OrderedMap.get?_set_self ..
    · exact hprev

theorem statusOf_setReconciledThrough (date : String) (id : EntryId) :
    (s.setReconciledThrough tenant code date).statusOf tenant code id =
      s.statusOf tenant code id := by
  unfold setReconciledThrough
  cases s.reconciledThrough tenant code with
  | none => rfl
  | some prev =>
    dsimp only
    split_ifs <;> rfl

theorem statusOf_foldl_setStatus (accountId : AccountId) (id : EntryId)
    (es : List (EntryId × ClearStatus)) (hnd : (es.map Prod.fst).Nodup) (r : ClearedRegister) :
    (es.foldl (fun r e => r.setStatus accountId e.1 e.2) r).statusOf accountId id =
      ((es.find? fun e => e.1 = id).map Prod.snd).getD (r.statusOf accountId id) := by
  induction es generalizing r with
  | nil => rfl
  | cons e es ih =>
    rw [map_cons, nodup_cons] at hnd
    rw [foldl_cons, ih hnd.2, ClearedRegister.statusOf_setStatus]
    by_cases hid : e.1 = id
    · have hrest : es.find? (fun e => e.1 = id) = none := by
        refine find?_eq_none.mpr fun e' he' heq => hnd.1 ?_
        rw [hid, ← of_decide_eq_true heq]
        exact mem_map_of_mem he'
      rw [hrest, if_pos ⟨rfl, hid.symm⟩, find?_cons_of_pos (by simpa using hid)]
      rfl
    · rw [if_neg fun h => hid h.2.symm, find?_cons_of_neg (by simpa using hid)]

theorem statusOf_loadRegister (accountId : AccountId) :
    (loadRegister s tenant accountId code).statusOf accountId = s.statusOf tenant code :=
  funext fun id => statusOf_foldl_setStatus accountId id _ (s.statuses tenant code).nodup .empty

end InMemoryReconStore

/-! Runs. -/

structure BankAccount extends ReconcileContext where
  chart : ChartOfAccounts
  code : String

structure ReconState (π : Type) where
  ledger : Ledger π
  recon : InMemoryReconStore

inductive ReconMove where
  | toggle (entryId : EntryId) (cleared : Bool)
  | importStatement (text : String) (statementDate statementBalance : Option String)
  | finish (statementDate statementBalance : Option String)
  | ledger (op : EngineOp)

namespace ReconState
variable {π : Type} (b : BankAccount) (s : ReconState π)

def opening (periods : π) : ReconState π := ⟨⟨.empty, periods⟩, .empty⟩

def books : ReconcileBooks := ⟨b.chart, s.ledger.store.list b.tenant, s.recon⟩

def write (recon : InMemoryReconStore) : ReconState π := { s with recon := recon }

def finish (date balance : Option String) :
    Except ReconcileFailure (FinishResult × InMemoryReconStore) :=
  finishReconciliation b.toReconcileContext (s.books b) b.code date balance

def step [PeriodStore π] (b : BankAccount) (s : ReconState π) : ReconMove → ReconState π
  | .toggle entryId cleared =>
    match toggleCleared b.toReconcileContext (s.books b) b.code entryId cleared with
    | .ok recon => s.write recon
    | .error _ => s
  | .importStatement text date balance =>
    s.write (importStatement b.toReconcileContext (s.books b) b.code text date balance).2
  | .finish date balance =>
    match s.finish b date balance with
    | .ok (_, recon) => s.write recon
    | .error _ => s
  | .ledger op => { s with ledger := s.ledger.step op }

def lines : Except ReconcileFailure (List RegisterLine) := do
  let account ← resolveAccount b.chart b.code
  register b.toReconcileContext (s.books b) account b.code

def status (id : EntryId) : ClearStatus := s.recon.statusOf b.tenant b.code id

def through : Option String := s.recon.reconciledThrough b.tenant b.code

def journal : List PostedEntry := s.ledger.store.list b.tenant

def LocksIn : ReconMove → Prop
  | .finish date balance => ∃ r, s.finish b date balance = .ok r
  | _ => False

def NoneAfter : Prop :=
  ∀ lines, s.lines b = .ok lines → ∀ l ∈ lines, l.status = .reconciled →
    ∃ date, s.through b = some date ∧ ¬ Before date l.date

def TicksInTime : ReconMove → Prop
  | .finish date balance => ∀ r, s.finish b date balance = .ok r →
      ∀ lines, s.lines b = .ok lines → ∀ l ∈ lines, l.status = .cleared →
        ¬ Before (InMemoryReconStore.laterOf (s.through b) r.1.statementDate) l.date
  | _ => True

end ReconState

variable {π : Type} {b : BankAccount} {s : ReconState π} {lines : List RegisterLine}

theorem resolveAccount_ok {chart : ChartOfAccounts} {code : String} {account : Account}
    (h : resolveAccount chart code = .ok account) : chart.getByCode code = some account := by
  unfold resolveAccount at h
  cases hget : chart.getByCode code with
  | none =>
    rw [hget] at h
    cases h
  | some a =>
    rw [hget] at h
    rw [Except.ok.inj h]

theorem lines_ok (h : s.lines b = .ok lines) : ∃ account,
    b.chart.getByCode b.code = some account ∧ bankRegister (s.journal b) account.id b.currency
      (loadRegister s.recon b.tenant account.id b.code) = .ok lines := by
  obtain ⟨account, hacc, h⟩ := bind_eq_ok.mp h
  exact ⟨account, resolveAccount_ok hacc, mapError_eq_ok.mp h⟩

theorem mem_lines {account : Account} (hacc : b.chart.getByCode b.code = some account)
    (h : s.lines b = .ok lines) {l : RegisterLine} :
    l ∈ lines ↔ ∃ e ∈ s.journal b, netOf account.id e ≠ 0 ∧
      RegisterLine.mk e.id account.id e.entryDate ⟨netOf account.id e, b.currency⟩
        (e.memo.getD "") (s.status b e.id) = l := by
  obtain ⟨account', hacct', hlines⟩ := lines_ok h
  obtain rfl := Option.some.inj (hacct'.symm.trans hacc)
  rw [mem_bankRegister hlines]
  unfold registerLine
  rw [statusOf_loadRegister]
  rfl

theorem sumOf_lines {account : Account} (hacc : b.chart.getByCode b.code = some account)
    (h : s.lines b = .ok lines) (status : ClearStatus) :
    sumOf status lines = held (s.status b) account.id status (s.journal b) := by
  obtain ⟨account', hacct', hlines⟩ := lines_ok h
  obtain rfl := Option.some.inj (hacct'.symm.trans hacc)
  rw [sumOf_bankRegister hlines, statusOf_loadRegister]
  rfl

theorem lines_write (recon : InMemoryReconStore) (h : s.lines b = .ok lines) :
    ∃ lines', (s.write recon).lines b = .ok lines' := by
  obtain ⟨account, hacc, hreg⟩ := bind_eq_ok.mp h
  obtain ⟨lines', hlines'⟩ := bankRegister_of_ok
    (loadRegister recon b.tenant account.id b.code) (mapError_eq_ok.mp hreg)
  exact ⟨lines', bind_eq_ok.mpr ⟨account, hacc, mapError_eq_ok.mpr hlines'⟩⟩

def ticked (lines : List RegisterLine) : List EntryId :=
  (lines.filter fun l => l.status = .cleared).map RegisterLine.entryId

/-- What a finish that goes through has found and writes. -/
structure Finished (b : BankAccount) (s : ReconState π) (date balance : Option String)
    (lines : List RegisterLine) (r : FinishResult × InMemoryReconStore) : Prop where
  drawn : s.lines b = .ok lines
  sum : ∀ m, parseBalance balance b.currency = .ok m →
    sumOf .reconciled lines + sumOf .cleared lines = m.minorUnits
  recon : r.2 = (s.recon.setMany b.tenant b.code (ticked lines) .reconciled).setReconciledThrough
    b.tenant b.code r.1.statementDate

variable {r : FinishResult × InMemoryReconStore} {balance date : Option String} {m : ReconMove}

theorem finished (h : s.finish b date balance = .ok r) :
    ∃ lines, Finished b s date balance lines r := by
  simp only [ReconState.finish, finishReconciliation, bind_eq_ok] at h
  obtain ⟨account, hacc, day, -, amount, hamt, lines, hlines, recon, hrecon, h⟩ := h
  have hses := sessionOf (mapError_eq_ok.mp hrecon)
  unfold finishManualReconciliation at h
  by_cases hcan : recon.canFinish = true
  · rw [if_neg (not_not.mpr hcan)] at h
    obtain rfl := Except.ok.inj h
    have hzero := of_decide_eq_true (hses.canFinish.symm.trans hcan)
    refine ⟨lines, ⟨?_, fun m hm => ?_, ?_⟩⟩
    · exact bind_eq_ok.mpr ⟨account, hacc, hlines⟩
    · have hdiff := hses.difference
      rw [Except.ok.inj (hm.symm.trans hamt)]
      omega
    · dsimp only
      rw [hses.ids]
      rfl
  · rw [if_pos hcan] at h
    cases h

inductive Moved (b : BankAccount) (s : ReconState π) : ReconMove → ReconState π → Prop
  | refused (m : ReconMove) (hnot : ¬ s.LocksIn b m) : Moved b s m s
  | toggled {entryId : EntryId} {cleared : Bool} (hknown : ∃ e ∈ s.journal b, e.id = entryId)
      (hopen : s.status b entryId ≠ .reconciled) :
      Moved b s (.toggle entryId cleared) (s.write (s.recon.setStatus b.tenant b.code entryId
        (if cleared then .cleared else .uncleared)))
  | imported {text : String} {date balance : Option String} {ids : List EntryId}
      (hopen : ∀ id ∈ ids, (∃ e ∈ s.journal b, e.id = id) ∧ s.status b id ≠ .reconciled) :
      Moved b s (.importStatement text date balance)
        (s.write (s.recon.setMany b.tenant b.code ids .cleared))
  | lockedIn {date balance : Option String} {lines : List RegisterLine}
      {r : FinishResult × InMemoryReconStore} (hok : s.finish b date balance = .ok r)
      (h : Finished b s date balance lines r) :
      Moved b s (.finish date balance) (s.write r.2)
  | posted {op : EngineOp} {ledger : Ledger π} (h : s.ledger.store.Grows ledger.store) :
      Moved b s (.ledger op) { s with ledger := ledger }

variable [PeriodStore π]

theorem ledgerStep_grows (ledger : Ledger π) (op : EngineOp) :
    ledger.store.Grows (ledger.step op).store := by
  cases op with
  | call coa c => exact Books.perform_grows ⟨coa, ledger⟩ c
  | periods op => exact .refl _

theorem moved (b : BankAccount) (s : ReconState π) (m : ReconMove) : Moved b s m (s.step b m) := by
  cases m with
  | toggle entryId cleared =>
    show Moved b s _ (match toggleCleared b.toReconcileContext (s.books b) b.code entryId cleared with
      | .ok recon => s.write recon
      | .error _ => s)
    cases htog : toggleCleared b.toReconcileContext (s.books b) b.code entryId cleared with
    | error e => exact .refused (.toggle entryId cleared) fun h => h
    | ok recon =>
      simp only [toggleCleared, bind_eq_ok, refuse_eq_ok] at htog
      obtain ⟨account, -, -, hlkd, lines, hlines, hknown, hrecon⟩ := htog
      obtain rfl := Except.ok.inj hrecon
      refine .toggled ?_ ?_
      · obtain ⟨l, hl, hid⟩ := any_eq_true.mp (not_not.mp hknown)
        obtain ⟨e, he, -, rfl⟩ := (mem_bankRegister (mapError_eq_ok.mp hlines)).mp hl
        exact ⟨e, he, of_decide_eq_true hid⟩
      · intro hstatus
        unfold ReconState.status statusOf at hstatus
        cases hget : (s.recon.statuses b.tenant b.code).get? entryId with
        | none =>
          rw [hget] at hstatus
          cases hstatus
        | some status =>
          rw [hget] at hstatus
          exact hlkd (hget.trans (congrArg some hstatus))
  | importStatement text date balance =>
    show Moved b s _
      (s.write (importStatement b.toReconcileContext (s.books b) b.code text date balance).2)
    unfold importStatement
    cases himp : matchStatement b.toReconcileContext (s.books b) b.code text date balance with
    | error e => exact .refused (.importStatement text date balance) fun h => h
    | ok imported =>
      simp only [matchStatement, bind_eq_ok, refuse_eq_ok] at himp
      obtain ⟨account, -, day, -, closing, -, -, parsed, -, -, lines, -, recon, hrecon, hok⟩ :=
        himp
      obtain rfl := Except.ok.inj hok
      refine .imported fun id hid => ?_
      have hopen := newlyCleared_open (mapError_eq_ok.mp hrecon) hid
      have hstatus := statusOf_loadRegister s.recon b.tenant b.code account.id
      exact ⟨hopen.1, fun h => hopen.2 ((congrFun hstatus id).trans h)⟩
  | finish date balance =>
    show Moved b s _ (match s.finish b date balance with
      | .ok (_, recon) => s.write recon
      | .error _ => s)
    cases hfinish : s.finish b date balance with
    | error e =>
      refine .refused _ ?_
      rintro ⟨r, hr⟩
      rw [hfinish] at hr
      cases hr
    | ok r =>
      obtain ⟨lines, h⟩ := finished hfinish
      exact .lockedIn hfinish h
  | ledger op => exact .posted (ledgerStep_grows s.ledger op)

theorem step_finish (h : s.finish b date balance = .ok r) :
    s.step b (.finish date balance) = s.write r.2 := by
  unfold ReconState.step
  dsimp only
  rw [h]

/-! What holds in every state reached. -/

def Known (b : BankAccount) (s : ReconState π) : Prop :=
  ∀ id, s.status b id ≠ .uncleared → ∃ e ∈ s.journal b, e.id = id

omit [PeriodStore π] in
theorem status_lockedIn (h : Finished b s date balance lines r) (id : EntryId) :
    (s.write r.2).status b id = if id ∈ ticked lines then .reconciled else s.status b id := by
  unfold ReconState.status ReconState.write
  dsimp only
  rw [h.recon, statusOf_setReconciledThrough, statusOf_setMany]

omit [PeriodStore π] in
theorem through_lockedIn (h : Finished b s date balance lines r) : (s.write r.2).through b =
      some (InMemoryReconStore.laterOf (s.through b) r.1.statementDate) := by
  unfold ReconState.through ReconState.write
  dsimp only
  rw [h.recon, reconciledThrough_setReconciledThrough]
  unfold reconciledThrough
  rw [through_setMany]

omit [PeriodStore π] in
theorem mem_ticked {account : Account} (hacc : b.chart.getByCode b.code = some account)
    (h : s.lines b = .ok lines) {id : EntryId} :
    id ∈ ticked lines ↔ s.status b id = .cleared ∧
      ∃ e ∈ s.journal b, netOf account.id e ≠ 0 ∧ e.id = id := by
  unfold ticked
  rw [mem_map]
  simp only [mem_filter, decide_eq_true_eq]
  constructor
  · rintro ⟨l, ⟨hl, hstatus⟩, rfl⟩
    obtain ⟨e, he, hnet, rfl⟩ := (mem_lines hacc h).mp hl
    exact ⟨hstatus, e, he, hnet, rfl⟩
  · rintro ⟨hstatus, e, he, hnet, rfl⟩
    exact ⟨_, ⟨(mem_lines hacc h).mpr ⟨e, he, hnet, rfl⟩, hstatus⟩, rfl⟩

/-- What a move leaves of the statuses and of the journal. -/
structure Keeps (b : BankAccount) (s s' : ReconState π) : Prop where
  locked : ∀ id, s.status b id = .reconciled → s'.status b id = .reconciled
  grows : s.ledger.store.Grows s'.ledger.store
  known : Known b s → Known b s'
  through : ∀ date, s.through b = some date →
    ∃ date', s'.through b = some date' ∧ ¬ Before date' date

omit [PeriodStore π] in
theorem Keeps.refl (b : BankAccount) (s : ReconState π) : Keeps b s s :=
  ⟨fun _ h => h, .refl _, fun h => h, fun date h => ⟨date, h, lt_irrefl _⟩⟩

omit [PeriodStore π] in
theorem Keeps.trans {s' s'' : ReconState π} (h : Keeps b s s') (h' : Keeps b s' s'') :
    Keeps b s s'' where
  locked := fun id hid => h'.locked id (h.locked id hid)
  grows := h.grows.trans h'.grows
  known := fun hs => h'.known (h.known hs)
  through := by
    intro date hdate
    obtain ⟨date', hdate', hle⟩ := h.through date hdate
    obtain ⟨date'', hdate'', hle'⟩ := h'.through date' hdate'
    exact ⟨date'', hdate'', not_lt.mpr ((not_lt.mp hle).trans (not_lt.mp hle'))⟩

theorem not_before_laterOf (prev date : String) :
    ¬ Before (InMemoryReconStore.laterOf (some prev) date) prev := by
  unfold laterOf
  dsimp only
  split_ifs with h
  · rcases h with rfl | h
    · exact fun h => not_lt_nil _ h
    · exact lt_asymm h
  · exact lt_irrefl _

theorem keeps (b : BankAccount) (s : ReconState π) (m : ReconMove) : Keeps b s (s.step b m) := by
  have hmov := moved b s m
  generalize s.step b m = s' at hmov
  cases hmov with
  | refused m => exact .refl b s
  | toggled hknown hopen =>
    rename_i entryId cleared
    have hstatus : ∀ id, (s.write (s.recon.setStatus b.tenant b.code entryId
        (if cleared then .cleared else .uncleared))).status b id =
          if id = entryId then (if cleared then .cleared else .uncleared) else s.status b id :=
      fun id => statusOf_setStatus ..
    refine ⟨fun id hid => ?_, .refl _, fun hs id hid => ?_, fun date h => ⟨date, h, lt_irrefl _⟩⟩
    · rw [hstatus, if_neg]
      · exact hid
      · rintro rfl
        exact hopen hid
    · rw [hstatus] at hid
      by_cases heq : id = entryId
      · exact heq ▸ hknown
      · rw [if_neg heq] at hid
        exact hs id hid
  | imported hopen =>
    rename_i text date balance ids
    have hstatus : ∀ id, (s.write (s.recon.setMany b.tenant b.code ids .cleared)).status b id =
        if id ∈ ids then .cleared else s.status b id :=
      fun id => statusOf_setMany ..
    refine ⟨fun id hid => ?_, .refl _, fun hs id hid => ?_, fun date h => ⟨date, ?_, lt_irrefl _⟩⟩
    · rw [hstatus, if_neg]
      · exact hid
      · exact fun hmem => (hopen id hmem).2 hid
    · rw [hstatus] at hid
      by_cases hmem : id ∈ ids
      · exact (hopen id hmem).1
      · rw [if_neg hmem] at hid
        exact hs id hid
    · unfold ReconState.through reconciledThrough ReconState.write
      dsimp only
      rw [through_setMany]
      exact h
  | lockedIn hok h =>
    rename_i date balance lines r
    obtain ⟨account, hacc, -⟩ := lines_ok h.drawn
    refine ⟨fun id hid => ?_, .refl _, fun hs id hid => ?_, fun date hdate => ⟨_, through_lockedIn h, ?_⟩⟩
    · rw [status_lockedIn h, hid, ite_self]
    · rw [status_lockedIn h] at hid
      by_cases hmem : id ∈ ticked lines
      · obtain ⟨-, e, he, -, heq⟩ := (mem_ticked hacc h.drawn).mp hmem
        exact ⟨e, he, heq⟩
      · rw [if_neg hmem] at hid
        exact hs id hid
    · rw [hdate]
      exact not_before_laterOf date _
  | posted hgrows =>
    refine ⟨fun _ h => h, hgrows, fun hs id hid => ?_, fun date h => ⟨date, h, lt_irrefl _⟩⟩
    obtain ⟨e, he, heq⟩ := hs id hid
    exact ⟨e, hgrows.mem he, heq⟩

theorem keeps_run (b : BankAccount) (s : ReconState π) (ms : List ReconMove) :
    Keeps b s (ms.foldl (ReconState.step b) s) :=
  foldl_rel (Keeps.refl b) (fun _ _ _ h h' => h.trans h') (keeps b) s ms

theorem known_run (b : BankAccount) (periods : π) (ms : List ReconMove) :
    Known b (ms.foldl (ReconState.step b) (.opening periods)) :=
  (keeps_run b _ ms).known fun _ h => absurd rfl h

/-! What is locked in. -/

def lockedSum (b : BankAccount) (accountId : AccountId) (s : ReconState π) : Int :=
  held (s.status b) accountId .reconciled (s.journal b)

theorem ids_of_grown {store store' : InMemoryLedgerStore} {t : TenantId} {more : List PostedEntry}
    (h : store'.list t = store.list t ++ more) {e e' : PostedEntry} (he : e ∈ store.list t)
    (he' : e' ∈ more) : e.id ≠ e'.id := by
  intro hid
  have hmem : e ∈ store'.list t := h ▸ mem_append_left _ he
  have hmem' : e' ∈ store'.list t := h ▸ mem_append_right _ he'
  have hget := InMemoryLedgerStore.getById_iff.mpr ⟨hmem, rfl⟩
  have hget' := InMemoryLedgerStore.getById_iff.mpr ⟨hmem', hid.symm⟩
  obtain rfl := Option.some.inj (hget.symm.trans hget')
  have hnd := InMemoryLedgerStore.nodup_list store' t
  rw [h] at hnd
  exact disjoint_of_nodup_append hnd he he'

omit [PeriodStore π] in
theorem uncleared_of_grown (s' : ReconState π) (hs : Known b s)
    (hgrows : s.ledger.store.Grows s'.ledger.store) (hrecon : s'.recon = s.recon) :
    ∃ more, s'.journal b = s.journal b ++ more ∧ ∀ e ∈ more, s'.status b e.id = .uncleared := by
  obtain ⟨more, hmore⟩ := hgrows b.tenant
  refine ⟨more, hmore.symm, fun e he => ?_⟩
  by_contra hstatus
  have hsame : s'.status b e.id = s.status b e.id := by
    unfold ReconState.status
    rw [hrecon]
  obtain ⟨e', he', hid⟩ := hs e.id (hsame ▸ hstatus)
  exact ids_of_grown hmore.symm he' he hid

theorem lockedSum_step (hs : Known b s) (hnot : ¬ s.LocksIn b m) (accountId : AccountId) :
    lockedSum b accountId (s.step b m) = lockedSum b accountId s := by
  have hmov := moved b s m
  generalize s.step b m = s' at hmov
  cases hmov with
  | refused m hnot => rfl
  | toggled hknown hopen =>
    rename_i entryId cleared
    refine held_congr fun e _ => ?_
    unfold ReconState.status ReconState.write
    dsimp only
    rw [statusOf_setStatus]
    by_cases heq : e.id = entryId
    · rw [if_pos heq, heq]
      refine iff_of_false ?_ hopen
      cases cleared <;> exact nofun
    · rw [if_neg heq]
  | imported hopen =>
    rename_i text date balance ids
    refine held_congr fun e _ => ?_
    unfold ReconState.status ReconState.write
    dsimp only
    rw [statusOf_setMany]
    by_cases hmem : e.id ∈ ids
    · rw [if_pos hmem]
      exact iff_of_false nofun (hopen _ hmem).2
    · rw [if_neg hmem]
  | lockedIn hok h => exact absurd ⟨_, hok⟩ hnot
  | posted hgrows =>
    rename_i op ledger
    obtain ⟨more, hjnl, hopen⟩ :=
      uncleared_of_grown { s with ledger := ledger } hs hgrows rfl
    unfold lockedSum
    rw [hjnl, held_append]
    have hzero : held (ReconState.status b { s with ledger := ledger }) accountId .reconciled
        more = 0 := by
      refine sum_eq_zero fun n hn => ?_
      obtain ⟨e, he, rfl⟩ := mem_map.mp hn
      rw [hopen e he]
      exact if_neg nofun
    rw [hzero, Int.add_zero]
    rfl

omit [PeriodStore π] in
theorem lockedSum_lockedIn {account : Account} {m : Money}
    (hacc : b.chart.getByCode b.code = some account) (h : Finished b s date balance lines r)
    (hm : parseBalance balance b.currency = .ok m) :
    lockedSum b account.id (s.write r.2) = m.minorUnits := by
  rw [← h.sum m hm, sumOf_lines hacc h.drawn, sumOf_lines hacc h.drawn]
  unfold lockedSum held
  rw [← sum_map_add]
  refine congrArg sum (map_congr_left fun e he => ?_)
  rw [status_lockedIn h]
  by_cases hzero : netOf account.id e = 0
  · simp only [hzero, ite_self, Int.add_zero]
  · have hmem : e.id ∈ ticked lines ↔ s.status b e.id = .cleared :=
      (mem_ticked hacc h.drawn).trans (and_iff_left ⟨e, he, hzero, rfl⟩)
    cases hstatus : s.status b e.id with
    | uncleared => simp [hmem, hstatus]
    | cleared => simp [hmem, hstatus]
    | reconciled => simp [hmem, hstatus]

theorem lockedSum_run {accountId : AccountId} {n : Int} (hs : Known b s)
    (hsum : lockedSum b accountId s = n) {more : List ReconMove}
    (hnone : EachStep (ReconState.step b) (fun t m => ¬ t.LocksIn b m) s more) :
    lockedSum b accountId (more.foldl (ReconState.step b) s) = n := by
  have halong := along_of_eachStep
    (G := fun t : ReconState π => Known b t ∧ lockedSum b accountId t = n)
    (fun t m h hnot => ⟨(keeps b t m).known h.1, (lockedSum_step h.1 hnot accountId).trans h.2⟩)
    ⟨hs, hsum⟩ hnone
  exact (halong more prefix_rfl).2

/-! Dates. -/

def LockedInTime (b : BankAccount) (s : ReconState π) : Prop :=
  ∀ account, b.chart.getByCode b.code = some account → ∀ e ∈ s.journal b,
    netOf account.id e ≠ 0 → s.status b e.id = .reconciled →
      ∃ date, s.through b = some date ∧ ¬ Before date e.entryDate

omit [PeriodStore π] in
theorem noneAfter_of_lockedInTime (h : LockedInTime b s) : s.NoneAfter b := by
  intro lines hlines l hl hstatus
  obtain ⟨account, hacc, -⟩ := lines_ok hlines
  obtain ⟨e, he, hnet, rfl⟩ := (mem_lines hacc hlines).mp hl
  exact h account hacc e he hnet hstatus

theorem lockedInTime_step (hs : Known b s) (h : LockedInTime b s) (hticks : s.TicksInTime b m) :
    LockedInTime b (s.step b m) := by
  intro account hacc e he hnet hstatus
  have hkeeps := keeps b s m
  have hmov := moved b s m
  generalize s.step b m = s' at he hstatus hkeeps hmov
  -- what was locked in already was so in time, and the date has not moved back since
  have hbef : e ∈ s.journal b → s.status b e.id = .reconciled →
      ∃ date, s'.through b = some date ∧ ¬ Before date e.entryDate := by
    intro he hstatus
    obtain ⟨date, hdate, hle⟩ := h account hacc e he hnet hstatus
    obtain ⟨date', hdate', hle'⟩ := hkeeps.through date hdate
    exact ⟨date', hdate', not_lt.mpr ((not_lt.mp hle).trans (not_lt.mp hle'))⟩
  cases hmov with
  | refused m hnot => exact hbef he hstatus
  | toggled hknown hopen =>
    refine hbef he ?_
    by_contra hnot
    have hset := statusOf_setStatus s.recon b.tenant b.code
    unfold ReconState.status ReconState.write at hstatus
    dsimp only at hstatus
    rw [hset] at hstatus
    split_ifs at hstatus
    exact hnot hstatus
  | imported hopen =>
    refine hbef he ?_
    unfold ReconState.status ReconState.write at hstatus
    dsimp only at hstatus
    rw [statusOf_setMany] at hstatus
    split_ifs at hstatus
    exact hstatus
  | lockedIn hok hfin =>
    rename_i date balance lines r
    rw [status_lockedIn hfin] at hstatus
    split_ifs at hstatus with hmem
    · obtain ⟨hclear, -⟩ := (mem_ticked hacc hfin.drawn).mp hmem
      have hl := (mem_lines hacc hfin.drawn).mpr ⟨e, he, hnet, rfl⟩
      exact ⟨_, through_lockedIn hfin,
        hticks r hok lines hfin.drawn _ hl hclear⟩
    · exact hbef he hstatus
  | posted hgrows =>
    rename_i op ledger
    obtain ⟨more, hjnl, hopen⟩ :=
      uncleared_of_grown { s with ledger := ledger } hs hgrows rfl
    rw [hjnl] at he
    rcases mem_append.mp he with he | he
    · exact hbef he hstatus
    · rw [hopen e he] at hstatus
      cases hstatus

theorem not_noneAfter_step (hticks : ¬ s.TicksInTime b m) : ¬ (s.step b m).NoneAfter b := by
  cases m with
  | toggle entryId cleared => exact absurd trivial hticks
  | importStatement text date balance => exact absurd trivial hticks
  | ledger op => exact absurd trivial hticks
  | finish date balance =>
    simp only [ReconState.TicksInTime, not_forall, not_not] at hticks
    obtain ⟨r, hok, lines, hlines, l, hl, hclear, hlate⟩ := hticks
    obtain ⟨lines', hfin⟩ := finished hok
    rw [Except.ok.inj (hfin.drawn.symm.trans hlines)] at hfin
    rw [step_finish hok]
    intro h
    obtain ⟨account, hacc, -⟩ := lines_ok hlines
    obtain ⟨after, hafter⟩ := lines_write r.2 hlines
    obtain ⟨e, he, hnet, rfl⟩ := (mem_lines hacc hlines).mp hl
    have hmem : e.id ∈ ticked lines := (mem_ticked hacc hlines).mpr ⟨hclear, e, he, hnet, rfl⟩
    have hl' := (mem_lines hacc hafter).mpr ⟨e, he, hnet, rfl⟩
    have hlkd : (s.write r.2).status b e.id = .reconciled := by
      rw [status_lockedIn hfin, if_pos hmem]
    obtain ⟨day, hday, hle⟩ := h after hafter _ hl' hlkd
    rw [through_lockedIn hfin] at hday
    rw [← Option.some.inj hday] at hle
    exact hle hlate

omit [PeriodStore π] in
theorem mem_lines_of_keeps {s' : ReconState π} {lines' : List RegisterLine} (h : Keeps b s s')
    (hlines : s.lines b = .ok lines) (hlines' : s'.lines b = .ok lines') {l : RegisterLine}
    (hl : l ∈ lines) (hlkd : l.status = .reconciled) : l ∈ lines' := by
  obtain ⟨account, hacc, -⟩ := lines_ok hlines
  obtain ⟨e, he, hnet, rfl⟩ := (mem_lines hacc hlines).mp hl
  have hstatus : s'.status b e.id = s.status b e.id := (h.locked e.id hlkd).trans hlkd.symm
  exact (mem_lines hacc hlines').mpr ⟨e, h.grows.mem he, hnet, by rw [hstatus]⟩

/-- What a finish has locked in stays so as it was, and comes to the balance of its statement until
the next finish; the reconciled-through date never moves back. No line dated after that date is
locked in, throughout exactly those runs whose finishes find no ticked line dated after both their
statement date and the reconciled-through date. -/
theorem reconciliation_stays_finished (b : BankAccount) (periods : π) (past : List ReconMove) :
    let s := past.foldl (ReconState.step b) (ReconState.opening periods)
    (∀ more : List ReconMove, let s' := more.foldl (ReconState.step b) s
      (∀ lines lines', s.lines b = .ok lines → s'.lines b = .ok lines' →
        ∀ l ∈ lines, l.status = .reconciled → l ∈ lines') ∧
      ∀ date, s.through b = some date → ∃ date', s'.through b = some date' ∧ ¬ Before date' date) ∧
    (∀ date balance m more, s.LocksIn b (.finish date balance) →
      parseBalance balance b.currency = .ok m →
      let s' := s.step b (.finish date balance)
      EachStep (ReconState.step b) (fun t move => ¬ t.LocksIn b move) s' more →
      ∀ lines, (more.foldl (ReconState.step b) s').lines b = .ok lines →
        sumOf .reconciled lines = m.minorUnits) ∧
    (Along (ReconState.step b) (ReconState.NoneAfter b) (.opening periods) past ↔
      EachStep (ReconState.step b) (ReconState.TicksInTime b) (.opening periods) past) := by
  intro s
  have hknown : Known b s := known_run b periods past
  refine ⟨?_, ?_, ?_⟩
  · intro more s'
    have hkeeps : Keeps b s s' := keeps_run b s more
    exact ⟨fun _ _ hlines hlines' _ hl hlkd =>
      mem_lines_of_keeps hkeeps hlines hlines' hl hlkd, hkeeps.through⟩
  · intro date balance m more hlocks hm s' hnone lines hlines
    obtain ⟨r, hok⟩ := hlocks
    obtain ⟨found, hfin⟩ := finished hok
    have hstep : s' = s.write r.2 := step_finish hok
    obtain ⟨account, hacc, -⟩ := lines_ok hfin.drawn
    have hsum : lockedSum b account.id s' = m.minorUnits := by
      rw [hstep]
      exact lockedSum_lockedIn hacc hfin hm
    have hknown' : Known b s' := (keeps b s _).known hknown
    exact (sumOf_lines hacc hlines _).trans (lockedSum_run hknown' hsum hnone)
  · have hopn : LockedInTime b (ReconState.opening periods) := fun _ _ e he => by
      exact absurd he not_mem_nil
    exact along_iff_eachStep (J := fun t => Known b t ∧ LockedInTime b t)
      (fun t move h _ hticks =>
        have hint := lockedInTime_step h.1 h.2 hticks
        ⟨⟨(keeps b t move).known h.1, hint⟩, noneAfter_of_lockedInTime hint⟩)
      (fun t move _ _ hticks => not_noneAfter_step hticks)
      ⟨fun _ h => absurd rfl h, hopn⟩ (noneAfter_of_lockedInTime hopn) past

/-! A dollar of sales at the bank, against a statement of the end of August. -/

namespace Passbook

def account : BankAccount := ⟨⟨"acme", usd, fun _ => .ok []⟩, Kernel.Sample.chart, "1000"⟩

def sold (key date : String) : ReconMove :=
  .ledger (.call Kernel.Sample.chart
    (.post { Kernel.Sample.sale none with idempotencyKey := key, entryDate := date } ⟨date⟩))

def atEndOfAugust : ReconMove := .finish (some "2026-08-31") (some "100")

def books (moves : List ReconMove) : ReconState (InMemoryPeriodStore TenantId PeriodKey) :=
  moves.foldl (ReconState.step account) (.opening .empty)

def ticking (date : String) : List ReconMove := [sold "s1" date, .toggle "acme:1" true]

end Passbook

theorem exists_ok_of_isSome {ε α : Type} {x : Except ε α} (h : x.toOption.isSome = true) :
    ∃ a, x = .ok a := by
  cases x with
  | error e => cases h
  | ok a => exact ⟨a, rfl⟩

open Passbook in
theorem august_stays_at_its_balance : ∃ lines,
    (books (ticking "2026-08-01" ++ [atEndOfAugust, sold "s2" "2026-08-31"])).lines account =
      .ok lines ∧ sumOf .reconciled lines = 100 := by
  have hlocks : (books (ticking "2026-08-01")).LocksIn account atEndOfAugust :=
    exists_ok_of_isSome (by decide +kernel)
  have hbalance : parseBalance (some "100") account.currency = .ok ⟨100, usd⟩ := by decide +kernel
  obtain ⟨lines, hlines⟩ : ∃ lines, (books (ticking "2026-08-01" ++
      [atEndOfAugust, sold "s2" "2026-08-31"])).lines account = .ok lines :=
    exists_ok_of_isSome (by decide +kernel)
  refine ⟨lines, hlines, ?_⟩
  unfold books at hlocks hlines
  rw [foldl_append] at hlines
  have hstays := reconciliation_stays_finished account
    (.empty : InMemoryPeriodStore TenantId PeriodKey) (ticking "2026-08-01")
  exact hstays.2.1 (some "2026-08-31") (some "100") ⟨100, usd⟩ [sold "s2" "2026-08-31"] hlocks
    hbalance (eachStep_cons.mpr ⟨fun h => h, eachStep_nil⟩) lines hlines

open Passbook in
theorem september_is_locked_in_august : ¬ ∀ moves, (books moves).NoneAfter account := by
  intro h
  let line : RegisterLine := ⟨"acme:1", "cash", "2026-09-02", ⟨100, usd⟩, "", .reconciled⟩
  have hlines : (books (ticking "2026-09-02" ++ [atEndOfAugust])).lines account = .ok [line] := by
    decide +kernel
  have hnone := h (ticking "2026-09-02" ++ [atEndOfAugust])
  obtain ⟨date, hdate, hnot⟩ := hnone [line] hlines line mem_cons_self rfl
  have hthru : (books (ticking "2026-09-02" ++ [atEndOfAugust])).through account =
      some "2026-08-31" := by
    decide +kernel
  rw [← Option.some.inj (hthru.symm.trans hdate)] at hnot
  exact hnot (by decide +kernel)

end Rgnr8.Service.Reconcile
