import Rgnr8.Reconciliation.Match
import Mathlib.Algebra.Order.Group.Int

/-! Reconciling a bank account against its ledger register. The journal is append-only, so the
status of an entry lives beside it, and a register line reads both. -/

namespace Rgnr8.Reconciliation
open Lib Lib.Js Kernel List Except

inductive ClearStatus where
  | uncleared | cleared | reconciled
  deriving DecidableEq

structure RegisterLine where
  entryId : EntryId
  accountId : AccountId
  date : String
  amount : Money
  memo : String
  status : ClearStatus
  deriving DecidableEq

/-- What is not in it is uncleared. -/
structure ClearedRegister where
  byAccount : OrderedMap AccountId (OrderedMap EntryId ClearStatus)
  through : OrderedMap AccountId String

namespace ClearedRegister

def empty : ClearedRegister := ⟨.empty, .empty⟩

variable (r : ClearedRegister) (accountId : AccountId)

def acct : OrderedMap EntryId ClearStatus :=
  (r.byAccount.get? accountId).getD .empty

def statusOf (entryId : EntryId) : ClearStatus :=
  ((r.acct accountId).get? entryId).getD .uncleared

def setStatus (entryId : EntryId) (status : ClearStatus) : ClearedRegister :=
  { r with byAccount := r.byAccount.set accountId ((r.acct accountId).set entryId status) }

def markReconciled (entryIds : List EntryId) (throughDate : String) : ClearedRegister where
  byAccount := r.byAccount.set accountId
    (entryIds.foldl (fun m id => m.set id .reconciled) (r.acct accountId))
  through := match r.through.get? accountId with
    | none => r.through.set accountId throughDate
    | some prev => if prev = "" ∨ Before prev throughDate then r.through.set accountId throughDate
      else r.through

def reconciledThrough : Option String :=
  r.through.get? accountId

theorem statusOf_setStatus (a a' : AccountId) (id id' : EntryId) (status : ClearStatus) :
    (r.setStatus a id status).statusOf a' id' =
      if a' = a ∧ id' = id then status else r.statusOf a' id' := by
  unfold statusOf setStatus acct
  dsimp only
  rw [OrderedMap.get?_set]
  by_cases ha : a' = a
  · subst ha
    rw [if_pos rfl, Option.getD_some, OrderedMap.get?_set]
    by_cases hid : id' = id
    · rw [if_pos hid, if_pos ⟨rfl, hid⟩]
      rfl
    · rw [if_neg hid, if_neg fun h => hid h.2]
  · rw [if_neg ha, if_neg fun h => ha h.1]

end ClearedRegister

def netStep (accountId : AccountId) (net : Money) (line : PostedLine) : Except MoneyError Money :=
  if line.accountId ≠ accountId then .ok net
  else match line.side with
    | .debit => net.plus line.amount
    | .credit => net.minus line.amount

def netOnAccount (entry : PostedEntry) (accountId : AccountId) (currency : Currency) :
    Except MoneyError Money :=
  entry.lines.foldlM (netStep accountId) (.zero currency)

def registerLine (entry : PostedEntry) (accountId : AccountId) (net : Money)
    (register : ClearedRegister) : RegisterLine where
  entryId := entry.id
  accountId := accountId
  date := entry.entryDate
  amount := net
  memo := entry.memo.getD ""
  status := register.statusOf accountId entry.id

def registerLines (accountId : AccountId) (currency : Currency) (register : ClearedRegister) :
    List PostedEntry → Except MoneyError (List RegisterLine)
  | [] => .ok []
  | entry :: entries => do
    let net ← netOnAccount entry accountId currency
    let lines ← registerLines accountId currency register entries
    return if net.minorUnits = 0 then lines else registerLine entry accountId net register :: lines

def bankRegister (entries : List PostedEntry) (accountId : AccountId) (currency : Currency)
    (register : ClearedRegister) : Except MoneyError (List RegisterLine) := do
  let lines ← registerLines accountId currency register entries
  return lines.insertionSort fun a b => InOrder a.date a.entryId b.date b.entryId

/-! Against the lines of an imported statement. -/

inductive BankReconStatus where
  | balanced | outOfBalance
  deriving DecidableEq

structure BankReconciliation where
  accountId : AccountId
  periodStart : String
  periodEnd : String
  status : BankReconStatus
  statementOpening : Money
  statementClosing : Money
  clearedBalance : Money
  difference : Money
  matched : List MatchPair
  newlyClearedEntryIds : List EntryId
  unclearedLines : List RegisterLine
  unmatchedStatement : List StatementLine
  statementConsistent : Bool
  canFinish : Bool
  notes : List String

def lineToBookItem (l : RegisterLine) : BookItem := ⟨l.entryId, l.date, l.amount, l.memo, none⟩

def sumMoney (items : List Money) (currency : Currency) : Except MoneyError Money :=
  match items with
  | [] => .ok (.zero currency)
  | m :: items => items.foldlM Money.plus m

def windowDays : Nat := 4

def openLines (lines : List RegisterLine) : List RegisterLine :=
  lines.filter fun l => l.status ≠ .reconciled

def reconcileBankAccount (entries : List PostedEntry) (accountId : AccountId)
    (statement : Statement) (register : ClearedRegister) :
    Except MoneyError BankReconciliation := do
  let currency := statement.openingBalance.currency
  let allLines ← bankRegister entries accountId currency register
  let reconciledLines := allLines.filter fun l => l.status = .reconciled
  let result := matchItems statement.lines ((openLines allLines).map lineToBookItem) windowDays
  let matchedIds := result.matched.map fun m => m.book.id
  let sumStatement ← sumMoney (statement.lines.map StatementLine.amount) currency
  let derivedClosing ← statement.openingBalance.plus sumStatement
  let statementConsistent : Bool := derivedClosing.currency.code =
    statement.closingBalance.currency.code ∧
      derivedClosing.minorUnits = statement.closingBalance.minorUnits
  -- what was reconciled before is in the opening balance of the statement
  let clearedSum ← sumMoney (result.matched.map fun m => m.book.amount) currency
  let clearedBalance ← statement.openingBalance.plus clearedSum
  let difference ← statement.closingBalance.minus clearedBalance
  let unmatchedStatement := statement.lines.filter fun s =>
    ¬ result.matched.any fun m => m.statement.id = s.id
  let balanced : Bool := statementConsistent ∧ difference.minorUnits = 0 ∧ unmatchedStatement = []
  return {
    accountId := accountId
    periodStart := statement.periodStart
    periodEnd := statement.periodEnd
    status := if balanced then .balanced else .outOfBalance
    statementOpening := statement.openingBalance
    statementClosing := statement.closingBalance
    clearedBalance := clearedBalance
    difference := difference
    matched := result.matched
    newlyClearedEntryIds := ((openLines allLines).filter fun l => l.entryId ∈ matchedIds).map
      RegisterLine.entryId
    unclearedLines := ((openLines allLines).filter fun l => l.entryId ∉ matchedIds).map fun l =>
      { l with status := .uncleared }
    unmatchedStatement := unmatchedStatement
    statementConsistent := statementConsistent
    canFinish := balanced
    notes := (if statementConsistent then [] else ["statement is internally inconsistent: " ++
        s!"opening + lines = {derivedClosing.toDecimalString} but closing balance is " ++
        statement.closingBalance.toDecimalString]) ++
      (if unmatchedStatement = [] then []
        else [s!"{unmatchedStatement.length} statement line(s) not found in the books"]) ++
      (if difference.minorUnits = 0 then []
        else [s!"cleared balance is off by {difference.toDecimalString}"]) ++
      (if reconciledLines = [] then []
        else [s!"{reconciledLines.length} line(s) already reconciled in a prior period"]) }

/-! By hand: lines are ticked off until the difference to the balance of the statement is zero. -/

structure ManualReconciliation where
  accountId : AccountId
  statementDate : String
  statementBalance : Money
  reconciledBalance : Money
  clearedThisSession : Money
  clearedBalance : Money
  difference : Money
  clearedEntryIds : List EntryId
  unclearedLines : List RegisterLine
  clearedLines : List RegisterLine
  canFinish : Bool

/-- What the loop over the lines adds up. -/
structure Ticked where
  accountId : AccountId
  reconciledBalance : Money
  clearedThisSession : Money
  clearedEntryIds : List EntryId
  unclearedLines : List RegisterLine
  clearedLines : List RegisterLine

def tickStep (t : Ticked) (line : RegisterLine) : Except MoneyError Ticked :=
  match line.status with
  | .reconciled => do
    let balance ← t.reconciledBalance.plus line.amount
    return { t with accountId := line.accountId, reconciledBalance := balance }
  | .cleared => do
    let balance ← t.clearedThisSession.plus line.amount
    return { t with
      accountId := line.accountId
      clearedThisSession := balance
      clearedEntryIds := t.clearedEntryIds ++ [line.entryId]
      clearedLines := t.clearedLines ++ [line] }
  | .uncleared => return { t with
      accountId := line.accountId
      unclearedLines := t.unclearedLines ++ [line] }

def manualReconciliation (lines : List RegisterLine) (statementDate : String)
    (statementBalance : Money) : Except MoneyError ManualReconciliation := do
  let zero := Money.zero statementBalance.currency
  let t ← lines.foldlM tickStep ⟨"", zero, zero, [], [], []⟩
  let clearedBalance ← t.reconciledBalance.plus t.clearedThisSession
  let difference ← statementBalance.minus clearedBalance
  return {
    accountId := t.accountId
    statementDate := statementDate
    statementBalance := statementBalance
    reconciledBalance := t.reconciledBalance
    clearedThisSession := t.clearedThisSession
    clearedBalance := clearedBalance
    difference := difference
    clearedEntryIds := t.clearedEntryIds
    unclearedLines := t.unclearedLines
    clearedLines := t.clearedLines
    canFinish := difference.minorUnits = 0 ∧ t.clearedEntryIds ≠ [] }

def finishManualReconciliation (recon : ManualReconciliation) (register : ClearedRegister) :
    Except String ClearedRegister :=
  if ¬ recon.canFinish then
    .error (if recon.clearedEntryIds = [] then
      "cannot finish: nothing has been ticked off against this statement yet"
    else s!"cannot finish: off by {recon.difference.toDecimalString}")
  else .ok (register.markReconciled recon.accountId recon.clearedEntryIds recon.statementDate)

/-! A statement against the book items of its account: what matches cancels, what is left in the
books is in transit, and what is left on the statement is missing. -/

structure StatementReconciliation where
  accountId : AccountId
  periodStart : String
  periodEnd : String
  status : BankReconStatus
  statementOpening : Money
  statementClosing : Money
  bookClosing : Money
  difference : Money
  unreconciledResidual : Money
  matched : List MatchPair
  unmatchedStatement : List StatementLine
  unmatchedBook : List BookItem
  statementConsistent : Bool

def reconcileStatement (statement : Statement) (bookItems : List BookItem) (windowDays : Nat) :
    Except MoneyError StatementReconciliation := do
  let currency := statement.openingBalance.currency
  let result := matchItems statement.lines bookItems windowDays
  let sumStatement ← sumMoney (statement.lines.map StatementLine.amount) currency
  let derivedClosing ← statement.openingBalance.plus sumStatement
  let statementConsistent : Bool :=
    derivedClosing.currency.code = statement.closingBalance.currency.code ∧
      derivedClosing.minorUnits = statement.closingBalance.minorUnits
  let sumBook ← sumMoney (bookItems.map BookItem.amount) currency
  let bookClosing ← statement.openingBalance.plus sumBook
  let difference ← bookClosing.minus statement.closingBalance
  let timingSum ← sumMoney (result.unmatchedBook.map BookItem.amount) currency
  let unreconciledResidual ← difference.minus timingSum
  let balanced : Bool := statementConsistent ∧ result.unmatchedStatement = [] ∧
    unreconciledResidual.minorUnits = 0
  return {
    accountId := statement.accountId
    periodStart := statement.periodStart
    periodEnd := statement.periodEnd
    status := if balanced then .balanced else .outOfBalance
    statementOpening := statement.openingBalance
    statementClosing := statement.closingBalance
    bookClosing := bookClosing
    difference := difference
    unreconciledResidual := unreconciledResidual
    matched := result.matched
    unmatchedStatement := result.unmatchedStatement
    unmatchedBook := result.unmatchedBook
    statementConsistent := statementConsistent }

def isCleanForPublish (recon : StatementReconciliation) : Bool := recon.status = .balanced

/-! What a register adds up to: for each status, the net effects of the entries that have it. -/

open Fallible
variable {entries : List PostedEntry} {accountId : AccountId} {currency : Currency}
variable {register : ClearedRegister} {lines : List RegisterLine}

def netOf (accountId : AccountId) (e : PostedEntry) : Int :=
  (e.lines.map fun l =>
    if l.accountId = accountId then l.side.signed l.amount.minorUnits else 0).sum

variable (statusOf : EntryId → ClearStatus)

def held (accountId : AccountId) (status : ClearStatus) (entries : List PostedEntry) : Int :=
  (entries.map fun e => if statusOf e.id = status then netOf accountId e else 0).sum

def sumOf (status : ClearStatus) (lines : List RegisterLine) : Int :=
  ((lines.filter fun l => l.status = status).map fun l => l.amount.minorUnits).sum

theorem netStep_ok {net net' : Money} {line : PostedLine}
    (h : netStep accountId net line = .ok net') :
    net' = ⟨net.minorUnits + if line.accountId = accountId then
      line.side.signed line.amount.minorUnits else 0, net.currency⟩ := by
  unfold netStep at h
  by_cases hid : line.accountId = accountId
  · rw [if_neg (not_not.mpr hid)] at h
    rw [if_pos hid]
    cases hside : line.side with
    | debit =>
      rw [hside] at h
      simp only [Money.plus, refuse_eq_ok] at h
      exact (ok.inj h.2).symm
    | credit =>
      rw [hside] at h
      simp only [Money.minus, refuse_eq_ok] at h
      rw [← ok.inj h.2]
      rfl
  · rw [if_pos hid] at h
    rw [if_neg hid, Int.add_zero]
    exact (ok.inj h).symm

theorem netOnAccount_ok {entry : PostedEntry} {net : Money}
    (h : netOnAccount entry accountId currency = .ok net) :
    net = ⟨netOf accountId entry, currency⟩ := by
  have hfold : ∀ (ls : List PostedLine) (start : Money), ls.foldlM (netStep accountId) start = .ok net →
      net = ⟨start.minorUnits + (ls.map fun l => if l.accountId = accountId then
        l.side.signed l.amount.minorUnits else 0).sum, start.currency⟩ := by
    intro ls
    induction ls with
    | nil =>
      intro start h
      rw [← ok.inj h, map_nil, sum_nil, Int.add_zero]
    | cons l ls ih =>
      intro start h
      rw [foldlM_cons] at h
      obtain ⟨next, hnext, h⟩ := bind_eq_ok.mp h
      rw [ih next h, netStep_ok hnext, map_cons, sum_cons, Int.add_assoc]
  have hnet := hfold entry.lines (.zero currency) h
  rw [hnet]
  exact congrArg (fun n => Money.mk n currency) (Int.zero_add _)

theorem registerLines_ok (h : registerLines accountId currency register entries = .ok lines) :
    lines = (entries.filter fun e => netOf accountId e ≠ 0).map fun e =>
      registerLine e accountId ⟨netOf accountId e, currency⟩ register := by
  induction entries generalizing lines with
  | nil => exact (ok.inj h).symm
  | cons e entries ih =>
    unfold registerLines at h
    obtain ⟨net, hnet, h⟩ := bind_eq_ok.mp h
    obtain ⟨rest, hrest, h⟩ := bind_eq_ok.mp h
    rw [← ok.inj h, ih hrest, netOnAccount_ok hnet]
    by_cases hzero : netOf accountId e = 0
    · rw [if_pos hzero, filter_cons_of_neg (by simpa using hzero)]
    · rw [if_neg hzero, filter_cons_of_pos (by simpa using hzero), map_cons]

theorem bankRegister_perm (h : bankRegister entries accountId currency register = .ok lines) :
    lines.Perm ((entries.filter fun e => netOf accountId e ≠ 0).map fun e =>
      registerLine e accountId ⟨netOf accountId e, currency⟩ register) := by
  obtain ⟨unsorted, huns, h⟩ := bind_eq_ok.mp h
  rw [← ok.inj h, ← registerLines_ok huns]
  exact perm_insertionSort ..

theorem mem_bankRegister (h : bankRegister entries accountId currency register = .ok lines)
    {l : RegisterLine} : l ∈ lines ↔ ∃ e ∈ entries, netOf accountId e ≠ 0 ∧
      registerLine e accountId ⟨netOf accountId e, currency⟩ register = l := by
  rw [(bankRegister_perm h).mem_iff, mem_map]
  simp only [mem_filter, decide_eq_true_eq, and_assoc]

variable (register' : ClearedRegister)

theorem registerLines_of_ok (h : registerLines accountId currency register entries = .ok lines) :
    ∃ lines', registerLines accountId currency register' entries = .ok lines' := by
  induction entries generalizing lines with
  | nil => exact ⟨[], rfl⟩
  | cons e entries ih =>
    obtain ⟨net, hnet, h⟩ := bind_eq_ok.mp h
    obtain ⟨rest, hrest, -⟩ := bind_eq_ok.mp h
    obtain ⟨rest', hrest'⟩ := ih hrest
    exact ⟨_, bind_eq_ok.mpr ⟨net, hnet, bind_eq_ok.mpr ⟨rest', hrest', rfl⟩⟩⟩

theorem bankRegister_of_ok (h : bankRegister entries accountId currency register = .ok lines) :
    ∃ lines', bankRegister entries accountId currency register' = .ok lines' := by
  obtain ⟨unsorted, huns, -⟩ := bind_eq_ok.mp h
  obtain ⟨unsorted', huns'⟩ := registerLines_of_ok register' huns
  exact ⟨_, bind_eq_ok.mpr ⟨unsorted', huns', rfl⟩⟩

theorem sumOf_perm {lines' : List RegisterLine} (h : lines.Perm lines') (status : ClearStatus) :
    sumOf status lines = sumOf status lines' := ((h.filter _).map _).sum_eq

theorem sumOf_cons (l : RegisterLine) (lines : List RegisterLine) (status : ClearStatus) :
    sumOf status (l :: lines) =
      (if l.status = status then l.amount.minorUnits else 0) + sumOf status lines := by
  unfold sumOf
  by_cases h : l.status = status
  · rw [filter_cons_of_pos (by simpa using h), map_cons, sum_cons, if_pos h]
  · rw [filter_cons_of_neg (by simpa using h), if_neg h, Int.zero_add]

theorem sumOf_bankRegister (h : bankRegister entries accountId currency register = .ok lines)
    (status : ClearStatus) :
    sumOf status lines = held (register.statusOf accountId) accountId status entries := by
  rw [sumOf_perm (bankRegister_perm h)]
  clear h
  induction entries with
  | nil => rfl
  | cons e entries ih =>
    have hcons : held (register.statusOf accountId) accountId status (e :: entries) =
        (if register.statusOf accountId e.id = status then netOf accountId e else 0) +
          held (register.statusOf accountId) accountId status entries := rfl
    rw [hcons, ← ih]
    by_cases hzero : netOf accountId e = 0
    · rw [filter_cons_of_neg (by simpa using hzero), hzero, ite_self, Int.zero_add]
    · rw [filter_cons_of_pos (by simpa using hzero), map_cons, sumOf_cons]
      rfl

theorem held_append (status : ClearStatus) (more : List PostedEntry) :
    held statusOf accountId status (entries ++ more) =
      held statusOf accountId status entries + held statusOf accountId status more := by
  unfold held
  rw [map_append, sum_append]

theorem held_congr {statusOf statusOf' : EntryId → ClearStatus} {status : ClearStatus}
    (h : ∀ e ∈ entries, statusOf e.id = status ↔ statusOf' e.id = status) :
    held statusOf accountId status entries = held statusOf' accountId status entries := by
  unfold held
  refine congrArg sum (map_congr_left fun e he => ?_)
  simp only [h e he]

/-! What a session adds up. -/

theorem tickStep_ok {t t' : Ticked} {line : RegisterLine} (h : tickStep t line = .ok t') :
    t'.reconciledBalance.minorUnits = t.reconciledBalance.minorUnits +
      (if line.status = .reconciled then line.amount.minorUnits else 0) ∧
    t'.clearedThisSession.minorUnits = t.clearedThisSession.minorUnits +
      (if line.status = .cleared then line.amount.minorUnits else 0) ∧
    t'.clearedEntryIds = t.clearedEntryIds ++
      (if line.status = .cleared then [line.entryId] else []) := by
  unfold tickStep at h
  cases hstatus : line.status with
  | reconciled =>
    simp only [hstatus, bind_eq_ok, Money.plus, refuse_eq_ok] at h
    obtain ⟨balance, ⟨-, hbalance⟩, ht⟩ := h
    rw [← ok.inj ht, ← ok.inj hbalance]
    simp
  | cleared =>
    simp only [hstatus, bind_eq_ok, Money.plus, refuse_eq_ok] at h
    obtain ⟨balance, ⟨-, hbalance⟩, ht⟩ := h
    rw [← ok.inj ht, ← ok.inj hbalance]
    simp
  | uncleared =>
    rw [hstatus] at h
    rw [← ok.inj h]
    simp

theorem foldlM_tickStep {t t' : Ticked} (h : lines.foldlM tickStep t = .ok t') :
    t'.reconciledBalance.minorUnits = t.reconciledBalance.minorUnits + sumOf .reconciled lines ∧
    t'.clearedThisSession.minorUnits = t.clearedThisSession.minorUnits + sumOf .cleared lines ∧
    t'.clearedEntryIds = t.clearedEntryIds ++
      (lines.filter fun l => l.status = .cleared).map RegisterLine.entryId := by
  induction lines generalizing t with
  | nil =>
    rw [← ok.inj h]
    simp [sumOf]
  | cons l lines ih =>
    rw [foldlM_cons] at h
    obtain ⟨next, hnext, h⟩ := bind_eq_ok.mp h
    obtain ⟨hbalance, hclear, hids⟩ := ih h
    obtain ⟨hbalance', hclear', hids'⟩ := tickStep_ok hnext
    refine ⟨?_, ?_, ?_⟩
    · rw [hbalance, hbalance', sumOf_cons, Int.add_assoc]
    · rw [hclear, hclear', sumOf_cons, Int.add_assoc]
    · rw [hids, hids', append_assoc]
      by_cases hl : l.status = .cleared
      · rw [if_pos hl, filter_cons_of_pos (by simpa using hl), map_cons, singleton_append]
      · rw [if_neg hl, filter_cons_of_neg (by simpa using hl), nil_append]

/-- What a session comes to: the difference is what the balance has over all lines that are locked
in or ticked, and the ticked ones are to be locked. -/
structure SessionOf (lines : List RegisterLine) (balance : Money) (recon : ManualReconciliation) :
    Prop where
  difference : recon.difference.minorUnits =
    balance.minorUnits - (sumOf .reconciled lines + sumOf .cleared lines)
  ids : recon.clearedEntryIds = (lines.filter fun l => l.status = .cleared).map RegisterLine.entryId
  canFinish : recon.canFinish = decide (recon.difference.minorUnits = 0 ∧ recon.clearedEntryIds ≠ [])

theorem sessionOf {date : String} {balance : Money} {recon : ManualReconciliation}
    (h : manualReconciliation lines date balance = .ok recon) : SessionOf lines balance recon := by
  simp only [manualReconciliation, bind_eq_ok, Money.plus, Money.minus, refuse_eq_ok] at h
  obtain ⟨t, ht, cleared, ⟨-, hclear⟩, difference, ⟨-, hdiff⟩, hrecon⟩ := h
  obtain ⟨hbalance, hses, hids⟩ := foldlM_tickStep ht
  rw [← ok.inj hrecon, ← ok.inj hdiff, ← ok.inj hclear]
  refine ⟨?_, hids, rfl⟩
  dsimp only
  rw [hbalance, hses]
  simp [Money.zero]

theorem newlyCleared_open {statement : Statement} {recon : BankReconciliation}
    (h : reconcileBankAccount entries accountId statement register = .ok recon) {id : EntryId}
    (hid : id ∈ recon.newlyClearedEntryIds) :
    (∃ e ∈ entries, e.id = id) ∧ register.statusOf accountId id ≠ .reconciled := by
  simp only [reconcileBankAccount, bind_eq_ok] at h
  obtain ⟨lines, hlines, sum, -, closing, -, cleared, -, balance, -, difference, -, hrecon⟩ := h
  rw [← ok.inj hrecon] at hid
  obtain ⟨l, hl, rfl⟩ := mem_map.mp hid
  have hopen := mem_filter.mp (mem_of_mem_filter hl)
  obtain ⟨e, he, -, rfl⟩ := (mem_bankRegister hlines).mp hopen.1
  exact ⟨⟨e, he, rfl⟩, of_decide_eq_true hopen.2⟩

end Rgnr8.Reconciliation
