import Rgnr8.Kernel.DimensionBalances
import Rgnr8.Kernel.Money

/-! General-ledger detail: what has been posted to an account, line by line with a running balance,
against the trial balances of the same journal. -/

namespace Rgnr8.Statements
open Lib Kernel Fallible List OrderedMap Except

structure GlDetailRow where
  entryId : EntryId
  sequence : Nat
  date : String
  memo : String
  debit : Money
  credit : Money
  change : Money
  balance : Money

structure GlDetailAccount where
  accountId : AccountId
  code : String
  name : String
  type : AccountType
  opening : Money
  rows : List GlDetailRow
  closing : Money
  totalDebit : Money
  totalCredit : Money

abbrev Posting := PostedEntry × PostedLine

/-- The lines that the filter lets through, each with its entry. -/
def postings (filter : Option (List AccountId)) (entries : List PostedEntry) : List Posting :=
  entries.flatMap fun e => (e.lines.filter fun l => filter.all (l.accountId ∈ ·)).map (e, ·)

def changeOf (line : PostedLine) : Money :=
  ⟨line.side.signed line.amount.minorUnits, line.amount.currency⟩

section
variable (currency : Currency)
variable (balances : OrderedMap AccountId Money)

def balanceIn (id : AccountId) : Money :=
  (balances.get? id).getD (.zero currency)

def addChange (p : Posting) : Except MoneyError (OrderedMap AccountId Money) := do
  let balance ← (balanceIn currency balances p.2.accountId).plus (changeOf p.2)
  return balances.set p.2.accountId balance

def glDetailRow (p : Posting) (balance : Money) : GlDetailRow where
  entryId := p.1.id
  sequence := p.1.sequence
  date := p.1.entryDate
  memo := p.2.memo.getD (p.1.memo.getD "")
  debit := if p.2.side = .debit then p.2.amount else .zero currency
  credit := if p.2.side = .debit then .zero currency else p.2.amount
  change := changeOf p.2
  balance := balance

abbrev RowsByAccount := OrderedMap AccountId (List GlDetailRow)

def addRow (state : OrderedMap AccountId Money × RowsByAccount) (p : Posting) :
    Except MoneyError (OrderedMap AccountId Money × RowsByAccount) := do
  let running ← addChange currency state.1 p
  let row := glDetailRow currency p (balanceIn currency running p.2.accountId)
  return (running,
    state.2.set p.2.accountId ((state.2.get? p.2.accountId).getD [] ++ [row]))

def totalOf (part : GlDetailRow → Money) (rows : List GlDetailRow) : Except MoneyError Money :=
  rows.foldlM (fun total r => total.plus (part r)) (.zero currency)

def glDetailAccount (opening running : OrderedMap AccountId Money) (rows : RowsByAccount)
    (account : Account) : Except MoneyError GlDetailAccount := do
  let own := (rows.get? account.id).getD []
  let totalDebit ← totalOf currency GlDetailRow.debit own
  let totalCredit ← totalOf currency GlDetailRow.credit own
  let opened := balanceIn currency opening account.id
  return ⟨account.id, account.code, account.name, account.type, opened, own,
    (running.get? account.id).getD opened, totalDebit, totalCredit⟩

def beforeWindow (window : Option DateWindow) (entries : List PostedEntry) : List PostedEntry :=
  entries.filter fun e => (window.bind DateWindow.fromDate).any fun d => Before e.entryDate d

def bySequence (entries : List PostedEntry) : List PostedEntry :=
  entries.insertionSort fun a b => a.sequence ≤ b.sequence

def glDetail (localeLe : String → String → Bool) (entries : List PostedEntry)
    (coa : ChartOfAccounts) (window : Option DateWindow) (accountIds : Option (List AccountId)) :
    Except MoneyError (List GlDetailAccount) := do
  let ordered := bySequence entries
  let opening ← (postings accountIds (beforeWindow window ordered)).foldlM (addChange currency)
    .empty
  let (running, rows) ← (postings accountIds (entriesIn window ordered)).foldlM (addRow currency)
    (opening, .empty)
  let ids := opening.keys ++ rows.keys.filter (· ∉ opening.keys)
  let out ← (ids.filterMap coa.get).mapM (glDetailAccount currency opening running rows)
  return out.insertionSort fun a b => localeLe a.code b.code

end

variable {currency : Currency} {ps : List Posting} {id : AccountId}
variable {balances balances' : OrderedMap AccountId Money} {rows rows' : RowsByAccount}

def postedOn (id : AccountId) (ps : List Posting) : List Posting :=
  ps.filter fun p => p.2.accountId = id

theorem plus_eq_ok {a b c : Money} (h : a.plus b = .ok c) :
    c = ⟨a.minorUnits + b.minorUnits, a.currency⟩ :=
  (ok.inj (refuse_eq_ok.mp h).2).symm

variable {own : List GlDetailRow} {entries : List PostedEntry} {balance : Money}
variable {window : Option DateWindow} {p : Posting}

theorem addChange_eq_ok (h : addChange currency balances p = .ok balances') :
    balances' = balances.set p.2.accountId
      ⟨(balanceIn currency balances p.2.accountId).minorUnits + (changeOf p.2).minorUnits,
        (balanceIn currency balances p.2.accountId).currency⟩ := by
  obtain ⟨balance, hbalance, h⟩ := bind_eq_ok.mp h
  rw [← plus_eq_ok hbalance]
  exact (ok.inj h).symm

theorem balanceIn_set (k : AccountId) (m : Money) : balanceIn currency (balances.set k m) id =
    if id = k then m else balanceIn currency balances id := by
  unfold balanceIn
  rw [get?_set]
  split_ifs <;> rfl

theorem foldlM_addChange (h : ps.foldlM (addChange currency) balances = .ok balances')
    (id : AccountId) :
    (balanceIn currency balances' id).minorUnits =
      (balanceIn currency balances id).minorUnits + netOn id (ps.map Prod.snd) ∧
    (id ∈ balances'.keys ↔ id ∈ balances.keys ∨ ∃ p ∈ ps, p.2.accountId = id) := by
  induction ps generalizing balances with
  | nil =>
    obtain rfl := ok.inj h
    simp
  | cons p ps ih =>
    rw [foldlM_cons] at h
    obtain ⟨next, hnext, h⟩ := bind_eq_ok.mp h
    obtain ⟨hbalance, hkeys⟩ := ih h
    rw [addChange_eq_ok hnext] at hbalance hkeys
    have hset : id ∈ (balances.set p.2.accountId
        ⟨(balanceIn currency balances p.2.accountId).minorUnits + (changeOf p.2).minorUnits,
          (balanceIn currency balances p.2.accountId).currency⟩).keys ↔
        id = p.2.accountId ∨ id ∈ balances.keys := mem_put_key
    refine ⟨?_, ?_⟩
    · rw [hbalance, balanceIn_set, map_cons, netOn_cons]
      by_cases hid : id = p.2.accountId
      · rw [if_pos hid, if_pos hid.symm, hid, Int.add_assoc]
        rfl
      · rw [if_neg hid, if_neg (Ne.symm hid), Int.zero_add]
    · rw [hkeys, hset, exists_mem_cons_iff]
      tauto

/-- A balance is what the row before it has left, or what was there first, and the change. -/
def Runs : Money → List GlDetailRow → Prop
  | _, [] => True
  | balance, r :: rows =>
    r.balance.minorUnits = balance.minorUnits + r.change.minorUnits ∧ Runs r.balance rows

/-- One row for each posting of the account, in their order, and the balances run on. -/
def Details (currency : Currency) (id : AccountId) (balance : Money) (ps : List Posting)
    (rows : List GlDetailRow) : Prop :=
  Runs balance rows ∧
    List.Forall₂ (fun p r => r = glDetailRow currency p r.balance) (postedOn id ps) rows

theorem Details.cons_self {next : Money} (hid : p.2.accountId = id)
    (hnext : next.minorUnits = balance.minorUnits + (changeOf p.2).minorUnits)
    (h : Details currency id next ps own) :
    Details currency id balance (p :: ps) (glDetailRow currency p next :: own) := by
  refine ⟨⟨hnext, h.1⟩, ?_⟩
  rw [postedOn, filter_cons_of_pos (by simpa using hid)]
  exact .cons rfl h.2

theorem Details.cons_ne (hid : p.2.accountId ≠ id) (h : Details currency id balance ps own) :
    Details currency id balance (p :: ps) own := by
  refine ⟨h.1, ?_⟩
  rw [postedOn, filter_cons_of_neg (by simpa using hid)]
  exact h.2

theorem foldlM_addRow (h : ps.foldlM (addRow currency) (balances, rows) = .ok (balances', rows')) :
    ps.foldlM (addChange currency) balances = .ok balances' ∧
    ∀ id, (id ∈ rows'.keys ↔ id ∈ rows.keys ∨ ∃ p ∈ ps, p.2.accountId = id) ∧
      ∃ own, (rows'.get? id).getD [] = (rows.get? id).getD [] ++ own ∧
        Details currency id (balanceIn currency balances id) ps own := by
  induction ps generalizing balances rows with
  | nil =>
    obtain ⟨rfl, rfl⟩ := Prod.mk.inj (ok.inj h)
    exact ⟨rfl, fun id => ⟨by simp, [], (append_nil _).symm, trivial, .nil⟩⟩
  | cons p ps ih =>
    rw [foldlM_cons] at h
    obtain ⟨⟨next, rows₁⟩, hstep, h⟩ := bind_eq_ok.mp h
    obtain ⟨running, hnext, hstep⟩ := bind_eq_ok.mp hstep
    obtain ⟨rfl, rfl⟩ := Prod.mk.inj (ok.inj hstep)
    obtain ⟨hfold, hrows⟩ := ih h
    rw [foldlM_cons]
    refine ⟨bind_eq_ok.mpr ⟨running, hnext, hfold⟩, fun id => ?_⟩
    obtain ⟨hkeys, own, hown, hdets⟩ := hrows id
    have hset : id ∈ (rows.set p.2.accountId ((rows.get? p.2.accountId).getD [] ++
        [glDetailRow currency p (balanceIn currency running p.2.accountId)])).keys ↔
        id = p.2.accountId ∨ id ∈ rows.keys := mem_put_key
    refine ⟨?_, ?_⟩
    · rw [hkeys, hset, exists_mem_cons_iff]
      tauto
    · rw [get?_set] at hown
      have hrun := addChange_eq_ok hnext
      by_cases hid : id = p.2.accountId
      · subst hid
        rw [if_pos rfl, Option.getD_some, append_assoc] at hown
        refine ⟨_, hown, .cons_self rfl ?_ hdets⟩
        rw [hrun, balanceIn_set, if_pos rfl]
      · rw [if_neg hid] at hown
        rw [hrun, balanceIn_set, if_neg hid] at hdets
        exact ⟨own, hown, .cons_ne (Ne.symm hid) hdets⟩

/-! What is posted on an account, whatever the filter and the order of the entries. -/

theorem netOn_filter {q : PostedLine → Bool} (h : ∀ l, l.accountId = id → q l = true)
    (lines : List PostedLine) : netOn id (lines.filter q) = netOn id lines := by
  induction lines with
  | nil => rfl
  | cons l lines ih =>
    by_cases hq : q l = true
    · rw [filter_cons_of_pos hq, netOn_cons, netOn_cons, ih]
    · rw [filter_cons_of_neg hq, netOn_cons, if_neg fun hid => hq (h l hid), Int.zero_add, ih]

theorem netOn_postings {filter : Option (List AccountId)} (h : filter.all (id ∈ ·) = true)
    (entries : List PostedEntry) : netOn id ((postings filter entries).map Prod.snd) =
      netOn id (entries.flatMap fun e => e.lines) := by
  unfold postings
  induction entries with
  | nil => rfl
  | cons e entries ih =>
    rw [flatMap_cons, flatMap_cons, map_append, netOn_append, netOn_append, ih,
      map_map]
    have hpas : ∀ l : PostedLine, l.accountId = id → filter.all (l.accountId ∈ ·) = true :=
      fun l hid => hid ▸ h
    rw [← netOn_filter hpas e.lines]
    exact congrArg (netOn id · + _) (map_id _)

theorem netOn_perm {entries' : List PostedEntry} (h : entries.Perm entries') :
    netOn id (entries.flatMap fun e => e.lines) = netOn id (entries'.flatMap fun e => e.lines) :=
  ((h.flatMap_right _).map _).sum_eq

theorem netOn_split {A B C : PostedEntry → Bool} (hsum : ∀ e, C e = (A e || B e))
    (hapart : ∀ e, A e = true → B e = false) (entries : List PostedEntry) :
    netOn id ((entries.filter A).flatMap fun e => e.lines) +
      netOn id ((entries.filter B).flatMap fun e => e.lines) =
        netOn id ((entries.filter C).flatMap fun e => e.lines) := by
  induction entries with
  | nil => rfl
  | cons e entries ih =>
    have hsum := hsum e
    have hapart := hapart e
    cases hA : A e <;> cases hB : B e <;> simp_all <;> omega

theorem netOn_postedOn (ps : List Posting) : netOn id (ps.map Prod.snd) =
    ((postedOn id ps).map fun p => (changeOf p.2).minorUnits).sum := by
  unfold postedOn
  rw [sum_filter_decide, netOn, map_map]
  rfl

theorem totalOf_eq_ok {part : GlDetailRow → Money} {total : Money}
    (h : totalOf currency part own = .ok total) :
    total.minorUnits = (own.map fun r => (part r).minorUnits).sum := by
  have hfold : ∀ (own : List GlDetailRow) (start : Money),
      own.foldlM (fun total r => total.plus (part r)) start = .ok total →
        total.minorUnits = start.minorUnits + (own.map fun r => (part r).minorUnits).sum := by
    intro own
    induction own with
    | nil =>
      intro start h
      rw [← ok.inj h, map_nil, sum_nil, Int.add_zero]
    | cons r own ih =>
      intro start h
      rw [foldlM_cons] at h
      obtain ⟨next, hnext, h⟩ := bind_eq_ok.mp h
      rw [ih next h, plus_eq_ok hnext, map_cons, sum_cons, Int.add_assoc]
  rw [hfold own _ h]
  exact Int.zero_add _

theorem Details.net (h : Details currency id balance ps own) :
    (own.map fun r => r.debit.minorUnits).sum - (own.map fun r => r.credit.minorUnits).sum =
      netOn id (ps.map Prod.snd) := by
  rw [netOn_postedOn]
  have hrows := h.2
  clear h
  generalize postedOn id ps = posted at hrows ⊢
  induction hrows with
  | nil => rfl
  | @cons p r posted own hrow _ ih =>
    have hr : r.debit.minorUnits - r.credit.minorUnits = (changeOf p.2).minorUnits := by
      rw [hrow]
      unfold glDetailRow changeOf Money.zero
      cases p.2.side with
      | debit => exact Int.sub_zero _
      | credit => exact Int.zero_sub _
    simp only [map_cons, sum_cons]
    omega

/-! It returns where every amount is in the currency asked for. -/

def InCurrency (currency : Currency) (ps : List Posting) : Prop :=
  ∀ p ∈ ps, p.2.amount.currency.code = currency.code

theorem exists_foldlM_addChange (h : InCurrency currency ps)
    (hbals : ∀ id, (balanceIn currency balances id).currency = currency) :
    ∃ balances', ps.foldlM (addChange currency) balances = .ok balances' ∧
      ∀ id, (balanceIn currency balances' id).currency = currency := by
  induction ps generalizing balances with
  | nil => exact ⟨balances, rfl, hbals⟩
  | cons p ps ih =>
    obtain ⟨hp, h⟩ := forall_mem_cons.mp h
    have hplus := Money.plus_of_code_eq (b := changeOf p.2)
      ((congrArg Currency.code (hbals p.2.accountId)).trans hp.symm)
    obtain ⟨next, hnext⟩ : ∃ next, addChange currency balances p = .ok next :=
      ⟨_, bind_eq_ok.mpr ⟨_, hplus, rfl⟩⟩
    obtain ⟨balances', hfold, hlast⟩ := @ih next h fun id => by
      rw [addChange_eq_ok hnext, balanceIn_set]
      split_ifs
      · exact hbals p.2.accountId
      · exact hbals id
    rw [foldlM_cons]
    exact ⟨balances', bind_eq_ok.mpr ⟨next, hnext, hfold⟩, hlast⟩

theorem exists_foldlM_addRow (h : ps.foldlM (addChange currency) balances = .ok balances')
    (rows : RowsByAccount) :
    ∃ rows', ps.foldlM (addRow currency) (balances, rows) = .ok (balances', rows') := by
  induction ps generalizing balances rows with
  | nil =>
    obtain rfl := ok.inj h
    exact ⟨rows, rfl⟩
  | cons p ps ih =>
    rw [foldlM_cons] at h
    obtain ⟨next, hnext, h⟩ := bind_eq_ok.mp h
    obtain ⟨rows', hrows⟩ := ih h _
    rw [foldlM_cons]
    exact ⟨rows', bind_eq_ok.mpr ⟨_, bind_eq_ok.mpr ⟨next, hnext, rfl⟩, hrows⟩⟩

theorem exists_totalOf {part : GlDetailRow → Money}
    (h : ∀ r ∈ own, (part r).currency.code = currency.code) :
    ∃ total, totalOf currency part own = .ok total := by
  have hfold : ∀ (own : List GlDetailRow) (start : Money),
      (∀ r ∈ own, (part r).currency.code = currency.code) → start.currency.code = currency.code →
        ∃ total, own.foldlM (fun total r => total.plus (part r)) start = .ok total := by
    intro own
    induction own with
    | nil => exact fun start _ _ => ⟨start, rfl⟩
    | cons r own ih =>
      intro start h hstart
      obtain ⟨hr, h⟩ := forall_mem_cons.mp h
      obtain ⟨total, htot⟩ := ih ⟨start.minorUnits + (part r).minorUnits, start.currency⟩ h hstart
      rw [foldlM_cons]
      exact ⟨total, bind_eq_ok.mpr ⟨_, Money.plus_of_code_eq (hstart.trans hr.symm), htot⟩⟩
  exact hfold own _ h rfl

theorem Details.inCurrency (h : Details currency id balance ps own) (hps : InCurrency currency ps) :
    ∀ r ∈ own, r.debit.currency.code = currency.code ∧ r.credit.currency.code = currency.code := by
  intro r hr
  obtain ⟨p, hp, hrow⟩ := exists_of_forall₂ h.2 hr
  have hcode := hps p (mem_of_mem_filter hp)
  rw [hrow]
  unfold glDetailRow
  dsimp only
  split_ifs
  · exact ⟨hcode, rfl⟩
  · exact ⟨rfl, hcode⟩

theorem mem_postings {filter : Option (List AccountId)} : p ∈ postings filter entries ↔
      p.1 ∈ entries ∧ p.2 ∈ p.1.lines ∧ filter.all (p.2.accountId ∈ ·) = true := by
  obtain ⟨e, l⟩ := p
  simp [postings]

theorem ids_of_details {opening running : OrderedMap AccountId Money} {found : List Account}
    {accounts : List GlDetailAccount} (h : List.Forall₂ (fun account a =>
      glDetailAccount currency opening running rows account = .ok a) found accounts) :
    accounts.map GlDetailAccount.accountId = found.map Account.id := by
  induction h with
  | nil => rfl
  | cons hdet _ ih =>
    obtain ⟨debit, -, hdet⟩ := bind_eq_ok.mp hdet
    obtain ⟨credit, -, hdet⟩ := bind_eq_ok.mp hdet
    rw [map_cons, map_cons, ih, ← ok.inj hdet]

theorem glDetail_eq_ok {localeLe : String → String → Bool} {coa : ChartOfAccounts}
    {accountIds : Option (List AccountId)} {out : List GlDetailAccount}
    (h : glDetail currency localeLe entries coa window accountIds = .ok out) :
    let before := postings accountIds (beforeWindow window (bySequence entries))
    let within := postings accountIds (entriesIn window (bySequence entries))
    ∃ ids : List AccountId, ids.Nodup ∧ (out.map GlDetailAccount.accountId).Perm ids ∧
      (∀ id, id ∈ ids ↔ (coa.get id).isSome ∧ ∃ p ∈ before ++ within, p.2.accountId = id) ∧
      ∀ a ∈ out, a.accountId ∈ ids ∧
        a.opening.minorUnits = netOn a.accountId (before.map Prod.snd) ∧
        Details currency a.accountId a.opening within a.rows ∧
        a.closing.minorUnits = a.opening.minorUnits + netOn a.accountId (within.map Prod.snd) ∧
        a.totalDebit.minorUnits - a.totalCredit.minorUnits =
          netOn a.accountId (within.map Prod.snd) := by
  intro before within
  obtain ⟨opening, hopn, h⟩ := bind_eq_ok.mp h
  obtain ⟨⟨running, rows⟩, hrows, h⟩ := bind_eq_ok.mp h
  obtain ⟨accounts, haccounts, h⟩ := bind_eq_ok.mp h
  obtain rfl := ok.inj h
  obtain ⟨hrunn, hrows⟩ := foldlM_addRow hrows
  have hopn := foldlM_addChange hopn
  have hrunn := foldlM_addChange hrunn
  have hperm := perm_insertionSort
    (fun a b : GlDetailAccount => localeLe a.code b.code = true) accounts
  -- the accounts reported: those with an opening, then the new ones
  set ids := opening.keys ++ rows.keys.filter (· ∉ opening.keys) with hids
  have hnd : ids.Nodup := opening.nodup.append (rows.nodup.filter _) fun id hid hid' => by
    have hnot : id ∉ opening.keys := by simpa using (mem_filter.mp hid').2
    exact hnot hid
  have hmem : ∀ id, id ∈ ids ↔ ∃ p ∈ before ++ within, p.2.accountId = id := by
    intro id
    have hkeys := (hopn id).2.trans (or_iff_right not_mem_nil)
    have hkeys' := (hrows id).1.trans (or_iff_right not_mem_nil)
    simp only [hids, mem_append, mem_filter, decide_eq_true_iff, or_and_right, exists_or]
    rw [← hkeys, ← hkeys']
    tauto
  have hfor := mapM_eq_ok.mp haccounts
  have hsame : accounts.map GlDetailAccount.accountId = ids.filter fun id => (coa.get id).isSome := by
    rw [ids_of_details hfor, map_filterMap, ← filterMap_eq_filter]
    refine filterMap_congr fun id _ => ?_
    cases hget : coa.get id with
    | none => simp [Option.guard, hget]
    | some account => simp [Option.guard, hget, (coa.id_of_get hget).1]
  refine ⟨ids.filter fun id => (coa.get id).isSome, hnd.filter _,
    hsame ▸ hperm.map GlDetailAccount.accountId, fun id => ?_, fun a ha => ?_⟩
  · rw [mem_filter, hmem, and_comm]
  · have ha := hperm.mem_iff.mp ha
    have hid : a.accountId ∈ ids.filter fun id => (coa.get id).isSome :=
      hsame ▸ mem_map_of_mem ha
    refine ⟨hid, ?_⟩
    obtain ⟨account, hacc, hdet⟩ := exists_of_forall₂ hfor ha
    obtain ⟨debit, hdebit, hdet⟩ := bind_eq_ok.mp hdet
    obtain ⟨credit, hcr, hdet⟩ := bind_eq_ok.mp hdet
    obtain rfl := ok.inj hdet
    obtain ⟨hkeys, own, hown, hdets⟩ := hrows account.id
    rw [get?_empty, Option.getD_none, nil_append] at hown
    rw [← hown] at hdets
    have hopened := (hopn account.id).1
    rw [show (balanceIn currency .empty account.id).minorUnits = 0 from rfl, Int.zero_add] at hopened
    have hclo : (running.get? account.id).getD (balanceIn currency opening account.id) =
        balanceIn currency running account.id := by
      unfold balanceIn
      cases hrun : running.get? account.id with
      | some m => rfl
      | none =>
        have hnone : opening.get? account.id = none := by
          cases hopen : opening.get? account.id with
          | none => rfl
          | some m =>
            obtain ⟨m', hm⟩ := mem_keys_iff.mp
              ((hrunn account.id).2.mpr (.inl (mem_keys_iff.mpr ⟨m, hopen⟩)))
            rw [hrun] at hm
            cases hm
        rw [hnone]
        rfl
    refine ⟨hopened, hdets, ?_, ?_⟩
    · rw [← (hrunn account.id).1, ← hclo]
    · rw [totalOf_eq_ok hdebit, totalOf_eq_ok hcr]
      exact hdets.net

theorem sum_netOn {ids : List AccountId} (hnd : ids.Nodup) {lines : List PostedLine}
    (h : ∀ l ∈ lines, l.accountId ∈ ids) : (ids.map fun id => netOn id lines).sum =
      sideTotal .debit lines - sideTotal .credit lines := by
  rw [← weightedSum_one]
  induction lines with
  | nil =>
    refine sum_eq_zero fun n hn => ?_
    obtain ⟨id, -, rfl⟩ := mem_map.mp hn
    rfl
  | cons l lines ih =>
    obtain ⟨hl, h⟩ := forall_mem_cons.mp h
    have hone : (ids.map fun id =>
        if l.accountId = id then l.side.signed l.amount.minorUnits else 0).sum =
          l.side.signed l.amount.minorUnits := by
      have hflip : (fun id => if l.accountId = id then l.side.signed l.amount.minorUnits else 0) =
          fun id => if id = l.accountId then l.side.signed l.amount.minorUnits else 0 :=
        funext fun id => if_congr eq_comm rfl rfl
      rw [hflip, sum_map_ite_eq, count_eq_one_of_mem hnd hl]
      simp
    simp only [netOn_cons, weightedSum_cons, sum_map_add, ih h, one_mul, hone]

theorem sideTotals_eq (h : ∀ e ∈ entries, sideTotal .debit e.lines = sideTotal .credit e.lines) :
    sideTotal .debit (entries.flatMap fun e => e.lines) =
      sideTotal .credit (entries.flatMap fun e => e.lines) := by
  induction entries with
  | nil => rfl
  | cons e entries ih =>
    obtain ⟨he, h⟩ := forall_mem_cons.mp h
    rw [flatMap_cons, sideTotal_append, sideTotal_append, he, ih h]

/-- The end does not come before the start. -/
def Proper (window : DateWindow) : Prop :=
  ∀ d ∈ window.fromDate, ∀ d' ∈ window.toDate, ¬ Before d' d

theorem inWindow_through (h : ∀ w ∈ window, Proper w) (d : String) :
    inWindow d (some ⟨none, window.bind DateWindow.toDate⟩) =
      ((window.bind DateWindow.fromDate).any (Before d ·) || inWindow d window) := by
  rcases window with - | ⟨f | f, t | t⟩
  · rfl
  · rfl
  · rfl
  · by_cases hf : Before d f <;> simp [inWindow, hf]
  · have hft : ¬ Before t f := h _ rfl f rfl t rfl
    by_cases hf : Before d f
    · have ht : ¬ Before t d := fun ht => hft (lt_trans ht hf)
      simp [inWindow, hf, ht]
    · simp [inWindow, hf]

theorem not_inWindow_of_before {d : String}
    (h : (window.bind DateWindow.fromDate).any (Before d ·) = true) :
    inWindow d window = false := by
  cases window with
  | none => cases h
  | some w => exact if_pos h

theorem glDetail_returns (localeLe : String → String → Bool) (coa : ChartOfAccounts)
    (window : Option DateWindow) (accountIds : Option (List AccountId))
    (h : ∀ e ∈ entries, ∀ l ∈ e.lines, l.amount.currency.code = currency.code) :
    ∃ out, glDetail currency localeLe entries coa window accountIds = .ok out := by
  have hin : ∀ q : PostedEntry → Bool,
      InCurrency currency (postings accountIds ((bySequence entries).filter q)) := by
    intro q p hp
    obtain ⟨he, hl, -⟩ := mem_postings.mp hp
    exact h p.1 ((perm_insertionSort _ entries).mem_iff.mp (mem_of_mem_filter he)) p.2 hl
  have hbef : InCurrency currency
      (postings accountIds (beforeWindow window (bySequence entries))) := hin _
  have hwin : InCurrency currency
      (postings accountIds (entriesIn window (bySequence entries))) := hin _
  obtain ⟨opening, hopn, hplain⟩ := exists_foldlM_addChange hbef
    (fun _ => rfl : ∀ id, (balanceIn currency .empty id).currency = currency)
  obtain ⟨running, hrunn, -⟩ := exists_foldlM_addChange hwin hplain
  obtain ⟨rows, hrows⟩ := exists_foldlM_addRow hrunn .empty
  obtain ⟨-, hdets⟩ := foldlM_addRow hrows
  have hdet : ∀ account, ∃ a, glDetailAccount currency opening running rows account = .ok a := by
    intro account
    obtain ⟨-, own, hown, hown'⟩ := hdets account.id
    rw [get?_empty, Option.getD_none, nil_append] at hown
    have hcode := hown'.inCurrency hwin
    rw [← hown] at hcode
    obtain ⟨debit, hdebit⟩ := exists_totalOf fun r hr => (hcode r hr).1
    obtain ⟨credit, hcr⟩ := exists_totalOf fun r hr => (hcode r hr).2
    exact ⟨_, bind_eq_ok.mpr ⟨debit, hdebit, bind_eq_ok.mpr ⟨credit, hcr, rfl⟩⟩⟩
  obtain ⟨accounts, haccounts⟩ := exists_mapM_iff.mpr fun account
    (_ : account ∈ (opening.keys ++ rows.keys.filter (· ∉ opening.keys)).filterMap coa.get) =>
      hdet account
  exact ⟨_, bind_eq_ok.mpr ⟨opening, hopn, bind_eq_ok.mpr ⟨(running, rows), hrows,
    bind_eq_ok.mpr ⟨accounts, haccounts, rfl⟩⟩⟩⟩

/-- The detail returns where all amounts are in its currency. What it returns has each account once,
with what was posted before the window, one row for each posting in it with the balance run on, and
the closing balance of the trial balance through the end of the window; no posting that is asked for
is left out; and over whole books the debits of all accounts are the credits. -/
theorem glDetail_agrees (currency : Currency) (localeLe : String → String → Bool)
    (entries : List PostedEntry) (coa : ChartOfAccounts) (window : Option DateWindow)
    (accountIds : Option (List AccountId)) :
    ((∀ e ∈ entries, ∀ l ∈ e.lines, l.amount.currency.code = currency.code) →
      ∃ out, glDetail currency localeLe entries coa window accountIds = .ok out) ∧
    ∀ out, glDetail currency localeLe entries coa window accountIds = .ok out →
      (out.map GlDetailAccount.accountId).Nodup ∧
      (∀ a ∈ out, a.opening.minorUnits =
          netOn a.accountId ((beforeWindow window entries).flatMap fun e => e.lines) ∧
        Details currency a.accountId a.opening
          (postings accountIds (entriesIn window (bySequence entries))) a.rows ∧
        a.closing.minorUnits =
          a.opening.minorUnits + a.totalDebit.minorUnits - a.totalCredit.minorUnits ∧
        ((∀ w ∈ window, Proper w) → a.closing.minorUnits =
          (computeTrialBalance localeLe coa currency
            (some ⟨none, window.bind DateWindow.toDate⟩) entries).positionOf a.accountId)) ∧
      (∀ p ∈ postings accountIds (entriesIn window entries), (coa.get p.2.accountId).isSome →
        ∃ a ∈ out, a.accountId = p.2.accountId) ∧
      (accountIds = none → Covers coa entries →
        (∀ e ∈ entries, sideTotal .debit e.lines = sideTotal .credit e.lines) →
          (out.map fun a => a.totalDebit.minorUnits).sum =
            (out.map fun a => a.totalCredit.minorUnits).sum) := by
  refine ⟨glDetail_returns localeLe coa window accountIds, fun out h => ?_⟩
  obtain ⟨ids, hnd, hperm, hids, hout⟩ := glDetail_eq_ok h
  have hpass : ∀ id ∈ ids, accountIds.all (id ∈ ·) = true := by
    intro id hid
    obtain ⟨-, p, hp, rfl⟩ := (hids id).mp hid
    exact (mem_append.mp hp).elim (fun hp => (mem_postings.mp hp).2.2)
      fun hp => (mem_postings.mp hp).2.2
  have hseq := perm_insertionSort (fun a b : PostedEntry => a.sequence ≤ b.sequence) entries
  have hnet : ∀ id ∈ ids, ∀ q : PostedEntry → Bool,
      netOn id ((postings accountIds ((bySequence entries).filter q)).map Prod.snd) =
        netOn id ((entries.filter q).flatMap fun e => e.lines) := fun id hid q =>
    (netOn_postings (hpass id hid) _).trans (netOn_perm (hseq.filter q))
  refine ⟨hperm.nodup_iff.mpr hnd, fun a ha => ?_, fun p hp hchart => ?_,
    fun hall hcov hbal => ?_⟩
  · obtain ⟨hid, hopn, hdets, hclos, htots⟩ := hout a ha
    refine ⟨hopn.trans (hnet _ hid _), hdets, by omega, fun hprop => ?_⟩
    rw [positionOf_computeTrialBalance, if_pos ((hids _).mp hid).1, hclos, hopn]
    exact (congrArg₂ (· + ·) (hnet _ hid _) (hnet _ hid _)).trans
      (netOn_split (fun e => inWindow_through hprop e.entryDate)
        (fun e => not_inWindow_of_before) entries)
  · obtain ⟨he, hl, hfilt⟩ := mem_postings.mp hp
    have he' := mem_filter.mp he
    have hposted : p ∈ postings accountIds (entriesIn window (bySequence entries)) :=
      mem_postings.mpr ⟨mem_filter.mpr ⟨hseq.mem_iff.mpr he'.1, he'.2⟩, hl, hfilt⟩
    exact mem_map.mp (hperm.mem_iff.mpr ((hids _).mpr ⟨hchart, p, mem_append_right _ hposted, rfl⟩))
  · subst hall
    set lines := (entriesIn window entries).flatMap fun e => e.lines with hlines
    have hmov : ∀ a ∈ out,
        a.totalDebit.minorUnits - a.totalCredit.minorUnits = netOn a.accountId lines := fun a ha => by
      obtain ⟨hid, -, -, -, htots⟩ := hout a ha
      exact htots.trans (hnet _ hid _)
    have hmem : ∀ l ∈ lines, l.accountId ∈ ids := by
      intro l hl
      obtain ⟨e, he, hl⟩ := mem_flatMap.mp hl
      have he' := mem_filter.mp he
      refine (hids _).mpr ⟨hcov e he'.1 l hl, (e, l), mem_append_right _ ?_, rfl⟩
      exact mem_postings.mpr ⟨mem_filter.mpr ⟨hseq.mem_iff.mpr he'.1, he'.2⟩, hl, rfl⟩
    have hzero : (out.map fun a => netOn a.accountId lines).sum = 0 := by
      calc (out.map fun a => netOn a.accountId lines).sum
          = ((out.map GlDetailAccount.accountId).map fun id => netOn id lines).sum := by
            rw [map_map]
            rfl
        _ = (ids.map fun id => netOn id lines).sum := (hperm.map _).sum_eq
        _ = 0 := by
            have hbalance := sideTotals_eq fun e (he : e ∈ entriesIn window entries) =>
              hbal e (mem_of_mem_filter he)
            rw [sum_netOn hnd hmem, hlines, hbalance, Int.sub_self]
    have hdebit : (out.map fun a => a.totalDebit.minorUnits) =
        out.map fun a => netOn a.accountId lines + a.totalCredit.minorUnits :=
      map_congr_left fun a ha => by
        have hmov := hmov a ha
        omega
    rw [hdebit, sum_map_add, hzero, Int.zero_add]

end Rgnr8.Statements
