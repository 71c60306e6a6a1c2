import Rgnr8.Migration.Mirror

/-! Refreshes in any order, on any days: when each leaves the ledger with QuickBooks' balances, and a
refused one leaves it as it was. -/

namespace Rgnr8.Migration
open Lib Kernel Fallible OrderedMap ChartOfAccounts List
open Service (planNewAccount planNewAccount_ok quickbooksSource provenanceFor)

/-! What has to move. -/

section
variable {target ours : OrderedMap String Int}

theorem sum_deltasOf (target ours : OrderedMap String Int) (w : String → Int) :
    ((deltasOf target ours).map fun p => w p.1 * p.2).sum =
      ∑ c ∈ (target.keys ++ ours.keys).toFinset, w c * (target.at_ c - ours.at_ c) := by
  have hfilt : ∀ ps : List (String × Int), ((ps.filter fun p => p.2 ≠ 0).map fun p => w p.1 * p.2).sum =
      (ps.map fun p => w p.1 * p.2).sum := by
    intro ps
    rw [sum_filter_decide]
    refine congrArg sum (map_congr_left fun p _ => ?_)
    by_cases hp : p.2 = 0
    · rw [if_neg (not_not.mpr hp), hp, Int.mul_zero]
    · rw [if_pos hp]
  have hperm := perm_insertionSort (fun a b : String => a ≤ b) (target.keys ++ ours.keys).dedup
  unfold deltasOf
  rw [hfilt, map_map, (hperm.map _).sum_eq, ← sum_toFinset _ (nodup_dedup _)]
  refine Finset.sum_congr ?_ fun c _ => rfl
  ext c
  rw [mem_toFinset, mem_toFinset, mem_dedup]

theorem total_deltasOf (target ours : OrderedMap String Int) :
    ((deltasOf target ours).map Prod.snd).sum =
      (target.total fun _ n => n) - ours.total fun _ n => n := by
  have hsum := sum_deltasOf target ours fun _ => 1
  simp only [one_mul] at hsum
  have htgt : ∀ k ∈ target.keys, k ∈ (target.keys ++ ours.keys).toFinset :=
    fun k hk => mem_toFinset.mpr (mem_append_left _ hk)
  have hours : ∀ k ∈ ours.keys, k ∈ (target.keys ++ ours.keys).toFinset :=
    fun k hk => mem_toFinset.mpr (mem_append_right _ hk)
  rw [Finset.sum_sub_distrib, sum_at target htgt, sum_at ours hours] at hsum
  exact hsum

theorem delta_at (target ours : OrderedMap String Int) (code : String) :
    ((deltasOf target ours).map fun p => (if p.1 = code then 1 else 0) * p.2).sum =
      target.at_ code - ours.at_ code := by
  rw [sum_deltasOf target ours fun c => if c = code then 1 else 0]
  simp only [ite_mul, one_mul, zero_mul, Finset.sum_ite_eq', mem_toFinset, mem_append]
  split_ifs with h
  · rfl
  · rw [not_or] at h
    rw [at_eq_zero h.1, at_eq_zero h.2]
    rfl

theorem mem_deltasOf {p : String × Int} : p ∈ deltasOf target ours ↔
    p.2 ≠ 0 ∧ p.2 = target.at_ p.1 - ours.at_ p.1 := by
  unfold deltasOf
  rw [mem_filter, decide_eq_true_iff, and_comm]
  refine and_congr_right fun hp => ?_
  simp only [mem_map, mem_insertionSort, mem_dedup, mem_append]
  constructor
  · rintro ⟨c, -, rfl⟩
    rfl
  · intro h
    refine ⟨p.1, ?_, Prod.ext rfl h.symm⟩
    by_contra hno
    rw [not_or] at hno
    rw [at_eq_zero hno.1, at_eq_zero hno.2] at h
    exact hp h

theorem deltasOf_eq_nil : deltasOf target ours = [] ↔ ∀ code, target.at_ code = ours.at_ code := by
  rw [eq_nil_iff_forall_not_mem]
  constructor
  · intro h code
    by_contra hne
    exact h (code, target.at_ code - ours.at_ code)
      (mem_deltasOf.mpr ⟨sub_ne_zero.mpr hne, rfl⟩)
  · intro h p hp
    obtain ⟨hne, heq⟩ := mem_deltasOf.mp hp
    rw [h, sub_self] at heq
    exact hne heq

end

variable {π : Type} [PeriodStore π] (ctx : MirrorContext)

/-- What an account has in the ledger up to a day. -/
def balanceAt (s : Books π) (asOf code : String) : Int :=
  match s.chart.getByCode code with
  | some a => movedOn a.id (entriesIn (some ⟨none, some asOf⟩) (ctx.journal s))
  | none => 0

structure Copy (s : Books π) : Prop where
  own : ∀ e ∈ ctx.journal s, e.provenance.sourceSystem = quickbooksSource
  covers : Covers s.chart (ctx.journal s)
  balanced : ∀ e ∈ ctx.journal s, sideTotal .debit e.lines = sideTotal .credit e.lines
  numbers : ∀ code a, s.chart.getByCode code = some a →
    a.currency = ctx.currency ∧ Js.trim code = code
  opened : ∀ p, PeriodStore.status s.ledger.periods ctx.tenant p ≠ .locked

section
variable {ctx} {s : Books π} {asOf : String}

theorem code_iff {coa : ChartOfAccounts} {code : String} {a : Account}
    (ha : coa.getByCode code = some a) {b : Account} (hb : coa.get b.id = some b) :
    b.code = code ↔ b.id = a.id := by
  have hbcode : coa.getByCode b.code = some b := (coa.id_of_get hb).2
  exact (id_eq_of_getByCode hbcode ha).symm

omit [PeriodStore π] in
theorem ledgerBalances_eq_tally (s : Books π) (asOf : String) : ledgerBalances ctx s asOf =
    tally TrialBalanceRow.code TrialBalanceRow.position .empty
      (computeTrialBalance ctx.localeLe s.chart ctx.currency (some ⟨none, some asOf⟩)
        (ctx.journal s)).rows := by
  refine foldl_set_eq_tally ?_ fun r _ => get?_empty r.code
  have hids := nodup_rows ctx.localeLe s.chart ctx.currency (some ⟨none, some asOf⟩) (ctx.journal s)
  refine List.Nodup.map_on (fun r hr r' hr' hcode => ?_) (List.Nodup.of_map _ hids)
  obtain ⟨a, -, ha, rfl⟩ := mem_rows.mp hr
  obtain ⟨b, -, hb, rfl⟩ := mem_rows.mp hr'
  have hacode : s.chart.getByCode a.code = some a := (s.chart.id_of_get ha).2
  exact inj_on_of_nodup_map hids hr hr' ((code_iff hacode hb).mp hcode.symm).symm

omit [PeriodStore π] in
theorem at_ledgerBalances (h : Covers s.chart (ctx.journal s)) (asOf code : String) :
    (ledgerBalances ctx s asOf).at_ code = balanceAt ctx s asOf code := by
  have hcov : Covers s.chart (entriesIn (some ⟨none, some asOf⟩) (ctx.journal s)) :=
    h.entriesIn _
  rw [ledgerBalances_eq_tally, at_tally, sum_filter_decide]
  have hzero : (empty : OrderedMap String Int).at_ code = 0 := rfl
  rw [hzero, Int.zero_add]
  unfold balanceAt
  cases hcode : s.chart.getByCode code with
  | none =>
    refine sum_eq_zero fun n hn => ?_
    obtain ⟨r, hr, rfl⟩ := mem_map.mp hn
    obtain ⟨a, -, ha, rfl⟩ := mem_rows.mp hr
    refine if_neg ?_
    rintro rfl
    have hfound : s.chart.getByCode a.code = some a := (s.chart.id_of_get ha).2
    cases hcode.symm.trans hfound
  | some a =>
    have hposit := @positionOf_eq _ _ _ ctx.localeLe ctx.currency hcov a.id
    unfold TrialBalance.positionOf at hposit
    dsimp only
    rw [← hposit]
    refine congrArg sum (map_congr_left fun r hr => ?_)
    obtain ⟨b, -, hb, rfl⟩ := mem_rows.mp hr
    exact if_congr (code_iff hcode hb) rfl rfl

theorem total_ledgerBalances (h : Copy ctx s) (asOf : String) :
    ((ledgerBalances ctx s asOf).total fun _ n => n) = 0 := by
  have hcov : Covers s.chart (entriesIn (some ⟨none, some asOf⟩) (ctx.journal s)) :=
    h.covers.entriesIn _
  rw [ledgerBalances_eq_tally, total_tally, total_empty, Int.zero_add,
    sum_rows hcov _ fun _ n => 1 * n, total_netByAccount]
  · exact weighed_one fun e he => h.balanced e (mem_of_mem_filter he)
  · exact fun a n _ => (position_trialBalanceRow ctx.currency n a).trans (one_mul n).symm

/-! New accounts. -/

variable {chart : ChartOfAccounts} {rows : List QboRow}

theorem get?_metaOf {r : QboRow} (hr : r ∈ rows) :
    ∃ row, (metaOf rows).get? (Py.strip r.code) = some row := by
  unfold metaOf
  induction rows using reverseRecOn with
  | nil => cases hr
  | append_singleton rows r' ih =>
    rw [foldl_append, foldl_cons, foldl_nil, get?_set]
    split_ifs with hsame
    · exact ⟨r', rfl⟩
    · rcases mem_append.mp hr with hr | hr
      · exact ih hr
      · rw [mem_singleton.mp hr] at hsame
        exact absurd rfl hsame

def Placeable (ctx : MirrorContext) (p : String × QboRow) : Prop :=
  subtypeForAccountType ctx p.2.accountType ≠ none

def Taken (ctx : MirrorContext) : ChartOfAccounts → List (String × QboRow) → Prop
  | _, [] => True
  | chart, (code, row) :: rest => ∀ subtype, subtypeForAccountType ctx row.accountType = some subtype →
    ∃ chart', addAccount ctx chart code (if row.name = "" then code else row.name) subtype =
      .ok chart' ∧ (chart'.getByCode code).isSome ∧ Taken ctx chart' rest

/-- A chart with more accounts, of which the new ones can be posted to. -/
structure Grown (ctx : MirrorContext) (chart chart' : ChartOfAccounts) : Prop where
  ids : ∀ id a, chart.get id = some a → chart'.get id = some a
  codes : ∀ code a, chart.getByCode code = some a → chart'.getByCode code = some a
  new : ∀ code a, chart'.getByCode code = some a → chart.getByCode code = some a ∨
    a.currency = ctx.currency ∧ Js.trim code = code ∧ a.active ≠ some false

theorem Grown.refl (chart : ChartOfAccounts) : Grown ctx chart chart :=
  ⟨fun _ _ h => h, fun _ _ h => h, fun _ _ h => .inl h⟩

theorem Grown.trans {chart' chart'' : ChartOfAccounts} (h : Grown ctx chart chart')
    (h' : Grown ctx chart' chart'') : Grown ctx chart chart'' where
  ids id a ha := h'.ids id a (h.ids id a ha)
  codes code a ha := h'.codes code a (h.codes code a ha)
  new code a ha := (h'.new code a ha).elim (h.new code a) .inr

theorem grown_addAccount {chart' : ChartOfAccounts} {code name : String}
    {subtype : AccountSubtype} (h : addAccount ctx chart code name subtype = .ok chart') :
    Grown ctx chart chart' := by
  unfold addAccount at h
  split at h
  · cases h
  · next account hplan =>
    have hcreat := planNewAccount_ok hplan
    have hccy : account.currency = ctx.currency := by
      unfold planNewAccount at hplan
      simp only [bind_eq_ok] at hplan
      obtain ⟨_, -, _, -, _, -, _, -, _, -, _, -, hplan⟩ := hplan
      rw [← Except.ok.inj hplan]
    obtain ⟨hid, hcode, hins⟩ := add_eq_ok h
    have hget : ∀ id, chart'.get id = if id = account.id
        then some { account with active := some (account.active.getD true) } else chart.get id := by
      intro id
      rw [hins]
      exact get?_set ..
    constructor
    · intro id a ha
      have hne : id ≠ account.id := by
        rintro rfl
        cases hid.symm.trans ha
      rwa [hget, if_neg hne]
    · intro code a ha
      have hne : code ≠ account.code := by
        rintro rfl
        cases hcode.symm.trans ha
      rwa [getByCode_add h, if_neg hne]
    · intro code a ha
      rw [getByCode_add h] at ha
      split_ifs at ha with hcode
      · rw [← Option.some.inj ha]
        refine .inr ⟨hccy, ?_, ?_⟩
        · rw [hcode, hcreat.number, Js.trim_trim]
        · have hactive : decide (account.active ≠ some false) = true := hcreat.active
          intro hfalse
          cases hflag : account.active with
          | none =>
            rw [hflag] at hfalse
            cases hfalse
          | some flag =>
            rw [hflag] at hfalse hactive
            exact of_decide_eq_true hactive hfalse
      · exact .inl ha

theorem createMissing_ok {new : List (String × QboRow)} (hplac : ∀ p ∈ new, Placeable ctx p)
    (htaken : Taken ctx chart new) :
    ∃ chart', createMissing ctx chart new = (.ok (), chart') ∧ Grown ctx chart chart' ∧
      ∀ p ∈ new, (chart'.getByCode p.1).isSome := by
  induction new generalizing chart with
  | nil => exact ⟨chart, rfl, .refl chart, forall_mem_nil _⟩
  | cons p new ih =>
    obtain ⟨code, row⟩ := p
    rw [forall_mem_cons] at hplac
    obtain ⟨subtype, hsub⟩ := Option.ne_none_iff_exists'.mp hplac.1
    obtain ⟨chart₁, hadd, hown, htaken⟩ := htaken subtype hsub
    obtain ⟨chart', hrest, hgrown, hall⟩ := ih hplac.2 htaken
    refine ⟨chart', ?_, (grown_addAccount hadd).trans hgrown, forall_mem_cons.mpr ⟨?_, hall⟩⟩
    · unfold createMissing
      dsimp only at hsub
      rw [hsub]
      dsimp only
      rw [hadd]
      exact hrest
    · obtain ⟨a, ha⟩ := Option.isSome_iff_exists.mp hown
      exact Option.isSome_iff_exists.mpr ⟨a, hgrown.codes code a ha⟩

theorem createMissing_unplaceable {new : List (String × QboRow)}
    (hfst : ∃ p ∈ new.head?, ¬ Placeable ctx p) :
    ∃ e, createMissing ctx chart new = (.error e, chart) := by
  obtain ⟨⟨code, row⟩, hp, hnot⟩ := hfst
  obtain ⟨rest, rfl⟩ := head?_eq_some_iff.mp hp
  unfold createMissing
  have hnone : subtypeForAccountType ctx row.accountType = none := not_not.mp hnot
  rw [hnone]
  exact ⟨_, rfl⟩

theorem Copy.grow (h : Copy ctx s) (hgrown : Grown ctx s.chart chart) :
    Copy ctx { s with chart := chart } where
  own := h.own
  covers e he l hl := by
    obtain ⟨a, ha⟩ := Option.isSome_iff_exists.mp (h.covers e he l hl)
    exact Option.isSome_iff_exists.mpr ⟨a, hgrown.ids _ a ha⟩
  balanced := h.balanced
  numbers code a ha := (hgrown.new code a ha).elim (h.numbers code a) fun h => ⟨h.1, h.2.1⟩
  opened := h.opened

theorem ledgerBalances_grow (h : Copy ctx s) (hgrown : Grown ctx s.chart chart) (asOf : String) :
    ledgerBalances ctx { s with chart := chart } asOf = ledgerBalances ctx s asOf := by
  have haccounts : (netByAccountIn (some ⟨none, some asOf⟩) (ctx.journal s)).keys.filterMap chart.get =
      (netByAccountIn (some ⟨none, some asOf⟩) (ctx.journal s)).keys.filterMap s.chart.get := by
    refine filterMap_congr fun id hid => ?_
    rw [netByAccountIn_eq] at hid
    obtain ⟨a, ha, -⟩ := (h.covers.entriesIn _).get_of_mem_keys hid
    rw [ha, hgrown.ids id a ha]
  unfold MirrorContext.journal at haccounts
  unfold ledgerBalances computeTrialBalance MirrorContext.journal
  dsimp only
  rw [haccounts]

theorem balanceAt_grow (h : Copy ctx s) (hgrown : Grown ctx s.chart chart) (asOf code : String) :
    balanceAt ctx { s with chart := chart } asOf code =
      balanceAt ctx s asOf code := by
  rw [← at_ledgerBalances (h.grow hgrown).covers, ledgerBalances_grow h hgrown,
    at_ledgerBalances h.covers]

/-! The catch-up entry. -/

variable {call : RefreshCall} {deltas : List (String × Int)}

theorem exists_deltaLines (h : Copy ctx s)
    (hknown : ∀ p ∈ deltas, p.2 ≠ 0 ∧ ∃ a, s.chart.getByCode p.1 = some a ∧ a.active ≠ some false) :
    ∃ lines, deltas.mapM (deltaLine ctx s.chart) = .ok lines ∧
      (∀ l ∈ lines, LineOk ctx.currency s.chart l) ∧
      ∀ (w : AccountId → Int) (w' : String → Int),
        (∀ code a, s.chart.getByCode code = some a → w a.id = w' code) →
          weightedSum w lines = (deltas.map fun p => w' p.1 * p.2).sum := by
  induction deltas with
  | nil => exact ⟨[], rfl, forall_mem_nil _, fun _ _ _ => rfl⟩
  | cons p deltas ih =>
    rw [forall_mem_cons] at hknown
    obtain ⟨⟨hne, a, ha, hactive⟩, hknown⟩ := hknown
    obtain ⟨lines, hlines, hok, hwt⟩ := ih hknown
    obtain ⟨hccy, htrim⟩ := h.numbers p.1 a ha
    have hline : deltaLine ctx s.chart p =
        .ok ⟨a.id, if 0 < p.2 then .debit else .credit, ⟨|p.2|, ctx.currency⟩, none, none⟩ := by
      unfold deltaLine
      rw [htrim, ha]
    refine ⟨_, mapM_eq_ok.mpr (.cons hline (mapM_eq_ok.mp hlines)), ?_, ?_⟩
    · refine forall_mem_cons.mpr ⟨?_, hok⟩
      exact ⟨a, (s.chart.code_of_get ha).2, hactive, rfl, congrArg _ hccy, abs_pos.mpr hne⟩
    · intro w w' hw
      have hsgn : (if 0 < p.2 then EntrySide.debit else EntrySide.credit).signed |p.2| = p.2 := by
        split_ifs with hpos
        · exact abs_of_pos hpos
        · rw [EntrySide.signed, abs_of_nonpos (not_lt.mp hpos), neg_neg]
      rw [weightedSum_cons, hwt w w' hw, map_cons, sum_cons]
      dsimp only
      rw [hsgn, hw p.1 a ha]

theorem inWindow_self (asOf : String) : inWindow asOf (some ⟨none, some asOf⟩) = true := by
  have hself : ¬ Before asOf asOf := lt_irrefl _
  unfold inWindow
  simp only [Option.any_none, Bool.false_eq_true, if_false, Option.any_some, decide_eq_true_iff, hself]

theorem postCatchUp_ok (h : Copy ctx s) (call : RefreshCall) (hne : deltas ≠ [])
    (hzero : (deltas.map Prod.snd).sum = 0)
    (hknown : ∀ p ∈ deltas, p.2 ≠ 0 ∧ ∃ a, s.chart.getByCode p.1 = some a ∧ a.active ≠ some false)
    (hfree : s.ledger.store.getByIdempotencyKey ctx.tenant (mirrorKey ctx call.asOf deltas) = none) :
    ∃ e s', postCatchUp ctx s call deltas = (.ok e, s') ∧ s'.chart = s.chart ∧ Copy ctx s' ∧
      ∀ code a, s.chart.getByCode code = some a → balanceAt ctx s' call.asOf code =
        balanceAt ctx s call.asOf code +
          (deltas.map fun p => (if p.1 = code then 1 else 0) * p.2).sum := by
  obtain ⟨lines, hlines, hok, hwt⟩ := exists_deltaLines h hknown
  have hbal : sideTotal .debit lines = sideTotal .credit lines := by
    have hone := hwt (fun _ => 1) (fun _ => 1) fun _ _ _ => rfl
    simp only [one_mul] at hone
    rw [weightedSum_one] at hone
    have hsum : (deltas.map fun p => p.2).sum = 0 := hzero
    omega
  have hlength : 2 ≤ lines.length := by
    refine two_le_length ?_ (fun l hl => ?_) hbal
    · rintro rfl
      exact hne (forall₂_nil_right_iff.mp (mapM_eq_ok.mp hlines))
    · obtain ⟨_, _, _, _, _, hpos⟩ := hok l hl
      exact hpos
  have happends : s.ledger.Appends s.chart (catchUpCommand ctx call deltas lines) :=
    ⟨hfree, h.opened _, validateAndBuildLines_eq_ok.mpr ⟨hlength, hok, hbal, rfl⟩⟩
  have hpost : (PostingEngine.post s.chart (catchUpCommand ctx call deltas lines) ⟨call.now⟩).run
      LedgerCall.exec s.ledger = (.ok (s.ledger.entryOf (catchUpCommand ctx call deltas lines) ⟨call.now⟩),
        s.ledger.posted (catchUpCommand ctx call deltas lines) ⟨call.now⟩) := by
    have hends := PostingEngine.postEnds s.chart (catchUpCommand ctx call deltas lines) ⟨call.now⟩
      s.ledger
    generalize (PostingEngine.post s.chart (catchUpCommand ctx call deltas lines) ⟨call.now⟩).run
      LedgerCall.exec s.ledger = r at hends ⊢
    cases hends with
    | answered hanswer => exact absurd hanswer (Ledger.not_answers_of_free happends.free)
    | refused err _ hnot => exact absurd happends hnot
    | appended _ => rfl
  refine ⟨s.ledger.entryOf (catchUpCommand ctx call deltas lines) ⟨call.now⟩,
    ⟨s.chart, s.ledger.posted (catchUpCommand ctx call deltas lines) ⟨call.now⟩⟩, ?_, rfl, ?_, ?_⟩
  · unfold postCatchUp
    rw [hlines]
    dsimp only
    rw [hpost]
    rfl
  all_goals
    have hjnl : ctx.journal
        ⟨s.chart, s.ledger.posted (catchUpCommand ctx call deltas lines) ⟨call.now⟩⟩ =
          ctx.journal s ++
            [s.ledger.entryOf (catchUpCommand ctx call deltas lines) ⟨call.now⟩] := by
      unfold MirrorContext.journal
      dsimp only
      rw [Ledger.journal_posted ⟨call.now⟩ happends ctx.tenant]
      exact if_pos rfl
  · constructor
    case own =>
      intro e he
      rw [hjnl] at he
      rcases mem_append.mp he with he | he
      · exact h.own e he
      · rw [mem_singleton.mp he]
        rfl
    case covers =>
      intro e he l hl
      rw [hjnl] at he
      rcases mem_append.mp he with he | he
      · exact h.covers e he l hl
      · rw [mem_singleton.mp he] at hl
        obtain ⟨a, ha, -⟩ := hok l hl
        exact Option.isSome_iff_exists.mpr ⟨a, ha⟩
    case balanced =>
      intro e he
      rw [hjnl] at he
      rcases mem_append.mp he with he | he
      · exact h.balanced e he
      · rw [mem_singleton.mp he]
        exact hbal
    case numbers => exact h.numbers
    case opened => exact h.opened
  · intro code a ha
    unfold balanceAt
    dsimp only
    rw [ha]
    dsimp only
    rw [hjnl]
    have hwnd : entriesIn (some ⟨none, some call.asOf⟩) (ctx.journal s ++
        [s.ledger.entryOf (catchUpCommand ctx call deltas lines) ⟨call.now⟩]) =
        entriesIn (some ⟨none, some call.asOf⟩) (ctx.journal s) ++
          [s.ledger.entryOf (catchUpCommand ctx call deltas lines) ⟨call.now⟩] := by
      unfold entriesIn
      rw [filter_append]
      refine congrArg _ (filter_eq_self.mpr fun e he => ?_)
      rw [mem_singleton.mp he]
      exact inWindow_self call.asOf
    rw [hwnd, movedOn_append]
    refine congrArg _ ?_
    have hsing := hwt (fun id => if id = a.id then 1 else 0) (fun c => if c = code then 1 else 0) (by
      intro code' a' ha'
      exact if_congr (id_eq_of_getByCode ha' ha) rfl rfl)
    rw [weightedSum_single] at hsing
    rw [← hsing]
    exact Int.add_zero _

/-! A refresh, and a run of them. -/

/-- QuickBooks presents a balanced trial balance whose new accounts can be placed, and every read
succeeds. -/
structure Presents (ctx : MirrorContext) (s : Books π) (call : RefreshCall) (rows : List QboRow) :
    Prop where
  journal : call.journal = none
  presented : call.quickBooks = .ok rows
  balanced : ((targetOf rows).total fun _ n => n) = 0
  chart : call.chart = none
  placeable : ∀ p ∈ missing s.chart rows, Placeable ctx p
  before : call.before = none
  after : call.after = none

structure SoundFor (ctx : MirrorContext) (s : Books π) (call : RefreshCall) (rows : List QboRow) :
    Prop where
  /-- Where an account cannot be placed, the first new one cannot. -/
  first : ∀ p ∈ (missing s.chart rows).head?, Placeable ctx p →
    ∀ p' ∈ missing s.chart rows, Placeable ctx p'
  taken : (∀ p ∈ missing s.chart rows, Placeable ctx p) → Taken ctx s.chart (missing s.chart rows)
  before : call.before ≠ none → missing s.chart rows = []
  after : call.after ≠ none → deltasOf (targetOf rows) (ledgerBalances ctx s call.asOf) = []
  /-- No entry has the key of this day and these deltas. -/
  free : deltasOf (targetOf rows) (ledgerBalances ctx s call.asOf) ≠ [] →
    s.ledger.store.getByIdempotencyKey ctx.tenant
      (mirrorKey ctx call.asOf (deltasOf (targetOf rows) (ledgerBalances ctx s call.asOf))) = none
  active : ∀ p ∈ deltasOf (targetOf rows) (ledgerBalances ctx s call.asOf), ∀ a,
    s.chart.getByCode p.1 = some a → a.active ≠ some false

def Sound (ctx : MirrorContext) (s : Books π) (call : RefreshCall) : Prop :=
  ∀ rows, rowsToMatch ctx s call = .ok rows → SoundFor ctx s call rows

/-- The ledger has QuickBooks' balances, or the refresh is refused and nothing has changed. -/
structure Mirrored (ctx : MirrorContext) (s : Books π) (call : RefreshCall) : Prop where
  exact : ∀ rows, Presents ctx s call rows →
    (∃ r, (refreshMirror ctx s call).1 = .ok r) ∧
      ∀ code, balanceAt ctx (refreshMirror ctx s call).2 call.asOf code = (targetOf rows).at_ code
  refused : ∀ e, (refreshMirror ctx s call).1 = .error e → (refreshMirror ctx s call).2 = s

omit [PeriodStore π] in
theorem rowsToMatch_ok (h : rowsToMatch ctx s call = .ok rows) :
    call.quickBooks = .ok rows ∧ ((targetOf rows).total fun _ n => n) = 0 := by
  unfold rowsToMatch at h
  cases hjnl : call.journal with
  | some message =>
    rw [hjnl] at h
    cases h
  | none =>
    rw [hjnl] at h
    dsimp only at h
    rw [refuse_eq_ok] at h
    cases hrows : call.quickBooks with
    | error message =>
      rw [hrows] at h
      cases h.2
    | ok rows' =>
      rw [hrows] at h
      dsimp only at h
      rw [refuse_eq_ok] at h
      cases hchart : call.chart with
      | some message =>
        rw [hchart] at h
        cases h.2.2
      | none =>
        rw [hchart] at h
        obtain ⟨-, hbal, h⟩ := h
        rw [← Except.ok.inj h]
        exact ⟨rfl, not_not.mp hbal⟩

theorem Presents.rowsToMatch (h : Copy ctx s) (hp : Presents ctx s call rows) :
    rowsToMatch ctx s call = .ok rows := by
  have hfor : foreignEntries ctx s = [] :=
    filter_eq_nil_iff.mpr fun e he hne => of_decide_eq_true hne (h.own e he)
  unfold Migration.rowsToMatch
  rw [hp.journal]
  dsimp only
  rw [hfor, if_neg (not_not.mpr rfl), hp.presented]
  dsimp only
  rw [hp.balanced, if_neg (not_not.mpr rfl), hp.chart]

theorem known_of_delta (h : Copy ctx s) (hgrown : Grown ctx s.chart chart)
    (hadded : ∀ p ∈ missing s.chart rows, (chart.getByCode p.1).isSome)
    (hactive : ∀ p ∈ deltasOf (targetOf rows) (ledgerBalances ctx s call.asOf), ∀ a,
      s.chart.getByCode p.1 = some a → a.active ≠ some false) {p : String × Int}
    (hp : p ∈ deltasOf (targetOf rows) (ledgerBalances ctx s call.asOf)) :
    p.2 ≠ 0 ∧ ∃ a, chart.getByCode p.1 = some a ∧ a.active ≠ some false := by
  obtain ⟨hne, hdelta⟩ := mem_deltasOf.mp hp
  refine ⟨hne, ?_⟩
  cases hold : s.chart.getByCode p.1 with
  | some a => exact ⟨a, hgrown.codes p.1 a hold, hactive p hp a hold⟩
  | none =>
    have hours : (ledgerBalances ctx s call.asOf).at_ p.1 = 0 := by
      rw [at_ledgerBalances h.covers, balanceAt, hold]
    rw [hours, Int.sub_zero] at hdelta
    have htgt : (targetOf rows).at_ p.1 ≠ 0 := hdelta ▸ hne
    -- the code has a row, and no account yet
    obtain ⟨row, hrow⟩ : ∃ row, (p.1, row) ∈ (metaOf rows).entries := by
      by_contra hno
      refine htgt ?_
      unfold targetOf
      rw [at_tally, filter_eq_nil_iff.mpr]
      · rfl
      · intro r hr hcode
        obtain ⟨row, hrow⟩ := get?_metaOf hr
        rw [of_decide_eq_true hcode] at hrow
        exact hno ⟨row, mem_entries.mpr hrow⟩
    have hmis : (p.1, row) ∈ missing s.chart rows := by
      refine mem_filter.mpr ⟨hrow, decide_eq_true ⟨fun hin => ?_, htgt⟩⟩
      obtain ⟨a, ha, hacode⟩ := mem_map.mp hin
      have hfound := getByCode_of_mem ha
      rw [hacode] at hfound
      cases hold.symm.trans hfound
    obtain ⟨a, ha⟩ := Option.isSome_iff_exists.mp (hadded _ hmis)
    refine ⟨a, ha, ?_⟩
    rcases hgrown.new p.1 a ha with hbef | ⟨-, -, hactive⟩
    · cases hold.symm.trans hbef
    · exact hactive

theorem refreshMirror_of_sound (h : Copy ctx s) (hsound : Sound ctx s call) :
    Mirrored ctx s call ∧ Copy ctx (refreshMirror ctx s call).2 := by
  cases hrows : rowsToMatch ctx s call with
  | error e =>
    have hrun : refreshMirror ctx s call = (.error e, s) := by
      unfold refreshMirror
      rw [hrows]
    rw [hrun]
    refine ⟨⟨fun rows hp => ?_, fun _ _ => by rw [hrun]⟩, h⟩
    cases hrows.symm.trans (hp.rowsToMatch h)
  | ok rows =>
    have hs := hsound rows hrows
    by_cases hplac : ∀ p ∈ missing s.chart rows, Placeable ctx p
    · obtain ⟨chart, hcreate, hgrown, hadded⟩ := createMissing_ok hplac (hs.taken hplac)
      have hcopy := h.grow hgrown
      cases hbef : call.before with
      | some message =>
        have hnone := hs.before (by rw [hbef]; exact nofun)
        rw [hnone] at hcreate
        obtain ⟨-, rfl⟩ := Prod.mk.injEq .. ▸ hcreate
        have hrun : refreshMirror ctx s call = (.error (.balancesRead message), s) := by
          unfold refreshMirror
          rw [hrows]
          dsimp only
          rw [hnone]
          dsimp only [createMissing]
          rw [hbef]
        rw [hrun]
        refine ⟨⟨fun rows' hp => ?_, fun _ _ => by rw [hrun]⟩, h⟩
        cases hbef.symm.trans hp.before
      | none =>
        by_cases hnoth : deltasOf (targetOf rows) (ledgerBalances ctx s call.asOf) = []
        · have hrun : refreshMirror ctx s call =
              (.ok ⟨0, (missing s.chart rows).length, 0, none, true⟩, ⟨chart, s.ledger⟩) := by
            unfold refreshMirror
            rw [hrows]
            dsimp only
            rw [hcreate]
            dsimp only
            rw [hbef]
            dsimp only
            rw [ledgerBalances_grow h hgrown, if_pos hnoth]
          rw [hrun]
          refine ⟨⟨fun rows' hp => ?_, fun e he => ?_⟩, hcopy⟩
          · obtain rfl := Except.ok.inj ((rowsToMatch_ok hrows).1.symm.trans hp.presented)
            rw [hrun]
            refine ⟨⟨_, rfl⟩, fun code => ?_⟩
            rw [deltasOf_eq_nil.mp hnoth code, at_ledgerBalances h.covers]
            exact balanceAt_grow h hgrown call.asOf code
          · rw [hrun] at he
            cases he
        · have hknown := fun p hp => known_of_delta (p := p) h hgrown hadded hs.active hp
          have hzero : ((deltasOf (targetOf rows) (ledgerBalances ctx s call.asOf)).map
              Prod.snd).sum = 0 := by
            rw [total_deltasOf, (rowsToMatch_ok hrows).2, total_ledgerBalances h]
            rfl
          obtain ⟨e, s', hpost, hchart, hcopy', hmov⟩ :=
            postCatchUp_ok hcopy call hnoth hzero hknown (hs.free hnoth)
          have hexact : ∀ code, balanceAt ctx s' call.asOf code = (targetOf rows).at_ code := by
            intro code
            have hdelta := delta_at (targetOf rows) (ledgerBalances ctx s call.asOf) code
            rw [at_ledgerBalances h.covers] at hdelta
            cases hcode : chart.getByCode code with
            | some a =>
              rw [hmov code a hcode, hdelta, balanceAt_grow h hgrown]
              omega
            | none =>
              have hsame : (targetOf rows).at_ code =
                  (ledgerBalances ctx s call.asOf).at_ code := by
                by_contra hne
                obtain ⟨-, a, ha, -⟩ := hknown (code, _) (mem_deltasOf.mpr ⟨sub_ne_zero.mpr hne, rfl⟩)
                cases hcode.symm.trans ha
              rw [hsame, at_ledgerBalances h.covers, ← balanceAt_grow h hgrown, balanceAt, balanceAt,
                hchart, hcode]
          have hleft : deltasOf (targetOf rows) (ledgerBalances ctx s' call.asOf) = [] := by
            refine deltasOf_eq_nil.mpr fun code => ?_
            rw [at_ledgerBalances hcopy'.covers, hexact]
          have hafter : call.after = none := by
            by_contra hfail
            exact hnoth (hs.after hfail)
          have hrun : ∃ r, refreshMirror ctx s call = (.ok r, s') := by
            unfold refreshMirror
            rw [hrows]
            dsimp only
            rw [hcreate]
            dsimp only
            rw [hbef]
            dsimp only
            rw [ledgerBalances_grow h hgrown, if_neg hnoth, hpost]
            dsimp only
            rw [hafter]
            dsimp only
            rw [hleft, if_neg (not_not.mpr rfl)]
            exact ⟨_, rfl⟩
          obtain ⟨r, hrun⟩ := hrun
          rw [hrun]
          refine ⟨⟨fun rows' hp => ?_, fun e he => ?_⟩, hcopy'⟩
          · obtain rfl := Except.ok.inj ((rowsToMatch_ok hrows).1.symm.trans hp.presented)
            rw [hrun]
            exact ⟨⟨r, rfl⟩, hexact⟩
          · rw [hrun] at he
            cases he
    · have hfst : ∃ p ∈ (missing s.chart rows).head?, ¬ Placeable ctx p := by
        cases hhead : (missing s.chart rows).head? with
        | none =>
          rw [head?_eq_none_iff] at hhead
          rw [hhead] at hplac
          exact absurd (forall_mem_nil _) hplac
        | some p => exact ⟨p, rfl, fun hp => hplac (hs.first p hhead hp)⟩
      obtain ⟨e, hcreate⟩ := createMissing_unplaceable hfst
      have hrun : refreshMirror ctx s call = (.error e, s) := by
        unfold refreshMirror
        rw [hrows]
        dsimp only
        rw [hcreate]
      rw [hrun]
      refine ⟨⟨fun rows' hp => ?_, fun _ _ => by rw [hrun]⟩, h⟩
      obtain rfl := Except.ok.inj ((rowsToMatch_ok hrows).1.symm.trans hp.presented)
      exact absurd hp.placeable hplac

end

/-- In every run of refreshes that are sound where they are made, each leaves the ledger with
QuickBooks' balances, and one that is refused leaves it as it was. -/
theorem mirror_is_exact {s : Books π} (h : Copy ctx s) (calls : List RefreshCall)
    (hsound : EachStep (fun s call => (refreshMirror ctx s call).2) (Sound ctx) s calls) :
    EachStep (fun s call => (refreshMirror ctx s call).2) (Mirrored ctx) s calls := by
  induction calls generalizing s with
  | nil => exact eachStep_nil
  | cons call calls ih =>
    rw [eachStep_cons] at hsound ⊢
    obtain ⟨hmir, hcopy⟩ := refreshMirror_of_sound h hsound.1
    exact ⟨hmir, ih hcopy hsound.2⟩

/-! A ledger of two accounts. -/

def mirrorContext : MirrorContext where
  tenant := "t"
  currency := usd
  lower := Js.toLowerCase
  digest := id
  localeLe a b := decide (utf16 a ≤ utf16 b)

def twoAccounts : ChartOfAccounts :=
  ((ChartOfAccounts.ofAccounts
    [⟨"a-1", "1000", "Checking", .asset, usd, none, some .bank, none, none⟩,
      ⟨"a-2", "3000", "Equity", .equity, usd, none, some .equity, none, none⟩]).toOption).getD .empty

def emptyBooks : Books (InMemoryPeriodStore TenantId PeriodKey) := ⟨twoAccounts, ⟨.empty, .empty⟩⟩

theorem emptyBooks_copy : Copy mirrorContext emptyBooks := by
  have hjnl : mirrorContext.journal emptyBooks = [] := rfl
  have haccounts : ∀ a ∈ twoAccounts.list, a.currency = usd ∧ Js.trim a.code = a.code := by
    decide +kernel
  constructor
  case own => exact fun e he => absurd (hjnl ▸ he) not_mem_nil
  case covers => exact fun e he => absurd (hjnl ▸ he) not_mem_nil
  case balanced => exact fun e he => absurd (hjnl ▸ he) not_mem_nil
  case numbers =>
    intro code a ha
    obtain ⟨hcode, hid⟩ := twoAccounts.code_of_get ha
    rw [← hcode]
    exact haccounts a (mem_map.mpr ⟨_, mem_entries.mpr hid, rfl⟩)
  case opened =>
    intro p
    have hopened : PeriodStore.status emptyBooks.ledger.periods mirrorContext.tenant p = .opened := rfl
    rw [hopened]
    exact nofun

def standsAt (minor : Int) (now : String) : RefreshCall where
  asOf := "2026-03-02"
  journal := none
  quickBooks := .ok [⟨"1000", "Checking", "Bank", minor, 0⟩, ⟨"3000", "Equity", "Equity", 0, minor⟩]
  chart := none
  before := none
  after := none
  now := now

theorem back_and_forth_not_mirrored : Copy mirrorContext emptyBooks ∧
    ¬ EachStep (fun s call => (refreshMirror mirrorContext s call).2) (Mirrored mirrorContext) emptyBooks
      [standsAt 10000 "09:00", standsAt 0 "12:00", standsAt 10000 "15:00"] := by
  refine ⟨emptyBooks_copy, fun hsteps => ?_⟩
  have hthird := hsteps [standsAt 10000 "09:00", standsAt 0 "12:00"] (standsAt 10000 "15:00")
    prefix_rfl
  have href : (refreshMirror mirrorContext
      ([standsAt 10000 "09:00", standsAt 0 "12:00"].foldl
        (fun s call => (refreshMirror mirrorContext s call).2) emptyBooks)
      (standsAt 10000 "15:00")).1.isOk = false := by decide +kernel
  have hmis : (missing ([standsAt 10000 "09:00", standsAt 0 "12:00"].foldl
      (fun s call => (refreshMirror mirrorContext s call).2) emptyBooks).chart
      [⟨"1000", "Checking", "Bank", 10000, 0⟩, ⟨"3000", "Equity", "Equity", 0, 10000⟩]).length = 0 := by
    decide +kernel
  obtain ⟨⟨r, hr⟩, -⟩ := hthird.exact
    [⟨"1000", "Checking", "Bank", 10000, 0⟩, ⟨"3000", "Equity", "Equity", 0, 10000⟩] (by
      constructor
      case journal => rfl
      case presented => rfl
      case balanced => decide +kernel
      case chart => rfl
      case placeable =>
        rw [length_eq_zero_iff.mp hmis]
        exact forall_mem_nil _
      case before => rfl
      case after => rfl)
  rw [hr] at href
  cases href

theorem mirror_is_exact_once :
    EachStep (fun s call => (refreshMirror mirrorContext s call).2) (Mirrored mirrorContext) emptyBooks
      [standsAt 10000 "09:00"] := by
  refine mirror_is_exact mirrorContext emptyBooks_copy _ (eachStep_cons.mpr ⟨?_, eachStep_nil⟩)
  intro rows hrows
  obtain rfl := Except.ok.inj (hrows.symm.trans (by rfl : rowsToMatch mirrorContext emptyBooks
    (standsAt 10000 "09:00") = .ok [⟨"1000", "Checking", "Bank", 10000, 0⟩,
      ⟨"3000", "Equity", "Equity", 0, 10000⟩]))
  have hmis : missing emptyBooks.chart [⟨"1000", "Checking", "Bank", 10000, 0⟩,
      ⟨"3000", "Equity", "Equity", 0, 10000⟩] = [] := by
    rw [← length_eq_zero_iff]
    decide +kernel
  have hactive : ∀ a ∈ twoAccounts.list, a.active ≠ some false := by decide +kernel
  constructor
  case first =>
    rw [hmis]
    exact fun _ hp => absurd hp (Option.not_mem_none _)
  case taken =>
    rw [hmis]
    exact fun _ => trivial
  case before => exact fun hfail => absurd rfl hfail
  case after => exact fun hfail => absurd rfl hfail
  case free => exact fun _ => rfl
  case active =>
    intro p _ a ha
    obtain ⟨-, hid⟩ := twoAccounts.code_of_get ha
    exact hactive a (mem_map.mpr ⟨_, mem_entries.mpr hid, rfl⟩)

end Rgnr8.Migration
