import Rgnr8.Service.ChartWalks

/-! A chart that is edited while its books are posted to: creates, edits, posts, reversals and
period operations, in any order. -/

namespace Rgnr8.Service
open Lib Lib.Js Kernel SavedAccounts InMemoryLedgerStore List

inductive ChartBooksOp where
  | create (currency : Currency) (input : NewAccount)
  | edit (currency : Currency) (quickBooksOfRecord : Bool) (code : String) (changes : AccountChanges)
  | call (c : PostingCall)
  | periods (op : PeriodOp TenantId PeriodKey)

structure ChartBooks (π : Type) where
  saved : SavedAccounts
  ledger : Ledger π

def Posted (id : AccountId) (journal : List PostedEntry) : Prop :=
  ∃ e ∈ journal, ∃ l ∈ e.lines, l.accountId = id

instance (id : AccountId) (journal : List PostedEntry) : Decidable (Posted id journal) :=
  inferInstanceAs (Decidable (∃ e ∈ journal, ∃ l ∈ e.lines, l.accountId = id))

def linesOn (id : AccountId) (journal : List PostedEntry) : List PostedLine :=
  (journal.flatMap fun e => e.lines).filter fun l => l.accountId = id

namespace ChartBooks
section
variable {π : Type} [PeriodStore π]

def journal (s : ChartBooks π) (t : TenantId) : List PostedEntry := s.ledger.store.list t

def facts (s : ChartBooks π) (t : TenantId) (currency : Currency) (quickBooksOfRecord : Bool) :
    BookFacts where
  currency := currency
  quickBooksOfRecord := quickBooksOfRecord
  hasPostings a := Posted a.id (s.journal t)
  balanceMinor a := balanceOf a.id (s.journal t)

def step (order : RowOrder) (t : TenantId) (s : ChartBooks π) : ChartBooksOp → ChartBooks π
  | .create currency input =>
    { s with saved := createAccount order (s.facts t currency false) s.saved input }
  | .edit currency quickBooksOfRecord code changes =>
    { s with saved := editAccount order (s.facts t currency quickBooksOfRecord) s.saved code changes }
  | .call c => match s.saved.chart order with
    | .ok chart => { s with ledger := ((c.program chart).run LedgerCall.exec s.ledger).2 }
    | .error _ => s
  | .periods op => { s with ledger.periods := PeriodStore.apply s.ledger.periods op }

def Allowed (s : ChartBooks π) : ChartBooksOp → Prop
  | .create _ input => s.saved.get (accountIdFor (trim input.code)) = none
  | .edit _ _ code changes => changes.active = some false → ∀ a ∈ s.saved.list, a.code = code →
      a.isActive = true → ∀ b ∈ s.saved.list, b.parentId = some a.id → b.isActive = false
  | _ => True

/-- The chart is sound, what is posted to is in it, and what is inactive is at zero. -/
structure Sound (t : TenantId) (s : ChartBooks π) : Prop where
  chart : ChartOk s.saved
  covered : ∀ e ∈ s.journal t, ∀ l ∈ e.lines, ∃ a, s.saved.get l.accountId = some a
  inactive : ∀ a ∈ s.saved.list, a.isActive = false → balanceOf a.id (s.journal t) = 0

variable {order : RowOrder} {t : TenantId} {s : ChartBooks π}

theorem refuseInactive_ok {chart : ChartOfAccounts} {lines : List PostedLine}
    (h : PostingEngine.refuseInactive chart lines = .ok ()) :
    ∀ l ∈ lines, ∀ a, chart.get l.accountId = some a → a.isActive = true := by
  induction lines with
  | nil => exact fun l hl => absurd hl not_mem_nil
  | cons line lines ih =>
    unfold PostingEngine.refuseInactive at h
    rw [forall_mem_cons]
    cases hget : chart.get line.accountId with
    | none =>
      rw [hget] at h
      refine ⟨fun a ha => ?_, ih h⟩
      cases ha
    | some account =>
      rw [hget] at h
      dsimp only at h
      rw [Fallible.refuse_eq_ok] at h
      refine ⟨fun a ha => ?_, ih h.2⟩
      rw [← Option.some.inj ha]
      exact decide_eq_true h.1

variable (order) in
theorem journal_call (hsound : Sound t s) (c : PostingCall) :
    (s.step order t (.call c)).journal t = s.journal t ∨
    ∃ e, (s.step order t (.call c)).journal t = s.journal t ++ [e] ∧
      ∀ l ∈ e.lines, ∃ a, s.saved.get l.accountId = some a ∧ a.isActive = true := by
  cases hchart : s.saved.chart order with
  | error message =>
    refine .inl ?_
    simp only [step, hchart]
  | ok chart =>
    have hstep : (s.step order t (.call c)).journal t =
        ((⟨chart, s.ledger⟩ : Books π).perform c).2.journal t := by
      simp only [step, hchart]
      rfl
    rw [hstep]
    -- an account of the chart is one that is kept
    have hkept : ∀ id a, chart.get id = some a → a.isActive = true →
        ∃ b, s.saved.get id = some b ∧ b.isActive = true := by
      intro id a ha hactive
      rw [get_chart hchart] at ha
      obtain ⟨b, hb, rfl⟩ := Option.map_eq_some_iff.mp ha
      rw [isActive_stored] at hactive
      exact ⟨b, hb, hactive⟩
    generalize hr : (⟨chart, s.ledger⟩ : Books π).perform c = r
    have hp := Books.performed (⟨chart, s.ledger⟩ : Books π) c
    rw [hr] at hp
    cases hp with
    | unchanged r => exact .inl rfl
    | @posted command opts hfree hopen hlines hok hbalance =>
      have hlist := list_append_of_none hfree
        (d := PostingEngine.draftOfCommand command opts command.lines) t
      by_cases ht : t = command.tenantId
      · refine .inr ⟨_, hlist.trans (if_pos ht), ?_⟩
        rw [append_of_none hfree]
        intro l hl
        obtain ⟨a, ha, hactive, -⟩ := hok l hl
        exact hkept _ a ha (decide_eq_true hactive)
      · exact .inl (hlist.trans (if_neg ht))
    | @reversed tenant originalId opts original horiginal hactive hfree hopen =>
      have hlist := list_append_of_none hfree
        (d := PostingEngine.draftOfReversal tenant original opts) t
      by_cases ht : t = tenant
      · refine .inr ⟨_, hlist.trans (if_pos ht), ?_⟩
        rw [append_of_none hfree]
        intro l hl
        obtain ⟨line, hline, rfl⟩ := mem_map.mp hl
        subst ht
        obtain ⟨b, hb⟩ := hsound.covered original
          (getById_iff.mp horiginal).1 line hline
        have hget : chart.get line.accountId = some b.stored := by
          rw [get_chart hchart, hb]
          rfl
        exact hkept _ _ hget (refuseInactive_ok hactive line hline _ hget)
      · exact .inl (hlist.trans (if_neg ht))

/-- What a step leaves alone: the types of accounts that have been posted to, and the lines of
inactive ones. -/
structure Kept (t : TenantId) (s s' : ChartBooks π) : Prop where
  grows : s.journal t <+: s'.journal t
  types : ∀ a ∈ s.saved.list, Posted a.id (s.journal t) →
    ∃ a', s'.saved.get a.id = some a' ∧ a'.type = a.type
  lines : ∀ a ∈ s.saved.list, a.isActive = false →
    linesOn a.id (s'.journal t) = linesOn a.id (s.journal t)

omit [PeriodStore π] in
theorem Kept.refl (t : TenantId) (s : ChartBooks π) : Kept t s s :=
  ⟨prefix_rfl, fun a ha _ => ⟨a, mem_list.mp ha, rfl⟩, fun _ _ _ => rfl⟩

theorem sound_created (hsound : Sound t s) {currency : Currency} {input : NewAccount}
    (hallow : s.Allowed (.create currency input)) :
    Sound t (s.step order t (.create currency input)) ∧
      Kept t s (s.step order t (.create currency input)) := by
  simp only [step, createAccount]
  cases hcreat : accountCreated order (s.facts t currency false) s.saved input with
  | none => exact ⟨hsound, .refl t s⟩
  | some a =>
    obtain ⟨chart, hchart, hok⟩ := accountCreated_eq_some hcreat
    have hnew : s.saved.get a.id = none := by
      rw [hok.id, hok.number]
      exact hallow
    refine ⟨⟨chartOk_created hsound.chart hchart hok hnew, ?_, ?_⟩, prefix_rfl, ?_,
      fun _ _ _ => rfl⟩
    · intro e he l hl
      show ∃ b, (s.saved.save a).get l.accountId = some b
      rw [get_save]
      split_ifs
      · exact ⟨a, rfl⟩
      · exact hsound.covered e he l hl
    · intro b hb hinact
      rcases mem_save.mp hb with rfl | ⟨hb', -⟩
      · rw [hok.active] at hinact
        cases hinact
      · exact hsound.inactive b hb' hinact
    · intro b hb _
      refine ⟨b, ?_, rfl⟩
      have hne : b.id ≠ a.id := get_eq_none_iff.mp hnew b hb
      exact (get_save_ne hne).trans (mem_list.mp hb)

theorem sound_edited (hsound : Sound t s) {currency : Currency} {ofRecord : Bool} {code : String}
    {changes : AccountChanges} (hallow : s.Allowed (.edit currency ofRecord code changes)) :
    Sound t (s.step order t (.edit currency ofRecord code changes)) ∧
      Kept t s (s.step order t (.edit currency ofRecord code changes)) := by
  simp only [step, editAccount]
  cases hedit : accountEdited order (s.facts t currency ofRecord) s.saved code changes with
  | none => exact ⟨hsound, .refl t s⟩
  | some next =>
    obtain ⟨chart, current, hchart, hcur, hok⟩ := accountEdited_eq_some hedit
    obtain ⟨before, hbef, rfl, hcode⟩ := exists_kept hchart hcur
    have hid : next.id = before.id := hok.id
    have hsoun : ChartOk (s.saved.save next) :=
      chartOk_edited hsound.chart hchart hbef hok fun hoff hactive =>
        hallow hoff before hbef hcode hactive
    refine ⟨⟨hsoun, ?_, ?_⟩, prefix_rfl, ?_, fun _ _ _ => rfl⟩
    · intro e he l hl
      show ∃ b, (s.saved.save next).get l.accountId = some b
      rw [get_save]
      split_ifs
      · exact ⟨next, rfl⟩
      · exact hsound.covered e he l hl
    · intro b hb hinact
      rcases mem_save.mp hb with rfl | ⟨hb', -⟩
      · show balanceOf b.id (s.journal t) = 0
        rw [hid]
        by_cases hactive : before.isActive = true
        · -- it has just been made inactive, which takes a balance of zero
          refine hok.inactivated ?_ (by rwa [isActive_stored])
          unfold Account.isActive at hinact
          rw [hok.active, isActive_stored, hactive] at hinact
          cases hchg : changes.active with
          | none => simp [hchg] at hinact
          | some active => cases active <;> simp [hchg] at hinact ⊢
        · exact hsound.inactive before hbef (Bool.eq_false_iff.mpr hactive)
      · exact hsound.inactive b hb' hinact
    · intro b hb hposted
      show ∃ a', (s.saved.save next).get b.id = some a' ∧ _
      rw [get_save]
      by_cases hsame : b.id = next.id
      · rw [if_pos hsame]
        refine ⟨next, rfl, ?_⟩
        obtain rfl := eq_of_id_eq hb hbef (hsame.trans hid)
        by_contra hret
        have hunp : decide (Posted b.id (s.journal t)) = false := (hok.retyped hret).1
        rw [decide_eq_true hposted] at hunp
        cases hunp
      · rw [if_neg hsame]
        exact ⟨b, mem_list.mp hb, rfl⟩

theorem linesOn_concat_of_off {id : AccountId} {journal : List PostedEntry} {e : PostedEntry}
    (h : ∀ l ∈ e.lines, l.accountId ≠ id) : linesOn id (journal ++ [e]) = linesOn id journal := by
  unfold linesOn
  rw [flatMap_append, filter_append, flatMap_singleton]
  have hnone : e.lines.filter (fun l => l.accountId = id) = [] :=
    filter_eq_nil_iff.mpr fun l hl hon => h l hl (of_decide_eq_true hon)
  rw [hnone, append_nil]

theorem sound_called (hsound : Sound t s) (c : PostingCall) :
    Sound t (s.step order t (.call c)) ∧ Kept t s (s.step order t (.call c)) := by
  have hsav : (s.step order t (.call c)).saved = s.saved := by
    simp only [step]
    cases s.saved.chart order <;> rfl
  rcases journal_call order hsound c with hsame | ⟨e, hjnl, hlines⟩
  · refine ⟨⟨hsav ▸ hsound.chart, ?_, ?_⟩, hsame ▸ prefix_rfl, ?_, ?_⟩
    · rw [hsame, hsav]
      exact hsound.covered
    · rw [hsame, hsav]
      exact hsound.inactive
    · rw [hsav]
      exact fun a ha _ => ⟨a, mem_list.mp ha, rfl⟩
    · rw [hsame]
      exact fun _ _ _ => rfl
  · -- no line of the entry is on an inactive account
    have hoff : ∀ a ∈ s.saved.list, a.isActive = false → ∀ l ∈ e.lines, l.accountId ≠ a.id := by
      intro a ha hinact l hl heq
      obtain ⟨b, hb, hactive⟩ := hlines l hl
      rw [heq, mem_list.mp ha] at hb
      rw [Option.some.inj hb, hactive] at hinact
      cases hinact
    refine ⟨⟨hsav ▸ hsound.chart, ?_, ?_⟩, hjnl ▸ prefix_append .., ?_, ?_⟩
    · rw [hjnl, hsav]
      intro e' he'
      rcases mem_append.mp he' with hold | hnew
      · exact hsound.covered e' hold
      · rw [mem_singleton.mp hnew]
        intro l hl
        obtain ⟨b, hb, -⟩ := hlines l hl
        exact ⟨b, hb⟩
    · rw [hjnl, hsav]
      intro a ha hinact
      rw [balanceOf_concat, hsound.inactive a ha hinact, netOn_of_off (hoff a ha hinact)]
      rfl
    · rw [hsav]
      exact fun a ha _ => ⟨a, mem_list.mp ha, rfl⟩
    · rw [hjnl]
      exact fun a ha hinact => linesOn_concat_of_off (hoff a ha hinact)

variable (order) in
/-- One step keeps the chart and the books sound, the types of what has been posted to, and the
lines of what is inactive. -/
theorem sound_step (hsound : Sound t s) {op : ChartBooksOp} (hallow : s.Allowed op) :
    Sound t (s.step order t op) ∧ Kept t s (s.step order t op) := by
  cases op with
  | create currency input => exact sound_created hsound hallow
  | edit currency ofRecord code changes => exact sound_edited hsound hallow
  | call c => exact sound_called hsound c
  | periods op =>
    refine ⟨⟨hsound.chart, hsound.covered, hsound.inactive⟩, prefix_rfl, ?_, fun _ _ _ => rfl⟩
    exact fun a ha _ => ⟨a, mem_list.mp ha, rfl⟩

omit [PeriodStore π] in
theorem Kept.posted {s' : ChartBooks π} (h : Kept t s s') {id : AccountId}
    (hposted : Posted id (s.journal t)) : Posted id (s'.journal t) := by
  obtain ⟨e, he, hline⟩ := hposted
  exact ⟨e, h.grows.subset he, hline⟩

/-- Over any run of creates, edits, posts and reversals from a sound chart with no postings, as long
as no create takes an id in use and no account is made inactive over active ones: the chart stays
sound and what is inactive at zero, the type of an account stays from its first line on, and an
inactive account receives no line. -/
theorem charts_and_books_sound (order : RowOrder) (t : TenantId) (start : ChartBooks π)
    (hchart : ChartOk start.saved) (hempty : start.journal t = []) (ops : List ChartBooksOp)
    (hops : EachStep (step order t) Allowed start ops) :
    (∀ pre, pre <+: ops → ((pre.foldl (step order t) start).saved.list.map Account.id).Nodup ∧
      ChartOk (pre.foldl (step order t) start).saved ∧
      ∀ a ∈ (pre.foldl (step order t) start).saved.list, a.isActive = false →
        balanceOf a.id ((pre.foldl (step order t) start).journal t) = 0) ∧
    (∀ pre mid, pre ++ mid <+: ops → ∀ a ∈ (pre.foldl (step order t) start).saved.list,
      Posted a.id ((pre.foldl (step order t) start).journal t) →
      ∃ a', ((pre ++ mid).foldl (step order t) start).saved.get a.id = some a' ∧
        a'.type = a.type) ∧
    ∀ pre op, pre ++ [op] <+: ops → ∀ a ∈ (pre.foldl (step order t) start).saved.list,
      a.isActive = false →
      linesOn a.id (((pre ++ [op]).foldl (step order t) start).journal t) =
        linesOn a.id ((pre.foldl (step order t) start).journal t) := by
  have hstart : Sound t start := by
    refine ⟨hchart, ?_, ?_⟩
    · rw [hempty]
      exact fun e he => absurd he not_mem_nil
    · rw [hempty]
      exact fun a _ _ => balanceOf_nil a.id
  have hsound : Along (step order t) (Sound t) start ops :=
    along_of_eachStep (G := Sound t) (fun _ _ h hallow => (sound_step order h hallow).1) hstart hops
  refine ⟨?_, ?_, ?_⟩
  · intro pre hpre
    exact ⟨nodup_ids _, (hsound pre hpre).chart, (hsound pre hpre).inactive⟩
  · intro pre mid hsplit a ha hposted
    rw [foldl_append]
    have hpre : Sound t (pre.foldl (step order t) start) :=
      hsound pre ((prefix_append ..).trans hsplit)
    -- posted to, and still of its type
    have hkept := along_of_eachStep (G := fun s : ChartBooks π => Sound t s ∧
        Posted a.id (s.journal t) ∧ ∃ a', s.saved.get a.id = some a' ∧ a'.type = a.type)
      (fun s op hG hallow => ?_) ⟨hpre, hposted, a, mem_list.mp ha, rfl⟩
      (hops.after hsplit)
    · exact (hkept mid prefix_rfl).2.2
    · obtain ⟨hs, hp, b, hb, htype⟩ := hG
      obtain ⟨hs', hstep⟩ := sound_step order hs hallow
      obtain ⟨hmem, hid⟩ := get_iff.mp hb
      rw [← hid] at hp
      obtain ⟨c, hc, hctype⟩ := hstep.types b hmem hp
      rw [hid] at hp hc
      exact ⟨hs', hstep.posted hp, c, hc, hctype.trans htype⟩
  · intro pre op hsplit a ha hinact
    rw [foldl_append]
    have hpre : Sound t (pre.foldl (step order t) start) :=
      hsound pre ((prefix_append ..).trans hsplit)
    exact (sound_step order hpre (hops pre op hsplit)).2.lines a ha hinact

end

namespace Sample

def accounts : SavedAccounts := .saveAll .empty
  [⟨"acct:1000", "1000", "Checking", .asset, usd, none, some .bank, none, none⟩,
    ⟨"acct:6000", "6000", "Advertising", .expense, usd, none, some .expense, none, none⟩]

def start : ChartBooks (InMemoryPeriodStore TenantId PeriodKey) := ⟨accounts, ⟨.empty, .empty⟩⟩

def line (accountId : AccountId) (side : EntrySide) : PostedLine :=
  ⟨accountId, side, ⟨100, usd⟩, none, none⟩

def spend : ChartBooksOp := .call (.post {
  Kernel.Sample.sale none with
  lines := [line "acct:6000" .debit, line "acct:1000" .credit] } ⟨"2026-08-01"⟩)

def noChanges : AccountChanges := ⟨none, none, none, none, none, none⟩

def renumber : ChartBooksOp := .edit usd false "6000" { noChanges with number := some "6005" }

def reuse : ChartBooksOp := .create usd ⟨"6000", "Savings", none, some .bank, none⟩

def addChild : ChartBooksOp :=
  .create usd ⟨"6010", "Online ads", none, some .expense, some "6000"⟩

def inactivate : ChartBooksOp := .edit usd false "6000" { noChanges with active := some false }

theorem chartOk_accounts : ChartOk accounts := by
  have htop : ∀ a ∈ accounts.list, a.parentId = none := by decide +kernel
  refine ⟨by decide +kernel, ?_, fun id => ⟨1, by decide, .root ?_⟩, ?_⟩
  · intro a ha p hp
    cases (htop a ha).symm.trans hp
  · unfold parentIn
    cases hget : accounts.get id with
    | none => rfl
    | some a => exact htop a (get_iff.mp hget).1
  · intro a ha _ parent _ hp
    cases (htop a ha).symm.trans hp

end Sample

theorem renumbered_account_keeps_type :
    ∃ a', (([Sample.spend, Sample.renumber].foldl (step .inMemory "acme") Sample.start).saved.get
      "acct:6000") = some a' ∧ a'.type = .expense := by
  have hops : EachStep (step .inMemory "acme") Allowed Sample.start
      [Sample.spend, Sample.renumber] :=
    eachStep_cons.mpr ⟨trivial, eachStep_cons.mpr ⟨fun h => (by cases h), eachStep_nil⟩⟩
  exact (charts_and_books_sound .inMemory "acme" Sample.start Sample.chartOk_accounts rfl _
    hops).2.1 [Sample.spend] [Sample.renumber] prefix_rfl
    ⟨"acct:6000", "6000", "Advertising", .expense, usd, none, some .expense, none, none⟩
    (by decide +kernel) (by decide +kernel)

theorem chart_broken_by_create_and_edit : ChartOk Sample.start.saved ∧
    (Posted "acct:6000" (([Sample.spend].foldl (step .inMemory "acme") Sample.start).journal "acme") ∧
      (([Sample.spend].foldl (step .inMemory "acme") Sample.start).saved.get "acct:6000").map
        Account.type = some .expense ∧
      (([Sample.spend, Sample.renumber, Sample.reuse].foldl (step .inMemory "acme")
        Sample.start).saved.get "acct:6000").map Account.type = some .asset) ∧
    ¬ ChartOk ([Sample.addChild, Sample.inactivate].foldl (step .inMemory "acme")
      Sample.start).saved := by
  refine ⟨Sample.chartOk_accounts, by decide +kernel, fun h => ?_⟩
  have hunder : ∃ a ∈ ([Sample.addChild, Sample.inactivate].foldl (step .inMemory "acme")
      Sample.start).saved.list, a.isActive = true ∧
      ∃ parent ∈ ([Sample.addChild, Sample.inactivate].foldl (step .inMemory "acme")
        Sample.start).saved.list, a.parentId = some parent.id ∧ parent.isActive = false := by
    decide +kernel
  obtain ⟨a, ha, hactive, parent, hpar, hunder, hinact⟩ := hunder
  rw [h.activeParents a ha hactive parent hpar hunder] at hinact
  cases hinact

end ChartBooks
end Rgnr8.Service
