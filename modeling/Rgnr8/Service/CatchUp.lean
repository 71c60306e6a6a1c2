import Rgnr8.Service.DepreciationRuns

/-! Catching up in two runs or in one. What is due goes by dates and what has been booked goes by
months, so the two agree unless the second run finds its month taken. -/

namespace Rgnr8.Service.FixedAssets
open Lib Lib.Js Fallible Kernel
variable {π : Type} [PeriodStore π]

def through (assetId date : String) : RunDepreciationInput := ⟨some assetId, some date⟩

def taken (tenant : TenantId) (assetId : String) (s : Stores π FixedAssetStore) : Option Int :=
  (s.own.getAsset tenant (trim assetId)).map AssetRecord.accumulatedMinor

structure SameDepreciation (ctx : FlowContext) (assetId : String) (start s s' : Stores π FixedAssetStore) :
    Prop where
  taken : taken ctx.tenant assetId s = taken ctx.tenant assetId s'
  posted : ∀ asset ∈ start.own.getAsset ctx.tenant (trim assetId),
    ∀ account ∈ ctx.chart.getByCode asset.accumAccountCode,
      balanceOf account.id (s.ledger.journal ctx.tenant) =
        balanceOf account.id (s'.ledger.journal ctx.tenant)

/-- If the first run books, the second date could be booked alone, and its month is another one or
it asks for no more. -/
def CatchesUp (ctx : FlowContext) (assetId d d' : String) (s : Stores π FixedAssetStore) : Prop :=
  ∀ b, Books ctx (through assetId d) s b →
    ∃ b', Books ctx (through assetId d') s b' ∧ (b.period ≠ b'.period ∨ b.target = b'.target)

section
variable {ctx : FlowContext} {s : Stores π FixedAssetStore} {b b' : Booking}

/-- What the journal asks of a booking but its amount. -/
structure Postable (ctx : FlowContext) (s : Stores π FixedAssetStore) (b : Booking) : Prop where
  free : s.ledger.store.getByIdempotencyKey ctx.tenant (depreciationKey b.asset.id b.period) = none
  unlocked : PeriodStore.status s.ledger.periods ctx.tenant b.period ≠ .locked
  accounts : ∀ id ∈ [b.accounts.expense.id, b.accounts.accum.id], ∃ account,
    ctx.chart.get id = some account ∧ account.active ≠ some false ∧
      account.currency.code = ctx.currency.code

theorem appends_iff : s.ledger.Appends ctx.chart (b.command ctx) ↔ 0 < b.amount ∧ Postable ctx s b := by
  constructor
  · rintro ⟨hfree, hstatus, hlines⟩
    obtain ⟨hamt, haccounts⟩ := postable_twoLines.mp hlines
    exact ⟨hamt, hfree, hstatus, haccounts⟩
  · rintro ⟨hamt, hfree, hstatus, haccounts⟩
    exact ⟨hfree, hstatus, postable_twoLines.mpr ⟨hamt, haccounts⟩⟩

variable {c' : Clock} {e : EntryId} {input : RunDepreciationInput} {assetId d d' : String}

theorem Books.at_ (h : Books ctx input s b) (clock : Clock) :
    Books { ctx with clock := clock } input s b := by
  obtain ⟨hamt, hfree, hunl, haccounts⟩ := appends_iff.mp h.appends
  exact ⟨h.plan, appends_iff.mpr ⟨hamt, hfree, hunl, haccounts⟩⟩

theorem Books.clock {clock : Clock} (h : Books { ctx with clock := clock } input s b) :
    Books ctx input s b :=
  h.at_ ctx.clock

theorem Books.unique (h : Books ctx input s b) (h' : Books ctx input s b') : b = b' :=
  RunPlan.book.inj (Except.ok.inj (h.plan.symm.trans h'.plan))

theorem Books.same (h : Books ctx (through assetId d) s b)
    (h' : Books ctx (through assetId d') s b') : b.asset = b'.asset ∧ b.accounts = b'.accounts := by
  obtain ⟨hasset, -, -, -, -, haccounts⟩ := planned.mp h.plan
  obtain ⟨hass', -, -, -, -, haccounts'⟩ := planned.mp h'.plan
  have hsame := Except.ok.inj (hasset.symm.trans hass')
  rw [hsame] at haccounts
  exact ⟨hsame, Except.ok.inj (haccounts.symm.trans haccounts')⟩

def after (ctx : FlowContext) (s : Stores π FixedAssetStore) (b : Booking) (e : EntryId) :
    Stores π FixedAssetStore :=
  { s.posted ctx (b.command ctx) with own := s.own.booked ctx.tenant b e }

theorem Books.taken (h : Books ctx (through assetId d) s b) (e : EntryId) :
    taken ctx.tenant assetId (after ctx s b e) = some b.target := by
  have hid : b.asset.id = trim assetId := id_of_calendarAsset (planned.mp h.plan).1
  unfold FixedAssets.taken after
  dsimp only
  rw [getAsset_booked, if_pos hid.symm]
  rfl

theorem Books.taken_before (h : Books ctx (through assetId d) s b) :
    FixedAssets.taken ctx.tenant assetId s = some b.asset.accumulatedMinor := by
  have hfound : s.own.getAsset ctx.tenant (trim assetId) = some b.asset :=
    (calendarAsset_eq_ok (planned.mp h.plan).1).1
  unfold FixedAssets.taken
  rw [hfound]
  rfl

theorem Books.balance (h : Books ctx input s b) (e : EntryId) (id : AccountId) :
    balanceOf id ((after ctx s b e).ledger.journal ctx.tenant) =
      balanceOf id (s.ledger.journal ctx.tenant) +
        ((if b.accounts.expense.id = id then b.amount else 0) +
          (if b.accounts.accum.id = id then -b.amount else 0)) := by
  have hposted := Ledger.balanceOf_posted ⟨ctx.clock.postedAt⟩ h.appends id
  have hnet := netOn_twoLines id b.accounts.expense.id b.accounts.accum.id ctx.currency b.amount
    b.asset.name
  exact hposted.trans (congrArg _ hnet)

theorem postable_after (h : Books ctx input s b) (e : EntryId) :
    Postable ctx (after ctx s b e) b' ↔ Postable ctx s b' ∧
      depreciationKey b'.asset.id b'.period ≠ depreciationKey b.asset.id b.period := by
  have hkey := Ledger.getByIdempotencyKey_posted ⟨ctx.clock.postedAt⟩ h.appends ctx.tenant
    (depreciationKey b'.asset.id b'.period)
  have hfree : (after ctx s b e).ledger.store.getByIdempotencyKey ctx.tenant
      (depreciationKey b'.asset.id b'.period) = none ↔
      s.ledger.store.getByIdempotencyKey ctx.tenant (depreciationKey b'.asset.id b'.period) = none ∧
        depreciationKey b'.asset.id b'.period ≠ depreciationKey b.asset.id b.period := by
    change (s.ledger.posted (b.command ctx) ⟨ctx.clock.postedAt⟩).store.getByIdempotencyKey ctx.tenant
      (depreciationKey b'.asset.id b'.period) = none ↔ _
    rw [hkey]
    by_cases hsame : depreciationKey b'.asset.id b'.period = depreciationKey b.asset.id b.period
    · rw [if_pos ⟨rfl, hsame⟩]
      exact iff_of_false (Option.some_ne_none _) fun h => h.2 hsame
    · rw [if_neg fun hboth => hsame hboth.2]
      exact (and_iff_left hsame).symm
  constructor
  · rintro ⟨hf, hstatus, haccounts⟩
    exact ⟨⟨(hfree.mp hf).1, hstatus, haccounts⟩, (hfree.mp hf).2⟩
  · rintro ⟨⟨hf, hstatus, haccounts⟩, hne⟩
    exact ⟨hfree.mpr ⟨hf, hne⟩, hstatus, haccounts⟩

theorem calendarAsset_booked (h : Books ctx (through assetId d) s b) (e : EntryId) :
    calendarAsset (trim assetId) ((s.own.booked ctx.tenant b e).getAsset ctx.tenant
      (trim assetId)) = .ok b.updated := by
  have hid : b.asset.id = trim assetId := id_of_calendarAsset (planned.mp h.plan).1
  obtain ⟨-, hstatus, hmeth⟩ := calendarAsset_eq_ok (planned.mp h.plan).1
  rw [getAsset_booked, if_pos hid.symm]
  unfold calendarAsset
  exact (if_neg hstatus).trans (if_neg hmeth)

theorem targetAccumulated_updated (h : Books ctx input s b) (date : String) (target : Int) :
    targetAccumulated b.updated date = .ok target ↔
      targetAccumulated b.asset date = .ok target := by
  obtain ⟨-, -, htgt, hamt, -, -⟩ := planned.mp h.plan
  have hpast : b.target ≠ b.asset.accumulatedMinor := by
    unfold Booking.amount at hamt
    omega
  obtain ⟨target', htgt'⟩ := exists_targetAccumulated htgt date
  have hupd : targetAccumulated b.updated date = .ok target' :=
    targetAccumulated_taken htgt hpast htgt' b.target
  rw [hupd, htgt']

theorem books_after (h : Books ctx (through assetId d) s b) (e : EntryId)
    (accounts : DepreciationAccounts) (date : String) (target : Int) :
    Books ctx (through assetId d') (after ctx s b e) ⟨b.updated, accounts, date, target⟩ ↔
      b.period ≠ periodOf date ∧ b.target < target ∧
        Books ctx (through assetId d') s ⟨b.asset, accounts, date, target⟩ := by
  obtain ⟨hasset, -, -, hamt, -, -⟩ := planned.mp h.plan
  have hlength := length_period h.plan
  constructor
  · rintro ⟨hplan, happends⟩
    have hper := length_period hplan
    obtain ⟨-, hdate, htgt, hamt', hposted, haccounts⟩ := planned.mp hplan
    obtain ⟨-, hpost⟩ := appends_iff.mp happends
    obtain ⟨hpost, -⟩ := (postable_after h e).mp hpost
    have hfree : ¬ (s.own.booked ctx.tenant b e).postedPeriod ctx.tenant b.asset.id (periodOf date) =
      true := fun hmrk => Bool.false_ne_true (hposted.symm.trans hmrk)
    rw [postedPeriod_booked, not_or] at hfree
    have hpast : b.target < target := sub_pos.mp hamt'
    have htot : 0 < target - b.asset.accumulatedMinor := by
      unfold Booking.amount at hamt
      omega
    refine ⟨fun hsame => hfree.1 ⟨rfl, hsame.symm⟩, hpast, planned.mpr ?_, appends_iff.mpr ?_⟩
    · exact ⟨hasset, hdate, (targetAccumulated_updated h date target).mp htgt, htot,
        Bool.eq_false_iff.mpr hfree.2, haccounts⟩
    · exact ⟨htot, hpost.free, hpost.unlocked, hpost.accounts⟩
  · rintro ⟨hne, hpast, hplan, happends⟩
    have hper := length_period hplan
    obtain ⟨-, hdate, htgt, -, hposted, haccounts⟩ := planned.mp hplan
    obtain ⟨-, hpost⟩ := appends_iff.mp happends
    have hkey : depreciationKey b.asset.id (periodOf date) ≠ depreciationKey b.asset.id b.period :=
      fun hsame => hne (depreciationKey_inj hper hlength hsame).2.symm
    refine ⟨planned.mpr ?_, appends_iff.mpr ⟨sub_pos.mpr hpast, ?_⟩⟩
    · refine ⟨calendarAsset_booked h e, hdate, (targetAccumulated_updated h date target).mpr htgt,
        sub_pos.mpr hpast, Bool.eq_false_iff.mpr fun hmrk => ?_, haccounts⟩
      rcases (postedPeriod_booked s.own ctx.tenant b e b.asset.id (periodOf date)).mp hmrk with
        ⟨-, hsame⟩ | hold
      · exact hne hsame.symm
      · rw [show s.own.postedPeriod ctx.tenant b.asset.id (periodOf date) = false from hposted] at hold
        cases hold
    · exact (postable_after h e).mpr ⟨⟨hpost.free, hpost.unlocked, hpost.accounts⟩, hkey⟩

theorem Books.asset_after {b₂ : Booking} (h : Books ctx (through assetId d) s b)
    (h₂ : Books ctx (through assetId d') (after ctx s b e) b₂) : b₂.asset = b.updated :=
  Except.ok.inj ((planned.mp h₂.plan).1.symm.trans (calendarAsset_booked h e))

theorem same_of_two {b₂ : Booking} {e₂ e' : EntryId} {c₂ : Clock}
    (h : Books ctx (through assetId d) s b)
    (h₂ : Books { ctx with clock := c₂ } (through assetId d') (after ctx s b e) b₂)
    (h' : Books { ctx with clock := c' } (through assetId d') s b')
    (htgt : b₂.target = b'.target) :
    SameDepreciation ctx assetId s (after { ctx with clock := c₂ } (after ctx s b e) b₂ e₂)
      (after { ctx with clock := c' } s b' e') := by
  obtain ⟨hasset, haccounts⟩ := h.same h'.clock
  have hass₂ := h.asset_after h₂.clock
  have hacc₂ : b₂.accounts = b.accounts := by
    have h₂accounts := (planned.mp h₂.plan).2.2.2.2.2
    rw [hass₂] at h₂accounts
    exact Except.ok.inj (h₂accounts.symm.trans (planned.mp h.plan).2.2.2.2.2)
  have hamt : b.amount + b₂.amount = b'.amount := by
    unfold Booking.amount
    rw [hass₂, hasset, htgt]
    change b.target - b'.asset.accumulatedMinor + (b'.target - b.target) = _
    omega
  refine ⟨?_, fun asset _ account _ => ?_⟩
  · rw [h₂.taken e₂, h'.taken e', htgt]
  · rw [h₂.balance e₂, h.balance e, h'.balance e', hacc₂, haccounts, ← hamt]
    dsimp only
    split_ifs <;> omega

theorem same_of_one {e' : EntryId} (h : Books ctx (through assetId d) s b)
    (h' : Books { ctx with clock := c' } (through assetId d') s b')
    (htgt : b.target = b'.target) :
    SameDepreciation ctx assetId s (after ctx s b e) (after { ctx with clock := c' } s b' e') := by
  obtain ⟨hasset, haccounts⟩ := h.same h'.clock
  have hamt : b.amount = b'.amount := by
    unfold Booking.amount
    rw [hasset, htgt]
  refine ⟨?_, fun asset _ account _ => ?_⟩
  · rw [h.taken e, h'.taken e', htgt]
  · rw [h.balance e, h'.balance e', haccounts, hamt]

theorem Books.target_le (h : Books ctx (through assetId d) s b)
    (h' : Books ctx (through assetId d') s b') (hd : trim d ≤ trim d') : b.target ≤ b'.target := by
  obtain ⟨-, hdate, htgt, -, -, -⟩ := planned.mp h.plan
  obtain ⟨-, hdate', htgt', -, -, -⟩ := planned.mp h'.plan
  rw [(h.same h').1] at htgt
  refine targetAccumulated_mono htgt htgt' ?_
  rw [(requireDate_eq_ok hdate).1, (requireDate_eq_ok hdate').1]
  exact hd

theorem same_iff_of_booked {c₂ : Clock} {twice once : Stores π FixedAssetStore}
    (h : Books ctx (through assetId d) s b) (hd : trim d ≤ trim d')
    (htwice : RunEnds { ctx with clock := c₂ } (through assetId d') (after ctx s b e) twice)
    (honce : RunEnds { ctx with clock := c' } (through assetId d') s once) :
    SameDepreciation ctx assetId s twice once ↔ CatchesUp ctx assetId d d' s := by
  have hpast : b.asset.accumulatedMinor < b.target := sub_pos.mp (planned.mp h.plan).2.2.2.1
  cases honce with
  | idle hnone =>
    refine iff_of_false (fun hsame => ?_) fun hcat => ?_
    · have htaken := hsame.taken
      rw [h.taken_before] at htaken
      cases htwice with
      | idle _ =>
        rw [h.taken] at htaken
        exact hpast.ne' (Option.some.inj htaken)
      | @booked b₂ h₂ e₂ =>
        -- the second booking moves the target on
        have hmore : b.target < b₂.target := by
          have hamt := (planned.mp h₂.plan).2.2.2.1
          unfold Booking.amount at hamt
          rw [h.asset_after h₂.clock] at hamt
          exact sub_pos.mp hamt
        have htak₂ := h₂.taken e₂
        have heq := Option.some.inj (htak₂.symm.trans htaken)
        omega
    · obtain ⟨b', h', -⟩ := hcat b h
      exact hnone b' (h'.at_ c')
  | @booked b' h'' e' =>
    have h' : Books ctx (through assetId d') s b' := h''.clock
    have hcat : CatchesUp ctx assetId d d' s ↔ b.period ≠ b'.period ∨ b.target = b'.target := by
      constructor
      · intro hall
        obtain ⟨b₃, h₃, hor⟩ := hall b h
        rw [h₃.unique h'] at hor
        exact hor
      · intro hor b₃ h₃
        rw [← h.unique h₃]
        exact ⟨b', h', hor⟩
    rw [hcat]
    cases htwice with
    | idle hnone =>
      constructor
      · intro hsame
        have htaken := hsame.taken
        have hafter := h''.taken e'
        exact .inr (Option.some.inj (((h.taken e).symm.trans htaken).trans hafter))
      · intro hor
        refine same_of_one h h'' ?_
        by_contra hne
        have hless : b.target < b'.target := lt_of_le_of_ne (h.target_le h' hd) hne
        have hper : b.period ≠ periodOf b'.date := hor.resolve_right hne
        have hbook : b' = ⟨b.asset, b'.accounts, b'.date, b'.target⟩ := by rw [(h.same h').1]
        rw [hbook] at h'
        have hbeh := (books_after h e b'.accounts b'.date b'.target).mpr ⟨hper, hless, h'⟩
        exact hnone _ (hbeh.at_ c₂)
    | @booked b₂ h₂ e₂ =>
      have hbooks : Books ctx (through assetId d') (after ctx s b e) b₂ := h₂.clock
      have hass₂ := h.asset_after hbooks
      have hbook : b₂ = ⟨b.updated, b₂.accounts, b₂.date, b₂.target⟩ := by rw [← hass₂]
      rw [hbook] at hbooks
      obtain ⟨hper, -, hins⟩ := (books_after h e b₂.accounts b₂.date b₂.target).mp hbooks
      have hb' := hins.unique h'
      have htgt : b₂.target = b'.target := by rw [← hb']
      have hdate : periodOf b₂.date = b'.period := by rw [← hb']; rfl
      refine iff_of_true (same_of_two h h₂ h'' htgt) (.inl ?_)
      rw [← hdate]
      exact hper

/-- Run through one date and then through a later one, an asset is depreciated as by one run through
the later date if and only if it catches up. The three runs may be made at any time. -/
theorem catchUp_iff (hmarked : Marked ctx.tenant s) (assetId : String) {d d' : String}
    (hd : trim d ≤ trim d') (c₂ c' : Clock) :
    SameDepreciation ctx assetId s
        (depreciated { ctx with clock := c₂ } (through assetId d')
          (depreciated ctx (through assetId d) s))
        (depreciated { ctx with clock := c' } (through assetId d') s) ↔
      CatchesUp ctx assetId d d' s := by
  have honce := runEnds { ctx with clock := c' } hmarked (through assetId d')
  have hfst := runEnds ctx hmarked (through assetId d)
  have htwice := runEnds { ctx with clock := c₂ } (marked_depreciated hmarked (through assetId d))
    (through assetId d')
  generalize depreciated ctx (through assetId d) s = first at hfst htwice ⊢
  cases hfst with
  | booked h e => exact same_iff_of_booked h hd htwice honce
  | idle hnone =>
    refine iff_of_true ?_ fun b h => absurd h (hnone b)
    generalize depreciated { ctx with clock := c₂ } (through assetId d') s = twice at htwice ⊢
    generalize depreciated { ctx with clock := c' } (through assetId d') s = once at honce ⊢
    cases htwice with
    | idle hnone₂ =>
      cases honce with
      | idle _ => exact ⟨rfl, fun _ _ _ _ => rfl⟩
      | booked h' e' => exact absurd (h'.clock.at_ c₂) (hnone₂ _)
    | booked h₂ e₂ =>
      cases honce with
      | idle hnone' => exact absurd (h₂.clock.at_ c') (hnone' _)
      | booked h' e' =>
        have hsame := h₂.unique (h'.clock.at_ c₂)
        subst hsame
        exact ⟨(same_of_one h₂ h' rfl).taken, (same_of_one h₂ h' rfl).posted⟩

end
namespace Sample

def accounts : DepreciationAccounts :=
  ⟨⟨"expense", "6900", "6900", .expense, usd, none, none, some true, none⟩,
    ⟨"accum", "1510", "1510", .asset, usd, none, none, some true, none⟩⟩

def chart : ChartOfAccounts :=
  (ChartOfAccounts.ofAccounts [Kernel.Sample.account "cost" "1500" .asset, accounts.accum,
    accounts.expense]).toOption.getD .empty

def context : FlowContext where
  tenant := "acme"
  chart := chart
  currency := usd
  clock := ⟨"2026-03-01T09:00:00Z", "2026-03-01T09:00:00Z"⟩
  letters := asciiLetters

/-- Twelve hundred dollars, written off in a year from the middle of January. -/
def truck : AssetRecord where
  id := "truck"
  name := "Truck"
  category := ""
  inServiceDate := "2026-01-15"
  costMinor := 120000
  salvageMinor := 0
  method := .straightLine
  usefulLifeMonths := 12
  decliningFactorMicro := 2000000
  totalUnitsMilli := 0
  unitsUsedMilli := 0
  accumulatedMinor := 0
  assetAccountCode := "1500"
  accumAccountCode := "1510"
  expenseAccountCode := "6900"
  status := .active
  disposedDate := ""
  memo := ""

def register : Stores (InMemoryPeriodStore TenantId PeriodKey) FixedAssetStore :=
  ⟨⟨.empty, .empty⟩, FixedAssetStore.empty.saveAsset "acme" truck⟩

theorem marked : Marked context.tenant register := fun _ _ _ h => absurd rfl h

end Sample

theorem catch_up_in_may : SameDepreciation Sample.context "truck" Sample.register
    (depreciated Sample.context (through "truck" "2026-05-31")
      (depreciated Sample.context (through "truck" "2026-02-28") Sample.register))
    (depreciated Sample.context (through "truck" "2026-05-31") Sample.register) := by
  have hcat : CatchesUp Sample.context "truck" "2026-02-28" "2026-05-31" Sample.register := by
    intro b h
    refine ⟨⟨Sample.truck, Sample.accounts, "2026-05-31", 40000⟩, ⟨by decide +kernel,
      by decide +kernel⟩, .inl ?_⟩
    have hb : planRun Sample.context (through "truck" "2026-02-28") Sample.register.own =
      .ok (.book ⟨Sample.truck, Sample.accounts, "2026-02-28", 10000⟩) := by decide +kernel
    obtain rfl := RunPlan.book.inj (Except.ok.inj (hb.symm.trans h.plan))
    decide +kernel
  exact (catchUp_iff Sample.marked "truck" (by decide +kernel) Sample.context.clock
    Sample.context.clock).mpr hcat

theorem catch_up_within_march : ¬ SameDepreciation Sample.context "truck" Sample.register
    (depreciated Sample.context (through "truck" "2026-03-20")
      (depreciated Sample.context (through "truck" "2026-03-10") Sample.register))
    (depreciated Sample.context (through "truck" "2026-03-20") Sample.register) := by
  intro h
  exact absurd h.taken (by decide +kernel)

end Rgnr8.Service.FixedAssets
