import Rgnr8.Service.FixedAssets

/-! What one depreciation run does, alone on its stores. The schedule only rises, the run is decided
by what it reads, and a month that has its entry in the journal is marked. -/

namespace Rgnr8.Service.FixedAssets
open Lib Lib.Js Fallible Kernel FixedAssetStore Except

/-! The schedule. -/

/-- The totals of the rows never fall, from a first one on. -/
def Rising : Int → List DepreciationRow → Prop
  | _, [] => True
  | t, r :: rows => t ≤ r.accumulatedMinor ∧ Rising r.accumulatedMinor rows

variable {asset : AssetRecord} {m t target : Int} {rows : List DepreciationRow} {d d' : String}

theorem le_targetIn (h : Rising t rows) (date : String) : t ≤ targetIn date rows t := by
  induction rows generalizing t with
  | nil => exact le_rfl
  | cons r rows ih =>
    obtain ⟨hle, hrows⟩ := h
    unfold targetIn
    split_ifs
    · exact hle.trans (ih hrows)
    · exact le_rfl

theorem targetIn_mono (h : Rising t rows) (hd : d ≤ d') :
    targetIn d rows t ≤ targetIn d' rows t := by
  induction rows generalizing t with
  | nil => exact le_rfl
  | cons r rows ih =>
    obtain ⟨hle, hrows⟩ := h
    unfold targetIn
    by_cases hthru : r.throughDate ≤ d
    · rw [if_pos hthru, if_pos (hthru.trans hd)]
      exact ih hrows
    · rw [if_neg hthru]
      split_ifs
      · exact hle.trans (le_targetIn hrows d')
      · exact le_rfl

theorem row_accumulated {expense accumulated : Int} {r : DepreciationRow}
    (h : row asset m expense accumulated = .ok r) : r.accumulatedMinor = accumulated := by
  unfold row at h
  rw [bind_eq_ok] at h
  obtain ⟨date, -, h⟩ := h
  have hr := ok.inj h
  subst hr
  rfl

theorem rising_straightLineRows {per : Int} (hper : 0 ≤ per) {left : Nat}
    (hroom : t + per * left ≤ depreciableBase asset)
    (h : straightLineRows asset per left m t = .ok rows) : Rising t rows := by
  induction left generalizing m t rows with
  | zero =>
    unfold straightLineRows at h
    have hrows := ok.inj h
    subst hrows
    trivial
  | succ left ih =>
    unfold straightLineRows at h
    simp only [bind_eq_ok] at h
    obtain ⟨r, hr, rest, hrest, h⟩ := h
    have hrows := ok.inj h
    subst hrows
    rw [Nat.cast_succ, mul_add, mul_one] at hroom
    have hprod : 0 ≤ per * left := mul_nonneg hper (Int.natCast_nonneg left)
    have hnext := row_accumulated hr
    constructor
    · rw [hnext]
      split_ifs <;> omega
    · rw [hnext]
      refine ih ?_ hrest
      split_ifs with hlast
      · rw [hlast, Nat.cast_zero, mul_zero]
        omega
      · omega

theorem decliningExpense_nonneg (asset : AssetRecord) (factor book : Int) (last : Bool) :
    0 ≤ decliningExpense asset factor book last := by
  unfold decliningExpense
  dsimp only
  split_ifs <;> omega

theorem rising_decliningRows {factor : Int} {left : Nat} {book : Int}
    (h : decliningRows asset factor left m t book = .ok rows) : Rising t rows := by
  induction left generalizing m t book rows with
  | zero =>
    unfold decliningRows at h
    have hrows := ok.inj h
    subst hrows
    trivial
  | succ left ih =>
    unfold decliningRows at h
    rw [bind_eq_ok] at h
    obtain ⟨r, hr, h⟩ := h
    have hle : t ≤ r.accumulatedMinor := by
      rw [row_accumulated hr]
      exact le_add_of_nonneg_right (decliningExpense_nonneg _ _ _ _)
    split_ifs at h with hdone
    · have hrows := ok.inj h
      subst hrows
      exact ⟨hle, trivial⟩
    · rw [bind_eq_ok] at h
      obtain ⟨rest, hrest, h⟩ := h
      have hrows := ok.inj h
      subst hrows
      refine ⟨hle, ?_⟩
      rw [row_accumulated hr]
      exact ih hrest

theorem depreciableBase_nonneg (asset : AssetRecord) : 0 ≤ depreciableBase asset := by
  unfold depreciableBase
  split_ifs <;> omega

theorem rising_depreciationSchedule (h : depreciationSchedule asset = .ok rows) :
    Rising 0 rows := by
  unfold depreciationSchedule at h
  dsimp only at h
  split_ifs at h with hunits hlife hstr hfac
  · have hrows := ok.inj h
    subst hrows
    trivial
  · have hrows := ok.inj h
    subst hrows
    trivial
  · have hbase := depreciableBase_nonneg asset
    have hposv : 0 < asset.usefulLifeMonths := not_le.mp hlife
    refine rising_straightLineRows (Int.tdiv_nonneg hbase hposv.le) ?_ h
    rw [Int.zero_add, Int.toNat_of_nonneg hposv.le, Int.tdiv_eq_ediv_of_nonneg hbase]
    exact Int.ediv_mul_le _ hposv.ne'
  · exact rising_decliningRows h
  · exact rising_decliningRows h

theorem depreciationSchedule_taken (asset : AssetRecord) (taken : Int) :
    depreciationSchedule { asset with accumulatedMinor := taken } = depreciationSchedule asset := by
  have hrow : ∀ m expense accumulated, row { asset with accumulatedMinor := taken } m expense
      accumulated = row asset m expense accumulated := fun _ _ _ => rfl
  have hstr : ∀ per left m t, straightLineRows { asset with accumulatedMinor := taken } per left
      m t = straightLineRows asset per left m t := by
    intro per left
    induction left with
    | zero => exact fun _ _ => rfl
    | succ left ih =>
      intro m t
      unfold straightLineRows
      simp only [ih]
      rfl
  have hdecl : ∀ factor left m t book, decliningRows { asset with accumulatedMinor := taken }
      factor left m t book = decliningRows asset factor left m t book := by
    intro factor left
    induction left with
    | zero => exact fun _ _ _ => rfl
    | succ left ih =>
      intro m t book
      unfold decliningRows
      simp only [ih]
      rfl
  unfold depreciationSchedule
  simp only [hstr, hdecl]
  rfl

theorem targetAccumulated_taken {target' : Int} (h : targetAccumulated asset d = .ok target)
    (hpast : target ≠ asset.accumulatedMinor) (h' : targetAccumulated asset d' = .ok target')
    (taken : Int) :
    targetAccumulated { asset with accumulatedMinor := taken } d' = .ok target' := by
  unfold targetAccumulated at h h' ⊢
  rw [depreciationSchedule_taken]
  rw [bind_eq_ok] at h h'
  obtain ⟨rows, hrows, h⟩ := h
  obtain ⟨rows', hrows', h'⟩ := h'
  obtain rfl := ok.inj (hrows.symm.trans hrows')
  have hne : rows ≠ [] := by
    rintro rfl
    exact hpast (ok.inj h).symm
  rw [bind_eq_ok]
  refine ⟨rows, hrows, ?_⟩
  rw [if_neg hne] at h' ⊢
  exact h'

theorem targetAccumulated_mono {target' : Int} (h : targetAccumulated asset d = .ok target)
    (h' : targetAccumulated asset d' = .ok target') (hd : d ≤ d') : target ≤ target' := by
  unfold targetAccumulated at h h'
  rw [bind_eq_ok] at h h'
  obtain ⟨rows, hrows, h⟩ := h
  obtain ⟨rows', hrows', h'⟩ := h'
  obtain rfl := ok.inj (hrows.symm.trans hrows')
  rw [← ok.inj h, ← ok.inj h']
  by_cases hemp : rows = []
  · rw [if_pos hemp, if_pos hemp]
  · rw [if_neg hemp, if_neg hemp]
    exact targetIn_mono (rising_depreciationSchedule hrows) hd

theorem exists_targetAccumulated (h : targetAccumulated asset d = .ok target) (d' : String) :
    ∃ target', targetAccumulated asset d' = .ok target' := by
  unfold targetAccumulated at h ⊢
  rw [bind_eq_ok] at h
  obtain ⟨rows, hrows, -⟩ := h
  rw [hrows]
  exact ⟨_, rfl⟩

/-! One run. -/

structure Booking where
  asset : AssetRecord
  accounts : DepreciationAccounts
  date : String
  target : Int
  deriving DecidableEq

namespace Booking

variable (b : Booking)

def period : PeriodKey := periodOf b.date

def amount : Int := b.target - b.asset.accumulatedMinor

def command (ctx : FlowContext) : PostCommand :=
  depreciationCommand ctx b.asset b.accounts b.amount b.date b.period

def updated : AssetRecord := { b.asset with accumulatedMinor := b.target }

end Booking

inductive RunPlan where
  | idle (asset : AssetRecord)
  | book (b : Booking)
  deriving DecidableEq

def planRun (ctx : FlowContext) (input : RunDepreciationInput) (own : FixedAssetStore) :
    Except FlowFailure RunPlan := do
  let assetId := trim (input.assetId.getD "")
  let asset ← calendarAsset assetId (own.getAsset ctx.tenant assetId)
  let throughDate ← requireDate input.throughDate "through date"
  let target ← targetAccumulated asset throughDate
  if target - asset.accumulatedMinor ≤ 0 then return .idle asset
  else match own.postedPeriod ctx.tenant assetId (periodOf throughDate) with
    | true => return .idle asset
    | false =>
      let accounts ← depreciationAccounts ctx asset
      return .book ⟨asset, accounts, throughDate, target⟩

def fileBooking (ctx : FlowContext) (b : Booking) (entry : PostedEntry) :
    FixedAssetProg RunDepreciationResult := do
  ask (.saveAsset ctx.tenant b.updated)
  ask (.markPeriod ctx.tenant b.asset.id b.period entry.id)
  return ⟨b.updated, b.amount, entry.id⟩

def FixedAssetStore.booked (own : FixedAssetStore) (tenant : TenantId) (b : Booking) (e : EntryId) :
    FixedAssetStore := (own.saveAsset tenant b.updated).markPeriod tenant b.asset.id b.period e

section
variable {π : Type} [PeriodStore π] {ctx : FlowContext} {s : Stores π FixedAssetStore}

def carryOut (ctx : FlowContext) (s : Stores π FixedAssetStore) :
    RunPlan → Except FlowFailure RunDepreciationResult × Stores π FixedAssetStore
  | .idle asset => (.ok ⟨asset, 0, ""⟩, s)
  | .book b => (postFlow ctx (b.command ctx) >>= fileBooking ctx b).run exec s

theorem calendarAsset_eq_ok {assetId : String} {found : Option AssetRecord} {asset : AssetRecord}
    (h : calendarAsset assetId found = .ok asset) : found = some asset ∧
      asset.status ≠ .disposed ∧ asset.method ≠ .unitsOfProduction := by
  rcases found with - | a
  · cases h
  · unfold calendarAsset at h
    rw [refuse_eq_ok, refuse_eq_ok] at h
    obtain ⟨hstatus, hmeth, h⟩ := h
    have ha := ok.inj h
    subst ha
    exact ⟨rfl, hstatus, hmeth⟩

variable {b : Booking} {own : FixedAssetStore} {input : RunDepreciationInput}

theorem id_of_calendarAsset {assetId : String} {tenant : TenantId} {asset : AssetRecord}
    (h : calendarAsset assetId (own.getAsset tenant assetId) = .ok asset) :
    asset.id = assetId := own.asset_of_get (calendarAsset_eq_ok h).1

theorem decides_runDepreciation (ctx : FlowContext) (input : RunDepreciationInput)
    (s : Stores π FixedAssetStore) : Decides exec s (runDepreciation ctx input)
      (planRun ctx input s.own) (carryOut ctx s) := by
  unfold runDepreciation planRun
  refine .read rfl (.check fun asset hasset => .check fun date _ => .check fun target _ => ?_)
  have hid : asset.id = trim (input.assetId.getD "") := id_of_calendarAsset hasset
  rw [← hid]
  by_cases hdelta : target - asset.accumulatedMinor ≤ 0
  · rw [if_pos hdelta, if_pos hdelta]
    exact .done rfl
  · rw [if_neg hdelta, if_neg hdelta]
    refine .read rfl ?_
    dsimp only [exec, FlowCall.exec, FixedAssetCall.exec]
    cases s.own.postedPeriod ctx.tenant asset.id (periodOf date) with
    | true => exact .done rfl
    | false =>
      unfold postDepreciation
      simp only [Prog.bind_assoc]
      refine .check fun accounts _ => .done ?_
      unfold carryOut fileBooking Booking.command Booking.period
      rfl

/-- Every entry of a run has its month marked. Months are told from ids by their length. -/
def Marked (tenant : TenantId) (s : Stores π FixedAssetStore) : Prop :=
  ∀ (id period : String), period.toList.length = 7 →
    s.ledger.store.getByIdempotencyKey tenant (depreciationKey id period) ≠ none →
      s.own.postedPeriod tenant id period = true

/-- A run that books: what it reads gives a booking, and the entry is appended. -/
structure Books (ctx : FlowContext) (input : RunDepreciationInput) (s : Stores π FixedAssetStore)
    (b : Booking) : Prop where
  plan : planRun ctx input s.own = .ok (.book b)
  appends : s.ledger.Appends ctx.chart (b.command ctx)

inductive RunEnds (ctx : FlowContext) (input : RunDepreciationInput) (s : Stores π FixedAssetStore) :
    Stores π FixedAssetStore → Prop where
  | idle (h : ∀ b, ¬ Books ctx input s b) : RunEnds ctx input s s
  | booked {b : Booking} (h : Books ctx input s b) (e : EntryId) :
      RunEnds ctx input s
        { s.posted ctx (b.command ctx) with own := s.own.booked ctx.tenant b e }

def depreciated (ctx : FlowContext) (input : RunDepreciationInput) (s : Stores π FixedAssetStore) :
    Stores π FixedAssetStore := ((runDepreciation ctx input).run exec s).2

theorem length_periodOf {date : String} (h : isIsoDate date) :
    (periodOf date).toList.length = 7 := by
  unfold isIsoDate at h
  unfold periodOf
  rw [String.toList_ofList]
  split at h
  · next heq =>
    rw [heq]
    rfl
  · cases h

omit [PeriodStore π] in
theorem planned : planRun ctx input own = .ok (.book b) ↔
      calendarAsset (trim (input.assetId.getD "")) (own.getAsset ctx.tenant
        (trim (input.assetId.getD ""))) = .ok b.asset ∧
      requireDate input.throughDate "through date" = .ok b.date ∧
      targetAccumulated b.asset b.date = .ok b.target ∧ 0 < b.amount ∧
      own.postedPeriod ctx.tenant b.asset.id b.period = false ∧
      depreciationAccounts ctx b.asset = .ok b.accounts := by
  simp only [planRun, bind_eq_ok]
  constructor
  · rintro ⟨asset, hasset, date, hdate, target, htgt, h⟩
    have hid := id_of_calendarAsset hasset
    by_cases hdelta : target - asset.accumulatedMinor ≤ 0
    · rw [if_pos hdelta] at h
      cases ok.inj h
    · rw [if_neg hdelta, ← hid] at h
      rcases hposted : own.postedPeriod ctx.tenant asset.id (periodOf date) with - | -
      · rw [hposted] at h
        simp only [bind_eq_ok] at h
        obtain ⟨accounts, haccounts, h⟩ := h
        have hb := RunPlan.book.inj (ok.inj h)
        subst hb
        exact ⟨hasset, hdate, htgt, not_le.mp hdelta, hposted, haccounts⟩
      · rw [hposted] at h
        cases ok.inj h
  · rintro ⟨hasset, hdate, htgt, hamt, hposted, haccounts⟩
    have hid := id_of_calendarAsset hasset
    have hdelta : ¬ b.target - b.asset.accumulatedMinor ≤ 0 := not_le.mpr hamt
    refine ⟨b.asset, hasset, b.date, hdate, b.target, htgt, ?_⟩
    have hposted : own.postedPeriod ctx.tenant b.asset.id (periodOf b.date) = false := hposted
    rw [if_neg hdelta, ← hid, hposted]
    simp only [bind_eq_ok]
    exact ⟨b.accounts, haccounts, rfl⟩

theorem length_period (h : planRun ctx input own = .ok (.book b)) : b.period.toList.length = 7 :=
  length_periodOf (requireDate_eq_ok (planned.mp h).2.1).2

theorem runEnds (ctx : FlowContext) (hmrk : Marked ctx.tenant s) (input : RunDepreciationInput) :
    RunEnds ctx input s (depreciated ctx input s) := by
  have hdec := decides_runDepreciation ctx input s
  unfold depreciated
  rcases hplan : planRun ctx input s.own with e | plan
  · rw [hdec.threw hplan]
    refine .idle fun b hbooks => ?_
    rw [hbooks.plan] at hplan
    cases hplan
  · rw [hdec.ran hplan]
    cases plan with
    | idle asset =>
      refine .idle fun b hbooks => ?_
      rw [hbooks.plan] at hplan
      cases hplan
    | book b =>
      have hends := flowPosts FixedAssetCall.exec ctx (b.command ctx) (fileBooking ctx b) s
      unfold carryOut
      dsimp only
      generalize (postFlow ctx (b.command ctx) >>= fileBooking ctx b).run exec s = end_ at hends ⊢
      cases hends with
      | refused err _ happends =>
        refine .idle fun b' hbooks => ?_
        obtain rfl := RunPlan.book.inj (ok.inj (hplan.symm.trans hbooks.plan))
        exact happends hbooks.appends
      | @answered e h =>
        -- the entry of an unmarked month is not in the journal
        have hkey : s.ledger.store.getByIdempotencyKey ctx.tenant
            (depreciationKey b.asset.id b.period) ≠ none :=
          Option.ne_none_iff_exists'.mpr ⟨e, h.1⟩
        have hposted := hmrk b.asset.id b.period (length_period hplan) hkey
        rw [(planned.mp hplan).2.2.2.2.1] at hposted
        cases hposted
      | appended h => exact .booked ⟨hplan, h⟩ _

/-! What a booking changes. -/

theorem depreciationKey_inj {id id' period period' : String} (h : period.toList.length = 7)
    (h' : period'.toList.length = 7) (hkey : depreciationKey id period = depreciationKey id' period') :
    id = id' ∧ period = period' := by
  unfold depreciationKey at hkey
  simp only [← String.toList_inj, String.toList_append] at hkey
  obtain ⟨hids, hperiods⟩ := List.append_inj' hkey (h.trans h'.symm)
  obtain ⟨hids, -⟩ := List.append_inj' hids rfl
  rw [List.append_right_inj] at hids
  exact ⟨String.toList_inj.mp hids, String.toList_inj.mp hperiods⟩

theorem getAsset_saveAsset (own : FixedAssetStore) (t : TenantId) (asset : AssetRecord) (id : String) :
    (own.saveAsset t asset).getAsset t id = if id = asset.id then some asset else own.getAsset t id := by
  unfold FixedAssetStore.getAsset FixedAssetStore.saveAsset
  rw [OrderedMap.get?_set]
  simp only [Prod.mk.injEq, true_and]

theorem getAsset_booked (own : FixedAssetStore) (t : TenantId) (b : Booking) (e : EntryId)
    (id : String) : (own.booked t b e).getAsset t id =
      if id = b.asset.id then some b.updated else own.getAsset t id := by
  have hsav := getAsset_saveAsset own t b.updated id
  unfold booked markPeriod
  by_cases hposted : (own.saveAsset t b.updated).postedPeriod t b.asset.id b.period = true
  · rw [if_pos hposted]
    exact hsav
  · rw [if_neg hposted]
    exact hsav

theorem postedPeriod_markPeriod (own : FixedAssetStore) (t : TenantId) (id : String)
    (period : PeriodKey) (e : EntryId) (id' : String) (period' : PeriodKey) :
    (own.markPeriod t id period e).postedPeriod t id' period' = true ↔
      (id' = id ∧ period' = period) ∨ own.postedPeriod t id' period' = true := by
  unfold markPeriod
  by_cases hposted : own.postedPeriod t id period = true
  · rw [if_pos hposted]
    refine ⟨.inr, ?_⟩
    rintro (⟨rfl, rfl⟩ | h)
    · exact hposted
    · exact h
  · rw [if_neg hposted]
    unfold postedPeriod
    dsimp only
    rw [OrderedMap.get?_set]
    simp only [Prod.mk.injEq, true_and]
    by_cases hsame : id' = id ∧ period' = period
    · rw [if_pos hsame]
      exact iff_of_true rfl (.inl hsame)
    · rw [if_neg hsame]
      exact (or_iff_right hsame).symm

theorem postedPeriod_booked (own : FixedAssetStore) (t : TenantId) (b : Booking) (e : EntryId)
    (id : String) (period : PeriodKey) : (own.booked t b e).postedPeriod t id period = true ↔
      (id = b.asset.id ∧ period = b.period) ∨ own.postedPeriod t id period = true :=
  postedPeriod_markPeriod (own.saveAsset t b.updated) t b.asset.id b.period e id period

theorem marked_booked (hmrk : Marked ctx.tenant s) (h : Books ctx input s b) (e : EntryId) :
    Marked ctx.tenant
      { s.posted ctx (b.command ctx) with own := s.own.booked ctx.tenant b e } := by
  intro id period hlength hkey
  rw [postedPeriod_booked]
  rcases Stores.key_posted rfl h.appends hkey with hsame | hold
  · exact .inl (depreciationKey_inj hlength (length_period h.plan) hsame)
  · exact .inr (hmrk id period hlength hold)

theorem marked_depreciated (hmrk : Marked ctx.tenant s) (input : RunDepreciationInput) :
    Marked ctx.tenant (depreciated ctx input s) := by
  have hends := runEnds ctx hmrk input
  generalize depreciated ctx input s = s' at hends ⊢
  cases hends with
  | idle _ => exact hmrk
  | booked h e => exact marked_booked hmrk h e

def fileAsset (ctx : FlowContext) (asset : AssetRecord) (entry : PostedEntry) :
    FixedAssetProg SaveAssetResult := do
  ask (.saveAsset ctx.tenant asset)
  return ⟨asset, entry.id⟩

theorem key_purchase_ne (id id' period : String) : depreciationKey id period ≠ "asset-buy:" ++ id' := by
  intro h
  unfold depreciationKey at h
  rw [← String.toList_inj] at h
  simp at h

def planSave (ctx : FlowContext) (input : AssetInput) (own : FixedAssetStore) :
    Except FlowFailure (AssetRecord × Option PurchaseAccounts) := do
  let draft ← draftAsset ctx input
  let asset ← assetOf input draft (own.getAsset ctx.tenant draft.id)
  if own.getAsset ctx.tenant draft.id = none ∧ trim (input.paidFromCode.getD "") ≠ "" then
    let accounts ← purchaseAccounts ctx input asset
    return (asset, some accounts)
  else return (asset, none)

def carryOutSave (ctx : FlowContext) (s : Stores π FixedAssetStore) :
    AssetRecord × Option PurchaseAccounts →
      Except FlowFailure SaveAssetResult × Stores π FixedAssetStore
  | (asset, none) => (.ok ⟨asset, ""⟩, { s with own := s.own.saveAsset ctx.tenant asset })
  | (asset, some accounts) =>
    (postFlow ctx (purchaseCommand ctx asset accounts) >>= fileAsset ctx asset).run exec s

theorem decides_saveAsset (ctx : FlowContext) (input : AssetInput) (s : Stores π FixedAssetStore) :
    Decides exec s (saveAsset ctx input) (planSave ctx input s.own) (carryOutSave ctx s) := by
  unfold saveAsset planSave
  refine .check fun draft _ => .read rfl ?_
  generalize hread : (exec (FlowCall.own (FixedAssetCall.getAsset ctx.tenant draft.id)) s).1 = existing
  have hfound : s.own.getAsset ctx.tenant draft.id = existing := hread
  rw [hfound]
  refine .check fun asset _ => ?_
  by_cases hbuys : existing = none ∧ trim (input.paidFromCode.getD "") ≠ ""
  · rw [if_pos hbuys, if_pos hbuys]
    refine .check fun accounts _ => .done ?_
    unfold carryOutSave fileAsset
    rfl
  · rw [if_neg hbuys, if_neg hbuys]
    exact .done rfl

theorem marked_saveAsset (hmrk : Marked ctx.tenant s) (input : AssetInput) :
    Marked ctx.tenant ((saveAsset ctx input).run exec s).2 := by
  have hdec := decides_saveAsset ctx input s
  rcases hplan : planSave ctx input s.own with e | ⟨asset, accounts⟩
  · rw [hdec.threw hplan]
    exact hmrk
  · rw [hdec.ran hplan]
    cases accounts with
    | none => exact hmrk
    | some accounts =>
      have hends := flowPosts FixedAssetCall.exec ctx (purchaseCommand ctx asset accounts)
        (fileAsset ctx asset) s
      unfold carryOutSave
      dsimp only
      generalize (postFlow ctx (purchaseCommand ctx asset accounts) >>= fileAsset ctx asset).run
        exec s = end_ at hends ⊢
      cases hends with
      | refused _ _ _ => exact hmrk
      | answered _ => exact hmrk
      | appended happends =>
        intro id period hlength hkey
        rcases Stores.key_posted rfl happends hkey with hsame | hold
        · exact absurd hsame (key_purchase_ne id asset.id period)
        · exact hmrk id period hlength hold

end

inductive RegisterCall (tenant : TenantId) where
  | save (ctx : FlowContext) (htenant : ctx.tenant = tenant) (input : AssetInput)
  | depreciate (ctx : FlowContext) (htenant : ctx.tenant = tenant) (input : RunDepreciationInput)

def RegisterCall.step {π : Type} [PeriodStore π] {tenant : TenantId}
    (s : Stores π FixedAssetStore) : RegisterCall tenant → Stores π FixedAssetStore
  | save ctx _ input => ((saveAsset ctx input).run exec s).2
  | depreciate ctx _ input => depreciated ctx input s

theorem marked_run {π : Type} [PeriodStore π] {tenant : TenantId} {s : Stores π FixedAssetStore}
    (hmrk : Marked tenant s) (calls : List (RegisterCall tenant)) :
    Marked tenant (calls.foldl RegisterCall.step s) := by
  refine foldl_invariant (fun s call hs => ?_) hmrk calls
  rcases call with ⟨ctx, rfl, input⟩ | ⟨ctx, rfl, input⟩
  · exact marked_saveAsset hs input
  · exact marked_depreciated hs input

end Rgnr8.Service.FixedAssets
