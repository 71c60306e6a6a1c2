import Rgnr8.Service.DepreciationRuns

/-! An asset that is written down by what it produces. Each usage is rounded on its own, so that the
parts of a life need not come to the whole. -/

namespace Rgnr8.Service.FixedAssets
open Lib Lib.Js Fallible Kernel

structure RecordUsageInput where
  assetId : Option String
  date : Option String
  unitsMilli : Option TextOrNumber

structure RecordUsageResult where
  asset : AssetRecord
  postedMinor : Int
  entryId : EntryId

def producingAsset (assetId : String) : Option AssetRecord → Except FlowFailure AssetRecord
  | none => .error (.own s!"unknown asset {assetId}")
  | some asset =>
    if asset.status = .disposed then .error (.own s!"{assetId} is disposed")
    else if asset.method ≠ .unitsOfProduction then
      .error (.own s!"{assetId} is not a units-of-production asset")
    else .ok asset

def positiveUnits (units : Int) : Except FlowFailure Unit :=
  if units ≤ 0 then .error (.own "usage needs a positive number of units") else .ok ()

variable (asset : AssetRecord)

def usageAmount (units : Int) : Int :=
  let amount := roundDiv (depreciableBase asset * units) asset.totalUnitsMilli
  let remaining := depreciableBase asset - asset.accumulatedMinor
  if remaining < amount then remaining else amount

def AssetRecord.used (amount units : Int) : AssetRecord :=
  { asset with
    accumulatedMinor := asset.accumulatedMinor + amount
    unitsUsedMilli := asset.unitsUsedMilli + units }

def recordUsage (ctx : FlowContext) (input : RecordUsageInput) :
    FixedAssetProg RecordUsageResult := do
  let assetId := trim (input.assetId.getD "")
  let found ← ask (.getAsset ctx.tenant assetId)
  let asset ← Prog.ofExcept (producingAsset assetId found)
  let date ← Prog.ofExcept (requireDate input.date "date")
  let units ← Prog.ofExcept (minorOf input.unitsMilli "units")
  let _ ← Prog.ofExcept (positiveUnits units)
  let amount := usageAmount asset units
  if amount ≤ 0 then return ⟨asset, 0, ""⟩
  else do
    let period := s!"{date}#{asset.unitsUsedMilli}"
    let entryId ← postDepreciation ctx asset amount date period
    ask (.saveAsset ctx.tenant (asset.used amount units))
    return ⟨asset.used amount units, amount, entryId⟩

def AssetRecord.afterUsage (units : Int) : AssetRecord :=
  if usageAmount asset units ≤ 0 then asset else asset.used (usageAmount asset units) units

/-! One usage. -/

structure Usage where
  asset : AssetRecord
  accounts : DepreciationAccounts
  date : String
  units : Int

namespace Usage

def amount (u : Usage) : Int := usageAmount u.asset u.units

def command (u : Usage) (ctx : FlowContext) : PostCommand :=
  depreciationCommand ctx u.asset u.accounts u.amount u.date s!"{u.date}#{u.asset.unitsUsedMilli}"

def updated (u : Usage) : AssetRecord := u.asset.used u.amount u.units

end Usage

inductive UsagePlan where
  | idle (asset : AssetRecord)
  | book (u : Usage)

def planUsage (ctx : FlowContext) (input : RecordUsageInput) (own : FixedAssetStore) :
    Except FlowFailure UsagePlan := do
  let assetId := trim (input.assetId.getD "")
  let asset ← producingAsset assetId (own.getAsset ctx.tenant assetId)
  let date ← requireDate input.date "date"
  let units ← minorOf input.unitsMilli "units"
  let _ ← positiveUnits units
  if usageAmount asset units ≤ 0 then return .idle asset
  else
    let accounts ← depreciationAccounts ctx asset
    return .book ⟨asset, accounts, date, units⟩

def fileUsage (ctx : FlowContext) (u : Usage) (entry : PostedEntry) :
    FixedAssetProg RecordUsageResult := do
  ask (.saveAsset ctx.tenant u.updated)
  return ⟨u.updated, u.amount, entry.id⟩

section
variable {π : Type} [PeriodStore π]

def carryOutUsage (ctx : FlowContext) (s : Stores π FixedAssetStore) :
    UsagePlan → Except FlowFailure RecordUsageResult × Stores π FixedAssetStore
  | .idle asset => (.ok ⟨asset, 0, ""⟩, s)
  | .book u => (postFlow ctx (u.command ctx) >>= fileUsage ctx u).run exec s

theorem decides_recordUsage (ctx : FlowContext) (input : RecordUsageInput)
    (s : Stores π FixedAssetStore) : Decides exec s (recordUsage ctx input)
      (planUsage ctx input s.own) (carryOutUsage ctx s) := by
  unfold recordUsage planUsage
  refine .read rfl (.check fun asset _ => .check fun date _ => .check fun units _ =>
    .check fun _ _ => ?_)
  by_cases hnone : usageAmount asset units ≤ 0
  · rw [if_pos hnone, if_pos hnone]
    exact .done rfl
  · rw [if_neg hnone, if_neg hnone]
    unfold postDepreciation
    simp only [Prog.bind_assoc]
    refine .check fun accounts _ => .done ?_
    unfold carryOutUsage fileUsage Usage.command Usage.updated Usage.amount
    rfl

variable {asset : AssetRecord} {ctx : FlowContext} {units : Int} {input : RecordUsageInput}
variable {s s' : Stores π FixedAssetStore} {assetId : String}

theorem producingAsset_eq_ok {found : Option AssetRecord}
    (h : producingAsset assetId found = .ok asset) : found = some asset := by
  rcases found with - | a
  · exact nomatch h
  · unfold producingAsset at h
    rw [refuse_eq_ok, refuse_eq_ok] at h
    rw [Except.ok.inj h.2.2]

theorem planned_usage {own : FixedAssetStore}
    (hunits : minorOf input.unitsMilli "units" = .ok units) {plan : UsagePlan}
    (h : planUsage ctx input own = .ok plan) :
    ∃ asset, own.getAsset ctx.tenant (trim (input.assetId.getD "")) = some asset ∧ 0 < units ∧
      (usageAmount asset units ≤ 0 ∧ plan = .idle asset ∨ 0 < usageAmount asset units ∧
          ∃ accounts date, plan = .book ⟨asset, accounts, date, units⟩) := by
  unfold planUsage at h
  simp only [bind_eq_ok] at h
  obtain ⟨asset, hasset, date, -, units', hunits', _, hposv, h⟩ := h
  obtain rfl := Except.ok.inj (hunits.symm.trans hunits')
  refine ⟨asset, producingAsset_eq_ok hasset, ?_, ?_⟩
  · unfold positiveUnits at hposv
    rw [refuse_eq_ok] at hposv
    exact not_le.mp hposv.1
  · split_ifs at h with hnone
    · exact .inl ⟨hnone, (Except.ok.inj h).symm⟩
    · rw [bind_eq_ok] at h
      obtain ⟨accounts, -, h⟩ := h
      exact .inr ⟨not_le.mp hnone, accounts, date, (Except.ok.inj h).symm⟩

theorem recordUsage_ok (hunits : minorOf input.unitsMilli "units" = .ok units)
    {r : RecordUsageResult} (h : (recordUsage ctx input).run exec s = (.ok r, s')) :
    ∃ asset, s.own.getAsset ctx.tenant (trim (input.assetId.getD "")) = some asset ∧ 0 < units ∧
      s'.own.getAsset ctx.tenant (trim (input.assetId.getD "")) =
        some (asset.afterUsage units) := by
  have hdec := decides_recordUsage ctx input s
  rcases hplan : planUsage ctx input s.own with e | plan
  · rw [hdec.threw hplan] at h
    exact nomatch (Prod.mk.inj h).1
  · rw [hdec.ran hplan] at h
    obtain ⟨asset, hfound, hposv, ⟨hnone, rfl⟩ | ⟨hsome, accounts, date, rfl⟩⟩ :=
      planned_usage hunits hplan
    · refine ⟨asset, hfound, hposv, ?_⟩
      rw [← (Prod.mk.inj h).2, hfound]
      exact congrArg some (if_pos hnone).symm
    · refine ⟨asset, hfound, hposv, ?_⟩
      have hid : asset.id = trim (input.assetId.getD "") := s.own.asset_of_get hfound
      have hsav : (s.own.saveAsset ctx.tenant
          (asset.used (usageAmount asset units) units)).getAsset ctx.tenant
            (trim (input.assetId.getD "")) = some (asset.afterUsage units) := by
        rw [getAsset_saveAsset]
        refine (if_pos hid.symm).trans ?_
        exact congrArg some (if_neg (not_le.mpr hsome)).symm
      have hends := flowPosts FixedAssetCall.exec ctx
        ((⟨asset, accounts, date, units⟩ : Usage).command ctx)
        (fileUsage ctx ⟨asset, accounts, date, units⟩) s
      unfold carryOutUsage at h
      dsimp only at h
      rw [h] at hends
      generalize hend : ((Except.ok r : Except FlowFailure RecordUsageResult), s') = end_ at hends
      cases hends with
      | refused => exact nomatch (Prod.mk.inj hend).1
      | answered _ =>
        rw [(Prod.mk.inj hend).2]
        exact hsav
      | appended _ =>
        rw [(Prod.mk.inj hend).2]
        exact hsav

/-! Usage after usage. -/

inductive Recorded (tenant : TenantId) (assetId : String) :
    List Int → Stores π FixedAssetStore → Stores π FixedAssetStore → Prop where
  | nil (s : Stores π FixedAssetStore) : Recorded tenant assetId [] s s
  | cons {ctx : FlowContext} {input : RecordUsageInput} {units : Int} {rest : List Int}
      {r : RecordUsageResult} {s s' s'' : Stores π FixedAssetStore} (htenant : ctx.tenant = tenant)
      (hid : trim (input.assetId.getD "") = assetId)
      (hunits : minorOf input.unitsMilli "units" = .ok units)
      (h : (recordUsage ctx input).run exec s = (.ok r, s'))
      (hrest : Recorded tenant assetId rest s' s'') :
      Recorded tenant assetId (units :: rest) s s''

theorem Recorded.of_run {tenant : TenantId} {rest : List Int} (htenant : ctx.tenant = tenant)
    (hid : trim (input.assetId.getD "") = assetId)
    (hunits : minorOf input.unitsMilli "units" = .ok units)
    (hok : ((recordUsage ctx input).run exec s).1.toOption.isSome = true)
    (hrest : Recorded tenant assetId rest ((recordUsage ctx input).run exec s).2 s') :
    Recorded tenant assetId (units :: rest) s s' := by
  obtain ⟨r, hr⟩ := Option.isSome_iff_exists.mp hok
  exact .cons htenant hid hunits (Prod.ext (toOption_eq_some.mp hr) rfl) hrest

def roundedUsage (asset : AssetRecord) (units : List Int) : Int :=
  (units.map fun u => roundDiv (depreciableBase asset * u) asset.totalUnitsMilli).sum

/-- The same asset, with another amount taken. -/
structure SameAsset (asset asset' : AssetRecord) : Prop where
  base : depreciableBase asset' = depreciableBase asset
  total : asset'.totalUnitsMilli = asset.totalUnitsMilli

theorem roundDiv_nonneg {num den : Int} (hnum : 0 ≤ num) (hden : 0 < den) :
    0 ≤ roundDiv num den := by
  unfold roundDiv
  dsimp only
  rw [if_neg hden.ne', if_neg (by simp only [not_lt.mpr hnum, not_lt.mpr hden.le]; decide)]
  have hhalf : 0 ≤ (den.natAbs : Int).tdiv 2 := Int.tdiv_nonneg (Int.natCast_nonneg _) (by decide)
  exact Int.tdiv_nonneg (add_nonneg (Int.natCast_nonneg _) hhalf) (Int.natCast_nonneg _)

theorem afterUsage_takes (htot : 0 < asset.totalUnitsMilli) (hunits : 0 < units)
    (hroom : asset.accumulatedMinor ≤ depreciableBase asset) :
    SameAsset asset (asset.afterUsage units) ∧ (asset.afterUsage units).accumulatedMinor =
      min (depreciableBase asset) (asset.accumulatedMinor +
        roundDiv (depreciableBase asset * units) asset.totalUnitsMilli) := by
  have hshare : 0 ≤ roundDiv (depreciableBase asset * units) asset.totalUnitsMilli :=
    roundDiv_nonneg (mul_nonneg (depreciableBase_nonneg asset) hunits.le) htot
  have hamt : usageAmount asset units = min (depreciableBase asset - asset.accumulatedMinor)
      (roundDiv (depreciableBase asset * units) asset.totalUnitsMilli) := by
    unfold usageAmount
    dsimp only
    rw [min_def]
    split_ifs <;> omega
  unfold AssetRecord.afterUsage
  split_ifs with hnone
  · exact ⟨⟨rfl, rfl⟩, by omega⟩
  · refine ⟨⟨rfl, rfl⟩, ?_⟩
    unfold AssetRecord.used
    dsimp only
    omega

theorem recorded_takes {tenant : TenantId} {units : List Int}
    (h : Recorded tenant assetId units s s') (hasset : s.own.getAsset tenant assetId = some asset)
    (htot : 0 < asset.totalUnitsMilli) (hroom : asset.accumulatedMinor ≤ depreciableBase asset) :
    0 ≤ roundedUsage asset units ∧ ∃ asset', s'.own.getAsset tenant assetId = some asset' ∧
      SameAsset asset asset' ∧ asset'.accumulatedMinor =
        min (depreciableBase asset) (asset.accumulatedMinor + roundedUsage asset units) := by
  induction h generalizing asset with
  | nil s =>
    refine ⟨le_rfl, asset, hasset, ⟨rfl, rfl⟩, ?_⟩
    unfold roundedUsage
    rw [List.map_nil, List.sum_nil, add_zero, min_eq_right hroom]
  | @cons ctx input u rest r s s₁ s₂ htenant hid hunits h _ ih =>
    subst htenant hid
    obtain ⟨found, hfound, hposv, hnext⟩ := recordUsage_ok hunits h
    obtain rfl := Option.some.inj (hasset.symm.trans hfound)
    obtain ⟨hsame, htaken⟩ := afterUsage_takes htot hposv hroom
    have hshare : 0 ≤ roundDiv (depreciableBase asset * u) asset.totalUnitsMilli :=
      roundDiv_nonneg (mul_nonneg (depreciableBase_nonneg asset) hposv.le) htot
    have htot' : 0 < (asset.afterUsage u).totalUnitsMilli := by
      rw [hsame.total]
      exact htot
    have hroom' : (asset.afterUsage u).accumulatedMinor ≤
        depreciableBase (asset.afterUsage u) := by
      rw [hsame.base, htaken]
      exact min_le_left _ _
    obtain ⟨hroun, asset', hlast, hsame', htak'⟩ := ih hnext htot' hroom'
    have hsum : roundedUsage asset (u :: rest) =
        roundDiv (depreciableBase asset * u) asset.totalUnitsMilli +
          roundedUsage (asset.afterUsage u) rest := by
      unfold roundedUsage
      rw [List.map_cons, List.sum_cons, hsame.base, hsame.total]
    rw [hsum]
    refine ⟨add_nonneg hshare hroun, asset', hlast, ⟨hsame'.base.trans hsame.base,
      hsame'.total.trans hsame.total⟩, ?_⟩
    rw [htak', hsame.base, htaken]
    omega

/-- However a usage is split, what is taken never passes the base, and it comes to the base where
the parts, each rounded, do. -/
theorem usage_completes {tenant : TenantId} {assetId : String} {units : List Int}
    {s s' : Stores π FixedAssetStore} (h : Recorded tenant assetId units s s') {asset : AssetRecord}
    (hasset : s.own.getAsset tenant assetId = some asset) (htotal : 0 < asset.totalUnitsMilli)
    (hroom : asset.accumulatedMinor ≤ depreciableBase asset) :
    (∀ before after s₁, units = before ++ after → Recorded tenant assetId before s s₁ →
      ∃ asset₁, s₁.own.getAsset tenant assetId = some asset₁ ∧
        asset₁.accumulatedMinor ≤ depreciableBase asset) ∧
    ((∃ asset', s'.own.getAsset tenant assetId = some asset' ∧
        asset'.accumulatedMinor = depreciableBase asset) ↔
      depreciableBase asset ≤ asset.accumulatedMinor + roundedUsage asset units) := by
  constructor
  · intro before _ s₁ _ hbef
    obtain ⟨-, asset₁, hfound, -, htaken⟩ := recorded_takes hbef hasset htotal hroom
    refine ⟨asset₁, hfound, ?_⟩
    rw [htaken]
    exact min_le_left _ _
  · obtain ⟨-, asset', hlast, -, htaken⟩ := recorded_takes h hasset htotal hroom
    constructor
    · rintro ⟨found, hfound, hdone⟩
      obtain rfl := Option.some.inj (hlast.symm.trans hfound)
      rw [hdone] at htaken
      rw [htaken]
      exact min_le_right _ _
    · intro hcomes
      refine ⟨asset', hlast, ?_⟩
      rw [htaken, min_eq_left hcomes]

end

namespace Sample

/-- A die that is worn out after three parts. -/
def die (costMinor : Int) : AssetRecord where
  id := "die"
  name := "Die"
  category := ""
  inServiceDate := "2026-01-15"
  costMinor := costMinor
  salvageMinor := 0
  method := .unitsOfProduction
  usefulLifeMonths := 0
  decliningFactorMicro := 2000000
  totalUnitsMilli := 3000
  unitsUsedMilli := 0
  accumulatedMinor := 0
  assetAccountCode := "1500"
  accumAccountCode := "1510"
  expenseAccountCode := "6900"
  status := .active
  disposedDate := ""
  memo := ""

def dieAccounts : DepreciationAccounts :=
  ⟨⟨"expense", "6900", "6900", .expense, usd, none, none, some true, none⟩,
    ⟨"accum", "1510", "1510", .asset, usd, none, none, some true, none⟩⟩

def shop : FlowContext where
  tenant := "acme"
  chart := (ChartOfAccounts.ofAccounts [dieAccounts.accum, dieAccounts.expense]).toOption.getD .empty
  currency := usd
  clock := ⟨"2026-03-01T09:00:00Z", "2026-03-01T09:00:00Z"⟩
  letters := asciiLetters

def dieRegister : Stores (InMemoryPeriodStore TenantId PeriodKey) FixedAssetStore :=
  ⟨⟨.empty, .empty⟩, FixedAssetStore.empty.saveAsset "acme" (die 100000)⟩

def part : RecordUsageInput := ⟨some "die", some "2026-02-10", some (.number (some 1000))⟩

def afterParts (n : Nat) : Stores (InMemoryPeriodStore TenantId PeriodKey) FixedAssetStore :=
  (fun s => ((recordUsage shop part).run exec s).2)^[n] dieRegister

theorem recorded_parts : Recorded "acme" "die" [1000, 1000, 1000] dieRegister (afterParts 3) := by
  have hpart (n : Nat)
      (hok : ((recordUsage shop part).run exec (afterParts n)).1.toOption.isSome)
      {rest : List Int} {s : Stores (InMemoryPeriodStore TenantId PeriodKey) FixedAssetStore}
      (hrest : Recorded "acme" "die" rest (afterParts (n + 1)) s) :
      Recorded "acme" "die" (1000 :: rest) (afterParts n) s := by
    refine .of_run ?_ ?_ ?_ hok ?_
    · rfl
    · decide
    · rfl
    · unfold afterParts at hrest ⊢
      rw [Function.iterate_succ_apply'] at hrest
      exact hrest
  exact hpart 0 (by decide +kernel) (hpart 1 (by decide +kernel) (hpart 2 (by decide +kernel)
    (.nil _)))

theorem usage_completes_parts : (∀ before after s₁, [1000, 1000, 1000] = before ++ after →
      Recorded "acme" "die" before dieRegister s₁ →
      ∃ asset, s₁.own.getAsset "acme" "die" = some asset ∧ asset.accumulatedMinor ≤ 100000) ∧
    ((∃ asset, (afterParts 3).own.getAsset "acme" "die" = some asset ∧
        asset.accumulatedMinor = 100000) ↔
      100000 ≤ 0 + roundedUsage (die 100000) [1000, 1000, 1000]) :=
  usage_completes recorded_parts rfl (by decide) (by decide)

theorem usage_not_complete : ¬ ∀ (tenant : TenantId) (assetId : String) (units : List Int)
    (s s' : Stores (InMemoryPeriodStore TenantId PeriodKey) FixedAssetStore) (asset : AssetRecord),
    Recorded tenant assetId units s s' → s.own.getAsset tenant assetId = some asset →
      asset.method = .unitsOfProduction → asset.accumulatedMinor = 0 →
      0 < asset.totalUnitsMilli → asset.totalUnitsMilli ≤ units.sum →
      ∃ asset', s'.own.getAsset tenant assetId = some asset' ∧
        asset'.accumulatedMinor = depreciableBase asset := by
  intro h
  obtain ⟨asset', hfound, hdone⟩ := h "acme" "die" _ dieRegister (afterParts 3) (die 100000)
    recorded_parts rfl rfl rfl (by decide) (by decide)
  have hdie : dieRegister.own.getAsset "acme" "die" = some (die 100000) := rfl
  obtain ⟨-, last, hlast, -, htaken⟩ := recorded_takes recorded_parts hdie (by decide) (by decide)
  obtain rfl := Option.some.inj (hfound.symm.trans hlast)
  rw [hdone] at htaken
  exact absurd htaken (by decide)

end Sample
end Rgnr8.Service.FixedAssets
