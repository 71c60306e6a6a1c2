import Rgnr8.Contract.Recurring
import Rgnr8.Reconciliation.BalancedSpec

/-! Opening cash and the outlook: when the one counts each account once, and the other starts after
what the accounts already hold. -/

namespace Rgnr8.Contract
open Lib Lib.Js Lib.Py Kernel Ingestion Fallible List Except
open Reconciliation (StatementReconciliation sumMoney)

structure Standing where
  latest : OrderedMap AccountId StatementReconciliation
  superseded : List StatementReconciliation

def Standing.add (s : Standing) (r : StatementReconciliation) : Standing :=
  match s.latest.get? r.accountId with
  | none => { s with latest := s.latest.set r.accountId r }
  | some b =>
    if Before r.periodEnd b.periodEnd then { s with superseded := r :: s.superseded }
    else ⟨s.latest.set r.accountId r, b :: s.superseded⟩

variable (clean : List StatementReconciliation)

def standing : Standing :=
  clean.foldl Standing.add ⟨.empty, []⟩

variable (r : StatementReconciliation)

def closingMinor : Int := r.statementClosing.minorUnits

def latestCash : Int :=
  (standing clean).latest.total fun _ r => closingMinor r

def supersededCash : Int :=
  ((standing clean).superseded.map closingMinor).sum

theorem standing_append : standing (clean ++ [r]) = (standing clean).add r := by
  unfold standing
  rw [foldl_append, foldl_cons, foldl_nil]

def IsLatest (a : AccountId) (r : StatementReconciliation) : Prop :=
  r ∈ clean ∧ r.accountId = a ∧ ∀ r' ∈ clean, r'.accountId = a → ¬ Before r.periodEnd r'.periodEnd

section
variable {clean : List StatementReconciliation} {a : AccountId} {r c : StatementReconciliation}

end

theorem closing_split (clean : List StatementReconciliation) :
    (clean.map closingMinor).sum = latestCash clean + supersededCash clean := by
  induction clean using reverseRecOn with
  | nil => rfl
  | append_singleton clean c ih =>
    unfold latestCash supersededCash at ih ⊢
    rw [map_append, sum_append, ih, standing_append, Standing.add, map_singleton,
      sum_singleton]
    cases hlook : (standing clean).latest.get? c.accountId with
    | none =>
      dsimp only
      rw [OrderedMap.total_set, hlook]
      simp only [Option.map_none, Option.getD_none]
      omega
    | some b =>
      dsimp only
      split_ifs
      · rw [map_cons, sum_cons]
        dsimp only
        omega
      · rw [OrderedMap.total_set, hlook, map_cons, sum_cons]
        simp only [Option.map_some, Option.getD_some]
        omega

/-! What a build that comes out consists of. -/

section
variable {lowerCase : String → String} {opts : BuildOptions} {dto : ForecastInputsDTO}

theorem moneyToDto_ok {m : Money} {d : MoneyDTO} (h : moneyToDto m = .ok d) :
    d = ⟨m.minorUnits, m.currency.code⟩ := by
  unfold moneyToDto at h
  split_ifs at h
  exact (ok.inj h).symm

theorem build_ok (h : buildForecastInputs lowerCase opts = .ok dto) :
    dto.opening.available.minor = ((cleanOf opts).map closingMinor).sum ∧
      detectRecurring lowerCase (cleanTxns opts) opts.detect = .ok dto.recurring := by
  unfold buildForecastInputs at h
  dsimp only at h
  cases hasOf : (opts.asOf.or (latestPeriodEnd (cleanOf opts))).filter (· ≠ "") with
  | none =>
    rw [hasOf] at h
    cases h
  | some asOf =>
    rw [hasOf] at h
    dsimp only at h
    simp only [bind_eq_ok, mapError_eq_ok] at h
    obtain ⟨_, -, available, havail, recurring, hrec, d, hd, h⟩ := h
    have havail := Reconciliation.minorUnits_sumMoney havail
    rw [← ok.inj h]
    refine ⟨?_, hrec⟩
    dsimp only
    rw [moneyToDto_ok hd, havail, map_map]
    rfl

theorem mem_detectRecurring {txns : List CanonicalTransaction} {detect : DetectOptions}
    {items : List RecurringItemDTO} (h : detectRecurring lowerCase txns detect = .ok items)
    (d : RecurringItemDTO) : d ∈ items ↔
      ∃ group ∈ (groupsOf lowerCase txns).values, detectGroup detect group = .ok (some d) := by
  unfold detectRecurring at h
  rw [bind_eq_ok] at h
  obtain ⟨found, hfound, h⟩ := h
  rw [← ok.inj h, mem_insertionSort, reduceOption_mem_iff]
  have hfound := mapM_eq_ok.mp hfound
  constructor
  · intro hd
    obtain ⟨group, hgroup, hdet⟩ := exists_of_forall₂ hfound hd
    exact ⟨group, hgroup, hdet⟩
  · rintro ⟨group, hgroup, hdet⟩
    obtain ⟨d', hd', hdet'⟩ := exists_of_forall₂ hfound.flip hgroup
    have hsame : d' = some d := ok.inj (hdet'.symm.trans hdet)
    rwa [← hsame]

theorem detectGroup_ok {detect : DetectOptions} {group : List CanonicalTransaction}
    {d : RecurringItemDTO} (h : detectGroup detect group = .ok (some d)) :
    ∃ latest, (byDate group).getLast? = some latest ∧ d.recurrence.anchor = firstTen latest.date ∧
      d.recurrence.frequency ≠ .semimonthly ∧ d.recurrence.interval = 1 ∧ d.recurrence.end_ = none ∧
      d.recurrence.count = none ∧ d.category ≠ .transfer := by
  unfold detectGroup at h
  -- the guards of the source in order: too few, no cadence, no amount
  by_cases hfew : group.length < detect.minOccurrences
  · rw [if_pos hfew] at h
    cases h
  rw [if_neg hfew] at h
  dsimp only at h
  cases hcad : cadenceOf detect (byDate group) with
  | none =>
    rw [hcad] at h
    cases h
  | some freq =>
  cases hfst : (byDate group).head? with
  | none =>
    rw [hcad, hfst] at h
    cases h
  | some first =>
  cases hlat : (byDate group).getLast? with
  | none =>
    rw [hcad, hfst, hlat] at h
    cases h
  | some latest =>
    rw [hcad, hfst, hlat] at h
    dsimp only at h
    rw [bind_eq_ok] at h
    obtain ⟨amount, -, h⟩ := h
    cases amount with
    | none => cases h
    | some medAmt =>
      dsimp only at h
      rw [bind_eq_ok] at h
      obtain ⟨money, -, h⟩ := h
      have hfreq : freq ≠ .semimonthly := by
        have hgap : ∀ gap, frequencyForGap gap ≠ some .semimonthly := by
          intro gap
          unfold frequencyForGap
          split_ifs <;> exact nofun
        rintro rfl
        unfold cadenceOf at hcad
        simp only [Option.bind_eq_bind, Option.bind_eq_some_iff] at hcad
        obtain ⟨_, -, gap, -, hcad⟩ := hcad
        split_ifs at hcad
        exact hgap gap hcad
      have hcat : ∀ inflow, kindToCategory first.kind inflow ≠ .transfer := by
        intro inflow
        unfold kindToCategory
        cases first.kind <;> cases inflow <;> decide
      rw [← Option.some.inj (ok.inj h)]
      exact ⟨latest, rfl, rfl, hfreq, rfl, rfl, rfl, hcat _⟩

theorem mem_groupsOf {txns : List CanonicalTransaction} {group : List CanonicalTransaction}
    (hgroup : group ∈ (groupsOf lowerCase txns).values) {t : CanonicalTransaction} (ht : t ∈ group) :
    t ∈ txns := by
  have hall : ∀ (txns : List CanonicalTransaction) (k : String) (g : List CanonicalTransaction),
      (groupsOf lowerCase txns).get? k = some g → ∀ t ∈ g, t ∈ txns := by
    intro txns
    induction txns using reverseRecOn with
    | nil =>
      intro k g h
      cases h
    | append_singleton txns c ih =>
      intro k g h t ht
      unfold groupsOf at h
      rw [foldl_append, foldl_cons, foldl_nil] at h
      change (if c.isInternalTransfer = true ∨ c.amount.minorUnits = 0 then groupsOf lowerCase txns
        else (groupsOf lowerCase txns).set (groupKey lowerCase c)
          (((groupsOf lowerCase txns).get? (groupKey lowerCase c)).getD [] ++ [c])).get? k = some g at h
      split_ifs at h
      · exact mem_append_left _ (ih k g h t ht)
      · by_cases hk : k = groupKey lowerCase c
        · subst hk
          rw [OrderedMap.get?_set_self, Option.some.injEq] at h
          rw [← h] at ht
          rcases mem_append.mp ht with ht | ht
          · cases hlook : (groupsOf lowerCase txns).get? (groupKey lowerCase c) with
            | none =>
              rw [hlook] at ht
              cases ht
            | some g' =>
              rw [hlook] at ht
              exact mem_append_left _ (ih _ g' hlook t ht)
          · exact mem_append_right _ ht
        · rw [OrderedMap.get?_set_ne _ _ hk] at h
          exact mem_append_left _ (ih k g h t ht)
  obtain ⟨⟨k, g⟩, hent, rfl⟩ := mem_map.mp hgroup
  exact hall txns k g (OrderedMap.mem_entries.mp hent) t ht

theorem recurringFromDto_ok {d : RecurringItemDTO} {item : Forecast.RecurringItem}
    (h : recurringFromDto d = .ok item) (hend : d.recurrence.end_ = none) :
    Date.fromIso d.recurrence.anchor = .ok item.recurrence.anchor ∧
      item.recurrence.frequency = d.recurrence.frequency ∧
      item.recurrence.interval = d.recurrence.interval ∧ item.recurrence.end_ = none ∧
      item.recurrence.count = d.recurrence.count ∧ item.category = d.category := by
  unfold recurringFromDto recurrenceFromDto at h
  rw [hend] at h
  simp only [bind_eq_ok] at h
  obtain ⟨recurrence, ⟨anchor, hanch, _, hnone, hrecur⟩, h⟩ := h
  rw [← ok.inj h, ← ok.inj hrecur]
  exact ⟨hanch, rfl, rfl, (ok.inj hnone).symm, rfl, rfl⟩

/-- A detected flow on the other side of the contract. -/
structure Handed (lowerCase : String → String) (opts : BuildOptions) (item : Forecast.RecurringItem)
    (day : Date) : Prop where
  found : ∃ group ∈ (groupsOf lowerCase (cleanTxns opts)).values, ∃ d latest,
    detectGroup opts.detect group = .ok (some d) ∧ recurringFromDto d = .ok item ∧
      (byDate group).getLast? = some latest ∧ Date.fromIso (firstTen latest.date) = .ok day

theorem Handed.item {item : Forecast.RecurringItem} {day : Date}
    (h : Handed lowerCase opts item day) :
    item.recurrence.anchor = day ∧ item.recurrence.frequency ≠ .semimonthly ∧
      item.recurrence.interval = 1 ∧ item.recurrence.end_ = none ∧ item.recurrence.count = none ∧
      item.category ≠ .transfer := by
  obtain ⟨group, -, d, latest, hdet, hitem, hlat, hday⟩ := h.found
  obtain ⟨latest', hlat', hanch, hfreq, hivl, hend, hcount, hcat⟩ :=
    detectGroup_ok hdet
  obtain ⟨hitemAn, hitemF, hitemIn, hitemEnd, hitemC, hitemCat⟩ :=
    recurringFromDto_ok hitem hend
  obtain rfl := Option.some.inj (hlat.symm.trans hlat')
  rw [hanch] at hitemAn
  refine ⟨ok.inj (hitemAn.symm.trans hday), ?_, hitemIn.trans hivl, hitemEnd,
    hitemC.trans hcount, ?_⟩
  · rwa [hitemF]
  · rwa [hitemCat]

variable {inputs : Forecast.ForecastInputs} {config : Forecast.ForecastConfig}
variable {assumptions : Forecast.ScenarioAssumptions} {flows : List Forecast.CashFlow}

def AfterLatest (lowerCase : String → String) (opts : BuildOptions) (inputs : Forecast.ForecastInputs)
    (config : Forecast.ForecastConfig) : Prop :=
  ∀ item day, Handed lowerCase opts item day →
    ∀ horizonEnd, inputs.opening.asOf.addDays (config.horizonWeeks * 7 - 1) = .ok horizonEnd →
      ∀ fs, Forecast.recurringFlows inputs.opening.asOf horizonEnd item = .ok fs →
        ∀ f ∈ fs, day < f.onDate

/-- No group that is detected ends on the as-of date. -/
def NoneToday (lowerCase : String → String) (opts : BuildOptions) (inputs : Forecast.ForecastInputs) :
    Prop :=
  ∀ item day, Handed lowerCase opts item day → day ≠ inputs.opening.asOf

theorem recurringFlows_ok {asOf horizonEnd : Date} {item : Forecast.RecurringItem}
    {fs : List Forecast.CashFlow} (hcat : item.category ≠ .transfer)
    (h : Forecast.recurringFlows asOf horizonEnd item = .ok fs) :
    ∃ dates, item.recurrence.occurrences asOf horizonEnd = .ok dates ∧
      fs.map Forecast.CashFlow.onDate = dates := by
  unfold Forecast.recurringFlows at h
  rw [if_neg hcat, bind_eq_ok] at h
  obtain ⟨dates, hdates, h⟩ := h
  refine ⟨dates, hdates, ?_⟩
  rw [← ok.inj h, map_map]
  exact map_id'' (fun _ => rfl) dates

theorem exists_recurringFlows (hbuild : buildForecastInputs lowerCase opts = .ok dto)
    (hload : inputsFromDto dto = .ok inputs)
    (hresv : Forecast.resolve inputs config assumptions = .ok flows)
    {item : Forecast.RecurringItem} {day : Date} (hitem : Handed lowerCase opts item day) :
    ∃ horizonEnd, inputs.opening.asOf.addDays (config.horizonWeeks * 7 - 1) = .ok horizonEnd ∧
      ∃ fs, Forecast.recurringFlows inputs.opening.asOf horizonEnd item = .ok fs := by
  obtain ⟨group, hgroup, d, latest, hdet, hfrom, -, -⟩ := hitem.found
  have hd := (mem_detectRecurring (build_ok hbuild).2 d).mpr ⟨group, hgroup, hdet⟩
  unfold inputsFromDto at hload
  simp only [bind_eq_ok] at hload
  obtain ⟨asOf, -, recurring, hrec, hload⟩ := hload
  obtain ⟨item', hitem', hfrom'⟩ := exists_of_forall₂ (mapM_eq_ok.mp hrec).flip hd
  obtain rfl : item' = item := ok.inj (hfrom'.symm.trans hfrom)
  have hmem : item' ∈ inputs.recurring := by
    rw [← ok.inj hload]
    exact hitem'
  obtain ⟨horizonEnd, _, _, _, hend, -, -, hcoms, -⟩ := Forecast.resolve_eq_ok.mp hresv
  unfold Forecast.commitmentFlows at hcoms
  simp only [bind_eq_ok] at hcoms
  obtain ⟨fss, hfss, -⟩ := hcoms
  obtain ⟨fs, -, hfs⟩ := exists_of_forall₂ (mapM_eq_ok.mp hfss).flip hmem
  exact ⟨horizonEnd, hend, fs, hfs⟩

theorem afterLatest_iff (hbuild : buildForecastInputs lowerCase opts = .ok dto)
    (hload : inputsFromDto dto = .ok inputs)
    (hresv : Forecast.resolve inputs config assumptions = .ok flows)
    (hdated : ∀ t ∈ opts.transactions, ∀ day, Date.fromIso (firstTen t.date) = .ok day →
      day ≤ inputs.opening.asOf) :
    AfterLatest lowerCase opts inputs config ↔
      (1 ≤ config.horizonWeeks → NoneToday lowerCase opts inputs) := by
  constructor
  · intro hafter hweeks item day hitem htoday
    obtain ⟨horizonEnd, hend, fs, hfs⟩ := exists_recurringFlows hbuild hload hresv hitem
    obtain ⟨hanch, hfreq, hivl, hnone, hcount, hcat⟩ := hitem.item
    obtain ⟨dates, hdates, hmap⟩ := recurringFlows_ok hcat hfs
    rw [← htoday, ← hanch] at hdates
    have hwnd : item.recurrence.anchor ≤ horizonEnd := by
      rw [hanch, htoday, Date.le_def, Date.addDays_eq_ok.mp hend]
      omega
    have hmem := Forecast.Recurrence.anchor_mem_occurrences hfreq hivl.ge hnone hcount
      hwnd hdates
    rw [← hmap, hanch] at hmem
    obtain ⟨f, hf, hday⟩ := mem_map.mp hmem
    exact absurd (hafter item day hitem horizonEnd hend fs hfs f hf) (by rw [hday]; exact lt_irrefl _)
  · intro hnone item day hitem horizonEnd hend fs hfs f hf
    obtain ⟨-, hfreq, hivl, hitemEnd, -, hcat⟩ := hitem.item
    obtain ⟨dates, hdates, hmap⟩ := recurringFlows_ok hcat hfs
    have hmem : f.onDate ∈ dates := by
      rw [← hmap]
      exact mem_map_of_mem hf
    have hfrom := Forecast.Recurrence.le_of_mem_occurrences hfreq hivl.ge hdates hmem
    -- an empty horizon holds no occurrence
    have hweeks : 1 ≤ config.horizonWeeks := by
      by_contra hlt
      have hbef : horizonEnd < inputs.opening.asOf := by
        rw [Date.lt_def, Date.addDays_eq_ok.mp hend]
        omega
      unfold Forecast.Recurrence.occurrences at hdates
      rw [hitemEnd] at hdates
      dsimp only [Option.map_none, Option.getD_none] at hdates
      rw [if_pos hbef] at hdates
      rw [← ok.inj hdates] at hmem
      cases hmem
    obtain ⟨group, hgroup, _, latest, -, -, hlat, hday⟩ := hitem.found
    have htxn : latest ∈ opts.transactions := mem_of_mem_filter
      (mem_groupsOf hgroup ((mem_insertionSort _).mp (mem_of_getLast? hlat)))
    exact lt_of_lt_of_le (lt_of_le_of_ne (hdated latest htxn day hday) (hnone hweeks item day hitem))
      hfrom

/-- Opening cash is that of the latest statements, and the outlook starts after the transactions it
is drawn from, exactly where superseded statements come to nothing and no detected group ends on the
as-of date. -/
theorem no_cash_twice (hbuild : buildForecastInputs lowerCase opts = .ok dto)
    (hload : inputsFromDto dto = .ok inputs)
    (hresolve : Forecast.resolve inputs config assumptions = .ok flows)
    (hdated : ∀ t ∈ opts.transactions, ∀ day, Date.fromIso (firstTen t.date) = .ok day →
      day ≤ inputs.opening.asOf) :
    (dto.opening.available.minor = latestCash (cleanOf opts) ∧
        AfterLatest lowerCase opts inputs config) ↔
      supersededCash (cleanOf opts) = 0 ∧
        (1 ≤ config.horizonWeeks → NoneToday lowerCase opts inputs) := by
  refine and_congr ?_ (afterLatest_iff hbuild hload hresolve hdated)
  have hsplit := closing_split (cleanOf opts)
  rw [(build_ok hbuild).1]
  omega

end

def statementTo (periodEnd : String) (closing : Int) : StatementReconciliation where
  accountId := "1000"
  periodStart := "2026-07-01"
  periodEnd := periodEnd
  status := .balanced
  statementOpening := ⟨0, usd⟩
  statementClosing := ⟨closing, usd⟩
  bookClosing := ⟨closing, usd⟩
  difference := ⟨0, usd⟩
  unreconciledResidual := ⟨0, usd⟩
  matched := []
  unmatchedStatement := []
  unmatchedBook := []
  statementConsistent := true

def cleaning (date : String) : CanonicalTransaction where
  id := date
  tenantId := "t"
  accountId := "1000"
  externalId := date
  status := .posted
  date := date
  amount := ⟨-12000, usd⟩
  direction := .outflow
  description := "Cleaning"
  counterparty := none
  kind := .purchase
  isInternalTransfer := false
  dedupeKey := date
  source := ⟨"bank", "line", date, "1", "2026-09-01"⟩
  supersedes := none
  supersededBy := none

def activity (reconciliations : List StatementReconciliation) (dates : List String) :
    BuildOptions where
  currency := none
  reconciliations := reconciliations
  transactions := dates.map cleaning
  asOf := none
  restrictedMinor := 0
  detect := defaultDetect
  subledger := ⟨[], [], []⟩

def quarterly : Forecast.ForecastConfig where
  currency := "USD"
  horizonWeeks := 13
  minimumCash := ⟨0, "USD"⟩
  defaultPaymentDelayDays := 0
  minHistoryObservations := 3

/-- Opening cash and the as-of date, where activity goes all the way to the engine's flows. -/
def outlook (opts : BuildOptions) : Except Unit (Int × Int) := do
  let dto ← (buildForecastInputs toLowerCase opts).mapError fun _ => ()
  let inputs ← (inputsFromDto dto).mapError fun _ => ()
  let _ ← (Forecast.resolve inputs quarterly Forecast.baseAssumptions).mapError fun _ => ()
  return (dto.opening.available.minor, inputs.opening.asOf.ordinal)

theorem exists_outlook {opts : BuildOptions} {cash asOf : Int} (h : outlook opts = .ok (cash, asOf)) :
    ∃ dto inputs flows, buildForecastInputs toLowerCase opts = .ok dto ∧
      inputsFromDto dto = .ok inputs ∧
      Forecast.resolve inputs quarterly Forecast.baseAssumptions = .ok flows ∧
      dto.opening.available.minor = cash ∧ inputs.opening.asOf.ordinal = asOf := by
  unfold outlook at h
  simp only [bind_eq_ok, mapError_eq_ok] at h
  obtain ⟨dto, hbuild, inputs, hload, flows, hresv, h⟩ := h
  obtain ⟨hcash, hasOf⟩ := Prod.ext_iff.mp (ok.inj h)
  exact ⟨dto, inputs, flows, hbuild, hload, hresv, hcash, hasOf⟩

def twoPeriods : BuildOptions := activity
  [statementTo "2026-07-31" 100000, statementTo "2026-08-31" 150000]
  ["2026-08-17", "2026-08-24", "2026-08-31"]

def lastDay : Date := ⟨739859, by decide⟩

theorem onOrBefore_lastDay {txns : List CanonicalTransaction}
    (h : ∀ t ∈ txns, (Date.fromIso (firstTen t.date)).toOption.all fun day => day ≤ lastDay) :
    ∀ t ∈ txns, ∀ day, Date.fromIso (firstTen t.date) = .ok day → day ≤ lastDay := by
  intro t ht day hday
  have hall := h t ht
  rw [hday] at hall
  exact of_decide_eq_true hall

theorem twoPeriods_handed : ∃ item, Handed toLowerCase twoPeriods item lastDay := by
  let d : RecurringItemDTO := ⟨"Cleaning", .otherOutflow, .outflow, ⟨12000, "USD"⟩,
    ⟨.weekly, "2026-08-31", 1, none, none, none⟩⟩
  have hgroup : twoPeriods.transactions ∈ (groupsOf toLowerCase (cleanTxns twoPeriods)).values := by
    decide +kernel
  have hdet : detectGroup twoPeriods.detect twoPeriods.transactions = .ok (some d) := by
    decide +kernel
  have hlast : (byDate twoPeriods.transactions).getLast? = some (cleaning "2026-08-31") := by
    decide +kernel
  have hday : Date.fromIso (firstTen (cleaning "2026-08-31").date) = .ok lastDay := by
    decide +kernel
  exact ⟨⟨"Cleaning", .otherOutflow, .outflow, ⟨12000, "USD"⟩,
    ⟨.weekly, lastDay, 1, none, none, none⟩⟩, ⟨_, hgroup, d, _, hdet, by decide +kernel, hlast, hday⟩⟩

theorem twoPeriods_cash_twice : ∃ dto inputs flows,
    buildForecastInputs toLowerCase twoPeriods = .ok dto ∧ inputsFromDto dto = .ok inputs ∧
      Forecast.resolve inputs quarterly Forecast.baseAssumptions = .ok flows ∧
      (∀ t ∈ twoPeriods.transactions, ∀ day, Date.fromIso (firstTen t.date) = .ok day →
        day ≤ inputs.opening.asOf) ∧
      dto.opening.available.minor = 250000 ∧ latestCash (cleanOf twoPeriods) = 150000 ∧
      ¬ AfterLatest toLowerCase twoPeriods inputs quarterly := by
  have hrun : outlook twoPeriods = .ok (250000, lastDay.ordinal) := by decide +kernel
  obtain ⟨dto, inputs, flows, hbuild, hload, hresv, hcash, hasOf⟩ := exists_outlook hrun
  have hasOf : inputs.opening.asOf = lastDay := Date.ext hasOf
  have hdated : ∀ t ∈ twoPeriods.transactions, ∀ day, Date.fromIso (firstTen t.date) = .ok day →
      day ≤ inputs.opening.asOf := by
    rw [hasOf]
    exact onOrBefore_lastDay (by decide +kernel)
  refine ⟨dto, inputs, flows, hbuild, hload, hresv, hdated, hcash, by decide +kernel, ?_⟩
  rw [afterLatest_iff hbuild hload hresv hdated]
  obtain ⟨item, hitem⟩ := twoPeriods_handed
  exact fun hnone => hnone (by decide) item lastDay hitem hasOf.symm

def onePeriod : BuildOptions := activity [statementTo "2026-08-31" 150000]
  ["2026-08-10", "2026-08-17", "2026-08-24"]

theorem no_cash_twice_onePeriod : ∃ (dto : ForecastInputsDTO) (inputs : Forecast.ForecastInputs),
    buildForecastInputs toLowerCase onePeriod = .ok dto ∧ inputsFromDto dto = .ok inputs ∧
    ((dto.opening.available.minor = latestCash (cleanOf onePeriod) ∧
        AfterLatest toLowerCase onePeriod inputs quarterly) ↔
      supersededCash (cleanOf onePeriod) = 0 ∧
        (1 ≤ quarterly.horizonWeeks → NoneToday toLowerCase onePeriod inputs)) := by
  have hrun : outlook onePeriod = .ok (150000, lastDay.ordinal) := by decide +kernel
  obtain ⟨dto, inputs, flows, hbuild, hload, hresv, -, hasOf⟩ := exists_outlook hrun
  refine ⟨dto, inputs, hbuild, hload, no_cash_twice hbuild hload hresv ?_⟩
  rw [show inputs.opening.asOf = lastDay from Date.ext hasOf]
  exact onOrBefore_lastDay (by decide +kernel)

end Rgnr8.Contract
