import Rgnr8.Migration.ImportRuns

/-! A verified migration and when it is a true one. -/

namespace Rgnr8.Migration
open Lib Lib.Js Kernel Fallible OrderedMap List

variable (chart : QboChart)

def PostedOnce (currency : Currency) (journal : List PostedEntry) (entry : QboJournalEntry) :
    Prop :=
  ∃ e, (journal.filter fun e => e.idempotencyKey = "qbo:" ++ entry.id) = [e] ∧
    List.Forall₂ (fun q l => ownLine chart currency q = some (said l)) entry.lines e.lines

def Listed (opts : ImportOptions) (issues : List ImportIssue) (entry : QboJournalEntry) : Prop :=
  ∃ issue ∈ issues, buildOne chart opts entry = .error issue

def netOfNames (names : List String) (lines : List PostedLine) : Int :=
  weightedSum (fun id => if (chart.coa.get id).any (fun a => a.name ∈ names) then 1 else 0) lines

def postedNet (journal : List PostedEntry) (name : String) : Int :=
  (journal.map fun e => netOfNames chart [name] e.lines).sum

structure TrueMigration {π : Type} (exp : QboExport) (opts : MigrationOnboardOptions)
    (r : MigrationResult π) : Prop where
  entries : ∀ entry ∈ exp.entries,
    PostedOnce r.chart opts.currency (r.ledger.journal opts.tenantId) entry ∨
      Listed r.chart opts.toImport r.importReport.issues entry
  verified : r.verified = true → ∀ name,
    |postedNet r.chart (r.ledger.journal opts.tenantId) name -
        reportedNet opts.currency (exp.reportedTrialBalance.getD []) name| ≤
      opts.toleranceMinor.getD 0

def Fits (currency : Currency) (balance : String) : Prop :=
  ∃ m, Money.fromDecimal balance currency = .ok m ∧ m.minorUnits ≤ Money.maxSafeInteger

def openingMinor (exp : QboExport) (commands : List PostCommand) : Int :=
  ((firsts commands).map fun c => netOfNames chart (bankNames exp) c.lines).sum

/-- What an export and its snapshot need. -/
structure Importable (chart : QboChart) (exp : QboExport) (opts : MigrationOnboardOptions) :
    Prop where
  /-- Entries of one id that can be read have one fingerprint and the same lines. -/
  agree : ∀ entry ∈ exp.entries, ∀ entry' ∈ exp.entries, entry.id = entry'.id →
    ∀ c c', buildOne chart opts.toImport entry = .ok c → buildOne chart opts.toImport entry' = .ok c' →
      fingerprintOfCommand c = fingerprintOfCommand c' ∧ c.lines.map said = c'.lines.map said
  reported : ∀ row ∈ exp.reportedTrialBalance.getD [], ∃ n, parseNetMinor opts.currency row = .ok n
  opening : |openingMinor chart exp (toPostCommands chart opts.toImport exp).commands| ≤
    Money.maxSafeInteger
  invoices : ∀ inv ∈ opts.openInvoices, Fits opts.currency inv.balance
  bills : ∀ bill ∈ opts.openBills, Fits opts.currency bill.balance

section
variable {chart : QboChart} {opts : MigrationOnboardOptions} {exp : QboExport}
variable {usedCodes : List String}

theorem mem_commands {c : PostCommand} : c ∈ (toPostCommands chart opts.toImport exp).commands ↔
    ∃ entry ∈ exp.entries, buildOne chart opts.toImport entry = .ok c := by
  unfold toPostCommands
  rw [mem_filterMap]
  refine exists_congr fun entry => and_congr_right fun _ => ?_
  cases buildOne chart opts.toImport entry with
  | error issue => exact ⟨nofun, nofun⟩
  | ok c' => exact ⟨fun h => congrArg _ (Option.some.inj h), fun h => congrArg _ (Except.ok.inj h)⟩

theorem mem_issues {entry : QboJournalEntry} {issue : ImportIssue} (hent : entry ∈ exp.entries)
    (h : buildOne chart opts.toImport entry = .error issue) :
    issue ∈ (toPostCommands chart opts.toImport exp).issues :=
  mem_filterMap.mpr ⟨entry, hent, by rw [h]⟩

theorem filter_key {journal : List PostedEntry} (hnd : (journal.map fun e => e.idempotencyKey).Nodup)
    {e : PostedEntry} (he : e ∈ journal) :
    (journal.filter fun e' => e'.idempotencyKey = e.idempotencyKey) = [e] := by
  induction journal with
  | nil => cases he
  | cons e' journal ih =>
    rw [map_cons, nodup_cons] at hnd
    rcases mem_cons.mp he with rfl | he
    · have hself : decide (e.idempotencyKey = e.idempotencyKey) = true := decide_eq_true rfl
      rw [filter_cons, if_pos hself, filter_eq_nil_iff.mpr]
      intro e' he' hsame
      exact hnd.1 (mem_map.mpr ⟨e', he', of_decide_eq_true hsame⟩)
    · have hne : ¬ decide (e'.idempotencyKey = e.idempotencyKey) = true := fun hsame =>
        hnd.1 (mem_map.mpr ⟨e, he, (of_decide_eq_true hsame).symm⟩)
      rw [filter_cons, if_neg hne, ih hnd.2 he]

/-! The trial balance of an import: a name has one row at most. -/

variable {journal : List PostedEntry} (localeLe : String → String → Bool)

theorem entriesIn_none (journal : List PostedEntry) : entriesIn none journal = journal :=
  filter_true journal

def Named (chart : QboChart) (journal : List PostedEntry) : Prop :=
  ∀ e ∈ journal, ∀ l ∈ e.lines, ∃ name, chart.byName.get? name = some l.accountId

theorem covers_of_named (hchart : Charted opts.currency chart usedCodes)
    (h : Named chart journal) : Covers chart.coa journal := by
  intro e he l hl
  obtain ⟨name, hname⟩ := h e he l hl
  obtain ⟨a, ha, -⟩ := hchart.names name _ hname
  exact Option.isSome_iff_exists.mpr ⟨a, ha⟩

theorem sum_rows_names (hchart : Charted opts.currency chart usedCodes) (h : Named chart journal)
    (names : List String) :
    (((computeTrialBalance localeLe chart.coa opts.currency none journal).rows.filter
        fun r => r.name ∈ names).map TrialBalanceRow.position).sum =
      (journal.map fun e => netOfNames chart names e.lines).sum := by
  have hcov : Covers chart.coa (entriesIn none journal) := by
    rw [entriesIn_none]
    exact covers_of_named hchart h
  have hrows := @sum_rows journal none chart.coa localeLe opts.currency hcov
    (fun r => if r.name ∈ names then r.position else 0)
    (fun id n => (if (chart.coa.get id).any (fun a => a.name ∈ names) then 1 else 0) * n) (by
      intro a n ha
      rw [ha, position_trialBalanceRow, ite_mul, one_mul, zero_mul]
      have hsame : (trialBalanceRow opts.currency n a).name = a.name := rfl
      rw [hsame]
      by_cases hname : a.name ∈ names
      · rw [if_pos hname, Option.any_some, if_pos (decide_eq_true hname)]
      · rw [if_neg hname, Option.any_some, if_neg (by rwa [decide_eq_true_iff])])
  rw [total_netByAccount, entriesIn_none] at hrows
  refine Eq.trans ?_ hrows
  generalize (computeTrialBalance localeLe chart.coa opts.currency none journal).rows = rows
  induction rows with
  | nil => rfl
  | cons r rows ih =>
    rw [map_cons, sum_cons, ← ih]
    rw [filter_cons]
    by_cases hr : r.name ∈ names
    · rw [if_pos (decide_eq_true hr), map_cons, sum_cons, if_pos hr]
    · rw [if_neg (by rwa [decide_eq_true_iff]), if_neg hr, Int.zero_add]

theorem named_row (hchart : Charted opts.currency chart usedCodes) (h : Named chart journal)
    {r : TrialBalanceRow}
    (hr : r ∈ (computeTrialBalance localeLe chart.coa opts.currency none journal).rows) :
    chart.byName.get? r.name = some r.accountId := by
  obtain ⟨a, hkey, ha, rfl⟩ := mem_rows.mp hr
  rw [entriesIn_none] at hkey
  obtain ⟨e, he, l, hl, hid⟩ := mem_keys_netByAccount hkey
  obtain ⟨name, hname⟩ := h e he l hl
  obtain ⟨b, hb, hbname⟩ := hchart.names name _ hname
  rw [hid] at hname hb
  obtain rfl := Option.some.inj (ha.symm.trans hb)
  unfold trialBalanceRow
  dsimp only
  rwa [hbname]

theorem nodup_names (hchart : Charted opts.currency chart usedCodes) (h : Named chart journal) :
    ((computeTrialBalance localeLe chart.coa opts.currency none journal).rows.map
      TrialBalanceRow.name).Nodup := by
  refine (nodup_map_iff_inj_on ?_).mpr ?_
  · exact List.Nodup.of_map _ (nodup_rows localeLe chart.coa opts.currency none journal)
  · intro r hr r' hr' hname
    have hid : r.accountId = r'.accountId := by
      have hrow := named_row localeLe hchart h hr
      rw [hname, named_row localeLe hchart h hr'] at hrow
      exact (Option.some.inj hrow).symm
    exact inj_on_of_nodup_map (nodup_rows localeLe chart.coa opts.currency none journal) hr hr' hid

theorem at_foldl_set {rows : List TrialBalanceRow} (hnd : (rows.map TrialBalanceRow.name).Nodup)
    (net : OrderedMap String Int) (hnew : ∀ r ∈ rows, net.get? r.name = none) (name : String) :
    (rows.foldl (fun net r => net.set r.name r.position) net).at_ name =
      net.at_ name + ((rows.filter fun r => r.name ∈ [name]).map TrialBalanceRow.position).sum := by
  have hfold : rows.foldl (fun net r => net.set r.name r.position) net =
      tally TrialBalanceRow.name TrialBalanceRow.position net rows := by
    induction rows generalizing net with
    | nil => rfl
    | cons r rows ih =>
      rw [map_cons, nodup_cons] at hnd
      rw [forall_mem_cons] at hnew
      have hadd : net.add r.name r.position = net.set r.name r.position := by
        unfold add at_
        rw [hnew.1, Option.getD_none, Int.zero_add]
      unfold tally
      rw [foldl_cons, foldl_cons, hadd]
      refine ih hnd.2 _ fun r' hr' => ?_
      have hne : r'.name ≠ r.name := fun h => hnd.1 (mem_map.mpr ⟨r', hr', h⟩)
      rw [get?_set_ne _ _ hne]
      exact hnew.2 r' hr'
  rw [hfold, at_tally]
  simp only [mem_singleton]

theorem agreement_sound (hchart : Charted opts.currency chart usedCodes) (h : Named chart journal)
    {reported : List QboTrialBalanceRow} (hne : reported ≠ []) {report : DiffReport}
    (hcom : compareTrialBalances opts.currency opts.toleranceMinor
      (computeTrialBalance localeLe chart.coa opts.currency none journal) reported = .ok report)
    (hagree : report.inAgreement = true) (name : String) :
    |postedNet chart journal name - reportedNet opts.currency reported name| ≤
      opts.toleranceMinor.getD 0 := by
  obtain ⟨qboNet, hqbo, hstatus⟩ := status_of_inAgreement hcom hagree
  have hposted := at_foldl_set (nodup_names localeLe hchart h) .empty
    (fun r _ => get?_empty r.name)
  have hrepor := addReported_ok hqbo
  generalize (computeTrialBalance localeLe chart.coa opts.currency none journal).rows.foldl
    (fun net r => net.set r.name r.position) (empty : OrderedMap String Int) = rgnr8Net
    at hposted hstatus
  have hzero : (empty : OrderedMap String Int).at_ = fun _ => 0 := rfl
  have hclose : ∀ name, rgnr8Net.get? name ≠ none ∨ qboNet.get? name ≠ none →
      |rgnr8Net.at_ name - qboNet.at_ name| ≤ opts.toleranceMinor.getD 0 := by
    intro name hin
    have hmatch := hstatus name hin
    unfold statusOf at hmatch
    split_ifs at hmatch with _ _ hle
    exact hle
  have hsame : |postedNet chart journal name - reportedNet opts.currency reported name| =
      |rgnr8Net.at_ name - qboNet.at_ name| := by
    rw [hposted, hrepor, hzero, sum_rows_names localeLe hchart h, Int.zero_add, Int.zero_add]
    rfl
  rw [hsame]
  by_cases hin : rgnr8Net.get? name ≠ none ∨ qboNet.get? name ≠ none
  · exact hclose name hin
  · rw [not_or, not_not, not_not] at hin
    unfold at_
    rw [hin.1, hin.2]
    -- some name is reported, and within the tolerance
    obtain ⟨row, hrow⟩ := exists_mem_of_ne_nil _ hne
    have hin := mem_addReported hqbo (.inr ⟨row, hrow, rfl⟩)
    exact (abs_nonneg _).trans (hclose row.account (.inr hin))

/-! What it takes for the forecast's inputs to come out. -/

theorem moneyToDto_ok_iff {m : Money} :
    (∃ d, moneyToDto m = .ok d) ↔ |m.minorUnits| ≤ Money.maxSafeInteger := by
  unfold moneyToDto
  split_ifs with h
  · exact ⟨fun _ => h, fun _ => ⟨_, rfl⟩⟩
  · exact ⟨fun h' => (nomatch h'.choose_spec), fun h' => absurd h' h⟩

theorem openAmount_ok_iff {currency : Currency} {balance : String} :
    (∃ o, openAmount currency balance = .ok o) ↔ Fits currency balance := by
  unfold openAmount Fits
  simp only [bind_eq_ok, mapError_eq_ok]
  constructor
  · rintro ⟨o, m, hm, h⟩
    refine ⟨m, hm, ?_⟩
    split_ifs at h with hpos
    · obtain ⟨d, hd, -⟩ := map_eq_ok.mp h
      exact (le_abs_self _).trans (moneyToDto_ok_iff.mp ⟨d, hd⟩)
    · exact (not_lt.mp hpos).trans (by decide)
  · rintro ⟨m, hm, hsafe⟩
    by_cases hpos : 0 < m.minorUnits
    · obtain ⟨d, hd⟩ := moneyToDto_ok_iff.mpr ((abs_of_pos hpos).trans_le hsafe)
      refine ⟨some d, m, hm, ?_⟩
      rw [if_pos hpos]
      exact map_eq_ok.mpr ⟨d, hd, rfl⟩
    · refine ⟨none, m, hm, ?_⟩
      rw [if_neg hpos]
      rfl

theorem invoiceDto_ok_iff {inv : QboOpenInvoice} :
    (∃ o, invoiceDto opts.currency inv = .ok o) ↔ Fits opts.currency inv.balance := by
  rw [← openAmount_ok_iff]
  unfold invoiceDto
  simp only [bind_eq_ok]
  exact ⟨fun ⟨_, o, ho, _⟩ => ⟨o, ho⟩, fun ⟨o, ho⟩ => ⟨_, o, ho, rfl⟩⟩

theorem billDto_ok_iff {bill : QboOpenBill} :
    (∃ o, billDto opts.currency bill = .ok o) ↔ Fits opts.currency bill.balance := by
  rw [← openAmount_ok_iff]
  unfold billDto
  simp only [bind_eq_ok]
  exact ⟨fun ⟨_, o, ho, _⟩ => ⟨o, ho⟩, fun ⟨o, ho⟩ => ⟨_, o, ho, rfl⟩⟩

theorem forecastInputs_ok_iff (hchart : Charted opts.currency chart usedCodes)
    (h : Named chart journal) (verified : Bool) :
    (∃ dto, buildMigrationForecastInputs exp
        (computeTrialBalance localeLe chart.coa opts.currency none journal) opts verified = .ok dto) ↔
      |(journal.map fun e => netOfNames chart (bankNames exp) e.lines).sum| ≤ Money.maxSafeInteger ∧
        (∀ inv ∈ opts.openInvoices, Fits opts.currency inv.balance) ∧
        ∀ bill ∈ opts.openBills, Fits opts.currency bill.balance := by
  have hinvs : (∃ invoices, opts.openInvoices.mapM (invoiceDto opts.currency) = .ok invoices) ↔
      ∀ inv ∈ opts.openInvoices, Fits opts.currency inv.balance :=
    exists_mapM_iff.trans (forall₂_congr fun _ _ => invoiceDto_ok_iff)
  have hbills : (∃ bills, opts.openBills.mapM (billDto opts.currency) = .ok bills) ↔
      ∀ bill ∈ opts.openBills, Fits opts.currency bill.balance :=
    exists_mapM_iff.trans (forall₂_congr fun _ _ => billDto_ok_iff)
  rw [← hinvs, ← hbills, ← sum_rows_names localeLe hchart h]
  have havail := moneyToDto_ok_iff (m := ⟨(((computeTrialBalance localeLe chart.coa opts.currency
    none journal).rows.filter fun r => r.name ∈ bankNames exp).map TrialBalanceRow.position).sum,
    opts.currency⟩)
  rw [← havail]
  unfold buildMigrationForecastInputs
  simp only [bind_eq_ok]
  constructor
  · rintro ⟨dto, invoices, hinvs, bills, hbills, d, hd, -⟩
    exact ⟨⟨d, hd⟩, ⟨invoices, hinvs⟩, ⟨bills, hbills⟩⟩
  · rintro ⟨⟨d, hd⟩, ⟨invoices, hinvs⟩, ⟨bills, hbills⟩⟩
    exact ⟨_, invoices, hinvs, bills, hbills, d, hd, rfl⟩

theorem parallelClose_ok_iff (tb : TrialBalance) : (∃ diff, parallelClose exp opts tb = .ok diff) ↔
    ∀ row ∈ exp.reportedTrialBalance.getD [], ∃ n, parseNetMinor opts.currency row = .ok n := by
  unfold parallelClose
  cases hrepor : exp.reportedTrialBalance with
  | none => exact ⟨fun _ _ hrow => absurd hrow not_mem_nil, fun _ => ⟨none, rfl⟩⟩
  | some rows =>
    by_cases hrows : rows = []
    · subst hrows
      exact ⟨fun _ _ hrow => absurd hrow not_mem_nil, fun _ => ⟨none, rfl⟩⟩
    · rw [Option.filter_some_pos (by exact decide_eq_true hrows)]
      dsimp only
      simp only [map_eq_ok, mapError_eq_ok, Option.getD_some]
      constructor
      · rintro ⟨_, report, hrep, -⟩
        unfold compareTrialBalances at hrep
        dsimp only at hrep
        rw [bind_eq_ok] at hrep
        obtain ⟨net, hnet, -⟩ := hrep
        exact readable_of_addReported hnet
      · intro hread
        obtain ⟨net, hnet⟩ := exists_addReported hread .empty
        unfold compareTrialBalances
        dsimp only
        rw [hnet]
        exact ⟨_, _, rfl, rfl⟩

end

/-! The migration. -/

section
variable {π : Type} [PeriodStore π] {lowerCase : String → String}
variable {localeLe : String → String → Bool} {exp : QboExport} {opts : MigrationOnboardOptions}
variable {s t : Ledger π} {chart : QboChart} {usedCodes : List String}

theorem runMigrationOnboarding_ok_iff
    (hbuild : buildChartFromQbo lowerCase opts.currency exp.accounts = .ok chart)
    {report : ImportReport}
    (himp : (importQbo chart opts.toImport exp opts.postedAt).run LedgerCall.exec s =
      (.ok report, t)) {r : MigrationResult π} :
    runMigrationOnboarding lowerCase localeLe exp opts s = .ok r ↔
      ∃ diff dto, parallelClose exp opts (computeTrialBalance localeLe chart.coa opts.currency none
          (t.journal opts.tenantId)) = .ok diff ∧
        buildMigrationForecastInputs exp (computeTrialBalance localeLe chart.coa opts.currency none
          (t.journal opts.tenantId)) opts (diff.any DiffReport.inAgreement) = .ok dto ∧
        r = ⟨chart, t, report, computeTrialBalance localeLe chart.coa opts.currency none
          (t.journal opts.tenantId), diff, diff.any DiffReport.inAgreement, dto⟩ := by
  unfold runMigrationOnboarding
  rw [hbuild]
  simp only [bind_eq_ok, mapError_eq_ok]
  constructor
  · rintro ⟨_, hchart, h⟩
    obtain rfl := Except.ok.inj hchart
    rw [himp] at h
    obtain ⟨_, hrep, diff, hdiff, dto, hdto, h⟩ := h
    obtain rfl := Except.ok.inj hrep
    exact ⟨diff, dto, hdiff, hdto, (Except.ok.inj h).symm⟩
  · rintro ⟨diff, dto, hdiff, hdto, rfl⟩
    refine ⟨chart, rfl, ?_⟩
    rw [himp]
    exact ⟨report, rfl, diff, hdiff, dto, hdto, rfl⟩

theorem openIn_import (hopen : ∀ entry ∈ exp.entries,
      PeriodStore.status s.periods opts.tenantId (periodKeyOf entry.date) ≠ .locked)
    (hchart : Charted opts.currency chart usedCodes) {c : PostCommand}
    (hc : c ∈ (toPostCommands chart opts.toImport exp).commands) :
    c.tenantId = opts.tenantId ∧
      PeriodStore.status s.periods opts.tenantId c.periodKey ≠ .locked ∧
      validateAndBuildLines c.lines c.currency chart.coa = .ok c.lines := by
  obtain ⟨entry, hent, hbuilt⟩ := mem_commands.mp hc
  have hreads : Reads chart opts.toImport entry c := buildOne_ok hchart hbuilt
  refine ⟨hreads.tenant, ?_, hreads.postable⟩
  rw [hreads.period]
  exact hopen entry hent

theorem consistent_iff (hchart : Charted opts.currency chart usedCodes) :
    Consistent (toPostCommands chart opts.toImport exp).commands ↔
      ∀ entry ∈ exp.entries, ∀ entry' ∈ exp.entries, entry.id = entry'.id →
        ∀ c c', buildOne chart opts.toImport entry = .ok c →
          buildOne chart opts.toImport entry' = .ok c' →
            fingerprintOfCommand c = fingerprintOfCommand c' := by
  constructor
  · intro h entry hent entry' hent' hid c c' hc hc'
    refine h c (mem_commands.mpr ⟨entry, hent, hc⟩) c' (mem_commands.mpr ⟨entry', hent', hc'⟩) ?_
    rw [(buildOne_ok hchart hc).key, (buildOne_ok hchart hc').key, hid]
  · intro h c hc c' hc' hkey
    obtain ⟨entry, hent, hbuilt⟩ := mem_commands.mp hc
    obtain ⟨entry', hent', hbuilt'⟩ := mem_commands.mp hc'
    rw [(buildOne_ok hchart hbuilt).key, (buildOne_ok hchart hbuilt').key] at hkey
    exact h entry hent entry' hent' ((String.append_right_inj _).mp hkey) c c' hbuilt hbuilt'

omit [PeriodStore π] in
theorem named_of_holds (hchart : Charted opts.currency chart usedCodes)
    (hholds : Holds opts.tenantId t (firsts (toPostCommands chart opts.toImport exp).commands)) :
    Named chart (t.journal opts.tenantId) := by
  intro e he l hl
  obtain ⟨k, hk, hstnd⟩ := hholds.key_of_mem he
  obtain ⟨entry, -, hbuilt⟩ := mem_commands.mp (mem_of_mem_firsts hk)
  rw [hstnd.lines] at hl
  exact (buildOne_ok hchart hbuilt).named l hl

theorem own_of_said {currency : Currency} {qs : List QboJournalLine} {ls ls' : List PostedLine}
    (h : List.Forall₂ (fun q l => ownLine chart currency q = some (said l)) qs ls) :
    List.Forall₂ (fun q l => ownLine chart currency q = some (said l)) qs ls' ↔
      ls.map said = ls'.map said := by
  have hsaid : ∀ ls : List PostedLine,
      List.Forall₂ (fun q l => ownLine chart currency q = some (said l)) qs ls ↔
        qs.map (ownLine chart currency) = (ls.map said).map some := by
    intro ls
    rw [← forall₂_eq_eq_eq, forall₂_map_left_iff, map_map, forall₂_map_right_iff]
    rfl
  rw [hsaid] at h ⊢
  rw [h]
  exact (map_injective_iff.mpr (Option.some_injective _)).eq_iff

omit [PeriodStore π] in
theorem postedOnce_iff (hchart : Charted opts.currency chart usedCodes)
    (hholds : Holds opts.tenantId t (firsts (toPostCommands chart opts.toImport exp).commands))
    {entry : QboJournalEntry} (hent : entry ∈ exp.entries) {c : PostCommand}
    (hbuilt : buildOne chart opts.toImport entry = .ok c) :
    ∃ k ∈ firsts (toPostCommands chart opts.toImport exp).commands,
      k.idempotencyKey = c.idempotencyKey ∧
      (PostedOnce chart opts.currency (t.journal opts.tenantId) entry ↔
        c.lines.map said = k.lines.map said) := by
  obtain ⟨k, hk, hkey⟩ := exists_first (mem_commands.mpr ⟨entry, hent, hbuilt⟩)
  obtain ⟨e, he, hstnd⟩ := hholds.entry_of_mem hk
  have hreads := buildOne_ok hchart hbuilt
  have hnd : ((t.journal opts.tenantId).map fun e => e.idempotencyKey).Nodup := by
    have hkeys : (t.journal opts.tenantId).map (fun e => e.idempotencyKey) =
        (firsts (toPostCommands chart opts.toImport exp).commands).map
          PostCommand.idempotencyKey := by
      rw [← forall₂_eq_eq_eq, forall₂_map_left_iff, forall₂_map_right_iff]
      exact hholds.stands.imp fun _ _ h => h.key
    rw [hkeys]
    exact hholds.nodup
  have hfilt := filter_key hnd he
  rw [hstnd.key, hkey, hreads.key] at hfilt
  refine ⟨k, hk, hkey, ?_⟩
  rw [← own_of_said hreads.own, ← hstnd.lines]
  constructor
  · rintro ⟨e', he', hown⟩
    rw [hfilt] at he'
    rwa [singleton_inj.mp he']
  · exact fun hown => ⟨e, hfilt, hown⟩

/-- A migration returns, posts each entry once or lists it, and is verified only where the names tie,
exactly where the export and its snapshot are importable. -/
theorem true_migration_iff (lowerCase : String → String) (localeLe : String → String → Bool)
    (exp : QboExport) (opts : MigrationOnboardOptions) (s : Ledger π)
    (hfresh : s.journal opts.tenantId = [])
    (hopen : ∀ entry ∈ exp.entries,
      PeriodStore.status s.periods opts.tenantId (periodKeyOf entry.date) ≠ .locked) :
    ∃ chart, buildChartFromQbo lowerCase opts.currency exp.accounts = .ok chart ∧
      ((∃ r, runMigrationOnboarding lowerCase localeLe exp opts s = .ok r ∧ TrueMigration exp opts r) ↔
        Importable chart exp opts) := by
  obtain ⟨chart, usedCodes, hbuild, hchart⟩ := exists_chart lowerCase opts.currency exp.accounts
  refine ⟨chart, hbuild, ?_⟩
  have hcommand := fun c => openIn_import (c := c) (s := s) hopen hchart
  have hemp : Holds opts.tenantId s [] := ⟨by rw [hfresh]; exact .nil, nodup_nil⟩
  have hposted := hemp.postCommands chart.coa ⟨opts.postedAt⟩ (fun c hc => (hcommand c hc).1)
    (fun c hc => (hcommand c hc).2.1) fun c hc => (hcommand c hc).2.2
  rw [nil_append] at hposted
  by_cases hcons : Consistent (toPostCommands chart opts.toImport exp).commands
  · rw [if_pos hcons] at hposted
    obtain ⟨t, hrun, hholds⟩ := hposted
    have hholds : Holds opts.tenantId t (firsts (toPostCommands chart opts.toImport exp).commands) :=
      hholds
    have himp : ∃ report, (importQbo chart opts.toImport exp opts.postedAt).run LedgerCall.exec s =
        (.ok report, t) ∧ report.issues = (toPostCommands chart opts.toImport exp).issues := by
      unfold importQbo
      rw [Prog.run_bind_ok hrun]
      exact ⟨_, rfl, rfl⟩
    obtain ⟨report, himp, hiss⟩ := himp
    have hnamed := named_of_holds hchart hholds
    have hopn : ((t.journal opts.tenantId).map fun e =>
        netOfNames chart (bankNames exp) e.lines).sum =
          openingMinor chart exp (toPostCommands chart opts.toImport exp).commands := by
      have hlines := congrArg (map (netOfNames chart (bankNames exp))) hholds.lines
      rw [map_map, map_map] at hlines
      exact congrArg sum hlines
    constructor
    · rintro ⟨r, hr, htrue⟩
      obtain ⟨diff, dto, hdiff, hdto, rfl⟩ := (runMigrationOnboarding_ok_iff hbuild himp).mp hr
      obtain ⟨hsafe, hinvs, hbills⟩ :=
        (forecastInputs_ok_iff localeLe hchart hnamed _).mp ⟨dto, hdto⟩
      constructor
      case agree =>
        intro entry hent entry' hent' hid c c' hc hc'
        refine ⟨(consistent_iff hchart).mp hcons entry hent entry' hent' hid c c' hc hc', ?_⟩
        have hlines : ∀ {entry c}, entry ∈ exp.entries → buildOne chart opts.toImport entry = .ok c →
            ∃ k ∈ firsts (toPostCommands chart opts.toImport exp).commands,
              k.idempotencyKey = c.idempotencyKey ∧ c.lines.map said = k.lines.map said := by
          intro entry c hent hc
          obtain ⟨k, hk, hkey, hposted⟩ := postedOnce_iff hchart hholds hent hc
          rcases htrue.entries entry hent with honce | ⟨issue, -, hissue⟩
          · exact ⟨k, hk, hkey, hposted.mp honce⟩
          · cases hc.symm.trans hissue
        obtain ⟨k, hk, hkey, hsaid⟩ := hlines hent hc
        obtain ⟨k', hk', hkey', hsaid'⟩ := hlines hent' hc'
        have hsame : k = k' := by
          refine eq_of_key hholds.nodup hk hk' ?_
          rw [hkey, hkey', (buildOne_ok hchart hc).key, (buildOne_ok hchart hc').key, hid]
        rw [hsaid, hsaid', hsame]
      case reported => exact (parallelClose_ok_iff _).mp ⟨diff, hdiff⟩
      case opening => rwa [← hopn]
      case invoices => exact hinvs
      case bills => exact hbills
    · intro h
      obtain ⟨diff, hdiff⟩ := (parallelClose_ok_iff (computeTrialBalance localeLe chart.coa
        opts.currency none (t.journal opts.tenantId))).mpr h.reported
      obtain ⟨dto, hdto⟩ := (forecastInputs_ok_iff localeLe hchart hnamed
        (diff.any DiffReport.inAgreement)).mpr ⟨by rw [hopn]; exact h.opening, h.invoices, h.bills⟩
      refine ⟨_, (runMigrationOnboarding_ok_iff hbuild himp).mpr ⟨diff, dto, hdiff, hdto, rfl⟩, ?_⟩
      constructor
      case entries =>
        intro entry hent
        cases hc : buildOne chart opts.toImport entry with
        | error issue =>
          refine .inr ⟨issue, ?_, hc⟩
          dsimp only
          rw [hiss]
          exact mem_issues hent hc
        | ok c =>
          obtain ⟨k, hk, hkey, hposted⟩ := postedOnce_iff hchart hholds hent hc
          refine .inl (hposted.mpr ?_)
          obtain ⟨entry', hent', hk'⟩ := mem_commands.mp (mem_of_mem_firsts hk)
          rw [(buildOne_ok hchart hk').key, (buildOne_ok hchart hc).key] at hkey
          exact (h.agree entry hent entry' hent' ((String.append_right_inj _).mp hkey).symm c k hc hk').2
      case verified =>
        intro hver name
        cases diff with
        | none => cases hver
        | some report =>
          unfold parallelClose at hdiff
          split at hdiff
          · cases hdiff
          · next reported hrepor =>
            obtain ⟨hsome, hne⟩ := Option.filter_eq_some_iff.mp hrepor
            obtain ⟨report', hcom, hrep⟩ := map_eq_ok.mp hdiff
            obtain rfl := Option.some.inj hrep
            rw [hsome]
            exact agreement_sound localeLe hchart hnamed (of_decide_eq_true hne)
              (mapError_eq_ok.mp hcom) hver name
  · rw [if_neg hcons] at hposted
    obtain ⟨err, t, hrun⟩ := hposted
    constructor
    · rintro ⟨r, hr, -⟩
      unfold runMigrationOnboarding importQbo at hr
      rw [hbuild] at hr
      simp only [bind_eq_ok, mapError_eq_ok] at hr
      obtain ⟨_, hchart, report, hrep, -⟩ := hr
      obtain rfl := Except.ok.inj hchart
      rw [Prog.run_bind_error hrun] at hrep
      cases hrep
    · intro h
      refine absurd ((consistent_iff hchart).mpr ?_) hcons
      exact fun entry hent entry' hent' hid c c' hc hc' =>
        (h.agree entry hent entry' hent' hid c c' hc hc').1

end

def saleEntry (id amount : String) : QboJournalEntry where
  id := id
  date := "2026-01-05"
  lines := [⟨"Checking", some amount, none, none⟩, ⟨"Sales", none, some amount, none⟩]
  memo := none

def salesExport (entries : List QboJournalEntry) : QboExport where
  accounts := [⟨"Checking", some "1000", .bank⟩, ⟨"Sales", none, .income⟩]
  entries := entries
  reportedTrialBalance := some [⟨"Checking", some "100.00", none⟩, ⟨"Sales", none, some "100.00"⟩]

def salesOptions : MigrationOnboardOptions where
  tenantId := "t"
  currency := usd
  asOf := "2026-01-31"
  ingestedAt := "2026-02-01"
  postedAt := "2026-02-01"
  openInvoices := []
  openBills := []
  toleranceMinor := none

def freshLedger : Ledger (InMemoryPeriodStore TenantId PeriodKey) := ⟨.empty, .empty⟩

theorem repeated_id_aborts : freshLedger.journal salesOptions.tenantId = [] ∧
    ∀ r, runMigrationOnboarding toLowerCase (fun a b => decide (utf16 a ≤ utf16 b))
      (salesExport [saleEntry "JE-1" "100.00", saleEntry "JE-1" "250.00"]) salesOptions freshLedger ≠
        .ok r := by
  have hrun : (runMigrationOnboarding toLowerCase (fun a b => decide (utf16 a ≤ utf16 b))
      (salesExport [saleEntry "JE-1" "100.00", saleEntry "JE-1" "250.00"]) salesOptions
        freshLedger).isOk = false := by decide +kernel
  refine ⟨rfl, fun r hr => ?_⟩
  rw [hr] at hrun
  cases hrun

theorem true_migration_of_sale : ∃ chart,
    buildChartFromQbo toLowerCase usd (salesExport [saleEntry "JE-1" "100.00"]).accounts = .ok chart ∧
      ((∃ r, runMigrationOnboarding toLowerCase (fun a b => decide (utf16 a ≤ utf16 b))
          (salesExport [saleEntry "JE-1" "100.00"]) salesOptions freshLedger = .ok r ∧
            TrueMigration (salesExport [saleEntry "JE-1" "100.00"]) salesOptions r) ↔
        Importable chart (salesExport [saleEntry "JE-1" "100.00"]) salesOptions) :=
  true_migration_iff toLowerCase (fun a b => decide (utf16 a ≤ utf16 b))
    (salesExport [saleEntry "JE-1" "100.00"]) salesOptions freshLedger rfl (by decide)

end Rgnr8.Migration
