import Rgnr8.Service.Payroll

/-! How the payroll routes end, and when the entry of a run can be posted. -/

namespace Rgnr8.Service.Payroll
open Lib Lib.Js Fallible Kernel Subledger Subledger.Payroll PayrollCall Prog List Except

/-! The entry of a run. -/

def totalsOf (run : PayrollRunRecord) : PayrollTotals where
  gross := (run.lines.map PayrollLineRecord.grossMinor).sum
  employeeTaxes := (run.lines.map PayrollLineRecord.employeeTaxesMinor).sum
  deductions := (run.lines.map PayrollLineRecord.deductionsMinor).sum
  net := (run.lines.map PayrollLineRecord.netMinor).sum
  employerTaxes := run.employerTaxesMinor

def runKey (id : String) (revision : Nat) : IdempotencyKey :=
  "payroll:" ++ if 0 < revision then s!"{id}~r{revision}" else id

def voidKey (id : String) (revision : Nat) : IdempotencyKey := s!"payroll-void:{id}~r{revision}"

/-- Gross wages and employer taxes are debited; net pay, withholdings, employer taxes and deductions
are credited. -/
def Pays (ctx : PayrollContext) (run : PayrollRunRecord) (lines : List PostedLine) : Prop :=
  ∃ accounts, lines = payrollLines ctx.currency accounts (totalsOf run)

section
variable {ctx : PayrollContext} {run : PayrollRunRecord} {overrides : CodeOverrides}
variable {ingestedAt : String} {command : PostCommand}

theorem runCommand_eq_ok (h : runCommand ctx run overrides ingestedAt = .ok command) :
    command.tenantId = ctx.tenant ∧ command.idempotencyKey = runKey run.id run.revision ∧
      command.currency = ctx.currency ∧ Pays ctx run command.lines := by
  unfold runCommand at h
  obtain ⟨accounts, -, h⟩ := bind_eq_ok.mp h
  have h := mapError_eq_ok.mp h
  unfold payrollRunToPostCommand at h
  obtain ⟨t, ht, h⟩ := bind_eq_ok.mp h
  obtain rfl := ok.inj h
  have htots : t = totalsOf run := by
    unfold payrollTotals at ht
    obtain ⟨-, ht⟩ := refuse_eq_ok.mp ht
    split at ht
    · cases ht
    · rw [← ok.inj ht]
      unfold toEngineRun totalsOf
      simp only [map_map]
      rfl
  refine ⟨rfl, rfl, rfl, accounts, ?_⟩
  rw [htots]

/-- A line adds up, and takes nothing below nothing. -/
structure LineAdds (l : PayrollLineRecord) : Prop where
  gross : 0 < l.grossMinor
  taxes : 0 ≤ l.employeeTaxesMinor
  deductions : 0 ≤ l.deductionsMinor
  net : 0 ≤ l.netMinor
  adds : l.grossMinor = l.employeeTaxesMinor + l.deductionsMinor + l.netMinor

/-- A run that has something to pay out. -/
structure Payable (run : PayrollRunRecord) : Prop where
  nonempty : run.lines ≠ []
  lines : ∀ l ∈ run.lines, LineAdds l
  employerTaxes : 0 ≤ run.employerTaxesMinor
  net : 0 < (totalsOf run).net

theorem sum_nonneg_of {f : PayrollLineRecord → Int} {lines : List PayrollLineRecord}
    (h : ∀ l ∈ lines, 0 ≤ f l) : 0 ≤ (lines.map f).sum := by
  refine sum_nonneg fun n hn => ?_
  obtain ⟨l, hl, rfl⟩ := mem_map.mp hn
  exact h l hl

theorem totals_add {lines : List PayrollLineRecord} (h : ∀ l ∈ lines, LineAdds l) :
    (lines.map PayrollLineRecord.grossMinor).sum =
      (lines.map PayrollLineRecord.employeeTaxesMinor).sum +
        (lines.map PayrollLineRecord.deductionsMinor).sum +
        (lines.map PayrollLineRecord.netMinor).sum := by
  induction lines with
  | nil => rfl
  | cons l ls ih =>
    rw [forall_mem_cons] at h
    have hline := h.1.adds
    have hrest := ih h.2
    simp only [map_cons, sum_cons]
    omega

theorem sideTotal_line_self (account : AccountId) (side : EntrySide) (amount : Money)
    (memo : Option String) : sideTotal side [⟨account, side, amount, memo, none⟩] =
      amount.minorUnits := by
  have hself : (⟨account, side, amount, memo, none⟩ : PostedLine).side = side := rfl
  refine (sideTotal_cons_self hself []).trans ?_
  rw [sideTotal_nil, Int.add_zero]

theorem sideTotal_line_off {side other : EntrySide} (hne : side ≠ other) (account : AccountId)
    (amount : Money) (memo : Option String) :
    sideTotal other [⟨account, side, amount, memo, none⟩] = 0 :=
  (sideTotal_cons_ne hne []).trans (sideTotal_nil other)

theorem sideTotal_leg_self (currency : Currency) (account : AccountId) (side : EntrySide)
    (amount : Int) (memo : String) : sideTotal side (leg currency account side amount memo) = amount := by
  unfold leg
  split_ifs with hzero
  · exact hzero.symm
  · exact sideTotal_line_self ..

theorem sideTotal_leg_off {currency : Currency} {account : AccountId} {side other : EntrySide}
    (hne : side ≠ other) {amount : Int} {memo : String} :
    sideTotal other (leg currency account side amount memo) = 0 := by
  refine sideTotal_of_off fun l hl => ?_
  unfold leg at hl
  split_ifs at hl
  · exact absurd hl not_mem_nil
  · rw [mem_singleton.mp hl]
    exact hne

theorem pos_of_mem_leg {currency : Currency} {account : AccountId} {side : EntrySide} {amount : Int}
    {memo : String} (hamt : 0 ≤ amount) {l : PostedLine}
    (hl : l ∈ leg currency account side amount memo) :
    0 < l.amount.minorUnits ∧ l.amount.currency = currency := by
  unfold leg at hl
  split_ifs at hl with hzero
  · exact absurd hl not_mem_nil
  · rw [mem_singleton.mp hl]
    exact ⟨lt_of_le_of_ne hamt (Ne.symm hzero), rfl⟩

def Usable (ctx : PayrollContext) (id : AccountId) : Prop :=
  ∃ account, ctx.chart.get id = some account ∧ account.active ≠ some false ∧
    account.currency.code = ctx.currency.code

theorem postable_of_payable {accounts : PayrollAccounts} (hrun : Payable run)
    (husab : ∀ l ∈ payrollLines ctx.currency accounts (totalsOf run), Usable ctx l.accountId) :
    validateAndBuildLines (payrollLines ctx.currency accounts (totalsOf run)) ctx.currency ctx.chart =
      .ok (payrollLines ctx.currency accounts (totalsOf run)) := by
  have hadds := totals_add hrun.lines
  have hgross : 0 < (totalsOf run).gross := by
    have hnet := hrun.net
    have htaxes := sum_nonneg_of fun l hl => (hrun.lines l hl).taxes
    have hded := sum_nonneg_of fun l hl => (hrun.lines l hl).deductions
    unfold totalsOf at hnet ⊢
    dsimp only at hnet ⊢
    omega
  have htaxes : 0 ≤ (totalsOf run).employeeTaxes := sum_nonneg_of fun l hl => (hrun.lines l hl).taxes
  have hded : 0 ≤ (totalsOf run).deductions :=
    sum_nonneg_of fun l hl => (hrun.lines l hl).deductions
  have hemp : 0 ≤ (totalsOf run).employerTaxes := hrun.employerTaxes
  have hnet := hrun.net
  have hbalance : (totalsOf run).gross = (totalsOf run).employeeTaxes + (totalsOf run).deductions +
    (totalsOf run).net := hadds
  generalize totalsOf run = t at *
  refine validateAndBuildLines_eq_ok.mpr ⟨?_, fun l hl => ?_, ?_, rfl⟩
  · unfold payrollLines
    simp only [length_append, length_singleton]
    omega
  · have hamt : 0 < l.amount.minorUnits ∧ l.amount.currency = ctx.currency := by
      unfold payrollLines at hl
      rcases mem_append.mp hl with hl | hl
      · rcases mem_append.mp hl with hl | hl
        · rcases mem_append.mp hl with hl | hl
          · rcases mem_append.mp hl with hl | hl
            · rcases mem_append.mp hl with hl | hl
              · rw [mem_singleton.mp hl]
                exact ⟨hgross, rfl⟩
              · exact pos_of_mem_leg hemp hl
            · rw [mem_singleton.mp hl]
              exact ⟨hnet, rfl⟩
          · exact pos_of_mem_leg htaxes hl
        · exact pos_of_mem_leg hemp hl
      · exact pos_of_mem_leg hded hl
    obtain ⟨account, hacc, hactive, hccy⟩ := husab l hl
    exact ⟨account, hacc, hactive, congrArg Currency.code hamt.2, hccy, hamt.1⟩
  · have hdebit : EntrySide.debit ≠ .credit := by decide
    have hcr : EntrySide.credit ≠ .debit := by decide
    unfold payrollLines
    simp only [sideTotal_append, sideTotal_leg_self, sideTotal_leg_off hdebit,
      sideTotal_leg_off hcr, sideTotal_line_self, sideTotal_line_off hdebit,
      sideTotal_line_off hcr]
    omega

end

/-! Keys. -/

/-- No revision of either run goes by the id of the other. -/
def Apart (id other : String) : Prop :=
  ∀ revision, 0 < revision → other ≠ s!"{id}~r{revision}" ∧ id ≠ s!"{other}~r{revision}"

variable {m n : Nat} {id other : String}

theorem revised_inj (h : s!"{id}~r{m}" = s!"{other}~r{n}") : id = other ∧ m = n := by
  have hfree : ∀ k : Nat, Free '~' ("r" ++ toString k) := by
    intro k
    refine free_append.mpr ⟨by decide, ?_⟩
    have hk := free_toString_int (c := '~') (by decide) (by decide) (k : Int)
    exact hk
  have hsplit : id ++ "~" ++ ("r" ++ toString m) = other ++ "~" ++ ("r" ++ toString n) := by
    have htext := congrArg String.toList h
    rw [← String.toList_inj]
    simp only [String.toList_append] at htext ⊢
    have hmark : (toString "~r").toList = "~".toList ++ "r".toList := by decide
    rw [hmark] at htext
    simp only [append_assoc] at htext ⊢
    exact htext
  obtain ⟨hid, hrest⟩ := append_inj_of_free_last rfl (hfree m) (hfree n) hsplit
  refine ⟨hid, ?_⟩
  have htext := congrArg String.toList hrest
  simp only [String.toList_append, append_cancel_left_eq] at htext
  exact Nat.repr_injective (String.toList_inj.mp htext)

theorem id_ne_revised (id : String) (n : Nat) : id ≠ s!"{id}~r{n}" := by
  intro h
  have hlength := congrArg (fun text => text.toList.length) h
  simp only [String.toList_append, length_append] at hlength
  have hmark : (toString "~r").toList.length = 2 := by decide
  have hid : (toString id).toList.length = id.toList.length := rfl
  omega

theorem runKey_inj (hapart : id ≠ other → Apart id other) (h : runKey id m = runKey other n) :
    id = other ∧ m = n := by
  have htext : (if 0 < m then s!"{id}~r{m}" else id) = if 0 < n then s!"{other}~r{n}" else other := by
    have hlist := congrArg String.toList h
    unfold runKey at hlist
    simp only [String.toList_append, append_cancel_left_eq] at hlist
    exact String.toList_inj.mp hlist
  by_cases hid : id = other
  · subst hid
    refine ⟨rfl, ?_⟩
    split_ifs at htext with hm hn hn
    · exact (revised_inj htext).2
    · exact absurd htext.symm (id_ne_revised id m)
    · exact absurd htext (id_ne_revised id n)
    · omega
  · split_ifs at htext with hm hn hn
    · exact absurd (revised_inj htext).1 hid
    · exact absurd htext.symm (hapart hid m hm).1
    · exact absurd htext (hapart hid n hn).2
    · exact absurd htext hid

theorem voidKey_inj (h : voidKey id m = voidKey other n) : id = other ∧ m = n := by
  have hlist := congrArg String.toList h
  unfold voidKey at hlist
  simp only [String.toList_append, append_assoc, append_cancel_left_eq] at hlist
  refine revised_inj (String.toList_inj.mp ?_)
  simp only [String.toList_append, append_assoc]
  exact hlist

/-! The routes. -/

theorem minorOf_nonneg {raw : Option TextOrNumber} {label : String} {n : Int}
    (h : minorOf raw label = .ok n) : 0 ≤ n := by
  unfold minorOf at h
  split at h
  · cases h
  · obtain ⟨hneg, h⟩ := refuse_eq_ok.mp h
    rw [← ok.inj h]
    exact not_lt.mp hneg

theorem buildLine_adds {known seen : List String} {l : PayrollLineInput} {line : PayrollLineRecord}
    (h : buildLine known seen l = .ok line) : LineAdds line := by
  unfold buildLine at h
  obtain ⟨-, h⟩ := refuse_bind_eq_ok.mp h
  obtain ⟨-, h⟩ := refuse_bind_eq_ok.mp h
  obtain ⟨-, h⟩ := refuse_bind_eq_ok.mp h
  obtain ⟨gross, hgross, h⟩ := bind_eq_ok.mp h
  obtain ⟨taxes, htaxes, h⟩ := bind_eq_ok.mp h
  obtain ⟨deductions, hded, h⟩ := bind_eq_ok.mp h
  obtain ⟨hzero, h⟩ := refuse_bind_eq_ok.mp h
  obtain ⟨hnet, h⟩ := refuse_bind_eq_ok.mp h
  rw [← ok.inj h]
  refine ⟨lt_of_le_of_ne (minorOf_nonneg hgross) (Ne.symm hzero), minorOf_nonneg htaxes,
    minorOf_nonneg hded, not_lt.mp hnet, ?_⟩
  dsimp only
  omega

theorem buildLines_add {known seen : List String} {ls : List PayrollLineInput}
    {lines : List PayrollLineRecord} (h : buildLines known seen ls = .ok lines) :
    (∀ l ∈ lines, LineAdds l) ∧ lines.length = ls.length := by
  induction ls generalizing seen lines with
  | nil =>
    rw [← ok.inj h]
    exact ⟨fun l hl => absurd hl not_mem_nil, rfl⟩
  | cons l ls ih =>
    unfold buildLines at h
    obtain ⟨line, hline, h⟩ := bind_eq_ok.mp h
    obtain ⟨rest, hrest, h⟩ := bind_eq_ok.mp h
    obtain ⟨hall, hlength⟩ := ih hrest
    rw [← ok.inj h, forall_mem_cons, length_cons, length_cons, hlength]
    exact ⟨⟨buildLine_adds hline, hall⟩, rfl⟩

def runIdOf (req : CreateRunRequest) : String :=
  if trim (req.id.getD "") = "" then "PR-" ++ trim (req.date.getD "") else trim (req.id.getD "")

section
variable {π : Type} [PeriodStore π]

theorem run_onLedger {α : Type} (p : LedgerProg α) (s : Stores π PayrollStore) :
    (onLedger p).run PayrollCall.exec s = ((p.run LedgerCall.exec s.ledger).1.mapError .ledger,
      { s with ledger := (p.run LedgerCall.exec s.ledger).2 }) :=
  run_interpret (fun s : Stores π PayrollStore => s.ledger)
    (fun ledger s => { s with ledger := ledger }) (fun _ _ => rfl) (fun _ _ _ => rfl)
    (fun _ => rfl) (fun _ _ => rfl) p s

def saved (s : Stores π PayrollStore) (tenant : TenantId) (run : PayrollRunRecord) :
    Stores π PayrollStore := { s with own := s.own.saveRun tenant run }

omit [PeriodStore π] in
theorem getRun_saved (s : Stores π PayrollStore) (tenant : TenantId) (run : PayrollRunRecord)
    (id : String) : (saved s tenant run).own.getRun tenant id =
      if id = run.id then some run else s.own.getRun tenant id := by
  refine (PayrollStore.getRun_saveRun ..).trans ?_
  simp only [Prod.mk.injEq, true_and]

/-- A run as `createRun` saves it. -/
structure Drafted (ctx : PayrollContext) (req : CreateRunRequest) (s : Stores π PayrollStore)
    (run : PayrollRunRecord) : Prop where
  id : run.id = runIdOf req
  status : run.status = .draft
  unposted : ∀ r ∈ s.own.getRun ctx.tenant run.id, r.status ≠ .posted
  revision : run.revision =
    ((s.own.getRun ctx.tenant run.id).map PayrollRunRecord.revision).getD 0
  built : buildLines ((s.own.listEmployees ctx.tenant).map EmployeeRecord.id) [] req.lines =
    .ok run.lines
  nonempty : run.lines ≠ []
  employerTaxes : 0 ≤ run.employerTaxesMinor

variable (ctx : PayrollContext)

theorem createRun_cases (req : CreateRunRequest) (s : Stores π PayrollStore) :
    (∃ e, (createRun ctx req).run PayrollCall.exec s = (.error e, s)) ∨
      ∃ run, (createRun ctx req).run PayrollCall.exec s = (.ok run, saved s ctx.tenant run) ∧
        Drafted ctx req s run := by
  unfold createRun
  rcases hdate : requireDate req.date "pay date" with e | date
  · exact .inl ⟨e, rfl⟩
  have hdated : (ofExcept (.ok date) : PayrollProg _).run exec s = (.ok date, s) :=
    rfl
  rw [run_bind_ok hdated]
  by_cases hlines : req.lines = []
  · rw [refuseIf_pos hlines]
    exact .inl ⟨_, rfl⟩
  have hgo : (ret () : PayrollProg Unit).run exec s = (.ok (), s) := rfl
  have hemps : (perform (listEmployees ctx.tenant) : PayrollProg _).run
    exec s = (.ok (s.own.listEmployees ctx.tenant), s) := rfl
  rw [refuseIf_neg hlines, run_bind_ok hgo, run_bind_ok hemps]
  rcases hbuilt : buildLines ((s.own.listEmployees ctx.tenant).map EmployeeRecord.id) []
    req.lines with e | lines
  · exact .inl ⟨e, rfl⟩
  have hok : (ofExcept (.ok lines) : PayrollProg _).run exec s = (.ok lines, s) := rfl
  have hid : (if trim (req.id.getD "") = "" then s!"PR-{date}" else trim (req.id.getD "")) =
      runIdOf req := by
    unfold requireDate at hdate
    obtain ⟨-, hdate⟩ := refuse_eq_ok.mp hdate
    unfold runIdOf
    rw [ok.inj hdate]
    rfl
  rw [run_bind_ok hok]
  dsimp only
  rw [hid]
  have hread : (perform (getRun ctx.tenant (runIdOf req)) : PayrollProg _).run
    exec s = (.ok (s.own.getRun ctx.tenant (runIdOf req)), s) := rfl
  rw [run_bind_ok hread]
  by_cases hposted : (s.own.getRun ctx.tenant (runIdOf req)).any fun r => r.status = .posted
  · rw [refuseIf_pos hposted]
    exact .inl ⟨_, rfl⟩
  rw [refuseIf_neg hposted, run_bind_ok hgo]
  rcases htaxes : minorOf (orZero req.employerTaxesMinor) "employer taxes" with e | taxes
  · exact .inl ⟨e, rfl⟩
  refine .inr ⟨_, rfl, rfl, rfl, fun r hr hstatus => hposted ?_, rfl, hbuilt, ?_, minorOf_nonneg htaxes⟩
  · rw [Option.mem_def.mp hr]
    exact decide_eq_true hstatus
  · intro hnil
    have hlength := (buildLines_add hbuilt).2
    have hzero : lines = [] := hnil
    rw [hzero] at hlength
    exact hlines (eq_nil_of_length_eq_zero hlength.symm)

inductive RunPosts (ctx : PayrollContext) (clock : Clock) (id : String) (overrides : CodeOverrides)
    (s : Stores π PayrollStore) : Except PayrollFailure PayrollRunRecord × Stores π PayrollStore → Prop
    where
  | refused (e : PayrollFailure) (hnot : ∀ run command, s.own.getRun ctx.tenant id = some run →
      run.status = .draft → runCommand ctx run overrides clock.ingestedAt = .ok command →
        ¬ s.ledger.Appends ctx.chart command) : RunPosts ctx clock id overrides s (.error e, s)
  | answered {run : PayrollRunRecord} {command : PostCommand} {entry : PostedEntry}
      (hrun : s.own.getRun ctx.tenant id = some run) (hdraft : run.status = .draft)
      (hcommand : runCommand ctx run overrides clock.ingestedAt = .ok command)
      (hanswers : s.ledger.Answers command entry) :
      RunPosts ctx clock id overrides s (.ok { run with status := .posted, entryId := entry.id },
        saved s ctx.tenant { run with status := .posted, entryId := entry.id })
  | appended {run : PayrollRunRecord} {command : PostCommand}
      (hrun : s.own.getRun ctx.tenant id = some run) (hdraft : run.status = .draft)
      (hcommand : runCommand ctx run overrides clock.ingestedAt = .ok command)
      (happends : s.ledger.Appends ctx.chart command) :
      RunPosts ctx clock id overrides s
        (.ok { run with status := .posted,
                        entryId := (s.ledger.entryOf command ⟨clock.postedAt⟩).id },
          saved { s with ledger := s.ledger.posted command ⟨clock.postedAt⟩ } ctx.tenant
            { run with status := .posted,
                       entryId := (s.ledger.entryOf command ⟨clock.postedAt⟩).id })

theorem runPosts (clock : Clock) (id : String) (overrides : CodeOverrides)
    (s : Stores π PayrollStore) : RunPosts ctx clock id overrides s
      ((postRun ctx clock id overrides).run PayrollCall.exec s) := by
  have hread : (perform (getRun ctx.tenant id) : PayrollProg _).run
    exec s = (.ok (s.own.getRun ctx.tenant id), s) := rfl
  unfold postRun
  rw [run_bind_ok hread]
  rcases hrun : s.own.getRun ctx.tenant id with - | run
  · refine .refused _ fun run command hsome => ?_
    rw [hrun] at hsome
    cases hsome
  have hfound : (ofExcept (foundRun id (some run)) : PayrollProg _).run exec s =
    (.ok run, s) := rfl
  rw [run_bind_ok hfound]
  have huniq : ∀ run', s.own.getRun ctx.tenant id = some run' → run' = run := by
    intro run' hsome
    rw [hrun] at hsome
    exact (Option.some.inj hsome).symm
  by_cases hdraft : run.status = .draft
  · have hpost : (ofExcept (postableRun id run) : PayrollProg _).run exec s =
        (.ok (), s) := by
      unfold postableRun
      rw [hdraft]
      rfl
    rw [run_bind_ok hpost]
    rcases hcommand : runCommand ctx run overrides clock.ingestedAt with e | command
    · refine .refused _ fun run' command hsome _ hother => ?_
      rw [huniq run' hsome, hcommand] at hother
      cases hother
    have hbuilt : (ofExcept (.ok command) : PayrollProg _).run exec s =
      (.ok command, s) := rfl
    rw [run_bind_ok hbuilt, bind_eq, run_bind, run_onLedger]
    have hends := PostingEngine.postEnds ctx.chart command ⟨clock.postedAt⟩ s.ledger
    generalize (PostingEngine.post ctx.chart command ⟨clock.postedAt⟩).run LedgerCall.exec s.ledger =
      r at hends ⊢
    cases hends with
    | answered h => exact .answered hrun hdraft hcommand h
    | appended h => exact .appended hrun hdraft hcommand h
    | refused err _ happends =>
      refine .refused _ fun run' command' hsome _ hother => ?_
      rw [huniq run' hsome, hcommand] at hother
      rw [← ok.inj hother]
      exact happends
  · have hpost : ∃ e, (ofExcept (postableRun id run) : PayrollProg _).run
        exec s = (.error e, s) := by
      unfold postableRun
      rcases hstatus : run.status with - | - | -
      · exact absurd hstatus hdraft
      · exact ⟨_, rfl⟩
      · exact ⟨_, rfl⟩
    obtain ⟨e, hpost⟩ := hpost
    rw [run_bind_error hpost]
    refine .refused e fun run' command hsome hother => ?_
    rw [huniq run' hsome] at hother
    exact absurd hother hdraft

inductive RunVoids (ctx : PayrollContext) (clock : Clock) (id : String) (s : Stores π PayrollStore) :
    Stores π PayrollStore → Prop where
  | refused : RunVoids ctx clock id s s
  | answered {run : PayrollRunRecord} {entry : PostedEntry}
      (hrun : s.own.getRun ctx.tenant id = some run) (hposted : run.status = .posted)
      (hanswers : s.ledger.AnswersReversal (voidRequest ctx clock run) entry) :
      RunVoids ctx clock id s
        (saved s ctx.tenant { run with status := .void, revision := run.revision + 1 })
  | appended {run : PayrollRunRecord} {original : PostedEntry}
      (hrun : s.own.getRun ctx.tenant id = some run) (hposted : run.status = .posted)
      (happends : s.ledger.AppendsReversal (voidRequest ctx clock run) original) :
      RunVoids ctx clock id s
        (saved { s with ledger := s.ledger.reversedBy (voidRequest ctx clock run) original }
          ctx.tenant { run with status := .void, revision := run.revision + 1 })

theorem runVoids (clock : Clock) (id : String) (s : Stores π PayrollStore) :
    RunVoids ctx clock id s ((voidRun ctx clock id).run PayrollCall.exec s).2 := by
  have hread : (perform (getRun ctx.tenant id) : PayrollProg _).run
    exec s = (.ok (s.own.getRun ctx.tenant id), s) := rfl
  unfold voidRun
  rw [run_bind_ok hread]
  rcases hrun : s.own.getRun ctx.tenant id with - | run
  · exact .refused
  have hfound : (ofExcept (foundRun id (some run)) : PayrollProg _).run exec s =
    (.ok run, s) := rfl
  rw [run_bind_ok hfound]
  by_cases hposted : run.status = .posted
  · have hgo : (ret () : PayrollProg Unit).run exec s = (.ok (), s) := rfl
    rw [refuseIf_neg (not_not.mpr hposted), run_bind_ok hgo, bind_eq, run_bind, run_onLedger]
    have hends := reverseEnds (voidRequest ctx clock run) s.ledger
    generalize (voidRequest ctx clock run).program.run LedgerCall.exec s.ledger = r at hends ⊢
    cases hends with
    | answered h => exact .answered hrun hposted h
    | refused err _ _ => exact .refused
    | appended h => exact .appended hrun hposted h
  · rw [refuseIf_pos hposted]
    exact .refused

end

end Rgnr8.Service.Payroll
