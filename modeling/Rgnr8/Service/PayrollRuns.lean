import Rgnr8.Service.PayrollBooks

/-! Payroll runs drafted, posted, voided and drafted again, with remittances between them. -/

namespace Rgnr8.Service.Payroll
open Lib Lib.Js Fallible Kernel Subledger Subledger.Payroll Prog PayrollCall Ledger List

section
variable {π : Type} {ctx : PayrollContext} {s : Stores π PayrollStore}

theorem Books.withChart (hs : Books ctx s) (chart : ChartOfAccounts) :
    Books { ctx with chart := chart } s :=
  ⟨hs.keys, hs.entries, hs.posted, hs.voids, hs.apart, hs.payable, hs.mirrored⟩

theorem Books.ofChart {chart : ChartOfAccounts} (hs : Books { ctx with chart := chart } s) :
    Books ctx s := ⟨hs.keys, hs.entries, hs.posted, hs.voids, hs.apart, hs.payable, hs.mirrored⟩

variable {r run : PayrollRunRecord} {id : String}

theorem getRun_saved_eq_some (h : (saved s ctx.tenant run).own.getRun ctx.tenant id = some r) :
    (id = run.id ∧ r = run) ∨ (id ≠ run.id ∧ s.own.getRun ctx.tenant id = some r) := by
  rw [getRun_saved] at h
  split_ifs at h with hid
  · exact .inl ⟨hid, (Option.some.inj h).symm⟩
  · exact .inr ⟨hid, h⟩

theorem getRun_saved_self (run : PayrollRunRecord) :
    (saved s ctx.tenant run).own.getRun ctx.tenant run.id = some run := by
  rw [getRun_saved, if_pos rfl]

theorem exists_getRun_saved (run : PayrollRunRecord) (h : s.own.getRun ctx.tenant id = some r) :
    ∃ r', (saved s ctx.tenant run).own.getRun ctx.tenant id = some r' := by
  rw [getRun_saved]
  split_ifs
  · exact ⟨run, rfl⟩
  · exact ⟨r, h⟩

theorem Books.apart_saved (hs : Books ctx s) {r' : PayrollRunRecord} {id' : String}
    (hr : (saved s ctx.tenant run).own.getRun ctx.tenant id = some r)
    (hr' : (saved s ctx.tenant run).own.getRun ctx.tenant id' = some r') (hne : id ≠ id')
    (hsto : ∃ old, s.own.getRun ctx.tenant run.id = some old) : Apart id id' := by
  have hold : ∀ {i : String} {q : PayrollRunRecord},
      (saved s ctx.tenant run).own.getRun ctx.tenant i = some q →
        ∃ q', s.own.getRun ctx.tenant i = some q' := by
    intro i q hq
    rcases getRun_saved_eq_some hq with ⟨rfl, -⟩ | ⟨-, hq⟩
    · exact hsto
    · exact ⟨q, hq⟩
  obtain ⟨q, hq⟩ := hold hr
  obtain ⟨q', hq'⟩ := hold hr'
  exact hs.apart id id' q q' hq hq' hne

theorem Books.voids_saved (hs : Books ctx s)
    (hlater : ∀ old, s.own.getRun ctx.tenant run.id = some old → old.revision ≤ run.revision)
    {e : PostedEntry} (he : e ∈ journal ctx s) {k : Nat} (hk : e.idempotencyKey = voidKey id k) :
    ∃ r, (saved s ctx.tenant run).own.getRun ctx.tenant id = some r ∧ k < r.revision := by
  obtain ⟨old, hold, hlt⟩ := hs.voids e he id k hk
  by_cases hid : id = run.id
  · subst hid
    exact ⟨run, getRun_saved_self run, hlt.trans_le (hlater old hold)⟩
  · refine ⟨old, ?_, hlt⟩
    rw [getRun_saved, if_neg hid, hold]

theorem Books.keys_saved (hs : Books ctx s) (run : PayrollRunRecord) {e : PostedEntry}
    (he : e ∈ journal ctx s) {x : String} (hx : e.idempotencyKey = "payroll:" ++ x) :
    ∃ id r k, (saved s ctx.tenant run).own.getRun ctx.tenant id = some r ∧
      e.idempotencyKey = runKey id k := by
  obtain ⟨id, r, k, hid, hk⟩ := hs.keys e he x hx
  obtain ⟨r', hid'⟩ := exists_getRun_saved run hid
  exact ⟨id, r', k, hid', hk⟩

theorem Books.payable_saved (hs : Books ctx s)
    (hr : (saved s ctx.tenant run).own.getRun ctx.tenant id = some r) (hrun : Payable run) :
    Payable r := by
  rcases getRun_saved_eq_some hr with ⟨rfl, rfl⟩ | ⟨-, hold⟩
  · exact hrun
  · exact hs.payable id r hold

/-! Drafting. -/

def SteadyDraft (ctx : PayrollContext) (s : Stores π PayrollStore) (req : CreateRunRequest) : Prop :=
  (∀ id run, s.own.getRun ctx.tenant id = some run → id ≠ runIdOf req → Apart id (runIdOf req)) ∧
    ∀ lines, buildLines ((s.own.listEmployees ctx.tenant).map EmployeeRecord.id) [] req.lines =
      .ok lines → 0 < (lines.map PayrollLineRecord.netMinor).sum

theorem Books.drafted (hs : Books ctx s) {req : CreateRunRequest} (hrun : Drafted ctx req s run)
    (hstdy : SteadyDraft ctx s req) : Books ctx (saved s ctx.tenant run) := by
  have hapart : ∀ id r, s.own.getRun ctx.tenant id = some r → id ≠ run.id → Apart id run.id := by
    intro id r hid hne
    rw [hrun.id] at hne ⊢
    exact hstdy.1 id r hid hne
  refine ⟨fun e he x hx => ?_, fun id r hid e he k hk => ?_, fun id r hid hposted => ?_,
    fun e he id k hk => ?_, fun id id' r r' hid hid' hne => ?_, fun id r hid => ?_, hs.mirrored⟩
  · exact hs.keys_saved run he hx
  · rcases getRun_saved_eq_some hid with ⟨rfl, rfl⟩ | ⟨-, hold⟩
    · rcases hheld : s.own.getRun ctx.tenant r.id with - | old
      · -- the key would have to be that of a run already on file
        obtain ⟨id, r', k', hid', hk'⟩ := hs.keys e he _ hk
        have hsame := (runKey_inj (hapart id r' hid') (hk'.symm.trans hk)).1
        rw [hsame, hheld] at hid'
        cases hid'
      · have hrevis : r.revision = old.revision := by
          rw [hrun.revision, hheld]
          rfl
        have hearl := hs.earlier hheld (hrun.unposted old hheld) he hk
        rw [← hrevis] at hearl
        exact .inl hearl
    · exact hs.entries id r hold e he k hk
  · rcases getRun_saved_eq_some hid with ⟨rfl, rfl⟩ | ⟨-, hold⟩
    · rw [hrun.status] at hposted
      cases hposted
    · exact hs.posted id r hold hposted
  · refine hs.voids_saved (fun old hold => ?_) he hk
    rw [hrun.revision, hold]
    exact le_rfl
  · rcases getRun_saved_eq_some hid with ⟨rfl, rfl⟩ | ⟨hother, hold⟩
    · rcases getRun_saved_eq_some hid' with ⟨rfl, -⟩ | ⟨hother, hold⟩
      · exact absurd rfl hne
      · exact (hapart id' r' hold hother).symm
    · rcases getRun_saved_eq_some hid' with ⟨rfl, -⟩ | ⟨-, hold'⟩
      · exact hapart id r hold hother
      · exact hs.apart id id' r r' hold hold' hne
  · exact hs.payable_saved hid ⟨hrun.nonempty, (buildLines_add hrun.built).1, hrun.employerTaxes,
      hstdy.2 run.lines hrun.built⟩

/-! Entries that reverse nothing. -/

section
variable [PeriodStore π] {command : PostCommand} {opts : PostOptions}

theorem journal_of_posted (opts : PostOptions) (htenant : command.tenantId = ctx.tenant)
    (happends : s.ledger.Appends ctx.chart command) (own : PayrollStore) :
    journal ctx ⟨s.ledger.posted command opts, own⟩ =
      journal ctx s ++ [s.ledger.entryOf command opts] := by
  have hjnl := journal_posted opts happends ctx.tenant
  rw [if_pos htenant.symm] at hjnl
  exact hjnl

omit [PeriodStore π] in
theorem reversed_posted (own : PayrollStore) (e : PostedEntry) :
    Reversed ctx ⟨s.ledger.posted command opts, own⟩ e ↔ Reversed ctx s e := by
  unfold Reversed posted
  rw [reversed_iff, reversed_iff, (Ledger.AddsPlain.append rfl s.ledger).reversalsOf_eq]

theorem Books.not_reversed_entryOf (hs : Books ctx s) (htenant : command.tenantId = ctx.tenant)
    (happends : s.ledger.Appends ctx.chart command) :
    ¬ Reversed ctx s (s.ledger.entryOf command opts) := by
  rintro ⟨r, hr, hrever⟩
  obtain ⟨e, he, hid, -⟩ := hs.mirrored ctx.tenant r hr _ hrever
  have hjnl := journal_of_posted opts htenant happends s.own
  have hold : e ∈ journal ctx (⟨s.ledger.posted command opts, s.own⟩ : Stores π PayrollStore) := by
    rw [hjnl]
    exact mem_append_left _ he
  have hnew : s.ledger.entryOf command opts ∈
      journal ctx (⟨s.ledger.posted command opts, s.own⟩ : Stores π PayrollStore) := by
    rw [hjnl]
    exact mem_append_right _ (mem_singleton_self _)
  have hsame := eq_of_id_eq hold hnew hid
  have hfree := InMemoryLedgerStore.getByIdempotencyKey_eq_none.mp happends.free e
    (by rw [htenant]; exact he)
  rw [hsame] at hfree
  exact hfree rfl

omit [PeriodStore π] in
theorem Accounted.posted {run : PayrollRunRecord} {e : PostedEntry} {k : Nat}
    (h : Accounted ctx s run e k) (own : PayrollStore) :
    Accounted ctx ⟨s.ledger.posted command opts, own⟩ run e k := by
  unfold Accounted at h ⊢
  rw [reversed_posted]
  exact h

theorem Books.foreign (hs : Books ctx s) (htenant : command.tenantId = ctx.tenant)
    (happends : s.ledger.Appends ctx.chart command)
    (hrun : ∀ x, command.idempotencyKey ≠ "payroll:" ++ x)
    (hvoid : ∀ id k, command.idempotencyKey ≠ voidKey id k) :
    Books ctx { s with ledger := s.ledger.posted command opts } := by
  have hjnl := journal_of_posted opts htenant happends s.own
  have hmem : ∀ e, e ∈ journal ctx { s with ledger := s.ledger.posted command opts } →
      e ∈ journal ctx s ∨ e.idempotencyKey = command.idempotencyKey := by
    intro e he
    rw [hjnl] at he
    rcases mem_append.mp he with he | he
    · exact .inl he
    · rw [mem_singleton.mp he]
      exact .inr rfl
  refine ⟨fun e he x hx => ?_, fun id r hid e he k hk => ?_, fun id r hid hposted => ?_,
    fun e he id k hk => ?_, hs.apart, hs.payable, ?_⟩
  · rcases hmem e he with he | hkey
    · exact hs.keys e he x hx
    · exact absurd (hkey.symm.trans hx) (hrun x)
  · rcases hmem e he with he | hkey
    · exact Accounted.posted (hs.entries id r hid e he k hk) s.own
    · exact absurd (hkey.symm.trans hk) (hrun _)
  · obtain ⟨e, he, hk⟩ := hs.posted id r hid hposted
    refine ⟨e, ?_, hk⟩
    rw [hjnl]
    exact mem_append_left _ he
  · rcases hmem e he with he | hkey
    · exact hs.voids e he id k hk
    · exact absurd (hkey.symm.trans hk) (hvoid id k)
  · exact (Ledger.AddsPlain.append rfl s.ledger).mirrored hs.mirrored

/-! Posting. -/

theorem Books.posts (hs : Books ctx s) {id ingestedAt : String} {run : PayrollRunRecord}
    {overrides : CodeOverrides} (hid : s.own.getRun ctx.tenant id = some run)
    (hdraft : run.status = .draft)
    (hcommand : runCommand ctx run overrides ingestedAt = .ok command)
    (happends : s.ledger.Appends ctx.chart command) :
    Books ctx (saved { s with ledger := s.ledger.posted command opts } ctx.tenant
      { run with status := .posted, entryId := (s.ledger.entryOf command opts).id }) := by
  have hown : run.id = id := s.own.id_of_get hid
  obtain ⟨htenant, hkey, -, hpays⟩ := runCommand_eq_ok hcommand
  have hjnl := journal_of_posted opts htenant happends
  have hsto : s.own.getRun ctx.tenant run.id = some run := by
    rw [hown]
    exact hid
  have hunp : run.status ≠ .posted := by
    rw [hdraft]
    decide
  have hmem : ∀ {own : PayrollStore} {e : PostedEntry},
      e ∈ journal ctx (⟨s.ledger.posted command opts, own⟩ : Stores π PayrollStore) →
        e ∈ journal ctx s ∨ e = s.ledger.entryOf command opts := by
    intro own e he
    rw [hjnl] at he
    rcases mem_append.mp he with he | he
    · exact .inl he
    · exact .inr (mem_singleton.mp he)
  refine ⟨fun e he x hx => ?_, fun id' r hr e he k hk => ?_, fun id' r hr hposted => ?_,
    fun e he id' k hk => ?_, fun id' id'' r r' hr hr' hne => ?_, fun id' r hr => ?_, ?_⟩
  · rcases hmem he with he | rfl
    · exact hs.keys_saved _ he hx
    · exact ⟨run.id, _, run.revision, getRun_saved_self _, hkey⟩
  · rcases getRun_saved_eq_some hr with ⟨rfl, rfl⟩ | ⟨hother, hold⟩
    · rcases hmem he with he | rfl
      · have hearl := hs.earlier hsto hunp he hk
        exact .inl ⟨hearl.1, (reversed_posted _ e).mpr hearl.2⟩
      · have hk' : k = run.revision :=
          (runKey_inj (fun hne => absurd rfl hne) (hk.symm.trans hkey)).2
        refine .inr ⟨hk', rfl, rfl, ?_, hpays⟩
        rw [saved, reversed_posted]
        exact hs.not_reversed_entryOf htenant happends
    · rcases hmem he with he | rfl
      · exact Accounted.posted (hs.entries id' r hold e he k hk) _
      · have hsame := runKey_inj (fun hne => hs.apart id' run.id r run hold hsto hne)
          (hk.symm.trans hkey)
        exact absurd hsame.1 hother
  · have hnew : ∀ own : PayrollStore, s.ledger.entryOf command opts ∈
        journal ctx (⟨s.ledger.posted command opts, own⟩ : Stores π PayrollStore) := by
      intro own
      rw [hjnl]
      exact mem_append_right _ (mem_singleton_self _)
    rcases getRun_saved_eq_some hr with ⟨rfl, rfl⟩ | ⟨-, hold⟩
    · exact ⟨_, hnew _, hkey⟩
    · obtain ⟨e, he, hk⟩ := hs.posted id' r hold hposted
      refine ⟨e, ?_, hk⟩
      rw [saved, hjnl]
      exact mem_append_left _ he
  · rcases hmem he with he | rfl
    · refine hs.voids_saved (fun old hold => ?_) he hk
      rw [Option.some.inj (hold.symm.trans hsto)]
    · exact absurd (hk.symm.trans hkey) (voidKey_ne id' _ k)
  · exact hs.apart_saved hr hr' hne ⟨run, hsto⟩
  · have hpayb := hs.payable run.id run hsto
    exact hs.payable_saved hr ⟨hpayb.nonempty, hpayb.lines, hpayb.employerTaxes,
      hpayb.net⟩
  · exact (Ledger.AddsPlain.append rfl s.ledger).mirrored hs.mirrored

/-! Voiding. -/

section
variable {clock : Clock} {run : PayrollRunRecord} {original : PostedEntry}

theorem journal_of_reversed
    (happends : s.ledger.AppendsReversal (voidRequest ctx clock run) original) (own : PayrollStore) :
    journal ctx (⟨s.ledger.reversedBy (voidRequest ctx clock run) original, own⟩ :
        Stores π PayrollStore) =
      journal ctx s ++ [s.ledger.reversalEntry (voidRequest ctx clock run) original] := by
  have hjnl := journal_reversedBy happends ctx.tenant
  have htenant : (voidRequest ctx clock run).tenant = ctx.tenant := rfl
  rw [if_pos htenant.symm] at hjnl
  exact hjnl

theorem reversed_reversedBy
    (happends : s.ledger.AppendsReversal (voidRequest ctx clock run) original) (own : PayrollStore)
    (e : PostedEntry) :
    Reversed ctx (⟨s.ledger.reversedBy (voidRequest ctx clock run) original, own⟩ :
        Stores π PayrollStore) e ↔ Reversed ctx s e ∨ e.id = run.entryId := by
  have hrec := reversalsOf_reversedBy happends ctx.tenant e.id
  have htenant : (voidRequest ctx clock run).tenant = ctx.tenant := rfl
  have horiginal : (voidRequest ctx clock run).originalId = run.entryId := rfl
  rw [htenant, horiginal] at hrec
  unfold Reversed
  rw [reversed_iff, reversed_iff, hrec]
  by_cases he : e.id = run.entryId
  · rw [if_pos ⟨rfl, he⟩]
    exact ⟨fun _ => .inr he, fun _ => append_ne_nil_of_right_ne_nil _ (cons_ne_nil _ _)⟩
  · rw [if_neg fun hboth => he hboth.2]
    exact ⟨.inl, fun h => h.resolve_right he⟩

omit [PeriodStore π] in
theorem Books.entryId_ne (hs : Books ctx s) (hsto : s.own.getRun ctx.tenant run.id = some run)
    (hposted : run.status = .posted) {id : String} {r : PayrollRunRecord}
    (hr : s.own.getRun ctx.tenant id = some r) (hother : id ≠ run.id) {e : PostedEntry}
    (he : e ∈ journal ctx s) {k : Nat} (hk : e.idempotencyKey = runKey id k) :
    e.id ≠ run.entryId := by
  intro hsame
  obtain ⟨e₀, he₀, hk₀⟩ := hs.posted run.id run hsto hposted
  rcases hs.entries run.id run hsto e₀ he₀ _ hk₀ with ⟨hlt, -⟩ | ⟨-, -, hid₀, -⟩
  · exact absurd hlt (lt_irrefl _)
  · rw [eq_of_id_eq he he₀ (hsame.trans hid₀.symm)] at hk
    have hkeys := runKey_inj (fun hne => hs.apart id run.id r run hr hsto hne) (hk.symm.trans hk₀)
    exact hother hkeys.1

theorem Books.voided (hs : Books ctx s) {id : String}
    (hid : s.own.getRun ctx.tenant id = some run) (hposted : run.status = .posted)
    (happends : s.ledger.AppendsReversal (voidRequest ctx clock run) original) :
    Books ctx (saved { s with ledger := s.ledger.reversedBy (voidRequest ctx clock run) original }
      ctx.tenant { run with status := .void, revision := run.revision + 1 }) := by
  have hown : run.id = id := s.own.id_of_get hid
  have hsto : s.own.getRun ctx.tenant run.id = some run := by
    rw [hown]
    exact hid
  have hrevd := reversed_reversedBy happends
  have hmem : ∀ {own : PayrollStore} {e : PostedEntry}, e ∈ journal ctx (⟨s.ledger.reversedBy
      (voidRequest ctx clock run) original, own⟩ : Stores π PayrollStore) →
        e ∈ journal ctx s ∨ e.idempotencyKey = voidKey run.id run.revision := by
    intro own e he
    rw [journal_of_reversed happends] at he
    rcases mem_append.mp he with he | he
    · exact .inl he
    · rw [mem_singleton.mp he]
      exact .inr rfl
  refine ⟨fun e he x hx => ?_, fun id' r hr e he k hk => ?_, fun id' r hr hstatus => ?_,
    fun e he id' k hk => ?_, fun id' id'' r r' hr hr' hne => ?_, fun id' r hr => ?_, ?_⟩
  · rcases hmem he with he | hnew
    · exact hs.keys_saved _ he hx
    · exact absurd (hnew.symm.trans hx) (voidKey_ne run.id x run.revision)
  · rcases hmem he with he | hnew
    · rcases getRun_saved_eq_some hr with ⟨rfl, rfl⟩ | ⟨hother, hold⟩
      · rcases hs.entries run.id run hsto e he k hk with ⟨hlt, hrev⟩ | ⟨rfl, -, heid, -⟩
        · exact .inl ⟨Nat.lt_succ_of_lt hlt, (hrevd _ e).mpr (.inl hrev)⟩
        · exact .inl ⟨Nat.lt_succ_self _, (hrevd _ e).mpr (.inr heid)⟩
      · rcases hs.entries id' r hold e he k hk with ⟨hlt, hrev⟩ | ⟨hlast, hstatus, heid, hnot, hpays⟩
        · exact .inl ⟨hlt, (hrevd _ e).mpr (.inl hrev)⟩
        · refine .inr ⟨hlast, hstatus, heid, fun hrev => ?_, hpays⟩
          rcases (hrevd _ e).mp hrev with hrev | hsame
          · exact hnot hrev
          · exact hs.entryId_ne hsto hposted hold hother he hk hsame
    · have hnot := voidKey_ne run.id (engineRunId { run with id := id', revision := k }) run.revision
      exact absurd (hnew.symm.trans hk) hnot
  · rcases getRun_saved_eq_some hr with ⟨rfl, rfl⟩ | ⟨-, hold⟩
    · cases hstatus
    · obtain ⟨e, he, hk⟩ := hs.posted id' r hold hstatus
      refine ⟨e, ?_, hk⟩
      rw [saved, journal_of_reversed happends]
      exact mem_append_left _ he
  · rcases hmem he with he | hnew
    · refine hs.voids_saved (fun old hold => ?_) he hk
      rw [Option.some.inj (hold.symm.trans hsto)]
      exact Nat.le_succ _
    · obtain ⟨rfl, rfl⟩ := voidKey_inj (hk.symm.trans hnew)
      exact ⟨_, getRun_saved_self _, Nat.lt_succ_self _⟩
  · exact hs.apart_saved hr hr' hne ⟨run, hsto⟩
  · have hpayb := hs.payable run.id run hsto
    exact hs.payable_saved hr ⟨hpayb.nonempty, hpayb.lines, hpayb.employerTaxes,
      hpayb.net⟩
  · exact mirrored_reversedBy happends hs.mirrored

end

/-! Remitting. -/

theorem remit_cases (ctx : PayrollContext) (clock : Clock) (req : RemitRequest)
    (s : Stores π PayrollStore) : ((remit ctx clock req).run PayrollCall.exec s).2 = s ∨
      ∃ command x, command.tenantId = ctx.tenant ∧ command.idempotencyKey = "payroll-remit:" ++ x ∧
        s.ledger.Appends ctx.chart command ∧ ((remit ctx clock req).run PayrollCall.exec s).2 =
          { s with ledger := s.ledger.posted command ⟨clock.postedAt⟩ } := by
  have hgo : (ret () : PayrollProg Unit).run exec s = (.ok (), s) := rfl
  have hok : ∀ {α : Type} (a : α), (ofExcept (.ok a) : PayrollProg α).run exec s =
    (.ok a, s) := fun _ => rfl
  unfold remit
  rcases requireDate req.date "payment date" with e | date
  · exact .inl rfl
  rw [run_bind_ok (hok date)]
  rcases minorOf req.amountMinor "amount" with e | amount
  · exact .inl rfl
  rw [run_bind_ok (hok amount)]
  by_cases hzero : amount = 0
  · rw [refuseIf_pos hzero]
    exact .inl rfl
  have hread : (perform (PayrollCall.journal ctx.tenant) : PayrollProg _).run
    PayrollCall.exec s = (.ok (s.ledger.journal ctx.tenant), s) := rfl
  rw [refuseIf_neg hzero, run_bind_ok hgo]
  dsimp only
  rw [run_bind_ok hread]
  rcases owedOn ctx (s.ledger.journal ctx.tenant)
    (trimmedOr req.liabilityCode defaultPayrollCodes.employeeTaxPayable) with e | owed
  · exact .inl rfl
  rw [run_bind_ok (hok owed)]
  by_cases hover : owed < amount
  · rw [refuseIf_pos hover]
    exact .inl rfl
  rw [refuseIf_neg hover, run_bind_ok hgo]
  rcases codeToId ctx (trimmedOr req.liabilityCode defaultPayrollCodes.employeeTaxPayable)
    "payroll liability" with e | liability
  · exact .inl rfl
  rw [run_bind_ok (hok liability)]
  rcases codeToId ctx (trimmedOr req.bankCode defaultPayrollCodes.bank) "bank" with e | bank
  · exact .inl rfl
  rw [run_bind_ok (hok bank)]
  obtain ⟨x, hkey⟩ := remitKey_eq (trim (req.id.getD "")) date
    (trimmedOr req.liabilityCode defaultPayrollCodes.employeeTaxPayable) liability
    (s.ledger.journal ctx.tenant)
  rw [bind_eq, run_bind, run_onLedger, hkey]
  have hends := PostingEngine.postEnds ctx.chart (remitCommand ctx clock ("payroll-remit:" ++ x) date
    (trimmedOr req.memo "Payroll tax deposit") liability bank amount) ⟨clock.postedAt⟩ s.ledger
  generalize (PostingEngine.post ctx.chart (remitCommand ctx clock ("payroll-remit:" ++ x) date
    (trimmedOr req.memo "Payroll tax deposit") liability bank amount) ⟨clock.postedAt⟩).run
      LedgerCall.exec s.ledger = r at hends ⊢
  cases hends with
  | answered _ => exact .inl rfl
  | refused _ _ _ => exact .inl rfl
  | appended happends => exact .inr ⟨_, x, rfl, rfl, happends, rfl⟩

theorem remitKey_ne (x y : String) : "payroll-remit:" ++ x ≠ "payroll:" ++ y :=
  ne_of_char (i := 7) (c := '-') (d := ':') (by decide) (by decide) (by decide)

theorem remitKey_ne_voidKey (x id : String) (k : Nat) : "payroll-remit:" ++ x ≠ voidKey id k := by
  rw [voidKey_eq]
  exact ne_of_char (i := 8) (c := 'r') (d := 'v') (by decide) (by decide) (by decide)

/-! Runs. -/

inductive PayrollOp where
  | createRun (req : CreateRunRequest)
  | postRun (chart : ChartOfAccounts) (clock : Clock) (id : String) (overrides : CodeOverrides)
  | voidRun (chart : ChartOfAccounts) (clock : Clock) (id : String)
  | remit (chart : ChartOfAccounts) (clock : Clock) (req : RemitRequest)

def step (ctx : PayrollContext) (s : Stores π PayrollStore) : PayrollOp → Stores π PayrollStore
  | .createRun req => ((createRun ctx req).run PayrollCall.exec s).2
  | .postRun chart clock id overrides =>
    ((postRun { ctx with chart := chart } clock id overrides).run PayrollCall.exec s).2
  | .voidRun chart clock id =>
    ((voidRun { ctx with chart := chart } clock id).run PayrollCall.exec s).2
  | .remit chart clock req =>
    ((remit { ctx with chart := chart } clock req).run PayrollCall.exec s).2

def Steady (ctx : PayrollContext) (s : Stores π PayrollStore) : PayrollOp → Prop
  | .createRun req => SteadyDraft ctx s req
  | _ => True

theorem books_step (hs : Books ctx s) {op : PayrollOp} (hstdy : Steady ctx s op) :
    Books ctx (step ctx s op) := by
  cases op with
  | createRun req =>
    unfold step
    dsimp only
    rcases createRun_cases ctx req s with ⟨e, hrun⟩ | ⟨run, hrun, hdraf⟩
    · rw [hrun]
      exact hs
    · rw [hrun]
      exact hs.drafted hdraf hstdy
  | postRun chart clock id overrides =>
    have hchart := hs.withChart chart
    have hends := runPosts { ctx with chart := chart } clock id overrides s
    unfold step
    dsimp only
    generalize (postRun { ctx with chart := chart } clock id overrides).run exec s = r
      at hends
    cases hends with
    | refused e _ => exact hs
    | answered hrun hdraft hcommand hanswers =>
      -- the key of a draft is free
      obtain ⟨htenant, hkey, -⟩ := runCommand_eq_ok hcommand
      have hid := s.own.id_of_get hrun
      have hused := hanswers.1
      rw [htenant, hkey, hid, hs.free hrun (by rw [hdraft]; decide)] at hused
      cases hused
    | appended hrun hdraft hcommand happends =>
      exact (hchart.posts hrun hdraft hcommand happends).ofChart
  | voidRun chart clock id =>
    have hchart := hs.withChart chart
    have hends := runVoids { ctx with chart := chart } clock id s
    unfold step
    dsimp only
    generalize ((voidRun { ctx with chart := chart } clock id).run exec s).2 = t at hends
    cases hends with
    | refused => exact hs
    | answered hrun hposted hanswers =>
      obtain ⟨original, -, hused, -⟩ := hanswers
      have hid := s.own.id_of_get hrun
      have hfree := hs.void_free hrun
      rw [← hid] at hfree
      exact absurd (hfree.symm.trans hused) (Option.some_ne_none _).symm
    | appended hrun hposted happends => exact (hchart.voided hrun hposted happends).ofChart
  | remit chart clock req =>
    have hchart := hs.withChart chart
    unfold step
    dsimp only
    rcases remit_cases { ctx with chart := chart } clock req s with hsame |
      ⟨command, x, htenant, hkey, happends, hposted⟩
    · rw [hsame]
      exact hs
    · rw [hposted]
      refine (hchart.foreign htenant happends (fun y => ?_) fun id k => ?_).ofChart
      · rw [hkey]
        exact remitKey_ne x y
      · rw [hkey]
        exact remitKey_ne_voidKey x id k

/-- A journal with no entry and no run on file, with any employees. -/
def opening (periods : π) (employees : OrderedMap (TenantId × String) EmployeeRecord) :
    Stores π PayrollStore :=
  ⟨⟨.empty, periods⟩, ⟨employees, .empty, @PayrollStore.id_of_get .empty⟩⟩

omit [PeriodStore π] in
theorem books_opening (periods : π) (employees : OrderedMap (TenantId × String) EmployeeRecord) :
    Books ctx (opening periods employees) := by
  have hjnl : ∀ e, e ∉ journal ctx (opening periods employees) := fun e => not_mem_nil
  have hruns : ∀ id run, (opening periods employees).own.getRun ctx.tenant id ≠ some run := nofun
  exact ⟨fun e he => absurd he (hjnl e), fun id run hrun => absurd hrun (hruns id run),
    fun id run hrun => absurd hrun (hruns id run), fun e he => absurd he (hjnl e),
    fun id _ run _ hrun => absurd hrun (hruns id run), fun id run hrun => absurd hrun (hruns id run),
    fun _ r hr => absurd hr not_mem_nil⟩

/-- Where every draft comes to some net pay, and no id is read as a revision of another run, every
state reached is sound. -/
theorem payroll_sound (ctx : PayrollContext) (periods : π)
    (employees : OrderedMap (TenantId × String) EmployeeRecord) (ops : List PayrollOp)
    (hsteady : EachStep (step ctx) (Steady ctx) (opening periods employees) ops) :
    Along (step ctx) (Sound ctx) (opening periods employees) ops := by
  have hbooks := along_of_eachStep (G := Books ctx) (fun s op hs hop => books_step hs hop)
    (books_opening periods employees) hsteady
  exact along_imp (fun s hs => hs.sound) hbooks

end

end

/-! One employee paid 100, of which tax takes some or all. -/

namespace Payday

def chart : ChartOfAccounts :=
  (ChartOfAccounts.ofAccounts
    [Kernel.Sample.account "wages" "6200" .expense, Kernel.Sample.account "taxes" "6210" .expense,
      Kernel.Sample.account "cash" "1000" .asset,
      Kernel.Sample.account "withheld" "2300" .liability]).toOption.getD .empty

def context : PayrollContext := ⟨"acme", chart, usd, fun a b => a ≤ b⟩

def clock : Clock := ⟨"2026-03-15T09:00:00Z", "2026-03-15T09:00:00Z"⟩

def start : Stores (InMemoryPeriodStore TenantId PeriodKey) PayrollStore :=
  opening .empty (OrderedMap.empty.set ("acme", "ann") ⟨"ann", "Ann", true, 0, 0⟩)

def payday (taxes : String) : CreateRunRequest where
  id := some "PR-7"
  date := some "2026-03-15"
  memo := none
  employerTaxesMinor := none
  bankCode := none
  lines := [⟨some "ann", some (.text "100"), some (.text taxes), none⟩]

def paidAndVoided (taxes : String) : List PayrollOp :=
  [.createRun (payday taxes), .postRun chart clock "PR-7" noOverrides, .voidRun chart clock "PR-7"]

end Payday

open Payday in
theorem taxed_run_is_sound :
    Along (step context) (Sound context) start (paidAndVoided "30") := by
  refine payroll_sound context _ _ _ ?_
  refine eachStep_cons.mpr ⟨⟨fun id run hrun => ?_, fun lines hlines => ?_⟩, ?_⟩
  · cases hrun
  · have hbuilt : buildLines ((start.own.listEmployees "acme").map EmployeeRecord.id) []
      (payday "30").lines = .ok [⟨"ann", 100, 30, 0, 70⟩] := by decide +kernel
    rw [← Except.ok.inj (hbuilt.symm.trans hlines)]
    decide
  · exact eachStep_cons.mpr ⟨trivial, eachStep_cons.mpr ⟨trivial, eachStep_nil⟩⟩

open Payday in
theorem run_without_net_pay_cannot_be_posted :
    ¬ Along (step context) (Sound context) start [.createRun (payday "100")] := by
  intro halong
  have hsound := halong [.createRun (payday "100")] prefix_rfl
  have hdraft : (([PayrollOp.createRun (payday "100")].foldl (step context) start).own.getRun "acme"
    "PR-7") = some ⟨"PR-7", "2026-03-15", .draft, 0, "", "", "1000", [⟨"ann", 100, 100, 0, 0⟩], 0⟩ := by
      decide +kernel
  have href : ((postRun context clock "PR-7" noOverrides).run exec
    ([PayrollOp.createRun (payday "100")].foldl (step context) start)).1.isOk = false := by
      decide +kernel
  have hposts := hsound.postable "PR-7" _ hdraft rfl context.chart clock noOverrides
    ⟨"wages", "taxes", "cash", "withheld", "withheld", "withheld"⟩ rfl ?_
      (by decide +kernel)
  · obtain ⟨r, hr⟩ := hposts
    have hcon : { context with chart := context.chart } = context := rfl
    rw [hcon] at hr
    rw [hr] at href
    cases href
  · intro l hl
    have hall : ∀ l ∈ payrollLines usd ⟨"wages", "taxes", "cash", "withheld", "withheld", "withheld"⟩
        (totalsOf ⟨"PR-7", "2026-03-15", .draft, 0, "", "", "1000", [⟨"ann", 100, 100, 0, 0⟩], 0⟩),
          (context.chart.get l.accountId).any (fun a => a.active ≠ some false ∧ a.currency.code = usd.code) :=
      by decide +kernel
    obtain ⟨account, hget, hactive⟩ := (Option.any_eq_true ..).mp (hall l hl)
    exact ⟨account, hget, of_decide_eq_true hactive⟩

end Rgnr8.Service.Payroll
