import Rgnr8.Service.PayrollPosts

/-! What the journal holds for the runs of payroll on file, and what that says of a run that is posted,
of one that is not, and of a draft. -/

namespace Rgnr8.Service.Payroll
open Lib Lib.Js Fallible Kernel Subledger Subledger.Payroll

/-! Keys that differ in a letter. -/

theorem ne_of_char {a b x y : String} {i : Nat} {c d : Char} (ha : a.toList[i]? = some c)
    (hb : b.toList[i]? = some d) (hne : c ≠ d) : a ++ x ≠ b ++ y := by
  intro h
  have hi := (List.getElem?_eq_some_iff.mp ha).1
  have hi' := (List.getElem?_eq_some_iff.mp hb).1
  have hchar := congrArg (fun text => text.toList[i]?) h
  simp only [String.toList_append] at hchar
  rw [List.getElem?_append_left hi, List.getElem?_append_left hi', ha, hb] at hchar
  exact hne (Option.some.inj hchar)

theorem voidKey_eq (id : String) (k : Nat) :
    voidKey id k = "payroll-void:" ++ (id ++ ("~r" ++ toString k)) := by
  unfold voidKey
  rw [← String.toList_inj]
  simp only [String.toList_append, List.append_assoc]
  rfl

theorem voidKey_ne (id x : String) (k : Nat) : voidKey id k ≠ "payroll:" ++ x := by
  rw [voidKey_eq]
  exact ne_of_char (i := 7) (c := '-') (d := ':') (by decide) (by decide) (by decide)

theorem remitKey_eq (explicitId date code : String) (liability : AccountId)
    (journal : List PostedEntry) :
    ∃ x, remitKey explicitId date code liability journal = "payroll-remit:" ++ x := by
  unfold remitKey
  split_ifs
  · exact ⟨explicitId, rfl⟩
  · refine ⟨date ++ (":" ++ (code ++ ("#" ++ toString (journal.countP fun e =>
      e.provenance.sourceSystem = "payroll" ∧ e.provenance.sourceObject = "payroll.remit" ∧
        e.entryDate = date ∧ e.lines.any fun l => l.accountId = liability)))), ?_⟩
    rw [← String.toList_inj]
    simp only [String.toList_append, List.append_assoc]
    rfl

/-! What holds in every state. -/

section
variable {π : Type} {ctx : PayrollContext} {s : Stores π PayrollStore}

def journal (ctx : PayrollContext) (s : Stores π PayrollStore) : List PostedEntry :=
  s.ledger.journal ctx.tenant

def Reversed (ctx : PayrollContext) (s : Stores π PayrollStore) (e : PostedEntry) : Prop :=
  s.ledger.Reversed ctx.tenant e.id

def Accounted (ctx : PayrollContext) (s : Stores π PayrollStore) (run : PayrollRunRecord)
    (e : PostedEntry) (k : Nat) : Prop :=
  (k < run.revision ∧ Reversed ctx s e) ∨ (k = run.revision ∧ run.status = .posted ∧
    e.id = run.entryId ∧ ¬ Reversed ctx s e ∧ Pays ctx run e.lines)

structure Books (ctx : PayrollContext) (s : Stores π PayrollStore) : Prop where
  keys : ∀ e ∈ journal ctx s, ∀ x, e.idempotencyKey = "payroll:" ++ x →
    ∃ id run k, s.own.getRun ctx.tenant id = some run ∧ e.idempotencyKey = runKey id k
  entries : ∀ id run, s.own.getRun ctx.tenant id = some run → ∀ e ∈ journal ctx s, ∀ k,
    e.idempotencyKey = runKey id k → Accounted ctx s run e k
  posted : ∀ id run, s.own.getRun ctx.tenant id = some run → run.status = .posted →
    ∃ e ∈ journal ctx s, e.idempotencyKey = runKey id run.revision
  voids : ∀ e ∈ journal ctx s, ∀ id k, e.idempotencyKey = voidKey id k →
    ∃ run, s.own.getRun ctx.tenant id = some run ∧ k < run.revision
  apart : ∀ id id' run run', s.own.getRun ctx.tenant id = some run →
    s.own.getRun ctx.tenant id' = some run' → id ≠ id' → Apart id id'
  payable : ∀ id run, s.own.getRun ctx.tenant id = some run → Payable run
  mirrored : s.ledger.Mirrored

def Standing (ctx : PayrollContext) (s : Stores π PayrollStore) (id : String) (e : PostedEntry) :
    Prop := e ∈ journal ctx s ∧ (∃ k, e.idempotencyKey = runKey id k) ∧ ¬ Reversed ctx s e

/-- A posted run has one standing entry, which pays it; a draft or a void has none; and a draft can
be posted with accounts that can be used, in a period that is open. -/
structure Sound [PeriodStore π] (ctx : PayrollContext) (s : Stores π PayrollStore) : Prop where
  posted : ∀ id run, s.own.getRun ctx.tenant id = some run → run.status = .posted →
    ∃ e, Standing ctx s id e ∧ (∀ e', Standing ctx s id e' → e' = e) ∧ Pays ctx run e.lines
  unposted : ∀ id run, s.own.getRun ctx.tenant id = some run → run.status ≠ .posted →
    ∀ e, ¬ Standing ctx s id e
  postable : ∀ id run, s.own.getRun ctx.tenant id = some run → run.status = .draft →
    ∀ chart clock overrides accounts,
      resolveAccounts { ctx with chart := chart }
        { overrides with bank := overrides.bank.or (some run.bankCode) } = .ok accounts →
      (∀ l ∈ payrollLines ctx.currency accounts (totalsOf run),
        Usable { ctx with chart := chart } l.accountId) →
      PeriodStore.status s.ledger.periods ctx.tenant (periodOf run.date) ≠ .locked →
      ∃ r, ((postRun { ctx with chart := chart } clock id overrides).run PayrollCall.exec s).1 = .ok r

theorem eq_of_id_eq {e e' : PostedEntry} (he : e ∈ journal ctx s) (he' : e' ∈ journal ctx s)
    (hid : e.id = e'.id) : e = e' := by
  have hget : s.ledger.store.getById ctx.tenant e.id = some e :=
    InMemoryLedgerStore.getById_iff.mpr ⟨he, rfl⟩
  have hget' : s.ledger.store.getById ctx.tenant e.id = some e' :=
    InMemoryLedgerStore.getById_iff.mpr ⟨he', hid.symm⟩
  exact Option.some.inj (hget.symm.trans hget')

theorem Apart.symm {id id' : String} (h : Apart id id') : Apart id' id :=
  fun k hk => ⟨(h k hk).2, (h k hk).1⟩

theorem Books.earlier (hs : Books ctx s) {id : String} {run : PayrollRunRecord}
    (hrun : s.own.getRun ctx.tenant id = some run) (hstatus : run.status ≠ .posted)
    {e : PostedEntry} (he : e ∈ journal ctx s) {k : Nat} (hk : e.idempotencyKey = runKey id k) :
    k < run.revision ∧ Reversed ctx s e := by
  rcases hs.entries id run hrun e he k hk with hearl | ⟨-, hposted, -⟩
  · exact hearl
  · exact absurd hposted hstatus

theorem Books.free (hs : Books ctx s) {id : String} {run : PayrollRunRecord}
    (hrun : s.own.getRun ctx.tenant id = some run) (hstatus : run.status ≠ .posted) :
    s.ledger.store.getByIdempotencyKey ctx.tenant (runKey id run.revision) = none := by
  refine InMemoryLedgerStore.getByIdempotencyKey_eq_none.mpr fun e he hk => ?_
  exact absurd (hs.earlier hrun hstatus he hk).1 (lt_irrefl _)

theorem Books.void_free (hs : Books ctx s) {id : String} {run : PayrollRunRecord}
    (hrun : s.own.getRun ctx.tenant id = some run) :
    s.ledger.store.getByIdempotencyKey ctx.tenant (voidKey id run.revision) = none := by
  refine InMemoryLedgerStore.getByIdempotencyKey_eq_none.mpr fun e he hk => ?_
  obtain ⟨run', hrun', hlt⟩ := hs.voids e he id run.revision hk
  rw [Option.some.inj (hrun.symm.trans hrun')] at hlt
  exact absurd hlt (lt_irrefl _)

theorem runCommand_of_payable {run : PayrollRunRecord} {overrides : CodeOverrides}
    {accounts : PayrollAccounts} (hrun : Payable run)
    (haccounts : resolveAccounts ctx
      { overrides with bank := overrides.bank.or (some run.bankCode) } = .ok accounts)
    (ingestedAt : String) : ∃ command, runCommand ctx run overrides ingestedAt = .ok command ∧
      command.tenantId = ctx.tenant ∧ command.idempotencyKey = runKey run.id run.revision ∧
      command.currency = ctx.currency ∧ command.periodKey = periodOf run.date ∧
      command.lines = payrollLines ctx.currency accounts (totalsOf run) := by
  have htots : payrollTotals (toEngineRun run) = .ok (totalsOf run) := by
    unfold payrollTotals
    have hnon : (toEngineRun run).employees ≠ [] := by
      unfold toEngineRun
      exact fun hnil => hrun.nonempty (List.map_eq_nil_iff.mp hnil)
    have hagree : (toEngineRun run).employees.find? (fun e => e.expectedNet ≠ e.netPay) = none := by
      refine List.find?_eq_none.mpr fun e he => ?_
      obtain ⟨l, hl, rfl⟩ := List.mem_map.mp he
      have hadds := (hrun.lines l hl).adds
      unfold EmployeePay.expectedNet
      rw [decide_eq_true_eq, not_not]
      dsimp only
      omega
    rw [if_neg hnon, hagree]
    unfold toEngineRun totalsOf
    simp only [List.map_map]
    rfl
  have hcommand : ∃ command, runCommand ctx run overrides ingestedAt = .ok command := by
    unfold runCommand payrollRunToPostCommand
    rw [haccounts, htots]
    exact ⟨_, rfl⟩
  obtain ⟨command, hcommand⟩ := hcommand
  refine ⟨command, hcommand, ?_⟩
  unfold runCommand payrollRunToPostCommand at hcommand
  rw [haccounts, htots] at hcommand
  obtain rfl := Except.ok.inj hcommand
  exact ⟨rfl, rfl, rfl, rfl, rfl⟩

theorem Books.sound [PeriodStore π] (hs : Books ctx s) : Sound ctx s := by
  refine ⟨fun id run hrun hposted => ?_, fun id run hrun hstatus e he => ?_,
    fun id run hrun hdraft chart clock overrides accounts haccounts husab hopen => ?_⟩
  · have hstnd : ∀ e, Standing ctx s id e → e.id = run.entryId ∧ Pays ctx run e.lines := by
      rintro e ⟨he, ⟨k, hk⟩, hstan⟩
      rcases hs.entries id run hrun e he k hk with ⟨-, hrevd⟩ | ⟨-, -, hid, -, hpays⟩
      · exact absurd hrevd hstan
      · exact ⟨hid, hpays⟩
    obtain ⟨e, he, hk⟩ := hs.posted id run hrun hposted
    have hstan : Standing ctx s id e := by
      refine ⟨he, ⟨_, hk⟩, ?_⟩
      rcases hs.entries id run hrun e he _ hk with ⟨hlt, -⟩ | ⟨-, -, -, hstan, -⟩
      · exact absurd hlt (lt_irrefl _)
      · exact hstan
    refine ⟨e, hstan, fun e' he' => ?_, (hstnd e hstan).2⟩
    exact eq_of_id_eq he'.1 he ((hstnd e' he').1.trans (hstnd e hstan).1.symm)
  · obtain ⟨hmem, ⟨k, hk⟩, hstan⟩ := he
    exact hstan (hs.earlier hrun hstatus hmem hk).2
  · have hpayb := hs.payable id run hrun
    have hid : run.id = id := s.own.id_of_get hrun
    have hunp : run.status ≠ .posted := by
      rw [hdraft]
      decide
    obtain ⟨command, hcommand, htenant, hkey, hccy, hper, hlines⟩ :=
      runCommand_of_payable hpayb haccounts clock.ingestedAt
    have happends : s.ledger.Appends chart command := by
      refine ⟨?_, ?_, ?_⟩
      · rw [htenant, hkey, hid]
        exact hs.free hrun hunp
      · rw [htenant, hper]
        exact hopen
      · rw [hlines, hccy]
        exact postable_of_payable hpayb husab
    have hends := runPosts { ctx with chart := chart } clock id overrides s
    generalize (postRun { ctx with chart := chart } clock id overrides).run PayrollCall.exec s = r at hends ⊢
    cases hends with
    | refused e hnot => exact absurd happends (hnot run command hrun hdraft hcommand)
    | answered _ _ _ _ => exact ⟨_, rfl⟩
    | appended _ _ _ _ => exact ⟨_, rfl⟩

end

end Rgnr8.Service.Payroll
