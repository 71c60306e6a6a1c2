import Rgnr8.Service.Dimensions

/-! Sending the same body again. Everything in the command but the ingestion time comes from the
body, and the fingerprint covers the ingestion time. -/

namespace Rgnr8.Service
open Lib Lib.Js Kernel PostingEngine
variable {π : Type} [PeriodStore π]

def restamp (now : String) (c : PostCommand) : PostCommand :=
  { c with provenance := { c.provenance with ingestedAt := now } }

theorem entryCommand_restamp (ctx : EntryContext) (data : List (String × Json)) (date : String)
    (lines : List JournalLineInput) (now now' : String) :
    entryCommand ctx data date lines now' =
      (entryCommand ctx data date lines now).map (restamp now') := by
  rw [entryCommand, entryCommand]
  split_ifs <;> rfl

theorem commandOf_restamp (ctx : EntryContext) (body now now' : String) :
    commandOf ctx body now' = (commandOf ctx body now).map (restamp now') := by
  unfold commandOf
  cases parseJson ctx.parse body with
  | none => rfl
  | some data =>
    dsimp only
    split_ifs
    · cases lookup data "lines" with
      | none => rfl
      | some raw => cases raw with
        | array rawLines =>
          dsimp only
          split_ifs
          · rfl
          · simp only [Fallible.map_bind, ← entryCommand_restamp]
        | _ => rfl
    · rfl

theorem ingestedAt_commandOf {ctx : EntryContext} {body now : String} {c : PostCommand}
    (h : commandOf ctx body now = .ok c) : c.provenance.ingestedAt = now := by
  have hself := commandOf_restamp ctx body now now
  rw [h] at hself
  have hc : c = restamp now c := Except.ok.inj hself
  rw [hc]
  rfl

theorem fingerprint_restamp_iff (now : String) (c : PostCommand) :
    fingerprintOfCommand c = fingerprintOfCommand (restamp now c) ↔
      now = c.provenance.ingestedAt := by
  constructor
  · intro h
    have hlist := congrArg String.toList h
    -- everything before and after the ingestion time is the same text
    simp only [fingerprintOfCommand, fingerprintOf, fingerprintProvenance, restamp,
      String.intercalate_cons_cons, String.intercalate_singleton, String.toList_append,
      List.append_assoc, List.append_cancel_left_eq] at hlist
    simp only [← List.append_assoc, List.append_cancel_right_eq] at hlist
    exact (String.toList_inj.mp hlist).symm
  · rintro rfl
    rfl

section
variable {book : BookOfRecord} {s s' : Ledger π}

theorem run_of_guarded {α : Type} {p : LedgerProg α} {a : α}
    (h : (p.interpret (guardStore book) .ledger).run LedgerCall.exec s = (.ok a, s')) :
    p.run LedgerCall.exec s = (.ok a, s') := by
  induction p generalizing s with
  | ret b =>
    change ((.ok b : Except ServiceError α), s) = (.ok a, s') at h
    cases h
    rfl
  | throw e => simp [Prog.interpret] at h
  | call c k ih =>
    cases c with
    | append draft =>
      simp only [Prog.interpret, guardStore] at h
      split_ifs at h
      · simp [Prog.bind] at h
      · exact ih _ h
      · simp [Prog.bind] at h
      · exact ih _ h
    | getByIdempotencyKey t k' => exact ih _ h
    | getById t id => exact ih _ h
    | status t q => exact ih _ h
    | periods op => exact ih _ h

theorem run_guarded_replay {tenant : TenantId} {key : IdempotencyKey} {period : PeriodKey}
    {intended : String} {draft : Except LedgerError DraftEntry} {e : PostedEntry}
    (h : s.store.getByIdempotencyKey tenant key = some e) :
    ((settle tenant key period intended draft).interpret (guardStore book) .ledger).run
      LedgerCall.exec s = (if fingerprintOfEntry e = intended then .ok e
        else .error (.ledger (.duplicateIdempotencyKey key)), s) := by
  rw [settle_eq, Prog.interpret, guardStore, Prog.perform, Prog.bind, Prog.run_call]
  simp only [LedgerCall.exec, h, Prog.bind, replay]
  split_ifs <;> simp_all [Prog.interpret]

end

theorem run_postEntry {ctx : EntryContext} {body : String} {clock : Clock} {s : Ledger π} :
    (postEntry ctx body clock).run LedgerCall.exec s =
      match commandOf ctx body clock.ingestedAt with
      | .error e => (.error e, s)
      | .ok command => match validateDimensions ctx.dimensions command with
        | .error message => (.error (.dimension message), s)
        | .ok () => ((post ctx.dimensions.chart command ⟨clock.postedAt⟩).interpret
            (guardStore ctx.book) .ledger).run LedgerCall.exec s := by
  rw [postEntry]
  cases commandOf ctx body clock.ingestedAt with
  | error e => rfl
  | ok command =>
    simp only [Prog.ofExcept, Prog.bind_eq, Prog.bind]
    cases validateDimensions ctx.dimensions command <;> rfl

/-- A body that has succeeded once, sent again, whatever was posted or sealed in between: the
original entry comes back and nothing is written exactly when the clock still reads the same. -/
theorem retry_entry_iff {ctx : EntryContext} {body : String} {clock clock' : Clock}
    {s s₁ s₂ : Ledger π} {e : PostedEntry}
    (hfirst : (postEntry ctx body clock).run LedgerCall.exec s = (.ok e, s₁))
    (hgrows : s₁.store.Grows s₂.store) :
    (postEntry ctx body clock').run LedgerCall.exec s₂ = (.ok e, s₂) ↔
      clock'.ingestedAt = clock.ingestedAt := by
  rw [run_postEntry] at hfirst
  cases hc : commandOf ctx body clock.ingestedAt with
  | error err =>
    rw [hc] at hfirst
    cases hfirst
  | ok c =>
    rw [hc] at hfirst
    dsimp only at hfirst
    cases hv : validateDimensions ctx.dimensions c with
    | error message =>
      rw [hv] at hfirst
      cases hfirst
    | ok u =>
      rw [hv] at hfirst
      obtain ⟨hkey, hsame⟩ := settle_ok (fun d hd => draftFor_post hd) (run_of_guarded hfirst)
      have hv' : validateDimensions ctx.dimensions (restamp clock'.ingestedAt c) = .ok () := hv
      have hkey' : s₂.store.getByIdempotencyKey (restamp clock'.ingestedAt c).tenantId
          (restamp clock'.ingestedAt c).idempotencyKey = some e := hgrows.getByIdempotencyKey hkey
      rw [run_postEntry, commandOf_restamp ctx body clock.ingestedAt, hc]
      simp only [Except.map, hv', post, run_guarded_replay hkey', hsame,
        fingerprint_restamp_iff, ingestedAt_commandOf hc]
      by_cases hclock : clock'.ingestedAt = clock.ingestedAt <;> simp [hclock]

namespace Sample

def body : String :=
  "\x7b\"date\":\"2026-08-01\",\"idempotency_key\":\"sale\",\"lines\":[" ++
  "\x7b\"code\":\"1000\",\"side\":\"debit\",\"amount_minor\":\"100\"\x7d," ++
  "\x7b\"code\":\"4000\",\"side\":\"credit\",\"amount_minor\":\"100\"\x7d]\x7d"

def bodyLine (code side : String) : Json :=
  .object [("code", .string code), ("side", .string side), ("amount_minor", .string "100")]

def context : EntryContext where
  tenant := "acme"
  currency := usd
  dimensions := ⟨Kernel.Sample.chart, [], [], []⟩
  book := ⟨false, false⟩
  parse text := if text = body then some (.object [("date", .string "2026-08-01"),
    ("idempotency_key", .string "sale"),
    ("lines", .array [bodyLine "1000" "debit", bodyLine "4000" "credit"])]) else none

def noon : Clock := ⟨"2026-08-01T12:00:00.000Z", "2026-08-01T12:00:00.001Z"⟩

def later : Clock := ⟨"2026-08-01T12:00:01.000Z", "2026-08-01T12:00:01.001Z"⟩

/-- The outcome of the first request, on empty books. -/
def sent : Except ServiceError PostedEntry × Ledger (InMemoryPeriodStore TenantId PeriodKey) :=
  (postEntry context body noon).run LedgerCall.exec ⟨.empty, .empty⟩

theorem sent_ok : sent.1.toOption.map (fun e => e.id) = some "acme:1" := by
  decide +kernel

end Sample

theorem retry_of_entry_at_same_reading :
    ∃ e, (postEntry Sample.context Sample.body Sample.noon).run LedgerCall.exec Sample.sent.2 =
      (.ok e, Sample.sent.2) := by
  cases hfst : Sample.sent.1 with
  | error err =>
    have hsent := Sample.sent_ok
    rw [hfst] at hsent
    cases hsent
  | ok e =>
    have hrun : (postEntry Sample.context Sample.body Sample.noon).run LedgerCall.exec
        ⟨.empty, .empty⟩ = (.ok e, Sample.sent.2) := by
      rw [← hfst]
      exact (Prod.eta Sample.sent).symm
    exact ⟨e, (retry_entry_iff hrun (.refl _)).mpr rfl⟩

theorem retry_of_entry_refused :
    Sample.sent.1.toOption.map (fun e => e.id) = some "acme:1" ∧
      ((postEntry Sample.context Sample.body Sample.later).run LedgerCall.exec Sample.sent.2).1 =
        .error (.ledger (.duplicateIdempotencyKey "sale")) :=
  ⟨Sample.sent_ok, by decide +kernel⟩

end Rgnr8.Service
