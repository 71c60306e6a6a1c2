import Rgnr8.Kernel.PostEnds
import Rgnr8.Service.Dimensions

/-! A flow of the service beside its ledger: it keeps records in a store of its own and posts
through the kernel. What the flows share is what the post in their middle can do. -/

namespace Rgnr8.Service
open Lib Lib.Js Kernel

inductive FlowCall (S : Type) where
  | ledger (c : LedgerCall)
  | own (c : S)

abbrev FlowCall.Answer {S : Type} (A : S → Type) : FlowCall S → Type
  | ledger c => c.Answer
  | own c => A c

structure Stores (π D : Type) where
  ledger : Ledger π
  own : D

def FlowCall.exec {π S D : Type} {A : S → Type} [PeriodStore π] (ownExec : (c : S) → D → A c × D) :
    (c : FlowCall S) → Stores π D → FlowCall.Answer A c × Stores π D
  | ledger c, s => ((c.exec s.ledger).1, { s with ledger := (c.exec s.ledger).2 })
  | own c, s => ((ownExec c s.own).1, { s with own := (ownExec c s.own).2 })

/-- What a flow can end with instead of an answer; `own` is the error class of its module. -/
inductive FlowFailure where
  | own (message : String)
  | dimension (message : String)
  | date (message : String)
  | ledger (e : LedgerError)
  deriving DecidableEq

abbrev FlowProg (S : Type) (A : S → Type) := Prog (FlowCall S) (FlowCall.Answer A) FlowFailure

/-- `String.prototype.toUpperCase`, of which the flows need that doing it twice changes nothing. -/
structure CaseMapping where
  toUpperCase : String → String
  idempotent : ∀ s, toUpperCase (toUpperCase s) = toUpperCase s

def asciiLetters : CaseMapping where
  toUpperCase s := String.ofList (s.toList.map Char.toUpper)
  idempotent s := by simp [Function.comp_def, Char.toUpper_toUpper_eq_toUpper]

/-- The tenant's side of a request, with the chart as the request has read it. -/
structure FlowContext where
  tenant : TenantId
  chart : ChartOfAccounts
  currency : Currency
  clock : Clock
  letters : CaseMapping

def postFlow {S : Type} {A : S → Type} (ctx : FlowContext) (command : PostCommand) :
    FlowProg S A PostedEntry :=
  (PostingEngine.post ctx.chart command ⟨ctx.clock.postedAt⟩).interpret
    (fun c => Prog.perform (FlowCall.ledger c)) .ledger

/-- `/^\d{4}-\d{2}-\d{2}$/` on the trimmed text. -/
def requireDate (raw : Option String) (label : String) : Except FlowFailure String :=
  let date := trim (raw.getD "")
  if ¬ isIsoDate date then .error (.own s!"{label} must be YYYY-MM-DD") else .ok date

def accountOf (chart : ChartOfAccounts) (code : String) : Except FlowFailure Account :=
  match chart.getByCode code with
  | none => .error (.own s!"unknown account code {code}")
  | some account => .ok account

def need (chart : ChartOfAccounts) (code role : String) (type : AccountType) :
    Except FlowFailure String := do
  let account ← accountOf chart code
  if account.type ≠ type then .error (.own s!"{code} is not a {role} account") else return code

def oneOf {α : Type} (letters : CaseMapping) (members : List α) (text : α → String)
    (raw : Option String) (fallback : α) (label : String) : Except FlowFailure α :=
  match members.find? fun m => text m = letters.toUpperCase (trim (raw.getD (text fallback))) with
  | none => .error (.own (s!"{label} must be one of " ++ ", ".intercalate (members.map text)))
  | some m => .ok m

/-- `String(text ?? "").trim() || fallback` -/
def trimmedOr (text : Option String) (fallback : String) : String :=
  if trim (text.getD "") = "" then fallback else trim (text.getD "")

/-- `String(text ?? "") || fallback` -/
def textOr (text : Option String) (fallback : String) : String :=
  if text.getD "" = "" then fallback else text.getD ""

def periodOf (date : String) : PeriodKey := String.ofList (date.toList.take 7)

def twoLines (currency : Currency) (debit credit : AccountId) (amount : Int) (memo : String) :
    List JournalLineInput :=
  [⟨debit, .debit, ⟨amount, currency⟩, some memo, none⟩,
    ⟨credit, .credit, ⟨amount, currency⟩, some memo, none⟩]

section
variable {π S D : Type} {A : S → Type} [PeriodStore π] {ownExec : (c : S) → D → A c × D}
variable {α : Type} {ctx : FlowContext} {command : PostCommand} {s : Stores π D}

variable {chart : ChartOfAccounts}

theorem accountOf_eq_ok {code : String} {account : Account}
    (h : accountOf chart code = .ok account) : chart.getByCode code = some account := by
  unfold accountOf at h
  cases hcode : chart.getByCode code with
  | none => rw [hcode] at h; cases h
  | some a =>
    rw [hcode] at h
    rw [Except.ok.inj h]

theorem requireDate_eq_ok {raw : Option String} {label date : String}
    (h : requireDate raw label = .ok date) : date = trim (raw.getD "") ∧ isIsoDate date = true := by
  unfold requireDate at h
  rw [Fallible.refuse_eq_ok, not_not] at h
  have hdate := Except.ok.inj h.2
  subst hdate
  exact ⟨rfl, h.1⟩

theorem need_eq_ok {code code' role : String} {type : AccountType}
    (h : need chart code role type = .ok code') :
    ∃ a, chart.getByCode code' = some a ∧ a.type = type := by
  unfold need at h
  rw [Fallible.bind_eq_ok] at h
  obtain ⟨a, ha, h⟩ := h
  rw [Fallible.refuse_eq_ok, not_not] at h
  have hcode := Except.ok.inj h.2
  subst hcode
  exact ⟨a, accountOf_eq_ok ha, h.1⟩

omit [PeriodStore π] in
theorem netOn_twoLines (id debit credit : AccountId) (currency : Currency) (amount : Int)
    (memo : String) : netOn id (twoLines currency debit credit amount memo) =
      (if debit = id then amount else 0) + (if credit = id then -amount else 0) := by
  unfold twoLines
  simp only [netOn_cons, netOn_nil, Int.add_zero]
  rfl

theorem postable_twoLines {debit credit : AccountId} {currency : Currency} {amount : Int}
    {memo : String} :
    validateAndBuildLines (twoLines currency debit credit amount memo) currency chart =
        .ok (twoLines currency debit credit amount memo) ↔
      0 < amount ∧ (∀ id ∈ [debit, credit], ∃ account, chart.get id = some account ∧
        account.active ≠ some false ∧ account.currency.code = currency.code) := by
  rw [validateAndBuildLines_eq_ok]
  unfold twoLines LineOk
  constructor
  · rintro ⟨-, hlines, -, -⟩
    rw [List.forall_mem_cons, List.forall_mem_singleton] at hlines
    obtain ⟨⟨a, ha, hactive, -, hccy, hamt⟩, b, hb, hactive', -, hccy', -⟩ := hlines
    refine ⟨hamt, ?_⟩
    rw [List.forall_mem_cons, List.forall_mem_singleton]
    exact ⟨⟨a, ha, hactive, hccy⟩, b, hb, hactive', hccy'⟩
  · rintro ⟨hamt, hids⟩
    rw [List.forall_mem_cons, List.forall_mem_singleton] at hids
    obtain ⟨⟨a, ha, hactive, hccy⟩, b, hb, hactive', hccy'⟩ := hids
    refine ⟨le_rfl, ?_, rfl, rfl⟩
    rw [List.forall_mem_cons, List.forall_mem_singleton]
    exact ⟨⟨a, ha, hactive, rfl, hccy, hamt⟩, b, hb, hactive', rfl, hccy', hamt⟩

theorem run_postFlow (s : Stores π D) :
    (postFlow ctx command : FlowProg S A PostedEntry).run (FlowCall.exec ownExec) s =
      let r := (PostingEngine.post ctx.chart command ⟨ctx.clock.postedAt⟩).run LedgerCall.exec s.ledger
      (r.1.mapError .ledger, { s with ledger := r.2 }) :=
  Prog.run_interpret Stores.ledger (fun ledger s => { s with ledger := ledger })
    (fun _ _ => rfl) (fun _ _ _ => rfl) (fun _ => rfl) (fun _ _ => rfl) _ s

def Stores.posted (s : Stores π D) (ctx : FlowContext) (command : PostCommand) : Stores π D :=
  { s with ledger := s.ledger.posted command ⟨ctx.clock.postedAt⟩ }

theorem Stores.key_posted (htenant : command.tenantId = ctx.tenant)
    (happends : s.ledger.Appends ctx.chart command) {k : IdempotencyKey}
    (hkey : (s.posted ctx command).ledger.store.getByIdempotencyKey ctx.tenant k ≠ none) :
    k = command.idempotencyKey ∨ s.ledger.store.getByIdempotencyKey ctx.tenant k ≠ none := by
  unfold posted at hkey
  rw [Ledger.getByIdempotencyKey_posted ⟨ctx.clock.postedAt⟩ happends, htenant] at hkey
  by_cases hsame : k = command.idempotencyKey
  · exact .inl hsame
  · rw [if_neg fun hboth => hsame hboth.2] at hkey
    exact .inr hkey

def Stores.entryOf (s : Stores π D) (ctx : FlowContext) (command : PostCommand) : PostedEntry :=
  s.ledger.entryOf command ⟨ctx.clock.postedAt⟩

inductive FlowPosts (ownExec : (c : S) → D → A c × D) (ctx : FlowContext) (command : PostCommand)
    (tail : PostedEntry → FlowProg S A α) (s : Stores π D) :
    Except FlowFailure α × Stores π D → Prop where
  | refused (err : LedgerError) (hanswers : ∀ e, ¬ s.ledger.Answers command e)
      (happends : ¬ s.ledger.Appends ctx.chart command) :
      FlowPosts ownExec ctx command tail s (.error (.ledger err), s)
  | answered {e : PostedEntry} (h : s.ledger.Answers command e) :
      FlowPosts ownExec ctx command tail s ((tail e).run (FlowCall.exec ownExec) s)
  | appended (h : s.ledger.Appends ctx.chart command) :
      FlowPosts ownExec ctx command tail s
        ((tail (s.entryOf ctx command)).run (FlowCall.exec ownExec) (s.posted ctx command))

theorem flowPosts (ownExec : (c : S) → D → A c × D) (ctx : FlowContext) (command : PostCommand)
    (tail : PostedEntry → FlowProg S A α) (s : Stores π D) :
    FlowPosts ownExec ctx command tail s
      ((postFlow ctx command >>= tail).run (FlowCall.exec ownExec) s) := by
  have hends := PostingEngine.postEnds ctx.chart command ⟨ctx.clock.postedAt⟩ s.ledger
  rw [Prog.bind_eq, Prog.run_bind, run_postFlow]
  generalize (PostingEngine.post ctx.chart command _).run LedgerCall.exec s.ledger = r at hends ⊢
  cases hends with
  | answered h => exact .answered h
  | refused err hanswers happends => exact .refused err hanswers happends
  | appended h => exact .appended h

end
end Rgnr8.Service
