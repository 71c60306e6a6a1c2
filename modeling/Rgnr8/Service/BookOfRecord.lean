import Rgnr8.Lib.EachCall
import Rgnr8.Kernel.GoLive
import Rgnr8.Service.Inventory
import Rgnr8.Service.DocumentStore

/-! Whose books they are. The settings of a tenant say which system is the book of record, a
cutover record says whether RGNR8 has taken over, and the backend that handlers see refuses to
append what the two do not allow. -/

namespace Rgnr8.Service.Settings

inductive BookOfRecord where
  | rgnr8 | quickbooks
  deriving DecidableEq

structure AccountSettings where
  inventoryCostingMethod : Inventory.CostingMethod
  baseCurrency : String
  multiCurrencyEnabled : Bool
  retentionAuditDays : Nat
  retentionSoftDeleteDays : Nat
  bookOfRecord : BookOfRecord
  mirrorRealmId : String
  cutoverDate : String
  accountOriginBackfilled : Bool

def defaultSettings : AccountSettings where
  inventoryCostingMethod := .movingAverage
  baseCurrency := "USD"
  multiCurrencyEnabled := false
  retentionAuditDays := 0
  retentionSoftDeleteDays := 0
  bookOfRecord := .rgnr8
  mirrorRealmId := ""
  cutoverDate := ""
  accountOriginBackfilled := false

end Rgnr8.Service.Settings

namespace Rgnr8.Service.Cutover

/-- Begun and maybe interrupted, done, or taken back. -/
inductive CutoverState where
  | executing | live | backedOut
  deriving DecidableEq

structure CutoverRecord where
  cutoverDate : String
  signedBy : String
  reportHash : String
  executedAt : String
  docs : List (DocKind × String)
  state : CutoverState
  backedOutAt : String
  deriving DecidableEq

def cutoverActive (record : Option CutoverRecord) : Bool :=
  match record with
  | none => false
  | some record => record.state ≠ .backedOut

end Rgnr8.Service.Cutover

namespace Rgnr8.Service
open Lib Kernel Settings Cutover

/-- The tenant's ledger, its settings and its cutover; `own` is every other store, the chart of
accounts among them. -/
structure Backend (π D : Type) where
  ledger : Ledger π
  settings : OrderedMap TenantId AccountSettings
  cutovers : OrderedMap TenantId Cutover.CutoverRecord
  own : D

namespace Backend
variable {π D : Type}
variable (s : Backend π D) (tenant : TenantId)

def settingsOf : AccountSettings :=
  (s.settings.get? tenant).getD defaultSettings

def inParallelRun : Bool :=
  (s.settingsOf tenant).bookOfRecord = .quickbooks

def cutOver : Bool := cutoverActive (s.cutovers.get? tenant)

end Backend

inductive BackendCall (S : Type) where
  | ledger (c : LedgerCall)
  | listEntries (tenant : TenantId)
  | getSettings (tenant : TenantId)
  | saveSettings (tenant : TenantId) (settings : AccountSettings)
  | getCutover (tenant : TenantId)
  | saveCutover (tenant : TenantId) (record : Cutover.CutoverRecord)
  | saveChart (tenant : TenantId) (coa : ChartOfAccounts)
  | own (c : S)

abbrev BackendCall.Answer {S : Type} (A : S → Type) : BackendCall S → Type
  | ledger c => c.Answer
  | listEntries _ => List PostedEntry
  | getSettings _ => AccountSettings
  | getCutover _ => Option Cutover.CutoverRecord
  | saveSettings _ _ | saveCutover _ _ | saveChart _ _ => Unit
  | own c => A c

def BackendCall.exec {π S D : Type} {A : S → Type} [PeriodStore π] [ChartStore D]
    (ownExec : (c : S) → D → A c × D) :
    (c : BackendCall S) → Backend π D → BackendCall.Answer A c × Backend π D
  | ledger c, s => ((c.exec s.ledger).1, { s with ledger := (c.exec s.ledger).2 })
  | listEntries tenant, s => (s.ledger.journal tenant, s)
  | getSettings tenant, s => (s.settingsOf tenant, s)
  | saveSettings tenant settings, s =>
    ((), { s with settings := s.settings.set tenant settings })
  | getCutover tenant, s => (s.cutovers.get? tenant, s)
  | saveCutover tenant record, s => ((), { s with cutovers := s.cutovers.set tenant record })
  | saveChart tenant coa, s => ((), { s with own := ChartStore.saveChart s.own tenant coa })
  | own c, s => ((ownExec c s.own).1, { s with own := (ownExec c s.own).2 })

/-- What a handler can end with instead of an answer. -/
inductive HandlerFailure where
  | bookOfRecord
  | afterCutover
  | cutover (f : CutoverFailure)
  | thrown (message : String)
  deriving DecidableEq

abbrev BackendProg (S : Type) (A : S → Type) :=
  Prog (BackendCall S) (BackendCall.Answer A) HandlerFailure

section
variable {S : Type} {A : S → Type}

def inParallelRun (tenant : TenantId) : BackendProg S A Bool := do
  let settings ← Prog.perform (BackendCall.getSettings tenant)
  return settings.bookOfRecord = Settings.BookOfRecord.quickbooks

def cutOver (tenant : TenantId) : BackendProg S A Bool := do
  let record ← Prog.perform (BackendCall.getCutover tenant)
  return cutoverActive record

abbrev GuardedAnswer (A : S → Type) (c : BackendCall S) : Type :=
  Except HandlerFailure (BackendCall.Answer A c)

def guardAppend (draft : DraftEntry) : BackendProg S A (Except HandlerFailure PostedEntry) := do
  if isQuickBooksCopy draft then
    let cut ← cutOver draft.tenantId
    if cut then return .error .afterCutover
    else
      let e ← Prog.perform (BackendCall.ledger (.append draft))
      return .ok e
  else
    let parallel ← inParallelRun draft.tenantId
    if parallel then return .error .bookOfRecord
    else
      let e ← Prog.perform (BackendCall.ledger (.append draft))
      return .ok e

/-- The backend every handler uses: only `append` is guarded. -/
def guardBackend : (c : BackendCall S) → BackendProg S A (GuardedAnswer A c)
  | .ledger (.append draft) => guardAppend draft
  | c => do
    let answer ← Prog.perform c
    return .ok answer

abbrev HandlerProg (S : Type) (A : S → Type) := Prog (BackendCall S) (GuardedAnswer A) HandlerFailure

def onGuarded {α : Type} (p : HandlerProg S A α) : BackendProg S A α := p.interpret guardBackend id

end

section
variable {π S D : Type} {A : S → Type} [PeriodStore π] [ChartStore D]
variable {ownExec : (c : S) → D → A c × D}

/-- The book of record allows the entry: a copy from QuickBooks before any cutover, anything else
once QuickBooks is not the book of record. -/
def Backend.Allows (s : Backend π D) (draft : DraftEntry) : Prop :=
  (isQuickBooksCopy draft = true ∧ s.cutOver draft.tenantId = false) ∨
    (isQuickBooksCopy draft = false ∧ s.inParallelRun draft.tenantId = false)

instance (s : Backend π D) (draft : DraftEntry) : Decidable (s.Allows draft) :=
  inferInstanceAs (Decidable (_ ∨ _))

def AllowedCall : BackendCall S → Backend π D → Prop
  | .ledger (.append draft), s => s.Allows draft
  | _, _ => True

instance : (c : BackendCall S) → (s : Backend π D) → Decidable (AllowedCall c s)
  | .ledger (.append draft), s => inferInstanceAs (Decidable (s.Allows draft))
  | .ledger (.getByIdempotencyKey _ _), _ | .ledger (.getById _ _), _ | .ledger (.status _ _), _
  | .ledger (.periods _), _ | .listEntries _, _ | .getSettings _, _ | .saveSettings _ _, _
  | .getCutover _, _ | .saveCutover _ _, _ | .saveChart _ _, _ | .own _, _ => isTrue trivial

theorem guardAppend_allowed (draft : DraftEntry) (s : Backend π D) :
    (guardAppend draft : BackendProg S A _).EachCall (BackendCall.exec ownExec) AllowedCall s := by
  unfold guardAppend
  split_ifs with hcopy
  · have hread : (cutOver draft.tenantId : BackendProg S A Bool).run (BackendCall.exec ownExec) s =
        (.ok (s.cutOver draft.tenantId), s) := rfl
    rw [Prog.eachCall_bind_of_ok hread]
    refine ⟨⟨trivial, trivial⟩, ?_⟩
    split_ifs with hcut
    · exact trivial
    · exact ⟨.inl ⟨hcopy, Bool.eq_false_iff.mpr hcut⟩, trivial⟩
  · have hread : (inParallelRun draft.tenantId : BackendProg S A Bool).run
        (BackendCall.exec ownExec) s = (.ok (s.inParallelRun draft.tenantId), s) := rfl
    rw [Prog.eachCall_bind_of_ok hread]
    refine ⟨⟨trivial, trivial⟩, ?_⟩
    split_ifs with hpara
    · exact trivial
    · exact ⟨.inr ⟨Bool.eq_false_iff.mpr hcopy, Bool.eq_false_iff.mpr hpara⟩, trivial⟩

theorem guardBackend_allowed (c : BackendCall S) (s : Backend π D) :
    (guardBackend c : BackendProg S A _).EachCall (BackendCall.exec ownExec) AllowedCall s := by
  cases c with
  | ledger c =>
    cases c with
    | append draft => exact guardAppend_allowed draft s
    | _ => exact ⟨trivial, trivial⟩
  | _ => exact ⟨trivial, trivial⟩

theorem onGuarded_allowed {α : Type} (p : HandlerProg S A α) (s : Backend π D) :
    (onGuarded p).EachCall (BackendCall.exec ownExec) AllowedCall s :=
  Prog.eachCall_interpret guardBackend_allowed p s

end

/-! The ledger service over the Postgres backend: the route check, the handlers over the guarded
backend, and go-live, which posts in a transaction of its own. -/

/-- The tenant routes that post or reverse an entry, by the path after `/t/<tenant>/`. -/
def isPostingRoute (method : String) (rest : List String) : Bool :=
  if method ≠ "POST" then false
  else
    let second := rest[1]?.getD ""
    let action := rest[2]?.getD ""
    match rest[0]?.getD "" with
    | "entries" => action = "reverse"
    | "ingest" | "invoices" | "bills" | "feed" | "debt" | "assets" => true
    | "purchase-orders" => action = "bill" ∨ action = "receipts"
    | "sales-orders" | "estimates" => action = "invoice"
    | "jobs" => action = "bill" ∨ action = "retainage" ∨ action = "deposits"
    | "inventory" => second = "receipts" ∨ second = "issues" ∨ second = "counts"
    | "wip" => second = "post"
    | "work-orders" => action = "entries"
    | "recurring" => second = "run"
    | "payroll" => second = "remit" ∨
        (second = "runs" ∧ (rest[3]?.getD "" = "post" ∨ rest[3]?.getD "" = "void"))
    | _ => false

structure ServiceRequest where
  method : String
  tenant : TenantId
  rest : List String
  body : String

def ServiceRequest.isGoLive (req : ServiceRequest) : Bool :=
  req.rest[0]? = some "go-live" ∧ req.method = "POST"

/-- What the service is configured with: `handlers` are the routes other than go-live, `parse` reads
a body as a go-live. -/
structure ServiceOptions (S : Type) (A : S → Type) (ρ : Type) where
  handlers : ServiceRequest → HandlerProg S A ρ
  parse : String → Option GoLiveDto
  currencies : String → Option Currency
  now : String

inductive Reply (ρ : Type) where
  | answer (r : ρ)
  | wentLive (result : GoLiveResult)

section
variable {S : Type} {A : S → Type} {ρ : Type}

def onTransaction : (c : GoLiveCall) → BackendProg S A c.Answer
  | .ledger c => Prog.perform (BackendCall.ledger c)
  | .saveChart tenant coa => Prog.perform (BackendCall.saveChart tenant coa)

def settleAccountOrigin (tenant : TenantId) : BackendProg S A Unit := do
  let current ← Prog.perform (BackendCall.getSettings tenant)
  if ¬ (current : AccountSettings).accountOriginBackfilled then
    Prog.perform (BackendCall.saveSettings tenant { current with accountOriginBackfilled := true })
  else return ()

variable (opts : ServiceOptions S A ρ) (req : ServiceRequest)

def goLiveRequest : Except HandlerFailure GoLiveRequest :=
  match opts.parse req.body with
  | none => .error (.thrown "invalid JSON body")
  | some dto => (goLiveFromDto opts.currencies { dto with tenantId := req.tenant }).mapError .cutover

def refuseParallel (tenant : TenantId) (source : SourceSystem) : BackendProg S A Unit := do
  if source ≠ .quickbooks then
    let parallel ← inParallelRun tenant
    Prog.refuseIf (parallel = true) .bookOfRecord
  else return ()

def goLiveRoute : BackendProg S A GoLiveResult := do
  let request ← Prog.ofExcept (goLiveRequest opts req)
  refuseParallel req.tenant request.sourceSystem
  let result ← (executeGoLive request opts.now ⟨true, .sequentially⟩).interpret onTransaction .cutover
  settleAccountOrigin req.tenant
  return result

def refuseRoute : BackendProg S A Unit := do
  if isPostingRoute req.method req.rest then
    let parallel ← inParallelRun req.tenant
    Prog.refuseIf (parallel = true) .bookOfRecord
  else return ()

def handle : BackendProg S A (Reply ρ) := do
  refuseRoute req
  if req.isGoLive then
    let result ← goLiveRoute opts req
    return .wentLive result
  else
    let r ← onGuarded (opts.handlers req)
    return .answer r

def serve {π D : Type} [PeriodStore π] [ChartStore D] (ownExec : (c : S) → D → A c × D)
    (opts : ServiceOptions S A ρ) (s : Backend π D) (req : ServiceRequest) :
    Except HandlerFailure (Reply ρ) × Backend π D :=
  match req.isGoLive, (handle opts req).run (BackendCall.exec ownExec) s with
  | true, (.error f, _) => (.error f, s)
  | _, ended => ended

end
end Rgnr8.Service
