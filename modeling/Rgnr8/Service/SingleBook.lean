import Rgnr8.Kernel.AppendCalls
import Rgnr8.Kernel.GoLiveRuns
import Rgnr8.Service.BookOfRecord

/-! One book of record at a time: what the service appends, over every route and every state. -/

namespace Rgnr8.Service
open Lib Kernel Settings Prog
variable {π S D : Type} {A : S → Type} {ρ : Type} [PeriodStore π] [ChartStore D]
variable {ownExec : (c : S) → D → A c × D} {opts : ServiceOptions S A ρ} {req : ServiceRequest}
variable {request : GoLiveRequest} {s : Backend π D}

/-- The go-live posts an opening entry: its body is a go-live, the route check lets it through and
the ledger takes its entry. -/
def Backend.Opens (s : Backend π D) (opts : ServiceOptions S A ρ) (req : ServiceRequest)
    (request : GoLiveRequest) : Prop :=
  goLiveRequest opts req = .ok request ∧
    ¬ (request.sourceSystem ≠ .quickbooks ∧ s.inParallelRun req.tenant = true) ∧
    ∃ coa created command, buildGoLiveChart request = .ok (coa, created) ∧
      buildOpeningBalanceEntry (planOf request) = .ok command ∧ s.ledger.Appends coa command

def Backend.AllowsOpening (s : Backend π D) (request : GoLiveRequest) : Prop :=
  if request.provenance.sourceSystem = quickbooksSource then s.cutOver request.tenantId = false
  else s.inParallelRun request.tenantId = false

instance (s : Backend π D) (request : GoLiveRequest) : Decidable (s.AllowsOpening request) :=
  inferInstanceAs (Decidable (ite _ _ _))

theorem startsWith_append (p rest : String) : startsWith (p ++ rest) p = true := by
  unfold startsWith
  rw [String.toList_append, List.isPrefixOf_iff_prefix]
  exact List.prefix_append ..

theorem isQuickBooksCopy_opening {command : PostCommand} {postedAt : String}
    (hbuild : buildOpeningBalanceEntry (planOf request) = .ok command) :
    isQuickBooksCopy (PostingEngine.draftOfCommand command ⟨postedAt⟩ command.lines) =
      decide (request.provenance.sourceSystem = quickbooksSource) := by
  have hkey : startsWith command.idempotencyKey openingKeyPrefix = true := by
    rw [key_of_build hbuild]
    exact startsWith_append openingPrefix _
  have hprov : command.provenance = request.provenance := by
    rw [openingCommand_of_build hbuild]
    rfl
  unfold isQuickBooksCopy PostingEngine.draftOfCommand
  simp only [hkey, hprov, or_true, and_true]

omit [ChartStore D] [PeriodStore π] in
theorem allows_opening_iff {command : PostCommand} {postedAt : String}
    (hbuild : buildOpeningBalanceEntry (planOf request) = .ok command) :
    s.Allows (PostingEngine.draftOfCommand command ⟨postedAt⟩ command.lines) ↔
      s.AllowsOpening request := by
  have htenant : (PostingEngine.draftOfCommand command ⟨postedAt⟩ command.lines).tenantId =
      request.tenantId := tenantId_of_build hbuild
  unfold Backend.Allows Backend.AllowsOpening
  rw [isQuickBooksCopy_opening hbuild, htenant]
  by_cases hsrc : request.provenance.sourceSystem = quickbooksSource
  · simp [hsrc]
  · simp [hsrc]

def Backend.transaction (s : Backend π D) : GoLiveStores π D := ⟨s.ledger, s.own⟩

def Backend.committed (t : GoLiveStores π D) (s : Backend π D) : Backend π D :=
  { s with ledger := t.ledger, own := t.charts }

theorem eachCall_transaction {α : Type} (p : GoLiveProg α) (s : Backend π D) :
    (p.interpret (onTransaction (A := A)) HandlerFailure.cutover).EachCall
        (BackendCall.exec ownExec) AllowedCall s ↔
      p.EachCall GoLiveCall.exec (fun c _ => c.AppendsOnly s.Allows) s.transaction := by
  have hexec : ∀ (c : GoLiveCall) (s : Backend π D),
      (onTransaction (A := A) c).run (BackendCall.exec ownExec) s =
        (.ok (c.exec s.transaction).1, s.committed (c.exec s.transaction).2) := by
    intro c s
    cases c <;> rfl
  refine (eachCall_interpret_iff GoLiveCall.exec Backend.transaction
    (fun t s => s.committed t) (fun _ _ => rfl) (fun _ _ _ => rfl) (fun _ => rfl) hexec p s).trans ?_
  have hcalls : ∀ (c : GoLiveCall) (t : GoLiveStores π D),
      (onTransaction (A := A) c).EachCall (BackendCall.exec ownExec) AllowedCall (s.committed t) ↔
        c.AppendsOnly s.Allows := by
    intro c t
    cases c with
    | ledger c => cases c <;> exact eachCall_perform
    | saveChart tenant coa => exact eachCall_perform
  simp only [hcalls]

variable (tenant : TenantId)

theorem eachCall_settle (s : Backend π D) :
    (settleAccountOrigin tenant : BackendProg S A Unit).EachCall (BackendCall.exec ownExec)
      AllowedCall s := by
  refine ⟨trivial, ?_⟩
  show Prog.EachCall _ _ (if _ then _ else _) _
  split_ifs
  · trivial
  · exact ⟨trivial, trivial⟩

theorem eachCall_refuseIf (p : Prop) [Decidable p] (f : HandlerFailure) (s : Backend π D) :
    (Prog.refuseIf p f : BackendProg S A Unit).EachCall (BackendCall.exec ownExec) AllowedCall s := by
  unfold refuseIf
  split_ifs <;> trivial

theorem eachCall_refuseRoute (req : ServiceRequest) (s : Backend π D) :
    (refuseRoute req : BackendProg S A Unit).EachCall (BackendCall.exec ownExec) AllowedCall s := by
  unfold refuseRoute
  split_ifs
  · exact ⟨trivial, eachCall_refuseIf ..⟩
  · trivial

theorem eachCall_refuseParallel (source : SourceSystem) (s : Backend π D) :
    (refuseParallel tenant source : BackendProg S A Unit).EachCall (BackendCall.exec ownExec)
      AllowedCall s := by
  unfold refuseParallel
  split_ifs
  · exact ⟨trivial, eachCall_refuseIf ..⟩
  · trivial

variable (ownExec) in
theorem run_refuseParallel (source : SourceSystem) (s : Backend π D) :
    (refuseParallel tenant source : BackendProg S A Unit).run (BackendCall.exec ownExec) s =
      (if source ≠ .quickbooks ∧ s.inParallelRun tenant = true then .error .bookOfRecord else .ok (),
        s) := by
  unfold refuseParallel
  by_cases hsrc : source ≠ .quickbooks
  · rw [if_pos hsrc]
    show run _ (refuseIf (s.inParallelRun tenant = true) _) s = _
    by_cases hpara : s.inParallelRun tenant = true
    · rw [refuseIf_pos hpara, if_pos ⟨hsrc, hpara⟩]
      rfl
    · rw [refuseIf_neg hpara, if_neg fun h => hpara h.2]
      rfl
  · rw [if_neg hsrc, if_neg fun h => hsrc h.1]
    rfl

theorem run_refuseRoute_of_goLive (h : req.isGoLive = true) (s : Backend π D) :
    (refuseRoute req : BackendProg S A Unit).run (BackendCall.exec ownExec) s = (.ok (), s) := by
  have hroute : isPostingRoute req.method req.rest = false := by
    unfold ServiceRequest.isGoLive at h
    obtain ⟨hhead, -⟩ := of_decide_eq_true h
    unfold isPostingRoute
    rw [hhead]
    exact ite_self _
  unfold refuseRoute
  rw [hroute]
  rfl

theorem goLiveRoute_allowed_iff (s : Backend π D) :
    (goLiveRoute opts req).EachCall (BackendCall.exec ownExec) AllowedCall s ↔
      ∀ request, s.Opens opts req request → s.AllowsOpening request := by
  unfold goLiveRoute
  cases hreq : goLiveRequest opts req with
  | error f => exact iff_of_true trivial fun request h => by cases hreq.symm.trans h.1
  | ok request =>
    show Prog.EachCall _ _ (refuseParallel req.tenant request.sourceSystem >>= _) s ↔ _
    have hrun := run_refuseParallel ownExec req.tenant request.sourceSystem s
    -- refused in a parallel run: nothing is posted
    by_cases href : request.sourceSystem ≠ .quickbooks ∧ s.inParallelRun req.tenant = true
    · rw [if_pos href] at hrun
      rw [eachCall_bind]
      refine iff_of_true ⟨eachCall_refuseParallel .., fun u s' h => ?_⟩ fun request' h => ?_
      · rw [hrun] at h
        cases h
      · obtain rfl := Except.ok.inj (hreq.symm.trans h.1)
        exact absurd href h.2.1
    · rw [if_neg href] at hrun
      rw [eachCall_bind_of_ok hrun, and_iff_right (eachCall_refuseParallel ..),
        eachCall_bind, eachCall_transaction, executeGoLive_appendsOnly]
      have hset : ∀ (result : GoLiveResult) (s' : Backend π D),
          (settleAccountOrigin req.tenant >>= fun _ => pure result :
            BackendProg S A GoLiveResult).EachCall (BackendCall.exec ownExec) AllowedCall s' :=
        fun result s' => eachCall_bind_ret.mpr (eachCall_settle ..)
      rw [and_iff_left fun result s' _ => hset result s']
      constructor
      · rintro h request' ⟨hreq', -, coa, created, command, hchart, hbuild, happends⟩
        obtain rfl := Except.ok.inj (hreq.symm.trans hreq')
        exact (allows_opening_iff hbuild).mp (h coa created command hchart hbuild happends)
      · intro h coa created command hchart hbuild happends
        exact (allows_opening_iff hbuild).mpr
          (h request ⟨hreq, href, coa, created, command, hchart, hbuild, happends⟩)

/-- Whatever state it finds and whatever route it takes, a request appends only what the book of
record allows, unless it is a go-live whose opening entry the book of record does not allow. -/
theorem handle_allowed_iff (opts : ServiceOptions S A ρ) (req : ServiceRequest)
    (s : Backend π D) : (handle opts req).EachCall (BackendCall.exec ownExec) AllowedCall s ↔
      (req.isGoLive = true → ∀ request, s.Opens opts req request → s.AllowsOpening request) := by
  unfold handle
  by_cases hgoL : req.isGoLive = true
  · rw [eachCall_bind_of_ok (run_refuseRoute_of_goLive hgoL s),
      and_iff_right (eachCall_refuseRoute ..), if_pos hgoL]
    refine eachCall_bind_ret.trans ((goLiveRoute_allowed_iff s).trans ?_)
    exact ⟨fun h _ => h, fun h => h hgoL⟩
  · refine iff_of_true (eachCall_bind.mpr ⟨eachCall_refuseRoute .., fun u s' _ => ?_⟩)
      fun h => absurd h hgoL
    rw [if_neg hgoL]
    exact eachCall_bind_ret.mpr (onGuarded_allowed ..)

/-- A run of the service appends only what the book of record allows exactly when its go-lives
do. -/
theorem single_book_iff (ownExec : (c : S) → D → A c × D) (opts : ServiceOptions S A ρ)
    (s : Backend π D) (requests : List ServiceRequest) :
    EachStep (fun s req => (serve ownExec opts s req).2)
        (fun s req => (handle opts req).EachCall (BackendCall.exec ownExec) AllowedCall s)
        s requests ↔
      EachStep (fun s req => (serve ownExec opts s req).2)
        (fun s req => req.isGoLive = true →
          ∀ request, s.Opens opts req request → s.AllowsOpening request) s requests :=
  forall_congr' fun _ => forall_congr' fun req => imp_congr_right fun _ =>
    handle_allowed_iff opts req _

namespace BookSample

def service (dto : GoLiveDto) : ServiceOptions Empty (fun _ => Unit) Unit where
  handlers req := do
    if req.rest = ["settings"] then
      let _ ← Prog.perform (BackendCall.saveSettings req.tenant
        { defaultSettings with bookOfRecord := .quickbooks })
    else
      let _ ← Prog.perform (BackendCall.saveCutover req.tenant
        ⟨"2026-03-31", "Owner", "", "2026-04-01", [], .live, ""⟩)
  parse _ := some dto
  currencies code := if code = "USD" then some usd else none
  now := "2026-04-01"

def dto (source : String) : GoLiveDto where
  contract := "go-live/1"
  tenantId := "acme"
  sourceSystem := "quickbooks"
  cutoverDate := "2026-03-31"
  currency := "USD"
  coaCategory := none
  openingBalanceEquityCode := "3900"
  sourceAccounts := [⟨"1000", "Checking", "100", some .bank, none⟩]
  provenance := some ⟨source, "trial_balance", "1", "2026-03-31", "2026-03-31", "2026-03-31",
    "go-live/1", "go-live/1"⟩

def backend : Backend (InMemoryPeriodStore TenantId PeriodKey) InMemoryChartStore :=
  ⟨⟨.empty, .empty⟩, .empty, .empty, .empty⟩

def post (rest : List String) : ServiceRequest := ⟨"POST", "acme", rest, ""⟩

def exec : (c : Empty) → InMemoryChartStore → Unit × InMemoryChartStore := nofun

end BookSample

open BookSample in
theorem go_live_past_the_guard :
    (¬ EachStep (fun s req => (serve exec (service (dto "xero")) s req).2)
      (fun s req => (handle (service (dto "xero")) req).EachCall (BackendCall.exec exec) AllowedCall s)
      backend [post ["settings"], post ["go-live"]]) ∧
    ¬ EachStep (fun s req => (serve exec (service (dto "quickbooks")) s req).2)
      (fun s req =>
        (handle (service (dto "quickbooks")) req).EachCall (BackendCall.exec exec) AllowedCall s)
      backend [post ["cutover"], post ["go-live"]] := by
  simp only [eachStep_cons]
  constructor
  · rintro ⟨-, h, -⟩
    revert h
    decide +kernel
  · rintro ⟨-, h, -⟩
    revert h
    decide +kernel

end Rgnr8.Service
