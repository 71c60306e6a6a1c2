import Rgnr8.Kernel.ConcurrentLock
import Rgnr8.Service.ClosePublish

/-! A close-publish request racing a posting request into the same period. The package is computed
from the journal before the period is locked, and a posting call that found the period open appends
without asking again: what it appends after the close has read is not in the package. -/

namespace Rgnr8.Service.ClosePublish
open Lib Lib.Js Kernel Close Service.Statements Prog BackendCall List

/-- All that the package takes from the journal. -/
structure TrialBalances where
  period : Kernel.TrialBalance
  atEnd : Kernel.TrialBalance
  atStart : Kernel.TrialBalance

variable (ctx : StatementsContext) (body : ClosePublishBody)

def trialBalances (journal : List PostedEntry) : TrialBalances where
  period := kernelTrialBalance ctx (periodWindow body.fromDate body.toDate) journal
  atEnd := kernelTrialBalance ctx (endWindow body.toDate) journal
  atStart := kernelTrialBalance ctx (startWindow body.fromDate) journal

def inputOf (tbs : TrialBalances) :
    FinancialPackageInput := packageInput ctx body.periodKey tbs.period tbs.atEnd tbs.atStart

def fingerprintOf (tbs : TrialBalances) :
    String := fingerprintContent (contentOf (inputOf ctx body tbs))

def derivedFingerprint (journal : List PostedEntry) :
    String := fingerprintOf ctx body (trialBalances ctx body journal)

variable (tenant : TenantId)

def Answered (tbs : TrialBalances) : (c : BackendCall) → c.Answer → Prop
  | .entries t, journal => t = tenant → trialBalances ctx body journal = tbs
  | _, _ => True

def PublishesAs (period : PeriodKey) (fingerprint : String) : CloseCall → Prop
  | .putState st => (tenant, period) = (st.tenantId, st.periodKey) → st.status = .published →
      st.packageFingerprint = some fingerprint
  | .ledger c => ∃ op, c = .periods op
  | _ => True

def Guaranteed (period : PeriodKey) (fingerprint : String) : BackendCall → Prop
  | .close c => PublishesAs tenant period fingerprint c
  | _ => True

section
variable {ctx : StatementsContext} {body : ClosePublishBody} {tenant : TenantId}

theorem publishClose_ensures {A : (c : CloseCall) → c.Answer → Prop} (input : PublishCloseInput)
    (t : TenantId) (p : PeriodKey) : (publishClose input).Ensures A
      (PublishesAs t p input.pkg.fingerprint) fun _ => True := by
  -- sealing, whatever was stored of the period: call by call
  have hseal : ∀ existing, (input.sealPeriod existing).Ensures A
      (PublishesAs t p input.pkg.fingerprint) fun _ => True := by
    intro existing
    unfold PublishCloseInput.sealPeriod
    refine ensures_bind (P := fun _ => True) (ensures_ofExcept fun _ _ => trivial)
      fun override _ => ?_
    refine ensures_bind (P := fun _ => True) (ensures_refuseIf fun _ => trivial)
      fun _ _ => ?_
    refine ensures_bind (P := fun _ => True)
      (ensures_perform ⟨_, rfl⟩ fun _ _ => trivial) fun _ _ => ?_
    refine ensures_bind (P := fun _ => True)
      (ensures_perform trivial fun _ _ => trivial) fun saved _ => ?_
    refine ensures_bind (P := fun _ => True) (ensures_ofExcept fun _ _ => trivial)
      fun _ _ => ?_
    exact ensures_bind (P := fun _ => True)
      (ensures_perform (fun _ _ => rfl) fun _ _ => trivial) fun _ _ => trivial
  unfold publishClose
  refine ensures_bind (P := fun _ => True) (ensures_perform trivial fun _ _ => trivial)
    fun existing _ => ?_
  cases existing with
  | none => exact hseal none
  | some st =>
    dsimp only
    split_ifs
    · trivial
    · trivial
    · exact hseal (some st)

theorem buildPackageInput_ensures {Q : BackendCall → Prop} {tbs : TrialBalances}
    (hQ : Q (.entries tenant)) :
    (buildPackageInput ctx tenant body.fromDate body.toDate body.periodKey).Ensures
      (Answered ctx body tenant tbs) Q fun input => input = inputOf ctx body tbs := by
  have hread : (perform (entries tenant) :
      BackendProg (List PostedEntry)).Ensures (Answered ctx body tenant tbs) Q
        fun journal => trialBalances ctx body journal = tbs :=
    ensures_perform hQ fun _ h => h rfl
  unfold buildPackageInput
  refine ensures_bind hread fun first hfst => ?_
  refine ensures_bind hread fun second hsec => ?_
  refine ensures_bind hread fun third hthird => ?_
  unfold inputOf
  have hper : (trialBalances ctx body first).period = tbs.period := congrArg _ hfst
  have hend : (trialBalances ctx body second).atEnd = tbs.atEnd := congrArg _ hsec
  have hstart : (trialBalances ctx body third).atStart = tbs.atStart := congrArg _ hthird
  rw [← hper, ← hend, ← hstart]
  rfl

variable {A : (c : BackendCall) → c.Answer → Prop}

theorem bankReconciliations_ensures {t p fp} (periodEnd : String) (signed : OrderedMap String Int)
    (accounts : List Account) :
    (bankReconciliations tenant periodEnd signed accounts).Ensures A (Guaranteed t p fp)
      fun _ => True := by
  induction accounts with
  | nil => trivial
  | cons acct accounts ih =>
    unfold bankReconciliations
    split_ifs
    · exact ih
    · refine ensures_bind (P := fun _ => True)
        (ensures_perform trivial fun _ _ => trivial) fun _ _ => ?_
      exact ensures_bind ih fun _ _ => trivial

theorem controlTie_ensures {t p fp} (signed : OrderedMap String Int) (subtype : AccountSubtype)
    (creditNormal : Bool) (kind : DocKind) (name : String) :
    (controlTie ctx tenant signed subtype creditNormal kind name).Ensures A (Guaranteed t p fp)
      fun _ => True := by
  unfold controlTie
  split_ifs
  · exact ensures_bind (P := fun _ => True)
      (ensures_perform trivial fun _ _ => trivial) fun _ _ => trivial
  · trivial

theorem computeCloseGate_ensures {t p fp} (periodEnd : String) (tbInBalance requireSignOff : Bool) :
    (computeCloseGate ctx tenant periodEnd tbInBalance requireSignOff).Ensures A
      (Guaranteed t p fp) fun _ => True := by
  unfold computeCloseGate
  refine ensures_bind (P := fun _ => True) (ensures_perform trivial fun _ _ => trivial)
    fun journal _ => ?_
  refine ensures_bind (bankReconciliations_ensures _ _ _) fun _ _ => ?_
  refine ensures_bind (controlTie_ensures _ _ _ _ _) fun _ _ => ?_
  exact ensures_bind (controlTie_ensures _ _ _ _ _) fun _ _ => trivial

theorem closePublish_ensures (now : String) (tbs : TrialBalances) :
    (closePublish ctx tenant now body).Ensures (Answered ctx body tenant tbs)
      (Guaranteed tenant body.periodKey (fingerprintOf ctx body tbs)) fun _ => True := by
  unfold closePublish
  refine ensures_bind (P := fun _ => True) (ensures_refuseIf fun _ => trivial)
    fun _ _ => ?_
  refine ensures_bind (P := fun _ => True) (ensures_refuseIf fun _ => trivial)
    fun _ _ => ?_
  refine ensures_bind (P := fun _ => True) (ensures_refuseIf fun _ => trivial)
    fun _ _ => ?_
  refine ensures_bind (buildPackageInput_ensures trivial) fun input hinput => ?_
  refine ensures_bind (P := fun pkg => pkg.fingerprint = fingerprintOf ctx body tbs)
    (ensures_ofExcept fun pkg hpkg => ?_) fun pkg hpkg => ?_
  · rw [(buildFinancialPackage_eq_ok (Fallible.mapError_eq_ok.mp hpkg)).2.1, hinput]
    rfl
  · refine ensures_bind (computeCloseGate_ensures _ _ _) fun gate _ => ?_
    refine ensures_interpret
      (publishClose_ensures (A := fun _ _ => True) _ tenant body.periodKey) fun c hc => ?_
    rw [← hpkg]
    exact ensures_perform hc fun _ _ => trivial

end

abbrev raceAnswer : Bool → Type
  | false => PostedEntry
  | true => CloseState

abbrev RacePool (π τ : Type) :=
  Pool BackendCall BackendCall.Answer RequestError Bool raceAnswer (BackendStores π τ)

def onLedger (c : LedgerCall) : BackendProg c.Answer :=
  Prog.perform (BackendCall.close (.ledger c))

def closeRace {π τ : Type} (ctx : StatementsContext) (body : ClosePublishBody) (now : String)
    (c : PostingCall) (s : BackendStores π τ) : RacePool π τ where
  state := s
  proc
    | false => (c.program ctx.chart).interpret onLedger .posting
    | true => closePublish ctx c.tenant now body

section
variable {π τ : Type} [PeriodStore π] [PackageStore τ]
variable {ctx : StatementsContext} {body : ClosePublishBody} {now : String} {c : PostingCall}
variable {w : RacePool π τ}

def IsPublished (s : BackendStores π τ) (t : TenantId) (p : PeriodKey) : Prop :=
  ∃ st, s.close.state t p = some st ∧ st.status = .published

def SealedBooks (ctx : StatementsContext) (body : ClosePublishBody) (t : TenantId)
    (s : BackendStores π τ) : Prop :=
  ∀ st, s.close.state t body.periodKey = some st → st.status = .published →
    st.packageFingerprint = some (derivedFingerprint ctx body (s.journal t))

/-- The next move of the posting call changes no trial balance that the package is drawn from. -/
def KeepsBooks (ctx : StatementsContext) (body : ClosePublishBody) (t : TenantId)
    (w : RacePool π τ) : Prop :=
  trialBalances ctx body ((w.step BackendCall.exec false).state.journal t) =
    trialBalances ctx body (w.state.journal t)

theorem next_onLedger (q : LedgerProg PostedEntry) (s : BackendStores π τ) :
    (q.interpret onLedger RequestError.posting).next BackendCall.exec s =
      (q.next LedgerCall.exec s.close.ledger).interpret onLedger .posting := by
  cases q <;> rfl

theorem effect_onLedger (q : LedgerProg PostedEntry) (s : BackendStores π τ) :
    (q.interpret onLedger RequestError.posting).effect BackendCall.exec s =
      { s with close.ledger := q.effect LedgerCall.exec s.close.ledger } := by
  cases q <;> rfl

structure Poster (ctx : StatementsContext) (c : PostingCall) (w : RacePool π τ)
    (q : LedgerProg PostedEntry) : Prop where
  stage : CallStage ctx.chart c q
  proc_eq : w.proc false = q.interpret onLedger .posting

theorem Poster.step_false {q : LedgerProg PostedEntry} (h : Poster ctx c w q) :
    Poster ctx c (w.step BackendCall.exec false) (q.next LedgerCall.exec w.state.close.ledger) ∧
      (w.step BackendCall.exec false).state =
        { w.state with close.ledger := q.effect LedgerCall.exec w.state.close.ledger } := by
  refine ⟨⟨h.stage.next _, ?_⟩, ?_⟩
  · rw [Pool.step_proc_self, h.proc_eq, next_onLedger]
  · rw [Pool.step_state, h.proc_eq, effect_onLedger]

theorem Poster.step_true {q : LedgerProg PostedEntry} (h : Poster ctx c w q) :
    Poster ctx c (w.step BackendCall.exec true) q := by
  refine ⟨h.stage, ?_⟩
  rw [Pool.step_proc_ne w (by decide)]
  exact h.proc_eq

/-- Before the close request has made its first move: where the period is published already, it is
locked, and the posting call has not come through to its append. -/
structure Unread (ctx : StatementsContext) (body : ClosePublishBody) (now : String)
    (c : PostingCall) (w : RacePool π τ) : Prop where
  books : SealedBooks ctx body c.tenant w.state
  closer : w.proc true = closePublish ctx c.tenant now body
  poster : ∃ q, Poster ctx c w q ∧ (IsPublished w.state c.tenant body.periodKey →
    PeriodStore.status w.state.close.ledger.periods c.tenant c.period = .locked ∧
      ¬ LateAppend w.state.close.ledger q)

/-- Afterwards: the close request relies on the journal as it is. -/
structure Reading (ctx : StatementsContext) (body : ClosePublishBody) (c : PostingCall)
    (w : RacePool π τ) : Prop where
  books : SealedBooks ctx body c.tenant w.state
  closer : (w.proc true).Ensures
    (Answered ctx body c.tenant (trialBalances ctx body (w.state.journal c.tenant)))
    (Guaranteed c.tenant body.periodKey (derivedFingerprint ctx body (w.state.journal c.tenant)))
    fun _ => True
  poster : ∃ q, Poster ctx c w q

variable {sched : List Bool} {t : TenantId}

theorem guaranteed_exec {s : BackendStores π τ} (h : SealedBooks ctx body t s)
    {call : BackendCall}
    (hcall : Guaranteed t body.periodKey (derivedFingerprint ctx body (s.journal t)) call) :
    (call.exec s).2.journal t = s.journal t ∧ SealedBooks ctx body t (call.exec s).2 := by
  cases call with
  | entries => exact ⟨rfl, h⟩
  | reconciledThrough => exact ⟨rfl, h⟩
  | listDocs => exact ⟨rfl, h⟩
  | close c =>
    cases c with
    | getState => exact ⟨rfl, h⟩
    | ledger c =>
      obtain ⟨op, rfl⟩ := hcall
      exact ⟨rfl, h⟩
    | savePackage t' pkg =>
      simp only [exec, CloseCall.exec]
      cases PackageStore.save s.close.packages t' pkg with
      | error e => exact ⟨rfl, h⟩
      | ok packages => exact ⟨rfl, h⟩
    | putState st =>
      refine ⟨rfl, fun st' hst' hstatus => ?_⟩
      have hput : (s.close.put st).state t body.periodKey = some st' := hst'
      unfold CloseStores.put CloseStores.state at hput
      rw [OrderedMap.get?_set] at hput
      split_ifs at hput with hkey
      · rw [← Option.some.inj hput] at hstatus ⊢
        exact hcall hkey hstatus
      · exact h st' hput hstatus

theorem reading_step_true {tbs : TrialBalances}
    (htbs : trialBalances ctx body (w.state.journal c.tenant) = tbs)
    (hbooks : SealedBooks ctx body c.tenant w.state)
    (hclos : (w.proc true).Ensures (Answered ctx body c.tenant tbs)
      (Guaranteed c.tenant body.periodKey (fingerprintOf ctx body tbs)) fun _ => True)
    (hpost : ∃ q, Poster ctx c w q) : Reading ctx body c (w.step BackendCall.exec true) := by
  subst htbs
  obtain ⟨q, hq⟩ := hpost
  have hstep : (w.step exec true).state.journal c.tenant = w.state.journal c.tenant ∧
      SealedBooks ctx body c.tenant (w.step exec true).state := by
    rw [Pool.step_state]
    rcases hclos.effect (s := w.state) with hsame | ⟨call, hcall, heff⟩
    · rw [hsame]
      exact ⟨rfl, hbooks⟩
    · rw [heff]
      exact guaranteed_exec hbooks hcall
  refine ⟨hstep.2, ?_, q, hq.step_true⟩
  rw [hstep.1, Pool.step_proc_self]
  refine hclos.next fun call => ?_
  cases call with
  | entries t =>
    rintro rfl
    rfl
  | _ => trivial

theorem Unread.step_true (h : Unread ctx body now c w) :
    Reading ctx body c (w.step BackendCall.exec true) := by
  obtain ⟨q, hq, -⟩ := h.poster
  refine reading_step_true rfl h.books ?_ ⟨q, hq⟩
  rw [h.closer]
  exact closePublish_ensures now _

theorem Unread.step_false (h : Unread ctx body now c w) :
    Unread ctx body now c (w.step BackendCall.exec false) := by
  obtain ⟨q, hq, hbloc⟩ := h.poster
  obtain ⟨hq', hstate⟩ := hq.step_false
  have hpub : IsPublished (w.step exec false).state c.tenant body.periodKey ↔
      IsPublished w.state c.tenant body.periodKey := by
    rw [hstate]
    rfl
  have hstays : IsPublished w.state c.tenant body.periodKey →
      q.effect LedgerCall.exec w.state.close.ledger = w.state.close.ledger ∧
        ¬ LateAppend w.state.close.ledger (q.next LedgerCall.exec w.state.close.ledger) :=
    fun hp => hq.stage.blocked (hbloc hp).2 (hbloc hp).1
  refine ⟨fun st hst hstatus => ?_, ?_, _, hq', fun hp => ?_⟩
  · have hst' : w.state.close.state c.tenant body.periodKey = some st := by
      rw [hstate] at hst
      exact hst
    rw [hstate, (hstays ⟨st, hst', hstatus⟩).1]
    exact h.books st hst' hstatus
  · rw [Pool.step_proc_ne w (by decide)]
    exact h.closer
  · rw [hpub] at hp
    rw [hstate]
    show PeriodStore.status (q.effect LedgerCall.exec w.state.close.ledger).periods _ _ = _ ∧
      ¬ LateAppend (q.effect LedgerCall.exec w.state.close.ledger) _
    rw [(hstays hp).1]
    exact ⟨(hbloc hp).1, (hstays hp).2⟩

theorem Reading.step_true (h : Reading ctx body c w) :
    Reading ctx body c (w.step BackendCall.exec true) :=
  reading_step_true rfl h.books h.closer h.poster

theorem Reading.step_false (h : Reading ctx body c w) (hkeeps : KeepsBooks ctx body c.tenant w) :
    Reading ctx body c (w.step BackendCall.exec false) := by
  obtain ⟨q, hq⟩ := h.poster
  obtain ⟨hq', hstate⟩ := hq.step_false
  unfold KeepsBooks at hkeeps
  refine ⟨fun st hst hstatus => ?_, ?_, _, hq'⟩
  · have hst' : w.state.close.state c.tenant body.periodKey = some st := by
      rw [hstate] at hst
      exact hst
    unfold derivedFingerprint
    rw [hkeeps]
    exact h.books st hst' hstatus
  · unfold derivedFingerprint
    rw [hkeeps, Pool.step_proc_ne w (by decide)]
    exact h.closer

/-- From the first move of the close request on, no move of the posting call changes a trial balance
that the package is drawn from. -/
def InTime (ctx : StatementsContext) (body : ClosePublishBody) (t : TenantId) (w : RacePool π τ)
    (sched : List Bool) : Prop :=
  ∀ pre, pre ++ [false] <+: sched → true ∈ pre →
    KeepsBooks ctx body t (w.runSchedule BackendCall.exec pre)

theorem inTime_cons {i : Bool} (h : InTime ctx body t w (i :: sched)) :
    InTime ctx body t (w.step BackendCall.exec i) sched := fun pre hpre hread =>
  h (i :: pre) (cons_prefix_cons.mpr ⟨rfl, hpre⟩) (mem_cons_of_mem _ hread)

theorem Reading.run (h : Reading ctx body c w) (hkeeps : ∀ pre, pre ++ [false] <+: sched →
      KeepsBooks ctx body c.tenant (w.runSchedule BackendCall.exec pre)) :
    Reading ctx body c (w.runSchedule BackendCall.exec sched) := by
  induction sched generalizing w with
  | nil => exact h
  | cons i sched ih =>
    rw [Pool.runSchedule_cons]
    have hrest : ∀ pre, pre ++ [false] <+: sched → KeepsBooks ctx body c.tenant
        ((w.step exec i).runSchedule exec pre) := fun pre hpre =>
      hkeeps (i :: pre) (cons_prefix_cons.mpr ⟨rfl, hpre⟩)
    cases i with
    | false =>
      have hnow := hkeeps [] (cons_prefix_cons.mpr ⟨rfl, nil_prefix⟩)
      exact ih (h.step_false hnow) hrest
    | true => exact ih h.step_true hrest

theorem Unread.run (h : Unread ctx body now c w) (hint : InTime ctx body c.tenant w sched) :
    SealedBooks ctx body c.tenant (w.runSchedule BackendCall.exec sched).state := by
  induction sched generalizing w with
  | nil => exact h.books
  | cons i sched ih =>
    rw [Pool.runSchedule_cons]
    cases i with
    | false => exact ih h.step_false (inTime_cons hint)
    | true =>
      refine (h.step_true.run fun pre hpre => ?_).books
      exact hint (true :: pre) (cons_prefix_cons.mpr ⟨rfl, hpre⟩) (mem_cons_self ..)

/-- A state to start from: a period that is published already is locked, and sealed over its
books. -/
structure SoundStart (ctx : StatementsContext) (body : ClosePublishBody) (t : TenantId)
    (s : BackendStores π τ) : Prop where
  books : SealedBooks ctx body t s
  locked : IsPublished s t body.periodKey → s.close.lockStatus t body.periodKey = .locked

omit [PackageStore τ] in
theorem unread_closeRace {s : BackendStores π τ} (h : SoundStart ctx body c.tenant s)
    (hper : c.period = body.periodKey) :
    Unread ctx body now c (closeRace ctx body now c s) := by
  refine ⟨h.books, rfl, _, ⟨.lookup, rfl⟩, fun hp => ⟨?_, ?_⟩⟩
  · rw [hper]
    exact h.locked hp
  · cases c with
    | post command opts =>
      rw [PostingCall.program, PostingEngine.post, PostingEngine.settle_eq]
      exact id
    | reverse tenant originalId opts =>
      rw [PostingCall.program, PostingEngine.reverse_eq]
      exact id

theorem inTime_of_true {n : Nat} : InTime ctx body t w (List.replicate n true) := by
  intro pre hpre
  have hmem := hpre.subset (mem_append_right pre (mem_singleton_self false))
  cases eq_of_mem_replicate hmem

theorem inTime_false (h : InTime ctx body t (w.step BackendCall.exec false) sched) :
    InTime ctx body t w (false :: sched) := by
  intro pre hpre hread
  cases pre with
  | nil => exact absurd hread not_mem_nil
  | cons i pre =>
    obtain ⟨rfl, hrest⟩ := cons_prefix_cons.mp hpre
    exact h pre hrest ((mem_cons.mp hread).resolve_left (by decide))

end

/-- Whatever the order of the steps: if the posting call changes nothing that the package is drawn
from once the close request has begun to read, the sealed package is the books. -/
theorem sealed_package_is_books {π τ : Type} [PeriodStore π] [PackageStore τ]
    (ctx : StatementsContext) (body : ClosePublishBody) (now : String) (c : PostingCall)
    (hperiod : c.period = body.periodKey) (s : BackendStores π τ)
    (hstart : SoundStart ctx body c.tenant s) (sched : List Bool)
    (hintime : InTime ctx body c.tenant (closeRace ctx body now c s) sched) :
    SealedBooks ctx body c.tenant
      ((closeRace ctx body now c s).runSchedule BackendCall.exec sched).state :=
  (unread_closeRace hstart hperiod).run hintime

namespace Sample

def context : StatementsContext := ⟨fun _ _ => true, Kernel.Sample.chart, usd⟩

def august : ClosePublishBody where
  fromDate := "2026-08-01"
  toDate := "2026-08-31"
  publishedBy := "sam"
  preparedBy := ""
  period := ""
  override := true
  overrideReason := "first close"
  requireSignoff := false

def sale : PostingCall := .post (Kernel.Sample.sale none) ⟨"2026-08-01"⟩

def start : BackendStores (InMemoryPeriodStore TenantId PeriodKey) InMemoryPackageStore :=
  ⟨⟨⟨.empty, .empty⟩, .empty, .empty⟩, .empty, .empty⟩

def raceAfter (sched : List Bool) :
    RacePool (InMemoryPeriodStore TenantId PeriodKey) InMemoryPackageStore :=
  (closeRace context august "2026-09-01" sale start).runSchedule BackendCall.exec sched

end Sample

open Service.ClosePublish.Sample in
theorem sale_before_close : SealedBooks context august "acme"
    (raceAfter ([false, false, false] ++ List.replicate 8 true)).state :=
  sealed_package_is_books context august "2026-09-01" sale (by decide) start
    ⟨fun _ h => (nomatch h), fun h => (nomatch h.choose_spec.1)⟩ _
    (inTime_false (inTime_false (inTime_false inTime_of_true)))

/-- The sale finds August open, the close runs to its end, and the sale is appended. -/
def Sample.lateSale : BackendStores (InMemoryPeriodStore TenantId PeriodKey) InMemoryPackageStore :=
  (raceAfter ([false, false] ++ List.replicate 8 true ++ [false])).state

open Service.ClosePublish.Sample in
theorem sale_after_close : ¬ SealedBooks context august "acme" lateSale := by
  have hseal : (lateSale.close.state "acme" "2026-08").map (fun st => (st.status,
      decide (st.packageFingerprint =
        some (derivedFingerprint context august (lateSale.journal "acme"))))) =
      some (.published, false) := by decide +kernel
  intro h
  obtain ⟨st, hst, hpub⟩ := Option.map_eq_some_iff.mp hseal
  obtain ⟨hstatus, hdif⟩ := Prod.mk.inj hpub
  exact of_decide_eq_false hdif (h st hst hstatus)

end Rgnr8.Service.ClosePublish
