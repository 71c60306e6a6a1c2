import Rgnr8.Service.Cutover

/-! A cutover stopped halfway is taken back: what each of its writes leaves behind, what a backout
makes of that, and what a new plan finds afterwards. -/

namespace Rgnr8.Service.Cutover
open Lib Lib.Js Kernel Settings Prog OrderedMap List

section
variable {π : Type} {ctx : CutoverContext} {s s' : Backend π OwnStores} {date today : String}
variable {docs : List PlannedDoc}

theorem blocker_eq_nil {p : Prop} [Decidable p] {message : String} :
    blocker p message = [] ↔ ¬ p := by
  unfold blocker
  by_cases h : p
  · rw [if_pos h]
    exact iff_of_false (cons_ne_nil _ _) (not_not.mpr h)
  · rw [if_neg h]
    exact iff_of_true rfl h

theorem dateBlockers_eq_nil {date today : String} :
    dateBlockers date today = [] ↔ isMonthEnd date = true ∧ Before date today := by
  unfold dateBlockers
  by_cases hmonth : isMonthEnd date = true
  · rw [if_neg (not_not.mpr hmonth), blocker_eq_nil, not_not, and_iff_right hmonth]
  · rw [if_pos hmonth]
    exact iff_of_false (cons_ne_nil _ _) fun h => hmonth h.1

local instance lawfulPair : LawfulBEq (DocKind × String) := inferInstance

def docBlockersIn (documents : InMemoryDocumentStore) (tenant : TenantId) :
    List PlannedDoc → (seen : List (DocKind × String)) → List String
  | [], _ => []
  | d :: docs, seen =>
    blocker ((d.kind, d.id) ∈ seen) s!"two open {d.kind.text}s would both be numbered {d.id}" ++
      blocker ((documents.getDoc tenant d.kind d.id).isSome = true)
        s!"an {d.kind.text} numbered {d.id} already exists in RGNR8" ++
      docBlockersIn documents tenant docs ((d.kind, d.id) :: seen)

theorem absent_of_docBlockersIn {documents : InMemoryDocumentStore} {tenant : TenantId}
    {docs : List PlannedDoc} {seen : List (DocKind × String)}
    (h : docBlockersIn documents tenant docs seen = []) :
    ∀ d ∈ docs, documents.getDoc tenant d.kind d.id = none := by
  induction docs generalizing seen with
  | nil => exact fun d hd => absurd hd not_mem_nil
  | cons d docs ih =>
    rw [docBlockersIn, append_eq_nil_iff, append_eq_nil_iff, blocker_eq_nil,
      blocker_eq_nil] at h
    have hnone : documents.getDoc tenant d.kind d.id = none :=
      Option.not_isSome_iff_eq_none.mp h.1.2
    exact forall_mem_cons.mpr ⟨hnone, ih h.2⟩

theorem docBlockersIn_congr {documents documents' : InMemoryDocumentStore} {tenant : TenantId}
    {docs : List PlannedDoc} (seen : List (DocKind × String))
    (h : ∀ d ∈ docs, documents'.getDoc tenant d.kind d.id = documents.getDoc tenant d.kind d.id) :
    docBlockersIn documents' tenant docs seen = docBlockersIn documents tenant docs seen := by
  induction docs generalizing seen with
  | nil => rfl
  | cons d docs ih =>
    obtain ⟨hd, hdocs⟩ := forall_mem_cons.mp h
    rw [docBlockersIn, docBlockersIn, hd, ih _ hdocs]

def planIn (ctx : CutoverContext) (cutoverDate todayOverride : String)
    (s : Backend π OwnStores) : CutoverPlan :=
  let today := businessToday todayOverride ctx.now
  let entries := s.ledger.journal ctx.tenant
  let snapshot := s.own.openItemsOf ctx.tenant
  let docs := snapshot.items.map plannedDoc
  let rows := (computeTrialBalance ctx.localeLe (s.own.chartOf ctx.tenant) ctx.currency none
    entries).rows
  { cutoverDate := cutoverDate
    openItemsAsOf := snapshot.asOf
    docs := docs
    tieOut := tieOutOf docs rows
    blockers := previousBlockers (s.cutovers.get? ctx.tenant) ++
      bookBlockers (s.settingsOf ctx.tenant) ++ dateBlockers cutoverDate today ++
      entryBlockers cutoverDate entries ++ snapshotBlockers cutoverDate snapshot ++
      docBlockersIn s.own.documents ctx.tenant docs [] ++
      controlBlockers rows .accountsReceivable "receivable" ++
      controlBlockers rows .accountsPayable "payable"
    hash := ctx.sha256 (planText cutoverDate snapshot.asOf docs (tieOutOf docs rows)
      entries.length) }

structure Clean (ctx : CutoverContext) (date today : String) (s : Backend π OwnStores) : Prop where
  previous : previousBlockers (s.cutovers.get? ctx.tenant) = []
  book : (s.settingsOf ctx.tenant).bookOfRecord = .quickbooks
  monthEnd : isMonthEnd date = true
  ended : Before date (businessToday today ctx.now)
  entries : entryBlockers date (s.ledger.journal ctx.tenant) = []
  snapshot : snapshotBlockers date (s.own.openItemsOf ctx.tenant) = []
  docs : docBlockersIn s.own.documents ctx.tenant
    ((s.own.openItemsOf ctx.tenant).items.map plannedDoc) [] = []
  controls : controlBlockers (computeTrialBalance ctx.localeLe (s.own.chartOf ctx.tenant)
      ctx.currency none (s.ledger.journal ctx.tenant)).rows .accountsReceivable "receivable" = [] ∧
    controlBlockers (computeTrialBalance ctx.localeLe (s.own.chartOf ctx.tenant) ctx.currency none
      (s.ledger.journal ctx.tenant)).rows .accountsPayable "payable" = []

theorem clean_iff : (planIn ctx date today s).blockers = [] ↔ Clean ctx date today s := by
  unfold planIn
  simp only [append_eq_nil_iff, dateBlockers_eq_nil, bookBlockers, blocker_eq_nil, not_not]
  constructor
  · rintro ⟨⟨⟨⟨⟨⟨⟨h1, h2⟩, h3, h4⟩, h5⟩, h6⟩, h7⟩, h8⟩, h9⟩
    exact ⟨h1, h2, h3, h4, h5, h6, h7, h8, h9⟩
  · rintro ⟨h1, h2, h3, h4, h5, h6, h7, h8, h9⟩
    exact ⟨⟨⟨⟨⟨⟨⟨h1, h2⟩, h3, h4⟩, h5⟩, h6⟩, h7⟩, h8⟩, h9⟩

theorem ownEntries_of_clean (h : Clean ctx date today s) :
    ownEntries (s.ledger.journal ctx.tenant) = [] := by
  have hbloc := h.entries
  unfold entryBlockers at hbloc
  have hnone := blocker_eq_nil.mp (append_eq_nil_iff.mp hbloc).1
  exact length_eq_zero_iff.mp (not_not.mp hnone)

/-- What a plan is made of, but for the settings and the record of the cutover before. -/
structure SameBooks (ctx : CutoverContext) (s s' : Backend π OwnStores) : Prop where
  journal : s'.ledger.journal ctx.tenant = s.ledger.journal ctx.tenant
  openItems : s'.own.openItemsOf ctx.tenant = s.own.openItemsOf ctx.tenant
  chart : s'.own.chartOf ctx.tenant = s.own.chartOf ctx.tenant

/-- The same tenant's side of a later request. -/
def CutoverContext.later (ctx : CutoverContext) (now recordedAt : String) : CutoverContext :=
  { ctx with now := now, recordedAt := recordedAt }

theorem hash_of_same (h : SameBooks ctx s s') (now recordedAt later : String) :
    (planIn (ctx.later now recordedAt) date later s').hash = (planIn ctx date today s).hash := by
  unfold planIn
  show ctx.sha256 _ = ctx.sha256 _
  have hjnl : s'.ledger.journal (ctx.later now recordedAt).tenant =
      s.ledger.journal ctx.tenant := h.journal
  have hitems : s'.own.openItemsOf (ctx.later now recordedAt).tenant =
      s.own.openItemsOf ctx.tenant := h.openItems
  have hchart : s'.own.chartOf (ctx.later now recordedAt).tenant = s.own.chartOf ctx.tenant :=
    h.chart
  rw [hjnl, hitems, hchart]
  rfl

def planned (docs : List PlannedDoc) : List (DocKind × String) := docs.map PlannedDoc.key

/-- A cutover on its way: its record lists the planned documents, and all that is new on file are
some of them, as yet unpaid. -/
structure Begun (ctx : CutoverContext) (docs : List PlannedDoc) (s s' : Backend π OwnStores) :
    Prop where
  books : SameBooks ctx s s'
  record : ∃ record, s'.cutovers.get? ctx.tenant = some record ∧
    record.docs = planned docs ∧ record.state ≠ .backedOut
  documents : ∀ t kind id, s'.own.documents.getDoc t kind id = s.own.documents.getDoc t kind id ∨
    t = ctx.tenant ∧ (kind, id) ∈ planned docs ∧
      ∃ doc, s'.own.documents.getDoc t kind id = some doc ∧ doc.openMinor = doc.totalMinor

theorem unpaid_of_begun {seen : List (DocKind × String)} (h : Begun ctx docs s s')
    (hclean : docBlockersIn s.own.documents ctx.tenant docs seen = []) :
    ∀ key ∈ planned docs, ∀ doc, s'.own.documents.getDoc ctx.tenant key.1 key.2 = some doc →
      doc.openMinor = doc.totalMinor := by
  intro key hkey doc hget
  obtain ⟨d, hd, rfl⟩ := mem_map.mp hkey
  have habs := absent_of_docBlockersIn hclean d hd
  rcases h.documents ctx.tenant d.key.1 d.key.2 with hsame | ⟨-, -, saved, hsav, hopen⟩
  · cases hget.symm.trans (hsame.trans habs)
  · obtain rfl := Option.some.inj (hget.symm.trans hsav)
    exact hopen

def deleteAll (tenant : TenantId) (keys : List (DocKind × String))
    (documents : InMemoryDocumentStore) : InMemoryDocumentStore :=
  keys.foldl (fun documents key => documents.deleteDoc tenant key.1 key.2) documents

theorem getDoc_deleteAll (tenant t : TenantId) (keys : List (DocKind × String))
    (documents : InMemoryDocumentStore) (kind : DocKind) (id : String) :
    (deleteAll tenant keys documents).getDoc t kind id =
      if t = tenant ∧ (kind, id) ∈ keys then none else documents.getDoc t kind id := by
  unfold deleteAll
  induction keys generalizing documents with
  | nil => simp
  | cons key keys ih =>
    rw [foldl_cons, ih, InMemoryDocumentStore.getDoc_deleteDoc]
    have hkey : (kind, id) ∈ key :: keys ↔ (kind = key.1 ∧ id = key.2) ∨ (kind, id) ∈ keys := by
      rw [mem_cons, Prod.ext_iff]
    simp only [hkey]
    by_cases ht : t = tenant
    · by_cases hmem : (kind, id) ∈ keys
      · simp [ht, hmem]
      · simp [ht, hmem]
    · simp [ht]

def backedOut (ctx : CutoverContext) (record : CutoverRecord) (s : Backend π OwnStores) :
    Backend π OwnStores where
  ledger := s.ledger
  settings := s.settings.set ctx.tenant
    { s.settingsOf ctx.tenant with bookOfRecord := .quickbooks }
  cutovers := s.cutovers.set ctx.tenant
    { record with state := .backedOut, backedOutAt := ctx.recordedAt }
  own := { s.own with documents := deleteAll ctx.tenant record.docs s.own.documents }

theorem docs_of_backedOut {t : Backend π OwnStores} {record : CutoverRecord}
    (hclean : Clean ctx date today s) (hrec : record.docs = planned (planIn ctx date today s).docs)
    (now : CutoverContext) (hnow : now.tenant = ctx.tenant) :
    ∀ d ∈ (planIn ctx date today s).docs,
      (backedOut now record t).own.documents.getDoc ctx.tenant d.kind d.id =
        s.own.documents.getDoc ctx.tenant d.kind d.id := by
  intro d hd
  have habs := absent_of_docBlockersIn hclean.docs d hd
  have hkey : (d.kind, d.id) ∈ record.docs := by
    rw [hrec]
    exact mem_map_of_mem hd
  rw [habs]
  exact (getDoc_deleteAll ..).trans (if_pos ⟨hnow.symm, hkey⟩)

theorem before_of_not_before {a b c : String} (h : Before a b) (hc : ¬ Before c b) :
    Before a c := lt_of_lt_of_le h (not_lt.mp hc)

theorem clean_of_backedOut {t : Backend π OwnStores} {record : CutoverRecord}
    (hclean : Clean ctx date today s) (hbooks : SameBooks ctx s t)
    (hrec : record.docs = planned (planIn ctx date today s).docs) (now recordedAt : String)
    {now' recordedAt' today' : String}
    (hclock : ¬ Before (businessToday today' now') (businessToday today ctx.now)) :
    Clean (ctx.later now' recordedAt') date today'
      (backedOut (ctx.later now recordedAt) record t) where
  previous := by
    show previousBlockers (get? (t.cutovers.set ctx.tenant _) ctx.tenant) = []
    rw [get?_set_self]
    exact blocker_eq_nil.mpr nofun
  book := by
    show (Option.getD (get? (t.settings.set ctx.tenant _) ctx.tenant) _).bookOfRecord = _
    rw [get?_set_self]
    rfl
  monthEnd := hclean.monthEnd
  ended := before_of_not_before hclean.ended hclock
  entries := (congrArg (entryBlockers date) hbooks.journal).trans hclean.entries
  snapshot := (congrArg (snapshotBlockers date) hbooks.openItems).trans hclean.snapshot
  docs := by
    have hdocs := docBlockersIn_congr [] (docs_of_backedOut (t := t) hclean hrec
      (ctx.later now recordedAt) rfl)
    have hitems := congrArg (fun snapshot : OpenItemsSnapshot => snapshot.items.map plannedDoc)
      hbooks.openItems
    exact (congrArg (docBlockersIn _ ctx.tenant · []) hitems).trans (hdocs.trans hclean.docs)
  controls := by
    have hrows : computeTrialBalance ctx.localeLe (t.own.chartOf ctx.tenant) ctx.currency none
        (t.ledger.journal ctx.tenant) = computeTrialBalance ctx.localeLe
          (s.own.chartOf ctx.tenant) ctx.currency none (s.ledger.journal ctx.tenant) := by
      rw [hbooks.chart, hbooks.journal]
    have hcon := hclean.controls
    rw [← hrows] at hcon
    exact hcon

section
variable [PeriodStore π]

abbrev exec (c : BackendCall OwnCall) (s : Backend π OwnStores) :
    BackendCall.Answer OwnCall.Answer c × Backend π OwnStores := BackendCall.exec OwnCall.exec c s

theorem run_docBlockers (tenant : TenantId) (docs : List PlannedDoc)
    (seen : List (DocKind × String)) (blockers : List String) (s : Backend π OwnStores) :
    (docBlockers tenant docs seen blockers).run exec s =
      (.ok (blockers ++ docBlockersIn s.own.documents tenant docs seen), s) := by
  induction docs generalizing seen blockers with
  | nil =>
    rw [docBlockersIn, append_nil]
    rfl
  | cons d docs ih =>
    refine (ih _ _).trans ?_
    rw [docBlockersIn, append_assoc, append_assoc, append_assoc]
    rfl

theorem run_planCutover (ctx : CutoverContext) (date today : String) (s : Backend π OwnStores) :
    (planCutover ctx date today).run exec s = (.ok (planIn ctx date today s), s) := by
  unfold planCutover
  show run exec (docBlockers _ _ _ _ >>= _) s = _
  rw [run_bind_ok (run_docBlockers ..)]
  rfl

def Writes (ctx : CutoverContext) (docs : List PlannedDoc) : BackendCall OwnCall → Prop
  | .own (.chart _) | .own (.getParty _ _ _) | .own (.upsertParty _ _ _) => True
  | .own (.saveDoc t doc) =>
    t = ctx.tenant ∧ (doc.kind, doc.id) ∈ planned docs ∧ doc.openMinor = doc.totalMinor
  | .ledger (.periods _) | .saveSettings _ _ => True
  | .saveCutover t record =>
    t = ctx.tenant ∧ record.docs = planned docs ∧ record.state ≠ .backedOut
  | _ => False

theorem Begun.saveDoc {doc : DocRecord} (h : Begun ctx docs s s')
    (hkey : (doc.kind, doc.id) ∈ planned docs) (hopen : doc.openMinor = doc.totalMinor) :
    Begun ctx docs s (exec (.own (.saveDoc ctx.tenant doc)) s').2 := by
  refine ⟨⟨h.books.journal, h.books.openItems, h.books.chart⟩, h.record, fun t kind id => ?_⟩
  have hget : (exec (.own (.saveDoc ctx.tenant doc)) s').2.own.documents.getDoc t kind id =
      if t = ctx.tenant ∧ kind = doc.kind ∧ id = doc.id then some doc
      else s'.own.documents.getDoc t kind id := InMemoryDocumentStore.getDoc_saveDoc ..
  rw [hget]
  split_ifs with hsame
  · obtain ⟨rfl, rfl, rfl⟩ := hsame
    exact .inr ⟨rfl, hkey, doc, rfl, hopen⟩
  · exact h.documents t kind id

theorem Begun.write (c : BackendCall OwnCall) (s' : Backend π OwnStores) (hc : Writes ctx docs c)
    (h : Begun ctx docs s s') : Begun ctx docs s (exec c s').2 := by
  unfold Writes at hc
  split at hc
  · exact h
  · exact h
  · exact ⟨⟨h.books.journal, h.books.openItems, h.books.chart⟩, h.record, h.documents⟩
  · obtain ⟨rfl, hkey, hopen⟩ := hc
    exact h.saveDoc hkey hopen
  · exact ⟨⟨h.books.journal, h.books.openItems, h.books.chart⟩, h.record, h.documents⟩
  · exact ⟨⟨h.books.journal, h.books.openItems, h.books.chart⟩, h.record, h.documents⟩
  · obtain ⟨rfl, hrec⟩ := hc
    exact ⟨⟨h.books.journal, h.books.openItems, h.books.chart⟩,
      ⟨_, get?_set_self .., hrec⟩, h.documents⟩
  · exact hc.elim

theorem makes_ensureParty (d : PlannedDoc) :
    (ensureParty ctx.tenant d).Makes (Writes ctx docs) := by
  refine makes_bind (makes_perform trivial) fun party => ?_
  split_ifs
  · trivial
  · exact makes_perform trivial

theorem makes_makeDocs (date : String) (controls : DocKind → String) {rest : List PlannedDoc}
    (h : rest ⊆ docs) : (makeDocs ctx.tenant date controls rest).Makes (Writes ctx docs) := by
  induction rest with
  | nil => trivial
  | cons d rest ih =>
    obtain ⟨hd, hrest⟩ := cons_subset.mp h
    have hkey : (d.kind, d.id) ∈ planned docs := mem_map_of_mem hd
    refine makes_bind (makes_ensureParty d) fun _ => ?_
    exact makes_bind (makes_perform ⟨rfl, hkey, rfl⟩) fun _ => ih hrest

theorem makes_controlCode (subtype : AccountSubtype) (fallback : String) :
    (controlCode ctx subtype fallback).Makes (Writes ctx docs) :=
  makes_bind (makes_perform trivial) fun _ => trivial

theorem makes_writeCutover {plan : CutoverPlan} (settings : AccountSettings)
    (begun : CutoverRecord) (h : begun.docs = planned plan.docs) :
    (writeCutover ctx plan settings begun).Makes (Writes ctx plan.docs) := by
  have hlive : begun.docs = planned plan.docs ∧ CutoverState.live ≠ CutoverState.backedOut :=
    ⟨h, by decide⟩
  refine makes_bind (makes_controlCode ..) fun arCode => ?_
  refine makes_bind (makes_controlCode ..) fun apCode => ?_
  refine makes_bind (makes_makeDocs _ _ (List.Subset.refl _)) fun _ => ?_
  refine makes_bind (makes_perform trivial) fun _ => ?_
  refine makes_bind (makes_perform trivial) fun _ => ?_
  exact makes_perform ⟨rfl, hlive⟩

def Reads : BackendCall OwnCall → Prop
  | .getSettings _ | .getCutover _ | .listEntries _ => True
  | .own (.chart _) | .own (.getOpenItems _) | .own (.getDoc _ _ _) => True
  | _ => False

theorem exec_of_reads (c : BackendCall OwnCall) (t : Backend π OwnStores) (hc : Reads c)
    (h : t = s) : (exec c t).2 = s := by
  subst h
  unfold Reads at hc
  split at hc
  all_goals first | rfl | exact hc.elim

theorem makes_docBlockers (tenant : TenantId) (docs : List PlannedDoc)
    (seen : List (DocKind × String)) (blockers : List String) :
    (docBlockers tenant docs seen blockers).Makes Reads := by
  induction docs generalizing seen blockers with
  | nil => trivial
  | cons d docs ih => exact makes_bind (makes_perform trivial) fun _ => ih _ _

theorem makes_planCutover (ctx : CutoverContext) (date today : String) :
    (planCutover ctx date today).Makes Reads := by
  refine makes_bind (makes_perform trivial) fun settings => ?_
  refine makes_bind (makes_perform trivial) fun previous => ?_
  refine makes_bind (makes_perform trivial) fun entries => ?_
  refine makes_bind (makes_perform trivial) fun snapshot => ?_
  refine makes_bind (makes_docBlockers ..) fun blockers => ?_
  refine makes_bind (makes_perform trivial) fun chart => ?_
  exact makes_bind (makes_perform trivial) fun journal => trivial

theorem eachCall_refuseIf {P : BackendCall OwnCall → Backend π OwnStores → Prop} (p : Prop)
    [Decidable p] (f : HandlerFailure) {k : Unit → CutoverProg (CutoverRecord × CutoverPlan)}
    (h : (k ()).EachCall exec P s) : (Prog.refuseIf p f >>= k).EachCall exec P s := by
  by_cases hp : p
  · rw [refuseIf_pos hp]
    trivial
  · rw [refuseIf_neg hp]
    exact h

theorem begun_of_save (ctx : CutoverContext) (s : Backend π OwnStores) (req : ExecuteRequest)
    (plan : CutoverPlan) :
    Begun ctx plan.docs s (exec (.saveCutover ctx.tenant (begunRecord ctx req plan)) s).2 :=
  ⟨⟨rfl, rfl, rfl⟩, ⟨_, get?_set_self .., rfl, CutoverState.noConfusion⟩, fun _ _ _ => .inl rfl⟩

theorem executeCutover_stops (ctx : CutoverContext) (req : ExecuteRequest)
    (s : Backend π OwnStores) :
    (executeCutover ctx req).EachCall exec (fun _ t => t = s ∨
      Begun ctx (planIn ctx req.cutoverDate (req.today.getD "") s).docs s t) s := by
  unfold executeCutover
  refine eachCall_refuseIf _ _ ?_
  rw [eachCall_bind_of_ok (run_planCutover ..)]
  constructor
  · exact ((makes_planCutover ..).keeps exec_of_reads rfl).1.mono fun _ t h => .inl h
  refine eachCall_refuseIf _ _ (eachCall_refuseIf _ _ (eachCall_refuseIf _ _ ?_))
  refine ⟨.inl rfl, .inl rfl, ?_⟩
  -- from the first record on, every write keeps the cutover on its way
  have hbegun := begun_of_save ctx s req
    (planIn ctx req.cutoverDate (req.today.getD "") s)
  obtain ⟨heach, hend⟩ := (makes_writeCutover (s.settingsOf ctx.tenant)
    (begunRecord ctx req (planIn ctx req.cutoverDate (req.today.getD "") s))
    rfl).keeps Begun.write hbegun
  show Prog.EachCall exec _ (writeCutover ctx _ _ _ >>= _) _
  refine eachCall_bind.mpr ⟨heach.mono fun _ t h => .inr h, fun _ t hrun => ?_⟩
  obtain rfl : _ = t := congrArg Prod.snd hrun
  exact ⟨.inr hend, trivial⟩

theorem run_paidDoc (tenant : TenantId) (keys : List (DocKind × String))
    (h : ∀ key ∈ keys, ∀ doc, s.own.documents.getDoc tenant key.1 key.2 = some doc →
      doc.openMinor = doc.totalMinor) : (paidDoc tenant keys).run exec s = (.ok "", s) := by
  induction keys with
  | nil => rfl
  | cons key keys ih =>
    obtain ⟨hkey, hkeys⟩ := forall_mem_cons.mp h
    have hunp : (s.own.documents.getDoc tenant key.1 key.2).any
        (fun doc => doc.openMinor ≠ doc.totalMinor) ≠ true := by
      rw [Ne, Option.any_eq_true]
      rintro ⟨doc, hget, hpaid⟩
      exact of_decide_eq_true hpaid (hkey doc hget)
    show run exec (if (s.own.documents.getDoc tenant key.1 key.2).any _ = true then _ else _)
      s = _
    rw [if_neg hunp]
    exact ih hkeys

theorem run_deleteDocs (tenant : TenantId) (keys : List (DocKind × String))
    (s : Backend π OwnStores) : (deleteDocs tenant keys).run exec s =
      (.ok (), { s with own := { s.own with
        documents := deleteAll tenant keys s.own.documents } }) := by
  induction keys generalizing s with
  | nil => rfl
  | cons key keys ih => exact ih _

theorem run_backOutCutover (ctx : CutoverContext) {record : CutoverRecord}
    (hrec : s.cutovers.get? ctx.tenant = some record) (hactive : record.state ≠ .backedOut)
    (hown : ownEntries (s.ledger.journal ctx.tenant) = [])
    (hunp : ∀ key ∈ record.docs, ∀ doc,
      s.own.documents.getDoc ctx.tenant key.1 key.2 = some doc → doc.openMinor = doc.totalMinor) :
    (backOutCutover ctx).run exec s = (.ok { record with
      state := .backedOut, backedOutAt := ctx.recordedAt }, backedOut ctx record s) := by
  have hread : (perform (BackendCall.getCutover ctx.tenant) : CutoverProg _).run exec s =
      (.ok (some record), s) := congrArg (fun r => (Except.ok r, s)) hrec
  have hblock : (backoutBlocker ctx).run exec s = (.ok "", s) := by
    have hcut : cutoverActive (some record) ≠ false := by
      unfold cutoverActive
      exact fun h => of_decide_eq_false h hactive
    unfold backoutBlocker
    rw [run_bind_ok hread]
    show run exec (if cutoverActive (some record) = false then _ else _) s = _
    rw [if_neg hcut]
    show run exec (if ownEntries (s.ledger.journal ctx.tenant) ≠ [] then _ else _) s = _
    rw [if_neg (not_not.mpr hown)]
    exact run_paidDoc ctx.tenant record.docs hunp
  unfold backOutCutover
  rw [run_bind_ok hblock, refuseIf_neg (not_not.mpr rfl)]
  show run exec (perform (BackendCall.getCutover ctx.tenant) >>= _) s = _
  rw [run_bind_ok hread]
  show run exec (deleteDocs ctx.tenant record.docs >>= _) s = _
  rw [run_bind_ok (run_deleteDocs ..)]
  rfl

/-- A cutover has written something and is stopped in `t`, its last write still to make. -/
def Interrupted (ctx : CutoverContext) (req : ExecuteRequest) (s t : Backend π OwnStores) : Prop :=
  t ≠ s ∧ ∃ n, ((executeCutover ctx req).after exec n s).1.ended = false ∧
    ((executeCutover ctx req).after exec n s).2 = t

theorem begun_of_interrupted {req : ExecuteRequest} {t : Backend π OwnStores}
    (h : Interrupted ctx req s t) :
    Begun ctx (planIn ctx req.cutoverDate (req.today.getD "") s).docs s t := by
  obtain ⟨hwrit, n, hleft, rfl⟩ := h
  exact ((executeCutover_stops ctx req s).after n hleft).resolve_left hwrit

/-- A cutover that is interrupted once it has written anything can be taken back: the planned
documents go and no others, QuickBooks is the book of record again, and the next plan for the date
is clean and has the hash of the first. -/
theorem interrupted_cutover_undone (req : ExecuteRequest) {plan : CutoverPlan}
    {t : Backend π OwnStores}
    (hplan : ((planCutover ctx req.cutoverDate (req.today.getD "")).run exec s).1 = .ok plan)
    (hclean : plan.blockers = []) (ht : Interrupted ctx req s t) (now recordedAt : String) :
    ∃ record t', (backOutCutover (ctx.later now recordedAt)).run exec t = (.ok record, t') ∧
      (∀ tenant kind id, t'.own.documents.getDoc tenant kind id =
        if tenant = ctx.tenant ∧ (kind, id) ∈ planned plan.docs then none
        else t.own.documents.getDoc tenant kind id) ∧
      (t'.settingsOf ctx.tenant).bookOfRecord = .quickbooks ∧
      ∀ now' recordedAt' today',
        ¬ Before (businessToday today' now') (businessToday (req.today.getD "") ctx.now) →
        ∃ plan', (planCutover (ctx.later now' recordedAt') req.cutoverDate today').run exec t' =
          (.ok plan', t') ∧ plan'.blockers = [] ∧ plan'.hash = plan.hash := by
  rw [run_planCutover] at hplan
  obtain rfl := Except.ok.inj hplan
  have hcleanIn := clean_iff.mp hclean
  obtain ⟨hbooks, ⟨record, hrec, hdocs, hactive⟩, hdoc⟩ := begun_of_interrupted ht
  have hown : ownEntries (t.ledger.journal ctx.tenant) = [] := by
    rw [hbooks.journal]
    exact ownEntries_of_clean hcleanIn
  have hunp : ∀ key ∈ record.docs, ∀ doc,
      t.own.documents.getDoc ctx.tenant key.1 key.2 = some doc →
        doc.openMinor = doc.totalMinor := by
    rw [hdocs]
    exact unpaid_of_begun (begun_of_interrupted ht) hcleanIn.docs
  refine ⟨_, backedOut (ctx.later now recordedAt) record t,
    run_backOutCutover (ctx.later now recordedAt) hrec hactive hown hunp, ?_, ?_, ?_⟩
  · intro tenant kind id
    rw [← hdocs]
    exact getDoc_deleteAll ..
  · exact (clean_of_backedOut hcleanIn hbooks hdocs now recordedAt (lt_irrefl _)).book
  · intro now' recordedAt' today' hclock
    have hagain : Clean (ctx.later now' recordedAt') req.cutoverDate today'
        (backedOut (ctx.later now recordedAt) record t) :=
      clean_of_backedOut hcleanIn hbooks hdocs now recordedAt hclock
    have hsame : SameBooks ctx s (backedOut (ctx.later now recordedAt) record t) :=
      ⟨hbooks.journal, hbooks.openItems, hbooks.chart⟩
    exact ⟨_, run_planCutover .., clean_iff.mpr hagain, hash_of_same hsame now' recordedAt' today'⟩

end
end

namespace CutoverSample

/-- The digest is the one of the sample's plan. -/
def ctx : CutoverContext where
  tenant := "acme"
  currency := usd
  now := "2026-11-05T09:00:00.000Z"
  recordedAt := "2026-11-05T09:00:01.000Z"
  localeLe a b := a ≤ b
  sha256 _ := "c0c0db6c3b3dd42e66d1698e62b651c8597c488485431d13c61642840bc7bb6c"

def account (id code : String) (type : AccountType) (subtype : AccountSubtype) : Account :=
  ⟨id, code, code, type, usd, none, some subtype, none, none⟩

def chart : ChartOfAccounts :=
  (ChartOfAccounts.ofAccounts [account "acct_1100" "1100" .asset .accountsReceivable,
    account "acct_4000" "4000" .revenue .income]).toOption.getD .empty

def entry : DraftEntry where
  tenantId := "acme"
  idempotencyKey := "qbo-mirror:1"
  periodKey := "2026-10"
  currency := usd
  entryDate := "2026-10-31"
  status := .posted
  lines := [⟨"acct_1100", .debit, ⟨50000, usd⟩, none, none⟩,
    ⟨"acct_4000", .credit, ⟨50000, usd⟩, none, none⟩]
  provenance := ⟨quickbooksSource, "general_ledger", "1", "2026-10-31", "2026-10-31", "2026-11-02",
    "n1", "m1"⟩
  memo := none
  reversalOf := none
  postedAt := "2026-11-02"

def backend : Backend (InMemoryPeriodStore TenantId PeriodKey) OwnStores where
  ledger := Ledger.append ⟨.empty, .empty⟩ entry
  settings := OrderedMap.empty.set "acme" { defaultSettings with bookOfRecord := .quickbooks }
  cutovers := .empty
  own :=
    { documents := .empty
      openItems := OrderedMap.empty.set "acme" ⟨"2026-11-02",
        [⟨.invoice, "91", "1037", "Blue Door", "2026-10-20", "2026-11-19", 50000⟩]⟩
      charts := OrderedMap.empty.set "acme" chart }

def request : ExecuteRequest where
  cutoverDate := "2026-10-31"
  signedBy := "Owner"
  reportHash := "c0c0db6c3b3dd42e66d1698e62b651c8597c488485431d13c61642840bc7bb6c"
  acceptDifferences := false
  today := none

def stopped : Backend (InMemoryPeriodStore TenantId PeriodKey) OwnStores :=
  ((executeCutover ctx request).after exec 14 backend).2

end CutoverSample

open CutoverSample in
theorem undone_of_sample : stopped.own.documents.getDoc "acme" .invoice "1037" ≠ none ∧
    ∃ record t', (backOutCutover (ctx.later "2026-11-06T10:00:00.000Z"
        "2026-11-06T10:00:01.000Z")).run exec stopped = (.ok record, t') ∧
      (∀ tenant kind id, t'.own.documents.getDoc tenant kind id =
        if tenant = ctx.tenant ∧ (kind, id) ∈ planned (planIn ctx "2026-10-31" "" backend).docs
        then none else stopped.own.documents.getDoc tenant kind id) ∧
      (t'.settingsOf ctx.tenant).bookOfRecord = .quickbooks ∧
      ∀ now' recordedAt' today',
        ¬ Before (businessToday today' now') (businessToday "" ctx.now) →
        ∃ plan', (planCutover (ctx.later now' recordedAt') "2026-10-31" today').run exec t' =
          (.ok plan', t') ∧ plan'.blockers = [] ∧
          plan'.hash = (planIn ctx "2026-10-31" "" backend).hash := by
  have hclean : (planIn ctx "2026-10-31" "" backend).blockers = [] := by decide +kernel
  have hwrit : stopped ≠ backend := fun h =>
    absurd (congrArg (fun s => s.cutovers.get? "acme") h) (by decide +kernel)
  have hstop : Interrupted ctx request backend stopped :=
    ⟨hwrit, 14, by decide +kernel, rfl⟩
  exact ⟨by decide +kernel, interrupted_cutover_undone request
    (congrArg Prod.fst (run_planCutover ..)) hclean hstop _ _⟩

open CutoverSample in
theorem nothing_to_back_out : (planIn ctx "2026-10-31" "" backend).blockers = [] ∧
    (planCutover ctx "2026-10-31" "").run exec backend =
      (.ok (planIn ctx "2026-10-31" "" backend), backend) ∧
    ((executeCutover ctx request).after exec 0 backend).1.ended = false ∧
    ((backOutCutover ctx).run exec ((executeCutover ctx request).after exec 0 backend).2).1 =
      .error (.thrown "there is no cutover to back out") :=
  ⟨by decide +kernel, run_planCutover .., by decide +kernel, by decide +kernel⟩

end Rgnr8.Service.Cutover
