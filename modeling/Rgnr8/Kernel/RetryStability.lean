import Rgnr8.Kernel.EngineRun

/-! Repeating a call that has succeeded. The key it wrote stays bound to its entry, so the tail of
both calls replays; a reversal looks at the accounts of its original before it comes to that. -/

namespace Rgnr8.Kernel
open Lib PostingEngine OrderedMap List

namespace PostingEngine
variable {π : Type} [PeriodStore π]

structure DraftFor (tenant : TenantId) (key : IdempotencyKey) (intended : String)
    (d : DraftEntry) : Prop where
  tenant_eq : d.tenantId = tenant
  key_eq : d.idempotencyKey = key
  fingerprint : fingerprintOf d.currency.code d.periodKey d.entryDate (d.memo.getD "")
    d.provenance d.lines = intended

theorem draftFor_post {coa : ChartOfAccounts} {command : PostCommand} {opts : PostOptions}
    {d : DraftEntry} (h : (validateAndBuildLines command.lines command.currency coa).map
      (draftOfCommand command opts) = .ok d) :
    DraftFor command.tenantId command.idempotencyKey (fingerprintOfCommand command) d := by
  obtain ⟨rfl, -⟩ := draft_of_post h
  exact ⟨rfl, rfl, rfl⟩

theorem draftFor_reversal (tenant : TenantId) (original : PostedEntry) (opts : ReverseOptions) :
    DraftFor tenant opts.idempotencyKey
      (fingerprintOfReversal original.currency.code opts.periodKey opts.entryDate
        (reversalMemo original opts) opts.provenance (swapped original.lines))
      (draftOfReversal tenant original opts) := ⟨rfl, rfl, rfl⟩

theorem settle_ok {tenant : TenantId} {key : IdempotencyKey} {period : PeriodKey}
    {intended : String} {draft : Except LedgerError DraftEntry} {s s' : Ledger π} {e : PostedEntry}
    (hdraft : ∀ d, draft = .ok d → DraftFor tenant key intended d)
    (h : (settle tenant key period intended draft).run LedgerCall.exec s = (.ok e, s')) :
    s'.store.getByIdempotencyKey tenant key = some e ∧ fingerprintOfEntry e = intended := by
  have hs := settled tenant key period intended draft s
  rw [h] at hs
  cases hs with
  | replayed hkey hsame => exact ⟨hkey, hsame⟩
  | @appended d hfree hopen hd =>
    obtain ⟨rfl, rfl, hf⟩ := hdraft d hd
    refine ⟨s.store.getByIdempotencyKey_append d, ?_⟩
    rw [InMemoryLedgerStore.append_of_none hfree]
    exact hf

end PostingEngine

namespace Books
variable {π : Type} [PeriodStore π]

def MayRepeat (b : Books π) : PostingCall → Prop
  | .post _ _ => True
  | .reverse tenant originalId _ =>
    ∀ original, b.ledger.store.getById tenant originalId = some original →
      ∀ l ∈ original.lines, ∀ a, b.chart.get l.accountId = some a → a.active ≠ some false

variable {b b' : Books π} {e : PostedEntry}

theorem retry_post {command : PostCommand} {opts : PostOptions}
    (h : (b.perform (.post command opts)).1 = .ok e)
    (hgrows : (b.perform (.post command opts)).2.ledger.store.Grows b'.ledger.store) :
    b'.perform (.post command opts) = (.ok e, b') := by
  obtain ⟨hkey, hsame⟩ := settle_ok (fun d hd => draftFor_post hd) (Prod.ext h rfl)
  rw [perform, PostingCall.program, post, run_settle_of_some (hgrows.getByIdempotencyKey hkey),
    if_pos hsame]

theorem retry_reverse_iff {tenant : TenantId} {originalId : EntryId} {opts : ReverseOptions}
    (h : (b.perform (.reverse tenant originalId opts)).1 = .ok e)
    (hgrows : (b.perform (.reverse tenant originalId opts)).2.ledger.store.Grows b'.ledger.store) :
    b'.perform (.reverse tenant originalId opts) = (.ok e, b') ↔
      b'.MayRepeat (.reverse tenant originalId opts) := by
  -- the original is still there, so only the look at its accounts can come out differently
  have hthru := (b.perform_grows (.reverse tenant originalId opts)).trans hgrows
  rw [perform, PostingCall.program] at h hgrows
  cases horig : b.ledger.store.getById tenant originalId with
  | none =>
    rw [run_reverse_of_none horig] at h
    cases h
  | some original =>
    have horig' := hthru.getById horig
    rw [run_reverse_of_some horig] at h hgrows
    have hrep : b'.MayRepeat (.reverse tenant originalId opts) ↔
        refuseInactive b'.chart original.lines = .ok () := by
      simp only [MayRepeat, horig', Option.some.injEq, forall_eq', refuseInactive_eq_ok]
    rw [hrep, perform, PostingCall.program, run_reverse_of_some horig']
    cases hact : refuseInactive b.chart original.lines with
    | error err =>
      rw [hact] at h
      cases h
    | ok u =>
      rw [hact] at h hgrows
      obtain ⟨hkey, hsame⟩ := settle_ok
        (fun d hd => Except.ok.inj hd ▸ draftFor_reversal tenant original opts) (Prod.ext h rfl)
      cases refuseInactive b'.chart original.lines with
      | error err => simp
      | ok u =>
        simp only [settleReversal, run_settle_of_some (hgrows.getByIdempotencyKey hkey),
          if_pos hsame]

/-- A call that has succeeded returns the same entry again and appends nothing, whatever happened
since: always for a post, and for a reversal while the accounts of its original are active. -/
theorem retry_iff {c : PostingCall} (h : (b.perform c).1 = .ok e) (ops : List BooksOp) :
    (ops.foldl step (b.perform c).2).perform c = (.ok e, ops.foldl step (b.perform c).2) ↔
      (ops.foldl step (b.perform c).2).MayRepeat c := by
  cases c with
  | post command opts => exact iff_of_true (retry_post h (run_grows _ ops)) trivial
  | reverse tenant originalId opts => exact retry_reverse_iff h (run_grows _ ops)

theorem retry_of_sale : (([.periods (.lock "acme" "2026-08")] : List BooksOp).foldl step
      Sample.books).perform (.post (Sample.sale none) ⟨"2026-08-01"⟩) =
    (.ok ((draftOfCommand (Sample.sale none) ⟨"2026-08-01"⟩ (Sample.sale none).lines).numbered 1),
      ([.periods (.lock "acme" "2026-08")] : List BooksOp).foldl step Sample.books) :=
  (retry_iff (b := Sample.opening) (c := .post (Sample.sale none) ⟨"2026-08-01"⟩) (by decide)
    [.periods (.lock "acme" "2026-08")]).mpr trivial

theorem retry_of_reversal_fails :
    let reversal := PostingCall.reverse "acme" "acme:1"
      ⟨"undo", "2026-08", "2026-08-02", "2026-08-02", Sample.provenance, none⟩
    (Sample.books.perform reversal).1.toOption.map (fun e => e.id) = some "acme:2" ∧
      (((Sample.books.perform reversal).2.step (.deactivate "cash")).perform reversal).1 =
        .error (.inactiveAccount "cash" "1000") := by
  decide

end Books

/-! The replay check of `post` against what it stands for. It compares fingerprints, so it is
faithful to the contents exactly where no two contents share one; plain texts never do. -/

/-! Texts without the delimiters of the level they stand at. -/

structure PlainDimensions (dimension : String → Option String) : Prop where
  keys : ∀ k v, dimension k = some v → Free ',' k ∧ Free '=' k ∧ Free '|' k ∧ Free ';' k
  values : ∀ k v, dimension k = some v → Free ',' v ∧ Free '|' v ∧ Free ';' v

structure PlainLine (l : PostedLine) : Prop where
  accountId : Free '|' l.accountId ∧ Free ';' l.accountId
  currencyCode : Free '|' l.amount.currency.code ∧ Free ';' l.amount.currency.code
  memo : Free '|' (l.memo.getD "") ∧ Free ';' (l.memo.getD "")
  dimensions : PlainDimensions (dimensionOf l.dimensions)

def Provenance.texts (p : Provenance) : List String :=
  [p.sourceSystem, p.sourceObject, p.sourceVersion, p.effectiveDate, p.postedDate, p.ingestedAt,
    p.normalizationVersion, p.mappingVersion]

structure PlainCommand (c : PostCommand) : Prop where
  currencyCode : Undoubled ':' c.currency.code
  periodKey : Undoubled ':' c.periodKey
  entryDate : Undoubled ':' c.entryDate
  memo : Undoubled ':' (c.memo.getD "")
  provenance : ∀ s ∈ c.provenance.texts, Undoubled ':' s ∧ Free '|' s
  lines : ∀ l ∈ c.lines, PlainLine l

theorem texts_injective : Function.Injective Provenance.texts := by
  intro p p' h
  simp only [Provenance.texts, cons.injEq] at h
  cases p
  cases p'
  simp_all

theorem fingerprintProvenance_inj {p p' : Provenance} (h : ∀ s ∈ p.texts, Free '|' s)
    (h' : ∀ s ∈ p'.texts, Free '|' s) (heq : fingerprintProvenance p = fingerprintProvenance p') :
    p = p' :=
  texts_injective (intercalate_inj_of_free (c := '|') rfl h h' (cons_ne_nil _ _)
    (cons_ne_nil _ _) heq)

theorem text_injective : Function.Injective EntrySide.text := by
  intro a b h
  cases a <;> cases b
  · rfl
  · exact absurd h (by decide)
  · exact absurd h (by decide)
  · rfl

section
variable {ds ds' : Dimensions}

theorem dimensionText_eq {k v : String} (h : ds.get? k = some v) :
    dimensionText ds k = k ++ "=" ++ v := by
  rw [dimensionText, h]
  rfl

theorem dimensionText_ne_empty (ds : Dimensions) (k : String) : dimensionText ds k ≠ "" := by
  intro h
  have htext := congrArg String.toList h
  simp only [dimensionText, String.toList_append, String.toList_empty, append_eq_nil_iff] at htext
  exact absurd htext.1.2 (by decide)

theorem get?_of_fingerprint_eq (h : PlainDimensions ds.get?) (h' : PlainDimensions ds'.get?)
    (heq : fingerprintDimensions (some ds) = fingerprintDimensions (some ds')) {k v : String}
    (hk : ds.get? k = some v) : ds'.get? k = some v := by
  have hfree : ∀ {ds : Dimensions}, PlainDimensions ds.get? →
      ∀ p ∈ (sortKeys ds.keys).map (dimensionText ds), Free ',' p ∧ p ≠ "" := by
    intro ds h p hp
    obtain ⟨k, hk, rfl⟩ := mem_map.mp hp
    obtain ⟨v, hv⟩ := mem_keys_iff.mp (mem_sortKeys.mp hk)
    refine ⟨?_, dimensionText_ne_empty ds k⟩
    rw [dimensionText_eq hv, free_append, free_append]
    exact ⟨⟨(h.keys k v hv).1, by decide⟩, (h.values k v hv).1⟩
  have hpiec := intercalate_inj_of_ne_empty (c := ',') rfl (hfree h) (hfree h') heq
  have hmem : dimensionText ds k ∈ (sortKeys ds.keys).map (dimensionText ds) :=
    mem_map_of_mem (mem_sortKeys.mpr (mem_keys_iff.mpr ⟨v, hk⟩))
  rw [hpiec] at hmem
  -- the piece of `k` is the piece of some key of the other map, which `=` shows to be `k`
  obtain ⟨k', hk', htext⟩ := mem_map.mp hmem
  obtain ⟨v', hv'⟩ := mem_keys_iff.mp (mem_sortKeys.mp hk')
  rw [dimensionText_eq hk, dimensionText_eq hv'] at htext
  obtain ⟨rfl, rfl⟩ := append_inj_of_free (c := '=') rfl (h'.keys k' v' hv').2.1
    (h.keys k v hk).2.1 htext
  exact hv'

end

theorem fingerprintDimensions_inj {ds ds' : Option Dimensions}
    (h : PlainDimensions (dimensionOf ds)) (h' : PlainDimensions (dimensionOf ds'))
    (heq : fingerprintDimensions ds = fingerprintDimensions ds') :
    dimensionOf ds = dimensionOf ds' := by
  rw [fingerprintDimensions_getD ds, fingerprintDimensions_getD ds'] at heq
  have hd := funext (get?_getD_empty ds)
  have hd' := funext (get?_getD_empty ds')
  rw [← hd] at h ⊢
  rw [← hd'] at h' ⊢
  funext k
  exact Option.ext fun v => ⟨get?_of_fingerprint_eq h h' heq, get?_of_fingerprint_eq h' h heq.symm⟩

theorem free_fingerprintDimensions {ds : Option Dimensions} {c : Char}
    (h : ∀ k v, dimensionOf ds k = some v → Free c k ∧ Free c v) (hcomma : c ≠ ',')
    (hequals : c ≠ '=') : Free c (fingerprintDimensions ds) := by
  rw [fingerprintDimensions_getD, fingerprintDimensions_some]
  refine free_intercalate (by simpa [Free] using hcomma) fun p hp => ?_
  obtain ⟨k, hk, rfl⟩ := mem_map.mp hp
  obtain ⟨v, hv⟩ := mem_keys_iff.mp (mem_sortKeys.mp hk)
  rw [dimensionText_eq hv, free_append, free_append]
  rw [get?_getD_empty] at hv
  exact ⟨⟨(h k v hv).1, by simpa [Free] using hequals⟩, (h k v hv).2⟩

def PostedLine.texts (l : PostedLine) : List String :=
  [l.accountId, l.side.text, l.amount.currency.code, toString l.amount.minorUnits,
    l.memo.getD "", fingerprintDimensions l.dimensions]

theorem PlainLine.free {l : PostedLine} (h : PlainLine l) :
    ∀ s ∈ l.texts, Free '|' s ∧ Free ';' s := by
  have hside : Free '|' l.side.text ∧ Free ';' l.side.text := by
    cases l.side <;> exact ⟨by decide, by decide⟩
  have hbar : Free '|' (fingerprintDimensions l.dimensions) :=
    free_fingerprintDimensions (fun k v hk =>
      ⟨(h.dimensions.keys k v hk).2.2.1, (h.dimensions.values k v hk).2.1⟩) (by decide) (by decide)
  have hsemi : Free ';' (fingerprintDimensions l.dimensions) :=
    free_fingerprintDimensions (fun k v hk =>
      ⟨(h.dimensions.keys k v hk).2.2.2, (h.dimensions.values k v hk).2.2⟩) (by decide) (by decide)
  have hint : Free '|' (toString l.amount.minorUnits) ∧ Free ';' (toString l.amount.minorUnits) :=
    ⟨free_toString_int (by decide) (by decide) _, free_toString_int (by decide) (by decide) _⟩
  simp only [PostedLine.texts, forall_mem_cons, not_mem_nil, false_implies, implies_true, and_true]
  exact ⟨h.accountId, hside, h.currencyCode, hint, h.memo, hbar, hsemi⟩

theorem fingerprintLine_inj {l l' : PostedLine} (h : PlainLine l) (h' : PlainLine l')
    (heq : fingerprintLine l = fingerprintLine l') : contentOfLine l = contentOfLine l' := by
  have htexts : l.texts = l'.texts :=
    intercalate_inj_of_free (c := '|') rfl (fun s hs => (h.free s hs).1)
      (fun s hs => (h'.free s hs).1) (cons_ne_nil _ _) (cons_ne_nil _ _) heq
  simp only [PostedLine.texts, cons.injEq, and_true] at htexts
  obtain ⟨h1, h2, h3, h4, h5, h6⟩ := htexts
  rw [contentOfLine, contentOfLine, h1, text_injective h2, h3, h5,
    fingerprintDimensions_inj h.dimensions h'.dimensions h6]
  rw [Int.toString_eq_repr, Int.toString_eq_repr, Int.repr_inj] at h4
  rw [h4]

theorem fingerprintLine_ne_empty (l : PostedLine) : fingerprintLine l ≠ "" := by
  intro h
  have := congrArg String.toList h
  simp [fingerprintLine] at this

theorem fingerprintLines_inj {ls ls' : List PostedLine} (h : ∀ l ∈ ls, PlainLine l)
    (h' : ∀ l ∈ ls', PlainLine l) (heq : fingerprintLines ls = fingerprintLines ls') :
    ls.map contentOfLine = ls'.map contentOfLine := by
  have hfree : ∀ {ls : List PostedLine}, (∀ l ∈ ls, PlainLine l) →
      ∀ p ∈ ls.map fingerprintLine, Free ';' p ∧ p ≠ "" := by
    intro ls h p hp
    obtain ⟨l, hl, rfl⟩ := mem_map.mp hp
    exact ⟨free_intercalate (by decide) fun s hs => ((h l hl).free s hs).2,
      fingerprintLine_ne_empty l⟩
  have hmap := intercalate_inj_of_ne_empty (c := ';') rfl (hfree h) (hfree h') heq
  -- the lines were cut apart; what is left is line against line
  clear heq hfree
  induction ls generalizing ls' with
  | nil =>
    rw [map_nil, eq_comm, map_eq_nil_iff] at hmap
    rw [hmap]
  | cons l ls ih =>
    cases ls' with
    | nil => cases hmap
    | cons l' ls' =>
      rw [forall_mem_cons] at h h'
      rw [map_cons, map_cons, cons.injEq] at hmap
      rw [map_cons, map_cons, fingerprintLine_inj h.1 h'.1 hmap.1, ih h.2 h'.2 hmap.2]

theorem contentOfCommand_inj {c c' : PostCommand} (h : PlainCommand c) (h' : PlainCommand c')
    (heq : fingerprintOfCommand c = fingerprintOfCommand c') :
    contentOfCommand c = contentOfCommand c' := by
  simp only [fingerprintOfCommand, fingerprintOf, String.intercalate_cons_cons,
    String.intercalate_singleton] at heq
  -- the fields come off the front one by one, and the lines are what remains
  obtain ⟨h1, heq⟩ := append_inj_of_undoubled (c := ':') rfl h.currencyCode h'.currencyCode heq
  obtain ⟨h2, heq⟩ := append_inj_of_undoubled (c := ':') rfl h.periodKey h'.periodKey heq
  obtain ⟨h3, heq⟩ := append_inj_of_undoubled (c := ':') rfl h.entryDate h'.entryDate heq
  obtain ⟨h4, heq⟩ := append_inj_of_undoubled (c := ':') rfl h.memo h'.memo heq
  have hprov : ∀ {c : PostCommand}, PlainCommand c →
      Undoubled ':' (fingerprintProvenance c.provenance) := fun h =>
    undoubled_intercalate (d := '|') rfl (by decide) fun s hs => (h.provenance s hs).1
  obtain ⟨h5, heq⟩ := append_inj_of_undoubled (c := ':') rfl (hprov h) (hprov h') heq
  rw [contentOfCommand, contentOfCommand, contentOf, contentOf, h1, h2, h3, h4,
    fingerprintProvenance_inj (fun s hs => (h.provenance s hs).2)
      (fun s hs => (h'.provenance s hs).2) h5, fingerprintLines_inj h.lines h'.lines heq]

/-- Two commands that the fingerprint tells apart if their contents differ. -/
def Distinguished (c c' : PostCommand) : Prop :=
  fingerprintOfCommand c = fingerprintOfCommand c' → contentOfCommand c = contentOfCommand c'

def Faithful {π : Type} [PeriodStore π] (b : Books π) (e : PostedEntry) (first second : PostCommand)
    (opts : PostOptions) : Prop :=
  (contentOfCommand first = contentOfCommand second →
    b.perform (.post second opts) = (.ok e, b)) ∧
  (contentOfCommand first ≠ contentOfCommand second →
    b.perform (.post second opts) =
      (.error (.duplicateIdempotencyKey second.idempotencyKey), b))

/-- In every state after the first command has been posted the replay check is faithful to a
second one exactly when the fingerprint tells them apart, as it does for all plain texts. -/
theorem replay_faithful_iff {π : Type} [PeriodStore π] {b : Books π} {first second : PostCommand}
    {opts opts' : PostOptions} {e : PostedEntry}
    (hposted : (b.perform (.post first opts)).1 = .ok e)
    (htenant : second.tenantId = first.tenantId)
    (hkey : second.idempotencyKey = first.idempotencyKey) (ops : List BooksOp) :
    (Faithful (ops.foldl Books.step (b.perform (.post first opts)).2) e first second opts' ↔
      Distinguished first second) ∧
    (PlainCommand first → PlainCommand second → Distinguished first second) := by
  obtain ⟨hhol, hsame⟩ := settle_ok (fun d hd => draftFor_post hd) (Prod.ext hposted rfl)
  have hhol' := (Books.run_grows (b.perform (.post first opts)).2 ops).getByIdempotencyKey hhol
  refine ⟨?_, contentOfCommand_inj⟩
  generalize ops.foldl Books.step (b.perform (.post first opts)).2 = b' at hhol'
  rw [← htenant, ← hkey] at hhol'
  have hrun : b'.perform (.post second opts') =
      (if fingerprintOfCommand first = fingerprintOfCommand second then .ok e
        else .error (.duplicateIdempotencyKey second.idempotencyKey), b') := by
    rw [Books.perform, PostingCall.program, post, run_settle_of_some hhol', hsame]
  rw [Faithful, Distinguished, hrun]
  by_cases hfp : fingerprintOfCommand first = fingerprintOfCommand second
  · simp only [hfp, if_true, true_implies, implies_true, true_and]
    refine ⟨fun h => by_contra fun hne => ?_, fun h hne => absurd h hne⟩
    cases (Prod.mk.inj (h hne)).1
  · simp only [hfp, if_false, implies_true, and_true, false_implies, iff_true]
    exact fun h => absurd (fingerprintOf_congr h) hfp

theorem replay_of_sale_faithful :
    Faithful Sample.books ((draftOfCommand (Sample.sale none) ⟨"2026-08-01"⟩
      (Sample.sale none).lines).numbered 1) (Sample.sale none) (Sample.sale none) ⟨"2026-08-02"⟩ :=
  have hposted : (Sample.opening.perform (.post (Sample.sale none) ⟨"2026-08-01"⟩)).1 =
      .ok ((draftOfCommand (Sample.sale none) ⟨"2026-08-01"⟩ (Sample.sale none).lines).numbered 1) :=
    by decide
  (replay_faithful_iff hposted rfl rfl []).1.mpr fun _ => rfl

theorem replay_of_spelled_dimensions :
    let one := Sample.sale (some (empty.set "a" "1,b=2"))
    let two := Sample.sale (some ((empty.set "a" "1").set "b" "2"))
    ¬ Faithful (Sample.opening.step (.call (.post one ⟨"2026-08-01"⟩)))
      ((draftOfCommand one ⟨"2026-08-01"⟩ one.lines).numbered 1) one two ⟨"2026-08-01"⟩ := by
  intro one two h
  have hdif : contentOfCommand one ≠ contentOfCommand two := fun heq => by
    have hlines := congrArg (fun c => c.lines.map fun l => l.dimension "b") heq
    exact absurd hlines (by decide)
  exact absurd (congrArg Prod.fst (h.2 hdif)) (by decide)

end Rgnr8.Kernel
