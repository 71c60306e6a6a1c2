import Rgnr8.Ingestion.Batches

/-! The ledger behind a feed: after any batches it holds the rows that would be booked on their own,
once each, so its balances do not depend on how the feed was cut. -/

namespace Rgnr8.Ingestion
open Lib Kernel List

section
variable {α π : Type} [PeriodStore π] {feed : Feed α} {s₀ s : Ledger π}
variable {ns : List NormalizedInput} {rows : List MutableCanonical}

/-- A ledger holds what rows add to another: under no key but theirs, and once. -/
structure Holds (feed : Feed α) (s₀ : Ledger π) (ns : List NormalizedInput) (s : Ledger π) :
    Prop where
  periods : s.periods = s₀.periods
  free : ∀ tenant key, s.store.getByIdempotencyKey tenant key = none ↔
    s₀.store.getByIdempotencyKey tenant key = none ∧ ∀ n ∈ ns, Booked feed s₀ n →
      ¬ (tenant = n.tenantId ∧ key = s!"ingest:{dedupeKey n}")
  balance : ∀ tenant id, balanceOf id (s.journal tenant) = balanceOf id (s₀.journal tenant) +
    ((ns.filter fun n => n.tenantId = tenant ∧ Booked feed s₀ n).map fun n =>
      netOn id (rowCommand feed n).lines).sum

theorem Holds.refl (feed : Feed α) (s₀ : Ledger π) : Holds feed s₀ [] s₀ where
  periods := rfl
  free := fun _ _ => ⟨fun h => ⟨h, fun _ hn => nomatch hn⟩, fun h => h.1⟩
  balance := fun _ _ => (add_zero _).symm

theorem Holds.appends_before (h : Holds feed s₀ ns s) {command : PostCommand}
    (happends : s.Appends feed.coa command) : s₀.Appends feed.coa command := by
  obtain ⟨hfree, hopen, hlines⟩ := happends
  exact ⟨((h.free _ _).mp hfree).1, h.periods ▸ hopen, hlines⟩

theorem ingestKey_inj {a b : String} (h : s!"ingest:{a}" = s!"ingest:{b}") : a = b := by
  have hchars : (toString a).toList = (toString b).toList := by
    simpa [← String.toList_inj] using h
  exact String.toList_inj.mp hchars

variable {done : List NormalizedInput} {n : NormalizedInput}

theorem Holds.unbooked (h : Holds feed s₀ ns s) (hnot : ¬ Booked feed s₀ n) :
    Holds feed s₀ (ns ++ [n]) s where
  periods := h.periods
  free := by
    intro tenant key
    rw [h.free]
    simp only [mem_append, mem_singleton, or_imp, forall_and, forall_eq]
    exact and_congr_right fun _ => ⟨fun hold => ⟨hold, fun hbkd => absurd hbkd hnot⟩, And.left⟩
  balance := by
    intro tenant id
    rw [h.balance, filter_append, filter_singleton, decide_eq_false (fun h => hnot h.2)]
    simp

theorem Holds.booked (h : Holds feed s₀ ns s) (opts : PostOptions) (hbkd : Booked feed s₀ n)
    (hnew : dedupeKey n ∉ ns.map dedupeKey) : s.Appends feed.coa (rowCommand feed n) ∧
      Holds feed s₀ (ns ++ [n]) (s.posted (rowCommand feed n) opts) := by
  obtain ⟨hfree, hopen, hlines⟩ := hbkd.2
  have happends : s.Appends feed.coa (rowCommand feed n) := by
    refine ⟨(h.free _ _).mpr ⟨hfree, fun n' hn' _ hsame => hnew ?_⟩, h.periods ▸ hopen, hlines⟩
    have hkey : dedupeKey n = dedupeKey n' := ingestKey_inj hsame.2
    rw [hkey]
    exact mem_map_of_mem hn'
  refine ⟨happends, h.periods, fun tenant key => ?_, fun tenant id => ?_⟩
  · rw [Ledger.getByIdempotencyKey_posted opts happends]
    simp only [mem_append, mem_singleton, or_imp, forall_and, forall_eq]
    by_cases hsame : tenant = (rowCommand feed n).tenantId ∧ key = (rowCommand feed n).idempotencyKey
    · rw [if_pos hsame]
      exact ⟨nofun, fun hall => absurd hsame (hall.2.2 hbkd)⟩
    · rw [if_neg hsame, h.free]
      exact and_congr_right fun _ => ⟨fun hold => ⟨hold, fun _ => hsame⟩, And.left⟩
  · rw [filter_append, filter_singleton, map_append, sum_append, ← add_assoc, ← h.balance]
    by_cases htenant : tenant = n.tenantId
    · subst htenant
      rw [decide_eq_true ⟨rfl, hbkd⟩]
      have hbalance := Ledger.balanceOf_posted opts happends id
      exact hbalance.trans (by simp; rfl)
    · have hother : tenant ≠ (rowCommand feed n).tenantId := htenant
      rw [Ledger.journal_posted opts happends, if_neg hother,
        decide_eq_false fun hboth => htenant hboth.1.symm]
      simp

variable (opts : PostOptions)
variable (feed) in
def tryRow (s : Ledger π) (r : MutableCanonical) : Ledger π :=
  if r.supersededBy.getD "" = "" ∧ r.isInternalTransfer = false ∧ r.amount.minorUnits ≠ 0 then
    postOne feed.coa opts s (commandOf feed.map feed.rules r.toPublic)
  else s

theorem postActive_eq (pipeline : IngestionPipeline α) (s : Ledger π) :
    ((postCanonicalToLedger pipeline.active feed.map feed.rules feed.coa opts).run
      LedgerCall.exec s).2 = pipeline.rows.foldl (tryRow feed opts) s := by
  rw [run_postCanonicalToLedger]
  unfold IngestionPipeline.active
  generalize pipeline.rows = rows
  induction rows generalizing s with
  | nil => rfl
  | cons r rows ih =>
    rw [foldl_cons, ← ih]
    unfold tryRow
    by_cases hactive : r.supersededBy.getD "" = ""
    · by_cases hflag : r.isInternalTransfer = false
      · by_cases hzero : r.amount.minorUnits = 0
        · simp [hactive, hflag, hzero, MutableCanonical.toPublic]
        · simp [hactive, hflag, hzero, MutableCanonical.toPublic]
      · simp [hactive, hflag, MutableCanonical.toPublic]
    · simp [hactive]

variable (feed) in
theorem command_of_bare {r : MutableCanonical} (h : bare r = bare (rowOf n))
    (hkind : r.kind = n.kind) : commandOf feed.map feed.rules r.toPublic = rowCommand feed n := by
  have hrow : commandOf feed.map feed.rules { (bare r).toPublic with kind := r.kind } =
      commandOf feed.map feed.rules r.toPublic := rfl
  rw [← hrow, h, hkind]
  rfl

theorem tryRow_step (hrows : Tracks feed s₀ ns rows) (h : Holds feed s₀ done s)
    {r : MutableCanonical} (hr : r ∈ rows) (hn : n ∈ ns) (hbare : bare r = bare (rowOf n)) :
    (n ∈ done → tryRow feed opts s r = s) ∧
      (dedupeKey n ∉ done.map dedupeKey → Holds feed s₀ (done ++ [n]) (tryRow feed opts s r)) := by
  have hid : r.id = dedupeKey n := id_of_bare hbare
  have hamt : r.amount = n.amount := (fields_of_bare hbare).2.2.2.1
  by_cases hbkd : Booked feed s₀ n
  · obtain ⟨hflag, hlive⟩ := hrows.live r hr n hn hid hbkd
    have hcommand := command_of_bare feed hbare (hrows.kind r hr n hn hid hflag)
    have htry : tryRow feed opts s r = postOne feed.coa opts s (rowCommand feed n) := by
      unfold tryRow
      rw [if_pos ⟨hlive, hflag, hamt ▸ hbkd.1⟩, hcommand]
    rw [htry]
    unfold postOne
    constructor
    · intro hdone
      rw [if_neg]
      intro happends
      exact ((h.free _ _).mp happends.free).2 n hdone hbkd ⟨rfl, rfl⟩
    · intro hnew
      obtain ⟨happends, hholds⟩ := h.booked opts hbkd hnew
      rw [if_pos happends]
      exact hholds
  -- not booked: the row is not tried, or its command is refused
  · have htry : tryRow feed opts s r = s := by
      unfold tryRow postOne
      split_ifs with htried happends
      · exfalso
        refine hbkd ⟨hamt ▸ htried.2.2, ?_⟩
        rw [← command_of_bare feed hbare (hrows.kind r hr n hn hid htried.2.1)]
        exact h.appends_before happends
      · rfl
      · rfl
    rw [htry]
    exact ⟨fun _ => rfl, fun _ => h.unbooked hbkd⟩

theorem tryRows_done (hrows : Tracks feed s₀ ns rows) (h : Holds feed s₀ done s)
    {old : List NormalizedInput} {oldRows : List MutableCanonical}
    (hold : oldRows.map bare = old.map fun n => bare (rowOf n)) (hsub : old ⊆ ns)
    (hdone : old ⊆ done) (hrowsS : oldRows ⊆ rows) : oldRows.foldl (tryRow feed opts) s = s := by
  induction oldRows generalizing old with
  | nil => rfl
  | cons r oldRows ih =>
    cases old with
    | nil => cases hold
    | cons n old =>
      obtain ⟨hbare, hold⟩ := cons.inj hold
      rw [cons_subset] at hsub hdone hrowsS
      have hstep := tryRow_step opts hrows h hrowsS.1 hsub.1 hbare
      rw [foldl_cons, hstep.1 hdone.1]
      exact ih hold hsub.2 hdone.2 hrowsS.2

theorem tryRows_new (hrows : Tracks feed s₀ ns rows) (h : Holds feed s₀ done s)
    {more : List NormalizedInput} {newRows : List MutableCanonical}
    (hmore : newRows.map bare = more.map fun n => bare (rowOf n)) (hsub : more ⊆ ns)
    (hnd : ((done ++ more).map dedupeKey).Nodup) (hrowsS : newRows ⊆ rows) :
    Holds feed s₀ (done ++ more) (newRows.foldl (tryRow feed opts) s) := by
  induction newRows generalizing more done s with
  | nil =>
    cases more with
    | nil =>
      rw [append_nil]
      exact h
    | cons n more => cases hmore
  | cons r newRows ih =>
    cases more with
    | nil => cases hmore
    | cons n more =>
      obtain ⟨hbare, hmore⟩ := cons.inj hmore
      rw [cons_subset] at hsub hrowsS
      have hassoc : done ++ n :: more = done ++ [n] ++ more := by
        rw [append_assoc, singleton_append]
      have hnew : dedupeKey n ∉ done.map dedupeKey := by
        intro hmem
        rw [map_append, map_cons] at hnd
        exact (nodup_append.mp hnd).2.2 _ hmem _ mem_cons_self rfl
      have hstep := (tryRow_step opts hrows h hrowsS.1 hsub.1 hbare).2 hnew
      rw [hassoc] at hnd ⊢
      exact ih hstep hmore hsub.2 hnd hrowsS.2

structure Delivered (feed : Feed α) (s₀ : Ledger π) (ns : List NormalizedInput)
    (s : FeedBooks α π) : Prop where
  rows : Tracks feed s₀ ns s.pipeline.rows
  ledger : Holds feed s₀ ns s.ledger

theorem delivered_opening (feed : Feed α) (s₀ : Ledger π) :
    Delivered feed s₀ [] (.opening s₀ : FeedBooks α π) where
  rows := ⟨rfl, fun _ hr => (nomatch hr), fun _ hr => (nomatch hr)⟩
  ledger := .refl feed s₀

theorem Delivered.deliver {b : FeedBooks α π} (h : Delivered feed s₀ ns b) (batch : Batch α)
    (hnd : ((ns ++ normalized feed batch.raws).map dedupeKey).Nodup)
    (hapart : Apart feed s₀ (ns ++ normalized feed batch.raws)) :
    Delivered feed s₀ (ns ++ normalized feed batch.raws) (b.deliver feed batch) := by
  have hrows := h.rows.ingest hnd hapart
  refine ⟨hrows, ?_⟩
  have hledger : (b.deliver feed batch).ledger =
      ((b.pipeline.ingest feed.toPipelineConfig batch.raws).2.rows).foldl
        (tryRow feed ⟨batch.postedAt⟩) b.ledger := postActive_eq ..
  obtain ⟨oldRows, newRows, hsplit, hold, hnew⟩ :=
    map_eq_append_iff.mp (hrows.bares.trans map_append)
  rw [hledger, hsplit, foldl_append, tryRows_done ⟨batch.postedAt⟩ hrows h.ledger hold
    (subset_append_left ..) (List.Subset.refl _)
    (hsplit ▸ subset_append_left ..)]
  exact tryRows_new ⟨batch.postedAt⟩ hrows h.ledger hnew (subset_append_right ..) hnd
    (hsplit ▸ subset_append_right ..)

theorem Apart.of_subset {ns' : List NormalizedInput} (h : Apart feed s₀ ns) (hsub : ns' ⊆ ns) :
    Apart feed s₀ ns' where
  pending := fun n hn n' hn' => h.pending n (hsub hn) n' (hsub hn')
  legs := fun n hn n' hn' => h.legs n (hsub hn) n' (hsub hn')

theorem normalized_append (raws raws' : List (RawRecord α)) :
    normalized feed (raws ++ raws') = normalized feed raws ++ normalized feed raws' :=
  flatMap_append

theorem delivered_run (cut : List (Batch α))
    (hnd : ((normalized feed (cut.flatMap Batch.raws)).map dedupeKey).Nodup)
    (hapart : Apart feed s₀ (normalized feed (cut.flatMap Batch.raws))) :
    Delivered feed s₀ (normalized feed (cut.flatMap Batch.raws))
      (cut.foldl (FeedBooks.deliver feed) (.opening s₀)) := by
  induction cut using reverseRecOn with
  | nil => exact delivered_opening feed s₀
  | append_singleton cut batch ih =>
    have hraws : normalized feed ((cut ++ [batch]).flatMap Batch.raws) =
        normalized feed (cut.flatMap Batch.raws) ++ normalized feed batch.raws := by
      rw [flatMap_append, normalized_append, flatMap_singleton]
    rw [hraws] at hnd hapart ⊢
    rw [foldl_append]
    have hbef := ih (by
      rw [map_append] at hnd
      exact (nodup_append.mp hnd).1) (hapart.of_subset (subset_append_left ..))
    exact hbef.deliver batch hnd hapart

/-- The row is in the ledger, and was not before. -/
def PostedHere (s₀ s : Ledger π) (tenant : TenantId) (id : String) : Prop :=
  s₀.store.getByIdempotencyKey tenant s!"ingest:{id}" = none ∧
    s.store.getByIdempotencyKey tenant s!"ingest:{id}" ≠ none

theorem Holds.posted_iff (h : Holds feed s₀ ns s) {tenant : TenantId} {id : String}
    (hposted : PostedHere s₀ s tenant id) : ∃ n ∈ ns, Booked feed s₀ n ∧ id = dedupeKey n := by
  obtain ⟨hbef, hafter⟩ := hposted
  rw [ne_eq, h.free, not_and] at hafter
  have hsome := hafter hbef
  push Not at hsome
  obtain ⟨n, hn, hbkd, -, hkey⟩ := hsome
  exact ⟨n, hn, hbkd, ingestKey_inj hkey⟩

/-- Where no row that would be booked is replaced by another row, or is a leg of a transfer with one,
the ledger comes to the same balances however the feed is ordered and cut into batches; of a pending
row and the one that replaces it at most one is posted, and no leg of a transfer is. -/
theorem batches_keep_the_books (feed : Feed α) (s₀ : Ledger π) (raws : List (RawRecord α))
    (hkeys : ((normalized feed raws).map dedupeKey).Nodup)
    (hapart : Apart feed s₀ (normalized feed raws)) (cut cut' : List (Batch α))
    (hcut : (cut.flatMap Batch.raws).Perm raws) (hcut' : (cut'.flatMap Batch.raws).Perm raws) :
    let s := cut.foldl (FeedBooks.deliver feed) (.opening s₀)
    let s' := cut'.foldl (FeedBooks.deliver feed) (.opening s₀)
    (∀ tenant id, balanceOf id (s.ledger.journal tenant) =
      balanceOf id (s'.ledger.journal tenant)) ∧
    (∀ tenant, ((s.ledger.journal tenant).map fun e => e.idempotencyKey).Nodup) ∧
    (∀ n ∈ normalized feed raws, ∀ n' ∈ normalized feed raws, Replaces n' n →
      ¬ PostedHere s₀ s.ledger n.tenantId (dedupeKey n)) ∧
    ∀ r ∈ s.pipeline.rows, r.isInternalTransfer = true →
      ¬ PostedHere s₀ s.ledger r.tenantId r.id := by
  intro s s'
  have hdel : ∀ cut : List (Batch α), (cut.flatMap Batch.raws).Perm raws →
      (normalized feed (cut.flatMap Batch.raws)).Perm (normalized feed raws) ∧
        Delivered feed s₀ (normalized feed (cut.flatMap Batch.raws))
          (cut.foldl (FeedBooks.deliver feed) (.opening s₀)) := by
    intro cut hcut
    have hperm : (normalized feed (cut.flatMap Batch.raws)).Perm (normalized feed raws) :=
      hcut.flatMap_right _
    exact ⟨hperm, delivered_run cut ((hperm.map dedupeKey).nodup_iff.mpr hkeys)
      (hapart.of_subset hperm.subset)⟩
  obtain ⟨hperm, hs⟩ := hdel cut hcut
  obtain ⟨hperm', hs'⟩ := hdel cut' hcut'
  -- both cuttings deliver the same records in another order
  refine ⟨fun tenant id => ?_, fun tenant => InMemoryLedgerStore.nodup_keys _ tenant,
    fun n hn n' hn' hrep hposted => ?_, fun r hr hflag hposted => ?_⟩
  · rw [hs.ledger.balance, hs'.ledger.balance]
    exact congrArg _ (((hperm.trans hperm'.symm).filter _).map _).sum_eq
  · obtain ⟨m, hm, hbkd, hkey⟩ := hs.ledger.posted_iff hposted
    rw [← inj_on_of_nodup_map hkeys hn (hperm.subset hm) hkey] at hbkd
    exact hapart.pending n hn n' hn' hrep hbkd
  · obtain ⟨m, hm, hbkd, hkey⟩ := hs.ledger.posted_iff hposted
    have hlive := hs.rows.live r hr m hm hkey hbkd
    rw [hflag] at hlive
    cases hlive.1

end
/-! A bank feed whose payload is the row itself. -/

namespace CoffeeFeed

def feed : Feed NormalizedInput where
  adapters _ := some fun raw => .ok [raw.payload]
  transferWindow := 3
  map := ⟨"cash", "sales", "sales", "sales", "sales", "sales", "sales", none⟩
  rules _ := none
  coa := Kernel.Sample.chart

def ledger : Ledger (InMemoryPeriodStore TenantId PeriodKey) := ⟨.empty, .empty⟩

def row (id : String) (status : TransactionStatus) (minor : Int) (replaces : Option String) :
    NormalizedInput where
  tenantId := "acme"
  accountId := "checking"
  externalId := id
  status := status
  date := "2026-08-01"
  amount := ⟨minor, usd⟩
  description := "Coffee"
  counterparty := none
  kind := .purchase
  supersedesExternalId := replaces
  source := ⟨"plaid", "bank.transaction", id, "1", "2026-08-02"⟩

def raw (n : NormalizedInput) : RawRecord NormalizedInput :=
  ⟨"plaid", n.accountId, n.externalId, n, "2026-08-02", "1"⟩

def batch (ns : List NormalizedInput) : Batch NormalizedInput := ⟨ns.map raw, "2026-08-03"⟩

def booksAfter (cut : List (Batch NormalizedInput)) :
    FeedBooks NormalizedInput (InMemoryPeriodStore TenantId PeriodKey) :=
  cut.foldl (FeedBooks.deliver feed) (.opening ledger)

def sale : NormalizedInput := row "s1" .posted 500 none

def coffee : NormalizedInput := row "c2" .posted (-100) none

def pending : NormalizedInput := row "c1" .pending (-100) none

def posted : NormalizedInput := row "c2" .posted (-100) (some "c1")

end CoffeeFeed

open CoffeeFeed in
theorem rows_booked_in_any_cut :
    balanceOf "cash" ((booksAfter [batch [sale], batch [coffee]]).ledger.journal "acme") =
      balanceOf "cash" ((booksAfter [batch [coffee, sale]]).ledger.journal "acme") := by
  have hapart : Apart feed ledger (normalized feed [raw sale, raw coffee]) := by
    refine ⟨fun n hn n' _ h => ?_, fun n hn n' hn' h => ?_⟩
    · have hposted : ∀ n ∈ normalized feed [raw sale, raw coffee], n.status = .posted := by
        decide +kernel
      exact absurd ((hposted n hn).symm.trans h.2.1) nofun
    · have hnone : ∀ n ∈ normalized feed [raw sale, raw coffee],
          ∀ n' ∈ normalized feed [raw sale, raw coffee],
            isPair feed.transferWindow (rowOf n) (rowOf n') = false := by
        decide +kernel
      exact absurd ((hnone n hn n' hn').symm.trans h.2.2.2.2) nofun
  exact (batches_keep_the_books feed ledger [raw sale, raw coffee] (by decide +kernel) hapart
    [batch [sale], batch [coffee]] [batch [coffee, sale]] (.refl _) (.swap ..)).1 "acme" "cash"

open CoffeeFeed in
theorem pending_row_is_booked_twice : ¬ ∀ raws cut cut',
    ((normalized feed raws).map dedupeKey).Nodup → (cut.flatMap Batch.raws).Perm raws →
    (cut'.flatMap Batch.raws).Perm raws → ∀ tenant id,
      balanceOf id ((booksAfter cut).ledger.journal tenant) =
        balanceOf id ((booksAfter cut').ledger.journal tenant) := by
  intro h
  have hsame := h [raw pending, raw posted] [batch [pending], batch [posted]]
    [batch [pending, posted]] (by decide +kernel) (.refl _) (.refl _) "acme" "cash"
  have htwice : balanceOf "cash" ((booksAfter [batch [pending], batch [posted]]).ledger.journal
      "acme") = -200 := by decide +kernel
  have honce : balanceOf "cash" ((booksAfter [batch [pending, posted]]).ledger.journal
      "acme") = -100 := by decide +kernel
  rw [htwice, honce] at hsame
  cases hsame

end Rgnr8.Ingestion
