import Rgnr8.Ingestion.Pipeline

/-! A feed that comes in batches: each batch is ingested, and then all live rows are posted. Rows that
neither replace one another nor make a transfer are booked once each, however they are cut into
batches. -/

namespace Rgnr8.Ingestion
open Lib Kernel List

/-- The adapters, and where the rows are posted to. -/
structure Feed (α : Type) extends PipelineConfig α where
  map : AccountMap
  rules : RuleSet
  coa : ChartOfAccounts

structure Batch (α : Type) where
  raws : List (RawRecord α)
  postedAt : String

structure FeedBooks (α π : Type) where
  pipeline : IngestionPipeline α
  ledger : Ledger π

section
variable {α π : Type} [PeriodStore π] (feed : Feed α)

def FeedBooks.opening (ledger : Ledger π) : FeedBooks α π := ⟨.empty, ledger⟩

def FeedBooks.deliver (s : FeedBooks α π) (batch : Batch α) : FeedBooks α π :=
  let pipeline := (s.pipeline.ingest feed.toPipelineConfig batch.raws).2
  ⟨pipeline, ((postCanonicalToLedger pipeline.active feed.map feed.rules feed.coa
    ⟨batch.postedAt⟩).run LedgerCall.exec s.ledger).2⟩

def rowsOf (raw : RawRecord α) : List NormalizedInput :=
  match feed.adapters raw.provider with
  | none => []
  | some normalize => match normalize raw with
    | .error _ => []
    | .ok normalized => normalized

def normalized (raws : List (RawRecord α)) : List NormalizedInput := raws.flatMap (rowsOf feed)

def rowCommand (n : NormalizedInput) : PostCommand :=
  commandOf feed.map feed.rules (rowOf n).toPublic

def Booked (ledger : Ledger π) (n : NormalizedInput) : Prop :=
  n.amount.minorUnits ≠ 0 ∧ ledger.Appends feed.coa (rowCommand feed n)

instance (ledger : Ledger π) (n : NormalizedInput) : Decidable (Booked feed ledger n) :=
  inferInstanceAs (Decidable (_ ∧ _))

end

def Replaces (posted pending : NormalizedInput) : Prop :=
  posted.status = .posted ∧ pending.status = .pending ∧
    ∃ external, (rowOf posted).supersedesExternalId = some external ∧
      dedupeKey pending = s!"{posted.source.provider}:{posted.accountId}:{external}"

def MakesTransfer (windowDays : Nat) (n n' : NormalizedInput) : Prop :=
  n.status = .posted ∧ n'.status = .posted ∧ n.amount.minorUnits ≠ 0 ∧ n'.amount.minorUnits ≠ 0 ∧
    isPair windowDays (rowOf n) (rowOf n') = true

structure Apart {α π : Type} [PeriodStore π] (feed : Feed α) (ledger : Ledger π)
    (ns : List NormalizedInput) : Prop where
  pending : ∀ n ∈ ns, ∀ n' ∈ ns, Replaces n' n → ¬ Booked feed ledger n
  legs : ∀ n ∈ ns, ∀ n' ∈ ns, MakesTransfer feed.transferWindow n n' →
    ¬ Booked feed ledger n ∧ ¬ Booked feed ledger n'

/-! The rows of the pipeline are those that came in, but for what the pipeline marks on them. -/

/-- A row without the marks. -/
def bare (r : MutableCanonical) : MutableCanonical :=
  { r with
    kind := .other, isInternalTransfer := false, supersedes := none, supersededBy := none
    superseded := false }

section
variable {α π : Type} [PeriodStore π] {feed : Feed α} {ledger : Ledger π}
variable {ns : List NormalizedInput} {rows : List MutableCanonical}

structure Tracks (feed : Feed α) (ledger : Ledger π) (ns : List NormalizedInput)
    (rows : List MutableCanonical) : Prop where
  bares : rows.map bare = ns.map fun n => bare (rowOf n)
  kind : ∀ r ∈ rows, ∀ n ∈ ns, r.id = dedupeKey n → r.isInternalTransfer = false → r.kind = n.kind
  live : ∀ r ∈ rows, ∀ n ∈ ns, r.id = dedupeKey n → Booked feed ledger n →
    r.isInternalTransfer = false ∧ r.supersededBy.getD "" = ""

theorem Tracks.ids (h : Tracks feed ledger ns rows) :
    rows.map (fun r => r.id) = ns.map dedupeKey := by
  have hids := congrArg (map fun r : MutableCanonical => r.id) h.bares
  rw [map_map, map_map] at hids
  exact hids

variable {r : MutableCanonical} {n : NormalizedInput}

theorem Tracks.input (h : Tracks feed ledger ns rows) (hr : r ∈ rows) :
    ∃ n ∈ ns, bare r = bare (rowOf n) := by
  have hmem : bare r ∈ ns.map fun n => bare (rowOf n) := by
    rw [← h.bares]
    exact mem_map_of_mem hr
  obtain ⟨n, hn, heq⟩ := mem_map.mp hmem
  exact ⟨n, hn, heq.symm⟩

theorem id_of_bare (h : bare r = bare (rowOf n)) :
    r.id = dedupeKey n := congrArg (fun r : MutableCanonical => r.id) h

theorem Tracks.bare_eq (h : Tracks feed ledger ns rows) (hnd : (ns.map dedupeKey).Nodup)
    (hr : r ∈ rows) (hn : n ∈ ns) (hid : r.id = dedupeKey n) : bare r = bare (rowOf n) := by
  obtain ⟨n', hn', hbare⟩ := h.input hr
  rw [inj_on_of_nodup_map hnd hn hn' (hid.symm.trans (id_of_bare hbare))]
  exact hbare

theorem Tracks.append {more : List NormalizedInput} (h : Tracks feed ledger ns rows)
    (hnd : ((ns ++ more).map dedupeKey).Nodup) :
    Tracks feed ledger (ns ++ more) (rows ++ more.map rowOf) where
  bares := by
    rw [map_append, map_append, map_map, h.bares]
    rfl
  kind := by
    intro r hr n hn hid hflag
    rcases mem_append.mp hr with hold | hnew
    · obtain ⟨n', hn', hbare⟩ := h.input hold
      have hsame := inj_on_of_nodup_map hnd hn (mem_append_left _ hn')
        (hid.symm.trans (id_of_bare hbare))
      exact h.kind r hold n (hsame ▸ hn') hid hflag
    · obtain ⟨n', hn', rfl⟩ := mem_map.mp hnew
      rw [← inj_on_of_nodup_map hnd (mem_append_right _ hn') hn hid]
      rfl
  live := by
    intro r hr n hn hid hbkd
    rcases mem_append.mp hr with hold | hnew
    · obtain ⟨n', hn', hbare⟩ := h.input hold
      have hsame := inj_on_of_nodup_map hnd hn (mem_append_left _ hn')
        (hid.symm.trans (id_of_bare hbare))
      exact h.live r hold n (hsame ▸ hn') hid hbkd
    · obtain ⟨n', -, rfl⟩ := mem_map.mp hnew
      exact ⟨rfl, rfl⟩

/-- Rows are marked one by one: what keeps the rest of a row, and marks nothing that would be booked,
leaves the rows tracked. -/
theorem Tracks.map {f : MutableCanonical → MutableCanonical} (h : Tracks feed ledger ns rows)
    (hbare : ∀ r, bare (f r) = bare r)
    (hkind : ∀ r, (f r).isInternalTransfer = false → r.isInternalTransfer = false ∧
      (f r).kind = r.kind)
    (hlive : ∀ r ∈ rows, ∀ n ∈ ns, r.id = dedupeKey n → Booked feed ledger n →
      (f r).isInternalTransfer = r.isInternalTransfer ∧ (f r).supersededBy = r.supersededBy) :
    Tracks feed ledger ns (rows.map f) where
  bares := by
    rw [map_map, ← h.bares]
    exact map_congr_left fun r _ => hbare r
  kind := by
    intro r' hr' n hn hid hflag
    obtain ⟨r, hr, rfl⟩ := mem_map.mp hr'
    have hid' : r.id = dedupeKey n :=
      (congrArg (fun r : MutableCanonical => r.id) (hbare r)).symm.trans hid
    obtain ⟨hold, hsame⟩ := hkind r hflag
    exact hsame.trans (h.kind r hr n hn hid' hold)
  live := by
    intro r' hr' n hn hid hbkd
    obtain ⟨r, hr, rfl⟩ := mem_map.mp hr'
    have hid' : r.id = dedupeKey n :=
      (congrArg (fun r : MutableCanonical => r.id) (hbare r)).symm.trans hid
    obtain ⟨hflag, hby⟩ := hlive r hr n hn hid' hbkd
    rw [hflag, hby]
    exact h.live r hr n hn hid' hbkd

theorem fields_of_bare (h : bare r = bare (rowOf n)) :
    r.status = n.status ∧ r.accountId = n.accountId ∧ r.source = n.source ∧ r.amount = n.amount ∧
      r.supersedesExternalId = (rowOf n).supersedesExternalId :=
  ⟨congrArg (fun r : MutableCanonical => r.status) h,
    congrArg (fun r : MutableCanonical => r.accountId) h,
    congrArg (fun r : MutableCanonical => r.source) h,
    congrArg (fun r : MutableCanonical => r.amount) h,
    (congrArg (fun r : MutableCanonical => r.supersedesExternalId) h :
      (bare r).supersedesExternalId = (bare (rowOf n)).supersedesExternalId)⟩

theorem id_of_find {rows : List MutableCanonical} {id : String}
    (h : rows.find? (fun r => r.id = id) = some r) : r ∈ rows ∧ r.id = id := by
  refine ⟨mem_of_find?_eq_some h, ?_⟩
  exact of_decide_eq_true (find?_some (p := fun r : MutableCanonical => decide (r.id = id)) h)

theorem Tracks.supersede (hnd : (ns.map dedupeKey).Nodup) (hapart : Apart feed ledger ns)
    {acc : Nat × List MutableCanonical} (h : Tracks feed ledger ns acc.2) (id : String) :
    Tracks feed ledger ns (Ingestion.supersede acc id).2 := by
  unfold Ingestion.supersede
  cases hposted : acc.2.find? (fun r => r.id = id) with
  | none => exact h
  | some posted =>
    cases hext : posted.supersedesExternalId with
    | none =>
      simp only [hext]
      exact h
    | some external =>
      simp only [hext]
      cases hpend : acc.2.find?
          (fun r => r.id = s!"{posted.source.provider}:{posted.accountId}:{external}") with
      | none => exact h
      | some pending =>
        dsimp only
        split_ifs with hmarks
        · obtain ⟨hpost, -⟩ := id_of_find hposted
          obtain ⟨hpen, hpendin⟩ := id_of_find hpend
          obtain ⟨n', hn', hbare'⟩ := h.input hpost
          obtain ⟨hstatus', hacct', hsrc', -, hext'⟩ := fields_of_bare hbare'
          refine h.map (fun r => ?_) (fun r => ?_) fun r hr n hn hid hbkd => ?_
          · split_ifs <;> rfl
          · split_ifs <;> exact fun hflag => ⟨hflag, rfl⟩
          · split_ifs with hsame
            · -- the row that is replaced would not have been booked
              have hbare := h.bare_eq hnd hpen hn (hsame ▸ hid)
              refine absurd hbkd (hapart.pending n hn n' hn' ⟨?_, ?_, external, ?_, ?_⟩)
              · rw [← hstatus', hmarks.1]
              · rw [← (fields_of_bare hbare).1, hmarks.2.1]
              · rw [← hext', hext]
              · rw [← id_of_bare hbare, hpendin, hsrc', hacct']
            · exact ⟨rfl, rfl⟩
            · exact ⟨rfl, rfl⟩
        · exact h

theorem Tracks.resolve (hnd : (ns.map dedupeKey).Nodup) (hapart : Apart feed ledger ns)
    (h : Tracks feed ledger ns rows) (added : List String) :
    Tracks feed ledger ns (resolvePendingPosted rows added).2 := by
  unfold resolvePendingPosted
  have hfold : ∀ (added : List String) (acc : Nat × List MutableCanonical), Tracks feed ledger ns acc.2 →
      Tracks feed ledger ns (added.foldl Ingestion.supersede acc).2 := by
    intro added
    induction added with
    | nil => exact fun acc h => h
    | cons id added ih => exact fun acc h => ih _ (h.supersede hnd hapart id)
  exact hfold added (0, rows) h

theorem mem_transferPairs {windowDays : Nat} {opened : List MutableCanonical} {matched : List String}
    {p : String × String} (h : p ∈ transferPairs windowDays matched opened) :
    ∃ a ∈ opened, ∃ b ∈ opened, a.id = p.1 ∧ b.id = p.2 ∧ isPair windowDays a b = true := by
  induction opened generalizing matched with
  | nil => cases h
  | cons a rest ih =>
    have hlater : ∀ {matched}, p ∈ transferPairs windowDays matched rest →
        ∃ a' ∈ a :: rest, ∃ b ∈ a :: rest, a'.id = p.1 ∧ b.id = p.2 ∧
          isPair windowDays a' b = true := by
      intro matched hp
      obtain ⟨a', ha', b, hb, hpair⟩ := ih hp
      exact ⟨a', mem_cons_of_mem _ ha', b, mem_cons_of_mem _ hb, hpair⟩
    unfold transferPairs at h
    split_ifs at h with hmat
    · exact hlater h
    · cases hfind : rest.find? fun b => b.id ∉ matched ∧ isPair windowDays a b = true with
      | none =>
        rw [hfind] at h
        exact hlater h
      | some b =>
        rw [hfind] at h
        rcases mem_cons.mp h with rfl | hp
        · have hfits := of_decide_eq_true (find?_some
            (p := fun b => decide (b.id ∉ matched ∧ isPair windowDays a b = true)) hfind)
          exact ⟨a, mem_cons_self, b, mem_cons_of_mem _ (mem_of_find?_eq_some hfind),
            rfl, rfl, hfits.2⟩
        · exact hlater hp

theorem isPair_of_bare {windowDays : Nat} {a b a' b' : MutableCanonical} (ha : bare a = bare a')
    (hb : bare b = bare b') : isPair windowDays a b = isPair windowDays a' b' := by
  have hbare : ∀ a b, isPair windowDays (bare a) (bare b) = isPair windowDays a b := fun _ _ => rfl
  rw [← hbare a b, ha, hb, hbare]

theorem Tracks.detect (hnd : (ns.map dedupeKey).Nodup) (hapart : Apart feed ledger ns)
    (h : Tracks feed ledger ns rows) :
    Tracks feed ledger ns (detectInternalTransfers rows feed.transferWindow).2 := by
  unfold detectInternalTransfers
  refine h.map (fun r => ?_) (fun r => ?_) fun r hr n hn hid hbkd => ?_
  · split_ifs <;> rfl
  · split_ifs
    · exact fun hflag => nomatch hflag
    · exact fun hflag => ⟨hflag, rfl⟩
  · rw [if_neg]
    · exact ⟨rfl, rfl⟩
    · intro hleg
      obtain ⟨p, hp, hmem⟩ := mem_flatMap.mp hleg
      obtain ⟨a, ha, b, hb, hida, hidb, hpair⟩ := mem_transferPairs hp
      obtain ⟨ha, hopenA⟩ := mem_filter.mp ha
      obtain ⟨hb, hopenB⟩ := mem_filter.mp hb
      obtain ⟨na, hna, hbareA⟩ := h.input ha
      obtain ⟨nb, hnb, hbareB⟩ := h.input hb
      have hopenA := of_decide_eq_true hopenA
      have hopenB := of_decide_eq_true hopenB
      obtain ⟨hstat, -, -, hamoun, -⟩ := fields_of_bare hbareA
      obtain ⟨hstatusB, -, -, hamountB, -⟩ := fields_of_bare hbareB
      have hlegs := hapart.legs na hna nb hnb ⟨hstat ▸ hopenA.1, hstatusB ▸ hopenB.1,
        hamoun ▸ hopenA.2.2.2, hamountB ▸ hopenB.2.2.2, by
          rw [← isPair_of_bare hbareA hbareB, hpair]⟩
      rw [mem_cons, mem_singleton] at hmem
      rcases hmem with hmem | hmem
      · have hsame := inj_on_of_nodup_map hnd hn hna
          (hid.symm.trans (hmem.trans (hida.symm.trans (id_of_bare hbareA))))
        exact hlegs.1 (hsame ▸ hbkd)
      · have hsame := inj_on_of_nodup_map hnd hn hnb
          (hid.symm.trans (hmem.trans (hidb.symm.trans (id_of_bare hbareB))))
        exact hlegs.2 (hsame ▸ hbkd)

omit [PeriodStore π] in
theorem rows_addRows {s : Ingesting α} {more : List NormalizedInput}
    (hnd : (s.pipeline.rows.map (fun r => r.id) ++ more.map dedupeKey).Nodup) :
    (more.foldl Ingesting.addRow s).pipeline.rows = s.pipeline.rows ++ more.map rowOf := by
  induction more generalizing s with
  | nil => exact (append_nil _).symm
  | cons n more ih =>
    have hnew : s.pipeline.seen (dedupeKey n) = false := by
      unfold IngestionPipeline.seen
      rw [Bool.eq_false_iff]
      intro hseen
      obtain ⟨r, hr, hid⟩ := any_eq_true.mp hseen
      refine (nodup_append.mp hnd).2.2 r.id (mem_map_of_mem hr) (dedupeKey n)
        mem_cons_self (of_decide_eq_true hid)
    have hrows : (s.addRow n).pipeline.rows = s.pipeline.rows ++ [rowOf n] := by
      unfold Ingesting.addRow
      rw [hnew]
      rfl
    rw [foldl_cons, ih, hrows, append_assoc]
    · rfl
    · rw [hrows, map_append, append_assoc]
      exact hnd

omit [PeriodStore π] in
theorem rows_addRaw (s : Ingesting α) (raw : RawRecord α)
    (hnd : (s.pipeline.rows.map (fun r => r.id) ++ (rowsOf feed raw).map dedupeKey).Nodup) :
    (s.addRaw feed.toPipelineConfig raw).pipeline.rows =
      s.pipeline.rows ++ (rowsOf feed raw).map rowOf := by
  have harc : (s.archiveRaw raw).pipeline.rows = s.pipeline.rows := by
    unfold Ingesting.archiveRaw
    split_ifs <;> rfl
  unfold Ingesting.addRaw
  unfold rowsOf at hnd ⊢
  dsimp only
  cases hadap : feed.adapters raw.provider with
  | none =>
    rw [map_nil, append_nil]
    exact harc
  | some normalize =>
    rw [hadap] at hnd
    dsimp only at hnd ⊢
    cases hnor : normalize raw with
    | error message =>
      rw [map_nil, append_nil]
      exact harc
    | ok ns =>
      rw [hnor] at hnd
      dsimp only at hnd ⊢
      rw [← harc] at hnd ⊢
      exact rows_addRows hnd

omit [PeriodStore π] in
theorem rows_addRaws (s : Ingesting α) (raws : List (RawRecord α))
    (hnd : (s.pipeline.rows.map (fun r => r.id) ++
      (normalized feed raws).map dedupeKey).Nodup) :
    (raws.foldl (Ingesting.addRaw feed.toPipelineConfig) s).pipeline.rows =
      s.pipeline.rows ++ (normalized feed raws).map rowOf := by
  induction raws generalizing s with
  | nil => exact (append_nil _).symm
  | cons raw raws ih =>
    have hcons : normalized feed (raw :: raws) = rowsOf feed raw ++ normalized feed raws := rfl
    rw [hcons, map_append, ← append_assoc] at hnd
    have hrows := rows_addRaw s raw (nodup_append.mp hnd).1
    rw [foldl_cons, ih, hrows, hcons, map_append, append_assoc]
    rw [hrows, map_append, map_map]
    exact hnd

theorem Tracks.ingest {pipeline : IngestionPipeline α} {raws : List (RawRecord α)}
    (h : Tracks feed ledger ns pipeline.rows)
    (hnd : ((ns ++ normalized feed raws).map dedupeKey).Nodup)
    (hapart : Apart feed ledger (ns ++ normalized feed raws)) :
    Tracks feed ledger (ns ++ normalized feed raws)
      (pipeline.ingest feed.toPipelineConfig raws).2.rows := by
  have hrows : (raws.foldl (Ingesting.addRaw feed.toPipelineConfig)
      ⟨pipeline, [], [], 0, 0⟩).pipeline.rows =
        pipeline.rows ++ (normalized feed raws).map rowOf := by
    refine rows_addRaws ⟨pipeline, [], [], 0, 0⟩ raws ?_
    rw [h.ids, ← map_append]
    exact hnd
  have hadded := h.append hnd
  rw [← hrows] at hadded
  exact (hadded.resolve hnd hapart _).detect hnd hapart

end
end Rgnr8.Ingestion
