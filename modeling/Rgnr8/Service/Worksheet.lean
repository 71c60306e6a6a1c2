import Rgnr8.Service.Consolidation

/-! When the consolidation worksheet adds up. Entities are merged by account id, while the columns
and the eliminations are found by code. -/

namespace Rgnr8.Service.Consolidation
open Lib Lib.Js Fallible Kernel Rgnr8.Statements Service.Statements List

/-! What entities hold. -/

theorem sum_signedBalance {localeLe : String → String → Bool} {coa : ChartOfAccounts}
    {currency : Currency} {window : Option DateWindow} {journal : List PostedEntry}
    (h : Covers coa (entriesIn window journal))
    (hbal : ∀ e ∈ journal, sideTotal .debit e.lines = sideTotal .credit e.lines) :
    ((signedBalance localeLe coa currency window journal).entries.map
      TrialBalanceEntry.signed).sum = 0 := by
  have hsum := @sum_entries_class localeLe coa currency window journal h fun _ => true
  simp only [if_true] at hsum
  refine hsum.trans ?_
  have hone : weighed (classWeight coa fun _ => true) (entriesIn window journal) =
      weighed (fun _ => 1) (entriesIn window journal) := by
    refine weighed_congr fun e he l hl => ?_
    obtain ⟨a, ha⟩ := Option.isSome_iff_exists.mp (h e he l hl)
    rw [classWeight_of_get ha]
    rfl
  rw [hone]
  exact weighed_one fun e he => hbal e (mem_of_mem_filter he)

theorem sum_translated (localeLe : String → String → Bool) (tb : Rgnr8.Statements.TrialBalance)
    (currency : Currency) (entityId : String) (rates : TranslationRatesMicro) :
    ((translateTrialBalance localeLe tb currency entityId rates).tb.entries.map
      TrialBalanceEntry.signed).sum = 0 := by
  unfold translateTrialBalance makeTrialBalance
  dsimp only
  refine ((perm_insertionSort _ _).map TrialBalanceEntry.signed).sum_eq.trans ?_
  split_ifs with hzero
  · rw [map_append, sum_append, map_singleton, sum_singleton]
    exact Int.add_right_neg _
  · exact not_not.mp hzero

variable {ctx : ConsolidationContext} {group : GroupRecord} {window : DateWindow}
variable {entities : List EntityBalances}

theorem sum_memberBalances {member : GroupMember} {e : EntityBalances}
    (h : memberBalances ctx window member = .ok e) :
    e.member = member ∧ (e.tb.entries.map TrialBalanceEntry.signed).sum = 0 := by
  have hbooks := (ctx.books member.tenantId).covers.entriesIn (some window)
  simp only [memberBalances, refuse_eq_ok] at h
  obtain ⟨-, h⟩ := h
  generalize (if ctx.settings.baseCurrency = "" then ctx.currency.code
    else ctx.settings.baseCurrency) = base at h
  split_ifs at h with hfor hoff hrate
  · obtain rfl := Except.ok.inj h
    exact ⟨rfl, sum_translated ..⟩
  · obtain rfl := Except.ok.inj h
    exact ⟨rfl, sum_signedBalance hbooks (ctx.books member.tenantId).balanced⟩

theorem members_entityBalances (h : entityBalances ctx group window = .ok entities) :
    entities.map EntityBalances.member = group.members := by
  have hall := mapM_eq_ok.mp h
  clear h
  generalize group.members = members at hall
  induction hall with
  | nil => rfl
  | cons hab _ ih => rw [map_cons, ih, (sum_memberBalances hab).1]

theorem sum_allEntries (h : entityBalances ctx group window = .ok entities) :
    ((allEntries entities).map TrialBalanceEntry.signed).sum = 0 := by
  have hall := mapM_eq_ok.mp h
  clear h
  unfold allEntries
  generalize group.members = members at hall
  induction hall with
  | nil => rfl
  | cons hab _ ih =>
    rw [flatMap_cons, map_append, sum_append, ih, (sum_memberBalances hab).2, Int.add_zero]

/-- No entity lists a code twice, and over all of them an account is known by its code and a code
by its account. -/
structure OneChart (entities : List EntityBalances) : Prop where
  once : ∀ e ∈ entities, (e.tb.entries.map TrialBalanceEntry.code).Nodup
  aligned : Aligned (allEntries entities)

instance (entities : List EntityBalances) : Decidable (OneChart entities) :=
  decidable_of_iff ((∀ e ∈ entities, (e.tb.entries.map TrialBalanceEntry.code).Nodup) ∧
      ∀ x ∈ allEntries entities, ∀ y ∈ allEntries entities,
        x.accountId = y.accountId ↔ x.code = y.code)
    ⟨fun h => ⟨h.1, h.2⟩, fun h => ⟨h.once, h.aligned⟩⟩

theorem signedAt_eq {tb : Rgnr8.Statements.TrialBalance}
    (h : (tb.entries.map TrialBalanceEntry.code).Nodup) (code : String) :
    signedAt tb code = signedUnder code tb.entries := by
  unfold signedAt entryAt
  generalize tb.entries = entries at h
  induction entries with
  | nil => rfl
  | cons e entries ih =>
    rw [map_cons, nodup_cons] at h
    have hcons : signedUnder code (e :: entries) =
        (if e.code = code then e.signed else 0) + signedUnder code entries := sum_cons
    rw [hcons]
    by_cases hcode : e.code = code
    · have hoff : signedUnder code entries = 0 := by
        refine signedUnder_of_off fun x hx heq => h.1 ?_
        rw [hcode, ← heq]
        exact mem_map_of_mem hx
      rw [find?_cons_of_pos (by simpa using hcode), if_pos hcode, hoff, Int.add_zero]
      rfl
    · rw [find?_cons_of_neg (by simpa using hcode), if_neg hcode, Int.zero_add]
      exact ih h.2

theorem combinedAt_eq (h : OneChart entities) (code : String) :
    combinedAt entities code = signedUnder code (allEntries entities) := by
  have honce := h.once
  unfold combinedAt allEntries
  clear h
  induction entities with
  | nil => rfl
  | cons e entities ih =>
    rw [forall_mem_cons] at honce
    rw [map_cons, sum_cons, flatMap_cons, signedUnder_append, ih honce.2,
      signedAt_eq honce.1]

theorem sum_byEntityAt (h : (entities.map fun e => e.member.tenantId).Nodup) (code : String) :
    (byEntityAt entities code).values.sum = combinedAt entities code := by
  have hput : ∀ (es : List (TenantId × Int)) (k : TenantId) (n : Int), k ∉ es.map Prod.fst →
      OrderedMap.put es k n = es ++ [(k, n)] := by
    intro es k n hk
    induction es with
    | nil => rfl
    | cons e es ih =>
      rw [map_cons, mem_cons, not_or] at hk
      rw [OrderedMap.put_cons_ne (Ne.symm hk.1), ih hk.2, cons_append]
  have hfold : ∀ (m : OrderedMap TenantId Int), (∀ e ∈ entities, e.member.tenantId ∉ m.keys) →
      (entities.foldl (fun m e => m.set e.member.tenantId (signedAt e.tb code)) m).values.sum =
        m.values.sum + combinedAt entities code := by
    induction entities with
    | nil => exact fun m _ => (Int.add_zero _).symm
    | cons e entities ih =>
      intro m hnew
      rw [map_cons, nodup_cons] at h
      rw [forall_mem_cons] at hnew
      have hset : (m.set e.member.tenantId (signedAt e.tb code)).entries =
          m.entries ++ [(e.member.tenantId, signedAt e.tb code)] := hput _ _ _ hnew.1
      have hkeys : ∀ x ∈ entities, x.member.tenantId ∉
          (m.set e.member.tenantId (signedAt e.tb code)).keys := by
        intro x hx hmem
        unfold OrderedMap.keys at hmem
        rw [hset, map_append, mem_append, map_singleton, mem_singleton] at hmem
        rcases hmem with hmem | hsame
        · exact hnew.2 x hx hmem
        · exact h.1 (mem_map.mpr ⟨x, hx, hsame⟩)
      have hcons : combinedAt (e :: entities) code =
          signedAt e.tb code + combinedAt entities code := sum_cons
      rw [foldl_cons, ih h.2 _ hkeys, hcons]
      unfold OrderedMap.values
      rw [hset, map_append, sum_append, map_singleton, sum_singleton]
      ring
  have hemp := hfold .empty fun _ _ => not_mem_nil
  rw [byEntityAt, hemp]
  exact Int.zero_add _

/-! What is eliminated. -/

def Booked (entities : List EntityBalances) (lines : List EliminationLine) : Prop :=
  ∀ l ∈ lines, ∃ x ∈ allEntries entities, x.accountId = l.accountId ∧ x.code = l.code

variable {lines : List EliminationLine} {code : String}

theorem exists_of_accountOf {x : TrialBalanceEntry} (h : accountOf entities code = some x) :
    x ∈ allEntries entities ∧ x.code = code :=
  ⟨mem_of_find?_eq_some h, by simpa using find?_some h⟩

theorem push_eq_ok {p : Push} {l : EliminationLine} (h : push entities p = .ok l) :
    l.code = p.code ∧ l.signed = p.signedMinor ∧
      ∃ x ∈ allEntries entities, x.accountId = l.accountId ∧ x.code = l.code := by
  unfold push at h
  cases hacc : accountOf entities p.code with
  | none => rw [hacc] at h; cases h
  | some x =>
    rw [hacc] at h
    obtain rfl := Except.ok.inj h
    obtain ⟨hmem, hcode⟩ := exists_of_accountOf hacc
    exact ⟨rfl, rfl, x, hmem, rfl, hcode⟩

theorem residualLine_eq_ok {net : Int} {residual : List EliminationLine}
    (h : residualLine entities group net = .ok residual) :
    Booked entities residual ∧ (residual.map TrialBalanceEntry.signed).sum = -net ∧
      (net = 0 → residual = []) := by
  unfold residualLine at h
  by_cases hzero : net = 0
  · rw [if_pos hzero] at h
    obtain rfl := Except.ok.inj h
    refine ⟨fun l hl => absurd hl not_mem_nil, ?_, fun _ => rfl⟩
    rw [hzero]
    rfl
  · rw [if_neg hzero] at h
    dsimp only at h
    cases hacc : accountOf entities (group.intercompanyCodes.head?.getD "") with
    | none => rw [hacc] at h; cases h
    | some x =>
      rw [hacc] at h
      obtain rfl := Except.ok.inj h
      obtain ⟨hmem, hcode⟩ := exists_of_accountOf hacc
      refine ⟨fun l hl => ?_, sum_singleton, fun h => absurd h hzero⟩
      rw [mem_singleton.mp hl]
      exact ⟨x, hmem, rfl, hcode⟩

theorem Booked.aligned (h : Booked entities lines) (halig : Aligned (allEntries entities)) :
    Aligned (allEntries entities ++ lines) := by
  have hsame : ∀ x ∈ allEntries entities ++ lines, ∃ y ∈ allEntries entities,
      y.accountId = x.accountId ∧ y.code = x.code := by
    intro x hx
    rcases mem_append.mp hx with hx | hx
    · exact ⟨x, hx, rfl, rfl⟩
    · exact h x hx
  intro x hx y hy
  obtain ⟨x', hx', hid, hcode⟩ := hsame x hx
  obtain ⟨y', hy', hid', hcode'⟩ := hsame y hy
  rw [← hid, ← hid', ← hcode, ← hcode']
  exact halig x' hx' y' hy'

def pushedUnder (code : String) (pushes : List Push) : Int :=
  (pushes.map fun p => if p.code = code then p.signedMinor else 0).sum

theorem signedUnder_pushes {pushes : List Push}
    (h : List.Forall₂ (fun p l => push entities p = .ok l) pushes lines) (code : String) :
    signedUnder code lines = pushedUnder code pushes := by
  unfold signedUnder pushedUnder
  induction h with
  | nil => rfl
  | cons hab _ ih =>
    obtain ⟨hcode, hsgn, -⟩ := push_eq_ok hab
    rw [map_cons, sum_cons, map_cons, sum_cons, ih, hcode, hsgn]

theorem pushedUnder_filter (code : String) (pushes : List Push) :
    pushedUnder code (pushes.filter fun p => p.signedMinor ≠ 0) = pushedUnder code pushes := by
  unfold pushedUnder
  rw [sum_filter]
  refine congrArg sum (map_congr_left fun p _ => ?_)
  by_cases hzero : p.signedMinor = 0
  · simp [hzero]
  · simp [hzero]

theorem pushedUnder_append (code : String) (pushes pushes' : List Push) :
    pushedUnder code (pushes ++ pushes') = pushedUnder code pushes + pushedUnder code pushes' := by
  unfold pushedUnder
  rw [map_append, sum_append]

theorem pushedUnder_of_off {pushes : List Push} (h : ∀ p ∈ pushes, p.code ≠ code) :
    pushedUnder code pushes = 0 := by
  refine sum_eq_zero fun n hn => ?_
  obtain ⟨p, hp, rfl⟩ := mem_map.mp hn
  exact if_neg (h p hp)

theorem pushedUnder_entities (entities : List EntityBalances) (code : String) :
    pushedUnder code (entities.filterMap fun e =>
      ((entryAt e.tb code).filter fun entry => entry.signed ≠ 0).map fun entry =>
        ⟨entry.code, -entry.signed, "intercompany"⟩) = -combinedAt entities code := by
  induction entities with
  | nil => rfl
  | cons e entities ih =>
    have hcom : combinedAt (e :: entities) code =
        signedAt e.tb code + combinedAt entities code := sum_cons
    rw [hcom, Int.neg_add, ← ih]
    unfold signedAt
    cases hent : entryAt e.tb code with
    | none => simp [hent]
    | some entry =>
      have hcode : entry.code = code := by simpa using find?_some hent
      by_cases hzero : entry.signed = 0
      · simp [hent, hzero]
      · simp [hent, hzero, pushedUnder, hcode]

theorem pushedUnder_intercompany {codes : List String} (hnd : codes.Nodup)
    (hmem : code ∈ codes) : pushedUnder code (intercompanyPushes entities codes) =
      -combinedAt entities code := by
  unfold intercompanyPushes
  induction codes with
  | nil => exact absurd hmem not_mem_nil
  | cons c codes ih =>
    rw [nodup_cons] at hnd
    have hoff : ∀ cs : List String, code ∉ cs → pushedUnder code (intercompanyPushes entities cs) =
        0 := by
      intro cs hcs
      refine pushedUnder_of_off fun p hp => ?_
      obtain ⟨c', hc', hp⟩ := mem_flatMap.mp hp
      obtain ⟨e, -, hp⟩ := mem_filterMap.mp hp
      obtain ⟨entry, hent, rfl⟩ := Option.map_eq_some_iff.mp hp
      have hfound := (Option.filter_eq_some_iff.mp hent).1
      have hcode : entry.code = c' := by simpa using find?_some hfound
      exact fun heq => hcs (by rw [← heq, hcode]; exact hc')
    rw [flatMap_cons, pushedUnder_append]
    rcases mem_cons.mp hmem with rfl | hmem
    · have hrest := hoff codes hnd.1
      unfold intercompanyPushes at hrest
      rw [hrest, Int.add_zero]
      exact pushedUnder_entities entities code
    · have hne : code ∉ [c] := fun heq => hnd.1 (mem_singleton.mp heq ▸ hmem)
      have hfst := hoff [c] hne
      unfold intercompanyPushes at hfst
      rw [flatMap_singleton] at hfst
      rw [hfst, Int.zero_add]
      exact ih hnd.2 hmem

/-! The result. -/

theorem consolidate_trialBalances_eq_ok {localeLe : String → String → Bool}
    {entities : List EntityBalances} {result : ConsolidationResult}
    (h : consolidateTrialBalances localeLe (entityTrialBalances entities) lines = .ok result) :
    (lines.map TrialBalanceEntry.signed).sum = 0 ∧ ∃ currency, result.consolidated =
      toTrialBalance localeLe ((allEntries entities ++ lines).foldl mergeSigned .empty) currency := by
  have hall : (entityTrialBalances entities).flatMap (fun e => e.tb.entries) =
      allEntries entities := by
    unfold entityTrialBalances allEntries
    rw [flatMap_map]
  unfold consolidateTrialBalances at h
  rw [hall] at h
  split at h
  · cases h
  · next first rest _ =>
    dsimp only at h
    split at h
    · cases h
    · obtain ⟨hzero, h⟩ := refuse_eq_ok.mp h
      obtain rfl := Except.ok.inj h
      refine ⟨not_not.mp hzero, first.tb.currency, ?_⟩
      dsimp only
      rw [foldl_append]

structure Drawn (ctx : ConsolidationContext) (groupId : String) (input : ConsolidationInput)
    (w : Worksheet) (group : GroupRecord) (lines residual : List EliminationLine)
    (consolidated : Rgnr8.Statements.TrialBalance) : Prop where
  group_eq : ctx.getGroup groupId = some group
  entities : entityBalances ctx group (reportWindow (trim (input.from_.getD ""))
    (trim (input.through.getD ""))) = .ok w.entities
  pushes : List.Forall₂ (fun p l => push w.entities p = .ok l)
    ((intercompanyPushes w.entities group.intercompanyCodes ++
      manualPushes (ctx.listEliminations groupId)).filter fun p => p.signedMinor ≠ 0) lines
  rest : residualLine w.entities group (lines.map TrialBalanceEntry.signed).sum = .ok residual
  rows : w.rows = (worksheetCodes w.entities consolidated).map
    (worksheetRow w.entities (lines ++ residual) consolidated)
  mismatch : w.mismatchMinor = (residual.map TrialBalanceEntry.signed).sum
  balanced : ((lines ++ residual).map TrialBalanceEntry.signed).sum = 0
  merged : ∃ currency, consolidated = toTrialBalance ctx.localeLe
    ((allEntries w.entities ++ (lines ++ residual)).foldl mergeSigned .empty) currency

variable {groupId : String} {input : ConsolidationInput} {w : Worksheet}

theorem drawn_of_consolidate (h : consolidate ctx groupId input = .ok (.drawn w)) :
    ∃ group lines residual consolidated,
      Drawn ctx groupId input w group lines residual consolidated := by
  unfold consolidate at h
  cases hgroup : ctx.getGroup groupId with
  | none => rw [hgroup] at h; cases h
  | some group =>
    rw [hgroup] at h
    dsimp only at h
    obtain ⟨-, h⟩ := refuse_eq_ok.mp h
    obtain ⟨-, h⟩ := refuse_eq_ok.mp h
    obtain ⟨entities, hents, h⟩ := bind_eq_ok.mp h
    obtain ⟨lines, hlines, h⟩ := bind_eq_ok.mp h
    split_ifs at h with href
    · cases h
    · obtain ⟨residual, hresid, h⟩ := bind_eq_ok.mp h
      obtain ⟨result, hres, h⟩ := bind_eq_ok.mp h
      obtain ⟨hbal, hmer⟩ :=
        consolidate_trialBalances_eq_ok (mapError_eq_ok.mp hres)
      cases h
      exact ⟨group, lines, residual, result.consolidated, hgroup, hents,
        mapM_eq_ok.mp hlines, hresid, rfl, rfl, hbal, hmer⟩

section
variable {lines residual : List EliminationLine} {consolidated : Rgnr8.Statements.TrialBalance}

theorem Drawn.booked (h : Drawn ctx groupId input w group lines residual consolidated) :
    Booked w.entities (lines ++ residual) := by
  intro l hl
  rcases mem_append.mp hl with hl | hl
  · obtain ⟨p, -, hp⟩ := exists_of_forall₂ h.pushes hl
    exact (push_eq_ok hp).2.2
  · exact (residualLine_eq_ok h.rest).1 l hl

theorem Drawn.consolidatedAt (h : Drawn ctx groupId input w group lines residual consolidated)
    (hchart : OneChart w.entities) (code : String) :
    signedAt consolidated code =
      combinedAt w.entities code + signedUnder code (lines ++ residual) := by
  obtain ⟨currency, rfl⟩ := h.merged
  rw [combinedAt_eq hchart, ← signedUnder_append]
  exact (h.booked.aligned hchart.aligned).signed_find?_merged ctx.localeLe currency code

theorem Drawn.sum_consolidated (h : Drawn ctx groupId input w group lines residual consolidated)
    (hchart : OneChart w.entities) :
    (w.rows.map WorksheetRow.consolidatedMinor).sum = 0 := by
  have hnd : (worksheetCodes w.entities consolidated).Nodup :=
    (perm_insertionSort _ _).nodup_iff.mpr (nodup_dedup _)
  have hcode : ∀ x ∈ allEntries w.entities, x.code ∈ worksheetCodes w.entities consolidated := by
    intro x hx
    refine (mem_insertionSort _).mpr (mem_dedup.mpr (mem_append_left _ ?_))
    exact mem_map_of_mem hx
  have hcodes : ∀ x ∈ allEntries w.entities ++ (lines ++ residual),
      x.code ∈ worksheetCodes w.entities consolidated := by
    intro x hx
    rcases mem_append.mp hx with hx | hx
    · exact hcode x hx
    · obtain ⟨y, hy, -, heq⟩ := h.booked x hx
      rw [← heq]
      exact hcode y hy
  have hcol : w.rows.map WorksheetRow.consolidatedMinor =
      (worksheetCodes w.entities consolidated).map fun code =>
        signedUnder code (allEntries w.entities ++ (lines ++ residual)) := by
    rw [h.rows, map_map]
    refine map_congr_left fun code _ => ?_
    show signedAt consolidated code = _
    rw [h.consolidatedAt hchart, combinedAt_eq hchart, ← signedUnder_append]
  rw [hcol, sum_signedUnder hnd hcodes, map_append, sum_append, h.balanced,
    sum_allEntries h.entities]
  rfl

/-- An intercompany code that is listed once, that no manual elimination names and that carries no
residual is taken to zero. -/
theorem Drawn.eliminated (h : Drawn ctx groupId input w group lines residual consolidated)
    (hchart : OneChart w.entities) (hnd : group.intercompanyCodes.Nodup) {code : String}
    (hcode : code ∈ group.intercompanyCodes)
    (hman : ∀ entry ∈ ctx.listEliminations groupId, ∀ line ∈ entry.lines,
      line.accountCode ≠ code) (hmis : w.mismatchMinor = 0) :
    signedAt consolidated code = 0 := by
  obtain ⟨-, hsum, hnone⟩ := residualLine_eq_ok h.rest
  have hresid : residual = [] := by
    refine hnone ?_
    rw [h.mismatch, hsum] at hmis
    omega
  have hoff : pushedUnder code (manualPushes (ctx.listEliminations groupId)) = 0 := by
    refine pushedUnder_of_off fun p hp => ?_
    obtain ⟨entry, hent, hp⟩ := mem_flatMap.mp hp
    obtain ⟨line, hline, rfl⟩ := mem_map.mp hp
    exact hman entry hent line hline
  rw [h.consolidatedAt hchart, hresid, append_nil, signedUnder_pushes h.pushes,
    pushedUnder_filter, pushedUnder_append, pushedUnder_intercompany hnd hcode, hoff]
  omega

end

/-- Whenever a worksheet is drawn, its combined column is the sum of the columns of the entities.
Where the entities' trial balances are on one chart, each row adds up, the consolidated column sums
to zero, and an intercompany code without a manual elimination or an admitted mismatch is zero. -/
theorem worksheet_adds_up (h : consolidate ctx groupId input = .ok (.drawn w)) :
    ∃ group, ctx.getGroup groupId = some group ∧
      entityBalances ctx group (reportWindow (trim (input.from_.getD ""))
        (trim (input.through.getD ""))) = .ok w.entities ∧
      (∀ row ∈ w.rows, row.combinedMinor = row.byEntity.values.sum) ∧
      (OneChart w.entities →
        (∀ row ∈ w.rows, row.consolidatedMinor = row.combinedMinor + row.eliminationMinor) ∧
        (w.rows.map WorksheetRow.consolidatedMinor).sum = 0 ∧
        (group.intercompanyCodes.Nodup → ∀ code ∈ group.intercompanyCodes,
          (∀ entry ∈ ctx.listEliminations groupId, ∀ line ∈ entry.lines,
            line.accountCode ≠ code) → w.mismatchMinor = 0 →
          ∀ row ∈ w.rows, row.accountCode = code → row.consolidatedMinor = 0)) := by
  obtain ⟨group, lines, residual, consolidated, hdrawn⟩ := drawn_of_consolidate h
  have hrows : ∀ row ∈ w.rows, ∃ code, row =
      worksheetRow w.entities (lines ++ residual) consolidated code := by
    intro row hrow
    rw [hdrawn.rows] at hrow
    obtain ⟨code, -, rfl⟩ := mem_map.mp hrow
    exact ⟨code, rfl⟩
  have htenants : (w.entities.map fun e => e.member.tenantId).Nodup := by
    have hmems := members_entityBalances hdrawn.entities
    have hdis := group.distinct
    rwa [← hmems, map_map] at hdis
  refine ⟨group, hdrawn.group_eq, hdrawn.entities, fun row hrow => ?_, fun hchart =>
    ⟨fun row hrow => ?_, hdrawn.sum_consolidated hchart, ?_⟩⟩
  · obtain ⟨code, rfl⟩ := hrows row hrow
    exact (sum_byEntityAt htenants code).symm
  · obtain ⟨code, rfl⟩ := hrows row hrow
    have helim : (((lines ++ residual).filter fun x => x.code = code).map
        TrialBalanceEntry.signed).sum = signedUnder code (lines ++ residual) := by
      rw [sum_filter]
      simp only [decide_eq_true_eq]
      rfl
    show signedAt consolidated code = combinedAt w.entities code + _
    rw [hdrawn.consolidatedAt hchart]
    exact congrArg _ helim.symm
  · intro hnd code hcode hman hmis row hrow hrowC
    obtain ⟨code', rfl⟩ := hrows row hrow
    obtain rfl : code' = code := hrowC
    exact hdrawn.eliminated hchart hnd hcode hman hmis

/-! Two shops that have each sold for a dollar, on one chart and after one of them has renumbered its
cash account. -/

namespace Shops

def accounts (cashCode : String) : List Account :=
  [Kernel.Sample.account "cash" cashCode .asset, Kernel.Sample.account "sales" "4000" .revenue]

def journal : List PostedEntry :=
  ((([.call Kernel.Sample.chart (.post (Kernel.Sample.sale none) ⟨"2026-08-01"⟩)] :
    List EngineOp).foldl Ledger.step
      (⟨.empty, .empty⟩ : Ledger (InMemoryPeriodStore TenantId PeriodKey))).store).list "acme"

def chartOf (accounts : List Account) : ChartOfAccounts :=
  (ChartOfAccounts.ofAccounts accounts).toOption.getD .empty

def shop (chart : ChartOfAccounts) (covers : Covers chart journal) (banks : BanksAreAssets chart) :
    Books where
  chart := chart
  journal := journal
  covers := covers
  balanced := by decide +kernel
  banks := banks

def numbered : Books :=
  shop (chartOf (accounts "1000")) (by unfold Covers; decide +kernel)
    (banksAreAssets_of_ofAccounts
      (rfl : ChartOfAccounts.ofAccounts (accounts "1000") = .ok _))

def renumbered : Books :=
  shop (chartOf (accounts "1010")) (by unfold Covers; decide +kernel)
    (banksAreAssets_of_ofAccounts
      (rfl : ChartOfAccounts.ofAccounts (accounts "1010") = .ok _))

def member (tenantId : TenantId) : GroupMember :=
  ⟨tenantId, tenantId, 1000000, "", none, none, none, none⟩

def shops : GroupRecord where
  id := "shops"
  name := "Shops"
  members := [member "east", member "west"]
  intercompanyCodes := []
  distinct := by decide
  rates := by simp [member]

def context (west : Books) : ConsolidationContext where
  tenant := "east"
  currency := usd
  settings := Settings.defaultSettings
  books tenant := if tenant = "west" then west else numbered
  groups := OrderedMap.empty.set ("east", "shops") shops
  eliminations := .empty
  letters := asciiLetters
  localeLe a b := a ≤ b

def asked : ConsolidationInput := ⟨none, none, false⟩

def drawnBy (ctx : ConsolidationContext) : Option Worksheet :=
  match consolidate ctx "shops" asked with
  | .ok (.drawn w) => some w
  | _ => none

theorem consolidate_of_drawnBy {ctx : ConsolidationContext} {w : Worksheet}
    (h : drawnBy ctx = some w) : consolidate ctx "shops" asked = .ok (.drawn w) := by
  unfold drawnBy at h
  split at h
  · next w' hw =>
    rw [hw, Option.some.inj h]
  · cases h

end Shops

open Shops in
theorem shops_on_one_chart_add_up :
    ∃ w, consolidate (context numbered) "shops" asked = .ok (.drawn w) ∧
      ∀ row ∈ w.rows, row.consolidatedMinor = row.combinedMinor + row.eliminationMinor := by
  have hdrawn : ((drawnBy (context numbered)).any fun w => OneChart w.entities) = true := by
    decide +kernel
  cases hw : drawnBy (context numbered) with
  | none => rw [hw] at hdrawn; cases hdrawn
  | some w =>
    rw [hw, Option.any_some] at hdrawn
    obtain ⟨_, _, _, _, h⟩ := worksheet_adds_up (consolidate_of_drawnBy hw)
    exact ⟨w, consolidate_of_drawnBy hw, (h (of_decide_eq_true hdrawn)).1⟩

open Shops in
theorem renumbered_cash_does_not_add_up :
    ¬ ∀ w, consolidate (context renumbered) "shops" asked = .ok (.drawn w) →
      ∀ row ∈ w.rows, row.consolidatedMinor = row.combinedMinor + row.eliminationMinor := by
  intro h
  have hdrawn : ((drawnBy (context renumbered)).any fun w => w.rows.any fun row =>
      row.consolidatedMinor ≠ row.combinedMinor + row.eliminationMinor) = true := by
    decide +kernel
  cases hw : drawnBy (context renumbered) with
  | none => rw [hw] at hdrawn; cases hdrawn
  | some w =>
    rw [hw, Option.any_some, any_eq_true] at hdrawn
    obtain ⟨row, hrow, hoff⟩ := hdrawn
    exact of_decide_eq_true hoff (h w (consolidate_of_drawnBy hw) row hrow)

end Rgnr8.Service.Consolidation
