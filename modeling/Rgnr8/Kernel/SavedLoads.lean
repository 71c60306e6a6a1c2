import Rgnr8.Kernel.ParentsFirst
import Rgnr8.Kernel.GoLive

/-! When the rows of a backend load as they lie: what a save has to fit in with. -/

namespace Rgnr8.Kernel
open Lib OrderedMap CodedAccounts Fallible

theorem OrderedMap.keys_set {α β : Type} [DecidableEq α] (m : OrderedMap α β) (k : α) (b : β) :
    (m.set k b).keys = if k ∈ m.keys then m.keys else m.keys ++ [k] := by
  unfold OrderedMap.keys OrderedMap.set
  show (put m.entries k b).map Prod.fst = _
  induction m.entries with
  | nil => rfl
  | cons e es ih =>
    by_cases hk : e.1 = k
    · rw [put_cons_self hk, List.map_cons, List.map_cons, hk, if_pos List.mem_cons_self]
    · rw [put_cons_ne hk, List.map_cons, List.map_cons, ih]
      have hne : ¬ k = e.1 := fun h => hk h.symm
      by_cases hmem : k ∈ es.map Prod.fst
      · rw [if_pos hmem, if_pos (List.mem_cons_of_mem _ hmem)]
      · have hnot : k ∉ e.1 :: es.map Prod.fst := fun h =>
          (List.mem_cons.mp h).elim hne hmem
        rw [if_neg hmem, if_neg hnot, List.cons_append]

theorem mem_before_iff {before after : List Account} {a c : Account}
    (h : ((before ++ a :: after).map Account.id).Nodup) :
    c ∈ before ↔ c ∈ before ++ a :: after ∧
      ((before ++ a :: after).map Account.id).idxOf c.id <
        ((before ++ a :: after).map Account.id).idxOf a.id := by
  rw [List.map_append, List.map_cons] at h ⊢
  rw [List.nodup_append] at h
  obtain ⟨-, -, hdis⟩ := h
  have ha : a.id ∉ before.map Account.id := fun hmem =>
    hdis _ hmem _ List.mem_cons_self rfl
  rw [List.idxOf_append_of_notMem ha, List.idxOf_cons_self, Nat.add_zero]
  constructor
  · intro hc
    have hid : c.id ∈ before.map Account.id := List.mem_map_of_mem hc
    refine ⟨List.mem_append_left _ hc, ?_⟩
    rw [List.idxOf_append_of_mem hid]
    exact List.idxOf_lt_length_of_mem hid
  · rintro ⟨hmem, hlt⟩
    rcases List.mem_append.mp hmem with hc | hc
    · exact hc
    · have hid : c.id ∉ before.map Account.id := fun h =>
        hdis _ h _ (List.mem_map_of_mem (f := Account.id) hc) rfl
      rw [List.idxOf_append_of_notMem hid] at hlt
      omega

namespace SavedAccounts
variable {s : SavedAccounts} {a b : Account} {saved : List Account}

def Earlier (s : SavedAccounts) (p id : AccountId) : Prop :=
  s.byId.keys.idxOf p < s.byId.keys.idxOf id

instance (s : SavedAccounts) (p id : AccountId) : Decidable (s.Earlier p id) :=
  inferInstanceAs (Decidable (_ < _))

/-- The parent of an account is kept, has its type and was saved before the row of `id`. -/
def ParentEarlier (s : SavedAccounts) (a : Account) : Prop :=
  ∀ p ∈ a.parentId, ∃ parent ∈ s.list, parent.id = p ∧ parent.type = a.type ∧ s.Earlier p a.id

/-- What the chart asks, said of the rows as a set and of the order they were first saved in. -/
structure Sound (s : SavedAccounts) : Prop where
  codes : ∀ a ∈ s.list, ∀ b ∈ s.list, a.code = b.code → a = b
  subtypes : ∀ a ∈ s.list, a.SubtypeOk
  parents : ∀ a ∈ s.list, s.ParentEarlier a

theorem loads_iff_sound : Loads s.list ↔ s.Sound := by
  constructor
  · intro h
    refine ⟨fun a ha b hb => List.inj_on_of_nodup_map h.codes ha hb, h.subtypes, ?_⟩
    intro a ha p hp
    obtain ⟨before, after, hsplit⟩ := List.append_of_mem ha
    obtain ⟨parent, hmem, hid, htype⟩ := h.parents before a after hsplit p hp
    have hids := s.nodup_ids
    rw [hsplit] at hids
    obtain ⟨hpar, hlt⟩ := (mem_before_iff hids).mp hmem
    rw [← hsplit, ids_list] at hlt
    rw [← hsplit] at hpar
    exact ⟨parent, hpar, hid, htype, hid ▸ hlt⟩
  · intro h
    refine ⟨s.nodup_ids, ?_, h.subtypes, ?_⟩
    · exact List.Nodup.map_on (fun a ha b hb => h.codes a ha b hb) s.nodup_ids.of_map
    · intro before a after hsplit p hp
      have ha : a ∈ s.list := hsplit ▸ List.mem_append_right _ List.mem_cons_self
      obtain ⟨parent, hpar, hid, htype, hearl⟩ := h.parents a ha p hp
      have hids := s.nodup_ids
      rw [hsplit] at hids
      refine ⟨parent, (mem_before_iff hids).mpr ⟨hsplit ▸ hpar, ?_⟩, hid, htype⟩
      rw [← hsplit, ids_list, hid]
      exact hearl

theorem keys_save (s : SavedAccounts) (a : Account) :
    (s.save a).byId.keys = if a.id ∈ s.byId.keys then s.byId.keys else s.byId.keys ++ [a.id] :=
  OrderedMap.keys_set ..

theorem keys_saveAll (s : SavedAccounts) (saved : List Account) :
    ∃ extra, (s.saveAll saved).byId.keys = s.byId.keys ++ extra := by
  induction saved generalizing s with
  | nil => exact ⟨[], (List.append_nil _).symm⟩
  | cons a saved ih =>
    obtain ⟨extra, hextra⟩ := ih (s.save a)
    rw [keys_save] at hextra
    by_cases hmem : a.id ∈ s.byId.keys
    · rw [if_pos hmem] at hextra
      exact ⟨extra, hextra⟩
    · rw [if_neg hmem, List.append_assoc] at hextra
      exact ⟨[a.id] ++ extra, hextra⟩

theorem earlier_saveAll {p id : AccountId} (hid : id ∈ s.byId.keys) :
    (s.saveAll saved).Earlier p id ↔ s.Earlier p id := by
  obtain ⟨extra, hextra⟩ := s.keys_saveAll saved
  unfold Earlier
  rw [hextra, List.idxOf_append_of_mem hid]
  by_cases hp : p ∈ s.byId.keys
  · rw [List.idxOf_append_of_mem hp]
  · rw [List.idxOf_append_of_notMem hp, List.idxOf_of_notMem hp]
    have hlt := List.idxOf_lt_length_of_mem hid
    omega

theorem earlier_save_self {p : AccountId} : (s.save a).Earlier p a.id ↔ s.Earlier p a.id := by
  unfold Earlier
  rw [keys_save]
  by_cases hmem : a.id ∈ s.byId.keys
  · rw [if_pos hmem]
  · rw [if_neg hmem, List.idxOf_append_of_notMem hmem, List.idxOf_cons_self,
      List.idxOf_of_notMem hmem]
    by_cases hp : p ∈ s.byId.keys
    · rw [List.idxOf_append_of_mem hp]
      rfl
    · rw [List.idxOf_append_of_notMem hp, List.idxOf_of_notMem hp]
      omega

theorem mem_keys_of_mem (h : a ∈ s.list) : a.id ∈ s.byId.keys := by
  rw [← ids_list]
  exact List.mem_map_of_mem h

theorem mem_saveAll (hids : (saved.map Account.id).Nodup) : b ∈ (s.saveAll saved).list ↔
    b ∈ saved ∨ (b ∈ s.list ∧ b.id ∉ saved.map Account.id) := by
  induction saved generalizing s with
  | nil => exact ⟨fun h => .inr ⟨h, List.not_mem_nil⟩, fun h => (h.resolve_left List.not_mem_nil).1⟩
  | cons a saved ih =>
    rw [List.map_cons, List.nodup_cons] at hids
    show b ∈ ((s.save a).saveAll saved).list ↔ _
    rw [ih hids.2, mem_save, List.mem_cons, List.map_cons, List.mem_cons, not_or]
    constructor
    · rintro (hb | ⟨rfl | ⟨hb, hne⟩, hnot⟩)
      · exact .inl (.inr hb)
      · exact .inl (.inl rfl)
      · exact .inr ⟨hb, hne, hnot⟩
    · rintro ((rfl | hb) | ⟨hb, hne, hnot⟩)
      · exact .inr ⟨.inl rfl, hids.1⟩
      · exact .inl hb
      · exact .inr ⟨.inr ⟨hb, hne⟩, hnot⟩

/-- What a save has to fit in with: no other account kept has one of its codes, those kept under one
of its accounts have its type, and the parents it gives were saved before. -/
structure Fits (s : SavedAccounts) (saved : List Account) : Prop where
  codes : ∀ a ∈ saved, ∀ b ∈ s.list, b.code = a.code → b.id ∈ saved.map Account.id
  kids : ∀ a ∈ saved, ∀ b ∈ s.list, b.parentId = some a.id →
    b.type = a.type ∨ b.id ∈ saved.map Account.id
  parents : ∀ a ∈ saved, s.ParentEarlier a

/-- Accounts that are saved in one go. Only a single one of them may name a parent. -/
structure Savable (saved : List Account) : Prop where
  ids : (saved.map Account.id).Nodup
  codes : ∀ a ∈ saved, ∀ b ∈ saved, a.code = b.code → a = b
  subtypes : ∀ a ∈ saved, a.SubtypeOk
  parents : (∀ a ∈ saved, a.parentId = none) ∨ ∃ a, saved = [a]

theorem sound_of_fits (h : s.Sound) (hsav : Savable saved) (hfits : s.Fits saved) :
    (s.saveAll saved).Sound := by
  refine ⟨?_, ?_, ?_⟩
  · intro a ha b hb hcode
    rcases (mem_saveAll hsav.ids).mp ha with ha | ⟨ha, hna⟩
    · rcases (mem_saveAll hsav.ids).mp hb with hb | ⟨hb, hnb⟩
      · exact hsav.codes a ha b hb hcode
      · exact absurd (hfits.codes a ha b hb hcode.symm) hnb
    · rcases (mem_saveAll hsav.ids).mp hb with hb | ⟨hb, hnb⟩
      · exact absurd (hfits.codes b hb a ha hcode) hna
      · exact h.codes a ha b hb hcode
  · intro a ha
    rcases (mem_saveAll hsav.ids).mp ha with ha | ⟨ha, -⟩
    · exact hsav.subtypes a ha
    · exact h.subtypes a ha
  · intro a ha p hp
    rcases (mem_saveAll hsav.ids).mp ha with hin | ⟨ha, hnot⟩
    · rcases hsav.parents with hnone | ⟨c, rfl⟩
      · cases (hnone a hin).symm.trans hp
      · obtain rfl := List.mem_singleton.mp hin
        obtain ⟨parent, hpar, hid, htype, hearl⟩ := hfits.parents a hin p hp
        have hne : parent.id ≠ a.id := by
          rintro heq
          rw [← hid, heq] at hearl
          exact lt_irrefl _ hearl
        exact ⟨parent, mem_save.mpr (.inr ⟨hpar, hne⟩), hid, htype,
          earlier_save_self.mpr hearl⟩
    · obtain ⟨parent, hpar, hid, htype, hearl⟩ := h.parents a ha p hp
      have hearl' : (s.saveAll saved).Earlier p a.id :=
        (earlier_saveAll (mem_keys_of_mem ha)).mpr hearl
      by_cases hin : parent.id ∈ saved.map Account.id
      · obtain ⟨c, hc, hcid⟩ := List.mem_map.mp hin
        have hkid : a.parentId = some c.id := by rw [hcid, hid]; exact hp
        have htype' : a.type = c.type := (hfits.kids c hc a ha hkid).resolve_right hnot
        exact ⟨c, (mem_saveAll hsav.ids).mpr (.inl hc), hcid.trans hid, htype'.symm, hearl'⟩
      · exact ⟨parent, (mem_saveAll hsav.ids).mpr (.inr ⟨hpar, hin⟩), hid, htype, hearl'⟩

theorem fits_of_sound (hsav : Savable saved) (h : (s.saveAll saved).Sound) : s.Fits saved := by
  have hin : ∀ a ∈ saved, a ∈ (s.saveAll saved).list := fun a ha =>
    (mem_saveAll hsav.ids).mpr (.inl ha)
  have hkept : ∀ b ∈ s.list, b.id ∉ saved.map Account.id → b ∈ (s.saveAll saved).list :=
    fun b hb hnot => (mem_saveAll hsav.ids).mpr (.inr ⟨hb, hnot⟩)
  refine ⟨?_, ?_, ?_⟩
  · intro a ha b hb hcode
    by_contra hnot
    rw [h.codes b (hkept b hb hnot) a (hin a ha) hcode] at hnot
    exact hnot (List.mem_map_of_mem ha)
  · intro a ha b hb hkid
    by_cases hnot : b.id ∈ saved.map Account.id
    · exact .inr hnot
    · obtain ⟨parent, hpar, hid, htype, -⟩ := h.parents b (hkept b hb hnot) a.id hkid
      rw [eq_of_id_eq hpar (hin a ha) hid] at htype
      exact .inl htype.symm
  · intro a ha p hp
    rcases hsav.parents with hnone | ⟨c, rfl⟩
    · cases (hnone a ha).symm.trans hp
    · obtain rfl := List.mem_singleton.mp ha
      obtain ⟨parent, hpar, hid, htype, hearl⟩ := h.parents a (hin a ha) p hp
      refine ⟨parent, ?_, hid, htype, earlier_save_self.mp hearl⟩
      rcases mem_save.mp hpar with rfl | ⟨hmem, -⟩
      · rw [← hid] at hearl
        exact absurd hearl (lt_irrefl _)
      · exact hmem

theorem loads_saveAll_iff (h : Loads s.list) (hsav : Savable saved) :
    Loads (s.saveAll saved).list ↔ s.Fits saved := by
  rw [loads_iff_sound]
  exact ⟨fits_of_sound hsav, sound_of_fits (loads_iff_sound.mp h) hsav⟩

end SavedAccounts

/-! What a seed and a go-live save: accounts without parents, each under the id of its code. -/

namespace CodedAccounts
variable {m : CodedAccounts} {a : Account}

theorem nodup_codes (m : CodedAccounts) : (m.byCode.values.map Account.code).Nodup := by
  have hcodes : m.byCode.values.map Account.code = m.byCode.keys := by
    unfold values keys
    rw [List.map_map]
    refine List.map_congr_left fun entry hent => ?_
    exact (m.coded (mem_entries.mp hent)).1
  rw [hcodes]
  exact m.byCode.nodup

theorem mem_values : a ∈ m.byCode.values ↔ ∃ code, m.byCode.get? code = some a := by
  unfold values
  rw [List.mem_map]
  constructor
  · rintro ⟨⟨code, b⟩, hent, rfl⟩
    exact ⟨code, mem_entries.mp hent⟩
  · rintro ⟨code, hget⟩
    exact ⟨(code, a), mem_entries.mpr hget, rfl⟩

theorem forall_put {P : Account → Prop} (h : ∀ b ∈ m.byCode.values, P b) (ha : P a)
    (hid : a.id = accountIdFor a.code) : ∀ b ∈ (m.put a hid).byCode.values, P b := by
  intro b hb
  obtain ⟨code, hget⟩ := mem_values.mp hb
  unfold put at hget
  rw [get?_set] at hget
  split_ifs at hget with hcode
  · rwa [← Option.some.inj hget]
  · exact h b (mem_values.mpr ⟨code, hget⟩)

end CodedAccounts

theorem forall_templateAccounts {P : Account → Prop} (category : BusinessCategory)
    (currency : Currency) (h : ∀ line, P (lineToAccount line currency)) :
    ∀ a ∈ (templateAccounts category currency).byCode.values, P a := by
  have hfold : ∀ (lines : List TemplateLine) (m : CodedAccounts), (∀ a ∈ m.byCode.values, P a) →
      ∀ a ∈ (lines.foldl (fun m l => m.put (lineToAccount l currency) rfl) m).byCode.values, P a := by
    intro lines
    induction lines with
    | nil => exact fun m hm => hm
    | cons line lines ih => exact fun m hm => ih _ (forall_put hm (h line) rfl)
  exact hfold _ .empty fun a ha => absurd ha List.not_mem_nil

theorem parentId_of_buildGoLiveChart {request : GoLiveRequest} {coa : ChartOfAccounts}
    {created : List Account} (h : buildGoLiveChart request = .ok (coa, created)) :
    ∀ a ∈ coa.list, a.parentId = none := by
  unfold buildGoLiveChart at h
  rw [bind_eq_ok] at h
  obtain ⟨merged, hmer, h⟩ := h
  rw [bind_eq_ok] at h
  obtain ⟨coa', hcoa, hok⟩ := h
  obtain ⟨rfl, -⟩ := Prod.mk.injEq .. ▸ Except.ok.inj hok
  have htem : ∀ a ∈ (templateOf request).accounts.byCode.values, a.parentId = none := by
    unfold templateOf
    cases request.coaCategory with
    | none => exact fun a ha => absurd ha List.not_mem_nil
    | some category => exact forall_templateAccounts category request.currency fun _ => rfl
  have hsour : ∀ (sources : List SourceAccount) (chart chart' : GoLiveChart),
      (∀ a ∈ chart.accounts.byCode.values, a.parentId = none) →
      sources.foldlM (bringOver request) chart = .ok chart' →
      ∀ a ∈ chart'.accounts.byCode.values, a.parentId = none := by
    intro sources
    induction sources with
    | nil =>
      intro chart chart' hchart hfold
      rwa [← Except.ok.inj hfold]
    | cons src sources ih =>
      intro chart chart' hchart hfold
      rw [List.foldlM_cons, bind_eq_ok] at hfold
      obtain ⟨mid, hbring, hrest⟩ := hfold
      refine ih mid chart' ?_ hrest
      unfold bringOver at hbring
      split at hbring
      · rename_i existing hget
        split_ifs at hbring
        · rw [← Except.ok.inj hbring]
          have hpar : existing.parentId = none :=
            hchart existing (mem_values.mpr ⟨_, hget⟩)
          intro b hb
          obtain ⟨code, hfound⟩ := mem_values.mp hb
          change (chart.accounts.byCode.set existing.code _).get? code = some b at hfound
          rw [get?_set] at hfound
          split_ifs at hfound
          · rw [← Option.some.inj hfound]
            exact hpar
          · exact hchart b (mem_values.mpr ⟨code, hfound⟩)
        · rwa [← Except.ok.inj hbring]
      · split at hbring
        · cases hbring
        · rw [← Except.ok.inj hbring]
          exact forall_put hchart rfl rfl
  have hequity : ∀ a ∈ (ensureOpeningEquity request merged).accounts.byCode.values,
      a.parentId = none := by
    have hbroug := hsour _ _ merged htem hmer
    unfold ensureOpeningEquity
    split_ifs
    · exact hbroug
    · exact forall_put hbroug rfl rfl
  intro a ha
  rw [ChartOfAccounts.list_ofAccounts (mapError_eq_ok.mp hcoa)] at ha
  obtain ⟨b, hb, rfl⟩ := List.mem_map.mp ha
  exact hequity b hb

namespace SavedAccounts

theorem savable_singleton {a : Account} (h : a.SubtypeOk) : Savable [a] := by
  refine ⟨List.nodup_singleton _, ?_, ?_, .inr ⟨a, rfl⟩⟩
  · intro b hb c hc _
    rw [List.mem_singleton.mp hb, List.mem_singleton.mp hc]
  · intro b hb
    rwa [List.mem_singleton.mp hb]

theorem savable_nil : Savable [] :=
  ⟨List.nodup_nil, fun _ h => absurd h List.not_mem_nil, fun _ h => absurd h List.not_mem_nil,
    .inl fun _ h => absurd h List.not_mem_nil⟩

theorem savable_template (category : BusinessCategory) (currency : Currency) :
    Savable (templateAccounts category currency).byCode.values := by
  have hcodes := (templateAccounts category currency).nodup_codes
  have hids : (templateAccounts category currency).byCode.values.map Account.id =
      ((templateAccounts category currency).byCode.values.map Account.code).map accountIdFor := by
    rw [List.map_map]
    exact List.map_congr_left (forall_templateAccounts category currency fun _ => rfl)
  refine ⟨?_, fun a ha b hb => List.inj_on_of_nodup_map hcodes ha hb, ?_, .inl ?_⟩
  · rw [hids]
    exact hcodes.map accountIdFor_injective
  · refine forall_templateAccounts category currency fun line s hs => ?_
    rw [← Option.some.inj hs]
    rfl
  · exact forall_templateAccounts category currency fun _ => rfl

theorem savable_goLive {request : GoLiveRequest} {coa : ChartOfAccounts} {created : List Account}
    (h : buildGoLiveChart request = .ok (coa, created)) : Savable coa.list := by
  refine ⟨coa.nodup_ids, fun a ha b hb => List.inj_on_of_nodup_map coa.nodup_codes ha hb, ?_,
    .inl (parentId_of_buildGoLiveChart h)⟩
  unfold buildGoLiveChart at h
  rw [bind_eq_ok] at h
  obtain ⟨merged, -, h⟩ := h
  rw [bind_eq_ok] at h
  obtain ⟨coa', hcoa, hok⟩ := h
  obtain ⟨rfl, -⟩ := Prod.mk.injEq .. ▸ Except.ok.inj hok
  have hload := mapError_eq_ok.mp hcoa
  intro a ha
  rw [ChartOfAccounts.list_ofAccounts hload] at ha
  obtain ⟨b, hb, rfl⟩ := List.mem_map.mp ha
  exact (exists_ofAccounts_iff.mp ⟨_, hload⟩).subtypes b hb

end SavedAccounts
end Rgnr8.Kernel
