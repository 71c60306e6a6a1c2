import Rgnr8.Kernel.SavedLoads
import Rgnr8.Lib.Forest
import Rgnr8.Service.SystemAccounts

/-! The walks up and down a loaded chart come to what they are after: the level of an account, all
levels below it, and every account on the way up. -/

namespace Rgnr8.Kernel
open Lib ChartOfAccounts List Nat

def ChartOfAccounts.parentOf (chart : ChartOfAccounts) (id : AccountId) : Option AccountId :=
  (chart.get id).bind Account.parentId

variable {chart : ChartOfAccounts}

theorem ChartOfAccounts.parentOf_of_mem {a : Account} (h : a ∈ chart.list) :
    chart.parentOf a.id = a.parentId := by
  unfold parentOf
  rw [get_iff.mpr ⟨h, rfl⟩]
  rfl

/-- What the walks rely on: no parent is missing, and no way up is longer than the chart. -/
structure Walkable (chart : ChartOfAccounts) : Prop where
  parents : ∀ a ∈ chart.list, ∀ p ∈ a.parentId, ∃ parent, chart.get p = some parent
  levels : ∀ a ∈ chart.list, ∃ n ≤ chart.list.length, Level chart.parentOf a.id n

theorem exists_level {rows : List Account} (h : Loads rows)
    (hchart : chart.list = rows.map Account.stored) (n : Nat) :
    ∀ a ∈ rows, (rows.map Account.id).idxOf a.id < n →
      ∃ m ≤ (rows.map Account.id).idxOf a.id + 1, Level chart.parentOf a.id m := by
  induction n with
  | zero => exact fun a _ hlt => absurd hlt (not_lt_zero _)
  | succ n ih =>
    intro a ha hlt
    have hsto : a.stored ∈ chart.list := by
      rw [hchart]
      exact mem_map_of_mem ha
    have hparen : chart.parentOf a.stored.id = a.stored.parentId :=
      parentOf_of_mem hsto
    rw [Account.id_stored, Account.parentId_stored] at hparen
    cases hpar : a.parentId with
    | none =>
      rw [hpar] at hparen
      exact ⟨1, succ_le_succ (zero_le _), .root hparen⟩
    | some p =>
      rw [hpar] at hparen
      obtain ⟨before, after, hsplit⟩ := append_of_mem ha
      obtain ⟨parent, hmem, hid, -⟩ := h.parents before a after hsplit p hpar
      have hids := h.ids
      rw [hsplit] at hids
      obtain ⟨hin, hbef⟩ := (mem_before_iff hids).mp hmem
      rw [← hsplit] at hin hbef
      obtain ⟨m, hm, hlvl⟩ := ih parent hin (by omega)
      rw [hid] at hlvl
      exact ⟨m + 1, by omega, .sub hparen hlvl⟩

theorem walkable_of_chart {order : RowOrder} {s : SavedAccounts} (h : s.chart order = .ok chart) :
    Walkable chart := by
  have hloads := SavedAccounts.loads_of_chart h
  have hlist : chart.list = (order.rows s.list).map Account.stored :=
    list_ofAccounts h
  constructor
  · intro a ha p hp
    rw [hlist] at ha
    obtain ⟨b, hb, rfl⟩ := mem_map.mp ha
    obtain ⟨before, after, hsplit⟩ := append_of_mem hb
    obtain ⟨parent, hmem, hid, -⟩ := hloads.parents before b after hsplit p hp
    refine ⟨parent.stored, get_iff.mpr ⟨?_, hid⟩⟩
    rw [hlist, hsplit]
    exact mem_map_of_mem (mem_append_left _ hmem)
  · intro a ha
    rw [hlist] at ha
    obtain ⟨b, hb, rfl⟩ := mem_map.mp ha
    obtain ⟨n, hn, hlvl⟩ := exists_level hloads hlist _ b hb (lt_succ_self _)
    have hlt := idxOf_lt_length_of_mem (mem_map_of_mem (f := Account.id) hb)
    rw [length_map] at hlt
    refine ⟨n, ?_, hlvl⟩
    rw [hlist, length_map]
    omega

end Rgnr8.Kernel

namespace Rgnr8.Service
open Lib Kernel
variable {chart : ChartOfAccounts} {a b up : Account} {n k : Nat}

theorem parent_of_sub (h : Walkable chart) (ha : a ∈ chart.list) {p : AccountId}
    (hp : chart.parentOf a.id = some p) :
    ∃ parent ∈ chart.list, parent.id = p ∧ a.parentId.bind chart.get = some parent := by
  rw [ChartOfAccounts.parentOf_of_mem ha] at hp
  obtain ⟨parent, hget⟩ := h.parents a ha p hp
  obtain ⟨hmem, hid⟩ := ChartOfAccounts.get_iff.mp hget
  refine ⟨parent, hmem, hid, ?_⟩
  rw [hp]
  exact hget

theorem level_le_length (h : Walkable chart) (ha : a ∈ chart.list)
    (hlvl : Level chart.parentOf a.id n) : n ≤ chart.list.length := by
  obtain ⟨m, hm, hlvl'⟩ := h.levels a ha
  rwa [hlvl.unique hlvl']

theorem not_below_self (h : Walkable chart) (ha : a ∈ chart.list) :
    ¬ Below chart.parentOf a.id a.id (k + 1) := by
  intro hbelow
  obtain ⟨m, -, hlvl⟩ := h.levels a ha
  have hzero := hbelow.eq_zero hlvl
  omega

theorem levelsAbove_eq (h : Walkable chart) {id : AccountId} (hlvl : Level chart.parentOf id n)
    (fuel : Nat) (seen : List AccountId) (a : Account) (ha : a ∈ chart.list) (hid : a.id = id)
    (hfuel : n ≤ fuel + 1)
    (hseen : ∀ i ∈ seen, ∀ k, ¬ Below chart.parentOf i a.id (k + 1)) :
    1 + levelsAbove chart fuel seen a = n := by
  induction hlvl generalizing fuel seen a with
  | @root id hroot =>
    subst hid
    have hnone : a.parentId.bind chart.get = none := by
      rw [← ChartOfAccounts.parentOf_of_mem ha, hroot]
      rfl
    cases fuel with
    | zero => rfl
    | succ fuel =>
      unfold levelsAbove
      rw [hnone]
      rfl
  | @sub id p n hpar hp ih =>
    subst hid
    obtain ⟨parent, hmem, hpid, hget⟩ := parent_of_sub h ha hpar
    subst hpid
    cases fuel with
    | zero =>
      have hpos := hp.pos
      omega
    | succ fuel =>
      have hnew : parent.id ∉ seen := fun hin => hseen parent.id hin 0 (.sub hpar .self)
      have hrest := ih fuel (parent.id :: seen) parent hmem rfl (by omega) ?_
      · unfold levelsAbove
        rw [hget]
        dsimp only
        rw [if_neg hnew, hrest, add_comm]
      · intro i hi k hbelow
        rcases List.mem_cons.mp hi with rfl | hi
        · exact not_below_self h hmem hbelow
        · exact hseen i hi (k + 1) (.sub hpar hbelow)

theorem depthOf_eq (h : Walkable chart) (ha : a ∈ chart.list)
    (hlvl : Level chart.parentOf a.id n) : depthOf chart a = n := by
  have hshort := level_le_length h ha hlvl
  refine levelsAbove_eq h hlvl _ _ a ha rfl (by omega) fun i hi k => ?_
  rw [List.mem_singleton.mp hi]
  exact not_below_self h ha

theorem meets_of_below (h : Walkable chart) {target id : AccountId}
    (hbelow : Below chart.parentOf target id k) (fuel : Nat) (seen : List AccountId) (up : Account)
    (hup : up ∈ chart.list) (hid : up.id = id) (hfuel : k < fuel)
    (hseen : ∀ i ∈ seen, ∀ j, ¬ Below chart.parentOf i up.id j) :
    meets chart target fuel seen (some up) = true := by
  induction hbelow generalizing fuel seen up with
  | self =>
    cases fuel with
    | zero => exact absurd hfuel (Nat.not_lt_zero _)
    | succ fuel =>
      have hnew : up.id ∉ seen := fun hin => hseen up.id hin 0 .self
      unfold meets
      rw [if_neg hnew, if_pos hid]
  | @sub b p k hpar hp ih =>
    subst hid
    obtain ⟨parent, hmem, hpid, hget⟩ := parent_of_sub h hup hpar
    cases fuel with
    | zero => exact absurd hfuel (Nat.not_lt_zero _)
    | succ fuel =>
      have hnew : up.id ∉ seen := fun hin => hseen up.id hin 0 .self
      unfold meets
      rw [if_neg hnew]
      by_cases hfound : up.id = target
      · rw [if_pos hfound]
      · rw [if_neg hfound, hget]
        refine ih fuel (up.id :: seen) parent hmem hpid (by omega) fun i hi j hj => ?_
        rw [hpid] at hj
        rcases List.mem_cons.mp hi with rfl | hi
        · exact not_below_self h hup (.sub hpar hj)
        · exact hseen i hi (j + 1) (.sub hpar hj)

theorem not_below_of_meets (h : Walkable chart) {target : AccountId} (hup : up ∈ chart.list)
    (hmeets : meets chart target (chart.list.length + 1) [] (some up) = false)
    (htgt : ∃ a ∈ chart.list, a.id = target) (k : Nat) :
    ¬ Below chart.parentOf target up.id k := by
  intro hbelow
  obtain ⟨a, ha, rfl⟩ := htgt
  obtain ⟨m, -, hlvl⟩ := h.levels a ha
  have hshort := level_le_length h hup (hbelow.level hlvl)
  have hfound := meets_of_below h hbelow (chart.list.length + 1) [] up hup rfl (by omega)
    fun i hi => absurd hi List.not_mem_nil
  rw [hfound] at hmeets
  cases hmeets

theorem le_foldr_max {l : List Nat} {m : Nat} (h : m ∈ l) : m ≤ l.foldr max 0 := by
  induction l with
  | nil => exact absurd h List.not_mem_nil
  | cons x l ih =>
    rcases List.mem_cons.mp h with rfl | h
    · exact le_max_left ..
    · exact (ih h).trans (le_max_right ..)

theorem le_levelsBelow {id j : AccountId} (fuel : Nat) (hfuel : k ≤ fuel)
    (hbelow : Below chart.parentOf id j k) : k ≤ levelsBelow chart fuel id := by
  induction k generalizing fuel id with
  | zero => exact Nat.zero_le _
  | succ k ih =>
    cases fuel with
    | zero => exact absurd hfuel (Nat.not_succ_le_zero _)
    | succ fuel =>
      obtain ⟨c, hc, hrest⟩ := hbelow.child
      obtain ⟨kid, hkid, hpar⟩ := Option.bind_eq_some_iff.mp hc
      obtain ⟨hmem, rfl⟩ := ChartOfAccounts.get_iff.mp hkid
      have hin : kid ∈ chart.children id := List.mem_filter.mpr ⟨hmem, decide_eq_true hpar⟩
      have hle := ih fuel (Nat.le_of_succ_le_succ hfuel) hrest
      refine le_trans ?_ (le_foldr_max (List.mem_map_of_mem hin))
      omega

theorem le_heightOf (h : Walkable chart) (ha : a ∈ chart.list) {j : AccountId}
    (hbelow : Below chart.parentOf a.id j k) : k ≤ heightOf chart a := by
  cases k with
  | zero => exact Nat.zero_le _
  | succ k =>
    refine le_levelsBelow _ ?_ hbelow
    obtain ⟨m, -, hlvl⟩ := h.levels a ha
    have hj := hbelow.level hlvl
    cases hbelow with
    | sub hpar hp =>
      obtain ⟨b, hb, -⟩ := Option.bind_eq_some_iff.mp hpar
      obtain ⟨hmem, rfl⟩ := ChartOfAccounts.get_iff.mp hb
      have hshort := level_le_length h hmem hj
      omega

/-! A sound chart, and what a create or an edit has to bring for it to stay one. -/

def parentIn (s : SavedAccounts) (id : AccountId) : Option AccountId :=
  (s.get id).bind Account.parentId

/-- Codes differ, parents exist and have the type of their sub-accounts, nothing is on a cycle or
deeper than a chart may nest, and what is active is under something active. -/
structure ChartOk (s : SavedAccounts) : Prop where
  codes : ∀ a ∈ s.list, ∀ b ∈ s.list, a.code = b.code → a = b
  parents : ∀ a ∈ s.list, ∀ p ∈ a.parentId, ∃ parent ∈ s.list, parent.id = p ∧ parent.type = a.type
  levels : ∀ id, ∃ n ≤ maxChartDepth, Level (parentIn s) id n
  activeParents : ∀ a ∈ s.list, a.isActive = true → ∀ parent ∈ s.list,
    a.parentId = some parent.id → parent.isActive = true

section
variable {s : SavedAccounts} {a b next current : Account} {order : RowOrder}
variable {chart : ChartOfAccounts} {facts : BookFacts}

theorem parentIn_of_mem (h : a ∈ s.list) : parentIn s a.id = a.parentId := by
  unfold parentIn
  rw [SavedAccounts.mem_list.mp h]
  rfl

theorem parentIn_save_ne {id : AccountId} (h : id ≠ a.id) : parentIn (s.save a) id = parentIn s id := by
  unfold parentIn
  rw [SavedAccounts.get_save_ne h]

theorem parentIn_save_self : parentIn (s.save a) a.id = a.parentId := by
  unfold parentIn
  rw [SavedAccounts.get_save_self]
  rfl

theorem parentOf_chart (h : s.chart order = .ok chart) : chart.parentOf = parentIn s := by
  funext id
  unfold ChartOfAccounts.parentOf parentIn
  rw [SavedAccounts.get_chart h]
  cases s.get id <;> rfl

theorem ChartOk.save (h : ChartOk s) (hcodes : ∀ b ∈ s.list, b.id ≠ a.id → b.code ≠ a.code)
    (hpar : ∀ p ∈ a.parentId, ∃ parent ∈ s.list, parent.id = p ∧ p ≠ a.id ∧
      parent.type = a.type ∧ (a.isActive = true → parent.isActive = true))
    (hkids : ∀ b ∈ s.list, b.id ≠ a.id → b.parentId = some a.id →
      b.type = a.type ∧ (b.isActive = true → a.isActive = true))
    (hlev : ∀ id, ∃ n ≤ maxChartDepth, Level (parentIn (s.save a)) id n) :
    ChartOk (s.save a) := by
  refine ⟨?_, ?_, hlev, ?_⟩
  · intro b hb c hc hcode
    rcases SavedAccounts.mem_save.mp hb with rfl | ⟨hb', hne⟩
    · rcases SavedAccounts.mem_save.mp hc with rfl | ⟨hc', hne⟩
      · rfl
      · exact absurd hcode.symm (hcodes c hc' hne)
    · rcases SavedAccounts.mem_save.mp hc with rfl | ⟨hc', -⟩
      · exact absurd hcode (hcodes b hb' hne)
      · exact h.codes b hb' c hc' hcode
  · intro b hb p hp
    rcases SavedAccounts.mem_save.mp hb with rfl | ⟨hb', hne⟩
    · obtain ⟨parent, hmem, rfl, hother, htype, -⟩ := hpar p hp
      exact ⟨parent, SavedAccounts.mem_save.mpr (.inr ⟨hmem, hother⟩), rfl, htype⟩
    · obtain ⟨parent, hmem, rfl, htype⟩ := h.parents b hb' p hp
      by_cases hself : parent.id = a.id
      · rw [hself] at hp
        exact ⟨a, SavedAccounts.mem_save.mpr (.inl rfl), hself.symm, (hkids b hb' hne hp).1.symm⟩
      · exact ⟨parent, SavedAccounts.mem_save.mpr (.inr ⟨hmem, hself⟩), rfl, htype⟩
  · intro b hb hactive parent hmem hp
    rcases SavedAccounts.mem_save.mp hb with rfl | ⟨hb', hne⟩
    · obtain ⟨above, habove, hid, hother, -, hactive'⟩ := hpar parent.id hp
      rcases SavedAccounts.mem_save.mp hmem with rfl | ⟨hmem', -⟩
      · exact absurd rfl hother
      · rw [← SavedAccounts.eq_of_id_eq habove hmem' hid]
        exact hactive' hactive
    · rcases SavedAccounts.mem_save.mp hmem with rfl | ⟨hmem', -⟩
      · exact (hkids b hb' hne hp).2 hactive
      · exact h.activeParents b hb' hactive parent hmem' hp

theorem code_ne_of_getByCode (hchart : s.chart order = .ok chart) {code : String}
    (hfree : chart.getByCode code = none) (hb : b ∈ s.list) : b.code ≠ code := by
  rintro rfl
  have hmem : b.stored ∈ chart.list :=
    (SavedAccounts.list_chart hchart).mem_iff.mpr (List.mem_map_of_mem hb)
  have hfound : chart.getByCode b.code = some b.stored := ChartOfAccounts.getByCode_of_mem hmem
  cases hfree.symm.trans hfound

theorem mem_of_mem_chart (hchart : s.chart order = .ok chart) (h : a ∈ chart.list) :
    ∃ b ∈ s.list, a = b.stored := by
  obtain ⟨b, hb, rfl⟩ := List.mem_map.mp ((SavedAccounts.list_chart hchart).mem_iff.mp h)
  exact ⟨b, hb, rfl⟩

theorem ParentChecked.kept {type : AccountType} {accountId : Option AccountId} {height : Nat}
    {parent : Account} (hchart : s.chart order = .ok chart)
    (h : ParentChecked chart type accountId height parent) :
    ∃ b ∈ s.list, b.id = parent.id ∧ b.type = type ∧ b.isActive = true := by
  obtain ⟨b, hb, rfl⟩ := mem_of_mem_chart hchart h.found
  have hactive := h.active
  rw [isActive_stored] at hactive
  exact ⟨b, hb, rfl, h.type, hactive⟩

theorem ParentChecked.level {type : AccountType} {accountId : Option AccountId} {height : Nat}
    {parent : Account} (hok : ChartOk s) (hchart : s.chart order = .ok chart)
    (h : ParentChecked chart type accountId height parent) :
    ∃ n, Level (parentIn s) parent.id n ∧ n + 1 + height ≤ maxChartDepth := by
  obtain ⟨n, -, hlvl⟩ := hok.levels parent.id
  rw [← parentOf_chart hchart] at hlvl
  have hdepth := depthOf_eq (walkable_of_chart hchart) h.found hlvl
  rw [← parentOf_chart hchart]
  refine ⟨n, hlvl, ?_⟩
  have hlev := h.levels
  rwa [hdepth] at hlev

theorem chartOk_created {input : NewAccount} (h : ChartOk s) (hchart : s.chart order = .ok chart)
    (hok : Created (facts.context chart) input a) (hnew : s.get a.id = none) : ChartOk (s.save a) := by
  have hfree := SavedAccounts.get_eq_none_iff.mp hnew
  have hnok : ∀ b ∈ s.list, b.parentId ≠ some a.id := by
    intro b hb hkid
    obtain ⟨parent, hpar, hid, -⟩ := h.parents b hb a.id hkid
    exact hfree parent hpar hid
  refine h.save ?_ ?_ ?_ ?_
  · exact fun b hb _ => code_ne_of_getByCode hchart hok.code hb
  · intro p hp
    obtain ⟨parent, rfl, hchk⟩ := hok.parent p hp
    obtain ⟨b, hb, hid, htype, hactive⟩ := hchk.kept hchart
    exact ⟨b, hb, hid, fun heq => hfree b hb (hid.trans heq), htype, fun _ => hactive⟩
  · exact fun b hb _ hkid => absurd hkid (hnok b hb)
  · -- nothing is under an id that is new
    have hroot : parentIn s a.id = none := by
      unfold parentIn
      rw [hnew]
      rfl
    have hnone : ∀ j k, Below (parentIn s) a.id j k → k ≤ 0 := by
      intro j k hbelow
      cases k with
      | zero => exact le_refl 0
      | succ k =>
        obtain ⟨c, hc, -⟩ := hbelow.child
        obtain ⟨b, hb, hkid⟩ := Option.bind_eq_some_iff.mp hc
        exact absurd hkid (hnok b (SavedAccounts.get_iff.mp hb).1)
    have hsame : ∀ j, j ≠ a.id → parentIn (s.save a) j = parentIn s j :=
      fun j hj => parentIn_save_ne hj
    cases hpar : a.parentId with
    | none =>
      have hlvl : Level (parentIn (s.save a)) a.id 1 := by
        refine .root ?_
        rw [parentIn_save_self, hpar]
      exact level_le_of_moved hsame h.levels hnone hlvl (by decide)
    | some p =>
      obtain ⟨parent, rfl, hchk⟩ := hok.parent p hpar
      obtain ⟨n, hlvl, hfits⟩ := hchk.level h hchart
      have hnot : ∀ k, ¬ Below (parentIn s) a.id parent.id k := by
        intro k hbelow
        obtain rfl : k = 0 := Nat.le_zero.mp (hnone _ k hbelow)
        obtain ⟨b, hb, hid, -⟩ := hchk.kept hchart
        generalize hj : parent.id = j at hbelow
        cases hbelow
        exact hfree b hb (hid.trans hj)
      have hlvl' : Level (parentIn (s.save a)) a.id (n + 1) := by
        refine .sub ?_ (hlvl.unmoved hsame hnot)
        rw [parentIn_save_self, hpar]
      exact level_le_of_moved hsame h.levels hnone hlvl' (by omega)

theorem exists_kept (hchart : s.chart order = .ok chart) {code : String}
    (hcur : chart.getByCode code = some current) :
    ∃ before ∈ s.list, current = before.stored ∧ before.code = code := by
  obtain ⟨hmem, hcode⟩ := ChartOfAccounts.getByCode_iff.mp hcur
  obtain ⟨before, hbef, rfl⟩ := mem_of_mem_chart hchart hmem
  exact ⟨before, hbef, rfl, hcode⟩

theorem ChartOk.parent_ne (h : ChartOk s) (ha : a ∈ s.list) : a.parentId ≠ some a.id := by
  intro hself
  obtain ⟨n, -, hlvl⟩ := h.levels a.id
  have hpar : parentIn s a.id = some a.id := (parentIn_of_mem ha).trans hself
  cases (Below.sub hpar .self).eq_zero hlvl

theorem levels_edited {changes : AccountChanges} {before : Account} (h : ChartOk s)
    (hchart : s.chart order = .ok chart) (hbef : before ∈ s.list)
    (hok : Edited before.stored changes (facts.context chart) next) :
    ∀ id, ∃ n ≤ maxChartDepth, Level (parentIn (s.save next)) id n := by
  have hid : next.id = before.id := hok.id
  have hsame : ∀ j, j ≠ next.id → parentIn (s.save next) j = parentIn s j :=
    fun j hj => parentIn_save_ne hj
  have hself : parentIn (s.save next) next.id = next.parentId := parentIn_save_self
  rcases hok.parent with hnone | ⟨parent, hpar, hchk⟩ | ⟨hkept, -, -⟩
  · have hlvl : Level (parentIn (s.save next)) next.id 1 := .root (hself.trans hnone)
    have hheig : ∀ j k, Below (parentIn s) next.id j k → k ≤ maxChartDepth - 1 := by
      intro j k hbelow
      obtain ⟨n, -, hn⟩ := h.levels next.id
      obtain ⟨m, hm, hj⟩ := h.levels j
      have heq := hj.unique (hbelow.level hn)
      have hpos := hn.pos
      omega
    exact level_le_of_moved hsame h.levels hheig hlvl (by decide)
  · obtain ⟨n, hlvl, hfits⟩ := hchk.level h hchart
    have hsto : before.stored ∈ chart.list :=
      (SavedAccounts.list_chart hchart).mem_iff.mpr (List.mem_map_of_mem hbef)
    have hwalk := walkable_of_chart hchart
    have hnot : ∀ k, ¬ Below (parentIn s) next.id parent.id k := by
      intro k
      rw [← parentOf_chart hchart, hid]
      exact not_below_of_meets hwalk hchk.found (hchk.noCycle _ rfl)
        ⟨before.stored, hsto, rfl⟩ k
    have hlvl' : Level (parentIn (s.save next)) next.id (n + 1) :=
      .sub (hself.trans hpar) (hlvl.unmoved hsame hnot)
    have hheig : ∀ j k, Below (parentIn s) next.id j k → k ≤ heightOf chart before.stored := by
      intro j k hbelow
      rw [← parentOf_chart hchart, hid] at hbelow
      exact le_heightOf hwalk hsto hbelow
    exact level_le_of_moved hsame h.levels hheig hlvl' hfits
  · have hall : parentIn (s.save next) = parentIn s := by
      funext j
      by_cases hj : j = next.id
      · subst hj
        rw [hself, hkept, hid, parentIn_of_mem hbef]
        rfl
      · exact hsame j hj
    rw [hall]
    exact h.levels

theorem chartOk_edited {changes : AccountChanges} {before : Account} (h : ChartOk s)
    (hchart : s.chart order = .ok chart) (hbef : before ∈ s.list)
    (hok : Edited before.stored changes (facts.context chart) next)
    (hallow : changes.active = some false → before.isActive = true →
      ∀ b ∈ s.list, b.parentId = some before.id → b.isActive = false) :
    ChartOk (s.save next) := by
  have hid : next.id = before.id := hok.id
  refine h.save ?_ ?_ ?_ (levels_edited h hchart hbef hok)
  · intro b hb hne hcode
    rcases hok.code with hsame | hfree
    · rw [hsame] at hcode
      exact hne (h.codes b hb before hbef hcode ▸ hid.symm)
    · exact code_ne_of_getByCode hchart hfree hb hcode
  · intro p hp
    rcases hok.parent with hnone | ⟨parent, hpar, hchk⟩ | ⟨hkept, htype, hactive⟩
    · cases hnone.symm.trans hp
    · obtain rfl := Option.some.inj (hp.symm.trans hpar)
      obtain ⟨b, hb, hbid, htype, hactive⟩ := hchk.kept hchart
      refine ⟨b, hb, hbid, ?_, htype, fun _ => hactive⟩
      intro hself
      have hsto : before.stored ∈ chart.list :=
        (SavedAccounts.list_chart hchart).mem_iff.mpr (List.mem_map_of_mem hbef)
      refine not_below_of_meets (walkable_of_chart hchart) hchk.found
        (hchk.noCycle _ rfl) ⟨before.stored, hsto, rfl⟩ 0 ?_
      rw [hself, hid]
      exact .self
    · have hp' : before.parentId = some p := hkept.symm.trans hp
      obtain ⟨parent, hmem, rfl, hparentT⟩ := h.parents before hbef p hp'
      refine ⟨parent, hmem, rfl, ?_, hparentT.trans htype.symm, fun hnext => ?_⟩
      · intro hself
        rw [hself, hid] at hp'
        exact h.parent_ne hbef hp'
      · have hbefor := hactive hnext
        rw [isActive_stored] at hbefor
        exact h.activeParents before hbef hbefor parent hmem hp'
  · intro b hb hne hkid
    rw [hid] at hkid
    have hbtype : b.type = before.type := by
      obtain ⟨parent, hpar, hpid, htype⟩ := h.parents b hb before.id hkid
      rw [← htype, SavedAccounts.eq_of_id_eq hpar hbef hpid]
    refine ⟨?_, fun hbac => ?_⟩
    · by_cases hret : next.type = before.stored.type
      · exact hbtype.trans hret.symm
      · have hsto : b.stored ∈ chart.list :=
          (SavedAccounts.list_chart hchart).mem_iff.mpr (List.mem_map_of_mem hb)
        have hin : b.stored ∈ chart.children before.id :=
          List.mem_filter.mpr ⟨hsto, decide_eq_true hkid⟩
        have hkids : chart.children before.id = [] := (hok.retyped hret).2
        rw [hkids] at hin
        exact absurd hin List.not_mem_nil
    · have hbefor := h.activeParents b hb hbac before hbef hkid
      have hunc : changes.active ≠ some false := by
        intro hoff
        rw [hallow hoff hbefor b hb hkid] at hbac
        cases hbac
      unfold Account.isActive
      rw [hok.active, isActive_stored, hbefor]
      cases hchg : changes.active with
      | none => rfl
      | some active =>
        cases active with
        | true => rfl
        | false => exact absurd hchg hunc

end
end Rgnr8.Service
