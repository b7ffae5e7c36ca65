import PstDedupe.Foundations.SqlSelect
import PstDedupe.Foundations.UnionFind
import PstDedupe.MatterCore.Audit
import PstDedupe.MatterNeardup.Minhash

/-!
# Clusters and their pivots (`matter-neardup/src/cluster.rs`)

Candidates at the threshold are linked, the linked items of a component are graded against its
pivot, and those below the threshold fall out again.
-/

namespace MatterNeardup

open Rust Foundations MatterCore List Prod

structure ItemMeta (h : Nat) where
  itemId : String
  tokenCount : Nat
  importedAt : String
  path : String
  sig : MinHashSig h

inductive NearDupRole where
  | pivot
  | member
  | unique
  | skipped
  deriving DecidableEq, Repr

structure ClusterAssignment where
  itemId : String
  role : NearDupRole
  groupId : Option String
  pivotItemId : Option String
  similarity : Option Float
  deriving DecidableEq

def nearGroupId [Sha256] (pivotItemId : String) : String := sha256Hex (bytes ("near:v1\n" ++ pivotItemId))

/-- `Iterator::min_by`: the first least element. -/
def minBy {α : Type} (cmp : α → α → Ordering) : List α → Option α
  | [] => none
  | x :: rest => some (rest.foldl (fun best y => if cmp best y = .gt then y else best) x)

variable {h : Nat}

def pivotOrder : List (ItemMeta h → ItemMeta h → Ordering) :=
  [desc ItemMeta.tokenCount, asc ItemMeta.importedAt, asc ItemMeta.path, asc ItemMeta.itemId]

def pickPivot (members : List (Nat × ItemMeta h)) : Option (Nat × ItemMeta h) :=
  minBy (fun a b => byTerms pivotOrder a.2 b.2) members

def ItemMeta.unique (item : ItemMeta h) : ClusterAssignment := ⟨item.itemId, .unique, none, none, none⟩

section

variable [Sha256] (threshold : Float)

def ItemMeta.asPivot (pivot : ItemMeta h) : ClusterAssignment :=
  ⟨pivot.itemId, .pivot, some (nearGroupId pivot.itemId), some pivot.itemId, some 1.0⟩

def ItemMeta.asMember (pivot item : ItemMeta h) : ClusterAssignment :=
  ⟨item.itemId, .member, some (nearGroupId pivot.itemId), some pivot.itemId,
    some (item.sig.estimateJaccard pivot.sig)⟩

def scoreComponent (members : List (Nat × ItemMeta h)) : List (Nat × ClusterAssignment) :=
  if members.length < 2 then members.map fun m => (m.1, m.2.unique)
  else
    match pickPivot members with
    | none => []
    | some pivot =>
      let others := members.filter fun m => m.1 != pivot.1
      let strong := fun m : Nat × ItemMeta h => decide (threshold ≤ m.2.sig.estimateJaccard pivot.2.sig)
      let kept := others.filter strong
      let demoted := others.filter fun m => !strong m
      if kept.length + 1 < 2 then members.map fun m => (m.1, m.2.unique)
      else (pivot.1, pivot.2.asPivot) :: kept.map (fun m => (m.1, pivot.2.asMember m.2))
        ++ demoted.map fun m => (m.1, m.2.unique)

def linkedPairs (items : List (ItemMeta h)) (pairs : List (Nat × Nat)) : List (Nat × Nat) :=
  pairs.filter fun e =>
    match items[e.1]?, items[e.2]? with
    | some a, some b => decide (threshold ≤ a.sig.estimateJaccard b.sig)
    | _, _ => false

def withItems (items : List (ItemMeta h)) (members : List Nat) : List (Nat × ItemMeta h) :=
  members.filterMap fun i => items[i]?.map (i, ·)

/-- The classes of the union-find, in the order of a hash map. -/
def componentsOf [RandomState] (edges : List (Nat × Nat)) (items : List (ItemMeta h)) :
    List (List (Nat × ItemMeta h)) :=
  let uf := UnionFind.singletons.uniteAll edges
  (collectBy id ((range items.length).map fun i => some (uf.root i))).iter.map fun g => withItems items g.2

def components [RandomState] (items : List (ItemMeta h)) (pairs : List (Nat × Nat)) :
    List (List (Nat × ItemMeta h)) :=
  componentsOf (linkedPairs threshold items pairs) items

def clusterAndScore [RandomState] (items : List (ItemMeta h)) (pairs : List (Nat × Nat)) :
    List (Nat × ClusterAssignment) :=
  let out := (components threshold items pairs).flatMap (scoreComponent threshold)
  out ++ (items.zipIdx.filter fun m => m.2 ∉ out.map fst).map fun m => (m.2, m.1.unique)

end

def ItemMeta.key (item : ItemMeta h) : Natᵒᵈ ×ₗ String ×ₗ String ×ₗ String :=
  toLex (OrderDual.toDual item.tokenCount, toLex (item.importedAt, toLex (item.path, item.itemId)))

theorem ItemMeta.itemId_of_key {a b : ItemMeta h} (heq : a.key = b.key) : a.itemId = b.itemId := by
  have hrest := (Prod.mk.inj (toLex.injective heq)).2
  have hrest := (Prod.mk.inj (toLex.injective hrest)).2
  exact (Prod.mk.inj (toLex.injective hrest)).2

theorem pivotOrder_ordersBy : OrdersBy (pivotOrder (h := h)) ItemMeta.key := by
  intro a b
  simp only [pivotOrder, byTerms, foldr_cons, foldr_nil, asc, desc, ItemMeta.key, compare_toLex,
    compare_toDual, Ordering.then_eq]

theorem minBy_spec {α K : Type} [LinearOrder K] {cmp : α → α → Ordering} {key : α → K}
    (hcmp : ∀ a b, cmp a b = compare (key a) (key b)) {l : List α} {p : α} (hp : minBy cmp l = some p) :
    p ∈ l ∧ ∀ x ∈ l, key p ≤ key x := by
  cases l with
  | nil => cases hp
  | cons x rest =>
    obtain rfl := Option.some.inj hp
    clear hp
    induction rest generalizing x with
    | nil => exact ⟨mem_cons_self, fun y hy => le_of_eq (congrArg key (List.mem_singleton.mp hy).symm)⟩
    | cons y rest ih =>
      rw [foldl_cons]
      have hbetter : ((if cmp x y = .gt then y else x) = x ∨ (if cmp x y = .gt then y else x) = y) ∧
          key (if cmp x y = .gt then y else x) ≤ key x ∧ key (if cmp x y = .gt then y else x) ≤ key y := by
        rw [hcmp]
        split
        next hgt => exact ⟨.inr rfl, (compare_gt_iff_gt.mp hgt).le, le_refl _⟩
        next hle => exact ⟨.inl rfl, le_refl _, compare_le_iff_le.mp hle⟩
      generalize (if cmp x y = .gt then y else x) = better at hbetter
      obtain ⟨hwhich, hx, hy⟩ := hbetter
      obtain ⟨hmem, hleast⟩ := ih better
      refine ⟨?_, fun z hz => ?_⟩
      · rcases List.mem_cons.mp hmem with heq | hmem
        · rw [heq]
          exact hwhich.elim (fun h => h ▸ mem_cons_self) fun h => h ▸ mem_cons_of_mem _ mem_cons_self
        · exact mem_cons_of_mem _ (mem_cons_of_mem _ hmem)
      · have hfirst := hleast better mem_cons_self
        rcases List.mem_cons.mp hz with rfl | hz
        · exact hfirst.trans hx
        · rcases List.mem_cons.mp hz with rfl | hz
          · exact hfirst.trans hy
          · exact hleast z (mem_cons_of_mem _ hz)

theorem exists_pickPivot {members : List (Nat × ItemMeta h)} (hne : members ≠ []) : ∃ p,
    pickPivot members = some p := by
  cases members with
  | nil => exact absurd rfl hne
  | cons x rest => exact ⟨_, rfl⟩

theorem pickPivot_spec {members : List (Nat × ItemMeta h)} {p : Nat × ItemMeta h}
    (hp : pickPivot members = some p) :
    p ∈ members ∧ ∀ m ∈ members, p.2.key ≤ m.2.key :=
  minBy_spec (fun a b => pivotOrder_ordersBy a.2 b.2) hp

section Classes

variable [RandomState] {edges : List (Nat × Nat)} {items : List (ItemMeta h)}

omit [RandomState] in
theorem mem_withItems {members : List Nat} {m : Nat × ItemMeta h} :
    m ∈ withItems items members ↔ m.1 ∈ members ∧ items[m.1]? = some m.2 := by
  unfold withItems
  rw [mem_filterMap]
  constructor
  · rintro ⟨i, hi, hm⟩
    obtain ⟨a, ha, rfl⟩ := Option.map_eq_some_iff.mp hm
    exact ⟨hi, ha⟩
  · rintro ⟨hm, ha⟩
    refine ⟨m.1, hm, ?_⟩
    rw [ha]
    rfl

omit [RandomState] in
theorem nodup_fst_withItems {members : List Nat} (hnodup : members.Nodup) :
    ((withItems items members).map fst).Nodup := by
  induction members with
  | nil => exact nodup_nil
  | cons i rest ih =>
    obtain ⟨hi, hrest⟩ := List.nodup_cons.mp hnodup
    unfold withItems
    rw [filterMap_cons]
    split
    · exact ih hrest
    next m hm =>
      obtain ⟨a, -, rfl⟩ := Option.map_eq_some_iff.mp hm
      rw [map_cons]
      refine List.nodup_cons.mpr ⟨fun hmem => hi ?_, ih hrest⟩
      obtain ⟨m, hm, heq⟩ := List.mem_map.mp hmem
      have hmrest := (mem_withItems.mp hm).1
      rwa [show m.1 = i from heq] at hmrest

theorem mem_of_mem_componentsOf {members : List (Nat × ItemMeta h)}
    (hmembers : members ∈ componentsOf edges items) {i : Nat} {a : ItemMeta h}
    (hi : (i, a) ∈ members) (m : Nat × ItemMeta h) :
    m ∈ members ↔ items[m.1]? = some m.2 ∧ Relation.EqvGen (fun i j => (i, j) ∈ edges) i m.1 := by
  obtain ⟨g, hg, rfl⟩ := List.mem_map.mp hmembers
  have hpositions := eq_positions_of_mem_iter hg
  have hkey : ∀ j b, items[j]? = some b → (j ∈ g.2 ↔ (UnionFind.singletons.uniteAll edges).root j = g.1) := by
    intro j b hb
    have hlt : j < items.length := (List.getElem?_eq_some_iff.mp hb).1
    rw [hpositions, mem_positions, getElem?_map, getElem?_range hlt]
    simp only [Option.map_some, Option.some.injEq]
  obtain ⟨higroup, hia⟩ := mem_withItems.mp hi
  have hiroot := (hkey i a hia).mp higroup
  rw [mem_withItems, and_comm]
  refine and_congr_right fun hmitem => ?_
  rw [hkey m.1 m.2 hmitem, ← hiroot, ← UnionFind.same_uniteAll]
  exact eq_comm

theorem exists_mem_componentsOf (edges : List (Nat × Nat)) {i : Nat} {a : ItemMeta h}
    (ha : items[i]? = some a) :
    ∃ members ∈ componentsOf edges items, (i, a) ∈ members := by
  have hlt : i < items.length := (List.getElem?_eq_some_iff.mp ha).1
  have hkey : ((range items.length).map fun i => some ((UnionFind.singletons.uniteAll edges).root i))[i]?
      = some (some ((UnionFind.singletons.uniteAll edges).root i)) := by
    rw [getElem?_map, getElem?_range hlt]
    rfl
  refine ⟨_, mem_map_of_mem (positions_mem_iter hkey), mem_withItems.mpr ⟨?_, ha⟩⟩
  exact mem_positions.mpr hkey

theorem nodup_of_mem_componentsOf {members : List (Nat × ItemMeta h)}
    (hmembers : members ∈ componentsOf edges items) :
    (members.map fst).Nodup := by
  obtain ⟨g, hg, rfl⟩ := List.mem_map.mp hmembers
  refine nodup_fst_withItems ?_
  rw [eq_positions_of_mem_iter hg]
  exact List.nodup_range.filter _

theorem fst_componentsOf (edges : List (Nat × Nat)) (items : List (ItemMeta h)) :
    ((componentsOf edges items).flatMap fun members => members.map fst).Perm (range items.length) := by
  have hmem : ∀ i, i ∈ ((componentsOf edges items).flatMap fun members => members.map fst) ↔
      i ∈ range items.length := by
    intro i
    rw [mem_flatMap, mem_range]
    constructor
    · rintro ⟨members, hmembers, hi⟩
      obtain ⟨m, hm, rfl⟩ := List.mem_map.mp hi
      exact (List.getElem?_eq_some_iff.mp ((mem_of_mem_componentsOf hmembers hm m).mp hm).1).1
    · intro hlt
      have hcomponent : ∃ members ∈ componentsOf edges items, (i, items[i]) ∈ members :=
        exists_mem_componentsOf edges (getElem?_eq_getElem hlt)
      obtain ⟨members, hmembers, hi⟩ := hcomponent
      exact ⟨members, hmembers, List.mem_map.mpr ⟨_, hi, rfl⟩⟩
  have hnodup : ((componentsOf edges items).flatMap fun members => members.map fst).Nodup := by
    unfold componentsOf
    rw [flatMap_map, nodup_flatMap]
    have hgroup : ∀ g : Nat × List Nat, ∀ i ∈ (withItems items g.2).map fst, i ∈ g.2 := fun g i hi => by
      obtain ⟨m, hm, rfl⟩ := List.mem_map.mp hi
      exact (mem_withItems.mp hm).1
    constructor
    · intro g hg
      rw [eq_positions_of_mem_iter hg]
      exact nodup_fst_withItems (List.nodup_range.filter _)
    · have hkeys := HashMap.nodup_keys_iter (collectBy id ((range items.length).map fun i =>
        some ((UnionFind.singletons.uniteAll edges).root i)))
      refine (List.pairwise_map.mp hkeys).imp_of_mem fun {g g'} hg hg' hne i hi hi' => ?_
      have hpos := hgroup g i hi
      have hpos' := hgroup g' i hi'
      rw [eq_positions_of_mem_iter hg, mem_positions] at hpos
      rw [eq_positions_of_mem_iter hg', mem_positions] at hpos'
      exact hne (Option.some.inj (Option.some.inj (hpos.symm.trans hpos')))
  exact (perm_ext_iff_of_nodup hnodup nodup_range).mpr hmem

end Classes

section Components

variable [Sha256] [RandomState] {threshold : Float} {items : List (ItemMeta h)}
  {pairs : List (Nat × Nat)} {members : List (Nat × ItemMeta h)} {asg : ClusterAssignment}

/-- A chain of pairs at the threshold. -/
def Linked (threshold : Float) (items : List (ItemMeta h)) (pairs : List (Nat × Nat)) : Nat → Nat → Prop :=
  Relation.EqvGen fun i j => (i, j) ∈ linkedPairs threshold items pairs

omit [Sha256] in
theorem mem_component (hmembers : members ∈ components threshold items pairs) {i : Nat}
    {a : ItemMeta h} (hi : (i, a) ∈ members) (m : Nat × ItemMeta h) :
    m ∈ members ↔ items[m.1]? = some m.2 ∧ Linked threshold items pairs i m.1 :=
  mem_of_mem_componentsOf hmembers hi m

/-- A member of the pivot's group, or unique where it is below the threshold. -/
def Graded (threshold : Float) (pivot item : ItemMeta h) (asg : ClusterAssignment) : Prop :=
  if threshold ≤ item.sig.estimateJaccard pivot.sig then
    asg.groupId = some (nearGroupId pivot.itemId) ∧ asg.role ≠ .unique
  else asg.groupId = none ∧ asg.role = .unique

omit [RandomState] in
theorem graded_unique {pivot item : ItemMeta h} (hweak : ¬ threshold ≤ item.sig.estimateJaccard pivot.sig) :
    Graded threshold pivot item item.unique := by
  unfold Graded
  rw [if_neg hweak]
  exact ⟨rfl, rfl⟩

omit [RandomState] in
theorem itemId_of_mem_scoreComponent {i : Nat}
    (hmem : (i, asg) ∈ scoreComponent threshold members) : ∃ a, (i, a) ∈ members ∧ asg.itemId = a.itemId := by
  have hunique : ∀ l : List (Nat × ItemMeta h), l ⊆ members → (i, asg) ∈ l.map
      (fun m => (m.1, m.2.unique)) → ∃ a, (i, a) ∈ members ∧ asg.itemId = a.itemId := by
    intro l hl hmem
    obtain ⟨m, hm, heq⟩ := List.mem_map.mp hmem
    cases heq
    exact ⟨m.2, hl hm, rfl⟩
  unfold scoreComponent at hmem
  split at hmem
  · exact hunique members (Subset.refl _) hmem
  · split at hmem
    · cases hmem
    next pivot hpivot =>
      dsimp only at hmem
      split at hmem
      · exact hunique members (Subset.refl _) hmem
      · rcases List.mem_append.mp hmem with hmem | hmem
        · rcases List.mem_cons.mp hmem with heq | hmem
          · cases heq
            exact ⟨pivot.2, (pickPivot_spec hpivot).1, rfl⟩
          · obtain ⟨m, hm, heq⟩ := List.mem_map.mp hmem
            cases heq
            exact ⟨m.2, mem_of_mem_filter (mem_of_mem_filter hm), rfl⟩
        · exact hunique _ (fun m hm => mem_of_mem_filter (mem_of_mem_filter hm)) hmem

omit [Sha256] [RandomState] in
theorem filter_key_eq {α K : Type} [DecidableEq K] {key : α → K} {l : List α} {x : α}
    (hnodup : (l.map key).Nodup) (hx : x ∈ l) :
    l.filter (fun y => key y == key x) = [x] := by
  induction l with
  | nil => cases hx
  | cons y rest ih =>
    obtain ⟨hy, hrest⟩ := List.nodup_cons.mp hnodup
    rcases List.mem_cons.mp hx with rfl | hxrest
    · have hnone : rest.filter (fun y => key y == key x) = [] := by
        rw [filter_eq_nil_iff]
        intro z hz heq
        exact hy (eq_of_beq heq ▸ mem_map_of_mem hz)
      rw [filter_cons, if_pos (beq_self_eq_true (key x)), hnone]
    · have hne : ¬ (key y == key x) = true := fun heq => hy (eq_of_beq heq ▸ mem_map_of_mem hxrest)
      rw [filter_cons, if_neg hne]
      exact ih hrest hxrest

omit [RandomState] in
theorem fst_scoreComponent (hnodup : (members.map fst).Nodup) :
    ((scoreComponent threshold members).map fst).Perm (members.map fst) := by
  have hunique : ∀ l : List (Nat × ItemMeta h),
      (l.map fun m => (m.1, m.2.unique)).map fst = l.map fst := fun l => by
    rw [List.map_map]
    rfl
  unfold scoreComponent
  split
  · rw [hunique]
  · split
    next hnone =>
      cases members with
      | nil => exact List.Perm.refl _
      | cons m rest => cases hnone
    next pivot hpivot =>
      dsimp only
      split
      · rw [hunique]
      · have hpivotMem := (pickPivot_spec hpivot).1
        -- the pivot, and what is left of the others
        have hothers : (pivot :: members.filter fun m => m.1 != pivot.1).Perm members := by
          have hsplit := filter_append_perm (fun m : Nat × ItemMeta h => m.1 == pivot.1) members
          rw [filter_key_eq hnodup hpivotMem] at hsplit
          exact hsplit
        rw [map_append, map_cons, hunique, List.map_map]
        refine Perm.trans ?_ (hothers.map fst)
        rw [map_cons, cons_append]
        refine Perm.cons _ ?_
        show (List.map fst _ ++ List.map fst _).Perm _
        rw [← map_append]
        exact (filter_append_perm _ _).map fst

omit [RandomState] in
theorem graded_of_mem_scoreComponent {i j : Nat} {a b : ItemMeta h}
    (hfun : ∀ k c d, (k, c) ∈ members → (k, d) ∈ members → c = d) (hi : (i, a) ∈ members)
    (hj : (j, b) ∈ members) (hij : i ≠ j) (hsig : a.sig = b.sig)
    (hself : ∀ sig : MinHashSig h, threshold ≤ sig.estimateJaccard sig)
    (hmem : (i, asg) ∈ scoreComponent threshold members) :
    ∃ p, pickPivot members = some p ∧ Graded threshold p.2 a asg := by
  obtain ⟨p, hp⟩ := exists_pickPivot (ne_nil_of_mem hi)
  refine ⟨p, hp, ?_⟩
  have hpmem := (pickPivot_spec hp).1
  have htwo : ¬ members.length < 2 := by
    intro hlt
    have hsub : members.length ≤ 1 := by omega
    obtain ⟨x, hx⟩ := (length_eq_one_iff (l := members)).mp (le_antisymm hsub (length_pos_of_mem hi))
    rw [hx, mem_singleton] at hi hj
    exact hij (congrArg fst (hi.trans hj.symm))
  -- whoever is its own pivot is strong
  have hweakPivot : ¬ threshold ≤ a.sig.estimateJaccard p.2.sig → i ≠ p.1 := by
    intro hweak heq
    have ha : a = p.2 := hfun p.1 a p.2 (heq ▸ hi) hpmem
    rw [ha] at hweak
    exact hweak (hself p.2.sig)
  have hgradedUnique : ∀ m ∈ members, (m.1, m.2.unique) = (i, asg) →
      ¬ threshold ≤ a.sig.estimateJaccard p.2.sig →
      Graded threshold p.2 a asg := by
    intro m hm heq hweak
    cases heq
    obtain rfl := hfun m.1 a m.2 hi hm
    exact graded_unique hweak
  unfold scoreComponent at hmem
  rw [if_neg htwo, hp] at hmem
  dsimp only at hmem
  split at hmem
  next hfew =>
    -- nobody else is strong, so neither of the two is
    have hweak : ¬ threshold ≤ a.sig.estimateJaccard p.2.sig := by
      intro hstrong
      have hother : ∃ m ∈ members, m.1 ≠ p.1 ∧ threshold ≤ m.2.sig.estimateJaccard p.2.sig := by
        by_cases hip : i = p.1
        · exact ⟨(j, b), hj, fun hjp => hij (hip.trans hjp.symm), hsig ▸ hstrong⟩
        · exact ⟨(i, a), hi, hip, hstrong⟩
      obtain ⟨m, hm, hne, hms⟩ := hother
      have hkept : m ∈ (members.filter fun m => m.1 != p.1).filter fun m =>
          decide (threshold ≤ m.2.sig.estimateJaccard p.2.sig) :=
        List.mem_filter.mpr ⟨List.mem_filter.mpr ⟨hm, bne_iff_ne.mpr hne⟩, decide_eq_true hms⟩
      have hlength := length_pos_of_mem hkept
      omega
    obtain ⟨m, hm, heq⟩ := List.mem_map.mp hmem
    exact hgradedUnique m hm heq hweak
  next hfew =>
    rcases List.mem_append.mp hmem with hmem | hmem
    · rcases List.mem_cons.mp hmem with heq | hmem
      · cases heq
        obtain rfl := hfun p.1 a p.2 hi hpmem
        unfold Graded
        rw [if_pos (hself _)]
        exact ⟨rfl, fun h => NearDupRole.noConfusion h⟩
      · obtain ⟨m, hm, heq⟩ := List.mem_map.mp hmem
        cases heq
        obtain ⟨hothers, hstrong⟩ := List.mem_filter.mp hm
        obtain rfl := hfun m.1 a m.2 hi (mem_of_mem_filter hothers)
        unfold Graded
        rw [if_pos (of_decide_eq_true hstrong)]
        exact ⟨rfl, fun h => NearDupRole.noConfusion h⟩
    · obtain ⟨m, hm, heq⟩ := List.mem_map.mp hmem
      obtain ⟨hothers, hweak⟩ := List.mem_filter.mp hm
      refine hgradedUnique m (mem_of_mem_filter hothers) heq fun hstrong => ?_
      cases heq
      obtain rfl := hfun m.1 a m.2 hi (mem_of_mem_filter hothers)
      rw [decide_eq_true hstrong] at hweak
      cases hweak

theorem fst_flatMap_scoreComponent :
    (((components threshold items pairs).flatMap (scoreComponent threshold)).map fst).Perm
    (range items.length) := by
  rw [map_flatMap]
  have hfst : ∀ members ∈ components threshold items pairs,
      ((scoreComponent threshold members).map fst).Perm (members.map fst) :=
    fun members hmembers => fst_scoreComponent (nodup_of_mem_componentsOf hmembers)
  exact (Perm.flatMap_left _ hfst).trans (fst_componentsOf (linkedPairs threshold items pairs) items)

theorem clusterAndScore_eq :
    clusterAndScore threshold items pairs
      = (components threshold items pairs).flatMap (scoreComponent threshold) := by
  have hnone : (items.zipIdx.filter fun m =>
      m.2 ∉ ((components threshold items pairs).flatMap (scoreComponent threshold)).map fst) = [] := by
    rw [filter_eq_nil_iff]
    intro m hm hnot
    have hlt : m.2 < items.length := (List.getElem?_eq_some_iff.mp (List.mem_zipIdx_iff_getElem?.mp hm)).1
    exact of_decide_eq_true hnot (fst_flatMap_scoreComponent.mem_iff.mpr (List.mem_range.mpr hlt))
  unfold clusterAndScore
  dsimp only
  rw [hnone, map_nil, append_nil]

theorem fst_clusterAndScore : ((clusterAndScore threshold items pairs).map fst).Perm (range items.length) := by
  rw [clusterAndScore_eq]
  exact fst_flatMap_scoreComponent

theorem itemId_of_mem_clusterAndScore {i : Nat} (hmem : (i, asg) ∈ clusterAndScore threshold items pairs) :
    ∃ a, items[i]? = some a ∧ asg.itemId = a.itemId := by
  rw [clusterAndScore_eq] at hmem
  obtain ⟨members, hmembers, hscore⟩ := List.mem_flatMap.mp hmem
  obtain ⟨a, ha, hid⟩ := itemId_of_mem_scoreComponent hscore
  exact ⟨a, ((mem_component hmembers ha (i, a)).mp ha).1, hid⟩

theorem graded_of_mem {i j : Nat} {a b : ItemMeta h} (ha : items[i]? = some a)
    (hb : items[j]? = some b) (hij : i ≠ j) (hsig : a.sig = b.sig)
    (hlinked : Linked threshold items pairs i j)
    (hself : ∀ sig : MinHashSig h, threshold ≤ sig.estimateJaccard sig)
    (hmem : (i, asg) ∈ clusterAndScore threshold items pairs) :
    ∃ p pivot, items[p]? = some pivot ∧ Linked threshold items pairs i p ∧
      (∀ c cm, items[c]? = some cm → Linked threshold items pairs i c → pivot.key ≤ cm.key) ∧
        Graded threshold pivot a asg := by
  rw [clusterAndScore_eq] at hmem
  obtain ⟨members, hmembers, hscore⟩ := List.mem_flatMap.mp hmem
  obtain ⟨a', hia', -⟩ := itemId_of_mem_scoreComponent hscore
  have hcomponent := mem_component hmembers hia'
  obtain rfl : a' = a := Option.some.inj (((hcomponent (i, a')).mp hia').1.symm.trans ha)
  have hj : (j, b) ∈ members := (hcomponent (j, b)).mpr ⟨hb, hlinked⟩
  have hfun : ∀ k c d, (k, c) ∈ members → (k, d) ∈ members → c = d := fun k c d hc hd =>
    Option.some.inj (((hcomponent (k, c)).mp hc).1.symm.trans ((hcomponent (k, d)).mp hd).1)
  obtain ⟨p, hp, hgraded⟩ := graded_of_mem_scoreComponent hfun hia' hj hij hsig hself hscore
  obtain ⟨hpmem, hleast⟩ := pickPivot_spec hp
  obtain ⟨hpitem, hplinked⟩ := (hcomponent p).mp hpmem
  exact ⟨p.1, p.2, hpitem, hplinked,
    fun c cm hc hlinked => hleast (c, cm) ((hcomponent (c, cm)).mpr ⟨hc, hlinked⟩), hgraded⟩

end Components

end MatterNeardup
