import PstDedupe.DedupEngine.GroupCandidates
import PstDedupe.Foundations.UnionFind

/-!
# The backfill pass and the grouping outcome (`keepset.rs`)

`--tier1-backfill` merges groups after the fact: groups that share a partition and a v1 content hash
and whose bound Message-IDs are compatible are united, and the groups are rebuilt from the
union-find forest (`applyTier1BackfillPass`).
-/

namespace DedupEngine

open List

open Rust (Bytes32 HashMap RandomState)
open Foundations (UnionFind enumFold)

variable [Rust.Target] [RandomState]

structure BoundGroup where
  members : List Nat
  boundMid : Option String
  deriving Inhabited, DecidableEq

def GroupingState.boundGroups (st : GroupingState) : List BoundGroup :=
  st.groups.map fun g => ⟨g.members, g.boundMid⟩

def itemGid (n : Nat) (groups : List (List Nat)) : List Nat :=
  enumFold (fun acc gid members => members.foldl (fun acc i => acc.set i gid) acc)
    (replicate n 0) groups

/-- The pairs `(i, j)` with `i` before `j` of two nested index loops. -/
def pairs : List Nat → List (Nat × Nat)
  | [] => []
  | x :: l => l.map (fun y => (x, y)) ++ pairs l

/-- May the pass unite these two groups? One of them must be bound to a Message-ID. -/
def backfillJoins (groups : List BoundGroup) (e : Nat × Nat) : Bool :=
  let ma := (groups[e.1]?).bind BoundGroup.boundMid
  let mb := (groups[e.2]?).bind BoundGroup.boundMid
  let hasMid := (midPresent ma).isSome || (midPresent mb).isSome
  hasMid && (midJoinCompatible ma mb true).1

def distinctGids (gidOf : List Nat) (idxs : List Nat) : List Nat :=
  Rust.vecDedup (Rust.sortNats (idxs.map fun i => gidOf.getD i 0))

def backfillEdges (groups : List BoundGroup) (gidOf idxs : List Nat) : List (Nat × Nat) :=
  if idxs.length < 2 then []
  else
    let gids := distinctGids gidOf idxs
    if gids.length < 2 then [] else (pairs gids).filter (backfillJoins groups)

/-- The Message-ID of a merged group: the first non-empty one met. -/
def preferBoundMid (cur new : Option String) : Option String :=
  match midPresent cur with
  | some _ => cur
  | none => match midPresent new with
    | some b => some b
    | none => cur

structure RebuildState where
  rootToNew : HashMap Nat Nat := ∅
  newGroups : List BoundGroup := []

def RebuildState.openRoot (groups : List BoundGroup) (r : Nat) (st : RebuildState) : RebuildState × Nat :=
  match st.rootToNew.get r with
  | some ngid => (st, ngid)
  | none =>
    let opened : BoundGroup := ⟨[], (groups[r]?).bind BoundGroup.boundMid⟩
    ({ rootToNew := AList.insert r st.newGroups.length st.rootToNew
       newGroups := st.newGroups ++ [opened] }, st.newGroups.length)

/-- Move one old group into the new group of its root. The path halving of the source's `find`
changes no root, so the root is read off the forest. -/
def rebuildStep (groups : List BoundGroup) (root : Nat → Nat) (st : RebuildState) (oldGid : Nat)
    (g : BoundGroup) : RebuildState :=
  let (st, ngid) := st.openRoot groups (root oldGid)
  { st with
    newGroups := st.newGroups.modify ngid fun b =>
      { members := b.members ++ g.members, boundMid := preferBoundMid b.boundMid g.boundMid } }

def rebuildGroups (groups : List BoundGroup) (root : Nat → Nat) : List BoundGroup :=
  (enumFold (rebuildStep groups root) {} groups).newGroups.map fun b =>
    { b with members := Rust.sortNats b.members }

variable (ctx : GroupingContext) (items : List RecoverableScanItem)

def reclassified (seedMid memberMid : Option String) : BoundBy :=
  match midPresent seedMid, midPresent memberMid with
  | some a, some b => if a = b then .messageId else boundByForTier2 ctx
  | _, _ => boundByForTier2 ctx

/-- One merged group: its first member is the seed, and any other member still tagged `Seed` gets a
tag that says how it matches. -/
def reclassifyGroup (boundBy : List BoundBy) : List Nat → List BoundBy
  | [] => boundBy
  | seed :: rest =>
    let seedMid := (items[seed]?).bind (·.messageIdNorm)
    rest.foldl (fun bb idx =>
        if bb[idx]? = some .seed then
          bb.set idx (reclassified ctx seedMid ((items[idx]?).bind (·.messageIdNorm)))
        else bb)
      (boundBy.set seed .seed)

def reclassify (groups : List BoundGroup) (boundBy : List BoundBy) : List BoundBy :=
  groups.foldl (fun bb g => reclassifyGroup ctx items bb g.members) boundBy

structure BackfillOutcome where
  groups : List BoundGroup
  boundBy : List BoundBy
  stats : GroupingStats

def backfillForest (groups : List BoundGroup) : UnionFind Nat :=
  let gidOf := itemGid items.length (groups.map BoundGroup.members)
  let byKey := Rust.collectBy (fun item => some (RecoverableScanItem.backfillKey ctx item)) items
  byKey.values.foldl (fun uf idxs => uf.uniteAll (backfillEdges groups gidOf idxs))
    UnionFind.singletons

def applyTier1BackfillPass (groups : List BoundGroup) (boundBy : List BoundBy)
    (stats : GroupingStats) : BackfillOutcome :=
  if groups.isEmpty || items.isEmpty then ⟨groups, boundBy, stats⟩
  else
    let uf := backfillForest ctx items groups
    -- candidates are counted whether or not the flag is on
    let stats := { stats with
      tier1BackfillCandidates := stats.tier1BackfillCandidates + uf.links }
    if !ctx.tier1Backfill || uf.links == 0 then ⟨groups, boundBy, stats⟩
    else
      let newGroups := rebuildGroups groups uf.root
      ⟨newGroups, reclassify ctx items newGroups boundBy, stats⟩

def recipDisplayEq : Option String → Option String → Bool
  | none, none => true
  | some x, some y => normalizeRecipients x == normalizeRecipients y
  | _, _ => false

def groupReps (gidOf : List Nat) : List Nat → List Nat → List Nat
  | _, [] => []
  | seen, i :: idxs =>
    let g := gidOf.getD i 0
    if g ∈ seen then groupReps gidOf seen idxs else i :: groupReps gidOf (g :: seen) idxs

/-- One pair of consecutive representatives: did only the recipients, or only the BCC, differ? -/
def attributeSplit (stats : GroupingStats) (a b : RecoverableScanItem) : GroupingStats :=
  if a.fpBody == b.fpBody && a.fpHeader == b.fpHeader && a.fpAttachments == b.fpAttachments
      && a.fpRecipients != b.fpRecipients then
    let stats := { stats with
      tier25SplitsRecipientsOnly := stats.tier25SplitsRecipientsOnly + 1 }
    let bccDiff := !recipDisplayEq a.displayBcc b.displayBcc || a.hasBcc != b.hasBcc
    if recipDisplayEq a.displayTo b.displayTo && recipDisplayEq a.displayCc b.displayCc
        && bccDiff then
      { stats with tier25SplitsBccOnly := stats.tier25SplitsBccOnly + 1 }
    else stats
  else stats

def attributeTier25Splits (groups : List (List Nat)) (tier2Eligible : List Bool)
    (stats : GroupingStats) : GroupingStats :=
  let gidOf := itemGid items.length groups
  let v1ToItems := Rust.collectBy
    (fun p : RecoverableScanItem × Nat =>
      if tier2Eligible.getD p.2 true then some p.1.contentHash else none) items.zipIdx
  v1ToItems.values.foldl (fun stats idxs =>
    if idxs.length < 2 then stats
    else
      let reps := groupReps gidOf [] idxs
      if reps.length ≤ 1 then stats
      else
        let stats := { stats with tier25Splits := stats.tier25Splits + (reps.length - 1) }
        (reps.zip reps.tail).foldl
          (fun stats w => attributeSplit stats (items.getD w.1 default) (items.getD w.2 default))
          stats) stats

structure GroupingOutcome where
  groups : List (List Nat)
  boundBy : List BoundBy
  tier2Eligible : List Bool
  stats : GroupingStats

def groupCandidatesWithStats : GroupingOutcome :=
  let st := groupLoop ctx items
  let out := applyTier1BackfillPass ctx items st.boundGroups st.boundBy st.notes.stats
  let groups := out.groups.map BoundGroup.members
  { groups := groups
    boundBy := out.boundBy
    tier2Eligible := st.tier2Eligible
    stats :=
      if ctx.identity.isStrong then
        attributeTier25Splits items groups st.tier2Eligible out.stats
      else out.stats }

end DedupEngine

/-!
# Which groups the backfill pass unites

`backfillForest` walks a hash map of index lists in an unspecified order, maps items to groups
through a vector and unites pairs of sorted, deduplicated group ids.
-/

namespace DedupEngine

open Rust (Bytes32 HashMap RandomState)
open List
open Foundations (UnionFind ScanPartition enumFold)

variable {a b : Nat} {groups : List BoundGroup} {gidOf idxs : List Nat}

theorem itemGid_eq {gs : List (List Nat)} {n gid i : Nat} {g : List Nat}
    (h : ScanPartition gs n) (hg : gs[gid]? = some g) (hi : i ∈ g) : (itemGid n gs).getD i 0 = gid := by
  have hrun : (itemGid n gs).length = n ∧ ∀ k < gs.length, ∀ g, gs[k]? = some g → ∀ i ∈ g,
      (itemGid n gs)[i]? = some k := by
    unfold itemGid
    apply Foundations.enumFold_induction (P := fun m (acc : List Nat) =>
      acc.length = n ∧ ∀ k < m, ∀ g, gs[k]? = some g → ∀ i ∈ g, acc[i]? = some k)
    · exact ⟨by simp, fun k hk => absurd hk (Nat.not_lt_zero k)⟩
    · intro m g acc hm hacc
      obtain ⟨hlen, hacc⟩ := hacc
      refine ⟨(Foundations.length_setAll g (fun _ => m) acc).trans hlen, ?_⟩
      intro k hk g' hg' i hi
      have hin : i < n := h.lt_of_mem (mem_of_getElem? hg') hi
      refine (Foundations.getElem?_setAll g (fun _ => m) acc i).trans ?_
      by_cases hig : i ∈ g
      · obtain rfl := h.place_eq_of_mem hm hg' hig hi
        simp [hig, hlen, hin]
      · have hkm : k ≠ m := by
          rintro rfl
          exact hig (by rwa [Option.some.inj (hm.symm.trans hg')])
        simp only [hig, false_and, if_false]
        exact hacc k (by omega) g' hg' i hi
  rw [getD_eq_getElem?_getD, hrun.2 gid (List.getElem?_eq_some_iff.mp hg).1 g hg i hi]
  rfl

theorem mem_pairs {l : List Nat} (h : (a, b) ∈ pairs l) : a ∈ l ∧ b ∈ l := by
  induction l with
  | nil => cases h
  | cons x l ih =>
    rcases List.mem_append.mp h with h | h
    · obtain ⟨y, hy, heq⟩ := List.mem_map.mp h
      cases heq
      exact ⟨mem_cons_self, mem_cons_of_mem _ hy⟩
    · exact ⟨mem_cons_of_mem _ (ih h).1, mem_cons_of_mem _ (ih h).2⟩

theorem mem_pairs_of_ne {l : List Nat} (ha : a ∈ l) (hb : b ∈ l) (hab : a ≠ b) :
    (a, b) ∈ pairs l ∨ (b, a) ∈ pairs l := by
  induction l with
  | nil => cases ha
  | cons x l ih =>
    simp only [pairs, mem_append, mem_map]
    rcases List.mem_cons.mp ha with rfl | ha'
    · have hb' : b ∈ l := by simpa [hab.symm] using hb
      exact Or.inl (Or.inl ⟨b, hb', rfl⟩)
    · rcases List.mem_cons.mp hb with rfl | hb'
      · exact Or.inr (Or.inl ⟨a, ha', rfl⟩)
      · rcases ih ha' hb' with h | h
        · exact Or.inl (Or.inr h)
        · exact Or.inr (Or.inr h)

/-- The Message-ID a group is bound to, as the compatibility table reads it. -/
def boundMidAt (groups : List BoundGroup) (a : Nat) : Option String :=
  midPresent ((groups[a]?).bind BoundGroup.boundMid)

theorem backfillJoins_iff :
    backfillJoins groups (a, b) = true ↔ (boundMidAt groups a ≠ none ∨ boundMidAt groups b ≠ none) ∧
        (boundMidAt groups a = none ∨ boundMidAt groups b = none ∨
          boundMidAt groups a = boundMidAt groups b) := by
  unfold backfillJoins boundMidAt
  simp only [Bool.and_eq_true, Bool.or_eq_true, Option.isSome_iff_ne_none, midJoinCompatible_fst,
    or_false, Bool.true_eq_false]

theorem backfillJoins_symm (h : backfillJoins groups (a, b) = true) : backfillJoins groups (b, a) = true := by
  rw [backfillJoins_iff] at h ⊢
  obtain ⟨hsome, hcompat⟩ := h
  refine ⟨hsome.symm, ?_⟩
  rcases hcompat with h | h | h
  · exact Or.inr (Or.inl h)
  · exact Or.inl h
  · exact Or.inr (Or.inr h.symm)

theorem mem_distinctGids {a : Nat} : a ∈ distinctGids gidOf idxs ↔ ∃ i ∈ idxs, gidOf.getD i 0 = a := by
  unfold distinctGids
  rw [Rust.mem_vecDedup, (Rust.sortNats_perm _).mem_iff, mem_map]

theorem two_le_length {α : Type} {l : List α} {a b : α} (ha : a ∈ l) (hb : b ∈ l) (hab : a ≠ b) :
    2 ≤ l.length := by
  match l with
  | [] => cases ha
  | [x] => simp at ha hb; exact absurd (ha.trans hb.symm) hab
  | _ :: _ :: _ => simp

theorem mem_backfillEdges (h : (a, b) ∈ backfillEdges groups gidOf idxs) :
    (∃ i ∈ idxs, gidOf.getD i 0 = a) ∧ (∃ j ∈ idxs, gidOf.getD j 0 = b) ∧
      backfillJoins groups (a, b) = true := by
  unfold backfillEdges at h
  split at h
  · cases h
  · simp only at h
    split at h
    · cases h
    · obtain ⟨hp, hj⟩ := List.mem_filter.mp h
      obtain ⟨ha, hb⟩ := mem_pairs hp
      exact ⟨mem_distinctGids.mp ha, mem_distinctGids.mp hb, hj⟩

theorem mem_backfillEdges_of_ne {a b i j : Nat}
    (hi : i ∈ idxs) (hj : j ∈ idxs) (ha : gidOf.getD i 0 = a) (hb : gidOf.getD j 0 = b)
    (hab : a ≠ b) (hjoin : backfillJoins groups (a, b) = true) :
    (a, b) ∈ backfillEdges groups gidOf idxs ∨ (b, a) ∈ backfillEdges groups gidOf idxs := by
  have hij : i ≠ j := by
    rintro rfl
    exact hab (ha.symm.trans hb)
  have hma : a ∈ distinctGids gidOf idxs := mem_distinctGids.mpr ⟨i, hi, ha⟩
  have hmb : b ∈ distinctGids gidOf idxs := mem_distinctGids.mpr ⟨j, hj, hb⟩
  have h2 := two_le_length hi hj hij
  have h2' := two_le_length hma hmb hab
  unfold backfillEdges
  rw [if_neg (by omega)]
  simp only
  rw [if_neg (by omega)]
  simp only [mem_filter]
  rcases mem_pairs_of_ne hma hmb hab with h | h
  · exact Or.inl ⟨h, hjoin⟩
  · exact Or.inr ⟨h, backfillJoins_symm hjoin⟩

variable [Rust.Target] [RandomState]

def Holds (groups : List BoundGroup) (gid i : Nat) : Prop :=
  ∃ g : BoundGroup, groups[gid]? = some g ∧ i ∈ g.members

def ShareKey (ctx : GroupingContext) (items : List RecoverableScanItem) (groups : List BoundGroup)
    (a b : Nat) : Prop :=
  ∃ i j, Holds groups a i ∧ Holds groups b j ∧
    OnItems items (fun x y => x.backfillKey ctx = y.backfillKey ctx) i j

/-- Two groups the pass may unite directly: they share a backfill key, their bound Message-IDs are
compatible, and one of them is bound. -/
def Mergeable (ctx : GroupingContext) (items : List RecoverableScanItem) (groups : List BoundGroup)
    (a b : Nat) : Prop :=
  ShareKey ctx items groups a b ∧ backfillJoins groups (a, b) = true

omit [Rust.Target] [RandomState] in
theorem foldl_uniteAll (f : List Nat → List (Nat × Nat)) (ls : List (List Nat)) (uf : UnionFind Nat) :
    ls.foldl (fun uf idxs => uf.uniteAll (f idxs)) uf = uf.uniteAll (ls.flatMap f) := by
  induction ls generalizing uf with
  | nil => rfl
  | cons l ls ih =>
    rw [foldl_cons, ih, flatMap_cons]
    unfold UnionFind.uniteAll
    rw [foldl_append]

variable {ctx : GroupingContext} {items : List RecoverableScanItem} {groups : List BoundGroup}

theorem wf_backfillForest (ctx : GroupingContext) (items : List RecoverableScanItem)
    (groups : List BoundGroup) : (backfillForest ctx items groups).Wf := by
  unfold backfillForest
  simp only
  rw [foldl_uniteAll]
  exact UnionFind.wf_singletons.uniteAll _

theorem same_backfillForest (hpart : ScanPartition (groups.map BoundGroup.members) items.length) (a b : Nat) :
    (backfillForest ctx items groups).Same a b ↔ Relation.EqvGen (Mergeable ctx items groups) a b := by
  unfold backfillForest
  simp only
  rw [foldl_uniteAll, UnionFind.same_uniteAll]
  have hgid : ∀ {k i : Nat}, Holds groups k i →
      (itemGid items.length (groups.map BoundGroup.members)).getD i 0 = k := by
    rintro k i ⟨g, hk, hi⟩
    exact itemGid_eq hpart (by simp [hk]) hi
  have hgroup : ∀ {i : Nat} {x : RecoverableScanItem}, items[i]? = some x → ∃ k, Holds groups k i := by
    intro i x hx
    obtain ⟨ms, hms, hi⟩ := hpart.exists_mem (List.getElem?_eq_some_iff.mp hx).1
    obtain ⟨g, hg, rfl⟩ := List.mem_map.mp hms
    obtain ⟨k, hk⟩ := List.mem_iff_getElem?.mp hg
    exact ⟨k, g, hk, hi⟩
  constructor
  · refine Relation.EqvGen.eqvGen_le (fun u v huv => .rel _ _ ?_) a b
    obtain ⟨idxs, hidxs, huv⟩ := List.mem_flatMap.mp huv
    obtain ⟨key, hkey⟩ := Rust.mem_values_collectBy hidxs
    obtain ⟨⟨i, hi, hu⟩, ⟨j, hj, hv⟩, hjoin⟩ := mem_backfillEdges huv
    obtain ⟨x, hx, hxk⟩ := (hkey i).mp hi
    obtain ⟨y, hy, hyk⟩ := (hkey j).mp hj
    obtain ⟨k, hk⟩ := hgroup hx
    obtain ⟨l, hl⟩ := hgroup hy
    rw [hgid hk] at hu
    rw [hgid hl] at hv
    subst hu hv
    exact ⟨⟨i, j, hk, hl, x, y, hx, hy, Option.some.inj (hxk.trans hyk.symm)⟩, hjoin⟩
  · refine Relation.EqvGen.eqvGen_le (fun u v huv => ?_) a b
    obtain ⟨⟨i, j, hi, hj, x, y, hx, hy, hxy⟩, hjoin⟩ := huv
    by_cases huv : u = v
    · subst huv
      exact .refl _
    · obtain ⟨idxs, hidxs, hmem⟩ := Rust.exists_mem_values_collectBy
        (fun item => some (RecoverableScanItem.backfillKey ctx item)) hx rfl
      have hi' : i ∈ idxs := (hmem i).mpr ⟨x, hx, rfl⟩
      have hj' : j ∈ idxs := (hmem j).mpr ⟨y, hy, by rw [hxy]⟩
      rcases mem_backfillEdges_of_ne hi' hj' (hgid hi) (hgid hj) huv hjoin with he | he
      · exact .rel _ _ (List.mem_flatMap.mpr ⟨idxs, hidxs, he⟩)
      · exact .symm _ _ (.rel _ _ (List.mem_flatMap.mpr ⟨idxs, hidxs, he⟩))

end DedupEngine
