import PstDedupe.PstWriter.BTree
import PstDedupe.PstWriter.Placement

/-!
# Planned trees

`planTree` reserves as many pages per level as a tree over the entries needs, and the placement
gives every planned page an offset of its own.
-/

namespace PstWriter

open Rust Foundations List Prod

theorem TreePlan.mem_of_root {plan : TreePlan} {root : Nat} (h : plan.root = some root) :
    root ∈ plan.levels.flatten := by
  obtain ⟨level, hlevel, hhead⟩ := Option.bind_eq_some_iff.mp h
  exact mem_flatten_of_mem (mem_of_getLast? hlevel) (mem_of_head? hhead)

structure TreePlan.Fits (plan : TreePlan) (ptype size count : Nat) : Prop where
  planPtype : plan.ptype = ptype
  entrySize : plan.leafEntrySize = size
  perLeaf : plan.perLeafCapacity = max (488 / size) 1
  shape : ∃ leaves upper, plan.levels = leaves :: upper ∧
    leaves.length = max ((count + plan.perLeafCapacity - 1) / plan.perLeafCapacity) 1 ∧
    Shape intermediateEntriesPerPage leaves.length upper

theorem TreePlan.Fits.exists_root {plan : TreePlan} {ptype size count : Nat}
    (h : plan.Fits ptype size count) : ∃ root, plan.root = some root := by
  obtain ⟨leaves, upper, hlevels, _, hshape⟩ := h.shape
  obtain ⟨root, hlast⟩ := hshape.exists_last
  refine ⟨root, ?_⟩
  unfold TreePlan.root
  rw [hlevels, hlast]
  rfl

/-- The layout `l'` has these pages reserved on top of those of `l`. -/
structure Layout.Reserved [Crc32fast] (l l' : Layout) (ptype : Nat) (bids : List Nat) : Prop where
  pages : l'.pages = l.pages ++ bids.map fun bid => ⟨bid, ptype, 0⟩
  nodes : l'.nodes = l.nodes
  blocks : l'.blocks = l.blocks
  eager : l'.eager = l.eager
  steps : Steps l l'

section

variable [Crc32fast] {l l' l'' : Layout} {ptype : Nat} {bids bids' : List Nat}

namespace Layout.Reserved

theorem refl (l : Layout) (ptype : Nat) : l.Reserved l ptype [] :=
  ⟨(append_nil _).symm, rfl, rfl, rfl, .refl⟩

theorem trans (h : l.Reserved l' ptype bids) (h' : l'.Reserved l'' ptype bids') :
    l.Reserved l'' ptype (bids ++ bids') where
  pages := by rw [h'.pages, h.pages, map_append, append_assoc]
  nodes := h'.nodes.trans h.nodes
  blocks := h'.blocks.trans h.blocks
  eager := h'.eager.trans h.eager
  steps := h.steps.trans h'.steps

end Layout.Reserved

theorem reserved_reservePage (l : Layout) (ptype : Nat) :
    l.Reserved (l.reservePage ptype).2 ptype [(l.reservePage ptype).1] :=
  ⟨rfl, rfl, rfl, rfl, .single (.page l ptype)⟩

theorem reserved_reservePages (l : Layout) (ptype count : Nat) :
    (l.reservePages ptype count).1.length = count ∧
      l.Reserved (l.reservePages ptype count).2 ptype (l.reservePages ptype count).1 := by
  induction count generalizing l with
  | zero => exact ⟨rfl, .refl l ptype⟩
  | succ count ih =>
    obtain ⟨hlen, hrest⟩ := ih (l.reservePage ptype).2
    rw [Layout.reservePages]
    exact ⟨congrArg Nat.succ hlen, (reserved_reservePage l ptype).trans hrest⟩

theorem planLevels_spec {fuel prevLen : Nat} (hpos : 0 < prevLen) (hfuel : prevLen ≤ fuel) :
    Shape intermediateEntriesPerPage prevLen (l.planLevels ptype fuel prevLen).1 ∧
      l.Reserved (l.planLevels ptype fuel prevLen).2 ptype
        (l.planLevels ptype fuel prevLen).1.flatten := by
  induction fuel generalizing l prevLen with
  | zero => omega
  | succ fuel ih =>
    rw [Layout.planLevels]
    by_cases hmany : prevLen > 1
    · rw [if_pos hmany]
      have hper : intermediateEntriesPerPage = 20 := by decide
      have hnext : max ((prevLen + intermediateEntriesPerPage - 1) / intermediateEntriesPerPage) 1
          = (prevLen + intermediateEntriesPerPage - 1) / intermediateEntriesPerPage := by
        rw [hper]
        omega
      simp only [hnext]
      obtain ⟨hlen, hreserved⟩ := reserved_reservePages l ptype
        ((prevLen + intermediateEntriesPerPage - 1) / intermediateEntriesPerPage)
      have hrest := ih (l := (l.reservePages ptype
          ((prevLen + intermediateEntriesPerPage - 1) / intermediateEntriesPerPage)).2)
        (show 0 < (prevLen + intermediateEntriesPerPage - 1) / intermediateEntriesPerPage by
          rw [hper]; omega)
        (by rw [hper]; omega)
      refine ⟨⟨hmany, hlen, ?_⟩, hreserved.trans hrest.2⟩
      rw [hlen]
      exact hrest.1
    · rw [if_neg hmany]
      exact ⟨show prevLen = 1 by omega, .refl l ptype⟩

theorem planTree_spec (l : Layout) (ptype size count : Nat) :
    (l.planTree ptype size count).1.Fits ptype size count ∧ l.Reserved
        (l.planTree ptype size count).2 ptype (l.planTree ptype size count).1.levels.flatten := by
  unfold Layout.planTree
  simp only
  obtain ⟨hlen, hreserved⟩ := reserved_reservePages l ptype
    (max ((count + max (488 / size) 1 - 1) / max (488 / size) 1) 1)
  have hpos : 0 < max ((count + max (488 / size) 1 - 1) / max (488 / size) 1) 1 := by omega
  obtain ⟨hshape, hupper⟩ := planLevels_spec
    (l := (l.reservePages ptype (max ((count + max (488 / size) 1 - 1) / max (488 / size) 1) 1)).2)
    hpos (Nat.le_refl _)
  refine ⟨⟨rfl, rfl, rfl, _, _, rfl, hlen, ?_⟩, hreserved.trans hupper⟩
  rw [hlen]
  exact hshape

end

def Layout.pageOffset (l : Layout) (bid : Nat) : Nat := ((pageOffsetMap l).get bid).getD 0

structure Layout.PagesPlaced (l : Layout) (bids : List Nat) : Prop where
  found : ∀ bid ∈ bids, (pageOffsetMap l).get bid = some (l.pageOffset bid)
  behind : ∀ bid ∈ bids, headerSize ≤ l.pageOffset bid
  inside : ∀ bid ∈ bids, l.pageOffset bid + pageSize ≤ l.fileSize
  apart : (bids.map fun bid => (l.pageOffset bid, pageSize)).Pairwise Apart

theorem Layout.PagesPlaced.nodup {l : Layout} {bids : List Nat} (h : l.PagesPlaced bids) :
    (bids.map l.pageOffset).Nodup := by
  have hapart := List.pairwise_map.mp h.apart
  apply List.pairwise_map.mpr
  apply hapart.imp
  intro a b hab heq
  have hpos : 0 < pageSize := by decide
  rcases hab with hab | hab
  · rw [heq] at hab
    exact absurd hab (by simp only; omega)
  · rw [heq] at hab
    exact absurd hab (by simp only; omega)

namespace Calculated

variable {l l' : Layout} {amaps others : List PageEntry} {fileEnd : Nat}

theorem pageOffsetMap_get (h : Calculated l l' amaps others fileEnd) {p : PageEntry}
    (hp : p ∈ l'.pages) : (pageOffsetMap l').get p.bid = some p.offset := by
  unfold pageOffsetMap
  apply HashMap.get_insertAll_of_mem
  · rw [List.map_map]
    exact (List.nodup_append.mp h.bids_nodup).2.1
  · exact mem_map_of_mem hp

theorem exists_page (h : Calculated l l' amaps others fileEnd) {p : PageEntry} (hp : p ∈ l.pages)
    (hne : p.ptype ≠ ptypeAmap) : ∃ p' ∈ l'.pages, p'.bid = p.bid ∧ headerSize ≤ p'.offset := by
  have hfilter : p ∈ l.pages.filter fun p => p.ptype ≠ ptypeAmap :=
    List.mem_filter.mpr ⟨hp, by simpa using hne⟩
  obtain ⟨p', hp', hmoved⟩ := exists_right_of_forall₂ h.moved hfilter
  refine ⟨p', ?_, by rw [hmoved], ?_⟩
  · rw [h.pages]
    exact mem_append_right _ hp'
  · have hregion : pageRegion p' ∈ l.spilled.map blockRegion ++ (others.map pageRegion ++
        (l'.blocks.filter fun b => !b.onDisk).map blockRegion) :=
      mem_append_right _ (mem_append_left _ (mem_map_of_mem hp'))
    exact (h.laid.mem hregion).1

theorem pagesPlaced (h : Calculated l l' amaps others fileEnd) {bids : List Nat} (hnodup : bids.Nodup)
    (hbids : ∀ bid ∈ bids, ∃ p ∈ l.pages, p.bid = bid ∧ p.ptype ≠ ptypeAmap) : l'.PagesPlaced bids := by
  have hpage : ∀ bid ∈ bids, ∃ p ∈ l'.pages, p.bid = bid ∧ headerSize ≤ p.offset ∧
      l'.pageOffset bid = p.offset := by
    intro bid hbid
    obtain ⟨p, hp, rfl, hne⟩ := hbids bid hbid
    obtain ⟨p', hp', hbid', hbehind⟩ := h.exists_page hp hne
    refine ⟨p', hp', hbid', hbehind, ?_⟩
    unfold Layout.pageOffset
    rw [← hbid', h.pageOffsetMap_get hp', Option.getD_some]
  refine ⟨fun bid hbid => ?_, fun bid hbid => ?_, fun bid hbid => ?_, ?_⟩
  · obtain ⟨p, hp, rfl, _, hoff⟩ := hpage bid hbid
    rw [hoff, h.pageOffsetMap_get hp]
  · obtain ⟨p, _, _, hbehind, hoff⟩ := hpage bid hbid
    rw [hoff]
    exact hbehind
  · obtain ⟨p, hp, _, _, hoff⟩ := hpage bid hbid
    rw [hoff]
    exact (fileSize_le_iff.mp (Nat.le_refl l'.fileSize)).2.1 p hp
  · have hapart : l'.pages.Pairwise fun p q => Apart (pageRegion p) (pageRegion q) :=
      List.pairwise_map.mp (List.pairwise_append.mp h.apart).2.1
    have hsymm : Std.Symm fun p q : PageEntry => Apart (pageRegion p) (pageRegion q) :=
      ⟨fun _ _ hpq => hpq.symm⟩
    rw [pairwise_map]
    apply List.Pairwise.imp_of_mem _ hnodup
    intro a b ha hb hne
    obtain ⟨p, hp, rfl, _, hoff⟩ := hpage a ha
    obtain ⟨q, hq, rfl, _, hoff'⟩ := hpage b hb
    rw [hoff, hoff']
    exact hapart.forall hp hq fun hpq => hne (congrArg PageEntry.bid hpq)

end Calculated

/-!
# The pages of a tree

With the offsets of all planned pages known, `writeTree` fails nowhere.
-/

variable {pageOffsets : HashMap Nat Nat} {off : Nat → Nat} {ptype : Nat}

theorem offsetOf_eq_ok {message : String} {bid : Nat} (h : pageOffsets.get bid = some (off bid)) :
    offsetOf pageOffsets message bid = .ok (off bid) := by
  unfold offsetOf
  rw [h]

def nodeEntry (off : Nat → Nat) (child : Nat × Nat) : Bytes :=
  leBytes 8 child.2 ++ leBytes 8 child.1 ++ leBytes 8 (off child.1)

@[simp] theorem length_nodeEntry (off : Nat → Nat) (child : Nat × Nat) :
    (nodeEntry off child).length = intermediateEntrySize := by
  simp only [nodeEntry, length_append, length_leBytes]
  rfl

theorem mapM_childEntry {children : List (Nat × Nat)}
    (h : ∀ c ∈ children, pageOffsets.get c.1 = some (off c.1)) :
    children.mapM (childEntry pageOffsets) = .ok (children.map (nodeEntry off)) := by
  rw [mapM_eq_ok_iff, forall₂_map_right_iff, forall₂_same]
  intro c hc
  unfold childEntry
  rw [offsetOf_eq_ok (h c hc)]
  rfl

def minKey (group : List (Nat × Nat)) : Nat := (group.head?.map snd).getD 0

theorem length_leafPagesOf {α : Type} (key : α → Nat) (encode : α → Bytes) {perLeaf : Nat}
    (hpos : 0 < perLeaf) (sorted : List α) : (leafPagesOf key encode perLeaf sorted).length
      = max ((sorted.length + perLeaf - 1) / perLeaf) 1 := by
  unfold leafPagesOf
  by_cases h : sorted = []
  · rw [if_pos h, h, length_nil, Nat.zero_add, Nat.div_eq_of_lt (by omega)]
    rfl
  · have hne := List.length_pos_iff.mpr (chunks_ne_nil hpos h)
    rw [length_chunks hpos] at hne
    rw [if_neg h, length_map, length_chunks hpos]
    omega

section

variable [Crc32fast] {bids : List Nat} {level : Nat} {prev : List (Nat × Nat)}

def nodeWrite (off : Nat → Nat) (ptype level : Nat) (p : Nat × List (Nat × Nat)) : Nat × Bytes :=
  (off p.1, btPage (off p.1) p.1 ptype level (p.2.flatMap (nodeEntry off)) p.2.length
    intermediateEntrySize)

def levelWrites (off : Nat → Nat) (ptype : Nat) : Nat → List (List Nat) → List (Nat × Nat) → Writes
  | _, [], _ => []
  | level, bids :: rest, prev =>
    (bids.zip (chunks intermediateEntriesPerPage prev)).map (nodeWrite off ptype level)
      ++ levelWrites off ptype (level + 1) rest
        (bids.zip ((chunks intermediateEntriesPerPage prev).map minKey))

def leafWrites (off : Nat → Nat) (plan : TreePlan) (bids : List Nat)
    (leafPages : List (Bytes × Nat)) : Writes :=
  (bids.zip leafPages).map fun p =>
    (off p.1, btPage (off p.1) p.1 plan.ptype 0 p.2.1 p.2.2 plan.leafEntrySize)

@[simp] theorem length_btPage (offset bid ptype cLevel cEntries entrySize : Nat) (entriesRegion : Bytes) :
    (btPage offset bid ptype cLevel entriesRegion cEntries entrySize).length = pageSize := by
  simp only [btPage, length_append, length_resize, length_leBytes, length_pageTrailer,
    length_cons, length_nil]
  rfl

theorem writeLeafLevel_eq {plan : TreePlan} {leafPages : List (Bytes × Nat)}
    (hbids : ∀ bid ∈ bids, pageOffsets.get bid = some (off bid)) :
    writeLeafLevel pageOffsets plan bids leafPages = .ok (leafWrites off plan bids leafPages) := by
  induction bids generalizing leafPages with
  | nil => rfl
  | cons bid bids ih =>
    cases leafPages with
    | nil => rfl
    | cons page rest =>
      rw [forall_mem_cons] at hbids
      rw [writeLeafLevel, offsetOf_eq_ok hbids.1, ih hbids.2]
      rfl

theorem writeLevel_eq
    (hlen : bids.length = (prev.length + intermediateEntriesPerPage - 1) / intermediateEntriesPerPage)
    (hbids : ∀ bid ∈ bids, pageOffsets.get bid = some (off bid))
    (hprev : ∀ c ∈ prev, pageOffsets.get c.1 = some (off c.1)) : writeLevel pageOffsets ptype level bids prev
      = .ok ((bids.zip (chunks intermediateEntriesPerPage prev)).map (nodeWrite off ptype level),
          (chunks intermediateEntriesPerPage prev).map minKey) := by
  have hper : 0 < intermediateEntriesPerPage := by decide
  rw [← length_chunks hper] at hlen
  induction bids generalizing prev with
  | nil =>
    have hnil : chunks intermediateEntriesPerPage prev = [] :=
      List.length_eq_zero_iff.mp hlen.symm
    rw [hnil]
    rfl
  | cons bid bids ih =>
    cases prev with
    | nil => cases hlen
    | cons first prev =>
      rw [chunks_of_ne_nil hper (cons_ne_nil _ _)] at hlen ⊢
      rw [forall_mem_cons] at hbids
      have htake : ∀ c ∈ (first :: prev).take intermediateEntriesPerPage,
          pageOffsets.get c.1 = some (off c.1) := fun c hc => hprev c (mem_of_mem_take hc)
      have hdrop : ∀ c ∈ (first :: prev).drop intermediateEntriesPerPage,
          pageOffsets.get c.1 = some (off c.1) := fun c hc => hprev c (mem_of_mem_drop hc)
      rw [writeLevel]
      simp only
      rw [mapM_childEntry htake, offsetOf_eq_ok hbids.1, ih (Nat.succ.inj hlen) hbids.2 hdrop]
      rfl

theorem writeLevels_eq {rest : List (List Nat)} (hshape : Shape intermediateEntriesPerPage prev.length rest)
    (hbids : ∀ bid ∈ rest.flatten, pageOffsets.get bid = some (off bid))
    (hprev : ∀ c ∈ prev, pageOffsets.get c.1 = some (off c.1)) : writeLevels pageOffsets ptype level rest prev
      = .ok (levelWrites off ptype level rest prev) := by
  induction rest generalizing level prev with
  | nil => rfl
  | cons bids rest ih =>
    obtain ⟨_, hlen, hrest⟩ := hshape
    rw [flatten_cons] at hbids
    have hthis : ∀ bid ∈ bids, pageOffsets.get bid = some (off bid) :=
      fun bid hbid => hbids bid (mem_append_left _ hbid)
    have hkeys : ((chunks intermediateEntriesPerPage prev).map minKey).length = bids.length := by
      rw [length_map, length_chunks (by decide), hlen]
    have hzip : (bids.zip ((chunks intermediateEntriesPerPage prev).map minKey)).length
        = bids.length := by rw [length_zip, hkeys, Nat.min_self]
    rw [writeLevels, writeLevel_eq hlen hthis hprev]
    show (writeLevels pageOffsets ptype (level + 1) rest _ >>= _) = _
    rw [ih (hzip ▸ hrest) (fun bid hbid => hbids bid (mem_append_right _ hbid))
      fun c hc => hthis c.1 (of_mem_zip hc).1]
    rfl

theorem region_nodeWrites {groups : List (List (Nat × Nat))} (h : bids.length = groups.length) :
    ((bids.zip groups).map (nodeWrite off ptype level)).map region
      = bids.map fun bid => (off bid, pageSize) := by
  rw [List.map_map]
  calc (bids.zip groups).map (region ∘ nodeWrite off ptype level)
      = ((bids.zip groups).map fst).map fun bid => (off bid, pageSize) := by
        rw [List.map_map]
        apply map_congr_left
        intro p _
        simp [region, nodeWrite]
    _ = _ := by rw [map_fst_zip (Nat.le_of_eq h)]

theorem region_levelWrites {rest : List (List Nat)}
    (hshape : Shape intermediateEntriesPerPage prev.length rest) :
    (levelWrites off ptype level rest prev).map region
      = rest.flatten.map fun bid => (off bid, pageSize) := by
  induction rest generalizing level prev with
  | nil => rfl
  | cons bids rest ih =>
    obtain ⟨_, hlen, hrest⟩ := hshape
    rw [← length_chunks (by decide)] at hlen
    have hzip : (bids.zip ((chunks intermediateEntriesPerPage prev).map minKey)).length
        = bids.length := by rw [length_zip, length_map, hlen, Nat.min_self]
    rw [levelWrites, map_append, region_nodeWrites hlen, ih (hzip ▸ hrest), flatten_cons,
      map_append]

theorem region_leafWrites {plan : TreePlan} {leafPages : List (Bytes × Nat)}
    (h : bids.length = leafPages.length) :
    (leafWrites off plan bids leafPages).map region = bids.map fun bid => (off bid, pageSize) := by
  unfold leafWrites
  rw [List.map_map]
  calc (bids.zip leafPages).map (region ∘ _)
      = ((bids.zip leafPages).map fst).map fun bid => (off bid, pageSize) := by
        rw [List.map_map]
        apply map_congr_left
        intro p _
        simp [region]
    _ = _ := by rw [map_fst_zip (Nat.le_of_eq h)]

def treeWrites (off : Nat → Nat) (plan : TreePlan) (pages : List (Nat × Bytes × Nat)) : Writes :=
  leafWrites off plan (plan.levels.headD []) (pages.map snd)
    ++ levelWrites off plan.ptype 1 plan.levels.tail
      ((plan.levels.headD []).zip (pages.map fst))

section

variable {plan : TreePlan} {size count : Nat} {pages : List (Nat × Bytes × Nat)}
  (hplan : plan.Fits ptype size count)
  (hpages : pages.length = max ((count + plan.perLeafCapacity - 1) / plan.perLeafCapacity) 1)

include hplan hpages

theorem writeTree_eq (hbids : ∀ bid ∈ plan.levels.flatten, pageOffsets.get bid = some (off bid)) :
    writeTree plan pageOffsets (pages.map fst) (pages.map snd)
      = .ok (treeWrites off plan pages) := by
  obtain ⟨leaves, upper, hlevels, hlen, hshape⟩ := hplan.shape
  unfold writeTree treeWrites
  rw [hlevels] at hbids ⊢
  rw [flatten_cons] at hbids
  rw [headD_cons, tail_cons]
  have hleaves : ∀ bid ∈ leaves, pageOffsets.get bid = some (off bid) :=
    fun bid hbid => hbids bid (mem_append_left _ hbid)
  have hzip : (leaves.zip (pages.map fst)).length = leaves.length := by
    rw [length_zip, length_map, hpages, hlen, Nat.min_self]
  simp only
  rw [writeLeafLevel_eq hleaves, writeLevels_eq (hzip ▸ hshape)
    (fun bid hbid => hbids bid (mem_append_right _ hbid))
    fun c hc => hleaves c.1 (of_mem_zip hc).1]
  rfl

theorem region_treeWrites :
    (treeWrites off plan pages).map region
      = plan.levels.flatten.map fun bid => (off bid, pageSize) := by
  obtain ⟨leaves, upper, hlevels, hlen, hshape⟩ := hplan.shape
  unfold treeWrites
  rw [hlevels, headD_cons, tail_cons]
  have hzip : (leaves.zip (pages.map fst)).length = leaves.length := by
    rw [length_zip, length_map, hpages, hlen, Nat.min_self]
  rw [map_append, region_leafWrites (by rw [length_map, hpages, hlen]),
    region_levelWrites (hzip ▸ hshape), flatten_cons, map_append]

end

end

end PstWriter
