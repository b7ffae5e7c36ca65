import PstDedupe.RoundTrip.BTrees
import PstDedupe.PstReader.BlockPaths

/-!
# The trees of a finished layout

Planning keeps the nodes and the blocks, the placement gives every planned page a place of its own,
so both trees are written without an error and read back with exactly their entries.
-/

namespace PstWriter

open Rust Foundations List Function

section

variable {l : Layout}

/-- The numbers of a finished layout are 64-bit numbers, as they are in the source. -/
structure Layout.FitsU64 (l : Layout) : Prop where
  nodes : ∀ n ∈ l.nodes, n.FitsU64
  blocks : ∀ b ∈ l.blocks, b.bid < 2 ^ 64
  size : l.fileSize ≤ 2 ^ 64

instance : DecidablePred NodeEntry.FitsU64 := fun _ => inferInstanceAs (Decidable (_ ∧ _ ∧ _))

instance : DecidablePred Layout.FitsU64 := fun l =>
  decidable_of_iff ((∀ n ∈ l.nodes, n.FitsU64) ∧ (∀ b ∈ l.blocks, b.bid < 2 ^ 64) ∧
    l.fileSize ≤ 2 ^ 64) ⟨fun h => ⟨h.1, h.2.1, h.2.2⟩, fun h => ⟨h.nodes, h.blocks, h.size⟩⟩

theorem Layout.PagesPlaced.left {bids bids' : List Nat} (h : l.PagesPlaced (bids ++ bids')) :
    l.PagesPlaced bids where
  found bid hbid := h.found bid (mem_append_left _ hbid)
  behind bid hbid := h.behind bid (mem_append_left _ hbid)
  inside bid hbid := h.inside bid (mem_append_left _ hbid)
  apart := h.apart.sublist ((sublist_append_left _ _).map _)

theorem Layout.PagesPlaced.right {bids bids' : List Nat} (h : l.PagesPlaced (bids ++ bids')) :
    l.PagesPlaced bids' where
  found bid hbid := h.found bid (mem_append_right _ hbid)
  behind bid hbid := h.behind bid (mem_append_right _ hbid)
  inside bid hbid := h.inside bid (mem_append_right _ hbid)
  apart := h.apart.sublist ((sublist_append_right _ _).map _)

theorem Layout.PagesPlaced.lt {bids : List Nat} (h : l.PagesPlaced bids)
    (hsize : l.fileSize ≤ 2 ^ 64) {bid : Nat} (hbid : bid ∈ bids) : l.pageOffset bid < 2 ^ 64 := by
  have hinside := h.inside bid hbid
  have hpos : 0 < pageSize := by decide
  omega

end

section

variable [Crc32fast] {l l₂ l' : Layout} {nbt bbt : TreePlan} {plan : TreePlan}

structure Planned (l l₂ : Layout) (nbt bbt : TreePlan) : Prop where
  nbtFits : nbt.Fits ptypeNbt nbtLeafEntrySize l.nodes.length
  bbtFits : bbt.Fits ptypeBbt bbtLeafEntrySize l.blocks.length
  pages : l₂.pages = l.pages ++ (nbt.levels.flatten.map (fun bid => ⟨bid, ptypeNbt, 0⟩)
    ++ bbt.levels.flatten.map fun bid => ⟨bid, ptypeBbt, 0⟩)
  nodes : l₂.nodes = l.nodes
  blocks : l₂.blocks = l.blocks
  eager : l₂.eager = l.eager
  steps : Steps l l₂

theorem planned_of_planTrees (h : l.planTrees = (nbt, bbt, l₂)) : Planned l l₂ nbt bbt := by
  unfold Layout.planTrees at h
  obtain ⟨hnbt, hreserved⟩ := planTree_spec l ptypeNbt nbtLeafEntrySize l.nodes.length
  rcases hplan : l.planTree ptypeNbt nbtLeafEntrySize l.nodes.length with ⟨nbt', l₁⟩
  rw [hplan] at h hnbt hreserved
  obtain ⟨hbbt, hreserved'⟩ := planTree_spec l₁ ptypeBbt bbtLeafEntrySize l₁.blocks.length
  rcases hplan' : l₁.planTree ptypeBbt bbtLeafEntrySize l₁.blocks.length with ⟨bbt', l₂'⟩
  rw [hplan'] at hbbt hreserved'
  simp only [hplan'] at h
  cases h
  refine ⟨hnbt, hreserved.blocks ▸ hbbt, ?_, hreserved'.nodes.trans hreserved.nodes,
    hreserved'.blocks.trans hreserved.blocks, hreserved'.eager.trans hreserved.eager,
    hreserved.steps.trans hreserved'.steps⟩
  rw [hreserved'.pages, hreserved.pages, append_assoc]

theorem Planned.pagesPlaced (h : Planned l l₂ nbt bbt) (hinv : l.Inv) {amaps others : List PageEntry}
    {fileEnd : Nat} (hcalc : Calculated l₂ l' amaps others fileEnd) :
    l'.PagesPlaced (nbt.levels.flatten ++ bbt.levels.flatten) := by
  have hmap : (nbt.levels.flatten.map (fun bid => PageEntry.mk bid ptypeNbt 0)
      ++ bbt.levels.flatten.map fun bid => PageEntry.mk bid ptypeBbt 0).map PageEntry.bid
      = nbt.levels.flatten ++ bbt.levels.flatten := by
    rw [map_append, map_map, map_map]
    simp [comp_def]
  apply hcalc.pagesPlaced
  · have hnodup := (hinv.steps h.steps).nodup
    unfold Layout.bids at hnodup
    rw [h.pages, map_append, hmap] at hnodup
    exact (List.nodup_append.mp (List.nodup_append.mp (List.nodup_append.mp hnodup).1).2.1).2.1
  · intro bid hbid
    rw [← hmap] at hbid
    obtain ⟨p, hp, rfl⟩ := List.mem_map.mp hbid
    refine ⟨p, h.pages ▸ mem_append_right _ hp, rfl, ?_⟩
    rcases List.mem_append.mp hp with hp | hp
    · obtain ⟨_, _, rfl⟩ := List.mem_map.mp hp
      exact (by decide : ptypeNbt ≠ ptypeAmap)
    · obtain ⟨_, _, rfl⟩ := List.mem_map.mp hp
      exact (by decide : ptypeBbt ≠ ptypeAmap)

/-! ## Writing the two trees -/

def nbtWrites (l : Layout) (plan : TreePlan) : Writes :=
  treeWrites l.pageOffset plan (nbtFormat.pages (sortBy (fun a b => compare a.nid b.nid) l.nodes))

def bbtWrites (l : Layout) (plan : TreePlan) : Writes :=
  treeWrites l.pageOffset plan (bbtFormat.pages (sortBy (fun a b => compare a.bid b.bid) l.blocks))

theorem LeafFormat.writeTree_eq {α V : Type} (f : LeafFormat α V) {ptype : Nat}
    {written sorted : List α} (hperm : sorted.Perm written)
    (hplan : plan.Fits ptype f.size written.length) (hplaced : l.PagesPlaced plan.levels.flatten) :
    writeTree plan (pageOffsetMap l)
        ((leafPagesOf f.key f.encode plan.perLeafCapacity sorted).map Prod.fst)
        ((leafPagesOf f.key f.encode plan.perLeafCapacity sorted).map Prod.snd)
      = .ok (treeWrites l.pageOffset plan (f.pages sorted)) := by
  rw [← hperm.length_eq] at hplan
  rw [f.perLeafCapacity_eq hplan]
  exact PstWriter.writeTree_eq hplan (f.length_pages hplan) hplaced.found

theorem LeafFormat.region_treeWrites {α V : Type} (f : LeafFormat α V) {ptype : Nat}
    {written sorted : List α} (hperm : sorted.Perm written)
    (hplan : plan.Fits ptype f.size written.length) (pageOff : Nat → Nat) :
    (treeWrites pageOff plan (f.pages sorted)).map region
      = plan.levels.flatten.map fun bid => (pageOff bid, pageSize) := by
  rw [← hperm.length_eq] at hplan
  exact PstWriter.region_treeWrites hplan (f.length_pages hplan)

theorem region_nbtWrites (hplan : plan.Fits ptypeNbt nbtLeafEntrySize l.nodes.length) :
    (nbtWrites l plan).map region
      = plan.levels.flatten.map fun bid => (l.pageOffset bid, pageSize) :=
  nbtFormat.region_treeWrites (sortBy_perm _ l.nodes) hplan _

theorem region_bbtWrites (hplan : plan.Fits ptypeBbt bbtLeafEntrySize l.blocks.length) :
    (bbtWrites l plan).map region
      = plan.levels.flatten.map fun bid => (l.pageOffset bid, pageSize) :=
  bbtFormat.region_treeWrites (sortBy_perm _ l.blocks) hplan _

theorem writeNbt_eq (hplan : plan.Fits ptypeNbt nbtLeafEntrySize l.nodes.length)
    (hnids : (l.nodes.map NodeEntry.nid).Nodup) (hplaced : l.PagesPlaced plan.levels.flatten) :
    writeNbt l plan (pageOffsetMap l) = .ok (nbtWrites l plan) := by
  have hnone : ((sortBy (fun a b => compare a.nid b.nid) l.nodes).zip
      (sortBy (fun a b => compare a.nid b.nid) l.nodes).tail).find?
        (fun w => w.1.nid == w.2.nid) = none := by
    rw [find?_eq_none]
    rintro ⟨a, b⟩ hab
    have hlt := rel_of_mem_zip_tail (pairwise_sortBy_key NodeEntry.nid hnids) hab
    simpa using Nat.ne_of_lt hlt
  unfold writeNbt
  simp only
  rw [hnone]
  exact nbtFormat.writeTree_eq (sortBy_perm _ l.nodes) hplan hplaced

theorem writeBbt_eq (hplan : plan.Fits ptypeBbt bbtLeafEntrySize l.blocks.length)
    (hplaced : l.PagesPlaced plan.levels.flatten) :
    writeBbt l plan (pageOffsetMap l) = .ok (bbtWrites l plan) :=
  bbtFormat.writeTree_eq (sortBy_perm _ l.blocks) hplan hplaced

/-! ## Reading the trees back -/

theorem nbt_readsBack {file : Bytes} (hplan : plan.Fits ptypeNbt nbtLeafEntrySize l.nodes.length)
    (hnids : (l.nodes.map NodeEntry.nid).Nodup) (hplaced : l.PagesPlaced plan.levels.flatten)
    (hfits : l.FitsU64) (hheld : ∀ w ∈ nbtWrites l plan, Holds file w.1 w.2) : ∃ root, plan.root = some root ∧
      ReadsBack (PstReader.nbtPage file) (l.pageOffset root) (l.nodes.map nbtView) :=
  nbtFormat.readsBack rfl hplan (by decide) hfits.nodes hnids hplaced
    (fun _ hbid => hplaced.lt hfits.size hbid) hheld

theorem bbt_readsBack {file : Bytes} (hplan : plan.Fits ptypeBbt bbtLeafEntrySize l.blocks.length)
    (hbids : (l.blocks.map BlockEntry.bid).Nodup) (hlens : ∀ b ∈ l.blocks, b.len ≤ maxBlockData)
    (hplaced : l.PagesPlaced plan.levels.flatten) (hfits : l.FitsU64)
    (hheld : ∀ w ∈ bbtWrites l plan, Holds file w.1 w.2) : ∃ root, plan.root = some root ∧
      ReadsBack (PstReader.bbtPage file) (l.pageOffset root) (l.blocks.map bbtView) := by
  apply bbtFormat.readsBack rfl hplan (by decide) _ hbids hplaced
    (fun _ hbid => hplaced.lt hfits.size hbid) hheld
  intro b hb
  have hsize := (fileSize_le_iff.mp (Nat.le_refl l.fileSize)).2.2 b hb
  have hpos := blockSize_pos b.len
  have hle := hfits.size
  have hlen := hlens b hb
  have hmax : maxBlockData < 2 ^ 16 := by decide
  exact ⟨hfits.blocks b hb, by omega, by omega⟩

theorem Planned.kept (h : Planned l l₂ nbt bbt) (hinv : l.Inv) {amaps others : List PageEntry}
    {fileEnd : Nat} (hcalc : Calculated l₂ l' amaps others fileEnd) :
    l'.nodes = l.nodes ∧ l'.blocks.map BlockEntry.bid = l.blocks.map BlockEntry.bid ∧
      ∀ b ∈ l'.blocks, b.len ≤ maxBlockData := by
  refine ⟨hcalc.nodes.trans h.nodes, ?_, ?_⟩
  · rw [← h.blocks]
    exact map_eq_map_of_forall₂ hcalc.blocks fun _ _ hb => hb.bid
  · intro b hb
    obtain ⟨b₀, hb₀, hmoved⟩ := exists_left_of_forall₂ hcalc.blocks hb
    rw [hmoved.same]
    exact hinv.len b₀ (h.blocks ▸ hb₀)

/-- **The B-trees, written and read back.** For any nodes with distinct NIDs and any blocks of a
layout, the two planned trees are written without an error; whatever the file held before, the
reader then gets exactly the written entries, from search trees within its depth limit whose keys
are the smallest of their subtrees. -/
theorem btrees_roundTrip (hinv : l.Inv) (hnids : (l.nodes.map NodeEntry.nid).Nodup)
    (hplan : l.planTrees = (nbt, bbt, l₂)) (hplace : l₂.calculateOffsets = .ok l')
    (hfits : l'.FitsU64) (img : Bytes) : ∃ nbtPages bbtPages nbtRoot bbtRoot,
      writeNbt l' nbt (pageOffsetMap l') = .ok nbtPages ∧ writeBbt l' bbt (pageOffsetMap l') = .ok bbtPages ∧
      nbt.root = some nbtRoot ∧ bbt.root = some bbtRoot ∧
      ReadsBack (PstReader.nbtPage (writeAll 0 img (nbtPages ++ bbtPages))) (l'.pageOffset nbtRoot)
        (l.nodes.map nbtView) ∧
      ReadsBack (PstReader.bbtPage (writeAll 0 img (nbtPages ++ bbtPages))) (l'.pageOffset bbtRoot)
        (l'.blocks.map bbtView) := by
  have hplanned := planned_of_planTrees hplan
  obtain ⟨l'', amaps, others, fileEnd, hok, hcalc⟩ := (hinv.steps hplanned.steps).calculateOffsets
  obtain rfl : l' = l'' := Except.ok.inj (hplace.symm.trans hok)
  obtain ⟨hnodes, hbids, hlens⟩ := hplanned.kept hinv hcalc
  have hplaced := hplanned.pagesPlaced hinv hcalc
  have hlen : l'.blocks.length = l.blocks.length := by
    rw [← length_map BlockEntry.bid, hbids, length_map]
  have hnbt : nbt.Fits ptypeNbt nbtLeafEntrySize l'.nodes.length := hnodes ▸ hplanned.nbtFits
  have hbbt : bbt.Fits ptypeBbt bbtLeafEntrySize l'.blocks.length := hlen ▸ hplanned.bbtFits
  have hnids' : (l'.nodes.map NodeEntry.nid).Nodup := hnodes ▸ hnids
  have hbids' : (l'.blocks.map BlockEntry.bid).Nodup := (List.nodup_append.mp hcalc.bids_nodup).1
  -- all pages go to different places, so all of them hold
  have hregions : ((nbtWrites l' nbt ++ bbtWrites l' bbt).map region).Pairwise Apart := by
    rw [map_append, region_nbtWrites hnbt, region_bbtWrites hbbt, ← map_append]
    exact hplaced.apart
  have hheld : ∀ w ∈ nbtWrites l' nbt ++ bbtWrites l' bbt,
      Holds (writeAll 0 img (nbtWrites l' nbt ++ bbtWrites l' bbt)) w.1 w.2 :=
    fun w hw => holds_writeAll hregions hw
  obtain ⟨nbtRoot, hnbtRoot, hnbtRead⟩ := nbt_readsBack hnbt hnids' hplaced.left hfits
    fun w hw => hheld w (mem_append_left _ hw)
  obtain ⟨bbtRoot, hbbtRoot, hbbtRead⟩ := bbt_readsBack hbbt hbids' hlens hplaced.right hfits
    fun w hw => hheld w (mem_append_right _ hw)
  rw [hnodes] at hnbtRead
  exact ⟨_, _, nbtRoot, bbtRoot, writeNbt_eq hnbt hnids' hplaced.left,
    writeBbt_eq hbbt hplaced.right, hnbtRoot, hbbtRoot, hnbtRead, hbbtRead⟩

end

def Layout.withNode (l : Layout) (n : NodeEntry) : Layout :=
  { l with nodes := l.nodes ++ [n], usedNids := insert n.nid l.usedNids }

def sampleTrees : Layout :=
  (sampleLayout.withNode ⟨0x122, 0x10, 0, 0⟩).withNode ⟨0x21, 0, 0, 0x100000122⟩

theorem reachable_sampleTrees : @Reachable Crc32fast.ieee sampleTrees := by
  let _ := Crc32fast.ieee
  apply reachable_sampleLayout.steps
  exact .tail (.single (.node _ _ (by decide +kernel))) (.node _ _ (by decide +kernel))

@[irreducible] def Layout.placed (l : Layout) : Layout :=
  match l.planTrees.2.2.calculateOffsets with
  | .ok l' => l'
  | .error _ => .new

theorem Layout.Inv.placed_eq [Crc32fast] {l : Layout} (h : l.Inv) :
    l.planTrees.2.2.calculateOffsets = .ok l.placed := by
  have hplanned : Planned l l.planTrees.2.2 l.planTrees.1 l.planTrees.2.1 := planned_of_planTrees rfl
  obtain ⟨l', _, _, _, hok, _⟩ := (h.steps hplanned.steps).calculateOffsets
  have heq : l.placed = l' := by
    unfold Layout.placed
    rw [hok]
  rw [heq, hok]

theorem btrees_roundTrip_sampleTrees :
    ∃ nbtPages bbtPages nbtRoot bbtRoot,
      @writeNbt Crc32fast.ieee sampleTrees.placed sampleTrees.planTrees.1 (pageOffsetMap sampleTrees.placed)
        = .ok nbtPages ∧
      @writeBbt Crc32fast.ieee sampleTrees.placed sampleTrees.planTrees.2.1 (pageOffsetMap sampleTrees.placed)
        = .ok bbtPages ∧
      sampleTrees.planTrees.1.root = some nbtRoot ∧ sampleTrees.planTrees.2.1.root = some bbtRoot ∧
      ReadsBack (PstReader.nbtPage (writeAll 0 [] (nbtPages ++ bbtPages)))
        (sampleTrees.placed.pageOffset nbtRoot) (sampleTrees.nodes.map nbtView) ∧
      ReadsBack (PstReader.bbtPage (writeAll 0 [] (nbtPages ++ bbtPages)))
        (sampleTrees.placed.pageOffset bbtRoot) (sampleTrees.placed.blocks.map bbtView) := by
  let _ := Crc32fast.ieee
  exact btrees_roundTrip reachable_sampleTrees.inv
    (by decide +kernel) rfl reachable_sampleTrees.inv.placed_eq (by decide +kernel) []

/-!
# The finished file

The last writes touch no byte of one another or of what was staged.
-/

theorem length_headerFields (fileSize amapLast nextBid rootNbt nbtOffset rootBbt bbtOffset : Nat) :
    (headerFields fileSize amapLast nextBid rootNbt nbtOffset rootBbt bbtOffset).length = 524 := by
  unfold headerFields
  simp only [length_append, length_leBytes, length_replicate]
  rfl

theorem writeHeaderV1_eq_ok {l' : Layout} {nbt bbt : TreePlan}
    {nbtRoot bbtRoot : Nat} (hnbt : nbt.root = some nbtRoot) (hbbt : bbt.root = some bbtRoot)
    (hfound : ∀ bid ∈ [nbtRoot, bbtRoot], (pageOffsetMap l').get bid = some (l'.pageOffset bid))
    (hamaps : (l'.pages.filter fun p => p.ptype = ptypeAmap) ≠ []) :
    ∃ header, writeHeaderV1 l' nbt bbt = .ok header ∧ header.length = headerSize := by
  have hlast : ∃ last, l'.ibAmapLast = some last := by
    unfold Layout.ibAmapLast
    cases hmax : ((l'.pages.filter fun p => p.ptype = ptypeAmap).map PageEntry.offset).max? with
    | none =>
      rw [max?_eq_none_iff, map_eq_nil_iff] at hmax
      exact absurd hmax hamaps
    | some last => exact ⟨last, rfl⟩
  obtain ⟨last, hlast⟩ := hlast
  have hnbtOffset := hfound nbtRoot (by simp)
  have hbbtOffset := hfound bbtRoot (by simp)
  have hok : writeHeaderV1 l' nbt bbt = .ok (headerFields l'.fileSize last l'.nextBidCounter nbtRoot
      (l'.pageOffset nbtRoot) bbtRoot (l'.pageOffset bbtRoot) ++ replicate (headerSize - 524) 0) := by
    unfold writeHeaderV1
    rw [hnbt, hbbt, hlast]
    simp only [okOrLayout, offsetOf_eq_ok hnbtOffset, offsetOf_eq_ok hbbtOffset, bind, Except.bind,
      pure, Except.pure, length_headerFields]
  refine ⟨_, hok, ?_⟩
  rw [length_append, length_headerFields, length_replicate]
  rfl

section

variable [Crc32fast] {l l₂ l' : Layout} {nbt bbt : TreePlan} {amaps others : List PageEntry}
  {fileEnd : Nat}

theorem Planned.exists_others (h : Planned l l₂ nbt bbt)
    (hcalc : Calculated l₂ l' amaps others fileEnd) : ∃ before, others.map pageRegion = before ++
      (nbt.levels.flatten ++ bbt.levels.flatten).map fun bid => (l'.pageOffset bid, pageSize) := by
  have hfilter : (l₂.pages.filter fun p => p.ptype ≠ ptypeAmap)
      = (l.pages.filter fun p => p.ptype ≠ ptypeAmap)
        ++ (nbt.levels.flatten.map (fun bid => PageEntry.mk bid ptypeNbt 0)
          ++ bbt.levels.flatten.map fun bid => PageEntry.mk bid ptypeBbt 0) := by
    rw [h.pages, filter_append]
    congr 1
    apply List.filter_eq_self.mpr
    intro p hp
    rcases List.mem_append.mp hp with hp | hp
    · obtain ⟨_, _, rfl⟩ := List.mem_map.mp hp
      rfl
    · obtain ⟨_, _, rfl⟩ := List.mem_map.mp hp
      rfl
  have hmoved := hcalc.moved
  rw [hfilter] at hmoved
  have hdrop := (forall₂_drop_append _ _ _ hmoved.flip).flip
  generalize (l.pages.filter fun p => p.ptype ≠ ptypeAmap).length = n at hdrop
  have hbids : (others.drop n).map PageEntry.bid = nbt.levels.flatten ++ bbt.levels.flatten := by
    rw [map_eq_map_of_forall₂ (f := PageEntry.bid) hdrop fun x y hxy => by rw [hxy],
      map_append, map_map, map_map]
    simp [comp_def]
  refine ⟨(others.take n).map pageRegion, ?_⟩
  rw [← hbids, map_map]
  conv_lhs => rw [← take_append_drop n others, map_append]
  congr 1
  apply map_congr_left
  intro p hp
  have hp' : p ∈ l'.pages := by
    rw [hcalc.pages]
    exact mem_append_right _ (mem_of_mem_drop hp)
  show (p.offset, pageSize) = (l'.pageOffset p.bid, pageSize)
  unfold Layout.pageOffset
  rw [hcalc.pageOffsetMap_get hp', Option.getD_some]

def Layout.finalRegions (l : Layout) (nbt bbt : TreePlan) : List (Nat × Nat) :=
  (0, headerSize) :: (l.pages.filter fun p => p.ptype = ptypeAmap).map pageRegion
    ++ (nbt.levels.flatten ++ bbt.levels.flatten).map (fun bid => (l.pageOffset bid, pageSize))
    ++ (l.blocks.filter fun b => !b.onDisk).map blockRegion

theorem Planned.finalRegions_apart (h : Planned l l₂ nbt bbt) (hinv : l₂.Inv)
    (horphan : ∀ s, ¬ l₂.Orphan s) (hcalc : Calculated l₂ l' amaps others fileEnd) :
    ((l'.blocks.filter BlockEntry.onDisk).map blockRegion ++ l'.finalRegions nbt bbt).Pairwise
      Apart := by
  obtain ⟨before, hothers⟩ := h.exists_others hcalc
  have hwell := hcalc.wellPlaced hinv horphan
  unfold Layout.finalRegions
  rw [hcalc.spilled_eq]
  generalize hplanned : (nbt.levels.flatten ++ bbt.levels.flatten).map
    (fun bid => (l'.pageOffset bid, pageSize)) = planned at hothers ⊢
  generalize hram : (l'.blocks.filter fun b => !b.onDisk).map blockRegion = ram
  have hperm : (l₂.spilled.map blockRegion ++ ((0, headerSize) ::
      (l'.pages.filter fun p => p.ptype = ptypeAmap).map pageRegion ++ planned ++ ram)).Perm
      ((0, headerSize) :: (amaps.map pageRegion ++ (l₂.spilled.map blockRegion ++ (planned ++ ram)))) := by
    rw [cons_append, cons_append, append_assoc]
    apply List.perm_middle.trans (Perm.cons _ _)
    apply ((hcalc.perm_amaps.map pageRegion).append_right _ |>.append_left _).trans
    simp only [← append_assoc]
    exact (List.perm_append_comm.append_right _).append_right _
  have hsub : (amaps.map pageRegion ++ (l₂.spilled.map blockRegion ++ (planned ++ ram))).Sublist
      (amaps.map pageRegion ++ (l₂.spilled.map blockRegion ++ (others.map pageRegion ++
        (l'.blocks.filter fun b => !b.onDisk).map blockRegion))) := by
    rw [hothers, hram, append_assoc]
    exact ((sublist_append_right _ _).append_left _).append_left _
  have hregions := hcalc.perm_regions
  rw [hperm.pairwise_iff fun hab => hab.symm, pairwise_cons]
  refine ⟨fun r hr => Or.inl ?_, ?_⟩
  · rw [Nat.zero_add]
    exact (hwell.inside r (hregions.mem_iff.mpr (hsub.subset hr))).1
  · exact ((hregions.pairwise_iff fun hab => hab.symm).mp hwell.apart).sublist hsub

/-- What the final file holds: both trees, and every stored block. -/
structure Finished (l l' : Layout) (nbt bbt : TreePlan) (file : Bytes) : Prop where
  nbtTree : ∃ root, nbt.root = some root ∧
    ReadsBack (PstReader.nbtPage file) (l'.pageOffset root) (l.nodes.map nbtView)
  bbtTree : ∃ root, bbt.root = some root ∧
    ReadsBack (PstReader.bbtPage file) (l'.pageOffset root) (l'.blocks.map bbtView)
  stored : ∀ bid data, l.Stores bid data → ∃ b ∈ l'.blocks, b.bid = bid ∧ b.len = data.length ∧
    Holds file b.offset (encodeBlock bid data)

theorem stored_of_calculated (hblocks : l₂.blocks = l.blocks)
    (heager : l₂.eager = l.eager) (hcalc : Calculated l₂ l' amaps others fileEnd) {bid : Nat}
    {data : Bytes} (h : l.Stores bid data) : ∃ b ∈ l'.blocks, b.bid = bid ∧ b.len = data.length ∧
      (b.onDisk = true ∧ Holds l'.staged b.offset (encodeBlock bid data) ∨
        (b.offset, encodeBlock bid data) ∈ writeRamBlocks l') := by
  obtain ⟨b₀, hb₀, hbid, hlen, hram, hdisk⟩ := h
  rw [← hblocks] at hb₀
  obtain ⟨b, hb, hmoved⟩ := exists_right_of_forall₂ hcalc.blocks hb₀
  have hlen' : b.len = data.length := by rw [hmoved.same, ← hlen]
  refine ⟨b, hb, hmoved.bid.trans hbid, hlen', ?_⟩
  cases hon : b₀.onDisk with
  | true =>
    obtain ⟨e, he, hholds⟩ := hdisk hon
    refine Or.inl ⟨hmoved.onDisk.trans hon, ?_⟩
    unfold Layout.staged
    rw [hcalc.eager, heager, he, hmoved.spilled hon]
    exact hholds
  | false =>
    have hdata : b.data = data := by rw [hmoved.same, ← hram hon]
    refine Or.inr (List.mem_map.mpr ⟨b, List.mem_filter.mpr ⟨hb, ?_⟩, ?_⟩)
    · rw [hmoved.onDisk, hon]
      rfl
    · rw [hmoved.bid, hbid, hdata]

theorem finalWrites_eq_ok (hnbt : nbt.Fits ptypeNbt nbtLeafEntrySize l'.nodes.length)
    (hbbt : bbt.Fits ptypeBbt bbtLeafEntrySize l'.blocks.length)
    (hnids : (l'.nodes.map NodeEntry.nid).Nodup)
    (hplaced : l'.PagesPlaced (nbt.levels.flatten ++ bbt.levels.flatten))
    (hamaps : (l'.pages.filter fun p => p.ptype = ptypeAmap) ≠ []) :
    ∃ header, header.length = headerSize ∧ finalWrites l' nbt bbt = .ok ((0, header) ::
      (l'.pages.filter fun p => p.ptype = ptypeAmap).map (fun p => (p.offset, amapPage p.offset p.bid))
        ++ nbtWrites l' nbt ++ bbtWrites l' bbt ++ writeRamBlocks l') := by
  obtain ⟨nbtRoot, hnbtRoot⟩ := hnbt.exists_root
  obtain ⟨bbtRoot, hbbtRoot⟩ := hbbt.exists_root
  have hroots : ∀ bid ∈ [nbtRoot, bbtRoot], (pageOffsetMap l').get bid = some (l'.pageOffset bid) := by
    intro bid hbid
    apply hplaced.found
    rcases List.mem_cons.mp hbid with rfl | hbid
    · exact mem_append_left _ (TreePlan.mem_of_root hnbtRoot)
    · rw [List.mem_singleton.mp hbid]
      exact mem_append_right _ (TreePlan.mem_of_root hbbtRoot)
  obtain ⟨header, hheader, hlen⟩ := writeHeaderV1_eq_ok hnbtRoot hbbtRoot hroots hamaps
  refine ⟨header, hlen, ?_⟩
  unfold finalWrites writeAllAmapPagesV1
  simp only [hheader, if_neg hamaps, writeNbt_eq hnbt hnids hplaced.left, writeBbt_eq hbbt hplaced.right]
  rfl

theorem region_finalWrites (hnbt : nbt.Fits ptypeNbt nbtLeafEntrySize l'.nodes.length)
    (hbbt : bbt.Fits ptypeBbt bbtLeafEntrySize l'.blocks.length)
    (hram : ∀ b ∈ l'.blocks, b.onDisk = false → b.data.length = b.len) {header : Bytes}
    (hheader : header.length = headerSize) : ((0, header) ::
      (l'.pages.filter fun p => p.ptype = ptypeAmap).map (fun p => (p.offset, amapPage p.offset p.bid))
        ++ nbtWrites l' nbt ++ bbtWrites l' bbt ++ writeRamBlocks l').map region
      = l'.finalRegions nbt bbt := by
  have hamaps : ((l'.pages.filter fun p => p.ptype = ptypeAmap).map
      fun p => (p.offset, amapPage p.offset p.bid)).map region
      = (l'.pages.filter fun p => p.ptype = ptypeAmap).map pageRegion := by
    rw [map_map]
    apply map_congr_left
    intro p _
    show (p.offset, (amapPage p.offset p.bid).length) = (p.offset, pageSize)
    rw [length_amapPage]
  have hblocks : (writeRamBlocks l').map region
      = (l'.blocks.filter fun b => !b.onDisk).map blockRegion := by
    unfold writeRamBlocks
    rw [map_map]
    apply map_congr_left
    intro b hb
    obtain ⟨hmem, hon⟩ := List.mem_filter.mp hb
    show (b.offset, (encodeBlock b.bid b.data).length) = (b.offset, blockSize b.len)
    rw [length_encodeBlock, hram b hmem (by simpa using hon)]
  unfold Layout.finalRegions
  rw [map_append, map_append, map_append, map_cons, hamaps, hblocks,
    region_nbtWrites hnbt, region_bbtWrites hbbt, map_append]
  unfold region
  rw [hheader, append_assoc (_ :: _)]

theorem finished_of_reachable (h : Reachable l) (hplan : l.planTrees = (nbt, bbt, l₂))
    (hplace : l₂.calculateOffsets = .ok l') (hfits : l'.FitsU64) :
    ∃ writes, finalWrites l' nbt bbt = .ok writes ∧ Finished l l' nbt bbt (writeAll 0 l'.staged writes) := by
  have hplanned := planned_of_planTrees hplan
  have hreach₂ := h.steps hplanned.steps
  obtain ⟨l'', amaps, others, fileEnd, hok, hcalc⟩ := hreach₂.inv.calculateOffsets
  obtain rfl : l' = l'' := Except.ok.inj (hplace.symm.trans hok)
  obtain ⟨hnodes, hbids, hlens⟩ := hplanned.kept h.inv hcalc
  have hplaced := hplanned.pagesPlaced h.inv hcalc
  have hlen : l'.blocks.length = l.blocks.length := by
    rw [← length_map BlockEntry.bid, hbids, length_map]
  have hnbt : nbt.Fits ptypeNbt nbtLeafEntrySize l'.nodes.length := hnodes ▸ hplanned.nbtFits
  have hbbt : bbt.Fits ptypeBbt bbtLeafEntrySize l'.blocks.length := hlen ▸ hplanned.bbtFits
  have hnids : (l'.nodes.map NodeEntry.nid).Nodup := hnodes ▸ h.nidsOnce.1
  have hbids' : (l'.blocks.map BlockEntry.bid).Nodup := (List.nodup_append.mp hcalc.bids_nodup).1
  have hamaps : (l'.pages.filter fun p => p.ptype = ptypeAmap) ≠ [] := by
    intro hnil
    have hfirst := (hcalc.registered amapFirstOffset SlotGrid.isSlot_first
      (by have := hcalc.first; have hpos : 0 < pageSize := by decide
          omega)).resolve_right (hreach₂.not_orphan _)
    have hperm := hcalc.perm_amaps
    rw [hnil, nil_perm] at hperm
    rw [hperm] at hfirst
    cases hfirst
  obtain ⟨header, hheader, hwrites⟩ := finalWrites_eq_ok hnbt hbbt hnids hplaced hamaps
  refine ⟨_, hwrites, ?_⟩
  generalize hws : ((0, header) :: (l'.pages.filter fun p => p.ptype = ptypeAmap).map
      (fun p => (p.offset, amapPage p.offset p.bid))
        ++ nbtWrites l' nbt ++ bbtWrites l' bbt ++ writeRamBlocks l') = writes
  have hregions : writes.map region = l'.finalRegions nbt bbt := by
    rw [← hws]
    apply region_finalWrites hnbt hbbt _ hheader
    intro b hb hon
    obtain ⟨b₀, hb₀, hmoved⟩ := exists_left_of_forall₂ hcalc.blocks hb
    rw [hmoved.same]
    exact (hreach₂.inv.inMemory b₀ hb₀ (hmoved.onDisk.symm.trans hon)).2
  have hapart := hplanned.finalRegions_apart hreach₂.inv hreach₂.not_orphan hcalc
  rw [← hregions, pairwise_append] at hapart
  have hheld : ∀ w ∈ writes, Holds (writeAll 0 l'.staged writes) w.1 w.2 :=
    fun w hw => holds_writeAll hapart.2.1 hw
  refine ⟨?_, ?_, ?_⟩
  · have hnbtHeld : ∀ w ∈ nbtWrites l' nbt, Holds (writeAll 0 l'.staged writes) w.1 w.2 :=
      fun w hw => hheld w (by rw [← hws]; simp [hw])
    have hread := nbt_readsBack hnbt hnids hplaced.left hfits hnbtHeld
    rwa [hnodes] at hread
  · exact bbt_readsBack hbbt hbids' hlens hplaced.right hfits
      fun w hw => hheld w (by rw [← hws]; simp [hw])
  · intro bid data hstores
    obtain ⟨b, hb, hbid, hblen, hplace⟩ :=
      stored_of_calculated hplanned.blocks hplanned.eager hcalc hstores
    refine ⟨b, hb, hbid, hblen, ?_⟩
    rcases hplace with ⟨hon, hholds⟩ | hram
    · apply hholds.writeAll
      intro w hw
      rw [length_encodeBlock, ← hblen]
      exact hapart.2.2 _ (mem_map_of_mem (List.mem_filter.mpr ⟨hb, hon⟩)) _
        (mem_map_of_mem hw)
    · exact hheld _ (by rw [← hws]; exact mem_append_right _ hram)

theorem readPayload_of_holds {file : Bytes} {idx : PstReader.BbtIndex} {bid off cRef : Nat}
    {data : Bytes} (hentry : HashMap.get idx bid = some ⟨bid, off, data.length, cRef⟩)
    (h : Holds file off (encodeBlock bid data)) : PstReader.readPayload file idx bid = .ok data := by
  have hlen : (encodeBlock bid data).length
      = PstReader.align64 data.length + PstReader.blockTrailerSize := length_encodeBlock bid data
  have hne : encodeBlock bid data ≠ [] := by
    intro hnil
    rw [hnil] at hlen
    cases hlen
  have hwindow := window_of_holds h hne
  rw [hlen] at hwindow
  have htake : (encodeBlock bid data).take data.length = data := by
    have hle : data.length ≤ alignUp data.length blockAlign := PstReader.le_align64 data.length
    unfold encodeBlock
    rw [resize_of_length_le 0 hle]
    simp only [append_assoc]
    rw [take_append_of_le_length (Nat.le_refl _), take_length]
  unfold PstReader.readPayload PstReader.readRawBlock PstReader.validateBlockTrailer
  simp only [hentry, hwindow]
  rw [if_neg (by rw [hlen]; omega)]
  show Except.ok _ = _
  rw [htake]

end

end PstWriter
