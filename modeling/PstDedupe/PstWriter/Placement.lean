import PstDedupe.PstWriter.LayoutRuns

/-!
# The final placement (`calculate_offsets`)

The pages and then the blocks held in RAM are placed behind what was spilled, each by
`amapPlaceRegion_spec`, so the whole file is one run of regions in ascending order that avoids the
AMap slots.
-/

namespace PstWriter

open Rust Foundations List

/-! ## Placing many regions -/

structure PlacedAll (cursor : Nat) (book : AmapBook) (rs : List (Nat × Nat)) (cursor' : Nat)
    (book' : AmapBook) (added : List PageEntry) : Prop where
  laid : Laid cursor rs cursor'
  avoids : ∀ r ∈ rs, amapGrid.Avoids r
  clear : amapGrid.Clear cursor'
  grows : book.Extends book' added
  booked : book'.Booked cursor'
  orphans : ∀ s, book'.Orphan s ↔ book.Orphan s

namespace PlacedAll

variable {cursor mid cursor' size align offset : Nat} {book bookMid book' : AmapBook}
  {rs rs' : List (Nat × Nat)} {added added' : List PageEntry}

theorem nil (hclear : amapGrid.Clear cursor) (hbooked : book.Booked cursor) :
    PlacedAll cursor book [] cursor book [] :=
  ⟨.nil (Nat.le_refl _), fun _ hr => (nomatch hr), hclear, .refl book, hbooked, fun _ => Iff.rfl⟩

theorem cons (h : Placed cursor size align book offset mid bookMid added)
    (hrest : PlacedAll mid bookMid rs cursor' book' added') :
    PlacedAll cursor book ((offset, size) :: rs) cursor' book' (added ++ added') where
  laid := .cons h.after (h.stop ▸ hrest.laid)
  avoids := by
    intro r hr
    rcases List.mem_cons.mp hr with rfl | hr
    · exact h.avoids
    · exact hrest.avoids r hr
  clear := hrest.clear
  grows := h.grows.trans hrest.grows
  booked := hrest.booked
  orphans := fun s => (hrest.orphans s).trans (h.orphans s)

end PlacedAll

section

variable {cursor : Nat} {book : AmapBook}

theorem placePages_spec {pages : List PageEntry} (h0 : ∀ p ∈ pages, p.offset = 0)
    (hclear : amapGrid.Clear cursor) (hbooked : book.Booked cursor) :
    ∃ pages' cursor' book' added, placePages pages cursor book = .ok (pages', cursor', book') ∧
      Forall₂ (fun p p' => p' = { p with offset := p'.offset }) pages pages' ∧
      PlacedAll cursor book (pages'.map pageRegion) cursor' book' added := by
  induction pages generalizing cursor book with
  | nil => exact ⟨[], cursor, book, [], rfl, .nil, .nil hclear hbooked⟩
  | cons page rest ih =>
    obtain ⟨offset, mid, bookMid, added, hplace, hp⟩ :=
      amapPlaceRegion_spec (by decide : 0 < 1) (by decide) (by decide : 0 < pageSize) (by decide)
        hclear hbooked
    obtain ⟨rest', cursor', book', added', hrest, hmoved, hall⟩ :=
      ih (fun p hp => h0 p (mem_cons_of_mem _ hp)) hp.clear hp.booked
    refine ⟨{ page with offset := offset } :: rest', cursor', book', added ++ added', ?_,
      .cons rfl hmoved, PlacedAll.cons hp hall⟩
    rw [placePages, if_neg (by simp [h0 page mem_cons_self]), hplace]
    show (placePages rest mid bookMid >>= _) = _
    rw [hrest]
    rfl

/-- A block keeps everything but its offset, and a spilled one keeps that as well. -/
structure MovedBlock (b b' : BlockEntry) : Prop where
  same : b' = { b with offset := b'.offset }
  spilled : b.onDisk = true → b' = b
  aligned : b.onDisk = false → blockAlign ∣ b'.offset

theorem MovedBlock.onDisk {b b' : BlockEntry} (h : MovedBlock b b') : b'.onDisk = b.onDisk := by
  rw [h.same]

theorem MovedBlock.bid {b b' : BlockEntry} (h : MovedBlock b b') : b'.bid = b.bid := by
  rw [h.same]

theorem placeBlocks_spec {blocks : List BlockEntry}
    (hdisk : ∀ b ∈ blocks, b.onDisk = true → b.offset ≠ 0)
    (hlen : ∀ b ∈ blocks, b.len ≤ maxBlockData)
    (hclear : amapGrid.Clear cursor) (hbooked : book.Booked cursor) :
    ∃ blocks' cursor' book' added, placeBlocks blocks cursor book = .ok (blocks', cursor', book') ∧
      Forall₂ MovedBlock blocks blocks' ∧
      PlacedAll cursor book ((blocks'.filter fun b => !b.onDisk).map blockRegion) cursor' book'
        added := by
  induction blocks generalizing cursor book with
  | nil => exact ⟨[], cursor, book, [], rfl, .nil, .nil hclear hbooked⟩
  | cons block rest ih =>
    have hdisk' : ∀ b ∈ rest, b.onDisk = true → b.offset ≠ 0 :=
      fun b hb => hdisk b (mem_cons_of_mem _ hb)
    have hlen' : ∀ b ∈ rest, b.len ≤ maxBlockData := fun b hb => hlen b (mem_cons_of_mem _ hb)
    cases hon : block.onDisk with
    | true =>
      obtain ⟨rest', cursor', book', added, hrest, hmoved, hall⟩ := ih hdisk' hlen' hclear hbooked
      refine ⟨block :: rest', cursor', book', added, ?_, .cons ⟨rfl, fun _ => rfl, fun h => ?_⟩ hmoved, ?_⟩
      · rw [placeBlocks, if_pos ⟨hon, hdisk block mem_cons_self hon⟩, hrest]
        rfl
      · rw [hon] at h
        cases h
      · rw [filter_cons_of_neg (by simp [hon])]
        exact hall
    | false =>
      obtain ⟨offset, mid, bookMid, added, hplace, hp⟩ :=
        amapPlaceRegion_spec (by decide) (Nat.dvd_refl blockAlign) (blockSize_pos block.len)
          (blockSize_le_maxRegion (hlen block mem_cons_self)) hclear hbooked
      obtain ⟨rest', cursor', book', added', hrest, hmoved, hall⟩ :=
        ih hdisk' hlen' hp.clear hp.booked
      refine ⟨{ block with offset := offset } :: rest', cursor', book', added ++ added', ?_,
        .cons ⟨rfl, fun h => ?_, fun _ => hp.aligned⟩ hmoved, ?_⟩
      · rw [placeBlocks, if_neg (by simp [hon]), hplace]
        show (placeBlocks rest mid bookMid >>= _) = _
        rw [hrest]
        rfl
      · rw [hon] at h
        cases h
      · rw [filter_cons_of_pos (by simp [hon]), map_cons]
        exact PlacedAll.cons hp hall

end

section

variable {fileEnd : Nat} {book : AmapBook}

theorem ensureBelow_registered {fuel amap : Nat} (hslot : amapGrid.IsSlot amap)
    (hclear : amapGrid.Clear fileEnd)
    (hreg : ∀ s, amapGrid.IsSlot s → s < fileEnd → s ∈ book.offsets)
    (hfuel : fileEnd < amap + fuel * amapInterval + 1) :
    ensureBelow (fuel + 1) amap fileEnd book = some (fileEnd, book) := by
  induction fuel generalizing amap with
  | zero =>
    rw [ensureBelow, if_neg (by omega)]
  | succ fuel ih =>
    rw [ensureBelow]
    by_cases hlt : amap < fileEnd
    · have hend : amap + pageSize ≤ fileEnd := hclear amap hslot hlt
      rw [if_pos hlt, amapEnsurePage_of_mem (hreg amap hslot hlt), Nat.max_eq_left hend]
      apply ih (SlotGrid.isSlot_add_interval hslot)
      show fileEnd < amap + amapInterval + fuel * amapInterval + 1
      rw [Nat.succ_mul] at hfuel
      omega
    · rw [if_neg hlt]

theorem ensureBelow_registered_first (hclear : amapGrid.Clear fileEnd)
    (hreg : ∀ s, amapGrid.IsSlot s → s < fileEnd → s ∈ book.offsets) :
    ensureBelow (fileEnd / amapInterval + 2) amapFirstOffset fileEnd book = some (fileEnd, book) := by
  apply ensureBelow_registered SlotGrid.isSlot_first hclear hreg
  have hdiv := Nat.div_add_mod fileEnd amapInterval
  have hmod := Nat.mod_lt fileEnd (show 0 < amapInterval by decide)
  rw [Nat.mul_comm] at hdiv
  rw [Nat.succ_mul]
  omega

theorem ensureAll_registered {fuel : Nat} (hclear : amapGrid.Clear fileEnd)
    (hreg : ∀ s, amapGrid.IsSlot s → s < fileEnd → s ∈ book.offsets) :
    ensureAll (fuel + 1) fileEnd book = .ok book := by
  rw [ensureAll, ensureBelow_registered_first hclear hreg]
  simp only [gt_iff_lt, Nat.lt_irrefl, if_false]

theorem ensureAll_spec {cursor : Nat} (hclear : amapGrid.Clear cursor) (hbooked : book.Booked cursor) :
    ∃ book' added fileEnd, cursor ≤ fileEnd ∧ amapFirstOffset + pageSize ≤ fileEnd ∧ ensureAll ensureFuel
        (if cursor ≤ amapFirstOffset then amapFirstOffset + pageSize else cursor) book = .ok book' ∧
      amapGrid.Clear fileEnd ∧ book.Extends book' added ∧ book'.Booked fileEnd ∧
      ∀ s, book'.Orphan s ↔ book.Orphan s := by
  by_cases hle : cursor ≤ amapFirstOffset
  · -- nothing lies behind the first slot: its page is the only one
    rw [if_pos hle]
    have hnext : amapGrid.next cursor = amapFirstOffset := if_pos hle
    have hend : amapGrid.Clear (amapFirstOffset + pageSize) :=
      SlotGrid.clear_slot_end SlotGrid.isSlot_first
    have hbooked' := hbooked.take
      (show amapGrid.next cursor < amapFirstOffset + pageSize by rw [hnext]; decide)
      (by rw [hnext]; decide)
    rw [hnext] at hbooked'
    obtain ⟨added, hext⟩ := amapEnsurePage_grows amapFirstOffset book
    refine ⟨_, added, amapFirstOffset + pageSize, hle.trans (by decide), Nat.le_refl _, ?_,
      hend, hext, hbooked', amapEnsurePage_orphan⟩
    have hpass : ensureBelow ((amapFirstOffset + pageSize) / amapInterval + 2) amapFirstOffset
        (amapFirstOffset + pageSize) book
        = some (amapFirstOffset + pageSize, amapEnsurePage amapFirstOffset book) := by
      show ensureBelow 2 amapFirstOffset (amapFirstOffset + pageSize) book = _
      rw [ensureBelow, if_pos (by decide), ensureBelow, if_neg (by decide)]
      rfl
    rw [ensureFuel, ensureAll, hpass]
    simp only
    split
    · exact ensureAll_registered hend hbooked'.below
    · rfl
  · rw [if_neg hle]
    have hpast : amapFirstOffset + pageSize ≤ cursor :=
      hclear amapFirstOffset SlotGrid.isSlot_first (by omega)
    exact ⟨book, [], cursor, Nat.le_refl _, hpast, ensureAll_registered hclear hbooked.below,
      hclear, .refl book, hbooked, fun _ => Iff.rfl⟩

end

/-! ## Where the final placement starts -/

def Layout.base (l : Layout) : Nat := (l.eager.map EagerWriteCtx.cursor).getD headerSize

theorem mem_foldl_insert (pages : List PageEntry) (offsets : Finset Nat) (s : Nat) :
    s ∈ pages.foldl (fun s p => insert p.offset s) offsets ↔ s ∈ offsets ∨ s ∈ pages.map PageEntry.offset := by
  induction pages generalizing offsets with
  | nil => simp
  | cons page rest ih =>
    rw [foldl_cons, ih, Finset.mem_insert, map_cons, mem_cons]
    tauto

def Layout.book (l : Layout) : AmapBook where
  pages := l.amapPages
  offsets := l.amapPages.foldl (fun s p => insert p.offset s)
    ((l.eager.map EagerWriteCtx.amapPageOffsets).getD (l.amapPages.map PageEntry.offset).toFinset)
  usedBids := l.usedBids
  nextBid := l.nextBidCounter

variable {l l' : Layout}

theorem Layout.Inv.base (h : l.Inv) :
    amapGrid.Clear l.base ∧ l.book.Booked l.base ∧ (∀ s, l.book.Orphan s ↔ l.Orphan s) ∧
      Laid headerSize (l.spilled.map blockRegion) l.base ∧
      ∀ b ∈ l.spilled, amapGrid.Avoids (blockRegion b) ∧ blockAlign ∣ b.offset := by
  unfold Layout.base Layout.book Layout.amapPages Layout.Orphan
  cases he : l.eager with
  | none =>
    have hbelow : headerSize ≤ amapGrid.first := by decide
    have hnone : ∀ s, amapGrid.IsSlot s → ¬ s < headerSize :=
      fun s hs => Nat.not_lt.mpr (hbelow.trans hs.1)
    rw [h.noEager he]
    refine ⟨fun s hs hlt => absurd hlt (hnone s hs), ⟨fun s hs hlt => absurd hlt (hnone s hs),
      fun s hs => ?_, fun _ hs => (nomatch hs), .nil, fun _ hp => (nomatch hp)⟩, fun s => ?_,
      .nil (Nat.le_refl _), fun _ hb => (nomatch hb)⟩
    · exact absurd hs (by simp)
    · simp [AmapBook.Orphan]
  | some e =>
    have hinv := h.eager e he
    have hbooked := hinv.booked l.usedBids l.nextBidCounter
    -- the pages are marked already
    have hoffsets : e.amapPages.foldl (fun s p => insert p.offset s) e.amapPageOffsets
        = e.amapPageOffsets := by
      apply Finset.ext
      intro s
      rw [mem_foldl_insert]
      exact ⟨fun hs => hs.elim id fun hs => (hbooked.pages s hs).1, Or.inl⟩
    simp only [Option.map_some, Option.getD_some, hoffsets, Option.some.injEq, exists_eq_left']
    exact ⟨hinv.clear, hbooked, fun s => Iff.rfl, hinv.laid, hinv.placed⟩

theorem foldl_onDisk_eq {blocks : List BlockEntry} {c : Nat}
    (h : ∀ b ∈ blocks, b.onDisk = true → b.offset + blockSize b.len ≤ c) : blocks.foldl (fun c b =>
      if b.onDisk ∧ b.offset ≠ 0 then max c (b.offset + blockSize b.len) else c) c = c := by
  induction blocks with
  | nil => rfl
  | cons b rest ih =>
    have hstep : (if b.onDisk ∧ b.offset ≠ 0 then max c (b.offset + blockSize b.len) else c) = c := by
      split
      · rename_i hon
        exact Nat.max_eq_left (h b mem_cons_self hon.1)
      · rfl
    rw [foldl_cons, hstep]
    exact ih fun b' hb' => h b' (mem_cons_of_mem _ hb')

theorem Layout.Inv.start_eq (h : l.Inv) : l.blocks.foldl (fun c b =>
      if b.onDisk ∧ b.offset ≠ 0 then max c (b.offset + blockSize b.len) else c)
      (max headerSize ((l.eager.map EagerWriteCtx.cursor).getD headerSize)) = l.base := by
  obtain ⟨_, _, _, hlaid, _⟩ := h.base
  have hmax : max headerSize ((l.eager.map EagerWriteCtx.cursor).getD headerSize) = l.base :=
    Nat.max_eq_right hlaid.le
  rw [hmax]
  apply foldl_onDisk_eq
  intro b hb hon
  exact (hlaid.mem (mem_map_of_mem (List.mem_filter.mpr ⟨hb, hon⟩))).2

/-- What `calculate_offsets` makes of a layout. -/
structure Calculated (l l' : Layout) (amaps others : List PageEntry) (fileEnd : Nat) : Prop where
  nodes : l'.nodes = l.nodes
  eager : l'.eager = l.eager.map fun e => { e with amapPages := [], amapPageOffsets := ∅ }
  blocks : Forall₂ MovedBlock l.blocks l'.blocks
  pages : l'.pages = sortBy (fun p q => compare p.offset q.offset) amaps ++ others
  moved : Forall₂ (fun p p' => p' = { p with offset := p'.offset })
    (l.pages.filter fun p => p.ptype ≠ ptypeAmap) others
  laid : Laid headerSize (l.spilled.map blockRegion ++ (others.map pageRegion ++
    (l'.blocks.filter fun b => !b.onDisk).map blockRegion)) fileEnd
  avoids : ∀ r ∈ l.spilled.map blockRegion ++ (others.map pageRegion ++
    (l'.blocks.filter fun b => !b.onDisk).map blockRegion), amapGrid.Avoids r
  clear : amapGrid.Clear fileEnd
  slots : ∀ p ∈ amaps, amapGrid.IsSlot p.offset ∧ p.offset < fileEnd
  once : (amaps.map PageEntry.offset).Nodup
  registered : ∀ s, amapGrid.IsSlot s → s < fileEnd → s ∈ amaps.map PageEntry.offset ∨ l.Orphan s
  orphans : ∀ s, l.Orphan s → s ∉ amaps.map PageEntry.offset
  first : amapFirstOffset + pageSize ≤ fileEnd
  ptype : ∀ p ∈ amaps, p.ptype = ptypeAmap
  bids : (l.blocks.map BlockEntry.bid ++ l.pages.map PageEntry.bid ++ amaps.map PageEntry.bid).Nodup
  used : ∀ b ∈ l.blocks.map BlockEntry.bid ++ l.pages.map PageEntry.bid ++ amaps.map PageEntry.bid,
    b ∈ l'.usedBids
  drawn : Drawn l'.usedBids l'.nextBidCounter

theorem Layout.Inv.calculateOffsets (h : l.Inv) :
    ∃ l' amaps others fileEnd, l.calculateOffsets = .ok l' ∧ Calculated l l' amaps others fileEnd := by
  obtain ⟨hclear, hbooked, horphan, hlaid, hplaced⟩ := h.base
  obtain ⟨others, mid, book₁, added₁, hpages, hothers, hall₁⟩ :=
    placePages_spec (fun p hp => h.pages p
      (List.mem_filter.mp (show p ∈ l.pages.filter fun p => p.ptype ≠ ptypeAmap from hp)).1)
      hclear hbooked
  have hdisk : ∀ b ∈ l.blocks, b.onDisk = true → b.offset ≠ 0 := by
    intro b hb hon
    have hoff := (hlaid.mem (mem_map_of_mem (List.mem_filter.mpr ⟨hb, hon⟩))).1
    have : 0 < headerSize := by decide
    exact Nat.ne_of_gt (Nat.lt_of_lt_of_le this hoff)
  obtain ⟨blocks', cursor, book₂, added₂, hblocks, hmoved, hall₂⟩ :=
    placeBlocks_spec hdisk h.len hall₁.clear hall₁.booked
  obtain ⟨book₃, added₃, fileEnd, hend, hfirst, hensure, hclearEnd, hext₃, hbooked₃, horphan₃⟩ :=
    ensureAll_spec hall₂.clear hall₂.booked
  have hext := (hall₁.grows.trans hall₂.grows).trans hext₃
  have horphans : ∀ s, book₃.Orphan s ↔ l.Orphan s := fun s =>
    (horphan₃ s).trans ((hall₂.orphans s).trans ((hall₁.orphans s).trans (horphan s)))
  have hamaps : book₃.pages = l.amapPages ++ (added₁ ++ added₂ ++ added₃) := hext.pages
  refine ⟨{ l with
    blocks := blocks'
    pages := sortBy (fun p q => compare p.offset q.offset) book₃.pages ++ others
    usedBids := book₃.usedBids
    nextBidCounter := book₃.nextBid
    eager := l.eager.map fun e => { e with amapPages := [], amapPageOffsets := ∅ } },
    book₃.pages, others, fileEnd, ?_, ⟨rfl, rfl, hmoved, rfl, hothers, ?_, ?_, hclearEnd,
    fun p hp => ?_, hbooked₃.nodup, fun s hs hlt => ?_, fun s hs => ((horphans s).mpr hs).2, hfirst,
    hbooked₃.ptype, ?_, ?_, hext.drawn h.counter h.drawn⟩⟩
  · unfold Layout.calculateOffsets
    simp only [h.start_eq]
    show (placePages _ l.base l.book >>= _) = _
    rw [hpages]
    show (placeBlocks l.blocks mid book₁ >>= _) = _
    rw [hblocks]
    show (ensureAll ensureFuel _ book₂ >>= _) = _
    rw [hensure]
    rfl
  · exact hlaid.append (hall₁.laid.append (hall₂.laid.append (.nil hend)) |> fun hl => by
      rwa [append_nil] at hl)
  · intro r hr
    rcases List.mem_append.mp hr with hr | hr
    · obtain ⟨b, hb, rfl⟩ := List.mem_map.mp hr
      exact (hplaced b hb).1
    · rcases List.mem_append.mp hr with hr | hr
      · exact hall₁.avoids r hr
      · exact hall₂.avoids r hr
  · have hpage := hbooked₃.pages p.offset (mem_map_of_mem hp)
    exact ⟨hbooked₃.slots _ hpage.1, hpage.2⟩
  · by_cases hin : s ∈ book₃.pages.map PageEntry.offset
    · exact Or.inl hin
    · exact Or.inr ((horphans s).mp ⟨hbooked₃.below s hs hlt, hin⟩)
  · have hunused : ∀ p ∈ added₁ ++ added₂ ++ added₃, p.bid ∉ l.bids :=
      fun p hp hmem => hext.fresh p hp (h.used _ hmem)
    rw [hamaps, map_append, ← append_assoc, nodup_append]
    refine ⟨h.nodup, hext.nodup, ?_⟩
    rintro a ha b hb rfl
    obtain ⟨p, hp, rfl⟩ := List.mem_map.mp hb
    exact hunused p hp ha
  · intro b hb
    show b ∈ book₃.usedBids
    rw [hext.used]
    rw [hamaps, map_append, ← append_assoc] at hb
    rcases List.mem_append.mp hb with hb | hb
    · exact Or.inl (h.used b hb)
    · exact Or.inr hb

theorem foldl_max_le_iff {α : Type} {f : α → Nat} {xs : List α} {a n : Nat} :
    xs.foldl (fun m x => max m (f x)) a ≤ n ↔ a ≤ n ∧ ∀ x ∈ xs, f x ≤ n := by
  induction xs generalizing a with
  | nil => simp
  | cons x xs ih =>
    rw [foldl_cons, ih, Nat.max_le, forall_mem_cons, and_assoc]

theorem fileSize_le_iff {n : Nat} :
    l.fileSize ≤ n ↔ headerSize ≤ n ∧ (∀ p ∈ l.pages, p.offset + pageSize ≤ n) ∧
      ∀ b ∈ l.blocks, b.offset + blockSize b.len ≤ n := by
  unfold Layout.fileSize
  rw [foldl_max_le_iff, foldl_max_le_iff, and_assoc]

/-! ## What the placement guarantees -/

def amapSlot (k : Nat) : Nat := amapFirstOffset + k * amapInterval

def Layout.amapCount (l : Layout) (off : Nat) : Nat :=
  ((l.pages.filter fun p => p.ptype = ptypeAmap).map PageEntry.offset).count off

theorem isSlot_amapSlot (k : Nat) : amapGrid.IsSlot (amapSlot k) := SlotGrid.isSlot_iff.mpr ⟨k, rfl⟩

def Layout.regions (l : Layout) : List (Nat × Nat) :=
  l.blocks.map blockRegion ++ l.pages.map pageRegion

/-- Regions stand apart, inside the file and off the AMap slots, and each slot has its page. -/
structure WellPlaced (l : Layout) : Prop where
  apart : l.regions.Pairwise Apart
  inside : ∀ r ∈ l.regions, headerSize ≤ r.1 ∧ r.1 + r.2 ≤ l.fileSize
  blockSlots : ∀ b ∈ l.blocks, ∀ k, Apart (blockRegion b) (amapSlot k, pageSize)
  pageSlots : ∀ p ∈ l.pages, ∀ k,
    p.ptype = ptypeAmap ∧ p.offset = amapSlot k ∨ Apart (pageRegion p) (amapSlot k, pageSize)
  aligned : ∀ b ∈ l.blocks, blockAlign ∣ b.offset
  amaps : ∀ k, amapSlot k < l.fileSize → l.amapCount (amapSlot k) = 1
  bids : (l.blocks.map BlockEntry.bid ++ l.pages.map PageEntry.bid).Nodup

/-- Nothing is lost on the way: the blocks and reserved pages of `l` in their order, each with its
offset filled. -/
structure Filled (l l' : Layout) : Prop where
  nodes : l'.nodes = l.nodes
  blocks : Forall₂ MovedBlock l.blocks l'.blocks
  pages : Forall₂ (fun p p' => p' = { p with offset := p'.offset })
    (l.pages.filter fun p => p.ptype ≠ ptypeAmap) (l'.pages.filter fun p => p.ptype ≠ ptypeAmap)

theorem filter_onDisk_eq {blocks blocks' : List BlockEntry}
    (h : Forall₂ MovedBlock blocks blocks') :
    blocks'.filter BlockEntry.onDisk = blocks.filter BlockEntry.onDisk := by
  induction h with
  | nil => rfl
  | @cons b b' _ _ hb _ ih =>
    cases hon : b.onDisk with
    | true => rw [hb.spilled hon, filter_cons_of_pos hon, filter_cons_of_pos hon, ih]
    | false =>
      have hon' : b'.onDisk = false := hb.onDisk.trans hon
      rw [filter_cons_of_neg (by simp [hon']), filter_cons_of_neg (by simp [hon]), ih]

theorem length_filter_ram {blocks blocks' : List BlockEntry}
    (h : Forall₂ MovedBlock blocks blocks') :
    (blocks'.filter fun b => !b.onDisk).length = (blocks.filter fun b => !b.onDisk).length := by
  induction h with
  | nil => rfl
  | @cons b b' _ _ hb _ ih =>
    have hon := hb.onDisk
    cases h : b.onDisk with
    | true => rw [filter_cons_of_neg (by simp [hon, h]), filter_cons_of_neg (by simp [h]), ih]
    | false =>
      rw [filter_cons_of_pos (by simp [hon, h]), filter_cons_of_pos (by simp [h]),
        length_cons, length_cons, ih]

namespace Calculated

variable {amaps others : List PageEntry} {fileEnd : Nat}

theorem spilled_eq (h : Calculated l l' amaps others fileEnd) :
    l'.blocks.filter BlockEntry.onDisk = l.spilled := filter_onDisk_eq h.blocks

theorem perm_laid (h : Calculated l l' amaps others fileEnd) :
    (l'.blocks.map blockRegion ++ others.map pageRegion).Perm
      (l.spilled.map blockRegion ++ (others.map pageRegion ++
        (l'.blocks.filter fun b => !b.onDisk).map blockRegion)) := by
  have hsplit : (l'.blocks.map blockRegion).Perm (l.spilled.map blockRegion ++
      (l'.blocks.filter fun b => !b.onDisk).map blockRegion) := by
    rw [← h.spilled_eq, ← map_append]
    exact (filter_append_perm _ _).symm.map _
  apply (hsplit.append_right _).trans
  rw [append_assoc]
  exact List.perm_append_comm.append_left _

theorem perm_pages (h : Calculated l l' amaps others fileEnd) : l'.pages.Perm (amaps ++ others) := by
  rw [h.pages]
  exact (sortBy_perm _ amaps).append_right _

theorem perm_regions (h : Calculated l l' amaps others fileEnd) :
    l'.regions.Perm (amaps.map pageRegion ++ (l.spilled.map blockRegion ++ (others.map pageRegion ++
      (l'.blocks.filter fun b => !b.onDisk).map blockRegion))) := by
  unfold Layout.regions
  apply ((h.perm_pages.map pageRegion).append_left _).trans
  rw [map_append, ← append_assoc]
  apply (List.perm_append_comm.append_right _).trans
  rw [append_assoc]
  exact h.perm_laid.append_left _

theorem others_ptype (h : Calculated l l' amaps others fileEnd) {p : PageEntry} (hp : p ∈ others) :
    p.ptype ≠ ptypeAmap := by
  have hmap := map_eq_map_of_forall₂ (f := PageEntry.ptype) (g := PageEntry.ptype) h.moved
    fun x y hxy => by rw [hxy]
  have hmem : p.ptype ∈ (l.pages.filter fun p => p.ptype ≠ ptypeAmap).map PageEntry.ptype :=
    hmap ▸ mem_map_of_mem hp
  obtain ⟨q, hq, hqp⟩ := List.mem_map.mp hmem
  rw [← hqp]
  simpa using (List.mem_filter.mp hq).2

theorem amap_isSlot (h : Calculated l l' amaps others fileEnd) {p : PageEntry} (hp : p ∈ amaps) :
    amapGrid.IsSlot p.offset ∧ p.offset + pageSize ≤ fileEnd := by
  obtain ⟨hs, hlt⟩ := h.slots p hp
  exact ⟨hs, h.clear p.offset hs hlt⟩

theorem apart (h : Calculated l l' amaps others fileEnd) : l'.regions.Pairwise Apart := by
  rw [h.perm_regions.pairwise_iff fun hab => hab.symm, pairwise_append]
  refine ⟨?_, h.laid.pairwise_apart, ?_⟩
  · -- two AMap pages lie at different slots
    rw [pairwise_map]
    have hnodup : amaps.Pairwise fun p q => p.offset ≠ q.offset := List.pairwise_map.mp h.once
    apply hnodup.imp_of_mem
    intro p q hp hq hne
    have hps := (h.amap_isSlot hp).1
    have hqs := (h.amap_isSlot hq).1
    have hwidth : pageSize < amapInterval := by decide
    rcases Nat.lt_or_gt_of_ne hne with hlt | hgt
    · have hgap : p.offset + amapInterval ≤ q.offset := SlotGrid.add_interval_le hps hqs hlt
      exact Or.inl (show p.offset + pageSize ≤ q.offset by omega)
    · have hgap : q.offset + amapInterval ≤ p.offset := SlotGrid.add_interval_le hqs hps hgt
      exact Or.inr (show q.offset + pageSize ≤ p.offset by omega)
  · intro r hr r' hr'
    obtain ⟨p, hp, rfl⟩ := List.mem_map.mp hr
    exact (h.avoids r' hr' p.offset (h.amap_isSlot hp).1).symm

theorem fileSize_le (h : Calculated l l' amaps others fileEnd) : l'.fileSize ≤ fileEnd := by
  rw [fileSize_le_iff]
  refine ⟨h.laid.le, fun p hp => ?_, fun b hb => ?_⟩
  · rcases List.mem_append.mp (h.perm_pages.mem_iff.mp hp) with hp | hp
    · exact (h.amap_isSlot hp).2
    · exact (h.laid.mem (mem_append_right _
        (mem_append_left _ (mem_map_of_mem hp)))).2
  · have hmem := mem_append_left (others.map pageRegion) (mem_map_of_mem (f := blockRegion) hb)
    exact (h.laid.mem (h.perm_laid.mem_iff.mp hmem)).2

theorem perm_amaps (h : Calculated l l' amaps others fileEnd) :
    (l'.pages.filter fun p => p.ptype = ptypeAmap).Perm amaps := by
  apply (h.perm_pages.filter _).trans
  rw [filter_append, List.filter_eq_self.mpr fun p hp => by simpa using h.ptype p hp,
    List.filter_eq_nil_iff.mpr fun p hp => by simpa using h.others_ptype hp, append_nil]

theorem amapCount_eq (h : Calculated l l' amaps others fileEnd) (off : Nat) :
    l'.amapCount off = (amaps.map PageEntry.offset).count off :=
  (h.perm_amaps.map _).count_eq off

theorem amaps_once (h : Calculated l l' amaps others fileEnd) {s : Nat} (hs : amapGrid.IsSlot s)
    (hlt : s < l'.fileSize) (horphan : ¬ l.Orphan s) : l'.amapCount s = 1 := by
  rw [h.amapCount_eq]
  apply count_eq_one_of_mem h.once
  exact (h.registered s hs (Nat.lt_of_lt_of_le hlt h.fileSize_le)).resolve_right horphan

theorem amapCount_orphan (h : Calculated l l' amaps others fileEnd) {s : Nat}
    (horphan : l.Orphan s) : l'.amapCount s = 0 := by
  rw [h.amapCount_eq]
  exact count_eq_zero_of_not_mem (h.orphans s horphan)

theorem blockAvoids (h : Calculated l l' amaps others fileEnd) {b : BlockEntry}
    (hb : b ∈ l'.blocks) : amapGrid.Avoids (blockRegion b) :=
  h.avoids _ (h.perm_laid.mem_iff.mp (mem_append_left _ (mem_map_of_mem hb)))

theorem aligned (h : Calculated l l' amaps others fileEnd) (hinv : l.Inv) {b : BlockEntry}
    (hb : b ∈ l'.blocks) : blockAlign ∣ b.offset := by
  cases hon : b.onDisk with
  | true =>
    have hspilled : b ∈ l.spilled := h.spilled_eq ▸ List.mem_filter.mpr ⟨hb, hon⟩
    exact (hinv.base.2.2.2.2 b hspilled).2
  | false =>
    obtain ⟨b₀, _, hmoved⟩ := exists_left_of_forall₂ h.blocks hb
    exact hmoved.aligned (hmoved.onDisk.symm.trans hon)

theorem bids_nodup (h : Calculated l l' amaps others fileEnd) :
    (l'.blocks.map BlockEntry.bid ++ l'.pages.map PageEntry.bid).Nodup := by
  have hblocks : l'.blocks.map BlockEntry.bid = l.blocks.map BlockEntry.bid :=
    map_eq_map_of_forall₂ h.blocks fun _ _ hb => hb.bid
  have hothers : others.map PageEntry.bid
      = (l.pages.filter fun p => p.ptype ≠ ptypeAmap).map PageEntry.bid :=
    map_eq_map_of_forall₂ h.moved fun x y hxy => by rw [hxy]
  have hpages : (l'.pages.map PageEntry.bid).Perm
      ((l.pages.filter fun p => p.ptype ≠ ptypeAmap).map PageEntry.bid ++ amaps.map PageEntry.bid) := by
    rw [← hothers, ← map_append]
    exact (h.perm_pages.trans perm_append_comm).map _
  rw [hblocks, (hpages.append_left _).nodup_iff, ← append_assoc]
  refine h.bids.sublist ?_
  exact ((List.filter_sublist.map _).append_left _).append_right _

theorem filled (h : Calculated l l' amaps others fileEnd) : Filled l l' where
  nodes := h.nodes
  blocks := h.blocks
  pages := by
    have hamaps : (sortBy (fun p q => compare p.offset q.offset) amaps).filter
        (fun p => p.ptype ≠ ptypeAmap) = [] :=
      List.filter_eq_nil_iff.mpr fun p hp => by simpa using h.ptype p ((sortBy_perm _ amaps).mem_iff.mp hp)
    have hothers : others.filter (fun p => p.ptype ≠ ptypeAmap) = others :=
      List.filter_eq_self.mpr fun p hp => by simpa using h.others_ptype hp
    rw [h.pages, filter_append, hamaps, hothers]
    exact h.moved

theorem wellPlaced (h : Calculated l l' amaps others fileEnd) (hinv : l.Inv)
    (horphan : ∀ s, ¬ l.Orphan s) : WellPlaced l' where
  apart := h.apart
  inside := by
    intro r hr
    constructor
    · rcases List.mem_append.mp (h.perm_regions.mem_iff.mp hr) with hr | hr
      · obtain ⟨p, hp, rfl⟩ := List.mem_map.mp hr
        have hfirst : amapFirstOffset ≤ p.offset := (h.amap_isSlot hp).1.1
        exact Nat.le_trans (by decide) hfirst
      · exact (h.laid.mem hr).1
    · have hle := fileSize_le_iff.mp (Nat.le_refl l'.fileSize)
      rcases List.mem_append.mp hr with hr | hr
      · obtain ⟨b, hb, rfl⟩ := List.mem_map.mp hr
        exact hle.2.2 b hb
      · obtain ⟨p, hp, rfl⟩ := List.mem_map.mp hr
        exact hle.2.1 p hp
  blockSlots := fun b hb k => h.blockAvoids hb _ (isSlot_amapSlot k)
  pageSlots := by
    intro p hp k
    rcases List.mem_append.mp (h.perm_pages.mem_iff.mp hp) with hp | hp
    · obtain ⟨hs, _⟩ := h.amap_isSlot hp
      have hk := isSlot_amapSlot k
      have hwidth : pageSize < amapInterval := by decide
      rcases Nat.lt_trichotomy p.offset (amapSlot k) with hlt | heq | hgt
      · have hgap : p.offset + amapInterval ≤ amapSlot k := SlotGrid.add_interval_le hs hk hlt
        exact Or.inr (Or.inl (show p.offset + pageSize ≤ amapSlot k by omega))
      · exact Or.inl ⟨h.ptype p hp, heq⟩
      · have hgap : amapSlot k + amapInterval ≤ p.offset := SlotGrid.add_interval_le hk hs hgt
        exact Or.inr (Or.inr (show amapSlot k + pageSize ≤ p.offset by omega))
    · refine Or.inr (h.avoids _ ?_ _ (isSlot_amapSlot k))
      exact mem_append_right _ (mem_append_left _ (mem_map_of_mem hp))
  aligned := fun b hb => h.aligned hinv hb
  amaps := fun k hlt => h.amaps_once (isSlot_amapSlot k) hlt (horphan _)
  bids := h.bids_nodup

end Calculated

section

variable [Crc32fast]

/-- **AMap-aware placement.** After any run of leaf pushes, page reservations and blocks held in
RAM, `calculate_offsets` returns every block and reserved page of the layout, well placed. The
placement loop leaves from every cursor, for every region that the writer places. -/
theorem calculateOffsets_wellPlaced (h : Reachable l) :
    (∃ l', l.calculateOffsets = .ok l' ∧ Filled l l' ∧ WellPlaced l') ∧
      (∀ cursor book, ∀ n ≤ maxBlockData, (amapPlaceLoop (blockSize n) blockAlign placeFuel
        (alignUp cursor blockAlign) book).isSome) ∧
      ∀ cursor book, (amapPlaceLoop pageSize 1 placeFuel (alignUp cursor 1) book).isSome := by
  refine ⟨?_, ?_, ?_⟩
  · obtain ⟨l', amaps, others, fileEnd, hok, hcalc⟩ := h.inv.calculateOffsets
    exact ⟨l', hok, hcalc.filled, hcalc.wellPlaced h.inv h.not_orphan⟩
  · intro cursor book n hn
    exact amapPlaceLoop_terminates (by decide) (Nat.dvd_refl _) (blockSize_pos n)
      (blockSize_le_maxRegion hn) cursor book
  · intro cursor book
    exact amapPlaceLoop_terminates (by decide) (by decide) (by decide) (by decide) cursor book

end

/-- A leaf spilled to the temp file, a page and a block in RAM: a first short run. -/
def sampleLayout : Layout :=
  let l₀ := (Layout.new.attachEager (EagerWriteCtx.create [])).allocBid false
  let l₁ := (@Layout.pushLeafBlock Crc32fast.ieee l₀.2 l₀.1 [1, 2, 3]).2
  let l₂ := (l₁.reservePage ptypeNbt).2
  let l₃ := l₂.allocBid true
  { l₃.2 with blocks := l₃.2.blocks ++ [.inMemory l₃.1 [4]] }

theorem reachable_sampleLayout : @Reachable Crc32fast.ieee sampleLayout := by
  let _ := Crc32fast.ieee
  have hleaf : ([1, 2, 3] : Bytes).length ≤ maxBlockData := by decide
  have hblock : ([4] : Bytes).length ≤ maxBlockData := by decide
  exact .eager [] (.tail (.tail (.single (.leaf hleaf rfl rfl)) (.page _ ptypeNbt))
    (.block true hblock rfl))

theorem calculateOffsets_wellPlaced_sampleLayout :
    (∃ l', sampleLayout.calculateOffsets = .ok l' ∧ Filled sampleLayout l' ∧ WellPlaced l') ∧
      (∀ cursor book, ∀ n ≤ maxBlockData, (amapPlaceLoop (blockSize n) blockAlign placeFuel
        (alignUp cursor blockAlign) book).isSome) ∧
      ∀ cursor book, (amapPlaceLoop pageSize 1 placeFuel (alignUp cursor 1) book).isSome :=
  @calculateOffsets_wellPlaced _ Crc32fast.ieee reachable_sampleLayout

end PstWriter
