import PstDedupe.PstWriter.PlaceRegion

/-!
# The layouts a writer can reach

`Layout.Inv` says what every layout keeps while blocks and pages are added: the BIDs in use are
different, the spilled blocks lie in order between the header and the cursor, and every AMap slot
below the cursor is marked as registered (with its page, as long as no stream has failed).
-/

namespace PstWriter

open Rust Foundations List

variable {l l' : Layout}

/-! ## Regions and identifiers -/

def blockRegion (b : BlockEntry) : Nat × Nat := (b.offset, blockSize b.len)

def pageRegion (p : PageEntry) : Nat × Nat := (p.offset, pageSize)

def Layout.amapPages (l : Layout) : List PageEntry := (l.eager.map EagerWriteCtx.amapPages).getD []

def Layout.bids (l : Layout) : List Nat :=
  l.blocks.map BlockEntry.bid ++ l.pages.map PageEntry.bid ++ l.amapPages.map PageEntry.bid

def Layout.spilled (l : Layout) : List BlockEntry := l.blocks.filter BlockEntry.onDisk

theorem blockSize_pos (n : Nat) : 0 < blockSize n := by
  unfold blockSize
  omega

theorem blockSize_le_maxRegion {n : Nat} (h : n ≤ maxBlockData) : blockSize n ≤ maxRegion := by
  have halign : alignUp n blockAlign ≤ 8192 :=
    alignUp_le (by decide) (by decide) (h.trans (by decide))
  unfold blockSize
  have : (8192 : Nat) + 16 ≤ maxRegion := by decide
  omega

/-! ## The invariant -/

structure EagerInv (e : EagerWriteCtx) (spilled : List BlockEntry) : Prop where
  clear : amapGrid.Clear e.cursor
  booked : ∀ used next, (AmapBook.mk e.amapPages e.amapPageOffsets used next).Booked e.cursor
  laid : Laid headerSize (spilled.map blockRegion) e.cursor
  placed : ∀ b ∈ spilled, amapGrid.Avoids (blockRegion b) ∧ blockAlign ∣ b.offset
  stubs : e.amapPages.length ≤ e.stubbedUpto

structure Layout.Inv (l : Layout) : Prop where
  counter : 16 ≤ l.nextBidCounter
  drawn : Drawn l.usedBids l.nextBidCounter
  nodup : l.bids.Nodup
  used : ∀ b ∈ l.bids, b ∈ l.usedBids
  len : ∀ b ∈ l.blocks, b.len ≤ maxBlockData
  inMemory : ∀ b ∈ l.blocks, b.onDisk = false → b.offset = 0 ∧ b.data.length = b.len
  pages : ∀ p ∈ l.pages, p.offset = 0
  eager : ∀ e, l.eager = some e → EagerInv e l.spilled
  noEager : l.eager = none → l.spilled = []

def EagerWriteCtx.Orphan (e : EagerWriteCtx) (s : Nat) : Prop :=
  s ∈ e.amapPageOffsets ∧ s ∉ e.amapPages.map PageEntry.offset

def Layout.Orphan (l : Layout) (s : Nat) : Prop := ∃ e, l.eager = some e ∧ e.Orphan s

theorem Layout.orphan_congr (heager : l'.eager = l.eager) (s : Nat) : l'.Orphan s ↔ l.Orphan s := by
  unfold Layout.Orphan
  rw [heager]

theorem Layout.inv_new : Layout.new.Inv where
  counter := by decide
  drawn := fun b hb => by cases hb
  nodup := .nil
  used := fun b hb => by cases hb
  len := fun b hb => by cases hb
  inMemory := fun b hb => by cases hb
  pages := fun p hp => by cases hp
  eager := fun e he => by cases he
  noEager := fun _ => rfl

theorem Layout.inv_attachEager (faults : List Bool) :
    (Layout.new.attachEager (EagerWriteCtx.create faults)).Inv where
  counter := Nat.le_refl 16
  drawn := fun b hb => by cases hb
  nodup := .nil
  used := fun b hb => by cases hb
  len := fun b hb => by cases hb
  inMemory := fun b hb => by cases hb
  pages := fun p hp => by cases hp
  eager := by
    intro e he
    obtain rfl : EagerWriteCtx.create faults = e := Option.some.inj he
    have hbelow : headerSize ≤ amapGrid.first := by decide
    have hnone : ∀ s, amapGrid.IsSlot s → ¬ s < headerSize :=
      fun s hs => Nat.not_lt.mpr (hbelow.trans hs.1)
    refine ⟨fun s hs hlt => absurd hlt (hnone s hs), fun used next => ⟨fun s hs hlt =>
      absurd hlt (hnone s hs), fun s hs => ?_, fun s hs => (nomatch hs), .nil, fun p hp => (nomatch hp)⟩,
      .nil (Nat.le_refl _), fun b hb => (nomatch hb), Nat.le_refl 0⟩
    exact absurd hs (Finset.notMem_empty s)
  noEager := fun h => by cases h

theorem Layout.allocBid_draw (l : Layout) (internal : Bool) :
    ∃ c next, l.nextBidCounter ≤ c ∧ l.allocBid internal = (if internal then internalBid c else externalBid c,
          { l with nextBidCounter := next, usedBids :=
              insert (if internal then internalBid c else externalBid c) l.usedBids }) ∧
      Draw l.usedBids l.nextBidCounter (if internal then internalBid c else externalBid c) next := by
  unfold Layout.allocBid
  cases internal with
  | true =>
    obtain ⟨c, hle, hc, hdraw⟩ := nextFreshBid_draw (Or.inl rfl) l.usedBids l.nextBidCounter
    exact ⟨c, c + 1, hle, by simp [hc], hdraw⟩
  | false =>
    obtain ⟨c, hle, hc, hdraw⟩ := nextFreshBid_draw (Or.inr rfl) l.usedBids l.nextBidCounter
    exact ⟨c, c + 1, hle, by simp [hc], hdraw⟩

structure Layout.Fresh (l : Layout) (bid : Nat) : Prop where
  used : bid ∈ l.usedBids
  unnamed : bid ∉ l.bids

structure Layout.Allocated (l l' : Layout) (bid : Nat) (internal : Bool) : Prop where
  inv : l'.Inv
  fresh : l'.Fresh bid
  kind : bid.testBit 1 = internal
  unused : bid ∉ l.usedBids
  used : l'.usedBids = insert bid l.usedBids
  blocks : l'.blocks = l.blocks
  pages : l'.pages = l.pages
  nodes : l'.nodes = l.nodes
  usedNids : l'.usedNids = l.usedNids
  eager : l'.eager = l.eager

theorem Layout.Inv.allocBid (h : l.Inv) {internal : Bool} {bid : Nat}
    (halloc : l.allocBid internal = (bid, l')) : l.Allocated l' bid internal := by
  obtain ⟨c, next, hle, heq, hdraw⟩ := l.allocBid_draw internal
  rw [heq] at halloc
  obtain ⟨rfl, rfl⟩ := Prod.mk.inj halloc
  refine ⟨⟨?_, hdraw.drawn h.counter h.drawn, h.nodup, ?_, h.len, h.inMemory, h.pages, h.eager,
    h.noEager⟩, ⟨Finset.mem_insert_self _ _, ?_⟩, ?_, hdraw.fresh, rfl, rfl, rfl, rfl, rfl, rfl⟩
  · have := h.counter
    have := hdraw.counter
    show 16 ≤ next
    omega
  · exact fun b hb => Finset.mem_insert_of_mem (h.used b hb)
  · exact fun hmem => hdraw.fresh (h.used _ hmem)
  · cases internal with
    | true => exact testBit_internalBid c
    | false => exact testBit_externalBid c

theorem Layout.Inv.allocated {l : Layout} (h : l.Inv) (internal : Bool) :
    l.Allocated (l.allocBid internal).2 (l.allocBid internal).1 internal := h.allocBid rfl

/-! ## Writing to the temp file -/

/-- The handle stands where `file_pos` says. -/
def EagerWriteCtx.Synced (e : EagerWriteCtx) : Prop := e.file.pos = e.filePos

/-- From `e` to `e'` the writer wrote inside the given regions and moved nothing else. -/
structure EagerWriteCtx.Wrote (e e' : EagerWriteCtx) (rs : List (Nat × Nat)) : Prop where
  cursor : e'.cursor = e.cursor
  amapPages : e'.amapPages = e.amapPages
  amapPageOffsets : e'.amapPageOffsets = e.amapPageOffsets
  synced : e.Synced → e'.Synced
  frame : e.Synced → ∀ off cells, (∀ r ∈ rs, Apart (off, cells.length) r) →
    Holds e.file.bytes off cells → Holds e'.file.bytes off cells

namespace EagerWriteCtx.Wrote

variable {e e' e'' : EagerWriteCtx} {rs rs' : List (Nat × Nat)}

theorem refl (e : EagerWriteCtx) : e.Wrote e [] := ⟨rfl, rfl, rfl, id, fun _ _ _ _ h => h⟩

theorem trans (h : e.Wrote e' rs) (h' : e'.Wrote e'' rs') : e.Wrote e'' (rs ++ rs') where
  cursor := h'.cursor.trans h.cursor
  amapPages := h'.amapPages.trans h.amapPages
  amapPageOffsets := h'.amapPageOffsets.trans h.amapPageOffsets
  synced := fun hs => h'.synced (h.synced hs)
  frame := by
    intro hs off cells hapart hholds
    apply h'.frame (h.synced hs) off cells (fun r hr => hapart r (by simp [hr]))
    exact h.frame hs off cells (fun r hr => hapart r (by simp [hr])) hholds

end EagerWriteCtx.Wrote

section

variable {file file' : TempFile} {offset filePos filePos' : Nat} {data : Bytes} {r : Result Unit}

theorem positionedWriteAll_ok_iff (file : TempFile) (offset filePos : Nat) (data : Bytes) :
    (positionedWriteAll file offset data filePos).1 = .ok () ↔ file.faults.headD false = false := by
  unfold positionedWriteAll
  split
  · rename_i hfault
    rw [hfault]
    exact iff_of_false (fun h => by cases h) (fun h => by cases h)
  · rename_i hfault
    exact iff_of_true rfl (Bool.eq_false_iff.mpr hfault)

theorem positionedWriteAll_faults (file : TempFile) (offset filePos : Nat) (data : Bytes) :
    (positionedWriteAll file offset data filePos).2.1.faults = file.faults.tail := by
  unfold positionedWriteAll
  split <;> rfl

theorem positionedWriteAll_eq_ok
    (h : positionedWriteAll file offset data filePos = (.ok (), file', filePos'))
    (hsync : file.pos = filePos) :
    file'.pos = filePos' ∧ file'.bytes = overwrite 0 file.bytes offset data := by
  unfold positionedWriteAll at h
  split at h
  · cases h
  · -- the handle already stands at the offset, or is moved there
    have hat : (if filePos = offset then file.pos else offset) = offset := by
      split
      · omega
      · rfl
    rw [hat] at h
    cases h
    exact ⟨rfl, rfl⟩

theorem wrote_positionedWriteAll {e : EagerWriteCtx}
    (h : positionedWriteAll e.file offset data e.filePos = (.ok (), file', filePos')) :
    e.Wrote { e with file := file', filePos := filePos' } [(offset, data.length)] := by
  refine ⟨rfl, rfl, rfl, fun hs => (positionedWriteAll_eq_ok h hs).1, ?_⟩
  intro hs off cells hapart hholds
  show Holds file'.bytes off cells
  rw [(positionedWriteAll_eq_ok h hs).2]
  exact hholds.overwrite (hapart _ (mem_singleton_self _))

end

section

variable [Crc32fast] {e e' : EagerWriteCtx}

theorem length_pageTrailer (ptype off bid : Nat) (body : Bytes) :
    (pageTrailer ptype off bid body).length = 16 := by
  simp only [pageTrailer, length_append, length_leBytes]

theorem length_amapPage (off bid : Nat) : (amapPage off bid).length = pageSize := by
  rw [amapPage, length_append, length_replicate, length_pageTrailer]
  rfl

theorem writeStubs_eq_ok {pages : List PageEntry} (h : writeStubs pages e = (.ok (), e')) :
    e.Wrote e' (pages.map pageRegion) ∧ e'.stubbedUpto = e.stubbedUpto + pages.length := by
  induction pages generalizing e with
  | nil =>
    cases h
    exact ⟨.refl _, rfl⟩
  | cons page rest ih =>
    rw [writeStubs] at h
    split at h
    · obtain ⟨hw, hup⟩ := ih h
      refine ⟨⟨hw.cursor, hw.amapPages, hw.amapPageOffsets, hw.synced, ?_⟩, ?_⟩
      · intro hs off cells hapart
        exact hw.frame hs off cells fun r hr => hapart r (mem_cons_of_mem _ hr)
      · rw [hup, length_cons]
        show e.stubbedUpto + 1 + rest.length = _
        omega
    · split at h
      · cases h
      · rename_i file' filePos' hwrite
        have hfirst := wrote_positionedWriteAll hwrite
        rw [length_amapPage] at hfirst
        obtain ⟨hw, hup⟩ := ih h
        refine ⟨⟨hw.cursor, hw.amapPages, hw.amapPageOffsets, ?_, ?_⟩, ?_⟩
        · exact fun hs => hw.synced (hfirst.synced hs)
        · intro hs off cells hapart hholds
          apply hw.frame (hfirst.synced hs) off cells fun r hr =>
            hapart r (mem_cons_of_mem _ hr)
          apply hfirst.frame hs off cells _ hholds
          intro r hr
          rw [List.mem_singleton.mp hr]
          exact hapart _ mem_cons_self
        · rw [hup, length_cons]
          show e.stubbedUpto + 1 + rest.length = _
          omega

end

/-! ## Pushing a leaf -/

section

variable [Crc32fast]

@[simp] theorem length_encodeBlock (bid : Nat) (data : Bytes) :
    (encodeBlock bid data).length = blockSize data.length := by
  simp only [encodeBlock, length_append, length_resize, length_leBytes, length_cons,
    length_nil, blockSize]

structure LeafWritten (l : Layout) (e e' : EagerWriteCtx) (bid : Nat) (data : Bytes) (offset : Nat)
    (book : AmapBook) : Prop where
  place : amapPlaceRegion e.cursor (blockSize data.length) blockAlign
    ⟨e.amapPages, e.amapPageOffsets, l.usedBids, l.nextBidCounter⟩ = .ok (offset, e'.cursor, book)
  amapPages : e'.amapPages = book.pages
  amapPageOffsets : e'.amapPageOffsets = book.offsets
  stubs : e'.amapPages.length ≤ e'.stubbedUpto
  synced : e.Synced → e'.Synced
  holds : e.Synced → Holds e'.file.bytes offset (encodeBlock bid data)
  frame : e.Synced → ∀ off cells, (∀ p ∈ e'.amapPages, Apart (off, cells.length) (pageRegion p)) →
    Apart (off, cells.length) (offset, blockSize data.length) →
    Holds e.file.bytes off cells → Holds e'.file.bytes off cells

variable {l l' : Layout} {e e' : EagerWriteCtx} {bid offset : Nat} {data : Bytes}

theorem placeAndWriteBlock_eq_ok (h : l.placeAndWriteBlock e bid data = (.ok offset, l', e')) :
    ∃ book, LeafWritten l e e' bid data offset book ∧
      l' = { l with usedBids := book.usedBids, nextBidCounter := book.nextBid } := by
  unfold Layout.placeAndWriteBlock at h
  split at h
  · cases h
  · rename_i offset' cursor book hplace
    simp only at h
    generalize hmid : { e with
      cursor := cursor, amapPages := book.pages, amapPageOffsets := book.offsets } = mid at h
    have hcursor : mid.cursor = cursor := by rw [← hmid]
    have hpages : mid.amapPages = book.pages := by rw [← hmid]
    have hoffsets : mid.amapPageOffsets = book.offsets := by rw [← hmid]
    have hupto : mid.stubbedUpto = e.stubbedUpto := by rw [← hmid]
    have hfile : mid.file = e.file := by rw [← hmid]
    have hsync : e.Synced → mid.Synced := fun hs => by rw [← hmid]; exact hs
    split at h
    · cases h
    · rename_i after hstubs
      obtain ⟨hwrote, hup⟩ := writeStubs_eq_ok hstubs
      split at h
      · cases h
      · rename_i file' filePos' hwrite
        have hblock := wrote_positionedWriteAll hwrite
        rw [length_encodeBlock] at hblock
        have hall := hwrote.trans hblock
        cases h
        refine ⟨book, ⟨?_, ?_, ?_, ?_, ?_, ?_, ?_⟩, rfl⟩
        · rw [hplace]
          show _ = Except.ok (offset, after.cursor, book)
          rw [hwrote.cursor, hcursor]
        · exact hwrote.amapPages.trans hpages
        · exact hwrote.amapPageOffsets.trans hoffsets
        · show after.amapPages.length ≤ after.stubbedUpto
          rw [hwrote.amapPages, hpages, hup, hupto, length_drop]
          omega
        · exact fun hs => hall.synced (hsync hs)
        · intro hs
          have hbytes := (positionedWriteAll_eq_ok hwrite (hwrote.synced (hsync hs))).2
          show Holds file'.bytes offset _
          rw [hbytes]
          exact holds_overwrite
        · intro hs off cells hslots hregion hholds
          apply hall.frame (hsync hs) off cells _ (by rw [hfile]; exact hholds)
          intro r hr
          rcases List.mem_append.mp hr with hr | hr
          · obtain ⟨p, hp, rfl⟩ := List.mem_map.mp hr
            apply hslots p
            show p ∈ after.amapPages
            rw [hwrote.amapPages, hpages]
            exact mem_of_mem_drop hp
          · rw [List.mem_singleton.mp hr]
            exact hregion

theorem placeAndWriteBlock_eager {r : Result Nat}
    (h : l.placeAndWriteBlock e bid data = (r, l', e')) : l'.eager = l.eager := by
  unfold Layout.placeAndWriteBlock at h
  split at h
  · cases h
    rfl
  · simp only at h
    split at h
    · cases h
      rfl
    · split at h <;> cases h <;> rfl

theorem pushLeafBlock_cases (he : l.eager = some e) (bid : Nat) (data : Bytes) :
    (∃ err l', l.pushLeafBlock bid data = (.error err, l') ∧ l'.eager = none) ∨
    (∃ e' offset book, LeafWritten l e e' bid data offset book ∧ l.pushLeafBlock bid data = (.ok (), { l with
        usedBids := book.usedBids
        nextBidCounter := book.nextBid
        blocks := l.blocks ++ [.spilled bid offset data.length]
        eager := some e' })) := by
  unfold Layout.pushLeafBlock
  rw [he]
  rcases hplace : { l with eager := none }.placeAndWriteBlock e bid data with ⟨_ | offset, l', e'⟩
    <;> simp only [hplace]
  · exact Or.inl ⟨_, _, rfl, placeAndWriteBlock_eager hplace⟩
  · obtain ⟨book, hw, rfl⟩ := placeAndWriteBlock_eq_ok hplace
    exact Or.inr ⟨e', offset, book,
      ⟨hw.place, hw.amapPages, hw.amapPageOffsets, hw.stubs, hw.synced, hw.holds, hw.frame⟩, rfl⟩

theorem LeafWritten.placed {book : AmapBook} {spilled : List BlockEntry}
    (h : LeafWritten l e e' bid data offset book) (he : EagerInv e spilled)
    (hlen : data.length ≤ maxBlockData) : ∃ added, Placed e.cursor (blockSize data.length) blockAlign
      ⟨e.amapPages, e.amapPageOffsets, l.usedBids, l.nextBidCounter⟩ offset e'.cursor book added := by
  obtain ⟨_, _, _, added, hplace, hplaced⟩ := amapPlaceRegion_spec (by decide)
    (Nat.dvd_refl blockAlign) (blockSize_pos data.length) (blockSize_le_maxRegion hlen) he.clear
    (he.booked l.usedBids l.nextBidCounter)
  rw [h.place] at hplace
  cases hplace
  exact ⟨added, hplaced⟩

end

/-! ## Each operation keeps the invariant -/

theorem nodup_bids_snoc {bs rest : List Nat} {bid : Nat} (h : (bs ++ rest).Nodup)
    (hfresh : bid ∉ bs ++ rest) : (bs ++ [bid] ++ rest).Nodup := by
  rw [append_assoc, singleton_append, List.perm_middle.nodup_iff, nodup_cons]
  exact ⟨hfresh, h⟩

namespace Layout

variable {l l' : Layout} {bid : Nat} {data : Bytes}

theorem bids_inMemory (l : Layout) (b : BlockEntry) : Layout.bids { l with blocks := l.blocks ++ [b] }
      = l.blocks.map BlockEntry.bid ++ [b.bid] ++
        (l.pages.map PageEntry.bid ++ l.amapPages.map PageEntry.bid) := by
  show (l.blocks ++ [b]).map BlockEntry.bid ++ l.pages.map PageEntry.bid ++ _ = _
  rw [map_append, map_singleton, append_assoc]
  rfl

theorem mem_bids_of_mem_snoc {b : BlockEntry} {x : Nat}
    (h : x ∈ Layout.bids { l with blocks := l.blocks ++ [b] }) : x = b.bid ∨ x ∈ l.bids := by
  rw [bids_inMemory] at h
  unfold Layout.bids
  simp only [mem_append, mem_singleton] at h ⊢
  tauto

theorem spilled_inMemory (l : Layout) (bid : Nat) (data : Bytes) :
    Layout.spilled { l with blocks := l.blocks ++ [.inMemory bid data] } = l.spilled := by
  show (l.blocks ++ [BlockEntry.inMemory bid data]).filter BlockEntry.onDisk = _
  rw [filter_append, filter_cons_of_neg Bool.false_ne_true, filter_nil, append_nil]
  rfl

theorem Inv.pushInMemory (h : l.Inv) (hfresh : l.Fresh bid) (hlen : data.length ≤ maxBlockData) :
    Layout.Inv { l with blocks := l.blocks ++ [.inMemory bid data] } where
  counter := h.counter
  drawn := h.drawn
  nodup := by
    have hnodup := h.nodup
    have hunnamed := hfresh.unnamed
    rw [bids_inMemory]
    unfold Layout.bids at hnodup hunnamed
    rw [append_assoc] at hnodup hunnamed
    exact nodup_bids_snoc hnodup hunnamed
  used := by
    intro b hb
    rcases mem_bids_of_mem_snoc hb with rfl | hb
    · exact hfresh.used
    · exact h.used b hb
  len := by
    intro b hb
    rcases List.mem_append.mp hb with hb | hb
    · exact h.len b hb
    · rw [List.mem_singleton.mp hb]
      exact hlen
  inMemory := by
    intro b hb hdisk
    rcases List.mem_append.mp hb with hb | hb
    · exact h.inMemory b hb hdisk
    · rw [List.mem_singleton.mp hb]
      exact ⟨rfl, rfl⟩
  pages := h.pages
  eager := by
    intro e he
    rw [spilled_inMemory]
    exact h.eager e he
  noEager := by
    intro he
    rw [spilled_inMemory]
    exact h.noEager he

theorem Inv.pushPage (h : l.Inv) (hfresh : l.Fresh bid) (ptype : Nat) :
    Layout.Inv { l with pages := l.pages ++ [⟨bid, ptype, 0⟩] } where
  counter := h.counter
  drawn := h.drawn
  nodup := by
    have hnodup := h.nodup
    have hunnamed := hfresh.unnamed
    show (l.blocks.map BlockEntry.bid ++ (l.pages ++ [PageEntry.mk bid ptype 0]).map PageEntry.bid
      ++ _).Nodup
    rw [map_append, map_singleton, ← append_assoc]
    exact nodup_bids_snoc hnodup hunnamed
  used := by
    intro b hb
    unfold Layout.bids at hb
    simp only [map_append, map_singleton, mem_append, mem_singleton] at hb
    by_cases hbid : b = bid
    · rw [hbid]
      exact hfresh.used
    · apply h.used
      unfold Layout.bids
      simp only [mem_append]
      simp only [hbid, or_false] at hb
      exact hb
  len := h.len
  inMemory := h.inMemory
  pages := by
    intro p hp
    rcases List.mem_append.mp hp with hp | hp
    · exact h.pages p hp
    · rw [List.mem_singleton.mp hp]
  eager := h.eager
  noEager := h.noEager

variable [Crc32fast]

theorem Inv.spillLeaf {e e' : EagerWriteCtx} {offset : Nat} {book : AmapBook} (h : l.Inv)
    (he : l.eager = some e) (hfresh : l.Fresh bid) (hlen : data.length ≤ maxBlockData)
    (hw : LeafWritten l e e' bid data offset book) : Layout.Inv { l with
      usedBids := book.usedBids
      nextBidCounter := book.nextBid
      blocks := l.blocks ++ [.spilled bid offset data.length]
      eager := some e' } := by
  have hinv := h.eager e he
  obtain ⟨added, hp⟩ := hw.placed hinv hlen
  have hamap : l.amapPages = e.amapPages := by
    unfold Layout.amapPages
    rw [he]
    rfl
  have hpages : e'.amapPages = e.amapPages ++ added := hw.amapPages.trans hp.grows.pages
  have hnew : l.spilled ++ [BlockEntry.spilled bid offset data.length]
      = (l.blocks ++ [BlockEntry.spilled bid offset data.length]).filter BlockEntry.onDisk := by
    rw [filter_append]
    rfl
  have hunused : ∀ p ∈ added, p.bid ∉ l.bids ++ [bid] := by
    intro p hpadd hmem
    apply hp.grows.fresh p hpadd
    rcases List.mem_append.mp hmem with hmem | hmem
    · exact h.used _ hmem
    · rw [List.mem_singleton.mp hmem]
      exact hfresh.used
  have hperm : (l.bids ++ [bid] ++ added.map PageEntry.bid).Perm
      ((l.blocks ++ [BlockEntry.spilled bid offset data.length]).map BlockEntry.bid ++
        l.pages.map PageEntry.bid ++ e'.amapPages.map PageEntry.bid) := by
    unfold Layout.bids
    rw [hpages, hamap, map_append, map_append, ← append_assoc]
    apply Perm.append_right
    rw [append_assoc, append_assoc, append_assoc, append_assoc]
    apply Perm.append_left
    rw [← append_assoc]
    exact perm_append_comm
  refine ⟨?_, ?_, ?_, ?_, ?_, ?_, h.pages, ?_, fun hnone => by cases hnone⟩
  · exact h.counter.trans hp.grows.counter
  · exact hp.grows.drawn h.counter h.drawn
  · refine hperm.nodup_iff.mp ?_
    rw [nodup_append]
    refine ⟨?_, hp.grows.nodup, ?_⟩
    · rw [nodup_append]
      refine ⟨h.nodup, nodup_singleton _, fun a ha b hb hab => hfresh.unnamed ?_⟩
      rw [← List.mem_singleton.mp hb, ← hab]
      exact ha
    · rintro a ha b hb rfl
      obtain ⟨p, hpadd, rfl⟩ := List.mem_map.mp hb
      exact hunused p hpadd ha
  · intro b hb
    rw [hp.grows.used]
    rcases List.mem_append.mp (hperm.mem_iff.mpr hb) with hb | hb
    · rcases List.mem_append.mp hb with hb | hb
      · exact Or.inl (h.used b hb)
      · rw [List.mem_singleton.mp hb]
        exact Or.inl hfresh.used
    · exact Or.inr hb
  · intro b hb
    rcases List.mem_append.mp hb with hb | hb
    · exact h.len b hb
    · rw [List.mem_singleton.mp hb]
      exact hlen
  · intro b hb hdisk
    rcases List.mem_append.mp hb with hb | hb
    · exact h.inMemory b hb hdisk
    · rw [List.mem_singleton.mp hb] at hdisk
      cases hdisk
  · rintro e'' ⟨rfl⟩
    unfold Layout.spilled
    rw [← hnew]
    refine ⟨hp.clear, fun used next => ?_, ?_, ?_, hw.stubs⟩
    · rw [hw.amapPages, hw.amapPageOffsets]
      exact ⟨hp.booked.below, hp.booked.slots, hp.booked.pages, hp.booked.nodup, hp.booked.ptype⟩
    · rw [map_append]
      refine hinv.laid.append (.cons hp.after (.nil ?_))
      exact Nat.le_of_eq hp.stop.symm
    · intro b hb
      rcases List.mem_append.mp hb with hb | hb
      · exact hinv.placed b hb
      · rw [List.mem_singleton.mp hb]
        exact ⟨hp.avoids, hp.aligned⟩

theorem Inv.pushLeaf (h : l.Inv) (hfresh : l.Fresh bid) (hlen : data.length ≤ maxBlockData)
    (hpush : l.pushLeafBlock bid data = (.ok (), l')) : l'.Inv := by
  cases he : l.eager with
  | none =>
    unfold Layout.pushLeafBlock at hpush
    rw [he] at hpush
    cases hpush
    rw [← he]
    exact h.pushInMemory hfresh hlen
  | some e =>
    rcases pushLeafBlock_cases he bid data with ⟨_, _, herr, _⟩ | ⟨e', offset, book, hw, hok⟩
    · rw [hpush] at herr
      cases herr
    · rw [hpush] at hok
      cases hok
      exact h.spillLeaf he hfresh hlen hw

end Layout

def Layout.NidsOnce (l : Layout) : Prop :=
  (l.nodes.map NodeEntry.nid).Nodup ∧ ∀ n ∈ l.nodes, n.nid ∈ l.usedNids

theorem Layout.NidsOnce.congr (h : l.NidsOnce) (hnodes : l'.nodes = l.nodes)
    (hnids : l'.usedNids = l.usedNids) : l'.NidsOnce := by
  unfold Layout.NidsOnce
  rw [hnodes, hnids]
  exact h

/-! ## Runs -/

section

variable [Crc32fast]

/-- One operation of the writer that succeeds. Every payload fits in one block. -/
inductive Step : Layout → Layout → Prop where
  | leaf {l l₁ l₂ : Layout} {bid : Nat} {data : Bytes} (hlen : data.length ≤ maxBlockData)
      (halloc : l.allocBid false = (bid, l₁)) (hpush : l₁.pushLeafBlock bid data = (.ok (), l₂)) : Step l l₂
  | block {l l₁ : Layout} {bid : Nat} {data : Bytes} (internal : Bool)
      (hlen : data.length ≤ maxBlockData) (halloc : l.allocBid internal = (bid, l₁)) :
      Step l { l₁ with blocks := l₁.blocks ++ [.inMemory bid data] }
  | page (l : Layout) (ptype : Nat) : Step l (l.reservePage ptype).2
  | node (l : Layout) (node : NodeEntry) (hnid : node.nid ∉ l.usedNids) :
      Step l { l with nodes := l.nodes ++ [node], usedNids := insert node.nid l.usedNids }

abbrev Steps : Layout → Layout → Prop := Relation.ReflTransGen Step

/-- By operations that succeed, from a layout in memory or with a writer. -/
inductive Reachable : Layout → Prop where
  | inRam {l : Layout} (h : Steps .new l) : Reachable l
  | eager {l : Layout} (faults : List Bool)
      (h : Steps (Layout.new.attachEager (EagerWriteCtx.create faults)) l) : Reachable l

variable {l l' : Layout}

theorem Layout.Inv.step (h : l.Inv) (hstep : Step l l') : l'.Inv := by
  cases hstep with
  | leaf hlen halloc hpush =>
    have ha := h.allocBid halloc
    exact ha.inv.pushLeaf ha.fresh hlen hpush
  | block internal hlen halloc =>
    have ha := h.allocBid halloc
    exact ha.inv.pushInMemory ha.fresh hlen
  | page ptype =>
    have ha := h.allocated true
    exact ha.inv.pushPage ha.fresh ptype
  | node node hnid => exact ⟨h.1, h.2, h.3, h.4, h.5, h.6, h.7, h.8, h.9⟩

theorem Layout.Inv.steps (h : l.Inv) (hsteps : Steps l l') : l'.Inv := by
  induction hsteps with
  | refl => exact h
  | tail _ hstep ih => exact ih.step hstep

theorem Reachable.inv (h : Reachable l) : l.Inv := by
  cases h with
  | inRam h => exact Layout.inv_new.steps h
  | eager faults h => exact (Layout.inv_attachEager faults).steps h

theorem Reachable.steps (h : Reachable l) (hsteps : Steps l l') : Reachable l' := by
  cases h with
  | inRam h => exact .inRam (h.trans hsteps)
  | eager faults h => exact .eager faults (h.trans hsteps)

theorem Layout.Inv.pushLeafBlock_orphan {bid : Nat} {data : Bytes} (h : l.Inv)
    (hlen : data.length ≤ maxBlockData) (hpush : l.pushLeafBlock bid data = (.ok (), l')) (s : Nat) :
    l'.Orphan s ↔ l.Orphan s := by
  cases he : l.eager with
  | none =>
    unfold Layout.pushLeafBlock at hpush
    rw [he] at hpush
    cases hpush
    simp [Layout.Orphan, he]
  | some e =>
    rcases pushLeafBlock_cases he bid data with ⟨_, _, herr, _⟩ | ⟨e', offset, book, hw, hok⟩
    · rw [hpush] at herr
      cases herr
    · rw [hpush] at hok
      cases hok
      obtain ⟨added, hp⟩ := hw.placed (h.eager e he) hlen
      have horphan : e'.Orphan s ↔ e.Orphan s := by
        unfold EagerWriteCtx.Orphan
        rw [hw.amapPages, hw.amapPageOffsets]
        exact hp.orphans s
      simp [Layout.Orphan, he, horphan]

theorem Layout.Inv.step_orphan (h : l.Inv) (hstep : Step l l') (s : Nat) : l'.Orphan s ↔ l.Orphan s := by
  cases hstep with
  | leaf hlen halloc hpush =>
    have ha := h.allocBid halloc
    exact (ha.inv.pushLeafBlock_orphan hlen hpush s).trans (Layout.orphan_congr ha.eager s)
  | block internal hlen halloc =>
    exact Layout.orphan_congr (h.allocBid halloc).eager s
  | page ptype => exact Layout.orphan_congr rfl s
  | node node hnid => exact Layout.orphan_congr rfl s

theorem Layout.Inv.steps_orphan (h : l.Inv) (hsteps : Steps l l') (s : Nat) : l'.Orphan s ↔ l.Orphan s := by
  induction hsteps with
  | refl => exact Iff.rfl
  | tail hsteps hstep ih => exact ((h.steps hsteps).step_orphan hstep s).trans ih

theorem Reachable.not_orphan (h : Reachable l) (s : Nat) : ¬ l.Orphan s := by
  cases h with
  | inRam h =>
    rw [Layout.inv_new.steps_orphan h]
    rintro ⟨e, he, _⟩
    cases he
  | eager faults h =>
    rw [(Layout.inv_attachEager faults).steps_orphan h]
    rintro ⟨e, he, hs⟩
    obtain rfl : EagerWriteCtx.create faults = e := Option.some.inj he
    exact absurd hs.1 (Finset.notMem_empty s)

/-! ## What a layout stores -/

/-- A block of the layout holds the data, in memory or in the temp file. -/
def Layout.Stores (l : Layout) (bid : Nat) (data : Bytes) : Prop :=
  ∃ b ∈ l.blocks, b.bid = bid ∧ b.len = data.length ∧ (b.onDisk = false → b.data = data) ∧
    (b.onDisk = true → ∃ e, l.eager = some e ∧ Holds e.file.bytes b.offset (encodeBlock bid data))

def Layout.Synced (l : Layout) : Prop := ∀ e, l.eager = some e → e.Synced

variable {bid bid' : Nat} {data data' : Bytes}

theorem Layout.Stores.of_blocks_eq (h : l.Stores bid data) (hblocks : l'.blocks = l.blocks)
    (heager : l'.eager = l.eager) : l'.Stores bid data := by
  unfold Layout.Stores
  rw [hblocks, heager]
  exact h

theorem Layout.Stores.pushInMemory (h : l.Stores bid data) :
    Layout.Stores { l with blocks := l.blocks ++ [.inMemory bid' data'] } bid data := by
  obtain ⟨b, hb, hrest⟩ := h
  exact ⟨b, mem_append_left _ hb, hrest⟩

theorem Layout.stores_inMemory (l : Layout) (bid : Nat) (data : Bytes) :
    Layout.Stores { l with blocks := l.blocks ++ [.inMemory bid data] } bid data :=
  ⟨.inMemory bid data, mem_append_right _ (mem_singleton_self _), rfl, rfl, fun _ => rfl,
    fun h => by cases h⟩

theorem Layout.Inv.pushLeaf_stores (h : l.Inv) (hsync : l.Synced) (hlen : data.length ≤ maxBlockData)
    (hpush : l.pushLeafBlock bid data = (.ok (), l')) : l'.Synced ∧ l'.Stores bid data ∧
      ∀ bid' data', l.Stores bid' data' → l'.Stores bid' data' := by
  cases he : l.eager with
  | none =>
    unfold Layout.pushLeafBlock at hpush
    rw [he] at hpush
    cases hpush
    rw [← he]
    exact ⟨hsync, l.stores_inMemory bid data, fun _ _ hstores => hstores.pushInMemory⟩
  | some e =>
    rcases pushLeafBlock_cases he bid data with ⟨_, _, herr, _⟩ | ⟨e', offset, book, hw, hok⟩
    · rw [hpush] at herr
      cases herr
    · rw [hpush] at hok
      cases hok
      have hinv := h.eager e he
      have hes := hsync e he
      obtain ⟨added, hp⟩ := hw.placed hinv hlen
      refine ⟨fun e'' he'' => ?_, ?_, fun bid' data' hstores => ?_⟩
      · obtain rfl : e' = e'' := Option.some.inj he''
        exact hw.synced hes
      · exact ⟨.spilled bid offset data.length, mem_append_right _ (mem_singleton_self _),
          rfl, rfl, fun hd => (nomatch hd), fun _ => ⟨e', rfl, hw.holds hes⟩⟩
      · obtain ⟨b, hb, hbid, hblen, hram, hdisk⟩ := hstores
        refine ⟨b, mem_append_left _ hb, hbid, hblen, hram, fun hd => ⟨e', rfl, ?_⟩⟩
        obtain ⟨e₀, he₀, hholds⟩ := hdisk hd
        obtain rfl : e = e₀ := Option.some.inj (he.symm.trans he₀)
        have hspilled : b ∈ l.spilled := List.mem_filter.mpr ⟨hb, hd⟩
        have hregion : (b.offset, (encodeBlock bid' data').length) = blockRegion b := by
          rw [length_encodeBlock, ← hblen]
          rfl
        apply hw.frame hes b.offset _ _ _ hholds
        · intro p hpmem
          rw [hw.amapPages] at hpmem
          have hslot := hp.booked.slots _ (hp.booked.pages _ (mem_map_of_mem hpmem)).1
          rw [hregion]
          exact (hinv.placed b hspilled).1 p.offset hslot
        · have hbelow := (hinv.laid.mem (mem_map_of_mem hspilled)).2
          rw [hregion]
          exact Or.inl (hbelow.trans hp.after)

theorem Layout.Inv.step_stores (h : l.Inv) (hsync : l.Synced) (hstep : Step l l') :
    l'.Synced ∧ ∀ bid data, l.Stores bid data → l'.Stores bid data := by
  cases hstep with
  | leaf hlen halloc hpush =>
    have ha := h.allocBid halloc
    have hsync₁ : Layout.Synced _ := fun e he => hsync e (ha.eager ▸ he)
    obtain ⟨hsync', _, hkeep⟩ := ha.inv.pushLeaf_stores hsync₁ hlen hpush
    exact ⟨hsync', fun bid data hs => hkeep bid data (hs.of_blocks_eq ha.blocks ha.eager)⟩
  | block internal hlen halloc =>
    have ha := h.allocBid halloc
    exact ⟨fun e he => hsync e (ha.eager ▸ he), fun bid data hs =>
      (hs.of_blocks_eq ha.blocks ha.eager).pushInMemory⟩
  | page ptype => exact ⟨hsync, fun bid data hs => hs⟩
  | node node hnid => exact ⟨hsync, fun bid data hs => hs⟩

theorem Layout.Inv.steps_stores (h : l.Inv) (hsync : l.Synced) (hsteps : Steps l l') :
    l'.Synced ∧ ∀ bid data, l.Stores bid data → l'.Stores bid data := by
  induction hsteps with
  | refl => exact ⟨hsync, fun _ _ hs => hs⟩
  | tail hsteps hstep ih =>
    obtain ⟨hsync', hkeep⟩ := (h.steps hsteps).step_stores ih.1 hstep
    exact ⟨hsync', fun bid data hs => hkeep bid data (ih.2 bid data hs)⟩

theorem Reachable.synced (h : Reachable l) : l.Synced := by
  cases h with
  | inRam h => exact (Layout.inv_new.steps_stores (fun e he => by cases he) h).1
  | eager faults h =>
    apply ((Layout.inv_attachEager faults).steps_stores (fun e he => ?_) h).1
    obtain rfl : EagerWriteCtx.create faults = e := Option.some.inj he
    rfl

theorem pushLeafBlock_nodes (hpush : l.pushLeafBlock bid data = (.ok (), l')) :
    l'.nodes = l.nodes ∧ l'.usedNids = l.usedNids := by
  cases he : l.eager with
  | none =>
    unfold Layout.pushLeafBlock at hpush
    rw [he] at hpush
    cases hpush
    exact ⟨rfl, rfl⟩
  | some e =>
    rcases pushLeafBlock_cases he bid data with ⟨_, _, herr, _⟩ | ⟨_, _, _, _, hok⟩
    · rw [hpush] at herr
      cases herr
    · rw [hpush] at hok
      cases hok
      exact ⟨rfl, rfl⟩

theorem Layout.NidsOnce.step (h : l.NidsOnce) (hinv : l.Inv) (hstep : Step l l') : l'.NidsOnce := by
  cases hstep with
  | leaf hlen halloc hpush =>
    have ha := hinv.allocBid halloc
    have hp := pushLeafBlock_nodes hpush
    exact h.congr (hp.1.trans ha.nodes) (hp.2.trans ha.usedNids)
  | block internal hlen halloc =>
    have ha := hinv.allocBid halloc
    exact h.congr ha.nodes ha.usedNids
  | page ptype => exact h
  | node node hnid =>
    refine ⟨?_, fun n hn => ?_⟩
    · rw [map_append, map_singleton, nodup_append]
      refine ⟨h.1, nodup_singleton _, fun a ha b hb hab => hnid ?_⟩
      obtain ⟨n, hn, rfl⟩ := List.mem_map.mp ha
      rw [← List.mem_singleton.mp hb, ← hab]
      exact h.2 n hn
    · rcases List.mem_append.mp hn with hn | hn
      · exact Finset.mem_insert_of_mem (h.2 n hn)
      · rw [List.mem_singleton.mp hn]
        exact Finset.mem_insert_self _ _

theorem Layout.NidsOnce.steps (h : l.NidsOnce) (hinv : l.Inv) (hsteps : Steps l l') : l'.NidsOnce := by
  induction hsteps with
  | refl => exact h
  | tail hsteps hstep ih => exact ih.step (hinv.steps hsteps) hstep

theorem Reachable.nidsOnce (h : Reachable l) : l.NidsOnce := by
  cases h with
  | inRam h =>
    have hnone : Layout.new.NidsOnce := ⟨.nil, fun n hn => by cases hn⟩
    exact hnone.steps Layout.inv_new h
  | eager faults h =>
    have hnone : (Layout.new.attachEager (EagerWriteCtx.create faults)).NidsOnce :=
      ⟨.nil, fun n hn => by cases hn⟩
    exact hnone.steps (Layout.inv_attachEager faults) h

end

end PstWriter
