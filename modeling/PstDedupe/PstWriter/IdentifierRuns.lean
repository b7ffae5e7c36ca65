import PstDedupe.PstWriter.FolderPlan
import PstDedupe.PstWriter.LayoutRuns

/-!
# Identifiers stay distinct

What an operation draws is recorded in `Draws`: new BIDs that were unused, of the kind they were
drawn for.
-/

namespace PstWriter

open Rust Foundations List Prod

/-! ## AMap pages draw internal BIDs -/

structure AmapBook.Registers (book book' : AmapBook) (added : List PageEntry) : Prop where
  grows : book.Extends book' added
  kind : ∀ p ∈ added, p.bid.testBit 1 = true

namespace AmapBook.Registers

variable {book book' book'' : AmapBook} {added added' : List PageEntry}

theorem refl (book : AmapBook) : book.Registers book [] := ⟨.refl book, fun _ h => (nomatch h)⟩

theorem trans (h : book.Registers book' added) (h' : book'.Registers book'' added') :
    book.Registers book'' (added ++ added') where
  grows := h.grows.trans h'.grows
  kind := fun p hp => (List.mem_append.mp hp).elim (h.kind p) (h'.kind p)

end AmapBook.Registers

theorem amapEnsurePage_registers (off : Nat) (book : AmapBook) :
    ∃ added, book.Registers (amapEnsurePage off book) added := by
  by_cases hmem : off ∈ book.offsets
  · rw [amapEnsurePage_of_mem hmem]
    exact ⟨[], .refl _⟩
  · obtain ⟨page, _, hext⟩ := amapEnsurePage_extends hmem
    obtain ⟨c, _, hc, _⟩ := nextFreshBid_draw (Or.inl rfl) book.usedBids book.nextBid
    -- the page at the end of the book is the one that was drawn
    have hlast : book.pages ++ [page] = book.pages ++ [⟨internalBid c, ptypeAmap, off⟩] := by
      rw [← hext.pages, amapEnsurePage, if_neg hmem, hc]
    obtain rfl : page = ⟨internalBid c, ptypeAmap, off⟩ := by simpa using hlast
    refine ⟨_, hext, fun p hp => ?_⟩
    rw [List.mem_singleton.mp hp]
    exact testBit_internalBid c

section

variable {size align : Nat}

theorem amapPlaceLoop_registers {fuel cursor offset : Nat} {book book' : AmapBook}
    (h : amapPlaceLoop size align fuel cursor book = some (offset, book')) :
    ∃ added, book.Registers book' added := by
  induction fuel generalizing cursor book with
  | zero => cases h
  | succ fuel ih =>
    rw [amapPlaceLoop] at h
    -- a round registers a slot and goes on, or leaves with the book it has
    have hround : ∀ off cursor, amapPlaceLoop size align fuel cursor (amapEnsurePage off book)
        = some (offset, book') → ∃ added, book.Registers book' added := by
      intro off cursor hgo
      obtain ⟨first, hfirst⟩ := amapEnsurePage_registers off book
      obtain ⟨rest, hrest⟩ := ih hgo
      exact ⟨_, hfirst.trans hrest⟩
    split at h
    · exact hround _ _ h
    · simp only at h
      split at h
      · split at h
        · cases h
          exact ⟨[], .refl _⟩
        · exact hround _ _ h
      · cases h
        exact ⟨[], .refl _⟩

theorem amapPlaceRegion_registers {cursor offset cursor' : Nat} {book book' : AmapBook}
    (h : amapPlaceRegion cursor size align book = .ok (offset, cursor', book')) :
    ∃ added, book.Registers book' added := by
  unfold amapPlaceRegion at h
  split at h
  · cases h
  · rename_i hloop
    cases h
    exact amapPlaceLoop_registers hloop

end

section

variable {cursor cursor' : Nat} {book book' : AmapBook}

theorem placePages_registers {pages pages' : List PageEntry}
    (h : placePages pages cursor book = .ok (pages', cursor', book')) : (∃ added, book.Registers book' added) ∧
      pages'.map PageEntry.ptype = pages.map PageEntry.ptype := by
  induction pages generalizing cursor book pages' with
  | nil =>
    cases h
    exact ⟨⟨[], .refl _⟩, rfl⟩
  | cons page rest ih =>
    rw [placePages] at h
    split at h
    · obtain ⟨⟨rest', mid, bookMid⟩, hrest, h⟩ := bind_eq_ok.mp h
      cases h
      obtain ⟨hreg, hptype⟩ := ih hrest
      exact ⟨hreg, by rw [map_cons, map_cons, hptype]⟩
    · obtain ⟨⟨offset, mid, bookMid⟩, hplace, h⟩ := bind_eq_ok.mp h
      obtain ⟨⟨rest', last, bookLast⟩, hrest, h⟩ := bind_eq_ok.mp h
      cases h
      obtain ⟨first, hfirst⟩ := amapPlaceRegion_registers hplace
      obtain ⟨⟨more, hmore⟩, hptype⟩ := ih hrest
      exact ⟨⟨_, hfirst.trans hmore⟩, by rw [map_cons, map_cons, hptype]⟩

theorem placeBlocks_registers {blocks blocks' : List BlockEntry}
    (h : placeBlocks blocks cursor book = .ok (blocks', cursor', book')) :
    ∃ added, book.Registers book' added := by
  induction blocks generalizing cursor book blocks' with
  | nil =>
    cases h
    exact ⟨[], .refl _⟩
  | cons block rest ih =>
    rw [placeBlocks] at h
    split at h
    · obtain ⟨⟨rest', mid, bookMid⟩, hrest, h⟩ := bind_eq_ok.mp h
      cases h
      exact ih hrest
    · obtain ⟨⟨offset, mid, bookMid⟩, hplace, h⟩ := bind_eq_ok.mp h
      obtain ⟨⟨rest', last, bookLast⟩, hrest, h⟩ := bind_eq_ok.mp h
      cases h
      obtain ⟨first, hfirst⟩ := amapPlaceRegion_registers hplace
      obtain ⟨more, hmore⟩ := ih hrest
      exact ⟨_, hfirst.trans hmore⟩

theorem ensureBelow_registers {fuel amap fileEnd fileEnd' : Nat}
    (h : ensureBelow fuel amap fileEnd book = some (fileEnd', book')) :
    ∃ added, book.Registers book' added := by
  induction fuel generalizing amap fileEnd book with
  | zero => cases h
  | succ fuel ih =>
    rw [ensureBelow] at h
    split at h
    · obtain ⟨first, hfirst⟩ := amapEnsurePage_registers amap book
      obtain ⟨rest, hrest⟩ := ih h
      exact ⟨_, hfirst.trans hrest⟩
    · cases h
      exact ⟨[], .refl _⟩

theorem ensureAll_registers {fuel fileEnd : Nat} (h : ensureAll fuel fileEnd book = .ok book') :
    ∃ added, book.Registers book' added := by
  induction fuel generalizing fileEnd book with
  | zero => cases h
  | succ fuel ih =>
    rw [ensureAll] at h
    split at h
    · cases h
    · rename_i hbelow
      obtain ⟨first, hfirst⟩ := ensureBelow_registers hbelow
      split at h
      · obtain ⟨rest, hrest⟩ := ih h
        exact ⟨_, hfirst.trans hrest⟩
      · cases h
        exact ⟨first, hfirst⟩

end

/-! ## What an operation draws -/

/-- From `s` to `s'` the BIDs `new` were handed out: unused, different, and of the right kind. -/
structure Draws (s s' : IdState) (new : List (BidKind × Nat)) : Prop where
  bids : s'.bids = s.bids ++ new
  nodup : (new.map snd).Nodup
  fresh : ∀ x ∈ new, x.2 ∉ s.layout.usedBids
  kind : ∀ x ∈ new, (x.2.testBit 1 = true ↔ x.1 ≠ .leaf)
  used : ∀ b, b ∈ s'.layout.usedBids ↔ b ∈ s.layout.usedBids ∨ b ∈ new.map snd

/-- The blocks and AMap pages behind those of `s` carry BIDs drawn since. -/
structure Grows (s s' : IdState) (new : List (BidKind × Nat)) : Prop extends Draws s s' new where
  blocks : ∃ bs, s'.layout.blocks = s.layout.blocks ++ bs ∧ ∀ b ∈ bs, b.bid ∈ new.map snd
  amap : ∀ e', s'.layout.eager = some e' → ∃ e ps, s.layout.eager = some e ∧
    e'.amapPages = e.amapPages ++ ps ∧ ∀ p ∈ ps, p.ptype = ptypeAmap ∧ p.bid ∈ new.map snd

section

variable {s s' s'' : IdState} {new new' : List (BidKind × Nat)}

theorem Draws.trans (h : Draws s s' new) (h' : Draws s' s'' new') : Draws s s'' (new ++ new') where
  bids := by rw [h'.bids, h.bids, append_assoc]
  nodup := by
    rw [map_append, nodup_append]
    refine ⟨h.nodup, h'.nodup, fun a ha b hb hab => ?_⟩
    -- what is drawn later was unused when the first BIDs were in use
    obtain ⟨x, hx, rfl⟩ := List.mem_map.mp hb
    exact h'.fresh x hx ((h.used _).mpr (Or.inr (hab ▸ ha)))
  fresh := by
    intro x hx
    rcases List.mem_append.mp hx with hx | hx
    · exact h.fresh x hx
    · exact fun hmem => h'.fresh x hx ((h.used _).mpr (Or.inl hmem))
  kind := fun x hx => (List.mem_append.mp hx).elim (h.kind x) (h'.kind x)
  used := fun b => by rw [h'.used, h.used, map_append, mem_append, or_assoc]

theorem Grows.refl (s : IdState) : Grows s s [] where
  bids := (append_nil _).symm
  nodup := .nil
  fresh := fun _ h => (nomatch h)
  kind := fun _ h => (nomatch h)
  used := fun b => by simp
  blocks := ⟨[], (append_nil _).symm, fun _ h => (nomatch h)⟩
  amap := fun e he => ⟨e, [], he, (append_nil _).symm, fun _ h => (nomatch h)⟩

theorem Grows.trans (h : Grows s s' new) (h' : Grows s' s'' new') : Grows s s'' (new ++ new') where
  toDraws := h.toDraws.trans h'.toDraws
  blocks := by
    obtain ⟨bs, hbs, hnew⟩ := h.blocks
    obtain ⟨bs', hbs', hnew'⟩ := h'.blocks
    refine ⟨bs ++ bs', by rw [hbs', hbs, append_assoc], fun b hb => ?_⟩
    rw [map_append, mem_append]
    exact (List.mem_append.mp hb).imp (hnew b) (hnew' b)
  amap := by
    intro e'' he''
    obtain ⟨e', ps', he', hps', hnew'⟩ := h'.amap e'' he''
    obtain ⟨e, ps, he, hps, hnew⟩ := h.amap e' he'
    refine ⟨e, ps ++ ps', he, by rw [hps', hps, append_assoc], fun p hp => ?_⟩
    rw [map_append, mem_append]
    rcases List.mem_append.mp hp with hp | hp
    · exact ⟨(hnew p hp).1, Or.inl (hnew p hp).2⟩
    · exact ⟨(hnew' p hp).1, Or.inr (hnew' p hp).2⟩

def pageBids (added : List PageEntry) : List (BidKind × Nat) := added.map fun p => (.page, p.bid)

theorem map_snd_pageBids (added : List PageEntry) :
    (pageBids added).map snd = added.map PageEntry.bid := by
  rw [pageBids, List.map_map]
  rfl

theorem draws_of_registers {book book' : AmapBook} {added : List PageEntry}
    (h : book.Registers book' added) (hbids : s'.bids = s.bids ++ pageBids added)
    (hused : book.usedBids = s.layout.usedBids) (hused' : s'.layout.usedBids = book'.usedBids) :
    Draws s s' (pageBids added) where
  bids := hbids
  nodup := by
    rw [map_snd_pageBids]
    exact h.grows.nodup
  fresh := by
    intro x hx
    obtain ⟨p, hp, rfl⟩ := List.mem_map.mp hx
    exact hused ▸ h.grows.fresh p hp
  kind := by
    intro x hx
    obtain ⟨p, hp, rfl⟩ := List.mem_map.mp hx
    exact iff_of_true (h.kind p hp) (fun hleaf => (nomatch hleaf))
  used := fun b => by rw [hused', h.grows.used, hused, map_snd_pageBids]

theorem draws_allocBid (s : IdState) (internal : Bool) (kind : BidKind)
    (hkind : kind ≠ .leaf ↔ internal = true) : Draws s { s with
      layout := (s.layout.allocBid internal).2
      bids := s.bids ++ [(kind, (s.layout.allocBid internal).1)] }
      [(kind, (s.layout.allocBid internal).1)] := by
  obtain ⟨c, next, _, heq, hdraw⟩ := s.layout.allocBid_draw internal
  rw [heq]
  refine ⟨rfl, nodup_singleton _, ?_, ?_, ?_⟩
  · intro x hx
    rw [List.mem_singleton.mp hx]
    exact hdraw.fresh
  · intro x hx
    rw [List.mem_singleton.mp hx, hkind]
    cases internal with
    | true => exact iff_of_true (testBit_internalBid c) rfl
    | false =>
      show (externalBid c).testBit 1 = true ↔ false = true
      rw [testBit_externalBid]
  · intro b
    show b ∈ insert _ s.layout.usedBids ↔ _
    rw [Finset.mem_insert, map_singleton, mem_singleton, or_comm]

theorem grows_internal (s : IdState) (payload : Bytes) :
    Grows s (s.internal payload) [(.internal, (s.layout.pushInternal payload).1)] where
  toDraws := by
    have h := draws_allocBid s true .internal (by decide)
    exact ⟨h.bids, h.nodup, h.fresh, h.kind, h.used⟩
  blocks := ⟨_, rfl, fun b hb => by
    rw [List.mem_singleton.mp hb]
    exact mem_singleton_self _⟩
  amap := fun e he => ⟨e, [], he, (append_nil _).symm, fun _ h => (nomatch h)⟩

theorem grows_page (s : IdState) (ptype : Nat) :
    Grows s (s.page ptype) [(.page, (s.layout.reservePage ptype).1)] where
  toDraws := by
    have h := draws_allocBid s true .page (by decide)
    exact ⟨h.bids, h.nodup, h.fresh, h.kind, h.used⟩
  blocks := ⟨[], (append_nil _).symm, fun _ h => (nomatch h)⟩
  amap := fun e he => ⟨e, [], he, (append_nil _).symm, fun _ h => (nomatch h)⟩

end

theorem rollback_amapPages {l : Layout} {cp : StreamChainCheckpoint} {e' : EagerWriteCtx}
    (h : (l.rollbackStreamChain cp).eager = some e') : ∃ e, l.eager = some e ∧ e'.amapPages ⊆ e.amapPages := by
  unfold Layout.rollbackStreamChain at h
  simp only at h
  split at h
  · rename_i hnone
    rw [show l.eager = some e' from h] at hnone
    cases hnone
  · rename_i e he
    refine ⟨e, he, ?_⟩
    obtain ⟨blocksLen, counter, cursor, amapLen⟩ := cp
    cases amapLen with
    | none => cases cursor <;> cases h <;> exact fun _ hp => hp
    | some n => cases cursor <;> cases h <;> exact take_subset n _

/-! ## The invariant of the BIDs -/

structure IdState.BidInv (s : IdState) : Prop where
  nodup : (s.bids.map snd).Nodup
  kind : ∀ x ∈ s.bids, (x.2.testBit 1 = true ↔ x.1 ≠ .leaf)
  used : ∀ x ∈ s.bids, x.2 ∈ s.layout.usedBids
  amap : ∀ e, s.layout.eager = some e → ∀ p ∈ e.amapPages, p.ptype = ptypeAmap

namespace IdState.BidInv

variable {s s' t : IdState} {new : List (BidKind × Nat)}

theorem start (eager : Option (List Bool)) : (IdState.start eager).BidInv where
  nodup := .nil
  kind := fun x hx => (nomatch hx)
  used := fun x hx => (nomatch hx)
  amap := by
    intro e he p hp
    cases eager with
    | none => cases he
    | some faults =>
      obtain rfl : EagerWriteCtx.create faults = e := Option.some.inj he
      cases hp

theorem draws (h : s.BidInv) (hnew : Draws s s' new)
    (hamap : ∀ e, s'.layout.eager = some e → ∀ p ∈ e.amapPages, p.ptype = ptypeAmap) : s'.BidInv where
  nodup := by
    rw [hnew.bids, map_append, nodup_append]
    refine ⟨h.nodup, hnew.nodup, fun a ha b hb hab => ?_⟩
    obtain ⟨x, hx, rfl⟩ := List.mem_map.mp ha
    obtain ⟨y, hy, rfl⟩ := List.mem_map.mp hb
    exact hnew.fresh y hy (hab ▸ h.used x hx)
  kind := by
    intro x hx
    rw [hnew.bids] at hx
    exact (List.mem_append.mp hx).elim (h.kind x) (hnew.kind x)
  used := by
    intro x hx
    rw [hnew.bids] at hx
    rw [hnew.used]
    exact (List.mem_append.mp hx).imp (h.used x) (mem_map_of_mem)
  amap := hamap

theorem grows (h : s.BidInv) (hnew : Grows s s' new) : s'.BidInv := by
  apply h.draws hnew.toDraws
  intro e' he' p hp
  obtain ⟨e, ps, he, hps, hall⟩ := hnew.amap e' he'
  rw [hps] at hp
  rcases List.mem_append.mp hp with hp | hp
  · exact h.amap e he p hp
  · exact (hall p hp).1

theorem rollback (h : t.BidInv) (hnew : Grows t s new) : (s.rollback t).BidInv := by
  have hs := h.grows hnew
  obtain ⟨bs, hblocks, hbs⟩ := hnew.blocks
  -- the BIDs of the checkpoint and the later ones are different
  have happ := hs.nodup
  rw [hnew.bids, map_append, nodup_append] at happ
  obtain ⟨_, _, hapart⟩ := happ
  have hdrop : s.bids.drop t.bids.length = new := by rw [hnew.bids, drop_left]
  have hkeep : ∀ x ∈ t.bids, x.2 ∈ (s.layout.rollbackStreamChain t.layout.streamChainCheckpoint).usedBids := by
    intro x hx
    have hin : x.2 ∈ s.layout.usedBids := (hnew.used _).mpr (Or.inl (h.used x hx))
    have hout : ∀ b ∈ new.map snd, x.2 ≠ b := hapart _ (mem_map_of_mem hx)
    have hdropped : x.2 ∉ ((s.layout.blocks.drop t.layout.blocks.length).map BlockEntry.bid).toFinset := by
      rw [hblocks, drop_left, mem_toFinset]
      intro hmem
      obtain ⟨b, hb, hxb⟩ := List.mem_map.mp hmem
      exact hout _ (hbs b hb) hxb.symm
    have hrest := Finset.mem_sdiff.mpr ⟨hin, hdropped⟩
    unfold Layout.rollbackStreamChain
    cases he : s.layout.eager with
    | none => exact hrest
    | some e' =>
      obtain ⟨e, ps, het, hps, hall⟩ := hnew.amap e' he
      unfold Layout.streamChainCheckpoint
      rw [het]
      show x.2 ∈ _ \ ((e'.amapPages.drop e.amapPages.length).map PageEntry.bid).toFinset
      rw [hps, drop_left]
      refine Finset.mem_sdiff.mpr ⟨hrest, fun hmem => ?_⟩
      rw [mem_toFinset] at hmem
      obtain ⟨p, hp, hxp⟩ := List.mem_map.mp hmem
      exact hout _ (hall p hp).2 hxp.symm
  have hsub : Sublist (s.rollback t).bids s.bids := by
    show Sublist (t.bids ++ (s.bids.drop t.bids.length).filter _) s.bids
    rw [hdrop, hnew.bids]
    exact (Sublist.refl _).append List.filter_sublist
  refine ⟨hs.nodup.sublist (hsub.map _), fun x hx => hs.kind x (hsub.subset hx), ?_, ?_⟩
  · intro x hx
    rcases List.mem_append.mp hx with hx | hx
    · exact hkeep x hx
    · exact of_decide_eq_true (List.mem_filter.mp hx).2
  · intro e' he' p hp
    obtain ⟨e, he, hpages⟩ := rollback_amapPages he'
    exact hs.amap e he p (hpages hp)

end IdState.BidInv

section

variable [Crc32fast] {l : Layout} {e : EagerWriteCtx}

theorem writeStubs_amapPages (pages : List PageEntry) (e : EagerWriteCtx) :
    (writeStubs pages e).2.amapPages = e.amapPages := by
  induction pages generalizing e with
  | nil => rfl
  | cons page rest ih =>
    rw [writeStubs]
    split
    · exact ih _
    · split
      · rfl
      · exact ih _

theorem placeAndWriteBlock_registers (l : Layout) (e : EagerWriteCtx) (bid : Nat) (data : Bytes) :
    ∃ book added,
      (AmapBook.mk e.amapPages e.amapPageOffsets l.usedBids l.nextBidCounter).Registers book added ∧
      (l.placeAndWriteBlock e bid data).2.2.amapPages = e.amapPages ++ added ∧
      (l.placeAndWriteBlock e bid data).2.1.usedBids = book.usedBids ∧
      (l.placeAndWriteBlock e bid data).2.1.blocks = l.blocks := by
  unfold Layout.placeAndWriteBlock
  split
  · exact ⟨_, [], .refl _, (append_nil _).symm, rfl, rfl⟩
  · rename_i offset cursor book hplace
    obtain ⟨added, hreg⟩ := amapPlaceRegion_registers hplace
    refine ⟨book, added, hreg, ?_⟩
    simp only
    have hstubs := writeStubs_amapPages (book.pages.drop e.stubbedUpto)
      { e with cursor := cursor, amapPages := book.pages, amapPageOffsets := book.offsets }
    split
    · rename_i hwrite
      rw [hwrite] at hstubs
      exact ⟨hstubs.trans hreg.grows.pages, rfl, rfl⟩
    · rename_i hwrite
      rw [hwrite] at hstubs
      split <;> exact ⟨hstubs.trans hreg.grows.pages, rfl, rfl⟩

theorem pushLeafBlock_registers (l : Layout) (bid : Nat) (data : Bytes) :
    ∃ book book' : AmapBook, book.usedBids = l.usedBids ∧
      book.Registers book' (IdState.leafAmapPages l bid data) ∧
      (l.pushLeafBlock bid data).2.usedBids = book'.usedBids ∧
      (∃ bs, (l.pushLeafBlock bid data).2.blocks = l.blocks ++ bs ∧ ∀ b ∈ bs, b.bid = bid) ∧
      ∀ e', (l.pushLeafBlock bid data).2.eager = some e' → ∃ e, l.eager = some e ∧
        e'.amapPages = e.amapPages ++ IdState.leafAmapPages l bid data := by
  cases he : l.eager with
  | none =>
    unfold IdState.leafAmapPages Layout.pushLeafBlock
    rw [he]
    refine ⟨⟨[], ∅, l.usedBids, 0⟩, _, rfl, .refl _, rfl, ⟨_, rfl, fun b hb => ?_⟩, fun e' he' => ?_⟩
    · rw [List.mem_singleton.mp hb]
      rfl
    · cases he'
  | some e =>
    obtain ⟨book, added, hreg, hpages, hused, hblocks⟩ :=
      placeAndWriteBlock_registers { l with eager := none } e bid data
    have hadded : IdState.leafAmapPages l bid data = added := by
      unfold IdState.leafAmapPages
      rw [he]
      simp only
      rw [hpages, drop_left]
    rw [hadded]
    refine ⟨_, book, rfl, hreg, ?_⟩
    unfold Layout.pushLeafBlock
    rw [he]
    rcases hplace : { l with eager := none }.placeAndWriteBlock e bid data with ⟨_ | offset, l', e'⟩
      <;> rw [hplace] at hpages hused hblocks <;> simp only [hplace]
    · have hnone : l'.eager = none := placeAndWriteBlock_eager hplace
      refine ⟨hused, ⟨[], hblocks.trans (append_nil _).symm, fun _ h => (nomatch h)⟩, ?_⟩
      intro e'' he''
      rw [hnone] at he''
      cases he''
    · refine ⟨hused, ⟨[.spilled bid offset data.length], by rw [← hblocks], ?_⟩, ?_⟩
      · intro b hb
        rw [List.mem_singleton.mp hb]
        rfl
      · intro e'' he''
        obtain rfl : e' = e'' := Option.some.inj he''
        exact ⟨e, rfl, hpages⟩

theorem pushLeaf_snd (l : Layout) (data : Bytes) :
    (l.pushLeaf data).2 = ((l.allocBid false).2.pushLeafBlock (l.allocBid false).1 data).2 := by
  unfold Layout.pushLeaf
  simp only
  split
  · rename_i h
    rw [h]
  · rename_i h
    rw [h]

theorem grows_leaf (s : IdState) (data : Bytes) : ∃ new, Grows s (s.leaf data) new := by
  have hdraw := draws_allocBid s false .leaf (by decide)
  have heager : (s.layout.allocBid false).2.eager = s.layout.eager := rfl
  have hold : (s.layout.allocBid false).2.blocks = s.layout.blocks := rfl
  obtain ⟨book, book', hbook, hreg, hused, ⟨bs, hbs, hbid⟩, hamap⟩ :=
    pushLeafBlock_registers (s.layout.allocBid false).2 (s.layout.allocBid false).1 data
  rw [← pushLeaf_snd] at hused hbs hamap
  refine ⟨(.leaf, (s.layout.allocBid false).1) :: pageBids (IdState.leafAmapPages
    (s.layout.allocBid false).2 (s.layout.allocBid false).1 data), ?_, ⟨bs, ?_, ?_⟩, ?_⟩
  · apply hdraw.trans (draws_of_registers hreg _ hbook hused)
    show _ = s.bids ++ [_] ++ _
    rw [append_assoc]
    rfl
  · rw [← hold]
    exact hbs
  · intro b hb
    rw [hbid b hb]
    exact mem_cons_self
  · intro e' he'
    obtain ⟨e, he, hpages⟩ := hamap e' he'
    refine ⟨e, _, heager ▸ he, hpages, fun p hp => ⟨hreg.grows.ptype p hp, ?_⟩⟩
    apply mem_cons_of_mem
    rw [map_snd_pageBids]
    exact mem_map_of_mem hp

theorem IdStep.grows {s s' : IdState} (h : IdStep s s') : ∃ new, Grows s s' new := by
  cases h with
  | leaf data => exact grows_leaf s data
  | internal payload => exact ⟨_, grows_internal s payload⟩
  | page ptype => exact ⟨_, grows_page s ptype⟩
  | nid _ | node _ =>
    have h := Grows.refl s
    exact ⟨[], ⟨h.bids, h.nodup, h.fresh, h.kind, h.used⟩, h.blocks, h.amap⟩

theorem IdSteps.grows {s s' : IdState} (h : IdSteps s s') : ∃ new, Grows s s' new := by
  induction h with
  | refl => exact ⟨[], .refl s⟩
  | tail _ hstep ih =>
    obtain ⟨new, hnew⟩ := ih
    obtain ⟨more, hmore⟩ := hstep.grows
    exact ⟨new ++ more, hnew.trans hmore⟩

end

theorem diff_append_left {α : Type} [DecidableEq α] (xs ys : List α) : (xs ++ ys).diff xs = ys := by
  induction xs with
  | nil => rfl
  | cons x xs ih => rw [cons_append, diff_cons, erase_cons_head, ih]

theorem calculateOffsets_registers {l l' : Layout} (h : l.calculateOffsets = .ok l')
    (hamap : ∀ e, l.eager = some e → ∀ p ∈ e.amapPages, p.ptype = ptypeAmap) :
    ∃ (book book' : AmapBook) (added : List PageEntry), book.usedBids = l.usedBids ∧
      book.Registers book' added ∧ l'.usedBids = book'.usedBids ∧
      ((l'.pages.filter fun p => p.ptype = ptypeAmap).diff
        ((l.eager.map EagerWriteCtx.amapPages).getD [])).Perm added ∧
      ∀ e, l'.eager = some e → e.amapPages = [] := by
  unfold Layout.calculateOffsets at h
  simp only at h
  obtain ⟨⟨others, mid, book₁⟩, hpages, h⟩ := bind_eq_ok.mp h
  obtain ⟨⟨blocks, cursor, book₂⟩, hblocks, h⟩ := bind_eq_ok.mp h
  obtain ⟨book₃, hensure, h⟩ := bind_eq_ok.mp h
  obtain ⟨⟨added₁, h₁⟩, hptype⟩ := placePages_registers hpages
  obtain ⟨added₂, h₂⟩ := placeBlocks_registers hblocks
  obtain ⟨added₃, h₃⟩ := ensureAll_registers hensure
  have hreg := (h₁.trans h₂).trans h₃
  cases h
  refine ⟨_, book₃, _, rfl, hreg, rfl, ?_, ?_⟩
  · -- the AMap pages are those of the book; the others keep their type
    have hothers : others.filter (fun p => p.ptype = ptypeAmap) = [] := by
      rw [filter_eq_nil_iff]
      intro p hp hamap
      have hin : p.ptype ∈ others.map PageEntry.ptype := mem_map_of_mem hp
      rw [hptype] at hin
      obtain ⟨q, hq, hqp⟩ := List.mem_map.mp hin
      have hne := (List.mem_filter.mp hq).2
      rw [hqp] at hne
      exact absurd (of_decide_eq_true hamap) (of_decide_eq_true hne)
    have hall : book₃.pages.filter (fun p => p.ptype = ptypeAmap) = book₃.pages := by
      rw [filter_eq_self]
      intro p hp
      rw [hreg.grows.pages] at hp
      rcases List.mem_append.mp hp with hp | hp
      · cases he : l.eager with
        | none =>
          rw [he] at hp
          cases hp
        | some e =>
          rw [he] at hp
          exact decide_eq_true (hamap e he p hp)
      · exact decide_eq_true (hreg.grows.ptype p hp)
    show (filter _ (sortBy _ book₃.pages ++ others)).diff _ |>.Perm _
    rw [filter_append, hothers, append_nil]
    have hperm := ((sortBy_perm (fun p q => compare p.offset q.offset) book₃.pages).filter
      fun p => p.ptype = ptypeAmap)
    rw [hall, hreg.grows.pages] at hperm
    have hdiff := hperm.diff_right ((l.eager.map EagerWriteCtx.amapPages).getD [])
    rw [diff_append_left] at hdiff
    rw [hreg.grows.pages]
    exact hdiff
  · intro e he
    cases hold : l.eager with
    | none =>
      rw [hold] at he
      cases he
    | some e₀ =>
      rw [hold] at he
      cases he
      rfl

namespace IdState.BidInv

variable {t : IdState}

theorem calculate (h : t.BidInv) {l : Layout} (hcalc : t.layout.calculateOffsets = .ok l) :
    (t.calculate l).BidInv := by
  obtain ⟨book, book', added, hbook, hreg, hused, hperm, heager⟩ :=
    calculateOffsets_registers hcalc h.amap
  have hbids := hperm.map fun p => (BidKind.page, p.bid)
  generalize hnew : ((l.pages.filter fun p => p.ptype = ptypeAmap).diff
    ((t.layout.eager.map EagerWriteCtx.amapPages).getD [])).map
      (fun p => (BidKind.page, p.bid)) = new at hbids
  have hdraws : Draws t { t with layout := l, bids := t.bids ++ pageBids added } (pageBids added) :=
    draws_of_registers hreg rfl hbook hused
  have hrecord : (t.calculate l).bids = t.bids ++ new := congrArg (t.bids ++ ·) hnew
  have hdrawn : Draws t (t.calculate l) new := by
    refine ⟨hrecord, (hbids.map snd).nodup_iff.mpr hdraws.nodup, ?_, ?_, ?_⟩
    · exact fun x hx => hdraws.fresh x (hbids.subset hx)
    · exact fun x hx => hdraws.kind x (hbids.subset hx)
    · intro b
      rw [(hbids.map snd).mem_iff]
      exact hdraws.used b
  refine h.draws hdrawn ?_
  intro e he p hp
  rw [heager e he] at hp
  cases hp

end IdState.BidInv

/-! ## Node identifiers -/

theorem index_of_mem_folderIds {nid x : Nat} (h : x ∈ folderIds nid) : x >>> 5 = nid >>> 5 := by
  have htable : ∀ suffix, suffix >>> 5 = 0 → folderTable nid suffix >>> 5 = nid >>> 5 := by
    intro suffix hsuffix
    rw [folderTable, Nat.shiftRight_or_distrib, Nat.shiftRight_xor_distrib, Nat.shiftRight_and_distrib,
      hsuffix, show (0x1F : Nat) >>> 5 = 0 from rfl, Nat.and_zero, Nat.xor_zero, Nat.or_zero]
  simp only [folderIds, mem_cons, not_mem_nil, or_false] at h
  rcases h with rfl | rfl | rfl | rfl
  · rfl
  · exact htable _ rfl
  · exact htable _ rfl
  · exact htable _ rfl

theorem index_of_nid {index nidType : Nat} (h : nidType < 32) : ((index <<< 5) ||| nidType) >>> 5 = index := by
  rw [Nat.shiftRight_or_distrib, Nat.shiftLeft_shiftRight, Nat.shiftRight_eq_div_pow nidType,
    Nat.div_eq_of_lt h, Nat.or_zero]

theorem index_of_mem_fixedNids {x : Nat} (h : x ∈ fixedNids) : x >>> 5 < 11 ∨
    x >>> 5 ∈ reservedNidIndices := by
  revert x
  decide

theorem findNidIndex_spec {index : Nat} (h : index < 2 ^ 32 - 1) :
    index ≤ (findNidIndex reservedNidIndices.length index).1 ∧
      (findNidIndex reservedNidIndices.length index).1 ∉ reservedNidIndices ∧
      (findNidIndex reservedNidIndices.length index).2
        = (findNidIndex reservedNidIndices.length index).1 + 1 := by
  by_cases hmem : index ∈ reservedNidIndices
  · simp only [reservedNidIndices, mem_cons, not_mem_nil, or_false] at hmem
    rcases hmem with rfl | rfl | rfl <;> decide
  · have heq : findNidIndex reservedNidIndices.length index = (index, nextNidIndexAfter index) := by
      show findNidIndex (2 + 1) index = _
      rw [findNidIndex, if_neg hmem]
    rw [heq]
    refine ⟨Nat.le_refl _, hmem, ?_⟩
    show min (index + 1) (2 ^ 32 - 1) = index + 1
    omega

theorem findNidIndex_snd_le (fuel index : Nat) : (findNidIndex fuel index).2 ≤ 2 ^ 32 - 1 := by
  induction fuel generalizing index with
  | zero => exact Nat.min_le_right _ _
  | succ fuel ih =>
    rw [findNidIndex]
    split
    · exact ih _
    · exact Nat.min_le_right _ _

theorem findNidIndex_saturated :
    findNidIndex reservedNidIndices.length (2 ^ 32 - 1) = (2 ^ 32 - 1, 2 ^ 32 - 1) := by
  decide

/-- What every state of a run keeps about NIDs, as long as the counter has not saturated. -/
structure IdState.NidInv (s : IdState) : Prop where
  first : 11 ≤ s.nextNidIndex
  top : s.nextNidIndex ≤ 2 ^ 32 - 1
  each : s.nextNidIndex < 2 ^ 32 - 1 → ∀ nid ∈ s.nids,
    11 ≤ nid >>> 5 ∧ nid >>> 5 < s.nextNidIndex ∧ nid >>> 5 ∉ reservedNidIndices
  nodup : s.nextNidIndex < 2 ^ 32 - 1 → (s.nids.map (· >>> 5)).Nodup

namespace IdState.NidInv

variable {s s' : IdState}

theorem congr (h : s.NidInv) (hnext : s'.nextNidIndex = s.nextNidIndex) (hnids : s'.nids = s.nids) :
    s'.NidInv := by
  refine ⟨?_, ?_, ?_, ?_⟩ <;> rw [hnext]
  · exact h.first
  · exact h.top
  · rw [hnids]
    exact h.each
  · rw [hnids]
    exact h.nodup

theorem nid (h : s.NidInv) {nidType : Nat} (htype : nidType < 32) : (s.nid nidType).NidInv := by
  have hnext : (s.nid nidType).nextNidIndex = (findNidIndex reservedNidIndices.length s.nextNidIndex).2 :=
    rfl
  have hnids : (s.nid nidType).nids = s.nids
      ++ [((findNidIndex reservedNidIndices.length s.nextNidIndex).1 <<< 5) ||| nidType] := rfl
  by_cases hsat : s.nextNidIndex < 2 ^ 32 - 1
  · obtain ⟨hle, hfree, hstop⟩ := findNidIndex_spec hsat
    have hindex : (((findNidIndex reservedNidIndices.length s.nextNidIndex).1 <<< 5) ||| nidType) >>> 5
        = (findNidIndex reservedNidIndices.length s.nextNidIndex).1 := index_of_nid htype
    have hbound := findNidIndex_snd_le reservedNidIndices.length s.nextNidIndex
    have hfirst := h.first
    rw [hstop] at hnext hbound
    generalize (findNidIndex reservedNidIndices.length s.nextNidIndex).1 = index at *
    have htop : index + 1 ≤ 2 ^ 32 - 1 := hbound
    refine ⟨by omega, by omega, fun _ nid hmem => ?_, fun _ => ?_⟩
    · rw [hnids] at hmem
      rcases List.mem_append.mp hmem with hmem | hmem
      · have := h.each hsat nid hmem
        exact ⟨this.1, by omega, this.2.2⟩
      · rw [List.mem_singleton.mp hmem, hindex]
        exact ⟨by omega, by omega, hfree⟩
    · rw [hnids, map_append, nodup_append]
      refine ⟨h.nodup hsat, nodup_singleton _, fun a ha b hb hab => ?_⟩
      obtain ⟨nid, hmem, rfl⟩ := List.mem_map.mp ha
      rw [map_singleton, mem_singleton, hindex] at hb
      have := (h.each hsat nid hmem).2.1
      omega
  · have htop := h.top
    have heq : s.nextNidIndex = 2 ^ 32 - 1 := by omega
    rw [heq, findNidIndex_saturated] at hnext
    refine ⟨by omega, by omega, fun hlt => ?_, fun hlt => ?_⟩ <;> omega

end IdState.NidInv

/-! ## The run -/

section

variable [Crc32fast] {s s' t : IdState} {eager : Option (List Bool)}

theorem IdStep.nidInv (hstep : IdStep s s') (h : s.NidInv) : s'.NidInv := by
  cases hstep with
  | leaf data => exact h.congr rfl rfl
  | internal payload => exact h.congr rfl rfl
  | page ptype => exact h.congr rfl rfl
  | nid htype => exact h.nid htype
  | node entry => exact h.congr rfl rfl

theorem IdSteps.nidInv (hsteps : IdSteps s s') (h : s.NidInv) : s'.NidInv := by
  induction hsteps with
  | refl => exact h
  | tail _ hstep ih => exact hstep.nidInv ih

theorem Run.inv (h : Run (.start eager) s) : s.BidInv ∧ s.NidInv := by
  induction h with
  | refl =>
    exact ⟨.start eager, Nat.le_refl 11, by show 11 ≤ 2 ^ 32 - 1; omega,
      fun _ nid hmem => (nomatch hmem), fun _ => .nil⟩
  | step _ hstep ih =>
    obtain ⟨new, hnew⟩ := hstep.grows
    exact ⟨ih.1.grows hnew, hstep.nidInv ih.2⟩
  | rollback _ hbody ih =>
    obtain ⟨new, hnew⟩ := hbody.grows
    exact ⟨ih.1.rollback hnew, (hbody.nidInv ih.2).congr rfl rfl⟩
  | calculate _ hcalc ih => exact ⟨ih.1.calculate hcalc, ih.2.congr rfl rfl⟩

/-- **Identifiers.** In every run the BIDs handed out are different and carry bit 1 unless they are
of leaves. Until the 27 bits of the index are used up, no NID and no table of its folder meets
another allocated node, its tables, or a fixed NID. -/
theorem run_ids_distinct (h : Run (.start eager) s) : (s.bids.map snd).Nodup ∧
      (∀ x ∈ s.bids, (x.2.testBit 1 = true ↔ x.1 ≠ .leaf)) ∧ (s.nextNidIndex ≤ 2 ^ 27 →
        s.nids.Pairwise (fun a b => (folderIds a).Disjoint (folderIds b)) ∧
        ∀ nid ∈ s.nids, (folderIds nid).Disjoint fixedNids ∧ ∀ x ∈ folderIds nid, x < 2 ^ 32) := by
  obtain ⟨hbid, hnid⟩ := h.inv
  refine ⟨hbid.nodup, hbid.kind, fun hroom => ?_⟩
  have hlow : s.nextNidIndex < 2 ^ 32 - 1 := by omega
  refine ⟨?_, fun nid hmem => ?_⟩
  · have hdiff := hnid.nodup hlow
    rw [Nodup, pairwise_map] at hdiff
    refine hdiff.imp fun {a b} hne x hxa hxb => hne ?_
    exact (index_of_mem_folderIds hxa).symm.trans (index_of_mem_folderIds hxb)
  · obtain ⟨hfirst, hnext, hfree⟩ := hnid.each hlow nid hmem
    refine ⟨fun x hx hfixed => ?_, fun x hx => ?_⟩
    · have hindex := index_of_mem_folderIds hx
      rcases index_of_mem_fixedNids hfixed with hlt | hres
      · omega
      · exact hfree (hindex ▸ hres)
    · have hindex := index_of_mem_folderIds hx
      rw [Nat.shiftRight_eq_div_pow] at hindex
      omega

end

/-- A leaf, a stream whose write fails and is undone, and a folder. -/
def sampleRun : IdState :=
  let _ := Crc32fast.ieee
  let s := (IdState.start (some [false, true])).leaf [1, 2, 3]
  ((s.leaf [4, 5]).rollback s).nid 2

theorem run_ids_distinct_sampleRun :
    (sampleRun.bids.map snd).Nodup ∧ (∀ x ∈ sampleRun.bids, (x.2.testBit 1 = true ↔ x.1 ≠ .leaf)) ∧
      (sampleRun.nextNidIndex ≤ 2 ^ 27 →
        sampleRun.nids.Pairwise (fun a b => (folderIds a).Disjoint (folderIds b)) ∧ ∀ nid ∈ sampleRun.nids,
          (folderIds nid).Disjoint fixedNids ∧ ∀ x ∈ folderIds nid, x < 2 ^ 32) := by
  let _ := Crc32fast.ieee
  have hleaf : Run (.start (some [false, true])) ((IdState.start (some [false, true])).leaf [1, 2, 3]) :=
    .step .refl (.leaf _ _)
  exact run_ids_distinct (.step (.rollback hleaf (.single (.leaf _ [4, 5]))) (.nid _ (by decide)))

end PstWriter
