import PstDedupe.PstWriter.Layout

/-!
# What one placement does

The AMap slots are a `SlotGrid`, and the placement loop leaves after at most one skip: a region goes
to the aligned cursor if it ends before the next slot, else right behind that slot, whose AMap page
is then registered.
-/

namespace PstWriter

open Rust Foundations List

variable {off : Nat} {book : AmapBook}

section

variable {v a m : Nat}

theorem le_alignUp (ha : 0 < a) (v : Nat) : v ≤ alignUp v a := by
  unfold alignUp
  have hdiv := Nat.div_add_mod (v + a - 1) a
  have hmod := Nat.mod_lt (v + a - 1) ha
  rw [Nat.mul_comm] at hdiv
  omega

theorem dvd_alignUp (v a : Nat) : a ∣ alignUp v a := Nat.dvd_mul_left _ _

theorem alignUp_le (ha : 0 < a) (hdvd : a ∣ m) (hle : v ≤ m) : alignUp v a ≤ m := by
  obtain ⟨k, rfl⟩ := hdvd
  unfold alignUp
  rw [Nat.mul_comm a k]
  apply Nat.mul_le_mul_right
  have hlt : v + a - 1 < (k + 1) * a := by
    rw [Nat.succ_mul, Nat.mul_comm]
    omega
  exact Nat.lt_succ_iff.mp (Nat.div_lt_of_lt_mul (by rwa [Nat.mul_comm]))

theorem alignUp_of_dvd (ha : 0 < a) (hdvd : a ∣ v) : alignUp v a = v :=
  Nat.le_antisymm (alignUp_le ha hdvd (Nat.le_refl _)) (le_alignUp ha v)

end

def amapGrid : SlotGrid := ⟨amapFirstOffset, amapInterval, pageSize, by decide, by decide⟩

theorem isAmapPageOffset_iff : isAmapPageOffset off = true ↔ amapGrid.IsSlot off := by
  unfold isAmapPageOffset SlotGrid.IsSlot amapGrid
  split
  · simp only [Bool.false_eq_true, false_iff, not_and]
    omega
  · simp only [beq_iff_eq]
    constructor
    · intro h
      exact ⟨by omega, h⟩
    · intro h
      exact h.2

theorem nextAmapAtOrAfter_eq (off : Nat) : nextAmapAtOrAfter off = amapGrid.next off := rfl

theorem blockAlign_dvd_of_isSlot {s : Nat} (h : amapGrid.IsSlot s) : blockAlign ∣ s := by
  obtain ⟨k, rfl⟩ := SlotGrid.isSlot_iff.mp h
  exact Nat.dvd_add (by decide) (Dvd.dvd.mul_left (by decide) _)

def maxRegion : Nat := amapInterval - pageSize

section

variable {size align : Nat}

theorem amapPlaceLoop_slot_end {s : Nat} (hs : amapGrid.IsSlot s) (hsize : size ≤ maxRegion)
    (fuel : Nat) (book : AmapBook) :
    amapPlaceLoop size align (fuel + 1) (s + pageSize) book = some (s + pageSize, book) := by
  have hnext : nextAmapAtOrAfter (s + pageSize) = s + amapInterval := by
    rw [nextAmapAtOrAfter_eq]
    exact SlotGrid.next_slot_end hs
  have hnot : isAmapPageOffset (s + pageSize) = false := by
    rw [Bool.eq_false_iff, Ne, isAmapPageOffset_iff]
    intro h
    have hpage : 0 < pageSize := by decide
    have hgap : s + amapInterval ≤ s + pageSize := SlotGrid.add_interval_le hs h (by omega)
    have : pageSize < amapInterval := by decide
    omega
  have hfits : ¬ s + pageSize + size > s + amapInterval := by
    unfold maxRegion at hsize
    have : pageSize < amapInterval := by decide
    omega
  rw [amapPlaceLoop]
  simp only [hnot, hnext, hfits, Bool.false_eq_true, if_false, and_false]

theorem amapPlaceRegion_eq (halign : 0 < align) (hdvd : align ∣ blockAlign) (hpos : 0 < size)
    (hsize : size ≤ maxRegion) (cursor : Nat)
      (book : AmapBook) : amapPlaceRegion cursor size align book = let start := alignUp cursor align
      let amap := nextAmapAtOrAfter start
      if start + size ≤ amap then .ok (start, start + size, book)
      else .ok (amap + pageSize, amap + pageSize + size, amapEnsurePage amap book) := by
  simp only
  generalize hstart : alignUp cursor align = start
  have hslot : amapGrid.IsSlot (nextAmapAtOrAfter start) := SlotGrid.isSlot_next start
  have hle : start ≤ nextAmapAtOrAfter start := amapGrid.le_next start
  -- every slot end is aligned, so the skip lands right behind the slot
  have hend : alignUp (nextAmapAtOrAfter start + pageSize) align
      = nextAmapAtOrAfter start + pageSize := by
    apply alignUp_of_dvd halign
    exact hdvd.trans (Nat.dvd_add (blockAlign_dvd_of_isSlot hslot) (by decide))
  unfold amapPlaceRegion
  rw [hstart, placeFuel, amapPlaceLoop]
  by_cases hon : isAmapPageOffset start = true
  · have heq : nextAmapAtOrAfter start = start := SlotGrid.next_eq_self (isAmapPageOffset_iff.mp hon)
    rw [heq] at hend hslot
    rw [if_pos hon, hend, amapPlaceLoop_slot_end hslot hsize _ _, heq, if_neg (by omega)]
  · rw [if_neg hon]
    simp only
    by_cases hfits : start + size ≤ nextAmapAtOrAfter start
    · rw [if_neg (by omega), if_pos hfits]
    · have hcross : start < nextAmapAtOrAfter start + pageSize ∧
          start + size > nextAmapAtOrAfter start := by
        have : 0 < pageSize := by decide
        omega
      rw [if_pos hcross, if_neg (by omega), hend, amapPlaceLoop_slot_end hslot hsize _ _, if_neg hfits]

theorem amapPlaceLoop_terminates (halign : 0 < align) (hdvd : align ∣ blockAlign) (hpos : 0 < size)
    (hsize : size ≤ maxRegion) (cursor : Nat) (book : AmapBook) :
    (amapPlaceLoop size align placeFuel (alignUp cursor align) book).isSome := by
  have h := amapPlaceRegion_eq halign hdvd hpos hsize cursor book
  unfold amapPlaceRegion at h
  cases hloop : amapPlaceLoop size align placeFuel (alignUp cursor align) book with
  | none =>
    rw [hloop] at h
    simp only at h
    split at h <;> cases h
  | some r => rfl

end

theorem testBit_internalBid (c : Nat) : (internalBid c).testBit 1 = true := by
  rw [internalBid, Nat.testBit_or]
  exact Bool.or_true _

theorem testBit_externalBid (c : Nat) : (externalBid c).testBit 1 = false := by
  rw [externalBid, Nat.testBit_xor, Nat.testBit_and, show Nat.testBit 2 1 = true from rfl,
    Bool.and_true, Bool.xor_self]

theorem eq_shiftLeft_or (c : Nat) : c = (c / 4) <<< 2 ||| c % 4 := by
  rw [← Nat.shiftLeft_add_eq_or_of_lt (show c % 4 < 2 ^ 2 from Nat.mod_lt _ (by decide)), Nat.shiftLeft_eq]
  omega

theorem internalBid_eq (c : Nat) : internalBid c = c / 4 * 4 + c % 2 + 2 := by
  have hlow : ∀ r < 4, (r ||| 2) < 2 ^ 2 ∧ (r ||| 2) = r % 2 + 2 := by decide
  have hr := hlow (c % 4) (Nat.mod_lt _ (by decide))
  unfold internalBid
  conv => lhs; rw [eq_shiftLeft_or c]
  rw [Nat.or_assoc, ← Nat.shiftLeft_add_eq_or_of_lt hr.1, Nat.shiftLeft_eq, hr.2]
  omega

theorem externalBid_eq (c : Nat) : externalBid c = c / 4 * 4 + c % 2 := by
  -- setting bit 1 of the cleared counter gives the set counter
  have hset : externalBid c ||| 2 = internalBid c := by
    apply Nat.eq_of_testBit_eq
    intro i
    rw [externalBid, internalBid, Nat.testBit_or, Nat.testBit_or, Nat.testBit_xor, Nat.testBit_and]
    cases Nat.testBit 2 i <;> simp
  have hclear := testBit_externalBid c
  have hor : externalBid c ||| 2 = externalBid c / 4 * 4 + externalBid c % 2 + 2 :=
    internalBid_eq (externalBid c)
  rw [hset, internalBid_eq c] at hor
  have hbit : externalBid c / 2 % 2 = 0 := by
    rw [Nat.testBit_eq_decide_div_mod_eq, decide_eq_false_iff_not] at hclear
    omega
  omega

theorem atMostToOne_internalBid : AtMostToOne 2 internalBid := by
  intro s b hb
  have hsub : s ⊆ {b, b - 2} := by
    intro x hx
    have := hb x hx
    rw [internalBid_eq] at this
    rw [Finset.mem_insert, Finset.mem_singleton]
    omega
  exact (Finset.card_le_card hsub).trans Finset.card_le_two

theorem atMostToOne_externalBid : AtMostToOne 2 externalBid := by
  intro s b hb
  have hsub : s ⊆ {b, b + 2} := by
    intro x hx
    have := hb x hx
    rw [externalBid_eq] at this
    rw [Finset.mem_insert, Finset.mem_singleton]
    omega
  exact (Finset.card_le_card hsub).trans Finset.card_le_two

def Drawn (used : Finset Nat) (next : Nat) : Prop :=
  ∀ b ∈ used, ∃ c, 16 ≤ c ∧ c < next ∧ (b = internalBid c ∨ b = externalBid c)

section

variable {used : Finset Nat} {next : Nat}

theorem Drawn.ne_zero (h : Drawn used next) {b : Nat} (hb : b ∈ used) : b ≠ 0 := by
  obtain ⟨c, hc, _, rfl | rfl⟩ := h b hb
  · rw [internalBid_eq]
    omega
  · rw [externalBid_eq]
    omega

theorem Drawn.mono (h : Drawn used next) {next' : Nat} (hle : next ≤ next') : Drawn used next' := by
  intro b hb
  obtain ⟨c, hc, hlt, hmask⟩ := h b hb
  exact ⟨c, hc, by omega, hmask⟩

structure Draw (used : Finset Nat) (next bid next' : Nat) : Prop where
  fresh : bid ∉ used
  counter : next < next'
  drawn : 16 ≤ next → Drawn used next → Drawn (insert bid used) next'

theorem nextFreshBid_draw {mask : Nat → Nat} (hmask : mask = internalBid ∨ mask = externalBid)
    (used : Finset Nat) (next : Nat) : ∃ c, next ≤ c ∧
      nextFreshBid mask used next = (mask c, c + 1) ∧ Draw used next (mask c) (c + 1) := by
  have hk : AtMostToOne 2 mask := by
    rcases hmask with rfl | rfl
    · exact atMostToOne_internalBid
    · exact atMostToOne_externalBid
  obtain ⟨c, hle, hc, hfresh⟩ := findFresh_spec hk (Nat.le_refl (2 * used.card)) next
  refine ⟨c, hle, hc, hfresh, by omega, fun h16 hdrawn b hb => ?_⟩
  rcases Finset.mem_insert.mp hb with rfl | hb
  · refine ⟨c, by omega, by omega, ?_⟩
    rcases hmask with rfl | rfl
    · exact Or.inl rfl
    · exact Or.inr rfl
  · exact hdrawn.mono (by omega) b hb

end

/-- The book after some placements: the same pages with new ones behind them. -/
structure AmapBook.Extends (book book' : AmapBook) (added : List PageEntry) : Prop where
  pages : book'.pages = book.pages ++ added
  offsets : ∀ s, s ∈ book'.offsets ↔ s ∈ book.offsets ∨ s ∈ added.map PageEntry.offset
  ptype : ∀ p ∈ added, p.ptype = ptypeAmap
  used : ∀ b, b ∈ book'.usedBids ↔ b ∈ book.usedBids ∨ b ∈ added.map PageEntry.bid
  fresh : ∀ p ∈ added, p.bid ∉ book.usedBids
  nodup : (added.map PageEntry.bid).Nodup
  counter : book.nextBid ≤ book'.nextBid
  drawn : 16 ≤ book.nextBid → Drawn book.usedBids book.nextBid → Drawn book'.usedBids book'.nextBid

namespace AmapBook.Extends

variable {book book' book'' : AmapBook} {added added' : List PageEntry}

theorem refl (book : AmapBook) : book.Extends book [] where
  pages := (append_nil _).symm
  offsets := fun s => by simp
  ptype := fun _ h => by cases h
  used := fun b => by simp
  fresh := fun _ h => by cases h
  nodup := .nil
  counter := Nat.le_refl _
  drawn := fun _ h => h

theorem trans (h : book.Extends book' added) (h' : book'.Extends book'' added') :
    book.Extends book'' (added ++ added') where
  pages := by rw [h'.pages, h.pages, append_assoc]
  offsets := fun s => by rw [h'.offsets, h.offsets, map_append, mem_append, or_assoc]
  ptype := fun p hp => (List.mem_append.mp hp).elim (h.ptype p) (h'.ptype p)
  used := fun b => by rw [h'.used, h.used, map_append, mem_append, or_assoc]
  fresh := by
    intro p hp
    rcases List.mem_append.mp hp with hp | hp
    · exact h.fresh p hp
    · exact fun hmem => h'.fresh p hp ((h.used _).mpr (Or.inl hmem))
  nodup := by
    rw [map_append, nodup_append]
    refine ⟨h.nodup, h'.nodup, fun a ha b hb hab => ?_⟩
    -- a BID drawn later was unused when the earlier ones were in use
    obtain ⟨p, hp, rfl⟩ := List.mem_map.mp hb
    exact h'.fresh p hp ((h.used _).mpr (Or.inr (hab ▸ ha)))
  counter := h.counter.trans h'.counter
  drawn := fun h16 hd => h'.drawn (h16.trans h.counter) (h.drawn h16 hd)

end AmapBook.Extends

theorem amapEnsurePage_of_mem (h : off ∈ book.offsets) : amapEnsurePage off book = book := by
  unfold amapEnsurePage
  rw [if_pos h]

theorem mem_amapEnsurePage (off : Nat) (book : AmapBook) : off ∈ (amapEnsurePage off book).offsets := by
  unfold amapEnsurePage
  split
  · assumption
  · exact Finset.mem_insert_self off _

theorem amapEnsurePage_extends (h : off ∉ book.offsets) :
    ∃ page : PageEntry, page.offset = off ∧ book.Extends (amapEnsurePage off book) [page] := by
  obtain ⟨c, hle, hc, hdraw⟩ :=
    nextFreshBid_draw (Or.inl rfl) book.usedBids book.nextBid
  refine ⟨⟨internalBid c, ptypeAmap, off⟩, rfl, ?_⟩
  unfold amapEnsurePage
  rw [if_neg h, hc]
  constructor
  · rfl
  · intro s
    rw [Finset.mem_insert]
    simp [or_comm]
  · simp
  · intro b
    rw [Finset.mem_insert]
    simp [or_comm]
  · simpa using hdraw.fresh
  · exact nodup_singleton _
  · show book.nextBid ≤ c + 1
    omega
  · exact hdraw.drawn

theorem amapEnsurePage_grows (off : Nat) (book : AmapBook) :
    ∃ added, book.Extends (amapEnsurePage off book) added := by
  by_cases hmem : off ∈ book.offsets
  · rw [amapEnsurePage_of_mem hmem]
    exact ⟨[], .refl book⟩
  · obtain ⟨page, _, hext⟩ := amapEnsurePage_extends hmem
    exact ⟨[page], hext⟩

/-- The offset is marked as registered but has no page. No placement makes such a slot, and none
repairs it. -/
def AmapBook.Orphan (book : AmapBook) (s : Nat) : Prop :=
  s ∈ book.offsets ∧ s ∉ book.pages.map PageEntry.offset

theorem amapEnsurePage_orphan (s : Nat) : (amapEnsurePage off book).Orphan s ↔ book.Orphan s := by
  by_cases hmem : off ∈ book.offsets
  · rw [amapEnsurePage_of_mem hmem]
  · obtain ⟨page, hoff, hext⟩ := amapEnsurePage_extends hmem
    unfold AmapBook.Orphan
    rw [hext.offsets, hext.pages, map_append, map_singleton, hoff, mem_append,
      mem_singleton]
    constructor
    · rintro ⟨hin | heq, hout⟩
      · exact ⟨hin, fun h => hout (Or.inl h)⟩
      · exact absurd (Or.inr heq) hout
    · rintro ⟨hin, hout⟩
      refine ⟨Or.inl hin, fun h => ?_⟩
      rcases h with h | rfl
      · exact hout h
      · exact hmem hin

structure AmapBook.Booked (book : AmapBook) (cursor : Nat) : Prop where
  below : ∀ s, amapGrid.IsSlot s → s < cursor → s ∈ book.offsets
  slots : ∀ s ∈ book.offsets, amapGrid.IsSlot s
  pages : ∀ s ∈ book.pages.map PageEntry.offset, s ∈ book.offsets ∧ s < cursor
  nodup : (book.pages.map PageEntry.offset).Nodup
  ptype : ∀ p ∈ book.pages, p.ptype = ptypeAmap

section

variable {cursor size align : Nat} {book : AmapBook}

theorem AmapBook.Booked.take (h : book.Booked cursor) {cursor' : Nat} (hpast : amapGrid.next cursor < cursor')
    (hend : cursor' ≤ amapGrid.next cursor + amapInterval) :
    (amapEnsurePage (amapGrid.next cursor) book).Booked cursor' := by
  have hslot : amapGrid.IsSlot (amapGrid.next cursor) := SlotGrid.isSlot_next cursor
  have hle := amapGrid.le_next cursor
  -- below the new cursor there are the old slots and the next one
  have hbelow : ∀ s, amapGrid.IsSlot s → s < cursor' → s ∈ book.offsets ∨ s = amapGrid.next cursor := by
    intro s hs hlt
    by_cases hsc : s < cursor
    · exact Or.inl (h.below s hs hsc)
    · right
      apply Nat.le_antisymm _ (SlotGrid.next_le hs (Nat.le_of_not_lt hsc))
      by_contra hgt
      have hgap : amapGrid.next cursor + amapInterval ≤ s :=
        SlotGrid.add_interval_le hslot hs (by omega)
      omega
  by_cases hmem : amapGrid.next cursor ∈ book.offsets
  · rw [amapEnsurePage_of_mem hmem]
    refine ⟨fun s hs hlt => ?_, h.slots, fun s hs => ?_, h.nodup, h.ptype⟩
    · rcases hbelow s hs hlt with hin | rfl
      · exact hin
      · exact hmem
    · have := h.pages s hs
      exact ⟨this.1, by omega⟩
  · obtain ⟨page, hoff, hext⟩ := amapEnsurePage_extends hmem
    have hpages : (amapEnsurePage (amapGrid.next cursor) book).pages.map PageEntry.offset
        = book.pages.map PageEntry.offset ++ [amapGrid.next cursor] := by
      rw [hext.pages, map_append, map_singleton, hoff]
    have hoffsets : ∀ s, s ∈ (amapEnsurePage (amapGrid.next cursor) book).offsets ↔
        s ∈ book.offsets ∨ s = amapGrid.next cursor := by
      intro s
      rw [hext.offsets, map_singleton, hoff, mem_singleton]
    refine ⟨fun s hs hlt => (hoffsets s).mpr (hbelow s hs hlt), fun s hs => ?_, fun s hs => ?_, ?_,
      fun p hp => ?_⟩
    · rcases (hoffsets s).mp hs with hs | rfl
      · exact h.slots s hs
      · exact hslot
    · rw [hpages] at hs
      rw [hoffsets]
      rcases List.mem_append.mp hs with hs | hs
      · have := h.pages s hs
        exact ⟨Or.inl this.1, by omega⟩
      · rw [List.mem_singleton.mp hs]
        exact ⟨Or.inr rfl, hpast⟩
    · rw [hpages, nodup_append]
      refine ⟨h.nodup, nodup_singleton _, fun a ha b hb hab => ?_⟩
      have := (h.pages a ha).2
      rw [mem_singleton] at hb
      omega
    · rw [hext.pages] at hp
      exact (List.mem_append.mp hp).elim (h.ptype p) (hext.ptype p)

theorem AmapBook.Booked.mono (h : book.Booked cursor) {cursor' : Nat} (hle : cursor ≤ cursor')
    (hnext : cursor' ≤ amapGrid.next cursor) : book.Booked cursor' where
  below := by
    intro s hs hlt
    apply h.below s hs
    by_contra hge
    have := SlotGrid.next_le hs (Nat.le_of_not_lt hge)
    omega
  slots := h.slots
  pages := fun s hs => ⟨(h.pages s hs).1, Nat.lt_of_lt_of_le (h.pages s hs).2 hle⟩
  nodup := h.nodup
  ptype := h.ptype

/-- What a placement gives, from a clear cursor below which every slot is marked. -/
structure Placed (cursor size align : Nat) (book : AmapBook) (offset cursor' : Nat)
    (book' : AmapBook) (added : List PageEntry) : Prop where
  after : cursor ≤ offset
  stop : cursor' = offset + size
  aligned : align ∣ offset
  avoids : amapGrid.Avoids (offset, size)
  clear : amapGrid.Clear cursor'
  grows : book.Extends book' added
  booked : book'.Booked cursor'
  orphans : ∀ s, book'.Orphan s ↔ book.Orphan s

theorem amapPlaceRegion_spec (halign : 0 < align) (hdvd : align ∣ blockAlign) (hpos : 0 < size)
    (hsize : size ≤ maxRegion) (hclear : amapGrid.Clear cursor) (hbooked : book.Booked cursor) :
    ∃ offset cursor' book' added, amapPlaceRegion cursor size align book = .ok
      (offset, cursor', book') ∧ Placed cursor size align book offset cursor' book' added := by
  have hstart := le_alignUp halign cursor
  -- aligning the cursor does not move it past the next slot
  have hnext : alignUp cursor align ≤ amapGrid.next cursor :=
    alignUp_le halign (hdvd.trans (blockAlign_dvd_of_isSlot (SlotGrid.isSlot_next cursor)))
      (amapGrid.le_next cursor)
  have hclear' := hclear.mono hstart hnext
  have hbooked' := hbooked.mono hstart hnext
  have heq := amapPlaceRegion_eq halign hdvd hpos hsize cursor book
  simp only at heq
  by_cases hfits : alignUp cursor align + size ≤ nextAmapAtOrAfter (alignUp cursor align)
  · rw [if_pos hfits] at heq
    rw [nextAmapAtOrAfter_eq] at hfits
    have havoids := SlotGrid.Avoids.of_le_next hclear' hfits
    exact ⟨_, _, _, [], heq, hstart, rfl, dvd_alignUp _ _, havoids, havoids.clear,
      AmapBook.Extends.refl book, hbooked'.mono (by omega) hfits, fun _ => Iff.rfl⟩
  · rw [if_neg hfits, nextAmapAtOrAfter_eq] at heq
    rw [nextAmapAtOrAfter_eq] at hfits
    have hslot : amapGrid.IsSlot (amapGrid.next (alignUp cursor align)) := SlotGrid.isSlot_next _
    have hle := amapGrid.le_next (alignUp cursor align)
    have hnext' : amapGrid.next (amapGrid.next (alignUp cursor align) + pageSize)
        = amapGrid.next (alignUp cursor align) + amapInterval := SlotGrid.next_slot_end hslot
    have hwidth : pageSize < amapInterval := by decide
    have hend : amapGrid.next (alignUp cursor align) + pageSize + size
        ≤ amapGrid.next (alignUp cursor align) + amapInterval := by
      unfold maxRegion at hsize
      omega
    have hclear'' : amapGrid.Clear (amapGrid.next (alignUp cursor align) + pageSize) :=
      SlotGrid.clear_slot_end hslot
    have havoids : amapGrid.Avoids (amapGrid.next (alignUp cursor align) + pageSize, size) := by
      apply SlotGrid.Avoids.of_le_next hclear''
      rw [hnext']
      exact hend
    obtain ⟨added, hext⟩ := amapEnsurePage_grows (amapGrid.next (alignUp cursor align)) book
    refine ⟨_, _, _, added, heq, by omega, rfl, ?_, havoids, havoids.clear, hext,
      hbooked'.take (by omega) hend, amapEnsurePage_orphan⟩
    exact hdvd.trans (Nat.dvd_add (blockAlign_dvd_of_isSlot hslot) (by decide))

end

end PstWriter
