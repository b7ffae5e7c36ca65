import PstDedupe.PstWriter.DataTree
import PstDedupe.PstWriter.Placement

/-!
# What a failed stream leaves behind

Which chunks a stream pushes depends on the reader alone, so a stream is a series of leaf pushes.
-/

namespace PstWriter

open Rust Foundations List Option Prod

def streamPayloads : Nat → Nat → Reader → List Bytes × Option WriterError
  | 0, _, _ => ([], some .diverges)
  | fuel + 1, total, reader =>
    match fillBuffer [] reader with
    | .error e => ([], some e)
    | .ok (buf, reader) =>
      if buf = [] then ([], none)
      else if total + buf.length > i32Max then
        ([], some (.bodyTooLarge (streamTooLargeMessage (total + buf.length))))
      else if buf.length < streamChunkSize then ([buf], none)
      else
        let (payloads, stop) := streamPayloads fuel (total + buf.length) reader
        (buf :: payloads, stop)

def Reader.payloads (reader : Reader) : List Bytes := (streamPayloads (reader.size + 1) 0 reader).1

theorem size_data (bytes : Bytes) (rest : Reader) :
    Reader.size (.data bytes :: rest) = bytes.length + Reader.size rest := by
  unfold Reader.size
  rw [map_cons, sum_cons]

theorem fillBuffer_eq_ok {buf buf' : Bytes} {reader reader' : Reader}
    (h : fillBuffer buf reader = .ok (buf', reader')) (hbuf : buf.length ≤ streamChunkSize) :
    buf'.length ≤ streamChunkSize ∧ buf'.length + reader'.size ≤ buf.length + reader.size := by
  induction reader generalizing buf with
  | nil =>
    cases h
    exact ⟨hbuf, Nat.le_refl _⟩
  | cons event rest ih =>
    unfold fillBuffer at h
    split at h
    · rename_i hroom
      cases event with
      | interrupted =>
        obtain ⟨hle, htotal⟩ := ih h hbuf
        refine ⟨hle, htotal.trans (Nat.add_le_add_left ?_ _)⟩
        show _ ≤ 0 + Reader.size rest
        omega
      | error => cases h
      | data bytes =>
        have hdata := size_data bytes rest
        simp only at h
        split at h
        · cases h
          exact ⟨hbuf, by omega⟩
        split at h
        · obtain ⟨hle, htotal⟩ := ih h (by rw [length_append]; omega)
          rw [length_append] at htotal
          exact ⟨hle, by omega⟩
        · cases h
          rw [length_append, length_take, size_data, size_data, length_drop]
          omega
    · cases h
      exact ⟨hbuf, Nat.le_refl _⟩

theorem length_streamPayloads_le {fuel total : Nat} {reader : Reader} :
    ∀ p ∈ (streamPayloads fuel total reader).1, p.length ≤ maxBlockData := by
  induction fuel generalizing total reader with
  | zero => exact fun p hp => (nomatch hp)
  | succ fuel ih =>
    rw [streamPayloads]
    split
    · exact fun p hp => (nomatch hp)
    · rename_i buf reader' hfill
      have hbuf : buf.length ≤ maxBlockData := (fillBuffer_eq_ok hfill (Nat.zero_le _)).1
      split
      · exact fun p hp => (nomatch hp)
      split
      · exact fun p hp => (nomatch hp)
      split
      · intro p hp
        rw [List.mem_singleton.mp hp]
        exact hbuf
      · intro p hp
        rcases List.mem_cons.mp hp with rfl | hp
        · exact hbuf
        · exact ih p hp

/-- Leaves pushed since `l`: the blocks and AMap pages behind the old ones, under BIDs that were
unused. -/
structure Grew (l l' : Layout) (e e' : EagerWriteCtx) (bs : List BlockEntry)
    (ps : List PageEntry) : Prop where
  eager : l'.eager = some e'
  blocks : l'.blocks = l.blocks ++ bs
  amapPages : e'.amapPages = e.amapPages ++ ps
  used : ∀ b, b ∈ l'.usedBids ↔ b ∈ l.usedBids ∨ b ∈ bs.map BlockEntry.bid ∨ b ∈ ps.map PageEntry.bid
  fresh : ∀ b, b ∈ bs.map BlockEntry.bid ∨ b ∈ ps.map PageEntry.bid → b ∉ l.usedBids
  offsets : ∀ s ∈ e.amapPageOffsets, s ∈ e'.amapPageOffsets
  pages : l'.pages = l.pages
  nodes : l'.nodes = l.nodes
  usedNids : l'.usedNids = l.usedNids

namespace Grew

variable {l l' : Layout} {e e' e₁ : EagerWriteCtx}

theorem refl (he : l.eager = some e) : Grew l l e e [] [] where
  eager := he
  blocks := (append_nil _).symm
  amapPages := (append_nil _).symm
  used := fun b => by simp
  fresh := fun b hb => by simp at hb
  offsets := fun s hs => hs
  pages := rfl
  nodes := rfl
  usedNids := rfl

theorem trans {l₁ : Layout} {bs bs' : List BlockEntry} {ps ps' : List PageEntry}
    (h : Grew l l₁ e e₁ bs ps) (h' : Grew l₁ l' e₁ e' bs' ps') : Grew l l' e e' (bs ++ bs') (ps ++ ps') where
  eager := h'.eager
  blocks := by rw [h'.blocks, h.blocks, append_assoc]
  amapPages := by rw [h'.amapPages, h.amapPages, append_assoc]
  used := by
    intro b
    rw [h'.used, h.used, map_append, map_append, mem_append, mem_append]
    tauto
  fresh := by
    intro b hb hused
    rw [map_append, map_append, mem_append, mem_append] at hb
    have hused' := (h.used b).mpr (Or.inl hused)
    rcases hb with (hb | hb) | (hb | hb)
    · exact h.fresh b (Or.inl hb) hused
    · exact h'.fresh b (Or.inl hb) hused'
    · exact h.fresh b (Or.inr hb) hused
    · exact h'.fresh b (Or.inr hb) hused'
  offsets := fun s hs => h'.offsets s (h.offsets s hs)
  pages := h'.pages.trans h.pages
  nodes := h'.nodes.trans h.nodes
  usedNids := h'.usedNids.trans h.usedNids

end Grew

section

variable [Crc32fast] {l l' : Layout} {payloads : List Bytes}

theorem streamLoop_eq (fuel total : Nat) (chunks : List (Nat × Nat)) (reader : Reader) (l : Layout) :
    streamLoop fuel total chunks reader l = match l.pushLeaves (streamPayloads fuel total reader).1 with
      | (.error e, l') => (.error e, l')
      | (.ok new, l') =>
        match (streamPayloads fuel total reader).2 with
        | some e => (.error e, l')
        | none => (.ok (chunks ++ new, total + (new.map snd).sum), l') := by
  induction fuel generalizing total chunks reader l with
  | zero => rfl
  | succ fuel ih =>
    rw [streamLoop, streamPayloads]
    cases hfill : fillBuffer [] reader with
    | error e => rfl
    | ok filled =>
      obtain ⟨buf, reader'⟩ := filled
      simp only
      by_cases hempty : buf = []
      · rw [if_pos hempty, if_pos hempty]
        simp [Layout.pushLeaves]
      rw [if_neg hempty, if_neg hempty]
      by_cases hbig : total + buf.length > i32Max
      · rw [if_pos hbig, if_pos hbig]
        rfl
      rw [if_neg hbig, if_neg hbig]
      by_cases hshort : buf.length < streamChunkSize
      · simp only [if_pos hshort, Layout.pushLeaves]
        rcases l.pushLeaf buf with ⟨e | bid, l₁⟩ <;> simp
      · simp only [if_neg hshort, Layout.pushLeaves]
        rcases l.pushLeaf buf with ⟨e | bid, l₁⟩
        · rfl
        · simp only [ih]
          rcases l₁.pushLeaves (streamPayloads fuel (total + buf.length) reader').1 with ⟨e | new, l₂⟩
          · rfl
          · simp only
            cases (streamPayloads fuel (total + buf.length) reader').2 with
            | some e => rfl
            | none => simp [Nat.add_assoc]

def fitsBeforeSlot (cursor n : Nat) : Bool :=
  alignUp cursor blockAlign + blockSize n ≤ nextAmapAtOrAfter (alignUp cursor blockAlign)

variable {e e' e₁ : EagerWriteCtx} {data : Bytes} {bid : Nat}

theorem placeAndWriteBlock_of_fits (hstubs : e.amapPages.length ≤ e.stubbedUpto)
    (hlen : data.length ≤ maxBlockData) (hfits : fitsBeforeSlot e.cursor data.length = true) :
    l.placeAndWriteBlock e bid data = let start := alignUp e.cursor blockAlign
      let w := positionedWriteAll e.file start (encodeBlock bid data) e.filePos
      let after := { e with
        cursor := start + blockSize data.length, file := w.2.1, filePos := w.2.2 }
      match w.1 with
      | .error err => (.error err, l, after)
      | .ok () => (.ok start, l, after) := by
  have hplace := amapPlaceRegion_eq (by decide) (Nat.dvd_refl blockAlign)
    (blockSize_pos data.length) (blockSize_le_maxRegion hlen) e.cursor
    ⟨e.amapPages, e.amapPageOffsets, l.usedBids, l.nextBidCounter⟩
  simp only [if_pos (of_decide_eq_true hfits)] at hplace
  unfold Layout.placeAndWriteBlock
  rw [hplace]
  simp only [drop_eq_nil_of_le hstubs, writeStubs]
  rcases positionedWriteAll e.file (alignUp e.cursor blockAlign) (encodeBlock bid data) e.filePos with
    ⟨_ | _, file, filePos⟩ <;> rfl

theorem pushLeafBlock_of_fits (he : l.eager = some e) (hstubs : e.amapPages.length ≤ e.stubbedUpto)
    (hlen : data.length ≤ maxBlockData) (hfits : fitsBeforeSlot e.cursor data.length = true)
    (bid : Nat) : (e.file.faults.headD false = true → ∃ err l', l.pushLeafBlock bid data = (.error err, l')) ∧
    (e.file.faults.headD false = false → ∃ l' e', l.pushLeafBlock bid data = (.ok (), l') ∧
      l'.eager = some e' ∧ e'.file.faults = e.file.faults.tail ∧
      e'.cursor = alignUp e.cursor blockAlign + blockSize data.length ∧
      e'.amapPageOffsets = e.amapPageOffsets) := by
  unfold Layout.pushLeafBlock
  rw [he]
  simp only [placeAndWriteBlock_of_fits hstubs hlen hfits]
  have hfaults := positionedWriteAll_faults e.file (alignUp e.cursor blockAlign) e.filePos
    (encodeBlock bid data)
  have hok := positionedWriteAll_ok_iff e.file (alignUp e.cursor blockAlign) e.filePos
    (encodeBlock bid data)
  rcases hwrite : positionedWriteAll e.file (alignUp e.cursor blockAlign) (encodeBlock bid data)
    e.filePos with ⟨_ | _, file, filePos⟩ <;> rw [hwrite] at hfaults hok
  · refine ⟨fun _ => ⟨_, _, rfl⟩, fun hgood => ?_⟩
    cases hok.mpr hgood
  · refine ⟨fun hbad => ?_, fun _ => ⟨_, _, rfl, rfl, hfaults, rfl, rfl⟩⟩
    rw [hok.mp rfl] at hbad
    cases hbad

theorem pushLeaf_cases (h : l.Inv) (he : l.eager = some e) (hlen : data.length ≤ maxBlockData) :
    (∃ err l', l.pushLeaf data = (.error err, l') ∧ l'.eager = none) ∨
    ∃ bid l' e' bs ps, l.pushLeaf data = (.ok bid, l') ∧ l'.Inv ∧ Grew l l' e e' bs ps ∧
      (fitsBeforeSlot e.cursor data.length = false →
        nextAmapAtOrAfter (alignUp e.cursor blockAlign) ∈ e'.amapPageOffsets) := by
  unfold Layout.pushLeaf
  rcases halloc : l.allocBid false with ⟨bid, l₁⟩
  have ha := h.allocBid halloc
  have he₁ := ha.eager.trans he
  rcases pushLeafBlock_cases he₁ bid data with
    ⟨err, l', herr, hnone⟩ | ⟨e', offset, book, hw, hok⟩
  · exact Or.inl ⟨err, l', by simp only [herr], hnone⟩
  · obtain ⟨added, hp⟩ := hw.placed (ha.inv.eager e he₁) hlen
    have hinv' := ha.inv.spillLeaf he₁ ha.fresh hlen hw
    refine Or.inr ⟨bid, _, e', [.spilled bid offset data.length], added, by simp only [hok], hinv', ?_, ?_⟩
    · refine ⟨rfl, ?_, hw.amapPages.trans hp.grows.pages, fun b => ?_, fun b hb hin => ?_,
        fun s hs => ?_, ha.pages, ha.nodes, ha.usedNids⟩
      · show l₁.blocks ++ _ = _
        rw [ha.blocks]
      · show b ∈ book.usedBids ↔ _ ∨ b ∈ [bid] ∨ _
        rw [hp.grows.used, ha.used, Finset.mem_insert, mem_singleton]
        tauto
      · rcases hb with hb | hb
        · obtain rfl : b = bid := List.mem_singleton.mp hb
          exact ha.unused hin
        · obtain ⟨p, hp', rfl⟩ := List.mem_map.mp hb
          apply hp.grows.fresh p hp'
          show p.bid ∈ l₁.usedBids
          rw [ha.used]
          exact Finset.mem_insert_of_mem hin
      · rw [hw.amapPageOffsets, hp.grows.offsets]
        exact Or.inl hs
    · intro hcross
      have hplace := amapPlaceRegion_eq (by decide) (Nat.dvd_refl blockAlign)
        (blockSize_pos data.length) (blockSize_le_maxRegion hlen) e.cursor
        ⟨e.amapPages, e.amapPageOffsets, l₁.usedBids, l₁.nextBidCounter⟩
      simp only [if_neg (of_decide_eq_false hcross)] at hplace
      rw [hw.place] at hplace
      obtain ⟨-, -, rfl⟩ : offset = _ ∧ e'.cursor = _ ∧ book = _ := by simpa using hplace
      rw [hw.amapPageOffsets]
      exact mem_amapEnsurePage _ _

theorem pushLeaf_of_fits (h : l.Inv) (he : l.eager = some e) (hlen : data.length ≤ maxBlockData)
    (hfits : fitsBeforeSlot e.cursor data.length = true) :
    (e.file.faults.headD false = true → ∃ err l', l.pushLeaf data = (.error err, l')) ∧
    (e.file.faults.headD false = false → ∃ bid l' e', l.pushLeaf data = (.ok bid, l') ∧
      l'.eager = some e' ∧ e'.file.faults = e.file.faults.tail ∧
      e'.cursor = alignUp e.cursor blockAlign + blockSize data.length ∧
      e'.amapPageOffsets = e.amapPageOffsets) := by
  unfold Layout.pushLeaf
  rcases halloc : l.allocBid false with ⟨bid, l₁⟩
  obtain ⟨hbad, hgood⟩ := pushLeafBlock_of_fits ((h.allocBid halloc).eager.trans he)
    (h.eager e he).stubs hlen hfits bid
  constructor
  · intro hfault
    obtain ⟨err, l', herr⟩ := hbad hfault
    exact ⟨err, l', by simp only [herr]⟩
  · intro hfault
    obtain ⟨l', e', hok, hrest⟩ := hgood hfault
    exact ⟨bid, l', e', by simp only [hok], hrest⟩

/-- The chunks, placed one behind the other from the cursor, all end before the next AMap slot. -/
def noSlotCrossed : Nat → List Nat → Bool
  | _, [] => true
  | cursor, n :: rest =>
    fitsBeforeSlot cursor n && noSlotCrossed (alignUp cursor blockAlign + blockSize n) rest

/-- None of the next `n` writes fails. -/
def writesSucceed : List Bool → Nat → Bool
  | _, 0 => true
  | faults, n + 1 => !faults.headD false && writesSucceed faults.tail n

theorem pushLeaves_cases (h : l.Inv) (he : l.eager = some e) (hlen : ∀ p ∈ payloads, p.length ≤ maxBlockData) :
    (∃ err l', l.pushLeaves payloads = (.error err, l') ∧ l'.eager = none) ∨
    ∃ cs l' e' bs ps, l.pushLeaves payloads = (.ok cs, l') ∧ l'.Inv ∧ Grew l l' e e' bs ps := by
  induction payloads generalizing l e with
  | nil => exact Or.inr ⟨[], l, e, [], [], rfl, h, .refl he⟩
  | cons payload rest ih =>
    rw [Layout.pushLeaves]
    rcases pushLeaf_cases h he (hlen payload mem_cons_self) with
      ⟨err, l', herr, hnone⟩ | ⟨bid, l₁, e₁, bs, ps, hok, hinv, hgrew, _⟩
    · exact Or.inl ⟨err, l', by rw [herr], hnone⟩
    · simp only [hok]
      rcases ih hinv hgrew.eager (fun p hp => hlen p (mem_cons_of_mem _ hp)) with
        ⟨err, l', herr, hnone⟩ | ⟨cs, l', e', bs', ps', hrest, hinv', hgrew'⟩
      · exact Or.inl ⟨err, l', by rw [herr], hnone⟩
      · exact Or.inr ⟨_, l', e', _, _, by rw [hrest], hinv', hgrew.trans hgrew'⟩

theorem pushLeaves_quiet (h : l.Inv) (he : l.eager = some e) (hlen : ∀ p ∈ payloads, p.length ≤ maxBlockData)
    (hquiet : noSlotCrossed e.cursor (payloads.map length) = true) :
    (writesSucceed e.file.faults payloads.length = false → ∃ err l',
      l.pushLeaves payloads = (.error err, l')) ∧
    (writesSucceed e.file.faults payloads.length = true →
      ∃ cs l' e', l.pushLeaves payloads = (.ok cs, l') ∧ l'.eager = some e' ∧
        e'.amapPageOffsets = e.amapPageOffsets) := by
  induction payloads generalizing l e with
  | nil => exact ⟨fun h => absurd h Bool.true_eq_false.mp, fun _ => ⟨[], l, e, rfl, he, rfl⟩⟩
  | cons payload rest ih =>
    rw [map_cons, noSlotCrossed, Bool.and_eq_true] at hquiet
    obtain ⟨hfits, hrestQuiet⟩ := hquiet
    have hlen₀ := hlen payload mem_cons_self
    have hlen' : ∀ p ∈ rest, p.length ≤ maxBlockData := fun p hp => hlen p (mem_cons_of_mem _ hp)
    obtain ⟨hbad, hgood⟩ := pushLeaf_of_fits h he hlen₀ hfits
    rw [Layout.pushLeaves, length_cons, writesSucceed]
    cases hfault : e.file.faults.headD false with
    | true =>
      obtain ⟨err, l', herr⟩ := hbad hfault
      exact ⟨fun _ => ⟨err, l', by rw [herr]⟩, fun h => absurd h Bool.false_ne_true⟩
    | false =>
      obtain ⟨bid, l₁, e₁, hok, he₁, hfaults₁, hcursor, hoffsets⟩ := hgood hfault
      have hinv₁ : l₁.Inv := h.step (step_pushLeaf hlen₀ hok)
      rw [← hcursor] at hrestQuiet
      obtain ⟨hbad', hgood'⟩ := ih hinv₁ he₁ hlen' hrestQuiet
      rw [hfaults₁] at hbad' hgood'
      simp only [hok, Bool.not_false, Bool.true_and]
      constructor
      · intro hfail
        obtain ⟨err, l', herr⟩ := hbad' hfail
        exact ⟨err, l', by rw [herr]⟩
      · intro hall
        obtain ⟨cs, l', e', hrest, he', hoffsets'⟩ := hgood' hall
        exact ⟨_, l', e', by rw [hrest], he', hoffsets'.trans hoffsets⟩

theorem pushLeaves_crossing {cs : List (Nat × Nat)} (h : l.Inv)
    (he : l.eager = some e) (hlen : ∀ p ∈ payloads, p.length ≤ maxBlockData)
    (hcross : noSlotCrossed e.cursor (payloads.map length) = false)
    (hok : l.pushLeaves payloads = (.ok cs, l')) (he' : l'.eager = some e') :
    ∃ s ∈ e'.amapPageOffsets, e.cursor ≤ s := by
  induction payloads generalizing l e cs with
  | nil => cases hcross
  | cons payload rest ih =>
    have hlen₀ := hlen payload mem_cons_self
    have hlen' : ∀ p ∈ rest, p.length ≤ maxBlockData := fun p hp => hlen p (mem_cons_of_mem _ hp)
    obtain ⟨bid, l₁, cs', hpush, hrest, rfl⟩ := pushLeaves_cons_eq_ok hok
    have hstart : e.cursor ≤ alignUp e.cursor blockAlign := le_alignUp (by decide) _
    rcases pushLeaf_cases h he hlen₀ with
      ⟨_, _, herr, _⟩ | ⟨_, _, e₁, bs, ps, hpush', hinv₁, hgrew, hmark⟩
    · rw [hpush] at herr
      cases herr
    · rw [hpush] at hpush'
      cases hpush'
      cases hfits : fitsBeforeSlot e.cursor payload.length with
      | false =>
        -- the mark made here is kept by the chunks that follow
        have hkept : ∀ s ∈ e₁.amapPageOffsets, s ∈ e'.amapPageOffsets := by
          rcases pushLeaves_cases hinv₁ hgrew.eager hlen' with
            ⟨_, _, herr, _⟩ | ⟨_, _, e₂, _, _, hrest', _, hgrew'⟩
          · rw [hrest] at herr
            cases herr
          · rw [hrest] at hrest'
            cases hrest'
            obtain rfl : e₂ = e' := Option.some.inj (hgrew'.eager.symm.trans he')
            exact hgrew'.offsets
        exact ⟨_, hkept _ (hmark hfits), hstart.trans (amapGrid.le_next _)⟩
      | true =>
        obtain ⟨hbad, hgood⟩ := pushLeaf_of_fits h he hlen₀ hfits
        cases hfault : e.file.faults.headD false with
        | true =>
          obtain ⟨_, _, herr⟩ := hbad hfault
          rw [hpush] at herr
          cases herr
        | false =>
          obtain ⟨_, _, e₂, hpush', he₂, _, hcursor, _⟩ := hgood hfault
          rw [hpush] at hpush'
          cases hpush'
          obtain rfl : e₁ = e₂ := Option.some.inj (hgrew.eager.symm.trans he₂)
          rw [map_cons, noSlotCrossed, hfits, Bool.true_and, ← hcursor] at hcross
          obtain ⟨s, hs, hle⟩ := ih hinv₁ hgrew.eager hlen' hcross hrest
          have hpos := blockSize_pos payload.length
          exact ⟨s, hs, by omega⟩

end

section

variable {l l₁ : Layout} {e e₁ : EagerWriteCtx} {bs : List BlockEntry} {ps : List PageEntry}

theorem grew_pushInternal (h : l.Inv) (he : l.eager = some e) (payload : Bytes) :
    ∃ b, Grew l (l.pushInternal payload).2 e e [b] [] := by
  have ha := h.allocated true
  refine ⟨.inMemory (l.allocBid true).1 payload, ⟨ha.eager.trans he, ?_, (append_nil _).symm,
    fun b => ?_, fun b hb => ?_, fun s hs => hs, ha.pages, ha.nodes, ha.usedNids⟩⟩
  · show (l.allocBid true).2.blocks ++ _ = _
    rw [ha.blocks]
    rfl
  · show b ∈ (l.allocBid true).2.usedBids ↔ _ ∨ b ∈ [(l.allocBid true).1] ∨ b ∈ []
    rw [ha.used, Finset.mem_insert, mem_singleton]
    simp only [not_mem_nil, or_false]
    tauto
  · rcases hb with hb | hb
    · obtain rfl : b = (l.allocBid true).1 := List.mem_singleton.mp hb
      exact ha.unused
    · cases hb

theorem rollback_eager_none (h : l.eager = none) (cp : StreamChainCheckpoint) :
    (l.rollbackStreamChain cp).eager = none := by
  unfold Layout.rollbackStreamChain
  simp only [h]

theorem rollback_of_grew (he : l.eager = some e) (h : Grew l l₁ e e₁ bs ps) :
    ∃ e', l₁.rollbackStreamChain l.streamChainCheckpoint = { l with eager := some e' } ∧
      e'.cursor = e.cursor ∧ e'.amapPages = e.amapPages ∧
      e'.amapPageOffsets = e₁.amapPageOffsets ∧ e'.stubbedUpto = e₁.stubbedUpto := by
  have hblocks : l₁.blocks.drop l.blocks.length = bs := by
    rw [h.blocks, drop_left]
  have hpages : e₁.amapPages.drop e.amapPages.length = ps := by
    rw [h.amapPages, drop_left]
  have hused : (l₁.usedBids \ (bs.map BlockEntry.bid).toFinset) \ (ps.map PageEntry.bid).toFinset
      = l.usedBids := by
    apply Finset.ext
    intro b
    rw [Finset.mem_sdiff, Finset.mem_sdiff, h.used, List.mem_toFinset, List.mem_toFinset]
    have := h.fresh b
    tauto
  refine ⟨(e₁.resetCursor e.cursor).dropAmapPages e.amapPages.length, ?_, rfl, ?_, rfl, rfl⟩
  · unfold Layout.rollbackStreamChain Layout.streamChainCheckpoint
    simp only [h.eager, he, map_some]
    show Layout.mk l₁.nodes (l₁.blocks.take l.blocks.length) l₁.pages l.nextBidCounter
      ((l₁.usedBids \ ((l₁.blocks.drop l.blocks.length).map BlockEntry.bid).toFinset) \
        ((e₁.amapPages.drop e.amapPages.length).map PageEntry.bid).toFinset) l₁.usedNids _ = _
    rw [hblocks, hpages, hused, h.blocks, take_left, h.nodes, h.pages, h.usedNids]
  · show e₁.amapPages.take e.amapPages.length = e.amapPages
    rw [h.amapPages, take_left]

theorem inv_rollback (hinv : l.Inv) (he : l.eager = some e) (h : Grew l l₁ e e₁ bs ps)
    (hinv₁ : l₁.Inv) : (l₁.rollbackStreamChain l.streamChainCheckpoint).Inv := by
  obtain ⟨e', heq, hcursor, hpages, hoffsets, hstubs⟩ := rollback_of_grew he h
  rw [heq]
  have hold := hinv.eager e he
  have hnew := hinv₁.eager e₁ h.eager
  have hamap : l.amapPages = e.amapPages := by
    unfold Layout.amapPages
    rw [he]
    rfl
  have hbids : Layout.bids { l with eager := some e' } = l.bids := by
    unfold Layout.bids
    rw [hamap, ← hpages]
    rfl
  refine ⟨hinv.counter, hinv.drawn, hbids ▸ hinv.nodup, hbids ▸ hinv.used, hinv.len, hinv.inMemory,
    hinv.pages, ?_, fun h => (nomatch h)⟩
  rintro e'' ⟨rfl⟩
  refine ⟨hcursor ▸ hold.clear, fun used next => ?_, hcursor ▸ hold.laid, hold.placed, ?_⟩
  · have hb := hold.booked used next
    have hb₁ := hnew.booked used next
    rw [hpages, hoffsets, hcursor]
    refine ⟨fun s hs hlt => h.offsets s (hb.below s hs hlt), hb₁.slots, fun s hs => ?_, hb.nodup, hb.ptype⟩
    have := hb.pages s hs
    exact ⟨h.offsets s this.1, this.2⟩
  · have hle : e.amapPages.length ≤ e₁.amapPages.length := by
      rw [h.amapPages, length_append]
      exact Nat.le_add_right _ _
    rw [hpages, hstubs]
    exact hle.trans hnew.stubs

end

section

variable [Crc32fast] {l l' : Layout} {e e' : EagerWriteCtx} {s : Nat}

/-- Whatever is written later, a placement or a final pass that goes past the slot has registered it
exactly once. -/
def RegistersLater (l : Layout) (s : Nat) : Prop :=
  ∀ l', Steps l l' →
    (∀ e', l'.eager = some e' → s < e'.cursor → (e'.amapPages.map PageEntry.offset).count s = 1) ∧
    ∀ l'', l'.calculateOffsets = .ok l'' → s < l''.fileSize → l''.amapCount s = 1

theorem registersLater_of_not_orphan (h : l.Inv) (horphan : ¬ l.Orphan s) (hs : amapGrid.IsSlot s) :
    RegistersLater l s := by
  intro l' hsteps
  have hinv := h.steps hsteps
  have hnot : ¬ l'.Orphan s := fun ho => horphan ((h.steps_orphan hsteps s).mp ho)
  constructor
  · intro e' he' hlt
    have hbooked := (hinv.eager e' he').booked ∅ 0
    apply count_eq_one_of_mem hbooked.nodup
    by_contra hout
    exact hnot ⟨e', he', hbooked.below s hs hlt, hout⟩
  · intro l'' hcalc hlt
    obtain ⟨l₃, amaps, others, fileEnd, hok, hc⟩ := hinv.calculateOffsets
    obtain rfl : l₃ = l'' := Except.ok.inj (hok.symm.trans hcalc)
    exact hc.amaps_once hs hlt hnot

theorem exists_steps_ram (l : Layout) (n : Nat) :
    ∃ l', Steps l l' ∧ n ≤ (l'.blocks.filter fun b => !b.onDisk).length := by
  induction n with
  | zero => exact ⟨l, .refl, Nat.zero_le _⟩
  | succ n ih =>
    obtain ⟨l₁, hsteps, hlen⟩ := ih
    have hempty : ([] : Bytes).length ≤ maxBlockData := by decide
    refine ⟨_, hsteps.tail (.block true hempty rfl), ?_⟩
    show n + 1 ≤ ((l₁.blocks ++ [BlockEntry.inMemory _ []]).filter fun b => !b.onDisk).length
    rw [filter_append, length_append]
    exact Nat.add_le_add_right hlen 1

theorem not_registersLater_of_orphan (h : l.Inv) (horphan : l.Orphan s) : ¬ RegistersLater l s := by
  intro hreg
  obtain ⟨l', hsteps, hmany⟩ := exists_steps_ram l (s + 1)
  have hinv := h.steps hsteps
  obtain ⟨l'', amaps, others, fileEnd, hok, hc⟩ := hinv.calculateOffsets
  have hcount := hc.amapCount_orphan ((h.steps_orphan hsteps s).mpr horphan)
  have honce := (hreg l' hsteps).2 l'' hok ?_
  · rw [hcount] at honce
    cases honce
  -- the blocks alone take more bytes than the offset of the slot
  have hmoved := length_filter_ram hc.blocks
  have hend : ∀ r ∈ (l''.blocks.filter fun b => !b.onDisk).map blockRegion, r.1 + r.2 ≤ l''.fileSize := by
    intro r hr
    obtain ⟨b, hb, rfl⟩ := List.mem_map.mp hr
    exact (fileSize_le_iff.mp (Nat.le_refl _)).2.2 b (List.mem_filter.mp hb).1
  have hlen := length_le_sum_of_one_le
    (((l''.blocks.filter fun b => !b.onDisk).map blockRegion).map snd) fun n hn => by
      rw [List.map_map] at hn
      obtain ⟨b, _, rfl⟩ := List.mem_map.mp hn
      exact blockSize_pos b.len
  rw [length_map, length_map] at hlen
  obtain ⟨_, _, hbehind⟩ := hc.laid.of_append_right
  obtain ⟨start, _, hram⟩ := hbehind.of_append_right
  have hsum := hram.sum_le (fun hnil => ?_) hend
  · omega
  · rw [map_eq_nil_iff] at hnil
    rw [hnil] at hmoved
    simp only [length_nil] at hmoved
    omega

theorem grew_buildXblocks {groups : List (List (Nat × Nat))} (h : l.Inv) (he : l.eager = some e)
    (hlen : ∀ g ∈ groups, g.length ≤ maxXblockEntries) : ∃ bs, Grew l (l.buildXblocks groups).2 e e bs [] := by
  induction groups generalizing l with
  | nil => exact ⟨[], .refl he⟩
  | cons group rest ih =>
    obtain ⟨b, hgrew⟩ := grew_pushInternal h he
      (internalPayload 1 (group.map snd).sum (group.map fst))
    have hinv := h.step (step_buildXblock (hlen group mem_cons_self))
    obtain ⟨bs, hrest⟩ := ih hinv hgrew.eager fun g hg => hlen g (mem_cons_of_mem _ hg)
    exact ⟨_, hgrew.trans hrest⟩

theorem grew_buildChunkTree (h : l.Inv) (he : l.eager = some e) (chunks : List (Nat × Nat))
    (total : Nat) (overflow : Nat → String) :
    ∃ bs, Grew l (l.buildChunkTree chunks total overflow).2 e e bs [] := by
  unfold Layout.buildChunkTree
  split
  · obtain ⟨b, hgrew⟩ := grew_pushInternal h he
      (internalPayload 1 (chunks.map snd).sum (chunks.map fst))
    exact ⟨[b], hgrew⟩
  · have hlen : ∀ g ∈ Foundations.chunks maxXblockEntries chunks, g.length ≤ maxXblockEntries :=
      fun g hg => length_le_of_mem_chunks (by decide) hg
    obtain ⟨bs, hgrew⟩ := grew_buildXblocks h he hlen
    simp only
    split
    · exact ⟨bs, hgrew⟩
    · obtain ⟨b, hlast⟩ := grew_pushInternal (h.steps (steps_buildXblocks hlen)) hgrew.eager
        (internalPayload 2 total (l.buildXblocks (Foundations.chunks maxXblockEntries chunks)).1)
      exact ⟨_, hgrew.trans hlast⟩

theorem inner_cases (h : l.Inv) (he : l.eager = some e) (reader : Reader) :
    (∃ err l', l.writeDataChainFromReaderInner reader = (.error err, l') ∧ l'.eager = none ∧
      ∃ l₁, l.pushLeaves reader.payloads = (.error err, l₁)) ∨
    ∃ r l' e' bs ps cs l₁, l.writeDataChainFromReaderInner reader = (r, l') ∧ l'.Inv ∧
      Grew l l' e e' bs ps ∧ l.pushLeaves reader.payloads = (.ok cs, l₁) ∧ l₁.eager = some e' := by
  have hlen : ∀ p ∈ reader.payloads, p.length ≤ maxBlockData := length_streamPayloads_le
  unfold Layout.writeDataChainFromReaderInner
  have hpayloads : (streamPayloads (reader.size + 1) 0 reader).1 = reader.payloads := rfl
  rw [streamLoop_eq, hpayloads]
  rcases pushLeaves_cases h he hlen with
    ⟨err, l₁, herr, hnone⟩ | ⟨cs, l₁, e', bs, ps, hok, hinv, hgrew⟩
  · exact Or.inl ⟨err, l₁, by simp only [herr], hnone, l₁, herr⟩
  · right
    simp only [hok, nil_append]
    cases (streamPayloads (reader.size + 1) 0 reader).2 with
    | some err => exact ⟨_, l₁, e', bs, ps, cs, l₁, rfl, hinv, hgrew, rfl, hgrew.eager⟩
    | none =>
      simp only
      split
      · exact ⟨_, l₁, e', bs, ps, _, l₁, rfl, hinv, hgrew, rfl, hgrew.eager⟩
      · exact ⟨_, l₁, e', bs, ps, _, l₁, rfl, hinv, hgrew, rfl, hgrew.eager⟩
      · -- the levels over the chunks are built in RAM
        obtain ⟨bs', htree⟩ := grew_buildChunkTree hinv hgrew.eager cs
          (asU32 (0 + (cs.map snd).sum)) streamOverflowMessage
        have hsteps : Steps l₁ _ := steps_buildChunkTree cs (asU32 (0 + (cs.map snd).sum))
          streamOverflowMessage
        rcases hbuild : l₁.buildChunkTree cs (asU32 (0 + (cs.map snd).sum)) streamOverflowMessage
          with ⟨_ | bid, l₂⟩ <;> rw [hbuild] at htree hsteps
        · exact ⟨_, l₂, e', _, _, cs, l₁, rfl, hinv.steps hsteps, hgrew.trans htree, rfl, hgrew.eager⟩
        · exact ⟨_, l₂, e', _, _, cs, l₁, rfl, hinv.steps hsteps, hgrew.trans htree, rfl, hgrew.eager⟩

end

section

variable [Crc32fast] {l l' : Layout} {e : EagerWriteCtx}

/-- The layouts a writer gets to while it has its temp file. A failed write takes the file away for
good, so nothing is said about what follows one; streams that fail otherwise are part of a
history. -/
inductive History : Layout → Prop where
  | start (faults : List Bool) : History (Layout.new.attachEager (EagerWriteCtx.create faults))
  | step {l l' : Layout} (h : History l) (hstep : Step l l') : History l'
  | stream {l : Layout} (h : History l) (reader : Reader)
      (hkept : (l.writeDataChainFromReader reader).2.eager ≠ none) :
      History (l.writeDataChainFromReader reader).2

theorem Step.eager_ne_none (h : l.Inv) (hstep : Step l l') (hsome : l.eager ≠ none) : l'.eager ≠ none := by
  cases hstep with
  | @leaf l₁ _ bid data hlen halloc hpush =>
    obtain ⟨e, he⟩ := Option.ne_none_iff_exists'.mp hsome
    rcases pushLeafBlock_cases ((h.allocBid halloc).eager.trans he) bid data with
      ⟨_, _, herr, _⟩ | ⟨e', offset, book, _, hok⟩
    · rw [hpush] at herr
      cases herr
    · rw [hpush] at hok
      cases hok
      exact some_ne_none e'
  | block internal hlen halloc => exact (h.allocBid halloc).eager ▸ hsome
  | page ptype => exact hsome
  | node node hnid => exact hsome

theorem Layout.Inv.stream (h : l.Inv) (he : l.eager = some e) (reader : Reader)
    (hkept : (l.writeDataChainFromReader reader).2.eager ≠ none) :
    (l.writeDataChainFromReader reader).2.Inv := by
  unfold Layout.writeDataChainFromReader at hkept ⊢
  rcases inner_cases h he reader with
    ⟨_, l₁, herr, hnone, _⟩ | ⟨r, l₁, e', bs, ps, _, _, hinner, hinv₁, hgrew, _⟩
  · rw [herr] at hkept
    exact absurd (rollback_eager_none hnone _) hkept
  · rw [hinner]
    cases r with
    | error err => exact inv_rollback h he hgrew hinv₁
    | ok v => exact hinv₁

theorem History.inv (h : History l) : l.Inv ∧ l.eager ≠ none := by
  induction h with
  | start faults => exact ⟨Layout.inv_attachEager faults, some_ne_none _⟩
  | step _ hstep ih => exact ⟨ih.1.step hstep, hstep.eager_ne_none ih.1 ih.2⟩
  | @stream l _ reader hkept ih =>
    obtain ⟨e, he⟩ := Option.ne_none_iff_exists'.mp ih.2
    exact ⟨ih.1.stream he reader hkept, hkept⟩

/-- What a failed stream should leave: the same blocks and BIDs, the writer with its cursor, and
slots that later placements can register. -/
structure Intact (l l' : Layout) (e : EagerWriteCtx) : Prop where
  blocks : l'.blocks = l.blocks
  usedBids : l'.usedBids = l.usedBids
  eager : ∃ e', l'.eager = some e' ∧ e'.cursor = e.cursor
  slots : ∀ s, amapGrid.IsSlot s → s ∉ e.amapPages.map PageEntry.offset → RegistersLater l' s

theorem failedStream_cases {reader : Reader} {err : WriterError} (h : l.Inv) (he : l.eager = some e)
    (hfail : l.writeDataChainFromReader reader = (.error err, l')) :
    (l'.eager = none ∧ ∃ err l₁, l.pushLeaves reader.payloads = (.error err, l₁)) ∨
    ∃ e' e₁ cs l₁, l' = { l with eager := some e' } ∧ l'.Inv ∧ e'.cursor = e.cursor ∧
      e'.amapPages = e.amapPages ∧ e'.amapPageOffsets = e₁.amapPageOffsets ∧
      (∀ s ∈ e.amapPageOffsets, s ∈ e₁.amapPageOffsets) ∧ (∀ s ∈ e₁.amapPageOffsets, amapGrid.IsSlot s) ∧
      l.pushLeaves reader.payloads = (.ok cs, l₁) ∧ l₁.eager = some e₁ := by
  unfold Layout.writeDataChainFromReader at hfail
  rcases inner_cases h he reader with
    ⟨err, l₁, herr, hnone, l₂, hpush⟩ | ⟨r, l₁, e₁, bs, ps, cs, l₂, hinner, hinv₁, hgrew, hpush, he₁⟩
  · rw [herr] at hfail
    cases hfail
    exact Or.inl ⟨rollback_eager_none hnone _, err, l₂, hpush⟩
  · rw [hinner] at hfail
    cases r with
    | ok v => cases hfail
    | error err =>
      cases hfail
      obtain ⟨e', heq, hcursor, hpages, hoffsets, _⟩ := rollback_of_grew he hgrew
      exact Or.inr ⟨e', e₁, cs, l₂, heq, inv_rollback h he hgrew hinv₁, hcursor, hpages, hoffsets,
        hgrew.offsets, ((hinv₁.eager e₁ hgrew.eager).booked ∅ 0).slots, hpush, he₁⟩

theorem not_intact_of_orphan {s : Nat} (hinv : l'.Inv) (hs : amapGrid.IsSlot s)
    (hout : s ∉ e.amapPages.map PageEntry.offset) (horphan : l'.Orphan s) : ¬ Intact l l' e :=
  fun h => not_registersLater_of_orphan hinv horphan (h.slots s hs hout)

/-- **When a failed stream leaves the layout intact**: no slot was marked without a page before, the
chunks read so far went past no AMap slot, and none of their writes failed. -/
theorem rollback_intact_iff {reader : Reader} {err : WriterError} (hl : History l)
    (he : l.eager = some e) (hfail : l.writeDataChainFromReader reader = (.error err, l'))
      : Intact l l' e ↔ (∀ s ∈ e.amapPageOffsets, s ∈ e.amapPages.map PageEntry.offset) ∧
      noSlotCrossed e.cursor (reader.payloads.map length) = true ∧
      writesSucceed e.file.faults reader.payloads.length = true := by
  have hinv := hl.inv.1
  have hbooked := (hinv.eager e he).booked ∅ 0
  have hlen : ∀ p ∈ reader.payloads, p.length ≤ maxBlockData := length_streamPayloads_le
  rcases failedStream_cases hinv he hfail with
    ⟨hnone, err', l₁, hpush⟩ | ⟨e', e₁, cs, l₁, rfl, hinv', hcursor, hpages, hoffsets, hgrew,
      hslots, hpush, he₁⟩
  · -- a write failed
    constructor
    · intro h
      obtain ⟨e', he', _⟩ := h.eager
      rw [hnone] at he'
      cases he'
    · rintro ⟨_, hquiet, hwrites⟩
      obtain ⟨_, _, _, hok, _⟩ := (pushLeaves_quiet hinv he hlen hquiet).2 hwrites
      rw [hpush] at hok
      cases hok
  · have horphan : ∀ s ∈ e₁.amapPageOffsets, s ∉ e.amapPages.map PageEntry.offset →
        ¬ Intact l { l with eager := some e' } e := by
      intro s hs hout
      apply not_intact_of_orphan hinv' (hslots s hs) hout
      exact ⟨e', rfl, hoffsets ▸ hs, hpages ▸ hout⟩
    constructor
    · intro h
      have hsync : ∀ s ∈ e₁.amapPageOffsets, s ∈ e.amapPages.map PageEntry.offset := by
        intro s hs
        by_contra hout
        exact horphan s hs hout h
      have hquiet : noSlotCrossed e.cursor (reader.payloads.map length) = true := by
        by_contra hcross
        rw [Bool.not_eq_true] at hcross
        obtain ⟨s, hs, hle⟩ := pushLeaves_crossing hinv he hlen hcross hpush he₁
        have := (hbooked.pages s (hsync s hs)).2
        omega
      refine ⟨fun s hs => hsync s (hgrew s hs), hquiet, ?_⟩
      by_contra hwrites
      rw [Bool.not_eq_true] at hwrites
      obtain ⟨_, _, herr⟩ := (pushLeaves_quiet hinv he hlen hquiet).1 hwrites
      rw [hpush] at herr
      cases herr
    · rintro ⟨hsync, hquiet, hwrites⟩
      obtain ⟨cs', l₂, e₂, hok, he₂, hsame⟩ := (pushLeaves_quiet hinv he hlen hquiet).2 hwrites
      rw [hpush] at hok
      cases hok
      obtain rfl : e₁ = e₂ := Option.some.inj (he₁.symm.trans he₂)
      refine ⟨rfl, rfl, ⟨e', rfl, hcursor⟩, fun s hs _ => registersLater_of_not_orphan hinv' ?_ hs⟩
      rintro ⟨_, ⟨rfl⟩, hmarked, hout⟩
      rw [hoffsets, hsame] at hmarked
      rw [hpages] at hout
      exact hout (hsync s hmarked)

end

/-! ## A stream that fails behind a slot -/

def freshLayout : Layout := Layout.new.attachEager (EagerWriteCtx.create [])

/-- Two full chunks, of which the second goes past the first slot, and an error. -/
@[irreducible] def failingReader : Reader :=
  [.data (replicate maxBlockData 0), .data (replicate maxBlockData 0), .error]

@[irreducible] def failedResult : Result (Nat × Nat) × Layout :=
  @Layout.writeDataChainFromReader Crc32fast.ieee freshLayout failingReader

theorem failedResult_eq :
    @Layout.writeDataChainFromReader Crc32fast.ieee freshLayout failingReader = failedResult := by
  unfold failedResult
  rfl

theorem failedResult_marks : failedResult.1 = .error .io ∧
    failedResult.2.eager.map (fun e => (e.amapPageOffsets, e.amapPages)) = some ({0x4400}, []) := by
  decide +kernel

/-- A chunk of four bytes and an error: no slot is near. -/
theorem rollback_intact_iff_shortReader :
    let result := @Layout.writeDataChainFromReader Crc32fast.ieee freshLayout [.data [1, 2, 3, 4], .error]
    result.1 = .error .io ∧ @Intact Crc32fast.ieee freshLayout result.2 (EagerWriteCtx.create []) := by
  intro result
  have hfail : result.1 = .error .io := by decide +kernel
  refine ⟨hfail, (@rollback_intact_iff Crc32fast.ieee _ _ _ _ _ (@History.start Crc32fast.ieee []) rfl
    (Prod.ext hfail rfl)).mpr ⟨fun s hs => ?_, by decide +kernel, by decide +kernel⟩⟩
  cases hs

theorem rollback_not_intact_failingReader :
    @History Crc32fast.ieee freshLayout ∧ freshLayout.eager = some (EagerWriteCtx.create []) ∧
      failedResult.1 = .error .io ∧
      ¬ @Intact Crc32fast.ieee freshLayout failedResult.2 (EagerWriteCtx.create []) := by
  let _ := Crc32fast.ieee
  refine ⟨.start [], rfl, failedResult_marks.1, ?_⟩
  obtain ⟨e', he', hmarks⟩ := Option.map_eq_some_iff.mp failedResult_marks.2
  obtain ⟨hoffsets, hpages⟩ := Prod.mk.inj hmarks
  have hinv : failedResult.2.Inv := by
    have hstream := (Layout.inv_attachEager []).stream rfl failingReader
    rw [show Layout.new.attachEager (EagerWriteCtx.create []) = freshLayout from rfl,
      failedResult_eq] at hstream
    exact hstream (by rw [he']; exact some_ne_none e')
  have hslot : amapGrid.IsSlot 0x4400 := by decide
  have hout : 0x4400 ∉ (EagerWriteCtx.create []).amapPages.map PageEntry.offset := not_mem_nil
  apply not_intact_of_orphan hinv hslot hout
  refine ⟨e', he', ?_, ?_⟩
  · rw [hoffsets]
    exact Finset.mem_singleton_self _
  · rw [hpages]
    exact not_mem_nil

end PstWriter
