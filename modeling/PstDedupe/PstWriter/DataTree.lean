import PstDedupe.PstWriter.DataChain
import PstDedupe.PstWriter.LayoutRuns

/-!
# Data chains are runs of the layout

Every chain writer is a sequence of leaf pushes and internal blocks, so what holds along runs holds
across it.
-/

namespace PstWriter

open Rust Foundations List Prod

@[simp] theorem length_flatMap_leBytes (n : Nat) (xs : List Nat) :
    (xs.flatMap (leBytes n)).length = n * xs.length := by
  induction xs with
  | nil => rfl
  | cons x xs ih =>
    rw [flatMap_cons, length_append, length_leBytes, ih, length_cons, Nat.mul_succ]
    omega

theorem length_internalPayload (cLevel lcbTotal : Nat) (bids : List Nat) :
    (internalPayload cLevel lcbTotal bids).length = 8 + 8 * bids.length := by
  simp only [internalPayload, length_append, length_leBytes, length_flatMap_leBytes]

theorem length_internalPayload_le {cLevel lcbTotal : Nat} {bids : List Nat}
    (h : bids.length ≤ maxXblockEntries) :
    (internalPayload cLevel lcbTotal bids).length ≤ maxBlockData := by
  have hmax : 8 + 8 * maxXblockEntries ≤ maxBlockData := by decide
  rw [length_internalPayload]
  omega

section

variable [Crc32fast] {l l' : Layout} {data : Bytes} {bid : Nat} {chunks : List (Nat × Nat)}

theorem pushLeaf_eq_ok (h : l.pushLeaf data = (.ok bid, l')) :
    ∃ l₁, l.allocBid false = (bid, l₁) ∧ l₁.pushLeafBlock bid data = (.ok (), l') := by
  unfold Layout.pushLeaf at h
  rcases halloc : l.allocBid false with ⟨bid', l₁⟩
  rw [halloc] at h
  simp only at h
  split at h
  · cases h
  · rename_i hpush
    cases h
    exact ⟨l₁, rfl, hpush⟩

theorem step_pushLeaf (hlen : data.length ≤ maxBlockData) (h : l.pushLeaf data = (.ok bid, l')) :
    Step l l' := by
  obtain ⟨l₁, halloc, hpush⟩ := pushLeaf_eq_ok h
  exact .leaf hlen halloc hpush

theorem pushLeaves_cons_eq_ok {payload : Bytes} {rest : List Bytes}
    (h : l.pushLeaves (payload :: rest) = (.ok chunks, l')) :
    ∃ bid l₁ chunks', l.pushLeaf payload = (.ok bid, l₁) ∧
      l₁.pushLeaves rest = (.ok chunks', l') ∧ chunks = (bid, payload.length) :: chunks' := by
  rw [Layout.pushLeaves] at h
  split at h
  · cases h
  · rename_i bid l₁ hpush
    split at h
    · cases h
    · rename_i chunks' _ hrest
      cases h
      exact ⟨bid, l₁, chunks', hpush, hrest, rfl⟩

theorem steps_pushLeaves {payloads : List Bytes} (hlen : ∀ p ∈ payloads, p.length ≤ maxBlockData)
    (h : l.pushLeaves payloads = (.ok chunks, l')) : Steps l l' := by
  induction payloads generalizing l chunks with
  | nil =>
    cases h
    exact .refl
  | cons payload rest ih =>
    obtain ⟨bid, l₁, chunks', hpush, hrest, rfl⟩ := pushLeaves_cons_eq_ok h
    exact .head (step_pushLeaf (hlen payload mem_cons_self) hpush)
      (ih (fun p hp => hlen p (mem_cons_of_mem _ hp)) hrest)

theorem length_pushLeaves {payloads : List Bytes} (h : l.pushLeaves payloads = (.ok chunks, l')) :
    chunks.map snd = payloads.map length := by
  induction payloads generalizing l chunks with
  | nil =>
    cases h
    rfl
  | cons payload rest ih =>
    obtain ⟨bid, l₁, chunks', _, hrest, rfl⟩ := pushLeaves_cons_eq_ok h
    rw [map_cons, map_cons, ih hrest]

theorem step_pushInternal {payload : Bytes} (hlen : payload.length ≤ maxBlockData) :
    Step l (l.pushInternal payload).2 := .block true hlen rfl

theorem step_buildXblock (h : chunks.length ≤ maxXblockEntries) : Step l (l.buildXblock chunks).2 :=
  step_pushInternal (length_internalPayload_le (by rwa [length_map]))

theorem steps_buildXblocks {groups : List (List (Nat × Nat))}
    (h : ∀ g ∈ groups, g.length ≤ maxXblockEntries) : Steps l (l.buildXblocks groups).2 := by
  induction groups generalizing l with
  | nil => exact .refl
  | cons group rest ih =>
    rw [Layout.buildXblocks]
    exact .head (step_buildXblock (h group mem_cons_self))
      (ih fun g hg => h g (mem_cons_of_mem _ hg))

theorem steps_buildChunkTree (chunks : List (Nat × Nat)) (total : Nat) (overflow : Nat → String) :
    Steps l (l.buildChunkTree chunks total overflow).2 := by
  unfold Layout.buildChunkTree
  split
  · rename_i hle
    exact .single (step_buildXblock hle)
  · have hgroups : Steps l (l.buildXblocks (Foundations.chunks maxXblockEntries chunks)).2 :=
      steps_buildXblocks fun g hg => length_le_of_mem_chunks (by decide) hg
    simp only
    split
    · exact hgroups
    · rename_i hfew
      exact hgroups.tail (step_pushInternal (length_internalPayload_le (Nat.le_of_not_lt hfew)))

theorem steps_writeDataChain (h : l.writeDataChain data = (.ok bid, l')) : Steps l l' := by
  unfold Layout.writeDataChain at h
  split at h
  · cases h
    exact .refl
  split at h
  · cases h
  split at h
  · rename_i hlen
    exact .single (step_pushLeaf hlen h)
  · split at h
    · cases h
    · rename_i dataChunks l₁ hpush
      have hleaves := steps_pushLeaves (fun p hp => length_le_of_mem_chunks (by decide) hp) hpush
      have htree : Steps l₁ _ := steps_buildChunkTree dataChunks data.length chainOverflowMessage
      rw [h] at htree
      exact hleaves.trans htree

end

/-!
# The trees that chains leave behind

`DataTree` says what a layout stores under the BID of a chain: nothing, a leaf, an XBLOCK or an
XXBLOCK.
-/

def IsExternal (bid : Nat) : Prop := bid ≠ 0 ∧ bid.testBit 1 = false

def LeafBids (S : Nat → Bytes → Prop) (bids : List Nat) (leaves : List Bytes) : Prop :=
  Forall₂ (fun bid d => IsExternal bid ∧ S bid d) bids leaves

structure IsXblock (S : Nat → Bytes → Prop) (bid : Nat) (leaves : List Bytes) : Prop where
  internal : bid.testBit 1 = true
  «over» : ∃ bids, LeafBids S bids leaves ∧ bids.length ≤ maxXblockEntries ∧
    S bid (internalPayload 1 leaves.flatten.length bids)

inductive DataTree (S : Nat → Bytes → Prop) : Nat → List Bytes → Prop where
  | empty : DataTree S 0 []
  | leaf {bid : Nat} {d : Bytes} (hext : IsExternal bid) (h : S bid d) : DataTree S bid [d]
  | xblock {bid : Nat} {leaves : List Bytes} (h : IsXblock S bid leaves) : DataTree S bid leaves
  | xxblock {bid : Nat} {bids : List Nat} {groups : List (List Bytes)}
      (hint : bid.testBit 1 = true) (hgroups : Forall₂ (IsXblock S) bids groups)
      (hlen : bids.length ≤ maxXblockEntries) (hnodup : (bid :: bids).Nodup)
      (h : S bid (internalPayload 2 groups.flatten.flatten.length bids)) : DataTree S bid groups.flatten

section

variable {S S' : Nat → Bytes → Prop} (hS : ∀ bid d, S bid d → S' bid d) {leaves : List Bytes}

include hS

theorem LeafBids.mono {bids : List Nat} (h : LeafBids S bids leaves) :
    LeafBids S' bids leaves := h.imp fun _ _ hb => ⟨hb.1, hS _ _ hb.2⟩

theorem IsXblock.mono {bid : Nat} (h : IsXblock S bid leaves) : IsXblock S' bid leaves := by
  obtain ⟨bids, hleaves, hlen, hstored⟩ := h.over
  exact ⟨h.internal, bids, hleaves.mono hS, hlen, hS _ _ hstored⟩

theorem DataTree.mono {bid : Nat} (h : DataTree S bid leaves) : DataTree S' bid leaves := by
  cases h with
  | empty => exact .empty
  | leaf hext h => exact .leaf hext (hS _ _ h)
  | xblock h => exact .xblock (h.mono hS)
  | xxblock hint hgroups hlen hnodup h =>
    exact .xxblock hint (hgroups.imp fun _ _ hg => hg.mono hS) hlen hnodup (hS _ _ h)

end

theorem Layout.Allocated.isExternal {l l' : Layout} {bid : Nat} (h : l.Allocated l' bid false) :
    IsExternal bid :=
  ⟨h.inv.drawn.ne_zero h.fresh.used, h.kind⟩

@[simp] theorem length_buildXblocks (l : Layout) (groups : List (List (Nat × Nat))) :
    (l.buildXblocks groups).1.length = groups.length := by
  induction groups generalizing l with
  | nil => rfl
  | cons group rest ih =>
    rw [Layout.buildXblocks]
    exact congrArg Nat.succ (ih _)

theorem buildChunkTree_succeeds {l : Layout} {dataChunks : List (Nat × Nat)} {total : Nat}
    {overflow : Nat → String} (hlen : dataChunks.length ≤ maxXblockEntries * maxXblockEntries) :
    ∃ bid l', l.buildChunkTree dataChunks total overflow = (.ok bid, l') := by
  have hmax : maxXblockEntries = 1021 := by decide
  unfold Layout.buildChunkTree
  split
  · exact ⟨_, _, rfl⟩
  · have hfew : ¬ (l.buildXblocks (chunks maxXblockEntries dataChunks)).1.length
        > maxXblockEntries := by
      rw [length_buildXblocks, length_chunks (by decide), hmax]
      rw [hmax] at hlen
      omega
    simp only [if_neg hfew]
    exact ⟨_, _, rfl⟩

section

variable [Crc32fast] {l l' : Layout} {bid : Nat} {chunks : List (Nat × Nat)}

/-- The invariant of a layout whose file handle stands where `file_pos` says. -/
structure Layout.Sound (l : Layout) : Prop where
  inv : l.Inv
  synced : l.Synced

theorem Layout.Sound.steps (h : l.Sound) (hsteps : Steps l l') : l'.Sound :=
  ⟨h.inv.steps hsteps, (h.inv.steps_stores h.synced hsteps).1⟩

theorem Layout.Sound.keeps (h : l.Sound) (hsteps : Steps l l') (bid : Nat) (d : Bytes)
    (hs : l.Stores bid d) : l'.Stores bid d := (h.inv.steps_stores h.synced hsteps).2 bid d hs

theorem Reachable.sound (h : Reachable l) : l.Sound := ⟨h.inv, h.synced⟩

theorem Layout.Sound.pushLeaf {payload : Bytes} (h : l.Sound)
    (hlen : payload.length ≤ maxBlockData) (hpush : l.pushLeaf payload = (.ok bid, l')) :
    IsExternal bid ∧ l'.Stores bid payload := by
  obtain ⟨l₁, halloc, hblock⟩ := pushLeaf_eq_ok hpush
  have ha := h.inv.allocBid halloc
  have hsync : l₁.Synced := fun e he => h.synced e (ha.eager ▸ he)
  exact ⟨ha.isExternal, (ha.inv.pushLeaf_stores hsync hlen hblock).2.1⟩

theorem Layout.Sound.pushLeaves {payloads : List Bytes} (h : l.Sound)
    (hlen : ∀ p ∈ payloads, p.length ≤ maxBlockData)
    (hpush : l.pushLeaves payloads = (.ok chunks, l')) :
    LeafBids l'.Stores (chunks.map fst) payloads := by
  induction payloads generalizing l chunks with
  | nil =>
    cases hpush
    exact .nil
  | cons payload rest ih =>
    obtain ⟨bid, l₁, chunks', hfirst, hrest, rfl⟩ := pushLeaves_cons_eq_ok hpush
    have hpayload := hlen payload mem_cons_self
    have hlen' : ∀ p ∈ rest, p.length ≤ maxBlockData := fun p hp => hlen p (mem_cons_of_mem _ hp)
    obtain ⟨hext, hstored⟩ := h.pushLeaf hpayload hfirst
    have hsound := h.steps (.single (step_pushLeaf hpayload hfirst))
    exact .cons ⟨hext, hsound.keeps (steps_pushLeaves hlen' hrest) _ _ hstored⟩
      (ih hsound hlen' hrest)

theorem Layout.Sound.pushInternal (h : l.Sound) (payload : Bytes) :
    (l.pushInternal payload).1.testBit 1 = true ∧ (l.pushInternal payload).1 ∉ l.usedBids ∧
      (l.pushInternal payload).2.usedBids = insert (l.pushInternal payload).1 l.usedBids ∧
      (l.pushInternal payload).2.Stores (l.pushInternal payload).1 payload := by
  have ha := h.inv.allocated true
  exact ⟨ha.kind, ha.unused, ha.used, Layout.stores_inMemory _ _ _⟩

theorem Layout.Sound.buildXblock {leaves : List Bytes} (h : l.Sound)
    (hlen : chunks.length ≤ maxXblockEntries) (hleaves : LeafBids l.Stores (chunks.map fst) leaves)
    (hsizes : chunks.map snd = leaves.map length) :
    IsXblock (l.buildXblock chunks).2.Stores (l.buildXblock chunks).1 leaves := by
  have hkeeps := h.keeps (.single (step_buildXblock hlen))
  unfold Layout.buildXblock at hkeeps ⊢
  rw [hsizes, ← length_flatten] at hkeeps ⊢
  obtain ⟨hint, _, _, hstored⟩ := h.pushInternal
    (internalPayload 1 leaves.flatten.length (chunks.map fst))
  exact ⟨hint, chunks.map fst, hleaves.mono hkeeps, by rwa [length_map], hstored⟩

/-- What a run of XBLOCKs leaves behind: one over each group, under new BIDs. -/
structure XblocksBuilt (l l' : Layout) (bids : List Nat) (parts : List (List Bytes)) : Prop where
  «over» : Forall₂ (IsXblock l'.Stores) bids parts
  nodup : bids.Nodup
  unused : ∀ bid ∈ bids, bid ∉ l.usedBids
  used : ∀ bid, bid ∈ l.usedBids ∨ bid ∈ bids → bid ∈ l'.usedBids

theorem Layout.Sound.buildXblocks {groups : List (List (Nat × Nat))} {parts : List (List Bytes)}
    (h : l.Sound) (hlen : ∀ g ∈ groups, g.length ≤ maxXblockEntries)
    (hparts : Forall₂ (fun g leaves => LeafBids l.Stores (g.map fst) leaves ∧
      g.map snd = leaves.map length) groups parts) :
    XblocksBuilt l (l.buildXblocks groups).2 (l.buildXblocks groups).1 parts := by
  induction groups generalizing l parts with
  | nil =>
    cases hparts
    exact ⟨.nil, .nil, fun _ hb => (nomatch hb), fun _ hb => hb.elim id fun hb => (nomatch hb)⟩
  | cons group rest ih =>
    cases hparts with
    | @cons _ leaves _ parts hfirst hrest =>
      rw [forall_mem_cons] at hlen
      have hstep := step_buildXblock (l := l) hlen.1
      have hx := h.buildXblock hlen.1 hfirst.1 hfirst.2
      have hpush := h.pushInternal (internalPayload 1 (group.map snd).sum (group.map fst))
      have hsound := h.steps (.single hstep)
      have hkeeps := h.keeps (.single hstep)
      have hbuilt := ih hsound hlen.2 (hrest.imp fun _ _ hg => ⟨hg.1.mono hkeeps, hg.2⟩)
      rw [Layout.buildXblocks]
      generalize hblock : l.buildXblock group = block at hstep hx hsound hbuilt
      have hused : block.1 ∉ l.usedBids ∧ block.2.usedBids = insert block.1 l.usedBids := by
        rw [← hblock]
        exact ⟨hpush.2.1, hpush.2.2.1⟩
      refine ⟨.cons (hx.mono (hsound.keeps (steps_buildXblocks hlen.2))) hbuilt.over, ?_, ?_, ?_⟩
      · refine List.nodup_cons.mpr ⟨fun hmem => hbuilt.unused _ hmem ?_, hbuilt.nodup⟩
        rw [hused.2]
        exact Finset.mem_insert_self _ _
      · intro bid hbid
        rcases List.mem_cons.mp hbid with rfl | hbid
        · exact hused.1
        · intro hmem
          apply hbuilt.unused bid hbid
          rw [hused.2]
          exact Finset.mem_insert_of_mem hmem
      · intro bid hbid
        apply hbuilt.used
        rw [hused.2, Finset.mem_insert]
        rw [mem_cons] at hbid
        tauto

theorem Layout.Sound.buildChunkTree {leaves : List Bytes} {total : Nat} {overflow : Nat → String}
    (h : l.Sound) (hleaves : LeafBids l.Stores (chunks.map fst) leaves)
    (hsizes : chunks.map snd = leaves.map length)
    (htotal : total % 256 ^ 4 = leaves.flatten.length % 256 ^ 4)
    (hbuild : l.buildChunkTree chunks total overflow = (.ok bid, l')) : DataTree l'.Stores bid leaves := by
  unfold Layout.buildChunkTree at hbuild
  split at hbuild
  · rename_i hfew
    cases hbuild
    exact .xblock (h.buildXblock hfew hleaves hsizes)
  · have hmax : 0 < maxXblockEntries := by decide
    -- the leaves are grouped as their BIDs are
    have hpairs : Forall₂ (fun (c : Nat × Nat) d => (IsExternal c.1 ∧ l.Stores c.1 d) ∧
        c.2 = d.length) chunks leaves := by
      have hsizes' : Forall₂ (fun (c : Nat × Nat) (d : Bytes) => c.2 = d.length) chunks leaves := by
        rw [← forall₂_eq_eq_eq, forall₂_map_left_iff, forall₂_map_right_iff] at hsizes
        exact hsizes
      exact (List.forall₂_map_left_iff.mp hleaves).mp (fun _ _ hc hd => ⟨hc, hd⟩) hsizes'
    have hparts : Forall₂ (fun g part => LeafBids l.Stores (g.map fst) part ∧
        g.map snd = part.map length) (Foundations.chunks maxXblockEntries chunks)
        (Foundations.chunks maxXblockEntries leaves) := by
      apply (forall₂_chunks hmax hpairs).imp
      intro g part hg
      refine ⟨List.forall₂_map_left_iff.mpr (hg.imp fun _ _ hc => hc.1), ?_⟩
      exact (map_eq_map_of_forall₂ hg fun _ _ hc => hc.2.symm).symm
    have hbuilt := h.buildXblocks (fun g hg => length_le_of_mem_chunks hmax hg) hparts
    have hsteps := steps_buildXblocks (l := l)
      fun g (hg : g ∈ Foundations.chunks maxXblockEntries chunks) => length_le_of_mem_chunks hmax hg
    simp only at hbuild
    split at hbuild
    · cases hbuild
    · rename_i hfew
      cases hbuild
      have hsound := h.steps hsteps
      have hpush := hsound.pushInternal (internalPayload 2 total
        (l.buildXblocks (Foundations.chunks maxXblockEntries chunks)).1)
      have hpayload : ∀ bids, internalPayload 2 total bids
          = internalPayload 2 leaves.flatten.length bids := by
        intro bids
        unfold internalPayload
        rw [← leBytes_mod 4 total, htotal, leBytes_mod]
      have htop : (internalPayload 2 total
          (l.buildXblocks (Foundations.chunks maxXblockEntries chunks)).1).length ≤ maxBlockData :=
        length_internalPayload_le (Nat.le_of_not_lt hfew)
      have hkeeps := hsound.keeps (.single (step_pushInternal htop))
      obtain ⟨hint, hunused, _, hstored⟩ := hpush
      have htree : DataTree _ _ (Foundations.chunks maxXblockEntries leaves).flatten :=
        .xxblock hint (hbuilt.over.imp fun _ _ hx => hx.mono hkeeps) (Nat.le_of_not_lt hfew)
          (List.nodup_cons.mpr ⟨fun hmem => hunused (hbuilt.used _ (Or.inr hmem)), hbuilt.nodup⟩)
          (by rw [flatten_chunks hmax, ← hpayload]; exact hstored)
      rw [flatten_chunks hmax] at htree
      exact htree

theorem Layout.Sound.writeDataChain {d : Bytes} (h : l.Sound) (hwrite : l.writeDataChain d = (.ok bid, l')) :
    ∃ leaves, DataTree l'.Stores bid leaves ∧ leaves.flatten = d ∧
      (∀ p ∈ leaves, p.length ≤ maxBlockData) ∧ d.length ≤ i32Max := by
  have hpos : 0 < maxBlockData := by decide
  unfold Layout.writeDataChain at hwrite
  split at hwrite
  · rename_i hempty
    cases hwrite
    exact ⟨[], .empty, hempty.symm, fun p hp => (nomatch hp), hempty ▸ Nat.zero_le _⟩
  split at hwrite
  · cases hwrite
  rename_i hsize
  split at hwrite
  · rename_i hlen
    obtain ⟨hext, hstored⟩ := h.pushLeaf hlen hwrite
    refine ⟨[d], .leaf hext hstored, by simp, fun p hp => ?_, Nat.le_of_not_lt hsize⟩
    rw [List.mem_singleton.mp hp]
    exact hlen
  · split at hwrite
    · cases hwrite
    · rename_i dataChunks l₁ hpush
      have hlens : ∀ p ∈ chunks maxBlockData d, p.length ≤ maxBlockData :=
        fun p hp => length_le_of_mem_chunks hpos hp
      have hflat := flatten_chunks hpos d
      have hsound := h.steps (steps_pushLeaves hlens hpush)
      refine ⟨chunks maxBlockData d, ?_, hflat, hlens, Nat.le_of_not_lt hsize⟩
      apply hsound.buildChunkTree (h.pushLeaves hlens hpush) (length_pushLeaves hpush) _ hwrite
      rw [hflat]

theorem pushLeaf_inRam (he : l.eager = none) (payload : Bytes) :
    ∃ bid l', l.pushLeaf payload = (.ok bid, l') ∧ l'.eager = none := by
  have he' : (l.allocBid false).2.eager = none := he
  unfold Layout.pushLeaf Layout.pushLeafBlock
  simp only [he']
  exact ⟨_, _, rfl, rfl⟩

theorem pushLeaves_inRam (he : l.eager = none) (payloads : List Bytes) :
    ∃ chunks l', l.pushLeaves payloads = (.ok chunks, l') := by
  induction payloads generalizing l with
  | nil => exact ⟨[], l, rfl⟩
  | cons payload rest ih =>
    obtain ⟨bid, l₁, hfirst, he₁⟩ := pushLeaf_inRam he payload
    obtain ⟨chunks, l₂, hrest⟩ := ih he₁
    refine ⟨(bid, payload.length) :: chunks, l₂, ?_⟩
    rw [Layout.pushLeaves, hfirst]
    simp only [hrest]

theorem writeDataChain_inRam (he : l.eager = none) {d : Bytes} (hsize : d.length ≤ i32Max) :
    ∃ bid l', l.writeDataChain d = (.ok bid, l') := by
  unfold Layout.writeDataChain
  split
  · exact ⟨_, _, rfl⟩
  rw [if_neg (Nat.not_lt.mpr hsize)]
  split
  · obtain ⟨bid, l', hpush, _⟩ := pushLeaf_inRam he d
    exact ⟨bid, l', hpush⟩
  · obtain ⟨dataChunks, l₁, hpush⟩ := pushLeaves_inRam he (chunks maxBlockData d)
    have hlen : dataChunks.length = (chunks maxBlockData d).length := by
      rw [← length_map snd, length_pushLeaves hpush, length_map]
    simp only [hpush]
    apply buildChunkTree_succeeds
    have h32 : i32Max = 2147483647 := rfl
    have hblock : maxBlockData = 8176 := rfl
    have hmax : maxXblockEntries = 1021 := by decide
    rw [hlen, length_chunks (by decide), hmax, hblock]
    omega

end

end PstWriter
