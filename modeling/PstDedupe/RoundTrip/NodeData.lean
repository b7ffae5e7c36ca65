import PstDedupe.PstWriter.DataTree
import PstDedupe.RoundTrip.FinalFile
import PstDedupe.PstReader.Heap

/-!
# Node data, written and read back

The reader gets the leaves of a `DataTree` back in order, and assembled as
long as they are within its cap of 64 MiB.
-/

namespace PstWriter

open Rust Foundations List Prod

section

variable {cLevel total : Nat} {bids : List Nat}

theorem internalPayload_fields (hlevel : cLevel < 256) (hlen : bids.length ≤ maxXblockEntries)
    (hbids : ∀ bid ∈ bids, bid < 2 ^ 64) {p : Bytes} (hp : p = internalPayload cLevel total bids) :
    8 ≤ p.length ∧ PstReader.btypeOf p = 1 ∧ PstReader.clevelOf p = cLevel ∧
      PstReader.lcbTotalOf p = total % 2 ^ 32 ∧ PstReader.rgBids p = bids := by
  have hmax : maxXblockEntries = 1021 := by decide
  have hcount : bids.length < 256 ^ 2 := by omega
  have hplen : p.length = 8 + 8 * bids.length := by rw [hp, length_internalPayload]
  have h : Holds p 0 (internalPayload cLevel total bids) := hp ▸ holds_self p
  simp only [internalPayload, Holds.append, length_append, length_leBytes, Nat.zero_add,
    Nat.reduceAdd] at h
  obtain ⟨⟨⟨⟨hbtype, hclevel⟩, hentries⟩, htotal⟩, hrest⟩ := h
  have hlcb := readLe_of_holds htotal
  rw [length_leBytes, ofLeBytes_leBytes] at hlcb
  refine ⟨by omega, readLe_of_holds_leBytes hbtype (by decide),
    readLe_of_holds_leBytes hclevel (by omega), hlcb, ?_⟩
  have hc : PstReader.cEntriesOf p = bids.length := readLe_of_holds_leBytes hentries hcount
  unfold PstReader.rgBids
  rw [hc, List.takeWhile_eq_self_iff.mpr]
  · apply ext_getElem
    · rw [length_map, length_range]
    · intro i hi hi'
      rw [getElem_map, getElem_range]
      -- the `i`-th entry is held at its place
      have hsplit : bids.flatMap (leBytes 8) = (bids.take i).flatMap (leBytes 8)
          ++ (leBytes 8 bids[i] ++ (bids.drop (i + 1)).flatMap (leBytes 8)) := by
        rw [← flatMap_cons, ← flatMap_append]
        congr 1
        rw [← drop_eq_getElem_cons hi', take_append_drop]
      rw [hsplit, Holds.append, Holds.append, length_flatMap_leBytes, length_take,
        Nat.min_eq_left (Nat.le_of_lt hi'), Nat.mul_comm 8 i] at hrest
      exact readLe_of_holds_leBytes hrest.2.1 (hbids _ (getElem_mem hi'))
  · intro i hi
    have hlt := List.mem_range.mp hi
    rw [decide_eq_true_iff]
    omega

end

/-! ## Reading a tree -/

/-- Every stored block is read back by its BID. -/
def Readable (file : Bytes) (idx : PstReader.BbtIndex) (S : Nat → Bytes → Prop) : Prop :=
  ∀ bid d, S bid d → PstReader.readPayload file idx bid = .ok d ∧ bid < 2 ^ 64

section

variable {file : Bytes} {idx : PstReader.BbtIndex} {S : Nat → Bytes → Prop}
  (hread : Readable file idx S) {bids : List Nat} {leaves : List Bytes} {bid : Nat}

include hread

theorem LeafBids.read (h : LeafBids S bids leaves) :
    Forall₂ (fun b d => PstReader.readExternal file idx .none b = .ok d) bids leaves ∧
      (∀ b ∈ bids, PstReader.isNull b = false ∧ PstReader.isInternal b = false) ∧ ∀ b ∈ bids, b < 2 ^ 64 := by
  refine ⟨h.imp fun b d hb => ?_, fun b hb => ?_, fun b hb => ?_⟩
  · exact PstReader.readExternal_eq_ok.mpr ⟨d, (hread b d hb.2).1, rfl⟩
  · obtain ⟨d, _, hext, _⟩ := exists_right_of_forall₂ h hb
    exact ⟨beq_eq_false_iff_ne.mpr hext.1, hext.2⟩
  · obtain ⟨d, _, _, hs⟩ := exists_right_of_forall₂ h hb
    exact (hread b d hs).2

omit hread in
theorem length_flatten_le {n : Nat} {parts : List Bytes} (h : ∀ p ∈ parts, p.length ≤ n) :
    parts.flatten.length ≤ parts.length * n := by
  have hsum := sum_le_card_nsmul (parts.map length) n (by simpa using h)
  rwa [length_map, ← length_flatten] at hsum

theorem IsXblock.read (h : IsXblock S bid leaves) (hsmall : ∀ p ∈ leaves, p.length ≤ maxBlockData) :
    ∃ p, PstReader.readPayload file idx bid = .ok p ∧ PstReader.WellFormedXblock p ∧
      leaves.flatten.length ≤ PstReader.maxXblockAssemble ∧
      Forall₂ (fun b d => PstReader.readExternal file idx .none b = .ok d)
        (PstReader.rgBids p) leaves := by
  obtain ⟨bids, hleaves, hlen, hstored⟩ := h.over
  obtain ⟨hexternal, hkinds, hbids⟩ := hleaves.read hread
  obtain ⟨hheader, hbtype, hclevel, hlcb, hrg⟩ :=
    internalPayload_fields (by decide : 1 < 256) hlen hbids
      (Eq.refl (internalPayload 1 leaves.flatten.length bids))
  have hsize : leaves.flatten.length ≤ PstReader.maxXblockAssemble := by
    have hfew : leaves.length ≤ maxXblockEntries := hleaves.length_eq ▸ hlen
    have hcap : maxXblockEntries * maxBlockData ≤ PstReader.maxXblockAssemble := by decide
    exact (length_flatten_le hsmall).trans ((Nat.mul_le_mul_right _ hfew).trans hcap)
  refine ⟨_, (hread bid _ hstored).1, ⟨hheader, hbtype, hclevel, ?_, ?_⟩, hsize, ?_⟩
  · rw [hlcb]
    exact (Nat.mod_le _ _).trans hsize
  · rw [hrg]
    exact hkinds
  · rw [hrg]
    exact hexternal

theorem xblock_bids_lt {groups : List (List Bytes)}
    (h : Forall₂ (IsXblock S) bids groups) : ∀ b ∈ bids, b < 2 ^ 64 := by
  intro b hb
  obtain ⟨leaves, _, hx⟩ := exists_right_of_forall₂ h hb
  obtain ⟨_, _, _, hstored⟩ := hx.over
  exact (hread b _ hstored).2

theorem read_xblocks {groups : List (List Bytes)} (h : Forall₂ (IsXblock S) bids groups)
    (hsmall : ∀ p ∈ groups.flatten, p.length ≤ maxBlockData) :
    ∃ ps, Forall₂ (fun b p => PstReader.readPayload file idx b = .ok p) bids ps ∧
      (∀ b ∈ bids, ∀ p, PstReader.readPayload file idx b = .ok p → PstReader.WellFormedXblock p) ∧
      Forall₂ (fun b d => PstReader.readExternal file idx .none b = .ok d)
        (ps.flatMap PstReader.rgBids) groups.flatten := by
  induction h with
  | nil => exact ⟨[], .nil, fun b hb => (nomatch hb), .nil⟩
  | @cons bid leaves bids groups hx _ ih =>
    rw [flatten_cons] at hsmall
    obtain ⟨p, hp, hwf, _, hleaves⟩ := hx.read hread
      fun d hd => hsmall d (mem_append_left _ hd)
    obtain ⟨ps, hps, hwfs, hrest⟩ := ih fun d hd => hsmall d (mem_append_right _ hd)
    refine ⟨p :: ps, .cons hp hps, fun b hb p' hp' => ?_, ?_⟩
    · rcases List.mem_cons.mp hb with rfl | hb
      · rw [hp] at hp'
        exact Except.ok.inj hp' ▸ hwf
      · exact hwfs b hb p' hp'
    · rw [flatMap_cons, flatten_cons]
      exact rel_append hleaves hrest

theorem readBlockData_external {d : Bytes} (hext : IsExternal bid) (h : S bid d) :
    PstReader.readBlockData file idx bid .none = .ok d := by
  have hnull : PstReader.isNull bid = false := beq_eq_false_iff_ne.mpr hext.1
  have hint : PstReader.isInternal bid = false := hext.2
  unfold PstReader.readBlockData
  simp only [hnull, hint, (hread bid d h).1, bind, Except.bind, pure, Except.pure,
    Bool.false_eq_true, if_false, Bool.not_false, if_true, PstReader.decryptBlock_none]

theorem readLeaves_of_dataTree (h : DataTree S bid leaves) (hsmall : ∀ p ∈ leaves, p.length ≤ maxBlockData) :
    PstReader.readLeaves file idx bid .none = .ok leaves.flatten := by
  cases h with
  | empty => rfl
  | leaf hext h =>
    have hpath : PstReader.readBlockData file idx bid .none = PstReader.readLeaves file idx bid .none :=
      PstReader.paths_external hext.2
    rw [← hpath, readBlockData_external hread hext h]
    simp
  | xblock hx =>
    obtain ⟨p, hp, hwf, _, hleaves⟩ := hx.read hread hsmall
    have hwalk := (PstReader.paths_internal .none hx.internal hp hwf.header).2
    rw [hwf.btype, hwf.clevel] at hwalk
    apply PstReader.readLeaves_eq_ok.mpr
    refine ⟨_, leaves, PstReader.collectLeafDataBids_eq_ok.mpr ⟨_, hwalk⟩, ?_, rfl⟩
    exact (PstReader.forall₂_readLeafBlockData hwf.children).mpr hleaves
  | @xxblock _ bids groups hint hgroups hlen hnodup h =>
    have hbids := xblock_bids_lt hread hgroups
    have hp := (hread bid _ h).1
    obtain ⟨hheader, hbtype, hclevel, _, hrg⟩ :=
      internalPayload_fields (by decide : 2 < 256) hlen hbids
        (Eq.refl (internalPayload 2 groups.flatten.flatten.length bids))
    obtain ⟨ps, hps, hwfs, hleaves⟩ := read_xblocks hread hgroups hsmall
    rw [nodup_cons] at hnodup
    have hwalk := (PstReader.paths_internal .none hint hp hheader).2
    rw [hbtype, hclevel, hrg] at hwalk
    have hnew : ∀ b ∈ bids, b ∉ ({bid} : Finset Nat) :=
      fun b hb hmem => hnodup.1 (Finset.mem_singleton.mp hmem ▸ hb)
    obtain ⟨visited, hcollect⟩ := (PstReader.collectChildren_eq_ok 31
      (fun b hb => by
        obtain ⟨leaves, _, hx⟩ := exists_right_of_forall₂ hgroups hb
        exact hx.internal)
      hnodup.2 hnew hwfs
      (ps.flatMap PstReader.rgBids)).mpr ⟨ps, hps, rfl⟩
    apply PstReader.readLeaves_eq_ok.mpr
    refine ⟨_, groups.flatten, PstReader.collectLeafDataBids_eq_ok.mpr
      ⟨visited, hwalk.trans hcollect⟩, ?_, rfl⟩
    exact (PstReader.forall₂_readLeafBlockData
      (PstReader.external_of_mem_flatMap hwfs hps)).mpr hleaves

/-- **Assembled** a tree is read as long as it is within the cap. -/
theorem readBlockData_of_dataTree (h : DataTree S bid leaves) (hsmall : ∀ p ∈ leaves, p.length ≤ maxBlockData)
    (hsize : leaves.flatten.length ≤ PstReader.maxXblockAssemble) :
    PstReader.readBlockData file idx bid .none = .ok leaves.flatten := by
  cases h with
  | empty => rfl
  | leaf hext h =>
    rw [readBlockData_external hread hext h]
    simp
  | xblock hx =>
    obtain ⟨p, hp, hwf, _, hleaves⟩ := hx.read hread hsmall
    have hread := (PstReader.paths_internal .none hx.internal hp hwf.header).1
    rw [hread, hwf.btype, hwf.clevel]
    exact (PstReader.readXblockData_eq_ok hwf).mpr ⟨leaves, hleaves, rfl, hsize⟩
  | @xxblock _ bids groups hint hgroups hlen hnodup h =>
    have hbids := xblock_bids_lt hread hgroups
    have hp := (hread bid _ h).1
    obtain ⟨hheader, hbtype, hclevel, hlcb, hrg⟩ :=
      internalPayload_fields (by decide : 2 < 256) hlen hbids
        (Eq.refl (internalPayload 2 groups.flatten.flatten.length bids))
    obtain ⟨ps, hps, hwfs, hleaves⟩ := read_xblocks hread hgroups hsmall
    have hdispatch := (PstReader.paths_internal .none hint hp hheader).1
    rw [hdispatch, hbtype, hclevel]
    apply PstReader.readInternal_eq_ok.mpr
    refine ⟨hheader, ?_, ?_⟩
    · rw [hlcb]
      exact (Nat.mod_le _ _).trans hsize
    · rw [hrg]
      exact (PstReader.readXblocks_iff hwfs).mpr ⟨ps, groups.flatten, hps, hleaves, rfl, hsize⟩

theorem readBlockData_refused (h : DataTree S bid leaves) (hsmall : ∀ p ∈ leaves, p.length ≤ maxBlockData)
    (hsize : PstReader.maxXblockAssemble < leaves.flatten.length)
    (h32 : leaves.flatten.length < 2 ^ 32) : PstReader.readBlockData file idx bid .none
      = .error (.resourceLimit
      s!"xblock/xxblock lcbTotal {leaves.flatten.length} exceeds max {PstReader.maxXblockAssemble}") := by
  have hcap : maxBlockData ≤ PstReader.maxXblockAssemble := by decide
  cases h with
  | empty => exact absurd hsize (Nat.not_lt_zero _)
  | leaf hext h =>
    have := hsmall _ (mem_singleton_self _)
    simp at hsize
    omega
  | xblock hx =>
    obtain ⟨_, _, _, hle, _⟩ := hx.read hread hsmall
    omega
  | @xxblock _ bids groups hint hgroups hlen hnodup h =>
    have hbids := xblock_bids_lt hread hgroups
    have hp := (hread bid _ h).1
    obtain ⟨hheader, hbtype, hclevel, hlcb, _⟩ :=
      internalPayload_fields (by decide : 2 < 256) hlen hbids
        (Eq.refl (internalPayload 2 groups.flatten.flatten.length bids))
    rw [Nat.mod_eq_of_lt h32] at hlcb
    have hdispatch := (PstReader.paths_internal .none hint hp hheader).1
    rw [hdispatch, hbtype, hclevel]
    show PstReader.readInternal _ _ _ = _
    unfold PstReader.readInternal PstReader.checkXblockAssembleLimit
    rw [if_neg (Nat.not_lt.mpr hheader), hlcb, if_pos hsize]
    rfl

end

/-! ## The round trip -/

section

variable [Crc32fast] {l l₁ l₂ l₃ l' : Layout} {nbt bbt : TreePlan}

theorem Finished.readable {file : Bytes} (h : Finished l l' nbt bbt file) (hfits : l'.FitsU64) :
    ∃ root idx, bbt.root = some root ∧
      PstReader.BbtIndex.build file (l'.pageOffset root) = .ok idx ∧ Readable file idx l.Stores := by
  obtain ⟨root, hroot, hback⟩ := h.bbtTree
  obtain ⟨idx, hbuild, hget⟩ := hback.index
  refine ⟨root, idx, hroot, hbuild, fun bid d hs => ?_⟩
  obtain ⟨b, hb, rfl, hlen, hholds⟩ := h.stored bid d hs
  have hentry : HashMap.get idx b.bid = some ⟨b.bid, b.offset, d.length, 1⟩ := by
    rw [hget, ← hlen]
    exact mem_map_of_mem (f := bbtView) hb
  exact ⟨readPayload_of_holds hentry hholds, hfits.blocks b hb⟩

theorem Reachable.readable (h : Reachable l) (hplan : l.planTrees = (nbt, bbt, l₂))
    (hplace : l₂.calculateOffsets = .ok l') (hfits : l'.FitsU64) :
    ∃ writes root idx, finalWrites l' nbt bbt = .ok writes ∧ bbt.root = some root ∧
      PstReader.BbtIndex.build (writeAll 0 l'.staged writes) (l'.pageOffset root) = .ok idx ∧
      Readable (writeAll 0 l'.staged writes) idx l.Stores := by
  obtain ⟨writes, hwrites, hfinished⟩ := finished_of_reachable h hplan hplace hfits
  obtain ⟨root, idx, hroot, hbuild, hread⟩ := hfinished.readable hfits
  exact ⟨writes, root, idx, hwrites, hroot, hbuild, hread⟩

/-- **Node data, written and read back.** What `write_data_chain` accepted is read back from the
finished file, whatever is written after it: leaf by leaf at any size, and assembled up to the cap
of the reader, which refuses a longer value by its declared size. -/
theorem writeDataChain_roundTrip {d : Bytes} {bid : Nat} (h : Reachable l)
    (hwrite : l.writeDataChain d = (.ok bid, l₁)) (hmore : Steps l₁ l₂)
    (hplan : l₂.planTrees = (nbt, bbt, l₃)) (hplace : l₃.calculateOffsets = .ok l')
    (hfits : l'.FitsU64) : ∃ writes root idx, finalWrites l' nbt bbt = .ok writes ∧ bbt.root = some root ∧
      PstReader.BbtIndex.build (writeAll 0 l'.staged writes) (l'.pageOffset root) = .ok idx ∧
      PstReader.readBlockData (writeAll 0 l'.staged writes) idx bid .none
        = (if d.length ≤ PstReader.maxXblockAssemble then .ok d
          else .error (.resourceLimit
            s!"xblock/xxblock lcbTotal {d.length} exceeds max {PstReader.maxXblockAssemble}")) ∧
      PstReader.readLeaves (writeAll 0 l'.staged writes) idx bid .none = .ok d := by
  have hreach := h.steps (steps_writeDataChain hwrite)
  obtain ⟨leaves, htree, rfl, hsmall, hsize⟩ := h.sound.writeDataChain hwrite
  obtain ⟨writes, root, idx, hwrites, hroot, hbuild, hread⟩ :=
    (hreach.steps hmore).readable hplan hplace hfits
  have htree₂ := htree.mono (hreach.sound.keeps hmore)
  refine ⟨writes, root, idx, hwrites, hroot, hbuild, ?_, readLeaves_of_dataTree hread htree₂ hsmall⟩
  split
  · rename_i hcap
    exact readBlockData_of_dataTree hread htree₂ hsmall hcap
  · rename_i hcap
    have h32 : i32Max < 2 ^ 32 := by decide
    exact readBlockData_refused hread htree₂ hsmall (Nat.lt_of_not_le hcap) (by omega)

end

def sampleChain : Layout := (@Layout.writeDataChain Crc32fast.ieee sampleLayout [5, 6, 7]).2

theorem sampleChain_eq :
    @Layout.writeDataChain Crc32fast.ieee sampleLayout [5, 6, 7] = (.ok 17, sampleChain) :=
  Prod.ext (by decide +kernel) rfl

theorem reachable_sampleChain : @Reachable Crc32fast.ieee sampleChain :=
  let _ := Crc32fast.ieee
  reachable_sampleLayout.steps (steps_writeDataChain sampleChain_eq)

theorem writeDataChain_roundTrip_sampleChain :
    ∃ writes root idx,
      @finalWrites Crc32fast.ieee sampleChain.placed sampleChain.planTrees.1 sampleChain.planTrees.2.1
        = .ok writes ∧ sampleChain.planTrees.2.1.root = some root ∧
      PstReader.BbtIndex.build (writeAll 0 sampleChain.placed.staged writes)
        (sampleChain.placed.pageOffset root) = .ok idx ∧
      PstReader.readBlockData (writeAll 0 sampleChain.placed.staged writes) idx 17 .none
        = .ok [5, 6, 7] ∧ PstReader.readLeaves (writeAll 0 sampleChain.placed.staged writes) idx 17 .none
        = .ok [5, 6, 7] := by
  let _ := Crc32fast.ieee
  exact writeDataChain_roundTrip reachable_sampleLayout sampleChain_eq .refl rfl
    reachable_sampleChain.inv.placed_eq (by decide +kernel)

@[irreducible] def beyondCap : Bytes := replicate (PstReader.maxXblockAssemble + 1) 0

theorem length_beyondCap : beyondCap.length = PstReader.maxXblockAssemble + 1 := by
  unfold beyondCap
  exact length_replicate

theorem writeDataChain_not_readBack :
    ∃ bid l', @Layout.writeDataChain Crc32fast.ieee .new beyondCap = (.ok bid, l') ∧
      ∀ file idx, PstReader.readBlockData file idx bid .none ≠ .ok beyondCap := by
  let _ := Crc32fast.ieee
  have hcap : PstReader.maxXblockAssemble + 1 ≤ i32Max := by decide
  have hblock : maxBlockData < PstReader.maxXblockAssemble + 1 := by decide
  have hlen := length_beyondCap
  obtain ⟨bid, l', hwrite⟩ := writeDataChain_inRam (l := .new) rfl (hlen ▸ hcap)
  refine ⟨bid, l', hwrite, fun file idx hread => ?_⟩
  obtain ⟨leaves, htree, hflat, hsmall, _⟩ := (Reachable.inRam .refl).sound.writeDataChain hwrite
  -- a value of this size is stored under an internal BID
  have hint : PstReader.isInternal bid = true := by
    cases htree with
    | empty => rw [← hflat] at hlen; exact absurd hlen (Nat.succ_ne_zero _).symm
    | leaf _ _ =>
      have := hsmall _ (mem_singleton_self _)
      rw [← hflat] at hlen
      simp only [flatten_cons, flatten_nil, append_nil] at hlen
      omega
    | xblock h => exact h.internal
    | xxblock hint => exact hint
  have := PstReader.length_readBlockData_le hint hread
  omega

/-!
# Row matrices, written and read back

`write_row_matrix_tree` puts whole rows into every leaf and pads all leaves but the last; the table
reader assembles the tree and cuts it at every block.
-/

section

variable {matrix : Bytes} {w n : Nat}

theorem length_rowPayloads_le {fuel i : Nat} {p : Bytes}
    (hp : p ∈ rowPayloads matrix w (maxBlockData / w) n fuel i) : p.length ≤ maxBlockData := by
  induction fuel generalizing i with
  | zero => cases hp
  | succ fuel ih =>
    have hrows : maxBlockData / w * w ≤ maxBlockData := Nat.div_mul_le_self _ _
    rw [rowPayloads] at hp
    split at hp
    · rcases List.mem_cons.mp hp with rfl | hp
      · split
        · rw [length_take]
          have : min (n - i) (maxBlockData / w) * w ≤ maxBlockData / w * w :=
            Nat.mul_le_mul_right _ (Nat.min_le_right _ _)
          omega
        · rw [length_resize]
      · exact ih hp
    · cases hp

theorem extractRowsFrom_padded {k fuel : Nat} {rows rest : Bytes} (hlen : rows.length = k * w)
    (hroom : k * w ≤ maxBlockData) (hrest : rest ≠ []) :
    PstReader.extractRowsFrom w k (fuel + 1) (resize maxBlockData 0 rows ++ rest)
      = rows ++ PstReader.extractRowsFrom w k fuel rest := by
  have hpad : (resize maxBlockData 0 rows).length = maxBlockData := length_resize _ _ _
  have hpos : 0 < rest.length := length_pos_of_ne_nil hrest
  have hlong : (resize maxBlockData 0 rows ++ rest).length > PstReader.maxBlockData := by
    rw [length_append, hpad]
    show maxBlockData < maxBlockData + rest.length
    omega
  have hdrop : (resize maxBlockData 0 rows ++ rest).drop PstReader.maxBlockData = rest :=
    drop_left' hpad
  have htake : (resize maxBlockData 0 rows ++ rest).take (k * w) = rows := by
    rw [resize_of_length_le 0 (hlen ▸ hroom), append_assoc, ← hlen, take_left]
  rw [PstReader.extractRowsFrom, if_neg (by simp [hrest]), if_pos hlong, htake, hdrop]

theorem extractRowsFrom_last {k fuel r : Nat} {rows : Bytes} (hw : 0 < w)
    (hlen : rows.length = r * w) (hroom : r * w ≤ maxBlockData) (hne : rows ≠ []) :
    PstReader.extractRowsFrom w k (fuel + 1) rows = rows := by
  have hshort : ¬ rows.length > PstReader.maxBlockData := by
    rw [hlen]
    exact Nat.not_lt.mpr hroom
  rw [PstReader.extractRowsFrom, if_neg hne, if_neg hshort, hlen, Nat.mul_div_cancel _ hw, ← hlen,
    take_length]

theorem extractRowsFrom_rowPayloads (hw : 0 < w) (hle : w ≤ maxBlockData)
    (hlen : matrix.length = n * w) {fuel i fuel' : Nat} (hi : i ≤ n) (hfuel : n - i ≤ fuel)
    (hfuel' : (rowPayloads matrix w (maxBlockData / w) n fuel i).flatten.length ≤ fuel') :
    PstReader.extractRowsFrom w (maxBlockData / w) fuel'
      (rowPayloads matrix w (maxBlockData / w) n fuel i).flatten = matrix.drop (i * w) := by
  have hk : 0 < maxBlockData / w := Nat.div_pos hle hw
  have hroom : maxBlockData / w * w ≤ maxBlockData := Nat.div_mul_le_self _ _
  generalize maxBlockData / w = k at *
  induction fuel generalizing i fuel' with
  | zero =>
    obtain rfl : i = n := by omega
    rw [← hlen, drop_length]
    cases fuel' <;> rfl
  | succ fuel ih =>
    rw [rowPayloads] at hfuel' ⊢
    by_cases hin : i < n
    · rw [if_pos hin] at hfuel' ⊢
      simp only [flatten_cons] at hfuel' ⊢
      have hrestLen : (matrix.drop (i * w)).length = (n - i) * w := by
        rw [length_drop, hlen, Nat.sub_mul]
      by_cases hlast : i + min (n - i) k = n
      · -- the last leaf: the rows that are left
        have htake : min (n - i) k = n - i := by omega
        have hnone : rowPayloads matrix w k n fuel (i + min (n - i) k) = [] := by
          cases fuel with
          | zero => rfl
          | succ fuel => rw [rowPayloads, if_neg (by omega)]
        rw [if_pos hlast, hnone, flatten_nil, append_nil, htake, ← hrestLen,
          take_length] at hfuel' ⊢
        have hne : matrix.drop (i * w) ≠ [] := by
          apply ne_nil_of_length_pos
          rw [hrestLen]
          exact Nat.mul_pos (by omega) hw
        have hpos := length_pos_of_ne_nil hne
        obtain ⟨fuel'', rfl⟩ := Nat.exists_eq_succ_of_ne_zero (show fuel' ≠ 0 by omega)
        have hfew : (n - i) * w ≤ k * w := Nat.mul_le_mul_right _ (by omega)
        exact extractRowsFrom_last hw hrestLen (hfew.trans hroom) hne
      · -- a leaf in front of others: `k` rows, then the leaves from row `i + k` on
        have htake : min (n - i) k = k := by omega
        rw [if_neg hlast, htake] at hfuel' ⊢
        have hrowsLen : ((matrix.drop (i * w)).take (k * w)).length = k * w := by
          have : k * w ≤ (n - i) * w := Nat.mul_le_mul_right _ (by omega)
          rw [length_take, hrestLen]
          omega
        rw [length_append, length_resize] at hfuel'
        have hblock : maxBlockData = 8176 := rfl
        obtain ⟨fuel'', rfl⟩ := Nat.exists_eq_succ_of_ne_zero (show fuel' ≠ 0 by omega)
        have hrest : PstReader.extractRowsFrom w k fuel''
            (rowPayloads matrix w k n fuel (i + k)).flatten = matrix.drop ((i + k) * w) :=
          ih (by omega) (by omega) (by omega)
        have hne : (rowPayloads matrix w k n fuel (i + k)).flatten ≠ [] := by
          intro hnil
          rw [hnil] at hrest
          have hmore : 0 < (matrix.drop ((i + k) * w)).length := by
            rw [length_drop, hlen, ← Nat.sub_mul]
            exact Nat.mul_pos (by omega) hw
          rw [← hrest] at hmore
          cases fuel'' <;> cases hmore
        rw [extractRowsFrom_padded hrowsLen hroom hne, hrest, Nat.add_mul, ← drop_drop,
          take_append_drop]
    · obtain rfl : i = n := by omega
      rw [if_neg hin, ← hlen, drop_length]
      cases fuel' <;> rfl

end

section

variable [Crc32fast] {l l' : Layout} {matrix : Bytes} {w : Nat} {root : Nat × Nat}

theorem writeRowMatrixTree_eq_ok (h : l.writeRowMatrixTree matrix w = (.ok root, l')) :
    (matrix = [] ∧ root = (0, 0) ∧ l' = l) ∨
    (matrix ≠ [] ∧ w ≠ 0 ∧ matrix.length % w = 0 ∧ maxBlockData / w ≠ 0 ∧
      ∃ chunks l₁, l.pushLeaves (rowPayloads matrix w (maxBlockData / w) (matrix.length / w)
          (matrix.length / w) 0) = (.ok chunks, l₁) ∧ root.2 = (chunks.map snd).sum ∧
        ((chunks.length = 1 ∧ chunks.map fst = [root.1] ∧ l' = l₁) ∨
          l₁.buildChunkTree chunks (asU32 root.2) rowMatrixOverflowMessage = (.ok root.1, l'))) := by
  unfold Layout.writeRowMatrixTree at h
  split at h
  · rename_i hempty
    cases h
    exact .inl ⟨hempty, rfl, rfl⟩
  rename_i hne
  split at h
  · cases h
  rename_i hw
  split at h
  · cases h
  rename_i hmod
  split at h
  · cases h
  rename_i hwide
  simp only at h
  split at h
  · cases h
  rename_i chunks l₁ hpush
  refine .inr ⟨hne, hw, by omega, hwide, chunks, l₁, hpush, ?_⟩
  split at h
  · cases h
    exact ⟨rfl, .inl ⟨rfl, rfl, rfl⟩⟩
  · split at h
    · cases h
    · rename_i hbuild
      cases h
      exact ⟨rfl, .inr hbuild⟩

theorem steps_writeRowMatrixTree (h : l.writeRowMatrixTree matrix w = (.ok root, l')) : Steps l l' := by
  rcases writeRowMatrixTree_eq_ok h with ⟨_, _, rfl⟩ | ⟨_, _, _, _, chunks, l₁, hpush, _, hroot⟩
  · exact .refl
  have hleaves := steps_pushLeaves (fun p hp => length_rowPayloads_le hp) hpush
  rcases hroot with ⟨_, _, rfl⟩ | hbuild
  · exact hleaves
  · have htree : Steps l₁ _ := steps_buildChunkTree chunks (asU32 root.2) rowMatrixOverflowMessage
    rw [hbuild] at htree
    exact hleaves.trans htree

theorem Layout.Sound.writeRowMatrixTree (h : l.Sound) (hw : 1 ≤ w)
    (hle : w ≤ maxBlockData) (hwrite : l.writeRowMatrixTree matrix w = (.ok root, l')) :
    ∃ leaves, DataTree l'.Stores root.1 leaves ∧ (∀ p ∈ leaves, p.length ≤ maxBlockData) ∧
      root.2 = leaves.flatten.length ∧
      PstReader.extractRowsPerBlock leaves.flatten w = .ok (matrix, matrix.length / w) := by
  have hk : maxBlockData / w ≠ 0 := Nat.ne_of_gt (Nat.div_pos hle hw)
  have hextract : ∀ payload, PstReader.extractRowsFrom w (maxBlockData / w) payload.length payload
      = matrix → PstReader.extractRowsPerBlock payload w = .ok (matrix, matrix.length / w) := by
    intro payload hcut
    unfold PstReader.extractRowsPerBlock
    rw [if_neg (by omega), show PstReader.maxBlockData = maxBlockData from rfl, if_neg hk]
    simp only [hcut]
  rcases writeRowMatrixTree_eq_ok hwrite with
    ⟨rfl, rfl, rfl⟩ | ⟨_, _, hmod, _, chunks, l₁, hpush, htotal, hroot⟩
  · exact ⟨[], .empty, fun p hp => (nomatch hp), rfl, hextract [] rfl⟩
  have hlen : matrix.length = matrix.length / w * w :=
    (Nat.div_mul_cancel (Nat.dvd_of_mod_eq_zero hmod)).symm
  have hsmall : ∀ p ∈ rowPayloads matrix w (maxBlockData / w) (matrix.length / w)
      (matrix.length / w) 0, p.length ≤ maxBlockData := fun p hp => length_rowPayloads_le hp
  have hleaves := h.pushLeaves hsmall hpush
  have hsizes := length_pushLeaves hpush
  have hsum : root.2 = (rowPayloads matrix w (maxBlockData / w) (matrix.length / w)
      (matrix.length / w) 0).flatten.length := by
    rw [htotal, hsizes, length_flatten]
  refine ⟨_, ?_, hsmall, hsum, hextract _ ?_⟩
  · rcases hroot with ⟨hone, hbid, rfl⟩ | hbuild
    · rw [hbid] at hleaves
      generalize rowPayloads _ _ _ _ _ _ = leaves at hleaves
      obtain ⟨p, _, hp, hnil, rfl⟩ := List.forall₂_cons_left_iff.mp hleaves
      obtain rfl := List.forall₂_nil_left_iff.mp hnil
      exact .leaf hp.1 hp.2
    · apply (h.steps (steps_pushLeaves hsmall hpush)).buildChunkTree hleaves hsizes _ hbuild
      rw [← hsum]
      exact Nat.mod_mod _ _
  · have hcut := extractRowsFrom_rowPayloads hw hle hlen (Nat.zero_le _) (Nat.le_refl _)
      (Nat.le_refl _)
    rwa [Nat.zero_mul, drop_zero] at hcut

end

/-! ## The round trip -/

section

variable [Crc32fast] {l l₁ l₂ l₃ l' : Layout} {nbt bbt : TreePlan}

/-- **Rows, written and read back.** The leaves that `write_row_matrix_tree` leaves behind, read
from the finished file and cut by the rule of the table reader, are the written rows in order and no
others. Within the cap of the reader the assembled bytes are the same. -/
theorem writeRowMatrixTree_roundTrip {w : Nat} {rows : List Bytes} {bid total : Nat} (hw : 1 ≤ w)
    (hle : w ≤ maxBlockData) (hrows : ∀ r ∈ rows, r.length = w) (h : Reachable l)
    (hwrite : l.writeRowMatrixTree rows.flatten w = (.ok (bid, total), l₁)) (hmore : Steps l₁ l₂)
    (hplan : l₂.planTrees = (nbt, bbt, l₃)) (hplace : l₃.calculateOffsets = .ok l')
    (hfits : l'.FitsU64) :
    ∃ writes root idx payload, finalWrites l' nbt bbt = .ok writes ∧ bbt.root = some root ∧
      PstReader.BbtIndex.build (writeAll 0 l'.staged writes) (l'.pageOffset root) = .ok idx ∧
      PstReader.readLeaves (writeAll 0 l'.staged writes) idx bid .none = .ok payload ∧ payload.length = total ∧
      (total ≤ PstReader.maxXblockAssemble →
        PstReader.readBlockData (writeAll 0 l'.staged writes) idx bid .none = .ok payload) ∧
      PstReader.extractRowsPerBlock payload w = .ok (rows.flatten, rows.length) ∧
      chunks w rows.flatten = rows := by
  have hreach := h.steps (steps_writeRowMatrixTree hwrite)
  obtain ⟨leaves, htree, hsmall, htotal, hcut⟩ := h.sound.writeRowMatrixTree hw hle hwrite
  obtain ⟨writes, root, idx, hwrites, hroot, hbuild, hread⟩ :=
    (hreach.steps hmore).readable hplan hplace hfits
  have htree₂ := htree.mono (hreach.sound.keeps hmore)
  have hcount : rows.flatten.length / w = rows.length := by
    rw [length_flatten_of_width hrows, Nat.mul_div_cancel _ hw]
  rw [hcount] at hcut
  refine ⟨writes, root, idx, leaves.flatten, hwrites, hroot, hbuild,
    readLeaves_of_dataTree hread htree₂ hsmall, htotal.symm, fun hcap => ?_, hcut, chunks_flatten hw hrows⟩
  exact readBlockData_of_dataTree hread htree₂ hsmall (htotal ▸ hcap)

end

def sampleRows : List Bytes := [replicate 4000 1, replicate 4000 2, replicate 4000 3]

@[irreducible] def sampleMatrix : Layout :=
  (@Layout.writeRowMatrixTree Crc32fast.ieee .new sampleRows.flatten 4000).2

theorem sampleMatrix_runs :
    (@Layout.writeRowMatrixTree Crc32fast.ieee .new sampleRows.flatten 4000).1 = .ok (18, 12176) ∧
    (@Layout.writeRowMatrixTree Crc32fast.ieee .new sampleRows.flatten 4000).2.placed.FitsU64 := by
  decide +kernel

theorem sampleMatrix_eq : @Layout.writeRowMatrixTree Crc32fast.ieee .new sampleRows.flatten 4000
    = (.ok (18, 12176), sampleMatrix) := by
  have hok := sampleMatrix_runs.1
  unfold sampleMatrix
  generalize @Layout.writeRowMatrixTree Crc32fast.ieee .new sampleRows.flatten 4000 = run at hok ⊢
  exact Prod.ext hok rfl

theorem length_sampleRows : ∀ r ∈ sampleRows, r.length = 4000 := by
  intro r hr
  simp only [sampleRows, mem_cons, not_mem_nil, or_false] at hr
  rcases hr with rfl | rfl | rfl <;> exact length_replicate

theorem writeRowMatrixTree_roundTrip_sampleRows :
    ∃ writes root idx payload, @finalWrites Crc32fast.ieee sampleMatrix.placed sampleMatrix.planTrees.1
        sampleMatrix.planTrees.2.1 = .ok writes ∧ sampleMatrix.planTrees.2.1.root = some root ∧
      PstReader.BbtIndex.build (writeAll 0 sampleMatrix.placed.staged writes)
        (sampleMatrix.placed.pageOffset root) = .ok idx ∧
      PstReader.readLeaves (writeAll 0 sampleMatrix.placed.staged writes) idx 18 .none = .ok payload ∧
      payload.length = 12176 ∧ (12176 ≤ PstReader.maxXblockAssemble →
        PstReader.readBlockData (writeAll 0 sampleMatrix.placed.staged writes) idx 18 .none
          = .ok payload) ∧
      PstReader.extractRowsPerBlock payload 4000 = .ok (sampleRows.flatten, sampleRows.length) ∧
      chunks 4000 sampleRows.flatten = sampleRows := by
  let _ := Crc32fast.ieee
  have hreach : Reachable sampleMatrix :=
    .inRam (steps_writeRowMatrixTree sampleMatrix_eq)
  have hfits : sampleMatrix.placed.FitsU64 := by
    unfold sampleMatrix
    exact sampleMatrix_runs.2
  exact writeRowMatrixTree_roundTrip (by decide) (by decide) length_sampleRows (.inRam .refl)
    sampleMatrix_eq .refl rfl hreach.inv.placed_eq hfits

end PstWriter
