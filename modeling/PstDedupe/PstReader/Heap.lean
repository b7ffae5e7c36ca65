import PstDedupe.PstReader.Block

/-!
# Table contexts (`pst-reader/src/ltp/tc.rs`)

The row matrix of a table that does not fit into its heap is a data tree.
-/

namespace PstReader

open Rust List

def maxBlockData : Nat := 8176

/-- The loop of `extract_rows_per_block` on what is left of the payload. Every round takes a byte at
least, so the length bounds the rounds. -/
def extractRowsFrom (rowSize rowsPerBlock : Nat) : Nat → Bytes → Bytes
  | 0, _ => []
  | fuel + 1, rest =>
    if rest = [] then []
    else if rest.length > maxBlockData then
      rest.take (rowsPerBlock * rowSize)
        ++ extractRowsFrom rowSize rowsPerBlock fuel (rest.drop maxBlockData)
    else rest.take (rest.length / rowSize * rowSize)

def extractRowsPerBlock (payload : Bytes) (rowSize : Nat) : Result (Bytes × Nat) :=
  if rowSize = 0 then .error (.resourceLimit "TC row width is 0; cannot unpack row matrix")
  else if maxBlockData / rowSize = 0 then
    .error (.resourceLimit s!"TC row width {rowSize} exceeds block payload {maxBlockData}")
  else
    let out := extractRowsFrom rowSize (maxBlockData / rowSize) payload.length payload
    .ok (out, out.length / rowSize)

/-!
# Heap on node and tree on heap (`pst-reader/src/ltp/hn.rs`, `bth.rs`)

Everything here reads bytes that the file controls: page maps, allocation offsets, child HIDs.
-/

open Foundations

abbrev Reader := Code PstError

structure Hid where
  raw : Nat
  deriving DecidableEq, Repr

def Hid.hidType (hid : Hid) : Nat := hid.raw % 32
def Hid.hidIndex (hid : Hid) : Nat := hid.raw / 2 ^ 5 % 2 ^ 11
def Hid.hidBlockIndex (hid : Hid) : Nat := hid.raw / 2 ^ 16 % 2 ^ 16
def Hid.isNull (hid : Hid) : Bool := hid.raw == 0

theorem Hid.hidIndex_lt (hid : Hid) : hid.hidIndex < 2 ^ 11 := Nat.mod_lt _ (by decide)

theorem Hid.hidBlockIndex_lt (hid : Hid) : hid.hidBlockIndex < 2 ^ 16 := Nat.mod_lt _ (by decide)

variable [PointerWidth]

structure HnHeader where
  ibHnpm : Nat
  bSig : Nat
  bClientSig : Nat
  hidUserRoot : Hid
  rgbFillLevel : Nat

/-- `Heap`. Every loader cuts the node data into blocks of `blockSizeOf data`, so no heap has larger
ones; `ibHnpm` is a `u16`. -/
structure Heap where
  data : Slice
  blockSize : Nat
  header : HnHeader
  blockSize_le : blockSize ≤ maxBlockData
  ibHnpm_lt : header.ibHnpm < 256 ^ 2

/-- The block size the loaders pass to `Heap::parse`. -/
def blockSizeOf (data : Slice) : { n : Nat // n ≤ maxBlockData } :=
  if h : data.len ≤ maxBlockData then ⟨data.len, h⟩ else ⟨maxBlockData, le_rfl⟩

/-- `LittleEndian::read_u16`, with the bound of the type. -/
def readU16 (s : Slice) : Reader { n : Nat // n < 256 ^ 2 } :=
  if h : 2 ≤ s.len then pure ⟨ofLeBytes (s.bytes.take 2), ofLeBytes_take_lt h⟩
  else panic .indexOutOfBounds

theorem safe_readU16 {s : Slice} (h : 2 ≤ s.len) : NoPanic (readU16 s) := by
  unfold readU16
  rw [dif_pos h]
  trivial

def Heap.parse (data : Slice) (blockSize : { n : Nat // n ≤ maxBlockData }) : Reader Heap :=
  if data.len < 12 then throw (.dataTruncated 12 data.len)
  else do
    let ibHnpm ← readU16 (← data.range 0 2)
    let bSig ← data.at 2
    let bClientSig ← data.at 3
    let hidUserRoot ← (← data.range 4 8).readLe 4
    let rgbFillLevel ← (← data.range 8 12).readLe 4
    if bSig ≠ 0xEC then throw (.invalidHnSignature bSig.toNat)
    else
      pure {
        data, blockSize := blockSize.1
        header := {
          ibHnpm := ibHnpm.1, bSig := bSig.toNat, bClientSig := bClientSig.toNat
          hidUserRoot := ⟨hidUserRoot⟩, rgbFillLevel }
        blockSize_le := blockSize.2
        ibHnpm_lt := ibHnpm.2 }

def Heap.hnpmOffset (heap : Heap) (blockIndex : Nat) (blockData : Slice) : Reader { n : Nat // n < 256 ^ 2 } :=
  if blockIndex = 0 then pure ⟨heap.header.ibHnpm, heap.ibHnpm_lt⟩
  else if blockData.len < 2 then throw (.dataTruncated 2 blockData.len)
  else do readU16 (← blockData.range 0 2)

def Heap.allocation (blockData : Slice) (hnpmOffset allocIndex : Nat) (hid : Hid) : Reader Slice := do
  let afterAlloc ← addUsize hnpmOffset 2
  if afterAlloc > blockData.len then throw (.dataTruncated afterAlloc blockData.len)
  else
    let afterFree ← addUsize hnpmOffset 4
    if afterFree > blockData.len then throw (.dataTruncated afterFree blockData.len)
    else
      let cAlloc ← (← blockData.range hnpmOffset (← addUsize hnpmOffset 2)).readLe 2
      let _cFree ← (← blockData.range (← addUsize hnpmOffset 2) (← addUsize hnpmOffset 4)).readLe 2
      if allocIndex > cAlloc then throw (.invalidHid hid.raw)
      else
        let rgibStart ← addUsize hnpmOffset 4
        let offsetA ← addUsize rgibStart (← mulUsize (← subUsize allocIndex 1) 2)
        let offsetB ← addUsize rgibStart (← mulUsize allocIndex 2)
        let rgibEnd ← addUsize offsetB 2
        if rgibEnd > blockData.len then throw (.dataTruncated rgibEnd blockData.len)
        else
          let start ← (← blockData.range offsetA (← addUsize offsetA 2)).readLe 2
          let stop ← (← blockData.range offsetB (← addUsize offsetB 2)).readLe 2
          if start > stop ∨ stop > blockData.len then throw (.dataTruncated stop blockData.len)
          else blockData.range start stop

def Heap.get (heap : Heap) (hid : Hid) : Reader Slice :=
  if hid.isNull then pure .empty
  else if hid.hidType ≠ 0 then throw (.invalidHid hid.raw)
  else if hid.hidIndex = 0 then throw (.invalidHid hid.raw)
  else do
    let blockStart ← mulUsize hid.hidBlockIndex heap.blockSize
    if blockStart ≥ heap.data.len then throw (.invalidHid hid.raw)
    else
      let blockEnd := min (← addUsize blockStart heap.blockSize) heap.data.len
      let blockData ← heap.data.range blockStart blockEnd
      let hnpmOffset ← heap.hnpmOffset hid.hidBlockIndex blockData
      Heap.allocation blockData hnpmOffset.1 hid.hidIndex hid

theorem safe_parse (data : Slice) (blockSize : { n : Nat // n ≤ maxBlockData }) :
    NoPanic (Heap.parse data blockSize) := by
  unfold Heap.parse
  split
  · exact safe_throw
  · rename_i hlen
    rw [Slice.range_eq (by omega) (by omega), pure_bind]
    refine (safe_readU16 (by rw [data.len_sub (by omega) (by omega)])).bind fun ibHnpm _ => ?_
    refine (Slice.safe_at (by omega)).bind fun bSig _ => ?_
    refine (Slice.safe_at (by omega)).bind fun bClientSig _ => ?_
    refine Slice.safe_field (by omega) (by omega) fun hidUserRoot _ => ?_
    refine Slice.safe_field (by omega) (by omega) fun rgbFillLevel _ => ?_
    split
    · exact safe_throw
    · trivial

/-- Where the page map of its block says that an allocation begins. -/
def Heap.start (heap : Heap) (hid : Hid) : Nat :=
  let blockStart := hid.hidBlockIndex * heap.blockSize
  let blockData := (heap.data.bytes.drop blockStart).take heap.blockSize
  let pageMap := if hid.hidBlockIndex = 0 then heap.header.ibHnpm else readLe 2 blockData 0
  blockStart + readLe 2 blockData (pageMap + 4 + (hid.hidIndex - 1) * 2)

theorem safe_hnpmOffset (heap : Heap) (blockIndex : Nat) (blockData : Slice) :
    Safe (heap.hnpmOffset blockIndex blockData) fun n =>
      n.1 = if blockIndex = 0 then heap.header.ibHnpm else readLe 2 blockData.bytes 0 := by
  unfold Heap.hnpmOffset
  split
  · rfl
  · split
    · exact safe_throw
    · rename_i hlen
      have hcells : 2 ≤ (blockData.sub 0 2).len := by rw [blockData.len_sub (by omega) (by omega)]
      rw [Slice.range_eq (by omega) (by omega), pure_bind, readU16, dif_pos hcells]
      show ofLeBytes (((blockData.bytes.drop 0).take 2).take 2) = _
      rw [take_take]
      rfl

theorem safe_allocation (blockData : Slice) {hnpmOffset allocIndex : Nat} (hid : Hid)
    (hoffset : hnpmOffset < 256 ^ 2) (hpos : allocIndex ≠ 0) (hindex : allocIndex < 2 ^ 11) :
    let start := readLe 2 blockData.bytes (hnpmOffset + 4 + (allocIndex - 1) * 2)
    Safe (Heap.allocation blockData hnpmOffset allocIndex hid) fun data =>
      ∃ stop, start ≤ stop ∧ stop ≤ blockData.len ∧ data = blockData.sub start stop := by
  intro start
  have hmax : 2 ^ 31 - 1 ≤ isizeMax := isizeMax_ge
  have husize := usizeMax_eq
  unfold Heap.allocation
  simp (disch := omega) only [addUsize_eq, mulUsize_eq, subUsize_eq, pure_bind]
  split
  · exact safe_throw
  · split
    · exact safe_throw
    · refine Slice.safe_field (by omega) (by omega) fun cAlloc _ => ?_
      refine Slice.safe_field (by omega) (by omega) fun _cFree _ => ?_
      split
      · exact safe_throw
      · split
        · exact safe_throw
        · rw [Slice.field_eq (by omega) (by omega)]
          refine Slice.safe_field (by omega) (by omega) fun stop _ => ?_
          split
          · exact safe_throw
          · rw [Slice.range_eq (by omega) (by omega)]
            exact ⟨stop, by omega, by omega, rfl⟩

/-- An allocation is the bytes of the heap from where the page map says on. -/
theorem get_within (heap : Heap) (hid : Hid) : Safe (heap.get hid) fun data => hid.isNull = false →
    heap.start hid + data.len ≤ heap.data.len ∧
      data.bytes = (heap.data.bytes.drop (heap.start hid)).take data.len := by
  have hmax : 2 ^ 31 - 1 ≤ isizeMax := isizeMax_ge
  have husize := usizeMax_eq
  have hblock : hid.hidBlockIndex * heap.blockSize ≤ 2 ^ 16 * maxBlockData :=
    Nat.mul_le_mul (Nat.le_of_lt hid.hidBlockIndex_lt) heap.blockSize_le
  have hsize := heap.blockSize_le
  unfold maxBlockData at hblock hsize
  unfold Heap.get
  split
  · rename_i hnull
    exact fun h => absurd (hnull.symm.trans h) (by decide)
  split
  · exact safe_throw
  split
  · exact safe_throw
  rename_i hindex
  rw [mulUsize_eq (by omega), pure_bind]
  split
  · exact safe_throw
  rw [addUsize_eq (by omega), pure_bind]
  dsimp only
  rw [Slice.range_eq (by omega) (by omega), pure_bind]
  refine (safe_hnpmOffset heap _ _).bind fun hnpmOffset hmap => ?_
  refine (safe_allocation _ hid hnpmOffset.2 hindex hid.hidIndex_lt).mono fun data hdata _ => ?_
  obtain ⟨stop, hstart, hstop, rfl⟩ := hdata
  -- the block that `start` looks into is the one that is read
  have hblockData : (heap.data.sub (hid.hidBlockIndex * heap.blockSize)
      (min (hid.hidBlockIndex * heap.blockSize + heap.blockSize) heap.data.len)).bytes
        = (heap.data.bytes.drop (hid.hidBlockIndex * heap.blockSize)).take heap.blockSize := by
    unfold Slice.sub Slice.len
    rw [take_eq_take_iff, length_drop]
    omega
  have hwhere : heap.start hid = hid.hidBlockIndex * heap.blockSize + _ :=
    congrArg (hid.hidBlockIndex * heap.blockSize + ·)
      (show _ = readLe 2 _ (hnpmOffset.1 + 4 + (hid.hidIndex - 1) * 2) by rw [hmap, hblockData])
  rw [hwhere, ← hblockData]
  exact heap.data.sub_sub (by omega) (by omega) hstart hstop

theorem safe_get (heap : Heap) (hid : Hid) : NoPanic (heap.get hid) :=
  (get_within heap hid).mono fun _ _ => trivial

structure BthHeader where
  bType : UInt8
  cbKey : UInt8
  cbEnt : UInt8
  bIdxLevels : UInt8
  hidRoot : Hid

structure BthRecord where
  key : Slice
  data : Slice

def readBthHeader (heap : Heap) (hid : Hid) : Reader BthHeader := do
  let data ← heap.get hid
  if data.len < 8 then throw (.dataTruncated 8 data.len)
  else
    let bType ← data.at 0
    if bType ≠ 0xB5 then throw (.invalidBthType bType.toNat)
    else
      let cbKey ← data.at 1
      let cbEnt ← data.at 2
      let bIdxLevels ← data.at 3
      let hidRoot ← (← data.range 4 8).readLe 4
      pure { bType, cbKey, cbEnt, bIdxLevels, hidRoot := ⟨hidRoot⟩ }

def collectLeafRecords (data : Slice) (cbKey recordSize : Nat) : List Nat → Reader (List BthRecord)
  | [] => pure []
  | i :: is => do
    let offset ← mulUsize i recordSize
    let stop ← addUsize offset recordSize
    if stop > data.len then pure []
    else
      let key ← data.range offset (← addUsize offset cbKey)
      let value ← data.range (← addUsize offset cbKey) (← addUsize offset recordSize)
      let rest ← collectLeafRecords data cbKey recordSize is
      pure (⟨key, value⟩ :: rest)

/-- The loop of `collect_level` over the children of an index level. -/
def collectIndexRecords (data : Slice) (cbKey recordSize : Nat)
    (child : Hid → Reader (List BthRecord)) : List Nat → Reader (List BthRecord)
  | [] => pure []
  | i :: is => do
    let offset ← mulUsize i recordSize
    let stop ← addUsize offset recordSize
    if stop > data.len then pure []
    else
      let hidChildOffset ← addUsize offset cbKey
      let hidChild ← (← data.range hidChildOffset (← addUsize hidChildOffset 4)).readLe 4
      let here ← child ⟨hidChild⟩
      let rest ← collectIndexRecords data cbKey recordSize child is
      pure (here ++ rest)

/-- `collect_level`; an index level passes `level - 1` down. -/
def collectLevel (heap : Heap) (header : BthHeader) : Nat → Hid → Reader (List BthRecord)
  | 0, hid => do
    let data ← heap.get hid
    let recordSize ← addUsize header.cbKey.toNat header.cbEnt.toNat
    if recordSize = 0 then pure []
    else collectLeafRecords data header.cbKey.toNat recordSize (range (data.len / recordSize))
  | level + 1, hid => do
    let data ← heap.get hid
    let recordSize ← addUsize header.cbKey.toNat 4
    if recordSize = 0 then pure []
    else
      collectIndexRecords data header.cbKey.toNat recordSize (collectLevel heap header level)
        (range (data.len / recordSize))

def collectRecords (heap : Heap) (header : BthHeader) : Reader (List BthRecord) :=
  if header.hidRoot.isNull then pure []
  else collectLevel heap header header.bIdxLevels.toNat header.hidRoot

theorem safe_readBthHeader (heap : Heap) (hid : Hid) : NoPanic (readBthHeader heap hid) := by
  refine (safe_get heap hid).bind fun data _ => ?_
  split
  · exact safe_throw
  refine (Slice.safe_at (by omega)).bind fun bType _ => ?_
  split
  · exact safe_throw
  refine (Slice.safe_at (by omega)).bind fun cbKey _ => ?_
  refine (Slice.safe_at (by omega)).bind fun cbEnt _ => ?_
  refine (Slice.safe_at (by omega)).bind fun bIdxLevels _ => ?_
  exact Slice.safe_field (by omega) (by omega) fun hidRoot _ => trivial

theorem mul_le_len {data : Slice} {recordSize i : Nat}
    (hi : i ∈ range (data.len / recordSize)) : i * recordSize ≤ data.len :=
  (Nat.mul_le_mul_right _ (Nat.le_of_lt (List.mem_range.mp hi))).trans (Nat.div_mul_le_self _ _)

theorem safe_collectLeafRecords (data : Slice) {cbKey recordSize : Nat} (hkey : cbKey ≤ recordSize)
    (hsize : recordSize < 2 ^ 10) {is : List Nat} (his : ∀ i ∈ is, i * recordSize ≤ data.len) :
    NoPanic (collectLeafRecords data cbKey recordSize is) := by
  have hmax : 2 ^ 31 - 1 ≤ isizeMax := isizeMax_ge
  have husize := usizeMax_eq
  have hlen := data.len_le
  induction is with
  | nil => trivial
  | cons i is ih =>
    have hi := his i mem_cons_self
    unfold collectLeafRecords
    simp (disch := omega) only [addUsize_eq, mulUsize_eq, pure_bind]
    split
    · trivial
    · rw [Slice.range_eq (by omega) (by omega), pure_bind,
        Slice.range_eq (by omega) (by omega), pure_bind]
      exact (ih fun j hj => his j (mem_cons_of_mem _ hj)).bind fun _ _ => trivial

theorem safe_collectIndexRecords (data : Slice) {cbKey recordSize : Nat} (hkey : cbKey + 4 = recordSize)
    (hsize : recordSize < 2 ^ 10) {child : Hid → Reader (List BthRecord)}
    (hchild : ∀ hid, NoPanic (child hid)) {is : List Nat}
    (his : ∀ i ∈ is, i * recordSize ≤ data.len) :
    NoPanic (collectIndexRecords data cbKey recordSize child is) := by
  have hmax : 2 ^ 31 - 1 ≤ isizeMax := isizeMax_ge
  have husize := usizeMax_eq
  have hlen := data.len_le
  induction is with
  | nil => trivial
  | cons i is ih =>
    have hi := his i mem_cons_self
    unfold collectIndexRecords
    simp (disch := omega) only [addUsize_eq, mulUsize_eq, pure_bind]
    split
    · trivial
    · refine Slice.safe_field (by omega) (by omega) fun hidChild _ => ?_
      refine (hchild _).bind fun _ _ => ?_
      exact (ih fun j hj => his j (mem_cons_of_mem _ hj)).bind fun _ _ => trivial

theorem safe_collectLevel (heap : Heap) (header : BthHeader) (level : Nat) (hid : Hid) :
    NoPanic (collectLevel heap header level hid) := by
  have hmax : 2 ^ 31 - 1 ≤ isizeMax := isizeMax_ge
  have husize := usizeMax_eq
  have hkey : header.cbKey.toNat < 256 := header.cbKey.toNat_lt
  have hent : header.cbEnt.toNat < 256 := header.cbEnt.toNat_lt
  induction level generalizing hid with
  | zero =>
    refine (safe_get heap hid).bind fun data _ => ?_
    rw [addUsize_eq (by omega), pure_bind]
    split
    · trivial
    · exact safe_collectLeafRecords data (by omega) (by omega) fun i hi => mul_le_len hi
  | succ level ih =>
    refine (safe_get heap hid).bind fun data _ => ?_
    rw [addUsize_eq (by omega), pure_bind]
    split
    · trivial
    · exact safe_collectIndexRecords data rfl (by omega) ih fun i hi => mul_le_len hi

theorem safe_collectRecords (heap : Heap) (header : BthHeader) : NoPanic (collectRecords heap header) := by
  unfold collectRecords
  split
  · trivial
  · exact safe_collectLevel heap header _ _

end PstReader
