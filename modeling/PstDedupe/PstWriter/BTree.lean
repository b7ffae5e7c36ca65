import PstDedupe.Foundations.Chunks
import PstDedupe.PstWriter.Layout

/-!
# Writing the B-trees (`pst-writer/src/production.rs`)

The pages of both trees are reserved by `planTree` while no offset is known; `calculateOffsets`
places them, and `writeNbt` and `writeBbt` fill them.
-/

namespace PstWriter

open Rust Foundations List Prod

def nbtLeafEntrySize : Nat := 32
def bbtLeafEntrySize : Nat := 24
/-- `key(8) bid(8) ib(8)`. -/
def intermediateEntrySize : Nat := 24
def intermediateEntriesPerPage : Nat := 488 / intermediateEntrySize

/-- The BIDs of the reserved pages, level by level: the leaves first, the root last. -/
structure TreePlan where
  ptype : Nat
  levels : List (List Nat)
  leafEntrySize : Nat
  perLeafCapacity : Nat
  deriving DecidableEq, Repr

/-- `(0..count).map(|_| self.reserve_page(ptype))`. -/
def Layout.reservePages (l : Layout) (ptype : Nat) : Nat → List Nat × Layout
  | 0 => ([], l)
  | count + 1 =>
    let (bid, l) := l.reservePage ptype
    let (bids, l) := l.reservePages ptype count
    (bid :: bids, l)

/-- The loop that reserves the levels above one of `prevLen` pages. Each is shorter than the one
below, so the first count bounds the rounds. -/
def Layout.planLevels (l : Layout) (ptype : Nat) : Nat → Nat → List (List Nat) × Layout
  | 0, _ => ([], l)
  | fuel + 1, prevLen =>
    if prevLen > 1 then
      let nextCount := max
        ((prevLen + intermediateEntriesPerPage - 1) / intermediateEntriesPerPage) 1
      let (next, l) := l.reservePages ptype nextCount
      let (rest, l) := l.planLevels ptype fuel nextCount
      (next :: rest, l)
    else ([], l)

def Layout.planTree (l : Layout) (ptype leafEntrySize entryCount : Nat) : TreePlan × Layout :=
  let perLeaf := max (488 / leafEntrySize) 1
  let leafCount := max ((entryCount + perLeaf - 1) / perLeaf) 1
  let (leaves, l) := l.reservePages ptype leafCount
  let (upper, l) := l.planLevels ptype leafCount leafCount
  (⟨ptype, leaves :: upper, leafEntrySize, perLeaf⟩, l)

def pageOffsetMap (l : Layout) : HashMap Nat Nat :=
  HashMap.insertAll (l.pages.map fun p => (p.bid, p.offset)) ∅

def TreePlan.root (plan : TreePlan) : Option Nat := plan.levels.getLast?.bind head?

/-- What `seek` and `write_all` put where. -/
abbrev Writes := List (Nat × Bytes)

/-- `page_offsets.get(bid).ok_or_else(..)`. -/
def offsetOf (pageOffsets : HashMap Nat Nat) (message : String) (bid : Nat) : Result Nat :=
  match pageOffsets.get bid with
  | none => .error (.layout message)
  | some offset => .ok offset

def encodeNbtLeaf (n : NodeEntry) : Bytes :=
  leBytes 8 n.nid ++ leBytes 8 n.bidData ++ leBytes 8 n.bidSub ++ leBytes 4 n.nidParent
    ++ [0, 0, 0, 0]

/-- `encode_bbt_leaf`: the length is cast to 16 bits, the reference count is 1. -/
def encodeBbtLeaf (b : BlockEntry) : Bytes :=
  leBytes 8 b.bid ++ leBytes 8 b.offset ++ leBytes 2 b.len ++ leBytes 2 1 ++ [0, 0, 0, 0]

section

variable [Crc32fast]

def btPage (offset bid ptype cLevel : Nat) (entriesRegion : Bytes) (cEntries entrySize : Nat) : Bytes :=
  let body := resize 488 0 entriesRegion
    ++ leBytes 1 cEntries ++ leBytes 1 (min (488 / max entrySize 1) 255)
    ++ leBytes 1 8 ++ leBytes 1 cLevel ++ [0, 0, 0, 0]
  body ++ pageTrailer ptype offset bid body

def writeLeafLevel (pageOffsets : HashMap Nat Nat) (plan : TreePlan) :
    List Nat → List (Bytes × Nat) → Result Writes
  | bid :: bids, (region, cEntries) :: leafPages => do
    let offset ← offsetOf pageOffsets "missing leaf page offset" bid
    let more ← writeLeafLevel pageOffsets plan bids leafPages
    return (offset, btPage offset bid plan.ptype 0 region cEntries plan.leafEntrySize) :: more
  | _, _ => .ok []

def childEntry (pageOffsets : HashMap Nat Nat) (child : Nat × Nat) : Result Bytes := do
  let offset ← offsetOf pageOffsets "missing child page offset" child.1
  return leBytes 8 child.2 ++ leBytes 8 child.1 ++ leBytes 8 offset

def writeLevel (pageOffsets : HashMap Nat Nat) (ptype level : Nat) :
    List Nat → List (Nat × Nat) → Result (Writes × List Nat)
  | bid :: bids, first :: prev => do
    let children := (first :: prev).take intermediateEntriesPerPage
    let region ← children.mapM (childEntry pageOffsets)
    let offset ← offsetOf pageOffsets "missing intermediate page offset" bid
    let (more, keys) ← writeLevel pageOffsets ptype level bids
      ((first :: prev).drop intermediateEntriesPerPage)
    let page := btPage offset bid ptype level region.flatten children.length intermediateEntrySize
    return ((offset, page) :: more, first.2 :: keys)
  -- `if child_idx >= end { break; }`
  | _, _ => .ok ([], [])

def writeLevels (pageOffsets : HashMap Nat Nat) (ptype : Nat) :
    Nat → List (List Nat) → List (Nat × Nat) → Result Writes
  | _, [], _ => .ok []
  | level, bids :: rest, prev => do
    let (writes, keys) ← writeLevel pageOffsets ptype level bids prev
    let more ← writeLevels pageOffsets ptype (level + 1) rest (bids.zip keys)
    return writes ++ more

def writeTree (plan : TreePlan) (pageOffsets : HashMap Nat Nat) (leafMinKeys : List Nat)
    (leafPages : List (Bytes × Nat)) : Result Writes := do
  let leaves := plan.levels.headD []
  let writes ← writeLeafLevel pageOffsets plan leaves leafPages
  let more ← writeLevels pageOffsets plan.ptype 1 plan.levels.tail (leaves.zip leafMinKeys)
  return writes ++ more

/-- The leaf pages of sorted entries, with the smallest key of each; no entries make one empty
page. -/
def leafPagesOf {α : Type} (key : α → Nat) (encode : α → Bytes) (perLeaf : Nat) (sorted : List α) :
    List (Nat × Bytes × Nat) :=
  if sorted = [] then [(0, [], 0)]
  else (chunks perLeaf sorted).map fun chunk =>
    ((chunk.head?.map key).getD 0, chunk.flatMap encode, chunk.length)

def writeNbt (l : Layout) (plan : TreePlan) (pageOffsets : HashMap Nat Nat) : Result Writes :=
  let sorted := sortBy (fun a b => compare a.nid b.nid) l.nodes
  match (sorted.zip sorted.tail).find? fun w => w.1.nid == w.2.nid with
  | some w => .error (.layout ("duplicate NBT nid 0x" ++ hexUpper w.1.nid))
  | none =>
    let pages := leafPagesOf NodeEntry.nid encodeNbtLeaf plan.perLeafCapacity sorted
    writeTree plan pageOffsets (pages.map fst) (pages.map snd)

def writeBbt (l : Layout) (plan : TreePlan) (pageOffsets : HashMap Nat Nat) : Result Writes :=
  let sorted := sortBy (fun a b => compare a.bid b.bid) l.blocks
  let pages := leafPagesOf BlockEntry.bid encodeBbtLeaf plan.perLeafCapacity sorted
  writeTree plan pageOffsets (pages.map fst) (pages.map snd)

end

/-!
# Finishing the file (`pst-writer/src/production.rs`)

After the last node the writer plans both trees, places what has no offset yet, and writes over the
staged file: the header, every AMap page, the pages of both trees and the blocks still in RAM.
-/

def Layout.planTrees (l : Layout) : TreePlan × TreePlan × Layout :=
  let (nbt, l) := l.planTree ptypeNbt nbtLeafEntrySize l.nodes.length
  let (bbt, l) := l.planTree ptypeBbt bbtLeafEntrySize l.blocks.length
  (nbt, bbt, l)

def Layout.ibAmapLast (l : Layout) : Option Nat :=
  ((l.pages.filter fun p => p.ptype = ptypeAmap).map PageEntry.offset).max?

/-- `ok_or_else(|| WriterError::Layout(message))`. -/
def okOrLayout {α : Type} (message : String) : Option α → Result α
  | none => .error (.layout message)
  | some a => .ok a

def pstMagic : Nat := 0x4E444221
def clientMagic : Nat := 0x4D53
def unicodeVersion : Nat := 23

/-- The fields of `write_header_v1`, in order. -/
def headerFields (fileSize amapLast nextBid rootNbt nbtOffset rootBbt bbtOffset : Nat) : Bytes :=
  leBytes 4 pstMagic ++ leBytes 4 0 ++ leBytes 2 clientMagic ++ leBytes 2 unicodeVersion
    ++ leBytes 2 0x0036 ++ [0x01, 0x01] ++ leBytes 4 0 ++ leBytes 4 0
    ++ leBytes 8 0 ++ leBytes 8 nextBid ++ leBytes 4 1 ++ replicate 128 0 ++ leBytes 8 0
    -- ROOT
    ++ leBytes 4 0 ++ leBytes 8 fileSize ++ leBytes 8 amapLast ++ leBytes 8 0 ++ leBytes 8 0
    ++ leBytes 8 rootNbt ++ leBytes 8 nbtOffset ++ leBytes 8 rootBbt ++ leBytes 8 bbtOffset
    ++ [1, 0, 0, 0]
    ++ leBytes 4 0 ++ replicate 256 0
    -- bSentinel, bCryptMethod = none, rgbReserved, bidNextB
    ++ [0x80, 0] ++ leBytes 2 0 ++ leBytes 8 nextBid

def writeHeaderV1 (l : Layout) (nbt bbt : TreePlan) : Result Bytes := do
  let rootNbt ← okOrLayout "empty NBT plan" nbt.root
  let rootBbt ← okOrLayout "empty BBT plan" bbt.root
  let offsets := pageOffsetMap l
  let nbtOffset ← offsetOf offsets "missing NBT root offset" rootNbt
  let bbtOffset ← offsetOf offsets "missing BBT root offset" rootBbt
  let amapLast ← okOrLayout "missing AMap page (ibAMapLast)" l.ibAmapLast
  let buf := headerFields l.fileSize amapLast l.nextBidCounter rootNbt nbtOffset rootBbt bbtOffset
  return buf ++ replicate (headerSize - buf.length) 0

section

variable [Crc32fast]

def writeAllAmapPagesV1 (l : Layout) : Result Writes :=
  let amaps := l.pages.filter fun p => p.ptype = ptypeAmap
  if amaps = [] then .error (.layout "missing AMap page")
  else .ok (amaps.map fun p => (p.offset, amapPage p.offset p.bid))

def writeRamBlocks (l : Layout) : Writes :=
  (l.blocks.filter fun b => !b.onDisk).map fun b => (b.offset, encodeBlock b.bid b.data)

def finalWrites (l : Layout) (nbt bbt : TreePlan) : Result Writes := do
  let header ← writeHeaderV1 l nbt bbt
  let amaps ← writeAllAmapPagesV1 l
  let pageOffsets := pageOffsetMap l
  let nbtPages ← writeNbt l nbt pageOffsets
  let bbtPages ← writeBbt l bbt pageOffsets
  return (0, header) :: amaps ++ nbtPages ++ bbtPages ++ writeRamBlocks l

def Layout.staged (l : Layout) : Bytes := (l.eager.map fun e => e.file.bytes).getD []

/-- The end of `write_unicode_pst_streaming`, up to the rename: the final layout, the
two plans and the file. -/
def Layout.finalize (l : Layout) : Result (Layout × TreePlan × TreePlan × Bytes) := do
  let (nbt, bbt, l) := l.planTrees
  let l ← l.calculateOffsets
  match l.eager with
  | none => .error (.layout "eager temp writer missing at finalize")
  | some eager =>
    let writes ← finalWrites l nbt bbt
    return (l, nbt, bbt, writeAll 0 eager.file.bytes writes)

end

end PstWriter
