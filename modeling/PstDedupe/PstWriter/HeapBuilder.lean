import PstDedupe.PstWriter.Layout
import PstDedupe.Rust.Text

/-!
# Heaps being built (`pst-writer/src/lib.rs`)

`HeapBuilder` fills one block, `PagedHeapBuilder` a block a page.
-/

namespace PstWriter

open Rust Foundations

/-- `data[at..at + 4].copy_from_slice(&value.to_le_bytes())`. -/
def patchBytes (data : Bytes) (off : Nat) (cells : Bytes) : Bytes := overwrite 0 data off cells

/-- The page map: allocation count, free count, the start of the first allocation and the ends. -/
def pageMap (headerSize : Nat) (allocations : List (Nat × Nat)) : Bytes :=
  leBytes 2 allocations.length ++ leBytes 2 0 ++ leBytes 2 headerSize
    ++ allocations.flatMap fun a => leBytes 2 a.2

/-- What `patch_u32` and the table builders need of a heap. -/
class HeapTryAlloc (H : Type) where
  tryAlloc : H → Bytes → Result (Nat × H)
  patchU32 : H → Nat → Nat → Nat → Result H

structure HeapBuilder where
  data : Bytes
  allocations : List (Nat × Nat)
  deriving DecidableEq, Repr

def hnHeader (clientSig : Nat) : Bytes :=
  leBytes 2 0 ++ leBytes 1 0xEC ++ leBytes 1 clientSig ++ leBytes 4 0 ++ leBytes 4 0

namespace HeapBuilder

def new (clientSig : Nat) : HeapBuilder := ⟨hnHeader clientSig, []⟩

variable (heap : HeapBuilder)

def alloc (bytes : Bytes) : Nat × HeapBuilder :=
  ((heap.allocations.length + 1) <<< 5, {
    data := heap.data ++ bytes
    allocations := heap.allocations ++ [(heap.data.length, heap.data.length + bytes.length)] })

def projectedPagemap : Nat := 4 + (heap.allocations.length + 1 + 1) * 2

def projected (bytes : Bytes) : Nat := heap.data.length + bytes.length + heap.projectedPagemap

def overflowMessage (bytes : Bytes) : String :=
  "heap page overflow: " ++ toString (heap.projected bytes)
    ++ " bytes would exceed single-block capacity " ++ toString maxBlockData
    ++ " (value should be diverted to a subnode instead of inlined) [heap_data="
    ++ toString heap.data.length ++ " alloc_bytes=" ++ toString bytes.length ++ " pagemap="
    ++ toString heap.projectedPagemap ++ " allocs=" ++ toString (heap.allocations.length + 1) ++ "]"

def tryAlloc (bytes : Bytes) : Result (Nat × HeapBuilder) :=
  if heap.projected bytes > maxBlockData then .error (.layout (heap.overflowMessage bytes))
  else .ok (heap.alloc bytes)

def patchU32 (hid fieldOffset value : Nat) : Result HeapBuilder :=
  let index := (hid >>> 5) - 1
  match heap.allocations[index]? with
  | none =>
    .error (.layout ("patch_u32: hid 0x" ++ hexUpper hid
      ++ " does not identify a known heap allocation (index " ++ toString index ++ " out of range)"))
  | some (start, stop) =>
    let off := start + fieldOffset
    if off + 4 > stop then
      .error (.layout ("patch_u32: field_offset " ++ toString fieldOffset ++ " (byte range "
        ++ toString off ++ ".." ++ toString (off + 4) ++ ") does not fit within allocation hid 0x"
        ++ hexUpper hid ++ "'s bytes (" ++ toString start ++ ".." ++ toString stop ++ ")"))
    else .ok { heap with data := patchBytes heap.data off (leBytes 4 value) }

def finalize (hidUserRoot : Nat) : Bytes :=
  let data := heap.data ++ pageMap 12 heap.allocations
  patchBytes (patchBytes data 0 (leBytes 2 heap.data.length)) 4 (leBytes 4 hidUserRoot)

instance : HeapTryAlloc HeapBuilder := ⟨tryAlloc, patchU32⟩

end HeapBuilder

structure HeapPage where
  data : Bytes
  allocations : List (Nat × Nat)
  headerSize : Nat
  deriving DecidableEq, Repr

def isHnBitmapPage (index : Nat) : Bool := 8 ≤ index && (index - 8) % 128 == 0

/-- `hidIndex` has eleven bits. -/
def maxPageAllocs : Nat := 2047

namespace HeapPage

def page0 (clientSig : Nat) : HeapPage := ⟨hnHeader clientSig, [], 12⟩
def continuation : HeapPage := ⟨leBytes 2 0, [], 2⟩

variable (page : HeapPage)

def projectedLen (extraBytes : Nat) : Nat :=
  let used := page.data.length + extraBytes
  let used := if used % 2 = 1 then used + 1 else used
  used + (4 + (page.allocations.length + 1 + 1) * 2)

def fits (extraBytes : Nat) : Bool :=
  page.projectedLen extraBytes ≤ maxBlockData && page.allocations.length < maxPageAllocs

/-- The data up to the page map: page maps start at even offsets. -/
def padded : Bytes := if page.data.length % 2 = 1 then page.data ++ [0] else page.data

def writePagemap : HeapPage :=
  { page with
    data := patchBytes (page.padded ++ pageMap page.headerSize page.allocations) 0
      (leBytes 2 page.padded.length) }

def push (bytes : Bytes) : HeapPage :=
  { page with
    data := page.data ++ bytes
    allocations := page.allocations ++ [(page.data.length, page.data.length + bytes.length)] }

end HeapPage

structure PagedHeapBuilder where
  ended : List HeapPage
  last : HeapPage
  deriving DecidableEq, Repr

namespace PagedHeapBuilder

def new (clientSig : Nat) : PagedHeapBuilder := ⟨[], .page0 clientSig⟩

variable (heap : PagedHeapBuilder)

def startNewPage : Result PagedHeapBuilder :=
  let next := heap.ended.length + 1
  if isHnBitmapPage next then
    .error (.layout ("TC heap would require HNBITMAPHDR at page " ++ toString next
      ++ " (pages 8/136/264/… are unimplemented; D-0100-hn-bitmap-hdr)"))
  else
    let page := heap.last.writePagemap
    if page.data.length > maxBlockData then
      .error (.layout ("HN page " ++ toString (next - 1) ++
        " overflowed MAX_BLOCK_DATA after pagemap (" ++ toString page.data.length ++ " bytes)"))
    else
      .ok ⟨heap.ended ++ [{ page with data := resize maxBlockData 0 page.data }], .continuation⟩

def pageFor (bytes : Bytes) : Result PagedHeapBuilder :=
  if heap.last.fits bytes.length then .ok heap
  else do
    let heap ← heap.startNewPage
    if heap.last.fits bytes.length then pure heap
    else
      throw (.layout ("allocation of " ++ toString bytes.length
        ++ " bytes does not fit on a fresh HN page (hidIndex/page budget exhausted after attempting a new page)"))

def tryAlloc (bytes : Bytes) : Result (Nat × PagedHeapBuilder) := do
  let heap ← heap.pageFor bytes
  if heap.last.allocations.length ≥ maxPageAllocs then
    throw (.layout "hidIndex would exceed 2047 on a page after attempting a new page")
  else
    let hidIndex := heap.last.allocations.length + 1
    pure ((heap.ended.length <<< 16) ||| (hidIndex <<< 5), { heap with last := heap.last.push bytes })

def patchOffset (page : HeapPage) (hid block index fieldOffset : Nat) : Result Nat :=
  match page.allocations[index]? with
  | none =>
    .error (.layout ("patch_u32: hid 0x" ++ hexUpper hid
      ++ " does not identify a known heap allocation (index " ++ toString index
      ++ " out of range on page " ++ toString block ++ ")"))
  | some (start, stop) =>
    if start + fieldOffset + 4 > stop then
      .error (.layout ("patch_u32: field_offset " ++ toString fieldOffset
        ++ " does not fit within hid 0x" ++ hexUpper hid ++ " (" ++ toString start ++ ".."
        ++ toString stop ++ ")"))
    else .ok (start + fieldOffset)

def patchU32 (hid fieldOffset value : Nat) : Result PagedHeapBuilder :=
  let block := hid >>> 16
  let index := (hid >>> 5) % 2 ^ 11 - 1
  let patched (page : HeapPage) (off : Nat) : HeapPage :=
    { page with data := patchBytes page.data off (leBytes 4 value) }
  if block = heap.ended.length then do
    let off ← patchOffset heap.last hid block index fieldOffset
    pure { heap with last := patched heap.last off }
  else
    match heap.ended[block]? with
    | none =>
      .error (.layout ("patch_u32: hid 0x" ++ hexUpper hid ++ " hidBlockIndex " ++ toString block
        ++ " out of range (" ++ toString (heap.ended.length + 1) ++ " pages)"))
    | some page => do
      let off ← patchOffset page hid block index fieldOffset
      pure { heap with ended := heap.ended.set block (patched page off) }

def patchRoot (hidUserRoot : Nat) : List HeapPage → List HeapPage
  | [] => []
  | page0 :: rest =>
    (if page0.data.length ≥ 8 then
      { page0 with data := patchBytes page0.data 4 (leBytes 4 hidUserRoot) }
    else page0) :: rest

def joinPages : List HeapPage → Bytes
  | [] => []
  | [page] => page.data
  | page :: rest =>
    (if page.data.length < maxBlockData then resize maxBlockData 0 page.data else page.data)
      ++ joinPages rest

def finalize (hidUserRoot : Nat) : Bytes :=
  joinPages (patchRoot hidUserRoot (heap.ended ++ [heap.last.writePagemap]))

instance : HeapTryAlloc PagedHeapBuilder := ⟨tryAlloc, patchU32⟩

end PagedHeapBuilder

/-!
# Property contexts and trees being built (`pst-writer/src/production.rs`)

A property becomes a record of six bytes: its type, and a value, a HID or the NID of a subnode.
-/

def ptypInteger32 : Nat := 0x0003
def ptypBoolean : Nat := 0x000B
def ptypObject : Nat := 0x000D
def ptypInteger64 : Nat := 0x0014
def ptypString : Nat := 0x001F
def ptypTime : Nat := 0x0040
def ptypBinary : Nat := 0x0102

inductive PcValue where
  | i32 (v : Int32)
  | bool (v : Bool)
  | time (v : Int64)
  | string (s : String)
  | binary (b : Bytes)
  | object (nid size : Nat)
  | subnodeString (nid : Nat)
  | subnodeBinary (nid : Nat)
  deriving DecidableEq

def onHeap (heap : HeapBuilder) (propType : Nat) (bytes : Bytes) : Result (Bytes × HeapBuilder) := do
  let (hid, heap) ← heap.tryAlloc bytes
  pure (leBytes 2 propType ++ leBytes 4 hid, heap)

def encodePcValue (heap : HeapBuilder) (value : PcValue) : Result (Bytes × HeapBuilder) :=
  match value with
  | .i32 v => pure (leBytes 2 ptypInteger32 ++ leBytes 4 v.toUInt32.toNat, heap)
  | .bool v => pure (leBytes 2 ptypBoolean ++ leBytes 4 v.toNat, heap)
  | .time v => onHeap heap ptypTime (leBytes 8 v.toUInt64.toNat)
  | .string s => onHeap heap ptypString (utf16leBytes s)
  | .binary b => onHeap heap ptypBinary b
  | .object nid size => onHeap heap ptypObject (leBytes 4 nid ++ leBytes 4 size)
  | .subnodeString nid => pure (leBytes 2 ptypString ++ leBytes 4 nid, heap)
  | .subnodeBinary nid => pure (leBytes 2 ptypBinary ++ leBytes 4 nid, heap)

def bthHeader (cbKey cbEnt : Nat) : Bytes :=
  leBytes 1 0xB5 ++ leBytes 1 cbKey ++ leBytes 1 cbEnt ++ leBytes 1 0 ++ leBytes 4 0

def allocTree {H : Type} [HeapTryAlloc H] (heap : H) (header leafData : Bytes) : Result (Nat × H) := do
  let (hidRoot, heap) ← HeapTryAlloc.tryAlloc heap header
  let (hidLeaf, heap) ← HeapTryAlloc.tryAlloc heap leafData
  let heap ← HeapTryAlloc.patchU32 heap hidRoot 4 hidLeaf
  pure (hidRoot, heap)

/-- `sort_by_key(|r| r.0)`. -/
def sortRecords (records : List (Nat × Bytes)) : List (Nat × Bytes) :=
  sortBy (fun a b => compare a.1 b.1) records

def buildBthChecked (heap : HeapBuilder) (cbKey cbEnt : Nat) (records : List (Nat × Bytes)) :
    Result (Nat × HeapBuilder) :=
  allocTree heap (bthHeader cbKey cbEnt)
    ((sortRecords records).flatMap fun r => leBytes 2 r.1 ++ r.2)

/-- The loop of `build_pc_v2`. -/
def encodeRecords (heap : HeapBuilder) : List (Nat × PcValue) → Result (List (Nat × Bytes) × HeapBuilder)
  | [] => pure ([], heap)
  | (propId, value) :: rest => do
    let (record, heap) ← encodePcValue heap value
    let (records, heap) ← encodeRecords heap rest
    pure ((propId, record) :: records, heap)

def buildPcV2 (heap : HeapBuilder) (properties : List (Nat × PcValue)) : Result (Nat × HeapBuilder) := do
  let (records, heap) ← encodeRecords heap properties
  buildBthChecked heap 2 6 records

def leafU32 (cbKey cbEnt : Nat) : List (Nat × Bytes) → Result Bytes
  | [] => pure []
  | (key, data) :: rest => do
    let keyBytes := if cbKey ≤ 4 then (leBytes 4 key).take cbKey
      else leBytes 4 key ++ List.replicate (cbKey - 4) 0
    if data.length ≠ cbEnt then
      throw (.layout ("build_bth_u32_checked: record data len " ++ toString data.length
        ++ " != cb_ent " ++ toString cbEnt))
    else do
      let leafData ← leafU32 cbKey cbEnt rest
      pure (keyBytes ++ data ++ leafData)

def buildBthU32Checked {H : Type} [HeapTryAlloc H] (heap : H) (cbKey cbEnt : Nat)
    (records : List (Nat × Bytes)) : Result (Nat × H) :=
  if cbKey < 4 then
    .error (.layout ("build_bth_u32_checked: cb_key=" ++ toString cbKey
      ++ " must be >= 4 for u32 row-id keys"))
  else if cbEnt = 0 then .error (.layout "build_bth_u32_checked: cb_ent must be non-zero")
  else do
    let (hidRoot, heap) ← HeapTryAlloc.tryAlloc heap (bthHeader cbKey cbEnt)
    let leafData ← leafU32 cbKey cbEnt (sortRecords records)
    let (hidLeaf, heap) ← HeapTryAlloc.tryAlloc heap leafData
    let heap ← HeapTryAlloc.patchU32 heap hidRoot 4 hidLeaf
    pure (hidRoot, heap)

end PstWriter
