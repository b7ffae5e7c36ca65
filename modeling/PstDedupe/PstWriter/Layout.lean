import PstDedupe.Foundations.FreshIds
import PstDedupe.Rust.Bytes

/-!
# The layout of a PST being written (`pst-writer/src/lib.rs`)

`Layout` collects nodes, blocks and pages; with an eager writer attached, leaf blocks go straight to
the temp file and only their BBT entry stays. Counters and offsets are natural numbers; they are
`u64` in the source.
-/

namespace PstWriter

open Rust Foundations List

inductive WriterError where
  | io
  | layout (message : String)
  | bodyTooLarge (message : String)
  | allocationFailed (message : String)
  /-- Not in the source: a loop of the placement is still running after the fuel of the model. -/
  | diverges
  deriving DecidableEq, Repr

abbrev Result := Except WriterError

def headerSize : Nat := 4096
def pageSize : Nat := 512
def maxBlockData : Nat := 8176
def blockAlign : Nat := 64
def amapFirstOffset : Nat := 0x4400
def amapInterval : Nat := 253952
def ptypeAmap : Nat := 0x84
def ptypeBbt : Nat := 0x80
def ptypeNbt : Nat := 0x81

def isAmapPageOffset (offset : Nat) : Bool :=
  if offset < amapFirstOffset then false
  else (offset - amapFirstOffset) % amapInterval == 0

def nextAmapAtOrAfter (offset : Nat) : Nat :=
  if offset ≤ amapFirstOffset then amapFirstOffset
  else
    let rem := (offset - amapFirstOffset) % amapInterval
    if rem = 0 then offset else offset + (amapInterval - rem)

/-- `value.div_ceil(alignment) * alignment`. -/
def alignUp (value alignment : Nat) : Nat := (value + alignment - 1) / alignment * alignment

def blockSize (payloadLen : Nat) : Nat := alignUp payloadLen blockAlign + 16

structure NodeEntry where
  nid : Nat
  bidData : Nat
  bidSub : Nat
  nidParent : Nat
  deriving DecidableEq, Repr

structure BlockEntry where
  bid : Nat
  data : Bytes
  offset : Nat
  /-- Payload length, also when `data` is empty. -/
  len : Nat
  onDisk : Bool
  deriving DecidableEq, Repr

namespace BlockEntry

def inMemory (bid : Nat) (data : Bytes) : BlockEntry := ⟨bid, data, 0, data.length, false⟩

def spilled (bid offset len : Nat) : BlockEntry := ⟨bid, [], offset, len, true⟩

end BlockEntry

structure PageEntry where
  bid : Nat
  ptype : Nat
  offset : Nat
  deriving DecidableEq, Repr

/-- The staging file: its bytes, the position of its handle, and which of the coming writes fail
(the head is the next one; writes beyond the list succeed). -/
structure TempFile where
  bytes : Bytes
  pos : Nat
  faults : List Bool
  deriving DecidableEq, Repr

structure EagerWriteCtx where
  file : TempFile
  cursor : Nat
  amapPages : List PageEntry
  amapStubsWritten : Finset Nat
  /-- Offsets already registered in `amapPages`. -/
  amapPageOffsets : Finset Nat
  /-- `amapPages[..stubbedUpto]` have their stubs. -/
  stubbedUpto : Nat
  filePos : Nat
  deriving DecidableEq

structure Layout where
  nodes : List NodeEntry
  blocks : List BlockEntry
  pages : List PageEntry
  nextBidCounter : Nat
  usedBids : Finset Nat
  usedNids : Finset Nat
  eager : Option EagerWriteCtx
  deriving DecidableEq

def EagerWriteCtx.create (faults : List Bool) : EagerWriteCtx where
  file := ⟨replicate headerSize 0, headerSize, faults⟩
  cursor := headerSize
  amapPages := []
  amapStubsWritten := ∅
  amapPageOffsets := ∅
  stubbedUpto := 0
  filePos := headerSize

def Layout.new : Layout where
  nodes := []
  blocks := []
  pages := []
  nextBidCounter := 0x10
  usedBids := ∅
  usedNids := ∅
  eager := none

def Layout.attachEager (l : Layout) (ctx : EagerWriteCtx) : Layout := { l with eager := some ctx }

/-- `bid | 0x02`. -/
def internalBid (counter : Nat) : Nat := counter ||| 2

def externalBid (counter : Nat) : Nat := counter ^^^ (counter &&& 2)

/-- The loop `loop { .. if used_bids.insert(result) { return result } }`: the identifier and the
next counter. At most two counters share an identifier, which bounds the number of rounds. -/
def nextFreshBid (mask : Nat → Nat) (usedBids : Finset Nat) (nextBid : Nat) : Nat × Nat :=
  findFresh mask usedBids (2 * usedBids.card) nextBid

def Layout.allocBid (l : Layout) (internal : Bool) : Nat × Layout :=
  let r := nextFreshBid (if internal then internalBid else externalBid) l.usedBids l.nextBidCounter
  (r.1, { l with nextBidCounter := r.2, usedBids := insert r.1 l.usedBids })

/-- What `amap_place_region` borrows beside the cursor. -/
structure AmapBook where
  pages : List PageEntry
  offsets : Finset Nat
  usedBids : Finset Nat
  nextBid : Nat
  deriving DecidableEq

def amapEnsurePage (amapOff : Nat) (book : AmapBook) : AmapBook :=
  if amapOff ∈ book.offsets then book
  else
    let r := nextFreshBid internalBid book.usedBids book.nextBid
    { pages := book.pages ++ [⟨r.1, ptypeAmap, amapOff⟩]
      offsets := insert amapOff book.offsets
      usedBids := insert r.1 book.usedBids
      nextBid := r.2 }

/-- The loop of `amap_place_region`; `none` when it has not left after `fuel` rounds. -/
def amapPlaceLoop (size align : Nat) : Nat → Nat → AmapBook → Option (Nat × AmapBook)
  | 0, _, _ => none
  | fuel + 1, cursor, book =>
    if isAmapPageOffset cursor then
      amapPlaceLoop size align fuel (alignUp (cursor + pageSize) align) (amapEnsurePage cursor book)
    else
      let amap := nextAmapAtOrAfter cursor
      let regionEnd := cursor + size
      let amapEnd := amap + pageSize
      if cursor < amapEnd ∧ regionEnd > amap then
        if cursor < amap ∧ regionEnd ≤ amap then some (cursor, book)
        else amapPlaceLoop size align fuel (alignUp amapEnd align) (amapEnsurePage amap book)
      else some (cursor, book)

/-- A region that fits between two slots is placed after at most two rounds. -/
def placeFuel : Nat := 3

def amapPlaceRegion (cursor size align : Nat) (book : AmapBook) : Result (Nat × Nat × AmapBook) :=
  match amapPlaceLoop size align placeFuel (alignUp cursor align) book with
  | none => .error .diverges
  | some (offset, book) => .ok (offset, offset + size, book)

section

variable [Crc32fast]

/-- `write_data_block`: the payload, padded to 64 bytes, and the trailer. -/
def encodeBlock (bid : Nat) (data : Bytes) : Bytes :=
  resize (alignUp data.length blockAlign) 0 data
    ++ leBytes 4 (Crc32fast.hash data).toNat ++ leBytes 8 bid ++ [0, 0, 0, 0]

def computePageSig (ib bid : Nat) : Nat :=
  let value := (ib % 2 ^ 32) ^^^ (bid % 2 ^ 32) ^^^ (bid / 2 ^ 32)
  ((value / 2 ^ 16) ^^^ (value % 2 ^ 16)) % 2 ^ 16

def pageTrailer (ptype offset bid : Nat) (body : Bytes) : Bytes :=
  leBytes 1 ptype ++ leBytes 1 ptype ++ leBytes 2 (computePageSig offset bid)
    ++ leBytes 4 (Crc32fast.hash body).toNat ++ leBytes 8 bid

def amapPage (offset bid : Nat) : Bytes :=
  replicate 496 0xFF ++ pageTrailer ptypeAmap offset bid (replicate 496 0xFF)

/-- `positioned_write_all`. When `file_pos` already names the offset the bytes go where the handle
stands. What a failed write leaves in the file is not modelled: its writer is dropped. -/
def positionedWriteAll (file : TempFile) (offset : Nat) (data : Bytes) (filePos : Nat) :
    Result Unit × TempFile × Nat :=
  if file.faults.headD false then (.error .io, { file with faults := file.faults.tail }, filePos)
  else
    let at' := if filePos = offset then file.pos else offset
    (.ok (), { bytes := overwrite 0 file.bytes at' data
               pos := at' + data.length
               faults := file.faults.tail }, offset + data.length)

def writeStubs : List PageEntry → EagerWriteCtx → Result Unit × EagerWriteCtx
  | [], eager => (.ok (), eager)
  | page :: rest, eager =>
    if page.offset ∈ eager.amapStubsWritten then
      writeStubs rest { eager with stubbedUpto := eager.stubbedUpto + 1 }
    else
      match positionedWriteAll eager.file page.offset (amapPage page.offset page.bid)
          eager.filePos with
      | (.error e, file, filePos) => (.error e, { eager with file := file, filePos := filePos })
      | (.ok (), file, filePos) =>
        writeStubs rest
          { eager with
            file := file
            filePos := filePos
            amapStubsWritten := insert page.offset eager.amapStubsWritten
            stubbedUpto := eager.stubbedUpto + 1 }

def Layout.placeAndWriteBlock (l : Layout) (eager : EagerWriteCtx) (bid : Nat) (payload : Bytes) :
    Result Nat × Layout × EagerWriteCtx :=
  match amapPlaceRegion eager.cursor (blockSize payload.length) blockAlign
      ⟨eager.amapPages, eager.amapPageOffsets, l.usedBids, l.nextBidCounter⟩ with
  | .error e => (.error e, l, eager)
  | .ok (offset, cursor, book) =>
    let l := { l with usedBids := book.usedBids, nextBidCounter := book.nextBid }
    let eager := { eager with
      cursor := cursor, amapPages := book.pages, amapPageOffsets := book.offsets }
    match writeStubs (eager.amapPages.drop eager.stubbedUpto) eager with
    | (.error e, eager) => (.error e, l, eager)
    | (.ok (), eager) =>
      match positionedWriteAll eager.file offset (encodeBlock bid payload) eager.filePos with
      | (.error e, file, filePos) => (.error e, l, { eager with file := file, filePos := filePos })
      | (.ok (), file, filePos) => (.ok offset, l, { eager with file := file, filePos := filePos })

def Layout.pushLeafBlock (l : Layout) (bid : Nat) (data : Bytes) : Result Unit × Layout :=
  match l.eager with
  | none => (.ok (), { l with blocks := l.blocks ++ [.inMemory bid data] })
  | some eager =>
    -- `self.eager.take()`: on an error the `?` below drops the writer it took
    match { l with eager := none }.placeAndWriteBlock eager bid data with
    | (.error e, l, _) => (.error e, l)
    | (.ok offset, l, eager) =>
      (.ok (), { l with
        blocks := l.blocks ++ [.spilled bid offset data.length], eager := some eager })

end

def Layout.reservePage (l : Layout) (ptype : Nat) : Nat × Layout :=
  let (bid, l) := l.allocBid true
  (bid, { l with pages := l.pages ++ [⟨bid, ptype, 0⟩] })

def placePages : List PageEntry → Nat → AmapBook → Result (List PageEntry × Nat × AmapBook)
  | [], cursor, book => .ok ([], cursor, book)
  | page :: rest, cursor, book =>
    if page.offset ≠ 0 then do
      let (rest, cursor, book) ← placePages rest (max cursor (page.offset + pageSize)) book
      return (page :: rest, cursor, book)
    else do
      let (offset, cursor, book) ← amapPlaceRegion cursor pageSize 1 book
      let (rest, cursor, book) ← placePages rest cursor book
      return ({ page with offset := offset } :: rest, cursor, book)

def placeBlocks : List BlockEntry → Nat → AmapBook → Result (List BlockEntry × Nat × AmapBook)
  | [], cursor, book => .ok ([], cursor, book)
  | block :: rest, cursor, book =>
    if block.onDisk ∧ block.offset ≠ 0 then do
      let (rest, cursor, book) ← placeBlocks rest cursor book
      return (block :: rest, cursor, book)
    else do
      let (offset, cursor, book) ← amapPlaceRegion cursor (blockSize block.len) blockAlign book
      let (rest, cursor, book) ← placeBlocks rest cursor book
      return ({ block with offset := offset } :: rest, cursor, book)

/-- Step 4, the inner loop: register every slot below `fileEnd`. -/
def ensureBelow : Nat → Nat → Nat → AmapBook → Option (Nat × AmapBook)
  | 0, _, _, _ => none
  | fuel + 1, amap, fileEnd, book =>
    if amap < fileEnd then
      ensureBelow fuel (amap + amapInterval) (max fileEnd (amap + pageSize))
        (amapEnsurePage amap book)
    else some (fileEnd, book)

def ensureAll : Nat → Nat → AmapBook → Result AmapBook
  | 0, _, _ => .error .diverges
  | fuel + 1, fileEnd, book =>
    match ensureBelow (fileEnd / amapInterval + 2) amapFirstOffset fileEnd book with
    | none => .error .diverges
    | some (fileEnd, book') =>
      if book'.pages.length > book.pages.length then ensureAll fuel fileEnd book' else .ok book'

def ensureFuel : Nat := 2

def Layout.calculateOffsets (l : Layout) : Result Layout := do
  let otherPages := l.pages.filter fun p => p.ptype ≠ ptypeAmap
  -- reuse the AMap pages registered during eager placement
  let amapPages := (l.eager.map EagerWriteCtx.amapPages).getD []
  let offsets := (l.eager.map EagerWriteCtx.amapPageOffsets).getD
    (amapPages.map PageEntry.offset).toFinset
  let offsets := amapPages.foldl (fun s p => insert p.offset s) offsets
  -- 1) start after the eagerly written blocks
  let cursor := max headerSize ((l.eager.map EagerWriteCtx.cursor).getD headerSize)
  let cursor := l.blocks.foldl (fun c b =>
    if b.onDisk ∧ b.offset ≠ 0 then max c (b.offset + blockSize b.len) else c) cursor
  let (otherPages, cursor, book) ← placePages otherPages cursor
    ⟨amapPages, offsets, l.usedBids, l.nextBidCounter⟩
  let (blocks, cursor, book) ← placeBlocks l.blocks cursor book
  -- 4) every slot below the provisional file end
  let fileEnd := if cursor ≤ amapFirstOffset then amapFirstOffset + pageSize else cursor
  let book ← ensureAll ensureFuel fileEnd book
  return { l with
    blocks := blocks
    pages := sortBy (fun p q => compare p.offset q.offset) book.pages ++ otherPages
    usedBids := book.usedBids
    nextBidCounter := book.nextBid
    eager := l.eager.map fun e => { e with amapPages := [], amapPageOffsets := ∅ } }

def Layout.fileSize (l : Layout) : Nat :=
  l.blocks.foldl (fun m b => max m (b.offset + blockSize b.len))
    (l.pages.foldl (fun m p => max m (p.offset + pageSize)) headerSize)

end PstWriter
