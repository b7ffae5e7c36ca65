import PstDedupe.Foundations.Chunks
import PstDedupe.PstWriter.Layout

/-!
# Data chains (`pst-writer/src/production.rs`)

A value is written as one external block, as an XBLOCK over its chunks, or as an XXBLOCK over
XBLOCKs.
-/

namespace PstWriter

open Rust Foundations Prod

def maxXblockEntries : Nat := (maxBlockData - 8) / 8
def streamChunkSize : Nat := maxBlockData
def i32Max : Nat := 2147483647

def internalPayload (cLevel lcbTotal : Nat) (bids : List Nat) : Bytes :=
  leBytes 1 1 ++ leBytes 1 cLevel ++ leBytes 2 bids.length ++ leBytes 4 lcbTotal
    ++ bids.flatMap (leBytes 8)

def Layout.pushInternal (l : Layout) (payload : Bytes) : Nat × Layout :=
  let (bid, l) := l.allocBid true
  (bid, { l with blocks := l.blocks ++ [.inMemory bid payload] })

/-- `build_xblock`, over pairs of BID and length. -/
def Layout.buildXblock (l : Layout) (chunks : List (Nat × Nat)) : Nat × Layout :=
  l.pushInternal (internalPayload 1 (chunks.map snd).sum (chunks.map fst))

def Layout.buildXxblock (l : Layout) (xblockBids : List Nat) (totalLen : Nat) : Nat × Layout :=
  l.pushInternal (internalPayload 2 totalLen xblockBids)

/-- The loop `for group in chunks.chunks(MAX_XBLOCK_ENTRIES)`. -/
def Layout.buildXblocks (l : Layout) : List (List (Nat × Nat)) → List Nat × Layout
  | [] => ([], l)
  | group :: rest =>
    let (bid, l) := l.buildXblock group
    let (bids, l) := l.buildXblocks rest
    (bid :: bids, l)

/-- The levels over more than one chunk. `overflow` is the message for too many XBLOCKs. -/
def Layout.buildChunkTree (l : Layout) (chunks : List (Nat × Nat)) (totalLen : Nat)
    (overflow : Nat → String) : Result Nat × Layout :=
  if chunks.length ≤ maxXblockEntries then
    let (bid, l) := l.buildXblock chunks
    (.ok bid, l)
  else
    let (xblockBids, l) := l.buildXblocks (Foundations.chunks maxXblockEntries chunks)
    if xblockBids.length > maxXblockEntries then
      (.error (.allocationFailed (overflow xblockBids.length)), l)
    else
      let (bid, l) := l.buildXxblock xblockBids totalLen
      (.ok bid, l)

def maxChainBytes : Nat := maxXblockEntries * maxXblockEntries * maxBlockData

def bodyTooLargeMessage (len : Nat) : String :=
  toString len ++ " bytes exceeds i32::MAX (" ++ toString i32Max ++ " bytes) — the largest value "
    ++ "representable by PidTagMessageSize's PT_LONG (MS-OXPROPS) "
    ++ "range, which every written body/html value must fit within"

def chainOverflowMessage (xblocks : Nat) : String :=
  "data requires " ++ toString xblocks ++ " XBLOCKs, exceeding one XXBLOCK's capacity of "
    ++ toString maxXblockEntries ++ " entries "
    ++ "(v1's two-level XBLOCK/XXBLOCK scheme represents at most ~" ++ toString maxChainBytes
    ++ " bytes per value)"

section

variable [Crc32fast]

def Layout.pushLeaf (l : Layout) (data : Bytes) : Result Nat × Layout :=
  let (bid, l) := l.allocBid false
  match l.pushLeafBlock bid data with
  | (.error e, l) => (.error e, l)
  | (.ok (), l) => (.ok bid, l)

def Layout.pushLeaves (l : Layout) : List Bytes → Result (List (Nat × Nat)) × Layout
  | [] => (.ok [], l)
  | payload :: rest =>
    match l.pushLeaf payload with
    | (.error e, l) => (.error e, l)
    | (.ok bid, l) =>
      match l.pushLeaves rest with
      | (.error e, l) => (.error e, l)
      | (.ok chunks, l) => (.ok ((bid, payload.length) :: chunks), l)

def Layout.writeDataChain (l : Layout) (data : Bytes) : Result Nat × Layout :=
  if data = [] then (.ok 0, l)
  else if data.length > i32Max then (.error (.bodyTooLarge (bodyTooLargeMessage data.length)), l)
  else if data.length ≤ maxBlockData then l.pushLeaf data
  else
    match l.pushLeaves (chunks maxBlockData data) with
    | (.error e, l) => (.error e, l)
    | (.ok dataChunks, l) => l.buildChunkTree dataChunks data.length chainOverflowMessage

def Layout.addNodeData (l : Layout) (nid : Nat) (data : Bytes) (nidParent subBid : Nat) :
    Result Nat × Layout :=
  match l.writeDataChain data with
  | (.error e, l) => (.error e, l)
  | (.ok bidData, l) =>
    if nid ∈ l.usedNids then
      (.error (.layout ("duplicate NBT nid 0x" ++ hexUpper nid
        ++ " (reserved template collision or double insert)")), l)
    else
      (.ok bidData, { l with
        nodes := l.nodes ++ [⟨nid, bidData, subBid, nidParent⟩]
        usedNids := insert nid l.usedNids })

/-- The payloads of the leaves from row `i` on: whole rows, padded to a full block except the
last. -/
def rowPayloads (rowMatrix : Bytes) (rowWidth rowsPerBlock rowCount : Nat) : Nat → Nat → List Bytes
  | 0, _ => []
  | fuel + 1, i =>
    if i < rowCount then
      let take := min (rowCount - i) rowsPerBlock
      let payload := (rowMatrix.drop (i * rowWidth)).take (take * rowWidth)
      (if i + take = rowCount then payload else resize maxBlockData 0 payload)
        :: rowPayloads rowMatrix rowWidth rowsPerBlock rowCount fuel (i + take)
    else []

def rowMatrixOverflowMessage (xblocks : Nat) : String :=
  "row matrix requires " ++ toString xblocks ++ " XBLOCKs, exceeding one XXBLOCK capacity"

def Layout.writeRowMatrixTree (l : Layout) (rowMatrix : Bytes) (rowWidth : Nat) :
    Result (Nat × Nat) × Layout :=
  if rowMatrix = [] then (.ok (0, 0), l)
  else if rowWidth = 0 then
    (.error (.layout "row_width is 0; cannot pack row matrix"), l)
  else if rowMatrix.length % rowWidth ≠ 0 then
    (.error (.layout ("row matrix length " ++ toString rowMatrix.length
      ++ " is not a multiple of row_width " ++ toString rowWidth)), l)
  else if maxBlockData / rowWidth = 0 then
    (.error (.layout ("row_width " ++ toString rowWidth ++ " exceeds MAX_BLOCK_DATA "
      ++ toString maxBlockData)), l)
  else
    let rowCount := rowMatrix.length / rowWidth
    match l.pushLeaves
      (rowPayloads rowMatrix rowWidth (maxBlockData / rowWidth) rowCount rowCount 0) with
    | (.error e, l) => (.error e, l)
    | (.ok chunks, l) =>
      let total := (chunks.map snd).sum
      match chunks with
      | [(bid, _)] => (.ok (bid, total), l)
      | chunks =>
        match l.buildChunkTree chunks (asU32 total) rowMatrixOverflowMessage with
        | (.error e, l) => (.error e, l)
        | (.ok bid, l) => (.ok (bid, total), l)

end

/-!
# Streamed data chains (`write_data_chain_from_reader`)

A value is read chunk by chunk and each chunk is pushed as a leaf at once.
-/

/-- What a call of `read` finds: bytes (possibly more than fit in the buffer), an interrupt, or an
error. A reader is the list of what is still to come; behind its end every read returns `Ok(0)`. -/
inductive ReadEvent where
  | data (bytes : Bytes)
  | interrupted
  | error
  deriving DecidableEq, Repr

abbrev Reader := List ReadEvent

/-- `while filled < STREAM_CHUNK_SIZE`: fill the buffer as far as the reader goes. -/
def fillBuffer : Bytes → Reader → Result (Bytes × Reader)
  | buf, [] => .ok (buf, [])
  | buf, event :: rest =>
    if buf.length < streamChunkSize then
      match event with
      | .interrupted => fillBuffer buf rest
      | .error => .error .io
      | .data bytes =>
        if bytes = [] then .ok (buf, rest)
        else if bytes.length ≤ streamChunkSize - buf.length then fillBuffer (buf ++ bytes) rest
        else
          .ok (buf ++ bytes.take (streamChunkSize - buf.length),
            .data (bytes.drop (streamChunkSize - buf.length)) :: rest)
    else .ok (buf, event :: rest)

def Reader.size (reader : Reader) : Nat :=
  (reader.map fun | .data bytes => bytes.length | _ => 0).sum

def streamTooLargeMessage (total : Nat) : String :=
  toString total ++ " bytes exceeds i32::MAX (" ++ toString i32Max
    ++ " bytes) — PidTagMessageSize PT_LONG range"

def streamOverflowMessage (xblocks : Nat) : String :=
  "streamed data requires " ++ toString xblocks ++ " XBLOCKs, exceeding XXBLOCK capacity (max ~"
    ++ toString maxChainBytes ++ " bytes)"

section

variable [Crc32fast]

/-- The chunk loop. A full chunk takes bytes from the reader, so its size bounds the rounds. -/
def streamLoop : Nat → Nat → List (Nat × Nat) → Reader → Layout → Result (List (Nat × Nat) × Nat) × Layout
  | 0, _, _, _, l => (.error .diverges, l)
  | fuel + 1, total, chunks, reader, l =>
    match fillBuffer [] reader with
    | .error e => (.error e, l)
    | .ok (buf, reader) =>
      if buf = [] then (.ok (chunks, total), l)
      else
        let total := total + buf.length
        if total > i32Max then (.error (.bodyTooLarge (streamTooLargeMessage total)), l)
        else
          match l.pushLeaf buf with
          | (.error e, l) => (.error e, l)
          | (.ok bid, l) =>
            let chunks := chunks ++ [(bid, buf.length)]
            if buf.length < streamChunkSize then (.ok (chunks, total), l)
            else streamLoop fuel total chunks reader l

def Layout.writeDataChainFromReaderInner (l : Layout) (reader : Reader) : Result (Nat × Nat) × Layout :=
  match streamLoop (reader.size + 1) 0 [] reader l with
  | (.error e, l) => (.error e, l)
  | (.ok (chunks, total), l) =>
    match chunks with
    | [] => (.ok (0, 0), l)
    | [(bid, _)] => (.ok (bid, total), l)
    | chunks =>
      match l.buildChunkTree chunks (asU32 total) streamOverflowMessage with
      | (.error e, l) => (.error e, l)
      | (.ok bid, l) => (.ok (bid, total), l)

structure StreamChainCheckpoint where
  blocksLen : Nat
  nextBidCounter : Nat
  eagerCursor : Option Nat
  eagerAmapLen : Option Nat
  deriving DecidableEq, Repr

def Layout.streamChainCheckpoint (l : Layout) : StreamChainCheckpoint where
  blocksLen := l.blocks.length
  nextBidCounter := l.nextBidCounter
  eagerCursor := l.eager.map EagerWriteCtx.cursor
  eagerAmapLen := l.eager.map fun e => e.amapPages.length

/-- Back to the cursor: the temp file is cut there and its handle moved, but `file_pos` is kept. -/
def EagerWriteCtx.resetCursor (e : EagerWriteCtx) (cursor : Nat) : EagerWriteCtx :=
  { e with
    cursor := cursor
    file := { e.file with bytes := resize cursor 0 e.file.bytes, pos := cursor } }

/-- Forget the AMap pages behind the first `amapLen`, with their stubs; the set of registered
offsets and the stub watermark are kept. -/
def EagerWriteCtx.dropAmapPages (e : EagerWriteCtx) (amapLen : Nat) : EagerWriteCtx :=
  { e with
    amapPages := e.amapPages.take amapLen
    amapStubsWritten := e.amapStubsWritten \ ((e.amapPages.drop amapLen).map PageEntry.offset).toFinset }

def Layout.rollbackStreamChain (l : Layout) (cp : StreamChainCheckpoint) : Layout :=
  let l := { l with
    blocks := l.blocks.take cp.blocksLen
    usedBids := l.usedBids \ ((l.blocks.drop cp.blocksLen).map BlockEntry.bid).toFinset
    nextBidCounter := cp.nextBidCounter }
  match l.eager with
  | none => l
  | some eager =>
    let eager := match cp.eagerCursor with
      | some cursor => eager.resetCursor cursor
      | none => eager
    match cp.eagerAmapLen with
    | none => { l with eager := some eager }
    | some amapLen =>
      { l with
        usedBids := l.usedBids \ ((eager.amapPages.drop amapLen).map PageEntry.bid).toFinset
        eager := some (eager.dropAmapPages amapLen) }

def Layout.writeDataChainFromReader (l : Layout) (reader : Reader) : Result (Nat × Nat) × Layout :=
  match l.writeDataChainFromReaderInner reader with
  | (.ok v, l') => (.ok v, l')
  | (.error e, l') => (.error e, l'.rollbackStreamChain l.streamChainCheckpoint)

end

end PstWriter
