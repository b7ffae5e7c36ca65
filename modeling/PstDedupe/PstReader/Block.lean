import PstDedupe.Rust.Bytes

/-!
# The reader's errors and block ciphers

`PstError` with the variants the modelled reader raises, and `crypto.rs`: a block cipher maps the
payload of an external block byte by byte, so it never changes a length.
-/

namespace PstReader

open Rust List

inductive PstError where
  | io
  | invalidPageType (expected actual : Nat)
  | pageTypeMismatch (ptype ptypeRepeat : Nat)
  | nodeNotFound (nid : Nat)
  | blockNotFound (bid : Nat)
  | invalidBlockType (expected actual : Nat)
  | invalidHnSignature (sig : Nat)
  | invalidBthType (btype : Nat)
  | invalidHid (hid : Nat)
  | dataTruncated (needed available : Nat)
  | subnodeNotFound (nid : Nat)
  | invalidUtf16
  | resourceLimit (message : String)
  | btreeCycle (pageOffset : Nat)
  deriving DecidableEq, Repr

abbrev Result := Except PstError

inductive CryptMethod where
  | none
  | permute
  | cyclic
  deriving DecidableEq, Repr

/-- `mpbbCrypt[512..768]`. -/
def mpbbDecode : Array UInt8 := #[
   71, 241, 180, 230,  11, 106, 114,  72, 133,  78, 158, 235, 226, 248, 148,  83,
  224, 187, 160,   2, 232,  90,   9, 171, 219, 227, 186, 198, 124, 195,  16, 221,
   57,   5, 150,  48, 245,  55,  96, 130, 140, 201,  19,  74, 107,  29, 243, 251,
  143,  38, 151, 202, 145,  23,   1, 196,  50,  45, 110,  49, 149, 255, 217,  35,
  209,   0,  94, 121, 220,  68,  59,  26,  40, 197,  97,  87,  32, 144,  61, 131,
  185,  67, 190, 103, 210,  70,  66, 118, 192, 109,  91, 126, 178,  15,  22,  41,
   60, 169,   3,  84,  13, 218,  93, 223, 246, 183, 199,  98, 205, 141,   6, 211,
  105,  92, 134, 214,  20, 247, 165, 102, 117, 172, 177, 233,  69,  33, 112,  12,
  135, 159, 116, 164,  34,  76, 111, 191,  31,  86, 170,  46, 179, 120,  51,  80,
  176, 163, 146, 188, 207,  25,  28, 167,  99, 203,  30,  77,  62,  75,  27, 155,
   79, 231, 240, 238, 173,  58, 181,  89,   4, 234,  64,  85,  37,  81, 229, 122,
  137,  56, 104,  82, 123, 252,  39, 174, 215, 189, 250,   7, 244, 204, 142,  95,
  239,  53, 156, 132,  43,  21, 213, 119,  52,  73, 182,  18,  10, 127, 113, 136,
  253, 157,  24,  65, 125, 147, 216,  88,  44, 206, 254,  36, 175, 222, 184,  54,
  200, 161, 128, 166, 153, 152, 168,  47,  14, 129, 101, 115, 228, 194, 162, 138,
  212, 225,  17, 208,   8, 139,  42, 242, 237, 154, 100,  63, 193, 108, 249, 236]

def decryptPermute (data : Bytes) : Bytes := data.map fun b => mpbbDecode[b.toNat]!

/-- `decrypt_cyclic`: XOR with the four bytes of `(bid as u32) ^ ((bid >> 16) as u32)`. -/
def decryptCyclic (data : Bytes) (bid : Nat) : Bytes :=
  let keyBytes := leBytes 4 ((bid % 2 ^ 32) ^^^ (bid / 2 ^ 16 % 2 ^ 32))
  data.mapIdx fun i b => b ^^^ keyBytes[i % 4]!

def decryptBlock (data : Bytes) (method : CryptMethod) (bid : Nat) : Bytes :=
  match method with
  | .none => data
  | .permute => decryptPermute data
  | .cyclic => decryptCyclic data bid

@[simp] theorem decryptBlock_none (data : Bytes) (bid : Nat) : decryptBlock data .none bid = data := rfl

@[simp] theorem length_decryptBlock (data : Bytes) (method : CryptMethod) (bid : Nat) :
    (decryptBlock data method bid).length = data.length := by
  cases method with
  | none => rfl
  | permute => exact length_map ..
  | cyclic => exact length_mapIdx ..

/-!
# Reading blocks (`ndb/block.rs`)

A BID names a block through the BBT.
-/

open Foundations

/-- Hard cap on the size of one assembled value. -/
def maxXblockAssemble : Nat := 64 * 1024 * 1024

def maxSubnodeDepth : Nat := 32

def isInternal (bid : Nat) : Bool := bid.testBit 1

/-- `BlockId::is_null`. -/
def isNull (bid : Nat) : Bool := bid == 0

def blockTrailerSize : Nat := 16

def align64 (size : Nat) : Nat := (size + 63) / 64 * 64

structure BbtEntry where
  bid : Nat
  ib : Nat
  cb : Nat
  cRef : Nat
  deriving DecidableEq, Repr

abbrev BbtIndex := HashMap Nat BbtEntry

def validateBlockTrailer (raw : Bytes) (dataLen : Nat) : Result Nat :=
  let trailerStart := align64 dataLen
  if raw.length < trailerStart + blockTrailerSize then
    .error (.dataTruncated (trailerStart + blockTrailerSize) raw.length)
  else .ok (readLe 8 raw (trailerStart + 4))

def readRawBlock (file : Bytes) (bbt : BbtIndex) (bid : Nat) : Result Bytes :=
  match bbt.get bid with
  | none => .error (.blockNotFound bid)
  | some entry =>
    match window file entry.ib (align64 entry.cb + blockTrailerSize) with
    | none => .error .io
    | some raw => do
      -- a trailer that names another block is counted, not refused
      let _trailerBid ← validateBlockTrailer raw entry.cb
      return raw

def readPayload (file : Bytes) (bbt : BbtIndex) (bid : Nat) : Result Bytes := do
  let raw ← readRawBlock file bbt bid
  match bbt.get bid with
  | none => .error (.blockNotFound bid)
  | some entry => return raw.take entry.cb

def readExternal (file : Bytes) (bbt : BbtIndex) (crypt : CryptMethod) (bid : Nat) : Result Bytes := do
  let payload ← readPayload file bbt bid
  return decryptBlock payload crypt bid

def btypeOf (payload : Bytes) : Nat := readLe 1 payload 0
def clevelOf (payload : Bytes) : Nat := readLe 1 payload 1
def cEntriesOf (payload : Bytes) : Nat := readLe 2 payload 2
def lcbTotalOf (payload : Bytes) : Nat := readLe 4 payload 4

def rgBids (payload : Bytes) : List Nat :=
  ((range (cEntriesOf payload)).takeWhile fun i => 8 + i * 8 + 8 ≤ payload.length).map
    fun i => readLe 8 payload (8 + i * 8)

/-- Reject an attacker-controlled `lcbTotal` before any preallocation. -/
def checkXblockAssembleLimit (lcbTotal : Nat) : Result Unit :=
  if lcbTotal > maxXblockAssemble then
    .error (.resourceLimit
      s!"xblock/xxblock lcbTotal {lcbTotal} exceeds max {maxXblockAssemble}")
  else .ok ()

/-- The loop over the entries of an internal block: read each child, append it. -/
def assembleChildren (what : String) (read : Nat → Result Bytes) : List Nat → Bytes → Result Bytes
  | [], result => .ok result
  | child :: rest, result => do
    let chunk ← read child
    if result.length + chunk.length > maxXblockAssemble then
      .error (.resourceLimit s!"{what} assembled size exceeds max {maxXblockAssemble}")
    else assembleChildren what read rest (result ++ chunk)

def readInternal (what : String) (read : Nat → Result Bytes) (payload : Bytes) : Result Bytes :=
  if payload.length < 8 then .error (.dataTruncated 8 payload.length)
  else do
    checkXblockAssembleLimit (lcbTotalOf payload)
    assembleChildren what read (rgBids payload) []

def readXblockData (file : Bytes) (bbt : BbtIndex) (xblockData : Bytes) (crypt : CryptMethod) : Result Bytes :=
  readInternal "xblock" (readExternal file bbt crypt) xblockData

def readXxblockData (file : Bytes) (bbt : BbtIndex) (xxblockData : Bytes) (crypt : CryptMethod) :
    Result Bytes :=
  readInternal "xxblock"
    (fun child => do
      let xblockPayload ← readPayload file bbt child
      readXblockData file bbt xblockPayload crypt)
    xxblockData

def readBlockData (file : Bytes) (bbt : BbtIndex) (bid : Nat) (crypt : CryptMethod) : Result Bytes :=
  if isNull bid then .ok []
  else do
    let payload ← readPayload file bbt bid
    if !isInternal bid then return decryptBlock payload crypt bid
    -- fail closed on truncated headers
    else if payload.length < 2 then .error (.dataTruncated 2 payload.length)
    else
      match btypeOf payload, clevelOf payload with
      | 1, 1 => readXblockData file bbt payload crypt
      | 1, 2 => readXxblockData file bbt payload crypt
      | btype, _ => .error (.invalidBlockType 1 btype)

def collectChildren (collect : Nat → Finset Nat → Result (List Nat × Finset Nat)) :
    List Nat → Finset Nat → Result (List Nat × Finset Nat)
  | [], visited => .ok ([], visited)
  | child :: rest, visited => do
    let (leaves, visited) ← collect child visited
    let (more, visited) ← collectChildren collect rest visited
    return (leaves ++ more, visited)

def collectLeafDataBidsAt (file : Bytes) (bbt : BbtIndex) :
    Nat → Nat → Finset Nat → Result (List Nat × Finset Nat)
  | left, bid, visited =>
    if isNull bid then .ok ([], visited)
    else if !isInternal bid then .ok ([bid], visited)
    else match left with
      | 0 => .error (.resourceLimit
          s!"xblock tree depth {maxSubnodeDepth + 1} exceeds max {maxSubnodeDepth}")
      | left + 1 =>
        if bid ∈ visited then .error (.btreeCycle bid)
        else do
          let visited := insert bid visited
          let payload ← readPayload file bbt bid
          -- a header too short to hold entries counts as no leaf
          if payload.length < 8 then return ([], visited)
          else
            match btypeOf payload, clevelOf payload with
            | 1, 1 => return (rgBids payload, visited)
            | 1, 2 => collectChildren (collectLeafDataBidsAt file bbt left) (rgBids payload) visited
            | btype, _ => .error (.invalidBlockType 1 btype)

def collectLeafDataBids (file : Bytes) (bbt : BbtIndex) (bid : Nat) : Result (List Nat) := do
  let (leaves, _) ← collectLeafDataBidsAt file bbt (maxSubnodeDepth + 1) bid ∅
  return leaves

def readLeafBlockData (file : Bytes) (bbt : BbtIndex) (crypt : CryptMethod) (bid : Nat) : Result Bytes :=
  if isNull bid || isInternal bid then
    .error (.invalidBlockType 0 (if isInternal bid then 1 else 0))
  else readExternal file bbt crypt bid

def readLeaves (file : Bytes) (bbt : BbtIndex) (bid : Nat) (crypt : CryptMethod) : Result Bytes := do
  let leaves ← collectLeafDataBids file bbt bid
  let parts ← leaves.mapM (readLeafBlockData file bbt crypt)
  return parts.flatten

end PstReader
