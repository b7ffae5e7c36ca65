import PstDedupe.PstReader.Heap
import PstDedupe.Rust.Text

/-!
# Property contexts (`pst-reader/src/ltp/pc.rs`)

A property context is the records of one tree on a heap.
-/

namespace PstReader

open Foundations Rust

variable [PointerWidth]

inductive PropertyValue where
  | i16 (v : Int)
  | i32 (v : Int)
  | i64 (v : Int)
  | bool (v : Bool)
  | string (v : String)
  | time (v : Int)
  | binary (v : Bytes)
  deriving DecidableEq, Repr

/-- The bytes `decode_utf16le` decodes: an odd last one is cut off. -/
def evenPart (bytes : Slice) : Reader Slice :=
  if bytes.len % 2 = 0 then pure bytes else do bytes.range 0 (← subUsize bytes.len 1)

def decodeUtf16le (bytes : Slice) : Reader String := do
  let adjusted ← evenPart bytes
  match fromUtf16 (unitsLe adjusted.bytes) with
  | some s => pure s
  | none => throw .invalidUtf16

structure PropContext where
  heap : Heap
  records : List BthRecord
  subnodes : HashMap Nat Slice

def PropContext.loadWithSubnodes (data : Slice) (subnodes : HashMap Nat Slice) : Reader PropContext := do
  let heap ← Heap.parse data (blockSizeOf data)
  let bthHeader ← readBthHeader heap heap.header.hidUserRoot
  let records ← collectRecords heap bthHeader
  pure { heap, records, subnodes }

def referencedSubnodeNids (data : Slice) : Reader (List Nat) := do
  let heap ← Heap.parse data (blockSizeOf data)
  let bthHeader ← readBthHeader heap heap.header.hidUserRoot
  let records ← collectRecords heap bthHeader
  records.foldlM (fun needed record => do
    if record.data.len < 6 then pure needed
    else
      let propType ← (← record.data.range 0 2).readLe 2
      let valueHnid ← (← record.data.range 2 6).readLe 4
      if (propType = 0x001F ∨ propType = 0x0102) ∧ (⟨valueHnid⟩ : Hid).hidType ≠ 0 then
        pure (needed.insert valueHnid)
      else pure needed) []

def PropContext.getRawHnid (pc : PropContext) (propId : Nat) : Reader (Option (Nat × Nat)) :=
  match pc.records.find? fun r => r.key.bytes = leBytes 2 propId with
  | none => pure none
  | some record =>
    if record.data.len < 6 then pure none
    else do
      let propType ← (← record.data.range 0 2).readLe 2
      let valueHnid ← (← record.data.range 2 6).readLe 4
      pure (some (propType, valueHnid))

/-- The eight bytes of an `i64` on the heap, when there are as many. -/
def readI64 (bytes : Slice) : Reader Int := return asI64 (← bytes.readLe 8)

def PropContext.resolveValue (pc : PropContext) (propType valueHnid : Nat) : Reader (Option PropertyValue) :=
  let hid : Hid := ⟨valueHnid⟩
  match propType with
  | 0x0002 => pure (some (.i16 (Int.bmod valueHnid (2 ^ 16))))
  | 0x0003 => pure (some (.i32 (Int.bmod valueHnid (2 ^ 32))))
  | 0x000B => pure (some (.bool (valueHnid ≠ 0)))
  | 0x001F =>
    if hid.isNull then pure (some (.string ""))
    else if hid.hidType ≠ 0 then
      match pc.subnodes.get valueHnid with
      | some bytes => return some (.string (← decodeUtf16le bytes))
      | none => pure none
    else do
      let bytes ← pc.heap.get hid
      return some (.string (← decodeUtf16le bytes))
  | 0x0014 => do
    let bytes ← pc.heap.get hid
    if bytes.len ≥ 8 then return some (.i64 (← readI64 bytes))
    -- the low 32 bits, where the heap holds no value
    else pure (some (.i64 valueHnid))
  | 0x0040 => do
    let bytes ← pc.heap.get hid
    if bytes.len ≥ 8 then return some (.time (← readI64 bytes)) else pure none
  | 0x0102 =>
    if hid.isNull then pure (some (.binary []))
    else if hid.hidType ≠ 0 then
      match pc.subnodes.get valueHnid with
      | some bytes => pure (some (.binary bytes.bytes))
      | none => pure none
    else do
      let bytes ← pc.heap.get hid
      pure (some (.binary bytes.bytes))
  | 0x001E =>
    if hid.isNull then pure (some (.string ""))
    else if hid.hidType ≠ 0 then pure none
    else do
      let bytes ← pc.heap.get hid
      pure (some (.string (fromUtf8Lossy bytes.bytes)))
  | _ => pure none

def PropContext.get (pc : PropContext) (propId : Nat) : Reader (Option PropertyValue) := do
  match ← pc.getRawHnid propId with
  | none => pure none
  | some (propType, valueHnid) => pc.resolveValue propType valueHnid

def PropContext.getObject (pc : PropContext) (propId : Nat) : Reader (Option (Nat × Nat)) := do
  match ← pc.getRawHnid propId with
  | none => pure none
  | some (propType, valueHnid) =>
    let hid : Hid := ⟨valueHnid⟩
    if propType ≠ 0x000D then pure none
    else if hid.isNull ∨ hid.hidType ≠ 0 then throw (.dataTruncated 8 0)
    else
      let bytes ← pc.heap.get hid
      if bytes.len < 8 then throw (.dataTruncated 8 bytes.len)
      else
        let nid ← (← bytes.range 0 4).readLe 4
        let size ← (← bytes.range 4 8).readLe 4
        pure (some (nid, size))

def PropContext.propValueByteLen (pc : PropContext) (propId : Nat) : Reader (Option Nat) := do
  match ← pc.getRawHnid propId with
  | none => pure none
  | some (propType, valueHnid) =>
    let hid : Hid := ⟨valueHnid⟩
    if propType = 0x001F ∨ propType = 0x001E ∨ propType = 0x0102 then
      if hid.isNull then pure (some 0)
      else if hid.hidType ≠ 0 then pure ((pc.subnodes.get valueHnid).map Slice.len)
      else
        let bytes ← pc.heap.get hid
        pure (some bytes.len)
    else pure none

theorem safe_evenPart (bytes : Slice) : NoPanic (evenPart bytes) := by
  unfold evenPart
  split
  · trivial
  · rw [subUsize_eq (by omega), pure_bind, Slice.range_eq (by omega) (by omega)]
    trivial

theorem safe_decodeUtf16le (bytes : Slice) : NoPanic (decodeUtf16le bytes) := by
  refine (safe_evenPart bytes).bind fun adjusted _ => ?_
  split
  · trivial
  · exact safe_throw

theorem safe_readI64 {bytes : Slice} (h : 8 ≤ bytes.len) : NoPanic (readI64 bytes) :=
  (Slice.safe_readLe h).bind fun _ _ => trivial

theorem safe_loadWithSubnodes (data : Slice) (subnodes : HashMap Nat Slice) :
    NoPanic (PropContext.loadWithSubnodes data subnodes) := by
  refine (safe_parse data _).bind fun heap _ => ?_
  refine (safe_readBthHeader heap _).bind fun bthHeader _ => ?_
  exact (safe_collectRecords heap bthHeader).bind fun _ _ => trivial

theorem safe_referencedSubnodeNids (data : Slice) : NoPanic (referencedSubnodeNids data) := by
  refine (safe_parse data _).bind fun heap _ => ?_
  refine (safe_readBthHeader heap _).bind fun bthHeader _ => ?_
  refine (safe_collectRecords heap bthHeader).bind fun records _ => ?_
  refine safe_foldlM trivial fun needed record _ _ => ?_
  split
  · trivial
  · refine Slice.safe_field (by omega) (by omega) fun propType _ => ?_
    refine Slice.safe_field (by omega) (by omega) fun valueHnid _ => ?_
    split <;> trivial

theorem safe_getRawHnid (pc : PropContext) (propId : Nat) : NoPanic (pc.getRawHnid propId) := by
  unfold PropContext.getRawHnid
  split
  · trivial
  split
  · trivial
  refine Slice.safe_field (by omega) (by omega) fun propType _ => ?_
  exact Slice.safe_field (by omega) (by omega) fun valueHnid _ => trivial

theorem safe_resolveValue (pc : PropContext) (propType valueHnid : Nat) :
    NoPanic (pc.resolveValue propType valueHnid) := by
  have hget (hid : Hid) : NoPanic (pc.heap.get hid) := safe_get pc.heap hid
  have hstring (bytes : Slice) : NoPanic (do
      return some (PropertyValue.string (← decodeUtf16le bytes)) : Reader (Option PropertyValue)) :=
    (safe_decodeUtf16le bytes).bind fun _ _ => trivial
  unfold PropContext.resolveValue
  dsimp only
  split
  case h_4 =>
    split
    · trivial
    split
    · split
      · exact hstring _
      · trivial
    · exact (hget _).bind fun bytes _ => hstring bytes
  case h_5 =>
    refine (hget _).bind fun bytes _ => ?_
    split
    · rename_i hlen
      exact (safe_readI64 hlen).bind fun _ _ => trivial
    · trivial
  case h_6 =>
    refine (hget _).bind fun bytes _ => ?_
    split
    · rename_i hlen
      exact (safe_readI64 hlen).bind fun _ _ => trivial
    · trivial
  case h_7 =>
    split
    · trivial
    split
    · split <;> trivial
    · exact (hget _).bind fun _ _ => trivial
  case h_8 =>
    split
    · trivial
    split
    · trivial
    · exact (hget _).bind fun _ _ => trivial
  all_goals trivial

theorem PropContext.safe_get (pc : PropContext) (propId : Nat) : NoPanic (pc.get propId) := by
  refine (safe_getRawHnid pc propId).bind fun raw _ => ?_
  split
  · trivial
  · exact safe_resolveValue pc _ _

theorem safe_getObject (pc : PropContext) (propId : Nat) : NoPanic (pc.getObject propId) := by
  refine (safe_getRawHnid pc propId).bind fun raw _ => ?_
  split
  · trivial
  dsimp only
  split
  · trivial
  split
  · exact safe_throw
  refine (PstReader.safe_get pc.heap _).bind fun bytes _ => ?_
  split
  · exact safe_throw
  refine Slice.safe_field (by omega) (by omega) fun nid _ => ?_
  exact Slice.safe_field (by omega) (by omega) fun size _ => trivial

theorem safe_propValueByteLen (pc : PropContext) (propId : Nat) : NoPanic (pc.propValueByteLen propId) := by
  refine (safe_getRawHnid pc propId).bind fun raw _ => ?_
  split
  · trivial
  dsimp only
  split
  · split
    · trivial
    split
    · trivial
    · exact (PstReader.safe_get pc.heap _).bind fun _ _ => trivial
  · trivial

end PstReader
