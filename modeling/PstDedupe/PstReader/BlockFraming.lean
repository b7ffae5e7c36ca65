import PstDedupe.PstReader.BlockPaths
import PstDedupe.PstReader.CrcScopes

/-!
# Block framing (`validate_block_trailer` and `read_raw_block` of `ndb/block.rs`)

The reader takes the trailer to begin at the payload's size rounded up, with the CRC as its first
field.
-/

namespace PstReader

open Rust Foundations List

def mspstSize (cb : Nat) : Nat := (cb + 16 + 63) / 64 * 64

theorem mspstSize_isLeast (cb : Nat) : IsLeast {size | 64 ∣ size ∧ cb + 16 ≤ size} (mspstSize cb) := by
  unfold mspstSize
  refine ⟨⟨Nat.dvd_mul_left _ _, by omega⟩, fun size hsize => ?_⟩
  obtain ⟨⟨k, rfl⟩, hroom⟩ := hsize
  omega

def mspstPadding (cb : Nat) : Nat := mspstSize cb - 16 - cb

/-- A block as MS-PST 2.2.2.8.1 has it. -/
def mspstBlock (wSig crc bid : Nat) (payload : Bytes) : Bytes :=
  payload ++ replicate (mspstPadding payload.length) 0 ++
    (leBytes 2 payload.length ++ leBytes 2 wSig ++ leBytes 4 crc ++ leBytes 8 bid)

variable {wSig crc bid : Nat} {payload : Bytes}

theorem length_mspstBlock : (mspstBlock wSig crc bid payload).length = mspstSize payload.length := by
  have hroom : payload.length + 16 ≤ mspstSize payload.length := (mspstSize_isLeast payload.length).1.2
  unfold mspstBlock mspstPadding
  simp only [length_append, length_replicate, length_leBytes]
  omega

theorem take_mspstBlock (h : align64 payload.length + 64 = mspstSize payload.length) :
    (mspstBlock wSig crc bid payload).take (align64 payload.length + blockTrailerSize)
      = payload ++ replicate (align64 payload.length + blockTrailerSize - payload.length) 0 := by
  have hle := le_align64 payload.length
  have hpad : align64 payload.length + blockTrailerSize - payload.length ≤ mspstPadding payload.length := by
    unfold mspstPadding blockTrailerSize
    omega
  unfold mspstBlock
  rw [take_append_of_le_length, take_append, take_of_length_le (by omega), take_replicate,
    Nat.min_eq_left hpad]
  rw [length_append, length_replicate]
  omega

theorem readLe_zeros {n k off : Nat} (hoff : payload.length ≤ off) :
    readLe n (payload ++ replicate k 0) off = 0 := by
  have hzeros : ∀ n : Nat, ofLeBytes (replicate n 0) = 0 := by
    intro n
    induction n with
    | zero => rfl
    | succ n ih =>
      rw [replicate_succ, ofLeBytes_cons, ih]
      rfl
  unfold readLe
  rw [drop_append, drop_of_length_le hoff, nil_append, drop_replicate, take_replicate]
  exact hzeros _

structure Trailer where
  storedCrc : Nat
  bid : Nat
  deriving DecidableEq, Repr

/-- The fields that `validate_block_trailer` reads. -/
def trailerOf (raw : Bytes) (dataLen : Nat) : Trailer :=
  ⟨readLe 4 raw (align64 dataLen), readLe 8 raw (align64 dataLen + 4)⟩

structure RawRead where
  raw : Bytes
  trailer : Trailer
  notes : List Op

section

variable [Crc32fast]

def trailerNotes (raw : Bytes) (entry : BbtEntry) (bid : Nat) (trailer : Trailer) : List Op :=
  (if (Crc32fast.hash (raw.take entry.cb)).toNat ≠
    trailer.storedCrc then [.noteBlockCrc trailer.bid] else []) ++
    (if trailer.bid ≠ bid then [.noteBlockBidMismatch bid trailer.bid] else [])

def readRawBlockNoting (file : Bytes) (bbt : BbtIndex) (bid : Nat) : Result RawRead :=
  match bbt.get bid with
  | none => .error (.blockNotFound bid)
  | some entry =>
    match window file entry.ib (align64 entry.cb + blockTrailerSize) with
    | none => .error .io
    | some raw =>
      if raw.length < align64 entry.cb + blockTrailerSize then
        .error (.dataTruncated (align64 entry.cb + blockTrailerSize) raw.length)
      else
        let trailer := trailerOf raw entry.cb
        .ok ⟨raw, trailer, .noteBlockRead :: trailerNotes raw entry bid trailer⟩

/-- The reader takes the block for one that is there, with the fields it was written with. -/
def SeesTrailer (file : Bytes) (bbt : BbtIndex) (bid crc : Nat) : Prop :=
  ∃ read, readRawBlockNoting file bbt bid = .ok read ∧ read.trailer = ⟨crc, bid⟩

/-- The payload sizes whose frame is 64 bytes longer than they are rounded up. -/
def HasOwnFrame (cb : Nat) : Prop := cb % 64 = 0 ∨ 48 < cb % 64

instance : DecidablePred HasOwnFrame := fun cb => inferInstanceAs (Decidable (cb % 64 = 0 ∨ 48 < cb % 64))

/-- **A block of the standard at the end of a file** is read as what it is iff the reader's place
for the trailer is in its padding and both fields are zero, too. -/
theorem seesTrailer_mspst_iff (before : Bytes) (wSig crc bid cRef : Nat) (payload : Bytes)
    (bbt : BbtIndex) (hentry : bbt.get bid = some ⟨bid, before.length, payload.length, cRef⟩) :
    SeesTrailer (before ++ mspstBlock wSig crc bid payload) bbt bid crc
      ↔ HasOwnFrame payload.length ∧ bid = 0 ∧ crc = 0 := by
  have hlength : (before ++ mspstBlock wSig crc bid payload).length
      = before.length + mspstSize payload.length := by
    rw [length_append, length_mspstBlock]
  unfold SeesTrailer readRawBlockNoting
  rw [hentry]
  dsimp only
  by_cases hframe : HasOwnFrame payload.length
  · -- the trailer is read where the padding is
    have hsize : align64 payload.length + 64 = mspstSize payload.length := by
      unfold HasOwnFrame at hframe
      unfold align64 mspstSize
      omega
    have hwindow : window (before ++ mspstBlock wSig crc bid payload) before.length
        (align64 payload.length + blockTrailerSize)
        = some (payload ++ replicate (align64 payload.length + blockTrailerSize - payload.length) 0) := by
      unfold window
      rw [if_pos (by rw [hlength]; unfold blockTrailerSize; omega), drop_left, take_mspstBlock hsize]
    have hle := le_align64 payload.length
    have htrailer : trailerOf
        (payload ++ replicate (align64 payload.length + blockTrailerSize - payload.length) 0)
        payload.length = ⟨0, 0⟩ := by
      unfold trailerOf blockTrailerSize
      rw [readLe_zeros hle, readLe_zeros (by omega)]
    rw [hwindow]
    dsimp only
    rw [if_neg (by rw [length_append, length_replicate]; omega), htrailer]
    constructor
    · rintro ⟨read, hread, hfields⟩
      obtain rfl := Except.ok.inj hread
      injection hfields with hcrc hbid
      exact ⟨hframe, hbid.symm, hcrc.symm⟩
    · rintro ⟨-, rfl, rfl⟩
      exact ⟨_, rfl, rfl⟩
  · -- the block ends before the reader's trailer does
    have hwindow : window (before ++ mspstBlock wSig crc bid payload) before.length
        (align64 payload.length + blockTrailerSize)
        = none := by
      unfold HasOwnFrame at hframe
      unfold window
      rw [if_neg]
      rw [hlength]
      unfold align64 blockTrailerSize mspstSize
      omega
    rw [hwindow]
    dsimp only
    constructor
    · rintro ⟨read, hread, -⟩
      cases hread
    · rintro ⟨hframe', -⟩
      exact absurd hframe' hframe

end

def oneBlockBbt (bid ib cb : Nat) : BbtIndex := AList.insert bid ⟨bid, ib, cb, 2⟩ ∅

def seesFields (fields : Trailer) : Result RawRead → Bool
  | .ok read => read.trailer = fields
  | .error _ => false

theorem seesFields_of_seesTrailer [Crc32fast] {file : Bytes} {bbt : BbtIndex} {bid crc : Nat}
    (h : SeesTrailer file bbt bid crc) :
    seesFields ⟨crc, bid⟩ (readRawBlockNoting file bbt bid) = true := by
  obtain ⟨read, hread, hfields⟩ := h
  rw [hread]
  exact decide_eq_true hfields

theorem seesTrailer_mspst_fails :
    letI := Crc32fast.ieee
    ¬ SeesTrailer (mspstBlock 0 (Crc32fast.hash [65]).toNat 4 [65]) (oneBlockBbt 4 0 1) 4
      (Crc32fast.hash [65]).toNat ∧
      seesFields ⟨0, 0⟩ (readRawBlockNoting (mspstBlock 0 0x414c623c 4 (replicate 64 65))
        (oneBlockBbt 4 0 64) 4) = true :=
  letI := Crc32fast.ieee
  ⟨fun h => absurd (seesFields_of_seesTrailer h) (by decide +kernel), by decide +kernel⟩

theorem seesTrailer_mspst_zeros :
    letI := Crc32fast.ieee
    SeesTrailer (mspstBlock 0 0 0 (replicate 64 65)) (oneBlockBbt 0 0 64) 0 0 :=
  letI := Crc32fast.ieee
  (seesTrailer_mspst_iff [] 0 0 0 2 (replicate 64 65) (oneBlockBbt 0 0 64) (by decide)).mpr
    ⟨by decide, rfl, rfl⟩

end PstReader
