import PstDedupe.Foundations.SearchTree
import PstDedupe.PstReader.Heap

/-!
# One key of a tree on heap (`pst-reader/src/ltp/bth.rs`)

`lookup` descends from the root; `collect_records` walks all of it.
-/

namespace PstReader

open Foundations Rust List

variable [PointerWidth]

/-- `<=` on `&[u8]`. -/
def bytesLe : Bytes → Bytes → Bool
  | [], _ => true
  | _ :: _, [] => false
  | a :: as, b :: bs => a < b || (a == b && bytesLe as bs)

def lookupLeaf (data : Slice) (cbKey cbEnt recordSize : Nat) (searchKey : Slice) :
    List Nat → Reader (Option Slice)
  | [] => pure none
  | i :: is => do
    let offset ← mulUsize i recordSize
    let key ← data.range offset (← addUsize offset cbKey)
    if key.bytes = searchKey.bytes then
      let valueStart ← addUsize offset cbKey
      let value ← data.range valueStart (← addUsize valueStart cbEnt)
      pure (some value)
    else lookupLeaf data cbKey cbEnt recordSize searchKey is

/-- The loop of `lookup_level` over the entries of an index level. -/
def lookupIndex (data : Slice) (cbKey recordSize : Nat) (searchKey : Slice) :
    Option Hid → List Nat → Reader (Option Hid)
  | bestHid, [] => pure bestHid
  | bestHid, i :: is => do
    let offset ← mulUsize i recordSize
    let key ← data.range offset (← addUsize offset cbKey)
    let hidChildOffset ← addUsize offset cbKey
    let childHid ← (← data.range hidChildOffset (← addUsize hidChildOffset 4)).readLe 4
    if bytesLe key.bytes searchKey.bytes then lookupIndex data cbKey recordSize searchKey (some ⟨childHid⟩) is
    else pure bestHid

def lookupLevel (heap : Heap) (header : BthHeader) (searchKey : Slice) : Nat → Hid → Reader (Option Slice)
  | 0, hid => do
    let data ← heap.get hid
    let recordSize ← addUsize header.cbKey.toNat header.cbEnt.toNat
    if recordSize = 0 then pure none
    else
      lookupLeaf data header.cbKey.toNat header.cbEnt.toNat recordSize searchKey
        (range (data.len / recordSize))
  | level + 1, hid => do
    let data ← heap.get hid
    let recordSize ← addUsize header.cbKey.toNat 4
    if recordSize = 0 then pure none
    else
      match ← lookupIndex data header.cbKey.toNat recordSize searchKey none
          (range (data.len / recordSize)) with
      | some child => lookupLevel heap header searchKey level child
      | none => pure none

def lookup (heap : Heap) (header : BthHeader) (searchKey : Slice) : Reader (Option Slice) :=
  if header.hidRoot.isNull then pure none
  else lookupLevel heap header searchKey header.bIdxLevels.toNat header.hidRoot

def cellKey (data : Slice) (cbKey recordSize i : Nat) : Slice :=
  data.sub (i * recordSize) (i * recordSize + cbKey)

def cellValue (data : Slice) (cbKey recordSize i : Nat) : Slice :=
  data.sub (i * recordSize + cbKey) (i * recordSize + recordSize)

/-- The child that cell `i` of an index level names. -/
def cellChild (data : Slice) (cbKey i : Nat) : Hid :=
  ⟨ofLeBytes ((cellValue data cbKey (cbKey + 4) i).bytes.take 4)⟩

def BthHeader.recordSize (header : BthHeader) : Nat := header.cbKey.toNat + header.cbEnt.toNat

def leafCells (header : BthHeader) (data : Slice) : List (Slice × Slice) :=
  if header.recordSize = 0 then []
  else (range (data.len / header.recordSize)).map fun i =>
    (cellKey data header.cbKey.toNat header.recordSize i,
      cellValue data header.cbKey.toNat header.recordSize i)

def bthTreeAt (heap : Heap) (header : BthHeader) : (level : Nat) → Hid → Reader (LevelTree Slice Slice level)
  | 0, hid => do
    let data ← heap.get hid
    pure (.leaf (leafCells header data))
  | level + 1, hid => do
    let data ← heap.get hid
    let entries ← (range (data.len / (header.cbKey.toNat + 4))).mapM fun i => do
      let sub ← bthTreeAt heap header level (cellChild data header.cbKey.toNat i)
      pure (cellKey data header.cbKey.toNat (header.cbKey.toNat + 4) i, sub)
    pure (.index entries)

def bthTree (heap : Heap) (header : BthHeader) : Reader (LevelTree Slice Slice header.bIdxLevels.toNat) :=
  if header.hidRoot.isNull then pure (LevelTree.empty _)
  else bthTreeAt heap header header.bIdxLevels.toNat header.hidRoot

section Cells

variable {data : Slice} {cbKey recordSize : Nat} {is : List Nat}

theorem cell_end_le {i : Nat} (hi : i ∈ range (data.len / recordSize)) :
    i * recordSize + recordSize ≤ data.len := by
  have hlt : i + 1 ≤ data.len / recordSize := List.mem_range.mp hi
  have hmul := (Nat.mul_le_mul_right recordSize hlt).trans (Nat.div_mul_le_self _ _)
  rwa [Nat.succ_mul] at hmul

theorem collectLeafRecords_eq (hkey : cbKey ≤ recordSize)
    (his : ∀ i ∈ is, i * recordSize + recordSize ≤ data.len) :
    collectLeafRecords data cbKey recordSize is =
      pure (is.map fun i => ⟨cellKey data cbKey recordSize i, cellValue data cbKey recordSize i⟩) := by
  have husize := usizeMax_eq
  have hlen := data.len_le
  induction is with
  | nil => rfl
  | cons i is ih =>
    have hi := his i mem_cons_self
    unfold collectLeafRecords
    simp (disch := omega) only [addUsize_eq, mulUsize_eq, pure_bind]
    rw [if_neg (by omega), Slice.range_eq (by omega) (by omega), pure_bind,
      Slice.range_eq (by omega) (by omega), pure_bind, ih fun j hj => his j (mem_cons_of_mem _ hj)]
    rfl

theorem read_cellChild {i : Nat} (hi : i * (cbKey + 4) + (cbKey + 4) ≤ data.len) :
    ((data.range (i * (cbKey + 4) + cbKey) (i * (cbKey + 4) + cbKey + 4) >>= fun cell => cell.readLe 4 :
      Reader Nat)) = pure (cellChild data cbKey i).raw := by
  rw [Slice.range_eq (by omega) (by omega), pure_bind, Slice.readLe_eq]
  · rfl
  · rw [data.len_sub (by omega) (by omega)]
    omega

theorem collectIndexRecords_eq {level : Nat} {child : Hid → Reader (List BthRecord)}
    {tree : Hid → Reader (LevelTree Slice Slice level)}
    (hchild : ∀ hid, child hid = tree hid >>= fun t => pure (t.records.map fun r => ⟨r.1, r.2⟩))
    (his : ∀ i ∈ is, i * (cbKey + 4) + (cbKey + 4) ≤ data.len) :
    collectIndexRecords data cbKey (cbKey + 4) child is = (is.mapM fun i => do
        let sub ← tree (cellChild data cbKey i)
        pure (cellKey data cbKey (cbKey + 4) i, sub)) >>=
        fun es => pure ((es.flatMap fun e => e.2.records).map fun r => ⟨r.1, r.2⟩) := by
  have husize := usizeMax_eq
  have hlen := data.len_le
  induction is with
  | nil => rfl
  | cons i is ih =>
    have hi := his i mem_cons_self
    unfold collectIndexRecords
    simp (disch := omega) only [addUsize_eq, mulUsize_eq, pure_bind]
    rw [if_neg (by omega), ← bind_assoc, read_cellChild hi, pure_bind, hchild,
      ih fun j hj => his j (mem_cons_of_mem _ hj)]
    simp only [mapM_cons, bind_assoc, pure_bind, flatMap_cons, map_append]

end Cells

variable {heap : Heap} {header : BthHeader}

theorem recordSize_bounds (header : BthHeader) :
    header.cbKey.toNat + header.cbEnt.toNat ≤ usizeMax ∧ header.cbKey.toNat + 4 ≤ usizeMax := by
  have hmax : 2 ^ 31 - 1 ≤ isizeMax := isizeMax_ge
  have husize := usizeMax_eq
  have hkey : header.cbKey.toNat < 256 := header.cbKey.toNat_lt
  have hent : header.cbEnt.toNat < 256 := header.cbEnt.toNat_lt
  omega

theorem collectLevel_eq (level : Nat) (hid : Hid) : collectLevel heap header level hid =
      bthTreeAt heap header level hid >>= fun t => pure (t.records.map fun r => ⟨r.1, r.2⟩) := by
  have hsize := recordSize_bounds header
  induction level generalizing hid with
  | zero =>
    unfold collectLevel bthTreeAt
    rw [bind_assoc]
    refine bind_congr fun data => ?_
    rw [addUsize_eq hsize.1, pure_bind, pure_bind, LevelTree.records_leaf, ← BthHeader.recordSize]
    unfold leafCells
    by_cases h : header.recordSize = 0
    · rw [if_pos h, if_pos h]
      rfl
    · rw [if_neg h, if_neg h, collectLeafRecords_eq
        (show _ ≤ header.recordSize from Nat.le_add_right _ _) fun i hi => cell_end_le hi, map_map]
      rfl
  | succ level ih =>
    unfold collectLevel bthTreeAt
    rw [bind_assoc]
    refine bind_congr fun data => ?_
    rw [addUsize_eq hsize.2, pure_bind, if_neg (by omega),
      collectIndexRecords_eq ih fun i hi => cell_end_le hi, bind_assoc]
    simp only [pure_bind, LevelTree.records_index]

theorem collectRecords_eq (heap : Heap) (header : BthHeader) : collectRecords heap header =
      bthTree heap header >>= fun t => pure (t.records.map fun r => ⟨r.1, r.2⟩) := by
  unfold collectRecords bthTree
  split
  · rw [pure_bind, LevelTree.records_empty]
    rfl
  · exact collectLevel_eq _ _

instance : DecidableEq Slice := fun a b => decidable_of_iff (a.bytes = b.bytes) Slice.ext_iff.symm

def keyLe (a b : Slice) : Bool := bytesLe a.bytes b.bytes

section Cells

variable {data : Slice} {cbKey recordSize : Nat} {is : List Nat} {searchKey : Slice}

theorem lookupLeaf_eq {cbEnt : Nat} (his : ∀ i ∈ is, i * (cbKey + cbEnt) + (cbKey + cbEnt) ≤ data.len) :
    lookupLeaf data cbKey cbEnt (cbKey + cbEnt) searchKey is = pure (recordOf searchKey (is.map fun i =>
        (cellKey data cbKey (cbKey + cbEnt) i, cellValue data cbKey (cbKey + cbEnt) i))) := by
  have husize := usizeMax_eq
  have hlen := data.len_le
  induction is with
  | nil => rfl
  | cons i is ih =>
    have hi := his i mem_cons_self
    unfold lookupLeaf
    simp (disch := omega) only [addUsize_eq, mulUsize_eq, pure_bind]
    rw [Slice.range_eq (by omega) (by omega), pure_bind, map_cons, recordOf_cons,
      ih fun j hj => his j (mem_cons_of_mem _ hj)]
    show (if (cellKey data cbKey (cbKey + cbEnt) i).bytes = searchKey.bytes then _ else _) = _
    simp only [← Slice.ext_iff]
    split
    · rw [Slice.range_eq (by omega) (by omega), pure_bind, Nat.add_assoc]
      rfl
    · rfl

theorem lookupIndex_eq (best : Option Hid) (his : ∀ i ∈ is, i * (cbKey + 4) + (cbKey + 4) ≤ data.len) :
    lookupIndex data cbKey (cbKey + 4) searchKey best is =
      pure ((pick (fun k => keyLe k searchKey) (is.map fun i =>
        (cellKey data cbKey (cbKey + 4) i, cellChild data cbKey i))).or best) := by
  have husize := usizeMax_eq
  have hlen := data.len_le
  induction is generalizing best with
  | nil => rfl
  | cons i is ih =>
    have hi := his i mem_cons_self
    unfold lookupIndex
    simp (disch := omega) only [addUsize_eq, mulUsize_eq, pure_bind]
    rw [Slice.range_eq (by omega) (by omega), pure_bind, ← bind_assoc, read_cellChild hi, pure_bind,
      map_cons, pick_cons, ih _ fun j hj => his j (mem_cons_of_mem _ hj)]
    show (if keyLe (cellKey data cbKey (cbKey + 4) i) searchKey = true then _ else _) = _
    split
    · -- a later entry replaces this one
      cases pick (fun k => keyLe k searchKey) (is.map fun i =>
        (cellKey data cbKey (cbKey + 4) i, cellChild data cbKey i)) with
      | none => rfl
      | some child => rfl
    · rfl

end Cells

theorem lookupLevel_eq {level : Nat} {hid : Hid} {t : LevelTree Slice Slice level}
    (searchKey : Slice) (ht : bthTreeAt heap header level hid = pure t) :
    lookupLevel heap header searchKey level hid = pure (t.search keyLe searchKey) := by
  have hsize := recordSize_bounds header
  induction level generalizing hid with
  | zero =>
    obtain ⟨data, hdata, hleaf⟩ := bind_eq_pure.mp ht
    cases hleaf
    unfold lookupLevel
    rw [hdata, pure_bind, addUsize_eq hsize.1, pure_bind]
    show _ = pure (recordOf searchKey (leafCells header data))
    unfold leafCells BthHeader.recordSize
    by_cases h : header.cbKey.toNat + header.cbEnt.toNat = 0
    · rw [if_pos h, if_pos h]
      rfl
    · rw [if_neg h, if_neg h, lookupLeaf_eq fun i hi => cell_end_le hi]
  | succ level ih =>
    obtain ⟨data, hdata, hrest⟩ := bind_eq_pure.mp ht
    obtain ⟨entries, hentries, hindex⟩ := bind_eq_pure.mp hrest
    cases hindex
    unfold lookupLevel
    rw [hdata, pure_bind, addUsize_eq hsize.2, pure_bind, if_neg (by omega),
      lookupIndex_eq none fun i hi => cell_end_le hi, pure_bind, Option.or_none]
    -- the HIDs of the cells, beside the subtrees read from them
    have hcells : Forall₂ (fun (e : Slice × Hid) (f : Slice × LevelTree Slice Slice level) =>
        e.1 = f.1 ∧ bthTreeAt heap header level e.2 = pure f.2)
        ((range (data.len / (header.cbKey.toNat + 4))).map fun i =>
          (cellKey data header.cbKey.toNat (header.cbKey.toNat + 4) i, cellChild data header.cbKey.toNat i))
        entries := by
      rw [forall₂_map_left_iff]
      refine (mapM_eq_pure_iff.mp hentries).imp fun i f hf => ?_
      obtain ⟨sub, hsub, hpair⟩ := bind_eq_pure.mp hf
      cases hpair
      exact ⟨rfl, hsub⟩
    show _ = pure ((pick (fun k => keyLe k searchKey) entries).bind fun sub => sub.search keyLe searchKey)
    have hpicked := pick_rel (p := fun k => keyLe k searchKey)
      (R := fun hid sub => bthTreeAt heap header level hid = pure sub) hcells
    generalize pick (fun k => keyLe k searchKey) entries = picked at hpicked ⊢
    generalize pick (fun k => keyLe k searchKey) (map _ _) = child at hpicked ⊢
    cases hpicked with
    | none => rfl
    | some hsub => exact ih hsub

theorem lookup_eq {t : LevelTree Slice Slice header.bIdxLevels.toNat} (searchKey : Slice)
    (ht : bthTree heap header = pure t) : lookup heap header searchKey = pure (t.search keyLe searchKey) := by
  unfold lookup
  unfold bthTree at ht
  split at ht
  · next h =>
    cases ht
    rw [if_pos h, LevelTree.search_empty]
  · next h =>
    rw [if_neg h]
    exact lookupLevel_eq searchKey ht

def keyRank (key : Slice) : Nat := ofLeBytes key.bytes

/-- A heap with a tree that can be read, ordered by the numeric value of its keys. -/
structure SortedBth where
  heap : Heap
  header : BthHeader
  tree : LevelTree Slice Slice header.bIdxLevels.toNat
  reads : bthTree heap header = pure tree
  sorted : tree.Ordered keyRank

/-- Looking a key up gives the record that the scan lists for it, and nothing if the scan lists
none. -/
def SortedBth.LookupAgrees (bth : SortedBth) : Prop :=
  ∃ records, collectRecords bth.heap bth.header = pure records ∧ ∀ searchKey,
    lookup bth.heap bth.header searchKey = pure ((records.find? fun r => r.key = searchKey).map BthRecord.data)

theorem find_records (searchKey : Slice) (cells : List (Slice × Slice)) :
    ((cells.map fun c => BthRecord.mk c.1 c.2).find? fun r => r.key = searchKey).map BthRecord.data =
      recordOf searchKey cells := by
  rw [find?_map, Option.map_map]
  rfl

/-- **When `lookup` agrees with the scan.** On every index level of the tree, the byte-wise
comparison has to put the keys up to an entry's own at or below each key stored under the entry, and
the next one above it. -/
theorem SortedBth.lookup_agrees_iff (bth : SortedBth) : bth.LookupAgrees ↔ bth.tree.SeparatedBy keyLe := by
  have hrecords : collectRecords bth.heap bth.header = pure (bth.tree.records.map fun r => ⟨r.1, r.2⟩) := by
    rw [collectRecords_eq, bth.reads, pure_bind]
  have hlookup := fun searchKey => lookup_eq searchKey bth.reads
  rw [← LevelTree.search_finds_iff bth.sorted]
  constructor
  · rintro ⟨records, hscan, hagree⟩ r hr
    rw [hrecords] at hscan
    cases hscan
    have hfound := hagree r.1
    rw [hlookup, find_records, recordOf_of_mem bth.sorted.pairwise hr] at hfound
    exact Except.ok.inj (Except.ok.inj hfound)
  · intro hfinds
    refine ⟨_, hrecords, fun searchKey => ?_⟩
    rw [hlookup, find_records, LevelTree.search_eq_recordOf_of bth.sorted hfinds]

end PstReader

/-! ### Two leaves, `0x00FF` and `0x0100`

As numbers the keys ascend; by their bytes `FF 00` stands above `00 01`. -/

namespace PstReader

open Foundations Rust List

section Sample

local instance width64 : PointerWidth := ⟨64, bits64_ge⟩

def twoKeyBytes : Bytes :=
  [30, 0, 0xEC, 0xB5, 0, 0, 0, 0, 0, 0, 0, 0] ++
    [0xFF, 0, 7] ++ [0, 1, 9] ++ [0xFF, 0, 32, 0, 0, 0, 0, 1, 64, 0, 0, 0] ++
    [3, 0, 0, 0, 12, 0, 15, 0, 18, 0, 30, 0]

def twoKeyHeap : Heap where
  data := ⟨twoKeyBytes, by decide⟩
  blockSize := 42
  header := ⟨30, 0xEC, 0xB5, ⟨0⟩, 0⟩
  blockSize_le := by decide
  ibHnpm_lt := by decide

def twoKeyHeader : BthHeader := ⟨0xB5, 2, 1, 1, ⟨96⟩⟩

def twoKeyTree : LevelTree Slice Slice 1 :=
  .index [(⟨[0xFF, 0], by decide⟩, .leaf [(⟨[0xFF, 0], by decide⟩, ⟨[7], by decide⟩)]),
    (⟨[0, 1], by decide⟩, .leaf [(⟨[0, 1], by decide⟩, ⟨[9], by decide⟩)])]

def twoKeyBth : SortedBth where
  heap := twoKeyHeap
  header := twoKeyHeader
  tree := twoKeyTree
  reads := by rfl
  sorted := by
    show twoKeyTree.Ordered keyRank
    simp [twoKeyTree, keyRank, ofLeBytes]

/-- The scan lists `0x0100`; looking it up finds nothing. -/
theorem lookup_misses_twoKeyBth : ¬ twoKeyBth.LookupAgrees := by
  rintro ⟨records, hscan, hagree⟩
  have hlisted : collectRecords twoKeyBth.heap twoKeyBth.header =
      pure [⟨⟨[0xFF, 0], by decide⟩, ⟨[7], by decide⟩⟩, ⟨⟨[0, 1], by decide⟩, ⟨[9], by decide⟩⟩] := rfl
  have hmissed : lookup twoKeyBth.heap twoKeyBth.header ⟨[0, 1], by decide⟩ = pure none := rfl
  rw [hlisted] at hscan
  obtain rfl := Except.ok.inj (Except.ok.inj hscan)
  have hfound := Except.ok.inj (Except.ok.inj (hmissed.symm.trans (hagree _)))
  exact absurd hfound (by decide)

end Sample

end PstReader
