import PstDedupe.PstReader.AttachStream
import PstDedupe.PstReader.TreeWalks
import PstDedupe.PstWriter.TableBuilder
import PstDedupe.PstWriter.StreamedChain
import PstDedupe.RoundTrip.NodeData

/-!
# A finished file, opened (`pst-reader/src/header.rs`, `pst-reader/src/lib.rs`)

The header of a finished file names the roots of both trees, so `PstFile::open` finds every node and
block the writer left there.
-/

namespace PstReader

open Rust Foundations List Option Prod

/-- What opening and its lookups fail with: `PstError` with the kinds of the header. -/
inductive OpenError where
  | pst (e : PstError)
  | invalidMagic (magic : Nat)
  | invalidClientMagic (magic : Nat)
  | ansiPstNotSupported (version : Nat)
  | unsupportedCryptMethod (byte : Nat)
  | noSubnodeBtree (nid : Nat)
  deriving DecidableEq, Repr

abbrev Opening := Except OpenError

def CryptMethod.fromByte (b : Nat) : Opening CryptMethod :=
  match b with
  | 0 => .ok .none
  | 1 => .ok .permute
  | 2 => .ok .cyclic
  | b => .error (.unsupportedCryptMethod b)

structure Bref where
  bid : Nat
  ib : Nat
  deriving DecidableEq, Repr

structure RootStructure where
  ibFileEof : Nat
  ibAmapLast : Nat
  cbAmapFree : Nat
  brefNbt : Bref
  brefBbt : Bref
  fAmapValid : Bool
  deriving DecidableEq, Repr

structure PstHeader where
  version : Nat
  verClient : Nat
  cryptMethod : CryptMethod
  root : RootStructure
  bidNextB : Nat
  deriving DecidableEq, Repr

/-- The next `n` bytes of the header as a number; the caller skips a field by not using it. -/
def readField (file : Bytes) (n pos : Nat) : Opening Nat :=
  match window file pos n with
  | none => .error (.pst .io)
  | some cells => .ok (ofLeBytes cells)

def Bref.read (file : Bytes) (pos : Nat) : Opening Bref := do
  let bid ← readField file 8 pos
  let ib ← readField file 8 (pos + 8)
  return ⟨bid, ib⟩

def PstHeader.readRoot (file : Bytes) (pos : Nat) : Opening RootStructure := do
  let _ ← readField file 4 pos
  let ibFileEof ← readField file 8 (pos + 4)
  let ibAmapLast ← readField file 8 (pos + 12)
  let cbAmapFree ← readField file 8 (pos + 20)
  let _ ← readField file 8 (pos + 28)
  let brefNbt ← Bref.read file (pos + 36)
  let brefBbt ← Bref.read file (pos + 52)
  let fAmapValid ← readField file 1 (pos + 68)
  let _ ← readField file 3 (pos + 69)
  return ⟨ibFileEof, ibAmapLast, cbAmapFree, brefNbt, brefBbt, fAmapValid ≠ 0⟩

def PstHeader.read (file : Bytes) : Opening PstHeader := do
  let magic ← readField file 4 0
  if magic ≠ 0x4E444221 then throw (.invalidMagic magic)
  let _ ← readField file 4 4
  let clientMagic ← readField file 2 8
  if clientMagic ≠ 0x4D53 then throw (.invalidClientMagic clientMagic)
  let version ← readField file 2 10
  if version < 23 then throw (.ansiPstNotSupported version)
  let verClient ← readField file 2 12
  -- 30 bytes up to `dwUnique`, `rgnid`, `qwUnused`
  let _ ← readField file 166 14
  let root ← PstHeader.readRoot file 180
  -- `dwAlign`, `rgbFM`, `rgbFP`, `bSentinel`
  let _ ← readField file 261 252
  let cryptMethod ← CryptMethod.fromByte (← readField file 1 513)
  let _ ← readField file 2 514
  let bidNextB ← readField file 8 516
  return ⟨version, verClient, cryptMethod, root, bidNextB⟩

/-- `path` and the named property cache of the source are left out. -/
structure PstFile where
  file : Bytes
  header : PstHeader
  nbt : NbtIndex
  bbt : BbtIndex

/-- `PstFile::open`. -/
def PstFile.ofFile (file : Bytes) : Opening PstFile := do
  let header ← PstHeader.read file
  let nbt ← (NbtIndex.build file header.root.brefNbt.ib).mapError .pst
  let bbt ← (BbtIndex.build file header.root.brefBbt.ib).mapError .pst
  return ⟨file, header, nbt, bbt⟩

def PstFile.readNodeData (pst : PstFile) (nid : Nat) : Opening Bytes :=
  match pst.nbt.get nid with
  | none => .error (.pst (.nodeNotFound nid))
  | some entry =>
    if entry.bidData = 0 then .ok []
    else (readBlockData pst.file pst.bbt entry.bidData pst.header.cryptMethod).mapError .pst

def PstFile.readSubnodeData (pst : PstFile) (nid subNid : Nat) : Opening Bytes :=
  match pst.nbt.get nid with
  | none => .error (.pst (.nodeNotFound nid))
  | some entry =>
    if entry.bidSub = 0 then .error (.noSubnodeBtree nid)
    else (PstReader.readSubnodeData pst.file pst.bbt entry.bidSub subNid pst.header.cryptMethod).mapError .pst

theorem readField_eq_readLe {file : Bytes} {n pos : Nat} (h : pos + n ≤ file.length) :
    readField file n pos = .ok (readLe n file pos) := by
  unfold readField window
  rw [if_pos h]
  rfl

/-! ## Reading a stream to its end -/

/-- The leaves of an open file, for `AttachmentDataReader`. -/
def PstFile.leafSource (pst : PstFile) : LeafSource where
  file := pst.file
  bbt := pst.bbt
  crypt := pst.header.cryptMethod
  bytes bid := (readLeafBlockData pst.file pst.bbt pst.header.cryptMethod bid).toOption.getD []
  reads bid data h := by rw [h]; rfl

theorem leafBids_fetch (leaf : Nat → Result Bytes) (room : Nat) (bids : List Nat)
    (b : BlocksReader) : (b.fetch leaf room bids).2.leafBids = b.leafBids := by
  induction bids generalizing b with
  | nil => rfl
  | cons bid bids ih =>
    unfold BlocksReader.fetch
    dsimp only
    split
    · rfl
    · split
      · exact ih _
      · rfl

theorem leafBids_read (leaf : Nat → Result Bytes) (room : Nat) (b : BlocksReader) :
    (b.read leaf room).2.leafBids = b.leafBids := by
  unfold BlocksReader.read
  split
  · exact leafBids_fetch leaf room _ b
  · rfl

theorem of_mem_trace {src : LeafSource} {requests : List ReadRequest} {b : BlocksReader} {c : ReadCall}
    (hc : c ∈ trace src b requests) : c.before.leafBids = b.leafBids ∧ c.request ∈ requests := by
  induction requests generalizing b with
  | nil => cases hc
  | cons request requests ih =>
    unfold trace at hc
    rcases List.mem_cons.mp hc with rfl | hc
    · exact ⟨rfl, mem_cons_self⟩
    · exact ⟨(ih hc).1.trans (leafBids_read _ _ b), mem_cons_of_mem _ (ih hc).2⟩

theorem length_trace (src : LeafSource) (b : BlocksReader) (requests : List ReadRequest) :
    (trace src b requests).length = requests.length := by
  induction requests generalizing b with
  | nil => rfl
  | cons request requests ih => exact congrArg Nat.succ (ih _)

/-- Reads without a fault into buffers of these sizes. -/
def plainReads (rooms : List Nat) : List ReadRequest := rooms.map fun room => ⟨room, fun _ => none⟩

/-- Where every leaf can be read, reads hand the leaves out in order, and enough of them hand out
all. -/
theorem delivered_plainReads {src : LeafSource} {leafBids : List Nat}
    (hreads : ∀ b ∈ leafBids, ∃ d, readLeafBlockData src.file src.bbt src.crypt b = .ok d)
    {rooms : List Nat} (hrooms : ∀ room ∈ rooms, 0 < room) :
    (∀ k, delivered ((trace src (.opened leafBids) (plainReads rooms)).take k) <+: src.whole leafBids) ∧
      ((src.whole leafBids).length < rooms.length →
        delivered (trace src (.opened leafBids) (plainReads rooms)) = src.whole leafBids) := by
  generalize hcalls : trace src (.opened leafBids) (plainReads rooms) = calls
  have hrequest : ∀ c ∈ calls, c.request ∈ plainReads rooms := fun c hc => (of_mem_trace (hcalls ▸ hc)).2
  have hgood : ∀ c ∈ calls, ¬c.Fails := by
    intro c hc hfails
    have hbids : c.before.leafBids = leafBids := (of_mem_trace (hcalls ▸ hc)).1
    obtain ⟨bid, hbid, e, he⟩ := trace_fails (hcalls ▸ hc) hfails
    obtain ⟨room, -, hroom⟩ := List.mem_map.mp (hrequest c hc)
    obtain ⟨d, hd⟩ := hreads bid (hbids ▸ hbid)
    rw [← hroom] at he
    exact absurd (hd.symm.trans he) nofun
  have hsound : SoundReads src leafBids calls :=
    hcalls ▸ soundReads_of_not_loses (plainReads rooms) (by
      rw [hcalls, isChain_iff_forall_rel_of_append_cons_cons]
      intro c _ _ _ hsplit hlost
      have hc : c ∈ calls := by simp [hsplit]
      exact hgood c hc (trace_loses (hcalls ▸ hc) hlost).1)
  refine ⟨hsound.inOrder, fun hlong => ?_⟩
  have hall : delivered calls <+: src.whole leafBids := by simpa using hsound.inOrder calls.length
  by_contra hmore
  have hpos : ∀ c ∈ calls, 1 ≤ (c.answer.toOption.getD []).length := by
    intro c hc
    obtain ⟨before, after, hsplit⟩ := append_of_mem hc
    cases hanswer : c.answer with
    | error e => exact absurd ⟨e, hanswer⟩ (hgood c hc)
    | ok data =>
      refine Nat.one_le_iff_ne_zero.mpr fun hzero => hmore ?_
      have hnil : data = [] := List.length_eq_zero_iff.mp hzero
      obtain ⟨room, hroom, hreq⟩ := List.mem_map.mp (hrequest c hc)
      have hend := (hsound.ends before c after hsplit (by rw [hanswer,
        hnil]) (by rw [← hreq]; exact hrooms room hroom))
      refine hall.eq_of_length_le ?_
      rw [← hend, hsplit]
      simp [delivered]
  have hsum : calls.length ≤ (delivered calls).length := by
    unfold delivered
    rw [length_flatMap]
    have hle := length_le_sum_of_one_le (calls.map fun c => (c.answer.toOption.getD []).length)
      (List.forall_mem_map.mpr hpos)
    rwa [length_map] at hle
  have hcount : calls.length = rooms.length := by
    rw [← hcalls, length_trace]
    exact length_map _
  have hle := hall.length_le
  omega

end PstReader

namespace PstWriter

open Rust Foundations PstReader List Option Prod

/-! ## The header -/

/-- What `write_header_v1` writes, as the reader has it. -/
def headerView (fileSize amapLast nextBid rootNbt nbtOffset rootBbt bbtOffset : Nat) : PstHeader :=
  ⟨unicodeVersion, 0x36, .none, ⟨fileSize, amapLast, 0, ⟨rootNbt, nbtOffset⟩, ⟨rootBbt, bbtOffset⟩,
    true⟩, nextBid⟩

/-- **The header** is read back as it was written. -/
theorem read_headerFields {file : Bytes} {fileSize amapLast nextBid rootNbt nbtOffset rootBbt bbtOffset : Nat}
    (h : Holds file 0 (headerFields fileSize amapLast nextBid rootNbt nbtOffset rootBbt bbtOffset))
    (hfits : ∀ x ∈ [fileSize, amapLast, nextBid, rootNbt, nbtOffset, rootBbt, bbtOffset], x < 2 ^ 64) :
    PstHeader.read file
      = .ok (headerView fileSize amapLast nextBid rootNbt nbtOffset rootBbt bbtOffset) := by
  have hroom : 524 ≤ file.length := by
    have hle := h.length_le (by
      intro hnil
      have hlen := length_headerFields fileSize amapLast nextBid rootNbt nbtOffset rootBbt bbtOffset
      rw [hnil] at hlen
      cases hlen)
    rwa [Nat.zero_add, length_headerFields] at hle
  simp only [forall_mem_cons] at hfits
  obtain ⟨hfileSize, hamapLast, hnextBid, hrootNbt, hnbtOffset, hrootBbt, hbbtOffset, -⟩ := hfits
  have hone : [(1 : UInt8), 0, 0, 0] = leBytes 1 1 ++ leBytes 3 0 := by decide
  have hcrypt : [(0x80 : UInt8), 0] = leBytes 1 0x80 ++ leBytes 1 0 := by decide
  unfold headerFields at h
  simp only [hone, hcrypt, Holds.append, length_append, length_leBytes, length_replicate,
    length_cons, length_nil, Nat.zero_add, Nat.reduceAdd] at h
  have hfield {n pos x : Nat} (hheld : Holds file pos (leBytes n x)) (hx : x < 256 ^ n)
      (hpos : pos + n ≤ 524) :
      readField file n pos = .ok x := by
    rw [readField_eq_readLe (by omega), readLe_of_holds_leBytes hheld hx]
  have hskip {n pos : Nat} (hpos : pos + n ≤ 524) : ∃ x, readField file n pos = .ok x :=
    ⟨_, readField_eq_readLe (by omega)⟩
  simp only [and_assoc] at h
  obtain ⟨hmagic, hcrc, hclient, hversion, hverClient, -, -, -, -, -, -, -, -, hreserved, heof,
      hlast, hfree, hpmap, hnbt,
    hnbtOff, hbbt, hbbtOff, hvalid, -, -, -, -, hmethod, -, hnext⟩ := h
  obtain ⟨_, hunused⟩ := @hskip 166 14 (by decide)
  obtain ⟨_, hwReserved⟩ := @hskip 3 249 (by decide)
  obtain ⟨_, hmaps⟩ := @hskip 261 252 (by decide)
  obtain ⟨_, hrgb⟩ := @hskip 2 514 (by decide)
  unfold PstHeader.read PstHeader.readRoot Bref.read
  simp only [hfield hmagic (by decide) (by decide), hfield hcrc (by decide) (by decide),
    hfield hclient (by decide) (by decide), hfield hversion (by decide) (by decide),
    hfield hverClient (by decide) (by decide), hunused, hfield hreserved (by decide) (by decide),
    hfield heof hfileSize (by decide), hfield hlast hamapLast (by decide),
    hfield hfree (by decide) (by decide), hfield hpmap (by decide) (by decide),
    hfield hnbt hrootNbt (by decide), hfield hnbtOff hnbtOffset (by decide),
    hfield hbbt hrootBbt (by decide), hfield hbbtOff hbbtOffset (by decide),
    hfield hvalid (by decide) (by decide), hwReserved, hmaps,
    hfield hmethod (by decide) (by decide), hrgb, hfield hnext hnextBid (by decide),
    CryptMethod.fromByte, Nat.reduceAdd, bind, Except.bind, pure, Except.pure]
  rfl

section

variable [Crc32fast] {l l₁ l₂ l' : Layout} {nbt bbt : TreePlan} {bid nid : Nat} {d : Bytes}

theorem finalWrites_header {writes : Writes} (h : finalWrites l nbt bbt = .ok writes) :
    ∃ header rest, writeHeaderV1 l nbt bbt = .ok header ∧ writes = (0, header) :: rest ∧
      (l.pages.filter fun p => p.ptype = ptypeAmap) ≠ [] := by
  unfold finalWrites at h
  obtain ⟨header, hheader, h⟩ := bind_eq_ok.mp h
  obtain ⟨amaps, hamaps, h⟩ := bind_eq_ok.mp h
  obtain ⟨nbtPages, -, h⟩ := bind_eq_ok.mp h
  obtain ⟨bbtPages, -, h⟩ := bind_eq_ok.mp h
  refine ⟨header, _, hheader, (Except.ok.inj h).symm, fun hnil => ?_⟩
  unfold writeAllAmapPagesV1 at hamaps
  rw [hnil] at hamaps
  cases hamaps

omit [Crc32fast] in
theorem writtenHeader {header : Bytes} (h : writeHeaderV1 l nbt bbt = .ok header) :
    ∃ nbtRoot bbtRoot last, nbt.root = some nbtRoot ∧ bbt.root = some bbtRoot ∧ l.ibAmapLast = some last ∧
      header = headerFields l.fileSize last l.nextBidCounter nbtRoot (l.pageOffset nbtRoot) bbtRoot
        (l.pageOffset bbtRoot)
        ++ replicate (headerSize - 524) 0 := by
  have hoffset {message : String} {bid off : Nat}
      (hbid : offsetOf (pageOffsetMap l) message bid = .ok off) : off = l.pageOffset bid := by
    unfold offsetOf at hbid
    unfold Layout.pageOffset
    split at hbid
    · cases hbid
    · rename_i hget
      rw [hget, ← Except.ok.inj hbid, getD_some]
  unfold writeHeaderV1 at h
  obtain ⟨nbtRoot, hnbt, h⟩ := bind_eq_ok.mp h
  obtain ⟨bbtRoot, hbbt, h⟩ := bind_eq_ok.mp h
  obtain ⟨nbtOffset, hnbtOff, h⟩ := bind_eq_ok.mp h
  obtain ⟨bbtOffset, hbbtOff, h⟩ := bind_eq_ok.mp h
  obtain ⟨last, hlast, h⟩ := bind_eq_ok.mp h
  have hsome {α : Type} {message : String} {o : Option α} {a : α}
      (ho : okOrLayout message o = .ok a) : o = some a := by
    cases o with
    | none => cases ho
    | some b => rw [Except.ok.inj ho]
  refine ⟨nbtRoot, bbtRoot, last, hsome hnbt, hsome hbbt, hsome hlast, ?_⟩
  rw [← hoffset hnbtOff, ← hoffset hbbtOff, ← Except.ok.inj h, length_headerFields]

/-- The numbers of the header are 64-bit numbers too. -/
structure Layout.FitsHeader (l : Layout) : Prop extends l.FitsU64 where
  fileSize : l.fileSize < 2 ^ 64
  nextBid : l.nextBidCounter < 2 ^ 64

instance : DecidablePred Layout.FitsHeader := fun l =>
  decidable_of_iff (l.FitsU64 ∧ l.fileSize < 2 ^ 64 ∧ l.nextBidCounter < 2 ^ 64)
    ⟨fun h => ⟨h.1, h.2.1, h.2.2⟩, fun h => ⟨h.toFitsU64, h.fileSize, h.nextBid⟩⟩

omit [Crc32fast] in
theorem Drawn.lt_two_pow {used : Finset Nat} {next n : Nat} (h : Drawn used next)
    (hnext : next ≤ 2 ^ n) (hn : 2 ≤ n) {b : Nat} (hb : b ∈ used) : b < 2 ^ n := by
  obtain ⟨c, -, hc, rfl | rfl⟩ := h b hb
  · have htwo : 2 < 2 ^ n := (show 2 < 2 ^ 2 by decide).trans_le (Nat.pow_le_pow_right (by decide) hn)
    exact Nat.or_lt_two_pow (hc.trans_le hnext) htwo
  · exact Nat.xor_lt_two_pow (hc.trans_le hnext) ((Nat.and_le_left).trans_lt (hc.trans_le hnext))

/-- The header stays as it was written: no later write touches it. -/
theorem Reachable.header_held (h : Reachable l) (hplan : l.planTrees = (nbt, bbt, l₂))
    (hplace : l₂.calculateOffsets = .ok l') (hfits : l'.FitsHeader) {writes : Writes}
    (hwrites : finalWrites l' nbt bbt = .ok writes) :
    ∃ nbtRoot bbtRoot last, nbt.root = some nbtRoot ∧ bbt.root = some bbtRoot ∧
      Holds (writeAll 0 l'.staged writes) 0
        (headerFields l'.fileSize last l'.nextBidCounter nbtRoot (l'.pageOffset nbtRoot)
        bbtRoot (l'.pageOffset bbtRoot)) ∧
      ∀ x ∈ [l'.fileSize, last, l'.nextBidCounter, nbtRoot, l'.pageOffset nbtRoot, bbtRoot,
        l'.pageOffset bbtRoot],
        x < 2 ^ 64 := by
  have hplanned := planned_of_planTrees hplan
  have hreach₂ := h.steps hplanned.steps
  obtain ⟨l'', amaps, others, fileEnd, hok, hcalc⟩ := hreach₂.inv.calculateOffsets
  obtain rfl : l' = l'' := Except.ok.inj (hplace.symm.trans hok)
  obtain ⟨hnodes, hbids, -⟩ := hplanned.kept h.inv hcalc
  have hplaced := hplanned.pagesPlaced h.inv hcalc
  obtain ⟨header, rest, hheader, rfl, hamaps⟩ := finalWrites_header hwrites
  obtain ⟨nbtRoot, bbtRoot, last, hnbtRoot, hbbtRoot, hlast, hfields⟩ := writtenHeader hheader
  have hlen : header.length = headerSize := by
    rw [hfields, length_append, length_headerFields, length_replicate]
    rfl
  have hcount : l'.blocks.length = l.blocks.length := by
    rw [← length_map BlockEntry.bid, hbids, length_map]
  have hnbt : nbt.Fits ptypeNbt nbtLeafEntrySize l'.nodes.length := hnodes ▸ hplanned.nbtFits
  have hbbt : bbt.Fits ptypeBbt bbtLeafEntrySize l'.blocks.length := hcount ▸ hplanned.bbtFits
  obtain ⟨header', hlen', hwrites'⟩ := finalWrites_eq_ok hnbt hbbt (hnodes ▸ h.nidsOnce.1) hplaced hamaps
  have hram : ∀ b ∈ l'.blocks, b.onDisk = false → b.data.length = b.len := by
    intro b hb hon
    obtain ⟨b₀, hb₀, hmoved⟩ := exists_left_of_forall₂ hcalc.blocks hb
    rw [hmoved.same]
    exact (hreach₂.inv.inMemory b₀ hb₀ (hmoved.onDisk.symm.trans hon)).2
  have hregions := region_finalWrites hnbt hbbt hram hlen'
  rw [← Except.ok.inj (hwrites.symm.trans hwrites')] at hregions
  have hapart :=
    (List.pairwise_append.mp (hplanned.finalRegions_apart hreach₂.inv hreach₂.not_orphan hcalc)).2.1
  rw [← hregions] at hapart
  have hheld : Holds (writeAll 0 l'.staged ((0, header) :: rest)) 0 header :=
    holds_writeAll hapart mem_cons_self
  rw [hfields] at hheld
  refine ⟨nbtRoot, bbtRoot, last, hnbtRoot, hbbtRoot, hfields ▸ (Holds.append.mp hheld).1, ?_⟩
  have hroot : nbtRoot ∈ nbt.levels.flatten ++ bbt.levels.flatten ∧ bbtRoot ∈ nbt.levels.flatten ++
      bbt.levels.flatten :=
    ⟨mem_append_left _ (TreePlan.mem_of_root hnbtRoot), mem_append_right _ (TreePlan.mem_of_root hbbtRoot)⟩
  have hbid : ∀ bid ∈ nbt.levels.flatten ++ bbt.levels.flatten, bid < 2 ^ 64 := by
    intro bid hmem
    refine hcalc.drawn.lt_two_pow (Nat.le_of_lt hfits.nextBid) (by decide) (hcalc.used bid ?_)
    refine mem_append_left _ (mem_append_right _ ?_)
    rw [hplanned.pages, map_append]
    refine mem_append_right _ ?_
    simpa using hmem
  have hlast' : last < 2 ^ 64 := by
    unfold Layout.ibAmapLast at hlast
    obtain ⟨p, hp, rfl⟩ := List.mem_map.mp (max?_mem hlast)
    have hin := (fileSize_le_iff.mp hfits.size).2.1 p (List.mem_filter.mp hp).1
    have hpos : 0 < pageSize := by decide
    omega
  simp only [forall_mem_cons]
  exact ⟨hfits.fileSize, hlast', hfits.nextBid, hbid _ hroot.1, hplaced.lt hfits.size hroot.1,
    hbid _ hroot.2, hplaced.lt hfits.size hroot.2, by simp⟩

/-! ## Opening -/

/-- What the reader has after opening the finished file of `l`. -/
structure Opened (l : Layout) (pst : PstFile) : Prop where
  version : pst.header.version = unicodeVersion
  crypt : pst.header.cryptMethod = .none
  fileSize : pst.header.root.ibFileEof = l.placed.fileSize
  nextBid : pst.header.bidNextB = l.placed.nextBidCounter
  nodes : ∀ nid e, HashMap.get pst.nbt nid = some e ↔ (nid, e) ∈ l.nodes.map nbtView
  blocks : ∀ bid e, HashMap.get pst.bbt bid = some e ↔ (bid, e) ∈ l.placed.blocks.map bbtView
  stored : Readable pst.file pst.bbt l.Stores

theorem Reachable.opened (h : Reachable l) (heager : l.eager.isSome) (hfits : l.placed.FitsHeader) :
    ∃ pst, l.finalize = .ok (l.placed, l.planTrees.1, l.planTrees.2.1, pst.file) ∧
      PstFile.ofFile pst.file = .ok pst ∧ Opened l pst := by
  have hplan : l.planTrees = (l.planTrees.1, l.planTrees.2.1, l.planTrees.2.2) := rfl
  have hplace := h.inv.placed_eq
  have hplanned := planned_of_planTrees hplan
  obtain ⟨placed, amaps, others, fileEnd, hok, hcalc⟩ := (h.steps hplanned.steps).inv.calculateOffsets
  obtain rfl : l.placed = placed := Except.ok.inj (hplace.symm.trans hok)
  obtain ⟨writes, hwrites, hfinished⟩ := finished_of_reachable h hplan hplace hfits.toFitsU64
  obtain ⟨nbtRoot, bbtRoot, last, hnbtRoot, hbbtRoot, hheld, hsmall⟩ :=
    h.header_held hplan hplace hfits hwrites
  have hheader := read_headerFields hheld hsmall
  obtain ⟨root, hroot, hnbt⟩ := hfinished.nbtTree
  obtain rfl : nbtRoot = root := Option.some.inj (hnbtRoot.symm.trans hroot)
  obtain ⟨root, hroot, hbbt⟩ := hfinished.bbtTree
  obtain rfl : bbtRoot = root := Option.some.inj (hbbtRoot.symm.trans hroot)
  obtain ⟨nbtIdx, hnbtBuild, hnodes⟩ := hnbt.index
  obtain ⟨root, bbtIdx, hroot, hbbtBuild, hread⟩ := hfinished.readable hfits.toFitsU64
  obtain rfl : bbtRoot = root := Option.some.inj (hbbtRoot.symm.trans hroot)
  obtain ⟨idx, hbuild, hblocks⟩ := hbbt.index
  obtain rfl : idx = bbtIdx := Except.ok.inj (hbuild.symm.trans hbbtBuild)
  refine ⟨⟨writeAll 0 l.placed.staged writes, headerView l.placed.fileSize last l.placed.nextBidCounter nbtRoot
    (l.placed.pageOffset nbtRoot) bbtRoot (l.placed.pageOffset bbtRoot), nbtIdx, idx⟩, ?_, ?_,
    ⟨rfl, rfl, rfl, rfl, hnodes, hblocks, hread⟩⟩
  · have hstaged : l.placed.eager.isSome := by
      rw [hcalc.eager, hplanned.eager, isSome_map]
      exact heager
    obtain ⟨e, he⟩ := Option.isSome_iff_exists.mp hstaged
    have hbytes : l.placed.staged = e.file.bytes := by
      unfold Layout.staged
      rw [he]
      rfl
    rw [hbytes]
    unfold Layout.finalize
    simp only [hplace, he, hwrites, bind, Except.bind]
    rfl
  · have hnbtOk : NbtIndex.build (writeAll 0 l.placed.staged writes) (l.placed.pageOffset nbtRoot)
      = .ok nbtIdx :=
      hnbtBuild
    unfold PstFile.ofFile
    rw [hheader]
    show (Except.mapError _ (NbtIndex.build _ (l.placed.pageOffset nbtRoot)) >>= _) = _
    rw [hnbtOk]
    show (Except.mapError _ (BbtIndex.build _ (l.placed.pageOffset bbtRoot)) >>= _) = _
    rw [hbbtBuild]
    rfl

/-- **A finished file opens.** Whatever was written before, `finalize` succeeds, and the reader
finds exactly the nodes of the run and its blocks, with every payload. -/
theorem finalize_opens (h : Reachable l) (heager : l.eager.isSome) (hfits : l.placed.FitsHeader) :
    ∃ pst, l.finalize = .ok (l.placed, l.planTrees.1, l.planTrees.2.1, pst.file) ∧
      PstFile.ofFile pst.file = .ok pst ∧ pst.header.version = unicodeVersion ∧
      pst.header.root.ibFileEof = l.placed.fileSize ∧ pst.header.bidNextB = l.placed.nextBidCounter ∧
      (∀ nid e, HashMap.get pst.nbt nid = some e ↔ (nid, e) ∈ l.nodes.map nbtView) ∧
      ∀ bid d, l.Stores bid d → readPayload pst.file pst.bbt bid = .ok d := by
  obtain ⟨pst, hfinal, hopen, hopened⟩ := h.opened heager hfits
  exact ⟨pst, hfinal, hopen, hopened.version, hopened.fileSize, hopened.nextBid, hopened.nodes,
    fun bid d hs => (hopened.stored bid d hs).1⟩

/-! ## Nodes -/

theorem mem_nodes_step {n : NodeEntry} (h : Step l l') (hn : n ∈ l.nodes) : n ∈ l'.nodes := by
  cases h with
  | leaf hlen halloc hpush =>
    obtain rfl := congrArg snd halloc
    rw [(pushLeafBlock_nodes hpush).1]
    exact hn
  | block internal hlen halloc =>
    obtain rfl := congrArg snd halloc
    exact hn
  | page ptype => exact hn
  | node node hnid => exact mem_append_left _ hn

theorem mem_nodes_steps {n : NodeEntry} (h : Steps l l') (hn : n ∈ l.nodes) : n ∈ l'.nodes := by
  induction h with
  | refl => exact hn
  | tail _ hstep ih => exact mem_nodes_step hstep ih

theorem addNodeData_eq_ok {nidParent subBid : Nat} (h : l.addNodeData nid d nidParent subBid = (.ok bid, l')) :
    ∃ l₁, l.writeDataChain d = (.ok bid, l₁) ∧ Step l₁ l' ∧ ⟨nid, bid, subBid, nidParent⟩ ∈ l'.nodes := by
  unfold Layout.addNodeData at h
  split at h
  · cases h
  · rename_i bidData l₁ hchain
    split at h
    · cases h
    · rename_i hnid
      cases h
      exact ⟨l₁, hchain, .node l₁ ⟨nid, bid, subBid, nidParent⟩ hnid,
        mem_append_right _ (mem_singleton_self _)⟩

theorem Opened.node {pst : PstFile} (h : Opened l pst) {n : NodeEntry} (hn : n ∈ l.nodes) :
    HashMap.get pst.nbt n.nid = some ⟨n.nid, n.bidData, n.bidSub, asU32 n.nidParent⟩ :=
  (h.nodes _ _).mpr (List.mem_map_of_mem (f := nbtView) hn)

/-- What a chain written earlier gives back once the file is open. -/
theorem Opened.chain {pst : PstFile} (h : Opened l₂ pst) (hl : Reachable l)
    (hwrite : l.writeDataChain d = (.ok bid, l₁)) (hmore : Steps l₁ l₂) :
    readBlockData pst.file pst.bbt bid .none
      = (if d.length ≤ maxXblockAssemble then .ok d
        else .error (.resourceLimit
          s!"xblock/xxblock lcbTotal {d.length} exceeds max {maxXblockAssemble}")) := by
  obtain ⟨leaves, htree, rfl, hsmall, hsize⟩ := hl.sound.writeDataChain hwrite
  have htree₂ := htree.mono ((hl.steps (steps_writeDataChain hwrite)).sound.keeps hmore)
  split
  · rename_i hcap
    exact readBlockData_of_dataTree h.stored htree₂ hsmall hcap
  · rename_i hcap
    have h32 : i32Max < 2 ^ 32 := by decide
    exact readBlockData_refused h.stored htree₂ hsmall (Nat.lt_of_not_le hcap) (by omega)

/-- **A node, stored and fetched by its NID** after any further run: its data up to the reader's
cap, and beyond it the reader's refusal. -/
theorem readNodeData_addNodeData {nidParent subBid : Nat} (h : Reachable l)
    (hadd : l.addNodeData nid d nidParent subBid = (.ok bid, l₁)) (hmore : Steps l₁ l₂)
    (heager : l₂.eager.isSome) (hfits : l₂.placed.FitsHeader) :
    ∃ pst, l₂.finalize = .ok (l₂.placed, l₂.planTrees.1, l₂.planTrees.2.1, pst.file) ∧
      PstFile.ofFile pst.file = .ok pst ∧
      pst.readNodeData nid = (if d.length ≤ maxXblockAssemble then .ok d
        else .error (.pst (.resourceLimit
          s!"xblock/xxblock lcbTotal {d.length} exceeds max {maxXblockAssemble}"))) := by
  obtain ⟨l₀, hchain, hstep, hmem⟩ := addNodeData_eq_ok hadd
  have hreach : Reachable l₁ := (h.steps (steps_writeDataChain hchain)).steps (.single hstep)
  obtain ⟨pst, hfinal, hopen, hopened⟩ := (hreach.steps hmore).opened heager hfits
  refine ⟨pst, hfinal, hopen, ?_⟩
  have hentry := hopened.node (mem_nodes_steps hmore hmem)
  have hread := hopened.chain h hchain (.head hstep hmore)
  unfold PstFile.readNodeData
  dsimp only at hentry
  rw [hentry]
  dsimp only
  by_cases hbid : bid = 0
  · -- only the empty value has no block
    rw [hbid] at hread
    have hnil : d = [] := by
      have hnull : readBlockData pst.file pst.bbt 0 .none = .ok [] := rfl
      rw [hnull] at hread
      split at hread
      · exact (Except.ok.inj hread).symm
      · cases hread
    rw [if_pos hbid, hnil]
    rfl
  · rw [if_neg hbid, hopened.crypt, hread]
    split <;> rfl

/-! ## Subnodes -/

omit [Crc32fast] in
theorem nodup_of_firstRepeat {sorted : List SlEntry} (hsorted : sorted.Pairwise fun a b => a.nid ≤ b.nid)
    (h : firstRepeat sorted = none) : (sorted.map SlEntry.nid).Nodup := by
  induction sorted with
  | nil => exact .nil
  | cons a rest ih =>
    cases rest with
    | nil => exact nodup_singleton _
    | cons b rest =>
      unfold firstRepeat at h
      split_ifs at h with hab
      obtain ⟨hfirst, hrest⟩ := List.pairwise_cons.mp hsorted
      rw [map_cons, nodup_cons]
      refine ⟨fun hmem => ?_, ih hrest h⟩
      obtain ⟨c, hc, heq⟩ := List.mem_map.mp hmem
      have hle := hfirst b mem_cons_self
      rcases List.mem_cons.mp hc with rfl | hc
      · exact hab heq.symm
      · have hbc := (List.pairwise_cons.mp hrest).1 c hc
        omega

omit [Crc32fast] in
theorem holds_flatMap {α : Type} {f : α → Bytes} {img : Bytes} {w : Nat}
    (hw : ∀ x, (f x).length = w) {xs : List α} {off : Nat} (h : Holds img off (xs.flatMap f))
    {i : Nat} (hi : i < xs.length) : Holds img (off + i * w) (f xs[i]) := by
  induction xs generalizing off i with
  | nil => exact absurd hi (Nat.not_lt_zero _)
  | cons x rest ih =>
    rw [flatMap_cons, Holds.append, hw x] at h
    cases i with
    | zero => simpa using h.1
    | succ i =>
      have hnext := ih h.2 (Nat.lt_of_succ_lt_succ hi)
      rwa [Nat.add_assoc, Nat.add_comm w, ← Nat.succ_mul] at hnext

omit [Crc32fast] in
/-- **A subnode block** is listed as it was written. -/
theorem slEntries_slBlock {sorted : List SlEntry} (hlen : (slBlock sorted).length ≤ maxBlockData)
    (hwidth : ∀ e ∈ sorted, e.nid < 2 ^ 64 ∧ e.bidData < 2 ^ 64 ∧ e.bidSub < 2 ^ 64) :
    8 ≤ (slBlock sorted).length ∧ btypeOf (slBlock sorted) = 2 ∧ clevelOf (slBlock sorted) = 0 ∧
      slEntries (slBlock sorted) = sorted.map fun e => ⟨e.nid, e.bidData, e.bidSub⟩ := by
  have hentry (e : SlEntry) : (leBytes 8 e.nid ++ leBytes 8 e.bidData ++ leBytes 8 e.bidSub).length = 24 := by
    simp only [length_append, length_leBytes]
  have hsize : (slBlock sorted).length = 8 + sorted.length * 24 := by
    unfold slBlock
    simp only [length_append, length_leBytes, length_flatMap, map_const', sum_replicate, smul_eq_mul]
  have hmax : maxBlockData = 8176 := rfl
  obtain ⟨block, hblock⟩ : ∃ block, block = slBlock sorted := ⟨_, rfl⟩
  have h : Holds block 0 (slBlock sorted) := hblock ▸ holds_self block
  rw [← hblock] at hsize hlen ⊢
  simp only [slBlock, Holds.append, length_append, length_leBytes, Nat.zero_add, Nat.reduceAdd] at h
  obtain ⟨⟨⟨⟨hbtype, hclevel⟩, hcount⟩, -⟩, hentries⟩ := h
  have hc : cEntriesOf block = sorted.length := readLe_of_holds_leBytes hcount (by omega)
  refine ⟨by omega, readLe_of_holds_leBytes hbtype (by decide),
    readLe_of_holds_leBytes hclevel (by decide), ?_⟩
  unfold slEntries entryOffsets
  rw [hc, List.takeWhile_eq_self_iff.mpr]
  · refine ext_getElem (by simp) fun i hi hi' => ?_
    have hi'' : i < sorted.length := by simpa using hi'
    have hheld := holds_flatMap hentry hentries hi''
    simp only [Holds.append, length_append, length_leBytes, Nat.reduceAdd] at hheld
    obtain ⟨hnid, hdata, hsub⟩ := hwidth _ (getElem_mem hi'')
    simp only [getElem_map, getElem_range, readLe_of_holds_leBytes hheld.1.1 hnid,
      readLe_of_holds_leBytes hheld.1.2 hdata, readLe_of_holds_leBytes hheld.2 hsub]
  · intro off hoff
    obtain ⟨i, hi, rfl⟩ := List.mem_map.mp hoff
    have hlt := List.mem_range.mp hi
    rw [decide_eq_true_iff]
    omega

omit [Crc32fast] in
theorem addSubnodeLeaf_eq_ok {entries : List SlEntry} (h : l.addSubnodeLeaf entries = (.ok bid, l')) :
    ∃ sorted, sorted = sortBy (fun a b : SlEntry => compare a.nid b.nid) entries ∧ firstRepeat sorted = none ∧
      (slBlock sorted).length ≤ maxBlockData ∧ l.pushInternal (slBlock sorted) = (bid, l') := by
  unfold Layout.addSubnodeLeaf at h
  dsimp only at h
  split at h
  · cases h
  · rename_i hrepeat
    split at h
    · cases h
    · rename_i hlen
      cases h
      exact ⟨_, rfl, hrepeat, Nat.le_of_not_lt hlen, rfl⟩

theorem step_addSubnodeLeaf {entries : List SlEntry}
    (h : l.addSubnodeLeaf entries = (.ok bid, l')) : Step l l' := by
  obtain ⟨sorted, -, -, hlen, hpush⟩ := addSubnodeLeaf_eq_ok h
  have hstep := step_pushInternal (l := l) hlen
  rwa [hpush] at hstep

/-- **Subnodes, stored and fetched.** A node over a subnode leaf gives every value that was written
for an entry back under the NID of the entry, and has no other. -/
theorem readSubnodeData_addSubnodeLeaf {entries : List SlEntry} {subBid : Nat} {n : NodeEntry}
    (h : Reachable l) (hadd : l.addSubnodeLeaf entries = (.ok subBid, l₁))
    (hwidth : ∀ e ∈ entries, e.nid < 2 ^ 64 ∧ e.bidData < 2 ^ 64 ∧ e.bidSub < 2 ^ 64)
    (hmore : Steps l₁ l₂) (hn : n ∈ l₂.nodes) (hsub : n.bidSub = subBid) (heager : l₂.eager.isSome)
    (hfits : l₂.placed.FitsHeader) :
    ∃ pst, l₂.finalize = .ok (l₂.placed, l₂.planTrees.1, l₂.planTrees.2.1, pst.file) ∧
      PstFile.ofFile pst.file = .ok pst ∧
      (∀ e ∈ entries, ∀ before after d, Reachable before →
        before.writeDataChain d = (.ok e.bidData, after) → Steps after l₂ →
        d.length ≤ maxXblockAssemble → pst.readSubnodeData n.nid e.nid = .ok d) ∧
      ∀ subNid, (∀ e ∈ entries, e.nid ≠ subNid) →
        pst.readSubnodeData n.nid subNid = .error (.pst (.subnodeNotFound subNid)) := by
  obtain ⟨sorted, hsorted, hrepeat, hlen, hpush⟩ := addSubnodeLeaf_eq_ok hadd
  have hperm : sorted.Perm entries := hsorted ▸ sortBy_perm _ _
  have hpair : sorted.Pairwise fun a b => a.nid ≤ b.nid := by
    have hnids := pairwise_sortBy compare (entries.map SlEntry.nid)
    rw [← map_sortBy compare SlEntry.nid entries, ← hsorted, pairwise_map] at hnids
    exact hnids.imp fun hab => Nat.isLE_compare.mp hab
  obtain ⟨hint, -, -, hstored⟩ := h.sound.pushInternal (slBlock sorted)
  rw [hpush] at hint hstored
  have hstep : Step l l₁ := step_addSubnodeLeaf hadd
  have hreach := h.steps (.single hstep)
  obtain ⟨pst, hfinal, hopen, hopened⟩ := (hreach.steps hmore).opened heager hfits
  refine ⟨pst, hfinal, hopen, ?_⟩
  have hpayload := (hopened.stored _ _ (hreach.sound.keeps hmore _ _ hstored)).1
  obtain ⟨h8, hbtype, hclevel, hlisted⟩ := slEntries_slBlock hlen fun e he => hwidth e (hperm.mem_iff.mp he)
  have hne : subBid ≠ 0 := by
    rintro rfl
    exact absurd hint (show ¬(0 : Nat).testBit 1 = true by decide)
  have hview : (lookupGraph pst.file pst.bbt).view subBid
      = .ok (.leaf (sorted.map fun e => ⟨e.nid, e.bidData, e.bidSub⟩)) := by
    unfold lookupGraph
    simp only [hpayload, bind, Except.bind, if_neg (Nat.not_lt.mpr h8), hbtype, hclevel, hlisted]
    rfl
  have hlookup (subNid : Nat) : pst.readSubnodeData n.nid subNid
      = (((sorted.find? fun e => e.nid = subNid).map fun e =>
          readBlockData pst.file pst.bbt e.bidData .none).getD (.error (.subnodeNotFound subNid))).mapError .pst := by
    have hseek : readSubnodeData pst.file pst.bbt subBid subNid .none
        = ((sorted.find? fun e => e.nid = subNid).map fun e =>
            readBlockData pst.file pst.bbt e.bidData .none).getD (.error (.subnodeNotFound subNid)) := by
      unfold readSubnodeData readSubnodeDataAt
      rw [GuardedWalk.seek, if_neg (by simpa [lookupGraph, PstReader.isNull] using hne)]
      simp only [map_nil, not_mem_nil, if_false, hview, findSome?_answerFor, find?_map, Option.map_map]
      rfl
    unfold PstFile.readSubnodeData
    rw [hopened.node hn]
    dsimp only
    rw [hsub, if_neg hne, hopened.crypt, hseek]
  refine ⟨fun e he before after d hbefore hwrite hafter hcap => ?_, fun subNid hnone => ?_⟩
  · have hmem := hperm.mem_iff.mpr he
    have hfind : (sorted.find? fun x => x.nid = e.nid) = some e := by
      cases hx : sorted.find? fun x => x.nid = e.nid with
      | none => simpa using List.find?_eq_none.mp hx e hmem
      | some x =>
        have hnid : x.nid = e.nid := by simpa using find?_some hx
        rw [inj_on_of_nodup_map (nodup_of_firstRepeat hpair hrepeat) (mem_of_find?_eq_some hx) hmem hnid]
    rw [hlookup, hfind, map_some, getD_some, hopened.chain hbefore hwrite hafter, if_pos hcap]
    rfl
  · have hfind : (sorted.find? fun x => x.nid = subNid) = none :=
      List.find?_eq_none.mpr fun e he => by simpa using hnone e (hperm.mem_iff.mp he)
    rw [hlookup, hfind]
    rfl

/-! ## Streams -/

theorem Layout.Sound.writeDataChainFromReader {reader : Reader} {n : Nat} (h : l.Sound)
    (hd : reader.Delivers d) (hwrite : l.writeDataChainFromReader reader = (.ok (bid, n), l')) :
    Steps l l' ∧ n = d.length ∧
      ∃ leaves, DataTree l'.Stores bid leaves ∧ leaves.flatten = d ∧ ∀ p ∈ leaves,
        p.length ≤ maxBlockData := by
  have hpos : 0 < maxBlockData := by decide
  have hok : (l.writeDataChainFromReaderInner reader).1 = .ok (bid, n) :=
    fst_writeDataChainFromReader_eq_ok.mp (by rw [hwrite])
  have hlast := snd_writeDataChainFromReader hok
  rw [hwrite] at hlast
  have hinner : l.writeDataChainFromReaderInner reader = (.ok (bid, n), l') := Prod.ext hok hlast.symm
  have hle : d.length ≤ i32Max := by
    by_contra hbig
    obtain ⟨e, he⟩ := Option.ne_none_iff_exists'.mp
      ((@streamPayloads_delivers (d.length + 1) 0 d reader hd (Nat.lt_succ_self _)
        (Nat.zero_le _)).2 (by omega))
    unfold Layout.writeDataChainFromReaderInner at hok
    rw [size_delivers hd, streamLoop_eq, he] at hok
    rcases hp : l.pushLeaves (streamPayloads (d.length + 1) 0 reader).1 with
      ⟨_ | _, _⟩ <;> rw [hp] at hok <;> cases hok
  rw [writeDataChainFromReaderInner_delivers hd hle] at hinner
  have hlens : ∀ p ∈ chunks maxBlockData d, p.length ≤ maxBlockData :=
    fun p hp => length_le_of_mem_chunks hpos hp
  have hflat := flatten_chunks hpos d
  generalize chunks maxBlockData d = parts at hinner hlens hflat
  have hleaves {cs : List (Nat × Nat)} {l₁ : Layout} (hpush : l.pushLeaves parts = (.ok cs, l₁)) :
      Steps l l₁ ∧ LeafBids l₁.Stores (cs.map fst) parts :=
        ⟨steps_pushLeaves hlens hpush, h.pushLeaves hlens hpush⟩
  split at hinner
  · cases hinner
  · rename_i hpush
    cases hinner
    obtain ⟨hsteps, hbids⟩ := hleaves hpush
    cases hbids
    exact ⟨hsteps, congrArg length hflat, [], .empty, hflat, hlens⟩
  · rename_i hpush
    cases hinner
    obtain ⟨hsteps, hbids⟩ := hleaves hpush
    obtain - | ⟨hleaf, ⟨⟩⟩ := hbids
    exact ⟨hsteps, rfl, _, .leaf hleaf.1 hleaf.2, hflat, hlens⟩
  · rename_i cs l₁ _ _ hpush
    split at hinner
    · cases hinner
    · rename_i hbuild
      cases hinner
      obtain ⟨hsteps, hbids⟩ := hleaves hpush
      have htree : Steps l₁ _ := steps_buildChunkTree cs d.length streamOverflowMessage
      rw [hbuild] at htree
      exact ⟨hsteps.trans htree, rfl, parts,
        (h.steps hsteps).buildChunkTree hbids (length_pushLeaves hpush) (by rw [hflat]) hbuild,
        hflat, hlens⟩

/-- **A stream, in and out.** What a reader delivered is handed out again by the reader of an
attachment, in order whatever the buffers, and whole after more reads than it has bytes. -/
theorem writeDataChainFromReader_streams_back {reader : Reader} {n : Nat} (h : Reachable l)
    (hd : reader.Delivers d) (hwrite : l.writeDataChainFromReader reader = (.ok (bid, n), l₁))
    (hmore : Steps l₁ l₂) (heager : l₂.eager.isSome) (hfits : l₂.placed.FitsHeader) :
    ∃ pst leafBids, l₂.finalize = .ok (l₂.placed, l₂.planTrees.1, l₂.planTrees.2.1, pst.file) ∧
      PstFile.ofFile pst.file = .ok pst ∧ n = d.length ∧
      collectLeafDataBids pst.file pst.bbt bid = .ok leafBids ∧
      ∀ rooms : List Nat, (∀ room ∈ rooms, 0 < room) →
        (∀ k, delivered ((trace pst.leafSource (.opened leafBids) (plainReads rooms)).take k) <+: d) ∧
        (d.length < rooms.length →
          delivered (trace pst.leafSource (.opened leafBids) (plainReads rooms)) = d) := by
  obtain ⟨hsteps, hn, leaves, htree, rfl, hsmall⟩ := h.sound.writeDataChainFromReader hd hwrite
  have hreach := h.steps hsteps
  obtain ⟨pst, hfinal, hopen, hopened⟩ := (hreach.steps hmore).opened heager hfits
  have hread := readLeaves_of_dataTree hopened.stored (htree.mono (hreach.sound.keeps hmore)) hsmall
  obtain ⟨leafBids, parts, hcollect, hparts, hflat⟩ := readLeaves_eq_ok.mp hread
  refine ⟨pst, leafBids, hfinal, hopen, hn, hcollect, fun rooms hrooms => ?_⟩
  have hreads : ∀ b ∈ leafBids, ∃ d,
      readLeafBlockData pst.leafSource.file pst.leafSource.bbt pst.leafSource.crypt b
      = .ok d := by
    intro b hb
    obtain ⟨part, -, hpart⟩ := exists_right_of_forall₂ hparts hb
    exact ⟨part, by rw [← hpart, ← hopened.crypt]; rfl⟩
  have hwhole : pst.leafSource.whole leafBids = leaves.flatten := by
    rw [hflat]
    unfold LeafSource.whole
    rw [flatMap_def]
    congr 1
    refine forall₂_eq_eq_eq ▸ (List.forall₂_map_left_iff.mpr (hparts.imp fun b part hpart => ?_))
    show (readLeafBlockData _ _ pst.header.cryptMethod b).toOption.getD [] = part
    rw [hopened.crypt, hpart]
    rfl
  rw [← hwhole]
  exact delivered_plainReads hreads hrooms

end

theorem finalize_opens_sampleTrees :
    ∃ pst, @Layout.finalize Crc32fast.ieee sampleTrees
        = .ok (sampleTrees.placed, sampleTrees.planTrees.1, sampleTrees.planTrees.2.1, pst.file) ∧
      PstFile.ofFile pst.file = .ok pst ∧ pst.header.version = unicodeVersion ∧
      pst.header.root.ibFileEof = sampleTrees.placed.fileSize ∧
      pst.header.bidNextB = sampleTrees.placed.nextBidCounter ∧
      (∀ nid e, HashMap.get pst.nbt nid = some e ↔ (nid, e) ∈ sampleTrees.nodes.map nbtView) ∧
      ∀ bid d, @Layout.Stores Crc32fast.ieee sampleTrees bid d → readPayload pst.file pst.bbt bid = .ok d :=
  let _ := Crc32fast.ieee
  finalize_opens reachable_sampleTrees rfl (by decide +kernel)

/-- One node after the sample run. -/
def sampleNode : Layout := (@Layout.addNodeData Crc32fast.ieee sampleLayout 0x122 [5, 6, 7] 0 0).2

theorem sampleNode_eq :
    @Layout.addNodeData Crc32fast.ieee sampleLayout 0x122 [5, 6, 7] 0 0 = (.ok 17, sampleNode) :=
  Prod.ext (by decide +kernel) rfl

theorem readNodeData_addNodeData_sampleNode :
    ∃ pst, @Layout.finalize Crc32fast.ieee sampleNode
        = .ok (sampleNode.placed, sampleNode.planTrees.1, sampleNode.planTrees.2.1, pst.file) ∧
      PstFile.ofFile pst.file = .ok pst ∧
      pst.readNodeData 0x122 = (if [5, 6, 7].length ≤ maxXblockAssemble then .ok [5, 6, 7]
        else .error (.pst (.resourceLimit
          s!"xblock/xxblock lcbTotal {[5, 6, 7].length} exceeds max {maxXblockAssemble}"))) :=
  let _ := Crc32fast.ieee
  readNodeData_addNodeData reachable_sampleLayout
    sampleNode_eq .refl rfl
    (by decide +kernel)

/-- One subnode value under one node. -/
def sampleSubnodes : List SlEntry := [⟨0x671, 17, 0⟩]

def sampleLeaf : Layout := (sampleChain.addSubnodeLeaf sampleSubnodes).2

theorem sampleLeaf_eq : sampleChain.addSubnodeLeaf sampleSubnodes = (.ok 22, sampleLeaf) :=
  Prod.ext (by decide +kernel) rfl

theorem readSubnodeData_addSubnodeLeaf_sampleLeaf :
    ∃ pst, PstFile.ofFile pst.file = .ok pst ∧ pst.readSubnodeData 0x122 0x671 = .ok [5, 6, 7] ∧
      pst.readSubnodeData 0x122 0x692 = .error (.pst (.subnodeNotFound 0x692)) := by
  let _ := Crc32fast.ieee
  have hmore : Steps sampleLeaf (sampleLeaf.withNode ⟨0x122, 0, 22, 0⟩) :=
    .single (.node _ _ (by decide +kernel))
  obtain ⟨pst, -, hopen, hread, hnone⟩ :=
    readSubnodeData_addSubnodeLeaf reachable_sampleChain sampleLeaf_eq (by decide) hmore
    (show ⟨0x122, 0, 22, 0⟩ ∈ _ from mem_append_right _ (mem_singleton_self _)) rfl rfl (by decide +kernel)
  refine ⟨pst, hopen, ?_, hnone 0x692 (by decide)⟩
  exact hread ⟨0x671, 17, 0⟩ (by decide) _ _ _ reachable_sampleLayout sampleChain_eq
    (.head (step_addSubnodeLeaf sampleLeaf_eq) hmore) (by decide)

/-- Three bytes in two reads, with an interrupt between them. -/
def sampleReader : Reader := [.data [5], .interrupted, .data [6, 7]]

theorem delivers_sampleReader : sampleReader.Delivers [5, 6, 7] :=
  ⟨by decide, [6, 7], rfl, by decide, [], rfl, rfl⟩

def sampleStream : Layout := (@Layout.writeDataChainFromReader Crc32fast.ieee sampleLayout sampleReader).2

theorem writeDataChainFromReader_streams_back_sampleStream :
    ∃ pst leafBids, PstFile.ofFile pst.file = .ok pst ∧
      collectLeafDataBids pst.file pst.bbt 17 = .ok leafBids ∧
      delivered (trace pst.leafSource (.opened leafBids) (plainReads [2, 2, 2, 2])) = [5, 6, 7] := by
  let _ := Crc32fast.ieee
  obtain ⟨pst, leafBids, -, hopen, -, hcollect, hread⟩ :=
    writeDataChainFromReader_streams_back reachable_sampleLayout
    delivers_sampleReader
      (show sampleLayout.writeDataChainFromReader sampleReader = (.ok (17, 3), sampleStream) from
      Prod.ext (by decide +kernel) rfl) .refl rfl (by decide +kernel)
  exact ⟨pst, leafBids, hopen, hcollect, (hread [2, 2, 2, 2] (by decide)).2 (by decide)⟩

end PstWriter
