import PstDedupe.Foundations.GuardedWalk
import PstDedupe.PstReader.BodyBudget
import PstDedupe.PstReader.Btree

/-!
# The walks over trees of a hostile file (`ndb/btree.rs`, `ndb/block.rs`)

The two index builds, the listing of a subnode tree and the lookup in it guard their recursion
alike: a depth limit, and the set of pages or blocks visited.
-/

namespace PstReader

open Rust Foundations Foundations.GuardedWalk List Prod

def visitedOf (log : Log Nat) : Finset Nat := (log.map snd).toFinset

theorem mem_visitedOf {log : Log Nat} {k : Nat} : k ∈ visitedOf log ↔ k ∈ log.map snd := mem_toFinset

theorem visitedOf_enter (log : Log Nat) (depth k : Nat) :
    visitedOf (log ++ [(depth, k)]) = insert k (visitedOf log) := by
  ext x
  simp [visitedOf]

section

variable {V : Type} (fetch : Nat → Result (PageView V))

def pageGraph : Graph PstError Nat (Nat × V) where
  skip _ := false
  view pageOffset := (fetch pageOffset).map fun
    | .leaf found => .leaf found
    | .node children => .node (children.map snd)
  tooDeep pageOffset := .resourceLimit
    ("B-tree depth " ++ toString (maxBtreeDepth + 1) ++ " exceeds max " ++ toString maxBtreeDepth
      ++ " at offset 0x" ++ hexUpper pageOffset)
  again := .btreeCycle

/-- The outcome of a walk with its log as a set and its entries in the map. -/
def indexed (m : HashMap Nat V) (r : Result (List (Nat × V)) × Log Nat) :
    Result (Finset Nat × HashMap Nat V) :=
  r.1.map fun found => (visitedOf r.2, m.insertAll found)

variable {fetch}

theorem foldlM_eq_walkAll
    {visit : Nat → Finset Nat × HashMap Nat V → Result (Finset Nat × HashMap Nat V)}
    {step : Nat → Log Nat → Result (List (Nat × V)) × Log Nat}
    (h : ∀ k log m, visit k (visitedOf log, m) = indexed m (step k log))
    (children : List (Nat × Nat)) (log : Log Nat) (m : HashMap Nat V) :
    children.foldlM (fun st child => visit child.2 st) (visitedOf log, m) =
      indexed m (walkAll step (children.map snd) log) := by
  induction children generalizing log m with
  | nil => rfl
  | cons child rest ih =>
    rw [foldlM_cons, h, map_cons, walkAll]
    rcases step child.2 log with ⟨e | found, log₁⟩
    · rfl
    · show foldlM _ (visitedOf log₁, m.insertAll found) rest = _
      rw [ih]
      dsimp only
      rcases walkAll step (rest.map snd) log₁ with ⟨e | more, log₂⟩
      · rfl
      · exact congrArg (fun m => Except.ok (visitedOf log₂, m)) (insertAll_append found more m).symm

theorem traverse_eq_walk (left depth pageOffset : Nat) (log : Log Nat) (m : HashMap Nat V) :
    traverse fetch left pageOffset (visitedOf log, m)
      = indexed m (walk (pageGraph fetch) left depth pageOffset log) := by
  induction left generalizing depth pageOffset log m with
  | zero => rfl
  | succ left ih =>
    rw [traverse, walk, if_neg (show ¬ (pageGraph fetch).skip pageOffset = true from Bool.false_ne_true)]
    dsimp only
    by_cases hmem : pageOffset ∈ log.map snd
    · rw [if_pos (mem_visitedOf.mpr hmem), if_pos hmem]
      rfl
    rw [if_neg (mt mem_visitedOf.mp hmem), if_neg hmem, ← visitedOf_enter log depth]
    rcases hfetch : fetch pageOffset with e | found | children
    · rw [show (pageGraph fetch).view pageOffset = .error e from congrArg (Except.map _) hfetch]
      rfl
    · rw [show (pageGraph fetch).view pageOffset = .ok (.leaf found) from congrArg (Except.map _) hfetch]
      rfl
    · rw [show (pageGraph fetch).view pageOffset = .ok (.node (children.map snd)) from
        congrArg (Except.map _) hfetch]
      exact foldlM_eq_walkAll (fun k log m => ih (depth + 1) k log m) children _ m

variable (fetch)

def indexWalk (rootOffset : Nat) : Result (List (Nat × V)) × Log Nat :=
  if rootOffset = 0 then (.ok [], []) else walk (pageGraph fetch) (maxBtreeDepth + 1) 0 rootOffset []

theorem buildIndex_eq_walk (rootOffset : Nat) :
    buildIndex fetch rootOffset
      = (indexWalk fetch rootOffset).1.map fun found => HashMap.insertAll found ∅ := by
  unfold buildIndex indexWalk
  split
  · rfl
  · rw [show (∅ : Finset Nat) = visitedOf [] from rfl, traverse_eq_walk _ 0]
    unfold indexed
    rcases (walk (pageGraph fetch) (maxBtreeDepth + 1) 0 rootOffset []).1 with e | found <;> rfl

theorem bounded_nil {limit : Nat} : Bounded limit ([] : Log Nat) := ⟨nodup_nil, fun _ h => by cases h⟩

theorem bounded_indexWalk (rootOffset : Nat) : Bounded (maxBtreeDepth + 1) (indexWalk fetch rootOffset).2 := by
  unfold indexWalk
  split
  · exact bounded_nil
  · exact bounded_walk (Nat.le_of_eq (Nat.zero_add _)) _ bounded_nil

end

section

variable (file : Bytes) (bbt : BbtIndex)

def subnodeTooDeep : PstError :=
  .resourceLimit s!"subnode depth {maxSubnodeDepth + 1} exceeds max {maxSubnodeDepth}"

/-- The blocks as the listing takes them: one that is no subnode block lists nothing. -/
def listGraph : Graph PstError Nat SubnodeEntry where
  skip := isNull
  view subBid := do
    let payload ← readPayload file bbt subBid
    if payload.length < 8 then return .leaf []
    else
      match btypeOf payload, clevelOf payload with
      | 2, 0 => return .leaf (slEntries payload)
      | 2, 1 => return .node (siBids payload)
      | _, _ => return .leaf []
  tooDeep _ := subnodeTooDeep
  again := .btreeCycle

def lookupGraph : Graph PstError Nat SubnodeEntry where
  skip := isNull
  view subBid := do
    let payload ← readPayload file bbt subBid
    if payload.length < 8 then throw (.dataTruncated 8 payload.length)
    else
      match btypeOf payload, clevelOf payload with
      | 2, 0 => return .leaf (slEntries payload)
      | 2, 1 => return .node (siBids payload)
      | btype, _ => throw (.invalidBlockType 2 btype)
  tooDeep _ := subnodeTooDeep
  again := .btreeCycle

def isSubnodeNotFound : PstError → Bool
  | .subnodeNotFound _ => true
  | _ => false

def answerFor (targetNid : Nat) (crypt : CryptMethod) (entry : SubnodeEntry) : Option (Result Bytes) :=
  if entry.nid = targetNid then some (readBlockData file bbt entry.bidData crypt) else none

/-- `read_subnode_data_at`: an SLBLOCK answers with its first entry for the NID, an SIBLOCK with its
first child that finds one. -/
def readSubnodeDataAt (targetNid : Nat) (crypt : CryptMethod) :
    Nat → Nat → Nat → Log Nat → Result Bytes × Log Nat :=
  seek (lookupGraph file bbt) (.subnodeNotFound targetNid) isSubnodeNotFound
    (answerFor file bbt targetNid crypt)

def readSubnodeData (subBid targetNid : Nat) (crypt : CryptMethod) : Result Bytes :=
  (readSubnodeDataAt file bbt targetNid crypt (maxSubnodeDepth + 1) 0 subBid []).1

def listWalk (subBid : Nat) : Result (List SubnodeEntry) × Log Nat :=
  walk (listGraph file bbt) (maxSubnodeDepth + 1) 0 subBid []

/-- The block is an SLBLOCK or an SIBLOCK. -/
def IsSubnodeBlock (subBid : Nat) : Prop :=
  ∀ payload, readPayload file bbt subBid = .ok payload →
    8 ≤ payload.length ∧ btypeOf payload = 2 ∧ (clevelOf payload = 0 ∨ clevelOf payload = 1)

variable {file bbt}

def listed (r : Result (List SubnodeEntry) × Log Nat) : Result (List SubnodeEntry × Finset Nat) :=
  r.1.map fun found => (found, visitedOf r.2)

theorem listChildren_eq_walkAll {list : Nat → Finset Nat → Result (List SubnodeEntry × Finset Nat)}
    {step : Nat → Log Nat → Result (List SubnodeEntry) × Log Nat}
    (h : ∀ k log, list k (visitedOf log) = listed (step k log)) (children : List Nat) (log : Log Nat) :
    listChildren list children (visitedOf log) = listed (walkAll step children log) := by
  induction children generalizing log with
  | nil => rfl
  | cons child rest ih =>
    rw [listChildren, h, walkAll]
    rcases step child log with ⟨e | found, log₁⟩
    · rfl
    · show (listChildren list rest (visitedOf log₁) >>= _) = _
      rw [ih]
      dsimp only
      rcases walkAll step rest log₁ with ⟨e | more, log₂⟩ <;> rfl

theorem listGraph_view {subBid : Nat} {payload : Bytes} (h : readPayload file bbt subBid = .ok payload) :
    (listGraph file bbt).view subBid = if payload.length < 8 then .ok (.leaf [])
      else
        match btypeOf payload, clevelOf payload with
        | 2, 0 => .ok (.leaf (slEntries payload))
        | 2, 1 => .ok (.node (siBids payload))
        | _, _ => .ok (.leaf []) :=
  congrArg (· >>= _) h

theorem listGraph_view_other {subBid : Nat} {payload : Bytes}
    (h : readPayload file bbt subBid = .ok payload)
    (hsl : btypeOf payload = 2 → clevelOf payload = 0 → False)
    (hsi : btypeOf payload = 2 → clevelOf payload = 1 → False) :
    (listGraph file bbt).view subBid = .ok (.leaf []) := by
  rw [listGraph_view h]
  split
  · rfl
  split
  · exact (hsl ‹_› ‹_›).elim
  · exact (hsi ‹_› ‹_›).elim
  · rfl

theorem listSubnodeEntriesAt_eq_walk (left depth subBid : Nat) (log : Log Nat) :
    listSubnodeEntriesAt file bbt left subBid (visitedOf log) =
      listed (walk (listGraph file bbt) left depth subBid log) := by
  induction left generalizing depth subBid log with
  | zero =>
    rw [listSubnodeEntriesAt, walk]
    show _ = listed (if isNull subBid = true then _ else _)
    split <;> rfl
  | succ left ih =>
    rw [listSubnodeEntriesAt, walk]
    show _ = listed (if isNull subBid = true then _ else _)
    split
    · rfl
    dsimp only
    by_cases hmem : subBid ∈ log.map snd
    · rw [if_pos (mem_visitedOf.mpr hmem), if_pos hmem]
      rfl
    rw [if_neg (mt mem_visitedOf.mp hmem), if_neg hmem, ← visitedOf_enter log depth]
    rcases hread : readPayload file bbt subBid with e | payload
    · rw [show (listGraph file bbt).view subBid = .error e from congrArg (· >>= _) hread]
      rfl
    simp only [bind, Except.bind]
    by_cases hshort : payload.length < 8
    · rw [if_pos hshort, listGraph_view hread, if_pos hshort]
      rfl
    rw [if_neg hshort]
    split
    · rename_i htype hlevel
      rw [listGraph_view hread, if_neg hshort, htype, hlevel]
      rfl
    · rename_i htype hlevel
      rw [listGraph_view hread, if_neg hshort, htype, hlevel]
      exact listChildren_eq_walkAll (fun k log => ih (depth + 1) k log) _ _
    · rename_i hsl hsi
      rw [listGraph_view_other hread hsl hsi]
      rfl

theorem listSubnodeEntries_eq_walk (subBid : Nat) :
    listSubnodeEntries file bbt subBid = (listWalk file bbt subBid).1 := by
  unfold listSubnodeEntries listWalk
  rw [show (∅ : Finset Nat) = visitedOf [] from rfl, listSubnodeEntriesAt_eq_walk _ 0]
  unfold listed
  rcases (walk (listGraph file bbt) (maxSubnodeDepth + 1) 0 subBid []).1 with e | found <;> rfl

def NotMissing {α : Type} (r : Result α) : Prop := ∀ e, r = .error e → isSubnodeNotFound e = false

theorem notMissing_ok {α : Type} (a : α) : NotMissing (.ok a : Result α) := fun _ h => by cases h

theorem notMissing_error {α : Type} {e : PstError} (h : isSubnodeNotFound e = false) :
    NotMissing (.error e : Result α) :=
  fun _ he => by rw [← Except.error.inj he, h]

theorem NotMissing.bind {α β : Type} {r : Result α} {f : α → Result β} (h : NotMissing r)
    (hf : ∀ a, NotMissing (f a)) :
    NotMissing (r >>= f) := by
  cases r with
  | error e => exact notMissing_error (h e rfl)
  | ok a => exact hf a

theorem notMissing_readPayload (bid : Nat) : NotMissing (readPayload file bbt bid) := by
  have hraw : NotMissing (readRawBlock file bbt bid) := by
    unfold readRawBlock
    split
    · exact notMissing_error rfl
    · split
      · exact notMissing_error rfl
      · unfold validateBlockTrailer
        dsimp only
        split
        · exact notMissing_error rfl
        · exact notMissing_ok _
  refine hraw.bind fun raw => ?_
  split
  · exact notMissing_error rfl
  · exact notMissing_ok _

theorem notMissing_readInternal {what : String} {read : Nat → Result Bytes} (h : ∀ bid, NotMissing (read bid))
    (payload : Bytes) : NotMissing (readInternal what read payload) := by
  have hchildren : ∀ bids result, NotMissing (assembleChildren what read bids result) := by
    intro bids
    induction bids with
    | nil => exact fun result => notMissing_ok _
    | cons child rest ih =>
      refine fun result => (h child).bind fun chunk => ?_
      split
      · exact notMissing_error rfl
      · exact ih _
  unfold readInternal
  split
  · exact notMissing_error rfl
  · refine NotMissing.bind ?_ fun _ => hchildren _ _
    unfold checkXblockAssembleLimit
    split
    · exact notMissing_error rfl
    · exact notMissing_ok _

theorem notMissing_readBlockData (bid : Nat) (crypt : CryptMethod) :
    NotMissing (readBlockData file bbt bid crypt) := by
  have hexternal : ∀ bid, NotMissing (readExternal file bbt crypt bid) := fun bid =>
    (notMissing_readPayload bid).bind fun _ => notMissing_ok _
  unfold readBlockData
  split
  · exact notMissing_ok _
  refine (notMissing_readPayload bid).bind fun payload => ?_
  split
  · exact notMissing_ok _
  split
  · exact notMissing_error rfl
  split
  · exact notMissing_readInternal hexternal _
  · exact notMissing_readInternal (fun child => (notMissing_readPayload child).bind fun _ =>
      notMissing_readInternal hexternal _) _
  · exact notMissing_error rfl

theorem agreeBelow_lookupGraph {subBid : Nat}
    (h : ∀ bid, Reached (listGraph file bbt) subBid bid → IsSubnodeBlock file bbt bid) :
    AgreeBelow (listGraph file bbt) (lookupGraph file bbt) subBid := by
  refine ⟨rfl, fun bid hbid => ?_⟩
  rcases hread : readPayload file bbt bid with e | payload
  · rw [show (listGraph file bbt).view bid = .error e from congrArg (· >>= _) hread]
    exact congrArg (· >>= _) hread
  obtain ⟨hlen, htype, hlevel⟩ := h bid hbid payload hread
  have hshort : ¬ payload.length < 8 := Nat.not_lt.mpr hlen
  rw [listGraph_view hread]
  refine (congrArg (· >>= _) hread).trans ?_
  show (if payload.length < 8 then _ else _) = _
  rw [if_neg hshort, if_neg hshort, htype]
  rcases hlevel with hlevel | hlevel <;> rw [hlevel] <;> rfl

theorem findSome?_answerFor (targetNid : Nat) (crypt : CryptMethod) (entries : List SubnodeEntry) :
    entries.findSome? (answerFor file bbt targetNid crypt) =
      (entries.find? fun entry => entry.nid = targetNid).map fun entry =>
        readBlockData file bbt entry.bidData crypt := by
  induction entries with
  | nil => rfl
  | cons entry rest ih =>
    rw [findSome?_cons, find?_cons, answerFor]
    by_cases h : entry.nid = targetNid
    · simp [h]
    · simp only [h, if_false, decide_false]
      exact ih

def readListed (file : Bytes) (bbt : BbtIndex) (crypt : CryptMethod) (targetNid : Nat)
    (entries : List SubnodeEntry) :
    Result Bytes :=
  match entries.find? fun entry => entry.nid = targetNid with
  | some entry => readBlockData file bbt entry.bidData crypt
  | none => .error (.subnodeNotFound targetNid)

theorem readSubnodeData_eq {subBid targetNid : Nat} {crypt : CryptMethod}
    {entries : List SubnodeEntry} (hlist : listSubnodeEntries file bbt subBid = .ok entries)
    (hblocks : ∀ bid, Reached (listGraph file bbt) subBid bid → IsSubnodeBlock file bbt bid) :
    readSubnodeData file bbt subBid targetNid crypt = readListed file bbt crypt targetNid entries := by
  rw [listSubnodeEntries_eq_walk] at hlist
  have hwalk : listWalk file bbt subBid = (.ok entries, (listWalk file bbt subBid).2) := by rw [← hlist]
  have hanswer : ∀ entry e, answerFor file bbt targetNid crypt entry = some (.error e) →
      isSubnodeNotFound e = false := by
    intro entry e h
    unfold answerFor at h
    split at h
    · exact notMissing_readBlockData _ _ e (Option.some.inj h)
    · cases h
  have hmissing : isSubnodeNotFound (.subnodeNotFound targetNid) = true := rfl
  have hfinds := seek_of_walk hmissing hanswer (agreeBelow_lookupGraph hblocks) hwalk
  unfold Finds at hfinds
  rw [findSome?_answerFor] at hfinds
  unfold readSubnodeData readSubnodeDataAt readListed
  cases hfind : entries.find? fun entry => entry.nid = targetNid with
  | none =>
    rw [hfind] at hfinds
    rw [show seek _ _ _ _ _ _ _ _ = _ from hfinds]
  | some entry =>
    rw [hfind] at hfinds
    exact hfinds

end

/-- Every walk opens a page or block at most once and none below the depth limit, whatever the file
holds, and ends. Where the listing succeeds over subnode blocks, the lookup reads the first entry
listed for the NID. -/
theorem treeWalks_spec (file : Bytes) : (∀ rootOffset, NbtIndex.build file rootOffset =
        (indexWalk (nbtPage file) rootOffset).1.map (fun found => HashMap.insertAll found ∅) ∧
      Bounded (maxBtreeDepth + 1) (indexWalk (nbtPage file) rootOffset).2) ∧
    (∀ rootOffset, BbtIndex.build file rootOffset =
        (indexWalk (bbtPage file) rootOffset).1.map (fun found => HashMap.insertAll found ∅) ∧
      Bounded (maxBtreeDepth + 1) (indexWalk (bbtPage file) rootOffset).2) ∧ ∀ (bbt : BbtIndex) (subBid : Nat),
      (listSubnodeEntries file bbt subBid = (listWalk file bbt subBid).1 ∧
        Bounded (maxSubnodeDepth + 1) (listWalk file bbt subBid).2) ∧ ∀ (targetNid : Nat) (crypt : CryptMethod),
        Bounded (maxSubnodeDepth + 1)
          (readSubnodeDataAt file bbt targetNid crypt (maxSubnodeDepth + 1) 0 subBid []).2 ∧
        ∀ entries, listSubnodeEntries file bbt subBid = .ok entries →
          (∀ bid, Reached (listGraph file bbt) subBid bid → IsSubnodeBlock file bbt bid) →
          readSubnodeData file bbt subBid targetNid crypt = readListed file bbt crypt targetNid entries ∧
          (readSubnodeData file bbt subBid targetNid crypt = .error (.subnodeNotFound targetNid) ↔
            ∀ entry ∈ entries, entry.nid ≠ targetNid) := by
  have hstart : 0 + (maxSubnodeDepth + 1) ≤ maxSubnodeDepth + 1 := Nat.le_of_eq (Nat.zero_add _)
  refine ⟨fun rootOffset => ⟨buildIndex_eq_walk _ _, bounded_indexWalk _ _⟩,
    fun rootOffset => ⟨buildIndex_eq_walk _ _, bounded_indexWalk _ _⟩,
      fun bbt subBid => ⟨⟨listSubnodeEntries_eq_walk _,
      bounded_walk hstart _ bounded_nil⟩, fun targetNid crypt => ⟨bounded_seek hstart _ bounded_nil, ?_⟩⟩⟩
  intro entries hlist hblocks
  have heq : readSubnodeData file bbt subBid targetNid crypt = readListed file bbt crypt targetNid entries :=
    readSubnodeData_eq hlist hblocks
  refine ⟨heq, ?_⟩
  rw [heq]
  unfold readListed
  cases hfind : entries.find? fun entry => entry.nid = targetNid with
  | none =>
    have hnone := List.find?_eq_none.mp hfind
    exact ⟨fun _ entry hentry => by simpa using hnone entry hentry, fun _ => rfl⟩
  | some entry =>
    have hnid : entry.nid = targetNid := by simpa using find?_some hfind
    refine ⟨fun h => ?_, fun h => absurd hnid (h entry (mem_of_find?_eq_some hfind))⟩
    have hfalse := notMissing_readBlockData entry.bidData crypt _ h
    cases hfalse

/-- A block of at most 64 bytes with room for its trailer. -/
def paddedBlock (payload : Bytes) : Bytes := payload ++ replicate (80 - payload.length) 0

def siPayload : Bytes := [2, 1, 2, 0, 0, 0, 0, 0] ++ leBytes 8 5 ++ leBytes 8 6 ++ leBytes 8 9 ++ leBytes 8 10

def slPayload (nid : Nat) : Bytes := [2, 0, 1, 0, 0, 0, 0, 0] ++ leBytes 8 nid ++ leBytes 8 4 ++ leBytes 8 0

/-- An SIBLOCK over two SLBLOCKs of one entry each, and the block of data that both name. -/
def subnodeFile : Bytes :=
  paddedBlock siPayload ++ paddedBlock (slPayload 5) ++ paddedBlock (slPayload 9) ++ paddedBlock [7, 8]

def subnodeBbt : BbtIndex :=
  HashMap.insertAll [(2, ⟨2, 0, 40, 1⟩), (6, ⟨6, 80, 32, 1⟩), (10, ⟨10, 160, 32, 1⟩), (4, ⟨4, 240, 2, 1⟩)] ∅

theorem subnodeFile_root : readPayload subnodeFile subnodeBbt 2 = .ok siPayload := by decide +kernel

theorem subnodeFile_leaf {subBid : Nat} (h : subBid ∈ [6, 10]) :
    ∃ nid, readPayload subnodeFile subnodeBbt subBid = .ok (slPayload nid) ∧ (nid = 5 ∨ nid = 9) := by
  rcases List.mem_cons.mp h with rfl | h
  · exact ⟨5, by decide +kernel, .inl rfl⟩
  · rw [List.mem_singleton.mp h]
    exact ⟨9, by decide +kernel, .inr rfl⟩

theorem subnodeFile_blocks {subBid : Nat} (h : Reached (listGraph subnodeFile subnodeBbt) 2 subBid) :
    IsSubnodeBlock subnodeFile subnodeBbt subBid := by
  cases h with
  | self _ =>
    intro payload hpayload
    rw [← Except.ok.inj (subnodeFile_root.symm.trans hpayload)]
    decide
  | child _ hview hc hb =>
    have hroot : (listGraph subnodeFile subnodeBbt).view 2 = .ok (.node [6, 10]) := by
      unfold listGraph
      dsimp only
      rw [subnodeFile_root]
      rfl
    rw [← Opened.node.inj (Except.ok.inj (hroot.symm.trans hview))] at hc
    obtain ⟨nid, hleaf, hnid⟩ := subnodeFile_leaf hc
    cases hb with
    | self _ =>
      intro payload hpayload
      rw [← Except.ok.inj (hleaf.symm.trans hpayload)]
      rcases hnid with rfl | rfl <;> decide
    | child _ hview' _ _ =>
      unfold listGraph at hview'
      dsimp only at hview'
      rw [hleaf] at hview'
      rcases hnid with rfl | rfl <;> cases hview'

/-- A NID of the second block is found, and one that is not listed is missing. -/
theorem treeWalks_spec_siblock : readSubnodeData subnodeFile subnodeBbt 2 9 .none = .ok [7, 8] ∧
    readSubnodeData subnodeFile subnodeBbt 2 7 .none = .error (.subnodeNotFound 7) := by
  have hlist : listSubnodeEntries subnodeFile subnodeBbt 2 = .ok [⟨5, 4, 0⟩, ⟨9, 4, 0⟩] := by decide +kernel
  have hblocks := ((treeWalks_spec subnodeFile).2.2 subnodeBbt 2).2
  obtain ⟨hfound, -⟩ := (hblocks 9 .none).2 _ hlist fun _ h => subnodeFile_blocks h
  obtain ⟨-, hmissing⟩ := (hblocks 7 .none).2 _ hlist fun _ h => subnodeFile_blocks h
  exact ⟨hfound.trans (by decide +kernel), hmissing.mpr (by decide)⟩

end PstReader
