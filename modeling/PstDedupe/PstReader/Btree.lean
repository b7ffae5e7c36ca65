import PstDedupe.Foundations.Chunks
import PstDedupe.PstReader.Block

/-!
# Reading the B-trees (`ndb/page.rs`, `ndb/btree.rs`)

The NBT and the BBT are trees of 512-byte pages that the reader traverses once into a map.
-/

namespace PstReader

open Rust Foundations List Prod

def pageSize : Nat := 512
def ptypeBbt : Nat := 0x80
def ptypeNbt : Nat := 0x81

def readPage (file : Bytes) (offset : Nat) : Result Bytes :=
  match window file offset pageSize with
  | none => .error .io
  | some page => .ok page

/-- `RawPage::validate`; a wrong CRC is only counted. -/
def validatePage (page : Bytes) (expected : Nat) : Result Unit :=
  if readLe 1 page 496 ≠ expected then .error (.invalidPageType expected (readLe 1 page 496))
  else if readLe 1 page 496 ≠ readLe 1 page 497 then
    .error (.pageTypeMismatch (readLe 1 page 496) (readLe 1 page 497))
  else .ok ()

/-- The `size`-byte records of an entries region, up to the first that sticks out of it. -/
def entrySlots (data : Bytes) (cEntries size : Nat) : List Bytes :=
  ((range cEntries).takeWhile fun i => i * size + size ≤ data.length).map
    fun i => (data.drop (i * size)).take size

theorem entrySlots_flatten {rs : List Bytes} {w : Nat} (hw : ∀ r ∈ rs, r.length = w)
    (rest : Bytes) : entrySlots (rs.flatten ++ rest) rs.length w = rs := by
  have hlen : rs.flatten.length = rs.length * w := length_flatten_of_width hw
  have hinside : ∀ i < rs.length, i * w + w ≤ rs.flatten.length := by
    intro i hi
    have := Nat.mul_le_mul_right w (show i + 1 ≤ rs.length from hi)
    rw [Nat.succ_mul] at this
    omega
  unfold entrySlots
  rw [List.takeWhile_eq_self_iff.mpr]
  · apply ext_getElem
    · rw [length_map, length_range]
    · intro i hi hi'
      have hin := hinside i hi'
      rw [getElem_map, getElem_range, drop_append_of_le_length (by omega),
        take_append_of_le_length (by rw [length_drop]; omega)]
      exact take_drop_flatten hw (getElem?_eq_getElem hi')
  · intro i hi
    have hin := hinside i (List.mem_range.mp hi)
    rw [length_append, decide_eq_true_iff]
    omega

/-- A B-tree page: leaf records of `size` bytes, or `key(8) bid(8) ib(8)` on the levels above. -/
def btreePage {V : Type} (expected size : Nat) (parse : Bytes → Nat × V) (file : Bytes)
    (offset : Nat) : Result (PageView V) := do
  let page ← readPage file offset
  validatePage page expected
  let data := page.take 488
  let cEntries := readLe 1 page 488
  if readLe 1 page 491 = 0 then
    return .leaf ((entrySlots data cEntries size).map parse)
  else
    return .node ((entrySlots data cEntries 24).map fun e => (readLe 8 e 0, readLe 8 e 16))

theorem btreePage_eq {V : Type} {expected size offset : Nat} {parse : Bytes → Nat × V}
    {file page : Bytes} (hread : readPage file offset = .ok page)
    (hvalid : validatePage page expected = .ok ()) : btreePage expected size parse file offset = .ok
      (if readLe 1 page 491 = 0 then
        .leaf ((entrySlots (page.take 488) (readLe 1 page 488) size).map parse)
      else .node ((entrySlots (page.take 488) (readLe 1 page 488) 24).map fun e =>
        (readLe 8 e 0, readLe 8 e 16))) := by
  unfold btreePage
  rw [hread]
  show (validatePage page expected >>= _) = _
  rw [hvalid]
  show (if _ then _ else _) = _
  split <;> rfl

def maxBtreeDepth : Nat := 32

def traverse {V : Type} (fetch : Nat → Result (PageView V)) :
    Nat → Nat → Finset Nat × HashMap Nat V → Result (Finset Nat × HashMap Nat V)
  | 0, pageOffset, _ => .error (.resourceLimit
      ("B-tree depth " ++ toString (maxBtreeDepth + 1) ++ " exceeds max " ++ toString maxBtreeDepth
        ++ " at offset 0x" ++ hexUpper pageOffset))
  | left + 1, pageOffset, (visited, entries) =>
    if pageOffset ∈ visited then .error (.btreeCycle pageOffset)
    else do
      match ← fetch pageOffset with
      | .leaf found => return (insert pageOffset visited, entries.insertAll found)
      | .node children =>
        children.foldlM (fun st child => traverse fetch left child.2 st)
          (insert pageOffset visited, entries)

/-- What the two `build`s share. -/
def buildIndex {V : Type} (fetch : Nat → Result (PageView V)) (rootOffset : Nat) : Result (HashMap Nat V) :=
  if rootOffset = 0 then .ok ∅
  else do
    let (_, entries) ← traverse fetch (maxBtreeDepth + 1) rootOffset (∅, ∅)
    return entries

structure NbtEntry where
  nid : Nat
  bidData : Nat
  bidSub : Nat
  nidParent : Nat
  deriving DecidableEq, Repr

def parseNbtEntry (data : Bytes) : Nat × NbtEntry :=
  (readLe 8 data 0, ⟨readLe 8 data 0, readLe 8 data 8, readLe 8 data 16, readLe 4 data 24⟩)

def parseBbtEntry (data : Bytes) : Nat × BbtEntry :=
  (readLe 8 data 0, ⟨readLe 8 data 0, readLe 8 data 8, readLe 2 data 16, readLe 2 data 18⟩)

abbrev NbtIndex := HashMap Nat NbtEntry

def nbtPage (file : Bytes) : Nat → Result (PageView NbtEntry) :=
  btreePage ptypeNbt 32 parseNbtEntry file

def bbtPage (file : Bytes) : Nat → Result (PageView BbtEntry) :=
  btreePage ptypeBbt 24 parseBbtEntry file

def NbtIndex.build (file : Bytes) (rootOffset : Nat) : Result NbtIndex :=
  buildIndex (nbtPage file) rootOffset

def BbtIndex.build (file : Bytes) (rootOffset : Nat) : Result BbtIndex :=
  buildIndex (bbtPage file) rootOffset

section

variable {V : Type} {fetch : Nat → Result (PageView V)}

theorem insertAll_append (a b : List (Nat × V)) (m : HashMap Nat V) :
    HashMap.insertAll (a ++ b) m = HashMap.insertAll b (HashMap.insertAll a m) :=
  foldl_append

theorem foldlM_of_forall₂ {walk : Nat → Finset Nat × HashMap Nat V → Result (Finset Nat × HashMap Nat V)}
    {children : List (Nat × Nat)} {parts : List (List Nat × List (Nat × V))}
    (h : Forall₂ (fun c p => ∀ visited m, p.1.Nodup → (∀ a ∈ p.1, a ∉ visited) →
      walk c.2 (visited, m) = .ok (visited ∪ p.1.toFinset, m.insertAll p.2)) children parts)
    {visited : Finset Nat} {m : HashMap Nat V} (hnodup : (parts.flatMap fst).Nodup)
    (hfresh : ∀ a ∈ parts.flatMap fst, a ∉ visited) :
    children.foldlM (fun st child => walk child.2 st) (visited, m)
      = .ok (visited ∪ (parts.flatMap fst).toFinset, m.insertAll (parts.flatMap snd)) := by
  induction h generalizing visited m with
  | nil => simp [HashMap.insertAll, pure, Except.pure]
  | @cons c p _ _ hwalk _ ih =>
    rw [flatMap_cons, nodup_append] at hnodup
    rw [flatMap_cons] at hfresh
    rw [foldlM_cons, hwalk visited m hnodup.1 fun a ha =>
      hfresh a (mem_append_left _ ha)]
    show foldlM _ _ _ = _
    rw [ih hnodup.2.1 fun a ha => ?_]
    · rw [flatMap_cons, flatMap_cons, toFinset_append, Finset.union_assoc,
        insertAll_append]
    · rw [Finset.mem_union, mem_toFinset, not_or]
      exact ⟨hfresh a (mem_append_right _ ha), fun hin => hnodup.2.2 a hin a ha rfl⟩

theorem traverse_of_isTree {height left : Nat} (hleft : height < left) {addr : Nat}
    {addrs : List Nat} {found : List (Nat × V)} (h : IsTree fetch height addr addrs found)
    {visited : Finset Nat} {m : HashMap Nat V} (hnodup : addrs.Nodup)
    (hfresh : ∀ a ∈ addrs, a ∉ visited) :
    traverse fetch left addr (visited, m) = .ok (visited ∪ addrs.toFinset, m.insertAll found) := by
  induction height generalizing left addr addrs found visited m with
  | zero =>
    obtain ⟨hpage, rfl⟩ := h
    obtain _ | left := left
    · omega
    rw [traverse, if_neg (hfresh addr mem_cons_self), hpage]
    show Except.ok _ = _
    rw [toFinset_cons, toFinset_nil, Finset.union_comm]
    rfl
  | succ height ih =>
    obtain ⟨children, parts, hpage, hparts, rfl, rfl⟩ := h
    obtain _ | left := left
    · omega
    rw [nodup_cons] at hnodup
    rw [traverse, if_neg (hfresh addr mem_cons_self), hpage]
    have hwalk : Forall₂ (fun c p => ∀ visited m, p.1.Nodup → (∀ a ∈ p.1, a ∉ visited) →
        traverse fetch left c.2 (visited, m) = .ok (visited ∪ p.1.toFinset, m.insertAll p.2))
        children parts :=
      hparts.imp fun c p hp visited m hnodup hfresh => ih (by omega) hp.1 hnodup hfresh
    show foldlM _ _ children = _
    rw [foldlM_of_forall₂ hwalk hnodup.2 fun a ha => ?_]
    · rw [toFinset_cons, Finset.insert_union, Finset.union_insert]
    · rw [Finset.mem_insert, not_or]
      exact ⟨fun h => hnodup.1 (h ▸ ha), hfresh a (mem_cons_of_mem _ ha)⟩

theorem buildIndex_of_isTree {height root : Nat} (hroot : root ≠ 0) (hheight : height ≤ maxBtreeDepth)
    {addrs : List Nat} {found : List (Nat × V)} (h : IsTree fetch height root addrs found)
    (hnodup : addrs.Nodup) : buildIndex fetch root = .ok (HashMap.insertAll found ∅) := by
  unfold buildIndex
  rw [if_neg hroot, traverse_of_isTree (Nat.lt_succ_of_le hheight) h hnodup fun a _ =>
    Finset.notMem_empty a]
  rfl

end

end PstReader
