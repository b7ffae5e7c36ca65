import PstDedupe.Foundations.Fallible
import PstDedupe.PstWriter.HeapBuilder
import PstDedupe.Rust.Bytes

/-!
# What a finished property context holds (`pst-writer/src/production.rs`)

Read from the bytes of the heap alone: the page map has where the allocations stand, the user root
is the header of a tree, and the leaf of the tree has the records.
-/

namespace PstWriter

open Rust Foundations List Prod

/-- The bytes of the allocation `hid` of a heap with one page. -/
def allocated (heap : Bytes) (hid : Nat) : Option Bytes :=
  let map := readLe 2 heap 0
  let bound (i : Nat) := readLe 2 heap (map + 4 + 2 * i)
  if hid % 2 ^ 5 = 0 ∧ 0 < hid >>> 5 ∧ hid >>> 5 < 2 ^ 11 ∧ hid >>> 5 ≤ readLe 2 heap map then
    window heap (bound (hid >>> 5 - 1)) (bound (hid >>> 5) - bound (hid >>> 5 - 1))
  else none

/-- The record of a value: its type, and the value itself, the NID of its subnode or the HID of its
bytes. -/
def RecordOf (held : Nat → Bytes → Prop) (record : Bytes) (value : PcValue) : Prop :=
  let ref (propType : Nat) (cells : Bytes) :=
    ∃ hid, held hid cells ∧ record = leBytes 2 propType ++ leBytes 4 hid
  match value with
  | .i32 v => record = leBytes 2 ptypInteger32 ++ leBytes 4 v.toUInt32.toNat
  | .bool v => record = leBytes 2 ptypBoolean ++ leBytes 4 v.toNat
  | .time v => ref ptypTime (leBytes 8 v.toUInt64.toNat)
  | .string s => ref ptypString (utf16leBytes s)
  | .binary b => ref ptypBinary b
  | .object nid size => ref ptypObject (leBytes 4 nid ++ leBytes 4 size)
  | .subnodeString nid => record = leBytes 2 ptypString ++ leBytes 4 nid
  | .subnodeBinary nid => record = leBytes 2 ptypBinary ++ leBytes 4 nid

/-- The user root is a tree of six-byte records by ascending id, one for each property. -/
def HoldsProps (heap : Bytes) (props : List (Nat × PcValue)) : Prop :=
  ∃ (leaf : Nat) (records : List (Nat × Bytes)),
    allocated heap (readLe 4 heap 4) = some ((bthHeader 2 6).take 4 ++ leBytes 4 leaf) ∧
      allocated heap leaf = some (records.flatMap fun r => leBytes 2 r.1 ++ r.2) ∧
      (records.map fst).Pairwise (· ≤ ·) ∧ (records.map fst).Perm (props.map fst) ∧
      ∀ prop ∈ props, ∃ record, (prop.1, record) ∈ records ∧
        RecordOf (fun hid cells => allocated heap hid = some cells) record prop.2

theorem RecordOf.mono {held held' : Nat → Bytes → Prop} {record : Bytes} {value : PcValue}
    (h : RecordOf held record value) (hmono : ∀ hid cells, held hid cells → held' hid cells) :
    RecordOf held' record value := by
  cases value with
  | i32 | bool | subnodeString | subnodeBinary => exact h
  | time | string | binary | object =>
    obtain ⟨hid, hheld, hrecord⟩ := h
    exact ⟨hid, hmono _ _ hheld, hrecord⟩

/-! ## While the heap is filled -/

namespace HeapBuilder

/-- Where the allocations start and, last, where they end. -/
def bounds (heap : HeapBuilder) : List Nat := 12 :: heap.allocations.map snd

/-- The allocations stand one behind the other and fill the data. -/
structure Packed (heap : HeapBuilder) : Prop where
  full : heap.bounds.getLast? = some heap.data.length
  header : 12 ≤ heap.data.length

/-- The bytes from `start` on are the allocation at `i`. -/
structure HasAt (heap : HeapBuilder) (i start : Nat) (cells : Bytes) : Prop where
  starts : heap.bounds[i]? = some start
  ends : heap.bounds[i + 1]? = some (start + cells.length)
  header : 12 ≤ start
  inside : start + cells.length ≤ heap.data.length
  cells : Holds heap.data start cells

def Has (heap : HeapBuilder) (hid : Nat) (cells : Bytes) : Prop :=
  ∃ i start, hid = (i + 1) <<< 5 ∧ heap.HasAt i start cells

/-- What `n` allocations leave of a heap. -/
structure Grown (heap : HeapBuilder) (n : Nat) (heap' : HeapBuilder) : Prop where
  packed : heap'.Packed
  count : heap'.allocations.length ≤ heap.allocations.length + n
  size : heap.data.length ≤ heap'.data.length
  kept : ∀ i start cells, heap.HasAt i start cells → heap'.HasAt i start cells

variable {heap heap' : HeapBuilder} {hid : Nat} {cells : Bytes}

theorem length_bounds (heap : HeapBuilder) : heap.bounds.length = heap.allocations.length + 1 := by
  simp [bounds]

theorem Grown.trans {heap'' : HeapBuilder} {n m : Nat} (h : heap.Grown n heap')
    (h' : heap'.Grown m heap'') : heap.Grown (n + m) heap'' :=
  ⟨h'.packed, by have := h.count; have := h'.count; omega, h.size.trans h'.size,
    fun i start cells hat => h'.kept i start cells (h.kept i start cells hat)⟩

theorem Grown.has {n : Nat} (h : heap.Grown n heap') (hhas : heap.Has hid cells) : heap'.Has hid cells :=
  let ⟨i, start, heq, hat⟩ := hhas
  ⟨i, start, heq, h.kept i start cells hat⟩

theorem HasAt.append {i start : Nat} {more : Bytes} {stop : Nat} (h : heap.HasAt i start cells)
    (hdata : heap'.data = heap.data ++ more) (hbounds : heap'.bounds = heap.bounds ++ [stop]) :
    heap'.HasAt i start cells where
  starts := by rw [hbounds, getElem?_append_left (List.getElem?_eq_some_iff.mp h.starts).1, h.starts]
  ends := by rw [hbounds, getElem?_append_left (List.getElem?_eq_some_iff.mp h.ends).1, h.ends]
  header := h.header
  inside := by
    rw [hdata, List.length_append]
    exact Nat.le_add_right_of_le h.inside
  cells := by
    intro k hk
    rw [hdata, getElem?_append_left (Nat.lt_of_lt_of_le (Nat.add_lt_add_left hk _) h.inside), h.cells k hk]

/-- An allocation keeps what is there and adds its own bytes behind. -/
theorem tryAlloc_spec (h : heap.tryAlloc cells = .ok (hid, heap')) (hpacked : heap.Packed) :
    heap.Grown 1 heap' ∧ hid = (heap.allocations.length + 1) <<< 5 ∧
      heap'.HasAt heap.allocations.length heap.data.length cells ∧
      heap'.data.length = heap.data.length + cells.length ∧
      heap'.allocations = heap.allocations ++ [(heap.data.length, heap.data.length + cells.length)] ∧
      heap.data.length + cells.length + 2 * heap.allocations.length + 8 ≤ maxBlockData := by
  unfold tryAlloc at h
  split at h
  · cases h
  rename_i hroom
  have heq := Except.ok.inj h
  obtain rfl : (heap.alloc cells).1 = hid := congrArg fst heq
  obtain rfl : (heap.alloc cells).2 = heap' := congrArg snd heq
  simp only [projected, projectedPagemap] at hroom
  have hlen := heap.length_bounds
  have hlast := hpacked.full
  rw [getLast?_eq_getElem?, hlen] at hlast
  have hbounds : (heap.alloc cells).2.bounds = heap.bounds ++
      [heap.data.length + cells.length] := by simp [bounds, alloc]
  have hdata : (heap.alloc cells).2.data.length = heap.data.length + cells.length := List.length_append
  refine ⟨⟨⟨?_, ?_⟩, ?_, ?_, fun i start cells' hat => hat.append rfl hbounds⟩, rfl, ?_, hdata, rfl, by omega⟩
  · rw [hbounds, getLast?_concat, hdata]
  · rw [hdata]
    exact hpacked.header.trans (Nat.le_add_right _ _)
  · exact Nat.le_of_eq List.length_append
  · rw [hdata]
    exact Nat.le_add_right _ _
  · refine ⟨?_, ?_, hpacked.header, hdata.ge, fun k hk => ?_⟩
    · rw [hbounds, getElem?_append_left (by omega)]
      exact hlast
    · rw [hbounds, getElem?_append_right (by omega), hlen, Nat.sub_self]
      rfl
    · rw [alloc, getElem?_append_right (Nat.le_add_right _ _), Nat.add_sub_cancel_left]

/-- The cells beside a patch stay. -/
theorem HasAt.patched {i start off v : Nat} (h : heap.HasAt i start cells)
    (hapart : Apart (start, cells.length) (off, 4)) :
    HasAt ⟨patchBytes heap.data off (leBytes 4 v), heap.allocations⟩ i start cells where
  starts := h.starts
  ends := h.ends
  header := h.header
  inside := h.inside.trans (Nat.le_trans (Nat.le_max_left _ _) length_overwrite.ge)
  cells := h.cells.overwrite (by rwa [length_leBytes])

/-! ## Once it is finished -/

/-- Each part of a finished heap stands where the page map and the header say. -/
theorem finalize_spec (hpacked : heap.Packed) (hroom : heap.data.length < 2 ^ 16) {root : Nat}
    (hroot : root < 2 ^ 32) :
    readLe 2 (heap.finalize root) 0 = heap.data.length ∧ readLe 4 (heap.finalize root) 4 = root ∧
      Holds (heap.finalize root) heap.data.length (pageMap 12 heap.allocations) ∧
      heap.data.length ≤ (heap.finalize root).length ∧
      ∀ start cells, 12 ≤ start → Holds heap.data start cells → Holds (heap.finalize root) start cells := by
  have hheader := hpacked.header
  have hkeep : ∀ start cells, 12 ≤ start → Holds (heap.data ++
      pageMap 12 heap.allocations) start cells → Holds (heap.finalize root) start cells := by
    intro start cells hstart h
    refine (h.overwrite (.inr ?_)).overwrite (.inr ?_)
    · rw [length_leBytes]
      exact Nat.le_trans (by decide) hstart
    · rw [length_leBytes]
      exact Nat.le_trans (by decide) hstart
  refine ⟨readLe_of_holds_leBytes (holds_overwrite.overwrite (.inl ?_)) hroom,
    readLe_of_holds_leBytes holds_overwrite hroot, hkeep _ _ hheader fun k hk => ?_, ?_,
    fun start cells hstart h => hkeep _ _ hstart fun k hk => ?_⟩
  · rw [length_leBytes]
    exact (by decide : 0 + 2 ≤ 4)
  · rw [getElem?_append_right (Nat.le_add_right _ _), Nat.add_sub_cancel_left]
  · simp only [finalize, patchBytes, length_overwrite, List.length_append]
    omega
  · have hk' := h k hk
    rw [getElem?_eq_getElem hk] at hk' ⊢
    rw [getElem?_append_left (List.getElem?_eq_some_iff.mp hk').1, hk']

theorem holds_bound {img : Bytes} {off : Nat} {ns : List Nat}
    (h : Holds img off (ns.flatMap (leBytes 2))) {i n : Nat} (hn : ns[i]? = some n) :
    Holds img (off + 2 * i) (leBytes 2 n) := by
  induction ns generalizing off i with
  | nil => cases hn
  | cons m ns ih =>
    rw [flatMap_cons, Holds.append, length_leBytes] at h
    cases i with
    | zero =>
      obtain rfl := Option.some.inj hn
      exact h.1
    | succ i =>
      have hrest := ih h.2 hn
      rwa [Nat.add_assoc, Nat.add_comm 2] at hrest

theorem allocated_finalize {root : Nat} (hpacked : heap.Packed) (hroom : heap.data.length < 2 ^ 16)
    (hcount : heap.allocations.length < 2 ^ 11) (hroot : root < 2 ^ 32) (h : heap.Has hid cells) :
    allocated (heap.finalize root) hid = some cells := by
  obtain ⟨i, start, rfl, hat⟩ := h
  obtain ⟨hmap, -, hpages, hlen, hkeep⟩ := finalize_spec hpacked hroom hroot
  have hindex : (i + 1) <<< 5 >>> 5 = i + 1 := by rw [Nat.shiftRight_eq_div_pow, Nat.shiftLeft_eq]; omega
  have hlt := (List.getElem?_eq_some_iff.mp hat.ends).1
  rw [length_bounds] at hlt
  have hinside := hat.inside
  have hpages' : Holds (heap.finalize root) heap.data.length
      (leBytes 2 heap.allocations.length ++ (leBytes 2 0 ++ heap.bounds.flatMap (leBytes 2))) := by
    simpa [pageMap, bounds, flatMap_map] using hpages
  rw [Holds.append, Holds.append, length_leBytes, length_leBytes] at hpages'
  obtain ⟨hfirst, -, hbounds⟩ := hpages'
  have hread : readLe 2 (heap.finalize root) heap.data.length = heap.allocations.length :=
    readLe_of_holds_leBytes hfirst (by omega)
  have hstart := readLe_of_holds_leBytes (holds_bound hbounds hat.starts) (by omega)
  have hstop := readLe_of_holds_leBytes (holds_bound hbounds hat.ends) (by omega)
  have hwindow : window (heap.finalize root) start cells.length = some cells := by
    by_cases hne : cells = []
    · subst hne
      exact if_pos (hinside.trans hlen)
    · exact window_of_holds (hkeep _ _ hat.header hat.cells) hne
  rw [allocated, if_pos]
  · simp only [hmap, hindex, Nat.add_sub_cancel]
    rw [show heap.data.length + 4 = heap.data.length + 2 + 2 from rfl, hstart, hstop,
      Nat.add_sub_cancel_left, hwindow]
  · rw [hmap, hread, hindex, Nat.shiftLeft_eq]
    omega

/-! ## The property context -/

theorem encodePcValue_spec {value : PcValue} {record : Bytes}
    (h : encodePcValue heap value = .ok (record, heap')) (hpacked : heap.Packed) :
    heap.Grown 1 heap' ∧ record.length = 6 ∧ RecordOf heap'.Has record value := by
  have hinline : heap.Grown 1 heap := ⟨hpacked, Nat.le_add_right _ _, le_rfl, fun _ _ _ => id⟩
  have honHeap : ∀ propType cells, onHeap heap propType cells = .ok (record, heap') →
      heap.Grown 1 heap' ∧ record.length = 6 ∧
        ∃ hid, heap'.Has hid cells ∧ record = leBytes 2 propType ++ leBytes 4 hid := by
    intro propType cells h
    obtain ⟨r, halloc, h⟩ := bind_eq_ok.mp h
    cases h
    obtain ⟨hgrown, hhid, hat, -⟩ := tryAlloc_spec halloc hpacked
    exact ⟨hgrown, by simp, r.1, ⟨_, _, hhid, hat⟩, rfl⟩
  cases value with
  | i32 | bool | subnodeString | subnodeBinary =>
    cases h
    exact ⟨hinline, by simp, rfl⟩
  | time | string | binary | object => exact honHeap _ _ h

theorem encodeRecords_spec {props : List (Nat × PcValue)} {records : List (Nat × Bytes)}
    (h : encodeRecords heap props = .ok (records, heap')) (hpacked : heap.Packed) :
    heap.Grown props.length heap' ∧ records.map fst = props.map fst ∧ (∀ r ∈ records, r.2.length = 6) ∧
      ∀ prop ∈ props, ∃ record, (prop.1, record) ∈ records ∧ RecordOf heap'.Has record prop.2 := by
  induction props generalizing heap records with
  | nil =>
    cases h
    exact ⟨⟨hpacked, le_rfl, le_rfl, fun _ _ _ => id⟩, rfl, forall_mem_nil _, forall_mem_nil _⟩
  | cons prop rest ih =>
    obtain ⟨r, hrecord, h⟩ := bind_eq_ok.mp h
    obtain ⟨rs, hrest, h⟩ := bind_eq_ok.mp h
    cases h
    obtain ⟨hfirst, hlen, hvalue⟩ := encodePcValue_spec hrecord hpacked
    obtain ⟨hgrown, hids, hlens, hvalues⟩ := ih hrest hfirst.packed
    refine ⟨by rw [length_cons, Nat.add_comm]; exact hfirst.trans hgrown, by rw [map_cons, hids, map_cons],
      List.forall_mem_cons.mpr ⟨hlen, hlens⟩, ?_⟩
    refine List.forall_mem_cons.mpr ⟨⟨r.1, mem_cons_self, hvalue.mono fun hid cells => hgrown.has⟩, ?_⟩
    intro prop hprop
    obtain ⟨record, hmem, hof⟩ := hvalues prop hprop
    exact ⟨record, mem_cons_of_mem _ hmem, hof⟩

end HeapBuilder

theorem length_leaf {records : List (Nat × Bytes)} (h : ∀ r ∈ records, r.2.length = 6) :
    ((sortRecords records).flatMap fun r => leBytes 2 r.1 ++ r.2).length = 8 * records.length := by
  have hperm : (sortRecords records).Perm records := sortBy_perm _ _
  have height : ∀ rs : List (Nat × Bytes), (∀ r ∈ rs, r.2.length = 6) →
      (rs.flatMap fun r => leBytes 2 r.1 ++ r.2).length = 8 * rs.length := by
    intro rs hrs
    induction rs with
    | nil => rfl
    | cons r rs ih =>
      obtain ⟨hr, hrest⟩ := List.forall_mem_cons.mp hrs
      rw [flatMap_cons, length_append, ih hrest, length_append, length_leBytes, hr, length_cons]
      omega
  rw [height _ fun r hr => h r (hperm.mem_iff.mp hr), hperm.length_eq]

section

open HeapBuilder

variable {heap : HeapBuilder} {cells : Bytes}

/-- The header of the tree and its leaf, once the header names the leaf. What was there stays. -/
theorem tree_spec {root leaf : Nat} {rooted leaved done : HeapBuilder} (hpacked : heap.Packed)
    (hroot : heap.tryAlloc (bthHeader 2 6) = .ok (root, rooted))
    (hleaf : rooted.tryAlloc cells = .ok (leaf, leaved))
    (hpatch : leaved.patchU32 root 4 leaf = .ok done) :
    done.Packed ∧ root = (heap.allocations.length + 1) <<< 5 ∧
      done.allocations.length = heap.allocations.length + 2 ∧
      cells.length ≤ done.data.length ∧ done.data.length ≤ maxBlockData ∧
      done.Has root ((bthHeader 2 6).take 4 ++ leBytes 4 leaf) ∧ done.Has leaf cells ∧
      ∀ hid cells, heap.Has hid cells → done.Has hid cells := by
  obtain ⟨hgrown, hhid, hat, hlen, hallocs, -⟩ := tryAlloc_spec hroot hpacked
  obtain ⟨hgrown', hhid', hat', hlen', hallocs', hroom⟩ := tryAlloc_spec hleaf hgrown.packed
  have hheader : (bthHeader 2 6).length = 8 := by decide
  rw [hheader] at hlen hallocs
  -- the header's place is known, so the patch goes into its last four bytes
  have hspan : leaved.allocations[(root >>> 5) - 1]?
      = some (heap.data.length, heap.data.length + 8) := by
    rw [hhid, Nat.shiftLeft_shiftRight, Nat.add_sub_cancel, hallocs', hallocs, List.append_assoc,
      getElem?_append_right le_rfl, Nat.sub_self]
    rfl
  simp only [patchU32, hspan] at hpatch
  rw [if_neg (by omega)] at hpatch
  cases hpatch
  have hplaces := congrArg List.length hallocs
  have hplaces' := congrArg List.length hallocs'
  rw [List.length_append, length_singleton] at hplaces hplaces'
  have hsize : (patchBytes leaved.data (heap.data.length + 4) (leBytes 4 leaf)).length
      = leaved.data.length := by
    rw [patchBytes, length_overwrite, length_leBytes]
    omega
  have hnow := hgrown'.kept _ _ _ hat
  refine ⟨⟨by rw [hsize]; exact hgrown'.packed.full, by rw [hsize]; exact hgrown'.packed.header⟩, hhid,
    by show leaved.allocations.length = _; omega, by rw [hsize]; omega, by rw [hsize]; omega,
    ⟨_, heap.data.length, hhid, hnow.starts, ?_, hnow.header, ?_, ?_⟩,
    ⟨_, _, hhid', hat'.patched (.inr ?_)⟩, fun hid cells ⟨i, start, heq, hin⟩ => ?_⟩
  · rw [List.length_append, length_leBytes]
    exact hnow.ends
  · rw [List.length_append, length_leBytes, hsize]
    exact hnow.inside
  · have hcells := hnow.cells
    rw [← take_append_drop 4 (bthHeader 2 6), Holds.append] at hcells
    exact Holds.append.mpr ⟨hcells.1.overwrite (.inl le_rfl), holds_overwrite⟩
  · simp only
    omega
  · have := hin.inside
    exact ⟨i, start, heq,
      ((hgrown.trans hgrown').kept i start cells hin).patched (.inl (by simp only; omega))⟩

/-- The heap of a property context holds a record of each property. -/
theorem holdsProps_finalize {props : List (Nat × PcValue)} {root : Nat}
    (h : buildPcV2 (.new 0x6C) props = .ok (root, heap)) : HoldsProps (heap.finalize root) props := by
  obtain ⟨⟨records, filled⟩, hrecords, h⟩ := bind_eq_ok.mp h
  obtain ⟨⟨top, rooted⟩, hroot, h⟩ := bind_eq_ok.mp h
  obtain ⟨⟨leaf, leaved⟩, hleaf, h⟩ := bind_eq_ok.mp h
  obtain ⟨done, hpatch, h⟩ := bind_eq_ok.mp h
  cases h
  obtain ⟨hgrown, hids, hsix, hvalues⟩ := encodeRecords_spec hrecords ⟨rfl, le_rfl⟩
  obtain ⟨hpacked, htop, hplaces, hcells, hroom, hhead, hleaf, hkept⟩ :=
    tree_spec hgrown.packed hroot hleaf hpatch
  have hrecs := congrArg List.length hids
  rw [List.length_map, List.length_map] at hrecs
  rw [length_leaf hsix, hrecs] at hcells
  have hcount := hgrown.count
  have hmax : maxBlockData = 8176 := rfl
  have hnew : (HeapBuilder.new 0x6C).allocations.length = 0 := rfl
  have hlt : root < 2 ^ 32 := by
    rw [htop, Nat.shiftLeft_eq]
    omega
  have hfound {hid : Nat} {cells : Bytes} (hhas : heap.Has hid cells) :
      allocated (heap.finalize root) hid = some cells :=
    allocated_finalize hpacked (by omega) (by omega) hlt hhas
  refine ⟨leaf, sortRecords records, ?_, hfound hleaf, ?_, ?_, fun prop hprop => ?_⟩
  · rw [(finalize_spec hpacked (by omega) hlt).2.1]
    exact hfound hhead
  · rw [sortRecords, map_sortBy compare fst]
    exact (pairwise_sortBy compare _).imp Nat.isLE_compare.mp
  · rw [← hids]
    exact (sortBy_perm _ records).map _
  · obtain ⟨record, hmem, hof⟩ := hvalues prop hprop
    exact ⟨record, (sortBy_perm _ records).mem_iff.mpr hmem,
      hof.mono fun hid cells hhas => hfound (hkept hid cells hhas)⟩

end

end PstWriter
