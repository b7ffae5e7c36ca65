import PstDedupe.Foundations.Unfolding
import PstDedupe.PstReader.BthLookup

/-!
# How often a tree on heap is read (`pst-reader/src/ltp/bth.rs`)

`collect_level` goes down as many levels as the header says and follows every HID it finds; it keeps
no set of what it has read.
-/

namespace PstReader

open Foundations Rust List Prod

def returns {α : Type} (m : Reader α) : Bool :=
  match m.run with
  | .ok (.ok _) => true
  | _ => false

theorem returns_iff {α : Type} {m : Reader α} : returns m = true ↔ ∃ a, m = pure a := by
  unfold returns
  split
  · next a h => exact iff_of_true rfl ⟨a, h⟩
  · next h =>
    refine iff_of_false (by simp) ?_
    rintro ⟨a, rfl⟩
    exact h a rfl

theorem mapM_returns_iff {α β : Type} {f : α → Reader β} {xs : List α} :
    (∃ ys, xs.mapM f = pure ys) ↔ ∀ x ∈ xs, ∃ y, f x = pure y := by
  simp only [mapM_eq_pure_iff]
  constructor
  · rintro ⟨ys, h⟩ x hx
    obtain ⟨y, _, hy⟩ := exists_right_of_forall₂ h hx
    exact ⟨y, hy⟩
  · intro h
    induction xs with
    | nil => exact ⟨[], .nil⟩
    | cons x xs ih =>
      obtain ⟨y, hy⟩ := h x mem_cons_self
      obtain ⟨ys, hys⟩ := ih fun z hz => h z (mem_cons_of_mem _ hz)
      exact ⟨y :: ys, .cons hy hys⟩

/-- The reads of the loop over the children: the first that fails ends it. -/
def logCells (log : Hid → List Hid) (ok : Hid → Bool) : List Hid → List Hid
  | [] => []
  | hid :: hids => log hid ++ if ok hid then logCells log ok hids else []

theorem filter_logCells {log log' : Hid → List Hid} {ok : Hid → Bool}
    (hnull : ∀ hid : Hid, hid.isNull = true → (log hid).filter (fun hid => !hid.isNull) = [] ∧ ok hid = true)
    (hlog : ∀ hid : Hid, hid.isNull = false → (log hid).filter (fun hid => !hid.isNull) = log' hid)
    (hids : List Hid) : (logCells log ok hids).filter (fun hid => !hid.isNull) =
      (follow ok (hids.filter fun hid => !hid.isNull)).flatMap log' := by
  induction hids with
  | nil => rfl
  | cons hid hids ih =>
    unfold logCells
    rw [filter_append]
    cases h : hid.isNull with
    | true => rw [(hnull hid h).1, (hnull hid h).2, filter_cons_of_neg (by simp [h]), nil_append, if_pos rfl, ih]
    | false =>
      rw [hlog hid h, filter_cons_of_pos (by simp [h]), follow, flatMap_cons]
      split
      · rw [ih]
      · rfl

variable [PointerWidth]

def cellHids (header : BthHeader) (data : Slice) : List Hid :=
  (range (data.len / (header.cbKey.toNat + 4))).map (cellChild data header.cbKey.toNat)

def readLog (heap : Heap) (header : BthHeader) : Nat → Hid → List Hid
  | 0, hid => [hid]
  | level + 1, hid => hid ::
    match (heap.get hid).run with
    | .ok (.ok data) =>
      logCells (readLog heap header level)
        (fun child => returns (collectLevel heap header level child)) (cellHids header data)
    | _ => []

def allocationsRead (heap : Heap) (header : BthHeader) : List Hid :=
  (readLog heap header header.bIdxLevels.toNat header.hidRoot).filter fun hid => !hid.isNull

/-- No allocation is read twice, and the records are not more than the heap has room for. -/
def ReadsOnce (heap : Heap) (header : BthHeader) : Prop :=
  (allocationsRead heap header).Nodup ∧ ∀ records, collectRecords heap header = pure records →
    records.length ≤ heap.data.len / header.recordSize

/-- The allocations that an index node names, if it can be read. -/
def indexEntries (heap : Heap) (header : BthHeader) (hid : Hid) : Option (List Hid) :=
  match (heap.get hid).run with
  | .ok (.ok data) => some ((cellHids header data).filter fun child => !child.isNull)
  | _ => none

def leafRecords (heap : Heap) (header : BthHeader) : Nat × Hid → Nat
  | (0, hid) =>
    match (heap.get hid).run with
    | .ok (.ok data) => (leafCells header data).length
    | _ => 0
  | (_ + 1, _) => 0

/-- The bytes of the heap that make up an allocation. -/
def Heap.positions (heap : Heap) (hid : Hid) : List Nat :=
  match (heap.get hid).run with
  | .ok (.ok data) => range' (heap.start hid) data.len
  | _ => []

/-- The page map has the leaves that are reached at bytes of their own. -/
def LeavesApart (heap : Heap) (header : BthHeader) : Prop :=
  ∀ x y, Reaches (indexEntries heap header) header.bIdxLevels.toNat header.hidRoot (0, x) →
    Reaches (indexEntries heap header) header.bIdxLevels.toNat header.hidRoot (0, y) → x ≠ y →
      (heap.positions x).Disjoint (heap.positions y)

variable {heap : Heap} {header : BthHeader} {level : Nat} {hid : Hid}

theorem get_cases (heap : Heap) (hid : Hid) :
    (∃ data, heap.get hid = pure data) ∨ ∀ data, (heap.get hid).run ≠ .ok (.ok data) := by
  by_cases h : ∃ data, heap.get hid = pure data
  · exact .inl h
  · exact .inr fun data hdata => h ⟨data, hdata⟩

theorem get_null (h : hid.isNull = true) : heap.get hid = pure .empty := if_pos h

theorem cellHids_empty : cellHids header .empty = [] := by
  show (range (0 / _)).map _ = []
  rw [Nat.zero_div]
  rfl

theorem indexEntries_of_get {data : Slice} (h : heap.get hid = pure data) :
    indexEntries heap header hid = some ((cellHids header data).filter fun child => !child.isNull) := by
  unfold indexEntries
  rw [h]
  rfl

theorem indexEntries_of_fails (h : ∀ data, (heap.get hid).run ≠ .ok (.ok data)) :
    indexEntries heap header hid = none := by
  unfold indexEntries
  split
  · next data hdata => exact absurd hdata (h data)
  · rfl

theorem bthTreeAt_null (level : Nat) (h : hid.isNull = true) :
    bthTreeAt heap header level hid = pure (LevelTree.empty level) := by
  have hzero : ∀ n, Slice.empty.len / n = 0 := fun n => Nat.zero_div n
  cases level with
  | zero =>
    unfold bthTreeAt leafCells
    rw [get_null h, pure_bind, hzero]
    split <;> rfl
  | succ level =>
    unfold bthTreeAt
    rw [get_null h, pure_bind, hzero]
    rfl

theorem fails_of_bthTreeAt (hfails : ∀ data, (heap.get hid).run ≠ .ok (.ok data))
    (t : LevelTree Slice Slice level) : bthTreeAt heap header level hid ≠ pure t := by
  intro ht
  cases level with
  | zero | succ _ =>
    obtain ⟨data, hdata, _⟩ := bind_eq_pure.mp ht
    exact hfails data (congrArg ExceptT.run hdata)

theorem bthTreeAt_succ {data : Slice} (hdata : heap.get hid = pure data) :
    (∃ t, bthTreeAt heap header (level + 1) hid = pure t) ↔
      ∀ child ∈ cellHids header data, ∃ t, bthTreeAt heap header level child = pure t := by
  rw [bthTreeAt, hdata, pure_bind, cellHids, forall_mem_map]
  constructor
  · rintro ⟨t, ht⟩ i hi
    obtain ⟨entries, hentries, _⟩ := bind_eq_pure.mp ht
    obtain ⟨e, he⟩ := mapM_returns_iff.mp ⟨entries, hentries⟩ i hi
    obtain ⟨sub, hsub, _⟩ := bind_eq_pure.mp he
    exact ⟨sub, hsub⟩
  · intro h
    refine (mapM_returns_iff.mpr fun i hi => ?_).elim fun entries hentries =>
      ⟨_, bind_eq_pure.mpr ⟨entries, hentries, rfl⟩⟩
    obtain ⟨sub, hsub⟩ := h i hi
    exact ⟨_, bind_eq_pure.mpr ⟨sub, hsub, rfl⟩⟩

theorem complete_iff : complete (indexEntries heap header) level hid = true ↔
    ∃ t, bthTreeAt heap header level hid = pure t := by
  induction level generalizing hid with
  | zero =>
    unfold complete
    rcases get_cases heap hid with ⟨data, hdata⟩ | hfails
    · rw [indexEntries_of_get hdata]
      exact iff_of_true rfl ⟨_, bind_eq_pure.mpr ⟨data, hdata, rfl⟩⟩
    · rw [indexEntries_of_fails hfails]
      exact iff_of_false (by simp) fun ⟨t, ht⟩ => fails_of_bthTreeAt hfails t ht
  | succ level ih =>
    unfold complete
    rcases get_cases heap hid with ⟨data, hdata⟩ | hfails
    · rw [indexEntries_of_get hdata, bthTreeAt_succ hdata]
      show all _ _ = true ↔ _
      rw [all_eq_true]
      constructor
      · intro h child hchild
        by_cases hnull : child.isNull = true
        · exact ⟨_, bthTreeAt_null level hnull⟩
        · exact ih.mp (h child (List.mem_filter.mpr ⟨hchild, by simp [hnull]⟩))
      · exact fun h child hchild => ih.mpr (h child (List.mem_filter.mp hchild).1)
    · rw [indexEntries_of_fails hfails]
      exact iff_of_false (by simp) fun ⟨t, ht⟩ => fails_of_bthTreeAt hfails t ht

theorem returns_collectLevel :
    returns (collectLevel heap header level hid) = complete (indexEntries heap header) level hid := by
  rw [Bool.eq_iff_iff, returns_iff, complete_iff, collectLevel_eq]
  constructor
  · rintro ⟨records, h⟩
    obtain ⟨t, ht, _⟩ := bind_eq_pure.mp h
    exact ⟨t, ht⟩
  · rintro ⟨t, ht⟩
    exact ⟨_, bind_eq_pure.mpr ⟨t, ht, rfl⟩⟩

theorem filter_readLog_null (h : hid.isNull = true) :
    (readLog heap header level hid).filter (fun hid => !hid.isNull) = [] := by
  cases level with
  | zero => simp [readLog, h]
  | succ level =>
    unfold readLog
    rw [get_null h]
    show (hid :: logCells _ _ (cellHids header .empty)).filter _ = []
    rw [cellHids_empty]
    simp [logCells, h]

theorem filter_readLog (h : hid.isNull = false) :
    (readLog heap header level hid).filter (fun hid => !hid.isNull) =
      (visits (indexEntries heap header) level hid).map snd := by
  induction level generalizing hid with
  | zero => simp [readLog, visits, h]
  | succ level ih =>
    unfold readLog visits
    rw [filter_cons_of_pos (by simp [h]), map_cons]
    refine congrArg (hid :: ·) ?_
    rcases get_cases heap hid with ⟨data, hdata⟩ | hfails
    · have hnamed : named (indexEntries heap header) (level + 1, hid) =
          (follow (complete (indexEntries heap header) level)
            ((cellHids header data).filter fun child => !child.isNull)).map fun c => (level, c) := by
        simp only [named, indexEntries_of_get hdata]
      rw [hdata, hnamed, flatMap_map, map_flatMap]
      show (logCells _ _ (cellHids header data)).filter _ = _
      rw [filter_logCells (fun child hchild => ⟨filter_readLog_null hchild, ?_⟩) fun child hchild => ih hchild]
      · simp only [returns_collectLevel]
      · rw [returns_collectLevel, complete_iff]
        exact ⟨_, bthTreeAt_null level hchild⟩
    · have hnamed : named (indexEntries heap header) (level + 1, hid) = [] := by
        simp only [named, indexEntries_of_fails hfails]
      rw [hnamed]
      split
      · next data hdata => exact absurd hdata (hfails data)
      · rfl

theorem leafRecords_of_get {data : Slice} (h : heap.get hid = pure data) :
    leafRecords heap header (0, hid) = (leafCells header data).length := by
  simp only [leafRecords, h]
  rfl

def recordsUnder (heap : Heap) (header : BthHeader) (level : Nat) (hid : Hid) : Nat :=
  ((visits (indexEntries heap header) level hid).map (leafRecords heap header)).sum

theorem sum_children {hids : List Hid} {subs : List (LevelTree Slice Slice level)}
    (h : Forall₂ (fun child sub => bthTreeAt heap header level child = pure sub ∧
      (child.isNull = false → sub.records.length = recordsUnder heap header level child)) hids subs) :
    (subs.map fun sub => sub.records.length).sum =
      ((hids.filter fun child => !child.isNull).map (recordsUnder heap header level)).sum := by
  induction h with
  | nil => rfl
  | @cons child sub _ _ hsub _ ih =>
    cases hnull : child.isNull with
    | true =>
      have hempty := (bthTreeAt_null level hnull).symm.trans hsub.1
      obtain rfl := Except.ok.inj (Except.ok.inj hempty)
      rw [filter_cons_of_neg (by simp [hnull]), map_cons, sum_cons, LevelTree.records_empty, ih]
      exact Nat.zero_add _
    | false =>
      rw [filter_cons_of_pos (by simp [hnull]), map_cons, sum_cons, map_cons, sum_cons,
        hsub.2 hnull, ih]

theorem named_of_complete {data : Slice} (hdata : heap.get hid = pure data)
    (h : complete (indexEntries heap header) (level + 1) hid = true) :
    named (indexEntries heap header) (level + 1, hid) =
      ((cellHids header data).filter fun child => !child.isNull).map fun c => (level, c) := by
  simp only [complete, indexEntries_of_get hdata] at h
  simp only [named, indexEntries_of_get hdata]
  rw [follow_of_all (List.all_eq_true.mp h)]

theorem length_records {t : LevelTree Slice Slice level} (ht : bthTreeAt heap header level hid = pure t) :
    t.records.length = recordsUnder heap header level hid := by
  have hcomplete := complete_iff.mpr ⟨t, ht⟩
  induction level generalizing hid with
  | zero =>
    obtain ⟨data, hdata, hleaf⟩ := bind_eq_pure.mp ht
    cases hleaf
    show (leafCells header data).length = leafRecords heap header (0, hid) + 0
    rw [leafRecords_of_get hdata, Nat.add_zero]
  | succ level ih =>
    rw [bthTreeAt] at ht
    obtain ⟨data, hdata, hrest⟩ := bind_eq_pure.mp ht
    obtain ⟨entries, hentries, hindex⟩ := bind_eq_pure.mp hrest
    cases hindex
    -- the cells and the subtrees read from them
    have hcells : Forall₂ (fun child sub => bthTreeAt heap header level child = pure sub ∧
        (child.isNull = false → sub.records.length = recordsUnder heap header level child))
        (cellHids header data) (entries.map snd) := by
      rw [cellHids, forall₂_map_left_iff, forall₂_map_right_iff]
      refine (mapM_eq_pure_iff.mp hentries).imp fun i e he => ?_
      obtain ⟨sub, hsub, hpair⟩ := bind_eq_pure.mp he
      cases hpair
      exact ⟨hsub, fun _ => ih hsub (complete_iff.mpr ⟨_, hsub⟩)⟩
    have hsum := sum_children hcells
    rw [List.map_map] at hsum
    rw [LevelTree.records_index, length_flatMap]
    refine hsum.trans ?_
    unfold recordsUnder
    rw [visits, map_cons, sum_cons, named_of_complete hdata hcomplete, flatMap_map, map_flatMap,
      flatMap, sum_flatten, List.map_map]
    exact (Nat.zero_add _).symm

theorem allocationsRead_of_root (h : header.hidRoot.isNull = false) : allocationsRead heap header =
    (visits (indexEntries heap header) header.bIdxLevels.toNat header.hidRoot).map snd := filter_readLog h

theorem visits_null (level : Nat) (h : hid.isNull = true) :
    visits (indexEntries heap header) level hid = [(level, hid)] := by
  cases level with
  | zero => rfl
  | succ level =>
    have hnamed : named (indexEntries heap header) (level + 1, hid) = [] := by
      simp only [named, indexEntries_of_get (get_null h), cellHids_empty]
      rfl
    rw [visits, hnamed, flatMap_nil]

theorem recordsUnder_eq_zero (h : header.recordSize = 0) (level : Nat) (hid : Hid) :
    recordsUnder heap header level hid = 0 := by
  refine sum_eq_zero fun n hn => ?_
  obtain ⟨⟨l, x⟩, _, rfl⟩ := List.mem_map.mp hn
  cases l with
  | zero =>
    rcases get_cases heap x with ⟨data, hdata⟩ | hfails
    · rw [leafRecords_of_get hdata, leafCells, if_pos h]
      rfl
    · simp only [leafRecords]
  | succ l => rfl

theorem positions_of_get {data : Slice} (h : heap.get hid = pure data) :
    heap.positions hid = range' (heap.start hid) data.len := by
  unfold Heap.positions
  rw [h]
  rfl

theorem lt_of_mem_positions {i : Nat} (h : i ∈ heap.positions hid) : i < heap.data.len := by
  rcases get_cases heap hid with ⟨data, hdata⟩ | hfails
  · rw [positions_of_get hdata, mem_range'_1] at h
    have hwithin := get_within heap hid
    rw [hdata, safe_pure] at hwithin
    cases hnull : hid.isNull with
    | true =>
      have hempty : data = .empty := Except.ok.inj (Except.ok.inj (hdata.symm.trans (get_null hnull)))
      rw [hempty, show Slice.empty.len = 0 from rfl] at h
      omega
    | false =>
      have hle := (hwithin hnull).1
      omega
  · unfold Heap.positions at h
    split at h
    · next data hdata => exact absurd hdata (hfails data)
    · cases h

def leafPositions (heap : Heap) : Nat × Hid → List Nat
  | (0, hid) => heap.positions hid
  | (_ + 1, _) => []

theorem leafRecords_le (p : Nat × Hid) :
    leafRecords heap header p * header.recordSize ≤ (leafPositions heap p).length := by
  obtain ⟨l, hid⟩ := p
  cases l with
  | succ l => exact (Nat.zero_mul _).le
  | zero =>
    rcases get_cases heap hid with ⟨data, hdata⟩ | hfails
    · rw [leafRecords_of_get hdata, leafPositions, positions_of_get hdata, length_range', leafCells]
      split
      · exact (Nat.zero_mul _).le.trans (Nat.zero_le _)
      · rw [length_map, length_range]
        exact Nat.div_mul_le_self _ _
    · simp only [leafRecords]
      exact (Nat.zero_mul _).le.trans (Nat.zero_le _)

/-- Leaves that are read once, from bytes of their own, have no more records than the heap has room
for. -/
theorem recordsUnder_le
    (hnodup : ((visits (indexEntries heap header) header.bIdxLevels.toNat header.hidRoot).map snd).Nodup)
    (hapart : LeavesApart heap header) :
    recordsUnder heap header header.bIdxLevels.toNat header.hidRoot * header.recordSize ≤ heap.data.len := by
  generalize hwalk : visits (indexEntries heap header) header.bIdxLevels.toNat header.hidRoot = walk at hnodup
  have hdisjoint : walk.Pairwise fun p q => (leafPositions heap p).Disjoint (leafPositions heap q) := by
    refine (List.pairwise_map.mp hnodup).imp_of_mem ?_
    rintro ⟨l, x⟩ ⟨m, y⟩ hx hy hne
    cases l with
    | succ l => exact disjoint_nil_left _
    | zero =>
      cases m with
      | succ m => exact disjoint_nil_right _
      | zero => exact hapart x y (mem_visits.mp (hwalk ▸ hx)) (mem_visits.mp (hwalk ▸ hy)) hne
  have hpositions : (walk.flatMap (leafPositions heap)).Nodup := by
    refine List.nodup_flatMap.mpr ⟨fun p _ => ?_, hdisjoint⟩
    obtain ⟨l, x⟩ := p
    cases l with
    | succ l => exact nodup_nil
    | zero =>
      show (heap.positions x).Nodup
      unfold Heap.positions
      split
      · exact nodup_range'
      · exact nodup_nil
  have hwithin : walk.flatMap (leafPositions heap) ⊆ range heap.data.len := by
    intro i hi
    obtain ⟨⟨l, x⟩, _, hix⟩ := List.mem_flatMap.mp hi
    cases l with
    | succ l => cases hix
    | zero => exact List.mem_range.mpr (lt_of_mem_positions hix)
  calc recordsUnder heap header header.bIdxLevels.toNat header.hidRoot * header.recordSize
      = (walk.map fun p => leafRecords heap header p * header.recordSize).sum := by
        rw [recordsUnder, hwalk, sum_map_mul_right]
    _ ≤ (walk.map fun p => (leafPositions heap p).length).sum := sum_le_sum fun p _ => leafRecords_le p
    _ = (walk.flatMap (leafPositions heap)).length := List.length_flatMap.symm
    _ ≤ (range heap.data.len).length := (hpositions.subperm hwithin).length_le
    _ = heap.data.len := length_range

theorem records_le
    (hnodup : ((visits (indexEntries heap header) header.bIdxLevels.toNat header.hidRoot).map snd).Nodup)
    (hapart : LeavesApart heap header) {records : List BthRecord}
    (hrecords : collectRecords heap header = pure records) :
    records.length ≤ heap.data.len / header.recordSize := by
  have htree : bthTree heap header = bthTreeAt heap header header.bIdxLevels.toNat header.hidRoot := by
    unfold bthTree
    split
    · next h => exact (bthTreeAt_null _ h).symm
    · rfl
  rw [collectRecords_eq, htree] at hrecords
  obtain ⟨t, ht, hmap⟩ := bind_eq_pure.mp hrecords
  obtain rfl := Except.ok.inj (Except.ok.inj hmap)
  rw [length_map, length_records ht]
  rcases Nat.eq_zero_or_pos header.recordSize with hzero | hpos
  · rw [recordsUnder_eq_zero hzero]
    exact Nat.zero_le _
  · exact (Nat.le_div_iff_mul_le hpos).mpr (recordsUnder_le hnodup hapart)

theorem allocationsRead_nodup_iff : (allocationsRead heap header).Nodup ↔
    ((visits (indexEntries heap header) header.bIdxLevels.toNat header.hidRoot).map snd).Nodup := by
  cases h : header.hidRoot.isNull with
  | true =>
    rw [visits_null _ h, allocationsRead, filter_readLog_null h]
    exact iff_of_true nodup_nil (nodup_singleton _)
  | false => rw [allocationsRead_of_root h]

/-- **When `collect_records` reads every allocation once.** The index entries it follows have to
form a tree: none names the root, none names a node that another names. Then, where the page map
keeps the leaves apart, the records fit the heap as well. -/
theorem readsOnce_iff (heap : Heap) (header : BthHeader) :
    ((allocationsRead heap header).Nodup ↔
      TreeShaped (indexEntries heap header) header.bIdxLevels.toNat header.hidRoot) ∧
    (LeavesApart heap header → (ReadsOnce heap header ↔
      TreeShaped (indexEntries heap header) header.bIdxLevels.toNat header.hidRoot)) := by
  have hreads := (@allocationsRead_nodup_iff _ heap header).trans visits_nodup_iff
  refine ⟨hreads, fun hapart => ⟨fun h => hreads.mp h.1, fun htree => ⟨hreads.mpr htree,
    fun records hrecords => ?_⟩⟩⟩
  exact records_le (visits_nodup_iff.mpr htree) hapart hrecords

end PstReader

namespace PstReader

open Foundations Rust List Prod

section Sample

local instance visitWidth : PointerWidth := ⟨64, bits64_ge⟩

def sharedLeafBytes : Bytes :=
  [27, 0, 0xEC, 0xB5, 0, 0, 0, 0, 0, 0, 0, 0] ++
    [1, 0, 7] ++ [1, 0, 32, 0, 0, 0, 2, 0, 32, 0, 0, 0] ++ [2, 0, 0, 0, 12, 0, 15, 0, 27, 0]

def sharedLeafHeap : Heap where
  data := ⟨sharedLeafBytes, by decide⟩
  blockSize := 37
  header := ⟨27, 0xEC, 0xB5, ⟨0⟩, 0⟩
  blockSize_le := by decide
  ibHnpm_lt := by decide

theorem readsTwice_sharedLeafHeap : ¬ ReadsOnce sharedLeafHeap ⟨0xB5, 2, 1, 1, ⟨64⟩⟩ := by
  intro h
  have hread : allocationsRead sharedLeafHeap ⟨0xB5, 2, 1, 1, ⟨64⟩⟩ = [⟨64⟩, ⟨32⟩, ⟨32⟩] := by decide +kernel
  have hnodup := h.1
  rw [hread] at hnodup
  exact absurd hnodup (by decide)

/-- The same heap with a leaf for each entry. -/
def twoLeafHeap : Heap where
  data := ⟨[33, 0, 0xEC, 0xB5, 0, 0, 0, 0, 0, 0, 0, 0] ++ [1, 0, 7] ++ [2, 0, 9, 3, 0, 8] ++
    [1, 0, 32, 0, 0, 0, 2, 0, 64, 0, 0, 0] ++ [3, 0, 0, 0, 12, 0, 15, 0, 21, 0, 33, 0], by decide⟩
  blockSize := 45
  header := ⟨33, 0xEC, 0xB5, ⟨0⟩, 0⟩
  blockSize_le := by decide
  ibHnpm_lt := by decide

theorem readsOnce_iff_twoLeafHeap : ReadsOnce twoLeafHeap ⟨0xB5, 2, 1, 1, ⟨96⟩⟩ := by
  obtain ⟨hreads, hrecords⟩ := readsOnce_iff twoLeafHeap ⟨0xB5, 2, 1, 1, ⟨96⟩⟩
  refine (hrecords fun x y hx hy hne => ?_).mpr (hreads.mp (by decide +kernel))
  have hwalk : visits (indexEntries twoLeafHeap ⟨0xB5, 2, 1, 1, ⟨96⟩⟩) 1 ⟨96⟩
      = [(1, ⟨96⟩), (0, ⟨32⟩), (0, ⟨64⟩)] := by decide +kernel
  have hpositions : twoLeafHeap.positions ⟨32⟩ = [12, 13, 14] ∧
      twoLeafHeap.positions ⟨64⟩ = [15, 16, 17, 18, 19, 20] := by decide +kernel
  have hleaf : ∀ z, (0, z) ∈ [((1 : Nat), (⟨96⟩ : Hid)), (0, ⟨32⟩), (0, ⟨64⟩)] → z = ⟨32⟩ ∨ z = ⟨64⟩ := by simp
  rcases hleaf x (hwalk ▸ mem_visits.mpr hx) with
    rfl | rfl <;> rcases hleaf y (hwalk ▸ mem_visits.mpr hy) with rfl | rfl
  · exact absurd rfl hne
  · rw [hpositions.1, hpositions.2]
    simp [List.Disjoint]
  · rw [hpositions.1, hpositions.2]
    simp [List.Disjoint]
  · exact absurd rfl hne

end Sample

end PstReader
