import PstDedupe.Foundations.Chunks
import PstDedupe.Foundations.Gathering
import PstDedupe.Rust.Std

/-!
# The order of a production (`order_ids_family_together` of `matter-core/src/matter.rs`)

The rows of the ids are looked up 400 at a time into a hash map; the ids are then walked, and the
first one of a family brings the whole family that is left, sorted.
-/

namespace MatterCore.FamilyOrder

open Rust Foundations List Option

structure ItemRow where
  id : String
  matterId : String
  familyId : Option String := none
  parentItemId : Option String := none
  reviewOrder : Option Int := none
  deriving DecidableEq, Repr

/-- The `items` table: `id` is its primary key. -/
structure ItemTable where
  rows : List ItemRow
  keyed : (rows.map ItemRow.id).Nodup

structure Meta where
  familyId : Option String
  parentItemId : Option String
  reviewOrder : Option Int
  deriving DecidableEq, Repr

def ItemRow.meta (r : ItemRow) : Meta := ⟨r.familyId, r.parentItemId, r.reviewOrder⟩

namespace ItemTable

/-- `SELECT .. FROM items WHERE matter_id = ?1 AND id IN (..)`. -/
def selectMeta (items : ItemTable) (matter : String) (chunk : List String) : List (String × Meta) :=
  (items.rows.filter fun r => r.matterId = matter ∧ r.id ∈ chunk).map fun r => (r.id, r.meta)

def metaChunk : Nat := 400

def readMeta (items : ItemTable) (matter : String) (ids : List String) : HashMap String Meta :=
  (chunks metaChunk ids).foldl (fun metas chunk => HashMap.insertAll (items.selectMeta matter chunk) metas) ∅

end ItemTable

def compareMembers (metas : HashMap String Meta) (a b : String) : Ordering :=
  let ma := metas.get a
  let mb := metas.get b
  let aParent := (ma.bind Meta.parentItemId).isNone
  let bParent := (mb.bind Meta.parentItemId).isNone
  match aParent, bParent with
  | true, false => .lt
  | false, true => .gt
  | _, _ =>
    match ma.bind Meta.reviewOrder, mb.bind Meta.reviewOrder with
    | none, some _ => .gt
    | some _, none => .lt
    | some x, some y => (compare x y).then (compare a b)
    | none, none => compare a b

section

variable [RandomState]

def openGroup (metas : HashMap String Meta) (remaining : List String) (id : String) : List String :=
  match (metas.get id).bind Meta.familyId with
  | some fid =>
    ((RandomState.visit metas.entries).filter fun m => m.1 ∈ remaining ∧ m.2.familyId = some fid).map Sigma.fst
  | none => [id]

def takeGroups (metas : HashMap String Meta) : List String → List String → List String
  | [], _ => []
  | id :: ids, remaining =>
    if id ∈ remaining then
      let group := sortBy (compareMembers metas) (openGroup metas remaining id)
      group ++ takeGroups metas ids (remaining.filter fun gid => gid ∉ group)
    else takeGroups metas ids remaining

def orderIdsFamilyTogether (items : ItemTable) (matter : String) (ids : List String) : List String :=
  if ids = [] then []
  else
    let metas := items.readMeta matter ids
    takeGroups metas ids metas.keys

end

variable {items : ItemTable} {matter : String} {ids : List String} {id : String} {m : Meta}

namespace ItemTable

def metaOf (items : ItemTable) (matter id : String) : Option Meta :=
  (items.rows.find? fun r => r.id = id ∧ r.matterId = matter).map ItemRow.meta

def Known (items : ItemTable) (matter id : String) : Prop := ∃ r ∈ items.rows, r.id = id ∧ r.matterId = matter

instance (items : ItemTable) (matter id : String) : Decidable (items.Known matter id) :=
  inferInstanceAs (Decidable (∃ r ∈ items.rows, _))

theorem eq_of_id_eq (items : ItemTable) {r r' : ItemRow} (hr : r ∈ items.rows)
    (hr' : r' ∈ items.rows) (h : r.id = r'.id) : r = r' :=
  inj_on_of_nodup_map items.keyed hr hr' h

theorem metaOf_eq_some_iff :
    items.metaOf matter id = some m ↔ ∃ r ∈ items.rows, r.id = id ∧ r.matterId = matter ∧ r.meta = m := by
  unfold metaOf
  constructor
  · intro h
    rw [map_eq_some_iff] at h
    obtain ⟨r, hfind, hm⟩ := h
    have hr := find?_some hfind
    simp only [decide_eq_true_eq] at hr
    exact ⟨r, mem_of_find?_eq_some hfind, hr.1, hr.2, hm⟩
  · intro h
    obtain ⟨r, hr, hid, hmatter, hm⟩ := h
    have hsome : (items.rows.find? fun r => r.id = id ∧ r.matterId = matter).isSome := by
      rw [find?_isSome]
      exact ⟨r, hr, by simp [hid, hmatter]⟩
    obtain ⟨r', hr'⟩ := Option.isSome_iff_exists.mp hsome
    have hid' := find?_some hr'
    simp only [decide_eq_true_eq] at hid'
    have heq := items.eq_of_id_eq (mem_of_find?_eq_some hr') hr (hid'.1.trans hid.symm)
    rw [hr', heq, map_some, hm]

theorem mem_selectMeta {chunk : List String} :
    (id, m) ∈ items.selectMeta matter chunk ↔ id ∈ chunk ∧ items.metaOf matter id = some m := by
  rw [metaOf_eq_some_iff, selectMeta]
  simp only [List.mem_map, mem_filter, decide_eq_true_eq, Prod.mk.injEq]
  constructor
  · intro h
    obtain ⟨r, ⟨hr, hmatter, hchunk⟩, hid, hm⟩ := h
    exact ⟨hid ▸ hchunk, r, hr, hid, hmatter, hm⟩
  · intro h
    obtain ⟨hchunk, r, hr, hid, hmatter, hm⟩ := h
    exact ⟨r, ⟨hr, hmatter, hid ▸ hchunk⟩, hid, hm⟩

theorem readMeta_eq (items : ItemTable) (matter : String) (ids : List String) :
    items.readMeta matter ids
      = HashMap.insertAll ((chunks metaChunk ids).flatMap (items.selectMeta matter)) ∅ := by
  unfold readMeta HashMap.insertAll
  rw [foldl_flatMap]

theorem get_readMeta :
    (items.readMeta matter ids).get id = some m ↔ id ∈ ids ∧ items.metaOf matter id = some m := by
  have hmem : ∀ m, (id, m) ∈ (chunks metaChunk ids).flatMap (items.selectMeta matter) ↔
      id ∈ ids ∧ items.metaOf matter id = some m := by
    intro m
    have hids : id ∈ ids ↔ ∃ chunk ∈ chunks metaChunk ids, id ∈ chunk := by
      rw [← mem_flatten, flatten_chunks (by decide)]
    rw [mem_flatMap, hids]
    simp only [mem_selectMeta]
    tauto
  rw [readMeta_eq]
  constructor
  · intro h
    exact (hmem m).mp (HashMap.mem_of_get_insertAll h)
  · intro h
    obtain ⟨m', hm'⟩ := HashMap.isSome_get_insertAll (List.mem_map_of_mem (f := Prod.fst) ((hmem m).mpr h))
    have heq := ((hmem m').mp (HashMap.mem_of_get_insertAll hm')).2
    rw [h.2] at heq
    rw [hm', heq]

theorem mem_keys_readMeta : id ∈ (items.readMeta matter ids).keys ↔ id ∈ ids ∧ items.Known matter id := by
  rw [← AList.mem_keys, ← AList.lookup_isSome, isSome_iff_exists]
  show (∃ m, (items.readMeta matter ids).get id = some m) ↔ _
  simp only [get_readMeta, metaOf_eq_some_iff, Known]
  constructor
  · intro h
    obtain ⟨m, hid, r, hr, hrid, hmatter, -⟩ := h
    exact ⟨hid, r, hr, hrid, hmatter⟩
  · intro h
    obtain ⟨hid, r, hr, hrid, hmatter⟩ := h
    exact ⟨r.meta, hid, r, hr, hrid, hmatter, rfl⟩

end ItemTable

/-- `review_order` with `NULL` last. -/
def OrderBefore : Option Int → Option Int → Prop
  | some x, some y => x < y
  | some _, none => True
  | none, _ => False

def rankOf (m : Option Meta) : Nat × Nat × Int :=
  (if (m.bind Meta.parentItemId).isNone then 0 else 1,
    if (m.bind Meta.reviewOrder).isNone then 1 else 0, (m.bind Meta.reviewOrder).getD 0)

theorem compareMembers_eq (metas : HashMap String Meta) :
    compareMembers metas = compareLex (compareOn fun id => (rankOf (metas.get id)).1)
      (compareLex (compareOn fun id => (rankOf (metas.get id)).2.1)
        (compareLex (compareOn fun id => (rankOf (metas.get id)).2.2) compare)) := by
  funext a b
  simp only [compareMembers, compareLex, compareOn, rankOf]
  generalize (metas.get a).bind Meta.parentItemId = pa
  generalize (metas.get b).bind Meta.parentItemId = pb
  generalize (metas.get a).bind Meta.reviewOrder = oa
  generalize (metas.get b).bind Meta.reviewOrder = ob
  cases pa <;> cases pb <;> cases oa <;> cases ob <;> rfl

instance (metas : HashMap String Meta) : Std.TransCmp (compareMembers metas) := by
  rw [compareMembers_eq]
  infer_instance

instance (metas : HashMap String Meta) : Std.LawfulEqCmp (compareMembers metas) where
  eq_of_compare {a b} h := by
    simp only [compareMembers_eq, compareLex_eq_eq] at h
    exact Std.LawfulEqCmp.eq_of_compare h.2.2.2

namespace ItemTable

inductive Group where
  | family (familyId : String)
  | single (id : String)
  deriving DecidableEq, Repr

def groupOf (items : ItemTable) (matter id : String) : Group :=
  match (items.metaOf matter id).bind Meta.familyId with
  | some fid => .family fid
  | none => .single id

theorem groupOf_eq_family_iff {fid : String} :
    items.groupOf matter id = .family fid ↔ (items.metaOf matter id).bind Meta.familyId = some fid := by
  unfold groupOf
  split
  · rename_i fid' h
    rw [h, Group.family.injEq, Option.some.injEq]
  · rename_i h
    simp [h]

theorem groupOf_eq_single_iff {x : String} :
    items.groupOf matter x = .single id ↔ (items.metaOf matter x).bind Meta.familyId = none ∧ x = id := by
  unfold groupOf
  split
  · rename_i fid h
    simp [h]
  · rename_i h
    rw [h, Group.single.injEq]
    simp

def parentless (items : ItemTable) (matter id : String) : Bool :=
  ((items.metaOf matter id).bind Meta.parentItemId).isNone

def reviewOrderOf (items : ItemTable) (matter id : String) : Option Int :=
  (items.metaOf matter id).bind Meta.reviewOrder

def Ahead (items : ItemTable) (matter a b : String) : Prop :=
  (items.parentless matter a = true ∧ items.parentless matter b = false) ∨
  (items.parentless matter a = items.parentless matter b ∧
    (OrderBefore (items.reviewOrderOf matter a) (items.reviewOrderOf matter b) ∨
      (items.reviewOrderOf matter a = items.reviewOrderOf matter b ∧ a < b)))

def firstOccurrence (items : ItemTable) (matter : String) (ids : List String) (g : Group) : Nat :=
  ids.findIdx fun id => items.Known matter id ∧ items.groupOf matter id = g

/-- The known ids once each, with the families in one piece and in the order the input names
them. -/
structure FamilyOrdered (items : ItemTable) (matter : String) (ids out : List String) : Prop where
  perm : out.Perm (ids.dedup.filter fun id => items.Known matter id)
  contiguous : ∀ a b c, [a, b, c].Sublist out → items.groupOf matter a = items.groupOf matter c →
    items.groupOf matter b = items.groupOf matter a
  ordered : out.Pairwise
    (Gathered (items.groupOf matter) (items.Ahead matter) (items.firstOccurrence matter ids))

end ItemTable

theorem ahead_of_compareMembers {metas : HashMap String Meta} {a b : String}
    (ha : metas.get a = items.metaOf matter a) (hb : metas.get b = items.metaOf matter b)
    (h : compareMembers metas a b = .lt) : items.Ahead matter a b := by
  simp only [compareMembers, ha, hb] at h
  unfold ItemTable.Ahead ItemTable.parentless ItemTable.reviewOrderOf
  generalize ((items.metaOf matter a).bind Meta.parentItemId).isNone = pa at h ⊢
  generalize ((items.metaOf matter b).bind Meta.parentItemId).isNone = pb at h ⊢
  generalize (items.metaOf matter a).bind Meta.reviewOrder = oa at h ⊢
  generalize (items.metaOf matter b).bind Meta.reviewOrder = ob at h ⊢
  cases pa <;> cases pb <;> cases oa <;> cases ob <;>
    simp_all [OrderBefore, Ordering.then_eq_lt, compare_lt_iff_lt]

section

variable {metas : HashMap String Meta} {remaining : List String}

structure Loaded (items : ItemTable) (matter : String) (metas : HashMap String Meta)
    (remaining : List String) :
    Prop where
  known : ∀ id ∈ remaining, id ∈ metas.keys
  nodup : remaining.Nodup
  get : ∀ id ∈ metas.keys, metas.get id = items.metaOf matter id

theorem loaded_readMeta (items : ItemTable) (matter : String) (ids : List String) :
    Loaded items matter (items.readMeta matter ids) (items.readMeta matter ids).keys where
  known _ h := h
  nodup := (items.readMeta matter ids).keys_nodup
  get id h := by
    rw [← AList.mem_keys, ← AList.lookup_isSome, isSome_iff_exists] at h
    obtain ⟨m, hm⟩ := h
    rw [(ItemTable.get_readMeta.mp hm).2]
    exact hm

variable (h : Loaded items matter metas remaining)

include h

theorem openGroup_perm [RandomState] (hid : id ∈ remaining) : (openGroup metas remaining id).Perm
      (remaining.filter fun x => items.groupOf matter x = items.groupOf matter id) := by
  have hget : ∀ x ∈ remaining, metas.get x = items.metaOf matter x := fun x hx => h.get x (h.known x hx)
  unfold openGroup
  rw [hget id hid]
  cases hfid : (items.metaOf matter id).bind Meta.familyId with
  | none =>
    refine (perm_ext_iff_of_nodup (nodup_singleton id) (h.nodup.filter _)).mpr fun x => ?_
    simp only [mem_singleton, mem_filter, decide_eq_true_eq,
      ItemTable.groupOf_eq_single_iff.mpr ⟨hfid, rfl⟩, ItemTable.groupOf_eq_single_iff]
    constructor
    · rintro rfl
      exact ⟨hid, hfid, rfl⟩
    · exact fun hx => hx.2.2
  | some fid =>
    have hnodup : (((RandomState.visit metas.entries).filter fun m => m.1 ∈ remaining ∧
        m.2.familyId = some fid).map
        Sigma.fst).Nodup := by
      have hkeys : ((RandomState.visit metas.entries).map Sigma.fst).Nodup :=
        ((RandomState.visit_perm metas.entries).map Sigma.fst).nodup_iff.mpr metas.keys_nodup
      exact hkeys.sublist ((filter_sublist).map _)
    refine (perm_ext_iff_of_nodup hnodup (h.nodup.filter _)).mpr fun x => ?_
    simp only [List.mem_map, mem_filter, decide_eq_true_eq, ItemTable.groupOf_eq_family_iff.mpr hfid,
      ItemTable.groupOf_eq_family_iff, (RandomState.visit_perm metas.entries).mem_iff]
    constructor
    · rintro ⟨⟨x, m⟩, ⟨hm, hx, hmfid⟩, rfl⟩
      refine ⟨hx, ?_⟩
      have hlookup : metas.get x = some m := AList.mem_lookup_iff.mpr hm
      rw [← hget x hx, hlookup]
      exact hmfid
    · intro hx
      obtain ⟨m, hm, hmfid⟩ := Option.bind_eq_some_iff.mp hx.2
      rw [← hget x hx.1] at hm
      exact ⟨⟨x, m⟩, ⟨AList.mem_lookup_iff.mp hm, hx.1, hmfid⟩, rfl⟩

omit h in
theorem Loaded.filter (h : Loaded items matter metas remaining) (p : String → Bool) :
    Loaded items matter metas (remaining.filter p) where
  known id hid := h.known id (List.mem_filter.mp hid).1
  nodup := h.nodup.filter p
  get := h.get

theorem takeGroups_eq_gather [RandomState] :
    takeGroups metas ids remaining
      = gather (items.groupOf matter) (sortBy (compareMembers metas)) ids remaining := by
  induction ids generalizing remaining with
  | nil => rfl
  | cons id ids ih =>
    by_cases hid : id ∈ remaining
    · have hperm := openGroup_perm h hid
      have hsort : sortBy (compareMembers metas) (openGroup metas remaining id) = sortBy (compareMembers metas)
          (remaining.filter fun x => items.groupOf matter x = items.groupOf matter id) :=
            sortBy_eq_of_perm hperm
      have hleft : (remaining.filter fun gid => gid ∉ sortBy (compareMembers metas)
          (openGroup metas remaining id)) =
          remaining.filter fun x => items.groupOf matter x ≠ items.groupOf matter id := by
        refine filter_congr fun x hx => ?_
        have hmem := ((sortBy_perm (compareMembers metas) (openGroup metas remaining id)).trans
          hperm).mem_iff (a := x)
        simp [hmem, hx]
      rw [gather_cons_of_mem hid, takeGroups, if_pos hid]
      show _ ++ takeGroups metas ids _ = _
      rw [hleft, hsort, ih (h.filter _)]
    · rw [gather_cons_of_notMem hid, takeGroups, if_neg hid, ih h]

end

theorem orderIdsFamilyTogether_eq_gather [RandomState] (items : ItemTable) (matter : String)
    (ids : List String) :
    orderIdsFamilyTogether items matter ids =
      gather (items.groupOf matter) (sortBy (compareMembers (items.readMeta matter ids))) ids
        (items.readMeta matter ids).keys := by
  unfold orderIdsFamilyTogether
  split
  · rename_i hnil
    rw [hnil]
    rfl
  · exact takeGroups_eq_gather (loaded_readMeta items matter ids)

theorem placeOf_keys (items : ItemTable) (matter : String) (ids : List String) :
    placeOf (items.groupOf matter) (items.readMeta matter ids).keys ids
      = items.firstOccurrence matter ids := by
  funext g
  unfold placeOf ItemTable.firstOccurrence
  apply Nat.le_antisymm
  · refine findIdx_le_findIdx fun id hid h => ?_
    simp only [decide_eq_true_eq, ItemTable.mem_keys_readMeta] at h ⊢
    exact ⟨⟨hid, h.1⟩, h.2⟩
  · refine findIdx_le_findIdx fun id _ h => ?_
    simp only [decide_eq_true_eq, ItemTable.mem_keys_readMeta] at h ⊢
    exact ⟨h.1.2, h.2⟩

theorem pairwise_compareMembers (metas : HashMap String Meta) {l : List String} (hl : l.Nodup) :
    (sortBy (compareMembers metas) l).Pairwise fun a b => compareMembers metas a b = .lt := by
  have hne := (sortBy_perm (compareMembers metas) l).nodup_iff.mpr hl
  refine (pairwise_sortBy _ l).imp₂ (fun a b hle hab => ?_) hne
  have heq : compareMembers metas a b ≠ .eq := fun heq => hab (Std.LawfulEqCmp.eq_of_compare heq)
  cases hcmp : compareMembers metas a b with
  | lt => rfl
  | eq => exact absurd hcmp heq
  | gt => simp [hcmp] at hle

/-- Families come together in the order of their first known id, with no id lost, added or
doubled. -/
theorem orderIdsFamilyTogether_exact [RandomState] (items : ItemTable) (matter : String) (ids : List String) :
    items.FamilyOrdered matter ids (orderIdsFamilyTogether items matter ids) := by
  have hloaded := loaded_readMeta items matter ids
  have hids : ∀ id ∈ (items.readMeta matter ids).keys, id ∈ ids :=
    fun id hid => (ItemTable.mem_keys_readMeta.mp hid).1
  have hperm := gather_perm (sortBy_perm (compareMembers (items.readMeta matter ids)))
    (items.groupOf matter) hids
  rw [← orderIdsFamilyTogether_eq_gather] at hperm
  have hordered : (orderIdsFamilyTogether items matter ids).Pairwise
      (Gathered (items.groupOf matter) (items.Ahead matter) (items.firstOccurrence matter ids)) := by
    have hgathered := pairwise_gather (items.groupOf matter) (sortBy_perm _)
      (fun l => pairwise_compareMembers (items.readMeta matter ids)) hids hloaded.nodup
    rw [← orderIdsFamilyTogether_eq_gather, placeOf_keys] at hgathered
    refine hgathered.imp_of_mem fun {a b} ha hb hab => ?_
    have hget : ∀ x ∈ orderIdsFamilyTogether items matter ids,
        (items.readMeta matter ids).get x = items.metaOf matter x :=
      fun x hx => hloaded.get x (hperm.mem_iff.mp hx)
    exact hab.imp (fun hsame => ⟨hsame.1, ahead_of_compareMembers (hget a ha) (hget b hb) hsame.2⟩)
      fun hlt => hlt
  exact {
    perm := by
      refine hperm.trans ((perm_ext_iff_of_nodup hloaded.nodup (ids.nodup_dedup.filter _)).mpr fun x => ?_)
      rw [ItemTable.mem_keys_readMeta]
      simp
    contiguous := fun a b c habc hac => contiguous_of_pairwise hordered habc hac
    ordered := hordered }

end MatterCore.FamilyOrder
