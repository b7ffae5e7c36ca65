import PstDedupe.MatterDedupe.Items

/-!
# Roles of email parents (`resolve_parent` of `matter-dedupe/src/run.rs`)

A parent is a duplicate of the first parent with its Message-ID, or without a Message-ID of the
first one with its logical hash.
-/

namespace MatterDedupe

open Rust MatterCore Foundations List Option

inductive FamilyPolicy where
  | suppressChildrenWithParent
  | parentsOnly
  deriving DecidableEq, Repr

structure DedupeParams where
  useMessageId : Bool := true
  useLogicalHash : Bool := true
  familyPolicy : FamilyPolicy := .suppressChildrenWithParent
  reset : Bool := true
  batchSize : Nat := 500
  deriving DecidableEq, Repr

/-- `DedupeSummary` without its `completed_count`. -/
structure Counts where
  unique : Nat := 0
  duplicate : Nat := 0
  skipped : Nat := 0
  midLogicalConflicts : Nat := 0
  deriving DecidableEq, Repr

structure KeyMaps where
  midMap : HashMap CompactKey String := ∅
  logicalMap : HashMap CompactKey String := ∅
  midLogical : HashMap CompactKey (Option String) := ∅

section

variable [Target] [Sha256] {queue : List Item}

def midKey (params : DedupeParams) (cand : Item) : Option CompactKey :=
  if params.useMessageId then cand.messageId.bind messageIdKey else none

omit [Target] [Sha256] in
def hashKey (params : DedupeParams) (cand : Item) : Option CompactKey :=
  if params.useLogicalHash then cand.logicalHash.bind logicalHashKey else none

def seedMid (k : Option CompactKey) (cand : Item) (maps : KeyMaps) : KeyMaps :=
  match k with
  | some k => { maps with
      midMap := maps.midMap.orInsert k cand.id
      midLogical := maps.midLogical.orInsert k cand.logicalHash }
  | none => maps

def seedLogical (k : Option CompactKey) (cand : Item) (maps : KeyMaps) : KeyMaps :=
  match k with
  | some k => { maps with logicalMap := maps.logicalMap.orInsert k cand.id }
  | none => maps

def seedMapsFromExisting (params : DedupeParams) (maps : KeyMaps) (cand : Item) : KeyMaps :=
  if cand.dedupRole ≠ some "unique" then maps
  else seedLogical (hashKey params cand) cand (seedMid (midKey params cand) cand maps)

def rebuildMapsFromCommitted (params : DedupeParams) (page : List Item) : KeyMaps :=
  page.foldl (seedMapsFromExisting params) {}

def uniqueUpdate (cand : Item) (jobId tier : String) : DedupRoleUpdate :=
  ⟨cand.id, some "unique", none, some tier, some cand.id, some jobId, none⟩

def duplicateUpdate (cand : Item) (jobId canon tier : String) : DedupRoleUpdate :=
  ⟨cand.id, some "duplicate", some canon, some tier, some canon, some jobId, none⟩

def isConflict (canonLh : Option (Option String)) (logicalHash : Option String) : Bool :=
  match canonLh with
  | some canonLh =>
    if canonLh ≠ logicalHash then
      if canonLh.isSome ∧ logicalHash.isSome ∧ canonLh ≠ logicalHash then true
      -- one Some one None also "differ"
      else canonLh ≠ logicalHash
    else false
  | none => false

structure Resolved where
  update : DedupRoleUpdate
  maps : KeyMaps
  counts : Counts

def resolveParent (cand : Item) (jobId : String) (params : DedupeParams) (maps : KeyMaps)
    (counts : Counts) : Resolved :=
  match midKey params cand with
  | some k =>
    match maps.midMap.get k with
    | some canon =>
      -- Policy A: MID wins even if logical differs
      let counts :=
        if isConflict (maps.midLogical.get k) cand.logicalHash then
          { counts with midLogicalConflicts := counts.midLogicalConflicts + 1 }
        else counts
      ⟨duplicateUpdate cand jobId canon "message_id", maps, { counts with duplicate := counts.duplicate + 1 }⟩
    | none =>
      -- first seen for this MID; peers with the same logical hash but no MID find it too
      let maps := { maps with
        midMap := AList.insert k cand.id maps.midMap
        midLogical := AList.insert k cand.logicalHash maps.midLogical }
      ⟨uniqueUpdate cand jobId "message_id", seedLogical (hashKey params cand) cand maps,
        { counts with unique := counts.unique + 1 }⟩
  | none =>
    match hashKey params cand with
    | some k =>
      match maps.logicalMap.get k with
      | some canon =>
        ⟨duplicateUpdate cand jobId canon "logical_hash", maps,
          { counts with duplicate := counts.duplicate + 1 }⟩
      | none =>
        ⟨uniqueUpdate cand jobId "logical_hash",
          { maps with logicalMap := AList.insert k cand.id maps.logicalMap },
          { counts with unique := counts.unique + 1 }⟩
    | none => ⟨uniqueUpdate cand jobId "none", maps, { counts with unique := counts.unique + 1 }⟩

/-! ## What it does -/

omit [Target] [Sha256] in
theorem orInsert_of_get_eq_none {K V : Type} [DecidableEq K] {m : HashMap K V} {k : K}
    (h : m.get k = none) (v : V) :
    m.orInsert k v = AList.insert k v m := by
  unfold HashMap.orInsert
  rw [h]

def KeyMaps.Paired (maps : KeyMaps) : Prop :=
  ∀ k : CompactKey, maps.midMap.get k = none → maps.midLogical.get k = none

omit [Target] [Sha256] in
theorem paired_seedMid {k : Option CompactKey} {cand : Item} {maps : KeyMaps} (h : maps.Paired) :
    (seedMid k cand maps).Paired := by
  cases k with
  | none => exact h
  | some k =>
    intro k' hk'
    have hnone : (maps.midMap.orInsert k cand.id).get k' = none := hk'
    show (maps.midLogical.orInsert k cand.logicalHash).get k' = none
    rw [HashMap.get_orInsert] at hnone ⊢
    by_cases heq : k' = k
    · subst heq
      rw [if_pos rfl] at hnone
      cases hnone
    · rw [if_neg heq] at hnone ⊢
      exact h k' hnone

theorem paired_seedMapsFromExisting {params : DedupeParams} {maps : KeyMaps} (h : maps.Paired)
    (cand : Item) : (seedMapsFromExisting params maps cand).Paired := by
  unfold seedMapsFromExisting
  split
  · exact h
  · have hmid : (seedMid (midKey params cand) cand maps).Paired := paired_seedMid h
    cases hashKey params cand with
    | none => exact hmid
    | some k => exact hmid

variable {cand : Item} {jobId : String} {params : DedupeParams} {maps : KeyMaps} {counts : Counts}

@[simp] theorem itemId_resolveParent :
    (resolveParent cand jobId params maps counts).update.itemId = cand.id := by
  unfold resolveParent
  split
  · split <;> rfl
  · split
    · split <;> rfl
    · rfl

theorem extraJson_resolveParent : (resolveParent cand jobId params maps counts).update.extraJson = none := by
  unfold resolveParent
  split
  · split <;> rfl
  · split
    · split <;> rfl
    · rfl

def resolvedRow (cand : Item) (jobId : String) (params : DedupeParams) (maps : KeyMaps) : Item :=
  applyUpdate cand (resolveParent cand jobId params maps {}).update

theorem update_resolveParent (counts counts' : Counts) :
    (resolveParent cand jobId params maps counts).update
      = (resolveParent cand jobId params maps counts').update := by
  unfold resolveParent
  split
  · split <;> rfl
  · split
    · split <;> rfl
    · rfl

theorem applyUpdate_resolveParent :
    applyUpdate cand (resolveParent cand jobId params maps counts).update
      = resolvedRow cand jobId params maps := by
  unfold resolvedRow
  rw [update_resolveParent counts {}]

omit [Target] [Sha256] in
theorem applyUpdate_uniqueUpdate (cand : Item) (jobId tier : String) :
    applyUpdate cand (uniqueUpdate cand jobId tier)
    = { cand with
        dedupRole := some "unique"
        duplicateOfItemId := none
        dedupTier := some tier
        dedupGroupId := some cand.id
        dedupJobId := some jobId } := if_pos rfl

omit [Target] [Sha256] in
theorem applyUpdate_duplicateUpdate (cand : Item) (jobId canon tier : String) :
    applyUpdate cand (duplicateUpdate cand jobId canon tier)
      = { cand with
          dedupRole := some "duplicate"
          duplicateOfItemId := some canon
          dedupTier := some tier
          dedupGroupId := some canon
          dedupJobId := some jobId } := if_pos rfl

theorem seedMapsFromExisting_duplicate (canon tier : String) :
    seedMapsFromExisting params maps (applyUpdate cand (duplicateUpdate cand jobId canon tier)) = maps := by
  rw [applyUpdate_duplicateUpdate]
  have hrole : some "duplicate" ≠ some "unique" := by decide
  exact if_pos hrole

theorem seedMapsFromExisting_unique (tier : String) :
    seedMapsFromExisting params maps (applyUpdate cand (uniqueUpdate cand jobId tier))
      = seedLogical (hashKey params cand) cand (seedMid (midKey params cand) cand maps) := by
  rw [applyUpdate_uniqueUpdate]
  exact if_neg (not_not.mpr rfl)

theorem maps_resolveParent (hpaired : maps.Paired) : (resolveParent cand jobId params maps counts).maps
    = seedMapsFromExisting params maps (resolvedRow cand jobId params maps) := by
  unfold resolvedRow resolveParent
  cases hmid : midKey params cand with
  | some k =>
    dsimp only
    cases hget : maps.midMap.get k with
    | some canon => exact (seedMapsFromExisting_duplicate canon "message_id").symm
    | none =>
      dsimp only
      rw [seedMapsFromExisting_unique, hmid]
      unfold seedMid
      dsimp only
      rw [orInsert_of_get_eq_none hget, orInsert_of_get_eq_none (hpaired k hget)]
  | none =>
    cases hlogical : hashKey params cand with
    | some k =>
      dsimp only
      cases hget : maps.logicalMap.get k with
      | some canon => exact (seedMapsFromExisting_duplicate canon "logical_hash").symm
      | none =>
        dsimp only
        rw [seedMapsFromExisting_unique, hmid, hlogical]
        unfold seedLogical seedMid
        dsimp only
        rw [orInsert_of_get_eq_none hget]
    | none =>
      dsimp only
      rw [seedMapsFromExisting_unique, hmid, hlogical]
      rfl

/-! ## A scan over the parents -/

/-- Whether the scan gives the row a role. Incremental mode: already-assigned roles are skipped. -/
def isDue (params : DedupeParams) (cand : Item) : Bool := params.reset || cand.dedupRole.isNone

structure Scanned where
  maps : KeyMaps := {}
  counts : Counts := {}
  updates : List DedupRoleUpdate := []

def scanOne (jobId : String) (params : DedupeParams) (s : Scanned) (cand : Item) : Scanned :=
  if isDue params cand then
    let resolved := resolveParent cand jobId params s.maps s.counts
    ⟨resolved.maps, resolved.counts, s.updates ++ [resolved.update]⟩
  else { s with maps := seedMapsFromExisting params s.maps cand }

def scan (jobId : String) (params : DedupeParams) (queue : List Item) : Scanned :=
  queue.foldl (scanOne jobId params) {}

theorem scan_concat (queue : List Item) (cand : Item) :
    scan jobId params (queue ++ [cand]) = scanOne jobId params (scan jobId params queue) cand := by
  unfold scan
  rw [foldl_concat]

theorem mem_updates_scan {id : String}
    (h : id ∈ (scan jobId params queue).updates.map DedupRoleUpdate.itemId) : id ∈ queue.map Item.id := by
  induction queue using reverseRecOn with
  | nil => exact h
  | append_singleton queue cand ih =>
    rw [map_append, mem_append]
    rw [scan_concat] at h
    unfold scanOne at h
    split at h
    · dsimp only at h
      rw [map_append, mem_append] at h
      refine h.imp ih fun h => ?_
      rw [map_singleton, itemId_resolveParent] at h
      exact h
    · exact .inl (ih h)

theorem extraJson_updates_scan : ∀ u ∈ (scan jobId params queue).updates, u.extraJson = none := by
  induction queue using reverseRecOn with
  | nil => exact fun u hu => absurd hu not_mem_nil
  | append_singleton queue cand ih =>
    intro u hu
    rw [scan_concat] at hu
    unfold scanOne at hu
    split at hu
    · rcases List.mem_append.mp hu with hu | hu
      · exact ih u hu
      · rw [List.mem_singleton.mp hu]
        exact extraJson_resolveParent
    · exact ih u hu

def scannedRow (jobId : String) (params : DedupeParams) (maps : KeyMaps) (cand : Item) : Item :=
  if isDue params cand then resolvedRow cand jobId params maps else cand

theorem written_scan_concat {cand : Item} (hfresh : cand.id ∉ queue.map Item.id) :
    written (scan jobId params (queue ++ [cand])).updates (queue ++ [cand])
      = written (scan jobId params queue).updates queue ++
        [scannedRow jobId params (scan jobId params queue).maps cand] := by
  have hnew : cand.id ∉ (scan jobId params queue).updates.map DedupRoleUpdate.itemId :=
    fun h => hfresh (mem_updates_scan h)
  have hsplit : ∀ us : List DedupRoleUpdate, written us (queue ++ [cand]) = written us queue ++
      [us.foldl applyUpdate cand] :=
    fun us => map_append
  rw [scan_concat, hsplit]
  unfold scanOne scannedRow
  split
  next hdue =>
    dsimp only
    rw [written_append, foldl_append, foldl_applyUpdate_of_notMem hnew, foldl_cons, foldl_nil,
      applyUpdate_resolveParent]
    refine congrArg (· ++ _) ((map_congr_left fun r hr => ?_).trans (List.map_id _))
    -- the new update writes the new row only
    have hid : r.id ∈ queue.map Item.id := by
      rw [← map_id_written (scan jobId params queue).updates queue]
      exact List.mem_map_of_mem hr
    refine applyUpdate_of_ne fun h => hfresh ?_
    rw [itemId_resolveParent] at h
    exact h ▸ hid
  next hdue =>
    dsimp only
    rw [foldl_applyUpdate_of_notMem hnew]

theorem maps_scan (hkeyed : (queue.map Item.id).Nodup) :
    (scan jobId params queue).maps
      = rebuildMapsFromCommitted params (written (scan jobId params queue).updates queue) ∧
      (scan jobId params queue).maps.Paired := by
  induction queue using reverseRecOn with
  | nil => exact ⟨rfl, fun _ _ => rfl⟩
  | append_singleton queue cand ih =>
    rw [map_append, nodup_append] at hkeyed
    obtain ⟨hqueue, -, hapart⟩ := hkeyed
    obtain ⟨hmaps, hpaired⟩ := ih hqueue
    have hfresh : cand.id ∉ queue.map Item.id := fun h => hapart _ h _ (mem_singleton_self _) rfl
    rw [written_scan_concat hfresh, scan_concat]
    unfold scanOne scannedRow rebuildMapsFromCommitted at *
    rw [foldl_append, foldl_cons, foldl_nil, ← hmaps]
    split
    next hdue =>
      dsimp only
      rw [maps_resolveParent hpaired]
      exact ⟨rfl, paired_seedMapsFromExisting hpaired _⟩
    next hdue => exact ⟨rfl, paired_seedMapsFromExisting hpaired _⟩

end

/-!
# Attachments of duplicate parents (`match_attach` of `matter-dedupe/src/run.rs`)

An attachment of a duplicate parent becomes a duplicate of its twin under the canonical parent, or
of nothing.
-/

/-- `serde_json` on objects, as far as one flag of theirs goes. -/
class ExtraJson where
  Object : Type
  /-- `Map::new()`. -/
  empty : Object
  /-- `v.insert("family_attach_unmatched", true)`. -/
  insertUnmatched : Object → Object
  /-- `m.remove("family_attach_unmatched")`: the object without it, if it was there. -/
  removeUnmatched : Object → Option Object
  /-- `from_str`, where that is an object. -/
  parse : String → Option Object
  /-- `Value::Object(m).to_string()`. -/
  print : Object → String

/-- The objects that the family pass prints for the row of a text. -/
def ExtraJson.Printed [ExtraJson] (text : Option String) (m : Object) : Prop :=
  m = insertUnmatched ((text.bind parse).getD empty) ∨ (text.bind parse).bind removeUnmatched = some m

/-- What is printed for these texts is read back: `serde_json` promises it of objects without
floats, as `float_roundtrip` is off. -/
structure ExtraJson.Lawful [ExtraJson] (texts : List (Option String)) : Prop where
  parse_print : ∀ text ∈ texts, ∀ m, Printed text m → parse (print m) = some m
  insert_insert : ∀ m : Object, insertUnmatched (insertUnmatched m) = insertUnmatched m
  remove_remove : ∀ m m' : Object, removeUnmatched m = some m' → removeUnmatched m' = none

section

variable [Target] [ExtraJson] {h : Item → Item}

omit [ExtraJson] in
def filenameLower (item : Item) : String :=
  let path := item.path.getD ""
  let name := (splitWhere (fun c => c = '/' || c = '\\') path).getLastD path
  Target.toLowercase name

omit [Target] [ExtraJson] in
def byPathThenId (a b : Item) : Ordering :=
  (compare (a.path.getD "") (b.path.getD "")).then (compare a.id b.id)

omit [ExtraJson] in
def hasNameAndSize (child c : Item) : Bool :=
  filenameLower c == filenameLower child && c.sizeBytes == child.sizeBytes && child.sizeBytes.isSome

omit [ExtraJson] in
def matchAttach (child : Item) (canonChildren : List Item) : Option String × Bool :=
  let bySha :=
    match child.nativeSha256 with
    | some digest =>
      if digest ≠ "" then (sortBy byPathThenId
        (canonChildren.filter fun c => c.nativeSha256 = some digest)).head? else none
    | none => none
  match bySha with
  | some m => (some m.id, false)
  | none =>
    let byName :=
      if filenameLower child ≠
        "" then (sortBy byPathThenId (canonChildren.filter fun c => hasNameAndSize child c)).head?
      else none
    match byName with
    | some m => (some m.id, false)
    -- never the parent email
    | none => (none, true)

omit [Target] in
def mergeFamilyExtraJson (existing : Option String) (unmatched : Bool) : Option (Option String) :=
  if unmatched then
    let v := (existing.bind ExtraJson.parse).getD ExtraJson.empty
    some (some (ExtraJson.print (ExtraJson.insertUnmatched v)))
  else
    -- matched: strip stale unmatched flag when present
    ((existing.bind ExtraJson.parse).bind ExtraJson.removeUnmatched).map fun m => some (ExtraJson.print m)

def familyUpdate (jobId : String) (canonParentId : Option String) (canonChildren : List Item)
    (child : Item) : DedupRoleUpdate :=
  let found := matchAttach child canonChildren
  ⟨child.id, some "duplicate", found.1, some "family", canonParentId, some jobId,
    mergeFamilyExtraJson child.extraJson found.2⟩

def isAlreadyFamily (child : Item) : Bool :=
  child.dedupRole == some "duplicate" && child.dedupTier == some "family"

/-! ## What it does -/

def familyRow (jobId : String) (canonParentId : Option String) (canonChildren : List Item)
    (child : Item) : Item :=
  applyUpdate child (familyUpdate jobId canonParentId canonChildren child)

variable {jobId : String} {canonParentId : Option String} {canonChildren : List Item} {child child' : Item}

theorem familyRow_eq (jobId : String) (canonParentId : Option String) (canonChildren : List Item)
    (child : Item) :
    familyRow jobId canonParentId canonChildren child = { child with
      dedupRole := some "duplicate"
      duplicateOfItemId := (matchAttach child canonChildren).1
      dedupTier := some "family"
      dedupGroupId := canonParentId
      dedupJobId := some jobId
      extraJson := (mergeFamilyExtraJson child.extraJson (matchAttach child canonChildren).2).getD child.extraJson } :=
  if_pos rfl

theorem sameItem_familyRow (jobId : String) (canonParentId : Option String)
    (canonChildren : List Item) (child : Item) :
    SameItem child (familyRow jobId canonParentId canonChildren child) := sameItem_applyUpdate _ _

omit [ExtraJson] in
theorem filenameLower_of_sameItem {r r' : Item} (h : SameItem r r') : filenameLower r' = filenameLower r := by
  unfold filenameLower
  rw [h.path]

omit [Target] [ExtraJson] in
theorem sortBy_byPathThenId_map (hh : Rewrite h) (rows : List Item) :
    sortBy byPathThenId (rows.map h) = (sortBy byPathThenId rows).map h := by
  have hsame : byPathThenId = fun a b => byPathThenId (h a) (h b) := by
    funext a b
    unfold byPathThenId
    rw [(hh a).path, (hh a).id, (hh b).path, (hh b).id]
  rw [← map_sortBy byPathThenId h, ← hsame]

omit [ExtraJson] in
theorem matchAttach_map (hh : Rewrite h) (hchild : SameItem child child') (canonChildren : List Item) :
    matchAttach child' (canonChildren.map h) = matchAttach child canonChildren := by
  have hpick : ∀ p q : Item → Bool, (∀ r, p (h r) = q r) →
      (sortBy byPathThenId ((canonChildren.map h).filter p)).head?
        = ((sortBy byPathThenId (canonChildren.filter q)).head?).map h := by
    intro p q hpq
    rw [List.filter_map, sortBy_byPathThenId_map hh, head?_map]
    exact congrArg (fun q => (sortBy byPathThenId (canonChildren.filter q)).head?.map h) (funext hpq)
  have hsha : ∀ digest : String, (sortBy byPathThenId ((canonChildren.map h).filter fun c => c.nativeSha256 = some digest)).head?
      = ((sortBy byPathThenId (canonChildren.filter
        fun c => c.nativeSha256 = some digest)).head?).map h := fun digest =>
    hpick _ _ fun r => by rw [(hh r).nativeSha256]
  have hname : (sortBy byPathThenId ((canonChildren.map h).filter fun c => hasNameAndSize child' c)).head?
      = ((sortBy byPathThenId (canonChildren.filter fun c => hasNameAndSize child c)).head?).map h := by
    refine hpick _ _ fun r => ?_
    unfold hasNameAndSize
    rw [filenameLower_of_sameItem (hh r), filenameLower_of_sameItem hchild, (hh r).sizeBytes, hchild.sizeBytes]
  have hid : ∀ found : Option Item, (found.map h).map Item.id = found.map Item.id := by
    intro found
    cases found with
    | none => rfl
    | some r => exact congrArg some (hh r).id
  have hread : ∀ (bySha byName : Option Item), (match bySha with
      | some m => (some m.id, false)
      | none => match byName with
        | some m => (some m.id, false)
        | none => (none, true)) = ((bySha.or byName).map Item.id, (bySha.or byName).isNone) := by
    intro bySha byName
    cases bySha <;> cases byName <;> rfl
  have hor : ∀ found found' : Option Item, (found.map h).or (found'.map h) = (found.or found').map h := by
    intro found found'
    cases found <;> rfl
  unfold matchAttach
  dsimp only
  rw [hread, hread, hchild.nativeSha256, filenameLower_of_sameItem hchild, hname]
  cases child.nativeSha256 with
  | none =>
    dsimp only
    split
    · rw [none_or, none_or, hid, isNone_map]
    · rfl
  | some digest =>
    dsimp only
    rw [hsha]
    split
    · split
      · rw [hor, hid, isNone_map]
      · rw [or_none, or_none, hid, isNone_map]
    · split
      · rw [none_or, none_or, hid, isNone_map]
      · rfl

omit [Target] in
theorem mergeFamilyExtraJson_again {texts : List (Option String)} (hlaw : ExtraJson.Lawful texts)
    {existing : Option String} (htext : existing ∈ texts) (unmatched : Bool) :
    let merged := (mergeFamilyExtraJson existing unmatched).getD existing
    (mergeFamilyExtraJson merged unmatched).getD merged = merged := by
  cases unmatched with
  | true =>
    show some (ExtraJson.print
      (ExtraJson.insertUnmatched (Option.getD (ExtraJson.parse (ExtraJson.print _)) _))) = _
    rw [hlaw.parse_print existing htext _ (.inl rfl)]
    dsimp only [getD_some]
    rw [hlaw.insert_insert]
    rfl
  | false =>
    unfold mergeFamilyExtraJson
    simp only [Bool.false_eq_true, if_false]
    cases hfound : (existing.bind ExtraJson.parse).bind ExtraJson.removeUnmatched with
    | none =>
      show Option.getD (Option.map _ ((Option.bind existing _).bind _)) _ = _
      rw [hfound]
      rfl
    | some m =>
      obtain ⟨m₀, -, hremove⟩ := Option.bind_eq_some_iff.mp hfound
      show Option.getD (Option.map _ ((ExtraJson.parse (ExtraJson.print m)).bind _)) _ = _
      rw [hlaw.parse_print existing htext m (.inr hfound)]
      dsimp only [bind_some]
      rw [hlaw.remove_remove m₀ m hremove]
      rfl

theorem applyUpdate_familyUpdate_again {texts : List (Option String)}
    (hlaw : ExtraJson.Lawful texts) (htext : child.extraJson ∈ texts) (hh : Rewrite h) :
    let row := familyRow jobId canonParentId canonChildren child
    applyUpdate row (familyUpdate jobId canonParentId (canonChildren.map h) row) = row := by
  intro row
  have hrow := sameItem_familyRow jobId canonParentId canonChildren child
  show familyRow jobId canonParentId (canonChildren.map h) row = row
  rw [familyRow_eq, matchAttach_map hh hrow]
  show _ = familyRow jobId canonParentId canonChildren child
  rw [show row = familyRow jobId canonParentId canonChildren child from rfl, familyRow_eq]
  dsimp only
  rw [mergeFamilyExtraJson_again hlaw htext]

end

end MatterDedupe
