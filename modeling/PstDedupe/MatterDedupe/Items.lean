import PstDedupe.MatterCore.LogicalHash
import PstDedupe.Foundations.KeyedRows

/-!
# Keys of the dedupe job (`matter-dedupe/src/keys.rs`)

Message-IDs and logical hashes as 32 bytes each.
-/

namespace MatterDedupe

open Rust MatterCore List

/-- `[u8; 32]`. -/
abbrev CompactKey := Bytes32

def hexNibble (b : UInt8) : Option UInt8 :=
  if 0x30 ≤ b ∧ b ≤ 0x39 then some (b - 0x30)
  else if 0x61 ≤ b ∧ b ≤ 0x66 then some (b - 0x61 + 10)
  else if 0x41 ≤ b ∧ b ≤ 0x46 then some (b - 0x41 + 10)
  else none

def decodePairs : List UInt8 → Option (List UInt8)
  | [] => some []
  | [_] => none
  | hi :: lo :: rest => do
    let hi ← hexNibble hi
    let lo ← hexNibble lo
    let rest ← decodePairs rest
    some ((hi <<< 4 ||| lo) :: rest)

def logicalHashKey (hex : String) : Option CompactKey :=
  let hex := bytes (trim hex)
  if hex.length ≠ 64 then none
  else (decodePairs hex).bind fun out => if h : out.length = 32 then some ⟨out, h⟩ else none

def messageIdKey [Target] [Sha256] (rawMid : String) : Option CompactKey :=
  let norm := normalizeMessageId rawMid
  if norm = "" then none else some (Sha256.digest (bytes norm))

example : (logicalHashKey "short").isNone ∧ (logicalHashKey (String.ofList (replicate 64 'g'))).isNone ∧
    logicalHashKey (String.ofList (replicate 64 'A')) = some (Bytes32.fill 0xAA) := by decide +kernel

/-!
# The items of the dedupe job (the dedupe queries of `matter-core/src/matter.rs`)

The job reads the eligible email parents in first-seen order and the attachments of an item, and
writes the dedupe columns.
-/

open Foundations

variable {r : Item} {rows : List Item}

structure Item where
  id : String
  messageId : Option String := none
  logicalHash : Option String := none
  path : Option String := none
  importedAt : String := ""
  role : Option String := none
  fileCategory : Option String := none
  status : String := "extracted"
  parentItemId : Option String := none
  nativeSha256 : Option String := none
  sizeBytes : Option Int := none
  dedupRole : Option String := none
  duplicateOfItemId : Option String := none
  dedupTier : Option String := none
  dedupGroupId : Option String := none
  dedupJobId : Option String := none
  extraJson : Option String := none
  deriving DecidableEq, Repr

/-- `DedupRoleUpdate`. `extraJson = none` leaves the column. -/
structure DedupRoleUpdate where
  itemId : String
  dedupRole : Option String
  duplicateOfItemId : Option String
  dedupTier : Option String
  dedupGroupId : Option String
  dedupJobId : Option String
  extraJson : Option (Option String) := none
  deriving DecidableEq, Repr

/-- `WHERE` of the eligible email parents. -/
def isEligible (r : Item) : Bool :=
  (["extracted", "partial", "normalized"].contains r.status)
    && (r.role == some "parent" || (r.fileCategory == some "email" && r.role.getD "" != "attachment"))

def parentOrder : List (Item → Item → Ordering) := [asc Item.importedAt, asc Item.path, asc Item.id]

def listEmailParents (rows : List Item) : List Item := orderBy parentOrder (rows.filter isEligible)

def listEmailParentsRange (rows : List Item) (offset limit : Nat) : List Item :=
  ((listEmailParents rows).drop offset).take limit

def countEmailParents (rows : List Item) : Nat := (rows.filter isEligible).length

def listAttachments (rows : List Item) (parentItemId : String) : List Item :=
  orderBy [asc Item.importedAt, asc Item.id] (rows.filter fun r => r.parentItemId = some parentItemId)

def getItem (rows : List Item) (id : String) : Option Item := rowAt Item.id rows id

def clearRow (r : Item) : Item :=
  { r with dedupRole := none, duplicateOfItemId := none, dedupTier := none, dedupGroupId := none, dedupJobId := none }

def isClearedAttachment (rows : List Item) (r : Item) : Bool :=
  (r.role == some "attachment" || r.parentItemId.isSome)
    && r.parentItemId.any fun pid => ((rows.filter isEligible).map Item.id).contains pid

def clearDedupeFields (includeAttachments : Bool) (rows : List Item) : List Item :=
  rows.map fun r =>
    if isEligible r || (includeAttachments && isClearedAttachment rows r) then clearRow r else r

/-- One `UPDATE`, on one row. -/
def applyUpdate (r : Item) (u : DedupRoleUpdate) : Item :=
  if r.id = u.itemId then
    { r with
      dedupRole := u.dedupRole
      duplicateOfItemId := u.duplicateOfItemId
      dedupTier := u.dedupTier
      dedupGroupId := u.dedupGroupId
      dedupJobId := u.dedupJobId
      extraJson := u.extraJson.getD r.extraJson }
  else r

def written (updates : List DedupRoleUpdate) (rows : List Item) : List Item :=
  rows.map fun r => updates.foldl applyUpdate r

structure SameItem (r r' : Item) : Prop where
  id : r'.id = r.id
  messageId : r'.messageId = r.messageId
  logicalHash : r'.logicalHash = r.logicalHash
  path : r'.path = r.path
  importedAt : r'.importedAt = r.importedAt
  role : r'.role = r.role
  fileCategory : r'.fileCategory = r.fileCategory
  status : r'.status = r.status
  parentItemId : r'.parentItemId = r.parentItemId
  nativeSha256 : r'.nativeSha256 = r.nativeSha256
  sizeBytes : r'.sizeBytes = r.sizeBytes

theorem SameItem.refl (r : Item) : SameItem r r := ⟨rfl, rfl, rfl, rfl, rfl, rfl, rfl, rfl, rfl, rfl, rfl⟩

theorem SameItem.trans {r r' r'' : Item} (h : SameItem r r') (h' : SameItem r' r'') : SameItem r r'' :=
  ⟨h'.id.trans h.id, h'.messageId.trans h.messageId, h'.logicalHash.trans h.logicalHash, h'.path.trans h.path,
    h'.importedAt.trans h.importedAt, h'.role.trans h.role, h'.fileCategory.trans h.fileCategory,
      h'.status.trans h.status,
    h'.parentItemId.trans h.parentItemId, h'.nativeSha256.trans h.nativeSha256, h'.sizeBytes.trans h.sizeBytes⟩

theorem SameItem.isEligible_eq {r r' : Item} (h : SameItem r r') : isEligible r' = isEligible r := by
  unfold isEligible
  rw [h.status, h.role, h.fileCategory]

theorem sameItem_clearRow (r : Item) : SameItem r (clearRow r) :=
  ⟨rfl, rfl, rfl, rfl, rfl, rfl, rfl, rfl, rfl, rfl, rfl⟩

theorem sameItem_applyUpdate (r : Item) (u : DedupRoleUpdate) : SameItem r (applyUpdate r u) := by
  unfold applyUpdate
  split
  · exact ⟨rfl, rfl, rfl, rfl, rfl, rfl, rfl, rfl, rfl, rfl, rfl⟩
  · exact SameItem.refl r

theorem sameItem_foldl (updates : List DedupRoleUpdate) (r : Item) :
    SameItem r (updates.foldl applyUpdate r) := by
  induction updates generalizing r with
  | nil => exact SameItem.refl r
  | cons u updates ih => exact (sameItem_applyUpdate r u).trans (ih (applyUpdate r u))

theorem applyUpdate_of_ne {u : DedupRoleUpdate} (h : r.id ≠ u.itemId) : applyUpdate r u = r := if_neg h

theorem foldl_applyUpdate_of_notMem {updates : List DedupRoleUpdate}
    (h : r.id ∉ updates.map DedupRoleUpdate.itemId) : updates.foldl applyUpdate r = r := by
  induction updates with
  | nil => rfl
  | cons u updates ih =>
    rw [map_cons, mem_cons, not_or] at h
    rw [foldl_cons, applyUpdate_of_ne h.1]
    exact ih h.2

@[simp] theorem written_nil (rows : List Item) : written [] rows = rows := map_id rows

theorem written_append (us vs : List DedupRoleUpdate) (rows : List Item) :
    written (us ++ vs) rows = written vs (written us rows) := by
  unfold written
  rw [map_map]
  refine map_congr_left fun r _ => ?_
  show (us ++ vs).foldl applyUpdate r = vs.foldl applyUpdate (us.foldl applyUpdate r)
  exact foldl_append

theorem map_id_written (updates : List DedupRoleUpdate) (rows : List Item) :
    (written updates rows).map Item.id = rows.map Item.id :=
  map_key_map (fun r => (sameItem_foldl updates r).id) rows

theorem map_id_clearDedupeFields (includeAttachments : Bool) (rows : List Item) :
    (clearDedupeFields includeAttachments rows).map Item.id = rows.map Item.id := by
  refine map_key_map (fun r => ?_) rows
  split <;> rfl

theorem map_extraJson_clearDedupeFields (includeAttachments : Bool) (rows : List Item) :
    (clearDedupeFields includeAttachments rows).map Item.extraJson = rows.map Item.extraJson := by
  refine map_key_map (fun r => ?_) rows
  split <;> rfl

theorem map_extraJson_written {updates : List DedupRoleUpdate} (h : ∀ u ∈ updates, u.extraJson = none)
    (rows : List Item) : (written updates rows).map Item.extraJson = rows.map Item.extraJson := by
  refine map_key_map (fun r => ?_) rows
  induction updates generalizing r with
  | nil => rfl
  | cons u updates ih =>
    rw [foldl_cons, ih fun u' hu' => h u' (mem_cons_of_mem u hu')]
    unfold applyUpdate
    split
    · dsimp only
      rw [h u mem_cons_self]
      rfl
    · rfl

theorem clearDedupeFields_again (includeAttachments : Bool) (rows : List Item) :
    clearDedupeFields includeAttachments (clearDedupeFields includeAttachments rows)
      = clearDedupeFields includeAttachments rows := by
  have hsame : ∀ r : Item, SameItem r (if isEligible r ||
      (includeAttachments && isClearedAttachment rows r) then clearRow r else r) := by
    intro r
    split
    · exact sameItem_clearRow r
    · exact SameItem.refl r
  have hparents : ((clearDedupeFields includeAttachments rows).filter isEligible).map Item.id
      = (rows.filter isEligible).map Item.id := by
    unfold clearDedupeFields
    rw [filter_map, map_map]
    rw [show isEligible ∘ _ = isEligible from funext fun r => (hsame r).isEligible_eq]
    exact map_congr_left fun r _ => (hsame r).id
  have hclears : ∀ r r' : Item, SameItem r r' →
      isClearedAttachment (clearDedupeFields includeAttachments rows) r' = isClearedAttachment rows r := by
    intro r r' h
    unfold isClearedAttachment
    rw [hparents, h.role, h.parentItemId]
  show map (fun r => if isEligible r ||
    (includeAttachments && isClearedAttachment (clearDedupeFields _ _) r) then clearRow r
    else r) (rows.map _) = rows.map _
  rw [map_map]
  refine map_congr_left fun r _ => ?_
  dsimp only [Function.comp_apply]
  rw [(hsame r).isEligible_eq, hclears r _ (hsame r)]
  split <;> rfl

def Rewrite (h : Item → Item) : Prop := ∀ r : Item, SameItem r (h r)

theorem rewrite_foldl (updates : List DedupRoleUpdate) : Rewrite fun r => updates.foldl applyUpdate r :=
  fun r => sameItem_foldl updates r

variable {h : Item → Item}

theorem Rewrite.ite (hh : Rewrite h) (p : Item → Prop) [DecidablePred p] :
    Rewrite fun r => if p r then h r else r := by
  intro r
  show SameItem r (if p r then h r else r)
  split
  · exact hh r
  · exact SameItem.refl r

theorem listEmailParents_map (hh : Rewrite h) (rows : List Item) :
    listEmailParents (rows.map h) = (listEmailParents rows).map h := by
  refine select_map (fun r => (hh r).isEligible_eq) (fun a b => ?_) rows
  unfold byTerms parentOrder
  simp only [foldr_cons, foldr_nil, asc, (hh a).importedAt, (hh a).path, (hh a).id,
    (hh b).importedAt, (hh b).path, (hh b).id]

theorem countEmailParents_eq (rows : List Item) : countEmailParents rows = (listEmailParents rows).length :=
  (orderBy_perm parentOrder _).length_eq.symm

theorem listAttachments_map (hh : Rewrite h) (rows : List Item) (pid : String) :
    listAttachments (rows.map h) pid = (listAttachments rows pid).map h := by
  refine select_map (fun r => ?_) (fun a b => ?_) rows
  · rw [(hh r).parentItemId]
  · unfold byTerms
    simp only [foldr_cons, foldr_nil, asc, (hh a).importedAt, (hh a).id, (hh b).importedAt, (hh b).id]

theorem mem_listEmailParents : r ∈ listEmailParents rows ↔ r ∈ rows ∧ isEligible r = true := by
  unfold listEmailParents
  rw [(orderBy_perm _ _).mem_iff, mem_filter]

theorem mem_listAttachments {pid : String} :
    r ∈ listAttachments rows pid ↔ r ∈ rows ∧ r.parentItemId = some pid := by
  unfold listAttachments
  rw [(orderBy_perm _ _).mem_iff, mem_filter, decide_eq_true_eq]

theorem keyed_listEmailParents (h : (rows.map Item.id).Nodup) : ((listEmailParents rows).map Item.id).Nodup :=
  nodup_map_orderBy _ (h.sublist (List.filter_sublist.map _))

theorem keyed_listAttachments (h : (rows.map Item.id).Nodup) (pid : String) :
    ((listAttachments rows pid).map Item.id).Nodup :=
  nodup_map_orderBy _ (h.sublist (List.filter_sublist.map _))

end MatterDedupe
