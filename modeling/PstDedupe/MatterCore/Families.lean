import PstDedupe.Foundations.Fallible
import PstDedupe.Foundations.FreshIds
import PstDedupe.MatterCore.MatterDb

/-!
# Items, their parents and their families (`matter-core/src/matter.rs`)

`insert_item`, `update_item` and `set_item_family_role`.
-/

namespace MatterCore

open Rust Foundations

def resolveFamilyWithParent (parent : Item) (childFamilyId : Option String) :
    Except CallError (Option String) :=
  match childFamilyId, parent.familyId with
  | some fid, some parentFid =>
    if fid = parentFid then .ok (some fid)
    else .error (.familyCohesion ("parent item must share family_id with child (parent family " ++
      parentFid ++ ", child family " ++ fid ++ ")"))
  | some fid, none =>
    .error (.familyCohesion ("parent item must share family_id with child (parent has no family, child family "
      ++ fid ++ ")"))
  | none, some parentFid => .ok (some parentFid)
  | none, none =>
    .error (.familyCohesion ("parent item must share family_id with child (neither has family_id; "
      ++ "set family_id when linking parent)"))

namespace MatterDb

variable (db : MatterDb) (matter : String)

def resolveParent (parentItemId familyId : Option String) : Except CallError (Option String) :=
  match parentItemId with
  | some parentId =>
    match db.getItem parentId with
    | .error _ => .error (.parentItemNotFound parentId)
    | .ok parent =>
      if parent.matterId ≠ matter then
        .error (.crossMatterFamily ("parent " ++ parentId ++ " belongs to matter " ++ parent.matterId))
      else resolveFamilyWithParent parent familyId
  | none => .ok familyId

def checkFamily (familyId : Option String) : Except CallError Unit :=
  match familyId with
  | some fid =>
    match db.getFamily fid with
    | .error e => .error e
    | .ok family =>
      if family.matterId ≠ matter then
        .error (.crossMatterFamily ("family " ++ fid ++ " belongs to matter " ++ family.matterId))
      else .ok ()
  | none => .ok ()

def placeInFamily (parentItemId familyId : Option String) : Except CallError (Option String) := do
  let familyId ← db.resolveParent matter parentItemId familyId
  db.checkFamily matter familyId
  return familyId

def recomputeAttachmentCount (parentId : String) : MatterDb :=
  db.setItem parentId fun item =>
    { item with attachmentCount := some (tally Item.parentItemId db.items parentId) }

end MatterDb

def itemRoleStandalone : String := "standalone"

structure ItemInput where
  id : Option String := none
  familyId : Option String := none
  role : Option String := none
  parentItemId : Option String := none
  attachmentCount : Option Int := none
  nativeSha256 : Option String := none
  textSha256 : Option String := none
  htmlSha256 : Option String := none
  deriving DecidableEq, Repr

def insertItem (matter : String) (db : MatterDb) (input : ItemInput) (newId : String) :
    Except CallError (Item × MatterDb) := do
  let id := input.id.getD newId
  let familyId ← db.placeInFamily matter input.parentItemId input.familyId
  if id ∈ db.items.map Item.id then throw (.sqlite "UNIQUE constraint failed: items.id")
  let item : Item := {
    id := id, matterId := matter, familyId := familyId
    role := some (input.role.getD itemRoleStandalone)
    parentItemId := input.parentItemId, attachmentCount := input.attachmentCount
    nativeSha256 := input.nativeSha256, textSha256 := input.textSha256, htmlSha256 := input.htmlSha256 }
  let db := { db with items := db.items ++ [item] }
  let db := match input.parentItemId with
    | some parentId => db.recomputeAttachmentCount parentId
    | none => db
  return (← db.getItem id, db)

/-- The outer `none` leaves a column as it is. -/
structure ItemUpdate where
  familyId : Option (Option String) := none
  role : Option (Option String) := none
  parentItemId : Option (Option String) := none
  attachmentCount : Option (Option Int) := none
  nativeSha256 : Option (Option String) := none
  textSha256 : Option (Option String) := none
  htmlSha256 : Option (Option String) := none
  deriving DecidableEq, Repr

def applyOpt2 {α : Type} (update : Option (Option α)) (current : Option α) : Option α :=
  match update with
  | none => current
  | some v => v

def ItemUpdate.write (update : ItemUpdate) (current : Item) (familyId : Option String) (item : Item) : Item :=
  let bodyDigestChanged := update.textSha256.any (· ≠ current.textSha256)
    || update.htmlSha256.any (· ≠ current.htmlSha256)
  let nativeSha256Changed := update.nativeSha256.any (· ≠ current.nativeSha256)
  { item with
    familyId := familyId
    role := applyOpt2 update.role current.role
    parentItemId := applyOpt2 update.parentItemId current.parentItemId
    attachmentCount := applyOpt2 update.attachmentCount current.attachmentCount
    nativeSha256 := applyOpt2 update.nativeSha256 current.nativeSha256
    textSha256 := applyOpt2 update.textSha256 current.textSha256
    htmlSha256 := applyOpt2 update.htmlSha256 current.htmlSha256
    redactedTextSha256 := if bodyDigestChanged then none else item.redactedTextSha256
    redactedTextAt := if bodyDigestChanged then none else item.redactedTextAt
    redactedSourceDigest := if bodyDigestChanged then none else item.redactedSourceDigest
    geomRedactionCount := if nativeSha256Changed then 0 else item.geomRedactionCount }

def MatterDb.staleGeomRedactions (db : MatterDb) (matter itemId now : String) : MatterDb :=
  { db with itemGeomRedactions := db.itemGeomRedactions.map fun row =>
      if row.itemId = itemId ∧ row.matterId = matter ∧ row.status = .active then
        { row with status := .stale, updatedAt := now }
      else row }

def MatterDb.recountMoved (db : MatterDb) (itemId : String) (oldParent newParent : Option String) : MatterDb :=
  if oldParent = newParent then db
  else
    let db := match oldParent with
      | some old => db.recomputeAttachmentCount old
      | none => db
    match newParent with
    | some new => if new = itemId then db else db.recomputeAttachmentCount new
    | none => db

def updateItem (matter : String) (db : MatterDb) (itemId : String) (update : ItemUpdate)
    (now : String) : Except CallError (Item × MatterDb) := do
  let current ← db.getItem itemId
  let parentItemId := applyOpt2 update.parentItemId current.parentItemId
  -- an item that is its own parent is not checked
  let familyId ← db.placeInFamily matter (parentItemId.filter (· ≠ itemId))
    (applyOpt2 update.familyId current.familyId)
  let db := db.setItem itemId (update.write current familyId)
  let db := if update.nativeSha256.any (· ≠ current.nativeSha256) then db.staleGeomRedactions matter itemId now
    else db
  let db := db.recountMoved itemId current.parentItemId parentItemId
  return (← db.getItem itemId, db)

/-- The recounts of `set_item_family_role`. -/
def MatterDb.recountLinked (db : MatterDb) (oldParent newParent : Option String) : MatterDb :=
  let db := if oldParent = newParent then db
    else match oldParent with
      | some old => db.recomputeAttachmentCount old
      | none => db
  match newParent with
  | some new => db.recomputeAttachmentCount new
  | none => db

def Item.link (familyId : Option String) (role : String) (parentItemId : Option String) (item : Item) : Item :=
  { item with familyId := familyId, role := some role, parentItemId := parentItemId }

def setItemFamilyRole (matter : String) (db : MatterDb) (itemId : String) (familyId : Option String)
    (role : String) (parentItemId : Option String) : Except CallError (Item × MatterDb) := do
  let current ← db.getItem itemId
  let resolvedFamily ← db.placeInFamily matter parentItemId familyId
  let db := db.setItem itemId (Item.link resolvedFamily role parentItemId)
  let db := db.recountLinked current.parentItemId parentItemId
  return (← db.getItem itemId, db)

end MatterCore
