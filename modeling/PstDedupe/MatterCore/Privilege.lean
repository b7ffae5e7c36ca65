import PstDedupe.MatterCore.MultiUser

/-!
# Privilege claims (`matter-core/src/privilege.rs`)

`ensureItemPrivilegeConn` and `softClearItemPrivilegeConn` are the writes that coding shares with
the public calls; `upsert_item_privilege` alone runs the guards.
-/

namespace MatterCore

open Rust Foundations

def PrivilegeBasis.parse : String → Option PrivilegeBasis
  | "attorney_client" => some .attorneyClient
  | "work_product" => some .workProduct
  | "attorney_client_work_product" => some .attorneyClientWorkProduct
  | "common_interest" => some .commonInterest
  | "other" => some .other
  | _ => none

def PrivilegeBasis.text : PrivilegeBasis → String
  | .attorneyClient => "attorney_client"
  | .workProduct => "work_product"
  | .attorneyClientWorkProduct => "attorney_client_work_product"
  | .commonInterest => "common_interest"
  | .other => "other"

@[simp] theorem PrivilegeBasis.parse_text (basis : PrivilegeBasis) : parse basis.text = some basis := by
  cases basis <;> rfl

def PrivilegeStatus.parse : String → Option PrivilegeStatus
  | "asserted" => some .asserted
  | "under_review" => some .underReview
  | "cleared" => some .cleared
  | "partial_redaction" => some .partialRedaction
  | _ => none

def PrivilegeStatus.text : PrivilegeStatus → String
  | .asserted => "asserted"
  | .underReview => "under_review"
  | .cleared => "cleared"
  | .partialRedaction => "partial_redaction"

def PrivilegeStatus.active (status : PrivilegeStatus) : Bool := status ≠ .cleared

def validateBasis (basis : String) : Except CallError PrivilegeBasis :=
  match PrivilegeBasis.parse basis with
  | some b => .ok b
  | none => .error (.other ("invalid privilege basis '" ++ basis ++ "'; expected one of: attorney_client, "
      ++ "work_product, attorney_client_work_product, common_interest, other"))

def validateStatus (status : String) : Except CallError PrivilegeStatus :=
  match PrivilegeStatus.parse status with
  | some s => .ok s
  | none => .error (.other ("invalid privilege status '" ++ status
      ++ "'; expected one of: asserted, under_review, cleared, partial_redaction"))

namespace ReviewDb

variable (db : ReviewDb) (matter itemId : String)

def loadPrivilege : Option ItemPrivilege :=
  db.itemPrivilege.find? fun claim => claim.itemId = itemId ∧ claim.matterId = matter

/-- `UPDATE item_privilege … WHERE item_id = ? AND matter_id = ?`. -/
def updatePrivilege (set : ItemPrivilege → ItemPrivilege) : ReviewDb :=
  { db with itemPrivilege := db.itemPrivilege.map fun claim =>
      if claim.itemId = itemId ∧ claim.matterId = matter then set claim else claim }

def insertPrivilege (claim : ItemPrivilege) : Except CallError ReviewDb :=
  if claim.itemId ∈ db.itemPrivilege.map ItemPrivilege.itemId then
    .error (.sqlite "UNIQUE constraint failed: item_privilege.item_id")
  else .ok { db with itemPrivilege := db.itemPrivilege ++ [claim] }

def setItemWithholdCache (withhold : Bool) : ReviewDb :=
  db.onMatter fun m => m.updateItem matter itemId fun item =>
    { item with privilegeWithhold := if withhold then 1 else 0 }

def ensureItemPrivilegeConn (actor now : String) : Except CallError (Bool × ReviewDb) :=
  match db.loadPrivilege matter itemId with
  | some claim =>
    if claim.status.active ∧ claim.withhold = 1 ∧ claim.includeOnLog = 1 then
      .ok (false, db.setItemWithholdCache matter itemId true)
    else
      .ok (true, (db.updatePrivilege matter itemId fun claim =>
        { claim with status := .asserted, withhold := 1, includeOnLog := 1, updatedAt := now, updatedBy := actor
          }).setItemWithholdCache matter itemId true)
  | none =>
    match db.insertPrivilege ⟨itemId, matter, .attorneyClient, "", .asserted, 1, 1, some now,
      some actor, now, actor⟩ with
    | .ok db => .ok (true, db.setItemWithholdCache matter itemId true)
    | .error e => .error e

def softClearItemPrivilegeConn (actor now : String) : Bool × ReviewDb :=
  match db.loadPrivilege matter itemId with
  | none => (false, db.setItemWithholdCache matter itemId false)
  | some claim =>
    if claim.status = .cleared then (false, db.setItemWithholdCache matter itemId false)
    else (true, (db.updatePrivilege matter itemId fun claim =>
      { claim with status := .cleared, withhold := 0, includeOnLog := 0, updatedAt := now, updatedBy := actor
        }).setItemWithholdCache matter itemId false)

end ReviewDb

def ensureItemPrivilegeTxn (matter itemId actor now : String) (db : ReviewDb) : Except CallError ReviewDb := do
  let (changed, db) ← db.ensureItemPrivilegeConn matter itemId actor now
  return if changed then db.appendAudit actor "privilege.upsert" s!"item:{itemId}" now else db

def ensureItemPrivilege (h : ReviewHandle) (db : ReviewDb) (itemId actor now : String) :
    Except CallError ReviewDb := do
  db.ensureItemInMatter h.matterId itemId
  ensureItemPrivilegeTxn h.matterId itemId (normalizeActor actor) now db

def clearItemPrivilegeTxn (matter itemId actor now : String) (db : ReviewDb) : ReviewDb :=
  let (changed, db) := db.softClearItemPrivilegeConn matter itemId actor now
  if changed then db.appendAudit actor "privilege.clear" s!"item:{itemId}" now else db

def clearItemPrivilege (h : ReviewHandle) (db : ReviewDb) (itemId actor now : String) :
    Except CallError ReviewDb := do
  db.ensureItemInMatter h.matterId itemId
  return clearItemPrivilegeTxn h.matterId itemId (normalizeActor actor) now db

structure UpsertItemPrivilegeInput where
  itemId : String
  basis : String
  description : String
  status : String
  withhold : Bool
  includeOnLog : Bool
  actor : String
  expectedVersion : Option Int := none
  deriving DecidableEq, Repr

structure PrivilegeUpsert where
  itemId : String
  basis : PrivilegeBasis
  description : String
  status : PrivilegeStatus
  withhold : Int
  includeOnLog : Int
  actor : String
  expectedVersion : Option Int
  guards : ReviewHandle.Guards
  now : String

def readUpsertItemPrivilege (h : ReviewHandle) (db : ReviewDb) (input : UpsertItemPrivilegeInput)
    (now : String) :
    Except CallError PrivilegeUpsert := do
  db.ensureItemInMatter h.matterId input.itemId
  let basis ← validateBasis (trim input.basis)
  let status ← validateStatus (trim input.status)
  let actor ← h.resolveActorForMutate db input.actor
  return {
    itemId := input.itemId, basis := basis, description := input.description, status := status
    withhold := if status = .cleared then 0 else if input.withhold then 1 else 0
    includeOnLog := if status = .cleared then 0 else if input.includeOnLog then 1 else 0
    actor := actor, expectedVersion := input.expectedVersion
    guards := h.multiUserGuards db input.expectedVersion, now := now }

def PrivilegeUpsert.asserted (u : PrivilegeUpsert) (existing : Option ItemPrivilege) :
    Option String × Option String :=
  match existing.filter (·.assertedAt.isSome) with
  | some claim => (claim.assertedAt, claim.assertedBy)
  | none =>
    if u.status ≠ .cleared then (some u.now, some u.actor)
    else
      match existing with
      | some claim => (claim.assertedAt, claim.assertedBy)
      | none => (none, none)

def PrivilegeUpsert.write (u : PrivilegeUpsert) (asserted : Option String × Option String)
    (claim : ItemPrivilege) :
    ItemPrivilege :=
  { claim with
    basis := u.basis, description := u.description, status := u.status, withhold := u.withhold
    includeOnLog := u.includeOnLog, assertedAt := asserted.1, assertedBy := asserted.2
    updatedAt := u.now, updatedBy := u.actor }

def PrivilegeUpsert.row (u : PrivilegeUpsert) (matter : String)
    (asserted : Option String × Option String) : ItemPrivilege :=
  ⟨u.itemId, matter, u.basis, u.description, u.status, u.withhold, u.includeOnLog, asserted.1,
    asserted.2, u.now, u.actor⟩

def PrivilegeUpsert.txn (matter : String) (u : PrivilegeUpsert) (db : ReviewDb) :
    Except CallError ReviewDb := do
  let (_, db) ← u.guards.prepare db [u.itemId] u.actor u.expectedVersion u.now
  let existing := db.loadPrivilege matter u.itemId
  let asserted := u.asserted existing
  let db ← if existing.isSome then pure (db.updatePrivilege matter u.itemId (u.write asserted))
    else db.insertPrivilege (u.row matter asserted)
  return (db.setItemWithholdCache matter u.itemId (u.withhold = 1)).appendAudit u.actor "privilege.upsert"
    s!"item:{u.itemId}" u.now

def upsertItemPrivilege (h : ReviewHandle) (db : ReviewDb) (input : UpsertItemPrivilegeInput)
    (now : String) : Except CallError ReviewDb := do
  (← readUpsertItemPrivilege h db input now).txn h.matterId db

end MatterCore
