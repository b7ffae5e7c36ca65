import PstDedupe.MatterCore.MultiUser
import PstDedupe.Rust.Chrono

/-!
# Locks, batches and checkouts (`matter-core/src/multi_user.rs`)

Every call reads the clock and the user, and writes in one transaction.
-/

namespace MatterCore

open Rust Foundations

def defaultLockTtlHours : Int := 4

/-- `Utc::now() + Duration::hours(ttl)`, where `plusHours` adds hours to a time, or panics. -/
def lockExpiry (plusHours : CivilTime → Int → Option CivilTime) (later : CivilTime)
    (ttlHours : Option Int) : Option CivilTime :=
  plusHours later (max (ttlHours.getD defaultLockTtlHours) 1)

def ReviewDb.putLock (db : ReviewDb) (lock : ItemLock) : ReviewDb :=
  if lock.itemId ∈ db.itemLocks.map ItemLock.itemId then
    { db with itemLocks := db.itemLocks.map fun row => if row.itemId = lock.itemId then lock else row }
  else { db with itemLocks := db.itemLocks ++ [lock] }

def lockItemTxn (lock : ItemLock) (now : String) (db : ReviewDb) : Except CallError ReviewDb :=
  match db.activeLock lock.itemId now with
  | (some existing, db) =>
    if existing.userId ≠ lock.userId then .error (.locked lock.itemId existing.userId)
    else .ok ((db.putLock lock).appendAudit lock.userId "item.lock" s!"item:{lock.itemId}" now)
  | (none, db) => .ok ((db.putLock lock).appendAudit lock.userId "item.lock" s!"item:{lock.itemId}" now)

def lockItem (h : ReviewHandle) (db : ReviewDb) (itemId userId : String) (reason : Option String)
    (now expires : CivilTime) : Except CallError ReviewDb := do
  db.ensureItemInMatter h.matterId itemId
  match db.loadUser userId with
  | none => throw (.other s!"user not found: {userId}")
  | some user =>
    if user.disabledAt.isSome then throw (.forbidden "user is disabled")
    lockItemTxn ⟨itemId, userId, now.rfc3339, expires.rfc3339, reason⟩ now.rfc3339 db

def unlockItem (db : ReviewDb) (itemId userId : String) (now : CivilTime) : Except CallError ReviewDb :=
  match db.activeLock itemId now.rfc3339 with
  | (some existing, db) =>
    if existing.userId ≠ userId then .error (.locked itemId existing.userId)
    else .ok ((db.deleteLock itemId).appendAudit userId "item.unlock" s!"item:{itemId}" now.rfc3339)
  | (none, db) => .ok ((db.deleteLock itemId).appendAudit userId "item.unlock" s!"item:{itemId}" now.rfc3339)

def UserRole.rank : UserRole → Nat
  | .admin => 3
  | .reviewer => 2
  | .readOnly => 1

def UserRole.text : UserRole → String
  | .admin => "admin"
  | .reviewer => "reviewer"
  | .readOnly => "read_only"

def requireRole (user : MatterUser) (minRole : UserRole) : Except CallError Unit :=
  if user.disabledAt.isSome then .error (.forbidden "user is disabled")
  else if user.role.rank < minRole.rank then
    .error (.forbidden ("role '" ++ user.role.text ++ "' insufficient; requires at least '" ++
      minRole.text ++ "'"))
  else .ok ()

def forceUnlock (db : ReviewDb) (itemId adminUserId : String) (now : CivilTime) : Except CallError ReviewDb :=
  match db.loadUser adminUserId with
  | none => .error (.unauthorized s!"user not found: {adminUserId}")
  | some admin => do
    requireRole admin .admin
    let (_, db) := db.activeLock itemId now.rfc3339
    return (db.deleteLock itemId).appendAudit adminUserId "item.force_unlock" s!"item:{itemId}" now.rfc3339

def createBatch (h : ReviewHandle) (db : ReviewDb) (name : String) (itemIds : List String) (createdBy : String)
    (filterJson : Option String) (newId : String) (now : CivilTime) : Except CallError ReviewDb := do
  if trim name = "" then throw (.other "batch name must not be empty")
  if itemIds = [] then throw (.other "batch requires at least one item_id")
  let createdBy ← h.resolveActorForMutate db createdBy
  let unique := vecDedup (sortStrings itemIds)
  unique.forM (db.ensureItemInMatter h.matterId)
  if newId ∈ db.reviewBatches.map
    ReviewBatch.id then throw (.sqlite "UNIQUE constraint failed: review_batches.id")
  let db : ReviewDb := { db with
    reviewBatches := db.reviewBatches ++ [⟨newId, trim name, createdBy, .«open», filterJson, now.rfc3339⟩]
    reviewBatchItems := db.reviewBatchItems ++ unique.map (ReviewBatchItem.mk newId) }
  return db.appendAudit createdBy "batch.create" s!"batch:{newId}" now.rfc3339

def ReviewDb.putCheckout (db : ReviewDb) (batchId userId now : String) : ReviewDb :=
  if ∃ row ∈ db.batchCheckouts, row.batchId = batchId ∧ row.userId = userId then
    { db with batchCheckouts := db.batchCheckouts.map fun row =>
        if row.batchId = batchId ∧ row.userId = userId then { row with checkedOutAt := now, checkedInAt := none } else row }
  else { db with batchCheckouts := db.batchCheckouts ++ [⟨batchId, userId, now, none⟩] }

def checkoutBatchTxn (batchId userId now : String) (db : ReviewDb) : Except CallError ReviewDb :=
  match rowAt ReviewBatch.id db.reviewBatches batchId with
  | none => .error (.other s!"batch not found: {batchId}")
  | some batch =>
    if batch.status ≠ .«open» then .error (.conflict s!"batch {batchId} is not open")
    else
      match db.batchCheckouts.find? fun row => row.batchId = batchId ∧ row.checkedInAt = none with
      | some active =>
        if active.userId ≠ userId then .error (.conflict s!"batch {batchId} is checked out by {active.userId}")
        else .ok db
      | none => .ok ((db.putCheckout batchId userId now).appendAudit userId "batch.checkout" s!"batch:{batchId}" now)

def checkoutBatch (db : ReviewDb) (batchId userId : String) (now : CivilTime) : Except CallError ReviewDb :=
  match db.loadUser userId with
  | none => .error (.other s!"user not found: {userId}")
  | some user => do
    requireRole user .reviewer
    checkoutBatchTxn batchId userId now.rfc3339 db

def ReviewDb.checkIn (db : ReviewDb) (fits : BatchCheckout → Bool) (now : String) : ReviewDb :=
  { db with batchCheckouts := db.batchCheckouts.map fun row =>
      if fits row ∧ row.checkedInAt = none then { row with checkedInAt := some now } else row }

def checkinBatch (db : ReviewDb) (batchId userId : String) (now : CivilTime) : Except CallError ReviewDb :=
  if ∃ row ∈ db.batchCheckouts, row.batchId = batchId ∧ row.userId = userId ∧ row.checkedInAt = none then
    .ok ((db.checkIn (fun row => row.batchId = batchId ∧ row.userId = userId) now.rfc3339).appendAudit userId
      "batch.checkin" s!"batch:{batchId}" now.rfc3339)
  else .error (.conflict s!"no active checkout of batch {batchId} for user {userId}")

def logoutUserReleaseLocks (db : ReviewDb) (userId : String) (now : CivilTime) : ReviewDb :=
  (({ db with
      matterSessions := db.matterSessions.filter fun session => session.userId ≠ userId
      itemLocks := db.itemLocks.filter fun lock => lock.userId ≠ userId }).checkIn
        (fun row => row.userId = userId) now.rfc3339).appendAudit userId "user.logout" s!"user:{userId}" now.rfc3339

end MatterCore
