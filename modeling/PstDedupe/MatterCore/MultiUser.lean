import PstDedupe.Foundations.Fallible
import PstDedupe.Foundations.KeyedRows
import PstDedupe.MatterCore.MatterDb

/-!
# The tables of review (`matter-core/src/schema.rs`, `matter.rs`, `multi_user.rs`, `privilege.rs`)

Codes, notes, highlights and privilege claims of items, and the users, locks and batches that guard
them.
-/

namespace MatterCore

open Rust Foundations

inductive UserRole where
  | admin | reviewer | readOnly
  deriving DecidableEq, Repr

structure MatterUser where
  id : String
  displayName : String
  role : UserRole
  createdAt : String := ""
  disabledAt : Option String := none
  deriving DecidableEq, Repr

structure MatterSession where
  tokenHash : String
  userId : String
  expiresAt : String
  createdAt : String
  deriving DecidableEq, Repr

structure ItemLock where
  itemId : String
  userId : String
  lockedAt : String
  expiresAt : String
  reason : Option String := none
  deriving DecidableEq, Repr

inductive BatchStatus where
  | «open» | closed
  deriving DecidableEq, Repr

structure ReviewBatch where
  id : String
  name : String
  createdBy : String
  status : BatchStatus
  filterJson : Option String := none
  createdAt : String := ""
  deriving DecidableEq, Repr

structure ReviewBatchItem where
  batchId : String
  itemId : String
  deriving DecidableEq, Repr

structure BatchCheckout where
  batchId : String
  userId : String
  checkedOutAt : String
  checkedInAt : Option String := none
  deriving DecidableEq, Repr

/-- `single` (mutual exclusion within group) or `multi`. -/
inductive Cardinality where
  | single | multi
  deriving DecidableEq, Repr

structure CodeDef where
  id : String
  matterId : String
  key : String
  label : String
  groupKey : String
  cardinality : Cardinality
  color : Option String := none
  sortOrder : Int := 0
  isActive : Int := 1
  createdAt : String := ""
  guidance : Option String := none
  deriving DecidableEq, Repr

structure ItemCode where
  itemId : String
  codeId : String
  setAt : String
  setBy : String
  deriving DecidableEq, Repr

structure ItemNote where
  id : String
  itemId : String
  matterId : String
  body : String
  highlightId : Option String := none
  createdAt : String
  updatedAt : String
  createdBy : String
  updatedBy : String
  deriving DecidableEq, Repr

/-- Stand-off text highlight on Review display text. Its status is one of the two of a redaction. -/
structure ItemHighlight where
  id : String
  itemId : String
  matterId : String
  startUtf8 : Int
  endUtf8 : Int
  exactQuote : String
  prefixContext : Option String := none
  suffixContext : Option String := none
  bodyDigest : String
  color : String
  status : RedactionStatus
  createdAt : String
  updatedAt : String
  createdBy : String
  deriving DecidableEq, Repr

inductive PrivilegeBasis where
  | attorneyClient | workProduct | attorneyClientWorkProduct | commonInterest | other
  deriving DecidableEq, Repr

inductive PrivilegeStatus where
  | asserted | underReview | cleared | partialRedaction
  deriving DecidableEq, Repr

structure ItemPrivilege where
  itemId : String
  matterId : String
  basis : PrivilegeBasis
  description : String
  status : PrivilegeStatus
  withhold : Int
  includeOnLog : Int
  assertedAt : Option String
  assertedBy : Option String
  updatedAt : String
  updatedBy : String
  deriving DecidableEq, Repr

structure AuditRow where
  actor : String
  action : String
  entity : String
  ts : String
  deriving DecidableEq, Repr

structure ReviewDb extends MatterDb where
  multiUserEnabled : Bool := false
  matterUsers : List MatterUser := []
  matterSessions : List MatterSession := []
  itemLocks : List ItemLock := []
  reviewBatches : List ReviewBatch := []
  reviewBatchItems : List ReviewBatchItem := []
  batchCheckouts : List BatchCheckout := []
  codeDefinitions : List CodeDef := []
  itemCodes : List ItemCode := []
  itemNotes : List ItemNote := []
  itemHighlights : List ItemHighlight := []
  itemPrivilege : List ItemPrivilege := []
  auditEvents : List AuditRow := []

structure ReviewHandle where
  matterId : String
  strictActor : Bool := false
  deriving DecidableEq, Repr

namespace ReviewDb

variable (db : ReviewDb)

def onMatter (f : MatterDb → MatterDb) : ReviewDb := { db with toMatterDb := f db.toMatterDb }

def appendAudit (actor action entity now : String) : ReviewDb :=
  { db with auditEvents := db.auditEvents ++ [⟨actor, action, entity, now⟩] }

def loadUser (userId : String) : Option MatterUser := rowAt MatterUser.id db.matterUsers userId

end ReviewDb

def committed (db : ReviewDb) : Except CallError ReviewDb → ReviewDb
  | .ok db' => db'
  | .error _ => db

/-!
# Guards of review (`matter-core/src/multi_user.rs`)

`prepareReviewMutates` is the guard that a mutation runs first in its transaction: for every item it
writes it looks for a lock of another user and for a checkout that excludes the item, and then
checks and raises `review_version`.
-/

namespace ReviewDb

variable (db : ReviewDb)

def getReviewVersion (itemId : String) : Except CallError Int :=
  match rowAt Item.id db.items itemId with
  | some item => .ok item.reviewVersion
  | none => .error (.itemNotFound itemId)

def bumpReviewVersion (itemId : String) (expected : Option Int) (requireExpected : Bool) :
    Except CallError (Int × ReviewDb) :=
  if requireExpected ∧ expected = none then .error (.other "expected_version is required for this mutate")
  else
    match db.getReviewVersion itemId with
    | .error e => .error e
    | .ok actual =>
      match expected.filter (· ≠ actual) with
      | some exp => .error (.versionConflict exp actual)
      | none => .ok (actual + 1, db.onMatter fun m => m.setItem itemId fun item =>
          { item with reviewVersion := item.reviewVersion + 1 })

def deleteLock (itemId : String) : ReviewDb :=
  { db with itemLocks := db.itemLocks.filter fun lock => lock.itemId ≠ itemId }

def activeLock (itemId now : String) : Option ItemLock × ReviewDb :=
  match rowAt ItemLock.itemId db.itemLocks itemId with
  | none => (none, db)
  | some lock => if lock.expiresAt ≤ now then (none, db.deleteLock itemId) else (some lock, db)

def assertBatchMutateAllowed (itemId userId : String) : Except CallError Unit :=
  let active := db.batchCheckouts.filter fun checkout => checkout.userId = userId ∧ checkout.checkedInAt = none
  if active = [] then .ok ()
  else if ∃ checkout ∈ active, ∃ row ∈ db.reviewBatchItems, row.batchId = checkout.batchId ∧
    row.itemId = itemId then
    .ok ()
  else .error (.forbidden
    s!"item {itemId} is outside your checked-out batch(es); check in or mutate batch members only")

def assertCanMutate (itemId userId now : String) (enforce : Bool) : Except CallError ReviewDb :=
  if enforce then
    match db.activeLock itemId now with
    | (some lock, db) =>
      if lock.userId ≠ userId then .error (.locked itemId lock.userId)
      else
        match db.assertBatchMutateAllowed itemId userId with
        | .ok () => .ok db
        | .error e => .error e
    | (none, db) =>
      match db.assertBatchMutateAllowed itemId userId with
      | .ok () => .ok db
      | .error e => .error e
  else .ok db

end ReviewDb

def ReviewDb.prepareReviewMutates (actor : String) (expected : Option Int)
    (enforceLocks requireExpected : Bool) (now : String) :
    List String → ReviewDb → Except CallError (List Int × ReviewDb)
  | [], db => .ok ([], db)
  | itemId :: rest, db => do
    let db ← db.assertCanMutate itemId actor now enforceLocks
    let (version, db) ← db.bumpReviewVersion itemId expected requireExpected
    let (versions, db) ← prepareReviewMutates actor expected enforceLocks requireExpected now rest db
    return (version :: versions, db)

def ReviewDb.bumpAll (expected : Option Int) : List String → ReviewDb → Except CallError (List Int × ReviewDb)
  | [], db => .ok ([], db)
  | itemId :: rest, db => do
    let (version, db) ← db.bumpReviewVersion itemId expected false
    let (versions, db) ← bumpAll expected rest db
    return (version :: versions, db)

def ReviewDb.resolveStrictActor (db : ReviewDb) (actor : String) : Except CallError String :=
  if trim actor = "" then .error (.unauthorized "strict actor mode requires a valid user id")
  else
    match db.loadUser (trim actor) with
    | none => .error (.unauthorized s!"strict actor mode: actor '{trim actor}' is not a matter user id")
    | some user => if user.disabledAt.isSome then .error (.forbidden "user is disabled") else .ok user.id

namespace ReviewHandle

variable (h : ReviewHandle)

def resolveActorForMutate (db : ReviewDb) (actor : String) : Except CallError String :=
  if h.strictActor then db.resolveStrictActor actor else .ok (normalizeActor actor)

structure Guards where
  active : Bool
  enforceLocks : Bool
  requireExpected : Bool

def multiUserGuards (db : ReviewDb) (expectedVersion : Option Int) : Guards where
  active := h.strictActor || expectedVersion.isSome || db.multiUserEnabled
  enforceLocks := db.multiUserEnabled
  requireExpected := h.strictActor || db.multiUserEnabled

def Guards.prepare (g : Guards) (db : ReviewDb) (itemIds : List String) (actor : String)
    (expected : Option Int) (now : String) : Except CallError (List Int × ReviewDb) :=
  if g.active then db.prepareReviewMutates actor expected g.enforceLocks g.requireExpected now itemIds
  else db.bumpAll expected itemIds

end ReviewHandle

end MatterCore
