import PstDedupe.Foundations.KeyedRows
import PstDedupe.Foundations.Resumes
import PstDedupe.MatterPromote.Select

/-!
# The promote job (`matter-promote/src/run.rs`, the promote calls of `matter-core/src/matter.rs`)

The job plans an ordered membership once, freezes it in its checkpoint and writes it in batches.
-/

namespace MatterPromote

open Rust Foundations Prog

instance : IoError PromoteError := ⟨.matter "disk I/O error"⟩

structure PromoteFields where
  inReview : Option Int := none
  reviewSetId : Option String := none
  reviewOrder : Option Int := none
  promotedAt : Option String := none
  promoteJobId : Option String := none
  promotePolicy : Option String := none
  deriving DecidableEq, Repr

structure ItemRow where
  cand : PromoteCandidate
  fields : PromoteFields := {}
  deriving DecidableEq, Repr

abbrev ItemRow.id (r : ItemRow) : String := r.cand.id

structure ReviewSet where
  id : String
  name : String
  isDefault : Bool
  policy : Option String := none
  policyJson : Option PromoteParams := none
  itemCount : Int := 0
  deriving DecidableEq

inductive Phase where
  | write
  /-- Written, but the row of the review set is not yet up to date. -/
  | snapshot
  | done
  deriving DecidableEq, Repr

structure CheckpointCursor where
  phase : Phase
  cursorIndex : Nat
  completedCount : Nat
  promotedCount : Nat
  resolvedPolicy : String
  reviewSetId : String
  reviewSetName : String
  params : PromoteParams
  orderedIds : List String
  deriving DecidableEq

structure PromoteSummary where
  completedCount : Nat
  promotedCount : Nat
  resolvedPolicy : String
  reviewSetId : String
  reviewSetName : String
  deriving DecidableEq, Repr

inductive PromoteOutcome where
  | succeeded (summary : PromoteSummary)
  | paused (summary : PromoteSummary)
  | failed (message : String) (summary : PromoteSummary)

/-- The items table, by its primary key, the review sets and the checkpoint of the job. -/
structure Matter where
  items : List ItemRow
  reviewSets : List ReviewSet := []
  checkpoint : Option CheckpointCursor := none
  keyed : (items.map ItemRow.id).Nodup

/-- What a session is given: `newSetId` is what `new_id("rset")` would draw. -/
structure PromoteCall where
  jobId : String
  params : PromoteParams
  now : String
  newSetId : String

def Matter.table (m : Matter) : List PromoteCandidate := m.items.map ItemRow.cand

def Matter.rewrite (m : Matter) (f : ItemRow → PromoteFields) : Matter :=
  { m with
    items := m.items.map fun r => ⟨r.cand, f r⟩
    keyed := by rw [List.map_map]; exact m.keyed }

def clearFields (setId : String) (r : ItemRow) : PromoteFields :=
  if r.fields.reviewSetId = some setId then { inReview := some 0 }
  else if r.fields.inReview = some 1 ∧ r.fields.reviewSetId = none then { inReview := some 0 }
  else r.fields

def clearReviewMembershipForSet (setId : String) (m : Matter) : Matter := m.rewrite (clearFields setId)

abbrev PromoteFieldUpdate := String × PromoteFields

/-- One `UPDATE` after the other, on one row. -/
def applyUpdates (updates : List PromoteFieldUpdate) (r : ItemRow) : PromoteFields :=
  updates.foldl (fun fields u => if r.id = u.1 then u.2 else fields) r.fields

def applyPromoteBatchWithCheckpoint (updates : List PromoteFieldUpdate)
    (cursor : CheckpointCursor) : Prog Matter PromoteError Unit :=
  transaction fun m => { m.rewrite (applyUpdates updates) with checkpoint := some cursor }

def getDefaultReviewSet (m : Matter) : Option ReviewSet := m.reviewSets.find? ReviewSet.isDefault

def ensureDefaultReviewSet (newId name : String) : Prog Matter PromoteError ReviewSet := do
  let m ← look id
  match getDefaultReviewSet m with
  | some existing => pure existing
  | none =>
    -- the primary key
    if m.reviewSets.any fun s => s.id == newId then fail (.matter "UNIQUE constraint failed: review_sets.id")
    else do
      let created : ReviewSet := { id := newId, name, isDefault := true }
      transaction fun m => { m with reviewSets := m.reviewSets ++ [created] }
      pure created

def ReviewSet.snapshot (s : ReviewSet) (setId policy : String) (policyJson : PromoteParams)
    (itemCount : Int) : ReviewSet :=
  if s.id = setId then { s with policy := some policy, policyJson := some policyJson, itemCount } else s

def updateReviewSetSnapshot (setId policy : String) (policyJson : PromoteParams) (itemCount : Int) :
    Prog Matter PromoteError Unit := do
  let m ← look id
  if m.reviewSets.any fun s => s.id == setId then
    transaction fun m => { m with reviewSets := m.reviewSets.map fun s => s.snapshot setId policy policyJson itemCount }
  else fail (.matter ("review set not found: " ++ setId))

def summaryFromCursor (c : CheckpointCursor) : PromoteSummary :=
  ⟨c.completedCount, c.promotedCount, c.resolvedPolicy, c.reviewSetId, c.reviewSetName⟩

def finalizePromote (params : PromoteParams) (cursor : CheckpointCursor) :
    Prog Matter PromoteError PromoteOutcome := do
  updateReviewSetSnapshot cursor.reviewSetId cursor.resolvedPolicy params cursor.promotedCount
  let finished := { cursor with phase := .done }
  applyPromoteBatchWithCheckpoint [] finished
  if finished.promotedCount = 0 then
    let _ ← attempt touch
    pure (.succeeded (summaryFromCursor finished))
  else pure (.succeeded (summaryFromCursor finished))

def fieldUpdate (call : PromoteCall) (cursor : CheckpointCursor) (order : Nat) (id : String) :
    PromoteFieldUpdate :=
  (id, ⟨some 1, some cursor.reviewSetId, some order, some call.now, some call.jobId,
    some cursor.resolvedPolicy⟩)

def batchUpdates (call : PromoteCall) (cursor : CheckpointCursor) (offset «end» : Nat) :
    List PromoteFieldUpdate :=
  ((cursor.orderedIds.take «end»).drop offset).mapIdx fun i id => fieldUpdate call cursor (offset + i + 1) id

def CheckpointCursor.advance (c : CheckpointCursor) («end» : Nat) : CheckpointCursor :=
  { c with
    cursorIndex := «end»
    completedCount := «end»
    phase := if «end» = c.orderedIds.length then .snapshot else c.phase }

/-- The `while` of the write phase. Every round takes an id at least. -/
def writeLoop (call : PromoteCall) (batchSize : Nat) :
    Nat → CheckpointCursor → Nat → Prog Matter PromoteError (PromoteSummary ⊕ CheckpointCursor)
  | 0, cursor, _ => pure (.inr cursor)
  | fuel + 1, cursor, offset =>
    if offset < cursor.orderedIds.length then do
      if ← poll then
        let paused := { cursor with cursorIndex := offset, phase := .write }
        applyPromoteBatchWithCheckpoint [] paused
        pure (.inl (summaryFromCursor paused))
      else
        let «end» := min (offset + batchSize) cursor.orderedIds.length
        applyPromoteBatchWithCheckpoint (batchUpdates call cursor offset «end») (cursor.advance «end»)
        writeLoop call batchSize fuel (cursor.advance «end») «end»
    else pure (.inr cursor)

def writeMembership (call : PromoteCall) (params : PromoteParams) (cursor : CheckpointCursor) :
    Prog Matter PromoteError PromoteOutcome := do
  match ← writeLoop call (max params.batchSize 1) cursor.orderedIds.length cursor cursor.cursorIndex with
  | .inl summary => pure (.paused summary)
  | .inr written =>
    if written.orderedIds.length = 0 then
      let empty := { written with phase := .snapshot, cursorIndex := 0, completedCount := 0 }
      applyPromoteBatchWithCheckpoint [] empty
      finalizePromote params empty
    else finalizePromote params written

def promoteMembership (call : PromoteCall) (params : PromoteParams) (cursor : CheckpointCursor) :
    Prog Matter PromoteError PromoteOutcome :=
  if cursor.phase = .done ∨ cursor.phase = .snapshot then finalizePromote params cursor
  else if params.failIfEmpty ∧ cursor.orderedIds = [] then
    pure (.failed "fail_if_empty: review set membership is empty" (summaryFromCursor cursor))
  else if cursor.cursorIndex > cursor.orderedIds.length then
    fail (.other ("checkpoint cursor_index " ++ Nat.repr cursor.cursorIndex ++
      " exceeds membership count " ++ Nat.repr cursor.orderedIds.length))
  else writeMembership call params cursor

def startCursor (params : PromoteParams) (resolvedPolicy : String) (reviewSet : ReviewSet)
    (prior : Option CheckpointCursor) :
    CheckpointCursor :=
  { prior.getD ⟨.write, 0, 0, 0, resolvedPolicy, reviewSet.id, reviewSet.name, params, []⟩ with
    params, resolvedPolicy, reviewSetId := reviewSet.id, reviewSetName := reviewSet.name }

def CheckpointCursor.isFresh (c : CheckpointCursor) : Bool :=
  c.cursorIndex == 0 && c.completedCount == 0 && c.orderedIds.isEmpty && c.phase == .write

def planMembership (params : PromoteParams) (resolvedPolicy : String) (cursor : CheckpointCursor) :
    Prog Matter PromoteError CheckpointCursor := do
  if cursor.orderedIds = [] then
    let table ← look Matter.table
    match plannedIds table params resolvedPolicy with
    | .error e => fail e
    | .ok ids => pure { cursor with orderedIds := ids, promotedCount := ids.length }
  else pure cursor

def setName (params : PromoteParams) : String :=
  if (trim params.reviewSetName).isEmpty then "Review Corpus" else trim params.reviewSetName

def runPromoteInner (call : PromoteCall) (params : PromoteParams) (resolvedPolicy : String)
    (prior : Option CheckpointCursor) :
    Prog Matter PromoteError PromoteOutcome := do
  let reviewSet ← ensureDefaultReviewSet call.newSetId (setName params)
  let cursor := startCursor params resolvedPolicy reviewSet prior
  if params.reset && cursor.isFresh then transaction (clearReviewMembershipForSet reviewSet.id)
  let cursor ← planMembership params resolvedPolicy cursor
  promoteMembership call params cursor

def resolveParams (table : List PromoteCandidate) (call : PromoteParams)
    (prior : Option CheckpointCursor) : Except PromoteError (PromoteParams × String) :=
  match prior with
  | some prior =>
    match prior.params.validateShape with
    | .error e => .error (.invalidParams ("checkpoint params: " ++ e.text))
    | .ok () =>
      if prior.resolvedPolicy.isEmpty then (resolvePolicy table prior.params.policy).map fun p =>
        (prior.params, p)
      else .ok (prior.params, prior.resolvedPolicy)
  | none => do
    call.validateShape
    let resolved ← resolvePolicy table call.policy
    pure (call, resolved)

/-- A session of the job. Every audit row is an operation that may fail. -/
def runPromote (call : PromoteCall) : Prog Matter PromoteError PromoteOutcome := do
  let m ← look id
  match resolveParams m.table call.params m.checkpoint with
  | .error e => fail e
  | .ok (params, resolvedPolicy) => do
    touch
    match ← attempt (runPromoteInner call params resolvedPolicy m.checkpoint) with
    | .ok (.succeeded summary) => do
      match ← attempt touch with
      | .ok _ => pure (.succeeded summary)
      | .error e => pure (.failed ("audit complete failed: " ++ e.text) summary)
    | .ok (.paused summary) => pure (.paused summary)
    | .ok (.failed message summary) => do
      match ← attempt touch with
      | .ok _ => pure (.failed message summary)
      | .error e =>
        fail (.other ("audit fail write failed after run failure (" ++ message ++ "): " ++ e.text))
    | .error e => do
      match ← attempt touch with
      | .ok _ => fail e
      | .error ae => fail (.other (e.text ++ "; audit fail write also failed: " ++ ae.text))

end MatterPromote
