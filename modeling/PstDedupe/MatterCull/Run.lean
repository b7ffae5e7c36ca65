import PstDedupe.Foundations.Resumes
import PstDedupe.Foundations.KeyedRows
import PstDedupe.MatterCull.Eval

/-!
# The cull job (`matter-cull/src/run.rs`, the cull queries of `matter-core/src/matter.rs`)

The job evaluates the candidates in batches and writes the verdicts, then reads them back, spreads
them over the families and writes what that changed.
-/

namespace MatterCull

open Rust Foundations Prog

instance : IoError CullError := ⟨.matter "disk I/O error"⟩

def CullError.message : CullError → String
  | .matter message => message
  | .invalidParams message => message
  | .invalidRules message => message
  | .denist message => message
  | .other message => message

/-- `Display`. -/
def CullError.text : CullError → String
  | .matter message => "matter error: " ++ message
  | .invalidParams message => "invalid params: " ++ message
  | .invalidRules message => "invalid rules: " ++ message
  | .denist message => "denist: " ++ message
  | .other message => message

class ReasonsJson where
  toJson : List String → String
  fromJson : String → Option (List String)

structure ItemRow where
  cand : CullCandidate
  cullReasonsJson : Option String := none
  cullPresetId : Option String := none
  cullPresetName : Option String := none
  culledAt : Option String := none
  cullJobId : Option String := none
  deriving DecidableEq, Repr

namespace ItemRow

def id (r : ItemRow) : String := r.cand.id

end ItemRow

structure CullParams where
  reset : Bool := true
  batchSize : Nat := 500
  deriving DecidableEq, Repr

inductive Phase where
  | items
  | family
  | done
  deriving DecidableEq, Repr

structure CheckpointCursor where
  phase : Phase
  cursorIndex : Nat
  completedCount : Nat
  «included» : Nat
  culled : Nat
  skipped : Nat
  byReason : HashMap String Nat
  params : CullParams
  rules : CullRules
  presetName : Option String
  presetId : Option String

structure CullSummary where
  completedCount : Nat
  «included» : Nat
  culled : Nat
  skipped : Nat
  byReason : HashMap String Nat

inductive CullOutcome where
  | succeeded (summary : CullSummary)
  | paused (summary : CullSummary)
  | failed (message : String) (summary : CullSummary)

structure Matter where
  items : List ItemRow
  checkpoint : Option CheckpointCursor := none
  keyed : (items.map ItemRow.id).Nodup

structure CullFieldUpdate where
  itemId : String
  cullStatus : Option String
  cullReasonsJson : Option String
  cullPresetId : Option String
  cullPresetName : Option String
  culledAt : Option String
  cullJobId : Option String
  deriving DecidableEq, Repr

/-- What a call is given besides the matter. The params that name a preset have been resolved to its
rules. -/
structure CullCall where
  jobId : String
  params : CullParams
  rules : Except CullError (CullRules × Option String × Option String)
  /-- `load_sha256_list`. -/
  loadSha256List : String → Except CullError (List String)

/-- `WHERE` of the candidate queries. -/
def isCandidate (processAttachments : Bool) (c : CullCandidate) : Bool :=
  processAttachments || c.role.getD "" != "attachment"

def cullOrder : List (CullCandidate → CullCandidate → Ordering) :=
  [asc CullCandidate.importedAt, asc CullCandidate.path, asc CullCandidate.id]

def listCullCandidates (m : Matter) (processAttachments : Bool) : List CullCandidate :=
  orderBy cullOrder ((m.items.map ItemRow.cand).filter (isCandidate processAttachments))

def getItem (m : Matter) (id : String) : Option ItemRow := rowAt ItemRow.id m.items id

def Matter.rewrite (m : Matter) (f : ItemRow → ItemRow) (hf : ∀ r, (f r).id = r.id) : Matter :=
  { m with items := m.items.map f, keyed := by rw [map_key_map hf]; exact m.keyed }

def clearRow (processAttachments : Bool) (r : ItemRow) : ItemRow :=
  if isCandidate processAttachments r.cand then ⟨{ r.cand with cullStatus := none }, none, none,
    none, none, none⟩ else r

theorem id_clearRow (processAttachments : Bool) (r : ItemRow) : (clearRow processAttachments r).id = r.id := by
  unfold clearRow
  split <;> rfl

def clearCullFields (processAttachments : Bool) (m : Matter) : Matter :=
  m.rewrite (clearRow processAttachments) (id_clearRow processAttachments)

/-- One `UPDATE`, on one row. -/
def applyUpdate (r : ItemRow) (u : CullFieldUpdate) : ItemRow :=
  if r.id = u.itemId then
    ⟨{ r.cand with cullStatus := u.cullStatus }, u.cullReasonsJson, u.cullPresetId,
      u.cullPresetName, u.culledAt, u.cullJobId⟩
  else r

theorem id_applyUpdate (r : ItemRow) (u : CullFieldUpdate) : (applyUpdate r u).id = r.id := by
  unfold applyUpdate
  split <;> rfl

theorem id_foldl_applyUpdate (updates : List CullFieldUpdate) (r : ItemRow) :
    (updates.foldl applyUpdate r).id = r.id := by
  induction updates generalizing r with
  | nil => rfl
  | cons u updates ih => exact (ih (applyUpdate r u)).trans (id_applyUpdate r u)

def applyCullBatchWithCheckpoint (updates : List CullFieldUpdate) (cursor : CheckpointCursor) :
    Prog Matter CullError Unit :=
  transaction fun m =>
    { m.rewrite (fun r => updates.foldl applyUpdate r) (id_foldl_applyUpdate updates) with checkpoint := some cursor }

section

variable [ReasonsJson]

def summaryFromCursor (cursor : CheckpointCursor) : CullSummary :=
  ⟨cursor.completedCount, cursor.included, cursor.culled, cursor.skipped, cursor.byReason⟩

def countReasons (reasons : List String) (byReason : HashMap String Nat) : HashMap String Nat :=
  reasons.foldl (fun m r => m.update r (· + 1)) byReason

def fieldUpdate (call : CullCall) (presetId presetName : Option String) (now id : String)
    (d : ItemCullDecision) :
    CullFieldUpdate :=
  ⟨id, some d.status, some (ReasonsJson.toJson d.reasons), presetId, presetName, some now, some call.jobId⟩

def countEvaluated (cursor : CheckpointCursor) (d : ItemCullDecision) : CheckpointCursor :=
  let cursor :=
    if d.isCulled then { cursor with culled := cursor.culled + 1, byReason := countReasons d.reasons cursor.byReason }
    else { cursor with «included» := cursor.included + 1 }
  { cursor with completedCount := cursor.completedCount + 1, cursorIndex := cursor.completedCount + 1 }

def buildUpdates (batch : List (String × ItemCullDecision)) (call : CullCall)
    (presetId presetName : Option String) (now : String) (cursor : CheckpointCursor) :
    List CullFieldUpdate × CheckpointCursor :=
  batch.foldl (fun acc x =>
    (acc.1 ++ [fieldUpdate call presetId presetName now x.1 x.2], countEvaluated acc.2 x.2))
    ([], cursor)

section

variable [Chrono] (call : CullCall) (params : CullParams) (rules : CullRules)
  (presetId presetName : Option String)
  (denist : Option (List String)) (now : String)

/-- One candidate. Cumulative: already-flagged rows are skipped when reset is off. -/
def takeCandidate (i : Nat) (cand : CullCandidate) (cursor : CheckpointCursor)
    (batch : List (String × ItemCullDecision)) : CheckpointCursor × List (String × ItemCullDecision) :=
  if !params.reset && cand.cullStatus.isSome then
    ({ cursor with
        skipped := cursor.skipped + 1
        completedCount := cursor.completedCount + 1
        cursorIndex := i + 1 }, batch)
  else (cursor, batch ++ [(cand.id, evaluateItem cand rules denist)])

def itemsLoop (total : Nat) : List CullCandidate → Nat → CheckpointCursor →
    List (String × ItemCullDecision) → Prog Matter CullError (CullSummary ⊕ CheckpointCursor)
  | [], _, cursor, _ => pure (.inr cursor)
  | cand :: rest, i, cursor, batch => do
    if ← poll then pure (.inl (summaryFromCursor cursor))
    else
      let taken := takeCandidate params rules denist i cand cursor batch
      let atEnd := i + 1 == total
      let batchFull := decide (taken.2.length ≥ max params.batchSize 1)
      if batchFull || atEnd then
        let built := buildUpdates taken.2 call presetId presetName now taken.1
        if !taken.2.isEmpty || atEnd then do
          applyCullBatchWithCheckpoint built.1 built.2
          itemsLoop total rest (i + 1) built.2 []
        else itemsLoop total rest (i + 1) built.2 taken.2
      else itemsLoop total rest (i + 1) taken.1 taken.2

end

def readDecision (r : ItemRow) : ItemCullDecision :=
  ⟨r.cand.cullStatus.getD statusIncluded, (r.cullReasonsJson.bind ReasonsJson.fromJson).getD []⟩

def readDecisions (m : Matter) (candidates : List CullCandidate) : Decisions := fun id =>
  if id ∈ candidates.map CullCandidate.id then (getItem m id).map readDecision else none

def priorSnapshot (m : Matter) (candidates : List CullCandidate) (id : String) : Option (String × String) :=
  if id ∈ candidates.map CullCandidate.id then
    (getItem m id).bind fun r => r.cand.cullStatus.map fun status =>
      (status, ReasonsJson.toJson (readDecision r).reasons)
  else none

structure FamilyCounts where
  «included» : Nat := 0
  culled : Nat := 0
  byReason : HashMap String Nat := ∅

def countDecision (counts : FamilyCounts) (d : ItemCullDecision) : FamilyCounts :=
  if d.isCulled then { counts with culled := counts.culled + 1, byReason := countReasons d.reasons counts.byReason }
  else { counts with «included» := counts.included + 1 }

/-- Whether the row is written again: with reset:false a row that matches already is not. -/
def isRewritten (params : CullParams) (snapshot : Option (String × String)) (d : ItemCullDecision) : Bool :=
  params.reset || snapshot != some (d.status, ReasonsJson.toJson d.reasons)

def familyLoop (params : CullParams) (updates : List CullFieldUpdate) :
    Nat → Nat → CheckpointCursor → Prog Matter CullError (CullSummary ⊕ CheckpointCursor)
  | 0, _, cursor => pure (.inr cursor)
  | fuel + 1, offset, cursor =>
    if offset < updates.length then do
      if ← poll then
        let cursor := { cursor with phase := .family, cursorIndex := offset }
        applyCullBatchWithCheckpoint [] cursor
        pure (.inl (summaryFromCursor cursor))
      else
        let «end» := min (offset + max params.batchSize 1) updates.length
        let slice := (updates.take «end»).drop offset
        let cursor := { cursor with
          cursorIndex := «end»
          phase := if «end» = updates.length then .done else .family }
        applyCullBatchWithCheckpoint slice cursor
        familyLoop params updates fuel «end» cursor
    else pure (.inr cursor)

def familyPhase (call : CullCall) (params : CullParams) (rules : CullRules)
    (presetId presetName : Option String) (now : String) (cursor : CheckpointCursor) :
    Prog Matter CullError (CullSummary ⊕ CheckpointCursor) := do
  -- re-read candidates and current decisions from the database
  let m ← look id
  let candidates := listCullCandidates m rules.roles.processAttachments
  let decisions := applyFamilyPolicy candidates (readDecisions m candidates) rules.familyPolicy
  let final := fun (c : CullCandidate) => (decisions c.id).getD .included
  let counts := candidates.foldl (fun counts c => countDecision counts (final c)) {}
  let updates := (candidates.filter fun c => isRewritten params (priorSnapshot m candidates c.id)
    (final c)).map fun c =>
    fieldUpdate call presetId presetName now c.id (final c)
  let cursor := { cursor with
    «included» := counts.included
    culled := counts.culled
    byReason := counts.byReason }
  let offset := cursor.cursorIndex
  if offset > updates.length then
    fail (.other ("family checkpoint cursor_index " ++ Nat.repr offset ++ " exceeds update count "
      ++ Nat.repr updates.length))
  else if updates.isEmpty then
    let cursor := { cursor with phase := .done, cursorIndex := 0 }
    applyCullBatchWithCheckpoint [] cursor
    pure (.inr cursor)
  else familyLoop params updates updates.length offset cursor

variable [Chrono]

def itemsPhase (call : CullCall) (params : CullParams) (rules : CullRules)
    (presetId presetName : Option String) (denist : Option (List String)) (now : String)
    (cursor : CheckpointCursor) :
    Prog Matter CullError (CullSummary ⊕ CheckpointCursor) := do
  let candidates ← look fun m => listCullCandidates m rules.roles.processAttachments
  let start := cursor.cursorIndex
  if start > candidates.length then
    fail (.other ("checkpoint cursor_index " ++ Nat.repr start ++ " exceeds candidate count "
      ++ Nat.repr candidates.length))
  else
    match ← itemsLoop call params rules presetId presetName denist now candidates.length
      (candidates.drop start) start
        cursor [] with
    | .inl summary => pure (.inl summary)
    | .inr cursor =>
      -- move to the family phase
      let cursor := { cursor with phase := .family, cursorIndex := 0 }
      applyCullBatchWithCheckpoint [] cursor
      pure (.inr cursor)

def loadDenist (call : CullCall) (rules : CullRules) : Except CullError (Option (List String)) :=
  if rules.denist.enabled then
    match rules.denist.hashListPath.filter fun p => trim p != "" with
    | none =>
      .error (.denist "denist.enabled but hash_list_path is missing; provide a local SHA-256 list path")
    | some path => (call.loadSha256List path).map some
  else .ok none

def runFamily (call : CullCall) (params : CullParams) (rules : CullRules) (presetName presetId : Option String)
    (now : String) : CullSummary ⊕ CheckpointCursor → Prog Matter CullError CullOutcome
  | .inl summary => pure (.paused summary)
  | .inr cursor => do
    let family ←
      if cursor.phase = .family then familyPhase call params rules presetId presetName now cursor
      else pure (.inr cursor)
    match family with
    | .inl summary => pure (.paused summary)
    | .inr cursor => pure (.succeeded (summaryFromCursor cursor))

def runPhases (call : CullCall) (params : CullParams) (rules : CullRules)
    (presetName presetId : Option String) (denist : Option (List String)) (now : String)
    (cursor : CheckpointCursor) : Prog Matter CullError CullOutcome := do
  let items ←
    if cursor.phase = .items then itemsPhase call params rules presetId presetName denist now cursor
    else pure (.inr cursor)
  runFamily call params rules presetName presetId now items

def runCullInner (call : CullCall) (params : CullParams) (rules : CullRules)
    (presetName presetId : Option String) (now : String) (prior : Option CheckpointCursor) :
    Prog Matter CullError CullOutcome := do
  let denist ← ofResult (loadDenist call rules)
  let cursor : CheckpointCursor := prior.getD ⟨.items, 0, 0, 0, 0, 0, ∅, params, rules, presetName, presetId⟩
  let cursor :=
    { cursor with params := params, rules := rules, presetName := presetName, presetId := presetId }
  let isFresh := cursor.cursorIndex = 0 && cursor.completedCount = 0 && cursor.phase = .items
  if params.reset && isFresh then transaction (clearCullFields rules.roles.processAttachments)
  runPhases call params rules presetName presetId denist now cursor

def resolveParamsAndRules (call : CullCall) :
    Option CheckpointCursor → Except CullError (CullParams × CullRules × Option String × Option String)
  | some prior => .ok (prior.params, prior.rules, prior.presetName, prior.presetId)
  | none =>
    if call.params.batchSize = 0 then .error (.invalidParams "batch_size must be >= 1")
    else call.rules.map fun resolved => (call.params, resolved)

/-- A session of the job. Every audit row is an operation that may fail. -/
def runCull (call : CullCall) (now : String) : Prog Matter CullError CullOutcome := do
  let prior ← look Matter.checkpoint
  let (params, rules, presetName, presetId) ← ofResult (resolveParamsAndRules call prior)
  touch
  match ← attempt (runCullInner call params rules presetName presetId now prior) with
  | .ok (.succeeded summary) => do
    match ← attempt touch with
    | .ok _ => pure (.succeeded summary)
    | .error e => pure (.failed ("audit complete failed: " ++ e.message) summary)
  | .ok (.paused summary) => pure (.paused summary)
  | .ok (.failed message summary) => do
    match ← attempt touch with
    | .ok _ => pure (.failed message summary)
    | .error e =>
      fail (.other ("audit fail write failed after run failure (" ++ message ++ "): " ++ e.message))
  | .error e => do
    match ← attempt touch with
    | .ok _ => fail e
    | .error ae => fail (.other (e.text ++ "; audit fail write also failed: " ++ ae.message))

end

end MatterCull
