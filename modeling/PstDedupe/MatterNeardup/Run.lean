import PstDedupe.Foundations.KeyedRows
import PstDedupe.Foundations.Resumes
import PstDedupe.MatterNeardup.Cluster
import PstDedupe.Rust.Text

/-!
# The near-duplicate job (`matter-neardup/src/run.rs`, the near-dup queries of `matter-core/src/matter.rs`)

The job sketches the candidates, clusters the signatures and writes the results in batches.
-/

namespace MatterNeardup

open Rust Foundations Prog

inductive NearDupError where
  | matter (message : String)
  | invalidParams (message : String)
  | other (message : String)
  deriving DecidableEq, Repr

instance : IoError NearDupError := ⟨.matter "disk I/O error"⟩

def NearDupError.message : NearDupError → String
  | .matter message => message
  | .invalidParams message => message
  | .other message => message

/-- `Display`. -/
def NearDupError.text : NearDupError → String
  | .matter message => "matter error: " ++ message
  | .invalidParams message => "invalid params: " ++ message
  | .other message => message

structure NearDupCandidate where
  id : String
  textSha256 : Option String := none
  dedupRole : Option String := none
  path : Option String := none
  importedAt : String := ""
  role : Option String := none
  status : String := "extracted"
  deriving DecidableEq, Repr

structure NearDupFields where
  nearDupGroupId : Option String := none
  nearDupRole : Option NearDupRole := none
  nearDupSimilarity : Option Float := none
  nearDupPivotItemId : Option String := none
  nearDupMethod : Option String := none
  nearDupedAt : Option String := none
  nearDupJobId : Option String := none
  deriving DecidableEq

structure ItemRow where
  cand : NearDupCandidate
  fields : NearDupFields := {}
  deriving DecidableEq

abbrev ItemRow.id (r : ItemRow) : String := r.cand.id

/-- `usize` sizes that the signatures depend on are 64 bits wide. -/
structure NearDupParams where
  shingleK : Nat := 5
  cjkCharN : Nat := 2
  numHashes : UInt64 := 128
  numBands : UInt64 := 16
  rowsPerBand : UInt64 := 8
  threshold : Float := 0.80
  hashSeed : UInt64 := 0x4E445F6D685F7631
  skipExactDuplicates : Bool := true
  ignoreNumbers : Bool := true
  minChars : Nat := 80
  reset : Bool := true
  batchSize : Nat := 200
  includeAttachments : Bool := true
  stripEmailQuotes : Bool := false
  deriving DecidableEq

namespace NearDupParams

def validate (p : NearDupParams) : Except String Unit :=
  if p.shingleK = 0 then .error "shingle_k must be >= 1"
  else if p.cjkCharN = 0 then .error "cjk_char_n must be >= 1"
  else if p.numHashes = 0 then .error "num_hashes must be >= 1"
  else if p.numBands = 0 ∨ p.rowsPerBand = 0 then .error "num_bands and rows_per_band must be >= 1"
  else if min (p.numBands.toNat * p.rowsPerBand.toNat) (2 ^ 64 - 1) ≠ p.numHashes.toNat then
    .error ("num_bands * rows_per_band must equal num_hashes (" ++ Nat.repr p.numBands.toNat ++ " * "
      ++ Nat.repr p.rowsPerBand.toNat ++ " != " ++ Nat.repr p.numHashes.toNat ++ ")")
  else if ¬ (0.0 ≤ p.threshold ∧ p.threshold ≤ 1.0) then .error "threshold must be in [0.0, 1.0]"
  else if p.batchSize = 0 then .error "batch_size must be >= 1"
  else if p.stripEmailQuotes then
    .error "strip_email_quotes is not implemented in minhash_shingle_v1 P0 (leave false)"
  else .ok ()

end NearDupParams

inductive Phase where
  | sketch
  | cluster
  | write
  deriving DecidableEq, Repr

/-- The cursor as a later session reads it. That `threshold` comes back from its JSON text is an
assumption. -/
structure CheckpointCursor where
  phase : Phase
  cursorIndex : Nat
  completedCount : Nat
  groupCount : Nat
  memberCount : Nat
  uniqueCount : Nat
  skippedCount : Nat
  params : NearDupParams
  deriving DecidableEq

structure NearDupSummary where
  completedCount : Nat := 0
  groupCount : Nat := 0
  memberCount : Nat := 0
  uniqueCount : Nat := 0
  skippedCount : Nat := 0
  deriving DecidableEq, Repr

inductive NearDupOutcome where
  | succeeded (summary : NearDupSummary)
  | paused (summary : NearDupSummary)
  | failed (message : String) (summary : NearDupSummary)

/-- The items table, by its primary key, the checkpoint of the job and the blobs of the store. -/
structure Matter where
  items : List ItemRow
  checkpoint : Option CheckpointCursor := none
  cas : String → Option (List UInt8)
  keyed : (items.map ItemRow.id).Nodup

structure NearDupCall where
  jobId : String
  params : NearDupParams
  now : String
  random : RandomState

def isEligible (c : NearDupCandidate) : Bool := ["extracted", "partial", "normalized"].contains c.status

def candidateOrder : List (NearDupCandidate → NearDupCandidate → Ordering) :=
  [asc NearDupCandidate.importedAt, asc NearDupCandidate.path, asc NearDupCandidate.id]

def listNeardupCandidates (table : List NearDupCandidate) (includeAttachments : Bool) :
    List NearDupCandidate :=
  orderBy candidateOrder
    (table.filter fun c => isEligible c && (includeAttachments || c.role.getD "" != "attachment"))

def Matter.rewrite (m : Matter) (f : ItemRow → NearDupFields) : Matter :=
  { m with
    items := m.items.map fun r => ⟨r.cand, f r⟩
    keyed := by rw [List.map_map]; exact m.keyed }

def clearNearDupFields (m : Matter) : Matter := m.rewrite fun r => if isEligible r.cand then {} else r.fields

abbrev NearDupFieldUpdate := String × NearDupFields

/-- One `UPDATE` after the other, on one row. -/
def applyUpdates (updates : List NearDupFieldUpdate) (r : ItemRow) : NearDupFields :=
  updates.foldl (fun fields u => if r.id = u.1 then u.2 else fields) r.fields

def applyNearDupBatchWithCheckpoint (updates : List NearDupFieldUpdate)
    (cursor : CheckpointCursor) : Prog Matter NearDupError Unit :=
  transaction fun m => { m.rewrite (applyUpdates updates) with checkpoint := some cursor }

section

variable [Target]

def shinglesOf (params : NearDupParams) (cas : String → Option (List UInt8))
    (cand : NearDupCandidate) : Option (BTreeSet String × Nat) :=
  if params.skipExactDuplicates && cand.dedupRole == some "duplicate" then none
  else
    match cand.textSha256 with
    | none => none
    | some digest =>
      if digest.isEmpty then none
      else
        match cas digest with
        | none => none
        | some bytes =>
          let sketched := textToShingles (fromUtf8Lossy bytes) params.shingleK params.cjkCharN
            params.ignoreNumbers
          if sketched.1.length < params.minChars then none
          else if sketched.2.1.isEmpty then none
          else some sketched.2

variable [Sha256]

def sketchItem (params : NearDupParams) (cas : String → Option (List UInt8))
    (cand : NearDupCandidate) : Option (ItemMeta params.numHashes.toNat) :=
  (shinglesOf params cas cand).map fun sketched =>
    ⟨cand.id, sketched.2, cand.importedAt, cand.path.getD "",
      minhashSignature sketched.1 params.hashSeed params.numHashes.toNat⟩

def skippedResult (cand : NearDupCandidate) : ClusterAssignment := ⟨cand.id, .skipped, none, none, none⟩

structure Sketches (h : Nat) where
  sketched : List (ItemMeta h) := []
  skipped : List ClusterAssignment := []

def Sketches.take (params : NearDupParams) (cas : String → Option (List UInt8))
    (s : Sketches params.numHashes.toNat) (cand : NearDupCandidate) :
    Sketches params.numHashes.toNat :=
  match sketchItem params cas cand with
  | some item => { s with sketched := s.sketched ++ [item] }
  | none => { s with skipped := s.skipped ++ [skippedResult cand] }

def Sketches.count {h : Nat} (s : Sketches h) : Nat := s.skipped.length + s.sketched.length

def sketchCursor {h : Nat} (params : NearDupParams) (phase : Phase) (idx : Nat) (s : Sketches h) :
    CheckpointCursor :=
  ⟨phase, idx, s.count, 0, 0, 0, s.skipped.length, params⟩

def summaryFromCursor (c : CheckpointCursor) : NearDupSummary :=
  ⟨c.completedCount, c.groupCount, c.memberCount, c.uniqueCount, c.skippedCount⟩

def pauseAt (cursor : CheckpointCursor) : Prog Matter NearDupError NearDupSummary := do
  applyNearDupBatchWithCheckpoint [] cursor
  pure (summaryFromCursor cursor)

def sketchLoop (params : NearDupParams) (cas : String → Option (List UInt8)) :
    List NearDupCandidate → Nat → Sketches params.numHashes.toNat →
      Prog Matter NearDupError (NearDupSummary ⊕ Sketches params.numHashes.toNat)
  | [], _, s => pure (.inr s)
  | cand :: rest, idx, s => do
    if ← poll then
      let summary ← pauseAt (sketchCursor params .sketch idx s)
      pure (.inl summary)
    else sketchLoop params cas rest (idx + 1) (s.take params cas cand)

/-- The results, by `item_id` for a deterministic cursor. -/
def clusterPhase [RandomState] (params : NearDupParams) (s : Sketches params.numHashes.toNat) :
    List ClusterAssignment :=
  let candPairs :=
    lshCandidatePairs (s.sketched.map ItemMeta.sig) params.numBands.toNat params.rowsPerBand.toNat
  let assignments := clusterAndScore params.threshold s.sketched (RandomState.visit candPairs)
  orderBy [asc ClusterAssignment.itemId] (s.skipped ++ assignments.map Prod.snd)

def countRole (pending : List ClusterAssignment) (roles : List NearDupRole) : Nat :=
  (pending.filter fun r => roles.contains r.role).length

def writeCursor (params : NearDupParams) (pending : List ClusterAssignment) (cursorIndex : Nat) :
    CheckpointCursor :=
  ⟨.write, cursorIndex, cursorIndex, countRole pending [.pivot],
    countRole pending [.pivot, .member], countRole pending [.unique],
    countRole pending [.skipped], params⟩

def fieldUpdate (call : NearDupCall) (r : ClusterAssignment) : NearDupFieldUpdate :=
  (r.itemId, ⟨r.groupId, some r.role, r.similarity, r.pivotItemId, some "minhash_shingle_v1",
    some call.now, some call.jobId⟩)

/-- The `while` of the write phase. Every round takes a row at least. -/
def writeLoop (call : NearDupCall) (params : NearDupParams) (pending : List ClusterAssignment) :
    Nat → Nat → Prog Matter NearDupError (NearDupSummary ⊕ Unit)
  | 0, _ => pure (.inr ())
  | fuel + 1, cursorIndex =>
    if cursorIndex < pending.length then do
      if ← poll then
        let summary ← pauseAt (writeCursor params pending cursorIndex)
        pure (.inl summary)
      else
        let «end» := min (cursorIndex + max params.batchSize 1) pending.length
        let slice := (pending.take «end»).drop cursorIndex
        applyNearDupBatchWithCheckpoint (slice.map (fieldUpdate call)) (writeCursor params pending «end»)
        writeLoop call params pending fuel «end»
    else pure (.inr ())

def writePhase (call : NearDupCall) (params : NearDupParams) (pending : List ClusterAssignment)
    (resumeFrom : Nat) :
    Prog Matter NearDupError NearDupOutcome := do
  match ← writeLoop call params pending pending.length (min resumeFrom pending.length) with
  | .inl summary => pure (.paused summary)
  | .inr () => pure (.succeeded (summaryFromCursor (writeCursor params pending pending.length)))

def runPhases (call : NearDupCall) (params : NearDupParams) (prior : Option CheckpointCursor) :
    Prog Matter NearDupError NearDupOutcome := do
  let resumeFrom := (prior.map fun c => if c.phase = .write then c.cursorIndex else 0).getD 0
  if ← poll then pure (.paused ((prior.map summaryFromCursor).getD {}))
  else
    let m ← look id
    let candidates := listNeardupCandidates (m.items.map ItemRow.cand) params.includeAttachments
    match ← sketchLoop params m.cas candidates 0 {} with
    | .inl summary => pure (.paused summary)
    | .inr s => do
      if ← poll then
        let summary ← pauseAt (sketchCursor params .cluster 0 s)
        pure (.paused summary)
      else writePhase call params (@clusterPhase _ call.random params s) resumeFrom

def resets (params : NearDupParams) (prior : Option CheckpointCursor) : Bool :=
  params.reset && (prior.map fun c => c.phase != .write && c.completedCount == 0).getD true

def runNeardupInner (call : NearDupCall) (params : NearDupParams)
    (prior : Option CheckpointCursor) : Prog Matter NearDupError NearDupOutcome := do
  if resets params prior then transaction clearNearDupFields
  runPhases call params prior

def effectiveParams (call : NearDupCall) (prior : Option CheckpointCursor) : NearDupParams :=
  (prior.map CheckpointCursor.params).getD call.params

/-- A session of the job. Every audit row is an operation that may fail. -/
def runNeardup (call : NearDupCall) : Prog Matter NearDupError NearDupOutcome := do
  let prior ← look Matter.checkpoint
  let params := effectiveParams call prior
  match params.validate with
  | .error message => fail (.invalidParams message)
  | .ok () => do
    touch
    match ← attempt (runNeardupInner call params prior) with
    | .ok (.succeeded summary) => do
      match ← attempt touch with
      | .ok _ => pure (.succeeded summary)
      | .error e => pure (.failed ("audit complete failed: " ++ e.message) summary)
    | .ok (.paused summary) => pure (.paused summary)
    | .ok (.failed message summary) => do
      match ← attempt touch with
      | .ok _ => pure (.failed message summary)
      | .error e =>
        fail (.other ("audit fail write failed after run failure (" ++ message ++ "): " ++ e.message))
    | .error e => do
      match ← attempt touch with
      | .ok _ => fail e
      | .error ae => fail (.other (e.text ++ "; audit fail write also failed: " ++ ae.message))

end

end MatterNeardup
