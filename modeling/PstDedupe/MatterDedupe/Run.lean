import PstDedupe.Foundations.Resumes
import PstDedupe.MatterDedupe.Parents

/-!
# The dedupe job (`matter-dedupe/src/run.rs`)

The job passes the email parents in pages and gives them roles, then passes the duplicate parents
and gives roles to their attachments.
-/

namespace MatterDedupe

open Rust MatterCore Foundations Prog

inductive DedupeError where
  | matter (message : String)
  | invalidParams (message : String)
  | json (message : String)
  | other (message : String)
  deriving DecidableEq, Repr

instance : IoError DedupeError := ⟨.matter "disk I/O error"⟩

def DedupeError.message : DedupeError → String
  | .matter message => message
  | .invalidParams message => message
  | .json message => message
  | .other message => message

/-- `Display`. -/
def DedupeError.text : DedupeError → String
  | .matter message => "matter error: " ++ message
  | .invalidParams message => "invalid params: " ++ message
  | .json message => "JSON error: " ++ message
  | .other message => message

inductive Phase where
  | parents
  | family
  deriving DecidableEq, Repr

structure CheckpointCursor where
  cursorIndex : Nat := 0
  completedCount : Nat := 0
  counts : Counts := {}
  /-- `parents` while scoring parents; `family` during family attach pass. -/
  phase : Phase := .parents
  /-- Index into parents that were marked duplicate (family pass only). -/
  familyCursor : Nat := 0
  params : DedupeParams
  deriving DecidableEq, Repr

structure DedupeSummary where
  counts : Counts
  completedCount : Nat
  deriving DecidableEq, Repr

inductive DedupeOutcome where
  | succeeded (summary : DedupeSummary)
  | paused (summary : DedupeSummary)
  | failed (message : String) (summary : DedupeSummary)
  deriving DecidableEq, Repr

structure Matter where
  items : List Item
  checkpoint : Option CheckpointCursor := none
  keyed : (items.map Item.id).Nodup

structure DedupeCall where
  jobId : String
  params : DedupeParams

def summaryFromCursor (cursor : CheckpointCursor) : DedupeSummary := ⟨cursor.counts, cursor.completedCount⟩

def clearTransaction (includeAttachments : Bool) : Prog Matter DedupeError Unit :=
  transaction fun m => { m with
    items := clearDedupeFields includeAttachments m.items
    keyed := by rw [map_id_clearDedupeFields]; exact m.keyed }

def Matter.commit (updates : List DedupRoleUpdate) (cursor : CheckpointCursor) (m : Matter) : Matter where
  items := written updates m.items
  checkpoint := some cursor
  keyed := by rw [map_id_written]; exact m.keyed

def commitBatch (updates : List DedupRoleUpdate) (cursor : CheckpointCursor) : Prog Matter DedupeError Unit :=
  transaction (Matter.commit updates cursor)

structure Pass where
  cursor : CheckpointCursor
  staged : List DedupRoleUpdate := []

/-- `if !staged.is_empty() { commit_batch }`. -/
def Pass.flush (s : Pass) : Prog Matter DedupeError Unit :=
  if s.staged.isEmpty then pure () else commitBatch s.staged s.cursor

def Pass.pause (s : Pass) : Prog Matter DedupeError DedupeOutcome := do
  s.flush
  pure (.paused (summaryFromCursor s.cursor))

def Pass.isFull (params : DedupeParams) (s : Pass) : Bool := decide (s.staged.length ≥ max params.batchSize 1)

section

variable [Target] [Sha256]

def CheckpointCursor.advance (cursor : CheckpointCursor) : CheckpointCursor :=
  { cursor with cursorIndex := cursor.cursorIndex + 1, completedCount := cursor.cursorIndex + 1 }

def stageParent (call : DedupeCall) (params : DedupeParams) (cand : Item) (maps : KeyMaps)
    (s : Pass) : KeyMaps × Pass :=
  let resolved := resolveParent cand call.jobId params maps s.cursor.counts
  (resolved.maps, ⟨{ s.cursor with counts := resolved.counts }.advance, s.staged ++ [resolved.update]⟩)

def pageLoop (call : DedupeCall) (params : DedupeParams) :
    List Item → KeyMaps → Pass → Prog Matter DedupeError (DedupeOutcome ⊕ (KeyMaps × Pass))
  | [], maps, s => pure (.inr (maps, s))
  | cand :: rest, maps, s => do
    if ← poll then do
      let o ← s.pause
      pure (.inl o)
    -- incremental mode: skip already-assigned roles, but still seed the maps
    else if !params.reset && cand.dedupRole.isSome then
      pageLoop call params rest (seedMapsFromExisting params maps cand) ⟨s.cursor.advance, s.staged⟩
    else
      let (maps, s) := stageParent call params cand maps s
      if s.isFull params then do
        commitBatch s.staged s.cursor
        pageLoop call params rest maps ⟨s.cursor, []⟩
      else pageLoop call params rest maps s

def PAGE : Nat := 500

/-- `while i < total`. A page that is not empty moves the cursor. -/
def parentsLoop (call : DedupeCall) (params : DedupeParams) (total : Nat) :
    Nat → KeyMaps → Pass → Prog Matter DedupeError (DedupeOutcome ⊕ Pass)
  | 0, _, s => pure (.inr s)
  | fuel + 1, maps, s =>
    let i := s.cursor.cursorIndex
    if i < total then do
      if ← poll then do
        let o ← s.pause
        pure (.inl o)
      else do
        let page ← look fun m => listEmailParentsRange m.items i (min (total - i) PAGE)
        if page.isEmpty then pure (.inr s)
        else do
          match ← pageLoop call params page maps s with
          | .inl o => pure (.inl o)
          | .inr (maps, s) => parentsLoop call params total fuel maps s
    else pure (.inr s)

def runParentPass (call : DedupeCall) (params : DedupeParams) (maps : KeyMaps)
    (cursor : CheckpointCursor) : Prog Matter DedupeError (DedupeOutcome ⊕ CheckpointCursor) := do
  let total ← look fun m => countEmailParents m.items
  match ← parentsLoop call params total total maps ⟨cursor, []⟩ with
  | .inl o => pure (.inl o)
  | .inr s => do
    s.flush
    pure (.inr s.cursor)

variable [ExtraJson]

def attachIsParent : DedupeError := .other "internal: attach duplicate_of resolved to parent email"

omit [Sha256] in
def stageChild (call : DedupeCall) (canonParentId : Option String) (canonChildren : List Item)
    (child : Item) (s : Pass) : Pass :=
  let counts := s.cursor.counts
  ⟨{ s.cursor with
      counts := if isAlreadyFamily child then counts else { counts with duplicate := counts.duplicate + 1 } },
    s.staged ++ [familyUpdate call.jobId canonParentId canonChildren child]⟩

omit [Sha256] in
def isParentTwin (canonParentId : Option String) (canonChildren : List Item) (child : Item) : Bool :=
  (matchAttach child canonChildren).1.isSome && (matchAttach child canonChildren).1 == canonParentId

omit [Sha256] in
def childrenLoop (call : DedupeCall) (params : DedupeParams) (canonParentId : Option String)
    (canonChildren : List Item) :
    List Item → Pass → Prog Matter DedupeError (DedupeOutcome ⊕ Pass)
  | [], s => pure (.inr s)
  | child :: rest, s =>
    if isParentTwin canonParentId canonChildren child then fail attachIsParent
    else
      let s := stageChild call canonParentId canonChildren child s
      if s.isFull params then do
        commitBatch s.staged s.cursor
        if ← poll then pure (.inl (.paused (summaryFromCursor s.cursor)))
        else childrenLoop call params canonParentId canonChildren rest ⟨s.cursor, []⟩
      else childrenLoop call params canonParentId canonChildren rest s

def attachmentsOf (m : Matter) (parentItemId : String) : List Item :=
  sortBy byPathThenId (listAttachments m.items parentItemId)

omit [Sha256] in
def familiesLoop (call : DedupeCall) (params : DedupeParams) :
    List Item → Pass → Prog Matter DedupeError (DedupeOutcome ⊕ Pass)
  | [], s => pure (.inr s)
  | dupParent :: rest, s => do
    if ← poll then do
      let o ← s.pause
      pure (.inl o)
    else do
      match ← look fun m => getItem m.items dupParent.id with
      | none => fail (.matter ("item not found: " ++ dupParent.id))
      | some parent => do
        let canonParentId := parent.duplicateOfItemId
        let canonChildren ← look fun m => (canonParentId.map (attachmentsOf m)).getD []
        let dupChildren ← look fun m => attachmentsOf m dupParent.id
        match ← childrenLoop call params canonParentId canonChildren dupChildren s with
        | .inl o => pure (.inl o)
        | .inr s => do
          let s : Pass := ⟨{ s.cursor with familyCursor := s.cursor.familyCursor + 1 }, s.staged⟩
          if s.isFull params then do
            commitBatch s.staged s.cursor
            if ← poll then pure (.inl (.paused (summaryFromCursor s.cursor)))
            else familiesLoop call params rest ⟨s.cursor, []⟩
          else familiesLoop call params rest s

def dupParents (rows : List Item) : List Item :=
  (listEmailParents rows).filter fun p => p.dedupRole = some "duplicate"

omit [Sha256] in
def runFamilyPass (call : DedupeCall) (params : DedupeParams) (cursor : CheckpointCursor) :
    Prog Matter DedupeError (DedupeOutcome ⊕ CheckpointCursor) := do
  let parents ← look fun m => dupParents m.items
  match ← familiesLoop call params (parents.drop cursor.familyCursor) ⟨cursor, []⟩ with
  | .inl o => pure (.inl o)
  | .inr s => do
    s.flush
    pure (.inr s.cursor)

omit [Sha256] in
def runFamily (call : DedupeCall) (params : DedupeParams) (cursor : CheckpointCursor) :
    Prog Matter DedupeError DedupeOutcome :=
  if params.familyPolicy = .suppressChildrenWithParent then do
    match ← runFamilyPass call params cursor with
    | .inl o => pure o
    | .inr cursor => pure (.succeeded (summaryFromCursor cursor))
  else pure (.succeeded (summaryFromCursor cursor))

def runPasses (call : DedupeCall) (params : DedupeParams) (cursor : CheckpointCursor) :
    Prog Matter DedupeError DedupeOutcome := do
  let maps ← look fun m =>
    if cursor.cursorIndex > 0 ∨ cursor.phase ≠ .parents then
      rebuildMapsFromCommitted params (listEmailParentsRange m.items 0 cursor.cursorIndex)
    else {}
  if cursor.phase = .parents then do
    match ← runParentPass call params maps cursor with
    | .inl o => pure o
    | .inr cursor => do
      let cursor := { cursor with phase := .family, familyCursor := 0 }
      -- persist phase transition with empty batch
      commitBatch [] cursor
      runFamily call params cursor
  else runFamily call params cursor

def isFresh (cursor : CheckpointCursor) : Bool :=
  cursor.cursorIndex = 0 && cursor.completedCount = 0 && cursor.phase = .parents && cursor.familyCursor = 0

def runDedupeInner (call : DedupeCall) (params : DedupeParams) (prior : Option CheckpointCursor) :
    Prog Matter DedupeError DedupeOutcome := do
  let cursor : CheckpointCursor := { prior.getD { params := params } with params := params }
  -- on resume after committed batches, skip reset
  if params.reset && isFresh cursor then
    clearTransaction (params.familyPolicy = .suppressChildrenWithParent)
  runPasses call params cursor

def effectiveParams (call : DedupeCall) : Option CheckpointCursor → DedupeParams
  | some prior => prior.params
  | none => call.params

/-- A session of the job. Every audit row is an operation that may fail. -/
def runDedupe (call : DedupeCall) : Prog Matter DedupeError DedupeOutcome := do
  let prior ← look Matter.checkpoint
  touch
  match ← attempt (runDedupeInner call (effectiveParams call prior) prior) with
  | .ok (.succeeded summary) => do
    match ← attempt touch with
    | .ok _ => pure (.succeeded summary)
    | .error e => pure (.failed ("audit complete failed: " ++ e.message) summary)
  | .ok (.paused summary) => pure (.paused summary)
  | .ok (.failed message summary) => do
    match ← attempt touch with
    | .ok _ => pure (.failed message summary)
    | .error e =>
      fail (.other ("audit fail write failed after run failure (" ++ message ++ "): " ++ e.message))
  | .error e => do
    match ← attempt touch with
    | .ok _ => fail e
    | .error ae => fail (.other (e.text ++ "; audit fail write also failed: " ++ ae.message))

end

end MatterDedupe
