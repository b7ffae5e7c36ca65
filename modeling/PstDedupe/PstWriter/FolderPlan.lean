import PstDedupe.PstWriter.DataChain
import PstDedupe.Foundations.KeyedForest
import PstDedupe.Rust.Paths

/-!
# The identifiers a writer hands out (`pst-writer/src/lib.rs`)

Node identifiers come from an index counter that skips the indices of the fixed templates; block and
page identifiers come from the BID counter of the layout.
-/

namespace PstWriter

open Rust Foundations

def nidMessageStore : Nat := 0x21
def nidNameToIdMap : Nat := 0x61
def nidRootFolder : Nat := 0x122
def nidHierarchyTableTemplate : Nat := 0x60D
def nidContentsTableTemplate : Nat := 0x60E
def nidAssocContentsTableTemplate : Nat := 0x60F
def nidSearchContentsTableTemplate : Nat := 0x610
def nidAttachmentTableTemplate : Nat := 0x671
def nidRecipientTableTemplate : Nat := 0x692

def reservedNidIndices : List Nat := [0x30, 0x33, 0x34]

/-- `(nid & !0x1F) | suffix`: the hierarchy, contents and associated-contents tables of a folder. -/
def folderTable (nid suffix : Nat) : Nat := (nid ^^^ (nid &&& 0x1F)) ||| suffix

def folderIds (nid : Nat) : List Nat :=
  [nid, folderTable nid 0x0D, folderTable nid 0x0E, folderTable nid 0x0F]

def fixedNids : List Nat :=
  [nidMessageStore, nidNameToIdMap] ++ folderIds nidRootFolder
    ++ [nidHierarchyTableTemplate, nidContentsTableTemplate, nidAssocContentsTableTemplate,
      nidSearchContentsTableTemplate, nidAttachmentTableTemplate, nidRecipientTableTemplate]

/-- `index.saturating_add(1)` of a `u32`. -/
def nextNidIndexAfter (index : Nat) : Nat := min (index + 1) (2 ^ 32 - 1)

/-- The loop of `alloc_nid`: the index taken and the next one. At most all reserved indices are
skipped, which bounds the number of rounds. -/
def findNidIndex : Nat → Nat → Nat × Nat
  | 0, index => (index, nextNidIndexAfter index)
  | fuel + 1, index =>
    if index ∈ reservedNidIndices then findNidIndex fuel (nextNidIndexAfter index)
    else (index, nextNidIndexAfter index)

def allocNid (nextNidIndex nidType : Nat) : Nat × Nat :=
  let r := findNidIndex reservedNidIndices.length nextNidIndex
  ((r.1 <<< 5) ||| nidType, r.2)

inductive BidKind where
  | leaf
  | internal
  | page
  deriving DecidableEq, Repr

structure IdState where
  layout : Layout
  nextNidIndex : Nat
  /-- The BIDs returned so far, less the ones a rollback gave back. -/
  bids : List (BidKind × Nat)
  nids : List Nat
  deriving DecidableEq

def IdState.start (eager : Option (List Bool)) : IdState where
  layout := match eager with
    | none => Layout.new
    | some faults => Layout.new.attachEager (EagerWriteCtx.create faults)
  nextNidIndex := 11
  bids := []
  nids := []

namespace IdState

section

variable [Crc32fast]

def leafAmapPages (l : Layout) (bid : Nat) (data : Bytes) : List PageEntry :=
  match l.eager with
  | none => []
  | some e =>
    let placed := { l with eager := none }.placeAndWriteBlock e bid data
    placed.2.2.amapPages.drop e.amapPages.length

def leaf (s : IdState) (data : Bytes) : IdState :=
  let drawn := s.layout.allocBid false
  { s with
    layout := (s.layout.pushLeaf data).2
    bids := s.bids ++ (.leaf, drawn.1)
      :: (leafAmapPages drawn.2 drawn.1 data).map fun p => (.page, p.bid) }

end

def internal (s : IdState) (payload : Bytes) : IdState :=
  { s with
    layout := (s.layout.pushInternal payload).2
    bids := s.bids ++ [(.internal, (s.layout.pushInternal payload).1)] }

def page (s : IdState) (ptype : Nat) : IdState :=
  { s with
    layout := (s.layout.reservePage ptype).2
    bids := s.bids ++ [(.page, (s.layout.reservePage ptype).1)] }

def nid (s : IdState) (nidType : Nat) : IdState :=
  { s with
    nextNidIndex := (allocNid s.nextNidIndex nidType).2
    nids := s.nids ++ [(allocNid s.nextNidIndex nidType).1] }

def node (s : IdState) (entry : NodeEntry) : IdState :=
  { s with layout := { s.layout with
      nodes := s.layout.nodes ++ [entry], usedNids := insert entry.nid s.layout.usedNids } }

/-- The rest of the file is placed; `l` is what `calculateOffsets` returned, and its AMap pages that
were not there before have been registered on the way. -/
def calculate (s : IdState) (l : Layout) : IdState :=
  { s with
    layout := l
    bids := s.bids ++ (((l.pages.filter fun p => p.ptype = ptypeAmap).diff
      ((s.layout.eager.map EagerWriteCtx.amapPages).getD [])).map fun p => (.page, p.bid)) }

/-- The rollback of `s` to the checkpoint taken at `t`: the record keeps what `t` had, and of the
rest what is still in use. -/
def rollback (s t : IdState) : IdState :=
  let l := s.layout.rollbackStreamChain t.layout.streamChainCheckpoint
  { s with
    layout := l
    bids := t.bids ++ (s.bids.drop t.bids.length).filter fun x => x.2 ∈ l.usedBids }

end IdState

section

variable [Crc32fast]

inductive IdStep : IdState → IdState → Prop where
  | leaf (s : IdState) (data : Bytes) : IdStep s (s.leaf data)
  | internal (s : IdState) (payload : Bytes) : IdStep s (s.internal payload)
  | page (s : IdState) (ptype : Nat) : IdStep s (s.page ptype)
  | nid (s : IdState) {nidType : Nat} (htype : nidType < 32) : IdStep s (s.nid nidType)
  | node (s : IdState) (entry : NodeEntry) : IdStep s (s.node entry)

abbrev IdSteps : IdState → IdState → Prop := Relation.ReflTransGen IdStep

/-- Any interleaving of steps with streams that were undone and placements of the whole file. -/
inductive Run (s : IdState) : IdState → Prop where
  | refl : Run s s
  | step {t u : IdState} (h : Run s t) (hstep : IdStep t u) : Run s u
  | rollback {t u : IdState} (h : Run s t) (hbody : IdSteps t u) : Run s (u.rollback t)
  | calculate {t : IdState} {l : Layout} (h : Run s t) (hcalc : t.layout.calculateOffsets = .ok l) :
    Run s (t.calculate l)

end

/-!
# Folder paths and the folder planner (`pst-writer/src/production.rs`)

A source folder path is cut into names, the leading container aliases are dropped and every name is
sanitized.
-/

def maxFolderDepth : Nat := 32

def isLeadingFolderAlias (name : String) : Bool :=
  toAsciiLowercase (trim name) ∈ ["root", "top of personal folders", "top of information store",
    "top of outlook data file", "ipm_subtree"]

def stripLeadingFolderAliases (segs : List String) : List String := segs.dropWhile isLeadingFolderAlias

def isForbidden (c : Char) : Bool := c ∈ ['<', '>', ':', '"', '/', '\\', '|', '?', '*']

/-- Forbidden characters become `_`, the ends are trimmed, and no name is empty, `.` or `..`. -/
def sanitizeSegment (s : String) : String :=
  let out := trim (String.ofList (s.toList.map fun c => if isForbidden c || isControl c then '_' else c))
  let out := if out = "" || out = "." || out = ".." then "_" else out
  -- dots and spaces are popped from the end
  let out := String.ofList (out.toList.reverse.dropWhile fun c => c = '.' || c = ' ').reverse
  if out = "" then "_" else out

/-- The loop over the parts of a path, which both routines have: empty parts and `.` are skipped,
`..` ends the loop. -/
def rawSegments : List String → Option (List String)
  | [] => some []
  | part :: rest =>
    let part := trim part
    if part = "" || part = "." then rawSegments rest
    else if part = ".." then none
    else (rawSegments rest).map (part :: ·)

inductive PathParseOutcome where
  | residual (degraded : Bool)
  | segments (segs : List String) (degraded : Bool)
  deriving DecidableEq, Repr

def parseFolderPath (path : String) : PathParseOutcome :=
  let path := trimStartWhere (fun c => c = '/' || c = '\\') (trim path)
  if path = "" then .residual false
  else
    match rawSegments (splitWhere (fun c => c = '/' || c = '\\') path) with
    | none => .residual true
    | some raw =>
      let raw := stripLeadingFolderAliases raw
      if raw = [] then .residual true
      else
        let segs := raw.map sanitizeSegment
        if maxFolderDepth < segs.length then .residual true
        else .segments segs (decide (segs ≠ raw))

def normalizeFolderPathKey (path : String) : String :=
  let path := trimWhere (· = '/') (replaceChar (trim path) '\\' '/')
  if path = "" then ""
  else
    match rawSegments (split path '/') with
    | none => ""
    | some raw =>
      let raw := stripLeadingFolderAliases raw
      if raw = [] then ""
      else if maxFolderDepth < raw.length then ""
      else join "/" (raw.map fun s => toAsciiLowercase (sanitizeSegment s))

def folderPathQcExpectedKey (path : String) : String :=
  match parseFolderPath path with
  | .residual _ => "unique mail"
  | .segments segs _ => join "/" (segs.map toAsciiLowercase)

example : normalizeFolderPathKey "Root/Top of Personal Folders/Inbox" = "inbox" := by decide +kernel

section

variable [UnicodeTables]

def caseFoldKey (s : String) : String := toUppercase s

def fileStemLabel [Target] (path : String) : String :=
  sanitizeSegment ((fileStem path).getD "source")

/-- The loop of `unique_source_prefixes` for one source: the stem, `stem (2)`, … until a label is
free. After 10 000 attempts the last label is taken as it is. -/
def freeLabel (usedKeys : List String) (stem path : String) : Nat → Nat → String
  | _, 0 => stem ++ " [" ++ Nat.repr (bytes path).length ++ "]"
  | attempt, remaining + 1 =>
    let candidate := if attempt = 0 then stem else stem ++ " (" ++ Nat.repr (attempt + 1) ++ ")"
    if caseFoldKey candidate ∈ usedKeys then freeLabel usedKeys stem path (attempt + 1) remaining
    else candidate

/-- One source of the loop: its label, and the keys that are used afterwards. -/
def labelSource [Target] (st : List String × HashMap String String) (path : String) :
    List String × HashMap String String :=
  let label := freeLabel st.1 (fileStemLabel path) path 0 10001
  (caseFoldKey label :: st.1, st.2.insert path label)

/-- A prefix for each source. The groups by stem are not modelled: they are put back in the order of
the paths before any label is chosen. -/
def uniqueSourcePrefixes [Target] (sources : List String) : HashMap String String :=
  ((vecDedup (sortStrings sources)).foldl labelSource ([], ∅)).2

end

inductive FolderLayoutPolicy where
  | preservePaths (multiSourcePrefix : Bool)
  | flat (folderDisplayName : String)
  deriving DecidableEq, Repr

structure WritePstOpts where
  folderDisplayName : String := "Unique Mail"
  folderLayout : FolderLayoutPolicy := .preservePaths true
  knownSourcePaths : List String := []

def WritePstOpts.residualFolderName (opts : WritePstOpts) : String :=
  if opts.folderDisplayName = "" then "Unique Mail" else opts.folderDisplayName

structure MessageSource where
  sourceFolderPath : Option String
  sourcePath : Option String
  deriving DecidableEq, Repr

/-- A planned folder: its display name, its key, its children, the messages in it and its NID. -/
abbrev PlannedFolder := KeyedTree String String Nat Nat

structure IncrementalFolderPlan where
  roots : List PlannedFolder
  messageFolder : List Nat
  foldersCreated : Nat
  folderPathsResidual : Nat
  folderPathsDegraded : Nat
  residualName : String
  multiSource : Bool
  sourcesSeen : List String
  prefixMap : HashMap String String

def nidTypeNormalFolder : Nat := 0x02

/-- A NID for a new folder, and the count of folders. The state is the index counter of the layout
and the count. -/
def freshFolder (s : Nat × Nat) : Nat × (Nat × Nat) :=
  let nid := allocNid s.1 nidTypeNormalFolder
  (nid.1, (nid.2, min (s.2 + 1) (2 ^ 64 - 1)))

def pushNew (paths : List String) (p : String) : List String := if p ∈ paths then paths else paths ++ [p]

namespace IncrementalFolderPlan

variable [UnicodeTables] [Target]

def start (nextNidIndex : Nat) (opts : WritePstOpts) : IncrementalFolderPlan × Nat :=
  let residualName := match opts.folderLayout with
    | .flat name => if name = "" then opts.residualFolderName else name
    | .preservePaths _ => opts.residualFolderName
  let multiSource := match opts.folderLayout with
    | .preservePaths multi => multi
    | .flat _ => false
  let sourcesSeen :=
    if multiSource then (opts.knownSourcePaths.filter (· ≠ "")).foldl pushNew [] else []
  let plan : IncrementalFolderPlan :=
    { roots := []
      messageFolder := []
      foldersCreated := 0
      folderPathsResidual := 0
      folderPathsDegraded := 0
      residualName
      multiSource
      sourcesSeen
      prefixMap := if 2 ≤ sourcesSeen.length then uniqueSourcePrefixes sourcesSeen else ∅ }
  match opts.folderLayout with
  | .preservePaths _ => (plan, nextNidIndex)
  | .flat _ =>
    -- the folder of a flat layout is there before the first message
    let nid := allocNid nextNidIndex nidTypeNormalFolder
    ({ plan with
        roots := [⟨residualName, caseFoldKey residualName, [], [], nid.1⟩]
        foldersCreated := 1 }, nid.2)

/-- The source of a message is noted, and the prefixes are computed again when it is new. -/
def observeSource (plan : IncrementalFolderPlan) (msg : MessageSource) : IncrementalFolderPlan :=
  match plan.multiSource, msg.sourcePath with
  | true, some sp =>
    if sp ∈ plan.sourcesSeen then plan
    else
      let sourcesSeen := plan.sourcesSeen ++ [sp]
      { plan with
        sourcesSeen
        prefixMap := if 2 ≤ sourcesSeen.length then uniqueSourcePrefixes sourcesSeen else plan.prefixMap }
  | _, _ => plan

def sourcePrefix (plan : IncrementalFolderPlan) (msg : MessageSource) : Option String :=
  msg.sourcePath.bind plan.prefixMap.get

def fileUnder (plan : IncrementalFolderPlan) (nextNidIndex : Nat) (names : List String)
    (msgIndex : Nat) : IncrementalFolderPlan × Nat :=
  let filed := KeyedTree.place caseFoldKey freshFolder msgIndex names plan.roots
    (nextNidIndex, plan.foldersCreated)
  let nid := ((KeyedTree.treeAt caseFoldKey names filed.1).map KeyedTree.tag).getD 0
  ({ plan with
      roots := filed.1
      foldersCreated := filed.2.2
      messageFolder := plan.messageFolder ++ [nid] }, filed.2.1)

def pathOutcome (msg : MessageSource) : PathParseOutcome :=
  match msg.sourceFolderPath with
  | none => .residual false
  | some p => parseFolderPath p

def assignMessage (plan : IncrementalFolderPlan) (nextNidIndex : Nat) (msg : MessageSource)
    (opts : WritePstOpts) (msgIndex : Nat) : IncrementalFolderPlan × Nat :=
  let plan := plan.observeSource msg
  match opts.folderLayout with
  | .flat _ => plan.fileUnder nextNidIndex [plan.residualName] msgIndex
  | .preservePaths _ =>
    match pathOutcome msg with
    | .segments segs degraded =>
      let plan := { plan with folderPathsDegraded := plan.folderPathsDegraded + degraded.toNat }
      plan.fileUnder nextNidIndex ((plan.sourcePrefix msg).toList ++ segs) msgIndex
    | .residual degraded =>
      let plan :=
        { plan with
          folderPathsResidual := plan.folderPathsResidual + 1
          folderPathsDegraded := plan.folderPathsDegraded + degraded.toNat }
      plan.fileUnder nextNidIndex [plan.residualName] msgIndex

def assignAll (opts : WritePstOpts) (plan : IncrementalFolderPlan) (nextNidIndex msgIndex : Nat) :
    List MessageSource → IncrementalFolderPlan
  | [] => plan
  | msg :: rest =>
    let assigned := plan.assignMessage nextNidIndex msg opts msgIndex
    assignAll opts assigned.1 assigned.2 (msgIndex + 1) rest

end IncrementalFolderPlan

/-- The path of a folder as it is read from the written file. The user folders stand under the two
containers of the writer. -/
def emittedPath (names : List String) : String :=
  join "/" ("Root" :: "Top of Personal Folders" :: names)

end PstWriter
