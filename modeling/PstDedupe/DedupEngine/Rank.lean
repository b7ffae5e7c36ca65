import PstDedupe.DedupEngine.ScanItem
import PstDedupe.Foundations.Ladder

/-!
# Winner ranking (`keepset.rs`)

The ladder that orders the members of a group: fidelity, BCC completeness, source and folder rank,
the named policy, and the path key and NID as the last resort.
-/

namespace DedupEngine

open List

open Foundations (Rung ladderCmp decidingRung)

inductive KeepPolicy where
  | firstSeen | keepLargest | preferPath | earliestDate
  deriving DecidableEq, Repr

inductive FidelityMode where
  | binary | graded
  deriving DecidableEq, Repr

inductive FolderRankMode where
  | off
  | builtin
  | custom (patterns : List String)
  deriving DecidableEq, Repr

inductive DateSource where
  | submit | delivery | none
  deriving DecidableEq, Repr

def DateSource.asStr : DateSource → String
  | submit => "submit"
  | delivery => "delivery"
  | none => "none"

structure RankContext where
  policy : KeepPolicy := .firstSeen
  preferPath : List String := []
  preferBccCopy : Bool := false
  sourceRankPatterns : List String := []
  folderRank : FolderRankMode := .off
  folderClassFirst : Bool := false
  fidelityMode : FidelityMode := .binary
  deriving DecidableEq, Repr

def reasonFidelityTier : IntegrityReason → Nat
  | .attachMetaFailed | .attachProbeTruncated | .attachPeerProbeCap | .attachProbeTimeout => 1
  | .attachStreamOpenFailed | .attachStreamReadFailed | .attachStreamCrc | .attachBlockNotFound
  | .attachDataTruncated | .attachMethodUnsupported | .attachCloudLink => 2
  | .bodyTruncated | .bodyUnavailable | .dataTruncated | .crcMismatch | .crcSuspect
  | .blockNotFound => 3
  | .orphanedNode | .invalidStructure | .messageReadFailed | .propertyError | .nodeNotFound => 4
  | .openFailed | .ansiUnsupported | .unsupportedCrypt | .folderWalkFailed | .pathNotFound
  | .notPst | .readError => 4

def gradedFidelityRank (item : RecoverableScanItem) : Nat :=
  if !item.integrity.degraded && !item.integrity.isOrphaned then 0
  else
    let worst := if item.integrity.isOrphaned then 4 else 0
    let worst := item.integrity.degradedReasons.foldl (fun w r => max w (reasonFidelityTier r)) worst
    if worst = 0 then 3 else worst

def fidelityRankWithMode (item : RecoverableScanItem) : FidelityMode → Nat
  | .binary => if gradedFidelityRank item = 0 then 0 else 1
  | .graded => gradedFidelityRank item

def resolveItemDate (item : RecoverableScanItem) : Option Int × DateSource :=
  match item.submitTime.filter fun t => decide (0 < t) with
  | some t => (some t, .submit)
  | none =>
    match item.deliveryTime.filter fun t => decide (0 < t) with
    | some t => (some t, .delivery)
    | none => (none, .none)

inductive FolderClass where
  | sentItems | primary | archive | junkEmail | drafts | outbox | deletedItems
  | recoverableDeletions | recoverableHolds | recoverablePurges | recoverableVersions
  | recoverableOps | recoverableOther
  deriving DecidableEq, Repr

namespace FolderClass

def asStr : FolderClass → String
  | sentItems => "sent_items"
  | primary => "primary"
  | archive => "archive"
  | junkEmail => "junk_email"
  | drafts => "drafts"
  | outbox => "outbox"
  | deletedItems => "deleted_items"
  | recoverableDeletions => "recoverable_deletions"
  | recoverableHolds => "recoverable_holds"
  | recoverablePurges => "recoverable_purges"
  | recoverableVersions => "recoverable_versions"
  | recoverableOps => "recoverable_ops"
  | recoverableOther => "recoverable_other"

def builtinRank : FolderClass → Nat
  | sentItems => 0
  | primary => 1
  | archive => 2
  | junkEmail => 3
  | drafts => 4
  | outbox => 5
  | deletedItems => 6
  | recoverableDeletions => 7
  | recoverableHolds => 8
  | recoverablePurges => 9
  | recoverableVersions => 10
  | recoverableOps => 11
  | recoverableOther => 12

def isRecoverableItems : FolderClass → Bool
  | recoverableDeletions | recoverableHolds | recoverablePurges | recoverableVersions
  | recoverableOps | recoverableOther => true
  | _ => false

end FolderClass

def segEq (a b : String) : Bool := Rust.eqIgnoreAsciiCase a b

def segmentGlobMatch (segment pattern : String) : Bool :=
  let seg := Rust.toAsciiLowercase segment
  let pat := Rust.toAsciiLowercase pattern
  if !pat.toList.contains '*' then seg == pat
  else
    let leading := Rust.startsWith pat "*"
    let trailing := Rust.endsWith pat "*"
    let core := String.ofList (Rust.trimMatches (· == '*') pat.toList)
    if core == "" then true
    else if leading && trailing then Rust.contains seg core
    else if leading then Rust.endsWith seg core
    else if trailing then Rust.startsWith seg core
    else seg == pat

def minRankClass (current : Option FolderClass) (candidate : FolderClass) : FolderClass :=
  match current with
  | none => candidate
  | some c => if candidate.builtinRank < c.builtinRank then candidate else c

def bestClass (matchSegment : String → Option FolderClass) (best : Option FolderClass)
    (segs : List String) : Option FolderClass :=
  segs.foldl (fun best seg => match matchSegment seg with
    | some c => some (minRankClass best c)
    | none => best) best

def matchRecoverableSegment (seg : String) : Option FolderClass :=
  if segEq seg "Deletions" then some .recoverableDeletions
  else if segEq seg "DiscoveryHolds" || segEq seg "SubstrateHolds" then some .recoverableHolds
  else if segEq seg "Purges" then some .recoverablePurges
  else if segEq seg "Versions" then some .recoverableVersions
  else if segEq seg "Audits" || segEq seg "Calendar Logging" then some .recoverableOps
  else none

def classifyRecoverable (segs : List String) : Option FolderClass :=
  match segs.dropWhile fun s => !segEq s "Recoverable Items" with
  | [] => none
  | _ :: after =>
    if after.isEmpty then some .recoverableOther
    else some ((bestClass matchRecoverableSegment none after).getD .recoverableOther)

def matchNonRecoverableSegment (seg : String) : Option FolderClass :=
  if segEq seg "Sent Items" || segEq seg "Sent Mail" then some .sentItems
  else if segEq seg "Deleted Items" then some .deletedItems
  else if segEq seg "Outbox" then some .outbox
  else if segEq seg "Drafts" then some .drafts
  else if segEq seg "Junk Email" || segEq seg "Junk E-mail" || segEq seg "Spam" then some .junkEmail
  else if segEq seg "Archive" || segEq seg "Online Archive"
      || segmentGlobMatch seg "In-Place Archive*" then some .archive
  else none

def pathSegments (path : String) : List String :=
  ((Rust.split path '/').map Rust.trim).filter (· != "")

def classifyFolder (folderPath : String) : FolderClass :=
  let segs := pathSegments folderPath
  if segs.isEmpty then .primary
  else
    let best := (classifyRecoverable segs).map (minRankClass none)
    (bestClass matchNonRecoverableSegment best segs).getD .primary

def pathMatchesFolderPattern (folderSegments : List String) (pattern : String) : Bool :=
  let patSegs := pathSegments pattern
  if patSegs.isEmpty then false
  else if patSegs.length > folderSegments.length then false
  else
    (range (folderSegments.length - patSegs.length + 1)).any fun start =>
      (range patSegs.length).all fun i =>
        segmentGlobMatch (folderSegments.getD (start + i) "") (patSegs.getD i "")

def folderClassAndRank (folderPath : String) : FolderRankMode → FolderClass × Nat
  | .off => (.primary, 0)
  | .builtin => (classifyFolder folderPath, (classifyFolder folderPath).builtinRank)
  | .custom patterns =>
    let segs := pathSegments folderPath
    match patterns.findIdx? (pathMatchesFolderPattern segs) with
    | some i => (classifyFolder folderPath, Rust.asU32 (1 + i))
    | none => (classifyFolder folderPath, 0)

section Keys

variable [Rust.Target]

def sourceRankOf (item : RecoverableScanItem) (patterns : List String) : Nat :=
  if patterns.isEmpty then 0
  else
    let key := item.pathKey
    let found := patterns.findIdx? fun pat =>
      pat != "" &&
        Rust.contains key (if Rust.Target.windows then Rust.toAsciiLowercase pat else pat)
    match found with
    | some i => Rust.asU32 i
    | none => Rust.asU32 patterns.length

def preferPathPolicyKey (item : RecoverableScanItem) (preferPath : List String) : Int :=
  let pathHay := item.locus.sourcePath ++ "|" ++ item.locus.folderPath
  let found := preferPath.any fun p =>
    if p == "" then false
    else if Rust.Target.windows then
      Rust.contains (Rust.Target.toLowercase pathHay) (Rust.Target.toLowercase p)
    else Rust.contains pathHay p
  if found then 0 else 1

structure RankKey where
  fidelity : Nat
  bcc : Nat
  source : Nat
  folder : Nat
  policyMissing : Nat
  policyValue : Int
  pathKey : String
  nid : Nat
  folderClassFirst : Bool
  deriving DecidableEq, Repr

omit [Rust.Target] in
/-- `Ord for RankKey`: the flag of the left key decides whether the folder comes before the
source. -/
def RankKey.cmp (a b : RankKey) : Ordering :=
  let mid :=
    if a.folderClassFirst then (compare a.folder b.folder).then (compare a.source b.source)
    else (compare a.source b.source).then (compare a.folder b.folder)
  ((((((compare a.fidelity b.fidelity).then (compare a.bcc b.bcc)).then mid).then
    (compare a.policyMissing b.policyMissing)).then (compare a.policyValue b.policyValue)).then
    (compare a.pathKey b.pathKey)).then (compare a.nid b.nid)

def policyComponent (item : RecoverableScanItem) (ctx : RankContext) : Nat × Int :=
  match ctx.policy with
  | .firstSeen => (0, Rust.asI64 item.scanOrder)
  | .keepLargest => (0, -(item.size : Int))
  | .preferPath => (0, preferPathPolicyKey item ctx.preferPath)
  | .earliestDate =>
    match (resolveItemDate item).1 with
    | some ft => (0, ft)
    | none => (1, 0)

def rankKey (item : RecoverableScanItem) (ctx : RankContext) : RankKey where
  fidelity := fidelityRankWithMode item ctx.fidelityMode
  bcc := if ctx.preferBccCopy then (if item.hasBcc then 0 else 1) else 0
  source := sourceRankOf item ctx.sourceRankPatterns
  folder := (folderClassAndRank item.locus.folderPath ctx.folderRank).2
  policyMissing := (policyComponent item ctx).1
  policyValue := (policyComponent item ctx).2
  pathKey := item.pathKey
  nid := item.locus.nid
  folderClassFirst := ctx.folderClassFirst

def policyToken : KeepPolicy → String
  | .firstSeen => "policy_first_seen"
  | .keepLargest => "policy_keep_largest"
  | .preferPath => "policy_prefer_path"
  | .earliestDate => "policy_earliest_date"

/-- `decided_by_rung`; its `self_is_winner` flag selects between two equal pairs and is left out. -/
def decidedByRung (a b : RankKey) (policy : KeepPolicy) : String :=
  if a.fidelity != b.fidelity then "fidelity"
  else if a.bcc != b.bcc then "bcc_completeness"
  else if a.folderClassFirst && a.folder != b.folder then "folder_class"
  else if a.folderClassFirst && a.source != b.source then "source_rank"
  else if !a.folderClassFirst && a.source != b.source then "source_rank"
  else if !a.folderClassFirst && a.folder != b.folder then "folder_class"
  else if a.policyMissing != b.policyMissing || a.policyValue != b.policyValue then policyToken policy
  else if a.pathKey != b.pathKey then "path_order"
  else if a.nid != b.nid then "nid"
  else "path_order"

end Keys

def rankRungs (folderClassFirst : Bool) (policy : KeepPolicy) : List (Rung RankKey) :=
  let source : Rung RankKey := ⟨"source_rank", compareOn RankKey.source⟩
  let folder : Rung RankKey := ⟨"folder_class", compareOn RankKey.folder⟩
  [⟨"fidelity", compareOn RankKey.fidelity⟩, ⟨"bcc_completeness", compareOn RankKey.bcc⟩] ++
    (if folderClassFirst then [folder, source] else [source, folder]) ++
    [⟨policyToken policy, compareLex (compareOn RankKey.policyMissing) (compareOn RankKey.policyValue)⟩,
      ⟨"path_order", compareOn RankKey.pathKey⟩, ⟨"nid", compareOn RankKey.nid⟩]

theorem rankRungs_names_nodup (first : Bool) (policy : KeepPolicy) :
    ((rankRungs first policy).map Rung.name).Nodup := by
  cases first <;> cases policy <;> decide

theorem transCmp_rankRungs (first : Bool) (policy : KeepPolicy) :
    ∀ r ∈ rankRungs first policy, Std.TransCmp r.cmp := by
  intro r hr
  unfold rankRungs at hr
  cases first <;>
  · simp only [Bool.false_eq_true, if_false, if_true, cons_append, nil_append,
      mem_cons, not_mem_nil, or_false] at hr
    rcases hr with rfl | rfl | rfl | rfl | rfl | rfl | rfl <;> exact inferInstance

theorem cmp_eq_ladderCmp (a b : RankKey) (policy : KeepPolicy) :
    a.cmp b = ladderCmp (rankRungs a.folderClassFirst policy) a b := by
  unfold RankKey.cmp rankRungs
  cases a.folderClassFirst <;>
    simp [ladderCmp, compareLex, compareOn, Ordering.then_assoc]

theorem compareOn_bne {κ : Type} [DecidableEq κ] [Ord κ] [Std.LawfulEqOrd κ] (f : RankKey → κ)
    (a b : RankKey) : (compareOn f a b != .eq) = (f a != f b) := by
  rw [Bool.eq_iff_iff]
  simp [compareOn]

theorem decidedByRung_eq (a b : RankKey) (policy : KeepPolicy) : decidedByRung a b policy =
      (decidingRung (rankRungs a.folderClassFirst policy) a b).getD "path_order" := by
  have hpolicy : (compareLex (compareOn RankKey.policyMissing) (compareOn RankKey.policyValue) a b
      != .eq) = (a.policyMissing != b.policyMissing || a.policyValue != b.policyValue) := by
    rw [Bool.eq_iff_iff]
    simp [compareLex, compareOn, Ordering.then_eq_eq]
    tauto
  unfold decidedByRung decidingRung rankRungs
  -- both sides are chains of the same tests; each one that succeeds ends both
  cases a.folderClassFirst <;>
    simp only [Bool.false_eq_true, if_false, if_true, cons_append, nil_append,
      find?_cons, find?_nil, compareOn_bne, hpolicy, Bool.not_true, Bool.not_false,
      Bool.false_and, Bool.true_and]
  all_goals cases a.fidelity != b.fidelity <;> try rfl
  all_goals cases a.bcc != b.bcc <;> try rfl
  all_goals cases a.source != b.source <;> cases a.folder != b.folder <;> try rfl
  all_goals cases a.policyMissing != b.policyMissing || a.policyValue != b.policyValue <;> try rfl
  all_goals cases a.pathKey != b.pathKey <;> try rfl
  all_goals cases a.nid != b.nid <;> rfl

end DedupEngine
