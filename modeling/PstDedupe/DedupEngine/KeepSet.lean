import PstDedupe.DedupEngine.Backfill
import PstDedupe.DedupEngine.Materialize
import PstDedupe.DedupEngine.Rank

/-!
# The resolved keep-set (`keepset.rs`)

`resolveGroupsWithGrouping` groups the items, ranks each group and makes the best member its
provisional winner.
-/

namespace DedupEngine

open List

open Rust (Bytes32 RandomState)
open Foundations (setAll bestBy)

structure Verdict where
  role : DecisionRole := .unique
  winnerOf : Option Nat := none
  tierOf : Option String := none
  promotedFromFailure : Bool := false
  promoteReason : Option PromoteReason := none
  deriving DecidableEq, Repr, Inhabited

structure ResolvedKeepSet where
  policy : KeepPolicy
  familyPolicy : FamilyPolicy
  rankCtx : RankContext
  groupingCtx : GroupingContext
  items : List RecoverableScanItem
  /-- Groups of indices into `items`. -/
  groups : List (List Nat)
  provisionalWinners : List (Option Nat)
  verdicts : List Verdict
  boundBy : List BoundBy
  tier2Eligible : List Bool
  groupingStats : GroupingStats
  softSkipAttachRecords : List SoftSkipAttachRecord
  groupDropped : List Bool

section Resolve

variable [Rust.Target] [RandomState]

omit [RandomState] in
def rankOrder (items : List RecoverableScanItem) (ctx : RankContext) (group : List Nat) : List Nat :=
  Rust.sortBy (fun a b => (rankKey (itemAt items a) ctx).cmp (rankKey (itemAt items b) ctx)) group

omit [Rust.Target] [RandomState] in
def tierOfBound (boundBy : List BoundBy) (idx : Nat) : Option String :=
  boundBy[idx]?.bind BoundBy.tierCsv

omit [Rust.Target] [RandomState] in
def provisionalVerdict (boundBy : List BoundBy) (winner idx : Nat) : Verdict :=
  if idx = winner then { role := .unique, winnerOf := some winner }
  else { role := .dupOf, winnerOf := some winner, tierOf := tierOfBound boundBy idx }

def resolveGroupsWithGrouping (items : List RecoverableScanItem) (familyPolicy : FamilyPolicy)
    (rankCtx : RankContext) (groupingCtx : GroupingContext) : ResolvedKeepSet :=
  let outcome := groupCandidatesWithStats groupingCtx items
  let winners := outcome.groups.map fun group => (rankOrder items rankCtx group).head?
  { policy := rankCtx.policy
    familyPolicy := familyPolicy
    rankCtx := rankCtx
    groupingCtx := groupingCtx
    items := items
    groups := outcome.groups
    provisionalWinners := winners
    verdicts := (outcome.groups.zip winners).foldl (fun verdicts p =>
      match p.2 with
      | some winner => setAll p.1 (provisionalVerdict outcome.boundBy winner) verdicts
      | none => verdicts) (replicate items.length {})
    boundBy := outcome.boundBy
    tier2Eligible := outcome.tier2Eligible
    groupingStats := outcome.stats
    softSkipAttachRecords := []
    groupDropped := replicate outcome.groups.length false }

end Resolve

structure KeepEntry where
  locus : MessageLocus
  messageIdNorm : Option String
  contentHash : Bytes32
  integrity : RecoverableIntegrity
  size : Nat
  promotedFromFailure : Bool
  folderClass : Option String
  decidedBy : Option String
  duplicateSourceCount : Nat
  duplicateSources : List String
  duplicateSourcesTruncated : Bool

structure KeepSetStats where
  recoverable : Nat := 0
  unique : Nat := 0
  duplicates : Nat := 0
  tier1Dups : Nat := 0
  tier2Dups : Nat := 0
  degradedWinners : Nat := 0
  materializeFailed : Nat := 0
  promotedFromFailure : Nat := 0
  groupsDroppedMaterialize : Nat := 0
  groups : Nat := 0
  groupsDateSourceMixed : Nat := 0
  winnersWithoutBccPeerHadBcc : Nat := 0
  winnersFromRecoverableItems : Nat := 0
  grouping : GroupingStats := {}
  promotedAfterAttachIncompleteCount : Nat := 0
  modeCFallbackAllPeersIncompleteCount : Nat := 0
  deriving DecidableEq, Repr

structure KeepSet where
  schema : String
  policy : KeepPolicy
  familyPolicy : FamilyPolicy
  identityLevel : Option String
  dedupeScope : Option String
  winners : List KeepEntry
  stats : KeepSetStats

structure DecisionRecord where
  sourcePath : String
  sourcePst : String
  folderPath : String
  isOrphaned : Bool
  nid : Nat
  messageIdNorm : Option String
  role : DecisionRole
  tier : Option String
  winnerSourcePst : Option String
  winnerFolder : Option String
  winnerNid : Option Nat
  policy : KeepPolicy
  familyPolicy : FamilyPolicy
  degraded : Bool
  degradedReasons : List String
  size : Nat
  promotedFromFailure : Bool
  folderClass : String
  folderClassRank : Nat
  sourceRank : Nat
  hasBcc : Bool
  dateSource : String
  decidedBy : String
  duplicateSourceCount : Nat
  duplicateSources : String
  boundBy : String
  identityVersion : String
  tier2Eligible : Bool

namespace ResolvedKeepSet

variable [Rust.Target] (r : ResolvedKeepSet)

omit [Rust.Target] in
def verdict (i : Nat) : Verdict := r.verdicts.getD i default

omit [Rust.Target] in
def item (i : Nat) : RecoverableScanItem := itemAt r.items i

omit [Rust.Target] in
def groupContaining (i : Nat) : List Nat := (r.groups.find? fun g => g.contains i).getD [i]

def key (i : Nat) : RankKey := rankKey (r.item i) r.rankCtx

def bestRival (i : Nat) : Option RankKey :=
  bestBy RankKey.cmp (((r.groupContaining i).filter (· != i)).map r.key)

def decidedByFor (i : Nat) : String :=
  let v := r.verdict i
  match if v.role = .unique then v.promoteReason else none with
  | some reason => reason.asStr
  | none =>
    if (r.groupContaining i).length = 1 then "sole_member"
    else
      match v.role with
      | .unique =>
        match r.bestRival i with
        | some rival => decidedByRung (r.key i) rival r.policy
        | none => "sole_member"
      | .dupOf =>
        match v.winnerOf with
        | some wi => decidedByRung (r.key i) (r.key wi) r.policy
        | none => "path_order"
      | .materializeFailed => "path_order"

def sourceBasename (sourcePst : String) : String := (Rust.Target.fileName sourcePst).getD sourcePst

def duplicateSourcesCap : Nat := 8

/-- The distinct other source names of a winner: how many, the first few in order, and whether some
were cut. -/
def duplicateSourceAggregate (items : List RecoverableScanItem) (group : List Nat)
    (winnerIdx : Nat) : Nat × List String × Bool :=
  let own := sourceBasename (itemAt items winnerIdx).locus.sourcePst
  let names := group.foldl (fun names idx =>
    if idx = winnerIdx then names
    else
      let base := sourceBasename (itemAt items idx).locus.sourcePst
      if base = own then names
      else if names.contains base then names
      else names ++ [base]) []
  let names := Rust.sortStrings names
  (names.length, names.take duplicateSourcesCap, decide (names.length > duplicateSourcesCap))

def decisionAt (i : Nat) : DecisionRecord :=
  let item := r.item i
  let v := r.verdict i
  let winner := if v.role = .dupOf then v.winnerOf.map r.item else none
  let dups :=
    if v.role = .unique then
      let agg := duplicateSourceAggregate r.items (r.groupContaining i) i
      (agg.1, Rust.join "|" agg.2.1)
    else (0, "")
  let folder := folderClassAndRank item.locus.folderPath r.rankCtx.folderRank
  { sourcePath := item.locus.sourcePath
    sourcePst := item.locus.sourcePst
    folderPath := item.locus.folderPath
    isOrphaned := item.locus.isOrphaned || item.integrity.isOrphaned
    nid := item.locus.nid
    messageIdNorm := item.messageIdNorm
    role := v.role
    tier := v.tierOf
    winnerSourcePst := winner.map fun w => w.locus.sourcePst
    winnerFolder := winner.map fun w => w.locus.folderPath
    winnerNid := winner.map fun w => w.locus.nid
    policy := r.policy
    familyPolicy := r.familyPolicy
    degraded := item.integrity.degraded
    degradedReasons := item.integrity.degradedReasons.map IntegrityReason.asStr
    size := item.size
    promotedFromFailure := v.promotedFromFailure
    folderClass := folder.1.asStr
    folderClassRank := folder.2
    sourceRank := sourceRankOf item r.rankCtx.sourceRankPatterns
    hasBcc := item.hasBcc
    dateSource := (resolveItemDate item).2.asStr
    decidedBy := r.decidedByFor i
    duplicateSourceCount := dups.1
    duplicateSources := dups.2
    boundBy := (r.boundBy.getD i .seed).asStr
    identityVersion := r.groupingCtx.identity.identityVersion
    tier2Eligible := r.tier2Eligible.getD i true }

/-- `to_decisions`: one row an item, in scan order. -/
def toDecisions : List DecisionRecord := (range r.items.length).map r.decisionAt

omit [Rust.Target] in
def tallyGroup (stats : KeepSetStats) (group : List Nat) : KeepSetStats :=
  if group.isEmpty then stats
  else
    let saw (src : DateSource) : Bool := group.any fun i => (resolveItemDate (r.item i)).2 = src
    let stats := if saw .submit && saw .delivery then
        { stats with groupsDateSourceMixed := stats.groupsDateSourceMixed + 1 } else stats
    match group.find? fun i => (r.verdict i).role = .unique with
    | some wi =>
      if !(r.item wi).hasBcc && group.any fun i => (r.item i).hasBcc then
        { stats with winnersWithoutBccPeerHadBcc := stats.winnersWithoutBccPeerHadBcc + 1 }
      else stats
    | none => stats

omit [Rust.Target] in
def tallyItem (stats : KeepSetStats) (i : Nat) : KeepSetStats :=
  let v := r.verdict i
  match v.role with
  | .unique =>
    let stats := { stats with unique := stats.unique + 1 }
    let stats := if (r.item i).integrity.degraded then
        { stats with degradedWinners := stats.degradedWinners + 1 } else stats
    let stats := if v.promotedFromFailure then
        { stats with promotedFromFailure := stats.promotedFromFailure + 1 } else stats
    let stats := match v.promoteReason with
      | some .attachIncomplete => { stats with
          promotedAfterAttachIncompleteCount := stats.promotedAfterAttachIncompleteCount + 1 }
      | some .modeCFallbackAllPeersIncomplete => { stats with
          modeCFallbackAllPeersIncompleteCount := stats.modeCFallbackAllPeersIncompleteCount + 1 }
      | some .materializeFail | none => stats
    if (classifyFolder (r.item i).locus.folderPath).isRecoverableItems then
      { stats with winnersFromRecoverableItems := stats.winnersFromRecoverableItems + 1 }
    else stats
  | .dupOf =>
    let stats := { stats with duplicates := stats.duplicates + 1 }
    if v.tierOf = some "message_id" then { stats with tier1Dups := stats.tier1Dups + 1 }
    else if v.tierOf = some "content_hash" ∨ v.tierOf = some "content_hash_strong" then
      { stats with tier2Dups := stats.tier2Dups + 1 }
    else stats
  | .materializeFailed => { stats with materializeFailed := stats.materializeFailed + 1 }

def keepEntry (i : Nat) : KeepEntry :=
  let item := r.item i
  let agg := duplicateSourceAggregate r.items (r.groupContaining i) i
  { locus := item.locus
    messageIdNorm := item.messageIdNorm
    contentHash := item.contentHash
    integrity := item.integrity
    size := item.size
    promotedFromFailure := (r.verdict i).promotedFromFailure
    folderClass := some (folderClassAndRank item.locus.folderPath r.rankCtx.folderRank).1.asStr
    decidedBy := some (r.decidedByFor i)
    duplicateSourceCount := agg.1
    duplicateSources := agg.2.1
    duplicateSourcesTruncated := agg.2.2 }

def keepSetSchema : String := "keep_set_v1"

def keepSetStats : KeepSetStats :=
  let stats : KeepSetStats := {
    recoverable := r.items.length
    groups := r.groups.length
    groupsDroppedMaterialize := r.groupDropped.count true }
  let stats := r.groups.foldl r.tallyGroup stats
  let stats := (range r.items.length).foldl r.tallyItem stats
  { stats with grouping := r.groupingStats }

def toKeepSet : KeepSet where
  schema := keepSetSchema
  policy := r.policy
  familyPolicy := r.familyPolicy
  identityLevel := some r.groupingCtx.identity.asStr
  dedupeScope := some r.groupingCtx.scope.asStr
  winners :=
    Rust.sortBy (fun a b => (compare (pathCompareKey a.locus.sourcePath)
        (pathCompareKey b.locus.sourcePath)).then (compare a.locus.nid b.locus.nid))
      (((range r.items.length).filter fun i => (r.verdict i).role = .unique).map r.keepEntry)
  stats := r.keepSetStats

end ResolvedKeepSet

/-!
# Materialization and promotion (`finalize_with_materialize_opts` in `keepset.rs`)

For each group the members are asked in rank order until one materializes: a hard failure moves on
to the next, and under Mode A so does a message whose attachments are incomplete, while a later peer
is left.
-/

open Foundations (setAll)

structure Client (σ : Type) where
  materialize : σ → MessageLocus → σ × Answer
  onWinner : σ → CanonicalMessage → σ × Except KeepSetError Unit

structure MaterializeFinalizeOpts where
  promoteOnAttachFail : Bool := false

variable {σ : Type}

structure Walk (σ : Type) where
  env : σ
  items : List RecoverableScanItem
  asked : List (Nat × Answer)
  finalWinner : Option Nat := none
  failed : List Nat := []
  softSkipped : List (Nat × CanonicalMessage) := []
  hadHardFail : Bool := false
  hadSoftSkip : Bool := false
  modeCFallback : Bool := false
  acceptedMsg : Option CanonicalMessage := none
  acceptedAttempt : Nat := 0

def walkPeers (c : Client σ) (promote : Bool) (total : Nat) : Nat → List Nat → Walk σ → Walk σ
  | _, [], w => w
  | attempt, idx :: rest, w =>
    let item := itemAt w.items idx
    match c.materialize w.env item.locus with
    | (env, .ok answer) =>
      -- soft fidelity goes back onto the item, and the message mirrors the item
      let item := mergeSoftFidelity item answer
      let msg := answer.carry item
      let w := { w with
        env := env
        items := w.items.set idx item
        asked := w.asked ++ [(idx, Except.ok answer)] }
      let incomplete := promote && isAttachIncomplete msg
      let morePeers := decide (attempt + 1 < total)
      if incomplete && morePeers then
        walkPeers c promote total (attempt + 1) rest
          { w with hadSoftSkip := true, softSkipped := w.softSkipped ++ [(idx, msg)] }
      else if incomplete && promote then
        -- no peer left: the first message passed over stands, this one if there is none
        match w.softSkipped with
        | [] => { w with
            modeCFallback := true
            acceptedAttempt := attempt
            finalWinner := some idx
            acceptedMsg := some msg }
        | (firstIdx, firstMsg) :: others => { w with
            modeCFallback := true
            softSkipped := others ++ [(idx, msg)]
            acceptedAttempt := max attempt 1
            finalWinner := some firstIdx
            acceptedMsg := some firstMsg }
      else { w with acceptedAttempt := attempt, finalWinner := some idx, acceptedMsg := some msg }
    | (env, .error e) =>
      walkPeers c promote total (attempt + 1) rest { w with
        env := env
        asked := w.asked ++ [(idx, Except.error e)]
        failed := w.failed ++ [idx]
        hadHardFail := true }

/-- Messages were passed over and every later peer failed: the first of them stands. -/
def Walk.fallback (w : Walk σ) : Walk σ :=
  match w.finalWinner, w.softSkipped with
  | none, (firstIdx, firstMsg) :: others => { w with
      modeCFallback := true
      softSkipped := others
      acceptedAttempt := 1
      finalWinner := some firstIdx
      acceptedMsg := some firstMsg }
  | _, _ => w

def Walk.promoted (w : Walk σ) : Bool :=
  decide (0 < w.acceptedAttempt) || w.hadHardFail || w.hadSoftSkip

def Walk.promoteReason (w : Walk σ) : Option PromoteReason :=
  if w.modeCFallback then some .modeCFallbackAllPeersIncomplete
  else if w.promoted then
    if w.hadSoftSkip then some .attachIncomplete
    else some .materializeFail
  else none

/-- The state of a run. `asked` and `delivered` record the calls made; the run does not read
them. -/
structure Session (σ : Type) where
  env : σ
  resolved : ResolvedKeepSet
  materializedCount : Nat := 0
  asked : List (Nat × Answer) := []
  delivered : List CanonicalMessage := []

def finalVerdict (boundBy : List BoundBy) (failed : List Nat) (winner : Nat) (promoted : Bool)
    (reason : Option PromoteReason) (idx : Nat) : Verdict :=
  if failed.contains idx then { role := .materializeFailed, winnerOf := some winner }
  else if idx = winner then
    { role := .unique
      winnerOf := some winner
      promotedFromFailure := promoted
      promoteReason := reason }
  else { role := .dupOf, winnerOf := some winner, tierOf := tierOfBound boundBy idx }

variable [Rust.Target]

def groupWalk (c : Client σ) (opts : MaterializeFinalizeOpts) (s : Session σ) (group : List Nat) : Walk σ :=
  let ranked := rankOrder s.resolved.items s.resolved.rankCtx group
  (walkPeers c opts.promoteOnAttachFail ranked.length 0 ranked
    { env := s.env, items := s.resolved.items, asked := s.asked }).fallback

def finalizeGroup (c : Client σ) (opts : MaterializeFinalizeOpts) (s : Session σ) (gIdx : Nat)
    (group : List Nat) : Session σ × Except KeepSetError Unit :=
  if group.isEmpty then (s, .ok ())
  else
    let w := groupWalk c opts s group
    let r := { s.resolved with items := w.items }
    let s := { s with env := w.env, asked := w.asked, resolved := r }
    match w.finalWinner with
    | some winner =>
      match w.acceptedMsg with
      | none => (s, .error (.other "internal: accepted winner without message"))
      | some msg =>
        let peer := (itemAt r.items winner).locus
        let records := (w.softSkipped.filter fun p => p.1 != winner).flatMap fun p =>
          softSkipRecordsForMsg p.2 peer.sourcePath peer.nid
        let r := { r with softSkipAttachRecords := r.softSkipAttachRecords ++ records }
        let s := { s with resolved := r, delivered := s.delivered ++ [msg] }
        match c.onWinner s.env msg with
        | (env, .error e) => ({ s with env := env }, .error e)
        | (env, .ok ()) =>
          ({ s with
              env := env
              materializedCount := s.materializedCount + 1
              resolved := { r with
                groupDropped := r.groupDropped.set gIdx false
                verdicts := setAll group
                  (finalVerdict r.boundBy w.failed winner w.promoted w.promoteReason) r.verdicts } }, .ok ())
    | none =>
      -- every member failed hard
      ({ s with
          resolved := { r with
            groupDropped := r.groupDropped.set gIdx true
            verdicts := setAll group (fun _ => { role := .materializeFailed }) r.verdicts } }, .ok ())

/-- The loop over the groups from number `gIdx` on; an error of the callback ends it. -/
def finalizeGroups (c : Client σ) (opts : MaterializeFinalizeOpts) :
    Nat → List (List Nat) → Session σ → Session σ × Except KeepSetError Unit
  | _, [], s => (s, .ok ())
  | gIdx, group :: groups, s =>
    match finalizeGroup c opts s gIdx group with
    | (s, .ok ()) => finalizeGroups c opts (gIdx + 1) groups s
    | (s, .error e) => (s, .error e)

/-- The state a run starts in: soft-skip rows of an earlier run are cleared. -/
def Session.start (env : σ) (resolved : ResolvedKeepSet) : Session σ where
  env := env
  resolved := { resolved with softSkipAttachRecords := [] }

def finalizeWithMaterializeOpts (c : Client σ) (opts : MaterializeFinalizeOpts) (env : σ)
    (resolved : ResolvedKeepSet) : Session σ × Except KeepSetError Nat :=
  match finalizeGroups c opts 0 resolved.groups (.start env resolved) with
  | (s, .ok ()) => (s, .ok s.materializedCount)
  | (s, .error e) => (s, .error e)

end DedupEngine
