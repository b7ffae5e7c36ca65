import PstDedupe.DedupEngine.ScanItem
import PstDedupe.Foundations.Loop

/-!
# The grouping loop (`group_candidates_with_stats` in `keepset.rs`)

One pass over the scan items in scan order.
-/

namespace DedupEngine

open Rust (Bytes32 HashMap)

variable [Rust.Target]

structure Fingerprints where
  body : Nat
  header : Nat
  recipients : Nat
  attachments : Nat
  deriving Inhabited

def RecoverableScanItem.fingerprints (item : RecoverableScanItem) : Fingerprints :=
  ⟨item.fpBody, item.fpHeader, item.fpRecipients, item.fpAttachments⟩

structure Group where
  members : List Nat
  boundMid : Option String
  fp : Fingerprints
  bindHash : Bytes32
  deriving Inhabited

/-! ## Honesty counters

What the loop counts beside its decisions. No decision reads a counter. -/

structure GroupingNotes where
  stats : GroupingStats := {}
  crossMidHashSeen : List (List UInt8) := []
  crossMidCluster : HashMap (List UInt8) (List String) := ∅

def setInsert {α : Type} [DecidableEq α] (x : α) (s : List α) : List α := if x ∈ s then s else x :: s

def recipientStringsHaveX500 (item : RecoverableScanItem) : Bool :=
  item.displayTo.any recipientHasX500 || item.displayCc.any recipientHasX500
    || item.displayBcc.any recipientHasX500

def GroupingStats.recordTier2Block (ctx : GroupingContext) (item : RecoverableScanItem)
    (s : GroupingStats) : GroupingStats :=
  match item.assessTier2Eligibility with
  | .ok () => s
  | .error .unreadableBody =>
    if ctx.enforceReadableBody then
      { s with tier2BlockedUnreadableBody := s.tier2BlockedUnreadableBody + 1 } else s
  | .error .degenerate =>
    if ctx.enforceReadableBody then
      { s with tier2BlockedDegenerate := s.tier2BlockedDegenerate + 1 } else s
  | .error .crcSuspect =>
    if ctx.allowCrcSuspectTier2For item.pathKey then s
    else { s with tier2BlockedCrcSuspect := s.tier2BlockedCrcSuspect + 1 }

namespace GroupingNotes

def noteItem (ctx : GroupingContext) (item : RecoverableScanItem) (notes : GroupingNotes) : GroupingNotes :=
  let s := notes.stats
  let s := if item.previewBytesOverBudget then
      { s with tier2PreviewBytesOverBudget := s.tier2PreviewBytesOverBudget + 1 } else s
  let s := s.recordTier2Block ctx item
  let s := if recipientStringsHaveX500 item then
      { s with x500RecipientItems := s.x500RecipientItems + 1 } else s
  { notes with stats := s }

def noteTier1Divergence (item group : Fingerprints) (notes : GroupingNotes) : GroupingNotes :=
  let s := notes.stats
  let bodyDiff := item.body != group.body
  let metaDiff := item.header != group.header || item.attachments != group.attachments
  let recipDiff := item.recipients != group.recipients
  let s :=
    if bodyDiff then { s with tier1DivergentBody := s.tier1DivergentBody + 1 }
    else if recipDiff && !metaDiff then
      { s with tier1DivergentRecipients := s.tier1DivergentRecipients + 1 }
    else if metaDiff then { s with tier1DivergentMetadata := s.tier1DivergentMetadata + 1 }
    else s
  { notes with stats := s }

def noteCrossMidBlocked (hkey : List UInt8) (existing mid : Option String)
    (notes : GroupingNotes) : GroupingNotes :=
  let s := { notes.stats with crossMidBlocked := notes.stats.crossMidBlocked + 1 }
  let s := if hkey ∈ notes.crossMidHashSeen then s
    else { s with crossMidBlockedGroups := s.crossMidBlockedGroups + 1 }
  let seen := setInsert hkey notes.crossMidHashSeen
  match mid with
  | none => { notes with stats := s, crossMidHashSeen := seen }
  | some m =>
    let cluster := (notes.crossMidCluster.get hkey).getD []
    let cluster := match existing with
      | some e => setInsert e cluster
      | none => cluster
    let cluster := setInsert m cluster
    { stats := { s with
        crossMidBlockedMaxGroup := max s.crossMidBlockedMaxGroup cluster.length }
      crossMidHashSeen := seen
      crossMidCluster := AList.insert hkey cluster notes.crossMidCluster }

end GroupingNotes

structure GroupingState where
  groups : List Group
  midToGroup : HashMap String Nat
  hashToGroup : HashMap (List UInt8) Nat
  boundBy : List BoundBy
  tier2Eligible : List Bool
  notes : GroupingNotes

namespace GroupingState

/-- Before the first of `n` items. -/
def init (n : Nat) : GroupingState where
  groups := []
  midToGroup := ∅
  hashToGroup := ∅
  boundBy := List.replicate n .seed
  tier2Eligible := List.replicate n true
  notes := {}

def group (st : GroupingState) (gid : Nat) : Group := st.groups.getD gid default

end GroupingState

/-- Where an item goes. `crossMid` is a content hit that Message-ID authority refused. -/
inductive Lookup where
  | tier1 (gid : Nat)
  | tier2 (gid : Nat)
  | crossMid (gid : Nat)
  | fresh
  deriving DecidableEq, Repr

variable (ctx : GroupingContext)

def tier1Slot (st : GroupingState) (item : RecoverableScanItem) : Option Nat :=
  (item.tier1Key ctx).bind st.midToGroup.get

/-- `--tier1-verify`: may the group keep an item that carries its Message-ID? -/
def tier1Splits (item : RecoverableScanItem) (g : Group) : Bool :=
  match ctx.tier1Verify with
  | .off => false
  | .content => item.tier2BindHash ctx.identity != g.bindHash
  | .body => item.fpBody != g.fp.body

def tier1Find (st : GroupingState) (item : RecoverableScanItem) : Option Nat :=
  (tier1Slot ctx st item).filter fun gid => !tier1Splits ctx item (st.group gid)

def tier2Slot (st : GroupingState) (item : RecoverableScanItem) : Option Nat :=
  if ctx.tier2Enabled && item.eligible ctx then st.hashToGroup.get (item.tier2Key ctx) else none

def lookup (st : GroupingState) (item : RecoverableScanItem) : Lookup :=
  match tier1Find ctx st item with
  | some gid => .tier1 gid
  | none =>
    match tier2Slot ctx st item with
    | none => .fresh
    | some gid =>
      if (midJoinCompatible (st.group gid).boundMid item.mid ctx.blockCrossMid).1 then .tier2 gid
      else .crossMid gid

def boundByForTier2 : BoundBy :=
  if ctx.identity.isStrong then .strongContentHash else .contentHash

namespace GroupingState

variable (st : GroupingState)

def join (gid i : Nat) (bb : BoundBy) : GroupingState :=
  { st with
    groups := st.groups.modify gid fun g => { g with members := g.members ++ [i] }
    boundBy := st.boundBy.set i bb }

/-- A content join hands the group a Message-ID when it had none. An existing Tier-1 entry for that
Message-ID stays. -/
def adopt (gid : Nat) (item : RecoverableScanItem) : GroupingState :=
  match (midJoinCompatible (st.group gid).boundMid item.mid ctx.blockCrossMid).2 with
  | none => st
  | some nb =>
    if (st.group gid).boundMid.isNone then
      { st with
        groups := st.groups.modify gid fun g => { g with boundMid := some nb }
        midToGroup := st.midToGroup.orInsert (midKey ctx item.pathKey nb) gid }
    else st

def seed (i : Nat) (item : RecoverableScanItem) : GroupingState :=
  let gid := st.groups.length
  { st with
    groups := st.groups ++ [{
      members := [i]
      boundMid := item.mid
      fp := item.fingerprints
      bindHash := item.tier2BindHash ctx.identity }]
    boundBy := st.boundBy.set i .seed
    midToGroup :=
      match item.tier1Key ctx with
      | some key => AList.insert key gid st.midToGroup
      | none => st.midToGroup
    hashToGroup :=
      if ctx.tier2Enabled && item.eligible ctx then
        st.hashToGroup.orInsert (item.tier2Key ctx) gid
      else st.hashToGroup }

/-- The counters and flags one item leaves, whatever its lookup decides. -/
def note (i : Nat) (item : RecoverableScanItem) : GroupingState :=
  let notes := st.notes.noteItem ctx item
  let notes := match tier1Slot ctx st item with
    | some gid => notes.noteTier1Divergence item.fingerprints (st.group gid).fp
    | none => notes
  let notes := match lookup ctx st item with
    | .crossMid gid =>
      notes.noteCrossMidBlocked (item.tier2Key ctx) (st.group gid).boundMid item.mid
    | _ => notes
  { st with notes := notes, tier2Eligible := st.tier2Eligible.set i (item.eligible ctx) }

end GroupingState

/-- The loop body for item `i`. -/
def groupItem (st : GroupingState) (i : Nat) (item : RecoverableScanItem) : GroupingState :=
  match lookup ctx st item with
  | .tier1 gid => (st.note ctx i item).join gid i .messageId
  | .tier2 gid => ((st.note ctx i item).adopt ctx gid item).join gid i (boundByForTier2 ctx)
  | .crossMid _ => (st.note ctx i item).seed ctx i item
  | .fresh => (st.note ctx i item).seed ctx i item

def groupLoop (items : List RecoverableScanItem) : GroupingState :=
  Foundations.enumFold (groupItem ctx) (.init items.length) items

end DedupEngine
