import PstDedupe.DedupEngine.Grouping
import PstDedupe.Foundations.Separator

/-!
# Integrity reasons (`dedup-engine/src/integrity.rs`)

The reason codes a recoverable message carries and the integrity record built from them.
-/

namespace DedupEngine

open List String

inductive IntegrityReason where
  | openFailed | ansiUnsupported | unsupportedCrypt | folderWalkFailed
  | crcMismatch | crcSuspect | blockNotFound | nodeNotFound | dataTruncated
  | bodyTruncated | bodyUnavailable | orphanedNode | invalidStructure | propertyError
  | messageReadFailed | attachMetaFailed
  | attachStreamOpenFailed | attachStreamReadFailed | attachStreamCrc | attachBlockNotFound
  | attachDataTruncated | attachMethodUnsupported | attachCloudLink
  | attachProbeTruncated | attachProbeTimeout | attachPeerProbeCap
  | pathNotFound | notPst | readError
  deriving DecidableEq, Repr

namespace IntegrityReason

def asStr : IntegrityReason → String
  | openFailed => "OPEN_FAILED"
  | ansiUnsupported => "ANSI_UNSUPPORTED"
  | unsupportedCrypt => "UNSUPPORTED_CRYPT"
  | folderWalkFailed => "FOLDER_WALK_FAILED"
  | crcMismatch => "CRC_MISMATCH"
  | crcSuspect => "CRC_SUSPECT"
  | blockNotFound => "BLOCK_NOT_FOUND"
  | nodeNotFound => "NODE_NOT_FOUND"
  | dataTruncated => "DATA_TRUNCATED"
  | bodyTruncated => "BODY_TRUNCATED"
  | bodyUnavailable => "BODY_UNAVAILABLE"
  | orphanedNode => "ORPHANED_NODE"
  | invalidStructure => "INVALID_STRUCTURE"
  | propertyError => "PROPERTY_ERROR"
  | messageReadFailed => "MESSAGE_READ_FAILED"
  | attachMetaFailed => "ATTACH_META_FAILED"
  | attachStreamOpenFailed => "ATTACH_STREAM_OPEN_FAILED"
  | attachStreamReadFailed => "ATTACH_STREAM_READ_FAILED"
  | attachStreamCrc => "ATTACH_STREAM_CRC"
  | attachBlockNotFound => "ATTACH_BLOCK_NOT_FOUND"
  | attachDataTruncated => "ATTACH_DATA_TRUNCATED"
  | attachMethodUnsupported => "ATTACH_METHOD_UNSUPPORTED"
  | attachCloudLink => "ATTACH_CLOUD_LINK"
  | attachProbeTruncated => "ATTACH_PROBE_TRUNCATED"
  | attachProbeTimeout => "ATTACH_PROBE_TIMEOUT"
  | attachPeerProbeCap => "ATTACH_PEER_PROBE_CAP"
  | pathNotFound => "PATH_NOT_FOUND"
  | notPst => "NOT_PST"
  | readError => "READ_ERROR"

def isAttachProbeFail : IntegrityReason → Bool
  | attachStreamOpenFailed | attachStreamReadFailed | attachStreamCrc | attachBlockNotFound
  | attachDataTruncated | attachMethodUnsupported | attachCloudLink | attachProbeTimeout
  | attachMetaFailed => true
  | _ => false

end IntegrityReason

structure RecoverableIntegrity where
  isOrphaned : Bool := false
  degraded : Bool := false
  degradedReasons : List IntegrityReason := []
  deriving DecidableEq, Repr, Inhabited

def RecoverableIntegrity.withDegraded (reasons : List IntegrityReason) (isOrphaned : Bool) :
    RecoverableIntegrity :=
  let degraded := !reasons.isEmpty || isOrphaned
  let degradedReasons :=
    if isOrphaned && !reasons.contains .orphanedNode then reasons ++ [.orphanedNode] else reasons
  { isOrphaned := isOrphaned
    degraded := degraded || !degradedReasons.isEmpty
    degradedReasons := degradedReasons }

/-!
# Recoverable scan items (`dedup-engine/src/keepset.rs`, `hasher.rs`)

The record a scan leaves for each recoverable message, the Tier-2 eligibility of one item, and the
two keys under which identity binding looks it up: `midKey` for Tier 1 and `hashKey` for Tier 2.
-/

open Rust (Bytes32)

variable {ctx : GroupingContext}

structure MessageLocus where
  sourcePath : String
  sourcePst : String
  folderPath : String
  nid : Nat
  isOrphaned : Bool := false
  deriving DecidableEq, Repr, Inhabited

structure RecoverableScanItem where
  locus : MessageLocus
  messageIdNorm : Option String
  contentHash : Bytes32
  size : Nat := 0
  integrity : RecoverableIntegrity := {}
  scanOrder : Nat := 0
  submitTime : Option Int := none
  deliveryTime : Option Int := none
  hasBcc : Bool := false
  hasBodyPreview : Bool := false
  subjectNonempty : Bool := false
  senderNonempty : Bool := false
  attachCount : Nat := 0
  displayTo : Option String := none
  displayCc : Option String := none
  displayBcc : Option String := none
  strongContentHash : Option Bytes32 := none
  fpHeader : Nat := 0
  fpBody : Nat := 0
  fpRecipients : Nat := 0
  fpAttachments : Nat := 0
  previewBytesOverBudget : Bool := false
  deriving DecidableEq, Inhabited

inductive Tier2IneligibleReason where
  | unreadableBody | degenerate | crcSuspect
  deriving DecidableEq, Repr

/-- Ineligible when the body is known to be unreadable, or when there is no body and fewer than two
weak fields. A body that was read and is empty still binds. -/
def tier2Eligibility (bodyIncomplete bodyUnavailable hasBodyPreview subjectNonempty
    submitTimePresent senderNonempty : Bool) (attachCount : Nat) : Except Tier2IneligibleReason Unit :=
  if bodyIncomplete || bodyUnavailable then .error .unreadableBody
  else if hasBodyPreview then .ok ()
  else
    let weak := subjectNonempty.toNat + submitTimePresent.toNat + senderNonempty.toNat
      + (decide (1 ≤ attachCount)).toNat
    if weak < 2 then .error .degenerate else .ok ()

namespace RecoverableScanItem

/-- The reason codes are consulted before the weak fields, `CRC_SUSPECT` first of all. -/
def assessTier2Eligibility (item : RecoverableScanItem) : Except Tier2IneligibleReason Unit :=
  let reasons := item.integrity.degradedReasons
  if reasons.contains .crcSuspect then .error .crcSuspect
  else
    tier2Eligibility (reasons.contains .bodyTruncated) (reasons.contains .bodyUnavailable)
      item.hasBodyPreview item.subjectNonempty item.submitTime.isSome item.senderNonempty
      item.attachCount

def tier2BindHash (item : RecoverableScanItem) (identity : IdentityLevel) : Bytes32 :=
  if identity.isStrong then item.strongContentHash.getD item.contentHash else item.contentHash

def mid (item : RecoverableScanItem) : Option String := midPresent item.messageIdNorm

@[simp] theorem midPresent_mid (item : RecoverableScanItem) : midPresent item.mid = item.mid :=
  midPresent_midPresent _

end RecoverableScanItem

/-- Eligibility under a context: the escape hatches readmit an item whose assessment failed. -/
def GroupingContext.tier2Admits (ctx : GroupingContext) (pathKey : String) :
    Except Tier2IneligibleReason Unit → Bool
  | .ok () => true
  | .error .unreadableBody => !ctx.enforceReadableBody
  | .error .degenerate => !ctx.enforceReadableBody
  | .error .crcSuspect => ctx.allowCrcSuspectTier2For pathKey

/-- What both maps put before their keys: nothing globally, the path key and a NUL per source. -/
def scopePrefix (ctx : GroupingContext) (pathKey : String) : String :=
  match ctx.scope with
  | .global => ""
  | .perSource => pathKey ++ "\x00"

def scopeKey (ctx : GroupingContext) (pathKey : String) : String :=
  match ctx.scope with
  | .global => ""
  | .perSource => pathKey

def midKey (ctx : GroupingContext) (pathKey mid : String) : String := scopePrefix ctx pathKey ++ mid

def hashKey (ctx : GroupingContext) (pathKey : String) (hash : Bytes32) : List UInt8 :=
  Rust.bytes (scopePrefix ctx pathKey) ++ hash.1

theorem scopePrefix_eq_iff {p q : String} :
    scopePrefix ctx p = scopePrefix ctx q ↔ scopeKey ctx p = scopeKey ctx q := by
  unfold scopePrefix scopeKey
  cases ctx.scope with
  | global => simp
  | perSource => simp [← toList_inj]

theorem midKey_inj_of_scope {p q m m' : String}
    (hs : scopeKey ctx p = scopeKey ctx q) : midKey ctx p m = midKey ctx q m' ↔ m = m' := by
  unfold midKey
  rw [scopePrefix_eq_iff.mpr hs]
  simp [← toList_inj]

theorem hashKey_inj {p q : String} {h h' : Bytes32}
    (heq : hashKey ctx p h = hashKey ctx q h') : scopeKey ctx p = scopeKey ctx q ∧ h = h' := by
  unfold hashKey at heq
  obtain ⟨hp, hh⟩ := append_inj' heq (h.2.trans h'.2.symm)
  exact ⟨scopePrefix_eq_iff.mp (Rust.bytes_injective hp), Subtype.ext hh⟩

theorem midKey_inj_of_noNul {p q m m' : String} (hp : '\x00' ∉ p.toList) (hq : '\x00' ∉ q.toList)
    (heq : midKey ctx p m = midKey ctx q m') : scopeKey ctx p = scopeKey ctx q ∧ m = m' := by
  unfold midKey scopePrefix at heq
  unfold scopeKey
  cases hs : ctx.scope with
  | global => simpa [hs] using heq
  | perSource =>
    simp only [hs, ← toList_inj, toList_append, List.append_assoc] at heq ⊢
    exact Foundations.sep_inj_of_notMem hp hq heq

def itemAt (items : List RecoverableScanItem) (i : Nat) : RecoverableScanItem := items.getD i default

theorem itemAt_eq {items : List RecoverableScanItem} {i : Nat} {item : RecoverableScanItem}
    (h : items[i]? = some item) : itemAt items i = item := by
  unfold itemAt
  rw [getD_eq_getElem?_getD, h]
  rfl

/-- A relation between items, read on their positions in the list. -/
def OnItems (items : List RecoverableScanItem)
    (R : RecoverableScanItem → RecoverableScanItem → Prop) (i j : Nat) : Prop :=
  ∃ a b, items[i]? = some a ∧ items[j]? = some b ∧ R a b

def LinkedIn (items : List RecoverableScanItem) (g : List Nat)
    (R : RecoverableScanItem → RecoverableScanItem → Prop) (i j : Nat) : Prop :=
  i ∈ g ∧ j ∈ g ∧ OnItems items R i j

section Keys

variable [Rust.Target]

def pathCompareKey (path : String) : String :=
  if Rust.Target.windows then Rust.Target.toLowercase path else path

def RecoverableScanItem.pathKey (item : RecoverableScanItem) : String :=
  pathCompareKey item.locus.sourcePath

def RecoverableScanItem.eligible (ctx : GroupingContext) (item : RecoverableScanItem) : Bool :=
  ctx.tier2Admits item.pathKey item.assessTier2Eligibility

def RecoverableScanItem.tier1Key (ctx : GroupingContext) (item : RecoverableScanItem) : Option String :=
  item.mid.map (midKey ctx item.pathKey)

theorem RecoverableScanItem.mid_of_tier1Key {ctx : GroupingContext} {item : RecoverableScanItem}
    {key : String} (h : item.tier1Key ctx = some key) : ∃ m, item.mid = some m := by
  unfold RecoverableScanItem.tier1Key at h
  obtain ⟨m, hm, _⟩ := Option.map_eq_some_iff.mp h
  exact ⟨m, hm⟩

def RecoverableScanItem.tier2Key (ctx : GroupingContext) (item : RecoverableScanItem) : List UInt8 :=
  hashKey ctx item.pathKey (item.tier2BindHash ctx.identity)

def RecoverableScanItem.backfillKey (ctx : GroupingContext) (item : RecoverableScanItem) : String × Bytes32 :=
  (scopeKey ctx item.pathKey, item.contentHash)

end Keys

end DedupEngine
