import PstDedupe.DedupEngine.ScanItem

/-!
# Materialized messages (`keepset.rs`)

What loading a message can give back: a message with soft flags, or a hard failure.
-/

namespace DedupEngine

open Rust (Bytes32)

inductive DecisionRole where
  | unique | dupOf | materializeFailed
  deriving DecidableEq, Repr, Inhabited

inductive FamilyPolicy where
  | keepAttachmentsWithParent | parentsOnly
  deriving DecidableEq, Repr

inductive PromoteReason where
  | materializeFail
  | attachIncomplete
  | modeCFallbackAllPeersIncomplete
  deriving DecidableEq, Repr

def PromoteReason.asStr : PromoteReason → String
  | materializeFail => "promoted_after_materialize_fail"
  | attachIncomplete => "promoted_after_attach_incomplete"
  | modeCFallbackAllPeersIncomplete => "mode_c_fallback_all_peers_incomplete"

structure CanonicalAttachment where
  filename : String := ""
  size : Nat := 0
  streamAvailable : Bool := false
  attachNid : Option Nat := none
  attachMethod : Option Int := none
  isCloudLink : Bool := false
  cloudProvider : Option String := none
  cloudUrl : Option String := none
  deriving DecidableEq, Repr, Inhabited

/-- A materialized message; the payload that no decision reads is left out. -/
structure CanonicalMessage where
  locus : MessageLocus
  attachments : List CanonicalAttachment := []
  fidelity : RecoverableIntegrity := {}
  messageIdNorm : Option String := none
  contentHash : Bytes32 := default
  bodyIncomplete : Bool := false
  bodyUnavailable : Bool := false
  deriving DecidableEq, Inhabited

/-- A hard failure promotes the next peer; soft issues come back as flags of a message. -/
inductive MaterializeError where
  | hard (reason : String)
  deriving DecidableEq, Repr

inductive KeepSetError where
  | io (error : String)
  | csv (error : String)
  | json (error : String)
  | other (error : String)
  deriving DecidableEq, Repr

abbrev Answer := Except MaterializeError CanonicalMessage

namespace CanonicalAttachment

def incomplete (a : CanonicalAttachment) : Bool := !a.streamAvailable || a.isCloudLink

end CanonicalAttachment

def isAttachIncomplete (msg : CanonicalMessage) : Bool :=
  msg.attachments.any CanonicalAttachment.incomplete
    || msg.fidelity.degradedReasons.any IntegrityReason.isAttachProbeFail

def pushReason (reasons : List IntegrityReason) (r : IntegrityReason) : List IntegrityReason :=
  if reasons.contains r then reasons else reasons ++ [r]

def softReasons (item : RecoverableScanItem) (msg : CanonicalMessage) : List IntegrityReason :=
  let reasons := item.integrity.degradedReasons
  let reasons := if msg.bodyUnavailable then pushReason reasons .bodyUnavailable else reasons
  let reasons := if msg.bodyIncomplete then pushReason reasons .bodyTruncated else reasons
  msg.fidelity.degradedReasons.foldl pushReason reasons

def mergeSoftFidelity (item : RecoverableScanItem) (msg : CanonicalMessage) : RecoverableScanItem :=
  let reasons := softReasons item msg
  if !reasons.isEmpty || msg.fidelity.isOrphaned || item.integrity.isOrphaned then
    { item with
      integrity := .withDegraded reasons (item.integrity.isOrphaned || msg.fidelity.isOrphaned) }
  else item

@[simp] theorem mergeSoftFidelity_locus (item : RecoverableScanItem) (msg : CanonicalMessage) :
    (mergeSoftFidelity item msg).locus = item.locus := by
  unfold mergeSoftFidelity
  simp only
  split <;> rfl

def CanonicalMessage.carry (msg : CanonicalMessage) (item : RecoverableScanItem) : CanonicalMessage :=
  { msg with
    fidelity := item.integrity
    messageIdNorm := item.messageIdNorm
    contentHash := item.contentHash }

/-- Ledger row of an incomplete attachment of a message that was passed over. -/
structure SoftSkipAttachRecord where
  sourcePath : String
  sourcePst : String
  folderPath : String
  msgNid : Nat
  attachNid : Option Nat
  attachIndex : Nat
  filename : String
  size : Nat
  attachMethod : Int
  reasonCode : String
  peerSourcePath : String
  peerMsgNid : Nat
  cloudProvider : String
  cloudUrl : String
  deriving DecidableEq, Repr

def softSkipRecordsForMsg (msg : CanonicalMessage) (peerSourcePath : String) (peerMsgNid : Nat) :
    List SoftSkipAttachRecord :=
  let reasons := msg.fidelity.degradedReasons
  let failReason :=
    match (reasons.find? (· == .attachCloudLink)).or
        (reasons.find? IntegrityReason.isAttachProbeFail) with
    | some r => r.asStr
    | none => "ATTACH_STREAM_OPEN_FAILED"
  let incompleteAttaches := msg.attachments.zipIdx.filter fun p => p.1.incomplete
  let row (attach : Option (CanonicalAttachment × Nat)) : SoftSkipAttachRecord :=
    { sourcePath := msg.locus.sourcePath
      sourcePst := msg.locus.sourcePst
      folderPath := msg.locus.folderPath
      msgNid := msg.locus.nid
      attachNid := attach.bind fun p => p.1.attachNid
      attachIndex := match attach with
        | some p => Rust.asU32 p.2
        | none => 0
      filename := match attach with
        | some p => p.1.filename
        | none => ""
      size := match attach with
        | some p => p.1.size
        | none => 0
      attachMethod := (attach.bind fun p => p.1.attachMethod).getD (-1)
      reasonCode := match attach with
        | some p => if p.1.isCloudLink then "ATTACH_CLOUD_LINK" else failReason
        | none => failReason
      peerSourcePath := peerSourcePath
      peerMsgNid := peerMsgNid
      cloudProvider := (attach.bind fun p => p.1.cloudProvider).getD ""
      cloudUrl := (attach.bind fun p => p.1.cloudUrl).getD "" }
  if incompleteAttaches.isEmpty then [row none]
  else incompleteAttaches.map fun p => row (some p)

end DedupEngine
