import PstDedupe.DedupEngine.Grouping
import PstDedupe.Rust.Sha2

/-!
# Content hashes (`dedup-engine/src/hasher.rs`)

The v1 content hash covers subject, submit time, sender, body preview and attachment names and
sizes; the strong hash covers the same bytes and, by identity level, the full body, the recipients
and the attachment contents.
-/

namespace DedupEngine

open Rust (Bytes32 Sha256)

structure AttachmentInfo where
  filename : String
  size : Nat
  isInline : Bool := false
  contentSha256 : Option Bytes32 := none
  deriving DecidableEq

structure StrongHashInput where
  identity : IdentityLevel := .off
  bodySha256 : Option Bytes32 := none
  bodyCharLen : Option Nat := none
  displayTo : Option String := none
  displayCc : Option String := none
  displayBcc : Option String := none
  recipients : Option (List CanonicalRecipient) := none
  ignoreInlineAttachments : Bool := false

structure MessageFields where
  subject : Option String := none
  submitTime : Option Int := none
  senderEmail : Option String := none
  bodyPreview : Option String := none
  attachments : List AttachmentInfo := []

structure DedupKeys where
  messageId : Option String
  contentHash : Bytes32
  previewBytesOverBudget : Bool
  fpHeader : Nat
  fpBody : Nat
  fpRecipients : Nat
  fpAttachments : Nat
  strongContentHash : Option Bytes32

variable [Rust.Target]

def normalizeMessageId (mid : String) : String :=
  let cs := ((Rust.trim mid).toList.dropWhile (· == '<')).reverse.dropWhile (· == '>')
  Rust.Target.toLowercase (Rust.trim (String.ofList cs.reverse))

def replyPrefix (lower : String) : Option Nat :=
  if Rust.startsWith lower "re:" then some 3
  else if Rust.startsWith lower "fwd:" then some 4
  else if Rust.startsWith lower "fw:" then some 3
  else none

def dropBytes : Nat → List Char → Option (List Char)
  | 0, cs => some cs
  | _ + 1, [] => none
  | n + 1, c :: cs => if c.utf8Size ≤ n + 1 then dropBytes (n + 1 - c.utf8Size) cs else none

/-- One round of the loop; `none` is its `break`, also when lowercasing moved the boundary into a
character. -/
def stripPrefix (s : String) : Option String :=
  let trimmed := Rust.trim s
  (replyPrefix (Rust.Target.toLowercase trimmed)).bind fun stripLen =>
    (dropBytes stripLen trimmed.toList).map String.ofList

def stripPrefixes : Nat → String → String
  | 0, s => s
  | fuel + 1, s =>
    match stripPrefix s with
    | none => s
    | some s' => stripPrefixes fuel s'

/-- Every round drops a character, so a round for each is enough. -/
def normalizeSubject (subject : String) : String :=
  let s := Rust.trim subject
  Rust.Target.toLowercase (Rust.trim (stripPrefixes s.length s))

omit [Rust.Target] in
/-- Prefixes are stripped as often as they stand. -/
example : @normalizeSubject .unix "FW: Re: FWD: Test" = "test" := by decide +kernel

def normalizeBodyText (body : String) : String :=
  Rust.Target.toLowercase
    (String.ofList (body.toList.filter fun c => !Rust.isWhitespace c || c == ' '))

/-- `normalized.chars().take(4096)`. -/
def clampPreview (normalized : String) : String := String.ofList (normalized.toList.take 4096)

namespace MessageFields

variable (m : MessageFields)

def subjectText : String := (m.subject.map normalizeSubject).getD ""

omit [Rust.Target] in
def submitText : String := (m.submitTime.map Int.repr).getD ""

def senderText : String :=
  (m.senderEmail.map fun s => Rust.Target.toLowercase (Rust.trim s)).getD ""

def previewText : String := (m.bodyPreview.map fun b => clampPreview (normalizeBodyText b)).getD ""

def counted (ignoreInline : Bool) : List AttachmentInfo :=
  m.attachments.filter fun a => !(ignoreInline && a.isInline)

end MessageFields

def AttachmentInfo.metaString (a : AttachmentInfo) : String :=
  Rust.Target.toLowercase a.filename ++ ":" ++ Nat.repr a.size

def attachmentMetaStrings (m : MessageFields) (ignoreInline : Bool) : List String :=
  Rust.sortStrings ((m.counted ignoreInline).map AttachmentInfo.metaString)

def headerBytes (m : MessageFields) : List UInt8 :=
  Rust.bytes m.subjectText ++ Rust.bytes "|" ++ Rust.bytes m.submitText ++ Rust.bytes "|" ++
    Rust.bytes m.senderText ++ Rust.bytes "|"

def attachmentBytes (m : MessageFields) (ignoreInline : Bool) : List UInt8 :=
  (attachmentMetaStrings m ignoreInline).flatMap fun att => Rust.bytes att ++ Rust.bytes ";"

def v1Preimage (m : MessageFields) (ignoreInline : Bool) : List UInt8 :=
  headerBytes m ++ Rust.bytes m.previewText ++ Rust.bytes "|" ++ attachmentBytes m ignoreInline

def recipientStrongPreimage (strong : StrongHashInput) : String :=
  let keys := (strong.recipients.getD []).filterMap CanonicalRecipient.identityKey
  if keys ≠ [] then normalizeRecipientIdentityKeys keys
  else
    -- no table, or none of its rows has an identity
    normalizeRecipients (strong.displayTo.getD "") ++ "|" ++
      normalizeRecipients (strong.displayCc.getD "") ++ "|" ++
      normalizeRecipients (strong.displayBcc.getD "")

section Hashing

variable [Sha256]

omit [Rust.Target] in
def attachUnreadDomain : List UInt8 := Rust.bytes "pst-dedup/attach-unread/v1\x00"

def attachUnreadSentinel (filename : String) (size : Nat) : Bytes32 :=
  Sha256.digest (attachUnreadDomain ++ Rust.bytes (Rust.Target.toLowercase filename) ++ [0] ++
    Rust.leBytes 4 size)

def attachContentSlot (a : AttachmentInfo) : Bytes32 :=
  a.contentSha256.getD (attachUnreadSentinel a.filename a.size)

def attachDigests (m : MessageFields) (ignoreInline : Bool) : List Bytes32 :=
  Rust.sortBy (fun d e => compare d.1 e.1) ((m.counted ignoreInline).map attachContentSlot)

def strongExtras (m : MessageFields) (strong : StrongHashInput) : List UInt8 :=
  Rust.bytes "|v2|" ++
  (if strong.identity.includesBody then
    (strong.bodySha256.map Subtype.val).getD [] ++ Rust.bytes "|" ++
      Rust.bytes ((strong.bodyCharLen.map Nat.repr).getD "") ++ Rust.bytes "|"
  else []) ++ (if strong.identity.includesRecipients then
    Rust.bytes (recipientStrongPreimage strong) ++ Rust.bytes "|"
  else []) ++ (if strong.identity.includesAttachContent then
    (attachDigests m strong.ignoreInlineAttachments).flatMap fun d => d.1 ++ Rust.bytes ";"
  else [])

def strongPreimage (m : MessageFields) (strong : StrongHashInput) : List UInt8 :=
  v1Preimage m strong.ignoreInlineAttachments ++ strongExtras m strong

omit [Rust.Target] [Sha256] in
def fingerprint64 (digest : Bytes32) : Nat := Rust.ofLeBytes (digest.1.take 8)

def previewOverBudget (m : MessageFields) : Bool :=
  m.bodyPreview.any fun b => decide (4096 < (Rust.bytes (normalizeBodyText b)).length)

def computeContentHashDetailed (m : MessageFields) (ignoreInline : Bool) :
    Bytes32 × Bool × Nat × Nat × Nat × Nat :=
  (Sha256.digest (v1Preimage m ignoreInline), previewOverBudget m,
    fingerprint64 (Sha256.digest (headerBytes m)), fingerprint64 (Sha256.digest (Rust.bytes m.previewText)), 0,
    fingerprint64 (Sha256.digest (attachmentBytes m ignoreInline)))

def computeContentHash (m : MessageFields) : Bytes32 := (computeContentHashDetailed m false).1

def computeStrongContentHash (m : MessageFields) (strong : StrongHashInput) : Bytes32 :=
  Sha256.digest (strongPreimage m strong)

def recipientsFingerprintEx (strong : StrongHashInput) : Nat :=
  fingerprint64 (Sha256.digest (Rust.bytes (recipientStrongPreimage strong)))

def computeDedupKeysEx (messageId : Option String) (m : MessageFields) (strong : StrongHashInput) :
    DedupKeys :=
  let v1 := computeContentHashDetailed m strong.ignoreInlineAttachments
  { messageId := messageId.map normalizeMessageId
    contentHash := v1.1
    previewBytesOverBudget := v1.2.1
    fpHeader := v1.2.2.1
    fpBody := v1.2.2.2.1
    fpRecipients := recipientsFingerprintEx strong
    fpAttachments := v1.2.2.2.2.2
    strongContentHash :=
      if strong.identity.isStrong then some (computeStrongContentHash m strong) else none }

end Hashing

end DedupEngine

/-!
# Embedded message identity (`dedup-engine/src/embedded_hash.rs`)

The identity of a nested message is a hash of four component hashes and its depth. Past the depth
cap a sentinel stands in for it.
-/

namespace DedupEngine

open Rust (Bytes32 Sha256)

def attachEmbeddedMsg : Int := 5

def maxEmbeddedMsgDepth : Nat := 3

def embeddedMsgHashDomain : List UInt8 := Rust.bytes "pst-dedup/embedded-msg-hash/v1\x00"
def attachDepthLimitDomain : List UInt8 := Rust.bytes "pst-dedup/attach-depth-limit/v1\x00"
def embeddedBodyMissingDomain : List UInt8 := Rust.bytes "pst-dedup/embedded-body-missing/v1\x00"

section

variable [Sha256]

def emptyContentSha256 : Bytes32 := Sha256.digest []

def embeddedBodyMissingHash : Bytes32 := Sha256.digest embeddedBodyMissingDomain

def embeddedAttachmentsHash (childDigests : List Bytes32) : Bytes32 :=
  Sha256.digest (childDigests.flatMap fun d => d.1 ++ Rust.bytes ";")

def computeEmbeddedMsgHashV1 (depth : Nat) (header body recipients attachments : Bytes32) : Bytes32 :=
  Sha256.digest (embeddedMsgHashDomain ++ [UInt8.ofNat depth] ++ header.1 ++ body.1 ++
    recipients.1 ++ attachments.1)

variable [Rust.Target]

def attachDepthLimitSentinel (filename : String) (size : Nat) : Bytes32 :=
  Sha256.digest (attachDepthLimitDomain ++ Rust.bytes (Rust.Target.toLowercase filename) ++ [0] ++
    Rust.leBytes 4 size)

def embeddedHeaderHash (subject : Option String) (submitTime : Option Int)
    (sender : Option String) : Bytes32 :=
  Sha256.digest (
    Rust.bytes ((subject.map normalizeSubject).getD "") ++ Rust.bytes "|" ++
    Rust.bytes ((submitTime.map Int.repr).getD "") ++ Rust.bytes "|" ++
    Rust.bytes ((sender.map fun s => Rust.Target.toLowercase (Rust.trim s)).getD ""))

def embeddedRecipientsHash (displayTo displayCc displayBcc : Option String)
    (recipients : Option (List CanonicalRecipient)) : Bytes32 :=
  Sha256.digest (Rust.bytes (recipientStrongPreimage { displayTo, displayCc, displayBcc, recipients }))

def hashFullBody (body : String) : Bytes32 := Sha256.digest (Rust.bytes (normalizeBodyText body))

end

end DedupEngine
