import PstDedupe.Rust.Text
import PstDedupe.DedupEngine.Hasher
import PstDedupe.PstReader.Block
import PstDedupe.PstReader.CrcScopes

/-!
# Header text of an rfc822 part (`pst-dedup-cli/src/attach_content_hash.rs`)

The small text helpers of the embedded message parser.
-/

namespace PstDedupCli

def splitHeadersBody (text : String) : Option (String × String) :=
  match Rust.splitOnce text "\r\n\r\n" with
  | some cut => some cut
  | none => Rust.splitOnce text "\n\n"

abbrev Headers := List (String × String)

def unfoldLine (acc : Headers × Option (String × String)) (rawLine : String) :
    Headers × Option (String × String) :=
  let line := Rust.trimEndMatches rawLine '\r'
  if Rust.startsWith line " " || Rust.startsWith line "\t" then
    (acc.1, acc.2.map fun h => (h.1, h.2 ++ " " ++ Rust.trim line))
  else
    (acc.1 ++ acc.2.toList,
      (Rust.splitOnce line ":").map fun cut =>
        (Rust.toAsciiLowercase (Rust.trim cut.1), Rust.trim cut.2))

def unfoldHeaders (block : String) : Headers :=
  let done := (Rust.split block '\n').foldl unfoldLine ([], none)
  done.1 ++ done.2.toList

def headerValue (headers : Headers) (name : String) : Option String :=
  (headers.find? fun h => h.1 = Rust.toAsciiLowercase name).map Prod.snd

def mimeParam (contentType name : String) : Option String :=
  ((Rust.split contentType ';').drop 1).findSome? fun part =>
    match Rust.splitOnce (Rust.trim part) "=" with
    | none => none
    | some (k, v) =>
      let v := String.ofList (Rust.trimMatches (· == '"') (Rust.trim v).toList)
      if Rust.eqIgnoreAsciiCase (Rust.trim k) (Rust.toAsciiLowercase name) && v ≠ "" then some v
      else none

def extractEmail (sender : Option String) : Option String :=
  match sender.map Rust.trim with
  | none => none
  | some s =>
    if s = "" then none
    else
      match (Rust.splitOnce s "<").bind fun cut => Rust.splitOnce cut.2 ">" with
      | none => some s
      | some (email, _) => if Rust.trim email = "" then some s else some (Rust.trim email)

def mimePartIsInline (headers : Headers) : Bool :=
  ((headerValue headers "content-id").map fun v => Rust.trim v != "").getD false ||
    ((headerValue headers "content-disposition").map fun v =>
      Rust.startsWith (Rust.toAsciiLowercase v) "inline").getD false

def unixSecsToFiletime (unixSecs : Int) : Option Int :=
  let ticks := (unixSecs + 11644473600) * 10000000
  if ticks < 2 ^ 63 ∧ -2 ^ 63 ≤ ticks then some ticks else none

example : mimeParam "multipart/mixed; Boundary=\"b1\"" "boundary" = some "b1" := by decide +kernel

/-!
# Full-stream attachment hashes (`pst-dedup-cli/src/attach_content_hash.rs`)

One budget state is threaded through every attachment of a run: by-value streams, nested messages
read from the subnode tree, and nested messages parsed out of rfc822 bytes. The reader is a
parameter, cancellation an arbitrary answer to every poll.
-/

open DedupEngine
open Rust (Bytes Bytes32 Sha256)
open PstReader (satAdd u64Max)

structure AttachContentHashBudgets where
  maxAttaches : Nat := 50000
  maxBytes : Nat := 1073741824
  perAttachMaxBytes : Nat := 512 * 1024 * 1024

inductive AttachDigestResult where
  | real (digest : Bytes32) (bytes : Nat)
  | embedded (digest : Bytes32) (bytes : Nat)
  | unread (sentinel : Bytes32)
  | depthLimit (sentinel : Bytes32)

namespace AttachDigestResult

def digest : AttachDigestResult → Bytes32
  | real digest _ => digest
  | embedded digest _ => digest
  | unread sentinel => sentinel
  | depthLimit sentinel => sentinel

def isReal : AttachDigestResult → Bool
  | real .. => true
  | _ => false

def isEmbedded : AttachDigestResult → Bool
  | embedded .. => true
  | _ => false

def isUnread : AttachDigestResult → Bool
  | unread .. => true
  | _ => false

def isDepthLimit : AttachDigestResult → Bool
  | depthLimit .. => true
  | _ => false

end AttachDigestResult

structure AttachContentHashState where
  attachesDigested : Nat := 0
  bytesDigested : Nat := 0
  unread : Nat := 0
  truncated : Bool := false
  embeddedParsed : Nat := 0
  embeddedDepthLimit : Nat := 0
  embeddedUnparsed : Nat := 0

def AttachContentHashState.budgetExhausted (s : AttachContentHashState)
    (budgets : AttachContentHashBudgets) : Bool :=
  s.truncated || s.attachesDigested ≥ budgets.maxAttaches || s.bytesDigested ≥ budgets.maxBytes

/-- What successive reads of an attachment return, and whether a block of it failed its CRC. -/
structure AttachStream where
  reads : List (PstReader.Result Bytes)
  crcSuspect : Bool

structure Attach where
  nid : Nat
  filename : String
  declaredSize : Nat
  attachMethod : Option Int
  mimeTag : Option String
  isCloudLink : Bool

structure EmbeddedChildAttach extends Attach where
  isInline : Bool

structure EmbeddedIdentityFields where
  subject : Option String
  submitTime : Option Int
  senderEmail : Option String
  displayTo : Option String
  displayCc : Option String
  displayBcc : Option String
  bodyPlain : Option String
  bodySha256 : Option Bytes32
  recipients : List CanonicalRecipient
  childAttachments : List EmbeddedChildAttach
  crcSuspect : Bool

/-- The open PST, the date parser and the cancel flag. `Node` is a `MessageNodeRef`; `cancel n` is
what poll `n` of the flag sees. -/
structure Pst (Node : Type) where
  messageNodeFromNbt : Nat → PstReader.Result Node
  openAttachData : Node → Nat → PstReader.Result AttachStream
  resolveEmbeddedRoot : Node → Nat → PstReader.Result Node
  readIdentity : Node → Nat → PstReader.Result EmbeddedIdentityFields
  /-- `DateTime::parse_from_rfc2822`, in Unix seconds. -/
  parseFromRfc2822 : String → Option Int
  cancel : Nat → Bool

structure Progress where
  now : AttachContentHashState := {}
  past : List AttachContentHashState := []
  polls : Nat := 0

abbrev Hashing := StateM Progress

def update (f : AttachContentHashState → AttachContentHashState) : Hashing Unit :=
  modify fun p => { p with now := f p.now, past := p.now :: p.past }

def getState : Hashing AttachContentHashState := return (← get).now

def setTruncated : Hashing Unit := update fun s => { s with truncated := true }

section

variable {Node : Type} (pst : Pst Node)

def cancelRequested : Hashing Bool :=
  modifyGet fun p => (pst.cancel p.polls, { p with polls := p.polls + 1 })

/-- `is_embedded_identity_attach`. -/
def mimeIsRfc822 (mime : Option String) : Bool :=
  (mime.map fun m => Rust.contains (Rust.toAsciiLowercase m) "message/rfc822").getD false

def isEmbeddedIdentityAttach (method : Option Int) (mime : Option String) : Bool :=
  method = some DedupEngine.attachEmbeddedMsg || mimeIsRfc822 mime

def readLoop («over» : AttachContentHashState → Nat → Nat → Bool) (mark : Hashing AttachDigestResult) :
    List (PstReader.Result Bytes) → Bytes → Hashing (Except AttachDigestResult Bytes)
  | reads, content => do
    if ← cancelRequested pst then
      setTruncated
      return .error (← mark)
    else
      match reads with
      | [] => pure (.ok content)
      | .error _ :: _ => return .error (← mark)
      | .ok chunk :: rest =>
        if chunk = [] then pure (.ok content)
        else if «over» (← getState) content.length chunk.length then
          setTruncated
          return .error (← mark)
        else readLoop «over» mark rest (content ++ chunk)

variable [Sha256] [Rust.Target]

def markUnread (a : Attach) : Hashing AttachDigestResult := do
  update fun s => { s with unread := satAdd s.unread 1 }
  pure (.unread (attachUnreadSentinel a.filename a.declaredSize))

def markUnparsed (a : Attach) : Hashing AttachDigestResult := do
  update fun s => { s with
    unread := satAdd s.unread 1, embeddedUnparsed := satAdd s.embeddedUnparsed 1 }
  pure (.unread (attachUnreadSentinel a.filename a.declaredSize))

def bytesRead (seen : Nat) : Nat := min seen u64Max

def binaryOver (budgets : AttachContentHashBudgets) (s : AttachContentHashState) (seen n : Nat) : Bool :=
  satAdd (bytesRead seen) n > budgets.perAttachMaxBytes ||
    satAdd (satAdd s.bytesDigested (bytesRead seen)) n > budgets.maxBytes

def hashBinaryUnderParent (budgets : AttachContentHashBudgets) (parent : Node) (a : Attach) :
    Hashing AttachDigestResult :=
  match pst.openAttachData parent a.nid with
  | .error _ => markUnread a
  | .ok stream => do
    match ← readLoop pst (binaryOver budgets) (markUnread a) stream.reads [] with
    | .error r => pure r
    | .ok content =>
      let n := bytesRead content.length
      if stream.crcSuspect then markUnread a
      else if a.declaredSize > 0 ∧ n ≠ a.declaredSize then markUnread a
      else
        let digest :=
          if a.declaredSize = 0 ∧ n = 0 then emptyContentSha256 else Sha256.digest content
        update fun s => { s with
          attachesDigested := satAdd s.attachesDigested 1
          bytesDigested := satAdd s.bytesDigested n }
        pure (.real digest n)

structure Rfc822Parsed where
  subject : Option String
  sender : Option String
  submitTime : Option Int
  displayTo : Option String
  displayCc : Option String
  displayBcc : Option String
  body : String
  childDigests : List Bytes32

def parseDateBestEffort (date : Option String) : Option Int :=
  match date.map Rust.trim with
  | none => none
  | some s => if s = "" then none else (pst.parseFromRfc2822 s).bind unixSecsToFiletime

def rfc822Parsed (headers : Headers) (body : String) (childDigests : List Bytes32) : Rfc822Parsed where
  subject := headerValue headers "subject"
  sender := extractEmail (headerValue headers "from")
  submitTime := parseDateBestEffort pst (headerValue headers "date")
  displayTo := headerValue headers "to"
  displayCc := headerValue headers "cc"
  displayBcc := headerValue headers "bcc"
  body
  childDigests

def Rfc822Parsed.identity (parsed : Rfc822Parsed) (depth : Nat) : Bytes32 :=
  computeEmbeddedMsgHashV1 depth
    (embeddedHeaderHash parsed.subject parsed.submitTime parsed.sender)
    (hashFullBody parsed.body)
    (embeddedRecipientsHash parsed.displayTo parsed.displayCc parsed.displayBcc none)
    (embeddedAttachmentsHash parsed.childDigests)

def pushUnread (partSize : Nat) : Hashing Bytes32 := do
  update fun s => { s with
    unread := satAdd s.unread 1, embeddedUnparsed := satAdd s.embeddedUnparsed 1 }
  pure (attachUnreadSentinel "rfc822-part" partSize)

/-- The `message/rfc822` branch of `parse_multipart_rfc822`; `parse` is `parse_simple_rfc822` one
level down, called only below the depth cap. -/
def hashRfc822Part (budgets : AttachContentHashBudgets) (depth : Nat)
    (parse : depth + 1 < maxEmbeddedMsgDepth → Bytes → Hashing (Option Rfc822Parsed))
    (body : String) : Hashing Bytes32 := do
  let partSize := Rust.asU32 (Rust.bytes body).length
  if ← cancelRequested pst then
    setTruncated
    pushUnread partSize
  else
    let s ← getState
    if s.budgetExhausted budgets ∨ s.attachesDigested ≥ budgets.maxAttaches then
      setTruncated
      pushUnread partSize
    else if h : maxEmbeddedMsgDepth ≤ depth + 1 then
      -- a depth sentinel takes no slot
      update fun s => { s with embeddedDepthLimit := satAdd s.embeddedDepthLimit 1 }
      pure (attachDepthLimitSentinel "rfc822-part" partSize)
    else
      update fun s => { s with attachesDigested := satAdd s.attachesDigested 1 }
      match ← parse (by omega) (Rust.bytes body) with
      | some nested =>
        update fun s => { s with embeddedParsed := satAdd s.embeddedParsed 1 }
        pure (nested.identity (depth + 1))
      | none => pushUnread partSize

/-- What the part loop of `parse_multipart_rfc822` carries. -/
structure MultipartAcc where
  textBody : String := ""
  sawText : Bool := false
  childDigests : List Bytes32 := []

def multipartPart (ignoreInline : Bool) (hashPart : String → Hashing Bytes32) (acc : MultipartAcc)
    (part : String) : Hashing MultipartAcc :=
  let part := Rust.trimStartMatches (Rust.trimStartMatches part "\r\n") "\n"
  if part = "" || Rust.startsWith part "--" then pure acc
  else
    match splitHeadersBody part with
    | none => pure acc
    | some (headerBlock, body) =>
      let headers := unfoldHeaders headerBlock
      if ignoreInline && mimePartIsInline headers then pure acc
      else
        let contentType :=
          Rust.toAsciiLowercase ((headerValue headers "content-type").getD "text/plain")
        if Rust.startsWith contentType "text/plain" || Rust.startsWith contentType "text/html" then
          if !acc.sawText || Rust.startsWith contentType "text/plain" then
            pure { acc with textBody := body, sawText := true }
          else pure acc
        else if Rust.contains contentType "message/rfc822" || Rust.startsWith contentType "message/"
        then do
          let digest ← hashPart body
          pure { acc with childDigests := acc.childDigests ++ [digest] }
        else
          pure { acc with childDigests := acc.childDigests ++ [Sha256.digest (Rust.bytes body)] }

def parseMultipartRfc822 (budgets : AttachContentHashBudgets) (ignoreInline : Bool) (depth : Nat)
    (parse : depth + 1 < maxEmbeddedMsgDepth → Bytes → Hashing (Option Rfc822Parsed))
    (headers : Headers) (body boundary : String) : Hashing (Option Rfc822Parsed) :=
  let parts := Rust.splitStr body ("--" ++ boundary)
  if parts.length < 2 then pure none
  else do
    let acc ← parts.foldlM (multipartPart ignoreInline (hashRfc822Part pst budgets depth parse)) {}
    pure (some (rfc822Parsed pst headers acc.textBody acc.childDigests))

def rfc822Sections (raw : Bytes) : Option (Headers × String) :=
  ((String.fromUTF8? ⟨raw.toArray⟩).bind splitHeadersBody).map fun cut =>
    (unfoldHeaders cut.1, cut.2)

def isMultipart (contentType : String) : Bool :=
  Rust.startsWith (Rust.toAsciiLowercase contentType) "multipart/"

def parseSimpleRfc822 (budgets : AttachContentHashBudgets) (ignoreInline : Bool) (depth : Nat)
    (raw : Bytes) : Hashing (Option Rfc822Parsed) :=
  match rfc822Sections raw with
  | none => pure none
  | some (headers, body) =>
    let contentType := (headerValue headers "content-type").getD ""
    if isMultipart contentType then
      match mimeParam contentType "boundary" with
      | none => pure none
      | some boundary =>
        parseMultipartRfc822 pst budgets ignoreInline depth
          (fun _ nested => parseSimpleRfc822 budgets ignoreInline (depth + 1) nested)
          headers body boundary
    else pure (some (rfc822Parsed pst headers body []))
  termination_by maxEmbeddedMsgDepth - depth
  decreasing_by omega

def hashRfc822Embedded (budgets : AttachContentHashBudgets) (ignoreInline : Bool) (depth : Nat)
    (parent : Node) (a : Attach) : Hashing AttachDigestResult := do
  let s ← getState
  let remaining := budgets.maxBytes - s.bytesDigested
  let perCap := min (min budgets.perAttachMaxBytes (16 * 1024 * 1024)) remaining
  if perCap = 0 then
    setTruncated
    markUnparsed a
  else if a.declaredSize > 0 ∧ (a.declaredSize > budgets.perAttachMaxBytes ∨ a.declaredSize > remaining) then
    setTruncated
    markUnparsed a
  else
    match pst.openAttachData parent a.nid with
    | .error _ => markUnparsed a
    | .ok stream =>
      match ← readLoop pst (fun _ seen n => satAdd seen n > perCap) (markUnparsed a) stream.reads []
      with
      | .error r => pure r
      | .ok content =>
        if stream.crcSuspect then markUnparsed a
        else if a.declaredSize > 0 ∧ content.length ≠ a.declaredSize then markUnparsed a
        else
          match ← parseSimpleRfc822 pst budgets ignoreInline depth content with
          | none => markUnparsed a
          | some parsed =>
            update fun s => { s with
              bytesDigested := satAdd s.bytesDigested content.length
              embeddedParsed := satAdd s.embeddedParsed 1 }
            pure (.embedded (parsed.identity depth) content.length)

/-- The child loop of `finalize_embedded_identity`. -/
def hashChildren (ignoreInline : Bool) (hashChild : Attach → Hashing AttachDigestResult) :
    List EmbeddedChildAttach → Hashing (List Bytes32)
  | [] => pure []
  | child :: rest =>
    if child.isInline && ignoreInline then hashChildren ignoreInline hashChild rest
    else do
      let dig ← hashChild child.toAttach
      return dig.digest :: (← hashChildren ignoreInline hashChild rest)

def finalizeEmbeddedIdentity (budgets : AttachContentHashBudgets) (ignoreInline : Bool) (depth : Nat)
    (hashChild : Attach → Hashing AttachDigestResult) (fields : EmbeddedIdentityFields) (a : Attach) :
    Hashing AttachDigestResult := do
  if ← cancelRequested pst then
    setTruncated
    markUnparsed a
  else
    let bodyBytes := (fields.bodyPlain.map fun s => (Rust.bytes s).length).getD 0
    let s ← getState
    if bodyBytes > budgets.perAttachMaxBytes ∨ satAdd s.bytesDigested bodyBytes > budgets.maxBytes then
      setTruncated
      markUnparsed a
    else
      -- charged before the children, so that they see the smaller budget
      update fun s => { s with bytesDigested := satAdd s.bytesDigested bodyBytes }
      let bodyHash := fields.bodySha256.getD
        ((fields.bodyPlain.map hashFullBody).getD embeddedBodyMissingHash)
      let recipients := if fields.recipients = [] then none else some fields.recipients
      let childDigests ← hashChildren ignoreInline hashChild fields.childAttachments
      update fun s => { s with embeddedParsed := satAdd s.embeddedParsed 1 }
      pure (.embedded (computeEmbeddedMsgHashV1 depth
        (embeddedHeaderHash fields.subject fields.submitTime fields.senderEmail) bodyHash
        (embeddedRecipientsHash fields.displayTo fields.displayCc fields.displayBcc recipients)
        (embeddedAttachmentsHash childDigests)) bodyBytes)

def hashEmbeddedAttachment (budgets : AttachContentHashBudgets) (ignoreInline : Bool) (depth : Nat)
    (hashChild : depth < maxEmbeddedMsgDepth → Node → Attach → Hashing AttachDigestResult)
    (parent : Node) (a : Attach) : Hashing AttachDigestResult := do
  let s ← getState
  if s.attachesDigested ≥ budgets.maxAttaches ∨ s.budgetExhausted budgets then
    setTruncated
    markUnparsed a
  else if h : maxEmbeddedMsgDepth ≤ depth then
    -- a depth sentinel takes no slot
    update fun s => { s with embeddedDepthLimit := satAdd s.embeddedDepthLimit 1 }
    pure (.depthLimit (attachDepthLimitSentinel a.filename a.declaredSize))
  else if a.attachMethod = some DedupEngine.attachEmbeddedMsg ∧ a.declaredSize > 0 ∧
      a.declaredSize > budgets.perAttachMaxBytes then
    setTruncated
    markUnparsed a
  else
    update fun s => { s with attachesDigested := satAdd s.attachesDigested 1 }
    if a.attachMethod = some DedupEngine.attachEmbeddedMsg then
      match pst.resolveEmbeddedRoot parent a.nid with
      | .error _ => markUnparsed a
      | .ok nested =>
        let s ← getState
        let bodyBudget := min (budgets.maxBytes - s.bytesDigested) budgets.perAttachMaxBytes
        match pst.readIdentity nested bodyBudget with
        | .error (.resourceLimit _) =>
          setTruncated
          markUnparsed a
        | .error _ => markUnparsed a
        | .ok fields =>
          if fields.crcSuspect then markUnparsed a
          else
            finalizeEmbeddedIdentity pst budgets ignoreInline depth (hashChild (by omega) nested)
              fields a
    else if mimeIsRfc822 a.mimeTag then hashRfc822Embedded pst budgets ignoreInline depth parent a
    else markUnparsed a

def hashAttachmentForIdentity (budgets : AttachContentHashBudgets) (ignoreInline : Bool)
    (depth : Nat) (parent : Node) (a : Attach) : Hashing AttachDigestResult := do
  if ← cancelRequested pst then
    setTruncated
    markUnread a
  else if a.isCloudLink then markUnread a
  else
    let s ← getState
    if s.budgetExhausted budgets then
      setTruncated
      markUnread a
    else if isEmbeddedIdentityAttach a.attachMethod a.mimeTag then
      hashEmbeddedAttachment pst budgets ignoreInline depth
        (fun _ nested child => hashAttachmentForIdentity budgets ignoreInline (depth + 1) nested child)
        parent a
    else hashBinaryUnderParent pst budgets parent a
  termination_by maxEmbeddedMsgDepth - depth
  decreasing_by omega

def hashAttachmentStream (budgets : AttachContentHashBudgets) (msgNid : Nat) (a : Attach) :
    Hashing AttachDigestResult :=
  match pst.messageNodeFromNbt msgNid with
  | .error _ => markUnread a
  | .ok parent => hashAttachmentForIdentity pst budgets false 0 parent a

end

end PstDedupCli
