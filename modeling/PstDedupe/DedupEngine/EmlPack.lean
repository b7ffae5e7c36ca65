import PstDedupe.DedupEngine.Materialize
import PstDedupe.Foundations.Chunks
import PstDedupe.Rust.Paths

/-!
# The EML writer (`dedup-engine/src/eml_pack.rs`)

A message is written as headers and a body: one text, two alternatives, or a multipart of the body
and the attachments that could be prepared. The date text of chrono is a parameter, and where
attachment streams come from is the caller's.
-/

namespace DedupEngine.EmlPack

open Rust Foundations

abbrev Bytes := List UInt8

/-! ## What is written -/

def attachEmbeddedMsg : Int := 5

structure CanonicalAttachment (Nested : Type) where
  filename : String := ""
  size : Nat := 0
  mime : Option String := none
  data : Option Bytes := none
  streamAvailable : Bool := false
  attachNid : Option Nat := none
  attachMethod : Option Int := none
  isCloudLink : Bool := false
  cloudProvider : Option String := none
  cloudUrl : Option String := none
  embeddedMessage : Option Nested := none
  embeddedExtractLimit : Bool := false

structure NestedCanonicalMessage where
  subject : Option String := none
  sender : Option String := none
  displayTo : Option String := none
  displayCc : Option String := none
  displayBcc : Option String := none
  messageId : Option String := none
  submitTime : Option Int := none
  bodyPlain : Option String := none
  bodyHtml : Option Bytes := none
  attachments : List (CanonicalAttachment NestedCanonicalMessage) := []
  bodyIncomplete : Bool := false
  attachmentsIncomplete : Bool := false
  sourceMsgNid : Option Nat := none

structure CanonicalMessage where
  locus : MessageLocus
  messageId : Option String := none
  subject : Option String := none
  sender : Option String := none
  displayTo : Option String := none
  displayCc : Option String := none
  displayBcc : Option String := none
  submitTime : Option Int := none
  bodyPlain : Option String := none
  bodyHtml : Option Bytes := none
  attachments : List (CanonicalAttachment NestedCanonicalMessage) := []
  fidelity : RecoverableIntegrity := {}
  edrmMihHex : Option String := none
  bodyIncomplete : Bool := false

structure EmlWriteOpts where
  familyPolicy : FamilyPolicy := .keepAttachmentsWithParent
  maxEmbeddedDepth : Nat := 3

/-- `max_embedded_depth.clamp(1, 8)`. -/
def EmlWriteOpts.maxDepth (opts : EmlWriteOpts) : Nat := max 1 (min opts.maxEmbeddedDepth 8)

structure EmlAttachEvent where
  attachIndex : Nat
  filename : String
  size : Option Nat
  attachMethod : Int
  attachNid : Option Nat
  reasonCode : String
  severity : String
  errorDetail : String
  cloudProvider : String
  cloudUrl : String
  messageSubject : Option String
  deriving DecidableEq

structure EmlWriteResult where
  attachmentsFileWritten : Nat := 0
  embeddedMessagesWritten : Nat := 0
  attachmentsFailed : Nat := 0
  embeddedMessageUnparsed : Bool := false
  attachmentEvents : List EmlAttachEvent := []
  deriving DecidableEq

inductive EmlWriteError where
  | io (error : String)
  | pathBudget (detail : String)
  | attachSkipped (code : String)
  | other (detail : String)
  deriving DecidableEq

def EmlWriteError.display : EmlWriteError → String
  | io e => "eml write io: " ++ e
  | pathBudget s => "eml path budget: " ++ s
  | attachSkipped code => "eml attach skipped: " ++ code
  | other s => "eml write: " ++ s

/-- A stream: what its reads return one after the other, and the error they end with, if any. A read
of no bytes is the end. -/
structure AttachStream where
  chunks : List Bytes
  error : Option String := none

local instance lawfulBytes : LawfulBEq Bytes := inferInstance

def AttachStream.readAll (s : AttachStream) : Except EmlWriteError (List Bytes) :=
  if [] ∈ s.chunks then .ok (s.chunks.takeWhile (· ≠ []))
  else match s.error with
    | none => .ok s.chunks
    | some e => .error (.io e)

structure AttachStreamSource (σ : Type) where
  openAttach : σ → MessageLocus → Nat → Except EmlWriteError AttachStream × σ

/-- chrono, for times in UTC: `%a, %d %b %Y %H:%M:%S +0000`. The fields are names, digits and
signs. -/
class Chrono where
  formatDateUtcUnix : Int → Option String
  no_control : ∀ {t : Int} {text : String}, formatDateUtcUnix t = some text →
    ∀ c ∈ text.toList, isControl c = false

/-! ## Lines and values -/

def crlf : Bytes := [13, 10]

def writeCrlfLine (s : String) : Bytes := bytes s ++ crlf

def normalizeLoop : Bytes → Bytes
  | [] => []
  | [c] => if c = 13 ∨ c = 10 then crlf else [c]
  | c :: d :: rest =>
    if c = 13 then
      if d = 10 then crlf ++ normalizeLoop rest else crlf ++ normalizeLoop (d :: rest)
    else if c = 10 then crlf ++ normalizeLoop (d :: rest)
    else c :: normalizeLoop (d :: rest)

def normalizeBodyCrlfBytes (data : Bytes) : Bytes :=
  let out := normalizeLoop data
  if out ≠ [] ∧ ¬ crlf <:+ out then out ++ crlf else out

def writePlainBody (plain : String) : Bytes := normalizeBodyCrlfBytes (bytes plain)

def writeHtmlBody (html : Bytes) : Bytes := normalizeBodyCrlfBytes html

def sanitizeHeaderValue (s : String) : String :=
  String.ofList (s.toList.filter fun c => !isControl c)

def base64Alphabet : Bytes :=
  bytes "ABCDEFGHIJKLMNOPQRSTUVWXYZabcdefghijklmnopqrstuvwxyz0123456789+/"

def base64Symbol (n : Nat) : UInt8 := base64Alphabet.getD (n &&& 0x3F) 0

def base64EncodeChunk (chunk : Bytes) : Bytes :=
  let b0 := (chunk.getD 0 0).toNat
  let b1 := (chunk.getD 1 0).toNat
  let b2 := (chunk.getD 2 0).toNat
  let triple := (b0 <<< 16) ||| (b1 <<< 8) ||| b2
  [base64Symbol (triple >>> 18), base64Symbol (triple >>> 12),
    if chunk.length > 1 then base64Symbol (triple >>> 6) else 61,
    if chunk.length > 2 then base64Symbol triple else 61]

def base64Encode (data : Bytes) : Bytes := (chunks 3 data).flatMap base64EncodeChunk

/-- The text of small buffers: lines of 76 characters, each with its line break. -/
def base64EncodeChunked (data : Bytes) : Bytes :=
  (chunks 76 (base64Encode data)).flatMap (· ++ crlf)

/-- A character of `write_base64_wrapped`, with the columns of the line. -/
def wrapChar (st : Bytes × Nat) (c : UInt8) : Bytes × Nat :=
  if 76 ≤ st.2 then (st.1 ++ crlf ++ [c], 1) else (st.1 ++ [c], st.2 + 1)

def writeBase64Wrapped (data : Bytes) (st : Bytes × Nat) : Bytes × Nat :=
  (base64Encode data).foldl wrapChar st

def streamBase64Loop : List Bytes → Bytes → Bytes × Nat → Bytes × Nat
  | [], carry, st => if carry = [] then st else writeBase64Wrapped carry st
  | chunk :: rest, carry, st =>
    let combined := carry ++ chunk
    let encodeLen := combined.length / 3 * 3
    streamBase64Loop rest (combined.drop encodeLen) (writeBase64Wrapped (combined.take encodeLen) st)

def streamBase64FromReader (reads : List Bytes) : Bytes :=
  let st := streamBase64Loop reads [] ([], 0)
  if 0 < st.2 then st.1 ++ crlf else st.1

def isAscii (s : String) : Bool := s.toList.all fun c => c.toNat < 128

def encodeHeaderValue (value : String) : String :=
  let value := sanitizeHeaderValue value
  if isAscii value then value
  else
    "=?UTF-8?B?" ++ String.ofList ((base64Encode (bytes value)).map fun b => Char.ofNat b.toNat) ++ "?="

/-- `{:x}`. -/
def hexLower (n : Nat) : String := String.ofList (Nat.toDigits 16 n)

def makeBoundary (kind : String) (nid depth : Nat) : String :=
  "----=_PstDedupe_" ++ kind ++ "_" ++ hexLower nid ++ "_d" ++ Nat.repr depth ++ "_"

/-! ## Headers -/

/-- `.filter(|s| !s.is_empty())`. -/
def nonEmpty (s : Option String) : Option String := s.filter (· ≠ "")

def filetimeToUnix (ft : Int) : Int := ft.tdiv 10000000 - 11644473600

def formatDateUtcFiletime [Chrono] (ft : Int) : Option String :=
  Chrono.formatDateUtcUnix (filetimeToUnix ft)

def optHeader (name : String) (value : Option String) : List String :=
  ((nonEmpty value).map fun v => name ++ sanitizeHeaderValue v).toList

def messageIdHeader (messageId : Option String) : List String :=
  ((nonEmpty messageId).map fun mid =>
    let mid := sanitizeHeaderValue (trim mid)
    if startsWith mid "<" && endsWith mid ">" then "Message-ID: " ++ mid
    else "Message-ID: <" ++ mid ++ ">").toList

def headerLines [Chrono] (msg : CanonicalMessage) (nested : Bool) : List String :=
  messageIdHeader msg.messageId
    ++ ["Subject: " ++ encodeHeaderValue (msg.subject.getD "")]
    ++ optHeader "From: " msg.sender ++ optHeader "To: " msg.displayTo ++ optHeader "Cc: " msg.displayCc
    ++ optHeader "Bcc: " msg.displayBcc
    ++ ((msg.submitTime.bind formatDateUtcFiletime).map fun date => "Date: " ++ date).toList
    ++ (if nested then
        if msg.locus.nid ≠ 0 then ["X-Pst-Dedupe-Nid: 0x" ++ hexLower msg.locus.nid] else []
      else
        ["X-Pst-Dedupe-Source: " ++ sanitizeHeaderValue msg.locus.sourcePath,
          "X-Pst-Dedupe-Folder: " ++ sanitizeHeaderValue msg.locus.folderPath,
          "X-Pst-Dedupe-Nid: 0x" ++ hexLower msg.locus.nid]
        ++ optHeader "X-Pst-Dedupe-Edrm-Mih: " msg.edrmMihHex
        ++ (if msg.fidelity.degraded then
            ["X-Pst-Dedupe-Degraded: "
              ++ join "," (msg.fidelity.degradedReasons.map fun r => sanitizeHeaderValue r.asStr)]
          else [])
        ++ ["X-Pst-Dedupe-Body-Incomplete: " ++ if msg.bodyIncomplete then "true" else "false"])

def writeLines (lines : List String) : Bytes := lines.flatMap writeCrlfLine

def writeHeadersMode [Chrono] (msg : CanonicalMessage) (nested : Bool) : Bytes :=
  writeLines (headerLines msg nested)

/-! ## Bodies -/

def hasPlain (msg : CanonicalMessage) : Bool := (nonEmpty msg.bodyPlain).isSome
def hasHtml (msg : CanonicalMessage) : Bool := (msg.bodyHtml.map fun b => decide (b ≠ [])).getD false

def multipartHeader (subtype boundary : String) : String :=
  "Content-Type: multipart/" ++ subtype ++ "; boundary=\"" ++ boundary ++ "\""

def plainHeader : List String :=
  ["Content-Type: text/plain; charset=UTF-8", "Content-Transfer-Encoding: 8bit"]

def htmlHeader : List String :=
  ["Content-Type: text/html; charset=UTF-8", "Content-Transfer-Encoding: 8bit"]

def plainContent (msg : CanonicalMessage) : Bytes := (msg.bodyPlain.map writePlainBody).getD []
def htmlContent (msg : CanonicalMessage) : Bytes := (msg.bodyHtml.map writeHtmlBody).getD []

def writeAlternativeParts (msg : CanonicalMessage) (boundary : String) : Bytes :=
  writeCrlfLine ("--" ++ boundary) ++ writeLines plainHeader ++ crlf ++ plainContent msg ++ crlf
    ++ writeCrlfLine ("--" ++ boundary) ++ writeLines htmlHeader ++ crlf ++ htmlContent msg ++ crlf

def writeBodyOnlyStructure (msg : CanonicalMessage) (depth : Nat) : Bytes :=
  if hasPlain msg && hasHtml msg then
    let boundary := makeBoundary "alt" msg.locus.nid depth
    writeLines ["MIME-Version: 1.0", multipartHeader "alternative" boundary] ++ crlf
      ++ writeAlternativeParts msg boundary ++ writeCrlfLine ("--" ++ boundary ++ "--")
  else if hasHtml msg then
    writeLines ("MIME-Version: 1.0" :: htmlHeader) ++ crlf ++ htmlContent msg
  else writeLines ("MIME-Version: 1.0" :: plainHeader) ++ crlf ++ plainContent msg

def writeBodyPart (msg : CanonicalMessage) (depth : Nat) : Bytes :=
  if hasPlain msg && hasHtml msg then
    let boundary := makeBoundary "alt" ((msg.locus.nid + 1) % 2 ^ 64) depth
    writeLines [multipartHeader "alternative" boundary] ++ crlf
      ++ writeAlternativeParts msg boundary ++ writeCrlfLine ("--" ++ boundary ++ "--")
  else if hasHtml msg then writeLines htmlHeader ++ crlf ++ htmlContent msg ++ crlf
  else writeLines plainHeader ++ crlf ++ plainContent msg ++ crlf

/-! ## Attachments -/

abbrev Attachment := CanonicalAttachment NestedCanonicalMessage

def isEmbeddedMessage (att : Attachment) : Bool :=
  att.attachMethod = some attachEmbeddedMsg
    || (att.mime.map fun m => Rust.contains (toAsciiLowercase m) "message/rfc822").getD false

def dosDeviceNames : List String :=
  ["CON", "PRN", "AUX", "NUL", "COM1", "COM2", "COM3", "COM4", "COM5", "COM6", "COM7", "COM8",
    "COM9", "LPT1", "LPT2", "LPT3", "LPT4", "LPT5", "LPT6", "LPT7", "LPT8", "LPT9"]

def sanitizeFilenameComponent (s : String) : String :=
  let cleaned := String.ofList (s.toList.map fun c =>
    if c ∈ ['<', '>', ':', '"', '/', '\\', '|', '?', '*'] || isControl c then '_' else c)
  let trimmed := trimWhere (· = '.') (trim cleaned)
  if toAsciiUppercase trimmed ∈ dosDeviceNames then "_" ++ trimmed else trimmed

def mapEmlAttachFailReason (att : Attachment) (err : EmlWriteError) : String :=
  if att.isCloudLink then "ATTACH_CLOUD_LINK"
  else match err with
    | .io _ => "ATTACH_STREAM_OPEN_FAILED"
    | .attachSkipped code => code
    | .other s =>
      let lower := toAsciiLowercase s
      if ["stream not available", "missing attach_nid", "no attach stream source", "attach_nid=",
        "open", "not found", "null"].any (Rust.contains lower) then "ATTACH_STREAM_OPEN_FAILED"
      else "ATTACH_UNKNOWN"
    | .pathBudget _ => "ATTACH_UNKNOWN"

def emlAttachEventFromSoftFail (parent : CanonicalMessage) (att : Attachment) (attachIndex : Nat)
    (err : EmlWriteError) : EmlAttachEvent where
  attachIndex
  filename :=
    if att.filename = "" then if isEmbeddedMessage att then "embedded.eml" else "attachment.bin"
    else att.filename
  size := if att.size > 0 then some att.size else none
  attachMethod := att.attachMethod.getD (-1)
  attachNid := att.attachNid
  reasonCode := mapEmlAttachFailReason att err
  severity := "fail"
  errorDetail := err.display
  cloudProvider := att.cloudProvider.getD ""
  cloudUrl := att.cloudUrl.getD ""
  messageSubject := some (parent.subject.getD "")

inductive AttachBody where
  | memory (data : Bytes)
  | stream (stream : AttachStream)
  | nested (msg : CanonicalMessage) (writeDepth : Nat) (attachmentsIncomplete : Bool)
      (pendingChildFails : List EmlAttachEvent)

structure PreparedPart where
  embedded : Bool
  filename : String
  mime : String
  body : AttachBody
  unparsed : Bool

def nestedToCanonical (nested : NestedCanonicalMessage) (winnerLocus : MessageLocus) :
    CanonicalMessage × Bool :=
  ({ locus := ⟨winnerLocus.sourcePath, winnerLocus.sourcePst, "", nested.sourceMsgNid.getD 0, false⟩
     messageId := nested.messageId
     subject := nested.subject
     sender := nested.sender
     displayTo := nested.displayTo
     displayCc := nested.displayCc
     displayBcc := nested.displayBcc
     submitTime := nested.submitTime
     bodyPlain := nested.bodyPlain
     bodyHtml := nested.bodyHtml
     attachments := nested.attachments
     bodyIncomplete := nested.bodyIncomplete }, nested.sourceMsgNid.isNone)

def missingNidError : EmlWriteError :=
  .other "nested source_msg_nid missing for child attach stream open"

variable {σ : Type}

def openAttachBody (source : AttachStreamSource σ) (parent : CanonicalMessage) (att : Attachment)
    (s : σ) : Except EmlWriteError AttachBody × σ :=
  if parent.locus.nid = 0 then (.error missingNidError, s)
  else
    match att.data with
    | some data => (.ok (.memory data), s)
    | none =>
      if !att.streamAvailable then (.error (.other "attachment stream not available"), s)
      else
        match att.attachNid with
        | none => (.error (.other "attachment missing attach_nid for stream open"), s)
        | some nid =>
          let (opened, s) := source.openAttach s parent.locus nid
          (opened.map .stream, s)

def prepareNested (parent : CanonicalMessage) (nested : NestedCanonicalMessage) (filename : String)
    (depth : Nat) : PreparedPart :=
  let (inner, missingNid) := nestedToCanonical nested parent.locus
  let dropChildren := missingNid && !inner.attachments.isEmpty
  let pendingChildFails :=
    if dropChildren then
      inner.attachments.mapIdx fun idx child =>
        emlAttachEventFromSoftFail inner child (asU32 idx) missingNidError
    else []
  let inner := if dropChildren then { inner with attachments := [] } else inner
  { embedded := true
    filename
    mime := "message/rfc822"
    body := .nested inner (depth + 1) nested.attachmentsIncomplete pendingChildFails
    unparsed := false }

def prepareOneAttach (source : AttachStreamSource σ) (opts : EmlWriteOpts) (depth : Nat)
    (parent : CanonicalMessage) (att : Attachment) (s : σ) : Except EmlWriteError PreparedPart × σ :=
  let filename :=
    if att.filename = "" then if isEmbeddedMessage att then "embedded.eml" else "attachment.bin"
    else sanitizeFilenameComponent att.filename
  if att.attachMethod = some attachEmbeddedMsg then
    if att.embeddedExtractLimit || decide (opts.maxDepth ≤ depth) then
      (.error (.attachSkipped "ATTACH_DEPTH_LIMIT"), s)
    else
      match att.embeddedMessage with
      | some nested => (.ok (prepareNested parent nested filename depth), s)
      | none => (.error (.attachSkipped "ATTACH_EMBEDDED_UNPARSED"), s)
  else
    match openAttachBody source parent att s with
    | (.error e, s) => (.error e, s)
    | (.ok body, s) =>
      let mime := (nonEmpty ((nonEmpty att.mime).map sanitizeHeaderValue)).getD "application/octet-stream"
      let isRfc822 := Rust.contains (toAsciiLowercase mime) "message/rfc822"
      (.ok
        { embedded := isRfc822
          filename
          mime := if isRfc822 then "message/rfc822" else mime
          body
          unparsed := isRfc822 }, s)

/-- The ledger after an attachment that is left out. -/
def EmlWriteResult.softFail (result : EmlWriteResult) (event : EmlAttachEvent) (embedded : Bool) :
    EmlWriteResult :=
  { result with
    attachmentsFailed := result.attachmentsFailed + 1
    attachmentEvents := result.attachmentEvents ++ [event]
    embeddedMessageUnparsed := result.embeddedMessageUnparsed || embedded }

def prepareAttachments (source : AttachStreamSource σ) (opts : EmlWriteOpts) (depth : Nat)
    (parent : CanonicalMessage) (result : EmlWriteResult) (idx : Nat) :
    List Attachment → σ → (List PreparedPart × EmlWriteResult) × σ
  | [], s => (([], result), s)
  | att :: rest, s =>
    match prepareOneAttach source opts depth parent att s with
    | (.ok part, s) =>
      let r := prepareAttachments source opts depth parent result (idx + 1) rest s
      ((part :: r.1.1, r.1.2), r.2)
    | (.error e, s) =>
      let event := emlAttachEventFromSoftFail parent att (asU32 idx) e
      prepareAttachments source opts depth parent (result.softFail event (isEmbeddedMessage att))
        (idx + 1) rest s

def streamAttachRaw : AttachBody → Except EmlWriteError Bytes
  | .memory data => .ok data
  | .stream stream => stream.readAll.map List.flatten
  | .nested _ _ _ _ => .error (.other "internal: nested body passed to stream_attach_raw")

def streamAttachBase64Body : AttachBody → Except EmlWriteError Bytes
  | .memory data => .ok (base64EncodeChunked data)
  | .stream stream => stream.readAll.map streamBase64FromReader
  | .nested _ _ _ _ => .error (.other "internal: nested body passed to stream_attach_base64_body")

/-! ## Messages -/

abbrev EmlM (σ : Type) := ExceptT EmlWriteError (StateM σ)

def EmlM.ofExcept {α : Type} (r : Except EmlWriteError α) : EmlM σ α := fun s => (r, s)

def EmlM.ofState {α : Type} (x : σ → α × σ) : EmlM σ α := fun s => (.ok (x s).1, (x s).2)

def EmlWriteResult.addNested (result nested : EmlWriteResult) (attachmentsIncomplete : Bool)
    (subject : Option String) (pendingChildFails : List EmlAttachEvent) : EmlWriteResult :=
  let nested :=
    if attachmentsIncomplete then
      { nested with
        attachmentsFailed := nested.attachmentsFailed + 1
        attachmentEvents := nested.attachmentEvents ++
          [{ attachIndex := 0
             filename := "(nested attach list incomplete)"
             size := none
             attachMethod := -1
             attachNid := none
             reasonCode := "ATTACH_META_FAILED"
             severity := "fail"
             errorDetail := "nested attach list incomplete"
             cloudProvider := ""
             cloudUrl := ""
             messageSubject := some (subject.getD "") }] }
    else nested
  { result with
    embeddedMessagesWritten := result.embeddedMessagesWritten + (1 + nested.embeddedMessagesWritten)
    attachmentsFileWritten := result.attachmentsFileWritten + nested.attachmentsFileWritten
    attachmentsFailed := result.attachmentsFailed + (nested.attachmentsFailed + pendingChildFails.length)
    embeddedMessageUnparsed := result.embeddedMessageUnparsed || nested.embeddedMessageUnparsed
    attachmentEvents := result.attachmentEvents ++ (nested.attachmentEvents ++ pendingChildFails) }

def partHeader (part : PreparedPart) : List String :=
  let disposition :=
    "Content-Disposition: attachment; filename=\"" ++ encodeHeaderValue part.filename ++ "\""
  if part.embedded then
    ["Content-Type: message/rfc822", disposition, "Content-Transfer-Encoding: 8bit"]
  else
    ["Content-Type: " ++ sanitizeHeaderValue part.mime, disposition, "Content-Transfer-Encoding: base64"]

section Write

def writePreparedPart (writeNested : Nat → CanonicalMessage → EmlM σ (Bytes × EmlWriteResult))
    (part : PreparedPart) (result : EmlWriteResult) : EmlM σ (Bytes × EmlWriteResult) :=
  let head := writeLines (partHeader part) ++ crlf
  if part.embedded then
    match part.body with
    | .nested msg writeDepth attachmentsIncomplete pendingChildFails => do
      let (text, nested) ← writeNested writeDepth msg
      pure (head ++ text ++ crlf, result.addNested nested attachmentsIncomplete msg.subject pendingChildFails)
    | body => do
      let text ← EmlM.ofExcept (streamAttachRaw body)
      pure (head ++ text ++ crlf,
        { result with
          embeddedMessagesWritten := result.embeddedMessagesWritten + 1
          embeddedMessageUnparsed := result.embeddedMessageUnparsed || part.unparsed })
  else do
    let text ← EmlM.ofExcept (streamAttachBase64Body part.body)
    pure (head ++ text ++ crlf, { result with attachmentsFileWritten := result.attachmentsFileWritten + 1 })

def writePreparedParts (writeNested : Nat → CanonicalMessage → EmlM σ (Bytes × EmlWriteResult))
    (boundary : String) : List PreparedPart → EmlWriteResult → EmlM σ (Bytes × EmlWriteResult)
  | [], result => pure ([], result)
  | part :: rest, result => do
    let (text, result) ← writePreparedPart writeNested part result
    let (more, result) ← writePreparedParts writeNested boundary rest result
    pure (writeCrlfLine ("--" ++ boundary) ++ text ++ more, result)

variable [Chrono] (source : AttachStreamSource σ) (opts : EmlWriteOpts)

def writeCanonicalEmlWith (writeNested : Nat → CanonicalMessage → EmlM σ (Bytes × EmlWriteResult))
    (depth : Nat) (msg : CanonicalMessage) : EmlM σ (Bytes × EmlWriteResult) := do
  let headers := writeHeadersMode msg (decide (0 < depth))
  if opts.familyPolicy = .keepAttachmentsWithParent && !msg.attachments.isEmpty then
    let (prepared, result) ← EmlM.ofState (prepareAttachments source opts depth msg {} 0 msg.attachments)
    if prepared.isEmpty then pure (headers ++ writeBodyOnlyStructure msg depth, result)
    else
      let boundary := makeBoundary "mixed" msg.locus.nid depth
      let (parts, result) ← writePreparedParts writeNested boundary prepared result
      pure (headers ++ writeLines ["MIME-Version: 1.0", multipartHeader "mixed" boundary] ++ crlf
        ++ writeCrlfLine ("--" ++ boundary) ++ writeBodyPart msg depth ++ parts
        ++ writeCrlfLine ("--" ++ boundary ++ "--"), result)
  else pure (headers ++ writeBodyOnlyStructure msg depth, {})

def writeCanonicalEmlTo : Nat → Nat → CanonicalMessage → EmlM σ (Bytes × EmlWriteResult)
  | 0, depth, msg =>
    writeCanonicalEmlWith source opts (fun _ _ => throw (.other "max_embedded_depth")) depth msg
  | levels + 1, depth, msg =>
    writeCanonicalEmlWith source opts (writeCanonicalEmlTo levels) depth msg

def writeCanonicalEml (msg : CanonicalMessage) : EmlM σ (Bytes × EmlWriteResult) :=
  writeCanonicalEmlTo source opts opts.maxDepth 0 msg

end Write

end DedupEngine.EmlPack
