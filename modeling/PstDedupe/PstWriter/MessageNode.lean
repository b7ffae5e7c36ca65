import PstDedupe.PstWriter.TableBuilder

/-!
# Message nodes (`pst-writer/src/production.rs`)

A message is a property context with its attachments, their table and the recipient table as
subnodes. Where attachment bytes come from is the caller's, as is who hears of attachment events.
Counters and lengths are natural numbers.
-/

namespace PstWriter

open Rust Foundations
open PstReader (satAdd)

/-! ## What is written -/

def attachByValue : Int32 := 1
def attachByReference : Int32 := 2
def attachByRefResolve : Int32 := 3
def attachByRefOnly : Int32 := 4
def attachEmbeddedMsg : Int32 := 5
def attachByWebReference : Int32 := 7

structure WriteAttachment (Msg : Type) where
  filename : String := ""
  mime : Option String := none
  size : Nat := 0
  attachMethod : Option Int32 := none
  data : Option Bytes := none
  attachNid : Option Nat := none
  sourcePath : Option String := none
  parentNid : Option Nat := none
  embeddedMessage : Option Msg := none
  embeddedDepthLimited : Bool := false
  isCloudLink : Bool := false
  cloudProvider : Option String := none
  cloudUrl : Option String := none
  cloudPermissionType : Option Int32 := none

structure WriteMessage where
  messageId : Option String := none
  subject : String := ""
  sender : Option String := none
  displayTo : Option String := none
  displayCc : Option String := none
  displayBcc : Option String := none
  recipients : List WriteRecipient := []
  submitTime : Option Int64 := none
  bodyPlain : Option String := none
  bodyHtml : Option Bytes := none
  messageClass : Option String := none
  messageFlags : Option UInt32 := none
  attachmentsIncomplete : Bool := false
  bodyUnavailable : Bool := false
  attachments : List (WriteAttachment WriteMessage) := []
  sourceFolderPath : Option String := none
  sourcePath : Option String := none
  sourceMsgNid : Option Nat := none
  attachListFailed : Bool := false

/-- An attachment opened as a stream; `crcSuspect` once it is consumed. -/
structure AttachRead where
  reader : Reader
  crcSuspect : Bool

/-- `AttachStreamSource::open_attach_stream`, with its state; an error counts as no stream. -/
structure AttachStreamSource (σ : Type) where
  openAttachStream :
    σ → Option String → Option Nat → Option Nat → String → Option AttachRead × σ

/-- `AllowlistedNamedProp`, in the order of the plan's set. -/
inductive AllowlistedNamedProp where
  | attachmentPermissionType | attachmentProviderType | attachmentUrl
  deriving DecidableEq, Repr

structure NamedPropWritePlan where
  used : List AllowlistedNamedProp
  deriving DecidableEq, Repr

def NamedPropWritePlan.npid (plan : NamedPropWritePlan) (prop : AllowlistedNamedProp) : Option Nat :=
  (plan.used.idxOf? prop).map (0x8000 + ·)

structure MessageOpts where
  includeBccRecipients : Bool
  namedPropPlan : NamedPropWritePlan
  parentsOnly : Bool := false
  maxEmbeddedDepth : Nat := 3

def MessageOpts.embeddedDepthLimit (opts : MessageOpts) : Nat := max 1 (min opts.maxEmbeddedDepth 8)

/-! ## Attachment events -/

inductive AttachmentFidelityKind where
  | methodUnsupported | cloudLink | streamOpenFailed | streamReadFailed | streamCrc | depthLimit
  | embeddedUnparsed | metaFailed | omittedByPolicy
  deriving DecidableEq, Repr

inductive AttachEventSeverity where
  | fail | info
  deriving DecidableEq, Repr

structure AttachmentFidelityEvent where
  messageSubject : String
  attachFilename : String
  kind : AttachmentFidelityKind
  sourcePath : String
  folderPath : String
  msgNid : Nat
  attachNid : Option Nat
  attachIndex : Nat
  size : Option Nat
  attachMethod : Int32
  severity : AttachEventSeverity
  cloudProvider : String
  cloudUrl : String
  deriving DecidableEq

def makeAttachEvent (msg : WriteMessage) (attach : WriteAttachment WriteMessage) (attachIndex : Nat)
    (kind : AttachmentFidelityKind) (severity : AttachEventSeverity) : AttachmentFidelityEvent where
  messageSubject := msg.subject
  attachFilename := attach.filename
  kind
  sourcePath := (attach.sourcePath.or msg.sourcePath).getD ""
  folderPath := msg.sourceFolderPath.getD ""
  msgNid := (attach.parentNid.or msg.sourceMsgNid).getD 0
  attachNid := attach.attachNid
  attachIndex
  size := if attach.size > 0 then some attach.size else attach.data.map List.length
  attachMethod := attach.attachMethod.getD (-1)
  severity
  cloudProvider := attach.cloudProvider.getD ""
  cloudUrl := attach.cloudUrl.getD ""

structure WriteCounters where
  attachmentsWritten : Nat := 0
  attachmentsFailed : Nat := 0
  attachmentsOmittedByPolicy : Nat := 0
  embeddedMessagesWritten : Nat := 0
  embeddedDepthLimitHits : Nat := 0
  embeddedUnparsed : Nat := 0
  attachmentFidelityEvents : List AttachmentFidelityEvent := []
  attachmentFidelityEventsTotal : Nat := 0
  attachmentFidelityEventsTruncated : Bool := false
  attachStreamCrcEvents : Nat := 0

def attachmentFidelityEventsCap : Nat := 1000

def WriteCounters.record (c : WriteCounters) (event : AttachmentFidelityEvent) : WriteCounters :=
  let c := if event.severity = .fail then { c with attachmentsFailed := satAdd c.attachmentsFailed 1 }
    else c
  let c := { c with attachmentFidelityEventsTotal := satAdd c.attachmentFidelityEventsTotal 1 }
  let c := if event.kind = .streamCrc then
      { c with attachStreamCrcEvents := satAdd c.attachStreamCrcEvents 1 }
    else c
  if c.attachmentFidelityEvents.length < attachmentFidelityEventsCap then
    { c with attachmentFidelityEvents := c.attachmentFidelityEvents ++ [event] }
  else { c with attachmentFidelityEventsTruncated := true }

/-! ## The state of a write -/

structure WriteState (σ : Type) where
  layout : Layout
  nextNidIndex : Nat
  counters : WriteCounters
  streams : Option σ
  sink : Option (List AttachmentFidelityEvent)

abbrev WriteM (σ : Type) := ExceptT WriterError (StateM (WriteState σ))

variable {σ : Type}

namespace WriteM

def onLayout {α : Type} (x : LayoutM α) : WriteM σ α := fun st =>
  let (r, layout) := x st.layout
  (r, { st with layout })

def ofResult {α : Type} (r : Result α) : WriteM σ α := fun st => (r, st)

def count (f : WriteCounters → WriteCounters) : WriteM σ Unit := fun st =>
  (.ok (), { st with counters := f st.counters })

def recordAttachEvent (event : AttachmentFidelityEvent) : WriteM σ Unit := fun st =>
  (.ok (), { st with sink := st.sink.map (· ++ [event]), counters := st.counters.record event })

def allocNid (nidType : Nat) : WriteM σ Nat := fun st =>
  let (nid, next) := PstWriter.allocNid st.nextNidIndex nidType
  (.ok nid, { st with nextNidIndex := next })

end WriteM

/-! ## Properties -/

def pidTagMessageClass : Nat := 0x001A
def pidTagSubject : Nat := 0x0037
def pidTagClientSubmitTime : Nat := 0x0039
def pidTagSenderEmailAddress : Nat := 0x0C1F
def pidTagDisplayBcc : Nat := 0x0E02
def pidTagDisplayCc : Nat := 0x0E03
def pidTagDisplayTo : Nat := 0x0E04
def pidTagMessageFlags : Nat := 0x0E07
def pidTagMessageSize : Nat := 0x0E08
def pidTagHasAttachments : Nat := 0x0E1B
def pidTagBody : Nat := 0x1000
def pidTagBodyHtml : Nat := 0x1013
def pidTagNativeBody : Nat := 0x1016
def pidTagInternetMessageId : Nat := 0x1035
def pidTagCreationTime : Nat := 0x3007
def pidTagLastModificationTime : Nat := 0x3008
def pidTagAttachDataBinary : Nat := 0x3701
def pidTagAttachLongFilename : Nat := 0x3707
def pidTagAttachPathname : Nat := 0x3708
def pidTagAttachLongPathname : Nat := 0x370D
def pidTagAttachMimeTag : Nat := 0x370E
def pidTagInternetCodepage : Nat := 0x3FDE
def pidTagMessageEditorFormat : Nat := 0x5909

def helperStringPids : List Nat := [
  pidTagInternetMessageId, pidTagSubject, pidTagSenderEmailAddress, pidTagDisplayTo, pidTagDisplayCc,
  pidTagDisplayBcc, pidTagMessageClass]

/-- What `build_message_payload` gathers before the property context is built. -/
structure Payload where
  props : List (Nat × PcValue) := []
  subnodeEntries : List SlEntry := []
  subnodeCounter : Nat := 0
  writtenContentBytes : Nat := 0

namespace Payload

variable [Crc32fast] (p : Payload)

def push (pid : Nat) (value : PcValue) : Payload := { p with props := p.props ++ [(pid, value)] }

def divert (pid : Nat) (bytes : Bytes) (ref : Nat → PcValue) : LayoutM Payload := do
  let subNid := nextSubnodeNid p.subnodeCounter
  let bidData ← LayoutM.of (·.writeDataChain bytes)
  pure {
    props := p.props ++ [(pid, ref subNid)]
    subnodeEntries := p.subnodeEntries ++ [⟨subNid, bidData, 0⟩]
    subnodeCounter := p.subnodeCounter + 1
    writtenContentBytes := p.writtenContentBytes + bytes.length }

def pushStringProp (pid : Nat) (s : String) : LayoutM Payload :=
  if (utf16leBytes s).length > maxHeapValueSize then p.divert pid (utf16leBytes s) .subnodeString
  else pure (p.push pid (.string s))

def pushHtml (html : Bytes) : LayoutM Payload :=
  if html.length > maxHeapValueSize then p.divert pidTagBodyHtml html .subnodeBinary
  else pure (p.push pidTagBodyHtml (.binary html))

def pushStringProps : List (Nat × String) → Payload → LayoutM Payload
  | [], p => pure p
  | (pid, s) :: rest, p => do
    let p ← p.pushStringProp pid s
    pushStringProps rest p

def pushProps (props : List (Nat × PcValue)) : Payload := { p with props := p.props ++ props }

def addSubnode (entry : SlEntry) (contentBytes : Nat) : Payload :=
  { p with
    subnodeEntries := p.subnodeEntries ++ [entry]
    writtenContentBytes := p.writtenContentBytes + contentBytes }

end Payload

def displayProp (pid : Nat) (s : Option String) : List (Nat × String) :=
  match s with
  | none => []
  | some s => if trim s = "" then [] else [(pid, s)]

def optProp {α : Type} (pid : Nat) (s : Option α) : List (Nat × α) := (s.map fun s => (pid, s)).toList

def WriteMessage.stringProps (msg : WriteMessage) (includeBccRecipients : Bool) : List (Nat × String) :=
  optProp pidTagInternetMessageId msg.messageId ++ [(pidTagSubject, msg.subject)]
    ++ optProp pidTagSenderEmailAddress msg.sender ++ optProp pidTagDisplayTo msg.displayTo
    ++ displayProp pidTagDisplayCc msg.displayCc
    ++ (if includeBccRecipients then displayProp pidTagDisplayBcc msg.displayBcc else [])
    ++ [(pidTagMessageClass, msg.messageClass.getD "IPM.Note")]

def WriteMessage.timeProps (msg : WriteMessage) : List (Nat × PcValue) :=
  match msg.submitTime with
  | none => []
  | some t => [(pidTagClientSubmitTime, .time t), (pidTagCreationTime, .time t),
      (pidTagLastModificationTime, .time t)]

def WriteMessage.plainText (msg : WriteMessage) : Option String :=
  if msg.bodyUnavailable then none else msg.bodyPlain

def WriteMessage.htmlBytes (msg : WriteMessage) : Option Bytes :=
  if msg.bodyUnavailable then none else msg.bodyHtml.filter (· ≠ [])

def WriteMessage.bodyFormatProps (msg : WriteMessage) : List (Nat × PcValue) :=
  if msg.htmlBytes.isSome then
    [(pidTagNativeBody, .i32 3), (pidTagMessageEditorFormat, .i32 2), (pidTagInternetCodepage, .i32 65001)]
  else if msg.plainText.isSome then
    [(pidTagNativeBody, .i32 1), (pidTagMessageEditorFormat, .i32 1), (pidTagInternetCodepage, .i32 65001)]
  else []

/-! ## One attachment -/

def nidTypeNormalMessage : Nat := 0x04
def nidTypeAttachment : Nat := 0x05
def nidAttachmentTable : Nat := 0x671
def nidRecipientTable : Nat := 0x692

def nextAttachNid (counter : Nat) : Nat := ((counter + 1) <<< 5) ||| nidTypeAttachment

/-- `name.rfind('.')`: the stem, and the extension with its dot. -/
def splitExt (name : List Char) : List Char × List Char :=
  if '.' ∈ name then
    ((name.reverse.dropWhile (· ≠ '.')).tail.reverse, '.' :: (name.reverse.takeWhile (· ≠ '.')).reverse)
  else (name, [])

def shortAttachFilename [Target] (long : String) : String :=
  let name := (Target.fileName long).getD long
  if (bytes name).length ≤ 12 then name
  else
    let cut := splitExt name.toList
    String.ofList (cut.1.take 8 ++ cut.2)

example : splitExt "a.b.txt".toList = ("a.b".toList, ".txt".toList) := by decide

structure WrittenAttach where
  nid : Nat
  bidData : Nat
  bidSub : Nat
  sizeContrib : Nat
  attachSize : Nat
  method : Int32
  filename : String

def i32Size (n : Nat) : Nat := min n i32Max

variable [Crc32fast] [Target]

def pcBytes (props : List (Nat × PcValue)) : Result Bytes := do
  let (hid, heap) ← buildPcV2 (.new 0x6C) props
  pure (heap.finalize hid)

def writeAttachPc (props : List (Nat × PcValue)) : WriteM σ (Nat × Nat) := do
  let bytes ← WriteM.ofResult (pcBytes props)
  let bidData ← WriteM.onLayout (LayoutM.of (·.writeDataChain bytes))
  pure (bidData, bytes.length)

def trimmedProps (s : Option String) (props : String → List (Nat × PcValue)) : List (Nat × PcValue) :=
  match nonBlank s with
  | none => []
  | some s => props s

def pointerMethod (attachMethod : Option Int32) : Int32 :=
  match attachMethod with
  | none => attachByWebReference
  | some m =>
    if m = attachByWebReference ∨ m = attachByReference ∨ m = attachByRefResolve ∨ m = attachByRefOnly
    then m else attachByWebReference

def namedProp (npid : Option Nat) (value : PcValue) : List (Nat × PcValue) :=
  (npid.map fun npid => (npid, value)).toList

def cloudLinkProps (attach : WriteAttachment WriteMessage) (plan : NamedPropWritePlan) :
    List (Nat × PcValue) :=
  [(pidTagAttachLongFilename, .string attach.filename),
    (pidTagAttachFilename, .string (shortAttachFilename attach.filename)),
    (pidTagAttachMethod, .i32 (pointerMethod attach.attachMethod)),
    (pidTagAttachSize, .i32 (Int32.ofNat (i32Size attach.size)))]
    ++ trimmedProps attach.cloudUrl (fun url =>
      [(pidTagAttachLongPathname, .string url), (pidTagAttachPathname, .string url)]
        ++ namedProp (plan.npid .attachmentUrl) (.string url))
    ++ trimmedProps attach.cloudProvider (fun provider =>
      namedProp (plan.npid .attachmentProviderType) (.string provider))
    ++ (match attach.cloudPermissionType with
      | none => []
      | some perm => namedProp (plan.npid .attachmentPermissionType) (.i32 perm))
    ++ optProp pidTagAttachMimeTag (attach.mime.map .string)

def writeCloudLinkPointerAttach (plan : NamedPropWritePlan) (msg : WriteMessage)
    (attach : WriteAttachment WriteMessage) (attachIndex attachNid : Nat) : WriteM σ WrittenAttach := do
  let (bidData, pcLen) ← writeAttachPc (cloudLinkProps attach plan)
  WriteM.recordAttachEvent (makeAttachEvent msg attach attachIndex .cloudLink .fail)
  WriteM.count fun c => { c with attachmentsWritten := c.attachmentsWritten + 1 }
  pure ⟨attachNid, bidData, 0, pcLen, i32Size attach.size, pointerMethod attach.attachMethod, attach.filename⟩

inductive ResolvedAttach where
  | bytes (data : Bytes)
  | stream (reader : AttachRead)

def resolveAttachPayload (source : AttachStreamSource σ) (attach : WriteAttachment WriteMessage) :
    WriteM σ (Option ResolvedAttach) := fun st =>
  match attach.data with
  | some data => (.ok (some (.bytes data)), st)
  | none =>
    match st.streams with
    | none => (.ok none, st)
    | some s =>
      let (reader, s) := source.openAttachStream s attach.sourcePath attach.parentNid attach.attachNid
        attach.filename
      (.ok (reader.map .stream), { st with streams := some s })

def tryStreamChain (reader : AttachRead) : WriteM σ (Option (Nat × Nat)) := fun st =>
  match st.layout.writeDataChainFromReader reader.reader with
  | (.ok v, layout) => (.ok (some v), { st with layout })
  | (.error _, layout) => (.ok none, { st with layout })

def writePayload (payload : ResolvedAttach) : WriteM σ (Option (Nat × List SlEntry × PcValue × Bool)) :=
  let subNid := nextSubnodeNid 0
  match payload with
  | .bytes data =>
    if data.length > maxHeapValueSize then do
      let bid ← WriteM.onLayout (LayoutM.of (·.writeDataChain data))
      pure (some (data.length, [⟨subNid, bid, 0⟩], .subnodeBinary subNid, false))
    else pure (some (data.length, [], .binary data, false))
  | .stream reader => do
    match ← tryStreamChain reader with
    | none => pure none
    | some (bid, totalLen) =>
      if totalLen = 0 then pure (some (0, [], .binary [], reader.crcSuspect))
      else pure (some (totalLen, [⟨subNid, bid, 0⟩], .subnodeBinary subNid, reader.crcSuspect))

def skipAttachment (msg : WriteMessage) (attach : WriteAttachment WriteMessage) (attachIndex : Nat)
    (kind : AttachmentFidelityKind) : WriteM σ (Option WrittenAttach) := do
  WriteM.recordAttachEvent (makeAttachEvent msg attach attachIndex kind .fail)
  pure none

def writeByValue (msg : WriteMessage) (attach : WriteAttachment WriteMessage)
    (payload : ResolvedAttach) (attachIndex attachNid : Nat) : WriteM σ (Option WrittenAttach) := do
  match ← writePayload payload with
  | none => skipAttachment msg attach attachIndex .streamReadFailed
  | some (actualLen, subEntries, dataProp, crcSuspect) => do
    if crcSuspect then
      WriteM.recordAttachEvent (makeAttachEvent msg attach attachIndex .streamCrc .info)
    let filename := if attach.filename = "" then "attachment.bin" else attach.filename
    let (bidData, pcLen) ← writeAttachPc
      ([(pidTagAttachLongFilename, .string filename),
        (pidTagAttachFilename, .string (shortAttachFilename filename)),
        (pidTagAttachMethod, .i32 attachByValue),
        (pidTagAttachSize, .i32 (Int32.ofNat (i32Size actualLen))), (pidTagAttachDataBinary, dataProp)]
        ++ optProp pidTagAttachMimeTag (attach.mime.map .string))
    let bidSub ← if subEntries.isEmpty then pure 0
      else WriteM.onLayout (LayoutM.of (·.addSubnodeLeaf subEntries))
    WriteM.count fun c => { c with attachmentsWritten := c.attachmentsWritten + 1 }
    pure (some ⟨attachNid, bidData, bidSub, if subEntries.isEmpty then pcLen else pcLen + actualLen,
      i32Size actualLen, attachByValue, filename⟩)

/-- What `build_embedded_message_object` returns. -/
structure EmbeddedObject where
  nid : Nat
  bidData : Nat
  bidSub : Nat
  sizeContrib : Nat

def writeEmbedded (embed : WriteMessage → WriteM σ EmbeddedObject) (embedded : WriteMessage)
    (attach : WriteAttachment WriteMessage) (attachNid : Nat) : WriteM σ WrittenAttach := do
  let nested ← embed embedded
  let bidSub ← WriteM.onLayout
    (LayoutM.of (·.addSubnodeLeaf [⟨nested.nid, nested.bidData, nested.bidSub⟩]))
  let nameProps := if attach.filename = "" then []
    else [(pidTagAttachLongFilename, .string attach.filename),
      (pidTagAttachFilename, .string (shortAttachFilename attach.filename))]
  let (bidData, pcLen) ← writeAttachPc
    ([(pidTagAttachMethod, .i32 attachEmbeddedMsg),
      (pidTagAttachSize, .i32 (Int32.ofNat (i32Size nested.sizeContrib))),
      (pidTagAttachDataBinary, .object nested.nid (min nested.sizeContrib (2 ^ 32 - 1)))]
      ++ nameProps ++ optProp pidTagAttachMimeTag (attach.mime.map .string))
  WriteM.count fun c => { c with
    attachmentsWritten := c.attachmentsWritten + 1
    embeddedMessagesWritten := c.embeddedMessagesWritten + 1 }
  pure ⟨attachNid, bidData, bidSub, pcLen + nested.sizeContrib, i32Size nested.sizeContrib,
    attachEmbeddedMsg, attach.filename⟩

def writeOneAttachment (source : AttachStreamSource σ) (plan : NamedPropWritePlan)
    (embed : Option (WriteMessage → WriteM σ EmbeddedObject)) (msg : WriteMessage)
    (attach : WriteAttachment WriteMessage) (attachIndex counter : Nat) :
    WriteM σ (Option WrittenAttach × Nat) :=
  let method := attach.attachMethod.getD attachByValue
  let skip (kind : AttachmentFidelityKind) : WriteM σ (Option WrittenAttach × Nat) := do
    let skipped ← skipAttachment msg attach attachIndex kind
    pure (skipped, counter)
  let depthLimit : WriteM σ (Option WrittenAttach × Nat) := do
    WriteM.count fun c => { c with embeddedDepthLimitHits := c.embeddedDepthLimitHits + 1 }
    skip .depthLimit
  if attach.isCloudLink then do
    let written ← writeCloudLinkPointerAttach plan msg attach attachIndex (nextAttachNid counter)
    pure (some written, counter + 1)
  else if method ≠ attachByValue ∧ method ≠ attachEmbeddedMsg then skip .methodUnsupported
  else if method = attachEmbeddedMsg then
    match embed with
    | none => depthLimit
    | some embed =>
      if attach.embeddedDepthLimited then depthLimit
      else
        match attach.embeddedMessage with
        | none => do
          WriteM.count fun c => { c with embeddedUnparsed := c.embeddedUnparsed + 1 }
          skip .embeddedUnparsed
        | some embedded => do
          let written ← writeEmbedded embed embedded attach (nextAttachNid counter)
          pure (some written, counter + 1)
  else do
    match ← resolveAttachPayload source attach with
    | none => skip .streamOpenFailed
    | some payload => do
      let written ← writeByValue msg attach payload attachIndex (nextAttachNid counter)
      pure (written, counter + 1)

def writeAttachments (source : AttachStreamSource σ) (plan : NamedPropWritePlan)
    (embed : Option (WriteMessage → WriteM σ EmbeddedObject)) (msg : WriteMessage) :
    List (WriteAttachment WriteMessage) → Nat → Nat → WriteM σ (List WrittenAttach)
  | [], _, _ => pure []
  | attach :: rest, attachIndex, counter => do
    let (written, counter) ← writeOneAttachment source plan embed msg attach attachIndex counter
    let others ← writeAttachments source plan embed msg rest (attachIndex + 1) counter
    pure (written.toList ++ others)

/-! ## The message -/

def msgflagRead : Int32 := 1
def msgflagHasattach : Int32 := 0x10

def helperString (prop : Nat × PcValue) : Option String :=
  match prop.2 with
  | .string s => if helperStringPids.contains prop.1 then some s else none
  | _ => none

def largestHelper (props : List (Nat × PcValue)) : Option (Nat × String) :=
  props.zipIdx.foldl (fun best (prop, i) =>
    match helperString prop, best with
    | none, best => best
    | some s, none => some (i, s)
    | some s, some (j, t) =>
      if (utf16leBytes s).length ≥ (utf16leBytes t).length then some (i, s) else some (j, t)) none

def Payload.escalateLargestInlineHelper (p : Payload) : LayoutM (Option Payload) :=
  match largestHelper p.props with
  | none => pure none
  | some (i, s) => do
    let subNid := nextSubnodeNid p.subnodeCounter
    let bidData ← LayoutM.of (·.writeDataChain (utf16leBytes s))
    pure (some {
      props := p.props.modify i fun prop => (prop.1, .subnodeString subNid)
      subnodeEntries := p.subnodeEntries ++ [⟨subNid, bidData, 0⟩]
      subnodeCounter := p.subnodeCounter + 1
      writtenContentBytes := satAdd p.writtenContentBytes (utf16leBytes s).length })

def isHeapPageOverflow (e : WriterError) : Bool :=
  match e with
  | .layout message => contains message "heap page overflow"
  | _ => false

def messageSizeMessage (size : Nat) : String :=
  "computed message size " ++ toString size ++ " bytes exceeds PidTagMessageSize's PT_LONG "
    ++ "(MS-OXPROPS) range (" ++ toString i32Max ++ " bytes max) — refusing to silently clamp a size "
    ++ "that would misrepresent what was written"

/-- The probe loop for the message size. Each round takes a helper string out of the properties,
which bounds the rounds. -/
def Payload.probeMessageSize : Nat → Payload → LayoutM (Nat × Payload)
  | 0, _ => throw .diverges
  | fuel + 1, p =>
    match pcBytes p.props with
    | .ok probe =>
      let size := probe.length + p.writtenContentBytes
      if size ≤ i32Max then pure (size, p) else throw (.bodyTooLarge (messageSizeMessage size))
    | .error e =>
      if isHeapPageOverflow e then do
        match ← p.escalateLargestInlineHelper with
        | none => throw e
        | some p => probeMessageSize fuel p
      else throw e

def setMessageSize (size : Nat) : List (Nat × PcValue) → List (Nat × PcValue)
  | [] => []
  | prop :: rest =>
    if prop.1 = pidTagMessageSize then (prop.1, .i32 (Int32.ofNat size)) :: rest
    else prop :: setMessageSize size rest

def Payload.ofMessage (msg : WriteMessage) (includeBccRecipients : Bool) : LayoutM Payload := do
  let p ← Payload.pushStringProps (msg.stringProps includeBccRecipients) {}
  let p := p.pushProps msg.timeProps
  let p ← match msg.plainText with
    | none => pure p
    | some plain => p.pushStringProp pidTagBody plain
  let p ← match msg.htmlBytes with
    | none => pure p
    | some html => p.pushHtml html
  pure (p.pushProps msg.bodyFormatProps)

def Payload.addAttachments (p : Payload) (written : List WrittenAttach) : LayoutM Payload :=
  let p := written.foldl (fun p a => p.addSubnode ⟨a.nid, a.bidData, a.bidSub⟩ a.sizeContrib) p
  if written.isEmpty then pure p
  else do
    let built ← buildAttachmentTableStrategyA
      (written.map fun a => ⟨a.nid, a.attachSize, a.method, a.filename⟩)
    let tableBid ← LayoutM.of (·.writeDataChain built.heap)
    pure (p.addSubnode ⟨nidAttachmentTable, tableBid, built.tableBidSub⟩
      (satAdd built.heap.length built.extraContentBytes))

def includedRecipients (msg : WriteMessage) (includeBccRecipients : Bool) : List WriteRecipient :=
  msg.recipients.filter fun r => includeBccRecipients || !r.recipientType.isBcc

def Payload.addRecipients (p : Payload) (recipients : List WriteRecipient) : LayoutM Payload := do
  let built ← buildRecipientTableStrategyA (orderRecipientsForTc recipients)
  let tableBid ← LayoutM.of (·.writeDataChain built.heap)
  pure (p.addSubnode ⟨nidRecipientTable, tableBid, built.tableBidSub⟩
    (satAdd built.heap.length built.extraContentBytes))

def WriteMessage.flags (msg : WriteMessage) (hasAttaches : Bool) : Int32 :=
  let flags := (msg.messageFlags.map UInt32.toInt32).getD msgflagRead
  if hasAttaches then flags ||| msgflagHasattach else flags

def Payload.finish (p : Payload) (msg : WriteMessage) (hasAttaches : Bool) : LayoutM (Bytes × Nat × Nat) := do
  let p := p.pushProps [(pidTagHasAttachments, .bool hasAttaches),
    (pidTagMessageFlags, .i32 (msg.flags hasAttaches)), (pidTagMessageSize, .i32 0)]
  let (messageSize, p) ← Payload.probeMessageSize (p.props.length + 1) p
  let heapBytes ← LayoutM.ofResult (pcBytes (setMessageSize messageSize p.props))
  let subBid ← if p.subnodeEntries.isEmpty then pure 0
    else LayoutM.of (·.addSubnodeLeaf p.subnodeEntries)
  pure (heapBytes, subBid, messageSize)

def buildMessagePayloadWith (source : AttachStreamSource σ) (opts : MessageOpts)
    (embed : Option (WriteMessage → WriteM σ EmbeddedObject)) (msg : WriteMessage) :
    WriteM σ (Bytes × Nat × Nat) := do
  let p ← WriteM.onLayout (Payload.ofMessage msg opts.includeBccRecipients)
  let written ← writeAttachments source opts.namedPropPlan embed msg msg.attachments 0 0
  let p ← WriteM.onLayout (p.addAttachments written)
  let p ← WriteM.onLayout (p.addRecipients (includedRecipients msg opts.includeBccRecipients))
  WriteM.onLayout (p.finish msg !written.isEmpty)

def buildEmbeddedMessageObject (payload : WriteMessage → WriteM σ (Bytes × Nat × Nat))
    (msg : WriteMessage) : WriteM σ EmbeddedObject := do
  let nid ← WriteM.allocNid nidTypeNormalMessage
  let (heapBytes, subBid, sizeContrib) ← payload msg
  let bidData ← WriteM.onLayout (LayoutM.of (·.writeDataChain heapBytes))
  pure ⟨nid, bidData, subBid, sizeContrib⟩

/-- `build_message_payload`, with `max_depth - depth` levels remaining. -/
def buildMessagePayload (source : AttachStreamSource σ) (opts : MessageOpts) :
    Nat → WriteMessage → WriteM σ (Bytes × Nat × Nat)
  | 0 => buildMessagePayloadWith source opts none
  | remaining + 1 =>
    buildMessagePayloadWith source opts
      (some (buildEmbeddedMessageObject (buildMessagePayload source opts remaining)))

def syntheticAttachment (msg : WriteMessage) (filename : String) : WriteAttachment WriteMessage :=
  { filename, sourcePath := msg.sourcePath, parentNid := msg.sourceMsgNid }

def omitAttachments (msg : WriteMessage) : List (WriteAttachment WriteMessage) → Nat → WriteM σ Unit
  | [], _ => pure ()
  | attach :: rest, i => do
    WriteM.count fun c => { c with attachmentsOmittedByPolicy := satAdd c.attachmentsOmittedByPolicy 1 }
    WriteM.recordAttachEvent (makeAttachEvent msg attach i .omittedByPolicy .info)
    omitAttachments msg rest (i + 1)

def applyParentsOnly (opts : MessageOpts) (msg : WriteMessage) : WriteM σ WriteMessage :=
  if opts.parentsOnly ∧ msg.attachments ≠ [] then do
    omitAttachments msg msg.attachments 0
    pure { msg with attachments := [] }
  else pure msg

def buildMessageNode (source : AttachStreamSource σ) (opts : MessageOpts) (msg : WriteMessage)
    (parentNid : Nat) : WriteM σ Nat := do
  let msgNid ← WriteM.allocNid nidTypeNormalMessage
  if msg.attachListFailed then
    WriteM.recordAttachEvent (makeAttachEvent msg (syntheticAttachment msg "") 0 .metaFailed .fail)
  if msg.attachmentsIncomplete then
    WriteM.recordAttachEvent (makeAttachEvent msg
      (syntheticAttachment msg "(nested attach list incomplete)") 0 .metaFailed .fail)
  let written ← applyParentsOnly opts msg
  let (heapBytes, subBid, _) ← buildMessagePayload source opts opts.embeddedDepthLimit written
  let _ ← WriteM.onLayout (LayoutM.of (·.addNodeData msgNid heapBytes parentNid subBid))
  pure msgNid

end PstWriter
