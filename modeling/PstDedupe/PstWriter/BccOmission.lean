import PstDedupe.PstWriter.MessageNode

/-!
# Messages written without their BCC recipients

`stripBcc` takes the BCC recipients out of a message, at every depth. The attachment lemmas assume
it of the nested messages; the recursion over the levels discharges that.
-/

namespace PstWriter

open Rust Foundations List

theorem sizeOf_embedded_lt {msg m : WriteMessage} {a : WriteAttachment WriteMessage}
    (ha : a ∈ msg.attachments) (hm : a.embeddedMessage = some m) : sizeOf m < sizeOf msg := by
  have hin := sizeOf_lt_of_mem ha
  have hattach : sizeOf m < sizeOf a := by
    cases a
    simp only at hm
    subst hm
    simp only [WriteAttachment.mk.sizeOf_spec, Option.some.sizeOf_spec]
    omega
  have hlist : sizeOf msg.attachments < sizeOf msg := by
    cases msg
    simp only [WriteMessage.mk.sizeOf_spec]
    omega
  omega

def stripBcc (msg : WriteMessage) : WriteMessage :=
  { msg with
    displayBcc := none
    recipients := msg.recipients.filter fun r => !r.recipientType.isBcc
    attachments := msg.attachments.map fun a =>
      { a with embeddedMessage := match _h : a.embeddedMessage with
        | none => none
        | some m => some (stripBcc m) } }
  termination_by sizeOf msg
  decreasing_by exact sizeOf_embedded_lt ‹_› ‹_›

def stripAttachment (a : WriteAttachment WriteMessage) : WriteAttachment WriteMessage :=
  { a with embeddedMessage := a.embeddedMessage.map stripBcc }

theorem stripBcc_eq (msg : WriteMessage) : stripBcc msg = { msg with
      displayBcc := none
      recipients := msg.recipients.filter fun r => !r.recipientType.isBcc
      attachments := msg.attachments.map stripAttachment } := by
  rw [stripBcc]
  congr 1
  refine map_congr_left fun a _ => ?_
  unfold stripAttachment
  cases a with
  | mk => split <;> simp_all

/-- The messages differ in their BCC recipients only. -/
def SameButBcc (a b : WriteMessage) : Prop := stripBcc a = stripBcc b

variable {σ : Type} [Crc32fast] [Target]
variable {source : AttachStreamSource σ} {opts : MessageOpts}

omit [Crc32fast] [Target] in
theorem makeAttachEvent_strip (msg : WriteMessage) (a : WriteAttachment WriteMessage) (i : Nat)
    (kind : AttachmentFidelityKind) (severity : AttachEventSeverity) :
    makeAttachEvent (stripBcc msg) (stripAttachment a) i kind severity
      = makeAttachEvent msg a i kind severity := by
  rw [stripBcc_eq]
  rfl

omit [Crc32fast] [Target] in
theorem skipAttachment_strip (msg : WriteMessage) (a : WriteAttachment WriteMessage) (i : Nat)
    (kind : AttachmentFidelityKind) : (skipAttachment (stripBcc msg) (stripAttachment a) i kind : WriteM σ _)
      = skipAttachment msg a i kind := by
  unfold skipAttachment
  rw [makeAttachEvent_strip]

theorem writeCloudLink_strip (msg : WriteMessage) (a : WriteAttachment WriteMessage) (i nid : Nat)
    (plan : NamedPropWritePlan) :
    (writeCloudLinkPointerAttach plan (stripBcc msg) (stripAttachment a) i nid : WriteM σ _)
      = writeCloudLinkPointerAttach plan msg a i nid := by
  unfold writeCloudLinkPointerAttach
  rw [makeAttachEvent_strip]
  rfl

theorem writeByValue_strip (msg : WriteMessage) (a : WriteAttachment WriteMessage)
    (payload : ResolvedAttach) (i nid : Nat) :
    (writeByValue (stripBcc msg) (stripAttachment a) payload i nid : WriteM σ _)
      = writeByValue msg a payload i nid := by
  unfold writeByValue
  rw [makeAttachEvent_strip, skipAttachment_strip]
  rfl

def IgnoresBcc (embed : WriteMessage → WriteM σ EmbeddedObject) : Prop :=
  ∀ m, embed (stripBcc m) = embed m

theorem writeEmbedded_strip {embed : WriteMessage → WriteM σ EmbeddedObject}
    (hembed : IgnoresBcc embed) (m : WriteMessage) (a : WriteAttachment WriteMessage) (nid : Nat) :
    writeEmbedded embed (stripBcc m) (stripAttachment a) nid = writeEmbedded embed m a nid := by
  unfold writeEmbedded
  rw [hembed m]
  rfl

theorem writeOneAttachment_strip {embed : Option (WriteMessage → WriteM σ EmbeddedObject)}
    (hembed : ∀ e ∈ embed, IgnoresBcc e) (plan : NamedPropWritePlan) (msg : WriteMessage)
    (a : WriteAttachment WriteMessage) (i counter : Nat) :
    writeOneAttachment source plan embed (stripBcc msg) (stripAttachment a) i counter
      = writeOneAttachment source plan embed msg a i counter := by
  unfold writeOneAttachment
  simp only [skipAttachment_strip, writeCloudLink_strip, writeByValue_strip]
  cases embed with
  | none => rfl
  | some e =>
    -- only the nested message itself tells the two attachments apart
    have hmap : (stripAttachment a).embeddedMessage = a.embeddedMessage.map stripBcc := rfl
    rw [hmap]
    cases hm : a.embeddedMessage with
    | none => rfl
    | some m =>
      simp only [Option.map_some, writeEmbedded_strip (hembed e rfl)]
      rfl

theorem writeAttachments_strip {embed : Option (WriteMessage → WriteM σ EmbeddedObject)}
    (hembed : ∀ e ∈ embed, IgnoresBcc e) (plan : NamedPropWritePlan) (msg : WriteMessage)
    (list : List (WriteAttachment WriteMessage)) (i counter : Nat) :
    writeAttachments source plan embed (stripBcc msg) (list.map stripAttachment) i counter
      = writeAttachments source plan embed msg list i counter := by
  induction list generalizing i counter with
  | nil => rfl
  | cons a rest ih =>
    rw [map_cons]
    unfold writeAttachments
    rw [writeOneAttachment_strip hembed]
    simp only [ih]

omit [Crc32fast] [Target] in
theorem includedRecipients_strip (msg : WriteMessage) :
    includedRecipients (stripBcc msg) false = includedRecipients msg false := by
  rw [stripBcc_eq]
  unfold includedRecipients
  rw [List.filter_filter]
  simp

omit [Target] in
theorem ofMessage_strip (msg : WriteMessage) :
    Payload.ofMessage (stripBcc msg) false = Payload.ofMessage msg false := by
  rw [stripBcc_eq]
  rfl

omit [Target] in
theorem finish_strip (p : Payload) (msg : WriteMessage) (hasAttaches : Bool) :
    p.finish (stripBcc msg) hasAttaches = p.finish msg hasAttaches := by
  rw [stripBcc_eq]
  rfl

theorem buildMessagePayloadWith_strip {embed : Option (WriteMessage → WriteM σ EmbeddedObject)}
    (hembed : ∀ e ∈ embed, IgnoresBcc e) (hopts : opts.includeBccRecipients = false)
    (msg : WriteMessage) : buildMessagePayloadWith source opts embed (stripBcc msg)
      = buildMessagePayloadWith source opts embed msg := by
  have hattachments : (stripBcc msg).attachments = msg.attachments.map stripAttachment := by
    rw [stripBcc_eq]
  unfold buildMessagePayloadWith
  rw [hopts, ofMessage_strip, hattachments, writeAttachments_strip hembed, includedRecipients_strip]
  simp only [finish_strip]

theorem buildMessagePayload_strip (hopts : opts.includeBccRecipients = false) (remaining : Nat)
    (msg : WriteMessage) : buildMessagePayload source opts remaining (stripBcc msg)
      = buildMessagePayload source opts remaining msg := by
  induction remaining generalizing msg with
  | zero => exact buildMessagePayloadWith_strip (fun _ h => by cases h) hopts msg
  | succ remaining ih =>
    refine buildMessagePayloadWith_strip (fun e he m => ?_) hopts msg
    obtain rfl := Option.mem_some_iff.mp he
    unfold buildEmbeddedMessageObject
    rw [ih m]

omit [Crc32fast] [Target] in
theorem omitAttachments_strip (msg : WriteMessage) (list : List (WriteAttachment WriteMessage))
    (i : Nat) : (omitAttachments (stripBcc msg) (list.map stripAttachment) i : WriteM σ Unit)
      = omitAttachments msg list i := by
  induction list generalizing i with
  | nil => rfl
  | cons a rest ih =>
    rw [map_cons]
    unfold omitAttachments
    rw [makeAttachEvent_strip, ih]

omit [Crc32fast] [Target] in
theorem syntheticEvent_strip (msg : WriteMessage) (filename : String) :
    makeAttachEvent (stripBcc msg) (syntheticAttachment (stripBcc msg) filename) 0 .metaFailed .fail
      = makeAttachEvent msg (syntheticAttachment msg filename) 0 .metaFailed .fail := by
  rw [stripBcc_eq]
  rfl

omit [Crc32fast] [Target] in
theorem applyParentsOnly_strip (msg : WriteMessage) :
    (applyParentsOnly opts (stripBcc msg) : WriteM σ WriteMessage)
      = stripBcc <$> applyParentsOnly opts msg := by
  have hattachments : (stripBcc msg).attachments = msg.attachments.map stripAttachment := by
    rw [stripBcc_eq]
  unfold applyParentsOnly
  rw [hattachments, omitAttachments_strip]
  simp only [ne_eq, map_eq_nil_iff]
  split
  · rw [map_bind]
    simp only [map_pure]
    rw [stripBcc_eq { msg with attachments := [] }, stripBcc_eq msg]
    rfl
  · rw [map_pure]

theorem buildMessageNode_stripBcc (hopts : opts.includeBccRecipients = false) (msg : WriteMessage)
    (parentNid : Nat) : buildMessageNode source opts (stripBcc msg) parentNid
      = buildMessageNode source opts msg parentNid := by
  have hflags : (stripBcc msg).attachListFailed = msg.attachListFailed ∧
      (stripBcc msg).attachmentsIncomplete = msg.attachmentsIncomplete := by
    rw [stripBcc_eq]
    exact ⟨rfl, rfl⟩
  unfold buildMessageNode
  rw [hflags.1, hflags.2, syntheticEvent_strip, syntheticEvent_strip, applyParentsOnly_strip]
  simp only [bind_map_left, buildMessagePayload_strip hopts]

/-- **BCC recipients leave no trace.** Two messages that differ in their BCC recipients at most, at
whatever depth, are written to the same nodes, blocks and counters, with the same events. -/
theorem buildMessageNode_of_sameButBcc (source : AttachStreamSource σ) (opts : MessageOpts)
    (hopts : opts.includeBccRecipients = false) (a b : WriteMessage) (hab : SameButBcc a b)
    (parentNid : Nat) :
    buildMessageNode source opts a parentNid = buildMessageNode source opts b parentNid := by
  unfold SameButBcc at hab
  rw [← buildMessageNode_stripBcc hopts a, ← buildMessageNode_stripBcc hopts b, hab]

def forwarding (inner : WriteMessage) : WriteMessage :=
  { subject := "Fwd", attachments := [
    { filename := "inner.msg", attachMethod := some attachEmbeddedMsg, embeddedMessage := some inner }] }

omit [Crc32fast] [Target] in
theorem buildMessageNode_of_nested_bcc :
    let _ := Crc32fast.ieee
    let _ : Target := .unix
    let source : AttachStreamSource Unit := ⟨fun s _ _ _ _ => (none, s)⟩
    let opts : MessageOpts := { includeBccRecipients := false, namedPropPlan := ⟨[]⟩ }
    let counsel : WriteRecipient := ⟨.bcc, some "Counsel", none, some "counsel@example.com", none⟩
    let a := forwarding { subject := "Memo", displayBcc := some "Counsel", recipients := [counsel] }
    let b := forwarding { subject := "Memo" }
    SameButBcc a b ∧ buildMessageNode source opts a 0x122 = buildMessageNode source opts b 0x122 := by
  intro _ _ source opts counsel a b
  have hab : SameButBcc a b := by
    show stripBcc a = stripBcc b
    rw [stripBcc_eq, stripBcc_eq]
    have hinner : stripBcc { subject := "Memo", displayBcc := some "Counsel", recipients := [counsel] }
        = stripBcc { subject := "Memo" } := by
      rw [stripBcc_eq, stripBcc_eq]
      rfl
    show ({ a with attachments := [stripAttachment _] } : WriteMessage)
      = { b with attachments := [stripAttachment _] }
    simp only [stripAttachment, Option.map_some, hinner]
    rfl
  exact ⟨hab, buildMessageNode_of_sameButBcc source opts rfl a b hab 0x122⟩

end PstWriter
