import PstDedupe.DedupEngine.EmlRecovery
import PstDedupe.DedupEngine.EmlStreamed

/-!
# The lines of a written EML

A text is put together from lines and contents, each with its line break; its lines are those of the
structure that is meant (`writesAs_writeCanonicalEmlTo`, by the levels of messages inside).
-/

namespace DedupEngine.EmlPack

open Rust Foundations List

variable {boundary : String}

/-! ## Lines of pieces -/

theorem textLines_crlf (rest : Bytes) : textLines (crlf ++ rest) = [] :: textLines rest := rfl

theorem textLines_content (content rest : Bytes) :
    textLines (content ++ (crlf ++ rest)) = textLines content ++ textLines rest :=
  textLines_append content rest

theorem textLines_writeCrlfLine {s : String} (h : 13 ∉ bytes s) (rest : Bytes) :
    textLines (writeCrlfLine s ++ rest) = bytes s :: textLines rest := by
  unfold writeCrlfLine
  rw [append_assoc, textLines_content, textLines_of_notMem h]
  rfl

theorem textLines_writeLines {lines : List String} (h : ∀ l ∈ lines, 13 ∉ bytes l) (rest : Bytes) :
    textLines (writeLines lines ++ rest) = lines.map bytes ++ textLines rest := by
  induction lines with
  | nil => rfl
  | cons l lines ih =>
    unfold writeLines at ih ⊢
    rw [flatMap_cons, append_assoc, textLines_writeCrlfLine (h l mem_cons_self),
      ih fun m hm => h m (mem_cons_of_mem l hm)]
    rfl

section Pieces

variable {header : List String} (h : ∀ l ∈ header, 13 ∉ bytes l)
include h

theorem textLines_leaf (content data : Bytes) :
    textLines (writeLines header ++ (crlf ++ content))
      = (Entity.leaf (header.map bytes) content data).lines := by
  rw [textLines_writeLines h, textLines_crlf, Entity.lines]

theorem textLines_leafPart (content data rest : Bytes) :
    textLines (writeLines header ++ (crlf ++ (content ++ (crlf ++ rest))))
      = (Entity.leaf (header.map bytes) content data).lines ++ textLines rest := by
  rw [textLines_writeLines h, textLines_crlf, textLines_content, Entity.lines, append_assoc]
  rfl

theorem textLines_messagePart {text : Bytes} {inner : Entity} (htext : textLines text = inner.lines)
    (rest : Bytes) : textLines (writeLines header ++ (crlf ++ (text ++ (crlf ++ rest))))
      = (Entity.message (header.map bytes) inner).lines ++ textLines rest := by
  rw [textLines_writeLines h, textLines_crlf, textLines_content, htext, Entity.lines, append_assoc]
  rfl

end Pieces

/-! ## No line break in a header -/

theorem cr_notMem_fixedLines : ∀ l ∈ fixedLines, 13 ∉ bytes l := fun l hl => (bytes_fixedLines l hl).2.2.2

theorem cr_notMem_plainHeader : ∀ l ∈ plainHeader, 13 ∉ bytes l :=
  fun l hl => cr_notMem_fixedLines l (by simp [fixedLines, hl])

theorem cr_notMem_htmlHeader : ∀ l ∈ htmlHeader, 13 ∉ bytes l :=
  fun l hl => cr_notMem_fixedLines l (by simp [fixedLines, hl])

theorem cr_notMem_mimeVersion : 13 ∉ bytes "MIME-Version: 1.0" := cr_notMem_fixedLines _ (by simp [fixedLines])

theorem cr_notMem_delimiter (h : NoControl boundary) : 13 ∉ bytes ("--" ++ boundary) :=
  NoControl.cr_notMem (.append (by decide) h)

theorem cr_notMem_closeDelimiter (h : NoControl boundary) :
    13 ∉ bytes ("--" ++ boundary ++ "--") :=
  NoControl.cr_notMem (.append (.append (by decide) h) (by decide))

theorem cr_notMem_multipartHeader {subtype boundary : String} (hsubtype : NoControl subtype)
    (h : NoControl boundary) : 13 ∉ bytes (multipartHeader subtype boundary) := by
  unfold multipartHeader
  exact NoControl.cr_notMem
    ((((NoControl.append (by decide) hsubtype).append (by decide)).append h).append (by decide))

theorem cr_notMem_partHeader (part : PreparedPart) : ∀ l ∈ partHeader part, 13 ∉ bytes l := by
  have hdisposition : NoControl
      ("Content-Disposition: attachment; filename=\"" ++ encodeHeaderValue part.filename ++ "\"") :=
    (NoControl.append (by decide) (.encodeHeaderValue _)).append (by decide)
  intro l hl
  unfold partHeader at hl
  dsimp only at hl
  split at hl
  · simp only [mem_cons, not_mem_nil, or_false] at hl
    rcases hl with rfl | rfl | rfl
    · exact cr_notMem_fixedLines _ (by simp [fixedLines])
    · exact hdisposition.cr_notMem
    · exact cr_notMem_fixedLines _ (by simp [fixedLines, plainHeader])
  · simp only [mem_cons, not_mem_nil, or_false] at hl
    rcases hl with rfl | rfl | rfl
    · exact NoControl.cr_notMem (.append (by decide) (.sanitizeHeaderValue _))
    · exact hdisposition.cr_notMem
    · exact bytes_boundaryTexts.2.2.2.2.1.2.2.1

theorem cr_notMem_headerLines [Chrono] (msg : CanonicalMessage) (nested : Bool) :
    ∀ l ∈ headerLines msg nested, 13 ∉ bytes l :=
  fun l hl => (headerField_of_headerLines msg nested l hl).cr_notMem

theorem textLines_writeAlternativeParts (msg : CanonicalMessage) (h : NoControl boundary)
    (rest : Bytes) : textLines (writeAlternativeParts msg boundary ++ rest)
      = Entity.partLines (bytes boundary) [plainEntity plainHeader msg, htmlEntity htmlHeader msg]
        ++ textLines rest := by
  have hcr := cr_notMem_delimiter h
  unfold writeAlternativeParts
  simp only [append_assoc]
  rw [textLines_writeCrlfLine hcr, textLines_leafPart cr_notMem_plainHeader _ (plainContent msg),
    textLines_writeCrlfLine hcr, textLines_leafPart cr_notMem_htmlHeader _ (htmlContent msg), delimiter_bytes]
  simp only [Entity.partLines, plainEntity, htmlEntity, append_assoc, cons_append, nil_append]

theorem textLines_alternative {header : List String} (hheader : ∀ l ∈ header, 13 ∉ bytes l)
    (msg : CanonicalMessage) (h : NoControl boundary) {rest : Bytes} {epilogue : List Bytes}
    {more : List Bytes} (hrest : textLines rest = epilogue ++ more) :
    textLines (writeLines header ++ (crlf ++ (writeAlternativeParts msg boundary
        ++ (writeCrlfLine ("--" ++ boundary ++ "--") ++ rest))))
      = (alternativeEntity header boundary msg epilogue).lines ++ more := by
  rw [textLines_writeLines hheader, textLines_crlf, textLines_writeAlternativeParts msg h,
    textLines_writeCrlfLine (cr_notMem_closeDelimiter h), hrest, closeDelimiter_bytes, alternativeEntity,
    Entity.lines]
  simp only [append_assoc, cons_append]

theorem textLines_writeBodyOnlyStructure {header : List String} (h : ∀ l ∈ header, 13 ∉ bytes l)
    (msg : CanonicalMessage) (depth : Nat) : textLines (writeLines header ++
      writeBodyOnlyStructure msg depth) = (bodyOnlyEntity header msg depth).lines := by
  have happend : ∀ more : List String, (∀ l ∈ more, 13 ∉ bytes l) → ∀ l ∈ header ++ more, 13 ∉ bytes l := by
    intro more hmore l hl
    rcases List.mem_append.mp hl with hl | hl
    · exact h l hl
    · exact hmore l hl
  have hlines : ∀ (more : List String) (rest : Bytes),
      writeLines header ++ (writeLines more ++ rest) = writeLines (header ++ more) ++ rest := by
    intro more rest
    unfold writeLines
    rw [flatMap_append, append_assoc]
  unfold writeBodyOnlyStructure bodyOnlyEntity
  split
  · have hboundary : NoControl (makeBoundary "alt" msg.locus.nid depth) := .makeBoundary (by decide) _ _
    have hmore : ∀ l ∈ ["MIME-Version: 1.0",
        multipartHeader "alternative" (makeBoundary "alt" msg.locus.nid depth)], 13 ∉ bytes l :=
      List.forall_mem_cons.mpr ⟨cr_notMem_mimeVersion,
        List.forall_mem_singleton.mpr (cr_notMem_multipartHeader (by decide) hboundary)⟩
    have hend : textLines [] = [[]] ++ ([] : List Bytes) := rfl
    have halternative := textLines_alternative (happend _ hmore) msg hboundary hend
    rw [append_nil, append_nil] at halternative
    dsimp only
    rw [append_assoc, append_assoc, hlines]
    exact halternative
  split
  · have hmore : ∀ l ∈ "MIME-Version: 1.0" :: htmlHeader, 13 ∉ bytes l :=
      List.forall_mem_cons.mpr ⟨cr_notMem_mimeVersion, cr_notMem_htmlHeader⟩
    rw [append_assoc, hlines]
    exact textLines_leaf (happend _ hmore) _ _
  · have hmore : ∀ l ∈ "MIME-Version: 1.0" :: plainHeader, 13 ∉ bytes l :=
      List.forall_mem_cons.mpr ⟨cr_notMem_mimeVersion, cr_notMem_plainHeader⟩
    rw [append_assoc, hlines]
    exact textLines_leaf (happend _ hmore) _ _

theorem textLines_writeBodyPart (msg : CanonicalMessage) (depth : Nat) (rest : Bytes) :
    textLines (writeBodyPart msg depth ++ rest) = (bodyPartEntity msg depth).lines ++ textLines rest := by
  unfold writeBodyPart bodyPartEntity
  split
  · have hboundary : NoControl (makeBoundary "alt" ((msg.locus.nid + 1) % 2 ^ 64) depth) :=
      .makeBoundary (by decide) _ _
    dsimp only
    simp only [append_assoc]
    exact textLines_alternative
      (List.forall_mem_singleton.mpr (cr_notMem_multipartHeader (by decide) hboundary)) msg hboundary rfl
  split
  · simp only [append_assoc]
    exact textLines_leafPart cr_notMem_htmlHeader _ _ _
  · simp only [append_assoc]
    exact textLines_leafPart cr_notMem_plainHeader _ _ _

/-! ## Attachments -/

section Attachments

variable {body : AttachBody} {parent : CanonicalMessage}

theorem dash_notMem_of_unbroken {text data : Bytes} (h : unbroken text = Base64.encode data) : 45 ∉ text := by
  intro hmem
  have hdash : (45 : UInt8) ∈ unbroken text := List.mem_filter.mpr ⟨hmem, by decide⟩
  rw [h] at hdash
  exact (Base64.mem_encode hdash).1 rfl

theorem streamAttachRaw_ok {text : Bytes} (h : streamAttachRaw body = .ok text) :
    attachBytes body = .ok text := by
  cases body with
  | memory data => exact h
  | stream stream => exact h
  | nested msg writeDepth incomplete fails => cases h

theorem streamAttachBase64Body_ok {text : Bytes} (h : streamAttachBase64Body body = .ok text) :
    fileText body = text ∧ ∃ data, attachBytes body = .ok data ∧ unbroken text = Base64.encode data := by
  refine ⟨by rw [fileText, h], ?_⟩
  cases body with
  | memory data =>
    cases h
    exact ⟨data, rfl, unbroken_base64EncodeChunked data⟩
  | stream stream =>
    have hread : stream.readAll.map streamBase64FromReader = .ok text := h
    cases hreads : stream.readAll with
    | error e =>
      rw [hreads] at hread
      cases hread
    | ok reads =>
      rw [hreads] at hread
      cases hread
      exact ⟨reads.flatten, by rw [attachBytes, hreads]; rfl, unbroken_streamBase64FromReader reads⟩
  | nested msg writeDepth incomplete fails => cases h

def PreparedPart.AtDepth (depth : Nat) (part : PreparedPart) : Prop :=
  ∀ msg writeDepth incomplete fails, part.body = .nested msg writeDepth incomplete fails →
    writeDepth = depth + 1

variable {σ : Type} {source : AttachStreamSource σ} {opts : EmlWriteOpts} {depth : Nat}

theorem openAttachBody_not_nested {att : Attachment} {s t : σ}
    (h : openAttachBody source parent att s = (.ok body, t)) :
    ∀ msg writeDepth incomplete fails, body ≠ .nested msg writeDepth incomplete fails := by
  rintro msg writeDepth incomplete fails rfl
  unfold openAttachBody at h
  split at h
  · cases h
  split at h
  · cases h
  split at h
  · cases h
  split at h
  · cases h
  · rename_i nid _
    dsimp only at h
    cases hopened : (source.openAttach s parent.locus nid).1 with
    | error e =>
      rw [hopened] at h
      cases h
    | ok stream =>
      rw [hopened] at h
      cases h

theorem prepareOneAttach_atDepth {att : Attachment} {s t : σ} {part : PreparedPart}
    (h : prepareOneAttach source opts depth parent att s = (.ok part, t)) : part.AtDepth depth := by
  intro msg writeDepth incomplete fails hbody
  unfold prepareOneAttach at h
  dsimp only at h
  split at h
  · split at h
    · cases h
    split at h
    · cases h
      unfold prepareNested at hbody
      dsimp only at hbody
      injection hbody with _ hdepth
      exact hdepth.symm
    · cases h
  · split at h
    · cases h
    · rename_i body _ hopen
      cases h
      exact absurd hbody (openAttachBody_not_nested hopen msg writeDepth incomplete fails)

theorem prepareAttachments_atDepth (attachments : List Attachment) (result : EmlWriteResult)
    (idx : Nat) (s : σ) :
    ∀ part ∈ (prepareAttachments source opts depth parent result idx attachments s).1.1,
      part.AtDepth depth := by
  induction attachments generalizing result idx s with
  | nil =>
    intro part hpart
    cases hpart
  | cons att rest ih =>
    intro part hpart
    rw [prepareAttachments] at hpart
    split at hpart
    · rename_i first u hfirst
      rcases List.mem_cons.mp hpart with rfl | hpart
      · exact prepareOneAttach_atDepth hfirst
      · exact ih result (idx + 1) u part hpart
    · exact ih _ _ _ part hpart

end Attachments

/-! ## What is written settles -/

section Writes

variable {σ : Type}

theorem ofExcept_eq_ok {α : Type} {r : Except EmlWriteError α} {a : α} {s t : σ} :
    EmlM.ofExcept r s = (.ok a, t) ↔ r = .ok a ∧ s = t :=
  ⟨fun h => ⟨(Prod.mk.inj h).1, (Prod.mk.inj h).2⟩, fun h => by rw [EmlM.ofExcept, h.1, h.2]⟩

variable [Chrono]

def WritesAs (write : Nat → CanonicalMessage → EmlM σ (Bytes × EmlWriteResult))
    (settle : Nat → CanonicalMessage → EmlM σ WrittenMessage) : Prop :=
  ∀ depth msg s text result t, write depth msg s = (.ok (text, result), t) →
    ∃ w, settle depth msg s = (.ok w, t) ∧ textLines text = w.entity.lines ∧ w.Sound ∧ w.depth = depth

theorem writesAs_throw {e : EmlWriteError} : WritesAs (fun _ _ => (throw e : EmlM σ (Bytes × EmlWriteResult)))
      (fun _ _ => (throw e : EmlM σ WrittenMessage)) := by
  intro depth msg s text result t h
  cases h

def PartsText (boundary : String) (depth : Nat) (text : Bytes) (parts : WrittenParts) : Prop :=
  parts.Sound depth ∧ ∀ rest, textLines (text ++ rest)
    = Entity.partLines (bytes boundary) parts.entities ++ textLines rest

section Parts

variable {boundary : String} (hboundary : NoControl boundary) {depth : Nat} {text more : Bytes}
  {part : PreparedPart} {rest : WrittenParts} (hrest : PartsText boundary depth more rest)
include hboundary hrest

theorem PartsText.file (hembedded : part.embedded = false) {data : Bytes}
    (hfile : fileText part.body = text) (htext : unbroken text = Base64.encode data) :
    PartsText boundary depth (writeCrlfLine ("--" ++ boundary)
      ++ (writeLines (partHeader part) ++ crlf ++ text ++ crlf) ++ more) (.file part data rest) := by
  refine ⟨?_, fun after => ?_⟩
  · rw [WrittenParts.Sound, hfile]
    exact ⟨⟨hembedded, htext, dash_notMem_of_unbroken htext⟩, hrest.1⟩
  · simp only [append_assoc]
    rw [textLines_writeCrlfLine (cr_notMem_delimiter hboundary),
      textLines_leafPart (cr_notMem_partHeader part) text data, hrest.2, WrittenParts.entities, hfile,
      Entity.partLines, delimiter_bytes]
    simp only [append_assoc, cons_append]

theorem PartsText.raw (hembedded : part.embedded = true) :
    PartsText boundary depth (writeCrlfLine ("--" ++ boundary)
      ++ (writeLines (partHeader part) ++ crlf ++ text ++ crlf) ++ more) (.raw part text rest) := by
  refine ⟨?_, fun after => ?_⟩
  · rw [WrittenParts.Sound]
    exact ⟨hembedded, hrest.1⟩
  · simp only [append_assoc]
    rw [textLines_writeCrlfLine (cr_notMem_delimiter hboundary),
      textLines_leafPart (cr_notMem_partHeader part) text text, hrest.2, WrittenParts.entities,
      Entity.partLines, delimiter_bytes]
    simp only [append_assoc, cons_append]

theorem PartsText.nested (hembedded : part.embedded = true) {inner : WrittenMessage}
    (hinner : textLines text = inner.entity.lines) (hsound : inner.Sound) (hdepth : inner.depth = depth + 1) :
    PartsText boundary depth (writeCrlfLine ("--" ++ boundary)
      ++ (writeLines (partHeader part) ++ crlf ++ text ++ crlf) ++ more) (.nested part inner rest) := by
  refine ⟨?_, fun after => ?_⟩
  · rw [WrittenParts.Sound]
    exact ⟨⟨hembedded, hdepth, hsound⟩, hrest.1⟩
  · simp only [append_assoc]
    rw [textLines_writeCrlfLine (cr_notMem_delimiter hboundary),
      textLines_messagePart (cr_notMem_partHeader part) hinner, hrest.2, WrittenParts.entities,
      Entity.partLines, delimiter_bytes]
    simp only [append_assoc, cons_append]

end Parts

variable {write : Nat → CanonicalMessage → EmlM σ (Bytes × EmlWriteResult)}
  {settleNested : Nat → CanonicalMessage → EmlM σ WrittenMessage}

theorem writePreparedParts_partsText (hwrite : WritesAs write settleNested) {boundary : String}
    (hboundary : NoControl boundary) {depth : Nat} (parts : List PreparedPart)
    (hparts : ∀ part ∈ parts, part.AtDepth depth) (result : EmlWriteResult) {s t : σ} {text : Bytes}
    {result' : EmlWriteResult}
    (h : writePreparedParts write boundary parts result s = (.ok (text, result'), t)) :
    ∃ ps, settlePartsWith settleNested parts s = (.ok ps, t) ∧ ps.isNil = parts.isEmpty ∧
      PartsText boundary depth text ps := by
  induction parts generalizing result s text with
  | nil =>
    cases h
    refine ⟨.nil, rfl, rfl, by rw [WrittenParts.Sound]; trivial, fun rest => ?_⟩
    rw [WrittenParts.entities, Entity.partLines]
    rfl
  | cons part parts ih =>
    rw [writePreparedParts] at h
    obtain ⟨⟨first, result₁⟩, u, hfirst, h⟩ := run_bind_eq_ok.mp h
    obtain ⟨⟨more, result₂⟩, v, hmore, h⟩ := run_bind_eq_ok.mp h
    obtain ⟨heq, rfl⟩ := run_pure_eq_ok.mp h
    obtain ⟨rfl, rfl⟩ := Prod.mk.inj heq
    obtain ⟨ps, hsettle, _, hps⟩ := ih (fun p hp => hparts p (mem_cons_of_mem part hp)) result₁ hmore
    unfold writePreparedPart at hfirst
    rw [settlePartsWith]
    cases hembedded : part.embedded with
    | false =>
      rw [hembedded, if_neg Bool.false_ne_true] at hfirst
      obtain ⟨body, u', hrun, hfirst⟩ := run_bind_eq_ok.mp hfirst
      obtain ⟨hbody, rfl⟩ := ofExcept_eq_ok.mp hrun
      obtain ⟨heq, rfl⟩ := run_pure_eq_ok.mp hfirst
      obtain ⟨rfl, rfl⟩ := Prod.mk.inj heq
      obtain ⟨hfile, data, hdata, htext⟩ := streamAttachBase64Body_ok hbody
      refine ⟨.file part data ps, ?_, rfl, hps.file hboundary hembedded hfile htext⟩
      rw [if_neg Bool.false_ne_true, hdata]
      exact run_bind_eq_ok.mpr ⟨data, _, rfl, run_bind_eq_ok.mpr ⟨ps, _, hsettle, rfl⟩⟩
    | true =>
      rw [hembedded, if_pos rfl] at hfirst
      rw [if_pos rfl]
      cases hkind : part.body with
      | nested msg writeDepth incomplete fails =>
        rw [hkind] at hfirst
        obtain ⟨⟨inner, nested⟩, u', hinner, hfirst⟩ := run_bind_eq_ok.mp hfirst
        obtain ⟨heq, rfl⟩ := run_pure_eq_ok.mp hfirst
        obtain ⟨rfl, rfl⟩ := Prod.mk.inj heq
        obtain ⟨w, hw, hlines, hsound, hdepth⟩ := hwrite _ _ _ _ _ _ hinner
        rw [hparts part mem_cons_self _ _ _ _ hkind] at hdepth
        exact ⟨.nested part w ps, run_bind_eq_ok.mpr ⟨w, _, hw, run_bind_eq_ok.mpr ⟨ps, _, hsettle,
          rfl⟩⟩, rfl, hps.nested hboundary hembedded hlines hsound hdepth⟩
      | memory _ | stream _ =>
        rw [hkind] at hfirst
        obtain ⟨body, u', hrun, hfirst⟩ := run_bind_eq_ok.mp hfirst
        obtain ⟨hbody, rfl⟩ := ofExcept_eq_ok.mp hrun
        obtain ⟨heq, rfl⟩ := run_pure_eq_ok.mp hfirst
        obtain ⟨rfl, rfl⟩ := Prod.mk.inj heq
        have hdata := streamAttachRaw_ok hbody
        refine ⟨.raw part body ps, ?_, rfl, hps.raw hboundary hembedded⟩
        exact run_bind_eq_ok.mpr ⟨body, _, ofExcept_eq_ok.mpr ⟨hdata, rfl⟩,
          run_bind_eq_ok.mpr ⟨ps, _, hsettle, rfl⟩⟩

theorem writesAs_writeCanonicalEmlWith (source : AttachStreamSource σ) (opts : EmlWriteOpts)
    (hwrite : WritesAs write settleNested) :
    WritesAs (writeCanonicalEmlWith source opts write) (settleWith source opts settleNested) := by
  intro depth msg s text result t h
  have hheader := cr_notMem_headerLines msg (decide (0 < depth))
  -- a message without written attachments is its text
  have halone : textLines (writeHeadersMode msg (decide (0 < depth)) ++ writeBodyOnlyStructure msg depth)
      = (WrittenMessage.mk msg depth .nil).entity.lines ∧ (WrittenMessage.mk msg depth .nil).Sound := by
    rw [entity_of_isNil rfl, WrittenMessage.Sound, WrittenParts.Sound]
    exact ⟨textLines_writeBodyOnlyStructure hheader msg depth, trivial⟩
  unfold writeCanonicalEmlWith at h
  unfold settleWith
  dsimp only at h
  split at h
  · rename_i hattach
    rw [if_pos hattach]
    obtain ⟨⟨prepared, result₁⟩, u, hprepare, h⟩ := run_bind_eq_ok.mp h
    obtain ⟨heq, hu⟩ := Prod.mk.inj hprepare
    have hdepth : ∀ part ∈ prepared, part.AtDepth depth := by
      have hall : ∀ part ∈ (prepareAttachments source opts depth msg {} 0 msg.attachments s).1.1,
          part.AtDepth depth := prepareAttachments_atDepth msg.attachments {} 0 s
      rw [Except.ok.inj heq] at hall
      exact hall
    split at h
    · rename_i hempty
      obtain ⟨heq', rfl⟩ := run_pure_eq_ok.mp h
      obtain ⟨rfl, rfl⟩ := Prod.mk.inj heq'
      obtain rfl : prepared = [] := List.isEmpty_iff.mp hempty
      exact ⟨.mk msg depth .nil, run_bind_eq_ok.mpr ⟨_, _, hprepare, rfl⟩, halone.1, halone.2, rfl⟩
    · rename_i hempty
      obtain ⟨⟨parts, result₂⟩, v, hparts, h⟩ := run_bind_eq_ok.mp h
      obtain ⟨heq', rfl⟩ := run_pure_eq_ok.mp h
      obtain ⟨rfl, rfl⟩ := Prod.mk.inj heq'
      have hboundary : NoControl (makeBoundary "mixed" msg.locus.nid depth) := .makeBoundary (by decide) _ _
      obtain ⟨ps, hsettle, hnil, hps⟩ := writePreparedParts_partsText hwrite hboundary prepared hdepth _ hparts
      have hnil' : ps.isNil = false := hnil.trans (Bool.eq_false_iff.mpr hempty)
      refine ⟨.mk msg depth ps, run_bind_eq_ok.mpr ⟨_, _, hprepare, run_bind_eq_ok.mpr ⟨ps, _,
        hsettle, rfl⟩⟩, ?_, by rw [WrittenMessage.Sound]; exact hps.1, rfl⟩
      have hmore : ∀ l ∈ ["MIME-Version: 1.0",
          multipartHeader "mixed" (makeBoundary "mixed" msg.locus.nid depth)], 13 ∉ bytes l :=
        List.forall_mem_cons.mpr ⟨cr_notMem_mimeVersion,
          List.forall_mem_singleton.mpr (cr_notMem_multipartHeader (by decide) hboundary)⟩
      have hclose := textLines_writeCrlfLine (cr_notMem_closeDelimiter hboundary) []
      rw [append_nil] at hclose
      rw [entity_of_not_isNil hnil', Entity.lines, Entity.partLines]
      unfold writeHeadersMode
      simp only [append_assoc]
      rw [textLines_writeLines hheader, textLines_writeLines hmore, textLines_crlf,
        textLines_writeCrlfLine (cr_notMem_delimiter hboundary), textLines_writeBodyPart, hps.2, hclose,
        delimiter_bytes, closeDelimiter_bytes, map_append]
      simp only [append_assoc, cons_append]
      rfl
  · rename_i hattach
    rw [if_neg hattach]
    obtain ⟨heq, rfl⟩ := run_pure_eq_ok.mp h
    obtain ⟨rfl, rfl⟩ := Prod.mk.inj heq
    exact ⟨.mk msg depth .nil, rfl, halone.1, halone.2, rfl⟩

theorem writesAs_writeCanonicalEmlTo (source : AttachStreamSource σ) (opts : EmlWriteOpts) (levels : Nat) :
    WritesAs (writeCanonicalEmlTo source opts levels) (settle source opts levels) := by
  induction levels with
  | zero => exact writesAs_writeCanonicalEmlWith source opts writesAs_throw
  | succ levels ih => exact writesAs_writeCanonicalEmlWith source opts ih

/-- The lines of the text are those of the structure, and reading them follows it. -/
def TextRecovered (text : Bytes) (w : WrittenMessage) : Prop :=
  textLines text = w.entity.lines ∧ Entity.Recovered mimeReader w.entity

/-- **A written EML is read back**, every part in its place and every file with its bytes, exactly
when no line of a text body or of a copied message begins with a delimiter of a multipart around it
and no file has a multipart type. -/
theorem textRecovered_iff {source : AttachStreamSource σ} {opts : EmlWriteOpts}
    {msg : CanonicalMessage} {s t : σ} {text : Bytes} {result : EmlWriteResult}
    (h : writeCanonicalEml source opts msg s = (.ok (text, result), t)) :
    ∃ w, settle source opts opts.maxDepth 0 msg s = (.ok w, t) ∧ (TextRecovered text w ↔ w.Clear []) := by
  obtain ⟨w, hsettle, hlines, hsound, _⟩ := writesAs_writeCanonicalEmlTo source opts _ _ _ _ _ _ _ h
  refine ⟨w, hsettle, ?_⟩
  rw [← recovered_iff_clear hsound]
  exact and_iff_right hlines

omit [Chrono] in
theorem textRecovered_iff_of_file :
    ∃ (_ : Chrono) (source : AttachStreamSource Unit) (msg : CanonicalMessage) (text : Bytes)
      (result : EmlWriteResult) (part : PreparedPart),
      writeCanonicalEml source {} msg () = (.ok (text, result), ()) ∧
        TextRecovered text (.mk msg 0 (.file part [1, 2] .nil)) := by
  let _ : Chrono := ⟨fun _ => none, fun h => by cases h⟩
  let source : AttachStreamSource Unit := ⟨fun s _ _ => (.error (.other "no attach stream source"), s)⟩
  let msg : CanonicalMessage :=
    { locus := ⟨"a.pst", "a", "Inbox", 0x21, false⟩
      bodyPlain := some "see attached"
      attachments := [{ filename := "a.bin", size := 2, data := some [1, 2] }] }
  let part : PreparedPart := ⟨false, "a.bin", "application/octet-stream", .memory [1, 2], false⟩
  have hok : (writeCanonicalEml source {} msg ()).1.toOption.isSome = true := by decide +kernel
  have hsettled : settle source {} 3 0 msg () = (.ok (.mk msg 0 (.file part [1, 2] .nil)), ()) := rfl
  have hbody : BodyClear [makeBoundary "mixed" 0x21 0] msg ((0x21 + 1) % 2 ^ 64) 0 := by decide +kernel
  have htype : ¬ MultipartType (bytes (sanitizeHeaderValue part.mime)) := by decide +kernel
  cases hwrite : writeCanonicalEml source {} msg () with
  | mk written t =>
    rw [hwrite] at hok
    cases written with
    | error e => cases hok
    | ok written =>
      obtain ⟨w, hsettle, hiff⟩ := textRecovered_iff hwrite
      obtain rfl : w = .mk msg 0 (.file part [1, 2] .nil) :=
        (Except.ok.inj (congrArg Prod.fst (hsettled.symm.trans hsettle))).symm
      refine ⟨_, source, msg, written.1, written.2, part, hwrite, hiff.mpr ?_⟩
      rw [WrittenMessage.Clear, if_neg (by decide), WrittenParts.Clear, WrittenParts.Clear]
      exact ⟨hbody, htype, trivial⟩

omit [Chrono] in
theorem settle_eq_mk {source : AttachStreamSource σ} {opts : EmlWriteOpts} {levels depth : Nat}
    {msg : CanonicalMessage} {s t : σ} {w : WrittenMessage}
    (h : settle source opts levels depth msg s = (.ok w, t)) : ∃ parts, w = .mk msg depth parts := by
  have hwith : ∀ settleNested, settleWith source opts settleNested depth msg s = (.ok w, t) →
      ∃ parts, w = .mk msg depth parts := by
    intro settleNested h
    unfold settleWith at h
    split at h
    · obtain ⟨prepared, u, _, h⟩ := run_bind_eq_ok.mp h
      obtain ⟨parts, v, _, h⟩ := run_bind_eq_ok.mp h
      exact ⟨parts, (run_pure_eq_ok.mp h).1.symm⟩
    · exact ⟨.nil, (run_pure_eq_ok.mp h).1.symm⟩
  cases levels with
  | zero => exact hwith _ h
  | succ levels => exact hwith _ h

end Writes

theorem exists_not_textRecovered :
    ∃ (_ : Chrono) (source : AttachStreamSource Unit) (msg : CanonicalMessage) (text : Bytes)
      (result : EmlWriteResult) (w : WrittenMessage),
      writeCanonicalEml source {} msg () = (.ok (text, result), ()) ∧
        settle source {} 3 0 msg () = (.ok w, ()) ∧ ¬ TextRecovered text w := by
  let _ : Chrono := ⟨fun _ => none, fun h => by cases h⟩
  let source : AttachStreamSource Unit := ⟨fun s _ _ => (.error (.other "no attach stream source"), s)⟩
  let msg : CanonicalMessage :=
    { locus := ⟨"a.pst", "a", "Inbox", 0x21, false⟩
      bodyPlain := some "quoted:\r\n------=_PstDedupe_mixed_21_d0_--\r\n"
      attachments := [{ filename := "a.bin", size := 2, data := some [1, 2] }] }
  have hok : (writeCanonicalEml source {} msg ()).1.toOption.isSome = true := by decide +kernel
  have hparts : (match (settle source {} 3 0 msg ()).1 with
      | .ok (.mk _ _ parts) => parts.isNil
      | .error _ => true) = false := by decide +kernel
  have hbody : ¬ BodyClear [makeBoundary "mixed" 0x21 0] msg ((0x21 + 1) % 2 ^ 64) 0 := by decide +kernel
  cases hwrite : writeCanonicalEml source {} msg () with
  | mk written t =>
    rw [hwrite] at hok
    cases written with
    | error e => cases hok
    | ok written =>
      obtain ⟨w, hsettle, _, hsound, _⟩ := writesAs_writeCanonicalEmlTo source {} _ _ _ _ _ _ _ hwrite
      refine ⟨_, source, msg, written.1, written.2, w, hwrite, hsettle, fun hrecovered => ?_⟩
      have hclear := (recovered_iff_clear hsound).mp hrecovered.2
      obtain ⟨parts, rfl⟩ := settle_eq_mk hsettle
      have hsettle' : settle source {} 3 0 msg () = (.ok (.mk msg 0 parts), t) := hsettle
      rw [hsettle'] at hparts
      rw [WrittenMessage.Clear, if_neg (Bool.eq_false_iff.mp hparts)] at hclear
      exact hbody hclear.1

end DedupEngine.EmlPack
