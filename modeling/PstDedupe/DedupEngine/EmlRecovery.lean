import PstDedupe.DedupEngine.EmlText
import PstDedupe.Foundations.GuardedRuns

/-!
# Reading an EML back

`settle` is what the writer writes, without its text: the messages with the attachments that could
be prepared, and their bytes.
-/

namespace DedupEngine.EmlPack

open Rust Foundations List

/-! ## What is written -/

mutual

inductive WrittenMessage where
  | mk (msg : CanonicalMessage) (depth : Nat) (parts : WrittenParts)

/-- The written attachments in their order: files, messages that are copied, and messages inside. -/
inductive WrittenParts where
  | nil
  | file (part : PreparedPart) (data : Bytes) (rest : WrittenParts)
  | raw (part : PreparedPart) (data : Bytes) (rest : WrittenParts)
  | nested (part : PreparedPart) (inner : WrittenMessage) (rest : WrittenParts)

end

def attachBytes : AttachBody → Except EmlWriteError Bytes
  | .memory data => .ok data
  | .stream stream => stream.readAll.map flatten
  | .nested _ _ _ _ => .error (.other "nested")

section Settle

variable {σ : Type}

def settlePartsWith (settleNested : Nat → CanonicalMessage → EmlM σ WrittenMessage) :
    List PreparedPart → EmlM σ WrittenParts
  | [] => pure .nil
  | part :: rest =>
    if part.embedded then
      match part.body with
      | .nested msg writeDepth _ _ => do
        let inner ← settleNested writeDepth msg
        let rest ← settlePartsWith settleNested rest
        pure (.nested part inner rest)
      | body => do
        let data ← EmlM.ofExcept (attachBytes body)
        let rest ← settlePartsWith settleNested rest
        pure (.raw part data rest)
    else do
      let data ← EmlM.ofExcept (attachBytes part.body)
      let rest ← settlePartsWith settleNested rest
      pure (.file part data rest)

variable (source : AttachStreamSource σ) (opts : EmlWriteOpts)

def settleWith (settleNested : Nat → CanonicalMessage → EmlM σ WrittenMessage) (depth : Nat)
    (msg : CanonicalMessage) : EmlM σ WrittenMessage :=
  if opts.familyPolicy = .keepAttachmentsWithParent && !msg.attachments.isEmpty then do
    let (prepared, _) ← EmlM.ofState (prepareAttachments source opts depth msg {} 0 msg.attachments)
    let parts ← settlePartsWith settleNested prepared
    pure (.mk msg depth parts)
  else pure (.mk msg depth .nil)

def settle : Nat → Nat → CanonicalMessage → EmlM σ WrittenMessage
  | 0, depth, msg => settleWith source opts (fun _ _ => throw (.other "max_embedded_depth")) depth msg
  | levels + 1, depth, msg => settleWith source opts (settle levels) depth msg

end Settle

/-! ## The structure that is meant -/

def fileText (body : AttachBody) : Bytes :=
  match streamAttachBase64Body body with
  | .ok text => text
  | .error _ => []

def plainEntity (header : List String) (msg : CanonicalMessage) : Entity :=
  .leaf (header.map bytes) (plainContent msg) (plainContent msg)

def htmlEntity (header : List String) (msg : CanonicalMessage) : Entity :=
  .leaf (header.map bytes) (htmlContent msg) (htmlContent msg)

def alternativeEntity (header : List String) (boundary : String) (msg : CanonicalMessage)
    (epilogue : List Bytes) : Entity :=
  .multipart (header.map bytes)
    (bytes boundary) [plainEntity plainHeader msg, htmlEntity htmlHeader msg] epilogue

def bodyOnlyEntity (header : List String) (msg : CanonicalMessage) (depth : Nat) : Entity :=
  if hasPlain msg && hasHtml msg then
    let boundary := makeBoundary "alt" msg.locus.nid depth
    alternativeEntity (header ++ ["MIME-Version: 1.0", multipartHeader "alternative" boundary])
      boundary msg [[]]
  else if hasHtml msg then htmlEntity (header ++ "MIME-Version: 1.0" :: htmlHeader) msg
  else plainEntity (header ++ "MIME-Version: 1.0" :: plainHeader) msg

def bodyPartEntity (msg : CanonicalMessage) (depth : Nat) : Entity :=
  if hasPlain msg && hasHtml msg then
    let boundary := makeBoundary "alt" ((msg.locus.nid + 1) % 2 ^ 64) depth
    alternativeEntity [multipartHeader "alternative" boundary] boundary msg []
  else if hasHtml msg then htmlEntity htmlHeader msg
  else plainEntity plainHeader msg

section Entities

variable [Chrono]

mutual

def WrittenMessage.entity : WrittenMessage → Entity
  | .mk msg depth parts =>
    let header := headerLines msg (decide (0 < depth))
    match parts.entities with
    | [] => bodyOnlyEntity header msg depth
    | entities =>
      let boundary := makeBoundary "mixed" msg.locus.nid depth
      .multipart ((header ++ ["MIME-Version: 1.0", multipartHeader "mixed" boundary]).map bytes)
        (bytes boundary) (bodyPartEntity msg depth :: entities) [[]]

def WrittenParts.entities : WrittenParts → List Entity
  | .nil => []
  | .file part data rest =>
    .leaf ((partHeader part).map bytes) (fileText part.body) data :: rest.entities
  | .raw part data rest => .leaf ((partHeader part).map bytes) data data :: rest.entities
  | .nested part inner rest => .message ((partHeader part).map bytes) inner.entity :: rest.entities

end

end Entities

/-! ## The condition -/

def LinesClear (around : List String) (content : Bytes) : Prop :=
  ∀ boundary ∈ around, ∀ l ∈ textLines content, ¬ bytes ("--" ++ boundary) <+: l

/-- The texts of a message, in the multiparts around them; both texts stand in a multipart of their
own. -/
def BodyClear (around : List String) (msg : CanonicalMessage) (nid depth : Nat) : Prop :=
  if hasPlain msg && hasHtml msg then
    LinesClear (makeBoundary "alt" nid depth :: around) (plainContent msg) ∧
      LinesClear (makeBoundary "alt" nid depth :: around) (htmlContent msg)
  else if hasHtml msg then LinesClear around (htmlContent msg)
  else LinesClear around (plainContent msg)

instance (around : List String) (content : Bytes) : Decidable (LinesClear around content) :=
  inferInstanceAs (Decidable (∀ boundary ∈ around, ∀ l ∈ textLines content, ¬ bytes ("--" ++ boundary) <+: l))

instance (around : List String) (msg : CanonicalMessage) (nid depth : Nat) :
    Decidable (BodyClear around msg nid depth) :=
  inferInstanceAs (Decidable (if hasPlain msg && hasHtml msg then _ else if hasHtml msg then _ else _))

def WrittenParts.isNil : WrittenParts → Bool
  | .nil => true
  | _ => false

mutual

/-- **The condition**: no line of a text body or of a copied message begins with a delimiter of a
multipart around it, and no file has a multipart type. The lines of a file are base64 and always
clear. -/
def WrittenMessage.Clear (around : List String) : WrittenMessage → Prop
  | .mk msg depth parts =>
    if parts.isNil then BodyClear around msg msg.locus.nid depth
    else
      BodyClear (makeBoundary "mixed" msg.locus.nid depth :: around) msg ((msg.locus.nid + 1) % 2 ^ 64) depth ∧
        parts.Clear (makeBoundary "mixed" msg.locus.nid depth :: around)

def WrittenParts.Clear (around : List String) : WrittenParts → Prop
  | .nil => True
  | .file part _ rest => ¬ MultipartType (bytes (sanitizeHeaderValue part.mime)) ∧ rest.Clear around
  | .raw _ data rest => LinesClear around data ∧ rest.Clear around
  | .nested _ inner rest => inner.Clear around ∧ rest.Clear around

end

def WrittenMessage.depth : WrittenMessage → Nat
  | .mk _ depth _ => depth

mutual

def WrittenMessage.Sound : WrittenMessage → Prop
  | .mk _ depth parts => parts.Sound depth

def WrittenParts.Sound (depth : Nat) : WrittenParts → Prop
  | .nil => True
  | .file part data rest =>
    (part.embedded = false ∧ unbroken (fileText part.body) = Base64.encode data ∧
      45 ∉ fileText part.body) ∧ rest.Sound depth
  | .raw part _ rest => part.embedded = true ∧ rest.Sound depth
  | .nested part inner rest =>
    (part.embedded = true ∧ inner.depth = depth + 1 ∧ inner.Sound) ∧ rest.Sound depth

end

/-! ## Headers -/

def Neutral (l : Bytes) : Prop := Entity.HeaderLine l ∧ l ≠ base64Line ∧ declaredBoundary l = none

theorem headerLine_of_head {l : Bytes} (h : ∃ c ∈ l.head?, c ≠ 45) : Entity.HeaderLine l := by
  obtain ⟨c, hhead, hc⟩ := h
  obtain ⟨rest, hrest⟩ := List.head?_eq_some_iff.mp hhead
  exact ⟨c, rest, hrest, hc⟩

theorem HeaderField.neutral {h : String} (hh : HeaderField h) : Neutral (bytes h) :=
  ⟨hh.headerLine, hh.ne_base64Line, hh.declaredBoundary_eq_none⟩

theorem neutral_fixedLines : ∀ h ∈ fixedLines, Neutral (bytes h) := fun h hh => by
  obtain ⟨hhead, hbase64, hboundary, _⟩ := bytes_fixedLines h hh
  exact ⟨headerLine_of_head hhead, hbase64, hboundary⟩

theorem neutral_mimeVersion : Neutral (bytes "MIME-Version: 1.0") :=
  neutral_fixedLines _ (by simp [fixedLines])

theorem neutral_plainHeader : ∀ h ∈ plainHeader, Neutral (bytes h) :=
  fun h hh => neutral_fixedLines h (by simp [fixedLines, hh])

theorem neutral_htmlHeader : ∀ h ∈ htmlHeader, Neutral (bytes h) :=
  fun h hh => neutral_fixedLines h (by simp [fixedLines, hh])

theorem neutral_disposition (filename : String) :
    Neutral (bytes ("Content-Disposition: attachment; filename=\"" ++ encodeHeaderValue filename ++
      "\"")) := by
  have hname : bytes "Content-Disposition: attachment; filename=\"" = [67, 111, 110, 116, 101, 110, 116, 45, 68]
      ++ (bytes "Content-Disposition: attachment; filename=\"").drop 9 := by
    decide +kernel
  rw [bytes_append, bytes_append, hname, append_assoc, append_assoc]
  refine ⟨⟨67, _, rfl, by decide⟩, ?_, if_neg ?_⟩
  · intro heq
    have htake := congrArg (take 9) heq
    exact absurd htake (by
      rw [take_append_of_le_length (by decide)]
      decide +kernel)
  · rintro ⟨hpre, _⟩
    have htake := hpre.take 9
    rw [← map_take, take_append_of_le_length (by decide)] at htake
    exact absurd htake (by decide +kernel)

section Reader

variable {header : List Bytes}

theorem boundary_of_neutral (h : ∀ l ∈ header, Neutral l) : mimeReader.boundary header = none :=
  List.findSome?_eq_none_iff.mpr fun l hl => (h l hl).2.2

theorem decode_of_neutral (h : ∀ l ∈ header, Neutral l) (content : Bytes) :
    mimeReader.decode header content = some content :=
  if_neg fun hmem => (h _ hmem).2.1 rfl

theorem wellFormed_leaf (h : ∀ l ∈ header, Neutral l) (content : Bytes) :
    Entity.WellFormed mimeReader (.leaf header content content) := by
  rw [Entity.WellFormed]
  exact ⟨fun l hl => (h l hl).1, decode_of_neutral h content⟩

end Reader

theorem ne_quote {l : Bytes} (h : 34 ∉ l) : ∀ c ∈ l, decide (c ≠ 34) = true := by
  intro c hc
  rw [decide_eq_true_iff]
  rintro rfl
  exact h hc

theorem declaredBoundary_multipartHeader {subtype boundary : String} (hsubtype : 34 ∉ bytes subtype)
    (hboundary : 34 ∉ bytes boundary) :
    declaredBoundary (bytes (multipartHeader subtype boundary)) = some (bytes boundary) := by
  have hstart : 34 ∉ bytes "multipart/" := bytes_boundaryTexts.1 _ (by simp)
  obtain ⟨hparam, hname⟩ := bytes_boundaryTexts.2.1
  have htype : MultipartType (bytes "multipart/") := bytes_boundaryTexts.2.2.2.2.2.2.1
  have hbytes : bytes (multipartHeader subtype boundary) = bytes "Content-Type: " ++ (bytes "multipart/"
      ++ (bytes subtype ++ ((bytes "; boundary=\"").take 11 ++ 34 :: (bytes boundary ++ [34])))) := by
    have hsplit : "Content-Type: multipart/" = "Content-Type: " ++ "multipart/" := rfl
    unfold multipartHeader
    rw [bytes_append, bytes_append, bytes_append, bytes_append, hparam, hsplit, bytes_append]
    simp only [append_assoc]
    rfl
  rw [hbytes, declaredBoundary_contentType, if_pos (htype.append _),
    dropWhile_append_of_pos (ne_quote hstart), dropWhile_append_of_pos (ne_quote hsubtype),
    dropWhile_append_of_pos (ne_quote hname), dropWhile_cons_of_neg (by decide), tail_cons,
    takeWhile_append_of_pos (ne_quote hboundary), takeWhile_cons_of_neg (by decide), append_nil]

theorem boundary_of_multipartHeader {header : List String} (h : ∀ h ∈ header, Neutral (bytes h))
    {subtype boundary : String} (hsubtype : 34 ∉ bytes subtype) (hboundary : 34 ∉ bytes boundary) :
    mimeReader.boundary ((header ++ [multipartHeader subtype boundary]).map bytes)
      = some (bytes boundary) := by
  have hnone : (header.map bytes).findSome? declaredBoundary = none :=
    boundary_of_neutral (List.forall_mem_map.mpr h)
  show findSome? declaredBoundary _ = _
  rw [map_append, map_singleton, findSome?_append, hnone, Option.none_or,
    findSome?_singleton, declaredBoundary_multipartHeader hsubtype hboundary]

theorem headerLine_multipartHeader (subtype boundary : String) :
    Entity.HeaderLine (bytes (multipartHeader subtype boundary)) := by
  have hname := bytes_boundaryTexts.2.2.2.1.1
  unfold multipartHeader
  rw [String.append_assoc, String.append_assoc, String.append_assoc]
  exact headerLine_bytes hname (by decide)

/-! ## The structure is well formed -/

theorem wellFormed_alternative {header : List String} (h : ∀ h ∈ header, Neutral (bytes h))
    (msg : CanonicalMessage) (nid depth : Nat) {epilogue : List Bytes} (hepilogue : ∀ l ∈ epilogue, l = []) :
    Entity.WellFormed mimeReader
      (alternativeEntity (header ++ [multipartHeader "alternative" (makeBoundary "alt" nid depth)])
        (makeBoundary "alt" nid depth) msg epilogue) := by
  have hsubtype : 34 ∉ bytes "alternative" := bytes_boundaryTexts.1 _ (by simp)
  have hkind : 34 ∉ bytes "alt" := bytes_boundaryTexts.1 _ (by simp)
  have hplain := wellFormed_leaf (List.forall_mem_map.mpr neutral_plainHeader) (plainContent msg)
  have hhtml := wellFormed_leaf (List.forall_mem_map.mpr neutral_htmlHeader) (htmlContent msg)
  rw [alternativeEntity, Entity.WellFormed]
  refine ⟨List.forall_mem_map.mpr fun l hl => ?_,
    boundary_of_multipartHeader h hsubtype (quote_notMem_makeBoundary hkind nid depth), cons_ne_nil _ _,
    hepilogue, ?_, ?_⟩
  · rcases List.mem_append.mp hl with hl | hl
    · exact (h l hl).1
    · rw [List.mem_singleton.mp hl]
      exact headerLine_multipartHeader _ _
  · simp only [plainEntity, htmlEntity, Entity.AllApart, Entity.Apart, and_self]
  · simp only [Entity.AllWellFormed, plainEntity, htmlEntity, hplain, hhtml, and_self]

theorem neutral_append_mimeVersion {header : List String} (h : ∀ h ∈ header, Neutral (bytes h)) :
    ∀ h ∈ header ++ ["MIME-Version: 1.0"], Neutral (bytes h) := by
  intro l hl
  rcases List.mem_append.mp hl with hl | hl
  · exact h l hl
  · rw [List.mem_singleton.mp hl]
    exact neutral_mimeVersion

theorem neutral_append_mimeVersion_cons {header rest : List String}
    (h : ∀ h ∈ header, Neutral (bytes h)) (hrest : ∀ h ∈ rest, Neutral (bytes h)) :
    ∀ h ∈ header ++ "MIME-Version: 1.0" :: rest, Neutral (bytes h) := by
  intro l hl
  rw [append_cons] at hl
  rcases List.mem_append.mp hl with hl | hl
  · exact neutral_append_mimeVersion h l hl
  · exact hrest l hl

theorem wellFormed_bodyOnlyEntity {header : List String} (h : ∀ h ∈ header, Neutral (bytes h))
    (msg : CanonicalMessage) (depth : Nat) :
    Entity.WellFormed mimeReader (bodyOnlyEntity header msg depth) := by
  unfold bodyOnlyEntity
  split
  · have hepilogue : ∀ l ∈ [([] : Bytes)], l = [] := by simp
    have halt := wellFormed_alternative (neutral_append_mimeVersion h) msg msg.locus.nid depth hepilogue
    rw [append_assoc] at halt
    exact halt
  split
  · exact wellFormed_leaf (List.forall_mem_map.mpr (neutral_append_mimeVersion_cons h neutral_htmlHeader)) _
  · exact wellFormed_leaf (List.forall_mem_map.mpr (neutral_append_mimeVersion_cons h neutral_plainHeader)) _

theorem wellFormed_bodyPartEntity (msg : CanonicalMessage) (depth : Nat) :
    Entity.WellFormed mimeReader (bodyPartEntity msg depth) := by
  unfold bodyPartEntity
  split
  · have hheader : ∀ h ∈ ([] : List String), Neutral (bytes h) := by simp
    exact wellFormed_alternative hheader msg _ depth (by simp)
  split
  · exact wellFormed_leaf (List.forall_mem_map.mpr neutral_htmlHeader) _
  · exact wellFormed_leaf (List.forall_mem_map.mpr neutral_plainHeader) _

theorem wellFormed_file {part : PreparedPart} (hembedded : part.embedded = false) {data : Bytes}
    (htext : unbroken (fileText part.body) = Base64.encode data) :
    Entity.WellFormed mimeReader (.leaf ((partHeader part).map bytes) (fileText part.body) data) := by
  have hmem : base64Line ∈ (partHeader part).map bytes := by
    unfold partHeader
    rw [hembedded]
    exact mem_cons_of_mem _ (mem_cons_of_mem _ mem_cons_self)
  have htype := bytes_boundaryTexts.2.2.2.1.2
  rw [Entity.WellFormed]
  refine ⟨List.forall_mem_map.mpr fun l hl => ?_, (if_pos hmem).trans (Base64.decodeLines_eq htext)⟩
  unfold partHeader at hl
  rw [hembedded] at hl
  simp only [Bool.false_eq_true, if_false, mem_cons, not_mem_nil, or_false] at hl
  rcases hl with rfl | rfl | rfl
  · exact headerLine_bytes htype (by decide)
  · exact (neutral_disposition part.filename).1
  · exact headerLine_of_head bytes_boundaryTexts.2.2.2.2.1.2.1

/-- The header of a file declares a boundary when its MIME type is a multipart one, base64 or
not. -/
theorem boundary_file_iff {part : PreparedPart} (hembedded : part.embedded = false) :
    mimeReader.boundary ((partHeader part).map bytes) = none
      ↔ ¬ MultipartType (bytes (sanitizeHeaderValue part.mime)) := by
  have hdisposition := (neutral_disposition part.filename).2.2
  have hbase64 : declaredBoundary (bytes "Content-Transfer-Encoding: base64") = none :=
    bytes_boundaryTexts.2.2.2.2.1.1
  unfold partHeader
  rw [hembedded, if_neg Bool.false_ne_true]
  show findSome? declaredBoundary _ = none ↔ _
  simp only [map_cons, map_nil, findSome?_eq_none_iff, forall_mem_cons, hdisposition,
    hbase64, bytes_append _ (sanitizeHeaderValue part.mime), declaredBoundary_contentType,
    not_mem_nil, false_implies, implies_true, and_true, ite_eq_right_iff, reduceCtorEq, imp_false]

theorem neutral_partHeader {part : PreparedPart} (hembedded : part.embedded = true) :
    ∀ h ∈ partHeader part, Neutral (bytes h) := by
  intro l hl
  unfold partHeader at hl
  rw [hembedded] at hl
  simp only [if_true, mem_cons, not_mem_nil, or_false] at hl
  rcases hl with rfl | rfl | rfl
  · exact neutral_fixedLines _ (by simp [fixedLines])
  · exact neutral_disposition part.filename
  · exact neutral_fixedLines _ (by simp [fixedLines, plainHeader])

theorem mixed_apart_alternative (nid depth : Nat) (header : List String) (nid' depth' : Nat)
    (msg : CanonicalMessage) (epilogue : List Bytes) :
    Entity.Apart (bytes (makeBoundary "mixed" nid depth))
      (alternativeEntity header (makeBoundary "alt" nid' depth') msg epilogue) := by
  rw [alternativeEntity, Entity.Apart]
  refine ⟨mixed_apart_alt _ _ _ _, ?_⟩
  simp only [plainEntity, htmlEntity, Entity.AllApart, Entity.Apart, and_self]

theorem mixed_apart_bodyPartEntity (nid depth : Nat) (msg : CanonicalMessage) (depth' : Nat) :
    Entity.Apart (bytes (makeBoundary "mixed" nid depth)) (bodyPartEntity msg depth') := by
  unfold bodyPartEntity
  split
  · exact mixed_apart_alternative _ _ _ _ _ _ _
  split
  · rw [htmlEntity, Entity.Apart]
    trivial
  · rw [plainEntity, Entity.Apart]
    trivial

theorem mixed_apart_bodyOnlyEntity (nid depth : Nat) (header : List String) (msg : CanonicalMessage)
    (depth' : Nat) :
    Entity.Apart (bytes (makeBoundary "mixed" nid depth)) (bodyOnlyEntity header msg depth') := by
  unfold bodyOnlyEntity
  split
  · exact mixed_apart_alternative _ _ _ _ _ _ _
  split
  · rw [htmlEntity, Entity.Apart]
    trivial
  · rw [plainEntity, Entity.Apart]
    trivial

theorem entities_eq_nil [Chrono] {parts : WrittenParts} : parts.entities = [] ↔ parts.isNil = true := by
  cases parts <;> simp [WrittenParts.entities, WrittenParts.isNil]

section Tree

variable [Chrono]

theorem entity_of_isNil {msg : CanonicalMessage} {depth : Nat} {parts : WrittenParts}
    (h : parts.isNil = true) : (WrittenMessage.mk msg depth parts).entity
      = bodyOnlyEntity (headerLines msg (decide (0 < depth))) msg depth := by
  rw [WrittenMessage.entity, entities_eq_nil.mpr h]

theorem entity_of_not_isNil {msg : CanonicalMessage} {depth : Nat} {parts : WrittenParts}
    (h : parts.isNil = false) : (WrittenMessage.mk msg depth parts).entity
      = .multipart ((headerLines msg (decide (0 < depth)) ++ ["MIME-Version: 1.0",
          multipartHeader "mixed" (makeBoundary "mixed" msg.locus.nid depth)]).map bytes)
        (bytes (makeBoundary "mixed" msg.locus.nid depth))
        (bodyPartEntity msg depth :: parts.entities) [[]] := by
  rw [WrittenMessage.entity]
  cases hentities : parts.entities with
  | nil =>
    rw [entities_eq_nil.mp hentities] at h
    cases h
  | cons e es => rfl

mutual

theorem apart_entity (nid d : Nat) : ∀ w : WrittenMessage, w.Sound → d < w.depth →
    Entity.Apart (bytes (makeBoundary "mixed" nid d)) w.entity
  | .mk msg depth parts, hsound, hdepth => by
    rw [WrittenMessage.Sound] at hsound
    have hlt : d < depth := hdepth
    cases hnil : parts.isNil with
    | true =>
      rw [entity_of_isNil hnil]
      exact mixed_apart_bodyOnlyEntity _ _ _ _ _
    | false =>
      rw [entity_of_not_isNil hnil, Entity.Apart, Entity.AllApart]
      exact ⟨makeBoundary_apart_depth (by omega), mixed_apart_bodyPartEntity _ _ _ _,
        apart_entities nid d parts depth hsound (by omega)⟩

theorem apart_entities (nid d : Nat) : ∀ (parts : WrittenParts) (depth : Nat), parts.Sound depth →
    d ≤ depth → Entity.AllApart (bytes (makeBoundary "mixed" nid d)) parts.entities
  | .nil, _, _, _ => by
    rw [WrittenParts.entities, Entity.AllApart]
    trivial
  | .file part data rest, depth, hsound, hdepth => by
    rw [WrittenParts.Sound] at hsound
    rw [WrittenParts.entities, Entity.AllApart, Entity.Apart]
    exact ⟨trivial, apart_entities nid d rest depth hsound.2 hdepth⟩
  | .raw part data rest, depth, hsound, hdepth => by
    rw [WrittenParts.Sound] at hsound
    rw [WrittenParts.entities, Entity.AllApart, Entity.Apart]
    exact ⟨trivial, apart_entities nid d rest depth hsound.2 hdepth⟩
  | .nested part inner rest, depth, hsound, hdepth => by
    rw [WrittenParts.Sound] at hsound
    rw [WrittenParts.entities, Entity.AllApart, Entity.Apart]
    exact ⟨apart_entity nid d inner hsound.1.2.2 (by have := hsound.1.2.1; omega),
      apart_entities nid d rest depth hsound.2 hdepth⟩

end

theorem neutral_headerLines (msg : CanonicalMessage) (nested : Bool) :
    ∀ h ∈ headerLines msg nested, Neutral (bytes h) :=
  fun h hh => (headerField_of_headerLines msg nested h hh).neutral

mutual

theorem wellFormed_entity : ∀ w : WrittenMessage, w.Sound → Entity.WellFormed mimeReader w.entity
  | .mk msg depth parts, hsound => by
    rw [WrittenMessage.Sound] at hsound
    have hheader := neutral_headerLines msg (decide (0 < depth))
    cases hnil : parts.isNil with
    | true =>
      rw [entity_of_isNil hnil]
      exact wellFormed_bodyOnlyEntity hheader msg depth
    | false =>
      have hsubtype : 34 ∉ bytes "mixed" := bytes_boundaryTexts.1 _ (by simp)
      have hboundary := boundary_of_multipartHeader (neutral_append_mimeVersion hheader) hsubtype
        (quote_notMem_makeBoundary hsubtype msg.locus.nid depth)
      rw [append_assoc] at hboundary
      rw [entity_of_not_isNil hnil, Entity.WellFormed, Entity.AllApart, Entity.AllWellFormed]
      refine ⟨List.forall_mem_map.mpr fun l hl => ?_, hboundary, cons_ne_nil _ _, by simp,
        ⟨mixed_apart_bodyPartEntity _ _ _ _, apart_entities _ _ parts depth hsound (Nat.le_refl depth)⟩,
        wellFormed_bodyPartEntity msg depth, wellFormed_entities parts depth hsound⟩
      rw [append_cons] at hl
      rcases List.mem_append.mp hl with hl | hl
      · exact (neutral_append_mimeVersion hheader l hl).1
      · rw [List.mem_singleton.mp hl]
        exact headerLine_multipartHeader _ _

theorem wellFormed_entities : ∀ (parts : WrittenParts) (depth : Nat), parts.Sound depth →
    Entity.AllWellFormed mimeReader parts.entities
  | .nil, _, _ => by
    rw [WrittenParts.entities, Entity.AllWellFormed]
    trivial
  | .file part data rest, depth, hsound => by
    rw [WrittenParts.Sound] at hsound
    rw [WrittenParts.entities, Entity.AllWellFormed]
    exact ⟨wellFormed_file hsound.1.1 hsound.1.2.1, wellFormed_entities rest depth hsound.2⟩
  | .raw part data rest, depth, hsound => by
    rw [WrittenParts.Sound] at hsound
    rw [WrittenParts.entities, Entity.AllWellFormed]
    exact ⟨wellFormed_leaf (List.forall_mem_map.mpr (neutral_partHeader hsound.1)) data,
      wellFormed_entities rest depth hsound.2⟩
  | .nested part inner rest, depth, hsound => by
    rw [WrittenParts.Sound] at hsound
    have hheader := neutral_partHeader hsound.1.1
    rw [WrittenParts.entities, Entity.AllWellFormed, Entity.WellFormed]
    exact ⟨⟨List.forall_mem_map.mpr fun l hl => (hheader l hl).1,
        boundary_of_neutral (List.forall_mem_map.mpr hheader), wellFormed_entity inner hsound.1.2.2⟩,
      wellFormed_entities rest depth hsound.2⟩

end

/-! ## When it is recovered -/

omit [Chrono] in
theorem clearIn_leaf_iff {around : List String} {header : List Bytes} {content data : Bytes} :
    Entity.ClearIn mimeReader (around.map bytes) (.leaf header content data)
      ↔ mimeReader.boundary header = none ∧ LinesClear around content := by
  rw [Entity.clearIn_leaf, forall_mem_map]
  simp only [LinesClear, delimiter_bytes]

omit [Chrono] in
theorem clearIn_neutral_iff {around : List String} {header : List String}
    (h : ∀ h ∈ header, Neutral (bytes h)) {content data : Bytes} :
    Entity.ClearIn mimeReader (around.map bytes) (.leaf (header.map bytes) content data)
      ↔ LinesClear around content :=
  clearIn_leaf_iff.trans (and_iff_right (boundary_of_neutral (List.forall_mem_map.mpr h)))

omit [Chrono] in
theorem linesClear_of_notMem {around : List String} {content : Bytes} (h : 45 ∉ content) :
    LinesClear around content := by
  intro boundary _ l hl hpre
  rw [delimiter_bytes] at hpre
  exact h (mem_of_mem_textLines hl (hpre.subset mem_cons_self))

omit [Chrono] in
theorem alternativeEntity_clearIn_iff {around header : List String} {boundary : String}
    {msg : CanonicalMessage} {epilogue : List Bytes} :
    Entity.ClearIn mimeReader (around.map bytes) (alternativeEntity header boundary msg epilogue)
      ↔ LinesClear (boundary :: around) (plainContent msg) ∧
        LinesClear (boundary :: around) (htmlContent msg) := by
  rw [alternativeEntity, Entity.clearIn_multipart, forall_mem_cons, forall_mem_singleton,
    ← map_cons, plainEntity, htmlEntity, clearIn_neutral_iff neutral_plainHeader,
    clearIn_neutral_iff neutral_htmlHeader]

omit [Chrono] in
theorem bodyOnlyEntity_clearIn_iff {around header : List String}
    (h : ∀ h ∈ header, Neutral (bytes h)) {msg : CanonicalMessage} {depth : Nat} :
    Entity.ClearIn mimeReader (around.map bytes) (bodyOnlyEntity header msg depth)
      ↔ BodyClear around msg msg.locus.nid depth := by
  unfold bodyOnlyEntity BodyClear
  split
  · exact alternativeEntity_clearIn_iff
  split
  · exact clearIn_neutral_iff (neutral_append_mimeVersion_cons h neutral_htmlHeader)
  · exact clearIn_neutral_iff (neutral_append_mimeVersion_cons h neutral_plainHeader)

omit [Chrono] in
theorem bodyPartEntity_clearIn_iff {around : List String} {msg : CanonicalMessage} {depth : Nat} :
    Entity.ClearIn mimeReader (around.map bytes) (bodyPartEntity msg depth)
      ↔ BodyClear around msg ((msg.locus.nid + 1) % 2 ^ 64) depth := by
  unfold bodyPartEntity BodyClear
  split
  · exact alternativeEntity_clearIn_iff
  split
  · exact clearIn_neutral_iff neutral_htmlHeader
  · exact clearIn_neutral_iff neutral_plainHeader

mutual

theorem entity_clearIn_iff : ∀ (w : WrittenMessage) (around : List String), w.Sound →
    (Entity.ClearIn mimeReader (around.map bytes) w.entity ↔ w.Clear around)
  | .mk msg depth parts, around, hsound => by
    rw [WrittenMessage.Sound] at hsound
    rw [WrittenMessage.Clear]
    cases hnil : parts.isNil with
    | true =>
      rw [entity_of_isNil hnil, bodyOnlyEntity_clearIn_iff (neutral_headerLines msg _), if_pos rfl]
    | false =>
      have hparts :=
        entities_clearIn_iff parts (makeBoundary "mixed" msg.locus.nid depth :: around) depth hsound
      rw [entity_of_not_isNil hnil, Entity.clearIn_multipart, forall_mem_cons, ← map_cons, hparts,
        bodyPartEntity_clearIn_iff, if_neg Bool.false_ne_true]

theorem entities_clearIn_iff : ∀ (parts : WrittenParts) (around : List String) (depth : Nat),
    parts.Sound depth →
    ((∀ e ∈ parts.entities, Entity.ClearIn mimeReader (around.map bytes) e) ↔ parts.Clear around)
  | .nil, _, _, _ => by simp [WrittenParts.entities, WrittenParts.Clear]
  | .file part data rest, around, depth, hsound => by
    rw [WrittenParts.Sound] at hsound
    rw [WrittenParts.entities, WrittenParts.Clear, forall_mem_cons,
      entities_clearIn_iff rest around depth hsound.2, clearIn_leaf_iff, boundary_file_iff hsound.1.1,
      and_iff_left (linesClear_of_notMem hsound.1.2.2)]
  | .raw part data rest, around, depth, hsound => by
    rw [WrittenParts.Sound] at hsound
    rw [WrittenParts.entities, WrittenParts.Clear, forall_mem_cons,
      entities_clearIn_iff rest around depth hsound.2, clearIn_neutral_iff (neutral_partHeader hsound.1)]
  | .nested part inner rest, around, depth, hsound => by
    rw [WrittenParts.Sound] at hsound
    rw [WrittenParts.entities, WrittenParts.Clear, forall_mem_cons,
      entities_clearIn_iff rest around depth hsound.2, Entity.clearIn_message,
      entity_clearIn_iff inner around hsound.1.2.2]

end

theorem recovered_iff_clear {w : WrittenMessage} (h : w.Sound) :
    Entity.Recovered mimeReader w.entity ↔ w.Clear [] := by
  rw [Entity.recovered_iff w.entity (wellFormed_entity w h), ← entity_clearIn_iff w [] h]
  exact Entity.clearIn_nil.symm

end Tree

end DedupEngine.EmlPack
