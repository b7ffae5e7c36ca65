import PstDedupe.DedupEngine.Hasher
import PstDedupe.Foundations.Separator

/-!
# What equal content hashes say

The fields of the v1 preimage stand between `|`, the attachments end in `;`, and nothing keeps
either character out of a field.
-/

namespace DedupEngine

open List Function

open Rust (Bytes32 Sha256 CollisionFree)
open Foundations (terminated)

variable [Rust.Target]

/-- What the v1 hash is meant to identify: an absent text is an empty one, and the attachments count
as a multiset. -/
structure V1Fields where
  subject : String
  submitTime : Option Int
  sender : String
  preview : String
  attachments : Multiset (String × Nat)

def AttachmentInfo.nameSize (a : AttachmentInfo) : String × Nat :=
  (Rust.Target.toLowercase a.filename, a.size)

def v1Fields (m : MessageFields) (ignoreInline : Bool) : V1Fields where
  subject := m.subjectText
  submitTime := m.submitTime
  sender := m.senderText
  preview := m.previewText
  attachments := (m.counted ignoreInline).map AttachmentInfo.nameSize

/-- The fields hold as many separators each. -/
structure SeparatorsAgree (m₁ : MessageFields) (ignore₁ : Bool) (m₂ : MessageFields)
    (ignore₂ : Bool) : Prop where
  subject : m₁.subjectText.toList.count '|' = m₂.subjectText.toList.count '|'
  sender : m₁.senderText.toList.count '|' = m₂.senderText.toList.count '|'
  preview : m₁.previewText.toList.count '|' = m₂.previewText.toList.count '|'
  /-- Counted attachment by attachment, in the order of the preimage. -/
  attachments : (attachmentMetaStrings m₁ ignore₁).map (fun att => att.toList.count ';') =
    (attachmentMetaStrings m₂ ignore₂).map fun att => att.toList.count ';'

section V1

variable {m m₁ m₂ : MessageFields} {ignore ignore₁ ignore₂ : Bool}

omit [Rust.Target] in
theorem getD_map_injective {α β : Type} {f : α → β} {b : β} (hf : Injective f)
    (hb : ∀ x, f x ≠ b) : Injective fun o : Option α => (o.map f).getD b := by
  intro o o' h
  cases o with
  | none =>
    cases o' with
    | none => rfl
    | some x' => exact absurd h.symm (hb x')
  | some x =>
    cases o' with
    | none => exact absurd h (hb x)
    | some x' => rw [hf h]

omit [Rust.Target] in
theorem submitText_injective (h : m₁.submitText = m₂.submitText) : m₁.submitTime = m₂.submitTime :=
  getD_map_injective Rust.repr_int_injective Rust.repr_int_ne_empty h

omit [Rust.Target] in
theorem sep_notMem_submitText (m : MessageFields) : '|' ∉ m.submitText.toList := by
  unfold MessageFields.submitText
  cases m.submitTime with
  | none => simp
  | some t =>
    intro hmem
    rcases Rust.mem_repr_int hmem with h | h
    · cases h
    · exact absurd h (by decide)

def v1Chars (m : MessageFields) (ignoreInline : Bool) : List Char :=
  m.subjectText.toList ++ '|' :: (m.submitText.toList ++ '|' :: (m.senderText.toList ++ '|' ::
    (m.previewText.toList ++ '|' ::
      terminated ';' ((attachmentMetaStrings m ignoreInline).map String.toList))))

theorem v1Preimage_eq (m : MessageFields) (ignoreInline : Bool) :
    v1Preimage m ignoreInline = Rust.bytes (String.ofList (v1Chars m ignoreInline)) := by
  unfold v1Preimage headerBytes attachmentBytes v1Chars terminated Rust.bytes
  simp [flatMap_map, flatMap_assoc]

theorem v1Chars_of_preimage (h : v1Preimage m₁ ignore₁ = v1Preimage m₂ ignore₂) :
    v1Chars m₁ ignore₁ = v1Chars m₂ ignore₂ := by
  rw [v1Preimage_eq, v1Preimage_eq] at h
  exact String.ofList_injective (Rust.bytes_injective h)

def metaText (p : String × Nat) : String := p.1 ++ ":" ++ Nat.repr p.2

omit [Rust.Target] in
theorem metaText_injective : Injective metaText := by
  rintro ⟨name, size⟩ ⟨name', size'⟩ h
  unfold metaText at h
  rw [← String.toList_inj] at h
  simp only [String.toList_append, append_assoc] at h
  have hcolon : ∀ n : Nat, ':' ∉ (Nat.repr n).toList := by
    intro n hmem
    exact absurd (Rust.isDigit_of_mem_repr hmem) (by decide)
  obtain ⟨hname, hsize⟩ := Foundations.sep_inj_of_notMem_right (hcolon size) (hcolon size') h
  rw [String.toList_inj.mp hname, Rust.repr_injective (String.toList_inj.mp hsize)]

theorem attachmentMetaStrings_eq_iff :
    attachmentMetaStrings m₁ ignore₁ = attachmentMetaStrings m₂ ignore₂ ↔
      (v1Fields m₁ ignore₁).attachments = (v1Fields m₂ ignore₂).attachments := by
  have hmeta : ∀ as : List AttachmentInfo, as.map AttachmentInfo.metaString
      = (as.map AttachmentInfo.nameSize).map metaText := by
    intro as
    rw [map_map]
    rfl
  unfold attachmentMetaStrings v1Fields
  rw [hmeta, hmeta, Multiset.coe_eq_coe]
  constructor
  · intro h
    have hperm := (Rust.sortBy_perm compare _).symm.trans
      ((Perm.of_eq h).trans (Rust.sortBy_perm compare _))
    exact (map_perm_map_iff metaText_injective).mp hperm
  · intro h
    exact Rust.sortBy_eq_of_perm (h.map metaText)

theorem v1Fields_eq_iff (h : v1Chars m₁ ignore₁ = v1Chars m₂ ignore₂) :
    v1Fields m₁ ignore₁ = v1Fields m₂ ignore₂ ↔ SeparatorsAgree m₁ ignore₁ m₂ ignore₂ := by
  constructor
  · intro hfields
    have hsubject : m₁.subjectText = m₂.subjectText := congrArg V1Fields.subject hfields
    have hsender : m₁.senderText = m₂.senderText := congrArg V1Fields.sender hfields
    have hpreview : m₁.previewText = m₂.previewText := congrArg V1Fields.preview hfields
    have hattach := attachmentMetaStrings_eq_iff.mpr (congrArg V1Fields.attachments hfields)
    exact ⟨by rw [hsubject], by rw [hsender], by rw [hpreview], by rw [hattach]⟩
  · intro hagree
    unfold v1Chars at h
    obtain ⟨hsubject, h⟩ := Foundations.sep_inj hagree.subject h
    obtain ⟨hsubmit, h⟩ := Foundations.sep_inj_of_notMem (sep_notMem_submitText m₁)
      (sep_notMem_submitText m₂) h
    obtain ⟨hsender, h⟩ := Foundations.sep_inj hagree.sender h
    obtain ⟨hpreview, h⟩ := Foundations.sep_inj hagree.preview h
    have hpieces := (Foundations.terminated_inj_iff h).mpr (by
      rw [map_map, map_map]
      exact hagree.attachments)
    have hattach : attachmentMetaStrings m₁ ignore₁ = attachmentMetaStrings m₂ ignore₂ :=
      List.map_injective_iff.mpr (fun _ _ => String.toList_inj.mp) hpieces
    have hfields : v1Fields m₁ ignore₁ = { v1Fields m₂ ignore₂ with
        attachments := (v1Fields m₁ ignore₁).attachments } := by
      unfold v1Fields
      rw [String.toList_inj.mp hsubject, submitText_injective (String.toList_inj.mp hsubmit),
        String.toList_inj.mp hsender, String.toList_inj.mp hpreview]
    rw [hfields, attachmentMetaStrings_eq_iff.mp hattach]

/-- **What one v1 content hash says about two messages.** Their fields are equal iff the separators
inside the fields agree. -/
theorem contentHash_fields_iff [Sha256] (hsha : CollisionFree (v1Preimage m₁ ignore₁) (v1Preimage m₂ ignore₂))
    (h : (computeContentHashDetailed m₁ ignore₁).1 = (computeContentHashDetailed m₂ ignore₂).1) :
    v1Fields m₁ ignore₁ = v1Fields m₂ ignore₂ ↔ SeparatorsAgree m₁ ignore₁ m₂ ignore₂ :=
  v1Fields_eq_iff (v1Chars_of_preimage (hsha h))

/-- A reply and the message it quotes, the attachments in another order. -/
def offer (subject : String) (attachments : List AttachmentInfo) : MessageFields where
  subject := some subject
  submitTime := some 132456789
  senderEmail := some "Sales@Example.com"
  bodyPreview := some "a|b"
  attachments := attachments

omit [Rust.Target] in
theorem contentHash_fields_iff_reply :
    let m₁ := offer "Re: Offer" [⟨"b;.txt", 2, false, none⟩, ⟨"A.txt", 1, false, none⟩]
    let m₂ := offer "offer " [⟨"a.txt", 1, false, none⟩, ⟨"B;.txt", 2, false, none⟩]
    @v1Fields .unix m₁ false = @v1Fields .unix m₂ false := by
  intro m₁ m₂
  have hpreimage : @v1Preimage .unix m₁ false = @v1Preimage .unix m₂ false := by decide +kernel
  apply (@contentHash_fields_iff .unix m₁ m₂ false false .fips (fun _ => hpreimage)
    (congrArg Sha256.fips.digest hpreimage)).mpr
  exact @SeparatorsAgree.mk .unix m₁ false m₂ false (by decide +kernel) (by decide +kernel)
    (by decide +kernel) (by decide +kernel)

omit [Rust.Target] in
theorem contentHash_subject_with_separators :
    let m₁ : MessageFields := { subject := some "a|1|b" }
    let m₂ : MessageFields := {
      subject := some "a", submitTime := some 1, senderEmail := some "b", bodyPreview := some "||" }
    @v1Preimage .unix m₁ false = @v1Preimage .unix m₂ false ∧
      @computeContentHash .unix .fips m₁ = @computeContentHash .unix .fips m₂ ∧
      @v1Fields .unix m₁ false ≠ @v1Fields .unix m₂ false := by
  intro m₁ m₂
  have hpreimage : @v1Preimage .unix m₁ false = @v1Preimage .unix m₂ false := by decide +kernel
  refine ⟨hpreimage, congrArg Sha256.fips.digest hpreimage, ?_⟩
  intro hfields
  have hsubmit := congrArg V1Fields.submitTime hfields
  cases hsubmit

end V1

/-- The extras of an identity level; a part the level leaves out is `none`. -/
structure StrongParts where
  bodySha256 : Option Bytes32
  bodyCharLen : Option Nat
  recipients : Option String
  attachDigests : Option (Multiset Bytes32)

section V2

variable [Sha256] {m₁ m₂ : MessageFields} {strong₁ strong₂ : StrongHashInput}
  {mid₁ mid₂ : Option String} {strong : StrongHashInput}

def strongParts (m : MessageFields) (strong : StrongHashInput) : StrongParts where
  bodySha256 := if strong.identity.includesBody then strong.bodySha256 else none
  bodyCharLen := if strong.identity.includesBody then strong.bodyCharLen else none
  recipients :=
    if strong.identity.includesRecipients then some (recipientStrongPreimage strong) else none
  attachDigests :=
    if strong.identity.includesAttachContent then
      some ((m.counted strong.ignoreInlineAttachments).map attachContentSlot)
    else none

omit [Rust.Target] [Sha256] in
theorem sep_notMem_lenText (len : Option Nat) :
    (0x7c : UInt8) ∉ Rust.bytes ((len.map Nat.repr).getD "") := by
  cases len with
  | none => exact not_mem_nil
  | some n =>
    intro hmem
    exact absurd (Rust.toNat_le_of_mem_bytes_repr hmem) (by decide)

omit [Rust.Target] [Sha256] in
theorem bodyPart_inj {sha sha' : Option Bytes32} {len len' : Option Nat} {rest rest' : List UInt8}
    (hsome : sha.isSome = sha'.isSome)
    (h : (sha.map Subtype.val).getD [] ++ 0x7c ::
        (Rust.bytes ((len.map Nat.repr).getD "") ++ 0x7c :: rest)
      = (sha'.map Subtype.val).getD [] ++ 0x7c ::
        (Rust.bytes ((len'.map Nat.repr).getD "") ++ 0x7c :: rest')) :
    sha = sha' ∧ len = len' ∧ rest = rest' := by
  have hsha : sha = sha' ∧ 0x7c :: (Rust.bytes ((len.map Nat.repr).getD "") ++ 0x7c :: rest)
      = 0x7c :: (Rust.bytes ((len'.map Nat.repr).getD "") ++ 0x7c :: rest') := by
    cases sha with
    | none =>
      cases sha' with
      | none => exact ⟨rfl, h⟩
      | some d' => cases hsome
    | some d =>
      cases sha' with
      | none => cases hsome
      | some d' =>
        obtain ⟨hd, hrest⟩ := append_inj h (d.2.trans d'.2.symm)
        exact ⟨congrArg some (Subtype.ext hd), hrest⟩
  obtain ⟨hsha, h⟩ := hsha
  obtain ⟨hlen, hrest⟩ := Foundations.sep_inj_of_notMem (sep_notMem_lenText len)
    (sep_notMem_lenText len') (cons.inj h).2
  exact ⟨hsha, getD_map_injective Rust.repr_injective Rust.repr_ne_empty (Rust.bytes_injective hlen), hrest⟩

omit [Rust.Target] [Sha256] in
theorem recipientPart_inj {recip recip' : String} {ds ds' : List Bytes32} (hlength : ds.length = ds'.length)
    (h : Rust.bytes recip ++ 0x7c :: terminated 0x3b (ds.map Subtype.val)
      = Rust.bytes recip' ++ 0x7c :: terminated 0x3b (ds'.map Subtype.val)) : recip = recip' ∧ ds = ds' := by
  have hwidth : ∀ ds : List Bytes32, ∀ p ∈ ds.map Subtype.val, p.length = 32 := by
    intro ds p hp
    obtain ⟨d, _, rfl⟩ := List.mem_map.mp hp
    exact d.2
  have htail : (0x7c :: terminated 0x3b (ds.map Subtype.val)).length
      = ((0x7c : UInt8) :: terminated 0x3b (ds'.map Subtype.val)).length := by
    rw [length_cons, length_cons, Foundations.length_terminated (hwidth ds),
      Foundations.length_terminated (hwidth ds'), length_map, length_map, hlength]
  obtain ⟨hrecip, hds⟩ := append_inj' h htail
  have hvals := Foundations.terminated_inj_of_width (hwidth ds) (hwidth ds') (cons.inj hds).2
  exact ⟨Rust.bytes_injective hrecip, List.map_injective_iff.mpr Subtype.val_injective hvals⟩

theorem length_attachDigests (m : MessageFields) (ignore : Bool) :
    (attachDigests m ignore).length = (m.counted ignore).length := by
  unfold attachDigests
  rw [(Rust.sortBy_perm _ _).length_eq, length_map]

def strongTail (m : MessageFields) (strong : StrongHashInput) : List UInt8 :=
  (if strong.identity.includesRecipients then
    Rust.bytes (recipientStrongPreimage strong) ++ Rust.bytes "|"
  else []) ++ (if strong.identity.includesAttachContent then
    (attachDigests m strong.ignoreInlineAttachments).flatMap fun d => d.1 ++ Rust.bytes ";"
  else [])

theorem strongExtras_eq (m : MessageFields) (hstrong : strong.identity.isStrong = true) :
    strongExtras m strong = Rust.bytes "|v2|" ++ ((strong.bodySha256.map Subtype.val).getD [] ++
      0x7c :: (Rust.bytes ((strong.bodyCharLen.map Nat.repr).getD "") ++ 0x7c ::
        strongTail m strong)) := by
  have hbar : Rust.bytes "|" = [0x7c] := by decide +kernel
  unfold strongExtras strongTail
  rw [show strong.identity.includesBody = true from hstrong, hbar]
  simp

theorem strongTail_recip {m : MessageFields} (hid : strong.identity = .bodyRecip) :
    strongTail m strong = Rust.bytes (recipientStrongPreimage strong) ++
      0x7c :: terminated 0x3b (([] : List Bytes32).map Subtype.val) := by
  have hbar : Rust.bytes "|" = [0x7c] := by decide +kernel
  unfold strongTail
  simp [hid, IdentityLevel.includesRecipients, IdentityLevel.includesAttachContent, hbar, terminated]

theorem strongTail_attach {m : MessageFields} (hid : strong.identity = .bodyRecipAttach) :
    strongTail m strong = Rust.bytes (recipientStrongPreimage strong) ++ 0x7c :: terminated 0x3b
        ((attachDigests m strong.ignoreInlineAttachments).map Subtype.val) := by
  have hbar : Rust.bytes "|" = [0x7c] := by decide +kernel
  have hsemi : Rust.bytes ";" = [0x3b] := by decide +kernel
  unfold strongTail
  simp [hid, IdentityLevel.includesRecipients, IdentityLevel.includesAttachContent, hbar, hsemi, terminated]

theorem strongParts_of_extras (hlevel : strong₁.identity = strong₂.identity)
    (hstrong : strong₁.identity.isStrong = true)
    (hbody : strong₁.bodySha256.isSome = strong₂.bodySha256.isSome)
    (hattach : strong₁.identity.includesAttachContent = true →
      (m₁.counted strong₁.ignoreInlineAttachments).length
        = (m₂.counted strong₂.ignoreInlineAttachments).length)
    (h : strongExtras m₁ strong₁ = strongExtras m₂ strong₂) :
    strongParts m₁ strong₁ = strongParts m₂ strong₂ := by
  rw [strongExtras_eq m₁ hstrong, strongExtras_eq m₂ (hlevel ▸ hstrong)] at h
  obtain ⟨hsha, hlen, htail⟩ := bodyPart_inj hbody (append_cancel_left h)
  unfold strongParts
  rw [hsha, hlen, ← hlevel]
  cases hid : strong₁.identity with
  | off => rw [hid] at hstrong; cases hstrong
  | v1 => rw [hid] at hstrong; cases hstrong
  | body => rfl
  | bodyRecip =>
    rw [strongTail_recip hid, strongTail_recip (hlevel.symm.trans hid)] at htail
    obtain ⟨hrecip, _⟩ := recipientPart_inj rfl htail
    rw [hrecip]
    rfl
  | bodyRecipAttach =>
    rw [strongTail_attach hid, strongTail_attach (hlevel.symm.trans hid)] at htail
    have hlength : (attachDigests m₁ strong₁.ignoreInlineAttachments).length
        = (attachDigests m₂ strong₂.ignoreInlineAttachments).length := by
      rw [length_attachDigests, length_attachDigests, hattach (by rw [hid]; rfl)]
    obtain ⟨hrecip, hdigests⟩ := recipientPart_inj hlength htail
    have hperm : ((m₁.counted strong₁.ignoreInlineAttachments).map attachContentSlot).Perm
        ((m₂.counted strong₂.ignoreInlineAttachments).map attachContentSlot) :=
      (Rust.sortBy_perm _ _).symm.trans ((Perm.of_eq hdigests).trans (Rust.sortBy_perm _ _))
    rw [hrecip, Multiset.coe_eq_coe.mpr hperm]

/-- **What one strong hash says about two messages.** Hashed at one strong level, they have one v1
hash and equal extras iff their v1 preimages are equally long, both or neither carry a body digest,
and at the attachment level equally many attachments count. -/
theorem strongHash_parts_iff (hlevel : strong₁.identity = strong₂.identity)
    (hstrong : strong₁.identity.isStrong = true)
    (hsha : CollisionFree (strongPreimage m₁ strong₁) (strongPreimage m₂ strong₂))
    (hv1 : CollisionFree (v1Preimage m₁ strong₁.ignoreInlineAttachments)
      (v1Preimage m₂ strong₂.ignoreInlineAttachments))
    (h : (computeDedupKeysEx mid₁ m₁ strong₁).strongContentHash
      = (computeDedupKeysEx mid₂ m₂ strong₂).strongContentHash) :
    ((computeDedupKeysEx mid₁ m₁ strong₁).contentHash
        = (computeDedupKeysEx mid₂ m₂ strong₂).contentHash ∧ strongParts m₁ strong₁ = strongParts m₂ strong₂) ↔
    ((v1Preimage m₁ strong₁.ignoreInlineAttachments).length
        = (v1Preimage m₂ strong₂.ignoreInlineAttachments).length ∧
      strong₁.bodySha256.isSome = strong₂.bodySha256.isSome ∧ (strong₁.identity.includesAttachContent = true →
        (m₁.counted strong₁.ignoreInlineAttachments).length
          = (m₂.counted strong₂.ignoreInlineAttachments).length)) := by
  constructor
  · rintro ⟨hcontent, hparts⟩
    refine ⟨congrArg length (hv1 hcontent), ?_, ?_⟩
    · have hsame := congrArg StrongParts.bodySha256 hparts
      unfold strongParts at hsame
      simp only [← hlevel, show strong₁.identity.includesBody = true from hstrong, if_true] at hsame
      rw [hsame]
    · intro hon
      have hsame := congrArg StrongParts.attachDigests hparts
      unfold strongParts at hsame
      simp only [← hlevel, hon, if_true, Option.some.injEq] at hsame
      simpa using congrArg Multiset.card hsame
  · rintro ⟨hlength, hbody, hattach⟩
    have hdigest : Sha256.digest (strongPreimage m₁ strong₁)
        = Sha256.digest (strongPreimage m₂ strong₂) := by
      unfold computeDedupKeysEx at h
      simp only [hstrong, ← hlevel, if_true, Option.some.injEq] at h
      exact h
    obtain ⟨hpreimage, hextras⟩ := append_inj (hsha hdigest) hlength
    exact ⟨congrArg Sha256.digest hpreimage, strongParts_of_extras hlevel hstrong hbody hattach hextras⟩

omit [Rust.Target] [Sha256] in
theorem strongHash_parts_iff_recipient_order :
    let attachment : AttachmentInfo := ⟨"a.txt", 1, false, some (Bytes32.fill 7)⟩
    let m₁ := offer "Re: Offer" [attachment]
    let m₂ := offer "offer" [attachment]
    let strong : StrongHashInput := {
      identity := .bodyRecipAttach, bodySha256 := some (Bytes32.fill 3), bodyCharLen := some 3 }
    let strong₁ := { strong with displayTo := some "b@y.com; A@x.com" }
    let strong₂ := { strong with displayTo := some "a@x.com;b@y.com" }
    @strongParts .unix .fips m₁ strong₁ = @strongParts .unix .fips m₂ strong₂ := by
  intro attachment m₁ m₂ strong strong₁ strong₂
  have hv1 : @v1Preimage .unix m₁ false = @v1Preimage .unix m₂ false := by decide +kernel
  have hstrong : @strongPreimage .unix .fips m₁ strong₁ = @strongPreimage .unix .fips m₂ strong₂ := by
    decide +kernel
  refine ((@strongHash_parts_iff .unix .fips m₁ m₂ strong₁ strong₂ none none rfl rfl
    (fun _ => hstrong) (fun _ => hv1)
    (congrArg (fun p => some (Sha256.fips.digest p)) hstrong)).mpr ?_).2
  exact ⟨by rw [hv1], rfl, fun _ => rfl⟩

omit [Rust.Target] [Sha256] in
theorem strongHash_recipient_with_separators :
    let m₁ : MessageFields := {}
    let strong₁ : StrongHashInput := { identity := .bodyRecip, displayTo := some "a:1;|v2|||" }
    let m₂ : MessageFields := { attachments := [⟨"|v2|||a", 1, false, none⟩] }
    let strong₂ : StrongHashInput := { identity := .bodyRecip }
    let keys₁ := @computeDedupKeysEx .unix .fips none m₁ strong₁
    let keys₂ := @computeDedupKeysEx .unix .fips none m₂ strong₂
    @strongPreimage .unix .fips m₁ strong₁ = @strongPreimage .unix .fips m₂ strong₂ ∧
      keys₁.strongContentHash = keys₂.strongContentHash ∧ keys₁.contentHash ≠ keys₂.contentHash ∧
      @recipientStrongPreimage .unix strong₁ ≠ @recipientStrongPreimage .unix strong₂ := by
  intro m₁ strong₁ m₂ strong₂ keys₁ keys₂
  have hstrong : @strongPreimage .unix .fips m₁ strong₁ = @strongPreimage .unix .fips m₂ strong₂ := by
    decide +kernel
  exact ⟨hstrong,
    congrArg (fun p => some (Sha256.fips.digest p)) hstrong, by decide +kernel, by decide +kernel⟩

end V2

end DedupEngine
