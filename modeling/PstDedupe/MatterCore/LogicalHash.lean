import PstDedupe.Foundations.Separator
import PstDedupe.MatterCore.Audit
import PstDedupe.Rust.Paths
import PstDedupe.Rust.Text

/-!
# The desk logical hash (`matter-core/src/logical_hash.rs`)

The preimage of an email is a sequence of fields with their lengths, so a field cannot imitate the
next one. The text of a time in UTC is chrono's and a parameter (`Rfc3339`).
-/

namespace MatterCore

open Rust Foundations List

variable {s t : List UInt8}

class Rfc3339 where
  utcSecond : String → Option String

section Normalize

variable [Target] [Rfc3339]

def collapseChars : Bool → List Char → List Char
  | _, [] => []
  | prevSpace, c :: cs =>
    if isWhitespace c then if prevSpace then collapseChars true cs else ' ' :: collapseChars true cs
    else c :: collapseChars false cs

def collapseWhitespaceTrim (s : String) : String := trim (String.ofList (collapseChars false s.toList))

def normalizeMessageId (mid : String) : String :=
  Target.toLowercase (trim (trimEndMatches (trimStartWhere (· = '<') (trim mid)) '>'))

def normalizeSubjectStrict (subject : String) : String := collapseWhitespaceTrim (trim subject)

def normalizeAddress (addr : String) : String := Target.toLowercase (trim addr)

def normalizedAddresses (addrs : List String) : List String :=
  sortStrings ((addrs.map normalizeAddress).filter (· ≠ ""))

def normalizeAddressList (addrs : List String) : String := join "\n" (normalizedAddresses addrs)

def normalizeTimeUtcSecond (raw : String) : String :=
  let raw := trim raw
  if raw = "" then "" else (Rfc3339.utcSecond raw).getD ""

def looksLikeHtml (s : String) : Bool :=
  let lower := toAsciiLowercase s
  ["<html", "<body", "<div", "<p>", "<br", "<span"].any fun tag => Rust.contains lower tag

/-- The loop of `strip_html_tags_minimal`. -/
def stripTags : Bool → List Char → List Char
  | _, [] => []
  | inTag, c :: cs =>
    if c = '<' then stripTags true cs
    else if c = '>' then stripTags false cs
    else if inTag then stripTags inTag cs
    else c :: stripTags inTag cs

/-- `replace("\r\n", "\n").replace('\r', "\n")`. -/
def replaceBreaks : List Char → List Char
  | [] => []
  | [c] => if c = '\r' then ['\n'] else [c]
  | c :: d :: cs =>
    if c = '\r' then if d = '\n' then '\n' :: replaceBreaks cs else '\n' :: replaceBreaks (d :: cs)
    else c :: replaceBreaks (d :: cs)

def isZeroWidth (c : Char) : Bool := c.toNat ∈ [0x200B, 0x200C, 0x200D, 0xFEFF]

def normalizeBody (body : String) : String :=
  let text := if looksLikeHtml body then stripTags false body.toList else body.toList
  trim (String.ofList ((replaceBreaks text).filter fun c => !isZeroWidth c))

end Normalize

structure LogicalAttachment where
  filename : String
  size : Nat
  nativeSha256 : String

structure EmailLogicalInput where
  messageId : Option String := none
  subject : Option String := none
  fromAddr : Option String := none
  toAddrs : List String := []
  ccAddrs : List String := []
  bccAddrs : List String := []
  sent : Option String := none
  received : Option String := none
  body : Option String := none
  attachments : List LogicalAttachment := []

def writeLenField (tag payload : String) : List UInt8 :=
  bytes tag ++ 10 :: (bytes (Nat.repr (bytes payload).length) ++ 10 :: (bytes payload ++ [10]))

section Preimage

variable [Target] [Rfc3339]

/-- What is compared and framed of an attachment: the lowercased name, the size and the digest. -/
def LogicalAttachment.key (a : LogicalAttachment) : String × Nat × String :=
  (Target.toLowercase a.filename, a.size, a.nativeSha256)

/-- The comparison of `attachments.sort_by`. -/
def compareKeys (a b : String × Nat × String) : Ordering :=
  (compare a.1 b.1).then ((compare a.2.1 b.2.1).then (compare a.2.2 b.2.2))

def frameAttachment (key : String × Nat × String) : List UInt8 :=
  writeLenField "filename" key.1 ++
    (bytes "size\n" ++ (bytes (Nat.repr key.2.1) ++ 10 :: writeLenField "native_sha256" key.2.2))

namespace EmailLogicalInput

variable (input : EmailLogicalInput)

def messageIdText : String := (input.messageId.map normalizeMessageId).getD ""
def subjectText : String := (input.subject.map normalizeSubjectStrict).getD ""
def fromText : String := (input.fromAddr.map normalizeAddress).getD ""
def sentText : String := (input.sent.map normalizeTimeUtcSecond).getD ""
def receivedText : String := (input.received.map normalizeTimeUtcSecond).getD ""
def bodyText : String := (input.body.map normalizeBody).getD ""

/-- `email_logical_preimage`. -/
def preimage : List UInt8 :=
  let attachments := sortBy (fun a b => compareKeys a.key b.key) input.attachments
  bytes "v1\n" ++ (writeLenField "message_id" input.messageIdText ++ (writeLenField "subject" input.subjectText
    ++ (writeLenField "from" input.fromText ++ (writeLenField "to" (normalizeAddressList input.toAddrs)
    ++ (writeLenField "cc" (normalizeAddressList input.ccAddrs) ++
      (writeLenField "bcc" (normalizeAddressList input.bccAddrs)
    ++ (writeLenField "sent" input.sentText ++ (writeLenField "received" input.receivedText
    ++ (writeLenField "body" input.bodyText ++ (bytes "attachments\n" ++ (bytes (Nat.repr attachments.length)
    ++ 10 :: attachments.flatMap fun a => frameAttachment a.key)))))))))))

def logicalHash [Sha256] : String := sha256Hex input.preimage

end EmailLogicalInput

end Preimage

open EmailLogicalInput

structure EmailNormalForm where
  messageId : String
  subject : String
  fromAddr : String
  toAddrs : Multiset String
  ccAddrs : Multiset String
  bccAddrs : Multiset String
  sent : String
  received : String
  body : String
  attachments : Multiset (String × Nat × String)

section NormalForm

variable [Target]

def addressSet (addrs : List String) : Multiset String :=
  ((addrs.map normalizeAddress).filter (· ≠ "") : List String)

def EmailLogicalInput.normalForm [Rfc3339] (input : EmailLogicalInput) : EmailNormalForm where
  messageId := input.messageIdText
  subject := input.subjectText
  fromAddr := input.fromText
  toAddrs := addressSet input.toAddrs
  ccAddrs := addressSet input.ccAddrs
  bccAddrs := addressSet input.bccAddrs
  sent := input.sentText
  received := input.receivedText
  body := input.bodyText
  attachments := (input.attachments.map LogicalAttachment.key : List (String × Nat × String))

def NewlinesAgree (addrs addrs' : List String) : Prop :=
  (normalizedAddresses addrs).map (fun a => a.toList.count '\n')
    = (normalizedAddresses addrs').map fun a => a.toList.count '\n'

/-- The address lists hold as many newlines, address by address. -/
structure AddressesAgree (x y : EmailLogicalInput) : Prop where
  toAddrs : NewlinesAgree x.toAddrs y.toAddrs
  ccAddrs : NewlinesAgree x.ccAddrs y.ccAddrs
  bccAddrs : NewlinesAgree x.bccAddrs y.bccAddrs

/-- Two inputs agree in all but their addresses, and their address lists are joined to the same
texts. -/
structure SameFrame [Rfc3339] (x y : EmailLogicalInput) : Prop where
  rest : { x.normalForm with toAddrs := 0, ccAddrs := 0, bccAddrs := 0 }
    = { y.normalForm with toAddrs := 0, ccAddrs := 0, bccAddrs := 0 }
  toAddrs : normalizeAddressList x.toAddrs = normalizeAddressList y.toAddrs
  ccAddrs : normalizeAddressList x.ccAddrs = normalizeAddressList y.ccAddrs
  bccAddrs : normalizeAddressList x.bccAddrs = normalizeAddressList y.bccAddrs

end NormalForm

theorem newline_notMem_repr (n : Nat) : 10 ∉ bytes (Nat.repr n) := by
  intro hmem
  obtain ⟨c, hc, hnat⟩ := mem_bytes_ascii hmem (by decide)
  have hdigit := isDigit_of_mem_repr hc
  unfold Char.isDigit at hdigit
  rw [Bool.and_eq_true, decide_eq_true_iff, decide_eq_true_iff] at hdigit
  have hlow : 48 ≤ c.toNat := hdigit.1
  have hten : c.toNat = 10 := hnat
  omega

theorem decimalLine_inj {m n : Nat}
    (h : bytes (Nat.repr m) ++ 10 :: s = bytes (Nat.repr n) ++ 10 :: t) : m = n ∧ s = t := by
  obtain ⟨hnum, hrest⟩ := sep_inj_of_notMem (newline_notMem_repr m) (newline_notMem_repr n) h
  exact ⟨repr_injective (bytes_injective hnum), hrest⟩

theorem writeLenField_inj {tag p q : String}
    (h : writeLenField tag p ++ s = writeLenField tag q ++ t) : p = q ∧ s = t := by
  unfold writeLenField at h
  simp only [append_assoc, cons_append, append_cancel_left_eq, List.cons.injEq, true_and] at h
  obtain ⟨hlen, hrest⟩ := decimalLine_inj h
  obtain ⟨hpayload, htail⟩ := append_inj hrest hlen
  exact ⟨bytes_injective hpayload, (List.cons.inj htail).2⟩

theorem frameAttachment_inj {a b : String × Nat × String}
    (h : frameAttachment a ++ s = frameAttachment b ++ t) : a = b ∧ s = t := by
  unfold frameAttachment at h
  simp only [append_assoc] at h
  obtain ⟨hname, hsize⟩ := writeLenField_inj h
  simp only [append_cancel_left_eq, cons_append] at hsize
  obtain ⟨hsize, hdigest⟩ := decimalLine_inj hsize
  obtain ⟨hdigest, hrest⟩ := writeLenField_inj hdigest
  exact ⟨Prod.ext hname (Prod.ext hsize hdigest), hrest⟩

theorem frames_inj {as bs : List (String × Nat × String)} (hlen : as.length = bs.length)
    (h : as.flatMap frameAttachment = bs.flatMap frameAttachment) : as = bs := by
  induction as generalizing bs with
  | nil => exact (List.length_eq_zero_iff.mp hlen.symm).symm
  | cons a as ih =>
    cases bs with
    | nil => cases hlen
    | cons b bs =>
      rw [flatMap_cons, flatMap_cons] at h
      obtain ⟨rfl, hrest⟩ := frameAttachment_inj h
      rw [ih (Nat.succ.inj hlen) hrest]

theorem join_inj_of_counts {sep : String} {c : Char} (hsep : sep.toList = [c]) {names names' : List String}
    (hcounts : names.map (fun s => s.toList.count c) = names'.map fun s => s.toList.count c)
    (h : join sep names = join sep names') : names = names' := by
  induction names generalizing names' with
  | nil => exact (List.map_eq_nil_iff.mp hcounts.symm).symm
  | cons s rest ih =>
    cases names' with
    | nil => cases hcounts
    | cons s' rest' =>
      rw [map_cons, map_cons, List.cons.injEq] at hcounts
      obtain ⟨hcount, hcounts⟩ := hcounts
      cases rest with
      | nil =>
        rw [List.map_eq_nil_iff.mp hcounts.symm] at h ⊢
        exact congrArg (· :: []) h
      | cons t rest =>
        cases rest' with
        | nil => cases hcounts
        | cons t' rest' =>
          have hchars := congrArg String.toList h
          rw [join_cons_cons, join_cons_cons] at hchars
          simp only [String.toList_append, hsep, append_assoc, singleton_append] at hchars
          obtain ⟨hname, hrest⟩ := sep_inj hcount hchars
          rw [String.toList_inj.mp hname, ih hcounts (String.toList_inj.mp hrest)]

section Addresses

variable [Target] {addrs addrs' : List String}

theorem normalizedAddresses_eq_iff :
    normalizedAddresses addrs = normalizedAddresses addrs' ↔ addressSet addrs = addressSet addrs' := by
  unfold normalizedAddresses addressSet sortStrings
  rw [sortBy_eq_iff, Multiset.coe_eq_coe]

theorem addressSet_eq_iff : addressSet addrs = addressSet addrs' ↔
    normalizeAddressList addrs = normalizeAddressList addrs' ∧ NewlinesAgree addrs addrs' := by
  rw [← normalizedAddresses_eq_iff]
  constructor
  · intro h
    unfold normalizeAddressList NewlinesAgree
    rw [h]
    exact ⟨rfl, rfl⟩
  · rintro ⟨hjoin, hcounts⟩
    exact join_inj_of_counts rfl hcounts hjoin

end Addresses

instance : Std.TransCmp compareKeys :=
  inferInstanceAs (Std.TransCmp (compareLex (compareOn Prod.fst)
    (compareLex (compareOn fun k : String × Nat × String => k.2.1) (compareOn fun k => k.2.2))))

instance : Std.LawfulEqCmp compareKeys where
  eq_of_compare {a b} h := by
    simp only [compareKeys, Ordering.then_eq_eq, Std.LawfulEqCmp.compare_eq_iff_eq] at h
    exact Prod.ext h.1 (Prod.ext h.2.1 h.2.2)

section Identity

variable [Target] [Rfc3339] {x y : EmailLogicalInput}

def EmailLogicalInput.framedKeys (input : EmailLogicalInput) : List (String × Nat × String) :=
  sortBy compareKeys (input.attachments.map LogicalAttachment.key)

theorem framedKeys_eq_iff :
    x.framedKeys = y.framedKeys ↔ x.normalForm.attachments = y.normalForm.attachments := by
  unfold framedKeys normalForm
  rw [sortBy_eq_iff, Multiset.coe_eq_coe]

theorem preimage_eq (input : EmailLogicalInput) : input.preimage =
    bytes "v1\n" ++ (writeLenField "message_id" input.messageIdText
    ++ (writeLenField "subject" input.subjectText ++ (writeLenField "from" input.fromText
    ++ (writeLenField "to" (normalizeAddressList input.toAddrs)
    ++ (writeLenField "cc" (normalizeAddressList input.ccAddrs)
    ++ (writeLenField "bcc" (normalizeAddressList input.bccAddrs)
    ++ (writeLenField "sent" input.sentText ++ (writeLenField "received" input.receivedText
    ++ (writeLenField "body" input.bodyText ++ (bytes "attachments\n"
    ++ (bytes (Nat.repr input.framedKeys.length)
    ++ 10 :: input.framedKeys.flatMap frameAttachment))))))))))) := by
  unfold preimage framedKeys
  rw [← map_sortBy, length_map, flatMap_map]

theorem preimage_eq_iff : x.preimage = y.preimage ↔ SameFrame x y := by
  constructor
  · intro h
    rw [preimage_eq, preimage_eq, append_cancel_left_eq] at h
    obtain ⟨hmid, h⟩ := writeLenField_inj h
    obtain ⟨hsubject, h⟩ := writeLenField_inj h
    obtain ⟨hfrom, h⟩ := writeLenField_inj h
    obtain ⟨hto, h⟩ := writeLenField_inj h
    obtain ⟨hcc, h⟩ := writeLenField_inj h
    obtain ⟨hbcc, h⟩ := writeLenField_inj h
    obtain ⟨hsent, h⟩ := writeLenField_inj h
    obtain ⟨hreceived, h⟩ := writeLenField_inj h
    obtain ⟨hbody, h⟩ := writeLenField_inj h
    rw [append_cancel_left_eq] at h
    obtain ⟨hcount, h⟩ := decimalLine_inj h
    have hattachments := framedKeys_eq_iff.mp (frames_inj hcount h)
    refine ⟨?_, hto, hcc, hbcc⟩
    rw [EmailNormalForm.mk.injEq]
    exact ⟨hmid, hsubject, hfrom, rfl, rfl, rfl, hsent, hreceived, hbody, hattachments⟩
  · rintro ⟨hrest, hto, hcc, hbcc⟩
    rw [EmailNormalForm.mk.injEq] at hrest
    obtain ⟨hmid, hsubject, hfrom, -, -, -, hsent, hreceived, hbody, hattachments⟩ := hrest
    simp only [normalForm] at hmid hsubject hfrom hsent hreceived hbody
    rw [preimage_eq, preimage_eq, hmid, hsubject, hfrom, hto, hcc, hbcc, hsent, hreceived, hbody,
      framedKeys_eq_iff.mpr hattachments]

theorem normalForm_eq_iff : x.normalForm = y.normalForm ↔ SameFrame x y ∧ AddressesAgree x y := by
  constructor
  · intro h
    have hfields := h
    rw [EmailNormalForm.mk.injEq] at hfields
    obtain ⟨-, -, -, hto, hcc, hbcc, -⟩ := hfields
    have hto := addressSet_eq_iff.mp hto
    have hcc := addressSet_eq_iff.mp hcc
    have hbcc := addressSet_eq_iff.mp hbcc
    refine ⟨⟨?_, hto.1, hcc.1, hbcc.1⟩, ⟨hto.2, hcc.2, hbcc.2⟩⟩
    rw [h]
  · rintro ⟨hframe, hnewlines⟩
    have hrest := hframe.rest
    rw [EmailNormalForm.mk.injEq] at hrest
    obtain ⟨hmid, hsubject, hfrom, -, -, -, hsent, hreceived, hbody, hattachments⟩ := hrest
    have hto := addressSet_eq_iff.mpr ⟨hframe.toAddrs, hnewlines.toAddrs⟩
    have hcc := addressSet_eq_iff.mpr ⟨hframe.ccAddrs, hnewlines.ccAddrs⟩
    have hbcc := addressSet_eq_iff.mpr ⟨hframe.bccAddrs, hnewlines.bccAddrs⟩
    rw [EmailNormalForm.mk.injEq]
    exact ⟨hmid, hsubject, hfrom, hto, hcc, hbcc, hsent, hreceived, hbody, hattachments⟩

theorem logicalHash_eq_iff [Sha256] (hsha : CollisionFree x.preimage y.preimage) :
    x.logicalHash = y.logicalHash ↔ SameFrame x y := by
  rw [← preimage_eq_iff]
  constructor
  · intro h
    exact hsha (digest_eq_of_sha256Hex h)
  · exact congrArg sha256Hex

/-- **When the logical hash identifies the content**: unless two inputs of one frame differ in the
newlines inside an address. -/
theorem logicalHash_identity_iff [Sha256] (hsha : CollisionFree x.preimage y.preimage) :
    (x.logicalHash = y.logicalHash ↔ x.normalForm = y.normalForm)
      ↔ (SameFrame x y → AddressesAgree x y) := by
  rw [logicalHash_eq_iff hsha, normalForm_eq_iff]
  constructor
  · intro h hframe
    exact (h.mp hframe).2
  · intro h
    exact ⟨fun hframe => ⟨hframe, h hframe⟩, And.left⟩

end Identity

/-- One message exported twice, the addresses and the attachments in another order. -/
theorem logicalHash_identity_iff_of_orders :
    let x : EmailLogicalInput := {
      subject := some "Offer", toAddrs := ["b@x.org", "A@x.org "]
      attachments := [⟨"b.txt", 2, "02"⟩, ⟨"a.txt", 1, "01"⟩] }
    let y : EmailLogicalInput := {
      subject := some " Offer", toAddrs := ["a@X.org", "", "b@x.org"]
      attachments := [⟨"A.txt", 1, "01"⟩, ⟨"b.txt", 2, "02"⟩] }
    @logicalHash .unix ⟨fun _ => none⟩ x .fips
        = @logicalHash .unix ⟨fun _ => none⟩ y .fips
      ↔ @normalForm .unix ⟨fun _ => none⟩ x
        = @normalForm .unix ⟨fun _ => none⟩ y := by
  intro x y
  have hpreimage : @preimage .unix ⟨fun _ => none⟩ x
      = @preimage .unix ⟨fun _ => none⟩ y := by decide +kernel
  apply (@logicalHash_identity_iff .unix ⟨fun _ => none⟩ x y .fips fun _ => hpreimage).mpr
  intro _
  exact @AddressesAgree.mk .unix x y (by unfold NewlinesAgree; decide +kernel)
    (by unfold NewlinesAgree; decide +kernel) (by unfold NewlinesAgree; decide +kernel)

theorem logicalHash_address_with_newline :
    let x : EmailLogicalInput := { toAddrs := ["a\nb"] }
    let y : EmailLogicalInput := { toAddrs := ["a", "b"] }
    @logicalHash .unix ⟨fun _ => none⟩ x .fips
        = @logicalHash .unix ⟨fun _ => none⟩ y .fips
      ∧ @normalForm .unix ⟨fun _ => none⟩ x
        ≠ @normalForm .unix ⟨fun _ => none⟩ y := by
  intro x y
  constructor
  · have hpreimage : @preimage .unix ⟨fun _ => none⟩ x
        = @preimage .unix ⟨fun _ => none⟩ y := by decide +kernel
    exact congrArg (@sha256Hex .fips) hpreimage
  · intro h
    have hcard := congrArg (fun form => form.toAddrs.card) h
    revert hcard
    decide +kernel

end MatterCore
