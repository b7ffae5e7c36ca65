import PstDedupe.DedupEngine.EmlPack
import PstDedupe.Foundations.Base64
import PstDedupe.Foundations.Multipart

/-!
# The texts the EML writer is made of

Base64 comes in two forms, wrapped in memory or from a stream; without line breaks both are the
encoding of the bytes.
-/

namespace DedupEngine.EmlPack

open Rust Foundations List

theorem base64Symbol_eq (n : Nat) : base64Symbol n = Base64.symbol (n % 64) := by
  have hall : ∀ i : Fin 64, base64Alphabet.getD i 0 = Base64.symbol i := by decide +kernel
  unfold base64Symbol
  rw [show (0x3F : Nat) = 2 ^ 6 - 1 from rfl, Nat.and_two_pow_sub_one_eq_mod]
  exact hall ⟨n % 64, Nat.mod_lt n (by decide)⟩

theorem triple_eq {b0 b1 b2 : Nat} (h1 : b1 < 256) (h2 : b2 < 256) :
    (b0 <<< 16) ||| (b1 <<< 8) ||| b2 = b0 * 65536 + b1 * 256 + b2 := by
  have hhigh : (b0 <<< 16) ||| (b1 <<< 8) = 2 ^ 8 * (2 ^ 8 * b0 + b1) := by
    rw [Nat.shiftLeft_eq, Nat.shiftLeft_eq, Nat.mul_comm b0, ← Nat.two_pow_add_eq_or_of_lt (by omega)]
    omega
  rw [hhigh, ← Nat.two_pow_add_eq_or_of_lt (by omega)]
  omega

theorem base64EncodeChunk_eq (chunk : Bytes) (n : Nat)
    (hn : (chunk.getD 0 0).toNat * 65536 + (chunk.getD 1 0).toNat * 256 + (chunk.getD 2 0).toNat = n) :
    base64EncodeChunk chunk = [Base64.symbol (n / 262144 % 64), Base64.symbol (n / 4096 % 64),
      if chunk.length > 1 then Base64.symbol (n / 64 % 64) else 61,
      if chunk.length > 2 then Base64.symbol (n % 64) else 61] := by
  unfold base64EncodeChunk
  dsimp only
  rw [triple_eq (UInt8.toNat_lt _) (UInt8.toNat_lt _), hn]
  simp only [base64Symbol_eq, Nat.shiftRight_eq_div_pow]

theorem base64Encode_eq (data : Bytes) : base64Encode data = Base64.encode data := by
  induction data using Base64.encode.induct with
  | case1 => rfl
  | case2 a =>
    show base64EncodeChunk [a] ++ [] = _
    rw [base64EncodeChunk_eq [a] (a.toNat * 65536) (by simp)]
    simp [Base64.encode, Base64.symbols, Base64.pad]
  | case3 a b =>
    show base64EncodeChunk [a, b] ++ [] = _
    rw [base64EncodeChunk_eq [a, b] (a.toNat * 65536 + b.toNat * 256) (by simp)]
    simp [Base64.encode, Base64.symbols, Base64.pad]
  | case4 a b c rest ih =>
    have hchunks : chunks 3 (a :: b :: c :: rest) = [a, b, c] :: chunks 3 rest :=
      chunks_of_ne_nil (by decide) (cons_ne_nil _ _)
    unfold base64Encode at ih ⊢
    rw [hchunks, flatMap_cons, ih, Base64.encode,
      base64EncodeChunk_eq [a, b, c] (a.toNat * 65536 + b.toNat * 256 + c.toNat) rfl]
    simp [Base64.symbols]

def unbroken (text : Bytes) : Bytes := text.filter fun c => c ≠ 13 && c ≠ 10

theorem unbroken_append (a b : Bytes) : unbroken (a ++ b) = unbroken a ++ unbroken b :=
  filter_append ..

theorem unbroken_crlf : unbroken crlf = [] := rfl

theorem unbroken_encode (data : Bytes) : unbroken (Base64.encode data) = Base64.encode data := by
  refine List.filter_eq_self.mpr fun c hc => ?_
  have hrange := (Base64.mem_encode hc).2
  rw [Bool.and_eq_true, decide_eq_true_iff, decide_eq_true_iff]
  constructor
  · rintro rfl
    exact absurd hrange.1 (by decide)
  · rintro rfl
    exact absurd hrange.1 (by decide)

theorem unbroken_base64EncodeChunked (data : Bytes) :
    unbroken (base64EncodeChunked data) = Base64.encode data := by
  have hflat : ∀ lines : List Bytes, unbroken (lines.flatMap (· ++ crlf)) = unbroken lines.flatten := by
    intro lines
    induction lines with
    | nil => rfl
    | cons l lines ih =>
      rw [flatMap_cons, flatten_cons, unbroken_append, unbroken_append, unbroken_append,
        unbroken_crlf, append_nil, ih]
  unfold base64EncodeChunked
  rw [hflat, flatten_chunks (by decide), base64Encode_eq, unbroken_encode]

def NoControl (s : String) : Prop := ∀ c ∈ s.toList, isControl c = false

-- over the characters of `s`, not over all characters
instance (s : String) : Decidable (NoControl s) := decidableBAll _ s.toList

namespace NoControl

variable {s t : String}

theorem append (hs : NoControl s) (ht : NoControl t) : NoControl (s ++ t) := by
  intro c hc
  rw [String.toList_append] at hc
  rcases List.mem_append.mp hc with hc | hc
  · exact hs c hc
  · exact ht c hc

theorem sanitizeHeaderValue (s : String) : NoControl (sanitizeHeaderValue s) := by
  intro c hc
  unfold EmlPack.sanitizeHeaderValue at hc
  rw [String.toList_ofList] at hc
  simpa using (List.mem_filter.mp hc).2

theorem of_range (h : ∀ c ∈ s.toList, 32 ≤ c.toNat ∧ c.toNat < 127) : NoControl s := by
  intro c hc
  have hrange := h c hc
  unfold isControl
  rw [Bool.or_eq_false_iff, decide_eq_false_iff_not, Bool.and_eq_false_iff, decide_eq_false_iff_not]
  omega

theorem encodeHeaderValue (s : String) : NoControl (encodeHeaderValue s) := by
  unfold EmlPack.encodeHeaderValue
  dsimp only
  split
  · exact NoControl.sanitizeHeaderValue s
  · refine (NoControl.append (by decide) (of_range ?_)).append (by decide)
    intro c hc
    rw [String.toList_ofList, base64Encode_eq] at hc
    obtain ⟨b, hb, rfl⟩ := List.mem_map.mp hc
    have hrange := (Base64.mem_encode hb).2
    have hall : ∀ n : Fin 128, (Char.ofNat n).toNat = n := by decide
    have hnat : (Char.ofNat b.toNat).toNat = b.toNat := hall ⟨b.toNat, by omega⟩
    omega

theorem hexLower (n : Nat) : NoControl (hexLower n) := by
  refine of_range fun c hc => ?_
  unfold EmlPack.hexLower at hc
  rw [String.toList_ofList] at hc
  have hall : ∀ c ∈ "0123456789abcdef".toList, 32 ≤ c.toNat ∧ c.toNat < 127 :=
    List.all_iff_forall_prop.mp (by decide)
  exact hall c (mem_hexDigits hc)

theorem repr (n : Nat) : NoControl (Nat.repr n) := by
  refine of_range fun c hc => ?_
  have hdigit := isDigit_of_mem_repr hc
  unfold Char.isDigit at hdigit
  rw [Bool.and_eq_true, decide_eq_true_iff, decide_eq_true_iff] at hdigit
  have hlow : 48 ≤ c.toNat := hdigit.1
  have hhigh : c.toNat ≤ 57 := hdigit.2
  omega

theorem makeBoundary {kind : String} (h : NoControl kind) (nid depth : Nat) :
    NoControl (makeBoundary kind nid depth) := by
  unfold EmlPack.makeBoundary
  exact ((((((append (by decide) h).append (by decide)).append (hexLower nid)).append (by decide)).append
    (repr depth)).append (by decide))

theorem cr_notMem (h : NoControl s) : 13 ∉ bytes s := by
  intro hmem
  obtain ⟨c, hc, hnat⟩ := mem_bytes_ascii hmem (by decide)
  have hcontrol := h c hc
  unfold isControl at hcontrol
  rw [hnat] at hcontrol
  exact absurd hcontrol (by decide)

end NoControl

def fieldNames : List String :=
  ["Message-ID: ", "Subject: ", "From: ", "To: ", "Cc: ", "Bcc: ", "Date: ", "X-Pst-Dedupe-Source: ",
    "X-Pst-Dedupe-Folder: ", "X-Pst-Dedupe-Nid: ", "X-Pst-Dedupe-Edrm-Mih: ", "X-Pst-Dedupe-Degraded: ",
    "X-Pst-Dedupe-Body-Incomplete: "]

def HeaderField (h : String) : Prop := ∃ name ∈ fieldNames, ∃ value, NoControl value ∧ h = name ++ value

theorem HeaderField.mk {name value : String} (hname : name ∈ fieldNames)
    (hvalue : NoControl value) : HeaderField (name ++ value) := ⟨name, hname, value, hvalue, rfl⟩

theorem headerField_of_optHeader {name : String} (hname : name ∈ fieldNames)
    {value : Option String} : ∀ h ∈ optHeader name value, HeaderField h := by
  intro h hh
  obtain ⟨v, _, rfl⟩ := Option.map_eq_some_iff.mp (Option.mem_toList.mp hh)
  exact .mk hname (.sanitizeHeaderValue v)

theorem headerField_of_messageIdHeader {messageId : Option String} :
    ∀ h ∈ messageIdHeader messageId, HeaderField h := by
  intro h hh
  obtain ⟨v, _, rfl⟩ := Option.map_eq_some_iff.mp (Option.mem_toList.mp hh)
  dsimp only
  split
  · exact .mk (by decide) (.sanitizeHeaderValue _)
  · refine ⟨"Message-ID: ", by decide, "<" ++ sanitizeHeaderValue (trim v) ++ ">", ?_, ?_⟩
    · exact (NoControl.append (by decide) (.sanitizeHeaderValue _)).append (by decide)
    · rw [← String.append_assoc, ← String.append_assoc]
      rfl

theorem headerField_of_nid (nid : Nat) : HeaderField ("X-Pst-Dedupe-Nid: 0x" ++ hexLower nid) := by
  refine ⟨"X-Pst-Dedupe-Nid: ", by decide, "0x" ++ hexLower nid, .append (by decide) (.hexLower nid), ?_⟩
  rw [← String.append_assoc]
  rfl

variable [Chrono] in
theorem headerField_of_headerLines (msg : CanonicalMessage) (nested : Bool) :
    ∀ h ∈ headerLines msg nested, HeaderField h := by
  intro h hh
  unfold headerLines at hh
  rcases List.mem_append.mp hh with hh | htail
  · rcases List.mem_append.mp hh with hh | hdate
    · simp only [mem_append, mem_singleton] at hh
      rcases hh with ((((hh | rfl) | hh) | hh) | hh) | hh
      · exact headerField_of_messageIdHeader h hh
      · exact .mk (by decide) (.encodeHeaderValue _)
      · exact headerField_of_optHeader (by decide) h hh
      · exact headerField_of_optHeader (by decide) h hh
      · exact headerField_of_optHeader (by decide) h hh
      · exact headerField_of_optHeader (by decide) h hh
    · obtain ⟨text, htext, rfl⟩ := Option.map_eq_some_iff.mp (Option.mem_toList.mp hdate)
      obtain ⟨ft, _, hformat⟩ := Option.bind_eq_some_iff.mp htext
      exact .mk (by decide) fun c hc => Chrono.no_control hformat c hc
  · split at htail
    · split at htail
      · rw [List.mem_singleton.mp htail]
        exact headerField_of_nid _
      · cases htail
    · simp only [mem_append, mem_cons, not_mem_nil, or_false] at htail
      rcases htail with (((rfl | rfl | rfl) | hh) | hh) | rfl
      · exact .mk (by decide) (.sanitizeHeaderValue _)
      · exact .mk (by decide) (.sanitizeHeaderValue _)
      · exact headerField_of_nid _
      · exact headerField_of_optHeader (by decide) h hh
      · split at hh
        · rw [List.mem_singleton.mp hh]
          refine .mk (by decide) fun c hc => ?_
          rcases mem_join hc with hc | ⟨reason, hreason, hc⟩
          · rw [List.mem_singleton.mp hc]
            decide
          · obtain ⟨r, _, rfl⟩ := List.mem_map.mp hreason
            exact NoControl.sanitizeHeaderValue _ c hc
        · cases hh
      · refine .mk (by decide) ?_
        split
        · decide
        · decide

def base64Line : Bytes := bytes "Content-Transfer-Encoding: base64"

def lowerByte (b : UInt8) : UInt8 := if 65 ≤ b ∧ b ≤ 90 then b + 32 else b

/-- A media type `multipart/…`, after blanks and in any case (RFC 2045). -/
def MultipartType (value : Bytes) : Prop :=
  bytes "multipart/" <+: (value.dropWhile (· = 32)).map lowerByte

instance (value : Bytes) : Decidable (MultipartType value) :=
  inferInstanceAs (Decidable (_ <+: _))

def declaredBoundary (line : Bytes) : Option Bytes :=
  if bytes "content-type:" <+: line.map lowerByte ∧ MultipartType (line.drop 13) then
    some ((line.dropWhile (· ≠ 34)).tail.takeWhile (· ≠ 34))
  else none

local instance lawfulLine : LawfulBEq Bytes := inferInstance

def mimeReader : HeaderReader where
  boundary header := header.findSome? declaredBoundary
  decode header content := if base64Line ∈ header then Base64.decodeLines content else some content

def fixedLines : List String :=
  "MIME-Version: 1.0" :: "Content-Type: message/rfc822" :: (plainHeader ++ htmlHeader)

theorem bytes_fixedLines : ∀ l ∈ fixedLines, (∃ c ∈ (bytes l).head?, c ≠ 45) ∧
    bytes l ≠ base64Line ∧ declaredBoundary (bytes l) = none ∧ 13 ∉ bytes l := by
  decide +kernel

theorem bytes_fieldNames : ∀ name ∈ fieldNames, (∃ c ∈ (bytes name).head?, c ≠ 45) ∧
    2 ≤ (bytes name).length ∧ ((bytes name).take 2).map lowerByte ≠ [99, 111] := by
  decide +kernel

theorem bytes_boundaryTexts :
    (∀ t ∈ ["alternative", "alt", "mixed", "----=_PstDedupe_", "Content-Type: ", "multipart/"], 34 ∉ bytes t) ∧
    (bytes "; boundary=\"" = (bytes "; boundary=\"").take 11 ++ [34] ∧ 34 ∉ (bytes "; boundary=\"").take 11) ∧
    (bytes "mixed" = 109 :: (bytes "mixed").drop 1 ∧ bytes "alt" = 97 :: (bytes "alt").drop 1) ∧
    (bytes "Content-Type: multipart/" = 67 :: (bytes "Content-Type: multipart/").drop 1 ∧
      bytes "Content-Type: " = 67 :: (bytes "Content-Type: ").drop 1) ∧
    (declaredBoundary base64Line = none ∧ (∃ c ∈ base64Line.head?, c ≠ 45) ∧ 13 ∉ base64Line ∧
      99 :: 111 :: (base64Line.map lowerByte).drop 2 <+: base64Line.map lowerByte) ∧
    (bytes "content-type:" <+: (bytes "Content-Type: ").map lowerByte ∧ MultipartType (bytes "multipart/") ∧
      (bytes "Content-Type: ").drop 13 = [32] ∧ (bytes "Content-Type: ").length = 14) := by
  decide +kernel

theorem headerLine_bytes {name value : String} {c : UInt8} {rest : Bytes}
    (hname : bytes name = c :: rest) (hc : c ≠ 45) : Entity.HeaderLine (bytes (name ++ value)) := by
  rw [bytes_append, hname]
  exact ⟨c, rest ++ bytes value, rfl, hc⟩

theorem MultipartType.append {value : Bytes} (h : MultipartType value) (rest : Bytes) :
    MultipartType (value ++ rest) := by
  unfold MultipartType at h ⊢
  rw [dropWhile_append, if_neg fun hnil => ?_, map_append]
  · exact h.trans (prefix_append _ _)
  · rw [List.isEmpty_iff.mp hnil] at h
    exact absurd (List.prefix_nil.mp h) (by decide)

theorem declaredBoundary_contentType (value : Bytes) : declaredBoundary (bytes "Content-Type: " ++ value)
      = if MultipartType value then some ((value.dropWhile (· ≠ 34)).tail.takeWhile (· ≠ 34)) else none := by
  obtain ⟨hname, _, hdrop, hlength⟩ := bytes_boundaryTexts.2.2.2.2.2
  have hquote : ∀ c ∈ bytes "Content-Type: ", decide (c ≠ 34) = true := by decide +kernel
  have hpre : bytes "content-type:" <+: (bytes "Content-Type: " ++ value).map lowerByte := by
    rw [map_append]
    exact hname.trans (prefix_append _ _)
  have htype : MultipartType ((bytes "Content-Type: " ++ value).drop 13) ↔ MultipartType value := by
    rw [drop_append_of_le_length (by rw [hlength]; decide), hdrop]
    exact Iff.rfl
  unfold declaredBoundary
  rw [dropWhile_append_of_pos hquote]
  exact if_congr ((and_iff_right hpre).trans htype) rfl rfl

namespace HeaderField

variable {h : String}

theorem headerLine (hh : HeaderField h) : Entity.HeaderLine (bytes h) := by
  obtain ⟨name, hname, value, _, rfl⟩ := hh
  obtain ⟨c, hhead, hc⟩ := (bytes_fieldNames name hname).1
  obtain ⟨rest, hrest⟩ := List.head?_eq_some_iff.mp hhead
  exact headerLine_bytes hrest hc

theorem cr_notMem (hh : HeaderField h) : 13 ∉ bytes h := by
  obtain ⟨name, hname, value, hvalue, rfl⟩ := hh
  have hall : ∀ name ∈ fieldNames, NoControl name := by decide
  exact ((hall name hname).append hvalue).cr_notMem

theorem not_content (hh : HeaderField h) {t : Bytes} : ¬ 99 :: 111 :: t <+: (bytes h).map lowerByte := by
  obtain ⟨name, hname, value, _, rfl⟩ := hh
  obtain ⟨hlength, hother⟩ := (bytes_fieldNames name hname).2
  intro hpre
  have htake : [99, 111] <+: ((bytes (name ++ value)).map lowerByte).take 2 := hpre.take 2
  rw [← map_take, bytes_append, take_append_of_le_length hlength] at htake
  refine hother (htake.eq_of_length ?_).symm
  rw [length_map, length_take, Nat.min_eq_left hlength]
  rfl

theorem ne_base64Line (hh : HeaderField h) : bytes h ≠ base64Line := by
  intro heq
  refine hh.not_content (t := (base64Line.map lowerByte).drop 2) ?_
  rw [heq]
  exact bytes_boundaryTexts.2.2.2.2.1.2.2.2

theorem declaredBoundary_eq_none (hh : HeaderField h) : declaredBoundary (bytes h) = none :=
  if_neg fun h => hh.not_content (t := (bytes "content-type:").drop 2) h.1

end HeaderField

theorem bytes_makeBoundary (kind : String) (nid depth : Nat) :
    bytes (makeBoundary kind nid depth) = bytes "----=_PstDedupe_" ++ bytes kind
      ++ (95 :: bytes (hexLower nid) ++ 95 :: 100 :: (bytes (Nat.repr depth) ++ [95])) := by
  unfold makeBoundary
  simp only [bytes_append, append_assoc]
  rfl

theorem notMem_hexLower {b : UInt8} (h : b = 95 ∨ b = 34) (n : Nat) : b ∉ bytes (hexLower n) := by
  intro hmem
  obtain ⟨c, hc, hnat⟩ := mem_bytes_ascii hmem (by rcases h with rfl | rfl <;> decide)
  unfold hexLower at hc
  rw [String.toList_ofList] at hc
  have hall : ∀ c ∈ "0123456789abcdef".toList, c.toNat ≠ 95 ∧ c.toNat ≠ 34 :=
    List.all_iff_forall_prop.mp (by decide)
  have hne := hall c (mem_hexDigits hc)
  rcases h with rfl | rfl
  · exact hne.1 hnat
  · exact hne.2 hnat

theorem notMem_repr {b : UInt8} (h : b = 95 ∨ b = 34) (n : Nat) : b ∉ bytes (Nat.repr n) := by
  intro hmem
  obtain ⟨c, hc, hnat⟩ := mem_bytes_ascii hmem (by rcases h with rfl | rfl <;> decide)
  have hdigit := isDigit_of_mem_repr hc
  unfold Char.isDigit at hdigit
  rw [Bool.and_eq_true, decide_eq_true_iff, decide_eq_true_iff] at hdigit
  have hlow : 48 ≤ c.toNat := hdigit.1
  have hhigh : c.toNat ≤ 57 := hdigit.2
  have hvalue : b.toNat = 95 ∨ b.toNat = 34 := by
    rcases h with rfl | rfl
    · exact .inl rfl
    · exact .inr rfl
  omega

theorem quote_notMem_makeBoundary {kind : String} (h : 34 ∉ bytes kind) (nid depth : Nat) :
    34 ∉ bytes (makeBoundary kind nid depth) := by
  have hstart : 34 ∉ bytes "----=_PstDedupe_" := bytes_boundaryTexts.1 _ (by simp)
  rw [bytes_makeBoundary]
  simp only [mem_append, mem_cons, not_mem_nil, or_false, not_or]
  exact ⟨⟨hstart, h⟩, ⟨by decide, notMem_hexLower (.inr rfl) nid⟩, by decide, by decide,
    notMem_repr (.inr rfl) depth, by decide⟩

theorem prefix_of_delimiter {b b' : Bytes} (h : delimiter b <+: closeDelimiter b') : b <+: b' ++ [45, 45] :=
  (List.cons_prefix_cons.mp (List.cons_prefix_cons.mp h).2).2

theorem makeBoundary_apart_depth {kind : String} {nid nid' depth depth' : Nat}
    (h : depth ≠ depth') : ¬ delimiter (bytes (makeBoundary kind nid depth))
      <+: closeDelimiter (bytes (makeBoundary kind nid' depth')) := by
  intro hpre
  have hboundary := prefix_of_delimiter hpre
  rw [bytes_makeBoundary, bytes_makeBoundary,
    append_assoc (bytes "----=_PstDedupe_" ++ bytes kind) _ [45, 45],
    prefix_append_right_inj] at hboundary
  rw [cons_append, cons_append, cons_append, cons_prefix_cons] at hboundary
  obtain ⟨t, ht⟩ := hboundary.2
  simp only [append_assoc, cons_append, nil_append] at ht
  -- the NID ends at the underscore, and then the depth does
  have hnid := sep_inj_of_notMem (notMem_hexLower (.inl rfl) nid) (notMem_hexLower (.inl rfl) nid') ht
  have hdepth := sep_inj_of_notMem (notMem_repr (.inl rfl) depth) (notMem_repr (.inl rfl) depth')
    (List.cons.inj hnid.2).2
  exact h (repr_injective (bytes_injective hdepth.1))

theorem mixed_apart_alt (nid nid' depth depth' : Nat) :
    ¬ delimiter (bytes (makeBoundary "mixed" nid depth))
      <+: closeDelimiter (bytes (makeBoundary "alt" nid' depth')) := by
  intro hpre
  have hboundary := prefix_of_delimiter hpre
  rw [bytes_makeBoundary, bytes_makeBoundary, append_assoc, append_assoc, append_assoc,
    prefix_append_right_inj] at hboundary
  obtain ⟨hmixed, halt⟩ := bytes_boundaryTexts.2.2.1
  rw [hmixed, halt] at hboundary
  exact absurd (List.cons_prefix_cons.mp hboundary).1 (by decide)

theorem delimiter_bytes (boundary : String) : bytes ("--" ++ boundary) = delimiter (bytes boundary) := by
  rw [bytes_append]
  rfl

theorem closeDelimiter_bytes (boundary : String) :
    bytes ("--" ++ boundary ++ "--") = closeDelimiter (bytes boundary) := by
  rw [bytes_append, delimiter_bytes]
  rfl

end DedupEngine.EmlPack
