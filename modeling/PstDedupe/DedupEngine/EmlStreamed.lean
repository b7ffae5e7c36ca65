import PstDedupe.DedupEngine.EmlText

/-!
# Base64 from a stream

`stream_base64_from_reader` carries up to two bytes from one read to the next and counts the columns
of the line.
-/

namespace DedupEngine.EmlPack

open Rust Foundations List

def closed (st : Bytes × Nat) : Bytes := if 0 < st.2 then st.1 ++ crlf else st.1

def wrapped (cs : Bytes) : Bytes := (chunks 76 cs).flatMap (· ++ crlf)

theorem wrapped_of_ne_nil {cs : Bytes} (h : cs ≠ []) : wrapped cs = cs.take 76 ++ crlf ++
    wrapped (cs.drop 76) := by
  unfold wrapped
  rw [chunks_of_ne_nil (by decide) h, flatMap_cons]

theorem closed_foldl_open {cols : Nat} (cs out : Bytes) (hopen : 0 < cols) (hcols : cols ≤ 76) :
    closed (cs.foldl wrapChar (out, cols)) =
      out ++ cs.take (76 - cols) ++ crlf ++ wrapped (cs.drop (76 - cols)) := by
  induction cs generalizing out cols with
  | nil =>
    show (if 0 < cols then out ++ crlf else out) = _
    rw [if_pos hopen, take_nil, drop_nil, append_nil]
    exact (append_nil _).symm
  | cons c cs ih =>
    rw [foldl_cons]
    by_cases hfull : 76 ≤ cols
    · -- the line is full: the break comes before the character
      have hstep : wrapChar (out, cols) c = (out ++ crlf ++ [c], 1) := if_pos hfull
      have hzero : 76 - cols = 0 := by omega
      rw [hstep, ih _ (by decide) (by decide), hzero, take_zero, drop_zero, append_nil,
        wrapped_of_ne_nil (cons_ne_nil c cs)]
      simp
    · have hstep : wrapChar (out, cols) c = (out ++ [c], cols + 1) := if_neg hfull
      have hleft : 76 - cols = 76 - (cols + 1) + 1 := by omega
      rw [hstep, ih _ (by omega) (by omega), hleft, take_succ_cons, drop_succ_cons]
      simp

theorem closed_foldl_wrapChar (cs : Bytes) : closed (cs.foldl wrapChar ([], 0)) = wrapped cs := by
  cases cs with
  | nil => rfl
  | cons c cs =>
    have hstep : wrapChar ([], 0) c = ([c], 1) := rfl
    rw [foldl_cons, hstep, closed_foldl_open cs [c] (by decide) (by decide),
      wrapped_of_ne_nil (cons_ne_nil c cs)]
    rfl

theorem streamBase64Loop_eq (reads : List Bytes) (carry : Bytes) (st : Bytes × Nat) :
    streamBase64Loop reads carry st = (Base64.encode (carry ++ reads.flatten)).foldl wrapChar st := by
  induction reads generalizing carry st with
  | nil =>
    rw [streamBase64Loop, flatten_nil, append_nil]
    split
    · next hcarry =>
      rw [hcarry]
      rfl
    · unfold writeBase64Wrapped
      rw [base64Encode_eq]
  | cons chunk reads ih =>
    -- what is written now is full triples, so the encoding splits there
    have hfull : 3 ∣ ((carry ++ chunk).take ((carry ++ chunk).length / 3 * 3)).length := by
      rw [length_take, Nat.min_eq_left (Nat.div_mul_le_self _ 3)]
      exact Nat.dvd_mul_left 3 _
    rw [streamBase64Loop, ih]
    unfold writeBase64Wrapped
    rw [base64Encode_eq, ← foldl_append, ← Base64.encode_append hfull, ← append_assoc,
      take_append_drop, flatten_cons, append_assoc]

theorem streamBase64FromReader_eq (reads : List Bytes) :
    streamBase64FromReader reads = base64EncodeChunked reads.flatten := by
  show closed (streamBase64Loop reads [] ([], 0)) = wrapped (base64Encode reads.flatten)
  rw [streamBase64Loop_eq, nil_append, closed_foldl_wrapChar, base64Encode_eq]

theorem unbroken_streamBase64FromReader (reads : List Bytes) :
    unbroken (streamBase64FromReader reads) = Base64.encode reads.flatten := by
  rw [streamBase64FromReader_eq, unbroken_base64EncodeChunked]

/-- **Streamed base64** is the text of the whole buffer, for every schedule of reads, and decodes to
the bytes. -/
theorem streamBase64_eq_chunked {reads : List Bytes} (hreads : [] ∉ reads) :
    (AttachStream.mk reads none).readAll.map streamBase64FromReader = .ok (base64EncodeChunked reads.flatten) ∧
      Base64.decodeLines (base64EncodeChunked reads.flatten) = some reads.flatten := by
  have hall : (AttachStream.mk reads none).readAll = .ok reads := if_neg hreads
  refine ⟨?_, Base64.decodeLines_eq (unbroken_base64EncodeChunked reads.flatten)⟩
  rw [hall]
  exact congrArg Except.ok (streamBase64FromReader_eq reads)

theorem streamBase64_eq_chunked_twoReads :
    (AttachStream.mk [[77, 97], [110, 33]] none).readAll.map streamBase64FromReader
        = .ok (bytes "TWFuIQ==" ++ crlf) ∧
      Base64.decodeLines (base64EncodeChunked [77, 97, 110, 33]) = some [77, 97, 110, 33] := by
  have htext : base64EncodeChunked [77, 97, 110, 33] = bytes "TWFuIQ==" ++ crlf := by decide +kernel
  have heq := streamBase64_eq_chunked (show [] ∉ ([[77, 97], [110, 33]] : List Bytes) by decide)
  exact ⟨heq.1.trans (congrArg Except.ok htext), heq.2⟩

end DedupEngine.EmlPack
