import PstDedupe.MatterCore.AeadChunk

/-!
# The four loops of chunked encryption (`matter-core/src/crypto/aead_chunk.rs`)

`AeadChunk` says what the blob of a text is and which blobs are accepted.
-/

namespace MatterCore

open Rust Foundations List

def ByteReader.readExact (reader : ByteReader) (n : Nat) :
    Except CryptoError ({ buf : Bytes // buf.length = n } × ByteReader) :=
  if h : reader.bytes.length < n then .error .io
  else .ok (⟨reader.bytes.take n, length_take_of_le (by omega)⟩, { reader with bytes := reader.bytes.drop n })

def ByteReader.readByte (reader : ByteReader) : Except CryptoError Nat :=
  if reader.bytes ≠ [] then .ok 1 else if reader.fails then .error .io else .ok 0

structure Streamed (α : Type) where
  written : Bytes
  result : Except CryptoError α

/-- What was written by a call that returned `Ok`. -/
def Streamed.outcome {α : Type} (s : Streamed α) : Except CryptoError Bytes := s.result.map fun _ => s.written

namespace AeadChunk

section Encrypt

variable [Gcm] (nonce : Nat → Nonce)

def encryptLoop (aad : Nat → Bytes) (plain : Bytes) (chunkSize : Nat) : Nat → Nat → Nat → Bytes → Bytes
  | 0, _, _, out => out
  | rounds + 1, idx, offset, out =>
    if offset < plain.length then
      let stop := min (offset + chunkSize) plain.length
      let chunk := (plain.drop offset).take (stop - offset)
      let ct := Aead.encrypt (nonce idx) (aad idx) chunk
      encryptLoop aad plain chunkSize rounds (idx + 1) stop (out ++ (nonce idx).1 ++ ct)
    else out

def encryptChunked (magic : Magic) (domain extra plain : Bytes) (chunkSize : Nat) : Bytes :=
  let chunkSize := max chunkSize 1
  encryptLoop nonce (aadFor domain extra · plain.length chunkSize) plain chunkSize plain.length 0 0
    (writeHeader magic chunkSize plain.length)

def encryptReaderLoop (aad : Nat → Bytes) (chunkSize : Nat) :
    Nat → Nat → Nat → ByteReader → Bytes → Streamed Unit
  | 0, _, _, _, out => ⟨out, .ok ()⟩
  | rounds + 1, idx, remaining, reader, out =>
    if 0 < remaining then
      let want := min remaining chunkSize
      match reader.readExact want with
      | .error e => ⟨out, .error e⟩
      | .ok (buf, reader) =>
        let ct := Aead.encrypt (nonce idx) (aad idx) buf.1
        encryptReaderLoop aad chunkSize rounds (idx + 1) (remaining - want) reader (out ++ (nonce idx).1 ++ ct)
    else ⟨out, .ok ()⟩

def encryptChunkedFromReader (magic : Magic) (domain extra : Bytes) (reader : ByteReader)
    (chunkSize plainLen : Nat) :
    Streamed Unit :=
  let chunkSize := max chunkSize 1
  encryptReaderLoop nonce (aadFor domain extra · plainLen chunkSize) chunkSize plainLen 0 plainLen reader
    (writeHeader magic chunkSize plainLen)

end Encrypt

section Decrypt

variable (openChunk : OpenChunk)

theorem length_nonceAt {data : Bytes} {offset need : Nat}
    (h : ¬ data.length < offset + (nonceLen + need + tagLen)) :
    ((data.drop offset).take nonceLen).length = nonceLen := by
  rw [length_take, length_drop]
  omega

def decryptLoop (aad : Nat → Bytes) (data : Bytes) (plainLen chunkSize : Nat) :
    Nat → Nat → Nat → Bytes → Except CryptoError (Bytes × Nat)
  | 0, _, _, _ => .error (.crypto "encrypted blob truncated")
  | rounds + 1, idx, offset, plain =>
    if plain.length < plainLen then
      let need := min (plainLen - plain.length) chunkSize
      let frame := nonceLen + need + tagLen
      if h : data.length < offset + frame then .error (.crypto "encrypted blob truncated")
      else
        let nonce : Nonce := ⟨(data.drop offset).take nonceLen, length_nonceAt h⟩
        let ct := (data.drop (offset + nonceLen)).take (frame - nonceLen)
        match openChunk nonce (aad idx) ct with
        | none => .error (.crypto "chunk decrypt failed")
        | some pt =>
          if pt.length ≠ need then .error (.crypto "chunk length mismatch")
          else decryptLoop aad data plainLen chunkSize rounds (idx + 1) (offset + frame) (plain ++ pt)
    else .ok (plain, offset)

def decryptChunked (expectedMagic : Magic) (domain extra data : Bytes) : Except CryptoError Bytes :=
  if data.length < headerLen then .error (.crypto "encrypted blob too short")
  else if data.take 8 ≠ expectedMagic.1 then .error (.crypto "encrypted blob magic mismatch")
  else
    let chunkSize := ofLeBytes ((data.drop 8).take 4)
    let plainLen := ofLeBytes ((data.drop 12).take 8)
    if chunkSize = 0 ∨ maxChunkSize < chunkSize then
      .error (.crypto s!"encrypted blob chunk_size {chunkSize} out of 1..=4MiB")
    else do
      let (plain, offset) ← decryptLoop openChunk (aadFor domain extra · plainLen chunkSize) data
        plainLen chunkSize
        (data.length + 1) 0 headerLen []
      if offset ≠ data.length then .error (.crypto "encrypted blob has trailing garbage") else .ok plain

def decryptReaderLoop (aad : Nat → Bytes) (plainLen chunkSize : Nat) :
    Nat → Nat → Nat → ByteReader → Bytes → Streamed Nat
  | 0, _, _, _, out => ⟨out, .error .io⟩
  | rounds + 1, idx, written, reader, out =>
    if written < plainLen then
      let need := min (plainLen - written) chunkSize
      match reader.readExact (nonceLen + need + tagLen) with
      | .error e => ⟨out, .error e⟩
      | .ok (frame, reader) =>
        let nonce : Nonce := ⟨frame.1.take nonceLen, length_take_of_le (by rw [frame.2]; omega)⟩
        match openChunk nonce (aad idx) (frame.1.drop nonceLen) with
        | none => ⟨out, .error (.crypto "chunk decrypt failed")⟩
        | some pt =>
          if pt.length ≠ need then ⟨out, .error (.crypto "chunk length mismatch")⟩
          else decryptReaderLoop aad plainLen chunkSize rounds (idx + 1) (written + pt.length)
            reader (out ++ pt)
    else
      ⟨out, do
        let n ← reader.readByte
        if n = 0 then .ok written else .error (.crypto "encrypted blob has trailing garbage")⟩

def decryptChunkedFromReader (expectedMagic : Magic) (domain extra : Bytes) (reader : ByteReader) :
    Streamed Nat :=
  match reader.readExact headerLen with
  | .error e => ⟨[], .error e⟩
  | .ok (header, reader) =>
    if header.1.take 8 ≠ expectedMagic.1 then ⟨[], .error (.crypto "encrypted blob magic mismatch")⟩
    else
      let chunkSize := ofLeBytes ((header.1.drop 8).take 4)
      let plainLen := ofLeBytes ((header.1.drop 12).take 8)
      if chunkSize = 0 ∨ maxChunkSize < chunkSize then
        ⟨[], .error (.crypto s!"encrypted blob chunk_size {chunkSize} out of 1..=4MiB")⟩
      else
        decryptReaderLoop openChunk (aadFor domain extra · plainLen chunkSize) plainLen chunkSize
          (reader.bytes.length + 1) 0 0 reader []

end Decrypt

section Encrypted

variable [Gcm] {nonce : Nat → Nonce} {aad : Nat → Bytes} {chunkSize : Nat}

/-- The loop over a buffer seals the chunks that are left. Induction on the rounds. -/
theorem encryptLoop_eq (hcs : 0 < chunkSize) {plain : Bytes} {rounds idx offset : Nat} {out : Bytes}
    (hoffset : offset ≤ plain.length) (hrounds : plain.length ≤ offset + rounds) :
    encryptLoop nonce aad plain chunkSize rounds idx offset out
      = out ++ (sealChunks nonce aad idx (chunks chunkSize (plain.drop offset))).flatMap frameBytes := by
  induction rounds generalizing idx offset out with
  | zero =>
    have hdone : plain.drop offset = [] := drop_of_length_le (by omega)
    simp [encryptLoop, hdone, chunks, chunksUpTo, sealChunks]
  | succ rounds ih =>
    by_cases hmore : offset < plain.length
    · have hne : plain.drop offset ≠ [] := by
        intro hnil
        have hlen := congrArg length hnil
        simp at hlen
        omega
      -- the last chunk ends with the text, which `take` and `drop` do by themselves
      have htake : (plain.drop offset).take (min (offset + chunkSize) plain.length - offset)
          = (plain.drop offset).take chunkSize := by
        apply List.take_eq_take_iff.mpr
        simp
        omega
      have hdrop : plain.drop (min (offset + chunkSize) plain.length)
          = (plain.drop offset).drop chunkSize := by
        rw [drop_drop]
        rcases Nat.le_total (offset + chunkSize) plain.length with hle | hle
        · rw [Nat.min_eq_left hle]
        · rw [Nat.min_eq_right hle, drop_length, drop_of_length_le hle]
      have hrest := @ih (idx + 1) (min (offset + chunkSize) plain.length)
        (out ++ (nonce idx).1 ++ Aead.encrypt (nonce idx) (aad idx) ((plain.drop offset).take chunkSize))
        (by omega) (by omega)
      rw [chunks_of_ne_nil hcs hne, sealChunks, flatMap_cons, ← hdrop]
      simp only [encryptLoop, if_pos hmore, htake, hrest]
      simp [frameBytes]
    · have hdone : plain.drop offset = [] := drop_of_length_le (by omega)
      simp [encryptLoop, hmore, hdone, chunks, chunksUpTo, sealChunks]

theorem encryptChunked_eq (magic : Magic) (domain extra plain : Bytes) (size : Nat) :
    encryptChunked nonce magic domain extra plain size
      = MatterCore.encryptChunked nonce magic domain extra plain size := by
  unfold encryptChunked MatterCore.encryptChunked
  dsimp only
  rw [encryptLoop_eq (Nat.le_max_right _ _) (Nat.zero_le _) (by omega), drop_zero]

theorem encryptReaderLoop_eq (hcs : 0 < chunkSize) {rounds fuel idx remaining : Nat}
    {reader : ByteReader} {out : Bytes} (hrounds : remaining ≤ rounds)
    (hfuel : reader.bytes.length ≤ fuel) :
    encryptReaderLoop nonce aad chunkSize rounds idx remaining reader out
      = ⟨out ++ (sealChunks nonce aad idx
        (readChunks chunkSize fuel remaining reader.bytes).1).flatMap frameBytes,
          if (readChunks chunkSize fuel remaining reader.bytes).2 then .ok () else .error .io⟩ := by
  induction rounds generalizing fuel idx remaining reader out with
  | zero =>
    obtain rfl : remaining = 0 := by omega
    cases fuel <;> simp [encryptReaderLoop, readChunks, sealChunks]
  | succ rounds ih =>
    by_cases hmore : 0 < remaining
    · have hwant : 0 < min remaining chunkSize := by omega
      by_cases hshort : reader.bytes.length < min remaining chunkSize
      · cases fuel <;>
          simp [encryptReaderLoop, ByteReader.readExact, readChunks, sealChunks, hmore, hshort,
            Nat.ne_of_gt hmore]
      · cases fuel with
        | zero => omega
        | succ fuel =>
          have hrest := @ih fuel (idx + 1) (remaining - min remaining chunkSize)
            { reader with bytes := reader.bytes.drop (min remaining chunkSize) }
            (out ++ (nonce idx).1 ++
              Aead.encrypt (nonce idx) (aad idx) (reader.bytes.take (min remaining chunkSize)))
            (by omega) (by simp; omega)
          simp only [encryptReaderLoop, if_pos hmore, ByteReader.readExact, dif_neg hshort, hrest,
            readChunks, if_neg (Nat.ne_of_gt hmore), if_neg hshort, sealChunks, flatMap_cons]
          simp [frameBytes]
    · obtain rfl : remaining = 0 := by omega
      cases fuel <;> simp [encryptReaderLoop, readChunks, sealChunks]

theorem encryptChunkedFromReader_eq (magic : Magic) (domain extra : Bytes) (reader : ByteReader)
    (size plainLen : Nat) :
    encryptChunkedFromReader nonce magic domain extra reader size plainLen
      = ⟨(MatterCore.encryptChunkedFromReader nonce magic domain extra reader size plainLen).1,
          if (MatterCore.encryptChunkedFromReader nonce magic domain extra reader size plainLen).2 then .ok ()
          else .error .io⟩ :=
  encryptReaderLoop_eq (Nat.le_max_right _ _) (Nat.le_refl _) (Nat.le_refl _)

end Encrypted

section Decrypted

variable {openChunk : OpenChunk} {aad : Nat → Bytes} {plainLen chunkSize : Nat}

theorem decryptLoop_eq {data : Bytes} {rounds fuel idx offset : Nat} {plain : Bytes}
    (hoffset : offset ≤ data.length) (hrounds : data.length < offset + rounds)
    (hfuel : data.length ≤ offset + fuel) :
    decryptLoop openChunk aad data plainLen chunkSize rounds idx offset plain
      = (decryptFrames openChunk (.crypto "encrypted blob truncated") aad plainLen chunkSize fuel idx plain
          (data.drop offset)).map fun r => (r.1, data.length - r.2.length) := by
  induction rounds generalizing fuel idx offset plain with
  | zero => omega
  | succ rounds ih =>
    by_cases hmore : plain.length < plainLen
    · by_cases hshort : data.length < offset + (nonceLen + min (plainLen - plain.length) chunkSize + tagLen)
      · have hrest : (data.drop offset).length < nonceLen + min (plainLen - plain.length)
          chunkSize + tagLen := by
          simp
          omega
        cases fuel with
        | zero => simp [decryptLoop, decryptFrames, hmore, hshort, Except.map]
        | succ fuel =>
          simp only [decryptLoop, decryptFrames, if_pos hmore, dif_pos hshort, dif_pos hrest]
          rfl
      · have hrest : ¬ (data.drop offset).length < nonceLen + min (plainLen - plain.length)
          chunkSize + tagLen := by
          simp
          omega
        cases fuel with
        | zero =>
          simp only [nonceLen] at hshort
          omega
        | succ fuel =>
          simp only [decryptLoop, decryptFrames, if_pos hmore, dif_neg hshort, dif_neg hrest]
          -- the frame is the same one
          have hct : (data.drop (offset + nonceLen)).take
                (nonceLen + min (plainLen - plain.length) chunkSize + tagLen - nonceLen)
              = ((data.drop offset).drop nonceLen).take
                (min (plainLen - plain.length) chunkSize + tagLen) := by
            rw [drop_drop]
            congr 1
            omega
          have hpos : 0 < nonceLen := by decide
          rw [hct]
          generalize openChunk _ (aad idx) (((data.drop offset).drop nonceLen).take _) = opened
          cases opened with
          | none => rfl
          | some pt =>
            by_cases hlen : pt.length ≠ min (plainLen - plain.length) chunkSize
            · simp only [if_pos hlen]
              rfl
            · simp only [if_neg hlen]
              rw [@ih fuel _ _ _ (by omega) (by omega) (by omega), drop_drop]
    · have hend : data.length - (data.drop offset).length = offset := by
        simp
        omega
      cases fuel <;> simp [decryptLoop, decryptFrames, hmore, Except.map] <;> omega

theorem decryptChunked_eq (magic : Magic) (domain extra data : Bytes) :
    decryptChunked openChunk magic domain extra data
      = MatterCore.decryptChunked openChunk magic domain extra data := by
  unfold decryptChunked MatterCore.decryptChunked decryptBlob
  by_cases hshort : data.length < headerLen
  · simp only [if_pos hshort]
    rfl
  · by_cases hmagic : data.take 8 ≠ magic.1
    · simp only [if_neg hshort, if_pos hmagic]
      rfl
    · simp only [if_neg hshort, if_neg hmagic]
      split
      · rfl
      · have hheader : 0 < headerLen := by decide
        rw [decryptLoop_eq (by omega) (by omega) (show data.length ≤ headerLen + data.length by omega)]
        cases decryptFrames openChunk (.crypto "encrypted blob truncated")
            (aadFor domain extra · (ofLeBytes ((data.drop 12).take 8)) (ofLeBytes ((data.drop 8).take 4)))
            (ofLeBytes ((data.drop 12).take 8)) (ofLeBytes ((data.drop 8).take 4)) data.length 0 []
              (data.drop headerLen) with
        | error e => rfl
        | ok r =>
          -- the loop stands at the end of the data when it has left nothing
          have hend : data.length - r.2.length ≠ data.length ↔ r.2 ≠ [] := by
            rw [← length_pos_iff]
            omega
          show (if data.length - r.2.length ≠ data.length then _ else _) = (if r.2 ≠ [] then _ else _)
          simp only [hend]

theorem readExact_eq_ok {reader : ByteReader} {n : Nat} (h : ¬ reader.bytes.length < n) :
    reader.readExact n = .ok (⟨reader.bytes.take n, length_take_of_le (by omega)⟩,
      { reader with bytes := reader.bytes.drop n }) := dif_neg h

theorem outcome_decryptReaderLoop {rounds fuel idx : Nat} {reader : ByteReader} (out : Bytes)
    (hrounds : reader.bytes.length < rounds) (hfuel : reader.bytes.length ≤ fuel) :
    (decryptReaderLoop openChunk aad plainLen chunkSize rounds idx out.length reader out).outcome
      = (decryptFrames openChunk .io aad plainLen chunkSize fuel idx out reader.bytes).bind fun r =>
          if r.2 ≠ [] then .error (.crypto "encrypted blob has trailing garbage")
          else if reader.fails then .error .io
          else .ok r.1 := by
  induction rounds generalizing fuel idx reader out with
  | zero => omega
  | succ rounds ih =>
    have hpos : 0 < nonceLen := by decide
    by_cases hmore : out.length < plainLen
    · by_cases hshort : reader.bytes.length < nonceLen + min (plainLen - out.length) chunkSize + tagLen
      · have hread : reader.readExact (nonceLen + min (plainLen - out.length) chunkSize + tagLen)
          = .error .io :=
          dif_pos hshort
        cases fuel with
        | zero => simp [decryptReaderLoop, decryptFrames, hmore, hread, Streamed.outcome, Except.map, Except.bind]
        | succ fuel =>
          simp [decryptReaderLoop, decryptFrames, hmore, hread, hshort, Streamed.outcome,
            Except.map, Except.bind]
      · cases fuel with
        | zero => omega
        | succ fuel =>
          simp only [decryptReaderLoop, decryptFrames, if_pos hmore, readExact_eq_ok hshort, dif_neg hshort]
          -- the frame is a nonce and a ciphertext, as in the buffer
          have hnonce : (reader.bytes.take
              (nonceLen + min (plainLen - out.length) chunkSize + tagLen)).take nonceLen
              = reader.bytes.take nonceLen := by
            rw [take_take, Nat.min_eq_left (by omega)]
          have hct : (reader.bytes.take
              (nonceLen + min (plainLen - out.length) chunkSize + tagLen)).drop nonceLen
              = (reader.bytes.drop nonceLen).take (min (plainLen - out.length) chunkSize + tagLen) := by
            rw [drop_take]
            congr 1
            omega
          simp only [hnonce, hct]
          generalize openChunk _ (aad idx) ((reader.bytes.drop nonceLen).take _) = opened
          cases opened with
          | none => rfl
          | some pt =>
            by_cases hlen : pt.length ≠ min (plainLen - out.length) chunkSize
            · simp only [if_pos hlen]
              rfl
            · have hrest := @ih fuel (idx + 1)
                { reader with bytes := reader.bytes.drop (nonceLen + min (plainLen - out.length) chunkSize + tagLen) }
                (out ++ pt) (by simp; omega) (by simp; omega)
              rw [length_append] at hrest
              simp only [if_neg hlen]
              exact hrest
    · have hend : decryptFrames openChunk .io aad plainLen chunkSize fuel idx out reader.bytes
          = .ok (out, reader.bytes) := by
        cases fuel <;> simp [decryptFrames, hmore]
      rw [hend]
      simp only [decryptReaderLoop, if_neg hmore, ByteReader.readByte, Streamed.outcome]
      by_cases hrest : reader.bytes ≠ []
      · simp only [if_pos hrest, Except.bind]
        rfl
      · simp only [if_neg hrest, Except.bind]
        cases reader.fails <;> rfl

theorem outcome_decryptChunkedFromReader (magic : Magic) (domain extra : Bytes)
    (reader : ByteReader) : (decryptChunkedFromReader openChunk magic domain extra reader).outcome
      = MatterCore.decryptChunkedFromReader openChunk magic domain extra reader := by
  unfold decryptChunkedFromReader MatterCore.decryptChunkedFromReader decryptBlob
  by_cases hshort : reader.bytes.length < headerLen
  · have hread : reader.readExact headerLen = .error .io := dif_pos hshort
    simp only [hread, if_pos hshort]
    rfl
  · -- the fields of the header are those of the blob
    have hmagic : (reader.bytes.take headerLen).take 8 = reader.bytes.take 8 := by
      rw [take_take]
      rfl
    have hsize : ((reader.bytes.take headerLen).drop 8).take 4 = (reader.bytes.drop 8).take 4 := by
      rw [drop_take, take_take]
      rfl
    have hlen : ((reader.bytes.take headerLen).drop 12).take 8 = (reader.bytes.drop 12).take 8 := by
      rw [drop_take, take_take]
      rfl
    simp only [readExact_eq_ok hshort, if_neg hshort, hmagic, hsize, hlen]
    by_cases hwrong : reader.bytes.take 8 ≠ magic.1
    · simp only [if_pos hwrong]
      rfl
    · simp only [if_neg hwrong]
      split
      · rfl
      · exact outcome_decryptReaderLoop [] (Nat.lt_succ_self _) (by simp)

theorem length_written_decryptReaderLoop {rounds idx n : Nat} {reader : ByteReader} (out : Bytes)
    (h : (decryptReaderLoop openChunk aad plainLen chunkSize rounds idx out.length reader
      out).result = .ok n) :
    (decryptReaderLoop openChunk aad plainLen chunkSize rounds idx out.length reader
      out).written.length = n := by
  induction rounds generalizing idx reader out with
  | zero => simp [decryptReaderLoop] at h
  | succ rounds ih =>
    rw [decryptReaderLoop] at h ⊢
    split at h
    next hmore =>
      simp only [if_pos hmore] at h ⊢
      split at h
      · simp at h
      next frame reader' hread =>
        split at h
        · simp at h
        next pt hopen =>
          split at h
          · simp at h
          next hlen =>
            rw [← length_append] at h
            simp only [if_neg hlen]
            rw [← length_append]
            exact ih _ h
    next hmore =>
      simp only [if_neg hmore] at h ⊢
      obtain ⟨count, _, hcount⟩ := bind_eq_ok.mp h
      split at hcount
      · simpa using hcount
      · simp at hcount

theorem written_decryptChunkedFromReader {magic : Magic} {domain extra p : Bytes}
    {reader : ByteReader} {n : Nat}
    (h : decryptChunkedFromReader openChunk magic domain extra reader = ⟨p, .ok n⟩) :
    n = p.length := by
  unfold decryptChunkedFromReader at h
  split at h
  · simp at h
  next header rest hread =>
    split at h
    · simp at h
    · dsimp only at h
      split at h
      · simp at h
      · have hlen := length_written_decryptReaderLoop [] (congrArg Streamed.result h)
        rw [← hlen]
        exact congrArg (fun s => s.written.length) h

theorem outcome_eq_ok_iff {s : Streamed Nat} {p : Bytes} : s.outcome = .ok p ↔ ∃ n, s = ⟨p, .ok n⟩ := by
  obtain ⟨written, result⟩ := s
  cases result <;> simp [Streamed.outcome, Except.map, Streamed.mk.injEq]

end Decrypted

/-- **The codec is exact.** What either encryption makes of a text both decryptions turn back into
it, whatever the text and the chunk size; and on any blob at all, and under any cipher, the two
decryptions accept the same texts. -/
theorem codec_exact [Gcm] :
    (∀ (nonce : Nat → Nonce) (magic : Magic) (domain extra plain blob : Bytes) (chunkSize : Nat),
      0 < chunkSize → chunkSize ≤ maxChunkSize → plain.length < 2 ^ 64 →
      blob = encryptChunked nonce magic domain extra plain chunkSize →
      encryptChunkedFromReader nonce magic domain extra ⟨plain, false⟩ chunkSize plain.length = ⟨blob, .ok ()⟩
        ∧ decryptChunked Aead.decrypt magic domain extra blob = .ok plain
        ∧ decryptChunkedFromReader Aead.decrypt magic domain extra ⟨blob, false⟩ = ⟨plain, .ok plain.length⟩)
    ∧ ∀ (openChunk : OpenChunk) (magic : Magic) (domain extra data p : Bytes),
      decryptChunked openChunk magic domain extra data = .ok p
        ↔ ∃ n, decryptChunkedFromReader openChunk magic domain extra ⟨data, false⟩ = ⟨p, .ok n⟩ := by
  have hagree : ∀ (openChunk : OpenChunk) (magic : Magic) (domain extra data p : Bytes),
      decryptChunked openChunk magic domain extra data = .ok p
        ↔ ∃ n, decryptChunkedFromReader openChunk magic domain extra ⟨data, false⟩ = ⟨p, .ok n⟩ := by
    intro openChunk magic domain extra data p
    rw [← outcome_eq_ok_iff, decryptChunked_eq, outcome_decryptChunkedFromReader,
      decryptChunked_eq_ok, decryptChunkedFromReader_eq_ok]
    simp
  refine ⟨?_, hagree⟩
  intro nonce magic domain extra plain blob chunkSize hpos hmax hlen hblob
  subst hblob
  -- both encryptions write one blob
  have hstream : encryptChunkedFromReader nonce magic domain extra ⟨plain, false⟩ chunkSize plain.length
      = ⟨encryptChunked nonce magic domain extra plain chunkSize, .ok ()⟩ := by
    rw [encryptChunkedFromReader_eq, encryptChunkedFromReader_length, encryptChunked_eq]
    rfl
  have hplain : decryptChunked Aead.decrypt magic domain extra
      (encryptChunked nonce magic domain extra plain chunkSize)
      = .ok plain := by
    rw [decryptChunked_eq, encryptChunked_eq]
    exact decryptChunked_encryptChunked nonce magic domain extra hpos hmax hlen
  obtain ⟨n, hn⟩ := (hagree _ _ _ _ _ _).mp hplain
  have hcount : n = plain.length := written_decryptChunkedFromReader hn
  exact ⟨hstream, hplain, by rw [hn, hcount]⟩

section Example

local instance zeroTagGcm : Gcm := Gcm.appending

def zeroNonce : Nonce := ⟨replicate nonceLen 0, length_replicate⟩

/-- Three bytes in chunks of two. -/
theorem codec_exact_shortLastChunk :
    decryptChunkedFromReader Aead.decrypt magicCas [1] [2]
        ⟨encryptChunked (fun _ => zeroNonce) magicCas [1] [2] [7, 8, 9] 2, false⟩ = ⟨[7, 8, 9], .ok 3⟩ :=
  (codec_exact.1 (fun _ => zeroNonce) magicCas [1] [2] [7, 8,
    9] _ 2 (by decide) (by decide) (by decide) rfl).2.2

end Example

end AeadChunk

end MatterCore
