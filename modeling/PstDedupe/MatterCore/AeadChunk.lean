import PstDedupe.Foundations.Chunks
import PstDedupe.Foundations.IdealAead
import PstDedupe.Rust.Bytes

/-!
# Chunked encryption of blobs (`matter-core/src/crypto/aead_chunk.rs`)

A blob is a header and a frame for every chunk: a nonce and the chunk, sealed with the domain, the
extra bytes, the index, the length of the plaintext and the chunk size as associated data.
-/

namespace MatterCore

open Rust Foundations List

def nonceLen : Nat := 12
def tagLen : Nat := 16
def headerLen : Nat := 20

abbrev Nonce := { bs : Bytes // bs.length = nonceLen }

/-- AES-256-GCM under one key: a ciphertext carries a tag of 16 bytes. -/
class Gcm extends Aead Nonce Bytes Bytes Bytes where
  length_encrypt : ∀ n a m, (encrypt n a m).length = m.length + tagLen

/-- A cipher that only appends a tag: the cipher of the concrete runs. -/
abbrev Gcm.appending : Gcm where
  encrypt _ _ m := m ++ replicate tagLen 0
  decrypt _ _ c := some (c.take (c.length - tagLen))
  decrypt_encrypt _ _ m := by
    rw [length_append, length_replicate, Nat.add_sub_cancel, take_left' rfl]
  length_encrypt _ _ m := by rw [length_append, length_replicate]

theorem length_zeroNonce : (replicate 12 (0 : UInt8)).length = nonceLen := rfl

inductive CryptoError where
  | crypto (text : String)
  | io
  deriving DecidableEq, Repr

abbrev Magic := { bs : Bytes // bs.length = 8 }

def magicCas : Magic := ⟨bytes "DDCAS01\x00", by decide⟩

def magicDb : Magic := ⟨bytes "DDMATDB1", by decide⟩

def beBytes (n x : Nat) : Bytes := (leBytes n x).reverse

def aadFor (domain extra : Bytes) (chunkIdx plainLen chunkSize : Nat) : Bytes :=
  domain ++ 0 :: (extra ++ (beBytes 8 chunkIdx ++ (beBytes 8 plainLen ++ beBytes 4 chunkSize)))

def writeHeader (magic : Magic) (chunkSize plainLen : Nat) : Bytes :=
  magic.1 ++ (leBytes 4 chunkSize ++ leBytes 8 plainLen)

def readPlainLen (data : Bytes) : Except CryptoError Nat :=
  if data.length < headerLen then .error (.crypto "encrypted blob header too short")
  else .ok (ofLeBytes ((data.drop 12).take 8))

/-- What a reader yields: its bytes, and then the end of the file or an error. -/
structure ByteReader where
  bytes : Bytes
  fails : Bool := false

def sealChunks (nonce : Nat → Nonce) (aad : Nat → Bytes) : Nat → List Bytes → List (Seal Nonce Bytes Bytes)
  | _, [] => []
  | idx, chunk :: rest => ⟨nonce idx, aad idx, chunk⟩ :: sealChunks nonce aad (idx + 1) rest

def readChunks (chunkSize : Nat) : Nat → Nat → Bytes → List Bytes × Bool
  | 0, remaining, _ => ([], remaining = 0)
  | fuel + 1, remaining, data =>
    if remaining = 0 then ([], true)
    else
      let want := min remaining chunkSize
      if data.length < want then ([], false)
      else
        let (chunks, done) := readChunks chunkSize fuel (remaining - want) (data.drop want)
        (data.take want :: chunks, done)

section Encrypt

variable [Gcm]

def frameBytes (s : Seal Nonce Bytes Bytes) : Bytes := s.nonce.1 ++ Aead.encrypt s.nonce s.aad s.msg

def encryptChunked (nonce : Nat → Nonce) (magic : Magic) (domain extra plain : Bytes)
    (chunkSize : Nat) : Bytes :=
  let chunkSize := max chunkSize 1
  writeHeader magic chunkSize plain.length
    ++ (sealChunks nonce (aadFor domain extra · plain.length chunkSize) 0
      (chunks chunkSize plain)).flatMap frameBytes

def encryptChunkedFromReader (nonce : Nat → Nonce) (magic : Magic) (domain extra : Bytes)
    (reader : ByteReader) (chunkSize plainLen : Nat) : Bytes × Bool :=
  let chunkSize := max chunkSize 1
  let (chunks, done) := readChunks chunkSize reader.bytes.length plainLen reader.bytes
  (writeHeader magic chunkSize plainLen
    ++ (sealChunks nonce (aadFor domain extra · plainLen chunkSize) 0 chunks).flatMap frameBytes, done)

end Encrypt

/-! ## Decryption -/

/-- What opens a frame: from the nonce, the associated data and the ciphertext. -/
abbrev OpenChunk := Nonce → Bytes → Bytes → Option Bytes

def decryptFrames (openChunk : OpenChunk) (truncated : CryptoError) (aad : Nat → Bytes)
    (plainLen chunkSize : Nat) :
    Nat → Nat → Bytes → Bytes → Except CryptoError (Bytes × Bytes)
  | 0, _, plain, rest => if plain.length < plainLen then .error truncated else .ok (plain, rest)
  | fuel + 1, idx, plain, rest =>
    if plain.length < plainLen then
      let need := min (plainLen - plain.length) chunkSize
      if h : rest.length < nonceLen + need + tagLen then .error truncated
      else
        let nonce : Nonce := ⟨rest.take nonceLen, length_take_of_le (by omega)⟩
        match openChunk nonce (aad idx) ((rest.drop nonceLen).take (need + tagLen)) with
        | none => .error (.crypto "chunk decrypt failed")
        | some pt =>
          if pt.length ≠ need then .error (.crypto "chunk length mismatch")
          else decryptFrames openChunk truncated aad plainLen chunkSize fuel (idx + 1) (plain ++ pt)
            (rest.drop (nonceLen + need + tagLen))
    else .ok (plain, rest)

def maxChunkSize : Nat := 4 * 1024 * 1024

def decryptBlob (openChunk : OpenChunk) (tooShort truncated : CryptoError) (expectedMagic : Magic)
    (domain extra data : Bytes) : Except CryptoError (Bytes × Bytes) :=
  if data.length < headerLen then .error tooShort
  else if data.take 8 ≠ expectedMagic.1 then .error (.crypto "encrypted blob magic mismatch")
  else
    let chunkSize := ofLeBytes ((data.drop 8).take 4)
    let plainLen := ofLeBytes ((data.drop 12).take 8)
    if chunkSize = 0 ∨ maxChunkSize < chunkSize then
      .error (.crypto s!"encrypted blob chunk_size {chunkSize} out of 1..=4MiB")
    else
      decryptFrames openChunk truncated (aadFor domain extra · plainLen chunkSize) plainLen chunkSize
        data.length 0 [] (data.drop headerLen)

def decryptChunked (openChunk : OpenChunk) (expectedMagic : Magic) (domain extra data : Bytes) :
    Except CryptoError Bytes := do
  let (plain, rest) ← decryptBlob openChunk (.crypto "encrypted blob too short")
    (.crypto "encrypted blob truncated")
    expectedMagic domain extra data
  if rest ≠ [] then .error (.crypto "encrypted blob has trailing garbage") else .ok plain

def decryptChunkedFromReader (openChunk : OpenChunk) (expectedMagic : Magic) (domain extra : Bytes)
    (reader : ByteReader) : Except CryptoError Bytes := do
  let (plain, rest) ← decryptBlob openChunk .io .io expectedMagic domain extra reader.bytes
  if rest ≠ [] then .error (.crypto "encrypted blob has trailing garbage")
  else if reader.fails then .error .io
  else .ok plain

/-! ## What is accepted -/

def Framed (openChunk : OpenChunk) (aad : Nat → Bytes) : Nat → List Bytes → Bytes → Bytes → Prop
  | _, [], rest, tail => rest = tail
  | idx, m :: ms, rest, tail => ∃ (nonce : Nonce) (ct rest' : Bytes), rest = nonce.1 ++
      (ct ++ rest') ∧ ct.length = m.length + tagLen ∧ openChunk nonce (aad idx) ct = some m
      ∧ Framed openChunk aad (idx + 1) ms rest' tail

section Frames

variable {openChunk : OpenChunk} {truncated : CryptoError} {aad : Nat → Bytes}
  {plainLen chunkSize : Nat} {idx : Nat}
  {plain rest p tail : Bytes}

theorem framed_chunks (hcs : 0 < chunkSize) {q rest' tail ct : Bytes} {nonce : Nonce} (hq : q ≠ [])
    (hct : ct.length = min q.length chunkSize + tagLen) :
    Framed openChunk aad idx (chunks chunkSize q) (nonce.1 ++ (ct ++ rest')) tail ↔
      openChunk nonce (aad idx) ct = some (q.take chunkSize)
        ∧ Framed openChunk aad (idx + 1) (chunks chunkSize (q.drop chunkSize)) rest' tail := by
  rw [chunks_of_ne_nil hcs hq]
  constructor
  · rintro ⟨nonce', ct', rest'', hrest, hct', hopen, hframes⟩
    obtain ⟨hnonce, hrest⟩ := append_inj hrest (nonce.2.trans nonce'.2.symm)
    rw [length_take] at hct'
    obtain ⟨rfl, rfl⟩ := append_inj hrest (by omega)
    rw [Subtype.ext hnonce]
    exact ⟨hopen, hframes⟩
  · rintro ⟨hopen, hframes⟩
    refine ⟨nonce, ct, rest', rfl, ?_, hopen, hframes⟩
    rw [length_take, hct, Nat.min_comm]

theorem length_le_of_framed {m : Bytes} {ms : List Bytes} {rest tail : Bytes}
    (h : Framed openChunk aad idx (m :: ms) rest tail) : nonceLen + m.length + tagLen ≤ rest.length := by
  obtain ⟨nonce, ct, rest', rfl, hct, _, _⟩ := h
  have hnonce := nonce.2
  rw [length_append, length_append, hct, hnonce]
  unfold nonceLen
  omega

theorem exists_frame {need : Nat} {rest : Bytes} (h : ¬ rest.length < nonceLen + need + tagLen) :
    ∃ (nonce : Nonce) (ct rest' : Bytes), rest = nonce.1 ++ (ct ++ rest') ∧ ct.length = need + tagLen := by
  refine ⟨⟨rest.take nonceLen, length_take_of_le (by omega)⟩,
    (rest.drop nonceLen).take (need + tagLen), rest.drop (nonceLen + need + tagLen), ?_, ?_⟩
  · have hdrop : rest.drop (nonceLen + need + tagLen) = (rest.drop nonceLen).drop (need + tagLen) := by
      rw [drop_drop, Nat.add_assoc]
    rw [hdrop, take_append_drop, take_append_drop]
  · rw [length_take, length_drop]
    omega

theorem decryptFrames_succ {fuel idx need : Nat} {plain ct rest' : Bytes} {nonce : Nonce}
    (hmore : plain.length < plainLen) (hneed : need = min (plainLen - plain.length) chunkSize)
    (hct : ct.length = need + tagLen) :
    decryptFrames openChunk truncated aad plainLen chunkSize (fuel + 1) idx plain
      (nonce.1 ++ (ct ++ rest')) = match openChunk nonce (aad idx) ct with
      | none => .error (.crypto "chunk decrypt failed")
      | some pt =>
        if pt.length ≠ need then .error (.crypto "chunk length mismatch")
        else decryptFrames openChunk truncated aad plainLen chunkSize fuel (idx + 1) (plain ++ pt) rest' := by
  have hnonce : nonce.1.length = nonceLen := nonce.2
  have hlen : ¬ (nonce.1 ++ (ct ++ rest')).length < nonceLen + need + tagLen := by
    rw [length_append, length_append, hct, hnonce]
    omega
  have htake : (nonce.1 ++ (ct ++ rest')).take nonceLen = nonce.1 := take_left' hnonce
  have hdrop : (nonce.1 ++ (ct ++ rest')).drop nonceLen = ct ++ rest' := drop_left' hnonce
  have hrest : (nonce.1 ++ (ct ++ rest')).drop (nonceLen + need + tagLen) = rest' := by
    rw [Nat.add_assoc, ← drop_drop, hdrop, drop_left' hct]
  subst hneed
  rw [decryptFrames, if_pos hmore, dif_neg hlen, hrest, hdrop, take_left' hct]
  simp only [htake]

theorem rest_of_append {plain p q : Bytes} (hmore : plain.length < plainLen) (hp : p.length = plainLen)
    (hpq : p = plain ++ q) : q ≠ [] ∧ q.length = plainLen - plain.length := by
  subst hpq
  rw [length_append] at hp
  exact ⟨ne_nil_of_length_pos (by omega), by omega⟩

theorem decryptFrames_done (hlen : plain.length = plainLen) :
    (.ok (plain, rest) : Except CryptoError (Bytes × Bytes)) = .ok (p, tail) ↔
      ∃ q, p = plain ++ q ∧ p.length = plainLen ∧ Framed openChunk aad idx (chunks chunkSize q) rest tail := by
  constructor
  · intro h
    cases h
    exact ⟨[], (append_nil _).symm, hlen, rfl⟩
  · rintro ⟨q, rfl, hp, hframes⟩
    rw [length_append] at hp
    obtain rfl : q = [] := List.length_eq_zero_iff.mp (by omega)
    rw [append_nil, show rest = tail from hframes]

theorem not_framed_of_short (hcs : 0 < chunkSize) (hmore : plain.length < plainLen)
    (hshort : rest.length < nonceLen + min (plainLen - plain.length) chunkSize + tagLen) :
    ¬ ∃ q, p = plain ++ q ∧ p.length = plainLen ∧ Framed openChunk aad idx (chunks chunkSize q) rest tail := by
  rintro ⟨q, hpq, hp, hframes⟩
  obtain ⟨hq, hqlen⟩ := rest_of_append hmore hp hpq
  rw [chunks_of_ne_nil hcs hq] at hframes
  have hlen := length_le_of_framed hframes
  rw [length_take, hqlen, Nat.min_comm] at hlen
  omega

theorem decryptFrames_eq_ok (hcs : 0 < chunkSize) {fuel idx : Nat}
    (hfuel : rest.length ≤ fuel) (hle : plain.length ≤ plainLen) :
    decryptFrames openChunk truncated aad plainLen chunkSize fuel idx plain rest = .ok (p, tail) ↔
      ∃ q, p = plain ++ q ∧ p.length = plainLen ∧ Framed openChunk aad idx (chunks chunkSize q) rest tail := by
  induction fuel generalizing idx plain rest with
  | zero =>
    by_cases hmore : plain.length < plainLen
    · rw [decryptFrames, if_pos hmore]
      exact iff_of_false (by simp) (not_framed_of_short hcs hmore (by unfold nonceLen; omega))
    · rw [decryptFrames, if_neg hmore]
      exact decryptFrames_done (by omega)
  | succ fuel ih =>
    by_cases hmore : plain.length < plainLen
    · by_cases hlt : rest.length < nonceLen + min (plainLen - plain.length) chunkSize + tagLen
      · rw [decryptFrames, if_pos hmore, dif_pos hlt]
        exact iff_of_false (by simp) (not_framed_of_short hcs hmore hlt)
      · obtain ⟨nonce, ct, rest', rfl, hct⟩ := exists_frame hlt
        rw [decryptFrames_succ hmore rfl hct]
        -- what the claim says of the rest, with its first frame taken off
        have hfirst : ∀ q : Bytes, p = plain ++ q → p.length = plainLen →
            (Framed openChunk aad idx (chunks chunkSize q) (nonce.1 ++ (ct ++ rest')) tail ↔
              openChunk nonce (aad idx) ct = some (q.take chunkSize)
                ∧ Framed openChunk aad (idx + 1) (chunks chunkSize (q.drop chunkSize)) rest' tail) := by
          intro q hpq hp
          obtain ⟨hq, hqlen⟩ := rest_of_append hmore hp hpq
          exact framed_chunks hcs hq (by rw [hqlen]; exact hct)
        cases hopen : openChunk nonce (aad idx) ct with
        | none =>
          refine iff_of_false (by simp) ?_
          rintro ⟨q, hpq, hp, hframes⟩
          rw [((hfirst q hpq hp).mp hframes).1] at hopen
          cases hopen
        | some pt =>
          dsimp only
          by_cases hpt : pt.length = min (plainLen - plain.length) chunkSize
          · rw [if_neg (not_not.mpr hpt), ih (by simp at hfuel; omega) (by rw [length_append]; omega)]
            constructor
            · rintro ⟨q, hpq, hp, hframes⟩
              rw [append_assoc] at hpq
              obtain ⟨_, hqlen⟩ := rest_of_append hmore hp hpq
              rw [length_append] at hqlen
              refine ⟨pt ++ q, hpq, hp, (hfirst _ hpq hp).mpr ?_⟩
              -- a chunk that is short is the last one
              have hsplit : (pt ++ q).take chunkSize = pt ∧ (pt ++ q).drop chunkSize = q := by
                by_cases hfull : pt.length = chunkSize
                · exact ⟨take_left' hfull, drop_left' hfull⟩
                · obtain rfl : q = [] := List.length_eq_zero_iff.mp (by omega)
                  rw [append_nil]
                  exact ⟨take_of_length_le (by omega), drop_of_length_le (by omega)⟩
              rw [hsplit.1, hsplit.2]
              exact ⟨hopen, hframes⟩
            · rintro ⟨q, hpq, hp, hframes⟩
              obtain ⟨hfirstOpen, hrest⟩ := (hfirst q hpq hp).mp hframes
              rw [hopen] at hfirstOpen
              refine ⟨q.drop chunkSize, ?_, hp, hrest⟩
              rw [Option.some.inj hfirstOpen, append_assoc, take_append_drop]
              exact hpq
          · rw [if_pos hpt]
            refine iff_of_false (by simp) ?_
            rintro ⟨q, hpq, hp, hframes⟩
            obtain ⟨_, hqlen⟩ := rest_of_append hmore hp hpq
            rw [((hfirst q hpq hp).mp hframes).1] at hopen
            apply hpt
            rw [← Option.some.inj hopen, length_take, hqlen, Nat.min_comm]
    · rw [decryptFrames, if_neg hmore]
      exact decryptFrames_done (by omega)

end Frames

section Header

variable {magic : Magic} {chunkSize plainLen : Nat} {data body : Bytes}

theorem length_writeHeader : (writeHeader magic chunkSize plainLen).length = headerLen := by
  unfold writeHeader headerLen
  rw [length_append, length_append, magic.2, length_leBytes, length_leBytes]

theorem header_fields (hcs : chunkSize < 2 ^ 32) (hlen : plainLen < 2 ^ 64)
    (hdata : data = writeHeader magic chunkSize plainLen ++ body) :
    headerLen ≤ data.length ∧ data.take 8 = magic.1 ∧ ofLeBytes ((data.drop 8).take 4) = chunkSize
      ∧ ofLeBytes ((data.drop 12).take 8) = plainLen ∧ data.drop headerLen = body := by
  subst hdata
  have hdrop : ((writeHeader magic chunkSize plainLen ++ body)).drop 8
      = leBytes 4 chunkSize ++ (leBytes 8 plainLen ++ body) := by
    unfold writeHeader
    rw [append_assoc, append_assoc, drop_left' magic.2]
  refine ⟨?_, ?_, ?_, ?_, drop_left' length_writeHeader⟩
  · rw [length_append, length_writeHeader]
    omega
  · unfold writeHeader
    rw [append_assoc, take_left' magic.2]
  · rw [hdrop, take_left' (length_leBytes 4 _), ofLeBytes_leBytes_of_lt hcs]
  · rw [show 12 = 8 + 4 from rfl, ← drop_drop, hdrop, drop_left' (length_leBytes 4 _),
      take_left' (length_leBytes 8 _), ofLeBytes_leBytes_of_lt hlen]

theorem eq_header_append (hlen : headerLen ≤ data.length) (hmagic : data.take 8 = magic.1) :
    data = writeHeader magic (ofLeBytes ((data.drop 8).take 4)) (ofLeBytes ((data.drop 12).take 8))
        ++ data.drop headerLen := by
  have hfour : ((data.drop 8).take 4).length = 4 := by
    rw [length_take, length_drop]
    unfold headerLen at hlen
    omega
  have height : ((data.drop 12).take 8).length = 8 := by
    rw [length_take, length_drop]
    unfold headerLen at hlen
    omega
  have hsecond : (data.drop 8).drop 4 = data.drop 12 := drop_drop
  have hthird : (data.drop 12).drop 8 = data.drop headerLen := drop_drop
  unfold writeHeader
  rw [leBytes_ofLeBytes hfour, leBytes_ofLeBytes height, ← hmagic, ← hthird, append_assoc,
    append_assoc, take_append_drop, ← hsecond, take_append_drop, take_append_drop]

end Header

/-- `data` is a blob of chunks that open to `plain`, one behind the other. -/
def Accepted (openChunk : OpenChunk) (magic : Magic) (domain extra data plain : Bytes) : Prop :=
  ∃ chunkSize body, 0 < chunkSize ∧ chunkSize ≤ maxChunkSize ∧ plain.length < 2 ^ 64
    ∧ data = writeHeader magic chunkSize plain.length ++ body
    ∧ Framed openChunk (aadFor domain extra · plain.length chunkSize) 0 (chunks chunkSize plain) body []

section Decrypt

variable {openChunk : OpenChunk} {magic : Magic} {domain extra data plain : Bytes}

theorem decryptFrames_accepted {truncated : CryptoError} (hlen : headerLen ≤ data.length)
    (hmagic : data.take 8 = magic.1)
    (hsize : ¬ (ofLeBytes ((data.drop 8).take 4) = 0 ∨ maxChunkSize < ofLeBytes ((data.drop 8).take 4))) :
    decryptFrames openChunk truncated
        (aadFor domain extra · (ofLeBytes ((data.drop 12).take 8)) (ofLeBytes ((data.drop 8).take 4)))
        (ofLeBytes ((data.drop 12).take 8)) (ofLeBytes ((data.drop 8).take 4)) data.length 0 []
        (data.drop headerLen)
          = .ok (plain, [])
      ↔ Accepted openChunk magic domain extra data plain := by
  rw [decryptFrames_eq_ok (by omega) (by rw [length_drop]; omega) (Nat.zero_le _)]
  constructor
  · rintro ⟨q, hq, hplain, hframes⟩
    rw [nil_append] at hq
    subst hq
    have hlt : ofLeBytes ((data.drop 12).take 8) < 2 ^ 64 := by
      refine Nat.lt_of_lt_of_le (ofLeBytes_lt _) ?_
      exact Nat.pow_le_pow_right (by decide) (length_take_le _ _)
    refine ⟨_, data.drop headerLen, by omega, by omega, hplain ▸ hlt, ?_, hplain ▸ hframes⟩
    rw [hplain]
    exact eq_header_append hlen hmagic
  · rintro ⟨chunkSize, body, hpos, hmax, hlt, hdata, hframes⟩
    have hmax32 : chunkSize < 2 ^ 32 := Nat.lt_of_le_of_lt hmax (by decide)
    obtain ⟨_, _, hsizeField, hlenField, hbody⟩ := header_fields hmax32 hlt hdata
    rw [hsizeField, hlenField, hbody]
    exact ⟨plain, rfl, rfl, hframes⟩

theorem decryptBlob_eq_ok {tooShort truncated : CryptoError} :
    decryptBlob openChunk tooShort truncated magic domain extra data = .ok (plain, [])
      ↔ Accepted openChunk magic domain extra data plain := by
  -- an accepted blob has a header that passes the checks
  have hheader : Accepted openChunk magic domain extra data plain → headerLen ≤ data.length
      ∧ data.take 8 = magic.1
      ∧ ¬ (ofLeBytes ((data.drop 8).take 4) = 0 ∨ maxChunkSize < ofLeBytes ((data.drop 8).take 4)) := by
    rintro ⟨chunkSize, body, hpos, hmax, hlt, hdata, _⟩
    have hmax32 : chunkSize < 2 ^ 32 := Nat.lt_of_le_of_lt hmax (by decide)
    obtain ⟨hlen, hmagic, hsizeField, _, _⟩ := header_fields hmax32 hlt hdata
    rw [hsizeField]
    exact ⟨hlen, hmagic, by omega⟩
  unfold decryptBlob
  dsimp only
  by_cases hshort : data.length < headerLen
  · rw [if_pos hshort]
    refine iff_of_false (by simp) fun h => ?_
    exact Nat.not_le_of_lt hshort (hheader h).1
  · rw [if_neg hshort]
    by_cases hmagic : data.take 8 = magic.1
    · rw [if_neg (not_not.mpr hmagic)]
      by_cases hsize : ofLeBytes ((data.drop 8).take 4) = 0 ∨ maxChunkSize < ofLeBytes ((data.drop 8).take 4)
      · rw [if_pos hsize]
        exact iff_of_false (by simp) fun h => (hheader h).2.2 hsize
      · rw [if_neg hsize]
        exact decryptFrames_accepted (Nat.le_of_not_lt hshort) hmagic hsize
    · rw [if_pos hmagic]
      exact iff_of_false (by simp) fun h => hmagic (hheader h).2.1

theorem decryptChunked_eq_ok : decryptChunked openChunk magic domain extra data = .ok plain
    ↔ Accepted openChunk magic domain extra data plain := by
  unfold decryptChunked
  rw [bind_eq_ok]
  constructor
  · rintro ⟨⟨p, rest⟩, hblob, hrest⟩
    dsimp only at hrest
    split at hrest
    · cases hrest
    · rename_i hnil
      cases hrest
      rw [not_not.mp hnil] at hblob
      exact decryptBlob_eq_ok.mp hblob
  · intro h
    exact ⟨_, decryptBlob_eq_ok.mpr h, rfl⟩

theorem decryptChunkedFromReader_eq_ok {reader : ByteReader} :
    decryptChunkedFromReader openChunk magic domain extra reader = .ok plain
      ↔ Accepted openChunk magic domain extra reader.bytes plain ∧ reader.fails = false := by
  unfold decryptChunkedFromReader
  rw [bind_eq_ok]
  constructor
  · rintro ⟨⟨p, rest⟩, hblob, hrest⟩
    dsimp only at hrest
    split at hrest
    · cases hrest
    · rename_i hnil
      split at hrest
      · cases hrest
      · rename_i hfails
        cases hrest
        rw [not_not.mp hnil] at hblob
        exact ⟨decryptBlob_eq_ok.mp hblob, by simpa using hfails⟩
  · rintro ⟨h, hfails⟩
    refine ⟨_, decryptBlob_eq_ok.mpr h, ?_⟩
    dsimp only
    rw [hfails]
    rfl

end Decrypt

section RoundTrip

variable [Gcm]

omit [Gcm] in
theorem readChunks_length {chunkSize fuel : Nat} {data : Bytes} (hcs : 0 < chunkSize)
    (hfuel : data.length ≤ fuel) :
    readChunks chunkSize fuel data.length data = (chunks chunkSize data, true) := by
  induction fuel generalizing data with
  | zero =>
    obtain rfl : data = [] := List.length_eq_zero_iff.mp (by omega)
    rfl
  | succ fuel ih =>
    rw [readChunks]
    by_cases hdata : data = []
    · subst hdata
      rfl
    · have hpos := List.length_pos_iff.mpr hdata
      have htake : data.take (min data.length chunkSize) = data.take chunkSize := by
        rw [Nat.min_comm, ← take_eq_take_min]
      have hdrop : data.drop (min data.length chunkSize) = data.drop chunkSize := by
        rcases Nat.le_total data.length chunkSize with hle | hle
        · rw [Nat.min_eq_left hle, drop_length, drop_of_length_le hle]
        · rw [Nat.min_eq_right hle]
      have hrest := ih (show (data.drop chunkSize).length ≤ fuel by rw [length_drop]; omega)
      rw [if_neg (by omega), if_neg (by omega), chunks_of_ne_nil hcs hdata]
      dsimp only
      rw [htake, hdrop, show data.length - min data.length chunkSize = (data.drop chunkSize).length by
        rw [length_drop]; omega, hrest]

theorem encryptChunkedFromReader_length (nonce : Nat → Nonce) (magic : Magic) (domain extra plain : Bytes)
    (chunkSize : Nat) : encryptChunkedFromReader nonce magic domain extra ⟨plain, false⟩ chunkSize plain.length
      = (encryptChunked nonce magic domain extra plain chunkSize, true) := by
  unfold encryptChunkedFromReader encryptChunked
  dsimp only
  rw [readChunks_length (Nat.le_max_right _ _) (Nat.le_refl _)]

theorem framed_sealChunks {openChunk : OpenChunk}
    (hopen : ∀ n a m, openChunk n a (Aead.encrypt n a m) = some m) (nonce : Nat → Nonce)
    (aad : Nat → Bytes) (idx : Nat) (ms : List Bytes) :
    Framed openChunk aad idx ms ((sealChunks nonce aad idx ms).flatMap frameBytes) [] := by
  induction ms generalizing idx with
  | nil => rfl
  | cons m ms ih =>
    refine ⟨nonce idx, Aead.encrypt (nonce idx) (aad idx) m, _, ?_, Gcm.length_encrypt _ _ _,
      hopen _ _ _, ih (idx + 1)⟩
    rw [sealChunks, flatMap_cons, frameBytes, append_assoc]

theorem length_encryptChunked (nonce : Nat → Nonce) (magic : Magic) (domain extra plain : Bytes)
    (chunkSize : Nat) :
    (encryptChunked nonce magic domain extra plain chunkSize).length
      = headerLen + (plain.length
        + (nonceLen + tagLen) * ((plain.length + max chunkSize 1 - 1) / max chunkSize 1)) := by
  have hpos : 0 < max chunkSize 1 := Nat.le_max_right _ _
  have hframes : ∀ (aad : Nat → Bytes) (idx : Nat) (ms : List Bytes),
      ((sealChunks nonce aad idx ms).flatMap frameBytes).length
        = ms.flatten.length + (nonceLen + tagLen) * ms.length := by
    intro aad idx ms
    induction ms generalizing idx with
    | nil => rfl
    | cons m ms ih =>
      rw [sealChunks, flatMap_cons, length_append, ih, frameBytes, length_append,
        Gcm.length_encrypt, (nonce idx).2, flatten_cons, length_append, length_cons, Nat.mul_add]
      show nonceLen + (m.length + tagLen) + _ = _
      omega
  unfold encryptChunked
  rw [length_append, length_writeHeader, hframes, flatten_chunks hpos, length_chunks hpos]

theorem decryptChunked_encryptChunked (nonce : Nat → Nonce) (magic : Magic) (domain extra : Bytes)
    {plain : Bytes} {chunkSize : Nat} (hpos : 0 < chunkSize) (hmax : chunkSize ≤ maxChunkSize)
    (hlen : plain.length < 2 ^ 64) :
    decryptChunked Aead.decrypt magic domain extra (encryptChunked nonce magic domain extra plain chunkSize)
      = .ok plain := by
  rw [decryptChunked_eq_ok]
  refine ⟨chunkSize, _, hpos, hmax, hlen, ?_, framed_sealChunks Aead.decrypt_encrypt nonce _ 0 _⟩
  unfold encryptChunked
  rw [Nat.max_eq_left hpos]

end RoundTrip

end MatterCore
