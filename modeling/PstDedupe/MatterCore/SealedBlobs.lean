import PstDedupe.MatterCore.AeadChunk

/-!
# Which blobs an attacker can make

The key is ideal: a frame opens when its nonce, associated data and ciphertext come from a seal of
the history.
-/

namespace MatterCore

open Rust Foundations List

theorem length_beBytes (n x : Nat) : (beBytes n x).length = n := by
  unfold beBytes
  rw [length_reverse, length_leBytes]

theorem beBytes_inj {n x y : Nat} (hx : x < 256 ^ n) (hy : y < 256 ^ n)
    (h : beBytes n x = beBytes n y) : x = y := by
  have hle := congrArg ofLeBytes (reverse_injective h)
  rwa [ofLeBytes_leBytes_of_lt hx, ofLeBytes_leBytes_of_lt hy] at hle

theorem aadFor_eq (domain extra : Bytes) (idx len size : Nat) : aadFor domain extra idx len size
    = (domain ++ 0 :: extra) ++ (beBytes 8 idx ++ (beBytes 8 len ++ beBytes 4 size)) := by
  rw [append_assoc]
  rfl

theorem aadFor_eq_iff {domain extra domain' extra' : Bytes} {idx idx' len len' size size' : Nat}
    (hidx : idx < 2 ^ 64) (hidx' : idx' < 2 ^ 64) (hlen : len < 2 ^ 64) (hlen' : len' < 2 ^ 64)
    (hsize : size < 2 ^ 32) (hsize' : size' < 2 ^ 32) :
    aadFor domain extra idx len size = aadFor domain' extra' idx' len' size' ↔
      domain ++ 0 :: extra = domain' ++ 0 :: extra' ∧ idx = idx' ∧ len = len' ∧ size = size' := by
  constructor
  · intro h
    rw [aadFor_eq, aadFor_eq] at h
    obtain ⟨hname, hrest⟩ := append_inj' h (by simp only [length_append, length_beBytes])
    obtain ⟨hidxs, hrest⟩ := append_inj hrest (by rw [length_beBytes, length_beBytes])
    obtain ⟨hlens, hsizes⟩ := append_inj hrest (by rw [length_beBytes, length_beBytes])
    exact ⟨hname, beBytes_inj hidx hidx' hidxs, beBytes_inj hlen hlen' hlens, beBytes_inj hsize hsize' hsizes⟩
  · rintro ⟨hname, rfl, rfl, rfl⟩
    rw [aadFor_eq, aadFor_eq, hname]

inductive SealSource where
  | bytes (plain : Bytes) (lt : plain.length < 2 ^ 64)
  | reader (reader : ByteReader) (plainLen : Nat) (lt : plainLen < 2 ^ 64)

/-- A call of `encrypt_chunked` or `encrypt_chunked_from_reader`, with the nonces it draws. -/
structure SealCall where
  magic : Magic
  domain : Bytes
  extra : Bytes
  source : SealSource
  chunkSize : Nat
  chunkSize_lt : chunkSize < 2 ^ 32
  nonce : Nat → Nonce

namespace SealCall

variable (call : SealCall)

def usedChunkSize : Nat := max call.chunkSize 1

def plainLen : Nat :=
  match call.source with
  | .bytes plain _ => plain.length
  | .reader _ plainLen _ => plainLen

def sealedChunks : List Bytes :=
  match call.source with
  | .bytes plain _ => chunks call.usedChunkSize plain
  | .reader reader plainLen _ => (readChunks call.usedChunkSize reader.bytes.length plainLen reader.bytes).1

def plaintext : Option Bytes :=
  match call.source with
  | .bytes plain _ => some plain
  | .reader reader plainLen _ =>
    if (readChunks call.usedChunkSize reader.bytes.length plainLen reader.bytes).2 then
      some (reader.bytes.take plainLen)
    else none

def seals : List (Seal Nonce Bytes Bytes) :=
  sealChunks call.nonce (aadFor call.domain call.extra · call.plainLen call.usedChunkSize) 0 call.sealedChunks

def output [Gcm] : Bytes :=
  match call.source with
  | .bytes plain _ => encryptChunked call.nonce call.magic call.domain call.extra plain call.chunkSize
  | .reader reader plainLen _ =>
    (encryptChunkedFromReader call.nonce call.magic call.domain call.extra reader call.chunkSize plainLen).1

end SealCall

def sealLog (history : List SealCall) : List (Seal Nonce Bytes Bytes) := history.flatMap SealCall.seals

theorem mem_sealChunks {nonce : Nat → Nonce} {aad : Nat → Bytes} {idx : Nat} {ms : List Bytes}
    {s : Seal Nonce Bytes Bytes} : s ∈ sealChunks nonce aad idx ms ↔
      ∃ i, ms[i]? = some s.msg ∧ s.nonce = nonce (idx + i) ∧ s.aad = aad (idx + i) := by
  induction ms generalizing idx with
  | nil => simp [sealChunks]
  | cons m ms ih =>
    rw [sealChunks, mem_cons, ih]
    constructor
    · rintro (rfl | ⟨i, hi, hnonce, haad⟩)
      · exact ⟨0, rfl, rfl, rfl⟩
      · refine ⟨i + 1, hi, ?_, ?_⟩
        · rw [hnonce, Nat.add_assoc, Nat.add_comm 1]
        · rw [haad, Nat.add_assoc, Nat.add_comm 1]
    · rintro ⟨i, hi, hnonce, haad⟩
      cases i with
      | zero =>
        obtain ⟨n, a, m'⟩ := s
        obtain rfl : m = m' := Option.some.inj hi
        exact .inl (by rw [show n = nonce idx from hnonce, show a = aad idx from haad])
      | succ i =>
        refine .inr ⟨i, hi, ?_, ?_⟩
        · rw [hnonce, Nat.add_assoc, Nat.add_comm 1]
        · rw [haad, Nat.add_assoc, Nat.add_comm 1]

theorem exists_framed_iff [Gcm] {log : List (Seal Nonce Bytes Bytes)} {aad : Nat → Bytes}
    {idx : Nat} {ms : List Bytes} : (∃ body, Framed (openLogged log) aad idx ms body []) ↔
      ∀ i m, ms[i]? = some m → ∃ n, (⟨n, aad (idx + i), m⟩ : Seal Nonce Bytes Bytes) ∈ log := by
  induction ms generalizing idx with
  | nil => exact iff_of_true ⟨[], rfl⟩ fun i m hi => by simp at hi
  | cons m ms ih =>
    constructor
    · rintro ⟨body, nonce, ct, rest', -, -, hopen, hframes⟩ i m' hi
      cases i with
      | zero =>
        obtain rfl : m = m' := Option.some.inj hi
        exact ⟨nonce, (openLogged_eq_some.mp hopen).1⟩
      | succ i =>
        have hrest := ih.mp ⟨rest', hframes⟩ i m' hi
        rwa [Nat.add_assoc, Nat.add_comm 1] at hrest
    · intro h
      obtain ⟨n, hn⟩ := h 0 m rfl
      have hlater : ∀ i m', ms[i]? = some m' → ∃ n,
          (⟨n, aad (idx + 1 + i), m'⟩ : Seal Nonce Bytes Bytes) ∈ log := by
        intro i m' hi
        rw [Nat.add_assoc, Nat.add_comm 1]
        exact h (i + 1) m' hi
      obtain ⟨rest', hframes⟩ := ih.mpr hlater
      exact ⟨_, n, Aead.encrypt n (aad idx) m, rest', rfl, Gcm.length_encrypt _ _ _,
        openLogged_eq_some.mpr ⟨hn, rfl⟩, hframes⟩

/-- Every chunk of the text was sealed at its place by a call of this name, length and chunk
size. -/
def Spliced (history : List SealCall) (domain extra : Bytes) (chunkSize : Nat) (plain : Bytes) : Prop :=
  ∀ (i : Nat) (m : Bytes), (chunks chunkSize plain)[i]? = some m → ∃ call ∈ history,
    call.domain ++ 0 :: call.extra = domain ++ 0 :: extra ∧ call.plainLen = plain.length
      ∧ call.usedChunkSize = chunkSize ∧ call.sealedChunks[i]? = some m

/-- The text is the whole plaintext of a call of this domain and extra bytes. -/
def IsPlaintext (history : List SealCall) (domain extra plain : Bytes) : Prop :=
  ∃ call ∈ history, call.domain = domain ∧ call.extra = extra ∧ call.plaintext = some plain

theorem SealCall.plainLen_lt (call : SealCall) : call.plainLen < 2 ^ 64 := by
  obtain ⟨magic, domain, extra, source, chunkSize, hlt, nonce⟩ := call
  cases source with
  | bytes plain lt => exact lt
  | reader reader plainLen lt => exact lt

theorem SealCall.usedChunkSize_lt (call : SealCall) : call.usedChunkSize < 2 ^ 32 := by
  have hlt := call.chunkSize_lt
  unfold SealCall.usedChunkSize
  omega

theorem length_readChunks_le {chunkSize : Nat} (hcs : 0 < chunkSize) (fuel remaining : Nat)
    (data : Bytes) : (readChunks chunkSize fuel remaining data).1.length ≤ remaining := by
  induction fuel generalizing remaining data with
  | zero => exact Nat.zero_le _
  | succ fuel ih =>
    rw [readChunks]
    dsimp only
    split
    · exact Nat.zero_le _
    · split
      · exact Nat.zero_le _
      · have hrest := ih (remaining - min remaining chunkSize) (data.drop (min remaining chunkSize))
        rw [length_cons]
        omega

theorem SealCall.length_sealedChunks_le (call : SealCall) : call.sealedChunks.length ≤ call.plainLen := by
  obtain ⟨magic, domain, extra, source, chunkSize, hlt, nonce⟩ := call
  cases source with
  | bytes plain lt => exact length_chunks_le _ _
  | reader reader plainLen lt => exact length_readChunks_le (Nat.le_max_right _ _) _ _ _

theorem exists_mem_sealLog {history : List SealCall} {domain extra m : Bytes} {i len size : Nat}
    (hi : i < 2 ^ 64) (hlen : len < 2 ^ 64) (hsize : size < 2 ^ 32) :
    (∃ n, (⟨n, aadFor domain extra i len size, m⟩ : Seal Nonce Bytes Bytes) ∈ sealLog history) ↔
      ∃ call ∈ history, call.domain ++ 0 :: call.extra = domain ++ 0 :: extra ∧ call.plainLen = len
        ∧ call.usedChunkSize = size ∧ call.sealedChunks[i]? = some m := by
  constructor
  · rintro ⟨n, hmem⟩
    obtain ⟨call, hcall, hseal⟩ := List.mem_flatMap.mp hmem
    obtain ⟨j, hj, -, haad⟩ := mem_sealChunks.mp hseal
    have hjlt : j < 2 ^ 64 := by
      have hlt := (List.getElem?_eq_some_iff.mp hj).1
      have hle := call.length_sealedChunks_le
      have hplain := call.plainLen_lt
      omega
    rw [Nat.zero_add] at haad
    obtain ⟨hname, rfl, rfl, rfl⟩ :=
      (aadFor_eq_iff hi hjlt hlen call.plainLen_lt hsize call.usedChunkSize_lt).mp haad
    exact ⟨call, hcall, hname.symm, rfl, rfl, hj⟩
  · rintro ⟨call, hcall, hname, rfl, rfl, hm⟩
    refine ⟨call.nonce i, List.mem_flatMap.mpr ⟨call, hcall, mem_sealChunks.mpr ⟨i, hm, ?_, ?_⟩⟩⟩
    · rw [Nat.zero_add]
    · rw [Nat.zero_add]
      exact ((aadFor_eq_iff hi hi hlen hlen hsize hsize).mpr ⟨hname, rfl, rfl, rfl⟩).symm

section Authentic

variable [Gcm]

theorem exists_accepted_iff {history : List SealCall} {magic : Magic} {domain extra plain : Bytes} :
    (∃ blob, Accepted (openLogged (sealLog history)) magic domain extra blob plain) ↔
        plain.length < 2 ^ 64 ∧ ∃ chunkSize, 0 < chunkSize ∧ chunkSize ≤ maxChunkSize ∧
          Spliced history domain extra chunkSize plain := by
  have hspliced : ∀ chunkSize, chunkSize ≤ maxChunkSize → plain.length < 2 ^ 64 →
      ((∃ body, Framed (openLogged (sealLog history)) (aadFor domain extra · plain.length chunkSize) 0
          (chunks chunkSize plain) body []) ↔ Spliced history domain extra chunkSize plain) := by
    intro chunkSize hmax hlen
    have hsize : chunkSize < 2 ^ 32 := Nat.lt_of_le_of_lt hmax (by decide)
    rw [exists_framed_iff]
    apply forall₃_congr
    intro i m hi
    have hilt : i < 2 ^ 64 := by
      have hlt := (List.getElem?_eq_some_iff.mp hi).1
      have hle := length_chunks_le chunkSize plain
      omega
    rw [Nat.zero_add]
    exact exists_mem_sealLog hilt hlen hsize
  constructor
  · rintro ⟨blob, chunkSize, body, hpos, hmax, hlen, -, hframes⟩
    exact ⟨hlen, chunkSize, hpos, hmax, (hspliced chunkSize hmax hlen).mp ⟨body, hframes⟩⟩
  · rintro ⟨hlen, chunkSize, hpos, hmax, h⟩
    obtain ⟨body, hframes⟩ := (hspliced chunkSize hmax hlen).mpr h
    exact ⟨_, chunkSize, body, hpos, hmax, hlen, rfl, hframes⟩

/-- **When the blobs of a name are authentic.** Whatever an attacker makes of a history, and under
whatever magic, what either decryption returns for a domain and extra bytes is the whole plaintext
of a call for them; so it is iff every text spliced from calls of the same name is one. -/
theorem authentic_iff (history : List SealCall) (domain extra : Bytes) :
    (∀ (magic : Magic) (blob : ByteReader) (plain : Bytes),
      (decryptChunked (openLogged (sealLog history)) magic domain extra blob.bytes = .ok plain
        ∨ decryptChunkedFromReader (openLogged (sealLog history)) magic domain extra blob = .ok plain) →
      IsPlaintext history domain extra plain) ↔
    ∀ plain chunkSize, plain.length < 2 ^ 64 → 0 < chunkSize → chunkSize ≤ maxChunkSize →
      Spliced history domain extra chunkSize plain → IsPlaintext history domain extra plain := by
  constructor
  · intro h plain chunkSize hlen hpos hmax hspliced
    obtain ⟨blob, hblob⟩ : ∃ blob, Accepted (openLogged (sealLog history)) magicDb domain extra blob plain :=
      exists_accepted_iff.mpr ⟨hlen, chunkSize, hpos, hmax, hspliced⟩
    exact h magicDb ⟨blob, false⟩ plain (.inl (decryptChunked_eq_ok.mpr hblob))
  · intro h magic blob plain hok
    have haccepted : Accepted (openLogged (sealLog history)) magic domain extra blob.bytes plain := by
      rcases hok with hok | hok
      · exact decryptChunked_eq_ok.mp hok
      · exact (decryptChunkedFromReader_eq_ok.mp hok).1
    obtain ⟨hlen, chunkSize, hpos, hmax, hspliced⟩ := exists_accepted_iff.mp ⟨blob.bytes, haccepted⟩
    exact h plain chunkSize hlen hpos hmax hspliced

end Authentic

section Forged

local instance : Gcm := Gcm.appending

def twoChunks (a b : UInt8) : SealCall where
  magic := magicCas
  domain := bytes "cas"
  extra := bytes "d"
  source := .bytes [a, b] (show 2 < 2 ^ 64 by decide)
  chunkSize := 1
  chunkSize_lt := by decide
  nonce idx := ⟨replicate 11 0 ++ [a + UInt8.ofNat idx], rfl⟩

theorem forged_and_spliced_accepted :
    let history := [twoChunks 1 2, twoChunks 30 40]
    let forged := writeHeader magicCas 1 0
    let spliced := writeHeader magicCas 1 2 ++ (((twoChunks 1 2).output.drop headerLen).take 29
      ++ (twoChunks 30 40).output.drop (headerLen + 29))
    (decryptChunked (openLogged (sealLog history)) magicCas (bytes "cas") (bytes "d") forged = .ok []
      ∧ ¬ IsPlaintext history (bytes "cas") (bytes "d") [])
    ∧ (decryptChunked (openLogged (sealLog history)) magicCas (bytes "cas") (bytes "d") spliced = .ok [1, 40]
      ∧ ¬ IsPlaintext history (bytes "cas") (bytes "d") [1, 40]) := by
  have hplain : ∀ plain, IsPlaintext [twoChunks 1 2, twoChunks 30 40] (bytes "cas")
      (bytes "d") plain → plain = [1, 2] ∨ plain = [30, 40] := by
    rintro plain ⟨call, hcall, -, -, hcallPlain⟩
    simp only [mem_cons, not_mem_nil, or_false] at hcall
    rcases hcall with rfl | rfl
    · exact .inl (Option.some.inj hcallPlain).symm
    · exact .inr (Option.some.inj hcallPlain).symm
  refine ⟨⟨by decide +kernel, fun h => ?_⟩, by decide +kernel, fun h => ?_⟩
  · rcases hplain _ h with h | h <;> cases h
  · rcases hplain _ h with h | h <;> revert h <;> decide

end Forged

end MatterCore
