import PstDedupe.MatterCore.Cas
import PstDedupe.Rust.Paths

/-!
# What one call of the store does

The temps are no objects, so what the
writers do before the rename changes no object.
-/

namespace MatterCore

open Rust Foundations Prog List

variable {digest : String}

theorem mem_hexEncode {bs : Bytes} {c : Char} (h : c ∈ (hexEncode bs).toList) :
    c ∈ "0123456789abcdef".toList := by
  have hall : ∀ n : Fin 16, hexDigit n ∈ "0123456789abcdef".toList := by decide
  have hdigit : ∀ n : Nat, n < 16 → hexDigit n ∈ "0123456789abcdef".toList := fun n hn => hall ⟨n, hn⟩
  rw [hexEncode, String.toList_ofList] at h
  obtain ⟨b, -, hc⟩ := List.mem_flatMap.mp h
  have hb := b.toNat_lt
  rcases List.mem_pair.mp hc with rfl | rfl
  · apply hdigit
    rw [UInt8.toNat_shiftRight, Nat.shiftRight_eq_div_pow]
    show b.toNat / 16 < 16
    omega
  · apply hdigit
    rw [UInt8.toNat_and, show (0xf : UInt8).toNat = 2 ^ 4 - 1 from rfl, Nat.and_two_pow_sub_one_eq_mod]
    omega

theorem length_sha256Hex [Sha256] (data : Bytes) : (sha256Hex data).length = 64 := by
  rw [← String.length_toList, sha256Hex, length_hexEncode, (Sha256.digest data).2]

theorem normalizeDigest_sha256Hex [Sha256] (data : Bytes) :
    normalizeDigest (sha256Hex data) = .ok (sha256Hex data) := by
  have hmem : ∀ c ∈ (sha256Hex data).toList, c ∈ "0123456789abcdef".toList := fun c hc => mem_hexEncode hc
  have hall : ∀ c ∈ "0123456789abcdef".toList, isWhitespace c = false ∧ c.toLower = c ∧
      isAsciiHexdigit c = true := by
    exact List.all_iff_forall_prop.mp (by decide)
  have htrim : trim (sha256Hex data) = sha256Hex data := by
    unfold trim
    rw [trimMatches_eq_self, String.ofList_toList]
    · intro c hc
      exact (hall c (hmem c (mem_of_mem_head? hc))).1
    · intro c hc
      exact (hall c (hmem c (mem_of_getLast? hc))).1
  have hlower : toAsciiLowercase (sha256Hex data) = sha256Hex data := by
    unfold toAsciiLowercase
    rw [map_chars_eq_self fun c hc => (hall c (hmem c hc)).2.1, String.ofList_toList]
  unfold normalizeDigest
  dsimp only
  rw [htrim, hlower, if_neg]
  rintro (hlen | hhex)
  · exact hlen (length_sha256Hex data)
  · exact hhex (List.all_eq_true.mpr fun c hc => (hall c (hmem c hc)).2.2)

theorem objectPath_sha256Hex [Sha256] (data : Bytes) :
    objectPath (sha256Hex data) = .ok (objectFile (sha256Hex data)) := by
  unfold objectPath
  rw [normalizeDigest_sha256Hex]
  rfl

/-! ## Objects and temps -/

def IsObject (p : MatterPath) : Prop := ∃ digestHex, objectPath digestHex = .ok p

theorem isObject_sha256Hex [Sha256] (data : Bytes) : IsObject (objectFile (sha256Hex data)) :=
  ⟨_, objectPath_sha256Hex data⟩

theorem IsObject.eq_objectFile {p : MatterPath} (h : IsObject p) :
    ∃ digest : String, digest.length = 64 ∧ p = objectFile digest := by
  obtain ⟨digestHex, hpath⟩ := h
  unfold objectPath normalizeDigest at hpath
  dsimp only at hpath
  split at hpath
  · cases hpath
  · rename_i hok
    cases hpath
    exact ⟨_, by_contra fun hlen => hok (.inl hlen), rfl⟩

theorem not_isObject_of_length_ne {name : String} (dir : MatterPath) (hname : name.length ≠ 64) :
    ¬ IsObject (dir ++ [name]) := by
  intro h
  obtain ⟨digest, hlen, heq⟩ := h.eq_objectFile
  unfold objectFile at heq
  obtain ⟨-, hlast⟩ := append_inj' heq rfl
  rw [List.cons.injEq] at hlast
  exact hname (hlast.1 ▸ hlen)

theorem not_isObject_putTmpPath (hlen : digest.length = 64) : ¬ IsObject (putTmpPath digest) := by
  refine not_isObject_of_length_ne _ ?_
  rw [String.length_append, String.length_append, hlen]
  decide

theorem not_isObject_encTmpPath (hlen : digest.length = 64) : ¬ IsObject (encTmpPath digest) := by
  refine not_isObject_of_length_ne _ ?_
  rw [String.length_append, String.length_append, hlen]
  decide

theorem not_isObject_stagePath (cas : Cas) (seq pid : Nat) : ¬ IsObject (cas.stagePath seq pid) := by
  intro h
  obtain ⟨digest, -, heq⟩ := h.eq_objectFile
  unfold Cas.stagePath at heq
  dsimp only at heq
  split at heq
  · -- under the workspace
    have hhead := congrArg head? heq
    exact absurd hhead (by simp [casStageDir, objectFile, shardDir, workspaceDir, blobsDir])
  · -- right under `blobs/`
    have hlen := congrArg length heq
    simp [objectFile, shardDir] at hlen

theorem not_isObject_cryptoHeaderFile : ¬ IsObject [cryptoHeaderFile] :=
  not_isObject_of_length_ne [] (by decide)

section Stored

variable [Sha256] [Gcm] {cas : Cas} {digest : String} {data obj : Bytes}

def Holds (cas : Cas) (digest : String) (data obj : Bytes) : Prop :=
  match cas.crypto with
  | some _ => Accepted Aead.decrypt magicCas (bytes "cas") (bytes digest) obj data
  | none => obj = data

/-- The object of the digest is there and holds the data. -/
def Stores (cas : Cas) (digest : String) (data : Bytes) (fs : Files MatterPath UInt8) : Prop :=
  ∃ obj, fs (objectFile digest) = some obj ∧ Holds cas digest data obj

omit [Sha256] in
theorem isEncryptedBlob_of_accepted {domain extra : Bytes}
    (h : Accepted Aead.decrypt magicCas domain extra obj data) :
    isEncryptedBlob obj = true ∧ headerLen ≤ obj.length ∧ isEncryptedBlob (obj.take headerLen) = true
      ∧ readPlainLen (obj.take headerLen) = .ok data.length := by
  obtain ⟨chunkSize, body, -, hmax, hlt, hobj, -⟩ := h
  have hmax32 : chunkSize < 2 ^ 32 := Nat.lt_of_le_of_lt hmax (by decide)
  obtain ⟨hlen, hmagic, -, hplain, -⟩ := header_fields hmax32 hlt hobj
  have htake : (obj.take headerLen).take 8 = magicCas.1 := by
    rw [take_take]
    exact hmagic
  refine ⟨?_, hlen, ?_, ?_⟩
  · unfold isEncryptedBlob
    rw [hmagic]
    simp
  · unfold isEncryptedBlob
    rw [htake]
    simp
  · unfold readPlainLen
    have hfield : ((obj.take headerLen).drop 12).take 8 = (obj.drop 12).take 8 := by
      rw [drop_take, take_take]
      rfl
    rw [if_neg (by rw [length_take_of_le hlen]; omega), hfield, hplain]

omit [Sha256] in
theorem holds_seal (nonce : Nat → Nonce) (hlt : data.length < 2 ^ 64) :
    Holds cas digest data (cas.seal nonce digest data) := by
  unfold Holds Cas.seal
  cases cas.crypto with
  | none => rfl
  | some crypto =>
    have hpos := crypto.ge_chunkBytes
    exact decryptChunked_eq_ok.mp
      (decryptChunked_encryptChunked nonce magicCas _ _ (by omega) crypto.chunkBytes_le hlt)

omit [Sha256] in
theorem verifyExisting_spec (cas : Cas) (path : MatterPath) (digest : String) (data : Bytes)
    (fs : Files MatterPath UInt8) : Ensures (verifyExisting cas path digest data) fs
      (fun d fs' => fs' = fs ∧ d = digest ∧ ∃ obj, fs path = some obj ∧ Holds cas digest data obj)
      fun _ fs' => fs' = fs := by
  refine Ensures.bind (Ensures.readFile (fun existing hobj => ?_) fun _ => rfl)
  unfold Holds
  cases cas.crypto with
  | none =>
    dsimp only
    by_cases hdata : existing = data
    · rw [if_neg (not_not.mpr hdata)]
      exact Ensures.pure ⟨rfl, rfl, existing, hobj, hdata⟩
    · rw [if_pos hdata]
      exact Ensures.fail rfl
  | some crypto =>
    dsimp only
    split
    · exact Ensures.fail rfl
    · split
      · rename_i plain hplain
        by_cases hdata : plain = data
        · rw [if_pos hdata]
          subst hdata
          exact Ensures.pure ⟨rfl, rfl, existing, hobj, decryptChunked_eq_ok.mp hplain⟩
        · rw [if_neg hdata]
          exact Ensures.fail rfl
      · exact Ensures.fail rfl

end Stored

section Readers

variable [Sha256] [Gcm] {cas : Cas} {digest : String} {data : Bytes} {fs : Files MatterPath UInt8}

/-- What the three readers give when no operation fails. A large blob is opened by way of a temp. -/
structure Reads (cas : Cas) (fs : Files MatterPath UInt8) (digest : String) (data : Bytes) : Prop where
  getBytes : Runs (getBytes cas digest) fs data fs
  openRead : ∀ seq, ∃ reader fs', Runs (openRead cas seq digest) fs reader fs' ∧
    reader.content = data ∧ Files.Agree (· = readTmpPath seq digest) fs fs'
  blobLen : Runs (blobLen cas digest) fs data.length fs

omit [Gcm] in
theorem runs_located {α : Type} {k : String → MatterPath → CasProg α} {a : α} {fs' : Files MatterPath UInt8}
    (hdigest : digest = sha256Hex data) {obj : Bytes} (hobj : fs (objectFile digest) = some obj)
    (hk : Runs (k digest (objectFile digest)) fs a fs') : Runs (do
      let digest ← ofResult (normalizeDigest digest)
      let path ← ofResult (objectPath digest)
      if ¬ (← pathExists path) then fail (.blobNotFound digest) else k digest path) fs a fs' := by
  subst hdigest
  refine Runs.bind (Runs.ofResult (normalizeDigest_sha256Hex data)) ?_
  refine Runs.bind (Runs.ofResult (objectPath_sha256Hex data)) (Runs.bind Runs.look ?_)
  rw [hobj, if_neg (by simp)]
  exact hk

theorem runs_blobLen (hdigest : digest = sha256Hex data) {obj : Bytes}
    (hobj : fs (objectFile digest) = some obj) (hholds : Holds cas digest data obj) :
    Runs (blobLen cas digest) fs data.length fs := by
  subst hdigest
  refine Runs.bind (Runs.ofResult (objectPath_sha256Hex data)) (Runs.bind Runs.look ?_)
  rw [hobj, if_neg (by simp)]
  refine Runs.bind (Runs.readFile hobj) ?_
  unfold Cas.isEncrypted
  unfold Holds at hholds
  cases hcrypto : cas.crypto with
  | none =>
    rw [hcrypto] at hholds
    rw [← show obj = data from hholds]
    exact Runs.pure
  | some crypto =>
    rw [hcrypto] at hholds
    obtain ⟨-, hlen, hheader, hplainLen⟩ := isEncryptedBlob_of_accepted hholds
    have hhdr : Runs (readHeader obj) fs (obj.take headerLen) fs := by
      unfold readHeader
      rw [if_neg (by omega)]
      exact Runs.pure
    refine Runs.bind hhdr ?_
    rw [if_pos hheader, hplainLen]
    exact Runs.ofResult rfl

theorem reads_of_stores (hdigest : digest = sha256Hex data) (h : Stores cas digest data fs)
    (hplain : cas.crypto = none → isEncryptedMatter fs = false) : Reads cas fs digest data := by
  obtain ⟨obj, hobj, hholds⟩ := h
  have hblobLen := runs_blobLen hdigest hobj hholds
  unfold Holds at hholds
  cases hcrypto : cas.crypto with
  | none =>
    rw [hcrypto] at hholds
    obtain rfl : obj = data := hholds
    refine ⟨runs_located hdigest hobj ?_, fun seq => ?_, hblobLen⟩
    · refine Runs.bind (Runs.readFile hobj) ?_
      rw [hcrypto]
      refine Runs.bind Runs.look ?_
      rw [hplain hcrypto]
      exact Runs.pure
    · refine ⟨.plain obj, fs, runs_located hdigest hobj ?_, rfl, Files.Agree.refl _ _⟩
      rw [hcrypto]
      refine Runs.bind Runs.look ?_
      rw [hplain hcrypto]
      exact Runs.bind (Runs.readFile hobj) Runs.pure
  | some crypto =>
    rw [hcrypto] at hholds
    dsimp only at hholds
    obtain ⟨hmagic, hlen, hheader, hplainLen⟩ := isEncryptedBlob_of_accepted hholds
    refine ⟨runs_located hdigest hobj ?_, fun seq => ?_, hblobLen⟩
    · refine Runs.bind (Runs.readFile hobj) ?_
      rw [hcrypto]
      dsimp only
      rw [if_neg (not_not.mpr hmagic), decryptChunked_eq_ok.mpr hholds]
      refine Runs.bind (Runs.ofResult rfl) ?_
      rw [if_neg (not_not.mpr hdigest.symm)]
      exact Runs.pure
    · have hhdr : Runs (readHeader obj) fs (obj.take headerLen) fs := by
        unfold readHeader
        rw [if_neg (by omega)]
        exact Runs.pure
      have hfield : (readPlainLen (obj.take headerLen)).mapError CasError.ofCrypto = .ok data.length := by
        rw [hplainLen]
        rfl
      have hstream : decryptChunkedFromReader Aead.decrypt magicCas (bytes "cas") (bytes digest) ⟨obj, false⟩
          = .ok data := decryptChunkedFromReader_eq_ok.mpr ⟨hholds, rfl⟩
      by_cases hsmall : data.length ≤ openReadMemoryThreshold
      · refine ⟨.memory data, fs, runs_located hdigest hobj ?_, rfl, Files.Agree.refl _ _⟩
        rw [hcrypto]
        refine Runs.bind (Runs.readFile hobj) (Runs.bind hhdr ?_)
        rw [if_neg (not_not.mpr hheader)]
        refine Runs.bind (Runs.ofResult hfield) ?_
        rw [if_pos hsmall, hstream]
        refine Runs.bind (Runs.ofResult rfl) ?_
        rw [if_neg (not_not.mpr hdigest.symm)]
        exact Runs.pure
      · -- by way of the temp, which is written, read back and removed
        let tmp := readTmpPath seq digest
        refine ⟨.plain data, Files.erase tmp (Files.append tmp data (Files.write tmp [] fs)),
          runs_located hdigest hobj ?_, rfl, ?_⟩
        · rw [hcrypto]
          refine Runs.bind (Runs.readFile hobj) (Runs.bind hhdr ?_)
          rw [if_neg (not_not.mpr hheader)]
          refine Runs.bind (Runs.ofResult hfield) ?_
          rw [if_neg hsmall, hstream]
          refine Runs.bind Runs.touch (Runs.bind Runs.createFile (Runs.bind (Runs.ofResult rfl) ?_))
          refine Runs.bind Runs.writeAll (Runs.bind Runs.touch ?_)
          rw [if_neg (not_not.mpr hdigest.symm)]
          exact Runs.bind (Runs.readFile (by simp)) (Runs.bind Runs.always Runs.pure)
        · have hrefl : Files.Agree (· = tmp) fs fs := .refl _ _
          exact ((hrefl.write rfl).append rfl).erase rfl

end Readers

/-! ## The writers -/

/-- Neither an object nor the header of an encrypted matter. -/
def IsScratch (p : MatterPath) : Prop := ¬ IsObject p ∧ p ≠ [cryptoHeaderFile]

theorem not_isScratch_of_isObject {p : MatterPath} (h : IsObject p) : ¬ IsScratch p :=
  fun hscratch => hscratch.1 h

theorem isScratch_of_shard {digest name : String} (h : ¬ IsObject (shardDir digest ++ [name])) :
    IsScratch (shardDir digest ++ [name]) := by
  refine ⟨h, fun heq => ?_⟩
  have hlen := congrArg length heq
  simp [shardDir] at hlen

theorem isScratch_putTmpPath (hlen : digest.length = 64) : IsScratch (putTmpPath digest) :=
  isScratch_of_shard (not_isObject_putTmpPath hlen)

theorem isScratch_encTmpPath (hlen : digest.length = 64) : IsScratch (encTmpPath digest) :=
  isScratch_of_shard (not_isObject_encTmpPath hlen)

theorem isScratch_stagePath (cas : Cas) (seq pid : Nat) : IsScratch (cas.stagePath seq pid) := by
  refine ⟨not_isObject_stagePath cas seq pid, fun heq => ?_⟩
  have hlen := congrArg length heq
  unfold Cas.stagePath at hlen
  dsimp only at hlen
  split at hlen <;> simp [casStageDir] at hlen

def readToEnd : List ReadResult → Option Bytes
  | [] => some []
  | .fails :: _ => none
  | .bytes bs _ :: rest => if bs = [] then some [] else (readToEnd rest).map (bs ++ ·)

section Writers

variable [Sha256] [Gcm] {cas : Cas} {digest : String} {data : Bytes}
  {fs₀ fs : Files MatterPath UInt8} {tmp : MatterPath}

/-- What `Ok` leaves: the object is there, and those there were are the same. -/
structure Stored (cas : Cas) (digest : String) (data : Bytes) (fs₀ fs : Files MatterPath UInt8) : Prop where
  digest_eq : digest = sha256Hex data
  stores : Stores cas digest data fs
  keeps : ∀ p, IsObject p → (fs₀ p).isSome → fs p = fs₀ p
  header : fs [cryptoHeaderFile] = fs₀ [cryptoHeaderFile]

def Cleaned (fs₀ fs : Files MatterPath UInt8) : Prop := ∀ p, fs p = fs₀ p ∨ fs p = none

omit [Sha256] [Gcm] in
theorem stageReads_spec {S : MatterPath → Prop} (hS : S tmp) (reads : List ReadResult)
    {hashed : Bytes} (hfs : Files.Agree S fs₀ fs) (htmp : fs tmp = some hashed) :
    Ensures (stageReads tmp hashed reads) fs
      (fun a fs' => Files.Agree S fs₀ fs' ∧ fs' tmp = some a ∧ ∃ data, readToEnd reads = some data ∧
        a = hashed ++ data)
      fun _ fs' => Files.Agree S fs₀ fs' := by
  induction reads generalizing hashed fs with
  | nil => exact Ensures.pure ⟨hfs, htmp, [], rfl, (append_nil _).symm⟩
  | cons read rest ih =>
    cases read with
    | fails => exact Ensures.fail hfs
    | bytes bs le =>
      rw [stageReads]
      by_cases hbs : bs = []
      · rw [if_pos hbs]
        refine Ensures.pure ⟨hfs, htmp, [], ?_, (append_nil _).symm⟩
        rw [readToEnd, if_pos hbs]
      · rw [if_neg hbs]
        refine Ensures.bind (Ensures.writeAll ?_ fun _ n => hfs.append hS)
        have happend : Files.append tmp bs fs tmp = some (hashed ++ bs) := by
          rw [Files.append_self, htmp]
          rfl
        refine (ih (hfs.append hS) happend).mono ?_ fun _ _ h => h
        rintro a fs' ⟨hfs', htmp', data, hdata, rfl⟩
        refine ⟨hfs', htmp', bs ++ data, ?_, append_assoc _ _ _⟩
        rw [readToEnd, if_neg hbs, hdata]
        rfl

omit [Gcm] in
theorem not_isScratch_objectFile (data : Bytes) : ¬ IsScratch (objectFile (sha256Hex data)) :=
  not_isScratch_of_isObject (isObject_sha256Hex data)

theorem Stored.of_agree {obj : Bytes} (hfs : Files.Agree IsScratch fs₀ fs)
    (hobj : fs (objectFile (sha256Hex data)) = some obj) (hholds : Holds cas (sha256Hex data) data obj) :
    Stored cas (sha256Hex data) data fs₀ fs :=
  ⟨rfl, ⟨obj, hobj, hholds⟩, fun p hp _ => hfs p (not_isScratch_of_isObject hp), hfs _ fun h => h.2 rfl⟩

theorem Stored.of_move {src : MatterPath} {obj : Bytes} (hsrc : IsScratch src)
    (hfs : Files.Agree IsScratch fs₀ fs) (habsent : fs₀ (objectFile (sha256Hex data)) = none)
    (hobj : fs src = some obj) (hholds : Holds cas (sha256Hex data) data obj) :
    Stored cas (sha256Hex data) data fs₀ (Files.move src (objectFile (sha256Hex data)) fs) := by
  have hne : ∀ {p}, ¬ IsScratch p → p ≠ src := fun hp heq => hp (heq ▸ hsrc)
  have hheader : [cryptoHeaderFile] ≠ objectFile (sha256Hex data) := fun heq =>
    not_isObject_cryptoHeaderFile (heq ▸ isObject_sha256Hex data)
  refine ⟨rfl, ⟨obj, ?_, hholds⟩, fun p hp hsome => ?_, ?_⟩
  · rw [Files.move_target (hne (not_isScratch_objectFile data)), hobj]
  · have hother : p ≠ objectFile (sha256Hex data) := by
      rintro rfl
      rw [habsent] at hsome
      cases hsome
    rw [Files.move_of_ne (hne (not_isScratch_of_isObject hp)) hother]
    exact hfs p (not_isScratch_of_isObject hp)
  · rw [Files.move_of_ne (hne fun h => h.2 rfl) hheader]
    exact hfs _ fun h => h.2 rfl

theorem Stored.agree {fs' : Files MatterPath UInt8} (h : Stored cas digest data fs₀ fs)
    (hfs' : Files.Agree IsScratch fs fs') : Stored cas digest data fs₀ fs' := by
  obtain ⟨obj, hobj, hholds⟩ := h.stores
  refine ⟨h.digest_eq, ⟨obj, ?_, hholds⟩, fun p hp hsome => ?_, ?_⟩
  · rw [hfs' _ (h.digest_eq ▸ not_isScratch_objectFile data)]
    exact hobj
  · rw [hfs' p (not_isScratch_of_isObject hp)]
    exact h.keeps p hp hsome
  · rw [hfs' _ fun h => h.2 rfl]
    exact h.header

def StoppedBut (tmp : MatterPath) (fs₀ : Files MatterPath UInt8) (s : Stop CasError)
    (fs : Files MatterPath UInt8) :
    Prop :=
  Files.Agree IsScratch fs₀ fs ∧ (s ≠ .crashed → ∀ p, p ≠ tmp → fs p = fs₀ p ∨ fs p = none)

omit [Sha256] [Gcm] in
theorem StoppedBut.of_agree (htmp : IsScratch tmp) (hfs : Files.Agree (· = tmp) fs₀ fs)
    (s : Stop CasError) : StoppedBut tmp fs₀ s fs :=
  ⟨hfs.mono fun _ hp => hp ▸ htmp, fun _ p hp => .inl (hfs p hp)⟩

/-- A temp holds no more than a part of the text that goes into it, and nothing else has changed. -/
def PartOnly (tmp : MatterPath) (text : Bytes) (fs₀ fs : Files MatterPath UInt8) : Prop :=
  Files.Agree (· = tmp) fs₀ fs ∧ (fs tmp = fs₀ tmp ∨ fs tmp = none ∨ ∃ k, fs tmp = some (text.take k))

omit [Sha256] [Gcm] in
theorem PartOnly.append (tmp : MatterPath) (text : Bytes) (k : Nat) (fs₀ : Files MatterPath UInt8) :
    PartOnly tmp text fs₀ (Files.append tmp (text.take k) (Files.write tmp [] fs₀)) := by
  have hrefl : Files.Agree (· = tmp) fs₀ fs₀ := .refl _ _
  refine ⟨(hrefl.write rfl).append rfl, .inr (.inr ⟨k, ?_⟩)⟩
  rw [Files.append_self, Files.write_self]
  rfl

theorem putBytes_spec (cas : Cas) (nonce : Nat → Nonce) (data : Bytes) (hlt : data.length < 2 ^ 64)
    (fs₀ : Files MatterPath UInt8) :
    Ensures (putBytes cas nonce data) fs₀ (fun digest fs => Stored cas digest data fs₀ fs)
      fun _ fs => PartOnly (putTmpPath (sha256Hex data)) (cas.seal nonce (sha256Hex data) data) fs₀ fs := by
  have htmp := isScratch_putTmpPath (length_sha256Hex data)
  have hrefl : Files.Agree IsScratch fs₀ fs₀ := .refl _ _
  have hnone : PartOnly (putTmpPath (sha256Hex data)) (cas.seal nonce (sha256Hex data) data) fs₀ fs₀ :=
    ⟨.refl _ _, .inl rfl⟩
  unfold putBytes
  dsimp only
  rw [objectPath_sha256Hex]
  refine Ensures.bind (Ensures.pure (Ensures.bind (Ensures.look ?_)))
  cases hexists : fs₀ (objectFile (sha256Hex data)) with
  | some obj =>
    refine (verifyExisting_spec _ _ _ _ _).mono ?_ ?_
    · rintro d fs ⟨rfl, rfl, obj', hobj', hholds⟩
      exact Stored.of_agree hrefl hobj' hholds
    · rintro s fs rfl
      exact hnone
  | none =>
    refine Ensures.bind (Ensures.touch ?_ fun _ => hnone)
    refine Ensures.bind (Ensures.createFile ?_ fun _ => hnone)
    refine Ensures.bind (Ensures.writeAll ?_ fun _ k => PartOnly.append _ _ k _)
    have hwhole := PartOnly.append (putTmpPath (sha256Hex data))
      (cas.seal nonce (sha256Hex data) data) (cas.seal nonce (sha256Hex data) data).length fs₀
    rw [take_length] at hwhole
    refine Ensures.bind (Ensures.touch ?_ fun _ => hwhole)
    have hne : objectFile (sha256Hex data) ≠ putTmpPath (sha256Hex data) := fun heq =>
      not_isScratch_objectFile data (heq ▸ htmp)
    refine Ensures.bind (Ensures.look ?_)
    rw [Files.append_of_ne hne, Files.write_of_ne hne, hexists]
    refine Ensures.bind (Ensures.rename (fun obj hobj => Ensures.pure ?_) fun _ => hwhole)
    rw [Files.append_self, Files.write_self] at hobj
    obtain rfl : cas.seal nonce (sha256Hex data) data = obj := Option.some.inj hobj
    exact Stored.of_move htmp ((hrefl.write htmp).append htmp) hexists (by simp) (holds_seal nonce hlt)

theorem storePlain_spec (hcas : cas.crypto = none) (htmp : IsScratch tmp)
    (hfs : Files.Agree (· = tmp) fs₀ fs) (hstaged : fs tmp = some data)
    (habsent : fs₀ (objectFile (sha256Hex data)) = none) :
    Ensures (storePlain tmp (objectFile (sha256Hex data)) (sha256Hex data)) fs
      (fun d fs' => Stored cas d data fs₀ fs') (StoppedBut tmp fs₀) := by
  have hscratch : Files.Agree IsScratch fs₀ fs := hfs.mono fun _ hp => hp ▸ htmp
  have hholds : Holds cas (sha256Hex data) data data := by
    unfold Holds
    rw [hcas]
  refine Ensures.bind (Ensures.attempt (Ensures.rename (fun obj hobj => ?_) fun s => ?_))
  · exact Ensures.pure (Stored.of_move htmp hscratch habsent hstaged hholds)
  · cases s with
    | crashed => exact StoppedBut.of_agree htmp hfs _
    | failed e =>
      refine Ensures.bind (Ensures.look ?_)
      rw [hscratch _ (not_isScratch_objectFile data), habsent]
      exact Ensures.fail (StoppedBut.of_agree htmp hfs _)

theorem storeSealed_spec {crypto : CasCrypto} (nonce : Nat → Nonce)
    (hcas : cas.crypto = some crypto) (htmp : IsScratch tmp) (hne : encTmpPath (sha256Hex data) ≠ tmp)
    (hfs : Files.Agree (· = tmp) fs₀ fs) (hstaged : fs tmp = some data)
    (habsent : fs₀ (objectFile (sha256Hex data)) = none) (hlt : data.length < 2 ^ 64) :
    Ensures (storeSealed crypto nonce tmp (objectFile (sha256Hex data)) (sha256Hex data) data.length) fs
      (fun d fs' => Stored cas d data fs₀ fs') (StoppedBut tmp fs₀) := by
  have henc := isScratch_encTmpPath (length_sha256Hex data)
  unfold storeSealed
  dsimp only
  generalize encTmpPath (sha256Hex data) = encTmp at hne henc ⊢
  let S : MatterPath → Prop := fun p => p = tmp ∨ p = encTmp
  have hS : ∀ p, S p → IsScratch p := by
    rintro p (rfl | rfl)
    · exact htmp
    · exact henc
  have hfs : Files.Agree S fs₀ fs := hfs.mono fun _ hp => .inl hp
  -- however it stops, the sealed temp is removed with an error
  have hstop : ∀ (s : Stop CasError) (fs' : Files MatterPath UInt8), Files.Agree S fs₀ fs' →
      Cleaning (Files.erase encTmp) (StoppedBut tmp fs₀) s fs' := by
    intro s fs' hfs'
    cases s with
    | crashed => exact ⟨hfs'.mono hS, fun h => absurd rfl h⟩
    | failed e =>
      refine ⟨(hfs'.erase (.inr rfl)).mono hS, fun _ p hp => ?_⟩
      by_cases hpenc : p = encTmp
      · exact .inr (hpenc ▸ Files.erase_self)
      · rw [Files.erase_of_ne hpenc]
        refine .inl (hfs' p ?_)
        rintro (rfl | rfl)
        · exact hp rfl
        · exact hpenc rfl
  have hpath : ∀ {fs' : Files MatterPath UInt8}, Files.Agree S fs₀ fs' →
      fs' (objectFile (sha256Hex data)) = none := fun hfs' =>
    (hfs' _ fun h => not_isScratch_objectFile data (hS _ h)).trans habsent
  refine Ensures.onError (Ensures.bind (Ensures.readFile (fun plainIn hplain => ?_) fun s => hstop s _ hfs))
  rw [hstaged] at hplain
  obtain rfl : data = plainIn := Option.some.inj hplain
  rw [encryptChunkedFromReader_length]
  refine Ensures.bind (Ensures.createFile ?_ fun s => hstop s _ hfs)
  have hcreated : Files.Agree S fs₀ (Files.write encTmp [] fs) := hfs.write (.inr rfl)
  refine Ensures.bind (Ensures.writeAll ?_ fun s k => hstop s _ (hcreated.append (.inr rfl)))
  let text := encryptChunked nonce magicCas (bytes "cas") (bytes (sha256Hex data)) data crypto.chunkBytes
  have hwritten : Files.Agree S fs₀ (Files.append encTmp text (Files.write encTmp [] fs)) :=
    hcreated.append (.inr rfl)
  rw [if_neg (by simp)]
  refine Ensures.bind (Ensures.touch ?_ fun s => hstop s _ hwritten)
  refine Ensures.bind (Ensures.always (Ensures.bind (Ensures.look ?_)))
  have hremoved : Files.Agree S fs₀ (Files.erase tmp (Files.append encTmp text (Files.write encTmp [] fs))) :=
    hwritten.erase (.inl rfl)
  rw [hpath hremoved]
  refine Ensures.bind (Ensures.attempt (Ensures.rename (fun obj hobj => ?_) fun s => ?_))
  · refine Ensures.pure (Stored.of_move henc (hremoved.mono hS) habsent hobj ?_)
    have hsealed : Holds cas (sha256Hex data) data (cas.seal nonce (sha256Hex data) data) :=
      holds_seal nonce hlt
    unfold Cas.seal at hsealed
    rw [hcas] at hsealed
    rw [Files.erase_of_ne hne, Files.append_self, Files.write_self] at hobj
    rwa [← Option.some.inj hobj]
  · cases s with
    | crashed => exact hstop .crashed _ hremoved
    | failed e =>
      refine Ensures.bind (Ensures.look ?_)
      rw [hpath hremoved]
      exact Ensures.bind (Ensures.always (Ensures.fail (hstop (.failed e) _ (hremoved.erase (.inr rfl)))))

theorem putReader_spec (cas : Cas) (nonce : Nat → Nonce) (seq pid : Nat) {reads : List ReadResult}
    (hlt : ∀ data, readToEnd reads = some data → data.length < 2 ^ 64) (fs₀ : Files MatterPath UInt8) :
    Ensures (putReader cas nonce seq pid reads) fs₀
      (fun digest fs => ∃ data, readToEnd reads = some data ∧ Stored cas digest data fs₀ fs)
      fun s fs => Files.Agree IsScratch fs₀ fs ∧ (s ≠ .crashed → Cleaned fs₀ fs) := by
  have htmp := isScratch_stagePath cas seq pid
  have hne : ∀ digest : String, cas.crypto ≠ none → encTmpPath digest ≠ cas.stagePath seq pid := by
    intro digest hcas heq
    have hhead := congrArg head? heq
    unfold Cas.stagePath Cas.isEncrypted at hhead
    rw [if_pos (Option.isSome_iff_ne_none.mpr hcas)] at hhead
    simp [encTmpPath, shardDir, casStageDir, blobsDir, workspaceDir] at hhead
  have hstart : ∀ s : Stop CasError, Files.Agree IsScratch fs₀ fs₀ ∧
      (s ≠ .crashed → Cleaned fs₀ fs₀) := fun _ =>
    ⟨.refl _ _, fun _ _ => .inl rfl⟩
  unfold putReader
  dsimp only
  refine Ensures.bind (Ensures.touch ?_ hstart)
  -- the directory of the stage
  have hdir : Ensures (createStageDir cas) fs₀ (fun _ fs => fs = fs₀)
      fun s fs => Files.Agree IsScratch fs₀ fs ∧ (s ≠ .crashed → Cleaned fs₀ fs) := by
    unfold createStageDir
    split
    · exact Ensures.touch rfl hstart
    · exact Ensures.pure rfl
  refine Ensures.bind (hdir.mono ?_ fun _ _ h => h)
  rintro - fs rfl
  generalize cas.stagePath seq pid = tmp at htmp hne ⊢
  -- the guard removes the stage, and nothing else is left by then
  have hstop : ∀ (s : Stop CasError) (fs' : Files MatterPath UInt8), StoppedBut tmp fs s fs' →
      Cleaning (Files.erase tmp) (fun s fs' => Files.Agree IsScratch fs fs' ∧
        (s ≠ .crashed → Cleaned fs fs')) s fs' := by
    rintro s fs' ⟨hagree, hrest⟩
    cases s with
    | crashed => exact ⟨hagree, fun h => absurd rfl h⟩
    | failed e =>
      refine ⟨hagree.erase htmp, fun _ p => ?_⟩
      by_cases hp : p = tmp
      · exact .inr (hp ▸ Files.erase_self)
      · rw [Files.erase_of_ne hp]
        exact hrest (by simp) p hp
  have hdone : ∀ {data : Bytes} {d : String} {fs' : Files MatterPath UInt8},
      readToEnd reads = some data → Stored cas d data fs fs' → ∃ data, readToEnd reads = some data ∧
        Stored cas d data fs (Files.erase tmp fs') :=
    fun hdata hstored => ⟨_, hdata, hstored.agree ((Files.Agree.refl _ _).erase htmp)⟩
  have hrefl : Files.Agree (· = tmp) fs fs := .refl _ _
  refine Ensures.dropping (Ensures.bind (Ensures.createFile ?_ fun s =>
    hstop s _ (StoppedBut.of_agree htmp hrefl s)))
  refine Ensures.bind ((stageReads_spec (S := (· = tmp)) rfl reads (hrefl.write rfl) Files.write_self).mono ?_
    fun s fs' h => hstop s _ (StoppedBut.of_agree htmp h s))
  rintro hashed fs' ⟨hagree, hstaged, data, hdata, hhashed⟩
  obtain rfl : data = hashed := hhashed.symm
  have hkeep : ∀ s, Cleaning (Files.erase tmp)
      (fun s fs' => Files.Agree IsScratch fs fs' ∧ (s ≠ .crashed → Cleaned fs fs')) s fs' := fun s =>
    hstop s _ (StoppedBut.of_agree htmp hagree s)
  have hscratch : Files.Agree IsScratch fs fs' := hagree.mono fun _ hp => hp ▸ htmp
  refine Ensures.bind (Ensures.touch ?_ hkeep)
  rw [objectPath_sha256Hex]
  refine Ensures.bind (Ensures.pure (Ensures.bind (Ensures.look ?_)))
  cases hexists : fs' (objectFile (sha256Hex data)) with
  | some obj =>
    refine Ensures.bind (Ensures.readFile (fun staged hstaged' => ?_) hkeep)
    rw [hstaged] at hstaged'
    obtain rfl : data = staged := Option.some.inj hstaged'
    refine (verifyExisting_spec _ _ _ _ _).mono ?_ ?_
    · rintro d fs'' ⟨rfl, rfl, obj', hobj', hholds⟩
      exact hdone hdata (Stored.of_agree hscratch hobj' hholds)
    · rintro s fs'' rfl
      exact hkeep s
  | none =>
    have habsent : fs (objectFile (sha256Hex data)) = none :=
      (hscratch _ (not_isScratch_objectFile data)).symm.trans hexists
    refine Ensures.bind (Ensures.touch ?_ hkeep)
    refine Ensures.bind (Ensures.look ?_)
    rw [hexists]
    cases hcas : cas.crypto with
    | some crypto =>
      have hencTmp := hne (sha256Hex data) (by simp [hcas])
      exact (storeSealed_spec nonce hcas htmp hencTmp hagree hstaged habsent (hlt data hdata)).mono
        (fun d fs'' => hdone hdata) hstop
    | none =>
      exact (storePlain_spec hcas htmp hagree hstaged habsent).mono (fun d fs'' => hdone hdata) hstop

end Writers

end MatterCore
