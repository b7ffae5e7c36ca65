import PstDedupe.Foundations.Files
import PstDedupe.MatterCore.AeadChunk
import PstDedupe.MatterCore.Audit

/-!
# The content-addressed store (`matter-core/src/cas.rs`)

A blob is kept under the SHA-256 of its plaintext, sealed when the matter is encrypted. Directories
are not modelled; creating one is an operation that may fail.
-/

namespace MatterCore

open Rust Foundations Prog

abbrev MatterPath := List String

inductive CasError where
  | io
  | crypto (text : String)
  | invalidDigest (digest : String)
  | blobNotFound (digest : String)
  | casCollision (digest : String)
  deriving DecidableEq, Repr

instance : IoError CasError := ⟨.io⟩

abbrev CasProg := Prog (Files MatterPath UInt8) CasError

def CasError.ofCrypto : CryptoError → CasError
  | .crypto text => .crypto text
  | .io => .io

/-- Crypto parameters for an encrypted CAS. The header of the matter bounds the chunk size. -/
structure CasCrypto where
  chunkBytes : Nat
  ge_chunkBytes : 64 * 1024 ≤ chunkBytes
  chunkBytes_le : chunkBytes ≤ maxChunkSize

structure Cas where
  crypto : Option CasCrypto

namespace Cas

def isEncrypted (cas : Cas) : Bool := cas.crypto.isSome

end Cas

def blobsDir : String := "blobs"
def sha256Dir : String := "sha256"
def workspaceDir : String := "workspace"
def workspaceTempDir : String := "temp"
def cryptoHeaderFile : String := "matter.crypto.json"

def putReaderBufSize : Nat := 64 * 1024

def openReadMemoryThreshold : Nat := 4 * 1024 * 1024

def isAsciiHexdigit (c : Char) : Bool := c.isDigit || ('a' ≤ c && c ≤ 'f') || ('A' ≤ c && c ≤ 'F')

/-- `normalize_digest`. The source counts bytes, of which a hex digit has one. -/
def normalizeDigest (digestHex : String) : Except CasError String :=
  let lower := toAsciiLowercase (trim digestHex)
  if lower.length ≠ 64 ∨
    ¬ lower.toList.all isAsciiHexdigit then .error (.invalidDigest digestHex) else .ok lower

/-- The directory of an object, `blobs/sha256/<aa>`. -/
def shardDir (digest : String) : MatterPath := [blobsDir, sha256Dir, String.ofList (digest.toList.take 2)]

def objectFile (digest : String) : MatterPath := shardDir digest ++ [digest]

def objectPath (digestHex : String) : Except CasError MatterPath := (normalizeDigest digestHex).map objectFile

def casStageDir : MatterPath := [workspaceDir, workspaceTempDir, ".cas-stage"]

/-- The temp of `put_bytes`. -/
def putTmpPath (digest : String) : MatterPath := shardDir digest ++ ["." ++ digest ++ ".tmp"]

/-- The sealed temp of `put_reader`. -/
def encTmpPath (digest : String) : MatterPath := shardDir digest ++ ["." ++ digest ++ ".enc.tmp"]

/-- Where `put_reader` stages the plaintext. -/
def Cas.stagePath (cas : Cas) (seq pid : Nat) : MatterPath :=
  let tmpName := ".stream-" ++ toString seq ++ "-" ++ toString pid ++ ".tmp"
  if cas.isEncrypted then casStageDir ++ [tmpName] else [blobsDir, tmpName]

/-- Where `open_read` puts a large plaintext. -/
def readTmpPath (seq : Nat) (digest : String) : MatterPath :=
  casStageDir ++ [".read-" ++ toString seq ++ "-" ++ digest ++ ".tmp"]

def isEncryptedMatter (fs : Files MatterPath UInt8) : Bool := (fs [cryptoHeaderFile]).isSome

def isEncryptedBlob (data : Bytes) : Bool := data.take 8 = magicCas.1 ∨ data.take 8 = magicDb.1

/-- A call of `read`: at most a buffer of bytes, none at the end, or an error. -/
inductive ReadResult where
  | bytes (bs : Bytes) (le : bs.length ≤ putReaderBufSize)
  | fails

def stageReads (tmp : MatterPath) (hashed : Bytes) : List ReadResult → CasProg Bytes
  | [] => pure hashed
  | .fails :: _ => fail .io
  | .bytes bs _ :: rest =>
    if bs = [] then pure hashed
    else do
      writeAll tmp bs
      stageReads tmp (hashed ++ bs) rest

section

variable [Sha256] [Gcm]

def verifyExisting (cas : Cas) (path : MatterPath) (digest : String) (data : Bytes) : CasProg String := do
  let existing ← readFile path
  match cas.crypto with
  | some _ =>
    if ¬ isEncryptedBlob existing then
      fail (.crypto ("encrypted CAS requires AEAD object at digest " ++ digest ++
        "; found plaintext leftover"))
    else
      match decryptChunked Aead.decrypt magicCas (bytes "cas") (bytes digest) existing with
      | .ok plain => if plain = data then pure digest else fail (.casCollision digest)
      | .error _ => fail (.casCollision digest)
  | none => if existing ≠ data then fail (.casCollision digest) else pure digest

/-- What `put_bytes` writes for a plaintext. -/
def Cas.seal (cas : Cas) (nonce : Nat → Nonce) (digest : String) (data : Bytes) : Bytes :=
  match cas.crypto with
  | some crypto => encryptChunked nonce magicCas (bytes "cas") (bytes digest) data crypto.chunkBytes
  | none => data

def putBytes (cas : Cas) (nonce : Nat → Nonce) (data : Bytes) : CasProg String := do
  let digest := sha256Hex data
  let path ← ofResult (objectPath digest)
  if ← pathExists path then verifyExisting cas path digest data
  else
    touch -- create_dir_all
    let tmp := putTmpPath digest
    createFile tmp
    writeAll tmp (cas.seal nonce digest data)
    touch -- sync_all
    if ← pathExists path then
      always (Files.erase tmp)
      verifyExisting cas path digest data
    else
      rename tmp path
      pure digest

/-- The end of `put_reader` on an encrypted store. `wipe.disarm()` changes nothing, as the file is
gone. -/
def storeSealed (crypto : CasCrypto) (nonce : Nat → Nonce) (tmp path : MatterPath) (digest : String)
    (plainLen : Nat) : CasProg String :=
  let encTmp := encTmpPath digest
  onError (Files.erase encTmp) do
    let plainIn ← readFile tmp
    createFile encTmp
    let (written, done) :=
      encryptChunkedFromReader nonce magicCas (bytes "cas") (bytes digest) ⟨plainIn, false⟩
      crypto.chunkBytes plainLen
    writeAll encTmp written
    if ¬ done then fail .io
    else
      touch -- sync_all
      always (Files.erase tmp)
      if ← pathExists path then
        always (Files.erase encTmp)
        pure digest
      else
        match ← attempt (rename encTmp path) with
        | .ok _ => pure digest
        | .error e =>
          if ← pathExists path then
            always (Files.erase encTmp)
            pure digest
          else
            always (Files.erase encTmp)
            fail e

omit [Sha256] [Gcm] in
/-- The end of `put_reader` on a plain store. -/
def storePlain (tmp path : MatterPath) (digest : String) : CasProg String := do
  match ← attempt (rename tmp path) with
  | .ok _ => pure digest
  | .error e => if ← pathExists path then pure digest else fail e

omit [Sha256] [Gcm] in
def createStageDir (cas : Cas) : CasProg Unit := if cas.isEncrypted then touch else pure ()

def putReader (cas : Cas) (nonce : Nat → Nonce) (seq pid : Nat) (reads : List ReadResult) :
    CasProg String := do
  touch -- create_dir_all
  createStageDir cas
  let tmp := cas.stagePath seq pid
  dropping (Files.erase tmp) do
    createFile tmp
    let hashed ← stageReads tmp [] reads
    touch -- sync_all
    let digest := sha256Hex hashed
    let path ← ofResult (objectPath digest)
    if ← pathExists path then verifyExisting cas path digest (← readFile tmp)
    else
      touch -- create_dir_all
      if ← pathExists path then verifyExisting cas path digest (← readFile tmp)
      else
        match cas.crypto with
        | some crypto => storeSealed crypto nonce tmp path digest hashed.length
        | none => storePlain tmp path digest

end

inductive CasReader where
  | plain (content : Bytes)
  | memory (content : Bytes)
  deriving DecidableEq, Repr

def CasReader.content : CasReader → Bytes
  | .plain content => content
  | .memory content => content

def readHeader (file : Bytes) : CasProg Bytes :=
  if file.length < headerLen then fail .io else pure (file.take headerLen)

section

variable [Sha256] [Gcm]

/-- `open_read`. What a decryption that fails has written to the temp is left out. -/
def openRead (cas : Cas) (seq : Nat) (digestHex : String) : CasProg CasReader := do
  let digest ← ofResult (normalizeDigest digestHex)
  let path ← ofResult (objectPath digest)
  if ¬ (← pathExists path) then fail (.blobNotFound digest)
  else
    match cas.crypto with
    | some _ =>
      let file ← readFile path
      let hdr ← readHeader file
      if ¬ isEncryptedBlob hdr then fail (.crypto "expected encrypted CAS blob but magic missing")
      else
        let plainLen ← ofResult ((readPlainLen hdr).mapError CasError.ofCrypto)
        let decrypted := (decryptChunkedFromReader Aead.decrypt magicCas (bytes "cas") (bytes digest)
          ⟨file, false⟩).mapError CasError.ofCrypto
        if plainLen ≤ openReadMemoryThreshold then
          let plain ← ofResult decrypted
          if sha256Hex plain ≠ digest then fail (.crypto "CAS plaintext digest mismatch after decrypt")
          else pure (.memory plain)
        else
          touch -- create_dir_all
          let tmp := readTmpPath seq digest
          createFile tmp
          let plain ← ofResult decrypted
          writeAll tmp plain
          touch -- sync_all
          if sha256Hex plain ≠ digest then
            always (Files.erase tmp)
            fail (.crypto "CAS plaintext digest mismatch after decrypt")
          else
            let f ← readFile tmp
            always (Files.erase tmp)
            pure (.plain f)
    | none =>
      if ← look isEncryptedMatter then fail (.crypto "encrypted CAS blob requires unlocked matter")
      else
        let f ← readFile path
        pure (.plain f)

omit [Sha256] [Gcm] in
def blobLen (cas : Cas) (digestHex : String) : CasProg Nat := do
  let path ← ofResult (objectPath digestHex)
  if ¬ (← pathExists path) then
    let digest ← ofResult (normalizeDigest digestHex)
    fail (.blobNotFound digest)
  else
    let file ← readFile path
    if cas.isEncrypted then
      let hdr ← readHeader file
      if isEncryptedBlob hdr then ofResult ((readPlainLen hdr).mapError CasError.ofCrypto)
      else fail (.crypto "expected encrypted CAS blob but magic missing")
    else pure file.length

def getBytes (cas : Cas) (digestHex : String) : CasProg Bytes := do
  let digest ← ofResult (normalizeDigest digestHex)
  let path ← ofResult (objectPath digest)
  if ¬ (← pathExists path) then fail (.blobNotFound digest)
  else
    let buf ← readFile path
    match cas.crypto with
    | some _ =>
      if ¬ isEncryptedBlob buf then fail (.crypto "expected encrypted CAS blob but magic missing")
      else
        let plain ← ofResult ((decryptChunked Aead.decrypt magicCas (bytes "cas") (bytes digest) buf).mapError
          CasError.ofCrypto)
        if sha256Hex plain ≠ digest then fail (.crypto "CAS plaintext digest mismatch after decrypt")
        else pure plain
    | none =>
      if ← look isEncryptedMatter then fail (.crypto "encrypted CAS blob requires unlocked matter")
      else pure buf

end

end MatterCore
