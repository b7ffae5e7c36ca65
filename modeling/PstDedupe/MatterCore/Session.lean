import PstDedupe.MatterCore.Cas
import PstDedupe.Rust.Paths

/-!
# Sessions of an encrypted database (`matter-core/src/crypto/session.rs`)

The database of an encrypted matter is a plain file while a session is live, and is sealed into
`matter.db` when the last guard goes.
-/

namespace MatterCore

open Rust Foundations

inductive SessionError where
  | io
  | crypto (text : String)
  | databaseMissing (root : String)
  deriving DecidableEq, Repr

instance : IoError SessionError := ⟨.io⟩

def SessionError.ofCrypto : CryptoError → SessionError
  | .crypto text => .crypto text
  | .io => .io

/-- The directory that a root path names. Two paths may name the same one. -/
class Folders where
  folder : String → Nat

abbrev SessionFile := Nat × MatterPath

structure DbCrypto where
  dek : Gcm
  chunkBytes : Nat
  ge_chunkBytes : 64 * 1024 ≤ chunkBytes
  chunkBytes_le : chunkBytes ≤ maxChunkSize

structure SessionEntry where
  refcount : Nat
  plainPath : SessionFile
  crypto : DbCrypto

/-- The process-local map. Its lock is not modelled: nothing panics while it is held. -/
abbrev Sessions := HashMap String SessionEntry

/-- What the code asks of the process it runs in. `H` is the type of open files. -/
class Platform (m : Type → Type) (H : outParam Type) where
  pathExists : SessionFile → m Bool
  readFile : SessionFile → m Bytes
  createDirAll : m Unit
  createFile : SessionFile → m H
  writeAll : H → Bytes → m Unit
  syncAll : H → m Unit
  removeFile : SessionFile → m Unit
  rename : SessionFile → SessionFile → m Unit
  /-- `fs::remove_file`, whose result is dropped. -/
  discard : SessionFile → m Unit
  /-- `fs::remove_dir_all`, whose result is dropped. -/
  discardDir : SessionFile → m Unit
  getSessions : m Sessions
  setSessions : Sessions → m Unit
  fail : {α : Type} → SessionError → m α
  attempt : {α : Type} → m α → m (Except SessionError α)

def dbFile : String := "matter.db"

def rootKey (root : String) : String := toAsciiLowercase (replaceChar root '\\' '/')

section

variable [Folders]

def dbPath (root : String) : SessionFile := (Folders.folder root, [dbFile])

def sealTmpPath (root : String) : SessionFile := (Folders.folder root, ["." ++ dbFile ++ ".enc.tmp"])

def encDbDir (root : String) : SessionFile :=
  (Folders.folder root, [workspaceDir, workspaceTempDir, ".enc-db"])

def plainDbPath (root : String) : SessionFile :=
  (Folders.folder root, [workspaceDir, workspaceTempDir, ".enc-db", dbFile])

end

def SessionFile.withSuffix (p : SessionFile) (suffix : String) : SessionFile :=
  (p.1, p.2.dropLast ++ [p.2.getLast?.getD "" ++ suffix])

def SessionFile.parent (p : SessionFile) : SessionFile := (p.1, p.2.dropLast)

def DbCrypto.seal (crypto : DbCrypto) (nonce : Nat → Nonce) (plain : Bytes) : Bytes :=
  @encryptChunked crypto.dek nonce magicDb (bytes "matter-db") [] plain crypto.chunkBytes

def DbCrypto.unseal (crypto : DbCrypto) (data : Bytes) : Except CryptoError Bytes :=
  decryptChunked (@Aead.decrypt _ _ _ _ crypto.dek.toAead) magicDb (bytes "matter-db") [] data

theorem DbCrypto.unseal_seal (crypto : DbCrypto) (nonce : Nat → Nonce) {plain : Bytes}
    (hlt : plain.length < 2 ^ 64) :
    crypto.unseal (crypto.seal nonce plain) = .ok plain := by
  have hpos := crypto.ge_chunkBytes
  exact @decryptChunked_encryptChunked crypto.dek nonce magicDb _ _ plain crypto.chunkBytes
    (by omega) crypto.chunkBytes_le hlt

theorem DbCrypto.length_lt_of_unseal {crypto : DbCrypto} {data plain : Bytes}
    (h : crypto.unseal data = .ok plain) :
    plain.length < 2 ^ 64 := by
  obtain ⟨_, _, _, _, hlt, _⟩ := decryptChunked_eq_ok.mp h
  exact hlt

section

open Platform

variable {m : Type → Type} {H : Type} [Monad m] [Platform m H]

def wipePlainSession (plainPath : SessionFile) : m Unit := do
  discard plainPath
  discard (plainPath.withSuffix "-wal")
  discard (plainPath.withSuffix "-shm")
  discard (plainPath.withSuffix "-journal")
  discardDir plainPath.parent

def removeIfExists (p : SessionFile) : m Unit := do
  if ← pathExists p then removeFile p else pure ()

variable [Folders]

def encryptSessionDbToRoot (root : String) (crypto : DbCrypto) (nonce : Nat → Nonce)
    (plainPath : SessionFile) :
    m Unit := do
  if ← pathExists plainPath then
    let plain ← readFile plainPath
    let out ← createFile (sealTmpPath root)
    writeAll out (crypto.seal nonce plain)
    syncAll out
    -- on Windows a rename cannot overwrite
    removeIfExists (dbPath root)
    rename (sealTmpPath root) (dbPath root)
  else fail (.crypto "plain session db missing at seal time")

def recoverSealTemp (root : String) : m Unit := do
  let sealed ← pathExists (dbPath root)
  let temp ← pathExists (sealTmpPath root)
  if !sealed && temp then rename (sealTmpPath root) (dbPath root) else pure ()

def decryptDbToSession (root : String) (crypto : DbCrypto) (plainPath : SessionFile) : m Unit := do
  if ← pathExists (dbPath root) then
    let data ← readFile (dbPath root)
    match crypto.unseal data with
    | .error e => fail (.ofCrypto e)
    | .ok plain =>
      createDirAll
      let out ← createFile plainPath
      writeAll out plain
      syncAll out
  else fail (.databaseMissing root)

def hasActiveSession (root : String) : m Bool := do
  let sessions ← getSessions
  pure ((sessions.get (rootKey root)).any fun entry => 0 < entry.refcount)

def wipeOrphanEncDbSession (root : String) : m Unit := do
  if ← hasActiveSession root then pure () else discardDir (encDbDir root)

def createDbSession (root : String) (crypto : DbCrypto) : m SessionFile := do
  if ← hasActiveSession root then fail (.crypto "encrypted session already open for this matter")
  else
    -- a stale entry without guards is dropped
    let sessions ← getSessions
    setSessions (sessions.erase (rootKey root))
    let plain := plainDbPath root
    wipePlainSession plain
    createDirAll
    let _ ← createFile plain
    let sessions ← getSessions
    setSessions (sessions.insert (rootKey root) ⟨1, plain, crypto⟩)
    pure plain

def wipeLeftover (plainPath : SessionFile) : m Unit := do
  if ← pathExists plainPath then
    wipePlainSession plainPath
    createDirAll
  else pure ()

def retainNew (root : String) (crypto : DbCrypto) : m SessionFile := do
  -- a stale entry without guards is dropped
  let sessions ← getSessions
  setSessions (sessions.erase (rootKey root))
  let plain := plainDbPath root
  createDirAll
  wipeLeftover plain
  decryptDbToSession root crypto plain
  let sessions ← getSessions
  setSessions (sessions.insert (rootKey root) ⟨1, plain, crypto⟩)
  pure plain

def retainDbSession (root : String) (crypto : DbCrypto) : m SessionFile := do
  let sessions ← getSessions
  match sessions.get (rootKey root) with
  | some entry =>
    if 0 < entry.refcount then
      setSessions (sessions.insert (rootKey root) { entry with refcount := entry.refcount + 1 })
      pure entry.plainPath
    else retainNew root crypto
  | none => retainNew root crypto

def releaseDbSession (root : String) (nonce : Nat → Nonce) : m Unit := do
  let sessions ← getSessions
  match sessions.get (rootKey root) with
  | none => pure ()
  | some entry =>
    if 1 < entry.refcount then
      setSessions (sessions.insert (rootKey root) { entry with refcount := entry.refcount - 1 })
    else
      encryptSessionDbToRoot root entry.crypto nonce entry.plainPath
      let sessions ← getSessions
      setSessions (sessions.erase (rootKey root))
      wipePlainSession entry.plainPath

end

/-- A guard that is live, so `active`. -/
structure EncryptedDbSession where
  root : String
  plainPath : SessionFile
  deriving DecidableEq

abbrev SealNonces := Nat → Nat → Nonce

namespace EncryptedDbSession

open Platform

variable {m : Type → Type} {H : Type} [Monad m] [Platform m H] [Folders]

def acquire (root : String) (crypto : DbCrypto) : m EncryptedDbSession := do
  let plainPath ← retainDbSession root crypto
  pure ⟨root, plainPath⟩

def create (root : String) (crypto : DbCrypto) : m EncryptedDbSession := do
  let plainPath ← createDbSession root crypto
  pure ⟨root, plainPath⟩

/-- `drop`: a release that fails is tried once more. -/
def drop (session : EncryptedDbSession) (nonces : SealNonces) : m Unit := do
  match ← attempt (releaseDbSession session.root (nonces 0)) with
  | .ok _ => pure ()
  | .error _ =>
    let _ ← attempt (releaseDbSession session.root (nonces 1))
    pure ()

def sealNow (session : EncryptedDbSession) (nonces : SealNonces) : m Unit := do
  match ← attempt (releaseDbSession session.root (nonces 2)) with
  | .ok _ => pure ()
  | .error e =>
    session.drop nonces
    fail e

end EncryptedDbSession

section

open Platform

variable {m : Type → Type} {H : Type} [Monad m] [Platform m H] [Folders]

/-- The part of `open_with_passphrase` that concerns the session. The lock of writers is left
out. -/
def openWithPassphrase (root : String) (crypto : DbCrypto) : m EncryptedDbSession := do
  let _ ← attempt (recoverSealTemp root)
  if ← pathExists (dbPath root) then
    wipeOrphanEncDbSession root
    match ← attempt (readFile (dbPath root)) with
    | .ok data =>
      if data.take 6 = bytes "SQLite" then
        fail (.crypto "encrypted matter header present but matter.db looks like plaintext SQLite")
      else EncryptedDbSession.acquire root crypto
    | .error _ => EncryptedDbSession.acquire root crypto
  else fail (.databaseMissing root)

/-- The part of `open_inner` for an encrypted matter, whose passphrase comes from the
environment. -/
def openInner (root : String) (crypto : DbCrypto) : m EncryptedDbSession := do
  let _ ← attempt (recoverSealTemp root)
  wipeOrphanEncDbSession root
  openWithPassphrase root crypto

end

end MatterCore
