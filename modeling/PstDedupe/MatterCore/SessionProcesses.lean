import PstDedupe.Foundations.Interleaving
import PstDedupe.MatterCore.SealRuns

/-!
# Processes that share an encrypted matter

One process opens a matter to write, others to read, and their file operations interleave.
-/

namespace MatterCore

open Rust Foundations List Function

/-- SQLite: the file of the transactions that were committed to a database. -/
class Sqlite (Tx : Type) where
  file : List Tx → Bytes
  read : Bytes → Option (List Tx)
  read_file : ∀ txs, read (file txs) = some txs

structure Disk where
  names : SessionFile → Option Nat
  contents : Nat → Bytes
  fresh : Nat

namespace Disk

def create (p : SessionFile) (d : Disk) : Nat × Disk :=
  match d.names p with
  | some i => (i, { d with contents := update d.contents i [] })
  | none => (d.fresh, ⟨update d.names p (some d.fresh), update d.contents d.fresh [], d.fresh + 1⟩)

def write (i : Nat) (bs : Bytes) (d : Disk) : Disk := { d with contents := update d.contents i bs }

def unlink (p : SessionFile) (d : Disk) : Disk := { d with names := update d.names p none }

def move (p q : SessionFile) (d : Disk) : Disk :=
  { d with names := update (update d.names q (d.names p)) p none }

def unlinkDir (dir : SessionFile) (d : Disk) : Disk :=
  { d with names := fun p => if InDir dir p then none else d.names p }

end Disk

structure MatterHandle where
  session : EncryptedDbSession
  db : Nat

inductive Phase where
  | unopened
  | live (handle : MatterHandle)
  | closed

structure Shared (Tx : Type) where
  disk : Disk
  sessions : Nat → Sessions
  committed : List Tx

def ProcProg (Tx : Type) (_pid : Nat) (α : Type) : Type := ExceptT SessionError (Script (Shared Tx)) α

section

variable {Tx : Type} {pid : Nat} {α : Type}

instance : Monad (ProcProg Tx pid) := inferInstanceAs (Monad (ExceptT SessionError (Script (Shared Tx))))

def onDisk (f : Disk → Except SessionError α × Disk) : ProcProg Tx pid α :=
  Script.op fun s => ((f s.disk).1, { s with disk := (f s.disk).2 })

instance : Platform (ProcProg Tx pid) Nat where
  pathExists p := onDisk fun d => (.ok (d.names p).isSome, d)
  readFile p := onDisk fun d =>
    match d.names p with
    | some i => (.ok (d.contents i), d)
    | none => (.error .io, d)
  createDirAll := onDisk fun d => (.ok (), d)
  createFile p := onDisk fun d => (.ok (d.create p).1, (d.create p).2)
  writeAll i bs := onDisk fun d => (.ok (), d.write i (d.contents i ++ bs))
  syncAll _ := onDisk fun d => (.ok (), d)
  removeFile p := onDisk fun d =>
    match d.names p with
    | some _ => (.ok (), d.unlink p)
    | none => (.error .io, d)
  rename p q := onDisk fun d =>
    match d.names p with
    | some _ => (.ok (), d.move p q)
    | none => (.error .io, d)
  discard p := onDisk fun d => (.ok (), d.unlink p)
  discardDir dir := onDisk fun d => (.ok (), d.unlinkDir dir)
  getSessions := Script.op fun s => (.ok (s.sessions pid), s)
  setSessions m := Script.op fun s => (.ok (), { s with sessions := update s.sessions pid m })
  fail e := ExceptT.mk (pure (.error e))
  attempt m := Script.attempt m

end

/-! ## Opening, committing and closing -/

section

variable {Tx : Type} [Sqlite Tx] {pid : Nat}

def connect (p : SessionFile) : ProcProg Tx pid (Option Nat) :=
  onDisk fun d =>
    match d.names p with
    | some i =>
      match (Sqlite.read (d.contents i) : Option (List Tx)) with
      | some (_ :: _) => (.ok (some i), d)
      | _ => (.ok none, d)
    | none => (.ok none, (d.create p).2.write d.fresh (Sqlite.file ([] : List Tx)))

inductive Opener where
  /-- `Matter::open` or `Matter::open_for_read`. -/
  | environment
  /-- `Matter::open_with_passphrase`. -/
  | passphrase

variable [Folders]

def openMatter (root : String) (crypto : DbCrypto) (opener : Opener) (nonces : SealNonces) :
    ProcProg Tx pid MatterHandle := do
  let session ← match opener with
    | .environment => openInner root crypto
    | .passphrase => openWithPassphrase root crypto
  match ← connect session.plainPath with
  | some db => pure ⟨session, db⟩
  | none =>
    session.drop nonces
    Platform.fail .io

def opening (root : String) (crypto : DbCrypto) (pid : Nat) (opener : Opener)
    (nonces : SealNonces) : Script (Shared Tx) Phase := do
  match ← (openMatter root crypto opener nonces : ProcProg Tx pid MatterHandle) with
  | .ok handle => pure (.live handle)
  | .error _ => pure .closed

/-- The drop of an open matter: SQLite closes its file, and the guard goes. -/
def closing (pid : Nat) (handle : MatterHandle) (nonces : SealNonces) : Script (Shared Tx) Phase := do
  let _ ← (handle.session.drop nonces : ProcProg Tx pid Unit)
  pure .closed

/-- SQLite refuses to write to a database that its path no longer names
(`SQLITE_READONLY_DBMOVED`). -/
def Shared.commit (s : Shared Tx) (handle : MatterHandle) (tx : Tx) : Shared Tx :=
  if s.disk.names handle.session.plainPath = some handle.db then
    match (Sqlite.read (s.disk.contents handle.db) : Option (List Tx)) with
    | some txs =>
      -- the size of a file is bounded
      if (Sqlite.file (txs ++ [tx])).length < 2 ^ 64 then
        { s with
          disk := s.disk.write handle.db (Sqlite.file (txs ++ [tx])), committed := s.committed ++ [tx] }
      else s
    | none => s
  else s

inductive ProcEvent (Tx : Type) where
  | beginOpen (pid : Nat) (opener : Opener) (nonces : SealNonces)
  /-- The next step of the open or the close that a process has begun. -/
  | advance (pid : Nat)
  | commit (tx : Tx)
  | beginClose (pid : Nat) (nonces : SealNonces)

abbrev Processes (Tx : Type) := Threads Nat (Shared Tx) Phase

def Processes.step (root : String) (crypto : DbCrypto) (t : Processes Tx) : ProcEvent Tx → Processes Tx
  | .beginOpen pid opener nonces =>
    match t.procs pid with
    | .idle .unopened => t.start pid (opening root crypto pid opener nonces)
    | _ => t
  | .advance pid => t.advance pid
  | .commit tx =>
    match t.procs 0 with
    | .idle (.live handle) => { t with shared := t.shared.commit handle tx }
    | _ => t
  | .beginClose pid nonces =>
    match t.procs pid with
    | .idle (.live handle) => t.start pid (closing pid handle nonces)
    | _ => t

/-- The writer does not have the matter open. -/
def Processes.Away (t : Processes Tx) : Prop := ∀ handle, t.procs 0 ≠ .idle (.live handle)

/-- A database that is there, with the row of its matter and all these transactions. -/
def Keeps (committed : List Tx) (db : Bytes) : Prop :=
  ∃ txs, Sqlite.read db = some txs ∧ txs ≠ [] ∧ ∀ tx ∈ committed, tx ∈ txs

/-- The live session of the writer is the plain database, and when every handle is closed the sealed
database has all that was committed. -/
structure NoLostWrite (root : String) (crypto : DbCrypto) (t : Processes Tx) : Prop where
  live : ∀ handle, t.procs 0 = .idle (.live handle) → t.shared.disk.names (plainDbPath root) = some handle.db
      ∧ Keeps t.shared.committed (t.shared.disk.contents handle.db)
  closed : (∀ pid, t.procs pid = .idle .unopened ∨ t.procs pid = .idle .closed) →
    ∃ i db, t.shared.disk.names (dbPath root) = some i ∧
      crypto.unseal (t.shared.disk.contents i) = .ok db ∧ Keeps t.shared.committed db

/-- Opens, closes and commits begin while no other process is in the middle of an open or a close,
and no reader opens or closes while the writer has the matter open. -/
def Separate (t : Processes Tx) : ProcEvent Tx → Prop
  | .beginOpen pid _ _ => t.OthersIdle pid ∧ (pid ≠ 0 → t.Away)
  | .advance _ => True
  | .commit _ => t.OthersIdle 0
  | .beginClose pid _ => t.OthersIdle pid ∧ (pid ≠ 0 → t.Away)

def ProcEvent.process : ProcEvent Tx → Nat
  | .beginOpen pid _ _ => pid
  | .advance pid => pid
  | .commit _ => 0
  | .beginClose pid _ => pid

structure SealedMatter (Tx : Type) [Sqlite Tx] (crypto : DbCrypto) where
  image : Bytes
  db : Bytes
  opens : crypto.unseal image = .ok db
  keeps : Keeps ([] : List Tx) db

def Processes.atRest (root : String) {crypto : DbCrypto} (matter : SealedMatter Tx crypto) : Processes Tx where
  shared := {
    disk := ⟨fun p => if p = dbPath root then some 0 else none, fun _ => matter.image, 1⟩
    sessions := fun _ => ∅
    committed := [] }
  procs _ := .idle .unopened

end

/-! ## Operations that run alone -/

section

open Script

variable {Tx : Type} {pid : Nat} {s : Shared Tx} {d : Disk} {p : SessionFile} {nonce : Nat → Nonce}

theorem take_ne_sqlite {crypto : DbCrypto} {data db : Bytes} (h : crypto.unseal data = .ok db) :
    data.take 6 ≠ bytes "SQLite" := by
  obtain ⟨chunkSize, body, -, hmax, hlt, hdata, -⟩ := decryptChunked_eq_ok.mp h
  obtain ⟨-, hmagic, -⟩ := header_fields (Nat.lt_of_le_of_lt hmax (by decide)) hlt hdata
  intro htake
  have hsix : data.take 6 = magicDb.1.take 6 := by
    rw [← hmagic, take_take]
    rfl
  rw [hsix] at htake
  revert htake
  decide +kernel

def Disk.Fresh (d : Disk) : Prop := ∀ p i, d.names p = some i → i < d.fresh

theorem Disk.Fresh.of_names {d d' : Disk} (h : d.Fresh)
    (hnames : ∀ p i, d'.names p = some i → d.names p = some i) (hfresh : d'.fresh = d.fresh) :
    d'.Fresh := by
  intro p i hp
  rw [hfresh]
  exact h p i (hnames p i hp)

theorem Disk.Fresh.unlink (h : d.Fresh) (p : SessionFile) : (d.unlink p).Fresh := by
  refine h.of_names (fun q i hq => ?_) rfl
  have hunlinked : update d.names p none q = some i := hq
  rw [update_apply] at hunlinked
  split at hunlinked
  · cases hunlinked
  · exact hunlinked

theorem Disk.Fresh.unlinkDir (h : d.Fresh) (dir : SessionFile) : (d.unlinkDir dir).Fresh := by
  refine h.of_names (fun q i hq => ?_) rfl
  have hunlinked : (if InDir dir q then none else d.names q) = some i := hq
  split at hunlinked
  · cases hunlinked
  · exact hunlinked

theorem Disk.Fresh.create (h : d.Fresh) (contents : Nat → Bytes) :
    (Disk.mk (update d.names p (some d.fresh)) contents (d.fresh + 1)).Fresh := by
  intro q i hq
  have hcreated : update d.names p (some d.fresh) q = some i := hq
  show i < d.fresh + 1
  rw [update_apply] at hcreated
  split at hcreated
  · cases hcreated
    exact Nat.lt_succ_self _
  · exact Nat.lt_succ_of_lt (h q i hcreated)

theorem alone_onDisk {α : Type} {f : Disk → Except SessionError α × Disk} {Q : α → Shared Tx → Prop}
    {E : SessionError → Shared Tx → Prop} {a : α} (hf : f s.disk = (.ok a, d))
    (h : Q a { s with disk := d }) : Alone (onDisk f : ProcProg Tx pid α) s Q E := by
  refine Alone.op ?_
  rw [hf]
  exact h

theorem alone_readFile {i : Nat} {Q : Bytes → Shared Tx → Prop} {E : SessionError → Shared Tx → Prop}
    (hp : s.disk.names p = some i) (h : Q (s.disk.contents i) s) :
    Alone (Platform.readFile p : ProcProg Tx pid Bytes) s Q E := by
  refine alone_onDisk (a := s.disk.contents i) (d := s.disk) ?_ h
  rw [hp]

theorem alone_removeFile {i : Nat} {Q : Unit → Shared Tx → Prop} {E : SessionError → Shared Tx → Prop}
    (hp : s.disk.names p = some i) (h : Q () { s with disk := s.disk.unlink p }) :
    Alone (Platform.removeFile p : ProcProg Tx pid Unit) s Q E := by
  refine alone_onDisk (a := ()) (d := s.disk.unlink p) ?_ h
  rw [hp]

theorem alone_rename {p q : SessionFile} {i : Nat} {Q : Unit → Shared Tx → Prop}
    {E : SessionError → Shared Tx → Prop} (hp : s.disk.names p = some i)
    (h : Q () { s with disk := s.disk.move p q }) :
    Alone (Platform.rename p q : ProcProg Tx pid Unit) s Q E := by
  refine alone_onDisk (a := ()) (d := s.disk.move p q) ?_ h
  rw [hp]

theorem create_of_missing (h : d.names p = none) :
    d.create p = (d.fresh, ⟨update d.names p (some d.fresh), update d.contents d.fresh [], d.fresh + 1⟩) := by
  unfold Disk.create
  rw [h]

theorem unlinkDir_unlink {dir p : SessionFile} (h : InDir dir p) (d : Disk) :
    (d.unlink p).unlinkDir dir = d.unlinkDir dir := by
  unfold Disk.unlinkDir Disk.unlink
  congr 1
  funext q
  dsimp only
  split
  · rfl
  · rename_i hq
    have hne : q ≠ p := by
      rintro rfl
      exact hq h
    exact update_of_ne hne _ _

variable [Folders] {root : String} {crypto : DbCrypto}

theorem encrypt_alone {j : Nat} (hplain : s.disk.names (plainDbPath root) = some j)
    (htemp : s.disk.names (sealTmpPath root) = none) (hfresh : s.disk.Fresh) :
    Alone (encryptSessionDbToRoot root crypto nonce (plainDbPath root) : ProcProg Tx pid Unit) s
      (fun _ s' => s'.sessions = s.sessions ∧ s'.committed = s.committed
        ∧ s'.disk.names (dbPath root) = some s.disk.fresh
        ∧ s'.disk.contents s.disk.fresh = crypto.seal nonce (s.disk.contents j)
        ∧ s'.disk.names (sealTmpPath root) = none ∧ s'.disk.Fresh)
      fun _ _ => False := by
  have hne := dbPath_ne_sealTmpPath root root
  refine Alone.bind (alone_onDisk rfl ?_)
  rw [hplain]
  refine Alone.bind (alone_readFile hplain ?_)
  refine Alone.bind (alone_onDisk rfl ?_)
  rw [create_of_missing htemp]
  refine Alone.bind (alone_onDisk rfl ?_)
  refine Alone.bind (alone_onDisk rfl ?_)
  -- the temp is whole, whether there is a database to remove or not
  have hrename : ∀ d : Disk, d.names (sealTmpPath root) = some s.disk.fresh →
      d.contents s.disk.fresh = crypto.seal nonce (s.disk.contents j) → d.Fresh →
      Alone (Platform.rename (sealTmpPath root) (dbPath root) : ProcProg Tx pid Unit)
        { s with disk := d } (fun _ s' => s'.sessions = s.sessions ∧ s'.committed = s.committed
          ∧ s'.disk.names (dbPath root) = some s.disk.fresh
          ∧ s'.disk.contents s.disk.fresh = crypto.seal nonce (s.disk.contents j)
          ∧ s'.disk.names (sealTmpPath root) = none ∧ s'.disk.Fresh)
        fun _ _ => False := by
    intro d hd hcontents hd'
    refine alone_rename hd ?_
    refine ⟨rfl, rfl, ?_, hcontents, update_self .., ?_⟩
    · show update (update d.names (dbPath root) (d.names (sealTmpPath root))) _ none (dbPath root) = _
      rw [update_of_ne hne, update_self, hd]
    · intro p i hp
      have hmoved : update (update d.names (dbPath root) (d.names (sealTmpPath root))) _ none p
        = some i := hp
      rw [update_apply, update_apply] at hmoved
      split at hmoved
      · cases hmoved
      · split at hmoved
        · exact hd' _ i hmoved
        · exact hd' p i hmoved
  let d₁ : Disk := ⟨update s.disk.names (sealTmpPath root) (some s.disk.fresh),
    update (update s.disk.contents s.disk.fresh []) s.disk.fresh
      (update s.disk.contents s.disk.fresh [] s.disk.fresh ++ crypto.seal nonce (s.disk.contents j)),
    s.disk.fresh + 1⟩
  have htemp₁ : d₁.names (sealTmpPath root) = some s.disk.fresh := update_self ..
  have hcontents₁ : d₁.contents s.disk.fresh = crypto.seal nonce (s.disk.contents j) := by
    show update _ _ _ _ = _
    rw [update_self, update_self]
    rfl
  have hfresh₁ : d₁.Fresh := hfresh.create _
  refine Alone.bind (Alone.bind (alone_onDisk rfl ?_))
  show Alone (if (d₁.names (dbPath root)).isSome then _ else _) { s with disk := d₁ } _ _
  cases hdb : d₁.names (dbPath root) with
  | none => exact Alone.pure (hrename d₁ htemp₁ hcontents₁ hfresh₁)
  | some i =>
    refine alone_removeFile hdb (hrename _ ?_ hcontents₁ ?_)
    · show update d₁.names (dbPath root) none (sealTmpPath root) = _
      rw [update_of_ne hne.symm, htemp₁]
    · exact hfresh₁.unlink _

theorem wipe_alone {Q : Unit → Shared Tx → Prop} {E : SessionError → Shared Tx → Prop}
    (h : Q () { s with disk := s.disk.unlinkDir (encDbDir root) }) :
    Alone (wipePlainSession (plainDbPath root) : ProcProg Tx pid Unit) s Q E := by
  refine Alone.bind (alone_onDisk rfl (Alone.bind (alone_onDisk rfl (Alone.bind (alone_onDisk rfl
    (Alone.bind (alone_onDisk rfl (alone_onDisk rfl ?_))))))))
  dsimp only
  rw [show (plainDbPath root).parent = encDbDir root from rfl, unlinkDir_unlink (inDir_withSuffix "-journal"),
    unlinkDir_unlink (inDir_withSuffix "-shm"), unlinkDir_unlink (inDir_withSuffix "-wal"),
    unlinkDir_unlink inDir_plainDbPath]
  exact h

structure Sealed (root : String) (crypto : DbCrypto) (pid : Nat) (db : Bytes) (s s' : Shared Tx) : Prop where
  committed : s'.committed = s.committed
  sessions : ∀ q, q ≠ pid → s'.sessions q = s.sessions q
  db : ∃ i nonce, s'.disk.names (dbPath root) = some i ∧ s'.disk.contents i = crypto.seal nonce db
  temp : s'.disk.names (sealTmpPath root) = none
  plain : s'.disk.names (plainDbPath root) = none
  fresh : s'.disk.Fresh

theorem release_alone {j : Nat}
    (hget : (s.sessions pid).get (rootKey root) = some ⟨1, plainDbPath root, crypto⟩)
    (hplain : s.disk.names (plainDbPath root) = some j)
    (htemp : s.disk.names (sealTmpPath root) = none) (hfresh : s.disk.Fresh) :
    Alone (releaseDbSession root nonce : ProcProg Tx pid Unit) s
      (fun _ => Sealed root crypto pid (s.disk.contents j) s) fun _ _ => False := by
  refine Alone.bind (Alone.op ?_)
  dsimp only
  rw [hget]
  refine Alone.bind ((encrypt_alone hplain htemp hfresh).mono ?_ fun _ _ h => h)
  rintro _ s₁ ⟨hsessions, hcommitted, hdb, hcontents, htemp₁, hfresh₁⟩
  refine Alone.bind (Alone.op (Alone.bind (Alone.op (wipe_alone ⟨hcommitted, ?_, ?_, ?_, ?_, ?_⟩))))
  · intro q hq
    show update s₁.sessions pid _ q = _
    rw [update_of_ne hq, hsessions]
  · refine ⟨s.disk.fresh, nonce, ?_, hcontents⟩
    show (if InDir (encDbDir root) (dbPath root) then none else _) = _
    rw [if_neg (not_inDir_of_sealed (.inl rfl)), hdb]
  · show (if InDir (encDbDir root) (sealTmpPath root) then none else _) = _
    rw [if_neg (not_inDir_of_sealed (.inr rfl)), htemp₁]
  · exact if_pos inDir_plainDbPath
  · exact hfresh₁.unlinkDir _

theorem release_alone_missing (hget : (s.sessions pid).get (rootKey root) = some ⟨1, plainDbPath root, crypto⟩)
    (hplain : s.disk.names (plainDbPath root) = none) :
    Alone (releaseDbSession root nonce : ProcProg Tx pid Unit) s (fun _ _ => False) fun _ s' => s' = s := by
  refine Alone.bind (Alone.op ?_)
  dsimp only
  rw [hget]
  refine Alone.bind (Alone.bind (alone_onDisk rfl ?_))
  rw [hplain]
  exact ⟨rfl⟩

theorem drop_alone {session : EncryptedDbSession} (nonces : SealNonces) (hroot : session.root = root)
    (hget : (s.sessions pid).get (rootKey root) = some ⟨1, plainDbPath root, crypto⟩)
    (htemp : s.disk.names (sealTmpPath root) = none) (hfresh : s.disk.Fresh) :
    Alone (session.drop nonces : ProcProg Tx pid Unit) s
      (fun _ s' => (∃ j, s.disk.names (plainDbPath root) = some j ∧
        Sealed root crypto pid (s.disk.contents j) s s')
        ∨ s.disk.names (plainDbPath root) = none ∧ s' = s) fun _ _ => False := by
  subst hroot
  cases hplain : s.disk.names (plainDbPath session.root) with
  | some j =>
    refine Alone.bind (Alone.attempt ((release_alone hget hplain htemp hfresh).mono ?_ fun _ _ h => h.elim))
    exact fun _ s' h => Alone.pure (.inl ⟨j, rfl, h⟩)
  | none =>
    refine Alone.bind (Alone.attempt ((release_alone_missing hget hplain).mono (fun _ _ h => h.elim) ?_))
    rintro _ s' rfl
    refine Alone.bind (Alone.attempt ((release_alone_missing hget hplain).mono (fun _ _ h => h.elim) ?_))
    rintro _ s' rfl
    exact Alone.pure (.inr ⟨rfl, rfl⟩)

structure Ready (root : String) (crypto : DbCrypto) (pid i : Nat) (db : Bytes) (s : Shared Tx) : Prop where
  image : s.disk.names (dbPath root) = some i
  opens : crypto.unseal (s.disk.contents i) = .ok db
  temp : s.disk.names (sealTmpPath root) = none
  fresh : s.disk.Fresh
  idle : (s.sessions pid).get (rootKey root) = none

variable {i : Nat} {db : Bytes}

theorem Ready.wiped (h : Ready root crypto pid i db s) :
    Ready root crypto pid i db { s with disk := s.disk.unlinkDir (encDbDir root) } where
  image := (if_neg (not_inDir_of_sealed (.inl rfl))).trans h.image
  opens := h.opens
  temp := (if_neg (not_inDir_of_sealed (.inr rfl))).trans h.temp
  fresh := h.fresh.unlinkDir _
  idle := h.idle

structure Acquired (root : String) (crypto : DbCrypto) (pid i : Nat) (db : Bytes) (s : Shared Tx)
    (session : EncryptedDbSession) (s' : Shared Tx) : Prop where
  session : session = ⟨root, plainDbPath root⟩
  committed : s'.committed = s.committed
  sessions : ∀ q, q ≠ pid → s'.sessions q = s.sessions q
  entry : (s'.sessions pid).get (rootKey root) = some ⟨1, plainDbPath root, crypto⟩
  image : s'.disk.names (dbPath root) = some i ∧ s'.disk.contents i = s.disk.contents i
  temp : s'.disk.names (sealTmpPath root) = none
  plain : ∃ j, s'.disk.names (plainDbPath root) = some j ∧ s'.disk.contents j = db
  fresh : s'.disk.Fresh

theorem wipeOrphan_alone {Q : Unit → Shared Tx → Prop} {E : SessionError → Shared Tx → Prop}
    (hidle : (s.sessions pid).get (rootKey root) = none)
    (h : Q () { s with disk := s.disk.unlinkDir (encDbDir root) }) :
    Alone (wipeOrphanEncDbSession root : ProcProg Tx pid Unit) s Q E := by
  refine Alone.bind (Alone.bind (Alone.op (Alone.pure ?_)))
  rw [hidle]
  show Alone (Platform.discardDir (encDbDir root) : ProcProg Tx pid Unit) s Q E
  exact alone_onDisk rfl h

theorem recover_alone {Q : Except SessionError Unit → Shared Tx → Prop} {E : SessionError → Shared Tx → Prop}
    (hdb : s.disk.names (dbPath root) = some i) (h : Q (.ok ()) s) :
    Alone (Platform.attempt (recoverSealTemp root) : ProcProg Tx pid (Except SessionError Unit)) s Q E := by
  refine Alone.attempt (Alone.bind (alone_onDisk rfl (Alone.bind (alone_onDisk rfl ?_))))
  rw [hdb]
  exact Alone.pure h

theorem acquire_alone (h : Ready root crypto pid i db s) (hplain : s.disk.names (plainDbPath root) = none) :
    Alone (EncryptedDbSession.acquire root crypto : ProcProg Tx pid EncryptedDbSession) s
      (Acquired root crypto pid i db s) fun _ _ => False := by
  refine Alone.bind (Alone.bind (Alone.op ?_))
  dsimp only
  rw [h.idle]
  refine Alone.bind (Alone.op (Alone.bind (Alone.op (Alone.bind (alone_onDisk rfl ?_)))))
  -- there is no leftover
  refine Alone.bind (Alone.bind (alone_onDisk rfl ?_))
  dsimp only
  rw [hplain]
  refine Alone.pure (Alone.bind (Alone.bind (alone_onDisk rfl ?_)))
  dsimp only
  rw [h.image]
  refine Alone.bind (alone_readFile h.image ?_)
  dsimp only
  rw [h.opens]
  refine Alone.bind (alone_onDisk rfl (Alone.bind (alone_onDisk rfl ?_)))
  dsimp only
  rw [create_of_missing hplain]
  refine Alone.bind (alone_onDisk rfl (alone_onDisk rfl ?_))
  refine Alone.bind (Alone.op (Alone.bind (Alone.op (Alone.pure (Alone.pure ?_)))))
  have hold : i ≠ s.disk.fresh := Nat.ne_of_lt (h.fresh _ i h.image)
  refine ⟨rfl, rfl, fun q hq => ?_, ?_, ⟨?_, ?_⟩, ?_, ⟨s.disk.fresh, update_self .., ?_⟩,
    h.fresh.create _⟩
  · show update (update s.sessions pid _) pid _ q = _
    rw [update_of_ne hq, update_of_ne hq]
  · show HashMap.get (update (update s.sessions pid _) pid (AList.insert _ _ _) pid) _ = _
    rw [update_self]
    exact AList.lookup_insert _
  · show update s.disk.names (plainDbPath root) _ (dbPath root) = _
    rw [update_of_ne (plainDbPath_ne_dbPath root root).symm, h.image]
  · show update (update s.disk.contents s.disk.fresh _) s.disk.fresh _ i = _
    rw [update_of_ne hold, update_of_ne hold]
  · show update s.disk.names (plainDbPath root) _ (sealTmpPath root) = _
    rw [update_of_ne (plainDbPath_ne_sealTmpPath root root).symm, h.temp]
  · show update (update s.disk.contents s.disk.fresh []) s.disk.fresh
      (update s.disk.contents s.disk.fresh [] s.disk.fresh ++ db) s.disk.fresh = _
    rw [update_self, update_self]
    rfl

theorem openWithPassphrase_alone (h : Ready root crypto pid i db s) :
    Alone (openWithPassphrase root crypto : ProcProg Tx pid EncryptedDbSession) s
      (Acquired root crypto pid i db s) fun _ _ => False := by
  have hwiped := h.wiped
  refine Alone.bind (recover_alone h.image (Alone.bind (alone_onDisk rfl ?_)))
  rw [h.image]
  refine Alone.bind (wipeOrphan_alone h.idle (Alone.bind (Alone.attempt (alone_readFile hwiped.image ?_))))
  dsimp only
  rw [if_neg (take_ne_sqlite hwiped.opens)]
  refine (acquire_alone hwiped (if_pos inDir_plainDbPath)).mono (fun session s' h' => ?_) fun _ _ h => h
  exact ⟨h'.session, h'.committed, h'.sessions, h'.entry, h'.image, h'.temp, h'.plain, h'.fresh⟩

theorem openInner_alone (h : Ready root crypto pid i db s) :
    Alone (openInner root crypto : ProcProg Tx pid EncryptedDbSession) s
      (Acquired root crypto pid i db s) fun _ _ => False := by
  refine Alone.bind (recover_alone h.image (Alone.bind (wipeOrphan_alone h.idle ?_)))
  refine (openWithPassphrase_alone h.wiped).mono (fun session s' h' => ?_) fun _ _ h => h
  exact ⟨h'.session, h'.committed, h'.sessions, h'.entry, h'.image, h'.temp, h'.plain, h'.fresh⟩

theorem openMatter_alone [Sqlite Tx] (opener : Opener) (nonces : SealNonces) {committed : List Tx}
    (h : Ready root crypto pid i db s) (hkeeps : Keeps committed db) :
    Alone (openMatter root crypto opener nonces : ProcProg Tx pid MatterHandle) s
      (fun handle s' => Acquired root crypto pid i db s handle.session s'
        ∧ s'.disk.names (plainDbPath root) = some handle.db ∧ s'.disk.contents handle.db = db) fun _ _ => False := by
  obtain ⟨txs, hread, hne, -⟩ := hkeeps
  have hconnect : ∀ session s', Acquired root crypto pid i db s session s' → Alone (do
          match ← connect session.plainPath with
          | some db => pure ⟨session, db⟩
          | none =>
            session.drop nonces
            Platform.fail .io : ProcProg Tx pid MatterHandle) s'
        (fun handle s' => Acquired root crypto pid i db s handle.session s'
          ∧ s'.disk.names (plainDbPath root) = some handle.db ∧ s'.disk.contents handle.db = db) fun _ _ => False := by
    intro session s' hacquired
    obtain ⟨j, hj, hcontents⟩ := hacquired.plain
    refine Alone.bind (alone_onDisk (a := some j) (d := s'.disk) ?_ (Alone.pure ⟨hacquired, hj, hcontents⟩))
    rw [hacquired.session]
    dsimp only
    rw [hj]
    dsimp only
    rw [hcontents, hread]
    cases txs with
    | nil => exact absurd rfl hne
    | cons tx txs => rfl
  cases opener with
  | environment => exact Alone.bind ((openInner_alone h).mono hconnect fun _ _ h => h)
  | passphrase => exact Alone.bind ((openWithPassphrase_alone h).mono hconnect fun _ _ h => h)

end

/-! ## Runs -/

section

variable {Tx : Type} [Sqlite Tx] {pid : Nat}
variable [Folders] {root : String} {crypto : DbCrypto} {t : Processes Tx}

/-- What the operations keep, as long as each runs alone. -/
structure Good (root : String) (crypto : DbCrypto) (t : Processes Tx) : Prop where
  temp : t.shared.disk.names (sealTmpPath root) = none
  fresh : t.shared.disk.Fresh
  unopened : ∀ pid, t.procs pid = .idle .unopened → (t.shared.sessions pid).get (rootKey root) = none
  live : ∀ pid handle, t.procs pid = .idle (.live handle) → handle.session.root = root
    ∧ (t.shared.sessions pid).get (rootKey root) = some ⟨1, plainDbPath root, crypto⟩
  /-- The plain database, if there is one, has all that was committed. -/
  plain : ∀ j, t.shared.disk.names (plainDbPath root) = some j →
    (t.shared.disk.contents j).length < 2 ^ 64 ∧ Keeps t.shared.committed (t.shared.disk.contents j)
  writer : ∀ handle, t.procs 0 = .idle (.live handle) → t.shared.disk.names (plainDbPath root) = some handle.db
  image : t.Away → ∃ i db, t.shared.disk.names (dbPath root) = some i
    ∧ crypto.unseal (t.shared.disk.contents i) = .ok db ∧ Keeps t.shared.committed db

theorem Good.opening (h : Good root crypto t) (hpid : t.procs pid = .idle .unopened)
    (haway : t.Away) (opener : Opener) (nonces : SealNonces) :
    let r := (opening root crypto pid opener nonces : Script (Shared Tx) Phase).run t.shared
    Good root crypto ⟨r.2, update t.procs pid (.idle r.1)⟩ := by
  obtain ⟨i, db, himage, hopens, hkeeps⟩ := h.image haway
  have hready : Ready root crypto pid i db t.shared := ⟨himage, hopens, h.temp, h.fresh, h.unopened pid hpid⟩
  have hrun := (openMatter_alone opener nonces hready hkeeps).holds
  intro r
  have hr : r = _ := Script.run_bind
    (openMatter root crypto opener nonces : ProcProg Tx pid MatterHandle).run _ t.shared
  rw [hr]
  cases hopen : Script.run (openMatter root crypto opener nonces : ProcProg Tx pid MatterHandle).run
    t.shared with
  | mk result s =>
    rw [hopen] at hrun
    cases result with
    | error e => exact hrun.elim
    | ok handle =>
      obtain ⟨hacquired, hplain, hdb⟩ := hrun
      show Good root crypto ⟨s, update t.procs pid (.idle (.live handle))⟩
      have hother : ∀ q l, update t.procs pid (.idle (.live handle)) q = .idle l →
          q = pid ∧ l = .live handle ∨ q ≠ pid ∧ t.procs q = .idle l := by
        intro q l hq
        rw [update_apply] at hq
        split at hq
        · rename_i heq
          cases hq
          exact .inl ⟨heq, rfl⟩
        · exact .inr ⟨by assumption, hq⟩
      refine ⟨hacquired.temp, hacquired.fresh, fun q hq => ?_, fun q handle' hq => ?_,
        fun j hj => ?_, fun handle' hq => ?_, fun _ => ⟨i, db, hacquired.image.1, ?_, ?_⟩⟩
      · obtain ⟨-, hl⟩ | ⟨hne, hq'⟩ := hother q _ hq
        · cases hl
        · show (s.sessions q).get _ = none
          rw [hacquired.sessions q hne]
          exact h.unopened q hq'
      · obtain ⟨rfl, hl⟩ | ⟨hne, hq'⟩ := hother q _ hq
        · cases hl
          exact ⟨congrArg EncryptedDbSession.root hacquired.session, hacquired.entry⟩
        · show _ ∧ (s.sessions q).get _ = _
          rw [hacquired.sessions q hne]
          exact h.live q handle' hq'
      · obtain rfl : handle.db = j := Option.some.inj (hplain.symm.trans hj)
        show (s.disk.contents handle.db).length < _ ∧ Keeps s.committed (s.disk.contents handle.db)
        rw [hdb, hacquired.committed]
        exact ⟨DbCrypto.length_lt_of_unseal hopens, hkeeps⟩
      · obtain ⟨-, hl⟩ | ⟨-, hq'⟩ := hother 0 _ hq
        · cases hl
          exact hplain
        · exact absurd hq' (haway handle')
      · show crypto.unseal (s.disk.contents i) = _
        rw [hacquired.image.2, hopens]
      · show Keeps s.committed db
        rw [hacquired.committed]
        exact hkeeps

theorem Good.closing (h : Good root crypto t) {handle : MatterHandle}
    (hpid : t.procs pid = .idle (.live handle)) (haway : pid ≠ 0 → t.Away) (nonces : SealNonces) :
    let r := (closing pid handle nonces : Script (Shared Tx) Phase).run t.shared
    Good root crypto ⟨r.2, update t.procs pid (.idle r.1)⟩ := by
  obtain ⟨hroot, hget⟩ := h.live pid handle hpid
  have hrun := (drop_alone nonces hroot hget h.temp h.fresh).holds
  intro r
  have hr : r = _ := Script.run_bind (handle.session.drop nonces : ProcProg Tx pid Unit).run _ t.shared
  rw [hr]
  have hother : ∀ q l, update t.procs pid (.idle .closed) q = .idle l → l ≠ .closed →
      q ≠ pid ∧ t.procs q = .idle l := by
    intro q l hq hl
    rw [update_apply] at hq
    split at hq
    · cases hq
      exact absurd rfl hl
    · exact ⟨by assumption, hq⟩
  -- the writer has it no longer open
  have hnow : ∀ handle', update t.procs pid (.idle .closed) 0 ≠ .idle (.live handle') := by
    intro handle' h0
    obtain ⟨hne, h0'⟩ := hother 0 _ h0 (by simp)
    exact haway hne.symm handle' h0'
  cases hdrop : Script.run (handle.session.drop nonces : ProcProg Tx pid Unit).run t.shared with
  | mk result s =>
    rw [hdrop] at hrun
    cases result with
    | error e => exact hrun.elim
    | ok _ =>
      show Good root crypto ⟨s, update t.procs pid (.idle .closed)⟩
      rcases hrun with ⟨j, hj, hsealed⟩ | ⟨hnone, rfl⟩
      · obtain ⟨hlt, hkeeps⟩ := h.plain j hj
        obtain ⟨i, nonce, hi, hcontents⟩ := hsealed.db
        refine ⟨hsealed.temp, hsealed.fresh, fun q hq => ?_, fun q handle' hq => ?_, fun j' hj' => ?_,
          fun handle' hq => absurd hq (hnow handle'), fun _ => ⟨i, t.shared.disk.contents j, hi, ?_, ?_⟩⟩
        · obtain ⟨hne, hq'⟩ := hother q _ hq (by simp)
          show (s.sessions q).get _ = none
          rw [hsealed.sessions q hne]
          exact h.unopened q hq'
        · obtain ⟨hne, hq'⟩ := hother q _ hq (by simp)
          show _ ∧ (s.sessions q).get _ = _
          rw [hsealed.sessions q hne]
          exact h.live q handle' hq'
        · cases hsealed.plain.symm.trans hj'
        · show crypto.unseal (s.disk.contents i) = _
          rw [hcontents]
          exact crypto.unseal_seal nonce hlt
        · show Keeps s.committed _
          rw [hsealed.committed]
          exact hkeeps
      · -- the plain database is gone, so it is not the writer that closes
        have haway' : t.Away := by
          intro handle' h0
          have hwriter := h.writer handle' h0
          rw [hnone] at hwriter
          cases hwriter
        refine ⟨h.temp, h.fresh, fun q hq => ?_, fun q handle' hq => ?_, h.plain,
          fun handle' hq => absurd hq (hnow handle'), fun _ => h.image haway'⟩
        · exact h.unopened q (hother q _ hq (by simp)).2
        · exact h.live q handle' (hother q _ hq (by simp)).2

theorem Good.commit (h : Good root crypto t) {handle : MatterHandle}
    (h0 : t.procs 0 = .idle (.live handle)) (tx : Tx) :
    Good root crypto { t with shared := t.shared.commit handle tx } := by
  have hplain := h.writer handle h0
  obtain ⟨-, txs, hread, hne, hall⟩ := h.plain handle.db hplain
  unfold Shared.commit
  rw [hread]
  dsimp only
  split
  · split
    swap
    · exact h
    rename_i hlt
    refine ⟨h.temp, h.fresh, h.unopened, h.live, fun j hj => ?_, h.writer,
      fun haway => absurd h0 (haway handle)⟩
    obtain rfl : handle.db = j := Option.some.inj (hplain.symm.trans hj)
    show (update t.shared.disk.contents handle.db _ handle.db).length < 2 ^ 64
      ∧ Keeps (t.shared.committed ++ [tx]) (update t.shared.disk.contents handle.db _ handle.db)
    rw [update_self]
    refine ⟨hlt, txs ++ [tx], Sqlite.read_file _, by simp, fun tx' htx' => ?_⟩
    rcases List.mem_append.mp htx' with hold | hnew
    · exact mem_append_left _ (hall tx' hold)
    · exact mem_append_right _ hnew
  · exact h

structure Undisturbed (root : String) (crypto : DbCrypto) (t : Processes Tx) : Prop where
  serial : t.Serial (Good root crypto)
  /-- No reader is in the middle of an operation while the writer has the matter open. -/
  apart : ∀ handle, t.procs 0 = .idle (.live handle) → t.OthersIdle 0

theorem good_atRest (matter : SealedMatter Tx crypto) : Good root crypto (Processes.atRest root matter) where
  temp := if_neg (dbPath_ne_sealTmpPath root root).symm
  fresh p i hp := by
    have hname : (if p = dbPath root then some 0 else none) = some i := hp
    split at hname
    · cases hname
      exact Nat.one_pos
    · cases hname
  unopened _ _ := rfl
  live pid handle hp := by cases hp
  plain j hj := by
    cases (if_neg (plainDbPath_ne_dbPath root root) : (if _ then some 0 else none) = _).symm.trans hj
  writer handle h0 := by cases h0
  image _ := ⟨0, matter.db, if_pos rfl, matter.opens, matter.keeps⟩

theorem undisturbed_atRest (matter : SealedMatter Tx crypto) :
    Undisturbed root crypto (Processes.atRest root matter) where
  serial := ⟨0, fun q _ => ⟨_, rfl⟩, good_atRest matter⟩
  apart handle h0 := by cases h0

theorem Undisturbed.start (h : Undisturbed root crypto t) {phase : Phase} (hpid : t.procs pid = .idle phase)
    (hothers : t.OthersIdle pid) (haway : pid ≠ 0 → t.Away) (m : Script (Shared Tx) Phase)
    (hkeep : Good root crypto t →
      Good root crypto ⟨(m.run t.shared).2, update t.procs pid (.idle (m.run t.shared).1)⟩) :
    Undisturbed root crypto (t.start pid m) := by
  refine ⟨h.serial.start hothers hpid m hkeep, fun handle h0 => ?_⟩
  by_cases hzero : pid = 0
  · subst hzero
    intro q hq
    rw [show (t.start 0 m).procs q = t.procs q from update_of_ne hq _ _]
    exact hothers q hq
  · rw [show (t.start pid m).procs 0 = t.procs 0 from update_of_ne (Ne.symm hzero) _ _] at h0
    exact absurd h0 (haway hzero handle)

theorem Undisturbed.advance (h : Undisturbed root crypto t) (pid : Nat) :
    Undisturbed root crypto (t.advance pid) := by
  refine ⟨h.serial.advance pid, fun handle h0 => ?_⟩
  have hothers : t.OthersIdle 0 := by
    obtain ⟨p, hidle, -⟩ := h.serial
    by_cases hp : p = 0
    · exact hp ▸ hidle
    · -- the writer is idle, and so it was before
      obtain ⟨l, hl⟩ := hidle 0 (Ne.symm hp)
      have hsame : (t.advance pid).procs 0 = t.procs 0 := by
        by_cases hzero : pid = 0
        · rw [hzero, Threads.advance_of_idle hl]
        · exact Threads.advance_of_ne (Ne.symm hzero)
      exact h.apart handle (hsame ▸ h0)
  intro q hq
  by_cases hpid : q = pid
  · obtain ⟨l, hl⟩ := hothers q hq
    rw [← hpid, Threads.advance_of_idle hl]
    exact ⟨l, hl⟩
  · rw [Threads.advance_of_ne hpid]
    exact hothers q hq

theorem Undisturbed.step (h : Undisturbed root crypto t) {e : ProcEvent Tx} (he : Separate t e) :
    Undisturbed root crypto (t.step root crypto e) := by
  cases e with
  | advance pid => exact h.advance pid
  | beginOpen pid opener nonces =>
    unfold Processes.step
    dsimp only
    split
    · rename_i hpid
      refine h.start hpid he.1 he.2 _ fun hgood => hgood.opening hpid ?_ opener nonces
      -- a process that has not opened the matter yet is not the writer who has
      by_cases hzero : pid = 0
      · subst hzero
        intro handle h0
        cases hpid.symm.trans h0
      · exact he.2 hzero
    · exact h
  | beginClose pid nonces =>
    unfold Processes.step
    dsimp only
    split
    · rename_i handle hpid
      exact h.start hpid he.1 he.2 _ fun hgood => hgood.closing hpid he.2 nonces
    · exact h
  | commit tx =>
    unfold Processes.step
    dsimp only
    split
    · rename_i handle h0
      exact ⟨h.serial.change he h0 _ fun hgood => hgood.commit h0 tx, h.apart⟩
    · exact h

theorem Undisturbed.noLostWrite (h : Undisturbed root crypto t) : NoLostWrite root crypto t where
  live handle h0 := by
    have hgood := h.serial.of_idle (h.apart handle h0) h0
    exact ⟨hgood.writer handle h0, (hgood.plain _ (hgood.writer handle h0)).2⟩
  closed hall := by
    have hidle : ∀ q, ∃ l, t.procs q = .idle l := fun q => (hall q).elim (fun hq => ⟨_, hq⟩) fun hq => ⟨_, hq⟩
    obtain ⟨l, hl⟩ := hidle 0
    refine (h.serial.of_idle (fun q _ => hidle q) hl).image fun handle h0 => ?_
    rcases hall 0 with hq | hq
    · cases hq.symm.trans h0
    · cases hq.symm.trans h0

/-- **No lost write.** In every run of separate steps the live session of the writer is untouched,
and the sealed database has every transaction once all handles are closed. -/
theorem noLostWrite_of_guarded (root : String) {crypto : DbCrypto} (matter : SealedMatter Tx crypto)
    (events : List (ProcEvent Tx))
    (h : Guarded (Processes.step root crypto) Separate (Processes.atRest root matter) events) :
    Along (Processes.step root crypto) (NoLostWrite root crypto) (Processes.atRest root matter) events :=
  (Along.of_guarded (fun _ _ ht he => ht.step he) (undisturbed_atRest matter) h).mono fun _ ht =>
    ht.noLostWrite

theorem step_of_ne {e : ProcEvent Tx} {q : Nat} (h : q ≠ e.process) :
    (t.step root crypto e).procs q = t.procs q := by
  cases e with
  | beginOpen pid opener nonces =>
    unfold Processes.step
    dsimp only
    split
    · exact update_of_ne h _ _
    · rfl
  | advance pid => exact Threads.advance_of_ne h
  | commit tx =>
    unfold Processes.step
    dsimp only
    split <;> rfl
  | beginClose pid nonces =>
    unfold Processes.step
    dsimp only
    split
    · exact update_of_ne h _ _
    · rfl

theorem foldl_step_of_ne {events : List (ProcEvent Tx)} {q : Nat} (h : ∀ e ∈ events, q ≠ e.process) :
    (events.foldl (Processes.step root crypto) t).procs q = t.procs q := by
  induction events generalizing t with
  | nil => rfl
  | cons e events ih =>
    rw [foldl_cons, ih fun e' he' => h e' (mem_cons_of_mem _ he'), step_of_ne (h e mem_cons_self)]

theorem separate_of_writer (ht : t.OthersIdle 0) {events : List (ProcEvent Tx)}
    (h : ∀ e ∈ events, e.process = 0) :
    Guarded (Processes.step root crypto) Separate t events := by
  induction events generalizing t with
  | nil => exact trivial
  | cons e events ih =>
    have hpid := h e mem_cons_self
    refine ⟨?_, ih (fun q hq => ?_) fun e' he' => h e' (mem_cons_of_mem _ he')⟩
    · cases e with
      | advance pid => exact trivial
      | commit tx => exact ht
      | beginOpen pid opener nonces =>
        obtain rfl : pid = 0 := hpid
        exact ⟨ht, fun hne => absurd rfl hne⟩
      | beginClose pid nonces =>
        obtain rfl : pid = 0 := hpid
        exact ⟨ht, fun hne => absurd rfl hne⟩
    · rw [step_of_ne (hpid ▸ hq)]
      exact ht q hq

end

/-! ## A reader beside the writer -/

section

local instance rawSqlite : Sqlite UInt8 := ⟨id, some, fun _ => rfl⟩

local instance matterFolder : Folders := ⟨fun _ => 0⟩

def smallMatter : SealedMatter UInt8 appendingCrypto where
  image := appendingCrypto.seal anyNonces [1]
  db := [1]
  opens := by decide +kernel
  keeps := ⟨[1], rfl, by decide, fun tx htx => by cases htx⟩

def whole (pid : Nat) : List (ProcEvent UInt8) := replicate 30 (.advance pid)

def oneWriter : List (ProcEvent UInt8) :=
  [.beginOpen 0 .environment fun _ => anyNonces] ++ whole 0 ++
    [.commit 7, .beginClose 0 fun _ => anyNonces] ++ whole 0

def readerBeside : List (ProcEvent UInt8) :=
  [.beginOpen 0 .environment fun _ => anyNonces] ++ whole 0
    ++ [.commit 7, .beginOpen 1 .environment fun _ => anyNonces] ++ whole 1
    ++ [.beginClose 0 fun _ => anyNonces] ++ whole 0 ++ [.beginClose 1 fun _ => anyNonces] ++ whole 1

theorem noLostWrite_oneWriter :
    Along (Processes.step "m" appendingCrypto) (NoLostWrite "m" appendingCrypto)
      (Processes.atRest "m" smallMatter) oneWriter := by
  refine noLostWrite_of_guarded "m" smallMatter oneWriter (separate_of_writer (fun q _ => ⟨_, rfl⟩) ?_)
  decide +kernel

def Phase.isClosed : Activity (Shared UInt8) Phase → Bool
  | .idle .closed => true
  | _ => false

theorem eq_closed {a : Activity (Shared UInt8) Phase} (h : Phase.isClosed a = true) : a = .idle .closed := by
  unfold Phase.isClosed at h
  split at h
  · rfl
  · cases h

theorem readerBeside_others (pid : Nat) (hpid : ¬ pid < 2) :
    (readerBeside.foldl (Processes.step "m" appendingCrypto) (Processes.atRest "m" smallMatter)).procs pid
      = .idle .unopened := by
  have htwo : ∀ e ∈ readerBeside, e.process < 2 := by decide +kernel
  rw [foldl_step_of_ne]
  · rfl
  · intro e he hne
    have hlt := htwo e he
    omega

theorem not_noLostWrite {t : Processes UInt8} (hcommitted : t.shared.committed = [7])
    (hname : t.shared.disk.names (dbPath "m") = some 3)
    (hdb : (appendingCrypto.unseal (t.shared.disk.contents 3)).toOption = some [1])
    (hclosed : Phase.isClosed (t.procs 0) = true ∧ Phase.isClosed (t.procs 1) = true)
    (hothers : ∀ pid, ¬ pid < 2 → t.procs pid = .idle .unopened) : ¬ NoLostWrite "m" appendingCrypto t := by
  intro h
  obtain ⟨i, db, hi, hopen, txs, hread, -, hall⟩ := h.closed fun pid => by
    by_cases hpid : pid < 2
    · refine .inr (eq_closed ?_)
      interval_cases pid
      · exact hclosed.1
      · exact hclosed.2
    · exact .inl (hothers pid hpid)
  obtain rfl : 3 = i := Option.some.inj (hname.symm.trans hi)
  rw [hopen] at hdb
  obtain rfl : db = [1] := Option.some.inj hdb
  obtain rfl : [1] = txs := Option.some.inj hread
  have hmem : (7 : UInt8) ∈ [1] := hall 7 (hcommitted ▸ mem_cons_self)
  exact absurd hmem (by decide)

theorem noLostWrite_broken_by_reader :
    let t := readerBeside.foldl (Processes.step "m" appendingCrypto) (Processes.atRest "m" smallMatter)
    t.shared.committed = [7]
      ∧ t.shared.disk.names (dbPath "m") = some 3 ∧
        (appendingCrypto.unseal (t.shared.disk.contents 3)).toOption = some [1]
      ∧ ¬ Along (Processes.step "m" appendingCrypto) (NoLostWrite "m" appendingCrypto)
        (Processes.atRest "m" smallMatter)
        readerBeside := by
  have hcommitted : (readerBeside.foldl (Processes.step "m" appendingCrypto)
    (Processes.atRest "m" smallMatter)).shared.committed = [7] := by decide +kernel
  have hname : (readerBeside.foldl (Processes.step "m" appendingCrypto)
    (Processes.atRest "m" smallMatter)).shared.disk.names (dbPath "m") = some 3 := by decide +kernel
  have hdb : (appendingCrypto.unseal ((readerBeside.foldl (Processes.step "m" appendingCrypto)
    (Processes.atRest "m" smallMatter)).shared.disk.contents 3)).toOption = some [1] := by decide +kernel
  have hclosed : Phase.isClosed ((readerBeside.foldl (Processes.step "m" appendingCrypto)
      (Processes.atRest "m" smallMatter)).procs 0) = true
    ∧ Phase.isClosed ((readerBeside.foldl (Processes.step "m" appendingCrypto)
      (Processes.atRest "m" smallMatter)).procs 1) = true := by decide +kernel
  exact ⟨hcommitted, hname, hdb,
    fun h => not_noLostWrite hcommitted hname hdb hclosed readerBeside_others h.last⟩

end

end MatterCore
