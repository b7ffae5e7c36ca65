import PstDedupe.MatterCore.Session

/-!
# The sessions of one process

The platform is one process: an operation is done, fails, or the process ends in it.
-/

namespace MatterCore

open Rust Foundations Prog

structure World where
  files : Files SessionFile UInt8
  sessions : Sessions

abbrev SessionProg := Prog World SessionError

section

variable {α : Type} {w : World}

def onFiles (m : Prog (Files SessionFile UInt8) SessionError α) : SessionProg α :=
  zoom World.files (fun w fs => { w with files := fs }) m

theorem Ensures.onFiles {m : Prog (Files SessionFile UInt8) SessionError α} {Q : α → World → Prop}
    {E : Stop SessionError → World → Prop}
    (h : Ensures m w.files (fun a fs => Q a { w with files := fs }) fun s fs => E s { w with files := fs }) :
    Ensures (onFiles m) w Q E :=
  Ensures.zoom h

theorem Leads.onFiles {m : Prog (Files SessionFile UInt8) SessionError α} {os : List Outcome}
    {Q : α → Host World → Prop} {E : Stop SessionError → Host World → Prop}
    (h : Leads m ⟨w.files, os⟩ (fun a d => Q a ⟨{ w with files := d.state }, d.outcomes⟩)
      fun s d => E s ⟨{ w with files := d.state }, d.outcomes⟩) : Leads (onFiles m) ⟨w, os⟩ Q E :=
  Leads.zoom h

theorem Runs.onFiles {m : Prog (Files SessionFile UInt8) SessionError α} {a : α}
    {fs : Files SessionFile UInt8} (h : Runs m w.files a fs) : Runs (onFiles m) w a { w with files := fs } :=
  Runs.zoom h

end

def InDir (d p : SessionFile) : Prop := p.1 = d.1 ∧ d.2 <+: p.2

instance (d : SessionFile) : DecidablePred (InDir d) :=
  fun p => inferInstanceAs (Decidable (p.1 = d.1 ∧ d.2 <+: p.2))

instance : Platform SessionProg SessionFile where
  pathExists p := onFiles (Prog.pathExists p)
  readFile p := onFiles (Prog.readFile p)
  createDirAll := touch
  createFile p := do
    onFiles (Prog.createFile p)
    pure p
  writeAll p bs := onFiles (Prog.writeAll p bs)
  syncAll _ := touch
  removeFile p := onFiles (Prog.removeFile p)
  rename p q := onFiles (Prog.rename p q)
  discard p := onFiles (always (Files.erase p))
  discardDir d := onFiles (always (Files.eraseWhere (InDir d)))
  getSessions := look World.sessions
  setSessions sessions := always fun w => { w with sessions }
  fail := Prog.fail
  attempt := Prog.attempt

section Paths

variable [Folders]

theorem dbPath_ne_sealTmpPath (root root' : String) : dbPath root ≠ sealTmpPath root' := by
  intro h
  have hnames : [dbFile] ≠ ["." ++ dbFile ++ ".enc.tmp"] := by decide
  exact hnames (congrArg Prod.snd h)

theorem plainDbPath_ne_dbPath (root root' : String) : plainDbPath root ≠ dbPath root' := by
  intro h
  have hlen : 4 = 1 := congrArg (fun p : SessionFile => p.2.length) h
  omega

theorem plainDbPath_ne_sealTmpPath (root root' : String) : plainDbPath root ≠ sealTmpPath root' := by
  intro h
  have hlen : 4 = 1 := congrArg (fun p : SessionFile => p.2.length) h
  omega

end Paths

def Torn (os : List Outcome) (len : Nat) : Prop :=
  cutAt os = none ∧ cutAt os.tail = none ∧ ∃ n < len, cutAt os.tail.tail = some n

section Seal

variable [Folders]

def SealFrame (root : String) : Files SessionFile UInt8 → Files SessionFile UInt8 → Prop :=
  Files.Agree fun p => p = dbPath root ∨ p = sealTmpPath root

theorem SealFrame.plain {root : String} {fs fs' : Files SessionFile UInt8}
    (h : SealFrame root fs fs') : fs' (plainDbPath root) = fs (plainDbPath root) := by
  refine h _ ?_
  rintro (heq | heq)
  · exact plainDbPath_ne_dbPath root root heq
  · exact plainDbPath_ne_sealTmpPath root root heq

/-- What a seal that is not torn leaves, when it does not end, of a database that was to become
`text`. -/
inductive SealLeft (root : String) (text : Bytes) (fs fs' : Files SessionFile UInt8) : Prop
  | untouched (hdb : fs' (dbPath root) = fs (dbPath root))
  (htemp : fs' (sealTmpPath root) = fs (sealTmpPath root))
  | temp (hdb : fs' (dbPath root) = fs (dbPath root)) (htemp : fs' (sealTmpPath root) = some text)
  | onlyTemp (hdb : fs' (dbPath root) = none) (htemp : fs' (sealTmpPath root) = some text)

theorem replaceDb_spec {root : String} {text : Bytes} (w₀ w : World)
    (hdb : w.files (dbPath root) = w₀.files (dbPath root)) (htemp : w.files (sealTmpPath root) = some text)
    (hframe : SealFrame root w₀.files w.files) (hsessions : w.sessions = w₀.sessions) : Ensures (do
        touch
        removeIfExists (dbPath root)
        Platform.rename (sealTmpPath root) (dbPath root) : SessionProg Unit) w
      (fun _ w' => w'.files (dbPath root) = some text ∧ w'.files (sealTmpPath root) = none
        ∧ SealFrame root w₀.files w'.files ∧ w'.sessions = w₀.sessions)
      fun _ w' => SealLeft root text w₀.files w'.files ∧ SealFrame root w₀.files w'.files
        ∧ w'.sessions = w₀.sessions := by
  have hne := dbPath_ne_sealTmpPath root root
  refine Ensures.bind (Ensures.touch ?_ fun _ => ⟨.temp hdb htemp, hframe, hsessions⟩)
  -- before the rename the database is gone
  have hrename : ∀ w₁ : World, w₁.files (dbPath root) = none → w₁.files (sealTmpPath root) = some text →
      SealFrame root w₀.files w₁.files → w₁.sessions = w₀.sessions →
      Ensures (Platform.rename (sealTmpPath root) (dbPath root) : SessionProg Unit) w₁
        (fun _ w' => w'.files (dbPath root) = some text ∧ w'.files (sealTmpPath root) = none
          ∧ SealFrame root w₀.files w'.files ∧ w'.sessions = w₀.sessions)
        fun _ w' => SealLeft root text w₀.files w'.files ∧ SealFrame root w₀.files w'.files
          ∧ w'.sessions = w₀.sessions := by
    intro w₁ hdb₁ htemp₁ hframe₁ hsessions₁
    refine Ensures.onFiles
      (Ensures.rename (fun bs hbs => ?_) fun _ => ⟨.onlyTemp hdb₁ htemp₁, hframe₁, hsessions₁⟩)
    exact ⟨(Files.move_target hne).trans htemp₁, Files.move_source,
      hframe₁.move (.inr rfl) (.inl rfl), hsessions₁⟩
  refine Ensures.bind (Ensures.bind (Ensures.onFiles (Ensures.look ?_)))
  cases hold : w.files (dbPath root) with
  | none => exact Ensures.pure (hrename w hold htemp hframe hsessions)
  | some old =>
    refine Ensures.onFiles (Ensures.removeFile (fun _ _ => ?_) fun _ => ⟨.temp hdb htemp, hframe, hsessions⟩)
    refine hrename _ Files.erase_self ?_ (hframe.erase (.inl rfl)) hsessions
    show Files.erase (dbPath root) w.files (sealTmpPath root) = some text
    rw [Files.erase_of_ne hne.symm, htemp]

theorem seal_leads (root : String) (crypto : DbCrypto) (nonce : Nat → Nonce)
    {plainPath : SessionFile} {plain : Bytes} {w : World} {os : List Outcome}
    (hplain : w.files plainPath = some plain) :
    Leads (encryptSessionDbToRoot root crypto nonce plainPath : SessionProg Unit) ⟨w, os⟩
      (fun _ d => ¬ Torn os (crypto.seal nonce plain).length
        ∧ d.state.files (dbPath root) = some (crypto.seal nonce plain) ∧
          d.state.files (sealTmpPath root) = none
        ∧ SealFrame root w.files d.state.files ∧ d.state.sessions = w.sessions)
      fun _ d => (¬ Torn os (crypto.seal nonce plain).length
          ∧ SealLeft root (crypto.seal nonce plain) w.files d.state.files
        ∨ Torn os (crypto.seal nonce plain).length ∧ d.state.files (dbPath root) = w.files (dbPath root)
          ∧ ∃ n < (crypto.seal nonce plain).length,
            d.state.files (sealTmpPath root) = some ((crypto.seal nonce plain).take n))
        ∧ SealFrame root w.files d.state.files ∧ d.state.sessions = w.sessions := by
  have hne := dbPath_ne_sealTmpPath root root
  have hrefl : SealFrame root w.files w.files := Files.Agree.refl _ _
  unfold encryptSessionDbToRoot
  refine Leads.bind (Leads.onFiles (Leads.look ?_))
  rw [hplain]
  -- the read
  refine Leads.bind (Leads.onFiles (Leads.bind (Leads.act (fun hread => ?_) fun _ _ hcut =>
    ⟨.inl ⟨fun h => by simp [h.1] at hcut, .untouched rfl rfl⟩, hrefl, rfl⟩)))
  refine Leads.bind (Leads.look ?_)
  rw [show id w.files plainPath = some plain from hplain]
  refine Leads.pure ?_
  -- the temp is created
  refine Leads.bind (Leads.bind (Leads.onFiles (Leads.act (fun hcreate => Leads.pure ?_) fun _ _ hcut =>
    ⟨.inl ⟨fun h => by simp [h.2.1] at hcut, .untouched rfl rfl⟩, hrefl, rfl⟩)))
  -- and written
  have hwritten : ∀ text,
      let fs₂ := Files.append (sealTmpPath root) text (Files.write (sealTmpPath root) [] w.files)
      fs₂ (sealTmpPath root) = some text ∧ fs₂ (dbPath root) = w.files (dbPath root) ∧
        SealFrame root w.files fs₂ := by
    intro text
    refine ⟨?_, ?_, (hrefl.write (.inr rfl)).append (.inr rfl)⟩
    · rw [Files.append_self, Files.write_self]
      rfl
    · rw [Files.append_of_ne hne, Files.write_of_ne hne]
  refine Leads.bind (Leads.onFiles (Leads.act (fun hwrite => ?_) fun _ n hcut => ?_))
  · obtain ⟨htemp, hdb, hframe⟩ := hwritten (crypto.seal nonce plain)
    let w₂ : World := ⟨Files.append (sealTmpPath root) (crypto.seal nonce plain)
      (Files.write (sealTmpPath root) [] w.files), w.sessions⟩
    have hwhole : ¬ Torn os (crypto.seal nonce plain).length := by
      rintro ⟨_, _, n, _, hcut⟩
      exact absurd (hwrite.symm.trans hcut) (by simp)
    refine Leads.mono (Ensures.leads (replaceDb_spec w w₂ hdb htemp hframe rfl)) ?_ ?_
    · exact fun _ _ h => ⟨hwhole, h⟩
    · exact fun _ _ h => ⟨.inl ⟨hwhole, h.1⟩, h.2⟩
  · obtain ⟨htemp, hdb, hframe⟩ := hwritten ((crypto.seal nonce plain).take n)
    refine ⟨?_, hframe, rfl⟩
    by_cases hn : n < (crypto.seal nonce plain).length
    · exact .inr ⟨⟨hread, hcreate, n, hn, hcut⟩, hdb, n, hn, htemp⟩
    · refine .inl ⟨?_, .temp hdb (htemp.trans (congrArg some (List.take_of_length_le (by omega))))⟩
      rintro ⟨_, _, n', hn', hcut'⟩
      exact hn (Option.some.inj (hcut.symm.trans hcut') ▸ hn')

theorem seal_missing (root : String) (crypto : DbCrypto) (nonce : Nat → Nonce)
    {plainPath : SessionFile} {w : World} {os : List Outcome} (hplain : w.files plainPath = none) :
    (encryptSessionDbToRoot root crypto nonce plainPath : SessionProg Unit) ⟨w, os⟩
      = (.error (.failed (.crypto "plain session db missing at seal time")), ⟨w, os⟩) := by
  have hstop : Leads (encryptSessionDbToRoot root crypto nonce plainPath : SessionProg Unit) ⟨w, os⟩
      (fun _ _ => False) fun s d => s = .failed (.crypto "plain session db missing at seal time") ∧
        d = ⟨w, os⟩ := by
    unfold encryptSessionDbToRoot
    refine Leads.bind (Leads.onFiles (Leads.look ?_))
    rw [hplain]
    exact ⟨rfl, rfl⟩
  have hrun := hstop.run
  split at hrun
  · exact hrun.elim
  · rename_i heq
    rw [heq, hrun.1, hrun.2]

end Seal

/-!
# What the session functions do

A guard is opened by starting a session, with an entry that counts one and a plain file, or by
joining one.
-/

def wiped (plainPath : SessionFile) (fs : Files SessionFile UInt8) : Files SessionFile UInt8 :=
  Files.eraseWhere (InDir plainPath.parent) (Files.erase (plainPath.withSuffix "-journal")
    (Files.erase (plainPath.withSuffix "-shm") (Files.erase (plainPath.withSuffix "-wal") (Files.erase plainPath fs))))

theorem wipePlainSession_apply (plainPath : SessionFile) (d : Host World) :
    (wipePlainSession plainPath : SessionProg Unit) d
      = (.ok (), ⟨{ d.state with files := wiped plainPath d.state.files }, d.outcomes⟩) := rfl

section

variable {root : String}

def World.active (w : World) (root : String) : Bool :=
  (w.sessions.get (rootKey root)).any fun entry => 0 < entry.refcount

theorem hasActiveSession_spec {w : World} {Q : Bool → World → Prop} {E : Stop SessionError → World → Prop}
    (h : Q (w.active root) w) : Ensures (hasActiveSession root : SessionProg Bool) w Q E :=
  Ensures.bind (Ensures.look (Ensures.pure h))

variable [Folders] {fs : Files SessionFile UInt8}

theorem inDir_plainDbPath : InDir (encDbDir root) (plainDbPath root) := ⟨rfl, [dbFile], rfl⟩

theorem inDir_withSuffix (suffix : String) : InDir (encDbDir root) ((plainDbPath root).withSuffix suffix) :=
  ⟨rfl, [dbFile ++ suffix], rfl⟩

theorem wiped_of_inDir {p : SessionFile} (h : InDir (encDbDir root) p) :
    wiped (plainDbPath root) fs p = none :=
  Files.eraseWhere_of _ h

theorem agree_wiped {fs' : Files SessionFile UInt8} (h : Files.Agree (InDir (encDbDir root)) fs fs') :
    Files.Agree (InDir (encDbDir root)) fs (wiped (plainDbPath root) fs') := by
  have herased := (((h.erase inDir_plainDbPath).erase (inDir_withSuffix "-wal")).erase
    (inDir_withSuffix "-shm")).erase (inDir_withSuffix "-journal")
  exact herased.eraseWhere

theorem not_inDir_of_sealed {root' : String} {p : SessionFile}
    (hp : p = dbPath root' ∨ p = sealTmpPath root') :
    ¬ InDir (encDbDir root) p := by
  rintro ⟨-, hprefix⟩
  have hlen : 3 ≤ p.2.length := hprefix.length_le
  have hone : p.2.length = 1 := by
    rcases hp with rfl | rfl
    · rfl
    · rfl
  omega

structure Started (root : String) (crypto : DbCrypto) (w w' : World) : Prop where
  idle : w.active root = false
  sessions : w'.sessions
    = AList.insert (rootKey root) ⟨1, plainDbPath root, crypto⟩ (w.sessions.erase (rootKey root))
  plain : ∃ plain, w'.files (plainDbPath root) = some plain ∧ plain.length < 2 ^ 64
  frame : Files.Agree (InDir (encDbDir root)) w.files w'.files

inductive Opened (root : String) (crypto : DbCrypto) (w : World) : SessionFile → World → Prop
  | started {w' : World} (h : Started root crypto w w') : Opened root crypto w (plainDbPath root) w'
  | joined (entry : SessionEntry) (hget : w.sessions.get (rootKey root) = some entry)
    (hpos : 0 < entry.refcount) :
      Opened root crypto w entry.plainPath
        { w with sessions := AList.insert (rootKey root) { entry with refcount := entry.refcount + 1 } w.sessions }

inductive NotOpened (root : String) (w w' : World) : Prop
  | active (heq : w' = w)
  | idle (hidle : w.active root = false) (hsessions : w'.sessions = w.sessions.erase (rootKey root))
      (hframe : Files.Agree (InDir (encDbDir root)) w.files w'.files)

theorem createDbSession_spec (root : String) (crypto : DbCrypto) (w : World) :
    Ensures (createDbSession root crypto : SessionProg SessionFile) w
      (Opened root crypto w) fun _ => NotOpened root w := by
  refine Ensures.bind (hasActiveSession_spec ?_)
  cases hactive : w.active root with
  | true => exact Ensures.fail (.active rfl)
  | false =>
    have hframe : Files.Agree (InDir (encDbDir root)) w.files (wiped (plainDbPath root) w.files) :=
      agree_wiped (Files.Agree.refl _ _)
    have hstop : ∀ s : Stop SessionError, NotOpened root w
        ⟨wiped (plainDbPath root) w.files, w.sessions.erase (rootKey root)⟩ :=
          fun _ => .idle hactive rfl hframe
    refine Ensures.bind (Ensures.look (Ensures.bind (Ensures.always ?_)))
    refine Ensures.bind ⟨fun os => ?_⟩
    rw [wipePlainSession_apply]
    refine Ensures.bind (Ensures.touch ?_ hstop)
    refine Ensures.bind (Ensures.bind (Ensures.onFiles (Ensures.createFile (Ensures.pure ?_) hstop)))
    refine Ensures.bind (Ensures.look (Ensures.bind (Ensures.always (Ensures.pure (.started ?_)))))
    exact ⟨hactive, rfl, ⟨[], Files.write_self, by decide⟩, hframe.write inDir_plainDbPath⟩

theorem decryptDbToSession_spec (root : String) (crypto : DbCrypto) (w : World) :
    Ensures (decryptDbToSession root crypto (plainDbPath root) : SessionProg Unit) w
      (fun _ w' => (∃ plain, w'.files (plainDbPath root) = some plain ∧ plain.length < 2 ^ 64)
        ∧ w'.sessions = w.sessions ∧ Files.Agree (InDir (encDbDir root)) w.files w'.files)
      fun _ w' => w'.sessions = w.sessions ∧ Files.Agree (InDir (encDbDir root)) w.files w'.files := by
  have hrefl := Files.Agree.refl (InDir (encDbDir root)) w.files
  have hstop : ∀ s : Stop SessionError, w.sessions = w.sessions ∧
      Files.Agree (InDir (encDbDir root)) w.files w.files :=
    fun _ => ⟨rfl, hrefl⟩
  refine Ensures.bind (Ensures.onFiles (Ensures.look ?_))
  split
  · refine Ensures.bind (Ensures.onFiles (Ensures.readFile (fun data _ => ?_) hstop))
    split
    · exact Ensures.fail ⟨rfl, hrefl⟩
    · rename_i plain hplain
      refine Ensures.bind (Ensures.touch ?_ hstop)
      refine Ensures.bind (Ensures.bind (Ensures.onFiles (Ensures.createFile (Ensures.pure ?_) hstop)))
      have hcreated :
          Files.Agree (InDir (encDbDir root)) w.files (Files.write (plainDbPath root) [] w.files) :=
        hrefl.write inDir_plainDbPath
      refine Ensures.bind
        (Ensures.onFiles (Ensures.writeAll ?_ fun _ _ => ⟨rfl, hcreated.append inDir_plainDbPath⟩))
      have hwritten : Files.Agree (InDir (encDbDir root)) w.files
          (Files.append (plainDbPath root) plain (Files.write (plainDbPath root) [] w.files)) :=
        hcreated.append inDir_plainDbPath
      refine Ensures.touch ⟨⟨plain, ?_, DbCrypto.length_lt_of_unseal hplain⟩, rfl, hwritten⟩
        fun _ => ⟨rfl, hwritten⟩
      show Files.append (plainDbPath root) plain (Files.write (plainDbPath root) [] w.files)
        (plainDbPath root) = some plain
      rw [Files.append_self, Files.write_self]
      rfl
  · exact Ensures.fail ⟨rfl, hrefl⟩

theorem retainNew_spec (root : String) (crypto : DbCrypto) {w : World} (hidle : w.active root = false) :
    Ensures (retainNew root crypto : SessionProg SessionFile) w (Opened root crypto w) fun _ =>
      NotOpened root w := by
  have hrefl := Files.Agree.refl (InDir (encDbDir root)) w.files
  have hstop : ∀ w' : World, w'.sessions = w.sessions.erase (rootKey root)
      ∧ Files.Agree (InDir (encDbDir root)) w.files w'.files → NotOpened root w w' :=
        fun w' h => .idle hidle h.1 h.2
  refine Ensures.bind (Ensures.look (Ensures.bind (Ensures.always ?_)))
  refine Ensures.bind (Ensures.touch ?_ fun _ => hstop _ ⟨rfl, hrefl⟩)
  -- from the decryption on, whether a leftover was wiped or not
  have hdecrypt : ∀ w₁ : World, w₁.sessions = w.sessions.erase (rootKey root)
      ∧ Files.Agree (InDir (encDbDir root)) w.files w₁.files → Ensures (do
          decryptDbToSession root crypto (plainDbPath root)
          let sessions ← Platform.getSessions
          Platform.setSessions (AList.insert (rootKey root) ⟨1, plainDbPath root, crypto⟩ sessions)
          pure (plainDbPath root) : SessionProg SessionFile) w₁
        (Opened root crypto w) fun _ => NotOpened root w := by
    rintro w₁ ⟨hsessions, hframe⟩
    have htrans : ∀ fs : Files SessionFile UInt8, Files.Agree (InDir (encDbDir root)) w₁.files fs →
        Files.Agree (InDir (encDbDir root)) w.files fs := fun fs h p hp => (h p hp).trans (hframe p hp)
    refine Ensures.bind ((decryptDbToSession_spec root crypto w₁).mono ?_ ?_)
    · rintro _ w₂ ⟨hplain, hsame, hframe₂⟩
      refine Ensures.bind (Ensures.look (Ensures.bind (Ensures.always (Ensures.pure (.started ?_)))))
      refine ⟨hidle, ?_, hplain, htrans _ hframe₂⟩
      show AList.insert (rootKey root) _ w₂.sessions = _
      rw [hsame, hsessions]
    · rintro _ w₂ ⟨hsame, hframe₂⟩
      exact hstop w₂ ⟨hsame.trans hsessions, htrans _ hframe₂⟩
  refine Ensures.bind (Ensures.bind (Ensures.onFiles (Ensures.look ?_)))
  split
  · refine Ensures.bind ⟨fun os => ?_⟩
    rw [wipePlainSession_apply]
    refine Ensures.touch (hdecrypt _ ⟨rfl, agree_wiped hrefl⟩) fun _ => hstop _ ⟨rfl, agree_wiped hrefl⟩
  · exact Ensures.pure (hdecrypt _ ⟨rfl, hrefl⟩)

theorem retainDbSession_spec (root : String) (crypto : DbCrypto) (w : World) :
    Ensures (retainDbSession root crypto : SessionProg SessionFile) w
      (Opened root crypto w) fun _ => NotOpened root w := by
  refine Ensures.bind (Ensures.look ?_)
  cases hget : w.sessions.get (rootKey root) with
  | none => exact retainNew_spec root crypto (by unfold World.active; rw [hget]; rfl)
  | some entry =>
    by_cases hpos : 0 < entry.refcount
    · dsimp only
      rw [if_pos hpos]
      exact Ensures.bind (Ensures.always (Ensures.pure (.joined entry hget hpos)))
    · dsimp only
      rw [if_neg hpos]
      refine retainNew_spec root crypto ?_
      unfold World.active
      rw [hget]
      exact decide_eq_false hpos

theorem acquire_spec (root : String) (crypto : DbCrypto) (w : World) :
    Ensures (EncryptedDbSession.acquire root crypto : SessionProg EncryptedDbSession) w
      (fun session w' => session.root = root ∧ Opened root crypto w session.plainPath w') fun _ =>
        NotOpened root w :=
  Ensures.bind ((retainDbSession_spec root crypto w).mono (fun _ _ h => Ensures.pure ⟨rfl, h⟩) fun _ _ h => h)

theorem create_spec (root : String) (crypto : DbCrypto) (w : World) :
    Ensures (EncryptedDbSession.create root crypto : SessionProg EncryptedDbSession) w
      (fun session w' => session.root = root ∧ Opened root crypto w session.plainPath w') fun _ =>
        NotOpened root w :=
  Ensures.bind ((createDbSession_spec root crypto w).mono (fun _ _ h => Ensures.pure ⟨rfl, h⟩) fun _ _ h => h)

end

end MatterCore
