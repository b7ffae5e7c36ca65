import PstDedupe.MatterCore.SealRuns
import PstDedupe.MatterCore.SessionRelease

/-!
# Runs of guards in one process

Guards of any roots are created, acquired, sealed and dropped, their databases are written, and
every file operation may fail or end the process. A removal whose result the source drops is taken
as done.
-/

namespace MatterCore

open Rust Foundations Prog List

structure SessionState where
  world : World
  guards : List EncryptedDbSession
  roots : List String

inductive SessionAction where
  | create (root : String) (crypto : DbCrypto) (outcomes : List Outcome)
  | acquire (root : String) (crypto : DbCrypto) (outcomes : List Outcome)
  | commit (i : Nat) (content : { bs : Bytes // bs.length < 2 ^ 64 })
  | sealNow (i : Nat) (nonces : SealNonces) (outcomes : List Outcome)
  | drop (i : Nat) (nonces : SealNonces) (outcomes : List Outcome)

namespace SessionAction

def opening : SessionAction → Option String
  | .create root _ _ => some root
  | .acquire root _ _ => some root
  | _ => none

/-- The guard that an action closes, its attempts to release it, and what becomes of their
operations. -/
def closing : SessionAction → Option (Nat × List (Nat → Nonce) × List Outcome)
  | .sealNow i nonces outcomes => some (i, [nonces 2, nonces 0, nonces 1], outcomes)
  | .drop i nonces outcomes => some (i, [nonces 0, nonces 1], outcomes)
  | _ => none

end SessionAction

namespace SessionState

variable {root' : String} {session : EncryptedDbSession} {w' : World}

def start (fs : Files SessionFile UInt8) : SessionState := ⟨⟨fs, ∅⟩, [], []⟩

def ended (s : SessionState) (fs : Files SessionFile UInt8) : SessionState := ⟨⟨fs, ∅⟩, [], s.roots⟩

def opened (s : SessionState) (root : String)
    (r : Except (Stop SessionError) EncryptedDbSession × Host World) :
    SessionState :=
  match r.1 with
  | .ok session => ⟨r.2.state, s.guards ++ [session], root :: s.roots⟩
  | .error (.failed _) => ⟨r.2.state, s.guards, root :: s.roots⟩
  | .error .crashed => ended { s with roots := root :: s.roots } r.2.state.files

def closed (s : SessionState) (i : Nat) (r : Bool × Host World) : SessionState :=
  if r.1 then s.ended r.2.state.files else ⟨r.2.state, s.guards.eraseIdx i, s.roots⟩

variable [Folders]

/-- SQLite writes to the file that it has open. When that has been removed, nothing is left of
it. -/
def commit (s : SessionState) (session : EncryptedDbSession) (content : Bytes) : SessionState :=
  match s.world.files session.plainPath with
  | some _ => { s with world := ⟨Files.write session.plainPath content s.world.files, s.world.sessions⟩ }
  | none => s

def step (s : SessionState) : SessionAction → SessionState
  | .create root crypto outcomes =>
    s.opened root
      ((EncryptedDbSession.create root crypto : SessionProg EncryptedDbSession) ⟨s.world, outcomes⟩)
  | .acquire root crypto outcomes =>
    s.opened root ((EncryptedDbSession.acquire root crypto : SessionProg EncryptedDbSession)
      ⟨s.world, outcomes⟩)
  | .commit i content =>
    match s.guards[i]? with
    | some session => s.commit session content.1
    | none => s
  | .sealNow i nonces outcomes =>
    match s.guards[i]? with
    | some session => s.closed i (ending ((session.sealNow nonces : SessionProg Unit) ⟨s.world, outcomes⟩))
    | none => s
  | .drop i nonces outcomes =>
    match s.guards[i]? with
    | some session => s.closed i (ending ((session.drop nonces : SessionProg Unit) ⟨s.world, outcomes⟩))
    | none => s

/-! ## What the counts mean -/

def refcount (s : SessionState) (root : String) : Nat :=
  ((s.world.sessions.get (rootKey root)).map SessionEntry.refcount).getD 0

def live (s : SessionState) (root : String) : Nat :=
  s.guards.countP fun session => Folders.folder session.root = Folders.folder root

/-- Every refcount is the number of the guards that live. -/
def Counted (s : SessionState) : Prop := ∀ root ∈ s.roots, s.refcount root = s.live root

/-- The plain files are gone, and the image opens to what they held. -/
structure SealedAway (session : EncryptedDbSession) (w w' : World) : Prop where
  wiped : ∀ p, InDir (encDbDir session.root) p → w'.files p = none
  removed : w'.sessions.get (rootKey session.root) = none
  saved : ∃ entry plain image, w.sessions.get (rootKey session.root) = some entry
    ∧ w.files session.plainPath = some plain ∧ w'.files (dbPath session.root) = some image
    ∧ entry.crypto.unseal image = .ok plain

/-- When the last guard of a root is closed and an attempt to release it succeeds, it is sealed
away. -/
def LastSealed (s : SessionState) (a : SessionAction) : Prop :=
  ∀ i attempts outcomes session, a.closing = some (i, attempts, outcomes) → s.guards[i]? = some session →
    s.live session.root = 1 → (releases session.root attempts ⟨s.world, outcomes⟩).1 = .ok true →
    SealedAway session s.world (s.step a).world

/-- The key of a new root tells its directory from those of the other roots, and the last guard of a
root is not closed by a seal that fails in every attempt. -/
structure Harmless (s : SessionState) (a : SessionAction) : Prop where
  apart : ∀ root, a.opening = some root → ∀ root' ∈ s.roots,
    rootKey root' = rootKey root ↔ Folders.folder root' = Folders.folder root
  seals : ∀ i attempts outcomes session, a.closing = some (i, attempts, outcomes) →
    s.guards[i]? = some session →
    s.live session.root = 1 →
    attemptsFail attempts.length (s.world.files (dbPath session.root)).isSome outcomes = false

/-! ## The invariant -/

structure Inv (s : SessionState) : Prop where
  apart : ∀ root ∈ s.roots, ∀ root' ∈ s.roots,
    rootKey root = rootKey root' ↔ Folders.folder root = Folders.folder root'
  guards : ∀ session ∈ s.guards, session.root ∈ s.roots ∧ session.plainPath = plainDbPath session.root
  entries : ∀ key entry, s.world.sessions.get key = some entry → ∃ root ∈ s.roots,
    rootKey root = key ∧ 0 < entry.refcount ∧ entry.plainPath = plainDbPath root
    ∧ ∃ plain, s.world.files (plainDbPath root) = some plain ∧ plain.length < 2 ^ 64
  counted : s.Counted

variable {s : SessionState} {root : String}

theorem inv_start (fs : Files SessionFile UInt8) : (start fs).Inv where
  apart root h := by cases h
  guards session h := by cases h
  entries key entry h := by cases h
  counted root h := by cases h

theorem Inv.ended (h : s.Inv) (fs : Files SessionFile UInt8) : (s.ended fs).Inv where
  apart := h.apart
  guards session hs := by cases hs
  entries key entry hget := by cases hget
  counted _ _ := rfl

theorem live_congr (h : Folders.folder root = Folders.folder root') : s.live root = s.live root' := by
  unfold live
  rw [h]

omit [Folders] in
theorem refcount_congr (h : rootKey root = rootKey root') : s.refcount root = s.refcount root' := by
  unfold refcount
  rw [h]

theorem Inv.named (h : s.Inv)
    (hroot : ∀ root' ∈ s.roots, rootKey root' = rootKey root ↔ Folders.folder root' = Folders.folder root) :
    Inv { s with roots := root :: s.roots } where
  apart root₁ h₁ root₂ h₂ := by
    rcases List.mem_cons.mp h₁ with heq₁ | hold₁
    · rcases List.mem_cons.mp h₂ with heq₂ | hold₂
      · rw [heq₁, heq₂]
        exact iff_of_true rfl rfl
      · rw [heq₁, eq_comm, hroot root₂ hold₂, eq_comm]
    · rcases List.mem_cons.mp h₂ with heq₂ | hold₂
      · rw [heq₂]
        exact hroot root₁ hold₁
      · exact h.apart root₁ hold₁ root₂ hold₂
  guards session hs := ⟨mem_cons_of_mem _ (h.guards session hs).1, (h.guards session hs).2⟩
  entries key entry hget := by
    obtain ⟨root', hmem, hrest⟩ := h.entries key entry hget
    exact ⟨root', mem_cons_of_mem _ hmem, hrest⟩
  counted root₁ h₁ := by
    rcases List.mem_cons.mp h₁ with rfl | h₁
    · by_cases hold : ∃ root' ∈ s.roots, Folders.folder root' = Folders.folder root₁
      · obtain ⟨root', hmem, hfolder⟩ := hold
        have hkey := (hroot root' hmem).mpr hfolder
        exact (refcount_congr hkey).symm.trans ((h.counted root' hmem).trans (live_congr hfolder))
      · -- the directory is new: it has no guard, and its key no entry
        have hlive : s.live root₁ = 0 := by
          refine List.countP_eq_zero.mpr fun session hs => ?_
          simpa using fun hfolder => hold ⟨session.root, (h.guards session hs).1, hfolder⟩
        have hrefcount : s.refcount root₁ = 0 := by
          unfold refcount
          cases hget : s.world.sessions.get (rootKey root₁) with
          | none => rfl
          | some entry =>
            obtain ⟨root', hmem, hkey, -⟩ := h.entries _ entry hget
            exact absurd ⟨root', hmem, (hroot root' hmem).mp hkey⟩ hold
        exact hrefcount.trans hlive.symm
    · exact h.counted root₁ h₁

theorem Inv.refcount_eq_zero (h : s.Inv) (hidle : s.world.active root = false) : s.refcount root = 0 := by
  unfold World.active at hidle
  unfold refcount
  cases hget : s.world.sessions.get (rootKey root) with
  | none => rfl
  | some entry =>
    rw [hget] at hidle
    obtain ⟨_, -, -, hpos, -⟩ := h.entries _ entry hget
    exact absurd hpos (of_decide_eq_false hidle)

theorem Inv.not_inDir (h : s.Inv) (hroot : root ∈ s.roots) (hroot' : root' ∈ s.roots)
    (hkey : rootKey root' ≠ rootKey root) : ¬ InDir (encDbDir root) (plainDbPath root') := by
  rintro ⟨hfolder, -⟩
  exact hkey ((h.apart root' hroot' root hroot).mpr hfolder)

theorem Inv.opened (h : s.Inv) (hroot : root ∈ s.roots) {crypto : DbCrypto}
    (hsession : session.root = root) (hopened : Opened root crypto s.world session.plainPath w') :
    Inv ⟨w', s.guards ++ [session], s.roots⟩ := by
  obtain ⟨sroot, plainPath⟩ := session
  obtain rfl : sroot = root := hsession
  -- the new guard counts for the roots of its directory, which are those with its key
  have hlive : ∀ root' : String, (SessionState.mk w' (s.guards ++ [⟨sroot, plainPath⟩]) s.roots).live root'
      = s.live root' + if Folders.folder sroot = Folders.folder root' then 1 else 0 := by
    intro root'
    unfold live
    rw [countP_append, countP_singleton]
    simp
  have hguards : plainPath = plainDbPath sroot → ∀ g ∈ s.guards ++ [⟨sroot, plainPath⟩],
      g.root ∈ s.roots ∧ g.plainPath = plainDbPath g.root := by
    intro hpath g hg
    rcases List.mem_append.mp hg with hg | hg
    · exact h.guards g hg
    · rw [List.mem_singleton.mp hg]
      exact ⟨hroot, hpath⟩
  have hkeys : ∀ root' ∈ s.roots, rootKey root' = rootKey sroot ↔
      Folders.folder sroot = Folders.folder root' :=
    fun root' hmem => (h.apart root' hmem sroot hroot).trans eq_comm
  cases hopened with
  | started hstarted =>
    have hget : ∀ key, w'.sessions.get key = if key = rootKey sroot then some ⟨1, plainDbPath sroot, crypto⟩
        else s.world.sessions.get key := by
      intro key
      rw [hstarted.sessions, HashMap.get_insert]
      split
      · rfl
      · exact AList.lookup_erase_ne (by assumption)
    refine ⟨h.apart, hguards rfl, fun key entry hentry => ?_, fun root' hmem => ?_⟩
    · rw [hget] at hentry
      split at hentry
      · rename_i hkey
        cases hentry
        exact ⟨sroot, hroot, hkey.symm, Nat.one_pos, rfl, hstarted.plain⟩
      · rename_i hkey
        obtain ⟨root', hmem, hkey', hpos, hpath, plain, hplain, hlt⟩ := h.entries key entry hentry
        have hout := h.not_inDir hroot hmem (hkey'.trans_ne hkey)
        exact ⟨root', hmem, hkey', hpos, hpath, plain, (hstarted.frame _ hout).trans hplain, hlt⟩
    · rw [hlive, ← h.counted root' hmem]
      unfold refcount
      rw [hget]
      by_cases hkey : rootKey root' = rootKey sroot
      · rw [if_pos hkey, if_pos ((hkeys root' hmem).mp hkey)]
        have hzero := h.refcount_eq_zero hstarted.idle
        rw [← refcount_congr hkey] at hzero
        unfold refcount at hzero
        rw [hzero]
        rfl
      · rw [if_neg hkey, if_neg (mt (hkeys root' hmem).mpr hkey)]
        rfl
  | joined entry hget hpos =>
    obtain ⟨root', hmem', hkey', -, hpath, hplain⟩ := h.entries _ entry hget
    have hfolder := (h.apart root' hmem' sroot hroot).mp hkey'
    have hpath' : entry.plainPath = plainDbPath sroot := by
      rw [hpath]
      unfold plainDbPath
      rw [hfolder]
    refine ⟨h.apart, hguards hpath', fun key entry' hentry => ?_, fun root' hmem => ?_⟩
    · rw [HashMap.get_insert] at hentry
      split at hentry
      · rename_i hkey
        cases hentry
        exact ⟨root', hmem', hkey'.trans hkey.symm, Nat.succ_pos _, hpath, hplain⟩
      · exact h.entries key entry' hentry
    · rw [hlive, ← h.counted root' hmem]
      unfold refcount
      rw [HashMap.get_insert]
      by_cases hkey : rootKey root' = rootKey sroot
      · rw [if_pos hkey, if_pos ((hkeys root' hmem).mp hkey), hkey, hget]
        rfl
      · rw [if_neg hkey, if_neg (mt (hkeys root' hmem).mpr hkey)]
        rfl

theorem Inv.notOpened (h : s.Inv) (hroot : root ∈ s.roots) (hnot : NotOpened root s.world w') :
    Inv ⟨w', s.guards, s.roots⟩ := by
  cases hnot with
  | active heq =>
    rw [heq]
    exact h
  | idle hidle hsessions hframe =>
    have hget : ∀ key,
        w'.sessions.get key = if key = rootKey root then none else s.world.sessions.get key := by
      intro key
      rw [hsessions]
      split
      · rename_i hkey
        rw [hkey]
        exact AList.lookup_erase _ _
      · exact AList.lookup_erase_ne (by assumption)
    refine ⟨h.apart, h.guards, fun key entry hentry => ?_, fun root' hmem => ?_⟩
    · rw [hget] at hentry
      split at hentry
      · cases hentry
      · rename_i hkey
        obtain ⟨root', hmem, hkey', hpos, hpath, plain, hplain, hlt⟩ := h.entries key entry hentry
        have hout := h.not_inDir hroot hmem (hkey'.trans_ne hkey)
        exact ⟨root', hmem, hkey', hpos, hpath, plain, (hframe _ hout).trans hplain, hlt⟩
    · show _ = s.live root'
      rw [← h.counted root' hmem]
      by_cases hkey : rootKey root' = rootKey root
      · rw [refcount_congr hkey, refcount_congr hkey, h.refcount_eq_zero hidle]
        unfold refcount
        rw [hget, if_pos rfl]
        rfl
      · unfold refcount
        rw [hget, if_neg hkey]

/-! ## Closing a guard -/

theorem live_eraseIdx {i : Nat} (hi : s.guards[i]? = some session) (w' : World)
    (root : String) : s.live root = (SessionState.mk w' (s.guards.eraseIdx i) s.roots).live root
      + if Folders.folder session.root = Folders.folder root then 1 else 0 := by
  obtain ⟨hlt, hget⟩ := List.getElem?_eq_some_iff.mp hi
  have hperm := getElem_cons_eraseIdx_perm hlt
  unfold live
  rw [← hperm.countP_eq, hget, countP_cons]
  simp

theorem Inv.entry_of_guard (h : s.Inv) (hs : session ∈ s.guards) :
    ∃ entry, s.world.sessions.get (rootKey session.root) = some entry ∧
      entry.refcount = s.live session.root ∧ entry.plainPath = plainDbPath session.root
      ∧ ∃ plain, s.world.files (plainDbPath session.root) = some plain ∧ plain.length < 2 ^ 64 := by
  obtain ⟨hroot, -⟩ := h.guards session hs
  have hcount := h.counted _ hroot
  have hpos : 0 < s.live session.root := List.countP_pos_iff.mpr ⟨session, hs, by simp⟩
  unfold refcount at hcount
  cases hget : s.world.sessions.get (rootKey session.root) with
  | none =>
    rw [hget] at hcount
    exact absurd hcount (Nat.ne_of_lt hpos)
  | some entry =>
    rw [hget] at hcount
    obtain ⟨root', hmem, hkey, -, hpath, hplain⟩ := h.entries _ entry hget
    -- the entry was made under a root of the same directory
    have hsame : plainDbPath root' = plainDbPath session.root := by
      unfold plainDbPath
      rw [(h.apart root' hmem _ hroot).mp hkey]
    exact ⟨entry, rfl, hcount, hpath.trans hsame, hsame ▸ hplain⟩

theorem step_closing {a : SessionAction} {i : Nat} {attempts : List (Nat → Nonce)} {outcomes : List Outcome}
    (ha : a.closing = some (i, attempts, outcomes)) (hi : s.guards[i]? = some session) :
    s.step a = s.closed i (ending (releases session.root attempts ⟨s.world, outcomes⟩)) := by
  cases a with
  | create root crypto outcomes => cases ha
  | acquire root crypto outcomes => cases ha
  | commit i content => cases ha
  | sealNow i nonces outcomes =>
    cases ha
    rw [← ending_sealNow]
    unfold step
    dsimp only
    rw [hi]
  | drop i nonces outcomes =>
    cases ha
    rw [← ending_drop]
    unfold step
    dsimp only
    rw [hi]

theorem Inv.closed_many (h : s.Inv) {i : Nat} (hi : s.guards[i]? = some session)
    {entry : SessionEntry} (hget : s.world.sessions.get (rootKey session.root) = some entry)
    (hmany : 1 < entry.refcount) :
    Inv ⟨⟨s.world.files, AList.insert (rootKey session.root) { entry with refcount := entry.refcount - 1 }
      s.world.sessions⟩, s.guards.eraseIdx i, s.roots⟩ := by
  obtain ⟨hroot, -⟩ := h.guards session (mem_of_getElem? hi)
  refine ⟨h.apart, fun g hg => h.guards g (mem_of_mem_eraseIdx hg), fun key entry' hentry => ?_,
    fun root' hmem => ?_⟩
  · rw [HashMap.get_insert] at hentry
    split at hentry
    · rename_i hkey
      cases hentry
      obtain ⟨root', hmem, hkey', -, hrest⟩ := h.entries _ entry hget
      exact ⟨root', hmem, hkey'.trans hkey.symm, by show 0 < entry.refcount - 1; omega, hrest⟩
    · exact h.entries key entry' hentry
  · have hcount := h.counted root' hmem
    rw [live_eraseIdx hi] at hcount
    unfold refcount at hcount ⊢
    rw [HashMap.get_insert]
    by_cases hkey : rootKey root' = rootKey session.root
    · rw [if_pos ((h.apart root' hmem _ hroot).mp hkey).symm, hkey, hget] at hcount
      rw [if_pos hkey]
      show entry.refcount - 1 = _
      exact Nat.sub_eq_of_eq_add hcount
    · rw [if_neg fun hfolder => hkey ((h.apart root' hmem _ hroot).mpr hfolder.symm)] at hcount
      rw [if_neg hkey]
      exact hcount

theorem Inv.closed_last (h : s.Inv) {i : Nat} (hi : s.guards[i]? = some session)
    {entry : SessionEntry} {plain : Bytes} (hlast : s.live session.root = 1)
    (hpath : entry.plainPath = plainDbPath session.root)
    (hreleased : Released session.root entry plain s.world w') : Inv ⟨w', s.guards.eraseIdx i, s.roots⟩ := by
  obtain ⟨hroot, -⟩ := h.guards session (mem_of_getElem? hi)
  obtain ⟨hsessions, fs, nonce, hframe, -, hfiles⟩ := hreleased
  have hget : ∀ key, w'.sessions.get key
      = if key = rootKey session.root then none else s.world.sessions.get key := by
    intro key
    rw [hsessions]
    split
    · rename_i hkey
      rw [hkey]
      exact AList.lookup_erase _ _
    · exact AList.lookup_erase_ne (by assumption)
  refine ⟨h.apart, fun g hg => h.guards g (mem_of_mem_eraseIdx hg), fun key entry' hentry => ?_,
    fun root' hmem => ?_⟩
  · rw [hget] at hentry
    split at hentry
    · cases hentry
    · rename_i hkey
      obtain ⟨root', hmem, hkey', hpos, hpath', plain', hplain, hlt⟩ := h.entries key entry' hentry
      have hout := h.not_inDir hroot hmem (hkey'.trans_ne hkey)
      refine ⟨root', hmem, hkey', hpos, hpath', plain', ?_, hlt⟩
      show w'.files _ = _
      rw [hfiles, hpath, agree_wiped (Files.Agree.refl _ fs) _ hout]
      refine (hframe _ ?_).trans hplain
      rintro (heq | heq)
      · exact plainDbPath_ne_dbPath _ _ heq
      · exact plainDbPath_ne_sealTmpPath _ _ heq
  · have hcount := h.counted root' hmem
    rw [live_eraseIdx hi w'] at hcount
    unfold refcount at hcount ⊢
    rw [hget]
    by_cases hkey : rootKey root' = rootKey session.root
    · have hfolder := (h.apart root' hmem _ hroot).mp hkey
      have hone := live_eraseIdx hi w' root'
      rw [live_congr hfolder, hlast, if_pos hfolder.symm] at hone
      rw [if_pos hkey]
      show 0 = _
      omega
    · rw [if_neg fun hfolder => hkey ((h.apart root' hmem _ hroot).mpr hfolder.symm)] at hcount
      rw [if_neg hkey]
      exact hcount

theorem Inv.closed (h : s.Inv) {i : Nat} (hi : s.guards[i]? = some session)
    (nonce : Nat → Nonce) (rest : List (Nat → Nonce)) (outcomes : List Outcome)
    (hseals : s.live session.root = 1 →
      attemptsFail (rest.length + 1) (s.world.files (dbPath session.root)).isSome outcomes = false) :
    (s.closed i (ending (releases session.root (nonce :: rest) ⟨s.world, outcomes⟩))).Inv := by
  obtain ⟨entry, hget, hcount, hpath, plain, hplain, -⟩ := h.entry_of_guard (mem_of_getElem? hi)
  by_cases hmany : 1 < entry.refcount
  · rw [releases_of_many outcomes nonce rest hget hmany]
    exact h.closed_many hi hget hmany
  · have hpos : 0 < s.live session.root :=
      List.countP_pos_iff.mpr ⟨session, mem_of_getElem? hi, by simp⟩
    have hlast : s.live session.root = 1 := by omega
    have hrun := (releases_of_last outcomes (nonce :: rest) hget (by omega) (hpath ▸ hplain) hpath).run
    cases hr : releases session.root (nonce :: rest) ⟨s.world, outcomes⟩ with
    | mk r d =>
      rw [hr] at hrun
      cases r with
      | error stop =>
        obtain rfl : stop = .crashed := hrun
        exact h.ended d.state.files
      | ok success =>
        cases success with
        | true => exact h.closed_last hi hlast hpath hrun
        | false =>
          have hfail : attemptsFail (rest.length + 1) _ _ = true := hrun
          rw [hseals hlast] at hfail
          cases hfail

theorem Inv.step_opened (h : s.Inv) {crypto : DbCrypto} {m : SessionProg EncryptedDbSession}
    (hspec : Ensures m s.world (fun session w' => session.root = root ∧
      Opened root crypto s.world session.plainPath w')
      fun _ => NotOpened root s.world)
    (hroot : ∀ root' ∈ s.roots, rootKey root' = rootKey root ↔ Folders.folder root' = Folders.folder root)
    (outcomes : List Outcome) : (s.opened root (m ⟨s.world, outcomes⟩)).Inv := by
  have hnamed := h.named hroot
  have hrun := hspec.run outcomes
  unfold SessionState.opened
  cases hr : m ⟨s.world, outcomes⟩ with
  | mk r d =>
    rw [hr] at hrun
    cases r with
    | ok session => exact hnamed.opened mem_cons_self hrun.1 hrun.2
    | error stop =>
      cases stop with
      | failed e => exact hnamed.notOpened mem_cons_self hrun
      | crashed => exact hnamed.ended d.state.files

theorem Inv.commit (h : s.Inv) (session : EncryptedDbSession)
    (content : { bs : Bytes // bs.length < 2 ^ 64 }) :
    (s.commit session content.1).Inv := by
  unfold SessionState.commit
  split
  · refine ⟨h.apart, h.guards, fun key entry hentry => ?_, h.counted⟩
    obtain ⟨root, hmem, hkey, hpos, hpath, plain, hplain, hlt⟩ := h.entries key entry hentry
    by_cases hsame : plainDbPath root = session.plainPath
    · exact ⟨root, hmem, hkey, hpos, hpath, content.1, hsame ▸ Files.write_self, content.2⟩
    · exact ⟨root, hmem, hkey, hpos, hpath, plain, (Files.write_of_ne hsame).trans hplain, hlt⟩
  · exact h

theorem Inv.step (h : s.Inv) {a : SessionAction} (ha : s.Harmless a) : (s.step a).Inv := by
  -- an action that closes a guard that is not there does nothing
  have hclosing : ∀ i nonce rest outcomes, a.closing = some (i, nonce :: rest, outcomes) →
      (s.guards[i]? = none → s.step a = s) → (s.step a).Inv := by
    intro i nonce rest outcomes hcloses hnone
    cases hi : s.guards[i]? with
    | none =>
      rw [hnone hi]
      exact h
    | some session =>
      rw [step_closing hcloses hi]
      exact h.closed hi nonce rest outcomes (ha.seals i _ outcomes session hcloses hi)
  cases a with
  | create root crypto outcomes =>
    exact h.step_opened (create_spec root crypto s.world) (ha.apart root rfl) outcomes
  | acquire root crypto outcomes =>
    exact h.step_opened (acquire_spec root crypto s.world) (ha.apart root rfl) outcomes
  | commit i content =>
    show (match s.guards[i]? with
      | some session => s.commit session content.1
      | none => s).Inv
    split
    · exact h.commit _ content
    · exact h
  | sealNow i nonces outcomes =>
    refine hclosing i (nonces 2) _ outcomes rfl fun hnone => ?_
    unfold SessionState.step
    dsimp only
    rw [hnone]
  | drop i nonces outcomes =>
    refine hclosing i (nonces 0) _ outcomes rfl fun hnone => ?_
    unfold SessionState.step
    dsimp only
    rw [hnone]

theorem Inv.lastSealed (h : s.Inv) (a : SessionAction) : s.LastSealed a := by
  intro i attempts outcomes session ha hi hlast hsuccess
  obtain ⟨entry, hget, hcount, hpath, plain, hplain, hlt⟩ := h.entry_of_guard (mem_of_getElem? hi)
  rw [step_closing ha hi]
  have hrun := (releases_of_last outcomes attempts hget (by omega) (hpath ▸ hplain) hpath).run
  cases hr : releases session.root attempts ⟨s.world, outcomes⟩ with
  | mk r d =>
    rw [hr] at hrun hsuccess
    obtain rfl : r = .ok true := hsuccess
    obtain ⟨hsessions, fs, nonce, -, hdb, hfiles⟩ := hrun
    show SealedAway session s.world d.state
    rw [hpath] at hfiles
    refine ⟨fun p hp => ?_, ?_, entry, plain, _, hget, ?_, ?_, entry.crypto.unseal_seal nonce hlt⟩
    · rw [hfiles]
      exact wiped_of_inDir hp
    · rw [hsessions]
      exact AList.lookup_erase _ _
    · rw [(h.guards session (mem_of_getElem? hi)).2]
      exact hplain
    · rw [hfiles, agree_wiped (Files.Agree.refl _ fs) _ (not_inDir_of_sealed (.inl rfl))]
      exact hdb

/-- **Reference counting.** In a run of harmless steps the entry of every root counts exactly its
live guards, and the last one is sealed away. -/
theorem counted_of_guarded (fs : Files SessionFile UInt8) (actions : List SessionAction)
    (h : Guarded step Harmless (start fs) actions) :
    Along step Counted (start fs) actions ∧ Guarded step LastSealed (start fs) actions := by
  have hinv : Along step Inv (start fs) actions := Along.of_guarded (fun _ _ hs => hs.step) (inv_start fs) h
  exact ⟨hinv.mono fun _ hs => hs.counted, Guarded.of_along (fun _ a hs => hs.lastSealed a) hinv⟩

end SessionState

section

open SessionState

local instance sameFolder : Folders := ⟨fun _ => 0⟩

def twoGuards : List SessionAction := [
  .create "m" appendingCrypto [], .commit 0 ⟨[1], length_oneByte⟩, .acquire "m" appendingCrypto [],
  .drop 0 (fun _ => anyNonces) [], .drop 0 (fun _ => anyNonces) [.fails 0]]

theorem counted_twoGuards : Along step Counted (start fun _ => none) twoGuards
    ∧ Guarded step LastSealed (start fun _ => none) twoGuards := by
  refine counted_of_guarded (fun _ => none) twoGuards ⟨⟨?_, fun _ _ _ _ ha => by cases ha⟩,
    ⟨(fun _ ha => by cases ha), fun _ _ _ _ ha => by cases ha⟩, ⟨?_, fun _ _ _ _ ha => by cases ha⟩,
    ⟨(fun _ ha => by cases ha), ?_⟩, ⟨(fun _ ha => by cases ha), ?_⟩, trivial⟩
  · intro root _ root' hmem
    cases hmem
  · intro root ha
    cases ha
    decide +kernel
  · intro i attempts outcomes session ha _ _
    cases ha
    rfl
  · intro i attempts outcomes session ha _ _
    cases ha
    rfl

def lostGuard : List SessionAction := [
  .create "m" appendingCrypto [], .commit 0 ⟨[1], length_oneByte⟩,
  .drop 0 (fun _ => anyNonces) [.fails 0, .fails 0],
  .acquire "m" appendingCrypto [], .commit 0 ⟨[1, 2], length_twoBytes⟩, .drop 0 (fun _ => anyNonces) []]

/-- After the failed drop the entry counts a guard that is gone, and the next guard is never
sealed. -/
theorem counted_broken_by_drop :
    let s := (lostGuard.take 3).foldl step (start fun _ => none)
    let s' := lostGuard.foldl step (start fun _ => none)
    s.refcount "m" = 1 ∧ s.live "m" = 0
      ∧ s'.refcount "m" = 1 ∧ s'.live "m" = 0 ∧ s'.world.files (dbPath "m") = none
      ∧ s'.world.files (plainDbPath "m") = some [1, 2]
      ∧ ¬ Along step Counted (start fun _ => none) lostGuard := by
  have hcounts : let s' := lostGuard.foldl step (start fun _ => none)
      "m" ∈ s'.roots ∧ s'.refcount "m" ≠ s'.live "m" := by decide +kernel
  refine ⟨by decide +kernel, by decide +kernel, by decide +kernel, by decide +kernel, by decide +kernel,
    by decide +kernel, fun h => ?_⟩
  exact hcounts.2 (h.last "m" hcounts.1)

end

end MatterCore
