import PstDedupe.MatterCore.OneProcess

/-!
# Releases of a session

A guard that is closed tries to release its session, twice or three times. The last release seals.
-/

namespace MatterCore

open Rust Foundations Prog

/-- The operations of a seal that may fail: the read, then the creation, the write and the sync of
the temp, the removal of a database that is there, and the rename. -/
def sealOps (hasDb : Bool) : Nat := if hasDb then 6 else 5

/-- Whether all attempts at a seal fail: the one under way, of which `left` operations are to come,
and the `later` ones. -/
def sealFails (later : Nat) (hasDb : Bool) (left : Nat) : List Outcome → Bool
  | [] => false
  | o :: os =>
    match left, o with
    | 0, _ => false
    | left + 1, .done => sealFails later hasDb left os
    | _ + 1, .crashes _ => false
    | left + 1, .fails _ =>
      match later with
      | 0 => true
      | later + 1 =>
        -- when the rename fails, the old database has been removed
        let hasDb := hasDb && left ≠ 0
        sealFails later hasDb (sealOps hasDb) os

def attemptsFail (attempts : Nat) (hasDb : Bool) (os : List Outcome) : Bool :=
  match attempts with
  | 0 => true
  | later + 1 => sealFails later hasDb (sealOps hasDb) os

section

variable {later left : Nat} {hasDb : Bool} {os : List Outcome}

theorem sealFails_done (h : cutAt os = none) :
    sealFails later hasDb (left + 1) os = sealFails later hasDb left os.tail := by
  cases os with
  | nil => rfl
  | cons o os =>
    cases o with
    | done => rfl
    | fails n => cases h
    | crashes n => cases h

theorem sealFails_fails (n : Nat) :
    sealFails later hasDb (left + 1) (.fails n :: os) = attemptsFail later (hasDb && left ≠ 0) os := by
  cases later with
  | zero => rfl
  | succ later => rfl

end

section

variable [Folders] {w : World}

theorem seal_fails (root : String) (crypto : DbCrypto) (nonce : Nat → Nonce)
    {plainPath : SessionFile} {plain : Bytes} {os : List Outcome}
    (hplain : w.files plainPath = some plain) (later : Nat) :
    Leads (encryptSessionDbToRoot root crypto nonce plainPath : SessionProg Unit) ⟨w, os⟩ (fun _ _ => True)
      fun s d => s = .crashed ∨ attemptsFail (later + 1) (w.files (dbPath root)).isSome os
        = attemptsFail later (d.state.files (dbPath root)).isSome d.outcomes := by
  have hne := dbPath_ne_sealTmpPath root root
  generalize hhas : (w.files (dbPath root)).isSome = hasDb
  show Leads _ _ _ fun s d => s = .crashed ∨ sealFails later hasDb (sealOps hasDb) os = _
  -- a failure before the last operation leaves the database as it was
  have hstop : ∀ {left n : Nat} {os₁ os₂ : List Outcome} {fs : Files SessionFile UInt8},
      sealFails later hasDb (sealOps hasDb) os = sealFails later hasDb (left + 2) os₁ → os₁ = .fails n :: os₂ →
      fs (dbPath root) = w.files (dbPath root) →
      sealFails later hasDb (sealOps hasDb) os = attemptsFail later (fs (dbPath root)).isSome os₂ := by
    intro left n os₁ os₂ fs hfate hos hdb
    rw [hfate, hos, sealFails_fails, hdb, hhas]
    simp
  obtain ⟨more, hmore⟩ : ∃ more, sealOps hasDb = more + 5 := by
    unfold sealOps
    split
    · exact ⟨1, rfl⟩
    · exact ⟨0, rfl⟩
  unfold encryptSessionDbToRoot
  refine Leads.bind (Leads.onFiles (Leads.look ?_))
  rw [hplain]
  -- the read
  refine Leads.bind (Leads.onFiles (Leads.bind (Leads.act_cases (fun hread => ?_)
    (fun _ _ hos => .inr (hstop (by rw [hmore]) hos rfl)) fun _ _ _ => .inl rfl)))
  have hfate₁ := (congrArg (sealFails later hasDb · os) hmore).trans (sealFails_done hread)
  refine Leads.bind (Leads.look ?_)
  rw [show id w.files plainPath = some plain from hplain]
  refine Leads.pure ?_
  -- the temp is created
  refine Leads.bind (Leads.bind (Leads.onFiles (Leads.act_cases (fun hcreate => Leads.pure ?_)
    (fun _ _ hos => .inr (hstop hfate₁ hos rfl)) fun _ _ _ => .inl rfl)))
  have hfate₂ := hfate₁.trans (sealFails_done hcreate)
  have hdb : ∀ text,
      Files.append (sealTmpPath root) text (Files.write (sealTmpPath root) [] w.files) (dbPath root)
      = w.files (dbPath root) := fun text => by rw [Files.append_of_ne hne, Files.write_of_ne hne]
  -- written
  refine Leads.bind (Leads.onFiles (Leads.act_cases (fun hwrite => ?_)
    (fun _ _ hos => .inr (hstop hfate₂ hos (hdb _))) fun _ _ _ => .inl rfl))
  have hfate₃ := hfate₂.trans (sealFails_done hwrite)
  -- and synced
  refine Leads.bind (Leads.touch_cases (fun hsync => ?_)
    (fun _ _ hos => .inr (hstop hfate₃ hos (hdb _))) fun _ _ _ => .inl rfl)
  have hfate₄ := hfate₃.trans (sealFails_done hsync)
  -- the rename is the last operation, and there is no database before it
  have hrename : ∀ (w₁ : World) (os₁ : List Outcome),
      sealFails later hasDb (sealOps hasDb) os = sealFails later hasDb 1 os₁ → w₁.files (dbPath root) = none →
      w₁.files (sealTmpPath root) = some (crypto.seal nonce plain) →
      Leads (Platform.rename (sealTmpPath root) (dbPath root) : SessionProg Unit) ⟨w₁, os₁⟩
        (fun _ _ => True) fun s d => s = .crashed ∨ sealFails later hasDb (sealOps hasDb) os
          = attemptsFail later (d.state.files (dbPath root)).isSome d.outcomes := by
    intro w₁ os₁ hfate hnone htemp
    refine Leads.onFiles
      (Leads.actOn_cases htemp (fun _ => trivial) (fun n os₂ hos => .inr ?_) fun _ _ _ => .inl rfl)
    show _ = attemptsFail later (w₁.files (dbPath root)).isSome os₂
    rw [hfate, hos, sealFails_fails, hnone]
    simp
  let fs₂ := Files.append (sealTmpPath root) (crypto.seal nonce plain)
    (Files.write (sealTmpPath root) [] w.files)
  have htemp : fs₂ (sealTmpPath root) = some (crypto.seal nonce plain) := by
    show Files.append _ _ _ _ = _
    rw [Files.append_self, Files.write_self]
    rfl
  refine Leads.bind (Leads.bind (Leads.onFiles (Leads.look ?_)))
  show Leads (if (fs₂ (dbPath root)).isSome then _ else _) _ _ _
  rw [show fs₂ (dbPath root) = w.files (dbPath root) from hdb _]
  cases hold : w.files (dbPath root) with
  | none =>
    obtain rfl : false = hasDb := by rw [← hhas, hold]; rfl
    obtain rfl : more = 0 := by simpa [sealOps] using hmore
    exact Leads.pure (hrename _ _ hfate₄ ((hdb _).trans hold) htemp)
  | some old =>
    obtain rfl : true = hasDb := by rw [← hhas, hold]; rfl
    obtain rfl : more = 1 := by simpa [sealOps] using hmore
    refine Leads.onFiles (Leads.actOn_cases ((hdb _).trans hold) (fun hremove => ?_)
      (fun _ _ hos => .inr (hstop hfate₄ hos (hdb _))) fun _ _ _ => .inl rfl)
    refine hrename _ _ (hfate₄.trans (sealFails_done hremove)) Files.erase_self ?_
    show Files.erase (dbPath root) fs₂ (sealTmpPath root) = some _
    rw [Files.erase_of_ne hne.symm, htemp]

def releases (root : String) : List (Nat → Nonce) → SessionProg Bool
  | [] => pure false
  | nonce :: rest => do
    match ← Platform.attempt (releaseDbSession root nonce) with
    | .ok _ => pure true
    | .error _ => releases root rest

theorem releases_cons (root : String) (nonce : Nat → Nonce) (rest : List (Nat → Nonce)) (d : Host World) :
    releases root (nonce :: rest) d = match (releaseDbSession root nonce : SessionProg Unit) d with
      | (.ok _, d') => (.ok true, d')
      | (.error (.failed _), d') => releases root rest d'
      | (.error .crashed, d') => (.error .crashed, d') := by
  show (attempt (releaseDbSession root nonce) >>= _) d = _
  rw [attempt_bind_apply]
  cases (releaseDbSession root nonce : SessionProg Unit) d with
  | mk r d' =>
    cases r with
    | ok _ => rfl
    | error s => cases s <;> rfl

def ending {α : Type} (r : Except (Stop SessionError) α × Host World) : Bool × Host World :=
  match r.1 with
  | .error .crashed => (true, r.2)
  | _ => (false, r.2)

theorem ending_drop (session : EncryptedDbSession) (nonces : SealNonces) (d : Host World) :
    ending ((session.drop nonces : SessionProg Unit) d)
      = ending (releases session.root [nonces 0, nonces 1] d) := by
  show ending ((attempt (releaseDbSession session.root (nonces 0)) >>= _) d) = _
  rw [attempt_bind_apply, releases_cons]
  cases (releaseDbSession session.root (nonces 0) : SessionProg Unit) d with
  | mk r d₁ =>
    cases r with
    | ok _ => rfl
    | error s =>
      cases s with
      | crashed => rfl
      | failed e =>
        show ending ((attempt (releaseDbSession session.root (nonces 1)) >>= _) d₁)
          = ending (releases session.root [nonces 1] d₁)
        rw [attempt_bind_apply, releases_cons]
        cases (releaseDbSession session.root (nonces 1) : SessionProg Unit) d₁ with
        | mk r d₂ =>
          cases r with
          | ok _ => rfl
          | error s => cases s <;> rfl

theorem ending_sealNow (session : EncryptedDbSession) (nonces : SealNonces) (d : Host World) :
    ending ((session.sealNow nonces : SessionProg Unit) d)
      = ending (releases session.root [nonces 2, nonces 0, nonces 1] d) := by
  show ending ((attempt (releaseDbSession session.root (nonces 2)) >>= _) d) = _
  rw [attempt_bind_apply, releases_cons]
  cases (releaseDbSession session.root (nonces 2) : SessionProg Unit) d with
  | mk r d₁ =>
    cases r with
    | ok _ => rfl
    | error s =>
      cases s with
      | crashed => rfl
      | failed e =>
        show ending ((session.drop nonces >>= fun _ => Prog.fail e) d₁)
          = ending (releases session.root [nonces 0, nonces 1] d₁)
        rw [← ending_drop, bind_apply]
        cases (session.drop nonces : SessionProg Unit) d₁ with
        | mk r d₂ =>
          cases r with
          | ok _ => rfl
          | error s => cases s <;> rfl

theorem releases_of_many {root : String} {entry : SessionEntry} (os : List Outcome)
    (nonce : Nat → Nonce) (rest : List (Nat → Nonce)) (hget : w.sessions.get (rootKey root) = some entry)
    (hmany : 1 < entry.refcount) : releases root (nonce :: rest) ⟨w, os⟩ = (.ok true,
      ⟨⟨w.files, AList.insert (rootKey root) { entry with refcount := entry.refcount - 1 } w.sessions⟩, os⟩) := by
  have hrelease : Leads (releaseDbSession root nonce : SessionProg Unit) ⟨w, os⟩
      (fun _ d =>
        d = ⟨⟨w.files, AList.insert (rootKey root) { entry with refcount := entry.refcount - 1 } w.sessions⟩, os⟩)
      fun _ _ => False := by
    refine Leads.bind (Leads.look ?_)
    rw [hget]
    dsimp only
    rw [if_pos hmany]
    exact ⟨rfl⟩
  have hrun := hrelease.run
  rw [releases_cons]
  split at hrun
  · rename_i heq
    rw [heq, hrun]
  · exact hrun.elim

structure Released (root : String) (entry : SessionEntry) (plain : Bytes) (w w' : World) : Prop where
  sessions : w'.sessions = w.sessions.erase (rootKey root)
  files : ∃ fs nonce, SealFrame root w.files fs ∧
    fs (dbPath root) = some (entry.crypto.seal nonce plain) ∧ w'.files = wiped entry.plainPath fs

theorem releases_of_last {root : String} {entry : SessionEntry} {plain : Bytes} (os : List Outcome)
    (attempts : List (Nat → Nonce)) (hget : w.sessions.get (rootKey root) = some entry)
    (hlast : entry.refcount ≤ 1) (hplain : w.files entry.plainPath = some plain)
    (hpath : entry.plainPath = plainDbPath root) :
    Leads (releases root attempts) ⟨w, os⟩
      (fun success d => if success then Released root entry plain w d.state
        else attemptsFail attempts.length (w.files (dbPath root)).isSome os)
      fun s _ => s = .crashed := by
  induction attempts generalizing w os with
  | nil => exact Leads.pure rfl
  | cons nonce rest ih =>
    have hseal := (seal_leads root entry.crypto nonce hplain : Leads _ ⟨w, os⟩ _ _).and
      (seal_fails root entry.crypto nonce hplain rest.length)
    have hrelease : Leads (releaseDbSession root nonce : SessionProg Unit) ⟨w, os⟩
        (fun _ d => Released root entry plain w d.state)
        fun s d => s = .crashed ∨ SealFrame root w.files d.state.files ∧ d.state.sessions = w.sessions
          ∧ attemptsFail (rest.length + 1) (w.files (dbPath root)).isSome os
            = attemptsFail rest.length (d.state.files (dbPath root)).isSome d.outcomes := by
      refine Leads.bind (Leads.look ?_)
      rw [hget]
      dsimp only
      rw [if_neg (by omega)]
      refine Leads.bind (hseal.mono ?_ ?_)
      · rintro _ d₁ ⟨⟨-, hdb, -, hframe, hsessions⟩, -⟩
        refine Leads.bind (Leads.look (Leads.bind ⟨?_⟩))
        show Leads (wipePlainSession entry.plainPath : SessionProg Unit) _ _ _
        refine ⟨?_⟩
        rw [wipePlainSession_apply]
        refine ⟨?_, d₁.state.files, nonce, hframe, hdb, rfl⟩
        show d₁.state.sessions.erase (rootKey root) = _
        rw [hsessions]
      · rintro s d₁ ⟨⟨-, hframe, hsessions⟩, hcrash | hfail⟩
        · exact .inl hcrash
        · exact .inr ⟨hframe, hsessions, hfail⟩
    have hrun := hrelease.run
    refine ⟨?_⟩
    rw [releases_cons]
    cases hr : (releaseDbSession root nonce : SessionProg Unit) ⟨w, os⟩ with
    | mk r d₁ =>
      rw [hr] at hrun
      cases r with
      | ok _ => exact hrun
      | error s =>
        cases s with
        | crashed => rfl
        | failed e =>
          -- the later attempts find the same entry and plain file
          obtain ⟨hframe, hsessions, hfail⟩ := hrun.resolve_left (by simp)
          have hplain₁ : d₁.state.files entry.plainPath = some plain := by
            rw [hpath] at hplain ⊢
            exact (SealFrame.plain hframe).trans hplain
          refine ((ih (w := d₁.state) d₁.outcomes (by rw [hsessions,
            hget]) hplain₁).mono ?_ fun _ _ h => h).run
          intro success d₂ h
          cases success with
          | true =>
            obtain ⟨hsessions₂, fs, nonce', hframe₂, hdb₂, hfiles₂⟩ := h
            refine ⟨hsessions₂.trans (by rw [hsessions]), fs, nonce', ?_, hdb₂, hfiles₂⟩
            exact fun p hp => (hframe₂ p hp).trans (hframe p hp)
          | false => exact hfail.trans h

end

end MatterCore
