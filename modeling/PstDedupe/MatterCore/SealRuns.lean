import PstDedupe.Foundations.GuardedRuns
import PstDedupe.MatterCore.OneProcess

/-!
# Seals and crashes

A run of one encrypted matter: the plain database changes, seals are tried, and opens recover.
-/

namespace MatterCore

open Rust Foundations Prog List Function

section

variable [Folders] (root : String) (crypto : DbCrypto)

/-- `matter.db` after a recovery that is not disturbed. -/
def recovered (fs : Files SessionFile UInt8) : Option Bytes :=
  ((recoverSealTemp root : SessionProg Unit) ⟨⟨fs, ∅⟩, []⟩).2.state.files (dbPath root)

structure SealState where
  files : Files SessionFile UInt8
  /-- The seals, with their nonces and plaintexts, from the last one that was completed on. -/
  seals : List ((Nat → Nonce) × Bytes)
  completed : Bool

def SealState.fresh : SealState := ⟨fun _ => none, [], false⟩

inductive SealAction where
  | edit (content : Option { bs : Bytes // bs.length < 2 ^ 64 })
  /-- `encrypt_session_db_to_root`. -/
  | trySeal (nonce : Nat → Nonce) (outcomes : List Outcome)
  /-- `recover_seal_temp`, on an open. -/
  | recover (outcomes : List Outcome)

def SealState.step (s : SealState) : SealAction → SealState
  | .edit none => { s with files := Files.erase (plainDbPath root) s.files }
  | .edit (some content) => { s with files := Files.write (plainDbPath root) content.1 s.files }
  | .trySeal nonce outcomes =>
    let r := (encryptSessionDbToRoot root crypto nonce (plainDbPath root) : SessionProg Unit)
      ⟨⟨s.files, ∅⟩, outcomes⟩
    let tried := (s.files (plainDbPath root)).toList.map fun plain => (nonce, plain)
    match r.1 with
    | .ok _ => ⟨r.2.state.files, tried, true⟩
    | .error _ => ⟨r.2.state.files, s.seals ++ tried, s.completed⟩
  | .recover outcomes =>
    { s with files := ((recoverSealTemp root : SessionProg Unit) ⟨⟨s.files, ∅⟩, outcomes⟩).2.state.files }

/-- What recovery gives is the whole image of a database that was sealed at or after the last
completed seal, and once a seal has been completed it gives something. -/
def CrashSafe (s : SealState) : Prop :=
  (s.completed → (recovered root s.files).isSome) ∧ ∀ image, recovered root s.files = some image →
      ∃ nonce plain, (nonce, plain) ∈ s.seals ∧ image = crypto.seal nonce plain ∧
        crypto.unseal image = .ok plain

/-- A seal that finds no `matter.db` is not cut short in its temp. -/
def NotTorn (s : SealState) : SealAction → Prop
  | .trySeal nonce outcomes =>
  s.files (dbPath root) = none → ∀ plain, s.files (plainDbPath root) = some plain →
      ¬ Torn outcomes (crypto.seal nonce plain).length
  | _ => True

end

section

variable [Folders] {root : String} {fs fs' : Files SessionFile UInt8}

theorem recoverSealTemp_spec (root : String) (w : World) : Ensures (recoverSealTemp root : SessionProg Unit) w
      (fun _ w' => w'.files (dbPath root) = (w.files (dbPath root)).or (w.files (sealTmpPath root))
        ∧ (w'.files (dbPath root)).or (w'.files (sealTmpPath root))
          = (w.files (dbPath root)).or (w.files (sealTmpPath root))
        ∧ SealFrame root w.files w'.files ∧ w'.sessions = w.sessions)
      fun _ w' => w' = w := by
  have hne := dbPath_ne_sealTmpPath root root
  have hrefl : SealFrame root w.files w.files := Files.Agree.refl _ _
  refine Ensures.bind (Ensures.onFiles (Ensures.look ?_))
  refine Ensures.bind (Ensures.onFiles (Ensures.look ?_))
  cases hdb : w.files (dbPath root) with
  | some db =>
    refine Ensures.pure ⟨hdb, ?_, hrefl, rfl⟩
    show (w.files (dbPath root)).or _ = _
    rw [hdb]
  | none =>
    cases htemp : w.files (sealTmpPath root) with
    | none =>
      refine Ensures.pure ⟨hdb, ?_, hrefl, rfl⟩
      show (w.files (dbPath root)).or (w.files (sealTmpPath root)) = _
      rw [hdb, htemp]
    | some temp =>
      refine Ensures.onFiles (Ensures.rename (fun bs hbs => ?_) fun _ => rfl)
      have hmoved : Files.move (sealTmpPath root) (dbPath root) w.files (dbPath root) = some temp :=
        (Files.move_target hne).trans htemp
      refine ⟨hmoved, ?_, hrefl.move (.inr rfl) (.inl rfl), rfl⟩
      show (Files.move (sealTmpPath root) (dbPath root) w.files (dbPath root)).or _ = _
      rw [hmoved]
      rfl

theorem recovered_eq (root : String) (fs : Files SessionFile UInt8) :
    recovered root fs = (fs (dbPath root)).or (fs (sealTmpPath root)) := by
  have hrun : ∃ w : World, Runs (recoverSealTemp root : SessionProg Unit) ⟨fs, ∅⟩ () w
      ∧ w.files (dbPath root) = (fs (dbPath root)).or (fs (sealTmpPath root)) := by
    cases hdb : fs (dbPath root) with
    | some db =>
      refine ⟨⟨fs, ∅⟩, Runs.bind (Runs.onFiles Runs.look) (Runs.bind (Runs.onFiles Runs.look) ?_), hdb⟩
      rw [if_neg (by simp [hdb])]
      exact Runs.pure
    | none =>
      cases htemp : fs (sealTmpPath root) with
      | none =>
        refine ⟨⟨fs, ∅⟩, Runs.bind (Runs.onFiles Runs.look) (Runs.bind (Runs.onFiles Runs.look) ?_), hdb⟩
        rw [if_neg (by simp [htemp])]
        exact Runs.pure
      | some temp =>
        refine ⟨⟨Files.move (sealTmpPath root) (dbPath root) fs, ∅⟩,
          Runs.bind (Runs.onFiles Runs.look) (Runs.bind (Runs.onFiles Runs.look) ?_), ?_⟩
        · rw [if_pos (by simp [hdb, htemp])]
          exact Runs.onFiles (Runs.rename htemp)
        · exact (Files.move_target (dbPath_ne_sealTmpPath root root)).trans htemp
  obtain ⟨w, hruns, hfiles⟩ := hrun
  unfold recovered
  unfold Runs at hruns
  rw [hruns]
  exact hfiles

theorem recovered_recover (root : String) (fs : Files SessionFile UInt8) (os : List Outcome) :
    let fs' := ((recoverSealTemp root : SessionProg Unit) ⟨⟨fs, ∅⟩, os⟩).2.state.files
    recovered root fs' = recovered root fs ∧ SealFrame root fs fs' := by
  intro fs'
  have hspec := recoverSealTemp_spec root ⟨fs, ∅⟩
  rw [recovered_eq, recovered_eq]
  cases hresult : ((recoverSealTemp root : SessionProg Unit) ⟨⟨fs, ∅⟩, os⟩).1 with
  | ok a =>
    obtain ⟨-, hor, hframe, -⟩ := hspec.of_ok hresult
    exact ⟨hor, hframe⟩
  | error s =>
    have hsame := hspec.of_error hresult
    have hfiles : fs' = fs := congrArg World.files hsame
    rw [hfiles]
    exact ⟨rfl, Files.Agree.refl _ _⟩

end

section

variable {crypto : DbCrypto}

theorem take_seal_ne_seal {nonce nonce' : Nat → Nonce} {plain plain' : Bytes} {n : Nat}
    (hlt : plain.length < 2 ^ 64) (hlt' : plain'.length < 2 ^ 64) (hn : n < (crypto.seal nonce plain).length) :
    (crypto.seal nonce plain).take n ≠ crypto.seal nonce' plain' := by
  intro heq
  have hpos := crypto.ge_chunkBytes
  have hmax32 : max crypto.chunkBytes 1 < 2 ^ 32 := by
    have hmax : crypto.chunkBytes ≤ 4 * 1024 * 1024 := crypto.chunkBytes_le
    omega
  have hseal : ∀ (nonce : Nat → Nonce) (plain : Bytes), ∃ body,
      crypto.seal nonce plain = writeHeader magicDb (max crypto.chunkBytes 1) plain.length ++
        body := fun _ _ => ⟨_, rfl⟩
  obtain ⟨body, hbody⟩ := hseal nonce plain
  obtain ⟨body', hbody'⟩ := hseal nonce' plain'
  obtain ⟨hle, -, -, hfield, -⟩ := header_fields hmax32 hlt hbody
  obtain ⟨hle', -, -, hfield', -⟩ := header_fields hmax32 hlt' hbody'
  have hlen := congrArg length heq
  rw [length_take_of_le (Nat.le_of_lt hn)] at hlen
  -- the header tells the length of the plaintext, which tells that of the whole
  have hplain : plain.length = plain'.length := by
    rw [← hfield, ← hfield', ← heq, drop_take, take_take, Nat.min_eq_left]
    unfold headerLen at hle'
    omega
  have hwhole : (crypto.seal nonce plain).length = (crypto.seal nonce' plain').length := by
    unfold DbCrypto.seal
    rw [@length_encryptChunked crypto.dek, @length_encryptChunked crypto.dek, hplain]
  omega

end

section

variable [Folders] {root : String} {crypto : DbCrypto} {nonce : Nat → Nonce} {plain : Bytes} {s : SealState}

/-- What every run keeps: databases are shorter than `2 ^ 64`. -/
structure Bounded (root : String) (s : SealState) : Prop where
  plain : ∀ plain, s.files (plainDbPath root) = some plain → plain.length < 2 ^ 64
  seals : ∀ tried ∈ s.seals, tried.2.length < 2 ^ 64

theorem CrashSafe.congr {s s' : SealState} (h : CrashSafe root crypto s)
    (hrecovered : recovered root s'.files = recovered root s.files) (hseals : s'.seals = s.seals)
    (hcompleted : s'.completed = s.completed) : CrashSafe root crypto s' := by
  unfold CrashSafe
  rw [hrecovered, hseals, hcompleted]
  exact h

theorem CrashSafe.of_recovered {s s' : SealState}
    (hs : CrashSafe root crypto s) (hlt : plain.length < 2 ^ 64)
    (hcompleted : s'.completed = s.completed) (hseals : s'.seals = s.seals ++ [(nonce, plain)])
    (hrecovered : recovered root s'.files = recovered root s.files
      ∨ recovered root s'.files = some (crypto.seal nonce plain)) : CrashSafe root crypto s' := by
  rcases hrecovered with hsame | hnew
  · refine ⟨?_, fun image himage => ?_⟩
    · rw [hsame, hcompleted]
      exact hs.1
    · rw [hsame] at himage
      obtain ⟨nonce', plain', hmem, heq, hopen⟩ := hs.2 image himage
      exact ⟨nonce', plain', hseals ▸ mem_append_left _ hmem, heq, hopen⟩
  · refine ⟨fun _ => by rw [hnew]; rfl, fun image himage => ?_⟩
    obtain rfl : crypto.seal nonce plain = image := Option.some.inj (hnew.symm.trans himage)
    exact ⟨nonce, plain, hseals ▸ mem_append_right _ mem_cons_self, rfl, crypto.unseal_seal nonce hlt⟩

theorem recovered_update (fs : Files SessionFile UInt8) (content : Option Bytes) :
    recovered root (update fs (plainDbPath root) content) = recovered root fs := by
  rw [recovered_eq, recovered_eq, update_of_ne (plainDbPath_ne_dbPath root root).symm,
    update_of_ne (plainDbPath_ne_sealTmpPath root root).symm]

theorem step_seal_ok {outcomes : List Outcome} {a : Unit}
    {d : Host World} (hplain : s.files (plainDbPath root) = some plain)
    (hrun : (encryptSessionDbToRoot root crypto nonce (plainDbPath root) : SessionProg Unit)
      ⟨⟨s.files, ∅⟩, outcomes⟩ = (.ok a, d)) :
    s.step root crypto (.trySeal nonce outcomes) = ⟨d.state.files, [(nonce, plain)], true⟩ := by
  unfold SealState.step
  dsimp only
  rw [hrun, hplain]
  rfl

theorem step_seal_error {outcomes : List Outcome}
    {stop : Stop SessionError} {d : Host World} (hplain : s.files (plainDbPath root) = some plain)
    (hrun : (encryptSessionDbToRoot root crypto nonce (plainDbPath root) : SessionProg Unit)
      ⟨⟨s.files, ∅⟩, outcomes⟩ = (.error stop, d)) :
    s.step root crypto (.trySeal nonce outcomes)
      = ⟨d.state.files, s.seals ++ [(nonce, plain)], s.completed⟩ := by
  unfold SealState.step
  dsimp only
  rw [hrun, hplain]
  rfl

theorem recovered_of_sealLeft {text : Bytes} {fs fs' : Files SessionFile UInt8}
    (h : SealLeft root text fs fs') :
    recovered root fs' = recovered root fs ∨ recovered root fs' = some text := by
  rw [recovered_eq, recovered_eq]
  cases h with
  | untouched hdb htemp =>
    rw [hdb, htemp]
    exact .inl rfl
  | temp hdb htemp =>
    rw [hdb, htemp]
    cases fs (dbPath root) with
    | some db => exact .inl rfl
    | none => exact .inr rfl
  | onlyTemp hdb htemp =>
    rw [hdb, htemp]
    exact .inr rfl

theorem Bounded.of_frame {s s' : SealState} (h : Bounded root s)
    (hframe : SealFrame root s.files s'.files)
    (hseals : ∀ tried ∈ s'.seals, tried ∈ s.seals ∨ s.files (plainDbPath root) = some tried.2) :
    Bounded root s' := by
  refine ⟨fun plain hplain => h.plain plain (hframe.plain.symm.trans hplain), fun tried htried => ?_⟩
  rcases hseals tried htried with hmem | hplain
  · exact h.seals tried hmem
  · exact h.plain tried.2 hplain

theorem step_trySeal_none (nonce : Nat → Nonce) (outcomes : List Outcome)
    (hplain : s.files (plainDbPath root) = none) : s.step root crypto (.trySeal nonce outcomes) = s := by
  unfold SealState.step
  dsimp only
  rw [seal_missing root crypto nonce hplain, hplain]
  show SealState.mk s.files (s.seals ++ []) s.completed = s
  rw [append_nil]

theorem Bounded.step (h : Bounded root s) (a : SealAction) : Bounded root (s.step root crypto a) := by
  cases a with
  | edit content =>
    cases content with
    | none =>
      refine ⟨fun plain hplain => ?_, h.seals⟩
      cases (Files.erase_self : Files.erase (plainDbPath root) s.files _ = none).symm.trans hplain
    | some content =>
      refine ⟨fun plain hplain => ?_, h.seals⟩
      cases (Files.write_self : Files.write (plainDbPath root) content.1 s.files _ = _).symm.trans hplain
      exact content.2
  | recover outcomes => exact h.of_frame (recovered_recover root s.files outcomes).2 fun _ => .inl
  | trySeal nonce outcomes =>
    cases hplain : s.files (plainDbPath root) with
    | none =>
      rw [step_trySeal_none nonce outcomes hplain]
      exact h
    | some plain =>
      have hrun := (seal_leads root crypto nonce hplain : Leads _ ⟨⟨s.files, ∅⟩, outcomes⟩ _ _).run
      split at hrun
      · rename_i a d heq
        rw [step_seal_ok hplain heq]
        refine h.of_frame hrun.2.2.2.1 fun tried htried => .inr ?_
        rw [List.mem_singleton.mp htried]
        exact hplain
      · rename_i stop d heq
        rw [step_seal_error hplain heq]
        refine h.of_frame hrun.2.1 fun tried htried => ?_
        refine (List.mem_append.mp htried).imp_right fun hnew => ?_
        rw [List.mem_singleton.mp hnew]
        exact hplain

theorem crashSafe_trySeal (hs : CrashSafe root crypto s) (hbound : Bounded root s)
    (nonce : Nat → Nonce) (outcomes : List Outcome) :
    CrashSafe root crypto (s.step root crypto (.trySeal nonce outcomes)) ↔
      NotTorn root crypto s (.trySeal nonce outcomes) := by
  have hnext : Bounded root (s.step root crypto (.trySeal nonce outcomes)) := hbound.step _
  cases hplain : s.files (plainDbPath root) with
  | none =>
    rw [step_trySeal_none nonce outcomes hplain]
    refine iff_of_true hs fun _ plain hsome => ?_
    cases hplain.symm.trans hsome
  | some plain =>
    have hlt := hbound.plain plain hplain
    have hnotTorn : ¬ Torn outcomes (crypto.seal nonce plain).length →
        NotTorn root crypto s (.trySeal nonce outcomes) := by
      intro htorn _ plain' hplain'
      cases hplain.symm.trans hplain'
      exact htorn
    have hrun := (seal_leads root crypto nonce hplain : Leads _ ⟨⟨s.files, ∅⟩, outcomes⟩ _ _).run
    split at hrun
    · -- completed
      rename_i a d heq
      obtain ⟨htorn, hdb, -⟩ := hrun
      rw [step_seal_ok hplain heq]
      have hnew : recovered root d.state.files = some (crypto.seal nonce plain) := by
        rw [recovered_eq, hdb]
        rfl
      refine iff_of_true ⟨fun _ => by rw [hnew]; rfl, fun image himage => ?_⟩ (hnotTorn htorn)
      obtain rfl : crypto.seal nonce plain = image := Option.some.inj (hnew.symm.trans himage)
      exact ⟨nonce, plain, mem_cons_self, rfl, crypto.unseal_seal nonce hlt⟩
    · rename_i stop d heq
      rw [step_seal_error hplain heq] at hnext ⊢
      rcases hrun.1 with ⟨htorn, hleft⟩ | ⟨htorn, hdb, n, hn, htemp⟩
      · exact iff_of_true (hs.of_recovered hlt rfl rfl (recovered_of_sealLeft hleft)) (hnotTorn htorn)
      · have hrecovered : recovered root d.state.files
            = (s.files (dbPath root)).or (some ((crypto.seal nonce plain).take n)) := by
          rw [recovered_eq, hdb, htemp]
        cases hold : s.files (dbPath root) with
        | some db =>
          -- the torn temp is not looked at
          rw [hold] at hrecovered
          refine iff_of_true (hs.of_recovered hlt rfl rfl (.inl ?_)) fun hnone => ?_
          · rw [recovered_eq root s.files, hold]
            exact hrecovered
          · cases hold.symm.trans hnone
        | none =>
          rw [hold] at hrecovered
          refine iff_of_false (fun hsafe => ?_) fun hok => hok hold plain hplain htorn
          obtain ⟨nonce', plain', hmem, heq', -⟩ := hsafe.2 _ hrecovered
          exact take_seal_ne_seal hlt (hnext.seals _ hmem) hn heq'

/-- **Crash safety of the seal**: in the runs in which no seal is torn while there is no database,
and in no other, recovery always gives the whole image of the last completed seal or of one tried
since. -/
theorem crashSafe_iff_guarded (root : String) (crypto : DbCrypto) (actions : List SealAction) :
    Along (SealState.step root crypto) (CrashSafe root crypto) .fresh actions ↔
      Guarded (SealState.step root crypto) (NotTorn root crypto) .fresh actions := by
  have hstep : ∀ (s : SealState) (a : SealAction), Bounded root s → CrashSafe root crypto s →
      (CrashSafe root crypto (s.step root crypto a) ↔ NotTorn root crypto s a) := by
    intro s a hbound hs
    cases a with
    | trySeal nonce outcomes => exact crashSafe_trySeal hs hbound nonce outcomes
    | edit content =>
      cases content with
      | none => exact iff_of_true (hs.congr (recovered_update s.files none) rfl rfl) trivial
      | some content =>
        exact iff_of_true (hs.congr (recovered_update s.files (some content.1)) rfl rfl) trivial
    | recover outcomes =>
      exact iff_of_true (hs.congr (recovered_recover root s.files outcomes).1 rfl rfl) trivial
  have hfresh : recovered root SealState.fresh.files = none := by
    rw [recovered_eq]
    rfl
  have hbound : Bounded root .fresh := by
    constructor
    · intro plain hplain
      cases hplain
    · intro tried htried
      cases htried
  have hsafe : CrashSafe root crypto .fresh := by
    constructor
    · intro hcompleted
      cases hcompleted
    · intro image himage
      cases hfresh.symm.trans himage
  exact along_iff_guarded (fun s a h => h.step a) hstep hbound hsafe actions

end

section Lost

local instance appendingGcm : Gcm := Gcm.appending

local instance oneFolder : Folders := ⟨fun _ => 0⟩

theorem le_appendingChunk : 64 * 1024 ≤ 64 * 1024 := Nat.le_refl _

theorem appendingChunk_le : 64 * 1024 ≤ maxChunkSize := by decide

theorem length_oneByte : ([1] : Bytes).length < 2 ^ 64 := by decide

theorem length_twoBytes : ([1, 2] : Bytes).length < 2 ^ 64 := by decide

def appendingCrypto : DbCrypto := ⟨appendingGcm, 64 * 1024, le_appendingChunk, appendingChunk_le⟩

def anyNonces (_ : Nat) : Nonce := ⟨replicate 12 0, length_zeroNonce⟩

/-- A seal is completed. The next fails in its rename, and the process ends while the retry
writes. -/
def retryCrash : List SealAction := [.edit (some ⟨[1], length_oneByte⟩), .trySeal anyNonces [],
  .edit (some ⟨[1, 2], length_twoBytes⟩), .trySeal anyNonces [.done, .done, .done, .done, .done, .fails 0],
  .trySeal anyNonces [.done, .done, .crashes 30], .recover []]

theorem crashSafe_broken_by_retry :
    let s := retryCrash.foldl (SealState.step "m" appendingCrypto) .fresh
    s.completed = true
      ∧ s.files (dbPath "m") = some ((appendingCrypto.seal anyNonces [1, 2]).take 30)
      ∧ ¬ Along (SealState.step "m" appendingCrypto) (CrashSafe "m" appendingCrypto) .fresh retryCrash := by
  refine ⟨by decide +kernel, by decide +kernel, fun h => ?_⟩
  have himage : recovered "m" (retryCrash.foldl (SealState.step "m" appendingCrypto) .fresh).files
      = some ((appendingCrypto.seal anyNonces [1, 2]).take 30) := by decide +kernel
  obtain ⟨nonce, plain, -, -, hopen⟩ := h.last.2 _ himage
  have hbad : appendingCrypto.unseal ((appendingCrypto.seal anyNonces [1, 2]).take 30)
      = .error (.crypto "encrypted blob truncated") := by decide +kernel
  rw [hbad] at hopen
  cases hopen

end Lost

end MatterCore
