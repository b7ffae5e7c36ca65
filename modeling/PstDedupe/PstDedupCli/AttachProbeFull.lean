import PstDedupe.Foundations.GuardedRuns
import PstDedupe.PstDedupCli.AttachProbePasses

/-!
# What a full probe proves

The read loop of `probe_attach_stream` ends at the end of the stream, at an error, at the deadline,
when the pass is cancelled, or when the byte budget is used up. The mark `cancelled` of the summary
is left out.
-/

namespace PstDedupCli

open Foundations DedupEngine
open Rust (HashMap RandomState)
open PstReader (satAdd u64Max)

/-- What a round of the read loop sees: the deadline before the read, the cancel flag, the deadline
after the read. -/
structure Tick where
  expired : Bool := false
  cancelled : Bool := false
  expiredAfter : Bool := false

inductive DiscardEnd where
  | done
  | failed (reason : IntegrityReason)
  | timeout
  | cancelled

/-- The read loop of `probe_attach_stream`, with its clock. -/
def AttachReader.discardUnder (r : AttachReader) (rounds : Nat → Tick)
    (maxBytes round bytesRead : Nat) : Nat × DiscardEnd :=
  if _ : bytesRead < maxBytes then
    if (rounds round).expired then (bytesRead, .timeout)
    else if (rounds round).cancelled then (bytesRead, .cancelled)
    else if _ : bytesRead < r.length then
      let bytesRead' := bytesRead + r.chunk bytesRead (min (maxBytes - bytesRead) discardChunk)
      if (rounds round).expiredAfter then (bytesRead', .timeout)
      else r.discardUnder rounds maxBytes (round + 1) bytesRead'
    else
      match r.failure with
      | none => (bytesRead, .done)
      | some reason => (bytesRead, .failed reason)
  else (bytesRead, .done)
  termination_by maxBytes - bytesRead
  decreasing_by
    have hpos := r.chunk_pos bytesRead (min (maxBytes - bytesRead) discardChunk)
      ‹bytesRead < r.length› (by unfold discardChunk; omega)
    omega

structure CallClock where
  cancelled : Bool := false
  expired : Bool := false
  expiredBeforeOpen : Bool := false
  expiredAfterOpen : Bool := false
  rounds : Nat → Tick := fun _ => {}
  /-- `recv_timeout` gives up on the worker. -/
  abandoned : Bool := false
  cancelledAfter : Bool := false
  stays : ∀ round, (rounds round).cancelled = true → cancelledAfter = true

def ProbeOutcome.timeout (level : ProbeLevel) (bytesRead : Nat) : ProbeOutcome :=
  ⟨false, some .attachProbeTimeout, bytesRead, true, level⟩

def probeAttachStreamUnder (env : ProbeEnv) (clock : CallClock) (path : String) (msgNid attachNid : Nat)
    (level : ProbeLevel) (perAttachMaxBytes globalBytesLeft : Nat) : ProbeOutcome :=
  if level = .metaOnly then ⟨true, none, 0, false, level⟩
  else if clock.expiredBeforeOpen then .timeout level 0
  else
    match env.openAttachment path msgNid attachNid with
    | .error reason => .failed reason level
    | .ok reader =>
      if clock.expiredAfterOpen then .timeout level 0
      else if level = .openOnly then
        ⟨true, if reader.crcSuspect 0 then some .crcSuspect else none, 0, false, level⟩
      else
        let maxBytes :=
          match level with
          | .head => min perAttachMaxBytes globalBytesLeft
          | .full => globalBytesLeft
          | _ => 0
        let (bytesRead, stop) := reader.discardUnder clock.rounds maxBytes 0 0
        match stop with
        | .timeout => .timeout level bytesRead
        | .cancelled => ⟨true, none, bytesRead, false, level⟩
        | .failed reason => ⟨false, some reason, bytesRead, false, level⟩
        | .done =>
          ⟨true, if reader.crcSuspect bytesRead then some .crcSuspect else none, bytesRead, false, level⟩

structure ProbeCall where
  clock : CallClock
  path : String
  msgNid : Nat
  att : ListedAttach

def ProbeLedger.cancelled (led : ProbeLedger) : ProbeLedger :=
  { led with tallies := { led.tallies with truncated := true }.raiseReason "cancel" }

def ProbeLedger.chargeCancelled (led : ProbeLedger) (bytesRead : Nat) : ProbeLedger :=
  { led with
    bytesLeft := led.bytesLeft - bytesRead
    tallies := { led.tallies with bytes := satAdd led.tallies.bytes bytesRead } }

namespace AttachProbeEngine

variable (env : ProbeEnv) (engine : AttachProbeEngine) (call : ProbeCall)

def liveOutcomeUnder : ProbeOutcome :=
  match env.openPst call.path with
  | .error reason => .failed reason engine.ledger.level
  | .ok () =>
    if call.clock.abandoned then .timeout engine.ledger.level 0
    else
      probeAttachStreamUnder env call.clock call.path call.msgNid call.att.nid engine.ledger.level
        engine.ledger.budgets.perAttachMaxBytes engine.ledger.bytesLeft

def probeLiveUnder : ProbeOutcome × AttachProbeEngine :=
  let outcome := engine.liveOutcomeUnder env call
  if call.clock.cancelledAfter then
    (⟨true, none, outcome.bytesRead, false, engine.ledger.level⟩,
      { engine with ledger := (engine.ledger.chargeCancelled outcome.bytesRead).cancelled })
  else
    let recorded := engine.recordAttempt outcome
    if outcome.reason ≠ some .attachProbeTruncated then
      (outcome, recorded.insertOutcome (env.cacheKey call.path call.msgNid call.att) outcome)
    else (outcome, recorded)

def probeAttachUnder : ProbeOutcome × AttachProbeEngine :=
  if call.clock.cancelled then
    (⟨true, none, 0, false, engine.ledger.level⟩, { engine with ledger := engine.ledger.cancelled })
  else if engine.ledger.budgetExhausted then
    (.failed .attachProbeTruncated engine.ledger.level, engine.noteGlobalStop)
  else if methodUnsupported call.att.attachMethod then
    let outcome := .failed .attachMethodUnsupported engine.ledger.level
    (outcome, (engine.recordAttempt outcome).insertOutcome
      (env.cacheKey call.path call.msgNid call.att) outcome)
  else if call.clock.expired ∨ engine.ledger.budgets.maxProbeTimeMs = 0 then
    (.timeout engine.ledger.level 0, engine.recordAttempt (.timeout engine.ledger.level 0))
  else
    match engine.cache.lookup (env.cacheKey call.path call.msgNid call.att) engine.ledger.level with
    | some hit => engine.probeHit (env.cacheKey call.path call.msgNid call.att) hit
    | none => engine.probeLiveUnder env call

def step (env : ProbeEnv) (engine : AttachProbeEngine) (call : ProbeCall) : AttachProbeEngine :=
  (engine.probeAttachUnder env call).2

end AttachProbeEngine

def Readable (env : ProbeEnv) (path : String) (msgNid attachNid : Nat) : Prop :=
  ∃ reader, env.openAttachment path msgNid attachNid = .ok reader ∧ reader.failure = none

/-- A full probe that is ok and not cancelled has read the stream to its end, without error. -/
def FullProbeSound (env : ProbeEnv) (path : String)
    (msgNid attachNid perAttachMaxBytes globalBytesLeft : Nat) : Prop :=
  ∀ clock : CallClock, clock.cancelledAfter = false →
    let outcome :=
      probeAttachStreamUnder env clock path msgNid attachNid .full perAttachMaxBytes globalBytesLeft
    outcome.ok = true → ∃ reader, env.openAttachment path msgNid attachNid = .ok reader ∧
      reader.failure = none ∧ outcome.bytesRead = reader.length

/-- The budget reaches behind the end of the stream, or just to it when no error is there. -/
def AttachReader.WithinBudget (r : AttachReader) (globalBytesLeft : Nat) : Prop :=
  r.length < globalBytesLeft ∨ (r.length = globalBytesLeft ∧ r.failure = none)

/-- What the cache calls fully read can be read. -/
def CacheSound (env : ProbeEnv) (cache : ProbeResultCache) : Prop :=
  ∀ key e, cache.get key = some e → e.level = .full → e.ok = true →
    Readable env key.path key.msgNid key.attachNid

/-- A call that reads a stream at the highest level has the budget for it. -/
def CallWithinBudget (env : ProbeEnv) (engine : AttachProbeEngine) (call : ProbeCall) : Prop :=
  engine.ledger.level = .full → ∀ reader, env.openAttachment call.path call.msgNid call.att.nid = .ok reader →
    reader.WithinBudget engine.ledger.bytesLeft

section Loop

variable {r : AttachReader} {rounds : Nat → Tick} {maxBytes m : Nat}

theorem discardUnder_done {round n : Nat} (hmax : n ≤ maxBytes) (hlen : n ≤ r.length)
    (h : r.discardUnder rounds maxBytes round n = (m, .done)) :
    m = min maxBytes r.length ∧ (r.length < maxBytes → r.failure = none) := by
  rw [AttachReader.discardUnder] at h
  split at h
  case isFalse hfull =>
    cases h
    omega
  case isTrue hmore =>
    split at h
    · cases h
    split at h
    · cases h
    split at h
    case isFalse hend =>
      split at h
      · next hclean =>
        cases h
        exact ⟨by omega, fun _ => hclean⟩
      · cases h
    case isTrue hleft =>
      -- a read stays within the budget and the stream
      have hpos := r.chunk_pos n (min (maxBytes - n) discardChunk) hleft (by unfold discardChunk; omega)
      have hle := r.chunk_le n (min (maxBytes - n) discardChunk)
      dsimp only at h
      split at h
      · cases h
      · exact discardUnder_done (by omega) (by omega) h
  termination_by maxBytes - n

theorem discardUnder_cancelled {round n : Nat} (hclear : ∀ i, (rounds i).cancelled = false) :
    r.discardUnder rounds maxBytes round n ≠ (m, .cancelled) := by
  intro h
  rw [AttachReader.discardUnder] at h
  split at h
  · split at h
    · cases h
    rw [hclear, if_neg nofun] at h
    split at h
    case isFalse =>
      split at h <;> cases h
    case isTrue hleft =>
      have hpos := r.chunk_pos n (min (maxBytes - n) discardChunk) hleft (by unfold discardChunk; omega)
      dsimp only at h
      split at h
      · cases h
      · exact discardUnder_cancelled hclear h
  · cases h
  termination_by maxBytes - n

theorem discardUnder_capped {round n : Nat} (hmax : n ≤ maxBytes) (hlong : maxBytes ≤ r.length) :
    r.discardUnder (fun _ => {}) maxBytes round n = (maxBytes, .done) := by
  rw [AttachReader.discardUnder]
  split
  case isFalse hfull => rw [Nat.le_antisymm hmax (Nat.le_of_not_lt hfull)]
  case isTrue hmore =>
    rw [if_neg nofun, if_neg nofun, dif_pos (by omega)]
    have hpos := r.chunk_pos n (min (maxBytes - n) discardChunk) (by omega) (by unfold discardChunk; omega)
    have hle := r.chunk_le n (min (maxBytes - n) discardChunk)
    dsimp only
    rw [if_neg nofun]
    exact discardUnder_capped (by omega) hlong
  termination_by maxBytes - n

end Loop

section Probe

variable {env : ProbeEnv} {clock : CallClock} {path : String}
  {msgNid attachNid perAttachMaxBytes globalBytesLeft : Nat}
  {reader : AttachReader} {level : ProbeLevel}

theorem level_probeAttachStreamUnder (env : ProbeEnv) (clock : CallClock) (path : String)
    (msgNid attachNid : Nat) (level : ProbeLevel) (perAttachMaxBytes globalBytesLeft : Nat) :
    (probeAttachStreamUnder env clock path msgNid attachNid level perAttachMaxBytes
      globalBytesLeft).level = level := by
  unfold probeAttachStreamUnder
  split
  · rfl
  split
  · rfl
  split
  · rfl
  split
  · rfl
  split
  · rfl
  dsimp only
  split <;> rfl

theorem full_ok (hclear : clock.cancelledAfter = false)
    (h : (probeAttachStreamUnder env clock path msgNid attachNid .full perAttachMaxBytes
      globalBytesLeft).ok = true) :
    ∃ reader bytesRead, env.openAttachment path msgNid attachNid = .ok reader ∧
      reader.discardUnder clock.rounds globalBytesLeft 0 0 = (bytesRead, .done) ∧
      (probeAttachStreamUnder env clock path msgNid attachNid .full perAttachMaxBytes
        globalBytesLeft).bytesRead
        = bytesRead := by
  have hrounds (i : Nat) : (clock.rounds i).cancelled = false := by
    cases hi : (clock.rounds i).cancelled with
    | false => rfl
    | true => exact absurd (clock.stays i hi) (by rw [hclear]; nofun)
  unfold probeAttachStreamUnder at h ⊢
  rw [if_neg nofun] at h ⊢
  split at h
  · cases h
  next hbefore =>
  rw [if_neg hbefore]
  split at h
  · cases h
  next reader hopen =>
  split at h
  · cases h
  next hopened =>
  rw [if_neg nofun] at h
  rw [hopen]
  dsimp only at h ⊢
  rw [if_neg hopened, if_neg (show ProbeLevel.full ≠ .openOnly by decide)]
  cases hloop : reader.discardUnder clock.rounds globalBytesLeft 0 0 with
  | mk bytesRead stop =>
    rw [hloop] at h
    cases stop with
    | done => exact ⟨reader, bytesRead, rfl, hloop, rfl⟩
    | failed reason => cases h
    | timeout => cases h
    | cancelled => exact absurd hloop (discardUnder_cancelled hrounds)

theorem fullProbe_reads (hclear : clock.cancelledAfter = false)
    (hbudget : ∀ reader, env.openAttachment path msgNid attachNid = .ok reader →
      reader.WithinBudget globalBytesLeft)
    (h : (probeAttachStreamUnder env clock path msgNid attachNid .full perAttachMaxBytes
      globalBytesLeft).ok = true) :
    ∃ reader, env.openAttachment path msgNid attachNid = .ok reader ∧ reader.failure = none ∧
      (probeAttachStreamUnder env clock path msgNid attachNid .full perAttachMaxBytes
        globalBytesLeft).bytesRead
        = reader.length := by
  obtain ⟨reader, bytesRead, hopen, hloop, hbytes⟩ := full_ok hclear h
  obtain ⟨hmin, hclean⟩ := discardUnder_done (Nat.zero_le _) (Nat.zero_le _) hloop
  rw [hbytes, hmin]
  obtain hlt | ⟨heq, hnone⟩ := hbudget reader hopen
  · exact ⟨reader, hopen, hclean hlt, by omega⟩
  · exact ⟨reader, hopen, hnone, by omega⟩

def calmClock : CallClock where
  stays _ h := absurd h Bool.false_ne_true

theorem fullProbeSound_iff (env : ProbeEnv) (path : String)
    (msgNid attachNid perAttachMaxBytes globalBytesLeft : Nat) :
    FullProbeSound env path msgNid attachNid perAttachMaxBytes globalBytesLeft ↔
      ∀ reader, env.openAttachment path msgNid attachNid = .ok reader →
        reader.WithinBudget globalBytesLeft := by
  constructor
  · intro hsound reader hopen
    by_contra hbeyond
    have hlong : globalBytesLeft ≤ reader.length := Nat.le_of_not_lt fun hlt => hbeyond (.inl hlt)
    -- the loop stops at the budget, and the probe is ok
    have hprobe :
        probeAttachStreamUnder env calmClock path msgNid attachNid .full perAttachMaxBytes globalBytesLeft =
          ⟨true, if reader.crcSuspect globalBytesLeft then some .crcSuspect else none,
            globalBytesLeft, false, .full⟩ := by
      unfold probeAttachStreamUnder
      rw [if_neg nofun, if_neg nofun, hopen]
      dsimp only
      rw [if_neg nofun, if_neg nofun, show reader.discardUnder calmClock.rounds globalBytesLeft 0 0 = _ from
        discardUnder_capped (Nat.zero_le _) hlong]
    obtain ⟨reader', hopen', hclean, hbytes⟩ := hsound calmClock rfl (by rw [hprobe])
    obtain rfl := Except.ok.inj (hopen.symm.trans hopen')
    rw [hprobe] at hbytes
    exact hbeyond (.inr ⟨hbytes.symm, hclean⟩)
  · exact fun hbudget clock hclear => fullProbe_reads hclear hbudget

end Probe

section Pass

variable {env : ProbeEnv} {engine : AttachProbeEngine} {call : ProbeCall} {cache : ProbeResultCache}
  {key : CacheKey}

theorem CacheSound.insertEntry (h : CacheSound env cache) {entry : CacheEntry}
    (hentry : entry.level = .full → entry.ok = true → Readable env key.path key.msgNid key.attachNid) :
    CacheSound env (cache.insertEntry key entry) := by
  intro key' e hget hlevel hok
  rw [get_insertEntry] at hget
  split at hget
  case isFalse => exact h key' e hget hlevel hok
  case isTrue hkey =>
    subst hkey
    -- the old entry stays, or the new one is there
    unfold written at hget
    split at hget
    · cases hget
      exact hentry hlevel hok
    next existing hold =>
    split at hget
    · cases hget
      exact h key' _ hold hlevel hok
    split at hget
    · cases hget
      exact h key' _ hold hlevel hok
    · cases hget
      exact hentry hlevel hok

theorem CacheSound.takeChargePending (h : CacheSound env cache) (key : CacheKey)
    (level : ProbeLevel) : CacheSound env (cache.takeChargePending key level).2 := by
  unfold ProbeResultCache.takeChargePending
  split
  · exact h
  next e hget =>
  split
  · exact h
  split
  · intro key' e' hget' hlevel hok
    rw [HashMap.get_insert] at hget'
    split at hget'
    · next hkey =>
      cases hget'
      exact hkey ▸ h key e hget hlevel hok
    · exact h key' e' hget' hlevel hok
  · exact h

theorem cacheSound_seedCache (env : ProbeEnv) (seeds : List Seed) : CacheSound env (seedCache env seeds) := by
  intro key e hget _ _
  obtain ⟨⟨bytes, -, reader, hopen, hclean, -⟩, -⟩ := get_seedCache hget
  exact ⟨reader, hopen, hclean⟩

theorem liveOutcomeUnder_readable (hclear : call.clock.cancelledAfter = false)
    (hbudget : CallWithinBudget env engine call)
    (hlevel : (engine.liveOutcomeUnder env call).level = .full)
    (hok : (engine.liveOutcomeUnder env call).ok = true) :
    Readable env call.path call.msgNid call.att.nid := by
  unfold AttachProbeEngine.liveOutcomeUnder at hlevel hok
  split at hok
  · cases hok
  split at hok
  · cases hok
  next hopen hworker =>
  rw [hopen] at hlevel
  dsimp only at hlevel
  rw [if_neg hworker, level_probeAttachStreamUnder] at hlevel
  rw [hlevel] at hok
  obtain ⟨reader, hreader, hclean, -⟩ := fullProbe_reads hclear (hbudget hlevel) hok
  exact ⟨reader, hreader, hclean⟩

theorem cacheSound_step (h : CacheSound env engine.cache)
    (hbudget : CallWithinBudget env engine call) : CacheSound env (engine.step env call).cache := by
  unfold AttachProbeEngine.step AttachProbeEngine.probeAttachUnder
  split
  · exact h
  split
  · exact h
  split
  · exact CacheSound.insertEntry h fun _ hok => nomatch hok
  split
  · exact h
  split
  · -- a hit
    unfold AttachProbeEngine.probeHit
    have hcharged := CacheSound.takeChargePending h (env.cacheKey call.path call.msgNid call.att)
      engine.ledger.level
    dsimp only
    split <;> exact hcharged
  · -- a stream
    unfold AttachProbeEngine.probeLiveUnder
    split
    · exact h
    next hclear =>
    have hclear := Bool.eq_false_iff.mpr hclear
    dsimp only
    split
    · exact CacheSound.insertEntry h (liveOutcomeUnder_readable hclear hbudget)
    · exact h

end Pass

/-- **A full probe** proves that a stream can be read exactly where the byte budget covers it, and
while every call is within the budget, so does every ok entry of the highest level. -/
theorem fullProbe_sound_iff (env : ProbeEnv) : (∀ path msgNid attachNid perAttachMaxBytes globalBytesLeft,
      FullProbeSound env path msgNid attachNid perAttachMaxBytes globalBytesLeft ↔
        ∀ reader, env.openAttachment path msgNid attachNid = .ok reader → reader.WithinBudget globalBytesLeft) ∧
    ∀ budgets level seeds calls, Guarded (AttachProbeEngine.step env) (CallWithinBudget env)
          (.withCache budgets level (seedCache env seeds)) calls →
        Along (AttachProbeEngine.step env) (fun engine => CacheSound env engine.cache)
          (.withCache budgets level (seedCache env seeds)) calls :=
  ⟨fullProbeSound_iff env, fun _ _ seeds _ hguarded =>
    Along.of_guarded (I := fun engine => CacheSound env engine.cache)
      (fun _ _ h hbudget => cacheSound_step h hbudget) (cacheSound_seedCache env seeds) hguarded⟩

def failingReader : AttachReader := { cleanReader 3 with failure := some .attachStreamReadFailed }

def failingEnv : ProbeEnv := { oneMessageEnv [] with openAttachment := fun _ _ _ => .ok failingReader }

/-- A budget of two bytes makes the failing stream an ok entry of the highest level. -/
theorem fullProbe_stops_before_failure :
    ¬(∀ env path msgNid attachNid perAttachMaxBytes globalBytesLeft,
        FullProbeSound env path msgNid attachNid perAttachMaxBytes globalBytesLeft) ∧
      ¬∀ env budgets level seeds calls,
        Along (AttachProbeEngine.step env) (fun engine => CacheSound env engine.cache)
          (.withCache budgets level (seedCache env seeds)) calls := by
  have hfailing : failingReader.failure ≠ none := by decide
  constructor
  · intro hall
    obtain ⟨reader, hopen, hclean, -⟩ := hall failingEnv "/m.pst" 36 37 8 2 calmClock rfl (by decide +kernel)
    obtain rfl := Except.ok.inj hopen
    exact hfailing hclean
  · intro hall
    have hlast := (hall failingEnv { maxProbeBytes := 2 } .full []
      [⟨calmClock, "/m.pst", 36, ⟨37, 3, some 1⟩⟩]).last
    obtain ⟨reader, hopen, hclean⟩ := hlast ⟨"/m.pst", 36, 37, 3, 0, 265⟩
      ⟨.full, true, none, 2, false⟩ (by decide +kernel) rfl rfl
    obtain rfl := Except.ok.inj hopen
    exact hfailing hclean

end PstDedupCli
