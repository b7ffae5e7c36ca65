import PstDedupe.PstDedupCli.AttachProbe

/-!
# Seeded and live probing

A pass with a seeded cache and a pass with an empty one are run side by side.
-/

namespace PstDedupCli

open DedupEngine List
open Rust (HashMap RandomState)
open PstReader (satAdd u64Max)

variable {env : ProbeEnv} {path : String} {msgNid : Nat} {att : ListedAttach} {bytes : Nat}
  {key : CacheKey} {e : CacheEntry} {cache : ProbeResultCache}

theorem discard_clean {r : AttachReader} (hclean : r.failure = none) {maxBytes n : Nat}
    (hmax : n ≤ maxBytes) (hlen : n ≤ r.length) : r.discard maxBytes n = (min maxBytes r.length, none) := by
  rw [AttachReader.discard]
  split
  case isFalse h => rw [min_eq_left (by omega), show n = maxBytes by omega]
  case isTrue h =>
    split
    case isFalse h' => rw [hclean, min_eq_right (by omega), show n = r.length by omega]
    case isTrue h' =>
      have hpos := r.chunk_pos n (min (maxBytes - n) discardChunk) h' (by unfold discardChunk; omega)
      have hle := r.chunk_le n (min (maxBytes - n) discardChunk)
      exact discard_clean hclean (by omega) (by omega)
  termination_by maxBytes - n

theorem digest_eq_some {r : AttachReader} {n bytes : Nat} (hlen : n ≤ r.length)
    (h : r.digest n = some bytes) : bytes = r.length ∧ r.failure = none := by
  rw [AttachReader.digest] at h
  split at h
  case isTrue hmore =>
    have hpos := r.chunk_pos n discardChunk hmore (by decide)
    have hle := r.chunk_le n discardChunk
    exact digest_eq_some (by omega) h
  case isFalse hend =>
    split at h
    · rename_i hclean
      obtain rfl := Option.some.inj h
      exact ⟨by omega, hclean⟩
    · cases h
  termination_by r.length - n

def CleanAt (env : ProbeEnv) (key : CacheKey) (bytes : Nat) : Prop :=
  ∃ reader, env.openAttachment key.path key.msgNid key.attachNid = .ok reader ∧
    reader.failure = none ∧ reader.length = bytes ∧ ∀ n ≤ bytes, reader.crcSuspect n = false

theorem cleanAt_of_realDigest {reader : AttachReader}
    (hopen : env.openAttachment path msgNid att.nid = .ok reader)
    (h : reader.realDigest att.size = some bytes) :
    CleanAt env (env.cacheKey path msgNid att) bytes := by
  unfold AttachReader.realDigest at h
  split at h
  · cases h
  rename_i n hdigest
  split at h
  · cases h
  rename_i hcrc
  split at h
  · cases h
  obtain rfl := Option.some.inj h
  obtain ⟨hlen, hfail⟩ := digest_eq_some (Nat.zero_le _) hdigest
  refine ⟨reader, hopen, hfail, hlen.symm, fun k hk => ?_⟩
  cases hk' : reader.crcSuspect k with
  | false => rfl
  | true => exact absurd (reader.crc_mono k n hk hk') hcrc

theorem probeAttachStream_clean (h : CleanAt env (env.cacheKey path msgNid att) bytes) (led : ProbeLedger) :
    probeAttachStream env path msgNid att.nid led.level led.budgets.perAttachMaxBytes led.bytesLeft
      = ⟨true, none, led.logicalProbeChargeBytes bytes, false, led.level⟩ := by
  obtain ⟨reader, hopen, hfail, hlen, hcrc⟩ := h
  have hopen : env.openAttachment path msgNid att.nid = .ok reader := hopen
  have hread (maxBytes : Nat) : reader.discard maxBytes 0 = (min maxBytes bytes, none) := by
    rw [discard_clean hfail (Nat.zero_le _) (Nat.zero_le _), hlen]
  unfold probeAttachStream ProbeLedger.logicalProbeChargeBytes
  rw [hopen]
  cases led.level with
  | metaOnly => rfl
  | openOnly => simp [hcrc 0 (Nat.zero_le _)]
  | head =>
    simp only [hread]
    rw [hcrc _ (min_le_right _ _)]
    simp [min_comm, min_left_comm]
  | full =>
    simp only [hread]
    rw [hcrc _ (min_le_right _ _)]
    simp [min_comm]

/-- What `insertEntry` leaves under the key it writes. -/
def written (existing : Option CacheEntry) (entry : CacheEntry) : CacheEntry :=
  match existing with
  | none => entry
  | some existing =>
    if existing.level.rank > entry.level.rank then existing
    else if existing.level = entry.level ∧ existing.ok = false then existing
    else entry

theorem get_insertEntry (cache : ProbeResultCache) (key key' : CacheKey) (entry : CacheEntry) :
    (cache.insertEntry key entry).get key'
      = if key' = key then some (written (cache.get key) entry) else cache.get key' := by
  unfold ProbeResultCache.insertEntry written
  cases hget : cache.get key with
  | none => exact HashMap.get_insert cache key key' entry
  | some existing =>
    have hkept : cache.get key' = if key' = key then some existing else cache.get key' := by
      split
      · rename_i h
        rw [h, hget]
      · rfl
    dsimp only
    split
    · exact hkept
    split
    · exact hkept
    · exact HashMap.get_insert cache key key' entry

def seedEntry (bytes : Nat) (chargePending : Bool) : CacheEntry :=
  ⟨.full, true, none, bytes, chargePending⟩

theorem seedOne_cases (env : ProbeEnv) (cache : ProbeResultCache) (seed : Seed) :
    seedOne env cache seed = cache ∨ ∃ bytes, seedOne env cache seed
          = cache.insertEntry (env.cacheKey seed.path seed.msgNid seed.att) (seedEntry bytes true) ∧
        CleanAt env (env.cacheKey seed.path seed.msgNid seed.att) bytes ∧
        digestSeedEligible seed.att.attachMethod = true := by
  unfold seedOne
  split
  · exact .inl rfl
  rename_i reader hopen
  split
  · exact .inl rfl
  rename_i bytes hdigest
  split
  · rename_i helig
    exact .inr ⟨bytes, rfl, cleanAt_of_realDigest hopen hdigest, helig⟩
  · exact .inl rfl

theorem get_seedCache {seeds : List Seed} (h : (seedCache env seeds).get key = some e) :
    (∃ bytes, e = seedEntry bytes true ∧ CleanAt env key bytes) ∧
      ∃ seed ∈ seeds, digestSeedEligible seed.att.attachMethod = true ∧
        key = env.cacheKey seed.path seed.msgNid seed.att := by
  unfold seedCache at h
  induction seeds using reverseRecOn generalizing e with
  | nil => simp at h
  | append_singleton seeds seed ih =>
    rw [foldl_append, foldl_cons, foldl_nil] at h
    have hkeep (h : (seeds.foldl (seedOne env) ∅).get key = some e) :
        (∃ bytes, e = seedEntry bytes true ∧ CleanAt env key bytes) ∧
          ∃ s ∈ seeds ++ [seed], digestSeedEligible s.att.attachMethod = true ∧
            key = env.cacheKey s.path s.msgNid s.att := by
      obtain ⟨hentry, s, hs, helig, hkey⟩ := ih h
      exact ⟨hentry, s, mem_append_left _ hs, helig, hkey⟩
    rcases seedOne_cases env (seeds.foldl (seedOne env) ∅) seed with hsame | ⟨bytes, hone, hclean, helig⟩
    · rw [hsame] at h
      exact hkeep h
    rw [hone, get_insertEntry] at h
    split at h
    case isFalse => exact hkeep h
    case isTrue hkey =>
      have hseed : ∃ s ∈ seeds ++ [seed], digestSeedEligible s.att.attachMethod = true ∧
          key = env.cacheKey s.path s.msgNid s.att :=
        ⟨seed, mem_append_right _ (mem_singleton_self _), helig, hkey⟩
      rw [← hkey] at hclean h
      refine ⟨⟨bytes, ?_, hclean⟩, hseed⟩
      obtain rfl := Option.some.inj h
      -- either nothing was there, or a seed that the new one replaces
      cases hold : (seeds.foldl (seedOne env) ∅).get key with
      | none => rfl
      | some existing =>
        obtain ⟨⟨b, rfl, -⟩, -⟩ := ih hold
        simp [written, seedEntry]

/-- How the entries of one key relate: the same, a seed nobody used yet, or a seed that was charged
where the live pass read the attachment. -/
inductive EntryRel (env : ProbeEnv) (seeds : List Seed) (level : ProbeLevel) (key : CacheKey) :
    Option CacheEntry → Option CacheEntry → Prop where
  | same (e : Option CacheEntry) : EntryRel env seeds level key e e
  | fresh {bytes : Nat} (hclean : CleanAt env key bytes)
      (hseed : (seedCache env seeds).get key = some (seedEntry bytes true)) :
      EntryRel env seeds level key none (some (seedEntry bytes true))
  | used {bytes charged : Nat} (hseed : (seedCache env seeds).get key = some (seedEntry bytes true)) :
      EntryRel env seeds level key (some ⟨level, true, none, charged, false⟩)
        (some (seedEntry bytes false))

def CacheRel (env : ProbeEnv) (seeds : List Seed) (level : ProbeLevel)
    (live seeded : ProbeResultCache) : Prop :=
  ∀ key, EntryRel env seeds level key (live.get key) (seeded.get key)

theorem cacheRel_start (env : ProbeEnv) (seeds : List Seed) (level : ProbeLevel) :
    CacheRel env seeds level ∅ (seedCache env seeds) := by
  intro key
  rw [HashMap.get_empty]
  cases hget : (seedCache env seeds).get key with
  | none => exact .same none
  | some e =>
    obtain ⟨⟨bytes, rfl, hclean⟩, -⟩ := get_seedCache hget
    exact .fresh hclean hget

variable {env : ProbeEnv} {seeds : List Seed} {level : ProbeLevel} {live seeded : ProbeResultCache}

theorem CacheRel.update (h : CacheRel env seeds level live seeded) {live' seeded' : ProbeResultCache}
    (key : CacheKey) (hkey : EntryRel env seeds level key (live'.get key) (seeded'.get key))
    (hlive : ∀ k ≠ key, live'.get k = live.get k) (hseeded : ∀ k ≠ key, seeded'.get k = seeded.get k) :
    CacheRel env seeds level live' seeded' := by
  intro k
  by_cases hk : k = key
  · rw [hk]
    exact hkey
  · rw [hlive k hk, hseeded k hk]
    exact h k

theorem get_insertEntry_ne {key k : CacheKey} {entry : CacheEntry}
    (h : k ≠ key) : (cache.insertEntry key entry).get k = cache.get k := by
  rw [get_insertEntry, if_neg h]

theorem CacheRel.insert_same (h : CacheRel env seeds level live seeded)
    (hsame : live.get key = seeded.get key) (o : ProbeOutcome) :
    CacheRel env seeds level (live.insertOutcome key o) (seeded.insertOutcome key o) := by
  refine h.update key ?_ (fun k hk => get_insertEntry_ne hk) fun k hk => get_insertEntry_ne hk
  unfold ProbeResultCache.insertOutcome
  rw [get_insertEntry, get_insertEntry, if_pos rfl, if_pos rfl, hsame]
  exact .same _

structure EngineRel (env : ProbeEnv) (seeds : List Seed) (level : ProbeLevel)
    (live seeded : AttachProbeEngine) : Prop where
  ledger : live.ledger = seeded.ledger
  level_eq : seeded.ledger.level = level
  cache : CacheRel env seeds level live.cache seeded.cache

theorem level_recordAttempt (led : ProbeLedger) (o : ProbeOutcome) :
    (led.recordAttempt o).level = led.level := by
  unfold ProbeLedger.recordAttempt
  split
  · rfl
  · dsimp only
    split
    · split <;> rfl
    · split <;> rfl

theorem recordAttempt_congr (led : ProbeLedger) (bytes : Nat) (a b : ProbeLevel) :
    led.recordAttempt ⟨true, none, bytes, false, a⟩ = led.recordAttempt ⟨true, none, bytes, false, b⟩ :=
  rfl

variable {l s : AttachProbeEngine}

theorem EngineRel.recordAttempt (h : EngineRel env seeds level l s) (o : ProbeOutcome) :
    EngineRel env seeds level (l.recordAttempt o) (s.recordAttempt o) where
  ledger := congrArg (ProbeLedger.recordAttempt · o) h.ledger
  level_eq := (level_recordAttempt _ o).trans h.level_eq
  cache := h.cache

theorem EngineRel.noteGlobalStop (h : EngineRel env seeds level l s) :
    EngineRel env seeds level l.noteGlobalStop s.noteGlobalStop where
  ledger := congrArg ProbeLedger.noteGlobalStop h.ledger
  level_eq := h.level_eq
  cache := h.cache

/-- Two answers of `probe_attach`: what a pass reads off the outcome is the same, and the engines
stay related. -/
structure StepRel (env : ProbeEnv) (seeds : List Seed) (level : ProbeLevel)
    (live seeded : ProbeOutcome × AttachProbeEngine) : Prop where
  ok : live.1.ok = seeded.1.ok
  reason : live.1.reason = seeded.1.reason
  engine : EngineRel env seeds level live.2 seeded.2

def NoSeedBehindGate (env : ProbeEnv) (seeds : List Seed) (path : String) (msgNid : Nat)
    (att : ListedAttach) : Prop :=
  AttachProbeEngine.methodUnsupported att.attachMethod = true →
    (seedCache env seeds).get (env.cacheKey path msgNid att) = none

theorem CacheRel.same_of_no_seed (h : CacheRel env seeds level live seeded)
    (hnone : (seedCache env seeds).get key = none) : live.get key = seeded.get key := by
  generalize hlive : live.get key = a, hseeded : seeded.get key = b
  have hrel : EntryRel env seeds level key a b := hlive ▸ hseeded ▸ h key
  cases hrel with
  | same => rfl
  | fresh _ hseed => rw [hnone] at hseed; cases hseed
  | used hseed => rw [hnone] at hseed; cases hseed

def liveOutcome (env : ProbeEnv) (led : ProbeLedger) (path : String) (msgNid : Nat)
    (att : ListedAttach) : ProbeOutcome :=
  match env.openPst path with
  | .error reason => .failed reason led.level
  | .ok () =>
    probeAttachStream env path msgNid att.nid led.level led.budgets.perAttachMaxBytes led.bytesLeft

theorem probeLive_eq (engine : AttachProbeEngine) (path : String) (msgNid : Nat)
    (att : ListedAttach) : engine.probeLive env path msgNid att
      = (liveOutcome env engine.ledger path msgNid att,
          if (liveOutcome env engine.ledger path msgNid att).reason ≠ some .attachProbeTruncated then
            (engine.recordAttempt (liveOutcome env engine.ledger path msgNid att)).insertOutcome
              (env.cacheKey path msgNid att) (liveOutcome env engine.ledger path msgNid att)
          else engine.recordAttempt (liveOutcome env engine.ledger path msgNid att)) := by
  unfold AttachProbeEngine.probeLive
  show (if (liveOutcome env engine.ledger path msgNid att).reason ≠ some .attachProbeTruncated then _
    else _) = _
  split
  · rfl
  · rfl

theorem EngineRel.insert_same (h : EngineRel env seeds level l s)
    (hsame : l.cache.get key = s.cache.get key) (o : ProbeOutcome) :
    EngineRel env seeds level (l.insertOutcome key o) (s.insertOutcome key o) where
  ledger := h.ledger
  level_eq := h.level_eq
  cache := h.cache.insert_same hsame o

theorem probeLive_simulates (h : EngineRel env seeds level l s)
    (hsame : l.cache.get (env.cacheKey path msgNid att) = s.cache.get (env.cacheKey path msgNid att)) :
    StepRel env seeds level (l.probeLive env path msgNid att) (s.probeLive env path msgNid att) := by
  rw [probeLive_eq, probeLive_eq, h.ledger]
  refine ⟨rfl, rfl, ?_⟩
  dsimp only
  split
  · exact (h.recordAttempt _).insert_same hsame _
  · exact h.recordAttempt _

theorem rank_le_full (level : ProbeLevel) : level.rank ≤ ProbeLevel.full.rank := by
  cases level <;> decide

theorem lookup_seed {pending : Bool} (hget : cache.get key = some (seedEntry bytes pending))
    (level : ProbeLevel) :
    cache.lookup key level = some ⟨true, none, bytes, false, .full⟩ := by
  unfold ProbeResultCache.lookup
  rw [hget]
  exact if_neg (by have := rank_le_full level; show ¬ ProbeLevel.full.rank < level.rank; omega)

theorem takeChargePending_eq
    {level : ProbeLevel} (hget : cache.get key = some e) (hrank : ¬ e.level.rank < level.rank) :
    cache.takeChargePending key level
      = (e.chargePending,
          if e.chargePending then AList.insert key { e with chargePending := false } cache else cache) := by
  unfold ProbeResultCache.takeChargePending
  rw [hget]
  dsimp only
  rw [if_neg hrank]
  cases e.chargePending <;> rfl

theorem probeHit_charged {engine : AttachProbeEngine} {hit : ProbeOutcome}
    (hget : engine.cache.get key = some e) (hrank : ¬ e.level.rank < engine.ledger.level.rank)
    (hpending : e.chargePending = false) :
    engine.probeHit key hit = (hit, engine) := by
  unfold AttachProbeEngine.probeHit
  rw [takeChargePending_eq hget hrank, hpending]
  rfl

theorem probeHit_pending {engine : AttachProbeEngine} {hit : ProbeOutcome}
    (hget : engine.cache.get key = some e) (hrank : ¬ e.level.rank < engine.ledger.level.rank)
    (hpending : e.chargePending = true) :
    engine.probeHit key hit
      = ({ hit with bytesRead := engine.ledger.logicalProbeChargeBytes hit.bytesRead },
          { ledger := engine.ledger.recordAttempt
              { hit with bytesRead := engine.ledger.logicalProbeChargeBytes hit.bytesRead }
            cache := AList.insert key { e with chargePending := false } engine.cache
            digestStreamSkips := satAdd engine.digestStreamSkips 1 }) := by
  unfold AttachProbeEngine.probeHit
  rw [takeChargePending_eq hget hrank, hpending]
  rfl

theorem probeHit_same (h : EngineRel env seeds level l s)
    (hl : l.cache.get key = some e) (hs : s.cache.get key = some e) (hrank : ¬ e.level.rank < level.rank)
    (hit : ProbeOutcome) : StepRel env seeds level (l.probeHit key hit) (s.probeHit key hit) := by
  have hranks : ¬ e.level.rank < s.ledger.level.rank := h.level_eq.symm ▸ hrank
  have hrankl : ¬ e.level.rank < l.ledger.level.rank := h.ledger.symm ▸ hranks
  cases hpending : e.chargePending with
  | false =>
    rw [probeHit_charged hl hrankl hpending, probeHit_charged hs hranks hpending]
    exact ⟨rfl, rfl, h⟩
  | true =>
    rw [probeHit_pending hl hrankl hpending, probeHit_pending hs hranks hpending, h.ledger]
    refine ⟨rfl, rfl, rfl, (level_recordAttempt _ _).trans h.level_eq, ?_⟩
    refine h.cache.update key ?_ (fun k hk => ?_) fun k hk => ?_
    · rw [HashMap.get_insert, HashMap.get_insert, if_pos rfl, if_pos rfl]
      exact .same _
    · rw [HashMap.get_insert, if_neg hk]
    · rw [HashMap.get_insert, if_neg hk]

theorem probeHit_fresh (h : EngineRel env seeds level l s) (hopen : env.openPst path = .ok ())
    (hclean : CleanAt env (env.cacheKey path msgNid att) bytes)
    (hseed : (seedCache env seeds).get (env.cacheKey path msgNid att) = some (seedEntry bytes true))
    (hl : l.cache.get (env.cacheKey path msgNid att) = none)
    (hs : s.cache.get (env.cacheKey path msgNid att) = some (seedEntry bytes true)) :
    StepRel env seeds level (l.probeLive env path msgNid att)
      (s.probeHit (env.cacheKey path msgNid att) ⟨true, none, bytes, false, .full⟩) := by
  have hrank : ¬ (seedEntry bytes true).level.rank < s.ledger.level.rank := by
    have := rank_le_full s.ledger.level
    show ¬ ProbeLevel.full.rank < s.ledger.level.rank
    omega
  have hlive : liveOutcome env l.ledger path msgNid att
      = ⟨true, none, s.ledger.logicalProbeChargeBytes bytes, false, level⟩ := by
    unfold liveOutcome
    rw [hopen, h.ledger]
    exact (probeAttachStream_clean hclean s.ledger).trans (by rw [h.level_eq])
  rw [probeHit_pending hs hrank rfl, probeLive_eq, hlive, if_pos (Option.some_ne_none _).symm]
  refine ⟨rfl, rfl, ?_, (level_recordAttempt _ _).trans h.level_eq, ?_⟩
  · have hled := congrArg (ProbeLedger.recordAttempt ·
      ⟨true, none, s.ledger.logicalProbeChargeBytes bytes, false, level⟩) h.ledger
    exact hled.trans (recordAttempt_congr s.ledger _ level .full)
  refine h.cache.update (env.cacheKey path msgNid att) ?_ (fun k hk => ?_) fun k hk => ?_
  · show EntryRel env seeds level _ ((l.cache.insertEntry _ _).get _) _
    rw [get_insertEntry, if_pos rfl, HashMap.get_insert, if_pos rfl, hl]
    exact .used hseed
  · exact get_insertEntry_ne hk
  · rw [HashMap.get_insert, if_neg hk]

theorem probeHit_used (h : EngineRel env seeds level l s) {bytes charged : Nat}
    (hl : l.cache.get key = some ⟨level, true, none, charged, false⟩)
    (hs : s.cache.get key = some (seedEntry bytes false)) :
    StepRel env seeds level (l.probeHit key ⟨true, none, charged, false, level⟩)
      (s.probeHit key ⟨true, none, bytes, false, .full⟩) := by
  have hrankl : ¬ level.rank < l.ledger.level.rank := by
    rw [h.ledger, h.level_eq]
    omega
  have hranks : ¬ (seedEntry bytes false).level.rank < s.ledger.level.rank := by
    have := rank_le_full s.ledger.level
    show ¬ ProbeLevel.full.rank < s.ledger.level.rank
    omega
  rw [probeHit_charged hl hrankl rfl, probeHit_charged hs hranks rfl]
  exact ⟨rfl, rfl, h⟩

theorem lookup_none (hget : cache.get key = none) (level : ProbeLevel) : cache.lookup key level = none := by
  unfold ProbeResultCache.lookup
  rw [hget]

def lookupOrLive (env : ProbeEnv) (engine : AttachProbeEngine) (path : String) (msgNid : Nat)
    (att : ListedAttach) : ProbeOutcome × AttachProbeEngine :=
  match engine.cache.lookup (env.cacheKey path msgNid att) engine.ledger.level with
  | some hit => engine.probeHit (env.cacheKey path msgNid att) hit
  | none => engine.probeLive env path msgNid att

theorem lookupOrLive_simulates (h : EngineRel env seeds level l s) (hopen : env.openPst path = .ok ()) :
    StepRel env seeds level (lookupOrLive env l path msgNid att) (lookupOrLive env s path msgNid att) := by
  generalize hl : l.cache.get (env.cacheKey path msgNid att) = a,
    hs : s.cache.get (env.cacheKey path msgNid att) = b
  have hrel : EntryRel env seeds level (env.cacheKey path msgNid att) a b := hl ▸ hs ▸ h.cache _
  unfold lookupOrLive
  rw [h.ledger, h.level_eq]
  cases hrel with
  | same =>
    cases a with
    | none =>
      rw [lookup_none hl, lookup_none hs]
      exact probeLive_simulates h (hl.trans hs.symm)
    | some e =>
      by_cases hrank : e.level.rank < level.rank
      · -- an entry of a lower level is read over
        have hmiss {cache : ProbeResultCache}
            (hget : cache.get (env.cacheKey path msgNid att) = some e) :
            cache.lookup (env.cacheKey path msgNid att) level = none := by
          unfold ProbeResultCache.lookup
          rw [hget]
          exact if_pos hrank
        rw [hmiss hl, hmiss hs]
        exact probeLive_simulates h (hl.trans hs.symm)
      · have hhit {cache : ProbeResultCache}
            (hget : cache.get (env.cacheKey path msgNid att) = some e) :
            cache.lookup (env.cacheKey path msgNid att) level
              = some ⟨e.ok, e.reason, e.bytesRead, false, e.level⟩ := by
          unfold ProbeResultCache.lookup
          rw [hget]
          exact if_neg hrank
        rw [hhit hl, hhit hs]
        exact probeHit_same h hl hs hrank _
  | fresh hclean hseed =>
    rw [lookup_none hl, lookup_seed hs]
    exact probeHit_fresh h hopen hclean hseed hl hs
  | @used bytes charged hseed =>
    have hlive : l.cache.lookup (env.cacheKey path msgNid att) level
        = some ⟨true, none, charged, false, level⟩ := by
      unfold ProbeResultCache.lookup
      rw [hl]
      exact if_neg (by show ¬ level.rank < level.rank; omega)
    rw [hlive, lookup_seed hs]
    exact probeHit_used h hl hs

theorem probeAttach_simulates (h : EngineRel env seeds level l s)
    (hopen : env.openPst path = .ok ()) (hgate : NoSeedBehindGate env seeds path msgNid att) :
    StepRel env seeds level (l.probeAttach env path msgNid att) (s.probeAttach env path msgNid att) := by
  unfold AttachProbeEngine.probeAttach
  rw [h.ledger]
  split
  · exact ⟨rfl, rfl, h.noteGlobalStop⟩
  split
  · rename_i hunsupported
    refine ⟨rfl, rfl, (h.recordAttempt _).insert_same ?_ _⟩
    exact h.cache.same_of_no_seed (hgate hunsupported)
  split
  · exact ⟨rfl, rfl, h.recordAttempt _⟩
  · have hstep : StepRel env seeds level (lookupOrLive env l path msgNid att)
        (lookupOrLive env s path msgNid att) := lookupOrLive_simulates h hopen
    unfold lookupOrLive at hstep
    rw [h.ledger] at hstep
    exact hstep

end PstDedupCli
