import PstDedupe.DedupEngine.Backfill
import PstDedupe.DedupEngine.Materialize
import PstDedupe.DedupEngine.Rank
import PstDedupe.PstReader.CrcScopes

/-!
# Deep attachment probe (`pst-dedup-cli/src/attach_probe.rs`)

A probe pass opens and reads the attachments of every item under global budgets. Modelled without
cancellation and progress, for a target whose `usize` holds a `u64`. The sticky handles are left
out: opening a path again gives what it gave before.
-/

namespace PstDedupCli

open DedupEngine
open Rust (HashMap RandomState)
open PstReader (satAdd u64Max)

/-! ## Levels, budgets, outcomes -/

inductive ProbeLevel where
  | metaOnly | openOnly | head | full
  deriving DecidableEq, Repr

def ProbeLevel.rank : ProbeLevel → Nat
  | metaOnly => 0
  | openOnly => 1
  | head => 2
  | full => 3

def ProbeLevel.asStr : ProbeLevel → String
  | metaOnly => "meta"
  | openOnly => "open"
  | head => "head"
  | full => "full"

structure ProbeBudgets where
  maxAttaches : Nat := 50000
  maxProbeBytes : Nat := 256 * 1024 * 1024
  perAttachMaxBytes : Nat := 1024 * 1024
  maxProbeTimeMs : Nat := 2000
  maxPeerProbesPerGroup : Nat := 3

structure ProbeOutcome where
  ok : Bool
  reason : Option IntegrityReason
  bytesRead : Nat
  timedOut : Bool
  level : ProbeLevel
  deriving DecidableEq, Repr

def attachByValue : Int := 1
def attachEmbeddedMsg : Int := 5

def ProbeOutcome.failed (reason : IntegrityReason) (level : ProbeLevel) : ProbeOutcome :=
  ⟨false, some reason, 0, false, level⟩

def discardChunk : Nat := 64 * 1024

structure AttachReader where
  length : Nat
  failure : Option IntegrityReason
  chunk : Nat → Nat → Nat
  /-- `crc_suspect` once so many bytes are read. -/
  crcSuspect : Nat → Bool
  chunk_pos : ∀ pos want, pos < length → 0 < want → 0 < chunk pos want
  chunk_le : ∀ pos want, chunk pos want ≤ min want (length - pos)
  crc_mono : ∀ m n, m ≤ n → crcSuspect m = true → crcSuspect n = true

def AttachReader.discard (r : AttachReader) (maxBytes bytesRead : Nat) : Nat × Option IntegrityReason :=
  if _ : bytesRead < maxBytes then
    if _ : bytesRead < r.length then
      r.discard maxBytes (bytesRead + r.chunk bytesRead (min (maxBytes - bytesRead) discardChunk))
    else (bytesRead, r.failure)
  else (bytesRead, none)
  termination_by maxBytes - bytesRead
  decreasing_by
    have hpos := r.chunk_pos bytesRead (min (maxBytes - bytesRead) discardChunk)
      ‹bytesRead < r.length› (by unfold discardChunk; omega)
    omega

/-- The read loop of the content hash (`hash_binary_under_parent`) on the same attachment: all its
bytes, unless a read fails. -/
def AttachReader.digest (r : AttachReader) (bytesRead : Nat) : Option Nat :=
  if _ : bytesRead < r.length then r.digest (bytesRead + r.chunk bytesRead discardChunk)
  else if r.failure = none then some bytesRead else none
  termination_by r.length - bytesRead
  decreasing_by
    have hpos := r.chunk_pos bytesRead discardChunk ‹bytesRead < r.length› (by decide)
    omega

def AttachReader.realDigest (r : AttachReader) (declaredSize : Nat) : Option Nat :=
  match r.digest 0 with
  | none => none
  | some bytes =>
    if r.crcSuspect bytes then none
    else if declaredSize > 0 ∧ bytes ≠ declaredSize then none
    else some bytes

structure ListedAttach where
  nid : Nat
  size : Nat
  attachMethod : Option Int
  deriving DecidableEq, Repr

/-- The PST files of a run, with their errors as the reasons the probe maps them to. -/
structure ProbeEnv where
  openPst : String → Except IntegrityReason Unit
  listAttachments : String → Nat → Option (List ListedAttach)
  openAttachment : String → Nat → Nat → Except IntegrityReason AttachReader
  pathMtimeAndSize : String → Int × Nat

structure CacheKey where
  path : String
  msgNid : Nat
  attachNid : Nat
  size : Nat
  mtimeSecs : Int
  sourceFileSize : Nat
  deriving DecidableEq, Repr

def ProbeEnv.cacheKey (env : ProbeEnv) (path : String) (msgNid : Nat) (att : ListedAttach) : CacheKey :=
  ⟨path, msgNid, att.nid, att.size, (env.pathMtimeAndSize path).1, (env.pathMtimeAndSize path).2⟩

def probeAttachStream (env : ProbeEnv) (path : String) (msgNid attachNid : Nat) (level : ProbeLevel)
    (perAttachMaxBytes globalBytesLeft : Nat) : ProbeOutcome :=
  if level = .metaOnly then ⟨true, none, 0, false, level⟩
  else
    match env.openAttachment path msgNid attachNid with
    | .error reason => .failed reason level
    | .ok reader =>
      if level = .openOnly then
        ⟨true, if reader.crcSuspect 0 then some .crcSuspect else none, 0, false, level⟩
      else
        let maxBytes :=
          match level with
          | .head => min perAttachMaxBytes globalBytesLeft
          | .full => globalBytesLeft
          | _ => 0
        let (bytesRead, failure) := reader.discard maxBytes 0
        match failure with
        | some reason => ⟨false, some reason, bytesRead, false, level⟩
        | none =>
          ⟨true, if reader.crcSuspect bytesRead then some .crcSuspect else none, bytesRead, false, level⟩

/-! ## The result cache -/

structure CacheEntry where
  level : ProbeLevel
  ok : Bool
  reason : Option IntegrityReason
  bytesRead : Nat
  chargePending : Bool
  deriving DecidableEq, Repr

abbrev ProbeResultCache := HashMap CacheKey CacheEntry

namespace ProbeResultCache

variable (cache : ProbeResultCache)

/-- `get`: a hit needs the requested level or a higher one. -/
def lookup (key : CacheKey) (level : ProbeLevel) : Option ProbeOutcome :=
  match cache.get key with
  | none => none
  | some e =>
    if e.level.rank < level.rank then none
    else some ⟨e.ok, e.reason, e.bytesRead, false, e.level⟩

def takeChargePending (key : CacheKey) (level : ProbeLevel) : Bool × ProbeResultCache :=
  match cache.get key with
  | none => (false, cache)
  | some e =>
    if e.level.rank < level.rank then (false, cache)
    else if e.chargePending then (true, AList.insert key { e with chargePending := false } cache)
    else (false, cache)

/-- What both writers of the cache share: a higher level stays, and so does a failure at the
same. -/
def insertEntry (key : CacheKey) (entry : CacheEntry) : ProbeResultCache :=
  match cache.get key with
  | none => AList.insert key entry cache
  | some existing =>
    if existing.level.rank > entry.level.rank then cache
    else if existing.level = entry.level ∧ existing.ok = false then cache
    else AList.insert key entry cache

def insertOutcome (key : CacheKey) (o : ProbeOutcome) : ProbeResultCache :=
  cache.insertEntry key ⟨o.level, o.ok, o.reason, o.bytesRead, false⟩

def seedFromDigestStream (key : CacheKey) (bytesRead : Nat) : ProbeResultCache :=
  cache.insertEntry key ⟨.full, true, none, bytesRead, true⟩

end ProbeResultCache

def digestSeedEligible (attachMethod : Option Int) : Bool :=
  attachMethod = none || attachMethod = some attachByValue

structure Seed where
  path : String
  msgNid : Nat
  att : ListedAttach

def seedOne (env : ProbeEnv) (cache : ProbeResultCache) (seed : Seed) : ProbeResultCache :=
  match env.openAttachment seed.path seed.msgNid seed.att.nid with
  | .error _ => cache
  | .ok reader =>
    match reader.realDigest seed.att.size with
    | none => cache
    | some bytes =>
      if digestSeedEligible seed.att.attachMethod then
        cache.seedFromDigestStream (env.cacheKey seed.path seed.msgNid seed.att) bytes
      else cache

def seedCache (env : ProbeEnv) (seeds : List Seed) : ProbeResultCache := seeds.foldl (seedOne env) ∅

/-! ## The engine -/

/-- `AttachProbeSummary` without `digest_stream_skips`. -/
structure ProbeTallies where
  attempted : Nat := 0
  failed : Nat := 0
  truncated : Bool := false
  bytes : Nat := 0
  peerProbeCappedGroups : Nat := 0
  level : String := ""
  budgetExhaustedReason : Option String := none
  candidateAttachesTotal : Option Nat := none
  unprobedCandidateAttaches : Option Nat := none
  deriving DecidableEq, Repr

def reasonProbeBytes : String := "probe_bytes"
def reasonMaxAttaches : String := "max_attaches"
def reasonTimeout : String := "per_attach_timeout"

def reasonRank (reason : String) : Nat :=
  if reason = "cancel" then 4
  else if reason = reasonProbeBytes then 3
  else if reason = reasonMaxAttaches then 2
  else if reason = reasonTimeout then 1
  else 0

def ProbeTallies.raiseReason (s : ProbeTallies) (reason : String) : ProbeTallies :=
  if reasonRank reason > (s.budgetExhaustedReason.map reasonRank).getD 0 then
    { s with budgetExhaustedReason := some reason }
  else s

structure ProbeLedger where
  budgets : ProbeBudgets
  level : ProbeLevel
  bytesLeft : Nat
  attachesLeft : Nat
  tallies : ProbeTallies

namespace ProbeLedger

variable (led : ProbeLedger)

def budgetExhausted : Bool := led.attachesLeft == 0 || led.bytesLeft == 0

def noteGlobalStop : ProbeLedger :=
  let t := { led.tallies with truncated := true }
  let t := if led.bytesLeft = 0 then t.raiseReason reasonProbeBytes else t
  let t := if led.attachesLeft = 0 then t.raiseReason reasonMaxAttaches else t
  { led with tallies := t }

def finalizeCoverage : ProbeLedger :=
  if led.tallies.truncated ∧ led.tallies.budgetExhaustedReason = none ∧
      (led.bytesLeft = 0 ∨ led.attachesLeft = 0) then
    led.noteGlobalStop
  else led

def timeoutBudgetCharge (level : ProbeLevel) (perAttachMaxBytes bytesLeft bytesRead : Nat) : Nat :=
  max bytesRead (min (if level = .full then bytesLeft else perAttachMaxBytes) bytesLeft)

def recordAttempt (o : ProbeOutcome) : ProbeLedger :=
  if o.reason = some .attachProbeTruncated then led.noteGlobalStop
  else
    let timeout : Bool := o.timedOut || o.reason = some .attachProbeTimeout
    let charge :=
      if timeout then
        timeoutBudgetCharge o.level led.budgets.perAttachMaxBytes led.bytesLeft o.bytesRead
      else o.bytesRead
    let countsAsFail : Bool := !o.ok && (o.reason.map IntegrityReason.isAttachProbeFail).getD true
    let t := { led.tallies with
      attempted := led.tallies.attempted + 1
      bytes := satAdd led.tallies.bytes charge
      failed := led.tallies.failed + if countsAsFail then 1 else 0 }
    let t := if timeout then ProbeTallies.raiseReason { t with truncated := true } reasonTimeout else t
    let next : ProbeLedger := { led with
      attachesLeft := led.attachesLeft - 1
      bytesLeft := led.bytesLeft - charge
      tallies := t }
    if next.attachesLeft = 0 ∨ next.bytesLeft = 0 then next.noteGlobalStop else next

def logicalProbeChargeBytes (digestBytes : Nat) : Nat :=
  match led.level with
  | .metaOnly => 0
  | .openOnly => 0
  | .head => min (min digestBytes led.budgets.perAttachMaxBytes) led.bytesLeft
  | .full => min digestBytes led.bytesLeft

end ProbeLedger

structure AttachProbeEngine where
  ledger : ProbeLedger
  cache : ProbeResultCache
  digestStreamSkips : Nat

def AttachProbeEngine.withCache (budgets : ProbeBudgets) (level : ProbeLevel)
    (cache : ProbeResultCache) : AttachProbeEngine where
  ledger := {
    budgets, level, bytesLeft := budgets.maxProbeBytes, attachesLeft := budgets.maxAttaches
    tallies := { level := level.asStr } }
  cache
  digestStreamSkips := 0

namespace AttachProbeEngine

variable (env : ProbeEnv)

def recordAttempt (engine : AttachProbeEngine) (o : ProbeOutcome) : AttachProbeEngine :=
  { engine with ledger := engine.ledger.recordAttempt o }

def noteGlobalStop (engine : AttachProbeEngine) : AttachProbeEngine :=
  { engine with ledger := engine.ledger.noteGlobalStop }

def insertOutcome (engine : AttachProbeEngine) (key : CacheKey) (o : ProbeOutcome) : AttachProbeEngine :=
  { engine with cache := engine.cache.insertOutcome key o }

def probeLive (engine : AttachProbeEngine) (path : String) (msgNid : Nat) (att : ListedAttach) :
    ProbeOutcome × AttachProbeEngine :=
  let outcome :=
    match env.openPst path with
    | .error reason => .failed reason engine.ledger.level
    | .ok () =>
      probeAttachStream env path msgNid att.nid engine.ledger.level
        engine.ledger.budgets.perAttachMaxBytes engine.ledger.bytesLeft
  let recorded := engine.recordAttempt outcome
  if outcome.reason ≠ some .attachProbeTruncated then
    (outcome, recorded.insertOutcome (env.cacheKey path msgNid att) outcome)
  else (outcome, recorded)

def probeHit (engine : AttachProbeEngine) (key : CacheKey) (hit : ProbeOutcome) :
    ProbeOutcome × AttachProbeEngine :=
  let (pending, cache) := engine.cache.takeChargePending key engine.ledger.level
  if pending then
    let hit := { hit with bytesRead := engine.ledger.logicalProbeChargeBytes hit.bytesRead }
    (hit, { ledger := engine.ledger.recordAttempt hit, cache
            digestStreamSkips := satAdd engine.digestStreamSkips 1 })
  else (hit, { engine with cache })

def methodUnsupported (attachMethod : Option Int) : Bool :=
  match attachMethod with
  | none => false
  | some method => method ≠ attachByValue && method ≠ attachEmbeddedMsg

def probeAttach (engine : AttachProbeEngine) (path : String) (msgNid : Nat) (att : ListedAttach) :
    ProbeOutcome × AttachProbeEngine :=
  if engine.ledger.budgetExhausted then
    (.failed .attachProbeTruncated engine.ledger.level, engine.noteGlobalStop)
  else if methodUnsupported att.attachMethod then
    let outcome := .failed .attachMethodUnsupported engine.ledger.level
    (outcome, (engine.recordAttempt outcome).insertOutcome (env.cacheKey path msgNid att) outcome)
  else if engine.ledger.budgets.maxProbeTimeMs = 0 then
    -- the deadline has passed before anything is looked up
    let outcome : ProbeOutcome := ⟨false, some .attachProbeTimeout, 0, true, engine.ledger.level⟩
    (outcome, engine.recordAttempt outcome)
  else
    match engine.cache.lookup (env.cacheKey path msgNid att) engine.ledger.level with
    | some hit => engine.probeHit (env.cacheKey path msgNid att) hit
    | none => engine.probeLive env path msgNid att

end AttachProbeEngine

/-! ## What a probe does to an item -/

def pushDegraded (item : RecoverableScanItem) (reason : IntegrityReason) : RecoverableScanItem :=
  if reason = .attachProbeTruncated ∨ reason = .attachPeerProbeCap then item
  else
    { item with integrity := { item.integrity with
        degradedReasons :=
          if item.integrity.degradedReasons.contains reason then item.integrity.degradedReasons
          else item.integrity.degradedReasons ++ [reason]
        degraded := true } }

def markUnprobedPeerCap (item : RecoverableScanItem) : RecoverableScanItem :=
  { item with integrity := { item.integrity with
      degradedReasons :=
        if item.integrity.degradedReasons.contains .attachPeerProbeCap then
          item.integrity.degradedReasons
        else item.integrity.degradedReasons ++ [.attachPeerProbeCap]
      degraded := true } }

def applyProbeFail (item : RecoverableScanItem) (reason : IntegrityReason) : RecoverableScanItem :=
  pushDegraded item reason

def applyOutcome (item : RecoverableScanItem) (reason : Option IntegrityReason) : RecoverableScanItem :=
  match reason with
  | none => item
  | some r =>
    if r.isAttachProbeFail then applyProbeFail item r
    else if r = .crcSuspect then pushDegraded item .crcSuspect
    else item

def candidateAttachesTotal (items : List RecoverableScanItem) : Nat := (items.map (·.attachCount)).sum

def ProbeEnv.openAndList (env : ProbeEnv) (item : RecoverableScanItem) :
    Except IntegrityReason (List ListedAttach) :=
  match env.openPst item.locus.sourcePath with
  | .error reason => .error reason
  | .ok () =>
    match env.listAttachments item.locus.sourcePath item.locus.nid with
    | none => .error .attachMetaFailed
    | some list => .ok list

structure ItemProbe where
  engine : AttachProbeEngine
  item : RecoverableScanItem
  probed : Nat
  anyFail : Bool
  broke : Bool

def probeAttaches (env : ProbeEnv) : List ListedAttach → ItemProbe → ItemProbe
  | [], st => st
  | att :: rest, st =>
    if st.engine.ledger.budgetExhausted then
      { st with engine := st.engine.noteGlobalStop, broke := true }
    else
      let (outcome, engine) :=
        st.engine.probeAttach env st.item.locus.sourcePath st.item.locus.nid att
      if outcome.reason = some .attachProbeTruncated then { st with engine, broke := true }
      else
        probeAttaches env rest { st with
          engine
          item := applyOutcome st.item outcome.reason
          probed := satAdd st.probed 1
          anyFail := st.anyFail || (outcome.reason.map IntegrityReason.isAttachProbeFail).getD !outcome.ok }

def probeItems (env : ProbeEnv) : List RecoverableScanItem → AttachProbeEngine →
    AttachProbeEngine × List RecoverableScanItem × Option Nat
  | [], engine => (engine, [], none)
  | item :: rest, engine =>
    if engine.ledger.budgetExhausted then
      (engine.noteGlobalStop, item :: rest, some (candidateAttachesTotal (item :: rest)))
    else
      match env.openAndList item with
      | .error reason =>
        let done := probeItems env rest
          (engine.recordAttempt (.failed reason engine.ledger.level))
        (done.1, applyProbeFail item reason :: done.2.1, done.2.2)
      | .ok list =>
        let st := probeAttaches env list ⟨engine, item, 0, false, false⟩
        if st.broke then
          let unprobed := list.length - st.probed + candidateAttachesTotal rest
          let unprobed :=
            if unprobed = 0 ∧ item.attachCount > list.length then
              item.attachCount - st.probed + candidateAttachesTotal rest
            else unprobed
          (st.engine, st.item :: rest, some unprobed)
        else
          let done := probeItems env rest st.engine
          (done.1, st.item :: done.2.1, done.2.2)

structure ProbePass where
  tallies : ProbeTallies
  digestStreamSkips : Nat
  items : List RecoverableScanItem

def finishPass (engine : AttachProbeEngine) (items : List RecoverableScanItem)
    (unprobed : Option Nat) : ProbePass where
  tallies := { engine.ledger.finalizeCoverage.tallies with
    unprobedCandidateAttaches := some (unprobed.getD 0) }
  digestStreamSkips := engine.digestStreamSkips
  items

def startPass (budgets : ProbeBudgets) (level : ProbeLevel) (cache : ProbeResultCache)
    (items : List RecoverableScanItem) : AttachProbeEngine :=
  let engine := AttachProbeEngine.withCache budgets level cache
  { engine with ledger := { engine.ledger with
      tallies := { engine.ledger.tallies with
        candidateAttachesTotal := some (candidateAttachesTotal items) } } }

def probeScanItems (env : ProbeEnv) (budgets : ProbeBudgets) (level : ProbeLevel)
    (cache : ProbeResultCache) (items : List RecoverableScanItem) : ProbePass :=
  let done := probeItems env items (startPass budgets level cache items)
  finishPass done.1 done.2.1 done.2.2

/-! ## The keep-set pass -/

def inScopeAttachCount (items : List RecoverableScanItem) (ranked : List Nat) (peerCap : Nat) : Nat :=
  ((ranked.take peerCap).map fun i => (items[i]?.map (·.attachCount)).getD 0).sum

def keepSetLaterInScope (items : List RecoverableScanItem) (groups : List (List Nat)) (peerCap : Nat) : Nat :=
  (groups.map fun ranked => inScopeAttachCount items ranked peerCap).sum

structure PeerState where
  engine : AttachProbeEngine
  items : List RecoverableScanItem
  probedPeers : Nat := 0
  foundClean : Bool := false
  probedIdxs : List Nat := []

/-- The peer loop of one group; `later` are the groups behind it. The second part is what stays
unprobed where the pass stops. -/
def probePeers (env : ProbeEnv) (peerCap : Nat) (later : List (List Nat)) :
    List Nat → PeerState → PeerState × Option Nat
  | [], st => (st, none)
  | idx :: rest, st =>
    if st.probedPeers ≥ peerCap then (st, none)
    else if st.engine.ledger.budgetExhausted then
      ({ st with engine := st.engine.noteGlobalStop },
        some (inScopeAttachCount st.items (idx :: rest) (peerCap - st.probedPeers)
          + keepSetLaterInScope st.items later peerCap))
    else
      let item := itemAt st.items idx
      match env.openAndList item with
      | .error reason =>
        probePeers env peerCap later rest { st with
          engine := st.engine.recordAttempt (.failed reason st.engine.ledger.level)
          items := st.items.set idx (applyProbeFail item reason)
          probedPeers := st.probedPeers + 1
          probedIdxs := st.probedIdxs ++ [idx] }
      | .ok [] =>
        probePeers env peerCap later rest { st with
          foundClean := !item.integrity.degraded
          probedPeers := st.probedPeers + 1
          probedIdxs := st.probedIdxs ++ [idx] }
      | .ok list =>
        let run := probeAttaches env list ⟨st.engine, item, 0, false, false⟩
        let items := st.items.set idx run.item
        let st := { st with engine := run.engine, items, probedIdxs := st.probedIdxs ++ [idx] }
        if run.broke then
          (st, some (list.length - run.probed
            + inScopeAttachCount items rest (peerCap - (st.probedPeers + 1))
            + keepSetLaterInScope items later peerCap))
        else
          let st := { st with probedPeers := st.probedPeers + 1 }
          if !run.anyFail && !run.item.integrity.degraded then ({ st with foundClean := true }, none)
          else probePeers env peerCap later rest st

def probeGroups (env : ProbeEnv) (peerCap : Nat) : List (List Nat) → AttachProbeEngine →
    List RecoverableScanItem → AttachProbeEngine × List RecoverableScanItem × Option Nat
  | [], engine, items => (engine, items, none)
  | ranked :: later, engine, items =>
    if engine.ledger.budgetExhausted then
      (engine.noteGlobalStop, items, some (keepSetLaterInScope items (ranked :: later) peerCap))
    else
      let (st, stopped) := probePeers env peerCap later ranked { engine, items }
      match stopped with
      | some unprobed => (st.engine, st.items, some unprobed)
      | none =>
        if !st.foundClean && st.probedPeers ≥ peerCap then
          let led := st.engine.ledger
          probeGroups env peerCap later
            { st.engine with ledger := { led with tallies := { led.tallies with
                peerProbeCappedGroups := led.tallies.peerProbeCappedGroups + 1 } } }
            (ranked.foldl (fun items idx =>
              if idx ∈ st.probedIdxs then items
              else items.set idx (markUnprobedPeerCap (itemAt items idx))) st.items)
        else probeGroups env peerCap later st.engine st.items

variable [Rust.Target] [RandomState]

def probeKeepSetGroups (env : ProbeEnv) (budgets : ProbeBudgets) (level : ProbeLevel)
    (policy : KeepPolicy) (family : FamilyPolicy) (preferPath : List String)
    (grouping : GroupingContext) (cache : ProbeResultCache) (items : List RecoverableScanItem) : ProbePass :=
  if family = .parentsOnly then ⟨{ level := level.asStr }, 0, items⟩
  else
    let rankCtx : RankContext := { policy, preferPath }
    let rankedGroups := (groupCandidatesWithStats grouping items).groups.map
      (Rust.sortBy fun a b =>
        (rankKey (itemAt items a) rankCtx).cmp (rankKey (itemAt items b) rankCtx))
    let done := probeGroups env (max budgets.maxPeerProbesPerGroup 1) rankedGroups
      (startPass budgets level cache items) items
    finishPass done.1 done.2.1 done.2.2

end PstDedupCli
