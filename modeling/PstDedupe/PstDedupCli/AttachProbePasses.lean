import PstDedupe.PstDedupCli.AttachProbeSeeds

/-!
# Seeded passes end like live passes

The loops of the two passes, run with a seeded cache and with an empty one.
-/

namespace PstDedupCli

open DedupEngine List
open Rust (HashMap RandomState)

variable {list : List ListedAttach}

/-- A seeded attachment and a listed one of the same NID and size are of kinds the probe reads. -/
def OneMethod (env : ProbeEnv) (seeds : List Seed) : Prop :=
  ∀ seed ∈ seeds, digestSeedEligible seed.att.attachMethod = true →
    ∀ list, env.listAttachments seed.path seed.msgNid = some list →
      ∀ att ∈ list, att.nid = seed.att.nid → att.size = seed.att.size →
        AttachProbeEngine.methodUnsupported att.attachMethod = false

variable {env : ProbeEnv} {seeds : List Seed} {level : ProbeLevel} {l s : AttachProbeEngine}

theorem noSeedBehindGate_of_oneMethod (hone : OneMethod env seeds) {path : String} {msgNid : Nat}
    (hlist : env.listAttachments path msgNid = some list)
    {att : ListedAttach} (hatt : att ∈ list) : NoSeedBehindGate env seeds path msgNid att := by
  intro hunsupported
  cases hget : (seedCache env seeds).get (env.cacheKey path msgNid att) with
  | none => rfl
  | some e =>
    obtain ⟨-, seed, hseed, helig, hkey⟩ := get_seedCache hget
    unfold ProbeEnv.cacheKey at hkey
    injection hkey with hpath hmsg hnid hsize
    have hsupported := hone seed hseed helig list (hpath ▸ hmsg ▸ hlist) att hatt hnid hsize
    rw [hsupported] at hunsupported
    cases hunsupported

structure ItemRel (env : ProbeEnv) (seeds : List Seed) (level : ProbeLevel)
    (live seeded : ItemProbe) : Prop where
  engine : EngineRel env seeds level live.engine seeded.engine
  item : live.item = seeded.item
  probed : live.probed = seeded.probed
  anyFail : live.anyFail = seeded.anyFail
  broke : live.broke = seeded.broke

theorem locus_pushDegraded (item : RecoverableScanItem) (reason : IntegrityReason) :
    (pushDegraded item reason).locus = item.locus := by
  unfold pushDegraded
  split <;> rfl

theorem locus_applyOutcome (item : RecoverableScanItem) (reason : Option IntegrityReason) :
    (applyOutcome item reason).locus = item.locus := by
  unfold applyOutcome
  split
  · rfl
  split
  · exact locus_pushDegraded item _
  split
  · exact locus_pushDegraded item _
  · rfl

theorem probeAttaches_simulates (list : List ListedAttach) {live seeded : ItemProbe}
    (h : ItemRel env seeds level live seeded)
    (hopen : env.openPst seeded.item.locus.sourcePath = .ok ())
    (hgate : ∀ att ∈ list, NoSeedBehindGate env seeds seeded.item.locus.sourcePath seeded.item.locus.nid att) :
    ItemRel env seeds level (probeAttaches env list live) (probeAttaches env list seeded) := by
  induction list generalizing live seeded with
  | nil => exact h
  | cons att rest ih =>
    have hstep := probeAttach_simulates h.engine hopen (hgate att mem_cons_self)
    unfold probeAttaches
    rw [h.engine.ledger, h.item]
    generalize live.engine.probeAttach env seeded.item.locus.sourcePath seeded.item.locus.nid att = a,
      seeded.engine.probeAttach env seeded.item.locus.sourcePath seeded.item.locus.nid att = b at hstep
    split
    · exact ⟨h.engine.noteGlobalStop, rfl, h.probed, h.anyFail, rfl⟩
    dsimp only
    rw [hstep.reason, hstep.ok]
    split
    · exact ⟨hstep.engine, rfl, h.probed, h.anyFail, rfl⟩
    · have hlocus := locus_applyOutcome seeded.item b.1.reason
      refine ih ⟨hstep.engine, rfl, by rw [h.probed], by rw [h.anyFail], h.broke⟩ ?_ ?_
      · show env.openPst (applyOutcome seeded.item b.1.reason).locus.sourcePath = .ok ()
        rw [hlocus]
        exact hopen
      · intro att' hatt'
        show NoSeedBehindGate env seeds (applyOutcome seeded.item b.1.reason).locus.sourcePath
          (applyOutcome seeded.item b.1.reason).locus.nid att'
        rw [hlocus]
        exact hgate att' (mem_cons_of_mem _ hatt')

theorem openAndList_ok {item : RecoverableScanItem} (h : env.openAndList item = .ok list) :
    env.openPst item.locus.sourcePath = .ok () ∧
      env.listAttachments item.locus.sourcePath item.locus.nid = some list := by
  unfold ProbeEnv.openAndList at h
  split at h
  · cases h
  rename_i hopen
  split at h
  · cases h
  rename_i list' hlist
  exact ⟨hopen, hlist.trans (by rw [Except.ok.inj h])⟩

theorem probeItem_simulates (hone : OneMethod env seeds) (h : EngineRel env seeds level l s)
    {item : RecoverableScanItem} (hlist : env.openAndList item = .ok list) :
    ItemRel env seeds level (probeAttaches env list ⟨l, item, 0, false, false⟩)
      (probeAttaches env list ⟨s, item, 0, false, false⟩) := by
  obtain ⟨hopen, hlisted⟩ := openAndList_ok hlist
  exact probeAttaches_simulates list ⟨h, rfl, rfl, rfl, rfl⟩ hopen
    fun _ hatt => noSeedBehindGate_of_oneMethod hone hlisted hatt

theorem probeItems_simulates (hone : OneMethod env seeds) (items : List RecoverableScanItem)
    (h : EngineRel env seeds level l s) :
    EngineRel env seeds level (probeItems env items l).1 (probeItems env items s).1 ∧
      (probeItems env items l).2 = (probeItems env items s).2 := by
  induction items generalizing l s with
  | nil => exact ⟨h, rfl⟩
  | cons item rest ih =>
    unfold probeItems
    rw [h.ledger]
    split
    · exact ⟨h.noteGlobalStop, rfl⟩
    split
    · rename_i reason _
      obtain ⟨hengine, hitems⟩ := ih (h.recordAttempt (.failed reason s.ledger.level))
      exact ⟨hengine, by dsimp only; rw [hitems]⟩
    · rename_i list hlist
      have hitem := probeItem_simulates hone h hlist
      dsimp only
      rw [hitem.broke, hitem.item, hitem.probed]
      split
      · exact ⟨hitem.engine, rfl⟩
      · obtain ⟨hengine, hitems⟩ := ih hitem.engine
        exact ⟨hengine, by dsimp only; rw [hitems]⟩

theorem startPass_simulates (env : ProbeEnv) (seeds : List Seed) (budgets : ProbeBudgets)
    (level : ProbeLevel) (items : List RecoverableScanItem) :
    EngineRel env seeds level (startPass budgets level ∅ items)
      (startPass budgets level (seedCache env seeds) items) where
  ledger := rfl
  level_eq := rfl
  cache := cacheRel_start env seeds level

/-- Tallies and items are the same. -/
structure SamePass (live seeded : ProbePass) : Prop where
  tallies : live.tallies = seeded.tallies
  items : live.items = seeded.items

theorem finishPass_simulates (h : EngineRel env seeds level l s) (items : List RecoverableScanItem)
    (unprobed : Option Nat) : SamePass (finishPass l items unprobed) (finishPass s items unprobed) where
  tallies := by
    unfold finishPass
    rw [h.ledger]
  items := rfl

theorem probeScanItems_simulates (hone : OneMethod env seeds) (budgets : ProbeBudgets)
    (level : ProbeLevel) (items : List RecoverableScanItem) :
    SamePass (probeScanItems env budgets level ∅ items)
      (probeScanItems env budgets level (seedCache env seeds) items) := by
  obtain ⟨hengine, hrest⟩ :=
    probeItems_simulates hone items (startPass_simulates env seeds budgets level items)
  unfold probeScanItems
  dsimp only
  rw [hrest]
  exact finishPass_simulates hengine _ _

structure PeerRel (env : ProbeEnv) (seeds : List Seed) (level : ProbeLevel)
    (live seeded : PeerState) : Prop where
  engine : EngineRel env seeds level live.engine seeded.engine
  items : live.items = seeded.items
  probedPeers : live.probedPeers = seeded.probedPeers
  foundClean : live.foundClean = seeded.foundClean
  probedIdxs : live.probedIdxs = seeded.probedIdxs

theorem probePeers_simulates (hone : OneMethod env seeds) (peerCap : Nat) (later : List (List Nat))
    (ranked : List Nat) {live seeded : PeerState} (h : PeerRel env seeds level live seeded) :
    PeerRel env seeds level (probePeers env peerCap later ranked live).1
        (probePeers env peerCap later ranked seeded).1 ∧
      (probePeers env peerCap later ranked live).2 = (probePeers env peerCap later ranked seeded).2 := by
  induction ranked generalizing live seeded with
  | nil => exact ⟨h, rfl⟩
  | cons idx rest ih =>
    unfold probePeers
    rw [h.engine.ledger, h.items, h.probedPeers, h.probedIdxs]
    split
    · exact ⟨h, rfl⟩
    split
    · exact ⟨⟨h.engine.noteGlobalStop, rfl, rfl, h.foundClean, rfl⟩, rfl⟩
    dsimp only
    split
    · exact ih ⟨h.engine.recordAttempt _, rfl, rfl, h.foundClean, rfl⟩
    · exact ih ⟨h.engine, rfl, rfl, rfl, rfl⟩
    · rename_i list _ hlist
      have hitem := probeItem_simulates hone h.engine hlist
      rw [hitem.broke, hitem.item, hitem.probed, hitem.anyFail]
      split
      · exact ⟨⟨hitem.engine, rfl, rfl, h.foundClean, rfl⟩, rfl⟩
      split
      · exact ⟨⟨hitem.engine, rfl, rfl, rfl, rfl⟩, rfl⟩
      · exact ih ⟨hitem.engine, rfl, rfl, h.foundClean, rfl⟩

theorem probeGroups_simulates (hone : OneMethod env seeds) (peerCap : Nat) (groups : List (List Nat))
    (items : List RecoverableScanItem) (h : EngineRel env seeds level l s) :
    EngineRel env seeds level (probeGroups env peerCap groups l items).1
        (probeGroups env peerCap groups s items).1 ∧
      (probeGroups env peerCap groups l items).2 = (probeGroups env peerCap groups s items).2 := by
  induction groups generalizing l s items with
  | nil => exact ⟨h, rfl⟩
  | cons ranked later ih =>
    have hstart : PeerRel env seeds level { engine := l, items } { engine := s, items } :=
      ⟨h, rfl, rfl, rfl, rfl⟩
    obtain ⟨hpeers, hstop⟩ := probePeers_simulates hone peerCap later ranked hstart
    unfold probeGroups
    rw [h.ledger]
    split
    · exact ⟨h.noteGlobalStop, rfl⟩
    dsimp only
    rw [hstop, hpeers.items, hpeers.foundClean, hpeers.probedPeers, hpeers.probedIdxs, hpeers.engine.ledger]
    split
    · exact ⟨hpeers.engine, rfl⟩
    split
    · exact ih _ ⟨rfl, hpeers.engine.level_eq, hpeers.engine.cache⟩
    · exact ih _ hpeers.engine

theorem probeKeepSetGroups_simulates [Rust.Target] [RandomState] (hone : OneMethod env seeds)
    (budgets : ProbeBudgets) (level : ProbeLevel) (policy : KeepPolicy) (family : FamilyPolicy)
    (preferPath : List String) (grouping : GroupingContext) (items : List RecoverableScanItem) :
    SamePass (probeKeepSetGroups env budgets level policy family preferPath grouping ∅ items)
      (probeKeepSetGroups env budgets level policy family preferPath grouping (seedCache env seeds)
        items) := by
  unfold probeKeepSetGroups
  split
  · exact ⟨rfl, rfl⟩
  dsimp only
  have hgroups (ranked : List (List Nat)) := probeGroups_simulates hone
    (max budgets.maxPeerProbesPerGroup 1) ranked items (startPass_simulates env seeds budgets level items)
  obtain ⟨hengine, hrest⟩ := hgroups _
  rw [hrest]
  exact finishPass_simulates hengine _ _

/-- **A seeded pass ends like a live pass.** Whatever the items, budgets and level, a pass that
starts with the digests of the content hashing has the tallies of a pass that reads everything, and
leaves the same on the items; so for the scan pass and for the keep-set pass. -/
theorem seeded_probe_eq_live (env : ProbeEnv) (seeds : List Seed) (hone : OneMethod env seeds)
    (budgets : ProbeBudgets) (level : ProbeLevel) (items : List RecoverableScanItem) :
    SamePass (probeScanItems env budgets level ∅ items)
        (probeScanItems env budgets level (seedCache env seeds) items) ∧
      ∀ [Rust.Target] [RandomState] (policy : KeepPolicy) (family : FamilyPolicy)
        (preferPath : List String) (grouping : GroupingContext),
        SamePass (probeKeepSetGroups env budgets level policy family preferPath grouping ∅ items)
          (probeKeepSetGroups env budgets level policy family preferPath grouping (seedCache env seeds)
            items) :=
  ⟨probeScanItems_simulates hone budgets level items, fun policy family preferPath grouping =>
    probeKeepSetGroups_simulates hone budgets level policy family preferPath grouping items⟩

def cleanReader (length : Nat) : AttachReader where
  length
  failure := none
  chunk := fun pos want => min want (length - pos)
  crcSuspect := fun _ => false
  chunk_pos := fun pos want hpos hwant => by omega
  chunk_le := fun pos want => le_refl _
  crc_mono := fun _ _ _ h => h

/-- A mailbox whose only message lists these attachments, each of three bytes. -/
def oneMessageEnv (listed : List ListedAttach) : ProbeEnv where
  openPst := fun _ => .ok ()
  listAttachments := fun _ _ => some listed
  openAttachment := fun _ _ _ => .ok (cleanReader 3)
  pathMtimeAndSize := fun _ => (0, 265)

def probedItem : RecoverableScanItem where
  locus := { sourcePath := "/m.pst", sourcePst := "m.pst", folderPath := "Inbox", nid := 36 }
  messageIdNorm := none
  contentHash := default
  attachCount := 2

theorem seeded_probe_eq_live_two_attachments :
    let env := oneMessageEnv [⟨37, 3, some 1⟩, ⟨69, 3, some 6⟩]
    let seeds : List Seed := [⟨"/m.pst", 36, ⟨37, 3, some 1⟩⟩]
    OneMethod env seeds ∧ SamePass (probeScanItems env {} .head ∅ [probedItem])
      (probeScanItems env {} .head (seedCache env seeds) [probedItem]) := by
  intro env seeds
  have hone : OneMethod env seeds := by
    intro seed hseed _ list hlist att hatt hnid _
    obtain rfl := List.mem_singleton.mp hseed
    obtain rfl := Option.some.inj hlist
    rcases List.mem_cons.mp hatt with rfl | hatt
    · rfl
    obtain rfl := List.mem_singleton.mp hatt
    cases hnid
  exact ⟨hone, (seeded_probe_eq_live env seeds hone {} .head [probedItem]).1⟩

theorem digest_clean {r : AttachReader} (hclean : r.failure = none) {n : Nat}
    (hlen : n ≤ r.length) : r.digest n = some r.length := by
  rw [AttachReader.digest]
  split
  case isFalse h => rw [show n = r.length by omega]
  case isTrue h =>
    have hpos := r.chunk_pos n discardChunk h (by decide)
    have hle := r.chunk_le n discardChunk
    exact digest_clean hclean (by omega)
  termination_by r.length - n

/-- A message that lists one NID twice, first with an unsupported method. The live pass answers the
second from the failure it cached for the first; the seeded pass finds the seed and charges it. -/
theorem seeded_probe_of_nid_listed_twice :
    let env := oneMessageEnv [⟨37, 3, some 6⟩, ⟨37, 3, some 1⟩]
    let seeds : List Seed := [⟨"/m.pst", 36, ⟨37, 3, some 1⟩⟩]
    (probeScanItems env {} .head ∅ [probedItem]).tallies.attempted = 1 ∧
      (probeScanItems env {} .head (seedCache env seeds) [probedItem]).tallies.attempted = 2 ∧
      (probeScanItems env {} .head ∅ [probedItem]).tallies.bytes = 0 ∧
      (probeScanItems env {} .head (seedCache env seeds) [probedItem]).tallies.bytes = 3 := by
  intro env seeds
  have hdigest : (cleanReader 3).realDigest 3 = some 3 := by
    unfold AttachReader.realDigest
    rw [digest_clean rfl (Nat.zero_le _)]
    rfl
  have hseeds : seedCache env seeds
      = (∅ : ProbeResultCache).seedFromDigestStream ⟨"/m.pst", 36, 37, 3, 0, 265⟩ 3 := by
    show seedOne env ∅ _ = _
    unfold seedOne
    rw [show env.openAttachment "/m.pst" 36 37 = .ok (cleanReader 3) from rfl]
    dsimp only
    rw [hdigest]
    rfl
  rw [hseeds]
  decide +kernel

end PstDedupCli
