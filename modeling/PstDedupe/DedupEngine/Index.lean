import PstDedupe.DedupEngine.GroupCandidates

/-!
# The streaming index (`dedup-engine/src/index.rs`, `rebuild_dedup_results_with_ctx`)

`DedupIndex::check_and_insert_item` answers for one item at a time whether it is unique or a
duplicate of an earlier one.
-/

namespace DedupEngine

open List

open Rust (Bytes32 HashMap)

inductive DedupTier where
  | messageId | contentHash | strongContentHash
  deriving DecidableEq, Repr

structure MessageRef where
  pstIndex : Nat
  pstName : String
  folderPath : String
  nid : Nat
  subject : String
  submitTime : Option Int
  sender : String
  size : Nat
  deriving DecidableEq, Repr, Inhabited

inductive DedupResult where
  | unique
  | duplicateOf (original : MessageRef) (tier : DedupTier) (boundBy : BoundBy)
  deriving DecidableEq, Repr

structure IndexItem where
  messageId : Option String
  contentHash : Bytes32
  strongContentHash : Option Bytes32
  tier2Eligible : Bool
  sourceKey : String
  fp : Fingerprints
  msgRef : MessageRef

structure GroupSlot where
  msgRef : MessageRef
  boundMid : Option String
  bindHash : Bytes32
  fp : Fingerprints

structure DedupIndex where
  ctx : GroupingContext
  messageIds : HashMap String GroupSlot := ∅
  contentHashes : HashMap (List UInt8) GroupSlot := ∅
  uniqueCount : Nat := 0
  duplicateCount : Nat := 0
  tier1Hits : Nat := 0
  tier2Hits : Nat := 0
  notes : GroupingNotes := {}

namespace DedupIndex

variable (idx : DedupIndex) (item : IndexItem)

def tier2BindHash (identity : IdentityLevel) : Bytes32 :=
  if identity.isStrong then item.strongContentHash.getD item.contentHash else item.contentHash

def midKeyOf (mid : String) : String := midKey idx.ctx item.sourceKey mid

def hashMapKey : List UInt8 := hashKey idx.ctx item.sourceKey (tier2BindHash item idx.ctx.identity)

def tierForBound : BoundBy → DedupTier
  | .messageId => .messageId
  | .strongContentHash => .strongContentHash
  | .contentHash | .seed => .contentHash

def tier1Slot : Option GroupSlot :=
  (midPresent item.messageId).bind fun m => idx.messageIds.get (idx.midKeyOf item m)

def shouldSplitTier1 (slot : GroupSlot) : Bool :=
  match idx.ctx.tier1Verify with
  | .off => false
  | .content => tier2BindHash item idx.ctx.identity != slot.bindHash
  | .body => item.fp.body != slot.fp.body

def eligible : Bool := item.tier2Eligible || !idx.ctx.enforceReadableBody

def tier2Slot : Option GroupSlot :=
  if idx.ctx.tier2Enabled && idx.eligible item then idx.contentHashes.get (idx.hashMapKey item)
  else none

def slotOf : GroupSlot where
  msgRef := item.msgRef
  boundMid := midPresent item.messageId
  bindHash := tier2BindHash item idx.ctx.identity
  fp := item.fp

/-- The last stage: the item is unique and both maps learn it; a hash entry is never overwritten. -/
def insertUnique : DedupIndex :=
  { idx with
    messageIds :=
      match midPresent item.messageId with
      | some m => AList.insert (idx.midKeyOf item m) (idx.slotOf item) idx.messageIds
      | none => idx.messageIds
    contentHashes :=
      if idx.ctx.tier2Enabled && idx.eligible item then
        idx.contentHashes.orInsert (idx.hashMapKey item) (idx.slotOf item)
      else idx.contentHashes
    uniqueCount := idx.uniqueCount + 1 }

def registerJoin (slot : GroupSlot) : Option String → DedupIndex
  | none => idx
  | some nb =>
    { idx with
      contentHashes :=
        if slot.boundMid.isNone then
          AList.insert (idx.hashMapKey item) { slot with boundMid := some nb } idx.contentHashes
        else idx.contentHashes
      messageIds := idx.messageIds.orInsert (idx.midKeyOf item nb)
        { msgRef := slot.msgRef
          boundMid := some nb
          bindHash := tier2BindHash item idx.ctx.identity
          fp := item.fp } }

def noteTier1 : DedupIndex :=
  match idx.tier1Slot item with
  | some slot => { idx with notes := idx.notes.noteTier1Divergence item.fp slot.fp }
  | none => idx

def checkAndInsertCore : DedupIndex × DedupResult :=
  match (idx.tier1Slot item).filter fun slot => !idx.shouldSplitTier1 item slot with
  | some slot =>
    ({ idx with duplicateCount := idx.duplicateCount + 1, tier1Hits := idx.tier1Hits + 1 },
      .duplicateOf slot.msgRef .messageId .messageId)
  | none =>
    match idx.tier2Slot item with
    | none => (idx.insertUnique item, .unique)
    | some slot =>
      let mid := midPresent item.messageId
      let join := midJoinCompatible slot.boundMid mid idx.ctx.blockCrossMid
      if join.1 then
        let boundBy := boundByForTier2 idx.ctx
        ({ idx.registerJoin item slot join.2 with
            duplicateCount := idx.duplicateCount + 1, tier2Hits := idx.tier2Hits + 1 },
          .duplicateOf slot.msgRef (tierForBound boundBy) boundBy)
      else
        let notes := idx.notes.noteCrossMidBlocked (idx.hashMapKey item) slot.boundMid mid
        ({ idx with notes := notes }.insertUnique item, .unique)

def checkAndInsertItem : DedupIndex × DedupResult := (idx.noteTier1 item).checkAndInsertCore item

end DedupIndex

variable [Rust.Target]

/-- Full identities of messages, by source PST name and NID. -/
abbrev MessageRefs := HashMap (String × Nat) MessageRef

def messageRefOf (refs : MessageRefs) (c : RecoverableScanItem) : MessageRef :=
  (refs.get (c.locus.sourcePst, c.locus.nid)).getD
    { pstIndex := 0
      pstName := c.locus.sourcePst
      folderPath := c.locus.folderPath
      nid := c.locus.nid
      subject := ""
      submitTime := none
      sender := ""
      size := c.size }

def indexItemOf (ctx : GroupingContext) (refs : MessageRefs) (c : RecoverableScanItem) : IndexItem where
  messageId := c.messageIdNorm
  contentHash := c.contentHash
  strongContentHash := c.strongContentHash
  tier2Eligible := c.eligible ctx
  sourceKey := c.pathKey
  fp := c.fingerprints
  msgRef := messageRefOf refs c

def recordScan (ctx : GroupingContext) (c : RecoverableScanItem) (s : GroupingStats) : GroupingStats :=
  let s := s.recordTier2Block ctx c
  if c.previewBytesOverBudget then
    { s with tier2PreviewBytesOverBudget := s.tier2PreviewBytesOverBudget + 1 } else s

def insertScanItem (ctx : GroupingContext) (refs : MessageRefs) (idx : DedupIndex)
    (c : RecoverableScanItem) : DedupIndex × DedupResult :=
  let idx := { idx with notes := { idx.notes with stats := recordScan ctx c idx.notes.stats } }
  idx.checkAndInsertItem (indexItemOf ctx refs c)

def feed (ctx : GroupingContext) (refs : MessageRefs) (items : List RecoverableScanItem) :
    DedupIndex × List DedupResult :=
  Foundations.enumFold (fun s _ c =>
    let r := insertScanItem ctx refs s.1 c
    (r.1, s.2 ++ [r.2])) ({ ctx := ctx }, []) items

structure RebuildDedupOutcome where
  results : HashMap (String × Nat) DedupResult
  index : DedupIndex
  totalSavings : Nat

def rebuildDedupResultsWithCtx (candidates : List RecoverableScanItem) (refs : MessageRefs)
    (ctx : GroupingContext) : RebuildDedupOutcome :=
  let ordered := candidates.insertionSort fun a b => a.scanOrder ≤ b.scanOrder
  let (idx, results) := feed ctx refs ordered
  let answered := ordered.zip results
  { results := answered.foldl
      (fun m p => AList.insert (p.1.locus.sourcePst, p.1.locus.nid) p.2 m) ∅
    index := idx
    totalSavings := answered.foldl (fun n p =>
      match p.2 with
      | .duplicateOf .. => min (n + p.1.size) (2 ^ 64 - 1)
      | .unique => n) 0 }

end DedupEngine

/-!
# What the answers of the index name and count

Whatever the guards decide, an answer that names an original names an item that was fed before, and
the counter of duplicates counts the answers that are duplicates.
-/

namespace DedupEngine

open Rust (HashMap)
open List

def DedupResult.isDuplicate : DedupResult → Bool
  | .unique => false
  | .duplicateOf .. => true

def DedupIndex.SlotsIn (idx : DedupIndex) (R : MessageRef → Prop) : Prop :=
  (∀ k slot, idx.messageIds.get k = some slot → R slot.msgRef) ∧
    ∀ k slot, idx.contentHashes.get k = some slot → R slot.msgRef

structure AnswersOne (idx idx' : DedupIndex) (item : IndexItem) (r : DedupResult) : Prop where
  slots : ∀ R : MessageRef → Prop, idx.SlotsIn R → R item.msgRef → idx'.SlotsIn R
  names : ∀ R : MessageRef → Prop, idx.SlotsIn R → ∀ m tier boundBy, r = .duplicateOf m tier boundBy → R m
  count : idx'.duplicateCount = idx.duplicateCount + if r.isDuplicate then 1 else 0

namespace DedupIndex

variable {idx : DedupIndex} {item : IndexItem} {R : MessageRef → Prop} {slot : GroupSlot}

theorem SlotsIn.of_tier1Slot (h : idx.SlotsIn R) (hslot : idx.tier1Slot item = some slot) : R slot.msgRef := by
  obtain ⟨m, _, hget⟩ := Option.bind_eq_some_iff.mp hslot
  exact h.1 _ slot hget

theorem SlotsIn.of_tier2Slot (h : idx.SlotsIn R) (hslot : idx.tier2Slot item = some slot) : R slot.msgRef := by
  unfold tier2Slot at hslot
  split at hslot
  · exact h.2 _ slot hslot
  · cases hslot

theorem slots_insert {K : Type} [DecidableEq K] {m : HashMap K GroupSlot} {k : K}
    (h : ∀ k slot, m.get k = some slot → R slot.msgRef) (hslot : R slot.msgRef) :
    ∀ k' slot', HashMap.get (AList.insert k slot m) k' = some slot' → R slot'.msgRef := by
  intro k' slot' hget
  rw [HashMap.get_insert] at hget
  split at hget
  · rw [← Option.some.inj hget]
    exact hslot
  · exact h k' slot' hget

theorem slots_orInsert {K : Type} [DecidableEq K] {m : HashMap K GroupSlot} {k : K}
    (h : ∀ k slot, m.get k = some slot → R slot.msgRef) (hslot : R slot.msgRef) :
    ∀ k' slot', (m.orInsert k slot).get k' = some slot' → R slot'.msgRef := by
  intro k' slot' hget
  unfold HashMap.orInsert at hget
  split at hget
  · exact h k' slot' hget
  · exact slots_insert h hslot k' slot' hget

theorem SlotsIn.insertUnique (h : idx.SlotsIn R) (hitem : R item.msgRef) :
    (idx.insertUnique item).SlotsIn R := by
  constructor
  · show ∀ k slot, HashMap.get (match midPresent item.messageId with
      | some m => AList.insert (idx.midKeyOf item m) (idx.slotOf item) idx.messageIds
      | none => idx.messageIds) k = some slot → R slot.msgRef
    cases midPresent item.messageId with
    | none => exact h.1
    | some m => exact slots_insert h.1 hitem
  · show ∀ k slot, HashMap.get (if idx.ctx.tier2Enabled && idx.eligible item then
      idx.contentHashes.orInsert (idx.hashMapKey item) (idx.slotOf item)
      else idx.contentHashes) k = some slot → R slot.msgRef
    split
    · exact slots_orInsert h.2 hitem
    · exact h.2

theorem SlotsIn.registerJoin (h : idx.SlotsIn R) (hslot : R slot.msgRef)
    (boundMid : Option String) : (idx.registerJoin item slot boundMid).SlotsIn R := by
  cases boundMid with
  | none => exact h
  | some nb =>
    constructor
    · exact slots_orInsert h.1 hslot
    · show ∀ k slot', HashMap.get (if slot.boundMid.isNone then
        AList.insert (idx.hashMapKey item) { slot with boundMid := some nb } idx.contentHashes
        else idx.contentHashes) k = some slot' → R slot'.msgRef
      split
      · exact slots_insert h.2 hslot
      · exact h.2

theorem checkAndInsertCore_answers (idx : DedupIndex) (item : IndexItem) :
    AnswersOne idx (idx.checkAndInsertCore item).1 item (idx.checkAndInsertCore item).2 := by
  unfold checkAndInsertCore
  split
  · rename_i slot hslot
    have htier : idx.tier1Slot item = some slot := (Option.filter_eq_some_iff.mp hslot).1
    refine ⟨fun R h _ => h, fun R h m tier boundBy hr => ?_, rfl⟩
    cases hr
    exact h.of_tier1Slot htier
  · split
    · exact ⟨fun R h hitem => h.insertUnique hitem, fun R h m tier boundBy hr => (nomatch hr), rfl⟩
    · rename_i slot hslot
      simp only
      split
      · refine ⟨fun R h _ => h.registerJoin (h.of_tier2Slot hslot) _, fun R h m tier boundBy hr => ?_, rfl⟩
        cases hr
        exact h.of_tier2Slot hslot
      · refine ⟨fun R h hitem => ?_, fun R h m tier boundBy hr => (nomatch hr), rfl⟩
        exact SlotsIn.insertUnique h hitem

theorem checkAndInsertItem_answers (idx : DedupIndex) (item : IndexItem) :
    AnswersOne idx (idx.checkAndInsertItem item).1 item (idx.checkAndInsertItem item).2 := by
  -- the report of a divergence touches neither map nor counter
  have hnote : (idx.noteTier1 item).messageIds = idx.messageIds ∧
      (idx.noteTier1 item).contentHashes = idx.contentHashes ∧
      (idx.noteTier1 item).duplicateCount = idx.duplicateCount := by
    unfold noteTier1
    split <;> exact ⟨rfl, rfl, rfl⟩
  have h := checkAndInsertCore_answers (idx.noteTier1 item) item
  have hslots : ∀ R : MessageRef → Prop, idx.SlotsIn R → (idx.noteTier1 item).SlotsIn R := by
    intro R hR
    unfold SlotsIn
    rw [hnote.1, hnote.2.1]
    exact hR
  refine ⟨fun R hR => h.slots R (hslots R hR), fun R hR => h.names R (hslots R hR), ?_⟩
  rw [← hnote.2.2]
  exact h.count

end DedupIndex

variable [Rust.Target] {ctx : GroupingContext} {refs : MessageRefs}

structure Answered (refs : MessageRefs) (items : List RecoverableScanItem)
    (s : DedupIndex × List DedupResult) : Prop where
  length : s.2.length = items.length
  slots : s.1.SlotsIn fun m => ∃ c ∈ items, m = messageRefOf refs c
  names : ∀ m tier boundBy, .duplicateOf m tier boundBy ∈ s.2 → ∃ c ∈ items, m = messageRefOf refs c
  count : s.1.duplicateCount = s.2.countP DedupResult.isDuplicate

theorem feed_answered (ctx : GroupingContext) (refs : MessageRefs)
    (items : List RecoverableScanItem) : Answered refs items (feed ctx refs items) := by
  induction items using List.reverseRecOn with
  | nil =>
    refine ⟨rfl, ⟨fun k slot hget => ?_, fun k slot hget => ?_⟩, fun m tier boundBy hm => (nomatch hm), rfl⟩
    · rw [show (feed ctx refs []).1.messageIds = ∅ from rfl, HashMap.get_empty] at hget
      cases hget
    · rw [show (feed ctx refs []).1.contentHashes = ∅ from rfl, HashMap.get_empty] at hget
      cases hget
  | append_singleton items c ih =>
    have hstep : feed ctx refs (items ++ [c]) = ((insertScanItem ctx refs (feed ctx refs items).1 c).1,
          (feed ctx refs items).2 ++ [(insertScanItem ctx refs (feed ctx refs items).1 c).2]) :=
      Foundations.enumFold_concat _ _ _ _
    rw [hstep]
    generalize feed ctx refs items = s at ih ⊢
    have hone : AnswersOne _ (insertScanItem ctx refs s.1 c).1 (indexItemOf ctx refs c)
        (insertScanItem ctx refs s.1 c).2 := DedupIndex.checkAndInsertItem_answers _ _
    -- an item stays on record
    have hmono : ∀ m, (∃ c' ∈ items, m = messageRefOf refs c') →
        ∃ c' ∈ items ++ [c], m = messageRefOf refs c' := by
      rintro m ⟨c', hc', hm⟩
      exact ⟨c', mem_append_left _ hc', hm⟩
    have hslots : s.1.SlotsIn fun m => ∃ c' ∈ items ++ [c], m = messageRefOf refs c' :=
      ⟨fun k slot hget => hmono _ (ih.slots.1 k slot hget),
        fun k slot hget => hmono _ (ih.slots.2 k slot hget)⟩
    have hself : ∃ c' ∈ items ++ [c], (indexItemOf ctx refs c).msgRef = messageRefOf refs c' :=
      ⟨c, by simp, rfl⟩
    refine ⟨by simp [ih.length],
      hone.slots (fun m => ∃ c' ∈ items ++ [c], m = messageRefOf refs c') hslots hself, fun m tier boundBy hm => ?_, ?_⟩
    · rcases List.mem_append.mp hm with hm | hm
      · exact hmono m (ih.names m tier boundBy hm)
      · exact hone.names (fun m => ∃ c' ∈ items ++ [c], m = messageRefOf refs c') hslots m tier
          boundBy (List.mem_singleton.mp hm).symm
    · rw [countP_append, countP_singleton, ← ih.count]
      exact hone.count

end DedupEngine
