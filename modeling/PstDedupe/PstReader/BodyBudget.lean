import PstDedupe.PstReader.BlockPaths
import PstDedupe.PstReader.PropContext

/-!
# Budgeted property loads (`pst-reader/src/ltp/pc.rs`)

A load that is given a budget adds up how large the body subnodes say they are before it reads one
of them.
-/

namespace PstReader

open Foundations Rust List Prod

structure SubnodeEntry where
  nid : Nat
  bidData : Nat
  bidSub : Nat
  deriving DecidableEq, Repr

def SubnodeEntry.rawNid (entry : SubnodeEntry) : Nat := entry.nid % 2 ^ 32

def entryOffsets (size : Nat) (payload : Bytes) : List Nat :=
  ((range (cEntriesOf payload)).map (8 + · * size)).takeWhile (· + size ≤ payload.length)

def slEntries (payload : Bytes) : List SubnodeEntry :=
  (entryOffsets 24 payload).map fun offset =>
    ⟨readLe 8 payload offset, readLe 8 payload (offset + 8), readLe 8 payload (offset + 16)⟩

def siBids (payload : Bytes) : List Nat :=
  (entryOffsets 16 payload).map fun offset => readLe 8 payload (offset + 8)

def listChildren (list : Nat → Finset Nat → Result (List SubnodeEntry × Finset Nat)) :
    List Nat → Finset Nat → Result (List SubnodeEntry × Finset Nat)
  | [], visited => .ok ([], visited)
  | child :: rest, visited => do
    let (entries, visited) ← list child visited
    let (more, visited) ← listChildren list rest visited
    return (entries ++ more, visited)

def listSubnodeEntriesAt (file : Bytes) (bbt : BbtIndex) :
    Nat → Nat → Finset Nat → Result (List SubnodeEntry × Finset Nat)
  | left, subBid, visited =>
    if isNull subBid then .ok ([], visited)
    else match left with
      | 0 => .error (.resourceLimit s!"subnode depth {maxSubnodeDepth + 1} exceeds max {maxSubnodeDepth}")
      | left + 1 =>
        if subBid ∈ visited then .error (.btreeCycle subBid)
        else do
          let visited := insert subBid visited
          let payload ← readPayload file bbt subBid
          if payload.length < 8 then return ([], visited)
          else
            match btypeOf payload, clevelOf payload with
            | 2, 0 => return (slEntries payload, visited)
            | 2, 1 => listChildren (listSubnodeEntriesAt file bbt left) (siBids payload) visited
            -- any other block has no entries
            | _, _ => return ([], visited)

def listSubnodeEntries (file : Bytes) (bbt : BbtIndex) (subBid : Nat) : Result (List SubnodeEntry) := do
  let (entries, _) ← listSubnodeEntriesAt file bbt (maxSubnodeDepth + 1) subBid ∅
  return entries

def blockPayloadLenHint (file : Bytes) (bbt : BbtIndex) (bid : Nat) : Result Nat :=
  if isNull bid then .ok 0
  else do
    let payload ← readPayload file bbt bid
    if !isInternal bid then return payloadSize bbt bid
    else if payload.length < 8 then .error (.dataTruncated 8 payload.length)
    else
      match btypeOf payload, clevelOf payload with
      | 1, 1 => return lcbTotalOf payload
      | 1, 2 => return lcbTotalOf payload
      | btype, _ => .error (.invalidBlockType 1 btype)

def saturatingAddU64 (a b : Nat) : Nat := min (a + b) (2 ^ 64 - 1)

theorem saturatingAddU64_lt (a b : Nat) : saturatingAddU64 a b < 2 ^ 64 := by
  unfold saturatingAddU64
  omega

theorem le_saturatingAddU64 {a : Nat} (b : Nat) (h : a < 2 ^ 64) : a ≤ saturatingAddU64 a b := by
  unfold saturatingAddU64
  omega

def overBudget (bodyPropId tip aggregate budget : Nat) : PstError :=
  let digits := String.ofList ((Nat.toDigits 16 bodyPropId).leftpad 4 '0')
  .resourceLimit (s!"embedded body/html aggregate subnode hint={aggregate} (prop 0x{digits} tip={tip}) "
    ++ s!"exceeds budget={budget}")

def preflight (hint : Nat → Result Nat) (budget : Nat) : List (Nat × Nat) → Nat → Result Unit
  | [], _ => .ok ()
  | (bodyPropId, bid) :: rest, aggregate => do
    let tip ← hint bid
    if saturatingAddU64 aggregate tip > budget then
      .error (overBudget bodyPropId tip (saturatingAddU64 aggregate tip) budget)
    else preflight hint budget rest (saturatingAddU64 aggregate tip)

structure PcBlocks where
  file : Bytes
  bbt : BbtIndex
  bidData : Nat
  bidSub : Nat
  crypt : CryptMethod

namespace PcBlocks

def leafBytes (src : PcBlocks) (bid : Nat) : Nat :=
  match readPayload src.file src.bbt bid with
  | .ok payload => dataSize src.bbt (rgBids payload)
  | .error _ => 0

def treeBytes (src : PcBlocks) (bid : Nat) : Nat :=
  if isNull bid then 0
  else if !isInternal bid then payloadSize src.bbt bid
  else
    match readPayload src.file src.bbt bid with
    | .ok payload =>
      if clevelOf payload = 1 then src.leafBytes bid else ((rgBids payload).map src.leafBytes).sum
    | .error _ => 0

variable {src : PcBlocks} {bid : Nat} {d : Bytes}

theorem length_readXblock {child : Nat} (h : (do
      let payload ← readPayload src.file src.bbt child
      readXblockData src.file src.bbt payload src.crypt) = .ok d) : d.length = src.leafBytes child := by
  obtain ⟨payload, hp, hread⟩ := bind_eq_ok.mp h
  unfold readXblockData at hread
  obtain ⟨-, -, parts, hparts, rfl, -⟩ := readInternal_eq_ok.mp hread
  rw [length_flatten_readExternal hparts, leafBytes, hp]

theorem length_flatten_of_forall₂ {children : List Nat} {parts : List Bytes} {size : Nat → Nat}
    (h : Forall₂ (fun c part => part.length = size c) children parts) :
    parts.flatten.length = (children.map size).sum := by
  induction h with
  | nil => rfl
  | cons hpart _ ih => rw [flatten_cons, length_append, map_cons, sum_cons, hpart, ih]

theorem read_spec_tree (h : readBlockData src.file src.bbt bid src.crypt = .ok d) :
    d.length = src.treeBytes bid ∧ ∃ hint, blockPayloadLenHint src.file src.bbt bid = .ok hint := by
  unfold readBlockData at h
  unfold treeBytes blockPayloadLenHint
  by_cases hnull : isNull bid = true
  · rw [if_pos hnull] at h
    rw [if_pos hnull, if_pos hnull]
    cases h
    exact ⟨rfl, 0, rfl⟩
  rw [if_neg hnull] at h
  rw [if_neg hnull, if_neg hnull]
  obtain ⟨payload, hp, h⟩ := bind_eq_ok.mp h
  rw [hp]
  by_cases hext : (!isInternal bid) = true
  · rw [if_pos hext] at h
    cases h
    rw [if_pos hext]
    exact ⟨by rw [length_decryptBlock, length_readPayload hp], payloadSize src.bbt bid,
      by simp [bind, Except.bind, hext, pure, Except.pure]⟩
  rw [if_neg hext] at h
  rw [if_neg hext]
  split at h
  · cases h
  -- both kinds of internal blocks have a full header, or they are not read
  split at h
  · next hbtype hclevel =>
    have hread := h
    unfold readXblockData at h
    obtain ⟨hheader, -⟩ := readInternal_eq_ok.mp h
    refine ⟨?_, lcbTotalOf payload, ?_⟩
    · simp only [hclevel]
      exact length_readXblock (bind_eq_ok.mpr ⟨payload, hp, hread⟩)
    · simp [bind, Except.bind, hext, show ¬payload.length < 8 by omega, hbtype, hclevel, pure, Except.pure]
  · next hbtype hclevel =>
    unfold readXxblockData at h
    obtain ⟨hheader, -, parts, hparts, rfl, -⟩ := readInternal_eq_ok.mp h
    refine ⟨?_, lcbTotalOf payload, ?_⟩
    · simp only [hclevel]
      exact length_flatten_of_forall₂ (hparts.imp fun _ _ => length_readXblock)
    · simp [bind, Except.bind, hext, show ¬payload.length < 8 by omega, hbtype, hclevel, pure, Except.pure]
  · cases h

end PcBlocks

variable [PointerWidth]

def vec (bytes : Bytes) : Reader Slice :=
  if h : bytes.length ≤ isizeMax then pure ⟨bytes, h⟩ else panic .capacityOverflow

def returning {α : Type} (r : Result α) : Reader α := ExceptT.mk (.ok r)

def bodySubnodeValueHnid (data : Slice) (bodyPropId : Nat) : Reader (Option Nat) := do
  let heap ← Heap.parse data (blockSizeOf data)
  let bthHeader ← readBthHeader heap heap.header.hidUserRoot
  let records ← collectRecords heap bthHeader
  match records.find? fun r => r.key.bytes = leBytes 2 bodyPropId ∧ 6 ≤ r.data.len with
  | none => pure none
  | some record =>
    let propType ← (← record.data.range 0 2).readLe 2
    let valueHnid ← (← record.data.range 2 6).readLe 4
    if (propType = 0x001F ∨ propType = 0x0102) ∧ (⟨valueHnid⟩ : Hid).hidType ≠ 0 then pure (some valueHnid)
    else pure none

def budgetedHnids (data : Slice) (bodyPropIds : List Nat) : Reader (List (Nat × Nat)) := do
  let hnids ← bodyPropIds.mapM fun id => return (← bodySubnodeValueHnid data id).map (id, ·)
  return hnids.reduceOption

/-- A property context, and the subnodes that were read for it, in this order. -/
structure LoadedPc where
  pc : PropContext
  fetched : List (Nat × Slice)

namespace PcBlocks

variable {fetched : List (Nat × Slice)}

def readData (src : PcBlocks) : Reader Slice := do
  vec (← returning (readBlockData src.file src.bbt src.bidData src.crypt))

def neededEntries (src : PcBlocks) (data : Slice) : Reader (List SubnodeEntry) :=
  if isNull src.bidSub then pure []
  else do
    let needed ← referencedSubnodeNids data
    if needed.isEmpty then pure []
    else
      let entries ← returning (listSubnodeEntries src.file src.bbt src.bidSub)
      return entries.filter (·.rawNid ∈ needed)

def fetch (src : PcBlocks) (entry : SubnodeEntry) : Reader (Nat × Slice) := do
  let bytes ← returning (readBlockData src.file src.bbt entry.bidData src.crypt)
  return (entry.rawNid, ← vec bytes)

def finish (data : Slice) (fetched : List (Nat × Slice)) : Reader LoadedPc := do
  let pc ← PropContext.loadWithSubnodes data (fetched.foldl (fun subnodes f => subnodes.insert f.1 f.2) ∅)
  pure ⟨pc, fetched⟩

def loadPcFromBids (src : PcBlocks) : Reader LoadedPc := do
  let data ← src.readData
  let entries ← src.neededEntries data
  finish data (← entries.mapM src.fetch)

structure Survey where
  data : Slice
  budgeted : List (Nat × Nat)
  entries : List SubnodeEntry

def survey (src : PcBlocks) (bodyPropIds : List Nat) : Reader Survey := do
  let data ← src.readData
  let budgeted ← budgetedHnids data bodyPropIds
  return ⟨data, budgeted, ← src.neededEntries data⟩

/-- The data blocks whose hints are added up: property by property, each with its entries. -/
def Survey.hinted (s : Survey) : List (Nat × Nat) :=
  s.budgeted.flatMap fun b => (s.entries.filter (·.rawNid = b.2)).map fun entry => (b.1, entry.bidData)

def loadPcFromBidsWithBodyBudget (src : PcBlocks) (bodyPropIds : List Nat) (bodyByteBudget : Nat) :
    Reader LoadedPc := do
  let s ← src.survey bodyPropIds
  returning (preflight (blockPayloadLenHint src.file src.bbt) bodyByteBudget s.hinted 0)
  finish s.data (← s.entries.mapM src.fetch)

def Survey.materialized (s : Survey) (loaded : LoadedPc) : Nat :=
  ((loaded.fetched.filter fun f => f.1 ∈ s.budgeted.map snd).map fun f => f.2.len).sum

def declared (src : PcBlocks) (s : Survey) : Nat :=
  s.hinted.foldl (fun total b =>
    saturatingAddU64 total ((blockPayloadLenHint src.file src.bbt b.2).toOption.getD 0)) 0

def held (src : PcBlocks) (s : Survey) : Nat :=
  ((s.entries.filter fun entry => entry.rawNid ∈ s.budgeted.map snd).map fun entry =>
    src.treeBytes entry.bidData).sum

/-- Every budget bounds what a load with it has read for the budgeted properties. -/
def BudgetKept (src : PcBlocks) (bodyPropIds : List Nat) : Prop :=
  ∀ budget s loaded, budget < 2 ^ 64 → src.survey bodyPropIds = pure s →
    src.loadPcFromBidsWithBodyBudget bodyPropIds budget = pure loaded → s.materialized loaded ≤ budget

variable {src : PcBlocks} {bodyPropIds : List Nat} {budget : Nat} {s : Survey} {loaded : LoadedPc}

omit [PointerWidth] in
theorem returning_eq_pure {α : Type} {r : Result α} {a : α} : returning r = pure a ↔ r = .ok a :=
  ⟨fun h => Except.ok.inj h, fun h => h ▸ rfl⟩

theorem fetch_eq_pure {entry : SubnodeEntry} {f : Nat × Slice} (h : src.fetch entry = pure f) :
    f.1 = entry.rawNid ∧ readBlockData src.file src.bbt entry.bidData src.crypt = .ok f.2.bytes := by
  obtain ⟨bytes, hbytes, h⟩ := bind_eq_pure.mp h
  obtain ⟨slice, hslice, h⟩ := bind_eq_pure.mp h
  cases h
  unfold vec at hslice
  split at hslice
  · cases hslice
    exact ⟨rfl, returning_eq_pure.mp hbytes⟩
  · cases hslice

theorem finish_fetched {data : Slice} (h : finish data fetched = pure loaded) : loaded.fetched = fetched := by
  obtain ⟨pc, -, h⟩ := bind_eq_pure.mp h
  cases h
  rfl

theorem sum_filter_eq {entries : List SubnodeEntry} (hnids : List Nat)
    (h : Forall₂ (fun entry f => src.fetch entry = pure f) entries fetched) :
    ((fetched.filter fun f => f.1 ∈ hnids).map fun f => f.2.len).sum =
      ((entries.filter fun entry => entry.rawNid ∈ hnids).map
        fun entry => src.treeBytes entry.bidData).sum := by
  induction h with
  | nil => rfl
  | cons hfetch _ ih =>
    obtain ⟨hnid, hread⟩ := fetch_eq_pure hfetch
    rw [filter_cons, filter_cons, hnid]
    split
    · rw [map_cons, map_cons, sum_cons, sum_cons, ih, ← (read_spec_tree hread).1]
      rfl
    · exact ih

theorem held_eq (h : s.entries.mapM src.fetch = pure fetched)
    (hload : finish s.data fetched = pure loaded) : s.materialized loaded = src.held s := by
  unfold Survey.materialized
  rw [finish_fetched hload]
  exact sum_filter_eq _ (mapM_eq_pure_iff.mp h)

omit [PointerWidth] in
theorem le_foldl_saturating (sizes : List (Nat × Nat)) (size : Nat × Nat → Nat) {total : Nat}
    (h : total < 2 ^ 64) :
    total ≤ sizes.foldl (fun total b => saturatingAddU64 total (size b)) total := by
  induction sizes generalizing total with
  | nil => exact Nat.le_refl total
  | cons b sizes ih => exact (le_saturatingAddU64 _ h).trans (ih (saturatingAddU64_lt _ _))

omit [PointerWidth] in
theorem preflight_eq_ok {hint : Nat → Result Nat} {pairs : List (Nat × Nat)} {total : Nat}
    (hints : ∀ b ∈ pairs, ∃ tip, hint b.2 = .ok tip) (htotal : total ≤ budget) (h64 : total < 2 ^ 64) :
    preflight hint budget pairs total = .ok () ↔
      pairs.foldl (fun total b => saturatingAddU64 total ((hint b.2).toOption.getD 0)) total ≤ budget := by
  induction pairs generalizing total with
  | nil => exact iff_of_true rfl htotal
  | cons b pairs ih =>
    obtain ⟨tip, htip⟩ := hints b mem_cons_self
    have hnext := saturatingAddU64_lt total tip
    unfold preflight
    rw [foldl_cons, htip, bind_eq_ok]
    show (∃ a, Except.ok tip = Except.ok a ∧ _) ↔ pairs.foldl _ (saturatingAddU64 total tip) ≤ budget
    constructor
    · rintro ⟨_, hok, h⟩
      cases hok
      split at h
      · cases h
      · next hle => exact (ih (fun b hb => hints b (mem_cons_of_mem _ hb)) (Nat.le_of_not_lt hle) hnext).mp h
    · intro h
      -- the hints so far are within the budget, since all of them are
      have hle := (le_foldl_saturating pairs _ hnext).trans h
      refine ⟨tip, rfl, ?_⟩
      rw [if_neg (Nat.not_lt.mpr hle)]
      exact (ih (fun b hb => hints b (mem_cons_of_mem _ hb)) hle hnext).mpr h

theorem hints_of_fetch (h : s.entries.mapM src.fetch = pure fetched) :
    ∀ b ∈ s.hinted, ∃ tip, blockPayloadLenHint src.file src.bbt b.2 = .ok tip := by
  intro b hb
  obtain ⟨budgeted, -, hb⟩ := List.mem_flatMap.mp hb
  obtain ⟨entry, hentry, rfl⟩ := List.mem_map.mp hb
  obtain ⟨f, -, hf⟩ := exists_right_of_forall₂ (mapM_eq_pure_iff.mp h) (List.mem_filter.mp hentry).1
  exact (read_spec_tree (fetch_eq_pure hf).2).2

theorem loadWithBodyBudget_eq_pure (hs : src.survey bodyPropIds = pure s) :
    src.loadPcFromBidsWithBodyBudget bodyPropIds budget = pure loaded ↔
      ∃ fetched, s.entries.mapM src.fetch = pure fetched ∧ finish s.data fetched = pure loaded ∧
        src.declared s ≤ budget := by
  unfold loadPcFromBidsWithBodyBudget
  rw [hs, pure_bind, bind_eq_pure]
  constructor
  · rintro ⟨⟨⟩, hpreflight, h⟩
    obtain ⟨fetched, hfetched, hfinish⟩ := bind_eq_pure.mp h
    exact ⟨fetched, hfetched, hfinish,
      (preflight_eq_ok (hints_of_fetch hfetched) (Nat.zero_le _) (by decide)).mp
      (returning_eq_pure.mp hpreflight)⟩
  · rintro ⟨fetched, hfetched, hfinish, hdeclared⟩
    refine ⟨(), returning_eq_pure.mpr ?_, bind_eq_pure.mpr ⟨fetched, hfetched, hfinish⟩⟩
    exact (preflight_eq_ok (hints_of_fetch hfetched) (Nat.zero_le _) (by decide)).mpr hdeclared

theorem loadPcFromBids_eq_pure (hs : src.survey bodyPropIds = pure s) : src.loadPcFromBids = pure loaded ↔
      ∃ fetched, s.entries.mapM src.fetch = pure fetched ∧ finish s.data fetched = pure loaded := by
  obtain ⟨data, hdata, hs⟩ := bind_eq_pure.mp hs
  obtain ⟨budgeted, -, hs⟩ := bind_eq_pure.mp hs
  obtain ⟨entries, hentries, hs⟩ := bind_eq_pure.mp hs
  cases hs
  unfold loadPcFromBids
  rw [hdata, pure_bind, hentries, pure_bind]
  exact bind_eq_pure

theorem declared_lt (src : PcBlocks) (s : Survey) : src.declared s < 2 ^ 64 := by
  have hbound (pairs : List (Nat × Nat)) (size : Nat × Nat → Nat) (total : Nat) (h : total < 2 ^ 64) :
      pairs.foldl (fun total b => saturatingAddU64 total (size b)) total < 2 ^ 64 := by
    induction pairs generalizing total with
    | nil => exact h
    | cons b pairs ih => exact ih _ (saturatingAddU64_lt _ _)
  exact hbound _ _ 0 (by decide)

/-- **A budget bounds** what is read of the bodies, whatever it is, if and only if the bodies of a
context that can be loaded hold no more than they declare. -/
theorem budgetKept_iff (src : PcBlocks) (bodyPropIds : List Nat) : src.BudgetKept bodyPropIds ↔
      ∀ s loaded, src.survey bodyPropIds = pure s → src.loadPcFromBids = pure loaded →
        src.held s ≤ src.declared s := by
  constructor
  · intro hkept s loaded hs hload
    obtain ⟨fetched, hfetched, hfinish⟩ := (loadPcFromBids_eq_pure hs).mp hload
    -- the budget that is declared is enough to load
    have hbudgeted := (loadWithBodyBudget_eq_pure hs).mpr ⟨fetched, hfetched, hfinish, Nat.le_refl _⟩
    have hle := hkept _ s loaded (declared_lt src s) hs hbudgeted
    rwa [held_eq hfetched hfinish] at hle
  · intro hdeclared budget s loaded _ hs hload
    obtain ⟨fetched, hfetched, hfinish, hle⟩ := (loadWithBodyBudget_eq_pure hs).mp hload
    rw [held_eq hfetched hfinish]
    exact (hdeclared s loaded hs ((loadPcFromBids_eq_pure hs).mpr ⟨fetched, hfetched, hfinish⟩)).trans hle

end PcBlocks

end PstReader

namespace PstReader

open Foundations Rust List Prod

section Sample

local instance budgetWidth : PointerWidth := ⟨64, bits64_ge⟩

def bodyPcBytes : Bytes :=
  [28, 0, 0xEC, 0xBC, 32, 0, 0, 0, 0, 0, 0, 0] ++ [0xB5, 2, 6, 0, 64, 0, 0, 0] ++
    [0x00, 0x10, 0x1F, 0, 0x41, 0, 0, 0] ++ [2, 0, 0, 0, 12, 0, 20, 0, 28, 0]

def understatedPc : PcBlocks where
  file := rawBlock bodyPcBytes ++ rawBlock [65, 0] ++ rawBlock ([1, 1, 1, 0, 0, 0, 0, 0] ++ leBytes 8 8) ++
    rawBlock ([2, 0, 1, 0, 0, 0, 0, 0] ++ leBytes 8 0x41 ++ leBytes 8 2 ++ leBytes 8 0)
  bbt := AList.insert 4 ⟨4, 0, 38, 1⟩ (AList.insert 8 ⟨8, 80, 2, 1⟩ (AList.insert 2 ⟨2, 160, 16, 1⟩
    (AList.insert 6 ⟨6, 240, 32, 1⟩ ∅)))
  bidData := 4
  bidSub := 6
  crypt := .none

/-- Two bytes are read within a budget of none. -/
theorem load_exceeds_understatedPc : ¬ understatedPc.BudgetKept [0x1000] := by
  have hload : (do
      let s ← understatedPc.survey [0x1000]
      let loaded ← understatedPc.loadPcFromBidsWithBodyBudget [0x1000] 0
      pure (s.materialized loaded) : Reader Nat) = pure 2 :=
    (by decide +kernel : (_ : Except Panic (Except PstError Nat)) = .ok (.ok 2))
  intro hkept
  obtain ⟨s, hs, hload⟩ := bind_eq_pure.mp hload
  obtain ⟨loaded, hloaded, hsize⟩ := bind_eq_pure.mp hload
  have htwo : s.materialized loaded = 2 := Except.ok.inj (Except.ok.inj hsize)
  have hle := hkept 0 s loaded (by decide) hs hloaded
  omega

end Sample

end PstReader
