import PstDedupe.PstReader.Block

/-!
# Assembling against streaming

Both ways through a block tree read the same external blocks, so they can only differ in what they
check on the way.
-/

namespace PstReader

open Rust Foundations List Option

variable {file : Bytes} {bbt : BbtIndex} {crypt : CryptMethod} {bid : Nat} {p : Bytes} {d : Bytes}
  {children : List Nat} {visited : Finset Nat}

theorem readPayload_eq_ok :
    readPayload file bbt bid = .ok p ↔ ∃ entry raw, bbt.get bid = some entry ∧
      window file entry.ib (align64 entry.cb + blockTrailerSize) = some raw ∧ p = raw.take entry.cb := by
  unfold readPayload readRawBlock
  cases hget : bbt.get bid with
  | none => simp [bind, Except.bind]
  | some entry =>
    cases hwin : window file entry.ib (align64 entry.cb + blockTrailerSize) with
    | none => simp [bind, Except.bind, hwin]
    | some raw =>
      have hraw := length_of_window hwin
      simp [bind, Except.bind, pure, Except.pure, validateBlockTrailer, hraw, hwin, eq_comm]

/-- The `cb` the BBT records for a block. -/
def payloadSize (bbt : BbtIndex) (bid : Nat) : Nat := ((bbt.get bid).map BbtEntry.cb).getD 0

theorem le_align64 (n : Nat) : n ≤ align64 n := by
  unfold align64
  omega

theorem length_readPayload (h : readPayload file bbt bid = .ok p) : p.length = payloadSize bbt bid := by
  obtain ⟨entry, raw, hget, hwin, rfl⟩ := readPayload_eq_ok.mp h
  have hraw := length_of_window hwin
  have hle := le_align64 entry.cb
  rw [length_take, hraw, payloadSize, hget]
  simp only [map_some, getD_some]
  omega

theorem readExternal_eq_ok : readExternal file bbt crypt bid = .ok d ↔
    ∃ p, readPayload file bbt bid = .ok p ∧ d = decryptBlock p crypt bid := by
  unfold readExternal
  rw [bind_eq_ok]
  simp [pure, Except.pure, eq_comm]

theorem length_readExternal (h : readExternal file bbt crypt bid = .ok d) :
    d.length = payloadSize bbt bid := by
  obtain ⟨p, hp, rfl⟩ := readExternal_eq_ok.mp h
  rw [length_decryptBlock, length_readPayload hp]

def dataSize (bbt : BbtIndex) (leaves : List Nat) : Nat := (leaves.map (payloadSize bbt)).sum

theorem length_flatten_readExternal {bids : List Nat} {parts : List Bytes}
    (h : Forall₂ (fun b d => readExternal file bbt crypt b = .ok d) bids parts) :
    parts.flatten.length = dataSize bbt bids := by
  induction h with
  | nil => rfl
  | cons hd _ ih =>
    rw [flatten_cons, length_append, length_readExternal hd, ih]
    simp [dataSize]

theorem assembleChildren_eq_ok {what : String} {read : Nat → Result Bytes}
    {acc d : Bytes} (hacc : acc.length ≤ maxXblockAssemble) : assembleChildren what read children acc = .ok d ↔
      ∃ parts, Forall₂ (fun c p => read c = .ok p) children parts ∧
        d = acc ++ parts.flatten ∧ d.length ≤ maxXblockAssemble := by
  induction children generalizing acc with
  | nil =>
    simp only [assembleChildren, forall₂_nil_left_iff, Except.ok.injEq]
    constructor
    · rintro rfl
      exact ⟨[], rfl, by simp, hacc⟩
    · rintro ⟨parts, rfl, rfl, _⟩
      simp
  | cons c children ih =>
    simp only [assembleChildren, bind_eq_ok]
    constructor
    · rintro ⟨chunk, hchunk, h⟩
      split at h
      · cases h
      · rename_i hcap
        have hacc' : (acc ++ chunk).length ≤ maxXblockAssemble := by
          rw [length_append]
          omega
        obtain ⟨parts, hparts, rfl, hlen⟩ := (ih hacc').mp h
        exact ⟨chunk :: parts, .cons hchunk hparts, by simp, hlen⟩
    · rintro ⟨all, hall, rfl, hlen⟩
      cases hall with
      | @cons _ chunk _ parts hchunk hparts =>
        have htotal : acc.length + (chunk.length + parts.flatten.length) ≤ maxXblockAssemble := by
          simpa using hlen
        refine ⟨chunk, hchunk, ?_⟩
        rw [if_neg (by omega)]
        apply (ih (by rw [length_append]; omega)).mpr
        exact ⟨parts, hparts, by simp, by simpa using hlen⟩

theorem readInternal_eq_ok {what : String} {read : Nat → Result Bytes} {payload d : Bytes} :
    readInternal what read payload = .ok d ↔ 8 ≤ payload.length ∧ lcbTotalOf payload ≤ maxXblockAssemble ∧
      ∃ parts, Forall₂ (fun c p => read c = .ok p) (rgBids payload) parts ∧
        d = parts.flatten ∧ d.length ≤ maxXblockAssemble := by
  unfold readInternal checkXblockAssembleLimit
  by_cases hlen : payload.length < 8
  · simp only [if_pos hlen, reduceCtorEq, false_iff, not_and]
    omega
  · rw [if_neg hlen]
    by_cases hlcb : lcbTotalOf payload > maxXblockAssemble
    · simp only [if_pos hlcb, bind, Except.bind, reduceCtorEq, false_iff, not_and]
      omega
    · simp only [if_neg hlcb, bind, Except.bind]
      rw [assembleChildren_eq_ok (Nat.zero_le _)]
      simp only [nil_append]
      constructor
      · intro h
        exact ⟨by omega, by omega, h⟩
      · intro h
        exact h.2.2

theorem length_readBlockData_le (hint : isInternal bid = true)
    (h : readBlockData file bbt bid crypt = .ok d) : d.length ≤ maxXblockAssemble := by
  have hinternal : ∀ what read payload, readInternal what read payload = .ok d →
      d.length ≤ maxXblockAssemble := by
    intro what read payload hok
    obtain ⟨_, _, _, _, rfl, hlen⟩ := readInternal_eq_ok.mp hok
    exact hlen
  unfold readBlockData at h
  split at h
  · cases h
    exact Nat.zero_le _
  · obtain ⟨payload, _, h⟩ := bind_eq_ok.mp h
    rw [hint, if_neg (by simp)] at h
    split at h
    · cases h
    · split at h
      · exact hinternal _ _ _ h
      · exact hinternal _ _ _ h
      · cases h

/-- An XBLOCK: its header fits, it declares at most the cap, and its children are data blocks. -/
structure WellFormedXblock (payload : Bytes) : Prop where
  header : 8 ≤ payload.length
  btype : btypeOf payload = 1
  clevel : clevelOf payload = 1
  declared : lcbTotalOf payload ≤ maxXblockAssemble
  children : ∀ c ∈ rgBids payload, isNull c = false ∧ isInternal c = false

/-- Within the cap, over distinct internal children that are well formed. -/
structure WellFormedXxblock (file : Bytes) (bbt : BbtIndex) (bid : Nat) (payload : Bytes) : Prop where
  declared : lcbTotalOf payload ≤ maxXblockAssemble
  distinct : (bid :: rgBids payload).Nodup
  internal : ∀ c ∈ rgBids payload, isInternal c = true
  children : ∀ c ∈ rgBids payload, ∀ p, readPayload file bbt c = .ok p → WellFormedXblock p

/-- What the blocks under a BID look like, as far as they can be read at all. -/
def WellFormedTree (file : Bytes) (bbt : BbtIndex) (bid : Nat) : Prop :=
  isInternal bid = true → ∀ payload, readPayload file bbt bid = .ok payload → 8 ≤ payload.length ∧
    (btypeOf payload = 1 → clevelOf payload = 1 → WellFormedXblock payload) ∧
    (btypeOf payload = 1 → clevelOf payload = 2 → WellFormedXxblock file bbt bid payload)

theorem isNull_of_isInternal (h : isInternal bid = true) : isNull bid = false := by
  unfold isNull
  rw [beq_eq_false_iff_ne]
  rintro rfl
  simp [isInternal] at h

theorem collect_xblock (left : Nat)
    (hint : isInternal bid = true) (hnew : bid ∉ visited) (hp : readPayload file bbt bid = .ok p)
    (hwf : WellFormedXblock p) :
    collectLeafDataBidsAt file bbt (left + 1) bid visited = .ok (rgBids p, insert bid visited) := by
  have hlen : ¬ p.length < 8 := by have := hwf.header; omega
  unfold collectLeafDataBidsAt
  simp only [isNull_of_isInternal hint, hint, hnew, hp, hlen, hwf.btype, hwf.clevel, bind,
    Except.bind, pure, Except.pure, Bool.not_true, Bool.false_eq_true, if_false]

theorem collect_unreadable (left : Nat) {e : PstError} (hint : isInternal bid = true)
    (hnew : bid ∉ visited) (hp : readPayload file bbt bid = .error e) :
    collectLeafDataBidsAt file bbt (left + 1) bid visited = .error e := by
  unfold collectLeafDataBidsAt
  simp only [isNull_of_isInternal hint, hint, hnew, hp, bind, Except.bind, Bool.not_true,
    Bool.false_eq_true, if_false]

theorem collectChildren_eq_ok (left : Nat) (hint : ∀ c ∈ children, isInternal c = true)
    (hnodup : children.Nodup)
    (hnew : ∀ c ∈ children, c ∉ visited)
    (hwf : ∀ c ∈ children, ∀ p, readPayload file bbt c = .ok p → WellFormedXblock p)
    (leaves : List Nat) : (∃ visited',
        collectChildren (collectLeafDataBidsAt file bbt (left + 1)) children visited
          = .ok (leaves, visited')) ↔
      ∃ ps, Forall₂ (fun c p => readPayload file bbt c = .ok p) children ps ∧
        leaves = ps.flatMap rgBids := by
  induction children generalizing visited leaves with
  | nil =>
    simp only [collectChildren, Except.ok.injEq, Prod.mk.injEq, forall₂_nil_left_iff,
      exists_and_left, exists_eq', and_true, exists_eq_left, flatMap_nil]
    exact eq_comm
  | cons c children ih =>
    have hc : c ∈ c :: children := mem_cons_self
    rw [nodup_cons] at hnodup
    cases hp : readPayload file bbt c with
    | error e =>
      have hstop := collect_unreadable left (hint c hc) (hnew c hc) hp
      simp only [collectChildren, hstop, bind, Except.bind, reduceCtorEq, exists_false, false_iff]
      rintro ⟨ps, hps, _⟩
      cases hps with
      | cons hread _ => rw [hp] at hread; cases hread
    | ok p =>
      have hstep := collect_xblock left (hint c hc) (hnew c hc) hp (hwf c hc p hp)
      -- the rest of the walk starts with `c` visited, which is none of the rest
      have hrest := @ih (insert c visited)
        (fun x hx => hint x (mem_cons_of_mem _ hx)) hnodup.2
        (fun x hx hmem => (Finset.mem_insert.mp hmem).elim (fun h => hnodup.1 (h ▸ hx))
          (hnew x (mem_cons_of_mem _ hx)))
        (fun x hx => hwf x (mem_cons_of_mem _ hx))
      simp only [collectChildren, hstep, bind, Except.bind, pure, Except.pure]
      constructor
      · rintro ⟨visited', h⟩
        split at h
        · cases h
        · rename_i more heq
          obtain ⟨ps, hps, hmore⟩ := (hrest more.1).mp ⟨more.2, heq⟩
          cases h
          exact ⟨p :: ps, .cons hp hps, by rw [hmore, flatMap_cons]⟩
      · rintro ⟨all, hall, rfl⟩
        cases hall with
        | @cons _ p' _ ps hread hps =>
          obtain rfl : p = p' := Except.ok.inj (hp ▸ hread)
          obtain ⟨visited', heq⟩ := (hrest (ps.flatMap rgBids)).mpr ⟨ps, hps, rfl⟩
          exact ⟨visited', by rw [heq, flatMap_cons]⟩

theorem readLeafBlockData_of_external (hnull : isNull bid = false) (hext : isInternal bid = false) :
    readLeafBlockData file bbt crypt bid = readExternal file bbt crypt bid := by
  unfold readLeafBlockData
  simp [hnull, hext]

theorem readLeaves_eq_ok : readLeaves file bbt bid crypt = .ok d ↔
    ∃ leaves parts, collectLeafDataBids file bbt bid = .ok leaves ∧
      Forall₂ (fun b p => readLeafBlockData file bbt crypt b = .ok p) leaves parts ∧
      d = parts.flatten := by
  unfold readLeaves
  simp only [bind_eq_ok, mapM_eq_ok_iff, pure, Except.pure, Except.ok.injEq]
  constructor
  · rintro ⟨leaves, hleaves, parts, hparts, rfl⟩
    exact ⟨leaves, parts, hleaves, hparts, rfl⟩
  · rintro ⟨leaves, parts, hleaves, hparts, rfl⟩
    exact ⟨leaves, hleaves, parts, hparts, rfl⟩

theorem forall₂_readLeafBlockData {leaves : List Nat} {parts : List Bytes}
    (hext : ∀ c ∈ leaves, isNull c = false ∧ isInternal c = false) :
    Forall₂ (fun b p => readLeafBlockData file bbt crypt b = .ok p) leaves parts ↔
      Forall₂ (fun b p => readExternal file bbt crypt b = .ok p) leaves parts := by
  induction leaves generalizing parts with
  | nil => simp only [forall₂_nil_left_iff]
  | cons c leaves ih =>
    have hc := hext c mem_cons_self
    simp only [forall₂_cons_left_iff, readLeafBlockData_of_external hc.1 hc.2,
      ih fun x hx => hext x (mem_cons_of_mem _ hx)]

/-- The leaves hold at most `cap` bytes. -/
def DataAtMost (file : Bytes) (bbt : BbtIndex) (bid cap : Nat) : Prop :=
  ∀ leaves, collectLeafDataBids file bbt bid = .ok leaves → dataSize bbt leaves ≤ cap

theorem collectLeafDataBids_eq_ok {leaves : List Nat} : collectLeafDataBids file bbt bid = .ok leaves ↔
      ∃ visited, collectLeafDataBidsAt file bbt (maxSubnodeDepth + 1) bid ∅ = .ok (leaves, visited) := by
  unfold collectLeafDataBids
  simp only [bind_eq_ok, pure, Except.pure, Except.ok.injEq, Prod.exists]
  constructor
  · rintro ⟨_, visited, h, rfl⟩
    exact ⟨visited, h⟩
  · rintro ⟨visited, h⟩
    exact ⟨leaves, visited, h, rfl⟩

theorem paths_external (hext : isInternal bid = false) :
    readBlockData file bbt bid crypt = readLeaves file bbt bid crypt := by
  unfold readBlockData readLeaves collectLeafDataBids collectLeafDataBidsAt
  by_cases hnull : isNull bid = true
  · simp only [hnull, if_true, bind, Except.bind, pure, Except.pure, mapM_nil,
      flatten_nil]
  · rw [Bool.not_eq_true] at hnull
    simp only [hnull, hext, bind, Except.bind, pure, Except.pure, Bool.not_false,
      Bool.false_eq_true, if_false, if_true, mapM_cons, mapM_nil,
      readLeafBlockData_of_external hnull hext, readExternal]
    cases readPayload file bbt bid <;> simp

theorem paths_unreadable (crypt : CryptMethod) {e : PstError} (hint : isInternal bid = true)
    (hp : readPayload file bbt bid = .error e) :
    readBlockData file bbt bid crypt = .error e ∧ readLeaves file bbt bid crypt = .error e := by
  constructor
  · unfold readBlockData
    simp only [isNull_of_isInternal hint, hp, bind, Except.bind, Bool.false_eq_true, if_false]
  · have hstop := collect_unreadable maxSubnodeDepth hint (Finset.notMem_empty bid) hp
    unfold readLeaves collectLeafDataBids
    simp only [hstop, bind, Except.bind]

theorem paths_internal (crypt : CryptMethod) (hint : isInternal bid = true)
    (hp : readPayload file bbt bid = .ok p) (hlen : 8 ≤ p.length) :
      (readBlockData file bbt bid crypt = match btypeOf p, clevelOf p with
      | 1, 1 => readXblockData file bbt p crypt
      | 1, 2 => readXxblockData file bbt p crypt
      | btype, _ => .error (.invalidBlockType 1 btype)) ∧
    (collectLeafDataBidsAt file bbt (maxSubnodeDepth + 1) bid ∅ = match btypeOf p, clevelOf p with
      | 1, 1 => .ok (rgBids p, {bid})
      | 1, 2 =>
        collectChildren (collectLeafDataBidsAt file bbt maxSubnodeDepth) (rgBids p) {bid}
      | btype, _ => .error (.invalidBlockType 1 btype)) := by
  have hshort : ¬ p.length < 2 := by omega
  have hshort' : ¬ p.length < 8 := by omega
  constructor
  · unfold readBlockData
    rw [isNull_of_isInternal hint, hp, hint]
    exact if_neg hshort
  · unfold collectLeafDataBidsAt
    rw [isNull_of_isInternal hint, hp, hint]
    exact if_neg hshort'

theorem readXblockData_eq_ok {p d : Bytes} (hwf : WellFormedXblock p) :
    readXblockData file bbt p crypt = .ok d ↔
      ∃ parts, Forall₂ (fun c d => readExternal file bbt crypt c = .ok d) (rgBids p) parts ∧
        d = parts.flatten ∧ d.length ≤ maxXblockAssemble := by
  unfold readXblockData
  rw [readInternal_eq_ok]
  exact ⟨fun h => h.2.2, fun h => ⟨hwf.header, hwf.declared, h⟩⟩

theorem readXblocks_iff (hwf : ∀ c ∈ children, ∀ p, readPayload file bbt c = .ok p →
    WellFormedXblock p) : (∃ chunks, Forall₂ (fun c chunk => (do
          let p ← readPayload file bbt c
          readXblockData file bbt p crypt) = .ok chunk) children chunks ∧
        d = chunks.flatten ∧ d.length ≤ maxXblockAssemble) ↔
      ∃ ps parts, Forall₂ (fun c p => readPayload file bbt c = .ok p) children ps ∧
        Forall₂ (fun c d => readExternal file bbt crypt c = .ok d) (ps.flatMap rgBids) parts ∧
        d = parts.flatten ∧ d.length ≤ maxXblockAssemble := by
  induction children generalizing d with
  | nil => simp
  | cons c children ih =>
    have hwf' := fun x hx => hwf x (mem_cons_of_mem c hx)
    constructor
    · rintro ⟨all, hall, rfl, hlen⟩
      cases hall with
      | @cons _ chunk _ chunks hchunk hchunks =>
        obtain ⟨p, hp, hx⟩ := bind_eq_ok.mp hchunk
        obtain ⟨parts, hparts, rfl, _⟩ := (readXblockData_eq_ok (hwf c (by simp) p hp)).mp hx
        rw [flatten_cons, length_append] at hlen
        obtain ⟨ps, more, hps, hmore, hflat, _⟩ :=
          (ih hwf').mp ⟨chunks, hchunks, rfl, by omega⟩
        refine ⟨p :: ps, parts ++ more, .cons hp hps, ?_, ?_, ?_⟩
        · rw [flatMap_cons]
          exact rel_append hparts hmore
        · rw [flatten_cons, flatten_append, hflat]
        · rw [flatten_cons, length_append]
          omega
    · rintro ⟨all, parts, hall, hparts, rfl, hlen⟩
      cases hall with
      | @cons _ p _ ps hp hps =>
        rw [flatMap_cons] at hparts
        -- the leaves of `c` are the first ones
        have hhead := forall₂_take (rgBids p).length hparts
        have htail := forall₂_drop (rgBids p).length hparts
        rw [take_left] at hhead
        rw [drop_left] at htail
        have hsplit : (parts.take (rgBids p).length).flatten.length
            + (parts.drop (rgBids p).length).flatten.length = parts.flatten.length := by
          rw [← length_append, ← flatten_append, take_append_drop]
        obtain ⟨chunks, hchunks, hflat, _⟩ := (ih hwf').mpr ⟨ps, _, hps, htail, rfl, by omega⟩
        have hx := (readXblockData_eq_ok (hwf c (by simp) p hp)).mpr ⟨_, hhead, rfl, by omega⟩
        refine ⟨_ :: chunks, .cons (bind_eq_ok.mpr ⟨p, hp, hx⟩) hchunks, ?_, hlen⟩
        rw [flatten_cons, ← hflat, ← flatten_append, take_append_drop]

theorem external_of_mem_flatMap {ps : List Bytes}
    (hwf : ∀ c ∈ children, ∀ p, readPayload file bbt c = .ok p → WellFormedXblock p)
    (hps : Forall₂ (fun c p => readPayload file bbt c = .ok p) children ps) :
    ∀ c ∈ ps.flatMap rgBids, isNull c = false ∧ isInternal c = false := by
  induction hps with
  | nil => simp
  | cons hp _ ih =>
    intro x hx
    rw [flatMap_cons, mem_append] at hx
    rcases hx with hx | hx
    · exact (hwf _ (by simp) _ hp).children x hx
    · exact ih (fun y hy => hwf y (mem_cons_of_mem _ hy)) x hx

/-- **Assembling and streaming agree.** For a BID whose data is within the assembly cap and whose
block tree is well formed, the assembled read returns `d` iff the leaf-by-leaf read does. -/
theorem readBlockData_iff_readLeaves (file : Bytes) (bbt : BbtIndex) (bid : Nat)
    (crypt : CryptMethod) (hdata : DataAtMost file bbt bid maxXblockAssemble)
    (hwf : WellFormedTree file bbt bid) (d : Bytes) :
    readBlockData file bbt bid crypt = .ok d ↔ readLeaves file bbt bid crypt = .ok d := by
  by_cases hint : isInternal bid = true
  · cases hp : readPayload file bbt bid with
    | error e =>
      obtain ⟨hblock, hleaves⟩ := paths_unreadable crypt hint hp
      rw [hblock, hleaves]
    | ok p =>
      obtain ⟨hlen, hx, hxx⟩ := hwf hint p hp
      obtain ⟨hblock, hcollect⟩ := paths_internal crypt hint hp hlen
      rw [hblock, readLeaves_eq_ok]
      split at hcollect
      · -- XBLOCK
        rename_i hb hc
        have hwfx := hx hb hc
        have hleaves : collectLeafDataBids file bbt bid = .ok (rgBids p) :=
          collectLeafDataBids_eq_ok.mpr ⟨_, hcollect⟩
        have hcap := hdata _ hleaves
        simp only [readXblockData_eq_ok hwfx, hleaves, Except.ok.injEq,
          exists_and_left, exists_eq_left', forall₂_readLeafBlockData hwfx.children]
        constructor
        · rintro ⟨parts, hparts, rfl, _⟩
          exact ⟨parts, hparts, rfl⟩
        · rintro ⟨parts, hparts, rfl⟩
          exact ⟨parts, hparts, rfl, by rwa [length_flatten_readExternal hparts]⟩
      · -- XXBLOCK
        rename_i hb hc
        obtain ⟨hdeclared, hdistinct, hinternal, hchildren⟩ := hxx hb hc
        rw [nodup_cons] at hdistinct
        have hnew : ∀ c ∈ rgBids p, c ∉ ({bid} : Finset Nat) := fun c hmem hin =>
          hdistinct.1 (Finset.mem_singleton.mp hin ▸ hmem)
        have hwalk := collectChildren_eq_ok (maxSubnodeDepth - 1) hinternal hdistinct.2 hnew hchildren
        have hread : readXxblockData file bbt p crypt = .ok d ↔ _ :=
          (readInternal_eq_ok.trans
            ⟨fun h => h.2.2, fun h => ⟨hlen, hdeclared, h⟩⟩).trans (readXblocks_iff hchildren)
        rw [hread]
        constructor
        · rintro ⟨ps, parts, hps, hparts, rfl, _⟩
          obtain ⟨visited, hok⟩ := (hwalk (ps.flatMap rgBids)).mpr ⟨ps, hps, rfl⟩
          refine ⟨_, parts, collectLeafDataBids_eq_ok.mpr ⟨visited, hcollect.trans hok⟩, ?_, rfl⟩
          exact (forall₂_readLeafBlockData (external_of_mem_flatMap hchildren hps)).mpr hparts
        · rintro ⟨leaves, parts, hleaves, hparts, rfl⟩
          obtain ⟨visited, hok⟩ := collectLeafDataBids_eq_ok.mp hleaves
          obtain ⟨ps, hps, rfl⟩ := (hwalk leaves).mp ⟨visited, hcollect.symm.trans hok⟩
          have hparts' :=
            (forall₂_readLeafBlockData (external_of_mem_flatMap hchildren hps)).mp hparts
          refine ⟨ps, parts, hps, hparts', rfl, ?_⟩
          rw [length_flatten_readExternal hparts']
          exact hdata _ hleaves
      · -- neither: both refuse
        simp only [reduceCtorEq, false_iff]
        rintro ⟨leaves, parts, hleaves, _⟩
        obtain ⟨visited, hok⟩ := collectLeafDataBids_eq_ok.mp hleaves
        rw [hcollect] at hok
        cases hok
  · rw [paths_external (by simpa using hint)]

def rawBlock (payload : Bytes) : Bytes :=
  resize (align64 payload.length) 0 payload ++ replicate blockTrailerSize 0

def twoLeafFile : Bytes :=
  rawBlock [1, 2, 3] ++ rawBlock [4, 5]
    ++ rawBlock ([1, 1, 2, 0, 5, 0, 0, 0] ++ leBytes 8 4 ++ leBytes 8 8)

def twoLeafBbt : BbtIndex :=
  AList.insert 2 ⟨2, 160, 24, 1⟩ (AList.insert 8 ⟨8, 80, 2, 1⟩ (AList.insert 4 ⟨4, 0, 3, 1⟩ ∅))

theorem readBlockData_iff_readLeaves_twoLeafFile :
    readBlockData twoLeafFile twoLeafBbt 2 .none = .ok [1, 2, 3, 4, 5] ∧
    (readBlockData twoLeafFile twoLeafBbt 2 .none = .ok [1, 2, 3, 4, 5] ↔
      readLeaves twoLeafFile twoLeafBbt 2 .none = .ok [1, 2, 3, 4, 5]) := by
  have hpayload : readPayload twoLeafFile twoLeafBbt 2
      = .ok ([1, 1, 2, 0, 5, 0, 0, 0] ++ leBytes 8 4 ++ leBytes 8 8) := by decide +kernel
  have hleaves : collectLeafDataBids twoLeafFile twoLeafBbt 2 = .ok [4, 8] := by decide +kernel
  have hdata : DataAtMost twoLeafFile twoLeafBbt 2 maxXblockAssemble := by
    intro leaves h
    rw [hleaves] at h
    rw [← Except.ok.inj h]
    decide +kernel
  have hwf : WellFormedTree twoLeafFile twoLeafBbt 2 := by
    intro _ payload h
    rw [hpayload] at h
    rw [← Except.ok.inj h]
    refine ⟨by decide, fun _ _ => ⟨by decide, by decide, by decide, by decide, by decide⟩, ?_⟩
    exact fun _ h => absurd h (by decide)
  exact ⟨by decide +kernel, readBlockData_iff_readLeaves _ _ _ _ hdata hwf _⟩

/-- One data block and four internal blocks that are not in shape: `2` declares one byte more than
the assembly cap, `10` lists the XBLOCK `6` twice, `14` has no room for a header, `18` lists an
XBLOCK. -/
def outOfShapeFile : Bytes :=
  rawBlock [7] ++ rawBlock [1, 1, 0, 0, 1, 0, 0, 4]
    ++ rawBlock ([1, 1, 1, 0, 1, 0, 0, 0] ++ leBytes 8 4)
    ++ rawBlock ([1, 2, 2, 0, 2, 0, 0, 0] ++ leBytes 8 6 ++ leBytes 8 6)
    ++ rawBlock [1, 1]
    ++ rawBlock ([1, 1, 1, 0, 16, 0, 0, 0] ++ leBytes 8 6)

def outOfShapeBbt : BbtIndex :=
  AList.insert 4 ⟨4, 0, 1, 1⟩ <| AList.insert 2 ⟨2, 80, 8, 1⟩ <| AList.insert 6 ⟨6, 160, 16, 1⟩ <|
  AList.insert 10 ⟨10, 240, 24, 1⟩ <| AList.insert 14 ⟨14, 320, 2, 1⟩ <|
  AList.insert 18 ⟨18, 400, 16, 1⟩ ∅

/-- Out of shape, each path refuses what the other reads: the declared size and the short header
stop the assembly, the repeated XBLOCK and the internal child stop the stream. -/
theorem readBlockData_ne_readLeaves_outOfShape :
    (DataAtMost outOfShapeFile outOfShapeBbt 2 maxXblockAssemble ∧
      readBlockData outOfShapeFile outOfShapeBbt 2 .none ≠ .ok [] ∧
      readLeaves outOfShapeFile outOfShapeBbt 2 .none = .ok []) ∧
    (readBlockData outOfShapeFile outOfShapeBbt 10 .none = .ok [7, 7] ∧
      readLeaves outOfShapeFile outOfShapeBbt 10 .none = .error (.btreeCycle 6)) ∧
    (readBlockData outOfShapeFile outOfShapeBbt 14 .none = .error (.dataTruncated 8 2) ∧
      readLeaves outOfShapeFile outOfShapeBbt 14 .none = .ok []) ∧
    (readBlockData outOfShapeFile outOfShapeBbt 18 .none
        = .ok ([1, 1, 1, 0, 1, 0, 0, 0] ++ leBytes 8 4) ∧
      readLeaves outOfShapeFile outOfShapeBbt 18 .none = .error (.invalidBlockType 0 1)) := by
  have hleaves : collectLeafDataBids outOfShapeFile outOfShapeBbt 2 = .ok [] := by decide +kernel
  have hdata : DataAtMost outOfShapeFile outOfShapeBbt 2 maxXblockAssemble := by
    intro leaves h
    rw [hleaves] at h
    rw [← Except.ok.inj h]
    decide
  exact ⟨⟨hdata, by decide +kernel, by decide +kernel⟩,
    ⟨by decide +kernel, by decide +kernel⟩, ⟨by decide +kernel, by decide +kernel⟩,
    ⟨by decide +kernel, by decide +kernel⟩⟩

end PstReader
