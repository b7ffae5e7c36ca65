import PstDedupe.PstReader.BlockPaths

/-!
# Streaming an attachment (`pst-reader/src/messaging/attachment.rs`)

`AttachmentDataReader` hands out the leaves of an attachment piece by piece: a leaf index, the leaf
it holds, and a place in it. The CRC flag of the reader is left out.
-/

namespace PstReader

open Foundations Rust List Prod

variable {room : Nat} {requests : List ReadRequest} {c : ReadCall}

structure BlocksReader where
  leafBids : List Nat
  leafIndex : Nat
  chunk : Bytes
  chunkPos : Nat

/-- As `open_attachment_data` makes it. -/
def BlocksReader.opened (leafBids : List Nat) : BlocksReader := ⟨leafBids, 0, [], 0⟩

def BlocksReader.hand (b : BlocksReader) (room : Nat) : Result Bytes × BlocksReader :=
  let n := min (b.chunk.length - b.chunkPos) room
  (.ok ((b.chunk.drop b.chunkPos).take n), { b with chunkPos := b.chunkPos + n })

def BlocksReader.fetch (leaf : Nat → Result Bytes) (room : Nat) : BlocksReader → List Nat →
    Result Bytes × BlocksReader
  | b, [] => (.ok [], b)
  | b, bid :: bids =>
    let b := { b with leafIndex := b.leafIndex + 1 }
    match leaf bid with
    | .error e => (.error e, b)
    | .ok chunk =>
      let b := { b with chunk, chunkPos := 0 }
      if chunk.isEmpty then b.fetch leaf room bids else b.hand room

def BlocksReader.read (leaf : Nat → Result Bytes) (room : Nat) (b : BlocksReader) :
    Result Bytes × BlocksReader :=
  if b.chunkPos ≥ b.chunk.length then b.fetch leaf room (b.leafBids.drop b.leafIndex) else b.hand room

/-- The file behind a reader. `bytes` is what each leaf holds, whether or not it can be read. -/
structure LeafSource where
  file : Bytes
  bbt : BbtIndex
  crypt : CryptMethod
  bytes : Nat → Bytes
  reads : ∀ bid data, readLeafBlockData file bbt crypt bid = .ok data → bytes bid = data

/-- One call of `read`: the size of its buffer, and the leaves that cannot be read this time. -/
structure ReadRequest where
  room : Nat
  fault : Nat → Option PstError

def LeafSource.readLeaf (src : LeafSource) (fault : Nat → Option PstError) (bid : Nat) : Result Bytes :=
  match fault bid with
  | some e => .error e
  | none => readLeafBlockData src.file src.bbt src.crypt bid

structure ReadCall where
  before : BlocksReader
  request : ReadRequest
  answer : Result Bytes
  after : BlocksReader

def trace (src : LeafSource) : BlocksReader → List ReadRequest → List ReadCall
  | _, [] => []
  | b, c :: cs =>
    let r := b.read (src.readLeaf c.fault) c.room
    ⟨b, c, r.1, r.2⟩ :: trace src r.2 cs

def delivered (calls : List ReadCall) : Bytes := calls.flatMap fun c => c.answer.toOption.getD []

def LeafSource.whole (src : LeafSource) (leafBids : List Nat) : Bytes := leafBids.flatMap src.bytes

def ReadCall.Fails (c : ReadCall) : Prop := ∃ e, c.answer = .error e

/-- What the reader can still hand out. -/
def BlocksReader.remaining (src : LeafSource) (b : BlocksReader) : Bytes :=
  b.chunk.drop b.chunkPos ++ (b.leafBids.drop b.leafIndex).flatMap src.bytes

/-- The first leaf that cannot be read, behind empty ones, holds bytes. -/
def LostBy (src : LeafSource) (leaf : Nat → Result Bytes) : List Nat → Prop
  | [] => False
  | bid :: bids => match leaf bid with
    | .error _ => src.bytes bid ≠ []
    | .ok chunk => chunk = [] ∧ LostBy src leaf bids

/-- The call drops a leaf that is not empty. -/
def ReadCall.Loses (src : LeafSource) (c : ReadCall) : Prop :=
  c.before.chunk.length ≤ c.before.chunkPos ∧
    LostBy src (src.readLeaf c.request.fault) (c.before.leafBids.drop c.before.leafIndex)

/-- The calls hand out the leaves in order; one that answers zero into a buffer with room comes
after all of them; and the call after one that fails can still hand out all that was left. -/
structure SoundReads (src : LeafSource) (leafBids : List Nat) (calls : List ReadCall) : Prop where
  inOrder : ∀ k, delivered (calls.take k) <+: src.whole leafBids
  ends : ∀ before c after, calls = before ++ c :: after → c.answer = .ok [] → 0 < c.request.room →
    delivered before = src.whole leafBids
  resumes : calls.IsChain fun c d => c.Fails → d.before.remaining src = c.before.remaining src

variable {src : LeafSource} {leafBids bids : List Nat} {b : BlocksReader} {d data : Bytes}
  {fault : Nat → Option PstError}

theorem bytes_of_readLeaf {bid : Nat} (h : src.readLeaf fault bid = .ok data) : src.bytes bid = data := by
  unfold LeafSource.readLeaf at h
  split at h
  · cases h
  · exact src.reads bid data h

/-! ## One call -/

/-- A call that loses nothing: what it hands out stood next, and only an exhausted reader answers
zero. -/
structure Keeps (src : LeafSource) (room : Nat) (b : BlocksReader)
    (r : Result Bytes × BlocksReader) : Prop where
  left : r.1.toOption.getD [] ++ r.2.remaining src = b.remaining src
  ends : r.1 = .ok [] → 0 < room → b.remaining src = []

theorem hand_keeps (hheld : b.chunkPos < b.chunk.length) : Keeps src room b (b.hand room) := by
  refine ⟨?_, fun hempty hroom => ?_⟩
  · show (b.chunk.drop b.chunkPos).take _ ++ (b.chunk.drop (b.chunkPos + _) ++ _)
      = b.chunk.drop b.chunkPos ++ _
    rw [← append_assoc, ← drop_drop, take_append_drop]
    rfl
  · -- something is held and there is room for it
    have hlength := congrArg length (Except.ok.inj hempty)
    rw [length_take, length_drop, length_nil] at hlength
    omega

theorem remaining_of_done (hdone : b.chunk.length ≤ b.chunkPos)
    (hbids : b.leafBids.drop b.leafIndex = bids) : b.remaining src = bids.flatMap src.bytes := by
  unfold BlocksReader.remaining
  rw [drop_eq_nil_of_le hdone, nil_append, hbids]

theorem drop_leafIndex_succ {bid : Nat} (hbids : b.leafBids.drop b.leafIndex = bid :: bids) :
    b.leafBids.drop (b.leafIndex + 1) = bids := by
  rw [← tail_drop, hbids]
  rfl

/-- A leaf that was read is left behind and held. -/
theorem remaining_held {bid : Nat} (hdone : b.chunk.length ≤ b.chunkPos)
    (hbids : b.leafBids.drop b.leafIndex = bid :: bids) (hread : src.readLeaf fault bid = .ok data) :
    BlocksReader.remaining src { b with leafIndex := b.leafIndex + 1, chunk := data, chunkPos := 0 }
      = b.remaining src := by
  rw [remaining_of_done hdone hbids, flatMap_cons, bytes_of_readLeaf hread]
  unfold BlocksReader.remaining
  rw [drop_leafIndex_succ hbids]
  rfl

theorem fetch_keeps (hdone : b.chunk.length ≤ b.chunkPos)
    (hbids : b.leafBids.drop b.leafIndex = bids) (h : ¬LostBy src (src.readLeaf fault) bids) :
    Keeps src room b (b.fetch (src.readLeaf fault) room bids) := by
  induction bids generalizing b with
  | nil => exact ⟨rfl, fun _ _ => remaining_of_done hdone hbids⟩
  | cons bid bids ih =>
    unfold LostBy at h
    unfold BlocksReader.fetch
    cases hread : src.readLeaf fault bid with
    | error e =>
      rw [hread] at h
      refine ⟨?_, nofun⟩
      rw [remaining_of_done hdone hbids, flatMap_cons, not_not.mp h]
      exact remaining_of_done (b := { b with leafIndex := b.leafIndex + 1 }) hdone (drop_leafIndex_succ hbids)
    | ok chunk =>
      rw [hread] at h
      have hheld := remaining_held hdone hbids hread
      cases chunk with
      | nil =>
        obtain ⟨hleft, hends⟩ := ih (b := { b with leafIndex := b.leafIndex + 1, chunk := [], chunkPos := 0 })
          (Nat.le_refl 0) (drop_leafIndex_succ hbids) fun hlost => h ⟨rfl, hlost⟩
        exact ⟨hleft.trans hheld, fun hzero hroom => hheld ▸ hends hzero hroom⟩
      | cons x xs =>
        obtain ⟨hleft, hends⟩ := @hand_keeps room src
          { b with leafIndex := b.leafIndex + 1, chunk := x :: xs, chunkPos := 0 } (Nat.succ_pos _)
        exact ⟨hleft.trans hheld, fun hzero hroom => hheld ▸ hends hzero hroom⟩

theorem fetch_loses (hdone : b.chunk.length ≤ b.chunkPos)
    (hbids : b.leafBids.drop b.leafIndex = bids) (h : LostBy src (src.readLeaf fault) bids) :
    (∃ e, (b.fetch (src.readLeaf fault) room bids).1 = .error e) ∧
      (b.fetch (src.readLeaf fault) room bids).2.remaining src ≠ b.remaining src := by
  induction bids generalizing b with
  | nil => exact h.elim
  | cons bid bids ih =>
    unfold LostBy at h
    unfold BlocksReader.fetch
    cases hread : src.readLeaf fault bid with
    | error e =>
      rw [hread] at h
      refine ⟨⟨e, rfl⟩, fun hsame => h ?_⟩
      rw [remaining_of_done hdone hbids, flatMap_cons] at hsame
      exact List.self_eq_append_left.mp
        ((remaining_of_done (b := { b with leafIndex := b.leafIndex + 1 }) hdone
        (drop_leafIndex_succ hbids)).symm.trans hsame)
    | ok chunk =>
      rw [hread] at h
      obtain ⟨rfl, hlost⟩ := h
      rw [← remaining_held hdone hbids hread]
      exact ih (b := { b with leafIndex := b.leafIndex + 1, chunk := [], chunkPos := 0 })
        (Nat.le_refl 0) (drop_leafIndex_succ hbids) hlost

theorem fetch_fails {leaf : Nat → Result Bytes} (bids : List Nat) (b : BlocksReader)
    (h : ∃ e, (b.fetch leaf room bids).1 = .error e) : ∃ bid ∈ bids, ∃ e, leaf bid = .error e := by
  induction bids generalizing b with
  | nil => exact absurd h nofun
  | cons bid bids ih =>
    unfold BlocksReader.fetch at h
    cases hread : leaf bid with
    | error e => exact ⟨bid, mem_cons_self, e, hread⟩
    | ok chunk =>
      rw [hread] at h
      cases chunk with
      | nil =>
        obtain ⟨bid', hmem, hfails⟩ := ih _ h
        exact ⟨bid', mem_cons_of_mem _ hmem, hfails⟩
      | cons x xs => exact absurd h nofun

/-! ## Runs of calls -/

theorem trace_chain (requests : List ReadRequest) (b : BlocksReader) :
    (trace src b requests).IsChain fun c d => d.before = c.after := by
  induction requests generalizing b with
  | nil => exact .nil
  | cons request requests ih =>
    unfold trace
    cases requests with
    | nil => exact .singleton _
    | cons next requests => exact .cons_cons rfl (ih _)

theorem trace_answer (hc : c ∈ trace src b requests) :
    (c.answer, c.after) = c.before.read (src.readLeaf c.request.fault) c.request.room := by
  induction requests generalizing b with
  | nil => nomatch hc
  | cons request requests ih =>
    unfold trace at hc
    obtain rfl | hc := List.mem_cons.mp hc
    · rfl
    · exact ih hc

theorem trace_keeps (hc : c ∈ trace src b requests) (h : ¬c.Loses src) :
    Keeps src c.request.room c.before (c.answer, c.after) := by
  rw [trace_answer hc]
  unfold BlocksReader.read
  split
  · next hdone => exact fetch_keeps hdone rfl fun hlost => h ⟨hdone, hlost⟩
  · next hheld => exact hand_keeps (Nat.lt_of_not_le hheld)

theorem trace_loses (hc : c ∈ trace src b requests) (h : c.Loses src) :
    c.Fails ∧ c.after.remaining src ≠ c.before.remaining src := by
  have hread := trace_answer hc
  unfold BlocksReader.read at hread
  rw [if_pos h.1] at hread
  unfold ReadCall.Fails
  rw [show c.answer = _ from congrArg fst hread, show c.after = _ from congrArg snd hread]
  exact fetch_loses h.1 rfl h.2

theorem trace_fails (hc : c ∈ trace src b requests) (h : c.Fails) :
    ∃ bid ∈ c.before.leafBids, ∃ e, src.readLeaf c.request.fault bid = .error e := by
  unfold ReadCall.Fails at h
  rw [show c.answer = _ from congrArg fst (trace_answer hc)] at h
  unfold BlocksReader.read at h
  split at h
  · obtain ⟨bid, hbid, hfails⟩ := fetch_fails _ _ h
    exact ⟨bid, mem_of_mem_drop hbid, hfails⟩
  · exact absurd h nofun

/-- As long as no call loses bytes, what was handed out and what is left are the leaves. -/
theorem left_before (h : d ++ b.remaining src = src.whole leafBids) {before after : List ReadCall}
    (hcalls : trace src b requests = before ++ c :: after) (hgood : ∀ x ∈ before, ¬x.Loses src) :
    d ++ delivered before ++ c.before.remaining src = src.whole leafBids := by
  induction requests generalizing b d before with
  | nil => exact absurd hcalls (by simp [trace])
  | cons request requests ih =>
    have hfirst : ∀ x ∈ trace src b (request :: requests), ¬x.Loses src →
        Keeps src x.request.room x.before _ :=
      fun x hx => trace_keeps hx
    simp only [trace] at hcalls hfirst
    cases before with
    | nil =>
      obtain ⟨rfl, -⟩ := List.cons.inj hcalls
      show d ++ [] ++ b.remaining src = _
      rwa [append_nil]
    | cons x before =>
      obtain ⟨rfl, hnext⟩ := List.cons.inj hcalls
      have hleft := (hfirst _ mem_cons_self (hgood _ mem_cons_self)).left
      have hrun := ih (d := d ++ (b.read (src.readLeaf request.fault) request.room).1.toOption.getD [])
        (by rw [append_assoc, hleft, h]) hnext fun x hx => hgood x (mem_cons_of_mem _ hx)
      rw [append_assoc d] at hrun
      exact hrun

theorem not_loses_before {calls before after : List ReadCall} {c x : ReadCall}
    (hchain : calls.IsChain fun c _ => ¬c.Loses src) (hcalls : calls = before ++ c :: after)
    (hx : x ∈ before) :
    ¬x.Loses src := by
  have hgood := List.isChain_iff_forall_rel_of_append_cons_cons.mp hchain
  obtain ⟨front, back, rfl⟩ := append_of_mem hx
  cases back with
  | nil =>
    have hnext : calls = front ++ x :: c :: after := by simpa using hcalls
    exact hgood hnext
  | cons y back =>
    have hnext : calls = front ++ x :: y :: (back ++ c :: after) := by simpa using hcalls
    exact hgood hnext

theorem delivered_concat (before : List ReadCall) (c : ReadCall) :
    delivered (before ++ [c]) = delivered before ++ c.answer.toOption.getD [] := by
  simp [delivered]

theorem soundReads_of_not_loses (requests : List ReadRequest)
    (hchain : (trace src (.opened leafBids) requests).IsChain fun c _ => ¬c.Loses src) :
    SoundReads src leafBids (trace src (.opened leafBids) requests) := by
  have hleft : ∀ before c after, trace src (.opened leafBids) requests = before ++ c :: after →
      delivered before ++ c.before.remaining src = src.whole leafBids := fun before c after hcalls =>
    left_before (d := []) rfl hcalls fun x hx => not_loses_before hchain hcalls hx
  refine ⟨fun k => ?_, fun before c after hcalls hanswer hroom => ?_, ?_⟩
  · obtain hnil | ⟨before, c, htake⟩ := eq_nil_or_concat ((trace src (.opened leafBids) requests).take k)
    · rw [hnil]
      exact nil_prefix
    · have hcalls := (take_append_drop k (trace src (.opened leafBids) requests)).symm
      rw [htake, concat_eq_append, append_assoc, singleton_append] at hcalls
      have hmem : c ∈ trace src (.opened leafBids) requests := hcalls ▸ mem_append_right _ mem_cons_self
      rw [htake, concat_eq_append, delivered_concat, ← hleft before c _ hcalls]
      refine (prefix_append_right_inj _).mpr ?_
      by_cases hlost : c.Loses src
      · obtain ⟨⟨e, he⟩, -⟩ := trace_loses hmem hlost
        rw [he]
        exact nil_prefix
      · rw [← (trace_keeps hmem hlost).left]
        exact prefix_append _ _
  · have hmem : c ∈ trace src (.opened leafBids) requests := by simp [hcalls]
    have hkept : ¬c.Loses src := fun hlost => by
      obtain ⟨e, he⟩ := (trace_loses hmem hlost).1
      exact absurd (he.symm.trans hanswer) nofun
    have hend := hleft before c after hcalls
    rwa [(trace_keeps hmem hkept).ends hanswer hroom, append_nil] at hend
  · rw [isChain_iff_forall_rel_of_append_cons_cons] at hchain ⊢
    intro c d before after hcalls hfails
    have hmem : c ∈ trace src (.opened leafBids) requests := hcalls ▸ mem_append_right _ mem_cons_self
    obtain ⟨e, he⟩ := hfails
    have hkept := (trace_keeps hmem (hchain hcalls)).left
    rw [he] at hkept
    rw [List.isChain_iff_forall_rel_of_append_cons_cons.mp (trace_chain requests _) hcalls]
    exact hkept

/-- **The reads of an attachment** hand out its leaves in order, end where they end and lose nothing
after a failed read if and only if none of them follows a read that failed at a leaf with bytes in
it. -/
theorem trace_sound_iff (src : LeafSource) (leafBids : List Nat) (requests : List ReadRequest) :
    SoundReads src leafBids (trace src (.opened leafBids) requests) ↔
      (trace src (.opened leafBids) requests).IsChain fun c _ => ¬c.Loses src := by
  refine ⟨fun hsound => ?_, soundReads_of_not_loses requests⟩
  rw [isChain_iff_forall_rel_of_append_cons_cons]
  intro c d before after hcalls hlost
  -- a call that fails at a leaf has left it behind, and the next one starts from there
  have hmem : c ∈ trace src (.opened leafBids) requests := hcalls ▸ mem_append_right _ mem_cons_self
  obtain ⟨hfails, hless⟩ := trace_loses hmem hlost
  have hresumes := List.isChain_iff_forall_rel_of_append_cons_cons.mp hsound.resumes hcalls hfails
  rw [List.isChain_iff_forall_rel_of_append_cons_cons.mp (trace_chain requests _) hcalls] at hresumes
  exact hless hresumes

def twoLeaves : LeafSource where
  file := twoLeafFile
  bbt := twoLeafBbt
  crypt := .none
  bytes bid := (readLeafBlockData twoLeafFile twoLeafBbt .none bid).toOption.getD []
  reads bid data h := by rw [h]; rfl

/-- The first leaf fails once; reading on hands out the second. -/
theorem reads_skip_failed_leaf :
    (trace twoLeaves (.opened [4, 8]) [⟨8, fun bid => if bid = 4 then some .io else none⟩, ⟨8,
      fun _ => none⟩]).map
        ReadCall.answer = [.error .io, .ok [4, 5]] ∧ twoLeaves.whole [4, 8] = [1, 2, 3, 4, 5] ∧
      ¬∀ (src : LeafSource) (leafBids : List Nat) (requests : List ReadRequest),
        SoundReads src leafBids (trace src (.opened leafBids) requests) := by
  have hruns : (trace twoLeaves (.opened [4, 8])
      [⟨8, fun bid => if bid = 4 then some .io else none⟩, ⟨8, fun _ => none⟩]).map ReadCall.answer
        = [.error .io, .ok [4, 5]] ∧ twoLeaves.whole [4, 8] = [1, 2, 3, 4, 5] ∧
      ¬delivered ((trace twoLeaves (.opened [4, 8])
        [⟨8, fun bid => if bid = 4 then some .io else none⟩, ⟨8, fun _ => none⟩]).take 2)
          <+: twoLeaves.whole [4, 8] := by decide +kernel
  exact ⟨hruns.1, hruns.2.1, fun hall => hruns.2.2 ((hall twoLeaves [4, 8] _).inOrder 2)⟩

end PstReader
