import PstDedupe.Rust.Std

/-!
# Integrity telemetry (`pst-reader/src/integrity_telemetry.rs`)

Counters for CRC and BID mismatches. One thread is modelled, with the process totals beside it. What
is logged, and when, is left out: it changes no counter.
-/

namespace PstReader

open Rust List

def u64Max : Nat := 2 ^ 64 - 1

/-- `u64::saturating_add`. -/
def satAdd (a b : Nat) : Nat := min (a + b) u64Max

def distinctBadBidsCap : Nat := 1024

/-- A capped `HashSet` of BIDs; not exact once a BID found no room. -/
structure BadBids where
  bids : List Nat
  exact : Bool
  deriving DecidableEq, Repr

namespace BadBids

def new : BadBids := ⟨[], true⟩

def record (s : BadBids) (bid : Nat) : BadBids :=
  if s.bids.length ≥ distinctBadBidsCap then
    if bid ∈ s.bids then s else { s with exact := false }
  else if bid ∈ s.bids then s
  else { s with bids := s.bids ++ [bid] }

end BadBids

structure IntegritySnapshot where
  pageCrcMismatches : Nat
  blockCrcMismatches : Nat
  blockBidMismatches : Nat
  distinctBadBids : Nat
  distinctBadBidsExact : Bool
  pageReads : Nat
  blockReads : Nat
  deriving DecidableEq, Repr

structure TlsState where
  pageCrc : Nat
  blockCrc : Nat
  blockBid : Nat
  pageReads : Nat
  blockReads : Nat
  badBids : BadBids
  /-- Not drained on flush; cleared by `beginSource`. -/
  sourceBadBids : BadBids
  deriving DecidableEq, Repr

structure Globals where
  pageCrc : Nat
  blockCrc : Nat
  blockBid : Nat
  pageReads : Nat
  blockReads : Nat
  badBids : BadBids
  deriving DecidableEq, Repr

structure Telemetry where
  tls : TlsState
  globals : Globals
  deriving DecidableEq, Repr

namespace Telemetry

def new : Telemetry := ⟨⟨0, 0, 0, 0, 0, .new, .new⟩, ⟨0, 0, 0, 0, 0, .new⟩⟩

def recordBadBid (t : TlsState) (bid : Nat) : TlsState :=
  { t with badBids := t.badBids.record bid, sourceBadBids := t.sourceBadBids.record bid }

def notePageRead (t : Telemetry) : Telemetry :=
  { t with tls := { t.tls with pageReads := satAdd t.tls.pageReads 1 } }

def noteBlockRead (t : Telemetry) : Telemetry :=
  { t with tls := { t.tls with blockReads := satAdd t.tls.blockReads 1 } }

def notePageCrc (t : Telemetry) (bid : Nat) : Telemetry :=
  { t with tls := recordBadBid { t.tls with pageCrc := satAdd t.tls.pageCrc 1 } bid }

def noteBlockCrc (t : Telemetry) (bid : Nat) : Telemetry :=
  { t with tls := recordBadBid { t.tls with blockCrc := satAdd t.tls.blockCrc 1 } bid }

def noteBlockBidMismatch (t : Telemetry) (bbtBid trailerBid : Nat) : Telemetry :=
  let tls := recordBadBid { t.tls with blockBid := satAdd t.tls.blockBid 1 } bbtBid
  { t with tls := if trailerBid ≠ bbtBid then recordBadBid tls trailerBid else tls }

def tlsBlockMismatchTotal (t : Telemetry) : Nat := satAdd t.tls.blockCrc t.tls.blockBid

section

variable [RandomState]

def flushTlsToGlobal (t : Telemetry) : Telemetry where
  tls := { t.tls with
    pageCrc := 0, blockCrc := 0, blockBid := 0, pageReads := 0, blockReads := 0, badBids := .new }
  globals :=
    let drained := (RandomState.visit t.tls.badBids.bids).foldl BadBids.record t.globals.badBids
    { pageCrc := t.globals.pageCrc + t.tls.pageCrc
      blockCrc := t.globals.blockCrc + t.tls.blockCrc
      blockBid := t.globals.blockBid + t.tls.blockBid
      pageReads := t.globals.pageReads + t.tls.pageReads
      blockReads := t.globals.blockReads + t.tls.blockReads
      badBids := if t.tls.badBids.exact then drained else { drained with exact := false } }

def readGlobalSnapshot (t : Telemetry) : IntegritySnapshot :=
  ⟨t.globals.pageCrc, t.globals.blockCrc, t.globals.blockBid, t.globals.badBids.bids.length,
    t.globals.badBids.exact, t.globals.pageReads, t.globals.blockReads⟩

def snapshot (t : Telemetry) : IntegritySnapshot × Telemetry :=
  let t := t.flushTlsToGlobal
  (t.readGlobalSnapshot, t)

def beginSource (t : Telemetry) : IntegritySnapshot × Telemetry :=
  let t := t.flushTlsToGlobal
  let t := { t with tls := { t.tls with sourceBadBids := .new } }
  (t.readGlobalSnapshot, t)

def endSourceDelta (t : Telemetry) (before : IntegritySnapshot) : IntegritySnapshot × Telemetry :=
  let t := t.flushTlsToGlobal
  let after := t.readGlobalSnapshot
  (⟨after.pageCrcMismatches - before.pageCrcMismatches, after.blockCrcMismatches - before.blockCrcMismatches,
    after.blockBidMismatches - before.blockBidMismatches, t.tls.sourceBadBids.bids.length,
    t.tls.sourceBadBids.exact, after.pageReads - before.pageReads, after.blockReads - before.blockReads⟩, t)

/-- `flush_summary`, less its log line. -/
def flushSummary (t : Telemetry) : Telemetry := t.flushTlsToGlobal

end

structure MessageScope where
  start : Nat
  deriving DecidableEq, Repr

def messageScopeEnter (t : Telemetry) : MessageScope := ⟨t.tlsBlockMismatchTotal⟩

def exitScope (t : Telemetry) (scope : MessageScope) : Bool :=
  decide (t.tlsBlockMismatchTotal > scope.start)

end Telemetry

inductive Op where
  | notePageRead
  | noteBlockRead
  | notePageCrc (bid : Nat)
  | noteBlockCrc (bid : Nat)
  | noteBlockBidMismatch (bbtBid trailerBid : Nat)
  | snapshot
  | beginSource
  | endSourceDelta (before : IntegritySnapshot)
  | flushSummary
  | enter
  | exit
  deriving DecidableEq, Repr

/-- A thread with its open scopes, innermost first, and what the closed ones returned, newest
first. -/
structure Thread where
  telemetry : Telemetry
  scopes : List Telemetry.MessageScope
  taints : List Bool
  deriving DecidableEq, Repr

namespace Thread

def new : Thread := ⟨.new, [], []⟩

section

variable [RandomState]

def step (s : Thread) : Op → Thread
  | .notePageRead => { s with telemetry := s.telemetry.notePageRead }
  | .noteBlockRead => { s with telemetry := s.telemetry.noteBlockRead }
  | .notePageCrc bid => { s with telemetry := s.telemetry.notePageCrc bid }
  | .noteBlockCrc bid => { s with telemetry := s.telemetry.noteBlockCrc bid }
  | .noteBlockBidMismatch bbtBid trailerBid =>
    { s with telemetry := s.telemetry.noteBlockBidMismatch bbtBid trailerBid }
  | .snapshot => { s with telemetry := s.telemetry.snapshot.2 }
  | .beginSource => { s with telemetry := s.telemetry.beginSource.2 }
  | .endSourceDelta before => { s with telemetry := (s.telemetry.endSourceDelta before).2 }
  | .flushSummary => { s with telemetry := s.telemetry.flushSummary }
  | .enter => { s with scopes := s.telemetry.messageScopeEnter :: s.scopes }
  | .exit =>
    match s.scopes with
    | [] => s
    | scope :: scopes => { s with
      scopes := scopes
      taints := s.telemetry.exitScope scope :: s.taints }

def run (ops : List Op) : Thread := ops.foldl step .new

end

end Thread

/-!
# When a message scope tells the truth

Between two flushes the thread's block count is the number of block mismatches noted, up to
`u64::MAX`.
-/

open Telemetry

namespace Op

def blockNote : Op → Bool
  | .noteBlockCrc _ | .noteBlockBidMismatch _ _ => true
  | _ => false

def flushes : Op → Bool
  | .snapshot | .beginSource | .endSourceDelta _ | .flushSummary => true
  | _ => false

end Op

/-- Block mismatches noted since the last flush, `n` of them before the operations. -/
def pendingFrom (n : Nat) (ops : List Op) : Nat :=
  ops.foldl (fun n op => if op.flushes then 0 else if op.blockNote then n + 1 else n) n

/-- Block mismatches noted after the last flush among the operations. -/
def pending (ops : List Op) : Nat := pendingFrom 0 ops

theorem pendingFrom_append (n : Nat) (ops ops' : List Op) :
    pendingFrom n (ops ++ ops') = pendingFrom (pendingFrom n ops) ops' := foldl_append

theorem pendingFrom_eq (n : Nat) (ops : List Op) : pendingFrom n ops =
    if ops.any Op.flushes then pending ops else n + ops.countP Op.blockNote := by
  induction ops generalizing n with
  | nil => rfl
  | cons op ops ih =>
    show pendingFrom (if op.flushes then 0 else if op.blockNote then n + 1 else n) ops = _
    by_cases hflush : op.flushes
    · rw [if_pos hflush, if_pos (by simp [hflush])]
      show _ = pendingFrom (if op.flushes then 0 else if op.blockNote then 0 + 1 else 0) ops
      rw [if_pos hflush]
    · have hany : (op :: ops).any Op.flushes = ops.any Op.flushes := by simp [hflush]
      have hpending : pending (op :: ops) = pendingFrom (if op.blockNote then 0 + 1 else 0) ops := by
        show pendingFrom (if op.flushes then 0 else if op.blockNote then 0 + 1 else 0) ops = _
        rw [if_neg hflush]
      rw [if_neg hflush, hany, hpending, ih, ih]
      by_cases hmore : ops.any Op.flushes
      · rw [if_pos hmore, if_pos hmore, if_pos hmore]
      · rw [if_neg hmore, if_neg hmore, countP_cons]
        split <;> omega

theorem pendingFrom_le (n : Nat) (ops : List Op) : pendingFrom n ops ≤ n + ops.countP Op.blockNote := by
  induction ops generalizing n with
  | nil => exact Nat.le_refl _
  | cons op ops ih =>
    have hstep : (if op.flushes then 0 else if op.blockNote then n + 1 else n)
        ≤ n + (if op.blockNote then 1 else 0) := by
      split
      · exact Nat.zero_le _
      · split <;> omega
    have hrest := ih (if op.flushes then 0 else if op.blockNote then n + 1 else n)
    show pendingFrom (if op.flushes then 0 else if op.blockNote then n + 1 else n) ops ≤ _
    rw [countP_cons]
    omega

/-- The two cells hold how many of `n` mismatches were of their kind, as far as a `u64` goes. -/
def Counts (t : Telemetry) (n : Nat) : Prop :=
  ∃ crc bid, t.tls.blockCrc = min crc u64Max ∧ t.tls.blockBid = min bid u64Max ∧ crc + bid = n

theorem Counts.total {t : Telemetry} {n : Nat} (h : Counts t n) : t.tlsBlockMismatchTotal = min n u64Max := by
  obtain ⟨crc, bid, hcrc, hbid, rfl⟩ := h
  unfold tlsBlockMismatchTotal satAdd
  omega

section

variable [RandomState]

theorem telemetry_exit (s : Thread) : (s.step .exit).telemetry = s.telemetry := by
  cases h : s.scopes <;> simp [Thread.step, h]

theorem Counts.step {s : Thread} {n : Nat} (h : Counts s.telemetry n) (op : Op) :
    Counts (s.step op).telemetry (pendingFrom n [op]) := by
  obtain ⟨crc, bid, hcrc, hbid, rfl⟩ := h
  have hsat : ∀ a, satAdd (min a u64Max) 1 = min (a + 1) u64Max := by
    intro a
    unfold satAdd
    omega
  cases op with
  | notePageRead => exact ⟨crc, bid, hcrc, hbid, rfl⟩
  | noteBlockRead => exact ⟨crc, bid, hcrc, hbid, rfl⟩
  | notePageCrc b => exact ⟨crc, bid, hcrc, hbid, rfl⟩
  | noteBlockCrc b =>
    refine ⟨crc + 1, bid, ?_, hbid, by show crc + 1 + bid = crc + bid + 1; omega⟩
    show satAdd s.telemetry.tls.blockCrc 1 = _
    rw [hcrc, hsat]
  | noteBlockBidMismatch b b' =>
    have hcells : ∀ t : TlsState, ∀ b : Nat, (recordBadBid t b).blockCrc = t.blockCrc ∧
        (recordBadBid t b).blockBid = t.blockBid := fun _ _ => ⟨rfl, rfl⟩
    refine ⟨crc, bid + 1, ?_, ?_, rfl⟩
    · show ((s.telemetry.noteBlockBidMismatch b b').tls).blockCrc = _
      unfold noteBlockBidMismatch
      simp only
      split <;> exact hcrc
    · show ((s.telemetry.noteBlockBidMismatch b b').tls).blockBid = _
      rw [← hsat, ← hbid]
      unfold noteBlockBidMismatch
      simp only
      split <;> rfl
  | snapshot => exact ⟨0, 0, rfl, rfl, rfl⟩
  | beginSource => exact ⟨0, 0, rfl, rfl, rfl⟩
  | endSourceDelta b => exact ⟨0, 0, rfl, rfl, rfl⟩
  | flushSummary => exact ⟨0, 0, rfl, rfl, rfl⟩
  | enter => exact ⟨crc, bid, hcrc, hbid, rfl⟩
  | exit =>
    rw [telemetry_exit]
    exact ⟨crc, bid, hcrc, hbid, rfl⟩

theorem Counts.foldl {s : Thread} {n : Nat} (h : Counts s.telemetry n) (ops : List Op) :
    Counts (ops.foldl Thread.step s).telemetry (pendingFrom n ops) := by
  induction ops generalizing s n with
  | nil => exact h
  | cons op ops ih => exact ih (h.step op)

/-- Every scope that is entered is left. -/
inductive Balanced : List Op → Prop where
  | nil : Balanced []
  | op {op : Op} {rest : List Op} (henter : op ≠ .enter) (hexit : op ≠ .exit)
      (hrest : Balanced rest) : Balanced (op :: rest)
  | scope {inner rest : List Op} (hinner : Balanced inner) (hrest : Balanced rest) :
      Balanced (.enter :: (inner ++ .exit :: rest))

theorem Balanced.scopes {ops : List Op} (h : Balanced ops) (s : Thread) :
    (ops.foldl Thread.step s).scopes = s.scopes := by
  induction h generalizing s with
  | nil => rfl
  | @op op rest henter hexit _ ih =>
    rw [foldl_cons, ih]
    cases op with
    | enter => exact absurd rfl henter
    | exit => exact absurd rfl hexit
    | _ => rfl
  | @scope inner rest _ _ ihinner ihrest =>
    rw [foldl_cons, foldl_append, foldl_cons, ihrest]
    have hinner := ihinner (s.step .enter)
    generalize inner.foldl Thread.step (s.step .enter) = s₁ at hinner
    unfold Thread.step
    rw [hinner]
    rfl

theorem exit_taint {before inside : List Op} (h : Balanced inside) :
    (Thread.run (before ++ .enter :: (inside ++ [.exit]))).taints.head?
      = some (decide (min (pending before) u64Max < min (pending (before ++ inside)) u64Max)) := by
  have hstart : Counts Thread.new.telemetry 0 := ⟨0, 0, rfl, rfl, rfl⟩
  have hbefore : Counts (Thread.run before).telemetry (pending before) := hstart.foldl before
  have hentered : Counts ((Thread.run before).step .enter).telemetry (pending before) :=
    hbefore.step .enter
  have hend := hentered.foldl inside
  have hjoin : pendingFrom (pending before) inside = pending (before ++ inside) :=
    (pendingFrom_append 0 before inside).symm
  rw [hjoin] at hend
  have hscopes := h.scopes ((Thread.run before).step .enter)
  have hrun : Thread.run (before ++ .enter :: (inside ++ [.exit]))
      = (inside.foldl Thread.step ((Thread.run before).step .enter)).step .exit := by
    unfold Thread.run
    rw [foldl_append, foldl_cons, foldl_append]
    rfl
  rw [hrun]
  generalize inside.foldl Thread.step ((Thread.run before).step .enter) = s at hend hscopes
  show (Thread.step s .exit).taints.head? = _
  have hscopes' : s.scopes = (Thread.run before).telemetry.messageScopeEnter
      :: (Thread.run before).scopes := hscopes
  unfold Thread.step
  rw [hscopes']
  show some (s.telemetry.exitScope (Thread.run before).telemetry.messageScopeEnter) = _
  unfold exitScope messageScopeEnter
  rw [hend.total, hbefore.total]

/-- **When a scope tells the truth.** A scope says "tainted" iff a block mismatch was noted inside
it: exactly if nothing was noted, or the count at its start leaves room and, when a flush falls
inside, more mismatches follow the last flush than the count was at the start. -/
theorem exit_taint_iff {before inside : List Op} (h : Balanced inside) :
    ((Thread.run (before ++ .enter :: (inside ++ [.exit]))).taints.head? = some true ↔
        ∃ op ∈ inside, op.blockNote = true) ↔ ((∃ op ∈ inside, op.blockNote = true) → pending before < u64Max ∧
        (inside.any Op.flushes = true → pending before < pending inside)) := by
  have hnoted : (∃ op ∈ inside, op.blockNote = true) ↔ 0 < inside.countP Op.blockNote :=
    List.countP_pos_iff.symm
  have hjoined : pending (before ++ inside) =
      if inside.any Op.flushes then pending inside else pending before + inside.countP Op.blockNote := by
    rw [← pendingFrom_eq]
    exact pendingFrom_append 0 before inside
  have hlast : pending inside ≤ 0 + inside.countP Op.blockNote := pendingFrom_le 0 inside
  rw [exit_taint h, Option.some.injEq, decide_eq_true_iff, hnoted, hjoined]
  by_cases hflush : inside.any Op.flushes
  · rw [if_pos hflush]
    simp only [hflush, true_imp_iff]
    omega
  · rw [if_neg hflush]
    simp only [hflush, false_imp_iff, and_true, Bool.false_eq_true]
    omega

end

theorem exit_taint_iff_noted :
    (@Thread.run RandomState.inOrder ([.noteBlockCrc 5, .snapshot]
      ++ .enter :: ([.enter, .noteBlockBidMismatch 7 8, .exit] ++ [.exit]))).taints.head? = some true := by
  let _ := RandomState.inOrder
  have hinner : Balanced [.noteBlockBidMismatch 7 8] := .op (by decide) (by decide) .nil
  -- the snapshot has taken the mismatch in front of the scope
  have hroom : pending [.noteBlockCrc 5, .snapshot] < u64Max ∧
      ([Op.enter, .noteBlockBidMismatch 7 8, .exit].any Op.flushes = true →
        pending [.noteBlockCrc 5, .snapshot] < pending [Op.enter, .noteBlockBidMismatch 7 8, .exit]) := by decide
  exact ((exit_taint_iff (.scope hinner .nil)).mpr fun _ => hroom).mpr (by decide)

/-- A mismatch that is noted in front of a snapshot is lost to the scope around both. -/
theorem exit_misses_flushed_mismatch :
    (@Thread.run RandomState.inOrder [.enter, .noteBlockCrc 5, .snapshot, .exit]).taints = [false] ∧
      Op.noteBlockCrc 5 ∈ [Op.enter, .noteBlockCrc 5, .snapshot, .exit] ∧
      (Op.noteBlockCrc 5).blockNote = true := by
  decide

end PstReader
