import PstDedupe.Foundations.GuardedRuns
import PstDedupe.Foundations.FreshIds
import PstDedupe.MatterCore.Redaction

/-!
# The redaction counters under several clients

Clients of one matter issue calls; what a call reads is one step and its transaction another, and
the steps of all clients interleave.
-/

namespace MatterCore

open Rust Foundations List

/-! ## Clients -/

inductive RedactionCall where
  | createRedaction (input : CreateRedactionInput) (id now : String)
  | deleteRedaction (id : String)
  | createGeomRedaction (input : CreateGeomRedactionInput) (id now : String)
  | deleteGeomRedaction (id : String)

inductive PendingCall where
  | createRedaction (row : ItemRedaction)
  | deleteRedaction (existing : ItemRedaction)
  | createGeomRedaction (row : ItemGeomRedaction)
  | deleteGeomRedaction (existing : ItemGeomRedaction)

def RedactionCall.read (matter : String) (db : MatterDb) : RedactionCall → Except CallError PendingCall
  | .createRedaction input id now => .createRedaction <$> createRedactionRow matter db input id now
  | .deleteRedaction id => .deleteRedaction <$> readDeleteRedaction matter db id
  | .createGeomRedaction input id now => .createGeomRedaction <$> createGeomRedactionRow matter db input id now
  | .deleteGeomRedaction id => .deleteGeomRedaction <$> readDeleteGeomRedaction matter db id

def PendingCall.txn (matter : String) (db : MatterDb) : PendingCall → Except CallError MatterDb
  | .createRedaction row => createRedactionTxn matter row db
  | .deleteRedaction existing => .ok (deleteRedactionTxn matter existing db)
  | .createGeomRedaction row => createGeomRedactionTxn matter row db
  | .deleteGeomRedaction existing => .ok (deleteGeomRedactionTxn matter existing db)

structure RedactionState where
  db : MatterDb
  pending : List PendingCall := []

inductive RedactionAction where
  | read (call : RedactionCall)
  | commit (i : Nat)
  /-- The transaction fails and is rolled back, or the client is gone. -/
  | abort (i : Nat)

namespace RedactionState

/-- A call whose reads fail returns their error; a transaction that fails changes nothing. -/
def step (matter : String) (s : RedactionState) : RedactionAction → RedactionState
  | .read call =>
    match call.read matter s.db with
    | .ok p => { s with pending := s.pending ++ [p] }
    | .error _ => s
  | .commit i =>
    match s.pending[i]? with
    | some p =>
      match p.txn matter s.db with
      | .ok db => { db := db, pending := s.pending.eraseIdx i }
      | .error _ => { s with pending := s.pending.eraseIdx i }
    | none => s
  | .abort i => { s with pending := s.pending.eraseIdx i }

end RedactionState

/-! ## The counters -/

def ItemRedaction.countedFor (row : ItemRedaction) : Option String := some row.itemId

def ItemGeomRedaction.countedFor (row : ItemGeomRedaction) : Option String :=
  if row.status = .active then some row.itemId else none

/-- Redactions are keyed by their ids. -/
structure MatterDb.Keyed (db : MatterDb) : Prop where
  redactions : (db.itemRedactions.map ItemRedaction.id).Nodup
  geomRedactions : (db.itemGeomRedactions.map ItemGeomRedaction.id).Nodup

/-- The counters of every item are the numbers of its rows. -/
structure CountersHold (matter : String) (db : MatterDb) : Prop where
  redactions : ∀ item ∈ db.items, item.matterId = matter →
    item.redactionCount = tally ItemRedaction.countedFor db.itemRedactions item.id
  geomRedactions : ∀ item ∈ db.items, item.matterId = matter →
    item.geomRedactionCount = tally ItemGeomRedaction.countedFor db.itemGeomRedactions item.id

/-- An item with a redaction counts at least one. -/
structure LiveShown (matter : String) (db : MatterDb) : Prop where
  redactions : ∀ item ∈ db.items, item.matterId = matter →
    ∀ row ∈ db.itemRedactions, row.itemId = item.id → 0 < item.redactionCount
  geomRedactions : ∀ item ∈ db.items, item.matterId = matter →
    ∀ row ∈ db.itemGeomRedactions, row.itemId = item.id → row.status = .active → 0 < item.geomRedactionCount

theorem tally_pos {R K : Type} [DecidableEq K] {owner : R → Option K} {rows : List R} {r : R}
    {k : K} (hr : r ∈ rows) (howner : owner r = some k) : 0 < tally owner rows k :=
  List.countP_pos_iff.mpr ⟨r, hr, decide_eq_true howner⟩

theorem CountersHold.liveShown {matter : String} {db : MatterDb} (h : CountersHold matter db) :
    LiveShown matter db where
  redactions item hitem hmatter row hrow hof := by
    rw [h.redactions item hitem hmatter, Int.natCast_pos]
    exact tally_pos hrow (congrArg some hof)
  geomRedactions item hitem hmatter row hrow hof hactive := by
    rw [h.geomRedactions item hitem hmatter, Int.natCast_pos]
    exact tally_pos hrow ((if_pos hactive).trans (congrArg some hof))

def LowersRightly (matter : String) (db : MatterDb) (now read : Option String) (count : Item → Int) : Prop :=
  ∀ item ∈ db.items, item.matterId = matter →
    (now = some item.id → read = some item.id) ∧ (read = some item.id → now = some item.id ∨ count item = 0)

instance {matter : String} {db : MatterDb} {now read : Option String} {count : Item → Int} :
    Decidable (LowersRightly matter db now read count) :=
  inferInstanceAs (Decidable (∀ item ∈ db.items, item.matterId = matter →
    (now = some item.id → read = some item.id) ∧ (read = some item.id → now = some item.id ∨ count item = 0)))

def PendingCall.Sound (matter : String) (db : MatterDb) : PendingCall → Prop
  | .deleteRedaction existing =>
    LowersRightly matter db (ownerOf ItemRedaction.id ItemRedaction.countedFor db.itemRedactions existing.id)
      existing.countedFor Item.redactionCount
  | .deleteGeomRedaction existing =>
    LowersRightly matter db
      (ownerOf ItemGeomRedaction.id ItemGeomRedaction.countedFor db.itemGeomRedactions existing.id)
      existing.countedFor Item.geomRedactionCount
  | .createRedaction _ | .createGeomRedaction _ => True

/-- The step is not the transaction of a delete whose row is gone. -/
def RedactionState.StepSound (matter : String) (s : RedactionState) : RedactionAction → Prop
  | .commit i => ∀ p ∈ s.pending[i]?, p.Sound matter s.db
  | .read _ | .abort _ => True

/-! ## One transaction -/

section Txn

variable {matter itemId : String} {db db' : MatterDb}

theorem forall_items_updateItem {set : Item → Item} {P : Item → Prop}
    (hset : ∀ item, (set item).matterId = item.matterId) :
    (∀ item ∈ (db.updateItem matter itemId set).items, item.matterId = matter → P item) ↔
      ∀ item ∈ db.items, item.matterId = matter → P (if item.id = itemId then set item else item) := by
  have hitem : ∀ item : Item, item.matterId = matter →
      (if item.id = itemId ∧ item.matterId = matter then set item else item)
        = if item.id = itemId then set item else item := by
    intro item hmatter
    simp only [hmatter, and_true]
  constructor
  · intro h item hmem hmatter
    have hnew := h _ (MatterDb.mem_items_updateItem.mpr ⟨item, hmem, rfl⟩)
    rw [hitem item hmatter] at hnew
    apply hnew
    split
    · rw [hset, hmatter]
    · exact hmatter
  · intro h item hmem hmatter
    obtain ⟨old, hold, rfl⟩ := MatterDb.mem_items_updateItem.mp hmem
    have hmatterOld : old.matterId = matter := by
      split at hmatter
      · rw [← hset, hmatter]
      · exact hmatter
    rw [hitem old hmatterOld]
    exact h old hold hmatterOld

theorem keyed_createRedactionTxn {row : ItemRedaction} (hkeyed : db.Keyed)
    (h : createRedactionTxn matter row db = .ok db') : db'.Keyed := by
  unfold createRedactionTxn at h
  split at h
  · cases h
  · rename_i hfresh
    cases h
    refine ⟨?_, hkeyed.geomRedactions⟩
    show ((db.itemRedactions ++ [row]).map ItemRedaction.id).Nodup
    rw [map_append]
    exact List.nodup_append_comm.mp (List.nodup_cons.mpr ⟨hfresh, hkeyed.redactions⟩)

theorem keyed_createGeomRedactionTxn {row : ItemGeomRedaction} (hkeyed : db.Keyed)
    (h : createGeomRedactionTxn matter row db = .ok db') : db'.Keyed := by
  unfold createGeomRedactionTxn at h
  split at h
  · cases h
  · rename_i hfresh
    cases h
    refine ⟨hkeyed.redactions, ?_⟩
    show ((db.itemGeomRedactions ++ [row]).map ItemGeomRedaction.id).Nodup
    rw [map_append]
    exact List.nodup_append_comm.mp (List.nodup_cons.mpr ⟨hfresh, hkeyed.geomRedactions⟩)

theorem countersHold_createRedactionTxn {row : ItemRedaction} (hcount : CountersHold matter db)
    (h : createRedactionTxn matter row db = .ok db') : CountersHold matter db' := by
  unfold createRedactionTxn at h
  split at h
  · cases h
  · cases h
    constructor
    · refine (forall_items_updateItem ?keeps).mpr ?_
      case keeps => exact fun _ => rfl
      intro item hitem hmatter
      have hold := hcount.redactions item hitem hmatter
      rw [MatterDb.itemRedactions_updateItem, tally_concat]
      by_cases hid : item.id = row.itemId
      · simp only [ItemRedaction.countedFor, hid, Item.nullRedactedArtifact, if_true] at hold ⊢
        push_cast
        omega
      · simp only [if_neg hid, ItemRedaction.countedFor, Option.some.injEq, Ne.symm hid, if_false,
          Nat.add_zero]
        exact hold
    · refine (forall_items_updateItem ?keeps).mpr ?_
      case keeps => exact fun _ => rfl
      intro item hitem hmatter
      have hold := hcount.geomRedactions item hitem hmatter
      split
      · exact hold
      · exact hold

theorem countersHold_createGeomRedactionTxn {row : ItemGeomRedaction} (hactive : row.status = .active)
    (hcount : CountersHold matter db) (h : createGeomRedactionTxn matter row db = .ok db') :
    CountersHold matter db' := by
  unfold createGeomRedactionTxn at h
  split at h
  · cases h
  · cases h
    constructor
    · refine (forall_items_updateItem ?keeps).mpr ?_
      case keeps => exact fun _ => rfl
      intro item hitem hmatter
      have hold := hcount.redactions item hitem hmatter
      split
      · exact hold
      · exact hold
    · refine (forall_items_updateItem ?keeps).mpr ?_
      case keeps => exact fun _ => rfl
      intro item hitem hmatter
      have hold := hcount.geomRedactions item hitem hmatter
      rw [MatterDb.itemGeomRedactions_updateItem, tally_concat]
      by_cases hid : item.id = row.itemId
      · simp only [ItemGeomRedaction.countedFor, hactive, hid, if_true] at hold ⊢
        push_cast
        omega
      · simp only [if_neg hid, ItemGeomRedaction.countedFor, hactive, if_true, Option.some.injEq,
          Ne.symm hid, if_false, Nat.add_zero]
        exact hold

theorem keyed_deleteRedactionTxn (hkeyed : db.Keyed) (existing : ItemRedaction) :
    (deleteRedactionTxn matter existing db).Keyed :=
  ⟨hkeyed.redactions.sublist (List.filter_sublist.map _), hkeyed.geomRedactions⟩

theorem keyed_deleteGeomRedactionTxn (hkeyed : db.Keyed) (existing : ItemGeomRedaction) :
    (deleteGeomRedactionTxn matter existing db).Keyed := by
  have hrows := hkeyed.geomRedactions.sublist
    ((filter_sublist (p := fun row => row.id ≠ existing.id)).map ItemGeomRedaction.id)
  unfold deleteGeomRedactionTxn
  dsimp only
  split
  · exact ⟨hkeyed.redactions, hrows⟩
  · exact ⟨hkeyed.redactions, hrows⟩

theorem countersHold_deleteRedactionTxn_iff (hkeyed : db.Keyed) (hcount : CountersHold matter db)
    (existing : ItemRedaction) : CountersHold matter (deleteRedactionTxn matter existing db)
      ↔ PendingCall.Sound matter db (.deleteRedaction existing) := by
  have hgeom : ∀ item ∈ (deleteRedactionTxn matter existing db).items, item.matterId = matter →
      item.geomRedactionCount = tally ItemGeomRedaction.countedFor db.itemGeomRedactions item.id := by
    refine (forall_items_updateItem ?keeps).mpr ?_
    case keeps => exact fun _ => rfl
    intro item hitem hmatter
    have hold := hcount.geomRedactions item hitem hmatter
    split
    · exact hold
    · exact hold
  have htext : (∀ item ∈ (deleteRedactionTxn matter existing db).items, item.matterId = matter →
      item.redactionCount
        = tally ItemRedaction.countedFor (deleteRedactionTxn matter existing db).itemRedactions item.id)
      ↔ PendingCall.Sound matter db (.deleteRedaction existing) := by
    refine (forall_items_updateItem ?keeps).trans ?_
    case keeps => exact fun _ => rfl
    apply forall₃_congr
    intro item hitem hmatter
    rw [← lowered_eq_tally_iff hkeyed.redactions (hcount.redactions item hitem hmatter)]
    by_cases hid : item.id = existing.itemId
    · rw [if_pos hid, lowered, ItemRedaction.countedFor, if_pos (congrArg some hid.symm)]
      exact Iff.rfl
    · rw [if_neg hid, lowered, ItemRedaction.countedFor, if_neg fun h => hid (Option.some.inj h).symm]
      exact Iff.rfl
  exact ⟨fun h => htext.mp h.redactions, fun h => ⟨htext.mpr h, hgeom⟩⟩

theorem countersHold_deleteGeomRedactionTxn_iff (hkeyed : db.Keyed) (hcount : CountersHold matter db)
    (existing : ItemGeomRedaction) : CountersHold matter (deleteGeomRedactionTxn matter existing db)
      ↔ PendingCall.Sound matter db (.deleteGeomRedaction existing) := by
  have hlowered : ∀ item ∈ db.items, item.matterId = matter →
      (lowered existing.countedFor item.id item.geomRedactionCount
          = tally ItemGeomRedaction.countedFor
              (without ItemGeomRedaction.id db.itemGeomRedactions existing.id) item.id
        ↔ (ownerOf ItemGeomRedaction.id ItemGeomRedaction.countedFor db.itemGeomRedactions existing.id
              = some item.id → existing.countedFor = some item.id)
          ∧ (existing.countedFor = some item.id →
              ownerOf ItemGeomRedaction.id ItemGeomRedaction.countedFor db.itemGeomRedactions existing.id
                = some item.id ∨ item.geomRedactionCount = 0)) := fun item hitem hmatter =>
    lowered_eq_tally_iff hkeyed.geomRedactions (hcount.geomRedactions item hitem hmatter) _
  by_cases hactive : existing.status = .active
  · -- the row was read as active: its item is lowered
    have htxn : deleteGeomRedactionTxn matter existing db
        = ({ db with itemGeomRedactions := db.itemGeomRedactions.filter fun row => row.id ≠ existing.id }).updateItem
            matter existing.itemId fun item =>
              { item with geomRedactionCount := max 0 (item.geomRedactionCount - 1) } := if_pos hactive
    have hread : existing.countedFor = some existing.itemId := if_pos hactive
    have htext : ∀ item ∈ (deleteGeomRedactionTxn matter existing db).items, item.matterId = matter →
        item.redactionCount = tally ItemRedaction.countedFor db.itemRedactions item.id := by
      rw [htxn]
      refine (forall_items_updateItem ?keeps).mpr ?_
      case keeps => exact fun _ => rfl
      intro item hitem hmatter
      have hold := hcount.redactions item hitem hmatter
      split
      · exact hold
      · exact hold
    have hgeom : (∀ item ∈ (deleteGeomRedactionTxn matter existing db).items,
        item.matterId = matter → item.geomRedactionCount = tally ItemGeomRedaction.countedFor
          (deleteGeomRedactionTxn matter existing db).itemGeomRedactions item.id)
        ↔ PendingCall.Sound matter db (.deleteGeomRedaction existing) := by
      rw [htxn]
      refine (forall_items_updateItem ?keeps).trans ?_
      case keeps => exact fun _ => rfl
      apply forall₃_congr
      intro item hitem hmatter
      rw [← hlowered item hitem hmatter]
      by_cases hid : item.id = existing.itemId
      · rw [if_pos hid, lowered, hread, if_pos (congrArg some hid.symm)]
        exact Iff.rfl
      · rw [if_neg hid, lowered, hread, if_neg fun h => hid (Option.some.inj h).symm]
        exact Iff.rfl
    have hkeep : (deleteGeomRedactionTxn matter existing db).itemRedactions = db.itemRedactions := by
      rw [htxn]
      rfl
    exact ⟨fun h => hgeom.mp h.geomRedactions, fun h => ⟨hkeep ▸ htext, hgeom.mpr h⟩⟩
  · -- it was read as stale: only the row goes
    have htxn : deleteGeomRedactionTxn matter existing db
        = { db with itemGeomRedactions := db.itemGeomRedactions.filter fun row => row.id ≠ existing.id } :=
      if_neg hactive
    have hread : existing.countedFor = none := if_neg hactive
    have hgeom : (∀ item ∈ db.items, item.matterId = matter →
        item.geomRedactionCount = tally ItemGeomRedaction.countedFor
          (without ItemGeomRedaction.id db.itemGeomRedactions existing.id) item.id)
        ↔ PendingCall.Sound matter db (.deleteGeomRedaction existing) := by
      apply forall₃_congr
      intro item hitem hmatter
      rw [← hlowered item hitem hmatter, lowered, hread, if_neg (by simp)]
    rw [htxn]
    exact ⟨fun h => hgeom.mp h.geomRedactions, fun h => ⟨hcount.redactions, hgeom.mpr h⟩⟩

theorem PendingCall.txn_eq_ok {p : PendingCall} (hkeyed : db.Keyed) (hcount : CountersHold matter db)
    (hlive : ∀ row, p = .createGeomRedaction row → row.status = .active) (h : p.txn matter db = .ok db') :
    CountersHold matter db' ↔ p.Sound matter db := by
  cases p with
  | createRedaction row => exact iff_of_true (countersHold_createRedactionTxn hcount h) trivial
  | createGeomRedaction row =>
    exact iff_of_true (countersHold_createGeomRedactionTxn (hlive row rfl) hcount h) trivial
  | deleteRedaction existing =>
    cases h
    exact countersHold_deleteRedactionTxn_iff hkeyed hcount existing
  | deleteGeomRedaction existing =>
    cases h
    exact countersHold_deleteGeomRedactionTxn_iff hkeyed hcount existing

theorem PendingCall.keyed_txn {p : PendingCall} (hkeyed : db.Keyed)
    (h : p.txn matter db = .ok db') : db'.Keyed := by
  cases p with
  | createRedaction row => exact keyed_createRedactionTxn hkeyed h
  | createGeomRedaction row => exact keyed_createGeomRedactionTxn hkeyed h
  | deleteRedaction existing =>
    cases h
    exact keyed_deleteRedactionTxn hkeyed existing
  | deleteGeomRedaction existing =>
    cases h
    exact keyed_deleteGeomRedactionTxn hkeyed existing

end Txn

/-- What every step keeps: the keys, and that a rectangle is about to be inserted as active. -/
structure RedactionState.WellFormed (s : RedactionState) : Prop where
  keyed : s.db.Keyed
  live : ∀ row, .createGeomRedaction row ∈ s.pending → row.status = .active

section Runs

variable {matter : String} {s : RedactionState}

theorem RedactionCall.live_of_read {call : RedactionCall} {db : MatterDb} {row : ItemGeomRedaction}
    (h : call.read matter db = .ok (.createGeomRedaction row)) : row.status = .active := by
  cases call with
  | createRedaction input id now =>
    obtain ⟨_, _, heq⟩ := bind_eq_ok.mp h
    cases heq
  | deleteRedaction id =>
    obtain ⟨_, _, heq⟩ := bind_eq_ok.mp h
    cases heq
  | createGeomRedaction input id now =>
    obtain ⟨_, hrow, heq⟩ := bind_eq_ok.mp h
    cases heq
    exact (createGeomRedactionRow_eq_ok hrow).2.2.2.1
  | deleteGeomRedaction id =>
    obtain ⟨_, _, heq⟩ := bind_eq_ok.mp h
    cases heq

theorem RedactionState.WellFormed.step (h : s.WellFormed) (a : RedactionAction) :
    (s.step matter a).WellFormed := by
  cases a with
  | read call =>
    cases hread : call.read matter s.db with
    | error e =>
      rw [RedactionState.step, hread]
      exact h
    | ok p =>
      rw [RedactionState.step, hread]
      refine ⟨h.keyed, fun row hrow => ?_⟩
      rcases List.mem_append.mp hrow with hrow | hrow
      · exact h.live row hrow
      · rw [← List.mem_singleton.mp hrow] at hread
        exact RedactionCall.live_of_read hread
  | commit i =>
    cases hp : s.pending[i]? with
    | none =>
      rw [RedactionState.step, hp]
      exact h
    | some p =>
      have hlive : ∀ row, .createGeomRedaction row ∈ s.pending.eraseIdx i → row.status = .active :=
        fun row hrow => h.live row (mem_of_mem_eraseIdx hrow)
      cases htxn : p.txn matter s.db with
      | error e =>
        rw [RedactionState.step, hp]
        dsimp only
        rw [htxn]
        exact ⟨h.keyed, hlive⟩
      | ok db =>
        rw [RedactionState.step, hp]
        dsimp only
        rw [htxn]
        exact ⟨p.keyed_txn h.keyed htxn, hlive⟩
  | abort i => exact ⟨h.keyed, fun row hrow => h.live row (mem_of_mem_eraseIdx hrow)⟩

theorem countersHold_step_iff (h : s.WellFormed) (hcount : CountersHold matter s.db)
    (a : RedactionAction) : CountersHold matter (s.step matter a).db ↔ s.StepSound matter a := by
  cases a with
  | read call =>
    have hdb : (s.step matter (.read call)).db = s.db := by
      rw [RedactionState.step]
      split
      · rfl
      · rfl
    rw [hdb]
    exact iff_of_true hcount trivial
  | commit i =>
    cases hp : s.pending[i]? with
    | none =>
      rw [RedactionState.step, RedactionState.StepSound, hp]
      exact iff_of_true hcount fun p hp => by cases hp
    | some p =>
      rw [RedactionState.step, RedactionState.StepSound, hp]
      have hlive : ∀ row, p = .createGeomRedaction row → row.status = .active := by
        rintro row rfl
        exact h.live row (mem_of_getElem? hp)
      have hsound : (∀ q ∈ some p, q.Sound matter s.db) ↔ p.Sound matter s.db := by simp
      rw [hsound]
      dsimp only
      cases htxn : p.txn matter s.db with
      | ok db => exact p.txn_eq_ok h.keyed hcount hlive htxn
      | error e =>
        -- only an insert can fail, and it is rolled back
        cases p with
        | createRedaction row => exact iff_of_true hcount trivial
        | createGeomRedaction row => exact iff_of_true hcount trivial
        | deleteRedaction existing => cases htxn
        | deleteGeomRedaction existing => cases htxn
  | abort i => exact iff_of_true hcount trivial

end Runs

/-- **The counters over all interleavings.** From right counters they are right, and show every live
redaction, in every state of a run iff no transaction of a delete in it misses the row that was
read. -/
theorem countersHold_iff_guarded {matter : String} {db : MatterDb} (hkeyed : db.Keyed)
    (hcount : CountersHold matter db) (actions : List RedactionAction) :
    Along (RedactionState.step matter) (fun s => CountersHold matter s.db ∧ LiveShown matter s.db)
      { db := db } actions
      ↔ Guarded (RedactionState.step matter) (RedactionState.StepSound matter) { db := db } actions := by
  have hwell : RedactionState.WellFormed { db := db } := ⟨hkeyed, fun row hrow => by cases hrow⟩
  have hruns : Along (RedactionState.step matter) (fun s => CountersHold matter s.db) { db := db } actions
      ↔ Guarded (RedactionState.step matter) (RedactionState.StepSound matter) { db := db } actions :=
    along_iff_guarded (J := RedactionState.WellFormed) (fun s a h => h.step a)
      (fun s a h hP => countersHold_step_iff h hP a) hwell hcount actions
  rw [← hruns]
  constructor
  · exact Along.mono fun s h => h.1
  · exact Along.mono fun s h => ⟨h, h.liveShown⟩

def twiceRedacted : MatterDb where
  items := [{ id := "i", matterId := "m", redactionCount := 2 }]
  itemRedactions := [
    { id := "a", itemId := "i", matterId := "m", startUtf8 := 0, endUtf8 := 1, exactQuote := "x"
      bodyDigest := "d", reason := .pii, status := .active, createdAt := "t", updatedAt := "t" },
    { id := "b", itemId := "i", matterId := "m", startUtf8 := 2, endUtf8 := 3, exactQuote := "y"
      bodyDigest := "d", reason := .pii, status := .active, createdAt := "t", updatedAt := "t" }]

theorem countersHold_twiceRedacted : CountersHold "m" twiceRedacted := by
  constructor
  · decide
  · decide

theorem keyed_twiceRedacted : twiceRedacted.Keyed := ⟨by decide, by decide⟩

theorem countersHold_iff_guarded_twoRows :
    Along (RedactionState.step "m") (fun s => CountersHold "m" s.db ∧ LiveShown "m" s.db)
      { db := twiceRedacted }
      [.read (.deleteRedaction "a"), .read (.deleteRedaction "b"), .commit 0, .commit 0] := by
  apply (countersHold_iff_guarded keyed_twiceRedacted countersHold_twiceRedacted _).mpr
  refine ⟨trivial, trivial, ?_, ?_, trivial⟩
  · rintro p hp
    cases hp
    unfold PendingCall.Sound
    decide +kernel
  · rintro p hp
    cases hp
    unfold PendingCall.Sound
    decide +kernel

theorem countersHold_broken_by_two_deletes :
    let s := [RedactionAction.read (.deleteRedaction "a"), .read (.deleteRedaction "a"), .commit 0,
      .commit 0].foldl
      (RedactionState.step "m") { db := twiceRedacted }
    CountersHold "m" twiceRedacted ∧ s.db.items.map Item.redactionCount = [0]
      ∧ s.db.itemRedactions.map ItemRedaction.id = ["b"] ∧ ¬ CountersHold "m" s.db := by
  refine ⟨countersHold_twiceRedacted, by decide +kernel, by decide +kernel, fun h => ?_⟩
  have hcounts := h.redactions
  revert hcounts
  decide +kernel

end MatterCore
