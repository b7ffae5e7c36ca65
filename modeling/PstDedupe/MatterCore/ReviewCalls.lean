import PstDedupe.MatterCore.CodingSpecs
import PstDedupe.MatterCore.Notes

/-!
# The guarded calls of review

`apply_codes`, `upsert_note`, `delete_note_with_version` and `upsert_item_privilege` as one kind of
call: what each reads and what it guards when its transaction starts.
-/

namespace MatterCore

open Rust Foundations List Option Prod

structure Guarding where
  targets : List String
  actor : String
  expectedVersion : Option Int
  guards : ReviewHandle.Guards
  now : String

def Guarding.prepare (g : Guarding) (db : ReviewDb) : Except CallError (List Int × ReviewDb) :=
  g.guards.prepare db g.targets g.actor g.expectedVersion g.now

inductive ReviewCall where
  | applyCodes (input : ApplyCodesInput)
  | upsertNote (input : UpsertNoteInput) (newId : String)
  | deleteNote (noteId actor : String) (expectedVersion : Option Int)
  | upsertPrivilege (input : UpsertItemPrivilegeInput)

inductive PendingReview where
  | codes (c : CodesApply)
  | noteUpdate (u : NoteUpdate)
  | noteCreate (c : NoteCreate)
  | noteDelete (d : NoteDelete)
  | privilege (u : PrivilegeUpsert)

def NoteUpsert.pending : NoteUpsert → PendingReview
  | .update u => .noteUpdate u
  | .create c => .noteCreate c

def PendingReview.guarding : PendingReview → Guarding
  | codes c => ⟨c.targets, c.actor, c.expectedVersion, c.guards, c.now⟩
  | noteUpdate u => ⟨[u.itemId], u.actor, u.expectedVersion, u.guards, u.now⟩
  | noteCreate c => ⟨[c.note.itemId], c.note.createdBy, c.expectedVersion, c.guards, c.note.createdAt⟩
  | noteDelete d => ⟨[d.itemId], d.actor, d.expectedVersion, d.guards, d.now⟩
  | privilege u => ⟨[u.itemId], u.actor, u.expectedVersion, u.guards, u.now⟩

def PendingReview.txn (matter : String) (db : ReviewDb) : PendingReview → Except CallError ReviewDb
  | codes c => (c.txn matter db).map snd
  | noteUpdate u => u.txn db
  | noteCreate c => c.txn matter db
  | noteDelete d => d.txn matter db
  | privilege u => u.txn matter db

namespace ReviewCall

def read (h : ReviewHandle) (db : ReviewDb) (now : String) : ReviewCall → Except CallError PendingReview
  | applyCodes input => (readApplyCodes h db input now).map .codes
  | upsertNote input newId => (readUpsertNote h db input newId now).map NoteUpsert.pending
  | deleteNote noteId actor expectedVersion =>
    (readDeleteNote h db noteId actor expectedVersion now).map .noteDelete
  | upsertPrivilege input => (readUpsertItemPrivilege h db input now).map .privilege

def actor : ReviewCall → String
  | applyCodes input => input.actor
  | upsertNote input _ => input.actor
  | deleteNote _ actor _ => actor
  | upsertPrivilege input => input.actor

def expectedVersion : ReviewCall → Option Int
  | applyCodes input => input.expectedVersion
  | upsertNote input _ => input.expectedVersion
  | deleteNote _ _ expectedVersion => expectedVersion
  | upsertPrivilege input => input.expectedVersion

def Targets (h : ReviewHandle) (db : ReviewDb) (itemId : String) : ReviewCall → Prop
  | applyCodes input =>
    if input.propagateFamily then
      ∃ selected ∈ input.itemIds, ∃ family, db.familyUnit h.matterId selected = .ok family ∧ itemId ∈ family
    else itemId ∈ input.itemIds
  | upsertNote input _ =>
    match input.id with
    | some noteId => ∃ note ∈ rowAt ItemNote.id db.itemNotes noteId, note.itemId = itemId
    | none => input.itemId = itemId
  | deleteNote noteId _ _ => ∃ note ∈ rowAt ItemNote.id db.itemNotes noteId, note.itemId = itemId
  | upsertPrivilege input => input.itemId = itemId

/-- The calls as the source makes them. -/
def run (h : ReviewHandle) (db : ReviewDb) (now : String) : ReviewCall → Except CallError ReviewDb
  | applyCodes input => (MatterCore.applyCodes h db input now).map snd
  | upsertNote input newId => MatterCore.upsertNote h db input newId now
  | deleteNote noteId actor expectedVersion => deleteNoteWithVersion h db noteId actor expectedVersion now
  | upsertPrivilege input => upsertItemPrivilege h db input now

end ReviewCall

section Reads

variable {h : ReviewHandle} {db : ReviewDb} {now : String}

def ReviewDb.EnabledUser (db : ReviewDb) (actor : String) : Prop :=
  trim actor ≠ "" ∧ ∃ user ∈ db.loadUser (trim actor), user.disabledAt = none

theorem resolveActorForMutate_eq_ok {actor resolved : String}
    (hok : h.resolveActorForMutate db actor = .ok resolved) :
    resolved = normalizeActor actor ∧ (h.strictActor → db.EnabledUser actor) := by
  unfold ReviewHandle.resolveActorForMutate at hok
  split at hok
  · unfold ReviewDb.resolveStrictActor at hok
    split at hok
    · cases hok
    rename_i hblank
    split at hok
    · cases hok
    rename_i user huser
    split at hok
    · cases hok
    rename_i henabled
    cases hok
    refine ⟨?_, fun _ => ⟨hblank, user, huser, by simpa using henabled⟩⟩
    show user.id = normalizeActor actor
    unfold normalizeActor
    rw [if_neg hblank]
    exact key_of_rowAt huser
  · rename_i hlax
    cases hok
    exact ⟨rfl, fun hstrict => absurd hstrict hlax⟩

structure ReviewCall.Resolved (h : ReviewHandle) (db : ReviewDb) (now : String) (call : ReviewCall)
    (g : Guarding) :
    Prop where
  actor : g.actor = normalizeActor call.actor
  enabled : h.strictActor → db.EnabledUser call.actor
  expected : g.expectedVersion = call.expectedVersion
  guards : g.guards = h.multiUserGuards db call.expectedVersion
  now : g.now = now
  distinct : g.targets.Nodup
  some : g.targets ≠ []
  targets : ∀ itemId, call.Targets h db itemId ↔ itemId ∈ g.targets

theorem map_eq_ok {ε α β : Type} {f : α → β} {x : Except ε α} {b : β} : x.map f = .ok b ↔ ∃ a,
    x = .ok a ∧ f a = b := by
  cases x with
  | error e => simp [Except.map]
  | ok a => simp [Except.map]

theorem getNote_eq_ok {noteId : String} {note : ItemNote} :
    db.getNote noteId = .ok note ↔ rowAt ItemNote.id db.itemNotes noteId = some note := by
  unfold ReviewDb.getNote
  cases rowAt ItemNote.id db.itemNotes noteId <;> simp

theorem mem_targets_of_read {input : ApplyCodesInput} {c : CodesApply}
    (hread : readApplyCodes h db input now = .ok c) (itemId : String) :
    (ReviewCall.applyCodes input).Targets h db itemId ↔ itemId ∈ c.targets := by
  unfold readApplyCodes at hread
  obtain ⟨_, hread⟩ := check_eq_ok.mp hread
  obtain ⟨_, hread⟩ := check_eq_ok.mp hread
  obtain ⟨_, _, hread⟩ := bind_eq_ok.mp hread
  obtain ⟨_, _, hread⟩ := bind_eq_ok.mp hread
  obtain ⟨_, _, hread⟩ := bind_eq_ok.mp hread
  obtain ⟨_, _, hread⟩ := bind_eq_ok.mp hread
  obtain ⟨_, _, hread⟩ := bind_eq_ok.mp hread
  obtain ⟨targets, htargets, hread⟩ := ite_bind_eq_ok.mp hread
  cases hread
  show _ ↔ itemId ∈ vecDedup (sortStrings targets)
  rw [mem_vecDedup_sortStrings]
  by_cases hfamily : input.propagateFamily
  · rw [if_pos hfamily] at htargets
    simp only [ReviewCall.Targets, if_pos hfamily]
    obtain ⟨families, hfamilies, htargets⟩ := bind_eq_ok.mp htargets
    cases htargets
    have hall := mapM_eq_ok_iff.mp hfamilies
    rw [mem_flatten]
    constructor
    · rintro ⟨selected, hselected, family, hunit, hmem⟩
      obtain ⟨found, hfound, hunit'⟩ := exists_right_of_forall₂ hall hselected
      rw [hunit] at hunit'
      cases hunit'
      exact ⟨family, hfound, hmem⟩
    · rintro ⟨family, hfamily, hmem⟩
      obtain ⟨selected, hselected, hunit⟩ := exists_left_of_forall₂ hall hfamily
      exact ⟨selected, hselected, family, hunit, hmem⟩
  · rw [if_neg hfamily] at htargets
    simp only [ReviewCall.Targets, if_neg hfamily]
    cases htargets
    rfl

theorem resolved_applyCodes {input : ApplyCodesInput} {c : CodesApply}
    (hread : readApplyCodes h db input now = .ok c) :
    (ReviewCall.applyCodes input).Resolved h db now (PendingReview.codes c).guarding := by
  have hchecked := (checked_of_read hread).targets
  have htargets := mem_targets_of_read hread
  unfold readApplyCodes at hread
  obtain ⟨_, hread⟩ := check_eq_ok.mp hread
  obtain ⟨_, hread⟩ := check_eq_ok.mp hread
  obtain ⟨actor, hactor, hread⟩ := bind_eq_ok.mp hread
  obtain ⟨_, _, hread⟩ := bind_eq_ok.mp hread
  obtain ⟨_, _, hread⟩ := bind_eq_ok.mp hread
  obtain ⟨_, _, hread⟩ := bind_eq_ok.mp hread
  obtain ⟨_, _, hread⟩ := bind_eq_ok.mp hread
  obtain ⟨_, _, hread⟩ := ite_bind_eq_ok.mp hread
  cases hread
  obtain ⟨rfl, henabled⟩ := resolveActorForMutate_eq_ok hactor
  simp only [PendingReview.guarding]
  exact ⟨by simp only [ReviewCall.actor], henabled, rfl, rfl, rfl, hchecked.1, hchecked.2, htargets⟩

theorem mem_singleton_target {itemId target : String} : target = itemId ↔ itemId ∈ [target] :=
  eq_comm.trans List.mem_singleton.symm

theorem resolved_upsertNote {input : UpsertNoteInput} {newId : String} {n : NoteUpsert}
    (hread : readUpsertNote h db input newId now = .ok n) :
    (ReviewCall.upsertNote input newId).Resolved h db now n.pending.guarding := by
  obtain ⟨actor, hactor, hread⟩ := bind_eq_ok.mp hread
  obtain ⟨rfl, henabled⟩ := resolveActorForMutate_eq_ok hactor
  obtain ⟨_, _, hread⟩ := bind_eq_ok.mp hread
  cases hid : input.id with
  | some noteId =>
    simp only [hid] at hread
    obtain ⟨u, hu, hread⟩ := bind_eq_ok.mp hread
    cases hread
    obtain ⟨existing, hexisting, hu⟩ := bind_eq_ok.mp hu
    obtain ⟨_, hu⟩ := check_eq_ok.mp hu
    obtain ⟨_, hu⟩ := check_eq_ok.mp hu
    cases hu
    simp only [NoteUpsert.pending, PendingReview.guarding]
    refine ⟨by simp only [ReviewCall.actor], henabled, rfl, rfl, rfl, nodup_singleton _,
      cons_ne_nil _ _, fun itemId => ?_⟩
    simp only [ReviewCall.Targets, hid]
    rw [getNote_eq_ok.mp hexisting]
    simp only [mem_some_iff, exists_eq_left']
    exact mem_singleton_target
  | none =>
    simp only [hid] at hread
    obtain ⟨c, hc, hread⟩ := bind_eq_ok.mp hread
    cases hread
    obtain ⟨_, _, hc⟩ := bind_eq_ok.mp hc
    obtain ⟨_, _, hc⟩ := bind_eq_ok.mp hc
    cases hc
    simp only [NoteUpsert.pending, PendingReview.guarding]
    refine ⟨by simp only [ReviewCall.actor], henabled, rfl, rfl, rfl, nodup_singleton _,
      cons_ne_nil _ _, fun itemId => ?_⟩
    simp only [ReviewCall.Targets, hid]
    exact mem_singleton_target

theorem resolved_deleteNote {noteId actor : String} {expected : Option Int} {d : NoteDelete}
    (hread : readDeleteNote h db noteId actor expected now = .ok d) :
    (ReviewCall.deleteNote noteId actor expected).Resolved h db now (PendingReview.noteDelete d).guarding := by
  obtain ⟨resolved, hactor, hread⟩ := bind_eq_ok.mp hread
  obtain ⟨rfl, henabled⟩ := resolveActorForMutate_eq_ok hactor
  obtain ⟨existing, hexisting, hread⟩ := bind_eq_ok.mp hread
  obtain ⟨_, hread⟩ := check_eq_ok.mp hread
  cases hread
  simp only [PendingReview.guarding]
  refine ⟨by simp only [ReviewCall.actor], henabled, rfl, rfl, rfl, nodup_singleton _,
    cons_ne_nil _ _, fun itemId => ?_⟩
  simp only [ReviewCall.Targets]
  rw [getNote_eq_ok.mp hexisting]
  simp only [mem_some_iff, exists_eq_left']
  exact mem_singleton_target

theorem resolved_upsertPrivilege {input : UpsertItemPrivilegeInput} {u : PrivilegeUpsert}
    (hread : readUpsertItemPrivilege h db input now = .ok u) :
    (ReviewCall.upsertPrivilege input).Resolved h db now (PendingReview.privilege u).guarding := by
  obtain ⟨_, _, hread⟩ := bind_eq_ok.mp hread
  obtain ⟨_, _, hread⟩ := bind_eq_ok.mp hread
  obtain ⟨_, _, hread⟩ := bind_eq_ok.mp hread
  obtain ⟨resolved, hactor, hread⟩ := bind_eq_ok.mp hread
  obtain ⟨rfl, henabled⟩ := resolveActorForMutate_eq_ok hactor
  cases hread
  simp only [PendingReview.guarding]
  exact ⟨by simp only [ReviewCall.actor], henabled, rfl, rfl, rfl, nodup_singleton _,
    cons_ne_nil _ _, fun itemId => mem_singleton_target⟩

theorem ReviewCall.resolved_of_read {call : ReviewCall} {p : PendingReview}
    (hread : call.read h db now = .ok p) :
    call.Resolved h db now p.guarding := by
  cases call with
  | applyCodes input =>
    obtain ⟨c, hc, rfl⟩ := map_eq_ok.mp hread
    exact resolved_applyCodes hc
  | upsertNote input newId =>
    obtain ⟨n, hn, rfl⟩ := map_eq_ok.mp hread
    exact resolved_upsertNote hn
  | deleteNote noteId actor expected =>
    obtain ⟨d, hd, rfl⟩ := map_eq_ok.mp hread
    exact resolved_deleteNote hd
  | upsertPrivilege input =>
    obtain ⟨u, hu, rfl⟩ := map_eq_ok.mp hread
    exact resolved_upsertPrivilege hu

end Reads

theorem ReviewCall.run_eq_ok {h : ReviewHandle} {db db' : ReviewDb} {now : String} {call : ReviewCall} :
    call.run h db now = .ok db' ↔ ∃ p, call.read h db now = .ok p ∧ p.txn h.matterId db = .ok db' := by
  cases call with
  | applyCodes input =>
    simp only [run, read, MatterCore.applyCodes, map_eq_ok, bind_eq_ok]
    constructor
    · rintro ⟨r, ⟨c, hc, htxn⟩, rfl⟩
      exact ⟨_, ⟨c, hc, rfl⟩, map_eq_ok.mpr ⟨r, htxn, rfl⟩⟩
    · rintro ⟨_, ⟨c, hc, rfl⟩, htxn⟩
      obtain ⟨r, hr, rfl⟩ := map_eq_ok.mp htxn
      exact ⟨r, ⟨c, hc, hr⟩, rfl⟩
  | upsertNote input newId =>
    simp only [run, read, MatterCore.upsertNote, map_eq_ok, bind_eq_ok]
    constructor
    · rintro ⟨n, hn, htxn⟩
      refine ⟨_, ⟨n, hn, rfl⟩, ?_⟩
      cases n <;> exact htxn
    · rintro ⟨_, ⟨n, hn, rfl⟩, htxn⟩
      refine ⟨n, hn, ?_⟩
      cases n <;> exact htxn
  | deleteNote noteId actor expected =>
    simp only [run, read, deleteNoteWithVersion, map_eq_ok, bind_eq_ok]
    constructor
    · rintro ⟨d, hd, htxn⟩
      exact ⟨_, ⟨d, hd, rfl⟩, htxn⟩
    · rintro ⟨_, ⟨d, hd, rfl⟩, htxn⟩
      exact ⟨d, hd, htxn⟩
  | upsertPrivilege input =>
    simp only [run, read, upsertItemPrivilege, map_eq_ok, bind_eq_ok]
    constructor
    · rintro ⟨u, hu, htxn⟩
      exact ⟨_, ⟨u, hu, rfl⟩, htxn⟩
    · rintro ⟨_, ⟨u, hu, rfl⟩, htxn⟩
      exact ⟨u, hu, htxn⟩

theorem PendingReview.prepare_of_txn {p : PendingReview} {matter : String} {db db' : ReviewDb}
    (h : p.txn matter db = .ok db') : ∃ result, p.guarding.prepare db = .ok result := by
  cases p with
  | codes c =>
    obtain ⟨r, hr, _⟩ := map_eq_ok.mp h
    obtain ⟨result, hprepare, _⟩ := bind_eq_ok.mp hr
    exact ⟨result, hprepare⟩
  | noteUpdate _ | noteCreate _ =>
    obtain ⟨result, hprepare, _⟩ := bind_eq_ok.mp h
    exact ⟨result, hprepare⟩
  | noteDelete _ | privilege _ =>
    obtain ⟨result, hprepare, _⟩ := bind_eq_ok.mp h
    exact ⟨result, hprepare⟩

end MatterCore
