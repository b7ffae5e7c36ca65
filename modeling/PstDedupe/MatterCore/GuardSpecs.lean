import PstDedupe.MatterCore.MultiUser

/-!
# What the guards of review establish

A guard that passes has found every item with the version it was to have, without a lock of another
user and inside the checkouts of its user.
-/

namespace MatterCore

open Rust Foundations List Option

def MatterDb.raiseVersions (m : MatterDb) (itemIds : List String) : MatterDb :=
  { m with items := m.items.map fun item =>
      if item.id ∈ itemIds then { item with reviewVersion := item.reviewVersion + 1 } else item }

def ReviewDb.guarded (db : ReviewDb) (itemIds : List String) (locks : List ItemLock) : ReviewDb :=
  { db with toMatterDb := db.toMatterDb.raiseVersions itemIds, itemLocks := locks }

def ReviewDb.LockedByOther (db : ReviewDb) (userId now itemId : String) : Prop :=
  ∃ lock ∈ rowAt ItemLock.itemId db.itemLocks itemId, ¬ lock.expiresAt ≤ now ∧ lock.userId ≠ userId

def ReviewDb.OutsideCheckouts (db : ReviewDb) (userId itemId : String) : Prop :=
  (∃ checkout ∈ db.batchCheckouts, checkout.userId = userId ∧ checkout.checkedInAt = none)
    ∧ ∀ checkout ∈ db.batchCheckouts, checkout.userId = userId → checkout.checkedInAt = none →
      ∀ row ∈ db.reviewBatchItems, row.batchId = checkout.batchId → row.itemId ≠ itemId

section

variable {m : MatterDb} {ids : List String} {k : String}

theorem raiseVersions_nil (m : MatterDb) : m.raiseVersions [] = m := by
  unfold MatterDb.raiseVersions
  simp

theorem raiseVersions_cons {itemId : String} {rest : List String} (h : itemId ∉ rest) :
    (m.setItem itemId fun item => { item with reviewVersion := item.reviewVersion + 1 }).raiseVersions rest
      = m.raiseVersions (itemId :: rest) := by
  unfold MatterDb.raiseVersions MatterDb.setItem
  rw [MatterDb.mk.injEq]
  refine ⟨?_, rfl, rfl, rfl⟩
  rw [List.map_map]
  refine map_congr_left fun item _ => ?_
  simp only [Function.comp_apply, mem_cons]
  by_cases hid : item.id = itemId
  · simp [hid, h]
  · simp [hid]

theorem rowAt_raiseVersions (m : MatterDb) (ids : List String) (k : String) :
    rowAt Item.id (m.raiseVersions ids).items k = (rowAt Item.id m.items k).map fun item =>
      if item.id ∈ ids then { item with reviewVersion := item.reviewVersion + 1 } else item := by
  refine rowAt_map (fun item => ?_) m.items k
  split <;> rfl

theorem version_raiseVersions (m : MatterDb) (ids : List String) (k : String) :
    (rowAt Item.id (m.raiseVersions ids).items k).map Item.reviewVersion
      = (rowAt Item.id m.items k).map fun item => item.reviewVersion + if k ∈ ids then 1 else 0 := by
  rw [rowAt_raiseVersions]
  cases h : rowAt Item.id m.items k with
  | none => rfl
  | some item =>
    have hid : item.id = k := key_of_rowAt h
    by_cases hk : k ∈ ids <;> simp [hid, hk]

end

namespace ReviewDb

variable {db db' : ReviewDb} {itemId actor now : String} {expected : Option Int}
  {requireExpected enforce : Bool}

theorem bumpReviewVersion_eq_ok {version : Int}
    (h : db.bumpReviewVersion itemId expected requireExpected = .ok (version, db')) :
    (requireExpected → expected.isSome)
      ∧ (∃ item, rowAt Item.id db.items itemId = some item ∧
        (∀ e ∈ expected, e = item.reviewVersion) ∧ version = item.reviewVersion + 1)
      ∧ db' = db.onMatter fun m => m.setItem itemId fun item =>
        { item with reviewVersion := item.reviewVersion + 1 } := by
  unfold bumpReviewVersion at h
  split at h
  · cases h
  · rename_i hrequired
    have hsome : requireExpected → expected.isSome := by
      intro hr
      rw [isSome_iff_ne_none]
      exact fun hnone => hrequired ⟨hr, hnone⟩
    unfold getReviewVersion at h
    cases hrow : rowAt Item.id db.items itemId with
    | none =>
      simp only [hrow] at h
      cases h
    | some item =>
      simp only [hrow] at h
      cases hexpected : expected.filter (· ≠ item.reviewVersion) with
      | some e =>
        rw [hexpected] at h
        cases h
      | none =>
        rw [hexpected] at h
        cases h
        refine ⟨hsome, ⟨item, rfl, fun e he => ?_, rfl⟩, rfl⟩
        have hkeep := (Option.filter_eq_none_iff.mp hexpected) e he
        simpa using hkeep

theorem not_outsideCheckouts (h : db.assertBatchMutateAllowed itemId actor = .ok ()) :
    ¬ db.OutsideCheckouts actor itemId := by
  rintro ⟨⟨checkout, hmem, huser, hactive⟩, hnone⟩
  unfold assertBatchMutateAllowed at h
  simp only at h
  split at h
  · rename_i hempty
    have hin : checkout ∈ db.batchCheckouts.filter fun checkout =>
        checkout.userId = actor ∧ checkout.checkedInAt = none :=
      List.mem_filter.mpr ⟨hmem, decide_eq_true ⟨huser, hactive⟩⟩
    rw [hempty] at hin
    cases hin
  · split at h
    · rename_i hsome
      obtain ⟨other, hother, row, hrow, hbatch, hitem⟩ := hsome
      obtain ⟨hotherMem, hkept⟩ := List.mem_filter.mp hother
      have hboth := of_decide_eq_true hkept
      exact hnone other hotherMem hboth.1 hboth.2 row hrow hbatch hitem
    · cases h

theorem assertBatchMutateAllowed_eq_ok {db₁ : ReviewDb}
    (hc : db₁.batchCheckouts = db.batchCheckouts) (hi : db₁.reviewBatchItems = db.reviewBatchItems)
    (h : (match db₁.assertBatchMutateAllowed itemId actor with | .ok () => .ok db₁ | .error e => .error e)
      = (.ok db' : Except CallError ReviewDb)) : db' = db₁ ∧ ¬ db.OutsideCheckouts actor itemId := by
  have hsame : db₁.assertBatchMutateAllowed itemId actor = db.assertBatchMutateAllowed itemId actor := by
    unfold assertBatchMutateAllowed
    rw [hc, hi]
  rw [hsame] at h
  cases hok : db.assertBatchMutateAllowed itemId actor with
  | error e =>
    rw [hok] at h
    cases h
  | ok u =>
    rw [hok] at h
    exact ⟨(Except.ok.inj h).symm, not_outsideCheckouts hok⟩

theorem assertCanMutate_eq_ok (h : db.assertCanMutate itemId actor now enforce = .ok db') :
    (db' = db ∨ db' = db.deleteLock itemId)
      ∧ (enforce → ¬ db.LockedByOther actor now itemId ∧ ¬ db.OutsideCheckouts actor itemId) := by
  unfold assertCanMutate at h
  by_cases henforce : enforce
  · rw [if_pos henforce] at h
    unfold activeLock at h
    cases hrow : rowAt ItemLock.itemId db.itemLocks itemId with
    | none =>
      simp only [hrow] at h
      obtain ⟨rfl, hinside⟩ := assertBatchMutateAllowed_eq_ok rfl rfl h
      refine ⟨.inl rfl, fun _ => ⟨?_, hinside⟩⟩
      rintro ⟨lock, hlock, _⟩
      rw [hrow] at hlock
      cases hlock
    | some lock =>
      simp only [hrow] at h
      by_cases hexpired : lock.expiresAt ≤ now
      · simp only [if_pos hexpired] at h
        obtain ⟨hdb, hinside⟩ := assertBatchMutateAllowed_eq_ok rfl rfl h
        refine ⟨.inr hdb, fun _ => ⟨?_, hinside⟩⟩
        rintro ⟨other, hother, hlive, _⟩
        rw [hrow] at hother
        cases hother
        exact hlive hexpired
      · simp only [if_neg hexpired] at h
        split at h
        · cases h
        · rename_i hown
          obtain ⟨rfl, hinside⟩ := assertBatchMutateAllowed_eq_ok rfl rfl h
          refine ⟨.inl rfl, fun _ => ⟨?_, hinside⟩⟩
          rintro ⟨other, hother, _, huser⟩
          rw [hrow] at hother
          cases hother
          exact hown huser
  · rw [if_neg henforce] at h
    cases h
    exact ⟨.inl rfl, fun hyes => absurd hyes henforce⟩

variable {ids : List String} {versions : List Int}

theorem lockedByOther_deleteLock {other : String} (hne : other ≠ itemId) :
    (db.deleteLock itemId).LockedByOther actor now other ↔ db.LockedByOther actor now other := by
  have hrow : rowAt ItemLock.itemId (db.deleteLock itemId).itemLocks other
      = rowAt ItemLock.itemId db.itemLocks other := by
    unfold deleteLock rowAt
    rw [find?_filter]
    congr 1
    funext lock
    by_cases h : lock.itemId = other
    · simp [h, hne]
    · simp [h]
  unfold LockedByOther
  rw [hrow]

structure Prepared (db : ReviewDb) (ids : List String) (actor now : String) (expected : Option Int)
    (enforce : Bool) (versions : List Int) (db' : ReviewDb) : Prop where
  written : ∃ locks, db' = db.guarded ids locks
  found : ∀ i ∈ ids, ∃ item, rowAt Item.id db.items i = some item ∧ ∀ e ∈ expected, e = item.reviewVersion
  free : enforce → ∀ i ∈ ids, ¬ db.LockedByOther actor now i ∧ ¬ db.OutsideCheckouts actor i
  versions_eq : versions = ids.map fun i => ((rowAt Item.id db.items i).map Item.reviewVersion).getD 0 + 1

theorem Prepared.nil (db : ReviewDb) : Prepared db [] actor now expected enforce [] db where
  written := by
    refine ⟨db.itemLocks, ?_⟩
    unfold ReviewDb.guarded
    rw [raiseVersions_nil]
  found := nofun
  free := nofun
  versions_eq := rfl

theorem Prepared.cons {rest : List String} {db₁ : ReviewDb} {version : Int} (hfresh : itemId ∉ rest)
    (hassert : db₁ = db ∨ db₁ = db.deleteLock itemId)
    (hfree : enforce → ¬ db.LockedByOther actor now itemId ∧ ¬ db.OutsideCheckouts actor itemId)
    {item : Item} (hitem : rowAt Item.id db.items itemId = some item)
    (hexpected : ∀ e ∈ expected, e = item.reviewVersion)
    (hversion : version = item.reviewVersion + 1)
    (h : Prepared (db₁.onMatter fun m => m.setItem itemId
      fun item => { item with reviewVersion := item.reviewVersion + 1 })
      rest actor now expected enforce versions db') :
    Prepared db (itemId :: rest) actor now expected enforce (version :: versions) db' := by
  have hm : db₁.toMatterDb = db.toMatterDb := by rcases hassert with rfl | rfl <;> rfl
  -- the items that follow are as they were
  have hother : ∀ i ∈ rest, rowAt Item.id
      (db.toMatterDb.setItem itemId fun item => { item with reviewVersion := item.reviewVersion + 1 }).items i
        = rowAt Item.id db.items i := by
    intro i hi
    have hne : i ≠ itemId := fun heq => hfresh (heq ▸ hi)
    unfold MatterDb.setItem
    rw [rowAt_map (fun item => by split <;> rfl)]
    cases hrow : rowAt Item.id db.items i with
    | none => rfl
    | some other =>
      have hid : other.id ≠ itemId := by
        rw [key_of_rowAt hrow]
        exact hne
      rw [map_some, if_neg hid]
  refine ⟨?written, ?found, ?free, ?versions⟩
  case written =>
    obtain ⟨locks, hdb⟩ := h.written
    refine ⟨locks, hdb.trans ?_⟩
    have hraise := raiseVersions_cons (m := db.toMatterDb) hfresh
    unfold ReviewDb.guarded ReviewDb.onMatter
    rw [show db₁.toMatterDb = db.toMatterDb from hm]
    simp only [hraise]
    rcases hassert with rfl | rfl <;> rfl
  case found =>
    intro i hi
    rcases List.mem_cons.mp hi with rfl | hrest
    · exact ⟨item, hitem, hexpected⟩
    · obtain ⟨found, hfound, he⟩ := h.found i hrest
      unfold ReviewDb.onMatter at hfound
      simp only [hm] at hfound
      rw [hother i hrest] at hfound
      exact ⟨found, hfound, he⟩
  case free =>
    intro henforce i hi
    rcases List.mem_cons.mp hi with rfl | hrest
    · exact hfree henforce
    · have hne : i ≠ itemId := fun heq => hfresh (heq ▸ hrest)
      obtain ⟨hunlocked, hinside⟩ := h.free henforce i hrest
      rcases hassert with rfl | rfl
      · exact ⟨hunlocked, hinside⟩
      · exact ⟨fun hl => hunlocked ((lockedByOther_deleteLock hne).mpr hl), hinside⟩
  case versions =>
    rw [h.versions_eq, hversion, map_cons, hitem]
    congr 1
    refine map_congr_left fun i hi => ?_
    unfold ReviewDb.onMatter
    simp only [hm]
    rw [hother i hi]

theorem prepareReviewMutates_eq_ok (hnodup : ids.Nodup)
    (h : db.prepareReviewMutates actor expected enforce requireExpected now ids = .ok (versions, db')) :
    Prepared db ids actor now expected enforce versions db' ∧
      (ids ≠ [] → requireExpected → expected.isSome) := by
  induction ids generalizing db versions with
  | nil =>
    cases h
    exact ⟨.nil _, fun hne => absurd rfl hne⟩
  | cons itemId rest ih =>
    rw [nodup_cons] at hnodup
    unfold prepareReviewMutates at h
    obtain ⟨db₁, hassert, h⟩ := bind_eq_ok.mp h
    obtain ⟨⟨version, db₂⟩, hbump, h⟩ := bind_eq_ok.mp h
    obtain ⟨⟨versions', db₃⟩, hrest, h⟩ := bind_eq_ok.mp h
    cases h
    obtain ⟨hwrites, hfree⟩ := assertCanMutate_eq_ok hassert
    obtain ⟨hsome, ⟨item, hitem, hexpected, hversion⟩, rfl⟩ := bumpReviewVersion_eq_ok hbump
    have hm : db₁.toMatterDb = db.toMatterDb := by rcases hwrites with rfl | rfl <;> rfl
    rw [hm] at hitem
    exact ⟨.cons hnodup.1 hwrites hfree hitem hexpected hversion (ih hnodup.2 hrest).1, fun _ => hsome⟩

theorem bumpAll_eq_ok (hnodup : ids.Nodup) (h : db.bumpAll expected ids = .ok (versions, db')) :
    Prepared db ids actor now expected false versions db' := by
  induction ids generalizing db versions with
  | nil =>
    cases h
    exact .nil _
  | cons itemId rest ih =>
    rw [nodup_cons] at hnodup
    unfold bumpAll at h
    obtain ⟨⟨version, db₂⟩, hbump, h⟩ := bind_eq_ok.mp h
    obtain ⟨⟨versions', db₃⟩, hrest, h⟩ := bind_eq_ok.mp h
    cases h
    obtain ⟨_, ⟨item, hitem, hexpected, hversion⟩, rfl⟩ := bumpReviewVersion_eq_ok hbump
    exact .cons hnodup.1 (.inl rfl) nofun hitem hexpected hversion (ih hnodup.2 hrest)

end ReviewDb

theorem ReviewHandle.Guards.prepare_eq_ok {g : ReviewHandle.Guards} {db db' : ReviewDb} {ids : List String}
    {actor now : String} {expected : Option Int} {versions : List Int} (hnodup : ids.Nodup)
    (h : g.prepare db ids actor expected now = .ok (versions, db')) :
    ReviewDb.Prepared db ids actor now expected (g.active && g.enforceLocks) versions db' := by
  unfold ReviewHandle.Guards.prepare at h
  cases hactive : g.active with
  | true =>
    rw [hactive] at h
    exact (ReviewDb.prepareReviewMutates_eq_ok hnodup h).1
  | false =>
    rw [hactive] at h
    exact ReviewDb.bumpAll_eq_ok hnodup h

end MatterCore
