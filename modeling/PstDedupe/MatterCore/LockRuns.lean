import PstDedupe.Foundations.GuardedRuns
import PstDedupe.MatterCore.Locks

/-!
# Who holds locks and checkouts over runs

An item has one lock and a batch one active checkout after any calls.
-/

namespace MatterCore

open Rust Foundations List Prod

/-- A call with the clock readings it makes. Users and items do not change, so it is as one step
with its transaction. -/
inductive LockCall where
  | lockItem (itemId userId : String) (reason : Option String) (ttlHours : Option Int) (now later : CivilTime)
  | unlockItem (itemId userId : String) (now : CivilTime)
  | forceUnlock (itemId adminUserId : String) (now : CivilTime)
  | createBatch (name : String) (itemIds : List String) (createdBy : String)
      (filterJson : Option String) (newId : String) (now : CivilTime)
  | checkoutBatch (batchId userId : String) (now : CivilTime)
  | checkinBatch (batchId userId : String) (now : CivilTime)
  | logout (userId : String) (now : CivilTime)

namespace LockCall

def now : LockCall → CivilTime
  | lockItem _ _ _ _ now _ | unlockItem _ _ now | forceUnlock _ _ now | createBatch _ _ _ _ _ now
  | checkoutBatch _ _ now | checkinBatch _ _ now | logout _ now => now

def step (h : ReviewHandle) (plusHours : CivilTime → Int → Option CivilTime) (db : ReviewDb) :
    LockCall → ReviewDb
  | lockItem itemId userId reason ttlHours now later =>
    match lockExpiry plusHours later ttlHours with
    | some expires => committed db (MatterCore.lockItem h db itemId userId reason now expires)
    | none => db
  | unlockItem itemId userId now => committed db (MatterCore.unlockItem db itemId userId now)
  | forceUnlock itemId adminUserId now => committed db (MatterCore.forceUnlock db itemId adminUserId now)
  | createBatch name itemIds createdBy filterJson newId now =>
    committed db (MatterCore.createBatch h db name itemIds createdBy filterJson newId now)
  | checkoutBatch batchId userId now => committed db (MatterCore.checkoutBatch db batchId userId now)
  | checkinBatch batchId userId now => committed db (MatterCore.checkinBatch db batchId userId now)
  | logout userId now => logoutUserReleaseLocks db userId now

def Releases (db : ReviewDb) (lock : ItemLock) : LockCall → Prop
  | unlockItem itemId userId _ => itemId = lock.itemId ∧ userId = lock.userId
  | forceUnlock itemId adminUserId _ =>
    itemId = lock.itemId ∧ ∃ admin ∈ db.loadUser adminUserId, admin.role = .admin ∧ admin.disabledAt = none
  | logout userId _ => userId = lock.userId
  | _ => False

/-- The call leaves the lock with its user, takes it off by right, or comes after its time. -/
def Keeps (h : ReviewHandle) (plusHours : CivilTime → Int → Option CivilTime) (db : ReviewDb)
    (call : LockCall) : Prop :=
  ∀ lock ∈ db.itemLocks,
    (∃ row ∈ (step h plusHours db call).itemLocks, row.itemId = lock.itemId ∧
      row.userId = lock.userId) ∨ call.Releases db lock
      ∨ ∃ expires : CivilTime, expires.rfc3339 = lock.expiresAt ∧ expires ≤ call.now

/-- A lock that the call takes expires in a year of four digits. -/
def InTime (plusHours : CivilTime → Int → Option CivilTime) : LockCall → Prop
  | lockItem _ _ _ ttlHours _ later =>
  ∀ expires, lockExpiry plusHours later ttlHours = some expires → expires.FourDigits
  | _ => True

end LockCall

def activeBatches (rows : List BatchCheckout) : List String :=
  (rows.filter (·.checkedInAt = none)).map BatchCheckout.batchId

namespace ReviewDb

/-- One lock an item and one active checkout a batch. -/
structure Exclusive (db : ReviewDb) : Prop where
  locks : (db.itemLocks.map ItemLock.itemId).Nodup
  checkouts : (activeBatches db.batchCheckouts).Nodup

def Timed (db : ReviewDb) : Prop :=
  ∀ lock ∈ db.itemLocks, ∃ expires : CivilTime, expires.FourDigits ∧ expires.rfc3339 = lock.expiresAt

/-- What the lock calls preserve. -/
structure LocksHeld (db : ReviewDb) : Prop where
  exclusive : db.Exclusive
  keyed : (db.batchCheckouts.map fun row => (row.batchId, row.userId)).Nodup
  timed : db.Timed

end ReviewDb

variable {h : ReviewHandle} {plusHours : CivilTime → Int → Option CivilTime} {db db' : ReviewDb}

/-! ## Locks -/

theorem expired_of_timed (htimed : db.Timed) {lock : ItemLock} (hlock : lock ∈ db.itemLocks)
    {now : CivilTime} (hexpired : lock.expiresAt ≤ now.rfc3339) :
    ∃ expires : CivilTime, expires.rfc3339 = lock.expiresAt ∧ expires ≤ now := by
  obtain ⟨expires, hyears, htext⟩ := htimed lock hlock
  rw [← htext] at hexpired
  exact ⟨expires, htext, CivilTime.le_of_rfc3339_le hyears hexpired⟩

theorem mem_deleteLock {itemId : String} {lock : ItemLock} :
    lock ∈ (db.deleteLock itemId).itemLocks ↔ lock ∈ db.itemLocks ∧ lock.itemId ≠ itemId := by
  show lock ∈ db.itemLocks.filter _ ↔ _
  rw [mem_filter, decide_eq_true_eq]

theorem nodup_deleteLock {itemId : String} (hkeyed : (db.itemLocks.map ItemLock.itemId).Nodup) :
    ((db.deleteLock itemId).itemLocks.map ItemLock.itemId).Nodup :=
  hkeyed.sublist (List.filter_sublist.map _)

theorem activeLock_cases (db : ReviewDb) (itemId now : String) :
    (∃ lock ∈ db.itemLocks, lock.itemId = itemId ∧ ¬ lock.expiresAt ≤ now ∧
      db.activeLock itemId now = (some lock, db))
      ∨ (∃ lock ∈ db.itemLocks, lock.itemId = itemId ∧ lock.expiresAt ≤ now
        ∧ db.activeLock itemId now = (none, db.deleteLock itemId))
      ∨ (∀ lock ∈ db.itemLocks, lock.itemId ≠ itemId) ∧ db.activeLock itemId now = (none, db) := by
  unfold ReviewDb.activeLock
  cases hrow : rowAt ItemLock.itemId db.itemLocks itemId with
  | none =>
    refine .inr (.inr ⟨fun lock hlock hitem => ?_, rfl⟩)
    exact rowAt_eq_none.mp hrow (List.mem_map.mpr ⟨lock, hlock, hitem⟩)
  | some lock =>
    by_cases hexpired : lock.expiresAt ≤ now
    · exact .inr (.inl ⟨lock, mem_of_rowAt hrow, key_of_rowAt hrow, hexpired, if_pos hexpired⟩)
    · exact .inl ⟨lock, mem_of_rowAt hrow, key_of_rowAt hrow, hexpired, if_neg hexpired⟩

theorem mem_putLock {lock row : ItemLock} (h : row ∈ db.itemLocks)
    (hother : row.itemId ≠ lock.itemId) : row ∈ (db.putLock lock).itemLocks := by
  unfold ReviewDb.putLock
  split
  · exact List.mem_map.mpr ⟨row, h, if_neg hother⟩
  · exact mem_append_left _ h

theorem self_mem_putLock (lock : ItemLock) : lock ∈ (db.putLock lock).itemLocks := by
  unfold ReviewDb.putLock
  split
  · rename_i hthere
    obtain ⟨row, hrow, hitem⟩ := List.mem_map.mp hthere
    exact List.mem_map.mpr ⟨row, hrow, if_pos hitem⟩
  · exact mem_append_right _ (mem_singleton_self lock)

theorem of_mem_putLock {lock row : ItemLock} (h : row ∈ (db.putLock lock).itemLocks) :
    row = lock ∨ row ∈ db.itemLocks ∧ row.itemId ≠ lock.itemId := by
  unfold ReviewDb.putLock at h
  split at h
  · obtain ⟨old, hold, rfl⟩ := List.mem_map.mp h
    split
    · exact .inl rfl
    · rename_i hother
      exact .inr ⟨hold, hother⟩
  · rename_i hnew
    rcases List.mem_append.mp h with hold | hlast
    · exact .inr ⟨hold, fun hitem => hnew (List.mem_map.mpr ⟨row, hold, hitem⟩)⟩
    · exact .inl (List.mem_singleton.mp hlast)

theorem nodup_putLock {lock : ItemLock} (hkeyed : (db.itemLocks.map ItemLock.itemId).Nodup) :
    ((db.putLock lock).itemLocks.map ItemLock.itemId).Nodup := by
  unfold ReviewDb.putLock
  split
  · have hkeys : ∀ row : ItemLock, (if row.itemId = lock.itemId then lock else row).itemId = row.itemId := by
      intro row
      split
      · rename_i hitem
        exact hitem.symm
      · rfl
    rw [map_key_map hkeys]
    exact hkeyed
  · rename_i hnew
    rw [map_append]
    exact hkeyed.append (nodup_singleton _) (List.disjoint_singleton.mpr hnew)

theorem deleteLock_deleteLock (itemId : String) :
    (db.deleteLock itemId).deleteLock itemId = db.deleteLock itemId := by
  unfold ReviewDb.deleteLock
  simp only [filter_filter, Bool.and_self]

def OwnOrExpired (db : ReviewDb) (itemId userId : String) (now : CivilTime) : Prop :=
  ∀ lock ∈ db.itemLocks, lock.itemId = itemId → lock.userId = userId ∨ lock.expiresAt ≤ now.rfc3339

theorem ownOrExpired_of_activeLock (hkeyed : (db.itemLocks.map ItemLock.itemId).Nodup) {itemId userId : String}
    {now : CivilTime} (hown : ∀ lock db₁, db.activeLock itemId now.rfc3339 = (some lock, db₁) →
      lock.userId = userId) :
    OwnOrExpired db itemId userId now := by
  intro lock hlock hitem
  rcases activeLock_cases db itemId now.rfc3339 with ⟨found, hfound, hkey, _, hactive⟩
    | ⟨found, hfound, hkey, hexpired, _⟩ | ⟨hnone, _⟩
  · rw [inj_on_of_nodup_map hkeyed hlock hfound (hitem.trans hkey.symm)]
    exact .inl (hown found db hactive)
  · rw [inj_on_of_nodup_map hkeyed hlock hfound (hitem.trans hkey.symm)]
    exact .inr hexpired
  · exact absurd hitem (hnone lock hlock)

theorem activeLock_snd (db : ReviewDb) (itemId now : String) :
    (db.activeLock itemId now).2 = db ∨ (db.activeLock itemId now).2 = db.deleteLock itemId := by
  rcases activeLock_cases db itemId now with ⟨_, _, _, _, hactive⟩ | ⟨_, _, _, _, hactive⟩ | ⟨_, hactive⟩
  · exact .inl (congrArg snd hactive)
  · exact .inr (congrArg snd hactive)
  · exact .inl (congrArg snd hactive)

theorem lockItem_eq_ok (hkeyed : (db.itemLocks.map ItemLock.itemId).Nodup) {itemId userId : String}
    {reason : Option String} {now expires : CivilTime}
    (hok : lockItem h db itemId userId reason now expires = .ok db') :
    OwnOrExpired db itemId userId now ∧ db'.batchCheckouts = db.batchCheckouts
      ∧ ∃ db₁, (db₁ = db ∨ db₁ = db.deleteLock itemId)
        ∧ db'.itemLocks = (db₁.putLock ⟨itemId, userId, now.rfc3339, expires.rfc3339, reason⟩).itemLocks := by
  obtain ⟨_, _, hok⟩ := bind_eq_ok.mp hok
  split at hok
  · cases hok
  obtain ⟨_, hok⟩ := check_eq_ok.mp hok
  have hput : ∀ (db₁ : ReviewDb) (lock : ItemLock) (now : String), db₁.batchCheckouts = db.batchCheckouts →
      ((db₁.putLock lock).appendAudit lock.userId "item.lock" s!"item:{lock.itemId}" now).batchCheckouts
        = db.batchCheckouts := by
    intro db₁ lock now hsame
    unfold ReviewDb.putLock
    split <;> exact hsame
  unfold lockItemTxn at hok
  have hsnd := activeLock_snd db itemId now.rfc3339
  cases hactive : db.activeLock itemId now.rfc3339 with
  | mk found db₁ =>
    simp only [hactive] at hok hsnd
    have hcheckouts : db₁.batchCheckouts = db.batchCheckouts := by rcases hsnd with rfl | rfl <;> rfl
    cases found with
    | some existing =>
      simp only at hok
      split at hok
      · cases hok
      · rename_i hown
        cases hok
        refine ⟨ownOrExpired_of_activeLock hkeyed fun lock db₂ hsame => ?_, hput db₁ _ _ hcheckouts,
          db₁, hsnd, rfl⟩
        rw [hactive] at hsame
        cases hsame
        exact not_not.mp hown
    | none =>
      cases hok
      refine ⟨ownOrExpired_of_activeLock hkeyed fun lock db₂ hsame => ?_, hput db₁ _ _ hcheckouts,
        db₁, hsnd, rfl⟩
      rw [hactive] at hsame
      cases hsame

theorem unlockItem_eq_ok (hkeyed : (db.itemLocks.map ItemLock.itemId).Nodup)
    {itemId userId : String} {now : CivilTime} (hok : unlockItem db itemId userId now = .ok db') :
    OwnOrExpired db itemId userId now ∧ db'.batchCheckouts = db.batchCheckouts
      ∧ db'.itemLocks = (db.deleteLock itemId).itemLocks := by
  unfold unlockItem at hok
  have hsnd := activeLock_snd db itemId now.rfc3339
  cases hactive : db.activeLock itemId now.rfc3339 with
  | mk found db₁ =>
    simp only [hactive] at hok hsnd
    have hdeleted : db₁.deleteLock itemId = db.deleteLock itemId := by
      rcases hsnd with rfl | rfl
      · rfl
      · exact deleteLock_deleteLock itemId
    cases found with
    | some existing =>
      simp only at hok
      split at hok
      · cases hok
      · rename_i hown
        cases hok
        rw [hdeleted]
        refine ⟨ownOrExpired_of_activeLock hkeyed fun lock db₂ hsame => ?_, rfl, rfl⟩
        rw [hactive] at hsame
        cases hsame
        exact not_not.mp hown
    | none =>
      cases hok
      rw [hdeleted]
      refine ⟨ownOrExpired_of_activeLock hkeyed fun lock db₂ hsame => ?_, rfl, rfl⟩
      rw [hactive] at hsame
      cases hsame

theorem forceUnlock_eq_ok {itemId adminUserId : String} {now : CivilTime}
    (hok : forceUnlock db itemId adminUserId now = .ok db') :
    (∃ admin ∈ db.loadUser adminUserId, admin.role = .admin ∧ admin.disabledAt = none)
      ∧ db'.batchCheckouts = db.batchCheckouts ∧ db'.itemLocks = (db.deleteLock itemId).itemLocks := by
  unfold forceUnlock at hok
  split at hok
  · cases hok
  rename_i admin hadmin
  obtain ⟨_, hrole, hok⟩ := bind_eq_ok.mp hok
  have hsnd := activeLock_snd db itemId now.rfc3339
  have hadministers : admin.role = .admin ∧ admin.disabledAt = none := by
    unfold requireRole at hrole
    split at hrole
    · cases hrole
    rename_i henabled
    split at hrole
    · cases hrole
    rename_i hrank
    refine ⟨?_, by simpa using henabled⟩
    cases hcase : admin.role with
    | admin => rfl
    | reviewer => rw [hcase] at hrank; exact absurd (by decide) hrank
    | readOnly => rw [hcase] at hrank; exact absurd (by decide) hrank
  cases hactive : db.activeLock itemId now.rfc3339 with
  | mk found db₁ =>
    simp only [hactive] at hok hsnd
    cases hok
    have hdeleted : db₁.deleteLock itemId = db.deleteLock itemId := by
      rcases hsnd with rfl | rfl
      · rfl
      · exact deleteLock_deleteLock itemId
    rw [hdeleted]
    exact ⟨⟨admin, hadmin, hadministers⟩, rfl, rfl⟩

/-! ## Checkouts -/

theorem activeBatches_checkIn (fits : BatchCheckout → Bool) (now : String) :
    (activeBatches (db.checkIn fits now).batchCheckouts).Sublist (activeBatches db.batchCheckouts) := by
  unfold activeBatches ReviewDb.checkIn
  induction db.batchCheckouts with
  | nil => exact Sublist.slnil
  | cons row rows ih =>
    rw [map_cons, filter_cons, filter_cons]
    by_cases hactive : row.checkedInAt = none
    · by_cases hfits : fits row
      · -- the row leaves the list
        simp only [hactive, hfits, and_self, if_true, decide_true, reduceCtorEq, decide_false,
          Bool.false_eq_true, if_false, map_cons]
        exact ih.cons _
      · simp only [hactive, hfits, Bool.false_eq_true, false_and, if_false, decide_true, if_true, map_cons]
        exact ih.cons_cons _
    · simp only [hactive, and_false, if_false, decide_false, Bool.false_eq_true]
      exact ih

theorem mem_activeBatches {rows : List BatchCheckout} {batchId : String} :
    batchId ∈ activeBatches rows ↔ ∃ row ∈ rows, row.checkedInAt = none ∧ row.batchId = batchId := by
  simp only [activeBatches, mem_map, mem_filter, decide_eq_true_eq, and_assoc]

theorem activeBatches_cons {row : BatchCheckout} {rows : List BatchCheckout} :
    activeBatches (row :: rows) = if row.checkedInAt = none then row.batchId ::
      activeBatches rows else activeBatches rows := by
  unfold activeBatches
  rw [filter_cons]
  by_cases hactive : row.checkedInAt = none <;> simp [hactive]

def reuse (batchId userId now : String) (row : BatchCheckout) : BatchCheckout :=
  if row.batchId = batchId ∧
    row.userId = userId then { row with checkedOutAt := now, checkedInAt := none } else row

theorem activeBatches_reuse {batchId userId now : String} {rows : List BatchCheckout}
    (hkeyed : (rows.map fun row => (row.batchId, row.userId)).Nodup) (hactive : (activeBatches rows).Nodup)
    (hnone : batchId ∉ activeBatches rows) : (activeBatches (rows.map (reuse batchId userId now))).Nodup
      ∧ ∀ b ∈ activeBatches (rows.map (reuse batchId userId now)), b = batchId ∨ b ∈ activeBatches rows := by
  induction rows with
  | nil => exact ⟨nodup_nil, nofun⟩
  | cons row rows ih =>
    rw [map_cons, nodup_cons] at hkeyed
    rw [activeBatches_cons] at hactive hnone
    by_cases hkey : row.batchId = batchId ∧ row.userId = userId
    · -- the other rows have other keys
      have hrest : rows.map (reuse batchId userId now) = rows := by
        refine (map_congr_left fun other hother => ?_).trans (List.map_id rows)
        refine if_neg fun hsame => hkeyed.1 (List.mem_map.mpr ⟨other, hother, ?_⟩)
        rw [hsame.1, hsame.2, hkey.1, hkey.2]
      have hfresh : batchId ∉ activeBatches rows ∧ (activeBatches rows).Nodup := by
        split at hnone
        · rename_i hrow
          rw [if_pos hrow] at hactive
          exact ⟨fun hmem => hnone (mem_cons_of_mem _ hmem), (List.nodup_cons.mp hactive).2⟩
        · rename_i hrow
          rw [if_neg hrow] at hactive
          exact ⟨hnone, hactive⟩
      have hreused : reuse batchId userId now row
          = { row with checkedOutAt := now, checkedInAt := none } := if_pos hkey
      rw [map_cons, hrest, hreused, activeBatches_cons, if_pos rfl]
      show (row.batchId :: activeBatches rows).Nodup ∧ ∀ b ∈ row.batchId :: activeBatches rows, _
      rw [hkey.1]
      refine ⟨List.nodup_cons.mpr hfresh, fun b hb => ?_⟩
      rcases List.mem_cons.mp hb with heq | hmem
      · exact .inl heq
      · right
        rw [activeBatches_cons]
        split
        · exact mem_cons_of_mem _ hmem
        · exact hmem
    · have hkept : reuse batchId userId now row = row := if_neg hkey
      rw [map_cons, hkept, activeBatches_cons, activeBatches_cons]
      by_cases hrow : row.checkedInAt = none
      · rw [if_pos hrow] at hactive hnone ⊢
        rw [if_pos hrow]
        rw [nodup_cons] at hactive
        rw [mem_cons, not_or] at hnone
        obtain ⟨hnodup, hmem⟩ := ih hkeyed.2 hactive.2 hnone.2
        refine ⟨List.nodup_cons.mpr ⟨fun hin => ?_, hnodup⟩, fun b hb => ?_⟩
        · rcases hmem _ hin with heq | hin
          · exact hnone.1 heq.symm
          · exact hactive.1 hin
        · rcases List.mem_cons.mp hb with heq | hb
          · exact .inr (List.mem_cons.mpr (.inl heq))
          · exact (hmem b hb).imp_right (mem_cons_of_mem _)
      · rw [if_neg hrow] at hactive hnone ⊢
        rw [if_neg hrow]
        exact ih hkeyed.2 hactive hnone

theorem nodup_putCheckout {batchId : String} (userId now : String)
    (hkeyed : (db.batchCheckouts.map fun row => (row.batchId, row.userId)).Nodup)
    (hactive : (activeBatches db.batchCheckouts).Nodup) (hnone : batchId ∉ activeBatches db.batchCheckouts) :
    ((db.putCheckout batchId userId now).batchCheckouts.map fun row => (row.batchId, row.userId)).Nodup
      ∧ (activeBatches (db.putCheckout batchId userId now).batchCheckouts).Nodup := by
  unfold ReviewDb.putCheckout
  split
  · have hkeys : ∀ row : BatchCheckout,
      ((reuse batchId userId now row).batchId, (reuse batchId userId now row).userId)
        = (row.batchId, row.userId) := by
      intro row
      unfold reuse
      split <;> rfl
    refine ⟨?_, (activeBatches_reuse hkeyed hactive hnone).1⟩
    show ((db.batchCheckouts.map (reuse batchId userId now)).map _).Nodup
    rw [List.map_map]
    exact (map_congr_left fun row _ => hkeys row) ▸ hkeyed
  · rename_i hnew
    constructor
    · rw [map_append]
      refine hkeyed.append (nodup_singleton _) (List.disjoint_singleton.mpr fun hmem => hnew ?_)
      obtain ⟨row, hrow, heq⟩ := List.mem_map.mp hmem
      exact ⟨row, hrow, (Prod.mk.inj heq).1, (Prod.mk.inj heq).2⟩
    · unfold activeBatches at hactive hnone ⊢
      rw [filter_append, map_append]
      exact hactive.append (nodup_singleton _) (List.disjoint_singleton.mpr hnone)

theorem checkoutBatch_eq_ok {batchId userId : String} {now : CivilTime}
    (hok : checkoutBatch db batchId userId now = .ok db') :
    db'.itemLocks = db.itemLocks ∧ (db'.batchCheckouts = db.batchCheckouts
      ∨ batchId ∉ activeBatches db.batchCheckouts
        ∧ db'.batchCheckouts = (db.putCheckout batchId userId now.rfc3339).batchCheckouts) := by
  unfold checkoutBatch at hok
  split at hok
  · cases hok
  obtain ⟨_, _, hok⟩ := bind_eq_ok.mp hok
  unfold checkoutBatchTxn at hok
  split at hok
  · cases hok
  split at hok
  · cases hok
  split at hok
  · split at hok
    · cases hok
    · cases hok
      exact ⟨rfl, .inl rfl⟩
  · rename_i hnone
    cases hok
    have hfree : batchId ∉ activeBatches db.batchCheckouts := by
      intro hmem
      obtain ⟨row, hrow, hactive, hbatch⟩ := mem_activeBatches.mp hmem
      exact List.find?_eq_none.mp hnone row hrow (decide_eq_true ⟨hbatch, hactive⟩)
    have hlocks : (db.putCheckout batchId userId now.rfc3339).itemLocks = db.itemLocks := by
      unfold ReviewDb.putCheckout
      split <;> rfl
    exact ⟨hlocks, .inr ⟨hfree, rfl⟩⟩

theorem createBatch_eq_ok {name createdBy newId : String} {itemIds : List String} {filterJson : Option String}
    {now : CivilTime} (hok : createBatch h db name itemIds createdBy filterJson newId now = .ok db') :
    db'.itemLocks = db.itemLocks ∧ db'.batchCheckouts = db.batchCheckouts := by
  unfold createBatch at hok
  obtain ⟨_, hok⟩ := check_eq_ok.mp hok
  obtain ⟨_, hok⟩ := check_eq_ok.mp hok
  obtain ⟨_, _, hok⟩ := bind_eq_ok.mp hok
  obtain ⟨_, _, hok⟩ := bind_eq_ok.mp hok
  obtain ⟨_, hok⟩ := check_eq_ok.mp hok
  cases hok
  exact ⟨rfl, rfl⟩

theorem keyed_checkIn {fits : BatchCheckout → Bool} {now : String}
    (hkeyed : (db.batchCheckouts.map fun row => (row.batchId, row.userId)).Nodup) :
    ((db.checkIn fits now).batchCheckouts.map fun row => (row.batchId, row.userId)).Nodup := by
  show ((db.batchCheckouts.map fun row => if fits row ∧ row.checkedInAt = none then
    { row with checkedInAt := some now } else row).map _).Nodup
  rw [map_key_map fun row => by split <;> rfl]
  exact hkeyed

/-! ## One call -/

namespace LockCall

open ReviewDb

theorem held_of_same (hs : db.LocksHeld) (hlocks : db'.itemLocks = db.itemLocks)
    (hcheckouts : db'.batchCheckouts = db.batchCheckouts) : db'.LocksHeld := by
  obtain ⟨⟨hl, hc⟩, hkeyed, htimed⟩ := hs
  rw [← hlocks] at hl
  rw [← hcheckouts] at hc hkeyed
  unfold Timed at htimed
  rw [← hlocks] at htimed
  exact ⟨⟨hl, hc⟩, hkeyed, htimed⟩

theorem held_of_fewer (hs : db.LocksHeld) {keep : ItemLock → Bool}
    (hlocks : db'.itemLocks = db.itemLocks.filter keep)
    (hcheckouts : db'.batchCheckouts = db.batchCheckouts) : db'.LocksHeld := by
  obtain ⟨⟨hl, hc⟩, hkeyed, htimed⟩ := hs
  rw [← hcheckouts] at hc hkeyed
  refine ⟨⟨?_, hc⟩, hkeyed, fun lock hlock => ?_⟩
  · rw [hlocks]
    exact hl.sublist (List.filter_sublist.map _)
  · rw [hlocks] at hlock
    exact htimed lock (mem_of_mem_filter hlock)

theorem keeps_of_same {call : LockCall}
    (hlocks : (step h plusHours db call).itemLocks = db.itemLocks) : call.Keeps h plusHours db := by
  intro lock hlock
  rw [hlocks]
  exact .inl ⟨lock, hlock, rfl, rfl⟩

theorem sound_of_unchanged (hs : db.LocksHeld) {call : LockCall} (hstep : step h plusHours db call = db) :
    (step h plusHours db call).LocksHeld ∧ call.Keeps h plusHours db := by
  refine ⟨?_, keeps_of_same (congrArg ReviewDb.itemLocks hstep)⟩
  rw [hstep]
  exact hs

theorem step_lockItem (hs : db.LocksHeld) {itemId userId : String} {reason : Option String}
    {ttlHours : Option Int} {now later : CivilTime}
    (hin : (lockItem itemId userId reason ttlHours now later).InTime plusHours) :
    (step h plusHours db (lockItem itemId userId reason ttlHours now later)).LocksHeld
      ∧ (lockItem itemId userId reason ttlHours now later).Keeps h plusHours db := by
  cases hexpiry : lockExpiry plusHours later ttlHours with
  | none =>
    have hstep : step h plusHours db (lockItem itemId userId reason ttlHours now later) = db := by
      simp only [step, hexpiry]
    exact sound_of_unchanged hs hstep
  | some expires =>
    cases hok : MatterCore.lockItem h db itemId userId reason now expires with
    | error e =>
      have hstep : step h plusHours db (lockItem itemId userId reason ttlHours now later) = db := by
        simp only [step, hexpiry, hok, committed]
      exact sound_of_unchanged hs hstep
    | ok db' =>
      have hstep : step h plusHours db (lockItem itemId userId reason ttlHours now later) = db' := by
        simp only [step, hexpiry, hok, committed]
      obtain ⟨hown, hcheckouts, db₁, hdb₁, hlocks⟩ := lockItem_eq_ok hs.exclusive.locks hok
      have hkeyed₁ : (db₁.itemLocks.map ItemLock.itemId).Nodup := by
        rcases hdb₁ with rfl | rfl
        · exact hs.exclusive.locks
        · exact nodup_deleteLock hs.exclusive.locks
      have hothers : ∀ lock ∈ db.itemLocks, lock.itemId ≠ itemId → lock ∈ db₁.itemLocks := by
        intro lock hlock hne
        rcases hdb₁ with rfl | rfl
        · exact hlock
        · exact mem_deleteLock.mpr ⟨hlock, hne⟩
      have hfrom : ∀ lock ∈ db₁.itemLocks, lock ∈ db.itemLocks := by
        intro lock hlock
        rcases hdb₁ with rfl | rfl
        · exact hlock
        · exact (mem_deleteLock.mp hlock).1
      rw [hstep]
      refine ⟨⟨⟨?locks, ?checkouts⟩, ?keyed, fun lock hlock => ?timed⟩, fun lock hlock => ?keeps⟩
      case locks =>
        rw [hlocks]
        exact nodup_putLock hkeyed₁
      case checkouts =>
        rw [hcheckouts]
        exact hs.exclusive.checkouts
      case keyed =>
        rw [hcheckouts]
        exact hs.keyed
      case timed =>
        rw [hlocks] at hlock
        rcases of_mem_putLock hlock with rfl | ⟨hold, _⟩
        · exact ⟨expires, hin expires hexpiry, rfl⟩
        · exact hs.timed lock (hfrom lock hold)
      case keeps =>
        rw [hstep, hlocks]
        by_cases hitem : lock.itemId = itemId
        · rcases hown lock hlock hitem with huser | hexpired
          · exact .inl ⟨_, self_mem_putLock _, hitem.symm, huser.symm⟩
          · exact .inr (.inr (expired_of_timed hs.timed hlock hexpired))
        · exact .inl ⟨lock, mem_putLock (hothers lock hlock hitem) hitem, rfl, rfl⟩

theorem keeps_of_deleted {call : LockCall} {itemId : String}
    (hlocks : (step h plusHours db call).itemLocks = (db.deleteLock itemId).itemLocks)
    (hitem : ∀ lock ∈ db.itemLocks, lock.itemId = itemId → call.Releases db lock
      ∨ ∃ expires : CivilTime, expires.rfc3339 = lock.expiresAt ∧ expires ≤ call.now) :
    call.Keeps h plusHours db := by
  intro lock hlock
  by_cases heq : lock.itemId = itemId
  · exact .inr (hitem lock hlock heq)
  · rw [hlocks]
    exact .inl ⟨lock, mem_deleteLock.mpr ⟨hlock, heq⟩, rfl, rfl⟩

theorem step_unlockItem (hs : db.LocksHeld) {itemId userId : String} {now : CivilTime} :
    (step h plusHours db (unlockItem itemId userId now)).LocksHeld ∧
    (unlockItem itemId userId now).Keeps h plusHours db := by
  cases hok : MatterCore.unlockItem db itemId userId now with
  | error e =>
    have hstep : step h plusHours db (unlockItem itemId userId now) = db := by simp only [step, hok, committed]
    exact sound_of_unchanged hs hstep
  | ok db' =>
    have hstep : step h plusHours db (unlockItem itemId userId now)
        = db' := by simp only [step, hok, committed]
    obtain ⟨hown, hcheckouts, hlocks⟩ := unlockItem_eq_ok hs.exclusive.locks hok
    refine ⟨hstep ▸ held_of_fewer hs hlocks hcheckouts,
      keeps_of_deleted (hstep ▸ hlocks) fun lock hlock hitem => ?_⟩
    rcases hown lock hlock hitem with huser | hexpired
    · exact .inl ⟨hitem.symm, huser.symm⟩
    · exact .inr (expired_of_timed hs.timed hlock hexpired)

theorem step_forceUnlock (hs : db.LocksHeld) {itemId adminUserId : String} {now : CivilTime} :
    (step h plusHours db (forceUnlock itemId adminUserId now)).LocksHeld
      ∧ (forceUnlock itemId adminUserId now).Keeps h plusHours db := by
  cases hok : MatterCore.forceUnlock db itemId adminUserId now with
  | error e =>
    have hstep : step h plusHours db (forceUnlock itemId adminUserId now)
        = db := by simp only [step, hok, committed]
    exact sound_of_unchanged hs hstep
  | ok db' =>
    have hstep : step h plusHours db (forceUnlock itemId adminUserId now)
        = db' := by simp only [step, hok, committed]
    obtain ⟨hadmin, hcheckouts, hlocks⟩ := forceUnlock_eq_ok hok
    exact ⟨hstep ▸ held_of_fewer hs hlocks hcheckouts,
      keeps_of_deleted (hstep ▸ hlocks) fun lock _ hitem => .inl ⟨hitem.symm, hadmin⟩⟩

theorem step_checkoutBatch (hs : db.LocksHeld) {batchId userId : String} {now : CivilTime} :
    (step h plusHours db (checkoutBatch batchId userId now)).LocksHeld
      ∧ (checkoutBatch batchId userId now).Keeps h plusHours db := by
  cases hok : MatterCore.checkoutBatch db batchId userId now with
  | error e =>
    have hstep : step h plusHours db (checkoutBatch batchId userId now)
        = db := by simp only [step, hok, committed]
    exact sound_of_unchanged hs hstep
  | ok db' =>
    have hstep : step h plusHours db (checkoutBatch batchId userId now)
        = db' := by simp only [step, hok, committed]
    obtain ⟨hlocks, hcheckouts⟩ := checkoutBatch_eq_ok hok
    refine ⟨?_, keeps_of_same (hstep ▸ hlocks)⟩
    rw [hstep]
    rcases hcheckouts with hsame | ⟨hfree, hput⟩
    · exact held_of_same hs hlocks hsame
    · obtain ⟨hkeyed, hactive⟩ := nodup_putCheckout userId now.rfc3339 hs.keyed hs.exclusive.checkouts hfree
      rw [← hput] at hkeyed hactive
      refine ⟨⟨hlocks ▸ hs.exclusive.locks, hactive⟩, hkeyed, fun lock hlock => hs.timed lock (hlocks ▸ hlock)⟩

theorem held_checkIn (hs : db.LocksHeld) {fits : BatchCheckout → Bool} {now : String}
    (hlocks : db'.itemLocks = db.itemLocks)
    (hcheckouts : db'.batchCheckouts = (db.checkIn fits now).batchCheckouts) :
    db'.LocksHeld := by
  refine ⟨⟨hlocks ▸ hs.exclusive.locks, ?_⟩, ?_, fun lock hlock => hs.timed lock (hlocks ▸ hlock)⟩
  · rw [hcheckouts]
    exact hs.exclusive.checkouts.sublist (activeBatches_checkIn fits now)
  · rw [hcheckouts]
    exact keyed_checkIn hs.keyed

theorem step_checkinBatch (hs : db.LocksHeld) {batchId userId : String} {now : CivilTime} :
    (step h plusHours db (checkinBatch batchId userId now)).LocksHeld
      ∧ (checkinBatch batchId userId now).Keeps h plusHours db := by
  unfold Keeps
  simp only [step, MatterCore.checkinBatch]
  split
  · exact ⟨held_checkIn hs rfl rfl, fun lock hlock => .inl ⟨lock, hlock, rfl, rfl⟩⟩
  · exact ⟨hs, fun lock hlock => .inl ⟨lock, hlock, rfl, rfl⟩⟩

theorem step_logout (hs : db.LocksHeld) {userId : String} {now : CivilTime} :
    (step h plusHours db (logout userId now)).LocksHeld ∧ (logout userId now).Keeps h plusHours db := by
  let released : ReviewDb := { db with
    matterSessions := db.matterSessions.filter fun session => session.userId ≠ userId
    itemLocks := db.itemLocks.filter fun lock => lock.userId ≠ userId }
  have hreleased : released.LocksHeld := held_of_fewer hs rfl rfl
  refine ⟨held_checkIn hreleased rfl rfl, fun lock hlock => ?_⟩
  by_cases huser : userId = lock.userId
  · exact .inr (.inl huser)
  · exact .inl ⟨lock, List.mem_filter.mpr ⟨hlock, decide_eq_true fun heq => huser heq.symm⟩, rfl, rfl⟩

theorem step_sound (hs : db.LocksHeld) {call : LockCall} (hin : call.InTime plusHours) :
    (step h plusHours db call).LocksHeld ∧ call.Keeps h plusHours db := by
  cases call with
  | lockItem itemId userId reason ttlHours now later => exact step_lockItem hs hin
  | unlockItem itemId userId now => exact step_unlockItem hs
  | forceUnlock itemId adminUserId now => exact step_forceUnlock hs
  | createBatch name itemIds createdBy filterJson newId now =>
    cases hok : MatterCore.createBatch h db name itemIds createdBy filterJson newId now with
    | error e =>
      have hstep : step h plusHours db (createBatch name itemIds createdBy filterJson newId now) = db := by
        simp only [step, hok, committed]
      exact sound_of_unchanged hs hstep
    | ok db' =>
      have hstep : step h plusHours db (createBatch name itemIds createdBy filterJson newId now) = db' := by
        simp only [step, hok, committed]
      obtain ⟨hlocks, hcheckouts⟩ := createBatch_eq_ok hok
      exact ⟨hstep ▸ held_of_same hs hlocks hcheckouts, keeps_of_same (hstep ▸ hlocks)⟩
  | checkoutBatch batchId userId now => exact step_checkoutBatch hs
  | checkinBatch batchId userId now => exact step_checkinBatch hs
  | logout userId now => exact step_logout hs

/-! ## Runs -/

/-- **Exclusive locks and checkouts.** Over calls that take locks until years of four digits,
whatever their clock readings, an item has one lock, a batch has one active checkout, and no lock is
lost before its time but by its user or an admin. -/
theorem locks_exclusive (h : ReviewHandle) (plusHours : CivilTime → Int → Option CivilTime)
    (db : ReviewDb) (hs : db.LocksHeld) (calls : List LockCall)
    (hin : Guarded (step h plusHours) (fun _ call => call.InTime plusHours) db calls) :
    Along (step h plusHours) Exclusive db calls
      ∧ Guarded (step h plusHours) (fun db call => call.Keeps h plusHours db) db calls := by
  induction calls generalizing db with
  | nil => exact ⟨hs.exclusive, trivial⟩
  | cons call calls ih =>
    obtain ⟨hnext, hkeeps⟩ := step_sound (h := h) hs hin.1
    obtain ⟨hexclusive, hall⟩ := ih (step h plusHours db call) hnext hin.2
    exact ⟨⟨hs.exclusive, hexclusive⟩, hkeeps, hall⟩

def reviewRoom : ReviewDb where
  items := [{ id := "d1", matterId := "m1" }]
  multiUserEnabled := true
  matterUsers := [⟨"u1", "Ann", .reviewer, "", none⟩, ⟨"u2", "Ben", .reviewer, "", none⟩]

def nineOClock : CivilTime where
  year := 2026
  month := 1
  day := 5
  hour := 9

def tenOClock : CivilTime where
  year := 2026
  month := 1
  day := 5
  hour := 10

def hoursAfterNine (later : CivilTime) (hours : Int) : Option CivilTime :=
  if later = nineOClock ∧ hours = 4 then some { year := 2026, month := 1, day := 5, hour := 13 }
  else if later = nineOClock ∧ hours = 70000000 then some { year := 10011, month := 7, day := 30, hour := 1 }
  else none

theorem locks_exclusive_morning : Along (step ⟨"m1", false⟩ hoursAfterNine) Exclusive reviewRoom
      [.lockItem "d1" "u1" none none nineOClock nineOClock, .unlockItem "d1" "u2" tenOClock]
    ∧ Guarded (step ⟨"m1", false⟩ hoursAfterNine)
      (fun db call => call.Keeps ⟨"m1", false⟩ hoursAfterNine db) reviewRoom
      [.lockItem "d1" "u1" none none nineOClock nineOClock, .unlockItem "d1" "u2" tenOClock] := by
  refine locks_exclusive ⟨"m1", false⟩ hoursAfterNine reviewRoom
    ⟨⟨nodup_nil, nodup_nil⟩, nodup_nil, nofun⟩ _ ⟨fun expires hexpires => ?_, trivial, trivial⟩
  have hone : lockExpiry hoursAfterNine nineOClock none
      = some { year := 2026, month := 1, day := 5, hour := 13 } := by
    decide
  cases hone.symm.trans hexpires
  decide

/-- Ann's lock of seventy million hours is Ben's an hour later. -/
theorem locks_exclusive_broken_by_year : ¬ Guarded (step ⟨"m1", false⟩ hoursAfterNine)
    (fun db call => call.Keeps ⟨"m1", false⟩ hoursAfterNine db) reviewRoom
      [.lockItem "d1" "u1" none (some 70000000) nineOClock nineOClock,
        .lockItem "d1" "u2" none none tenOClock nineOClock] := by
  rintro ⟨_, hkeeps, _⟩
  have hmine : (⟨"d1", "u1", "2026-01-05T09:00:00.000Z", "+10011-07-30T01:00:00.000Z",
      none⟩ : ItemLock) ∈ (step ⟨"m1", false⟩ hoursAfterNine reviewRoom
        (.lockItem "d1" "u1" none (some 70000000) nineOClock nineOClock)).itemLocks := by
    decide +kernel
  rcases hkeeps _ hmine with ⟨row, hrow, _, huser⟩ | hreleases | ⟨expires, htext, hpassed⟩
  · have htaken : ∀ row ∈ (step ⟨"m1", false⟩ hoursAfterNine (step ⟨"m1", false⟩ hoursAfterNine reviewRoom
        (.lockItem "d1" "u1" none (some 70000000) nineOClock nineOClock))
          (.lockItem "d1" "u2" none none tenOClock nineOClock)).itemLocks, row.userId ≠ "u1" := by
      decide +kernel
    exact htaken row hrow huser
  · exact hreleases
  · have hplus : expires.rfc3339.toList.head? = some '+' := by
      rw [htext]
      decide
    have hyear : 9999 < expires.year := CivilTime.year_of_plus hplus
    exact hpassed (.inl (Int.lt_trans (by decide) hyear))

end LockCall

end MatterCore
