import PstDedupe.MatterCore.RedactionHook
import PstDedupe.MatterCore.ReviewCalls

/-!
# Which mutations of review are guarded

`ReviewOp` is a call that changes what reviewers see of an item.
-/

namespace MatterCore

open Rust Foundations List

inductive ReviewOp where
  | guarded (call : ReviewCall)
  | ensurePrivilege (itemId actor : String)
  | clearPrivilege (itemId actor : String)
  | createHighlight (input : CreateHighlightInput) (newId : String)
  | deleteHighlight (highlightId actor : String)
  | createRedaction (input : CreateRedactionInput) (newId hookNow : String)
  | deleteRedaction (redactionId actor : String)
  | createGeomRedaction (input : CreateGeomRedactionInput) (newId : String)
  | deleteGeomRedaction (geomId actor : String)

namespace ReviewOp

def after (h : ReviewHandle) (db : ReviewDb) (now : String) : ReviewOp → ReviewDb
  | guarded call => committed db (call.run h db now)
  | ensurePrivilege itemId actor => committed db (ensureItemPrivilege h db itemId actor now)
  | clearPrivilege itemId actor => committed db (clearItemPrivilege h db itemId actor now)
  | createHighlight input newId => committed db (MatterCore.createHighlight h db input newId now)
  | deleteHighlight highlightId actor => committed db (MatterCore.deleteHighlight h db highlightId actor now)
  | createRedaction input newId hookNow => (MatterCore.createRedaction h db input newId now hookNow).2
  | deleteRedaction redactionId actor => committed db (MatterCore.deleteRedaction h db redactionId actor now)
  | createGeomRedaction input newId => committed db (MatterCore.createGeomRedaction h db input newId now)
  | deleteGeomRedaction geomId actor => committed db (MatterCore.deleteGeomRedaction h db geomId actor now)

def actor : ReviewOp → String
  | guarded call => call.actor
  | ensurePrivilege _ actor => actor
  | clearPrivilege _ actor => actor
  | createHighlight input _ => input.actor
  | deleteHighlight _ actor => actor
  | createRedaction input _ _ => input.actor
  | deleteRedaction _ actor => actor
  | createGeomRedaction input _ => input.actor
  | deleteGeomRedaction _ actor => actor

def Targets (h : ReviewHandle) (db : ReviewDb) (itemId : String) : ReviewOp → Prop
  | guarded call => call.Targets h db itemId
  | ensurePrivilege item _ => item = itemId
  | clearPrivilege item _ => item = itemId
  | createHighlight input _ => input.itemId = itemId
  | deleteHighlight highlightId _ =>
    ∃ row ∈ rowAt ItemHighlight.id db.itemHighlights highlightId, row.itemId = itemId
  | createRedaction input _ _ => input.itemId = itemId
  | deleteRedaction redactionId _ =>
    ∃ row ∈ rowAt ItemRedaction.id db.itemRedactions redactionId, row.itemId = itemId
  | createGeomRedaction input _ => input.itemId = itemId
  | deleteGeomRedaction geomId _ =>
    ∃ row ∈ rowAt ItemGeomRedaction.id db.itemGeomRedactions geomId, row.itemId = itemId

/-- A lock or a checkout keeps the actor off a target, or strict mode does not know the actor. -/
def Blocked (h : ReviewHandle) (db : ReviewDb) (now : String) (op : ReviewOp) : Prop :=
  (∃ itemId, op.Targets h db itemId ∧ (db.LockedByOther (normalizeActor op.actor) now itemId
      ∨ db.OutsideCheckouts (normalizeActor op.actor) itemId))
    ∨ h.strictActor ∧ ¬ db.EnabledUser op.actor

/-- The call checks the guards. -/
def Guarded : ReviewOp → Prop
  | guarded _ => True
  | _ => False

def Cached (h : ReviewHandle) (db : ReviewDb) (itemId : String) (withhold : Int) : Prop :=
  ∀ item ∈ db.items, item.id = itemId → item.matterId = h.matterId → item.privilegeWithhold = withhold

def Ensured (h : ReviewHandle) (db : ReviewDb) (itemId : String) : Prop :=
  match db.loadPrivilege h.matterId itemId with
  | some claim => (claim.status.active ∧ claim.withhold = 1 ∧ claim.includeOnLog = 1) ∧ Cached h db itemId 1
  | none => itemId ∈ db.itemPrivilege.map ItemPrivilege.itemId

def Cleared (h : ReviewHandle) (db : ReviewDb) (itemId : String) : Prop :=
  (∀ claim ∈ db.loadPrivilege h.matterId itemId, claim.status = .cleared) ∧ Cached h db itemId 0

/-- A call without guards that its own checks turn away, or that has nothing to change. -/
def Idle (h : ReviewHandle) (db : ReviewDb) : ReviewOp → Prop
  | guarded _ => False
  | ensurePrivilege itemId _ => db.HasItem h.matterId itemId → Ensured h db itemId
  | clearPrivilege itemId _ => db.HasItem h.matterId itemId → Cleared h db itemId
  | createHighlight input newId =>
    db.HasItem h.matterId input.itemId → input.checkRange = .ok () →
      newId ∈ db.itemHighlights.map ItemHighlight.id
  | deleteHighlight highlightId _ =>
    ∀ row ∈ rowAt ItemHighlight.id db.itemHighlights highlightId, row.matterId ≠ h.matterId
  | createRedaction input newId _ =>
    input.Accepted h.matterId db.toMatterDb → newId ∈ db.itemRedactions.map ItemRedaction.id
  | deleteRedaction redactionId _ =>
    ∀ row ∈ rowAt ItemRedaction.id db.itemRedactions redactionId, row.matterId ≠ h.matterId
  | createGeomRedaction input newId =>
    db.HasItem h.matterId input.itemId → (∃ reason, validateReason (trim input.reason) = .ok reason) →
      (∃ source, validateSource (trim input.source) = .ok source) → input.checkRect = .ok () →
        newId ∈ db.itemGeomRedactions.map ItemGeomRedaction.id
  | deleteGeomRedaction geomId _ =>
    ∀ row ∈ rowAt ItemGeomRedaction.id db.itemGeomRedactions geomId, row.matterId ≠ h.matterId

end ReviewOp

variable {h : ReviewHandle} {db db' : ReviewDb} {now : String}

theorem Guarding.free_of_prepare (hmulti : db.multiUserEnabled) {g : Guarding}
    {expected : Option Int} (hguards : g.guards = h.multiUserGuards db expected)
    (hnodup : g.targets.Nodup) {result : List Int × ReviewDb} (hok : g.prepare db = .ok result) :
    ∀ i ∈ g.targets, ¬ db.LockedByOther g.actor g.now i ∧ ¬ db.OutsideCheckouts g.actor i := by
  have hboth : (g.guards.active && g.guards.enforceLocks) = true := by
    rw [hguards]
    unfold ReviewHandle.multiUserGuards
    simp [hmulti]
  exact (ReviewHandle.Guards.prepare_eq_ok hnodup hok).free hboth

theorem ReviewCall.stops (hmulti : db.multiUserEnabled) {call : ReviewCall}
    (hblocked : (ReviewOp.guarded call).Blocked h db now) : (ReviewOp.guarded call).after h db now = db := by
  show committed db (call.run h db now) = db
  cases hrun : call.run h db now with
  | error e => rfl
  | ok db' =>
    obtain ⟨p, hread, htxn⟩ := ReviewCall.run_eq_ok.mp hrun
    have hresolved := ReviewCall.resolved_of_read hread
    obtain ⟨result, hprepare⟩ := PendingReview.prepare_of_txn htxn
    rcases hblocked with ⟨itemId, htarget, hkept⟩ | ⟨hstrict, hdisabled⟩
    · have hmem := (hresolved.targets itemId).mp htarget
      obtain ⟨hunlocked, hinside⟩ :=
        Guarding.free_of_prepare hmulti hresolved.guards hresolved.distinct hprepare itemId hmem
      rw [hresolved.actor, hresolved.now] at hunlocked
      rw [hresolved.actor] at hinside
      rcases hkept with hlocked | houtside
      · exact absurd hlocked hunlocked
      · exact absurd houtside hinside
    · exact absurd (hresolved.enabled hstrict) hdisabled

theorem ne_of_audited {db' : ReviewDb} (h : db.auditEvents.length < db'.auditEvents.length) : db' ≠ db := by
  rintro rfl
  exact absurd h (Nat.lt_irrefl _)

theorem setItemWithholdCache_eq_self {itemId : String} {withhold : Bool} :
    db.setItemWithholdCache h.matterId itemId withhold = db
      ↔ ReviewOp.Cached h db itemId (if withhold then 1 else 0) := by
  constructor
  · intro hsame item hitem hid hmatter
    have hitems := congrArg (fun db : ReviewDb => db.items) hsame
    have hfixed := List.map_eq_map_iff.mp (hitems.trans (map_id db.items).symm) item hitem
    rw [if_pos ⟨hid, hmatter⟩] at hfixed
    exact (congrArg Item.privilegeWithhold hfixed).symm
  · intro hcached
    have hitems : (db.setItemWithholdCache h.matterId itemId withhold).items = db.items := by
      refine (map_congr_left fun item hitem => ?_).trans (map_id db.items)
      show (if item.id = itemId ∧ item.matterId = h.matterId then _ else item) = item
      split
      · rename_i hkey
        rw [← hcached item hitem hkey.1 hkey.2]
      · rfl
    show { db with toMatterDb := { db.toMatterDb with
      items := (db.setItemWithholdCache h.matterId itemId withhold).items } } = db
    rw [hitems]

theorem hasItem_of_ensure {itemId : String} {u : Unit}
    (hok : db.ensureItemInMatter h.matterId itemId = .ok u) :
    db.HasItem h.matterId itemId := MatterDb.ensureItemInMatter_eq_ok.mp hok

theorem ensure_of_not_hasItem {itemId : String} (hmissing : ¬ db.HasItem h.matterId itemId) :
    ∃ e, db.ensureItemInMatter h.matterId itemId = .error e := by
  cases hok : db.ensureItemInMatter h.matterId itemId with
  | ok u => exact absurd (hasItem_of_ensure hok) hmissing
  | error e => exact ⟨e, rfl⟩

theorem after_ensurePrivilege_iff {itemId actor : String} :
    (ReviewOp.ensurePrivilege itemId actor).after h db now = db ↔
    (ReviewOp.ensurePrivilege itemId actor).Idle h db := by
  show committed db (ensureItemPrivilege h db itemId actor now) = db ↔ (db.HasItem h.matterId itemId → _)
  by_cases hitem : db.HasItem h.matterId itemId
  · have hok : db.ensureItemInMatter h.matterId itemId = .ok () := MatterDb.ensureItemInMatter_eq_ok.mpr hitem
    simp only [ensureItemPrivilege, hok, bind, Except.bind, ensureItemPrivilegeTxn,
      ReviewDb.ensureItemPrivilegeConn, ReviewOp.Ensured, hitem, true_imp_iff]
    cases hload : db.loadPrivilege h.matterId itemId with
    | some claim =>
      simp only
      by_cases hactive : claim.status.active ∧ claim.withhold = 1 ∧ claim.includeOnLog = 1
      · rw [if_pos hactive]
        show db.setItemWithholdCache h.matterId itemId true = db ↔ _
        rw [setItemWithholdCache_eq_self]
        exact (and_iff_right hactive).symm
      · rw [if_neg hactive]
        refine iff_of_false (ne_of_audited ?_) fun hensured => hactive hensured.1
        show db.auditEvents.length < (db.auditEvents ++ [_]).length
        simp
    | none =>
      simp only [ReviewDb.insertPrivilege]
      by_cases hforeign : itemId ∈ db.itemPrivilege.map ItemPrivilege.itemId
      · rw [if_pos hforeign]
        exact iff_of_true rfl hforeign
      · rw [if_neg hforeign]
        refine iff_of_false (ne_of_audited ?_) hforeign
        show db.auditEvents.length < (db.auditEvents ++ [_]).length
        simp
  · obtain ⟨e, he⟩ := ensure_of_not_hasItem hitem
    simp only [ensureItemPrivilege, he, bind, Except.bind]
    exact iff_of_true rfl fun h => absurd h hitem

theorem softClear_of_cleared {matterId itemId actor : String}
    (h : ∀ claim ∈ db.loadPrivilege matterId itemId, claim.status = .cleared) :
    db.softClearItemPrivilegeConn matterId itemId actor now
      = (false, db.setItemWithholdCache matterId itemId false) := by
  unfold ReviewDb.softClearItemPrivilegeConn
  cases hload : db.loadPrivilege matterId itemId with
  | some claim => exact if_pos (h claim hload)
  | none => rfl

theorem softClear_of_active {matterId itemId actor : String}
    (h : ¬ ∀ claim ∈ db.loadPrivilege matterId itemId, claim.status = .cleared) :
    ∃ db', db.softClearItemPrivilegeConn matterId itemId actor now = (true, db') ∧
      db'.auditEvents = db.auditEvents := by
  unfold ReviewDb.softClearItemPrivilegeConn
  cases hload : db.loadPrivilege matterId itemId with
  | some claim =>
    refine ⟨_, if_neg fun hstatus => h fun other hother => ?_, rfl⟩
    rw [hload] at hother
    cases hother
    exact hstatus
  | none =>
    rw [hload] at h
    exact absurd (fun _ hnone => by cases hnone) h

theorem after_clearPrivilege_iff {itemId actor : String} :
    (ReviewOp.clearPrivilege itemId actor).after h db now = db ↔
    (ReviewOp.clearPrivilege itemId actor).Idle h db := by
  show committed db (clearItemPrivilege h db itemId actor now) = db ↔ (db.HasItem h.matterId itemId → _)
  by_cases hitem : db.HasItem h.matterId itemId
  · have hok : db.ensureItemInMatter h.matterId itemId = .ok () := MatterDb.ensureItemInMatter_eq_ok.mpr hitem
    have hrun : clearItemPrivilege h db itemId actor now
        = .ok (clearItemPrivilegeTxn h.matterId itemId (normalizeActor actor) now db) :=
          bind_eq_ok.mpr ⟨(), hok, rfl⟩
    rw [hrun]
    simp only [ReviewOp.Cleared, hitem, true_imp_iff, clearItemPrivilegeTxn, committed]
    by_cases hcleared : ∀ claim ∈ db.loadPrivilege h.matterId itemId, claim.status = .cleared
    · rw [softClear_of_cleared hcleared]
      show db.setItemWithholdCache h.matterId itemId false = db ↔ _
      rw [setItemWithholdCache_eq_self]
      exact (and_iff_right hcleared).symm
    · obtain ⟨db', hsoft, haudit⟩ := softClear_of_active hcleared
      rw [hsoft]
      refine iff_of_false (ne_of_audited ?_) fun hidle => hcleared hidle.1
      show db.auditEvents.length < (db'.auditEvents ++ [_]).length
      rw [haudit]
      simp
  · obtain ⟨e, he⟩ := ensure_of_not_hasItem hitem
    simp only [clearItemPrivilege, he, bind, Except.bind]
    exact iff_of_true rfl fun h => absurd h hitem

theorem length_audited (db : ReviewDb) (m : MatterDb) (actor action entity now : String) :
    db.auditEvents.length < (db.audited m actor action entity now).auditEvents.length := by
  show db.auditEvents.length < (db.auditEvents ++ [_]).length
  simp

theorem committed_eq_iff {result : Except CallError ReviewDb} {idle : Prop}
    (hfails : idle → ∃ e, result = .error e)
    (hwrites : ¬ idle → ∃ db', result = .ok db' ∧ db.auditEvents.length < db'.auditEvents.length) :
    committed db result = db ↔ idle := by
  by_cases hidle : idle
  · obtain ⟨e, rfl⟩ := hfails hidle
    exact iff_of_true rfl hidle
  · obtain ⟨db', rfl, hlength⟩ := hwrites hidle
    exact iff_of_false (ne_of_audited hlength) hidle

theorem after_createHighlight_iff {input : CreateHighlightInput} {newId : String} :
    (ReviewOp.createHighlight input newId).after h db now = db
      ↔ (ReviewOp.createHighlight input newId).Idle h db := by
  have hread : ∀ row, createHighlightRow h.matterId db input newId now = .ok row →
      db.HasItem h.matterId input.itemId ∧ input.checkRange = .ok () ∧ row.id = newId := by
    intro row hok
    obtain ⟨_, hitem, hok⟩ := bind_eq_ok.mp hok
    obtain ⟨_, hrange, hok⟩ := bind_eq_ok.mp hok
    cases hok
    exact ⟨hasItem_of_ensure hitem, hrange, rfl⟩
  refine committed_eq_iff (fun hidle => ?_) fun hreached => ?_
  · cases hcall : createHighlight h db input newId now with
    | error e => exact ⟨e, rfl⟩
    | ok db' =>
      obtain ⟨row, hrow, htxn⟩ := bind_eq_ok.mp hcall
      obtain ⟨hitem, hrange, hid⟩ := hread row hrow
      have hdup : row.id ∈ db.itemHighlights.map ItemHighlight.id := by
        rw [hid]
        exact hidle hitem hrange
      unfold createHighlightTxn at htxn
      rw [if_pos hdup] at htxn
      cases htxn
  · simp only [ReviewOp.Idle, Classical.not_imp] at hreached
    obtain ⟨hitem, hrange, hfresh⟩ := hreached
    refine ⟨_, bind_eq_ok.mpr ⟨_, bind_eq_ok.mpr ⟨(), MatterDb.ensureItemInMatter_eq_ok.mpr hitem,
      bind_eq_ok.mpr ⟨(), hrange, rfl⟩⟩, if_neg hfresh⟩, ?_⟩
    show db.auditEvents.length < (db.auditEvents ++ [_]).length
    simp

theorem getHighlight_eq_ok {id : String} {row : ItemHighlight} :
    db.getHighlight id = .ok row ↔ rowAt ItemHighlight.id db.itemHighlights id = some row := by
  unfold ReviewDb.getHighlight
  cases rowAt ItemHighlight.id db.itemHighlights id <;> simp

theorem getRedaction_eq_ok {mdb : MatterDb} {id : String} {row : ItemRedaction} :
    mdb.getRedaction id = .ok row ↔ (mdb.itemRedactions.find? fun row => row.id = id) = some row := by
  unfold MatterDb.getRedaction
  cases mdb.itemRedactions.find? fun row => row.id = id <;> simp

theorem getGeomRedaction_eq_ok {mdb : MatterDb} {id : String} {row : ItemGeomRedaction} :
    mdb.getGeomRedaction id = .ok row ↔ (mdb.itemGeomRedactions.find? fun row => row.id = id) = some row := by
  unfold MatterDb.getGeomRedaction
  cases mdb.itemGeomRedactions.find? fun row => row.id = id <;> simp

theorem after_deleteHighlight_iff {highlightId actor : String} :
    (ReviewOp.deleteHighlight highlightId actor).after h db now = db
      ↔ (ReviewOp.deleteHighlight highlightId actor).Idle h db := by
  refine committed_eq_iff (fun hidle => ?_) fun hreached => ?_
  · cases hcall : deleteHighlight h db highlightId actor now with
    | error e => exact ⟨e, rfl⟩
    | ok db' =>
      obtain ⟨existing, hread, _⟩ := bind_eq_ok.mp hcall
      obtain ⟨row, hrow, hread⟩ := bind_eq_ok.mp hread
      obtain ⟨hmatter, hread⟩ := check_eq_ok.mp hread
      cases hread
      exact absurd (not_not.mp hmatter) (hidle _ (getHighlight_eq_ok.mp hrow))
  · simp only [ReviewOp.Idle, not_forall, not_not] at hreached
    obtain ⟨row, hrow, hmatter⟩ := hreached
    have hget : db.getHighlight highlightId = .ok row := getHighlight_eq_ok.mpr hrow
    refine ⟨_, bind_eq_ok.mpr ⟨row, bind_eq_ok.mpr ⟨row, hget, check_eq_ok.mpr ⟨not_not.mpr hmatter,
      rfl⟩⟩, rfl⟩, ?_⟩
    show db.auditEvents.length < (db.auditEvents ++ [_]).length
    simp

theorem after_deleteRedaction_iff {redactionId actor : String} :
    (ReviewOp.deleteRedaction redactionId actor).after h db now = db
      ↔ (ReviewOp.deleteRedaction redactionId actor).Idle h db := by
  refine committed_eq_iff (fun hidle => ?_) fun hreached => ?_
  · cases hcall : deleteRedaction h db redactionId actor now with
    | error e => exact ⟨e, rfl⟩
    | ok db' =>
      obtain ⟨existing, hread, _⟩ := bind_eq_ok.mp hcall
      obtain ⟨row, hrow, hread⟩ := bind_eq_ok.mp hread
      obtain ⟨hmatter, hread⟩ := check_eq_ok.mp hread
      cases hread
      exact absurd (not_not.mp hmatter) (hidle _ (getRedaction_eq_ok.mp hrow))
  · simp only [ReviewOp.Idle, not_forall, not_not] at hreached
    obtain ⟨row, hrow, hmatter⟩ := hreached
    have hget : db.toMatterDb.getRedaction redactionId = .ok row := getRedaction_eq_ok.mpr hrow
    exact ⟨_, bind_eq_ok.mpr ⟨row, bind_eq_ok.mpr ⟨row, hget, check_eq_ok.mpr ⟨not_not.mpr hmatter,
      rfl⟩⟩, rfl⟩,
      length_audited _ _ _ _ _ _⟩

theorem after_deleteGeomRedaction_iff {geomId actor : String} :
    (ReviewOp.deleteGeomRedaction geomId actor).after h db now = db
      ↔ (ReviewOp.deleteGeomRedaction geomId actor).Idle h db := by
  refine committed_eq_iff (fun hidle => ?_) fun hreached => ?_
  · cases hcall : deleteGeomRedaction h db geomId actor now with
    | error e => exact ⟨e, rfl⟩
    | ok db' =>
      obtain ⟨existing, hread, _⟩ := bind_eq_ok.mp hcall
      obtain ⟨row, hrow, hread⟩ := bind_eq_ok.mp hread
      obtain ⟨hmatter, hread⟩ := check_eq_ok.mp hread
      cases hread
      exact absurd (not_not.mp hmatter) (hidle _ (getGeomRedaction_eq_ok.mp hrow))
  · simp only [ReviewOp.Idle, not_forall, not_not] at hreached
    obtain ⟨row, hrow, hmatter⟩ := hreached
    have hget : db.toMatterDb.getGeomRedaction geomId = .ok row := getGeomRedaction_eq_ok.mpr hrow
    exact ⟨_, bind_eq_ok.mpr ⟨row, bind_eq_ok.mpr ⟨row, hget, check_eq_ok.mpr ⟨not_not.mpr hmatter,
      rfl⟩⟩, rfl⟩,
      length_audited _ _ _ _ _ _⟩

theorem after_createGeomRedaction_iff {input : CreateGeomRedactionInput} {newId : String} :
    (ReviewOp.createGeomRedaction input newId).after h db now = db
      ↔ (ReviewOp.createGeomRedaction input newId).Idle h db := by
  refine committed_eq_iff (fun hidle => ?_) fun hreached => ?_
  · cases hcall : createGeomRedaction h db input newId now with
    | error e => exact ⟨e, rfl⟩
    | ok db' =>
      obtain ⟨row, hrow, hcall⟩ := bind_eq_ok.mp hcall
      obtain ⟨m, htxn, _⟩ := bind_eq_ok.mp hcall
      obtain ⟨_, hitem, hrow⟩ := bind_eq_ok.mp hrow
      obtain ⟨reason, hreason, hrow⟩ := bind_eq_ok.mp hrow
      obtain ⟨source, hsource, hrow⟩ := bind_eq_ok.mp hrow
      obtain ⟨_, hrect, hrow⟩ := bind_eq_ok.mp hrow
      cases hrow
      have hdup := hidle (hasItem_of_ensure hitem) ⟨reason, hreason⟩ ⟨source, hsource⟩ hrect
      unfold createGeomRedactionTxn at htxn
      rw [if_pos hdup] at htxn
      cases htxn
  · simp only [ReviewOp.Idle, Classical.not_imp] at hreached
    obtain ⟨hitem, ⟨reason, hreason⟩, ⟨source, hsource⟩, hrect, hfresh⟩ := hreached
    refine ⟨_, bind_eq_ok.mpr ⟨_, bind_eq_ok.mpr ⟨(), MatterDb.ensureItemInMatter_eq_ok.mpr hitem,
      bind_eq_ok.mpr ⟨reason, hreason, bind_eq_ok.mpr ⟨source, hsource, bind_eq_ok.mpr ⟨(), hrect, rfl⟩⟩⟩⟩,
        bind_eq_ok.mpr ⟨_, if_neg hfresh, rfl⟩⟩, length_audited _ _ _ _ _ _⟩

theorem itemRedactions_hook {itemId actor : String}
    (hok : applyPrivilegeRedactionHook h db itemId actor now = .ok db') :
    db'.itemRedactions = db.itemRedactions := by
  obtain ⟨existing, _, hok⟩ := bind_eq_ok.mp hok
  split at hok
  · cases hok
    rfl
  · obtain ⟨u, _, htxn⟩ := bind_eq_ok.mp hok
    obtain ⟨⟨versions, db₁⟩, hprepare, htxn⟩ := bind_eq_ok.mp htxn
    obtain ⟨locks, rfl⟩ := (ReviewHandle.Guards.prepare_eq_ok (nodup_singleton _) hprepare).written
    obtain ⟨db₂, hwrite, htxn⟩ := ite_bind_eq_ok.mp htxn
    cases htxn
    have hclaims : db₂.itemRedactions = (db.guarded [u.itemId] locks).itemRedactions := by
      split at hwrite
      · cases hwrite
        rfl
      · unfold ReviewDb.insertPrivilege at hwrite
        split at hwrite
        · cases hwrite
        · cases hwrite
          rfl
    exact hclaims

theorem after_createRedaction_iff {input : CreateRedactionInput} {newId hookNow : String} :
    (ReviewOp.createRedaction input newId hookNow).after h db now = db
      ↔ (ReviewOp.createRedaction input newId hookNow).Idle h db := by
  show (createRedaction h db input newId now hookNow).2 = db ↔ (input.Accepted h.matterId db.toMatterDb → _)
  cases hrow : createRedactionRow h.matterId db.toMatterDb input newId now with
  | error e =>
    simp only [createRedaction, hrow, true_iff]
    intro haccepted
    obtain ⟨row, hok⟩ := createRedactionRow_of_accepted haccepted newId now
    rw [hrow] at hok
    cases hok
  | ok row =>
    obtain ⟨haccepted, _, hid, _⟩ := accepted_of_createRedactionRow hrow
    cases hinsert : db.insertRedaction h.matterId row (normalizeActor input.actor) now with
    | error e =>
      simp only [createRedaction, hrow, hinsert, true_iff]
      intro _
      by_contra hfresh
      obtain ⟨m, hm⟩ : ∃ m, createRedactionTxn h.matterId row db.toMatterDb = .ok m :=
        ⟨_, if_neg (hid ▸ hfresh)⟩
      unfold ReviewDb.insertRedaction at hinsert
      rw [hm] at hinsert
      cases hinsert
    | ok db₁ =>
      obtain ⟨hfresh, hrows, _, _, _⟩ := insertRedaction_eq_ok hinsert
      have hkept : (createRedaction h db input newId now hookNow).2.itemRedactions = db₁.itemRedactions := by
        simp only [createRedaction, hrow, hinsert]
        split
        · cases hhook :
            applyPrivilegeRedactionHook h db₁ input.itemId (normalizeActor input.actor) hookNow with
          | error e => rfl
          | ok db₂ => exact itemRedactions_hook hhook
        · rfl
      refine iff_of_false (fun hsame => ?_) fun hidle => hfresh (hid ▸ hidle haccepted)
      have hlength := congrArg length (hkept.trans hrows)
      rw [hsame] at hlength
      simp at hlength

theorem after_eq_iff_idle {op : ReviewOp} (hunguarded : ¬ op.Guarded) : op.after h db now = db ↔
    op.Idle h db := by
  cases op with
  | guarded call => exact absurd trivial hunguarded
  | ensurePrivilege itemId actor => exact after_ensurePrivilege_iff
  | clearPrivilege itemId actor => exact after_clearPrivilege_iff
  | createHighlight input newId => exact after_createHighlight_iff
  | deleteHighlight highlightId actor => exact after_deleteHighlight_iff
  | createRedaction input newId hookNow => exact after_createRedaction_iff
  | deleteRedaction redactionId actor => exact after_deleteRedaction_iff
  | createGeomRedaction input newId => exact after_createGeomRedaction_iff
  | deleteGeomRedaction geomId actor => exact after_deleteGeomRedaction_iff

/-- **Guards.** In a multi-user matter a blocked call changes nothing iff it is one of the guarded
ones, or has nothing to change; the others go through. -/
theorem blocked_changes_nothing_iff (h : ReviewHandle) (db : ReviewDb) (now : String)
    (op : ReviewOp) (hmulti : db.multiUserEnabled) :
    (op.Blocked h db now → op.after h db now = db) ↔ op.Guarded ∨ ¬ op.Blocked h db now ∨ op.Idle h db := by
  by_cases hguarded : op.Guarded
  · refine iff_of_true (fun hblocked => ?_) (.inl hguarded)
    cases op with
    | guarded call => exact ReviewCall.stops hmulti hblocked
    | _ => exact hguarded.elim
  · rw [after_eq_iff_idle hguarded, or_iff_right hguarded]
    exact imp_iff_not_or

def lockedDocument : ReviewDb :=
  { sharedDocument with itemLocks := [⟨"d1", "u2", "2026-01-05T08:00:00+00:00",
    "2026-01-05T16:00:00+00:00", none⟩] }

theorem lockedByBen : lockedDocument.LockedByOther "u1" "2026-01-05T09:00:00+00:00" "d1" :=
  ⟨⟨"d1", "u2", "2026-01-05T08:00:00+00:00", "2026-01-05T16:00:00+00:00", none⟩,
    rfl, by decide +kernel, by decide⟩

def noteOnDocument : ReviewCall := .upsertNote { itemId := "d1", body := "Ask counsel", actor := "u1" } "note1"

theorem blocked_changes_nothing_iff_note :
    (ReviewOp.guarded noteOnDocument).after ⟨"m1", false⟩ lockedDocument "2026-01-05T09:00:00+00:00"
      = lockedDocument :=
  (blocked_changes_nothing_iff ⟨"m1",
    false⟩ lockedDocument "2026-01-05T09:00:00+00:00" (.guarded noteOnDocument) rfl).mpr
    (.inl trivial) (.inl ⟨"d1", rfl, .inl lockedByBen⟩)

theorem ensurePrivilege_ignores_lock :
    (ReviewOp.ensurePrivilege "d1" "u1").Blocked ⟨"m1", false⟩ lockedDocument "2026-01-05T09:00:00+00:00"
      ∧ (ReviewOp.ensurePrivilege "d1" "u1").after ⟨"m1",
        false⟩ lockedDocument "2026-01-05T09:00:00+00:00" ≠ lockedDocument := by
  refine ⟨.inl ⟨"d1", rfl, .inl lockedByBen⟩, ne_of_audited ?_⟩
  decide +kernel

end MatterCore
