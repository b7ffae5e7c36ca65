import PstDedupe.MatterCore.Redaction
import PstDedupe.MatterCore.Privilege
import PstDedupe.MatterCore.GuardSpecs

/-!
# Redactions as calls on a matter (`matter-core/src/redaction.rs`, `geom_redaction.rs`)

The calls around the transactions of `Redaction` and `GeomRedaction`, with their audit rows.
-/

namespace MatterCore

open Rust Foundations List Option Function

def ReviewDb.audited (db : ReviewDb) (m : MatterDb) (actor action entity now : String) : ReviewDb :=
  { db with toMatterDb := m }.appendAudit actor action entity now

def ReviewDb.getItemPrivilege (db : ReviewDb) (matter itemId : String) :
    Except CallError (Option ItemPrivilege) := do
  db.ensureItemInMatter matter itemId
  return db.loadPrivilege matter itemId

def ItemPrivilege.Partial (claim : ItemPrivilege) : Prop :=
  claim.status = .partialRedaction ∧ claim.withhold = 1 ∧ claim.includeOnLog = 1

instance (claim : ItemPrivilege) : Decidable claim.Partial := inferInstanceAs (Decidable (_ ∧ _ ∧ _))

def partialRedactionInput (itemId actor : String) (existing : Option ItemPrivilege) :
    UpsertItemPrivilegeInput where
  itemId := itemId
  basis := match existing with
    | some claim => claim.basis.text
    | none => PrivilegeBasis.attorneyClient.text
  description := match existing with
    | some claim => claim.description
    | none => ""
  status := PrivilegeStatus.partialRedaction.text
  withhold := true
  includeOnLog := true
  actor := actor
  expectedVersion := none

def applyPrivilegeRedactionHook (h : ReviewHandle) (db : ReviewDb) (itemId actor now : String) :
    Except CallError ReviewDb := do
  let existing ← db.getItemPrivilege h.matterId itemId
  if ∃ claim ∈ existing, claim.Partial then return db
  else upsertItemPrivilege h db (partialRedactionInput itemId actor existing) now

def ReviewDb.insertRedaction (db : ReviewDb) (matter : String) (row : ItemRedaction)
    (actor now : String) : Except CallError ReviewDb := do
  let m ← createRedactionTxn matter row db.toMatterDb
  return db.audited m actor "redaction.create" s!"redaction:{row.id}" now

def createRedaction (h : ReviewHandle) (db : ReviewDb) (input : CreateRedactionInput)
    (newId now hookNow : String) :
    Except CallError ItemRedaction × ReviewDb :=
  match createRedactionRow h.matterId db.toMatterDb input newId now with
  | .error e => (.error e, db)
  | .ok row =>
    match db.insertRedaction h.matterId row (normalizeActor input.actor) now with
    | .error e => (.error e, db)
    | .ok db =>
      if row.reason = .privilege then
        match applyPrivilegeRedactionHook h db input.itemId (normalizeActor input.actor) hookNow with
        | .error e => (.error e, db)
        | .ok db => (.ok row, db)
      else (.ok row, db)

def deleteRedaction (h : ReviewHandle) (db : ReviewDb) (redactionId actor now : String) :
    Except CallError ReviewDb := do
  let existing ← readDeleteRedaction h.matterId db.toMatterDb redactionId
  return db.audited (deleteRedactionTxn h.matterId existing db.toMatterDb) (normalizeActor actor)
    "redaction.delete"
    s!"redaction:{redactionId}" now

def createGeomRedaction (h : ReviewHandle) (db : ReviewDb) (input : CreateGeomRedactionInput)
    (newId now : String) :
    Except CallError ReviewDb := do
  let row ← createGeomRedactionRow h.matterId db.toMatterDb input newId now
  let m ← createGeomRedactionTxn h.matterId row db.toMatterDb
  return db.audited m (normalizeActor input.actor) "geom_redaction.create" s!"geom_redaction:{row.id}" now

def deleteGeomRedaction (h : ReviewHandle) (db : ReviewDb) (geomId actor now : String) :
    Except CallError ReviewDb := do
  let existing ← readDeleteGeomRedaction h.matterId db.toMatterDb geomId
  return db.audited (deleteGeomRedactionTxn h.matterId existing db.toMatterDb)
    (normalizeActor actor) "geom_redaction.delete" s!"geom_redaction:{geomId}" now

/-!
# What a failed redaction leaves

The row of a redaction is committed before its privilege hook runs, and the hook passes no expected
version.
-/

/-- The input passes its checks. -/
structure CreateRedactionInput.Accepted (input : CreateRedactionInput) (matter : String)
    (m : MatterDb) : Prop where
  item : m.HasItem matter input.itemId
  reason : ∃ reason, validateReason (trim input.reason) = .ok reason
  range : input.checkRange = .ok ()

/-- The privilege hook has a claim to write and may not. -/
structure ReviewDb.HookBlocked (db : ReviewDb) (h : ReviewHandle) (itemId : String) : Prop where
  claim : ∀ claim ∈ db.loadPrivilege h.matterId itemId, ¬ claim.Partial
  guard : h.strictActor ∨ db.multiUserEnabled
    ∨ db.loadPrivilege h.matterId itemId = none ∧ itemId ∈ db.itemPrivilege.map ItemPrivilege.itemId

/-- An error leaves the matter as it was, and a privilege redaction has its claim. -/
structure RedactionAtomic (h : ReviewHandle) (db : ReviewDb) (itemId : String)
    (result : Except CallError ItemRedaction × ReviewDb) : Prop where
  failed : ∀ e, result.1 = .error e → result.2.toMatterDb = db.toMatterDb ∧
    result.2.itemPrivilege = db.itemPrivilege
  claimed : ∀ row, result.1 = .ok row → row.reason = .privilege →
    ∃ claim, result.2.loadPrivilege h.matterId itemId = some claim ∧ claim.Partial

section Claims

variable {db db' : ReviewDb} {matter itemId : String}

theorem key_of_loadPrivilege {claim : ItemPrivilege} (h : db.loadPrivilege matter itemId = some claim) :
    claim.itemId = itemId ∧ claim.matterId = matter :=
  of_decide_eq_true (find?_some (p := fun claim : ItemPrivilege => claim.itemId = itemId ∧
    claim.matterId = matter) h)

theorem loadPrivilege_congr (h : db'.itemPrivilege = db.itemPrivilege) :
    db'.loadPrivilege matter itemId = db.loadPrivilege matter itemId := by
  unfold ReviewDb.loadPrivilege
  rw [h]

theorem loadPrivilege_updatePrivilege (set : ItemPrivilege → ItemPrivilege)
    (hset : ∀ claim, (set claim).itemId = claim.itemId ∧ (set claim).matterId = claim.matterId) :
    (db.updatePrivilege matter itemId set).loadPrivilege matter itemId
      = (db.loadPrivilege matter itemId).map set := by
  unfold ReviewDb.loadPrivilege ReviewDb.updatePrivilege
  rw [find?_map]
  have hsame : ((fun claim : ItemPrivilege => decide (claim.itemId = itemId ∧ claim.matterId = matter)) ∘
      fun claim => if claim.itemId = itemId ∧ claim.matterId = matter then set claim else claim)
        = fun claim => decide (claim.itemId = itemId ∧ claim.matterId = matter) := by
    funext claim
    by_cases hkey : claim.itemId = itemId ∧ claim.matterId = matter
    · simp only [comp_apply, if_pos hkey, (hset claim).1, (hset claim).2]
    · simp only [comp_apply, if_neg hkey]
  rw [hsame]
  cases hfind : db.itemPrivilege.find? fun claim =>
    decide (claim.itemId = itemId ∧ claim.matterId = matter) with
  | none => rfl
  | some claim => exact congrArg some (if_pos (key_of_loadPrivilege hfind))

theorem loadPrivilege_insertPrivilege {claim : ItemPrivilege}
    (hnone : db.loadPrivilege matter itemId = none) (hitem : claim.itemId = itemId)
    (hmatter : claim.matterId = matter) (h : db.insertPrivilege claim = .ok db') :
    db'.loadPrivilege matter itemId = some claim := by
  unfold ReviewDb.insertPrivilege at h
  split at h
  · cases h
  · cases h
    show (db.itemPrivilege ++ [claim]).find? _ = some claim
    have hold : db.itemPrivilege.find?
        (fun claim => decide (claim.itemId = itemId ∧ claim.matterId = matter)) = none := hnone
    rw [find?_append, hold]
    simp [hitem, hmatter]

end Claims

section Hook

variable {h : ReviewHandle} {db : ReviewDb} {itemId actor now : String}

theorem trim_text_basis (basis : PrivilegeBasis) : trim basis.text = basis.text := by
  cases basis <;> decide +kernel

theorem prepareReviewMutates_unversioned {actor now : String} {enforce : Bool} {result : List Int × ReviewDb} :
    db.prepareReviewMutates actor none enforce true now [itemId] ≠ .ok result := by
  intro hok
  have hsome := (ReviewDb.prepareReviewMutates_eq_ok (nodup_singleton itemId) hok).2 (cons_ne_nil _ _) rfl
  cases hsome

theorem readUpsert_partial {existing : Option ItemPrivilege} {u : PrivilegeUpsert}
    (hread : readUpsertItemPrivilege h db (partialRedactionInput itemId actor existing) now = .ok u) :
    u.itemId = itemId ∧ u.status = .partialRedaction ∧ u.withhold = 1 ∧ u.includeOnLog = 1
      ∧ u.expectedVersion = none ∧ u.guards = h.multiUserGuards db none := by
  unfold readUpsertItemPrivilege at hread
  obtain ⟨_, _, hread⟩ := bind_eq_ok.mp hread
  obtain ⟨basis, _, hread⟩ := bind_eq_ok.mp hread
  obtain ⟨status, hstatus, hread⟩ := bind_eq_ok.mp hread
  obtain ⟨_, _, hread⟩ := bind_eq_ok.mp hread
  have hpartial : status = .partialRedaction := by
    have htext : validateStatus (trim PrivilegeStatus.partialRedaction.text)
        = .ok .partialRedaction := by decide +kernel
    exact (Except.ok.inj (htext.symm.trans hstatus)).symm
  subst hpartial
  cases hread
  exact ⟨rfl, rfl, rfl, rfl, rfl, rfl⟩

theorem partial_of_upsert {existing : Option ItemPrivilege} {db' : ReviewDb}
    (hok : upsertItemPrivilege h db (partialRedactionInput itemId actor existing) now = .ok db') :
    ∃ claim, db'.loadPrivilege h.matterId itemId = some claim ∧ claim.Partial := by
  obtain ⟨u, hread, htxn⟩ := bind_eq_ok.mp hok
  obtain ⟨rfl, hstatus, hwithhold, hlog, _, _⟩ := readUpsert_partial hread
  unfold PrivilegeUpsert.txn at htxn
  obtain ⟨⟨versions, db₁⟩, hprepare, htxn⟩ := bind_eq_ok.mp htxn
  obtain ⟨locks, rfl⟩ := (ReviewHandle.Guards.prepare_eq_ok (nodup_singleton _) hprepare).written
  obtain ⟨db₂, hwrite, htxn⟩ := ite_bind_eq_ok.mp htxn
  cases htxn
  cases hload : (db.guarded [u.itemId] locks).loadPrivilege h.matterId u.itemId with
  | some claim =>
    simp only [hload, isSome_some, if_true] at hwrite
    cases hwrite
    refine ⟨u.write (u.asserted (some claim)) claim, ?_, hstatus, hwithhold, hlog⟩
    exact (loadPrivilege_updatePrivilege (u.write (u.asserted (some claim))) fun claim => ⟨rfl,
      rfl⟩).trans (congrArg (Option.map _) hload)
  | none =>
    simp only [hload, isSome_none, Bool.false_eq_true, if_false] at hwrite
    refine ⟨u.row h.matterId (u.asserted none), ?_, hstatus, hwithhold, hlog⟩
    have hnew := loadPrivilege_insertPrivilege hload rfl rfl hwrite
    exact hnew

theorem hook_fails (hblocked : db.HookBlocked h itemId) {db' : ReviewDb} :
    applyPrivilegeRedactionHook h db itemId actor now ≠ .ok db' := by
  intro hok
  unfold applyPrivilegeRedactionHook at hok
  obtain ⟨existing, hexisting, hok⟩ := bind_eq_ok.mp hok
  obtain ⟨_, _, hexisting⟩ := bind_eq_ok.mp hexisting
  cases hexisting
  have hclaim : ¬ ∃ claim ∈ db.loadPrivilege h.matterId itemId, claim.Partial := by
    rintro ⟨claim, hmem, hpartial⟩
    exact hblocked.claim claim hmem hpartial
  rw [if_neg hclaim] at hok
  obtain ⟨u, hread, htxn⟩ := bind_eq_ok.mp hok
  obtain ⟨hitem, _, _, _, hversion, hguards⟩ := readUpsert_partial hread
  unfold PrivilegeUpsert.txn at htxn
  obtain ⟨⟨versions, db₁⟩, hprepare, htxn⟩ := bind_eq_ok.mp htxn
  by_cases hguarded : h.strictActor ∨ db.multiUserEnabled
  · -- a version is required of the hook, and it passes none
    have hactive : u.guards.active = true ∧ u.guards.requireExpected = true := by
      rw [hguards]
      unfold ReviewHandle.multiUserGuards
      rcases hguarded with hstrict | hmulti
      · simp [hstrict]
      · simp [hmulti]
    unfold ReviewHandle.Guards.prepare at hprepare
    rw [hversion, hactive.1, hactive.2] at hprepare
    exact prepareReviewMutates_unversioned hprepare
  · -- the item has a claim of another matter
    obtain ⟨hnone, hforeign⟩ : db.loadPrivilege h.matterId itemId = none
        ∧ itemId ∈ db.itemPrivilege.map ItemPrivilege.itemId := by
      rcases hblocked.guard with hstrict | hmulti | hforeign
      · exact absurd (.inl hstrict) hguarded
      · exact absurd (.inr hmulti) hguarded
      · exact hforeign
    obtain ⟨locks, rfl⟩ := (ReviewHandle.Guards.prepare_eq_ok (nodup_singleton _) hprepare).written
    obtain ⟨db₂, hwrite, _⟩ := ite_bind_eq_ok.mp htxn
    have hload : (db.guarded [u.itemId] locks).loadPrivilege h.matterId u.itemId = none := by
      rw [hitem]
      exact hnone
    simp only [hload, isSome_none, Bool.false_eq_true, if_false] at hwrite
    have hmem : (u.row h.matterId (u.asserted none)).itemId
        ∈ (db.guarded [u.itemId] locks).itemPrivilege.map ItemPrivilege.itemId := by
      show u.itemId ∈ _
      rw [hitem]
      exact hforeign
    unfold ReviewDb.insertPrivilege at hwrite
    rw [if_pos hmem] at hwrite
    cases hwrite

theorem prepare_succeeds {g : ReviewHandle.Guards} {matter : String} (actor now : String)
    (hactive : g.active = false) (hitem : db.toMatterDb.HasItem matter itemId) :
    ∃ result, g.prepare db [itemId] actor none now = .ok result := by
  obtain ⟨item, hmem, hid, _⟩ := hitem
  obtain ⟨found, hfound⟩ := Option.isSome_iff_exists.mp
    (isSome_rowAt.mpr (List.mem_map.mpr ⟨item, hmem, hid⟩) : (rowAt Item.id db.items itemId).isSome)
  have hbump : ∃ bumped, db.bumpReviewVersion itemId none false = .ok bumped := by
    unfold ReviewDb.bumpReviewVersion ReviewDb.getReviewVersion
    rw [hfound]
    exact ⟨_, rfl⟩
  obtain ⟨⟨version, db₁⟩, hbump⟩ := hbump
  unfold ReviewHandle.Guards.prepare
  rw [hactive]
  exact ⟨_, bind_eq_ok.mpr ⟨_, hbump, bind_eq_ok.mpr ⟨_, rfl, rfl⟩⟩⟩

theorem upsert_succeeds (hitem : db.toMatterDb.HasItem h.matterId itemId)
    (hstrict : h.strictActor = false) (hmulti : db.multiUserEnabled = false)
    (hforeign : ¬ (db.loadPrivilege h.matterId itemId = none ∧
      itemId ∈ db.itemPrivilege.map ItemPrivilege.itemId))
    (existing : Option ItemPrivilege) :
    ∃ db', upsertItemPrivilege h db (partialRedactionInput itemId actor existing) now = .ok db' := by
  have hread : ∃ u,
      readUpsertItemPrivilege h db (partialRedactionInput itemId actor existing) now = .ok u := by
    have hensure : db.ensureItemInMatter h.matterId itemId = .ok () :=
      MatterDb.ensureItemInMatter_eq_ok.mpr hitem
    have hbasis : ∃ basis,
        validateBasis (trim (partialRedactionInput itemId actor existing).basis) = .ok basis := by
      have htext : ∀ basis : PrivilegeBasis, validateBasis (trim basis.text) = .ok basis := by
        intro basis
        unfold validateBasis
        rw [trim_text_basis, PrivilegeBasis.parse_text]
      cases existing with
      | some claim => exact ⟨claim.basis, htext claim.basis⟩
      | none => exact ⟨.attorneyClient, htext .attorneyClient⟩
    obtain ⟨basis, hbasis⟩ := hbasis
    have hstatus : validateStatus (trim PrivilegeStatus.partialRedaction.text)
        = .ok .partialRedaction := by decide +kernel
    have hactor : h.resolveActorForMutate db actor = .ok (normalizeActor actor) := by
      unfold ReviewHandle.resolveActorForMutate
      rw [hstrict]
      rfl
    exact ⟨_, bind_eq_ok.mpr ⟨_, hensure, bind_eq_ok.mpr ⟨basis, hbasis, bind_eq_ok.mpr ⟨_, hstatus,
      bind_eq_ok.mpr ⟨_, hactor, rfl⟩⟩⟩⟩⟩
  obtain ⟨u, hread⟩ := hread
  obtain ⟨rfl, _, _, _, hversion, hguards⟩ := readUpsert_partial hread
  have hactive : u.guards.active = false := by
    rw [hguards]
    unfold ReviewHandle.multiUserGuards
    simp [hstrict, hmulti]
  obtain ⟨⟨versions, db₁⟩, hprepare⟩ := prepare_succeeds u.actor u.now hactive hitem
  obtain ⟨locks, rfl⟩ := (ReviewHandle.Guards.prepare_eq_ok (nodup_singleton _) hprepare).written
  rw [← hversion] at hprepare
  have hwrite : ∃ db₂, (if ((db.guarded [u.itemId] locks).loadPrivilege h.matterId u.itemId).isSome then
      pure ((db.guarded [u.itemId] locks).updatePrivilege h.matterId u.itemId
        (u.write (u.asserted ((db.guarded [u.itemId] locks).loadPrivilege h.matterId u.itemId))))
      else (db.guarded [u.itemId] locks).insertPrivilege
        (u.row h.matterId (u.asserted ((db.guarded [u.itemId] locks).loadPrivilege h.matterId u.itemId))))
        = Except.ok db₂ := by
    split
    · exact ⟨_, rfl⟩
    · rename_i hnone
      have hload : (db.guarded [u.itemId] locks).loadPrivilege h.matterId u.itemId
          = none := by simpa using hnone
      have hfresh : u.itemId ∉ db.itemPrivilege.map ItemPrivilege.itemId := fun hmem => hforeign ⟨hload, hmem⟩
      unfold ReviewDb.insertPrivilege
      exact ⟨_, if_neg hfresh⟩
  obtain ⟨db₂, hwrite⟩ := hwrite
  exact ⟨_, bind_eq_ok.mpr ⟨u, hread, bind_eq_ok.mpr ⟨_, hprepare, ite_bind_eq_ok.mpr ⟨db₂, hwrite, rfl⟩⟩⟩⟩

theorem hook_succeeds (actor now : String) (hitem : db.toMatterDb.HasItem h.matterId itemId)
    (hfree : ¬ db.HookBlocked h itemId) : ∃ db', applyPrivilegeRedactionHook h db itemId actor now = .ok db'
      ∧ ∃ claim, db'.loadPrivilege h.matterId itemId = some claim ∧ claim.Partial := by
  have hensure : db.ensureItemInMatter h.matterId itemId = .ok () :=
    MatterDb.ensureItemInMatter_eq_ok.mpr hitem
  have hexisting : db.getItemPrivilege h.matterId itemId = .ok (db.loadPrivilege h.matterId itemId) :=
    bind_eq_ok.mpr ⟨(), hensure, rfl⟩
  by_cases hclaim : ∃ claim ∈ db.loadPrivilege h.matterId itemId, claim.Partial
  · refine ⟨db, bind_eq_ok.mpr ⟨_, hexisting, ?_⟩, ?_⟩
    · rw [if_pos hclaim]
      rfl
    · obtain ⟨claim, hmem, hpartial⟩ := hclaim
      exact ⟨claim, hmem, hpartial⟩
  · have hopen : ¬ (h.strictActor ∨ db.multiUserEnabled
        ∨ db.loadPrivilege h.matterId itemId = none ∧ itemId ∈ db.itemPrivilege.map ItemPrivilege.itemId) :=
      fun hguard => hfree ⟨fun claim hmem hpartial => hclaim ⟨claim, hmem, hpartial⟩, hguard⟩
    simp only [not_or, Bool.not_eq_true] at hopen
    obtain ⟨hstrict, hmulti, hforeign⟩ := hopen
    obtain ⟨db', hok⟩ := upsert_succeeds hitem hstrict hmulti hforeign (db.loadPrivilege h.matterId itemId)
    refine ⟨db', bind_eq_ok.mpr ⟨_, hexisting, ?_⟩, partial_of_upsert hok⟩
    rw [if_neg hclaim]
    exact hok

end Hook

section Call

variable {h : ReviewHandle} {db : ReviewDb} {input : CreateRedactionInput} {newId now hookNow : String}

theorem createRedactionRow_of_accepted (haccepted : input.Accepted h.matterId db.toMatterDb)
    (newId now : String) :
    ∃ row, createRedactionRow h.matterId db.toMatterDb input newId now = .ok row := by
  obtain ⟨reason, hreason⟩ := haccepted.reason
  exact ⟨_, bind_eq_ok.mpr ⟨(), MatterDb.ensureItemInMatter_eq_ok.mpr haccepted.item,
    bind_eq_ok.mpr ⟨reason, hreason,
    bind_eq_ok.mpr ⟨(), haccepted.range, rfl⟩⟩⟩⟩

theorem accepted_of_createRedactionRow {row : ItemRedaction}
    (hrow : createRedactionRow h.matterId db.toMatterDb input newId now = .ok row) :
    input.Accepted h.matterId db.toMatterDb ∧ validateReason (trim input.reason) = .ok row.reason ∧
      row.id = newId
      ∧ row.itemId = input.itemId := by
  unfold createRedactionRow at hrow
  obtain ⟨_, hitem, hrow⟩ := bind_eq_ok.mp hrow
  obtain ⟨reason, hreason, hrow⟩ := bind_eq_ok.mp hrow
  obtain ⟨_, hrange, hrow⟩ := bind_eq_ok.mp hrow
  cases hrow
  exact ⟨⟨MatterDb.ensureItemInMatter_eq_ok.mp hitem, ⟨reason, hreason⟩, hrange⟩, hreason, rfl, rfl⟩

theorem validateReason_privilege {text : String} : validateReason text = .ok .privilege ↔
    text = "privilege" := by
  constructor
  · intro hok
    unfold validateReason RedactionReason.parse at hok
    split at hok
    · rename_i hparse
      split at hparse <;> cases hparse <;> cases hok
      rfl
    · cases hok
  · rintro rfl
    rfl

theorem insertRedaction_eq_ok {row : ItemRedaction} {actor : String} {db₁ : ReviewDb}
    (hok : db.insertRedaction h.matterId row actor now = .ok db₁) :
    row.id ∉ db.itemRedactions.map ItemRedaction.id ∧ db₁.itemRedactions = db.itemRedactions ++ [row]
      ∧ db₁.itemPrivilege = db.itemPrivilege ∧ db₁.multiUserEnabled = db.multiUserEnabled
      ∧ ∀ itemId, db.toMatterDb.HasItem h.matterId itemId → db₁.toMatterDb.HasItem h.matterId itemId := by
  obtain ⟨m, hm, hok⟩ := bind_eq_ok.mp hok
  cases hok
  unfold createRedactionTxn at hm
  split at hm
  · cases hm
  · rename_i hfresh
    cases hm
    refine ⟨hfresh, rfl, rfl, rfl, fun itemId hitem => ?_⟩
    obtain ⟨item, hmem, hid, hmatter⟩ := hitem
    refine ⟨_, MatterDb.mem_items_updateItem.mpr ⟨item, hmem, rfl⟩, ?_, ?_⟩
    · split <;> exact hid
    · split <;> exact hmatter

theorem hookBlocked_congr {db₁ : ReviewDb} {itemId : String}
    (hclaims : db₁.itemPrivilege = db.itemPrivilege)
    (hmulti : db₁.multiUserEnabled = db.multiUserEnabled) :
    db₁.HookBlocked h itemId ↔ db.HookBlocked h itemId := by
  have hload : db₁.loadPrivilege h.matterId itemId = db.loadPrivilege h.matterId itemId :=
    loadPrivilege_congr hclaims
  constructor
  · rintro ⟨hclaim, hguard⟩
    rw [hload] at hclaim hguard
    rw [hclaims, hmulti] at hguard
    exact ⟨hclaim, hguard⟩
  · rintro ⟨hclaim, hguard⟩
    rw [← hload] at hclaim hguard
    rw [← hclaims, ← hmulti] at hguard
    exact ⟨hclaim, hguard⟩

/-- **Redaction is atomic** unless an accepted redaction for privilege meets a hook that is
blocked. -/
theorem createRedaction_atomic_iff (h : ReviewHandle) (db : ReviewDb) (input : CreateRedactionInput)
    (newId now hookNow : String) :
    RedactionAtomic h db input.itemId (createRedaction h db input newId now hookNow) ↔
      ¬ (input.Accepted h.matterId db.toMatterDb ∧ newId ∉ db.itemRedactions.map ItemRedaction.id
        ∧ trim input.reason = "privilege" ∧ db.HookBlocked h input.itemId) := by
  have hkept : ∀ e : CallError, RedactionAtomic h db input.itemId (.error e, db) :=
    fun e => ⟨fun _ _ => ⟨rfl, rfl⟩, fun row hok => nomatch (hok : Except.error e = Except.ok row)⟩
  cases hrow : createRedactionRow h.matterId db.toMatterDb input newId now with
  | error e =>
    simp only [createRedaction, hrow]
    refine iff_of_true (hkept e) fun hreached => ?_
    obtain ⟨row, hok⟩ := createRedactionRow_of_accepted hreached.1 newId now
    rw [hrow] at hok
    cases hok
  | ok row =>
    obtain ⟨haccepted, hreason, hid, hitemId⟩ := accepted_of_createRedactionRow hrow
    cases hinsert : db.insertRedaction h.matterId row (normalizeActor input.actor) now with
    | error e =>
      simp only [createRedaction, hrow, hinsert]
      refine iff_of_true (hkept e) fun hreached => ?_
      obtain ⟨m, hm⟩ : ∃ m, createRedactionTxn h.matterId row db.toMatterDb = .ok m :=
        ⟨_, if_neg (hid ▸ hreached.2.1)⟩
      unfold ReviewDb.insertRedaction at hinsert
      rw [hm] at hinsert
      cases hinsert
    | ok db₁ =>
      obtain ⟨hfresh, hrows, hclaims, hmulti, hitems⟩ := insertRedaction_eq_ok hinsert
      by_cases hprivilege : row.reason = .privilege
      · have htext : trim input.reason = "privilege" := validateReason_privilege.mp (hprivilege ▸ hreason)
        by_cases hblocked : db.HookBlocked h input.itemId
        · -- the row is committed, and the hook fails
          refine iff_of_false (fun hatomic => ?_) fun hnot => hnot ⟨haccepted, hid ▸ hfresh, htext, hblocked⟩
          cases hhook :
            applyPrivilegeRedactionHook h db₁ input.itemId (normalizeActor input.actor) hookNow with
          | ok db₂ => exact hook_fails ((hookBlocked_congr hclaims hmulti).mpr hblocked) hhook
          | error e =>
            have hrun : createRedaction h db input newId now hookNow = (.error e, db₁) := by
              simp only [createRedaction, hrow, hinsert, if_pos hprivilege, hhook]
            rw [hrun] at hatomic
            have hsame := (hatomic.failed e rfl).1
            have hlength := congrArg (fun m : MatterDb => m.itemRedactions.length) hsame
            simp [hrows] at hlength
        · refine iff_of_true ?_ fun hreached => hblocked hreached.2.2.2
          obtain ⟨db₂, hhook, hpartial⟩ := hook_succeeds (normalizeActor input.actor) hookNow
            (hitems input.itemId haccepted.item) fun hb => hblocked ((hookBlocked_congr hclaims hmulti).mp hb)
          have hrun : createRedaction h db input newId now hookNow = (.ok row, db₂) := by
            simp only [createRedaction, hrow, hinsert, if_pos hprivilege, hhook]
          rw [hrun]
          exact ⟨nofun, fun _ _ _ => hpartial⟩
      · have hrun : createRedaction h db input newId now hookNow = (.ok row, db₁) := by
          simp only [createRedaction, hrow, hinsert, if_neg hprivilege]
        rw [hrun]
        refine iff_of_true ⟨nofun, fun found hfound hfor => ?_⟩ fun hreached => hprivilege ?_
        · cases hfound
          exact absurd hfor hprivilege
        · exact Except.ok.inj (hreason.symm.trans (validateReason_privilege.mpr hreached.2.2.1))

end Call

def sharedDocument : ReviewDb where
  items := [{ id := "d1", matterId := "m1" }]
  multiUserEnabled := true
  matterUsers := [⟨"u1", "Ann", .reviewer, "", none⟩, ⟨"u2", "Ben", .reviewer, "", none⟩]

def redactAdvice : CreateRedactionInput where
  itemId := "d1"
  startUtf8 := 0
  endUtf8 := 6
  exactQuote := "Advice"
  displayBody := "Advice of counsel"
  bodyDigest := "b1"
  reason := "privilege"
  actor := "u1"

/-- Its hook fails in a multi-user matter, and the row stays. -/
theorem createRedaction_broken_by_hook : ¬ RedactionAtomic ⟨"m1", false⟩ sharedDocument "d1"
    (createRedaction ⟨"m1", false⟩ sharedDocument redactAdvice "rdx1" "2026-01-05T09:00:00+00:00"
      "2026-01-05T09:00:00+00:00") := by
  intro hatomic
  have herror : (createRedaction ⟨"m1", false⟩ sharedDocument redactAdvice "rdx1" "2026-01-05T09:00:00+00:00"
      "2026-01-05T09:00:00+00:00").1 = .error (.other "expected_version is required for this mutate") := by
    decide +kernel
  have hrows : (createRedaction ⟨"m1", false⟩ sharedDocument redactAdvice "rdx1" "2026-01-05T09:00:00+00:00"
      "2026-01-05T09:00:00+00:00").2.itemRedactions.length = 1 := by
    decide +kernel
  have hsame := congrArg (fun m : MatterDb => m.itemRedactions.length) (hatomic.failed _ herror).1
  exact absurd (hrows.symm.trans hsame) (by decide)

end MatterCore
