import PstDedupe.Foundations.GuardedRuns
import PstDedupe.MatterCore.CodingSpecs
import PstDedupe.MatterCore.RedactionHook

/-!
# Holds and their cache (`item_is_withheld` of `matter-core/src/privilege.rs`)

`items.privilege_withhold` repeats whether the claim of an item holds it.
-/

namespace MatterCore

open Rust Foundations List

namespace ReviewDb

variable {expected : Option Int} {actor now : String} {itemIds : List String} {versions : List Int}
  {set : ItemPrivilege → ItemPrivilege}

/-- A claim withholds the item. -/
def Held (db : ReviewDb) (matter itemId : String) : Prop :=
  ∃ claim ∈ db.itemPrivilege, (claim.itemId = itemId ∧ claim.matterId = matter) ∧ claim.withhold = 1

instance (db : ReviewDb) (matter itemId : String) : Decidable (db.Held matter itemId) :=
  inferInstanceAs (Decidable (∃ claim ∈ db.itemPrivilege, _))

def itemIsWithheld (db : ReviewDb) (matter itemId : String) : Except CallError Bool := do
  db.ensureItemInMatter matter itemId
  return decide (0 < (db.itemPrivilege.filter fun claim =>
    (claim.itemId = itemId ∧ claim.matterId = matter) ∧ claim.withhold = 1).length)

/-- The column of every item says whether a claim withholds it. -/
structure HoldsCached (db : ReviewDb) (matter : String) : Prop where
  cache : ∀ item ∈ db.items, item.matterId = matter → (item.privilegeWithhold = 1 ↔ db.Held matter item.id)
  cleared : ∀ claim ∈ db.itemPrivilege, claim.status = .cleared → claim.withhold ≠ 1
  keyed : (db.itemPrivilege.map ItemPrivilege.itemId).Nodup

variable {db db' : ReviewDb} {matter itemId : String}

theorem itemIsWithheld_eq_ok {withheld : Bool} (h : db.itemIsWithheld matter itemId = .ok withheld) :
    withheld = true ↔ db.Held matter itemId := by
  obtain ⟨_, -, h⟩ := bind_eq_ok.mp h
  obtain rfl := Except.ok.inj h
  rw [decide_eq_true_eq, length_pos_iff_exists_mem]
  constructor
  · rintro ⟨claim, hclaim⟩
    obtain ⟨hmem, hhold⟩ := List.mem_filter.mp hclaim
    exact ⟨claim, hmem, of_decide_eq_true hhold⟩
  · rintro ⟨claim, hmem, hhold⟩
    exact ⟨claim, List.mem_filter.mpr ⟨hmem, decide_eq_true hhold⟩⟩

def cacheOf (item : Item) : String × String × Int := (item.id, item.matterId, item.privilegeWithhold)

/-- Neither claims nor caches have changed. -/
structure SameHolds (db db' : ReviewDb) : Prop where
  claims : db'.itemPrivilege = db.itemPrivilege
  caches : db'.items.map cacheOf = db.items.map cacheOf

theorem SameHolds.refl (db : ReviewDb) : SameHolds db db := ⟨rfl, rfl⟩

theorem SameHolds.trans {db'' : ReviewDb} (h : SameHolds db db') (h' : SameHolds db' db'') :
    SameHolds db db'' :=
  ⟨h'.claims.trans h.claims, h'.caches.trans h.caches⟩

theorem SameHolds.holdsCached (h : SameHolds db db') (hc : db.HoldsCached matter) :
    db'.HoldsCached matter := by
  obtain ⟨hclaims, hcaches⟩ := h
  refine ⟨fun item hitem hmatter => ?_, ?_, ?_⟩
  · have hmem : cacheOf item ∈ db.items.map cacheOf := hcaches ▸ mem_map_of_mem hitem
    obtain ⟨old, hold, heq⟩ := List.mem_map.mp hmem
    injection heq with hid heq
    injection heq with hm hcache
    have hagrees := hc.cache old hold (hm.trans hmatter)
    unfold Held at hagrees ⊢
    rw [hclaims, ← hcache, ← hid]
    exact hagrees
  · rw [hclaims]
    exact hc.cleared
  · rw [hclaims]
    exact hc.keyed

theorem sameHolds_onItems {set : Item → Item} (h : ∀ item, cacheOf (set item) = cacheOf item)
    (f : MatterDb → MatterDb) (hf : ∀ m : MatterDb, (f m).items = m.items.map set) :
    SameHolds db (db.onMatter f) := by
  refine ⟨rfl, ?_⟩
  show (f db.toMatterDb).items.map cacheOf = _
  rw [hf, map_map]
  exact map_congr_left fun item _ => h item

theorem sameHolds_bump {requireExpected : Bool} {version : Int}
    (h : db.bumpReviewVersion itemId expected requireExpected = .ok (version, db')) : SameHolds db db' := by
  unfold bumpReviewVersion at h
  split at h
  · cases h
  · split at h
    · cases h
    · split at h
      · cases h
      · cases h
        refine sameHolds_onItems (fun item => ?_) _ fun m => rfl
        split <;> rfl

theorem sameHolds_assertCanMutate {userId now : String} {enforce : Bool}
    (h : db.assertCanMutate itemId userId now enforce = .ok db') : SameHolds db db' := by
  have hlock : SameHolds db (db.activeLock itemId now).2 := by
    unfold activeLock
    split
    · exact SameHolds.refl db
    · split
      · exact ⟨rfl, rfl⟩
      · exact SameHolds.refl db
  unfold assertCanMutate at h
  split at h
  · split at h
    all_goals
      next hfound =>
        rw [hfound] at hlock
        repeat' split at h
        all_goals
          first
          | cases h; exact hlock
          | cases h
  · cases h
    exact SameHolds.refl db

theorem sameHolds_prepareReviewMutates {enforceLocks requireExpected : Bool}
    (h : prepareReviewMutates actor expected enforceLocks requireExpected now itemIds db = .ok
    (versions, db')) :
    SameHolds db db' := by
  induction itemIds generalizing db versions with
  | nil =>
    cases h
    exact SameHolds.refl _
  | cons itemId rest ih =>
    unfold prepareReviewMutates at h
    obtain ⟨db₁, hassert, h⟩ := bind_eq_ok.mp h
    obtain ⟨⟨version, db₂⟩, hbump, h⟩ := bind_eq_ok.mp h
    obtain ⟨⟨versions', db₃⟩, hrest, h⟩ := bind_eq_ok.mp h
    cases h
    exact ((sameHolds_assertCanMutate hassert).trans (sameHolds_bump hbump)).trans (ih hrest)

theorem sameHolds_bumpAll (h : bumpAll expected itemIds db = .ok (versions, db')) : SameHolds db db' := by
  induction itemIds generalizing db versions with
  | nil =>
    cases h
    exact SameHolds.refl _
  | cons itemId rest ih =>
    unfold bumpAll at h
    obtain ⟨⟨version, db₁⟩, hbump, h⟩ := bind_eq_ok.mp h
    obtain ⟨⟨versions', db₂⟩, hrest, h⟩ := bind_eq_ok.mp h
    cases h
    exact (sameHolds_bump hbump).trans (ih hrest)

theorem sameHolds_prepare {g : ReviewHandle.Guards}
    (h : g.prepare db itemIds actor expected now = .ok (versions, db')) : SameHolds db db' := by
  unfold ReviewHandle.Guards.prepare at h
  split at h
  · exact sameHolds_prepareReviewMutates h
  · exact sameHolds_bumpAll h

theorem held_updatePrivilege {withhold : Int}
    (hkey : ∀ claim, (set claim).itemId = claim.itemId ∧ (set claim).matterId = claim.matterId)
    (hset : ∀ claim, (set claim).withhold = withhold)
    (hsome : (db.loadPrivilege matter itemId).isSome) (other : String) :
    (db.updatePrivilege matter itemId set).Held matter other
      ↔ if other = itemId then withhold = 1 else db.Held matter other := by
  unfold Held updatePrivilege
  simp only [mem_map, exists_exists_and_eq_and]
  split
  next heq =>
    subst heq
    constructor
    · rintro ⟨claim, -, hkeys, hhold⟩
      split at hkeys
      next hclaim => rwa [if_pos hclaim, hset] at hhold
      next hclaim => exact absurd hkeys hclaim
    · intro hhold
      obtain ⟨claim, hclaim⟩ := Option.isSome_iff_exists.mp hsome
      have hfound := key_of_loadPrivilege hclaim
      refine ⟨claim, mem_of_find?_eq_some hclaim, ?_⟩
      rw [if_pos hfound, hset, (hkey claim).1, (hkey claim).2]
      exact ⟨hfound, hhold⟩
  next hne =>
    refine exists_congr fun claim => and_congr_right fun _ => ?_
    split
    next hclaim =>
      rw [(hkey claim).1, (hkey claim).2, hclaim.1]
      exact ⟨fun h => absurd h.1.1 (Ne.symm hne), fun h => absurd h.1.1 (Ne.symm hne)⟩
    next => exact Iff.rfl

theorem held_insertPrivilege {claim : ItemPrivilege} (hnone : db.loadPrivilege matter claim.itemId = none)
    (hmatter : claim.matterId = matter) (h : db.insertPrivilege claim = .ok db') (other : String) :
    db'.Held matter other ↔ if other = claim.itemId then claim.withhold = 1 else db.Held matter other := by
  unfold insertPrivilege at h
  split at h
  · cases h
  · cases h
    unfold Held
    simp only [mem_append, mem_singleton, or_and_right, exists_or, exists_eq_left]
    split
    next heq =>
      have hno : ¬ ∃ row ∈ db.itemPrivilege, (row.itemId = other ∧ row.matterId = matter) ∧
          row.withhold = 1 := by
        rintro ⟨row, hrow, hkeys, -⟩
        rw [heq] at hkeys
        exact List.find?_eq_none.mp hnone row hrow (decide_eq_true hkeys)
      rw [or_iff_right hno, heq]
      exact ⟨And.right, fun hhold => ⟨⟨rfl, hmatter⟩, hhold⟩⟩
    next hne => exact or_iff_left fun h => hne h.1.1.symm

theorem items_insertPrivilege {claim : ItemPrivilege} (h : db.insertPrivilege claim = .ok db') :
    db'.toMatterDb = db.toMatterDb ∧ db'.itemPrivilege = db.itemPrivilege ++ [claim] ∧
      claim.itemId ∉ db.itemPrivilege.map ItemPrivilege.itemId := by
  unfold insertPrivilege at h
  split at h
  next => cases h
  next hfresh =>
    cases h
    exact ⟨rfl, rfl, hfresh⟩

theorem HoldsCached.write {db₁ : ReviewDb} {withhold : Bool} (hc : db.HoldsCached matter)
    (hitems : db₁.toMatterDb = db.toMatterDb)
    (hheld : ∀ other, db₁.Held matter other ↔ if other = itemId then withhold = true else db.Held matter other)
    (hcleared : ∀ claim ∈ db₁.itemPrivilege, claim.status = .cleared → claim.withhold ≠ 1)
    (hkeyed : (db₁.itemPrivilege.map ItemPrivilege.itemId).Nodup) :
    (db₁.setItemWithholdCache matter itemId withhold).HoldsCached matter := by
  refine ⟨fun item hitem hmatter => ?_, hcleared, hkeyed⟩
  obtain ⟨old, hold, rfl⟩ := List.mem_map.mp hitem
  rw [hitems] at hold
  have hid : (if old.id = itemId ∧ old.matterId =
      matter then { old with privilegeWithhold := if withhold then 1 else 0 } else old).id
      = old.id := by split <;> rfl
  have hm : (if old.id = itemId ∧ old.matterId =
      matter then { old with privilegeWithhold := if withhold then 1 else 0 } else old).matterId
      = old.matterId := by split <;> rfl
  rw [hm] at hmatter
  rw [hid]
  show _ ↔ db₁.Held matter old.id
  rw [hheld old.id]
  by_cases heq : old.id = itemId
  · rw [if_pos ⟨heq, hmatter⟩, if_pos heq]
    show (if withhold = true then (1 : Int) else 0) = 1 ↔ withhold = true
    cases withhold <;> decide
  · rw [if_neg fun h => heq h.1, if_neg heq]
    exact hc.cache old hold hmatter

theorem keyed_updatePrivilege (hkey : ∀ claim, (set claim).itemId = claim.itemId) :
    (db.updatePrivilege matter itemId set).itemPrivilege.map ItemPrivilege.itemId
      = db.itemPrivilege.map ItemPrivilege.itemId := by
  refine map_key_map (fun claim => ?_) db.itemPrivilege
  split
  · exact hkey claim
  · rfl

theorem HoldsCached.update (hc : db.HoldsCached matter) (withhold : Int) (status : PrivilegeStatus)
    (hkey : ∀ claim, (set claim).itemId = claim.itemId ∧ (set claim).matterId = claim.matterId)
    (hset : ∀ claim, (set claim).withhold = withhold ∧ (set claim).status = status)
    (hstatus : status = .cleared → withhold ≠ 1) (hsome : (db.loadPrivilege matter itemId).isSome) :
    ((db.updatePrivilege matter itemId set).setItemWithholdCache matter itemId
    (withhold = 1)).HoldsCached matter := by
  refine hc.write rfl (fun other => ?_) (fun claim hclaim hclear => ?_) ?_
  · rw [held_updatePrivilege hkey (fun claim => (hset claim).1) hsome, decide_eq_true_eq]
  · obtain ⟨old, hold, rfl⟩ := List.mem_map.mp hclaim
    split at hclear
    next hmatch =>
      rw [if_pos hmatch, (hset old).1]
      exact hstatus ((hset old).2.symm.trans hclear)
    next hmatch =>
      rw [if_neg hmatch]
      exact hc.cleared old hold hclear
  · rw [keyed_updatePrivilege fun claim => (hkey claim).1]
    exact hc.keyed

theorem HoldsCached.insert (hc : db.HoldsCached matter) (claim : ItemPrivilege)
    (hmatter : claim.matterId = matter) (hnone : db.loadPrivilege matter claim.itemId = none)
    (hstatus : claim.status = .cleared → claim.withhold ≠ 1)
    (h : db.insertPrivilege claim = .ok db') :
    (db'.setItemWithholdCache matter claim.itemId (claim.withhold = 1)).HoldsCached matter := by
  obtain ⟨hitems, hclaims, hfresh⟩ := items_insertPrivilege h
  refine hc.write hitems (fun other => ?_) (fun row hrow => ?_) ?_
  · rw [held_insertPrivilege hnone hmatter h, decide_eq_true_eq]
  · rw [hclaims] at hrow
    rcases List.mem_append.mp hrow with hrow | hrow
    · exact hc.cleared row hrow
    · obtain rfl := List.mem_singleton.mp hrow
      exact hstatus
  · rw [hclaims, map_append, map_singleton]
    exact List.nodup_append.mpr ⟨hc.keyed, nodup_singleton _, fun a ha b hb => by
      obtain rfl := List.mem_singleton.mp hb
      exact fun heq => hfresh (heq ▸ ha)⟩

theorem HoldsCached.ensure (hc : db.HoldsCached matter) {changed : Bool}
    (h : db.ensureItemPrivilegeConn matter itemId actor now = .ok (changed, db')) :
    db'.HoldsCached matter := by
  unfold ensureItemPrivilegeConn at h
  split at h
  next claim hclaim =>
    split at h
    next hactive =>
      cases h
      -- the row stays as it is
      have hfound := key_of_loadPrivilege hclaim
      refine hc.write rfl (fun other => ?_) hc.cleared hc.keyed
      split
      next heq =>
        subst heq
        exact ⟨fun _ => rfl, fun _ => ⟨claim, mem_of_find?_eq_some hclaim, hfound, hactive.2.1⟩⟩
      next => exact Iff.rfl
    next =>
      cases h
      exact hc.update 1 .asserted (fun _ => ⟨rfl, rfl⟩) (fun _ => ⟨rfl, rfl⟩) nofun (by rw [hclaim]; rfl)
  next hnone =>
    split at h
    next db₁ hinsert =>
      cases h
      exact hc.insert ⟨itemId, matter, .attorneyClient, "", .asserted, 1, 1, some now, some actor,
        now, actor⟩ rfl hnone nofun
        hinsert
    next => cases h

theorem HoldsCached.softClear (hc : db.HoldsCached matter) :
    (db.softClearItemPrivilegeConn matter itemId actor now).2.HoldsCached matter := by
  unfold softClearItemPrivilegeConn
  split
  next hnone =>
    refine hc.write rfl (fun other => ?_) hc.cleared hc.keyed
    split
    next heq =>
      subst heq
      refine ⟨?_, nofun⟩
      rintro ⟨claim, hmem, hkeys, -⟩
      exact absurd (decide_eq_true hkeys) (List.find?_eq_none.mp hnone claim hmem)
    next => exact Iff.rfl
  next claim hclaim =>
    split
    next hcleared =>
      -- a cleared claim holds nothing
      have hfound := key_of_loadPrivilege hclaim
      refine hc.write rfl (fun other => ?_) hc.cleared hc.keyed
      split
      next heq =>
        subst heq
        refine ⟨?_, nofun⟩
        rintro ⟨row, hmem, hkeys, hhold⟩
        obtain rfl := inj_on_of_nodup_map hc.keyed hmem (mem_of_find?_eq_some hclaim)
          (hkeys.1.trans hfound.1.symm)
        exact absurd hhold (hc.cleared row hmem hcleared)
      next => exact Iff.rfl
    next =>
      exact hc.update 0 .cleared (fun _ => ⟨rfl, rfl⟩) (fun _ => ⟨rfl, rfl⟩) (fun _ => by decide)
        (by rw [hclaim]; rfl)

end ReviewDb

end MatterCore
