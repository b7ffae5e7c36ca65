import PstDedupe.Foundations.GuardedRuns
import PstDedupe.Foundations.KeyedRows
import PstDedupe.Foundations.Forests
import PstDedupe.MatterCore.Families

/-!
# The graph of families over runs

A child shares the family of its parent, nobody is above itself, and the count that a parent carries
is the number of its children.
-/

namespace MatterCore

open Rust Foundations List Option Function

namespace MatterDb

variable (db : MatterDb)

def itemAt (id : String) : Option Item := rowAt Item.id db.items id

def parentOf (id : String) : Option String := (db.itemAt id).bind Item.parentItemId

def familyOf (id : String) : Option String := (db.itemAt id).bind Item.familyId

def HasChildren (id : String) : Prop := ∃ child ∈ db.items, child.parentItemId = some id

end MatterDb

/-! ## Runs -/

inductive FamilyCall where
  | insert (input : ItemInput) (newId : String)
  | update (itemId : String) (update : ItemUpdate) (now : String)
  | setRole (itemId : String) (familyId : Option String) (role : String) (parentItemId : Option String)

structure FamilyHistory where
  db : MatterDb
  parents : List String := []
  /-- The items whose `attachment_count` was last set by a caller. -/
  explicit : List String := []

def movedParents (itemId : String) (oldParent newParent : Option String) : List String :=
  if oldParent = newParent then [] else oldParent.toList ++ newParent.toList.filter (· ≠ itemId)

/-- The parents that `set_item_family_role` recounts. -/
def linkedParents (oldParent newParent : Option String) : List String :=
  (if oldParent = newParent then [] else oldParent.toList) ++ newParent.toList

namespace FamilyHistory

def wrote (s : FamilyHistory) (db : MatterDb) (newParent : Option String)
    (set recounted : List String) : FamilyHistory :=
  { db := db
    parents := newParent.toList ++ s.parents
    explicit := (set ++ s.explicit).filter (· ∉ recounted) }

def step (matter : String) (s : FamilyHistory) : FamilyCall → FamilyHistory
  | .insert input newId =>
    match insertItem matter s.db input newId with
    | .ok (item, db) =>
      s.wrote db input.parentItemId (if input.attachmentCount.isSome then [item.id] else [])
        input.parentItemId.toList
    | .error _ => s
  | .update itemId update now =>
    match updateItem matter s.db itemId update now with
    | .ok (item, db) =>
      s.wrote db item.parentItemId (if update.attachmentCount.isSome then [itemId] else [])
        (movedParents itemId (s.db.parentOf itemId) item.parentItemId)
    | .error _ => s
  | .setRole itemId familyId role parentItemId =>
    match setItemFamilyRole matter s.db itemId familyId role parentItemId with
    | .ok (_, db) => s.wrote db parentItemId [] (linkedParents (s.db.parentOf itemId) parentItemId)
    | .error _ => s

/-- Parents are items, and the history knows them. -/
structure Recorded (s : FamilyHistory) : Prop where
  keyed : (s.db.items.map Item.id).Nodup
  known : ∀ child ∈ s.db.items, ∀ p, child.parentItemId = some p → p ∈ s.parents
  kept : ∀ p ∈ s.parents, p ∈ s.db.items.map Item.id

/-- Children are in the family of their parent, no item is below itself, and attachments are
counted. -/
structure FamilyGraph (s : FamilyHistory) : Prop where
  cohesive : ∀ child ∈ s.db.items, ∀ p, child.parentItemId = some p →
    ∃ fid, child.familyId = some fid ∧ s.db.familyOf p = some fid
  acyclic : Acyclic s.db.parentOf
  counted : ∀ item ∈ s.db.items, item.id ∈ s.parents → item.id ∉ s.explicit →
    item.attachmentCount = some (tally Item.parentItemId s.db.items item.id : Int)

end FamilyHistory

/-- The item is to be neither below itself nor, when it has children, in another family. -/
def MatterDb.KeepsGraph (db : MatterDb) (itemId : String) (newParent newFamily : Option String) : Prop :=
  (∀ p, newParent = some p → ¬ Climbs db.parentOf p itemId)
    ∧ (db.HasChildren itemId →
      (match newParent with | some p => db.familyOf p | none => newFamily) = db.familyOf itemId)

/-- The call is turned away by its checks on the parent and the family, or keeps the graph. -/
def FamilyCall.KeepsGraph (matter : String) (db : MatterDb) : FamilyCall → Prop
  | .insert _ _ => True
  | .update itemId changes _ =>
    ∀ current ∈ db.itemAt itemId, let newParent := applyOpt2 changes.parentItemId current.parentItemId
      let newFamily := applyOpt2 changes.familyId current.familyId
      (db.placeInFamily matter (newParent.filter (· ≠ itemId)) newFamily).isOk →
        db.KeepsGraph itemId newParent newFamily
  | .setRole itemId newFamily _ newParent =>
    (db.itemAt itemId).isSome → (db.placeInFamily matter newParent newFamily).isOk →
      db.KeepsGraph itemId newParent newFamily

/-! ## Recounts -/

namespace MatterDb

/-- The counts of the items `ps` are set to the numbers of their children. -/
def recount (db : MatterDb) (ps : List String) : MatterDb :=
  { db with items := db.items.map fun item =>
      if item.id ∈ ps then { item with attachmentCount := some (tally Item.parentItemId db.items item.id) } else item }

variable {db : MatterDb} {ps : List String}

theorem recount_nil : db.recount [] = db := by
  unfold recount
  simp

theorem recomputeAttachmentCount_eq (db : MatterDb) (p : String) :
    db.recomputeAttachmentCount p = db.recount [p] := by
  unfold recomputeAttachmentCount setItem recount
  congr 1
  refine map_congr_left fun item _ => ?_
  by_cases h : item.id = p <;> simp [h]

theorem tally_recount (db : MatterDb) (ps : List String) (a : String) :
    tally Item.parentItemId (db.recount ps).items a = tally Item.parentItemId db.items a := by
  unfold tally recount
  rw [countP_map]
  refine countP_congr fun item _ => ?_
  simp only [comp_apply]
  split <;> rfl

theorem recount_recount (db : MatterDb) (ps qs : List String) :
    (db.recount ps).recount qs = db.recount (ps ++ qs) := by
  have hcount := tally_recount db ps
  unfold recount at hcount ⊢
  rw [MatterDb.mk.injEq]
  refine ⟨?_, rfl, rfl, rfl⟩
  rw [List.map_map]
  refine map_congr_left fun item _ => ?_
  simp only [comp_apply, mem_append, hcount]
  by_cases hp : item.id ∈ ps <;> by_cases hq : item.id ∈ qs <;> simp [hp, hq]

theorem recountMoved_eq (db : MatterDb) (itemId : String) (oldParent newParent : Option String) :
    db.recountMoved itemId oldParent newParent = db.recount (movedParents itemId oldParent newParent) := by
  unfold recountMoved movedParents
  split
  · exact recount_nil.symm
  · rw [← recount_recount]
    cases oldParent <;> cases newParent
    all_goals simp only [toList_none, toList_some, filter_nil, recount_nil, recomputeAttachmentCount_eq]
    all_goals split
    all_goals simp_all [recount_nil]

theorem recountLinked_eq (db : MatterDb) (oldParent newParent : Option String) :
    db.recountLinked oldParent newParent = db.recount (linkedParents oldParent newParent) := by
  unfold recountLinked linkedParents
  rw [← recount_recount]
  cases newParent with
  | none =>
    rw [toList_none, recount_nil]
    split
    · exact recount_nil.symm
    · cases oldParent with
      | none => exact recount_nil.symm
      | some old => exact recomputeAttachmentCount_eq db old
  | some new =>
    simp only [recomputeAttachmentCount_eq]
    split
    · rw [recount_nil]
      rfl
    · cases oldParent with
      | none =>
        rw [toList_none, recount_nil]
        rfl
      | some old => rfl

end MatterDb

open MatterDb

/-! ## One item is rewritten -/

structure Rewrites (set : Item → Item) (current : Item) (parent family : Option String)
    (explicit : List String) :
    Prop where
  id : ∀ item, (set item).id = item.id
  parent : ∀ item, (set item).parentItemId = parent
  family : ∀ item, (set item).familyId = family
  count : current.id ∉ explicit → (set current).attachmentCount = current.attachmentCount

def RecountsParents (itemId : String) (oldParent newParent : Option String) (ps : List String) : Prop :=
  ∀ a, a ∉ ps → newParent ≠ some itemId → (oldParent = some a ↔ newParent = some a)

theorem recountsParents_moved (itemId : String) (oldParent newParent : Option String) :
    RecountsParents itemId oldParent newParent (movedParents itemId oldParent newParent) := by
  intro a ha hself
  unfold movedParents at ha
  split at ha
  · rename_i heq
    rw [heq]
  · rw [mem_append, not_or] at ha
    have hold : oldParent ≠ some a := fun h => ha.1 (Option.mem_toList.mpr h)
    have hnew : newParent ≠ some a := by
      intro h
      have hne : a ≠ itemId := fun heq => hself (h.trans (congrArg some heq))
      exact ha.2 (List.mem_filter.mpr ⟨Option.mem_toList.mpr h, decide_eq_true hne⟩)
    exact ⟨fun h => absurd h hold, fun h => absurd h hnew⟩

theorem recountsParents_linked (itemId : String) (oldParent newParent : Option String) :
    RecountsParents itemId oldParent newParent (linkedParents oldParent newParent) := by
  intro a ha _
  unfold linkedParents at ha
  rw [mem_append, not_or] at ha
  have hnew : newParent ≠ some a := fun h => ha.2 (Option.mem_toList.mpr h)
  split at ha
  · rename_i heq
    rw [heq]
  · have hold : oldParent ≠ some a := fun h => ha.1 (Option.mem_toList.mpr h)
    exact ⟨fun h => absurd h hold, fun h => absurd h hnew⟩

section Rewritten

variable {db db' : MatterDb} {itemId : String} {set : Item → Item} {current : Item}
  {parent family : Option String}
  {explicit ps : List String}

def rewriteRow (itemId : String) (set : Item → Item) (count : String → Nat) (ps : List String)
    (item : Item) : Item :=
  let item := if item.id = itemId then set item else item
  if item.id ∈ ps then { item with attachmentCount := some (count item.id) } else item

theorem items_rewritten (hdb : db'.items = ((db.setItem itemId set).recount ps).items) :
    db'.items = db.items.map
      (rewriteRow itemId set (tally Item.parentItemId (db.setItem itemId set).items) ps) := by
  rw [hdb]
  exact List.map_map

section Row

variable {count : String → Nat} {item : Item}

theorem id_rewriteRow (hset : ∀ item, (set item).id = item.id) (item : Item) :
    (rewriteRow itemId set count ps item).id = item.id := by
  unfold rewriteRow
  by_cases h : item.id = itemId <;> simp only [h, if_true, if_false]
  all_goals split
  all_goals simp [hset, h]

theorem parent_rewriteRow (item : Item) : (rewriteRow itemId set count ps item).parentItemId
    = if item.id = itemId then (set item).parentItemId else item.parentItemId := by
  unfold rewriteRow
  by_cases h : item.id = itemId <;> simp only [h, if_true, if_false]
  all_goals split <;> rfl

theorem family_rewriteRow (item : Item) : (rewriteRow itemId set count ps item).familyId
    = if item.id = itemId then (set item).familyId else item.familyId := by
  unfold rewriteRow
  by_cases h : item.id = itemId <;> simp only [h, if_true, if_false]
  all_goals split <;> rfl

theorem count_rewriteRow (hset : ∀ item, (set item).id = item.id) (item : Item) :
    (rewriteRow itemId set count ps item).attachmentCount
      = if item.id ∈ ps then some (count item.id : Int)
        else if item.id = itemId then (set item).attachmentCount else item.attachmentCount := by
  unfold rewriteRow
  by_cases h : item.id = itemId <;> simp only [h, if_true, if_false, hset]
  all_goals split <;> rfl

end Row

theorem parentOf_rewritten (hset : Rewrites set current parent family explicit)
    (hcur : db.itemAt itemId = some current)
    (hdb : db'.items = ((db.setItem itemId set).recount ps).items) :
    db'.parentOf = Function.update db.parentOf itemId parent := by
  funext a
  unfold parentOf itemAt
  rw [items_rewritten hdb, rowAt_map (id_rewriteRow hset.id)]
  by_cases ha : a = itemId
  · subst ha
    rw [show rowAt Item.id db.items a = some current from hcur, update_self]
    show (rewriteRow a set _ ps current).parentItemId = parent
    rw [parent_rewriteRow, if_pos (key_of_rowAt hcur), hset.parent]
  · rw [update_of_ne ha]
    cases hrow : rowAt Item.id db.items a with
    | none => rfl
    | some item =>
      show (rewriteRow itemId set _ ps item).parentItemId = item.parentItemId
      rw [parent_rewriteRow, if_neg (by rw [key_of_rowAt hrow]; exact ha)]

theorem familyOf_rewritten (hset : Rewrites set current parent family explicit)
    (hcur : db.itemAt itemId = some current)
    (hdb : db'.items = ((db.setItem itemId set).recount ps).items) :
    db'.familyOf = Function.update db.familyOf itemId family := by
  funext a
  unfold familyOf itemAt
  rw [items_rewritten hdb, rowAt_map (id_rewriteRow hset.id)]
  by_cases ha : a = itemId
  · subst ha
    rw [show rowAt Item.id db.items a = some current from hcur, update_self]
    show (rewriteRow a set _ ps current).familyId = family
    rw [family_rewriteRow, if_pos (key_of_rowAt hcur), hset.family]
  · rw [update_of_ne ha]
    cases hrow : rowAt Item.id db.items a with
    | none => rfl
    | some item =>
      show (rewriteRow itemId set _ ps item).familyId = item.familyId
      rw [family_rewriteRow, if_neg (by rw [key_of_rowAt hrow]; exact ha)]

theorem tally_rewritten (hkeyed : (db.items.map Item.id).Nodup)
    (hset : Rewrites set current parent family explicit) (hcur : db.itemAt itemId = some current)
    {a : String} (ha : current.parentItemId = some a ↔ parent = some a) :
    tally Item.parentItemId (db.setItem itemId set).items a = tally Item.parentItemId db.items a := by
  unfold tally setItem
  rw [countP_map]
  refine countP_congr fun item hitem => ?_
  simp only [comp_apply, decide_eq_true_eq]
  split
  · rename_i hid
    have heq : item = current := by
      have hrow := rowAt_of_mem hkeyed hitem
      rw [hid, show rowAt Item.id db.items itemId = some current from hcur] at hrow
      exact (Option.some.inj hrow).symm
    rw [heq, hset.parent]
    exact ha.symm
  · rfl

end Rewritten

namespace FamilyHistory

variable {s : FamilyHistory} {db' : MatterDb} {itemId : String} {set : Item → Item} {current : Item}
  {parent family newFamily : Option String} {explicit ps : List String}

theorem Recorded.parentOf_mem (h : Recorded s) {child : Item} (hchild : child ∈ s.db.items) :
    s.db.parentOf child.id = child.parentItemId := by
  unfold parentOf itemAt
  rw [rowAt_of_mem h.keyed hchild]
  rfl

theorem Recorded.rewritten (h : Recorded s) (hset : Rewrites set current parent family explicit)
    (hdb : db'.items = ((s.db.setItem itemId set).recount ps).items)
    (hparent : ∀ p, parent = some p → p ∈ s.db.items.map Item.id) :
    Recorded (s.wrote db' parent explicit ps) := by
  have hitems := items_rewritten hdb
  have hids : db'.items.map Item.id = s.db.items.map Item.id := by
    rw [hitems]
    exact map_key_map (id_rewriteRow hset.id) s.db.items
  refine ⟨?keyed, ?known, ?kept⟩
  case keyed =>
    show (db'.items.map Item.id).Nodup
    rw [hids]
    exact h.keyed
  case known =>
    intro child hchild p hp
    obtain ⟨old, hold, rfl⟩ := List.mem_map.mp (hitems ▸ hchild)
    rw [parent_rewriteRow] at hp
    split at hp
    · rw [hset.parent] at hp
      exact mem_append_left _ (Option.mem_toList.mpr hp)
    · exact mem_append_right _ (h.known old hold p hp)
  case kept =>
    intro p hp
    show p ∈ db'.items.map Item.id
    rw [hids]
    rcases List.mem_append.mp hp with hnew | hold
    · exact hparent p (Option.mem_toList.mp hnew)
    · exact h.kept p hold

structure Placed (db : MatterDb) (itemId : String) (parent newFamily family : Option String) : Prop where
  below : ∀ p, parent = some p → p ≠ itemId → ∃ fid, family = some fid ∧ db.familyOf p = some fid
  free : parent = none → family = newFamily

theorem FamilyGraph.rewritten_iff (hr : Recorded s) (h : FamilyGraph s)
    (hcur : s.db.itemAt itemId = some current) (hset : Rewrites set current parent family explicit)
    (hps : RecountsParents itemId current.parentItemId parent ps)
    (hdb : db'.items = ((s.db.setItem itemId set).recount ps).items)
    (hplaced : Placed s.db itemId parent newFamily family) :
    FamilyGraph (s.wrote db' parent explicit ps) ↔ s.db.KeepsGraph itemId parent newFamily := by
  have hitems := items_rewritten hdb
  have hlinks := parentOf_rewritten hset hcur hdb
  have hfamilies := familyOf_rewritten hset hcur hdb
  have hcurrent : current ∈ s.db.items := mem_of_rowAt hcur
  have hid : current.id = itemId := key_of_rowAt hcur
  -- a child of the item is another item
  have hchild_ne : ∀ child ∈ s.db.items, child.parentItemId = some itemId → child.id ≠ itemId := by
    intro child hchild hp
    exact h.acyclic.ne (by rw [hr.parentOf_mem hchild]; exact hp)
  have hacyclic : Acyclic db'.parentOf ↔ ∀ p, parent = some p → ¬ Climbs s.db.parentOf p itemId := by
    rw [hlinks]
    exact acyclic_update_iff h.acyclic itemId parent
  constructor
  · intro h'
    have hbelow := hacyclic.mp h'.acyclic
    refine ⟨hbelow, ?_⟩
    rintro ⟨child, hchild, hp⟩
    have hne := hchild_ne child hchild hp
    obtain ⟨fid, hfid, hfamily⟩ := h.cohesive child hchild itemId hp
    -- the child still has its family, so the item has that one
    obtain ⟨fid', hfid', hfamily'⟩ := h'.cohesive _ (hitems ▸ List.mem_map_of_mem hchild) itemId
      (by rw [parent_rewriteRow, if_neg hne]; exact hp)
    rw [family_rewriteRow, if_neg hne, hfid] at hfid'
    rw [show (s.wrote db' parent explicit ps).db.familyOf = _ from hfamilies, update_self, ← hfid'] at hfamily'
    cases parent with
    | none => exact (hplaced.free rfl).symm.trans (hfamily'.trans hfamily.symm)
    | some p =>
      have hpne : p ≠ itemId := by
        rintro rfl
        exact hbelow p rfl .refl
      obtain ⟨fid'', hfamily'', hp''⟩ := hplaced.below p rfl hpne
      exact (hp''.trans (hfamily''.symm.trans hfamily')).trans hfamily.symm
  · rintro ⟨hbelow, hfamily⟩
    have hpne : ∀ p, parent = some p → p ≠ itemId := by
      rintro p hp rfl
      exact hbelow p hp .refl
    refine ⟨?cohesive, hacyclic.mpr hbelow, ?counted⟩
    case cohesive =>
      intro child' hchild' p hp
      obtain ⟨child, hchild, rfl⟩ := List.mem_map.mp (hitems ▸ hchild')
      rw [parent_rewriteRow] at hp
      rw [family_rewriteRow, show (s.wrote db' parent explicit ps).db.familyOf = _ from hfamilies]
      by_cases hc : child.id = itemId
      · -- the item itself, below its new parent
        rw [if_pos hc, hset.parent] at hp
        rw [if_pos hc, hset.family, update_of_ne (hpne p hp)]
        exact hplaced.below p hp (hpne p hp)
      · rw [if_neg hc] at hp ⊢
        obtain ⟨fid, hfid, hof⟩ := h.cohesive child hchild p hp
        refine ⟨fid, hfid, ?_⟩
        by_cases hpi : p = itemId
        · -- a child of the item
          subst hpi
          have hkeep := hfamily ⟨child, hchild, hp⟩
          rw [update_self]
          cases hparent : parent with
          | none =>
            rw [hparent] at hkeep
            exact ((hplaced.free hparent).trans hkeep).trans hof
          | some q =>
            rw [hparent] at hkeep
            obtain ⟨fid', hfid', hq⟩ := hplaced.below q hparent (hpne q hparent)
            exact hfid'.trans (hq.symm.trans (hkeep.trans hof))
        · rw [update_of_ne hpi]
          exact hof
    case counted =>
      intro item' hitem' hparents hexplicit
      obtain ⟨item, hitem, rfl⟩ := List.mem_map.mp (hitems ▸ hitem')
      rw [id_rewriteRow hset.id] at hparents hexplicit ⊢
      rw [count_rewriteRow hset.id]
      have htally : tally Item.parentItemId db'.items item.id
          = tally Item.parentItemId (s.db.setItem itemId set).items item.id := by
        rw [show db'.items = _ from hdb]
        exact tally_recount _ ps item.id
      show _ = some (tally Item.parentItemId db'.items item.id : Int)
      rw [htally]
      by_cases hrecounted : item.id ∈ ps
      · rw [if_pos hrecounted]
      · rw [if_neg hrecounted]
        have hself : parent ≠ some itemId := fun hp => hpne itemId hp rfl
        have hsame := hps item.id hrecounted hself
        have hset' : item.id ∉ explicit ∧ item.id ∉ s.explicit := by
          rw [← not_or, ← mem_append]
          intro hmem
          exact hexplicit (List.mem_filter.mpr ⟨hmem, decide_eq_true hrecounted⟩)
        -- it was a parent before
        have hwas : item.id ∈ s.parents := by
          rcases List.mem_append.mp hparents with hnew | hold
          · exact hr.known current hcurrent item.id (hsame.mpr (Option.mem_toList.mp hnew))
          · exact hold
        rw [tally_rewritten hr.keyed hset hcur hsame, ← h.counted item hitem hwas hset'.2]
        by_cases hi : item.id = itemId
        · have heq : item = current := by
            have hrow := rowAt_of_mem hr.keyed hitem
            rw [hi, show rowAt Item.id s.db.items itemId = some current from hcur] at hrow
            exact (Option.some.inj hrow).symm
          rw [if_pos hi, heq]
          exact hset.count (by rw [← heq]; exact hset'.1)
        · rw [if_neg hi]

end FamilyHistory

/-! ## What the checks settle -/

section Checks

variable {matter itemId : String} {db : MatterDb} {parent newFamily family : Option String}

theorem resolveFamilyWithParent_eq_ok {item : Item} (h : resolveFamilyWithParent item newFamily = .ok family) :
    ∃ fid, family = some fid ∧ item.familyId = some fid := by
  unfold resolveFamilyWithParent at h
  cases newFamily with
  | none =>
    cases hitem : item.familyId with
    | none =>
      rw [hitem] at h
      cases h
    | some fid =>
      rw [hitem] at h
      exact ⟨fid, (Except.ok.inj h).symm, rfl⟩
  | some fid =>
    cases hitem : item.familyId with
    | none =>
      rw [hitem] at h
      cases h
    | some parentFid =>
      rw [hitem] at h
      simp only at h
      split at h
      · rename_i heq
        exact ⟨fid, (Except.ok.inj h).symm, congrArg some heq.symm⟩
      · cases h

theorem MatterDb.getItem_of_itemAt {item : Item} (h : db.itemAt itemId = some item) :
    db.getItem itemId = .ok item := by
  unfold getItem
  rw [show (db.items.find? fun item => item.id = itemId) = some item from h]

theorem MatterDb.getItem_of_none (h : db.itemAt itemId = none) :
    db.getItem itemId = .error (.itemNotFound itemId) := by
  unfold getItem
  rw [show (db.items.find? fun item => item.id = itemId) = none from h]

theorem MatterDb.placeInFamily_below {p : String}
    (h : db.placeInFamily matter (some p) newFamily = .ok family) :
    ∃ item fid, db.itemAt p = some item ∧ family = some fid ∧ item.familyId = some fid := by
  unfold placeInFamily at h
  obtain ⟨resolved, hresolved, h⟩ := bind_eq_ok.mp h
  obtain ⟨_, _, h⟩ := bind_eq_ok.mp h
  cases h
  unfold resolveParent at hresolved
  cases hitem : db.itemAt p with
  | none =>
    simp only [getItem_of_none hitem] at hresolved
    cases hresolved
  | some item =>
    simp only [getItem_of_itemAt hitem] at hresolved
    split at hresolved
    · cases hresolved
    · obtain ⟨fid, hfid, hfamily⟩ := resolveFamilyWithParent_eq_ok hresolved
      exact ⟨item, fid, rfl, hfid, hfamily⟩

theorem MatterDb.placeInFamily_free (h : db.placeInFamily matter none newFamily = .ok family) :
    family = newFamily := by
  unfold placeInFamily at h
  obtain ⟨resolved, hresolved, h⟩ := bind_eq_ok.mp h
  obtain ⟨_, _, h⟩ := bind_eq_ok.mp h
  cases h
  exact (Except.ok.inj hresolved).symm

theorem placed_of_placeInFamily (keep : String → Bool) (hkeep : ∀ p, p ≠ itemId → keep p = true)
    (h : db.placeInFamily matter (parent.filter keep) newFamily = .ok family) :
    FamilyHistory.Placed db itemId parent newFamily family where
  below := by
    rintro p rfl hne
    rw [filter_some_pos (hkeep p hne)] at h
    obtain ⟨item, fid, hitem, hfid, hfamily⟩ := placeInFamily_below h
    refine ⟨fid, hfid, ?_⟩
    unfold familyOf
    rw [hitem]
    exact hfamily
  free := by
    rintro rfl
    exact placeInFamily_free h

end Checks

/-! ## The steps -/

section Steps

variable {matter itemId : String} {db : MatterDb} {current : Item} {family : Option String}

theorem ItemUpdate.rewrites (changes : ItemUpdate) (current : Item) (family : Option String) :
    Rewrites (changes.write current family) current
      (applyOpt2 changes.parentItemId current.parentItemId) family
      (if changes.attachmentCount.isSome then [current.id] else []) where
  id _ := rfl
  parent _ := rfl
  family _ := rfl
  count hset := by
    show applyOpt2 changes.attachmentCount current.attachmentCount = current.attachmentCount
    cases hcount : changes.attachmentCount with
    | none => rfl
    | some v =>
      rw [hcount] at hset
      simp at hset

theorem Item.link_rewrites (family : Option String) (role : String) (parent : Option String)
    (current : Item) : Rewrites (Item.link family role parent) current parent family [] where
  id _ := rfl
  parent _ := rfl
  family _ := rfl
  count _ := rfl

theorem updateItem_of_placed {changes : ItemUpdate} (now : String)
    (hcur : db.itemAt itemId = some current) (hplace : db.placeInFamily matter
      ((applyOpt2 changes.parentItemId current.parentItemId).filter (· ≠ itemId))
      (applyOpt2 changes.familyId current.familyId) = .ok family) :
    ∃ item db', updateItem matter db itemId changes now = .ok (item, db')
      ∧ item.parentItemId = applyOpt2 changes.parentItemId current.parentItemId
      ∧ db'.items = ((db.setItem itemId (changes.write current family)).recount
          (movedParents itemId current.parentItemId (applyOpt2 changes.parentItemId current.parentItemId))).items := by
  -- the regions are another table
  have hstale : ∀ (db : MatterDb) (b : Bool) ps,
      ((if b then db.staleGeomRedactions matter itemId now else db).recount ps).items
        = (db.recount ps).items := by
    intro db b ps
    cases b <;> rfl
  let written := db.setItem itemId (changes.write current family)
  let changed := if changes.nativeSha256.any (· ≠ current.nativeSha256)
    then written.staleGeomRedactions matter itemId now else written
  let moved := changed.recountMoved itemId current.parentItemId
    (applyOpt2 changes.parentItemId current.parentItemId)
  have hitems : moved.items = (written.recount
      (movedParents itemId current.parentItemId (applyOpt2 changes.parentItemId current.parentItemId))).items := by
    show (changed.recountMoved _ _ _).items = _
    rw [recountMoved_eq]
    exact hstale written _ _
  have hset := changes.rewrites current family
  have hrow : moved.itemAt itemId = (db.itemAt itemId).map (rewriteRow itemId (changes.write current family)
      (tally Item.parentItemId written.items) (movedParents itemId current.parentItemId
        (applyOpt2 changes.parentItemId current.parentItemId))) := by
    unfold itemAt
    rw [items_rewritten hitems, rowAt_map (id_rewriteRow hset.id)]
  rw [hcur, map_some] at hrow
  refine ⟨rewriteRow itemId (changes.write current family) (tally Item.parentItemId written.items)
    (movedParents itemId current.parentItemId (applyOpt2 changes.parentItemId current.parentItemId)) current,
    moved, ?_, ?_, hitems⟩
  · unfold updateItem
    rw [getItem_of_itemAt hcur]
    show (db.placeInFamily _ _ _ >>= _) = _
    rw [hplace]
    show (moved.getItem itemId >>= _) = _
    rw [getItem_of_itemAt hrow]
    rfl
  · rw [parent_rewriteRow, if_pos (key_of_rowAt hcur)]
    rfl

theorem setItemFamilyRole_of_placed {newFamily newParent : Option String} (role : String)
    (hcur : db.itemAt itemId = some current)
    (hplace : db.placeInFamily matter newParent newFamily = .ok family) :
    ∃ item db', setItemFamilyRole matter db itemId newFamily role newParent = .ok (item, db')
      ∧ db'.items = ((db.setItem itemId (Item.link family role newParent)).recount
          (linkedParents current.parentItemId newParent)).items := by
  let written := db.setItem itemId (Item.link family role newParent)
  let linked := written.recountLinked current.parentItemId newParent
  let row := rewriteRow itemId (Item.link family role newParent)
    (tally Item.parentItemId written.items) (linkedParents current.parentItemId newParent)
  have hitems : linked.items = (written.recount (linkedParents current.parentItemId newParent)).items := by
    show (written.recountLinked _ _).items = _
    rw [recountLinked_eq]
  have hset := Item.link_rewrites family role newParent current
  have hrow : linked.itemAt itemId = (db.itemAt itemId).map row := by
    unfold itemAt
    rw [items_rewritten hitems, rowAt_map (id_rewriteRow hset.id)]
  rw [hcur, map_some] at hrow
  refine ⟨row current, linked, ?_, hitems⟩
  unfold setItemFamilyRole
  rw [getItem_of_itemAt hcur]
  show (db.placeInFamily _ _ _ >>= _) = _
  rw [hplace]
  show (linked.getItem itemId >>= _) = _
  rw [getItem_of_itemAt hrow]
  rfl

theorem updateItem_of_error {changes : ItemUpdate} {now : String} {e : CallError}
    (hcur : db.itemAt itemId = some current)
    (hplace : db.placeInFamily matter
      ((applyOpt2 changes.parentItemId current.parentItemId).filter (· ≠ itemId))
      (applyOpt2 changes.familyId current.familyId) = .error e) :
    updateItem matter db itemId changes now = .error e := by
  unfold updateItem
  rw [getItem_of_itemAt hcur]
  show (db.placeInFamily _ _ _ >>= _) = _
  rw [hplace]
  rfl

theorem setItemFamilyRole_of_error {newFamily newParent : Option String} {role : String}
    {e : CallError} (hcur : db.itemAt itemId = some current)
    (hplace : db.placeInFamily matter newParent newFamily = .error e) :
    setItemFamilyRole matter db itemId newFamily role newParent = .error e := by
  unfold setItemFamilyRole
  rw [getItem_of_itemAt hcur]
  show (db.placeInFamily _ _ _ >>= _) = _
  rw [hplace]
  rfl

end Steps

/-! ## An item is inserted -/

section Insert

variable {db : MatterDb} {ps : List String}

def recountRow (db : MatterDb) (ps : List String) (item : Item) : Item :=
  if item.id ∈ ps
    then { item with attachmentCount := some (tally Item.parentItemId db.items item.id) } else item

theorem items_recount : (db.recount ps).items = db.items.map (recountRow db ps) := rfl

theorem id_recountRow (item : Item) : (recountRow db ps item).id = item.id := by
  unfold recountRow
  split <;> rfl

theorem parent_recountRow (item : Item) : (recountRow db ps item).parentItemId = item.parentItemId := by
  unfold recountRow
  split <;> rfl

theorem family_recountRow (item : Item) : (recountRow db ps item).familyId = item.familyId := by
  unfold recountRow
  split <;> rfl

theorem parentOf_recount : (db.recount ps).parentOf = db.parentOf := by
  funext a
  unfold parentOf itemAt
  rw [items_recount, rowAt_map id_recountRow]
  cases rowAt Item.id db.items a with
  | none => rfl
  | some item => exact parent_recountRow item

theorem familyOf_recount : (db.recount ps).familyOf = db.familyOf := by
  funext a
  unfold familyOf itemAt
  rw [items_recount, rowAt_map id_recountRow]
  cases rowAt Item.id db.items a with
  | none => rfl
  | some item => exact family_recountRow item

theorem bind_rowAt_concat {column : Item → Option String} {row : Item}
    (hfresh : row.id ∉ db.items.map Item.id) :
    (fun a => (rowAt Item.id (db.items ++ [row]) a).bind column)
      = Function.update (fun a => (rowAt Item.id db.items a).bind column) row.id (column row) := by
  funext a
  rw [rowAt_concat]
  by_cases ha : a = row.id
  · subst ha
    rw [rowAt_eq_none.mpr hfresh, update_self, if_pos rfl]
    rfl
  · rw [update_of_ne ha, if_neg fun h => ha h.symm, or_none]

def MatterDb.withItem (db : MatterDb) (row : Item) : MatterDb :=
  ({ db with items := db.items ++ [row] } : MatterDb).recount row.parentItemId.toList

end Insert

namespace FamilyHistory

variable {s : FamilyHistory} {matter : String} {row : Item} {newFamily : Option String}
  {explicit : List String}
  {db : MatterDb} {input : ItemInput} {newId : String}


theorem Recorded.inserted (h : Recorded s) (hfresh : row.id ∉ s.db.items.map Item.id)
    (hplace : s.db.placeInFamily matter row.parentItemId newFamily = .ok row.familyId) :
    Recorded (s.wrote (s.db.withItem row) row.parentItemId explicit row.parentItemId.toList) := by
  have hids : (s.db.withItem row).items.map Item.id = s.db.items.map Item.id ++ [row.id] := by
    unfold withItem
    rw [items_recount, map_key_map id_recountRow, map_append]
    rfl
  refine ⟨?keyed, ?known, ?kept⟩
  case keyed =>
    show ((s.db.withItem row).items.map Item.id).Nodup
    rw [hids]
    exact List.nodup_append.mpr ⟨h.keyed, nodup_singleton _, fun a ha b hb heq =>
      hfresh (by rw [← List.mem_singleton.mp hb, ← heq]; exact ha)⟩
  case known =>
    intro child hchild p hp
    obtain ⟨old, hold, rfl⟩ := List.mem_map.mp hchild
    replace hp : (recountRow _ _ old).parentItemId = some p := hp
    rw [parent_recountRow] at hp
    rcases List.mem_append.mp hold with hold | hnew
    · exact mem_append_right _ (h.known old hold p hp)
    · rw [List.mem_singleton.mp hnew] at hp
      exact mem_append_left _ (Option.mem_toList.mpr hp)
  case kept =>
    intro p hp
    show p ∈ (s.db.withItem row).items.map Item.id
    rw [hids]
    rcases List.mem_append.mp hp with hnew | hold
    · rw [Option.mem_toList.mp hnew] at hplace
      obtain ⟨item, _, hitem, _⟩ := placeInFamily_below hplace
      exact mem_append_left _ (isSome_rowAt.mp (isSome_of_eq_some hitem))
    · exact mem_append_left _ (h.kept p hold)

theorem FamilyGraph.inserted (hr : Recorded s) (h : FamilyGraph s) (hfresh : row.id ∉ s.db.items.map Item.id)
    (hplace : s.db.placeInFamily matter row.parentItemId newFamily = .ok row.familyId) :
    FamilyGraph (s.wrote (s.db.withItem row) row.parentItemId explicit row.parentItemId.toList) := by
  have hlinks : (s.db.withItem row).parentOf
      = Function.update s.db.parentOf row.id row.parentItemId := by
    unfold withItem
    rw [parentOf_recount]
    exact bind_rowAt_concat hfresh
  have hfamilies : (s.db.withItem row).familyOf = Function.update s.db.familyOf row.id row.familyId := by
    unfold withItem
    rw [familyOf_recount]
    exact bind_rowAt_concat hfresh
  -- whoever has a family is there, so it is not the new item
  have hthere : ∀ p fid, s.db.familyOf p = some fid → p ≠ row.id := by
    rintro p fid hp rfl
    unfold familyOf itemAt at hp
    rw [rowAt_eq_none.mpr hfresh] at hp
    cases hp
  have hbelow : ∀ p, row.parentItemId = some p → ∃ fid, row.familyId = some fid ∧
      s.db.familyOf p = some fid := by
    intro p hp
    rw [hp] at hplace
    obtain ⟨item, fid, hitem, hfid, hfamily⟩ := placeInFamily_below hplace
    refine ⟨fid, hfid, ?_⟩
    unfold familyOf
    rw [hitem]
    exact hfamily
  refine ⟨?cohesive, ?acyclic, ?counted⟩
  case cohesive =>
    intro child' hchild' p hp
    obtain ⟨child, hchild, rfl⟩ := List.mem_map.mp hchild'
    replace hp : (recountRow _ _ child).parentItemId = some p := hp
    rw [parent_recountRow] at hp
    show ∃ fid, (recountRow _ _ child).familyId = some fid ∧ (s.db.withItem row).familyOf p = some fid
    rw [family_recountRow, hfamilies]
    have hold : ∃ fid, child.familyId = some fid ∧ s.db.familyOf p = some fid := by
      rcases List.mem_append.mp hchild with hold | hnew
      · exact h.cohesive child hold p hp
      · rw [List.mem_singleton.mp hnew] at hp ⊢
        exact hbelow p hp
    obtain ⟨fid, hfid, hof⟩ := hold
    exact ⟨fid, hfid, by rw [update_of_ne (hthere p fid hof)]; exact hof⟩
  case acyclic =>
    show Acyclic (s.db.withItem row).parentOf
    rw [hlinks, acyclic_update_iff h.acyclic]
    intro p hp
    obtain ⟨fid, _, hof⟩ := hbelow p hp
    refine not_climbs_of_no_children (hthere p fid hof) fun a ha => ?_
    -- nobody is below the new item
    unfold parentOf itemAt at ha
    obtain ⟨child, hchild, hparent⟩ := Option.bind_eq_some_iff.mp ha
    obtain ⟨fid', _, hof'⟩ := h.cohesive child (mem_of_rowAt hchild) row.id hparent
    exact hthere row.id fid' hof' rfl
  case counted =>
    intro item' hitem' hparents hexplicit
    obtain ⟨item, hitem, rfl⟩ := List.mem_map.mp hitem'
    replace hparents : (recountRow _ _ item).id ∈ row.parentItemId.toList ++ s.parents := hparents
    replace hexplicit :
      (recountRow _ _ item).id ∉ (explicit ++ s.explicit).filter (· ∉ row.parentItemId.toList) :=
      hexplicit
    show (recountRow _ _ item).attachmentCount
      = some (tally Item.parentItemId (s.db.withItem row).items (recountRow _ _ item).id : Int)
    unfold withItem
    rw [id_recountRow] at hparents hexplicit ⊢
    rw [tally_recount]
    unfold recountRow
    by_cases hcounted : item.id ∈ row.parentItemId.toList
    · rw [if_pos hcounted]
    · rw [if_neg hcounted]
      have hwas : item.id ∈ s.parents := (List.mem_append.mp hparents).resolve_left hcounted
      have hold : item ∈ s.db.items := by
        rcases List.mem_append.mp hitem with hold | hnew
        · exact hold
        · rw [List.mem_singleton.mp hnew] at hwas
          exact absurd (hr.kept row.id hwas) hfresh
      have hset : item.id ∉ s.explicit := fun hmem =>
        hexplicit (List.mem_filter.mpr ⟨mem_append_right _ hmem, decide_eq_true hcounted⟩)
      have hnone : ¬ row.parentItemId = some item.id := fun hp => hcounted (Option.mem_toList.mpr hp)
      rw [tally_concat, if_neg hnone]
      exact h.counted item hold hwas hset

/-! ## Steps and runs -/

theorem insertItem_of_placed {family : Option String} (hfresh : input.id.getD newId ∉ db.items.map Item.id)
    (hplace : db.placeInFamily matter input.parentItemId input.familyId = .ok family) :
    ∃ row item, insertItem matter db input newId = .ok (item, db.withItem row) ∧ item.id = row.id
      ∧ row.id = input.id.getD newId ∧ row.parentItemId = input.parentItemId ∧ row.familyId = family := by
  let row : Item := {
    id := input.id.getD newId, matterId := matter, familyId := family
    role := some (input.role.getD itemRoleStandalone)
    parentItemId := input.parentItemId, attachmentCount := input.attachmentCount
    nativeSha256 := input.nativeSha256, textSha256 := input.textSha256, htmlSha256 := input.htmlSha256 }
  have hwritten : (match input.parentItemId with
      | some parentId => ({ db with items := db.items ++ [row] } : MatterDb).recomputeAttachmentCount parentId
      | none => { db with items := db.items ++ [row] }) = db.withItem row := by
    show _ = ({ db with items := db.items ++ [row] } : MatterDb).recount input.parentItemId.toList
    cases input.parentItemId with
    | none => exact recount_nil.symm
    | some p => exact recomputeAttachmentCount_eq _ p
  let counted := recountRow { db with items := db.items ++ [row] } row.parentItemId.toList row
  have hat : (db.withItem row).itemAt row.id = some counted := by
    unfold withItem itemAt
    rw [items_recount, rowAt_map id_recountRow, rowAt_concat, rowAt_eq_none.mpr hfresh, if_pos rfl]
    rfl
  refine ⟨row, counted, ?_, id_recountRow row, rfl, rfl, rfl⟩
  unfold insertItem
  rw [hplace]
  show (if _ then _ else _) = _
  rw [if_neg hfresh]
  show (fun db' : MatterDb => db'.getItem row.id >>= fun item => pure (item, db'))
    (match input.parentItemId with
      | some parentId => ({ db with items := db.items ++ [row] } : MatterDb).recomputeAttachmentCount parentId
      | none => { db with items := db.items ++ [row] }) = _
  rw [hwritten]
  show ((db.withItem row).getItem row.id >>= _) = _
  rw [getItem_of_itemAt hat]
  rfl

theorem insertItem_of_not_placed {e : CallError}
    (hplace : db.placeInFamily matter input.parentItemId input.familyId = .error e) :
    insertItem matter db input newId = .error e := by
  unfold insertItem
  rw [hplace]
  rfl

theorem insertItem_of_taken {family : Option String} (htaken : input.id.getD newId ∈ db.items.map Item.id)
    (hplace : db.placeInFamily matter input.parentItemId input.familyId = .ok family) :
    insertItem matter db input newId = .error (.sqlite "UNIQUE constraint failed: items.id") := by
  unfold insertItem
  rw [hplace]
  show (if _ then _ else _) = _
  rw [if_pos htaken]
  rfl

inductive Stepped (matter : String) (s : FamilyHistory) (call : FamilyCall) : Prop where
  | unchanged (hstep : s.step matter call = s) (hkeeps : call.KeepsGraph matter s.db)
  | inserted (row : Item) (newFamily : Option String) (explicit : List String)
      (hfresh : row.id ∉ s.db.items.map Item.id)
      (hplace : s.db.placeInFamily matter row.parentItemId newFamily = .ok row.familyId)
      (hstep : s.step matter call = s.wrote (s.db.withItem row) row.parentItemId explicit
        row.parentItemId.toList)
      (hkeeps : call.KeepsGraph matter s.db)
  | rewritten (itemId : String) (set : Item → Item) (current : Item) (parent newFamily family : Option String)
      (explicit ps : List String) (db' : MatterDb) (hcur : s.db.itemAt itemId = some current)
      (hset : Rewrites set current parent family explicit)
      (hps : RecountsParents itemId current.parentItemId parent ps)
      (hdb : db'.items = ((s.db.setItem itemId set).recount ps).items)
      (hplaced : Placed s.db itemId parent newFamily family)
      (hthere : ∀ p, parent = some p → p ∈ s.db.items.map Item.id)
      (hstep : s.step matter call = s.wrote db' parent explicit ps)
      (hkeeps : call.KeepsGraph matter s.db ↔ s.db.KeepsGraph itemId parent newFamily)

theorem stepped_insert (matter : String) (s : FamilyHistory) (input : ItemInput) (newId : String) :
    Stepped matter s (.insert input newId) := by
  cases hplace : s.db.placeInFamily matter input.parentItemId input.familyId with
  | error e => exact .unchanged (by simp only [step, insertItem_of_not_placed hplace]) trivial
  | ok family =>
    by_cases hfresh : input.id.getD newId ∈ s.db.items.map Item.id
    · exact .unchanged (by simp only [step, insertItem_of_taken hfresh hplace]) trivial
    · obtain ⟨row, item, hok, _, hid, hparent, hfamily⟩ := insertItem_of_placed hfresh hplace
      refine .inserted row input.familyId (if input.attachmentCount.isSome then [item.id] else [])
        ?_ ?_ ?_ trivial
      · rw [hid]
        exact hfresh
      · rw [hparent, hfamily]
        exact hplace
      · simp only [step, hok, hparent]

theorem mem_of_placeInFamily {p : String} {newFamily family : Option String}
    (h : db.placeInFamily matter (some p) newFamily = .ok family) : p ∈ db.items.map Item.id := by
  obtain ⟨item, _, hitem, _⟩ := placeInFamily_below h
  exact isSome_rowAt.mp (isSome_of_eq_some hitem)

theorem stepped_update (matter : String) (s : FamilyHistory) (itemId : String)
    (changes : ItemUpdate) (now : String) :
    Stepped matter s (.update itemId changes now) := by
  cases hcur : s.db.itemAt itemId with
  | none =>
    refine .unchanged ?_ ?_
    · simp only [step, updateItem, getItem_of_none hcur]
      rfl
    · intro current hcurrent
      rw [hcur] at hcurrent
      cases hcurrent
  | some current =>
    let newParent := applyOpt2 changes.parentItemId current.parentItemId
    let newFamily := applyOpt2 changes.familyId current.familyId
    have hkeeps : (FamilyCall.update itemId changes now).KeepsGraph matter s.db
        ↔ ((s.db.placeInFamily matter (newParent.filter (· ≠ itemId)) newFamily).isOk →
          s.db.KeepsGraph itemId newParent newFamily) := by
      show (∀ current ∈ s.db.itemAt itemId, _) ↔ _
      rw [hcur]
      exact ⟨fun h => h current rfl, fun h current' hcurrent' => Option.some.inj hcurrent' ▸ h⟩
    cases hplace : s.db.placeInFamily matter (newParent.filter (· ≠ itemId)) newFamily with
    | error e =>
      rw [hplace] at hkeeps
      exact .unchanged (by simp only [step, updateItem_of_error hcur hplace]) (hkeeps.mpr nofun)
    | ok family =>
      obtain ⟨item, db', hok, hparent, hitems⟩ := updateItem_of_placed now hcur hplace
      have hset := changes.rewrites current family
      rw [key_of_rowAt hcur] at hset
      rw [hplace] at hkeeps
      refine .rewritten itemId _ current newParent newFamily family _ _ db' hcur hset
        (recountsParents_moved itemId current.parentItemId newParent) hitems
        (placed_of_placeInFamily _ (fun p hp => decide_eq_true hp) hplace) ?_ ?_
          (hkeeps.trans (forall_prop_of_true rfl))
      · intro p hp
        by_cases hself : p = itemId
        · rw [hself]
          exact isSome_rowAt.mp (isSome_of_eq_some hcur)
        · have hfilter : newParent.filter (· ≠ itemId) = some p := by
            rw [hp]
            exact filter_some_pos (decide_eq_true hself)
          rw [hfilter] at hplace
          exact mem_of_placeInFamily hplace
      · have hold : s.db.parentOf itemId = current.parentItemId := by
          unfold parentOf
          rw [hcur]
          rfl
        simp only [step, hok, hparent, hold]
        rfl

theorem stepped_setRole (matter : String) (s : FamilyHistory) (itemId : String)
    (newFamily : Option String) (role : String) (newParent : Option String) :
    Stepped matter s (.setRole itemId newFamily role newParent) := by
  cases hcur : s.db.itemAt itemId with
  | none =>
    refine .unchanged ?_ ?_
    · simp only [step, setItemFamilyRole, getItem_of_none hcur]
      rfl
    · intro hsome
      rw [hcur] at hsome
      cases hsome
  | some current =>
    have hkeeps : (FamilyCall.setRole itemId newFamily role newParent).KeepsGraph matter s.db
        ↔ ((s.db.placeInFamily matter newParent newFamily).isOk →
          s.db.KeepsGraph itemId newParent newFamily) := by
      show ((s.db.itemAt itemId).isSome → _) ↔ _
      rw [hcur]
      exact forall_prop_of_true rfl
    cases hplace : s.db.placeInFamily matter newParent newFamily with
    | error e =>
      rw [hplace] at hkeeps
      exact .unchanged (by simp only [step, setItemFamilyRole_of_error hcur hplace]) (hkeeps.mpr nofun)
    | ok family =>
      obtain ⟨item, db', hok, hitems⟩ := setItemFamilyRole_of_placed role hcur hplace
      rw [hplace] at hkeeps
      have hplaced : Placed s.db itemId newParent newFamily family := by
        have hall : newParent.filter (fun _ => true) = newParent := by cases newParent <;> rfl
        exact placed_of_placeInFamily (fun _ => true) (fun _ _ => rfl) (hall.symm ▸ hplace)
      refine .rewritten itemId _ current newParent newFamily family _ _ db' hcur
        (Item.link_rewrites family role newParent current)
        (recountsParents_linked itemId current.parentItemId newParent) hitems hplaced ?_ ?_
        (hkeeps.trans (forall_prop_of_true rfl))
      · rintro p rfl
        exact mem_of_placeInFamily hplace
      · have hold : s.db.parentOf itemId = current.parentItemId := by
          unfold parentOf
          rw [hcur]
          rfl
        simp only [step, hok, hold]

theorem stepped (matter : String) (s : FamilyHistory) (call : FamilyCall) : Stepped matter s call := by
  cases call with
  | insert input newId => exact stepped_insert matter s input newId
  | update itemId changes now => exact stepped_update matter s itemId changes now
  | setRole itemId familyId role parentItemId =>
    exact stepped_setRole matter s itemId familyId role parentItemId

theorem Recorded.step (h : Recorded s) (call : FamilyCall) : Recorded (s.step matter call) := by
  cases stepped matter s call with
  | unchanged hstep _ =>
    rw [hstep]
    exact h
  | inserted row newFamily explicit hfresh hplace hstep _ =>
    rw [hstep]
    exact h.inserted hfresh hplace
  | rewritten itemId set current parent newFamily family explicit ps db' _ hset _ hdb _ hthere hstep _ =>
    rw [hstep]
    exact h.rewritten hset hdb hthere

theorem FamilyGraph.step_iff (hr : Recorded s) (h : FamilyGraph s) (call : FamilyCall) :
    FamilyGraph (s.step matter call) ↔ call.KeepsGraph matter s.db := by
  cases stepped matter s call with
  | unchanged hstep hkeeps =>
    rw [hstep]
    exact ⟨fun _ => hkeeps, fun _ => h⟩
  | inserted row newFamily explicit hfresh hplace hstep hkeeps =>
    rw [hstep]
    exact ⟨fun _ => hkeeps, fun _ => h.inserted hr hfresh hplace⟩
  | rewritten itemId set current parent newFamily family explicit ps db' hcur hset hps hdb hplaced _
    hstep hkeeps =>
    rw [hstep, hkeeps]
    exact h.rewritten_iff hr hcur hset hps hdb hplaced

/-- **The family graph over runs.** -/
theorem familyGraph_iff_guarded (hr : Recorded s) (h : FamilyGraph s) (calls : List FamilyCall) :
    Along (step matter) FamilyGraph s calls
      ↔ Guarded (step matter) (fun s call => call.KeepsGraph matter s.db) s calls :=
  along_iff_guarded (fun _ call hr => hr.step call) (fun _ call hr h => h.step_iff hr call) hr h calls

def empty (families : List ItemFamily) : FamilyHistory := ⟨⟨[], [], [], families⟩, [], []⟩

theorem recorded_empty (families : List ItemFamily) : Recorded (empty families) where
  keyed := nodup_nil
  known _ hchild := absurd hchild not_mem_nil
  kept _ hp := absurd hp not_mem_nil

theorem familyGraph_empty (families : List ItemFamily) : FamilyGraph (empty families) where
  cohesive _ hchild := absurd hchild not_mem_nil
  acyclic := acyclic_of_forall_eq_none fun _ => rfl
  counted _ hitem := absurd hitem not_mem_nil

/-- A matter with two families, and a parent with a child in the first. -/
def twoFamilies : FamilyHistory := empty [⟨"f1", "m", "", ""⟩, ⟨"f2", "m", "", ""⟩]

def makePair : List FamilyCall :=
  [.insert { id := some "a", familyId := some "f1" } "i1",
    .insert { id := some "b", parentItemId := some "a" } "i2"]

theorem familyGraph_leavingChild :
    Along (step "m") FamilyGraph twoFamilies (makePair ++ [.setRole "b" (some "f2") "standalone" none]) := by
  refine (familyGraph_iff_guarded (recorded_empty _) (familyGraph_empty _) _).mpr
    ⟨trivial, trivial, ?_, trivial⟩
  intro _ _
  refine ⟨nofun, ?_⟩
  rintro ⟨child, hchild, hparent⟩
  have hnone : ∀ item ∈ (makePair.foldl (step "m") twoFamilies).db.items, item.parentItemId ≠ some "b" := by
    decide +kernel
  exact absurd hparent (hnone child hchild)

theorem familyGraph_broken_by_parent : ¬ Along (step "m") FamilyGraph twoFamilies
    (makePair ++ [.update "a" { familyId := some (some "f2") } "t"]) := by
  intro h
  let last := (makePair ++ [FamilyCall.update "a" { familyId := some (some "f2") } "t"]).foldl
    (step "m") twoFamilies
  have hbroken : ¬ ∀ child ∈ last.db.items, child.parentItemId = some "a" →
      child.familyId = last.db.familyOf "a" := by
    decide +kernel
  refine hbroken fun child hchild hparent => ?_
  obtain ⟨fid, hfid, hof⟩ := h.last.cohesive child hchild "a" hparent
  exact hfid.trans hof.symm

end FamilyHistory

end MatterCore
