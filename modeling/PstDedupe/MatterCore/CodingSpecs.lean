import PstDedupe.Foundations.Displacement
import PstDedupe.MatterCore.Coding
import PstDedupe.MatterCore.GuardSpecs

/-!
# What an application of codes leaves

An added single code displaces its group, an added multi code displaces nothing.
-/

namespace MatterCore

open Rust Foundations List

variable {db : ReviewDb}

namespace ReviewDb

def holds (db : ReviewDb) (itemId : String) : Set String :=
  {codeId | ∃ row ∈ db.itemCodes, row.itemId = itemId ∧ row.codeId = codeId}

def Clears (db : ReviewDb) (matter : String) (code : CodeDef) (codeId : String) : Prop :=
  code.cardinality = .single ∧ ∃ other ∈ db.codeDefinitions,
    other.id = codeId ∧ other.matterId = matter ∧ other.groupKey = code.groupKey ∧ other.id ≠ code.id

variable {db : ReviewDb} {matter itemId other now actor codeId : String} {code : CodeDef}

theorem holds_putCode : (db.putCode itemId codeId now actor).holds other
    = if other = itemId then insert codeId (db.holds other) else db.holds other := by
  unfold putCode
  split
  · -- the pair is there: its row is stamped anew
    rename_i hthere
    obtain ⟨row, hrow, hitem, hcode⟩ := hthere
    have hsame : holds { db with itemCodes := db.itemCodes.map fun row =>
        if row.itemId = itemId ∧ row.codeId = codeId then { row with setAt := now, setBy := actor } else row } other
          = db.holds other := by
      ext x
      show (∃ row ∈ db.itemCodes.map _, _) ↔ ∃ row ∈ db.itemCodes, _
      simp only [mem_map, exists_exists_and_eq_and]
      refine exists_congr fun row => and_congr_right fun _ => ?_
      split <;> rfl
    rw [hsame]
    split
    · rename_i heq
      have hmem : codeId ∈ db.holds other := ⟨row, hrow, hitem.trans heq.symm, hcode⟩
      exact (Set.insert_eq_of_mem hmem).symm
    · rfl
  · ext x
    have hrow : x ∈ holds { db with itemCodes := db.itemCodes ++ [⟨itemId, codeId, now, actor⟩] } other
        ↔ x ∈ db.holds other ∨ itemId = other ∧ codeId = x := by
      constructor
      · rintro ⟨row, hrow, hitem, hcode⟩
        rcases List.mem_append.mp hrow with hold | hnew
        · exact .inl ⟨row, hold, hitem, hcode⟩
        · rw [List.mem_singleton.mp hnew] at hitem hcode
          exact .inr ⟨hitem, hcode⟩
      · rintro (⟨row, hrow, hitem, hcode⟩ | ⟨hitem, hcode⟩)
        · exact ⟨row, mem_append_left _ hrow, hitem, hcode⟩
        · exact ⟨_, mem_append_right _ (mem_singleton_self _), hitem, hcode⟩
    rw [hrow]
    split
    · rename_i heq
      rw [Set.mem_insert_iff, or_comm]
      exact or_congr ⟨fun h => h.2.symm, fun h => ⟨heq.symm, h.symm⟩⟩ Iff.rfl
    · rename_i hne
      exact or_iff_left fun h => hne h.1.symm

theorem holds_clearGroup (hsingle : code.cardinality = .single) :
    (db.clearGroup matter itemId code).holds other
    = if other = itemId then {x | x ∈ db.holds other ∧ ¬ db.Clears matter code x} else db.holds other := by
  ext x
  show (∃ row ∈ db.itemCodes.filter _, _) ↔ _
  simp only [mem_filter, decide_eq_true_eq]
  split
  · rename_i heq
    subst heq
    constructor
    · rintro ⟨row, ⟨hrow, hkept⟩, hitem, rfl⟩
      exact ⟨⟨row, hrow, hitem, rfl⟩, fun hclears => hkept ⟨hitem, hclears.2⟩⟩
    · rintro ⟨⟨row, hrow, hitem, rfl⟩, hnot⟩
      exact ⟨row, ⟨hrow, fun h => hnot ⟨hsingle, h.2⟩⟩, hitem, rfl⟩
  · rename_i hne
    constructor
    · rintro ⟨row, ⟨hrow, _⟩, hitem, hcode⟩
      exact ⟨row, hrow, hitem, hcode⟩
    · rintro ⟨row, hrow, hitem, hcode⟩
      exact ⟨row, ⟨hrow, fun h => hne (hitem.symm.trans h.1)⟩, hitem, hcode⟩

@[simp] theorem codeDefinitions_addCode :
    (db.addCode matter itemId now actor code).codeDefinitions = db.codeDefinitions := by
  unfold addCode putCode
  split <;> split <;> rfl

theorem holds_addCode : (db.addCode matter itemId now actor code).holds other
    = if other = itemId then put CodeDef.id (db.Clears matter) (db.holds other) code else db.holds other := by
  unfold addCode
  rw [holds_putCode]
  by_cases hsingle : code.cardinality = .single
  · rw [if_pos hsingle, holds_clearGroup hsingle]
    split <;> rfl
  · rw [if_neg hsingle]
    split
    · -- a multi code clears nothing
      show insert code.id (db.holds other)
        = insert code.id {x | x ∈ db.holds other ∧ ¬ db.Clears matter code x}
      congr 1
      exact Set.ext fun x => (and_iff_left fun h => hsingle h.1).symm
    · rfl

theorem holds_removeCode : (db.removeCode itemId code).holds other
    = if other = itemId then {x | x ∈ db.holds other ∧ x ≠ code.id} else db.holds other := by
  ext x
  show (∃ row ∈ db.itemCodes.filter _, _) ↔ _
  simp only [mem_filter, decide_eq_true_eq]
  split
  · rename_i heq
    subst heq
    constructor
    · rintro ⟨row, ⟨hrow, hkept⟩, hitem, rfl⟩
      exact ⟨⟨row, hrow, hitem, rfl⟩, fun hcode => hkept ⟨hitem, hcode⟩⟩
    · rintro ⟨⟨row, hrow, hitem, rfl⟩, hne⟩
      exact ⟨row, ⟨hrow, fun h => hne h.2⟩, hitem, rfl⟩
  · rename_i hne
    constructor
    · rintro ⟨row, ⟨hrow, _⟩, hitem, hcode⟩
      exact ⟨row, hrow, hitem, hcode⟩
    · rintro ⟨row, hrow, hitem, hcode⟩
      exact ⟨row, ⟨hrow, fun h => hne (hitem.symm.trans h.1)⟩, hitem, hcode⟩

end ReviewDb

def CodesApply.chosen (c : CodesApply) (clears : CodeDef → String → Prop) (held : Set String) : Set String :=
  {x | x ∈ c.addDefs.foldl (put CodeDef.id clears) held ∧ ∀ code ∈ c.removeDefs, x ≠ code.id}

namespace CodesApply

variable {c : CodesApply} {db db' : ReviewDb} {matter itemId other : String}

theorem applyTo_eq (c : CodesApply) (matter : String) (db : ReviewDb) (itemId : String) :
    ∃ codes, c.applyTo matter db itemId = { db with itemCodes := codes } := by
  have hfold : ∀ (step : ReviewDb → CodeDef → ReviewDb),
      (∀ db code, ∃ codes, step db code = { db with itemCodes := codes }) →
      ∀ (list : List CodeDef) (db : ReviewDb), ∃ codes,
        list.foldl step db = { db with itemCodes := codes } := by
    intro step hstep list
    induction list with
    | nil => exact fun db => ⟨db.itemCodes, rfl⟩
    | cons code list ih =>
      intro db
      obtain ⟨codes₁, h₁⟩ := hstep db code
      obtain ⟨codes₂, h₂⟩ := ih (step db code)
      refine ⟨codes₂, ?_⟩
      rw [foldl_cons, h₂, h₁]
  have hadd : ∀ (db : ReviewDb) (code : CodeDef), ∃ codes,
      db.addCode matter itemId c.now c.actor code = { db with itemCodes := codes } := by
    intro db code
    unfold ReviewDb.addCode ReviewDb.putCode
    split <;> split <;> exact ⟨_, rfl⟩
  obtain ⟨added, hadded⟩ := hfold _ hadd c.addDefs db
  obtain ⟨removed, hremoved⟩ :=
    hfold (fun db code => db.removeCode itemId code) (fun db code => ⟨_, rfl⟩) c.removeDefs
    (c.addDefs.foldl (fun db code => db.addCode matter itemId c.now c.actor code) db)
  refine ⟨removed, hremoved.trans ?_⟩
  rw [hadded]

theorem codeDefinitions_applyTo : (c.applyTo matter db itemId).codeDefinitions = db.codeDefinitions := by
  obtain ⟨codes, h⟩ := applyTo_eq c matter db itemId
  rw [h]

theorem itemPrivilege_applyTo : (c.applyTo matter db itemId).itemPrivilege = db.itemPrivilege := by
  obtain ⟨codes, h⟩ := applyTo_eq c matter db itemId
  rw [h]

theorem holds_applyTo : (c.applyTo matter db itemId).holds other
    = if other = itemId then c.chosen (db.Clears matter) (db.holds other) else db.holds other := by
  have hremoves : ∀ (removes : List CodeDef) (db : ReviewDb),
      (removes.foldl (fun db code => db.removeCode itemId code) db).holds other
        = if other = itemId then {x | x ∈ db.holds other ∧ ∀ code ∈ removes, x ≠ code.id}
          else db.holds other := by
    intro removes
    induction removes with
    | nil =>
      intro db
      split
      · exact Set.ext fun x => (and_iff_left nofun).symm
      · rfl
    | cons code removes ih =>
      intro db
      rw [foldl_cons, ih, ReviewDb.holds_removeCode]
      split
      · ext x
        show (x ∈ db.holds other ∧ x ≠ code.id) ∧ (∀ code ∈ removes, x ≠ code.id)
          ↔ x ∈ db.holds other ∧ ∀ code' ∈ code :: removes, x ≠ code'.id
        rw [forall_mem_cons, and_assoc]
      · rfl
  have hadds : ∀ (adds : List CodeDef) (db₁ : ReviewDb), db₁.codeDefinitions = db.codeDefinitions →
      (adds.foldl (fun db code => db.addCode matter itemId c.now c.actor code) db₁).holds other
        = if other = itemId then adds.foldl (put CodeDef.id (db.Clears matter)) (db₁.holds other)
          else db₁.holds other := by
    intro adds
    induction adds with
    | nil =>
      intro db₁ _
      exact (ite_self _).symm
    | cons code adds ih =>
      intro db₁ hdefs
      have hclears : db₁.Clears matter = db.Clears matter := by
        unfold ReviewDb.Clears
        rw [hdefs]
      rw [foldl_cons, ih _ (ReviewDb.codeDefinitions_addCode.trans hdefs), ReviewDb.holds_addCode,
        hclears, foldl_cons]
      split <;> rfl
  unfold applyTo
  rw [hremoves, hadds c.addDefs db rfl]
  split <;> rfl

theorem ensurePrivilege_frame {changes changes' : PrivilegeChanges}
    (h : c.ensurePrivilege matter itemId changes db = .ok (changes', db')) :
    db'.itemCodes = db.itemCodes ∧ db'.codeDefinitions = db.codeDefinitions := by
  unfold ensurePrivilege at h
  split at h
  · split at h
    · rename_i hok
      cases h
      unfold ReviewDb.ensureItemPrivilegeConn at hok
      split at hok
      · split at hok <;> cases hok <;> exact ⟨rfl, rfl⟩
      · split at hok
        · rename_i hinsert
          cases hok
          unfold ReviewDb.insertPrivilege at hinsert
          split at hinsert
          · cases hinsert
          · cases hinsert
            exact ⟨rfl, rfl⟩
        · cases hok
    · cases h
  · cases h
    exact ⟨rfl, rfl⟩

theorem clearPrivilege_frame {changes : PrivilegeChanges} :
    (c.clearPrivilege matter itemId changes db).2.itemCodes = db.itemCodes
      ∧ (c.clearPrivilege matter itemId changes db).2.codeDefinitions = db.codeDefinitions := by
  unfold clearPrivilege ReviewDb.softClearItemPrivilegeConn
  split
  · simp only
    split
    · exact ⟨rfl, rfl⟩
    · split <;> exact ⟨rfl, rfl⟩
  · exact ⟨rfl, rfl⟩

theorem holds_congr {db₁ db₂ : ReviewDb} (h : db₁.itemCodes = db₂.itemCodes) (itemId : String) :
    db₁.holds itemId = db₂.holds itemId := by
  unfold ReviewDb.holds
  rw [h]

theorem holds_applyAll {targets : List String} (hnodup : targets.Nodup) {changes changes' : PrivilegeChanges}
    (h : c.applyAll matter targets changes db = .ok (changes', db')) : db'.codeDefinitions = db.codeDefinitions
      ∧ ∀ other, db'.holds other
        = if other ∈ targets then c.chosen (db.Clears matter) (db.holds other) else db.holds other := by
  induction targets generalizing changes db with
  | nil =>
    cases h
    exact ⟨rfl, fun _ => rfl⟩
  | cons itemId rest ih =>
    rw [nodup_cons] at hnodup
    unfold applyAll at h
    obtain ⟨⟨changes₁, db₁⟩, hensure, h⟩ := bind_eq_ok.mp h
    obtain ⟨hcodes₁, hdefs₁⟩ := ensurePrivilege_frame hensure
    let db₂ := (c.clearPrivilege matter itemId changes₁ db₁).2
    have hcodes₂ : db₂.itemCodes = (c.applyTo matter db itemId).itemCodes :=
      clearPrivilege_frame.1.trans hcodes₁
    have hdefs₂ : db₂.codeDefinitions = db.codeDefinitions :=
      (clearPrivilege_frame.2.trans hdefs₁).trans codeDefinitions_applyTo
    have hclears : db₂.Clears matter = db.Clears matter := by
      unfold ReviewDb.Clears
      rw [hdefs₂]
    have hrest : c.applyAll matter rest (c.clearPrivilege matter itemId changes₁ db₁).1 db₂
        = .ok (changes', db') := h
    obtain ⟨hdefs, hholds⟩ := ih hnodup.2 hrest
    refine ⟨hdefs.trans hdefs₂, fun other => ?_⟩
    rw [hholds other, hclears, holds_congr hcodes₂ other, holds_applyTo]
    by_cases hother : other = itemId
    · subst hother
      rw [if_neg hnodup.1, if_pos rfl, if_pos mem_cons_self]
    · rw [if_neg hother]
      by_cases hrest : other ∈ rest
      · rw [if_pos hrest, if_pos (mem_cons_of_mem _ hrest)]
      · rw [if_neg hrest, if_neg (fun hmem => (List.mem_cons.mp hmem).elim hother hrest)]

theorem holds_txn {r : ApplyCodesResult} (hnodup : c.targets.Nodup) (h : c.txn matter db = .ok (r, db')) :
    r.targetItemIds = c.targets ∧ db'.codeDefinitions = db.codeDefinitions ∧ ∀ other, db'.holds other
      = if other ∈ c.targets then c.chosen (db.Clears matter) (db.holds other) else db.holds other := by
  unfold txn at h
  obtain ⟨⟨versions, db₁⟩, hprepare, h⟩ := bind_eq_ok.mp h
  obtain ⟨locks, rfl⟩ := (ReviewHandle.Guards.prepare_eq_ok hnodup hprepare).written
  obtain ⟨⟨changes, db₂⟩, happly, h⟩ := bind_eq_ok.mp h
  obtain ⟨hdefs, hholds⟩ := holds_applyAll hnodup happly
  have haudit : ∀ (db : ReviewDb) (action : String) (ids : List String),
      (db.auditPrivilegeBatch c.actor action ids c.now).itemCodes = db.itemCodes
        ∧ (db.auditPrivilegeBatch c.actor action ids c.now).codeDefinitions = db.codeDefinitions := by
    intro db action ids
    unfold ReviewDb.auditPrivilegeBatch
    split <;> exact ⟨rfl, rfl⟩
  cases h
  refine ⟨rfl, ?_, fun other => ?_⟩
  · rw [(haudit _ _ _).2, (haudit _ _ _).2]
    exact hdefs
  · rw [holds_congr ((haudit _ _ _).1.trans (haudit _ _ _).1)]
    exact hholds other

end CodesApply

structure Resolved (db : ReviewDb) (matter : String) (ids : List String) (defs : List CodeDef) : Prop where
  mem : ∀ code ∈ defs, code ∈ db.codeDefinitions ∧ code.matterId = matter
  ids : ∀ id, id ∈ ids ↔ id ∈ defs.map CodeDef.id

theorem resolveCodes_eq_ok {matter : String} {ids : List String} {defs : List CodeDef}
    (h : db.resolveCodes matter ids = .ok defs) : Resolved db matter ids defs := by
  have hall := mapM_eq_ok_iff.mp h
  have hone : ∀ id code, (do
      let code ← db.getCodeDefinition id
      if code.matterId ≠ matter then throw (.other s!"code definition {id} belongs to another matter")
      return code) = Except.ok code → code ∈ db.codeDefinitions ∧ code.matterId = matter ∧ code.id = id := by
    intro id code hok
    obtain ⟨found, hfound, hok⟩ := bind_eq_ok.mp hok
    unfold ReviewDb.getCodeDefinition at hfound
    split at hfound
    · rename_i hrow
      cases hfound
      split at hok
      · cases hok
      · rename_i hmatter
        cases hok
        exact ⟨mem_of_rowAt hrow, not_not.mp hmatter, key_of_rowAt hrow⟩
    · cases hfound
  refine ⟨fun code hcode => ?_, fun id => ⟨fun hid => ?_, fun hid => ?_⟩⟩
  · obtain ⟨id, _, hok⟩ := exists_left_of_forall₂ hall hcode
    exact ⟨(hone id code hok).1, (hone id code hok).2.1⟩
  · obtain ⟨code, hcode, hok⟩ := exists_right_of_forall₂ hall hid
    exact List.mem_map.mpr ⟨code, hcode, (hone id code hok).2.2⟩
  · obtain ⟨code, hcode, rfl⟩ := List.mem_map.mp hid
    obtain ⟨id, hid, hok⟩ := exists_left_of_forall₂ hall hcode
    rw [(hone id code hok).2.2]
    exact hid

theorem Resolved.sorted {matter : String} {ids : List String} {defs : List CodeDef}
    (h : Resolved db matter ids defs) : Resolved db matter ids (sortBy compareCodes defs) where
  mem code hcode := h.mem code ((sortBy_perm compareCodes defs).mem_iff.mp hcode)
  ids id := (h.ids id).trans ((sortBy_perm compareCodes defs).map CodeDef.id).mem_iff.symm

theorem singles_of_checkSingles {adds : List CodeDef} (h : checkSingles adds = .ok ())
    {a b : CodeDef} (ha : a ∈ adds) (hb : b ∈ adds) (hsa : a.cardinality = .single)
    (hsb : b.cardinality = .single) (hgroup : a.groupKey = b.groupKey) :
    a.id = b.id := by
  have hkeep : ∀ (codes entry : List CodeDef), ∃ more, codes.foldl
      (fun entry code => if entry.any (·.id = code.id) then entry else entry ++ [code]) entry = entry ++ more
        ∧ ∀ code ∈ codes, code.id ∈ (entry ++ more).map CodeDef.id := by
    intro codes
    induction codes with
    | nil => exact fun entry => ⟨[], (append_nil entry).symm, nofun⟩
    | cons code codes ih =>
      intro entry
      rw [foldl_cons]
      split
      · rename_i hany
        obtain ⟨more, hmore, hids⟩ := ih entry
        refine ⟨more, hmore, fun other hother => ?_⟩
        rcases List.mem_cons.mp hother with rfl | hother
        · obtain ⟨known, hknown, hid⟩ := List.any_eq_true.mp hany
          rw [map_append]
          exact mem_append_left _ (List.mem_map.mpr ⟨known, hknown, of_decide_eq_true hid⟩)
        · exact hids other hother
      · obtain ⟨more, hmore, hids⟩ := ih (entry ++ [code])
        refine ⟨code :: more, by rw [hmore]; simp, fun other hother => ?_⟩
        rcases List.mem_cons.mp hother with rfl | hother
        · simp
        · have hmem := hids other hother
          rw [append_assoc] at hmem
          exact hmem
  have hmem : ∀ code ∈ adds, code.cardinality = .single → code.groupKey = a.groupKey →
      code.id ∈ (singlesOf adds a.groupKey).map CodeDef.id := by
    intro code hcode hs hg
    obtain ⟨more, hmore, hids⟩ := hkeep (adds.filter fun code =>
      code.cardinality = .single ∧ code.groupKey = a.groupKey) []
    unfold singlesOf
    rw [hmore]
    exact hids code (List.mem_filter.mpr ⟨hcode, decide_eq_true ⟨hs, hg⟩⟩)
  unfold checkSingles at h
  simp only at h
  split at h
  · cases h
  · rename_i hnone
    have hgroups : a.groupKey ∈ vecDedup
        (sortStrings ((adds.filter (·.cardinality = .single)).map CodeDef.groupKey)) :=
      mem_vecDedup_sortStrings.mpr (List.mem_map.mpr ⟨a, List.mem_filter.mpr ⟨ha, decide_eq_true hsa⟩, rfl⟩)
    have hshort := List.find?_eq_none.mp hnone a.groupKey hgroups
    have hlen : ((singlesOf adds a.groupKey).map CodeDef.id).length ≤ 1 := by
      rw [length_map]
      exact Nat.le_of_lt_succ (Nat.lt_of_not_le fun htwo => hshort (decide_eq_true htwo))
    have hia := hmem a ha hsa rfl
    have hib := hmem b hb hsb hgroup.symm
    match hids : (singlesOf adds a.groupKey).map CodeDef.id, hlen, hia, hib with
    | [id], _, hia, hib => exact (List.mem_singleton.mp hia).trans (List.mem_singleton.mp hib).symm

structure CodesApply.Checked (c : CodesApply) (matter : String) (db : ReviewDb)
    (adds removes : List String) : Prop where
  targets : c.targets.Nodup ∧ c.targets ≠ []
  addDefs : Resolved db matter adds c.addDefs
  removeDefs : Resolved db matter removes c.removeDefs
  sorted : c.addDefs.Pairwise fun a b => (compareCodes a b).isLE
  singles : ∀ a ∈ c.addDefs, ∀ b ∈ c.addDefs, a.cardinality = .single → b.cardinality = .single →
    a.groupKey = b.groupKey → a.id = b.id

instance compareCodes_trans : Std.TransCmp compareCodes :=
  inferInstanceAs (Std.TransCmp (compareLex (compareOn CodeDef.sortOrder)
    (compareLex (compareOn CodeDef.key) (compareOn CodeDef.id))))

theorem id_eq_of_compareCodes {a b : CodeDef} (h : compareCodes a b = .eq) : a.id = b.id := by
  unfold compareCodes at h
  rw [Ordering.then_eq_eq, Ordering.then_eq_eq] at h
  exact Std.LawfulEqCmp.eq_of_compare h.2.2

theorem checked_of_read {h : ReviewHandle} {input : ApplyCodesInput} {now : String} {c : CodesApply}
    (hread : readApplyCodes h db input now = .ok c) :
    c.Checked h.matterId db input.addCodeIds input.removeCodeIds := by
  unfold readApplyCodes at hread
  obtain ⟨hitems, hread⟩ := check_eq_ok.mp hread
  obtain ⟨_, hread⟩ := check_eq_ok.mp hread
  obtain ⟨actor, _, hread⟩ := bind_eq_ok.mp hread
  obtain ⟨adds, hadds, hread⟩ := bind_eq_ok.mp hread
  obtain ⟨removes, hremoves, hread⟩ := bind_eq_ok.mp hread
  obtain ⟨_, hsingles, hread⟩ := bind_eq_ok.mp hread
  obtain ⟨_, _, hread⟩ := bind_eq_ok.mp hread
  obtain ⟨targets, htargets, hread⟩ := ite_bind_eq_ok.mp hread
  cases hread
  have hadded : ∀ {code}, code ∈ sortBy compareCodes adds ↔ code ∈ adds :=
    (sortBy_perm compareCodes adds).mem_iff
  -- a family has its parent
  have hsome : ∃ itemId, itemId ∈ targets := by
    obtain ⟨itemId, rest, hcons⟩ := exists_cons_of_ne_nil hitems
    have hmem : itemId ∈ input.itemIds := hcons ▸ mem_cons_self
    split at htargets
    · obtain ⟨units, hunits, htargets⟩ := bind_eq_ok.mp htargets
      cases htargets
      obtain ⟨family, hfamily, hunit⟩ := exists_right_of_forall₂ (mapM_eq_ok_iff.mp hunits) hmem
      unfold ReviewDb.familyUnit at hunit
      split at hunit
      · cases hunit
      · cases hunit
        exact ⟨_, List.mem_flatten.mpr ⟨_, hfamily, mem_cons_self⟩⟩
    · cases htargets
      exact ⟨itemId, hmem⟩
  refine ⟨⟨nodup_vecDedup_sortStrings _, ?_⟩, (resolveCodes_eq_ok hadds).sorted,
    (resolveCodes_eq_ok hremoves).sorted, pairwise_sortBy compareCodes adds, fun a ha b hb => ?_⟩
  · obtain ⟨itemId, hmem⟩ := hsome
    exact ne_nil_of_mem (mem_vecDedup_sortStrings.mpr hmem)
  · exact singles_of_checkSingles hsingles (hadded.mp ha) (hadded.mp hb)

end MatterCore
