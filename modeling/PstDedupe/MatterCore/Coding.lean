import PstDedupe.MatterCore.Privilege

/-!
# Codes and coding (`matter-core/src/matter.rs`)

The catalog of codes and their application to items.
-/

namespace MatterCore

open Rust Foundations

/-- The loop of `slugify_code_key`: the text so far and whether a separator was the last thing
pushed. -/
def slugifyStep (state : List Char × Bool) (c : Char) : List Char × Bool :=
  if c.isAlphanum then (state.1 ++ [c.toLower], false)
  else if ¬ state.2 ∧ state.1 ≠ [] then (state.1 ++ ['_'], true)
  else state

def slugifyCodeKey (s : String) : String :=
  String.ofList ((s.toList.foldl slugifyStep ([], false)).1.reverse.dropWhile (· = '_')).reverse

structure CodeDefInput where
  id : Option String := none
  key : Option String := none
  label : String
  groupKey : String
  cardinality : String
  color : Option String := none
  sortOrder : Int := 0
  isActive : Bool := true
  guidance : Option String := none
  deriving DecidableEq, Repr

def ReviewDb.getCodeDefinition (db : ReviewDb) (codeId : String) : Except CallError CodeDef :=
  match rowAt CodeDef.id db.codeDefinitions codeId with
  | some code => .ok code
  | none => .error (.other s!"code definition not found: {codeId}")

def parseCardinality (cardinality : String) : Except CallError Cardinality :=
  match trim cardinality with
  | "" => .ok .multi
  | "single" => .ok .single
  | "multi" => .ok .multi
  | other => .error (.other s!"invalid cardinality '{other}' (expected single|multi)")

def CodeDefInput.write (input : CodeDefInput) (cardinality : Cardinality) (code : CodeDef) : CodeDef :=
  { code with
    label := trim input.label, groupKey := trim input.groupKey, cardinality := cardinality, color :=
      input.color
    sortOrder := input.sortOrder, isActive := if input.isActive then 1 else 0
    guidance := if input.guidance.isSome then (input.guidance.map trim).filter (· ≠ "") else code.guidance }

def upsertCodeDefinition (h : ReviewHandle) (db : ReviewDb) (input : CodeDefInput)
    (newId now : String) : Except CallError (String × ReviewDb) := do
  if trim input.label = "" then throw (.other "code label cannot be empty")
  if trim input.groupKey = "" then throw (.other "code group_key cannot be empty")
  let cardinality ← parseCardinality input.cardinality
  match input.id with
  | some id =>
    let existing ← db.getCodeDefinition id
    if existing.matterId ≠ h.matterId then throw (.other s!"code definition {id} belongs to another matter")
    return (id, { db with codeDefinitions := db.codeDefinitions.map fun code =>
      if code.id = id then input.write cardinality code else code })
  | none =>
    let key := match (input.key.map trim).filter (· ≠ "") with
      | some k => slugifyCodeKey k
      | none => slugifyCodeKey (trim input.label)
    if key = "" then throw (.other "code key cannot be empty after slugify")
    if ∃ code ∈ db.codeDefinitions, code.matterId = h.matterId ∧ code.key = key then
      throw (.other s!"code key already exists in matter: {key}")
    if newId ∈ db.codeDefinitions.map
      CodeDef.id then throw (.sqlite "UNIQUE constraint failed: code_definitions.id")
    return (newId, { db with codeDefinitions := db.codeDefinitions ++ [{
      id := newId, matterId := h.matterId, key := key, label := trim input.label, groupKey :=
        trim input.groupKey
      cardinality := cardinality, color := input.color, sortOrder := input.sortOrder
      isActive := if input.isActive then 1 else 0, createdAt := now
      guidance := (input.guidance.map trim).filter (· ≠ "") }] })

structure ApplyCodesInput where
  itemIds : List String
  addCodeIds : List String
  removeCodeIds : List String
  propagateFamily : Bool := false
  actor : String := ""
  expectedVersion : Option Int := none
  deriving DecidableEq, Repr

structure ApplyCodesResult where
  targetItemIds : List String
  selectedCount : Nat
  targetCount : Nat
  reviewVersions : List Int
  deriving DecidableEq, Repr

def ReviewDb.resolveCodes (db : ReviewDb) (matter : String) (codeIds : List String) :
    Except CallError (List CodeDef) :=
  codeIds.mapM fun codeId => do
    let code ← db.getCodeDefinition codeId
    if code.matterId ≠ matter then throw (.other s!"code definition {codeId} belongs to another matter")
    return code

def singlesOf (adds : List CodeDef) (groupKey : String) : List CodeDef :=
  (adds.filter fun code => code.cardinality = .single ∧ code.groupKey = groupKey).foldl
    (fun entry code => if entry.any (·.id = code.id) then entry else entry ++ [code]) []

def checkSingles (adds : List CodeDef) : Except CallError Unit :=
  let groups := vecDedup (sortStrings ((adds.filter (·.cardinality = .single)).map CodeDef.groupKey))
  match groups.find? fun group => 2 ≤ (singlesOf adds group).length with
  | some group =>
    .error (.other ("conflicting single-group codes in one apply for group '" ++ group ++ "': "
      ++ join ", " (sortStrings ((singlesOf adds group).map CodeDef.key))
      ++ " (cardinality=single allows only one code per group)"))
  | none => .ok ()

def compareCodes (a b : CodeDef) : Ordering :=
  (compare a.sortOrder b.sortOrder).then ((compare a.key b.key).then (compare a.id b.id))

def ReviewDb.checkItems (db : ReviewDb) (matter : String) : List String → Except CallError Unit
  | [] => .ok ()
  | itemId :: rest => do
    db.ensureItemInMatter matter itemId
    checkItems db matter rest

def ReviewDb.familyUnit (db : ReviewDb) (matter itemId : String) : Except CallError (List String) :=
  match db.items.find? fun item => item.id = itemId ∧ item.matterId = matter with
  | none => .error (.sqlite "Query returned no rows")
  | some item =>
    let parent := item.parentItemId.getD itemId
    let children := (db.items.filter fun i => i.matterId = matter ∧ i.parentItemId = some parent).map Item.id
    let parentFamily :=
      if item.familyId.isSome ∧ parent = itemId then item.familyId
      else (db.items.find? fun i => i.id = parent ∧ i.matterId = matter).bind Item.familyId
    let members := match parentFamily with
      | some fid => (db.items.filter fun i => i.matterId = matter ∧ i.familyId = some fid).map Item.id
      | none => []
    .ok (parent :: children ++ members)

def ReviewDb.expandFamilyUnits (db : ReviewDb) (matter : String) (itemIds : List String) :
    Except CallError (List String) := do
  return (← itemIds.mapM (db.familyUnit matter)).flatten

structure CodesApply where
  targets : List String
  addDefs : List CodeDef
  removeDefs : List CodeDef
  selectedCount : Nat
  actor : String
  expectedVersion : Option Int
  guards : ReviewHandle.Guards
  now : String

def readApplyCodes (h : ReviewHandle) (db : ReviewDb) (input : ApplyCodesInput) (now : String) :
    Except CallError CodesApply := do
  if input.itemIds = [] then throw (.other "apply_codes requires at least one item_id")
  if input.addCodeIds = [] ∧ input.removeCodeIds = [] then
    throw (.other "apply_codes requires at least one add or remove code id")
  let actor ← h.resolveActorForMutate db input.actor
  let addDefs ← db.resolveCodes h.matterId input.addCodeIds
  let removeDefs ← db.resolveCodes h.matterId input.removeCodeIds
  checkSingles addDefs
  db.checkItems h.matterId input.itemIds
  let targets ← if input.propagateFamily then db.expandFamilyUnits h.matterId input.itemIds
    else pure input.itemIds
  return {
    targets := vecDedup (sortStrings targets)
    addDefs := sortBy compareCodes addDefs, removeDefs := sortBy compareCodes removeDefs
    selectedCount := input.itemIds.length, actor := actor, expectedVersion := input.expectedVersion
    guards := h.multiUserGuards db input.expectedVersion, now := now }

namespace ReviewDb

variable (db : ReviewDb)

def clearGroup (matter itemId : String) (code : CodeDef) : ReviewDb :=
  { db with itemCodes := db.itemCodes.filter fun row => ¬ (row.itemId = itemId ∧ ∃ other ∈ db.codeDefinitions,
      other.id = row.codeId ∧ other.matterId = matter ∧ other.groupKey = code.groupKey ∧ other.id ≠ code.id) }

def putCode (itemId codeId now actor : String) : ReviewDb :=
  if ∃ row ∈ db.itemCodes, row.itemId = itemId ∧ row.codeId = codeId then
    { db with itemCodes := db.itemCodes.map fun row =>
        if row.itemId = itemId ∧ row.codeId = codeId then { row with setAt := now, setBy := actor } else row }
  else { db with itemCodes := db.itemCodes ++ [⟨itemId, codeId, now, actor⟩] }

def addCode (matter itemId now actor : String) (code : CodeDef) : ReviewDb :=
  (if code.cardinality = .single then db.clearGroup matter itemId code else db).putCode itemId
    code.id now actor

def removeCode (itemId : String) (code : CodeDef) : ReviewDb :=
  { db with itemCodes := db.itemCodes.filter fun row => ¬ (row.itemId = itemId ∧ row.codeId = code.id) }

end ReviewDb

def CodesApply.applyTo (c : CodesApply) (matter : String) (db : ReviewDb) (itemId : String) : ReviewDb :=
  c.removeDefs.foldl (fun db code => db.removeCode itemId code)
    (c.addDefs.foldl (fun db code => db.addCode matter itemId c.now c.actor code) db)

structure PrivilegeChanges where
  ensured : List String := []
  cleared : List String := []

def CodesApply.ensurePrivilege (c : CodesApply) (matter itemId : String)
    (changes : PrivilegeChanges) (db : ReviewDb) :
    Except CallError (PrivilegeChanges × ReviewDb) :=
  if c.addDefs.any (·.key = "privilege") then
    match db.ensureItemPrivilegeConn matter itemId c.actor c.now with
    | .ok (changed, db) =>
      .ok (if changed then { changes with ensured := changes.ensured ++ [itemId] } else changes, db)
    | .error e => .error e
  else .ok (changes, db)

def CodesApply.clearPrivilege (c : CodesApply) (matter itemId : String) (changes : PrivilegeChanges)
    (db : ReviewDb) :
    PrivilegeChanges × ReviewDb :=
  if c.removeDefs.any (·.key = "privilege") then
    let (cleared, db) := db.softClearItemPrivilegeConn matter itemId c.actor c.now
    (if cleared then { changes with cleared := changes.cleared ++ [itemId] } else changes, db)
  else (changes, db)

def CodesApply.applyAll (c : CodesApply) (matter : String) :
    List String → PrivilegeChanges → ReviewDb → Except CallError (PrivilegeChanges × ReviewDb)
  | [], changes, db => .ok (changes, db)
  | itemId :: rest, changes, db => do
    let (changes, db) ← c.ensurePrivilege matter itemId changes (c.applyTo matter db itemId)
    let (changes, db) := c.clearPrivilege matter itemId changes db
    applyAll c matter rest changes db

def batchEntity : List String → String
  | [itemId] => s!"item:{itemId}"
  | _ => "batch"

def ReviewDb.auditPrivilegeBatch (db : ReviewDb) (actor action : String) (itemIds : List String)
    (now : String) :
    ReviewDb :=
  if itemIds = [] then db else db.appendAudit actor action (batchEntity (vecDedup (sortStrings itemIds))) now

def CodesApply.txn (matter : String) (c : CodesApply) (db : ReviewDb) :
    Except CallError (ApplyCodesResult × ReviewDb) := do
  let (versions, db) ← c.guards.prepare db c.targets c.actor c.expectedVersion c.now
  let (changes, db) ← c.applyAll matter c.targets {} db
  let db := db.appendAudit c.actor "coding.apply" (batchEntity c.targets) c.now
  let db := db.auditPrivilegeBatch c.actor "privilege.upsert" changes.ensured c.now
  let db := db.auditPrivilegeBatch c.actor "privilege.clear" changes.cleared c.now
  return (⟨c.targets, c.selectedCount, c.targets.length, versions⟩, db)

def applyCodes (h : ReviewHandle) (db : ReviewDb) (input : ApplyCodesInput) (now : String) :
    Except CallError (ApplyCodesResult × ReviewDb) := do
  (← readApplyCodes h db input now).txn h.matterId db

end MatterCore
