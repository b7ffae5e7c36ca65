import PstDedupe.Rust.Std

/-!
# The tables behind families, review and redaction (`matter-core/src/schema.rs`, `matter.rs`)

The rows of `items`, `item_families`, `item_redactions` and `item_geom_redactions` with the columns
that the modelled calls read and write.
-/

namespace MatterCore

open Rust

inductive RedactionReason where
  | privilege | pii | confidential | other
  deriving DecidableEq, Repr

inductive RedactionStatus where
  | active | stale
  deriving DecidableEq, Repr

structure Item where
  id : String
  matterId : String
  textSha256 : Option String := none
  htmlSha256 : Option String := none
  /-- Denormalized count of `item_redactions` rows for this item. -/
  redactionCount : Int := 0
  redactedTextSha256 : Option String := none
  redactedTextAt : Option String := none
  redactedSourceDigest : Option String := none
  /-- Denormalized count of active `item_geom_redactions` rows. -/
  geomRedactionCount : Int := 0
  familyId : Option String := none
  role : Option String := none
  parentItemId : Option String := none
  attachmentCount : Option Int := none
  nativeSha256 : Option String := none
  noteCount : Int := 0
  highlightCount : Int := 0
  /-- 0/1 cache of `item_privilege.withhold`. -/
  privilegeWithhold : Int := 0
  reviewVersion : Int := 0
  deriving DecidableEq, Repr

structure ItemFamily where
  id : String
  matterId : String
  kind : String := ""
  createdAt : String := ""
  deriving DecidableEq, Repr

structure ItemRedaction where
  id : String
  itemId : String
  matterId : String
  startUtf8 : Int
  endUtf8 : Int
  exactQuote : String
  prefixContext : Option String := none
  suffixContext : Option String := none
  bodyDigest : String
  reason : RedactionReason
  label : Option String := none
  status : RedactionStatus
  createdAt : String
  updatedAt : String
  createdBy : Option String := none
  deriving DecidableEq, Repr

inductive GeomSource where
  | draw | hit | fullPage
  deriving DecidableEq, Repr

structure ItemGeomRedaction where
  id : String
  itemId : String
  matterId : String
  pageIndex : Int
  x : Float
  y : Float
  w : Float
  h : Float
  reason : RedactionReason
  label : Option String := none
  status : RedactionStatus
  source : GeomSource
  createdAt : String
  updatedAt : String
  createdBy : Option String := none

structure MatterDb where
  items : List Item
  itemRedactions : List ItemRedaction := []
  itemGeomRedactions : List ItemGeomRedaction := []
  itemFamilies : List ItemFamily := []

inductive CallError where
  | itemNotFound (id : String)
  | other (text : String)
  | sqlite (text : String)
  | parentItemNotFound (id : String)
  | familyNotFound (id : String)
  | familyCohesion (text : String)
  | crossMatterFamily (text : String)
  | unauthorized (text : String)
  | forbidden (text : String)
  | conflict (text : String)
  | versionConflict (expected actual : Int)
  | locked (itemId byUser : String)
  deriving DecidableEq, Repr

def normalizeActor (actor : String) : String := if trim actor = "" then "desk" else trim actor

namespace MatterDb

def ensureItemInMatter (db : MatterDb) (matter itemId : String) : Except CallError Unit :=
  if db.items.any fun item => item.id = itemId ∧ item.matterId = matter then .ok ()
  else .error (.itemNotFound itemId)

def updateItem (db : MatterDb) (matter itemId : String) (set : Item → Item) : MatterDb :=
  { db with items := db.items.map fun item => if item.id = itemId ∧
    item.matterId = matter then set item else item }

def setItem (db : MatterDb) (itemId : String) (set : Item → Item) : MatterDb :=
  { db with items := db.items.map fun item => if item.id = itemId then set item else item }

def getItem (db : MatterDb) (itemId : String) : Except CallError Item :=
  match db.items.find? fun item => item.id = itemId with
  | some item => .ok item
  | none => .error (.itemNotFound itemId)

def getFamily (db : MatterDb) (familyId : String) : Except CallError ItemFamily :=
  match db.itemFamilies.find? fun family => family.id = familyId with
  | some family => .ok family
  | none => .error (.familyNotFound familyId)

end MatterDb

def Item.nullRedactedArtifact (item : Item) : Item :=
  { item with redactedTextSha256 := none, redactedTextAt := none, redactedSourceDigest := none }

theorem MatterDb.ensureItemInMatter_eq_ok {db : MatterDb} {matter itemId : String} :
    db.ensureItemInMatter matter itemId = .ok () ↔ ∃ item ∈ db.items, item.id = itemId ∧
      item.matterId = matter := by
  unfold MatterDb.ensureItemInMatter
  by_cases h : db.items.any fun item => item.id = itemId ∧ item.matterId = matter
  · rw [if_pos h]
    simpa using h
  · rw [if_neg h]
    simpa using h

section

variable {db : MatterDb} {matter itemId : String} {set : Item → Item}

@[simp] theorem MatterDb.itemRedactions_updateItem :
    (db.updateItem matter itemId set).itemRedactions = db.itemRedactions := rfl

@[simp] theorem MatterDb.itemGeomRedactions_updateItem :
    (db.updateItem matter itemId set).itemGeomRedactions = db.itemGeomRedactions := rfl

theorem MatterDb.mem_items_updateItem {item : Item} : item ∈ (db.updateItem matter itemId set).items ↔
    ∃ old ∈ db.items, (if old.id = itemId ∧ old.matterId = matter then set old else old) = item :=
  List.mem_map

end

end MatterCore
