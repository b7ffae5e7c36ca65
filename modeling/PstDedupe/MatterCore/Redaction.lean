import PstDedupe.Foundations.Fallible
import PstDedupe.MatterCore.MatterDb

/-!
# Text redactions (`matter-core/src/redaction.rs`)

A call reads first and writes in a transaction of its own later: `createRedactionRow` and
`readDeleteRedaction` are what `create_redaction` and `delete_redaction` read and check,
`createRedactionTxn` and `deleteRedactionTxn` what their transactions write.
-/

namespace MatterCore

open Rust Foundations

def redactionQuoteMaxBytes : Nat := 4 * 1024

def redactionContextChars : Nat := 40

def RedactionReason.parse : String → Option RedactionReason
  | "privilege" => some .privilege
  | "pii" => some .pii
  | "confidential" => some .confidential
  | "other" => some .other
  | _ => none

def validateReason (reason : String) : Except CallError RedactionReason :=
  match RedactionReason.parse reason with
  | some r => .ok r
  | none => .error (.other ("invalid redaction reason '" ++ reason
      ++ "'; expected one of: privilege, pii, confidential, other"))

def utf8CharSlice (s : String) (start stop : Nat) : Option String :=
  if stop < start then none
  else if stop ≤ s.length then some (String.ofList ((s.toList.drop start).take (stop - start)))
  else none

structure CreateRedactionInput where
  itemId : String
  startUtf8 : Int
  endUtf8 : Int
  exactQuote : String
  displayBody : String
  bodyDigest : String
  reason : String
  label : Option String := none
  actor : String := ""

def CreateRedactionInput.checkRange (input : CreateRedactionInput) : Except CallError Unit :=
  let stop := input.endUtf8.toNat
  let bodyChars := input.displayBody.length
  if input.endUtf8 ≤ input.startUtf8 then
    .error (.other s!"redaction range invalid: end ({input.endUtf8}) must be > start ({input.startUtf8})")
  else if input.startUtf8 < 0 then .error (.other "redaction start_utf8 must be >= 0")
  else if bodyChars < stop then
    .error (.other s!"redaction end_utf8 ({stop}) exceeds display body char length ({bodyChars})")
  else
    match utf8CharSlice input.displayBody input.startUtf8.toNat stop with
    | none => .error (.other "redaction range does not map to a valid char slice")
    | some slice =>
      if slice ≠ input.exactQuote then
        .error (.other "exact_quote does not match display body at [start_utf8, end_utf8)")
      else if redactionQuoteMaxBytes < (bytes input.exactQuote).length then
        .error (.other s!"exact_quote exceeds max size of {redactionQuoteMaxBytes} bytes")
      else if trim input.bodyDigest = "" then .error (.other "body_digest cannot be empty")
      else .ok ()

def createRedactionRow (matter : String) (db : MatterDb) (input : CreateRedactionInput)
    (id now : String) : Except CallError ItemRedaction := do
  let actor := normalizeActor input.actor
  db.ensureItemInMatter matter input.itemId
  let reason ← validateReason (trim input.reason)
  input.checkRange
  let start := input.startUtf8.toNat
  let stop := input.endUtf8.toNat
  let contextOf (a b : Nat) : Option String := (utf8CharSlice input.displayBody a b).filter (· ≠ "")
  return {
    id := id, itemId := input.itemId, matterId := matter
    startUtf8 := input.startUtf8, endUtf8 := input.endUtf8, exactQuote := input.exactQuote
    prefixContext := contextOf (start - redactionContextChars) start
    suffixContext := contextOf stop (min (stop + redactionContextChars) input.displayBody.length)
    bodyDigest := input.bodyDigest, reason := reason
    label := (input.label.map trim).filter (· ≠ "")
    status := .active, createdAt := now, updatedAt := now, createdBy := some actor }

/-- The transaction of `create_redaction`. The id is the primary key. -/
def createRedactionTxn (matter : String) (row : ItemRedaction) (db : MatterDb) : Except CallError MatterDb :=
  if row.id ∈ db.itemRedactions.map ItemRedaction.id then
    .error (.sqlite "UNIQUE constraint failed: item_redactions.id")
  else
    .ok (({ db with itemRedactions := db.itemRedactions ++ [row] }).updateItem matter row.itemId fun item =>
      { item with redactionCount := item.redactionCount + 1 }.nullRedactedArtifact)

def MatterDb.getRedaction (db : MatterDb) (id : String) : Except CallError ItemRedaction :=
  match db.itemRedactions.find? fun row => row.id = id with
  | some row => .ok row
  | none => .error (.other s!"redaction not found: {id}")

def readDeleteRedaction (matter : String) (db : MatterDb) (id : String) : Except CallError ItemRedaction := do
  let existing ← db.getRedaction id
  if existing.matterId ≠ matter then throw (.other s!"redaction {id} belongs to another matter")
  return existing

def deleteRedactionTxn (matter : String) (existing : ItemRedaction) (db : MatterDb) : MatterDb :=
  ({ db with itemRedactions := db.itemRedactions.filter fun row => row.id ≠ existing.id }).updateItem
    matter existing.itemId fun item =>
      { item with redactionCount := max 0 (item.redactionCount - 1) }.nullRedactedArtifact

def MatterDb.HasItem (db : MatterDb) (matter itemId : String) : Prop :=
  ∃ item ∈ db.items, item.id = itemId ∧ item.matterId = matter

end MatterCore

/-!
# Geometric redactions (`matter-core/src/geom_redaction.rs`)

The counterpart of text redactions on pages: rectangles, and a count of the active ones.
-/

namespace MatterCore

open Rust Foundations

def GeomSource.parse : String → Option GeomSource
  | "draw" => some .draw
  | "hit" => some .hit
  | "full_page" => some .fullPage
  | _ => none

def validateSource (source : String) : Except CallError GeomSource :=
  match GeomSource.parse source with
  | some s => .ok s
  | none => .error (.other ("invalid geom source '" ++ source ++ "'; expected one of: draw, hit, full_page"))

structure CreateGeomRedactionInput where
  itemId : String
  pageIndex : Int
  x : Float
  y : Float
  w : Float
  h : Float
  reason : String
  label : Option String := none
  source : String
  actor : String := ""

def CreateGeomRedactionInput.checkRect (input : CreateGeomRedactionInput) : Except CallError Unit :=
  if input.pageIndex < 0 then .error (.other "geom page_index must be >= 0 (0-based)")
  else if ¬ (input.w > 0 ∧ input.h > 0 ∧ input.w.isFinite ∧ input.h.isFinite) then
    .error (.other "geom w and h must be finite and > 0")
  else if ¬ input.x.isFinite ∨ ¬ input.y.isFinite then .error (.other "geom x and y must be finite")
  else .ok ()

def createGeomRedactionRow (matter : String) (db : MatterDb) (input : CreateGeomRedactionInput)
    (id now : String) :
    Except CallError ItemGeomRedaction := do
  let actor := normalizeActor input.actor
  db.ensureItemInMatter matter input.itemId
  let reason ← validateReason (trim input.reason)
  let source ← validateSource (trim input.source)
  input.checkRect
  return {
    id := id, itemId := input.itemId, matterId := matter, pageIndex := input.pageIndex
    x := input.x, y := input.y, w := input.w, h := input.h, reason := reason
    label := (input.label.map trim).filter (· ≠ "")
    status := .active, source := source, createdAt := now, updatedAt := now, createdBy := some actor }

def createGeomRedactionTxn (matter : String) (row : ItemGeomRedaction) (db : MatterDb) :
    Except CallError MatterDb :=
  if row.id ∈ db.itemGeomRedactions.map ItemGeomRedaction.id then
    .error (.sqlite "UNIQUE constraint failed: item_geom_redactions.id")
  else
    .ok (({ db with itemGeomRedactions := db.itemGeomRedactions ++
      [row] }).updateItem matter row.itemId fun item =>
      { item with geomRedactionCount := item.geomRedactionCount + 1 })

def MatterDb.getGeomRedaction (db : MatterDb) (id : String) : Except CallError ItemGeomRedaction :=
  match db.itemGeomRedactions.find? fun row => row.id = id with
  | some row => .ok row
  | none => .error (.other s!"geom redaction not found: {id}")

def readDeleteGeomRedaction (matter : String) (db : MatterDb) (id : String) :
    Except CallError ItemGeomRedaction := do
  let existing ← db.getGeomRedaction id
  if existing.matterId ≠ matter then throw (.other s!"geom redaction {id} belongs to another matter")
  return existing

def deleteGeomRedactionTxn (matter : String) (existing : ItemGeomRedaction) (db : MatterDb) : MatterDb :=
  let db := { db with itemGeomRedactions := db.itemGeomRedactions.filter fun row => row.id ≠ existing.id }
  let wasActive := existing.status = .active
  if wasActive then
    db.updateItem matter existing.itemId fun item =>
      { item with geomRedactionCount := max 0 (item.geomRedactionCount - 1) }
  else db

variable {matter id now : String} {db : MatterDb}

theorem createGeomRedactionRow_eq_ok {input : CreateGeomRedactionInput} {row : ItemGeomRedaction}
    (h : createGeomRedactionRow matter db input id now = .ok row) :
    row.id = id ∧ row.itemId = input.itemId ∧ row.matterId = matter ∧ row.status = .active
      ∧ db.HasItem matter row.itemId := by
  unfold createGeomRedactionRow at h
  obtain ⟨_, hitem, h⟩ := bind_eq_ok.mp h
  obtain ⟨_, _, h⟩ := bind_eq_ok.mp h
  obtain ⟨_, _, h⟩ := bind_eq_ok.mp h
  obtain ⟨_, _, h⟩ := bind_eq_ok.mp h
  cases h
  exact ⟨rfl, rfl, rfl, rfl, MatterDb.ensureItemInMatter_eq_ok.mp hitem⟩

end MatterCore
