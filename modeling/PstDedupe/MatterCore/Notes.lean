import PstDedupe.MatterCore.MultiUser
import PstDedupe.MatterCore.Redaction

/-!
# Notes and highlights (`matter-core/src/matter.rs`)

A note is written under the guards of review: `readUpsertNote` and `readDeleteNote` are what the
calls read, `NoteCreate.txn`, `NoteUpdate.txn` and `NoteDelete.txn` their transactions.
-/

namespace MatterCore

open Rust Foundations

def noteBodyMaxBytes : Nat := 64 * 1024

def highlightQuoteMaxBytes : Nat := 4 * 1024

def highlightContextChars : Nat := 40

def highlightDefaultColor : String := "#FFF59D"

namespace ReviewDb

variable (db : ReviewDb)

def getNote (noteId : String) : Except CallError ItemNote :=
  match rowAt ItemNote.id db.itemNotes noteId with
  | some note => .ok note
  | none => .error (.other s!"note not found: {noteId}")

def getHighlight (highlightId : String) : Except CallError ItemHighlight :=
  match rowAt ItemHighlight.id db.itemHighlights highlightId with
  | some highlight => .ok highlight
  | none => .error (.other s!"highlight not found: {highlightId}")

end ReviewDb

structure UpsertNoteInput where
  /-- When `some`, update that note's body; when `none`, create. -/
  id : Option String := none
  itemId : String
  body : String
  highlightId : Option String := none
  actor : String := ""
  expectedVersion : Option Int := none
  deriving DecidableEq, Repr

structure NoteCreate where
  note : ItemNote
  expectedVersion : Option Int
  guards : ReviewHandle.Guards

structure NoteUpdate where
  noteId : String
  itemId : String
  body : String
  actor : String
  expectedVersion : Option Int
  guards : ReviewHandle.Guards
  now : String

def checkNoteBody (body : String) : Except CallError Unit :=
  if body = "" then .error (.other "note body cannot be empty or whitespace-only")
  else if noteBodyMaxBytes < (bytes body).length then
    .error (.other s!"note body exceeds max size of {noteBodyMaxBytes} bytes (got {(bytes body).length})")
  else .ok ()

def readNoteUpdate (h : ReviewHandle) (db : ReviewDb) (input : UpsertNoteInput)
    (noteId actor now : String) : Except CallError NoteUpdate := do
  let existing ← db.getNote noteId
  if existing.matterId ≠ h.matterId then throw (.other s!"note {noteId} belongs to another matter")
  if input.itemId ≠ "" ∧ input.itemId ≠ existing.itemId then
    throw (.other s!"note {noteId} belongs to item {existing.itemId}, not {input.itemId}")
  return {
    noteId := noteId, itemId := existing.itemId, body := trim input.body, actor := actor
    expectedVersion := input.expectedVersion, guards := h.multiUserGuards db input.expectedVersion, now := now }

def checkNoteHighlight (db : ReviewDb) (input : UpsertNoteInput) : Except CallError Unit :=
  match input.highlightId with
  | some hid => do
    let highlight ← db.getHighlight hid
    if highlight.itemId ≠ input.itemId then throw (.other s!"highlight {hid} belongs to a different item")
  | none => .ok ()

def readNoteCreate (h : ReviewHandle) (db : ReviewDb) (input : UpsertNoteInput)
    (newId actor now : String) : Except CallError NoteCreate := do
  db.ensureItemInMatter h.matterId input.itemId
  checkNoteHighlight db input
  return {
    note := ⟨newId, input.itemId, h.matterId, trim input.body, input.highlightId, now, now, actor, actor⟩
    expectedVersion := input.expectedVersion, guards := h.multiUserGuards db input.expectedVersion }

def NoteUpdate.txn (u : NoteUpdate) (db : ReviewDb) : Except CallError ReviewDb := do
  let (_, db) ← u.guards.prepare db [u.itemId] u.actor u.expectedVersion u.now
  let db : ReviewDb := { db with itemNotes := db.itemNotes.map fun note =>
    if note.id = u.noteId then { note with body := u.body, updatedAt := u.now, updatedBy := u.actor } else note }
  return db.appendAudit u.actor "note.upsert" s!"note:{u.noteId}" u.now

def NoteCreate.txn (matter : String) (c : NoteCreate) (db : ReviewDb) : Except CallError ReviewDb := do
  let (_, db) ← c.guards.prepare db [c.note.itemId] c.note.createdBy c.expectedVersion c.note.createdAt
  if c.note.id ∈ db.itemNotes.map ItemNote.id then throw (.sqlite "UNIQUE constraint failed: item_notes.id")
  let db : ReviewDb := { db with itemNotes := db.itemNotes ++ [c.note] }
  let db := db.onMatter fun m => m.updateItem matter c.note.itemId fun item =>
    { item with noteCount := item.noteCount + 1 }
  return db.appendAudit c.note.createdBy "note.upsert" s!"note:{c.note.id}" c.note.createdAt

inductive NoteUpsert where
  | update (u : NoteUpdate)
  | create (c : NoteCreate)

def readUpsertNote (h : ReviewHandle) (db : ReviewDb) (input : UpsertNoteInput)
    (newId now : String) : Except CallError NoteUpsert := do
  let actor ← h.resolveActorForMutate db input.actor
  checkNoteBody (trim input.body)
  match input.id with
  | some noteId => return .update (← readNoteUpdate h db input noteId actor now)
  | none => return .create (← readNoteCreate h db input newId actor now)

def NoteUpsert.txn (matter : String) (db : ReviewDb) : NoteUpsert → Except CallError ReviewDb
  | .update u => u.txn db
  | .create c => c.txn matter db

def upsertNote (h : ReviewHandle) (db : ReviewDb) (input : UpsertNoteInput) (newId now : String) :
    Except CallError ReviewDb := do
  (← readUpsertNote h db input newId now).txn h.matterId db

structure NoteDelete where
  noteId : String
  itemId : String
  actor : String
  expectedVersion : Option Int
  guards : ReviewHandle.Guards
  now : String

def readDeleteNote (h : ReviewHandle) (db : ReviewDb) (noteId actor : String)
    (expectedVersion : Option Int) (now : String) : Except CallError NoteDelete := do
  let actor ← h.resolveActorForMutate db actor
  let existing ← db.getNote noteId
  if existing.matterId ≠ h.matterId then throw (.other s!"note {noteId} belongs to another matter")
  return {
    noteId := noteId, itemId := existing.itemId, actor := actor, expectedVersion := expectedVersion
    guards := h.multiUserGuards db expectedVersion, now := now }

def NoteDelete.txn (matter : String) (d : NoteDelete) (db : ReviewDb) : Except CallError ReviewDb := do
  let (_, db) ← d.guards.prepare db [d.itemId] d.actor d.expectedVersion d.now
  let db : ReviewDb := { db with itemNotes := db.itemNotes.filter fun note => note.id ≠ d.noteId }
  let db := db.onMatter fun m => m.updateItem matter d.itemId fun item =>
    { item with noteCount := max 0 (item.noteCount - 1) }
  return db.appendAudit d.actor "note.delete" s!"note:{d.noteId}" d.now

def deleteNoteWithVersion (h : ReviewHandle) (db : ReviewDb) (noteId actor : String)
    (expectedVersion : Option Int) (now : String) : Except CallError ReviewDb := do
  (← readDeleteNote h db noteId actor expectedVersion now).txn h.matterId db

structure CreateHighlightInput where
  itemId : String
  startUtf8 : Int
  endUtf8 : Int
  exactQuote : String
  displayBody : String
  bodyDigest : String
  color : Option String := none
  actor : String := ""

def CreateHighlightInput.checkRange (input : CreateHighlightInput) : Except CallError Unit :=
  let stop := input.endUtf8.toNat
  let bodyChars := input.displayBody.length
  if input.endUtf8 ≤ input.startUtf8 then
    .error (.other s!"highlight range invalid: end ({input.endUtf8}) must be > start ({input.startUtf8})")
  else if input.startUtf8 < 0 then .error (.other "highlight start_utf8 must be >= 0")
  else if bodyChars < stop then
    .error (.other s!"highlight end_utf8 ({stop}) exceeds display body char length ({bodyChars})")
  else
    match utf8CharSlice input.displayBody input.startUtf8.toNat stop with
    | none => .error (.other "highlight range does not map to a valid char slice")
    | some slice =>
      if slice ≠ input.exactQuote then
        .error (.other "exact_quote does not match display body at [start_utf8, end_utf8)")
      else if highlightQuoteMaxBytes < (bytes input.exactQuote).length then
        .error (.other s!"exact_quote exceeds max size of {highlightQuoteMaxBytes} bytes")
      else if trim input.bodyDigest = "" then .error (.other "body_digest cannot be empty")
      else .ok ()

def createHighlightRow (matter : String) (db : ReviewDb) (input : CreateHighlightInput)
    (id now : String) : Except CallError ItemHighlight := do
  let actor := normalizeActor input.actor
  db.ensureItemInMatter matter input.itemId
  input.checkRange
  let start := input.startUtf8.toNat
  let stop := input.endUtf8.toNat
  let contextOf (a b : Nat) : Option String := (utf8CharSlice input.displayBody a b).filter (· ≠ "")
  return {
    id := id, itemId := input.itemId, matterId := matter
    startUtf8 := input.startUtf8, endUtf8 := input.endUtf8, exactQuote := input.exactQuote
    prefixContext := contextOf (start - highlightContextChars) start
    suffixContext := contextOf stop (min (stop + highlightContextChars) input.displayBody.length)
    bodyDigest := input.bodyDigest
    color := ((input.color.map trim).filter (· ≠ "")).getD highlightDefaultColor
    status := .active, createdAt := now, updatedAt := now, createdBy := actor }

def createHighlightTxn (matter : String) (row : ItemHighlight) (db : ReviewDb) : Except CallError ReviewDb :=
  if row.id ∈ db.itemHighlights.map ItemHighlight.id then
    .error (.sqlite "UNIQUE constraint failed: item_highlights.id")
  else
    .ok ((({ db with itemHighlights := db.itemHighlights ++ [row] }).onMatter fun m =>
      m.updateItem matter row.itemId fun item => { item with highlightCount := item.highlightCount + 1 }).appendAudit
        row.createdBy "highlight.create" s!"highlight:{row.id}" row.createdAt)

def createHighlight (h : ReviewHandle) (db : ReviewDb) (input : CreateHighlightInput)
    (newId now : String) : Except CallError ReviewDb := do
  createHighlightTxn h.matterId (← createHighlightRow h.matterId db input newId now) db

def readDeleteHighlight (matter : String) (db : ReviewDb) (highlightId : String) :
    Except CallError ItemHighlight := do
  let existing ← db.getHighlight highlightId
  if existing.matterId ≠ matter then throw (.other s!"highlight {highlightId} belongs to another matter")
  return existing

def deleteHighlightTxn (matter : String) (existing : ItemHighlight) (actor now : String)
    (db : ReviewDb) : ReviewDb :=
  let db : ReviewDb := { db with
    itemNotes := db.itemNotes.map fun note =>
      if note.highlightId = some existing.id ∧ note.matterId = matter then
        { note with highlightId := none, updatedAt := now, updatedBy := actor }
      else note
    itemHighlights := db.itemHighlights.filter fun row => row.id ≠ existing.id }
  (db.onMatter fun m => m.updateItem matter existing.itemId fun item =>
    { item with highlightCount := max 0 (item.highlightCount - 1) }).appendAudit
      actor "highlight.delete" s!"highlight:{existing.id}" now

def deleteHighlight (h : ReviewHandle) (db : ReviewDb) (highlightId actor now : String) :
    Except CallError ReviewDb := do
  let existing ← readDeleteHighlight h.matterId db highlightId
  return deleteHighlightTxn h.matterId existing (normalizeActor actor) now db

end MatterCore
