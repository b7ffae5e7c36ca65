import PstDedupe.MatterCore.LogicalHash
import PstDedupe.MatterCore.RedactedText
import PstDedupe.MatterCore.RedactionCounts

/-!
# Where a redaction lies in a body (`redaction.rs`, `matter.rs`)

A redaction keeps its range, its quote and some context.
-/

namespace MatterCore

open Rust Prod

def collapseWhitespace (s : String) : String := String.ofList (collapseChars false s.toList)

def normalizeForQuoteMatch (s : String) : String := trim (collapseWhitespace s)

/-- The loop of `build_whitespace_norm_map`: the collapsed characters with their places in the raw
text. -/
def normMapFrom : Bool → Nat → List Char → List (Char × Nat)
  | _, _, [] => []
  | inWs, i, c :: cs =>
    if isWhitespace c then if inWs then normMapFrom true (i + 1) cs else (' ', i) ::
      normMapFrom true (i + 1) cs
    else (c, i) :: normMapFrom false (i + 1) cs

def buildWhitespaceNormMap (raw : String) : List Char × List Nat :=
  let marked := normMapFrom false 0 raw.toList
  (marked.map fst, marked.map snd ++ [raw.length])

def reResolveWhitespaceNormalized (red : ItemRedaction) (displayBody : String) : Option (Int × Int) :=
  let quote := (normalizeForQuoteMatch red.exactQuote).toList
  if quote = [] then none
  else
    let (norm, rawAt) := buildWhitespaceNormMap displayBody
    let contextOf (c : Option String) : List Char := ((c.map collapseWhitespace).getD "").toList
    let hits := (List.range norm.length).filter fun i => quote.isPrefixOf (norm.drop i)
    -- an absent context and an empty one ask for nothing
    let filtered := hits.filter fun i =>
      (contextOf red.prefixContext).isSuffixOf (norm.take i)
        && (contextOf red.suffixContext).isPrefixOf (norm.drop (i + quote.length))
    match filtered with
    | [i] =>
      match rawAt[i]?, rawAt[i + quote.length]? with
      | some rawStart, some rawEnd => if rawEnd ≤ rawStart then none else some (rawStart, rawEnd)
      | _, _ => none
    | _ => none

structure ResolvedRedaction where
  redactionId : String
  startUtf8 : Int
  endUtf8 : Int
  status : RedactionStatus
  remapped : Bool
  reason : RedactionReason
  deriving DecidableEq, Repr

/-- The fast path of `resolve_redaction_against_body`. -/
def ItemRedaction.standsAt (red : ItemRedaction) (displayBody displayDigest : String) : Bool :=
  red.bodyDigest = displayDigest ∧ 0 ≤ red.startUtf8 ∧ red.startUtf8 < red.endUtf8
    ∧ red.endUtf8 ≤ displayBody.length
    ∧ utf8CharSlice displayBody red.startUtf8.toNat red.endUtf8.toNat = some red.exactQuote

def resolveRedactionAgainstBody (red : ItemRedaction) (displayBody displayDigest : String) :
    ResolvedRedaction :=
  if red.standsAt displayBody displayDigest then
    ⟨red.id, red.startUtf8, red.endUtf8, .active, false, red.reason⟩
  else
    match reResolveWhitespaceNormalized red displayBody with
    | some (start, stop) => ⟨red.id, start, stop, .active, true, red.reason⟩
    | none => ⟨red.id, red.startUtf8, red.endUtf8, .stale, false, red.reason⟩

/-- A redaction that moved by whitespace, and one whose quote stands twice. -/
example :
    let red : ItemRedaction := {
      id := "a", itemId := "i", matterId := "m", startUtf8 := 0, endUtf8 := 3, exactQuote := "a b"
      bodyDigest := "old", reason := .pii, status := .active, createdAt := "t", updatedAt := "t" }
    resolveRedactionAgainstBody red "x a  b." "new" = ⟨"a", 2, 6, .active, true, .pii⟩
      ∧ (resolveRedactionAgainstBody red "a b a b" "new").status = .stale := by
  decide +kernel

section Status

variable (red : ItemRedaction) (status : RedactionStatus) (updatedAt displayBody displayDigest : String)

theorem standsAt_status :
    ItemRedaction.standsAt { red with status := status, updatedAt := updatedAt } displayBody
    displayDigest = red.standsAt displayBody displayDigest := rfl

theorem reResolveWhitespaceNormalized_status :
    reResolveWhitespaceNormalized { red with status := status, updatedAt := updatedAt } displayBody
      = reResolveWhitespaceNormalized red displayBody := by
  unfold reResolveWhitespaceNormalized
  rfl

theorem resolveRedactionAgainstBody_status :
    resolveRedactionAgainstBody { red with status := status, updatedAt := updatedAt } displayBody displayDigest
      = resolveRedactionAgainstBody red displayBody displayDigest := by
  unfold resolveRedactionAgainstBody
  rw [standsAt_status, reResolveWhitespaceNormalized_status]

end Status

/-!
# The redacted artifact of an item (`matter-core/src/redaction.rs`)

`regenerate_redacted_text` reads the item and loads its body, lists the redactions, marks the stale
ones in one transaction and stores the digest of the redacted text in another. What a blob holds is
fixed by its digest, and the text shown for an item without one by its HTML: both are the parameter
`BodySource`.
-/

open Foundations

class BodySource where
  /-- `get_bytes`, with the text of its error. -/
  loadCas : String → Except String (List UInt8)
  /-- The text shown for an item without `text_sha256`, by its `html_sha256`. -/
  displayOf : Option String → String

def presentDigest (digest : Option String) : Option String := (digest.map trim).filter (· ≠ "")

def fromUtf8 (bs : List UInt8) : Option String := String.fromUTF8? ⟨bs.toArray⟩

section Regenerate

variable [BodySource] [Sha256]

def resolveRegenerateBodySource (textSha256 htmlSha256 : Option String) (displayBody : String) :
    Except CallError (String × String) :=
  match presentDigest textSha256 with
  | some textSha =>
    match BodySource.loadCas textSha with
    | .error e =>
      .error (.other s!"cannot load full text body for redaction regenerate (text_sha256={textSha}): {e}")
    | .ok blob =>
      match fromUtf8 blob with
      | some body => .ok (body, textSha)
      | none => .error (.other
          s!"text CAS body is not valid UTF-8 (text_sha256={textSha}); refuse partial redacted regenerate")
  | none => .ok (displayBody, (presentDigest htmlSha256).getD (sha256Hex (bytes displayBody)))

structure Regeneration where
  itemId : String
  displayBody : String
  textSha256 : Option String
  htmlSha256 : Option String
  body : String
  sourceDigest : String
  source_eq : resolveRegenerateBodySource textSha256 htmlSha256 displayBody = .ok (body, sourceDigest)

def readRegenerate (matter : String) (db : MatterDb) (itemId displayBody : String) :
    Except CallError Regeneration := do
  db.ensureItemInMatter matter itemId
  let item ← db.getItem itemId
  match h : resolveRegenerateBodySource item.textSha256 item.htmlSha256 displayBody with
  | .ok (body, sourceDigest) =>
    .ok ⟨itemId, displayBody, item.textSha256, item.htmlSha256, body, sourceDigest, h⟩
  | .error e => .error e

end Regenerate

def compareRedactions (a b : ItemRedaction) : Ordering :=
  (compare a.startUtf8 b.startUtf8).then ((compare a.createdAt b.createdAt).then (compare a.id b.id))

def MatterDb.listRedactions (db : MatterDb) (matter itemId : String) :
    Except CallError (List ItemRedaction) := do
  db.ensureItemInMatter matter itemId
  return sortBy compareRedactions (db.itemRedactions.filter fun row => row.itemId = itemId ∧
    row.matterId = matter)

/-- The transaction of `resolve_redactions`. -/
def persistStaleTxn (staleIds : List String) (now : String) (db : MatterDb) : MatterDb :=
  { db with itemRedactions := db.itemRedactions.map fun row =>
      if row.id ∈ staleIds then { row with status := .stale, updatedAt := now } else row }

structure RedactedTextResult where
  itemId : String
  redactedTextSha256 : Option String
  redactedSourceDigest : Option String
  redactedTextAt : Option String
  regionCount : Nat
  staleCount : Nat
  hasStale : Bool

namespace Regeneration

variable [BodySource] [Sha256] (g : Regeneration) (rows : List ItemRedaction)

def resolved : List ResolvedRedaction :=
  rows.map fun row => resolveRedactionAgainstBody row g.body g.sourceDigest

def staleIds : List String :=
  (rows.filter fun row => (resolveRedactionAgainstBody row g.body g.sourceDigest).status = .stale
    ∧ row.status ≠ .stale).map ItemRedaction.id

def activeRanges : List (Int × Int) :=
  ((g.resolved rows).filter fun r => r.status = .active).map fun r => (r.startUtf8, r.endUtf8)

/-- What is stored and returned. Without an active region the artifact is cleared. -/
def result (now : String) : RedactedTextResult :=
  let staleCount := ((g.resolved rows).filter fun r => r.status = .stale).length
  let ranges := g.activeRanges rows
  if ranges.length = 0 then ⟨g.itemId, none, none, none, 0, staleCount, 0 < staleCount⟩
  else
    let sha := sha256Hex (bytes (buildRedactedText g.body ranges))
    ⟨g.itemId, some sha, some g.sourceDigest, some now, ranges.length, staleCount, 0 < staleCount⟩

end Regeneration

def storeArtifactTxn (matter : String) (result : RedactedTextResult) (db : MatterDb) : MatterDb :=
  db.updateItem matter result.itemId fun item =>
    { item with redactedTextSha256 := result.redactedTextSha256, redactedTextAt := result.redactedTextAt
                redactedSourceDigest := result.redactedSourceDigest }

inductive BodyUpdate where
  /-- `update_item`. -/
  | item (textSha256 htmlSha256 : Option (Option String))
  | extracted (textSha256 : String)
  | messages (textSha256 : Option String)
  | replaced (textSha256 : Option String)
  | officeEmpty

/-- The columns an `UPDATE` writes; `none` for one that it does not name. -/
structure BodyWrite where
  textSha256 : Option (Option String) := none
  htmlSha256 : Option (Option String) := none
  nullArtifact : Bool

def BodyUpdate.write (current : Item) : BodyUpdate → BodyWrite
  | .item text html =>
    let textChanged := text.any (· ≠ current.textSha256)
    let htmlChanged := html.any (· ≠ current.htmlSha256)
    ⟨some (text.getD current.textSha256), some (html.getD current.htmlSha256), textChanged || htmlChanged⟩
  | .extracted text => { textSha256 := some (some text), nullArtifact := current.textSha256 ≠ some text }
  | .messages text => { textSha256 := text.map some, nullArtifact := current.textSha256 ≠ text }
  | .replaced text => { textSha256 := some text, nullArtifact := true }
  | .officeEmpty => { textSha256 := some none, nullArtifact := false }

def BodyWrite.apply (w : BodyWrite) (item : Item) : Item :=
  let item := { item with textSha256 := w.textSha256.getD item.textSha256, htmlSha256 := w.htmlSha256.getD item.htmlSha256 }
  if w.nullArtifact then item.nullRedactedArtifact else item

end MatterCore
