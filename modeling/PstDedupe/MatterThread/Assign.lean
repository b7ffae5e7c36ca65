import PstDedupe.MatterCore.Cas
import PstDedupe.MatterCore.LogicalHash
import PstDedupe.MatterThread.UnionFind
import PstDedupe.Rust.Groups

/-!
# Thread candidates and their keys (`matter-thread/src/keys.rs`, `normalize.rs`)

A candidate is a thin row: an id and header fields.
-/

namespace MatterCore

open Rust

/-- `serde_json::from_str::<Vec<String>>`. -/
class JsonStrings where
  parse : String → Option (List String)

structure ThreadCandidate where
  id : String
  messageId : Option String := none
  inReplyTo : Option String := none
  referencesJson : Option String := none
  subject : Option String := none
  conversationIndexHex : Option String := none
  deriving DecidableEq, Repr

def parseReferencesJson [Target] [JsonStrings] (json : Option String) : List String :=
  match json.filter fun s => trim s ≠ "" with
  | none => []
  | some s => (((JsonStrings.parse s).getD []).map normalizeMessageId).filter (· ≠ "")

end MatterCore

namespace MatterThread

open Rust MatterCore

/-- One character of `collapse_whitespace`: what was put out, and whether it ends in a space. -/
def collapseStep (s : List Char × Bool) (ch : Char) : List Char × Bool :=
  if isWhitespace ch then if !s.2 && !s.1.isEmpty then (s.1 ++ [' '], true) else s else (s.1 ++ [ch], false)

def collapseWhitespace (s : String) : String :=
  trim (String.ofList (s.toList.foldl collapseStep ([], false)).1)

/-- `s.trim_start()`. -/
def trimStart (cs : List Char) : List Char := cs.dropWhile isWhitespace

/-- What stands after one leading `(re|fw|fwd)\s*:\s*`. Longer tokens first. -/
def stripLeadingReplyPrefix (s : String) : Option String :=
  ["fwd", "fw", "re"].findSome? fun token =>
    if startsWith (toAsciiLowercase s) token then
      match trimStart (s.toList.drop token.length) with
      | ':' :: afterColon => some (String.ofList (trimStart afterColon))
      | _ => none
    else none

def stripReplies : Nat → String → String
  | 0, s => s
  | fuel + 1, s =>
    match stripLeadingReplyPrefix s with
    | none => s
    | some rest => stripReplies fuel (collapseWhitespace (String.ofList (trimStart rest.toList)))

/-- Collapse whitespace, repeatedly strip leading `RE:`/`FW:`/`FWD:`, lowercase. Every round drops a
character. -/
def normalizeSubjectThread (subject : String) : String :=
  let collapsed := collapseWhitespace (trim subject)
  toAsciiLowercase (stripReplies collapsed.length collapsed)

example : normalizeSubjectThread "FW: Re : FWD: Test  it" = "test it" := by decide +kernel

section Keys

variable [Target] [Sha256] [JsonStrings]

def hashBytes (text : String) : Bytes32 := Sha256.digest (bytes text)

def messageIdText (rawMid : String) : Option String :=
  let norm := normalizeMessageId rawMid
  if norm = "" then none else some norm

def messageIdKey (rawMid : String) : Option Bytes32 := (messageIdText rawMid).map hashBytes

def sha256Hex (preimage : String) : String := MatterCore.sha256Hex (bytes preimage)

def conversationIndexPrefixHexLen : Nat := 44

/-- `&s[..n]` of a text that long; a panic when that is inside a character. -/
def takeBytes : Nat → List Char → Option (List Char)
  | 0, _ => some []
  | _ + 1, [] => none
  | n + 1, c :: cs => if c.utf8Size ≤ n + 1 then (takeBytes (n + 1 - c.utf8Size) cs).map (c :: ·) else none

def subjectText (c : ThreadCandidate) : Option String :=
  (c.subject.map normalizeSubjectThread).filter (· ≠ "")

/-- The key text of phase C, if there is one; `none` is a panic. -/
def conversationIndexText (c : ThreadCandidate) : Option (Option String) :=
  match c.conversationIndexHex with
  | none => some none
  | some hex =>
    let hex := trim hex
    if (bytes hex).length < conversationIndexPrefixHexLen then some none
    else (takeBytes conversationIndexPrefixHexLen hex.toList).map fun cs =>
      let front := toAsciiLowercase (String.ofList cs)
      if front.toList.all isAsciiHexdigit then some front else none

end Keys

/-!
# Thread assignments (`matter-thread/src/run.rs`: `compute_assignments`)

Four phases over the candidates: the header graph, then subjects, then ConversationIndex among what
is left, and singletons. The three vectors that the source fills together (method, thread id, root)
are one list of slots here; `key_to_mid`, which nothing reads, is left out.
-/

structure ThreadParams where
  useHeaders : Bool := true
  useSubjectFallback : Bool := true
  useConversationIndex : Bool := true

inductive ThreadMethod where
  | headers
  | subject
  | conversationIndex
  | singleton
  deriving DecidableEq, Repr

structure Slot where
  method : ThreadMethod
  threadId : String
  rootId : String
  deriving DecidableEq, Repr

structure Assignment where
  itemId : String
  threadId : String
  threadRootItemId : String
  threadMethod : ThreadMethod
  deriving DecidableEq, Repr

section

variable [Target] [Sha256] [JsonStrings]

section

variable (c : ThreadCandidate)

def references : List String := parseReferencesJson c.referencesJson

def ownKey : Option CompactKey := c.messageId.bind messageIdKey

def inReplyToKey : Option CompactKey := c.inReplyTo.bind messageIdKey

def linkedKeys : List CompactKey := (inReplyToKey c).toList ++ (references c).filterMap messageIdKey

def placingKey : Option CompactKey :=
  match ownKey c with
  | some mk => some mk
  | none =>
    match inReplyToKey c with
    | some k => some k
    | none => (references c).head?.bind messageIdKey

end

def joinReference (own : Option CompactKey) (uf : UnionFind) (k : CompactKey) : Option UnionFind :=
  match own with
  | some mk => (uf.makeSet k).union mk k
  | none => some (uf.makeSet k)

/-- `ref_keys.windows(2)`. -/
def windows (ks : List CompactKey) : List (CompactKey × CompactKey) := ks.zip ks.tail

def joinCandidate (uf : UnionFind) (c : ThreadCandidate) : Option (UnionFind × Bool) := do
  let uf := match ownKey c with
    | some k => uf.makeSet k
    | none => uf
  let uf ← (linkedKeys c).foldlM (joinReference (ownKey c)) uf
  let uf ← (if (ownKey c).isNone then windows (linkedKeys c) else []).foldlM (fun uf w => uf.union w.1 w.2) uf
  return (uf, !(linkedKeys c).isEmpty)

def joinAll : UnionFind → List ThreadCandidate → Option (UnionFind × List Bool)
  | uf, [] => some (uf, [])
  | uf, c :: cs => do
    let (uf, hasHeaderEdge) ← joinCandidate uf c
    let (uf, rest) ← joinAll uf cs
    return (uf, hasHeaderEdge :: rest)

def locateAll : UnionFind → List ThreadCandidate → Option (List (Option CompactKey))
  | _, [] => some []
  | uf, c :: cs =>
    match placingKey c with
    | none => (locateAll uf cs).map (none :: ·)
    | some k => do
      let (uf, root) ← uf.find k
      (locateAll uf cs).map (some root :: ·)

def matterMids (candidates : List ThreadCandidate) (members : List Nat) : List String :=
  vecDedup (sortStrings
    (members.filterMap fun i => candidates[i]?.bind fun c => c.messageId.bind messageIdText))

def componentSlot (candidates : List ThreadCandidate) (members : List Nat) (rootItem : String) : Slot where
  method := .headers
  threadId := match (matterMids candidates members).head? with
    | some minMid => sha256Hex ("thread:v1\n" ++ minMid)
    | none => rootItem
  rootId := rootItem

def labelComponent (candidates : List ThreadCandidate) (hasHeaderEdge : List Bool) (slots : List (Option Slot))
    (component : CompactKey × List Nat) : Option (List (Option Slot)) :=
  let members := component.2
  match members.min? with
  | none => some slots
  | some rootIdx => do
    let rootItem ← candidates[rootIdx]?
    let slot := componentSlot candidates members rootItem.id
    let multi := decide (2 ≤ members.length)
    let slots := members.foldl
      (fun s i => if multi || hasHeaderEdge.getD i false then s.set i (some slot) else s) slots
    return match members with
      | [i] => if hasHeaderEdge.getD i false then slots else slots.set i none
      | _ => slots

variable [RandomState]

def headerPhase (candidates : List ThreadCandidate) (slots : List (Option Slot)) :
    Option (List (Option Slot)) := do
  let (uf, hasHeaderEdge) ← joinAll .new candidates
  let itemComponent ← locateAll uf candidates
  (collectBy id itemComponent).iter.foldlM (labelComponent candidates hasHeaderEdge) slots

def textLeft (text : ThreadCandidate → Option (Option String)) (c : ThreadCandidate)
    (slot : Option Slot) : Option (Option String) :=
  if slot.isSome then some none else text c

def fallbackTexts (text : ThreadCandidate → Option (Option String)) :
    List ThreadCandidate → List (Option Slot) → Option (List (Option String))
  | c :: cs, slot :: slots => do
    let t ← textLeft text c slot
    (fallbackTexts text cs slots).map (t :: ·)
  | _, _ => some []

def textsByKey (texts : List (Option String)) : HashMap CompactKey String :=
  texts.foldl (fun m t => match t with
    | some t => m.orInsert (hashBytes t) t
    | none => m) ∅

def setAll (slot : Slot) (members : List Nat) (slots : List (Option Slot)) : List (Option Slot) :=
  members.foldl (fun s i => s.set i (some slot)) slots

def labelGroup (method : ThreadMethod) (tag : String) (candidates : List ThreadCandidate)
    (strings : HashMap CompactKey String) (slots : List (Option Slot)) (group : CompactKey × List Nat) :
    Option (List (Option Slot)) :=
  let members := group.2
  if members.length < 2 then some slots
  else
    let tid := sha256Hex (tag ++ (strings.get group.1).getD "")
    match members.min? with
    | none => some slots
    | some rootIdx => do
      let rootItem ← candidates[rootIdx]?
      return setAll ⟨method, tid, rootItem.id⟩ members slots

def fallbackPhase (method : ThreadMethod) (tag : String) (text : ThreadCandidate → Option (Option String))
    (candidates : List ThreadCandidate) (slots : List (Option Slot)) : Option (List (Option Slot)) := do
  let texts ← fallbackTexts text candidates slots
  let groups := collectBy id (texts.map fun t => t.map hashBytes)
  groups.iter.foldlM (labelGroup method tag candidates (textsByKey texts)) slots

def subjectPhase : List ThreadCandidate → List (Option Slot) → Option (List (Option Slot)) :=
  fallbackPhase .subject "thread-subj:v1\n" fun c => some (subjectText c)

def conversationIndexPhase : List ThreadCandidate → List (Option Slot) → Option (List (Option Slot)) :=
  fallbackPhase .conversationIndex "thread-ci:v1\n" conversationIndexText

def assignmentOf (c : ThreadCandidate) : Option Slot → Assignment
  | some slot => ⟨c.id, slot.threadId, slot.rootId, slot.method⟩
  | none =>
    let tid := match c.messageId.bind messageIdText with
      | some norm => sha256Hex ("thread:v1\n" ++ norm)
      | none => c.id
    ⟨c.id, tid, c.id, .singleton⟩

/-- A phase that a parameter turns on. -/
def runIf (on : Bool) (phase : List (Option Slot) → Option (List (Option Slot)))
    (slots : List (Option Slot)) : Option (List (Option Slot)) :=
  if on then phase slots else some slots

def computeAssignments (candidates : List ThreadCandidate) (params : ThreadParams) :
    Option (List Assignment) := do
  let slots := candidates.map fun _ => (none : Option Slot)
  let slots ← runIf params.useHeaders (headerPhase candidates) slots
  let slots ← runIf params.useSubjectFallback (subjectPhase candidates) slots
  let slots ← runIf params.useConversationIndex (conversationIndexPhase candidates) slots
  return List.zipWith assignmentOf candidates slots

end

end MatterThread
