import PstDedupe.Foundations.SqlSelect
import PstDedupe.MatterCore.MatterDb
import PstDedupe.Rust.Text

/-!
# Conversation queries (`matter-core/src/conversation.rs`)

Conversations are listed and their messages streamed by keyset pages: the conditions of the
statements compare a row with a cursor, NULL timestamps last.
-/

namespace MatterCore

open Rust Foundations

def conversationListDefaultLimit : Nat := 50
def conversationListMaxLimit : Nat := 200
def conversationStreamDefaultLimit : Nat := 100
def conversationStreamMaxLimit : Nat := 500
def conversationAroundBefore : Nat := 50
def conversationAroundAfter : Nat := 50
def replySnippetMaxChars : Nat := 100

structure ConversationItem where
  id : String
  matterId : String
  conversationId : Option String := none
  sentAt : Option String := none
  fromAddr : Option String := none
  subject : Option String := none
  textSha256 : Option String := none
  htmlSha256 : Option String := none
  parentItemId : Option String := none
  chatType : Option String := none
  teamName : Option String := none
  channelName : Option String := none
  conversationBucketDate : Option String := none
  fileCategory : Option String := none
  role : Option String := none
  path : Option String := none
  deriving DecidableEq, Repr

structure ConversationSummary where
  conversationId : String
  chatType : Option String
  teamName : Option String
  channelName : Option String
  bucketDate : Option String
  messageCount : Nat
  /-- Count of messages intersecting the optional hit id set (0 when no hit filter). -/
  hitCount : Nat
  firstAt : Option String
  lastAt : Option String
  deriving DecidableEq, Repr

structure ConversationMessageRow where
  id : String
  conversationId : String
  sentAt : Option String
  fromAddr : Option String
  subject : Option String
  textSha256 : Option String
  htmlSha256 : Option String
  parentItemId : Option String
  chatType : Option String
  teamName : Option String
  channelName : Option String
  conversationBucketDate : Option String
  fileCategory : Option String
  role : Option String
  path : Option String
  replySnippet : Option String
  deriving DecidableEq, Repr

/-- The table `items`. -/
structure ConversationDb where
  items : List ConversationItem
  /-- `id TEXT PRIMARY KEY` -/
  keyed : (items.map ConversationItem.id).Nodup

def clampConversationListLimit (limit : Nat) : Nat :=
  if limit = 0 then conversationListDefaultLimit else min limit conversationListMaxLimit

def clampConversationStreamLimit (limit : Nat) : Nat :=
  if limit = 0 then conversationStreamDefaultLimit else min limit conversationStreamMaxLimit

def mapMessageRow (item : ConversationItem) : ConversationMessageRow where
  id := item.id
  conversationId := item.conversationId.getD ""
  sentAt := item.sentAt
  fromAddr := item.fromAddr
  subject := item.subject
  textSha256 := item.textSha256
  htmlSha256 := item.htmlSha256
  parentItemId := item.parentItemId
  chatType := item.chatType
  teamName := item.teamName
  channelName := item.channelName
  conversationBucketDate := item.conversationBucketDate
  fileCategory := item.fileCategory
  role := item.role
  path := item.path
  replySnippet := none

def replySnippetUnavailable : String := "[unavailable]"

def truncateSnippet (text : String) (maxChars : Nat) : String :=
  String.ofList (text.toList.take maxChars ++ if maxChars < text.length then ['…'] else [])

def formatReplySnippet (raw : String) (maxChars : Nat) : String :=
  let words := (raw.toList.splitOnP isWhitespace).filter (· ≠ [])
  let collapsed := " ".intercalate (words.map String.ofList)
  if collapsed = "" then replySnippetUnavailable else truncateSnippet collapsed maxChars

structure ConversationHandle where
  matterId : String
  readCasPrefix : String → Nat → Option (List UInt8)

namespace ConversationHandle

variable (h : ConversationHandle) (db : ConversationDb)

def snippetFromItemFields (textSha256 subject : Option String) : String :=
  let usable (snip : String) : Option String := if snip = replySnippetUnavailable then none else some snip
  let fromText := do
    let bytes ← h.readCasPrefix (← textSha256) 512
    usable (formatReplySnippet (fromUtf8Lossy bytes) replySnippetMaxChars)
  let fromSubject := do usable (formatReplySnippet (← subject) replySnippetMaxChars)
  (fromText.or fromSubject).getD replySnippetUnavailable

def parentReplySnippets (parentIds : List String) : List (String × String) :=
  parentIds.dedup.map fun id =>
    (id, match db.items.find? fun item => item.id = id ∧ item.matterId = h.matterId with
      | some item => h.snippetFromItemFields item.textSha256 item.subject
      | none => replySnippetUnavailable)

def attachReplySnippets (rows : List ConversationMessageRow) : List ConversationMessageRow :=
  let parentIds := rows.filterMap fun row => row.parentItemId
  if parentIds = [] then rows
  else
    let map := h.parentReplySnippets db parentIds
    rows.map fun row =>
      match row.parentItemId with
      | some pid => { row with replySnippet := some ((map.lookup pid).getD replySnippetUnavailable) }
      | none => row

def withReplySnippets (includeReplySnippets : Bool) (rows : List ConversationMessageRow) :
    List ConversationMessageRow :=
  if includeReplySnippets then h.attachReplySnippets db rows else rows

/-- `SELECT … FROM items WHERE cond ORDER BY terms LIMIT limit`. -/
def selectMessages (cond : ConversationItem → Truth)
    (terms : List (ConversationItem → ConversationItem → Ordering)) (limit : Nat) :
    List ConversationMessageRow :=
  ((orderBy terms (db.items.filter fun item => cond item = some true)).take limit).map mapMessageRow

def ofConversation (cid : String) (item : ConversationItem) : Truth :=
  (eqTo (some item.matterId) (some h.matterId)).and (eqTo item.conversationId (some cid))

def afterCursor (sentAt : Option String) (id : String) (item : ConversationItem) : Truth :=
  Truth.caseWhen (isNull sentAt)
    ((isNull item.sentAt).and (less (some id) (some item.id)))
    (((isNotNull item.sentAt).and
        ((less sentAt item.sentAt).or ((eqTo item.sentAt sentAt).and (less (some id) (some item.id))))).or
      (isNull item.sentAt))

def beforeCursor (sentAt : Option String) (id : String) (item : ConversationItem) : Truth :=
  Truth.caseWhen (isNull sentAt)
    ((isNotNull item.sentAt).or ((isNull item.sentAt).and (less (some item.id) (some id))))
    ((isNotNull item.sentAt).and
      ((less item.sentAt sentAt).or ((eqTo item.sentAt sentAt).and (less (some item.id) (some id)))))

/-- `ORDER BY (sent_at IS NULL), sent_at ASC, id ASC`. -/
def streamOrder : List (ConversationItem → ConversationItem → Ordering) :=
  [asc fun item => item.sentAt.isNone, asc fun item => item.sentAt, asc fun item => item.id]

/-- `ORDER BY (sent_at IS NULL) DESC, sent_at DESC, id DESC`. -/
def streamOrderDesc : List (ConversationItem → ConversationItem → Ordering) :=
  [desc fun item => item.sentAt.isNone, desc fun item => item.sentAt, desc fun item => item.id]

def listConversationMessages (conversationId : String) (afterSentAt afterId : Option String) (limit : Nat)
    (includeReplySnippets : Bool) : Except CallError (List ConversationMessageRow) := do
  let limit := clampConversationStreamLimit limit
  let cid := trim conversationId
  if cid = "" then throw (.other "list_conversation_messages requires non-empty conversation_id")
  let rows :=
    if afterSentAt.isSome || afterId.isSome then
      selectMessages db (fun item => (h.ofConversation cid item).and
        (afterCursor afterSentAt (afterId.getD "") item))
        streamOrder limit
    else selectMessages db (h.ofConversation cid) streamOrder limit
  return h.withReplySnippets db includeReplySnippets rows

def listConversationMessagesBefore (conversationId : String) (beforeSentAt beforeId : Option String)
    (limit : Nat) (includeReplySnippets : Bool) :
    Except CallError (List ConversationMessageRow) := do
  let limitI := clampConversationStreamLimit limit
  let cid := trim conversationId
  if cid = "" then throw (.other "list_conversation_messages_before requires non-empty conversation_id")
  -- No cursor: the oldest page.
  if beforeSentAt.isNone && beforeId.isNone then
    h.listConversationMessages db cid none none limit includeReplySnippets
  else
    let rows := selectMessages db
      (fun item => (h.ofConversation cid item).and
        (beforeCursor beforeSentAt (beforeId.getD "") item)) streamOrderDesc limitI
    return h.withReplySnippets db includeReplySnippets rows.reverse

/-- The sides of a centered window: `before + 1 + after` is at most the largest page. -/
def aroundSides (before after : Option Nat) : Nat × Nat :=
  let maxSides := conversationStreamMaxLimit - 1
  let beforeN := min (before.getD conversationAroundBefore) maxSides
  let afterN := min (after.getD conversationAroundAfter) maxSides
  let sides := beforeN + afterN
  if sides > maxSides then
    let half := maxSides / 2
    let other := maxSides - half
    if beforeN ≥ half && afterN ≥ other then (half, other)
    else if beforeN > afterN then
      let beforeN := beforeN - (sides - maxSides)
      (beforeN, if beforeN + afterN > maxSides then maxSides - beforeN else afterN)
    else
      let afterN := afterN - (sides - maxSides)
      (if beforeN + afterN > maxSides then maxSides - afterN else beforeN, afterN)
  else (beforeN, afterN)

def retainFirst : List String → List ConversationMessageRow → List ConversationMessageRow
  | _, [] => []
  | seen, row :: rows =>
    if row.id ∈ seen then retainFirst seen rows else row :: retainFirst (row.id :: seen) rows

def listConversationMessagesAround (conversationId anchorItemId : String) (before after : Option Nat)
    (includeReplySnippets : Bool) : Except CallError (List ConversationMessageRow) := do
  let cid := trim conversationId
  let aid := trim anchorItemId
  if cid = "" || aid = "" then
    throw (.other "list_conversation_messages_around requires conversation_id and anchor_item_id")
  let (beforeN, afterN) := aroundSides before after
  -- Resolve anchor.
  match db.items.find? fun item => item.matterId = h.matterId ∧ item.id = aid with
  | none => throw (.itemNotFound aid)
  | some anchor =>
    match anchor.conversationId with
    | none => throw (.sqlite "Invalid column type Null at index: 1, name: conversation_id")
    | some anchorCid =>
      if anchorCid ≠ cid then throw (.other s!"anchor item {aid} is not in conversation {cid}")
      let beforeRows := (selectMessages db
        (fun item => (h.ofConversation cid item).and (beforeCursor anchor.sentAt aid item)) streamOrderDesc beforeN).reverse
      let afterRows := selectMessages db
        (fun item => (h.ofConversation cid item).and
          ((eqTo (some item.id) (some aid)).or (afterCursor anchor.sentAt aid item))) streamOrder (afterN + 1)
      -- Ensure anchor is present (should always be in after_rows).
      let solo := if !(afterRows.any fun r => r.id = aid) && !(beforeRows.any fun r => r.id = aid) then
          (db.items.filter fun item => item.matterId = h.matterId ∧ item.id = aid).map mapMessageRow
        else []
      let rows := retainFirst [] (beforeRows ++ solo ++ afterRows)
      if !(rows.any fun r => r.id = aid) then throw (.other s!"centered window failed to include anchor {aid}")
      return h.withReplySnippets db includeReplySnippets rows

/-- `MAX` of a nullable text. -/
def sqlMax (values : List (Option String)) : Option String := (values.filterMap id).max?

/-- `MIN` of a nullable text. -/
def sqlMin (values : List (Option String)) : Option String := (values.filterMap id).min?

/-- A group of `GROUP BY conversation_id`; `hits` is `tmp_conv_hits`. -/
def summaryOf (hits : List String) (cid : String) (group : List ConversationItem) : ConversationSummary where
  conversationId := cid
  chatType := sqlMax (group.map fun i => i.chatType)
  teamName := sqlMax (group.map fun i => i.teamName)
  channelName := sqlMax (group.map fun i => i.channelName)
  bucketDate := sqlMax (group.map fun i => i.conversationBucketDate)
  messageCount := group.length
  hitCount := group.countP fun i => i.id ∈ hits
  firstAt := sqlMin (group.map fun i => i.sentAt)
  lastAt := sqlMax (group.map fun i => i.sentAt)

def groupByConversation (cond : ConversationItem → Bool) (hits : List String) : List ConversationSummary :=
  let rows := db.items.filter fun i => i.matterId = h.matterId ∧ i.conversationId.isSome ∧ cond i
  (rows.filterMap fun i => i.conversationId).dedup.map fun cid =>
    summaryOf hits cid (rows.filter fun i => i.conversationId = some cid)

/-- `conversation_id IN (SELECT …)`: some item of the conversation is a hit. -/
def hasHit (hits : List String) (item : ConversationItem) : Bool :=
  db.items.any fun i2 => i2.matterId = h.matterId ∧ i2.conversationId.isSome ∧ i2.id ∈ hits
    ∧ i2.conversationId = item.conversationId

def keysetHaving (lastAt : Option String) (cid : String) (row : ConversationSummary) : Truth :=
  Truth.caseWhen (isNull lastAt)
    ((isNull row.lastAt).and (less (some cid) (some row.conversationId)))
    (((isNotNull row.lastAt).and
        ((less row.lastAt lastAt).or ((eqTo row.lastAt lastAt).and (less (some cid) (some row.conversationId))))).or
      (isNull row.lastAt))

/-- `ORDER BY (last_at IS NULL), last_at DESC, conversation_id ASC`. -/
def listOrder : List (ConversationSummary → ConversationSummary → Ordering) :=
  [asc fun row => row.lastAt.isNone, desc fun row => row.lastAt, asc fun row => row.conversationId]

def listConversations (hitItemIds : Option (List String))
    (afterLastAt afterConversationId : Option String) (limit : Nat) : List ConversationSummary :=
  let limit := clampConversationListLimit limit
  let useKeyset := afterLastAt.isSome || afterConversationId.isSome
  let groups :=
    match hitItemIds.filter (· ≠ []) with
    | some hits => h.groupByConversation db (h.hasHit db hits) hits
    | none => h.groupByConversation db (fun _ => true) []
  let groups :=
    if useKeyset then groups.filter fun row => keysetHaving afterLastAt
      (afterConversationId.getD "") row = some true
    else groups
  (orderBy listOrder groups).take limit

end ConversationHandle

end MatterCore
