import PstDedupe.MatterCore.Conversation

/-!
# Conversations are read exactly (`matter-core/src/conversation.rs`)

The conditions of the statements are comparisons in one order, so every page is a part of one
ordered list: `messages` for the stream of a conversation, `summaries` for the conversations.
-/

namespace MatterCore

open Rust Foundations List Option

def messageKey (sentAt : Option String) (id : String) : WithTop String ×ₗ String :=
  toLex (nullsLast sentAt, id)

/-- Where a conversation stands in the list: NULL last, `last_at` descending, `conversation_id`. -/
def summaryKey (lastAt : Option String) (cid : String) : WithTop Stringᵒᵈ ×ₗ String :=
  toLex (nullsLast (lastAt.map OrderDual.toDual), cid)

abbrev ConversationItem.key (item : ConversationItem) : WithTop String ×ₗ String :=
  messageKey item.sentAt item.id

abbrev ConversationMessageRow.key (row : ConversationMessageRow) : WithTop String ×ₗ String :=
  messageKey row.sentAt row.id

abbrev ConversationSummary.key (row : ConversationSummary) : WithTop Stringᵒᵈ ×ₗ String :=
  summaryKey row.lastAt row.conversationId

theorem messageKey_id {sentAt sentAt' : Option String} {id id' : String}
    (h : messageKey sentAt id = messageKey sentAt' id') :
    id = id' :=
  (Prod.mk.inj (toLex.injective h)).2

theorem summaryKey_cid {lastAt lastAt' : Option String} {cid cid' : String}
    (h : summaryKey lastAt cid = summaryKey lastAt' cid') :
    cid = cid' :=
  (Prod.mk.inj (toLex.injective h)).2

namespace ConversationHandle

/-! ## Conditions and orders -/

theorem streamOrder_ordersBy : OrdersBy streamOrder ConversationItem.key := by
  intro a b
  simp only [streamOrder, byTerms, foldr_cons, foldr_nil, asc, ConversationItem.key, messageKey,
    compare_toLex, compare_nullsLast, Ordering.then_eq, Ordering.then_assoc]

theorem streamOrderDesc_ordersBy :
    OrdersBy streamOrderDesc fun item => OrderDual.toDual item.key := by
  intro a b
  simp only [streamOrderDesc, byTerms, foldr_cons, foldr_nil, desc, ConversationItem.key,
    messageKey, compare_toDual, compare_toLex, compare_nullsLast, Ordering.then_eq,
    Ordering.then_assoc]

theorem listOrder_ordersBy : OrdersBy listOrder ConversationSummary.key := by
  intro a b
  have hdual : ∀ x y : Option String, (compare x.isNone y.isNone).then
      (compare (x.map OrderDual.toDual) (y.map OrderDual.toDual))
        = (compare x.isNone y.isNone).then (compare y x) := by
    rintro (_ | x) (_ | y)
    · rfl
    · rfl
    · rfl
    · exact congrArg _ (compare_toDual x y)
  simp only [listOrder, byTerms, foldr_cons, foldr_nil, asc, desc, ConversationSummary.key,
    summaryKey, compare_toLex, compare_nullsLast, isNone_map, hdual, Ordering.then_eq,
    ← Ordering.then_assoc]

theorem afterCursor_eq_true {sentAt : Option String} {id : String} {item : ConversationItem} :
    afterCursor sentAt id item = some true ↔ messageKey sentAt id < item.key := by
  unfold afterCursor ConversationItem.key messageKey
  rw [Prod.Lex.toLex_lt_toLex]
  rcases sentAt with _ | t <;> rcases hitem : item.sentAt with _ | u
  all_goals simp [Truth.caseWhen, Truth.and_eq_true, Truth.or_eq_true, nullsLast]

theorem beforeCursor_eq_true {sentAt : Option String} {id : String} {item : ConversationItem} :
    beforeCursor sentAt id item = some true ↔ item.key < messageKey sentAt id := by
  unfold beforeCursor ConversationItem.key messageKey
  rw [Prod.Lex.toLex_lt_toLex]
  rcases sentAt with _ | t <;> rcases hitem : item.sentAt with _ | u
  all_goals simp [Truth.caseWhen, Truth.and_eq_true, Truth.or_eq_true, nullsLast]
  exact or_congr_right (and_congr_left fun _ => eq_comm)

theorem keysetHaving_eq_true {lastAt : Option String} {cid : String} {row : ConversationSummary} :
    keysetHaving lastAt cid row = some true ↔ summaryKey lastAt cid < row.key := by
  unfold keysetHaving ConversationSummary.key summaryKey
  rw [Prod.Lex.toLex_lt_toLex]
  rcases lastAt with _ | t <;> rcases hrow : row.lastAt with _ | u
  all_goals simp [Truth.caseWhen, Truth.and_eq_true, Truth.or_eq_true, nullsLast]

/-! ## The stream of a conversation -/

section

variable (h : ConversationHandle) (db : ConversationDb)
  (cid : String) {cond : ConversationItem → Truth}

def messages : List ConversationItem :=
  orderBy streamOrder (db.items.filter fun item => h.ofConversation cid item = some true)

variable {h db cid}

theorem ofConversation_eq_true {item : ConversationItem} :
    h.ofConversation cid item = some true ↔ item.matterId = h.matterId ∧
      item.conversationId = some cid := by
  unfold ofConversation
  rw [Truth.and_eq_true, eqTo_eq_true, eqTo_eq_true]
  constructor
  · rintro ⟨⟨_, ⟨⟩, hmatter⟩, cid', hcid, ⟨⟩⟩
    exact ⟨(Option.some.inj hmatter).symm, hcid⟩
  · rintro ⟨hmatter, hcid⟩
    exact ⟨⟨_, rfl, congrArg some hmatter.symm⟩, cid, hcid, rfl⟩

theorem mem_messages {item : ConversationItem} : item ∈ h.messages db cid ↔
    item ∈ db.items ∧ item.matterId = h.matterId ∧ item.conversationId = some cid := by
  unfold messages
  rw [(orderBy_perm _ _).mem_iff, mem_filter, decide_eq_true_eq, ofConversation_eq_true]

theorem nodup_keys (p : ConversationItem → Bool) :
    ((db.items.filter p).map ConversationItem.key).Nodup := by
  refine Nodup.map_on (fun a ha b hb hkey => ?_) (db.keyed.of_map.filter _)
  exact inj_on_of_nodup_map db.keyed (mem_of_mem_filter ha) (mem_of_mem_filter hb)
    (messageKey_id hkey)

theorem pairwise_messages : (h.messages db cid).Pairwise fun a b => a.key < b.key :=
  streamOrder_ordersBy.pairwise_lt (nodup_keys _)

theorem orderBy_messages {p : ConversationItem → Prop} [DecidablePred p]
    (hcond : ∀ item, cond item = some true ↔ p item) :
    orderBy streamOrder
      (db.items.filter fun item => (h.ofConversation cid item).and (cond item) = some true)
      = (h.messages db cid).filter p := by
  have hfilter :
      (db.items.filter fun item => (h.ofConversation cid item).and (cond item) = some true)
      = (db.items.filter fun item => h.ofConversation cid item = some true).filter p := by
    rw [List.filter_filter]
    refine filter_congr fun item _ => ?_
    simp only [Truth.and_eq_true, hcond, and_comm, Bool.decide_and]
  rw [hfilter, orderBy_filter streamOrder_ordersBy (nodup_keys _)]
  rfl

theorem selectMessages_after {p : ConversationItem → Prop} [DecidablePred p]
    (hcond : ∀ item, cond item = some true ↔ p item) (n : Nat) :
    selectMessages db (fun item => (h.ofConversation cid item).and (cond item)) streamOrder n
      = (((h.messages db cid).filter p).take n).map mapMessageRow := by
  unfold selectMessages
  rw [orderBy_messages hcond]

theorem selectMessages_before {p : ConversationItem → Prop} [DecidablePred p]
    (hcond : ∀ item, cond item = some true ↔ p item) (n : Nat) :
    (selectMessages db (fun item => (h.ofConversation cid item).and (cond item)) streamOrderDesc
      n).reverse
      = (((h.messages db cid).filter p).rtake n).map mapMessageRow := by
  unfold selectMessages
  rw [orderBy_reversed streamOrder_ordersBy streamOrderDesc_ordersBy (nodup_keys _),
    orderBy_messages hcond, ← map_reverse, ← rtake_eq_reverse_take_reverse]

end

section

variable (h : ConversationHandle) (db : ConversationDb)

def replySnippetForParent (parentItemId : String) : String :=
  match db.items.find? fun item => item.id = parentItemId ∧ item.matterId = h.matterId with
  | some item => h.snippetFromItemFields item.textSha256 item.subject
  | none => replySnippetUnavailable

def shown (includeReplySnippets : Bool) (row : ConversationMessageRow) : ConversationMessageRow :=
  match includeReplySnippets, row.parentItemId with
  | true, some pid => { row with replySnippet := some (h.replySnippetForParent db pid) }
  | _, _ => row

variable {h db}

@[simp] theorem key_shown (includeReplySnippets : Bool) (row : ConversationMessageRow) :
    (h.shown db includeReplySnippets row).key = row.key := by
  unfold shown
  split <;> rfl

theorem lookup_parentReplySnippets {parentIds : List String} {pid : String}
    (hmem : pid ∈ parentIds) :
    (h.parentReplySnippets db parentIds).lookup pid = some (h.replySnippetForParent db pid) := by
  have hlookup : ∀ ids : List String, pid ∈ ids →
      (ids.map fun id => (id, h.replySnippetForParent db id)).lookup pid
        = some (h.replySnippetForParent db pid) := by
    intro ids hmem
    induction ids with
    | nil => nomatch hmem
    | cons id ids ih =>
      rw [map_cons, lookup_cons]
      by_cases hid : pid = id
      · rw [beq_iff_eq.mpr hid, hid]
      · rw [beq_eq_false_iff_ne.mpr hid]
        exact ih ((List.mem_cons.mp hmem).resolve_left hid)
  exact hlookup _ (List.mem_dedup.2 hmem)

theorem withReplySnippets_eq (includeReplySnippets : Bool) (rows : List ConversationMessageRow) :
    h.withReplySnippets db includeReplySnippets rows
      = rows.map (h.shown db includeReplySnippets) := by
  cases includeReplySnippets with
  | false =>
    have hshown : ∀ row ∈ rows, h.shown db false row = id row := fun row _ => rfl
    rw [map_congr_left hshown, List.map_id]
    rfl
  | true =>
    show h.attachReplySnippets db rows = _
    unfold attachReplySnippets
    by_cases hnone : (rows.filterMap fun row => row.parentItemId) = []
    · have hshown : ∀ row ∈ rows, h.shown db true row = id row := by
        intro row hrow
        have hparent := List.filterMap_eq_nil_iff.mp hnone row hrow
        unfold shown
        rw [hparent]
        rfl
      rw [map_congr_left hshown, List.map_id, if_pos hnone]
    · rw [if_neg hnone]
      refine map_congr_left fun row hrow => ?_
      unfold shown
      cases hparent : row.parentItemId with
      | none => rfl
      | some pid =>
        have hpid : pid ∈ rows.filterMap fun row => row.parentItemId :=
          List.mem_filterMap.mpr ⟨row, hrow, hparent⟩
        simp only [lookup_parentReplySnippets hpid, getD_some]

end

theorem aroundSides_fits (before after : Option Nat) :
    (aroundSides before after).1 + 1 + (aroundSides before after).2 ≤ conversationStreamMaxLimit
      ∧ (aroundSides before after).1 ≤ before.getD conversationAroundBefore
      ∧ (aroundSides before after).2 ≤ after.getD conversationAroundAfter := by
  unfold aroundSides conversationStreamMaxLimit
  simp only [Bool.and_eq_true, decide_eq_true_eq]
  split_ifs <;> omega

theorem retainFirst_eq_self {rows : List ConversationMessageRow} {seen : List String}
    (hnodup : (rows.map ConversationMessageRow.id).Nodup) (hnew : ∀ row ∈ rows, row.id ∉ seen) :
    retainFirst seen rows = rows := by
  induction rows generalizing seen with
  | nil => rfl
  | cons row rows ih =>
    rw [map_cons, nodup_cons] at hnodup
    unfold retainFirst
    rw [if_neg (hnew row mem_cons_self), ih hnodup.2]
    intro later hlater
    rw [mem_cons, not_or]
    refine ⟨fun heq => hnodup.1 ?_, hnew later (mem_cons_of_mem _ hlater)⟩
    rw [← heq]
    exact List.mem_map_of_mem hlater

section

variable {h : ConversationHandle} {db : ConversationDb} {cid : String}
  {before after : List ConversationItem} {anchor : ConversationItem}

theorem filter_anchor (hmessages : h.messages db cid = before ++ anchor :: after) :
    (h.messages db cid).filter (fun item => item.id = anchor.id ∨ anchor.key < item.key)
      = anchor :: after := by
  have hanchor : anchor ∈ db.items := (mem_messages.mp (by rw [hmessages]; simp)).1
  have hle : ∀ item ∈ h.messages db cid,
      decide (item.id = anchor.id ∨ anchor.key < item.key) = decide (anchor.key ≤ item.key) := by
    intro item hitem
    refine decide_eq_decide.mpr ⟨?_, fun hle => ?_⟩
    · rintro (hid | hlt)
      · rw [inj_on_of_nodup_map db.keyed (mem_messages.mp hitem).1 hanchor hid]
      · exact hlt.le
    · exact (eq_or_lt_of_le hle).imp_left fun heq => (messageKey_id heq).symm
  rw [filter_congr hle, hmessages]
  exact filter_key_le (hmessages ▸ pairwise_messages)

theorem find?_anchor (hmessages : h.messages db cid = before ++ anchor :: after) :
    (db.items.find? fun item => item.matterId = h.matterId ∧ item.id = anchor.id)
      = some anchor := by
  obtain ⟨hanchor, hmatter, _⟩ :=
    mem_messages.mp (show anchor ∈ h.messages db cid by rw [hmessages]; simp)
  cases hfind : db.items.find? fun item => item.matterId = h.matterId ∧ item.id = anchor.id with
  | none => exact absurd (List.find?_eq_none.mp hfind anchor hanchor) (by simp [hmatter])
  | some item =>
    have hfound := find?_some hfind
    rw [decide_eq_true_eq] at hfound
    rw [inj_on_of_nodup_map db.keyed (mem_of_find?_eq_some hfind) hanchor hfound.2]

theorem listConversationMessagesAround_eq {conversationId anchorItemId : String}
    (hcid : trim conversationId = cid) (hne : cid ≠ "")
    (hmessages : h.messages db cid = before ++ anchor :: after)
    (haid : trim anchorItemId = anchor.id) (hid : anchor.id ≠ "") (beforeN afterN : Option Nat)
    (includeReplySnippets : Bool) :
    h.listConversationMessagesAround db conversationId anchorItemId beforeN afterN
      includeReplySnippets
      = .ok ((before.rtake (aroundSides beforeN afterN).1 ++ anchor ::
        after.take (aroundSides beforeN afterN).2).map
          fun item => h.shown db includeReplySnippets (mapMessageRow item)) := by
  obtain ⟨_, _, hconversation⟩ :=
    mem_messages.mp (show anchor ∈ h.messages db cid by rw [hmessages]; simp)
  have hbefore : (h.messages db cid).filter (fun item => item.key < anchor.key) = before := by
    rw [hmessages]
    exact filter_key_lt (hmessages ▸ pairwise_messages)
  have hafter : ∀ item, (eqTo (some item.id) (some anchor.id)).or (afterCursor anchor.sentAt anchor.id item) = some true
      ↔ item.id = anchor.id ∨ anchor.key < item.key := by
    intro item
    rw [Truth.or_eq_true, afterCursor_eq_true]
    simp [eqTo]
  -- the two pages, and the anchor between them
  let window := before.rtake (aroundSides beforeN afterN).1 ++ anchor ::
    after.take (aroundSides beforeN afterN).2
  have hsub : Sublist window (h.messages db cid) := by
    rw [hmessages]
    exact (drop_sublist _ _).append ((take_sublist _ _).cons_cons _)
  have hnodup : ((window.map mapMessageRow).map ConversationMessageRow.id).Nodup := by
    rw [List.map_map]
    refine (hsub.map ConversationItem.id).nodup ?_
    exact ((orderBy_perm _ _).map _).nodup_iff.mpr ((List.filter_sublist.map _).nodup db.keyed)
  have hretain : retainFirst [] (window.map mapMessageRow) = window.map mapMessageRow :=
    retainFirst_eq_self hnodup fun row _ => not_mem_nil
  have hbeforeRows : (selectMessages db
      (fun item => (h.ofConversation cid item).and (beforeCursor anchor.sentAt anchor.id item))
        streamOrderDesc
        (aroundSides beforeN afterN).1).reverse = _ :=
    selectMessages_before (fun _ => beforeCursor_eq_true) _
  have hafterRows : selectMessages db (fun item => (h.ofConversation cid item).and
      ((eqTo (some item.id) (some anchor.id)).or (afterCursor anchor.sentAt anchor.id item))) streamOrder
        ((aroundSides beforeN afterN).2 + 1) = _ :=
    selectMessages_after hafter _
  rw [hbefore] at hbeforeRows
  rw [filter_anchor hmessages, take_succ_cons] at hafterRows
  have hpresent : ((anchor :: after.take (aroundSides beforeN afterN).2).map mapMessageRow).any
      (fun r => r.id = anchor.id)
      = true := by
    simp [mapMessageRow]
  have hkept : (window.map mapMessageRow).any (fun r => r.id = anchor.id) = true := by
    rw [map_append, any_append, hpresent, Bool.or_true]
  unfold listConversationMessagesAround
  simp only [hcid, haid, hne, hid, find?_anchor hmessages, hconversation, hbeforeRows, hafterRows,
    hpresent, Bool.not_true, Bool.false_and, Bool.false_eq_true, decide_false, Bool.or_self, ne_eq,
    not_true_eq_false, if_false, append_nil, ← map_append]
  show (if !((retainFirst [] (window.map mapMessageRow)).any fun r => r.id = anchor.id) then _
    else _) = _
  rw [hretain, hkept, withReplySnippets_eq, List.map_map]
  rfl

end

/-! ## The pages of the stream -/

section

variable (h : ConversationHandle) (db : ConversationDb) (cid : String) (includeReplySnippets : Bool)

def stream : List ConversationMessageRow :=
  (h.messages db cid).map fun item => h.shown db includeReplySnippets (mapMessageRow item)

def nextPage (conversationId : String) (limit : Nat) (cursor : Option ConversationMessageRow) :
    Except CallError (List ConversationMessageRow) :=
  h.listConversationMessages db conversationId (cursor.bind fun row => row.sentAt)
    (cursor.map fun row => row.id) limit
    includeReplySnippets

def previousPage (conversationId : String) (limit : Nat) (cursor : Option ConversationMessageRow) :
    Except CallError (List ConversationMessageRow) :=
  h.listConversationMessagesBefore db conversationId (cursor.bind fun row => row.sentAt)
    (cursor.map fun row => row.id) limit
    includeReplySnippets

variable {h db cid includeReplySnippets} {conversationId : String} {limit : Nat}

theorem mem_stream {row : ConversationMessageRow} : row ∈ h.stream db cid includeReplySnippets ↔
    ∃ item ∈ db.items, item.matterId = h.matterId ∧ item.conversationId = some cid
      ∧ h.shown db includeReplySnippets (mapMessageRow item) = row := by
  unfold stream
  simp only [List.mem_map, mem_messages, and_assoc]

theorem pairwise_stream :
    (h.stream db cid includeReplySnippets).Pairwise fun a b => a.key < b.key := by
  unfold stream
  rw [pairwise_map]
  simp only [key_shown]
  exact pairwise_messages

theorem filter_stream (p : WithTop String ×ₗ String → Bool) :
    (h.stream db cid includeReplySnippets).filter (fun row => p row.key)
      = ((h.messages db cid).filter fun item => p item.key).map
          fun item => h.shown db includeReplySnippets (mapMessageRow item) := by
  unfold stream
  rw [List.filter_map]
  simp only [Function.comp_def, key_shown]
  rfl

theorem nextPage_none (hcid : trim conversationId = cid) (hne : cid ≠ "") :
    h.nextPage db includeReplySnippets conversationId limit none
      = .ok ((h.stream db cid includeReplySnippets).take (clampConversationStreamLimit limit)) := by
  unfold nextPage listConversationMessages
  simp only [hcid, hne, if_false, bind_none, map_none, isSome_none, Bool.or_self,
    Bool.false_eq_true, withReplySnippets_eq]
  unfold selectMessages stream messages
  rw [List.map_map, map_take]
  rfl

theorem nextPage_some (hcid : trim conversationId = cid) (hne : cid ≠ "")
    (r : ConversationMessageRow) : h.nextPage db includeReplySnippets conversationId limit (some r)
      = .ok (((h.stream db cid includeReplySnippets).filter fun row => r.key < row.key).take
          (clampConversationStreamLimit limit)) := by
  unfold nextPage listConversationMessages
  simp only [hcid, hne, if_false, bind_some, map_some, isSome_some, Bool.or_true, if_true,
    getD_some, withReplySnippets_eq]
  rw [selectMessages_after (fun _ => afterCursor_eq_true), filter_stream fun key => r.key < key,
    List.map_map, map_take]
  rfl

theorem previousPage_some (hcid : trim conversationId = cid) (hne : cid ≠ "")
    (r : ConversationMessageRow) :
    h.previousPage db includeReplySnippets conversationId limit (some r)
      = .ok (((h.stream db cid includeReplySnippets).filter fun row => row.key < r.key).rtake
          (clampConversationStreamLimit limit)) := by
  unfold previousPage listConversationMessagesBefore
  simp only [hcid, hne, if_false, bind_some, map_some, isNone_some, Bool.and_false,
    Bool.false_eq_true, getD_some, withReplySnippets_eq]
  rw [selectMessages_before (fun _ => beforeCursor_eq_true), filter_stream fun key => key < r.key,
    List.map_map]
  unfold rtake
  rw [map_drop, length_map]
  rfl

end

/-! ## The pages of the list -/

section

variable (h : ConversationHandle) (db : ConversationDb) (hitItemIds : Option (List String))

def hitFilter : List String := (hitItemIds.filter (· ≠ [])).getD []

def groups : List ConversationSummary :=
  match hitItemIds.filter (· ≠ []) with
  | some hits => h.groupByConversation db (h.hasHit db hits) hits
  | none => h.groupByConversation db (fun _ => true) []

def summaries : List ConversationSummary := orderBy listOrder (h.groups db hitItemIds)

def nextSummaries (limit : Nat) (cursor : Option ConversationSummary) :
    Except CallError (List ConversationSummary) :=
  .ok (h.listConversations db hitItemIds (cursor.bind fun row => row.lastAt)
    (cursor.map fun row => row.conversationId) limit)

variable {h db hitItemIds} {limit : Nat}

theorem mem_groupByConversation {p : ConversationItem → Bool} {hits : List String}
    {row : ConversationSummary}
    (hp : ∀ i i' : ConversationItem, i.conversationId = i'.conversationId → p i = p i') :
    row ∈ h.groupByConversation db p hits ↔ ∃ item ∈ db.items, ∃ cid, item.matterId = h.matterId
      ∧ item.conversationId = some cid ∧ p item
      ∧ row = summaryOf hits cid (db.items.filter fun i => i.matterId = h.matterId ∧
        i.conversationId = some cid) := by
  unfold groupByConversation
  have hgroup : ∀ item cid, item.conversationId = some cid → p item = true →
      (db.items.filter fun i => i.matterId = h.matterId ∧ i.conversationId.isSome ∧ p i).filter
        (fun i => i.conversationId = some cid)
        = db.items.filter fun i => i.matterId = h.matterId ∧ i.conversationId = some cid := by
    intro item cid hcid hitem
    rw [List.filter_filter]
    refine filter_congr fun i _ => ?_
    by_cases hi : i.conversationId = some cid
    · simp [hi, hp i item (hi.trans hcid.symm), hitem]
    · simp [hi]
  simp only [List.mem_map, mem_dedup, mem_filterMap, mem_filter, decide_eq_true_eq]
  constructor
  · rintro ⟨cid, ⟨item, ⟨hmem, hmatter, _, hitem⟩, hcid⟩, rfl⟩
    exact ⟨item, hmem, cid, hmatter, hcid, hitem, by rw [hgroup item cid hcid hitem]⟩
  · rintro ⟨item, hmem, cid, hmatter, hcid, hitem, rfl⟩
    exact ⟨cid,
      ⟨item, ⟨hmem, hmatter, by rw [hcid]; rfl, hitem⟩, hcid⟩, by rw [hgroup item cid hcid hitem]⟩

theorem nodup_groupByConversation (p : ConversationItem → Bool) (hits : List String) :
    ((h.groupByConversation db p hits).map ConversationSummary.key).Nodup := by
  unfold groupByConversation
  rw [List.map_map]
  exact (nodup_dedup _).map fun cid cid' hkey => summaryKey_cid hkey

theorem nodup_groups : ((h.groups db hitItemIds).map ConversationSummary.key).Nodup := by
  unfold groups
  split
  · exact nodup_groupByConversation _ _
  · exact nodup_groupByConversation _ _

theorem pairwise_summaries : (h.summaries db hitItemIds).Pairwise fun a b => a.key < b.key :=
  listOrder_ordersBy.pairwise_lt nodup_groups

theorem mem_summaries {row : ConversationSummary} : row ∈ h.summaries db hitItemIds ↔
    ∃ item ∈ db.items, ∃ cid, item.matterId = h.matterId ∧ item.conversationId = some cid
      ∧ (hitFilter hitItemIds ≠ [] → item.id ∈ hitFilter hitItemIds)
      ∧ row = summaryOf (hitFilter hitItemIds) cid
          (db.items.filter fun i => i.matterId = h.matterId ∧ i.conversationId = some cid) := by
  unfold summaries groups hitFilter
  rw [(orderBy_perm _ _).mem_iff]
  cases hhits : hitItemIds.filter (· ≠ []) with
  | none =>
    rw [mem_groupByConversation fun _ _ _ => rfl]
    simp
  | some hits =>
    have hne : hits ≠ [] := by
      have hfilter := (Option.filter_eq_some_iff.mp hhits).2
      simpa using hfilter
    rw [mem_groupByConversation fun i i' heq => by unfold hasHit; rw [heq]]
    unfold hasHit
    simp only [List.any_eq_true, decide_eq_true_eq, getD_some, hne, ne_eq, not_false_eq_true,
      true_implies]
    constructor
    · rintro ⟨item, hmem, cid, hmatter, hcid, ⟨item', hmem', hmatter', _, hhit, heq⟩, hrow⟩
      exact ⟨item', hmem', cid, hmatter', heq.trans hcid, hhit, hrow⟩
    · rintro ⟨item, hmem, cid, hmatter, hcid, hhit, hrow⟩
      exact ⟨item, hmem, cid, hmatter, hcid,
        ⟨item, hmem, hmatter, by rw [hcid]; rfl, hhit, rfl⟩, hrow⟩

theorem nextSummaries_none : h.nextSummaries db hitItemIds limit none
    = .ok ((h.summaries db hitItemIds).take (clampConversationListLimit limit)) := rfl

theorem nextSummaries_some (r : ConversationSummary) : h.nextSummaries db hitItemIds limit (some r)
    = .ok (((h.summaries db hitItemIds).filter fun row => r.key < row.key).take
      (clampConversationListLimit limit)) := by
  have hkeyset : (h.groups db hitItemIds).filter
      (fun row => keysetHaving r.lastAt r.conversationId row = some true)
      = (h.groups db hitItemIds).filter fun row => r.key < row.key :=
    filter_congr fun row _ => decide_eq_decide.mpr keysetHaving_eq_true
  unfold summaries
  rw [← orderBy_filter listOrder_ordersBy nodup_groups, ← hkeyset]
  unfold nextSummaries listConversations
  simp only [bind_some, map_some, isSome_some, Bool.or_true, if_true, getD_some]
  rfl

end

end ConversationHandle

open ConversationHandle

theorem clampConversationStreamLimit_pos (limit : Nat) :
    0 < clampConversationStreamLimit limit := by
  unfold clampConversationStreamLimit conversationStreamDefaultLimit conversationStreamMaxLimit
  split <;> omega

theorem clampConversationListLimit_pos (limit : Nat) : 0 < clampConversationListLimit limit := by
  unfold clampConversationListLimit conversationListDefaultLimit conversationListMaxLimit
  split <;> omega

/-- **Conversations are read exactly.** The stream of a conversation has its messages in order, each
once; reading forward gives it from the front, reading back from a row gives what precedes that row,
and a window around a row is the row with its neighbours on both sides. The list of conversations is
read forward in its own order. -/
theorem conversations_read_exactly (h : ConversationHandle) (db : ConversationDb)
    (includeReplySnippets : Bool) (limit : Nat) (conversationId : String)
    (hcid : trim conversationId ≠ "") :
    (let stream := h.stream db (trim conversationId) includeReplySnippets;
      (stream.Pairwise fun a b => a.key < b.key)
        ∧ (∀ row, row ∈ stream ↔ ∃ item ∈ db.items, item.matterId = h.matterId
            ∧ item.conversationId = some (trim conversationId) ∧ h.shown db includeReplySnippets (mapMessageRow item) = row)
        ∧ (0 < clampConversationStreamLimit limit ∧ ∀ n,
            readPages (h.nextPage db includeReplySnippets conversationId limit) n none
              = .ok (stream.take (n * clampConversationStreamLimit limit)))
        ∧ ∀ before r after, stream = before ++ r :: after →
            (∀ n, readPagesBack (h.previousPage db includeReplySnippets conversationId limit) n
              (some r)
              = .ok (before.rtake (n * clampConversationStreamLimit limit)))
            ∧ ∀ anchorItemId, trim anchorItemId = r.id → r.id ≠ "" → ∀ beforeN afterN,
                h.listConversationMessagesAround db conversationId anchorItemId beforeN afterN
                  includeReplySnippets
                    = .ok (before.rtake (aroundSides beforeN afterN).1
                        ++ r :: after.take (aroundSides beforeN afterN).2)
                  ∧ (aroundSides beforeN afterN).1 + 1 + (aroundSides beforeN afterN).2
                      ≤ conversationStreamMaxLimit)
    ∧ ∀ hitItemIds, let list := h.summaries db hitItemIds
        (list.Pairwise fun a b => a.key < b.key)
          ∧ (∀ row, row ∈ list ↔ ∃ item ∈ db.items, ∃ cid, item.matterId = h.matterId ∧
            item.conversationId = some cid
              ∧ (hitFilter hitItemIds ≠ [] → item.id ∈ hitFilter hitItemIds)
              ∧ row = summaryOf (hitFilter hitItemIds) cid
                  (db.items.filter fun i => i.matterId = h.matterId ∧ i.conversationId = some cid))
          ∧ 0 < clampConversationListLimit limit ∧ ∀ n,
            readPages (h.nextSummaries db hitItemIds limit) n none
              = .ok (list.take (n * clampConversationListLimit limit)) := by
  refine ⟨⟨pairwise_stream, fun _ => mem_stream,
    ⟨clampConversationStreamLimit_pos limit, fun n => ?_⟩, fun before r after hstream => ⟨fun n => ?_, ?_⟩⟩,
    fun hitItemIds => ⟨pairwise_summaries, fun _ => mem_summaries,
      clampConversationListLimit_pos limit, fun n => ?_⟩⟩
  · exact readPages_eq pairwise_stream (nextPage_none rfl hcid)
      (fun r _ => nextPage_some rfl hcid r) n
  · refine readPagesBack_eq (hstream ▸ pairwise_stream) (fun r' _ => ?_) n
    rw [← hstream]
    exact previousPage_some rfl hcid r'
  · intro anchorItemId haid hid beforeN afterN
    obtain ⟨itemsBefore, rest, hmessages, rfl, hrest⟩ := List.map_eq_append_iff.mp hstream
    obtain ⟨anchor, itemsAfter, rfl, rfl, rfl⟩ := List.map_eq_cons_iff.mp hrest
    have hshown : (h.shown db includeReplySnippets (mapMessageRow anchor)).id = anchor.id :=
      messageKey_id (key_shown includeReplySnippets (mapMessageRow anchor))
    refine ⟨?_, (aroundSides_fits beforeN afterN).1⟩
    rw [listConversationMessagesAround_eq rfl hcid hmessages (haid.trans hshown) (hshown ▸ hid),
      map_append, map_cons, map_take]
    unfold rtake
    rw [map_drop, length_map]
  · exact readPages_eq pairwise_summaries nextSummaries_none
      (fun r _ => nextSummaries_some r) n

/-- Three messages of a day, one of them without a time, one whose id starts with a blank, and one
of a conversation whose id does. -/
def teamsDay : ConversationDb where
  items := [
    { id := "m3", matterId := "m", conversationId := some "daily" },
    { id := "m2", matterId := "m", conversationId := some "daily", sentAt := some "2026-01-05T09:00:00Z" },
    { id := "m1", matterId := "m", conversationId := some "daily", sentAt := some "2026-01-05T09:00:00Z" },
    { id := " m4", matterId := "m", conversationId := some "daily" },
    { id := "m5", matterId := "m", conversationId := some " daily" }]
  keyed := by decide

def teamsHandle : ConversationHandle := ⟨"m", fun _ _ => none⟩

theorem conversations_read_exactly_daily :
    readPages (teamsHandle.nextPage teamsDay false " daily " 2) 3 none
    = .ok ((teamsHandle.stream teamsDay "daily" false).take (3 * 2)) :=
  (conversations_read_exactly teamsHandle teamsDay false 2 " daily " (by decide)).1.2.2.1.2 3

theorem conversations_read_exactly_fails_for_blanks :
    (∃ row ∈ teamsHandle.stream teamsDay " daily" false, ∀ n rows,
      readPages (teamsHandle.nextPage teamsDay false " daily" 2) n none = .ok rows → row ∉ rows)
    ∧ (∃ row ∈ teamsHandle.stream teamsDay "daily" false, row.id = " m4"
      ∧ teamsHandle.listConversationMessagesAround teamsDay "daily" row.id none none false = .error (.itemNotFound "m4")) := by
  constructor
  · refine ⟨mapMessageRow
      { id := "m5", matterId := "m", conversationId := some " daily" }, by decide +kernel, ?_⟩
    intro n rows hrows hmem
    have htrimmed : trim " daily" = "daily" := by decide
    have hread : readPages (teamsHandle.nextPage teamsDay false " daily" 2) n none
        = .ok ((teamsHandle.stream teamsDay "daily" false).take
          (n * clampConversationStreamLimit 2)) :=
      readPages_eq pairwise_stream (nextPage_none htrimmed (by decide))
        (fun r _ => nextPage_some htrimmed (by decide) r) n
    rw [hrows, Except.ok.injEq] at hread
    have hnone : ∀ row ∈ teamsHandle.stream teamsDay "daily" false, row.id ≠ "m5" := by
      decide +kernel
    exact hnone _ (mem_of_mem_take (hread ▸ hmem)) rfl
  · exact ⟨mapMessageRow { id := " m4", matterId := "m", conversationId := some "daily" }, by decide +kernel, rfl, by decide +kernel⟩

end MatterCore
