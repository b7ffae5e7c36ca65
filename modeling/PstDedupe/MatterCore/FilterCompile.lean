import PstDedupe.MatterCore.MatterDb

/-!
# The conditions of a filter and how their values are read (`matter-core/src/filter.rs`)

A `FilterSpec` comes from the client as JSON.
-/

namespace MatterCore

open Rust

def filterSpecVersion : Nat := 1

def scopeReviewCorpus : String := "review_corpus"

def scopeEntireMatter : String := "entire_matter"

structure FilterCondition where
  field : String
  op : String
  value : Option JsonValue := none
  values : Option (List String) := none
  start : Option String := none
  «end» : Option String := none

structure FilterSpec where
  version : Nat := filterSpecVersion
  scope : String := scopeReviewCorpus
  includeFamily : Bool := false
  conditions : List FilterCondition := []

inductive SqlValue where
  | integer (n : Int)
  | real (x : Float)
  | text (s : String)

/-- The parsers of numbers and instants, instants in UTC milliseconds: `parse::<f64>`,
`DateTime::parse_from_rfc3339` and `parse::<DateTime<FixedOffset>>`. -/
structure FilterParsers where
  f64 : String → Option Float
  rfc3339 : String → Option Int
  fixedOffset : String → Option Int

def lastSign (cs : List Char) : Option Nat :=
  (cs.reverse.findIdx? fun c => c = '+' || c = '-').map fun i => cs.length - 1 - i

/-- No `Z`, and no offset of four bytes or more behind the `T`. -/
def isNaiveDatetime (s : String) : Bool :=
  let cs := s.toList
  if cs.getLast? = some 'Z' || cs.getLast? = some 'z' then false
  else
    match lastSign cs, (cs.findIdx? (· = 'T')).or (cs.findIdx? (· = 't')) with
    | some pos, some tpos =>
      !(decide (pos > tpos) && decide ((String.ofList (cs.drop (pos + 1))).utf8ByteSize ≥ 4))
    | _, _ => true

def parseBoundInstant (lib : FilterParsers) (s : String) : Except CallError Int :=
  let t := trim s
  if t = "" then .error (.other "date bound is empty; require RFC3339 with offset or Z")
  else if isNaiveDatetime t then
    .error (.other s!"date bound must include timezone offset or Z (got naive '{t}')")
  else
    match (lib.rfc3339 t).or (lib.fixedOffset t) with
    | some millis => .ok millis
    | none => .error (.other s!"invalid RFC3339 date bound '{t}' (offset or Z required)")

def requireDateBound (lib : FilterParsers) (raw : Option String) (label : String) : Except CallError Int :=
  match (raw.map trim).filter (· ≠ "") with
  | none => .error (.other s!"date condition missing {label} bound (RFC3339 with offset required)")
  | some s => parseBoundInstant lib s

/-! ## Lists, texts, numbers, flags -/

def FilterCondition.entries (cond : FilterCondition) : List String :=
  ((cond.values.getD []).map trim).filter (· ≠ "")

def requireValues (cond : FilterCondition) (ctx : String) : Except CallError (List String) :=
  if cond.entries = [] then .error (.other s!"filter {ctx} requires non-empty 'values' array")
  else .ok cond.entries

def requireStringValue (cond : FilterCondition) (field : String) : Except CallError String :=
  let fromValue := cond.value.bind fun v =>
    (((v.asStr).map trim).filter (· ≠ "")).or (v.asI64.map toString)
  -- Allow single-element values as value.
  let fromValues := match cond.values with
    | some [single] => if trim single = "" then none else some (trim single)
    | _ => none
  match fromValue.or fromValues with
  | some s => .ok s
  | none => .error (.other s!"filter field '{field}' requires a non-empty string 'value'")

def requireI64Value (cond : FilterCondition) (field : String) : Except CallError Int :=
  match cond.value.bind fun v => v.asI64.or (v.asStr.bind fun s => parseI64 (trim s)) with
  | some n => .ok n
  | none => .error (.other s!"filter field '{field}' requires an integer 'value'")

def requireI64Between (cond : FilterCondition) (field : String) : Except CallError (Int × Int) :=
  let lo := (cond.start.bind fun s => parseI64 (trim s)).or (cond.value.bind fun v => v.asI64)
  let hi := cond.end.bind fun s => parseI64 (trim s)
  match lo, hi with
  | some a, some b => .ok (a, b)
  | _, _ => .error (.other s!"filter field '{field}' between requires integer start and end")

def requireF64Value (lib : FilterParsers) (cond : FilterCondition) (field : String) : Except CallError Float :=
  match cond.value.bind fun v => v.asF64.or (v.asStr.bind fun s => lib.f64 (trim s)) with
  | some x => .ok x
  | none => .error (.other s!"filter field '{field}' requires a numeric 'value'")

def requireF64Between (lib : FilterParsers) (cond : FilterCondition) (field : String) :
    Except CallError (Float × Float) :=
  let lo := (cond.start.bind fun s => lib.f64 (trim s)).or (cond.value.bind fun v => v.asF64)
  let hi := cond.end.bind fun s => lib.f64 (trim s)
  match lo, hi with
  | some a, some b => .ok (a, b)
  | _, _ => .error (.other s!"filter field '{field}' between requires numeric start and end")

def i64Value (cond : FilterCondition) (field : String) : Except CallError Int :=
  let number := cond.value.bind fun v =>
    (v.asI64.or ((v.asU64.filter (· < 2 ^ 63)).map Int.ofNat)).or (v.asStr.bind fun s => parseI64 (trim s))
  match number with
  | some n => .ok n
  | none => .error (.other s!"filter field '{field}' requires integer 'value'")

def flagOf (v : JsonValue) : Option Bool :=
  (v.asBool.or (v.asI64.map (· ≠ 0))).or
    (v.asStr.bind fun s =>
      let word := toAsciiLowercase (trim s)
      if word = "true" ∨ word = "1" ∨ word = "yes" then some true
      else if word = "false" ∨ word = "0" ∨ word = "no" then some false
      else none)

/-- The flag of a condition; one that is left out is true. -/
def FilterCondition.flag (cond : FilterCondition) : Option Bool :=
  match cond.value with
  | none => some true
  | some v => flagOf v

def boolValue (cond : FilterCondition) (field : String) : Except CallError Bool :=
  match cond.flag with
  | some b => .ok b
  | none => .error (.other s!"filter field '{field}' requires boolean 'value'")

def boolOrIntValue (cond : FilterCondition) (field : String) : Except CallError Int := do
  return if ← boolValue cond field then 1 else 0

/-!
# Filters compiled to SQL (`matter-core/src/filter.rs`)

`compileFilter` pushes the text of every condition to `whereParts` and its values to `params`, and
puts the texts of the list and the count together from the parts.
-/

/-! ## The table of conditions -/

inductive TextColumn where
  | custodian | fromAddr | fileCategory | role | dedupRole | cullStatus | mimeType | subject | path
  deriving DecidableEq, Repr

def TextColumn.name : TextColumn → String
  | .custodian => "custodian"
  | .fromAddr => "from_addr"
  | .fileCategory => "file_category"
  | .role => "role"
  | .dedupRole => "dedup_role"
  | .cullStatus => "cull_status"
  | .mimeType => "mime_type"
  | .subject => "subject"
  | .path => "path"

inductive DateField where
  | sentAt | receivedAt | bestEffortDate
  deriving DecidableEq, Repr

inductive Side where
  | gte | lte
  deriving DecidableEq, Repr

def Side.cmp : Side → String
  | .gte => ">="
  | .lte => "<="

/-- An arm of the match of `push_condition`. -/
inductive FilterArm where
  | inReview
  | codeMissing
  | codeAnyOf
  | codeAllOf
  | codeNoneOf
  | columnEq (col : TextColumn)
  | columnIn (col : TextColumn)
  | columnContains (col : TextColumn)
  | mimeTypePrefix
  | sizeBytes (side : Side)
  | sizeBytesBetween
  | date (field : DateField) (side : Side)
  | dateBetween (field : DateField)
  | hasText
  | hasNotes
  | hasHighlights
  | hasRedactions
  | entityFlagsAnyBits
  | entityFlagsEq
  | hasEntity
  | entityTypeAnyOf
  | participantKeyEq
  | participantKeyContains
  | participantDomainEq
  | participantDomainContains
  | participantRoleAnyOf
  | personIdEq
  | personIdAnyOf
  | hasParticipants
  | conceptClusterIdEq
  | conceptClusterIdAnyOf
  | conceptClusterSetIdEq
  | hasConceptCluster
  | sentimentPolarityEq
  | sentimentPolarityAnyOf
  | sentimentCompound (side : Side)
  | sentimentCompoundBetween
  | hasSentiment
  | pdfNeedsOcr
  | redactedTextStale
  | noteTextContains
  | privilegeWithhold
  | privilegeStatusAnyOf
  | privilegeLogReady
  deriving DecidableEq, Repr

def filterArm : String → String → Option FilterArm
  | "in_review", "eq" => some .inReview
  | "code_missing", "eq" => some .codeMissing
  | "code", "any_of" => some .codeAnyOf
  | "code", "all_of" => some .codeAllOf
  | "code", "none_of" => some .codeNoneOf
  | "custodian", "eq" => some (.columnEq .custodian)
  | "from_addr", "eq" => some (.columnEq .fromAddr)
  | "file_category", "eq" => some (.columnEq .fileCategory)
  | "role", "eq" => some (.columnEq .role)
  | "dedup_role", "eq" => some (.columnEq .dedupRole)
  | "cull_status", "eq" => some (.columnEq .cullStatus)
  | "mime_type", "eq" => some (.columnEq .mimeType)
  | "custodian", "in" => some (.columnIn .custodian)
  | "file_category", "in" => some (.columnIn .fileCategory)
  | "dedup_role", "in" => some (.columnIn .dedupRole)
  | "cull_status", "in" => some (.columnIn .cullStatus)
  | "custodian", "contains" => some (.columnContains .custodian)
  | "from_addr", "contains" => some (.columnContains .fromAddr)
  | "subject", "contains" => some (.columnContains .subject)
  | "path", "contains" => some (.columnContains .path)
  | "mime_type", "prefix" => some .mimeTypePrefix
  | "size_bytes", "gte" => some (.sizeBytes .gte)
  | "size_bytes", "lte" => some (.sizeBytes .lte)
  | "size_bytes", "between" => some .sizeBytesBetween
  | "sent_at", "gte" => some (.date .sentAt .gte)
  | "sent_at", "lte" => some (.date .sentAt .lte)
  | "sent_at", "between" => some (.dateBetween .sentAt)
  | "received_at", "gte" => some (.date .receivedAt .gte)
  | "received_at", "lte" => some (.date .receivedAt .lte)
  | "received_at", "between" => some (.dateBetween .receivedAt)
  | "best_effort_date", "gte" => some (.date .bestEffortDate .gte)
  | "best_effort_date", "lte" => some (.date .bestEffortDate .lte)
  | "best_effort_date", "between" => some (.dateBetween .bestEffortDate)
  | "has_text", "eq" => some .hasText
  | "has_notes", "eq" => some .hasNotes
  | "has_highlights", "eq" => some .hasHighlights
  | "has_redactions", "eq" => some .hasRedactions
  | "entity_flags", "any_bits" => some .entityFlagsAnyBits
  | "entity_flags", "eq" => some .entityFlagsEq
  | "has_entity", "eq" => some .hasEntity
  | "entity_type", "any_of" => some .entityTypeAnyOf
  | "participant_key", "eq" => some .participantKeyEq
  | "participant_email", "eq" => some .participantKeyEq
  | "participant_key", "contains" => some .participantKeyContains
  | "participant_email", "contains" => some .participantKeyContains
  | "participant_domain", "eq" => some .participantDomainEq
  | "participant_domain", "contains" => some .participantDomainContains
  | "participant_role", "any_of" => some .participantRoleAnyOf
  | "person_id", "eq" => some .personIdEq
  | "person_id", "any_of" => some .personIdAnyOf
  | "has_participants", "eq" => some .hasParticipants
  | "concept_cluster_id", "eq" => some .conceptClusterIdEq
  | "concept_cluster_id", "any_of" => some .conceptClusterIdAnyOf
  | "concept_cluster_set_id", "eq" => some .conceptClusterSetIdEq
  | "has_concept_cluster", "eq" => some .hasConceptCluster
  | "sentiment_polarity", "eq" => some .sentimentPolarityEq
  | "sentiment_polarity", "any_of" => some .sentimentPolarityAnyOf
  | "sentiment_compound", "gte" => some (.sentimentCompound .gte)
  | "sentiment_compound", "lte" => some (.sentimentCompound .lte)
  | "sentiment_compound", "between" => some .sentimentCompoundBetween
  | "has_sentiment", "eq" => some .hasSentiment
  | "pdf_needs_ocr", "eq" => some .pdfNeedsOcr
  | "redacted_text_stale", "eq" => some .redactedTextStale
  | "note_text", "contains" => some .noteTextContains
  | "privilege_withhold", "eq" => some .privilegeWithhold
  | "privilege_status", "any_of" => some .privilegeStatusAnyOf
  | "privilege_log_ready", "eq" => some .privilegeLogReady
  | _, _ => none

/-! ## Pushing -/

structure FilterSql where
  whereParts : List String := []
  params : List SqlValue := []

def FilterSql.part (q : FilterSql) (text : String) : FilterSql :=
  { q with whereParts := q.whereParts ++ [text] }

def FilterSql.bind (q : FilterSql) (values : List SqlValue) : FilterSql :=
  { q with params := q.params ++ values }

def joinAnd (parts : List String) : String := " AND ".intercalate parts

def sqlPlaceholders (n : Nat) : String := ", ".intercalate (List.replicate n "?")

def escapeLikePattern (s : String) : String :=
  String.ofList (s.toList.flatMap fun c => if c = '\\' ∨ c = '%' ∨ c = '_' then ['\\', c] else [c])

section

variable (lib : FilterParsers) (a : String) (cond : FilterCondition)

def pushFlag (field yes no : String) (bound : List SqlValue) (q : FilterSql) : Except CallError FilterSql := do
  let want ← boolValue cond field
  return (q.part (if want then yes else no)).bind bound

def pushCountFlag (field col : String) (q : FilterSql) : Except CallError FilterSql :=
  pushFlag cond field (a ++ "." ++ col ++ " > 0")
    ("(" ++ a ++ "." ++ col ++ " = 0 OR " ++ a ++ "." ++ col ++ " IS NULL)") [] q

def pushList (ctx : String) (text : String → String) (bound : List SqlValue) (q : FilterSql) :
    Except CallError FilterSql := do
  let keys ← requireValues cond ctx
  return (q.part (text (sqlPlaceholders keys.length))).bind (bound ++ keys.map .text)

def pushText (field text : String) (pattern : String → String) (bound : List SqlValue)
    (q : FilterSql) : Except CallError FilterSql := do
  let v ← requireStringValue cond field
  return (q.part text).bind (bound ++ [.text (pattern v)])

def containsPattern [Target] (v : String) : String := "%" ++ escapeLikePattern (Target.toLowercase v) ++ "%"

def deskUtcEpochMsFn : String := "desk_utc_epoch_ms"

/-- The instant of a date field of the table with alias `a`. -/
def DateField.expr : DateField → String
  | .bestEffortDate =>
    "COALESCE(" ++ deskUtcEpochMsFn ++ "(" ++ a ++ ".sent_at), " ++ deskUtcEpochMsFn ++ "(" ++ a ++
      ".received_at))"
  | .sentAt => deskUtcEpochMsFn ++ "(" ++ a ++ ".sent_at)"
  | .receivedAt => deskUtcEpochMsFn ++ "(" ++ a ++ ".received_at)"

def pushDate (field : DateField) (side : Side) (q : FilterSql) : Except CallError FilterSql := do
  let valueText := cond.value.bind JsonValue.asStr
  let bound ← match side with
    | .gte => requireDateBound lib (cond.start.or valueText) "start"
    | .lte => requireDateBound lib (cond.end.or valueText) "end"
  return (q.part (field.expr a ++ " " ++ side.cmp ++ " ?")).bind [.integer bound]

def pushDateBetween (field : DateField) (q : FilterSql) : Except CallError FilterSql := do
  let start ← requireDateBound lib cond.start "start"
  let end' ← requireDateBound lib cond.end "end"
  return (q.part (field.expr a ++ " >= ? AND " ++ field.expr a ++ " < ?")).bind [.integer start, .integer end']

def stalePred : String :=
  "(" ++ a ++ ".redaction_count > 0 AND (" ++ a ++ ".redacted_text_sha256 IS NULL"
    ++ " OR (" ++ a ++ ".redacted_source_digest IS NOT NULL AND " ++ a ++ ".text_sha256 IS NOT NULL"
    ++ " AND " ++ a ++ ".redacted_source_digest != " ++ a ++ ".text_sha256)"
    ++ " OR (" ++ a ++ ".redacted_source_digest IS NOT NULL AND " ++ a ++ ".text_sha256 IS NULL"
    ++ " AND " ++ a ++ ".html_sha256 IS NOT NULL"
    ++ " AND " ++ a ++ ".redacted_source_digest != " ++ a ++ ".html_sha256)))"

/-- Codes of the item: `EXISTS (SELECT 1 FROM item_codes ic JOIN … WHERE ic.item_id = a.id AND
cd.matter_id = ? AND rest)`. -/
def existsCode (rest : String) : String :=
  "EXISTS (SELECT 1 FROM item_codes ic JOIN code_definitions cd ON cd.id = ic.code_id WHERE "
    ++ joinAnd ["ic.item_id = " ++ a ++ ".id", "cd.matter_id = ?", rest] ++ ")"

/-- Rows of a table about the item: `EXISTS (SELECT 1 FROM tables WHERE t.item_id = a.id AND
t.matter_id = ? AND …)`. -/
def existsRow (tables t : String) (rest : List String) : String :=
  "EXISTS (SELECT 1 FROM " ++ tables ++ " WHERE "
    ++ joinAnd ((t ++ ".item_id = " ++ a ++ ".id") :: (t ++ ".matter_id = ?") :: rest) ++ ")"

def pushArm [Target] (matterId : String) (q : FilterSql) : FilterArm → Except CallError FilterSql
  | .inReview => do
    let v ← boolOrIntValue cond "in_review"
    return (q.part (a ++ ".in_review = ?")).bind [.integer v]
  | .codeMissing =>
    pushFlag cond "code_missing" ("NOT EXISTS (SELECT 1 FROM item_codes ic WHERE ic.item_id = " ++
      a ++ ".id)") ("EXISTS (SELECT 1 FROM item_codes ic WHERE ic.item_id = " ++ a ++ ".id)") [] q
  | .codeAnyOf =>
    pushList cond "code any_of"
      (fun placeholders => existsCode a ("cd.key IN (" ++ placeholders ++ ")")) [.text matterId] q
  | .codeAllOf => do
    let keys ← requireValues cond "code all_of"
    -- Each key must be present (AND of EXISTS).
    return keys.foldl (fun q k => (q.part (existsCode a "cd.key = ?")).bind [.text matterId, .text k]) q
  | .codeNoneOf =>
    pushList cond "code none_of"
      (fun placeholders => "NOT " ++ existsCode a ("cd.key IN (" ++ placeholders ++ ")"))
      [.text matterId] q
  | .columnEq col => pushText cond col.name (a ++ "." ++ col.name ++ " = ?") id [] q
  | .columnIn col =>
    pushList cond (col.name ++ " in") (fun placeholders => a ++ "." ++ col.name ++ " IN (" ++
      placeholders ++ ")") [] q
  | .columnContains col =>
    pushText cond col.name ("LOWER(COALESCE(" ++ a ++ "." ++ col.name ++
      ", '')) LIKE ? ESCAPE '\\'") containsPattern [] q
  | .mimeTypePrefix =>
    pushText cond "mime_type" ("COALESCE(" ++ a ++ ".mime_type, '') LIKE ? ESCAPE '\\'")
      (fun v => escapeLikePattern v ++ "%") [] q
  | .sizeBytes side => do
    let n ← requireI64Value cond "size_bytes"
    return (q.part (a ++ ".size_bytes " ++ side.cmp ++ " ?")).bind [.integer n]
  | .sizeBytesBetween => do
    let (lo, hi) ← requireI64Between cond "size_bytes"
    return (q.part (a ++ ".size_bytes >= ? AND " ++ a ++ ".size_bytes <= ?")).bind [.integer lo, .integer hi]
  | .date field side => pushDate lib a cond field side q
  | .dateBetween field => pushDateBetween lib a cond field q
  | .hasText => pushFlag cond "has_text" (a ++ ".text_sha256 IS NOT NULL") (a ++ ".text_sha256 IS NULL") [] q
  | .hasNotes => pushCountFlag a cond "has_notes" "note_count" q
  | .hasHighlights => pushCountFlag a cond "has_highlights" "highlight_count" q
  | .hasRedactions => pushCountFlag a cond "has_redactions" "redaction_count" q
  | .entityFlagsAnyBits => do
    let bits ← i64Value cond "entity_flags any_bits"
    return (q.part ("(" ++ a ++ ".entity_flags & ?) != 0")).bind [.integer bits]
  | .entityFlagsEq => do
    let bits ← i64Value cond "entity_flags eq"
    return (q.part (a ++ ".entity_flags = ?")).bind [.integer bits]
  | .hasEntity => pushCountFlag a cond "has_entity" "entity_hit_count" q
  | .entityTypeAnyOf =>
    pushList cond "entity_type any_of"
      (fun placeholders => existsRow a "item_entity_hits eh" "eh" ["eh.entity_type IN (" ++
        placeholders ++ ")"])
      [.text matterId] q
  | .participantKeyEq =>
    pushText cond "participant_key"
      (existsRow a "item_participants ip INNER JOIN people p ON p.id = ip.person_id" "ip"
        ["p.normalized_key = ?"])
      id [.text matterId] q
  | .participantKeyContains =>
    pushText cond "participant_key"
      (existsRow a "item_participants ip INNER JOIN people p ON p.id = ip.person_id" "ip"
        ["LOWER(p.normalized_key) LIKE ? ESCAPE '\\'"]) containsPattern [.text matterId] q
  | .participantDomainEq =>
    pushText cond "participant_domain"
      (existsRow a "item_participants ip INNER JOIN people p ON p.id = ip.person_id" "ip"
        ["p.identity_kind = 'smtp'", "p.email_domain = ?"]) id [.text matterId] q
  | .participantDomainContains =>
    pushText cond "participant_domain"
      (existsRow a "item_participants ip INNER JOIN people p ON p.id = ip.person_id" "ip"
        ["p.identity_kind = 'smtp'", "LOWER(p.email_domain) LIKE ? ESCAPE '\\'"]) containsPattern [.text matterId] q
  | .participantRoleAnyOf =>
    pushList cond "participant_role any_of"
      (fun placeholders => existsRow a "item_participants ip" "ip" ["ip.role IN (" ++
      placeholders ++ ")"]) [.text matterId] q
  | .personIdEq =>
    pushText cond "person_id" (existsRow a "item_participants ip" "ip" ["ip.person_id = ?"]) id
      [.text matterId] q
  | .personIdAnyOf =>
    pushList cond "person_id any_of"
      (fun placeholders => existsRow a "item_participants ip" "ip" ["ip.person_id IN (" ++
        placeholders ++ ")"])
      [.text matterId] q
  | .hasParticipants =>
    pushFlag cond "has_participants" (existsRow a "item_participants ip" "ip" [])
      ("NOT " ++ existsRow a "item_participants ip" "ip" []) [.text matterId] q
  | .conceptClusterIdEq =>
    pushText cond "concept_cluster_id"
      (existsRow a "item_concept_membership icm" "icm" ["icm.cluster_id = ?"]) id [.text matterId] q
  | .conceptClusterIdAnyOf =>
    pushList cond "concept_cluster_id any_of"
      (fun placeholders => existsRow a "item_concept_membership icm" "icm" ["icm.cluster_id IN (" ++
        placeholders ++ ")"])
      [.text matterId] q
  | .conceptClusterSetIdEq =>
    pushText cond "concept_cluster_set_id"
      (existsRow a "item_concept_membership icm" "icm" ["icm.set_id = ?"]) id [.text matterId] q
  | .hasConceptCluster =>
    -- Default / active set only.
    let clustered := existsRow a
      "item_concept_membership icm INNER JOIN concept_cluster_sets ccs ON ccs.id = icm.set_id"
      "icm" ["ccs.name = 'default'"]
    pushFlag cond "has_concept_cluster" clustered ("NOT " ++ clustered) [.text matterId] q
  | .sentimentPolarityEq => pushText cond "sentiment_polarity" (a ++ ".sentiment_polarity = ?") id [] q
  | .sentimentPolarityAnyOf =>
    pushList cond "sentiment_polarity any_of"
      (fun placeholders => a ++ ".sentiment_polarity IN (" ++ placeholders ++ ")") [] q
  | .sentimentCompound side => do
    let x ← requireF64Value lib cond "sentiment_compound"
    return (q.part (a ++ ".sentiment_compound " ++ side.cmp ++ " ?")).bind [.real x]
  | .sentimentCompoundBetween => do
    let (lo, hi) ← requireF64Between lib cond "sentiment_compound"
    return (q.part (a ++ ".sentiment_compound >= ? AND " ++ a ++ ".sentiment_compound <= ?")).bind
      [.real lo, .real hi]
  | .hasSentiment =>
    pushFlag cond "has_sentiment" (a ++ ".sentiment_polarity IS NOT NULL")
      (a ++ ".sentiment_polarity IS NULL") [] q
  | .pdfNeedsOcr =>
    pushFlag cond "pdf_needs_ocr" (a ++ ".pdf_needs_ocr = 1")
      ("(" ++ a ++ ".pdf_needs_ocr = 0 OR " ++ a ++ ".pdf_needs_ocr IS NULL)") [] q
  | .redactedTextStale => pushFlag cond "redacted_text_stale" (stalePred a) ("NOT " ++ stalePred a) [] q
  | .noteTextContains =>
    pushText cond "note_text" (existsRow a "item_notes n" "n" ["LOWER(n.body) LIKE ? ESCAPE '\\'"])
      containsPattern [.text matterId] q
  | .privilegeWithhold =>
    -- Prefer denormalized cache; EXISTS as equivalent fallback.
    let withheld := existsRow a "item_privilege ip" "ip" ["ip.withhold = 1"]
    pushFlag cond "privilege_withhold" ("(" ++ a ++ ".privilege_withhold = 1 OR " ++ withheld ++ ")")
      ("(" ++ a ++ ".privilege_withhold = 0 OR " ++ a ++ ".privilege_withhold IS NULL) AND NOT " ++
      withheld) [.text matterId] q
  | .privilegeStatusAnyOf =>
    pushList cond "privilege_status any_of"
      (fun placeholders => existsRow a "item_privilege ip" "ip" ["ip.status IN (" ++
      placeholders ++ ")"]) [.text matterId] q
  | .privilegeLogReady =>
    -- Ready: include_on_log=1 AND trim(description) != ''.
    pushFlag cond "privilege_log_ready"
      (existsRow a "item_privilege ip" "ip" ["ip.include_on_log = 1", "TRIM(ip.description) != ''"])
      (existsRow a "item_privilege ip" "ip" ["ip.include_on_log = 1", "TRIM(ip.description) = ''"])
        [.text matterId] q

def pushCondition [Target] (matterId : String) (q : FilterSql) : Except CallError FilterSql := do
  let field := trim cond.field
  let op := trim cond.op
  if field = "" || op = "" then throw (.other "filter condition field and op cannot be empty")
  match filterArm field op with
  | some arm => pushArm lib a cond matterId q arm
  | none => throw (.other s!"unsupported filter field/op: '{field}' / '{op}'")

end

/-! ## Compiling -/

def pushScope (a scope : String) (reviewSetId : Option String) (q : FilterSql) : Except CallError FilterSql :=
  if scope = scopeReviewCorpus then
    let q := q.part (a ++ ".in_review = 1")
    match reviewSetId with
    | some sid => .ok ((q.part (a ++ ".review_set_id = ?")).bind [.text sid])
    | none => .ok q
  else if scope = scopeEntireMatter then
    -- Extracted-like statuses only (not discovered/expanded inventory stubs).
    .ok ((q.part (a ++ ".status IN (?, ?, ?)")).bind [.text "extracted", .text "partial", .text "normalized"])
  else .error (.other s!"invalid filter scope '{scope}'")

def validateSpec (spec : FilterSpec) : Except CallError Unit :=
  if spec.version ≠ filterSpecVersion then
    .error (.other s!"unsupported FilterSpec version {spec.version} (expected {filterSpecVersion})")
  else if spec.scope = scopeReviewCorpus ∨ spec.scope = scopeEntireMatter then .ok ()
  else
    .error (.other s!"invalid FilterSpec scope '{spec.scope}' (expected {scopeReviewCorpus}|{scopeEntireMatter})")

def thinColumnNames : List String :=
  ["id", "review_order", "role", "parent_item_id", "subject", "from_addr", "sent_at", "received_at", "path",
    "file_category", "mime_type", "size_bytes", "text_sha256", "html_sha256", "dedup_role", "cull_status",
    "attachment_count", "family_id"]

def thinColumnsSql : String := ", ".intercalate thinColumnNames

def thinColumnsSqlQualified (a : String) : String :=
  ", ".intercalate (thinColumnNames.map fun c => a ++ "." ++ c)

def orderByClause (a : String) : String :=
  "(" ++ a ++ ".review_order IS NULL), " ++ a ++ ".review_order ASC, " ++ a ++
    ".imported_at ASC, " ++ a ++ ".path ASC, " ++ a ++ ".id ASC"

/-- Compiled SQL fragments + bound parameters. -/
structure CompiledFilter where
  /-- Full SELECT of thin review columns, ending in the LIMIT/OFFSET params. -/
  listSql : String
  countSql : String
  /-- Bound values for the shared WHERE / CTE portion (not limit/offset). -/
  params : List SqlValue

def plainListSql (whereSql : String) : String :=
  "SELECT " ++ thinColumnsSql ++ " FROM items i WHERE " ++ whereSql ++ " ORDER BY " ++
    orderByClause "i" ++ " LIMIT ? OFFSET ?"

def plainCountSql (whereSql : String) : String := "SELECT COUNT(*) FROM items i WHERE " ++ whereSql

def hitsCte (whereSql : String) : String :=
  "WITH hits AS ( SELECT i.id, i.family_id, COALESCE(i.parent_item_id, i.id) AS family_root FROM items i WHERE "
    ++ whereSql ++ " ) "

def familyPredicate : String :=
  "( (out.family_id IS NOT NULL AND out.family_id IN ( SELECT family_id FROM hits WHERE family_id IS NOT NULL ))"
    ++ " OR out.id IN (SELECT family_root FROM hits) OR out.parent_item_id IN (SELECT family_root FROM hits) )"

def familyListSql (whereSql outerWhere : String) : String :=
  hitsCte whereSql ++ "SELECT DISTINCT " ++ thinColumnsSqlQualified "out" ++
    " FROM items out WHERE " ++ outerWhere
    ++ " AND " ++ familyPredicate ++ " ORDER BY " ++ orderByClause "out" ++ " LIMIT ? OFFSET ?"

def familyCountSql (whereSql outerWhere : String) : String :=
  hitsCte whereSql ++ "SELECT COUNT(*) FROM ( SELECT DISTINCT out.id FROM items out WHERE " ++
    outerWhere ++ " AND " ++ familyPredicate ++ " )"

def compileFilter [Target] (lib : FilterParsers) (spec : FilterSpec) (matterId : String)
    (reviewSetId : Option String) :
    Except CallError CompiledFilter := do
  validateSpec spec
  -- matter_id always required.
  let q := (({} : FilterSql).part "i.matter_id = ?").bind [.text matterId]
  let q ← pushScope "i" spec.scope reviewSetId q
  let q ← spec.conditions.foldlM (fun q cond => pushCondition lib "i" cond matterId q) q
  let whereSql := joinAnd q.whereParts
  if !spec.includeFamily then
    return { listSql := plainListSql whereSql, countSql := plainCountSql whereSql, params := q.params }
  -- Outer re-binds matter_id + scope (no condition predicates).
  let outer := (({} : FilterSql).part "out.matter_id = ?").bind [.text matterId]
  let outer ← pushScope "out" spec.scope reviewSetId outer
  let outerWhere := joinAnd outer.whereParts
  return {
    listSql := familyListSql whereSql outerWhere
    countSql := familyCountSql whereSql outerWhere
    -- Params order: hits CTE params first, then outer scope params.
    params := q.params ++ outer.params }

end MatterCore
