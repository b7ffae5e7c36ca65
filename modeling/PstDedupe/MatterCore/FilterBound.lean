import PstDedupe.Foundations.BoundText
import PstDedupe.MatterCore.FilterCompile
import PstDedupe.Foundations.Fallible

/-!
# Filters with their values in place

What the statements of a filter say: every predicate with its values where they belong, and the
statements made of them. `pushArm_eq` shows that the texts and the parameters that
`push_condition` pushes apart are those of `boundArm`.
-/

namespace MatterCore

open Rust Foundations BoundText List

/-! ## Predicates -/

abbrev BoundPart := BoundText SqlValue

def compared (col op : String) (v : SqlValue) : BoundPart := sql (col ++ " " ++ op ++ " ") ++ val v

def among (col : String) (vs : List String) : BoundPart :=
  sql (col ++ " IN (") ++ joined ", " (vs.map fun v => val (.text v)) ++ sql ")"

def matching (expr : String) (pattern : String) : BoundPart :=
  sql (expr ++ " LIKE ") ++ val (.text pattern) ++ sql " ESCAPE '\\'"

def existsIn (tables : String) (conds : List BoundPart) : BoundPart :=
  sql ("EXISTS (SELECT 1 FROM " ++ tables ++ " WHERE ") ++ joined " AND " conds ++ sql ")"

def negated (b : BoundPart) : BoundPart := sql "NOT " ++ b

def eitherOf (b c : BoundPart) : BoundPart := sql "(" ++ b ++ sql " OR " ++ c ++ sql ")"

/-! ## The predicates of the conditions -/

section

variable (lib : FilterParsers) (a : String) (cond : FilterCondition)

def boundFlag (field : String) (yes no : BoundPart) : Except CallError (List BoundPart) := do
  return [if ← boolValue cond field then yes else no]

def boundCountFlag (field col : String) : Except CallError (List BoundPart) :=
  boundFlag cond field (sql (a ++ "." ++ col ++ " > 0"))
    (eitherOf (sql (a ++ "." ++ col ++ " = 0")) (sql (a ++ "." ++ col ++ " IS NULL")))

def boundList (ctx : String) (part : List String → BoundPart) : Except CallError (List BoundPart) := do
  return [part (← requireValues cond ctx)]

def boundString (field : String) (part : String → BoundPart) : Except CallError (List BoundPart) := do
  return [part (← requireStringValue cond field)]

def boundDate (field : DateField) (side : Side) : Except CallError (List BoundPart) := do
  let valueText := cond.value.bind JsonValue.asStr
  let bound ← match side with
    | .gte => requireDateBound lib (cond.start.or valueText) "start"
    | .lte => requireDateBound lib (cond.end.or valueText) "end"
  return [compared (field.expr a) side.cmp (.integer bound)]

def boundDateBetween (field : DateField) : Except CallError (List BoundPart) := do
  let start ← requireDateBound lib cond.start "start"
  let end' ← requireDateBound lib cond.end "end"
  return [joined " AND " [compared (field.expr a) ">=" (.integer start),
    compared (field.expr a) "<" (.integer end')]]

def ofItem (tables t : String) (matterId : String) (conds : List BoundPart) : BoundPart :=
  existsIn tables (sql (t ++ ".item_id = " ++ a ++ ".id") ::
    compared (t ++ ".matter_id") "=" (.text matterId) :: conds)

def codesOfItem (matterId : String) (conds : List BoundPart) : BoundPart :=
  existsIn "item_codes ic JOIN code_definitions cd ON cd.id = ic.code_id"
    (sql ("ic.item_id = " ++ a ++ ".id") :: compared "cd.matter_id" "=" (.text matterId) :: conds)

def peopleOfItem : String → List BoundPart → BoundPart :=
  ofItem a "item_participants ip INNER JOIN people p ON p.id = ip.person_id" "ip"

def stale : BoundPart := sql (stalePred a)

def boundArm [Target] (matterId : String) : FilterArm → Except CallError (List BoundPart)
  | .inReview => do return [compared (a ++ ".in_review") "=" (.integer (← boolOrIntValue cond "in_review"))]
  | .codeMissing =>
    let coded := existsIn "item_codes ic" [sql ("ic.item_id = " ++ a ++ ".id")]
    boundFlag cond "code_missing" (negated coded) coded
  | .codeAnyOf => boundList cond "code any_of" fun keys => codesOfItem a matterId [among "cd.key" keys]
  | .codeAllOf => do
    return (← requireValues cond "code all_of").map fun k =>
      codesOfItem a matterId [compared "cd.key" "=" (.text k)]
  | .codeNoneOf =>
    boundList cond "code none_of" fun keys => negated (codesOfItem a matterId [among "cd.key" keys])
  | .columnEq col => boundString cond col.name fun v => compared (a ++ "." ++ col.name) "=" (.text v)
  | .columnIn col => boundList cond (col.name ++ " in") fun vs => among (a ++ "." ++ col.name) vs
  | .columnContains col =>
    boundString cond col.name fun v =>
      matching ("LOWER(COALESCE(" ++ a ++ "." ++ col.name ++ ", ''))") (containsPattern v)
  | .mimeTypePrefix =>
    boundString cond "mime_type" fun v => matching ("COALESCE(" ++ a ++ ".mime_type, '')")
      (escapeLikePattern v ++ "%")
  | .sizeBytes side => do return [compared (a ++ ".size_bytes") side.cmp (.integer (← requireI64Value cond "size_bytes"))]
  | .sizeBytesBetween => do
    let (lo, hi) ← requireI64Between cond "size_bytes"
    return [joined " AND " [compared (a ++ ".size_bytes") ">=" (.integer lo),
      compared (a ++ ".size_bytes") "<=" (.integer hi)]]
  | .date field side => boundDate lib a cond field side
  | .dateBetween field => boundDateBetween lib a cond field
  | .hasText => boundFlag cond "has_text" (sql (a ++ ".text_sha256 IS NOT NULL")) (sql (a ++ ".text_sha256 IS NULL"))
  | .hasNotes => boundCountFlag a cond "has_notes" "note_count"
  | .hasHighlights => boundCountFlag a cond "has_highlights" "highlight_count"
  | .hasRedactions => boundCountFlag a cond "has_redactions" "redaction_count"
  | .entityFlagsAnyBits => do
    return [sql ("(" ++ a ++ ".entity_flags & ") ++
      val (.integer (← i64Value cond "entity_flags any_bits")) ++ sql ") != 0"]
  | .entityFlagsEq =>
    do return [compared (a ++ ".entity_flags") "=" (.integer (← i64Value cond "entity_flags eq"))]
  | .hasEntity => boundCountFlag a cond "has_entity" "entity_hit_count"
  | .entityTypeAnyOf =>
    boundList cond "entity_type any_of" fun keys => ofItem a "item_entity_hits eh" "eh" matterId
      [among "eh.entity_type" keys]
  | .participantKeyEq =>
    boundString cond "participant_key" fun key =>
      peopleOfItem a matterId [compared "p.normalized_key" "=" (.text key)]
  | .participantKeyContains =>
    boundString cond "participant_key" fun key =>
      peopleOfItem a matterId [matching "LOWER(p.normalized_key)" (containsPattern key)]
  | .participantDomainEq =>
    boundString cond "participant_domain" fun domain =>
      peopleOfItem a matterId [sql "p.identity_kind = 'smtp'", compared "p.email_domain" "=" (.text domain)]
  | .participantDomainContains =>
    boundString cond "participant_domain" fun domain =>
      peopleOfItem a matterId [sql "p.identity_kind = 'smtp'",
        matching "LOWER(p.email_domain)" (containsPattern domain)]
  | .participantRoleAnyOf =>
    boundList cond "participant_role any_of" fun roles =>
      ofItem a "item_participants ip" "ip" matterId [among "ip.role" roles]
  | .personIdEq =>
    boundString cond "person_id" fun pid =>
      ofItem a "item_participants ip" "ip" matterId [compared "ip.person_id" "=" (.text pid)]
  | .personIdAnyOf =>
    boundList cond "person_id any_of" fun ids => ofItem a "item_participants ip" "ip" matterId
      [among "ip.person_id" ids]
  | .hasParticipants =>
    let participants := ofItem a "item_participants ip" "ip" matterId []
    boundFlag cond "has_participants" participants (negated participants)
  | .conceptClusterIdEq =>
    boundString cond "concept_cluster_id" fun cid =>
      ofItem a "item_concept_membership icm" "icm" matterId [compared "icm.cluster_id" "=" (.text cid)]
  | .conceptClusterIdAnyOf =>
    boundList cond "concept_cluster_id any_of" fun ids =>
      ofItem a "item_concept_membership icm" "icm" matterId [among "icm.cluster_id" ids]
  | .conceptClusterSetIdEq =>
    boundString cond "concept_cluster_set_id" fun sid =>
      ofItem a "item_concept_membership icm" "icm" matterId [compared "icm.set_id" "=" (.text sid)]
  | .hasConceptCluster =>
    let clustered := ofItem a
      "item_concept_membership icm INNER JOIN concept_cluster_sets ccs ON ccs.id = icm.set_id" "icm"
      matterId [sql "ccs.name = 'default'"]
    boundFlag cond "has_concept_cluster" clustered (negated clustered)
  | .sentimentPolarityEq =>
    boundString cond "sentiment_polarity" fun pol => compared (a ++ ".sentiment_polarity") "=" (.text pol)
  | .sentimentPolarityAnyOf =>
    boundList cond "sentiment_polarity any_of" fun keys => among (a ++ ".sentiment_polarity") keys
  | .sentimentCompound side => do
    return [compared (a ++
      ".sentiment_compound") side.cmp (.real (← requireF64Value lib cond "sentiment_compound"))]
  | .sentimentCompoundBetween => do
    let (lo, hi) ← requireF64Between lib cond "sentiment_compound"
    return [joined " AND "
      [compared (a ++ ".sentiment_compound") ">=" (.real lo), compared (a ++ ".sentiment_compound") "<=" (.real hi)]]
  | .hasSentiment =>
    boundFlag cond "has_sentiment" (sql (a ++ ".sentiment_polarity IS NOT NULL"))
      (sql (a ++ ".sentiment_polarity IS NULL"))
  | .pdfNeedsOcr =>
    boundFlag cond "pdf_needs_ocr" (sql (a ++ ".pdf_needs_ocr = 1"))
      (eitherOf (sql (a ++ ".pdf_needs_ocr = 0")) (sql (a ++ ".pdf_needs_ocr IS NULL")))
  | .redactedTextStale => boundFlag cond "redacted_text_stale" (stale a) (negated (stale a))
  | .noteTextContains =>
    boundString cond "note_text" fun v =>
      ofItem a "item_notes n" "n" matterId [matching "LOWER(n.body)" (containsPattern v)]
  | .privilegeWithhold =>
    let withheld := ofItem a "item_privilege ip" "ip" matterId [sql "ip.withhold = 1"]
    boundFlag cond "privilege_withhold" (eitherOf (sql (a ++ ".privilege_withhold = 1")) withheld)
      (joined " AND "
        [eitherOf (sql (a ++ ".privilege_withhold = 0")) (sql (a ++ ".privilege_withhold IS NULL")), negated withheld])
  | .privilegeStatusAnyOf =>
    boundList cond "privilege_status any_of" fun keys => ofItem a "item_privilege ip" "ip" matterId
      [among "ip.status" keys]
  | .privilegeLogReady =>
    boundFlag cond "privilege_log_ready"
      (ofItem a "item_privilege ip" "ip" matterId [sql "ip.include_on_log = 1",
        sql "TRIM(ip.description) != ''"])
      (ofItem a "item_privilege ip" "ip" matterId [sql "ip.include_on_log = 1",
        sql "TRIM(ip.description) = ''"])

end

def FilterSql.push (q : FilterSql) (parts : List BoundPart) : FilterSql where
  whereParts := q.whereParts ++ parts.map text
  params := q.params ++ parts.flatMap values

section

variable {cond : FilterCondition} {q : FilterSql} {bound : List SqlValue}

theorem push_one_eq {α : Type} {read : Except CallError α} {part : α → BoundPart} {partText : α → String}
    {bound : α → List SqlValue} (h : ∀ v, text (part v) = partText v ∧ values (part v) = bound v) :
    (do let v ← read; return (q.part (partText v)).bind (bound v))
      = (do return [part (← read)] : Except _ _).map q.push := by
  cases read with
  | error e => rfl
  | ok v =>
    obtain ⟨htext, hvalues⟩ := h v
    show Except.ok _ = Except.ok _
    simp [FilterSql.push, FilterSql.part, FilterSql.bind, htext, hvalues]

theorem pushFlag_eq {field : String} {yes no : BoundPart} {yesText noText : String}
    (hyes : text yes = yesText ∧ values yes = bound) (hno : text no = noText ∧ values no = bound) :
    pushFlag cond field yesText noText bound q = (boundFlag cond field yes no).map q.push :=
  push_one_eq fun want => by
    cases want with
    | true => exact hyes
    | false => exact hno

theorem pushList_eq {ctx : String} {part : List String → BoundPart} {partText : String → String}
    (h : ∀ keys, text (part keys) = partText (sqlPlaceholders keys.length) ∧
      values (part keys) = bound ++ keys.map .text) :
    pushList cond ctx partText bound q = (boundList cond ctx part).map q.push :=
  push_one_eq h

theorem pushText_eq {field : String} {part : String → BoundPart} {partText : String}
    {pattern : String → String}
    (h : ∀ v, text (part v) = partText ∧ values (part v) = bound ++ [.text (pattern v)]) :
    pushText cond field partText pattern bound q = (boundString cond field part).map q.push :=
  push_one_eq h

end

/-! ## The texts and the values of the predicates -/

theorem text_list (vs : List String) :
    text (joined ", " (vs.map fun v => val (SqlValue.text v))) = sqlPlaceholders vs.length := by
  rw [text_joined, map_map, sqlPlaceholders]
  show ", ".intercalate (vs.map fun _ => "?") = _
  rw [map_const']

theorem values_list (vs : List String) :
    values (joined ", " (vs.map fun v => val (SqlValue.text v))) = vs.map .text := by
  rw [values_joined, flatMap_map]
  exact List.map_eq_flatMap.symm

section

variable (col op tables t a matterId : String) (v : SqlValue) (vs : List String) (b c : BoundPart)
  (conds : List BoundPart)

@[simp] theorem text_compared : text (compared col op v) = col ++ " " ++ op ++ " ?" := by
  apply String.toList_injective
  simp [compared]

@[simp] theorem values_compared : values (compared col op v) = [v] := by
  simp [compared]

@[simp] theorem text_among : text (among col vs) = col ++ " IN (" ++ sqlPlaceholders vs.length ++ ")" := by
  simp [among, text_list, String.append_assoc]

@[simp] theorem values_among : values (among col vs) = vs.map .text := by
  simp [among, values_list]

@[simp] theorem text_matching (expr pattern : String) : text (matching expr pattern) = expr ++
    " LIKE ? ESCAPE '\\'" := by
  apply String.toList_injective
  simp [matching]

@[simp] theorem values_matching (expr pattern : String) :
    values (matching expr pattern) = [.text pattern] := by
  simp [matching]

@[simp] theorem text_existsIn : text (existsIn tables conds)
    = "EXISTS (SELECT 1 FROM " ++ tables ++ " WHERE " ++ joinAnd (conds.map text) ++ ")" := by
  simp [existsIn, text_joined, joinAnd, String.append_assoc]

@[simp] theorem values_existsIn : values (existsIn tables conds) = conds.flatMap values := by
  simp [existsIn, values_joined]

@[simp] theorem text_negated : text (negated b) = "NOT " ++ text b := by
  simp [negated]

@[simp] theorem values_negated : values (negated b) = values b := by
  simp [negated]

@[simp] theorem text_eitherOf : text (eitherOf b c) = "(" ++ text b ++ " OR " ++ text c ++ ")" := by
  simp [eitherOf, String.append_assoc]

@[simp] theorem values_eitherOf : values (eitherOf b c) = values b ++ values c := by
  simp [eitherOf]

@[simp] theorem text_ofItem :
    text (ofItem a tables t matterId conds) = existsRow a tables t (conds.map text) := by
  have hmatter : t ++ ".matter_id" ++ " " ++ "=" ++ " ?" = t ++ ".matter_id = ?" := by
    simp [String.append_assoc]
  unfold ofItem existsRow
  rw [text_existsIn, map_cons, map_cons, text_sql, text_compared, hmatter]

@[simp] theorem values_ofItem : values (ofItem a tables t matterId conds) = .text matterId ::
    conds.flatMap values := by
  simp [ofItem]

@[simp] theorem text_peopleOfItem : text (peopleOfItem a matterId conds)
    = text (ofItem a "item_participants ip INNER JOIN people p ON p.id = ip.person_id" "ip" matterId
      conds) := rfl

@[simp] theorem values_peopleOfItem : values (peopleOfItem a matterId conds) = .text matterId ::
    conds.flatMap values :=
  values_ofItem ..

@[simp] theorem text_stale : text (stale a) = stalePred a := text_sql _

@[simp] theorem values_stale : values (stale a) = [] := values_sql _

@[simp] theorem text_codesOfItem (cond : BoundPart) :
    text (codesOfItem a matterId [cond]) = existsCode a (text cond) := by
  have htables : "EXISTS (SELECT 1 FROM " ++
      "item_codes ic JOIN code_definitions cd ON cd.id = ic.code_id" ++ " WHERE "
      = "EXISTS (SELECT 1 FROM item_codes ic JOIN code_definitions cd ON cd.id = ic.code_id WHERE " := by
    decide
  have hmatter : "cd.matter_id" ++ " " ++ "=" ++ " ?" = "cd.matter_id = ?" := by
    decide
  unfold codesOfItem existsCode
  rw [text_existsIn, map_cons, map_cons, map_singleton, text_sql, text_compared, hmatter, htables]

@[simp] theorem values_codesOfItem : values (codesOfItem a matterId conds) = .text matterId ::
    conds.flatMap values := by
  simp [codesOfItem]

end

section

variable {lib : FilterParsers} {a : String} {cond : FilterCondition} {q : FilterSql}

theorem pushCountFlag_eq {field col : String} :
    pushCountFlag a cond field col q = (boundCountFlag a cond field col).map q.push :=
  pushFlag_eq ⟨String.toList_injective (by simp), by simp⟩ ⟨String.toList_injective (by simp), by simp⟩

theorem pushAllOf_eq {matterId : String} (keys : List String) (q : FilterSql) :
    keys.foldl (fun q k => (q.part (existsCode a "cd.key = ?")).bind [.text matterId, .text k]) q
      = q.push (keys.map fun k => codesOfItem a matterId [compared "cd.key" "=" (.text k)]) := by
  induction keys generalizing q with
  | nil => simp [FilterSql.push]
  | cons k keys ih =>
    rw [foldl_cons, ih]
    simp [FilterSql.push, FilterSql.part, FilterSql.bind]

theorem pushArm_eq [Target] (matterId : String) (arm : FilterArm) :
    pushArm lib a cond matterId q arm = (boundArm lib a cond matterId arm).map q.push := by
  cases arm with
  | inReview =>
    dsimp only [pushArm, boundArm]
    exact push_one_eq fun v => ⟨String.toList_injective (by simp), by simp⟩
  | codeMissing => exact pushFlag_eq ⟨String.toList_injective (by simp [joinAnd]), by simp⟩ ⟨String.toList_injective (by simp [joinAnd]), by simp⟩
  | codeAnyOf =>
    dsimp only [pushArm, boundArm]
    exact pushList_eq fun keys => ⟨by simp, by simp⟩
  | codeAllOf =>
    dsimp only [pushArm, boundArm]
    cases requireValues cond "code all_of" with
    | error e => rfl
    | ok keys =>
      show Except.ok _ = Except.ok _
      exact congrArg Except.ok (pushAllOf_eq keys q)
  | codeNoneOf =>
    dsimp only [pushArm, boundArm]
    exact pushList_eq fun keys => ⟨by simp, by simp⟩
  | columnEq col =>
    dsimp only [pushArm, boundArm]
    exact pushText_eq fun v => ⟨String.toList_injective (by simp), by simp⟩
  | columnIn col =>
    dsimp only [pushArm, boundArm]
    exact pushList_eq fun vs => ⟨String.toList_injective (by simp), by simp⟩
  | columnContains _ | mimeTypePrefix =>
    dsimp only [pushArm, boundArm]
    exact pushText_eq fun v => ⟨String.toList_injective (by simp), by simp⟩
  | sizeBytes side =>
    dsimp only [pushArm, boundArm]
    exact push_one_eq fun n => ⟨String.toList_injective (by simp), by simp⟩
  | sizeBytesBetween =>
    dsimp only [pushArm, boundArm]
    exact push_one_eq fun bounds => ⟨String.toList_injective (by simp [text_joined]), by simp [values_joined]⟩
  | date field side =>
    cases side with
    | gte | lte =>
      dsimp only [pushArm, boundArm, pushDate, boundDate]
      exact push_one_eq fun bound => ⟨String.toList_injective (by simp), by simp⟩
  | dateBetween field =>
    dsimp only [pushArm, boundArm, pushDateBetween, boundDateBetween]
    cases requireDateBound lib cond.start "start" with
    | error e => rfl
    | ok start => exact push_one_eq fun bound => ⟨String.toList_injective (by simp [text_joined]), by simp [values_joined]⟩
  | hasText => exact pushFlag_eq ⟨by simp, by simp⟩ ⟨by simp, by simp⟩
  | hasNotes => exact pushCountFlag_eq
  | hasHighlights => exact pushCountFlag_eq
  | hasRedactions => exact pushCountFlag_eq
  | entityFlagsAnyBits | entityFlagsEq =>
    dsimp only [pushArm, boundArm]
    exact push_one_eq fun bits => ⟨String.toList_injective (by simp), by simp⟩
  | hasEntity => exact pushCountFlag_eq
  | entityTypeAnyOf =>
    dsimp only [pushArm, boundArm]
    exact pushList_eq fun keys => ⟨by simp, by simp⟩
  | participantKeyEq | participantKeyContains =>
    dsimp only [pushArm, boundArm]
    exact pushText_eq fun key => ⟨by simp, by simp⟩
  | participantDomainEq | participantDomainContains =>
    dsimp only [pushArm, boundArm]
    exact pushText_eq fun domain => ⟨by simp, by simp⟩
  | participantRoleAnyOf =>
    dsimp only [pushArm, boundArm]
    exact pushList_eq fun roles => ⟨by simp, by simp⟩
  | personIdEq =>
    dsimp only [pushArm, boundArm]
    exact pushText_eq fun pid => ⟨by simp, by simp⟩
  | personIdAnyOf =>
    dsimp only [pushArm, boundArm]
    exact pushList_eq fun ids => ⟨by simp, by simp⟩
  | hasParticipants => exact pushFlag_eq ⟨by simp, by simp⟩ ⟨by simp, by simp⟩
  | conceptClusterIdEq =>
    dsimp only [pushArm, boundArm]
    exact pushText_eq fun cid => ⟨by simp, by simp⟩
  | conceptClusterIdAnyOf =>
    dsimp only [pushArm, boundArm]
    exact pushList_eq fun ids => ⟨by simp, by simp⟩
  | conceptClusterSetIdEq =>
    dsimp only [pushArm, boundArm]
    exact pushText_eq fun sid => ⟨by simp, by simp⟩
  | hasConceptCluster => exact pushFlag_eq ⟨by simp, by simp⟩ ⟨by simp, by simp⟩
  | sentimentPolarityEq =>
    dsimp only [pushArm, boundArm]
    exact pushText_eq fun pol => ⟨String.toList_injective (by simp), by simp⟩
  | sentimentPolarityAnyOf =>
    dsimp only [pushArm, boundArm]
    exact pushList_eq fun keys => ⟨String.toList_injective (by simp), by simp⟩
  | sentimentCompound side =>
    dsimp only [pushArm, boundArm]
    exact push_one_eq fun x => ⟨String.toList_injective (by simp), by simp⟩
  | sentimentCompoundBetween =>
    dsimp only [pushArm, boundArm]
    exact push_one_eq fun bounds => ⟨String.toList_injective (by simp [text_joined]), by simp [values_joined]⟩
  | hasSentiment => exact pushFlag_eq ⟨by simp, by simp⟩ ⟨by simp, by simp⟩
  | pdfNeedsOcr => exact pushFlag_eq ⟨String.toList_injective (by simp), by simp⟩ ⟨String.toList_injective (by simp), by simp⟩
  | redactedTextStale => exact pushFlag_eq ⟨by simp, by simp⟩ ⟨by simp, by simp⟩
  | noteTextContains =>
    dsimp only [pushArm, boundArm]
    exact pushText_eq fun v => ⟨by simp, by simp⟩
  | privilegeWithhold =>
    exact pushFlag_eq ⟨String.toList_injective (by simp), by simp⟩
      ⟨String.toList_injective (by simp [text_joined]), by simp [values_joined]⟩
  | privilegeStatusAnyOf =>
    dsimp only [pushArm, boundArm]
    exact pushList_eq fun keys => ⟨by simp, by simp⟩
  | privilegeLogReady => exact pushFlag_eq ⟨by simp, by simp⟩ ⟨by simp, by simp⟩

end

/-!
# Compiled filters bind what they mean, and show no value (`matter-core/src/filter.rs`)

`compileFilter_eq` puts the parts of a filter together: the statements are the texts of a
`BoundFilter` and the parameters are its values.
-/

/-! ## Whole filters with their values -/

section

variable [Target] (lib : FilterParsers)

def boundCondition (a : String) (cond : FilterCondition) (matterId : String) :
    Except CallError (List BoundPart) := do
  let field := trim cond.field
  let op := trim cond.op
  if field = "" || op = "" then throw (.other "filter condition field and op cannot be empty")
  match filterArm field op with
  | some arm => boundArm lib a cond matterId arm
  | none => throw (.other s!"unsupported filter field/op: '{field}' / '{op}'")

omit [Target] in
def boundScope (a scope : String) (reviewSetId : Option String) : Except CallError (List BoundPart) :=
  if scope = scopeReviewCorpus then
    .ok (sql (a ++ ".in_review = 1") ::
      (reviewSetId.map fun sid => compared (a ++ ".review_set_id") "=" (.text sid)).toList)
  else if scope = scopeEntireMatter then .ok [among (a ++ ".status") ["extracted", "partial", "normalized"]]
  else .error (.other s!"invalid filter scope '{scope}'")

/-- The predicates of a filter; with families, those of the hits and those of their families. -/
structure BoundFilter where
  parts : List BoundPart
  outer : Option (List BoundPart)

def boundFilter (spec : FilterSpec) (matterId : String) (reviewSetId : Option String) :
    Except CallError BoundFilter := do
  validateSpec spec
  let scope ← boundScope "i" spec.scope reviewSetId
  let conditions ← spec.conditions.mapM fun cond => boundCondition lib "i" cond matterId
  let parts := compared "i.matter_id" "=" (.text matterId) :: (scope ++ conditions.flatten)
  if !spec.includeFamily then return ⟨parts, none⟩
  let outerScope ← boundScope "out" spec.scope reviewSetId
  return ⟨parts, some (compared "out.matter_id" "=" (.text matterId) :: outerScope)⟩

end

namespace BoundFilter

variable (b : BoundFilter)

def hits : BoundPart :=
  sql "WITH hits AS ( SELECT i.id, i.family_id, COALESCE(i.parent_item_id, i.id) AS family_root FROM items i WHERE "
    ++ joined " AND " b.parts ++ sql " ) "

def page (order : String) (limit offset : SqlValue) : BoundPart :=
  sql (" ORDER BY " ++ order ++ " LIMIT ") ++ val limit ++ sql " OFFSET " ++ val offset

def list (limit offset : SqlValue) : BoundPart :=
  match b.outer with
  | none =>
    sql ("SELECT " ++ thinColumnsSql ++ " FROM items i WHERE ") ++ joined " AND " b.parts
      ++ page (orderByClause "i") limit offset
  | some outer =>
    b.hits ++ sql ("SELECT DISTINCT " ++ thinColumnsSqlQualified "out" ++
      " FROM items out WHERE ") ++ joined " AND " outer
      ++ sql (" AND " ++ familyPredicate) ++ page (orderByClause "out") limit offset

def count : BoundPart :=
  match b.outer with
  | none => sql "SELECT COUNT(*) FROM items i WHERE " ++ joined " AND " b.parts
  | some outer =>
    b.hits ++ sql "SELECT COUNT(*) FROM ( SELECT DISTINCT out.id FROM items out WHERE " ++
      joined " AND " outer ++ sql (" AND " ++ familyPredicate ++ " )")

/-- The statements and the parameters apart. -/
def compiled : CompiledFilter where
  listSql := match b.outer with
    | none => plainListSql (joinAnd (b.parts.map text))
    | some outer => familyListSql (joinAnd (b.parts.map text)) (joinAnd (outer.map text))
  countSql := match b.outer with
    | none => plainCountSql (joinAnd (b.parts.map text))
    | some outer => familyCountSql (joinAnd (b.parts.map text)) (joinAnd (outer.map text))
  params := b.parts.flatMap values ++ (b.outer.getD []).flatMap values

end BoundFilter

/-! ## `compile_filter` -/

section

variable [Target] {lib : FilterParsers} {q : FilterSql} {matterId : String}

omit [Target] in
theorem FilterSql.push_push (parts parts' : List BoundPart) :
    (q.push parts).push parts' = q.push (parts ++ parts') := by
  simp [FilterSql.push]

theorem pushCondition_eq {a : String} {cond : FilterCondition} :
    pushCondition lib a cond matterId q = (boundCondition lib a cond matterId).map q.push := by
  unfold pushCondition boundCondition
  by_cases hempty : (trim cond.field = "" || trim cond.op = "") = true
  · rw [if_pos hempty, if_pos hempty]
    rfl
  · rw [if_neg hempty, if_neg hempty]
    cases filterArm (trim cond.field) (trim cond.op) with
    | none => rfl
    | some arm => exact pushArm_eq matterId arm

theorem foldlM_pushCondition_eq (conds : List FilterCondition) (q : FilterSql) :
    conds.foldlM (fun q cond => pushCondition lib "i" cond matterId q) q
      = (conds.mapM fun cond => boundCondition lib "i" cond matterId).map fun parts =>
        q.push parts.flatten := by
  induction conds generalizing q with
  | nil =>
    show Except.ok q = Except.ok _
    simp [FilterSql.push]
  | cons cond conds ih =>
    rw [foldlM_cons, mapM_cons, pushCondition_eq]
    cases boundCondition lib "i" cond matterId with
    | error e => rfl
    | ok parts =>
      show conds.foldlM _ (q.push parts) = _
      rw [ih]
      cases conds.mapM fun cond => boundCondition lib "i" cond matterId with
      | error e => rfl
      | ok rest =>
        show Except.ok _ = Except.ok _
        simp only [FilterSql.push_push, flatten_cons]

omit [Target] in
theorem pushScope_eq {a scope : String} {reviewSetId : Option String} :
    pushScope a scope reviewSetId q = (boundScope a scope reviewSetId).map q.push := by
  unfold pushScope boundScope
  by_cases hcorpus : scope = scopeReviewCorpus
  · rw [if_pos hcorpus, if_pos hcorpus]
    cases reviewSetId with
    | none => simp [FilterSql.push, FilterSql.part, Except.map]
    | some sid =>
      have htext : text (compared (a ++ ".review_set_id") "=" (.text sid)) = a ++ ".review_set_id = ?" :=
        String.toList_injective (by simp)
      simp [FilterSql.push, FilterSql.part, FilterSql.bind, Except.map, htext]
  · rw [if_neg hcorpus, if_neg hcorpus]
    by_cases hentire : scope = scopeEntireMatter
    · have htext : text (among (a ++ ".status") ["extracted", "partial", "normalized"])
        = a ++ ".status IN (?, ?, ?)" := by
        have hmarks : sqlPlaceholders 3 = "?, ?, ?" := by decide
        exact String.toList_injective (by simp [hmarks])
      rw [if_pos hentire, if_pos hentire]
      simp [FilterSql.push, FilterSql.part, FilterSql.bind, Except.map, htext]
    · rw [if_neg hentire, if_neg hentire]
      rfl

omit [Target] in
theorem push_matter {col partText matterId : String}
    (h : text (compared col "=" (.text matterId)) = partText) :
    (({} : FilterSql).part partText).bind [.text matterId]
      = ({} : FilterSql).push [compared col "=" (.text matterId)] := by
  simp [FilterSql.push, FilterSql.part, FilterSql.bind, h]

/-- **Compiling**: the statements are the texts of the bound filter, the parameters its values. -/
theorem compileFilter_eq {spec : FilterSpec} {reviewSetId : Option String} :
    compileFilter lib spec matterId reviewSetId
      = (boundFilter lib spec matterId reviewSetId).map BoundFilter.compiled := by
  have hitems : text (compared "i.matter_id" "=" (.text matterId)) = "i.matter_id = ?" := by simp
  have hout : text (compared "out.matter_id" "=" (.text matterId)) = "out.matter_id = ?" := by simp
  unfold compileFilter boundFilter
  simp only [push_matter hitems, push_matter hout, pushScope_eq, foldlM_pushCondition_eq]
  cases validateSpec spec with
  | error e => rfl
  | ok _ =>
    cases boundScope "i" spec.scope reviewSetId with
    | error e => rfl
    | ok scope =>
      cases spec.conditions.mapM fun cond => boundCondition lib "i" cond matterId with
      | error e => rfl
      | ok conditions =>
        cases spec.includeFamily with
        | false =>
          show Except.ok _ = Except.ok _
          simp [FilterSql.push, BoundFilter.compiled]
        | true =>
          cases boundScope "out" spec.scope reviewSetId with
          | error e => rfl
          | ok outerScope =>
            show Except.ok _ = Except.ok _
            simp [FilterSql.push, BoundFilter.compiled]

/-! ## Statements with their values -/

omit [Target] in
theorem BoundFilter.text_page (order : String) (limit offset : SqlValue) :
    text (BoundFilter.page order limit offset) = " ORDER BY " ++ order ++ " LIMIT ? OFFSET ?" := by
  simp [BoundFilter.page, String.append_assoc]

omit [Target] in
theorem BoundFilter.text_hits (b : BoundFilter) : text b.hits = hitsCte (joinAnd (b.parts.map text)) := by
  unfold BoundFilter.hits hitsCte joinAnd
  rw [text_append, text_append, text_sql, text_sql, text_joined]

omit [Target] in
theorem BoundFilter.text_list (b : BoundFilter) (limit offset : SqlValue) :
    text (b.list limit offset) = b.compiled.listSql := by
  unfold BoundFilter.list BoundFilter.compiled
  cases b.outer with
  | none =>
    show text (sql _ ++ joined _ _ ++ page _ _ _) = plainListSql _
    unfold plainListSql joinAnd
    rw [text_append, text_append, text_sql, text_joined,
      text_page, ← String.append_assoc, ← String.append_assoc]
  | some outer =>
    show text (b.hits ++ sql _ ++ joined _ _ ++ sql _ ++ page _ _ _) = familyListSql _ _
    unfold familyListSql
    rw [text_append, text_append, text_append, text_append, text_hits, text_sql, text_sql,
      text_joined, text_page, joinAnd, joinAnd]
    repeat rw [← String.append_assoc]

omit [Target] in
theorem BoundFilter.text_count (b : BoundFilter) : text b.count = b.compiled.countSql := by
  unfold BoundFilter.count BoundFilter.compiled
  cases b.outer with
  | none =>
    show text (sql _ ++ joined _ _) = plainCountSql _
    unfold plainCountSql joinAnd
    rw [text_append, text_sql, text_joined]
  | some outer =>
    show text (b.hits ++ sql _ ++ joined _ _ ++ sql _) = familyCountSql _ _
    unfold familyCountSql
    rw [text_append, text_append, text_append, text_hits, text_sql, text_sql, text_joined, joinAnd, joinAnd]
    repeat rw [← String.append_assoc]

omit [Target] in
theorem BoundFilter.values_list (b : BoundFilter) (limit offset : SqlValue) :
    values (b.list limit offset) = b.compiled.params ++ [limit, offset] := by
  unfold BoundFilter.list BoundFilter.compiled BoundFilter.page
  cases b.outer <;> simp [BoundFilter.hits, values_joined]

omit [Target] in
theorem BoundFilter.values_count (b : BoundFilter) : values b.count = b.compiled.params := by
  unfold BoundFilter.count BoundFilter.compiled
  cases b.outer <;> simp [BoundFilter.hits, values_joined]

end

end MatterCore
