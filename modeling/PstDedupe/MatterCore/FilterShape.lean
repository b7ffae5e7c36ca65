import PstDedupe.MatterCore.FilterBound

/-!
# The text of a compiled filter (`matter-core/src/filter.rs`)

The only placeholders of a compiled filter are those of its values, so that the parameters land
where they belong, and the text depends on the shape of the filter only.
-/

namespace MatterCore

open Rust Foundations BoundText List

/-! ## Plain predicates -/

section

variable (col op expr tables t a matterId : String) (v : SqlValue) (vs : List String)
  (b c : BoundPart) {conds : List BoundPart}

@[simp] theorem plain_compared : Plain (compared col op v) ↔ NoMark col ∧ NoMark op := by
  simp +decide [compared]

@[simp] theorem plain_among : Plain (among col vs) ↔ NoMark col := by
  have hlist : Plain (joined ", " (vs.map fun v => val (SqlValue.text v))) := by
    refine plain_joined (by decide) fun b hb => ?_
    obtain ⟨v, -, rfl⟩ := List.mem_map.mp hb
    exact plain_val _
  simp +decide [among, hlist]

@[simp] theorem plain_matching (pattern : String) : Plain (matching expr pattern) ↔ NoMark expr := by
  simp +decide [matching]

@[simp] theorem plain_negated : Plain (negated b) ↔ Plain b := by
  simp +decide [negated]

@[simp] theorem plain_eitherOf : Plain (eitherOf b c) ↔ Plain b ∧ Plain c := by
  simp +decide [eitherOf]

variable {tables t a matterId}

theorem plain_and (h : ∀ b ∈ conds, Plain b) : Plain (joined " AND " conds) :=
  plain_joined (by decide) h

theorem plain_existsIn (htables : NoMark tables) (h : ∀ b ∈ conds, Plain b) :
    Plain (existsIn tables conds) := by
  simp +decide [existsIn, plain_and h, htables]

theorem plain_ofItem (ha : NoMark a) (htables : NoMark tables) (ht : NoMark t)
    (h : ∀ b ∈ conds, Plain b) : Plain (ofItem a tables t matterId conds) := by
  have hid : NoMark ".item_id = " ∧ NoMark ".id" ∧ NoMark ".matter_id" ∧ NoMark "=" := by decide
  refine plain_existsIn htables ?_
  simp only [forall_mem_cons, plain_sql, plain_compared, noMark_append, ha, ht, hid, and_true, true_and]
  exact h

theorem plain_peopleOfItem (ha : NoMark a) (h : ∀ b ∈ conds, Plain b) :
    Plain (peopleOfItem a matterId conds) :=
  plain_ofItem ha (by decide) (by decide) h

theorem plain_codesOfItem (ha : NoMark a) (h : ∀ b ∈ conds, Plain b) :
    Plain (codesOfItem a matterId conds) := by
  have hid : NoMark "ic.item_id = " ∧ NoMark ".id" ∧ NoMark "cd.matter_id" ∧ NoMark "=" := by decide
  refine plain_existsIn (by decide) ?_
  simp only [forall_mem_cons, plain_sql, plain_compared, noMark_append, ha, hid, and_true, true_and]
  exact h

end

/-! ## Every arm is plain -/

section

variable {lib : FilterParsers} {a : String} {cond : FilterCondition} {parts : List BoundPart}

theorem plain_one {α : Type} {read : Except CallError α} {part : α → BoundPart} (hplain : ∀ v, Plain (part v))
    (h : (do return [part (← read)]) = Except.ok parts) : ∀ b ∈ parts, Plain b := by
  cases read with
  | error e => exact nomatch h
  | ok v =>
    cases h
    intro b hb
    rw [List.mem_singleton.mp hb]
    exact hplain v

theorem plain_flag {field : String} {yes no : BoundPart} (hyes : Plain yes) (hno : Plain no)
    (h : boundFlag cond field yes no = .ok parts) : ∀ b ∈ parts, Plain b :=
  plain_one (fun want => by
    cases want with
    | true => exact hyes
    | false => exact hno) h

theorem plain_countFlag {field col : String} (ha : NoMark a) (hcol : NoMark col)
    (h : boundCountFlag a cond field col = .ok parts) : ∀ b ∈ parts, Plain b :=
  plain_flag (by simp +decide [ha, hcol]) (by simp +decide [ha, hcol]) h

theorem TextColumn.noMark_name (col : TextColumn) : NoMark col.name := by
  cases col <;> decide

theorem Side.noMark_cmp (side : Side) : NoMark side.cmp := by
  cases side <;> decide

theorem DateField.noMark_expr (field : DateField) (ha : NoMark a) : NoMark (field.expr a) := by
  cases field <;> unfold DateField.expr deskUtcEpochMsFn <;> repeat rw [noMark_append]
  all_goals and_intros <;> first | exact ha | exact noMark_ofList (by decide)

theorem noMark_stalePred (ha : NoMark a) : NoMark (stalePred a) := by
  unfold stalePred
  repeat rw [noMark_append]
  and_intros <;> first | exact ha | exact noMark_ofList (by decide)

theorem boundArm_plain [Target] {matterId : String} (ha : NoMark a) (arm : FilterArm)
    (h : boundArm lib a cond matterId arm = .ok parts) : ∀ b ∈ parts, Plain b := by
  cases arm with
  | inReview => exact plain_one (fun v => by simp +decide [ha]) h
  | codeMissing =>
    have hcoded : Plain (existsIn "item_codes ic" [sql ("ic.item_id = " ++ a ++ ".id")]) :=
      plain_existsIn (by decide) (by simp +decide [ha])
    exact plain_flag ((plain_negated _).mpr hcoded) hcoded h
  | codeAnyOf => exact plain_one (fun keys => plain_codesOfItem ha (by simp +decide)) h
  | codeAllOf =>
    dsimp only [boundArm] at h
    cases hkeys : requireValues cond "code all_of" with
    | error e =>
      rw [hkeys] at h
      exact nomatch h
    | ok keys =>
      rw [hkeys] at h
      cases h
      intro b hb
      obtain ⟨k, -, rfl⟩ := List.mem_map.mp hb
      exact plain_codesOfItem ha (by simp +decide)
  | codeNoneOf =>
    exact plain_one (fun keys => (plain_negated _).mpr (plain_codesOfItem ha (by simp +decide))) h
  | columnEq col => exact plain_one (fun v => by simp +decide [ha, col.noMark_name]) h
  | columnIn col => exact plain_one (fun vs => by simp +decide [ha, col.noMark_name]) h
  | columnContains col => exact plain_one (fun v => by simp +decide [ha, col.noMark_name]) h
  | mimeTypePrefix => exact plain_one (fun v => by simp +decide [ha]) h
  | sizeBytes side => exact plain_one (fun n => by simp +decide [ha, side.noMark_cmp]) h
  | sizeBytesBetween => exact plain_one (fun bounds => plain_and (by simp +decide [ha])) h
  | date field side =>
    cases side with
    | gte | lte => exact plain_one (fun bound => by simp +decide [field.noMark_expr ha]) h
  | dateBetween field =>
    dsimp only [boundArm, boundDateBetween] at h
    cases hstart : requireDateBound lib cond.start "start" with
    | error e =>
      rw [hstart] at h
      exact nomatch h
    | ok start =>
      rw [hstart] at h
      exact plain_one (fun bound => plain_and (by simp +decide [field.noMark_expr ha])) h
  | hasText => exact plain_flag (by simp +decide [ha]) (by simp +decide [ha]) h
  | hasNotes => exact plain_countFlag ha (by decide) h
  | hasHighlights => exact plain_countFlag ha (by decide) h
  | hasRedactions => exact plain_countFlag ha (by decide) h
  | entityFlagsAnyBits => exact plain_one (fun bits => by simp +decide [ha]) h
  | entityFlagsEq => exact plain_one (fun bits => by simp +decide [ha]) h
  | hasEntity => exact plain_countFlag ha (by decide) h
  | entityTypeAnyOf =>
    exact plain_one (fun keys => plain_ofItem ha (by decide) (by decide) (by simp +decide)) h
  | participantKeyEq | participantKeyContains =>
    exact plain_one (fun key => plain_peopleOfItem ha (by simp +decide)) h
  | participantDomainEq | participantDomainContains =>
    exact plain_one (fun domain => plain_peopleOfItem ha (by simp +decide)) h
  | participantRoleAnyOf =>
    exact plain_one (fun roles => plain_ofItem ha (by decide) (by decide) (by simp +decide)) h
  | personIdEq => exact plain_one (fun pid => plain_ofItem ha (by decide) (by decide) (by simp +decide)) h
  | personIdAnyOf => exact plain_one (fun ids => plain_ofItem ha (by decide) (by decide) (by simp +decide)) h
  | hasParticipants =>
    have hsome : Plain (ofItem a "item_participants ip" "ip" matterId []) :=
      plain_ofItem ha (by decide) (by decide) (by simp)
    exact plain_flag hsome ((plain_negated _).mpr hsome) h
  | conceptClusterIdEq =>
    exact plain_one (fun cid => plain_ofItem ha (by decide) (by decide) (by simp +decide)) h
  | conceptClusterIdAnyOf =>
    exact plain_one (fun ids => plain_ofItem ha (by decide) (by decide) (by simp +decide)) h
  | conceptClusterSetIdEq =>
    exact plain_one (fun sid => plain_ofItem ha (by decide) (by decide) (by simp +decide)) h
  | hasConceptCluster =>
    have hsome : Plain (ofItem a
        "item_concept_membership icm INNER JOIN concept_cluster_sets ccs ON ccs.id = icm.set_id"
        "icm" matterId [sql "ccs.name = 'default'"]) := plain_ofItem ha (by decide) (by decide) (by simp +decide)
    exact plain_flag hsome ((plain_negated _).mpr hsome) h
  | sentimentPolarityEq => exact plain_one (fun pol => by simp +decide [ha]) h
  | sentimentPolarityAnyOf => exact plain_one (fun keys => by simp +decide [ha]) h
  | sentimentCompound side => exact plain_one (fun x => by simp +decide [ha, side.noMark_cmp]) h
  | sentimentCompoundBetween => exact plain_one (fun bounds => plain_and (by simp +decide [ha])) h
  | hasSentiment | pdfNeedsOcr => exact plain_flag (by simp +decide [ha]) (by simp +decide [ha]) h
  | redactedTextStale =>
    have hstale : Plain (stale a) := (plain_sql _).mpr (noMark_stalePred ha)
    exact plain_flag hstale ((plain_negated _).mpr hstale) h
  | noteTextContains => exact plain_one (fun v => plain_ofItem ha (by decide) (by decide) (by simp +decide)) h
  | privilegeWithhold =>
    have hwithheld : Plain (ofItem a "item_privilege ip" "ip" matterId [sql "ip.withhold = 1"]) :=
      plain_ofItem ha (by decide) (by decide) (by simp +decide)
    exact plain_flag (by simp +decide [ha, hwithheld]) (plain_and (by simp +decide [ha, hwithheld])) h
  | privilegeStatusAnyOf =>
    exact plain_one (fun keys => plain_ofItem ha (by decide) (by decide) (by simp +decide)) h
  | privilegeLogReady =>
    exact plain_flag (plain_ofItem ha (by decide) (by decide) (by simp +decide))
      (plain_ofItem ha (by decide) (by decide) (by simp +decide)) h

theorem boundScope_plain {scope : String} {reviewSetId : Option String} (ha : NoMark a)
    (h : boundScope a scope reviewSetId = .ok parts) : ∀ b ∈ parts, Plain b := by
  unfold boundScope at h
  split_ifs at h
  · cases h
    cases reviewSetId <;> simp +decide [ha]
  · cases h
    simp +decide [ha]

end

/-! ## Whole filters are plain -/

section

variable [Target] {lib : FilterParsers} {spec : FilterSpec} {matterId : String}
  {reviewSetId : Option String} {b : BoundFilter}

theorem boundFilter_eq_ok (h : boundFilter lib spec matterId reviewSetId = .ok b) :
    validateSpec spec = .ok () ∧ ∃ scope conditions, boundScope "i" spec.scope reviewSetId = .ok scope ∧
      spec.conditions.mapM (fun cond => boundCondition lib "i" cond matterId) = .ok conditions ∧
      b.parts = compared "i.matter_id" "=" (.text matterId) :: (scope ++ conditions.flatten) ∧
      ((spec.includeFamily = false ∧ b.outer = none) ∨
        spec.includeFamily = true ∧ ∃ outerScope, boundScope "out" spec.scope reviewSetId = .ok outerScope ∧
          b.outer = some (compared "out.matter_id" "=" (.text matterId) :: outerScope)) := by
  unfold boundFilter at h
  obtain ⟨_, hvalid, h⟩ := bind_eq_ok.mp h
  obtain ⟨scope, hscope, h⟩ := bind_eq_ok.mp h
  obtain ⟨conditions, hconditions, h⟩ := bind_eq_ok.mp h
  refine ⟨hvalid, scope, conditions, hscope, hconditions, ?_⟩
  cases hfamily : spec.includeFamily with
  | false =>
    rw [hfamily] at h
    cases h
    exact ⟨rfl, .inl ⟨rfl, rfl⟩⟩
  | true =>
    rw [hfamily] at h
    obtain ⟨outerScope, houter, h⟩ := bind_eq_ok.mp h
    cases h
    exact ⟨rfl, .inr ⟨rfl, outerScope, houter, rfl⟩⟩

theorem boundCondition_plain {cond : FilterCondition} {parts : List BoundPart}
    (h : boundCondition lib "i" cond matterId = .ok parts) : ∀ b ∈ parts, Plain b := by
  unfold boundCondition at h
  obtain ⟨-, h⟩ := check_eq_ok.mp h
  cases harm : filterArm (trim cond.field) (trim cond.op) with
  | none =>
    rw [harm] at h
    exact nomatch h
  | some arm =>
    rw [harm] at h
    exact boundArm_plain (by decide) arm h

theorem boundFilter_plain (h : boundFilter lib spec matterId reviewSetId = .ok b) :
    (∀ part ∈ b.parts, Plain part) ∧ ∀ outer, b.outer = some outer → ∀ part ∈ outer, Plain part := by
  obtain ⟨-, scope, conditions, hscope, hconditions, hparts, houter⟩ := boundFilter_eq_ok h
  constructor
  · rw [hparts]
    intro part hpart
    rcases List.mem_cons.mp hpart with rfl | hpart
    · simp +decide
    rcases List.mem_append.mp hpart with hpart | hpart
    · exact boundScope_plain (by decide) hscope part hpart
    obtain ⟨parts, hmem, hpart⟩ := List.mem_flatten.mp hpart
    obtain ⟨cond, -, hcond⟩ := exists_left_of_forall₂ (mapM_eq_ok_iff.mp hconditions) hmem
    exact boundCondition_plain hcond part hpart
  · intro outer hsome part hpart
    rcases houter with ⟨-, hnone⟩ | ⟨-, outerScope, hscope, hb⟩
    · rw [hnone] at hsome
      exact nomatch hsome
    · rw [hb] at hsome
      cases hsome
      rcases List.mem_cons.mp hpart with rfl | hpart
      · simp +decide
      · exact boundScope_plain (by decide) hscope part hpart

omit [Target] in
theorem plain_page {order : String} (horder : NoMark order) (limit offset : SqlValue) :
    Plain (BoundFilter.page order limit offset) := by
  simp +decide [BoundFilter.page, horder]

omit [Target] in
theorem noMark_orderByClause {a : String} (ha : NoMark a) : NoMark (orderByClause a) := by
  unfold orderByClause
  repeat rw [noMark_append]
  and_intros <;> first | exact ha | exact noMark_ofList (by decide)

omit [Target] in
theorem plain_hits (h : ∀ part ∈ b.parts, Plain part) : Plain b.hits := by
  unfold BoundFilter.hits
  rw [plain_append, plain_append, plain_sql, plain_sql]
  exact ⟨⟨noMark_ofList (by decide), plain_and h⟩, noMark_ofList (by decide)⟩

omit [Target] in
theorem noMark_familyPredicate : NoMark familyPredicate :=
  (noMark_append ..).mpr ⟨noMark_ofList (by decide), noMark_ofList (by decide)⟩

omit [Target] in
theorem noMark_thinColumns : NoMark thinColumnsSql ∧ NoMark (thinColumnsSqlQualified "out") := by
  have hnames : ∀ c ∈ thinColumnNames, NoMark c := by
    unfold thinColumnNames
    simp only [forall_mem_cons]
    and_intros <;> first | exact noMark_ofList (by decide) | exact fun _ h => nomatch h
  refine ⟨noMark_intercalate (noMark_ofList (by decide)) hnames,
    noMark_intercalate (noMark_ofList (by decide)) ?_⟩
  intro part hpart
  obtain ⟨c, hc, rfl⟩ := List.mem_map.mp hpart
  rw [noMark_append, noMark_append]
  exact ⟨⟨noMark_ofList (by decide), noMark_ofList (by decide)⟩, hnames c hc⟩

theorem plain_list (h : boundFilter lib spec matterId reviewSetId = .ok b)
    (limit offset : SqlValue) : Plain (b.list limit offset) := by
  obtain ⟨hparts, houter⟩ := boundFilter_plain h
  unfold BoundFilter.list
  cases hb : b.outer with
  | none =>
    show Plain (sql _ ++ joined _ _ ++ BoundFilter.page _ _ _)
    rw [plain_append, plain_append, plain_sql]
    have hselect : NoMark ("SELECT " ++ thinColumnsSql ++ " FROM items i WHERE ") := by
      rw [noMark_append, noMark_append]
      exact ⟨⟨noMark_ofList (by decide), noMark_thinColumns.1⟩, noMark_ofList (by decide)⟩
    exact ⟨⟨hselect, plain_and hparts⟩, plain_page (noMark_orderByClause (by decide)) limit offset⟩
  | some outer =>
    show Plain (b.hits ++ sql _ ++ joined _ _ ++ sql _ ++ BoundFilter.page _ _ _)
    rw [plain_append, plain_append, plain_append, plain_append, plain_sql, plain_sql]
    have hfamily : NoMark (" AND " ++ familyPredicate) :=
      (noMark_append ..).mpr ⟨noMark_ofList (by decide), noMark_familyPredicate⟩
    have hselect : NoMark ("SELECT DISTINCT " ++ thinColumnsSqlQualified "out" ++ " FROM items out WHERE ") := by
      rw [noMark_append, noMark_append]
      exact ⟨⟨noMark_ofList (by decide), noMark_thinColumns.2⟩, noMark_ofList (by decide)⟩
    exact ⟨⟨⟨⟨plain_hits hparts, hselect⟩, plain_and (houter outer hb)⟩, hfamily⟩,
      plain_page (noMark_orderByClause (by decide)) limit offset⟩

theorem plain_count (h : boundFilter lib spec matterId reviewSetId = .ok b) : Plain b.count := by
  obtain ⟨hparts, houter⟩ := boundFilter_plain h
  unfold BoundFilter.count
  cases hb : b.outer with
  | none =>
    show Plain (sql _ ++ joined _ _)
    rw [plain_append, plain_sql]
    exact ⟨noMark_ofList (by decide), plain_and hparts⟩
  | some outer =>
    show Plain (b.hits ++ sql _ ++ joined _ _ ++ sql _)
    rw [plain_append, plain_append, plain_append, plain_sql, plain_sql]
    have hend : NoMark (" AND " ++ familyPredicate ++ " )") := by
      rw [noMark_append, noMark_append]
      exact ⟨⟨noMark_ofList (by decide), noMark_familyPredicate⟩, noMark_ofList (by decide)⟩
    exact ⟨⟨⟨plain_hits hparts, noMark_ofList (by decide)⟩, plain_and (houter outer hb)⟩, hend⟩

end

/-!
# The text of a filter depends on its shape (`matter-core/src/filter.rs`)

Two filters with the same fields and operations, the same flags where a flag is read and lists of
the same length where a list is read (blank entries left out) compile to the same statements.
-/

def FilterArm.readsFlag : FilterArm → Bool
  | .codeMissing | .hasText | .hasNotes | .hasHighlights | .hasRedactions | .hasEntity | .hasParticipants
  | .hasConceptCluster | .hasSentiment | .pdfNeedsOcr | .redactedTextStale | .privilegeWithhold |
    .privilegeLogReady => true
  | _ => false

def FilterArm.readsList : FilterArm → Bool
  | .codeAnyOf | .codeAllOf | .codeNoneOf | .columnIn _ | .entityTypeAnyOf | .participantRoleAnyOf |
  .personIdAnyOf
  | .conceptClusterIdAnyOf | .sentimentPolarityAnyOf | .privilegeStatusAnyOf => true
  | _ => false

/-- The conditions differ in values that are bound only. -/
structure FilterCondition.SameShape (cond cond' : FilterCondition) : Prop where
  field : trim cond.field = trim cond'.field
  op : trim cond.op = trim cond'.op
  flag : ∀ arm, filterArm (trim cond.field) (trim cond.op) = some arm → arm.readsFlag = true →
    cond.flag = cond'.flag
  entries : ∀ arm, filterArm (trim cond.field) (trim cond.op) = some arm → arm.readsList = true →
    cond.entries.length = cond'.entries.length

/-- The filters differ in values that are bound only. -/
structure FilterSpec.SameShape (spec spec' : FilterSpec) : Prop where
  scope : spec.scope = spec'.scope
  includeFamily : spec.includeFamily = spec'.includeFamily
  conditions : Forall₂ FilterCondition.SameShape spec.conditions spec'.conditions

/-! ## Every arm -/

section

variable {cond cond' : FilterCondition} {q q' p p' : FilterSql} {bound bound' : List SqlValue}

theorem same_one {α : Type} {read read' : Except CallError α} {partText : α → String}
    {bound bound' : α → List SqlValue} (hq : q.whereParts = q'.whereParts)
    (htext : ∀ v v', read = .ok v → read' = .ok v' → partText v = partText v')
    (h : (do let v ← read; return (q.part (partText v)).bind (bound v)) = Except.ok p)
    (h' : (do let v ← read'; return (q'.part (partText v)).bind (bound' v)) = Except.ok p') :
    p.whereParts = p'.whereParts := by
  obtain ⟨v, hv, hp⟩ := bind_eq_ok.mp h
  obtain ⟨v', hv', hp'⟩ := bind_eq_ok.mp h'
  cases hp
  cases hp'
  show q.whereParts ++ [partText v] = q'.whereParts ++ [partText v']
  rw [hq, htext v v' hv hv']

theorem boolValue_eq_ok {field : String} {b : Bool} : boolValue cond field = .ok b ↔ cond.flag = some b := by
  unfold boolValue
  cases cond.flag with
  | none => simp
  | some b' => simp

theorem requireValues_eq_ok {ctx : String} {keys : List String}
    (h : requireValues cond ctx = .ok keys) : cond.entries = keys := by
  unfold requireValues at h
  split_ifs at h with hempty
  exact Except.ok.inj h

theorem same_flag {field yes no : String} (hq : q.whereParts = q'.whereParts)
    (hflag : cond.flag = cond'.flag) (h : pushFlag cond field yes no bound q = .ok p)
    (h' : pushFlag cond' field yes no bound' q' = .ok p') : p.whereParts = p'.whereParts := by
  refine same_one hq (fun v v' hv hv' => ?_) h h'
  have hsame : v = v' := by
    rw [boolValue_eq_ok, hflag] at hv
    rw [boolValue_eq_ok, hv] at hv'
    exact Option.some.inj hv'
  rw [hsame]

theorem same_list {ctx : String} {text : String → String} (hq : q.whereParts = q'.whereParts)
    (hlength : cond.entries.length = cond'.entries.length) (h : pushList cond ctx text bound q = .ok p)
    (h' : pushList cond' ctx text bound' q' = .ok p') : p.whereParts = p'.whereParts := by
  refine same_one hq (fun keys keys' hkeys hkeys' => ?_) h h'
  rw [← requireValues_eq_ok hkeys, ← requireValues_eq_ok hkeys', hlength]

theorem same_text {field text : String} {pattern : String → String}
    (hq : q.whereParts = q'.whereParts) (h : pushText cond field text pattern bound q = .ok p)
    (h' : pushText cond' field text pattern bound' q' = .ok p') : p.whereParts = p'.whereParts :=
  same_one hq (fun _ _ _ _ => rfl) h h'

variable [Target] {lib : FilterParsers} {a matterId matterId' : String}

theorem same_allOf (hq : q.whereParts = q'.whereParts)
    (hlength : cond.entries.length = cond'.entries.length)
    (h : pushArm lib a cond matterId q .codeAllOf = .ok p)
    (h' : pushArm lib a cond' matterId' q' .codeAllOf = .ok p') :
    p.whereParts = p'.whereParts := by
  obtain ⟨keys, hkeys, hp⟩ := bind_eq_ok.mp h
  obtain ⟨keys', hkeys', hp'⟩ := bind_eq_ok.mp h'
  have hparts (m : String) (keys : List String) :
      (keys.map fun k => codesOfItem a m [compared "cd.key" "=" (.text k)]).map text
        = replicate keys.length (existsCode a (text (compared "cd.key" "=" (.text "")))) := by
    simp [Function.comp_def, map_const']
  have hp := Except.ok.inj hp
  have hp' := Except.ok.inj hp'
  rw [pushAllOf_eq] at hp hp'
  rw [← hp, ← hp']
  show q.whereParts ++ _ = q'.whereParts ++ _
  rw [hq, hparts, hparts, ← requireValues_eq_ok hkeys, ← requireValues_eq_ok hkeys', hlength]

theorem pushArm_sameText (arm : FilterArm) (hq : q.whereParts = q'.whereParts)
    (hflag : arm.readsFlag = true → cond.flag = cond'.flag)
    (hlength : arm.readsList = true → cond.entries.length = cond'.entries.length)
    (h : pushArm lib a cond matterId q arm = .ok p) (h' : pushArm lib a cond' matterId' q' arm = .ok p') :
    p.whereParts = p'.whereParts := by
  cases arm with
  | inReview | sizeBytes | sizeBytesBetween | entityFlagsAnyBits | entityFlagsEq | sentimentCompound
  | sentimentCompoundBetween => exact same_one hq (fun _ _ _ _ => rfl) h h'
  | codeMissing | hasText | hasNotes | hasHighlights | hasRedactions | hasEntity | hasParticipants |
    hasConceptCluster
  | hasSentiment | pdfNeedsOcr | redactedTextStale | privilegeWithhold | privilegeLogReady =>
    exact same_flag hq (hflag rfl) h h'
  | codeAllOf => exact same_allOf hq (hlength rfl) h h'
  | codeAnyOf | codeNoneOf | columnIn | entityTypeAnyOf | participantRoleAnyOf | personIdAnyOf |
    conceptClusterIdAnyOf
  | sentimentPolarityAnyOf | privilegeStatusAnyOf =>
    dsimp only [pushArm] at h h'
    exact same_list hq (hlength rfl) h h'
  | columnEq | columnContains | mimeTypePrefix | participantKeyEq | participantKeyContains |
    participantDomainEq
  | participantDomainContains | personIdEq | conceptClusterIdEq | conceptClusterSetIdEq | sentimentPolarityEq
  | noteTextContains =>
    dsimp only [pushArm] at h h'
    exact same_text hq h h'
  | date field side =>
    cases side with
    | gte => exact same_one hq (fun _ _ _ _ => rfl) h h'
    | lte => exact same_one hq (fun _ _ _ _ => rfl) h h'
  | dateBetween field =>
    obtain ⟨start, -, h⟩ := bind_eq_ok.mp h
    obtain ⟨start', -, h'⟩ := bind_eq_ok.mp h'
    exact same_one hq (fun _ _ _ _ => rfl) h h'

theorem pushCondition_sameText (hq : q.whereParts = q'.whereParts) (hshape : cond.SameShape cond')
    (h : pushCondition lib a cond matterId q = .ok p) (h' : pushCondition lib a cond' matterId' q' = .ok p') :
    p.whereParts = p'.whereParts := by
  unfold pushCondition at h h'
  obtain ⟨-, h⟩ := check_eq_ok.mp h
  obtain ⟨-, h'⟩ := check_eq_ok.mp h'
  rw [← hshape.field, ← hshape.op] at h'
  cases harm : filterArm (trim cond.field) (trim cond.op) with
  | none =>
    rw [harm] at h
    exact nomatch h
  | some arm =>
    rw [harm] at h h'
    exact pushArm_sameText arm hq (hshape.flag arm harm) (hshape.entries arm harm) h h'

theorem pushConditions_sameText {conds conds' : List FilterCondition}
    (hq : q.whereParts = q'.whereParts) (hshape : Forall₂ FilterCondition.SameShape conds conds')
    (h : conds.foldlM (fun q cond => pushCondition lib a cond matterId q) q = .ok p)
    (h' : conds'.foldlM (fun q cond => pushCondition lib a cond matterId' q) q' = .ok p') :
    p.whereParts = p'.whereParts := by
  induction hshape generalizing q q' with
  | nil =>
    cases h
    cases h'
    exact hq
  | cons hcond _ ih =>
    rw [foldlM_cons] at h h'
    obtain ⟨q₁, hq₁, h⟩ := bind_eq_ok.mp h
    obtain ⟨q₁', hq₁', h'⟩ := bind_eq_ok.mp h'
    exact ih (pushCondition_sameText hq hcond hq₁ hq₁') h h'

omit [Target] in
theorem pushScope_sameText {scope : String} {reviewSetId reviewSetId' : Option String}
    (hq : q.whereParts = q'.whereParts) (hset : reviewSetId.isSome = reviewSetId'.isSome)
    (h : pushScope a scope reviewSetId q = .ok p)
    (h' : pushScope a scope reviewSetId' q' = .ok p') : p.whereParts = p'.whereParts := by
  unfold pushScope at h h'
  split_ifs at h h' with hcorpus hentire
  · cases reviewSetId with
    | none =>
      cases reviewSetId' with
      | some sid' => exact nomatch hset
      | none =>
        cases h
        cases h'
        exact congrArg (· ++ _) hq
    | some sid =>
      cases reviewSetId' with
      | none => exact nomatch hset
      | some sid' =>
        cases h
        cases h'
        exact congrArg (· ++ _ ++ _) hq
  · cases h
    cases h'
    exact congrArg (· ++ _) hq

variable {spec spec' : FilterSpec} {reviewSetId reviewSetId' : Option String} {c c' : CompiledFilter}

theorem compileFilter_text_eq (hshape : spec.SameShape spec')
    (hset : reviewSetId.isSome = reviewSetId'.isSome)
    (h : compileFilter lib spec matterId reviewSetId = .ok c)
    (h' : compileFilter lib spec' matterId' reviewSetId' = .ok c') :
    c.listSql = c'.listSql ∧ c.countSql = c'.countSql := by
  unfold compileFilter at h h'
  obtain ⟨_, -, h⟩ := bind_eq_ok.mp h
  obtain ⟨_, -, h'⟩ := bind_eq_ok.mp h'
  obtain ⟨q₁, hq₁, h⟩ := bind_eq_ok.mp h
  obtain ⟨q₁', hq₁', h'⟩ := bind_eq_ok.mp h'
  obtain ⟨q₂, hq₂, h⟩ := bind_eq_ok.mp h
  obtain ⟨q₂', hq₂', h'⟩ := bind_eq_ok.mp h'
  rw [← hshape.scope] at hq₁'
  have hscope : q₁.whereParts = q₁'.whereParts := pushScope_sameText (by rfl) hset hq₁ hq₁'
  have hwhere : q₂.whereParts = q₂'.whereParts := pushConditions_sameText hscope hshape.conditions hq₂ hq₂'
  rw [← hshape.includeFamily] at h'
  cases hfamily : spec.includeFamily with
  | false =>
    rw [hfamily] at h h'
    cases h
    cases h'
    rw [hwhere]
    exact ⟨rfl, rfl⟩
  | true =>
    rw [hfamily] at h h'
    obtain ⟨outer, houter, h⟩ := bind_eq_ok.mp h
    obtain ⟨outer', houter', h'⟩ := bind_eq_ok.mp h'
    rw [← hshape.scope] at houter'
    have hsame : outer.whereParts = outer'.whereParts := pushScope_sameText (by rfl) hset houter houter'
    rw [← Except.ok.inj h, ← Except.ok.inj h']
    constructor
    · show familyListSql (joinAnd _) (joinAnd _) = familyListSql (joinAnd _) (joinAnd _)
      rw [hwhere, hsame]
    · show familyCountSql (joinAnd _) (joinAnd _) = familyCountSql (joinAnd _) (joinAnd _)
      rw [hwhere, hsame]

/-- **Filters are aligned and show no value**: the parameters stand at the placeholders where the
conditions mean them, with the values of the page at the end of the list, and filters of one shape
have one text. -/
theorem compileFilter_aligned (h : compileFilter lib spec matterId reviewSetId = .ok c) :
    c.countSql.toList.count '?' = c.params.length ∧ c.listSql.toList.count '?' = c.params.length + 2 ∧
    (∃ b, boundFilter lib spec matterId reviewSetId = .ok b ∧
      bindParams c.countSql.toList c.params = some b.count ∧
      ∀ limit offset, bindParams c.listSql.toList (c.params ++ [limit, offset]) = some (b.list limit offset)) ∧
    ∀ spec' matterId' reviewSetId' c', spec.SameShape spec' → reviewSetId.isSome = reviewSetId'.isSome →
      compileFilter lib spec' matterId' reviewSetId' = .ok c' → c.listSql = c'.listSql ∧
        c.countSql = c'.countSql := by
  have hcompile := h
  rw [compileFilter_eq] at hcompile
  cases hbound : boundFilter lib spec matterId reviewSetId with
  | error e =>
    rw [hbound] at hcompile
    exact nomatch hcompile
  | ok b =>
    rw [hbound] at hcompile
    have hc : b.compiled = c := Except.ok.inj hcompile
    have hcount : Plain b.count := plain_count hbound
    have hlist (limit offset : SqlValue) : Plain (b.list limit offset) := plain_list hbound limit offset
    refine ⟨?_, ?_, ⟨b, rfl, ?_, fun limit offset => ?_⟩, fun spec' matterId' set' c' hshape hset h' =>
      compileFilter_text_eq hshape hset h h'⟩
    · rw [← hc, ← b.text_count, ← b.values_count]
      exact count_placeholders hcount
    · have hplaceholders := count_placeholders (hlist (.integer 0) (.integer 0))
      rw [b.text_list, b.values_list, length_append] at hplaceholders
      rw [← hc]
      exact hplaceholders
    · rw [← hc, ← b.text_count, ← b.values_count]
      exact bindParams_text hcount
    · rw [← hc, ← b.text_list limit offset, ← b.values_list]
      exact bindParams_text (hlist limit offset)

end

theorem compileFilter_aligned_code :
    let _ : Target := .unix
    let lib : FilterParsers := ⟨fun _ => none, fun _ => none, fun _ => none⟩
    let spec : FilterSpec :=
      { includeFamily := true,
        conditions := [{ field := "code", op := "any_of", values := some ["hot", "cold"] }] }
    ∃ c, compileFilter lib spec "m" (some "corpus") = .ok c ∧
      c.params.length = 7 ∧ c.countSql.toList.count '?' = c.params.length ∧
        c.listSql.toList.count '?' = c.params.length + 2 := by
  intro _ lib spec
  have hok : (compileFilter lib spec "m" (some "corpus")).toOption.map (·.params.length)
      = some 7 := by decide +kernel
  cases hc : compileFilter lib spec "m" (some "corpus") with
  | error e =>
    rw [hc] at hok
    exact nomatch hok
  | ok c =>
    rw [hc] at hok
    obtain ⟨hcount, hlist, -⟩ := compileFilter_aligned hc
    exact ⟨c, rfl, Option.some.inj hok, hcount, hlist⟩

theorem compileFilter_text_differs :
    let _ : Target := .unix
    let lib : FilterParsers := ⟨fun _ => none, fun _ => none, fun _ => none⟩
    let spec (codes : List String) : FilterSpec :=
      { conditions := [{ field := "code", op := "any_of", values := some codes }] }
    ∃ c c', compileFilter lib (spec ["hot", "cold"]) "m" none = .ok c ∧
      compileFilter lib (spec ["hot", " "]) "m" none = .ok c' ∧ c.countSql ≠ c'.countSql := by
  intro _ lib spec
  have hsome : (compileFilter lib (spec ["hot", "cold"]) "m" none).toOption.isSome ∧
      (compileFilter lib (spec ["hot", " "]) "m" none).toOption.isSome := by
    decide +kernel
  have hdiffer : (compileFilter lib (spec ["hot", "cold"]) "m" none).toOption.map (·.countSql)
      ≠ (compileFilter lib (spec ["hot", " "]) "m" none).toOption.map (·.countSql) := by
    decide +kernel
  cases hc : compileFilter lib (spec ["hot", "cold"]) "m" none with
  | error e =>
    rw [hc] at hsome
    exact nomatch hsome.1
  | ok c =>
    cases hc' : compileFilter lib (spec ["hot", " "]) "m" none with
    | error e =>
      rw [hc'] at hsome
      exact nomatch hsome.2
    | ok c' =>
      rw [hc, hc'] at hdiffer
      exact ⟨c, c', rfl, rfl, fun heq => hdiffer (congrArg some heq)⟩

end MatterCore
