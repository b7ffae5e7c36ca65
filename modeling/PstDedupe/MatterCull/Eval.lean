import PstDedupe.Rust.Std
import PstDedupe.Foundations.Spreading

/-!
# Cull rules (`matter-cull/src/rules.rs`, `eval.rs`, `denist.rs`)

An item is culled when any enabled condition matches; `evaluateItem` collects the reason codes of
all that do.
-/

namespace MatterCull

open Rust

inductive CullError where
  | matter (message : String)
  | invalidParams (message : String)
  | invalidRules (message : String)
  | denist (message : String)
  | other (message : String)
  deriving DecidableEq, Repr

class Chrono where
  /-- `DateTime::parse_from_rfc3339`. -/
  parseFromRfc3339 : String → Option Int
  /-- `str::parse::<DateTime<FixedOffset>>`. -/
  parseDateTime : String → Option Int

structure CullCandidate where
  id : String
  parentItemId : Option String := none
  dedupRole : Option String := none
  nearDupRole : Option String := none
  sentAt : Option String := none
  receivedAt : Option String := none
  createdAt : Option String := none
  modifiedAt : Option String := none
  path : Option String := none
  custodian : Option String := none
  fileCategory : Option String := none
  mimeType : Option String := none
  sizeBytes : Option Int := none
  status : String := "extracted"
  nativeSha256 : Option String := none
  textSha256 : Option String := none
  role : Option String := none
  importedAt : String := ""
  cullStatus : Option String := none
  deriving DecidableEq, Repr

inductive FamilyPolicy where
  | keepChildrenWithIncludedParent
  | independent
  | cullChildrenWithParent
  deriving DecidableEq, Repr

inductive DateField where
  | sentAt
  | receivedAt
  | createdAt
  | bestEffort
  deriving DecidableEq, Repr

inductive MissingDatePolicy where
  | «include»
  | cull
  deriving DecidableEq, Repr

inductive ListMode where
  | «include»
  | exclude
  deriving DecidableEq, Repr

structure DateRule where
  enabled : Bool := false
  field : DateField := .bestEffort
  start : Option String := none
  «end» : Option String := none
  missingPolicy : MissingDatePolicy := .include
  deriving DecidableEq, Repr

structure StringListRule where
  enabled : Bool := false
  mode : ListMode := .include
  values : List String := []
  deriving DecidableEq, Repr

structure PathContainsRule where
  enabled : Bool := false
  mode : ListMode := .exclude
  patterns : List String := []
  deriving DecidableEq, Repr

structure MimePrefixesRule where
  enabled : Bool := false
  mode : ListMode := .exclude
  values : List String := []
  deriving DecidableEq, Repr

structure SizeBytesRule where
  enabled : Bool := false
  min : Option Int := none
  max : Option Int := none
  deriving DecidableEq, Repr

structure EmptyRule where
  enabled : Bool := false
  zeroSize : Bool := true
  noTextAndNoNative : Bool := false
  deriving DecidableEq, Repr

structure StatusesRule where
  enabled : Bool := true
  «include» : List String := ["extracted", "partial", "normalized"]
  deriving DecidableEq, Repr

structure NearDupRule where
  enabled : Bool := false
  cullMembers : Bool := false
  keepPivotsOnly : Bool := false
  deriving DecidableEq, Repr

structure DenistRule where
  enabled : Bool := false
  hashListPath : Option String := none
  deriving DecidableEq, Repr

structure RolesRule where
  processAttachments : Bool := true
  deriving DecidableEq, Repr

structure CullRules where
  excludeExactDuplicates : Bool := true
  date : DateRule := {}
  custodians : StringListRule := {}
  pathContains : PathContainsRule := {}
  fileCategories : StringListRule := {}
  mimePrefixes : MimePrefixesRule := {}
  sizeBytes : SizeBytesRule := {}
  empty : EmptyRule := {}
  statuses : StatusesRule := {}
  nearDup : NearDupRule := {}
  denist : DenistRule := {}
  familyPolicy : FamilyPolicy := .keepChildrenWithIncludedParent
  roles : RolesRule := {}
  deriving DecidableEq, Repr

def reasonExactDuplicate : String := "exact_duplicate"
def reasonDateOutOfRange : String := "date_out_of_range"
def reasonDateMissing : String := "date_missing"
def reasonCustodian : String := "custodian"
def reasonPath : String := "path"
def reasonFileCategory : String := "file_category"
def reasonMime : String := "mime"
def reasonSize : String := "size"
def reasonEmpty : String := "empty"
def reasonStatus : String := "status"
def reasonNearDupMember : String := "near_dup_member"
def reasonDenist : String := "denist"
def reasonFamilyWithCulledParent : String := "family_with_culled_parent"

section

variable [Chrono]

/-- Looks like a datetime without an offset or `Z`. -/
def isNaiveDatetime (s : String) : Bool :=
  let cs := s.toList
  if endsWith s "Z" || endsWith s "z" then false
  else
    match cs.reverse.findIdx? fun c => c = '+' || c = '-' with
    | none => true
    | some fromEnd =>
      let pos := cs.length - 1 - fromEnd
      match (cs.findIdx? (· = 'T')).or (cs.findIdx? (· = 't')) with
      | none => true
      | some tpos => !(tpos < pos && 4 ≤ (bytes (String.ofList (cs.drop (pos + 1)))).length)

def parseBoundInstant (s : String) : Except CullError Int :=
  let t := trim s
  if t = "" then .error (.invalidRules "date bound is empty; require RFC3339 with offset or Z")
  else if isNaiveDatetime t then
    .error (.invalidRules ("date bound must include timezone offset or Z (got naive '" ++ t ++ "')"))
  else
    match (Chrono.parseFromRfc3339 t).or (Chrono.parseDateTime t) with
    | some instant => .ok instant
    | none => .error (.invalidRules ("invalid RFC3339 date bound '" ++ t ++ "' (offset or Z required)"))

def parseItemInstant (s : String) : Option Int :=
  let t := trim s
  if t = "" then none else (Chrono.parseFromRfc3339 t).or (Chrono.parseFromRfc3339 (t ++ "Z"))

structure ItemCullDecision where
  status : String
  reasons : List String
  deriving DecidableEq, Repr

def statusIncluded : String := "included"
def statusCulled : String := "culled"

def ItemCullDecision.included : ItemCullDecision := ⟨statusIncluded, []⟩

def ItemCullDecision.culled (reasons : List String) : ItemCullDecision := ⟨statusCulled, reasons⟩

def ItemCullDecision.isCulled (d : ItemCullDecision) : Bool := d.status = statusCulled

def pickDateField (item : CullCandidate) : DateField → Option String
  | .sentAt => item.sentAt
  | .receivedAt => item.receivedAt
  | .createdAt => item.createdAt
  | .bestEffort => ((item.sentAt.or item.receivedAt).or item.createdAt).or item.modifiedAt

def evalDate (item : CullCandidate) (rules : CullRules) (reasons : List String) : List String :=
  match (pickDateField item rules.date.field).bind parseItemInstant with
  | none =>
    match rules.date.missingPolicy with
    | .include => reasons
    | .cull => reasons ++ [reasonDateMissing]
  | some instant =>
    -- start inclusive, end exclusive
    let beforeStart := match rules.date.start.map parseBoundInstant with
      | some (.ok start) => decide (instant < start)
      | _ => false
    let fromEnd := match rules.date.end.map parseBoundInstant with
      | some (.ok «end») => decide («end» ≤ instant)
      | _ => false
    if beforeStart || fromEnd then reasons ++ [reasonDateOutOfRange] else reasons

def evalStringList (value : Option String) (values : List String) (mode : ListMode)
    (reasonCode : String) (reasons : List String) : List String :=
  let inList := values.any fun v => eqIgnoreAsciiCase v (value.getD "")
  let cull := match mode with
    | .include => !inList
    | .exclude => inList
  if cull then reasons ++ [reasonCode] else reasons

def evalPath (item : CullCandidate) (rules : CullRules) (reasons : List String) : List String :=
  let pathLower := toAsciiLowercase (item.path.getD "")
  let matched := rules.pathContains.patterns.any fun p => contains pathLower (toAsciiLowercase p)
  let cull := match rules.pathContains.mode with
    | .exclude => matched
    | .include => !matched
  if cull then reasons ++ [reasonPath] else reasons

def evalMime (item : CullCandidate) (rules : CullRules) (reasons : List String) : List String :=
  let mime := toAsciiLowercase (item.mimeType.getD "")
  let matched := rules.mimePrefixes.values.any fun v => startsWith mime (toAsciiLowercase v)
  let cull := match rules.mimePrefixes.mode with
    | .exclude => matched
    | .include => !matched
  if cull then reasons ++ [reasonMime] else reasons

def evalSize (item : CullCandidate) (rules : CullRules) (reasons : List String) : List String :=
  let below := match rules.sizeBytes.min with
    | none => false
    | some min => (item.sizeBytes.map fun s => decide (s < min)).getD true
  let above := match rules.sizeBytes.max with
    | none => false
    | some max => (item.sizeBytes.map fun s => decide (max < s)).getD true
  if below || above then reasons ++ [reasonSize] else reasons

def evalEmpty (item : CullCandidate) (rules : CullRules) (reasons : List String) : List String :=
  if rules.empty.zeroSize && item.sizeBytes == some 0 then reasons ++ [reasonEmpty]
  else if rules.empty.noTextAndNoNative && item.textSha256.isNone && item.nativeSha256.isNone then
    reasons ++ [reasonEmpty]
  else reasons

def evalNearDup (item : CullCandidate) (rules : CullRules) (reasons : List String) : List String :=
  let reasons :=
    if rules.nearDup.cullMembers && item.nearDupRole == some "member" then reasons ++ [reasonNearDupMember]
    else reasons
  if rules.nearDup.keepPivotsOnly && item.nearDupRole != some "pivot" && !reasons.contains
    reasonNearDupMember then
    reasons ++ [reasonNearDupMember]
  else reasons

def matchesDenist (list : List String) (nativeSha256 : Option String) : Bool :=
  match nativeSha256 with
  | none => false
  | some h => list.contains (toAsciiLowercase (trim h))

/-- Evaluate all enabled cull conditions; collect **all** matching reasons. -/
def evaluateItem (item : CullCandidate) (rules : CullRules) (denist : Option (List String)) :
    ItemCullDecision :=
  let reasons : List String := []
  let reasons :=
    if rules.statuses.enabled && !(rules.statuses.include.any fun s => eqIgnoreAsciiCase s item.status) then
      reasons ++ [reasonStatus]
    else reasons
  let reasons :=
    if rules.excludeExactDuplicates && item.dedupRole == some "duplicate" then reasons ++
      [reasonExactDuplicate]
    else reasons
  let reasons := if rules.date.enabled then evalDate item rules reasons else reasons
  let reasons :=
    if rules.custodians.enabled then
      evalStringList item.custodian rules.custodians.values rules.custodians.mode reasonCustodian reasons
    else reasons
  let reasons := if rules.pathContains.enabled then evalPath item rules reasons else reasons
  let reasons :=
    if rules.fileCategories.enabled then
      evalStringList item.fileCategory rules.fileCategories.values rules.fileCategories.mode
        reasonFileCategory reasons
    else reasons
  let reasons := if rules.mimePrefixes.enabled then evalMime item rules reasons else reasons
  let reasons := if rules.sizeBytes.enabled then evalSize item rules reasons else reasons
  let reasons := if rules.empty.enabled then evalEmpty item rules reasons else reasons
  let reasons := if rules.nearDup.enabled then evalNearDup item rules reasons else reasons
  let reasons :=
    if rules.denist.enabled && denist.any (matchesDenist · item.nativeSha256) then reasons ++ [reasonDenist]
    else reasons
  if reasons = [] then .included else .culled reasons

end

/-!
# The family pass of a cull (`matter-cull/src/family.rs`)

Both policies spread a verdict from parents to children, in rounds until one changes nothing. A map
of decisions is its lookup function.
-/

open Foundations

abbrev Decisions := String → Option ItemCullDecision

def familyLinks (candidates : List CullCandidate) : List (String × Option String) :=
  candidates.map fun c => (c.id, c.parentItemId)

def includeMarks : Marks (Option ItemCullDecision) where
  marked d := d.any fun d => !d.isCulled
  settled d := d.any fun d => !d.isCulled && d.reasons.isEmpty
  push d := if d.any fun d => !d.isCulled && d.reasons.isEmpty then d else some .included
  marked_push d := by
    split
    next h =>
      cases d with
      | none => cases h
      | some d => exact (Bool.and_eq_true_iff.mp h).1
    next => rfl
  settled_push d := by
    split
    next h => exact h
    next => rfl
  push_of_settled d h := if_pos h

def cullMarks : Marks (Option ItemCullDecision) where
  marked d := d.any ItemCullDecision.isCulled
  settled d := d.any fun d => d.isCulled && d.reasons.contains reasonFamilyWithCulledParent
  push d :=
    let entry := d.getD .included
    some ⟨statusCulled, if entry.reasons.contains reasonFamilyWithCulledParent then entry.reasons
      else entry.reasons ++ [reasonFamilyWithCulledParent]⟩
  marked_push _ := by simp [ItemCullDecision.isCulled]
  settled_push d := by
    dsimp only
    rw [Option.any_some]
    split <;> simp_all [ItemCullDecision.isCulled]
  push_of_settled d h := by
    cases d with
    | none => cases h
    | some entry =>
      obtain ⟨hculled, hreason⟩ := Bool.and_eq_true_iff.mp h
      have hstatus : entry.status = statusCulled := of_decide_eq_true hculled
      show some (ItemCullDecision.mk statusCulled
        (if entry.reasons.contains reasonFamilyWithCulledParent then _ else _)) = _
      rw [if_pos hreason, ← hstatus]
      rfl

def keepChildrenWithIncludedParent (candidates : List CullCandidate) (decisions : Decisions) : Decisions :=
  spreadLoop includeMarks (familyLinks candidates) (candidates.length + 1) decisions

def cullChildrenWithParent (candidates : List CullCandidate) (decisions : Decisions) : Decisions :=
  spreadLoop cullMarks (familyLinks candidates) (candidates.length + 1) decisions

def applyFamilyPolicy (candidates : List CullCandidate) (decisions : Decisions) : FamilyPolicy → Decisions
  | .independent => decisions
  | .keepChildrenWithIncludedParent => keepChildrenWithIncludedParent candidates decisions
  | .cullChildrenWithParent => cullChildrenWithParent candidates decisions

theorem spreadLoop_familyLinks (m : Marks (Option ItemCullDecision)) (candidates : List CullCandidate)
    (decisions : Decisions) : spreadLoop m (familyLinks candidates) (candidates.length + 1) decisions
      = spread m (familyLinks candidates) decisions := by
  refine spreadLoop_eq ?_ decisions
  unfold familyLinks
  rw [List.length_map]
  omega

theorem keepChildrenWithIncludedParent_eq (candidates : List CullCandidate)
    (decisions : Decisions) : applyFamilyPolicy candidates decisions .keepChildrenWithIncludedParent
      = spread includeMarks (familyLinks candidates) decisions :=
  spreadLoop_familyLinks includeMarks candidates decisions

theorem cullChildrenWithParent_eq (candidates : List CullCandidate) (decisions : Decisions) :
    applyFamilyPolicy candidates decisions .cullChildrenWithParent
      = spread cullMarks (familyLinks candidates) decisions :=
  spreadLoop_familyLinks cullMarks candidates decisions

theorem applyFamilyPolicy_congr {candidates candidates' : List CullCandidate}
    (h : familyLinks candidates = familyLinks candidates') (decisions : Decisions) (policy : FamilyPolicy) :
    applyFamilyPolicy candidates decisions policy = applyFamilyPolicy candidates' decisions policy := by
  cases policy with
  | independent => rfl
  | keepChildrenWithIncludedParent =>
    rw [keepChildrenWithIncludedParent_eq, keepChildrenWithIncludedParent_eq, h]
  | cullChildrenWithParent => rw [cullChildrenWithParent_eq, cullChildrenWithParent_eq, h]

theorem applyFamilyPolicy_of_between {candidates : List CullCandidate}
    {decisions partly : Decisions} {policy : FamilyPolicy}
    (h : ∀ id, partly id = decisions id ∨ partly id = applyFamilyPolicy candidates decisions policy id) :
    applyFamilyPolicy candidates partly policy = applyFamilyPolicy candidates decisions policy := by
  cases policy with
  | independent => exact funext fun id => (h id).elim (·) (·)
  | keepChildrenWithIncludedParent =>
    simp only [keepChildrenWithIncludedParent_eq] at h ⊢
    exact spread_of_between h
  | cullChildrenWithParent =>
    simp only [cullChildrenWithParent_eq] at h ⊢
    exact spread_of_between h

theorem isSome_applyFamilyPolicy (candidates : List CullCandidate) {decisions : Decisions}
    (policy : FamilyPolicy) {id : String} (h : (decisions id).isSome) :
    (applyFamilyPolicy candidates decisions policy id).isSome := by
  cases policy with
  | independent => exact h
  | keepChildrenWithIncludedParent =>
    rw [keepChildrenWithIncludedParent_eq]
    by_cases hp : Pushed includeMarks (familyLinks candidates) decisions id
    · rw [spread_of_pushed hp]
      show (if _ then _ else _ : Option ItemCullDecision).isSome
      split
      · exact h
      · rfl
    · rwa [spread_of_not_pushed hp]
  | cullChildrenWithParent =>
    rw [cullChildrenWithParent_eq]
    by_cases hp : Pushed cullMarks (familyLinks candidates) decisions id
    · rw [spread_of_pushed hp]
      rfl
    · rwa [spread_of_not_pushed hp]

end MatterCull
