import PstDedupe.MatterCull.Eval

/-!
# The rounds of the family pass (`matter-cull/src/family.rs`)

Both loops take a snapshot of the ids that count as marked, go over the candidates and write
decisions while they do, and begin again as long as something changed.
-/

namespace MatterCull

open Foundations List Function

variable {m : Marks (Option ItemCullDecision)} {decisions : Decisions} {candidates : List CullCandidate}

/-- `!d.is_culled()`, under an id. -/
def isIncluded (d : Option ItemCullDecision) : Bool := d.any fun d => !d.isCulled

/-- `d.is_culled()`, under an id. -/
def isCulledAt (d : Option ItemCullDecision) : Bool := d.any ItemCullDecision.isCulled

def keepCandidate (includedIds : String → Bool) (acc : Decisions × Bool) (c : CullCandidate) :
    Decisions × Bool :=
  match c.parentItemId with
  | none => acc
  | some parentId =>
    if !includedIds parentId then acc
    else
      let alreadyIncluded := ((acc.1 c.id).map fun d => !d.isCulled).getD false
      if alreadyIncluded then
        -- still clear stale reasons if any
        if ((acc.1 c.id).map fun d => !d.reasons.isEmpty).getD false then
          (update acc.1 c.id (some .included), true)
        else acc
      else (update acc.1 c.id (some .included), true)

def keepRound (candidates : List CullCandidate) (decisions : Decisions) : Decisions × Bool :=
  let includedIds := fun id => isIncluded (decisions id)
  candidates.foldl (keepCandidate includedIds) (decisions, false)

def cullCandidate (culledParents : String → Bool) (acc : Decisions × Bool) (c : CullCandidate) :
    Decisions × Bool :=
  match c.parentItemId with
  | none => acc
  | some parentId =>
    if !culledParents parentId then acc
    else
      let entry := (acc.1 c.id).getD .included
      let hasReason := entry.reasons.any (· = reasonFamilyWithCulledParent)
      let wasCulled := entry.isCulled && hasReason
      let reasons := if hasReason then entry.reasons else entry.reasons ++ [reasonFamilyWithCulledParent]
      let status := if entry.status ≠ statusCulled then statusCulled else entry.status
      (update acc.1 c.id (some ⟨status, reasons⟩), if wasCulled then acc.2 else true)

def cullRound (candidates : List CullCandidate) (decisions : Decisions) : Decisions × Bool :=
  let culledParents := fun id => isCulledAt (decisions id)
  candidates.foldl (cullCandidate culledParents) (decisions, false)

/-- `loop` up to the round that changes nothing; `none` when `n` rounds are not enough. -/
def untilUnchanged (round : Decisions → Decisions × Bool) : Nat → Decisions → Option Decisions
  | 0, _ => none
  | n + 1, decisions =>
    let r := round decisions
    if r.2 then untilUnchanged round n r.1 else some r.1

def applyFamilyPolicyWithin (n : Nat) (candidates : List CullCandidate) (decisions : Decisions) :
    FamilyPolicy → Option Decisions
  | .independent => some decisions
  | .keepChildrenWithIncludedParent => untilUnchanged (keepRound candidates) n decisions
  | .cullChildrenWithParent => untilUnchanged (cullRound candidates) n decisions

theorem keepCandidate_eq (start : Decisions) (acc : Decisions × Bool) (c : CullCandidate) :
    keepCandidate (fun id => isIncluded (start id)) acc c
      = spreadStep includeMarks start acc (c.id, c.parentItemId) := by
  unfold keepCandidate spreadStep
  cases c.parentItemId with
  | none => rfl
  | some parentId =>
    have hmarked : includeMarks.marked (start parentId) = isIncluded (start parentId) := rfl
    dsimp only
    rw [hmarked]
    by_cases hparent : isIncluded (start parentId) = true
    · -- the tests of the child are those of the marks
      cases hd : acc.1 c.id with
      | none => simp [hparent, includeMarks]
      | some d =>
        cases hculled : d.isCulled <;> cases hreasons : d.reasons.isEmpty <;>
          simp [hparent, hculled, hreasons, includeMarks]
    · simp [hparent]

theorem cullCandidate_eq (start : Decisions) (acc : Decisions × Bool) (c : CullCandidate) :
    cullCandidate (fun id => isCulledAt (start id)) acc c
      = spreadStep cullMarks start acc (c.id, c.parentItemId) := by
  unfold cullCandidate spreadStep
  cases c.parentItemId with
  | none => rfl
  | some parentId =>
    have hmarked : cullMarks.marked (start parentId) = isCulledAt (start parentId) := rfl
    have hreason : ∀ reasons : List String,
        reasons.any (· = reasonFamilyWithCulledParent) = reasons.contains reasonFamilyWithCulledParent := by
      intro reasons
      rw [Bool.eq_iff_iff]
      simp
    dsimp only
    rw [hmarked, hreason]
    by_cases hparent : isCulledAt (start parentId) = true
    · generalize hd : acc.1 c.id = d
      have hstatus : (if (d.getD .included).status ≠ statusCulled then statusCulled
          else (d.getD .included).status)
          = statusCulled := by
        by_cases h : (d.getD .included).status = statusCulled <;> simp [h]
      have hwas : ((d.getD .included).isCulled && (d.getD .included).reasons.contains
          reasonFamilyWithCulledParent)
          = cullMarks.settled d := by
        cases d with
        | none => decide
        | some entry => rfl
      rw [hstatus, hwas]
      show (if (!isCulledAt (start parentId)) = true then acc
          else (update acc.1 c.id (cullMarks.push d), if cullMarks.settled d then acc.2 else true)) = _
      cases hsettled : cullMarks.settled d with
      | true =>
        -- the write of a decision that stands already
        have hsame : update acc.1 c.id (cullMarks.push d) = acc.1 := by
          rw [cullMarks.push_of_settled _ hsettled, ← hd, update_eq_self]
        simp [hparent, hsame]
      | false => simp [hparent]
    · simp [hparent]

theorem keepRound_eq (candidates : List CullCandidate) :
    keepRound candidates = spreadRound includeMarks (familyLinks candidates) := by
  funext decisions
  have hstep : keepCandidate (fun id => isIncluded (decisions id))
      = fun acc c => spreadStep includeMarks decisions acc (c.id, c.parentItemId) := by
    funext acc c
    exact keepCandidate_eq decisions acc c
  show candidates.foldl (keepCandidate fun id => isIncluded (decisions id)) (decisions, false) = _
  rw [hstep, spreadRound, familyLinks, foldl_map]

theorem cullRound_eq (candidates : List CullCandidate) :
    cullRound candidates = spreadRound cullMarks (familyLinks candidates) := by
  funext decisions
  have hstep : cullCandidate (fun id => isCulledAt (decisions id))
      = fun acc c => spreadStep cullMarks decisions acc (c.id, c.parentItemId) := by
    funext acc c
    exact cullCandidate_eq decisions acc c
  show candidates.foldl (cullCandidate fun id => isCulledAt (decisions id)) (decisions, false) = _
  rw [hstep, spreadRound, familyLinks, foldl_map]

theorem untilUnchanged_spreadRound {nodes : List (String × Option String)} {n : Nat}
    (hn : unsettled m nodes decisions < n) :
    untilUnchanged (spreadRound m nodes) n decisions = some (spread m nodes decisions) := by
  induction n generalizing decisions with
  | zero => omega
  | succ n ih =>
    unfold untilUnchanged
    cases hchanged : (spreadRound m nodes decisions).2 with
    | true =>
      have hlt := unsettled_spreadRound hchanged
      simp only [hchanged, if_true]
      rw [ih (by omega), spread_of_between (spreadRound_between nodes decisions)]
    | false =>
      simp only [hchanged]
      rw [if_neg (by simp), spreadRound_of_unchanged hchanged]

theorem untilUnchanged_familyLinks {n : Nat} (hn : candidates.length < n) (decisions : Decisions) :
    untilUnchanged (spreadRound m (familyLinks candidates)) n decisions
      = some (spread m (familyLinks candidates) decisions) := by
  apply untilUnchanged_spreadRound
  have hlength : (familyLinks candidates).length = candidates.length := by simp [familyLinks]
  have hle : unsettled m (familyLinks candidates) decisions ≤ (familyLinks candidates).length :=
    countP_le_length
  omega

def ChildOf (candidates : List CullCandidate) (parent child : String) : Prop :=
  ∃ c ∈ candidates, c.id = child ∧ c.parentItemId = some parent

/-- A chain of links from parents to children leads from a marked item to this candidate. -/
def ReachedFrom (marked : Option ItemCullDecision → Bool) (candidates : List CullCandidate)
    (decisions : Decisions) (id : String) : Prop :=
  ∃ ancestor, marked (decisions ancestor) = true ∧ Relation.TransGen (ChildOf candidates) ancestor id

theorem mem_familyLinks {parent child : String} :
    (child, some parent) ∈ familyLinks candidates ↔ ChildOf candidates parent child := by
  simp [familyLinks, ChildOf]

theorem pushed_iff_reachedFrom {id : String} :
    Pushed m (familyLinks candidates) decisions id ↔ ReachedFrom m.marked candidates decisions id := by
  constructor
  · rintro ⟨parent, hlink, hreached⟩
    -- the chain to the parent, and the last link
    have hchain : m.marked (decisions parent) = true ∨ ReachedFrom m.marked candidates decisions parent := by
      clear hlink
      induction hreached with
      | marked h => exact .inl h
      | link hlink _ ih =>
        right
        rcases ih with h | ⟨ancestor, hmarked, hpath⟩
        · exact ⟨_, h, .single (mem_familyLinks.mp hlink)⟩
        · exact ⟨ancestor, hmarked, hpath.tail (mem_familyLinks.mp hlink)⟩
    rcases hchain with h | ⟨ancestor, hmarked, hpath⟩
    · exact ⟨parent, h, .single (mem_familyLinks.mp hlink)⟩
    · exact ⟨ancestor, hmarked, hpath.tail (mem_familyLinks.mp hlink)⟩
  · rintro ⟨ancestor, hmarked, hpath⟩
    induction hpath with
    | single h => exact ⟨ancestor, mem_familyLinks.mpr h, .marked hmarked⟩
    | tail _ h ih =>
      obtain ⟨parent, hlink, hreached⟩ := ih
      exact ⟨_, mem_familyLinks.mpr h, .link hlink hreached⟩

theorem marked_spread {id : String} : m.marked (spread m (familyLinks candidates) decisions id) = true
      ↔ m.marked (decisions id) = true ∨ ReachedFrom m.marked candidates decisions id := by
  rw [← pushed_iff_reachedFrom]
  by_cases hp : Pushed m (familyLinks candidates) decisions id
  · rw [spread_of_pushed hp]
    simp [hp, m.marked_push]
  · rw [spread_of_not_pushed hp]
    simp [hp]

theorem spread_spread :
    spread m (familyLinks candidates) (spread m (familyLinks candidates) decisions)
      = spread m (familyLinks candidates) decisions :=
  spread_of_between fun _ => .inr rfl

def withFamilyReason (reasons : List String) : List String :=
  if reasonFamilyWithCulledParent ∈ reasons then reasons else reasons ++ [reasonFamilyWithCulledParent]

theorem push_cullMarks (d : Option ItemCullDecision) :
    cullMarks.push d = some ⟨statusCulled, withFamilyReason ((d.map ItemCullDecision.reasons).getD [])⟩ := by
  unfold withFamilyReason
  cases d <;> simp [cullMarks, ItemCullDecision.included]

theorem reasons_push_includeMarks (d : Option ItemCullDecision) :
    (includeMarks.push d).map ItemCullDecision.reasons = some [] := by
  have hsettled := includeMarks.settled_push d
  cases hd : includeMarks.push d with
  | none =>
    rw [hd] at hsettled
    simp [includeMarks] at hsettled
  | some e =>
    rw [hd] at hsettled
    simpa [includeMarks] using (Bool.and_eq_true_iff.mp hsettled).2

/-- **The policies end, in the least fixpoint.** Whatever the parents of the candidates and the
decisions before: inclusion spreads along the links from parents to children and clears the reasons,
removal spreads along them and adds a reason to those that are there, nothing else changes, and a
second pass changes nothing. -/
theorem applyFamilyPolicy_fixpoint (candidates : List CullCandidate) (decisions : Decisions) :
    (∃ kept : Decisions, (∀ n, candidates.length < n →
        applyFamilyPolicyWithin n candidates decisions .keepChildrenWithIncludedParent = some kept
          ∧ applyFamilyPolicyWithin n candidates kept .keepChildrenWithIncludedParent = some kept)
      ∧ (∀ id, isIncluded (kept id) = true
          ↔ isIncluded (decisions id) = true ∨ ReachedFrom isIncluded candidates decisions id)
      ∧ (∀ id, ReachedFrom isIncluded candidates decisions id →
        (kept id).map ItemCullDecision.reasons = some [])
      ∧ ∀ id, ¬ ReachedFrom isIncluded candidates decisions id → kept id = decisions id)
    ∧ ∃ culled : Decisions, (∀ n, candidates.length < n →
        applyFamilyPolicyWithin n candidates decisions .cullChildrenWithParent = some culled
          ∧ applyFamilyPolicyWithin n candidates culled .cullChildrenWithParent = some culled)
      ∧ (∀ id, isCulledAt (culled id) = true
          ↔ isCulledAt (decisions id) = true ∨ ReachedFrom isCulledAt candidates decisions id)
      ∧ (∀ id, ReachedFrom isCulledAt candidates decisions id →
          culled id = some ⟨statusCulled, withFamilyReason (((decisions id).map ItemCullDecision.reasons).getD [])⟩)
      ∧ ∀ id, ¬ ReachedFrom isCulledAt candidates decisions id → culled id = decisions id := by
  constructor
  · refine ⟨spread includeMarks (familyLinks candidates) decisions, ?_,
      fun id => marked_spread (m := includeMarks), ?_, ?_⟩
    · intro n hn
      simp only [applyFamilyPolicyWithin, keepRound_eq, untilUnchanged_familyLinks hn, spread_spread, and_self]
    · intro id hid
      rw [spread_of_pushed (pushed_iff_reachedFrom.mpr hid)]
      exact reasons_push_includeMarks _
    · intro id hid
      exact spread_of_not_pushed fun hp => hid (pushed_iff_reachedFrom.mp hp)
  · refine ⟨spread cullMarks (familyLinks candidates) decisions, ?_,
      fun id => marked_spread (m := cullMarks), ?_, ?_⟩
    · intro n hn
      simp only [applyFamilyPolicyWithin, cullRound_eq, untilUnchanged_familyLinks hn, spread_spread, and_self]
    · intro id hid
      rw [spread_of_pushed (pushed_iff_reachedFrom.mpr hid)]
      exact push_cullMarks _
    · intro id hid
      exact spread_of_not_pushed fun hp => hid (pushed_iff_reachedFrom.mp hp)

def repeatedReason : Decisions := fun id =>
  if id = "p" then some (.culled [reasonSize])
  else if id = "c" then some (.culled [reasonFamilyWithCulledParent, reasonFamilyWithCulledParent])
  else none

/-- A reason that is there twice stays twice. -/
theorem familyReason_not_once : ¬ ∀ (n : Nat) (candidates : List CullCandidate) (decisions culled : Decisions)
    (id : String), applyFamilyPolicyWithin n candidates decisions .cullChildrenWithParent
      = some culled → ReachedFrom isCulledAt candidates decisions id →
      ∃ d, culled id = some d ∧ d.reasons.count reasonFamilyWithCulledParent = 1 := by
  intro h
  have hreached : ReachedFrom isCulledAt [{ id := "c", parentItemId := some "p" }] repeatedReason "c" :=
    ⟨"p", by decide, .single ⟨_, mem_singleton_self _, rfl, rfl⟩⟩
  have hrounds : applyFamilyPolicyWithin 2 [{ id := "c", parentItemId := some "p" }] repeatedReason
      .cullChildrenWithParent = some (spread cullMarks (familyLinks [{ id := "c", parentItemId := some "p" }])
        repeatedReason) := by
    rw [applyFamilyPolicyWithin, cullRound_eq]
    exact untilUnchanged_familyLinks (by decide) repeatedReason
  obtain ⟨d, hd, hcount⟩ := h _ _ _ _ _ hrounds hreached
  rw [spread_of_pushed (pushed_iff_reachedFrom.mpr hreached), push_cullMarks] at hd
  rw [← Option.some.inj hd] at hcount
  exact absurd hcount (by decide)

end MatterCull
