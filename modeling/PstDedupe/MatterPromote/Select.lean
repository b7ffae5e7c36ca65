import PstDedupe.Foundations.Fallible
import PstDedupe.Foundations.Neighbours
import PstDedupe.Foundations.SqlSelect

/-!
# Which items are promoted, and in which order (`matter-promote/src/{params,policy,family,order}.rs`)

A policy selects items, the family expansion adds their parents and children, and one query orders
what is left.
-/

namespace MatterPromote

open Rust Foundations

variable {table : List PromoteCandidate}

inductive PromoteError where
  | matter (message : String)
  | invalidParams (message : String)
  | other (message : String)
  deriving DecidableEq, Repr

/-- `Display`. -/
def PromoteError.text : PromoteError → String
  | .matter message => "matter error: " ++ message
  | .invalidParams message => "invalid params: " ++ message
  | .other message => message

structure PromoteCandidate where
  id : String
  parentItemId : Option String := none
  path : Option String := none
  status : String := "extracted"
  dedupRole : Option String := none
  cullStatus : Option String := none
  deriving DecidableEq, Repr

def POLICY_AUTO : String := "auto"
def POLICY_CULL_INCLUDED : String := "cull_included"
def POLICY_UNIQUE_ONLY : String := "unique_only"
def POLICY_UNIQUE_PLUS_FAMILY : String := "unique_plus_family"
def POLICY_ALL_EXTRACTED : String := "all_extracted"
def POLICY_CULL_INCLUDED_PLUS_FAMILY : String := "cull_included_plus_family"

def ALL_POLICY_IDS : List String :=
  [POLICY_AUTO, POLICY_CULL_INCLUDED, POLICY_UNIQUE_ONLY, POLICY_UNIQUE_PLUS_FAMILY,
    POLICY_ALL_EXTRACTED, POLICY_CULL_INCLUDED_PLUS_FAMILY]

def policyIdValid (id : String) : Bool := ALL_POLICY_IDS.contains id

def policyImpliesExpand (resolved : String) : Bool :=
  resolved == POLICY_UNIQUE_PLUS_FAMILY || resolved == POLICY_CULL_INCLUDED_PLUS_FAMILY

def cullHasRun (table : List PromoteCandidate) : Bool := table.any fun c => c.cullStatus.isSome

def resolvePolicy (table : List PromoteCandidate) (requested : String) : Except PromoteError String :=
  if requested ≠ POLICY_AUTO then
    if !policyIdValid requested then .error (.invalidParams ("unknown promote policy '" ++ requested ++ "'"))
    else .ok requested
  else if cullHasRun table then .ok POLICY_CULL_INCLUDED
  else .ok POLICY_UNIQUE_ONLY

def isExtractedLike (status : String) : Bool :=
  status == "extracted" || status == "partial" || status == "normalized"

def selectIds (p : PromoteCandidate → Bool) (candidates : List PromoteCandidate) : List String :=
  (candidates.filter p).map PromoteCandidate.id

def selectUnique (candidates : List PromoteCandidate) (requireDedupe : Bool) :
    Except PromoteError (List String) :=
  if !candidates.any fun c => c.dedupRole.isSome then
    if requireDedupe then
      .error (.invalidParams "require_dedupe=true but no item has dedup_role; run exact dedupe first")
    else .ok (selectIds (fun c => isExtractedLike c.status) candidates)
  else
    .ok (selectIds (fun c => isExtractedLike c.status && match c.dedupRole with
      | some role => role == "unique" || role == "skipped"
      | none => true) candidates)

def selectBaseIdsFromCandidates (candidates : List PromoteCandidate) (resolvedPolicy : String)
    (requireDedupe : Bool) :
    Except PromoteError (List String) :=
  if resolvedPolicy = POLICY_CULL_INCLUDED ∨ resolvedPolicy = POLICY_CULL_INCLUDED_PLUS_FAMILY then
    .ok (selectIds (fun c => c.cullStatus == some "included") candidates)
  else if resolvedPolicy = POLICY_UNIQUE_ONLY ∨ resolvedPolicy = POLICY_UNIQUE_PLUS_FAMILY then
    selectUnique candidates requireDedupe
  else if resolvedPolicy = POLICY_ALL_EXTRACTED then
    .ok (selectIds (fun c => isExtractedLike c.status) candidates)
  else .error (.invalidParams ("cannot select base set for unresolved/unknown policy '" ++
    resolvedPolicy ++ "'"))

/-- `for id in ids { set.insert(id); }` -/
def insertAll (set ids : List String) : List String :=
  ids.foldl (fun held id => if held.contains id then held else held ++ [id]) set

/-- `SELECT i.id .. WHERE i.parent_item_id IN parents`. -/
def listDirectChildrenIds (table : List PromoteCandidate) (parentIds : List String) : List String :=
  (table.filter fun c => c.parentItemId.any parentIds.contains).map PromoteCandidate.id

/-- `SELECT DISTINCT i.parent_item_id .. WHERE i.id IN children`. -/
def listParentIdsOf (table : List PromoteCandidate) (childIds : List String) : List String :=
  ((table.filter fun c => childIds.contains c.id).filterMap PromoteCandidate.parentItemId).dedup

def expandOnce (table : List PromoteCandidate) (set : List String) : List String :=
  insertAll (insertAll set (listDirectChildrenIds table set)) (listParentIdsOf table set)

/-- `for _ in 0..n`, left when a round adds nothing. -/
def expandRounds (table : List PromoteCandidate) : Nat → List String → List String
  | 0, set => set
  | n + 1, set =>
    let after := expandOnce table set
    if after.length = set.length then set else expandRounds table n after

def expandFamiliesBidirectional (table : List PromoteCandidate) (baseIds : List String) : List String :=
  expandRounds table 2 (insertAll [] baseIds)

def PromoteCandidate.familyKey (c : PromoteCandidate) : String := c.parentItemId.getD c.id

def familyOrder : List (PromoteCandidate → PromoteCandidate → Ordering) :=
  [asc PromoteCandidate.familyKey, asc fun c => if c.parentItemId = none then 0 else 1,
    asc PromoteCandidate.path,
    asc PromoteCandidate.id]

def orderedMembership (table : List PromoteCandidate) (memberIds : List String) : List PromoteCandidate :=
  orderBy familyOrder (table.filter fun c => memberIds.contains c.id)

/-- `expand_threads` and `review_set_name` as given; sizes are `u64`. -/
structure PromoteParams where
  policy : String := POLICY_AUTO
  reviewSetName : String := "Review Corpus"
  expandFamilies : Bool := true
  reset : Bool := true
  batchSize : Nat := 500
  requireDedupe : Bool := false
  failIfEmpty : Bool := false
  expandThreads : Bool := false
  deriving DecidableEq

def PromoteParams.validateShape (p : PromoteParams) : Except PromoteError Unit :=
  if p.batchSize = 0 then .error (.invalidParams "batch_size must be >= 1")
  else if !policyIdValid p.policy then .error (.invalidParams ("unknown promote policy '" ++ p.policy ++ "'"))
  else if p.expandThreads then
    .error (.invalidParams "expand_threads is reserved (track 0056); set expand_threads=false")
  else .ok ()

def plannedMembers (table : List PromoteCandidate) (params : PromoteParams)
    (resolvedPolicy : String) : Except PromoteError (List String) := do
  let base ← selectBaseIdsFromCandidates table resolvedPolicy params.requireDedupe
  if params.expandFamilies || policyImpliesExpand
    resolvedPolicy then pure (expandFamiliesBidirectional table base)
  else pure base

def plannedIds (table : List PromoteCandidate) (params : PromoteParams) (resolvedPolicy : String) :
    Except PromoteError (List String) := do
  let members ← plannedMembers table params resolvedPolicy
  pure ((orderedMembership table members).map PromoteCandidate.id)

/-- One of the two is the parent of the other. -/
def FamilyLink (table : List PromoteCandidate) (x y : String) : Prop :=
  ∃ c ∈ table, c.id = y ∧ c.parentItemId = some x ∨ c.id = x ∧ c.parentItemId = some y

theorem mem_insertAll {set ids : List String} {x : String} : x ∈ insertAll set ids ↔ x ∈ set ∨ x ∈ ids := by
  unfold insertAll
  induction ids generalizing set with
  | nil => simp
  | cons id ids ih =>
    rw [List.foldl_cons, ih, List.mem_cons]
    split
    next hheld =>
      have hheld : id ∈ set := List.contains_iff_mem.mp hheld
      constructor
      · rintro (h | h)
        · exact .inl h
        · exact .inr (.inr h)
      · rintro (h | rfl | h)
        · exact .inl h
        · exact .inl hheld
        · exact .inr h
    next => simp [or_assoc]

theorem mem_expandOnce : GrowsBy (FamilyLink table) (expandOnce table) := by
  intro held x
  have hchildren : x ∈ listDirectChildrenIds table held ↔ ∃ p ∈ held, ∃ c ∈ table, c.id = x ∧
      c.parentItemId = some p := by
    simp only [listDirectChildrenIds, List.mem_map, List.mem_filter, Option.any_eq_true, List.contains_iff_mem]
    constructor
    · rintro ⟨c, ⟨hc, p, hp, hheld⟩, rfl⟩
      exact ⟨p, hheld, c, hc, rfl, hp⟩
    · rintro ⟨p, hheld, c, hc, rfl, hp⟩
      exact ⟨c, ⟨hc, p, hp, hheld⟩, rfl⟩
  have hparents : x ∈ listParentIdsOf table held ↔ ∃ i ∈ held, ∃ c ∈ table, c.id = i ∧
      c.parentItemId = some x := by
    simp only [listParentIdsOf, List.mem_dedup, List.mem_filterMap, List.mem_filter, List.contains_iff_mem]
    constructor
    · rintro ⟨c, ⟨hc, hheld⟩, hp⟩
      exact ⟨c.id, hheld, c, hc, rfl, hp⟩
    · rintro ⟨i, hheld, c, hc, rfl, hp⟩
      exact ⟨c, ⟨hc, hheld⟩, hp⟩
  unfold expandOnce
  rw [mem_insertAll, mem_insertAll, hchildren, hparents, or_assoc]
  refine or_congr_right ?_
  constructor
  · rintro (⟨p, hp, c, hc, hlink⟩ | ⟨i, hi, c, hc, hlink⟩)
    · exact ⟨p, hp, c, hc, .inl hlink⟩
    · exact ⟨i, hi, c, hc, .inr hlink⟩
  · rintro ⟨z, hz, c, hc, hlink | hlink⟩
    · exact .inl ⟨z, hz, c, hc, hlink⟩
    · exact .inr ⟨z, hz, c, hc, hlink⟩

theorem prefix_insertAll (set ids : List String) : set <+: insertAll set ids := by
  unfold insertAll
  induction ids generalizing set with
  | nil => exact List.prefix_rfl
  | cons id ids ih =>
    rw [List.foldl_cons]
    split
    · exact ih set
    · exact (List.prefix_append set [id]).trans (ih (set ++ [id]))

theorem expandOnce_eq_self {set : List String}
    (h : (expandOnce table set).length = set.length) : expandOnce table set = set :=
  (((prefix_insertAll _ _).trans (prefix_insertAll _ _)).eq_of_length h.symm).symm

theorem expandRounds_eq (table : List PromoteCandidate) (n : Nat) (set : List String) :
    expandRounds table n set = (expandOnce table)^[n] set := by
  induction n generalizing set with
  | zero => rfl
  | succ n ih =>
    show (if (expandOnce table set).length = set.length then set else expandRounds table n
      (expandOnce table set)) = _
    split
    next h => exact (Function.iterate_fixed (expandOnce_eq_self h) (n + 1)).symm
    next => rw [ih, Function.iterate_succ_apply]

theorem mem_expandFamiliesBidirectional {baseIds : List String} {x : String} :
    x ∈ expandFamiliesBidirectional table baseIds ↔ ∃ b ∈ baseIds, Within (FamilyLink table) 2 b x := by
  unfold expandFamiliesBidirectional
  rw [expandRounds_eq, mem_rounds mem_expandOnce]
  have hbase : ∀ b, b ∈ insertAll [] baseIds ↔ b ∈ baseIds := fun b => by
    rw [mem_insertAll, or_iff_right List.not_mem_nil]
  simp only [hbase]

/-- No parent has a parent. -/
def TwoLevels (table : List PromoteCandidate) : Prop :=
  ∀ c ∈ table, ∀ p ∈ table, c.parentItemId = some p.id → p.parentItemId = none

theorem short_familyLink (hkeyed : (table.map PromoteCandidate.id).Nodup)
    (hflat : TwoLevels table) : Short (FamilyLink table) := by
  -- an item is linked to a child or to its parent
  let Child (x y : String) : Prop := ∃ c ∈ table, c.id = x ∧ c.parentItemId = some y
  have hsides : ∀ x y, FamilyLink table x y → Child y x ∨ Child x y := by
    rintro x y ⟨c, hc, h | h⟩
    · exact .inl ⟨c, hc, h⟩
    · exact .inr ⟨c, hc, h⟩
  have htop : ∀ x y z, Child x y → ¬ Child y z := by
    rintro x y z ⟨c, hc, -, hparent⟩ ⟨p, hp, rfl, hgrand⟩
    rw [hflat c hc p hp hparent] at hgrand
    cases hgrand
  have hone : ∀ x y z, Child x y → Child x z → y = z := by
    rintro x y z ⟨c, hc, rfl, hy⟩ ⟨d, hd, hid, hz⟩
    obtain rfl := List.inj_on_of_nodup_map hkeyed hd hc hid
    exact Option.some.inj (hy.symm.trans hz)
  intro a b c d hab hbc hcd
  rcases hsides a b hab with hba | hab'
  · rcases hsides b c hbc with hcb | hbc'
    · exact absurd hba (htop c b a hcb)
    · rw [hone b a c hba hbc']
      exact (Within.tail (n := 0) rfl hcd).mono (by omega)
  · rcases hsides b c hbc with hcb | hbc'
    · rcases hsides c d hcd with hdc | hcd'
      · exact absurd hcb (htop d c b hdc)
      · rw [← hone c b d hcb hcd']
        exact (Within.tail (n := 0) rfl hab).mono (by omega)
    · exact absurd hbc' (htop a b c hab')

def PromoteCandidate.orderKey (c : PromoteCandidate) : String ×ₗ Nat ×ₗ WithBot String ×ₗ String :=
  toLex (c.familyKey, toLex (if c.parentItemId = none then 0 else 1, toLex (nullsFirst c.path, c.id)))

theorem familyOrder_ordersBy : OrdersBy familyOrder PromoteCandidate.orderKey := by
  intro a b
  simp only [familyOrder, byTerms, asc, List.foldr_cons, List.foldr_nil, Ordering.then_eq,
    PromoteCandidate.orderKey, compare_toLex, compare_nullsFirst]

section Order

variable {table : List PromoteCandidate} {memberIds : List String} {i j k : Nat} {a b c : PromoteCandidate}

theorem mem_orderedMembership : a ∈ orderedMembership table memberIds ↔ a ∈ table ∧ a.id ∈ memberIds := by
  unfold orderedMembership
  rw [(orderBy_perm _ _).mem_iff, List.mem_filter, List.contains_iff_mem]

theorem nodup_orderedMembership (hkeyed : (table.map PromoteCandidate.id).Nodup) :
    ((orderedMembership table memberIds).map PromoteCandidate.id).Nodup :=
  nodup_map_orderBy familyOrder ((List.filter_sublist.map _).nodup hkeyed)

theorem pairwise_orderedMembership (hkeyed : (table.map PromoteCandidate.id).Nodup) :
    (orderedMembership table memberIds).Pairwise fun a b => a.orderKey < b.orderKey := by
  refine familyOrder_ordersBy.pairwise_lt (List.Nodup.map_on (fun a ha b hb hab => ?_)
    (((List.filter_sublist.map _).nodup hkeyed).of_map _))
  have hid : a.id = b.id := by
    have hlex := congrArg (fun key => (ofLex (ofLex (ofLex key).2).2).2) hab
    exact hlex
  exact List.inj_on_of_nodup_map hkeyed (List.mem_of_mem_filter ha) (List.mem_of_mem_filter hb) hid

theorem familyKey_of_between (hkeyed : (table.map PromoteCandidate.id).Nodup)
    (ha : (orderedMembership table memberIds)[i]? = some a)
    (hb : (orderedMembership table memberIds)[j]? = some b)
    (hc : (orderedMembership table memberIds)[k]? = some c) (hij : i ≤ j) (hjk : j ≤ k)
    (hkey : a.familyKey = c.familyKey) :
    b.familyKey = a.familyKey := by
  have hsorted : (orderedMembership table memberIds).Pairwise fun a b => a.familyKey ≤ b.familyKey :=
    (pairwise_orderedMembership hkeyed).imp fun hxy =>
      (Prod.Lex.toLex_lt_toLex.mp hxy).elim le_of_lt fun h => le_of_eq h.1
  exact eq_of_between hsorted ha hb hc hij hjk hkey

theorem parent_first (hkeyed : (table.map PromoteCandidate.id).Nodup)
    (ha : (orderedMembership table memberIds)[i]? = some a)
    (hb : (orderedMembership table memberIds)[j]? = some b) (hroot : a.parentItemId = none)
    (hchild : b.parentItemId = some a.id) : i < j := by
  have hlt : a.orderKey < b.orderKey := by
    have hkey : a.familyKey = b.familyKey := by
      unfold PromoteCandidate.familyKey
      rw [hroot, hchild]
      rfl
    refine Prod.Lex.toLex_lt_toLex.mpr (.inr ⟨hkey, Prod.Lex.toLex_lt_toLex.mpr (.inl ?_)⟩)
    show (if a.parentItemId = none then 0 else 1) < if b.parentItemId = none then 0 else 1
    rw [hroot, hchild, if_pos rfl, if_neg (Option.some_ne_none _)]
    exact Nat.one_pos
  by_contra hge
  have hle := key_le_of_pairwise ((pairwise_orderedMembership hkeyed).imp le_of_lt) hb ha (by omega)
  exact absurd hlt (not_lt_of_ge hle)

end Order

end MatterPromote
