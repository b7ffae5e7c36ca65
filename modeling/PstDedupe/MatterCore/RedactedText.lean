import PstDedupe.Foundations.Intervals

/-!
# Redacted text (`matter-core/src/redaction.rs`)

Ranges are char positions, as clients send them: in any order, overlapping, out of bounds.
-/

namespace MatterCore

open Foundations List String

variable {ranges : List (Int × Int)}

def redactedToken : String := "[REDACTED]"

/-- The fold of `merge_redaction_intervals`: ranges that overlap or touch become one. -/
def mergeLoop (cur : Int × Int) : List (Int × Int) → List (Int × Int)
  | [] => [cur]
  | r :: rest => if r.1 ≤ cur.2 then mergeLoop (cur.1, max cur.2 r.2) rest else cur :: mergeLoop r rest

def mergeRedactionIntervals (ranges : List (Int × Int)) : List (Int × Int) :=
  match (ranges.filter fun r => r.2 > r.1 && r.1 ≥ 0).mergeSort fun a b => decide (a.1 ≤ b.1) with
  | [] => []
  | cur :: rest => mergeLoop cur rest

def clampRange (bodyChars : Int) (r : Int × Int) : Int × Int :=
  (min (max r.1 0) bodyChars, min (max r.2 0) bodyChars)

def copyLoop (chars : List Char) : Int → List (Int × Int) → List Char
  | i, [] => if i.toNat < chars.length then chars.drop i.toNat else []
  | i, r :: rest =>
    (if i < r.1 then (chars.drop i.toNat).take (r.1.toNat - i.toNat) else []) ++
      redactedToken.toList ++ copyLoop chars r.2 rest

def buildRedactedText (displayBody : String) (ranges : List (Int × Int)) : String :=
  let bodyChars : Int := displayBody.toList.length
  if bodyChars = 0 then displayBody
  else
    let clamped := (ranges.map (clampRange bodyChars)).filter fun r => r.2 > r.1
    let merged := mergeRedactionIntervals clamped
    if merged = [] then displayBody else ofList (copyLoop displayBody.toList 0 merged)

section Merge

variable {cur : Int × Int} {rest : List (Int × Int)}

theorem covered_mergeLoop (hstart : ∀ r ∈ rest, cur.1 ≤ r.1) (hsorted : rest.Pairwise fun a b => a.1 ≤ b.1)
    {x : Int} : Covered (mergeLoop cur rest) x ↔ Covered (cur :: rest) x := by
  induction rest generalizing cur with
  | nil => rfl
  | cons r rest ih =>
    obtain ⟨hfirst, hsorted'⟩ := List.pairwise_cons.mp hsorted
    have hr := hstart r mem_cons_self
    rw [mergeLoop]
    split
    · rename_i htouch
      have hmerged : Covered (mergeLoop (cur.1, max cur.2 r.2) rest) x
          ↔ Covered ((cur.1, max cur.2 r.2) :: rest) x := ih (fun q hq => hr.trans (hfirst q hq)) hsorted'
      rw [hmerged, covered_cons, covered_cons, covered_cons, covered_merge hr htouch, or_assoc]
    · rw [covered_cons, ih hfirst hsorted', ← covered_cons]

theorem bounds_of_mem_mergeLoop {r : Int × Int} (hr : r ∈ mergeLoop cur rest) :
    (∃ q ∈ cur :: rest, r.1 = q.1) ∧ ∃ q ∈ cur :: rest, r.2 = q.2 := by
  induction rest generalizing cur with
  | nil => exact ⟨⟨r, hr, rfl⟩, r, hr, rfl⟩
  | cons p rest ih =>
    rw [mergeLoop] at hr
    split at hr
    · obtain ⟨⟨q, hq, hstart⟩, q', hq', hend⟩ := ih hr
      constructor
      · rcases List.mem_cons.mp hq with rfl | hq
        · exact ⟨cur, mem_cons_self, hstart⟩
        · exact ⟨q, mem_cons_of_mem _ (mem_cons_of_mem _ hq), hstart⟩
      · rcases List.mem_cons.mp hq' with rfl | hq'
        · rcases max_choice cur.2 p.2 with hmax | hmax
          · exact ⟨cur, mem_cons_self, hend.trans hmax⟩
          · exact ⟨p, mem_cons_of_mem _ mem_cons_self, hend.trans hmax⟩
        · exact ⟨q', mem_cons_of_mem _ (mem_cons_of_mem _ hq'), hend⟩
    · rcases List.mem_cons.mp hr with rfl | hr
      · exact ⟨⟨r, mem_cons_self, rfl⟩, r, mem_cons_self, rfl⟩
      · obtain ⟨⟨q, hq, hstart⟩, q', hq', hend⟩ := ih hr
        exact ⟨⟨q, mem_cons_of_mem _ hq, hstart⟩, q', mem_cons_of_mem _ hq', hend⟩

theorem separated_mergeLoop (hcur : cur.1 < cur.2) (hlt : ∀ r ∈ rest, r.1 < r.2)
    (hsorted : rest.Pairwise fun a b => a.1 ≤ b.1) : Separated (mergeLoop cur rest) := by
  induction rest generalizing cur with
  | nil => exact separated_cons.mpr ⟨hcur, by simp, separated_nil⟩
  | cons r rest ih =>
    obtain ⟨hfirst, hsorted'⟩ := List.pairwise_cons.mp hsorted
    have hrest : ∀ q ∈ rest, q.1 < q.2 := fun q hq => hlt q (mem_cons_of_mem r hq)
    rw [mergeLoop]
    split
    · exact ih (lt_max_of_lt_left hcur) hrest hsorted'
    · rename_i hgap
      refine separated_cons.mpr ⟨hcur, fun q hq => ?_, ih (hlt r mem_cons_self) hrest hsorted'⟩
      -- behind the gap every start is one of the later ranges'
      obtain ⟨⟨p, hp, hstart⟩, _⟩ := bounds_of_mem_mergeLoop hq
      rcases List.mem_cons.mp hp with rfl | hp
      · omega
      · have := hfirst p hp
        omega

end Merge

section Intervals

variable {ranges : List (Int × Int)}

/-- What is merged: the ranges that hold something, by their starts. -/
def sortedRanges (ranges : List (Int × Int)) : List (Int × Int) :=
  (ranges.filter fun r => r.2 > r.1 && r.1 ≥ 0).mergeSort fun a b => decide (a.1 ≤ b.1)

theorem pairwise_sortedRanges (ranges : List (Int × Int)) :
    (sortedRanges ranges).Pairwise fun a b => a.1 ≤ b.1 := by
  have h : (sortedRanges ranges).Pairwise fun a b => decide (a.1 ≤ b.1) = true := by
    refine pairwise_mergeSort (fun a b c hab hbc => ?_) (fun a b => ?_) _
    · rw [decide_eq_true_iff] at hab hbc ⊢
      omega
    · rw [Bool.or_eq_true, decide_eq_true_iff, decide_eq_true_iff]
      omega
  exact h.imp fun hab => of_decide_eq_true hab

theorem mem_sortedRanges {r : Int × Int} : r ∈ sortedRanges ranges ↔ r ∈ ranges ∧ r.1 < r.2 ∧ 0 ≤ r.1 := by
  unfold sortedRanges
  rw [mem_mergeSort, mem_filter, Bool.and_eq_true, decide_eq_true_iff, decide_eq_true_iff]

theorem mergeRedactionIntervals_eq (ranges : List (Int × Int)) :
    mergeRedactionIntervals ranges = match sortedRanges ranges with
      | [] => []
      | cur :: rest => mergeLoop cur rest := rfl

theorem covered_mergeRedactionIntervals (hpos : ∀ r ∈ ranges, 0 ≤ r.1) {x : Int} :
    Covered (mergeRedactionIntervals ranges) x ↔ Covered ranges x := by
  have hsorted : Covered (sortedRanges ranges) x ↔ Covered ranges x := by
    constructor
    · rintro ⟨r, hr, hx⟩
      exact ⟨r, (mem_sortedRanges.mp hr).1, hx⟩
    · rintro ⟨r, hr, hx⟩
      exact ⟨r, mem_sortedRanges.mpr ⟨hr, by omega, hpos r hr⟩, hx⟩
  rw [← hsorted, mergeRedactionIntervals_eq]
  have hpair := pairwise_sortedRanges ranges
  cases hlist : sortedRanges ranges with
  | nil => rfl
  | cons cur rest =>
    rw [hlist] at hpair
    exact covered_mergeLoop (List.pairwise_cons.mp hpair).1 (List.pairwise_cons.mp hpair).2

theorem separated_mergeRedactionIntervals (ranges : List (Int × Int)) :
    Separated (mergeRedactionIntervals ranges) := by
  rw [mergeRedactionIntervals_eq]
  have hpair := pairwise_sortedRanges ranges
  have hlt : ∀ r ∈ sortedRanges ranges, r.1 < r.2 := fun r hr => (mem_sortedRanges.mp hr).2.1
  cases hlist : sortedRanges ranges with
  | nil => exact separated_nil
  | cons cur rest =>
    rw [hlist] at hpair hlt
    exact separated_mergeLoop (hlt cur mem_cons_self) (fun r hr => hlt r (mem_cons_of_mem cur hr))
      (List.pairwise_cons.mp hpair).2

theorem bounds_of_mem_mergeRedactionIntervals {r : Int × Int}
    (hr : r ∈ mergeRedactionIntervals ranges) : 0 ≤ r.1 ∧ ∃ q ∈ ranges, r.2 = q.2 := by
  rw [mergeRedactionIntervals_eq] at hr
  cases hlist : sortedRanges ranges with
  | nil =>
    rw [hlist] at hr
    cases hr
  | cons cur rest =>
    rw [hlist] at hr
    obtain ⟨⟨q, hq, hstart⟩, q', hq', hend⟩ := bounds_of_mem_mergeLoop hr
    rw [← hlist] at hq hq'
    exact ⟨hstart ▸ (mem_sortedRanges.mp hq).2.2, q', (mem_sortedRanges.mp hq').1, hend⟩

end Intervals

/-- The character lies in one of the ranges. -/
def Redacted (bodyChars : Nat) (ranges : List (Int × Int)) (k : Nat) : Prop :=
  Covered (ranges.map (clampRange bodyChars)) (k : Int)

instance (bodyChars : Nat) (ranges : List (Int × Int)) : DecidablePred (Redacted bodyChars ranges) :=
  fun k => inferInstanceAs (Decidable (Covered (ranges.map (clampRange bodyChars)) (k : Int)))

def toNatRange (r : Int × Int) : Nat × Nat := (r.1.toNat, r.2.toNat)

theorem copyLoop_eq (chars : List Char) {i : Int} (hi : 0 ≤ i)
    (hstart : ∀ r ∈ ranges, 0 ≤ r.1) (hsep : Separated ranges) :
    copyLoop chars i ranges = maskIntervals redactedToken.toList chars i.toNat (ranges.map toNatRange) := by
  induction ranges generalizing i with
  | nil =>
    show (if i.toNat < chars.length then chars.drop i.toNat else []) = chars.drop i.toNat
    split
    · rfl
    · exact (drop_of_length_le (by omega)).symm
  | cons r rest ih =>
    have hr := hstart r mem_cons_self
    obtain ⟨hlt, _, hsep'⟩ := separated_cons.mp hsep
    rw [copyLoop, ih (by omega) (fun q hq => hstart q (mem_cons_of_mem r hq)) hsep', map_cons,
      maskIntervals]
    split
    · rfl
    · have hnone : (toNatRange r).1 - i.toNat = 0 := by
        show r.1.toNat - i.toNat = 0
        omega
      rw [hnone, take_zero]
      rfl

theorem separated_map_toNatRange (hstart : ∀ r ∈ ranges, 0 ≤ r.1)
    (hsep : Separated ranges) : Separated (ranges.map toNatRange) := by
  induction ranges with
  | nil => exact separated_nil
  | cons r rest ih =>
    obtain ⟨hlt, hgap, hsep'⟩ := separated_cons.mp hsep
    have hr := hstart r mem_cons_self
    refine separated_cons.mpr ⟨?_, fun q hq => ?_, ih (fun q hq => hstart q (mem_cons_of_mem r hq)) hsep'⟩
    · show r.1.toNat < r.2.toNat
      omega
    · obtain ⟨p, hp, rfl⟩ := List.mem_map.mp hq
      have := hgap p hp
      show r.2.toNat < p.1.toNat
      omega

theorem covered_map_toNatRange (hstart : ∀ r ∈ ranges, 0 ≤ r.1)
    (hsep : Separated ranges) {k : Nat} : Covered (ranges.map toNatRange) k ↔ Covered ranges (k : Int) := by
  constructor
  · rintro ⟨q, hq, hx⟩
    obtain ⟨r, hr, rfl⟩ := List.mem_map.mp hq
    have hpos := hstart r hr
    have hlt := hsep.1 r hr
    have hle : r.1.toNat ≤ k ∧ k < r.2.toNat := hx
    exact ⟨r, hr, by omega⟩
  · rintro ⟨r, hr, hx⟩
    refine ⟨toNatRange r, mem_map_of_mem hr, ?_⟩
    show r.1.toNat ≤ k ∧ k < r.2.toNat
    omega

theorem buildRedactedText_eq_maskRuns (displayBody : String) (ranges : List (Int × Int)) :
    (buildRedactedText displayBody ranges).toList
      = maskRuns redactedToken.toList (Redacted displayBody.toList.length ranges) 0 false
        displayBody.toList := by
  let chars := displayBody.toList
  let clamped := (ranges.map (clampRange chars.length)).filter fun r => r.2 > r.1
  have hmem : ∀ r ∈ clamped, 0 ≤ r.1 ∧ r.2 ≤ chars.length := by
    intro r hr
    obtain ⟨q, _, rfl⟩ := List.mem_map.mp (List.mem_filter.mp hr).1
    unfold clampRange
    dsimp only
    omega
  have hcovered : ∀ k : Nat, Covered (mergeRedactionIntervals clamped) (k : Int) ↔
      Redacted chars.length ranges k := by
    intro k
    rw [covered_mergeRedactionIntervals fun r hr => (hmem r hr).1]
    constructor
    · rintro ⟨r, hr, hx⟩
      exact ⟨r, (List.mem_filter.mp hr).1, hx⟩
    · rintro ⟨r, hr, hx⟩
      exact ⟨r, List.mem_filter.mpr ⟨hr, decide_eq_true (by omega)⟩, hx⟩
  have hsep := separated_mergeRedactionIntervals clamped
  have hstart : ∀ r ∈ mergeRedactionIntervals clamped, 0 ≤ r.1 :=
    fun r hr => (bounds_of_mem_mergeRedactionIntervals hr).1
  have hend : ∀ q ∈ (mergeRedactionIntervals clamped).map toNatRange, q.2 ≤ chars.length := by
    intro q hq
    obtain ⟨r, hr, rfl⟩ := List.mem_map.mp hq
    obtain ⟨_, p, hp, heq⟩ := bounds_of_mem_mergeRedactionIntervals hr
    have := (hmem p hp).2
    show r.2.toNat ≤ chars.length
    omega
  have hmask : maskRuns redactedToken.toList (Redacted chars.length ranges) 0 false chars
      = maskIntervals redactedToken.toList chars 0 ((mergeRedactionIntervals clamped).map toNatRange) := by
    have hruns : maskRuns redactedToken.toList
        (Covered ((mergeRedactionIntervals clamped).map toNatRange)) 0 false
        (chars.drop 0) = _ :=
      maskRuns_of_separated (separated_map_toNatRange hstart hsep) hend fun _ _ => Nat.zero_le _
    rw [drop_zero] at hruns
    rw [← hruns]
    refine maskRuns_congr fun k _ => ?_
    rw [covered_map_toNatRange hstart hsep, hcovered]
  unfold buildRedactedText
  dsimp only
  split
  · rename_i hempty
    have hnil : displayBody.toList = [] := List.length_eq_zero_iff.mp (by omega)
    rw [hnil]
    rfl
  split
  · rename_i hmerged
    have hnone : mergeRedactionIntervals clamped = [] := hmerged
    rw [hnone] at hmask
    exact hmask.symm
  · rw [toList_ofList, copyLoop_eq chars (Int.le_refl 0) hstart hsep]
    exact hmask.symm

/-- **True redaction.** -/
theorem buildRedactedText_spec (displayBody : String) (ranges : List (Int × Int)) :
    (buildRedactedText displayBody ranges).toList
        = maskRuns redactedToken.toList (Redacted displayBody.toList.length ranges) 0 false
          displayBody.toList ∧
      (∀ ranges', (∀ r, r ∈ ranges' ↔ r ∈ ranges) →
        buildRedactedText displayBody ranges' = buildRedactedText displayBody ranges) ∧
      ∀ other : String, other.toList.length = displayBody.toList.length →
        (∀ k, ¬ Redacted displayBody.toList.length ranges k → other.toList[k]? = displayBody.toList[k]?) →
        buildRedactedText other ranges = buildRedactedText displayBody ranges := by
  refine ⟨buildRedactedText_eq_maskRuns displayBody ranges, fun ranges' hsame => ?_, fun other hlen hout => ?_⟩
  · apply String.toList_inj.mp
    rw [buildRedactedText_eq_maskRuns, buildRedactedText_eq_maskRuns]
    refine maskRuns_congr fun k _ => covered_congr fun r => ?_
    simp only [mem_map, hsame]
  · apply String.toList_inj.mp
    rw [buildRedactedText_eq_maskRuns, buildRedactedText_eq_maskRuns]
    simp only [hlen]
    refine maskRuns_congr_text hlen fun k _ hk => hout k ?_
    rw [Nat.zero_add] at hk
    exact hk

theorem buildRedactedText_spec_of_secret :
    buildRedactedText "Hello SECRET sauce" [(10, 12), (6, 12), (6, 12)]
        = buildRedactedText "Hello SECRET sauce" [(6, 12), (10, 12)] ∧
      buildRedactedText "Hello PUBLIC sauce" [(6, 12), (10, 12)]
        = buildRedactedText "Hello SECRET sauce" [(6, 12), (10, 12)] := by
  have hspec := buildRedactedText_spec "Hello SECRET sauce" [(6, 12), (10, 12)]
  refine ⟨hspec.2.1 _ fun r => ?_, hspec.2.2 _ (by decide) fun k hk => ?_⟩
  · simp only [mem_cons, not_mem_nil, or_false]
    tauto
  · have hinside : ∀ k < 18, ¬ Redacted ("Hello SECRET sauce".toList.length) [(6, 12), (10, 12)] k →
        "Hello PUBLIC sauce".toList[k]? = "Hello SECRET sauce".toList[k]? := by decide
    rcases Nat.lt_or_ge k 18 with hlt | hge
    · exact hinside k hlt hk
    · have hlen : "Hello PUBLIC sauce".toList.length
        = 18 ∧ "Hello SECRET sauce".toList.length = 18 := by decide
      rw [getElem?_eq_none (hlen.1 ▸ hge), getElem?_eq_none (hlen.2 ▸ hge)]

end MatterCore
