import Mathlib

/-!
# Unions of intervals, and texts with runs left out

Half-open intervals over a linear order stand for the points they cover. `Separated` intervals are
the maximal runs of what they cover.
-/

namespace Foundations

open List

section Covered

variable {α : Type} [LinearOrder α]

def Covered (ranges : List (α × α)) (x : α) : Prop := ∃ r ∈ ranges, r.1 ≤ x ∧ x < r.2

instance (ranges : List (α × α)) (x : α) : Decidable (Covered ranges x) :=
  inferInstanceAs (Decidable (∃ r ∈ ranges, r.1 ≤ x ∧ x < r.2))

theorem not_covered_nil {x : α} : ¬ Covered [] x := by
  rintro ⟨r, hr, _⟩
  cases hr

theorem covered_cons {r : α × α} {ranges : List (α × α)} {x : α} :
    Covered (r :: ranges) x ↔ (r.1 ≤ x ∧ x < r.2) ∨ Covered ranges x := by
  unfold Covered
  rw [exists_mem_cons_iff]

theorem covered_congr {ranges ranges' : List (α × α)} (h : ∀ r, r ∈ ranges ↔ r ∈ ranges') {x : α} :
    Covered ranges x ↔ Covered ranges' x := by
  unfold Covered
  simp only [h]

theorem covered_merge {a b c d : α} (hle : a ≤ c) (htouch : c ≤ b) {x : α} :
    (a ≤ x ∧ x < max b d) ↔ (a ≤ x ∧ x < b) ∨ (c ≤ x ∧ x < d) := by
  rw [lt_max_iff]
  constructor
  · rintro ⟨ha, hb | hd⟩
    · exact .inl ⟨ha, hb⟩
    · rcases lt_or_ge x b with hb | hb
      · exact .inl ⟨ha, hb⟩
      · exact .inr ⟨htouch.trans hb, hd⟩
  · rintro (⟨ha, hb⟩ | ⟨hc, hd⟩)
    · exact ⟨ha, .inl hb⟩
    · exact ⟨hle.trans hc, .inr hd⟩

def Separated (ranges : List (α × α)) : Prop :=
  (∀ r ∈ ranges, r.1 < r.2) ∧ ranges.Pairwise fun r r' => r.2 < r'.1

theorem separated_nil : Separated ([] : List (α × α)) := ⟨by simp, .nil⟩

theorem separated_cons {r : α × α} {ranges : List (α × α)} :
    Separated (r :: ranges) ↔ r.1 < r.2 ∧ (∀ r' ∈ ranges, r.2 < r'.1) ∧ Separated ranges := by
  unfold Separated
  rw [forall_mem_cons, pairwise_cons]
  tauto

theorem Separated.not_covered {r : α × α} {ranges : List (α × α)} (h : Separated (r :: ranges))
    {x : α} (hx : x ≤ r.2) : ¬ Covered ranges x := by
  rintro ⟨r', hr', hstart, _⟩
  exact absurd (hx.trans_lt ((separated_cons.mp h).2.1 r' hr')) (not_lt.mpr hstart)

end Covered

section MaskRuns

variable {β : Type} {token : List β} {masked masked' : Nat → Prop} [DecidablePred masked]
  [DecidablePred masked']

/-- The text from a position on: what is masked goes, and a token stands where a run of it
begins. -/
def maskRuns (token : List β) (masked : Nat → Prop) [DecidablePred masked] : Nat → Bool → List β → List β
  | _, _, [] => []
  | i, inRun, c :: cs =>
    if masked i then (if inRun then [] else token) ++ maskRuns token masked (i + 1) true cs
    else c :: maskRuns token masked (i + 1) false cs

example : maskRuns [0] (fun i => i = 1 ∨ i = 2) 0 false [5, 6, 7, 8] = [5, 0, 8] := by
  simp [maskRuns]

theorem forall_lt_succ_add (p : Nat → Prop) {i n : Nat} :
    (∀ k < n + 1, p (i + k)) ↔ p i ∧ ∀ k < n, p (i + 1 + k) := by
  have hshift : ∀ k, i + 1 + k = i + (k + 1) := fun k => by omega
  simp only [hshift]
  constructor
  · exact fun h => ⟨h 0 (Nat.succ_pos n), fun k hk => h (k + 1) (Nat.succ_lt_succ hk)⟩
  · rintro ⟨hfirst, hrest⟩ k hk
    cases k with
    | zero => exact hfirst
    | succ k => exact hrest k (Nat.lt_of_succ_lt_succ hk)

theorem maskRuns_congr {i : Nat} {inRun : Bool} {cs : List β}
    (h : ∀ k < cs.length, masked (i + k) ↔ masked' (i + k)) :
    maskRuns token masked i inRun cs = maskRuns token masked' i inRun cs := by
  induction cs generalizing i inRun with
  | nil => rfl
  | cons c cs ih =>
    obtain ⟨hfirst, hrest⟩ := (forall_lt_succ_add fun j => masked j ↔ masked' j).mp h
    rw [maskRuns, maskRuns, ih hrest, ih hrest]
    simp only [hfirst]

theorem maskRuns_congr_text {i : Nat} {inRun : Bool} {cs ds : List β} (hlen : cs.length = ds.length)
    (h : ∀ k < cs.length, ¬ masked (i + k) → cs[k]? = ds[k]?) :
    maskRuns token masked i inRun cs = maskRuns token masked i inRun ds := by
  induction cs generalizing ds i inRun with
  | nil =>
    rw [List.length_eq_zero_iff.mp hlen.symm]
  | cons c cs ih =>
    cases ds with
    | nil => cases hlen
    | cons d ds =>
      have hrest : ∀ run, maskRuns token masked (i + 1) run cs = maskRuns token masked (i + 1) run ds := by
        intro run
        refine ih (Nat.succ.inj hlen) fun k hk hmasked => ?_
        rw [Nat.add_assoc, Nat.add_comm 1 k] at hmasked
        exact h (k + 1) (Nat.succ_lt_succ hk) hmasked
      rw [maskRuns, maskRuns, hrest, hrest]
      by_cases hm : masked i
      · rw [if_pos hm, if_pos hm]
      · have hcd : c = d := Option.some.inj (h 0 (Nat.succ_pos _) hm)
        rw [if_neg hm, if_neg hm, hcd]

theorem maskRuns_append_of_not {i : Nat} {xs : List β} (h : ∀ k < xs.length, ¬ masked (i + k)) (ys : List β) :
    maskRuns token masked i false (xs ++ ys) = xs ++ maskRuns token masked (i + xs.length) false ys := by
  induction xs generalizing i with
  | nil => rfl
  | cons x xs ih =>
    obtain ⟨hfirst, hrest⟩ := (forall_lt_succ_add fun j => ¬ masked j).mp h
    rw [cons_append, maskRuns, if_neg hfirst, ih hrest, length_cons, Nat.add_assoc,
      Nat.add_comm 1 xs.length]
    rfl

theorem maskRuns_append_of_run {i : Nat} {xs : List β} (h : ∀ k < xs.length, masked (i + k)) (ys : List β) :
    maskRuns token masked i true (xs ++ ys) = maskRuns token masked (i + xs.length) true ys := by
  induction xs generalizing i with
  | nil => rfl
  | cons x xs ih =>
    obtain ⟨hfirst, hrest⟩ := (forall_lt_succ_add masked).mp h
    rw [cons_append, maskRuns, if_pos hfirst, if_pos rfl, nil_append, ih hrest,
      length_cons, Nat.add_assoc, Nat.add_comm 1 xs.length]

theorem maskRuns_append_of_masked {i : Nat} {xs : List β} (hne : xs ≠ [])
    (h : ∀ k < xs.length, masked (i + k)) (ys : List β) :
    maskRuns token masked i false (xs ++ ys) = token ++ maskRuns token masked (i + xs.length) true ys := by
  cases xs with
  | nil => exact absurd rfl hne
  | cons x xs =>
    obtain ⟨hfirst, hrest⟩ := (forall_lt_succ_add masked).mp h
    rw [cons_append, maskRuns, if_pos hfirst, maskRuns_append_of_run hrest, length_cons,
      Nat.add_assoc, Nat.add_comm 1 xs.length]
    rfl

theorem maskRuns_true {i : Nat} {cs : List β} (h : ¬ masked i) :
    maskRuns token masked i true cs = maskRuns token masked i false cs := by
  cases cs with
  | nil => rfl
  | cons c cs => rw [maskRuns, maskRuns, if_neg h, if_neg h]

def maskIntervals (token cs : List β) : Nat → List (Nat × Nat) → List β
  | i, [] => cs.drop i
  | i, r :: rest => (cs.drop i).take (r.1 - i) ++ token ++ maskIntervals token cs r.2 rest

theorem maskRuns_of_separated {cs : List β} {ranges : List (Nat × Nat)} (hsep : Separated ranges)
    (hend : ∀ r ∈ ranges, r.2 ≤ cs.length) {i : Nat} (hi : ∀ r ∈ ranges, i ≤ r.1) :
    maskRuns token (Covered ranges) i false (cs.drop i) = maskIntervals token cs i ranges := by
  induction ranges generalizing i with
  | nil =>
    have hnone : ∀ k < (cs.drop i).length, ¬ Covered ([] : List (Nat × Nat)) (i + k) :=
      fun _ _ => not_covered_nil
    have hall : maskRuns token (Covered ([] : List (Nat × Nat))) i false (cs.drop i ++ []) = _ :=
      maskRuns_append_of_not hnone []
    rw [append_nil, maskRuns, append_nil] at hall
    exact hall
  | cons r rest ih =>
    obtain ⟨hlt, hrest, hsep'⟩ := separated_cons.mp hsep
    have hir : i ≤ r.1 := hi r mem_cons_self
    have hr : r.2 ≤ cs.length := hend r mem_cons_self
    -- before the run, the run, and behind it
    have hsplit : cs.drop i = (cs.drop i).take (r.1 - i) ++
        ((cs.drop r.1).take (r.2 - r.1) ++ cs.drop r.2) := by
      have hrun : cs.drop r.1 = (cs.drop r.1).take (r.2 - r.1) ++ cs.drop r.2 := by
        have hdrop : cs.drop r.2 = (cs.drop r.1).drop (r.2 - r.1) := by
          rw [drop_drop]
          congr 1
          omega
        rw [hdrop, take_append_drop]
      have hdrop : cs.drop r.1 = (cs.drop i).drop (r.1 - i) := by
        rw [drop_drop]
        congr 1
        omega
      rw [← hrun, hdrop, take_append_drop]
    have hlenBefore : ((cs.drop i).take (r.1 - i)).length = r.1 - i := by
      rw [length_take, length_drop]
      omega
    have hlenRun : ((cs.drop r.1).take (r.2 - r.1)).length = r.2 - r.1 := by
      rw [length_take, length_drop]
      omega
    have hbefore : ∀ k < ((cs.drop i).take (r.1 - i)).length, ¬ Covered (r :: rest) (i + k) := by
      intro k hk hcov
      rw [hlenBefore] at hk
      rcases covered_cons.mp hcov with hcov | hcov
      · omega
      · exact hsep.not_covered (by omega) hcov
    have hrun : ∀ k < ((cs.drop r.1).take (r.2 - r.1)).length,
        Covered (r :: rest) (i + ((cs.drop i).take (r.1 - i)).length + k) := by
      intro k hk
      rw [hlenRun] at hk
      rw [hlenBefore]
      exact covered_cons.mpr (.inl (by omega))
    have hne : (cs.drop r.1).take (r.2 - r.1) ≠ [] := by
      rw [← length_pos_iff_ne_nil, hlenRun]
      omega
    have hend' : ¬ Covered (r :: rest) r.2 := by
      intro hcov
      rcases covered_cons.mp hcov with hcov | hcov
      · omega
      · exact hsep.not_covered (Nat.le_refl _) hcov
    have hbehind : ∀ k < (cs.drop r.2).length, (Covered (r :: rest) (r.2 + k) ↔ Covered rest (r.2 + k)) := by
      intro k _
      rw [covered_cons]
      exact or_iff_right (by omega)
    have hpos : i + ((cs.drop i).take (r.1 - i)).length + ((cs.drop r.1).take (r.2 - r.1)).length = r.2 := by
      rw [hlenBefore, hlenRun]
      omega
    rw [hsplit, maskRuns_append_of_not hbefore, maskRuns_append_of_masked hne hrun, hpos, maskRuns_true hend',
      maskRuns_congr hbehind, ih hsep' (fun q hq => hend q (mem_cons_of_mem r hq))
        (fun q hq => (hrest q hq).le), maskIntervals, append_assoc]

end MaskRuns

end Foundations
