import Mathlib

/-!
# Gathering a list by a key

`gather key arrange xs remaining` walks `xs`: at the first element of a class that still has members
in `remaining` it takes the whole class out of `remaining` and appends it, arranged.
-/

namespace Foundations

open List

variable {α K : Type*}

/-- `a` comes before `b`: in one class by `R`, else by the places of their classes. -/
def Gathered (key : α → K) (R : α → α → Prop) (place : K → Nat) (a b : α) : Prop :=
  (key a = key b ∧ R a b) ∨ place (key a) < place (key b)

theorem contiguous_of_pairwise {key : α → K} {R : α → α → Prop} {place : K → Nat} {l : List α}
    (h : l.Pairwise (Gathered key R place)) {a b c : α} (habc : [a, b, c].Sublist l) (hac : key a = key c) :
    key b = key a := by
  have hpair := h.sublist habc
  simp only [pairwise_cons, mem_cons, not_mem_nil, or_false, forall_eq_or_imp, forall_eq] at hpair
  rcases hpair.1.1 with hab | hab
  · exact hab.1.symm
  · rcases hpair.2.1 with hbc | hbc
    · exact hbc.1.trans hac.symm
    · rw [← hac] at hbc
      omega

section

variable [DecidableEq K] {key : α → K}

theorem mem_tail_of_filter (key : α → K) {x : α} {xs remaining : List α} (h : ∀ y ∈ remaining, y ∈ x :: xs) :
    ∀ y ∈ remaining.filter (fun y => key y ≠ key x), y ∈ xs := by
  intro y hy
  simp only [mem_filter, decide_eq_true_eq] at hy
  rcases List.mem_cons.mp (h y hy.1) with heq | hmem
  · exact absurd (congrArg key heq) hy.2
  · exact hmem

theorem mem_tail_of_notMem {x : α} {xs remaining : List α} (h : ∀ y ∈ remaining, y ∈ x :: xs)
    (hx : x ∉ remaining) :
    ∀ y ∈ remaining, y ∈ xs := by
  intro y hy
  rcases List.mem_cons.mp (h y hy) with heq | hmem
  · exact absurd (heq ▸ hy) hx
  · exact hmem

end

variable [DecidableEq α] [DecidableEq K] (key : α → K) (arrange : List α → List α)

def gather : List α → List α → List α
  | [], _ => []
  | x :: xs, remaining =>
    if x ∈ remaining then
      arrange (remaining.filter fun y => key y = key x) ++ gather xs (remaining.filter fun y => key y ≠ key x)
    else gather xs remaining

def placeOf (members xs : List α) (k : K) : Nat := xs.findIdx fun x => x ∈ members ∧ key x = k

variable {key arrange}

theorem gather_cons_of_mem {x : α} {xs remaining : List α} (h : x ∈ remaining) :
    gather key arrange (x :: xs) remaining = arrange (remaining.filter fun y => key y = key x) ++
        gather key arrange xs (remaining.filter fun y => key y ≠ key x) :=
  if_pos h

theorem gather_cons_of_notMem {x : α} {xs remaining : List α} (h : x ∉ remaining) :
    gather key arrange (x :: xs) remaining = gather key arrange xs remaining :=
  if_neg h

section

variable (harrange : ∀ l, (arrange l).Perm l)

include harrange

theorem gather_perm (key : α → K) {xs remaining : List α} (h : ∀ y ∈ remaining, y ∈ xs) :
    (gather key arrange xs remaining).Perm remaining := by
  induction xs generalizing remaining with
  | nil =>
    have hnil : remaining = [] := List.eq_nil_iff_forall_not_mem.mpr fun y hy => by simpa using h y hy
    rw [hnil]
    exact .nil
  | cons x xs ih =>
    by_cases hx : x ∈ remaining
    · rw [gather_cons_of_mem hx]
      have hrest := ih (mem_tail_of_filter key h)
      have hsplit := filter_append_perm (fun y => decide (key y = key x)) remaining
      have hneg : (remaining.filter fun y => !decide (key y = key x))
          = remaining.filter fun y => key y ≠ key x := by
        simp
      rw [hneg] at hsplit
      exact ((harrange _).append hrest).trans hsplit
    · rw [gather_cons_of_notMem hx]
      exact ih (mem_tail_of_notMem h hx)

end

theorem placeOf_cons_of_ne {members xs : List α} {x : α} {k : K} (h : ¬ (x ∈ members ∧ key x = k)) :
    placeOf key members (x :: xs) k = placeOf key members xs k + 1 := by
  unfold placeOf
  rw [findIdx_cons]
  simp [h]

theorem placeOf_cons_self {members xs : List α} {x : α} (h : x ∈ members) :
    placeOf key members (x :: xs) (key x) = 0 := by
  unfold placeOf
  rw [findIdx_cons]
  simp [h]

theorem placeOf_filter {members xs : List α} {k k' : K} (h : k' ≠ k) :
    placeOf key (members.filter fun y => key y ≠ k) xs k' = placeOf key members xs k' := by
  unfold placeOf
  congr 1
  funext x
  simp only [mem_filter, decide_eq_true_eq, decide_eq_decide]
  constructor
  · intro hx
    exact ⟨hx.1.1, hx.2⟩
  · intro hx
    exact ⟨⟨hx.1, fun heq => h (hx.2 ▸ heq)⟩, hx.2⟩

theorem pairwise_gather (key : α → K) {R : α → α → Prop} (harrange : ∀ l, (arrange l).Perm l)
    (hsorted : ∀ l, l.Nodup → (arrange l).Pairwise R) {xs remaining : List α}
    (h : ∀ y ∈ remaining, y ∈ xs) (hnodup : remaining.Nodup) :
    (gather key arrange xs remaining).Pairwise (Gathered key R (placeOf key remaining xs)) := by
  induction xs generalizing remaining with
  | nil => exact List.Pairwise.nil
  | cons x xs ih =>
    by_cases hx : x ∈ remaining
    · rw [gather_cons_of_mem hx, pairwise_append]
      have htail := mem_tail_of_filter key h
      have hmem : ∀ {y}, y ∈ gather key arrange xs (remaining.filter fun y => key y ≠ key x) →
          key y ≠ key x := by
        intro y hy
        have hy' := (gather_perm harrange key htail).mem_iff.mp hy
        simpa using (List.mem_filter.mp hy').2
      have hclass : ∀ {y}, y ∈ arrange (remaining.filter fun y => key y = key x) → key y = key x := by
        intro y hy
        simpa using (List.mem_filter.mp ((harrange _).mem_iff.mp hy)).2
      refine ⟨?_, ?_, ?_⟩
      · have hR := hsorted _ (hnodup.filter fun y => decide (key y = key x))
        refine hR.imp_of_mem fun ha hb hab => Or.inl ⟨?_, hab⟩
        rw [hclass ha, hclass hb]
      · refine (ih htail (hnodup.filter _)).imp_of_mem fun ha hb hab => ?_
        -- behind `x` every place has moved by one
        have hplace : ∀ {y}, key y ≠ key x → placeOf key remaining (x :: xs) (key y) =
            placeOf key (remaining.filter fun y => key y ≠ key x) xs (key y) + 1 := by
          intro y hy
          rw [placeOf_cons_of_ne (fun hxy => hy hxy.2.symm), placeOf_filter hy]
        rcases hab with hsame | hlt
        · exact Or.inl hsame
        · refine Or.inr ?_
          rw [hplace (hmem ha), hplace (hmem hb)]
          omega
      · intro a ha b hb
        refine Or.inr ?_
        rw [hclass ha, placeOf_cons_self hx, placeOf_cons_of_ne (fun hxy => hmem hb hxy.2.symm)]
        omega
    · rw [gather_cons_of_notMem hx]
      refine (ih (mem_tail_of_notMem h hx) hnodup).imp fun {a b} hab => ?_
      have hplace : ∀ k, placeOf key remaining (x :: xs) k = placeOf key remaining xs k + 1 :=
        fun k => placeOf_cons_of_ne fun hxk => hx hxk.1
      rcases hab with hsame | hlt
      · exact Or.inl hsame
      · refine Or.inr ?_
        rw [hplace, hplace]
        omega

end Foundations
