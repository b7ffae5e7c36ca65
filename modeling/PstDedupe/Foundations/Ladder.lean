import Mathlib

/-!
# Ladders of comparisons

A ladder compares two keys rung by rung: the first rung on which they differ decides. General facts
that name nothing of the repository.
-/

namespace Foundations

open List

variable {α : Type*}

structure Rung (α : Type*) where
  name : String
  cmp : α → α → Ordering

def ladderCmp : List (Rung α) → α → α → Ordering
  | [] => fun _ _ => .eq
  | r :: rs => compareLex r.cmp (ladderCmp rs)

def decidingRung (rungs : List (Rung α)) (a b : α) : Option String :=
  (rungs.find? fun r => r.cmp a b != .eq).map Rung.name

def betterRung (rungs : List (Rung α)) (a b : α) : Option String :=
  (rungs.find? fun r => r.cmp a b == .lt).map Rung.name

variable {rungs : List (Rung α)} {a b : α}

theorem transCmp_ladderCmp (h : ∀ r ∈ rungs, Std.TransCmp r.cmp) : Std.TransCmp (ladderCmp rungs) := by
  induction rungs with
  | nil =>
    refine @Std.TransCmp.mk _ _ ⟨rfl⟩ ?_
    intro a b c _ _
    rfl
  | cons r rs ih =>
    have hr := h r (mem_cons_self ..)
    have hrs := ih fun r' hr' => h r' (mem_cons_of_mem _ hr')
    exact inferInstanceAs (Std.TransCmp (compareLex r.cmp (ladderCmp rs)))

theorem betterRung_mem {name : String} (h : betterRung rungs a b = some name) :
    name ∈ rungs.map Rung.name := by
  unfold betterRung at h
  obtain ⟨r, hr, rfl⟩ := Option.map_eq_some_iff.mp h
  exact mem_map_of_mem (mem_of_find?_eq_some hr)

theorem decidingRung_of_betterRung {name : String} (h : betterRung rungs a b = some name) :
    ∃ name', decidingRung rungs a b = some name' := by
  unfold betterRung at h
  obtain ⟨r, hr, _⟩ := Option.map_eq_some_iff.mp h
  have hlt : r.cmp a b = .lt := by simpa using find?_some hr
  unfold decidingRung
  cases hfind : rungs.find? fun r => r.cmp a b != .eq with
  | some r' => exact ⟨r'.name, rfl⟩
  | none =>
    have hnot := List.find?_eq_none.mp hfind r (mem_of_find?_eq_some hr)
    simp [hlt] at hnot

/-- **The deciding rung is honest iff the key is less.** Induction on the ladder: a tie passes both
searches on, a better rung ends both, and after a worse one the names no longer agree. -/
theorem ladderCmp_eq_lt_iff (hnames : (rungs.map Rung.name).Nodup) : ladderCmp rungs a b = .lt ↔
      ∃ name, decidingRung rungs a b = some name ∧ betterRung rungs a b = some name := by
  induction rungs with
  | nil => simp [ladderCmp, decidingRung]
  | cons r rs ih =>
    rw [map_cons, nodup_cons] at hnames
    have ih := ih hnames.2
    cases hcmp : r.cmp a b with
    | lt => simp [ladderCmp, compareLex, decidingRung, betterRung, hcmp]
    | eq => simpa [ladderCmp, compareLex, decidingRung, betterRung, hcmp] using ih
    | gt =>
      have hdecides : decidingRung (r :: rs) a b = some r.name := by
        simp [decidingRung, hcmp]
      have hlater : betterRung (r :: rs) a b = betterRung rs a b := by
        simp [betterRung, hcmp]
      rw [hdecides, hlater]
      constructor
      · intro h
        simp [ladderCmp, compareLex, hcmp] at h
      · rintro ⟨name, hname, hbetter⟩
        obtain rfl := Option.some.inj hname
        exact absurd (betterRung_mem hbetter) hnames.1

/-- `for k in keys { best = match best { None => k, Some(prev) => if k < prev { k } else { prev } }
}`. -/
def bestBy (cmp : α → α → Ordering) (keys : List α) : Option α :=
  keys.foldl (fun best k => some (match best with
    | none => k
    | some prev => if cmp k prev = .lt then k else prev)) none

theorem bestBy_concat (cmp : α → α → Ordering) (keys : List α) (k : α) :
    bestBy cmp (keys ++ [k]) = some (match bestBy cmp keys with
      | none => k
      | some prev => if cmp k prev = .lt then k else prev) := by
  simp [bestBy]

/-- The running minimum is a key that no key beats. Induction on the keys seen. -/
theorem bestBy_spec {cmp : α → α → Ordering} [Std.TransCmp cmp] {keys : List α} (hne : keys ≠ []) :
    ∃ best ∈ keys, bestBy cmp keys = some best ∧ ∀ k ∈ keys, (cmp best k).isLE := by
  induction keys using reverseRecOn with
  | nil => exact absurd rfl hne
  | append_singleton keys k ih =>
    rw [bestBy_concat]
    by_cases hnil : keys = []
    · subst hnil
      exact ⟨k, by simp, rfl, by simp [Std.ReflCmp.compare_self]⟩
    · obtain ⟨best, hmem, hbest, hle⟩ := ih hnil
      rw [hbest]
      by_cases hlt : cmp k best = .lt
      · refine ⟨k, by simp, by simp [hlt], ?_⟩
        intro j hj
        rcases List.mem_append.mp hj with hj | hj
        · exact Std.TransCmp.isLE_trans (by rw [hlt]; rfl) (hle j hj)
        · have hself : cmp k k = .eq := Std.ReflCmp.compare_self
          rw [List.mem_singleton.mp hj, hself]
          rfl
      · refine ⟨best, mem_append_left _ hmem, by simp [hlt], ?_⟩
        intro j hj
        rcases List.mem_append.mp hj with hj | hj
        · exact hle j hj
        · have hswap : cmp best k = (cmp k best).swap := Std.OrientedCmp.eq_swap
          rw [List.mem_singleton.mp hj, hswap]
          cases hcmp : cmp k best with
          | lt => exact absurd hcmp hlt
          | eq => rfl
          | gt => rfl

theorem mem_of_bestBy {cmp : α → α → Ordering} {keys : List α} {best : α}
    (h : bestBy cmp keys = some best) : best ∈ keys := by
  induction keys using reverseRecOn generalizing best with
  | nil => cases h
  | append_singleton keys k ih =>
    rw [bestBy_concat, Option.some.injEq] at h
    subst h
    cases hbest : bestBy cmp keys with
    | none => simp
    | some prev =>
      have hprev := ih hbest
      by_cases hlt : cmp k prev = .lt <;> simp [hlt, hprev]

theorem bestBy_congr {cmp cmp' : α → α → Ordering} {keys : List α}
    (h : ∀ a ∈ keys, ∀ b ∈ keys, cmp a b = cmp' a b) : bestBy cmp keys = bestBy cmp' keys := by
  induction keys using reverseRecOn with
  | nil => rfl
  | append_singleton keys k ih =>
    have hkeys : ∀ a ∈ keys, ∀ b ∈ keys, cmp a b = cmp' a b := fun a ha b hb =>
      h a (mem_append_left _ ha) b (mem_append_left _ hb)
    rw [bestBy_concat, bestBy_concat, ih hkeys]
    cases hbest : bestBy cmp' keys with
    | none => rfl
    | some prev =>
      simp only [h k (by simp) prev (mem_append_left _ (mem_of_bestBy hbest))]

end Foundations
