import Mathlib

/-!
# Sets whose new elements displace others

`put` adds the element of `a` and takes out what `a` clears.
-/

namespace Foundations

open List

section Displacement

variable {A C : Type*} {key : A → C} {clears : A → C → Prop}

def put (key : A → C) (clears : A → C → Prop) (held : Set C) (a : A) : Set C :=
  insert (key a) {x | x ∈ held ∧ ¬ clears a x}

theorem mem_put {held : Set C} {a : A} {x : C} :
    x ∈ put key clears held a ↔ x = key a ∨ x ∈ held ∧ ¬ clears a x :=
  Iff.rfl

theorem mem_foldl_put {adds : List A} {held : Set C} {x : C} : x ∈ adds.foldl
    (put key clears) held ↔ (x ∈ held ∧ ∀ a ∈ adds, ¬ clears a x)
      ∨ ∃ before a after, adds = before ++ a :: after ∧ key a = x ∧ ∀ b ∈ after, ¬ clears b x := by
  induction adds using reverseRecOn with
  | nil => simp
  | append_singleton adds last ih =>
    rw [foldl_append, foldl_cons, foldl_nil, mem_put, ih]
    constructor
    · rintro (rfl | ⟨hstay | ⟨before, a, after, rfl, hkey, hafter⟩, hlast⟩)
      · exact .inr ⟨adds, last, [], rfl, rfl, nofun⟩
      · refine .inl ⟨hstay.1, fun a ha => ?_⟩
        rcases List.mem_append.mp ha with ha | ha
        · exact hstay.2 a ha
        · rw [List.mem_singleton.mp ha]
          exact hlast
      · refine .inr ⟨before, a, after ++ [last], by simp, hkey, fun b hb => ?_⟩
        rcases List.mem_append.mp hb with hb | hb
        · exact hafter b hb
        · rw [List.mem_singleton.mp hb]
          exact hlast
    · rintro (⟨hheld, hnone⟩ | ⟨before, a, after, heq, hkey, hafter⟩)
      · exact .inr ⟨.inl ⟨hheld, fun a ha => hnone a (mem_append_left _ ha)⟩,
          hnone last (mem_append_right _ (mem_singleton_self last))⟩
      · rcases eq_nil_or_concat after with rfl | ⟨after, b, rfl⟩
        · have hlast := append_inj_right' heq rfl
          rw [List.singleton_inj.mp hlast]
          exact .inl hkey.symm
        · have hsplit : adds ++ [last] = (before ++ a :: after) ++ [b] := by
            rw [heq]
            simp
          obtain ⟨rfl, hb⟩ := append_inj' hsplit rfl
          rw [List.singleton_inj.mp hb]
          refine .inr ⟨.inr ⟨before, a, after, rfl, hkey, fun c hc => hafter c ?_⟩, hafter b ?_⟩
          · rw [concat_eq_append]
            exact mem_append_left _ hc
          · rw [concat_eq_append]
            exact mem_append_right _ (mem_singleton_self b)

theorem mem_foldl_put_sorted {le : A → A → Prop} {adds : List A} (hsorted : adds.Pairwise le)
    (hanti : ∀ a b, le a b → le b a → key a = key b)
    (hplace : ∀ a ∈ adds, ∀ b ∈ adds, key a = key b → a = b)
    (hself : ∀ a, ¬ clears a (key a)) {held : Set C} {x : C} : x ∈ adds.foldl (put key clears) held ↔
      (x ∈ held ∧ ∀ a ∈ adds, ¬ clears a x) ∨ ∃ a ∈ adds, key a = x ∧ ∀ b ∈ adds, clears b x → le b a := by
  rw [mem_foldl_put]
  refine or_congr Iff.rfl ⟨?_, ?_⟩
  · rintro ⟨before, a, after, rfl, rfl, hafter⟩
    refine ⟨a, mem_append_right _ mem_cons_self, rfl, fun b hb hclears => ?_⟩
    rcases List.mem_append.mp hb with hb | hb
    · exact (List.pairwise_append.mp hsorted).2.2 b hb a mem_cons_self
    · rcases List.mem_cons.mp hb with rfl | hb
      · exact absurd hclears (hself b)
      · exact absurd hclears (hafter b hb)
  · rintro ⟨a, ha, rfl, hbefore⟩
    obtain ⟨before, after, rfl⟩ := append_of_mem ha
    refine ⟨before, a, after, rfl, rfl, fun b hb hclears => ?_⟩
    have hb' : b ∈ before ++ a :: after := mem_append_right _ (mem_cons_of_mem a hb)
    have hle : le a b := (List.pairwise_cons.mp (List.pairwise_append.mp hsorted).2.1).1 b hb
    have heq := hplace a ha b hb' (hanti a b hle (hbefore b hb' hclears))
    rw [← heq] at hclears
    exact hself a hclears

end Displacement

end Foundations
