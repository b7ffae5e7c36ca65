import PstDedupe.Foundations.UnionFind

/-!
# Graphs of parent links

Every node has at most one parent.
-/

namespace Foundations

open List Function

variable {K : Type*}

def Linked (parent : K → Option K) (c p : K) : Prop := parent c = some p

def Acyclic (parent : K → Option K) : Prop := ∀ a, ¬ Relation.TransGen (Linked parent) a a

/-- `b` is `a` or above it. -/
def Climbs (parent : K → Option K) (a b : K) : Prop := Relation.ReflTransGen (Linked parent) a b

variable {parent : K → Option K}

theorem acyclic_of_forall_eq_none (h : ∀ a, parent a = none) : Acyclic parent := by
  intro a ha
  obtain ⟨b, hab, _⟩ := Relation.TransGen.head'_iff.mp ha
  rw [Linked, h a] at hab
  cases hab

theorem Acyclic.ne (h : Acyclic parent) {c p : K} (hlink : parent c = some p) : c ≠ p := by
  rintro rfl
  exact h c (.single hlink)

theorem not_climbs_of_no_children {c p : K} (hne : p ≠ c) (h : ∀ x, parent x ≠ some c) :
    ¬ Climbs parent p c := by
  intro hclimb
  rcases Relation.ReflTransGen.cases_tail hclimb with heq | ⟨x, _, hx⟩
  · exact hne heq.symm
  · exact h x hx

variable [DecidableEq K]

theorem Climbs.update {a c : K} {new : Option K} (h : Climbs parent a c) :
    Climbs (Function.update parent c new) a c := by
  induction h using Relation.ReflTransGen.head_induction_on with
  | refl => exact .refl
  | @head a b hab _ ih =>
    by_cases hac : a = c
    · rw [hac]
      exact .refl
    · exact .head (show Function.update parent c new a = some b by rw [update_of_ne hac]; exact hab) ih

theorem climbs_or_of_update {a b c : K} {new : Option K}
    (h : Climbs (Function.update parent c new) a b) : Climbs parent a b ∨ Climbs parent a c := by
  induction h using Relation.ReflTransGen.head_induction_on with
  | refl => exact .inl .refl
  | @head a x hax _ ih =>
    by_cases hac : a = c
    · rw [hac]
      exact .inr .refl
    · have hlink : parent a = some x := by
        rw [← update_of_ne hac new parent]
        exact hax
      rcases ih with hb | hc
      · exact .inl (.head hlink hb)
      · exact .inr (.head hlink hc)

theorem transGen_or_of_update {a b c : K} {new : Option K}
    (h : Relation.TransGen (Linked (Function.update parent c new)) a b) : Relation.TransGen (Linked parent) a b
      ∨ ∃ p, new = some p ∧ Climbs parent a c ∧ Climbs (Function.update parent c new) p b := by
  have hstep : ∀ {x y : K}, Linked (Function.update parent c new) x y → x ≠ c → parent x = some y := by
    intro x y hxy hne
    rw [← update_of_ne hne new parent]
    exact hxy
  have htake : ∀ {y : K}, Linked (Function.update parent c new) c y → new = some y := by
    intro y hy
    rw [← update_self c new parent]
    exact hy
  induction h using Relation.TransGen.head_induction_on with
  | @single a hab =>
    by_cases hac : a = c
    · subst hac
      exact .inr ⟨b, htake hab, .refl, .refl⟩
    · exact .inl (.single (hstep hab hac))
  | @head a x hax hxb ih =>
    by_cases hac : a = c
    · subst hac
      exact .inr ⟨x, htake hax, .refl, hxb.to_reflTransGen⟩
    · rcases ih with hold | ⟨p, hp, hxc, hpb⟩
      · exact .inl (.head (hstep hax hac) hold)
      · exact .inr ⟨p, hp, .head (hstep hax hac) hxc, hpb⟩

theorem acyclic_update_iff (h : Acyclic parent) (c : K) (new : Option K) :
    Acyclic (Function.update parent c new) ↔ ∀ p, new = some p → ¬ Climbs parent p c := by
  constructor
  · rintro hnew p rfl hclimb
    refine hnew c (.head' (b := p) ?_ hclimb.update)
    exact update_self c (some p) parent
  · intro hnew a hcycle
    rcases transGen_or_of_update hcycle with hold | ⟨p, hp, hac, hpa⟩
    · exact h a hold
    · refine hnew p hp ?_
      rcases climbs_or_of_update hpa with hback | hpc
      · exact hback.trans hac
      · exact hpc

end Foundations

/-!
# Forests that track a list of edges

`Joins p n edges` says of parent pointers `p` that every element climbs to a root within `n` steps,
and that two elements share their root exactly when `edges` connect them.
-/

namespace Foundations

open List Function

variable {ι : Type*} {p : ι → ι} {k m n : Nat} {x y z r r' a b : ι} {edges : List (ι × ι)}

abbrev EdgeLinked (edges : List (ι × ι)) : ι → ι → Prop := Relation.EqvGen fun u v => (u, v) ∈ edges

theorem EdgeLinked.of_forall {edges edges' : List (ι × ι)} (h : ∀ u v, (u, v) ∈ edges →
    EdgeLinked edges' u v) (hxy : EdgeLinked edges x y) : EdgeLinked edges' x y :=
  Relation.EqvGen.eqvGen_le h x y hxy

theorem EdgeLinked.mono {edges edges' : List (ι × ι)} (h : ∀ e ∈ edges, e ∈ edges')
    (hxy : EdgeLinked edges x y) :
    EdgeLinked edges' x y :=
  EdgeLinked.of_forall (fun u v huv => .rel u v (h (u, v) huv)) hxy

/-- Every root that was reached is still reached, in no more steps. -/
def Keeps (p p' : ι → ι) : Prop := ∀ k z r, Climb p k z r → ∃ j ≤ k, Climb p' j z r

theorem Keeps.refl (p : ι → ι) : Keeps p p := fun k _ _ h => ⟨k, Nat.le_refl k, h⟩

theorem Keeps.trans {p p' p'' : ι → ι} (h : Keeps p p') (h' : Keeps p' p'') : Keeps p p'' := by
  intro k z r hz
  obtain ⟨j, hj, hc⟩ := h k z r hz
  obtain ⟨i, hi, hc'⟩ := h' j z r hc
  exact ⟨i, Nat.le_trans hi hj, hc'⟩

theorem Climb.compress [DecidableEq ι] (hx : Climb p m x r) : Keeps p (Function.update p x r) := by
  intro k z r' h
  induction h with
  | @root r' h =>
    refine ⟨0, Nat.le_refl 0, .root ?_⟩
    by_cases hrx : r' = x
    · subst hrx
      have hr : r = r' := (hx.unique (.root h)).2
      rw [update_self, hr]
    · rw [update_of_ne hrx, h]
  | @up k z r' hne rest ih =>
    obtain ⟨j, hj, hc⟩ := ih
    by_cases hzx : z = x
    · subst hzx
      have hr : r = r' := (hx.unique (.up hne rest)).2
      subst hr
      -- the root is not the element, which has a parent
      have hrz : r ≠ z := by
        intro heq
        apply hne
        rw [← heq]
        exact rest.isRoot
      have hroot : Climb (Function.update p z r) 0 r r :=
        .root (by rw [update_of_ne hrz, rest.isRoot])
      refine ⟨1, by omega, .up ?_ ?_⟩
      · rw [update_self]
        exact hrz
      · rw [update_self]
        exact hroot
    · refine ⟨j + 1, by omega, .up ?_ ?_⟩
      · rw [update_of_ne hzx]
        exact hne
      · rw [update_of_ne hzx]
        exact hc

structure Joins (p : ι → ι) (n : Nat) (edges : List (ι × ι)) : Prop where
  climbs : ∀ x, ∃ k ≤ n, ∃ r, Climb p k x r
  same : ∀ {j k x y r r'}, Climb p j x r → Climb p k y r' → (r = r' ↔ EdgeLinked edges x y)

namespace Joins

theorem singletons : Joins (id : ι → ι) 0 [] where
  climbs := fun x => ⟨0, Nat.le_refl 0, x, .root rfl⟩
  same := by
    have hid : ∀ {k : Nat} {x r : ι}, Climb id k x r → r = x := by
      intro k x r h
      cases h with
      | root _ => rfl
      | up hne _ => exact absurd rfl hne
    intro j k x y r r' hx hy
    rw [hid hx, hid hy]
    constructor
    · intro heq
      rw [heq]
      exact .refl y
    · exact fun h => eqvGen_value (v := id) (fun u v huv => by cases huv) h

theorem congr {edges' : List (ι × ι)} (h : Joins p n edges)
    (heq : ∀ x y, EdgeLinked edges x y ↔ EdgeLinked edges' x y) :
    Joins p n edges' :=
  ⟨h.climbs, fun hx hy => (h.same hx hy).trans (heq _ _)⟩

theorem skip (h : Joins p n edges) (ha : Climb p k a r) (hb : Climb p m b r) :
    Joins p n (edges ++ [(a, b)]) := by
  have hab : EdgeLinked edges a b := (h.same ha hb).mp rfl
  apply h.congr
  intro x y
  constructor
  · exact EdgeLinked.mono fun e he => mem_append_left _ he
  · apply EdgeLinked.of_forall
    intro u v huv
    rcases List.mem_append.mp huv with huv | huv
    · exact .rel _ _ huv
    · cases List.mem_singleton.mp huv
      exact hab

theorem of_keeps {p' : ι → ι} (h : Joins p n edges) (hkeep : Keeps p p') : Joins p' n edges := by
  have hback : ∀ {j : Nat} {z s : ι}, Climb p' j z s → ∃ j, Climb p j z s := by
    intro j z s hz
    obtain ⟨i, _, t, ht⟩ := h.climbs z
    obtain ⟨i', _, ht'⟩ := hkeep _ _ _ ht
    rw [(hz.unique ht').2]
    exact ⟨i, ht⟩
  constructor
  · intro z
    obtain ⟨i, hi, t, ht⟩ := h.climbs z
    obtain ⟨i', hi', ht'⟩ := hkeep _ _ _ ht
    exact ⟨i', Nat.le_trans hi' hi, t, ht'⟩
  · intro i j u v s t hu hv
    obtain ⟨_, hu'⟩ := hback hu
    obtain ⟨_, hv'⟩ := hback hv
    exact h.same hu' hv'

variable [DecidableEq ι]

theorem link {s : ι} (h : Joins p n edges) (ha : Climb p k a r) (hb : Climb p m b s) (hrs : r ≠ s) :
    Joins (Function.update p s r) (n + 1) (edges ++ [(a, b)]) := by
  have hr := ha.isRoot
  have hs := hb.isRoot
  -- where an element ends up, from where it was
  have hmove : ∀ {j : Nat} {z t : ι}, Climb p j z t →
      ∃ i ≤ j + 1, Climb (Function.update p s r) i z (if t = s then r else t) := by
    intro j z t hz
    rcases hz.link hr hs hrs with ⟨hts, hc⟩ | ⟨hts, hc⟩
    · rw [if_pos hts]
      exact ⟨j + 1, Nat.le_refl _, hc⟩
    · rw [if_neg hts]
      exact ⟨j, Nat.le_succ j, hc⟩
  have hold : ∀ {x y : ι}, EdgeLinked edges x y → EdgeLinked (edges ++ [(a, b)]) x y :=
    EdgeLinked.mono fun e he => mem_append_left _ he
  have hnew : EdgeLinked (edges ++ [(a, b)]) a b := .rel _ _ (mem_append_right _ (mem_singleton_self _))
  constructor
  · intro z
    obtain ⟨i, hi, t, ht⟩ := h.climbs z
    obtain ⟨i', hi', ht'⟩ := hmove ht
    exact ⟨i', by omega, _, ht'⟩
  · intro i j u v tu tv hu hv
    obtain ⟨_, _, su, hsu⟩ := h.climbs u
    obtain ⟨_, _, sv, hsv⟩ := h.climbs v
    obtain ⟨_, _, hu'⟩ := hmove hsu
    obtain ⟨_, _, hv'⟩ := hmove hsv
    rw [(hu.unique hu').2, (hv.unique hv').2]
    constructor
    · intro heq
      by_cases hsu' : su = s <;> by_cases hsv' : sv = s
      · exact hold ((h.same hsu hsv).mp (hsu'.trans hsv'.symm))
      · -- `u` stood under `s`, `v` under `r`
        rw [if_pos hsu', if_neg hsv'] at heq
        have hub : EdgeLinked edges u b := (h.same hsu hb).mp hsu'
        have hav : EdgeLinked edges a v := (h.same ha hsv).mp heq
        exact .trans _ _ _ (hold hub) (.trans _ _ _ (.symm _ _ hnew) (hold hav))
      · rw [if_neg hsu', if_pos hsv'] at heq
        have hua : EdgeLinked edges u a := (h.same hsu ha).mp heq
        have hbv : EdgeLinked edges b v := (h.same hb hsv).mp hsv'.symm
        exact .trans _ _ _ (hold hua) (.trans _ _ _ hnew (hold hbv))
      · rw [if_neg hsu', if_neg hsv'] at heq
        exact hold ((h.same hsu hsv).mp heq)
    · -- every edge keeps the new root
      intro hlinked
      have hend : ∀ {x y : ι}, EdgeLinked (edges ++ [(a, b)]) x y → ∀ {i j : Nat} {s₁ s₂ : ι}, Climb p i x s₁ →
          Climb p j y s₂ → (if s₁ = s then r else s₁) = if s₂ = s then r else s₂ := by
        intro x y hxy
        induction hxy with
        | rel x y hxy =>
          intro i j s₁ s₂ hx hy
          rcases List.mem_append.mp hxy with hxy | hxy
          · rw [(h.same hx hy).mpr (.rel _ _ hxy)]
          · cases List.mem_singleton.mp hxy
            rw [(hx.unique ha).2, (hy.unique hb).2, if_pos rfl, if_neg hrs]
        | refl x =>
          intro i j s₁ s₂ hx hy
          rw [(hx.unique hy).2]
        | symm x y _ ih => exact fun hy hx => (ih hx hy).symm
        | trans x y w _ _ ih₁ ih₂ =>
          intro i j s₁ s₂ hx hw
          obtain ⟨_, _, sy, hsy⟩ := h.climbs y
          exact (ih₁ hx hsy).trans (ih₂ hsy hw)
      exact hend hlinked hsu hsv

end Joins

end Foundations
