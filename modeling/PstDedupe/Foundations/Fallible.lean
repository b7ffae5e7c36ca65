import Mathlib

/-!
# Loops that stop at the first error

A loop `for x in xs { let y = f(x)?; .. }` succeeds iff every step does.
-/

namespace Foundations

open List

variable {ε α β : Type}

theorem bind_eq_ok {x : Except ε α} {f : α → Except ε β} {b : β} :
    (x >>= f) = .ok b ↔ ∃ a, x = .ok a ∧ f a = .ok b := by
  cases x with
  | error e => simp [bind, Except.bind]
  | ok a => simp [bind, Except.bind]

theorem check_eq_ok {c : Prop} [Decidable c] {e : ε} {f : PUnit → Except ε β} {b : β} :
    (if c then throw e >>= f else f ⟨⟩) = .ok b ↔ ¬ c ∧ f ⟨⟩ = .ok b := by
  by_cases hc : c
  · rw [if_pos hc]
    exact ⟨nofun, fun h => absurd hc h.1⟩
  · rw [if_neg hc]
    exact ⟨fun h => ⟨hc, h⟩, fun h => h.2⟩

theorem ite_bind_eq_ok {c : Prop} [Decidable c] {x y : Except ε α} {f : α → Except ε β} {b : β} :
    (if c then x >>= f else y >>= f) = .ok b ↔ ∃ a, (if c then x else y) = .ok a ∧ f a = .ok b := by
  rw [← bind_eq_ok]
  split <;> rfl

theorem mapM_eq_ok_iff {f : α → Except ε β} {xs : List α} {ys : List β} :
    xs.mapM f = .ok ys ↔ Forall₂ (fun x y => f x = .ok y) xs ys := by
  induction xs generalizing ys with
  | nil =>
    rw [mapM_nil, forall₂_nil_left_iff]
    constructor
    · intro h
      exact (Except.ok.inj h).symm
    · rintro rfl
      rfl
  | cons x xs ih =>
    rw [mapM_cons, bind_eq_ok]
    constructor
    · rintro ⟨y, hy, hrest⟩
      obtain ⟨ys', hys', hcons⟩ := bind_eq_ok.mp hrest
      obtain rfl : y :: ys' = ys := Except.ok.inj hcons
      exact .cons hy (ih.mp hys')
    · rintro (_ | ⟨hy, hrest⟩)
      exact ⟨_, hy, bind_eq_ok.mpr ⟨_, ih.mpr hrest, rfl⟩⟩

variable {R : α → β → Prop} {xs : List α} {ys : List β}

theorem exists_left_of_forall₂ (h : Forall₂ R xs ys) {y : β} (hy : y ∈ ys) : ∃ x ∈ xs, R x y := by
  induction h with
  | nil => cases hy
  | @cons x y' _ _ hxy _ ih =>
    rcases List.mem_cons.mp hy with rfl | hy
    · exact ⟨x, mem_cons_self, hxy⟩
    · obtain ⟨x', hx', hr⟩ := ih hy
      exact ⟨x', mem_cons_of_mem _ hx', hr⟩

theorem exists_right_of_forall₂ (h : Forall₂ R xs ys) {x : α} (hx : x ∈ xs) : ∃ y ∈ ys, R x y := by
  obtain ⟨y, hy, hr⟩ := exists_left_of_forall₂ h.flip hx
  exact ⟨y, hy, hr⟩

theorem map_eq_map_of_forall₂ {γ : Type} {f : α → γ} {g : β → γ} (h : Forall₂ R xs ys)
    (hfg : ∀ x y, R x y → g y = f x) : ys.map g = xs.map f := by
  induction h with
  | nil => rfl
  | cons hxy _ ih => rw [map_cons, map_cons, hfg _ _ hxy, ih]

end Foundations

/-!
# Code that may panic

`Code ε α` is a computation with three ends: a value, an error of its own, or a panic.
-/

namespace Foundations

open List

inductive Panic where
  | arithmeticOverflow
  | indexOutOfBounds
  | capacityOverflow
  deriving DecidableEq, Repr

/-- A computation that returns `Result<α, ε>` unless it panics. -/
abbrev Code (ε : Type) := ExceptT ε (Except Panic)

variable {ε α β σ : Type}

def panic (p : Panic) : Code ε α := ExceptT.mk (.error p)

/-- No panic, and `Q` of the value if there is one. -/
def Safe (m : Code ε α) (Q : α → Prop) : Prop :=
  match m.run with
  | .error _ => False
  | .ok (.error _) => True
  | .ok (.ok a) => Q a

/-- The computation ends in a value or in an error of its own. -/
abbrev NoPanic (m : Code ε α) : Prop := Safe m fun _ => True

theorem noPanic_iff {m : Code ε α} : NoPanic m ↔ ∃ r : Except ε α, m.run = .ok r := by
  unfold NoPanic Safe
  split <;> rename_i h <;> simp [h]

@[simp] theorem safe_pure {a : α} {Q : α → Prop} : Safe (pure a : Code ε α) Q ↔ Q a := Iff.rfl

@[simp] theorem safe_throw {e : ε} {Q : α → Prop} : Safe (throw e : Code ε α) Q := trivial

theorem Safe.mono {m : Code ε α} {P Q : α → Prop} (hm : Safe m P) (h : ∀ a, P a → Q a) : Safe m Q := by
  rcases m with p | e | a
  · exact hm
  · trivial
  · exact h a hm

theorem bind_eq_pure {m : Code ε α} {f : α → Code ε β} {b : β} :
    (m >>= f) = pure b ↔ ∃ a, m = pure a ∧ f a = pure b := by
  constructor
  · intro h
    rcases m with p | e | a
    · cases h
    · cases h
    · exact ⟨a, rfl, h⟩
  · rintro ⟨a, rfl, h⟩
    exact h

theorem mapM_eq_pure_iff {f : α → Code ε β} {xs : List α} {ys : List β} :
    xs.mapM f = pure ys ↔ Forall₂ (fun x y => f x = pure y) xs ys := by
  induction xs generalizing ys with
  | nil =>
    rw [mapM_nil, forall₂_nil_left_iff]
    exact ⟨fun h => by cases h; rfl, fun h => by rw [h]⟩
  | cons x xs ih =>
    rw [mapM_cons, bind_eq_pure]
    constructor
    · rintro ⟨y, hy, hrest⟩
      obtain ⟨ys', hys', hcons⟩ := bind_eq_pure.mp hrest
      cases hcons
      exact .cons hy (ih.mp hys')
    · rintro (_ | ⟨hy, hrest⟩)
      exact ⟨_, hy, bind_eq_pure.mpr ⟨_, ih.mpr hrest, rfl⟩⟩

theorem Safe.bind {m : Code ε α} {f : α → Code ε β} {P : α → Prop} {Q : β → Prop}
    (hm : Safe m P) (hf : ∀ a, P a → Safe (f a) Q) : Safe (m >>= f) Q := by
  unfold Safe at hm
  split at hm
  · exact hm.elim
  · rename_i e hrun
    have hbind : (m >>= f).run = .ok (.error e) := by
      rw [ExceptT.run_bind, hrun]
      rfl
    unfold Safe
    rw [hbind]
    trivial
  · rename_i a hrun
    have hbind : (m >>= f).run = (f a).run := by
      rw [ExceptT.run_bind, hrun]
      rfl
    have hfa := hf a hm
    unfold Safe at hfa ⊢
    rwa [hbind]

theorem safe_liftExcept (r : Except ε α) : NoPanic (ExceptT.mk (.ok r) : Code ε α) := by
  cases r with
  | error e => trivial
  | ok a => trivial

theorem safe_foldlM {f : σ → α → Code ε σ} {I : σ → Prop} {xs : List α} {s : σ} (hs : I s)
    (hstep : ∀ t x, x ∈ xs → I t → Safe (f t x) I) : Safe (xs.foldlM f s) I := by
  induction xs generalizing s with
  | nil => simpa using hs
  | cons x xs ih =>
    rw [foldlM_cons]
    refine (hstep s x mem_cons_self hs).bind fun t ht => ?_
    exact ih ht fun t y hy => hstep t y (mem_cons_of_mem _ hy)

end Foundations
