import Mathlib

/-!
# Properties of runs under a condition on their steps

A run is a list of actions that a step function takes one after the other.
-/

namespace Foundations

variable {S A : Type*} {step : S → A → S}

/-- In every state of a run. -/
def Along (step : S → A → S) (P : S → Prop) : S → List A → Prop
  | s, [] => P s
  | s, a :: as => P s ∧ Along step P (step s a) as

/-- At every step of a run, of the state before it. -/
def Guarded (step : S → A → S) (C : S → A → Prop) : S → List A → Prop
  | _, [] => True
  | s, a :: as => C s a ∧ Guarded step C (step s a) as

instance {C : S → A → Prop} [∀ s a, Decidable (C s a)] : ∀ (s : S) (as : List A),
    Decidable (Guarded step C s as)
  | _, [] => isTrue trivial
  | s, a :: as =>
    have : Decidable (Guarded step C (step s a) as) := instDecidableGuarded (step s a) as
    inferInstanceAs (Decidable (C s a ∧ Guarded step C (step s a) as))

theorem Along.head {P : S → Prop} {s : S} {as : List A} (h : Along step P s as) : P s := by
  cases as with
  | nil => exact h
  | cons a as => exact h.1

theorem Along.mono {P Q : S → Prop} (hPQ : ∀ s, P s → Q s) {s : S} {as : List A}
    (h : Along step P s as) : Along step Q s as := by
  induction as generalizing s with
  | nil => exact hPQ s h
  | cons a as ih => exact ⟨hPQ s h.1, ih h.2⟩

theorem Along.last {P : S → Prop} {s : S} {as : List A} (h : Along step P s as) : P (as.foldl step s) := by
  induction as generalizing s with
  | nil => exact h
  | cons a as ih => exact ih h.2

theorem Along.of_guarded {I : S → Prop} {C : S → A → Prop} (hstep : ∀ s a, I s → C s a → I (step s a))
    {s : S} {as : List A} (hs : I s) (h : Guarded step C s as) : Along step I s as := by
  induction as generalizing s with
  | nil => exact hs
  | cons a as ih => exact ⟨hs, ih (hstep s a hs h.1) h.2⟩

theorem Along.of_step {I : S → Prop} (hstep : ∀ s a, I s → I (step s a)) {s : S} (hs : I s)
    (as : List A) : Along step I s as := by
  induction as generalizing s with
  | nil => exact hs
  | cons a as ih => exact ⟨hs, ih (hstep s a hs)⟩

theorem Guarded.of_along {I : S → Prop} {C : S → A → Prop} (hIC : ∀ s a, I s → C s a) {s : S}
    {as : List A} (h : Along step I s as) : Guarded step C s as := by
  induction as generalizing s with
  | nil => exact trivial
  | cons a as ih => exact ⟨hIC s a h.1, ih h.2⟩

theorem along_iff_guarded {J P : S → Prop} {C : S → A → Prop} (hkeep : ∀ s a, J s → J (step s a))
    (hstep : ∀ s a, J s → P s → (P (step s a) ↔ C s a)) {s : S} (hs : J s) (hP : P s) (as : List A) :
    Along step P s as ↔ Guarded step C s as := by
  induction as generalizing s with
  | nil => exact ⟨fun _ => trivial, fun _ => hP⟩
  | cons a as ih =>
    constructor
    · intro h
      have hnext := h.2.head
      exact ⟨(hstep s a hs hP).mp hnext, (ih (hkeep s a hs) hnext).mp h.2⟩
    · intro h
      have hnext := (hstep s a hs hP).mpr h.1
      exact ⟨hP, (ih (hkeep s a hs) hnext).mpr h.2⟩

end Foundations

/-!
# Programs over a state

`wp m Q s` says that `m`, started in `s`, ends with a value and a state in `Q`.
-/

namespace Foundations

variable {σ α β : Type}

/-- What holds of the value and the state that a computation leaves. -/
def wp (m : StateM σ α) (Q : α → σ → Prop) (s : σ) : Prop := Q (m.run s).1 (m.run s).2

theorem wp_bind {m : StateM σ α} {f : α → StateM σ β} {Q : β → σ → Prop} {s : σ} :
    wp (m >>= f) Q s ↔ wp m (fun a t => wp (f a) Q t) s := Iff.rfl

theorem wp.mono {m : StateM σ α} {Q R : α → σ → Prop} {s : σ} (h : wp m Q s)
    (hQR : ∀ a t, Q a t → R a t) : wp m R s := hQR _ _ h

theorem wp.bind {m : StateM σ α} {f : α → StateM σ β} {P : α → σ → Prop} {Q : β → σ → Prop} {s : σ}
    (hm : wp m P s) (hf : ∀ a t, P a t → wp (f a) Q t) : wp (m >>= f) Q s := hf _ _ hm

theorem wp_foldlM {f : α → β → StateM σ α} {I : σ → Prop} {xs : List β} {a : α} {s : σ} (hs : I s)
    (hstep : ∀ a x t, I t → wp (f a x) (fun _ u => I u) t) : wp (xs.foldlM f a) (fun _ t => I t) s := by
  induction xs generalizing a s with
  | nil => exact hs
  | cons x xs ih =>
    rw [List.foldlM_cons]
    exact (hstep a x s hs).bind fun b t ht => ih ht

variable {ε : Type}

theorem run_bind_eq_ok {x : ExceptT ε (StateM σ) α} {f : α → ExceptT ε (StateM σ) β} {s t : σ}
    {b : β} : (x >>= f) s = (.ok b, t) ↔ ∃ a u, x s = (.ok a, u) ∧ f a u = (.ok b, t) := by
  have hrun : (x >>= f) s = match x s with
      | (.ok a, u) => f a u
      | (.error e, u) => (.error e, u) := by
    show ExceptT.bindCont f (x s).1 (x s).2 = _
    cases x s with
    | mk r u => cases r <;> rfl
  rw [hrun]
  cases x s with
  | mk r u =>
    cases r with
    | error e =>
      constructor
      · intro h
        cases h
      · rintro ⟨_, _, h, _⟩
        cases h
    | ok a =>
      constructor
      · exact fun h => ⟨a, u, rfl, h⟩
      · rintro ⟨a', u', heq, h⟩
        cases heq
        exact h

theorem run_pure_eq_ok {a b : α} {s t : σ} :
    (pure a : ExceptT ε (StateM σ) α) s = (.ok b, t) ↔ a = b ∧ s = t := by
  constructor
  · intro h
    cases h
    exact ⟨rfl, rfl⟩
  · rintro ⟨rfl, rfl⟩
    rfl

end Foundations
