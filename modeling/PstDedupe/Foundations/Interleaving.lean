import Mathlib

/-!
# Programs whose steps interleave

A script is a program of atomic steps on a shared state. `Alone` is the triple of a script that runs
undisturbed.
-/

namespace Foundations

open Function

inductive Script (S α : Type) where
  | ret (a : α)
  | step (upd : S → S) (next : S → Script S α)

namespace Script

variable {S α β ε : Type}

protected def bind : Script S α → (α → Script S β) → Script S β
  | ret a, f => f a
  | step upd next, f => step upd fun s => (next s).bind f

instance : Monad (Script S) where
  pure := ret
  bind := Script.bind

def atomic (f : S → α × S) : Script S α := step (fun s => (f s).2) fun s => ret (f s).1

def run : Script S α → S → α × S
  | ret a, s => (a, s)
  | step upd next, s => (next s).run (upd s)

theorem run_bind (m : Script S α) (f : α → Script S β) (s : S) :
    (m >>= f).run s = (f (m.run s).1).run (m.run s).2 := by
  induction m generalizing s with
  | ret a => rfl
  | step upd next ih => exact ih s (upd s)

def op (f : S → Except ε α × S) : ExceptT ε (Script S) α := ExceptT.mk (atomic f)

def attempt (m : ExceptT ε (Script S) α) : ExceptT ε (Script S) (Except ε α) := ExceptT.mk do
  let r ← m.run
  pure (.ok r)

/-- A script that runs undisturbed from `s` ends with a value in `Q`, or with an error in `E`. -/
structure Alone (m : ExceptT ε (Script S) α) (s : S) (Q : α → S → Prop) (E : ε → S → Prop) : Prop where
  holds : match Script.run m.run s with
    | (.ok a, s') => Q a s'
    | (.error e, s') => E e s'

section Alone

variable {m : ExceptT ε (Script S) α} {s : S} {Q : α → S → Prop} {E : ε → S → Prop}

theorem Alone.pure {a : α} (h : Q a s) : Alone (Pure.pure a) s Q E := ⟨h⟩

theorem Alone.op {f : S → Except ε α × S} (h : match f s with
    | (.ok a, s') => Q a s'
    | (.error e, s') => E e s') : Alone (Script.op f) s Q E := ⟨h⟩

theorem Alone.bind {f : α → ExceptT ε (Script S) β} {Q : β → S → Prop}
    (h : Alone m s (fun a s' => Alone (f a) s' Q E) E) : Alone (m >>= f) s Q E := by
  have hm := h.holds
  refine ⟨?_⟩
  have hrun : Script.run (m >>= f).run s
      = Script.run (ExceptT.bindCont f (Script.run m.run s).1) (Script.run m.run s).2 :=
    run_bind m.run (ExceptT.bindCont f) s
  rw [hrun]
  cases hr : Script.run m.run s with
  | mk r s' =>
    rw [hr] at hm
    cases r with
    | ok a => exact hm.holds
    | error e => exact hm

theorem Alone.mono {Q' : α → S → Prop} {E' : ε → S → Prop} (h : Alone m s Q E)
    (hQ : ∀ a s', Q a s' → Q' a s') (hE : ∀ e s', E e s' → E' e s') : Alone m s Q' E' := by
  have hm := h.holds
  refine ⟨?_⟩
  split at hm
  · exact hQ _ _ hm
  · exact hE _ _ hm

theorem Alone.attempt {Q : Except ε α → S → Prop} (h : Alone m s (fun a => Q (.ok a)) fun e => Q (.error e)) :
    Alone (Script.attempt m) s Q E := by
  have hm := h.holds
  refine ⟨?_⟩
  have hrun : Script.run (Script.attempt m).run s = (.ok (Script.run m.run s).1, (Script.run m.run s).2) :=
    run_bind m.run _ s
  rw [hrun]
  cases hr : Script.run m.run s with
  | mk r s' =>
    rw [hr] at hm
    cases r with
    | ok a => exact hm
    | error e => exact hm

end Alone

end Script

/-- A process rests in a local state, or is in the middle of an operation that ends in the next
one. -/
inductive Activity (S L : Type) where
  | idle (l : L)
  | busy (m : Script S L)

structure Threads (P S L : Type) where
  shared : S
  procs : P → Activity S L

namespace Threads

variable {P S L : Type} [DecidableEq P]

def activity : Script S L → Activity S L
  | .ret l => .idle l
  | m => .busy m

def start (t : Threads P S L) (p : P) (m : Script S L) : Threads P S L :=
  { t with procs := update t.procs p (activity m) }

def advance (t : Threads P S L) (p : P) : Threads P S L :=
  match t.procs p with
  | .busy (.step upd next) => ⟨upd t.shared, update t.procs p (activity (next t.shared))⟩
  | .busy (.ret l) => { t with procs := update t.procs p (.idle l) }
  | .idle _ => t

def finish (t : Threads P S L) (p : P) : Threads P S L :=
  match t.procs p with
  | .busy m => ⟨(m.run t.shared).2, update t.procs p (.idle (m.run t.shared).1)⟩
  | .idle _ => t

def OthersIdle (t : Threads P S L) (p : P) : Prop := ∀ q, q ≠ p → ∃ l, t.procs q = .idle l

def Serial (I : Threads P S L → Prop) (t : Threads P S L) : Prop := ∃ p, t.OthersIdle p ∧ I (t.finish p)

variable {I : Threads P S L → Prop} {t : Threads P S L} {p : P}

theorem finish_of_idle {l : L} (h : t.procs p = .idle l) : t.finish p = t := by
  unfold finish
  rw [h]

theorem finish_start (t : Threads P S L) (p : P) (m : Script S L) :
    (t.start p m).finish p = ⟨(m.run t.shared).2, update t.procs p (.idle (m.run t.shared).1)⟩ := by
  unfold finish start
  dsimp only
  rw [update_self]
  cases m with
  | ret l => rfl
  | step upd next =>
    show Threads.mk _ (update (update t.procs p _) p _) = _
    rw [update_idem]

theorem finish_advance (t : Threads P S L) (p : P) : (t.advance p).finish p = t.finish p := by
  unfold advance
  split
  · rename_i upd next hp
    have hstart := finish_start ⟨upd t.shared, t.procs⟩ p (next t.shared)
    rw [show Threads.mk (upd t.shared) (update t.procs p (activity (next t.shared)))
      = Threads.start ⟨upd t.shared, t.procs⟩ p (next t.shared) from rfl, hstart]
    unfold finish
    rw [hp]
    rfl
  · rename_i l hp
    rw [finish_of_idle (update_self ..)]
    unfold finish
    rw [hp]
    rfl
  · rfl

theorem advance_of_ne {q : P} (h : q ≠ p) : (t.advance p).procs q = t.procs q := by
  unfold advance
  split
  · exact update_of_ne h _ _
  · exact update_of_ne h _ _
  · rfl

theorem advance_of_idle {l : L} (h : t.procs p = .idle l) : t.advance p = t := by
  unfold advance
  rw [h]

theorem Serial.advance (h : Serial I t) (p : P) : Serial I (t.advance p) := by
  obtain ⟨q, hidle, hI⟩ := h
  by_cases hpq : p = q
  · subst hpq
    refine ⟨p, fun r hr => ?_, ?_⟩
    · rw [advance_of_ne hr]
      exact hidle r hr
    · rw [finish_advance]
      exact hI
  · -- only `q` may be in the middle of an operation
    obtain ⟨l, hl⟩ := hidle p hpq
    rw [advance_of_idle hl]
    exact ⟨q, hidle, hI⟩

theorem Serial.of_idle (h : Serial I t) (hothers : t.OthersIdle p) {l : L}
    (hp : t.procs p = .idle l) : I t := by
  obtain ⟨q, -, hI⟩ := h
  have hq : ∃ l, t.procs q = .idle l := by
    by_cases hqp : q = p
    · exact ⟨l, hqp ▸ hp⟩
    · exact hothers q hqp
  obtain ⟨l', hl'⟩ := hq
  rwa [finish_of_idle hl'] at hI

theorem Serial.change (h : Serial I t) (hothers : t.OthersIdle p) {l : L} (hp : t.procs p = .idle l)
    (s : S) (hkeep : I t → I { t with shared := s }) : Serial I { t with shared := s } := by
  refine ⟨p, hothers, ?_⟩
  rw [show (Threads.mk s t.procs).finish p = _ from finish_of_idle hp]
  exact hkeep (h.of_idle hothers hp)

theorem Serial.start (h : Serial I t) (hothers : t.OthersIdle p) {l : L} (hp : t.procs p = .idle l)
    (m : Script S L)
    (hkeep : I t → I ⟨(m.run t.shared).2, update t.procs p (.idle (m.run t.shared).1)⟩) :
    Serial I (t.start p m) := by
  refine ⟨p, fun q hq => ?_, ?_⟩
  · rw [show (t.start p m).procs q = t.procs q from update_of_ne hq _ _]
    exact hothers q hq
  · rw [finish_start]
    exact hkeep (h.of_idle hothers hp)

end Threads

end Foundations
