import PstDedupe.Foundations.Files
import PstDedupe.Foundations.GuardedRuns

/-!
# Jobs that are resumed

A job runs in sessions: one may be told to pause, may fail or may end with its process, and the next
one goes on with what it has left.
-/

namespace Foundations

namespace Prog

variable {S ε α β : Type} {ι : Type*} {s : S}

def poll : Prog S ε Bool := fun d => match d.outcomes with
  | [] => (.ok false, d)
  | .done :: os => (.ok false, ⟨d.state, os⟩)
  | .fails _ :: os => (.ok true, ⟨d.state, os⟩)
  | .crashes _ :: os => (.error .crashed, ⟨d.state, os⟩)

def transaction [IoError ε] (f : S → S) : Prog S ε Unit := act (fun _ s => s) f

theorem Ensures.poll {Q : Bool → S → Prop} {E : Stop ε → S → Prop} (hQ : ∀ b, Q b s)
    (hE : E .crashed s) : Ensures (Prog.poll : Prog S ε Bool) s Q E := by
  refine ⟨fun os => ?_⟩
  unfold Prog.poll
  cases os with
  | nil => exact hQ false
  | cons o os =>
    cases o with
    | done => exact hQ false
    | fails n => exact hQ true
    | crashes n => exact hE

theorem Ensures.transaction [IoError ε] {f : S → S} {Q : Unit → S → Prop} {E : Stop ε → S → Prop}
    (hQ : Q () (f s)) (hfailed : E (.failed IoError.io) s) (hcrashed : E .crashed s) :
    Ensures (Prog.transaction f : Prog S ε Unit) s Q E := by
  refine ⟨fun os => ?_⟩
  unfold Prog.transaction Prog.act
  cases os with
  | nil => exact hQ
  | cons o os =>
    cases o with
    | done => exact hQ
    | fails n => exact hfailed
    | crashes n => exact hcrashed

theorem Runs.transaction [IoError ε] {f : S → S} : Runs (Prog.transaction f : Prog S ε Unit) s () (f s) := rfl

/-- What a session leaves. `i` is what it is given, such as the time. -/
def session (m : ι → Prog S ε α) (s : S) (i : ι × List Outcome) : S := (m i.1 ⟨s, i.2⟩).2.state

theorem session_keeps {m : ι → Prog S ε α} {I : S → Prop} {i : ι × List Outcome}
    (h : Ensures (m i.1) s (fun _ t => I t) fun _ t => I t) : I (session m s i) := by
  have hrun := h.run i.2
  unfold session
  split at hrun
  next heq => rw [heq]; exact hrun
  next heq => rw [heq]; exact hrun

/-- A program that nothing disturbs ends with a value in `R`, or with an error of its own choice. -/
structure Calm (own : ε → Prop) (R : α → Prop) (m : Prog S ε α) : Prop where
  run : ∀ s, match m ⟨s, []⟩ with
    | (.ok a, d) => R a ∧ d.outcomes = []
    | (.error (.failed e), d) => own e ∧ d.outcomes = []
    | (.error .crashed, _) => False

section Calm

variable {own : ε → Prop} {R : α → Prop} {m : Prog S ε α}

theorem Calm.pure {a : α} (h : R a) : Calm own R (Pure.pure a : Prog S ε α) := ⟨fun _ => ⟨h, rfl⟩⟩

theorem Calm.look {f : S → α} : Calm own (fun _ => True) (Prog.look f : Prog S ε α) :=
  ⟨fun _ => ⟨trivial, rfl⟩⟩

theorem Calm.poll : Calm own (· = false) (Prog.poll : Prog S ε Bool) := ⟨fun _ => ⟨rfl, rfl⟩⟩

theorem Calm.transaction [IoError ε] {f : S → S} :
    Calm own (fun _ => True) (Prog.transaction f : Prog S ε Unit) :=
  ⟨fun _ => ⟨trivial, rfl⟩⟩

theorem Calm.fail {e : ε} (h : own e) : Calm own R (Prog.fail e : Prog S ε α) := ⟨fun _ => ⟨h, rfl⟩⟩

theorem Calm.bind {P : β → Prop} {f : α → Prog S ε β} (hm : Calm own R m)
    (hf : ∀ a, R a → Calm own P (f a)) : Calm own P (m >>= f) := by
  refine ⟨fun s => ?_⟩
  have hrun := hm.run s
  rw [bind_apply]
  cases hr : m ⟨s, []⟩ with
  | mk r d =>
    rw [hr] at hrun
    cases r with
    | ok a =>
      obtain ⟨t, os⟩ := d
      obtain ⟨ha, rfl⟩ : R a ∧ os = [] := hrun
      exact (hf a ha).run t
    | error x => cases x <;> exact hrun

theorem Calm.runs (hm : Calm own R m) {Q : α → S → Prop} {E : Stop ε → S → Prop} (h : Ensures m s Q E)
    (hE : ∀ e t, E (.failed e) t → ¬ own e) : ∃ a t, Runs m s a t ∧ R a ∧ Q a t := by
  have hcalm := hm.run s
  have hrun := h.run []
  cases hr : m ⟨s, []⟩ with
  | mk r d =>
    rw [hr] at hcalm hrun
    cases r with
    | ok a =>
      obtain ⟨t, os⟩ := d
      obtain ⟨ha, rfl⟩ : R a ∧ os = [] := hcalm
      exact ⟨a, t, hr, ha, hrun⟩
    | error x =>
      cases x with
      | failed e => exact absurd hcalm.1 (hE e d.state hrun)
      | crashed => exact hcalm.elim

end Calm

/-- A program that comes to a result in `R` only undisturbed. -/
structure Steady (R : α → Prop) (m : Prog S ε α) : Prop where
  run : ∀ s os a t os', m ⟨s, os⟩ = (.ok a, ⟨t, os'⟩) → R a → Runs m s a t

section Steady

variable {R : α → Prop} {m : Prog S ε α}

theorem Steady.pure {a : α} : Steady R (Pure.pure a : Prog S ε α) := by
  refine ⟨fun s os b t os' h _ => ?_⟩
  cases h
  rfl

theorem Steady.look {f : S → α} : Steady R (Prog.look f : Prog S ε α) := by
  refine ⟨fun s os b t os' h _ => ?_⟩
  cases h
  rfl

theorem Steady.fail {e : ε} : Steady R (Prog.fail e : Prog S ε α) := ⟨fun s os b t os' h _ => by cases h⟩

theorem Steady.transaction [IoError ε] {R : Unit → Prop} {f : S → S} :
    Steady R (Prog.transaction f : Prog S ε Unit) := by
  refine ⟨fun s os b t os' h _ => ?_⟩
  unfold Prog.transaction Prog.act at h
  cases os with
  | nil =>
    cases h
    rfl
  | cons o os =>
    cases o <;> cases h
    rfl

theorem Steady.poll : Steady (· = false) (Prog.poll : Prog S ε Bool) := by
  refine ⟨fun s os b t os' h hb => ?_⟩
  unfold Prog.poll at h
  cases os with
  | nil =>
    cases h
    rfl
  | cons o os =>
    cases o <;> cases h
    · rfl
    · cases hb

theorem Steady.bind {P : α → Prop} {R : β → Prop} {f : α → Prog S ε β} (hm : Steady P m)
    (hf : ∀ a, P a → Steady R (f a))
    (hstray : ∀ a s, ¬ P a → Ensures (f a) s (fun b _ => ¬ R b) fun _ _ => True) :
    Steady R (m >>= f) := by
  refine ⟨fun s os b t os' h hb => ?_⟩
  rw [bind_apply] at h
  cases hr : m ⟨s, os⟩ with
  | mk r d =>
    rw [hr] at h
    cases r with
    | error x => cases h
    | ok a =>
      obtain ⟨s', os''⟩ := d
      by_cases ha : P a
      · exact Runs.bind (hm.run s os a s' os'' hr ha) ((hf a ha).run s' os'' b t os' h hb)
      · have hok : (f a ⟨s', os''⟩).1 = .ok b := by rw [show f a ⟨s', os''⟩ = _ from h]
        have hstop := (hstray a s' ha).of_ok hok
        exact absurd hb hstop

theorem Steady.bind_all {R : β → Prop} {f : α → Prog S ε β} (hm : Steady (fun _ => True) m)
    (hf : ∀ a, Steady R (f a)) : Steady R (m >>= f) :=
  Steady.bind hm (fun a _ => hf a) fun _ _ h => absurd trivial h

theorem Ensures.steady {s : S} {Q : α → S → Prop} {E : Stop ε → S → Prop} (h : Ensures m s Q E)
    (hm : Steady R m) :
    Ensures m s (fun a t => Q a t ∧ (R a → Runs m s a t)) E := by
  refine ⟨fun os => ?_⟩
  have hrun := h.run os
  cases hr : m ⟨s, os⟩ with
  | mk r d =>
    rw [hr] at hrun
    cases r with
    | ok a => exact ⟨hrun, hm.run s os a d.state d.outcomes hr⟩
    | error x => exact hrun

end Steady

end Prog

end Foundations
