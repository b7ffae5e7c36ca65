import Mathlib

/-!
# Programs over a file system

Every operation takes its outcome from a list: it is done, it fails, or the process ends in it.
-/

namespace Foundations

open Function

abbrev Files (P C : Type) := P → Option (List C)

namespace Files

variable {P C : Type} [DecidableEq P]

def write (p : P) (bs : List C) (fs : Files P C) : Files P C := Function.update fs p (some bs)

def append (p : P) (bs : List C) (fs : Files P C) : Files P C := Function.update fs p ((fs p).map (· ++ bs))

def erase (p : P) (fs : Files P C) : Files P C := Function.update fs p none

def eraseWhere (S : P → Prop) [DecidablePred S] (fs : Files P C) : Files P C :=
  fun p => if S p then none else fs p

def move (p q : P) (fs : Files P C) : Files P C := erase p (Function.update fs q (fs p))

variable {p q : P} {bs : List C} {fs : Files P C}

@[simp] theorem write_self : write p bs fs p = some bs := update_self p _ fs

@[simp] theorem write_of_ne (h : q ≠ p) : write p bs fs q = fs q := update_of_ne h _ fs

@[simp] theorem append_self : append p bs fs p = (fs p).map (· ++ bs) := update_self p _ fs

@[simp] theorem append_of_ne (h : q ≠ p) : append p bs fs q = fs q := update_of_ne h _ fs

@[simp] theorem erase_self : erase p fs p = none := update_self p _ fs

@[simp] theorem erase_of_ne (h : q ≠ p) : erase p fs q = fs q := update_of_ne h _ fs

omit [DecidableEq P] in
theorem eraseWhere_of (S : P → Prop) [DecidablePred S] (h : S p) : eraseWhere S fs p = none := if_pos h

omit [DecidableEq P] in
theorem eraseWhere_of_not (S : P → Prop) [DecidablePred S] (h : ¬ S p) : eraseWhere S fs p = fs p := if_neg h

@[simp] theorem move_target (h : q ≠ p) : move p q fs q = fs p := by
  unfold move
  rw [erase_of_ne h, update_self]

@[simp] theorem move_source : move p q fs p = none := erase_self

@[simp] theorem move_of_ne {r : P} (hp : r ≠ p) (hq : r ≠ q) : move p q fs r = fs r := by
  unfold move
  rw [erase_of_ne hp, update_of_ne hq]

def Agree (S : P → Prop) (fs fs' : Files P C) : Prop := ∀ p, ¬ S p → fs' p = fs p

section Agree

variable {S : P → Prop} {fs' : Files P C}

omit [DecidableEq P] in
theorem Agree.refl (S : P → Prop) (fs : Files P C) : Agree S fs fs := fun _ _ => rfl

omit [DecidableEq P] in
theorem Agree.mono {T : P → Prop} (h : Agree S fs fs') (hST : ∀ p, S p → T p) : Agree T fs fs' :=
  fun p hp => h p fun hS => hp (hST p hS)

theorem Agree.update (h : Agree S fs fs') (hp : S p) (v : Option (List C)) :
    Agree S fs (Function.update fs' p v) := by
  intro r hr
  have hne : r ≠ p := fun heq => hr (heq ▸ hp)
  rw [update_of_ne hne]
  exact h r hr

theorem Agree.write (h : Agree S fs fs') (hp : S p) : Agree S fs (write p bs fs') := h.update hp _

theorem Agree.append (h : Agree S fs fs') (hp : S p) : Agree S fs (append p bs fs') := h.update hp _

theorem Agree.erase (h : Agree S fs fs') (hp : S p) : Agree S fs (erase p fs') := h.update hp _

omit [DecidableEq P] in
theorem Agree.eraseWhere [DecidablePred S] (h : Agree S fs fs') : Agree S fs (eraseWhere S fs') :=
  fun p hp => (eraseWhere_of_not S hp).trans (h p hp)

theorem Agree.move (h : Agree S fs fs') (hp : S p) (hq : S q) : Agree S fs (move p q fs') :=
  (h.update hq _).update hp _

end Agree

end Files

/-- What becomes of an operation. One that writes has written some when it is cut short. -/
inductive Outcome where
  | done
  | fails (written : Nat)
  | crashes (written : Nat)
  deriving DecidableEq, Repr

def cutAt : List Outcome → Option Nat
  | .fails n :: _ => some n
  | .crashes n :: _ => some n
  | _ => none

/-- Why a program stops early: it returns an error, or its process has ended. -/
inductive Stop (ε : Type) where
  | failed (e : ε)
  | crashed
  deriving DecidableEq, Repr

class IoError (ε : Type) where
  io : ε

/-- What a program works on, and what becomes of the operations to come. Those after the last are
done. -/
structure Host (S : Type) where
  state : S
  outcomes : List Outcome

abbrev Prog (S ε α : Type) := ExceptT (Stop ε) (StateM (Host S)) α

namespace Prog

variable {S T P C ε α β : Type}

/-- An operation: what it has done when it is cut short, and when it is done. -/
def act [IoError ε] (part : Nat → S → S) (full : S → S) : Prog S ε Unit :=
  fun d => match d.outcomes with
    | [] => (.ok (), ⟨full d.state, []⟩)
    | .done :: os => (.ok (), ⟨full d.state, os⟩)
    | .fails n :: os => (.error (.failed IoError.io), ⟨part n d.state, os⟩)
    | .crashes n :: os => (.error .crashed, ⟨part n d.state, os⟩)

def touch [IoError ε] : Prog S ε Unit := act (fun _ s => s) id

def look (f : S → α) : Prog S ε α := fun d => (.ok (f d.state), d)

def always (f : S → S) : Prog S ε Unit := fun d => (.ok (), { d with state := f d.state })

def fail (e : ε) : Prog S ε α := fun d => (.error (.failed e), d)

def ofResult : Except ε α → Prog S ε α
  | .ok a => pure a
  | .error e => fail e

def zoom (get : T → S) (set : T → S → T) (m : Prog S ε α) : Prog T ε α := fun d =>
  let r := m ⟨get d.state, d.outcomes⟩
  (r.1, ⟨set d.state r.2.state, r.2.outcomes⟩)

def attempt (m : Prog S ε α) : Prog S ε (Except ε α) := fun d =>
  match m d with
  | (.ok a, d') => (.ok (.ok a), d')
  | (.error (.failed e), d') => (.ok (.error e), d')
  | (.error .crashed, d') => (.error .crashed, d')

/-- A guard: its drop changes the state when the program is left, with a value or an error. -/
def dropping (f : S → S) (m : Prog S ε α) : Prog S ε α := do
  let r ← attempt m
  always f
  match r with
  | .ok a => pure a
  | .error e => fail e

def onError (f : S → S) (m : Prog S ε α) : Prog S ε α := do
  match ← attempt m with
  | .ok a => pure a
  | .error e => do
    always f
    fail e

section Operations

def pathExists (p : P) : Prog (Files P C) ε Bool := look fun fs => (fs p).isSome

variable [DecidableEq P] [IoError ε]

def createFile (p : P) : Prog (Files P C) ε Unit := act (fun _ fs => fs) (Files.write p [])

def writeAll (p : P) (bs : List C) : Prog (Files P C) ε Unit :=
  act (fun n => Files.append p (bs.take n)) (Files.append p bs)

omit [DecidableEq P] in
def readFile (p : P) : Prog (Files P C) ε (List C) := do
  touch
  match ← look fun fs => fs p with
  | some bs => pure bs
  | none => fail IoError.io

def actOn (p : P) (full : Files P C → Files P C) : Prog (Files P C) ε Unit := do
  match ← look fun fs => fs p with
  | some _ => act (fun _ fs => fs) full
  | none => fail IoError.io

def removeFile (p : P) : Prog (Files P C) ε Unit := actOn p (Files.erase p)

def rename (p q : P) : Prog (Files P C) ε Unit := actOn p (Files.move p q)

end Operations

/-! ## Triples -/

/-- What has to hold before a cleanup `f` that an error brings and the end of the process does
not. -/
def Cleaning (f : S → S) (E : Stop ε → S → Prop) : Stop ε → S → Prop
  | .failed e, s => E (.failed e) (f s)
  | .crashed, s => E .crashed s

/-- Whatever becomes of the operations, a program that ends has reached `Q`, and one that stops
`E`. -/
structure Ensures (m : Prog S ε α) (s₀ : S) (Q : α → S → Prop) (E : Stop ε → S → Prop) : Prop where
  run : ∀ os, match m ⟨s₀, os⟩ with
    | (.ok a, d) => Q a d.state
    | (.error s, d) => E s d.state

variable {m : Prog S ε α} {s₀ : S} {Q : α → S → Prop} {E : Stop ε → S → Prop}

theorem Ensures.of_ok (h : Ensures m s₀ Q E) {os : List Outcome} {a : α}
    (hr : (m ⟨s₀, os⟩).1 = .ok a) : Q a (m ⟨s₀, os⟩).2.state := by
  have hm := h.run os
  cases hrun : m ⟨s₀, os⟩ with
  | mk r d =>
    rw [hrun] at hm hr
    obtain rfl : r = .ok a := hr
    exact hm

theorem Ensures.of_error (h : Ensures m s₀ Q E) {os : List Outcome} {s : Stop ε}
    (hr : (m ⟨s₀, os⟩).1 = .error s) :
    E s (m ⟨s₀, os⟩).2.state := by
  have hm := h.run os
  cases hrun : m ⟨s₀, os⟩ with
  | mk r d =>
    rw [hrun] at hm hr
    obtain rfl : r = .error s := hr
    exact hm

theorem Ensures.pure {a : α} (h : Q a s₀) : Ensures (Pure.pure a : Prog S ε α) s₀ Q E := ⟨fun _ => h⟩

theorem Ensures.fail {e : ε} (h : E (.failed e) s₀) : Ensures (Prog.fail e : Prog S ε α) s₀ Q E := ⟨fun _ => h⟩

theorem Ensures.look {f : S → α} (h : Q (f s₀) s₀) : Ensures (Prog.look f : Prog S ε α) s₀ Q E :=
  ⟨fun _ => h⟩

theorem Ensures.always {f : S → S} {Q : Unit → S → Prop} (h : Q () (f s₀)) :
    Ensures (Prog.always f : Prog S ε Unit) s₀ Q E := ⟨fun _ => h⟩

theorem bind_apply (f : α → Prog S ε β) (d : Host S) : (m >>= f) d = match m d with
    | (.ok a, d') => f a d'
    | (.error s, d') => (.error s, d') := by
  show ExceptT.bindCont f (m d).1 (m d).2 = _
  cases m d with
  | mk r d' => cases r <;> rfl

theorem attempt_bind_apply (f : Except ε α → Prog S ε β) (d : Host S) : (attempt m >>= f) d = match m d with
    | (.ok a, d') => f (.ok a) d'
    | (.error (.failed e), d') => f (.error e) d'
    | (.error .crashed, d') => (.error .crashed, d') := by
  rw [bind_apply]
  unfold attempt
  cases m d with
  | mk r d' =>
    cases r with
    | ok a => rfl
    | error s => cases s <;> rfl

theorem Ensures.bind {f : α → Prog S ε β} {Q : β → S → Prop}
    (h : Ensures m s₀ (fun a t => Ensures (f a) t Q E) E) : Ensures (m >>= f) s₀ Q E := by
  refine ⟨fun os => ?_⟩
  have hm := h.run os
  rw [bind_apply]
  cases hr : m ⟨s₀, os⟩ with
  | mk r d =>
    rw [hr] at hm
    cases r with
    | ok a => exact hm.run d.outcomes
    | error s => exact hm

theorem Ensures.mono {Q' : α → S → Prop} {E' : Stop ε → S → Prop} (h : Ensures m s₀ Q E)
    (hQ : ∀ a t, Q a t → Q' a t) (hE : ∀ s t, E s t → E' s t) : Ensures m s₀ Q' E' := by
  refine ⟨fun os => ?_⟩
  have hm := h.run os
  split at hm
  · exact hQ _ _ hm
  · exact hE _ _ hm

theorem Ensures.act [IoError ε] {part : Nat → S → S} {full : S → S} {Q : Unit → S → Prop}
    (hfull : Q () (full s₀)) (hpart : ∀ s n, E s (part n s₀)) :
    Ensures (Prog.act part full : Prog S ε Unit) s₀ Q E := by
  refine ⟨fun os => ?_⟩
  unfold Prog.act
  cases os with
  | nil => exact hfull
  | cons o os =>
    cases o with
    | done => exact hfull
    | fails n => exact hpart _ n
    | crashes n => exact hpart _ n

theorem Ensures.touch [IoError ε] {Q : Unit → S → Prop} (hQ : Q () s₀) (hE : ∀ s, E s s₀) :
    Ensures (Prog.touch : Prog S ε Unit) s₀ Q E :=
  Ensures.act hQ fun s _ => hE s

theorem Ensures.zoom {get : T → S} {set : T → S → T} {t : T} {Q : α → T → Prop} {E : Stop ε → T → Prop}
    (h : Ensures m (get t) (fun a s => Q a (set t s)) fun x s => E x (set t s)) :
    Ensures (Prog.zoom get set m) t Q E := by
  refine ⟨fun os => ?_⟩
  have hm := h.run os
  unfold Prog.zoom
  cases hr : m ⟨get t, os⟩ with
  | mk r d =>
    rw [hr] at hm
    cases r with
    | ok a => exact hm
    | error s => exact hm

theorem Ensures.attempt {Q : Except ε α → S → Prop} (h : Ensures m s₀ (fun a => Q (.ok a)) fun s t =>
      match s with
      | .failed e => Q (.error e) t
      | .crashed => E .crashed t) :
    Ensures (Prog.attempt m) s₀ Q E := by
  refine ⟨fun os => ?_⟩
  have hm := h.run os
  unfold Prog.attempt
  cases hr : m ⟨s₀, os⟩ with
  | mk r d =>
    rw [hr] at hm
    cases r with
    | ok a => exact hm
    | error s =>
      cases s with
      | failed e => exact hm
      | crashed => exact hm

theorem Ensures.dropping {f : S → S} (h : Ensures m s₀ (fun a t => Q a (f t)) (Cleaning f E)) :
    Ensures (Prog.dropping f m) s₀ Q E := by
  refine Ensures.bind (Ensures.attempt ?_)
  refine h.mono (fun a t hQ => ?_) fun s t hE => ?_
  · exact Ensures.bind (Ensures.always (Ensures.pure hQ))
  · cases s with
    | failed e => exact Ensures.bind (Ensures.always (Ensures.fail hE))
    | crashed => exact hE

theorem Ensures.onError {f : S → S} (h : Ensures m s₀ Q (Cleaning f E)) :
    Ensures (Prog.onError f m) s₀ Q E := by
  refine Ensures.bind (Ensures.attempt ?_)
  refine h.mono (fun a t hQ => Ensures.pure hQ) fun s t hE => ?_
  cases s with
  | failed e => exact Ensures.bind (Ensures.always (Ensures.fail hE))
  | crashed => exact hE

section Operations

variable [DecidableEq P] [IoError ε] {p : P} {fs : Files P C} {E : Stop ε → Files P C → Prop}

theorem Ensures.createFile {Q : Unit → Files P C → Prop} (hQ : Q () (Files.write p [] fs))
    (hE : ∀ s, E s fs) : Ensures (Prog.createFile p : Prog (Files P C) ε Unit) fs Q E :=
  Ensures.act hQ fun s _ => hE s

theorem Ensures.writeAll {bs : List C} {Q : Unit → Files P C → Prop}
    (hQ : Q () (Files.append p bs fs)) (hE : ∀ s n, E s (Files.append p (bs.take n) fs)) :
    Ensures (Prog.writeAll p bs : Prog (Files P C) ε Unit) fs Q E :=
  Ensures.act hQ hE

omit [DecidableEq P] in
theorem Ensures.actOn {full : Files P C → Files P C} {Q : Unit → Files P C → Prop}
    (hQ : ∀ bs, fs p = some bs → Q () (full fs)) (hE : ∀ s, E s fs) :
    Ensures (Prog.actOn p full : Prog (Files P C) ε Unit) fs Q E := by
  refine Ensures.bind (Ensures.look ?_)
  cases hp : fs p with
  | none => exact Ensures.fail (hE _)
  | some bs => exact Ensures.act (hQ bs hp) fun s _ => hE s

theorem Ensures.removeFile {Q : Unit → Files P C → Prop} (hQ : ∀ bs, fs p = some bs → Q () (Files.erase p fs))
    (hE : ∀ s, E s fs) : Ensures (Prog.removeFile p : Prog (Files P C) ε Unit) fs Q E :=
  Ensures.actOn hQ hE

theorem Ensures.rename {q : P} {Q : Unit → Files P C → Prop}
    (hQ : ∀ bs, fs p = some bs → Q () (Files.move p q fs)) (hE : ∀ s, E s fs) :
    Ensures (Prog.rename p q : Prog (Files P C) ε Unit) fs Q E :=
  Ensures.actOn hQ hE

omit [DecidableEq P] in
theorem Ensures.readFile {Q : List C → Files P C → Prop} (hQ : ∀ bs, fs p = some bs → Q bs fs)
    (hE : ∀ s, E s fs) :
    Ensures (Prog.readFile p : Prog (Files P C) ε (List C)) fs Q E := by
  refine Ensures.bind (Ensures.touch ?_ hE)
  refine Ensures.bind (Ensures.look ?_)
  cases hp : fs p with
  | none => exact Ensures.fail (hE _)
  | some bs => exact Ensures.pure (hQ bs hp)

end Operations

/-! ## Single runs -/

structure Leads (m : Prog S ε α) (d : Host S) (Q : α → Host S → Prop) (E : Stop ε → Host S → Prop) : Prop where
  run : match m d with
    | (.ok a, d') => Q a d'
    | (.error s, d') => E s d'

section Leads

variable {d : Host S} {Q : α → Host S → Prop} {E : Stop ε → Host S → Prop} {os : List Outcome}

theorem Leads.pure {a : α} (h : Q a d) : Leads (Pure.pure a : Prog S ε α) d Q E := ⟨h⟩

theorem Leads.look {f : S → α} (h : Q (f s₀) ⟨s₀, os⟩) : Leads (Prog.look f : Prog S ε α) ⟨s₀, os⟩ Q E := ⟨h⟩

theorem Leads.bind {f : α → Prog S ε β} {Q : β → Host S → Prop}
    (h : Leads m d (fun a d' => Leads (f a) d' Q E) E) :
    Leads (m >>= f) d Q E := by
  have hm := h.run
  refine ⟨?_⟩
  rw [bind_apply]
  cases hr : m d with
  | mk r d' =>
    rw [hr] at hm
    cases r with
    | ok a => exact hm.run
    | error s => exact hm

theorem Leads.and {Q' : α → Host S → Prop} {E' : Stop ε → Host S → Prop} (h : Leads m d Q E)
    (h' : Leads m d Q' E') :
    Leads m d (fun a d' => Q a d' ∧ Q' a d') fun s d' => E s d' ∧ E' s d' := by
  have hm := h.run
  have hm' := h'.run
  refine ⟨?_⟩
  cases hr : m d with
  | mk r d' =>
    rw [hr] at hm hm'
    cases r with
    | ok a => exact ⟨hm, hm'⟩
    | error s => exact ⟨hm, hm'⟩

theorem Leads.act_cases [IoError ε] {part : Nat → S → S} {full : S → S} {Q : Unit → Host S → Prop}
    (hdone : cutAt os = none → Q () ⟨full s₀, os.tail⟩)
    (hfails : ∀ n os', os = .fails n :: os' → E (.failed IoError.io) ⟨part n s₀, os'⟩)
    (hcrashes : ∀ n os', os = .crashes n :: os' → E .crashed ⟨part n s₀, os'⟩) :
    Leads (Prog.act part full : Prog S ε Unit) ⟨s₀, os⟩ Q E := by
  refine ⟨?_⟩
  unfold Prog.act
  cases os with
  | nil => exact hdone rfl
  | cons o os =>
    cases o with
    | done => exact hdone rfl
    | fails n => exact hfails n os rfl
    | crashes n => exact hcrashes n os rfl

theorem Leads.touch_cases [IoError ε] {Q : Unit → Host S → Prop} (hdone : cutAt os = none →
    Q () ⟨s₀, os.tail⟩) (hfails : ∀ n os', os = .fails n :: os' → E (.failed IoError.io) ⟨s₀, os'⟩)
    (hcrashes : ∀ n os', os = .crashes n :: os' → E .crashed ⟨s₀, os'⟩) :
    Leads (Prog.touch : Prog S ε Unit) ⟨s₀, os⟩ Q E :=
  Leads.act_cases hdone hfails hcrashes

theorem Leads.act [IoError ε] {part : Nat → S → S} {full : S → S} {Q : Unit → Host S → Prop}
    (hdone : cutAt os = none → Q () ⟨full s₀, os.tail⟩)
    (hcut : ∀ s n, cutAt os = some n → E s ⟨part n s₀, os.tail⟩) :
    Leads (Prog.act part full : Prog S ε Unit) ⟨s₀, os⟩ Q E := by
  refine Leads.act_cases hdone (fun n os' hos => ?_) fun n os' hos => ?_
  · subst hos
    exact hcut _ n rfl
  · subst hos
    exact hcut _ n rfl

theorem Leads.actOn_cases [IoError ε] {p : P} {fs : Files P C} {full : Files P C → Files P C}
    {Q : Unit → Host (Files P C) → Prop} {E : Stop ε → Host (Files P C) → Prop} {bs : List C}
    (hp : fs p = some bs) (hdone : cutAt os = none → Q () ⟨full fs, os.tail⟩)
    (hfails : ∀ n os', os = .fails n :: os' → E (.failed IoError.io) ⟨fs, os'⟩)
    (hcrashes : ∀ n os', os = .crashes n :: os' → E .crashed ⟨fs, os'⟩) :
    Leads (Prog.actOn p full : Prog (Files P C) ε Unit) ⟨fs, os⟩ Q E := by
  refine Leads.bind (Leads.look ?_)
  rw [hp]
  exact Leads.act_cases hdone hfails hcrashes

theorem Leads.zoom {get : T → S} {set : T → S → T} {t : T} {Q : α → Host T → Prop}
    {E : Stop ε → Host T → Prop} (h : Leads m ⟨get t, os⟩ (fun a d => Q a ⟨set t d.state, d.outcomes⟩)
      fun x d => E x ⟨set t d.state, d.outcomes⟩) : Leads (Prog.zoom get set m) ⟨t, os⟩ Q E := by
  have hm := h.run
  refine ⟨?_⟩
  unfold Prog.zoom
  cases hr : m ⟨get t, os⟩ with
  | mk r d' =>
    rw [hr] at hm
    cases r with
    | ok a => exact hm
    | error s => exact hm

theorem Ensures.leads {Q : α → S → Prop} {E : Stop ε → S → Prop} (h : Ensures m s₀ Q E) :
    Leads m ⟨s₀, os⟩ (fun a d' => Q a d'.state) fun s d' => E s d'.state :=
  ⟨h.run os⟩

theorem Leads.mono {Q' : α → Host S → Prop} {E' : Stop ε → Host S → Prop} (h : Leads m d Q E)
    (hQ : ∀ a d', Q a d' → Q' a d') (hE : ∀ s d', E s d' → E' s d') : Leads m d Q' E' := by
  have hm := h.run
  refine ⟨?_⟩
  split at hm
  · exact hQ _ _ hm
  · exact hE _ _ hm

end Leads

/-! ## Undisturbed runs -/

/-- When every operation is done, the program ends with a value. -/
def Runs (m : Prog S ε α) (s₀ : S) (a : α) (t : S) : Prop := m ⟨s₀, []⟩ = (.ok a, ⟨t, []⟩)

section Runs

variable {s₀ s₁ s₂ : S} {a : α} {b : β}

theorem Runs.pure : Runs (Pure.pure a : Prog S ε α) s₀ a s₀ := rfl

theorem Runs.look {f : S → α} : Runs (Prog.look f : Prog S ε α) s₀ (f s₀) s₀ := rfl

theorem Runs.always {f : S → S} : Runs (Prog.always f : Prog S ε Unit) s₀ () (f s₀) := rfl

theorem Runs.ofResult {r : Except ε α} (h : r = .ok a) : Runs (Prog.ofResult r : Prog S ε α) s₀ a s₀ := by
  subst h
  rfl

theorem Runs.bind {f : α → Prog S ε β} (hm : Runs m s₀ a s₁) (hf : Runs (f a) s₁ b s₂) :
    Runs (m >>= f) s₀ b s₂ := by
  show ExceptT.bindCont f (m ⟨s₀, []⟩).1 (m ⟨s₀, []⟩).2 = _
  rw [show m ⟨s₀, []⟩ = _ from hm]
  exact hf

theorem Runs.zoom {get : T → S} {set : T → S → T} {t : T} (h : Runs m (get t) a s₁) :
    Runs (Prog.zoom get set m) t a (set t s₁) := by
  unfold Runs Prog.zoom
  rw [show m ⟨get t, []⟩ = _ from h]

theorem Runs.touch [IoError ε] : Runs (Prog.touch : Prog S ε Unit) s₀ () s₀ := rfl

variable {fs : Files P C}

theorem Runs.createFile [DecidableEq P] [IoError ε] {p : P} :
    Runs (Prog.createFile p : Prog (Files P C) ε Unit) fs () (Files.write p [] fs) := rfl

theorem Runs.writeAll [DecidableEq P] [IoError ε] {p : P} {bs : List C} :
    Runs (Prog.writeAll p bs : Prog (Files P C) ε Unit) fs () (Files.append p bs fs) := rfl

theorem Runs.readFile [IoError ε] {p : P} {bs : List C} (h : fs p = some bs) :
    Runs (Prog.readFile p : Prog (Files P C) ε (List C)) fs bs fs := by
  refine Runs.bind Runs.touch (Runs.bind Runs.look ?_)
  rw [h]
  exact Runs.pure

theorem Runs.rename [DecidableEq P] [IoError ε] {p q : P} {bs : List C} (h : fs p = some bs) :
    Runs (Prog.rename p q : Prog (Files P C) ε Unit) fs () (Files.move p q fs) := by
  refine Runs.bind Runs.look ?_
  rw [h]
  rfl

end Runs

end Prog

end Foundations
