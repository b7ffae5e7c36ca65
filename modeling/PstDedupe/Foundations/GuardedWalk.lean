import Mathlib

/-!
# Walks that refuse a node they have been at

A walk goes down from a node to its children in order, no deeper than a limit, and ends with an
error at a node it has entered before.
-/

namespace Foundations.GuardedWalk

open List Prod

inductive Opened (κ α : Type) where
  | leaf (found : List α)
  | node (children : List κ)

/-- How nodes are opened: those that are passed over, the view of a node, and the errors of the two
guards. -/
structure Graph (ε κ α : Type) where
  skip : κ → Bool
  view : κ → Except ε (Opened κ α)
  tooDeep : κ → ε
  again : κ → ε

abbrev Log (κ : Type) := List (Nat × κ)

/-- No node is visited twice, and no visit is as deep as the limit. -/
structure Bounded {κ : Type} (limit : Nat) (log : Log κ) : Prop where
  nodup : (log.map snd).Nodup
  depth : ∀ x ∈ log, x.1 < limit

variable {ε κ α β : Type}

def walkAll (step : κ → Log κ → Except ε (List α) × Log κ) : List κ → Log κ → Except ε (List α) × Log κ
  | [], log => (.ok [], log)
  | k :: rest, log =>
    match step k log with
    | (.error e, log) => (.error e, log)
    | (.ok found, log) =>
      match walkAll step rest log with
      | (.error e, log) => (.error e, log)
      | (.ok more, log) => (.ok (found ++ more), log)

def walk [DecidableEq κ] (g : Graph ε κ α) : Nat → Nat → κ → Log κ → Except ε (List α) × Log κ
  | left, depth, k, log =>
    if g.skip k then (.ok [], log)
    else match left with
      | 0 => (.error (g.tooDeep k), log)
      | left + 1 =>
        if k ∈ log.map snd then (.error (g.again k), log)
        else
          let log := log ++ [(depth, k)]
          match g.view k with
          | .error e => (.error e, log)
          | .ok (.leaf found) => (.ok found, log)
          | .ok (.node children) => walkAll (walk g left (depth + 1)) children log

def seekAll (missing : ε) (isMissing : ε → Bool) (step : κ → Log κ → Except ε β × Log κ) :
    List κ → Log κ → Except ε β × Log κ
  | [], log => (.error missing, log)
  | k :: rest, log =>
    match step k log with
    | (.ok b, log) => (.ok b, log)
    | (.error e, log) => if isMissing e then seekAll missing isMissing step rest log else (.error e, log)

def seek [DecidableEq κ] (g : Graph ε κ α) (missing : ε) (isMissing : ε → Bool)
    (answer : α → Option (Except ε β)) :
    Nat → Nat → κ → Log κ → Except ε β × Log κ
  | left, depth, k, log =>
    if g.skip k then (.error missing, log)
    else match left with
      | 0 => (.error (g.tooDeep k), log)
      | left + 1 =>
        if k ∈ log.map snd then (.error (g.again k), log)
        else
          let log := log ++ [(depth, k)]
          match g.view k with
          | .error e => (.error e, log)
          | .ok (.leaf found) => ((found.findSome? answer).getD (.error missing), log)
          | .ok (.node children) => seekAll missing isMissing (seek g missing isMissing answer left (depth + 1)) children log

variable {g : Graph ε κ α} {log : Log κ} {limit left depth : Nat} {k : κ}

theorem Bounded.enter (h : Bounded limit log) (hnew : k ∉ log.map snd) (hdepth : depth < limit) :
    Bounded limit (log ++ [(depth, k)]) := by
  refine ⟨?_, fun x hx => ?_⟩
  · rw [map_append, nodup_append]
    refine ⟨h.nodup, nodup_singleton _, fun a ha b hb heq => ?_⟩
    rw [heq, List.mem_singleton.mp hb] at ha
    exact hnew ha
  · rcases List.mem_append.mp hx with hx | hx
    · exact h.depth x hx
    · rw [List.mem_singleton.mp hx]
      exact hdepth

theorem bounded_walkAll {step : κ → Log κ → Except ε (List α) × Log κ}
    (hstep : ∀ k log, Bounded limit log → Bounded limit (step k log).2) (children : List κ)
    (log : Log κ) (h : Bounded limit log) : Bounded limit (walkAll step children log).2 := by
  induction children generalizing log with
  | nil => exact h
  | cons k rest ih =>
    rw [walkAll]
    have hfirst := hstep k log h
    rcases hs : step k log with ⟨e | found, log₁⟩
    · rw [hs] at hfirst
      exact hfirst
    · rw [hs] at hfirst
      have hrest := ih log₁ hfirst
      dsimp only
      rcases hr : walkAll step rest log₁ with ⟨e | more, log₂⟩ <;> rw [hr] at hrest <;> exact hrest

theorem bounded_walk [DecidableEq κ] (hlimit : depth + left ≤ limit) (k : κ)
    (h : Bounded limit log) : Bounded limit (walk g left depth k log).2 := by
  induction left generalizing depth k log with
  | zero =>
    rw [walk]
    split <;> exact h
  | succ left ih =>
    rw [walk]
    split
    · exact h
    split
    · exact h
    rename_i hnew
    have henter := h.enter hnew (show depth < limit by omega)
    dsimp only
    split
    · exact henter
    · exact henter
    · exact bounded_walkAll (fun k log => ih (by omega) k) _ _ henter

theorem bounded_seekAll {missing : ε} {isMissing : ε → Bool} {step : κ → Log κ → Except ε β × Log κ}
    (hstep : ∀ k log, Bounded limit log → Bounded limit (step k log).2) (children : List κ) (log : Log κ)
    (h : Bounded limit log) : Bounded limit (seekAll missing isMissing step children log).2 := by
  induction children generalizing log with
  | nil => exact h
  | cons k rest ih =>
    rw [seekAll]
    have hfirst := hstep k log h
    rcases hs : step k log with ⟨e | b, log₁⟩
    · rw [hs] at hfirst
      dsimp only
      split
      · exact ih log₁ hfirst
      · exact hfirst
    · rw [hs] at hfirst
      exact hfirst

theorem bounded_seek [DecidableEq κ] {missing : ε} {isMissing : ε → Bool} {answer : α → Option (Except ε β)}
    (hlimit : depth + left ≤ limit) (k : κ) (h : Bounded limit log) :
    Bounded limit (seek g missing isMissing answer left depth k log).2 := by
  induction left generalizing depth k log with
  | zero =>
    rw [seek]
    split <;> exact h
  | succ left ih =>
    rw [seek]
    split
    · exact h
    split
    · exact h
    rename_i hnew
    have henter := h.enter hnew (show depth < limit by omega)
    dsimp only
    split
    · exact henter
    · exact henter
    · exact bounded_seekAll (fun k log => ih (by omega) k) _ _ henter

/-- The nodes below `k` that are not passed over. -/
inductive Reached (g : Graph ε κ α) : κ → κ → Prop
  | self {k : κ} (h : g.skip k = false) : Reached g k k
  | child {k c b : κ} {children : List κ} (h : g.skip k = false) (hview : g.view k = .ok (.node children))
      (hc : c ∈ children) (hb : Reached g c b) : Reached g k b

structure AgreeBelow (g g' : Graph ε κ α) (k : κ) : Prop where
  skip : g'.skip = g.skip
  view : ∀ b, Reached g k b → g'.view b = g.view b

/-- After a walk that succeeds, the first answer among all entries is what is found. -/
def Finds (found : List α) (answer : α → Option (Except ε β)) (missing : ε) (log : Log κ)
    (r : Except ε β × Log κ) : Prop :=
  match found.findSome? answer with
  | some b => r.1 = b
  | none => r = (.error missing, log)

theorem finds_seekAll {missing : ε} {isMissing : ε → Bool} {answer : α → Option (Except ε β)}
    (hmissing : isMissing missing = true)
    (hanswer : ∀ a e, answer a = some (.error e) → isMissing e = false)
    {stepW : κ → Log κ → Except ε (List α) × Log κ} {stepS : κ → Log κ → Except ε β × Log κ}
    {children : List κ}
    (hstep : ∀ k ∈ children, ∀ log found log', stepW k log = (.ok found, log') →
      Finds found answer missing log' (stepS k log))
    {found : List α} {log log' : Log κ} (h : walkAll stepW children log = (.ok found, log')) :
    Finds found answer missing log' (seekAll missing isMissing stepS children log) := by
  induction children generalizing log found with
  | nil =>
    cases h
    rfl
  | cons k rest ih =>
    rw [walkAll] at h
    rcases hfirst : stepW k log with ⟨e | first, log₁⟩
    · rw [hfirst] at h
      cases h
    simp only [hfirst] at h
    rcases hrest : walkAll stepW rest log₁ with ⟨e | more, log₂⟩
    · rw [hrest] at h
      cases h
    rw [hrest] at h
    cases h
    have hk := hstep k mem_cons_self log first log₁ hfirst
    have hmore := ih (fun k hk => hstep k (mem_cons_of_mem _ hk)) hrest
    unfold Finds at hk ⊢
    rw [findSome?_append, seekAll]
    cases hanswered : first.findSome? answer with
    | some b =>
      rw [hanswered] at hk
      rcases hs : stepS k log with ⟨r, log₃⟩
      rw [hs] at hk
      obtain rfl : r = b := hk
      cases r with
      | ok b => rfl
      | error e =>
        -- an answer is not taken for a missing one
        obtain ⟨a, -, ha⟩ := exists_of_findSome?_eq_some hanswered
        simp [hanswer a e ha]
    | none =>
      rw [hanswered] at hk
      rw [show stepS k log = _ from hk]
      simp only [hmissing, if_true]
      exact hmore

theorem seek_of_walk [DecidableEq κ] {missing : ε} {isMissing : ε → Bool}
    {answer : α → Option (Except ε β)} (hmissing : isMissing missing = true)
    (hanswer : ∀ a e, answer a = some (.error e) → isMissing e = false) {g' : Graph ε κ α}
    {found : List α} {log' : Log κ} (hagree : AgreeBelow g g' k)
    (h : walk g left depth k log = (.ok found, log')) :
    Finds found answer missing log' (seek g' missing isMissing answer left depth k log) := by
  induction left generalizing depth k log found log' with
  | zero =>
    rw [walk] at h
    rw [seek, hagree.skip]
    split at h
    · rename_i hskip
      cases h
      rw [if_pos hskip]
      rfl
    · cases h
  | succ left ih =>
    rw [walk] at h
    rw [seek, hagree.skip]
    split at h
    · rename_i hskip
      cases h
      rw [if_pos hskip]
      rfl
    rename_i hskip
    rw [if_neg hskip]
    split at h
    · cases h
    rename_i hnew
    rw [if_neg hnew]
    have hself : Reached g k k := .self (by simpa using hskip)
    dsimp only at h ⊢
    rw [hagree.view k hself]
    rcases hview : g.view k with e | ⟨entries⟩ | ⟨children⟩
    · rw [hview] at h
      cases h
    · rw [hview] at h
      cases h
      unfold Finds
      dsimp only
      cases found.findSome? answer <;> rfl
    · rw [hview] at h
      refine finds_seekAll hmissing hanswer (fun c hc log found log' hwalk => ih ?_ hwalk) h
      exact ⟨hagree.skip, fun b hb => hagree.view b (.child (by simpa using hskip) hview hc hb)⟩

end Foundations.GuardedWalk
