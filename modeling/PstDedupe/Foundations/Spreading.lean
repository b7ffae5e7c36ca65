import Mathlib

/-!
# Marks that spread from parents to children

A loop goes over the nodes in rounds, pushes every child whose parent was marked when the round
began, and ends with a round that changes nothing.
-/

namespace Foundations

open List Function

structure Marks (V : Type*) where
  marked : V → Bool
  push : V → V
  settled : V → Bool
  marked_push : ∀ v, marked (push v) = true
  settled_push : ∀ v, settled (push v) = true
  push_of_settled : ∀ v, settled v = true → push v = v

section Spreading

variable {K V : Type*} [DecidableEq K] (m : Marks V)

/-- One node of a round. `start` is the table when the round began. -/
def spreadStep (start : K → V) (acc : (K → V) × Bool) (node : K × Option K) : (K → V) × Bool :=
  match node.2 with
  | none => acc
  | some parent =>
    if m.marked (start parent) && !m.settled (acc.1 node.1) then
      (update acc.1 node.1 (m.push (acc.1 node.1)), true)
    else acc

def spreadRound (nodes : List (K × Option K)) (d : K → V) : (K → V) × Bool :=
  nodes.foldl (spreadStep m d) (d, false)

/-- Rounds until one changes nothing, `n` at most. -/
def spreadLoop (nodes : List (K × Option K)) : Nat → (K → V) → (K → V)
  | 0, d => d
  | n + 1, d =>
    let r := spreadRound m nodes d
    if r.2 then spreadLoop nodes n r.1 else r.1

inductive Reached (nodes : List (K × Option K)) (d : K → V) : K → Prop
  | marked {k : K} : m.marked (d k) = true → Reached nodes d k
  | link {k p : K} : (k, some p) ∈ nodes → Reached nodes d p → Reached nodes d k

def Pushed (nodes : List (K × Option K)) (d : K → V) (k : K) : Prop :=
  ∃ p, (k, some p) ∈ nodes ∧ Reached m nodes d p

open Classical in
noncomputable def spread (nodes : List (K × Option K)) (d : K → V) (k : K) : V :=
  if Pushed m nodes d k then m.push (d k) else d k

variable {m} {nodes : List (K × Option K)} {d e : K → V} {k : K}

theorem Marks.push_push (m : Marks V) (v : V) : m.push (m.push v) = m.push v :=
  m.push_of_settled _ (m.settled_push v)

omit [DecidableEq K] in
theorem spread_of_pushed (h : Pushed m nodes d k) : spread m nodes d k = m.push (d k) := if_pos h

omit [DecidableEq K] in
theorem spread_of_not_pushed (h : ¬ Pushed m nodes d k) : spread m nodes d k = d k := if_neg h

omit [DecidableEq K] in
theorem reached_of_between (he : ∀ k, e k = d k ∨ e k = spread m nodes d k)
    (h : Reached m nodes e k) : Reached m nodes d k := by
  induction h with
  | @marked k hk =>
    by_cases hp : Pushed m nodes d k
    · obtain ⟨p, hlink, hreached⟩ := hp
      exact .link hlink hreached
    · have hsame : e k = d k := (he k).elim id fun h => h.trans (spread_of_not_pushed hp)
      exact .marked (hsame ▸ hk)
  | link hlink _ ih => exact .link hlink ih

omit [DecidableEq K] in
theorem Reached.of_between (he : ∀ k, e k = d k ∨ e k = spread m nodes d k)
    (h : Reached m nodes d k) : Reached m nodes e k := by
  induction h with
  | @marked k hk =>
    rcases he k with heq | heq
    · exact .marked (heq ▸ hk)
    · refine .marked ?_
      rw [heq]
      by_cases hp : Pushed m nodes d k
      · rw [spread_of_pushed hp]
        exact m.marked_push _
      · rwa [spread_of_not_pushed hp]
  | link hlink _ ih => exact .link hlink ih

omit [DecidableEq K] in
theorem spread_of_between (he : ∀ k, e k = d k ∨ e k = spread m nodes d k) :
    spread m nodes e = spread m nodes d := by
  have hpushed : ∀ k, Pushed m nodes e k ↔ Pushed m nodes d k := fun k =>
    exists_congr fun p => and_congr_right fun _ => ⟨reached_of_between he, Reached.of_between he⟩
  funext k
  by_cases hp : Pushed m nodes d k
  · rw [spread_of_pushed ((hpushed k).mpr hp)]
    rcases he k with heq | heq
    · rw [heq, spread_of_pushed hp]
    · rw [heq, spread_of_pushed hp, m.push_push]
  · rw [spread_of_not_pushed fun h => hp ((hpushed k).mp h)]
    exact (he k).elim (fun heq => heq.trans (spread_of_not_pushed hp).symm) id

def Exposed (m : Marks V) (nodes : List (K × Option K)) (d : K → V) (k : K) : Prop :=
  ∃ p, (k, some p) ∈ nodes ∧ m.marked (d p) = true

omit [DecidableEq K] in
theorem Exposed.pushed (h : Exposed m nodes d k) : Pushed m nodes d k := by
  obtain ⟨p, hlink, hp⟩ := h
  exact ⟨p, hlink, .marked hp⟩

omit [DecidableEq K] in
theorem exposed_cons {node : K × Option K} : Exposed m (node :: nodes) d k ↔
    (∃ p, node = (k, some p) ∧ m.marked (d p) = true) ∨ Exposed m nodes d k := by
  unfold Exposed
  simp only [mem_cons, or_and_right, exists_or, eq_comm]

theorem foldl_spreadStep (start : K → V) (nodes : List (K × Option K)) (acc : (K → V) × Bool) (k : K) :
    (Exposed m nodes start k → (nodes.foldl (spreadStep m start) acc).1 k = m.push (acc.1 k)) ∧
    (¬ Exposed m nodes start k → (nodes.foldl (spreadStep m start) acc).1 k = acc.1 k) := by
  induction nodes generalizing acc with
  | nil => exact ⟨fun ⟨_, h, _⟩ => absurd h not_mem_nil, fun _ => rfl⟩
  | cons node nodes ih =>
    obtain ⟨k', parent⟩ := node
    rw [foldl_cons, exposed_cons]
    -- the first node counts for `k` only when it is `k`, with a marked parent
    have hstep : (spreadStep m start acc (k', parent)).1 k
        = if k' = k ∧ (parent.any fun p => m.marked (start p)) then m.push (acc.1 k) else acc.1 k := by
      unfold spreadStep
      cases parent with
      | none => rw [if_neg (by simp)]
      | some p =>
        dsimp only [Option.any_some]
        by_cases hp : m.marked (start p) = true
        · by_cases hs : m.settled (acc.1 k') = true
          · rw [if_neg (by simp [hs])]
            split
            next h => exact (m.push_of_settled _ (h.1 ▸ hs)).symm
            next => rfl
          · rw [if_pos (by simp [hp, hs])]
            by_cases hk : k' = k
            · subst hk
              rw [if_pos ⟨rfl, hp⟩]
              exact update_self k' _ _
            · rw [if_neg fun h => hk h.1]
              exact update_of_ne (Ne.symm hk) _ _
        · rw [if_neg (by simp [hp]), if_neg fun h => hp h.2]
    obtain ⟨hexposed, hnot⟩ := ih (spreadStep m start acc (k', parent))
    have hfirst : (∃ p, (k', parent) = (k, some p) ∧ m.marked (start p) = true) ↔
        k' = k ∧ (parent.any fun p => m.marked (start p)) = true := by
      cases parent <;> simp
    rw [hfirst]
    constructor
    · intro h
      by_cases hrest : Exposed m nodes start k
      · rw [hexposed hrest, hstep]
        split
        · exact m.push_push _
        · rfl
      · rw [hnot hrest, hstep, if_pos (h.resolve_right hrest)]
    · intro h
      rw [hnot fun hrest => h (.inr hrest), hstep, if_neg fun hf => h (.inl hf)]

theorem foldl_spreadStep_unchanged (start : K → V) (nodes : List (K × Option K))
    (acc : (K → V) × Bool) : (nodes.foldl (spreadStep m start) acc).2 = false ↔
      acc.2 = false ∧ ∀ k, Exposed m nodes start k → m.settled (acc.1 k) = true := by
  induction nodes generalizing acc with
  | nil => exact ⟨fun h => ⟨h, fun _ ⟨_, hmem, _⟩ => absurd hmem not_mem_nil⟩, fun h => h.1⟩
  | cons node nodes ih =>
    obtain ⟨k', parent⟩ := node
    rw [foldl_cons, ih]
    cases parent with
    | none =>
      have hnone : ∀ k, Exposed m ((k', none) :: nodes) start k ↔ Exposed m nodes start k := fun k => by
        simp [exposed_cons]
      simp only [hnone]
      exact Iff.rfl
    | some p =>
      unfold spreadStep
      dsimp only
      split
      next h =>
        -- a write
        obtain ⟨hp, hs⟩ := Bool.and_eq_true_iff.mp h
        refine iff_of_false (fun h => nomatch h.1) fun h => ?_
        have hsettled := h.2 k' (exposed_cons.mpr (.inl ⟨p, rfl, hp⟩))
        rw [hsettled] at hs
        exact absurd hs (by simp)
      next h =>
        refine and_congr_right fun _ => ?_
        constructor
        · intro hrest k hk
          rcases exposed_cons.mp hk with ⟨p', heq, hp⟩ | hk
          · cases heq
            simpa [hp] using h
          · exact hrest k hk
        · exact fun hall k hk => hall k (exposed_cons.mpr (.inr hk))

theorem spreadRound_between (nodes : List (K × Option K)) (d : K → V) (k : K) :
    (spreadRound m nodes d).1 k = d k ∨ (spreadRound m nodes d).1 k = spread m nodes d k := by
  obtain ⟨hexposed, hnot⟩ := foldl_spreadStep (m := m) d nodes (d, false) k
  by_cases h : Exposed m nodes d k
  · right
    rw [spread_of_pushed h.pushed]
    exact hexposed h
  · left
    exact hnot h

theorem spreadRound_of_unchanged (h : (spreadRound m nodes d).2 = false) :
    (spreadRound m nodes d).1 = spread m nodes d := by
  have hsettled : ∀ k, Exposed m nodes d k → m.settled (d k) = true :=
    ((foldl_spreadStep_unchanged d nodes (d, false)).mp h).2
  -- the marked nodes are closed under the links
  have hclosed : ∀ k, Reached m nodes d k → m.marked (d k) = true := by
    intro k hk
    induction hk with
    | marked hk => exact hk
    | @link k p hlink _ ih =>
      rw [← m.push_of_settled _ (hsettled k ⟨p, hlink, ih⟩)]
      exact m.marked_push _
  funext k
  rcases spreadRound_between (m := m) nodes d k with heq | heq
  · rw [heq]
    by_cases hp : Pushed m nodes d k
    · obtain ⟨p, hlink, hreached⟩ := hp
      rw [spread_of_pushed ⟨p, hlink, hreached⟩,
        m.push_of_settled _ (hsettled k ⟨p, hlink, hclosed p hreached⟩)]
    · rw [spread_of_not_pushed hp]
  · exact heq

def unsettled (m : Marks V) (nodes : List (K × Option K)) (d : K → V) : Nat :=
  nodes.countP fun node => !m.settled (d node.1)

omit [DecidableEq K] in
theorem unsettled_lt {k : K} {parent : Option K} (hmem : (k, parent) ∈ nodes) (hd : m.settled (d k) = false)
    (he : m.settled (e k) = true) (hmono : ∀ k, m.settled (d k) = true → m.settled (e k) = true) :
    unsettled m nodes e < unsettled m nodes d := by
  obtain ⟨before, after, rfl⟩ := append_of_mem hmem
  have hle : ∀ l : List (K × Option K), unsettled m l e ≤ unsettled m l d := fun l =>
    countP_mono_left fun node _ hnode => by
      have := hmono node.1
      revert hnode this
      cases m.settled (e node.1) <;> cases m.settled (d node.1) <;> simp
  have hbefore := hle before
  have hafter := hle after
  unfold unsettled at *
  rw [countP_append, countP_cons, countP_append, countP_cons, if_neg (by simp [he]),
    if_pos (by simp [hd])]
  omega

theorem unsettled_spreadRound (h : (spreadRound m nodes d).2 = true) :
    unsettled m nodes (spreadRound m nodes d).1 < unsettled m nodes d := by
  have hnot : ¬ ∀ k, Exposed m nodes d k → m.settled (d k) = true := by
    intro hall
    have hfalse : (spreadRound m nodes d).2 = false :=
      (foldl_spreadStep_unchanged d nodes (d, false)).mpr ⟨rfl, hall⟩
    rw [h] at hfalse
    cases hfalse
  simp only [not_forall] at hnot
  obtain ⟨k, hexposed, hk⟩ := hnot
  obtain ⟨p, hmem, hp⟩ := hexposed
  refine unsettled_lt hmem (by simpa using hk) ?_ fun k hk => ?_
  · have hpush : (spreadRound m nodes d).1 k = m.push (d k) :=
      (foldl_spreadStep d nodes (d, false) k).1 ⟨p, hmem, hp⟩
    rw [hpush]
    exact m.settled_push _
  · by_cases hexp : Exposed m nodes d k
    · have hpush : (spreadRound m nodes d).1 k = m.push (d k) := (foldl_spreadStep d nodes (d, false) k).1 hexp
      rw [hpush]
      exact m.settled_push _
    · have hsame : (spreadRound m nodes d).1 k = d k := (foldl_spreadStep d nodes (d, false) k).2 hexp
      rwa [hsame]

theorem spreadLoop_eq {n : Nat} (hn : nodes.length < n) (d : K → V) :
    spreadLoop m nodes n d = spread m nodes d := by
  have hloop : ∀ (n : Nat) (d : K → V), unsettled m nodes d < n →
      spreadLoop m nodes n d = spread m nodes d := by
    intro n
    induction n with
    | zero => exact fun d h => absurd h (Nat.not_lt_zero _)
    | succ n ih =>
      intro d h
      unfold spreadLoop
      dsimp only
      split
      next hchanged =>
        have hlt := unsettled_spreadRound hchanged
        rw [ih _ (by omega)]
        exact spread_of_between (spreadRound_between nodes d)
      next hsame => exact spreadRound_of_unchanged (by simpa using hsame)
  exact hloop n d (Nat.lt_of_le_of_lt countP_le_length hn)

end Spreading

end Foundations
