import PstDedupe.Rust.Std

/-!
# Loops over the groups of a map

A loop over a map of groups (`for (key, members) in groups`) that writes only to the positions of
the group at hand.
-/

namespace Rust

open List Option Prod

variable {K V σ : Type}

namespace HashMap

variable [DecidableEq K]

/-- `for (k, v) in map`, in the order of the process's `RandomState`. -/
def iter [RandomState] (m : HashMap K V) : List (K × V) :=
  RandomState.visit (m.entries.map fun e => (e.1, e.2))

theorem mem_iter [RandomState] {m : HashMap K V} {k : K} {v : V} : (k, v) ∈ m.iter ↔ m.get k = some v := by
  rw [iter, (RandomState.visit_perm _).mem_iff, List.mem_map]
  constructor
  · rintro ⟨e, he, heq⟩
    cases heq
    exact AList.mem_lookup_iff.mpr he
  · intro h
    exact ⟨⟨k, v⟩, AList.mem_lookup_iff.mp h, rfl⟩

omit [DecidableEq K] in
theorem nodup_keys_iter [RandomState] (m : HashMap K V) : (m.iter.map fst).Nodup := by
  have hperm : (m.iter.map fst).Perm (m.entries.map Sigma.fst) := by
    rw [show m.entries.map Sigma.fst = (m.entries.map fun e => (e.1, e.2)).map fst by
      rw [List.map_map]; rfl]
    exact (RandomState.visit_perm _).map fst
  exact hperm.nodup_iff.mpr m.nodupKeys

end HashMap

/-- The positions with the key `k`. -/
def positions [DecidableEq K] (keys : List (Option K)) (k : K) : List Nat :=
  (range keys.length).filter fun i => decide (keys[i]? = some (some k))

theorem mem_positions [DecidableEq K] {keys : List (Option K)} {k : K} {i : Nat} :
    i ∈ positions keys k ↔ keys[i]? = some (some k) := by
  rw [positions, mem_filter, decide_eq_true_eq, mem_range]
  exact and_iff_right_of_imp fun h => (List.getElem?_eq_some_iff.mp h).1

theorem getD_get_collectBy [DecidableEq K] (keys : List (Option K)) (k : K) :
    ((collectBy id keys).get k).getD [] = positions keys k := by
  rw [get_collectBy]
  apply filter_congr
  intro i _
  congr 1
  apply propext
  show (keys[i]?.bind id) = some k ↔ _
  cases keys[i]? with
  | none => simp
  | some key => simp

theorem eq_positions_of_mem_iter [DecidableEq K] [RandomState] {keys : List (Option K)}
    {g : K × List Nat} (h : g ∈ (collectBy id keys).iter) : g.2 = positions keys g.1 := by
  rw [← getD_get_collectBy, HashMap.mem_iter.mp h, getD_some]

theorem positions_mem_iter [DecidableEq K] [RandomState] {keys : List (Option K)} {k : K} {i : Nat}
    (h : keys[i]? = some (some k)) : (k, positions keys k) ∈ (collectBy id keys).iter := by
  rw [HashMap.mem_iter]
  have hget := getD_get_collectBy keys k
  cases hstored : (collectBy id keys).get k with
  | none =>
    rw [hstored, getD_none] at hget
    have hmem := mem_positions.mpr h
    rw [← hget] at hmem
    cases hmem
  | some stored =>
    rw [hstored, getD_some] at hget
    rw [hget]

/-- What a loop over groups leaves behind, when the work on a group writes `value` to its own
positions, finds them blank and touches no others. Induction on the groups. -/
theorem foldlM_groups (keyAt : Nat → Option K) (value : K × List Nat → Nat → σ)
    {step : List σ → K × List Nat → Option (List σ)} {blank : σ} {groups : List (K × List Nat)}
    (hnodup : (groups.map fst).Nodup)
    (hkey : ∀ g ∈ groups, ∀ i ∈ g.2, keyAt i = some g.1)
    (hstep : ∀ g ∈ groups, ∀ s : List σ, (∀ i ∈ g.2, s[i]? = some blank) →
      ∃ s', step s g = some s' ∧ (∀ i ∈ g.2, s'[i]? = some (value g i)) ∧ ∀ i, i ∉ g.2 → s'[i]? = s[i]?)
    {s : List σ} (hblank : ∀ g ∈ groups, ∀ i ∈ g.2, s[i]? = some blank) :
    ∃ s', groups.foldlM step s = some s' ∧ (∀ g ∈ groups, ∀ i ∈ g.2, s'[i]? = some (value g i)) ∧
      ∀ i, (∀ g ∈ groups, i ∉ g.2) → s'[i]? = s[i]? := by
  induction groups generalizing s with
  | nil =>
    refine ⟨s, rfl, ?_, fun _ _ => rfl⟩
    intro g hg
    cases hg
  | cons g rest ih =>
    rw [map_cons, nodup_cons] at hnodup
    obtain ⟨s₁, hrun, hwrite, hframe⟩ := hstep g mem_cons_self s (hblank g mem_cons_self)
    -- the later groups have other keys, so other positions
    have hapart : ∀ g' ∈ rest, ∀ i ∈ g'.2, i ∉ g.2 := by
      intro g' hg' i hi hmem
      have hsame := (hkey g' (mem_cons_of_mem _ hg') i hi).symm.trans (hkey g mem_cons_self i hmem)
      apply hnodup.1
      rw [← Option.some.inj hsame]
      exact List.mem_map_of_mem hg'
    obtain ⟨s', hruns, hwrites, hframes⟩ := ih hnodup.2 (fun g' hg' => hkey g' (mem_cons_of_mem _ hg'))
      (fun g' hg' => hstep g' (mem_cons_of_mem _ hg')) (s := s₁) (by
        intro g' hg' i hi
        rw [hframe i (hapart g' hg' i hi)]
        exact hblank g' (mem_cons_of_mem _ hg') i hi)
    refine ⟨s', ?_, ?_, ?_⟩
    · rw [foldlM_cons, hrun]
      exact hruns
    · intro g' hg' i hi
      rcases List.mem_cons.mp hg' with rfl | hg'
      · rw [hframes i fun g'' hg'' hmem => hapart g'' hg'' i hmem hi]
        exact hwrite i hi
      · exact hwrites g' hg' i hi
    · intro i hi
      rw [hframes i fun g' hg' => hi g' (mem_cons_of_mem _ hg')]
      exact hframe i (hi g mem_cons_self)

theorem length_foldl_set (members : List Nat) (write : Nat → Bool) (v : σ) (s : List σ) :
    (members.foldl (fun s i => if write i then s.set i v else s) s).length = s.length := by
  induction members generalizing s with
  | nil => rfl
  | cons m members ih =>
    rw [foldl_cons, ih]
    split
    · exact length_set
    · rfl

theorem getElem?_foldl_set (members : List Nat) (write : Nat → Bool) (v : σ) (s : List σ)
    (i : Nat) : (members.foldl (fun s i => if write i then s.set i v else s) s)[i]? =
      if i ∈ members ∧ write i ∧ i < s.length then some v else s[i]? := by
  induction members generalizing s with
  | nil => simp
  | cons m members ih =>
    rw [foldl_cons, ih]
    by_cases hm : write m
    · rw [if_pos hm, length_set, getElem?_set]
      by_cases hi : m = i
      · subst hi
        by_cases hlt : m < s.length
        · simp [hm, hlt]
        · simp [hm, hlt]
      · simp [hi, Ne.symm hi]
    · rw [if_neg hm]
      by_cases hi : i = m
      · subst hi
        simp [hm]
      · simp [hi]

end Rust
