import Mathlib

/-!
# Counted loops and the partition they build

Two general pieces that name nothing of the repository.
-/

namespace Foundations

open List Option

variable {α β σ τ : Type*}

/-- Fold `f` over `xs` with the position of each element. -/
def enumFold (f : σ → Nat → α → σ) (s : σ) (xs : List α) : σ :=
  xs.zipIdx.foldl (fun s p => f s p.2 p.1) s

theorem enumFold_concat (f : σ → Nat → α → σ) (s : σ) (xs : List α) (x : α) :
    enumFold f s (xs ++ [x]) = f (enumFold f s xs) xs.length x := by
  simp [enumFold, zipIdx_append]

theorem enumFold_take_succ (f : σ → Nat → α → σ) (s : σ) {xs : List α} {n : Nat} {x : α}
    (hx : xs[n]? = some x) : enumFold f s (xs.take (n + 1)) = f (enumFold f s (xs.take n)) n x := by
  have hlt : n < xs.length := (List.getElem?_eq_some_iff.mp hx).1
  have htake : xs.take (n + 1) = xs.take n ++ [x] := by
    rw [take_add_one, hx]
    rfl
  rw [htake, enumFold_concat, length_take_of_le (by omega)]

/-- The run lemma with the state spelled out: what holds before element `n` is about the fold over
the first `n` elements. Induction on the processed prefix. -/
theorem enumFold_take_induction {f : σ → Nat → α → σ} {s : σ} {xs : List α} {P : Nat → σ → Prop}
    (hzero : P 0 s)
    (hstep : ∀ n x, xs[n]? = some x → P n (enumFold f s (xs.take n)) →
      P (n + 1) (enumFold f s (xs.take (n + 1)))) : ∀ n ≤ xs.length, P n (enumFold f s (xs.take n)) := by
  intro n
  induction n with
  | zero => intro _; simpa [enumFold] using hzero
  | succ n ih =>
    intro hn
    exact hstep n _ (getElem?_eq_getElem hn) (ih (by omega))

theorem enumFold_induction {f : σ → Nat → α → σ} {s : σ} {xs : List α} {P : Nat → σ → Prop}
    (hzero : P 0 s)
    (hstep : ∀ i x t, xs[i]? = some x → P i t → P (i + 1) (f t i x)) : P xs.length (enumFold f s xs) := by
  have hrun := enumFold_take_induction hzero (fun n x hx h => by
    rw [enumFold_take_succ f s hx]
    exact hstep n x _ hx h) xs.length le_rfl
  rwa [take_length] at hrun

theorem enumFold_induction₂ {f : σ → Nat → α → σ} {g : τ → Nat → α → τ} {s : σ} {t : τ}
    {xs : List α} {P : Nat → σ → τ → Prop} (hzero : P 0 s t)
    (hstep : ∀ i x a b, xs[i]? = some x → P i a b → P (i + 1) (f a i x) (g b i x)) :
    P xs.length (enumFold f s xs) (enumFold g t xs) := by
  have key : ∀ (ys : List (α × Nat)) (a : σ) (b : τ),
      ys.foldl (fun (p : σ × τ) y => (f p.1 y.2 y.1, g p.2 y.2 y.1)) (a, b)
        = (ys.foldl (fun p y => f p y.2 y.1) a, ys.foldl (fun p y => g p y.2 y.1) b) := by
    intro ys
    induction ys with
    | nil => intro a b; rfl
    | cons y ys ih => intro a b; exact ih _ _
  have hrun : (fun n (p : σ × τ) => P n p.1 p.2) xs.length
      (enumFold (fun (p : σ × τ) i x => (f p.1 i x, g p.2 i x)) (s, t) xs) :=
    enumFold_induction hzero fun i x (p : σ × τ) hx hp => hstep i x p.1 p.2 hx hp
  simpa only [enumFold, key] using hrun

theorem foldl_counter (f : σ → α → σ) (count : σ → Nat) (p : α → Bool)
    (hstep : ∀ s x, count (f s x) = count s + if p x then 1 else 0) (xs : List α) (s : σ) :
    count (xs.foldl f s) = count s + xs.countP p := by
  induction xs generalizing s with
  | nil => rfl
  | cons x xs ih =>
    rw [foldl_cons, ih, hstep, countP_cons]
    omega

/-- The loop `for i in is { xs[i] = f(i) }`. -/
def setAll (is : List Nat) (f : Nat → α) (xs : List α) : List α :=
  is.foldl (fun acc i => acc.set i (f i)) xs

theorem getElem?_setAll (is : List Nat) (f : Nat → α) (xs : List α) (j : Nat) :
    (setAll is f xs)[j]? = if j ∈ is ∧ j < xs.length then some (f j) else xs[j]? := by
  unfold setAll
  induction is generalizing xs with
  | nil => simp
  | cons i is ih =>
    rw [foldl_cons, ih, length_set]
    by_cases hj : j < xs.length
    · by_cases hji : j = i
      · subst hji; simp [hj]
      · rw [getElem?_set_ne (fun h => hji h.symm)]
        simp [hj, hji]
    · simp [hj]

@[simp] theorem length_setAll (is : List Nat) (f : Nat → α) (xs : List α) :
    (setAll is f xs).length = xs.length := by
  unfold setAll
  induction is generalizing xs with
  | nil => rfl
  | cons i is ih => rw [foldl_cons, ih, length_set]

/-- The buckets hold every index below `n` exactly once, in ascending order, and none is empty. -/
structure ScanPartition (gs : List (List Nat)) (n : Nat) : Prop where
  cover : gs.flatten.Perm (range n)
  ordered : ∀ g ∈ gs, g.Pairwise (· < ·)
  nonempty : ∀ g ∈ gs, g ≠ []

/-- Put index `i` into bucket `k`, or open a bucket of its own. -/
def place (gs : List (List Nat)) (i : Nat) : Option Nat → List (List Nat)
  | some k => gs.modify k (· ++ [i])
  | none => gs ++ [[i]]

theorem mem_place_some {gs : List (List Nat)} {i k : Nat} {g : List Nat}
    (h : g ∈ place gs i (some k)) : g ∈ gs ∨ ∃ g₀, gs[k]? = some g₀ ∧ g = g₀ ++ [i] := by
  obtain ⟨j, hj⟩ := List.mem_iff_getElem?.mp h
  rw [place, getElem?_modify] at hj
  obtain ⟨g₀, hg₀, rfl⟩ := Option.map_eq_some_iff.mp hj
  by_cases hkj : k = j
  · subst hkj; exact Or.inr ⟨g₀, hg₀, by simp⟩
  · simp only [hkj, if_false]; exact Or.inl (mem_of_getElem? hg₀)

theorem map_modify {f : α → α} {g : β → β} {p : α → β} (h : ∀ x, p (f x) = g (p x)) (l : List α)
    (k : Nat) : (l.modify k f).map p = (l.map p).modify k g := by
  apply ext_getElem?
  intro j
  simp only [getElem?_map, getElem?_modify]
  cases l[j]? with
  | none => rfl
  | some x => by_cases hj : k = j <;> simp [hj, h]

theorem flatten_modify_append_perm {gs : List (List α)} {k : Nat} (hk : k < gs.length)
    (xs : List α) : (gs.modify k (· ++ xs)).flatten.Perm (gs.flatten ++ xs) := by
  induction gs generalizing k with
  | nil => simp at hk
  | cons g gs ih =>
    cases k with
    | zero =>
      simp only [modify_zero_cons, flatten_cons, append_assoc]
      exact Perm.append_left g perm_append_comm
    | succ k =>
      simp only [modify_succ_cons, flatten_cons, append_assoc]
      exact Perm.append_left g (ih (by simpa using hk))

namespace ScanPartition

variable {gs : List (List Nat)} {n : Nat}

theorem nil : ScanPartition [] 0 := ⟨by simp, by simp, by simp⟩

theorem lt_of_mem (h : ScanPartition gs n) {g : List Nat} (hg : g ∈ gs) {i : Nat} (hi : i ∈ g) : i < n := by
  have : i ∈ gs.flatten := List.mem_flatten.mpr ⟨g, hg, hi⟩
  exact List.mem_range.mp (h.cover.mem_iff.mp this)

theorem exists_mem (h : ScanPartition gs n) {i : Nat} (hi : i < n) : ∃ g ∈ gs, i ∈ g :=
  List.mem_flatten.mp (h.cover.mem_iff.mpr (List.mem_range.mpr hi))

theorem nodup_flatten (h : ScanPartition gs n) : gs.flatten.Nodup :=
  h.cover.nodup_iff.mpr nodup_range

theorem pairwise_disjoint (h : ScanPartition gs n) : gs.Pairwise List.Disjoint :=
  (List.nodup_flatten.mp h.nodup_flatten).2

theorem place_eq_of_mem (h : ScanPartition gs n) {a b : Nat} {g g' : List Nat}
    (ha : gs[a]? = some g) (hb : gs[b]? = some g') {i : Nat} (hi : i ∈ g) (hi' : i ∈ g') : a = b := by
  obtain ⟨hla, rfl⟩ := List.getElem?_eq_some_iff.mp ha
  obtain ⟨hlb, rfl⟩ := List.getElem?_eq_some_iff.mp hb
  have hdis := List.pairwise_iff_getElem.mp h.pairwise_disjoint
  rcases Nat.lt_trichotomy a b with hab | hab | hab
  · exact absurd hi' (hdis a b hla hlb hab hi)
  · exact hab
  · exact absurd hi (hdis b a hlb hla hab hi')

theorem eq_of_mem (h : ScanPartition gs n) {g g' : List Nat} (hg : g ∈ gs) (hg' : g' ∈ gs) {i : Nat}
    (hi : i ∈ g) (hi' : i ∈ g') : g = g' := by
  obtain ⟨a, ha⟩ := List.mem_iff_getElem?.mp hg
  obtain ⟨b, hb⟩ := List.mem_iff_getElem?.mp hg'
  obtain rfl := h.place_eq_of_mem ha hb hi hi'
  exact Option.some.inj (ha.symm.trans hb)

theorem subdivides_iff {gs' : List (List Nat)} (h : ScanPartition gs n) (h' : ScanPartition gs' n) :
    (∀ g ∈ gs, ∃ g' ∈ gs', g ⊆ g') ↔ ∀ i j, (∃ g ∈ gs, i ∈ g ∧ j ∈ g) → ∃ g' ∈ gs', i ∈ g' ∧ j ∈ g' := by
  constructor
  · rintro hsub i j ⟨g, hg, hi, hj⟩
    obtain ⟨g', hg', hgg'⟩ := hsub g hg
    exact ⟨g', hg', hgg' hi, hgg' hj⟩
  · intro hshare g hg
    obtain ⟨i, hi⟩ := exists_mem_of_ne_nil g (h.nonempty g hg)
    obtain ⟨g', hg', hi', _⟩ := hshare i i ⟨g, hg, hi, hi⟩
    refine ⟨g', hg', fun j hj => ?_⟩
    obtain ⟨g'', hg'', hi'', hj''⟩ := hshare i j ⟨g, hg, hi, hj⟩
    rwa [h'.eq_of_mem hg' hg'' hi' hi'']

theorem place_none (h : ScanPartition gs n) : ScanPartition (place gs n none) (n + 1) where
  cover := by
    rw [place, flatten_append, range_succ]
    simpa using h.cover.append_right [n]
  ordered := by
    intro g hg
    rcases List.mem_append.mp hg with hg | hg
    · exact h.ordered g hg
    · simp at hg; simp [hg]
  nonempty := by
    intro g hg
    rcases List.mem_append.mp hg with hg | hg
    · exact h.nonempty g hg
    · simp at hg; simp [hg]

theorem place_some (h : ScanPartition gs n) {k : Nat} (hk : k < gs.length) :
    ScanPartition (place gs n (some k)) (n + 1) where
  cover := by
    rw [range_succ]
    exact (flatten_modify_append_perm hk [n]).trans (h.cover.append_right [n])
  ordered := by
    intro g hg
    rcases mem_place_some hg with hg | ⟨g₀, hg₀, rfl⟩
    · exact h.ordered g hg
    · have hmem := mem_of_getElem? hg₀
      rw [pairwise_append]
      refine ⟨h.ordered g₀ hmem, by simp, ?_⟩
      intro a ha b hb
      rw [List.mem_singleton.mp hb]
      exact h.lt_of_mem hmem ha
  nonempty := by
    intro g hg
    rcases mem_place_some hg with hg | ⟨g₀, _, rfl⟩
    · exact h.nonempty g hg
    · simp

end ScanPartition

/-- Index `i` stands in bucket `x`. -/
def At (gs : List (List Nat)) (x i : Nat) : Prop := ∃ g, gs[x]? = some g ∧ i ∈ g

/-- Two indices stand in one bucket iff `R` relates them. -/
def ScanClasses (gs : List (List Nat)) (R : Nat → Nat → Prop) : Prop :=
  ∀ x y i j, At gs x i → At gs y j → (x = y ↔ R i j)

section Classes

variable {gs : List (List Nat)} {R : Nat → Nat → Prop} {i k n x : Nat} {t : Option Nat}

theorem At.lt_length (h : At gs x i) : x < gs.length := by
  obtain ⟨g, hg, _⟩ := h
  exact (List.getElem?_eq_some_iff.mp hg).1

theorem at_place (hk : ∀ k, t = some k → k < gs.length) :
    At (place gs n t) x i ↔ At gs x i ∨ (x = t.getD gs.length ∧ i = n) := by
  unfold At
  cases t with
  | none =>
    rw [place, getD_none]
    rcases Nat.lt_trichotomy x gs.length with hx | hx | hx
    · rw [getElem?_append_left hx]
      simp [Nat.ne_of_lt hx]
    · subst hx
      simp
    · have hnone : (gs ++ [[n]])[x]? = none := by
        rw [List.getElem?_eq_none_iff, length_append, length_singleton]
        omega
      simp [hnone, Nat.le_of_lt hx, Nat.ne_of_gt hx]
  | some k =>
    have hlt := hk k rfl
    rw [place, getD_some, getElem?_modify]
    by_cases hx : k = x
    · subst hx
      simp [getElem?_eq_getElem hlt]
    · have hx' : x ≠ k := fun h => hx h.symm
      simp [hx, hx']

theorem ScanClasses.place (h : ScanClasses gs R) (hk : ∀ k, t = some k → k < gs.length)
    (hrefl : R n n) (hsymm : ∀ i j, R i j → R j i)
    (ht : ∀ x i, At gs x i → (x = t.getD gs.length ↔ R i n)) : ScanClasses (Foundations.place gs n t) R := by
  intro x y i j hi hj
  rcases (at_place hk).mp hi with hi | ⟨hx, hin⟩
  · rcases (at_place hk).mp hj with hj | ⟨hy, hjn⟩
    · exact h x y i j hi hj
    · rw [hy, hjn]
      exact ht x i hi
  · rcases (at_place hk).mp hj with hj | ⟨hy, hjn⟩
    · rw [hx, hin, eq_comm, ht y j hj]
      exact ⟨hsymm j n, hsymm n j⟩
    · simp [hx, hin, hy, hjn, hrefl]

end Classes

end Foundations
