import Mathlib

/-!
# Union-find with path halving

A union-find forest over an arbitrary type of elements, with union by rank and path halving, and the
one fact its users need: after uniting the endpoints of a list of edges, two elements have the same
representative iff the edges connect them.
-/

namespace Foundations

open List Function

variable {ι : Type*}

/-- Parent pointers, ranks (saturating at `255`), and the number of successful unions so far. -/
structure UnionFind (ι : Type*) where
  parent : ι → ι
  rank : ι → Nat
  links : Nat

/-- `Climb p k x r`: following `p` from `x`, the root `r` is met after `k` steps. -/
inductive Climb (p : ι → ι) : Nat → ι → ι → Prop where
  | root {r : ι} (h : p r = r) : Climb p 0 r r
  | up {k : Nat} {x r : ι} (h : p x ≠ x) (rest : Climb p k (p x) r) : Climb p (k + 1) x r

namespace Climb

variable {p : ι → ι} {k k' : Nat} {x r r' : ι}

theorem isRoot (h : Climb p k x r) : p r = r := by
  induction h with
  | root h => exact h
  | up _ _ ih => exact ih

theorem unique (h : Climb p k x r) (h' : Climb p k' x r') : k = k' ∧ r = r' := by
  induction h generalizing k' with
  | root h =>
    cases h' with
    | root _ => exact ⟨rfl, rfl⟩
    | up hne _ => exact absurd h hne
  | up hne _ ih =>
    cases h' with
    | root h => exact absurd h hne
    | up _ rest =>
      obtain ⟨hk, hr⟩ := ih rest
      exact ⟨by omega, hr⟩

theorem parent (h : Climb p k x r) (hne : p x ≠ x) : ∃ m, k = m + 1 ∧ Climb p m (p x) r := by
  cases h with
  | root h => exact absurd h hne
  | up _ rest => exact ⟨_, rfl, rest⟩

theorem grandparent_ne (h : Climb p k x r) (hne : p x ≠ x) : p (p x) ≠ x := by
  intro hcyc
  obtain ⟨m, rfl, hm⟩ := h.parent hne
  have hne' : p (p x) ≠ p x := by rw [hcyc]; exact hne.symm
  obtain ⟨m', rfl, hm'⟩ := hm.parent hne'
  rw [hcyc] at hm'
  have := (h.unique hm').1
  omega

variable [DecidableEq ι]

theorem halve {z : ι} (hx : Climb p k' x r') (h : Climb p k z r) :
    ∃ m ≤ k, Climb (update p x (p (p x))) m z r := by
  induction h with
  | @root r h =>
    refine ⟨0, le_rfl, .root ?_⟩
    by_cases hrx : r = x
    · subst hrx; simp [h]
    · simp [hrx, h]
  | @up k z r hne rest ih =>
    obtain ⟨m, hmk, hm⟩ := ih
    by_cases hzx : z = x
    · subst hzx
      have hgp : p (p z) ≠ z := hx.grandparent_ne hne
      by_cases hroot : p (p z) = p z
      · -- The parent is the root: the pointer does not change.
        refine ⟨m + 1, by omega, .up ?_ ?_⟩
        · simpa using hgp
        · simpa [hroot] using hm
      · -- The new parent is the grandparent: one step is saved.
        have hstep : update p z (p (p z)) (p z) = p (p z) := by simp [hne]
        obtain ⟨m', rfl, hm'⟩ := hm.parent (by rw [hstep]; exact hroot)
        rw [hstep] at hm'
        refine ⟨m' + 1, by omega, .up ?_ ?_⟩
        · simpa using hgp
        · simpa using hm'
    · have hstep : update p x (p (p x)) z = p z := by simp [hzx]
      exact ⟨m + 1, by omega, .up (by rw [hstep]; exact hne) (by rw [hstep]; exact hm)⟩

theorem link {a b : ι} (ha : p a = a) (hb : p b = b) (hab : a ≠ b) (h : Climb p k x r) :
    (r = b ∧ Climb (update p b a) (k + 1) x a) ∨ (r ≠ b ∧ Climb (update p b a) k x r) := by
  induction h with
  | @root r h =>
    by_cases hrb : r = b
    · subst hrb
      refine Or.inl ⟨rfl, .up (by simpa using hab) ?_⟩
      simpa using Climb.root (p := update p r a) (by simp [hab, ha])
    · exact Or.inr ⟨hrb, .root (by simp [hrb, h])⟩
  | @up k x r hne _ ih =>
    have hxb : x ≠ b := by rintro rfl; exact hne hb
    have hstep : update p b a x = p x := by simp [hxb]
    rcases ih with ⟨hr, hc⟩ | ⟨hr, hc⟩
    · exact Or.inl ⟨hr, .up (by rw [hstep]; exact hne) (by rw [hstep]; exact hc)⟩
    · exact Or.inr ⟨hr, .up (by rw [hstep]; exact hne) (by rw [hstep]; exact hc)⟩

end Climb

namespace UnionFind

variable [DecidableEq ι]

def singletons : UnionFind ι := ⟨id, fun _ => 0, 0⟩

/-- The `find` loop: while `x` is not a root, point it at its grandparent and move there. -/
def findLoop : Nat → (ι → ι) → ι → (ι → ι) × ι
  | 0, p, x => (p, x)
  | fuel + 1, p, x =>
    if p x = x then (p, x)
    else
      let p' := update p x (p (p x))
      findLoop fuel p' (p' x)

def find (uf : UnionFind ι) (x : ι) : UnionFind ι × ι :=
  let (p, r) := findLoop uf.links uf.parent x
  ({ uf with parent := p }, r)

/-- Point the root `b` at the root `a`, and raise the rank of `a` on a tie. -/
def link (uf : UnionFind ι) (a b : ι) : UnionFind ι where
  parent := update uf.parent b a
  rank := if uf.rank a = uf.rank b then update uf.rank a (min (uf.rank a + 1) 255)
    else uf.rank
  links := uf.links + 1

/-- Merge the classes of `a` and `b`; the root of lower rank goes under the other. -/
def unite (uf : UnionFind ι) (a b : ι) : UnionFind ι :=
  let (uf, ra) := uf.find a
  let (uf, rb) := uf.find b
  if ra = rb then uf
  else if uf.rank ra < uf.rank rb then uf.link rb ra
  else uf.link ra rb

def uniteAll (uf : UnionFind ι) (edges : List (ι × ι)) : UnionFind ι :=
  edges.foldl (fun uf e => uf.unite e.1 e.2) uf

/-- The representative of `x`. -/
def root (uf : UnionFind ι) (x : ι) : ι := (uf.find x).2

/-- Every element climbs to a root within `links` steps. -/
def Wf (uf : UnionFind ι) : Prop := ∀ x, ∃ k r, k ≤ uf.links ∧ Climb uf.parent k x r

theorem findLoop_spec {fuel : Nat} {p : ι → ι} {x r : ι} {k : Nat} (hk : k ≤ fuel)
    (h : Climb p k x r) : (findLoop fuel p x).2 = r ∧
      ∀ z m r', Climb p m z r' → ∃ m' ≤ m, Climb (findLoop fuel p x).1 m' z r' := by
  induction fuel generalizing p x k with
  | zero =>
    obtain rfl : k = 0 := by omega
    cases h
    exact ⟨rfl, fun z m r' hz => ⟨m, le_rfl, hz⟩⟩
  | succ fuel ih =>
    by_cases hroot : p x = x
    · have hr : r = x := (h.unique (.root hroot)).2
      simp only [findLoop, hroot, if_true]
      exact ⟨hr.symm, fun z m r' hz => ⟨m, le_rfl, hz⟩⟩
    · simp only [findLoop, hroot, if_false]
      obtain ⟨m, hmk, hm⟩ := h.halve h
      have hne : update p x (p (p x)) x ≠ x := by
        simpa using h.grandparent_ne hroot
      obtain ⟨m', rfl, hm'⟩ := hm.parent hne
      obtain ⟨hres, hkeep⟩ := ih (by omega) hm'
      refine ⟨hres, fun z j r' hz => ?_⟩
      obtain ⟨j₁, hj₁, hz₁⟩ := h.halve hz
      obtain ⟨j₂, hj₂, hz₂⟩ := hkeep z j₁ r' hz₁
      exact ⟨j₂, by omega, hz₂⟩

theorem root_eq {uf : UnionFind ι} {x r : ι} {k : Nat} (hk : k ≤ uf.links)
    (h : Climb uf.parent k x r) : uf.root x = r :=
  (findLoop_spec hk h).1

theorem Wf.climb {uf : UnionFind ι} (h : uf.Wf) (x : ι) : ∃ k ≤ uf.links, Climb uf.parent k x (uf.root x) := by
  obtain ⟨k, r, hk, hc⟩ := h x
  exact ⟨k, hk, by rwa [root_eq hk hc]⟩

theorem Wf.find {uf : UnionFind ι} (h : uf.Wf) (x : ι) : (uf.find x).1.Wf := by
  intro z
  obtain ⟨k, hk, hc⟩ := h.climb x
  obtain ⟨j, hj, hz⟩ := h.climb z
  obtain ⟨j', hj', hz'⟩ := (findLoop_spec hk hc).2 z j _ hz
  exact ⟨j', _, Nat.le_trans hj' hj, hz'⟩

theorem root_find {uf : UnionFind ι} (h : uf.Wf) (x z : ι) : (uf.find x).1.root z = uf.root z := by
  obtain ⟨k, hk, hc⟩ := h.climb x
  obtain ⟨j, hj, hz⟩ := h.climb z
  obtain ⟨j', hj', hz'⟩ := (findLoop_spec hk hc).2 z j _ hz
  exact @root_eq _ _ (uf.find x).1 _ _ _ (Nat.le_trans hj' hj) hz'

theorem parent_root {uf : UnionFind ι} (h : uf.Wf) (x : ι) : uf.parent (uf.root x) = uf.root x := by
  obtain ⟨k, _, hc⟩ := h.climb x
  exact hc.isRoot

theorem link_spec {uf : UnionFind ι} (h : uf.Wf) {a b : ι} (ha : uf.parent a = a)
    (hb : uf.parent b = b) (hab : a ≠ b) : (uf.link a b).Wf ∧
      ∀ z, (uf.link a b).root z = if uf.root z = b then a else uf.root z := by
  have key : ∀ z, ∃ k ≤ (uf.link a b).links, Climb (uf.link a b).parent k z
      (if uf.root z = b then a else uf.root z) := by
    intro z
    obtain ⟨k, hk, hc⟩ := h.climb z
    rcases hc.link ha hb hab with ⟨hr, hc'⟩ | ⟨hr, hc'⟩
    · rw [if_pos hr]
      exact ⟨k + 1, Nat.succ_le_succ hk, hc'⟩
    · rw [if_neg hr]
      exact ⟨k, Nat.le_trans hk (Nat.le_succ _), hc'⟩
  refine ⟨fun z => ?_, fun z => ?_⟩
  · obtain ⟨k, hk, hc⟩ := key z
    exact ⟨k, _, hk, hc⟩
  · obtain ⟨k, hk, hc⟩ := key z
    exact root_eq hk hc

theorem unite_cases {uf : UnionFind ι} (h : uf.Wf) (a b : ι) : (uf.unite a b).Wf ∧
      ((uf.root a = uf.root b ∧ (uf.unite a b).links = uf.links ∧ ∀ z, (uf.unite a b).root z = uf.root z) ∨
        (uf.root a ≠ uf.root b ∧ (uf.unite a b).links = uf.links + 1 ∧
          ∃ w l, (w = uf.root a ∧ l = uf.root b ∨ w = uf.root b ∧ l = uf.root a) ∧
            ∀ z, (uf.unite a b).root z = if uf.root z = l then w else uf.root z)) := by
  have h₁ := h.find a
  have h₂ := h₁.find b
  have hra : (uf.find a).2 = uf.root a := rfl
  have hrb : ((uf.find a).1.find b).2 = uf.root b := root_find h a b
  have hroot : ∀ z, ((uf.find a).1.find b).1.root z = uf.root z := fun z => by
    rw [root_find h₁, root_find h]
  have hpar : ∀ z, ((uf.find a).1.find b).1.parent (uf.root z) = uf.root z := fun z => by
    have := parent_root h₂ z
    rwa [hroot] at this
  simp only [unite, hra, hrb]
  by_cases hab : uf.root a = uf.root b
  · simp only [if_pos hab]
    exact ⟨h₂, Or.inl ⟨hab, rfl, hroot⟩⟩
  · simp only [if_neg hab]
    split
    · -- the rank of `b`'s root is the higher one
      obtain ⟨hwf, hlink⟩ := link_spec h₂ (hpar b) (hpar a) (Ne.symm hab)
      refine ⟨hwf, Or.inr ⟨hab, rfl, _, _, Or.inr ⟨rfl, rfl⟩, fun z => ?_⟩⟩
      rw [hlink, hroot]
    · obtain ⟨hwf, hlink⟩ := link_spec h₂ (hpar a) (hpar b) hab
      refine ⟨hwf, Or.inr ⟨hab, rfl, _, _, Or.inl ⟨rfl, rfl⟩, fun z => ?_⟩⟩
      rw [hlink, hroot]

def Same (uf : UnionFind ι) (x y : ι) : Prop := uf.root x = uf.root y

theorem same_unite {uf : UnionFind ι} (h : uf.Wf) (a b x y : ι) : (uf.unite a b).Same x y ↔
      uf.Same x y ∨ (uf.Same x a ∧ uf.Same y b) ∨ (uf.Same x b ∧ uf.Same y a) := by
  unfold Same
  rcases (unite_cases h a b).2 with ⟨hab, _, hroot⟩ | ⟨hab, _, w, l, hwl, hroot⟩
  · rw [hroot, hroot, hab]
    constructor
    · exact Or.inl
    · rintro (hxy | ⟨hx, hy⟩ | ⟨hx, hy⟩)
      · exact hxy
      · rw [hx, hy]
      · rw [hx, hy]
  · rw [hroot, hroot]
    rcases hwl with ⟨rfl, rfl⟩ | ⟨rfl, rfl⟩ <;> split <;> split <;> grind

omit [DecidableEq ι] in
theorem wf_singletons : (singletons : UnionFind ι).Wf := fun x => ⟨0, x, le_rfl, .root rfl⟩

theorem Wf.uniteAll {uf : UnionFind ι} (h : uf.Wf) (edges : List (ι × ι)) : (uf.uniteAll edges).Wf := by
  induction edges generalizing uf with
  | nil => exact h
  | cons e edges ih => exact ih (unite_cases h e.1 e.2).1

/-- **The classes after merging along a list of edges** are those the edges generate from the
classes before. Induction on the edges. -/
theorem same_uniteAll_of_wf {uf : UnionFind ι} (h : uf.Wf) (edges : List (ι × ι)) (x y : ι) :
    (uf.uniteAll edges).Same x y ↔ Relation.EqvGen (fun u v => uf.Same u v ∨ (u, v) ∈ edges) x y := by
  induction edges generalizing uf with
  | nil =>
    simp only [not_mem_nil, or_false]
    constructor
    · exact fun hs => .rel _ _ hs
    · intro hs
      induction hs with
      | rel _ _ h => exact h
      | refl _ => exact Eq.refl _
      | symm _ _ _ ih => exact Eq.symm ih
      | trans _ _ _ _ _ ih₁ ih₂ => exact Eq.trans ih₁ ih₂
  | cons e edges ih =>
    rw [show uf.uniteAll (e :: edges) = (uf.unite e.1 e.2).uniteAll edges from rfl,
      ih (unite_cases h e.1 e.2).1]
    have hedge : Relation.EqvGen (fun u v => uf.Same u v ∨ (u, v) ∈ e :: edges) e.1 e.2 :=
      .rel _ _ (Or.inr (by simp))
    have hsame : ∀ {u v}, uf.Same u v → Relation.EqvGen (fun u v => uf.Same u v ∨ (u, v) ∈ e :: edges) u v :=
      fun hs => .rel _ _ (Or.inl hs)
    constructor
    · refine Relation.EqvGen.eqvGen_le (fun u v huv => ?_) x y
      rcases huv with huv | huv
      · rcases (same_unite h _ _ _ _).mp huv with huv | ⟨hu, hv⟩ | ⟨hu, hv⟩
        · exact hsame huv
        · exact .trans _ _ _ (hsame hu) (.trans _ _ _ hedge (.symm _ _ (hsame hv)))
        · exact .trans _ _ _ (hsame hu) (.trans _ _ _ (.symm _ _ hedge) (.symm _ _ (hsame hv)))
      · exact .rel _ _ (Or.inr (mem_cons_of_mem _ huv))
    · refine Relation.EqvGen.eqvGen_le (fun u v huv => .rel _ _ ?_) x y
      rcases huv with huv | huv
      · exact Or.inl ((same_unite h _ _ _ _).mpr (Or.inl huv))
      · rcases List.mem_cons.mp huv with rfl | huv
        · exact Or.inl ((same_unite h _ _ _ _).mpr (Or.inr (Or.inl ⟨rfl, rfl⟩)))
        · exact Or.inr huv

theorem root_singletons (x : ι) : (singletons : UnionFind ι).root x = x := rfl

theorem same_uniteAll (edges : List (ι × ι)) (x y : ι) :
    (singletons.uniteAll edges).Same x y ↔ Relation.EqvGen (fun u v => (u, v) ∈ edges) x y := by
  rw [same_uniteAll_of_wf wf_singletons]
  constructor
  · refine Relation.EqvGen.eqvGen_le (fun u v huv => ?_) x y
    rcases huv with huv | huv
    · simp only [Same, root_singletons] at huv
      rw [huv]
      exact .refl _
    · exact .rel _ _ huv
  · exact Relation.EqvGen.eqvGen_le (fun u v huv => .rel _ _ (Or.inr huv)) x y

theorem root_of_links_eq_zero {uf : UnionFind ι} (h : uf.Wf) (h0 : uf.links = 0) (x : ι) : uf.root x = x := by
  obtain ⟨k, hk, hc⟩ := h.climb x
  obtain rfl : k = 0 := by omega
  generalize uf.root x = r at hc ⊢
  cases hc
  rfl

end UnionFind

theorem eqvGen_value {κ γ : Type*} {S : κ → κ → Prop} {v : κ → γ} (hv : ∀ a b, S a b → v a = v b)
    {a b : κ} (h : Relation.EqvGen S a b) : v a = v b := by
  induction h with
  | rel a b hab => exact hv a b hab
  | refl a => rfl
  | symm a b _ ih => exact ih.symm
  | trans a b c _ _ ihab ihbc => exact ihab.trans ihbc

theorem eqvGen_restrict {κ γ : Type*} {S : κ → κ → Prop} {v : κ → γ}
    (hv : ∀ a b, S a b → v a = v b) {r : γ} {a b : κ} (h : Relation.EqvGen S a b) (ha : v a = r) :
    Relation.EqvGen (fun c d => S c d ∧ v c = r ∧ v d = r) a b := by
  induction h with
  | rel a b hab => exact .rel _ _ ⟨hab, ha, (hv a b hab).symm.trans ha⟩
  | refl a => exact .refl a
  | symm a b hab ih => exact .symm _ _ (ih ((eqvGen_value hv hab).trans ha))
  | trans a b c hab _ ihab ihbc =>
    exact .trans _ _ _ (ihab ha) (ihbc ((eqvGen_value hv hab).symm.trans ha))

theorem eqvGen_exists_link {κ : Type*} {S : κ → κ → Prop} {a b : κ} (h : Relation.EqvGen S a b)
    (hne : a ≠ b) : (∃ c, c ≠ a ∧ (S a c ∨ S c a)) ∧ ∃ c, c ≠ b ∧ (S b c ∨ S c b) := by
  induction h with
  | rel a b hab => exact ⟨⟨b, hne.symm, Or.inl hab⟩, ⟨a, hne, Or.inr hab⟩⟩
  | refl a => exact absurd rfl hne
  | symm a b _ ih => exact (ih hne.symm).symm
  | trans a b c _ _ ihab ihbc =>
    by_cases hab : a = b
    · subst hab; exact ihbc hne
    · by_cases hbc : b = c
      · subst hbc; exact ihab hab
      · exact ⟨(ihab hab).1, (ihbc hbc).2⟩

/-- When the members of each block are connected and related blocks have connected members, the
members of connected blocks are connected. Induction on the chain of blocks; a block without members
can only be the chain's one block. -/
theorem eqvGen_members {κ : Type*} {R : ι → ι → Prop} {S : κ → κ → Prop} (mem : κ → ι → Prop)
    (hblock : ∀ a i j, mem a i → mem a j → Relation.EqvGen R i j)
    (hS : ∀ a b, S a b → ∃ i j, mem a i ∧ mem b j ∧ Relation.EqvGen R i j)
    {a b : κ} (h : Relation.EqvGen S a b) {i j : ι} (hi : mem a i) (hj : mem b j) : Relation.EqvGen R i j := by
  have hchain : a = b ∨ ∃ i j, mem a i ∧ mem b j ∧ Relation.EqvGen R i j := by
    clear hi hj
    induction h with
    | rel a b hab => exact Or.inr (hS a b hab)
    | refl a => exact Or.inl rfl
    | symm a b _ ih =>
      rcases ih with rfl | ⟨i, j, hi, hj, hij⟩
      · exact Or.inl rfl
      · exact Or.inr ⟨j, i, hj, hi, .symm _ _ hij⟩
    | trans a b c _ _ ihab ihbc =>
      rcases ihab with rfl | ⟨i, j, hi, hj, hij⟩
      · exact ihbc
      · rcases ihbc with rfl | ⟨j', k, hj', hk, hjk⟩
        · exact Or.inr ⟨i, j, hi, hj, hij⟩
        · exact Or.inr ⟨i, k, hi, hk, .trans _ _ _ hij (.trans _ _ _ (hblock b j j' hj hj') hjk)⟩
  rcases hchain with rfl | ⟨i', j', hi', hj', hij⟩
  · exact hblock a i j hi hj
  · exact .trans _ _ _ (hblock a i i' hi hi') (.trans _ _ _ hij (hblock b j' j hj' hj))

end Foundations
