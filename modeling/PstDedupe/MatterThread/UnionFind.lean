import PstDedupe.Foundations.Forests
import PstDedupe.Rust.Std

/-!
# Union-find over compact Message-ID keys (`matter-thread/src/unionfind.rs`)

`none` is a panic: an index into a map without the key.
-/

namespace MatterThread

open Rust Foundations List Option Function

abbrev CompactKey := Bytes32

structure UnionFind where
  parent : HashMap CompactKey CompactKey
  rank : HashMap CompactKey Nat
  links : Nat

namespace UnionFind

variable {uf : UnionFind}

def new : UnionFind := ⟨∅, ∅, 0⟩

/-- Ensure `k` is a member (singleton component if new). -/
def makeSet (uf : UnionFind) (k : CompactKey) : UnionFind where
  parent := uf.parent.orInsert k k
  rank := uf.rank.orInsert k 0
  links := uf.links

def setParent (uf : UnionFind) (k root : CompactKey) : UnionFind :=
  { uf with parent := AList.insert k root uf.parent }

def findWithin : Nat → UnionFind → CompactKey → Option (UnionFind × CompactKey)
  | 0, _, _ => none
  | n + 1, uf, k =>
    let uf := uf.makeSet k
    (uf.parent.get k).bind fun p =>
      if p ≠ k then (findWithin n uf p).map fun r => (r.1.setParent k r.2, r.2) else some (uf, k)

def find (uf : UnionFind) (k : CompactKey) : Option (UnionFind × CompactKey) := findWithin (uf.links + 1) uf k

/-- `self.parent.insert(k, root)` of a root `k`. -/
def link (uf : UnionFind) (k root : CompactKey) : UnionFind :=
  { uf.setParent k root with links := uf.links + 1 }

def union (uf : UnionFind) (a b : CompactKey) : Option UnionFind := do
  let (uf, ra) ← uf.find a
  let (uf, rb) ← uf.find b
  if ra = rb then return uf
  let rankA ← uf.rank.get ra
  let rankB ← uf.rank.get rb
  if rankA < rankB then return uf.link ra rb
  else if rankA > rankB then return uf.link rb ra
  else return { uf.link rb ra with rank := AList.insert ra (rankA + 1) uf.rank }

def up (uf : UnionFind) (k : CompactKey) : CompactKey := (uf.parent.get k).getD k

theorem up_makeSet (uf : UnionFind) (k : CompactKey) : (uf.makeSet k).up = uf.up := by
  funext x
  show ((uf.parent.orInsert k k).get x).getD x = (uf.parent.get x).getD x
  rw [HashMap.get_orInsert]
  split
  next h =>
    subst h
    cases uf.parent.get x <;> rfl
  · rfl

theorem up_setParent (uf : UnionFind) (k root : CompactKey) :
    (uf.setParent k root).up = update uf.up k root := by
  funext x
  show (HashMap.get (AList.insert k root uf.parent) x).getD x = _
  rw [HashMap.get_insert, update_apply]
  split
  · rfl
  · rfl

def Member (uf : UnionFind) (k : CompactKey) : Prop := (uf.parent.get k).isSome

theorem member_makeSet (uf : UnionFind) (k x : CompactKey) : (uf.makeSet k).Member x ↔ x = k ∨
    uf.Member x := by
  show ((uf.parent.orInsert k k).get x).isSome ↔ _
  rw [HashMap.get_orInsert]
  split
  next h => exact iff_of_true rfl (Or.inl h)
  next h => exact (or_iff_right h).symm

theorem member_setParent (uf : UnionFind) (k root x : CompactKey) :
    (uf.setParent k root).Member x ↔ x = k ∨ uf.Member x := by
  show (HashMap.get (AList.insert k root uf.parent) x).isSome ↔ _
  rw [HashMap.get_insert]
  split
  next h => exact iff_of_true rfl (Or.inl h)
  next h => exact (or_iff_right h).symm

def Ranked (uf : UnionFind) : Prop := ∀ k, uf.Member k → (uf.rank.get k).isSome

theorem Ranked.makeSet (h : uf.Ranked) (k : CompactKey) : (uf.makeSet k).Ranked := by
  intro x hx
  show ((uf.rank.orInsert k 0).get x).isSome
  rw [HashMap.get_orInsert]
  split
  · rfl
  next hne => exact h x (((member_makeSet uf k x).mp hx).resolve_left hne)

/-- A session of the structure that joined nothing: every root stays, and so does every member. -/
structure Settles (uf uf' : UnionFind) : Prop where
  keeps : Keeps uf.up uf'.up
  links : uf'.links = uf.links
  members : ∀ k, uf.Member k → uf'.Member k
  ranked : uf.Ranked → uf'.Ranked

theorem Settles.trans {uf uf' uf'' : UnionFind} (h : Settles uf uf') (h' : Settles uf' uf'') :
    Settles uf uf'' where
  keeps := h.keeps.trans h'.keeps
  links := h'.links.trans h.links
  members := fun k hk => h'.members k (h.members k hk)
  ranked := fun hr => h'.ranked (h.ranked hr)

theorem settles_makeSet (uf : UnionFind) (k : CompactKey) : Settles uf (uf.makeSet k) where
  keeps := by
    rw [up_makeSet]
    exact Keeps.refl uf.up
  links := rfl
  members := fun x hx => (member_makeSet uf k x).mpr (Or.inr hx)
  ranked := fun h => h.makeSet k

theorem settles_setParent {k root : CompactKey} {j : Nat} (hk : uf.Member k)
    (hroot : Climb uf.up j k root) : Settles uf (uf.setParent k root) where
  keeps := by
    rw [up_setParent]
    exact hroot.compress
  links := rfl
  members := fun x hx => (member_setParent uf k root x).mpr (Or.inr hx)
  ranked := by
    intro h x hx
    apply h x
    rcases (member_setParent uf k root x).mp hx with rfl | hx
    · exact hk
    · exact hx

/-- `find` returns the root that the pointers lead to. Induction on the levels of the recursion. -/
theorem findWithin_spec {n j : Nat} {k root : CompactKey} (h : Climb uf.up j k root) (hn : j < n) :
    ∃ uf', findWithin n uf k = some (uf', root) ∧ Settles uf uf' ∧ uf'.Member root := by
  induction n generalizing uf j k with
  | zero => omega
  | succ n ih =>
    have hset := settles_makeSet uf k
    have hmember : (uf.makeSet k).Member k := (member_makeSet uf k k).mpr (Or.inl rfl)
    obtain ⟨p, hp⟩ := Option.isSome_iff_exists.mp hmember
    have hup : uf.up k = p := by
      rw [← up_makeSet uf k]
      show ((uf.makeSet k).parent.get k).getD k = p
      rw [hp, getD_some]
    unfold findWithin
    dsimp only
    rw [hp, bind_some]
    cases h with
    | root hroot =>
      have hpk : p = root := hup.symm.trans hroot
      rw [if_neg (not_not.mpr hpk)]
      exact ⟨uf.makeSet root, rfl, hset, hmember⟩
    | @up j k root hne rest =>
      have hclimb₀ := Climb.up hne rest
      have hpk : p ≠ k := by
        rw [← hup]
        exact hne
      rw [hup, ← up_makeSet uf k] at rest
      obtain ⟨uf', hfind, hsettles, hrootMember⟩ := ih rest (by omega)
      rw [if_pos hpk, hfind, map_some]
      -- the recursive call left the root of `k` where it was
      obtain ⟨i, _, hclimb⟩ := (hset.trans hsettles).keeps _ _ _ hclimb₀
      have hk := settles_setParent (hsettles.members k hmember) hclimb
      exact ⟨uf'.setParent k root, rfl, (hset.trans hsettles).trans hk, hk.members root hrootMember⟩

structure Tracks (uf : UnionFind) (edges : List (CompactKey × CompactKey)) : Prop where
  joins : Joins uf.up uf.links edges
  ranked : uf.Ranked

variable {uf uf' : UnionFind} {edges : List (CompactKey × CompactKey)}

theorem tracks_new : Tracks new [] where
  joins := Joins.singletons
  ranked := by
    intro k hk
    cases hk

theorem Tracks.settles (h : uf.Tracks edges) (hs : Settles uf uf') : uf'.Tracks edges where
  joins := by
    rw [hs.links]
    exact h.joins.of_keeps hs.keeps
  ranked := hs.ranked h.ranked

theorem find_spec (h : uf.Tracks edges) (k : CompactKey) :
    ∃ uf' root j, uf.find k = some (uf', root) ∧ Climb uf.up j k root ∧ Settles uf uf' ∧ uf'.Member root := by
  obtain ⟨j, hj, root, hroot⟩ := h.joins.climbs k
  obtain ⟨uf', hfind, hsettles, hmember⟩ := findWithin_spec hroot (Nat.lt_succ_of_le hj)
  exact ⟨uf', root, j, hfind, hroot, hsettles, hmember⟩

theorem Tracks.link {a b ra rb : CompactKey} {i j : Nat} (h : uf.Tracks edges)
    (ha : Climb uf.up i a ra) (hb : Climb uf.up j b rb) (hne : ra ≠ rb) (hmember : uf.Member rb) :
    (uf.link rb ra).Tracks (edges ++ [(a, b)]) where
  joins := by
    show Joins (uf.setParent rb ra).up (uf.links + 1) _
    rw [up_setParent]
    exact h.joins.link ha hb hne
  ranked := by
    intro x hx
    apply h.ranked x
    rcases (member_setParent uf rb ra x).mp hx with rfl | hx
    · exact hmember
    · exact hx

theorem union_spec (h : uf.Tracks edges) (a b : CompactKey) :
    ∃ uf', uf.union a b = some uf' ∧ uf'.Tracks (edges ++ [(a, b)]) := by
  obtain ⟨uf₁, ra, i, hfindA, hra, hsettles₁, hmemberA⟩ := find_spec h a
  obtain ⟨uf₂, rb, j, hfindB, hrb, hsettles₂, hmemberB⟩ := find_spec (h.settles hsettles₁) b
  have h₂ := (h.settles hsettles₁).settles hsettles₂
  obtain ⟨i', _, hra'⟩ := (hsettles₁.trans hsettles₂).keeps _ _ _ hra
  obtain ⟨j', _, hrb'⟩ := hsettles₂.keeps _ _ _ hrb
  have hmemberA' := hsettles₂.members ra hmemberA
  obtain ⟨rankA, hrankA⟩ := Option.isSome_iff_exists.mp (h₂.ranked ra hmemberA')
  obtain ⟨rankB, hrankB⟩ := Option.isSome_iff_exists.mp (h₂.ranked rb hmemberB)
  have hunion : uf.union a b = if ra = rb then some uf₂
      else if rankA < rankB then some (uf₂.link ra rb)
      else if rankA > rankB then some (uf₂.link rb ra)
      else some { uf₂.link rb ra with rank := AList.insert ra (rankA + 1) uf₂.rank } := by
    unfold union
    rw [hfindA]
    show (uf₁.find b).bind _ = _
    rw [hfindB]
    show (if ra = rb then some uf₂ else (uf₂.rank.get ra).bind fun rankA => (uf₂.rank.get rb).bind _) = _
    rw [hrankA, hrankB]
    rfl
  rw [hunion]
  by_cases hab : ra = rb
  · rw [if_pos hab]
    refine ⟨uf₂, rfl, ?_, h₂.ranked⟩
    rw [← hab] at hrb'
    exact h₂.joins.skip hra' hrb'
  · rw [if_neg hab]
    have hlink := h₂.link hra' hrb' hab hmemberB
    by_cases hlt : rankA < rankB
    · rw [if_pos hlt]
      have hswap := h₂.link hrb' hra' (Ne.symm hab) hmemberA'
      refine ⟨_, rfl, hswap.joins.congr fun x y => ?_, hswap.ranked⟩
      -- an edge joins both ways
      have hflip : ∀ u v : CompactKey, ∀ x y, EdgeLinked (edges ++ [(u, v)]) x y →
          EdgeLinked (edges ++ [(v, u)]) x y := by
        intro u v x y
        apply EdgeLinked.of_forall
        intro s t hst
        rcases List.mem_append.mp hst with hst | hst
        · exact .rel _ _ (mem_append_left _ hst)
        · cases List.mem_singleton.mp hst
          exact .symm _ _ (.rel _ _ (mem_append_right _ (mem_singleton_self _)))
      exact ⟨hflip b a x y, hflip a b x y⟩
    · rw [if_neg hlt]
      by_cases hgt : rankA > rankB
      · rw [if_pos hgt]
        exact ⟨_, rfl, hlink⟩
      · rw [if_neg hgt]
        refine ⟨_, rfl, hlink.joins, ?_⟩
        intro x hx
        show (HashMap.get (AList.insert ra (rankA + 1) uf₂.rank) x).isSome
        rw [HashMap.get_insert]
        split
        · rfl
        · exact hlink.ranked x hx

end UnionFind

end MatterThread
