import Mathlib

/-!
# A walk without a visited set

`visits entries n root` walks `n` levels down from `root`, entry by entry, and gives up at the first
node it cannot read.
-/

namespace Foundations

open List Prod

variable {ν : Type} (entries : ν → Option (List ν))

/-- Everything within `n` levels under a node can be read. -/
def complete : Nat → ν → Bool
  | 0, x => (entries x).isSome
  | n + 1, x =>
    match entries x with
    | none => false
    | some cs => cs.all (complete n)

/-- The children up to the first that is not `ok`. -/
def follow (ok : ν → Bool) : List ν → List ν
  | [] => []
  | c :: cs => c :: if ok c then follow ok cs else []

def named : Nat × ν → List (Nat × ν)
  | (0, _) => []
  | (n + 1, x) =>
    match entries x with
    | none => []
    | some cs => (follow (complete entries n) cs).map fun c => (n, c)

def visits : Nat → ν → List (Nat × ν)
  | 0, x => [(0, x)]
  | n + 1, x => (n + 1, x) :: (named entries (n + 1, x)).flatMap fun c => visits n c.2

variable {entries} {n : Nat} {root x : ν} {p q c d : Nat × ν}

theorem follow_of_all {ok : ν → Bool} {cs : List ν} (h : ∀ c ∈ cs, ok c = true) : follow ok cs = cs := by
  induction cs with
  | nil => rfl
  | cons c cs ih =>
    rw [follow, if_pos (h c mem_cons_self), ih fun d hd => h d (mem_cons_of_mem _ hd)]

theorem eq_of_named (h : c ∈ named entries (n + 1, x)) : c = (n, c.2) := by
  cases hx : entries x with
  | none => simp [named, hx] at h
  | some cs =>
    simp only [named, hx] at h
    obtain ⟨y, _, rfl⟩ := List.mem_map.mp h
    rfl

theorem visits_perm (n : Nat) (x : ν) :
    (visits entries n x).Perm ((n, x) :: (visits entries n x).flatMap (named entries)) := by
  induction n generalizing x with
  | zero => exact .refl _
  | succ n ih =>
    unfold visits
    refine .cons _ ?_
    rw [flatMap_cons, flatMap_assoc]
    have hchild : ∀ c ∈ named entries (n + 1, x), (visits entries n c.2).Perm
        (c :: (visits entries n c.2).flatMap (named entries)) := by
      intro c hc
      have hvisits := ih c.2
      rwa [← eq_of_named hc] at hvisits
    refine (Perm.flatMap_left _ hchild).trans ?_
    refine (map_append_flatMap_perm _ (fun c => c) _).symm.trans ?_
    rw [List.map_id']

abbrev Reaches (entries : ν → Option (List ν)) (n : Nat) (root : ν) : Nat × ν → Prop :=
  Relation.ReflTransGen (fun p c => c ∈ named entries p) (n, root)

theorem mem_visits_of_named (hp : p ∈ visits entries n root) (hc : c ∈ named entries p) :
    c ∈ visits entries n root :=
  (visits_perm n root).mem_iff.mpr (mem_cons_of_mem _ (List.mem_flatMap.mpr ⟨p, hp, hc⟩))

theorem mem_visits : c ∈ visits entries n root ↔ Reaches entries n root c := by
  constructor
  · intro h
    induction n generalizing root with
    | zero =>
      rw [List.mem_singleton.mp h]
    | succ n ih =>
      rcases List.mem_cons.mp h with rfl | h
      · exact .refl
      obtain ⟨d, hd, hc⟩ := List.mem_flatMap.mp h
      have hway := ih hc
      unfold Reaches at hway
      rw [← eq_of_named hd] at hway
      exact .head hd hway
  · intro h
    induction h with
    | refl => exact (visits_perm n root).mem_iff.mpr mem_cons_self
    | tail _ hc ih => exact mem_visits_of_named ih hc

/-- What is reached is a tree: no entry names the root, no node names another twice, no two nodes
name one. -/
structure TreeShaped (entries : ν → Option (List ν)) (n : Nat) (root : ν) : Prop where
  above : ∀ p, Reaches entries n root p → ∀ c ∈ named entries p, c.2 ≠ root
  once : ∀ p, Reaches entries n root p → ((named entries p).map snd).Nodup
  unique : ∀ p q, Reaches entries n root p → Reaches entries n root q → ∀ c ∈ named entries p,
    ∀ d ∈ named entries q, c.2 = d.2 → p = q

theorem map_snd_visits_perm (n : Nat) (x : ν) : ((visits entries n x).map snd).Perm
    (x :: (visits entries n x).flatMap fun p => (named entries p).map snd) := by
  have hperm : ((visits entries n x).map snd).Perm _ := (visits_perm n x).map snd
  rwa [map_cons, map_flatMap] at hperm

theorem treeShaped_of_nodup (h : ((visits entries n root).map snd).Nodup) : TreeShaped entries n root := by
  have hnodup := (map_snd_visits_perm n root).nodup_iff.mp h
  obtain ⟨hroot, hrest⟩ := List.nodup_cons.mp hnodup
  obtain ⟨honce, hapart⟩ := List.nodup_flatMap.mp hrest
  refine ⟨fun p hp c hc hcr => hroot ?_, fun p hp => honce p (mem_visits.mpr hp),
    fun p q hp hq c hc d hd hcd => ?_⟩
  · exact List.mem_flatMap.mpr ⟨p, mem_visits.mpr hp, hcr ▸ mem_map_of_mem hc⟩
  · by_contra hne
    have hsymm : Std.Symm (Function.onFun List.Disjoint fun p => (named entries p).map snd) :=
      ⟨fun _ _ h _ ha hb => h hb ha⟩
    have hdisjoint := hapart.forall (mem_visits.mpr hp) (mem_visits.mpr hq) hne
    exact hdisjoint (mem_map_of_mem hc) (hcd ▸ mem_map_of_mem hd)

theorem sum_le_count [DecidableEq ν] {f : Nat × ν → Nat} (l : List (Nat × ν)) (hp : f p ≤ 1)
    (hq : ∀ q ∈ l, q ≠ p → f q = 0) : (l.map f).sum ≤ (l.map snd).count p.2 := by
  induction l with
  | nil => exact Nat.le_refl 0
  | cons q l ih =>
    have hrest := ih fun r hr => hq r (mem_cons_of_mem _ hr)
    rw [map_cons, sum_cons, map_cons, count_cons]
    by_cases h : q = p
    · subst h
      rw [if_pos (by simp)]
      omega
    · have hzero := hq q mem_cons_self h
      omega

theorem count_le_one [DecidableEq ν] (h : TreeShaped entries n root)
    (hc : Reaches entries n root c) : ((visits entries n root).map snd).count c.2 ≤ 1 := by
  rw [(map_snd_visits_perm n root).count_eq, count_cons]
  induction hc with
  | refl =>
    -- no entry leads back to the root
    have hroot : root ∉ (visits entries n root).flatMap fun p => (named entries p).map snd := by
      intro hmem
      obtain ⟨p, hp, hnamed⟩ := List.mem_flatMap.mp hmem
      obtain ⟨d, hd, hdr⟩ := List.mem_map.mp hnamed
      exact h.above p (mem_visits.mp hp) d hd hdr
    simp [count_eq_zero_of_not_mem hroot]
  | @tail p c hp hc ih =>
    -- any other node is met as often as the one that names it
    rw [← count_cons, ← (map_snd_visits_perm n root).count_eq] at ih
    rw [if_neg (by simpa using (h.above p hp c hc).symm), count_flatMap, Nat.add_zero]
    refine Nat.le_trans (sum_le_count _ ?_ fun q hq hne => ?_) ih
    · exact List.nodup_iff_count_le_one.mp (h.once p hp) _
    · refine count_eq_zero_of_not_mem fun hmem => hne ?_
      obtain ⟨d, hd, hdc⟩ := List.mem_map.mp hmem
      exact h.unique q p (mem_visits.mp hq) hp d hd c hc hdc

theorem visits_nodup_iff : ((visits entries n root).map snd).Nodup ↔ TreeShaped entries n root := by
  classical
  refine ⟨treeShaped_of_nodup, fun h => List.nodup_iff_count_le_one.mpr fun x => ?_⟩
  by_cases hx : x ∈ (visits entries n root).map snd
  · obtain ⟨c, hc, rfl⟩ := List.mem_map.mp hx
    exact count_le_one h (mem_visits.mp hc)
  · rw [count_eq_zero_of_not_mem hx]
    exact Nat.zero_le 1

end Foundations
