import PstDedupe.Foundations.Fallible

/-!
# Cutting a list into chunks

`chunks n xs` cuts `xs` into pieces of `n`, the last one with what is left.
-/

namespace Foundations

open List Prod

variable {α : Type*}

def chunksUpTo (n : Nat) : Nat → List α → List (List α)
  | 0, _ => []
  | _ + 1, [] => []
  | fuel + 1, x :: xs => (x :: xs).take n :: chunksUpTo n fuel ((x :: xs).drop n)

/-- The pieces of `n` elements of a list. -/
def chunks (n : Nat) (xs : List α) : List (List α) := chunksUpTo n xs.length xs

theorem length_chunksUpTo_le (n fuel : Nat) (xs : List α) : (chunksUpTo n fuel xs).length ≤ fuel := by
  induction fuel generalizing xs with
  | zero => exact Nat.le_refl _
  | succ fuel ih =>
    cases xs with
    | nil => exact Nat.zero_le _
    | cons x xs => exact Nat.succ_le_succ (ih _)

theorem length_chunks_le (n : Nat) (xs : List α) : (chunks n xs).length ≤ xs.length :=
  length_chunksUpTo_le n xs.length xs

section

variable {n : Nat} (hn : 0 < n)

include hn

theorem chunksUpTo_of_length_le (fuel : Nat) (xs : List α) (h : xs.length ≤ fuel) :
    chunksUpTo n fuel xs = chunks n xs := by
  induction fuel using Nat.strongRecOn generalizing xs with
  | ind fuel ih =>
    cases xs with
    | nil => cases fuel <;> rfl
    | cons x xs =>
      obtain _ | fuel := fuel
      · simp at h
      · have hdrop : ((x :: xs).drop n).length ≤ xs.length := by simp; omega
        have hlen : xs.length ≤ fuel := by simpa using h
        unfold chunks
        rw [length_cons, chunksUpTo, chunksUpTo, ih fuel (by omega) _ (by omega),
          ih xs.length (by omega) _ hdrop]

theorem chunks_of_ne_nil {xs : List α} (h : xs ≠ []) : chunks n xs = xs.take n :: chunks n (xs.drop n) := by
  cases xs with
  | nil => exact absurd rfl h
  | cons x xs =>
    have hdrop : ((x :: xs).drop n).length ≤ xs.length := by simp; omega
    show chunksUpTo n (xs.length + 1) (x :: xs) = _
    rw [chunksUpTo, chunksUpTo_of_length_le hn _ _ hdrop]

/-- Induction along the cut. -/
theorem chunks_induction {P : List α → Prop} (nil : P [])
    (step : ∀ xs, xs ≠ [] → P (xs.drop n) → P xs) (xs : List α) : P xs := by
  induction hlen : xs.length using Nat.strongRecOn generalizing xs with
  | ind len ih =>
    by_cases h : xs = []
    · exact h ▸ nil
    · have hpos := List.length_pos_iff.mpr h
      exact step xs h (ih _ (by rw [length_drop]; omega) _ rfl)

theorem flatten_chunks (xs : List α) : (chunks n xs).flatten = xs := by
  induction xs using chunks_induction hn with
  | nil => rfl
  | step xs h ih => rw [chunks_of_ne_nil hn h, flatten_cons, ih, take_append_drop]

theorem length_chunks (xs : List α) : (chunks n xs).length = (xs.length + n - 1) / n := by
  induction xs using chunks_induction hn with
  | nil => exact (Nat.div_eq_of_lt (by simp; omega)).symm
  | step xs h ih =>
    have hpos := List.length_pos_iff.mpr h
    rw [chunks_of_ne_nil hn h, length_cons, ih, length_drop]
    by_cases hle : xs.length ≤ n
    · have hone : xs.length + n - 1 = xs.length - 1 + n := by omega
      rw [hone, Nat.add_div_right _ hn, Nat.div_eq_of_lt (by omega), Nat.div_eq_of_lt (by omega)]
    · have hone : xs.length + n - 1 = xs.length - n + n - 1 + n := by omega
      rw [hone, Nat.add_div_right _ hn]

theorem getElem?_chunks (xs : List α) (i : Nat) :
    (chunks n xs)[i]? = if i * n < xs.length then some ((xs.drop (i * n)).take n) else none := by
  induction xs using chunks_induction hn generalizing i with
  | nil => simp [chunks, chunksUpTo]
  | step xs h ih =>
    have hpos := List.length_pos_iff.mpr h
    rw [chunks_of_ne_nil hn h]
    cases i with
    | zero => simp [hpos]
    | succ i =>
      rw [getElem?_cons_succ, ih, length_drop, drop_drop, Nat.succ_mul, Nat.add_comm n]
      by_cases hlt : i * n + n < xs.length
      · rw [if_pos (by omega), if_pos hlt]
      · rw [if_neg (by omega), if_neg hlt]

theorem ne_nil_of_mem_chunks {xs c : List α} (h : c ∈ chunks n xs) : c ≠ [] := by
  obtain ⟨i, hi⟩ := List.mem_iff_getElem?.mp h
  rw [getElem?_chunks hn] at hi
  split at hi
  · have hlen : ((xs.drop (i * n)).take n).length ≠ 0 := by
      rw [length_take, length_drop]
      omega
    rw [← Option.some.inj hi]
    intro hnil
    exact hlen (by rw [hnil]; rfl)
  · cases hi

theorem length_le_of_mem_chunks {xs c : List α} (h : c ∈ chunks n xs) : c.length ≤ n := by
  obtain ⟨i, hi⟩ := List.mem_iff_getElem?.mp h
  rw [getElem?_chunks hn] at hi
  split at hi
  · rw [← Option.some.inj hi, length_take]
    omega
  · cases hi

theorem chunks_map {β : Type*} (f : α → β) (xs : List α) :
    chunks n (xs.map f) = (chunks n xs).map (List.map f) := by
  induction xs using chunks_induction hn with
  | nil => rfl
  | step xs h ih =>
    have hmap : xs.map f ≠ [] := by simpa using h
    rw [chunks_of_ne_nil hn hmap, chunks_of_ne_nil hn h, ← map_take, ← map_drop, ih, map_cons]

theorem forall₂_chunks {β : Type*} {R : α → β → Prop} {xs : List α} {ys : List β}
    (h : Forall₂ R xs ys) : Forall₂ (Forall₂ R) (chunks n xs) (chunks n ys) := by
  induction xs using chunks_induction hn generalizing ys with
  | nil =>
    cases h
    exact .nil
  | step xs hne ih =>
    have hne' : ys ≠ [] := by
      rintro rfl
      exact hne (List.forall₂_nil_right_iff.mp h)
    rw [chunks_of_ne_nil hn hne, chunks_of_ne_nil hn hne']
    exact .cons (forall₂_take n h) (ih (forall₂_drop n h))

theorem chunks_ne_nil {xs : List α} (h : xs ≠ []) : chunks n xs ≠ [] := by
  rw [chunks_of_ne_nil hn h]
  exact cons_ne_nil _ _

end

theorem take_drop_flatten {w : Nat} {rs : List (List α)} (hw : ∀ r ∈ rs, r.length = w) {i : Nat}
    {r : List α} (hi : rs[i]? = some r) : (rs.flatten.drop (i * w)).take w = r := by
  induction rs generalizing i with
  | nil => simp at hi
  | cons r₀ rs ih =>
    have hr₀ : r₀.length = w := hw r₀ (by simp)
    cases i with
    | zero =>
      obtain rfl : r₀ = r := by simpa using hi
      simp [← hr₀]
    | succ i =>
      have hsplit : (i + 1) * w = r₀.length + i * w := by rw [hr₀, Nat.succ_mul, Nat.add_comm]
      rw [flatten_cons, hsplit, drop_append]
      simp only [Nat.add_sub_cancel_left]
      rw [drop_of_length_le (by omega), nil_append]
      exact ih (fun r hr => hw r (by simp [hr])) (by simpa using hi)

theorem length_flatten_of_width {w : Nat} {rs : List (List α)} (hw : ∀ r ∈ rs, r.length = w) :
    rs.flatten.length = rs.length * w := by
  induction rs with
  | nil => simp
  | cons r rs ih =>
    rw [flatten_cons, length_append, hw r (by simp),
      ih (fun r hr => hw r (by simp [hr])), length_cons, Nat.succ_mul, Nat.add_comm]

theorem chunks_flatten {w : Nat} (hpos : 0 < w) {rs : List (List α)}
    (hw : ∀ r ∈ rs, r.length = w) : chunks w rs.flatten = rs := by
  induction rs with
  | nil => rfl
  | cons r rs ih =>
    have hr : r.length = w := hw r (by simp)
    have hne : (r :: rs).flatten ≠ [] := by
      rw [flatten_cons]
      intro h
      have := congrArg length h
      simp [hr] at this
      omega
    rw [chunks_of_ne_nil hpos hne, flatten_cons, take_append_of_le_length (by omega),
      take_of_length_le (by omega), drop_append_of_le_length (by omega),
      drop_of_length_le (by omega), nil_append, ih (fun r hr => hw r (by simp [hr]))]

end Foundations

/-!
# Search trees in pages

A page is a leaf with its entries or a node with the keys and addresses of its children.
-/

namespace Foundations

open List Prod

variable {rest : List (List Nat)}

inductive PageView (V : Type) where
  | leaf (entries : List (Nat × V))
  | node (children : List (Nat × Nat))

def IsMinKey {V : Type} (key : Nat) (entries : List (Nat × V)) : Prop :=
  key ∈ entries.map fst ∧ ∀ e ∈ entries, key ≤ e.1

variable {ε V : Type}

def IsTree (fetch : Nat → Except ε (PageView V)) : Nat → Nat → List Nat → List (Nat × V) → Prop
  | 0, addr, addrs, entries => fetch addr = .ok (.leaf entries) ∧ addrs = [addr]
  | height + 1, addr, addrs, entries =>
    ∃ (children : List (Nat × Nat)) (parts : List (List Nat × List (Nat × V))),
      fetch addr = .ok (.node children) ∧
      Forall₂ (fun c p => IsTree fetch height c.2 p.1 p.2 ∧ IsMinKey c.1 p.2) children parts ∧
      addrs = addr :: parts.flatMap fst ∧ entries = parts.flatMap snd

/-- A tree under construction: its root, the smallest key, and what it covers. -/
structure Subtree (V : Type) where
  addr : Nat
  key : Nat
  addrs : List Nat
  entries : List (Nat × V)

structure Subtree.Stands (fetch : Nat → Except ε (PageView V)) (height : Nat) (s : Subtree V) : Prop where
  tree : IsTree fetch height s.addr s.addrs s.entries
  minKey : IsMinKey s.key s.entries

def Subtree.over (addr : Nat) (group : List (Subtree V)) : Subtree V where
  addr := addr
  key := (group.head?.map Subtree.key).getD 0
  addrs := addr :: group.flatMap Subtree.addrs
  entries := group.flatMap Subtree.entries

def Ascending (entries : List (Nat × V)) : Prop := entries.Pairwise fun a b => a.1 < b.1

variable {fetch : Nat → Except ε (PageView V)} {height : Nat}

theorem isMinKey_head {k : Nat} {v : V} {rest : List (Nat × V)} (h : Ascending ((k, v) :: rest)) :
    IsMinKey k ((k, v) :: rest) := by
  refine ⟨mem_cons_self, fun e he => ?_⟩
  rcases List.mem_cons.mp he with rfl | he
  · exact Nat.le_refl _
  · exact Nat.le_of_lt ((List.pairwise_cons.mp h).1 e he)

theorem IsMinKey.append {k : Nat} {entries rest : List (Nat × V)} (h : IsMinKey k entries)
    (hasc : Ascending (entries ++ rest)) : IsMinKey k (entries ++ rest) := by
  refine ⟨?_, fun e he => ?_⟩
  · rw [map_append]
    exact mem_append_left _ h.1
  · rcases List.mem_append.mp he with he | he
    · exact h.2 e he
    · obtain ⟨first, hfirst, rfl⟩ := List.mem_map.mp h.1
      exact Nat.le_of_lt ((List.pairwise_append.mp hasc).2.2 first hfirst e he)

theorem stands_over {addr : Nat} {group : List (Subtree V)} (hne : group ≠ [])
    (hall : ∀ s ∈ group, s.Stands fetch height)
    (hasc : Ascending (group.flatMap Subtree.entries))
    (hpage : fetch addr = .ok (.node (group.map fun s => (s.key, s.addr)))) :
    (Subtree.over addr group).Stands fetch (height + 1) where
  tree := by
    refine ⟨_, group.map fun s => (s.addrs, s.entries), hpage, ?_, ?_, ?_⟩
    · rw [forall₂_map_left_iff, forall₂_map_right_iff, forall₂_same]
      exact fun s hs => ⟨(hall s hs).tree, (hall s hs).minKey⟩
    · rw [flatMap_map]
      rfl
    · rw [flatMap_map]
      rfl
  minKey := by
    cases group with
    | nil => exact absurd rfl hne
    | cons s rest => exact (hall s mem_cons_self).minKey.append hasc

def levelUp (n : Nat) (addrs : List Nat) (level : List (Subtree V)) : List (Subtree V) :=
  (addrs.zip (chunks n level)).map fun p => .over p.1 p.2

theorem flatten_flatMap {α β : Type} (f : α → List β) (xss : List (List α)) :
    xss.flatten.flatMap f = xss.flatMap fun xs => xs.flatMap f := by
  rw [flatten_eq_flatMap, flatMap_assoc]
  rfl

theorem flatMap_cons_perm {α β : Type} (f : α → β) (g : α → List β) (xs : List α) :
    (xs.flatMap fun x => f x :: g x).Perm (xs.map f ++ xs.flatMap g) := by
  induction xs with
  | nil => exact .refl _
  | cons x xs ih =>
    rw [flatMap_cons, flatMap_cons, map_cons, cons_append, cons_append]
    apply Perm.cons
    apply (ih.append_left (g x)).trans
    rw [← append_assoc, ← append_assoc]
    exact List.perm_append_comm.append_right _

def PagesStand (fetch : Nat → Except ε (PageView V)) (n : Nat) : List (Subtree V) → List (List Nat) → Prop
  | _, [] => True
  | level, addrs :: rest =>
    (∀ p ∈ addrs.zip (chunks n level), fetch p.1 = .ok (.node (p.2.map fun s => (s.key, s.addr)))) ∧
    PagesStand fetch n (levelUp n addrs level) rest

/-- Enough pages on each level for groups of `n`, up to a single one. -/
def Shape (n : Nat) : Nat → List (List Nat) → Prop
  | count, [] => count = 1
  | count, addrs :: rest =>
    1 < count ∧ addrs.length = (count + n - 1) / n ∧ Shape n addrs.length rest

section

variable {n : Nat} (hn : 0 < n) {addrs : List Nat} {level : List (Subtree V)}

include hn

theorem length_levelUp (hlen : addrs.length = (level.length + n - 1) / n) :
    (levelUp n addrs level).length = addrs.length := by
  unfold levelUp
  rw [length_map, length_zip, length_chunks hn, hlen, Nat.min_self]

theorem entries_levelUp (hlen : addrs.length = (level.length + n - 1) / n) :
    (levelUp n addrs level).flatMap Subtree.entries = level.flatMap Subtree.entries := by
  have hchunks : (chunks n level).length = addrs.length := (length_chunks hn level).trans hlen.symm
  calc (levelUp n addrs level).flatMap Subtree.entries
      = ((addrs.zip (chunks n level)).map snd).flatMap fun g => g.flatMap Subtree.entries := by
        unfold levelUp
        rw [flatMap_map, flatMap_map]
        rfl
    _ = (chunks n level).flatten.flatMap Subtree.entries := by
        rw [map_snd_zip (Nat.le_of_eq hchunks), flatten_flatMap]
    _ = level.flatMap Subtree.entries := by rw [flatten_chunks hn]

theorem addrs_levelUp (hlen : addrs.length = (level.length + n - 1) / n) :
    ((levelUp n addrs level).flatMap Subtree.addrs).Perm (addrs ++ level.flatMap Subtree.addrs) := by
  have hchunks : (chunks n level).length = addrs.length := (length_chunks hn level).trans hlen.symm
  have hperm := flatMap_cons_perm fst
    (fun p : Nat × List (Subtree V) => p.2.flatMap Subtree.addrs) (addrs.zip (chunks n level))
  have hunder : (addrs.zip (chunks n level)).flatMap (fun p => p.2.flatMap Subtree.addrs)
      = level.flatMap Subtree.addrs := by
    calc (addrs.zip (chunks n level)).flatMap (fun p => p.2.flatMap Subtree.addrs)
        = ((addrs.zip (chunks n level)).map snd).flatMap fun g => g.flatMap Subtree.addrs := by
          rw [flatMap_map]
      _ = (chunks n level).flatten.flatMap Subtree.addrs := by
          rw [map_snd_zip (Nat.le_of_eq hchunks), flatten_flatMap]
      _ = level.flatMap Subtree.addrs := by rw [flatten_chunks hn]
  rw [hunder, map_fst_zip (Nat.le_of_eq hchunks.symm)] at hperm
  unfold levelUp
  rw [flatMap_map]
  exact hperm

theorem addr_levelUp (hlen : addrs.length = (level.length + n - 1) / n) :
    (levelUp n addrs level).map Subtree.addr = addrs := by
  have hchunks : (chunks n level).length = addrs.length := (length_chunks hn level).trans hlen.symm
  unfold levelUp
  rw [List.map_map]
  exact map_fst_zip (Nat.le_of_eq hchunks.symm)

theorem stands_levelUp (hall : ∀ s ∈ level, s.Stands fetch height)
    (hasc : Ascending (level.flatMap Subtree.entries))
    (hpages : ∀ p ∈ addrs.zip (chunks n level), fetch p.1 = .ok (.node (p.2.map fun s => (s.key, s.addr)))) :
    ∀ s ∈ levelUp n addrs level, s.Stands fetch (height + 1) := by
  intro s hs
  obtain ⟨⟨addr, group⟩, hp, rfl⟩ := List.mem_map.mp hs
  have hgroup := (of_mem_zip hp).2
  apply stands_over (ne_nil_of_mem_chunks hn hgroup) _ _ (hpages _ hp)
  · intro s hs
    apply hall
    rw [← flatten_chunks hn level]
    exact mem_flatten_of_mem hgroup hs
  · -- the entries of a group are a stretch of those of the level
    rw [← flatten_chunks hn level, flatten_flatMap] at hasc
    rw [flatMap_def] at hasc
    exact List.Pairwise.sublist (sublist_flatten_of_mem (mem_map_of_mem hgroup)) hasc

theorem exists_root {rest : List (List Nat)} (hshape : Shape n level.length rest)
    (hall : ∀ s ∈ level, s.Stands fetch height)
    (hasc : Ascending (level.flatMap Subtree.entries)) (hpages : PagesStand fetch n level rest) :
    ∃ root : Subtree V, root.Stands fetch (height + rest.length) ∧
      root.entries = level.flatMap Subtree.entries ∧
      root.addrs.Perm (rest.flatten ++ level.flatMap Subtree.addrs) ∧
      (rest.getLast?.getD (level.map Subtree.addr)) = [root.addr] := by
  induction rest generalizing level height with
  | nil =>
    obtain ⟨root, rfl⟩ := List.length_eq_one_iff.mp hshape
    refine ⟨root, hall root mem_cons_self, ?_, ?_, rfl⟩
    · simp
    · simp
  | cons addrs rest ih =>
    obtain ⟨_, hlen, hrest⟩ := hshape
    obtain ⟨hpage, hpages'⟩ := hpages
    rw [← length_levelUp hn hlen] at hrest
    have hentries := entries_levelUp hn hlen
    obtain ⟨root, hstands, hroot, hperm, hlast⟩ := ih hrest (stands_levelUp hn hall hasc hpage)
      (hentries ▸ hasc) hpages'
    refine ⟨root, ?_, hroot.trans hentries, ?_, ?_⟩
    · rw [length_cons]
      rwa [Nat.add_right_comm] at hstands
    · apply hperm.trans
      rw [flatten_cons, append_assoc]
      apply ((addrs_levelUp hn hlen).append_left _).trans
      rw [← append_assoc, ← append_assoc]
      exact List.perm_append_comm.append_right _
    · rw [getLast?_cons, Option.getD_some]
      rwa [addr_levelUp hn hlen] at hlast

end

theorem Shape.exists_last {n : Nat} {addrs : List Nat}
    (h : Shape n addrs.length rest) : ∃ root, (addrs :: rest).getLast? = some [root] := by
  induction rest generalizing addrs with
  | nil =>
    obtain ⟨root, rfl⟩ := List.length_eq_one_iff.mp h
    exact ⟨root, rfl⟩
  | cons next rest ih =>
    rw [getLast?_cons_cons]
    exact ih h.2.2

theorem Shape.map {n count : Nat} (f : Nat → Nat) (h : Shape n count rest) :
    Shape n count (rest.map (List.map f)) := by
  induction rest generalizing count with
  | nil => exact h
  | cons addrs rest ih =>
    obtain ⟨hmany, hlen, hrest⟩ := h
    refine ⟨hmany, (length_map f).trans hlen, ?_⟩
    rw [length_map]
    exact ih hrest

theorem Shape.length_le {n count height : Nat} (hn : 0 < n)
    (h : Shape n count rest) (hcount : count ≤ n ^ height) : rest.length ≤ height := by
  induction rest generalizing count height with
  | nil => exact Nat.zero_le _
  | cons addrs rest ih =>
    obtain ⟨hmany, hlen, hrest⟩ := h
    cases height with
    | zero =>
      rw [Nat.pow_zero] at hcount
      omega
    | succ height =>
      apply Nat.succ_le_succ
      apply ih hrest
      rw [hlen, Nat.div_le_iff_le_mul_add_pred hn, Nat.pow_succ] at *
      rw [Nat.mul_comm] at hcount
      omega

end Foundations
