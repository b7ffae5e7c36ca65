import PstDedupe.Rust.Std

/-!
# Conditions and orders of a `SELECT`

Three-valued logic over nullable columns, and `ORDER BY` with its terms.
-/

namespace Foundations

open Rust List

/-- The value of a condition; `none` is NULL. A row is selected where it is `some true`. -/
abbrev Truth := Option Bool

namespace Truth

def and : Truth → Truth → Truth
  | some false, _ => some false
  | _, some false => some false
  | some true, some true => some true
  | _, _ => none

def or : Truth → Truth → Truth
  | some true, _ => some true
  | _, some true => some true
  | some false, some false => some false
  | _, _ => none

def caseWhen (c t e : Truth) : Truth := if c = some true then t else e

theorem and_eq_true {a b : Truth} : a.and b = some true ↔ a = some true ∧ b = some true := by
  rcases a with _ | _ | _ <;> rcases b with _ | _ | _ <;> simp [and]

theorem or_eq_true {a b : Truth} : a.or b = some true ↔ a = some true ∨ b = some true := by
  rcases a with _ | _ | _ <;> rcases b with _ | _ | _ <;> simp [or]

end Truth

section Comparisons

variable {α : Type*}

def isNull (a : Option α) : Truth := some a.isNone

def isNotNull (a : Option α) : Truth := some a.isSome

/-- `a = b`. -/
def eqTo [DecidableEq α] : Option α → Option α → Truth
  | some x, some y => some (decide (x = y))
  | _, _ => none

/-- `a < b`. -/
def less [LT α] [DecidableLT α] : Option α → Option α → Truth
  | some x, some y => some (decide (x < y))
  | _, _ => none

variable {a b : Option α}

@[simp] theorem isNull_eq_true : isNull a = some true ↔ a = none := by
  simp [isNull]

@[simp] theorem isNotNull_eq_true : isNotNull a = some true ↔ ∃ x, a = some x := by
  simp [isNotNull, Option.isSome_iff_exists]

@[simp] theorem eqTo_eq_true [DecidableEq α] : eqTo a b = some true ↔ ∃ x, a = some x ∧ b = some x := by
  cases a <;> cases b <;> simp [eqTo, eq_comm]

@[simp] theorem less_eq_true [LT α] [DecidableLT α] :
    less a b = some true ↔ ∃ x y, a = some x ∧ b = some y ∧ x < y := by
  cases a <;> cases b <;> simp [less]

end Comparisons

section OrderBy

variable {R α K : Type}

def asc [Ord α] (f : R → α) : R → R → Ordering := fun a b => compare (f a) (f b)

def desc [Ord α] (f : R → α) : R → R → Ordering := fun a b => compare (f b) (f a)

/-- How the terms compare two rows: the first one that tells them apart does. -/
def byTerms (terms : List (R → R → Ordering)) (a b : R) : Ordering :=
  terms.foldr (fun term rest => (term a b).then rest) .eq

/-- `ORDER BY terms`. -/
def orderBy (terms : List (R → R → Ordering)) (rows : List R) : List R := sortBy (byTerms terms) rows

def OrdersBy [LinearOrder K] (terms : List (R → R → Ordering)) (key : R → K) : Prop :=
  ∀ a b, byTerms terms a b = compare (key a) (key b)

theorem orderBy_perm (terms : List (R → R → Ordering)) (rows : List R) : (orderBy terms rows).Perm rows :=
  sortBy_perm _ rows

/-! The keys of the usual terms. -/

def nullsLast : Option α → WithTop α
  | none => ⊤
  | some x => x

def nullsFirst : Option α → WithBot α
  | none => ⊥
  | some x => x

theorem compare_of_strictMono {β : Type} [LinearOrder α] [LinearOrder β] {f : α → β}
    (hf : StrictMono f) (a b : α) :
    compare (f a) (f b) = compare a b := by
  rcases lt_trichotomy a b with h | rfl | h
  · rw [compare_lt_iff_lt.mpr h, compare_lt_iff_lt.mpr (hf h)]
  · rw [compare_eq_iff_eq.mpr rfl, compare_eq_iff_eq.mpr rfl]
  · rw [compare_gt_iff_gt.mpr h, compare_gt_iff_gt.mpr (hf h)]

theorem compare_nullsFirst [LinearOrder α] (a b : Option α) :
    compare (nullsFirst a) (nullsFirst b) = compare a b := by
  rcases a with _ | a <;> rcases b with _ | b
  · exact compare_eq_iff_eq.mpr rfl
  · exact compare_lt_iff_lt.mpr (WithBot.bot_lt_coe b)
  · exact compare_gt_iff_gt.mpr (WithBot.bot_lt_coe a)
  · exact compare_of_strictMono WithBot.coe_strictMono a b

theorem compare_nullsLast [LinearOrder α] (a b : Option α) :
    compare (nullsLast a) (nullsLast b) = (compare a.isNone b.isNone).then (compare a b) := by
  rcases a with _ | a <;> rcases b with _ | b
  · exact compare_eq_iff_eq.mpr rfl
  · exact compare_gt_iff_gt.mpr (WithTop.coe_lt_top b)
  · exact compare_lt_iff_lt.mpr (WithTop.coe_lt_top a)
  · exact compare_of_strictMono WithTop.coe_strictMono a b

theorem compare_toDual [LinearOrder α] (a b : α) :
    compare (OrderDual.toDual a) (OrderDual.toDual b) = compare b a := by
  rcases lt_trichotomy a b with h | rfl | h
  · rw [compare_gt_iff_gt.mpr h]
    exact compare_gt_iff_gt.mpr (OrderDual.toDual_lt_toDual.mpr h)
  · rw [compare_eq_iff_eq.mpr rfl, compare_eq_iff_eq.mpr rfl]
  · rw [compare_lt_iff_lt.mpr h]
    exact compare_lt_iff_lt.mpr (OrderDual.toDual_lt_toDual.mpr h)

theorem compare_toLex {β : Type} [LinearOrder α] [LinearOrder β] (a b : α × β) :
    compare (toLex a) (toLex b) = (compare a.1 b.1).then (compare a.2 b.2) := rfl

variable [LinearOrder K] {terms terms' : List (R → R → Ordering)} {key : R → K} {rows : List R}

omit [LinearOrder K] in
theorem nodup_map_orderBy (terms : List (R → R → Ordering)) (hkeys : (rows.map key).Nodup) :
    ((orderBy terms rows).map key).Nodup :=
  ((orderBy_perm terms rows).map key).nodup_iff.mpr hkeys

theorem OrdersBy.pairwise_lt (h : OrdersBy terms key) (hkeys : (rows.map key).Nodup) :
    (orderBy terms rows).Pairwise fun a b => key a < key b := by
  have hle : ∀ a b, (byTerms terms a b).isLE = true ↔ key a ≤ key b := fun a b => by
    rw [h a b, ← compare_le_iff_le, Ordering.isLE_iff_ne_gt]
  have htotal : Std.Total fun a b => (byTerms terms a b).isLE = true :=
    ⟨fun a b => by rw [hle, hle]; exact le_total _ _⟩
  have htrans : IsTrans R fun a b => (byTerms terms a b).isLE = true :=
    ⟨fun a b c hab hbc => (hle a c).mpr (((hle a b).mp hab).trans ((hle b c).mp hbc))⟩
  have hsorted := pairwise_insertionSort (fun a b => (byTerms terms a b).isLE = true) rows
  have hne := List.pairwise_map.mp (nodup_map_orderBy terms hkeys)
  refine hsorted.imp₂ (fun a b hab hne => ?_) hne
  exact lt_of_le_of_ne ((hle a b).mp hab) hne

theorem eq_orderBy_of_pairwise (h : OrdersBy terms key) {l : List R} (hperm : l.Perm rows)
    (hsorted : l.Pairwise fun a b => key a < key b) : l = orderBy terms rows := by
  have hkeys : (rows.map key).Nodup :=
    (hperm.map key).nodup_iff.mp (List.pairwise_map.mpr (hsorted.imp ne_of_lt))
  refine (hperm.trans (orderBy_perm terms rows).symm).eq_of_pairwise
    (fun a b _ _ hab hba => ?_) hsorted (h.pairwise_lt hkeys)
  exact absurd hba hab.asymm

theorem orderBy_filter (h : OrdersBy terms key) (hkeys : (rows.map key).Nodup) (p : R → Bool) :
    orderBy terms (rows.filter p) = (orderBy terms rows).filter p :=
  (eq_orderBy_of_pairwise h ((orderBy_perm terms rows).filter p) ((h.pairwise_lt hkeys).filter p)).symm

theorem orderBy_reversed (h : OrdersBy terms key)
    (hreversed : OrdersBy terms' fun r => OrderDual.toDual (key r)) (hkeys : (rows.map key).Nodup) :
    orderBy terms' rows = (orderBy terms rows).reverse := by
  refine (eq_orderBy_of_pairwise hreversed ?_ ?_).symm
  · exact (reverse_perm _).trans (orderBy_perm terms rows)
  · rw [pairwise_reverse]
    exact h.pairwise_lt hkeys

end OrderBy

/-!
# Reading an ordered list page by page

`rows` is strictly ordered by a key.
-/

section KeysetPaging

variable {R K ε : Type*} [LinearOrder K] {key : R → K} {rows before after : List R} {r : R} {limit : Nat}

theorem filter_lt_key (hsorted : (before ++ r :: after).Pairwise fun a b => key a < key b) :
    (before ++ r :: after).filter (fun row => key r < key row) = after := by
  obtain ⟨_, hrest, hcross⟩ := List.pairwise_append.mp hsorted
  have hbefore : before.filter (fun row => key r < key row) = [] := by
    refine List.filter_eq_nil_iff.mpr fun row hrow => ?_
    simpa using (hcross row hrow r mem_cons_self).le
  have hafter : after.filter (fun row => key r < key row) = after := by
    refine List.filter_eq_self.mpr fun row hrow => ?_
    simpa using rel_of_pairwise_cons hrest hrow
  rw [filter_append, filter_cons, hbefore, hafter]
  simp

theorem filter_key_lt (hsorted : (before ++ r :: after).Pairwise fun a b => key a < key b) :
    (before ++ r :: after).filter (fun row => key row < key r) = before := by
  obtain ⟨_, hrest, hcross⟩ := List.pairwise_append.mp hsorted
  have hbefore : before.filter (fun row => key row < key r) = before := by
    refine List.filter_eq_self.mpr fun row hrow => ?_
    simpa using hcross row hrow r mem_cons_self
  have hafter : after.filter (fun row => key row < key r) = [] := by
    refine List.filter_eq_nil_iff.mpr fun row hrow => ?_
    simpa using (rel_of_pairwise_cons hrest hrow).le
  rw [filter_append, filter_cons, hbefore, hafter]
  simp

theorem filter_key_le (hsorted : (before ++ r :: after).Pairwise fun a b => key a < key b) :
    (before ++ r :: after).filter (fun row => key r ≤ key row) = r :: after := by
  obtain ⟨_, hrest, hcross⟩ := List.pairwise_append.mp hsorted
  have hbefore : before.filter (fun row => key r ≤ key row) = [] := by
    refine List.filter_eq_nil_iff.mpr fun row hrow => ?_
    simpa using hcross row hrow r mem_cons_self
  have hafter : after.filter (fun row => key r ≤ key row) = after := by
    refine List.filter_eq_self.mpr fun row hrow => ?_
    simpa using (rel_of_pairwise_cons hrest hrow).le
  rw [filter_append, filter_cons, hbefore, hafter]
  simp

/-- The rows of `n` calls, each with the last row so far as its cursor. -/
def readPages (page : Option R → Except ε (List R)) : Nat → Option R → Except ε (List R)
  | 0, _ => .ok []
  | n + 1, cursor => do
    let rows ← page cursor
    return rows ++ (← readPages page n (rows.getLast?.or cursor))

/-- The rows of `n` calls, each with the first row so far as its cursor. -/
def readPagesBack (page : Option R → Except ε (List R)) : Nat → Option R → Except ε (List R)
  | 0, _ => .ok []
  | n + 1, cursor => do
    let rows ← page cursor
    return (← readPagesBack page n (rows.head?.or cursor)) ++ rows

theorem readPages_from {page : Option R → Except ε (List R)}
    (hsorted : rows.Pairwise fun a b => key a < key b) (hfirst : page none = .ok (rows.take limit))
    (hnext : ∀ r ∈ rows, page (some r) = .ok ((rows.filter fun row => key r < key row).take limit)) (n : Nat) :
    ∀ done rest, rows = done ++ rest → readPages page n done.getLast? = .ok (rest.take (n * limit)) := by
  induction n with
  | zero =>
    intro done rest _
    simp [readPages]
  | succ n ih =>
    intro done rest hrows
    -- the page after the last row read is the start of the rest
    have hpage : page done.getLast? = .ok (rest.take limit) := by
      rcases eq_nil_or_concat done with rfl | ⟨done, r, rfl⟩
      · rw [nil_append] at hrows
        rw [getLast?_nil, hfirst, hrows]
      · rw [concat_eq_append, append_assoc, singleton_append] at hrows
        rw [concat_eq_append, getLast?_concat, hnext r (by simp [hrows]), hrows,
          filter_lt_key (hrows ▸ hsorted)]
    have hcursor : (rest.take limit).getLast?.or done.getLast? = (done ++ rest.take limit).getLast? := by
      rw [getLast?_append]
    have hmore :=
      ih (done ++ rest.take limit) (rest.drop limit) (by rw [hrows, append_assoc, take_append_drop])
    show (page done.getLast? >>= fun rows => _) = _
    rw [hpage]
    show (readPages page n ((rest.take limit).getLast?.or done.getLast?) >>= fun more => _) = _
    rw [hcursor, hmore, Nat.succ_mul, Nat.add_comm, take_add]
    rfl

theorem readPages_eq {page : Option R → Except ε (List R)}
    (hsorted : rows.Pairwise fun a b => key a < key b) (hfirst : page none = .ok (rows.take limit))
    (hnext : ∀ r ∈ rows, page (some r) = .ok ((rows.filter fun row => key r < key row).take limit)) (n : Nat) :
    readPages page n none = .ok (rows.take (n * limit)) :=
  readPages_from hsorted hfirst hnext n [] rows rfl

theorem rdrop_append_rtake (l : List R) (n : Nat) : l.rdrop n ++ l.rtake n = l := by
  rw [rdrop_eq_reverse_drop_reverse, rtake_eq_reverse_take_reverse, ← reverse_append,
    take_append_drop, reverse_reverse]

theorem rtake_add (l : List R) (m n : Nat) : l.rtake (m + n) = (l.rdrop m).rtake n ++ l.rtake m := by
  rw [rtake_eq_reverse_take_reverse, rtake_eq_reverse_take_reverse, rtake_eq_reverse_take_reverse,
    rdrop_eq_reverse_drop_reverse, reverse_reverse, ← reverse_append, take_add]

theorem readPagesBack_from {page : Option R → Except ε (List R)}
    (hsorted : rows.Pairwise fun a b => key a < key b)
    (hprevious : ∀ r ∈ rows,
      page (some r) = .ok ((rows.filter fun row => key row < key r).rtake limit)) (n : Nat) :
    ∀ rest done, rows = rest ++ done → done ≠ [] →
      readPagesBack page n done.head? = .ok (rest.rtake (n * limit)) := by
  induction n with
  | zero =>
    intro rest done _ _
    simp [readPagesBack]
  | succ n ih =>
    intro rest done hrows hdone
    obtain ⟨r, after, rfl⟩ := exists_cons_of_ne_nil hdone
    have hpage : page (some r) = .ok (rest.rtake limit) := by
      rw [hprevious r (by simp [hrows]), hrows, filter_key_lt (hrows ▸ hsorted)]
    have hcursor : (rest.rtake limit).head?.or (some r) = (rest.rtake limit ++ r :: after).head? := by
      rw [head?_append]
      rfl
    have hmore := ih (rest.rdrop limit) (rest.rtake limit ++ r :: after)
      (by rw [hrows, ← append_assoc, rdrop_append_rtake]) (by simp)
    show (page (some r) >>= fun rows => _) = _
    rw [hpage]
    show (readPagesBack page n ((rest.rtake limit).head?.or (some r)) >>= fun more => _) = _
    rw [hcursor, hmore, Nat.succ_mul, Nat.add_comm, rtake_add]
    rfl

theorem readPagesBack_eq {page : Option R → Except ε (List R)}
    (hsorted : (before ++ r :: after).Pairwise fun a b => key a < key b)
    (hprevious : ∀ r' ∈ before ++ r :: after,
      page (some r') = .ok (((before ++ r :: after).filter fun row => key row < key r').rtake limit)) (n : Nat) :
    readPagesBack page n (some r) = .ok (before.rtake (n * limit)) :=
  readPagesBack_from hsorted hprevious n before (r :: after) rfl (by simp)

end KeysetPaging

end Foundations
