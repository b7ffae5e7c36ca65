import Mathlib

/-!
# Drawing unused identifiers

A counter is turned into an identifier by a mask, and a draw advances the counter until the masked
value is unused.
-/

namespace Foundations

open List

/-- The first counter from `next` on whose identifier is unused: the identifier and the next
counter. Gives up after `fuel` used ones and takes the one after. -/
def findFresh (mask : Nat → Nat) (used : Finset Nat) : Nat → Nat → Nat × Nat
  | 0, next => (mask next, next + 1)
  | fuel + 1, next =>
    if mask next ∈ used then findFresh mask used fuel (next + 1) else (mask next, next + 1)

/-- At most `k` counters share an identifier. -/
def AtMostToOne (k : Nat) (mask : Nat → Nat) : Prop :=
  ∀ (s : Finset Nat) (b : Nat), (∀ x ∈ s, mask x = b) → s.card ≤ k

variable {mask : Nat → Nat} {used : Finset Nat} {k : Nat}

theorem findFresh_stops (mask : Nat → Nat) (used : Finset Nat) (fuel next : Nat) :
    ∃ c, next ≤ c ∧ findFresh mask used fuel next = (mask c, c + 1) ∧
      (∀ x, next ≤ x → x < c → mask x ∈ used) ∧ (mask c ∉ used ∨ c = next + fuel) := by
  induction fuel generalizing next with
  | zero => exact ⟨next, le_refl _, rfl, fun x _ _ => by omega, Or.inr rfl⟩
  | succ fuel ih =>
    by_cases hused : mask next ∈ used
    · obtain ⟨c, hle, hc, hbelow, hstop⟩ := ih (next + 1)
      refine ⟨c, by omega, by rw [findFresh, if_pos hused, hc], fun x hx hlt => ?_, ?_⟩
      · by_cases h : x = next
        · exact h ▸ hused
        · exact hbelow x (by omega) hlt
      · exact hstop.imp_right (by omega)
    · refine ⟨next, le_refl _, by rw [findFresh, if_neg hused], fun x _ _ => by omega, Or.inl hused⟩

theorem exists_notMem_of_run (hk : AtMostToOne k mask) (next : Nat) {len : Nat}
    (hlen : k * used.card < len) : ∃ x, next ≤ x ∧ x < next + len ∧ mask x ∉ used := by
  by_contra hall
  push Not at hall
  have himage : (Finset.Ico next (next + len)).image mask ⊆ used := by
    intro b hb
    obtain ⟨x, hx, rfl⟩ := Finset.mem_image.mp hb
    rw [Finset.mem_Ico] at hx
    exact hall x hx.1 hx.2
  have hcard : (Finset.Ico next (next + len)).card
      ≤ k * ((Finset.Ico next (next + len)).image mask).card := by
    apply Finset.card_le_mul_card_image
    intro b _
    exact hk _ b fun x hx => (Finset.mem_filter.mp hx).2
  have hle := Nat.mul_le_mul_left k (Finset.card_le_card himage)
  rw [Nat.card_Ico] at hcard
  omega

theorem findFresh_spec (hk : AtMostToOne k mask) {fuel : Nat} (hfuel : k * used.card ≤ fuel)
    (next : Nat) : ∃ c, next ≤ c ∧ findFresh mask used fuel next = (mask c, c + 1) ∧ mask c ∉ used := by
  obtain ⟨c, hle, hc, hbelow, hstop⟩ := findFresh_stops mask used fuel next
  refine ⟨c, hle, hc, ?_⟩
  rcases hstop with hfresh | rfl
  · exact hfresh
  · intro hmem
    obtain ⟨x, hge, hlt, hfresh⟩ :=
      exists_notMem_of_run hk next (Nat.lt_succ_of_le hfuel)
    by_cases hx : x = next + fuel
    · exact hfresh (hx ▸ hmem)
    · exact hfresh (hbelow x hge (by omega))

end Foundations

/-!
# Counters kept beside a table

Rows have ids, and a row may count for an owner. Beside the table every owner has a number that is
meant to be the number of its rows.
-/

namespace Foundations

open List

section Tally

variable {R I K : Type*} [DecidableEq I] [DecidableEq K] {id : R → I} {owner : R → Option K}

def tally (owner : R → Option K) (rows : List R) (k : K) : Nat := rows.countP fun r => owner r = some k

def ownerOf (id : R → I) (owner : R → Option K) (rows : List R) (x : I) : Option K :=
  (rows.find? fun r => id r = x).bind owner

def without (id : R → I) (rows : List R) (x : I) : List R := rows.filter fun r => id r ≠ x

/-- A counter after the removal of a row that was read as a row of `read`. It does not go below
zero. -/
def lowered (read : Option K) (k : K) (count : Int) : Int := if read = some k then max 0 (count - 1) else count

theorem tally_concat (rows : List R) (r : R) (k : K) :
    tally owner (rows ++ [r]) k = tally owner rows k + if owner r = some k then 1 else 0 := by
  rw [tally, countP_append, countP_singleton]
  by_cases h : owner r = some k <;> simp [tally, h]

theorem without_of_forall_ne {rows : List R} {x : I} (h : ∀ r ∈ rows, id r ≠ x) : without id rows x = rows :=
  List.filter_eq_self.mpr fun r hr => decide_eq_true (h r hr)

theorem tally_without {rows : List R} (hnodup : (rows.map id).Nodup) (x : I) (k : K) :
    tally owner (without id rows x) k + (if ownerOf id owner rows x = some k then 1 else 0)
      = tally owner rows k := by
  induction rows with
  | nil => rfl
  | cons r rows ih =>
    rw [map_cons, nodup_cons] at hnodup
    obtain ⟨hfresh, hnodup⟩ := hnodup
    by_cases hr : id r = x
    · -- the row itself; no other row has its id
      have hrest : ∀ r' ∈ rows, id r' ≠ x := fun r' hr' heq =>
        hfresh (List.mem_map.mpr ⟨r', hr', heq.trans hr.symm⟩)
      have herase : without id (r :: rows) x = rows := by
        rw [without, filter_cons_of_neg (by simp [hr])]
        exact without_of_forall_ne hrest
      have howner : ownerOf id owner (r :: rows) x = owner r := by
        rw [ownerOf, find?_cons_of_pos (by simp [hr])]
        rfl
      rw [herase, howner, tally, tally, countP_cons]
      simp
    · have herase : without id (r :: rows) x = r :: without id rows x := by
        rw [without, filter_cons_of_pos (by simp [hr])]
        rfl
      have howner : ownerOf id owner (r :: rows) x = ownerOf id owner rows x := by
        rw [ownerOf, find?_cons_of_neg (by simp [hr])]
        rfl
      have hih := ih hnodup
      rw [herase, howner, tally, tally, countP_cons, countP_cons]
      unfold tally at hih
      omega

theorem lowered_eq_tally_iff {rows : List R} (hnodup : (rows.map id).Nodup) {x : I} {k : K}
    {count : Int} (hcount : count = tally owner rows k) (read : Option K) :
    lowered read k count = tally owner (without id rows x) k ↔
      (ownerOf id owner rows x = some k → read = some k)
        ∧ (read = some k → ownerOf id owner rows x = some k ∨ count = 0) := by
  have hsplit : tally owner (without id rows x) k + (if ownerOf id owner rows x = some k then 1 else 0)
      = tally owner rows k := tally_without hnodup x k
  unfold lowered
  by_cases hread : read = some k <;> by_cases howner : ownerOf id owner rows x = some k
  all_goals simp only [hread, howner, if_true, if_false] at hsplit ⊢
  · simp only [true_or, implies_true, and_self, iff_true]
    omega
  · simp only [false_implies, false_or, true_and, true_implies]
    omega
  · simp only [true_implies, false_implies, and_true, iff_false]
    omega
  · simp only [false_implies, and_self, iff_true]
    omega

end Tally

end Foundations
