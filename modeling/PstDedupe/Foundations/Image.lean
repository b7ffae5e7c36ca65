import Mathlib

/-!
# Positioned writes

An image is a list of cells that grows on demand: writing past the end fills the gap. `Holds img off
cells` says that the cells stand at `off`.
-/

namespace Foundations

open List

variable {α : Type*}

/-- The image after a write of `cells` at `off`; a gap before `off` is filled with `z`. -/
def overwrite (z : α) (img : List α) (off : Nat) (cells : List α) : List α :=
  (img ++ replicate (off - img.length) z).take off ++ cells ++ img.drop (off + cells.length)

/-- The `n` cells at `off`, if the image has that many. -/
def window (img : List α) (off n : Nat) : Option (List α) :=
  if off + n ≤ img.length then some ((img.drop off).take n) else none

def Holds (img : List α) (off : Nat) (cells : List α) : Prop :=
  ∀ i, i < cells.length → img[off + i]? = cells[i]?

/-- Two regions, given as `(offset, size)`, share no cell. -/
def Apart (r s : Nat × Nat) : Prop := r.1 + r.2 ≤ s.1 ∨ s.1 + s.2 ≤ r.1

theorem Apart.symm {r s : Nat × Nat} (h : Apart r s) : Apart s r := Or.symm h

variable {z : α} {img cells : List α} {off n : Nat}

theorem length_overwrite : (overwrite z img off cells).length = max img.length (off + cells.length) := by
  simp only [overwrite, length_append, length_take, length_drop, length_replicate]
  omega

theorem getElem?_overwrite_inside {i : Nat} (h : i < cells.length) :
    (overwrite z img off cells)[off + i]? = cells[i]? := by
  have hlen : ((img ++ replicate (off - img.length) z).take off).length = off := by
    simp only [length_take, length_append, length_replicate]
    omega
  unfold overwrite
  rw [append_assoc, getElem?_append_right (by omega), hlen, Nat.add_sub_cancel_left,
    getElem?_append_left h]

theorem getElem?_overwrite_outside {j : Nat} (hj : j < img.length)
    (h : j < off ∨ off + cells.length ≤ j) : (overwrite z img off cells)[j]? = img[j]? := by
  have hlen : ((img ++ replicate (off - img.length) z).take off).length = off := by
    simp only [length_take, length_append, length_replicate]
    omega
  unfold overwrite
  rcases h with h | h
  · rw [append_assoc, getElem?_append_left (by omega), getElem?_take_of_lt h,
      getElem?_append_left hj]
  · rw [getElem?_append_right (by rw [length_append]; omega), length_append, hlen,
      getElem?_drop]
    congr 1
    omega

theorem holds_overwrite : Holds (overwrite z img off cells) off cells :=
  fun _ hi => getElem?_overwrite_inside hi

theorem Holds.length_le (h : Holds img off cells) (hne : cells ≠ []) : off + cells.length ≤ img.length := by
  have hpos := List.length_pos_iff.mpr hne
  have hlast := h (cells.length - 1) (by omega)
  rw [getElem?_eq_getElem (show cells.length - 1 < cells.length by omega)] at hlast
  have := (List.getElem?_eq_some_iff.mp hlast).1
  omega

theorem Holds.overwrite {off' : Nat} {cells' : List α} (h : Holds img off cells)
    (hapart : Apart (off, cells.length) (off', cells'.length)) :
    Holds (overwrite z img off' cells') off cells := by
  intro i hi
  have hget := h i hi
  rw [getElem?_eq_getElem hi] at hget ⊢
  have hlt := (List.getElem?_eq_some_iff.mp hget).1
  rw [getElem?_overwrite_outside hlt, hget]
  rcases hapart with h | h
  · exact Or.inl (by simp only at h; omega)
  · exact Or.inr (by simp only at h; omega)

theorem window_of_holds (h : Holds img off cells) (hne : cells ≠ []) :
    window img off cells.length = some cells := by
  rw [window, if_pos (h.length_le hne)]
  congr 1
  apply ext_getElem?
  intro i
  by_cases hi : i < cells.length
  · rw [getElem?_take_of_lt hi, getElem?_drop, h i hi]
  · rw [getElem?_take_eq_none (by omega), getElem?_eq_none (by omega)]

theorem length_of_window {w : List α} (h : window img off n = some w) : w.length = n := by
  unfold window at h
  split at h
  · rw [← Option.some.inj h, length_take, length_drop]
    omega
  · cases h

theorem Holds.append {a b : List α} :
    Holds img off (a ++ b) ↔ Holds img off a ∧ Holds img (off + a.length) b := by
  constructor
  · intro h
    constructor
    · intro i hi
      rw [h i (by rw [length_append]; omega), getElem?_append_left hi]
    · intro i hi
      rw [Nat.add_assoc, h (a.length + i) (by rw [length_append]; omega),
        getElem?_append_right (by omega), Nat.add_sub_cancel_left]
  · rintro ⟨ha, hb⟩ i hi
    by_cases hlt : i < a.length
    · rw [ha i hlt, getElem?_append_left hlt]
    · rw [length_append] at hi
      have := hb (i - a.length) (by omega)
      rw [getElem?_append_right (by omega), ← this]
      congr 1
      omega

def writeAll (z : α) (img : List α) (ws : List (Nat × List α)) : List α :=
  ws.foldl (fun img w => overwrite z img w.1 w.2) img

def region (w : Nat × List α) : Nat × Nat := (w.1, w.2.length)

theorem Holds.writeAll {ws : List (Nat × List α)} (h : Holds img off cells)
    (hapart : ∀ w ∈ ws, Apart (off, cells.length) (region w)) : Holds (writeAll z img ws) off cells := by
  induction ws generalizing img with
  | nil => exact h
  | cons w ws ih =>
    exact ih (h.overwrite (hapart w (by simp))) fun w' hw' => hapart w' (by simp [hw'])

theorem holds_writeAll {ws : List (Nat × List α)}
    (hapart : (ws.map region).Pairwise Apart) {w : Nat × List α} (hw : w ∈ ws) :
    Holds (writeAll z img ws) w.1 w.2 := by
  induction ws generalizing img with
  | nil => cases hw
  | cons w₀ ws ih =>
    rw [map_cons, pairwise_cons] at hapart
    rcases List.mem_cons.mp hw with rfl | hw
    · exact holds_overwrite.writeAll fun w' hw' => hapart.1 _ (mem_map_of_mem hw')
    · exact ih hapart.2 hw

end Foundations

/-!
# A bump allocator that leaves reserved slots free

Regions are handed out in ascending order, so they never overlap.
-/

namespace Foundations

open List

/-- The regions `(offset, size)` lie in order between two cursors. -/
inductive Laid : Nat → List (Nat × Nat) → Nat → Prop where
  | nil {c c' : Nat} (h : c ≤ c') : Laid c [] c'
  | cons {c c' off size : Nat} {rs : List (Nat × Nat)} (hoff : c ≤ off)
      (hrest : Laid (off + size) rs c') : Laid c ((off, size) :: rs) c'

namespace Laid

variable {c m c' : Nat} {rs ts : List (Nat × Nat)} {r : Nat × Nat}

theorem le (h : Laid c rs c') : c ≤ c' := by
  induction h with
  | nil h => exact h
  | cons hoff _ ih => omega

theorem append (h : Laid c rs m) (ht : Laid m ts c') : Laid c (rs ++ ts) c' := by
  induction h with
  | nil hle =>
    cases ht with
    | nil hle' => exact .nil (by omega)
    | cons hoff hrest => exact .cons (by omega) hrest
  | cons hoff _ ih => exact .cons hoff (ih ht)

theorem mem (h : Laid c rs c') (hr : r ∈ rs) : c ≤ r.1 ∧ r.1 + r.2 ≤ c' := by
  induction h with
  | nil => cases hr
  | cons hoff hrest ih =>
    rcases List.mem_cons.mp hr with rfl | hr
    · exact ⟨hoff, hrest.le⟩
    · have := ih hr
      exact ⟨by omega, this.2⟩

theorem pairwise_apart (h : Laid c rs c') : rs.Pairwise Apart := by
  induction h with
  | nil => exact .nil
  | cons hoff hrest ih => exact .cons (fun r hr => Or.inl (hrest.mem hr).1) ih

theorem of_append_right (h : Laid c (rs ++ ts) c') : ∃ m, c ≤ m ∧ Laid m ts c' := by
  induction rs generalizing c with
  | nil => exact ⟨c, Nat.le_refl _, h⟩
  | cons r rs ih =>
    cases h with
    | cons hoff hrest =>
      obtain ⟨m, hle, htail⟩ := ih hrest
      exact ⟨m, by omega, htail⟩

theorem sum_le (h : Laid c rs c') (hne : rs ≠ []) {m : Nat} (hm : ∀ r ∈ rs, r.1 + r.2 ≤ m) :
    c + (rs.map Prod.snd).sum ≤ m := by
  induction h with
  | nil => exact absurd rfl hne
  | @cons c c' off size rs hoff hrest ih =>
    rw [map_cons, sum_cons]
    have hfirst : off + size ≤ m := hm (off, size) mem_cons_self
    by_cases hrs : rs = []
    · rw [hrs, map_nil, sum_nil]
      omega
    · have := ih hrs fun r hr => hm r (mem_cons_of_mem _ hr)
      omega

end Laid

/-- Slots of `width` cells at `first`, `first + interval`, .. -/
structure SlotGrid where
  first : Nat
  interval : Nat
  width : Nat
  width_pos : 0 < width
  width_lt : width < interval

namespace SlotGrid

variable (g : SlotGrid)

def IsSlot (off : Nat) : Prop := g.first ≤ off ∧ (off - g.first) % g.interval = 0

instance (off : Nat) : Decidable (g.IsSlot off) := inferInstanceAs (Decidable (_ ∧ _))

def next (off : Nat) : Nat :=
  if off ≤ g.first then g.first
  else if (off - g.first) % g.interval = 0 then off
  else off + (g.interval - (off - g.first) % g.interval)

/-- No slot starts before `c` and ends after it. -/
def Clear (c : Nat) : Prop := ∀ s, g.IsSlot s → s < c → s + g.width ≤ c

def Avoids (r : Nat × Nat) : Prop := ∀ s, g.IsSlot s → Apart r (s, g.width)

variable {g} {off c s t size : Nat}

theorem isSlot_iff : g.IsSlot off ↔ ∃ k, off = g.first + k * g.interval := by
  unfold IsSlot
  constructor
  · rintro ⟨hle, hmod⟩
    refine ⟨(off - g.first) / g.interval, ?_⟩
    have := Nat.div_add_mod (off - g.first) g.interval
    rw [hmod, Nat.add_zero, Nat.mul_comm] at this
    omega
  · rintro ⟨k, rfl⟩
    exact ⟨Nat.le_add_right _ _, by rw [Nat.add_sub_cancel_left, Nat.mul_mod_left]⟩

theorem isSlot_first : g.IsSlot g.first := isSlot_iff.mpr ⟨0, by omega⟩

theorem isSlot_add_interval (h : g.IsSlot s) : g.IsSlot (s + g.interval) := by
  obtain ⟨k, rfl⟩ := isSlot_iff.mp h
  exact isSlot_iff.mpr ⟨k + 1, by rw [Nat.succ_mul]; omega⟩

theorem add_interval_le (hs : g.IsSlot s) (ht : g.IsSlot t) (hlt : s < t) : s + g.interval ≤ t := by
  obtain ⟨j, rfl⟩ := isSlot_iff.mp hs
  obtain ⟨k, rfl⟩ := isSlot_iff.mp ht
  have hjk : j < k := by
    by_contra hge
    have := Nat.mul_le_mul_right g.interval (Nat.le_of_not_lt hge)
    omega
  have := Nat.mul_le_mul_right g.interval hjk
  rw [Nat.succ_mul] at this
  omega

theorem le_next (g : SlotGrid) (off : Nat) : off ≤ g.next off := by
  unfold next
  split
  · assumption
  · split <;> omega

theorem isSlot_next (off : Nat) : g.IsSlot (g.next off) := by
  unfold next
  split
  · exact isSlot_first
  · rename_i hlt
    split
    · rename_i hmod
      exact ⟨by omega, hmod⟩
    · have hpos : 0 < g.interval := Nat.lt_of_le_of_lt (Nat.zero_le _) g.width_lt
      have hmod := Nat.mod_lt (off - g.first) hpos
      have hdiv := Nat.div_add_mod (off - g.first) g.interval
      apply isSlot_iff.mpr
      refine ⟨(off - g.first) / g.interval + 1, ?_⟩
      rw [Nat.succ_mul, Nat.mul_comm]
      omega

theorem next_le (hs : g.IsSlot s) (hle : off ≤ s) : g.next off ≤ s := by
  by_contra hlt
  have hgap := add_interval_le hs (isSlot_next off) (by omega)
  have hfirst := hs.1
  have hpos : 0 < g.interval := Nat.lt_of_le_of_lt (Nat.zero_le _) g.width_lt
  unfold next at hgap hlt
  split at hgap
  · omega
  · split at hgap
    · omega
    · have := Nat.mod_lt (off - g.first) hpos
      omega

theorem next_eq_self (h : g.IsSlot off) : g.next off = off :=
  Nat.le_antisymm (next_le h (Nat.le_refl _)) (g.le_next off)

theorem next_eq_of_isSlot (hs : g.IsSlot s) (hle : off ≤ s) (hlt : s < off + g.interval) : g.next off = s := by
  apply Nat.le_antisymm (next_le hs hle)
  by_contra h
  have := add_interval_le (isSlot_next off) hs (by omega)
  have := g.le_next off
  omega

theorem Avoids.of_le_next (hclear : g.Clear c) (hend : c + size ≤ g.next c) : g.Avoids (c, size) := by
  intro s hs
  by_cases hlt : s < c
  · exact Or.inr (hclear s hs hlt)
  · have := next_le hs (Nat.le_of_not_lt hlt)
    exact Or.inl (by show c + size ≤ s; omega)

theorem Avoids.clear (h : g.Avoids (off, size)) : g.Clear (off + size) := by
  intro s hs hlt
  rcases h s hs with hbefore | hafter
  · simp only at hbefore
    omega
  · simp only at hafter
    omega

theorem clear_slot_end (h : g.IsSlot s) : g.Clear (s + g.width) := by
  intro t ht hlt
  by_cases hst : s < t
  · have := add_interval_le h ht hst
    have := g.width_lt
    omega
  · omega

theorem next_slot_end (h : g.IsSlot s) : g.next (s + g.width) = s + g.interval := by
  have hwidth := g.width_lt
  have hpos := g.width_pos
  exact next_eq_of_isSlot (isSlot_add_interval h) (by omega) (by omega)

theorem Clear.mono (h : g.Clear c) {c' : Nat} (hle : c ≤ c') (hnext : c' ≤ g.next c) : g.Clear c' := by
  intro s hs hlt
  by_cases hsc : s < c
  · have := h s hs hsc
    omega
  · have := next_le hs (Nat.le_of_not_lt hsc)
    omega

end SlotGrid

end Foundations
