import Mathlib

/-!
# Rounds of neighbours, and the runs of an ordered list

`Within link n a b` says that at most `n` links lead from `a` to `b`.
-/

namespace Foundations

section Within

variable {α : Type*} {link : α → α → Prop} {n k : Nat} {a b c : α}

def Within (link : α → α → Prop) : Nat → α → α → Prop
  | 0, a, b => a = b
  | n + 1, a, b => ∃ c, Within link n a c ∧ (c = b ∨ link c b)

theorem Within.tail (h : Within link n a b) (hlink : link b c) : Within link (n + 1) a c := ⟨b, h, .inr hlink⟩

theorem Within.mono (h : Within link n a b) (hle : n ≤ k) : Within link k a b := by
  induction hle with
  | refl => exact h
  | step _ ih => exact ⟨b, ih, .inl rfl⟩

def GrowsBy (link : α → α → Prop) (round : List α → List α) : Prop :=
  ∀ held x, x ∈ round held ↔ x ∈ held ∨ ∃ c ∈ held, link c x

theorem mem_rounds {round : List α → List α} (hgrows : GrowsBy link round) (n : Nat) (held : List α)
    (x : α) : x ∈ round^[n] held ↔ ∃ b ∈ held, Within link n b x := by
  induction n generalizing x with
  | zero =>
    show x ∈ held ↔ ∃ b ∈ held, b = x
    rw [exists_eq_right]
  | succ n ih =>
    rw [Function.iterate_succ_apply', hgrows]
    constructor
    · rintro (hx | ⟨c, hc, hlink⟩)
      · obtain ⟨b, hb, hbx⟩ := (ih x).mp hx
        exact ⟨b, hb, x, hbx, .inl rfl⟩
      · obtain ⟨b, hb, hbc⟩ := (ih c).mp hc
        exact ⟨b, hb, hbc.tail hlink⟩
    · rintro ⟨b, hb, c, hbc, rfl | hlink⟩
      · exact .inl ((ih c).mpr ⟨b, hb, hbc⟩)
      · exact .inr ⟨c, (ih c).mpr ⟨b, hb, hbc⟩, hlink⟩

def Short (link : α → α → Prop) : Prop := ∀ a b c d, link a b → link b c → link c d → Within link 2 a d

theorem Within.closed (hshort : Short link) (h : Within link 2 a b) (hlink : link b c) :
    Within link 2 a c := by
  obtain ⟨y, ⟨x, hax, hxy⟩, hyb⟩ := h
  have hax : a = x := hax
  rw [← hax] at hxy
  -- each of the two steps may be none
  rcases hyb with rfl | hyb
  · rcases hxy with rfl | hxy
    · exact (Within.tail (n := 0) rfl hlink).mono (by omega)
    · exact Within.tail (Within.tail (n := 0) rfl hxy) hlink
  · rcases hxy with rfl | hxy
    · exact Within.tail (Within.tail (n := 0) rfl hyb) hlink
    · exact hshort a y b c hxy hyb hlink

end Within

section Runs

variable {R K : Type*} [PartialOrder K] {key : R → K} {rows : List R} {i j k : Nat} {a b c : R}

theorem key_le_of_pairwise (hsorted : rows.Pairwise fun a b => key a ≤ key b)
    (ha : rows[i]? = some a) (hb : rows[j]? = some b) (hij : i ≤ j) : key a ≤ key b := by
  rcases Nat.eq_or_lt_of_le hij with rfl | hlt
  · rw [Option.some.inj (ha.symm.trans hb)]
  · obtain ⟨hi, rfl⟩ := List.getElem?_eq_some_iff.mp ha
    obtain ⟨hj, rfl⟩ := List.getElem?_eq_some_iff.mp hb
    exact List.pairwise_iff_getElem.mp hsorted i j hi hj hlt

theorem eq_of_between (hsorted : rows.Pairwise fun a b => key a ≤ key b) (ha : rows[i]? = some a)
    (hb : rows[j]? = some b) (hc : rows[k]? = some c) (hij : i ≤ j) (hjk : j ≤ k)
    (hkey : key a = key c) : key b = key a := by
  have hab := key_le_of_pairwise hsorted ha hb hij
  have hbc := key_le_of_pairwise hsorted hb hc hjk
  exact le_antisymm (hkey ▸ hbc) hab

end Runs

end Foundations
