import Mathlib

/-!
# Numbers written with a fixed width

`padded w n` is `n` in `w` decimal digits, `fixed` a record of numbers so written, each followed by
its separator.
-/

namespace Foundations

open List

theorem append_lt_append_iff {α : Type*} [LinearOrder α] {p q s t : List α}
    (h : p.length = q.length) : p ++ s < q ++ t ↔ p < q ∨ p = q ∧ s < t := by
  induction p generalizing q with
  | nil =>
    obtain rfl := List.length_eq_zero_iff.mp h.symm
    simp
  | cons a p ih =>
    match q, h with
    | b :: q, h =>
      rw [cons_append, cons_append, cons_lt_cons_iff, cons_lt_cons_iff, ih (Nat.succ.inj h),
        List.cons.injEq]
      tauto

def padded : Nat → Nat → List Char
  | 0, _ => []
  | w + 1, n => Nat.digitChar (n / 10 ^ w % 10) :: padded w n

@[simp] theorem length_padded (w n : Nat) : (padded w n).length = w := by
  induction w with
  | zero => rfl
  | succ w ih => simp [padded, ih]

theorem digitChar_lt_digitChar {d e : Nat} (hd : d < 10) (he : e < 10) :
    Nat.digitChar d < Nat.digitChar e ↔ d < e := by
  have hall : ∀ d e : Fin 10, Nat.digitChar d < Nat.digitChar e ↔ d.1 < e.1 := by decide
  exact hall ⟨d, hd⟩ ⟨e, he⟩

theorem digitChar_inj {d e : Nat} (hd : d < 10) (he : e < 10) : Nat.digitChar d = Nat.digitChar e ↔ d = e := by
  have hall : ∀ d e : Fin 10, Nat.digitChar d = Nat.digitChar e ↔ d.1 = e.1 := by decide
  exact hall ⟨d, hd⟩ ⟨e, he⟩

theorem padded_lt_padded {w a b : Nat} : padded w a < padded w b ↔ a % 10 ^ w < b % 10 ^ w := by
  induction w with
  | zero => simp [padded, Nat.mod_one]
  | succ w ih =>
    have hpos : 0 < 10 ^ w := Nat.pow_pos (by decide)
    have ha := Nat.mod_lt a hpos
    have hb := Nat.mod_lt b hpos
    have hda : a / 10 ^ w % 10 < 10 := Nat.mod_lt _ (by decide)
    have hdb : b / 10 ^ w % 10 < 10 := Nat.mod_lt _ (by decide)
    rw [padded, padded, cons_lt_cons_iff, ih, digitChar_lt_digitChar hda hdb, digitChar_inj hda hdb,
      Nat.pow_succ, Nat.mod_mul, Nat.mod_mul]
    generalize 10 ^ w = base at *
    constructor
    · rintro (hlt | ⟨heq, hlt⟩)
      · have hstep : base * (a / base % 10 + 1) ≤ base * (b / base % 10) := Nat.mul_le_mul_left base hlt
        rw [Nat.mul_add, Nat.mul_one] at hstep
        omega
      · rw [heq]
        omega
    · intro hlt
      by_cases hless : a / base % 10 < b / base % 10
      · exact .inl hless
      · right
        rcases Nat.lt_or_eq_of_le (Nat.le_of_not_lt hless) with hgt | heq
        · have hstep : base * (b / base % 10 + 1) ≤ base * (a / base % 10) := Nat.mul_le_mul_left base hgt
          rw [Nat.mul_add, Nat.mul_one] at hstep
          omega
        · rw [heq] at hlt
          exact ⟨heq.symm, by omega⟩

theorem padded_inj {w a b : Nat} : padded w a = padded w b ↔ a % 10 ^ w = b % 10 ^ w := by
  constructor
  · intro heq
    have hab : ¬ a % 10 ^ w < b % 10 ^ w := fun h => absurd (padded_lt_padded.mpr h) (heq ▸ lt_irrefl _)
    have hba : ¬ b % 10 ^ w < a % 10 ^ w := fun h => absurd (padded_lt_padded.mpr h) (heq ▸ lt_irrefl _)
    omega
  · intro heq
    have hab : ¬ padded w a < padded w b := fun h => absurd (padded_lt_padded.mp h) (heq ▸ Nat.lt_irrefl _)
    have hba : ¬ padded w b < padded w a := fun h => absurd (padded_lt_padded.mp h) (heq ▸ Nat.lt_irrefl _)
    exact le_antisymm (not_lt.mp hba) (not_lt.mp hab)

def fixed : List (Nat × List Char) → List Nat → List Char
  | (w, sep) :: layout, n :: ns => padded w n ++ (sep ++ fixed layout ns)
  | _, _ => []

def Fits : List (Nat × List Char) → List Nat → Prop
  | [], [] => True
  | (w, _) :: layout, n :: ns => n < 10 ^ w ∧ Fits layout ns
  | _, _ => False

theorem fixed_lt_fixed {layout : List (Nat × List Char)} {as bs : List Nat} (ha : Fits layout as)
    (hb : Fits layout bs) :
    fixed layout as < fixed layout bs ↔ as < bs := by
  induction layout generalizing as bs with
  | nil =>
    match as, bs, ha, hb with
    | [], [], _, _ => simp [fixed]
  | cons entry layout ih =>
    obtain ⟨w, sep⟩ := entry
    match as, bs, ha, hb with
    | a :: as, b :: bs, ha, hb =>
      have hsep : sep ++ fixed layout as < sep ++ fixed layout bs ↔ fixed layout as < fixed layout bs := by
        rw [append_lt_append_iff rfl]
        exact (or_iff_right (lt_irrefl _)).trans (and_iff_right rfl)
      rw [fixed, fixed, append_lt_append_iff ((length_padded w a).trans (length_padded w b).symm),
        hsep, ih ha.2 hb.2, padded_lt_padded, padded_inj, Nat.mod_eq_of_lt ha.1,
        Nat.mod_eq_of_lt hb.1, cons_lt_cons_iff]

end Foundations
