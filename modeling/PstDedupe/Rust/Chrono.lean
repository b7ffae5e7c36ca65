import PstDedupe.Foundations.FixedWidth

/-!
# Clock times and their texts (`chrono`)

A UTC time to the millisecond and what `to_rfc3339_opts(Millis, true)` writes for it.
-/

namespace Rust

open Foundations String

/-- `DateTime<Utc>`, to the millisecond. -/
structure CivilTime where
  year : Int
  month : Nat
  day : Nat
  hour : Nat := 0
  minute : Nat := 0
  second : Nat := 0
  milli : Nat := 0
  wellFormed : month ≤ 12 ∧ day ≤ 31 ∧ hour < 24 ∧ minute < 60 ∧ second < 60 ∧ milli < 1000 := by decide
  deriving DecidableEq

namespace CivilTime

def within (t : CivilTime) : List Nat := [t.month, t.day, t.hour, t.minute, t.second, t.milli]

instance : LT CivilTime := ⟨fun a b => a.year < b.year ∨ a.year = b.year ∧ a.within < b.within⟩

instance : LE CivilTime := ⟨fun a b => ¬ b < a⟩

def FourDigits (t : CivilTime) : Prop := 0 ≤ t.year ∧ t.year ≤ 9999

instance (t : CivilTime) : Decidable t.FourDigits := inferInstanceAs (Decidable (_ ∧ _))

def yearText (year : Int) : List Char :=
  if 0 ≤ year ∧ year ≤ 9999 then padded 4 year.toNat
  else
    let digits := Nat.toDigits 10 year.natAbs
    (if year < 0 then '-' else '+') :: (List.replicate (4 - digits.length) '0' ++ digits)

/-- `MM-DDTHH:MM:SS.mmmZ`. -/
def withinLayout : List (Nat × List Char) :=
  [(2, ['-']), (2, ['T']), (2, [':']), (2, [':']), (2, ['.']), (3, ['Z'])]

/-- `to_rfc3339_opts(SecondsFormat::Millis, true)`. -/
def rfc3339 (t : CivilTime) : String := ofList (yearText t.year ++ '-' :: fixed withinLayout t.within)

theorem fits_within (t : CivilTime) : Fits withinLayout t.within := by
  obtain ⟨hmonth, hday, hhour, hminute, hsecond, hmilli⟩ := t.wellFormed
  show t.month < 10 ^ 2 ∧ t.day < 10 ^ 2 ∧ t.hour < 10 ^ 2 ∧ t.minute < 10 ^ 2 ∧ t.second < 10 ^ 2 ∧
    t.milli < 10 ^ 3 ∧ True
  exact ⟨by omega, by omega, by omega, by omega, by omega, by omega, trivial⟩

theorem rfc3339_lt_of_lt {a b : CivilTime} (hb : b.FourDigits) (h : a < b) : a.rfc3339 < b.rfc3339 := by
  rw [lt_iff_toList_lt]
  show (ofList _).toList < (ofList _).toList
  rw [toList_ofList, toList_ofList]
  have hyear : a.year ≤ b.year := by
    rcases h with hlt | ⟨heq, _⟩
    · exact Int.le_of_lt hlt
    · exact Int.le_of_eq heq
  have hb' : yearText b.year = padded 4 b.year.toNat := if_pos hb
  by_cases ha : 0 ≤ a.year
  · have ha' : yearText a.year = padded 4 a.year.toNat := if_pos ⟨ha, Int.le_trans hyear hb.2⟩
    have hsmall : a.year.toNat < 10 ^ 4 ∧ b.year.toNat < 10 ^ 4 := by
      have := hb.2
      omega
    rw [ha', hb', append_lt_append_iff ((length_padded _ _).trans (length_padded _ _).symm),
      padded_lt_padded, padded_inj, Nat.mod_eq_of_lt hsmall.1, Nat.mod_eq_of_lt hsmall.2,
      List.cons_lt_cons_iff, fixed_lt_fixed a.fits_within b.fits_within]
    rcases h with hlt | ⟨heq, hlt⟩
    · left
      omega
    · right
      exact ⟨by rw [heq], .inr ⟨rfl, hlt⟩⟩
  · -- a year before 0 begins with a minus
    have ha' : ∃ rest, yearText a.year = '-' :: rest := by
      unfold yearText
      rw [if_neg fun hyears => ha hyears.1, if_pos (Int.not_le.mp ha)]
      exact ⟨_, rfl⟩
    obtain ⟨rest, ha'⟩ := ha'
    rw [ha', hb']
    have hdigit : b.year.toNat / 10 ^ 3 % 10 < 10 := Nat.mod_lt _ (by decide)
    have hall : ∀ d : Fin 10, '-' < Nat.digitChar d := by decide
    exact List.cons_lt_cons_iff.mpr (.inl (hall ⟨_, hdigit⟩))

theorem le_of_rfc3339_le {a b : CivilTime} (ha : a.FourDigits) (h : a.rfc3339 ≤ b.rfc3339) : a ≤ b :=
  fun hlt => absurd (rfc3339_lt_of_lt ha hlt) (not_lt.mpr h)

theorem year_of_plus {t : CivilTime} (h : t.rfc3339.toList.head? = some '+') : 9999 < t.year := by
  unfold rfc3339 at h
  rw [toList_ofList] at h
  unfold yearText at h
  split at h
  · have hdigit : t.year.toNat / 10 ^ 3 % 10 < 10 := Nat.mod_lt _ (by decide)
    have hall : ∀ d : Fin 10, Nat.digitChar d ≠ '+' := by decide
    exact absurd (Option.some.inj h) (hall ⟨_, hdigit⟩)
  · rename_i hyears
    by_cases hneg : t.year < 0
    · rw [if_pos hneg] at h
      exact absurd (Option.some.inj h) (by decide)
    · omega

end CivilTime

end Rust
