import Mathlib

/-!
# `LIKE` patterns

A pattern is cut into tokens: any run of characters, any one character, or a character as it stands;
an escape character makes the next one stand for itself. A text that is escaped stands for itself,
and between two runs it is found wherever it occurs under the folding.
-/

namespace Foundations.SqlLike

open List

variable {α β : Type*}

inductive Token (α : Type*) where
  | any
  | one
  | lit (c : α)
  deriving DecidableEq, Repr

/-- The tokens of a pattern; `none` when it ends in the escape character. -/
def tokens [DecidableEq α] (any one esc : α) : List α → Option (List (Token α))
  | [] => some []
  | c :: cs =>
    if c = any then (tokens any one esc cs).map (.any :: ·)
    else if c = esc then
      match cs with
      | [] => none
      | d :: cs => (tokens any one esc cs).map (.lit d :: ·)
    else if c = one then (tokens any one esc cs).map (.one :: ·)
    else (tokens any one esc cs).map (.lit c :: ·)

def accepts [DecidableEq β] (fold : α → β) : List (Token α) → List α → Bool
  | [], xs => xs.isEmpty
  | .any :: ts, xs => xs.tails.any (accepts fold ts)
  | .one :: ts, xs =>
    match xs with
    | [] => false
    | _ :: xs => accepts fold ts xs
  | .lit c :: ts, xs =>
    match xs with
    | [] => false
    | x :: xs => fold c = fold x && accepts fold ts xs

def escape [DecidableEq α] (any one esc : α) (cs : List α) : List α :=
  cs.flatMap fun c => if c = esc ∨ c = any ∨ c = one then [esc, c] else [c]

theorem tokens_any [DecidableEq α] (any one esc : α) (cs : List α) :
    tokens any one esc (any :: cs) = (tokens any one esc cs).map (.any :: ·) := by
  rw [tokens.eq_def]
  simp only [if_true]

theorem tokens_escape [DecidableEq α] {any one esc : α} (hesc : esc ≠ any) (cs rest : List α) :
    tokens any one esc (escape any one esc cs ++ rest) =
      (tokens any one esc rest).map fun ts => cs.map Token.lit ++ ts := by
  induction cs with
  | nil => simp [escape]
  | cons c cs ih =>
    have hcons : escape any one esc (c :: cs) ++ rest =
        (if c = esc ∨ c = any ∨ c = one then [esc, c] else [c]) ++ (escape any one esc cs ++ rest) := by
      simp [escape]
    rw [hcons]
    by_cases hc : c = esc ∨ c = any ∨ c = one
    · -- the escape character, and then the character itself
      rw [if_pos hc]
      show tokens any one esc (esc :: c :: (escape any one esc cs ++ rest)) = _
      rw [tokens, if_neg hesc, if_pos rfl, ih, Option.map_map]
      rfl
    · rw [if_neg hc]
      rw [not_or, not_or] at hc
      show tokens any one esc (c :: (escape any one esc cs ++ rest)) = _
      rw [tokens.eq_def]
      simp only [hc.1, hc.2.1, hc.2.2, if_false]
      rw [ih, Option.map_map]
      rfl

variable [DecidableEq β] {fold : α → β}

theorem accepts_any {ts : List (Token α)} {xs : List α} :
    accepts fold (.any :: ts) xs = true ↔ ∃ t, t <:+ xs ∧ accepts fold ts t = true := by
  rw [accepts, any_eq_true]
  simp only [mem_tails]

theorem accepts_prefix {w xs : List α} :
    accepts fold (w.map Token.lit ++ [.any]) xs = true ↔ w.map fold <+: xs.map fold := by
  induction w generalizing xs with
  | nil =>
    refine iff_of_true ?_ nil_prefix
    show accepts fold [.any] xs = true
    rw [accepts_any]
    exact ⟨[], nil_suffix, rfl⟩
  | cons c w ih =>
    cases xs with
    | nil => simp [accepts]
    | cons x xs => simp [accepts, cons_prefix_cons, ih]

theorem accepts_contains {w xs : List α} :
    accepts fold (.any :: (w.map Token.lit ++ [.any])) xs = true ↔ w.map fold <:+: xs.map fold := by
  rw [accepts_any, infix_iff_prefix_suffix]
  constructor
  · rintro ⟨t, ht, hprefix⟩
    exact ⟨t.map fold, accepts_prefix.mp hprefix, ht.map fold⟩
  · rintro ⟨_, hprefix, hsuffix⟩
    obtain ⟨t, ht, rfl⟩ := List.suffix_map_iff.mp hsuffix
    exact ⟨t, ht, accepts_prefix.mpr hprefix⟩

end Foundations.SqlLike
