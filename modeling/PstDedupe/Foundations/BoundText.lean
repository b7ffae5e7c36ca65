import Mathlib

/-!
# A statement with its values in place

`text` of a `BoundText` shows every value as a placeholder and `values` lists them; `bindParams`
puts a list of parameters into a text, the k-th one at its k-th placeholder.
-/

namespace Foundations

open List Option String

/-- Characters of a statement and values bound in it, in the order in which they are read. -/
abbrev BoundText (V : Type) := List (Char ⊕ V)

namespace BoundText

variable {V : Type}

def sql (s : String) : BoundText V := s.toList.map .inl

def val (v : V) : BoundText V := [.inr v]

def text (b : BoundText V) : String := ofList (b.map (Sum.elim id fun _ => '?'))

def values (b : BoundText V) : List V := b.filterMap Sum.getRight?

def joined (separator : String) : List (BoundText V) → BoundText V
  | [] => []
  | [b] => b
  | b :: c :: bs => b ++ sql separator ++ joined separator (c :: bs)

/-- Positional binding: the k-th placeholder of the text gets the k-th parameter, and none is left
over. -/
def bindParams : List Char → List V → Option (BoundText V)
  | [], [] => some []
  | [], _ :: _ => none
  | c :: cs, params =>
    if c = '?' then
      match params with
      | [] => none
      | v :: params => (bindParams cs params).map (.inr v :: ·)
    else (bindParams cs params).map (.inl c :: ·)

def Plain (b : BoundText V) : Prop := .inl '?' ∉ b

theorem toList_text (b : BoundText V) : (text b).toList = b.map (Sum.elim id fun _ => '?') := toList_ofList

@[simp] theorem text_nil : text ([] : BoundText V) = "" := rfl

@[simp] theorem text_val (v : V) : text (val v) = "?" := rfl

@[simp] theorem text_sql (s : String) : text (sql s : BoundText V) = s := by
  apply toList_injective
  rw [toList_text, sql, List.map_map]
  exact List.map_id _

@[simp] theorem text_append (a b : BoundText V) : text (a ++ b) = text a ++ text b := by
  unfold text
  rw [map_append, ofList_append]

@[simp] theorem values_sql (s : String) : values (sql s : BoundText V) = [] := by
  unfold values sql
  rw [filterMap_map]
  exact List.filterMap_eq_nil_iff.mpr fun _ _ => rfl

@[simp] theorem values_nil : values ([] : BoundText V) = [] := rfl

@[simp] theorem values_val (v : V) : values (val v) = [v] := rfl

@[simp] theorem values_append (a b : BoundText V) : values (a ++ b) = values a ++ values b := filterMap_append

theorem text_joined (separator : String) (bs : List (BoundText V)) :
    text (joined separator bs) = separator.intercalate (bs.map text) := by
  fun_induction joined separator bs with
  | case1 => rfl
  | case2 b => simp
  | case3 b c bs ih =>
    simp only [text_append, text_sql, ih, map_cons, String.intercalate_cons_cons]

theorem values_joined (separator : String) (bs : List (BoundText V)) :
    values (joined separator bs) = bs.flatMap values := by
  fun_induction joined separator bs with
  | case1 => rfl
  | case2 b => simp
  | case3 b c bs ih => simp [ih]

def NoMark (s : String) : Prop := '?' ∉ s.toList

instance (s : String) : Decidable (NoMark s) := inferInstanceAs (Decidable ('?' ∉ s.toList))

@[simp] theorem noMark_append (s t : String) : NoMark (s ++ t) ↔ NoMark s ∧ NoMark t := by
  unfold NoMark
  rw [toList_append, mem_append, not_or]

theorem noMark_ofList {cs : List Char} (h : '?' ∉ cs) : NoMark (ofList cs) := by
  unfold NoMark
  rwa [toList_ofList]

theorem noMark_intercalate {separator : String} {parts : List String} (hseparator : NoMark separator)
    (h : ∀ part ∈ parts, NoMark part) : NoMark (separator.intercalate parts) := by
  induction parts with
  | nil =>
    show NoMark ""
    decide
  | cons part parts ih =>
    have hpart : NoMark part := h part mem_cons_self
    cases parts with
    | nil => exact hpart
    | cons next parts =>
      rw [String.intercalate_cons_cons, noMark_append, noMark_append]
      exact ⟨⟨hpart, hseparator⟩, ih fun part' hmem => h part' (mem_cons_of_mem _ hmem)⟩

@[simp] theorem plain_nil : Plain ([] : BoundText V) := not_mem_nil

@[simp] theorem plain_sql (s : String) : Plain (sql s : BoundText V) ↔ NoMark s := by
  unfold Plain NoMark sql
  simp

@[simp] theorem plain_val (v : V) : Plain (val v) := by
  unfold Plain val
  simp

@[simp] theorem plain_append (a b : BoundText V) : Plain (a ++ b) ↔ Plain a ∧ Plain b := by
  unfold Plain
  rw [mem_append, not_or]

theorem plain_joined {separator : String} {bs : List (BoundText V)} (hseparator : NoMark separator)
    (hbs : ∀ b ∈ bs, Plain b) : Plain (joined separator bs) := by
  fun_induction joined separator bs with
  | case1 => exact plain_nil
  | case2 b => exact hbs b mem_cons_self
  | case3 b c bs ih =>
    rw [plain_append, plain_append, plain_sql]
    exact ⟨⟨hbs b mem_cons_self, hseparator⟩, ih fun b' hb' => hbs b' (mem_cons_of_mem _ hb')⟩

theorem bindParams_text {b : BoundText V} (h : Plain b) : bindParams (text b).toList (values b) = some b := by
  rw [toList_text]
  induction b with
  | nil => rfl
  | cons x b ih =>
    obtain ⟨hx, hb⟩ := not_or.mp (mt List.mem_cons.mpr h)
    cases x with
    | inl c =>
      have hc : c ≠ '?' := fun hc => hx (by rw [hc])
      have hvalues : values (.inl c :: b) = values b := rfl
      simp only [map_cons, Sum.elim_inl, id, hvalues, bindParams, if_neg hc, ih hb, map_some]
    | inr v =>
      have hvalues : values (.inr v :: b) = v :: values b := rfl
      simp only [map_cons, Sum.elim_inr, hvalues, bindParams, if_true, ih hb, map_some]

theorem count_placeholders {b : BoundText V} (h : Plain b) :
    (text b).toList.count '?' = (values b).length := by
  rw [toList_text]
  induction b with
  | nil => rfl
  | cons x b ih =>
    obtain ⟨hx, hb⟩ := not_or.mp (mt List.mem_cons.mpr h)
    cases x with
    | inl c =>
      have hc : c ≠ '?' := fun hc => hx (by rw [hc])
      show (c :: b.map _).count '?' = (values b).length
      rw [count_cons_of_ne hc, ih hb]
    | inr v =>
      show ('?' :: b.map _).count '?' = (v :: values b).length
      rw [count_cons_self, ih hb, length_cons]

end BoundText

end Foundations
