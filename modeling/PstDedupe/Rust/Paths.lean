import PstDedupe.Rust.Std

/-!
# Cutting paths into names and folding their case

`str::split` and the trims with a set of characters, `Path::file_stem` and `str::to_uppercase`.
-/

namespace Rust

open List

variable {cs : List Char} {p : Char → Bool} {s : String} {c : Char} {sep : String} {names : List String}

class UnicodeTables where
  /-- `char::to_uppercase`. -/
  toUppercase : Char → List Char
  toUppercase_ascii : ∀ c : Char, c.toNat < 128 → toUppercase c = [c.toUpper]

/-- `str::to_uppercase`, which maps the characters one by one. -/
def toUppercase [UnicodeTables] (s : String) : String :=
  String.ofList (s.toList.flatMap UnicodeTables.toUppercase)

abbrev UnicodeTables.ascii : UnicodeTables := ⟨fun c => [c.toUpper], fun _ _ => rfl⟩

def isControl (c : Char) : Bool := c.toNat < 0x20 || (0x7F ≤ c.toNat && c.toNat < 0xA0)

def replaceChar (s : String) (c d : Char) : String :=
  String.ofList (s.toList.map fun x => if x = c then d else x)

/-- `str::trim_start_matches` with a predicate. -/
def trimStartWhere (p : Char → Bool) (s : String) : String := String.ofList (s.toList.dropWhile p)

/-- `str::trim_matches` with a predicate. -/
def trimWhere (p : Char → Bool) (s : String) : String := String.ofList (trimMatches p s.toList)

/-- `str::split` with a predicate, on the characters. -/
def splitCharsWhere (p : Char → Bool) : List Char → List (List Char)
  | [] => [[]]
  | x :: xs =>
    if p x then [] :: splitCharsWhere p xs
    else match splitCharsWhere p xs with
      | [] => [[x]]
      | w :: ws => (x :: w) :: ws

/-- `str::split` with a predicate. -/
def splitWhere (p : Char → Bool) (s : String) : List String :=
  (splitCharsWhere p s.toList).map String.ofList

def beforeLastDot (cs : List Char) : Option (List Char) :=
  if '.' ∈ cs then some ((cs.reverse.dropWhile (· ≠ '.')).drop 1).reverse else none

def fileStem [Target] (path : String) : Option String :=
  (Target.fileName path).map fun name =>
    match beforeLastDot name.toList with
    | none => name
    | some [] => name
    | some stem => String.ofList stem

theorem map_chars_eq_self {f : Char → Char} (h : ∀ c ∈ cs, f c = c) : cs.map f = cs :=
  (map_congr_left h).trans (map_id' cs)

theorem dropWhile_eq_self (h : ∀ c, cs.head? = some c → p c = false) : cs.dropWhile p = cs := by
  cases cs with
  | nil => rfl
  | cons c rest => rw [dropWhile_cons_of_neg (by simp [h c rfl])]

theorem trimMatches_eq_self (hhead : ∀ c, cs.head? = some c → p c = false)
    (hlast : ∀ c, cs.getLast? = some c → p c = false) : trimMatches p cs = cs := by
  unfold trimMatches
  rw [dropWhile_eq_self hhead, dropWhile_eq_self (by rwa [head?_reverse]), reverse_reverse]

theorem trimMatches_isInfix (p : Char → Bool) (cs : List Char) : trimMatches p cs <:+: cs := by
  have hend := (dropWhile_suffix p (l := (cs.dropWhile p).reverse)).reverse
  rw [reverse_reverse] at hend
  exact hend.isInfix.trans (dropWhile_suffix p).isInfix

theorem mem_of_mem_trim (h : c ∈ (trim s).toList) : c ∈ s.toList := by
  unfold trim at h
  rw [String.toList_ofList] at h
  exact (trimMatches_isInfix isWhitespace s.toList).subset h

theorem head?_dropWhile_not (h : (cs.dropWhile p).head? = some c) : p c = false := by
  have hnot := List.head?_dropWhile_not p cs
  rw [h] at hnot
  simpa using hnot

theorem getLast?_trimMatches (h : (trimMatches p cs).getLast? = some c) : p c = false := by
  unfold trimMatches at h
  rw [getLast?_reverse] at h
  exact head?_dropWhile_not h

theorem head?_trimMatches (h : (trimMatches p cs).head? = some c) : p c = false := by
  unfold trimMatches at h
  rw [head?_reverse] at h
  -- trimming the end leaves a suffix of the reversed text, with the same last character
  have hsuffix := dropWhile_suffix p (l := (cs.dropWhile p).reverse)
  have hne : (cs.dropWhile p).reverse.dropWhile p ≠ [] := by
    intro hnil
    rw [hnil] at h
    cases h
  rw [getLast?_eq_some_getLast hne, hsuffix.getLast hne, getLast_reverse] at h
  have hhead : (cs.dropWhile p).head? = some c := by
    rw [← h]
    exact head?_eq_some_head _
  exact head?_dropWhile_not hhead

theorem splitChars_of_notMem (h : c ∉ cs) : splitChars c cs = [cs] := by
  induction cs with
  | nil => rfl
  | cons x xs ih =>
    rw [mem_cons, not_or] at h
    rw [splitChars, if_neg (Ne.symm h.1), ih h.2]

theorem splitChars_append (h : c ∉ cs) (rest : List Char) :
    splitChars c (cs ++ c :: rest) = cs :: splitChars c rest := by
  induction cs with
  | nil => rw [nil_append, splitChars, if_pos rfl]
  | cons x xs ih =>
    rw [mem_cons, not_or] at h
    rw [cons_append, splitChars, if_neg (Ne.symm h.1), ih h.2]

theorem join_cons_cons (sep s t : String) (rest : List String) :
    join sep (s :: t :: rest) = s ++ sep ++ join sep (t :: rest) := rfl

theorem split_join (hsep : sep.toList = [c]) (hne : names ≠ [])
    (h : ∀ s ∈ names, c ∉ s.toList) : split (join sep names) c = names := by
  induction names with
  | nil => exact absurd rfl hne
  | cons s rest ih =>
    cases rest with
    | nil =>
      unfold split
      rw [join, splitChars_of_notMem (h s mem_cons_self)]
      simp
    | cons t rest =>
      have hrest := ih (cons_ne_nil t rest) fun u hu => h u (mem_cons_of_mem _ hu)
      unfold split at hrest ⊢
      rw [join_cons_cons, String.toList_append, String.toList_append, append_assoc, hsep,
        singleton_append, splitChars_append (h s mem_cons_self), map_cons, hrest,
        String.ofList_toList]

theorem mem_join (h : c ∈ (join sep names).toList) : c ∈ sep.toList ∨ ∃ s ∈ names, c ∈ s.toList := by
  induction names with
  | nil => cases h
  | cons s rest ih =>
    cases rest with
    | nil => exact .inr ⟨s, mem_cons_self, h⟩
    | cons t rest =>
      rw [join_cons_cons, String.toList_append, String.toList_append] at h
      rcases List.mem_append.mp h with h | h
      · rcases List.mem_append.mp h with h | h
        · exact .inr ⟨s, mem_cons_self, h⟩
        · exact .inl h
      · rcases ih h with h | ⟨u, hu, hc⟩
        · exact .inl h
        · exact .inr ⟨u, mem_cons_of_mem _ hu, hc⟩

theorem head?_join (h : s ≠ "") (rest : List String) :
    (join "/" (s :: rest)).toList.head? = s.toList.head? := by
  cases rest with
  | nil => rfl
  | cons t rest =>
    rw [join_cons_cons, String.toList_append, String.toList_append, append_assoc]
    exact head?_append_of_ne_nil _ (mt String.toList_eq_nil_iff.mp h)

theorem getLast?_join (h : ∀ s ∈ names, s ≠ "") :
    (join "/" names).toList.getLast? = names.getLast?.bind fun s => s.toList.getLast? := by
  induction names with
  | nil => rfl
  | cons s rest ih =>
    cases rest with
    | nil => rfl
    | cons t rest =>
      have hrest := ih fun u hu => h u (mem_cons_of_mem _ hu)
      rw [join_cons_cons, String.toList_append, getLast?_append, hrest, getLast?_cons_cons]
      -- the last name is not empty, so the last character is its own
      have hlast : (t :: rest).getLast?.bind (fun s => s.toList.getLast?) ≠ none := by
        rw [getLast?_eq_some_getLast (cons_ne_nil t rest)]
        show ((t :: rest).getLast _).toList.getLast? ≠ none
        rw [Ne, getLast?_eq_none_iff, String.toList_eq_nil_iff]
        exact h _ (mem_cons_of_mem _ (getLast_mem _))
      cases hb : (t :: rest).getLast?.bind fun s => s.toList.getLast? with
      | none => exact absurd hb hlast
      | some c => rfl

theorem join_injective (hsep : sep.toList = [c]) {names names' : List String}
    (hne : names ≠ []) (hne' : names' ≠ []) (h : ∀ s ∈ names, c ∉ s.toList) (h' : ∀ s ∈ names', c ∉ s.toList)
    (heq : join sep names = join sep names') : names = names' := by
  rw [← split_join hsep hne h, heq, split_join hsep hne' h']

theorem mem_bytes_ascii {b : UInt8} (h : b ∈ bytes s) (hb : b.toNat < 128) :
    ∃ c ∈ s.toList, c.toNat = b.toNat := by
  obtain ⟨c, hc, hmem⟩ := List.mem_flatMap.mp h
  refine ⟨c, hc, ?_⟩
  have hval : c.val.toNat = c.toNat := rfl
  unfold String.utf8EncodeChar at hmem
  dsimp only at hmem
  split at hmem
  · rw [List.mem_singleton.mp hmem]
    simp
    omega
  split at hmem
  · exfalso
    simp only [mem_cons, not_mem_nil, or_false] at hmem
    rcases hmem with rfl | rfl <;> simp at hb <;> omega
  split at hmem
  · exfalso
    simp only [mem_cons, not_mem_nil, or_false] at hmem
    rcases hmem with rfl | rfl | rfl <;> simp at hb <;> omega
  · exfalso
    simp only [mem_cons, not_mem_nil, or_false] at hmem
    rcases hmem with rfl | rfl | rfl | rfl <;> simp at hb <;> omega

theorem mem_hexDigits {n : Nat} (h : c ∈ Nat.toDigits 16 n) : c ∈ "0123456789abcdef".toList := by
  have hdigit : ∀ d < 16, Nat.digitChar d ∈ "0123456789abcdef".toList := by decide
  induction n using Nat.strongRecOn with
  | ind n ih =>
    rw [Nat.toDigits_eq_if (by decide)] at h
    split at h
    · rw [List.mem_singleton.mp h]
      exact hdigit n (by assumption)
    · rcases List.mem_append.mp h with h | h
      · exact ih (n / 16) (by omega) h
      · rw [List.mem_singleton.mp h]
        exact hdigit _ (Nat.mod_lt n (by decide))

theorem toNat_toLower (c : Char) :
    c.toLower.toNat = if 65 ≤ c.toNat ∧ c.toNat ≤ 90 then c.toNat + 32 else c.toNat := by
  have hiff : (c.val ≥ 'A'.val ∧ c.val ≤ 'Z'.val) ↔ (65 ≤ c.toNat ∧ c.toNat ≤ 90) := Iff.rfl
  unfold Char.toLower
  by_cases h : c.val ≥ 'A'.val ∧ c.val ≤ 'Z'.val
  · have hrange := hiff.mp h
    rw [dif_pos h, if_pos hrange]
    show (c.val + ('a'.val - 'A'.val)).toNat = _
    rw [UInt32.toNat_add]
    show (c.toNat + 32) % 2 ^ 32 = _
    omega
  · rw [dif_neg h, if_neg (hiff.not.mp h)]

theorem toNat_toUpper (c : Char) :
    c.toUpper.toNat = if 97 ≤ c.toNat ∧ c.toNat ≤ 122 then c.toNat - 32 else c.toNat := by
  have hiff : ('a'.val ≤ c.val ∧ c.val ≤ 'z'.val) ↔ (97 ≤ c.toNat ∧ c.toNat ≤ 122) := Iff.rfl
  unfold Char.toUpper
  by_cases h : 'a'.val ≤ c.val ∧ c.val ≤ 'z'.val
  · have hrange := hiff.mp h
    rw [dif_pos h, if_pos hrange]
    -- the difference of the cases wraps: adding `2 ^ 32 - 32` subtracts 32
    show (c.val + ('A'.val - 'a'.val)).toNat = _
    rw [UInt32.toNat_add]
    show (c.toNat + 4294967264) % 2 ^ 32 = _
    omega
  · rw [dif_neg h, if_neg (hiff.not.mp h)]

theorem toUpper_eq_of_toLower_eq {c d : Char} (h : c.toLower = d.toLower) :
    c = d ∨ (c.toNat < 128 ∧ d.toNat < 128 ∧ c.toUpper = d.toUpper) := by
  have hnat := congrArg Char.toNat h
  rw [toNat_toLower, toNat_toLower] at hnat
  by_cases hcd : c.toNat = d.toNat
  · exact .inl (Char.toNat_inj.mp hcd)
  · refine .inr ?_
    rw [← Char.toNat_inj, toNat_toUpper, toNat_toUpper]
    split at hnat <;> split at hnat <;> split <;> split <;> omega

theorem toLower_eq_slash (h : c.toLower = '/') : c = '/' := by
  have hnat := congrArg Char.toNat h
  rw [toNat_toLower] at hnat
  rw [← Char.toNat_inj]
  have hslash : '/'.toNat = 47 := rfl
  split at hnat <;> omega

theorem slash_notMem_toAsciiLowercase (h : '/' ∉ s.toList) : '/' ∉ (toAsciiLowercase s).toList := by
  unfold toAsciiLowercase
  rw [String.toList_ofList]
  intro hmem
  obtain ⟨c, hc, hlower⟩ := List.mem_map.mp hmem
  rw [toLower_eq_slash hlower] at hc
  exact h hc

theorem toUppercase_eq_of_toAsciiLowercase_eq [UnicodeTables] {s t : String}
    (h : toAsciiLowercase s = toAsciiLowercase t) : toUppercase s = toUppercase t := by
  have hchars : s.toList.map Char.toLower = t.toList.map Char.toLower := String.ofList_injective h
  unfold toUppercase
  congr 1
  revert hchars
  generalize s.toList = cs
  generalize t.toList = ds
  intro hchars
  induction cs generalizing ds with
  | nil => rw [List.map_eq_nil_iff.mp hchars.symm]
  | cons c cs ih =>
    cases ds with
    | nil => cases hchars
    | cons d ds =>
      have hcons := List.cons.inj hchars
      rw [flatMap_cons, flatMap_cons, ih ds hcons.2]
      rcases toUpper_eq_of_toLower_eq hcons.1 with rfl | ⟨hc, hd, hup⟩
      · rfl
      · rw [UnicodeTables.toUppercase_ascii c hc, UnicodeTables.toUppercase_ascii d hd, hup]

end Rust
