import PstDedupe.Rust.Std

/-!
# Decoding and cutting text

`String::from_utf16`, `String::from_utf8_lossy`, and the searches of `str` by a string pattern.
-/

namespace Rust

open List

def isHighSurrogate (u : Nat) : Bool := 0xD800 ≤ u && u < 0xDC00
def isLowSurrogate (u : Nat) : Bool := 0xDC00 ≤ u && u < 0xE000

def encodeUtf16 (c : Char) : List Nat :=
  if c.toNat < 0x10000 then [c.toNat]
  else [0xD800 + (c.toNat - 0x10000) / 0x400, 0xDC00 + (c.toNat - 0x10000) % 0x400]

def utf16leBytes (s : String) : List UInt8 :=
  s.toList.flatMap fun c => (encodeUtf16 c).flatMap (leBytes 2)

/-- The units of `String::from_utf16`; an unpaired surrogate is an error. -/
def decodeUtf16 : List Nat → Option (List Char)
  | [] => some []
  | u :: us =>
    if isHighSurrogate u then
      match us with
      | [] => none
      | v :: vs =>
        if isLowSurrogate v then
          (decodeUtf16 vs).map
            (Char.ofNat (0x10000 + (u - 0xD800) * 0x400 + (v - 0xDC00)) :: ·)
        else none
    else if isLowSurrogate u then none
    else (decodeUtf16 us).map (Char.ofNat u :: ·)

def fromUtf16 (units : List Nat) : Option String := (decodeUtf16 units).map String.ofList

/-- `as_chunks::<2>().0` with `u16::from_le_bytes`: an odd last byte is dropped. -/
def unitsLe : List UInt8 → List Nat
  | a :: b :: rest => (a.toNat + 256 * b.toNat) :: unitsLe rest
  | _ => []

/-- Whether `b1` may follow the lead byte `b0` of a sequence of two bytes or more. -/
def utf8SecondOk (b0 b1 : Nat) : Bool :=
  if b0 < 0xC2 then false
  else if b0 < 0xE0 then 0x80 ≤ b1 && b1 < 0xC0
  else if b0 = 0xE0 then 0xA0 ≤ b1 && b1 < 0xC0
  else if b0 = 0xED then 0x80 ≤ b1 && b1 < 0xA0
  else if b0 < 0xF0 then 0x80 ≤ b1 && b1 < 0xC0
  else if b0 = 0xF0 then 0x90 ≤ b1 && b1 < 0xC0
  else if b0 < 0xF4 then 0x80 ≤ b1 && b1 < 0xC0
  else if b0 = 0xF4 then 0x80 ≤ b1 && b1 < 0x90
  else false

def isContinuation (b : Nat) : Bool := 0x80 ≤ b && b < 0xC0

/-- The characters of `String::from_utf8_lossy`: every maximal broken prefix of a sequence becomes
one U+FFFD. -/
def decodeUtf8Lossy : List UInt8 → List Char
  | [] => []
  | b0 :: rest0 =>
    if b0.toNat < 0x80 then Char.ofNat b0.toNat :: decodeUtf8Lossy rest0
    else
      match rest0 with
      | [] => ['\uFFFD']
      | b1 :: rest1 =>
        if !utf8SecondOk b0.toNat b1.toNat then '\uFFFD' :: decodeUtf8Lossy (b1 :: rest1)
        else if b0.toNat < 0xE0 then
          Char.ofNat ((b0.toNat - 0xC0) * 0x40 + (b1.toNat - 0x80)) :: decodeUtf8Lossy rest1
        else
          match rest1 with
          | [] => ['\uFFFD']
          | b2 :: rest2 =>
            if !isContinuation b2.toNat then '\uFFFD' :: decodeUtf8Lossy (b2 :: rest2)
            else if b0.toNat < 0xF0 then
              Char.ofNat ((b0.toNat - 0xE0) * 0x1000 + (b1.toNat - 0x80) * 0x40 + (b2.toNat - 0x80))
                :: decodeUtf8Lossy rest2
            else
              match rest2 with
              | [] => ['\uFFFD']
              | b3 :: rest3 =>
                if !isContinuation b3.toNat then '\uFFFD' :: decodeUtf8Lossy (b3 :: rest3)
                else
                  Char.ofNat ((b0.toNat - 0xF0) * 0x40000 + (b1.toNat - 0x80) * 0x1000
                    + (b2.toNat - 0x80) * 0x40 + (b3.toNat - 0x80)) :: decodeUtf8Lossy rest3

def fromUtf8Lossy (bytes : List UInt8) : String := String.ofList (decodeUtf8Lossy bytes)

example : fromUtf8Lossy [0x41, 0xC3, 0xA9, 0xE2, 0x82, 0x42] = "Aé\uFFFDB" := by decide

/-- `str::split_once` with a string pattern, on the characters: before and after the first match. -/
def splitOnceChars (pat : List Char) : List Char → Option (List Char × List Char)
  | [] => if pat = [] then some ([], []) else none
  | c :: cs =>
    if pat.isPrefixOf (c :: cs) then some ([], (c :: cs).drop pat.length)
    else (splitOnceChars pat cs).map fun cut => (c :: cut.1, cut.2)

def splitOnce (s pat : String) : Option (String × String) :=
  (splitOnceChars pat.toList s.toList).map fun cut => (String.ofList cut.1, String.ofList cut.2)

/-- The rounds of `str::split` with a string pattern. Every round drops a character at least. -/
def splitStrChars (pat : List Char) : Nat → List Char → List (List Char)
  | 0, cs => [cs]
  | fuel + 1, cs =>
    match splitOnceChars pat cs with
    | none => [cs]
    | some (piece, rest) => piece :: splitStrChars pat fuel rest

def splitStr (s pat : String) : List String :=
  (splitStrChars pat.toList s.length s.toList).map String.ofList

/-- `str::trim_start_matches` with a string pattern that is not empty, on the characters. -/
def trimStartChars (pat : List Char) : Nat → List Char → List Char
  | 0, cs => cs
  | fuel + 1, cs => if pat.isPrefixOf cs then trimStartChars pat fuel (cs.drop pat.length) else cs

def trimStartMatches (s pat : String) : String :=
  String.ofList (trimStartChars pat.toList s.length s.toList)

def trimEndMatches (s : String) (c : Char) : String :=
  String.ofList ((s.toList.reverse.dropWhile (· == c)).reverse)

example : splitStr "a--b--" "--" = ["a", "b", ""] := by decide

/-!
# Lines, pieces and whole text files of Rust's standard library

`lines` is `str::lines`; a text of terminated lines is read back line by line, and a line of
pieces is split into them where no piece has the separator, and into more pieces otherwise.
-/

theorem splitChars_eq_splitOn (c : Char) (cs : List Char) : splitChars c cs = cs.splitOn c := by
  induction cs with
  | nil => rfl
  | cons x cs ih =>
    show _ = (x :: cs).splitOnP (· == c)
    rw [splitChars, ih, splitOnP_cons_eq_if_modifyHead]
    by_cases hx : x = c
    · rw [if_pos hx, if_pos (beq_iff_eq.mpr hx)]
      rfl
    · rw [if_neg hx, if_neg (fun h => hx (beq_iff_eq.mp h))]
      rw [show cs.splitOn c = cs.splitOnP (· == c) from rfl]
      cases hpieces : cs.splitOnP (· == c) with
      | nil => exact absurd hpieces (splitOnP_ne_nil _ _)
      | cons p ps => rfl

theorem splitChars_intercalate {c : Char} {pieces : List (List Char)} (hne : pieces ≠ [])
    (h : ∀ p ∈ pieces, c ∉ p) :
    splitChars c ([c].intercalate pieces) = pieces := by
  rw [splitChars_eq_splitOn]
  exact splitOn_intercalate c h hne

theorem length_splitChars (c : Char) (cs : List Char) : (splitChars c cs).length = cs.count c + 1 := by
  induction cs with
  | nil => rfl
  | cons x cs ih =>
    rw [splitChars]
    by_cases hx : x = c
    · rw [if_pos hx, hx, count_cons_self, length_cons, ih]
    · rw [if_neg hx, count_cons_of_ne hx]
      cases hpieces : splitChars c cs with
      | nil =>
        rw [hpieces] at ih
        exact nomatch ih
      | cons p ps =>
        rw [hpieces] at ih
        exact ih

theorem length_splitChars_intercalate {c : Char} {pieces : List (List Char)} (hne : pieces ≠ []) :
    (splitChars c ([c].intercalate pieces)).length = pieces.length + (pieces.map (count c)).sum := by
  rw [length_splitChars]
  induction pieces with
  | nil => exact absurd rfl hne
  | cons p ps ih =>
    cases ps with
    | nil =>
      show ([c].intercalate [p]).count c + 1 = _
      rw [intercalate_singleton]
      simp only [map_cons, map_nil, sum_cons, sum_nil, length_cons, length_nil]
      omega
    | cons q ps =>
      have hrest := ih (by simp)
      rw [intercalate_cons_cons, count_append, count_append, count_singleton_self]
      simp only [map_cons, sum_cons, length_cons] at hrest ⊢
      omega

def stripCr (cs : List Char) : List Char := if cs.getLast? = some '\r' then cs.dropLast else cs

/-- `str::lines`: a line ends at a newline, with or without a carriage return before it; what
follows the last newline is a line if it is not empty. -/
def lines (s : String) : List String :=
  let pieces := splitChars '\n' s.toList
  (pieces.dropLast.map stripCr ++ pieces.getLast?.toList.filter (· ≠ [])).map String.ofList

example : lines "a\r\n\nb\r" = ["a", "", "b\r"] := by decide +kernel

def terminatedLines : List String → String
  | [] => ""
  | line :: rest => line ++ "\n" ++ terminatedLines rest

theorem toList_terminatedLines (ls : List String) :
    (terminatedLines ls).toList = ['\n'].intercalate (ls.map String.toList ++ [[]]) := by
  induction ls with
  | nil => rfl
  | cons line ls ih =>
    rw [terminatedLines, String.toList_append, String.toList_append, ih]
    have hend : "\n".toList = ['\n'] := by decide
    cases ls with
    | nil =>
      show line.toList ++ "\n".toList ++ [[]].flatten = ['\n'].intercalate [line.toList, []]
      rw [intercalate_cons_cons, hend]
      rfl
    | cons next ls =>
      show _ = ['\n'].intercalate (line.toList :: next.toList :: (ls.map String.toList ++ [[]]))
      rw [intercalate_cons_cons, hend]
      rfl

theorem lines_terminated {ls : List String} (hnewline : ∀ line ∈ ls, '\n' ∉ line.toList)
    (hreturn : ∀ line ∈ ls, line.toList.getLast? ≠ some '\r') : lines (terminatedLines ls) = ls := by
  have hpieces : splitChars '\n' (terminatedLines ls).toList = ls.map String.toList ++ [[]] := by
    rw [toList_terminatedLines]
    refine splitChars_intercalate (by simp) fun p hp => ?_
    rcases List.mem_append.mp hp with hp | hp
    · obtain ⟨line, hline, rfl⟩ := List.mem_map.mp hp
      exact hnewline line hline
    · rw [List.mem_singleton.mp hp]
      exact not_mem_nil
  have hstrip : (ls.map String.toList).map stripCr = ls.map String.toList := by
    rw [map_map]
    refine map_congr_left fun line hline => ?_
    exact if_neg (hreturn line hline)
  unfold lines
  simp only [hpieces, dropLast_concat, getLast?_concat, hstrip]
  simp [map_map, Function.comp_def]

theorem toByteArray_bytes (s : String) : (⟨(bytes s).toArray⟩ : ByteArray) = s.toByteArray := by
  have hs : (String.ofList s.toList).toByteArray = s.toList.utf8Encode := by simp
  rw [String.ofList_toList] at hs
  rw [hs]
  apply ByteArray.ext
  simp [utf8Encode, bytes]

theorem fromUtf8_bytes (s : String) : String.fromUTF8? ⟨(bytes s).toArray⟩ = some s := by
  have hvalid : (⟨(bytes s).toArray⟩ : ByteArray).IsValidUTF8 := by
    rw [toByteArray_bytes]
    exact s.isValidUTF8
  unfold String.fromUTF8?
  rw [dif_pos hvalid]
  exact congrArg some (String.toByteArray_inj.mp (toByteArray_bytes s))

/-!
# JSON arrays of strings (`serde_json`)

What is written for a list of strings without control characters, and a reader of such texts.
-/

def escapeChar (c : Char) : List Char := if c = '"' ∨ c = '\\' then ['\\', c] else [c]

def quoteChars (s : String) : List Char := '"' :: s.toList.flatMap escapeChar ++ ['"']

def writeElements : List String → List Char
  | [] => [']']
  | [s] => quoteChars s ++ [']']
  | s :: rest => quoteChars s ++ ',' :: writeElements rest

/-- `serde_json::to_string`. -/
def writeStrings (ss : List String) : String := String.ofList ('[' :: writeElements ss)

def readQuoted : List Char → Option (List Char × List Char)
  | [] => none
  | '"' :: rest => some ([], rest)
  | '\\' :: c :: rest => (readQuoted rest).map fun r => (c :: r.1, r.2)
  | c :: rest => (readQuoted rest).map fun r => (c :: r.1, r.2)

/-- The elements of an array, `n` at most. -/
def readElements : Nat → List Char → Option (List String)
  | 0, _ => none
  | n + 1, '"' :: cs =>
    match readQuoted cs with
    | some (s, [']']) => some [String.ofList s]
    | some (s, ',' :: rest) => (readElements n rest).map (String.ofList s :: ·)
    | _ => none
  | _ + 1, _ => none

/-- `serde_json::from_str`. -/
def readStrings (text : String) : Option (List String) :=
  match text.toList with
  | ['[', ']'] => some []
  | '[' :: rest => readElements rest.length rest
  | _ => none

theorem readQuoted_escaped (cs rest : List Char) : readQuoted (cs.flatMap escapeChar ++ '"' :: rest) = some (cs, rest) := by
  induction cs with
  | nil => rfl
  | cons c cs ih =>
    rw [flatMap_cons]
    unfold escapeChar
    split
    · show (readQuoted (cs.flatMap escapeChar ++ '"' :: rest)).map _ = _
      rw [ih]
      rfl
    next h =>
      rw [not_or] at h
      show readQuoted (c :: (cs.flatMap escapeChar ++ '"' :: rest)) = _
      unfold readQuoted
      split <;> simp_all

theorem readElements_writeElements (s : String) (rest : List String) :
    ∀ n, rest.length < n → readElements n (writeElements (s :: rest)) = some (s :: rest) := by
  induction rest generalizing s with
  | nil =>
    intro n hn
    cases n with
    | zero => cases hn
    | succ n =>
      show readElements (n + 1) ('"' :: (s.toList.flatMap escapeChar ++ ['"'] ++ [']'])) = _
      unfold readElements
      rw [append_assoc]
      show (match readQuoted (s.toList.flatMap escapeChar ++ '"' :: [']']) with
        | some (s, [']']) => some [String.ofList s]
        | some (s, ',' :: rest) => (readElements n rest).map (String.ofList s :: ·)
        | _ => none) = _
      rw [readQuoted_escaped]
      simp
  | cons s' rest ih =>
    intro n hn
    cases n with
    | zero => cases hn
    | succ n =>
      show readElements (n + 1)
        ('"' :: (s.toList.flatMap escapeChar ++ ['"'] ++ ',' :: writeElements (s' :: rest))) = _
      unfold readElements
      rw [append_assoc]
      show (match readQuoted (s.toList.flatMap escapeChar ++ '"' :: ',' :: writeElements (s' :: rest)) with
        | some (s, [']']) => some [String.ofList s]
        | some (s, ',' :: rest) => (readElements n rest).map (String.ofList s :: ·)
        | _ => none) = _
      rw [readQuoted_escaped]
      show (readElements n (writeElements (s' :: rest))).map _ = _
      rw [ih s' n (Nat.lt_of_succ_lt_succ hn)]
      simp

theorem length_writeElements (ss : List String) : ss.length < (writeElements ss).length := by
  induction ss with
  | nil => exact Nat.one_pos
  | cons s rest ih =>
    cases rest with
    | nil =>
      show 1 < (quoteChars s ++ [']']).length
      rw [length_append]
      show 1 < (_ + 1) + 1
      omega
    | cons s' rest =>
      show (s' :: rest).length + 1 < (quoteChars s ++ ',' :: writeElements (s' :: rest)).length
      simp only [length_append, length_cons] at ih ⊢
      omega

theorem readStrings_writeStrings (ss : List String) : readStrings (writeStrings ss) = some ss := by
  unfold readStrings writeStrings
  rw [String.toList_ofList]
  cases ss with
  | nil => rfl
  | cons s rest =>
    have hread := readElements_writeElements s rest (writeElements (s :: rest)).length
      (Nat.lt_of_succ_lt (length_writeElements (s :: rest)))
    split
    next h =>
      have hlen := congrArg length (List.cons.inj h).2
      have hlong := length_writeElements (s :: rest)
      rw [length_cons] at hlong
      rw [hlen] at hlong
      simp at hlong
    next h =>
      obtain ⟨-, rfl⟩ := List.cons.inj h
      exact hread
    next h => exact absurd rfl (h _)

end Rust
