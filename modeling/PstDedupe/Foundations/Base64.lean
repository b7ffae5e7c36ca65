import Mathlib

/-!
# Base64 (RFC 4648, section 4)

Three bytes are four characters of six bits each; the last group is padded.
-/

namespace Foundations.Base64

open List Option

/-- `A`–`Z`, `a`–`z`, `0`–`9`, `+` and `/`. -/
def symbol (n : Nat) : UInt8 :=
  if n < 26 then UInt8.ofNat (65 + n)
  else if n < 52 then UInt8.ofNat (97 + (n - 26))
  else if n < 62 then UInt8.ofNat (48 + (n - 52))
  else if n = 62 then 43
  else 47

/-- `=`. -/
def pad : UInt8 := 61

def sextet (c : UInt8) : Option Nat :=
  let n := c.toNat
  if 65 ≤ n ∧ n < 91 then some (n - 65)
  else if 97 ≤ n ∧ n < 123 then some (n - 97 + 26)
  else if 48 ≤ n ∧ n < 58 then some (n - 48 + 52)
  else if n = 43 then some 62
  else if n = 47 then some 63
  else none

def symbols (triple : Nat) : List UInt8 :=
  [symbol (triple / 262144 % 64), symbol (triple / 4096 % 64), symbol (triple / 64 % 64), symbol (triple % 64)]

def encode : List UInt8 → List UInt8
  | [] => []
  | [a] => (symbols (a.toNat * 65536)).take 2 ++ [pad, pad]
  | [a, b] => (symbols (a.toNat * 65536 + b.toNat * 256)).take 3 ++ [pad]
  | a :: b :: c :: rest => symbols (a.toNat * 65536 + b.toNat * 256 + c.toNat) ++ encode rest

def decodeGroup (a b c d : UInt8) : Option (List UInt8) :=
  (sextet a).bind fun x => (sextet b).bind fun y =>
    if c = pad ∧ d = pad then some [UInt8.ofNat ((x * 64 + y) / 16)]
    else (sextet c).bind fun z =>
      if d = pad then
        some [UInt8.ofNat ((x * 4096 + y * 64 + z) / 1024), UInt8.ofNat ((x * 4096 + y * 64 + z) / 4 % 256)]
      else (sextet d).map fun w =>
        let n := x * 262144 + y * 4096 + z * 64 + w
        [UInt8.ofNat (n / 65536), UInt8.ofNat (n / 256 % 256), UInt8.ofNat (n % 256)]

def decode : List UInt8 → Option (List UInt8)
  | [] => some []
  | a :: b :: c :: d :: rest =>
    if d = pad ∧ rest ≠ [] then none
    else (decodeGroup a b c d).bind fun bytes => (decode rest).map (bytes ++ ·)
  | _ => none

def decodeLines (text : List UInt8) : Option (List UInt8) :=
  decode (text.filter fun c => c ≠ 13 && c ≠ 10)

theorem sextet_symbol {n : Nat} (h : n < 64) : sextet (symbol n) = some n := by
  have hall : ∀ n : Fin 64, sextet (symbol n) = some n.val := by decide
  exact hall ⟨n, h⟩

theorem symbol_ne {n : Nat} (h : n < 64) :
    symbol n ≠ pad ∧ symbol n ≠ 45 ∧ 43 ≤ (symbol n).toNat ∧ (symbol n).toNat ≤ 122 := by
  have hall : ∀ n : Fin 64,
      symbol n ≠ pad ∧ symbol n ≠ 45 ∧ 43 ≤ (symbol n).toNat ∧ (symbol n).toNat ≤ 122 := by decide
  exact hall ⟨n, h⟩

theorem ofNat_eq {n : Nat} {c : UInt8} (h : n = c.toNat) : UInt8.ofNat n = c := by
  rw [h, UInt8.ofNat_toNat]

theorem decodeGroup_symbols {n : Nat} (hn : n < 2 ^ 24) :
    decodeGroup (symbol (n / 262144 % 64)) (symbol (n / 4096 % 64)) (symbol (n / 64 % 64)) (symbol (n % 64))
      = some [UInt8.ofNat (n / 65536), UInt8.ofNat (n / 256 % 256), UInt8.ofNat (n % 256)] := by
  have hz := (symbol_ne (n := n / 64 % 64) (by omega)).1
  have hw := (symbol_ne (n := n % 64) (by omega)).1
  unfold decodeGroup
  rw [sextet_symbol (by omega), bind_some, sextet_symbol (by omega), bind_some,
    if_neg fun h => hz h.1, sextet_symbol (by omega), bind_some, if_neg hw, sextet_symbol (by omega),
    map_some]
  have hjoin : n / 262144 % 64 * 262144 + n / 4096 % 64 * 4096 + n / 64 % 64 * 64 + n % 64 = n := by omega
  rw [hjoin]

theorem decodeGroup_one {n : Nat} (hn : n < 2 ^ 24) :
    decodeGroup (symbol (n / 262144 % 64)) (symbol (n / 4096 % 64)) pad pad
      = some [UInt8.ofNat (n / 65536)] := by
  unfold decodeGroup
  rw [sextet_symbol (by omega), bind_some, sextet_symbol (by omega), bind_some, if_pos ⟨rfl, rfl⟩]
  have hjoin : (n / 262144 % 64 * 64 + n / 4096 % 64) / 16 = n / 65536 := by omega
  rw [hjoin]

theorem decodeGroup_two {n : Nat} (hn : n < 2 ^ 24) :
    decodeGroup (symbol (n / 262144 % 64)) (symbol (n / 4096 % 64)) (symbol (n / 64 % 64)) pad
      = some [UInt8.ofNat (n / 65536), UInt8.ofNat (n / 256 % 256)] := by
  have hz := (symbol_ne (n := n / 64 % 64) (by omega)).1
  unfold decodeGroup
  rw [sextet_symbol (by omega), bind_some, sextet_symbol (by omega), bind_some,
    if_neg fun h => hz h.1, sextet_symbol (by omega), bind_some, if_pos rfl]
  have hfirst : (n / 262144 % 64 * 4096 + n / 4096 % 64 * 64 + n / 64 % 64) / 1024 = n / 65536 := by omega
  have hsecond : (n / 262144 % 64 * 4096 + n / 4096 % 64 * 64 + n / 64 % 64) / 4 % 256
      = n / 256 % 256 := by omega
  rw [hfirst, hsecond]

theorem decode_encode (data : List UInt8) : decode (encode data) = some data := by
  induction data using encode.induct with
  | case1 => rfl
  | case2 a =>
    have ha := a.toNat_lt
    show (if pad = pad ∧ ([] : List UInt8) ≠ [] then none else (decodeGroup _ _ pad pad).bind _) = _
    rw [if_neg fun h => h.2 rfl, decodeGroup_one (by omega), ofNat_eq (c := a) (by omega)]
    rfl
  | case3 a b =>
    have ha := a.toNat_lt
    have hb := b.toNat_lt
    show (if pad = pad ∧ ([] : List UInt8) ≠ [] then none else (decodeGroup _ _ _ pad).bind _) = _
    rw [if_neg fun h => h.2 rfl, decodeGroup_two (by omega), ofNat_eq (c := a) (by omega),
      ofNat_eq (c := b) (by omega)]
    rfl
  | case4 a b c rest ih =>
    have ha := a.toNat_lt
    have hb := b.toNat_lt
    have hc := c.toNat_lt
    have hlast := (symbol_ne (n := (a.toNat * 65536 + b.toNat * 256 + c.toNat) % 64) (by omega)).1
    show (if symbol _ = pad ∧ encode rest ≠ [] then none else
      (decodeGroup (symbol _) (symbol _) (symbol _) (symbol _)).bind fun bytes =>
        (decode (encode rest)).map (bytes ++ ·)) = _
    rw [if_neg fun h => hlast h.1, decodeGroup_symbols (by omega), ih, ofNat_eq (c := a) (by omega),
      ofNat_eq (c := b) (by omega), ofNat_eq (c := c) (by omega)]
    rfl

theorem mem_encode {data : List UInt8} {c : UInt8} (h : c ∈ encode data) :
    c ≠ 45 ∧ 43 ≤ c.toNat ∧ c.toNat ≤ 122 := by
  have hsymbol : ∀ n, c = symbol (n % 64) → c ≠ 45 ∧ 43 ≤ c.toNat ∧ c.toNat ≤ 122 := by
    rintro n rfl
    exact (symbol_ne (Nat.mod_lt n (by decide))).2
  have hpad : c = pad → c ≠ 45 ∧ 43 ≤ c.toNat ∧ c.toNat ≤ 122 := by
    rintro rfl
    decide
  induction data using encode.induct with
  | case1 => cases h
  | case2 a =>
    simp only [encode, symbols, take, cons_append, nil_append, mem_cons,
      not_mem_nil, or_false] at h
    rcases h with h | h | h | h
    · exact hsymbol _ h
    · exact hsymbol _ h
    · exact hpad h
    · exact hpad h
  | case3 a b =>
    simp only [encode, symbols, take, cons_append, nil_append, mem_cons,
      not_mem_nil, or_false] at h
    rcases h with h | h | h | h
    · exact hsymbol _ h
    · exact hsymbol _ h
    · exact hsymbol _ h
    · exact hpad h
  | case4 a b c' rest ih =>
    simp only [encode, symbols, cons_append, nil_append, mem_cons] at h
    rcases h with h | h | h | h | h
    · exact hsymbol _ h
    · exact hsymbol _ h
    · exact hsymbol _ h
    · exact hsymbol _ h
    · exact ih h

theorem encode_append {xs : List UInt8} (h : 3 ∣ xs.length) (ys : List UInt8) :
    encode (xs ++ ys) = encode xs ++ encode ys := by
  induction xs using encode.induct with
  | case1 => rfl
  | case2 a => exact absurd (show 3 ∣ 1 from h) (by decide)
  | case3 a b => exact absurd (show 3 ∣ 2 from h) (by decide)
  | case4 a b c rest ih =>
    have hrest : 3 ∣ rest.length := by
      rw [length_cons, length_cons, length_cons] at h
      omega
    show symbols _ ++ encode (rest ++ ys) = symbols _ ++ encode rest ++ encode ys
    rw [ih hrest, append_assoc]

theorem decodeLines_eq {text data : List UInt8}
    (h : (text.filter fun c => c ≠ 13 && c ≠ 10) = encode data) : decodeLines text = some data := by
  rw [decodeLines, h, decode_encode]

end Foundations.Base64
