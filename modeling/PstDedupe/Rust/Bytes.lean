import PstDedupe.Foundations.Image
import PstDedupe.Rust.Std
import PstDedupe.Foundations.Fallible

/-!
# Byte vectors

`Vec<u8>` is a list of bytes.
-/

namespace Rust

open Foundations List

/-- `Vec<u8>`. -/
abbrev Bytes := List UInt8

@[simp] theorem length_leBytes (n x : Nat) : (leBytes n x).length = n := by
  induction n generalizing x with
  | zero => rfl
  | succ n ih => rw [leBytes, length_cons, ih]

theorem ofLeBytes_cons (b : UInt8) (bs : Bytes) : ofLeBytes (b :: bs) = b.toNat + 256 * ofLeBytes bs := rfl

theorem ofLeBytes_leBytes (n x : Nat) : ofLeBytes (leBytes n x) = x % 256 ^ n := by
  induction n generalizing x with
  | zero => rw [Nat.pow_zero, Nat.mod_one]; rfl
  | succ n ih =>
    have hlow : (UInt8.ofNat x).toNat = x % 256 := by simp
    rw [leBytes, ofLeBytes_cons, ih, hlow, Nat.pow_succ', Nat.mod_mul]

theorem ofLeBytes_leBytes_of_lt {n x : Nat} (h : x < 256 ^ n) : ofLeBytes (leBytes n x) = x := by
  rw [ofLeBytes_leBytes, Nat.mod_eq_of_lt h]

theorem leBytes_ofLeBytes {n : Nat} {bs : Bytes} (hn : bs.length = n) : leBytes n (ofLeBytes bs) = bs := by
  subst hn
  induction bs with
  | nil => rfl
  | cons b bs ih =>
    have hb : b.toNat < 256 := b.toNat_lt
    have hlow : UInt8.ofNat (b.toNat + 256 * ofLeBytes bs) = b := by
      apply UInt8.toNat_inj.mp
      rw [UInt8.toNat_ofNat']
      omega
    have hdiv : (b.toNat + 256 * ofLeBytes bs) / 256 = ofLeBytes bs := by omega
    rw [ofLeBytes_cons, length_cons, leBytes, hlow, hdiv, ih]

theorem ofLeBytes_lt (bs : Bytes) : ofLeBytes bs < 256 ^ bs.length := by
  induction bs with
  | nil => decide
  | cons b bs ih =>
    have hb : b.toNat < 256 := b.toNat_lt
    rw [ofLeBytes_cons, length_cons, Nat.pow_succ]
    omega

theorem leBytes_mod (n x : Nat) : leBytes n (x % 256 ^ n) = leBytes n x := by
  induction n generalizing x with
  | zero => rfl
  | succ n ih =>
    have hdiv : x % 256 ^ (n + 1) / 256 = x / 256 % 256 ^ n := by
      rw [Nat.pow_succ', Nat.mod_mul_right_div_self]
    have hlow : UInt8.ofNat (x % 256 ^ (n + 1)) = UInt8.ofNat x := by
      apply UInt8.toNat_inj.mp
      simp only [UInt8.toNat_ofNat']
      rw [Nat.pow_succ', show (2 : Nat) ^ 8 = 256 from rfl, Nat.mod_mul_right_mod]
    rw [leBytes, hlow, hdiv, ih, leBytes]

/-- `LittleEndian::read_uN(&data[off..off + n])`. -/
def readLe (n : Nat) (data : Bytes) (off : Nat) : Nat := ofLeBytes ((data.drop off).take n)

theorem readLe_of_holds {data cells : Bytes} {off : Nat} (h : Holds data off cells) :
    readLe cells.length data off = ofLeBytes cells := by
  unfold readLe
  congr 1
  apply ext_getElem?
  intro i
  by_cases hi : i < cells.length
  · rw [getElem?_take_of_lt hi, getElem?_drop, h i hi]
  · rw [getElem?_take_eq_none (by omega), getElem?_eq_none (by omega)]

theorem readLe_of_holds_leBytes {data : Bytes} {off n x : Nat} (h : Holds data off (leBytes n x))
    (hx : x < 256 ^ n) : readLe n data off = x := by
  have hread := readLe_of_holds h
  rw [length_leBytes, ofLeBytes_leBytes_of_lt hx] at hread
  exact hread

theorem holds_self (data : Bytes) : Holds data 0 data := fun i _ => by rw [Nat.zero_add]

def resize {α : Type} (n : Nat) (z : α) (v : List α) : List α :=
  v.take n ++ replicate (n - v.length) z

@[simp] theorem length_resize {α : Type} (n : Nat) (z : α) (v : List α) : (resize n z v).length = n := by
  rw [resize, length_append, length_take, length_replicate]
  omega

theorem resize_of_length_le {α : Type} {n : Nat} {v : List α} (z : α) (h : v.length ≤ n) :
    resize n z v = v ++ replicate (n - v.length) z := by
  rw [resize, take_of_length_le h]

/-!
# CRC-32 (`crc32fast::hash`)

The checksum is a parameter: the reader never rejects a block or a page for it, and every result
holds for any function.
-/

class Crc32fast where
  hash : Bytes → UInt32

namespace Crc32fast

/-- One bit of the reflected division by `0xEDB88320`. -/
def shiftBit (c : UInt32) : UInt32 := if c &&& 1 = 1 then (c >>> 1) ^^^ 0xEDB88320 else c >>> 1

def update (c : UInt32) (b : UInt8) : UInt32 :=
  shiftBit (shiftBit (shiftBit (shiftBit (shiftBit (shiftBit (shiftBit (shiftBit
    (c ^^^ b.toUInt32))))))))

abbrev ieee : Crc32fast := ⟨fun bs => bs.foldl update 0xFFFFFFFF ^^^ 0xFFFFFFFF⟩

example : ieee.hash (bytes "123456789") = 0xCBF43926 := by decide +kernel

end Crc32fast

/-!
# Checked slices and `usize` arithmetic

A byte slice is never longer than `isize::MAX`, so a sum of an in-bounds offset and a small width
fits into `usize`.
-/

/-- The pointer width of the target: `std` with file access needs 32 bits at least. -/
class PointerWidth where
  bits : Nat
  bits_ge : 32 ≤ bits

theorem bits64_ge : 32 ≤ 64 := by decide

variable {ε β : Type}

/-- `a - b` on `usize`. -/
def subUsize (a b : Nat) : Code ε Nat :=
  if b ≤ a then pure (a - b) else panic .arithmeticOverflow

theorem subUsize_eq {a b : Nat} (h : b ≤ a) : (subUsize a b : Code ε Nat) = pure (a - b) := if_pos h

section

variable [PointerWidth]

def usizeMax : Nat := 2 ^ PointerWidth.bits - 1

def isizeMax : Nat := 2 ^ (PointerWidth.bits - 1) - 1

theorem usizeMax_eq : usizeMax = 2 * isizeMax + 1 := by
  have hbits := PointerWidth.bits_ge
  have hpow : 2 ^ PointerWidth.bits = 2 * 2 ^ (PointerWidth.bits - 1) := by
    rw [← Nat.pow_succ']
    congr 1
    omega
  have hpos : 0 < 2 ^ (PointerWidth.bits - 1) := Nat.two_pow_pos _
  unfold usizeMax isizeMax
  omega

theorem isizeMax_ge : 2 ^ 31 - 1 ≤ isizeMax := by
  have hbits := PointerWidth.bits_ge
  have hpow : 2 ^ 31 ≤ 2 ^ (PointerWidth.bits - 1) := Nat.pow_le_pow_right (by decide) (by omega)
  unfold isizeMax
  omega

/-- `&[u8]`, and what a `Vec<u8>` holds. -/
@[ext] structure Slice where
  bytes : Bytes
  length_le : bytes.length ≤ isizeMax

namespace Slice

def len (s : Slice) : Nat := s.bytes.length

theorem len_le (s : Slice) : s.len ≤ isizeMax := s.length_le

def empty : Slice := ⟨[], Nat.zero_le _⟩

def sub (s : Slice) (a b : Nat) : Slice where
  bytes := (s.bytes.drop a).take (b - a)
  length_le := by
    have h := s.length_le
    rw [length_take, length_drop]
    omega

theorem len_sub (s : Slice) {a b : Nat} (hab : a ≤ b) (hb : b ≤ s.len) : (s.sub a b).len = b - a := by
  unfold len at hb
  simp only [sub, len, length_take, length_drop]
  omega

theorem sub_sub (s : Slice) {a b x y : Nat} (hab : a ≤ b) (hb : b ≤ s.len) (hxy : x ≤ y)
    (hy : y ≤ (s.sub a b).len) : a + x + ((s.sub a b).sub x y).len ≤ s.len ∧
      ((s.sub a b).sub x y).bytes = (s.bytes.drop (a + x)).take ((s.sub a b).sub x y).len := by
  have hlen := len_sub _ hxy hy
  rw [len_sub s hab hb] at hy
  rw [hlen]
  refine ⟨by omega, ?_⟩
  simp only [sub, drop_take, take_take, drop_drop]
  congr 1
  omega

end Slice

/-- `a + b` on `usize`. -/
def addUsize (a b : Nat) : Code ε Nat :=
  if a + b ≤ usizeMax then pure (a + b) else panic .arithmeticOverflow

def mulUsize (a b : Nat) : Code ε Nat :=
  if a * b ≤ usizeMax then pure (a * b) else panic .arithmeticOverflow

/-- `&s[a..b]`. -/
def Slice.range (s : Slice) (a b : Nat) : Code ε Slice :=
  if a ≤ b ∧ b ≤ s.len then pure (s.sub a b) else panic .indexOutOfBounds

/-- `s[i]`. -/
def Slice.at (s : Slice) (i : Nat) : Code ε UInt8 :=
  match s.bytes[i]? with
  | some b => pure b
  | none => panic .indexOutOfBounds

/-- `LittleEndian::read_uN(s)`, which wants `n` bytes at least. -/
def Slice.readLe (s : Slice) (n : Nat) : Code ε Nat :=
  if n ≤ s.len then pure (ofLeBytes (s.bytes.take n)) else panic .indexOutOfBounds

theorem addUsize_eq {a b : Nat} (h : a + b ≤ usizeMax) : (addUsize a b : Code ε Nat) = pure (a + b) := if_pos h

theorem mulUsize_eq {a b : Nat} (h : a * b ≤ usizeMax) : (mulUsize a b : Code ε Nat) = pure (a * b) := if_pos h

theorem Slice.range_eq {s : Slice} {a b : Nat} (hab : a ≤ b) (hb : b ≤ s.len) :
    (s.range a b : Code ε Slice) = pure (s.sub a b) := if_pos ⟨hab, hb⟩

theorem Slice.safe_at {s : Slice} {i : Nat} (h : i < s.len) : NoPanic (s.at i : Code ε UInt8) := by
  unfold Slice.at
  rw [getElem?_eq_getElem h]
  trivial

theorem Slice.readLe_eq {s : Slice} {n : Nat} (h : n ≤ s.len) :
    (s.readLe n : Code ε Nat) = pure (ofLeBytes (s.bytes.take n)) := if_pos h

theorem ofLeBytes_take_lt {s : Slice} {n : Nat} (h : n ≤ s.len) : ofLeBytes (s.bytes.take n) < 256 ^ n := by
  have hlt := ofLeBytes_lt (s.bytes.take n)
  rwa [length_take, min_eq_left (show n ≤ s.bytes.length from h)] at hlt

theorem Slice.safe_readLe {s : Slice} {n : Nat} (h : n ≤ s.len) :
    Safe (s.readLe n : Code ε Nat) (· < 256 ^ n) := by
  rw [Slice.readLe_eq h, safe_pure]
  exact ofLeBytes_take_lt h

theorem Slice.field_eq {s : Slice} {a b n : Nat} (hab : a + n = b) (hb : b ≤ s.len) (f : Nat → Code ε β) :
    (s.range a b >>= fun cells => cells.readLe n >>= f) = f (Rust.readLe n s.bytes a) := by
  obtain rfl : n = b - a := by omega
  rw [Slice.range_eq (by omega) hb, pure_bind, Slice.readLe_eq (s.len_sub (by omega) hb).ge, pure_bind]
  simp only [Slice.sub, take_take, Nat.min_self, Rust.readLe]

theorem Slice.safe_field {s : Slice} {a b n : Nat} (hab : a + n = b) (hb : b ≤ s.len)
    {f : Nat → Code ε β} {Q : β → Prop} (hf : ∀ x, x < 256 ^ n → Safe (f x) Q) :
    Safe (s.range a b >>= fun cells => cells.readLe n >>= f) Q := by
  have hlt := ofLeBytes_lt ((s.bytes.drop a).take n)
  unfold Slice.len at hb
  rw [length_take, length_drop, Nat.min_eq_left (by omega)] at hlt
  rw [Slice.field_eq hab hb]
  exact hf _ hlt

end

end Rust
