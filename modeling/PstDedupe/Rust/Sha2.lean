import PstDedupe.Rust.Std

/-!
# SHA-256 (`sha2::Sha256`)

The hash is a parameter of the model: results about hashed messages hold for any function, under the
assumption that it does not collide on the texts they name.
-/

namespace Rust

open List

/-- `Sha256::update` over all pieces, then `finalize`. -/
class Sha256 where
  digest : List UInt8 → Bytes32

/-- The two preimages are no collision. -/
def CollisionFree [Sha256] (p q : List UInt8) : Prop := Sha256.digest p = Sha256.digest q → p = q

namespace Sha256

def roundConstants : List UInt32 := [
  0x428a2f98, 0x71374491, 0xb5c0fbcf, 0xe9b5dba5, 0x3956c25b, 0x59f111f1, 0x923f82a4, 0xab1c5ed5,
  0xd807aa98, 0x12835b01, 0x243185be, 0x550c7dc3, 0x72be5d74, 0x80deb1fe, 0x9bdc06a7, 0xc19bf174,
  0xe49b69c1, 0xefbe4786, 0x0fc19dc6, 0x240ca1cc, 0x2de92c6f, 0x4a7484aa, 0x5cb0a9dc, 0x76f988da,
  0x983e5152, 0xa831c66d, 0xb00327c8, 0xbf597fc7, 0xc6e00bf3, 0xd5a79147, 0x06ca6351, 0x14292967,
  0x27b70a85, 0x2e1b2138, 0x4d2c6dfc, 0x53380d13, 0x650a7354, 0x766a0abb, 0x81c2c92e, 0x92722c85,
  0xa2bfe8a1, 0xa81a664b, 0xc24b8b70, 0xc76c51a3, 0xd192e819, 0xd6990624, 0xf40e3585, 0x106aa070,
  0x19a4c116, 0x1e376c08, 0x2748774c, 0x34b0bcb5, 0x391c0cb3, 0x4ed8aa4a, 0x5b9cca4f, 0x682e6ff3,
  0x748f82ee, 0x78a5636f, 0x84c87814, 0x8cc70208, 0x90befffa, 0xa4506ceb, 0xbef9a3f7, 0xc67178f2]

structure State where
  a : UInt32
  b : UInt32
  c : UInt32
  d : UInt32
  e : UInt32
  f : UInt32
  g : UInt32
  h : UInt32

def State.initial : State :=
  ⟨0x6a09e667, 0xbb67ae85, 0x3c6ef372, 0xa54ff53a, 0x510e527f, 0x9b05688c, 0x1f83d9ab, 0x5be0cd19⟩

def rotr (x n : UInt32) : UInt32 := (x >>> n) ||| (x <<< (32 - n))

/-- One round; the window holds the sixteen schedule words from the current one on. -/
def round (s : State × List UInt32) (k : UInt32) : State × List UInt32 :=
  let (⟨a, b, c, d, e, f, g, h⟩, w) := s
  let word (i : Nat) : UInt32 := w.getD i 0
  let ch := (e &&& f) ^^^ (~~~e &&& g)
  let maj := (a &&& b) ^^^ (a &&& c) ^^^ (b &&& c)
  let t1 := h + (rotr e 6 ^^^ rotr e 11 ^^^ rotr e 25) + ch + k + word 0
  let t2 := (rotr a 2 ^^^ rotr a 13 ^^^ rotr a 22) + maj
  let low := rotr (word 1) 7 ^^^ rotr (word 1) 18 ^^^ (word 1 >>> 3)
  let high := rotr (word 14) 17 ^^^ rotr (word 14) 19 ^^^ (word 14 >>> 10)
  (⟨t1 + t2, a, b, c, d + t1, e, f, g⟩, w.drop 1 ++ [high + word 9 + low + word 0])

def compress (s : State) (words : List UInt32) : State :=
  let r := (roundConstants.foldl round (s, words)).1
  ⟨s.a + r.a, s.b + r.b, s.c + r.c, s.d + r.d, s.e + r.e, s.f + r.f, s.g + r.g, s.h + r.h⟩

def words : List UInt8 → List UInt32
  | b₀ :: b₁ :: b₂ :: b₃ :: rest =>
    (b₀.toUInt32 <<< 24 ||| b₁.toUInt32 <<< 16 ||| b₂.toUInt32 <<< 8 ||| b₃.toUInt32) :: words rest
  | _ => []

/-- The last `n` bytes of a number, big-endian. -/
def bigEndian : Nat → Nat → List UInt8
  | 0, _ => []
  | n + 1, x => bigEndian n (x / 256) ++ [UInt8.ofNat x]

def pad (msg : List UInt8) : List UInt8 :=
  msg ++ [0x80] ++ replicate ((119 - msg.length % 64) % 64) 0 ++ bigEndian 8 (8 * msg.length)

def blocks : Nat → List UInt8 → State → State
  | 0, _, s => s
  | n + 1, text, s => blocks n (text.drop 64) (compress s (words (text.take 64)))

def State.bytes (s : State) : List UInt8 :=
  [s.a, s.b, s.c, s.d, s.e, s.f, s.g, s.h].flatMap fun w => bigEndian 4 w.toNat

theorem length_bigEndian (n x : Nat) : (bigEndian n x).length = n := by
  induction n generalizing x with
  | zero => rfl
  | succ n ih => rw [bigEndian, length_append, ih, length_singleton]

theorem length_bytes (s : State) : s.bytes.length = 32 := by
  simp [State.bytes, length_bigEndian]

abbrev fips : Sha256 where
  digest msg :=
    let text := pad msg
    let s := blocks (text.length / 64) text .initial
    ⟨s.bytes, length_bytes s⟩

/-- The digest of the empty text. -/
example : (fips.digest []).1 = [
    0xe3, 0xb0, 0xc4, 0x42, 0x98, 0xfc, 0x1c, 0x14, 0x9a, 0xfb, 0xf4, 0xc8, 0x99, 0x6f, 0xb9, 0x24,
    0x27, 0xae, 0x41, 0xe4, 0x64, 0x9b, 0x93, 0x4c, 0xa4, 0x95, 0x99, 0x1b, 0x78, 0x52, 0xb8, 0x55] := by
  decide +kernel

end Sha256

end Rust
