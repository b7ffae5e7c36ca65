import PstDedupe.Rust.Paths

/-!
# A build with the lowercase of Latin-1
-/

namespace Rust

def lowerLatin1 (c : Char) : Char :=
  if 0xC0 ≤ c.toNat ∧ c.toNat ≤ 0xDE ∧ c.toNat ≠ 0xD7 then Char.ofNat (c.toNat + 32)
  else if c = '\u0178' then 'ÿ'
  else if c = '\u1E9E' then 'ß'
  else if c = '\u212A' then 'k'
  else if c = '\u212B' then 'å'
  else c.toLower

/-- A Unix build whose lowercase tables are right on what they send into Latin-1. -/
abbrev latin1Target : Target := ⟨false, fun s => String.ofList (s.toList.map lowerLatin1), unixFileName⟩

end Rust
