import PstDedupe.Foundations.Binary64
import PstDedupe.Rust.Groups
import PstDedupe.Rust.Sha2

/-!
# Shingles (`matter-neardup/src/tokenize.rs`)

A text is lowercased and its white space collapsed; runs of CJK characters become n-grams, the words
between them `k`-shingles.
-/

namespace MatterNeardup

open Rust List

def isCjkChar (c : Char) : Bool :=
  let n := c.toNat
  (0x4E00 ≤ n && n ≤ 0x9FFF) || (0x3400 ≤ n && n ≤ 0x4DBF) || (0x3040 ≤ n && n ≤ 0x309F) ||
    (0x30A0 ≤ n && n ≤ 0x30FF)
    || (0xAC00 ≤ n && n ≤ 0xD7AF) || (0xF900 ≤ n && n ≤ 0xFAFF)

def isZeroWidth (c : Char) : Bool := c.toNat ∈ [0x200B, 0x200C, 0x200D, 0xFEFF, 0x2060]

section

variable [Target]

/-- `c.to_lowercase().next().unwrap_or(c)`. -/
def lowerChar (c : Char) : Char := (Target.toLowercase (String.singleton c)).toList.head?.getD c

def prepChar (acc : List Char × Bool) (c : Char) : List Char × Bool :=
  if isZeroWidth c then acc
  else
    let lower := lowerChar c
    if isWhitespace lower then
      if !acc.2 && !acc.1.isEmpty then (acc.1 ++ [' '], true) else acc
    else (acc.1 ++ [lower], false)

def prepText (text : String) : List Char :=
  let out := (text.toList.foldl prepChar ([], false)).1
  if out.getLast? = some ' ' then out.dropLast else out

end

def isPureDigitWord (w : List Char) : Bool := !w.isEmpty && w.all Char.isDigit

def isAsciiPunctuation (c : Char) : Bool :=
  let n := c.toNat
  (33 ≤ n && n ≤ 47) || (58 ≤ n && n ≤ 64) || (91 ≤ n && n ≤ 96) || (123 ≤ n && n ≤ 126)

def isWordSeparator (c : Char) : Bool := "—–…“”‘’«»、。，；：！？（）【】『』「」".toList.contains c || isAsciiPunctuation c

def splitChar (acc : List (List Char) × List Char) (c : Char) : List (List Char) × List Char :=
  if isWhitespace c || isWordSeparator c then
    if acc.2.isEmpty then acc else (acc.1 ++ [acc.2], [])
  else (acc.1, acc.2 ++ [c])

def splitWords (run : List Char) : List (List Char) :=
  let acc := run.foldl splitChar ([], [])
  if acc.2.isEmpty then acc.1 else acc.1 ++ [acc.2]

def gramsOf (n : Nat) (run : List Char) : List (List Char) :=
  if run.length ≥ n then (range (run.length - n + 1)).map fun w => (run.drop w).take n
  else if run.isEmpty then [] else [run]

def wordsOf (ignoreNumbers : Bool) (run : List Char) : List (List Char) :=
  (splitWords run).filter fun w => !(ignoreNumbers && isPureDigitWord w) && !w.isEmpty

def cjkRuns (chars : List Char) : List (List Char) := chars.splitBy fun a b => isCjkChar a == isCjkChar b

def tokenize (prep : List Char) (cjkCharN : Nat) (ignoreNumbers : Bool) : List (List Char) :=
  if prep.isEmpty || cjkCharN == 0 then []
  else (cjkRuns prep).flatMap fun run =>
    if run.head?.any isCjkChar then gramsOf cjkCharN run else wordsOf ignoreNumbers run

def flushWords (shingleK : Nat) (buf : List (List Char)) (set : BTreeSet String) : BTreeSet String :=
  if buf.isEmpty || shingleK == 0 || buf.length < shingleK then set
  else (range (buf.length - shingleK + 1)).foldl
    (fun set i => set.insert (join "\u001f" (((buf.drop i).take shingleK).map String.ofList))) set

def shingleToken (shingleK : Nat) (acc : BTreeSet String × List (List Char)) (t : List Char) :
    BTreeSet String × List (List Char) :=
  if t.all isCjkChar then ((flushWords shingleK acc.2 acc.1).insert (String.ofList t), [])
  else (acc.1, acc.2 ++ [t])

def buildShingles (tokens : List (List Char)) (shingleK : Nat) : BTreeSet String :=
  let acc := tokens.foldl (shingleToken shingleK) (.empty, [])
  flushWords shingleK acc.2 acc.1

def textToShingles [Target] (text : String) (shingleK cjkCharN : Nat) (ignoreNumbers : Bool) :
    List Char × BTreeSet String × Nat :=
  let prepared := prepText text
  let tokens := tokenize prepared cjkCharN ignoreNumbers
  (prepared, buildShingles tokens shingleK, tokens.length)

example :
    letI := Target.unix
    (textToShingles "Old  the Fox, 42 東京都" 2 2 true).2.1.elems
      = ["old\u001fthe", "the\u001ffox", "京都", "東京"] := by
  decide +kernel

/-!
# MinHash signatures and their bands (`minhash.rs` and `lsh.rs` of `matter-neardup`)

A signature holds for each of `h` streams the least image of a shingle.
-/

open Foundations

/-- `SplitMix64::next_u64`: the value, and the state after it. -/
def nextU64 (state : UInt64) : UInt64 × UInt64 :=
  let state := state + 0x9E3779B97F4A7C15
  let z := (state ^^^ (state >>> 30)) * 0xBF58476D1CE4E5B9
  let z := (z ^^^ (z >>> 27)) * 0x94D049BB133111EB
  (z ^^^ (z >>> 31), state)

/-- The next `h` values. -/
def stream : Nat → UInt64 → List UInt64
  | 0, _ => []
  | h + 1, state => (nextU64 state).1 :: stream h (nextU64 state).2

@[simp] theorem length_stream (h : Nat) (state : UInt64) : (stream h state).length = h := by
  induction h generalizing state with
  | zero => rfl
  | succ h ih => exact congrArg (· + 1) (ih _)

/-- A golden sequence of the source's tests. -/
example : (stream 3 0x123456789ABCDEF0) = [0x161922c645ce50e8, 0xad760cafa1697b60,
    0x3501ff44902ca50d] := by decide +kernel

structure MinHashSig (h : Nat) where
  slots : List UInt64
  length : slots.length = h
  deriving DecidableEq

def firstU64Sha256 [Sha256] (bytes : List UInt8) : UInt64 :=
  ((Sha256.digest bytes).1.take 8).foldl (fun acc b => acc * 256 + b.toUInt64) 0

def expandShingleHashes [Sha256] (shingle : String) (hashSeed : UInt64) (h : Nat) : List UInt64 :=
  stream h (firstU64Sha256 (bytes shingle) ^^^ hashSeed)

def lowerSlots (images slots : List UInt64) : List UInt64 :=
  zipWith (fun image slot => if image < slot then image else slot) images slots

def minhashSlots [Sha256] (shingles : List String) (hashSeed : UInt64) (h : Nat) : List UInt64 :=
  shingles.foldl (fun slots s => lowerSlots (expandShingleHashes s hashSeed h) slots)
    (replicate h 0xFFFFFFFFFFFFFFFF)

theorem length_minhashSlots [Sha256] (shingles : List String) (hashSeed : UInt64) (h : Nat) :
    (minhashSlots shingles hashSeed h).length = h := by
  have hfold : ∀ slots : List UInt64, slots.length = h →
      (shingles.foldl (fun slots s => lowerSlots (expandShingleHashes s hashSeed h) slots)
        slots).length = h := by
    induction shingles with
    | nil => exact fun slots hslots => hslots
    | cons s rest ih =>
      intro slots hslots
      refine ih _ ?_
      unfold lowerSlots expandShingleHashes
      rw [length_zipWith, length_stream, hslots, Nat.min_self]
  exact hfold _ length_replicate

def minhashSignature [Sha256] (shingles : BTreeSet String) (hashSeed : UInt64) (h : Nat) : MinHashSig h :=
  ⟨minhashSlots shingles.elems hashSeed h, length_minhashSlots _ _ _⟩

namespace MinHashSig

variable {h : Nat}

def equalSlots (a b : MinHashSig h) : Nat := ((a.slots.zip b.slots).filter fun p => p.1 == p.2).length

def estimateJaccard (a b : MinHashSig h) : Float :=
  if a.slots.isEmpty then 0.0
  else (UInt64.ofNat (a.equalSlots b)).toFloat / (UInt64.ofNat a.slots.length).toFloat

theorem equalSlots_self (a : MinHashSig h) : a.equalSlots a = h := by
  unfold equalSlots
  rw [zip_eq_zipWith, zipWith_self, List.filter_eq_self.mpr, length_map, a.length]
  intro p hp
  obtain ⟨x, -, rfl⟩ := List.mem_map.mp hp
  exact beq_self_eq_true x

theorem equalSlots_comm (a b : MinHashSig h) : a.equalSlots b = b.equalSlots a := by
  unfold equalSlots
  rw [← zip_swap, filter_map, length_map]
  congr 2
  funext p
  exact Bool.beq_comm

theorem estimateJaccard_eq (a b : MinHashSig h) :
    a.estimateJaccard b = if h
      = 0 then 0.0 else (UInt64.ofNat (a.equalSlots b)).toFloat / (UInt64.ofNat h).toFloat := by
  have hempty : a.slots.isEmpty = true ↔ h = 0 := by
    rw [isEmpty_iff_length_eq_zero, a.length]
  unfold estimateJaccard
  rw [a.length]
  exact if_congr hempty rfl rfl

theorem estimateJaccard_comm (a b : MinHashSig h) : a.estimateJaccard b = b.estimateJaccard a := by
  rw [estimateJaccard_eq, estimateJaccard_eq, equalSlots_comm]

theorem estimateJaccard_self (a : MinHashSig h) (hpos : 0 < h) (hlt : h < 2 ^ 64) :
    a.estimateJaccard a = 1.0 := by
  have hne : UInt64.ofNat h ≠ 0 := fun hzero => by
    have hmod : h % 2 ^ 64 = 0 := UInt64.toNat_inj.mpr hzero
    rw [Nat.mod_eq_of_lt hlt] at hmod
    omega
  rw [estimateJaccard_eq, if_neg hpos.ne', equalSlots_self]
  exact Binary64.div_self (Binary64.isFinite_toFloat hne)

end MinHashSig

def bandKey {h : Nat} (rowsPerBand b : Nat) (sig : MinHashSig h) : Option (List UInt64) :=
  let start := b * rowsPerBand
  if start + rowsPerBand > sig.slots.length then none else some ((sig.slots.drop start).take rowsPerBand)

theorem exists_bandKey_zero {h rowsPerBand : Nat} (hfits : rowsPerBand ≤ h) (sig : MinHashSig h) :
    ∃ key, bandKey rowsPerBand 0 sig = some key := by
  have hwhole : ¬ 0 * rowsPerBand + rowsPerBand > sig.slots.length := by
    rw [sig.length, Nat.zero_mul, Nat.zero_add, not_lt]
    exact hfits
  exact ⟨_, if_neg hwhole⟩

def pairsOf : List Nat → List (Nat × Nat)
  | [] => []
  | a :: rest => rest.map (fun b => if a < b then (a, b) else (b, a)) ++ pairsOf rest

def lshCandidatePairs [RandomState] {h : Nat} (sigs : List (MinHashSig h))
    (numBands rowsPerBand : Nat) : List (Nat × Nat) :=
  if numBands = 0 ∨ rowsPerBand = 0 ∨ sigs = [] then []
  else ((range numBands).flatMap fun b =>
    (collectBy (bandKey rowsPerBand b) sigs).values.flatMap pairsOf).dedup

theorem mem_pairsOf {i j : Nat} {members : List Nat} (hi : i ∈ members) (hj : j ∈ members)
    (hlt : i < j) : (i, j) ∈ pairsOf members := by
  induction members with
  | nil => cases hi
  | cons a rest ih =>
    unfold pairsOf
    rcases List.mem_cons.mp hi with rfl | hirest
    · have hjrest : j ∈ rest := (List.mem_cons.mp hj).resolve_left hlt.ne'
      exact mem_append_left _ (List.mem_map.mpr ⟨j, hjrest, if_pos hlt⟩)
    · rcases List.mem_cons.mp hj with rfl | hjrest
      · exact mem_append_left _ (List.mem_map.mpr ⟨i, hirest, if_neg hlt.not_gt⟩)
      · exact mem_append_right _ (ih hirest hjrest)

theorem of_mem_pairsOf {i j : Nat} {members : List Nat} (h : (i, j) ∈ pairsOf members) :
    i ∈ members ∧ j ∈ members := by
  induction members with
  | nil => cases h
  | cons a rest ih =>
    unfold pairsOf at h
    rcases List.mem_append.mp h with h | h
    · obtain ⟨b, hb, heq⟩ := List.mem_map.mp h
      split at heq <;> cases heq
      · exact ⟨mem_cons_self, mem_cons_of_mem _ hb⟩
      · exact ⟨mem_cons_of_mem _ hb, mem_cons_self⟩
    · exact ⟨mem_cons_of_mem _ (ih h).1, mem_cons_of_mem _ (ih h).2⟩

section Candidates

variable [RandomState] {h numBands rowsPerBand : Nat} {sigs : List (MinHashSig h)} {i j : Nat}
  {a b : MinHashSig h}

theorem exists_band_of_mem (hmem : (i, j) ∈ lshCandidatePairs sigs numBands rowsPerBand) :
    ∃ band < numBands, ∃ a b key, sigs[i]? = some a ∧ sigs[j]? = some b ∧
      bandKey rowsPerBand band a = some key ∧ bandKey rowsPerBand band b = some key := by
  unfold lshCandidatePairs at hmem
  split at hmem
  · cases hmem
  · obtain ⟨band, hband, hmem⟩ := List.mem_flatMap.mp (List.mem_dedup.mp hmem)
    obtain ⟨members, hmembers, hpair⟩ := List.mem_flatMap.mp hmem
    obtain ⟨key, hkey⟩ := mem_values_collectBy hmembers
    obtain ⟨hi, hj⟩ := of_mem_pairsOf hpair
    obtain ⟨a, ha, hak⟩ := (hkey i).mp hi
    obtain ⟨b, hb, hbk⟩ := (hkey j).mp hj
    exact ⟨band, List.mem_range.mp hband, a, b, key, ha, hb, hak, hbk⟩

theorem mem_lshCandidatePairs (ha : sigs[i]? = some a) (hb : sigs[j]? = some b) (hlt : i < j)
    {band : Nat} (hband : band < numBands) (hrows : 0 < rowsPerBand) {key : List UInt64}
    (hak : bandKey rowsPerBand band a = some key) (hbk : bandKey rowsPerBand band b = some key) :
    (i, j) ∈ lshCandidatePairs sigs numBands rowsPerBand := by
  have hsome : ¬ (numBands = 0 ∨ rowsPerBand = 0 ∨ sigs = []) := by
    rintro (hzero | hzero | hnil)
    · omega
    · omega
    · rw [hnil] at ha
      cases ha
  obtain ⟨members, hmembers, hkey⟩ := exists_mem_values_collectBy (bandKey rowsPerBand band) ha hak
  unfold lshCandidatePairs
  rw [if_neg hsome, mem_dedup, mem_flatMap]
  refine ⟨band, List.mem_range.mpr hband, List.mem_flatMap.mpr ⟨members, hmembers, ?_⟩⟩
  exact mem_pairsOf ((hkey i).mpr ⟨a, ha, hak⟩) ((hkey j).mpr ⟨b, hb, hbk⟩) hlt

end Candidates

end MatterNeardup
