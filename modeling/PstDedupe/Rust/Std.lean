import Mathlib

/-!
# The part of Rust's standard library the crates rest on

Strings, byte views, hash maps and the two things a build or a process leaves open. Strings are Lean
`String`s (both are sequences of Unicode scalar values, and both compare by code point, which is the
order of their UTF-8 bytes); `usize`, `u32` and `u64` counters are `Nat`, `i64` is `Int`.
-/

namespace Rust

open List Option Function Prod

/-- What a build of the program fixes outside its source. -/
class Target where
  /-- `cfg!(windows)`. -/
  windows : Bool
  /-- `str::to_lowercase`. -/
  toLowercase : String → String
  /-- `Path::file_name`. -/
  fileName : String → Option String

/-- The per-process seed of `HashMap`: the order its values are visited in is some permutation. -/
class RandomState where
  visit : {α : Type} → List α → List α
  visit_perm : ∀ {α : Type} (l : List α), (visit l).Perm l

/-! ## Strings -/

/-- `char::is_whitespace`: the Unicode `White_Space` property. -/
def isWhitespace (c : Char) : Bool :=
  let n := c.toNat
  (9 ≤ n && n ≤ 13) || n == 0x20 || n == 0x85 || n == 0xA0 || n == 0x1680
    || (0x2000 ≤ n && n ≤ 0x200A) || n == 0x2028 || n == 0x2029 || n == 0x202F || n == 0x205F
    || n == 0x3000

def trimMatches (p : Char → Bool) (cs : List Char) : List Char :=
  ((cs.dropWhile p).reverse.dropWhile p).reverse

def trim (s : String) : String := String.ofList (trimMatches isWhitespace s.toList)

def toAsciiLowercase (s : String) : String := String.ofList (s.toList.map Char.toLower)

def toAsciiUppercase (s : String) : String := String.ofList (s.toList.map Char.toUpper)

/-- `{:X}`. -/
def hexUpper (n : Nat) : String := toAsciiUppercase (String.ofList (Nat.toDigits 16 n))

example : hexUpper 0x71F = "71F" := by decide +kernel

def eqIgnoreAsciiCase (a b : String) : Bool := toAsciiLowercase a == toAsciiLowercase b

/-- `str::contains` with a string pattern. -/
def contains (hay needle : String) : Bool := decide (needle.toList <:+: hay.toList)

def startsWith (s p : String) : Bool := p.toList.isPrefixOf s.toList

def endsWith (s p : String) : Bool := p.toList.isSuffixOf s.toList

/-- `str::split` with a character pattern, on the characters: one piece more than separators. -/
def splitChars (c : Char) : List Char → List (List Char)
  | [] => [[]]
  | x :: xs =>
    if x = c then [] :: splitChars c xs
    else match splitChars c xs with
      | [] => [[x]]
      | p :: ps => (x :: p) :: ps

/-- `str::split` with a character pattern. -/
def split (s : String) (c : Char) : List String := (splitChars c s.toList).map String.ofList

/-- `Path::file_name` on Unix: the last component, unless the path ends in the parent directory. -/
def unixFileName (path : String) : Option String :=
  match ((split path '/').filter fun c => c != "" && c != ".").getLast? with
  | some c => if c = ".." then none else some c
  | none => none

/-- A Unix build, with lowercase tables that are right on ASCII text: the build of the concrete
runs. -/
abbrev Target.unix : Target := ⟨false, toAsciiLowercase, unixFileName⟩

/-- A process whose hash maps happen to visit in insertion order. -/
abbrev RandomState.inOrder : RandomState := ⟨id, fun l => .refl l⟩

def join (sep : String) : List String → String
  | [] => ""
  | [s] => s
  | s :: rest => s ++ sep ++ join sep rest

/-- `str::as_bytes`. -/
def bytes (s : String) : List UInt8 := s.toList.flatMap String.utf8EncodeChar

@[simp] theorem bytes_append (s t : String) : bytes (s ++ t) = bytes s ++ bytes t := by
  simp [bytes]

@[simp] theorem bytes_empty : bytes "" = [] := rfl

theorem bytes_injective : Injective bytes := by
  intro s t h
  have henc : s.toList.utf8Encode = t.toList.utf8Encode := by
    unfold utf8Encode
    exact congrArg toByteArray h
  have hof : String.ofList s.toList = String.ofList t.toList := by
    apply String.toByteArray_inj.mp
    simpa [String.ofList] using henc
  simpa using hof

/-- `[u8; 32]`. -/
abbrev Bytes32 := { b : List UInt8 // b.length = 32 }

/-- `[b; 32]`. -/
def Bytes32.fill (b : UInt8) : Bytes32 := ⟨replicate 32 b, length_replicate⟩

instance : Inhabited Bytes32 := ⟨Bytes32.fill 0⟩

/-- `as i64` on a `u64`: the two's complement value. -/
def asI64 (n : Nat) : Int := Int.bmod n (2 ^ 64)

/-- `as u32` on a `usize`. -/
def asU32 (n : Nat) : Nat := n % 2 ^ 32

def leBytes : Nat → Nat → List UInt8
  | 0, _ => []
  | n + 1, x => UInt8.ofNat x :: leBytes n (x / 256)

def ofLeBytes (bs : List UInt8) : Nat := bs.foldr (fun b acc => b.toNat + 256 * acc) 0

/-! ## Decimal texts -/

theorem isDigit_of_mem_repr {n : Nat} {c : Char} (h : c ∈ (Nat.repr n).toList) : c.isDigit := by
  unfold Nat.repr at h
  rw [String.toList_ofList] at h
  exact Nat.isDigit_of_mem_toDigits (by decide) (by decide) h

theorem repr_ne_empty (n : Nat) : Nat.repr n ≠ "" := by
  intro h
  have hnil : Nat.toDigits 10 n = [] := by
    simpa [Nat.repr] using congrArg String.toList h
  exact Nat.toDigits_ne_nil hnil

theorem repr_injective : Injective Nat.repr := by
  intro m n h
  have hdigits : Nat.toDigits 10 m = Nat.toDigits 10 n := by
    simpa [Nat.repr] using congrArg String.toList h
  rw [← Nat.ofDigitChars_toDigits (b := 10) (n := m) (by decide) (by decide), hdigits,
    Nat.ofDigitChars_toDigits (by decide) (by decide)]

theorem toNat_le_of_mem_bytes_repr {n : Nat} {b : UInt8} (h : b ∈ bytes (Nat.repr n)) : b.toNat ≤ 57 := by
  obtain ⟨c, hc, hb⟩ := List.mem_flatMap.mp h
  have hdigit : c.toNat ≤ 57 := by
    have := isDigit_of_mem_repr hc
    simp only [Char.isDigit, Bool.and_eq_true, decide_eq_true_eq] at this
    exact this.2
  unfold String.utf8EncodeChar at hb
  simp only [show c.val.toNat ≤ 127 from Nat.le_trans hdigit (by decide), if_true, mem_singleton] at hb
  subst hb
  simp
  omega

theorem mem_repr_int {z : Int} {c : Char} (h : c ∈ (Int.repr z).toList) : c = '-' ∨ c.isDigit := by
  cases z with
  | ofNat n => exact Or.inr (isDigit_of_mem_repr h)
  | negSucc n =>
    rw [Int.repr, String.toList_append, mem_append] at h
    rcases h with h | h
    · exact Or.inl (by simpa using h)
    · exact Or.inr (isDigit_of_mem_repr h)

theorem repr_int_ne_empty (z : Int) : Int.repr z ≠ "" := by
  cases z with
  | ofNat n => exact repr_ne_empty n
  | negSucc n =>
    intro h
    have := congrArg String.toList h
    simp [Int.repr] at this

theorem repr_int_injective : Injective Int.repr := by
  have hsign : ∀ m n : Nat, Nat.repr m ≠ Int.repr (.negSucc n) := by
    intro m n h
    have hmem : '-' ∈ (Nat.repr m).toList := by
      rw [h, Int.repr, String.toList_append]
      simp
    exact absurd (isDigit_of_mem_repr hmem) (by decide)
  intro x y h
  cases x with
  | ofNat m =>
    cases y with
    | ofNat n => rw [repr_injective h]
    | negSucc n => exact absurd h (hsign m n)
  | negSucc m =>
    cases y with
    | ofNat n => exact absurd h.symm (hsign n m)
    | negSucc n =>
      have htail : Nat.repr (m + 1) = Nat.repr (n + 1) := by
        simpa [Int.repr] using h
      rw [Nat.succ_injective (repr_injective htail)]

/-! ## Collections -/

/-- `HashMap<K, V>`: a finite map with one entry a key. -/
abbrev HashMap (K V : Type) := AList fun _ : K => V

namespace HashMap

variable {K V : Type} [DecidableEq K]

abbrev get (m : HashMap K V) (k : K) : Option V := AList.lookup k m

/-- `entry(k).or_insert(v)`. -/
def orInsert (m : HashMap K V) (k : K) (v : V) : HashMap K V :=
  match m.get k with
  | some _ => m
  | none => AList.insert k v m

/-- `*entry(k).or_default() = f(..)`. -/
def update [Inhabited V] (m : HashMap K V) (k : K) (f : V → V) : HashMap K V :=
  AList.insert k (f ((m.get k).getD default)) m

def values [RandomState] (m : HashMap K V) : List V :=
  RandomState.visit (m.entries.map Sigma.snd)

@[simp] theorem get_empty (k : K) : (∅ : HashMap K V).get k = none := AList.lookup_empty k

theorem get_insert (m : HashMap K V) (k k' : K) (v : V) :
    HashMap.get (AList.insert k v m) k' = if k' = k then some v else m.get k' := by
  by_cases h : k' = k
  · subst h; simp [HashMap.get]
  · simp [HashMap.get, h]

/-- A loop of `insert`s: the last value under a key stays. -/
def insertAll (kvs : List (K × V)) (m : HashMap K V) : HashMap K V :=
  kvs.foldl (fun m kv => AList.insert kv.1 kv.2 m) m

theorem get_insertAll_of_notMem {kvs : List (K × V)} {m : HashMap K V} {k : K}
    (h : k ∉ kvs.map fst) : (m.insertAll kvs).get k = m.get k := by
  unfold insertAll
  induction kvs generalizing m with
  | nil => rfl
  | cons kv rest ih =>
    rw [map_cons, mem_cons, not_or] at h
    rw [foldl_cons, ih h.2, get_insert, if_neg h.1]

theorem get_insertAll_of_mem {kvs : List (K × V)} {m : HashMap K V} {k : K} {v : V}
    (hnodup : (kvs.map fst).Nodup) (h : (k, v) ∈ kvs) : (m.insertAll kvs).get k = some v := by
  induction kvs generalizing m with
  | nil => cases h
  | cons kv rest ih =>
    rw [map_cons, nodup_cons] at hnodup
    show (HashMap.insertAll rest (AList.insert kv.1 kv.2 m)).get k = some v
    rcases List.mem_cons.mp h with rfl | h
    · rw [get_insertAll_of_notMem hnodup.1, get_insert, if_pos rfl]
    · exact ih hnodup.2 h

theorem insertAll_concat (kvs : List (K × V)) (kv : K × V) (m : HashMap K V) :
    HashMap.insertAll (kvs ++ [kv]) m = AList.insert kv.1 kv.2 (HashMap.insertAll kvs m) := by
  rw [insertAll, foldl_append]
  rfl

theorem mem_of_get_insertAll {kvs : List (K × V)} {k : K} {v : V}
    (h : HashMap.get (HashMap.insertAll kvs ∅) k = some v) : (k, v) ∈ kvs := by
  induction kvs using reverseRecOn with
  | nil =>
    rw [show HashMap.insertAll ([] : List (K × V)) ∅ = ∅ from rfl, get_empty] at h
    cases h
  | append_singleton kvs kv ih =>
    rw [insertAll_concat, get_insert] at h
    split at h
    · rename_i hk
      rw [hk, ← Option.some.inj h]
      exact mem_append_right _ (mem_singleton_self kv)
    · exact mem_append_left _ (ih h)

theorem isSome_get_insertAll {kvs : List (K × V)} {k : K} (h : k ∈ kvs.map fst) :
    ∃ v, HashMap.get (HashMap.insertAll kvs ∅) k = some v := by
  induction kvs using reverseRecOn with
  | nil => cases h
  | append_singleton kvs kv ih =>
    rw [insertAll_concat, get_insert]
    by_cases hk : k = kv.1
    · exact ⟨kv.2, if_pos hk⟩
    · rw [if_neg hk]
      apply ih
      rw [map_append, mem_append, map_singleton, mem_singleton] at h
      exact h.resolve_right hk

theorem entries_insertAll {kvs : List (K × V)} (hnodup : (kvs.map fst).Nodup) :
    (HashMap.insertAll kvs (∅ : HashMap K V)).entries.Perm
      (kvs.map fun kv => ⟨kv.1, kv.2⟩) := by
  induction kvs using reverseRecOn with
  | nil => exact .nil
  | append_singleton kvs kv ih =>
    rw [map_append, nodup_append] at hnodup
    obtain ⟨hkvs, _, hapart⟩ := hnodup
    have hnew : kv.1 ∉ HashMap.insertAll kvs (∅ : HashMap K V) := by
      rw [← AList.lookup_eq_none]
      show (HashMap.insertAll kvs ∅).get kv.1 = none
      rw [get_insertAll_of_notMem, get_empty]
      exact fun hmem => hapart _ hmem kv.1 (mem_singleton_self _) rfl
    rw [insertAll_concat, AList.entries_insert_of_notMem hnew, map_append]
    exact ((ih hkvs).cons _).trans (perm_append_singleton _ _).symm

theorem get_insertAll_eq_some_iff {kvs : List (K × V)} (hnodup : (kvs.map fst).Nodup) {k : K}
    {v : V} : HashMap.get (HashMap.insertAll kvs ∅) k = some v ↔ (k, v) ∈ kvs := by
  constructor
  · intro h
    by_cases hk : k ∈ kvs.map fst
    · obtain ⟨⟨_, w⟩, hmem, rfl⟩ := List.mem_map.mp hk
      rw [get_insertAll_of_mem hnodup hmem] at h
      rwa [← Option.some.inj h]
    · rw [get_insertAll_of_notMem hk, get_empty] at h
      cases h
  · exact get_insertAll_of_mem hnodup

theorem get_orInsert (m : HashMap K V) (k k' : K) (v : V) :
    (m.orInsert k v).get k' = if k' = k then some ((m.get k).getD v) else m.get k' := by
  unfold orInsert
  cases hk : m.get k with
  | some w =>
    by_cases h : k' = k
    · subst h; simp [hk]
    · simp [h]
  | none => rw [get_insert]; simp

theorem get_update [Inhabited V] (m : HashMap K V) (k k' : K) (f : V → V) : (m.update k f).get k' =
      if k' = k then some (f ((m.get k).getD default)) else m.get k' :=
  get_insert m k k' _

theorem mem_values [RandomState] {m : HashMap K V} {v : V} : v ∈ m.values ↔ ∃ k, m.get k = some v := by
  rw [values, (RandomState.visit_perm _).mem_iff, List.mem_map]
  constructor
  · rintro ⟨⟨k, w⟩, hmem, rfl⟩
    exact ⟨k, AList.mem_lookup_iff.mpr hmem⟩
  · rintro ⟨k, hk⟩
    exact ⟨⟨k, v⟩, AList.mem_lookup_iff.mp hk, rfl⟩

end HashMap

/-- The loop `map.entry(key(x)).or_default().push(i)` over an enumerated list; an element without a
key is skipped. -/
def collectBy {α K : Type} [DecidableEq K] (key : α → Option K) (xs : List α) : HashMap K (List Nat) :=
  xs.zipIdx.foldl (fun m p =>
    match key p.1 with
    | some k => m.update k (· ++ [p.2])
    | none => m) ∅

theorem get_collectBy {α K : Type} [DecidableEq K] (key : α → Option K) (xs : List α) (k : K) :
    ((collectBy key xs).get k).getD [] =
      (range xs.length).filter fun i => decide ((xs[i]?.bind key) = some k) := by
  induction xs using reverseRecOn with
  | nil => rfl
  | append_singleton xs x ih =>
    have hinit : (range xs.length).filter
          (fun i => decide (((xs ++ [x])[i]?.bind key) = some k))
        = (range xs.length).filter fun i => decide ((xs[i]?.bind key) = some k) := by
      apply filter_congr
      intro i hi
      rw [getElem?_append_left (List.mem_range.mp hi)]
    rw [length_append, length_singleton, range_succ, filter_append, hinit, ← ih]
    simp only [collectBy, zipIdx_append, foldl_append, zipIdx_cons, zipIdx_nil,
      foldl_cons, foldl_nil]
    cases hx : key x with
    | none => simp [hx]
    | some k' =>
      by_cases hk : k = k'
      · subst hk
        simp [HashMap.get_update, hx]
        rfl
      · have hne : k' ≠ k := fun h => hk h.symm
        simp [HashMap.get_update, hx, hk, hne]

theorem mem_values_collectBy [RandomState] {α K : Type} [DecidableEq K] {key : α → Option K}
    {xs : List α} {idxs : List Nat} (h : idxs ∈ (collectBy key xs).values) :
    ∃ k, ∀ i, i ∈ idxs ↔ ∃ x, xs[i]? = some x ∧ key x = some k := by
  obtain ⟨k, hk⟩ := HashMap.mem_values.mp h
  refine ⟨k, fun i => ?_⟩
  have hget := get_collectBy key xs k
  rw [hk, getD_some] at hget
  subst hget
  simp only [mem_filter, mem_range, decide_eq_true_eq, bind_eq_some_iff]
  constructor
  · rintro ⟨_, x, hx, hkx⟩
    exact ⟨x, hx, hkx⟩
  · rintro ⟨x, hx, hkx⟩
    exact ⟨(List.getElem?_eq_some_iff.mp hx).1, x, hx, hkx⟩

theorem exists_mem_values_collectBy [RandomState] {α K : Type} [DecidableEq K]
    (key : α → Option K) {xs : List α} {k : K} {i : Nat} {x : α} (hx : xs[i]? = some x)
    (hk : key x = some k) : ∃ idxs ∈ (collectBy key xs).values,
      ∀ j, j ∈ idxs ↔ ∃ y, xs[j]? = some y ∧ key y = some k := by
  have hget := get_collectBy key xs k
  have hmem : ∀ j, j ∈ ((collectBy key xs).get k).getD []
      ↔ ∃ y, xs[j]? = some y ∧ key y = some k := by
    intro j
    rw [hget]
    simp only [mem_filter, mem_range, decide_eq_true_eq, bind_eq_some_iff]
    constructor
    · rintro ⟨_, y, hy, hky⟩
      exact ⟨y, hy, hky⟩
    · rintro ⟨y, hy, hky⟩
      exact ⟨(List.getElem?_eq_some_iff.mp hy).1, y, hy, hky⟩
  cases hg : (collectBy key xs).get k with
  | none => simp [hg] at hmem; exact absurd hk (hmem i x hx)
  | some idxs =>
    refine ⟨idxs, HashMap.mem_values.mpr ⟨k, hg⟩, ?_⟩
    simpa [hg] using hmem

/-- `Vec::dedup`: drops an element equal to the one after it. -/
def vecDedup {α : Type} [DecidableEq α] : List α → List α
  | [] => []
  | [x] => [x]
  | x :: y :: l => if x = y then vecDedup (y :: l) else x :: vecDedup (y :: l)

@[simp] theorem mem_vecDedup {α : Type} [DecidableEq α] {a : α} {l : List α} : a ∈ vecDedup l ↔ a ∈ l := by
  fun_induction vecDedup l with
  | case1 => rfl
  | case2 => rfl
  | case3 y l ih => simp [ih]
  | case4 x y l hne ih => simp [ih]

/-- `sort_unstable` on indices. -/
def sortNats (l : List Nat) : List Nat := l.insertionSort (· ≤ ·)

theorem sortNats_perm (l : List Nat) : (sortNats l).Perm l := perm_insertionSort _ l

theorem pairwise_sortNats {l : List Nat} (h : l.Nodup) : (sortNats l).Pairwise (· < ·) := by
  have hle : (sortNats l).Pairwise (· ≤ ·) := pairwise_insertionSort _ l
  have hne : (sortNats l).Pairwise (· ≠ ·) := (sortNats_perm l).nodup_iff.mpr h
  exact hle.imp₂ (fun _ _ hle hne => Nat.lt_of_le_of_ne hle hne) hne

/-- `sort_by` with a comparator: stable. -/
def sortBy {α : Type} (cmp : α → α → Ordering) (l : List α) : List α :=
  l.insertionSort fun a b => (cmp a b).isLE

theorem sortBy_perm {α : Type} (cmp : α → α → Ordering) (l : List α) : (sortBy cmp l).Perm l :=
  perm_insertionSort _ l

theorem pairwise_sortBy {α : Type} (cmp : α → α → Ordering) [Std.TransCmp cmp] (l : List α) :
    (sortBy cmp l).Pairwise fun a b => (cmp a b).isLE := by
  have htotal : Std.Total fun a b => (cmp a b).isLE = true := by
    refine ⟨fun a b => ?_⟩
    have hswap : cmp b a = (cmp a b).swap := Std.OrientedCmp.eq_swap
    rw [hswap]
    cases cmp a b <;> simp
  have htrans : IsTrans α fun a b => (cmp a b).isLE = true :=
    ⟨fun _ _ _ hab hbc => Std.TransCmp.isLE_trans hab hbc⟩
  exact pairwise_insertionSort _ l

theorem sortBy_eq_of_perm {α : Type} {cmp : α → α → Ordering} [Std.TransCmp cmp]
    [Std.LawfulEqCmp cmp] {l l' : List α} (h : l.Perm l') : sortBy cmp l = sortBy cmp l' := by
  have hperm := ((sortBy_perm cmp l).trans h).trans (sortBy_perm cmp l').symm
  refine hperm.eq_of_pairwise (fun a b _ _ hab hba => ?_) (pairwise_sortBy cmp l) (pairwise_sortBy cmp l')
  exact Std.LawfulEqCmp.eq_of_compare (Std.OrientedCmp.isLE_antisymm hab hba)

theorem map_sortBy {α β : Type} (cmp : β → β → Ordering) (key : α → β) (l : List α) :
    (sortBy (fun a b => cmp (key a) (key b)) l).map key = sortBy cmp (l.map key) :=
  map_insertionSort _ _ key l fun _ _ _ _ => Iff.rfl

theorem sortBy_eq_iff {α : Type} {cmp : α → α → Ordering} [Std.TransCmp cmp] [Std.LawfulEqCmp cmp]
    {l l' : List α} : sortBy cmp l = sortBy cmp l' ↔ l.Perm l' := by
  constructor
  · intro h
    have hperm := (sortBy_perm cmp l).symm
    rw [h] at hperm
    exact hperm.trans (sortBy_perm cmp l')
  · exact sortBy_eq_of_perm

theorem pairwise_sortBy_key {α : Type} (key : α → Nat) {l : List α} (h : (l.map key).Nodup) :
    (sortBy (fun a b => compare (key a) (key b)) l).Pairwise fun a b => key a < key b := by
  have hle : ∀ a b, (compare (key a) (key b)).isLE = true ↔ key a ≤ key b :=
    fun a b => Nat.isLE_compare
  have htotal : Std.Total fun a b => (compare (key a) (key b)).isLE = true := by
    refine ⟨fun a b => ?_⟩
    rw [hle, hle]
    exact Nat.le_total _ _
  have htrans : IsTrans α fun a b => (compare (key a) (key b)).isLE = true := by
    refine ⟨fun a b c hab hbc => ?_⟩
    rw [hle] at hab hbc ⊢
    exact Nat.le_trans hab hbc
  have hsorted := pairwise_insertionSort
    (fun a b => (compare (key a) (key b)).isLE = true) l
  have hperm := sortBy_perm (fun a b => compare (key a) (key b)) l
  have hne : (sortBy (fun a b => compare (key a) (key b)) l).Pairwise fun a b => key a ≠ key b :=
    List.pairwise_map.mp ((hperm.map key).nodup_iff.mpr h)
  apply hsorted.imp₂ _ hne
  intro a b hab hnab
  exact Nat.lt_of_le_of_ne ((hle a b).mp hab) hnab

theorem rel_of_mem_zip_tail {α : Type} {R : α → α → Prop} {l : List α} (h : l.Pairwise R) {a b : α}
    (hab : (a, b) ∈ l.zip l.tail) : R a b := by
  induction l with
  | nil => cases hab
  | cons x rest ih =>
    rw [pairwise_cons] at h
    cases rest with
    | nil => cases hab
    | cons y rest =>
      rw [tail_cons, zip_cons_cons] at hab
      rcases List.mem_cons.mp hab with heq | hab
      · cases heq
        exact h.1 _ mem_cons_self
      · exact ih h.2 hab

def sortStrings (l : List String) : List String := sortBy compare l

theorem nodup_vecDedup_sortStrings (l : List String) : (vecDedup (sortStrings l)).Nodup := by
  have hdedup : ∀ l : List String, l.Pairwise (fun a b => (compare a b).isLE = true) → (vecDedup l).Nodup := by
    intro l hsorted
    fun_induction vecDedup l with
    | case1 => exact nodup_nil
    | case2 x => exact nodup_singleton x
    | case3 y l ih => exact ih hsorted.of_cons
    | case4 x y l hne ih =>
      rw [pairwise_cons] at hsorted
      obtain ⟨hfirst, hrest⟩ := hsorted
      refine List.nodup_cons.mpr ⟨fun hmem => ?_, ih hrest⟩
      rcases List.mem_cons.mp (mem_vecDedup.mp hmem) with heq | hlater
      · exact hne heq
      · -- between two equal values of a sorted list everything is equal
        have hyx := (List.pairwise_cons.mp hrest).1 x hlater
        have hxy := hfirst y mem_cons_self
        exact hne (Std.LawfulEqCmp.eq_of_compare (Std.OrientedCmp.isLE_antisymm hxy hyx))
  exact hdedup _ (pairwise_sortBy compare l)

theorem mem_vecDedup_sortStrings {l : List String} {a : String} : a ∈ vecDedup (sortStrings l) ↔ a ∈ l := by
  rw [mem_vecDedup]
  exact (sortBy_perm compare l).mem_iff

/-!
# `BTreeSet`

An ordered set is its elements in ascending order, so two sets with the same elements are equal.
-/

/-- `BTreeSet<T>`. -/
structure BTreeSet (α : Type) [LinearOrder α] where
  elems : List α
  ascending : elems.Pairwise (· < ·)

namespace BTreeSet

variable {α : Type} [LinearOrder α]

def empty : BTreeSet α := ⟨[], List.Pairwise.nil⟩

instance : Membership α (BTreeSet α) := ⟨fun s x => x ∈ s.elems⟩

def insertInto (x : α) : List α → List α
  | [] => [x]
  | y :: ys => if x < y then x :: y :: ys else if x = y then y :: ys else y :: insertInto x ys

theorem mem_insertInto {x z : α} {l : List α} : z ∈ insertInto x l ↔ z = x ∨ z ∈ l := by
  induction l with
  | nil => exact mem_cons
  | cons y ys ih =>
    unfold insertInto
    split
    · exact mem_cons
    · split
      next heq =>
        subst heq
        rw [mem_cons]
        exact ⟨Or.inr, fun h => h.elim Or.inl id⟩
      next => rw [mem_cons, mem_cons, ih, or_left_comm]

theorem pairwise_insertInto {x : α} {l : List α} (h : l.Pairwise (· < ·)) :
    (insertInto x l).Pairwise (· < ·) := by
  induction l with
  | nil => exact pairwise_singleton _ _
  | cons y ys ih =>
    obtain ⟨hy, hys⟩ := List.pairwise_cons.mp h
    unfold insertInto
    split
    next hlt => exact List.pairwise_cons.mpr ⟨fun z hz => (List.mem_cons.mp hz).elim (fun heq => heq ▸ hlt)
        fun hz => hlt.trans (hy z hz), h⟩
    next hnlt =>
      split
      next => exact h
      next hne =>
        refine List.pairwise_cons.mpr ⟨fun z hz => ?_, ih hys⟩
        rcases mem_insertInto.mp hz with rfl | hz
        · exact lt_of_le_of_ne (not_lt.mp hnlt) (Ne.symm hne)
        · exact hy z hz

def insert (s : BTreeSet α) (x : α) : BTreeSet α := ⟨insertInto x s.elems, pairwise_insertInto s.ascending⟩

def isEmpty (s : BTreeSet α) : Bool := s.elems.isEmpty

theorem eq_of_mem_iff {s t : BTreeSet α} (h : ∀ x, x ∈ s ↔ x ∈ t) : s = t := by
  obtain ⟨l, hl⟩ := s
  obtain ⟨l', hl'⟩ := t
  obtain rfl : l = l' := hl.eq_of_mem_iff hl' h
  rfl

end BTreeSet

/-!
# Integers from text and JSON values

`str::parse::<i64>` and the accessors of `serde_json::Value` that the crates use. Floats are Lean
`Float`s.
-/

/-- `str::parse::<i64>`: a sign at most, then digits, within the range. -/
def parseI64 (s : String) : Option Int :=
  let (negative, digits) := match s.toList with
    | '-' :: digits => (true, digits)
    | '+' :: digits => (false, digits)
    | digits => (false, digits)
  if digits.isEmpty || !digits.all Char.isDigit then none
  else
    let n : Nat := digits.foldl (fun (n : Nat) d => 10 * n + (d.toNat - 48)) 0
    let value : Int := if negative then -(n : Int) else n
    if -(2 ^ 63) ≤ value ∧ value < 2 ^ 63 then some value else none

example : parseI64 "-42" = some (-42) ∧ parseI64 "9223372036854775808" = none := by decide

inductive JsonNumber where
  | posInt (n : Nat)
  | negInt (n : Int)
  | float (x : Float)

inductive JsonValue where
  | null
  | bool (b : Bool)
  | number (n : JsonNumber)
  | string (s : String)
  | array (items : List JsonValue)
  | object (fields : List (String × JsonValue))

namespace JsonValue

def asStr : JsonValue → Option String
  | .string s => some s
  | _ => none

def asBool : JsonValue → Option Bool
  | .bool b => some b
  | _ => none

def asI64 : JsonValue → Option Int
  | .number (.posInt n) => if n < 2 ^ 63 then some n else none
  | .number (.negInt n) => some n
  | _ => none

def asU64 : JsonValue → Option Nat
  | .number (.posInt n) => some n
  | _ => none

def asF64 : JsonValue → Option Float
  | .number (.posInt n) => some (Float.ofNat n)
  | .number (.negInt n) => some (Float.ofInt n)
  | .number (.float x) => some x
  | _ => none

end JsonValue

end Rust
