import PstDedupe.MatterCore.CasSpecs

/-!
# Runs of the store

A run is a sequence of `put_bytes` and `put_reader` calls, each with what becomes of its operations:
any of them may fail, and the process may end in any and a new one go on with the files. A removal
whose result the source drops is taken as done.
-/

namespace MatterCore

open Rust Foundations Prog Option

/-- Where the bytes of a call come from. A reader gives less than its counter of type `u64`
holds. -/
inductive PutSource where
  | bytes (data : Bytes) (lt : data.length < 2 ^ 64)
  | reader (seq pid : Nat) (reads : List ReadResult)
    (lt : ∀ data, readToEnd reads = some data → data.length < 2 ^ 64)

structure PutCall where
  source : PutSource
  nonce : Nat → Nonce
  outcomes : List Outcome

def PutCall.data (call : PutCall) : Option Bytes :=
  match call.source with
  | .bytes data _ => some data
  | .reader _ _ reads _ => readToEnd reads

section

variable [Sha256] [Gcm]

def PutCall.prog (cas : Cas) (call : PutCall) : CasProg String :=
  match call.source with
  | .bytes data _ => putBytes cas call.nonce data
  | .reader seq pid reads _ => putReader cas call.nonce seq pid reads

def put (cas : Cas) (fs : Files MatterPath UInt8) (call : PutCall) :
    Except (Stop CasError) String × Files MatterPath UInt8 :=
  let r := call.prog cas ⟨fs, call.outcomes⟩
  (r.1, r.2.state)

def afterPuts (cas : Cas) (fs : Files MatterPath UInt8) (calls : List PutCall) : Files MatterPath UInt8 :=
  calls.foldl (fun fs call => (put cas fs call).2) fs

variable {cas : Cas}

/-- What an error may leave of a call: its temp, with a part of the seal. -/
def Residue (cas : Cas) (call : PutCall) (fs fs' : Files MatterPath UInt8) : Prop :=
  ∀ p, fs' p = fs p ∨ fs' p = none ∨ ∃ data k, call.data = some data ∧ p = putTmpPath (sha256Hex data)
    ∧ fs' p = some ((cas.seal call.nonce (sha256Hex data) data).take k)

theorem ensures_prog (cas : Cas) (fs : Files MatterPath UInt8) (call : PutCall) :
    Ensures (call.prog cas) fs (fun digest fs' => ∃ data, call.data = some data ∧
      Stored cas digest data fs fs')
      fun s fs' => Files.Agree IsScratch fs fs' ∧ (s ≠ .crashed → Residue cas call fs fs') := by
  obtain ⟨source, nonce, outcomes⟩ := call
  cases source with
  | bytes data lt =>
    have hspec := putBytes_spec cas nonce data lt fs
    refine Ensures.mono hspec (fun digest fs' hstored => ⟨data, rfl, hstored⟩) ?_
    rintro s fs' ⟨hagree, htemp⟩
    have hscratch := isScratch_putTmpPath (length_sha256Hex data)
    refine ⟨hagree.mono fun p hp => hp ▸ hscratch, fun _ p => ?_⟩
    by_cases hp : p = putTmpPath (sha256Hex data)
    · subst hp
      refine htemp.imp_right (Or.imp_right ?_)
      rintro ⟨k, hk⟩
      exact ⟨data, k, rfl, rfl, hk⟩
    · exact .inl (hagree p hp)
  | reader seq pid reads lt =>
    refine (putReader_spec cas nonce seq pid lt fs).mono (fun digest fs' hstored => hstored) ?_
    rintro s fs' ⟨hagree, hclean⟩
    exact ⟨hagree, fun hs p => (hclean hs p).imp_right .inl⟩

theorem put_keeps (cas : Cas) (fs : Files MatterPath UInt8) (call : PutCall) :
    (∀ p, IsObject p → (fs p).isSome → (put cas fs call).2 p = fs p)
      ∧ isEncryptedMatter (put cas fs call).2 = isEncryptedMatter fs := by
  unfold isEncryptedMatter
  cases hresult : (put cas fs call).1 with
  | ok digest =>
    obtain ⟨data, -, hstored⟩ := (ensures_prog cas fs call).of_ok hresult
    exact ⟨hstored.keeps, congrArg isSome hstored.header⟩
  | error s =>
    obtain ⟨hagree, -⟩ := (ensures_prog cas fs call).of_error hresult
    exact ⟨fun p hp _ => hagree p (not_isScratch_of_isObject hp), congrArg isSome (hagree _ fun h => h.2 rfl)⟩

theorem afterPuts_keeps (cas : Cas) (calls : List PutCall) (fs : Files MatterPath UInt8) :
    (∀ p, IsObject p → (fs p).isSome → afterPuts cas fs calls p = fs p)
      ∧ isEncryptedMatter (afterPuts cas fs calls) = isEncryptedMatter fs := by
  induction calls generalizing fs with
  | nil => exact ⟨fun _ _ _ => rfl, rfl⟩
  | cons call calls ih =>
    obtain ⟨hput, hput'⟩ := put_keeps cas fs call
    obtain ⟨hrest, hrest'⟩ := ih (put cas fs call).2
    refine ⟨fun p hp hsome => ?_, hrest'.trans hput'⟩
    have hsame := hput p hp hsome
    exact (hrest p hp (hsame ▸ hsome)).trans hsame

/-- **The law of the store**, after any run of puts. A plain store is that of a matter that is not
encrypted, as its openers see to. -/
theorem cas_store_law (cas : Cas) (fs₀ : Files MatterPath UInt8)
    (hplain : cas.crypto = none → isEncryptedMatter fs₀ = false) (calls : List PutCall) (call : PutCall) :
    let fs := afterPuts cas fs₀ calls
    let result := (put cas fs call).1
    let fs' := (put cas fs call).2
    (∀ digest, result = .ok digest → ∃ data, call.data = some data ∧ digest = sha256Hex data
        ∧ ∀ later, Reads cas (afterPuts cas fs' later) digest data)
      ∧ (∀ s, result = .error s → ∀ p, IsObject p → fs' p = fs p)
      ∧ ∀ e crypto, result = .error (.failed e) → cas.crypto = some crypto → ∀ p, fs' p = fs p ∨ fs' p = none
        ∨ ∃ data k, call.data = some data ∧ p = putTmpPath (sha256Hex data) ∧ fs' p = some ((encryptChunked
          call.nonce magicCas (bytes "cas") (bytes (sha256Hex data)) data crypto.chunkBytes).take k) := by
  intro fs result fs'
  have hspec := ensures_prog cas fs call
  refine ⟨fun digest hok => ?_, fun s herror p hp => ?_, fun e crypto herror hcas p => ?_⟩
  · obtain ⟨data, hdata, hstored⟩ := hspec.of_ok hok
    obtain ⟨obj, hobj, hholds⟩ := hstored.stores
    refine ⟨data, hdata, hstored.digest_eq, fun later => ?_⟩
    obtain ⟨hobjects, hheader⟩ := afterPuts_keeps cas later fs'
    have hlater : Stores cas digest data (afterPuts cas fs' later) := by
      refine ⟨obj, ?_, hholds⟩
      rw [hobjects _ (hstored.digest_eq ▸ isObject_sha256Hex data) (isSome_of_eq_some hobj)]
      exact hobj
    have hencrypted : isEncryptedMatter (afterPuts cas fs' later) = isEncryptedMatter fs₀ :=
      (hheader.trans (put_keeps cas fs call).2).trans (afterPuts_keeps cas calls fs₀).2
    exact reads_of_stores hstored.digest_eq hlater fun hcas => hencrypted.trans (hplain hcas)
  · exact (hspec.of_error herror).1 p (not_isScratch_of_isObject hp)
  · have hresidue := (hspec.of_error herror).2 (by simp) p
    unfold Cas.seal at hresidue
    rw [hcas] at hresidue
    exact hresidue

end

section Sealed

local instance taggingGcm : Gcm := Gcm.appending

local instance fipsDigest : Sha256 := Sha256.fips

def sealedCas : Cas := ⟨some ⟨64 * 1024, by decide, by decide⟩⟩

def zeroNonces (_ : Nat) : Nonce := ⟨List.replicate 12 0, length_zeroNonce⟩

def failingPut : PutCall where
  source := .reader 1 7 [.bytes [1, 2] (by decide), .fails] fun _ h => by cases h
  nonce := zeroNonces
  outcomes := []

/-- A reader of three bytes in two pieces, and the end of the process in the first write. -/
def crashedPut : PutCall where
  source := .reader 2 7 [.bytes [1, 2] (by decide), .bytes [3] (by decide)] fun data h => by
    cases h
    decide
  nonce := zeroNonces
  outcomes := [.done, .done, .done, .crashes 1]

def readerPut : PutCall := { crashedPut with outcomes := [] }

def plainCas : Cas := ⟨none⟩

/-- The put as the call left it by a failed one and by one whose process ended. -/
def retriedPut (cas : Cas) : Except (Stop CasError) String × Files MatterPath UInt8 :=
  put cas (afterPuts cas (fun _ => none) [failingPut, crashedPut]) readerPut

/-- In a sealed store and in a plain one. -/
theorem cas_store_law_readerPut :
    ((retriedPut sealedCas).1 = .ok (sha256Hex [1, 2, 3]) ∧ ∀ later,
        Reads sealedCas (afterPuts sealedCas (retriedPut sealedCas).2 later) (sha256Hex [1, 2, 3]) [1, 2, 3]) ∧
      (retriedPut plainCas).1 = .ok (sha256Hex [1, 2, 3]) ∧ ∀ later,
        Reads plainCas (afterPuts plainCas (retriedPut plainCas).2 later) (sha256Hex [1, 2, 3]) [1, 2, 3] := by
  have hreads : ∀ cas, (retriedPut cas).1 = .ok (sha256Hex [1, 2, 3]) → ∀ later,
      Reads cas (afterPuts cas (retriedPut cas).2 later) (sha256Hex [1, 2, 3]) [1, 2, 3] := by
    intro cas hok
    obtain ⟨data, hdata, -, hreads⟩ :=
      (cas_store_law cas (fun _ => none) (fun _ => rfl) [failingPut, crashedPut] readerPut).1 _ hok
    obtain rfl : [1, 2, 3] = data := Option.some.inj hdata
    exact hreads
  have hsealed : (retriedPut sealedCas).1 = .ok (sha256Hex [1, 2, 3]) := by decide +kernel
  have hplain : (retriedPut plainCas).1 = .ok (sha256Hex [1, 2, 3]) := by decide +kernel
  exact ⟨⟨hsealed, hreads _ hsealed⟩, hplain, hreads _ hplain⟩

end Sealed

end MatterCore
