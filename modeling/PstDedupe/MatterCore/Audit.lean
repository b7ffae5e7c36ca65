import PstDedupe.Rust.Sha2

/-!
# The audit log (`matter-core/src/audit.rs`)

Rows are appended only; every row carries the hash of a text made of its fields and of the hash of
the row before it.
-/

namespace MatterCore

open Rust List Function

def hexDigit (n : Nat) : Char := "0123456789abcdef".toList.getD n '0'

def hexEncode (bytes : List UInt8) : String :=
  String.ofList (bytes.flatMap fun b : UInt8 => [hexDigit (b >>> 4).toNat, hexDigit (b &&& 0xf).toNat])

def sha256Hex [Sha256] (data : List UInt8) : String := hexEncode (Sha256.digest data).1

theorem length_hexEncode (bs : List UInt8) : (hexEncode bs).toList.length = 2 * bs.length := by
  rw [hexEncode, String.toList_ofList]
  induction bs with
  | nil => rfl
  | cons b bs ih =>
    rw [flatMap_cons, length_append, ih, length_cons]
    simp
    omega

def hexDigits (b : UInt8) : Char × Char := (hexDigit (b >>> 4).toNat, hexDigit (b &&& 0xf).toNat)

theorem hexDigit_inj {m n : Nat} (hm : m < 16) (hn : n < 16) (h : hexDigit m = hexDigit n) : m = n := by
  have hall : ∀ a b : Fin 16, hexDigit a = hexDigit b → a = b := by decide
  exact congrArg Fin.val (hall ⟨m, hm⟩ ⟨n, hn⟩ h)

theorem hexDigits_injective : Injective hexDigits := by
  have hhigh : ∀ b : UInt8, (b >>> 4).toNat = b.toNat / 16 := by
    intro b
    rw [UInt8.toNat_shiftRight, Nat.shiftRight_eq_div_pow]
    rfl
  have hlow : ∀ b : UInt8, (b &&& 0xf).toNat = b.toNat % 16 := by
    intro b
    rw [UInt8.toNat_and]
    exact Nat.and_two_pow_sub_one_eq_mod b.toNat 4
  intro a b h
  have ha := a.toNat_lt
  have hb := b.toNat_lt
  obtain ⟨h₁, h₂⟩ := Prod.mk.inj h
  rw [hhigh, hhigh] at h₁
  rw [hlow, hlow] at h₂
  have hdiv := hexDigit_inj (by omega) (by omega) h₁
  have hmod := hexDigit_inj (by omega) (by omega) h₂
  exact UInt8.toNat_inj.mp (by omega)

theorem hexEncode_injective : Injective hexEncode := by
  intro as bs h
  have htext := String.ofList_injective h
  have hlen : as.length = bs.length := by
    have := congrArg String.length h
    rw [← String.length_toList, ← String.length_toList, length_hexEncode, length_hexEncode] at this
    omega
  clear h
  induction as generalizing bs with
  | nil => exact (List.length_eq_zero_iff.mp hlen.symm).symm
  | cons a as ih =>
    cases bs with
    | nil => cases hlen
    | cons b bs =>
      simp only [flatMap_cons, cons_append, nil_append, List.cons.injEq] at htext
      have hab : a = b := hexDigits_injective (Prod.ext htext.1 htext.2.1)
      rw [hab, ih htext.2.2 (Nat.succ.inj hlen)]

theorem digest_eq_of_sha256Hex [Sha256] {p q : List UInt8} (h : sha256Hex p = sha256Hex q) :
    Sha256.digest p = Sha256.digest q :=
  Subtype.ext (hexEncode_injective h)

/-- Fixed genesis sentinel used as `prev_hash` for the first audit event. -/
def genesisPrevHash : String := "0000000000000000000000000000000000000000000000000000000000000000"

structure AuditHashFields where
  seq : Int
  ts : String
  actor : String
  action : String
  entity : String
  paramsJson : String
  toolVersion : String
  prevHash : String
  deriving DecidableEq, Repr

structure AuditEvent extends AuditHashFields where
  entryHash : String
  deriving DecidableEq, Repr

/-- Input fields for appending an audit event (hashes and seq assigned by store). -/
structure AuditEventInput where
  actor : String
  action : String
  entity : String
  paramsJson : String
  toolVersion : String
  deriving DecidableEq, Repr

def canonicalAuditPreimage (fields : AuditHashFields) : String :=
  "seq=" ++ toString fields.seq ++ "\nts=" ++ fields.ts ++ "\nactor=" ++ fields.actor ++ "\naction="
    ++ fields.action ++ "\nentity=" ++ fields.entity ++ "\nparams=" ++ fields.paramsJson
    ++ "\ntool_version=" ++ fields.toolVersion ++ "\nprev_hash=" ++ fields.prevHash ++ "\n"

def computeEntryHash [Sha256] (fields : AuditHashFields) : String :=
  sha256Hex (bytes (canonicalAuditPreimage fields))

inductive Error where
  | auditChainBroken (seq : Int) (reason : String)
  deriving DecidableEq, Repr

abbrev Result := Except Error

section

variable [Sha256]

def latestLink (rows : List AuditEvent) : Int × String :=
  match rows.getLast? with
  | some row => (row.seq + 1, row.entryHash)
  | none => (1, genesisPrevHash)

def appendEvent (rows : List AuditEvent) (input : AuditEventInput) (ts : String) : AuditEvent :=
  let (nextSeq, prevHash) := latestLink rows
  let fields : AuditHashFields :=
    ⟨nextSeq, ts, input.actor, input.action, input.entity, input.paramsJson, input.toolVersion, prevHash⟩
  { fields with entryHash := computeEntryHash fields }

def verifyFrom (expectedSeq : Int) (expectedPrev : String) : List AuditEvent → Result Unit
  | [] => .ok ()
  | row :: rest =>
    if row.seq ≠ expectedSeq then
      .error (.auditChainBroken row.seq s!"expected seq {expectedSeq}, found {row.seq}")
    else if row.prevHash ≠ expectedPrev then
      .error (.auditChainBroken row.seq
        s!"prev_hash mismatch: expected {expectedPrev}, found {row.prevHash}")
    else if computeEntryHash row.toAuditHashFields ≠ row.entryHash then
      .error (.auditChainBroken row.seq
        s!"entry_hash mismatch: expected {computeEntryHash row.toAuditHashFields}, stored {row.entryHash}")
    else verifyFrom (expectedSeq + 1) row.entryHash rest

def verifyAuditChain (rows : List AuditEvent) : Result Unit := verifyFrom 1 genesisPrevHash rows

end

end MatterCore
