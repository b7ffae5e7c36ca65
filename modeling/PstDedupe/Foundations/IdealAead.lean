import Mathlib

/-!
# Authenticated encryption, real and ideal

An AEAD opens what it has sealed.
-/

namespace Foundations

open List

/-- Encryption with nonces and associated data under a fixed key. -/
class Aead (N A M C : Type) where
  encrypt : N → A → M → C
  decrypt : N → A → C → Option M
  decrypt_encrypt : ∀ n a m, decrypt n a (encrypt n a m) = some m

/-- One call of `encrypt`. -/
structure Seal (N A M : Type) where
  nonce : N
  aad : A
  msg : M

variable {N A M C : Type} [Aead N A M C]

theorem Aead.encrypt_inj {n : N} {a : A} {m m' : M} (h : (encrypt n a m : C) = encrypt n a m') : m = m' := by
  have hopen : decrypt n a (encrypt n a m : C) = some m' := by rw [h, decrypt_encrypt]
  rw [decrypt_encrypt] at hopen
  exact Option.some.inj hopen

variable [DecidableEq N] [DecidableEq A] [DecidableEq C]

def openLogged (log : List (Seal N A M)) (n : N) (a : A) (c : C) : Option M :=
  (log.find? fun s => s.nonce = n ∧ s.aad = a ∧ Aead.encrypt n a s.msg = c).map Seal.msg

theorem openLogged_eq_some {log : List (Seal N A M)} {n : N} {a : A} {c : C} {m : M} :
    openLogged log n a c = some m ↔ ⟨n, a, m⟩ ∈ log ∧ Aead.encrypt n a m = c := by
  unfold openLogged
  constructor
  · intro h
    obtain ⟨s, hs, rfl⟩ := Option.map_eq_some_iff.mp h
    have hfound := find?_some hs
    simp only [decide_eq_true_eq] at hfound
    obtain ⟨rfl, rfl, hc⟩ := hfound
    exact ⟨mem_of_find?_eq_some hs, hc⟩
  · rintro ⟨hmem, rfl⟩
    cases hfind : log.find? fun s => s.nonce = n ∧ s.aad = a ∧
      Aead.encrypt n a s.msg = (Aead.encrypt n a m : C) with
    | none =>
      have hnone := List.find?_eq_none.mp hfind _ hmem
      simp at hnone
    | some s =>
      have hfound := find?_some hfind
      simp only [decide_eq_true_eq] at hfound
      exact congrArg some (Aead.encrypt_inj hfound.2.2)

end Foundations
