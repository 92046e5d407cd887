import Mathlib

/-! Numbers as big-endian bytes, and authenticated encryption as an interface. -/

namespace Bore.WireBytes

open List

abbrev Bytes := List UInt8

def toBe : Nat → Nat → Bytes
  | 0, _ => []
  | w + 1, n => toBe w (n / 256) ++ [UInt8.ofNat n]

def ofBe (bytes : Bytes) : Nat := bytes.foldl (fun n b => n * 256 + b.toNat) 0

@[simp] theorem length_toBe (w n : Nat) : (toBe w n).length = w := by
  induction w generalizing n with
  | zero => rfl
  | succ w ih => simp [toBe, ih]

theorem ofBe_concat (bytes : Bytes) (b : UInt8) : ofBe (bytes ++ [b]) = ofBe bytes * 256 + b.toNat := by
  simp [ofBe]

theorem ofBe_lt {bytes : Bytes} {w : Nat} (h : bytes.length = w) : ofBe bytes < 256 ^ w := by
  subst h
  induction bytes using List.reverseRecOn with
  | nil => exact Nat.one_pos
  | append_singleton bytes b ih =>
    rw [ofBe_concat, length_append, length_singleton, pow_succ]
    have := b.toNat_lt
    omega

theorem ofBe_toBe {w n : Nat} (h : n < 256 ^ w) : ofBe (toBe w n) = n := by
  induction w generalizing n with
  | zero => exact (Nat.lt_one_iff.mp h).symm
  | succ w ih =>
    rw [toBe, ofBe_concat, ih (by rw [pow_succ] at h; omega), UInt8.toNat_ofNat']
    omega

theorem toBe_ofBe (bytes : Bytes) {w : Nat} (h : bytes.length = w) : toBe w (ofBe bytes) = bytes := by
  subst h
  induction bytes using List.reverseRecOn with
  | nil => rfl
  | append_singleton bytes b ih =>
    have hb := b.toNat_lt
    have hdiv : (ofBe bytes * 256 + b.toNat) / 256 = ofBe bytes := by omega
    rw [length_append, length_singleton, toBe, ofBe_concat, hdiv, ih]
    congr 2
    rw [← UInt8.toNat_inj, UInt8.toNat_ofNat']
    omega

theorem toNat_ofBe {bytes : Bytes} (h : bytes.length = 4) : (UInt32.ofNat (ofBe bytes)).toNat = ofBe bytes :=
  UInt32.toNat_ofNat_of_lt' (ofBe_lt h)

/-- The first bytes, padded with zeros: a stand-in for a hash in runs that are evaluated. -/
def padded (bytes : Bytes) : Bytes := (bytes ++ replicate 32 0).take 32

theorem length_padded (bytes : Bytes) : (padded bytes).length = 32 := by
  simp [padded]

/-- A cipher that opens exactly what it has sealed: for a key, a nonce and
associated data a body opens to a plaintext only if it is the sealed form of
that plaintext. -/
structure Aead (Key : Type) where
  sealInPlace : Key → (nonce aad plaintext : Bytes) → Bytes
  openInPlace : Key → (nonce aad body : Bytes) → Option Bytes
  length_seal : ∀ key nonce aad plaintext, (sealInPlace key nonce aad plaintext).length = plaintext.length + 16
  open_iff : ∀ key nonce aad body plaintext,
    openInPlace key nonce aad body = some plaintext ↔ sealInPlace key nonce aad plaintext = body

/-- Bytes in the clear under a tag of zeros, for runs that are evaluated. -/
def Aead.plain (Key : Type) : Aead Key where
  sealInPlace := fun _ _ _ plaintext => plaintext ++ replicate 16 0
  openInPlace := fun _ _ _ body =>
    if body.take (body.length - 16) ++ replicate 16 0 = body then some (body.take (body.length - 16)) else none
  length_seal := by simp
  open_iff := by
    intro _ _ _ body plaintext
    constructor
    · intro h
      split at h
      · cases h
        assumption
      · cases h
    · rintro rfl
      simp

end Bore.WireBytes
