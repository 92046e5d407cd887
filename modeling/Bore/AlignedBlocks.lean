import Mathlib

namespace Bore.AlignedBlocks

def SameBlock (k x y : Nat) : Prop := x / 2 ^ k = y / 2 ^ k

instance (k x y : Nat) : Decidable (SameBlock k x y) := inferInstanceAs (Decidable (_ = _))

variable {k m x y z a b : Nat}

theorem SameBlock.symm (h : SameBlock k x y) : SameBlock k y x := Eq.symm h

theorem SameBlock.trans (h : SameBlock k x y) (h' : SameBlock k y z) : SameBlock k x z := Eq.trans h h'

theorem SameBlock.mono (hle : k ≤ m) (h : SameBlock k x y) : SameBlock m x y := by
  rw [SameBlock] at h ⊢
  rw [← Nat.add_sub_cancel' hle, Nat.pow_add, ← Nat.div_div_eq_div_mul, ← Nat.div_div_eq_div_mul, h]

theorem sameBlock_iff (ha : 2 ^ k ∣ a) : SameBlock k a x ↔ x ∈ Set.Ico a (a + 2 ^ k) := by
  obtain ⟨i, rfl⟩ := ha
  have hpos : 0 < 2 ^ k := Nat.two_pow_pos k
  rw [SameBlock, Nat.mul_div_cancel_left _ hpos, eq_comm, Nat.div_eq_iff hpos, Set.mem_Ico, Nat.mul_comm i]
  omega

theorem end_le (hle : k ≤ m) (ha : 2 ^ k ∣ a) (hb : 2 ^ m ∣ b) (h : SameBlock m b a) : a + 2 ^ k ≤ b + 2 ^ m := by
  have hmem : SameBlock k a (a + 2 ^ k - 1) := by
    rw [sameBlock_iff ha, Set.mem_Ico]
    omega
  have hlast := (sameBlock_iff hb).mp (h.trans (hmem.mono hle))
  rw [Set.mem_Ico] at hlast
  omega

theorem end_le_two_pow (hle : k ≤ m) (ha : 2 ^ k ∣ a) (h : a < 2 ^ m) : a + 2 ^ k ≤ 2 ^ m := by
  have hfirst : SameBlock m 0 a := by rw [SameBlock, Nat.zero_div, Nat.div_eq_of_lt h]
  have hend := end_le hle ha (Nat.dvd_zero _) hfirst
  rwa [Nat.zero_add] at hend

end Bore.AlignedBlocks
