import Bore.AlignedBlocks
import Bore.Ipv4Pool

namespace Bore.Ipv4Pool

open AlignedBlocks

/-- The addresses that agree with the network in its prefix. A prefix beyond 32,
which the wire admits, leaves one. -/
def Ipv4Net.addresses (net : Ipv4Net) : Set UInt32 :=
  {addr | SameBlock (32 - net.prefixLen.toNat) net.addr.toNat addr.toNat}

def Ipv4Net.Aligned (net : Ipv4Net) : Prop := net.network = net.addr

instance (net : Ipv4Net) : Decidable net.Aligned := inferInstanceAs (Decidable (net.network = net.addr))

section Masks

variable {p : UInt8} {net other : Ipv4Net} {addr : UInt32}

theorem masked_eq_iff (x y : UInt32) (hp : p ≤ 32) :
    x &&& prefixToMask p = y &&& prefixToMask p ↔ SameBlock (32 - p.toNat) x.toNat y.toNat := by
  rw [← UInt32.toNat_inj, toNat_masked x hp, toNat_masked y hp, SameBlock, Nat.mul_right_cancel_iff (Nat.two_pow_pos _)]

theorem mem_addresses : addr ∈ net.addresses ↔ SameBlock (32 - net.prefixLen.toNat) net.addr.toNat addr.toNat := Iff.rfl

theorem contains_iff (hp : net.prefixLen ≤ 32) : net.contains addr = true ↔ addr ∈ net.addresses := by
  rw [Ipv4Net.contains, beq_iff_eq, masked_eq_iff _ _ hp, mem_addresses]

theorem mem_addresses_self (net : Ipv4Net) : net.addr ∈ net.addresses := mem_addresses.mpr rfl

theorem aligned_iff (hp : net.prefixLen ≤ 32) : net.Aligned ↔ 2 ^ (32 - net.prefixLen.toNat) ∣ net.addr.toNat := by
  rw [Ipv4Net.Aligned, Ipv4Net.network, ← UInt32.toNat_inj, toNat_masked _ hp, ← Nat.dvd_iff_div_mul_eq]

theorem overlaps_comm (net other : Ipv4Net) : net.overlaps other = other.overlaps net := by
  rw [Ipv4Net.overlaps, Ipv4Net.overlaps, Bool.beq_comm]
  by_cases hle : net.prefixLen ≤ other.prefixLen
  · by_cases hge : other.prefixLen ≤ net.prefixLen
    · simp [UInt8.le_antisymm hle hge]
    · simp [hle, hge]
  · simp [hle, UInt8.le_of_lt (UInt8.not_le.mp hle)]

theorem overlaps_eq_contains (hle : net.prefixLen ≤ other.prefixLen) : net.overlaps other = net.contains other.addr := by
  simp [Ipv4Net.overlaps, Ipv4Net.contains, hle]

theorem overlaps_iff_of_le (hle : net.prefixLen ≤ other.prefixLen) (hp : net.prefixLen ≤ 32) :
    net.overlaps other = true ↔ ¬Disjoint net.addresses other.addresses := by
  have hbits : 32 - other.prefixLen.toNat ≤ 32 - net.prefixLen.toNat := Nat.sub_le_sub_left hle 32
  rw [overlaps_eq_contains hle, contains_iff hp, Set.not_disjoint_iff]
  constructor
  · intro h
    exact ⟨other.addr, h, mem_addresses_self other⟩
  · rintro ⟨x, hx, hx'⟩
    exact (mem_addresses.mp hx).trans ((mem_addresses.mp hx').symm.mono hbits)

theorem overlaps_iff (hp : net.prefixLen ≤ 32 ∨ other.prefixLen ≤ 32) :
    net.overlaps other = true ↔ ¬Disjoint net.addresses other.addresses := by
  by_cases hle : net.prefixLen ≤ other.prefixLen
  · exact overlaps_iff_of_le hle (hp.elim id (UInt8.le_trans hle))
  · have hge := UInt8.le_of_lt (UInt8.not_le.mp hle)
    rw [overlaps_comm, overlaps_iff_of_le hge (hp.elim (UInt8.le_trans hge) id), disjoint_comm]

end Masks

section Intervals

variable {net other : Ipv4Net} {addr : UInt32}

def Ipv4Net.size (net : Ipv4Net) : Nat := 2 ^ (32 - net.prefixLen.toNat)

theorem size_pos (net : Ipv4Net) : 0 < net.size := Nat.two_pow_pos _

theorem mem_addresses_iff (hp : net.prefixLen ≤ 32) (ha : net.Aligned) :
    addr ∈ net.addresses ↔ net.addr.toNat ≤ addr.toNat ∧ addr.toNat < net.addr.toNat + net.size := by
  rw [mem_addresses, sameBlock_iff ((aligned_iff hp).mp ha), Set.mem_Ico, Ipv4Net.size]

theorem disjoint_iff (hp : net.prefixLen ≤ 32) (ha : net.Aligned) (hp' : other.prefixLen ≤ 32) (ha' : other.Aligned) :
    Disjoint net.addresses other.addresses ↔
      net.addr.toNat + net.size ≤ other.addr.toNat ∨ other.addr.toNat + other.size ≤ net.addr.toNat := by
  rw [Set.disjoint_left]
  constructor
  · intro h
    by_contra hmeet
    -- the later of the two first addresses is in both
    by_cases hle : net.addr.toNat ≤ other.addr.toNat
    · exact h ((mem_addresses_iff hp ha).mpr ⟨hle, by omega⟩) (mem_addresses_self other)
    · exact h (mem_addresses_self net) ((mem_addresses_iff hp' ha').mpr ⟨by omega, by omega⟩)
  · intro h x hx hx'
    have hm := (mem_addresses_iff hp ha).mp hx
    have hm' := (mem_addresses_iff hp' ha').mp hx'
    omega

theorem addresses_subset (hle : net.prefixLen ≤ other.prefixLen) (h : other.addr ∈ net.addresses) :
    other.addresses ⊆ net.addresses := by
  intro x hx
  exact (mem_addresses.mp h).trans ((mem_addresses.mp hx).mono (Nat.sub_le_sub_left hle 32))

end Intervals

end Bore.Ipv4Pool
