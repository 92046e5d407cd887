import Bore.Ipv4Blocks

namespace Bore.Ipv4Pool

open AlignedBlocks

def VpnPool.live (pool : VpnPool) : List Ipv4Net :=
  pool.allocated.map (fun net => ⟨net, 30⟩) ++ pool.hubBlocks.entries.map (fun hub => ⟨hub.1, hub.2⟩)

def VpnPool.isAllocated (pool : VpnPool) (addr : UInt32) : Bool :=
  pool.allocated.contains (addr &&& 0xFFFFFFFC) || pool.inAnyHubBlock addr 1

inductive PoolOp
  | alloc
  | allocHubSubnet (prefixLen : UInt8)
  | free (netAddr : UInt32)
  | freeHubSubnet (netAddr : UInt32)
  deriving DecidableEq

def VpnPool.perform (pool : VpnPool) : PoolOp → VpnPool
  | .alloc => (pool.alloc.map Prod.fst).getD pool
  | .allocHubSubnet p => ((pool.allocHubSubnet p).map Prod.fst).getD pool
  | .free netAddr => pool.free netAddr
  | .freeHubSubnet netAddr => pool.freeHubSubnet netAddr

structure Placed (parent net : Ipv4Net) : Prop where
  wide : parent.prefixLen ≤ net.prefixLen
  short : net.prefixLen ≤ 30
  aligned : net.Aligned
  inside : net.addr ∈ parent.addresses

def VpnPool.Free (pool : VpnPool) (net : Ipv4Net) : Prop :=
  ∀ other ∈ pool.live, Disjoint net.addresses other.addresses

section Range

variable {parent net : Ipv4Net}

theorem Placed.le_32 (h : Placed parent net) : net.prefixLen ≤ 32 := UInt8.le_trans h.short (by decide)

theorem Placed.parent_le_32 (h : Placed parent net) : parent.prefixLen ≤ 32 := UInt8.le_trans h.wide h.le_32

theorem Placed.subset (h : Placed parent net) : net.addresses ⊆ parent.addresses :=
  addresses_subset h.wide h.inside

theorem network_dvd (hp : parent.prefixLen ≤ 32) : 2 ^ (32 - parent.prefixLen.toNat) ∣ parent.network.toNat := by
  rw [Ipv4Net.network, toNat_masked _ hp]
  exact Nat.dvd_mul_left _ _

theorem sameBlock_network (hp : parent.prefixLen ≤ 32) :
    SameBlock (32 - parent.prefixLen.toNat) parent.network.toNat parent.addr.toNat := by
  rw [SameBlock, Ipv4Net.network, toNat_masked _ hp, Nat.mul_div_cancel _ (Nat.two_pow_pos _)]

theorem mem_range_iff (hp : parent.prefixLen ≤ 32) {addr : UInt32} : addr ∈ parent.addresses ↔
      parent.network.toNat ≤ addr.toNat ∧ addr.toNat < parent.network.toNat + parent.size := by
  rw [mem_addresses, Ipv4Net.size, ← Set.mem_Ico, ← sameBlock_iff (network_dvd hp)]
  have hnet := sameBlock_network hp
  exact ⟨hnet.trans, hnet.symm.trans⟩

theorem Placed.end_le (h : Placed parent net) : net.addr.toNat + net.size ≤ parent.network.toNat + parent.size := by
  refine AlignedBlocks.end_le (Nat.sub_le_sub_left h.wide 32) ((aligned_iff h.le_32).mp h.aligned)
    (network_dvd h.parent_le_32) ?_
  exact (sameBlock_network h.parent_le_32).trans (mem_addresses.mp h.inside)

theorem wide_of_subset (hp : parent.prefixLen ≤ 32) (ha : net.Aligned) (hsub : net.addresses ⊆ parent.addresses) :
    parent.prefixLen ≤ net.prefixLen := by
  by_contra hlt
  have hlt : net.prefixLen.toNat < parent.prefixLen.toNat := UInt8.not_le.mp hlt
  have hp' : parent.prefixLen.toNat ≤ 32 := hp
  have hnet : net.prefixLen ≤ 32 := show net.prefixLen.toNat ≤ 32 by omega
  have hfirst := (mem_range_iff hp).mp (hsub (mem_addresses_self net))
  have hsize : 2 * parent.size ≤ net.size := by
    rw [Ipv4Net.size, Ipv4Net.size, ← Nat.pow_succ']
    exact Nat.pow_le_pow_right (by decide) (by omega)
  have hend : net.addr.toNat + net.size ≤ 2 ^ 32 :=
    end_le_two_pow (Nat.sub_le _ _) ((aligned_iff hnet).mp ha) net.addr.toNat_lt
  -- the address one range further on is still in the block
  have hnext : (UInt32.ofNat (net.addr.toNat + parent.size)).toNat = net.addr.toNat + parent.size :=
    UInt32.toNat_ofNat_of_lt' (by rw [UInt32.size]; omega)
  have hmem := (mem_range_iff hp).mp (hsub ((mem_addresses_iff hnet ha).mpr (by rw [hnext]; omega)))
  omega

theorem placed_iff (hp : parent.prefixLen ≤ 32) (h30 : net.prefixLen ≤ 30) :
    Placed parent net ↔ net.Aligned ∧ net.addresses ⊆ parent.addresses := by
  constructor
  · intro h
    exact ⟨h.aligned, h.subset⟩
  · rintro ⟨ha, hsub⟩
    exact ⟨wide_of_subset hp ha hsub, h30, ha, hsub (mem_addresses_self net)⟩

theorem size_split {p : UInt8} (hle : parent.prefixLen ≤ p) (h30 : p ≤ 30) :
    parent.size = 2 ^ (p.toNat - parent.prefixLen.toNat) * 2 ^ (32 - p.toNat) := by
  have hle' : parent.prefixLen.toNat ≤ p.toNat := hle
  have h30' : p.toNat ≤ 30 := h30
  rw [Ipv4Net.size, ← Nat.pow_add]
  congr 1
  omega

theorem placed_iff_offset {net : UInt32} {p : UInt8} (hle : parent.prefixLen ≤ p) (h30 : p ≤ 30) :
    Placed parent ⟨net, p⟩ ↔ ∃ i, i < 2 ^ (p.toNat - parent.prefixLen.toNat) ∧
      net.toNat = parent.network.toNat + i * 2 ^ (32 - p.toNat) := by
  have hle' : parent.prefixLen.toNat ≤ p.toNat := hle
  have hp : p ≤ 32 := UInt8.le_trans h30 (by decide)
  have hpp : parent.prefixLen ≤ 32 := UInt8.le_trans hle hp
  have hsplit := size_split hle h30
  have hpos : 0 < 2 ^ (32 - p.toNat) := Nat.two_pow_pos _
  have hdvd : 2 ^ (32 - p.toNat) ∣ parent.network.toNat :=
    Nat.dvd_trans (Nat.pow_dvd_pow 2 (by omega)) (network_dvd hpp)
  constructor
  · intro h
    have hmem := (mem_range_iff hpp).mp h.inside
    obtain ⟨i, hi⟩ := (Nat.dvd_sub ((aligned_iff hp).mp h.aligned) hdvd)
    have hoffset : net.toNat = parent.network.toNat + i * 2 ^ (32 - p.toNat) := by
      rw [Nat.mul_comm]
      dsimp only at hi hmem
      omega
    refine ⟨i, ?_, hoffset⟩
    have hlt := hmem.2
    rw [hoffset, Nat.add_lt_add_iff_left, hsplit] at hlt
    exact Nat.lt_of_mul_lt_mul_right hlt
  · rintro ⟨i, hi, hoffset⟩
    have hlt : i * 2 ^ (32 - p.toNat) < parent.size := by
      rw [hsplit]
      exact Nat.mul_lt_mul_of_pos_right hi hpos
    refine ⟨hle, h30, (aligned_iff hp).mpr ?_, (mem_range_iff hpp).mpr ?_⟩
    · rw [hoffset]
      exact Nat.dvd_add hdvd (Nat.dvd_mul_left _ _)
    · dsimp only
      omega

end Range

section Candidates

variable {pool : VpnPool} {net : UInt32} {p : UInt8}

theorem parent_le_32 (pool : VpnPool) : pool.parent.prefixLen ≤ 32 := UInt8.le_trans pool.parent_le (by decide)

theorem bounded_iff : pool.Bounded ↔ pool.parent.network.toNat + pool.parent.size < 2 ^ 32 := Iff.rfl

theorem toNat_blockCount (pool : VpnPool) :
    (1 <<< ((32 - pool.parent.prefixLen) - 2).toUInt32 : UInt32).toNat = 2 ^ (30 - pool.parent.prefixLen.toNat) := by
  have hle : pool.parent.prefixLen.toNat ≤ 30 := pool.parent_le
  have hsub : (2 : UInt8) ≤ 32 - pool.parent.prefixLen := by
    rw [UInt8.le_iff_toNat_le, UInt8.toNat_sub_of_le _ _ (parent_le_32 pool)]
    show 2 ≤ 32 - pool.parent.prefixLen.toNat
    omega
  have hbits : ((32 - pool.parent.prefixLen) - 2).toUInt32.toNat = 30 - pool.parent.prefixLen.toNat := by
    rw [UInt8.toNat_toUInt32, UInt8.toNat_sub_of_le _ _ hsub, UInt8.toNat_sub_of_le _ _ (parent_le_32 pool)]
    show 32 - pool.parent.prefixLen.toNat - 2 = 30 - pool.parent.prefixLen.toNat
    omega
  rw [UInt32.toNat_shiftLeft, hbits, Nat.mod_eq_of_lt (show 30 - pool.parent.prefixLen.toNat < 32 by omega),
    Nat.shiftLeft_eq, UInt32.toNat_one, Nat.one_mul]
  exact Nat.mod_eq_of_lt (Nat.pow_lt_pow_right (by decide) (by omega))

section

variable (hb : pool.Bounded) (hle : pool.parent.prefixLen ≤ p) (h30 : p ≤ 30)
include hb hle h30

theorem subnet_end_lt {i : Nat} (hi : i < 2 ^ (p.toNat - pool.parent.prefixLen.toNat)) :
    pool.parent.network.toNat + (i * 2 ^ (32 - p.toNat) + 2 ^ (32 - p.toNat)) < 2 ^ 32 := by
  rw [bounded_iff, size_split hle h30] at hb
  have hlt := Nat.mul_le_mul_right (2 ^ (32 - p.toNat)) hi
  rw [Nat.succ_mul] at hlt
  omega

theorem toNat_subnet {i : Nat} (hi : i < 2 ^ (p.toNat - pool.parent.prefixLen.toNat)) :
    (pool.parent.network + UInt32.ofNat (i * 2 ^ (32 - p.toNat))).toNat =
      pool.parent.network.toNat + i * 2 ^ (32 - p.toNat) := by
  have hlt := subnet_end_lt hb hle h30 hi
  have hpow : 0 < 2 ^ (32 - p.toNat) := Nat.two_pow_pos _
  rw [UInt32.toNat_add, UInt32.toNat_ofNat_of_lt' (by rw [UInt32.size]; omega), Nat.mod_eq_of_lt (by omega)]

theorem subnetCount : ((spanOf pool.parent.prefixLen).toNat + ((spanOf p).toNat - 1)) / (spanOf p).toNat =
      2 ^ (p.toNat - pool.parent.prefixLen.toNat) := by
  have hspan := toNat_spanOf (UInt8.lt_of_lt_of_le (prefixLen_pos hb) hle) (UInt8.le_trans h30 (by decide))
  have hparent : (spanOf pool.parent.prefixLen).toNat = pool.parent.size :=
    toNat_spanOf (prefixLen_pos hb) (parent_le_32 pool)
  have hpow : 0 < 2 ^ (32 - p.toNat) := Nat.two_pow_pos _
  rw [hspan, hparent, size_split hle h30, Nat.add_comm, Nat.add_mul_div_right _ _ hpow,
    Nat.div_eq_of_lt (Nat.sub_lt hpow (by decide)), Nat.zero_add]

theorem mem_subnets_iff : net ∈ pool.subnets p ↔ Placed pool.parent ⟨net, p⟩ := by
  have hspan := toNat_spanOf (UInt8.lt_of_lt_of_le (prefixLen_pos hb) hle) (UInt8.le_trans h30 (by decide))
  rw [placed_iff_offset hle h30, VpnPool.subnets, List.mem_map]
  simp only [List.mem_range, subnetCount hb hle h30]
  rw [hspan]
  constructor
  · rintro ⟨i, hi, rfl⟩
    exact ⟨i, hi, toNat_subnet hb hle h30 hi⟩
  · rintro ⟨i, hi, heq⟩
    refine ⟨i, hi, ?_⟩
    rw [← UInt32.toNat_inj, toNat_subnet hb hle h30 hi, heq]

end

theorem toNat_block (hb : pool.Bounded) {i : Nat} (hi : i < 2 ^ (30 - pool.parent.prefixLen.toNat)) :
    (pool.parent.network + UInt32.ofNat i * 4).toNat = pool.parent.network.toNat + i * 4 := by
  have hfour : UInt32.ofNat i * 4 = UInt32.ofNat (i * 4) := (UInt32.ofNat_mul i 4).symm
  rw [hfour]
  exact toNat_subnet hb pool.parent_le (UInt8.le_refl 30) hi

theorem mem_blocks_iff (hb : pool.Bounded) : net ∈ pool.blocks ↔ Placed pool.parent ⟨net, 30⟩ := by
  rw [placed_iff_offset pool.parent_le (by decide), VpnPool.blocks, List.mem_map]
  simp only [List.mem_range, toNat_blockCount pool]
  constructor
  · rintro ⟨i, hi, rfl⟩
    exact ⟨i, hi, toNat_block hb hi⟩
  · rintro ⟨i, hi, heq⟩
    refine ⟨i, hi, ?_⟩
    rw [← UInt32.toNat_inj, toNat_block hb hi, heq]
    rfl

end Candidates

section Subnets

variable {pool pool' : VpnPool} {p : UInt8} {subnet : Ipv4Net}

theorem Placed.end_lt (hb : pool.Bounded) (h : Placed pool.parent subnet) : subnet.addr.toNat + subnet.size < 2 ^ 32 :=
  Nat.lt_of_le_of_lt h.end_le hb

theorem Placed.toNat_spanOf (hb : pool.Bounded) (h : Placed pool.parent subnet) :
    (spanOf subnet.prefixLen).toNat = subnet.size :=
  Ipv4Pool.toNat_spanOf (UInt8.lt_of_lt_of_le (prefixLen_pos hb) h.wide) h.le_32

theorem allocHubSubnet_some (hb : pool.Bounded) (hf : pool.Fits) (h : pool.allocHubSubnet p = some (pool', subnet)) :
    pool.hubBlocks.get? subnet.addr = none ∧ subnet.network = subnet.addr ∧ pool'.Fits ∧
      pool' = { pool with hubBlocks := pool.hubBlocks.insert subnet.addr p } := by
  rw [VpnPool.allocHubSubnet] at h
  split at h
  · rename_i hp
    rw [Bool.and_eq_true, decide_eq_true_eq, decide_eq_true_eq] at hp
    obtain ⟨net, hfind, heq⟩ := Option.map_eq_some_iff.mp h
    cases heq
    have hplaced := (mem_subnets_iff hb hp.1 hp.2).mp (List.mem_of_find?_eq_some hfind)
    have hfree := List.find?_some hfind
    rw [Bool.and_eq_true, Bool.not_eq_true'] at hfree
    have hsize := size_pos ⟨net, p⟩
    have hend := hplaced.end_lt hb
    rw [← hplaced.toNat_spanOf hb] at hsize hend
    dsimp only at hsize hend
    refine ⟨?_, hplaced.aligned, ?_, rfl⟩
    · -- a subnet that starts at the same address would overlap
      cases hget : pool.hubBlocks.get? net with
      | none => rfl
      | some q =>
        obtain ⟨hq, hqend⟩ := hf net q hget
        have hover := List.any_eq_false.mp hfree.1 (net, q) ((Table.get?_eq_some_iff _ _ _).mp hget)
        simp only [Bool.not_eq_true', Bool.not_eq_false, Bool.or_eq_true, decide_eq_true_eq, UInt32.le_iff_toNat_le,
          UInt32.toNat_add] at hover
        omega
    · intro net' q hget
      rw [Table.get?_insert] at hget
      split at hget
      · cases hget
        rename_i he
        exact ⟨hsize, he ▸ hend⟩
      · exact hf net' q hget
  · cases h

end Subnets

end Bore.Ipv4Pool
