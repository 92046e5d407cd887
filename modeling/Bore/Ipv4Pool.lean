import Bore.Table

namespace Bore.Ipv4Pool

open List

/-- Addresses are 32-bit words and wrap as the release build's do. -/
structure Ipv4Net where
  addr : UInt32
  prefixLen : UInt8
  deriving DecidableEq

def prefixToMask (prefixLen : UInt8) : UInt32 :=
  if prefixLen = 0 then 0 else 0xFFFFFFFF <<< (32 - prefixLen).toUInt32

namespace Ipv4Net

def network (net : Ipv4Net) : UInt32 := net.addr &&& prefixToMask net.prefixLen

def contains (net : Ipv4Net) (addr : UInt32) : Bool :=
  net.addr &&& prefixToMask net.prefixLen == addr &&& prefixToMask net.prefixLen

def overlaps (net other : Ipv4Net) : Bool :=
  let mask := if net.prefixLen ≤ other.prefixLen then prefixToMask net.prefixLen else prefixToMask other.prefixLen
  net.addr &&& mask == other.addr &&& mask

end Ipv4Net

def spanOf (prefixLen : UInt8) : UInt32 := 1 <<< (32 - prefixLen).toUInt32

structure VpnPool where
  parent : Ipv4Net
  allocated : List UInt32
  hubBlocks : Table UInt32 UInt8
  parent_le : parent.prefixLen ≤ 30

namespace VpnPool

def new (parent : Ipv4Net) : Option VpnPool :=
  if h : parent.prefixLen ≤ 30 then some ⟨parent, [], ∅, h⟩ else none

variable (pool : VpnPool)

def inAnyHubBlock (netAddr span : UInt32) : Bool :=
  pool.hubBlocks.entries.any (fun hub => !(decide (netAddr + span ≤ hub.1) || decide (hub.1 + spanOf hub.2 ≤ netAddr)))

def blocks : List UInt32 :=
  (range (1 <<< ((32 - pool.parent.prefixLen) - 2).toUInt32 : UInt32).toNat).map
    (fun i => pool.parent.network + UInt32.ofNat i * 4)

/-- The next free /30 block, by its network address; the listener takes the address
after it and the connector the one after that. -/
def alloc : Option (VpnPool × UInt32) :=
  (pool.blocks.find? (fun net => !pool.allocated.contains net && !pool.inAnyHubBlock net 4)).map
    (fun net => ({ pool with allocated := net :: pool.allocated }, net))

def free (netAddr : UInt32) : VpnPool := { pool with allocated := pool.allocated.filter (· ≠ netAddr) }

def subnets (prefixLen : UInt8) : List UInt32 :=
  let size := (spanOf prefixLen).toNat
  (range (((spanOf pool.parent.prefixLen).toNat + (size - 1)) / size)).map
    (fun i => pool.parent.network + UInt32.ofNat (i * size))

def allocHubSubnet (prefixLen : UInt8) : Option (VpnPool × Ipv4Net) :=
  if pool.parent.prefixLen ≤ prefixLen && prefixLen ≤ 30 then
    let size := spanOf prefixLen
    ((pool.subnets prefixLen).find? (fun net =>
      !pool.inAnyHubBlock net size && !pool.allocated.any (fun s => s < net + size && net < s + 4))).map
      (fun net => ({ pool with hubBlocks := pool.hubBlocks.insert net prefixLen }, ⟨net, prefixLen⟩))
  else none

def freeHubSubnet (netAddr : UInt32) : VpnPool := { pool with hubBlocks := pool.hubBlocks.erase netAddr }

end VpnPool

section Bits

variable {p : UInt8}

theorem toNat_hostBits (hp : p ≤ 32) : (32 - p).toUInt32.toNat = 32 - p.toNat := by
  rw [UInt8.toNat_toUInt32, UInt8.toNat_sub_of_le _ _ hp]
  rfl

theorem toNat_spanOf (hp : 0 < p) (hp' : p ≤ 32) : (spanOf p).toNat = 2 ^ (32 - p.toNat) := by
  have h0 : 0 < p.toNat := hp
  have hmod : (32 - p.toNat) % 32 = 32 - p.toNat := Nat.mod_eq_of_lt (by omega)
  rw [spanOf, UInt32.toNat_shiftLeft, toNat_hostBits hp', hmod, Nat.shiftLeft_eq, UInt32.toNat_one, Nat.one_mul]
  exact Nat.mod_eq_of_lt (Nat.pow_lt_pow_right (by decide) (by omega))

theorem toNat_masked (x : UInt32) (hp : p ≤ 32) :
    (x &&& prefixToMask p).toNat = x.toNat / 2 ^ (32 - p.toNat) * 2 ^ (32 - p.toNat) := by
  by_cases hzero : p = 0
  · subst hzero
    have hx : x.toNat / 2 ^ (32 - (0 : UInt8).toNat) = 0 := Nat.div_eq_of_lt x.toNat_lt
    rw [prefixToMask, if_pos rfl, UInt32.and_zero, hx, Nat.zero_mul]
    rfl
  have h0 : 0 < p.toNat := UInt8.pos_iff_ne_zero.mpr hzero
  have hmod : (32 - p.toNat) % 32 = 32 - p.toNat := Nat.mod_eq_of_lt (by omega)
  have hones : (0xFFFFFFFF : UInt32).toNat = 2 ^ 32 - 1 := rfl
  rw [prefixToMask, if_neg hzero, UInt32.toNat_and, UInt32.toNat_shiftLeft, toNat_hostBits hp, hmod, hones]
  apply Nat.eq_of_testBit_eq
  intro i
  rw [Nat.testBit_and, Nat.testBit_mod_two_pow, Nat.testBit_shiftLeft, ← Nat.shiftRight_eq_div_pow, ← Nat.shiftLeft_eq,
    Nat.testBit_shiftLeft, Nat.testBit_shiftRight, Nat.testBit_two_pow_sub_one]
  by_cases hi : i < 32
  · by_cases hk : 32 - p.toNat ≤ i
    · have hadd : 32 - p.toNat + (i - (32 - p.toNat)) = i := by omega
      have hlt : i - (32 - p.toNat) < 32 := by omega
      simp [hi, hk, hadd, hlt]
    · simp [hk]
  have hx : x.toNat.testBit i = false :=
    Nat.testBit_lt_two_pow (Nat.lt_of_lt_of_le x.toNat_lt (Nat.pow_le_pow_right (by decide) (by omega)))
  by_cases hk : 32 - p.toNat ≤ i
  · have hadd : 32 - p.toNat + (i - (32 - p.toNat)) = i := by omega
    simp [hx, hadd]
  · simp [hx, hk]

end Bits

section Allocation

variable {pool pool' : VpnPool} {net : UInt32} {p : UInt8} {subnet : Ipv4Net}

def VpnPool.Bounded (pool : VpnPool) : Prop :=
  pool.parent.network.toNat + 2 ^ (32 - pool.parent.prefixLen.toNat) < 2 ^ 32

def VpnPool.Fits (pool : VpnPool) : Prop :=
  ∀ net p, pool.hubBlocks.get? net = some p → 0 < (spanOf p).toNat ∧ net.toNat + (spanOf p).toNat < 2 ^ 32

theorem alloc_some (h : pool.alloc = some (pool', net)) :
    net ∉ pool.allocated ∧ pool' = { pool with allocated := net :: pool.allocated } := by
  obtain ⟨found, hfind, heq⟩ := Option.map_eq_some_iff.mp h
  cases heq
  have hfree := find?_some hfind
  rw [Bool.and_eq_true, Bool.not_eq_true', contains_eq_mem, decide_eq_false_iff_not] at hfree
  exact ⟨hfree.1, rfl⟩

theorem prefixLen_pos (hb : pool.Bounded) : 0 < pool.parent.prefixLen := by
  rw [VpnPool.Bounded] at hb
  by_contra hzero
  have h0 : pool.parent.prefixLen.toNat = 0 := by
    have hle := UInt8.not_lt.mp hzero
    have hnat : pool.parent.prefixLen.toNat ≤ 0 := hle
    omega
  rw [h0] at hb
  omega

end Allocation

end Bore.Ipv4Pool
