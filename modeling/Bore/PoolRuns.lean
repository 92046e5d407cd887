import Bore.PoolBlocks

namespace Bore.Ipv4Pool

open VpnPool

structure Tidy (pool : VpnPool) : Prop where
  bounded : pool.Bounded
  placed : ∀ net ∈ pool.live, Placed pool.parent net
  apart : pool.live.Pairwise (fun net other => Disjoint net.addresses other.addresses)

section Searches

variable {pool pool' : VpnPool} {net : UInt32} {p : UInt8} {subnet : Ipv4Net}

theorem mem_live_slash30 (h : net ∈ pool.allocated) : (⟨net, 30⟩ : Ipv4Net) ∈ pool.live :=
  List.mem_append_left _ (List.mem_map_of_mem h)

theorem mem_live_hub {hub : UInt32 × UInt8} (h : hub ∈ pool.hubBlocks.entries) : (⟨hub.1, hub.2⟩ : Ipv4Net) ∈ pool.live :=
  List.mem_append_right _ (List.mem_map.mpr ⟨hub, h, rfl⟩)

theorem inAnyHubBlock_eq_false_iff (h : Tidy pool) {addr span : UInt32} (hend : addr.toNat + span.toNat < 2 ^ 32) :
    pool.inAnyHubBlock addr span = false ↔ ∀ hub ∈ pool.hubBlocks.entries,
      addr.toNat + span.toNat ≤ hub.1.toNat ∨ hub.1.toNat + (⟨hub.1, hub.2⟩ : Ipv4Net).size ≤ addr.toNat := by
  rw [inAnyHubBlock, List.any_eq_false]
  refine forall₂_congr (fun hub hhub => ?_)
  have hplaced := h.placed _ (mem_live_hub hhub)
  have hspan := hplaced.toNat_spanOf h.bounded
  have hlt := hplaced.end_lt h.bounded
  simp only [Bool.not_eq_true', Bool.not_eq_false, Bool.or_eq_true, decide_eq_true_eq, UInt32.le_iff_toNat_le,
    UInt32.toNat_add, hspan, Nat.mod_eq_of_lt hend, Nat.mod_eq_of_lt hlt]

theorem free_iff : pool.Free subnet ↔
    (∀ s ∈ pool.allocated, Disjoint subnet.addresses (⟨s, 30⟩ : Ipv4Net).addresses) ∧
      ∀ hub ∈ pool.hubBlocks.entries, Disjoint subnet.addresses (⟨hub.1, hub.2⟩ : Ipv4Net).addresses := by
  simp only [VpnPool.Free, live, List.mem_append, or_imp, forall_and, List.forall_mem_map]

section

variable (h : Tidy pool)
include h

theorem hub_free_iff (hplaced : Placed pool.parent subnet) {span : UInt32}
    (hspan : span.toNat = subnet.size) : pool.inAnyHubBlock subnet.addr span = false ↔
      ∀ hub ∈ pool.hubBlocks.entries, Disjoint subnet.addresses (⟨hub.1, hub.2⟩ : Ipv4Net).addresses := by
  rw [inAnyHubBlock_eq_false_iff h (by rw [hspan]; exact hplaced.end_lt h.bounded), hspan]
  refine forall₂_congr (fun hub hhub => ?_)
  have hhub := h.placed _ (mem_live_hub hhub)
  rw [disjoint_iff hplaced.le_32 hplaced.aligned hhub.le_32 hhub.aligned]

theorem alloc_test_iff (hplaced : Placed pool.parent ⟨net, 30⟩) :
    (!pool.allocated.contains net && !pool.inAnyHubBlock net 4) = true ↔ pool.Free ⟨net, 30⟩ := by
  have hhubs : pool.inAnyHubBlock net 4 = false ↔ _ := hub_free_iff h hplaced rfl
  rw [Bool.and_eq_true, Bool.not_eq_true', Bool.not_eq_true', free_iff, hhubs, List.contains_eq_mem, decide_eq_false_iff_not]
  refine and_congr_left (fun _ => ?_)
  constructor
  · intro hnew s hs
    have hslash := h.placed _ (mem_live_slash30 hs)
    rw [disjoint_iff hplaced.le_32 hplaced.aligned hslash.le_32 hslash.aligned]
    obtain ⟨i, hi⟩ := (aligned_iff hplaced.le_32).mp hplaced.aligned
    obtain ⟨j, hj⟩ := (aligned_iff hslash.le_32).mp hslash.aligned
    have hne : net.toNat ≠ s.toNat := by
      intro heq
      exact hnew (UInt32.toNat_inj.mp heq ▸ hs)
    have hfour (n : UInt32) : (⟨n, 30⟩ : Ipv4Net).size = 4 := rfl
    have hfour' (n : UInt32) : 2 ^ (32 - (⟨n, 30⟩ : Ipv4Net).prefixLen.toNat) = 4 := rfl
    rw [hfour, hfour]
    rw [hfour'] at hi hj
    dsimp only at hi hj ⊢
    omega
  · intro hfree hs
    have hself := mem_addresses_self ⟨net, 30⟩
    exact Set.disjoint_left.mp (hfree net hs) hself hself

theorem hub_test_iff (hplaced : Placed pool.parent ⟨net, p⟩) :
    (!pool.inAnyHubBlock net (spanOf p) && !pool.allocated.any (fun s => s < net + spanOf p && net < s + 4)) = true ↔
      pool.Free ⟨net, p⟩ := by
  have hspan := hplaced.toNat_spanOf h.bounded
  have hlt := hplaced.end_lt h.bounded
  have hhubs := hub_free_iff h hplaced hspan
  rw [Bool.and_eq_true, Bool.not_eq_true', Bool.not_eq_true', free_iff, hhubs, List.any_eq_false, and_comm]
  refine and_congr_left (fun _ => forall₂_congr (fun s hs => ?_))
  have hslash := h.placed _ (mem_live_slash30 hs)
  have hend : s.toNat + 4 < 2 ^ 32 := hslash.end_lt h.bounded
  have hfour : (⟨s, 30⟩ : Ipv4Net).size = 4 := rfl
  rw [disjoint_iff hplaced.le_32 hplaced.aligned hslash.le_32 hslash.aligned, hfour]
  simp only [Bool.and_eq_true, decide_eq_true_eq, UInt32.lt_iff_toNat_lt, UInt32.toNat_add, hspan,
    show (4 : UInt32).toNat = 4 from rfl, Nat.mod_eq_of_lt hend, Nat.mod_eq_of_lt hlt]
  omega

theorem alloc_gives (ha : pool.alloc = some (pool', net)) :
    Placed pool.parent ⟨net, 30⟩ ∧ pool.Free ⟨net, 30⟩ ∧ pool' = { pool with allocated := net :: pool.allocated } := by
  obtain ⟨found, hfind, heq⟩ := Option.map_eq_some_iff.mp ha
  cases heq
  have hplaced := (mem_blocks_iff h.bounded).mp (List.mem_of_find?_eq_some hfind)
  have htest := List.find?_some hfind
  exact ⟨hplaced, (alloc_test_iff h hplaced).mp htest, rfl⟩

theorem alloc_fails (ha : pool.alloc = none) (hplaced : Placed pool.parent ⟨net, 30⟩) : ¬pool.Free ⟨net, 30⟩ := by
  rw [alloc, Option.map_eq_none_iff, List.find?_eq_none] at ha
  exact fun hfree => ha net ((mem_blocks_iff h.bounded).mpr hplaced) ((alloc_test_iff h hplaced).mpr hfree)

theorem allocHubSubnet_gives (ha : pool.allocHubSubnet p = some (pool', subnet)) :
    subnet.prefixLen = p ∧ Placed pool.parent subnet ∧ pool.Free subnet ∧
      pool' = { pool with hubBlocks := pool.hubBlocks.insert subnet.addr p } := by
  rw [allocHubSubnet] at ha
  split at ha
  · rename_i hp
    rw [Bool.and_eq_true, decide_eq_true_eq, decide_eq_true_eq] at hp
    obtain ⟨found, hfind, heq⟩ := Option.map_eq_some_iff.mp ha
    cases heq
    have hplaced := (mem_subnets_iff h.bounded hp.1 hp.2).mp (List.mem_of_find?_eq_some hfind)
    have htest := List.find?_some hfind
    exact ⟨rfl, hplaced, (hub_test_iff h hplaced).mp htest, rfl⟩
  · cases ha

theorem allocHubSubnet_fails (ha : pool.allocHubSubnet p = none)
    (hplaced : Placed pool.parent ⟨net, p⟩) : ¬pool.Free ⟨net, p⟩ := by
  have hwide : pool.parent.prefixLen ≤ p := hplaced.wide
  have hshort : p ≤ 30 := hplaced.short
  rw [allocHubSubnet, if_pos (by simp [hwide, hshort])] at ha
  rw [Option.map_eq_none_iff, List.find?_eq_none] at ha
  exact fun hfree => ha net ((mem_subnets_iff h.bounded hwide hshort).mpr hplaced) ((hub_test_iff h hplaced).mpr hfree)

theorem isAllocated_iff (addr : UInt32) : pool.isAllocated addr = true ↔ ∃ net ∈ pool.live, addr ∈ net.addresses := by
  have hslash (n : UInt32) (hn : n ∈ pool.allocated) : addr ∈ (⟨n, 30⟩ : Ipv4Net).addresses ↔ addr &&& 0xFFFFFFFC = n := by
    have haligned : n &&& prefixToMask 30 = n := (h.placed _ (mem_live_slash30 hn)).aligned
    have hmask : prefixToMask 30 = 0xFFFFFFFC := by decide
    rw [← contains_iff (show (30 : UInt8) ≤ 32 by decide), Ipv4Net.contains, haligned, hmask, beq_iff_eq, eq_comm]
  have hhub (hub : UInt32 × UInt8) (hm : hub ∈ pool.hubBlocks.entries) :
      addr ∈ (⟨hub.1, hub.2⟩ : Ipv4Net).addresses ↔
        hub.1.toNat ≤ addr.toNat ∧ addr.toNat < hub.1.toNat + (⟨hub.1, hub.2⟩ : Ipv4Net).size :=
    mem_addresses_iff (h.placed _ (mem_live_hub hm)).le_32 (h.placed _ (mem_live_hub hm)).aligned
  have hblocks : (addr &&& 0xFFFFFFFC) ∈ pool.allocated ↔
      ∃ n ∈ pool.allocated, addr ∈ (⟨n, 30⟩ : Ipv4Net).addresses := by
    constructor
    · intro hm
      exact ⟨_, hm, (hslash _ hm).mpr rfl⟩
    · rintro ⟨n, hn, hm⟩
      exact (hslash n hn).mp hm ▸ hn
  have hhubs : pool.inAnyHubBlock addr 1 = true ↔
      ∃ hub ∈ pool.hubBlocks.entries, addr ∈ (⟨hub.1, hub.2⟩ : Ipv4Net).addresses := by
    rw [← Bool.not_eq_false]
    by_cases hlast : addr.toNat + 1 < 2 ^ 32
    · have hnumbers : pool.inAnyHubBlock addr 1 = false ↔ _ := inAnyHubBlock_eq_false_iff h hlast
      rw [hnumbers]
      simp only [not_forall]
      constructor
      · rintro ⟨hub, hm, hmeet⟩
        have hone : (1 : UInt32).toNat = 1 := rfl
        exact ⟨hub, hm, (hhub hub hm).mpr (by omega)⟩
      · rintro ⟨hub, hm, hin⟩
        have hin := (hhub hub hm).mp hin
        have hone : (1 : UInt32).toNat = 1 := rfl
        exact ⟨hub, hm, by omega⟩
    -- the end of the last address wraps to zero, and no subnet reaches it
    have hlt := addr.toNat_lt
    have hwrap : addr + 1 = 0 := by
      rw [← UInt32.toNat_inj, UInt32.toNat_add]
      show (addr.toNat + 1) % 2 ^ 32 = 0
      omega
    have hfalse : pool.inAnyHubBlock addr 1 = false := by
      rw [inAnyHubBlock, List.any_eq_false]
      intro hub hm
      simp [hwrap]
    simp only [hfalse, not_true, false_iff, not_exists, not_and]
    intro hub hm hin
    have hend := (h.placed _ (mem_live_hub hm)).end_lt h.bounded
    have hin := (hhub hub hm).mp hin
    dsimp only at hend
    omega
  rw [isAllocated, Bool.or_eq_true, List.contains_eq_mem, decide_eq_true_eq, hblocks, hhubs, live]
  simp only [List.mem_append, List.mem_map]
  constructor
  · rintro (⟨n, hn, hm⟩ | ⟨hub, hn, hm⟩)
    · exact ⟨_, .inl ⟨n, hn, rfl⟩, hm⟩
    · exact ⟨_, .inr ⟨hub, hn, rfl⟩, hm⟩
  · rintro ⟨net, ⟨n, hn, rfl⟩ | ⟨hub, hn, rfl⟩, hm⟩
    · exact .inl ⟨n, hn, hm⟩
    · exact .inr ⟨hub, hn, hm⟩

end

end Searches

section Steps

variable {pool pool' : VpnPool} {subnet : Ipv4Net}

theorem Tidy.grows (h : Tidy pool) (hparent : pool'.parent = pool.parent) (hplaced : Placed pool.parent subnet)
    (hfree : pool.Free subnet) (hperm : pool'.live.Perm (subnet :: pool.live)) : Tidy pool' := by
  refine ⟨?_, ?_, ?_⟩
  · rw [bounded_iff, hparent]
    exact h.bounded
  · intro net hnet
    rw [hparent]
    rcases List.mem_cons.mp (hperm.mem_iff.mp hnet) with rfl | hold
    · exact hplaced
    · exact h.placed net hold
  · rw [hperm.pairwise_iff (fun hd => Disjoint.symm hd)]
    exact List.pairwise_cons.mpr ⟨hfree, h.apart⟩

theorem Tidy.shrinks (h : Tidy pool) (hparent : pool'.parent = pool.parent) (hsub : pool'.live.Sublist pool.live) :
    Tidy pool' := by
  refine ⟨?_, ?_, h.apart.sublist hsub⟩
  · rw [bounded_iff, hparent]
    exact h.bounded
  · intro net hnet
    rw [hparent]
    exact h.placed net (hsub.subset hnet)

theorem alloc_tidy (h : Tidy pool) {net : UInt32} (ha : pool.alloc = some (pool', net)) : Tidy pool' := by
  obtain ⟨hplaced, hfree, rfl⟩ := alloc_gives h ha
  exact h.grows rfl hplaced hfree (List.Perm.refl _)

theorem allocHubSubnet_tidy (h : Tidy pool) {p : UInt8} (ha : pool.allocHubSubnet p = some (pool', subnet)) :
    Tidy pool' := by
  obtain ⟨rfl, hplaced, hfree, rfl⟩ := allocHubSubnet_gives h ha
  have hnew : pool.hubBlocks.get? subnet.addr = none := by
    cases hget : pool.hubBlocks.get? subnet.addr with
    | none => rfl
    | some q =>
      have hlive := mem_live_hub ((Table.get?_eq_some_iff _ _ _).mp hget)
      exact absurd (mem_addresses_self ⟨subnet.addr, q⟩) (Set.disjoint_left.mp (hfree _ hlive) (mem_addresses_self subnet))
  refine h.grows rfl hplaced hfree ?_
  have hperm := (Table.perm_insert hnew subnet.prefixLen).map (fun hub => (⟨hub.1, hub.2⟩ : Ipv4Net))
  exact (hperm.append_left _).trans List.perm_middle

theorem perform_tidy (h : Tidy pool) (op : PoolOp) : Tidy (pool.perform op) := by
  cases op with
  | alloc =>
    cases ha : pool.alloc with
    | none => simpa [perform, ha] using h
    | some => simpa [perform, ha] using alloc_tidy h ha
  | allocHubSubnet p =>
    cases ha : pool.allocHubSubnet p with
    | none => simpa [perform, ha] using h
    | some => simpa [perform, ha] using allocHubSubnet_tidy h ha
  | free =>
    exact h.shrinks rfl ((List.filter_sublist.map _).append (List.Sublist.refl _))
  | freeHubSubnet =>
    exact h.shrinks rfl ((List.Sublist.refl _).append (List.filter_sublist.map _))

theorem perform_parent (pool : VpnPool) (op : PoolOp) : (pool.perform op).parent = pool.parent := by
  cases op with
  | alloc =>
    rw [perform, alloc]
    cases pool.blocks.find? _ <;> rfl
  | allocHubSubnet p =>
    rw [perform, allocHubSubnet]
    split
    · dsimp only
      cases (pool.subnets p).find? _ <;> rfl
    · rfl
  | free => rfl
  | freeHubSubnet => rfl

theorem performs_tidy (h : Tidy pool) (ops : List PoolOp) :
    Tidy (ops.foldl perform pool) ∧ (ops.foldl perform pool).parent = pool.parent := by
  induction ops generalizing pool with
  | nil => exact ⟨h, rfl⟩
  | cons op _ ih =>
    obtain ⟨htidy, hparent⟩ := ih (perform_tidy h op)
    exact ⟨htidy, hparent.trans (perform_parent pool op)⟩

theorem new_tidy {parent : Ipv4Net} (hlast : 0xFFFFFFFF ∉ parent.addresses) (hnew : new parent = some pool) :
    Tidy pool ∧ pool.parent = parent := by
  rw [new] at hnew
  split at hnew
  all_goals cases hnew
  rename_i hp
  have hp : parent.prefixLen ≤ 32 := UInt8.le_trans hp (by decide)
  refine ⟨⟨?_, (by rintro _ ⟨⟩), List.Pairwise.nil⟩, rfl⟩
  rw [bounded_iff]
  rw [mem_range_iff hp] at hlast
  have htop : (0xFFFFFFFF : UInt32).toNat = 2 ^ 32 - 1 := rfl
  have hnet := parent.network.toNat_lt
  dsimp only
  omega

end Steps

/-- The blocks given out never meet, they are aligned and lie in the parent, a
search fails only when every aligned block of its size is taken, and an address
counts as allocated exactly when it lies in a live block. -/
theorem pool_gives_free_blocks (parent : Ipv4Net) (hshort : parent.prefixLen ≤ 30)
    (hlast : 0xFFFFFFFF ∉ parent.addresses) (pool : VpnPool) (hnew : new parent = some pool)
    (ops : List PoolOp) :
    let used := ops.foldl perform pool
    used.live.Pairwise (fun net other => Disjoint net.addresses other.addresses) ∧
      (∀ net ∈ used.live, net.Aligned ∧ net.addresses ⊆ parent.addresses) ∧
      (used.alloc = none → ∀ net : Ipv4Net, net.prefixLen = 30 → net.Aligned → net.addresses ⊆ parent.addresses →
        ¬used.Free net) ∧
      (∀ p ≤ 30, used.allocHubSubnet p = none → ∀ net : Ipv4Net, net.prefixLen = p → net.Aligned →
        net.addresses ⊆ parent.addresses → ¬used.Free net) ∧
      ∀ addr, used.isAllocated addr = true ↔ ∃ net ∈ used.live, addr ∈ net.addresses := by
  intro used
  obtain ⟨hstart, hparent⟩ := new_tidy hlast hnew
  obtain ⟨htidy, hsame⟩ := performs_tidy hstart ops
  have hp : parent.prefixLen ≤ 32 := UInt8.le_trans hshort (by decide)
  refine ⟨htidy.apart, fun net hnet => ?_, ?_, ?_, isAllocated_iff htidy⟩
  · have hplaced := htidy.placed net hnet
    rw [hsame, hparent] at hplaced
    exact ⟨hplaced.aligned, hplaced.subset⟩
  · rintro hnone ⟨net, p⟩ rfl haligned hsub
    refine alloc_fails htidy hnone ?_
    rw [hsame, hparent]
    exact (placed_iff hp (show (30 : UInt8) ≤ 30 by decide)).mpr ⟨haligned, hsub⟩
  · rintro p h30 hnone ⟨net, q⟩ rfl haligned hsub
    refine allocHubSubnet_fails htidy hnone ?_
    rw [hsame, hparent]
    exact (placed_iff hp h30).mpr ⟨haligned, hsub⟩

theorem pool_gives_free_blocks_full_range : ∃ pool, new ⟨0x0A000000, 28⟩ = some pool ∧
    let used := [PoolOp.allocHubSubnet 29, .alloc, .alloc].foldl perform pool
    used.live = [⟨0x0A00000C, 30⟩, ⟨0x0A000008, 30⟩, ⟨0x0A000000, 29⟩] ∧
      ∀ net : Ipv4Net, net.prefixLen = 30 → net.Aligned →
        net.addresses ⊆ (⟨0x0A000000, 28⟩ : Ipv4Net).addresses → ¬used.Free net := by
  refine ⟨⟨⟨0x0A000000, 28⟩, [], ∅, by decide⟩, rfl, by decide +kernel, ?_⟩
  have hlast : (0xFFFFFFFF : UInt32) ∉ (⟨0x0A000000, 28⟩ : Ipv4Net).addresses :=
    fun h => absurd (mem_addresses.mp h) (by decide)
  exact (pool_gives_free_blocks ⟨0x0A000000, 28⟩ (by decide) hlast _ rfl
    [.allocHubSubnet 29, .alloc, .alloc]).2.2.1 (by decide +kernel)

theorem refused_hub_prefix : ∃ pool, new ⟨0x0A000000, 24⟩ = some pool ∧ pool.allocHubSubnet 31 = none ∧
    ∃ net : Ipv4Net, net.prefixLen = 31 ∧ net.Aligned ∧
      net.addresses ⊆ (⟨0x0A000000, 24⟩ : Ipv4Net).addresses ∧ pool.Free net := by
  refine ⟨⟨⟨0x0A000000, 24⟩, [], ∅, by decide⟩, rfl, rfl, ⟨0x0A000000, 31⟩, rfl, by decide, ?_, fun net hnet => ?_⟩
  · exact addresses_subset (by decide) (mem_addresses_self _)
  · cases hnet

end Bore.Ipv4Pool
