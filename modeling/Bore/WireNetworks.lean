import Bore.CheckedWords
import Bore.PoolRuns
import Bore.VpnServer

namespace Bore.WireNetworks

open Ipv4Pool VpnServer CheckedWords Option

def covers (flag adv : Ipv4Net) : Bool := decide (flag.prefixLen ≤ adv.prefixLen) && flag.contains adv.network

def filterAccepted (advertised : List Ipv4Net) (acceptAll refuseAll : Bool) (accept refuse : List Ipv4Net) :
    List Ipv4Net :=
  if refuseAll then []
  else
    let result := if acceptAll then advertised else advertised.filter (fun adv => accept.any (covers · adv))
    result.filter (fun adv => !refuse.any (covers · adv))

/-! The same functions in a build that checks its arithmetic. -/

def checkedPrefixToMask (prefixLen : UInt8) : Option UInt32 :=
  if prefixLen = 0 then some 0 else do shl32 0xFFFFFFFF (← sub8 32 prefixLen)

def checkedNetwork (net : Ipv4Net) : Option UInt32 := do
  let mask ← checkedPrefixToMask net.prefixLen
  return net.addr &&& mask

def checkedContains (net : Ipv4Net) (addr : UInt32) : Option Bool := do
  let mask ← checkedPrefixToMask net.prefixLen
  return net.addr &&& mask == addr &&& mask

def checkedOverlaps (net other : Ipv4Net) : Option Bool := do
  let mask ← if net.prefixLen ≤ other.prefixLen then checkedPrefixToMask net.prefixLen
    else checkedPrefixToMask other.prefixLen
  return net.addr &&& mask == other.addr &&& mask

def checkedCheckOverlap (listenerAdvertised connectorAdvertised : List Ipv4Net) (overlay : Ipv4Net) :
    Option (Option (Ipv4Net × Ipv4Net)) :=
  (pairs (overlay :: listenerAdvertised ++ connectorAdvertised)).findSomeM? (fun pair => do
    return if ← checkedOverlaps pair.1 pair.2 then some pair else none)

def checkedValidateStatic (listenerAddr : UInt32) (listenerPrefix : UInt8) (listenerPeer connectorAddr : UInt32)
    (connectorPrefix : UInt8) (connectorPeer : UInt32) : Option Bool :=
  if listenerAddr == connectorPeer && connectorAddr == listenerPeer && listenerPrefix == connectorPrefix
      && listenerAddr != connectorAddr then
    checkedContains ⟨listenerAddr, listenerPrefix⟩ connectorAddr
  else some false

def checkedCovers (flag adv : Ipv4Net) : Option Bool :=
  if flag.prefixLen ≤ adv.prefixLen then do checkedContains flag (← checkedNetwork adv) else some false

def checkedFilterAccepted (advertised : List Ipv4Net) (acceptAll refuseAll : Bool) (accept refuse : List Ipv4Net) :
    Option (List Ipv4Net) :=
  if refuseAll then some []
  else do
    let result ← if acceptAll then some advertised
      else retainM (fun adv => accept.anyM (checkedCovers · adv)) advertised
    retainM (fun adv => (refuse.anyM (checkedCovers · adv)).map (fun covered => !covered)) result

def checkedSpan (prefixLen : UInt8) : Option UInt32 := do shl32 1 (← sub8 32 prefixLen)

def checkedInAnyHubBlock (pool : VpnPool) (netAddr span : UInt32) : Option Bool :=
  pool.hubBlocks.entries.anyM (fun hub => do
    let hubSize ← checkedSpan hub.2
    let hubEnd ← add32 hub.1 hubSize
    let spanEnd ← add32 netAddr span
    return !(decide (spanEnd ≤ hub.1) || decide (hubEnd ≤ netAddr)))

def checkedBlock (pool : VpnPool) (base : UInt32) (i : Nat) : Option (Option UInt32) := do
  let netAddr ← add32 base (← mul32 (UInt32.ofNat i) 4)
  if pool.allocated.contains netAddr then return none
  else return if ← checkedInAnyHubBlock pool netAddr 4 then none else some netAddr

def checkedAlloc (pool : VpnPool) : Option (Option (VpnPool × UInt32 × UInt32)) := do
  let base ← checkedNetwork pool.parent
  let hostBits ← sub8 32 pool.parent.prefixLen
  let totalBlocks ← shl32 1 (if 2 ≤ hostBits then hostBits - 2 else 0)
  let found ← (List.range totalBlocks.toNat).findSomeM? (checkedBlock pool base)
  match found with
  | none => return none
  | some netAddr =>
    return some ({ pool with allocated := netAddr :: pool.allocated }, ← add32 netAddr 1, ← add32 netAddr 2)

def checkedCollides (pool : VpnPool) (blockNet blockEnd : UInt32) : Option Bool :=
  pool.allocated.anyM (fun s => if s < blockEnd then do return decide (blockNet < (← add32 s 4)) else some false)

def checkedSubnet (pool : VpnPool) (base blockSize : UInt32) (i : Nat) : Option (Option UInt32) := do
  let blockNet ← add32 base (UInt32.ofNat (i * blockSize.toNat))
  let blockEnd ← add32 blockNet blockSize
  if ← checkedInAnyHubBlock pool blockNet blockSize then return none
  else return if ← checkedCollides pool blockNet blockEnd then none else some blockNet

def checkedAllocHubSubnet (pool : VpnPool) (prefixLen : UInt8) : Option (Option (VpnPool × Ipv4Net)) :=
  if pool.parent.prefixLen ≤ prefixLen && prefixLen ≤ 30 then do
    let base ← checkedNetwork pool.parent
    let blockSize ← checkedSpan prefixLen
    let parentSize ← checkedSpan pool.parent.prefixLen
    let found ← (List.range ((parentSize.toNat + (blockSize.toNat - 1)) / blockSize.toNat)).findSomeM?
      (checkedSubnet pool base blockSize)
    match found with
    | none => return none
    | some net => return some ({ pool with hubBlocks := pool.hubBlocks.insert net prefixLen }, ⟨net, prefixLen⟩)
  else some none

def checkedIsAllocated (pool : VpnPool) (addr : UInt32) : Option Bool :=
  if pool.allocated.contains (addr &&& 0xFFFFFFFC) then some true else checkedInAnyHubBlock pool addr 1

section Networks

variable {p : UInt8} {net other flag adv : Ipv4Net}

theorem hostBits_lt (hpos : 0 < p) (hp : p ≤ 32) : 32 - p < 32 := by
  have hpos' : 0 < p.toNat := hpos
  rw [UInt8.lt_iff_toNat_lt, UInt8.toNat_sub_of_le _ _ hp]
  show 32 - p.toNat < 32
  omega

theorem checkedPrefixToMask_eq (p : UInt8) : checkedPrefixToMask p = if 32 < p then none else some (prefixToMask p) := by
  by_cases hzero : p = 0
  · simp [checkedPrefixToMask, prefixToMask, hzero]
  rw [checkedPrefixToMask, prefixToMask, if_neg hzero, if_neg hzero]
  by_cases hp : 32 < p
  · rw [if_pos hp, sub8, if_neg (UInt8.not_le.mpr hp)]
    rfl
  · have hle := UInt8.not_lt.mp hp
    rw [if_neg hp, sub8_eq hle]
    exact shl32_eq (hostBits_lt (UInt8.pos_iff_ne_zero.mpr hzero) hle)

theorem checkedNetwork_eq (net : Ipv4Net) : checkedNetwork net = if 32 < net.prefixLen then none else some net.network := by
  rw [checkedNetwork, checkedPrefixToMask_eq]
  split <;> rfl

theorem checkedNetwork_of_le (hp : net.prefixLen ≤ 32) : checkedNetwork net = some net.network := by
  rw [checkedNetwork_eq, if_neg (UInt8.not_lt.mpr hp)]

theorem checkedContains_eq (net : Ipv4Net) (addr : UInt32) :
    checkedContains net addr = if 32 < net.prefixLen then none else some (net.contains addr) := by
  rw [checkedContains, checkedPrefixToMask_eq]
  split <;> rfl

/-- Two prefixes that leave no mask to compare under. -/
def bothWide (pair : Ipv4Net × Ipv4Net) : Bool := 32 < pair.1.prefixLen && 32 < pair.2.prefixLen

theorem checkedOverlaps_eq (net other : Ipv4Net) :
    checkedOverlaps net other = if bothWide (net, other) then none else some (net.overlaps other) := by
  rw [checkedOverlaps, Ipv4Net.overlaps, bothWide]
  by_cases hle : net.prefixLen ≤ other.prefixLen
  · by_cases hp : 32 < net.prefixLen
    · simp [checkedPrefixToMask_eq, hle, hp, UInt8.lt_of_lt_of_le hp hle]
    · simp [checkedPrefixToMask_eq, hle, hp]
  · by_cases hp : 32 < other.prefixLen
    · simp [checkedPrefixToMask_eq, hle, hp, UInt8.lt_trans hp (UInt8.not_le.mp hle)]
    · simp [checkedPrefixToMask_eq, hle, hp]

theorem checkedCheckOverlap_eq (listenerAdvertised connectorAdvertised : List Ipv4Net) (overlay : Ipv4Net) :
    checkedCheckOverlap listenerAdvertised connectorAdvertised overlay =
      let compared := pairs (overlay :: listenerAdvertised ++ connectorAdvertised)
      if (compared.find? (fun pair => bothWide pair || pair.1.overlaps pair.2)).any bothWide then none
      else some (compared.find? (fun pair => pair.1.overlaps pair.2)) := by
  rw [checkedCheckOverlap, ← findSomeM?_ite]
  congr 1
  funext pair
  rw [checkedOverlaps_eq]
  split <;> rfl

/-- Whatever the check returns tells whether the networks are apart. -/
theorem checkedCheckOverlap_some {listenerAdvertised connectorAdvertised : List Ipv4Net} {overlay : Ipv4Net}
    {result : Option (Ipv4Net × Ipv4Net)}
    (h : checkedCheckOverlap listenerAdvertised connectorAdvertised overlay = some result) :
    result = none ↔ (overlay :: listenerAdvertised ++ connectorAdvertised).Pairwise
      (fun net other => Disjoint net.addresses other.addresses) := by
  rw [checkedCheckOverlap_eq] at h
  generalize overlay :: listenerAdvertised ++ connectorAdvertised = nets at h ⊢
  obtain ⟨hfirst, h⟩ := Option.ite_none_left_eq_some.mp h
  cases h
  have hnarrow {pair : Ipv4Net × Ipv4Net} (hp : bothWide pair = false) :
      pair.1.overlaps pair.2 = true ↔ ¬ Disjoint pair.1.addresses pair.2.addresses := by
    refine overlaps_iff ?_
    by_contra hwide
    simp only [not_or, UInt8.not_le] at hwide
    simp [bothWide, hwide] at hp
  rw [pairwise_iff_pairs, List.find?_eq_none]
  cases hhit : (pairs nets).find? (fun pair => bothWide pair || pair.1.overlaps pair.2) with
  | none =>
    refine forall₂_congr fun pair hpair => ?_
    have hmiss : bothWide pair = false ∧ pair.1.overlaps pair.2 = false := by
      simpa using List.find?_eq_none.mp hhit pair hpair
    rw [hnarrow hmiss.1, not_not]
  | some pair =>
    have hmem := List.mem_of_find?_eq_some hhit
    have hwide : bothWide pair = false := by simpa [hhit] using hfirst
    have hover : pair.1.overlaps pair.2 = true := by simpa [hwide] using List.find?_some hhit
    exact iff_of_false (fun hall => hall pair hmem hover) (fun hall => (hnarrow hwide).mp hover (hall pair hmem))

theorem checkedCovers_eq (flag adv : Ipv4Net) :
    checkedCovers flag adv = if flag.prefixLen ≤ adv.prefixLen ∧ 32 < adv.prefixLen then none else some (covers flag adv) := by
  rw [checkedCovers, covers, checkedNetwork_eq]
  by_cases hle : flag.prefixLen ≤ adv.prefixLen
  · by_cases hp : 32 < adv.prefixLen
    · simp [hle, hp]
    · have hflag : ¬ 32 < flag.prefixLen := fun h => hp (UInt8.lt_of_lt_of_le h hle)
      simp [hle, hp, checkedContains_eq, hflag]
  · simp [hle]

/-- A flag that the wide network is compared with overflows before one covers it. -/
def meetsFlag (flags : List Ipv4Net) (adv : Ipv4Net) : Prop :=
  32 < adv.prefixLen ∧ ∃ flag ∈ flags, flag.prefixLen ≤ adv.prefixLen

instance (flags : List Ipv4Net) (adv : Ipv4Net) : Decidable (meetsFlag flags adv) :=
  inferInstanceAs (Decidable (_ ∧ _))

theorem anyM_checkedCovers (flags : List Ipv4Net) (adv : Ipv4Net) :
    flags.anyM (checkedCovers · adv) = if meetsFlag flags adv then none else some (flags.any (covers · adv)) := by
  induction flags with
  | nil => simp [meetsFlag]
  | cons flag flags ih =>
    rw [List.anyM, checkedCovers_eq, ih, List.any_cons]
    by_cases hp : 32 < adv.prefixLen
    · by_cases hle : flag.prefixLen ≤ adv.prefixLen
      · simp [meetsFlag, hp, hle]
      · simp [meetsFlag, hp, hle, covers]
    · cases covers flag adv <;> simp [meetsFlag, hp]

theorem checkedFilterAccepted_eq (advertised accept refuse : List Ipv4Net) (acceptAll refuseAll : Bool) :
    checkedFilterAccepted advertised acceptAll refuseAll accept refuse =
      if refuseAll = false ∧ ∃ adv ∈ advertised, meetsFlag (if acceptAll then refuse else accept) adv then none
      else some (filterAccepted advertised acceptAll refuseAll accept refuse) := by
  have hrefused (kept : List Ipv4Net) :
      retainM (fun adv => (refuse.anyM (checkedCovers · adv)).map (fun covered => !covered)) kept =
        if ∃ adv ∈ kept, meetsFlag refuse adv then none
        else some (kept.filter (fun adv => !refuse.any (covers · adv))) := by
    rw [← retainM_ite]
    congr 1
    funext adv
    rw [anyM_checkedCovers]
    split <;> rfl
  rw [checkedFilterAccepted, filterAccepted]
  cases refuseAll with
  | true => simp
  | false =>
    cases acceptAll with
    | true => simpa using hrefused advertised
    | false =>
      have haccepted : retainM (fun adv => accept.anyM (checkedCovers · adv)) advertised =
          if ∃ adv ∈ advertised, meetsFlag accept adv then none
          else some (advertised.filter (fun adv => accept.any (covers · adv))) := by
        simp only [anyM_checkedCovers, retainM_ite]
      simp only [haccepted, Bool.false_eq_true, if_false]
      by_cases hmeets : ∃ adv ∈ advertised, meetsFlag accept adv
      · simp [hmeets]
      · -- what an accept flag covers is no wider than its mask
        have hkept : ¬ ∃ adv ∈ advertised.filter (fun adv => accept.any (covers · adv)), meetsFlag refuse adv := by
          rintro ⟨adv, hadv, hp, -⟩
          obtain ⟨hadv, hany⟩ := List.mem_filter.mp hadv
          obtain ⟨flag, hflag, hcovers⟩ := List.any_eq_true.mp hany
          rw [covers, Bool.and_eq_true, decide_eq_true_eq] at hcovers
          exact hmeets ⟨adv, hadv, hp, flag, hflag, hcovers.1⟩
        rw [if_neg hmeets, Option.bind_eq_bind, Option.bind_some, hrefused, if_neg hkept, if_neg (fun h => hmeets h.2)]

end Networks

section Pool

variable {pool : VpnPool} {p : UInt8}

theorem checkedSpan_eq (hpos : 0 < p) (hp : p ≤ 32) : checkedSpan p = some (spanOf p) := by
  rw [checkedSpan, sub8_eq hp]
  exact shl32_eq (hostBits_lt hpos hp)

section

variable (h : Tidy pool)
include h

theorem checkedInAnyHubBlock_eq {addr span : UInt32} (hend : addr.toNat + span.toNat < 2 ^ 32) :
    checkedInAnyHubBlock pool addr span = some (pool.inAnyHubBlock addr span) := by
  refine anyM_eq (fun hub hhub => ?_)
  have hplaced := h.placed _ (mem_live_hub hhub)
  have hspan := hplaced.toNat_spanOf h.bounded
  have hlt := hplaced.end_lt h.bounded
  have hsize := checkedSpan_eq (UInt8.lt_of_lt_of_le (prefixLen_pos h.bounded) hplaced.wide) hplaced.le_32
  rw [← hspan] at hlt
  simp only [hsize, add32_eq hlt, add32_eq hend, bind_eq_bind, bind_some]
  rfl

theorem checkedBlock_eq {i : Nat} (hi : i < 2 ^ (30 - pool.parent.prefixLen.toNat)) :
    checkedBlock pool pool.parent.network i = some (if !pool.allocated.contains (pool.parent.network + UInt32.ofNat i * 4) &&
          !pool.inAnyHubBlock (pool.parent.network + UInt32.ofNat i * 4) 4 then
        some (pool.parent.network + UInt32.ofNat i * 4) else none) := by
  have hlt : pool.parent.network.toNat + (i * 4 + 4) < 2 ^ 32 :=
    subnet_end_lt h.bounded pool.parent_le (UInt8.le_refl 30) hi
  have hfour : (4 : UInt32).toNat = 4 := rfl
  have hi' : (UInt32.ofNat i).toNat = i := UInt32.toNat_ofNat_of_lt' (by rw [UInt32.size]; omega)
  have hmul : (UInt32.ofNat i * 4).toNat = i * 4 := by
    rw [UInt32.toNat_mul, hi', hfour]
    omega
  have hblock := toNat_block h.bounded hi
  rw [checkedBlock, mul32_eq (by rw [hi', hfour]; omega), bind_eq_bind, bind_some, add32_eq (by rw [hmul]; omega)]
  simp only [bind_eq_bind, bind_some]
  generalize hnet : pool.parent.network + UInt32.ofNat i * 4 = net at hblock ⊢
  rw [checkedInAnyHubBlock_eq h (by rw [hblock, hfour]; omega)]
  cases pool.allocated.contains net with
  | true => rfl
  | false => cases pool.inAnyHubBlock net 4 <;> rfl

theorem checkedAlloc_eq :
    checkedAlloc pool = some (pool.alloc.map (fun given => (given.1, given.2 + 1, given.2 + 2))) := by
  have hle : pool.parent.prefixLen.toNat ≤ 30 := pool.parent_le
  have hbits : (32 - pool.parent.prefixLen).toNat = 32 - pool.parent.prefixLen.toNat :=
    UInt8.toNat_sub_of_le _ _ (parent_le_32 pool)
  have htwo : 2 ≤ 32 - pool.parent.prefixLen := by
    rw [UInt8.le_iff_toNat_le, hbits]
    show 2 ≤ 32 - pool.parent.prefixLen.toNat
    omega
  have hshift : 32 - pool.parent.prefixLen - 2 < 32 := by
    rw [UInt8.lt_iff_toNat_lt, UInt8.toNat_sub_of_le _ _ htwo, hbits]
    show 32 - pool.parent.prefixLen.toNat - 2 < 32
    omega
  rw [checkedAlloc, checkedNetwork_of_le (parent_le_32 pool), sub8_eq (parent_le_32 pool)]
  simp only [bind_eq_bind, bind_some, htwo, if_true, shl32_eq hshift, toNat_blockCount pool]
  rw [findSomeM?_eq (fun i hi => checkedBlock_eq h (List.mem_range.mp hi)), bind_some]
  rw [findSome?_ite (fun net => !pool.allocated.contains net && !pool.inAnyHubBlock net 4)
    (fun i => pool.parent.network + UInt32.ofNat i * 4)]
  rw [VpnPool.alloc, VpnPool.blocks, toNat_blockCount pool]
  cases hfound : List.find? (fun net => !pool.allocated.contains net && !pool.inAnyHubBlock net 4) (List.map
      (fun i => pool.parent.network + UInt32.ofNat i * 4) (List.range (2 ^ (30 - pool.parent.prefixLen.toNat)))) with
  | none => rfl
  | some net =>
    have hmem := List.mem_of_find?_eq_some hfound
    rw [← toNat_blockCount pool] at hmem
    have hend := ((mem_blocks_iff h.bounded).mp hmem).end_lt h.bounded
    have hsize : (⟨net, 30⟩ : Ipv4Net).size = 4 := rfl
    dsimp only at hend
    have hone : (1 : UInt32).toNat = 1 := rfl
    have htwo : (2 : UInt32).toNat = 2 := rfl
    simp only [add32_eq (show net.toNat + (1 : UInt32).toNat < 2 ^ 32 by omega),
      add32_eq (show net.toNat + (2 : UInt32).toNat < 2 ^ 32 by omega), bind_some]
    rfl

theorem checkedCollides_eq (blockNet blockEnd : UInt32) : checkedCollides pool blockNet blockEnd =
      some (pool.allocated.any (fun s => s < blockEnd && blockNet < s + 4)) := by
  refine anyM_eq (fun s hs => ?_)
  have hend : s.toNat + (4 : UInt32).toNat < 2 ^ 32 := (h.placed _ (mem_live_slash30 hs)).end_lt h.bounded
  rw [add32_eq hend]
  by_cases hlt : s < blockEnd
  · rw [if_pos hlt, decide_eq_true hlt, Bool.true_and]
    rfl
  · rw [if_neg hlt, decide_eq_false hlt, Bool.false_and]

theorem checkedSubnet_eq (hle : pool.parent.prefixLen ≤ p) (h30 : p ≤ 30) {i : Nat}
    (hi : i < 2 ^ (p.toNat - pool.parent.prefixLen.toNat)) : checkedSubnet pool pool.parent.network (spanOf p) i = some (
        let net := pool.parent.network + UInt32.ofNat (i * (spanOf p).toNat)
        if !pool.inAnyHubBlock net (spanOf p) && !pool.allocated.any (fun s => s < net + spanOf p && net < s + 4) then
          some net else none) := by
  have hspan := toNat_spanOf (UInt8.lt_of_lt_of_le (prefixLen_pos h.bounded) hle) (UInt8.le_trans h30 (by decide))
  have hlt := subnet_end_lt h.bounded hle h30 hi
  have hsubnet := toNat_subnet h.bounded hle h30 hi
  have hpow : 0 < 2 ^ (32 - p.toNat) := Nat.two_pow_pos _
  rw [← hspan] at hlt hsubnet hpow
  have hoffset : (UInt32.ofNat (i * (spanOf p).toNat)).toNat = i * (spanOf p).toNat :=
    UInt32.toNat_ofNat_of_lt' (by rw [UInt32.size]; omega)
  rw [checkedSubnet, add32_eq (by rw [hoffset]; omega), bind_eq_bind, bind_some]
  dsimp only
  generalize hnet : pool.parent.network + UInt32.ofNat (i * (spanOf p).toNat) = net at hsubnet ⊢
  have hend : net.toNat + (spanOf p).toNat < 2 ^ 32 := by omega
  rw [add32_eq hend, bind_some, checkedInAnyHubBlock_eq h hend, checkedCollides_eq h]
  cases pool.inAnyHubBlock net (spanOf p) with
  | true => rfl
  | false => cases pool.allocated.any (fun s => s < net + spanOf p && net < s + 4) <;> rfl

theorem checkedAllocHubSubnet_eq (p : UInt8) : checkedAllocHubSubnet pool p = some (pool.allocHubSubnet p) := by
  rw [checkedAllocHubSubnet, VpnPool.allocHubSubnet]
  by_cases hp : (pool.parent.prefixLen ≤ p && p ≤ 30) = true
  · rw [if_pos hp, if_pos hp]
    rw [Bool.and_eq_true, decide_eq_true_eq, decide_eq_true_eq] at hp
    obtain ⟨hle, h30⟩ := hp
    have hpos := prefixLen_pos h.bounded
    have hspan := checkedSpan_eq (UInt8.lt_of_lt_of_le hpos hle) (UInt8.le_trans h30 (by decide))
    rw [checkedNetwork_of_le (parent_le_32 pool), hspan, checkedSpan_eq hpos (parent_le_32 pool)]
    simp only [bind_eq_bind, bind_some, subnetCount h.bounded hle h30]
    rw [findSomeM?_eq (fun i hi => checkedSubnet_eq h hle h30 (List.mem_range.mp hi)), bind_some]
    rw [findSome?_ite
      (fun net => !pool.inAnyHubBlock net (spanOf p) && !pool.allocated.any (fun s => s < net + spanOf p && net < s + 4))
      (fun i => pool.parent.network + UInt32.ofNat (i * (spanOf p).toNat))]
    rw [VpnPool.subnets]
    simp only [subnetCount h.bounded hle h30]
    cases List.find? (fun net => !pool.inAnyHubBlock net (spanOf p) &&
        !pool.allocated.any (fun s => s < net + spanOf p && net < s + 4)) _ <;> rfl
  · rw [if_neg hp, if_neg hp]

theorem checkedIsAllocated_eq {addr : UInt32} (haddr : addr ≠ 0xFFFFFFFF) :
    checkedIsAllocated pool addr = some (pool.isAllocated addr) := by
  have hend : addr.toNat + (1 : UInt32).toNat < 2 ^ 32 := by
    have hlt := addr.toNat_lt
    have hne : addr.toNat ≠ 2 ^ 32 - 1 := fun heq => haddr (UInt32.toNat_inj.mp heq)
    show addr.toNat + 1 < 2 ^ 32
    omega
  rw [checkedIsAllocated, VpnPool.isAllocated, checkedInAnyHubBlock_eq h hend]
  cases pool.allocated.contains (addr &&& 0xFFFFFFFC) <;> rfl

theorem checkedIsAllocated_eq_none_iff {addr : UInt32} :
    checkedIsAllocated pool addr = none ↔ addr = 0xFFFFFFFF ∧ pool.hubBlocks.entries ≠ [] := by
  by_cases haddr : addr = 0xFFFFFFFF
  swap
  · simp [checkedIsAllocated_eq h haddr, haddr]
  subst haddr
  have hfree : pool.allocated.contains (0xFFFFFFFF &&& 0xFFFFFFFC) = false := by
    rw [List.contains_eq_mem, decide_eq_false_iff_not]
    exact fun hm => absurd ((h.placed _ (mem_live_slash30 hm)).end_lt h.bounded) (by decide)
  rw [checkedIsAllocated, hfree, if_neg (by decide), checkedInAnyHubBlock]
  cases hentries : pool.hubBlocks.entries with
  | nil => simp
  | cons hub rest =>
    have hplaced := h.placed _ (mem_live_hub (hentries ▸ List.mem_cons_self))
    have hsize := checkedSpan_eq (UInt8.lt_of_lt_of_le (prefixLen_pos h.bounded) hplaced.wide) hplaced.le_32
    have hend : add32 0xFFFFFFFF 1 = none := by decide
    simp [List.anyM, hsize, hend]

end

/-- A parent that ends with the last address stops the search for a subnet of its
own size. -/
theorem checkedAllocHubSubnet_last (hlast : 0xFFFFFFFF ∈ pool.parent.addresses) :
    checkedAllocHubSubnet pool pool.parent.prefixLen = none := by
  have hguard : (pool.parent.prefixLen ≤ pool.parent.prefixLen && pool.parent.prefixLen ≤ 30) = true := by
    simp [pool.parent_le]
  rw [checkedAllocHubSubnet, if_pos hguard, checkedNetwork_of_le (parent_le_32 pool)]
  by_cases hzero : pool.parent.prefixLen = 0
  · rw [hzero]
    rfl
  have hpos := UInt8.pos_iff_ne_zero.mpr hzero
  have hspan := toNat_spanOf hpos (parent_le_32 pool)
  have hend := ((mem_range_iff (parent_le_32 pool)).mp hlast).2
  have hone : ((spanOf pool.parent.prefixLen).toNat + ((spanOf pool.parent.prefixLen).toNat - 1)) /
      (spanOf pool.parent.prefixLen).toNat = 1 := by
    have hsize : 0 < (spanOf pool.parent.prefixLen).toNat := hspan ▸ Nat.two_pow_pos _
    exact Nat.div_eq_of_lt_le (by omega) (by omega)
  have hover : add32 pool.parent.network (spanOf pool.parent.prefixLen) = none := by
    rw [Ipv4Net.size, ← hspan] at hend
    have htop : (0xFFFFFFFF : UInt32).toNat = 2 ^ 32 - 1 := rfl
    exact if_neg (by omega)
  have hbase : add32 pool.parent.network 0 = some pool.parent.network := by
    rw [add32_eq (by simpa using pool.parent.network.toNat_lt), UInt32.add_zero]
  simp only [checkedSpan_eq hpos (parent_le_32 pool), bind_eq_bind, bind_some, hone]
  simp [List.range_one, List.findSomeM?, checkedSubnet, hbase, hover]

theorem checkedValidateStatic_eq_none_iff {listenerAddr listenerPeer connectorAddr connectorPeer : UInt32}
    {listenerPrefix connectorPrefix : UInt8} :
    checkedValidateStatic listenerAddr listenerPrefix listenerPeer connectorAddr connectorPrefix connectorPeer = none ↔
      listenerAddr = connectorPeer ∧ connectorAddr = listenerPeer ∧ listenerPrefix = connectorPrefix ∧
        listenerAddr ≠ connectorAddr ∧ 32 < listenerPrefix := by
  rw [checkedValidateStatic, checkedContains_eq]
  simp only [Bool.and_eq_true, beq_iff_eq, bne_iff_ne]
  split
  · rename_i hmirror
    simp only [ite_eq_left_iff, reduceCtorEq, imp_false, not_not]
    tauto
  · rename_i hmirror
    simp only [reduceCtorEq, false_iff]
    tauto

end Pool

end Bore.WireNetworks
