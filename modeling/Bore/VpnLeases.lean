import Bore.PoolBlocks
import Bore.VpnServer

namespace Bore.VpnLeases

open Ipv4Pool VpnServer Runs Option

variable {config : Config} {s s' : Server} {h : Nat} {handler : Handler} {pool pool' : VpnPool} {block : Block}

def holds (pool : VpnPool) : Block → Prop
  | .slash30 net => net ∈ pool.allocated
  | .hub net => (pool.hubBlocks.get? net).isSome = true

def release (pool : VpnPool) : Block → VpnPool
  | .slash30 net => pool.free net
  | .hub net => pool.freeHubSubnet net

theorem holds_release (b : Block) : holds (release pool block) b ↔ b ≠ block ∧ holds pool b := by
  cases block with
  | slash30 =>
    cases b with
    | slash30 => simp [holds, release, VpnPool.free, and_comm]
    | hub => simp [holds, release, VpnPool.free]
  | hub net =>
    cases b with
    | slash30 => simp [holds, release, VpnPool.freeHubSubnet]
    | hub net' =>
      simp only [holds, release, VpnPool.freeHubSubnet, Table.get?_erase]
      by_cases he : net' = net <;> simp [he]

theorem fits_release (hf : pool.Fits) (block : Block) : (release pool block).Fits := by
  cases block with
  | slash30 => exact hf
  | hub =>
    intro net' p hget
    exact hf net' p (Table.get?_of_erase hget)

def leaseOf (s : Server) (h : Nat) : Option (Block × Bool) :=
  (s.handlers.get? h).bind (fun handler => handler.lease.map (·, handler.guarded))

inductive LeaseMove (s s' : Server) : Prop
  | same (hpool : s'.pool = s.pool) (hlease : ∀ j, leaseOf s' j = leaseOf s j)
  | takeHub (h : Nat) (p : UInt8) (pool pool' : VpnPool) (subnet : Ipv4Net) (hpool : s.pool = some pool)
      (halloc : pool.allocHubSubnet p = some (pool', subnet)) (hpool' : s'.pool = some pool') (hnew : leaseOf s h = none)
      (hlease : ∀ j, leaseOf s' j = if j = h then some (.hub subnet.network, true) else leaseOf s j)
  | takeBlock (h : Nat) (pool pool' : VpnPool) (net : UInt32) (hpool : s.pool = some pool)
      (halloc : pool.alloc = some (pool', net)) (hpool' : s'.pool = some pool') (hnew : leaseOf s h = none)
      (hlease : ∀ j, leaseOf s' j = if j = h then some (.slash30 net, true) else leaseOf s j)
  | drop (h : Nat) (block : Block) (hold : leaseOf s h = some (block, true))
      (hpool : s'.pool = s.pool.map (fun pool => release pool block))
      (hlease : ∀ j, leaseOf s' j = if j = h then none else leaseOf s j)

section Functions

theorem leaseOf_handler (hg : s.handlers.get? h = some handler) :
    leaseOf s h = handler.lease.map (·, handler.guarded) := by
  rw [leaseOf, hg, bind_some]

theorem leaseOf_setHandler (s : Server) (h : Nat) (handler : Handler) (j : Nat) :
    leaseOf (s.setHandler h handler) j = if j = h then handler.lease.map (·, handler.guarded) else leaseOf s j := by
  simp only [leaseOf, Server.setHandler, Table.get?_insert]
  split <;> rfl

section

variable (hg : s.handlers.get? h = some handler)
include hg

theorem leaseOf_setPhase (phase : Phase) (j : Nat) : leaseOf (s.setPhase h handler phase) j = leaseOf s j := by
  rw [Server.setPhase, leaseOf_setHandler]
  split
  · rename_i he
    rw [he, leaseOf_handler hg]
  · rfl

theorem setPhase_move (phase : Phase) : LeaseMove s (s.setPhase h handler phase) :=
  .same rfl (leaseOf_setPhase hg phase)

theorem register_move (hello : HelloVpn) (session : Nat) (hub : Bool) :
    LeaseMove s (s.register h handler hello session hub) := by
  rw [Server.register]
  split
  · exact setPhase_move hg _
  · exact .same rfl (leaseOf_setPhase hg _)

theorem lookupEntry_move (connect : ConnectVpn) (permit : Bool) :
    LeaseMove s (s.lookupEntry h handler connect permit) := by
  rw [Server.lookupEntry]
  split
  · exact setPhase_move hg _
  · split <;> exact setPhase_move hg _

theorem openHub_move {hello : HelloVpn} (hnew : handler.lease = none)
    (hok : ∀ pool pool' subnet, s.pool = some pool → pool.allocHubSubnet config.hubPrefix = some (pool', subnet) →
      checkOverlap hello.advertised [] subnet = none) : LeaseMove s (s.openHub config h handler hello) := by
  rw [Server.openHub]
  split
  · exact setPhase_move hg _
  split
  · exact setPhase_move hg _
  rename_i pool hpool
  split
  · exact setPhase_move hg _
  rename_i pool' subnet halloc
  rw [hok pool pool' subnet hpool halloc]
  refine .takeHub h config.hubPrefix pool pool' subnet hpool halloc rfl ?_ (leaseOf_setHandler _ _ _)
  rw [leaseOf_handler hg, hnew]
  rfl

end

theorem checkAddresses_lease (config : Config) (s : Server) (h : Nat) (handler : Handler)
    (connect : ConnectVpn) (entry : VpnProviderEntry)
    (l c : UInt32) : (s.checkAddresses config h handler connect entry l c).pool = s.pool ∧
      ∀ j, leaseOf (s.checkAddresses config h handler connect entry l c) j =
        if j = h then handler.lease.map (·, handler.guarded) else leaseOf s j := by
  rw [Server.checkAddresses]
  split <;> exact ⟨rfl, leaseOf_setHandler _ _ _⟩

theorem addressEntry_move {connect : ConnectVpn} {entry : VpnProviderEntry} (hg : s.handlers.get? h = some handler)
    (hnew : handler.lease = none) : LeaseMove s (s.addressEntry config h handler connect entry) := by
  have hnone : leaseOf s h = none := by
    rw [leaseOf_handler hg, hnew]
    rfl
  rw [Server.addressEntry]
  split
  · split
    · exact setPhase_move hg _
    · rename_i pool hpool
      split
      · exact setPhase_move hg _
      rename_i pool' net halloc
      obtain ⟨hp, hl⟩ := checkAddresses_lease config { s with pool := some pool' } h
        { handler with lease := some (.slash30 (net + 1 - 1)), guarded := true } connect entry (net + 1) (net + 2)
      refine .takeBlock h pool pool' net hpool halloc hp hnone (fun j => ?_)
      rw [hl j, UInt32.add_sub_cancel]
      rfl
  · split
    · obtain ⟨hp, hl⟩ := checkAddresses_lease config s h handler connect entry _ _
      refine .same hp (fun j => ?_)
      rw [hl j]
      split
      · rename_i he
        rw [he, leaseOf_handler hg]
      · rfl
    · exact setPhase_move hg _
  · exact setPhase_move hg _

theorem leaseOf_modify {f : Handler → Handler} (hf : ∀ x, (f x).lease = x.lease ∧ (f x).guarded = x.guarded) (s : Server)
    (o j : Nat) : leaseOf { s with handlers := s.handlers.modify o f } j = leaseOf s j := by
  simp only [leaseOf, Table.get?_modify]
  split
  · rw [bind_map]
    congr 1
    funext x
    simp only [Function.comp_apply, (hf x).1, (hf x).2]
  · rfl

theorem pairEntry_move {connect : ConnectVpn} {read : VpnProviderEntry} {ready : VpnReady}
    (hg : s.handlers.get? h = some handler) : LeaseMove s (s.pairEntry h handler connect read ready) := by
  rw [Server.pairEntry]
  split
  · exact setPhase_move hg _
  rename_i entry _
  dsimp only
  split
  · have hf (x : Handler) : ({ x with phase := .paired ready } : Handler).lease = x.lease ∧
        ({ x with phase := .paired ready } : Handler).guarded = x.guarded := ⟨rfl, rfl⟩
    refine .same rfl (fun j => ?_)
    exact (leaseOf_modify hf (s.setPhase h handler .linked) entry.opener j).trans
      (leaseOf_setPhase hg _ j)
  · exact .same rfl (leaseOf_setPhase hg _)

theorem finish_move (hg : s.handlers.get? h = some handler) (hguard : ∀ b g, leaseOf s h = some (b, g) → g = true) :
    LeaseMove s (s.finish h handler) := by
  have hlease : ∀ j, leaseOf (s.finish h handler) j = if j = h then none else leaseOf s j := by
    intro j
    simp only [leaseOf, Server.finish, Table.get?_erase]
    split <;> rfl
  have hold := leaseOf_handler hg
  cases hl : handler.lease with
  | none =>
    rw [hl] at hold
    refine .same ?_ (fun j => ?_)
    · rw [Server.finish, hl]
    · rw [hlease]
      split
      · rename_i he
        rw [he, hold]
        rfl
      · rfl
  | some block =>
    rw [hl] at hold
    have htrue := hguard block handler.guarded hold
    rw [htrue] at hold
    refine .drop h block hold ?_ hlease
    rw [Server.finish, hl, htrue]
    cases block <;> rfl

end Functions

def overlapFree (config : Config) (s : Server) : Action → Bool
  | .openListener h _ =>
    match s.handlers.get? h, s.pool.bind (fun pool => pool.allocHubSubnet config.hubPrefix) with
    | some ⟨.listener hello _, _, _, _⟩, some (_, subnet) =>
      decide (Server.effectiveMaxClients hello ≤ 1) || (checkOverlap hello.advertised [] subnet).isNone
    | _, _ => true
  | _ => true

theorem openListener_move {hello : HelloVpn} {session : Nat} {permit : Bool}
    (hg : s.handlers.get? h = some ⟨.listener hello session, .arrived, none, false⟩)
    (hok : overlapFree config s (.openListener h permit) = true) :
    LeaseMove s (s.openListener config h ⟨.listener hello session, .arrived, none, false⟩ hello session permit) := by
  rw [Server.openListener]
  split
  · exact setPhase_move hg _
  split
  · rename_i hhub
    refine openHub_move hg rfl (fun pool pool' subnet hpool halloc => ?_)
    have hbind : s.pool.bind (fun pool => pool.allocHubSubnet config.hubPrefix) = some (pool', subnet) := by
      rw [hpool]
      exact halloc
    simp only [overlapFree, hg, hbind, Bool.or_eq_true, decide_eq_true_eq] at hok
    rcases hok with hle | hnone
    · exact absurd hhub (UInt16.not_lt.mpr hle)
    · exact isNone_iff_eq_none.mp hnone
  · exact register_move hg hello session false

theorem step_move {a : Action} (hstep : step config s a = some s') (hok : overlapFree config s a = true)
    (hguard : ∀ h b g, leaseOf s h = some (b, g) → g = true) : LeaseMove s s' := by
  have arrives (role : Role) (h : Nat) (hnew : ¬ s.handlers.contains h = true) (j : Nat) :
      leaseOf (s.setHandler h ⟨role, .arrived, none, false⟩) j = leaseOf s j := by
    rw [leaseOf_setHandler]
    split
    · rename_i he
      rw [Table.contains, not_isSome_iff_eq_none] at hnew
      rw [he, leaseOf, hnew]
      rfl
    · rfl
  revert hstep
  fun_cases step config s a
  all_goals rintro ⟨⟩
  case case2 h _ hnew => exact .same rfl (arrives _ h hnew)
  case case4 h _ hnew => exact .same rfl (arrives _ h hnew)
  case case5 hg => exact openListener_move hg hok
  case case7 hg => exact register_move hg _ _ true
  case case9 permit _ _ _ hg => exact lookupEntry_move hg _ permit
  case case11 hg => exact addressEntry_move hg rfl
  case case13 hg => exact setPhase_move hg _
  case case15 hg => exact pairEntry_move hg
  case case18 hg => exact setPhase_move hg _
  case case20 hg =>
    rw [Server.deregister_frame]
    exact .same rfl (leaseOf_setPhase hg (.returning false))
  case case22 h _ _ _ hg => exact finish_move hg (hguard h)

structure Conserved (s : Server) : Prop where
  guarded : ∀ h b g, leaseOf s h = some (b, g) → g = true
  single : ∀ h h' b, leaseOf s h = some (b, true) → leaseOf s h' = some (b, true) → h = h'
  bounded : ∀ pool, s.pool = some pool → pool.Bounded ∧ pool.Fits
  exact : ∀ pool, s.pool = some pool → ∀ b, holds pool b ↔ ∃ h, leaseOf s h = some (b, true)

theorem start_conserved {cidr : Option Ipv4Net} (hb : ∀ pool, cidr.bind VpnPool.new = some pool → pool.Bounded) :
    Conserved (start cidr) := by
  have hempty (pool : VpnPool) (hpool : cidr.bind VpnPool.new = some pool) : pool.allocated = [] ∧ pool.hubBlocks = ∅ := by
    obtain ⟨net, -, hnew⟩ := bind_eq_some_iff.mp hpool
    rw [VpnPool.new] at hnew
    split at hnew
    all_goals cases hnew
    exact ⟨rfl, rfl⟩
  refine ⟨fun h b g hl => ?_, fun h h' b hl => ?_, fun pool hpool => ⟨hb pool hpool, ?_⟩, fun pool hpool b => ?_⟩
  · cases hl
  · cases hl
  · intro net p hget
    rw [(hempty pool hpool).2] at hget
    cases hget
  · simp only [show ∀ h, leaseOf (start cidr) h = none from fun _ => rfl, reduceCtorEq, exists_false, iff_false]
    cases b with
    | slash30 => rw [holds, (hempty pool hpool).1]; exact List.not_mem_nil
    | hub => rw [holds, (hempty pool hpool).2]; exact Bool.false_ne_true

theorem taken_conserved (hc : Conserved s) (hpool : s.pool = some pool) (hfree : ¬ holds pool block)
    (hpool' : s'.pool = some pool') (hfit : pool'.Bounded ∧ pool'.Fits)
    (hholds : ∀ b, holds pool' b ↔ b = block ∨ holds pool b) (hnew : leaseOf s h = none)
    (hlease : ∀ j, leaseOf s' j = if j = h then some (block, true) else leaseOf s j) : Conserved s' := by
  have hother (j : Nat) (hj : leaseOf s j = some (block, true)) : False := hfree ((hc.exact pool hpool block).mpr ⟨j, hj⟩)
  refine ⟨fun j b g hl => ?_, fun j j' b hl hl' => ?_, fun p hp => ?_, fun p hp b => ?_⟩
  · rw [hlease] at hl
    split at hl
    · cases hl
      rfl
    · exact hc.guarded j b g hl
  · rw [hlease] at hl hl'
    split at hl <;> split at hl'
    · rename_i hj hj'
      rw [hj, hj']
    · cases hl
      exact (hother j' hl').elim
    · cases hl'
      exact (hother j hl).elim
    · exact hc.single j j' b hl hl'
  · cases hpool'.symm.trans hp
    exact hfit
  · cases hpool'.symm.trans hp
    rw [hholds, hc.exact pool hpool]
    constructor
    · rintro (rfl | ⟨j, hj⟩)
      · exact ⟨h, by rw [hlease, if_pos rfl]⟩
      · refine ⟨j, ?_⟩
        rw [hlease, if_neg, hj]
        rintro rfl
        rw [hnew] at hj
        cases hj
    · rintro ⟨j, hj⟩
      rw [hlease] at hj
      split at hj
      · cases hj
        exact .inl rfl
      · exact .inr ⟨j, hj⟩

theorem move_conserved (hm : LeaseMove s s') (hc : Conserved s) : Conserved s' := by
  cases hm with
  | same hpool hlease =>
    refine ⟨fun j b g hl => ?_, fun j j' b hl hl' => ?_, fun p hp => ?_, fun p hp b => ?_⟩
    · exact hc.guarded j b g (hlease j ▸ hl)
    · exact hc.single j j' b (hlease j ▸ hl) (hlease j' ▸ hl')
    · exact hc.bounded p (hpool ▸ hp)
    · simp only [hlease]
      exact hc.exact p (hpool ▸ hp) b
  | takeHub _ _ pool _ subnet hpool halloc hpool' hnew hlease =>
    obtain ⟨hb, hf⟩ := hc.bounded pool hpool
    obtain ⟨hfree, hnet, hfit, rfl⟩ := allocHubSubnet_some hb hf halloc
    rw [hnet] at hlease
    refine taken_conserved hc hpool ?_ hpool' ⟨hb, hfit⟩ (fun b => ?_) hnew hlease
    · simp [holds, hfree]
    · cases b with
      | slash30 => simp [holds]
      | hub net =>
        simp only [holds, Table.get?_insert, Block.hub.injEq]
        by_cases he : net = subnet.addr <;> simp [he]
  | takeBlock _ pool _ net hpool halloc hpool' hnew hlease =>
    obtain ⟨hfree, rfl⟩ := alloc_some halloc
    have hfree' : ¬ holds pool (.slash30 net) := hfree
    refine taken_conserved hc hpool hfree' hpool' (hc.bounded pool hpool) (fun b => ?_) hnew hlease
    cases b <;> simp [holds]
  | drop h block hold hpool hlease =>
    refine ⟨fun j b g hl => ?_, fun j j' b hl hl' => ?_, fun p hp => ?_, fun p hp b => ?_⟩
    · rw [hlease] at hl
      split at hl
      · cases hl
      · exact hc.guarded j b g hl
    · rw [hlease] at hl hl'
      split at hl
      · cases hl
      split at hl'
      · cases hl'
      exact hc.single j j' b hl hl'
    · rw [hpool] at hp
      obtain ⟨pool, hs, rfl⟩ := map_eq_some_iff.mp hp
      obtain ⟨hb, hf⟩ := hc.bounded pool hs
      refine ⟨?_, fits_release hf block⟩
      cases block <;> exact hb
    · rw [hpool] at hp
      obtain ⟨pool, hs, rfl⟩ := map_eq_some_iff.mp hp
      rw [holds_release, hc.exact pool hs]
      constructor
      · rintro ⟨hne, j, hj⟩
        refine ⟨j, ?_⟩
        rw [hlease, if_neg, hj]
        rintro rfl
        rw [hold] at hj
        cases hj
        exact hne rfl
      · rintro ⟨j, hj⟩
        rw [hlease] at hj
        split at hj
        · cases hj
        rename_i hne
        refine ⟨?_, j, hj⟩
        rintro rfl
        exact hne (hc.single j h b hj hold)

/-- In every run in which no hub listener advertises what overlaps the subnet it is
given, the pool holds exactly what running handlers have allocated. -/
theorem pool_holds_iff_leased {cidr : Option Ipv4Net} (hb : ∀ pool, cidr.bind VpnPool.new = some pool → pool.Bounded)
    (hr : Reaches (step config) (fun s a => overlapFree config s a = true) (start cidr) s) (hpool : s.pool = some pool)
    (b : Block) : holds pool b ↔ ∃ h handler, s.handlers.get? h = some handler ∧ handler.lease = some b := by
  have hc : Conserved s :=
    hr.invariant (start_conserved hb) fun _ _ _ hc hok hstep => move_conserved (step_move hstep hok hc.guarded) hc
  rw [hc.exact pool hpool]
  constructor
  · rintro ⟨h, hl⟩
    obtain ⟨handler, hg, hm⟩ := bind_eq_some_iff.mp hl
    obtain ⟨b', hb', he⟩ := map_eq_some_iff.mp hm
    rw [Prod.mk.injEq] at he
    exact ⟨h, handler, hg, he.1 ▸ hb'⟩
  · rintro ⟨h, handler, hg, hlease⟩
    have hl := leaseOf_handler hg
    rw [hlease, map_some] at hl
    have htrue := hc.guarded h b handler.guarded hl
    exact ⟨h, htrue ▸ hl⟩

section Sample

def sampleConfig : Config := ⟨4, 24⟩

def sampleCidr : Ipv4Net := ⟨0x0A000000, 24⟩

theorem sample_bounded (pool : VpnPool) (h : (some sampleCidr).bind VpnPool.new = some pool) : pool.Bounded := by
  have hnew : (some sampleCidr).bind VpnPool.new = some ⟨sampleCidr, [], ∅, by decide⟩ := rfl
  cases hnew.symm.trans h
  rw [VpnPool.Bounded]
  decide

def sampleConnect : List Action :=
  [.listen 0 ⟨"a", [], .pool, 1, 1⟩, .openListener 0 true, .connect 1 ⟨"a", [], .pool, 1⟩, .lookup 1 true, .address 1]

theorem pool_holds_iff_leased_connector : ∃ s pool,
    Reaches (step sampleConfig) (fun s a => overlapFree sampleConfig s a = true) (start (some sampleCidr)) s ∧
      s.pool = some pool ∧ holds pool (.slash30 0x0A000000) ∧
      ∃ h handler, s.handlers.get? h = some handler ∧ handler.lease = some (.slash30 0x0A000000) := by
  have hend : ∃ s, Reaches (step sampleConfig) (fun s a => overlapFree sampleConfig s a = true) (start (some sampleCidr)) s ∧
      s.pool.map VpnPool.allocated = some [0x0A000000] :=
    execWhile_observe sampleConnect _ (by decide +kernel)
  obtain ⟨s, hr, ho⟩ := hend
  obtain ⟨pool, hpool, hall⟩ := map_eq_some_iff.mp ho
  have hholds : holds pool (.slash30 0x0A000000) := by
    rw [holds, hall]
    exact List.mem_singleton_self _
  exact ⟨s, pool, hr, hpool, hholds, (pool_holds_iff_leased sample_bounded hr hpool _).mp hholds⟩

def sampleOverlapping : Action := .listen 0 ⟨"a", [⟨0x0A000000, 8⟩], .pool, 1, 2⟩

/-- One rejected hub listener drains the pool: it has returned and nothing runs any
more, but its subnet stays allocated and there is no other. -/
theorem rejected_hub_keeps_subnet : ∃ s pool,
    Reaches (step sampleConfig) always (start (some sampleCidr)) s ∧ s.handlers.entries = [] ∧ s.pool = some pool ∧
      holds pool (.hub 0x0A000000) ∧ (pool.allocHubSubnet 24).isNone = true ∧ pool.alloc.isNone = true := by
  have hend : ∃ s, Reaches (step sampleConfig) always (start (some sampleCidr)) s ∧
      (s.handlers.entries.length, s.pool.map (fun pool =>
        ((pool.hubBlocks.get? 0x0A000000).isSome, (pool.allocHubSubnet 24).isNone, pool.alloc.isNone))) =
        (0, some (true, true, true)) :=
    exec_observe [sampleOverlapping, .openListener 0 true, .leave 0, .finish 0] _ (by decide +kernel)
  obtain ⟨s, hr, ho⟩ := hend
  rw [Prod.mk.injEq] at ho
  obtain ⟨pool, hpool, hobs⟩ := map_eq_some_iff.mp ho.2
  rw [Prod.mk.injEq, Prod.mk.injEq] at hobs
  exact ⟨s, pool, hr, List.length_eq_zero_iff.mp ho.1, hpool, hobs.1, hobs.2.1, hobs.2.2⟩

end Sample

end Bore.VpnLeases
