import Bore.Ipv4Blocks
import Bore.VpnLeases

namespace Bore.VpnOverlay

open Ipv4Pool VpnServer Runs List

/-- The overlay of a 1:1 link, for the overlap check and in both messages. -/
def overlayPrefix : UInt8 := 30

def listenerNetwork (ready : VpnReady) : Ipv4Net := ⟨ready.assigned, overlayPrefix⟩

/-- `connector_ready` is the mirror image of the listener's message. -/
def connectorNetwork (ready : VpnReady) : Ipv4Net := ⟨ready.peerOverlay, overlayPrefix⟩

def announcedBy (handler : Handler) : Option (ConnectVpn × VpnProviderEntry × VpnReady) :=
  match handler.role, handler.phase with
  | .connector connect, .addressed entry ready | .connector connect, .announced entry ready => some (connect, entry, ready)
  | _, _ => none

/-- The static requests behind a pair of messages were accepted and the messages
carry their addresses. -/
def Carries (connect : ConnectVpn) (entry : VpnProviderEntry) (ready : VpnReady) : Prop :=
  ∀ listenerAddr listenerPrefix listenerPeer connectorAddr connectorPrefix connectorPeer,
    entry.addr = .static listenerAddr listenerPrefix listenerPeer →
    connect.addr = .static connectorAddr connectorPrefix connectorPeer →
    ready.assigned = listenerAddr ∧ ready.peerOverlay = connectorAddr ∧
      checkOverlap entry.advertised connect.advertised (listenerNetwork ready) = none

def Carrying (s : Server) : Prop :=
  ∀ h handler connect entry ready, s.handlers.get? h = some handler →
    announcedBy handler = some (connect, entry, ready) → Carries connect entry ready

section Steps

variable {config : Config} {s s' : Server} {h : Nat} {handler : Handler} {a : Action}

section

variable (hs : Carrying s)
include hs

theorem Carrying.insert (hhandlers : s'.handlers = s.handlers.insert h handler)
    (hnew : ∀ connect entry ready, announcedBy handler = some (connect, entry, ready) → Carries connect entry ready) :
    Carrying s' := by
  intro j other connect entry ready hget hother
  rw [hhandlers, Table.get?_insert] at hget
  split at hget
  · cases hget
    exact hnew connect entry ready hother
  · exact hs j other connect entry ready hget hother

theorem Carrying.setHandler (hhandlers : s'.handlers = s.handlers.insert h handler)
    (hquiet : announcedBy handler = none) : Carrying s' :=
  hs.insert hhandlers (fun connect entry ready hother => by rw [hquiet] at hother; cases hother)

theorem Carrying.erase (hhandlers : s'.handlers = s.handlers.erase h) : Carrying s' := by
  intro j other connect entry ready hget hother
  rw [hhandlers, Table.get?_erase] at hget
  split at hget
  · cases hget
  · exact hs j other connect entry ready hget hother

theorem openListener_carrying (hello : HelloVpn) (session : Nat) (permit : Bool) :
    Carrying (s.openListener config h ⟨.listener hello session, .arrived, none, false⟩ hello session permit) := by
  rw [Server.openListener]
  split
  · exact hs.setHandler rfl rfl
  split
  · rw [Server.openHub]
    split
    · exact hs.setHandler rfl rfl
    split
    · exact hs.setHandler rfl rfl
    split
    · exact hs.setHandler rfl rfl
    · split <;> exact hs.setHandler rfl rfl
  · rw [Server.register]
    split <;> exact hs.setHandler rfl rfl

theorem lookupEntry_carrying (connect : ConnectVpn) (permit : Bool) (lease : Option Block) (guarded : Bool) :
    Carrying (s.lookupEntry h ⟨.connector connect, .arrived, lease, guarded⟩ connect permit) := by
  rw [Server.lookupEntry]
  split
  · exact hs.setHandler rfl rfl
  split
  · exact hs.setHandler rfl rfl
  · rename_i entry _
    refine hs.setHandler rfl ?_
    cases entry.hub <;> rfl

theorem checkAddresses_carrying (connect : ConnectVpn) (entry : VpnProviderEntry) (lease : Option Block)
    (guarded : Bool) (phase : Phase) {listenerOverlay connectorOverlay : UInt32}
    (hstatic : ∀ listenerAddr listenerPrefix listenerPeer connectorAddr connectorPrefix connectorPeer,
      entry.addr = .static listenerAddr listenerPrefix listenerPeer →
      connect.addr = .static connectorAddr connectorPrefix connectorPeer →
      listenerOverlay = listenerAddr ∧ connectorOverlay = connectorAddr) :
    Carrying (s.checkAddresses config h ⟨.connector connect, phase, lease, guarded⟩ connect entry listenerOverlay
      connectorOverlay) := by
  rw [Server.checkAddresses]
  split
  · exact hs.setHandler rfl rfl
  rename_i hfree
  refine hs.insert rfl (fun connect' entry' ready hother => ?_)
  cases hother
  intro listenerAddr listenerPrefix listenerPeer connectorAddr connectorPrefix connectorPeer hentry hconnect
  obtain ⟨hl, hc⟩ := hstatic _ _ _ _ _ _ hentry hconnect
  refine ⟨hl, hc, ?_⟩
  rw [Bool.not_eq_true, Option.isSome_eq_false_iff, Option.isNone_iff_eq_none] at hfree
  exact hfree

theorem addressEntry_carrying (connect : ConnectVpn) (entry : VpnProviderEntry) :
    Carrying (s.addressEntry config h ⟨.connector connect, .looked entry, none, false⟩ connect entry) := by
  rw [Server.addressEntry]
  split
  · rename_i hentry _
    split
    · exact hs.setHandler rfl rfl
    split
    · exact hs.setHandler rfl rfl
    refine checkAddresses_carrying ?_ _ _ _ _ _ (fun _ _ _ _ _ _ hstatic => ?_)
    · exact hs
    · rw [hentry] at hstatic
      cases hstatic
  · rename_i hentry hconnect
    split
    · refine checkAddresses_carrying hs _ _ _ _ _ (fun _ _ _ _ _ _ hentry' hconnect' => ?_)
      rw [hentry] at hentry'
      rw [hconnect] at hconnect'
      cases hentry'
      cases hconnect'
      exact ⟨rfl, rfl⟩
    · exact hs.setHandler rfl rfl
  · exact hs.setHandler rfl rfl

theorem pairEntry_carrying (connect : ConnectVpn) (read : VpnProviderEntry) (ready : VpnReady)
    (lease : Option Block) (guarded : Bool) (phase : Phase) :
    Carrying (s.pairEntry h ⟨.connector connect, phase, lease, guarded⟩ connect read ready) := by
  rw [Server.pairEntry]
  split
  · exact hs.setHandler rfl rfl
  dsimp only
  split
  · have hlinked : Carrying { s with handlers := s.handlers.insert h ⟨.connector connect, .linked, lease, guarded⟩ } :=
      hs.setHandler rfl rfl
    intro j other connect' entry' ready' hget hother
    rw [Table.get?_modify] at hget
    split at hget
    · -- the listener that gets the message announces nothing itself
      obtain ⟨listener, -, rfl⟩ := Option.map_eq_some_iff.mp hget
      rw [announcedBy] at hother
      split at hother
      · contradiction
      · contradiction
      · cases hother
    · exact hlinked j other connect' entry' ready' hget hother
  · exact hs.setHandler rfl rfl

theorem step_carrying (hstep : step config s a = some s') : Carrying s' := by
  revert hstep
  fun_cases step config s a
  all_goals rintro ⟨⟩
  case case2 | case4 => exact hs.setHandler rfl rfl
  case case5 => exact openListener_carrying hs _ _ _
  case case7 =>
    rw [Server.register]
    split <;> exact hs.setHandler rfl rfl
  case case9 => exact lookupEntry_carrying hs _ _ _ _
  case case11 => exact addressEntry_carrying hs _ _
  case case13 h role _ _ _ _ hget =>
    refine hs.insert rfl (fun connect entry' ready' hother => hs h _ connect entry' ready' hget ?_)
    rw [← hother]
    cases role <;> rfl
  case case15 => exact pairEntry_carrying hs _ _ _ _ _ _
  case case18 handler _ _ =>
    refine hs.setHandler rfl ?_
    cases handler.role <;> rfl
  case case20 =>
    rw [Server.deregister_frame]
    exact hs.setHandler rfl rfl
  case case22 => exact hs.erase rfl

end

theorem reaches_carrying {cidr : Option Ipv4Net} (hr : Reaches (step config) always (start cidr) s) : Carrying s := by
  refine hr.invariant ?_ (fun _ _ _ hs _ hstep => step_carrying hs hstep)
  intro h handler connect entry ready hget
  cases hget

end Steps

section Networks

variable {listenerAddr connectorAddr : UInt32}

theorem contains_overlay_iff : (⟨listenerAddr, overlayPrefix⟩ : Ipv4Net).contains connectorAddr = true ↔
    listenerAddr &&& 0xFFFFFFFC = connectorAddr &&& 0xFFFFFFFC := by
  have hmask : prefixToMask overlayPrefix = 0xFFFFFFFC := by decide
  rw [Ipv4Net.contains, hmask, beq_iff_eq]

theorem find?_of_firstOverlap {net : Ipv4Net} {nets : List Ipv4Net} (h : firstOverlap (net :: nets) = none) :
    ∀ other ∈ nets, net.overlaps other = false := by
  rw [firstOverlap] at h
  split at h
  · cases h
  · rename_i hfind
    intro other hother
    exact Bool.eq_false_iff.mpr (find?_eq_none.mp hfind other hother)

theorem not_mem_of_checkOverlap {listenerAdvertised connectorAdvertised : List Ipv4Net} {overlay adv : Ipv4Net}
    (hcheck : checkOverlap listenerAdvertised connectorAdvertised overlay = none) (hp : overlay.prefixLen ≤ 32)
    (hadv : adv ∈ listenerAdvertised ++ connectorAdvertised) {addr : UInt32} (haddr : overlay.contains addr = true) :
    addr ∉ adv.addresses := by
  have hfree := find?_of_firstOverlap hcheck adv hadv
  have hdisjoint : Disjoint overlay.addresses adv.addresses := by
    by_contra hmeet
    rw [(overlaps_iff (.inl hp)).mpr hmeet] at hfree
    cases hfree
  exact Set.disjoint_left.mp hdisjoint ((contains_iff hp).mp haddr)

end Networks

/-- Of two accepted static addresses both are in what is announced to either side,
and neither is in a network that one side advertises, exactly if they share a /30. -/
theorem static_overlay_is_announced (config : Config) (cidr : Option Ipv4Net) (s : Server)
    (hr : Reaches (step config) always (start cidr) s) (h : Nat) (handler : Handler)
    (hget : s.handlers.get? h = some handler) (connect : ConnectVpn) (entry : VpnProviderEntry) (ready : VpnReady)
    (hannounced : announcedBy handler = some (connect, entry, ready))
    (listenerAddr listenerPeer connectorAddr connectorPeer : UInt32) (listenerPrefix connectorPrefix : UInt8)
    (hentry : entry.addr = .static listenerAddr listenerPrefix listenerPeer)
    (hconnect : connect.addr = .static connectorAddr connectorPrefix connectorPeer) :
    ((∀ net ∈ [listenerNetwork ready, connectorNetwork ready],
        net.contains listenerAddr = true ∧ net.contains connectorAddr = true) ∧
      ∀ adv ∈ entry.advertised ++ connect.advertised, listenerAddr ∉ adv.addresses ∧ connectorAddr ∉ adv.addresses) ↔
    listenerAddr &&& 0xFFFFFFFC = connectorAddr &&& 0xFFFFFFFC := by
  obtain ⟨rfl, rfl, hcheck⟩ :=
    reaches_carrying hr h handler connect entry ready hget hannounced _ _ _ _ _ _ hentry hconnect
  constructor
  · rintro ⟨hnets, -⟩
    exact contains_overlay_iff.mp (hnets (listenerNetwork ready) mem_cons_self).2
  · intro hshared
    have hlistener : (listenerNetwork ready).contains ready.assigned = true := contains_overlay_iff.mpr rfl
    have hboth : (listenerNetwork ready).contains ready.peerOverlay = true := contains_overlay_iff.mpr hshared
    refine ⟨fun net hnet => ?_, fun adv hadv => ?_⟩
    · rcases mem_pair.mp hnet with rfl | rfl
      · exact ⟨hlistener, hboth⟩
      · exact ⟨contains_overlay_iff.mpr hshared.symm, contains_overlay_iff.mpr rfl⟩
    · have hp : (listenerNetwork ready).prefixLen ≤ 32 := show overlayPrefix ≤ 32 by decide
      exact ⟨not_mem_of_checkOverlap hcheck hp hadv hlistener, not_mem_of_checkOverlap hcheck hp hadv hboth⟩

def staticLink (prefixLen : UInt8) (listenerAddr connectorAddr : UInt32) (advertised : List Ipv4Net) : List Action :=
  [.listen 0 ⟨"a", [], .static listenerAddr prefixLen connectorAddr, 1, 1⟩, .openListener 0 true,
    .connect 1 ⟨"a", advertised, .static connectorAddr prefixLen listenerAddr, 1⟩, .lookup 1 true, .address 1]

def messages (s : Server) (h : Nat) : Option (ConnectVpn × VpnProviderEntry × VpnReady) :=
  (s.handlers.get? h).bind announcedBy

theorem static_overlay_is_announced_slash30 : ∃ s handler connect entry ready,
    Reaches (step ⟨4, 28⟩) always (start none) s ∧ s.handlers.get? 1 = some handler ∧
      announcedBy handler = some (connect, entry, ready) ∧
      (listenerNetwork ready).contains 0x0A000002 = true ∧ (connectorNetwork ready).contains 0x0A000001 = true := by
  have hrun : (exec (step ⟨4, 28⟩) (start none) (staticLink 30 0x0A000001 0x0A000002 [⟨0xC0A80100, 24⟩])).map
        (fun s => messages s 1) =
      some (some (⟨"a", [⟨0xC0A80100, 24⟩], .static 0x0A000002 30 0x0A000001, 1⟩,
        ⟨[], .static 0x0A000001 30 0x0A000002, 0, false, 1, 1⟩, ⟨0x0A000001, 0x0A000002, [⟨0xC0A80100, 24⟩], 1⟩)) := by
    decide +kernel
  obtain ⟨s, hr, hm⟩ := exec_observe _ _ hrun
  obtain ⟨handler, hget, hannounced⟩ := Option.bind_eq_some_iff.mp hm
  have hboth := ((static_overlay_is_announced _ _ s hr 1 handler hget _ _ _ hannounced _ _ _ _ _ _ rfl rfl).mpr
    (by decide)).1
  exact ⟨s, handler, _, _, _, hr, hget, hannounced, (hboth _ mem_cons_self).2,
    (hboth _ (mem_cons_of_mem _ mem_cons_self)).1⟩

/-- Two addresses of one /24 are accepted and announced as two different /30
networks, and the connector may advertise the network its own address is in. -/
theorem static_overlay_is_split : ∃ s handler connect entry ready,
    Reaches (step ⟨4, 28⟩) always (start none) s ∧ s.handlers.get? 1 = some handler ∧
      announcedBy handler = some (connect, entry, ready) ∧
      entry.addr = .static 0x0A000001 24 0x0A0000C8 ∧ connect.addr = .static 0x0A0000C8 24 0x0A000001 ∧
      (listenerNetwork ready).contains 0x0A0000C8 = false ∧ (connectorNetwork ready).contains 0x0A000001 = false ∧
      ∃ adv ∈ connect.advertised, 0x0A0000C8 ∈ adv.addresses := by
  have hrun : (exec (step ⟨4, 28⟩) (start none) (staticLink 24 0x0A000001 0x0A0000C8 [⟨0x0A0000C0, 26⟩])).map
        (fun s => messages s 1) =
      some (some (⟨"a", [⟨0x0A0000C0, 26⟩], .static 0x0A0000C8 24 0x0A000001, 1⟩,
        ⟨[], .static 0x0A000001 24 0x0A0000C8, 0, false, 1, 1⟩, ⟨0x0A000001, 0x0A0000C8, [⟨0x0A0000C0, 26⟩], 1⟩)) := by
    decide +kernel
  obtain ⟨s, hr, hm⟩ := exec_observe _ _ hrun
  obtain ⟨handler, hget, hannounced⟩ := Option.bind_eq_some_iff.mp hm
  exact ⟨s, handler, _, _, _, hr, hget, hannounced, rfl, rfl, by decide, by decide, _, mem_cons_self,
    mem_addresses.mpr (by decide)⟩

end Bore.VpnOverlay
