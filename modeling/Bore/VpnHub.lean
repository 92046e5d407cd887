import Bore.Ipv4Pool
import Bore.Runs

namespace Bore.VpnHub

open Ipv4Pool Runs

structure PeerSlot where
  peerId : UInt32
  overlay : UInt32

structure HubState where
  subnet : Ipv4Net
  nextPeerId : UInt32
  peers : Table UInt32 PeerSlot

namespace HubState

variable (state : HubState)

def hosts : List UInt32 :=
  (List.range ((spanOf state.subnet.prefixLen).toNat - 3)).map (fun i => state.subnet.network + 2 + UInt32.ofNat i)

def allocPeer : Option (HubState × PeerSlot) :=
  (state.hosts.find? (fun addr => !state.peers.values.any (fun slot => slot.overlay == addr))).map (fun overlay =>
    ({ state with
        nextPeerId := state.nextPeerId + 1
        peers := state.peers.insert state.nextPeerId ⟨state.nextPeerId, overlay⟩ },
      ⟨state.nextPeerId, overlay⟩))

def freePeer (overlay : UInt32) : HubState := { state with peers := state.peers.retain (fun _ slot => slot.overlay != overlay) }

end HubState

inductive HubEvent
  | join (peerId overlay : UInt32) (nonce : Nat) (carriers : UInt16)
  | leave (peerId : UInt32)
  deriving DecidableEq

/-- The handler of a spoke: its address is allocated, it has told the hub, or its
guard has freed the address and not yet sent the `Leave`. -/
inductive Spoke
  | allocated (slot : PeerSlot)
  | joined (slot : PeerSlot)
  | freed (slot : PeerSlot)

/-- A peer link of the hub client; `serial` tells one from another. -/
structure PeerHandle where
  serial : Nat
  peerId : UInt32
  overlay : UInt32
  deriving DecidableEq

/-- What is known of a peer that is not built: the carriers, the nonce and the overlay
address of its `Join`, and the number of its substreams. -/
structure PendingPeer where
  joined : Option (UInt16 × Nat × UInt32)
  up : Nat
  down : Nat

structure Coordinator where
  pending : Table UInt32 PendingPeer
  live : Table UInt32 PeerHandle
  table : Table UInt32 PeerHandle
  nextSerial : Nat

inductive Tag
  | up
  | down
  | unknown
  deriving DecidableEq

namespace Coordinator

def maxPendingPeers : Nat := 512

def maxPendingPerPeer : Nat := 64

variable (c : Coordinator)

def pendingOf (peerId : UInt32) : PendingPeer := (c.pending.get? peerId).getD ⟨none, 0, 0⟩

def complete (peerId : UInt32) : Option (Nat × UInt32) :=
  (c.pending.get? peerId).bind (fun entry => entry.joined.bind (fun joined =>
    if entry.up < joined.1.toNat || entry.down < joined.1.toNat then none else some joined.2))

def tryBuildPeer (peerId : UInt32) (built : Bool) : Coordinator :=
  match c.complete peerId with
  | none => c
  | some (_, overlay) =>
    if built then
      { pending := c.pending.erase peerId
        live := c.live.insert peerId ⟨c.nextSerial, peerId, overlay⟩
        table := c.table.insert overlay ⟨c.nextSerial, peerId, overlay⟩
        nextSerial := c.nextSerial + 1 }
    else { c with pending := c.pending.erase peerId }

def setPending (peerId : UInt32) (entry : PendingPeer) : Coordinator := { c with pending := c.pending.insert peerId entry }

/-- A substream has arrived; too many of them are dropped, and then no peer is
built. -/
def addSubstream (peerId : UInt32) (tag : Tag) : Coordinator × Bool :=
  if !c.pending.contains peerId && maxPendingPeers ≤ c.pending.size then (c, false)
  else
    let entry := c.pendingOf peerId
    if maxPendingPerPeer ≤ entry.up + entry.down then (c.setPending peerId entry, false)
    else match tag with
      | .up => (c.setPending peerId { entry with up := entry.up + 1 }, true)
      | .down => (c.setPending peerId { entry with down := entry.down + 1 }, true)
      | .unknown => (c.setPending peerId entry, false)

def addJoin (peerId overlay : UInt32) (nonce : Nat) (carriers : UInt16) : Coordinator :=
  c.setPending peerId { c.pendingOf peerId with joined := some (carriers, nonce, overlay) }

def handleLeave (peerId : UInt32) : Coordinator :=
  match c.live.get? peerId with
  | none => { c with pending := c.pending.erase peerId }
  | some handle =>
    { c with
      live := c.live.erase peerId
      table := c.table.erase handle.overlay
      pending := c.pending.erase peerId }

def handleSubstream (peerId : UInt32) (tag : Tag) (built : Bool) : Coordinator :=
  let added := c.addSubstream peerId tag
  if added.2 then added.1.tryBuildPeer peerId built else added.1

def handleEvent (event : HubEvent) (built : Bool) : Coordinator :=
  match event with
  | .join peerId overlay nonce carriers => (c.addJoin peerId overlay nonce carriers).tryBuildPeer peerId built
  | .leave peerId => c.handleLeave peerId

end Coordinator

structure System where
  state : HubState
  maxClients : UInt16
  spokes : Table Nat Spoke
  events : List HubEvent
  wire : List HubEvent
  inbox : List HubEvent
  coordinator : Coordinator

def eventCap : Nat := 32

def inboxCap : Nat := 256

inductive Action
  | alloc (h : Nat)
  | join (h : Nat) (nonce : Nat) (carriers : UInt16)
  | free (h : Nat)
  | leave (h : Nat)
  | forward
  | deliver
  | selfLeave (peerId : UInt32)
  | substream (peerId : UInt32) (tag : Tag) (built : Bool)
  | event (built : Bool)
  deriving DecidableEq

/-- What the hub's control loop makes of a message. -/
def HubEvent.received : HubEvent → HubEvent
  | .join peerId overlay nonce carriers => .join peerId overlay nonce (max carriers 1)
  | .leave peerId => .leave peerId

def step (s : System) : Action → Option System
  | .alloc h =>
    if s.spokes.contains h || s.maxClients.toNat ≤ s.state.peers.size then none
    else s.state.allocPeer.map (fun r => { s with state := r.1, spokes := s.spokes.insert h (.allocated r.2) })
  | .join h nonce carriers =>
    match s.spokes.get? h with
    | some (.allocated slot) =>
      if s.events.length < eventCap then
        some { s with
          events := s.events ++ [.join slot.peerId slot.overlay nonce carriers]
          spokes := s.spokes.insert h (.joined slot) }
      else none
    | _ => none
  | .free h =>
    match s.spokes.get? h with
    | some (.allocated slot) | some (.joined slot) =>
      some { s with state := s.state.freePeer slot.overlay, spokes := s.spokes.insert h (.freed slot) }
    | _ => none
  | .leave h =>
    match s.spokes.get? h with
    | some (.freed slot) =>
      -- `try_send`: a full channel drops the event
      some { s with
        events := if s.events.length < eventCap then s.events ++ [.leave slot.peerId] else s.events
        spokes := s.spokes.erase h }
    | _ => none
  | .forward =>
    match s.events with
    | event :: rest => some { s with events := rest, wire := s.wire ++ [event] }
    | [] => none
  | .deliver =>
    match s.wire with
    | event :: rest =>
      if s.inbox.length < inboxCap then some { s with wire := rest, inbox := s.inbox ++ [event.received] }
      else none
    | [] => none
  | .selfLeave peerId =>
    -- the downlink task of a live peer has ended
    if s.coordinator.live.contains peerId && s.inbox.length < inboxCap then
      some { s with inbox := s.inbox ++ [.leave peerId] }
    else none
  | .substream peerId tag built => some { s with coordinator := s.coordinator.handleSubstream peerId tag built }
  | .event built =>
    match s.inbox with
    | event :: rest => some { s with inbox := rest, coordinator := s.coordinator.handleEvent event built }
    | [] => none

def start (subnet : Ipv4Net) (maxClients : UInt16) : System :=
  ⟨⟨subnet, 1, ∅⟩, maxClients, ∅, [], [], [], ⟨∅, ∅, ∅, 0⟩⟩

section Routing

variable {c : Coordinator} {peerId : UInt32} {built : Bool} {s s' : System}

def Routed (c : Coordinator) : Prop :=
  ∀ p handle, c.live.get? p = some handle → handle.peerId = p ∧ c.table.get? handle.overlay = some handle

def vacant (c : Coordinator) (peerId : UInt32) : Bool :=
  (c.complete peerId).all (fun joined =>
    c.live.entries.all (fun e => e.1 == peerId || e.2.overlay != joined.2))

theorem tryBuildPeer_routed (hr : Routed c) (hv : vacant c peerId = true) : Routed (c.tryBuildPeer peerId built) := by
  rw [Coordinator.tryBuildPeer]
  cases hcomplete : c.complete peerId with
  | none => exact hr
  | some joined =>
    rw [vacant, hcomplete, Option.all_some, List.all_eq_true] at hv
    cases built with
    | false => exact hr
    | true =>
      intro p handle hg
      change (c.live.insert peerId ⟨c.nextSerial, peerId, joined.2⟩).get? p = some handle at hg
      rw [Table.get?_insert] at hg
      split at hg
      · rename_i hp
        cases hg
        exact ⟨hp.symm, Table.get?_insert_self _ _ _⟩
      rename_i hp
      obtain ⟨hid, htable⟩ := hr p handle hg
      have hfree := hv (p, handle) ((Table.get?_eq_some_iff _ _ _).mp hg)
      have hne : handle.overlay ≠ joined.2 := by simpa [hp] using hfree
      exact ⟨hid, (Table.get?_insert_of_ne _ _ hne).trans htable⟩

theorem handleLeave_routed (hr : Routed c) (peerId : UInt32) : Routed (c.handleLeave peerId) := by
  rw [Coordinator.handleLeave]
  split
  · exact hr
  rename_i gone hgone
  intro p handle hg
  rw [Table.get?_erase] at hg
  split at hg
  · cases hg
  rename_i hp
  obtain ⟨hid, htable⟩ := hr p handle hg
  refine ⟨hid, ?_⟩
  rw [Table.get?_erase, if_neg, htable]
  -- the entry under the address of the peer that left is its own
  intro ho
  rw [ho, (hr peerId gone hgone).2] at htable
  cases htable
  exact hp (hid.symm.trans (hr peerId gone hgone).1)

theorem handleLeave_keeps (hr : Routed c) {addr : UInt32} {handle : PeerHandle}
    (hg : c.table.get? addr = some handle) (hne : handle.peerId ≠ peerId) :
    (c.handleLeave peerId).table.get? addr = some handle := by
  rw [Coordinator.handleLeave]
  split
  · exact hg
  rename_i gone hgone
  rw [Table.get?_erase, if_neg, hg]
  rintro rfl
  obtain ⟨hid, htable⟩ := hr peerId gone hgone
  cases htable.symm.trans hg
  exact hne hid

theorem addSubstream_same (c : Coordinator) (peerId : UInt32) (tag : Tag) :
    (c.addSubstream peerId tag).1.live = c.live ∧ (c.addSubstream peerId tag).1.table = c.table := by
  rw [Coordinator.addSubstream]
  split
  · exact ⟨rfl, rfl⟩
  dsimp only
  split
  · exact ⟨rfl, rfl⟩
  · cases tag <;> exact ⟨rfl, rfl⟩

def unshared (s : System) : Action → Bool
  | .substream peerId tag _ => vacant (s.coordinator.addSubstream peerId tag).1 peerId
  | .event _ =>
    match s.inbox with
    | .join peerId overlay nonce carriers :: _ => vacant (s.coordinator.addJoin peerId overlay nonce carriers) peerId
    | _ => true
  | _ => true

theorem Routed.same {c' : Coordinator} (hr : Routed c) (hlive : c'.live = c.live) (htable : c'.table = c.table) :
    Routed c' := by
  intro p handle hg
  rw [hlive] at hg
  rw [htable]
  exact hr p handle hg

theorem step_routed {a : Action} (hstep : step s a = some s') (hok : unshared s a = true) (hr : Routed s.coordinator) :
    Routed s'.coordinator := by
  cases a with
  | alloc =>
    rw [step] at hstep
    split at hstep
    · cases hstep
    · obtain ⟨r, -, rfl⟩ := Option.map_eq_some_iff.mp hstep
      exact hr
  | join | deliver =>
    rw [step] at hstep
    split at hstep
    · split at hstep <;> cases hstep
      exact hr
    · cases hstep
  | free =>
    rw [step] at hstep
    split at hstep <;> cases hstep
    · exact hr
    · exact hr
  | leave | forward | selfLeave =>
    rw [step] at hstep
    split at hstep <;> cases hstep
    exact hr
  | substream p tag =>
    cases hstep
    obtain ⟨hlive, htable⟩ := addSubstream_same s.coordinator p tag
    have hr' := hr.same hlive htable
    dsimp only [Coordinator.handleSubstream]
    split
    · exact tryBuildPeer_routed hr' hok
    · exact hr'
  | event =>
    rw [step] at hstep
    split at hstep
    all_goals cases hstep
    rename_i event _ hinbox
    cases event with
    | join =>
      simp only [unshared, hinbox] at hok
      exact tryBuildPeer_routed (hr.same rfl rfl) hok
    | leave p => exact handleLeave_routed hr p

/-- In every run in which a peer is built only after the previous holder of its
address is gone from the coordinator, every live peer is reachable, and a `Leave`
that is processed keeps the entries of all other peers. -/
theorem live_peers_reachable {subnet : Ipv4Net} {maxClients : UInt16}
    (h : Reaches step (fun s a => unshared s a = true) (start subnet maxClients) s) :
    (∀ p handle, s.coordinator.live.get? p = some handle →
      handle.peerId = p ∧ s.coordinator.table.get? handle.overlay = some handle) ∧
    ∀ p rest built s', s.inbox = .leave p :: rest → step s (.event built) = some s' →
      ∀ addr handle, s.coordinator.table.get? addr = some handle → handle.peerId ≠ p →
        s'.coordinator.table.get? addr = some handle := by
  have hr : Routed s.coordinator := h.invariant (P := fun s => Routed s.coordinator) nofun
    fun _ _ _ hr hok hstep => step_routed hstep hok hr
  refine ⟨hr, fun p rest built s' hinbox hstep addr handle hg hne => ?_⟩
  rw [step, hinbox] at hstep
  cases hstep
  exact handleLeave_keeps hr hg hne

end Routing

section Sample

def sampleSubnet : Ipv4Net := ⟨0x0A000000, 29⟩

def joinAndBuild (h : Nat) (peerId : UInt32) : List Action :=
  [.alloc h, .join h 0 1, .forward, .deliver, .event true, .substream peerId .up true, .substream peerId .down true]

/-- Two peers are built and the first leaves: the second stays reachable. -/
theorem live_peers_reachable_two : ∃ s s' handle,
    Reaches step (fun s a => unshared s a = true) (start sampleSubnet 4) s ∧ s.coordinator.live.keys = [1, 2] ∧
      step s (.event true) = some s' ∧ s'.coordinator.live.keys = [2] ∧ handle.overlay = 0x0A000003 ∧
      s.coordinator.table.get? handle.overlay = some handle ∧ s'.coordinator.table.get? handle.overlay = some handle := by
  have hrun : (execWhile step unshared (start sampleSubnet 4)
      (joinAndBuild 0 1 ++ joinAndBuild 1 2 ++ [.free 0, .leave 0, .forward, .deliver])).map (fun s =>
        (s.coordinator.live.get? 2, s.coordinator.live.keys, s.inbox, (step s (.event true)).map (·.coordinator.live.keys))) =
      some (some ⟨1, 2, 0x0A000003⟩, [1, 2], [.leave 1], some [2]) := by
    decide +kernel
  obtain ⟨s, hr, hs⟩ := execWhile_observe _ _ hrun
  simp only [Prod.mk.injEq] at hs
  obtain ⟨hlive, hkeys, hinbox, hnext⟩ := hs
  obtain ⟨s', hstep, hkeys'⟩ := Option.map_eq_some_iff.mp hnext
  obtain ⟨hreach, hkeep⟩ := live_peers_reachable hr
  have htable := (hreach 2 _ hlive).2
  exact ⟨s, s', _, hr, hkeys, hstep, hkeys', rfl, htable, hkeep 1 [] true s' hinbox hstep _ _ htable (by decide)⟩

/-- The address of the first spoke is freed before its `Leave` is sent; a second
spoke gets the address and is built, and then the `Leave` of the first removes the
entry of the second, which stays live. -/
theorem late_leave_unroutes_new_peer : ∃ s handle,
    Reaches step always (start sampleSubnet 4) s ∧ s.coordinator.live.get? 2 = some handle ∧
      s.coordinator.table.get? handle.overlay = none := by
  have hend : ∃ s, Reaches step always (start sampleSubnet 4) s ∧
      (s.coordinator.live.get? 2, s.coordinator.table.get? 0x0A000002) = (some ⟨1, 2, 0x0A000002⟩, none) :=
    exec_observe (joinAndBuild 0 1 ++ [.free 0] ++ joinAndBuild 1 2 ++ [.leave 0, .forward, .deliver, .event true])
      _ (by decide +kernel)
  obtain ⟨s, hr, ho⟩ := hend
  rw [Prod.mk.injEq] at ho
  exact ⟨s, _, hr, ho.1, ho.2⟩

end Sample

end Bore.VpnHub
