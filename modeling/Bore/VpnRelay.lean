import Bore.VpnHub

namespace Bore.VpnRelay

open VpnHub (Coordinator HubEvent PendingPeer Tag)

inductive Info
  | l2c
  | c2l
  deriving DecidableEq

structure Key where
  secret : String
  nonce : Nat
  info : Info
  deriving DecidableEq

structure DirectionKeys where
  egress : Key
  ingress : Key

def deriveKeysListener (secret : String) (nonce : Nat) : DirectionKeys := ⟨⟨secret, nonce, .l2c⟩, ⟨secret, nonce, .c2l⟩⟩

def deriveKeysConnector (secret : String) (nonce : Nat) : DirectionKeys := ⟨⟨secret, nonce, .c2l⟩, ⟨secret, nonce, .l2c⟩⟩

def nonceFromCounter (counter : UInt64) : List UInt8 :=
  [0, 0, 0, 0, (counter >>> 56).toUInt8, (counter >>> 48).toUInt8, (counter >>> 40).toUInt8, (counter >>> 32).toUInt8,
    (counter >>> 24).toUInt8, (counter >>> 16).toUInt8, (counter >>> 8).toUInt8, counter.toUInt8]

def maxCounter : UInt64 := 0xFFFFFFFFFFFFFFFE

abbrev Packet := List UInt8

structure Frame where
  key : Key
  counter : UInt64
  packet : Packet
  deriving DecidableEq

def sealWithCounter (key : Key) (counter : UInt64) (packet : Packet) : Option Frame :=
  if maxCounter ≤ counter then none else some ⟨key, counter, packet⟩

/-- What the clones of a relay sender share: the egress key and the counter. -/
structure Link where
  key : Key
  counter : UInt64
  deriving DecidableEq

structure Batch where
  packets : List Packet
  drawn : Option UInt64

inductive Sender
  | direct
  | relay (link : Nat) (batch : Option Batch)
  | dropped

/-- `LinkSender::clone`. The batch belongs to the task that owns the sender. -/
def Sender.clone : Sender → Sender
  | .relay link _ => .relay link none
  | sender => sender

inductive Side
  | listener
  | connector

structure Endpoint where
  side : Side
  secret : String
  nonce : Nat

def Endpoint.keys (endpoint : Endpoint) : DirectionKeys :=
  match endpoint.side with
  | .listener => deriveKeysListener endpoint.secret endpoint.nonce
  | .connector => deriveKeysConnector endpoint.secret endpoint.nonce

/-- The endpoints that share one server. One of them is a hub; `events` are on
their way to its coordinator. -/
structure System where
  hubSecret : String
  issued : Nat
  ready : List Endpoint
  events : List HubEvent
  coordinator : Coordinator
  links : List Link
  senders : List Sender
  sealed : List Frame

inductive Action
  | pair (listenerSecret connectorSecret : String)
  | spoke (peerId overlay : UInt32) (carriers : UInt16) (connectorSecret : String)
  | build (k : Nat)
  | leave (peerId : UInt32)
  | event (built : Bool)
  | substream (peerId : UInt32) (tag : Tag) (built : Bool)
  | clone (i : Nat)
  | upgrade (i : Nat)
  | fallBack (i j : Nat)
  | drop (i : Nat)
  | send (i : Nat) (packets : List Packet)
  | fetch (i : Nat)
  | encrypt (i : Nat) (accepted : Bool)
  deriving DecidableEq

namespace System

variable (s : System)

def makeRelay (keys : DirectionKeys) : System :=
  { s with
    links := s.links ++ [⟨keys.egress, 0⟩]
    senders := s.senders ++ [.relay s.links.length none] }

/-- `try_build_peer`, with the link that it makes. -/
def tryBuildPeer (c : Coordinator) (peerId : UInt32) (built : Bool) : System :=
  let s' := { s with coordinator := c.tryBuildPeer peerId built }
  match c.complete peerId with
  | some (nonce, _) => if built then s'.makeRelay (deriveKeysListener s.hubSecret nonce) else s'
  | none => s'

def takeEvent (event : HubEvent) (built : Bool) : System :=
  match event with
  | .join peerId overlay nonce carriers =>
    s.tryBuildPeer (s.coordinator.addJoin peerId overlay nonce carriers) peerId built
  | .leave peerId => { s with coordinator := s.coordinator.handleLeave peerId }

def takeSubstream (peerId : UInt32) (tag : Tag) (built : Bool) : System :=
  let added := s.coordinator.addSubstream peerId tag
  if added.2 then s.tryBuildPeer added.1 peerId built else { s with coordinator := added.1 }

def setSender (i : Nat) (sender : Sender) : System := { s with senders := s.senders.set i sender }

def restOf : List Packet → Option Batch
  | [] => none
  | packets => some ⟨packets, none⟩

def sealPacket (i link : Nat) (key : Key) (counter : UInt64) (packet : Packet) (rest : List Packet) (accepted : Bool) :
    System :=
  match sealWithCounter key counter packet with
  | none => s.setSender i (.relay link none)
  | some frame =>
    { s.setSender i (.relay link (if accepted then restOf rest else none)) with sealed := frame :: s.sealed }

end System

def step (s : System) : Action → Option System
  | .pair listenerSecret connectorSecret =>
    some { s with
      issued := s.issued + 1
      ready := ⟨.listener, listenerSecret, s.issued⟩ :: ⟨.connector, connectorSecret, s.issued⟩ :: s.ready }
  | .spoke peerId overlay carriers connectorSecret =>
    some { s with
      issued := s.issued + 1
      ready := ⟨.connector, connectorSecret, s.issued⟩ :: s.ready
      events := s.events ++ [HubEvent.received (.join peerId overlay s.issued carriers)] }
  | .build k =>
    match s.ready[k]? with
    | none => none
    | some endpoint => some { s.makeRelay (endpoint.keys) with ready := s.ready.eraseIdx k }
  | .leave peerId => some { s with events := s.events ++ [.leave peerId] }
  | .event built =>
    match s.events with
    | [] => none
    | event :: events => some ({ s with events := events }.takeEvent event built)
  | .substream peerId tag built => some (s.takeSubstream peerId tag built)
  | .clone i =>
    match s.senders[i]? with
    | none => none
    | some sender => some { s with senders := s.senders ++ [sender.clone] }
  | .upgrade i =>
    match s.senders[i]? with
    | some (.relay _ none) => some (s.setSender i .direct)
    | _ => none
  | .fallBack i j =>
    match s.senders[i]?, s.senders[j]? with
    | some .direct, some sender => some (s.setSender i sender.clone)
    | _, _ => none
  | .drop i => some (s.setSender i .dropped)
  | .send i packets =>
    match s.senders[i]? with
    | some (.relay link none) => some (s.setSender i (.relay link (System.restOf packets)))
    | _ => none
  | .fetch i =>
    match s.senders[i]? with
    | some (.relay link (some ⟨packets, none⟩)) =>
      match s.links[link]? with
      | none => none
      | some shared => some { s.setSender i (.relay link (some ⟨packets, some shared.counter⟩)) with
          links := s.links.set link { shared with counter := shared.counter + 1 } }
    | _ => none
  | .encrypt i accepted =>
    match s.senders[i]? with
    | some (.relay link (some ⟨packet :: rest, some counter⟩)) =>
      match s.links[link]? with
      | none => none
      | some shared => some (s.sealPacket i link shared.key counter packet rest accepted)
    | _ => none

def start (hubSecret : String) : System := ⟨hubSecret, 0, [], [], ⟨∅, ∅, ∅, 0⟩, [], [], []⟩

/-- No counter is drawn twice: `fetch_add` does not wrap. -/
def staysBelow (s : System) : Action → Bool
  | .fetch i =>
    match s.senders[i]? with
    | some (.relay link _) => (s.links[link]?).all (fun shared => shared.counter != 0xFFFFFFFFFFFFFFFF)
    | _ => true
  | _ => true

end Bore.VpnRelay
