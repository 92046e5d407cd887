import Bore.Ipv4Pool
import Bore.Runs

namespace Bore.VpnServer

open Ipv4Pool

inductive VpnAddrRequest
  | pool
  | static (addr : UInt32) (prefixLen : UInt8) (peer : UInt32)
  deriving DecidableEq

structure HelloVpn where
  id : String
  advertised : List Ipv4Net
  addr : VpnAddrRequest
  carriers : UInt16
  maxClients : UInt16
  deriving DecidableEq

structure ConnectVpn where
  id : String
  advertised : List Ipv4Net
  addr : VpnAddrRequest
  carriers : UInt16
  deriving DecidableEq

/-- What a listener registers. `opener` is its connection and, in 1:1 mode, also the
handler that waits at the other end of `pair_tx`. -/
structure VpnProviderEntry where
  advertised : List Ipv4Net
  addr : VpnAddrRequest
  opener : Nat
  hub : Bool
  carriers : UInt16
  session : Nat
  deriving DecidableEq

structure VpnReady where
  assigned : UInt32
  peerOverlay : UInt32
  peerAdvertised : List Ipv4Net
  carriers : UInt16
  deriving DecidableEq

structure Config where
  maxCarriers : UInt16
  hubPrefix : UInt8

section Checks

def maxVpnIdLen : Nat := 128

def maxAdvertisedCidrs : Nat := 64

def validateLinkParams (id : String) (advertised : List Ipv4Net) : Bool :=
  id.utf8ByteSize ≤ maxVpnIdLen && advertised.length ≤ maxAdvertisedCidrs

def firstOverlap : List Ipv4Net → Option (Ipv4Net × Ipv4Net)
  | [] => none
  | net :: rest =>
    match rest.find? net.overlaps with
    | some other => some (net, other)
    | none => firstOverlap rest

def checkOverlap (listenerAdvertised connectorAdvertised : List Ipv4Net) (overlay : Ipv4Net) :
    Option (Ipv4Net × Ipv4Net) :=
  firstOverlap (overlay :: listenerAdvertised ++ connectorAdvertised)

def validateStatic (listenerAddr : UInt32) (listenerPrefix : UInt8) (listenerPeer connectorAddr : UInt32)
    (connectorPrefix : UInt8) (connectorPeer : UInt32) : Bool :=
  listenerAddr == connectorPeer && connectorAddr == listenerPeer && listenerPrefix == connectorPrefix
    && listenerAddr != connectorAddr && (⟨listenerAddr, listenerPrefix⟩ : Ipv4Net).contains connectorAddr

def effectiveCarriers (config : Config) (entry : VpnProviderEntry) (connect : ConnectVpn) : UInt16 :=
  min (min (max entry.carriers 1) (max connect.carriers 1)) (max config.maxCarriers 1)

end Checks

inductive Block
  | slash30 (net : UInt32)
  | hub (net : UInt32)

/-- Where a handler is. A handler that returns drops its registration first and its
lease guard last. -/
inductive Phase
  | arrived
  | refused
  | leased
  | waiting
  | serving
  | paired (ready : VpnReady)
  | looked (entry : VpnProviderEntry)
  | addressed (entry : VpnProviderEntry) (listenerReady : VpnReady)
  | announced (entry : VpnProviderEntry) (listenerReady : VpnReady)
  | linked
  | spoke
  | returning (registered : Bool)
  deriving DecidableEq

inductive Role
  | listener (hello : HelloVpn) (session : Nat)
  | connector (connect : ConnectVpn)

/-- A running handler. `lease` is what it has allocated, and `guarded` says whether
a drop guard frees it. -/
structure Handler where
  role : Role
  phase : Phase
  lease : Option Block
  guarded : Bool

/-- A connector took the registration under its ID away: what it had read before,
what it took, and whether its message arrived. -/
structure Taken where
  read : VpnProviderEntry
  removed : VpnProviderEntry
  delivered : Bool
  deriving DecidableEq

structure Server where
  providers : Table String VpnProviderEntry
  pool : Option VpnPool
  handlers : Table Nat Handler
  nextSession : Nat
  taken : List Taken

/-- One step of a handler between two points at which others may run. -/
inductive Action
  | listen (h : Nat) (hello : HelloVpn)
  | connect (h : Nat) (connect : ConnectVpn)
  | openListener (h : Nat) (permit : Bool)
  | registerHub (h : Nat)
  | lookup (h : Nat) (permit : Bool)
  | address (h : Nat)
  | announce (h : Nat)
  | pair (h : Nat)
  | leave (h : Nat)
  | deregister (h : Nat)
  | finish (h : Nat)
  deriving DecidableEq

namespace Server

variable (config : Config) (s : Server)

def setHandler (h : Nat) (handler : Handler) : Server := { s with handlers := s.handlers.insert h handler }

def setPhase (h : Nat) (handler : Handler) (phase : Phase) : Server := s.setHandler h { handler with phase := phase }

def entryFor (h : Nat) (hello : HelloVpn) (session : Nat) (hub : Bool) : VpnProviderEntry :=
  ⟨hello.advertised, hello.addr, h, hub, hello.carriers, session⟩

def register (h : Nat) (handler : Handler) (hello : HelloVpn) (session : Nat) (hub : Bool) : Server :=
  match s.providers.get? hello.id with
  | some _ => s.setPhase h handler .refused
  | none =>
    { s.setPhase h handler (if hub then .serving else .waiting) with
      providers := s.providers.insert hello.id (entryFor h hello session hub) }

def effectiveMaxClients (hello : HelloVpn) : UInt16 := if hello.maxClients = 0 then 1 else hello.maxClients

/-- The subnet is allocated first and guarded only after the overlap check. -/
def openHub (h : Nat) (handler : Handler) (hello : HelloVpn) : Server :=
  if hello.addr ≠ .pool then s.setPhase h handler .refused
  else match s.pool with
    | none => s.setPhase h handler .refused
    | some pool =>
      match pool.allocHubSubnet config.hubPrefix with
      | none => s.setPhase h handler .refused
      | some (pool, subnet) =>
        let allocated := { s with pool := some pool }
        let lease := some (.hub subnet.network)
        if (checkOverlap hello.advertised [] subnet).isSome then
          allocated.setHandler h { handler with phase := .refused, lease := lease }
        else allocated.setHandler h { handler with phase := .leased, lease := lease, guarded := true }

def openListener (h : Nat) (handler : Handler) (hello : HelloVpn) (session : Nat) (permit : Bool) : Server :=
  if !validateLinkParams hello.id hello.advertised || !permit then s.setPhase h handler .refused
  else if 1 < effectiveMaxClients hello then s.openHub config h handler hello
  else s.register h handler hello session false

def lookupEntry (h : Nat) (handler : Handler) (connect : ConnectVpn) (permit : Bool) : Server :=
  if !validateLinkParams connect.id connect.advertised || !permit then s.setPhase h handler .refused
  else match s.providers.get? connect.id with
    | none => s.setPhase h handler .refused
    | some entry => s.setPhase h handler (if entry.hub then .spoke else .looked entry)

def checkAddresses (h : Nat) (handler : Handler) (connect : ConnectVpn) (entry : VpnProviderEntry)
    (listenerOverlay connectorOverlay : UInt32) : Server :=
  if (checkOverlap entry.advertised connect.advertised ⟨listenerOverlay, 30⟩).isSome then s.setPhase h handler .refused
  else s.setPhase h handler (.addressed entry
    ⟨listenerOverlay, connectorOverlay, connect.advertised, effectiveCarriers config entry connect⟩)

def addressEntry (h : Nat) (handler : Handler) (connect : ConnectVpn) (entry : VpnProviderEntry) : Server :=
  match entry.addr, connect.addr with
  | .pool, .pool =>
    match s.pool with
    | none => s.setPhase h handler .refused
    | some pool =>
      match pool.alloc with
      | none => s.setPhase h handler .refused
      | some (pool, net) =>
        { s with pool := some pool }.checkAddresses config h
          { handler with lease := some (.slash30 (net + 1 - 1)), guarded := true } connect entry (net + 1) (net + 2)
  | .static listenerAddr listenerPrefix listenerPeer, .static connectorAddr connectorPrefix connectorPeer =>
    if validateStatic listenerAddr listenerPrefix listenerPeer connectorAddr connectorPrefix connectorPeer then
      s.checkAddresses config h handler connect entry listenerAddr connectorAddr
    else s.setPhase h handler .refused
  | _, _ => s.setPhase h handler .refused

def isWaiting (opener : Nat) : Bool :=
  match s.handlers.get? opener with
  | some handler => handler.phase == .waiting
  | none => false

def pairEntry (h : Nat) (handler : Handler) (connect : ConnectVpn) (read : VpnProviderEntry) (ready : VpnReady) : Server :=
  match s.providers.get? connect.id with
  | none => s.setPhase h handler (.returning false)
  | some entry =>
    let delivered := !entry.hub && s.isWaiting entry.opener
    let removed : Server := { s with
      providers := s.providers.erase connect.id
      taken := ⟨read, entry, delivered⟩ :: s.taken }
    if delivered then
      { removed with
        handlers := (s.handlers.insert h { handler with phase := .linked }).modify entry.opener
          (fun listener => { listener with phase := .paired ready }) }
    else removed.setPhase h handler (.returning false)

def deregister (hello : HelloVpn) (session : Nat) : Server :=
  match s.providers.get? hello.id with
  | some entry => if entry.session = session then { s with providers := s.providers.erase hello.id } else s
  | none => s

theorem deregister_frame (hello : HelloVpn) (session : Nat) :
    s.deregister hello session = { s with providers := (s.deregister hello session).providers } := by
  rw [deregister]
  split
  · split <;> rfl
  · rfl

def finish (h : Nat) (handler : Handler) : Server :=
  let freed := match handler.lease, handler.guarded with
    | some (.slash30 net), true => s.pool.map (fun pool => pool.free net)
    | some (.hub net), true => s.pool.map (fun pool => pool.freeHubSubnet net)
    | _, _ => s.pool
  { s with pool := freed, handlers := s.handlers.erase h }

end Server

def Phase.isRegistered : Phase → Bool
  | .waiting | .serving | .paired _ => true
  | _ => false

def step (config : Config) (s : Server) : Action → Option Server
  | .listen h hello =>
    if s.handlers.contains h then none
    else some { s.setHandler h ⟨.listener hello s.nextSession, .arrived, none, false⟩ with
      nextSession := s.nextSession + 1 }
  | .connect h connect =>
    if s.handlers.contains h then none else some (s.setHandler h ⟨.connector connect, .arrived, none, false⟩)
  | .openListener h permit =>
    match s.handlers.get? h with
    | some ⟨.listener hello session, .arrived, none, false⟩ =>
      some (s.openListener config h ⟨.listener hello session, .arrived, none, false⟩ hello session permit)
    | _ => none
  | .registerHub h =>
    match s.handlers.get? h with
    | some ⟨.listener hello session, .leased, lease, guarded⟩ =>
      some (s.register h ⟨.listener hello session, .leased, lease, guarded⟩ hello session true)
    | _ => none
  | .lookup h permit =>
    match s.handlers.get? h with
    | some ⟨.connector connect, .arrived, lease, guarded⟩ =>
      some (s.lookupEntry h ⟨.connector connect, .arrived, lease, guarded⟩ connect permit)
    | _ => none
  | .address h =>
    match s.handlers.get? h with
    | some ⟨.connector connect, .looked entry, none, false⟩ =>
      some (s.addressEntry config h ⟨.connector connect, .looked entry, none, false⟩ connect entry)
    | _ => none
  | .announce h =>
    match s.handlers.get? h with
    | some ⟨role, .addressed entry ready, lease, guarded⟩ =>
      some (s.setHandler h ⟨role, .announced entry ready, lease, guarded⟩)
    | _ => none
  | .pair h =>
    match s.handlers.get? h with
    | some ⟨.connector connect, .announced entry ready, lease, guarded⟩ =>
      some (s.pairEntry h ⟨.connector connect, .announced entry ready, lease, guarded⟩ connect entry ready)
    | _ => none
  | .leave h =>
    match s.handlers.get? h with
    | some ⟨_, .returning _, _, _⟩ => none
    | some handler => some (s.setPhase h handler (.returning handler.phase.isRegistered))
    | none => none
  | .deregister h =>
    match s.handlers.get? h with
    | some ⟨.listener hello session, .returning true, lease, guarded⟩ =>
      some ((s.deregister hello session).setHandler h ⟨.listener hello session, .returning false, lease, guarded⟩)
    | _ => none
  | .finish h =>
    match s.handlers.get? h with
    | some ⟨role, .returning false, lease, guarded⟩ => some (s.finish h ⟨role, .returning false, lease, guarded⟩)
    | _ => none

def start (cidr : Option Ipv4Net) : Server := ⟨∅, cidr.bind VpnPool.new, ∅, 1, []⟩

end Bore.VpnServer
