import Bore.Runs
import Bore.Table

namespace Bore.DirectEndpoint

abbrev Text := List Char

abbrev Nonce := Nat

def portMark : Text := ['p', 'o', 'r', 't', ':']

def jumpMark : Text := ['j', 'u', 'm', 'p', ':']

def publicKey (port : UInt16) : Text := portMark ++ Nat.toDigits 10 port.toNat

def directKey (name : Text) : Text := jumpMark ++ name

def startsWith (mark key : Text) : Bool := mark.isPrefixOf key

def stripMark (mark key : Text) : Option Text := if startsWith mark key then some (key.drop mark.length) else none

def byteLength (text : Text) : Nat := (text.map Char.utf8Size).sum

def maxServerDirectKeyLen : Nat := 128

def maxDirectCarriers : Nat := 32

def isLabelChar (c : Char) : Bool := c.isLower || c.isDigit || c == '-'

/-- `validate_label` of the SSH gateway and `validate_alias`, both with a
limit of 63 bytes. -/
def validateLabel (label : Text) : Bool :=
  !label.isEmpty && label.length ≤ 63 && label.all isLabelChar && label.head? != some '-' && label.getLast? != some '-'

/-- What the vhost configuration says about labels. `toLowercase` is the
full Unicode mapping of the standard library. -/
structure Config where
  toLowercase : Text → Text
  reservations : List (Text × Text)
  reservedLabel : Option Text

namespace Config

variable (cfg : Config)

def reserved (label : Text) : Bool :=
  match cfg.reservedLabel with
  | none => false
  | some reserved => reserved.map Char.toLower == label.map Char.toLower

def resolveRoute (subdomain clientId : Text) : Bool :=
  match cfg.reservations.find? (fun r => cfg.toLowercase r.1 == cfg.toLowercase subdomain) with
  | some reservation => reservation.2 == clientId
  | none => true

end Config

inductive Kind
  | vhost (label : Text)
  | publicPort (port : UInt16)
  | jump (name : Text)
  deriving DecidableEq

/-- Where the task that serves a tunnel stands. A gateway forward is
`entered` until it has its row in the owners table; the last three are the
steps of the guard's `drop`. -/
inductive Phase
  | entered
  | serving
  | closed
  | removed (own : Bool)
  deriving DecidableEq

/-- `gateway` is the identity of a forward that came through the SSH gateway. -/
structure Tunnel where
  kind : Kind
  gateway : Option Text
  udp : Bool
  phase : Phase

structure PendingSshJumpNonce where
  nonce : Nonce
  ownerId : Nat

structure DirectMember where
  id : Nat
  conn : Nat
  deriving DecidableEq

structure DirectPool where
  conns : List DirectMember
  ids : Nat
  deriving DecidableEq

/-- The task of one accepted QUIC connection. `accepted` carries
`matched_jump_owner`. -/
inductive Stage
  | asked
  | missedVhost
  | missedPublic
  | accepted (owner : Nat)
  | admitted (owner : Nat)
  | found (registration : Nat)
  | installed (registration id : Nat)
  | closed
  deriving DecidableEq

structure Conn (T : Type) where
  key : Text
  received : T
  permit : Bool
  stage : Stage

/-- The registries, the pending nonces and the connections of one server.
Registrations are numbered from one; `issued` lists every nonce with the
registration it was sent to. -/
structure State (T : Type) where
  tunnels : Table Nat Tunnel
  nextId : Nat
  vhostRegistry : Table Text Nat
  publicRegistry : Table Text Nat
  jumpRegistry : Table Text Nat
  vhostOwners : Table Text (Text × Nat)
  jumpOwners : Table Text (Text × Nat)
  vhostPending : Table Text Nonce
  publicPending : Table Text Nonce
  jumpPending : Table Text PendingSshJumpNonce
  pools : Table Nat DirectPool
  issued : List (Nat × Nonce)
  conns : Table Nat (Conn T)
  permits : Option Nat

inductive Action (T : Type)
  | register (kind : Kind) (gateway : Option Text) (udp : Bool) (clientId : Text)
  | own (r : Nat)
  | abandon (r : Nat)
  | takeover (kind : Kind) (newcomer : Text)
  | offer (r : Nat) (nonce : Nonce)
  | renew (r : Nat) (asked : Kind) (nonce : Nonce)
  | endTunnel (r : Nat)
  | removeEntry (r : Nat)
  | removePending (r : Nat)
  | hello (c : Nat) (key : Text) (received : T)
  | lookupVhost (c : Nat)
  | lookupPublic (c : Nat)
  | lookupJump (c : Nat)
  | admitDirect (c : Nat)
  | resolve (c : Nat)
  | install (c : Nat)
  | finish (c : Nat)
  deriving DecidableEq

def removeIf {V : Type} (t : Table Text V) (name : Text) (p : V → Bool) : Table Text V :=
  if (t.get? name).any p then t.erase name else t

namespace State

variable {T : Type} (s : State T)

def start (permits : Option Nat) : State T := ⟨∅, 1, ∅, ∅, ∅, ∅, ∅, ∅, ∅, ∅, ∅, [], ∅, permits⟩

/-- A public tunnel keeps its listener until its guard is gone. -/
def bound (port : UInt16) : Bool := s.tunnels.values.any (fun t => t.kind == .publicPort port)

def vacant : Kind → Bool
  | .vhost label => !s.vhostRegistry.contains label
  | .publicPort port => !s.bound port
  | .jump name => !s.jumpRegistry.contains name

def setEntry (r : Nat) : Kind → State T
  | .vhost label => { s with vhostRegistry := s.vhostRegistry.insert label r }
  | .publicPort port => { s with publicRegistry := s.publicRegistry.insert (publicKey port) r }
  | .jump name => { s with jumpRegistry := s.jumpRegistry.insert name r }

def dropEntry (r : Nat) : Kind → State T
  | .vhost label => { s with vhostRegistry := removeIf s.vhostRegistry label (· == r) }
  | .publicPort port => { s with publicRegistry := removeIf s.publicRegistry (publicKey port) (· == r) }
  | .jump name => { s with jumpRegistry := removeIf s.jumpRegistry name (· == r) }

def holdsEntry (r : Nat) : Kind → Bool
  | .vhost label => s.vhostRegistry.get? label == some r
  | .publicPort port => s.publicRegistry.get? (publicKey port) == some r
  | .jump name => s.jumpRegistry.get? name == some r

def setOwner (r : Nat) (identity : Text) : Kind → State T
  | .vhost label => { s with vhostOwners := s.vhostOwners.insert label (identity, r) }
  | .publicPort _ => s
  | .jump name => { s with jumpOwners := s.jumpOwners.insert name (identity, r) }

def dropOwner (r : Nat) : Kind → State T
  | .vhost label => { s with vhostOwners := removeIf s.vhostOwners label (fun row => row.2 == r) }
  | .publicPort _ => s
  | .jump name => { s with jumpOwners := removeIf s.jumpOwners name (fun row => row.2 == r) }

def setPhase (r : Nat) (t : Tunnel) (phase : Phase) : State T :=
  { s with tunnels := s.tunnels.insert r { t with phase := phase } }

def closeAll (r : Nat) : State T := { s with pools := s.pools.modify r (fun pool => { pool with conns := [] }) }

/-- The `new_nonce` of an offer goes into the pending table before it is sent. -/
def sendUdpOffer (r : Nat) (nonce : Nonce) : Kind → State T
  | .vhost label => { s with vhostPending := s.vhostPending.insert label nonce, issued := (r, nonce) :: s.issued }
  | .publicPort port =>
    { s with publicPending := s.publicPending.insert (publicKey port) nonce, issued := (r, nonce) :: s.issued }
  | .jump name =>
    { s with jumpPending := s.jumpPending.insert (directKey name) ⟨nonce, r⟩, issued := (r, nonce) :: s.issued }

/-- Whether the server lets a client register: a label is only checked against
the configuration when it comes from a native provider. -/
def accepts (cfg : Config) (gateway : Option Text) (clientId : Text) : Kind → Bool
  | .vhost label =>
    !cfg.reserved label && cfg.resolveRoute label (gateway.getD clientId) && (gateway.isNone || validateLabel label)
  | .publicPort _ => gateway.isNone
  | .jump name => validateLabel name

/-- A gateway forward never has the direct path, a public tunnel without it
has no entry. -/
def udpAllowed (gateway : Option Text) (udp : Bool) : Kind → Bool
  | .publicPort _ => udp
  | _ => gateway.isNone || !udp

def register (cfg : Config) (kind : Kind) (gateway : Option Text) (udp : Bool) (clientId : Text) : Option (State T) :=
  if udpAllowed gateway udp kind && accepts cfg gateway clientId kind && s.vacant kind then
    let phase := if gateway.isNone then Phase.serving else .entered
    some ({ s with
      tunnels := s.tunnels.insert s.nextId ⟨kind, gateway, udp, phase⟩
      pools := s.pools.insert s.nextId ⟨[], 0⟩
      nextId := s.nextId + 1 }.setEntry s.nextId kind)
  else none

def own (r : Nat) : Option (State T) := do
  let t ← s.tunnels.get? r
  match t.gateway, t.phase with
  | some identity, .entered => some ((s.setOwner r identity t.kind).setPhase r t .serving)
  | _, _ => none

/-- A vhost forward whose session is gone removes the label, whoever holds it. -/
def abandon (r : Nat) : Option (State T) := do
  let t ← s.tunnels.get? r
  match t.kind, t.phase with
  | .vhost label, .entered => some { s with vhostRegistry := s.vhostRegistry.erase label, tunnels := s.tunnels.erase r }
  | _, _ => none

def evicts (owner : Option (Text × Nat)) (newcomer : Text) : Bool :=
  match owner with
  | none => false
  | some (identity, _) => !identity.isEmpty && !newcomer.isEmpty && identity == newcomer

def takeover (kind : Kind) (newcomer : Text) : Option (State T) :=
  match kind with
  | .vhost label =>
    if s.vhostRegistry.contains label && evicts (s.vhostOwners.get? label) newcomer then
      some { s with vhostRegistry := s.vhostRegistry.erase label, vhostOwners := s.vhostOwners.erase label }
    else some s
  | .publicPort _ => none
  | .jump name =>
    if s.jumpRegistry.contains name && evicts (s.jumpOwners.get? name) newcomer then
      some { s with jumpRegistry := s.jumpRegistry.erase name, jumpOwners := s.jumpOwners.erase name }
    else some s

def offer (r : Nat) (nonce : Nonce) : Option (State T) := do
  let t ← s.tunnels.get? r
  if t.phase = .serving ∧ t.udp ∧ nonce ∉ s.issued.map Prod.snd then some (s.sendUdpOffer r nonce t.kind) else none

def renew (r : Nat) (asked : Kind) (nonce : Nonce) : Option (State T) := do
  let t ← s.tunnels.get? r
  if t.phase = .serving then
    if asked = t.kind ∧ t.udp then s.offer r nonce else some s
  else none

/-- The tunnel's guard starts to drop. The guard of a vhost forward of the
gateway leaves the direct pool alone. -/
def endTunnel (r : Nat) : Option (State T) := do
  let t ← s.tunnels.get? r
  match t.phase, t.kind, t.gateway with
  | .serving, .vhost _, some _ => some (s.setPhase r t .closed)
  | .serving, .jump _, some _ => some (((s.dropOwner r t.kind).closeAll r).setPhase r t .closed)
  | .entered, .jump _, some _ => some ((s.closeAll r).setPhase r t .closed)
  | .serving, _, none => some ((s.closeAll r).setPhase r t .closed)
  | _, _, _ => none

def removeEntry (r : Nat) : Option (State T) := do
  let t ← s.tunnels.get? r
  match t.phase with
  | .closed => some ((s.dropEntry r t.kind).setPhase r t (.removed (s.holdsEntry r t.kind)))
  | _ => none

/-- The last part of the guards. Only the one of a jump host looks at whose
nonce it removes. -/
def removePending (r : Nat) : Option (State T) := do
  let t ← s.tunnels.get? r
  let s' := { s with tunnels := s.tunnels.erase r }
  match t.phase, t.kind with
  | .removed own, .jump name =>
    some (if own then { s' with jumpPending := removeIf s.jumpPending (directKey name) (fun p => p.ownerId == r) } else s')
  | .removed _, .publicPort port => some { s' with publicPending := s.publicPending.erase (publicKey port) }
  | .removed _, .vhost label =>
    match t.gateway with
    | some _ => some (s'.dropOwner r t.kind)
    | none => some (if t.udp then { s' with vhostPending := s.vhostPending.erase label } else s')
  | _, _ => none

def setConn (c : Nat) (conn : Conn T) : State T := { s with conns := s.conns.insert c conn }

def setStage (c : Nat) (conn : Conn T) (stage : Stage) : State T := s.setConn c { conn with stage := stage }

def hello (c : Nat) (key : Text) (received : T) : Option (State T) :=
  if s.conns.contains c then none
  else some (s.setConn c ⟨key, received, false, if maxServerDirectKeyLen < byteLength key then .closed else .asked⟩)

variable [DecidableEq T] (deriveToken : Nonce → T)

def checkToken (c : Nat) (conn : Conn T) (nonce : Nonce) (owner : Nat) : State T :=
  s.setStage c conn (if deriveToken nonce = conn.received then .accepted owner else .closed)

/-- The closure `lookup` reads the three tables one after the other. -/
def lookupVhost (c : Nat) : Option (State T) := do
  let conn ← s.conns.get? c
  if conn.stage = .asked then
    match s.vhostPending.get? conn.key with
    | some nonce => some (s.checkToken deriveToken c conn nonce 0)
    | none => some (s.setStage c conn .missedVhost)
  else none

def lookupPublic (c : Nat) : Option (State T) := do
  let conn ← s.conns.get? c
  if conn.stage = .missedVhost then
    match s.publicPending.get? conn.key with
    | some nonce => some (s.checkToken deriveToken c conn nonce 0)
    | none => some (s.setStage c conn .missedPublic)
  else none

def jumpNonce (key : Text) : Option PendingSshJumpNonce := do
  let pending ← s.jumpPending.get? key
  let name ← stripMark jumpMark key
  let entry ← s.jumpRegistry.get? name
  if pending.ownerId = entry then some pending else none

def lookupJump (c : Nat) : Option (State T) := do
  let conn ← s.conns.get? c
  if conn.stage = .missedPublic then
    match s.jumpNonce conn.key with
    | some pending => some (s.checkToken deriveToken c conn pending.nonce pending.ownerId)
    | none => some (s.setStage c conn .closed)
  else none

def admitDirect (c : Nat) : Option (State T) := do
  let conn ← s.conns.get? c
  match conn.stage, s.permits with
  | .accepted owner, none => some (s.setStage c conn (.admitted owner))
  | .accepted _, some 0 => some (s.setStage c conn .closed)
  | .accepted owner, some (n + 1) =>
    some { s.setConn c { conn with stage := .admitted owner, permit := true } with permits := some n }
  | _, _ => none

def target (key : Text) (owner : Nat) : Option Nat :=
  match stripMark jumpMark key with
  | some name => (s.jumpRegistry.get? name).filter (fun r => owner == r)
  | none => if startsWith portMark key then s.publicRegistry.get? key else s.vhostRegistry.get? key

def resolve (c : Nat) : Option (State T) := do
  let conn ← s.conns.get? c
  match conn.stage with
  | .admitted owner =>
    match s.target conn.key owner with
    | some r => some (s.setStage c conn (.found r))
    | none => some (s.setStage c conn .closed)
  | _ => none

def install (c : Nat) : Option (State T) := do
  let conn ← s.conns.get? c
  match conn.stage with
  | .found r =>
    let pool ← s.pools.get? r
    if maxDirectCarriers ≤ pool.conns.length then some (s.setStage c conn .closed)
    else
      some { s.setStage c conn (.installed r pool.ids) with
        pools := s.pools.insert r ⟨pool.conns ++ [⟨pool.ids, c⟩], pool.ids + 1⟩ }
  | _ => none

/-- The connection is gone: its monitor removes the member it installed, and
the permit is free again. -/
def finish (c : Nat) : Option (State T) := do
  let conn ← s.conns.get? c
  let s' := { s.setConn c { conn with stage := .closed, permit := false } with
    permits := if conn.permit then s.permits.map (· + 1) else s.permits }
  match conn.stage with
  | .installed r id =>
    some { s' with pools := s.pools.modify r (fun pool => { pool with conns := pool.conns.filter (fun m => m.id != id) }) }
  | _ => some s'

end State

open State

variable {T : Type} [DecidableEq T]

def step (cfg : Config) (deriveToken : Nonce → T) (s : State T) : Action T → Option (State T)
  | .register kind gateway udp clientId => s.register cfg kind gateway udp clientId
  | .own r => s.own r
  | .abandon r => s.abandon r
  | .takeover kind newcomer => s.takeover kind newcomer
  | .offer r nonce => s.offer r nonce
  | .renew r asked nonce => s.renew r asked nonce
  | .endTunnel r => s.endTunnel r
  | .removeEntry r => s.removeEntry r
  | .removePending r => s.removePending r
  | .hello c key received => s.hello c key received
  | .lookupVhost c => s.lookupVhost deriveToken c
  | .lookupPublic c => s.lookupPublic deriveToken c
  | .lookupJump c => s.lookupJump deriveToken c
  | .admitDirect c => s.admitDirect c
  | .resolve c => s.resolve c
  | .install c => s.install c
  | .finish c => s.finish c

end Bore.DirectEndpoint
