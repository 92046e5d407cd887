import Bore.RegistryCatalogue
import Bore.Runs

namespace Bore.PeerSession

open RegistryTypes RegistryCatalogue

/-- The manifests a client may publish, the bytes the room stores for one and
the JSON those bytes are read back as. -/
structure ManifestCodec (Manifest Value : Type) where
  canonical : Manifest → Bytes
  fromSlice : Bytes → Option Value
  reads : ∀ m, (fromSlice (canonical m)).isSome

inductive Message (Value : Type)
  | welcome (peerId : PeerId) (displayName : String) (relayOnly : Bool)
  | snapshotBegin (revision : Nat)
  | snapshotPeer (peerId : PeerId) (displayName : Option String) (revision : Nat)
  | snapshotOffer (peerId : PeerId) (offerId : OfferId) (manifest : Value) (mac : Digest) (revision : Nat)
  | snapshotEnd (revision : Nat)
  | peerJoined (peerId : PeerId) (displayName : Option String) (revision : Nat)
  | peerRenamed (peerId : PeerId) (displayName : String) (revision : Nat)
  | peerLeft (peerId : PeerId) (revision : Nat)
  | offerAdded (peerId : PeerId) (offerId : OfferId) (manifest : Value) (mac : Digest) (revision : Nat)
  | offerRemoved (peerId : PeerId) (offerId : OfferId) (revision : Nat)
  | roomClosed (reason : String)

structure BrowserOffer (Value : Type) where
  peerId : PeerId
  manifest : Value
  mac : Digest

structure BrowserState (Value : Type) where
  selfPeerId : Option PeerId := none
  displayName : Option String := none
  relayOnly : Bool := false
  peers : Table PeerId (Option String) := ∅
  offers : Table OfferId (BrowserOffer Value) := ∅
  closed : Bool := false

variable {Manifest Value : Type}

/-- `messageToEvent` followed by `reduce`; revisions are not looked at. -/
def reduce (state : BrowserState Value) : Message Value → BrowserState Value
  | .welcome peerId displayName relayOnly =>
    { state with selfPeerId := some peerId, displayName := some displayName, relayOnly := relayOnly }
  | .snapshotBegin _ => { state with peers := ∅, offers := ∅ }
  | .snapshotPeer peerId displayName _ | .peerJoined peerId displayName _ =>
    { state with peers := state.peers.insert peerId displayName }
  | .peerRenamed peerId displayName _ =>
    if state.peers.contains peerId then { state with peers := state.peers.insert peerId (some displayName) }
    else state
  | .peerLeft peerId _ =>
    if state.peers.contains peerId then
      { state with
        peers := state.peers.erase peerId
        offers := state.offers.retain (fun _ offer => offer.peerId ≠ peerId) }
    else state
  | .snapshotOffer peerId offerId manifest mac _ | .offerAdded peerId offerId manifest mac _ =>
    { state with offers := state.offers.insert offerId ⟨peerId, manifest, mac⟩ }
  | .offerRemoved _ offerId _ =>
    if state.offers.contains offerId then { state with offers := state.offers.erase offerId } else state
  | .snapshotEnd _ => state
  | .roomClosed _ => { state with closed := true }

/-- The revision and every peer by ascending identifier, under the room lock. -/
def snapshotParts (room : Room) : Nat × List (PeerId × Option String) :=
  (room.revision, (room.peers.entries.map (fun e => (e.1, e.2.displayName))).insertionSort (fun a b => a.1 ≤ b.1))

structure OfferView where
  peer : PeerId
  offer : OfferId
  manifest : Bytes
  mac : Digest

def offerViews (room : Room) : List OfferView :=
  (room.offers.entries.map (fun e => OfferView.mk e.2.owner e.1 e.2.manifest e.2.mac)).insertionSort
    (fun a b => a.offer ≤ b.offer)

variable (codec : ManifestCodec Manifest Value)

def snapshotOffers (revision : Nat) : List OfferView → Except WebTransferError (List (Message Value))
  | [] => .ok []
  | view :: rest =>
    match codec.fromSlice view.manifest with
    | none => .error (.internal "stored manifest is not JSON")
    | some manifest =>
      (snapshotOffers revision rest).map (.snapshotOffer view.peer view.offer manifest view.mac revision :: ·)

def snapshotOfferStrings (revision : Nat) (peers : List (PeerId × Option String)) (offers : List OfferView) :
    Except WebTransferError (List (Message Value)) :=
  (snapshotOffers codec revision offers).map (fun messages =>
    .snapshotBegin revision ::
      (peers.map (fun e => .snapshotPeer e.1 e.2 revision) ++ messages ++ [.snapshotEnd revision]))

def initialMessages (room : Room) (peer : PeerId) (revision : Nat)
    (peers : List (PeerId × Option String)) (offers : List OfferView) :
    Except WebTransferError (List (Message Value)) :=
  let name := ((peers.find? (fun e => e.1 == peer)).bind Prod.snd).getD (defaultDisplayName peer)
  (snapshotOfferStrings codec revision peers offers).map (.welcome peer name room.relayOnly :: ·)

/-- The message of a broadcast event. The session loop itself answers
`RoomClosed`, with the room's last message. -/
def roomEventMessage : RoomEvent → Option (Message Value)
  | .peerJoined peer displayName revision => some (.peerJoined peer displayName revision)
  | .peerRenamed peer displayName revision => some (.peerRenamed peer displayName revision)
  | .peerLeft peer revision => some (.peerLeft peer revision)
  | .offerAdded peer offer manifest mac revision =>
    (codec.fromSlice manifest).map (fun value => .offerAdded peer offer value mac revision)
  | .offerRemoved peer offer revision => some (.offerRemoved peer offer revision)
  | .roomClosed reason => some (.roomClosed reason)

def deliver (browser : BrowserState Value) (event : RoomEvent) : BrowserState Value :=
  match roomEventMessage codec event with
  | some message => reduce browser message
  | none => browser

def eventCapacity : Nat := 256

/-- What a subscriber has not read yet. The channel keeps the last events only,
and a subscriber that fell behind is told so by its next read. -/
structure Receiver where
  unread : List RoomEvent
  lagged : Bool

def Receiver.push (receiver : Receiver) (event : RoomEvent) : Receiver :=
  if receiver.unread.length < eventCapacity then { receiver with unread := receiver.unread ++ [event] }
  else ⟨receiver.unread.tail ++ [event], true⟩

/-- How far the session has come: the steps of `establish`, the control loop
with the page it feeds, and the two reads of `build_resync`. `seen` is the
room's revision at the time `offer_views` held the lock; the source does not
keep it. -/
inductive Phase (Value : Type)
  | offline
  | joined (peer : PeerId)
  | parts (peer : PeerId) (revision : Nat) (peers : List (PeerId × Option String))
  | views (peer : PeerId) (revision : Nat) (peers : List (PeerId × Option String)) (offers : List OfferView)
      (seen : Nat)
  | live (browser : BrowserState Value) (receiver : Receiver)
  | resync (browser : BrowserState Value) (receiver : Receiver) (revision : Nat)
      (peers : List (PeerId × Option String))
  | ended

abbrev Connection := Nat

/-- A room with its connections. Each connection is one task, which broadcasts
the events of an operation after the lock is released and before it goes on;
`sending` has the operations that are not through, in the order of their locks.
One session is followed in detail. -/
structure System (Value : Type) where
  scope : Scope
  destroyed : Bool
  connections : Table Connection PeerId
  sending : List (Connection × List RoomEvent)
  phase : Phase Value

inductive Action (Manifest : Type)
  | join (connection : Connection) (peer : PeerId) (displayName : Option String)
  | rename (connection : Connection) (rawName : String)
  | publish (connection : Connection) (offer manifestOffer : OfferId) (manifest : Manifest) (mac : Digest)
  | withdraw (now : Instant) (connection : Connection) (offer : OfferId)
  | leave (now : Instant) (connection : Connection)
  | send (connection : Connection)
  | snapshotParts
  | offerViews
  | subscribe (now : Instant)
  | receive (now : Instant)

def unsent (sending : List (Connection × List RoomEvent)) : List RoomEvent := sending.flatMap Prod.snd

def popEvent (connection : Connection) :
    List (Connection × List RoomEvent) → Option (RoomEvent × List (Connection × List RoomEvent))
  | [] => none
  | (c, events) :: rest =>
    if c = connection then
      match events with
      | [] => none
      | [event] => some (event, rest)
      | event :: next :: events => some (event, (c, next :: events) :: rest)
    else (popEvent connection rest).map (fun r => (r.1, (c, events) :: r.2))

namespace System

def announce (s : System Value) (connection : Connection) (scope : Scope) (events : List RoomEvent) : System Value :=
  { s with scope := scope, sending := if events.isEmpty then s.sending else s.sending ++ [(connection, events)] }

/-- The peer a connection may act for: it has joined, its last operation is
through and, in the session that is followed, the control loop runs. -/
def actor (me : Connection) (s : System Value) (connection : Connection) : Option PeerId :=
  if s.sending.any (fun e => e.1 == connection) then none
  else if connection = me then
    match s.phase with
    | .live _ _ => s.connections.get? connection
    | _ => none
  else s.connections.get? connection

/-- Dropping a session removes its peer. A room whose revisions run out is
closed instead of announcing the departure. -/
def depart (now : Instant) (connection : Connection) (peer : PeerId) (s : System Value) : System Value :=
  let s := { s with connections := s.connections.erase connection }
  match removePeer now peer s.scope with
  | (scope, none) => { s with scope := scope }
  | (scope, some departure) =>
    if departure.exhausted then
      { s.announce connection scope (if s.destroyed then [] else [.roomClosed "revision-exhausted"]) with
        destroyed := true }
    else s.announce connection scope departure.events

def broadcast (s : System Value) (event : RoomEvent) : System Value :=
  match s.phase with
  | .live browser receiver => { s with phase := .live browser (receiver.push event) }
  | .resync browser receiver revision peers => { s with phase := .resync browser (receiver.push event) revision peers }
  | _ => s

/-- The control loop reads one event, or learns that it fell behind and takes
the first part of a fresh snapshot. -/
def receive (now : Instant) (me : Connection) (browser : BrowserState Value) (receiver : Receiver) (s : System Value) :
    Option (System Value) :=
  if receiver.lagged then
    let parts := snapshotParts s.scope.room
    some { s with phase := .resync browser { receiver with lagged := false } parts.1 parts.2 }
  else match receiver.unread with
    | [] => none
    | .roomClosed _ :: _ =>
      match s.connections.get? me with
      | none => some { s with phase := .ended }
      | some peer => some { s.depart now me peer with phase := .ended }
    | event :: rest => some { s with phase := .live (deliver codec browser event) { receiver with unread := rest } }

end System

def step (cfg : Config) (me : Connection) (s : System Value) :
    Action Manifest → Option (System Value)
  | .join connection peer displayName =>
    if s.connections.contains connection || s.sending.any (fun e => e.1 == connection) then none
    else match joinPeer cfg peer displayName s.scope with
      | (scope, .error _) => some { s with scope := scope }
      | (scope, .ok event) =>
        let s := { s.announce connection scope [event] with connections := s.connections.insert connection peer }
        if connection = me then
          match s.phase with
          | .offline => some { s with phase := .joined peer }
          | _ => none
        else some s
  | .rename connection rawName =>
    match s.actor me connection with
    | none => none
    | some peer =>
      match renamePeer cfg peer rawName s.scope.room with
      | (_, .error _) => some s
      | (room, .ok event) => some (s.announce connection { s.scope with room := room } [event])
  | .publish connection offer manifestOffer manifest mac =>
    match s.actor me connection with
    | none => none
    | some peer =>
      match publishOffer cfg peer offer manifestOffer (codec.canonical manifest) mac s.scope with
      | (scope, .error _) => some { s with scope := scope }
      | (scope, .ok event) => some (s.announce connection scope event.toList)
  | .withdraw now connection offer =>
    match s.actor me connection with
    | none => none
    | some peer =>
      match withdrawOffer now peer offer s.scope with
      | (scope, .ok (some (event, _))) => some (s.announce connection scope [event])
      | (scope, _) => some { s with scope := scope }
  | .leave now connection =>
    match s.actor me connection with
    | none => none
    | some peer =>
      if connection = me then some { s.depart now connection peer with phase := .ended }
      else some (s.depart now connection peer)
  | .send connection =>
    match popEvent connection s.sending with
    | none => none
    | some (event, sending) => some (System.broadcast { s with sending := sending } event)
  | .snapshotParts =>
    match s.phase with
    | .joined peer =>
      -- `join_peer` has broadcast before it returns to `establish`
      if s.sending.any (fun e => e.1 == me) then none
      else
        let parts := PeerSession.snapshotParts s.scope.room
        some { s with phase := .parts peer parts.1 parts.2 }
    | _ => none
  | .offerViews =>
    match s.phase with
    | .parts peer revision peers =>
      some { s with phase := .views peer revision peers (PeerSession.offerViews s.scope.room) s.scope.room.revision }
    | .resync browser receiver revision peers =>
      match snapshotOfferStrings codec revision peers (PeerSession.offerViews s.scope.room) with
      | .ok messages => some { s with phase := .live (messages.foldl reduce browser) receiver }
      | .error _ => some { s with phase := .ended }
    | _ => none
  | .subscribe now =>
    match s.phase with
    | .views peer revision peers offers _ =>
      match initialMessages codec s.scope.room peer revision peers offers with
      | .ok messages => some { s with phase := .live (messages.foldl reduce {}) ⟨[], false⟩ }
      | .error _ => some { s.depart now me peer with phase := .ended }
    | _ => none
  | .receive now =>
    match s.phase with
    | .live browser receiver => s.receive codec now me browser receiver
    | _ => none

end Bore.PeerSession
