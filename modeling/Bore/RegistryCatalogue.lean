import Bore.Numerals
import Bore.RegistryOps

namespace Bore.RegistryCatalogue

open RegistryTypes RegistryOps
open Numerals (trim)

def maxDisplayNameChars : Nat := 48

def isControl (c : Char) : Bool :=
  let n := c.toNat
  n < 0x20 || (0x7F ≤ n && n < 0xA0)

def normalizeDisplayName (cfg : Config) (raw : String) : Except WebTransferError String :=
  let trimmed := trim (cfg.nfc raw).toList
  if trimmed.isEmpty then .error (.invalid "display name must not be empty")
  else if trimmed.any isControl then .error (.invalid "display name must not carry control characters")
  else if maxDisplayNameChars < trimmed.length then .error (.invalid "display name exceeds 48 characters")
  else .ok (String.ofList trimmed)

def defaultDisplayName (peer : PeerId) : String :=
  let digit (k : Nat) : Char := Nat.digitChar (peer / 16 ^ k % 16)
  "Peer " ++ String.ofList [digit 3, digit 2, digit 1, digit 0]

inductive RoomEvent
  | peerJoined (peer : PeerId) (displayName : Option String) (revision : Nat)
  | peerRenamed (peer : PeerId) (displayName : String) (revision : Nat)
  | peerLeft (peer : PeerId) (revision : Nat)
  | offerAdded (peer : PeerId) (offer : OfferId) (manifest : Bytes) (mac : Digest) (revision : Nat)
  | offerRemoved (peer : PeerId) (offer : OfferId) (revision : Nat)
  | roomClosed (reason : String)
  deriving DecidableEq

def joinLocked (cfg : Config) (peer : PeerId) (name : Option String) (s : Scope) :
    Scope × Except WebTransferError RoomEvent :=
  if cfg.limits.maxPeersPerRoom ≤ s.room.peers.size then
    ({ s with inner := refused s.inner }, .error (.limit "room peer budget exhausted"))
  else if s.room.peers.contains peer then (s, .error (.invalid "peer already joined"))
  else match checkedRoomRevision s.room.revision 1 with
    | .error e => (s, .error e)
    | .ok revision =>
      let resolved := some (name.getD (defaultDisplayName peer))
      ({ inner := { s.inner with peerPermits := s.inner.peerPermits - 1 }
         room := { s.room with peers := s.room.peers.insert peer ⟨resolved⟩, revision := revision } },
        .ok (.peerJoined peer resolved revision))

/-- The name is checked before any permit moves, and a rejection drops the
global permit again. -/
def joinPeer (cfg : Config) (peer : PeerId) (displayName : Option String) (s : Scope) :
    Scope × Except WebTransferError RoomEvent :=
  match displayName with
  | some raw =>
    match normalizeDisplayName cfg raw with
    | .error e => (s, .error e)
    | .ok name =>
      if s.inner.peerPermits = 0 then
        ({ s with inner := refused s.inner }, .error (.limit "web-transfer peer budget exhausted"))
      else joinLocked cfg peer (some name) s
  | none =>
    if s.inner.peerPermits = 0 then
      ({ s with inner := refused s.inner }, .error (.limit "web-transfer peer budget exhausted"))
    else joinLocked cfg peer none s

def openSession (peer : PeerId) (room : Room) : Room :=
  if room.sessions.contains peer then room else { room with sessions := peer :: room.sessions }

def renamePeer (cfg : Config) (peer : PeerId) (rawName : String) (room : Room) :
    Room × Except WebTransferError RoomEvent :=
  match normalizeDisplayName cfg rawName with
  | .error e => (room, .error e)
  | .ok name =>
    if !room.peers.contains peer then (room, .error (.invalid "unknown peer"))
    else match checkedRoomRevision room.revision 1 with
      | .error e => (room, .error e)
      | .ok revision =>
        ({ room with peers := room.peers.insert peer ⟨some name⟩, revision := revision },
          .ok (.peerRenamed peer name revision))

def offerCharge (manifestLen : Nat) : Except WebTransferError Nat :=
  if manifestLen + 64 ≤ u64Max then .ok (manifestLen + 64)
  else .error (.limit "web-transfer metadata budget exhausted")

/-- Publishing an offer; `none` is the acknowledged republish of equal bytes. -/
def publishOffer (cfg : Config) (peer : PeerId) (offer : OfferId) (manifestOffer : OfferId) (canonical : Bytes)
    (mac : Digest) (s : Scope) : Scope × Except WebTransferError (Option RoomEvent) :=
  if manifestOffer ≠ offer then (s, .error (.invalid "offer ID must match its manifest"))
  else match offerCharge canonical.length with
    | .error e => (s, .error e)
    | .ok charge =>
      if !s.room.peers.contains peer then (s, .error (.invalid "unknown peer"))
      else match s.room.offers.get? offer with
        | some existing =>
          if existing.owner = peer && existing.manifest = canonical && existing.mac = mac then (s, .ok none)
          else (s, .error (.offerChanged "offer ID already published"))
        | none =>
          if u64Max < s.inner.metadataCurrent + charge then
            (s, .error (.limit "web-transfer metadata budget exhausted"))
          else if cfg.limits.maxMetadataTotalBytes < s.inner.metadataCurrent + charge then
            ({ s with inner := refused s.inner }, .error (.limit "web-transfer metadata budget exhausted"))
          else if cfg.limits.maxOffersPerPeer ≤
              (s.room.offers.values.filter (fun o => o.owner == peer)).length then
            ({ s with inner := refused s.inner }, .error (.limit "peer offer budget exhausted"))
          else if u64Max < s.room.metadataBytes + charge then
            (s, .error (.limit "web-transfer metadata budget exhausted"))
          else if cfg.limits.maxMetadataPerRoomBytes < s.room.metadataBytes + charge then
            ({ s with inner := refused s.inner }, .error (.limit "web-transfer metadata budget exhausted"))
          else match checkedRoomRevision s.room.revision 1 with
            | .error e => (s, .error e)
            | .ok revision =>
              ({ inner := { s.inner with
                   offersCurrent := s.inner.offersCurrent + 1
                   metadataCurrent := s.inner.metadataCurrent + charge }
                 room := { s.room with
                   metadataBytes := s.room.metadataBytes + charge
                   offers := s.room.offers.insert offer ⟨peer, canonical, mac, charge⟩
                   revision := revision } },
                .ok (some (.offerAdded peer offer canonical mac revision)))

def dropOffer (s : Scope) (offer : OfferId) (record : OfferRecord) : Scope :=
  { inner := { s.inner with
      offersCurrent := s.inner.offersCurrent - 1
      metadataCurrent := s.inner.metadataCurrent - record.metadataBytes }
    room := { s.room with
      offers := s.room.offers.erase offer
      metadataBytes := s.room.metadataBytes - record.metadataBytes } }

/-- Withdrawing cancels every transfer of the offer; `none` means it was gone. -/
def withdrawOffer (now : Instant) (peer : PeerId) (offer : OfferId) (s : Scope) :
    Scope × Except WebTransferError (Option (RoomEvent × Outbox)) :=
  match s.room.offers.get? offer with
  | none => (s, .ok none)
  | some record =>
    if record.owner ≠ peer then (s, .error (.notParticipant "only the offer owner withdraws"))
    else match checkedRoomRevision s.room.revision 1 with
      | .error e => (s, .error e)
      | .ok revision =>
        let (s, outbox) := cancelWhereLocked now peer (fun r => r.offerId == offer) (dropOffer s offer record)
        ({ s with room := { s.room with revision := revision } },
          .ok (some (.offerRemoved peer offer revision, outbox)))

def removeOffers (peer : PeerId) (incremental : Bool) :
    List (OfferId × OfferRecord) → Scope → Nat → Scope × Nat × List RoomEvent
  | [], s, revision => (s, revision, [])
  | (offer, record) :: rest, s, revision =>
    let revision' := if incremental then revision + 1 else revision
    let (s', last, events) := removeOffers peer incremental rest (dropOffer s offer record) revision'
    (s', last, if incremental then .offerRemoved peer offer revision' :: events else events)

structure Departure where
  events : List RoomEvent
  outbox : Outbox
  exhausted : Bool

/-- `remove_peer`: offers first, then the transfers the peer takes part in, the
peer last. `none` means the peer was not in the room. -/
def removePeer (now : Instant) (peer : PeerId) (s : Scope) : Scope × Option Departure :=
  if !s.room.peers.contains peer then (s, none)
  else
    let owned := s.room.offers.entries.filter (fun e => e.2.owner == peer)
    let incremental := decide (s.room.revision + (owned.length + 1) ≤ u64Max)
    let s := { s with room := { s.room with
      peers := s.room.peers.erase peer
      sessions := s.room.sessions.filter (· ≠ peer) } }
    let (s, revision, events) := removeOffers peer incremental owned s s.room.revision
    let (s, outbox) := cancelWhereLocked now peer (fun r => r.source == peer || r.recipient == peer) s
    let s := { s with inner := { s.inner with peerPermits := s.inner.peerPermits + 1 } }
    if incremental then
      ({ s with room := { s.room with revision := revision + 1 } },
        some ⟨events ++ [.peerLeft peer (revision + 1)], outbox, false⟩)
    else (s, some ⟨[], outbox, true⟩)

end Bore.RegistryCatalogue
