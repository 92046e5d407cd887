import Bore.Table
import Bore.WireBytes

namespace Bore.RegistryTypes

export WireBytes (Bytes)

abbrev RoomRef := Nat
abbrev PeerId := Nat
abbrev OfferId := Nat
abbrev TransferId := Nat
abbrev AttemptId := Nat
abbrev RelayTicket := Nat
abbrev Digest := Nat
abbrev Instant := Nat
abbrev Ranges := List (Nat × Nat)

/-- A slot of the relay semaphore. The semaphore counts, but each owned permit
is a value of its own that is moved and dropped once. -/
abbrev Permit := Nat

/-- The identity of a cancellation token: clones share it, and no two
`CancellationToken::new` calls return the same one. -/
abbrev Token := Nat

def u64Max : Nat := 2 ^ 64 - 1

def u32Max : Nat := 2 ^ 32 - 1

inductive ErrorCode
  | unauthorized | offerChanged | notParticipant | offerNotFound | transferNotFound
  | sourceOffline | sourceChanged | limitExceeded | invalidMessage | staleAttempt | internal
  deriving DecidableEq

structure WebTransferError where
  code : ErrorCode
  message : String

namespace WebTransferError

variable (message : String)

def offerChanged : WebTransferError := ⟨.offerChanged, message⟩
def notParticipant : WebTransferError := ⟨.notParticipant, message⟩
def offerNotFound : WebTransferError := ⟨.offerNotFound, message⟩
def transferNotFound : WebTransferError := ⟨.transferNotFound, message⟩
def sourceOffline : WebTransferError := ⟨.sourceOffline, message⟩
def sourceChanged : WebTransferError := ⟨.sourceChanged, message⟩
def limit : WebTransferError := ⟨.limitExceeded, message⟩
def invalid : WebTransferError := ⟨.invalidMessage, message⟩
def staleAttempt : WebTransferError := ⟨.staleAttempt, message⟩
def internal : WebTransferError := ⟨.internal, message⟩

end WebTransferError

structure NegotiationBits where
  readySource : Bool := false
  readyRecipient : Bool := false
  candidatesSource : Nat := 0
  candidatesRecipient : Nat := 0
  offerSeen : BitVec 16 := 0
  answerSeen : BitVec 16 := 0
  deriving DecidableEq

inductive TransferState
  | requested
  | waitingSource
  | waitingRelay
  | negotiatingDirect (startedAt : Instant) (bits : NegotiationBits)
  | activeDirect
  | active
  | completed
  | cancelled
  | failed
  deriving DecidableEq

namespace TransferState

def isLive : TransferState → Bool
  | requested | waitingSource | waitingRelay | negotiatingDirect _ _ | activeDirect | active => true
  | completed | cancelled | failed => false

def isNegotiatingDirect : TransferState → Bool
  | negotiatingDirect _ _ => true
  | _ => false

def isCarrying : TransferState → Bool
  | active | activeDirect => true
  | _ => false

end TransferState

structure UpgradeState where
  attemptId : AttemptId
  startedAt : Instant
  bits : NegotiationBits
  deriving DecidableEq

inductive TransferMode
  | raw
  | zip
  deriving DecidableEq

structure ResumeDescriptor where
  verifiedRanges : Ranges
  outputLength : Nat
  deriving DecidableEq

structure AttemptState where
  attemptId : AttemptId
  attemptNumber : Nat
  relayPermit : Option Permit
  deriving DecidableEq

structure TransferRecord where
  offerId : OfferId
  source : PeerId
  recipient : PeerId
  selectionDigest : Digest
  entryId : Nat
  entryRoot : Option Digest
  entrySize : Option Nat
  mode : TransferMode
  resume : Option ResumeDescriptor
  state : TransferState
  attemptNumber : Nat
  attemptId : Option AttemptId
  attempt : Option AttemptState
  lastDirectAttempt : Option AttemptId
  upgrade : Option UpgradeState
  upgradeTries : Nat
  carriedAttempt : Option AttemptId
  terminatedAt : Option Instant
  cancel : Token
  deriving DecidableEq

def TransferRecord.permit (record : TransferRecord) : Option Permit :=
  record.attempt.bind AttemptState.relayPermit

def TransferRecord.permitless (record : TransferRecord) : Bool :=
  match record.attempt with
  | some attempt => attempt.relayPermit.isNone
  | none => false

inductive RelayRole
  | source
  | recipient
  deriving DecidableEq

structure RelayTicketRecord where
  ticketHash : Digest
  transferId : TransferId
  attemptId : AttemptId
  peerId : PeerId
  role : RelayRole
  expiresAt : Instant

structure PeerRecord where
  displayName : Option String

structure OfferRecord where
  owner : PeerId
  manifest : Bytes
  mac : Digest
  metadataBytes : Nat

structure ManifestEntry where
  id : Nat
  path : String
  size : Nat
  mtime : Nat
  chunks : List Digest
  root : Option Digest

structure Manifest where
  offer : OfferId
  label : String
  entries : List ManifestEntry

/-- One room: what `RoomState` holds under the room lock, the session map and
the transport policy, which never changes. -/
structure Room where
  relayOnly : Bool
  peers : Table PeerId PeerRecord
  offers : Table OfferId OfferRecord
  transfers : Table TransferId TransferRecord
  sessions : List PeerId
  metadataBytes : Nat
  revision : Nat

structure WebTransferLimits where
  maxPeersPerRoom : Nat
  maxOffersPerPeer : Nat
  maxMetadataPerRoomBytes : Nat
  maxMetadataTotalBytes : Nat
  maxTransfersPerPeer : Nat
  maxRelaysGlobal : Nat
  directCarriers : Nat

/-- The configured limits, and the codecs the registry calls: Unicode
normalization, the manifest decoder applied to stored bytes, the selection
digest and the ticket hash. -/
structure Config where
  limits : WebTransferLimits
  iceServers : List String
  directDeadlineMs : Nat
  ticketTtl : Nat
  nfc : String → String
  parseManifest : Bytes → Except WebTransferError Manifest
  selectionDigest : OfferId → Digest → List String → String → Digest
  ticketHash : RelayTicket → Digest

inductive RtcSignal
  | offer (sdp : String)
  | answer (sdp : String)
  | ice (candidate : Option String) (sdpMid : Option String) (sdpMLineIndex : Option Nat)
  deriving DecidableEq

inductive Envelope
  | incoming (transfer : TransferId) (offer : OfferId) (fromPeer : PeerId) (attempt : AttemptId)
      (mode : String) (entryId : Option Nat)
  | directStart (transfer : TransferId) (attempt : AttemptId) (attemptNumber : Nat)
      (role : String) (iceServers : List String) (deadlineMs carriers : Nat) (upgrade : Bool)
  | rtc (transfer : TransferId) (attempt : AttemptId) (carrier : Nat) (signal : RtcSignal)
  | relayTicket (transfer : TransferId) (attempt : AttemptId) (ticket : RelayTicket)
  | pathCommit (transfer : TransferId) (attempt : AttemptId) (path : String) (ranges : Ranges)
  | directFailed (transfer : TransferId) (attempt : AttemptId) (reason : String) (ranges : Ranges)
  | progress (transfer : TransferId) (attempt : AttemptId) (receivedBytes : Nat) (path : String)
  | cancelled (transfer : TransferId) (byPeer : PeerId)
  | completed (transfer : TransferId) (root : Digest)
  | errorAnon (code : String) (message : Option String)
  deriving DecidableEq

/-- Ordered peer notices of one transition, delivered after the ack. -/
abbrev Outbox := List (PeerId × Envelope)

inductive ReadyOutcome
  | negotiating
  | admitted
  | queued
  | ignored
  deriving DecidableEq

inductive CancelOutcome
  | cancelled
  | alreadyTerminal

inductive FallbackCause
  | reported
  | deadline

structure RelayWaiter where
  firstRole : RelayRole
  firstPeer : PeerId
  leg : Nat

/-- The registry state all rooms share. Counters wrap as `AtomicU64` does. -/
structure RegistryInner where
  peerPermits : Nat
  relayPermits : List Permit
  tickets : Table Digest RelayTicketRecord
  relayWaiters : Table (TransferId × AttemptId) RelayWaiter
  cancelledTokens : List Token
  nextToken : Token
  metadataCurrent : Nat
  offersCurrent : UInt64
  transfersCurrent : UInt64
  completedTotal : UInt64
  cancelledTotal : UInt64
  rejectedTotal : UInt64
  directCarried : UInt64
  relayCarried : UInt64

structure Scope where
  inner : RegistryInner
  room : Room

def Scope.record? (s : Scope) (id : TransferId) : Option TransferRecord := s.room.transfers.get? id

def Scope.updateRecord (s : Scope) (id : TransferId) (f : TransferRecord → TransferRecord) : Scope :=
  { s with room := { s.room with transfers := s.room.transfers.modify id f } }

def releasePermit (inner : RegistryInner) (permit : Option Permit) : RegistryInner :=
  { inner with relayPermits := inner.relayPermits ++ permit.toList }

def Scope.installAttempt (s : Scope) (id : TransferId) (attempt : AttemptState)
    (f : TransferRecord → TransferRecord) : Scope :=
  let old := (s.record? id).bind TransferRecord.permit
  let s := s.updateRecord id (fun r => { f r with attempt := some attempt })
  { s with inner := releasePermit s.inner old }

def nextAttemptNumber (current : Nat) : Except WebTransferError Nat :=
  if current < u64Max then .ok (current + 1)
  else .error (.internal "attempt number exhausted")

def checkedRoomRevision (current steps : Nat) : Except WebTransferError Nat :=
  if current + steps ≤ u64Max then .ok (current + steps)
  else .error (.internal "room revision exhausted")

end Bore.RegistryTypes
