import Bore.RegistryRelay
import Bore.RegistryCatalogue
import Bore.Runs

namespace Bore.RegistrySystem

open RegistryTypes RegistryOps RegistryDirect RegistryRelay RegistryCatalogue

inductive RelayEnd
  | clean
  | sourceGone
  | recipientGone
  | violation
  | sendTimeout
  | cancelled
  deriving DecidableEq

structure RelayKey where
  room : RoomRef
  transfer : TransferId
  attempt : AttemptId
  deriving DecidableEq

/-- A call or task that is suspended between two critical sections. Other
tasks run in between, so each section is a step of its own. -/
inductive Task
  | requestSend (room : RoomRef) (checked : Checked)
  | readyTail (room : RoomRef) (peer : PeerId) (transfer : TransferId) (attempt : AttemptId)
  | failedClear (key : RelayKey) (isRecipient : Bool) (counterpart : PeerId) (reason : String) (ranges : Ranges)
  | failedFallback (key : RelayKey) (isRecipient : Bool) (counterpart : PeerId) (reason : String) (ranges : Ranges)
  | failedAdopt (key : RelayKey) (ranges : Ranges)
  | spawnAdmit (room : RoomRef) (transfer : TransferId)
  | admitWait (key : RelayKey)
  | admitHold (key : RelayKey) (permit : Permit)
  | legAttached (room : RoomRef) (attach : RelayAttach)
  | legEntering (room : RoomRef) (attach : RelayAttach) (cancel : Token)
  | legParked (room : RoomRef) (attach : RelayAttach) (cancel : Token)
  | legHandoff (room : RoomRef) (attach : RelayAttach) (parked : Nat)
  | legPaired (key : RelayKey) (source recipient : PeerId)
  | pumpStart (key : RelayKey) (source recipient : PeerId) (cancel : Token)
  | pump (key : RelayKey) (cancel : Token)
  | pumpClosing (key : RelayKey) (ended : RelayEnd)
  | pumpReleased (key : RelayKey) (ended : RelayEnd)
  | abortStart (key : RelayKey)
  | abortFail (key : RelayKey) (source recipient : PeerId)
  deriving DecidableEq

/-- An operation a peer's message, a timer or a new socket starts. The random
draws of the operation are its last arguments. -/
inductive Call
  | join (peer : PeerId) (displayName : Option String)
  | openSession (peer : PeerId)
  | rename (peer : PeerId) (name : String)
  | publish (peer : PeerId) (offer manifestOffer : OfferId) (canonical : Bytes) (mac : Digest)
  | withdraw (peer : PeerId) (offer : OfferId)
  | leave (peer : PeerId)
  | request (req : TransferRequest) (draws : List TransferId) (attemptDraw : AttemptId)
  | sourceReady (peer : PeerId) (transfer : TransferId) (attempt : AttemptId) (digest : Digest) (pair : TicketPair)
  | sourceReject (peer : PeerId) (transfer : TransferId)
  | rtc (peer : PeerId) (transfer : TransferId) (attempt : AttemptId) (carrier : Nat) (signal : RtcSignal)
  | directReady (peer : PeerId) (transfer : TransferId) (attempt : AttemptId) (ranges : Ranges)
  | directFailed (peer : PeerId) (transfer : TransferId) (attempt : AttemptId) (reason : String) (ranges : Ranges)
  | deadline (transfer : TransferId) (attempt : AttemptId) (attemptDraw : AttemptId) (pair : TicketPair)
  | upgradeElapsed (transfer : TransferId) (attemptDraw : AttemptId)
  | probeDeadline (transfer : TransferId) (attempt : AttemptId)
  | cancel (peer : PeerId) (transfer : TransferId)
  | progress (peer : PeerId) (transfer : TransferId) (attempt : AttemptId) (receivedBytes : Nat)
  | complete (peer : PeerId) (transfer : TransferId) (attempt : AttemptId) (root : Digest)
  | attach (attach : RelayAttach)

inductive Choice
  | go
  | accepted (queued : Bool)
  | fallback (attemptDraw : AttemptId) (pair : TicketPair)
  | tickets (pair : TicketPair)
  | timeout
  | ended (how : RelayEnd)

inductive Action
  | call (room : RoomRef) (now : Instant) (call : Call)
  | resume (task : Nat) (now : Instant) (choice : Choice)

structure TicketNotice where
  room : RoomRef
  peer : PeerId
  transfer : TransferId
  attempt : AttemptId
  bound : Option RelayTicketRecord

structure AbortNotice where
  key : RelayKey
  current : Option AttemptId
  deriving DecidableEq

/-- The registry, its rooms, the suspended tasks, and what has been handed over
for delivery. The last two fields are history: no step reads them. -/
structure System where
  inner : RegistryInner
  rooms : RoomRef → Room
  tasks : Table Nat Task
  nextTask : Nat
  notices : List (RoomRef × PeerId × Envelope)
  issued : List TicketNotice
  aborts : List AbortNotice

def emptyRoom (relayOnly : Bool) : Room := ⟨relayOnly, ∅, ∅, ∅, [], 0, 0⟩

def emptyInner (limits : WebTransferLimits) (maxPeersGlobal : Nat) : RegistryInner :=
  ⟨maxPeersGlobal, List.range limits.maxRelaysGlobal, ∅, ∅, [], 0, 0, 0, 0, 0, 0, 0, 0, 0⟩

def initial (cfg : Config) (maxPeersGlobal : Nat) (relayOnly : RoomRef → Bool) : System :=
  ⟨emptyInner cfg.limits maxPeersGlobal, fun room => emptyRoom (relayOnly room), ∅, 0, [], [], []⟩

def System.scope (s : System) (room : RoomRef) : Scope := ⟨s.inner, s.rooms room⟩

def System.put (s : System) (room : RoomRef) (scope : Scope) : System :=
  { s with inner := scope.inner, rooms := Function.update s.rooms room scope.room }

def System.record? (s : System) (room : RoomRef) (id : TransferId) : Option TransferRecord :=
  (s.rooms room).transfers.get? id

def System.spawn (s : System) (task : Task) : System :=
  { s with tasks := s.tasks.insert s.nextTask task, nextTask := s.nextTask + 1 }

def System.suspend (s : System) (i : Nat) (task : Task) : System :=
  { s with tasks := s.tasks.insert i task }

def System.finish (s : System) (i : Nat) : System := { s with tasks := s.tasks.erase i }

def ticketNotice (cfg : Config) (inner : RegistryInner) (room : RoomRef) :
    PeerId × Envelope → Option TicketNotice
  | (peer, .relayTicket id attempt ticket) =>
    some ⟨room, peer, id, attempt, inner.tickets.get? (cfg.ticketHash ticket)⟩
  | _ => none

def System.notify (cfg : Config) (s : System) (room : RoomRef) (outbox : Outbox) : System :=
  { s with
    notices := s.notices ++ outbox.map (fun (peer, envelope) => (room, peer, envelope))
    issued := s.issued ++ outbox.filterMap (ticketNotice cfg s.inner room) }

def outboxOf : Except WebTransferError Outbox → Outbox
  | .ok outbox => outbox
  | .error _ => []

def readyOutcome (cfg : Config) (s : System) (room : RoomRef) (id : TransferId) (attempt : AttemptId) :
    Except WebTransferError (ReadyOutcome × Outbox) → System
  | .error _ => s
  | .ok (outcome, outbox) =>
    let s := s.notify cfg room outbox
    if outcome = .queued then s.spawn (.admitWait ⟨room, id, attempt⟩) else s

/-- A deadline has no reporting peer, so both hear the same fixed code. -/
def deadlineOutbox (record : Option TransferRecord) (id : TransferId) (attempt : AttemptId) (ranges : Ranges) : Outbox :=
  match record with
  | none => []
  | some r =>
    [(r.source, .directFailed id attempt "timeout" ranges), (r.recipient, .directFailed id attempt "timeout" ranges)]

def callStep (cfg : Config) (s : System) (room : RoomRef) (now : Instant) : Call → System
  | .join peer name => s.put room (joinPeer cfg peer name (s.scope room)).1
  | .openSession peer => s.put room ⟨s.inner, RegistryCatalogue.openSession peer (s.rooms room)⟩
  | .rename peer name => s.put room ⟨s.inner, (renamePeer cfg peer name (s.rooms room)).1⟩
  | .publish peer offer manifestOffer canonical mac =>
    s.put room (publishOffer cfg peer offer manifestOffer canonical mac (s.scope room)).1
  | .withdraw peer offer =>
    match withdrawOffer now peer offer (s.scope room) with
    | (sc, .ok (some (_, outbox))) => (s.put room sc).notify cfg room outbox
    | (sc, _) => s.put room sc
  | .leave peer =>
    match removePeer now peer (s.scope room) with
    | (sc, some departure) => (s.put room sc).notify cfg room departure.outbox
    | (sc, none) => s.put room sc
  | .request req draws attemptDraw =>
    match requestCheck cfg now draws attemptDraw req (s.scope room) with
    | (sc, .ok (.proceed checked)) => (s.put room sc).spawn (.requestSend room checked)
    | (sc, _) => s.put room sc
  | .sourceReady peer id attempt digest pair =>
    let (sc, result) := RegistryRelay.sourceReady cfg now pair peer id attempt digest (s.scope room)
    readyOutcome cfg (s.put room sc) room id attempt result
  | .sourceReject peer id =>
    let (sc, result) := RegistryRelay.sourceReject now peer id (s.scope room)
    (s.put room sc).notify cfg room (outboxOf result)
  | .rtc peer id attempt carrier signal =>
    let (sc, result) := forwardRtc cfg peer id attempt carrier signal (s.scope room)
    (s.put room sc).notify cfg room (outboxOf result)
  | .directReady peer id attempt ranges =>
    match upgradeReady peer id attempt ranges (s.scope room) with
    | (sc, .ok (some outbox)) => (s.put room sc).notify cfg room outbox
    | (sc, .ok none) => (s.put room sc).spawn (.readyTail room peer id attempt)
    | (sc, .error _) => s.put room sc
  | .directFailed peer id attempt reason ranges =>
    match directFailedParty peer id (s.scope room) with
    | .ok (isRecipient, counterpart) =>
      s.spawn (.failedClear ⟨room, id, attempt⟩ isRecipient counterpart reason ranges)
    | .error _ => s
  | .deadline id attempt attemptDraw pair =>
    match fallbackToRelay cfg now attemptDraw pair id attempt [] .deadline (s.scope room) with
    | (sc, some fallback) =>
      let outbox := deadlineOutbox (sc.record? id) id attempt fallback.ranges
      let s := (s.put room sc).notify cfg room (outbox ++ fallback.outbox)
      if fallback.outcome = .queued then s.spawn (.spawnAdmit room id) else s
    | (sc, none) => s.put room sc
  | .upgradeElapsed id attemptDraw =>
    let (sc, outbox) := directUpgradeElapsed cfg now attemptDraw id (s.scope room)
    (s.put room sc).notify cfg room outbox
  | .probeDeadline id attempt => s.put room (clearUpgrade id attempt (s.scope room)).1
  | .cancel peer id =>
    match cancelTransfer now peer id (s.scope room) with
    | (sc, .ok (_, outbox)) => (s.put room sc).notify cfg room outbox
    | (sc, .error _) => s.put room sc
  | .progress peer id attempt receivedBytes =>
    let (sc, result) := reportProgress peer id attempt receivedBytes (s.scope room)
    (s.put room sc).notify cfg room (outboxOf result)
  | .complete peer id attempt root =>
    let (sc, result) := completeTransfer now peer id attempt root (s.scope room)
    (s.put room sc).notify cfg room (outboxOf result)
  | .attach attach =>
    match joinConsume cfg now attach s.inner with
    | (inner, true) => { s with inner := inner }.spawn (.legAttached room attach)
    | (inner, false) => { s with inner := inner }

def attachKey (room : RoomRef) (attach : RelayAttach) : RelayKey :=
  ⟨room, attach.transferId, attach.attemptId⟩

def pairedTask (room : RoomRef) (parked : RelayAttach) (second : PeerId) : Task :=
  match parked.role with
  | .source => .legPaired (attachKey room parked) parked.peerId second
  | .recipient => .legPaired (attachKey room parked) second parked.peerId

def incomingNotice (checked : Checked) : Outbox :=
  [(checked.source, .incoming checked.id checked.offerId checked.recipient checked.attemptId checked.mode
    checked.entryId)]

def relayStep (cfg : Config) (s : System) (i : Nat) (now : Instant) : Task → Choice → Option System
  | .legAttached room attach, .go =>
    match joinCheck attach (s.scope room) with
    | some cancel => some (s.suspend i (.legEntering room attach cancel))
    | none => some (s.finish i)
  | .legEntering room attach cancel, .go =>
    let (inner, join) := joinEnter attach i s.inner
    let s := { s with inner := inner }
    match join with
    | .denied => some (s.finish i)
    | .park => some (s.suspend i (.legParked room attach cancel))
    | .pair waiter => some (s.suspend i (.legHandoff room attach waiter.leg))
  | .legParked room attach _, .timeout =>
    let (inner, ours) := abandonRelayWaiter attach.transferId attach.attemptId s.inner
    let s := { s with inner := inner }
    if ours then some (s.suspend i (.abortStart (attachKey room attach))) else some (s.finish i)
  | .legParked _ attach cancel, .ended .cancelled =>
    if cancel ∈ s.inner.cancelledTokens then
      let (inner, _) := abandonRelayWaiter attach.transferId attach.attemptId s.inner
      some ({ s with inner := inner }.finish i)
    else none
  | .legHandoff room attach parked, .go =>
    match s.tasks.get? parked with
    | some (.legParked parkedRoom first _) =>
      some ((s.suspend parked (pairedTask parkedRoom first attach.peerId)).finish i)
    | _ => some (s.suspend i (.abortStart (attachKey room attach)))
  | .legPaired key source recipient, .go =>
    let (sc, token) := activateRelay key.transfer key.attempt (s.scope key.room)
    let s := s.put key.room sc
    match token with
    | some cancel => some (s.suspend i (.pumpStart key source recipient cancel))
    | none => some (s.suspend i (.abortStart key))
  -- the select of the parked leg may take its timer although the pair was handed over
  | .legPaired _ _ _, .timeout => some (s.finish i)
  | .pumpStart key source recipient cancel, .go =>
    let s := s.notify cfg key.room
      (relayCommit key.transfer key.attempt source recipient (s.scope key.room))
    some (s.suspend i (.pump key cancel))
  | .pump _ _, .go => some s
  | .pump key cancel, .ended how =>
    if how = .cancelled && cancel ∉ s.inner.cancelledTokens then none
    else some (s.suspend i (.pumpClosing key how))
  | .pumpClosing key how, .go =>
    let s := s.put key.room (releaseRelayPermit key.transfer key.attempt (s.scope key.room)).1
    some (s.suspend i (.pumpReleased key how))
  | .pumpReleased key how, .go =>
    if how = .clean || how = .cancelled then some (s.finish i)
    else if (currentAttempt key.transfer (s.scope key.room)).any (fun current => current != key.attempt) then
      some (s.finish i)
    else some (s.suspend i (.abortStart key))
  | .abortStart key, .go =>
    match abortCheck key.transfer key.attempt (s.scope key.room) with
    | none => some (s.finish i)
    | some (source, recipient) => some (s.suspend i (.abortFail key source recipient))
  | .abortFail key source recipient, .go =>
    let current := currentAttempt key.transfer (s.scope key.room)
    let (sc, failed) := failTransfer now key.transfer (s.scope key.room)
    let s := s.put key.room sc
    if failed then
      let notice := Envelope.errorAnon "DIRECT_FAILED" (some (toString key.transfer))
      let s := s.notify cfg key.room [(source, notice), (recipient, notice)]
      some (System.finish { s with aborts := s.aborts ++ [⟨key, current⟩] } i)
    else some (s.finish i)
  | _, _ => none

def resumeStep (cfg : Config) (s : System) (i : Nat) (now : Instant) : Task → Choice → Option System
  | .requestSend room checked, .accepted queued =>
    let delivered := (s.rooms room).sessions.contains checked.source && queued
    let s' := s.put room (requestDeliver now delivered checked.id (s.scope room))
    some ((s'.notify cfg room (if delivered then incomingNotice checked else [])).finish i)
  | .readyTail room peer id attempt, .go =>
    let (sc, result) := RegistryDirect.directReady peer id attempt (s.scope room)
    some (((s.put room sc).notify cfg room (outboxOf result)).finish i)
  | .failedClear key isRecipient counterpart reason ranges, .go =>
    let (sc, cleared) := clearUpgrade key.transfer key.attempt (s.scope key.room)
    let s := s.put key.room sc
    if cleared then some (s.finish i)
    else some (s.suspend i (.failedFallback key isRecipient counterpart reason ranges))
  | .failedFallback key isRecipient counterpart reason ranges, .fallback attemptDraw pair =>
    match fallbackToRelay cfg now attemptDraw pair key.transfer key.attempt
        (if isRecipient then ranges else []) .reported (s.scope key.room) with
    | (sc, some fallback) =>
      let notice := Envelope.directFailed key.transfer key.attempt reason fallback.ranges
      let s := (s.put key.room sc).notify cfg key.room ((counterpart, notice) :: fallback.outbox)
      if fallback.outcome = .queued then some (s.suspend i (.spawnAdmit key.room key.transfer))
      else some (s.finish i)
    | (sc, none) =>
      let s := s.put key.room sc
      if isRecipient && !ranges.isEmpty then some (s.suspend i (.failedAdopt key ranges))
      else some (s.finish i)
  | .failedAdopt key ranges, .go =>
    some ((s.put key.room (adoptLateRecipientResume key.transfer key.attempt ranges (s.scope key.room))).finish i)
  | .spawnAdmit room id, .go =>
    match currentAttempt id (s.scope room) with
    | some attempt => some (s.suspend i (.admitWait ⟨room, id, attempt⟩))
    | none => some (s.finish i)
  | .admitWait key, .go =>
    match s.inner.relayPermits with
    | [] => none
    | permit :: rest =>
      some ({ s with inner := { s.inner with relayPermits := rest } }.suspend i (.admitHold key permit))
  | .admitWait key, .timeout =>
    some ((s.notify cfg key.room (admitTimeout key.transfer key.attempt (s.scope key.room))).finish i)
  | .admitHold key permit, .tickets pair =>
    let (sc, outbox) := admitIssue cfg now pair key.transfer key.attempt permit (s.scope key.room)
    some (((s.put key.room sc).notify cfg key.room outbox).finish i)
  | task, choice => relayStep cfg s i now task choice

def step (cfg : Config) (s : System) : Action → Option System
  | .call room now call => some (callStep cfg s room now call)
  | .resume i now choice => (s.tasks.get? i).bind (fun task => resumeStep cfg s i now task choice)

end Bore.RegistrySystem
