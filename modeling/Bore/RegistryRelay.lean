import Bore.RegistryDirect

namespace Bore.RegistryRelay

open RegistryTypes RegistryOps RegistryDirect

/-- Two distinct draws of `generate_relay_ticket`: the loop redraws both until
they differ. -/
structure TicketPair where
  first : RelayTicket
  second : RelayTicket
  ne : first ≠ second

def storeTickets (cfg : Config) (now : Instant) (id : TransferId) (attemptId : AttemptId)
    (source recipient : PeerId) (pair : TicketPair) (inner : RegistryInner) : RegistryInner :=
  let entry (ticket : RelayTicket) (peer : PeerId) (role : RelayRole) : RelayTicketRecord :=
    ⟨cfg.ticketHash ticket, id, attemptId, peer, role, now + cfg.ticketTtl⟩
  let tickets := inner.tickets.insert (cfg.ticketHash pair.first) (entry pair.first source .source)
  { inner with
    tickets := tickets.insert (cfg.ticketHash pair.second) (entry pair.second recipient .recipient) }

/-- `attempt.relay_permit = Some(permit)` where the record has an attempt; the
permit is dropped where it has none. -/
def storePermit (id : TransferId) (permit : Permit) (s : Scope) : Scope :=
  match (s.record? id).bind TransferRecord.attempt with
  | some old =>
    let s := s.updateRecord id (fun r =>
      { r with attempt := r.attempt.map (fun a => { a with relayPermit := some permit }) })
    { s with inner := releasePermit s.inner old.relayPermit }
  | none => { s with inner := releasePermit s.inner (some permit) }

def ticketOutbox (id : TransferId) (attemptId : AttemptId) (source recipient : PeerId) (pair : TicketPair) : Outbox :=
  [(source, .relayTicket id attemptId pair.first), (recipient, .relayTicket id attemptId pair.second)]

def admitRelayAttempt (cfg : Config) (now : Instant) (pair : TicketPair) (id : TransferId)
    (attemptId : AttemptId) (s : Scope) : Scope × ReadyOutcome × Outbox :=
  match s.record? id with
  | none => (s, .ignored, [])
  | some record =>
    match s.inner.relayPermits with
    | [] => (s, .queued, [])
    | permit :: rest =>
      let inner := { s.inner with relayPermits := rest }
      let inner := storeTickets cfg now id attemptId record.source record.recipient pair inner
      (storePermit id permit { s with inner := inner }, .admitted,
        ticketOutbox id attemptId record.source record.recipient pair)

def sourceReadyGuard (record : TransferRecord) (peer : PeerId) (attemptId : AttemptId) (digest : Digest) :
    Except WebTransferError Unit :=
  if record.source ≠ peer then
    if record.recipient = peer then .error (.invalid "only the source readies")
    else .error (.notParticipant "stranger to this transfer")
  else if record.state ≠ .waitingSource then .error (.invalid "transfer is not awaiting its source")
  else if record.attemptId ≠ some attemptId then .error (.staleAttempt "stale attempt")
  else if record.selectionDigest ≠ digest then .error (.sourceChanged "selection does not match")
  else .ok ()

def sourceReady (cfg : Config) (now : Instant) (pair : TicketPair) (peer : PeerId) (id : TransferId)
    (attemptId : AttemptId) (digest : Digest) (s : Scope) :
    Scope × Except WebTransferError (ReadyOutcome × Outbox) :=
  match s.record? id with
  | none => (s, .error (.transferNotFound "unknown transfer"))
  | some record =>
    match sourceReadyGuard record peer attemptId digest with
    | .error e => (s, .error e)
    | .ok () =>
      if s.room.relayOnly then
        let s := s.installAttempt id ⟨attemptId, record.attemptNumber, none⟩
          (fun r => { r with state := .waitingRelay })
        let (s, outcome, outbox) := admitRelayAttempt cfg now pair id attemptId s
        (s, .ok (outcome, outbox))
      else
        (s.updateRecord id (fun r => { r with state := .negotiatingDirect now {} }),
          .ok (.negotiating, directStartOutbox cfg id attemptId record.attemptNumber peer record.recipient false))

structure FallbackOutcome where
  outcome : ReadyOutcome
  outbox : Outbox
  ranges : Ranges

def fallbackRecord (draw : AttemptId) (number : Nat) (failedAttempt : AttemptId) (ranges : Ranges)
    (r : TransferRecord) : TransferRecord :=
  setResumeIfAny ranges { r with
    attemptNumber := number
    attemptId := some draw
    state := .waitingRelay
    lastDirectAttempt := some failedAttempt }

def fallbackToRelay (cfg : Config) (now : Instant) (draw : AttemptId) (pair : TicketPair) (id : TransferId)
    (failedAttempt : AttemptId) (recipientRanges : Ranges) (cause : FallbackCause) (s : Scope) :
    Scope × Option FallbackOutcome :=
  match s.record? id with
  | none => (s, none)
  | some record =>
    if !fallbackPermitted cause record.state then (s, none)
    else if record.attemptId ≠ some failedAttempt then (s, none)
    else match nextAttemptNumber record.attemptNumber with
      | .error _ => (s, none)
      | .ok number =>
        let ranges := if recipientRanges.isEmpty then knownRanges record else recipientRanges
        let s := s.installAttempt id ⟨draw, number, none⟩ (fallbackRecord draw number failedAttempt ranges)
        let (s, outcome, outbox) := admitRelayAttempt cfg now pair id draw s
        (s, some ⟨outcome, outbox, ranges⟩)

def sourceReject (now : Instant) (peer : PeerId) (id : TransferId) (s : Scope) :
    Scope × Except WebTransferError Outbox :=
  match s.record? id with
  | none => (s, .error (.transferNotFound "unknown transfer"))
  | some record =>
    if record.source ≠ peer then
      if record.recipient = peer then (s, .error (.invalid "only the source declines"))
      else (s, .error (.notParticipant "stranger to this transfer"))
    else if !record.state.isLive then (s, .ok [])
    else ((terminateLocked now id .cancelled s).1, .ok [(record.recipient, .cancelled id peer)])

def cancelTransfer (now : Instant) (peer : PeerId) (id : TransferId) (s : Scope) :
    Scope × Except WebTransferError (CancelOutcome × Outbox) :=
  match s.record? id with
  | none => (s, .error (.transferNotFound "unknown transfer"))
  | some record =>
    if !record.state.isLive then (s, .ok (.alreadyTerminal, []))
    else match sideOf record peer with
      | .error e => (s, .error e)
      | .ok isSource =>
        ((terminateLocked now id .cancelled s).1,
          .ok (.cancelled, [(counterpartOf record isSource, .cancelled id peer)]))

def countCarried (inner : RegistryInner) (direct : Bool) : RegistryInner :=
  if direct then { inner with directCarried := inner.directCarried + 1 }
  else { inner with relayCarried := inner.relayCarried + 1 }

def reportProgress (peer : PeerId) (id : TransferId) (attemptId : AttemptId) (receivedBytes : Nat) (s : Scope) :
    Scope × Except WebTransferError Outbox :=
  match s.record? id with
  | none => (s, .error (.transferNotFound "unknown transfer"))
  | some record =>
    if record.recipient ≠ peer then
      if record.source = peer then (s, .error (.invalid "only the recipient reports"))
      else (s, .error (.notParticipant "stranger to this transfer"))
    else if record.attemptId ≠ some attemptId || !record.state.isCarrying then (s, .ok [])
    else if record.entrySize.any (fun size => decide (size < receivedBytes)) then
      (s, .error (.invalid "progress past the entry size"))
    else if receivedBytes = 0 then (s, .ok [])
    else
      let direct := decide (record.state = .activeDirect)
      let notice := Envelope.progress id attemptId receivedBytes (if direct then "direct" else "relay")
      if record.carriedAttempt ≠ some attemptId then
        let s := s.updateRecord id (fun r => { r with carriedAttempt := some attemptId })
        ({ s with inner := countCarried s.inner direct }, .ok [(record.source, notice)])
      else (s, .ok [(record.source, notice)])

def completeTransfer (now : Instant) (peer : PeerId) (id : TransferId) (attemptId : AttemptId) (root : Digest)
    (s : Scope) : Scope × Except WebTransferError Outbox :=
  match s.record? id with
  | none => (s, .error (.transferNotFound "unknown transfer"))
  | some record =>
    if record.recipient ≠ peer then
      if record.source = peer then (s, .error (.invalid "only the recipient completes"))
      else (s, .error (.notParticipant "stranger to this transfer"))
    else if !record.state.isLive then (s, .error (.invalid "transfer already terminated"))
    else if !record.state.isCarrying then (s, .error (.invalid "transfer is not active"))
    else if record.attemptId ≠ some attemptId then (s, .error (.staleAttempt "stale attempt"))
    else if record.entryRoot.any (fun expected => expected != root) then
      (s, .error (.invalid "root does not match manifest"))
    else ((terminateLocked now id .completed s).1, .ok [(record.source, .completed id root)])

def failTransfer (now : Instant) (id : TransferId) (s : Scope) : Scope × Bool :=
  terminateLocked now id .failed s

def admitTimeout (id : TransferId) (attemptId : AttemptId) (s : Scope) : Outbox :=
  match s.record? id with
  | some record =>
    if record.state = .waitingRelay && record.attemptId = some attemptId then
      [(record.recipient, .errorAnon "RELAY_BUSY" (some (toString id)))]
    else []
  | none => []

/-- The critical section of `admit_relay` once the waiter owns a permit. The
tickets are bound to the record's current attempt, while the notices name the
attempt the waiter was spawned with. -/
def admitIssue (cfg : Config) (now : Instant) (pair : TicketPair) (id : TransferId) (attemptId : AttemptId)
    (permit : Permit) (s : Scope) : Scope × Outbox :=
  let dropped := { s with inner := releasePermit s.inner (some permit) }
  match s.record? id with
  | none => (dropped, [])
  | some record =>
    match record.attemptId with
    | none => (dropped, [])
    | some current =>
      if record.state = .waitingRelay && record.permitless then
        let inner := storeTickets cfg now id current record.source record.recipient pair s.inner
        (storePermit id permit { s with inner := inner },
          ticketOutbox id attemptId record.source record.recipient pair)
      else (dropped, [])

structure RelayAttach where
  peerId : PeerId
  transferId : TransferId
  attemptId : AttemptId
  role : RelayRole
  ticket : RelayTicket
  deriving DecidableEq

inductive TicketDeny
  | unknown
  | expired
  | roleMismatch

/-- A failed presentment still burns the ticket. -/
def consumeRelayTicket (cfg : Config) (now : Instant) (ticket : RelayTicket) (role : RelayRole) (peer : PeerId)
    (inner : RegistryInner) : RegistryInner × Except TicketDeny RelayTicketRecord :=
  match inner.tickets.get? (cfg.ticketHash ticket) with
  | none => (inner, .error .unknown)
  | some record =>
    let inner := { inner with tickets := inner.tickets.erase (cfg.ticketHash ticket) }
    if record.expiresAt < now then (inner, .error .expired)
    else if record.role ≠ role || record.peerId ≠ peer then (inner, .error .roleMismatch)
    else (inner, .ok record)

def joinConsume (cfg : Config) (now : Instant) (attach : RelayAttach) (inner : RegistryInner) :
    RegistryInner × Bool :=
  match consumeRelayTicket cfg now attach.ticket attach.role attach.peerId inner with
  | (inner, .error _) => (inner, false)
  | (inner, .ok grant) =>
    (inner, attach.transferId == grant.transferId && attach.attemptId == grant.attemptId)

def joinCheck (attach : RelayAttach) (s : Scope) : Option Token :=
  match s.record? attach.transferId with
  | none => none
  | some record =>
    let parties := match attach.role with
      | .source => record.source == attach.peerId
      | .recipient => record.recipient == attach.peerId
    if record.state = .waitingRelay && record.attemptId = some attach.attemptId && parties then
      some record.cancel
    else none

inductive RelayJoin
  | denied
  | pair (waiter : RelayWaiter)
  | park

def joinEnter (attach : RelayAttach) (leg : Nat) (inner : RegistryInner) : RegistryInner × RelayJoin :=
  let key := (attach.transferId, attach.attemptId)
  match inner.relayWaiters.get? key with
  | some waiter =>
    if waiter.firstRole = attach.role || waiter.firstPeer = attach.peerId then (inner, .denied)
    else ({ inner with relayWaiters := inner.relayWaiters.erase key }, .pair waiter)
  | none =>
    ({ inner with relayWaiters := inner.relayWaiters.insert key ⟨attach.role, attach.peerId, leg⟩ }, .park)

variable (id : TransferId) (attemptId : AttemptId)

def abandonRelayWaiter (inner : RegistryInner) : RegistryInner × Bool :=
  ({ inner with relayWaiters := inner.relayWaiters.erase (id, attemptId) },
    inner.relayWaiters.contains (id, attemptId))

def activateRelay (s : Scope) : Scope × Option Token :=
  match s.record? id with
  | none => (s, none)
  | some record =>
    if record.state = .waitingRelay && record.attemptId = some attemptId then
      (s.updateRecord id (fun r => { r with state := .active }), some record.cancel)
    else (s, none)

/-- The attempt check of `abort_relay_attempt`; the parties are notified when
the later transition to `Failed` is its own. -/
def abortCheck (s : Scope) : Option (PeerId × PeerId) :=
  match s.record? id with
  | none => none
  | some record =>
    if record.attemptId = some attemptId then some (record.source, record.recipient) else none

def releaseRelayPermit (s : Scope) : Scope × Bool :=
  match s.record? id with
  | none => (s, false)
  | some record =>
    if record.attemptId = some attemptId then
      let s' := s.updateRecord id (fun r =>
        { r with attempt := r.attempt.map (fun a => { a with relayPermit := none }) })
      ({ s' with inner := releasePermit s'.inner record.permit }, record.permit.isSome)
    else (s, false)

def relayCommit (source recipient : PeerId) (s : Scope) : Outbox :=
  let ranges := match s.record? id with
    | some record => knownRanges record
    | none => []
  let commit := Envelope.pathCommit id attemptId "relay" ranges
  [(source, commit), (recipient, commit)]

end Bore.RegistryRelay
