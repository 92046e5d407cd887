import Bore.RegistryTypes

namespace Bore.RegistryOps

open RegistryTypes

def terminalRetention : Nat := 5 * 60 * 1000

def maxDirectCarriers : Nat := 8

def maxIceCandidatesPerSide : Nat := 128

def upgradeTryLimit : Nat := 3

def reservedZipEntryId : Nat := u32Max

def refused (inner : RegistryInner) : RegistryInner :=
  { inner with rejectedTotal := inner.rejectedTotal + 1 }

def liveCountFor (room : Room) (peer : PeerId) : Nat :=
  (room.transfers.values.filter (fun r => r.state.isLive && (r.source == peer || r.recipient == peer))).length

def retained (now : Instant) (r : TransferRecord) : Bool :=
  r.state.isLive || match r.terminatedAt with
    | none => true
    | some at' => now - at' < terminalRetention

/-- Drop terminal records older than the retention window. They hold no
permit: the terminal transition took it. -/
def gcTerminalsLocked (now : Instant) (room : Room) : Room :=
  { room with transfers := room.transfers.retain (fun _ r => retained now r) }

def countTerminal (inner : RegistryInner) : TransferState → RegistryInner
  | .completed => { inner with completedTotal := inner.completedTotal + 1 }
  | .cancelled => { inner with cancelledTotal := inner.cancelledTotal + 1 }
  | _ => inner

def finish (now : Instant) (terminal : TransferState) (r : TransferRecord) : TransferRecord :=
  { r with state := terminal, terminatedAt := some now, attempt := none }

def terminateLocked (now : Instant) (id : TransferId) (terminal : TransferState) (s : Scope) : Scope × Bool :=
  match s.record? id with
  | none => (s, false)
  | some record =>
    if record.state.isLive then
      let inner := releasePermit s.inner record.permit
      let inner := { inner with
        cancelledTokens := record.cancel :: inner.cancelledTokens
        tickets := inner.tickets.retain (fun _ t => t.transferId != id)
        transfersCurrent := inner.transfersCurrent - 1 }
      let s := s.updateRecord id (finish now terminal)
      ({ inner := countTerminal inner terminal, room := gcTerminalsLocked now s.room }, true)
    else (s, false)

def cancelOne (now : Instant) (byPeer : PeerId) (acc : Scope × Outbox) (id : TransferId) : Scope × Outbox :=
  let other := (acc.1.record? id).map (fun r => if r.source = byPeer then r.recipient else r.source)
  let (s, changed) := terminateLocked now id .cancelled acc.1
  match changed, other with
  | true, some other =>
    if other ≠ byPeer then (s, acc.2 ++ [(other, .cancelled id byPeer)]) else (s, acc.2)
  | _, _ => (s, acc.2)

def cancelWhereLocked (now : Instant) (byPeer : PeerId) (matched : TransferRecord → Bool) (s : Scope) :
    Scope × Outbox :=
  let ids := (s.room.transfers.entries.filter (fun e => e.2.state.isLive && matched e.2)).map Prod.fst
  ids.foldl (cancelOne now byPeer) (s, [])

def parseDecimalU64 (what s : String) : Except String Nat :=
  if s.isEmpty || !s.toList.all Char.isDigit then .error (what ++ " must be a decimal string, got " ++ s.quote)
  else if s.length > 1 && s.toList.head? == some '0' then .error (what ++ " must not be zero-padded")
  else
    let n := s.toList.foldl (fun n c => n * 10 + (c.toNat - '0'.toNat)) 0
    if n ≤ u64Max then .ok n else .error (what ++ " overflows u64")

inductive Selection
  | raw (id : Nat)
  | zip

def selectedEntryId (raw : String) : Except String Nat :=
  match parseDecimalU64 "entry ID" raw with
  | .error e => .error e
  | .ok id =>
    if id > u32Max then .error "entry ID exceeds u32"
    else if id = reservedZipEntryId then .error "entry ID 4294967295 is reserved for the archive"
    else .ok id

def zipSeen (entries : List ManifestEntry) : List String → List Nat → Except String Unit
  | [], _ => .ok ()
  | raw :: rest, seen =>
    match selectedEntryId raw with
    | .error e => .error e
    | .ok id =>
      match entries.findIdx? (fun entry => entry.id == id) with
      | none => .error "unknown entry ID"
      | some position =>
        if position ∈ seen then .error "zip selects every manifest entry exactly once"
        else zipSeen entries rest (position :: seen)

def validateSelection (mode : String) (entryIds : List String) (manifest : Manifest) : Except String Selection :=
  if mode = "raw" then
    match entryIds with
    | [raw] =>
      match selectedEntryId raw with
      | .error e => .error e
      | .ok id =>
        match manifest.entries.find? (fun entry => entry.id == id) with
        | none => .error "unknown entry ID"
        | some entry =>
          if entry.root.isNone then .error "raw cannot select a directory entry" else .ok (.raw id)
    | _ => .error "raw selects exactly one entry"
  else if mode = "zip" then
    if entryIds.length ≠ manifest.entries.length then .error "zip selects every manifest entry"
    else match zipSeen manifest.entries entryIds [] with
      | .error e => .error e
      | .ok () => .ok .zip
  else .error ("unknown transfer mode " ++ mode.quote)

structure TransferRequest where
  recipient : PeerId
  offerId : OfferId
  entryIds : List String
  selectionDigest : Digest
  mode : String
  resume : Option ResumeDescriptor

structure Selected where
  source : PeerId
  selected : Option Nat
  entryNumber : Nat
  entryRoot : Option Digest
  entrySize : Option Nat
  mode : TransferMode
  resume : Option ResumeDescriptor

def checkResume (entry : Option ManifestEntry) :
    Option ResumeDescriptor → Except WebTransferError (Option ResumeDescriptor)
  | none => .ok none
  | some descriptor =>
    match entry with
    | none => .ok (some descriptor)
    | some entry =>
      if descriptor.verifiedRanges.any (fun range => entry.chunks.length < range.2) then
        .error (.invalid "resume range exceeds chunk count")
      else if entry.size < descriptor.outputLength then
        .error (.invalid "resume length exceeds entry size")
      else .ok (some descriptor)

def selectedEntry (manifest : Manifest) : Selection → Except WebTransferError (Option ManifestEntry)
  | .zip => .ok none
  | .raw id =>
    match manifest.entries.find? (fun entry => entry.id == id) with
    | none => .error (.internal "validated entry ID vanished")
    | some entry =>
      if entry.root.isNone then .error (.internal "validated entry has no root") else .ok (some entry)

def selectTransfer (cfg : Config) (room : Room) (req : TransferRequest) : Except WebTransferError Selected :=
  if !room.peers.contains req.recipient then .error (.invalid "unknown peer")
  else match room.offers.get? req.offerId with
    | none => .error (.offerNotFound "unknown offer")
    | some offer =>
      if !(room.peers.contains offer.owner && room.sessions.contains offer.owner) then
        .error (.sourceOffline "source offline")
      else match cfg.parseManifest offer.manifest with
        | .error e => .error e
        | .ok manifest =>
          match validateSelection req.mode req.entryIds manifest with
          | .error e => .error (.invalid e)
          | .ok selection =>
            match selectedEntry manifest selection with
            | .error e => .error e
            | .ok entry =>
              if cfg.selectionDigest req.offerId offer.mac req.entryIds req.mode ≠ req.selectionDigest then
                .error (.sourceChanged "selection does not match the offer")
              else match checkResume entry req.resume with
                | .error e => .error e
                | .ok resume => .ok
                  { source := offer.owner
                    selected := match selection with | .raw id => some id | .zip => none
                    entryNumber := match selection with | .raw id => id | .zip => reservedZipEntryId
                    entryRoot := entry.bind ManifestEntry.root
                    entrySize := entry.map ManifestEntry.size
                    mode := match selection with | .raw _ => .raw | .zip => .zip
                    resume := resume }

def sameSelection (req : TransferRequest) (sel : Selected) (r : TransferRecord) : Bool :=
  r.state.isLive && r.offerId == req.offerId && r.source == sel.source && r.recipient == req.recipient &&
    r.entryId == sel.entryNumber && r.mode == sel.mode

def busyRetry (r : TransferRecord) : Bool := decide (r.state = .waitingRelay) && r.permitless

def freshRecord (req : TransferRequest) (sel : Selected) (attemptId : AttemptId) (token : Token) : TransferRecord :=
  { offerId := req.offerId
    source := sel.source
    recipient := req.recipient
    selectionDigest := req.selectionDigest
    entryId := sel.entryNumber
    entryRoot := sel.entryRoot
    entrySize := sel.entrySize
    mode := sel.mode
    resume := sel.resume
    state := .requested
    attemptNumber := 1
    attemptId := some attemptId
    attempt := some ⟨attemptId, 1, none⟩
    lastDirectAttempt := none
    upgrade := none
    upgradeTries := 0
    carriedAttempt := none
    terminatedAt := none
    cancel := token }

structure Checked where
  id : TransferId
  offerId : OfferId
  source : PeerId
  recipient : PeerId
  attemptId : AttemptId
  mode : String
  entryId : Option Nat
  upgraded : Bool
  deriving DecidableEq

inductive RequestStep
  | existing (id : TransferId)
  | proceed (checked : Checked)

def drawTransferId (room : Room) (draws : List TransferId) : Option TransferId :=
  (draws.take 9).find? (fun id => !room.transfers.contains id)

/-- The first critical section of `request_transfer`: all checks, then the
re-ack, the fresh attempt of a busy retry, or the insertion. -/
def requestCheck (cfg : Config) (now : Instant) (draws : List TransferId) (attemptDraw : AttemptId)
    (req : TransferRequest) (s : Scope) : Scope × Except WebTransferError RequestStep :=
  match selectTransfer cfg s.room req with
  | .error e => (s, .error e)
  | .ok sel =>
    let checked (id : TransferId) (upgraded : Bool) : Checked :=
      ⟨id, req.offerId, sel.source, req.recipient, attemptDraw, req.mode, sel.selected, upgraded⟩
    match s.room.transfers.entries.find? (fun e => sameSelection req sel e.2) with
    | some (id, record) =>
      if !busyRetry record then (s, .ok (.existing id))
      else match nextAttemptNumber record.attemptNumber with
        | .error e => (s, .error e)
        | .ok number =>
          (s.installAttempt id ⟨attemptDraw, number, none⟩ (fun r =>
            { r with attemptNumber := number, attemptId := some attemptDraw, state := .waitingSource }),
            .ok (.proceed (checked id true)))
    | none =>
      if cfg.limits.maxTransfersPerPeer ≤ liveCountFor s.room sel.source ||
          cfg.limits.maxTransfersPerPeer ≤ liveCountFor s.room req.recipient then
        ({ s with inner := refused s.inner }, .error (.limit "peer transfer budget exhausted"))
      else match drawTransferId s.room draws with
        | none => (s, .error (.internal "transfer ID collision exhaustion"))
        | some id =>
          let record := freshRecord req sel attemptDraw s.inner.nextToken
          let inner := { s.inner with
            nextToken := s.inner.nextToken + 1
            transfersCurrent := s.inner.transfersCurrent + 1 }
          ({ inner := inner
             room := gcTerminalsLocked now { s.room with transfers := s.room.transfers.insert id record } },
            .ok (.proceed (checked id false)))

def requestDeliver (now : Instant) (delivered : Bool) (id : TransferId) (s : Scope) : Scope :=
  if delivered then
    s.updateRecord id (fun r => if r.state = .requested then { r with state := .waitingSource } else r)
  else (terminateLocked now id .cancelled s).1

end Bore.RegistryOps
