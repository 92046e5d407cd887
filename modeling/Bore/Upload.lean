import Bore.Streams
import Bore.Table

namespace Bore.Upload

open Frames

abbrev TransferId := Nat

/-- Where a record lives, whatever the table of transfers says. -/
abbrev Address := Nat

/-- A run of `beginSend`, which is also its attempt's abort controller. -/
abbrev RunId := Nat

structure Key where
  transferId : TransferId
  attemptId : AttemptId
  deriving DecidableEq

structure Sealed where
  run : RunId
  key : Key
  ftype : FrameType
  seq : Nat
  plaintext : Bytes

inductive UploadState
  | waitingCommit
  | committedWaitingTicket
  | committedWaitingDirect
  | committed
  | sending
  | donePending
  deriving DecidableEq

/-- What a request selected, as the offer has it. Only a file with chunks is
served as a raw file. -/
structure Selection where
  archive : Bool
  totalBytes : Nat
  chunkDigests : List Bytes
  chunked : archive = false → chunkDigests ≠ []
  deriving DecidableEq

/-- The record of one outgoing transfer. A transport is known by the fragment
size it asks for, `attemptAbort` by the run that created it. -/
structure Record where
  transferId : TransferId
  attemptId : AttemptId
  selection : Selection
  aesKey : Option Key
  sink : Option Nat
  socket : Option Nat
  direct : Bool
  ticket : Bool
  pendingResumeRanges : List Range
  upgrade : Option (AttemptId × Nat)
  aborted : Bool
  attemptAbort : Option RunId
  finalSent : Bool
  baseBytes : Nat
  attemptBytes : Nat
  sentBytes : Nat
  state : UploadState

def Record.chunkCount (r : Record) : Nat := if r.selection.archive then 0 else r.selection.chunkDigests.length

/-- The awaits of `beginSend` and `sendArchive`, with what is left of the chunk
whose fragments are being sealed. A raw file goes on with the chunk `next`, an
archive with the chunk its writer hands over. `fileRoot` is reached with the
key already read. -/
inductive Point
  | attemptKey
  | importKey
  | lowWater (index : Nat)
  | arrayBuffer (index : Nat)
  | sha256 (index : Nat) (bytes : Bytes)
  | writeArchive
  | packLowWater (chunk : Bytes)
  | packSha256 (chunk : Bytes)
  | sealData (next : Option Nat) (length : Nat) (rest : List Bytes)
  | fileRoot (aesKey : Option Key)
  | sealFinal
  | flush
  | ended
  deriving DecidableEq

structure Run where
  address : Address
  key : Key
  resumeRanges : List Range
  aborted : Bool
  seq : Nat
  leaves : List Bytes
  packed : Nat
  point : Point

/-- How an await ends: it resolves, with bytes where it reads some, it finds
the transport's queue empty, or it rejects. -/
inductive Input
  | resolves
  | bytes (bytes : Bytes)
  | drained
  | rejects (abortError : Bool)
  deriving DecidableEq

/-- What one turn of a run leaves: its record, itself, the frame it sealed and
whether its `catch` forgets the transfer. -/
structure Turn where
  record : Record
  run : Run
  sealed : Option Sealed
  forgets : Bool

namespace Run

variable (hash : Hash) (run : Run) (record : Record) (id : RunId)

def waits (point : Point) : Turn := ⟨record, { run with point := point }, none, false⟩

def returns : Turn := run.waits record .ended

def throws (abortError : Bool) : Turn :=
  ⟨record, { run with point := .ended }, none, record.aborted || !(run.aborted || abortError)⟩

def seals (aesKey : Option Key) (ftype : FrameType) (plaintext : Bytes)
    (point : Point) : Turn :=
  match aesKey with
  | none => run.throws record false
  | some key => ⟨record, { run with point := point }, some ⟨id, key, ftype, run.seq, plaintext⟩, false⟩

def nextChunk (index : Nat) : Turn :=
  if index < record.chunkCount then run.waits record (.lowWater index)
  else run.seals record id record.aesKey .final (finalPayload record.attemptBytes) .sealFinal

def nextFragment (next : Option Nat) : List Bytes → Turn
  | plaintext :: rest => run.seals record id record.aesKey .data plaintext (.sealData next plaintext.length rest)
  | [] =>
    match next with
    | some index => run.nextChunk record id index
    | none => run.waits record .writeArchive

def sendChunk (next : Option Nat) (chunk : Bytes) : Turn :=
  match record.sink with
  | none => run.throws record false
  | some size =>
    if 0 < size ∧ size ≤ fragmentBytes then run.nextFragment record id next (fragments size chunk)
    else run.throws record false

/-- The key is imported: nothing asks here whether the attempt is over. -/
def imported : Turn :=
  let record := { record with aesKey := some run.key }
  if record.selection.archive then
    run.waits { record with baseBytes := 0, attemptBytes := 0, sentBytes := 0 } .writeArchive
  else
    match planSend record.chunkCount run.resumeRanges with
    | none => run.throws record false
    | some _ =>
      let rehashOnly := (List.range record.chunkCount).filter (covered run.resumeRanges)
      let baseBytes := (rehashOnly.map (chunkWindow record.selection.totalBytes)).sum
      run.nextChunk { record with baseBytes := baseBytes, attemptBytes := 0, sentBytes := baseBytes } id 0

def hashed (index : Nat) (bytes : Bytes) : Turn :=
  if run.aborted then run.returns record
  else if record.selection.chunkDigests[index]? ≠ some (hash.sha256 bytes) then run.throws record false
  else if covered run.resumeRanges index then run.nextChunk record id (index + 1)
  else run.sendChunk record id (some (index + 1)) bytes

/-- The leaf of an archive's chunk is known. The recipient may have the chunk. -/
def packHashed (chunk : Bytes) : Turn :=
  let index := run.leaves.length
  let run := { run with leaves := run.leaves ++ [hash.sha256 chunk], packed := run.packed + chunk.length }
  if run.aborted then run.throws record true
  else if covered (verifiedPrefix (run.resumeRanges.filter (fun r => r.1 ≤ r.2))) index then
    let baseBytes := record.baseBytes + chunk.length
    run.waits { record with baseBytes := baseBytes, sentBytes := baseBytes + record.attemptBytes } .writeArchive
  else run.sendChunk record id none chunk

def sealedData (next : Option Nat) (length : Nat) (rest : List Bytes) : Turn :=
  if run.aborted then if next.isSome then run.returns record else run.throws record true
  else if record.sink.isNone then run.throws record false
  else
    let attemptBytes := record.attemptBytes + length
    { run with seq := run.seq + 1 }.nextFragment
      { record with attemptBytes := attemptBytes, sentBytes := record.baseBytes + attemptBytes } id next rest

def finishes : Turn := run.returns { record with state := .donePending, aesKey := none }

def sealedFinal (drained : Bool) : Turn :=
  if run.aborted then run.returns record
  else if record.sink.isNone then run.throws record false
  else
    let record := { record with finalSent := true }
    if drained then run.finishes record else run.waits record .flush

def rooted (aesKey : Option Key) : Turn :=
  match Frames.fileRoot hash run.leaves with
  | none => run.throws record false
  | some root =>
    run.seals record id aesKey .final (archiveFinalPayload ⟨run.packed, run.leaves.length, root⟩) .sealFinal

def resume : Input → Option Turn
  | .rejects abortError => if run.point = .ended then none else some (run.throws record abortError)
  | .bytes bytes =>
    match run.point with
    | .arrayBuffer index =>
      some (if run.aborted then run.returns record else run.waits record (.sha256 index bytes))
    | .writeArchive => some (run.waits record (.packLowWater bytes))
    | _ => none
  | .drained =>
    match run.point with
    | .sealFinal => some (run.sealedFinal record true)
    | .flush => some (if run.aborted then run.throws record true else run.finishes record)
    | _ => none
  | .resolves =>
    match run.point with
    | .attemptKey => some (if run.aborted then run.returns record else run.waits record .importKey)
    | .importKey => some (run.imported record id)
    | .lowWater index => some (if run.aborted then run.returns record else run.waits record (.arrayBuffer index))
    | .sha256 index bytes => some (run.hashed hash record id index bytes)
    | .writeArchive =>
      some (if run.aborted then run.throws record true else run.waits record (.fileRoot record.aesKey))
    | .packLowWater chunk =>
      some (if run.aborted then run.throws record true else run.waits record (.packSha256 chunk))
    | .packSha256 chunk => some (run.packHashed hash record id chunk)
    | .sealData next length rest => some (run.sealedData record id next length rest)
    | .fileRoot aesKey => some (run.rooted hash record id aesKey)
    | .sealFinal => some (run.sealedFinal record false)
    | .flush => some (if run.aborted then run.throws record true else run.waits record .flush)
    | .arrayBuffer _ | .ended => none

end Run

structure Incoming where
  transferId : TransferId
  attemptId : AttemptId
  selection : Selection
  deriving DecidableEq

def Incoming.record (i : Incoming) : Record :=
  { transferId := i.transferId, attemptId := i.attemptId, selection := i.selection, aesKey := none, sink := none,
    socket := none, direct := false, ticket := false, pendingResumeRanges := [], upgrade := none, aborted := false,
    attemptAbort := none, finalSent := false, baseBytes := 0, attemptBytes := 0, sentBytes := 0,
    state := .waitingCommit }

inductive Path
  | direct
  | relay
  deriving DecidableEq

/-- The records and the runs of the page's sender, none of which is ever
removed, the table of transfers, and every frame that was sealed. -/
structure Memory where
  records : List Record
  transfers : Table TransferId Address
  runs : List Run
  log : List Sealed

namespace Memory

variable (m : Memory) (transferId : TransferId) (attemptId : AttemptId)

def setRecord (address : Address) (record : Record) : Memory :=
  { m with records := m.records.set address record }

def abortAttempt (record : Record) : Memory :=
  match record.attemptAbort with
  | none => m
  | some id => { m with runs := m.runs.modify id (fun run => { run with aborted := true }) }

def tracked : Option (Address × Record) :=
  match m.transfers.get? transferId with
  | none => none
  | some address => (m.records[address]?).map (fun record => (address, record))

def forget : Memory :=
  match m.tracked transferId with
  | none => m
  | some (address, record) =>
    { (m.abortAttempt record).setRecord address
        { record with aborted := true, sink := none, socket := none, aesKey := none } with
      transfers := m.transfers.erase transferId }

def beginSend (resumeRanges : List Range) : Memory :=
  match m.tracked transferId with
  | none => m
  | some (address, record) =>
    if record.state ≠ .committed then m
    else
      { m.setRecord address
          { record with state := .sending, finalSent := false, attemptAbort := some m.runs.length } with
        runs := m.runs ++
          [⟨address, ⟨record.transferId, record.attemptId⟩, resumeRanges, false, 0, [], 0, .attemptKey⟩] }

def register (i : Incoming) : Memory :=
  { m with
    records := m.records ++ [i.record]
    transfers := m.transfers.insert i.transferId m.records.length }

/-- `startIncoming` after its await; `sent` says whether the answer left. -/
def startIncoming (i : Incoming) (sent : Bool) : Memory :=
  if sent then m.register i else (m.register i).forget i.transferId

def openRelay (address : Address) (record : Record) (socket : Nat) : Memory :=
  m.setRecord address { record with socket := some socket, sink := some fragmentBytes, direct := false }

def relayTicket (socket : Nat) : Memory :=
  match m.tracked transferId with
  | none => m
  | some (address, record) =>
    if record.attemptId ≠ attemptId then
      (m.abortAttempt record).openRelay address
        { record with
          attemptId := attemptId
          direct := false
          pendingResumeRanges := []
          ticket := true
          state := .waitingCommit } socket
    else if record.state = .waitingCommit ∨ record.state = .committedWaitingTicket then
      m.openRelay address { record with ticket := true, state := .waitingCommit } socket
    else m.setRecord address { record with ticket := true }

def commitUpgrade (address : Address) (record : Record) (attemptId : AttemptId) (size : Nat)
    (resumeRanges : List Range) : Memory :=
  ((m.abortAttempt record).setRecord address { record with
      upgrade := none
      attemptId := attemptId
      sink := some size
      direct := true
      socket := none
      ticket := false
      state := .committed }).beginSend record.transferId resumeRanges

def commitCurrent (address : Address) (record : Record) (path : Path) (resumeRanges : List Range) :
    Memory :=
  if record.state ≠ .waitingCommit then m
  else
    match path with
    | .direct =>
      if record.sink.isNone then
        m.setRecord address { record with state := .committedWaitingDirect, pendingResumeRanges := resumeRanges }
      else (m.setRecord address { record with state := .committed }).beginSend record.transferId resumeRanges
    | .relay =>
      if !record.ticket then m.setRecord address { record with state := .committedWaitingTicket }
      else (m.setRecord address { record with state := .committed }).beginSend record.transferId resumeRanges

def pathCommit (path : Path) (attemptId : AttemptId) (resumeRanges : List Range) : Memory :=
  match m.tracked transferId with
  | none => m
  | some (address, record) =>
    match record.upgrade with
    | some (next, size) =>
      if path = .direct ∧ next = attemptId then m.commitUpgrade address record attemptId size resumeRanges
      else if record.attemptId ≠ attemptId then m
      else m.commitCurrent address record path resumeRanges
    | none => if record.attemptId ≠ attemptId then m else m.commitCurrent address record path resumeRanges

def attachDirect (size : Nat) : Memory :=
  match m.tracked transferId with
  | none => m
  | some (address, record) =>
    if record.attemptId ≠ attemptId then m
    else
      let attached := { record with sink := some size, direct := true }
      if record.state = .waitingCommit then m.setRecord address attached
      else if record.state = .committedWaitingDirect then
        (m.setRecord address { attached with state := .committed }).beginSend transferId record.pendingResumeRanges
      else m

def detachDirect : Memory :=
  match m.tracked transferId with
  | none => m
  | some (address, record) =>
    if record.attemptId ≠ attemptId ∨ !record.direct then m
    else if record.state = .donePending then m.setRecord address { record with direct := false }
    else
      (m.abortAttempt record).setRecord address
        { record with
          sink := none
          direct := false
          state := if record.state = .sending ∨ record.state = .committed then .waitingCommit else record.state }

def attachUpgrade (size : Nat) : Memory :=
  match m.tracked transferId with
  | none => m
  | some (address, record) =>
    if record.attemptId = attemptId then m
    else m.setRecord address { record with upgrade := some (attemptId, size) }

def detachUpgrade : Memory :=
  match m.tracked transferId with
  | none => m
  | some (address, record) =>
    if record.upgrade.map Prod.fst ≠ some attemptId then m
    else m.setRecord address { record with upgrade := none }

def relayClosed (socket : Nat) : Memory :=
  match m.tracked transferId with
  | none => m
  | some (address, record) =>
    if record.socket ≠ some socket then m
    else if record.state ≠ .donePending ∧ !record.finalSent then m.forget transferId
    else m.setRecord address { record with sink := none, socket := none }

def took (id : RunId) (address : Address) (turn : Turn) : Memory :=
  { m with
    records := m.records.set address turn.record
    runs := m.runs.set id turn.run
    log := m.log ++ turn.sealed.toList }

def take (id : RunId) (address : Address) (turn : Turn) : Memory :=
  if turn.forgets then (m.took id address turn).forget turn.record.transferId else m.took id address turn

end Memory

structure Page extends Memory where
  incomings : List Incoming
  nextSocket : Nat

def createSender : Page := ⟨⟨[], ∅, [], []⟩, [], 0⟩

def senderMaxConcurrent : Nat := 8

/-- `incoming` names an offer that the page can serve; `forgets` stands for
every message and event that ends a transfer. -/
inductive Action
  | incoming (i : Incoming)
  | incomingResolves (position : Nat) (sent : Bool)
  | relayTicket (transferId : TransferId) (attemptId : AttemptId)
  | pathCommit (transferId : TransferId) (path : Path) (attemptId : AttemptId) (resumeRanges : List Range)
  | attachDirect (transferId : TransferId) (attemptId : AttemptId) (size : Nat)
  | detachDirect (transferId : TransferId) (attemptId : AttemptId)
  | attachUpgrade (transferId : TransferId) (attemptId : AttemptId) (size : Nat)
  | detachUpgrade (transferId : TransferId) (attemptId : AttemptId)
  | relayClosed (transferId : TransferId) (socket : Nat)
  | forgets (transferId : TransferId)
  | resume (id : RunId) (input : Input)
  deriving DecidableEq

def Memory.resume (hash : Hash) (m : Memory) (id : RunId) (input : Input) : Option Memory :=
  match m.runs[id]? with
  | none => none
  | some run =>
    match m.records[run.address]? with
    | none => none
    | some record => (run.resume hash record id input).map (m.take id run.address)

/-- One turn of the page. An action that finds nothing to do is not enabled. -/
def step (hash : Hash) (page : Page) : Action → Option Page
  | .incoming i =>
    if page.transfers.contains i.transferId ∨ page.transfers.size ≥ senderMaxConcurrent then none
    else some { page with incomings := page.incomings ++ [i] }
  | .incomingResolves position sent =>
    match page.incomings[position]? with
    | none => none
    | some i =>
      some { page with
        toMemory := page.toMemory.startIncoming i sent
        incomings := page.incomings.eraseIdx position }
  | .relayTicket transferId attemptId =>
    some { page with
      toMemory := page.toMemory.relayTicket transferId attemptId page.nextSocket
      nextSocket := page.nextSocket + 1 }
  | .pathCommit transferId path attemptId ranges =>
    some { page with toMemory := page.toMemory.pathCommit transferId path attemptId ranges }
  | .attachDirect transferId attemptId size =>
    some { page with toMemory := page.toMemory.attachDirect transferId attemptId size }
  | .detachDirect transferId attemptId =>
    some { page with toMemory := page.toMemory.detachDirect transferId attemptId }
  | .attachUpgrade transferId attemptId size =>
    some { page with toMemory := page.toMemory.attachUpgrade transferId attemptId size }
  | .detachUpgrade transferId attemptId =>
    some { page with toMemory := page.toMemory.detachUpgrade transferId attemptId }
  | .relayClosed transferId socket => some { page with toMemory := page.toMemory.relayClosed transferId socket }
  | .forgets transferId => some { page with toMemory := page.toMemory.forget transferId }
  | .resume id input => (page.toMemory.resume hash id input).map (fun m => { page with toMemory := m })

end Bore.Upload
