import Bore.Frames
import Bore.Table

namespace Bore.Download

open Frames

inductive DownloadState
  | requested
  | ticketed
  | direct
  | receiving
  | completePending
  | staged
  deriving DecidableEq

structure Budget where
  frames : Nat
  bytes : Nat

def reorderBudget (carriers : Nat) : Budget :=
  let n := max 1 (min carriers 64)
  ⟨min 4096 (512 * n), min (64 * 1024 * 1024) (8 * 1024 * 1024 * n)⟩

/-- What a download knows about its chunks: the plan of the attempt, the bytes
of the chunk that is incomplete, what is verified. `record` says whether a
stored record exists, `finalEntry` is what a verified FINAL wrote over an
archive's size, count and root. -/
structure Books where
  archive : Bool
  entry : Entry
  state : DownloadState
  chunkBuffers : List Bytes
  receivedBytes : Nat
  plan : List Nat
  planPos : Nat
  expectedBytes : Nat
  verifiedRanges : List Range
  leaves : List Bytes
  archiveChunks : Nat
  archiveBytes : Nat
  expectedTuple : Option ArchiveTuple
  record : Bool
  finalEntry : Option ArchiveTuple

/-- The live state of one download. Every attempt of the download uses this
one record. -/
structure Transfer extends Books where
  attemptId : Option AttemptId
  aesKey : Option AttemptId
  pendingFrames : List Message
  inbox : List Message
  reorder : Table Nat Message
  reorderWindow : Bool
  reorderLimits : Budget
  reorderNext : Nat
  pumping : Bool
  attemptClosed : Bool
  expectedSeq : Nat
  upgrade : Option (AttemptId × Nat)

inductive Goal
  | rawChunk (index : Nat)
  | archiveData
  | archiveFinal (tuple : ArchiveTuple)
  deriving DecidableEq

/-- The awaits of `pumpFrames` and of the functions it calls, with what their
continuations captured. -/
inductive Point
  | opening (aesKey : Option AttemptId) (batch : List (Message × Nat))
  | consuming
  | hashing (goal : Goal) (chunk : Bytes)
  | writing (goal : Goal) (chunk : Bytes) (index : Nat)
  | saving (goal : Goal)
  | rooting (tuple : ArchiveTuple) (root : Bytes)
  | recording (tuple : ArchiveTuple)
  deriving DecidableEq

structure Pump where
  attempt : Option AttemptId
  point : Point
  rest : List Opened

/-- What waits on the transfer's promise chain: a pump, the drain of a failed
direct attempt, the check after a relay socket closed. -/
inductive Job
  | pump
  | drain (attempt : AttemptId)
  | relayClosed (attempt : Option AttemptId)
  deriving DecidableEq

structure Derivation where
  attempt : Option AttemptId
  importing : Bool

/-- The download with everything that runs for it. `live` says that it is in
the table of transfers and its signal is not aborted, `parts` are the staged
part files, `completes` the completions without an answer, `stagings` the runs
of `stageCompleted` by the number of parts they named, and `staged` the parts
of the file that was announced. -/
structure System where
  transfer : Transfer
  live : Bool
  online : Bool
  running : Option Pump
  chain : List Job
  derivations : Table Nat Derivation
  nextDerivation : Nat
  parts : Table Nat Bytes
  completes : Nat
  stagings : List Nat
  staged : Option (List Bytes)

namespace Books

variable (b : Books)

def chunkCount : Nat :=
  match b.finalEntry with
  | some tuple => tuple.chunkCount
  | none => b.entry.chunkCount

def entrySize : Nat :=
  match b.finalEntry with
  | some tuple => tuple.totalBytes
  | none => b.entry.size

def buffered : Nat := (b.chunkBuffers.map List.length).sum

def windowBytes (send : List Nat) : Nat := (send.map (chunkWindow b.entry.size)).sum

def setLength (leaves : List Bytes) (length : Nat) : List Bytes :=
  leaves.take length ++ List.replicate (length - leaves.length) []

def rangesEnd (ranges : List Range) : Nat :=
  match ranges with
  | [] => 0
  | r :: _ => r.2

def replanKeep (ranges : List Range) : Nat :=
  min (rangesEnd (verifiedPrefix (ranges.filter (fun r => r.1 ≤ r.2)))) (rangesEnd b.verifiedRanges)

def replanArchive (ranges : List Range) : Books :=
  let keep := b.replanKeep ranges
  { b with
    leaves := setLength b.leaves keep
    archiveChunks := keep
    archiveBytes := keep * chunkBytes
    verifiedRanges := if keep = 0 then [] else [(0, keep)]
    chunkBuffers := []
    plan := []
    planPos := 0
    expectedBytes := 0 }

def planRaw (ranges : List Range) : Books :=
  let send := outside b.chunkCount ranges
  { b with plan := send, planPos := 0, expectedBytes := b.windowBytes send }

def adoptAttempt : Books :=
  let b := { b with chunkBuffers := [], receivedBytes := 0 }
  if b.archive then b.replanArchive b.verifiedRanges
  else
    let kept := capRanges (coalesceRanges b.verifiedRanges)
    { b with verifiedRanges := kept }.planRaw kept

def applyCommitPlan (ranges : List Range) : Books :=
  if b.archive then b.replanArchive ranges
  else
    let bounded := ranges.filter (inBounds b.chunkCount)
    { b.planRaw (capRanges (coalesceRanges bounded)) with chunkBuffers := [] }

def complete : Bool :=
  if b.chunkCount = 0 then b.verifiedRanges = [] else b.verifiedRanges = [(0, b.chunkCount)]

end Books

namespace Transfer

variable (t : Transfer)

def reorderBytes : Nat := (t.reorder.values.map frameByteLength).sum

def adoptAttempt (attemptId : AttemptId) : Transfer :=
  { t with
    toBooks := t.toBooks.adoptAttempt
    attemptId := some attemptId
    aesKey := none
    pendingFrames := []
    inbox := []
    reorder := ∅
    reorderNext := 0
    reorderWindow := false
    pumping := false
    attemptClosed := false
    expectedSeq := 0 }

def applyCommitPlan (ranges : List Range) : Transfer :=
  { t with toBooks := t.toBooks.applyCommitPlan ranges }

def releaseRun : Nat → Transfer → Transfer
  | 0, t => t
  | fuel + 1, t =>
    match t.reorder.get? t.reorderNext with
    | none => t
    | some next =>
      releaseRun fuel { t with
        reorder := t.reorder.erase t.reorderNext
        inbox := t.inbox ++ [next]
        reorderNext := t.reorderNext + 1 }

/-- The attempt can not be followed any more; what waits for order is dropped
and the page is told. -/
def failAttempt : Transfer :=
  if t.attemptClosed then t else { t with inbox := [], reorder := ∅ }

/-- Puts a message in order. `stalled` says that the oldest gap is older than
the window's deadline. The result says whether the inbox grew. -/
def admitInOrder (data : Message) (stalled : Bool) : Transfer × Bool :=
  if !t.reorderWindow then ({ t with inbox := t.inbox ++ [data] }, true)
  else
    match peekFrameSeq data with
    | none => (releaseRun t.reorder.size { t with inbox := t.inbox ++ [data], reorderNext := t.reorderNext + 1 }, true)
    | some seq =>
      if seq = t.reorderNext then
        (releaseRun t.reorder.size { t with inbox := t.inbox ++ [data], reorderNext := t.reorderNext + 1 }, true)
      else if seq < t.reorderNext ∨ t.reorder.contains seq then (t.failAttempt, false)
      else
        let held := { t with reorder := t.reorder.insert seq data }
        if held.reorder.size > t.reorderLimits.frames ∨ held.reorderBytes > t.reorderLimits.bytes ∨ stalled then
          (held.failAttempt, false)
        else (held, false)

def finalIsQueued : Bool :=
  [t.inbox, t.pendingFrames].any fun queue =>
    match queue.getLast? with
    | none => false
    | some data => peekFrameType data = none || peekFrameType data = some .final

def closeAttempt : Transfer :=
  { t with
    attemptClosed := true
    chunkBuffers := []
    inbox := []
    pendingFrames := []
    reorder := ∅ }

def stale (attempt : Option AttemptId) : Bool := t.attemptClosed || t.attemptId ≠ attempt

end Transfer

namespace System

variable (hash : Hash) (s : System) (p : Pump)

def setTransfer (t : Transfer) : System := { s with transfer := t }

def setBooks (b : Books) : System := s.setTransfer { s.transfer with toBooks := b }

def forget : System :=
  if s.live then { s with live := false, completes := 0, transfer := { s.transfer with aesKey := none } } else s

def deliverFrame (data : Message) (stalled : Bool) : System :=
  let t := s.transfer
  if t.attemptClosed then s
  else if t.aesKey.isNone then s.setTransfer { t with pendingFrames := t.pendingFrames ++ [data] }
  else
    match t.admitInOrder data stalled with
    | (t, false) => s.setTransfer t
    | (t, true) =>
      if t.pumping then s.setTransfer t
      else { s with transfer := { t with pumping := true }, chain := s.chain ++ [.pump] }

def goes (point : Point) : System := { s with running := some { p with point := point } }

/-- The pump returns: its `finally` clears the flag of its own attempt only. -/
def returns : System :=
  { s with
    running := none
    transfer := if s.transfer.stale p.attempt then s.transfer else { s.transfer with pumping := false } }

/-- The pump throws: its `catch` fails the transfer unless the attempt is over. -/
def throws : System :=
  (if s.transfer.stale p.attempt then s else s.forget).returns p

def framePipelineDepth : Nat := 8

def nextBatch : System :=
  let t := s.transfer
  if t.inbox = [] ∨ !s.live ∨ t.stale p.attempt then s.returns p
  else
    let batch := t.inbox.take framePipelineDepth
    (s.setTransfer { t with
      inbox := t.inbox.drop framePipelineDepth
      expectedSeq := t.expectedSeq + batch.length }).goes p (.opening t.aesKey (batch.zipIdx t.expectedSeq))

def openAll (aesKey : Option AttemptId) (batch : List (Message × Nat)) : Option (List Opened) :=
  batch.mapM (fun (data, seq) => decodeFrameWithKey aesKey data seq)

/-- The end of `acceptFinal` for both kinds of download. An offline control
channel throws after the state is written. -/
def finished : System :=
  let s := s.setTransfer { s.transfer with state := .completePending }
  if s.online then { s with completes := s.completes + 1 }.goes p .consuming else s.throws p

def checkTotals (tuple : ArchiveTuple) : System :=
  let t := s.transfer
  if t.stale p.attempt then s.goes p .consuming
  else if t.archiveBytes ≠ tuple.totalBytes then s.throws p
  else if t.archiveChunks ≠ tuple.chunkCount then s.throws p
  else
    match fileRoot hash t.leaves with
    | none => s.throws p
    | some root => s.goes p (.rooting tuple root)

def finishArchive (tuple : ArchiveTuple) : System :=
  (s.setTransfer { s.transfer with finalEntry := some tuple }).finished p

/-- The checks on the root. Nothing asks here whether the attempt is over. -/
def checkRoot (tuple : ArchiveTuple) (root : Bytes) : System :=
  let t := s.transfer
  if root ≠ tuple.root then s.throws p
  else if t.expectedTuple.any (· ≠ tuple) then s.throws p
  else
    let s := s.setTransfer { t with expectedTuple := some tuple }
    if t.record then s.goes p (.recording tuple) else s.finishArchive p tuple

/-- The first half of `commitArchiveChunk`: an empty buffer commits nothing. -/
def commitArchiveChunk (goal : Goal) : System :=
  let t := s.transfer
  if t.buffered = 0 then
    match goal with
    | .archiveFinal tuple => s.checkTotals hash p tuple
    | _ => s.goes p .consuming
  else (s.setTransfer { t with chunkBuffers := [] }).goes p (.hashing goal t.chunkBuffers.flatten)

def acceptArchiveData (plaintext : Bytes) : System :=
  let t := s.transfer
  let t := { t with
    chunkBuffers := t.chunkBuffers ++ [plaintext]
    receivedBytes := t.receivedBytes + plaintext.length }
  let s := s.setTransfer t
  if t.buffered < chunkBytes then s.goes p .consuming
  else if t.buffered > chunkBytes then s.throws p
  else s.commitArchiveChunk hash p .archiveData

def acceptRawData (plaintext : Bytes) : System :=
  let t := s.transfer
  match t.plan[t.planPos]? with
  | none => s.throws p
  | some chunkIndex =>
    let length := chunkWindow t.entry.size chunkIndex
    let t := { t with
      chunkBuffers := t.chunkBuffers ++ [plaintext]
      receivedBytes := t.receivedBytes + plaintext.length }
    if t.buffered < length then (s.setTransfer t).goes p .consuming
    else if t.buffered > length then (s.setTransfer t).throws p
    else
      (s.setTransfer { t with chunkBuffers := [] }).goes p
        (.hashing (.rawChunk chunkIndex) t.chunkBuffers.flatten)

def acceptData (plaintext : Bytes) : System :=
  if s.transfer.archive then s.acceptArchiveData hash p plaintext else s.acceptRawData p plaintext

def acceptFinal (plaintext : Bytes) : System :=
  let t := s.transfer
  if t.archive then
    match parseArchiveFinalPayload plaintext with
    | none => s.throws p
    | some tuple => s.commitArchiveChunk hash p (.archiveFinal tuple)
  else if plaintext.length ≠ 8 then s.throws p
  else if WireBytes.ofBe plaintext ≠ t.expectedBytes ∨ t.receivedBytes ≠ t.expectedBytes then s.throws p
  else if !t.complete then s.throws p
  else s.finished p

def consume : System :=
  match p.rest with
  | [] => s.nextBatch p
  | opened :: rest =>
    let p := { p with rest := rest }
    if !s.live ∨ s.transfer.stale p.attempt then s.returns p
    else
      match opened with
      | .data plaintext => s.acceptData hash p plaintext
      | .final plaintext => s.acceptFinal hash p plaintext

def hashed (goal : Goal) (chunk : Bytes) : System :=
  let t := s.transfer
  if t.stale p.attempt then s.goes p .consuming
  else
    match goal with
    | .rawChunk index =>
      if t.entry.chunks[index]? = some (hash.sha256 chunk) then s.goes p (.writing goal chunk index)
      else s.throws p
    | _ => s.goes p (.writing goal chunk t.archiveChunks)

def noteChunk (b : Books) (goal : Goal) (chunk : Bytes) (index : Nat) : Books :=
  match goal with
  | .rawChunk _ =>
    { b with verifiedRanges := coalesceRanges (b.verifiedRanges ++ [(index, index + 1)]), record := true }
  | _ =>
    { b with
      leaves := b.leaves ++ [hash.sha256 chunk]
      archiveChunks := index + 1
      archiveBytes := b.archiveBytes + chunk.length
      verifiedRanges := [(0, index + 1)]
      record := true }

def written (goal : Goal) (chunk : Bytes) (index : Nat) : System :=
  let s := { s with parts := s.parts.insert index chunk }
  if s.transfer.stale p.attempt then s.goes p .consuming
  else (s.setBooks (noteChunk hash s.transfer.toBooks goal chunk index)).goes p (.saving goal)

def saved (goal : Goal) : System :=
  let t := s.transfer
  if t.stale p.attempt then s.goes p .consuming
  else
    match goal with
    | .rawChunk _ => (s.setTransfer { t with planPos := t.planPos + 1 }).goes p .consuming
    | .archiveData => s.goes p .consuming
    | .archiveFinal tuple => s.checkTotals hash p tuple

def advance : System :=
  match p.point with
  | .opening aesKey batch =>
    match openAll aesKey batch with
    | none => s.throws p
    | some opened => { s with running := some { p with point := .consuming, rest := opened } }
  | .consuming => s.consume hash p
  | .hashing goal chunk => s.hashed hash p goal chunk
  | .writing goal chunk index => s.written hash p goal chunk index
  | .saving goal => s.saved hash p goal
  | .rooting tuple root => s.checkRoot p tuple root
  | .recording tuple => s.finishArchive p tuple

def closeDirect (attempt : AttemptId) : System :=
  let t := s.transfer
  if !s.live ∨ t.attemptId ≠ some attempt ∨ t.state = .completePending ∨ t.state = .staged ∨ t.attemptClosed then s
  else s.setTransfer t.closeAttempt

def relayCheck (attempt : Option AttemptId) : System :=
  let t := s.transfer
  if !s.live ∨ t.attemptId ≠ attempt ∨ t.state = .completePending ∨ t.state = .staged then s else s.forget

def startJob : Job → System
  | .pump => s.nextBatch ⟨s.transfer.attemptId, .consuming, []⟩
  | .drain attempt => s.closeDirect attempt
  | .relayClosed attempt => s.relayCheck attempt

def deriveAttemptKey : System :=
  { s with
    derivations := s.derivations.insert s.nextDerivation ⟨s.transfer.attemptId, false⟩
    nextDerivation := s.nextDerivation + 1 }

/-- The imported key is installed, whatever the current attempt is, and the
frames that waited for a key are delivered. -/
def installKey (aesKey : Option AttemptId) (stalled : Bool) : System :=
  let queued := s.transfer.pendingFrames
  let s := s.setTransfer { s.transfer with aesKey := aesKey, pendingFrames := [] }
  if s.live then queued.foldl (fun s data => s.deliverFrame data stalled) s else s

def beginDirect (attemptId : AttemptId) (carriers : Nat) : System :=
  if !s.live ∨ s.transfer.state ≠ .requested then s
  else
    (s.setTransfer { s.transfer.adoptAttempt attemptId with
      reorderWindow := decide (carriers > 1)
      reorderLimits := reorderBudget carriers
      state := .direct }).deriveAttemptKey

def prepareUpgrade (attemptId : AttemptId) (carriers : Nat) : System :=
  let t := s.transfer
  if !s.live ∨ t.attemptId = some attemptId ∨ (t.state ≠ .receiving ∧ t.state ≠ .ticketed) then s
  else s.setTransfer { t with upgrade := some (attemptId, max 1 carriers) }

def abandonUpgrade (attemptId : AttemptId) : System :=
  if s.live ∧ s.transfer.upgrade.map Prod.fst = some attemptId then
    s.setTransfer { s.transfer with upgrade := none }
  else s

def deliverDirectFrame (attemptId : AttemptId) (data : Message) (stalled : Bool) : System :=
  let t := s.transfer
  if !s.live ∨ t.attemptId ≠ some attemptId ∨ (t.state ≠ .direct ∧ t.state ≠ .receiving) then s
  else s.deliverFrame data stalled

def deliverRelayFrame (attempt : Option AttemptId) (data : Message) (stalled : Bool) : System :=
  if !s.live ∨ s.transfer.attemptId ≠ attempt then s else s.deliverFrame data stalled

def directFailed (attemptId : AttemptId) : System :=
  let t := s.transfer
  if !s.live ∨ t.attemptId ≠ some attemptId then s
  else if t.finalIsQueued ∨ t.state = .completePending then { s with chain := s.chain ++ [.drain attemptId] }
  else s.closeDirect attemptId

def openRelay : System :=
  if s.transfer.state = .requested then
    (s.setTransfer { s.transfer with state := .ticketed }).deriveAttemptKey
  else s

def relayTicket (attemptId : Option AttemptId) : System :=
  let t := s.transfer
  if !s.live then s
  else
    match t.attemptId, attemptId with
    | none, _ => (s.setTransfer { t with attemptId := attemptId }).openRelay
    | some _, none => s.openRelay
    | some current, some next =>
      if current = next then s.openRelay
      else if t.state = .completePending ∨ t.state = .staged then s
      else (s.setTransfer { t.adoptAttempt next with state := .requested }).openRelay

def commitCurrent (attemptId : AttemptId) (resumeRanges : List Range) : System :=
  let t := s.transfer
  if t.attemptId ≠ some attemptId then s
  else
    let t := t.applyCommitPlan resumeRanges
    s.setTransfer { t with state := if t.state = .direct then .receiving else t.state }

def commitUpgrade (attemptId : AttemptId) (carriers : Nat) (resumeRanges : List Range) : System :=
  let t : Transfer := { s.transfer.adoptAttempt attemptId with
    upgrade := none
    reorderWindow := decide (carriers > 1)
    reorderLimits := reorderBudget carriers }
  (s.setTransfer { t.applyCommitPlan resumeRanges with state := .receiving }).deriveAttemptKey

def commitDirect (attemptId : AttemptId) (resumeRanges : List Range) : System :=
  if !s.live then s
  else
    match s.transfer.upgrade with
    | some (next, carriers) =>
      if next = attemptId then s.commitUpgrade attemptId carriers resumeRanges
      else s.commitCurrent attemptId resumeRanges
    | none => s.commitCurrent attemptId resumeRanges

/-- The commit of a relay path takes the attempt it names without starting it
afresh. -/
def commitRelay (attemptId : AttemptId) (resumeRanges : List Range) : System :=
  if !s.live then s
  else
    let t := { s.transfer with attemptId := some attemptId }.applyCommitPlan resumeRanges
    s.setTransfer { t with state := if t.state = .ticketed ∨ t.state = .requested then .receiving else t.state }

def stageCompleted : System :=
  if s.live then { s with stagings := s.stagings ++ [s.transfer.chunkCount] } else s

def stagedBlob (parts : Table Nat Bytes) (count : Nat) : Option (List Bytes) := (List.range count).mapM parts.get?

def stage (count : Nat) : System :=
  match stagedBlob s.parts count with
  | none => s.forget
  | some blob =>
    if (blob.map List.length).sum ≠ s.transfer.entrySize then s.forget
    else ({ s with staged := some blob }.setTransfer { s.transfer with state := .staged }).forget

end System

/-- What an earlier download of the selection left: the ranges whose parts were
hashed again, the leaves of an archive, the tuple it must repeat. -/
structure Stored where
  ranges : List Range
  leaves : List Bytes
  expectedTuple : Option ArchiveTuple
  record : Bool
  parts : Table Nat Bytes

def startDownload (archive : Bool) (entry : Entry) (stored : Stored) : System :=
  let kept := if archive then verifiedPrefix stored.ranges else capRanges (coalesceRanges stored.ranges)
  let resumeChunks := if archive then Books.rangesEnd kept else 0
  let t : Transfer :=
    { archive, entry, attemptId := none, aesKey := none, pendingFrames := [], inbox := [], reorder := ∅,
      reorderWindow := false, reorderLimits := reorderBudget 1, reorderNext := 0, pumping := false,
      attemptClosed := false, chunkBuffers := [], expectedSeq := 0, receivedBytes := 0, plan := [], planPos := 0,
      expectedBytes := 0, verifiedRanges := kept, leaves := if archive then stored.leaves else [],
      archiveChunks := resumeChunks, archiveBytes := resumeChunks * chunkBytes,
      expectedTuple := stored.expectedTuple, record := stored.record, finalEntry := none, state := .requested,
      upgrade := none }
  { transfer := if archive then t else { t with toBooks := t.toBooks.planRaw kept },
    live := true, online := true, running := none, chain := [],
    derivations := ∅, nextDerivation := 0, parts := stored.parts, completes := 0, stagings := [], staged := none }

inductive Action
  | pump
  | pumpFails
  | derive (id : Nat) (stalled : Bool)
  | deriveFails (id : Nat)
  | beginDirect (attemptId : AttemptId) (carriers : Nat)
  | prepareUpgrade (attemptId : AttemptId) (carriers : Nat)
  | abandonUpgrade (attemptId : AttemptId)
  | directFrame (attemptId : AttemptId) (data : Message) (stalled : Bool)
  | relayFrame (attempt : Option AttemptId) (data : Message) (stalled : Bool)
  | directFailed (attemptId : AttemptId)
  | stalled
  | relayClosed (attempt : Option AttemptId)
  | relayTicket (attemptId : Option AttemptId)
  | commitDirect (attemptId : AttemptId) (resumeRanges : List Range)
  | commitRelay (attemptId : AttemptId) (resumeRanges : List Range)
  | completeAck
  | completeError (retry : Bool)
  | completed
  | stageResolves
  | cancelled
  | online (up : Bool)
  deriving DecidableEq

/-- One turn of the page. An action that finds nothing to do is not enabled. -/
def step (hash : Hash) (s : System) : Action → Option System
  | .pump =>
    match s.running, s.chain with
    | some p, _ => some (s.advance hash p)
    | none, job :: chain => some ({ s with chain := chain }.startJob job)
    | none, [] => none
  -- The repository refuses the write or the save that the pump waits for.
  | .pumpFails =>
    match s.running with
    | some p =>
      match p.point with
      | .writing .. | .saving .. => some (s.throws p)
      | _ => none
    | none => none
  | .derive id stalled =>
    match s.derivations.get? id with
    | none => none
    | some d =>
      if d.importing then
        some ({ s with derivations := s.derivations.erase id }.installKey d.attempt stalled)
      else if d.attempt.isNone then none
      else if !s.live then some { s with derivations := s.derivations.erase id }
      else some { s with derivations := s.derivations.insert id { d with importing := true } }
  | .deriveFails id =>
    match s.derivations.get? id with
    | none => none
    | some _ => some { s with derivations := s.derivations.erase id }.forget
  | .beginDirect attemptId carriers => some (s.beginDirect attemptId carriers)
  | .prepareUpgrade attemptId carriers => some (s.prepareUpgrade attemptId carriers)
  | .abandonUpgrade attemptId => some (s.abandonUpgrade attemptId)
  | .directFrame attemptId data stalled => some (s.deliverDirectFrame attemptId data stalled)
  | .relayFrame attempt data stalled => some (s.deliverRelayFrame attempt data stalled)
  | .directFailed attemptId => some (s.directFailed attemptId)
  -- The idle clock of a direct attempt that has nothing of its own left to do.
  | .stalled =>
    let t := s.transfer
    if s.live ∧ (t.state = .direct ∨ t.state = .receiving) ∧ !t.pumping ∧ t.inbox = [] then
      some (s.setTransfer t.failAttempt)
    else none
  | .relayClosed attempt =>
    if s.live ∧ s.transfer.attemptId = attempt then some { s with chain := s.chain ++ [.relayClosed attempt] }
    else none
  | .relayTicket attemptId => some (s.relayTicket attemptId)
  | .commitDirect attemptId ranges => some (s.commitDirect attemptId ranges)
  | .commitRelay attemptId ranges => some (s.commitRelay attemptId ranges)
  | .completeAck => if s.completes = 0 then none else some { s with completes := s.completes - 1 }.stageCompleted
  | .completeError retry =>
    if s.completes = 0 then none
    else some { s with completes := if retry ∧ s.online then s.completes else s.completes - 1 }
  | .completed => some s.stageCompleted
  | .stageResolves =>
    match s.stagings with
    | [] => none
    | count :: stagings => some ({ s with stagings := stagings }.stage count)
  | .cancelled => some s.forget
  | .online up => some { s with online := up }

theorem Transfer.releaseRun_eq (fuel : Nat) (t : Transfer) :
    ∃ inbox reorder next, t.releaseRun fuel = { t with inbox := inbox, reorder := reorder, reorderNext := next } := by
  induction fuel generalizing t with
  | zero => exact ⟨t.inbox, t.reorder, t.reorderNext, rfl⟩
  | succ _ ih =>
    rw [releaseRun]
    split
    · exact ⟨t.inbox, t.reorder, t.reorderNext, rfl⟩
    · obtain ⟨inbox, reorder, next, he⟩ := ih _
      exact ⟨inbox, reorder, next, he⟩

theorem Transfer.failAttempt_eq (t : Transfer) :
    ∃ inbox reorder, t.failAttempt = { t with inbox := inbox, reorder := reorder } := by
  rw [failAttempt]
  split
  · exact ⟨t.inbox, t.reorder, rfl⟩
  · exact ⟨[], ∅, rfl⟩

theorem Transfer.admitInOrder_eq (t : Transfer) (data : Message) (stalled : Bool) : ∃ inbox reorder next,
      (t.admitInOrder data stalled).1 = { t with inbox := inbox, reorder := reorder, reorderNext := next } := by
  have released := releaseRun_eq t.reorder.size { t with inbox := t.inbox ++ [data], reorderNext := t.reorderNext + 1 }
  unfold admitInOrder
  split
  · exact ⟨_, t.reorder, t.reorderNext, rfl⟩
  split
  · exact released
  rename_i seq _
  split
  · exact released
  split
  · obtain ⟨inbox, reorder, he⟩ := t.failAttempt_eq
    exact ⟨inbox, reorder, t.reorderNext, he⟩
  dsimp only
  split
  · obtain ⟨inbox, reorder, he⟩ := failAttempt_eq { t with reorder := t.reorder.insert seq data }
    exact ⟨inbox, reorder, t.reorderNext, he⟩
  · exact ⟨t.inbox, t.reorder.insert seq data, t.reorderNext, rfl⟩

theorem System.deliverFrame_eq (s : System) (data : Message) (stalled : Bool) :
    ∃ pendingFrames inbox reorder next pumping chain, s.deliverFrame data stalled = { s with
          transfer := { s.transfer with
            pendingFrames := pendingFrames
            inbox := inbox
            reorder := reorder
            reorderNext := next
            pumping := pumping }
          chain := chain } := by
  have same : ∃ pendingFrames inbox reorder next pumping chain,
      s = { s with
        transfer := { s.transfer with
          pendingFrames := pendingFrames
          inbox := inbox
          reorder := reorder
          reorderNext := next
          pumping := pumping }
        chain := chain } := ⟨_, _, _, _, _, _, rfl⟩
  unfold deliverFrame
  dsimp only
  split
  · exact same
  split
  · exact ⟨_, _, _, _, _, _, rfl⟩
  obtain ⟨inbox, reorder, next, he⟩ := s.transfer.admitInOrder_eq data stalled
  split
  · rename_i h
    rw [h] at he
    subst he
    exact ⟨_, _, _, _, _, _, rfl⟩
  rename_i h
  rw [h] at he
  subst he
  split
  · exact ⟨_, _, _, _, _, _, rfl⟩
  · exact ⟨_, _, _, _, _, _, rfl⟩

end Bore.Download
