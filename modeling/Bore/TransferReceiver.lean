import Bore.PathTable
import Bore.Runs
import Bore.TransferResume

namespace Bore.TransferReceiver

open OsPath PathTable TransferManifest TransferResume

inductive CollisionPolicy
  | fail
  | overwrite
  | rename
  deriving DecidableEq

/-- The codecs the receiver calls: BLAKE3 in hex, the digests it takes of JSON
texts, and the text of `state.json`. -/
structure Services where
  hash : Bytes → String
  manifestHash : String → RootSourceKind → List ManifestEntry → String
  transferHash : List ManifestEntry → String
  encodeState : ResumeState → Bytes
  decodeState : Bytes → Option ResumeState
  decode_encode : ∀ state, decodeState (encodeState state) = some state

structure Job where
  begin : BeginFrame
  entries : List ManifestEntry
  destRoot : PathBuf
  filesystem : begin.rootSource = .filesystem

structure Options where
  collision : CollisionPolicy
  fsyncStaged : Bool

abbrev Disk := Table PathBuf Bytes

def zeros (n : Nat) : Bytes := List.replicate n 0

def setLen (data : Bytes) (size : Nat) : Bytes := data.take size ++ zeros (size - data.length)

def writeAt (data : Bytes) (offset : Nat) (payload : Bytes) : Bytes :=
  setLen data offset ++ payload ++ data.drop (offset + payload.length)

namespace Job

variable (services : Services) (job : Job)

def stageDir : PathBuf :=
  job.destRoot.joinBytes (asciiBytes (".bore-transfer-state-" ++
    services.hash (textBytes job.begin.transferId.toList)))

def stateFile : PathBuf := (job.stageDir services).joinBytes (asciiBytes "state.json")

def stateTmp : PathBuf := (job.stageDir services).joinBytes (asciiBytes "state.tmp")

def journalFile : PathBuf := (job.stageDir services).joinBytes (asciiBytes "state.log")

def manifestHash : String := services.manifestHash job.begin.rootName job.begin.rootSource job.entries

def stageRoot (name : Bytes) : PathBuf := (job.stageDir services).joinBytes name

def finalPath (name : Bytes) : PathBuf := if job.begin.multiSource then job.destRoot else job.destRoot.joinBytes name

def regular : List ManifestEntry := job.entries.filter ManifestEntry.isRegular

def summary : TransferSummary where
  regularFiles := job.regular.length
  directories := (job.entries.filter (fun e => e.kind == .directory)).length
  symlinks := (job.entries.filter (fun e => e.kind == .symlink)).length
  devices := (job.entries.filter (fun e => e.kind == .charDevice || e.kind == .blockDevice)).length
  totalBytes := (job.regular.map (fun e => (e.size.getD 0).toNat)).sum
  transferHash := services.transferHash job.entries

def staged (name : Bytes) (entry : ManifestEntry) : Option PathBuf :=
  (stagePath (job.stageRoot services name) entry.relPath).toOption

def child? (entry : ManifestEntry) : Option Component :=
  (decodeRelativePath entry.relPath).toOption.bind (fun path => path.components.head?)

end Job

def multiSourceStageRoot : Bytes := asciiBytes ".bore-multi-root"

inductive AfterFlush
  | nextFrame
  | workerDone
  | closed (ok : Bool)
  deriving DecidableEq

inductive Worker
  | reading
  | checked (entry : ManifestEntry) (chunkIndex : UInt32) (payload : Bytes)
  | writing (entry : ManifestEntry) (chunkIndex : UInt32) (payload : Bytes)
  | marking (entry : ManifestEntry) (chunkIndex : UInt32)
  | flushing (after : AfterFlush)
  | appending (records : List Record) (after : AfterFlush)
  | finished (ok : Bool)
  deriving DecidableEq

structure Run where
  options : Options
  name : Bytes
  runtime : ResumeRuntime
  workers : Table Nat Worker
  awaited : Nat

inductive Phase
  | down
  | opening (options : Options)
  | creating (options : Options) (name : Bytes) (state : ResumeState)
  | created (options : Options) (name : Bytes) (state : ResumeState)
  | loaded (options : Options) (state : ResumeState)
  | folded (options : Options) (state : ResumeState) (replayed : Nat)
  | persisted (options : Options) (state : ResumeState)
  | preparing (options : Options) (name : Bytes) (state : ResumeState) (plan : List ResumeFilePlan)
      (todo : List ManifestEntry)
  | serving (run : Run)
  | verifying (run : Run) (sender : TransferSummary) (todo : List ManifestEntry)
  | resetting (run : Run)
  | dropping (run : Run)
  | committing (run : Run) (todo : List Component)
  | removing (committed : Bool)
  | completed
  | reacknowledged

/-- The disk outlives the runs. `written`, `recorded` and `committed` are the
history: the chunks whose bytes were put into their staged file, the records
that were appended in full, and the files that were moved to their destination. -/
structure System where
  disk : Disk
  phase : Phase
  written : List Record
  recorded : List Record
  committed : List (ManifestEntry × Option Bytes)

inductive Found
  | absent
  | matching
  | differing
  deriving DecidableEq

/-- What happens next. Frames, the answers of the destination outside the staging
directory, failures and the end of a run come from the environment. -/
inductive Action
  | start (options : Options)
  | openState (satisfied : Bool) (name : Option Bytes)
  | fold
  | persist
  | truncate
  | prepare
  | decline
  | connect (w : Nat)
  | deliver (w : Nat) (entryId chunkIndex : UInt32) (offset : UInt64) (len : UInt32) (payload : Bytes) (blake3 : String)
  | check (w : Nat)
  | writePart (w k : Nat)
  | write (w : Nat)
  | mark (w : Nat)
  | lock (w : Nat)
  | append (w : Nat)
  | flushError (w k : Nat)
  | workerDone (w : Nat)
  | workerError (w : Nat)
  | summary (sender : TransferSummary)
  | verify
  | commit (found : Found)
  | commitChild (child : Component) (found : Found)
  | unlink (path : PathBuf)
  | cleanup
  | stop (w k : Nat)

section Steps

variable (services : Services) (job : Job)

def persistState (disk : Disk) (state : ResumeState) : Disk :=
  (disk.erase (job.stateTmp services)).insert (job.stateFile services) (services.encodeState state)

def truncateJournal (disk : Disk) : Disk := disk.erase (job.journalFile services)

def appendJournal (disk : Disk) (bytes : Bytes) : Disk :=
  disk.insert (job.journalFile services) ((disk.get? (job.journalFile services)).getD [] ++ bytes)

def appendBatch (s : System) (records : List Record) (k : Nat) : System :=
  if records.isEmpty || k = 0 then s
  else { s with
    disk := appendJournal services job s.disk ((records.flatMap recordBytes).take k)
    recorded := records.take (k / 8) ++ s.recorded }

/-- A transfer starts over. `name` is what the destination's names leave of the
requested one. -/
def createStep (options : Options) (name : Option Bytes) : Phase :=
  match (if job.begin.multiSource then some multiSourceStageRoot else name) with
  | none => .down
  | some name => .creating options name
      (freshResumeState job.begin.transferId (job.manifestHash services) (encodeComponentOs name) job.entries)

/-- Look for `state.json`. Without one, a destination that has the content
already is acknowledged again; a state that cannot be read starts the transfer
over. -/
def openStep (options : Options) (satisfied : Bool) (name : Option Bytes) (disk : Disk) : Phase :=
  match disk.get? (job.stateFile services) with
  | none => if satisfied then .reacknowledged else createStep services job options name
  | some bytes =>
    match services.decodeState bytes with
    | none => createStep services job options name
    | some state =>
      if state.protocolVersion ≠ protocolVersion then .down
      else if state.transferId ≠ job.begin.transferId || state.manifestHash ≠ job.manifestHash services then .down
      else .loaded options state

def resumeStep (options : Options) (state : ResumeState) : Phase :=
  match buildResumePlan job.entries state.files with
  | .error _ => .down
  | .ok plan => .preparing options (decodeComponent state.finalName) state plan job.regular

def prepareFile (name : Bytes) (disk : Disk) (entry : ManifestEntry) : Option Disk :=
  (job.staged services name entry).map (fun path =>
    disk.insert path (setLen ((disk.get? path).getD []) (entry.size.getD 0).toNat))

def AfterFlush.next : AfterFlush → Worker
  | .nextFrame => .reading
  | .workerDone => .flushing (.closed true)
  | .closed ok => .finished ok

def AfterFlush.failed : AfterFlush → Worker
  | .nextFrame | .workerDone => .flushing (.closed false)
  | .closed _ => .finished false

def receiveChunk (entryId chunkIndex : UInt32) (offset : UInt64) (len : UInt32) (payload : Bytes) (blake3 : String) :
    Worker :=
  match job.entries.find? (fun entry => entry.id == entryId) with
  | none => .flushing (.closed false)
  | some entry =>
    if !entry.isRegular then .flushing (.closed false)
    else match validateChunkGeometry entry chunkIndex offset len with
      | .error _ => .flushing (.closed false)
      | .ok () =>
        if payload.length ≠ len.toNat || services.hash payload ≠ blake3 then .flushing (.closed false)
        else .checked entry chunkIndex payload

def Run.setWorker (run : Run) (w : Nat) (worker : Worker) : Run := { run with workers := run.workers.insert w worker }

def Run.persisting (run : Run) : Bool := run.workers.values.any (fun worker =>
  match worker with
  | .appending _ _ => true
  | _ => false)

def System.serve (s : System) (run : Run) : System := { s with phase := .serving run }

def System.halt (s : System) : System := { s with phase := .down }

def workerStep (s : System) (run : Run) (w : Nat) : Action → Option System
  | .deliver _ entryId chunkIndex offset len payload blake3 =>
    match run.workers.get? w with
    | some .reading =>
      some (s.serve (run.setWorker w (receiveChunk services job entryId chunkIndex offset len payload blake3)))
    | _ => none
  | .check _ =>
    match run.workers.get? w with
    | some (.checked entry chunkIndex payload) =>
      match run.runtime.isChunkComplete entry.id chunkIndex with
      | none => some (s.serve (run.setWorker w (.flushing (.closed false))))
      | some true => some (s.serve (run.setWorker w .reading))
      | some false => some (s.serve (run.setWorker w (.writing entry chunkIndex payload)))
    | _ => none
  | .writePart _ k =>
    match run.workers.get? w with
    | some (.writing entry chunkIndex payload) =>
      match (job.staged services run.name entry), (job.staged services run.name entry).bind s.disk.get? with
      | some path, some data =>
        some { s with disk := s.disk.insert path (writeAt data (chunkIndex.toNat * chunkSize) (payload.take k)) }
      | _, _ => none
    | _ => none
  | .write _ =>
    match run.workers.get? w with
    | some (.writing entry chunkIndex payload) =>
      match job.staged services run.name entry with
      | none => some (s.serve (run.setWorker w (.flushing (.closed false))))
      | some path =>
        match s.disk.get? path with
        | none => some (s.serve (run.setWorker w (.flushing (.closed false))))
        | some data =>
          some { s.serve (run.setWorker w (.marking entry chunkIndex)) with
            disk := s.disk.insert path (writeAt data (chunkIndex.toNat * chunkSize) payload)
            written := (entry.id, chunkIndex) :: s.written }
    | _ => none
  | .mark _ =>
    match run.workers.get? w with
    | some (.marking entry chunkIndex) =>
      match run.runtime.markChunkComplete run.options.fsyncStaged entry.id chunkIndex
          ((job.staged services run.name entry).getD {}) with
      | none => some (s.serve (run.setWorker w (.flushing (.closed false))))
      | some (runtime, flush) =>
        some (s.serve ({ run with runtime := runtime }.setWorker w (if flush then .flushing .nextFrame else .reading)))
    | _ => none
  | .lock _ =>
    match run.workers.get? w with
    | some (.flushing after) =>
      if run.persisting then none
      else match run.runtime.takePending with
        | (runtime, none) => some (s.serve ({ run with runtime := runtime }.setWorker w after.next))
        | (runtime, some (_, records)) => some (s.serve ({ run with runtime := runtime }.setWorker w (.appending records after)))
    | _ => none
  | .append _ =>
    match run.workers.get? w with
    | some (.appending records after) =>
      some ((appendBatch services job s records (8 * records.length)).serve (run.setWorker w after.next))
    | _ => none
  | .flushError _ k =>
    match run.workers.get? w with
    | some (.appending records after) =>
      some ((appendBatch services job s records k).serve (run.setWorker w after.failed))
    | _ => none
  | .workerDone _ =>
    match run.workers.get? w with
    | some .reading => some (s.serve (run.setWorker w (.flushing .workerDone)))
    | _ => none
  | .workerError _ =>
    match run.workers.get? w with
    | some .reading | some (.writing _ _ _) | some (.flushing (.closed true)) =>
      some (s.serve (run.setWorker w (.flushing (.closed false))))
    | _ => none
  | _ => none

/-- The next entry of `verify_summary`. The file is not read again when as many
chunks were marked in this run as it has. -/
def verifyStep (s : System) (run : Run) (sender : TransferSummary) (entry : ManifestEntry)
    (rest : List ManifestEntry) : System :=
  let next : System := { s with phase := .verifying run sender rest }
  if !entry.isRegular then next
  else match run.runtime.allChunksComplete entry.id, entry.fullHash with
    | some true, some expected =>
      if run.runtime.allChunksFresh entry.id entry.chunkCount then next
      else match (job.staged services run.name entry).bind s.disk.get? with
        | none => s.halt
        | some data =>
          if services.hash data = expected then next
          else match run.runtime.resetFile entry.id with
            | none => s.halt
            | some runtime => { s with phase := .resetting { run with runtime := runtime } }
    | _, _ => s.halt

def Job.children : List Component := (job.entries.filterMap Job.child?).dedup

def Job.final (name : Bytes) (entry : ManifestEntry) : Option PathBuf :=
  (stagePath (job.finalPath name) entry.relPath).toOption

def commitTree (collision : CollisionPolicy) (found : Found) (name : Bytes) (disk : Disk) : Option Disk :=
  let final := job.finalPath name
  let root := job.stageRoot services name
  if found = .absent then some (disk.renameTree root final)
  else match collision with
    | .fail | .rename => none
    | .overwrite =>
      let backup := (job.stageDir services).joinBytes (asciiBytes "overwrite-backup")
      some (((disk.renameTree final backup).renameTree root final).retain (fun path _ => !under backup path))

def commitChildTree (collision : CollisionPolicy) (found : Found) (name : Bytes) (child : Component) (disk : Disk) :
    Option (Disk × Bool) :=
  let only : PathBuf := { components := [child] }
  let moved := disk.renameTree ((job.stageRoot services name).join only) (job.destRoot.join only)
  match found, collision with
  | .absent, _ => some (moved, true)
  | .matching, _ => some (disk, false)
  | .differing, .overwrite => some (moved, true)
  | .differing, .fail | .differing, .rename => none

def movedFiles (name : Bytes) (disk : Disk) (entries : List ManifestEntry) : List (ManifestEntry × Option Bytes) :=
  (entries.filter ManifestEntry.isRegular).map (fun entry =>
    (entry, (job.final name entry).bind disk.get?))

/-- A run ends: the process is killed, or the transfer fails. Of an append that
is under way the first `k` bytes are on the disk. -/
def stopStep (s : System) (w k : Nat) : System :=
  match s.phase with
  | .serving run =>
    match run.workers.get? w with
    | some (.appending records _) => (appendBatch services job s records k).halt
    | _ => s.halt
  | _ => s.halt

def step (s : System) (a : Action) : Option System :=
  match a, s.phase with
  | .start options, .down | .start options, .completed | .start options, .reacknowledged =>
    match validateManifest job.begin.rootSource job.entries with
    | .ok () => some { s with phase := .opening options }
    | .error _ => some s.halt
  | .openState satisfied name, .opening options =>
    some { s with phase := openStep services job options satisfied name s.disk }
  | .fold, .loaded options state =>
    let (state, replayed) := applyResumeJournal state (s.disk.get? (job.journalFile services))
    some { s with phase := .folded options state replayed }
  | .persist, .creating options name state =>
    some { s with disk := persistState services job s.disk state, phase := .created options name state }
  | .persist, .folded options state replayed =>
    if replayed = 0 then some { s with phase := resumeStep job options state }
    else some { s with disk := persistState services job s.disk state, phase := .persisted options state }
  | .persist, .resetting run =>
    some { s with disk := persistState services job s.disk run.runtime.state, phase := .dropping run }
  | .truncate, .created options name state =>
    some { s with
      disk := truncateJournal services job s.disk
      phase := .preparing options name state [] job.regular }
  | .truncate, .persisted options state =>
    some { s with disk := truncateJournal services job s.disk, phase := resumeStep job options state }
  | .truncate, .dropping _ => some { s.halt with disk := truncateJournal services job s.disk }
  | .prepare, .preparing options name state plan (entry :: todo) =>
    match prepareFile services job name s.disk entry with
    | none => some s.halt
    | some disk => some { s with disk := disk, phase := .preparing options name state plan todo }
  | .prepare, .preparing options name state plan [] =>
    some { s with phase := .serving ⟨options, name, .new state, ∅,
      expectedWorkerConnections job.begin.requestedParallel job.entries plan⟩ }
  | .decline, .preparing _ _ _ _ [] => some { s with phase := .removing false }
  | .connect w, .serving run =>
    if run.awaited = 0 || run.workers.contains w then none
    else some (s.serve { run.setWorker w .reading with awaited := run.awaited - 1 })
  | .deliver w _ _ _ _ _ _, .serving run | .check w, .serving run | .writePart w _, .serving run
  | .write w, .serving run | .mark w, .serving run | .lock w, .serving run | .append w, .serving run
  | .flushError w _, .serving run | .workerDone w, .serving run | .workerError w, .serving run => workerStep services job s run w a
  | .summary sender, .serving run =>
    if run.awaited = 0 && run.workers.values.all (fun worker => worker == .finished true) then
      some { s with phase := .verifying run sender job.entries }
    else none
  | .verify, .verifying run sender (entry :: rest) => some (verifyStep services job s run sender entry rest)
  | .verify, .verifying run sender [] =>
    if sender = job.summary services then
      some { s with phase := .committing run (if job.begin.multiSource then job.children else []) }
    else some s.halt
  | .commit found, .committing run todo =>
    if job.begin.multiSource then
      if todo.isEmpty then some { s with phase := .removing true } else none
    else match commitTree services job run.options.collision found run.name s.disk with
      | none => some s.halt
      | some disk => some { s with
          disk := disk
          phase := .removing true
          committed := movedFiles job run.name disk job.entries ++ s.committed }
  | .commitChild child found, .committing run todo =>
    if !todo.contains child then none
    else match commitChildTree services job run.options.collision found run.name child s.disk with
      | none => some s.halt
      | some (disk, moved) => some { s with
          disk := disk
          phase := .committing run (todo.erase child)
          committed := (if moved then
            movedFiles job run.name disk (job.entries.filter (fun entry => Job.child? entry == some child))
            else []) ++ s.committed }
  | .unlink path, .removing _ =>
    if under (job.stageDir services) path then some { s with disk := s.disk.erase path } else none
  | .cleanup, .removing committed => some { s with phase := if committed then .completed else .down }
  | .stop w k, _ => some (stopStep services job s w k)
  | _, _ => none

end Steps

end Bore.TransferReceiver
