import Bore.TransferReceiver

namespace Bore.TransferMoves

open OsPath PathTable TransferManifest TransferResume TransferReceiver

variable (services : Services) (job : Job)

inductive WorkerMove (s : System) (run : Run) (w : Nat) : Action → System → Prop
  | deliver (entryId chunkIndex : UInt32) (offset : UInt64) (len : UInt32) (payload : Bytes) (blake3 : String)
      (hw : run.workers.get? w = some .reading) :
      WorkerMove s run w (.deliver w entryId chunkIndex offset len payload blake3)
        (s.serve (run.setWorker w (receiveChunk services job entryId chunkIndex offset len payload blake3)))
  | unknown {entry chunkIndex payload}
      (hw : run.workers.get? w = some (.checked entry chunkIndex payload)) :
      WorkerMove s run w (.check w) (s.serve (run.setWorker w (.flushing (.closed false))))
  | skip {entry chunkIndex payload}
      (hw : run.workers.get? w = some (.checked entry chunkIndex payload))
      (hc : run.runtime.isChunkComplete entry.id chunkIndex = some true) :
      WorkerMove s run w (.check w) (s.serve (run.setWorker w .reading))
  | accept {entry chunkIndex payload}
      (hw : run.workers.get? w = some (.checked entry chunkIndex payload))
      (hc : run.runtime.isChunkComplete entry.id chunkIndex = some false) :
      WorkerMove s run w (.check w) (s.serve (run.setWorker w (.writing entry chunkIndex payload)))
  | writePart (k : Nat) {entry chunkIndex payload path data}
      (hw : run.workers.get? w = some (.writing entry chunkIndex payload))
      (hp : job.staged services run.name entry = some path) (hd : s.disk.get? path = some data) :
      WorkerMove s run w (.writePart w k)
        { s with disk := s.disk.insert path (writeAt data (chunkIndex.toNat * chunkSize) (payload.take k)) }
  | write {entry chunkIndex payload path data}
      (hw : run.workers.get? w = some (.writing entry chunkIndex payload))
      (hp : job.staged services run.name entry = some path) (hd : s.disk.get? path = some data) :
      WorkerMove s run w (.write w)
        { s.serve (run.setWorker w (.marking entry chunkIndex)) with
          disk := s.disk.insert path (writeAt data (chunkIndex.toNat * chunkSize) payload)
          written := (entry.id, chunkIndex) :: s.written }
  | unwritten {entry chunkIndex payload}
      (hw : run.workers.get? w = some (.writing entry chunkIndex payload)) :
      WorkerMove s run w (.write w) (s.serve (run.setWorker w (.flushing (.closed false))))
  | unmarked {entry chunkIndex}
      (hw : run.workers.get? w = some (.marking entry chunkIndex)) :
      WorkerMove s run w (.mark w) (s.serve (run.setWorker w (.flushing (.closed false))))
  | mark {entry chunkIndex path runtime flush}
      (hw : run.workers.get? w = some (.marking entry chunkIndex))
      (hm : run.runtime.markChunkComplete run.options.fsyncStaged entry.id chunkIndex path = some (runtime, flush)) :
      WorkerMove s run w (.mark w)
        (s.serve ({ run with runtime := runtime }.setWorker w (if flush then .flushing .nextFrame else .reading)))
  | idle {after runtime} (hw : run.workers.get? w = some (.flushing after))
      (ht : run.runtime.takePending = (runtime, none)) :
      WorkerMove s run w (.lock w) (s.serve ({ run with runtime := runtime }.setWorker w after.next))
  | lock {after runtime paths records}
      (hw : run.workers.get? w = some (.flushing after))
      (ht : run.runtime.takePending = (runtime, some (paths, records))) :
      WorkerMove s run w (.lock w) (s.serve ({ run with runtime := runtime }.setWorker w (.appending records after)))
  | append {records after} (hw : run.workers.get? w = some (.appending records after)) :
      WorkerMove s run w (.append w)
        ((appendBatch services job s records (8 * records.length)).serve (run.setWorker w after.next))
  | flushError (k : Nat) {records after}
      (hw : run.workers.get? w = some (.appending records after)) :
      WorkerMove s run w (.flushError w k)
        ((appendBatch services job s records k).serve (run.setWorker w after.failed))
  | workerDone (hw : run.workers.get? w = some .reading) :
      WorkerMove s run w (.workerDone w) (s.serve (run.setWorker w (.flushing .workerDone)))
  | workerError {worker} (hw : run.workers.get? w = some worker)
      (hr : worker = .reading ∨ (∃ entry chunkIndex payload, worker = .writing entry chunkIndex payload) ∨
        worker = .flushing (.closed true)) :
      WorkerMove s run w (.workerError w) (s.serve (run.setWorker w (.flushing (.closed false))))

def Passes (s : System) (run : Run) (entry : ManifestEntry) : Prop :=
  entry.isRegular = true → run.runtime.allChunksComplete entry.id = some true ∧
    (run.runtime.allChunksFresh entry.id entry.chunkCount = true ∨
      ∃ path data, job.staged services run.name entry = some path ∧ s.disk.get? path = some data ∧
        entry.fullHash = some (services.hash data))

inductive Move (s : System) : Action → System → Prop
  | halt (a : Action) : Move s a s.halt
  | start (options : Options) (hv : validateManifest job.begin.rootSource job.entries = .ok ()) :
      Move s (.start options) { s with phase := .opening options }
  | openState (satisfied : Bool) (name : Option Bytes) {options} (hp : s.phase = .opening options) :
      Move s (.openState satisfied name) { s with phase := openStep services job options satisfied name s.disk }
  | fold {options state state' replayed} (hp : s.phase = .loaded options state)
      (hj : applyResumeJournal state (s.disk.get? (job.journalFile services)) = (state', replayed)) :
      Move s .fold { s with phase := .folded options state' replayed }
  | create {options name state} (hp : s.phase = .creating options name state) :
      Move s .persist { s with disk := persistState services job s.disk state, phase := .created options name state }
  | resume {options state} (hp : s.phase = .folded options state 0) :
      Move s .persist { s with phase := resumeStep job options state }
  | checkpoint {options state replayed} (hp : s.phase = .folded options state replayed) :
      Move s .persist { s with disk := persistState services job s.disk state, phase := .persisted options state }
  | reset {run} (hp : s.phase = .resetting run) :
      Move s .persist { s with disk := persistState services job s.disk run.runtime.state, phase := .dropping run }
  | begin {options name state} (hp : s.phase = .created options name state) :
      Move s .truncate { s with
        disk := truncateJournal services job s.disk
        phase := .preparing options name state [] job.regular }
  | resumeTruncated {options state} (hp : s.phase = .persisted options state) :
      Move s .truncate { s with disk := truncateJournal services job s.disk, phase := resumeStep job options state }
  | drop {run} (hp : s.phase = .dropping run) :
      Move s .truncate { s.halt with disk := truncateJournal services job s.disk }
  | prepare {options name state plan entry}
      {todo path} (hp : s.phase = .preparing options name state plan (entry :: todo))
      (hs : job.staged services name entry = some path) :
      Move s .prepare { s with
        disk := s.disk.insert path (setLen ((s.disk.get? path).getD []) (entry.size.getD 0).toNat)
        phase := .preparing options name state plan todo }
  | serve {options name state plan}
      (hp : s.phase = .preparing options name state plan []) :
      Move s .prepare { s with phase := .serving ⟨options, name, .new state, ∅,
        expectedWorkerConnections job.begin.requestedParallel job.entries plan⟩ }
  | decline {options name state plan}
      (hp : s.phase = .preparing options name state plan []) : Move s .decline { s with phase := .removing false }
  | connect {run} (w : Nat) (hp : s.phase = .serving run) (hw : run.workers.get? w = none) :
      Move s (.connect w) (s.serve { run.setWorker w .reading with awaited := run.awaited - 1 })
  | worker {run w a s'} (hp : s.phase = .serving run)
      (hm : WorkerMove services job s run w a s') : Move s a s'
  | summary {run} (sender : TransferSummary) (hp : s.phase = .serving run)
      (hw : ∀ w worker, run.workers.get? w = some worker → worker = .finished true) :
      Move s (.summary sender) { s with phase := .verifying run sender job.entries }
  | verify {run sender entry rest}
      (hp : s.phase = .verifying run sender (entry :: rest)) (hv : Passes services job s run entry) :
      Move s .verify { s with phase := .verifying run sender rest }
  | mismatch {run sender entry rest}
      {runtime} (hp : s.phase = .verifying run sender (entry :: rest))
      (hr : run.runtime.resetFile entry.id = some runtime) :
      Move s .verify { s with phase := .resetting { run with runtime := runtime } }
  | verified {run sender} (hp : s.phase = .verifying run sender []) :
      Move s .verify { s with phase := .committing run (if job.begin.multiSource then job.children else []) }
  | commit {run todo disk} (found : Found) (hp : s.phase = .committing run todo)
      (hm : job.begin.multiSource = false)
      (hc : commitTree services job run.options.collision found run.name s.disk = some disk) :
      Move s (.commit found) { s with
        disk := disk
        phase := .removing true
        committed := movedFiles job run.name disk job.entries ++ s.committed }
  | commitEnd {run} (found : Found) (hp : s.phase = .committing run []) (hm : job.begin.multiSource = true) :
      Move s (.commit found) { s with phase := .removing true }
  | commitChild {run todo disk moved} (child : Component) (found : Found)
      (hp : s.phase = .committing run todo) (hm : child ∈ todo)
      (hc : commitChildTree services job run.options.collision found run.name child s.disk = some (disk, moved)) :
      Move s (.commitChild child found) { s with
        disk := disk
        phase := .committing run (todo.erase child)
        committed := (if moved then
          movedFiles job run.name disk (job.entries.filter (fun entry => Job.child? entry == some child))
          else []) ++ s.committed }
  | unlink {committed} (path : PathBuf) (hp : s.phase = .removing committed) :
      Move s (.unlink path) { s with disk := s.disk.erase path }
  | cleanup {committed} (hp : s.phase = .removing committed) :
      Move s .cleanup { s with phase := if committed then .completed else .down }
  | crash {run records after} (w k : Nat) (hp : s.phase = .serving run)
      (hw : run.workers.get? w = some (.appending records after)) :
      Move s (.stop w k) (appendBatch services job s records k).halt

variable {services job} {s s' : System}

def actor : Action → Option Nat
  | .deliver w _ _ _ _ _ _ | .check w | .writePart w _ | .write w | .mark w | .lock w | .append w | .flushError w _
  | .workerDone w | .workerError w => some w
  | _ => none

theorem workerStep_move {run : Run} {w : Nat} {a : Action} (ha : actor a = some w)
    (h : workerStep services job s run w a = some s') : WorkerMove services job s run w a s' := by
  revert h
  fun_cases workerStep services job s run w a
  all_goals rintro ⟨⟩
  all_goals cases ha
  case case1.refl hw => exact .deliver _ _ _ _ _ _ hw
  case case3.refl hw _ => exact .unknown hw
  case case4.refl hw hc => exact .skip hw hc
  case case5.refl hw hc => exact .accept hw hc
  case case7.refl hw _ _ hd hp =>
    rw [hp, Option.bind_some] at hd
    exact .writePart _ hw hp hd
  case case10.refl | case11.refl => exact .unwritten (by assumption)
  case case12.refl => exact .write (by assumption) (by assumption) (by assumption)
  case case14.refl hw _ => exact .unmarked hw
  case case15.refl => exact .mark (by assumption) (by assumption)
  case case18.refl => exact .idle (by assumption) (by assumption)
  case case19.refl => exact .lock (by assumption) (by assumption)
  case case21.refl hw => exact .append hw
  case case23.refl hw => exact .flushError _ hw
  case case25.refl hw => exact .workerDone hw
  case case27.refl hw => exact .workerError hw (.inl rfl)
  case case28.refl hw => exact .workerError hw (.inr (.inl ⟨_, _, _, rfl⟩))
  case case29.refl hw => exact .workerError hw (.inr (.inr rfl))

theorem verifyStep_move {run : Run} {sender : TransferSummary} {entry : ManifestEntry} {rest : List ManifestEntry}
    (hp : s.phase = .verifying run sender (entry :: rest)) :
    Move services job s .verify (verifyStep services job s run sender entry rest) := by
  unfold verifyStep
  by_cases hr : entry.isRegular = true
  · simp only [hr, Bool.not_true, Bool.false_eq_true, if_false]
    split
    · rename_i hcomplete hhash
      split
      · rename_i hf
        exact .verify hp (fun _ => ⟨hcomplete, .inl hf⟩)
      split
      · exact .halt _
      rename_i data hd
      obtain ⟨path, hpath, hd⟩ := Option.bind_eq_some_iff.mp hd
      split
      · rename_i he
        exact .verify hp (fun _ => ⟨hcomplete, .inr ⟨path, data, hpath, hd, by rw [hhash, he]⟩⟩)
      · split
        · exact .halt _
        · exact .mismatch hp (by assumption)
    · exact .halt _
  · simp only [hr, Bool.not_false, if_true]
    exact .verify hp (fun h => absurd h hr)

theorem stopStep_move (w k : Nat) : Move services job s (.stop w k) (stopStep services job s w k) := by
  unfold stopStep
  split
  · rename_i hp
    split
    · exact .crash w k hp (by assumption)
    · exact .halt _
  · exact .halt _

theorem all_finished {workers : Table Nat Worker} (h : workers.values.all (fun worker => worker == .finished true) = true)
    (w : Nat) (worker : Worker) (hw : workers.get? w = some worker) : worker = .finished true := by
  have hm : worker ∈ workers.values := (Table.mem_values_iff workers worker).mpr ⟨w, hw⟩
  simpa using List.all_eq_true.mp h worker hm

theorem step_move {a : Action} (h : step services job s a = some s') : Move services job s a s' := by
  revert h
  fun_cases step services job s a
  case case22 | case23 | case24 | case25 | case26 | case27 | case28 | case29 | case30 | case31 =>
    exact fun h => .worker (by assumption) (workerStep_move rfl h)
  all_goals rintro ⟨⟩
  case case1 | case3 | case5 => exact .start _ (by assumption)
  case case7 hp => exact .openState _ _ hp
  case case8 hp _ _ hf => exact .fold hp hf
  case case9 hp => exact .create hp
  case case10 hp => exact .resume hp
  case case11 hp _ => exact .checkpoint hp
  case case12 hp => exact .reset hp
  case case13 hp => exact .begin hp
  case case14 hp => exact .resumeTruncated hp
  case case15 hp => exact .drop hp
  case case17 hp _ hf =>
    obtain ⟨path, hs, rfl⟩ := Option.map_eq_some_iff.mp hf
    exact .prepare hp hs
  case case18 hp => exact .serve hp
  case case19 hp => exact .decline hp
  case case21 hp hc =>
    simp only [Bool.or_eq_true, not_or, Table.contains, Bool.not_eq_true, Option.isSome_eq_false_iff,
      Option.isNone_iff_eq_none] at hc
    exact .connect _ hp hc.2
  case case32 hp hc => exact .summary _ hp (all_finished (Bool.and_eq_true_iff.mp hc).2)
  case case34 hp => exact verifyStep_move hp
  case case35 hp => exact .verified hp
  case case37 hp hm ht =>
    rw [List.isEmpty_iff.mp ht] at hp
    exact .commitEnd _ hp hm
  case case40 hp hm _ hd => exact .commit _ hp (Bool.not_eq_true _ ▸ hm) hd
  case case43 hp hm _ _ hd => exact .commitChild _ _ hp (by simpa using hm) hd
  case case44 hp _ => exact .unlink _ hp
  case case46 hp => exact .cleanup hp
  case case47 => exact stopStep_move _ _
  all_goals exact .halt _

end Bore.TransferMoves
