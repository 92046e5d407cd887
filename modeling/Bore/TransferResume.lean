import Bore.Table
import Bore.TransferManifest

namespace Bore.TransferResume

open OsPath TransferManifest

def leBytes (n : UInt32) : Bytes :=
  [UInt8.ofNat n.toNat, UInt8.ofNat (n.toNat / 256), UInt8.ofNat (n.toNat / 65536), UInt8.ofNat (n.toNat / 16777216)]

def ofLeBytes (a b c d : UInt8) : UInt32 :=
  UInt32.ofNat (a.toNat + 256 * b.toNat + 65536 * c.toNat + 16777216 * d.toNat)

abbrev Record := UInt32 × UInt32

def recordBytes (record : Record) : Bytes := leBytes record.1 ++ leBytes record.2

/-- The records a reader of the journal sees; fewer than eight bytes at the end
are not read. -/
def readRecords : Bytes → List Record
  | a :: b :: c :: d :: e :: f :: g :: h :: rest => (ofLeBytes a b c d, ofLeBytes e f g h) :: readRecords rest
  | _ => []

/-- `entry_id` to position; a later file of the same entry replaces an earlier
one. -/
def fileIndex (entryId : UInt32) : List FileResumeState → Option Nat
  | [] => none
  | file :: files =>
    match fileIndex entryId files with
    | some pos => some (pos + 1)
    | none => if file.entryId = entryId then some 0 else none

def setChunk (chunkIndex : Nat) (file : FileResumeState) : FileResumeState :=
  { file with completed := file.completed.set chunkIndex true }

/-- A record of an entry or a chunk that the state does not have is ignored. -/
def applyRecord (acc : ResumeState × Nat) (record : Record) : ResumeState × Nat :=
  match fileIndex record.1 acc.1.files with
  | none => acc
  | some pos =>
    match acc.1.files[pos]? with
    | none => acc
    | some file =>
      match file.completed[record.2.toNat]? with
      | some false =>
        ({ acc.1 with files := acc.1.files.set pos (setChunk record.2.toNat file) }, acc.2 + 1)
      | _ => acc

def applyResumeJournal (state : ResumeState) (journal : Option Bytes) : ResumeState × Nat :=
  match journal with
  | none => (state, 0)
  | some bytes => (readRecords bytes).foldl applyRecord (state, 0)

structure ResumeRuntime where
  state : ResumeState
  dirtyPaths : List PathBuf
  pendingPersist : Nat
  pendingJournal : List Record
  freshChunks : Table UInt32 Nat

def ResumeRuntime.new (state : ResumeState) : ResumeRuntime := ⟨state, [], 0, [], ∅⟩

def resumeFlushEveryChunks : Nat := 8

namespace ResumeRuntime

variable (runtime : ResumeRuntime)

def file? (entryId : UInt32) : Option FileResumeState :=
  (fileIndex entryId runtime.state.files).bind (fun pos => runtime.state.files[pos]?)

/-- `none` stands for the error of an entry the state does not have. -/
def isChunkComplete (entryId chunkIndex : UInt32) : Option Bool :=
  (runtime.file? entryId).map (fun file => file.completed.getD chunkIndex.toNat false)

def fresh (entryId : UInt32) : Nat := (runtime.freshChunks.get? entryId).getD 0

/-- The locked part of `mark_chunk_complete`: the chunk counts as fresh whether
or not it was complete before. The flag asks for a flush. -/
def markChunkComplete (fsyncStaged : Bool) (entryId chunkIndex : UInt32) (path : PathBuf)
    (runtime : ResumeRuntime) : Option (ResumeRuntime × Bool) :=
  match fileIndex entryId runtime.state.files with
  | none => none
  | some pos =>
    match runtime.state.files[pos]? with
    | none => none
    | some file =>
      match file.completed[chunkIndex.toNat]? with
      | none => none
      | some wasComplete =>
        let runtime' : ResumeRuntime :=
          { state := { runtime.state with files := runtime.state.files.set pos (setChunk chunkIndex.toNat file) }
            dirtyPaths := if fsyncStaged && !runtime.dirtyPaths.contains path then path :: runtime.dirtyPaths
              else runtime.dirtyPaths
            pendingPersist := runtime.pendingPersist + 1
            pendingJournal := if wasComplete then runtime.pendingJournal
              else runtime.pendingJournal ++ [(entryId, chunkIndex)]
            freshChunks := runtime.freshChunks.insert entryId (runtime.fresh entryId + 1) }
        some (runtime', decide (resumeFlushEveryChunks ≤ runtime'.pendingPersist))

def takePending : ResumeRuntime × Option (List PathBuf × List Record) :=
  if runtime.pendingPersist = 0 && runtime.dirtyPaths.isEmpty && runtime.pendingJournal.isEmpty then (runtime, none)
  else ({ runtime with dirtyPaths := [], pendingPersist := 0, pendingJournal := [] },
    some (runtime.dirtyPaths, runtime.pendingJournal))

def allChunksFresh (entryId chunkCount : UInt32) : Bool :=
  chunkCount.toNat ≤ runtime.fresh entryId

def allChunksComplete (entryId : UInt32) : Option Bool :=
  (runtime.file? entryId).map (fun file => file.completed.all id)

def resetFile (entryId : UInt32) : Option ResumeRuntime :=
  match fileIndex entryId runtime.state.files with
  | none => none
  | some pos =>
    some { runtime with
      state := { runtime.state with
        files := runtime.state.files.modify pos (fun file => { file with completed := file.completed.map (fun _ => false) }) }
      pendingPersist := 0
      pendingJournal := [] }

end ResumeRuntime

end Bore.TransferResume
