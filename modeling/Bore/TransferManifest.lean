import Bore.OsPath

namespace Bore.TransferManifest

open OsPath

def protocolVersion : UInt32 := 3

def chunkSize : Nat := 1024 * 1024

def maxParallel : UInt16 := 32

inductive RootSourceKind
  | filesystem
  | stdin

inductive EntryKind
  | regularFile
  | directory
  | symlink
  | charDevice
  | blockDevice
  deriving DecidableEq

structure DeviceDescriptor where
  major : UInt64
  minor : UInt64
  deriving DecidableEq

structure BeginFrame where
  protocolVersion : UInt32
  transferId : String
  rootName : String
  rootSource : RootSourceKind
  totalEntries : UInt64
  requestedParallel : UInt16
  multiSource : Bool

structure ManifestEntry where
  id : UInt32
  relPath : String
  kind : EntryKind
  size : Option UInt64
  fullHash : Option String
  chunkCount : UInt32
  symlinkTarget : Option String
  device : Option DeviceDescriptor
  mode : Option UInt32
  deriving DecidableEq

def ManifestEntry.isRegular (entry : ManifestEntry) : Bool := entry.kind == .regularFile

structure TransferSummary where
  regularFiles : Nat
  directories : Nat
  symlinks : Nat
  devices : Nat
  totalBytes : Nat
  transferHash : String
  deriving DecidableEq

def chunkCountFor (size : UInt64) : UInt32 :=
  if size = 0 then 0 else UInt32.ofNat ((size.toNat + (chunkSize - 1)) / chunkSize)

def chunkLen (size : UInt64) (chunkIndex : UInt32) : Nat :=
  min (size.toNat - chunkIndex.toNat * chunkSize) chunkSize

def validateChunkGeometry (entry : ManifestEntry) (chunkIndex : UInt32) (offset : UInt64) (len : UInt32) :
    Except String Unit :=
  match entry.size with
  | none => .error "regular file manifest entry missing size"
  | some size =>
    if entry.chunkCount ≤ chunkIndex then .error "chunk index out of range"
    else if offset.toNat ≠ chunkIndex.toNat * chunkSize || len.toNat ≠ chunkLen size chunkIndex then
      .error "chunk geometry mismatch"
    else .ok ()

def validateRegular (source : RootSourceKind) (entry : ManifestEntry) : Except String Unit :=
  match source with
  | .filesystem =>
    match entry.size with
    | some size =>
      if entry.fullHash.isNone then .error "regular file is missing size or hash metadata"
      else if entry.chunkCount ≠ chunkCountFor size then .error "regular file has an invalid chunk count"
      else .ok ()
    | none => .error "regular file is missing size or hash metadata"
  | .stdin =>
    if !entry.relPath.isEmpty || entry.size.isSome then
      .error "stdin transfers must have a single root file with unknown size"
    else .ok ()

def validateEntry (source : RootSourceKind) (ids : List UInt32) (paths : List (PathBuf × EntryKind))
    (entry : ManifestEntry) : Except String PathBuf :=
  if ids.contains entry.id then .error "duplicate manifest entry id"
  else match decodeRelativePath entry.relPath with
    | .error e => .error e
    | .ok path =>
      match validateRelativePath path with
      | .error e => .error e
      | .ok () =>
        if paths.any (fun seen => seen.1 == path) then .error "duplicate manifest entry"
        else if path.ancestors.any (fun ancestor =>
            ((path, entry.kind) :: paths).any (fun seen => seen.1 == ancestor && seen.2 != .directory)) then
          .error "manifest entry would descend through a non-directory ancestor"
        else if entry.isRegular then (validateRegular source entry).map (fun _ => path)
        else .ok path

def validateEntries (source : RootSourceKind) :
    List UInt32 → List (PathBuf × EntryKind) → List ManifestEntry → Except String Unit
  | _, _, [] => .ok ()
  | ids, paths, entry :: rest =>
    match validateEntry source ids paths entry with
    | .error e => .error e
    | .ok path => validateEntries source (entry.id :: ids) ((path, entry.kind) :: paths) rest

def validateManifest (source : RootSourceKind) (entries : List ManifestEntry) : Except String Unit :=
  match entries with
  | [] => .error "manifest is empty"
  | root :: _ =>
    if !root.relPath.isEmpty then .error "manifest root entry must use an empty relative path"
    else validateEntries source [] [] entries

def stagePath (stageRoot : PathBuf) (relPath : String) : Except String PathBuf :=
  if relPath.isEmpty then .ok stageRoot
  else (decodeRelativePath relPath).map stageRoot.join

structure FileResumeState where
  entryId : UInt32
  completed : List Bool
  deriving DecidableEq

structure ResumeState where
  protocolVersion : UInt32
  transferId : String
  manifestHash : String
  finalName : String
  files : List FileResumeState
  deriving DecidableEq

structure ResumeFilePlan where
  entryId : UInt32
  completedChunks : List UInt32

def freshResumeState (transferId manifestHash finalName : String) (entries : List ManifestEntry) : ResumeState where
  protocolVersion := TransferManifest.protocolVersion
  transferId := transferId
  manifestHash := manifestHash
  finalName := finalName
  files := (entries.filter ManifestEntry.isRegular).map (fun entry =>
    ⟨entry.id, List.replicate entry.chunkCount.toNat false⟩)

def completedChunks (completed : List Bool) : List UInt32 :=
  ((List.range completed.length).filter (fun i => completed.getD i false)).map UInt32.ofNat

/-- The plan sent to the sender; a state that does not fit the manifest is an
error. -/
def buildResumePlan (entries : List ManifestEntry) : List FileResumeState → Except String (List ResumeFilePlan)
  | [] => .ok []
  | file :: files =>
    match entries.find? (fun entry => entry.id == file.entryId) with
    | none => .error "resume state references unknown entry"
    | some entry =>
      if file.completed.length ≠ entry.chunkCount.toNat then
        .error "resume state chunk layout does not match entry"
      else (buildResumePlan entries files).map (⟨file.entryId, completedChunks file.completed⟩ :: ·)

def expectedWorkerConnections (requestedParallel : UInt16) (entries : List ManifestEntry)
    (plan : List ResumeFilePlan) : Nat :=
  let done (id : UInt32) : Nat := ((plan.find? (fun file => file.entryId == id)).map (·.completedChunks.length)).getD 0
  let pending := ((entries.filter ManifestEntry.isRegular).map (fun entry => entry.chunkCount.toNat - done entry.id)).sum
  if pending = 0 then 0 else min (max requestedParallel 1) maxParallel |>.toNat

end Bore.TransferManifest
