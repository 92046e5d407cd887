import Bore.WireBytes

namespace Bore.Frames

open WireBytes (toBe ofBe)
export WireBytes (Bytes)

abbrev Range := Nat × Nat

/-- An attempt is known by its identifier. The key of an attempt is derived
from the room key and the two identifiers, so inside one transfer a key is
named by its attempt. -/
abbrev AttemptId := Nat

def chunkBytes : Nat := 1024 * 1024

def fragmentBytes : Nat := 24 * 1024

def maxSafeInteger : Nat := 2 ^ 53 - 1

def maxResumeRanges : Nat := 4096

structure Hash where
  sha256 : Bytes → Bytes
  length_sha256 : ∀ bytes, (sha256 bytes).length = 32

instance : Inhabited Hash := ⟨WireBytes.padded, WireBytes.length_padded⟩

structure ArchiveTuple where
  totalBytes : Nat
  chunkCount : Nat
  root : Bytes
  deriving DecidableEq

def finalPayload (totalBytes : Nat) : Bytes := toBe 8 totalBytes

def archiveFinalPayload (tuple : ArchiveTuple) : Bytes :=
  toBe 8 tuple.totalBytes ++ toBe 8 tuple.chunkCount ++ tuple.root

def parseArchiveFinalPayload (bytes : Bytes) : Option ArchiveTuple :=
  let totalBytes := ofBe (bytes.take 8)
  let chunkCount := ofBe ((bytes.drop 8).take 8)
  if bytes.length = 48 ∧ totalBytes ≤ maxSafeInteger ∧ chunkCount ≤ maxSafeInteger then
    some ⟨totalBytes, chunkCount, bytes.drop 16⟩
  else none

def rootLabel : Bytes :=
  [0x62, 0x6f, 0x72, 0x65, 0x2d, 0x77, 0x65, 0x62, 0x2d, 0x72, 0x6f, 0x6f, 0x74, 0x2d, 0x76, 0x31]

/-- The rolling root of the leaves in index order. A leaf that is not there
stands as an empty list, on which the source's loop throws. -/
def fileRoot (hash : Hash) (leaves : List Bytes) : Option Bytes :=
  if leaves.any List.isEmpty then none
  else some (hash.sha256 (rootLabel ++ toBe 8 leaves.length ++ leaves.flatten))

inductive FrameType
  | data
  | final
  | unknown
  deriving DecidableEq

/-- A binary message as a transport delivers it: too short for a header, or a
header with a body that only the named key opens. A body nobody sealed has no
such key. -/
inductive Message
  | short (bytes : Nat)
  | frame (sealedBy : Option AttemptId) (ftype : FrameType) (seq : Nat) (plaintext : Bytes)
  deriving DecidableEq

def peekFrameType : Message → Option FrameType
  | .short _ => none
  | .frame _ ftype _ _ => some ftype

def peekFrameSeq : Message → Option Nat
  | .short _ => none
  | .frame _ _ seq _ => some seq

def frameByteLength : Message → Nat
  | .short bytes => bytes
  | .frame _ _ _ plaintext => 16 + plaintext.length + 16

inductive Opened
  | data (plaintext : Bytes)
  | final (plaintext : Bytes)
  deriving DecidableEq

def isFinalLength (length : Nat) : Bool := length = 8 || length = 48

/-- The strict decoder of the receive path: the sequence is the expected one,
the key is the one that sealed the frame, and the length suits the type. -/
def decodeFrameWithKey (aesKey : Option AttemptId) (message : Message) (expectedSeq : Nat) : Option Opened :=
  match message with
  | .short _ => none
  | .frame sealedBy ftype seq plaintext =>
    if sealedBy.isSome ∧ sealedBy = aesKey ∧ seq = expectedSeq then
      match ftype with
      | .data => if 0 < plaintext.length ∧ plaintext.length ≤ fragmentBytes then some (.data plaintext) else none
      | .final => if isFinalLength plaintext.length then some (.final plaintext) else none
      | .unknown => none
    else none

structure Entry where
  size : Nat
  chunks : List Bytes
  counted : chunks.length = (size + chunkBytes - 1) / chunkBytes

def Entry.empty : Entry := ⟨0, [], by decide⟩

def Entry.chunkCount (entry : Entry) : Nat := entry.chunks.length

def chunkWindow (entrySize chunkIndex : Nat) : Nat := min chunkBytes (entrySize - chunkIndex * chunkBytes)

def rangeLe (a b : Range) : Prop := a.1 < b.1 ∨ a.1 = b.1 ∧ a.2 ≤ b.2

instance (a b : Range) : Decidable (rangeLe a b) := inferInstanceAs (Decidable (_ ∨ _))

def mergeRanges : Range → List Range → List Range
  | last, [] => [last]
  | last, r :: rest =>
    if r.1 ≤ last.2 then mergeRanges (last.1, max last.2 r.2) rest else last :: mergeRanges r rest

def coalesceRanges (ranges : List Range) : List Range :=
  match ranges.insertionSort rangeLe with
  | [] => []
  | r :: rest => mergeRanges r rest

def contiguous : Nat → List Range → List Range
  | _, [] => []
  | next, r :: rest => if r.1 = next then r :: contiguous r.2 rest else []

def capRanges (ranges : List Range) : List Range :=
  let merged := coalesceRanges ranges
  if merged.length ≤ maxResumeRanges then merged else contiguous 0 merged

def verifiedPrefix (ranges : List Range) : List Range :=
  match coalesceRanges ranges with
  | [] => []
  | r :: _ => if r.1 ≠ 0 ∨ r.2 = 0 then [] else [(0, r.2)]

def covered (ranges : List Range) (index : Nat) : Bool := ranges.any (fun r => r.1 ≤ index && index < r.2)

def outside (chunkCount : Nat) (ranges : List Range) : List Nat :=
  (List.range chunkCount).filter (fun i => !covered ranges i)

def inBounds (chunkCount : Nat) (r : Range) : Bool := r.1 ≤ r.2 && r.2 ≤ chunkCount

def planSend (chunkCount : Nat) (ranges : List Range) : Option (List Nat) :=
  if ranges.all (inBounds chunkCount) then some (outside chunkCount ranges) else none

end Bore.Frames
