import Bore.JsonText
import Bore.Numerals
import Bore.RegistryCatalogue

/-! The manifest of an offer as the server reads, checks and writes it back. -/

namespace Bore.WebManifest

open Checks JsonText Numerals
open RegistryTypes (u64Max u32Max)
open RegistryOps (parseDecimalU64 reservedZipEntryId)
open RegistryCatalogue (isControl)

abbrev Digest := List.Vector UInt8 32

/-- The Unicode tables and the hash that server and page call. -/
structure Tables where
  nfc : String → String
  lowercase : String → String
  sha256 : List UInt8 → Digest

structure ManifestLimits where
  maxEntriesPerOffer : UInt64
  maxOfferBytes : UInt64

def chunkBytes : Nat := 1024 * 1024

def maxPathBytes : Nat := 4096

def maxPathSegmentBytes : Nat := 255

def jsonSafeIntegerMax : Nat := 9007199254740991

def canonicalNumber : Number → Except String String
  | .posInt n =>
    if jsonSafeIntegerMax < n.toNat then .error ("integer " ++ toString n.toNat ++ " exceeds JSON safe range")
    else .ok (toString n.toNat)
  | .negInt n =>
    if jsonSafeIntegerMax < n.toInt.natAbs then .error ("integer " ++ toString n.toInt ++ " exceeds JSON safe range")
    else .ok (toString n.toInt)
  | .float _ => .error "non-integer numbers have no canonical form"

def canonicalJson : Json → Except String String := write canonicalNumber

section Fields

def exactObject (value : Json) (what : String) (fields : List String) : Except String Fields :=
  match value with
  | .object obj =>
    match obj.find? (fun f => !fields.contains f.1) with
    | some f => .error (what ++ " has unknown field " ++ quote f.1)
    | none =>
      match fields.find? (fun field => (obj.lookup field).isNone) with
      | some field => .error (what ++ " misses field " ++ quote field)
      | none => .ok obj
  | _ => .error (what ++ " must be an object")

def getStr (obj : Fields) (what field : String) : Except String String :=
  match obj.lookup field with
  | some (.string s) => .ok s
  | _ => .error (what ++ " needs string " ++ quote field)

def getArray (obj : Fields) (what field : String) : Except String (List Json) :=
  match obj.lookup field with
  | some (.array items) => .ok items
  | _ => .error (what ++ " needs " ++ field ++ " array")

def parseHexId (n : Nat) (what s : String) : Except String (List.Vector UInt8 n) :=
  if utf8Len s.toList ≠ n * 2 then
    .error (what ++ ": need " ++ toString (n * 2) ++ " hex chars, got " ++ toString (utf8Len s.toList))
  else if !s.toList.all isLowerHex then .error (what ++ ": need canonical lowercase hex")
  else
    match hexDecode s.toList with
    | none => .error (what ++ ": invalid hex")
    | some raw => if h : raw.length = n then .ok ⟨raw, h⟩ else .error (what ++ ": contradiction in hex length")

end Fields

section Texts

def isAsciiControl (c : Char) : Bool := c.toNat < 0x20 || c.toNat == 0x7F

def validateSegments : List (List Char) → Except String Unit
  | [] => .ok ()
  | segment :: rest =>
    if segment.isEmpty || segment == ['.'] || segment == ['.', '.'] then
      .error "manifest path holds an empty or dot segment"
    else if maxPathSegmentBytes < utf8Len segment then .error "manifest path segment exceeds 255 bytes"
    else validateSegments rest

def validateManifestPath (t : Tables) (path : String) : Except String Unit :=
  let chars := path.toList
  if chars.isEmpty || maxPathBytes < utf8Len chars then .error "manifest path has bad length"
  else if chars.head? == some '/' || chars.getLast? == some '/' || chars.contains '\\' then
    .error "manifest path must be relative without backslashes"
  else if chars.any isAsciiControl then .error "manifest path holds control characters"
  else if t.nfc path ≠ path then .error "manifest path must be NFC-normalized"
  else validateSegments (chars.splitOn '/')

def tidyLabel (t : Tables) (label : String) : String := String.ofList (trim (t.nfc label).toList)

def validateLabel (t : Tables) (label : String) : Except String String :=
  let trimmed := trim (t.nfc label).toList
  if trimmed.isEmpty then .error "manifest label must not be empty"
  else if trimmed.any isControl then .error "manifest label must not carry control characters"
  else if 128 < trimmed.length then .error "manifest label exceeds 128 characters"
  else .ok (String.ofList trimmed)

def splitOnce (sep : Char) : List Char → Option (List Char × List Char)
  | [] => none
  | c :: rest => if c = sep then some ([], rest) else (splitOnce sep rest).map (fun p => (c :: p.1, p.2))

def slice (start stop : Nat) (chars : List Char) : Option Nat :=
  let part := (chars.take stop).drop start
  if !part.isEmpty && part.all Char.isDigit then some (readDecimal part) else none

def createdAtShape : String := "manifest createdAt must look like 2026-09-14T21:00:00Z"

def validateDate (date : List Char) : Except String Unit :=
  ensure (date.length = 10 ∧ date[4]? = some '-' ∧ date[7]? = some '-' ∧
    date.zipIdx.all (fun p => p.2 == 4 || p.2 == 7 || p.1.isDigit) = true) createdAtShape

def validateTime (time : List Char) : Except String Unit :=
  ensure (8 ≤ time.length ∧ time[2]? = some ':' ∧ time[5]? = some ':' ∧
    time.zipIdx.all (fun p => p.2 == 2 || p.2 == 5 || p.1.isDigit ||
      (7 < p.2 && (p.1 == '.' || p.1.isDigit))) = true) createdAtShape

def possibleInstant (month day hour minute second : Nat) : Bool :=
  1 ≤ month && month ≤ 12 && 1 ≤ day && day ≤ 31 && hour ≤ 23 && minute ≤ 59 && second ≤ 59

def validateCreatedAt (s : String) : Except String Unit := do
  let chars := s.toList
  ensure (chars ≠ [] ∧ utf8Len chars ≤ 32 ∧ chars.all (fun c => decide (c.toNat < 0x80)) = true)
    "manifest createdAt must be ASCII within 32 bytes"
  ensure (chars.getLast? = some 'Z') createdAtShape
  match splitOnce 'T' chars.dropLast with
  | none => .error createdAtShape
  | some (date, time) => do
    validateDate date
    validateTime time
    ensure (possibleInstant ((slice 5 7 date).getD 0) ((slice 8 10 date).getD 0) ((slice 0 2 time).getD 99)
      ((slice 3 5 time).getD 99) ((slice 6 8 time).getD 99) = true)
      "manifest createdAt carries an impossible date or time"
    let rest := time.drop 8
    ensure (rest = [] ∨ (2 ≤ rest.length ∧ rest.length ≤ 10 ∧ rest.head? = some '.' ∧ rest.tail.all Char.isDigit = true))
      "manifest createdAt fractional seconds must look like .123"

end Texts

inductive ManifestMode
  | single | multi
  deriving DecidableEq

inductive ManifestKind
  | file | files | folder
  deriving DecidableEq

def ManifestMode.asStr : ManifestMode → String
  | .single => "single"
  | .multi => "multi"

def ManifestMode.parse (s : String) : Except String ManifestMode :=
  if s = "single" then .ok .single
  else if s = "multi" then .ok .multi
  else .error ("manifest mode must be single|multi, got " ++ quote s)

def ManifestKind.asStr : ManifestKind → String
  | .file => "file"
  | .files => "files"
  | .folder => "folder"

def ManifestKind.parse (s : String) : Except String ManifestKind :=
  if s = "file" then .ok .file
  else if s = "files" then .ok .files
  else if s = "folder" then .ok .folder
  else .error ("manifest kind must be file|files|folder, got " ++ quote s)

structure ManifestEntry where
  id : Nat
  path : String
  size : Nat
  mtime : Nat
  chunks : List Digest
  chunkCount : Nat
  root : Option Digest

structure Manifest where
  offer : List.Vector UInt8 16
  mode : ManifestMode
  label : String
  kind : ManifestKind
  chunkSize : Nat
  createdAt : String
  entries : List ManifestEntry

section Parse

variable (t : Tables)

def asciiBytes (s : String) : List UInt8 := s.toList.map (fun c => UInt8.ofNat c.toNat)

def beBytes (n : Nat) : List UInt8 := (List.range 8).map (fun i => UInt8.ofNat (n / 256 ^ (7 - i)))

def fileRoot (chunkCount : Nat) (leaves : List Digest) : Except String Digest :=
  if leaves.length ≠ chunkCount then .error ("root needs exactly " ++ toString chunkCount ++ " leaves")
  else .ok (t.sha256 (asciiBytes "bore-web-root-v1" ++ beBytes chunkCount ++ leaves.flatMap List.Vector.toList))

def manifestFields : List String := ["offer", "mode", "label", "kind", "chunkSize", "createdAt", "entries"]

def entryFields : List String := ["id", "path", "size", "mtime", "chunks", "chunkCount", "root"]

def parseChunks : List Json → Except String (List Digest)
  | [] => .ok []
  | .string hex :: rest => do
    let chunk ← parseHexId 32 "chunk" hex
    let chunks ← parseChunks rest
    .ok (chunk :: chunks)
  | _ :: _ => .error "chunk hash must be a string"

def divCeil (size : Nat) : Nat := (size + (chunkBytes - 1)) / chunkBytes

def parseRoot (position size chunkCount : Nat) (chunks : List Digest) : Option Json → Except String (Option Digest)
  | none | some .null => do
    ensure (chunks = [] ∧ size = 0) ("entry #" ++ toString position ++ " with null root must be an empty directory")
    .ok none
  | some (.string hex) => do
    let bytes ← parseHexId 32 "root" hex
    let expected ← fileRoot t chunkCount chunks
    ensure (bytes = expected) ("entry #" ++ toString position ++ " root does not match its chunks")
    .ok (some bytes)
  | some _ => .error ("entry #" ++ toString position ++ " root must be hex or null")

def parseEntry (kind : ManifestKind) (position : Nat) (entry : Json) : Except String ManifestEntry := do
  let e ← exactObject entry "manifest entry" entryFields
  let id ← getStr e "manifest entry" "id" >>= parseDecimalU64 "entry id"
  ensure (id ≠ reservedZipEntryId) "manifest entry ID 4294967295 is reserved for the archive"
  ensure (id = position) "manifest entry IDs must be 0-based sequential"
  let path ← getStr e "manifest entry" "path"
  validateManifestPath t path
  let size ← getStr e "manifest entry" "size" >>= parseDecimalU64 "entry size"
  let mtime ← getStr e "manifest entry" "mtime" >>= parseDecimalU64 "entry mtime"
  let chunksRaw ← getArray e "manifest entry" "chunks"
  let chunks ← parseChunks chunksRaw
  let want := divCeil size
  ensure (chunks.length = want)
    ("entry #" ++ toString position ++ " needs " ++ toString want ++ " chunk hashes for " ++ toString size ++ " bytes")
  let chunkCount ← getStr e "manifest entry" "chunkCount" >>= parseDecimalU64 "entry chunkCount"
  ensure (chunkCount = want) ("entry #" ++ toString position ++ " chunkCount must equal its chunk hash count")
  let root ← parseRoot t position size chunkCount chunks (e.lookup "root")
  ensure (root.isSome = true ∨ kind = .folder) ("entry #" ++ toString position ++ " directory needs kind folder")
  .ok ⟨id, path, size, mtime, chunks, chunkCount, root⟩

def checkedAdd (total size : Nat) : Except String Nat :=
  if total + size ≤ u64Max then .ok (total + size) else .error "manifest total overflows u64"

def foldPath (path : String) : String := t.lowercase (t.nfc path)

def parseEntries (kind : ManifestKind) : Nat → Nat → Option String → List Json →
    Except String (List ManifestEntry × Nat)
  | _, total, _, [] => .ok ([], total)
  | position, total, prev, entry :: rest => do
    let e ← parseEntry t kind position entry
    let total ← checkedAdd total e.size
    let fold := foldPath t e.path
    ensure (∀ p ∈ prev, ¬ fold ≤ p) "manifest entries must be sorted with no path collisions"
    ensure (e.id ≤ u32Max) "manifest entry id exceeds u32"
    let read ← parseEntries kind (position + 1) total (some fold) rest
    .ok (e :: read.1, read.2)

def checkShape (mode : ManifestMode) (entries : List ManifestEntry) : ManifestKind → Except String Unit
  | .file => ensure (mode = .single ∧ entries.length = 1 ∧ (entries.head?.bind ManifestEntry.root).isSome = true)
      "kind file needs one single file entry"
  | .files => ensure (mode = .multi ∧ entries.all (fun e => e.root.isSome) = true)
      "kind files needs multiple file entries"
  | .folder => ensure (mode = .multi) "kind folder needs multi mode"

def parseManifest (limits : ManifestLimits) (value : Json) : Except String Manifest := do
  let obj ← exactObject value "manifest" manifestFields
  let offer ← getStr obj "manifest" "offer" >>= parseHexId 16 "OfferId"
  let mode ← getStr obj "manifest" "mode" >>= ManifestMode.parse
  let label ← getStr obj "manifest" "label" >>= validateLabel t
  let kind ← getStr obj "manifest" "kind" >>= ManifestKind.parse
  let chunkSize ← getStr obj "manifest" "chunkSize" >>= parseDecimalU64 "manifest chunkSize"
  ensure (chunkSize = chunkBytes) ("manifest chunkSize must be " ++ toString chunkBytes)
  let createdAt ← getStr obj "manifest" "createdAt"
  validateCreatedAt createdAt
  let entriesRaw ← getArray obj "manifest" "entries"
  ensure (entriesRaw.isEmpty = false) "manifest needs at least one entry"
  ensure (entriesRaw.length ≤ limits.maxEntriesPerOffer.toNat) "manifest exceeds the per-offer entry cap"
  let read ← parseEntries t kind 0 0 none entriesRaw
  ensure (read.2 ≤ limits.maxOfferBytes.toNat) "manifest exceeds the per-offer byte cap"
  ensure (mode = .single → read.1.length = 1) "single manifest needs exactly one entry"
  checkShape mode read.1 kind
  .ok ⟨offer, mode, label, kind, chunkSize, createdAt, read.1⟩

end Parse

def hexText {n : Nat} (bytes : List.Vector UInt8 n) : String := String.ofList (hexEncode bytes.toList)

def rootValue : Option Digest → Json
  | some bytes => .string (hexText bytes)
  | none => .null

def entryValue (e : ManifestEntry) : Json :=
  .object [("chunkCount", .string (toString e.chunkCount)),
    ("chunks", .array (e.chunks.map (fun chunk => .string (hexText chunk)))),
    ("id", .string (toString e.id)),
    ("mtime", .string (toString e.mtime)),
    ("path", .string e.path),
    ("root", rootValue e.root),
    ("size", .string (toString e.size))]

def manifestValue (m : Manifest) : Json :=
  .object [("chunkSize", .string (toString m.chunkSize)),
    ("createdAt", .string m.createdAt),
    ("entries", .array (m.entries.map entryValue)),
    ("kind", .string m.kind.asStr),
    ("label", .string m.label),
    ("mode", .string m.mode.asStr),
    ("offer", .string (hexText m.offer))]

def storedText (t : Tables) (limits : ManifestLimits) (value : Json) : Except String String := do
  let manifest ← parseManifest t limits value
  canonicalJson (manifestValue manifest)

end Bore.WebManifest
