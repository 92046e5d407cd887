import Bore.WebManifest

/-! The same manifest in the page: the mirror of the server's checks in
`protocol.js`, and the offer worker that builds and signs a manifest. -/

namespace Bore.PageManifest

open Checks JsonText Numerals
open WebManifest (Tables ManifestLimits chunkBytes maxPathBytes jsonSafeIntegerMax getArray isAsciiControl
  validateSegments createdAtShape possibleInstant manifestFields entryFields foldPath)
open RegistryTypes (u64Max)

def jsLength (s : String) : Nat := (utf16 s.toList).length

def canonicalizeNumber : Number → Except String String
  | .posInt n =>
    if n.toNat ≤ jsonSafeIntegerMax then .ok (toString n.toNat)
    else .error ("no canonical form for number " ++ toString n.toNat)
  | .negInt n =>
    if n.toInt.natAbs ≤ jsonSafeIntegerMax then .ok (toString n.toInt)
    else .error ("no canonical form for number " ++ toString n.toInt)
  | .float (some n) =>
    if n.natAbs ≤ jsonSafeIntegerMax then .ok (toString n) else .error ("no canonical form for number " ++ toString n)
  | .float none => .error "no canonical form for number"

def canonicalize : Json → Except String String := write canonicalizeNumber

def exactObject : Json → String → List String → Except String Fields := WebManifest.exactObject

def getString : Fields → String → String → Except String String := WebManifest.getStr

section Texts

def isHex (s : String) (chars : Nat) : Bool :=
  jsLength s == chars && !s.toList.isEmpty && s.toList.all isLowerHex

def hexField (value : Option Json) (chars : Nat) (message : String) : Except String String :=
  match value with
  | some (.string s) => if isHex s chars then .ok s else .error message
  | _ => .error message

def oneOf (value : Option Json) (options : List String) (message : String) : Except String String :=
  match value with
  | some (.string s) => if s ∈ options then .ok s else .error message
  | _ => .error message

def parseDecimalU64 (what s : String) : Except String Nat := do
  ensure (s.toList ≠ [] ∧ s.toList.all Char.isDigit = true) (what ++ " must be a decimal string, got " ++ quote s)
  ensure (¬ (1 < jsLength s ∧ s.toList.head? = some '0')) (what ++ " must not be zero-padded")
  let n := readDecimal s.toList
  ensure (n ≤ u64Max) (what ++ " overflows u64")
  .ok n

def validateManifestPath (t : Tables) (path : String) : Except String Unit :=
  let chars := path.toList
  if jsLength path = 0 then .error "manifest path is empty"
  else if maxPathBytes < utf8Len chars then .error "manifest path exceeds 4096 bytes"
  else if chars.head? == some '/' || chars.getLast? == some '/' || chars.contains '\\' then
    .error "manifest path must be relative without backslashes"
  else if chars.any isAsciiControl then .error "manifest path holds control characters"
  else if t.nfc path ≠ path then .error "manifest path must be NFC-normalized"
  else validateSegments (chars.splitOn '/')

/-- What `String.prototype.trim` takes away: not U+0085, but U+FEFF. -/
def isSpace (c : Char) : Bool :=
  let n := c.toNat
  (9 ≤ n && n ≤ 13) || n == 0x20 || n == 0xA0 || n == 0x1680 || (0x2000 ≤ n && n ≤ 0x200A) || n == 0x2028 ||
    n == 0x2029 || n == 0x202F || n == 0x205F || n == 0x3000 || n == 0xFEFF

def trim (chars : List Char) : List Char :=
  ((chars.dropWhile isSpace).reverse.dropWhile isSpace).reverse

def validateLabel (t : Tables) (label : String) : Except String String :=
  let trimmed := trim (t.nfc label).toList
  if trimmed.isEmpty then .error "manifest label must not be empty"
  else if trimmed.any isAsciiControl then .error "manifest label must not carry control characters"
  else if 128 < trimmed.length then .error "manifest label exceeds 128 characters"
  else .ok (String.ofList trimmed)

def matchesDate : List Char → Bool
  | [a, b, c, d, x, e, f, y, g, h] => x == '-' && y == '-' && [a, b, c, d, e, f, g, h].all Char.isDigit
  | _ => false

def matchesFraction : List Char → Bool
  | [] => true
  | dot :: digits => dot == '.' && 1 ≤ digits.length && digits.length ≤ 9 && digits.all Char.isDigit

def matchesTime : List Char → Bool
  | a :: b :: x :: c :: d :: y :: e :: f :: rest =>
    x == ':' && y == ':' && [a, b, c, d, e, f].all Char.isDigit && matchesFraction rest
  | _ => false

def slice (start stop : Nat) (chars : List Char) : Nat := readDecimal ((chars.take stop).drop start)

def validateCreatedAt (s : String) : Except String Unit := do
  let chars := s.toList
  ensure (jsLength s ≠ 0 ∧ jsLength s ≤ 32) "manifest createdAt must be ASCII within 32 bytes"
  ensure (chars.all (fun c => 0x20 ≤ c.toNat && c.toNat ≤ 0x7E) = true ∧ chars.getLast? = some 'Z' ∧ 'T' ∈ chars)
    createdAtShape
  let inner := chars.dropLast
  let sep := inner.idxOf 'T'
  let date := inner.take sep
  let time := inner.drop (sep + 1)
  ensure (matchesDate date = true ∧ matchesTime time = true) createdAtShape
  ensure (possibleInstant (slice 5 7 date) (slice 8 10 date) (slice 0 2 time) (slice 3 5 time) (slice 6 8 time) = true)
    "manifest createdAt carries an impossible date or time"

end Texts

structure CheckedEntry where
  fields : Fields
  path : String
  size : Nat

structure ParsedManifest where
  offer : String
  mode : String
  label : String
  kind : String
  chunkSize : String
  createdAt : String
  entries : List CheckedEntry

section Parse

variable (t : Tables)

def checkChunks : List Json → Except String Unit
  | [] => .ok ()
  | chunk :: rest => do
    let _ ← hexField (some chunk) 64 "chunk hash must be 64 lowercase hex chars"
    checkChunks rest

def checkRoot (kind path : String) (size : Nat) (chunks : List Json) : Option Json → Except String Unit
  | some .null => do
    ensure (chunks.isEmpty = true ∧ size = 0) ("entry " ++ quote path ++ " with null root must be an empty directory")
    ensure (kind = "folder") ("entry " ++ quote path ++ " directory needs kind folder")
  | root => do
    let _ ← hexField root 64 ("entry " ++ quote path ++ " root must be hex or null")
    .ok ()

def checkEntry (kind : String) (position : Nat) (entry : Json) : Except String CheckedEntry := do
  let e ← exactObject entry "manifest entry" entryFields
  let id ← getString e "manifest entry" "id" >>= parseDecimalU64 "entry id"
  ensure (id = position) "manifest entry IDs must be 0-based sequential"
  let path ← getString e "manifest entry" "path"
  validateManifestPath t path
  let size ← getString e "manifest entry" "size" >>= parseDecimalU64 "entry size"
  let _ ← getString e "manifest entry" "mtime" >>= parseDecimalU64 "entry mtime"
  let chunks ← getArray e "manifest entry" "chunks"
  checkChunks chunks
  let want := if size = 0 then 0 else (size + (chunkBytes - 1)) / chunkBytes
  ensure (chunks.length = want) ("entry " ++ quote path ++ " needs " ++ toString want ++ " chunk hashes")
  let chunkCount ← getString e "manifest entry" "chunkCount" >>= parseDecimalU64 "entry chunkCount"
  ensure (chunkCount = want) ("entry " ++ quote path ++ " chunkCount must equal its chunk hash count")
  checkRoot kind path size chunks (e.lookup "root")
  .ok ⟨e, path, size⟩

/-- The entry loop; folded paths are compared by code units. -/
def checkEntries (kind : String) : Nat → Nat → Option String → List Json → Except String (List CheckedEntry × Nat)
  | _, total, _, [] => .ok ([], total)
  | position, total, prevFold, entry :: rest => do
    let e ← checkEntry t kind position entry
    let fold := foldPath t e.path
    ensure (∀ p ∈ prevFold, ¬ utf16 fold.toList ≤ utf16 p.toList)
      "manifest entries must be sorted with no path collisions"
    let read ← checkEntries kind (position + 1) (total + e.size) (some fold) rest
    .ok (e :: read.1, read.2)

def hasNullRoot (e : CheckedEntry) : Bool :=
  match e.fields.lookup "root" with
  | some .null => true
  | _ => false

def parseManifest (limits : ManifestLimits) (value : Json) : Except String ParsedManifest := do
  let obj ← exactObject value "manifest" manifestFields
  let offer ← hexField (obj.lookup "offer") 32 "manifest offer must be 32 lowercase hex chars"
  let mode ← oneOf (obj.lookup "mode") ["single", "multi"] "manifest mode must be single|multi"
  let label ← getString obj "manifest" "label" >>= validateLabel t
  let kind ← oneOf (obj.lookup "kind") ["file", "files", "folder"] "manifest kind must be file|files|folder"
  let chunkSizeText ← getString obj "manifest" "chunkSize"
  let chunkSize ← parseDecimalU64 "manifest chunkSize" chunkSizeText
  ensure (chunkSize = chunkBytes) ("manifest chunkSize must be " ++ toString chunkBytes)
  let createdAt ← getString obj "manifest" "createdAt"
  validateCreatedAt createdAt
  let entriesRaw ← getArray obj "manifest" "entries"
  ensure (entriesRaw.isEmpty = false) "manifest needs at least one entry"
  ensure (entriesRaw.length ≤ limits.maxEntriesPerOffer.toNat) "manifest exceeds the per-offer entry cap"
  let read ← checkEntries t kind 0 0 none entriesRaw
  ensure (read.2 ≤ limits.maxOfferBytes.toNat) "manifest exceeds the per-offer byte cap"
  ensure (¬ (mode = "single" ∧ read.1.length ≠ 1)) "single manifest needs exactly one entry"
  ensure (¬ (kind = "file" ∧ (mode ≠ "single" ∨ read.1.length ≠ 1 ∨ read.1.head?.any hasNullRoot = true)))
    "kind file needs one single file entry"
  ensure (¬ (kind = "files" ∧ (mode ≠ "multi" ∨ read.1.any hasNullRoot = true)))
    "kind files needs multiple file entries"
  ensure (¬ (kind = "folder" ∧ mode ≠ "multi")) "kind folder needs multi mode"
  .ok ⟨offer, mode, label, kind, chunkSizeText, createdAt, read.1⟩

end Parse

section Offer

/-- A member that is read from an object; a missing one is `undefined`, which has
no canonical form. -/
def readField (obj : Fields) (field : String) : Except String (String × Json) :=
  match obj.lookup field with
  | some value => .ok (field, value)
  | none => .error "no canonical form for undefined"

def readFields (obj : Fields) : List String → Except String Fields
  | [] => .ok []
  | field :: rest => do
    let f ← readField obj field
    let fs ← readFields obj rest
    .ok (f :: fs)

def entryValue : Json → Except String Json
  | .object e => do
    let fields ← readFields e ["chunkCount", "chunks", "id", "mtime", "path", "root", "size"]
    .ok (.object fields)
  | _ => .error "no canonical form for undefined"

def entryValues : List Json → Except String (List Json)
  | [] => .ok []
  | entry :: rest => do
    let value ← entryValue entry
    let values ← entryValues rest
    .ok (value :: values)

def manifestValue : Json → Except String Json
  | .object manifest => do
    let head ← readFields manifest ["chunkSize", "createdAt"]
    let entries ← getArray manifest "manifest" "entries" >>= entryValues
    let tail ← readFields manifest ["kind", "label", "mode", "offer"]
    .ok (.object (head ++ [("entries", .array entries)] ++ tail))
  | _ => .error "no canonical form for undefined"

def signedText (manifest : Json) : Except String String := manifestValue manifest >>= canonicalize

structure HashedEntry where
  path : String
  size : Nat
  mtimeSec : Nat
  chunkHexes : List String
  root : Option String

structure Job where
  offerId : String
  kind : String
  label : String
  createdAt : String
  hashed : List HashedEntry

def labelFor (kind : String) : List (Option String × String) → String
  | [] => "0 files"
  | (name, path) :: rest =>
    if kind = "file" then
      if name.getD "" ≠ "" then name.getD "" else if path ≠ "" then path else "file"
    else if kind = "folder" then
      match (path.toList.splitOn '/').filter (fun segment => !segment.isEmpty) with
      | top :: _ => String.ofList top
      | [] => toString (rest.length + 1) ++ " files"
    else toString (rest.length + 1) ++ " files"

def entryObject (entry : HashedEntry) (position : Nat) : Json :=
  .object [
    ("id", .string (toString position)),
    ("path", .string entry.path),
    ("size", .string (toString entry.size)),
    ("mtime", .string (toString entry.mtimeSec)),
    ("chunks", .array (entry.chunkHexes.map Json.string)),
    ("chunkCount", .string (toString entry.chunkHexes.length)),
    ("root", match entry.root with | some hex => .string hex | none => .null)]

def manifestOf (job : Job) : Json :=
  .object [
    ("offer", .string job.offerId),
    ("mode", .string (if job.kind = "file" then "single" else "multi")),
    ("label", .string job.label),
    ("kind", .string job.kind),
    ("chunkSize", .string (toString chunkBytes)),
    ("createdAt", .string job.createdAt),
    ("entries", .array (job.hashed.zipIdx.map (fun e => entryObject e.1 e.2)))]

/-- The end of `prepareOffer`: the manifest is checked for its shape and then
signed as it was built. -/
def prepareOffer (t : Tables) (limits : ManifestLimits) (job : Job) : Except String (Json × String) := do
  let manifest := manifestOf job
  let _ ← parseManifest t limits manifest
  let canonical ← signedText manifest
  ensure (canonical.utf8ByteSize ≤ 256 * 1024) "offer exceeds the manifest byte cap"
  .ok (manifest, canonical)

end Offer

section Samples

def plainTables : Tables := ⟨id, id, fun _ => List.Vector.replicate 32 0⟩

def sampleLimits : ManifestLimits := ⟨10000, 1099511627776⟩

def zeros (n : Nat) : String := String.ofList (List.replicate n '0')

def emptyFile (name : String) : HashedEntry := ⟨name, 0, 0, [], some (zeros 64)⟩

def fileJob (name : String) : Job :=
  ⟨zeros 32, "file", labelFor "file" [(some name, name)], "2026-09-14T21:00:00Z", [emptyFile name]⟩

end Samples

end Bore.PageManifest
