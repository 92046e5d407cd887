import Bore.Numerals
import Bore.WireBytes

namespace Bore.OsPath

open Numerals (hexDecode hexEncode)
export WireBytes (Bytes)

/-- What `Path::components` yields after a possible root. A `.` is kept only at
the start of a relative path; repeated and trailing separators are dropped. -/
inductive Component
  | curDir
  | parentDir
  | normal (name : Bytes)
  deriving DecidableEq

structure PathBuf where
  absolute : Bool := false
  components : List Component := []
  deriving DecidableEq

def separator : UInt8 := 47

def segment : Bytes → Component
  | [46] => .curDir
  | [46, 46] => .parentDir
  | name => .normal name

def splitBytes : Bytes → List Bytes
  | [] => [[]]
  | b :: rest =>
    if b = separator then [] :: splitBytes rest
    else match splitBytes rest with
      | [] => [[b]]
      | piece :: pieces => (b :: piece) :: pieces

def PathBuf.ofBytes (bytes : Bytes) : PathBuf :=
  let segments := ((splitBytes bytes).filter (fun piece => !piece.isEmpty)).map segment
  if bytes.head? = some separator then ⟨true, segments.filter (· ≠ .curDir)⟩
  else match segments with
    | .curDir :: rest => ⟨false, .curDir :: rest.filter (· ≠ .curDir)⟩
    | segments => ⟨false, segments.filter (· ≠ .curDir)⟩

def PathBuf.join (path other : PathBuf) : PathBuf :=
  if other.absolute then other
  else if !path.absolute && path.components.isEmpty then other
  else { path with components := path.components ++ other.components.filter (· ≠ .curDir) }

def PathBuf.joinBytes (path : PathBuf) (bytes : Bytes) : PathBuf := path.join (.ofBytes bytes)

def Component.isNormal : Component → Bool
  | .normal _ => true
  | .curDir | .parentDir => false

def PathBuf.ancestors (path : PathBuf) : List PathBuf :=
  (List.range path.components.length).reverse.map (fun n => { path with components := path.components.take n })

def asciiBytes (text : String) : Bytes := text.toList.map (fun c => UInt8.ofNat c.toNat)

def isContinuation (b : UInt8) : Bool := 0x80 ≤ b.toNat && b.toNat ≤ 0xBF

/-- `str::from_utf8`: no overlong forms, no surrogates, nothing past U+10FFFF. -/
def isUtf8 : Bytes → Bool
  | [] => true
  | a :: rest =>
    let n := a.toNat
    if n < 0x80 then isUtf8 rest
    else match rest with
      | b :: rest =>
        if 0xC2 ≤ n && n ≤ 0xDF && isContinuation b then isUtf8 rest
        else match rest with
          | c :: rest =>
            let second := if n = 0xE0 then 0xA0 ≤ b.toNat && b.toNat ≤ 0xBF
              else if n = 0xED then 0x80 ≤ b.toNat && b.toNat ≤ 0x9F
              else isContinuation b
            if 0xE0 ≤ n && n ≤ 0xEF && second && isContinuation c then isUtf8 rest
            else match rest with
              | d :: rest =>
                let second := if n = 0xF0 then 0x90 ≤ b.toNat && b.toNat ≤ 0xBF
                  else if n = 0xF4 then 0x80 ≤ b.toNat && b.toNat ≤ 0x8F
                  else isContinuation b
                0xF0 ≤ n && n ≤ 0xF4 && second && isContinuation c && isContinuation d && isUtf8 rest
              | [] => false
          | [] => false
      | [] => false

def utf8Encode (code : Nat) : Bytes :=
  if code < 0x80 then [UInt8.ofNat code]
  else if code < 0x800 then [UInt8.ofNat (0xC0 + code / 64), UInt8.ofNat (0x80 + code % 64)]
  else if code < 0x10000 then
    [UInt8.ofNat (0xE0 + code / 4096), UInt8.ofNat (0x80 + code / 64 % 64), UInt8.ofNat (0x80 + code % 64)]
  else
    [UInt8.ofNat (0xF0 + code / 262144), UInt8.ofNat (0x80 + code / 4096 % 64),
      UInt8.ofNat (0x80 + code / 64 % 64), UInt8.ofNat (0x80 + code % 64)]

/-- Little-endian 16-bit units; an odd last byte is dropped. -/
def units16 : Bytes → List Nat
  | low :: high :: rest => (low.toNat + 256 * high.toNat) :: units16 rest
  | _ => []

/-- `String::from_utf16`, as the bytes of the text: a surrogate must be paired. -/
def fromUtf16 : List Nat → Option Bytes
  | [] => some []
  | u :: rest =>
    if u < 0xD800 || 0xDFFF < u then (fromUtf16 rest).map (utf8Encode u ++ ·)
    else match rest with
      | v :: rest =>
        if u < 0xDC00 && 0xDC00 ≤ v && v ≤ 0xDFFF then
          (fromUtf16 rest).map (utf8Encode (0x10000 + 1024 * (u - 0xD800) + (v - 0xDC00)) ++ ·)
        else none
      | [] => none

/-- The text of a payload as bytes: what `format!` makes of the encoded string. -/
def textBytes (chars : List Char) : Bytes := chars.flatMap (fun c => utf8Encode c.toNat)

/-- One path component of the wire format, on Unix: any bytes may come out,
separators and `..` included. -/
def decodeComponent (encoded : String) : Bytes :=
  match encoded.toList with
  | 'u' :: ':' :: payload =>
    match hexDecode payload with
    | some bytes => if isUtf8 bytes then bytes else asciiBytes "_bore_bad_utf8_" ++ textBytes payload
    | none => asciiBytes "_bore_bad_utf8_" ++ textBytes payload
  | 'b' :: ':' :: payload => (hexDecode payload).getD []
  | 'w' :: ':' :: payload =>
    match fromUtf16 (units16 ((hexDecode payload).getD [])) with
    | some text => text
    | none => asciiBytes "_bore_wide_" ++ textBytes payload
  | chars => asciiBytes "_bore_invalid_" ++ textBytes chars

def encodeComponentOs (name : Bytes) : String :=
  String.ofList ((if isUtf8 name then ['u', ':'] else ['b', ':']) ++ hexEncode name)

def splitSlash : List Char → List (List Char)
  | [] => [[]]
  | c :: rest =>
    if c = '/' then [] :: splitSlash rest
    else match splitSlash rest with
      | [] => [[c]]
      | piece :: pieces => (c :: piece) :: pieces

def pushParts : PathBuf → List (List Char) → Except String PathBuf
  | path, [] => .ok path
  | path, part :: parts =>
    if part.isEmpty then .error "invalid relative path encoding"
    else pushParts (path.joinBytes (decodeComponent (String.ofList part))) parts

def decodeRelativePath (encoded : String) : Except String PathBuf :=
  if encoded.toList.isEmpty then .ok {} else pushParts {} (splitSlash encoded.toList)

def validateRelativePath (path : PathBuf) : Except String Unit :=
  if !path.absolute && path.components.all Component.isNormal then .ok ()
  else .error "invalid relative path component"

def below (path : PathBuf) (rest : List Component) : PathBuf := { path with components := path.components ++ rest }

theorem below_below (path : PathBuf) (xs ys : List Component) : below (below path xs) ys = below path (xs ++ ys) := by
  simp only [below, List.append_assoc]

theorem below_inj {path : PathBuf} {xs ys : List Component} : below path xs = below path ys ↔ xs = ys := by
  simp only [below, PathBuf.mk.injEq, true_and, List.append_cancel_left_eq]

theorem join_eq_below (path : PathBuf) {other : PathBuf} (ha : other.absolute = false)
    (hc : .curDir ∉ other.components) : path.join other = below path other.components := by
  have hf : other.components.filter (· ≠ .curDir) = other.components :=
    List.filter_eq_self.mpr (fun c hm => decide_eq_true (fun he => hc (he ▸ hm)))
  rcases path with ⟨absolute, components⟩
  rcases other with ⟨_, rest⟩
  cases ha
  cases absolute <;> cases components <;> simp_all [PathBuf.join, below]

theorem joinBytes_eq_below (path : PathBuf) {bytes : Bytes} {rest : List Component}
    (h : PathBuf.ofBytes bytes = ⟨false, rest⟩) (hc : .curDir ∉ rest) : path.joinBytes bytes = below path rest := by
  rw [PathBuf.joinBytes, h]
  exact join_eq_below path rfl hc

end Bore.OsPath
