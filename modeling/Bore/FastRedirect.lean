import Bore.HttpsRedirect

/-! The insecure listener of a fast link: every request is sent to HTTPS. -/

namespace Bore.FastRedirect

open WireBytes (Bytes)
open HttpGate HttpsRedirect List
open Numerals (trim)

structure RequestHead where
  method : Text
  target : Text
  headers : List (Text × Text)
  deriving DecidableEq

def maxHeaders : Nat := 64

/-- Only a whole line break separates: a lone `\r` or `\n` belongs to its line. -/
def splitCrlf : Text → List Text
  | [] => [[]]
  | '\r' :: '\n' :: rest => [] :: splitCrlf rest
  | c :: rest => (splitCrlf rest).modifyHead (c :: ·)

def stripBlankLine (text : Text) : Option Text :=
  if "\r\n\r\n".toList <:+ text then some (text.take (text.length - 4)) else none

def parseHeader (line : Text) : Option (Text × Text) :=
  match splitOnce ':' line with
  | none => none
  | some (name, value) =>
    if line.head? ∈ [some ' ', some '\t'] ∨ name.getLast? ∈ [none, some ' ', some '\t'] then none
    else some (name, trim value)

def parseHead (head : Bytes) : Option RequestHead := do
  let body ← (fromUtf8 head).bind stripBlankLine
  match (splitCrlf body).map (splitOn ' ') with
  | [method, target, version] :: _ =>
    if method = [] ∨ target = [] ∨ version ∉ ["HTTP/1.1".toList, "HTTP/1.0".toList] then none
    else
      let headers ← (((splitCrlf body).drop 1).filter (· ≠ [])).mapM parseHeader
      if maxHeaders < headers.length then none else some ⟨method, target, headers⟩
  | _ => none

def reasonPhrase : Nat → String
  | 200 => "OK"
  | 308 => "Permanent Redirect"
  | 400 => "Bad Request"
  | 401 => "Unauthorized"
  | 403 => "Forbidden"
  | 404 => "Not Found"
  | 405 => "Method Not Allowed"
  | 409 => "Conflict"
  | 411 => "Length Required"
  | 416 => "Range Not Satisfiable"
  | 417 => "Expectation Failed"
  | 431 => "Request Header Fields Too Large"
  | 501 => "Not Implemented"
  | 503 => "Service Unavailable"
  | _ => "Error"

def headLines (status : Nat) (contentType : String) (body : Text) (extra : List (String × Text)) : List Text :=
  ["HTTP/1.1 ".toList ++ Nat.toDigits 10 status ++ ' ' :: (reasonPhrase status).toList,
      "Content-Type: ".toList ++ contentType.toList, "Content-Length: ".toList ++ Nat.toDigits 10 (asBytes body).length,
      "Cache-Control: no-store".toList, "X-Content-Type-Options: nosniff".toList] ++
    extra.map (fun e => e.1.toList ++ ": ".toList ++ e.2) ++ ["Connection: close".toList, []]

def simpleResponse (status : Nat) (contentType : String) (body : Text) (extra : List (String × Text)) : Text :=
  responseHead (headLines status contentType body extra) ++ body

def authority (host : Text) (httpsPort : UInt16) : Text := if httpsPort = 443 then host else withPort host httpsPort

def location (host : Text) (httpsPort : UInt16) (target : Text) : Text :=
  "https://".toList ++ authority host httpsPort ++ target

def serve (host : Text) (httpsPort : UInt16) (head : Bytes) : Text :=
  match parseHead head with
  | none => simpleResponse 400 "text/plain" "malformed request\n".toList []
  | some request =>
    if request.method ∈ ["GET".toList, "HEAD".toList] then
      simpleResponse 308 "text/plain" [] [("Location", location host httpsPort request.target)]
    else simpleResponse 403 "text/plain" "fast link transfer requires HTTPS\n".toList []

def redirectLines (url : Text) : List Text := headLines 308 "text/plain" [] [("Location", url)]

section Location

variable {host : Text} {port : UInt16}

theorem authority_plain (host : Text) (port : UInt16) : (authority host port).all inAuthority = host.all inAuthority ∧
    (Unbroken (authority host port) ↔ Unbroken host) := by
  rw [authority]
  split
  · exact ⟨rfl, Iff.rfl⟩
  · exact ⟨(withPort_plain host port).1, (withPort_plain host port).2.1⟩

theorem readAuthority_authority :
    readAuthority (authority host port) = (host, Nat.toDigits 10 port.toNat) ↔ '@' ∉ host ∧ ':' ∉ host := by
  rw [readAuthority_iff]
  constructor
  · rintro ⟨hcolon, h⟩
    refine ⟨fun hat => not_mem_afterUser (authority host port) ?_, hcolon⟩
    rcases h with h | ⟨h, -⟩
    · exact h ▸ mem_append_left _ hat
    · rwa [h]
  · rintro ⟨hat, hcolon⟩
    have hself : afterUser host = host := afterUser_append [] hat
    rw [authority]
    refine ⟨hcolon, ?_⟩
    split
    · rename_i h443
      exact .inr ⟨hself, by rw [h443]; decide⟩
    · rw [(withPort_plain host port).2.2, hself]
      exact .inl rfl

theorem redirectLines_injective : Function.Injective fun url => responseHead (redirectLines url) :=
  responseHead_injective [_, _, _, _, _] ("Location".toList ++ ": ".toList) [_, _]

theorem leadsTo_location {target : Text} :
    LeadsTo redirectLines (responseHead (redirectLines (location host port target))) host port target ↔
      host ≠ [] ∧ host.all inAuthority = true ∧ '@' ∉ host ∧ ':' ∉ host ∧
        target.head?.any inAuthority = false ∧ Unbroken (host ++ target) := by
  refine (leadsTo_responseHead redirectLines redirectLines_injective).trans ?_
  have hscheme : Unbroken "https://".toList := by decide
  refine (and_congr_right fun _ => readLocation_iff).trans ?_
  change Unbroken ("https://".toList ++ authority host port ++ target) ∧ _ ↔ _
  simp only [unbroken_append, readAuthority_authority, authority_plain]
  tauto

end Location

end Bore.FastRedirect
