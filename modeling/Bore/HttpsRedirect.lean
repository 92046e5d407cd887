import Bore.HttpGate
import Bore.Numerals

/-! The redirect of a vhost's HTTP frontend: the head is read once to route the
request and once more to write where it has to go. -/

namespace Bore.HttpsRedirect

open WireBytes (Bytes)
open HttpGate List
open Numerals (trim)

def fromUtf8 (bytes : Bytes) : Option Text :=
  if asBytes (fromUtf8Lossy bytes) = bytes then some (fromUtf8Lossy bytes) else none

def headText : Bytes → Bytes
  | [] => []
  | b :: rest => if endOfHead <+: b :: rest then [] else b :: headText rest

/-- The value of a `Host` line. The router trims the name, the redirect does not. -/
def hostValue (read : Text → Text) (line : Text) : Option Text :=
  match splitOnce ':' line with
  | some (name, value) => if eqIgnoreAsciiCase (read name) "host".toList then some (trim value) else none
  | none => none

def extractHostFromHead (head : Bytes) : Option Text :=
  match fromUtf8 (headText head) with
  | none => none
  | some text => (((lines text).drop 1).takeWhile (· ≠ [])).findSome? (hostValue trim)

def requestTarget (request : Bytes) : Bytes :=
  let line := request.takeWhile (fun b => b ≠ 13 && b ≠ 10)
  ((line.splitOn 32).drop 1).headD []

def requestPath (request : Bytes) : Text :=
  if requestTarget request = [] then ['/'] else fromUtf8Lossy (requestTarget request)

def headerLines (request : Bytes) : List Text := (lines (fromUtf8Lossy request)).drop 1

def withPort (host : Text) (port : UInt16) : Text := host ++ ':' :: Nat.toDigits 10 port.toNat

def hostAuthority (request : Bytes) (port : UInt16) (fallbackHost : Option Text) : Text :=
  match (headerLines request).findSome? (hostValue id) with
  | some host =>
    if ':' ∈ host then host
    else if host ≠ [] then withPort host port
    else withPort (fallbackHost.getD "localhost".toList) port
  | none => withPort (fallbackHost.getD "localhost".toList) port

def responseLines (location : Text) : List Text :=
  ["HTTP/1.1 308 Permanent Redirect".toList, "Location: ".toList ++ location, "Content-Length: 0".toList,
    "Connection: close".toList, []]

def responseHead (headLines : List Text) : Text := headLines.flatMap (· ++ ['\r', '\n'])

def writeHttpsRedirect (head : Bytes) (port : UInt16) (fallbackHost : Option Text) : Text :=
  let location := "https://".toList ++ hostAuthority head port fallbackHost ++ requestPath head
  responseHead (responseLines location)

def inAuthority (c : Char) : Bool := c ∉ ['/', '\\', '?', '#']

def afterUser (authority : Text) : Text := (authority.reverse.takeWhile (· ≠ '@')).reverse

def readAuthority (authority : Text) : Text × Text :=
  (splitOnce ':' (afterUser authority)).getD (afterUser authority, "443".toList)

/-- How a client takes a location apart: the host, the port and the rest. -/
def readLocation (location : Text) : Option (Text × Text × Text) :=
  let rest := location.drop 8
  let (name, port) := readAuthority (rest.takeWhile inAuthority)
  if "https://".toList <+: location ∧ name ≠ [] then some (name, port, rest.dropWhile inAuthority) else none

def Unbroken (text : Text) : Prop := '\r' ∉ text ∧ '\n' ∉ text

instance (text : Text) : Decidable (Unbroken text) := inferInstanceAs (Decidable (_ ∧ _))

/-- A response that is one head of the given lines, with a location that is this
host, port and path. -/
def LeadsTo (headLines : Text → List Text) (response host : Text) (port : UInt16) (path : Text) : Prop :=
  ∃ location, response = responseHead (headLines location) ∧ Unbroken location ∧
    readLocation location = some (host, Nat.toDigits 10 port.toNat, path)

def requestedPath (head : Bytes) : Bytes := if requestTarget head = [] then [47] else requestTarget head

def hostName (host : Text) : Text := host.takeWhile (· ≠ ':')

/-- The value of the first line with the plain name `Host`, wherever it stands. -/
def sentHost (head : Bytes) : Text :=
  match (headerLines head).findSome? (hostValue id) with
  | some (c :: host) => c :: host
  | _ => "localhost".toList

/-- No line is a `Host` line only once its name is trimmed. -/
def unpadded (head : Bytes) : Bool :=
  (headerLines head).map (hostValue id) == (headerLines head).map (hostValue trim)

section Reading

theorem linesFrom_prefix (line a b : Text) : linesFrom line a <+: linesFrom line (a ++ '\r' :: '\n' :: b) := by
  induction a generalizing line with
  | nil =>
    rw [linesFrom]
    split
    · exact nil_prefix
    · exact prefix_append [line.reverse] _
  | cons c a ih =>
    simp only [cons_append, linesFrom]
    split
    · exact (prefix_cons_inj _).mpr (ih [])
    · exact ih _

theorem headText_append (head : Bytes) : headText head = head ∨ ∃ body, head = headText head ++ 13 :: 10 :: body := by
  induction head with
  | nil => exact .inl rfl
  | cons b _ ih =>
    rw [headText]
    split
    · rename_i hp
      obtain ⟨body, hb⟩ := hp
      exact .inr ⟨13 :: 10 :: body, hb.symm⟩
    · exact ih.imp (congrArg _) fun ⟨body, hb⟩ => ⟨body, congrArg (b :: ·) hb⟩

theorem decode_cons {b : UInt8} (h : b < 0x80) (bytes : Bytes) :
    fromUtf8Lossy (b :: bytes) = Char.ofNat b.toNat :: fromUtf8Lossy bytes :=
  decode_ascii .idle [] bytes h

theorem lines_headText (head : Bytes) : lines (fromUtf8Lossy (headText head)) <+: lines (fromUtf8Lossy head) := by
  rcases headText_append head with h | ⟨body, h⟩
  · simp [h]
  · have hd := decode_ascii .idle (headText head) (10 :: body) (show (13 : UInt8) < 0x80 by decide)
    rw [← h, decode_cons (by decide)] at hd
    rw [fromUtf8Lossy.eq_def head, hd]
    exact linesFrom_prefix [] _ _

variable {head : Bytes} {host : Text}

/-- The redirect finds the host that the router has found. -/
theorem host_found (h : extractHostFromHead head = some host) (hp : unpadded head = true) :
    (headerLines head).findSome? (hostValue id) = some host := by
  have hsame := congrArg (findSome? id) (beq_iff_eq.mp hp)
  rw [findSome?_map, findSome?_map] at hsame
  refine hsame.trans ?_
  rw [extractHostFromHead, fromUtf8] at h
  split at h
  · cases h
  rename_i ht
  split at ht
  all_goals cases ht
  obtain ⟨later, hl⟩ := lines_headText head
  rw [headerLines, ← hl, drop_append]
  exact (( takeWhile_prefix _).trans (prefix_append _ _)).findSome?_eq_some h

end Reading

section Location

variable {authority name port path host : Text}

theorem unbroken_append {a b : Text} : Unbroken (a ++ b) ↔ Unbroken a ∧ Unbroken b := by
  simp only [Unbroken, mem_append, not_or]
  tauto

theorem readLocation_iff : readLocation ("https://".toList ++ authority ++ path) = some (name, port, path) ↔
    authority.all inAuthority = true ∧ path.head?.any inAuthority = false ∧ name ≠ [] ∧
      readAuthority authority = (name, port) := by
  have hscheme : "https://".toList <+: "https://".toList ++ authority ++ path := ⟨_, (append_assoc ..).symm⟩
  have hrest : ("https://".toList ++ authority ++ path).drop 8 = authority ++ path := by
    rw [append_assoc]
    exact drop_left' rfl
  simp only [readLocation, hscheme, true_and, hrest]
  constructor
  · intro h
    obtain ⟨hne, he⟩ := (Option.ite_none_right_eq_some).mp h
    simp only [Option.some.injEq, Prod.mk.injEq] at he
    obtain ⟨rfl, rfl, hp⟩ := he
    have htake : (authority ++ path).takeWhile inAuthority = authority := by
      have hall := takeWhile_append_dropWhile (p := inAuthority) (l := authority ++ path)
      rw [hp] at hall
      exact append_cancel_right hall
    refine ⟨?_, ?_, hne, by rw [htake]⟩
    · rw [← htake, all_eq_true]
      exact fun c hc => mem_takeWhile_imp hc
    · have hstop := head?_dropWhile_not inAuthority (authority ++ path)
      rw [hp] at hstop
      cases hc : path.head? with
      | none => rfl
      | some => simpa [hc] using hstop
  · rintro ⟨hin, hout, hne, ha⟩
    have hpath : path.takeWhile inAuthority = [] ∧ path.dropWhile inAuthority = path := by
      cases path with
      | nil => exact ⟨rfl, rfl⟩
      | cons c _ => simp [show inAuthority c = false from hout]
    rw [all_eq_true] at hin
    rw [takeWhile_append_of_pos hin, dropWhile_append_of_pos hin, hpath.1, hpath.2, append_nil, ha, if_pos hne]

theorem splitOnce_append (hn : ':' ∉ name) : splitOnce ':' (name ++ ':' :: port) = some (name, port) := by
  have hcolon : ∀ c ∈ name, decide (c ≠ ':') = true := fun c hc => decide_eq_true fun h => hn (h ▸ hc)
  rw [splitOnce, if_pos (mem_append_right _ mem_cons_self), takeWhile_append_of_pos hcolon,
    dropWhile_append_of_pos hcolon]
  simp

theorem readAuthority_iff : readAuthority authority = (name, port) ↔
    ':' ∉ name ∧ (afterUser authority = name ++ ':' :: port ∨ afterUser authority = name ∧ "443".toList = port) := by
  rw [readAuthority]
  by_cases hc : ':' ∈ afterUser authority
  · obtain ⟨a, b, he, ha⟩ := eq_append_cons_of_mem hc
    rw [he, splitOnce_append ha, Option.getD_some]
    constructor
    · rintro ⟨⟩
      exact ⟨ha, .inl rfl⟩
    · rintro ⟨hn, h | ⟨rfl, -⟩⟩
      · have hs : splitOnce ':' (a ++ ':' :: b) = some (a, b) := splitOnce_append ha
        rw [h, splitOnce_append hn] at hs
        exact (Option.some.inj hs).symm
      · simp at hn
  · rw [splitOnce, if_neg hc, Option.getD_none, Prod.mk.injEq]
    constructor
    · rintro ⟨rfl, hp⟩
      exact ⟨hc, .inr ⟨rfl, hp⟩⟩
    · rintro ⟨-, h | h⟩
      · simp [h] at hc
      · exact h

theorem not_mem_afterUser (authority : Text) : '@' ∉ afterUser authority := by
  intro h
  simpa using mem_takeWhile_imp (mem_reverse.mp h)

theorem afterUser_append (a : Text) {b : Text} (h : '@' ∉ b) : afterUser (a ++ b) = afterUser a ++ b := by
  have hb : ∀ c ∈ b.reverse, decide (c ≠ '@') = true := fun c hc => decide_eq_true fun he => h (he ▸ mem_reverse.mp hc)
  rw [afterUser, reverse_append, takeWhile_append_of_pos hb, reverse_append, reverse_reverse, afterUser]

theorem digit_plain {port : UInt16} {c : Char} (hc : c ∈ Nat.toDigits 10 port.toNat) :
    c ∉ ['/', '\\', '?', '#', '@', ':', '\r', '\n'] := by
  have hdigit := Nat.isDigit_of_mem_toDigits (by decide) (by decide) hc
  intro hm
  have hall : ∀ d ∈ ['/', '\\', '?', '#', '@', ':', '\r', '\n'], Char.isDigit d = false := by
    simp only [forall_mem_cons]
    exact ⟨rfl, rfl, rfl, rfl, rfl, rfl, rfl, rfl, nofun⟩
  rw [hall c hm] at hdigit
  cases hdigit

theorem withPort_plain (host : Text) (port : UInt16) :
    (withPort host port).all inAuthority = host.all inAuthority ∧
    (Unbroken (withPort host port) ↔ Unbroken host) ∧ afterUser (withPort host port) = withPort (afterUser host) port := by
  have hd : ∀ c ∈ Nat.toDigits 10 port.toNat, _ := fun c => digit_plain (c := c)
  simp only [mem_cons, not_or] at hd
  refine ⟨?_, ?_, afterUser_append _ ?_⟩
  · have hdigits : (Nat.toDigits 10 port.toNat).all inAuthority = true :=
      all_eq_true.mpr fun c hc => by simp [inAuthority, hd c hc]
    rw [withPort, all_append, all_cons, hdigits]
    exact Bool.and_true _
  · rw [withPort, unbroken_append]
    refine and_iff_left ⟨fun h => ?_, fun h => ?_⟩
    all_goals exact absurd (hd _ ((mem_cons.mp h).resolve_left (by decide))) (by simp)
  · exact fun h => absurd (hd _ ((mem_cons.mp h).resolve_left (by decide))) (by simp)

theorem toDigits_inj {a b : UInt16} : Nat.toDigits 10 a.toNat = Nat.toDigits 10 b.toNat ↔ a = b := by
  constructor
  · intro h
    have hn := congrArg Numerals.readDecimal h
    rwa [Numerals.readDecimal_toDigits, Numerals.readDecimal_toDigits, UInt16.toNat_inj] at hn
  · rintro rfl
    rfl

theorem responseHead_injective (before : List Text) (label : Text) (after : List Text) :
    Function.Injective fun location => responseHead (before ++ (label ++ location) :: after) := by
  intro a b h
  simpa [responseHead] using h

theorem leadsTo_responseHead (headLines : Text → List Text) {location : Text} {port : UInt16}
    (hl : Function.Injective fun location => responseHead (headLines location)) :
    LeadsTo headLines (responseHead (headLines location)) host port path ↔
      Unbroken location ∧ readLocation location = some (host, Nat.toDigits 10 port.toNat, path) := by
  constructor
  · rintro ⟨other, he, h⟩
    cases hl he
    exact h
  · exact fun h => ⟨location, rfl, h⟩

end Location

theorem hostAuthority_eq (head : Bytes) (port : UInt16) : hostAuthority head port none =
    if ':' ∈ sentHost head then sentHost head else withPort (sentHost head) port := by
  rw [hostAuthority, sentHost]
  rcases (headerLines head).findSome? (hostValue id) with _ | _ | ⟨c, host⟩
  · rfl
  · rfl
  · simp only [ne_eq, reduceCtorEq, not_false_eq_true, if_true]

theorem requestPath_eq (head : Bytes) : requestPath head = fromUtf8Lossy (requestedPath head) := by
  rw [requestPath, requestedPath]
  split
  · decide +kernel
  · rfl

def requestTo (target host : String) : Bytes := ascii ("GET " ++ target ++ " HTTP/1.1\r\nHost: " ++ host ++ "\r\n\r\n")

end Bore.HttpsRedirect
