import Bore.Numerals
import Bore.WireBytes

/-! The basic-auth gate in front of a tunnel: how it reads the head of an HTTP
request and what it lets through. -/

namespace Bore.HttpGate

open List

open WireBytes (Bytes)
open Numerals (trim)

abbrev Text := List Char

section Utf8

/-- The decoder inside a character: how many bytes it waits for, the range of
the next one and the bits so far. -/
structure Utf8 where
  need : Nat
  low : UInt8
  high : UInt8
  code : Nat

def Utf8.idle : Utf8 := ⟨0, 0, 0, 0⟩

def replacement : Char := Char.ofNat 0xFFFD

def Utf8.lead (b : UInt8) : Utf8 × Text :=
  if b < 0x80 then (idle, [Char.ofNat b.toNat])
  else if 0xC2 ≤ b ∧ b ≤ 0xDF then (⟨1, 0x80, 0xBF, b.toNat % 32⟩, [])
  else if 0xE0 ≤ b ∧ b ≤ 0xEF then
    (⟨2, if b = 0xE0 then 0xA0 else 0x80, if b = 0xED then 0x9F else 0xBF, b.toNat % 16⟩, [])
  else if 0xF0 ≤ b ∧ b ≤ 0xF4 then
    (⟨3, if b = 0xF0 then 0x90 else 0x80, if b = 0xF4 then 0x8F else 0xBF, b.toNat % 8⟩, [])
  else (idle, [replacement])

/-- A byte that cannot go on ends the character before it, which becomes one
replacement character. -/
def Utf8.feed (u : Utf8) (b : UInt8) : Utf8 × Text :=
  if u.need = 0 then lead b
  else if 0x80 ≤ b ∧ u.low ≤ b ∧ b ≤ u.high then
    if u.need = 1 then (idle, [Char.ofNat (u.code * 64 + b.toNat % 64)])
    else (⟨u.need - 1, 0x80, 0xBF, u.code * 64 + b.toNat % 64⟩, [])
  else ((lead b).1, replacement :: (lead b).2)

def Utf8.decode (u : Utf8) : Bytes → Text
  | [] => if u.need = 0 then [] else [replacement]
  | b :: rest => (u.feed b).2 ++ (u.feed b).1.decode rest

def fromUtf8Lossy (bytes : Bytes) : Text := Utf8.idle.decode bytes

theorem feed_ascii (u : Utf8) {b : UInt8} (hb : b < 0x80) :
    u.feed b = (Utf8.idle, u.decode [] ++ [Char.ofNat b.toNat]) := by
  have hlead : Utf8.lead b = (Utf8.idle, [Char.ofNat b.toNat]) := if_pos hb
  rw [Utf8.feed, hlead, Utf8.decode]
  split
  · rfl
  · rw [if_neg (fun h => UInt8.not_le.mpr hb h.1)]
    rfl

theorem decode_ascii (u : Utf8) (a b : Bytes) {c : UInt8} (hc : c < 0x80) :
    u.decode (a ++ c :: b) = u.decode a ++ Char.ofNat c.toNat :: fromUtf8Lossy b := by
  induction a generalizing u with
  | nil => rw [nil_append, Utf8.decode.eq_2, feed_ascii u hc, append_assoc, singleton_append, fromUtf8Lossy]
  | cons d a ih => rw [cons_append, Utf8.decode, Utf8.decode, ih, append_assoc]

end Utf8

section Lines

def stripReturn : Text → Text
  | '\r' :: line => line
  | line => line

/-- `line` is the current line, backwards. A carriage return belongs to the end
of the line only before a line feed. -/
def linesFrom (line : Text) : Text → List Text
  | [] => if line = [] then [] else [line.reverse]
  | c :: rest => if c = '\n' then (stripReturn line).reverse :: linesFrom [] rest else linesFrom (c :: line) rest

def lines (text : Text) : List Text := linesFrom [] text

theorem linesFrom_newline (line a b : Text) :
    linesFrom line (a ++ '\n' :: b) = linesFrom line (a ++ ['\n']) ++ lines b := by
  induction a generalizing line with
  | nil => rfl
  | cons c a ih =>
    simp only [cons_append, linesFrom]
    split
    · rw [ih, cons_append]
    · exact ih _

/-- Text up to a line break has the same lines whatever comes after it. -/
theorem lines_fromUtf8Lossy {a : Bytes} (h : a.getLast? = some 10) (b : Bytes) :
    lines (fromUtf8Lossy (a ++ b)) = lines (fromUtf8Lossy a) ++ lines (fromUtf8Lossy b) := by
  obtain ⟨a, rfl⟩ := getLast?_eq_some_iff.mp h
  have hn : (10 : UInt8) < 0x80 := by decide
  simp only [fromUtf8Lossy, append_assoc, singleton_append, decode_ascii _ _ _ hn]
  exact linesFrom_newline [] _ _

end Lines

section Header

def splitOnce (c : Char) (text : Text) : Option (Text × Text) :=
  if c ∈ text then some (text.takeWhile (· ≠ c), (text.dropWhile (· ≠ c)).tail) else none

def eqIgnoreAsciiCase (a b : Text) : Bool := a.map Char.toLower == b.map Char.toLower

def asBytes (text : Text) : Bytes := text.flatMap String.utf8EncodeChar

def basicToken (line : Text) : Option Text :=
  match splitOnce ':' line with
  | none => none
  | some (name, value) =>
    if eqIgnoreAsciiCase (trim name) "authorization".toList then
      let (scheme, token) := (splitOnce ' ' (trim value)).getD (trim value, [])
      if eqIgnoreAsciiCase scheme "basic".toList then some (trim token) else none
    else none

end Header

def base64Table : Text := "ABCDEFGHIJKLMNOPQRSTUVWXYZabcdefghijklmnopqrstuvwxyz0123456789+/".toList

def base64Digit (n : Nat) : Char := base64Table.getD (n % 64) '='

def base64Encode : Bytes → Text
  | [] => []
  | [a] =>
    let n := a.toNat * 2 ^ 16
    [base64Digit (n / 2 ^ 18), base64Digit (n / 2 ^ 12), '=', '=']
  | [a, b] =>
    let n := a.toNat * 2 ^ 16 + b.toNat * 2 ^ 8
    [base64Digit (n / 2 ^ 18), base64Digit (n / 2 ^ 12), base64Digit (n / 2 ^ 6), '=']
  | a :: b :: c :: rest =>
    let n := a.toNat * 2 ^ 16 + b.toNat * 2 ^ 8 + c.toNat
    [base64Digit (n / 2 ^ 18), base64Digit (n / 2 ^ 12), base64Digit (n / 2 ^ 6), base64Digit n] ++ base64Encode rest

example : base64Encode (asBytes "user:pass".toList) = "dXNlcjpwYXNz".toList := by decide

def constantTimeEq (a b : Bytes) : Bool :=
  a.length == b.length && (a.zip b).foldl (fun diff xy => diff ||| (xy.1 ^^^ xy.2)) 0 == 0

theorem eq_of_diff_eq_zero {a b : Bytes} (hl : a.length = b.length) {diff : UInt8}
    (h : (a.zip b).foldl (fun diff xy => diff ||| (xy.1 ^^^ xy.2)) diff = 0) : diff = 0 ∧ a = b := by
  induction a generalizing b diff with
  | nil => exact ⟨h, (length_eq_zero_iff.mp hl.symm).symm⟩
  | cons x a ih =>
    cases b with
    | nil => cases hl
    | cons =>
      obtain ⟨hd, rfl⟩ := ih (Nat.succ.inj hl) h
      obtain ⟨hdiff, hxy⟩ := UInt8.or_eq_zero_iff.mp hd
      exact ⟨hdiff, congrArg (· :: a) (UInt8.xor_eq_zero_iff.mp hxy)⟩

theorem diff_self (a : Bytes) : (a.zip a).foldl (fun diff xy => diff ||| (xy.1 ^^^ xy.2)) 0 = 0 := by
  induction a with
  | nil => rfl
  | cons x a ih => simpa using ih

theorem constantTimeEq_iff {a b : Bytes} : constantTimeEq a b = true ↔ a = b := by
  simp only [constantTimeEq, Bool.and_eq_true, beq_iff_eq]
  constructor
  · exact fun h => (eq_of_diff_eq_zero h.1 h.2).2
  · rintro rfl
    exact ⟨rfl, diff_self a⟩

structure BasicAuth where
  tokenB64 : Text

def BasicAuth.parse (creds : Text) : Option BasicAuth :=
  if creds = [] ∨ ':' ∉ creds then none else some ⟨base64Encode (asBytes creds)⟩

def BasicAuth.authorized (auth : BasicAuth) (head : Bytes) : Bool :=
  match (lines (fromUtf8Lossy head)).findSome? basicToken with
  | some token => constantTimeEq (asBytes token) (asBytes auth.tokenB64)
  | none => false

def httpMethods : List Bytes :=
  ["GET ", "POST ", "PUT ", "HEAD ", "DELE", "OPTI", "PATC", "TRAC", "CONN"].map (fun m => asBytes m.toList)

def looksLikeHttp (head : Bytes) : Bool := httpMethods.any (fun m => m.isPrefixOf head)

def maxHead : Nat := 8 * 1024

def endOfHead : Bytes := [13, 10, 13, 10]

inductive Gate
  | forward (read : Bytes)
  | reject
  deriving DecidableEq

/-- The reads that return before the timer fires. After the last one the loop
ends with the stream, with an error or with the timeout. -/
def readHead (buf : Bytes) : List Bytes → Bytes
  | [] => buf
  | chunk :: rest =>
    if chunk = [] then buf
    else if 8 ≤ (buf ++ chunk).length ∧ looksLikeHttp (buf ++ chunk) = false then buf ++ chunk
    else if endOfHead <:+: buf ++ chunk ∨ maxHead ≤ (buf ++ chunk).length then buf ++ chunk
    else readHead (buf ++ chunk) rest

def gate (auth : BasicAuth) (reads : List Bytes) : Gate :=
  let buf := readHead [] reads
  if looksLikeHttp buf = false then .forward buf
  else if auth.authorized buf then .forward buf
  else .reject

structure TunnelOptions where
  https : Bool
  forceHttps : Bool
  basicAuth : Option Text

inductive TunnelStream
  | plain
  | tls
  | buffered (read : Bytes)

/-- What `accept` has done: `Ok(None)` is a redirect or a 401 that was written. -/
inductive Accepted
  | forward (stream : TunnelStream)
  | redirected
  | rejected

/-- A connection as `accept` meets it: the peek is `none` if it fails and empty
if it times out, `handshake` is the error of the TLS handshake, and the reads
are those of the decrypted stream after one. -/
structure Connection where
  peek : Option Bytes
  handshake : Option String
  reads : List Bytes

def tlsHandshake : UInt8 := 0x16

def gateStream (auth : BasicAuth) (reads : List Bytes) : Accepted :=
  match gate auth reads with
  | .forward read => .forward (.buffered read)
  | .reject => .rejected

def acceptTls (auth : Option BasicAuth) (hasTls : Bool) (conn : Connection) : Except String Accepted :=
  if hasTls then
    match conn.handshake, auth with
    | some err, _ => .error err
    | none, some auth => .ok (gateStream auth conn.reads)
    | none, none => .ok (.forward .tls)
  else .error "TLS requested but no certificate is configured"

def acceptPlain (auth : Option BasicAuth) (conn : Connection) : Accepted :=
  match auth with
  | some auth => gateStream auth conn.reads
  | none => .forward .plain

def accept (opts : TunnelOptions) (hasTls : Bool) (conn : Connection) : Except String Accepted :=
  let auth := opts.basicAuth.bind BasicAuth.parse
  if !opts.https && !opts.forceHttps && auth.isNone then .ok (.forward .plain)
  else
    match conn.peek with
    | none => .error "failed to peek connection"
    | some head =>
      if opts.https && head.head? == some tlsHandshake then acceptTls auth hasTls conn
      else if opts.forceHttps && looksLikeHttp head then .ok .redirected
      else .ok (acceptPlain auth conn)

/-- The request head of a stream: all up to the first empty line. -/
def requestHead : Bytes → Bytes
  | [] => []
  | b :: rest => if endOfHead <+: b :: rest then endOfHead else b :: requestHead rest

def carries (creds : Text) (head : Bytes) : Prop :=
  ∃ line ∈ lines (fromUtf8Lossy head), ∃ token, basicToken line = some token ∧
    asBytes token = asBytes (base64Encode (asBytes creds))

/-- The first `Authorization: Basic` line has the credentials. -/
def presents (creds : Text) (read : Bytes) : Prop :=
  ∃ token, (lines (fromUtf8Lossy read)).findSome? basicToken = some token ∧
    asBytes token = asBytes (base64Encode (asBytes creds))

/-- What has arrived when the head is complete, when 8 KiB are there or when the
reads have ended. -/
def arrived (seen : Bytes) : List Bytes → Bytes
  | [] => seen
  | chunk :: rest =>
    if chunk = [] ∨ endOfHead <:+: seen ++ chunk ∨ maxHead ≤ (seen ++ chunk).length then seen ++ chunk
    else arrived (seen ++ chunk) rest

/-- What has been read does not end inside a line of the head, and after the head
it has no `Authorization: Basic` line. -/
def readsWell (read stream : Bytes) : Bool :=
  if (requestHead stream).length ≤ read.length then
    (lines (fromUtf8Lossy (read.drop (requestHead stream).length))).all (fun line => (basicToken line).isNone)
  else read.getLast? == some 10

theorem requestHead_append (stream : Bytes) :
    ∃ body, stream = requestHead stream ++ body ∧ (body = [] ∨ (requestHead stream).getLast? = some 10) := by
  induction stream with
  | nil => exact ⟨[], rfl, .inl rfl⟩
  | cons _ _ ih =>
    rw [requestHead]
    split
    · rename_i hp
      obtain ⟨body, hb⟩ := hp
      exact ⟨body, hb.symm, .inr rfl⟩
    obtain ⟨body, hb, hlast⟩ := ih
    refine ⟨body, by rw [cons_append, ← hb], hlast.imp_right fun h => ?_⟩
    rw [getLast?_cons, h]
    rfl

/-- A stream begins with at most one method, so that as much of it as the method
is long shows that it is HTTP. -/
theorem looksLikeHttp_iff {m seen stream : Bytes} (hm : m ∈ httpMethods) (hs : m <+: stream) (hp : seen <+: stream) :
    looksLikeHttp seen = true ↔ m.length ≤ seen.length := by
  have hapart : ∀ m ∈ httpMethods, ∀ n ∈ httpMethods, m <+: n → m = n := by decide
  rw [looksLikeHttp, any_eq_true]
  constructor
  · rintro ⟨n, hn, hseen⟩
    have hseen := isPrefixOf_iff_prefix.mp hseen
    have heq : m = n := by
      rcases prefix_or_prefix_of_prefix hs (hseen.trans hp) with h | h
      · exact hapart m hm n hn h
      · exact (hapart n hn m hm h).symm
    exact heq ▸ hseen.length_le
  · intro hl
    exact ⟨m, hm, isPrefixOf_iff_prefix.mpr (prefix_of_prefix_length_le hs hp hl)⟩

theorem length_method {m : Bytes} (hm : m ∈ httpMethods) : m.length ≤ 5 := by
  revert m
  decide

theorem arrived_prefix (seen : Bytes) (reads : List Bytes) : arrived seen reads <+: seen ++ reads.flatten := by
  induction reads generalizing seen with
  | nil => exact prefix_append ..
  | cons chunk reads ih =>
    rw [arrived, flatten_cons, ← append_assoc]
    split
    · exact prefix_append ..
    · exact ih _

/-- The gate stops early only where the stream is not HTTP. -/
theorem readHead_eq_arrived {m late : Bytes} (hm : m ∈ httpMethods) (buf : Bytes) (reads : List Bytes)
    (hs : m <+: buf ++ reads.flatten ++ late) : readHead buf reads = arrived buf reads := by
  induction reads generalizing buf with
  | nil => rfl
  | cons chunk reads ih =>
    rw [flatten_cons, ← append_assoc] at hs
    have hhttp (h : 8 ≤ (buf ++ chunk).length) : looksLikeHttp (buf ++ chunk) = true := by
      rw [looksLikeHttp_iff hm hs (by rw [append_assoc]; exact prefix_append ..)]
      exact (length_method hm).trans (le_trans (by decide) h)
    rw [readHead, arrived]
    split
    · next he => simp [he]
    · next he =>
        rw [if_neg fun h => by simp [hhttp h.1] at h]
        simp only [he, false_or]
        split
        · rfl
        · exact ih _ hs

theorem line_of_head {read stream : Bytes} (hr : read <+: stream) (hw : readsWell read stream = true)
    {line token : Text} (hline : line ∈ lines (fromUtf8Lossy read)) (htoken : basicToken line = some token) :
    line ∈ lines (fromUtf8Lossy (requestHead stream)) := by
  obtain ⟨body, hb, hlast⟩ := requestHead_append stream
  have hhead : requestHead stream <+: stream := ⟨body, hb.symm⟩
  rw [readsWell] at hw
  split at hw
  · rename_i hle
    obtain ⟨extra, rfl⟩ := prefix_of_prefix_length_le hhead hr hle
    rw [drop_left, all_eq_true] at hw
    rcases hlast with rfl | hlast
    · -- without an empty line the head is the whole stream
      have hwhole := congrArg length hb
      have hlen := hr.length_le
      simp only [length_append, length_nil] at hwhole hlen
      rwa [eq_nil_of_length_eq_zero (by omega : extra.length = 0), append_nil] at hline
    rw [lines_fromUtf8Lossy hlast, mem_append] at hline
    rcases hline with hline | hline
    · exact hline
    · have hnone := hw line hline
      rw [htoken] at hnone
      cases hnone
  rename_i hlt
  obtain ⟨later, hlater⟩ := prefix_of_prefix_length_le hr hhead (Nat.le_of_not_le hlt)
  rw [← hlater, lines_fromUtf8Lossy (beq_iff_eq.mp hw)]
  exact mem_append_left _ hline

section Forwarding

variable {creds : Text} {auth : BasicAuth}

theorem authorized_iff (hp : BasicAuth.parse creds = some auth) (read : Bytes) :
    auth.authorized read = true ↔ presents creds read := by
  rw [BasicAuth.parse] at hp
  split at hp
  all_goals cases hp
  rw [BasicAuth.authorized, presents]
  split
  · next token hfind => simp [hfind, constantTimeEq_iff]
  · next hfind => simp [hfind]

theorem forward_iff (hp : BasicAuth.parse creds = some auth) {m late : Bytes} {reads : List Bytes}
    (hm : m ∈ httpMethods) (hs : m <+: reads.flatten ++ late) :
    (∃ read, gate auth reads = .forward read) ↔
      (arrived [] reads).length < m.length ∨ presents creds (arrived [] reads) := by
  have hread := readHead_eq_arrived hm [] reads hs
  have hseen := looksLikeHttp_iff hm hs (( arrived_prefix [] reads).trans (prefix_append ..))
  rw [gate, hread, ← authorized_iff hp, ← not_le, ← hseen]
  cases looksLikeHttp (arrived [] reads) <;> cases auth.authorized (arrived [] reads) <;> simp

theorem gate_of_accept {opts : TunnelOptions} {hasTls : Bool} {conn : Connection} {out : TunnelStream}
    (hp : opts.basicAuth.bind BasicAuth.parse = some auth) (h : accept opts hasTls conn = .ok (.forward out)) :
    ∃ read, gate auth conn.reads = .forward read := by
  have hgate (hg : gateStream auth conn.reads = .forward out) : ∃ read, gate auth conn.reads = .forward read := by
    rw [gateStream] at hg
    split at hg
    · exact ⟨_, by assumption⟩
    · cases hg
  simp only [accept, hp, Option.isNone_some, Bool.and_false, Bool.false_eq_true, if_false] at h
  split at h
  · cases h
  split at h
  · unfold acceptTls at h
    split at h
    · split at h
      · cases h
      · next heq =>
          cases heq
          exact hgate (Except.ok.inj h)
      · next heq => cases heq
    · cases h
  · split at h
    · cases h
    · exact hgate (Except.ok.inj h)

end Forwarding

def ascii (text : String) : Bytes := asBytes text.toList

def userPass : Text := "u:p".toList

def threeReads : List Bytes :=
  [ascii "GET", ascii " / HTTP/1.1\r\nAuthorization: Ba", ascii "sic dTpw\r\n\r\n"]

theorem not_carries {creds : Text} {head : Bytes}
    (h : (lines (fromUtf8Lossy head)).all (fun line => (basicToken line).isNone) = true) : ¬ carries creds head := by
  rintro ⟨line, hline, token, htoken, -⟩
  have hnone := all_eq_true.mp h line hline
  rw [htoken] at hnone
  cases hnone

section Redirect

theorem not_tls_of_looksLikeHttp {stream : Bytes} (h : looksLikeHttp stream = true) : stream.head? ≠ some tlsHandshake := by
  have hall : ∀ m ∈ httpMethods, m.head?.isSome ∧ m.head? ≠ some tlsHandshake := by decide
  obtain ⟨m, hm, hs⟩ := any_eq_true.mp h
  obtain ⟨rest, rfl⟩ := isPrefixOf_iff_prefix.mp hs
  rw [head?_append, Option.or_of_isSome (hall m hm).1]
  exact (hall m hm).2

theorem acceptPlain_ne (auth : Option BasicAuth) (conn : Connection) : acceptPlain auth conn ≠ .redirected := by
  unfold acceptPlain gateStream
  split
  · split <;> nofun
  · nofun

end Redirect

end Bore.HttpGate
