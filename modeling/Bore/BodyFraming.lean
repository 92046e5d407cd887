import Bore.RegistryTypes

/-! The upload-body framer of a fast link: which prefix of each read belongs to
the body. -/

namespace Bore.BodyFraming

open List

open WireBytes (Bytes)
open RegistryTypes (u64Max)

inductive Framing
  | contentLength (n : Nat)
  | chunked
  deriving DecidableEq

inductive FramingError
  | chunkSize | chunkLineTooLong | missingCrlf | trailersNotSupported
  deriving DecidableEq

structure Progress where
  forward : Nat
  done : Bool
  deriving DecidableEq

def maxChunkLine : Nat := 4096

inductive ChunkState
  | sizeDigits (value digits lineLen : Nat)
  | ext (value lineLen : Nat)
  | sizeLf (value : Nat)
  | data (remaining : Nat)
  | dataCr
  | dataLf
  | trailerStart
  | trailerLf
  | done
  deriving DecidableEq

def hexDigit (b : UInt8) : Option Nat :=
  if 0x30 ≤ b && b ≤ 0x39 then some (b.toNat - 0x30)
  else if 0x61 ≤ b && b ≤ 0x66 then some (b.toNat - 0x61 + 10)
  else if 0x41 ≤ b && b ≤ 0x46 then some (b.toNat - 0x41 + 10)
  else none

def sizeByte (value digits lineLen : Nat) (b : UInt8) : Except FramingError ChunkState :=
  if maxChunkLine < lineLen + 1 then .error .chunkLineTooLong
  else match hexDigit b with
    | some d =>
      if 16 ≤ digits then .error .chunkSize
      else if u64Max < value * 16 + d then .error .chunkSize
      else .ok (.sizeDigits (value * 16 + d) (digits + 1) (lineLen + 1))
    | none =>
      if digits = 0 then .error .chunkSize
      else if b = 0x3B || b = 0x20 || b = 0x09 then .ok (.ext value (lineLen + 1))
      else if b = 0x0D then .ok (.sizeLf value)
      else .error .chunkSize

def extByte (value lineLen : Nat) (b : UInt8) : Except FramingError ChunkState :=
  if maxChunkLine < lineLen + 1 then .error .chunkLineTooLong
  else if b = 0x0D then .ok (.sizeLf value)
  else if b = 0x0A then .error .missingCrlf
  else if b < 0x20 && b != 0x09 then .error .chunkSize
  else .ok (.ext value (lineLen + 1))

def expectByte (expected : UInt8) (next : ChunkState) (e : FramingError) (b : UInt8) : Except FramingError ChunkState :=
  if b = expected then .ok next else .error e

def ChunkState.byte : ChunkState → UInt8 → Except FramingError ChunkState
  | .sizeDigits value digits lineLen => sizeByte value digits lineLen
  | .ext value lineLen => extByte value lineLen
  | .sizeLf value => expectByte 0x0A (if value = 0 then .trailerStart else .data value) .missingCrlf
  | .data 0 => expectByte 0x0D .dataLf .missingCrlf
  | .data 1 => fun _ => .ok .dataCr
  | .data (remaining + 2) => fun _ => .ok (.data (remaining + 1))
  | .dataCr => expectByte 0x0D .dataLf .missingCrlf
  | .dataLf => expectByte 0x0A (.sizeDigits 0 0 0) .missingCrlf
  | .trailerStart => expectByte 0x0D .trailerLf .trailersNotSupported
  | .trailerLf => expectByte 0x0A .done .missingCrlf
  | .done => fun _ => .ok .done

/-- The loop of `feed_chunked`: a `Data` state skips what it can in one turn. -/
def feedLoop : Nat → ChunkState → Bytes → Nat → Except FramingError (ChunkState × Nat)
  | 0, state, _, i => .ok (state, i)
  | _ + 1, state, [], i => .ok (state, i)
  | fuel + 1, state, b :: rest, i =>
    match state with
    | .done => .ok (.done, i)
    | .data remaining =>
      let take := min remaining (rest.length + 1)
      feedLoop fuel (if remaining - take = 0 then .dataCr else .data (remaining - take)) ((b :: rest).drop take) (i + take)
    | state =>
      match state.byte b with
      | .error e => .error e
      | .ok next => feedLoop fuel next rest (i + 1)

/-- Every turn but one that leaves an empty `Data` state consumes a byte. -/
def feedChunked (state : ChunkState) (input : Bytes) : Except FramingError (ChunkState × Nat) :=
  feedLoop (2 * input.length + 1) state input 0

inductive Inner
  | contentLength (remaining declared : Nat)
  | chunked (state : ChunkState)
  deriving DecidableEq

structure BodyFramer where
  inner : Inner
  error : Option FramingError
  deriving DecidableEq

namespace BodyFramer

def new : Framing → BodyFramer
  | .contentLength n => ⟨.contentLength n n, none⟩
  | .chunked => ⟨.chunked (.sizeDigits 0 0 0), none⟩

def isDone (f : BodyFramer) : Bool :=
  if f.error.isSome then false
  else match f.inner with
    | .contentLength remaining _ => decide (remaining = 0)
    | .chunked state => decide (state = .done)

def feed (f : BodyFramer) (input : Bytes) : BodyFramer × Except FramingError Progress :=
  match f.error with
  | some e => (f, .error e)
  | none =>
    if f.isDone then (f, .ok ⟨0, true⟩)
    else match f.inner with
      | .contentLength remaining declared =>
        let take := min remaining input.length
        (⟨.contentLength (remaining - take) declared, none⟩, .ok ⟨take, decide (remaining - take = 0)⟩)
      | .chunked state =>
        match feedChunked state input with
        | .ok (next, forward) => (⟨.chunked next, none⟩, .ok ⟨forward, decide (next = .done)⟩)
        | .error e => ({ f with error := some e }, .error e)

end BodyFramer

namespace ChunkState

def bytes : ChunkState → Bytes → Except FramingError (ChunkState × Nat)
  | state, [] => .ok (state, 0)
  | state, b :: rest =>
    if state = .done then .ok (.done, 0)
    else match state.byte b with
      | .error e => .error e
      | .ok next => (next.bytes rest).map (fun r => (r.1, r.2 + 1))

theorem bytes_done (input : Bytes) : bytes .done input = .ok (.done, 0) := by
  cases input <;> rfl

theorem bytes_cons {state next : ChunkState} {b : UInt8} (hd : state ≠ .done) (hb : state.byte b = .ok next)
    (rest : Bytes) : state.bytes (b :: rest) = (next.bytes rest).map (fun r => (r.1, r.2 + 1)) := by
  rw [bytes, if_neg hd, hb]

theorem bytes_cons_error {state : ChunkState} {b : UInt8} {e : FramingError} (hd : state ≠ .done)
    (hb : state.byte b = .error e) (rest : Bytes) : state.bytes (b :: rest) = .error e := by
  rw [bytes, if_neg hd, hb]

theorem map_map_count (x : Except FramingError (ChunkState × Nat)) (m n : Nat) :
    (x.map (fun r => (r.1, r.2 + m))).map (fun r => (r.1, r.2 + n)) = x.map (fun r => (r.1, r.2 + (m + n))) := by
  cases x with
  | error => rfl
  | ok => simp only [Except.map, Nat.add_assoc]

theorem bytes_data (n : Nat) (input : Bytes) : bytes (.data (n + 1)) input = if input = [] then .ok (.data (n + 1), 0)
      else (bytes (if n + 1 - min (n + 1) input.length = 0 then .dataCr else .data (n + 1 - min (n + 1) input.length))
        (input.drop (min (n + 1) input.length))).map (fun r => (r.1, r.2 + min (n + 1) input.length)) := by
  induction n generalizing input with
  | zero =>
    cases input with
    | nil => rfl
    | cons b rest =>
      have hm : min (0 + 1) (b :: rest).length = 1 := by simp
      rw [bytes_cons (by decide) rfl, hm]
      simp
  | succ n ih =>
    cases input with
    | nil => rfl
    | cons b rest =>
      rw [bytes_cons (by simp) rfl, ih rest]
      cases rest with
      | nil =>
        have hm : min (n + 1 + 1) [b].length = 1 := by simp
        simp [bytes, Except.map]
      | cons c rest =>
        have hm : min (n + 1 + 1) (b :: c :: rest).length = min (n + 1) (c :: rest).length + 1 := by
          simp only [length_cons]
          omega
        have hs : n + 1 + 1 - (min (n + 1) (c :: rest).length + 1) = n + 1 - min (n + 1) (c :: rest).length := by
          omega
        rw [hm, hs, drop_succ_cons]
        simp only [reduceCtorEq, if_false]
        rw [map_map_count]

end ChunkState

open ChunkState

def turns (state : ChunkState) (input : Bytes) : Nat := 2 * input.length + (if state = .data 0 then 1 else 0)

theorem feedLoop_eq (fuel : Nat) (state : ChunkState) (input : Bytes) (i : Nat) (h : turns state input ≤ fuel) :
    feedLoop fuel state input i = (state.bytes input).map (fun r => (r.1, r.2 + i)) := by
  induction fuel generalizing state input i with
  | zero =>
    cases input with
    | nil => simp [feedLoop, bytes, Except.map]
    | cons => simp [turns] at h
  | succ fuel ih =>
    cases input with
    | nil => simp [feedLoop, bytes, Except.map]
    | cons b rest =>
      have hbyte (hd : state ≠ .done) (hnd : ∀ n, state ≠ .data n) :
          (match state.byte b with
            | .error e => .error e
            | .ok next => feedLoop fuel next rest (i + 1)) =
          (state.bytes (b :: rest)).map (fun r => (r.1, r.2 + i)) := by
        cases hb : state.byte b with
        | error =>
          rw [bytes_cons_error hd hb]
          rfl
        | ok next =>
          have hturns : turns next rest ≤ fuel := by
            have h0 : state ≠ .data 0 := hnd 0
            simp only [turns, h0, if_false, length_cons] at h ⊢
            split <;> omega
          rw [bytes_cons hd hb, map_map_count, Nat.add_comm 1 i]
          exact ih next rest (i + 1) hturns
      cases state with
      | done => simp [feedLoop, bytes, Except.map]
      | data remaining =>
        cases remaining with
        | zero =>
          rw [feedLoop]
          simp only [Nat.zero_min, Nat.sub_zero, if_true, drop_zero, Nat.add_zero]
          have hturns : turns .dataCr (b :: rest) ≤ fuel := by
            simp only [turns, if_true, reduceCtorEq, if_false] at h ⊢
            omega
          rw [ih .dataCr (b :: rest) i hturns]
          rfl
        | succ =>
          rw [bytes_data, if_neg (by simp), feedLoop, map_map_count]
          rw [ih, length_cons, Nat.add_comm i]
          simp only [turns, length_drop, length_cons, ChunkState.data.injEq] at h ⊢
          split <;> split at h <;> simp_all <;> omega
      | sizeDigits | ext | sizeLf | dataCr | dataLf | trailerStart | trailerLf =>
        exact hbyte (by simp) (by simp)

theorem feedChunked_eq (state : ChunkState) (input : Bytes) : feedChunked state input = state.bytes input := by
  have hturns : turns state input ≤ 2 * input.length + 1 := by
    rw [turns]
    split <;> omega
  rw [feedChunked, feedLoop_eq _ _ _ _ hturns]
  cases state.bytes input <;> rfl

namespace ChunkState

theorem of_bytes_cons {state last : ChunkState} {b : UInt8} {rest : Bytes} {n : Nat} (hd : state ≠ .done)
    (h : state.bytes (b :: rest) = .ok (last, n)) :
    ∃ next m, state.byte b = .ok next ∧ next.bytes rest = .ok (last, m) ∧ n = m + 1 := by
  cases hb : state.byte b with
  | error =>
    rw [bytes_cons_error hd hb] at h
    cases h
  | ok next =>
    rw [bytes_cons hd hb] at h
    cases hr : next.bytes rest with
    | error =>
      rw [hr] at h
      cases h
    | ok =>
      rw [hr] at h
      cases h
      exact ⟨next, _, rfl, hr, rfl⟩

theorem bytes_count {state next : ChunkState} {input : Bytes} {n : Nat} (h : state.bytes input = .ok (next, n)) :
    n ≤ input.length ∧ (next ≠ .done → n = input.length) := by
  induction input generalizing state next n with
  | nil =>
    cases h
    exact ⟨Nat.le_refl _, fun _ => rfl⟩
  | cons b rest ih =>
    by_cases hd : state = .done
    · subst hd
      cases h
      exact ⟨Nat.zero_le _, fun hne => absurd rfl hne⟩
    obtain ⟨_, m, -, hr, rfl⟩ := of_bytes_cons hd h
    obtain ⟨hle, hall⟩ := ih hr
    exact ⟨Nat.succ_le_succ hle, fun hne => congrArg (· + 1) (hall hne)⟩

theorem bytes_pos {state : ChunkState} {input : Bytes} {n : Nat} (h : state.bytes input = .ok (.done, n))
    (hd : state ≠ .done) : 0 < n := by
  cases input with
  | nil =>
    cases h
    exact absurd rfl hd
  | cons b rest =>
    obtain ⟨_, m, -, -, rfl⟩ := of_bytes_cons hd h
    exact Nat.succ_pos m

/-- Reading is the same in one piece or in two. -/
theorem bytes_append (state : ChunkState) (piece rest : Bytes) : state.bytes (piece ++ rest) =
    (state.bytes piece).bind (fun r => (r.1.bytes rest).map (fun q => (q.1, q.2 + r.2))) := by
  induction piece generalizing state with
  | nil => cases h : state.bytes rest <;> simp [bytes, Except.bind, Except.map, h]
  | cons b piece ih =>
    by_cases hd : state = .done
    · subst hd
      simp [bytes_done, Except.bind, Except.map]
    cases hb : state.byte b with
    | error => simp [bytes_cons_error hd hb, Except.bind]
    | ok next =>
      rw [cons_append, bytes_cons hd hb, bytes_cons hd hb, ih]
      cases next.bytes piece with
      | error => rfl
      | ok r => exact map_map_count (r.1.bytes rest) r.2 1

end ChunkState

/-- The framer accepts the stream, and the body is what it will forward of it. -/
structure Expects (f : BodyFramer) (stream body : Bytes) : Prop where
  clean : f.error = none
  accepts : ∃ f', f.feed stream = (f', .ok ⟨body.length, true⟩)
  starts : body <+: stream

namespace Inner

abbrev Done (inner : Inner) : Prop := BodyFramer.isDone ⟨inner, none⟩

def advance : Inner → Bytes → Except FramingError (Inner × Nat)
  | .contentLength remaining declared, input =>
    .ok (.contentLength (remaining - min remaining input.length) declared, min remaining input.length)
  | .chunked state, input => (state.bytes input).map (fun r => (.chunked r.1, r.2))

theorem done_contentLength {remaining declared : Nat} : (contentLength remaining declared).Done ↔ remaining = 0 := by
  simp [Done, BodyFramer.isDone]

theorem done_chunked {state : ChunkState} : (chunked state).Done ↔ state = .done := by
  simp [Done, BodyFramer.isDone]

theorem advance_chunked {state : ChunkState} {input : Bytes} {next : Inner} {n : Nat} :
    (chunked state).advance input = .ok (next, n) ↔ ∃ last, next = .chunked last ∧ state.bytes input = .ok (last, n) := by
  rw [advance]
  cases state.bytes input with
  | error => simp [Except.map]
  | ok r => simp [Except.map, Prod.ext_iff, eq_comm, and_left_comm]

theorem advance_append (inner : Inner) (piece rest : Bytes) : inner.advance (piece ++ rest) =
    (inner.advance piece).bind (fun r => (r.1.advance rest).map (fun q => (q.1, q.2 + r.2))) := by
  cases inner with
  | contentLength remaining declared =>
    simp only [advance, Except.bind, Except.map, length_append, Except.ok.injEq, Prod.mk.injEq, contentLength.injEq,
      and_true]
    omega
  | chunked state =>
    rw [advance, bytes_append, advance]
    cases state.bytes piece with
    | error => rfl
    | ok r =>
      simp only [Except.bind, Except.map, advance]
      cases r.1.bytes rest <;> rfl

theorem advance_done {inner : Inner} (hd : inner.Done) (input : Bytes) : inner.advance input = .ok (inner, 0) := by
  cases inner with
  | contentLength =>
    cases done_contentLength.mp hd
    simp [advance]
  | chunked =>
    cases done_chunked.mp hd
    rw [advance, bytes_done]
    rfl

section Advance

variable {inner next : Inner} {input : Bytes} {n : Nat}

theorem advance_count (h : inner.advance input = .ok (next, n)) :
    n ≤ input.length ∧ (¬next.Done → n = input.length) := by
  cases inner with
  | contentLength =>
    cases h
    rw [done_contentLength]
    omega
  | chunked =>
    obtain ⟨_, rfl, hb⟩ := advance_chunked.mp h
    rw [done_chunked]
    exact bytes_count hb

theorem advance_pos (h : inner.advance input = .ok (next, n)) (hd : ¬inner.Done) (hnext : next.Done) : 0 < n := by
  cases inner with
  | contentLength =>
    cases h
    rw [done_contentLength] at hd hnext
    omega
  | chunked =>
    obtain ⟨_, rfl, hb⟩ := advance_chunked.mp h
    cases done_chunked.mp hnext
    exact bytes_pos hb (mt done_chunked.mpr hd)

end Advance

theorem feed_eq (inner : Inner) (input : Bytes) : BodyFramer.feed ⟨inner, none⟩ input =
      match inner.advance input with
      | .ok (next, forward) => (⟨next, none⟩, .ok ⟨forward, BodyFramer.isDone ⟨next, none⟩⟩)
      | .error e => (⟨inner, some e⟩, .error e) := by
  rw [BodyFramer.feed]
  by_cases hd : inner.Done
  · rw [if_pos hd, advance_done hd]
    simp only [hd]
  · rw [if_neg hd]
    cases inner with
    | contentLength => simp [advance, BodyFramer.isDone]
    | chunked state =>
      simp only [feedChunked_eq, advance]
      cases state.bytes input <;> simp [Except.map, BodyFramer.isDone]

theorem feed_eq_done {inner : Inner} {input : Bytes} {n : Nat} :
    (∃ f', BodyFramer.feed ⟨inner, none⟩ input = (f', .ok ⟨n, true⟩)) ↔
      ∃ next, inner.advance input = .ok (next, n) ∧ next.Done := by
  rw [feed_eq]
  cases inner.advance input with
  | error => simp
  | ok r => simp [Prod.ext_iff, and_comm]

end Inner

open BodyFraming.Inner

section Expects

variable {f : BodyFramer} {stream piece rest body : Bytes}

theorem Expects.advance (h : Expects f stream body) :
    f.error = none ∧ ∃ next, f.inner.advance stream = .ok (next, body.length) ∧ next.Done := by
  obtain ⟨inner, error⟩ := f
  obtain rfl : error = none := h.clean
  exact ⟨rfl, feed_eq_done.mp h.accepts⟩

theorem Expects.isDone_iff (h : Expects f stream body) : f.isDone = true ↔ body = [] := by
  obtain ⟨inner, error⟩ := f
  obtain ⟨rfl, next, ha, hnext⟩ := h.advance
  constructor
  · intro hd
    have hzero : inner = next ∧ body = [] := by simpa [advance_done hd, eq_comm] using ha
    exact hzero.2
  · rintro rfl
    by_contra hd
    exact lt_irrefl 0 (advance_pos ha hd hnext)

/-- Feeding a piece of the stream forwards what of it belongs to the body, and
the framer then expects the rest. -/
theorem Expects.feed (h : Expects f (piece ++ rest) body) :
    ∃ f', f.feed piece = (f', .ok ⟨min piece.length body.length, decide (body.length ≤ piece.length)⟩) ∧
      Expects f' rest (body.drop piece.length) := by
  have hstarts : body.drop piece.length <+: rest := by
    obtain ⟨t, ht⟩ := h.starts
    have hdrop := congrArg (drop piece.length) ht
    rw [drop_append, drop_left] at hdrop
    exact ⟨_, hdrop⟩
  obtain ⟨inner, error⟩ := f
  obtain ⟨rfl, next, ha, hnext⟩ := h.advance
  rw [advance_append] at ha
  cases hm : inner.advance piece with
  | error => simp [hm, Except.bind] at ha
  | ok r =>
    obtain ⟨mid, m⟩ := r
    obtain ⟨hle, hall⟩ := advance_count hm
    obtain ⟨k, hk, hlen⟩ : ∃ k, mid.advance rest = .ok (next, k) ∧ k + m = body.length := by
      cases hk : mid.advance rest with
      | error => simp [hm, hk, Except.bind, Except.map] at ha
      | ok r => simpa [hm, hk, Except.bind, Except.map, Prod.ext_iff] using ha
    have hwhole : m = min piece.length body.length ∧ (mid.Done ↔ body.length ≤ piece.length) := by
      by_cases hd : mid.Done
      · cases (advance_done hd rest).symm.trans hk
        exact ⟨by omega, iff_of_true hd (by omega)⟩
      · have hpos := advance_pos hk hd hnext
        have hm := hall hd
        exact ⟨by omega, iff_of_false hd (by omega)⟩
    refine ⟨⟨mid, none⟩, ?_, rfl, feed_eq_done.mpr ⟨next, ?_, hnext⟩, hstarts⟩
    · simp only [feed_eq, hm, hwhole.1, ← hwhole.2, Bool.decide_eq_true]
    · rw [hk, length_drop]
      congr 2
      omega

end Expects

end Bore.BodyFraming
