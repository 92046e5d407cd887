import Bore.BodyFraming
import Bore.Runs

/-! The streaming pump of a fast link: a reader and a writer task over two
channels and a cancellation token, and the coordinator that joins them. The two
polls of a biased select are separate steps. -/

namespace Bore.FastPump

open WireBytes (Bytes)
open BodyFraming List

structure PumpState where
  framer : BodyFramer
  replay : Option Bytes
  consumed : Nat
  deriving DecidableEq

structure PumpConfig where
  buffer : Nat
  depth : Nat
  replayWindow : Nat

def PumpState.absorb (window : Nat) (st : PumpState) (input : Bytes) : PumpState × Except FramingError Bytes :=
  match st.framer.feed input with
  | (framer, .error e) => ({ st with framer := framer }, .error e)
  | (framer, .ok progress) =>
    let piece := input.take progress.forward
    ({ framer := framer
       replay := st.replay.bind (fun replay =>
         if st.consumed + progress.forward ≤ window then some (replay ++ piece) else none)
       consumed := st.consumed + progress.forward },
      .ok piece)

inductive ReaderError
  | cancelled
  | failed (reason : String)
  deriving DecidableEq

def readerErrorReason : ReaderError → String
  | .failed reason => reason
  | .cancelled => "upload cancelled"

inductive WriterError
  | aborted
  | gone
  deriving DecidableEq

inductive PumpEnd
  | completed
  | downloaderGone
  | uploaderFailed (reason : String)
  deriving DecidableEq

/-- The reader's place. `polled` says that the cancellation was polled in this
pass of the select and the other branch is next. -/
inductive ReaderPoint
  | top (reuse : Bool)
  | acquire (polled : Bool)
  | read (polled : Bool)
  | topUp (filled : Bytes)
  | send (polled : Bool) (filled : Bytes) (deferred : Option String)
  | cancels (reason : String)
  | drops (reason : String)
  | returned (result : Option ReaderError)
  deriving DecidableEq

inductive WriterPoint
  | select (polled : Bool)
  | writing (message : Bytes)
  | ending
  | aborting
  | returned (result : Option WriterError)
  deriving DecidableEq

inductive Coordinator
  | selecting
  | awaitsReader (writer : Option WriterError)
  | awaitsWriter (reader : Option ReaderError)
  | ended (verdict : PumpEnd)
  deriving DecidableEq

inductive ReadResult
  | bytes (n : Nat)
  | blocks
  | ends
  | stalls
  deriving DecidableEq

inductive WriteResult
  | done
  | fails (sent : Nat)
  deriving DecidableEq

/-- The two tasks and what is between them. A channel half is dropped when the
task that owns it returns. What the framer has forwarded, and what has reached
the downloader, is recorded for the statements. -/
structure Pump where
  state : PumpState
  unread : Bytes
  reader : ReaderPoint
  writer : WriterPoint
  cancelled : Bool
  free : Nat
  full : List Bytes
  coordinator : Coordinator
  forwarded : Bytes
  delivered : Bytes
  stray : Bytes
  deriving DecidableEq

def WriterPoint.isReturned : WriterPoint → Bool
  | .returned _ => true
  | _ => false

def ReaderPoint.isReturned : ReaderPoint → Bool
  | .returned _ => true
  | _ => false

def leave (filled : Bytes) (deferred : Option String) : ReaderPoint :=
  if filled.isEmpty then
    match deferred with
    | some reason => .cancels reason
    | none => .top true
  else .send false filled deferred

def readerStep (cfg : PumpConfig) (p : Pump) (input : ReadResult) : Option Pump :=
  match p.reader with
  | .top reuse =>
    if p.state.framer.isDone then some { p with reader := .returned none }
    else some { p with reader := if reuse then .read false else .acquire false }
  | .acquire false =>
    some { p with reader := if p.cancelled then .returned (some .cancelled) else .acquire true }
  | .acquire true =>
    if 0 < p.free then some { p with free := p.free - 1, reader := .read false }
    else some { p with reader := if p.writer.isReturned then .returned (some .cancelled) else .acquire false }
  | .read false => some { p with reader := if p.cancelled then .returned (some .cancelled) else .read true }
  | .read true =>
    match input with
    | .blocks => some { p with reader := .read false }
    | .stalls => some { p with reader := .cancels "upload stalled" }
    | .ends => some { p with reader := .cancels "upload ended before the body was complete" }
    | .bytes n =>
      if 1 ≤ n ∧ n ≤ cfg.buffer ∧ n ≤ p.unread.length then
        match p.state.absorb cfg.replayWindow (p.unread.take n) with
        | (state, .error _) =>
          some { p with state := state, unread := p.unread.drop n, reader := .cancels "malformed upload body" }
        | (state, .ok piece) =>
          some { p with
            state := state, unread := p.unread.drop n, reader := .topUp piece, forwarded := p.forwarded ++ piece }
      else none
  | .topUp filled =>
    if p.state.framer.isDone || decide (cfg.buffer ≤ filled.length) then some { p with reader := leave filled none }
    else match input with
      | .blocks => some { p with reader := leave filled none }
      | .ends => some { p with reader := leave filled (some "upload ended before the body was complete") }
      | .stalls => none
      | .bytes n =>
        if 1 ≤ n ∧ n ≤ cfg.buffer - filled.length ∧ n ≤ p.unread.length then
          match p.state.absorb cfg.replayWindow (p.unread.take n) with
          | (state, .error _) =>
            some { p with
              state := state, unread := p.unread.drop n, reader := leave filled (some "malformed upload body") }
          | (state, .ok piece) =>
            some { p with
              state := state
              unread := p.unread.drop n
              reader := .topUp (filled ++ piece)
              forwarded := p.forwarded ++ piece }
        else none
  | .send false filled deferred =>
    some { p with reader := if p.cancelled then .returned (some .cancelled) else .send true filled deferred }
  | .send true filled deferred =>
    if p.writer.isReturned then some { p with reader := .returned (some .cancelled) }
    else if p.full.length < cfg.depth then
      some { p with
        full := p.full ++ [filled]
        reader := match deferred with
          | some reason => .cancels reason
          | none => .top false }
    else some { p with reader := .send false filled deferred }
  | .cancels reason => some { p with cancelled := true, reader := .drops reason }
  | .drops reason => some { p with reader := .returned (some (.failed reason)) }
  | .returned _ => none

def writerStep (cfg : PumpConfig) (p : Pump) (input : WriteResult) : Option Pump :=
  match p.writer with
  | .select false => some { p with writer := if p.cancelled then .aborting else .select true }
  | .select true =>
    match p.full with
    | message :: rest => some { p with full := rest, writer := .writing message }
    | [] => some { p with writer := if p.reader.isReturned then .ending else .select false }
  | .writing message =>
    match input with
    | .done =>
      some { p with
        delivered := p.delivered ++ message
        free := if p.free < cfg.depth then p.free + 1 else p.free
        writer := .select false }
    | .fails sent => some { p with stray := message.take sent, writer := .returned (some .gone) }
  | .ending => some { p with writer := .returned none }
  | .aborting => some { p with writer := .returned (some .aborted) }
  | .returned _ => none

def joinWriter (p : Pump) : Option Pump :=
  match p.writer, p.coordinator with
  | .returned result, .selecting =>
    some { p with
      coordinator := .awaitsReader result
      cancelled := p.cancelled || decide (result = some .gone) }
  | .returned result, .awaitsWriter none =>
    some { p with coordinator := .ended (if result = none then .completed else .downloaderGone) }
  | .returned result, .awaitsWriter (some e) =>
    some { p with
      coordinator := .ended (if result = some .gone then .downloaderGone else .uploaderFailed (readerErrorReason e)) }
  | _, _ => none

def readerVerdict (reader : Option ReaderError) (ok : PumpEnd) : PumpEnd :=
  match reader with
  | none => ok
  | some e => .uploaderFailed (readerErrorReason e)

def joinReader (p : Pump) : Option Pump :=
  match p.reader, p.coordinator with
  | .returned result, .selecting => some { p with coordinator := .awaitsWriter result }
  | .returned result, .awaitsReader none => some { p with coordinator := .ended (readerVerdict result .completed) }
  | .returned _, .awaitsReader (some .gone) => some { p with coordinator := .ended .downloaderGone }
  | .returned result, .awaitsReader (some .aborted) =>
    some { p with coordinator := .ended (readerVerdict result (.uploaderFailed "upload cancelled")) }
  | _, _ => none

inductive Action
  | reader (input : ReadResult)
  | writer (input : WriteResult)
  | joinReader
  | joinWriter
  deriving DecidableEq

def step (cfg : PumpConfig) (p : Pump) : Action → Option Pump
  | .reader input => readerStep cfg p input
  | .writer input => writerStep cfg p input
  | .joinReader => joinReader p
  | .joinWriter => joinWriter p

def start (cfg : PumpConfig) (state : PumpState) (unread : Bytes) : Pump :=
  ⟨state, unread, .top false, .select false, false, cfg.depth, [], .selecting, [], [], []⟩

def inWriter : WriterPoint → Bytes
  | .writing message => message
  | _ => []

def inReader : ReaderPoint → Bytes
  | .topUp filled => filled
  | .send _ filled _ => filled
  | _ => []

/-- What the framer has forwarded lies, in order, with the downloader, with the
writer, in the channel and with the reader; a reader that was cancelled has lost
what it held. -/
structure PumpInv (p : Pump) : Prop where
  flow : p.writer ≠ .returned (some .gone) → p.reader ≠ .returned (some .cancelled) →
    p.forwarded = p.delivered ++ (inWriter p.writer ++ (p.full.flatten ++ inReader p.reader))
  clear : p.writer ≠ .returned (some .gone) → p.stray = []
  sent : p.delivered ++ p.stray <+: p.forwarded
  token : p.cancelled = true → (∃ reason, p.reader = .drops reason ∨ p.reader = .returned (some (.failed reason))) ∨
    p.writer = .returned (some .gone)
  dropped : ∀ reason, p.reader = .drops reason ∨ p.reader = .returned (some (.failed reason)) → p.cancelled = true
  orphan : p.reader = .returned (some .cancelled) → p.writer.isReturned = true
  framed : p.reader = .returned none → p.state.framer.isDone = true
  drained : p.writer = .ending ∨ p.writer = .returned none → p.full = [] ∧ p.reader.isReturned = true
  writer : ∀ w, p.coordinator = .awaitsReader w → p.writer = .returned w
  reader : ∀ r, p.coordinator = .awaitsWriter r → p.reader = .returned r
  completed : p.coordinator = .ended .completed → p.reader = .returned none ∧ p.writer = .returned none

def ReaderPoint.busy : ReaderPoint → Bool
  | .drops _ => false
  | .returned _ => false
  | _ => true

inductive ReaderMove (cfg : PumpConfig) (p : Pump) : Pump → Prop
  | goes (point : ReaderPoint) (free : Nat) (hbusy : p.reader.busy = true) (hpoint : point.busy = true)
      (hheld : inReader point = inReader p.reader) : ReaderMove cfg p { p with reader := point, free := free }
  | finishes (hbusy : p.reader.busy = true) (hheld : inReader p.reader = []) (hdone : p.state.framer.isDone = true) :
      ReaderMove cfg p { p with reader := .returned none }
  | orphaned (hbusy : p.reader.busy = true) (h : p.cancelled = true ∨ p.writer.isReturned = true) :
      ReaderMove cfg p { p with reader := .returned (some .cancelled) }
  | absorbs (n : Nat) (state : PumpState) (piece : Bytes) (point : ReaderPoint) (hbusy : p.reader.busy = true)
      (hpoint : point.busy = true) (hn : n ≤ p.unread.length)
      (habsorb : p.state.absorb cfg.replayWindow (p.unread.take n) = (state, .ok piece))
      (hheld : inReader point = inReader p.reader ++ piece) :
      ReaderMove cfg p { p with
        state := state, unread := p.unread.drop n, reader := point, forwarded := p.forwarded ++ piece }
  | rejects (n : Nat) (state : PumpState) (e : FramingError) (point : ReaderPoint) (hbusy : p.reader.busy = true)
      (hpoint : point.busy = true) (hn : n ≤ p.unread.length)
      (habsorb : p.state.absorb cfg.replayWindow (p.unread.take n) = (state, .error e))
      (hheld : inReader point = inReader p.reader) :
      ReaderMove cfg p { p with state := state, unread := p.unread.drop n, reader := point }
  | sends (filled : Bytes) (point : ReaderPoint) (hbusy : p.reader.busy = true) (hpoint : point.busy = true)
      (hfrom : inReader p.reader = filled) (hheld : inReader point = []) (hopen : p.writer.isReturned = false) :
      ReaderMove cfg p { p with full := p.full ++ [filled], reader := point }
  | cancels (reason : String) (hat : p.reader = .cancels reason) :
      ReaderMove cfg p { p with cancelled := true, reader := .drops reason }
  | drops (reason : String) (hat : p.reader = .drops reason) :
      ReaderMove cfg p { p with reader := .returned (some (.failed reason)) }

theorem leave_busy (filled : Bytes) (deferred : Option String) : (leave filled deferred).busy = true := by
  rw [leave.eq_def]
  split
  · cases deferred <;> rfl
  · rfl

theorem inReader_leave (filled : Bytes) (deferred : Option String) : inReader (leave filled deferred) = filled := by
  rw [leave.eq_def]
  split
  · rename_i he
    rw [isEmpty_iff.mp he]
    cases deferred <;> rfl
  · rfl

theorem readerStep_move {cfg : PumpConfig} {p p' : Pump} {input : ReadResult}
    (h : readerStep cfg p input = some p') : ReaderMove cfg p p' := by
  have hor (point : ReaderPoint) (b : Bool) (hbusy : p.reader.busy = true) (hpoint : point.busy = true)
      (hheld : inReader point = inReader p.reader) (hb : b = true → p.cancelled = true ∨ p.writer.isReturned = true) :
      ReaderMove cfg p { p with reader := if b then .returned (some .cancelled) else point } := by
    cases b with
    | true => exact .orphaned hbusy (hb rfl)
    | false => exact .goes point p.free hbusy hpoint hheld
  revert h
  fun_cases readerStep cfg p input
  all_goals rintro ⟨⟩
  case case1 hat hdone => exact .finishes (hat ▸ rfl) (hat ▸ rfl) hdone
  case case2 reuse hat _ => cases reuse <;> exact .goes _ p.free (hat ▸ rfl) rfl (hat ▸ rfl)
  case case3 hat | case6 hat => exact hor _ _ (hat ▸ rfl) rfl (hat ▸ rfl) .inl
  case case4 hat _ => exact .goes _ (p.free - 1) (hat ▸ rfl) rfl (hat ▸ rfl)
  case case5 hat _ => exact hor _ _ (hat ▸ rfl) rfl (hat ▸ rfl) .inr
  case case7 hat | case8 hat | case9 hat => exact .goes _ p.free (hat ▸ rfl) rfl (hat ▸ rfl)
  case case10 hat n hn state e habsorb => exact .rejects n state e _ (hat ▸ rfl) rfl hn.2.2 habsorb (hat ▸ rfl)
  case case11 hat n hn state piece habsorb | case18 hat _ n hn state piece habsorb =>
    exact .absorbs n state piece _ (hat ▸ rfl) rfl hn.2.2 habsorb (hat ▸ rfl)
  case case13 hat _ | case14 hat _ | case15 hat _ =>
    exact .goes _ p.free (hat ▸ rfl) (leave_busy _ _) (hat ▸ inReader_leave _ _)
  case case17 hat _ n hn state e habsorb =>
    exact .rejects n state e _ (hat ▸ rfl) (leave_busy _ _) hn.2.2 habsorb (hat ▸ inReader_leave _ _)
  case case20 hat => exact hor _ _ (hat ▸ rfl) rfl (hat ▸ rfl) .inl
  case case21 hat hw => exact .orphaned (hat ▸ rfl) (.inr hw)
  case case22 filled deferred hat hw _ =>
    cases deferred <;> exact .sends filled _ (hat ▸ rfl) rfl (hat ▸ rfl) rfl (Bool.eq_false_iff.mpr hw)
  case case23 hat _ _ => exact .goes _ p.free (hat ▸ rfl) rfl (hat ▸ rfl)
  case case24 reason hat => exact .cancels reason hat
  case case25 reason hat => exact .drops reason hat

section Invariant

variable {cfg : PumpConfig} {p p' : Pump}

theorem not_isReturned_of_busy {point : ReaderPoint} (h : point.busy = true) : point.isReturned = false := by
  cases point <;> first | rfl | cases h

theorem ReaderMove.inv (h : PumpInv p) (hm : ReaderMove cfg p p') : PumpInv p' := by
  obtain ⟨h1, h2, h3, h4, h5, h6, h7, h8, h9, h10, h11⟩ := h
  cases hm
  all_goals constructor
  case absorbs.flow hbusy _ _ _ hheld =>
    intro hw _
    rw [hheld, h1 hw (fun hr => by simp [hr, ReaderPoint.busy] at hbusy)]
    simp only [append_assoc]
  all_goals grind -ring -linarith [inReader, ReaderPoint.busy, ReaderPoint.isReturned, WriterPoint.isReturned,
    → not_isReturned_of_busy, prefix_append]

theorem writerStep_inv {input : WriteResult} (h : PumpInv p) (hs : writerStep cfg p input = some p') : PumpInv p' := by
  obtain ⟨h1, h2, h3, h4, h5, h6, h7, h8, h9, h10, h11⟩ := h
  revert hs
  fun_cases writerStep cfg p input
  all_goals rintro ⟨⟩
  all_goals constructor
  case case5.sent message hat sent =>
    rw [h1 (by simp [hat]) (fun hr => by simpa [hat, WriterPoint.isReturned] using h6 hr), hat]
    exact (prefix_append_right_inj _).mpr (( take_prefix _ _).trans (prefix_append _ _))
  all_goals grind -ring -linarith [inWriter, WriterPoint.isReturned]

theorem joinWriter_inv (h : PumpInv p) (hs : joinWriter p = some p') : PumpInv p' := by
  cases h
  revert hs
  fun_cases joinWriter p
  all_goals rintro ⟨⟩
  all_goals constructor
  all_goals grind -ring -linarith

theorem readerVerdict_completed {reader : Option ReaderError} {ok : PumpEnd}
    (h : readerVerdict reader ok = .completed) : reader = none ∧ ok = .completed := by
  cases reader with
  | none => exact ⟨rfl, h⟩
  | some => cases h

theorem joinReader_inv (h : PumpInv p) (hs : joinReader p = some p') : PumpInv p' := by
  cases h
  revert hs
  fun_cases joinReader p
  all_goals rintro ⟨⟩
  all_goals constructor
  all_goals grind -ring -linarith [→ readerVerdict_completed]

theorem step_inv {a : Action} (h : PumpInv p) (hs : step cfg p a = some p') : PumpInv p' := by
  cases a with
  | reader => exact (readerStep_move hs).inv h
  | writer => exact writerStep_inv h hs
  | joinReader => exact joinReader_inv h hs
  | joinWriter => exact joinWriter_inv h hs

theorem start_inv (cfg : PumpConfig) (state : PumpState) (unread : Bytes) : PumpInv (start cfg state unread) := by
  constructor <;> simp [start, inWriter, inReader]

theorem PumpInv.all_delivered (h : PumpInv p) (hw : p.writer = .ending ∨ p.writer = .returned none)
    (hr : p.reader = .returned none) : p.state.framer.isDone = true ∧ p.delivered = p.forwarded := by
  have hflow := h.flow (by rcases hw with hw | hw <;> simp [hw]) (by simp [hr])
  have hin : inWriter p.writer = [] := by
    rcases hw with hw | hw <;> rw [hw] <;> rfl
  rw [hin, (h.drained hw).1, hr] at hflow
  exact ⟨h.framed hr, by simpa [inReader] using hflow.symm⟩

end Invariant

end Bore.FastPump
