import Bore.FrameCodec
import Bore.Runs

namespace Bore.RelayPair

open FrameCodec WireBytes Runs List

inductive Message
  | binary (body : Bytes)
  | text
  | ping
  | pong
  | frame
  | close
  | gone
  deriving DecidableEq

inductive RelayEnd
  | clean
  | violation
  | sendTimeout
  | sourceGone
  | recipientGone
  | cancelled
  deriving DecidableEq

/-- The end of a send under its timeout. One that fails may have handed the
frame to the sink before. -/
inductive Send
  | done
  | failed (taken : Bool)
  deriving DecidableEq

/-- The loop of `run_relay_pair`. The last three fields are for the record: the
binary messages read from the source, whether it has closed, and the frames that
the recipient's sink has taken. -/
structure Pump where
  lastSeq : Option UInt32
  bytes : Nat
  frames : Nat
  ended : Option RelayEnd
  source : List Bytes
  closed : Bool
  written : List Bytes

def start : Pump := ⟨none, 0, 0, none, [], false, []⟩

def isFinal (body : Bytes) : Bool := body.getD 6 0 = 2

def Pump.forward (p : Pump) (body : Bytes) (send : Send) : Pump :=
  match checkRelayFrame p.lastSeq body, send with
  | .error _, _ => { p with ended := some .violation }
  | .ok seq, .done =>
    { p with
      lastSeq := some seq
      bytes := p.bytes + body.length
      frames := p.frames + 1
      ended := if isFinal body then some .clean else none
      written := p.written ++ [body] }
  | .ok _, .failed taken =>
    { p with ended := some .sendTimeout, written := if taken then p.written ++ [body] else p.written }

inductive Action
  | source (msg : Message) (send : Send)
  | recipient (msg : Message)
  | cancel
  deriving DecidableEq

def step (p : Pump) (a : Action) : Option Pump :=
  if p.ended ≠ none then none
  else match a with
    | .source (.binary body) send => some ({ p with source := p.source ++ [body] }.forward body send)
    | .source .ping _ | .source .pong _ | .recipient .ping | .recipient .pong => some p
    | .source .close _ => some { p with ended := some .clean, closed := true }
    | .source .text _ | .source .frame _ => some { p with ended := some .violation }
    | .source .gone _ => some { p with ended := some .sourceGone }
    | .recipient (.binary _) | .recipient .text | .recipient .frame => some { p with ended := some .violation }
    | .recipient .close | .recipient .gone => some { p with ended := some .recipientGone }
    | .cancel => some { p with ended := some .cancelled }

def seqOf (body : Bytes) : Nat := ofBe ((body.drop 8).take 4)

theorem checkRelayFrame_ok {prev : Option UInt32} {body : Bytes} {seq : UInt32}
    (h : checkRelayFrame prev body = .ok seq) : expectedSeq prev = some seq ∧ seqOf body = seq.toNat := by
  revert h
  fun_cases checkRelayFrame prev body
  all_goals intro h
  case case8 =>
    rw [← Except.ok.inj h]
    exact ⟨‹_›, (toNat_ofBe rfl).symm⟩
  all_goals cases h

theorem expectedSeq_succ {prev seq : UInt32} (h : expectedSeq (some prev) = some seq) : seq.toNat = prev.toNat + 1 := by
  simp only [expectedSeq] at h
  split at h
  · cases h
    rw [UInt32.toNat_add, Nat.mod_eq_of_lt (by simpa)]
    rfl
  · cases h

/-- What is written is what was read, numbered from zero, and the loop knows the
number of the next frame; only a send that failed leaves its frame uncounted. -/
structure Inv (p : Pump) : Prop where
  order : p.written <+: p.source
  all : p.ended = none → p.written = p.source
  next : p.ended = none → ∀ seq, expectedSeq p.lastSeq = some seq → seq.toNat = p.written.length
  numbered : ∀ i b, p.written[i]? = some b → seqOf b = i
  unfinished : p.ended = none → ∀ b ∈ p.written, isFinal b = false
  final : ∀ i b, p.written[i]? = some b → isFinal b = true → i + 1 = p.written.length
  counted : p.frames = p.written.length ∧ p.bytes = (p.written.map length).sum ∨ p.ended = some .sendTimeout ∧
    p.frames = p.written.dropLast.length ∧ p.bytes = (p.written.dropLast.map length).sum
  clean : p.ended = some .clean → p.closed = true ∨ ∃ b, p.written.getLast? = some b ∧ isFinal b = true

theorem Inv.forward {p : Pump} (h : Inv p) (hopen : p.ended = none) (body : Bytes) (send : Send) :
    Inv ({ p with source := p.source ++ [body] }.forward body send) := by
  cases h
  fun_cases Pump.forward { p with source := p.source ++ [body] } body send
  all_goals constructor
  all_goals grind [→ checkRelayFrame_ok, → expectedSeq_succ]

theorem Inv.ends {p : Pump} (h : Inv p) (hopen : p.ended = none) {how : RelayEnd} {closed : Bool}
    (hclean : how = .clean → closed = true) : Inv { p with ended := some how, closed := closed } :=
  { h with
    all := nofun, next := nofun, unfinished := nofun, clean := fun he => .inl (hclean (Option.some.inj he))
    counted := .inl (h.counted.resolve_right fun hc => nomatch hopen.symm.trans hc.1) }

theorem inv_step {p p' : Pump} {a : Action} (h : Inv p) (hs : step p a = some p') : Inv p' := by
  obtain ⟨hopen, hs⟩ := Option.ite_none_left_eq_some.mp hs
  replace hopen := not_not.mp hopen
  split at hs
  all_goals cases hs
  case h_1 body send => exact h.forward hopen body send
  case h_2 | h_3 | h_4 | h_5 => exact h
  case h_6 => exact h.ends hopen fun _ => rfl
  all_goals exact h.ends hopen nofun

/-- The frames written are the first ones of the source, numbered from zero and
none after a FINAL; both counters are their totals, without the last frame if its
send has failed; and the end is clean only after a FINAL or the close of the source. -/
theorem relay_forwards_in_order {p : Pump} (hr : Reaches step always start p) :
    p.written <+: p.source ∧
    (∀ i b, p.written[i]? = some b → seqOf b = i ∧ (isFinal b = true → i + 1 = p.written.length)) ∧
    (p.frames = p.written.length ∧ p.bytes = (p.written.map length).sum ∨ p.ended = some .sendTimeout ∧
      p.frames = p.written.dropLast.length ∧ p.bytes = (p.written.dropLast.map length).sum) ∧
    (p.ended = some .clean → p.closed = true ∨ ∃ b, p.written.getLast? = some b ∧ isFinal b = true) := by
  have h : Inv p := by
    refine hr.invariant ?_ fun _ _ _ h _ hs => inv_step h hs
    constructor <;> simp [start, expectedSeq]
  exact ⟨h.order, fun i b hb => ⟨h.numbered i b hb, h.final i b hb⟩, h.counted, h.clean⟩

def sampleFrame (seq : UInt32) (ftype : FrameType) : Bytes :=
  match sealFrame (Aead.plain Unit) () seq ftype (replicate (if ftype = .data then 1 else 8) 7) with
  | .ok frame => frame
  | .error _ => []

theorem relay_forwards_in_order_final : ∃ p : Pump, Reaches step always start p ∧
    (p.ended, p.frames, p.bytes) = (some .clean, 2, 73) ∧ p.written <+: p.source := by
  have hrun : (exec step start [.source (.binary (sampleFrame 0 .data)) .done, .recipient .ping,
      .source (.binary (sampleFrame 1 .final)) .done]).map (fun p => (p.ended, p.frames, p.bytes)) =
      some (some .clean, 2, 73) := by decide +kernel
  obtain ⟨p, hr, hs⟩ := exec_observe _ _ hrun
  exact ⟨p, hr, hs, (relay_forwards_in_order hr).1⟩

/-- The sink has taken the frame when the send times out. -/
theorem timed_out_frame_is_not_counted : ∃ p, Reaches step always start p ∧
    (p.ended, p.written.length, p.frames, p.bytes) = (some .sendTimeout, 1, 0, 0) :=
  exec_observe [.source (.binary (sampleFrame 0 .data)) (.failed true)] _ (by decide +kernel)

end Bore.RelayPair
