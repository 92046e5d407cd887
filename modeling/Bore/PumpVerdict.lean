import Bore.FastPump

namespace Bore.PumpVerdict

open WireBytes (Bytes)
open FastPump Runs

/-- Unless the reader drops its sender after a failure while the writer is
between its two polls and nothing is left in the channel. -/
def keepsSender (p : Pump) : Action → Bool
  | .reader _ =>
    match p.reader, p.writer with
    | .drops _, .select true => p.full ≠ []
    | _, _ => true
  | _ => true

/-- The reader of a writer that has polled the cancellation in vain and will find
the channel closed, or has found it closed, has not failed. -/
structure Honest (p : Pump) : Prop where
  polled : ∀ r, p.writer = .select true → p.full = [] → p.reader = .returned r → r = none
  ended : p.writer = .ending ∨ p.writer = .returned none → p.reader = .returned none

section Honest

variable {cfg : PumpConfig} {p p' : Pump}

theorem step_honest {a : Action} (h : PumpInv p) (hh : Honest p) (hk : keepsSender p a = true)
    (hs : step cfg p a = some p') : Honest p' := by
  have horphan := (step_inv h hs).orphan
  obtain ⟨hpolled, hended⟩ := hh
  have hfailed (r : Option ReaderError) (hr : p.reader = .returned r) :
      r = none ∨ p.writer.isReturned = true ∨ p.cancelled = true := by
    rcases r with _ | _ | reason
    · exact .inl rfl
    · exact .inr (.inl (h.orphan hr))
    · exact .inr (.inr (h.dropped reason (.inr hr)))
  have hreturned (hr : p.reader.isReturned = true) : ∃ r, p.reader = .returned r := by
    cases he : p.reader <;> simp_all [ReaderPoint.isReturned]
  cases a with
  | reader input =>
    cases readerStep_move hs
    all_goals constructor
    all_goals grind [keepsSender, ReaderPoint.busy, ReaderPoint.isReturned, WriterPoint.isReturned]
  | writer input =>
    revert hs
    simp only [step]
    fun_cases writerStep cfg p input
    all_goals rintro ⟨⟩
    all_goals constructor
    all_goals grind [ReaderPoint.isReturned, WriterPoint.isReturned]
  | joinReader =>
    revert hs
    simp only [step]
    fun_cases joinReader p
    all_goals rintro ⟨⟩
    all_goals exact ⟨hpolled, hended⟩
  | joinWriter =>
    revert hs
    simp only [step]
    fun_cases joinWriter p
    all_goals rintro ⟨⟩
    all_goals exact ⟨hpolled, hended⟩

end Honest

theorem reaches_inv {cfg : PumpConfig} {state : PumpState} {unread : Bytes} {ok : Pump → Action → Prop} {p : Pump}
    (h : Reaches (step cfg) ok (start cfg state unread) p) : PumpInv p :=
  h.invariant (start_inv cfg state unread) fun _ _ _ hp _ hs => step_inv hp hs

theorem reaches_honest {cfg : PumpConfig} {state : PumpState} {unread : Bytes} {p : Pump}
    (h : Reaches (step cfg) (fun p a => keepsSender p a = true) (start cfg state unread) p) : Honest p := by
  refine (h.invariant (P := fun p => PumpInv p ∧ Honest p)
    ⟨start_inv cfg state unread, nofun, by rintro (hw | hw) <;> cases hw⟩ ?_).2
  exact fun p a p' hp hk hs => ⟨step_inv hp.1 hs, step_honest hp.1 hp.2 hk hs⟩

/-- A pump reports `Completed` only when the framer is done and every byte it
forwarded was written and flushed in order; and unless the reader's failure
comes between the writer's two polls of an empty channel, so does a writer that
takes its clean end. -/
theorem completed_pump_delivered (cfg : PumpConfig) (state : PumpState) (unread : Bytes) (p : Pump) :
    (Reaches (step cfg) always (start cfg state unread) p → p.coordinator = .ended .completed →
      p.state.framer.isDone = true ∧ p.delivered = p.forwarded) ∧
    (Reaches (step cfg) (fun p a => keepsSender p a = true) (start cfg state unread) p →
      p.writer = .ending ∨ p.writer = .returned none →
      p.reader = .returned none ∧ p.state.framer.isDone = true ∧ p.delivered = p.forwarded) := by
  refine ⟨fun hreach hend => ?_, fun hreach hw => ?_⟩
  · have h := reaches_inv hreach
    obtain ⟨hr, hw⟩ := h.completed hend
    exact h.all_delivered (.inr hw) hr
  · have hr := (reaches_honest hreach).ended hw
    exact ⟨hr, (reaches_inv hreach).all_delivered hw hr⟩

def sampleConfig : PumpConfig := ⟨4, 2, 8⟩

def sampleState : PumpState := ⟨.new (.contentLength 2), some [], 0⟩

def sampleTransfer : List Action :=
  [.reader .blocks, .reader .blocks, .reader .blocks, .reader .blocks, .reader (.bytes 2), .reader .blocks,
    .reader .blocks, .reader .blocks, .reader .blocks, .writer .done, .writer .done, .writer .done, .writer .done,
    .writer .done, .writer .done, .joinReader, .joinWriter]

theorem completed_pump_delivered_two_bytes :
    ∃ p, Reaches (step sampleConfig) always (start sampleConfig sampleState [7, 8]) p ∧
      p.coordinator = .ended .completed ∧ p.forwarded = [7, 8] ∧ p.delivered = p.forwarded ∧
      p.reader = .returned none := by
  obtain ⟨p, hreach, hp⟩ : ∃ p,
      Reaches (step sampleConfig) (fun p a => keepsSender p a = true) (start sampleConfig sampleState [7, 8]) p ∧
      (p.coordinator, p.forwarded, p.writer) = (.ended .completed, [7, 8], .returned none) :=
    execWhile_observe sampleTransfer _ (by decide +kernel)
  simp only [Prod.mk.injEq] at hp
  obtain ⟨hend, hforwarded, hw⟩ := hp
  have hall : Reaches (step sampleConfig) always (start sampleConfig sampleState [7, 8]) p :=
    hreach.mono fun _ _ _ => trivial
  obtain ⟨hcompleted, hclean⟩ := completed_pump_delivered sampleConfig sampleState [7, 8] p
  exact ⟨p, hall, hend, hforwarded, (hcompleted hall hend).2, (hclean hreach (.inr hw)).1⟩

/-- The uploader closes its connection. The writer polls the cancellation, the
reader cancels and drops its sender, and the writer finds the channel closed. -/
theorem failed_upload_ends_cleanly : ∃ p, Reaches (step sampleConfig) always (start sampleConfig sampleState []) p ∧
      (p.writer, p.state.framer.isDone, p.reader) =
        (.ending, false, .returned (some (.failed "upload ended before the body was complete"))) :=
  exec_observe [.reader .blocks, .reader .blocks, .reader .blocks, .reader .blocks, .reader .ends, .writer .done,
    .reader .blocks, .reader .blocks, .writer .done] _ (by decide +kernel)

end Bore.PumpVerdict
