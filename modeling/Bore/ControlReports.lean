import Bore.ControlActor
import Bore.SessionMirror

namespace Bore.ControlReports

open RegistryTypes RegistryCatalogue ControlActor Runs List
open PeerSession hiding Phase Action step

variable {Manifest Value : Type} {codec : ManifestCodec Manifest Value}
variable {a b : Actor Value} {message : Outgoing Value}

def isReport : Outgoing Value → Bool
  | .room (.roomClosed _) | .error _ => true
  | .room _ | .text _ => false

def isRoomClosed : Frame Value → Bool
  | .text (.room (.roomClosed _)) => true
  | _ => false

def BeforeClose (wire : List (Frame Value)) (message : Outgoing Value) : Prop :=
  ∃ before status after, wire = before ++ .close status :: after ∧ .text message ∈ before

/-- Every report that was enqueued is written before the Close frame, and a
session that learns of its room's end is sent `room_closed` once. -/
structure ReportsThenCloses (a : Actor Value) : Prop where
  reported : ∀ message, isReport message = true → message ∈ a.queue ∨ .text message ∈ a.wire →
    BeforeClose a.wire message
  announced : ∀ reason, a.phase = .ended (.roomClosed reason) → a.wire.countP isRoomClosed = 1

/-- How the session will end, once its loop was left. -/
def endingOf : Phase Value → Option Ending
  | .reporting _ _ ending | .closing _ ending | .ended ending => some ending
  | .select | .draining _ | .enqueuing _ | .resyncing _ _ => none

def isLeaving : Phase Value → Bool
  | .closing _ _ | .ended _ => true
  | _ => false

/-- `RoomClosed` is not read, and a binary frame is reported only while the queue is
full, so that nothing is enqueued. -/
def silent (a : Actor Value) : Action → Bool
  | .event (.roomClosed _) => false
  | .advance =>
    match a.phase with
    | .reporting _ _ _ => a.cap ≤ a.queue.length
    | _ => true
  | _ => true

/-- What waits to be enqueued is no report, but for the last message of a session. A
quiet session does not end with its room. -/
def Awaits (quiet : Bool) : Phase Value → Prop
  | .select | .draining _ => True
  | .enqueuing messages => ∀ message ∈ messages, isReport message = false
  | .resyncing messages _ => ∀ message ∈ messages, isReport (.room message) = false
  | .reporting report _ ending => isReport report = true ∧ (quiet = true → ∀ reason, ending ≠ .roomClosed reason)
  | .closing _ ending | .ended ending => quiet = true → ∀ reason, ending ≠ .roomClosed reason

/-- No report is ever on the wire: the queue has one only after the loop was
left, and then nothing reads the queue. The queue of a quiet session has none. -/
structure Unreported (quiet : Bool) (a : Actor Value) : Prop where
  wire : ∀ message, .text message ∈ a.wire → isReport message = false
  queue : quiet = true ∨ isLeaving a.phase = false → ∀ message ∈ a.queue, isReport message = false
  phase : Awaits quiet a.phase

variable {quiet : Bool}

section

variable (h : Unreported quiet a)
include h

theorem Unreported.queueSend (hm : isReport message = false) (hs : a.queueSend message = some b) : Unreported quiet b := by
  obtain ⟨_, rfl⟩ := Actor.queueSend_eq_some.mp hs
  refine ⟨h.wire, ?_, h.phase⟩
  intro hl m hmem
  rcases mem_append.mp hmem with hq | hn
  · exact h.queue hl m hq
  · rw [mem_singleton.mp hn]
    exact hm

theorem Unreported.sendTo (raw : String) : Unreported quiet (a.sendTo raw) := by
  unfold Actor.sendTo
  cases hs : a.queueSend (.text raw) with
  | none => exact h
  | some => exact h.queueSend rfl hs

theorem Unreported.of_phase {phase : Phase Value} (revision : Nat)
    (hl : isLeaving phase = false → isLeaving a.phase = false) (ha : Awaits quiet phase) :
    Unreported quiet { a with revisionSeen := revision, phase := phase } :=
  ⟨h.wire, fun hp => h.queue (hp.imp_right hl), ha⟩

theorem Unreported.pop {rest : List (Outgoing Value)}
    (hl : isLeaving a.phase = false) (hq : a.queue = message :: rest) :
    Unreported quiet { a.write (.text message) with queue := rest } := by
  have hqueue := h.queue (.inr hl)
  rw [hq] at hqueue
  refine ⟨?_, fun _ m hm => hqueue m (mem_cons_of_mem _ hm), h.phase⟩
  intro m hm
  rcases mem_append.mp hm with hw | hn
  · exact h.wire m hw
  · rw [Frame.text.inj (mem_singleton.mp hn)]
    exact hqueue message mem_cons_self

theorem Unreported.write {frame : Frame Value}
    (hf : ∀ message, frame ≠ .text message) : Unreported quiet (a.write frame) := by
  refine ⟨?_, h.queue, h.phase⟩
  intro m hm
  rcases mem_append.mp hm with hw | hn
  · exact h.wire m hw
  · exact absurd (mem_singleton.mp hn).symm (hf m)

theorem Unreported.enqueue {phase : Phase Value} (revision : Nat) (hs : a.queueSend message = some b)
    (hl : isLeaving a.phase = false) (hm : isReport message = false) (ha : Awaits quiet phase) :
    Unreported quiet { b with revisionSeen := revision, phase := phase } := by
  have hb := h.queueSend hm hs
  obtain ⟨_, rfl⟩ := Actor.queueSend_eq_some.mp hs
  exact hb.of_phase revision (fun _ => hl) ha

theorem Unreported.advance (hok : quiet = true → silent a .advance = true) (hs : a.advance = some b) :
    Unreported quiet b := by
  have hphase := h.phase
  cases hp : a.phase with
  | select | ended => simp [Actor.advance, hp] at hs
  | draining =>
    simp only [Actor.advance, hp] at hs
    split at hs
    · cases hs
      exact h.of_phase a.revisionSeen (by simp [hp, isLeaving]) (by simp [Awaits, isReport])
    · rename_i hq
      cases hs
      exact h.pop (by rw [hp]; rfl) hq
  | enqueuing messages =>
    rw [hp] at hphase
    cases messages with
    | nil =>
      simp only [Actor.advance, hp] at hs
      cases hs
      exact h.of_phase a.revisionSeen (by simp [hp, isLeaving]) trivial
    | cons =>
      simp only [Actor.advance, hp] at hs
      split at hs
      · rename_i hc
        cases hs
        exact h.enqueue _ hc (by rw [hp]; rfl) (hphase _ mem_cons_self) fun m hm => hphase m (mem_cons_of_mem _ hm)
      · cases hs
        exact h.of_phase a.revisionSeen (by simp [isLeaving]) fun _ => nofun
  | resyncing messages revision =>
    rw [hp] at hphase
    cases messages with
    | nil =>
      simp only [Actor.advance, hp] at hs
      cases hs
      exact h.of_phase revision (by simp [hp, isLeaving]) trivial
    | cons =>
      simp only [Actor.advance, hp] at hs
      split at hs
      · rename_i hc
        cases hs
        exact h.enqueue _ hc (by rw [hp]; rfl) (hphase _ mem_cons_self) fun m hm => hphase m (mem_cons_of_mem _ hm)
      · cases hs
        exact h.of_phase _ (by simp [isLeaving]) fun _ => nofun
  | reporting report =>
    rw [hp] at hphase
    simp only [Actor.advance, hp] at hs
    cases hs
    cases hc : a.queueSend report with
    | none => exact h.of_phase a.revisionSeen (by simp [isLeaving]) hphase.2
    | some =>
      -- the report is in the queue now, but the loop is never entered again
      obtain ⟨hroom, rfl⟩ := Actor.queueSend_eq_some.mp hc
      refine ⟨h.wire, fun hq => ?_, hphase.2⟩
      have hfull := hok (hq.resolve_right (by simp [isLeaving]))
      simp only [silent, hp, decide_eq_true_eq] at hfull
      omega
  | closing =>
    rw [hp] at hphase
    simp only [Actor.advance, hp] at hs
    cases hs
    exact (h.write (by simp)).of_phase a.revisionSeen (by simp [isLeaving]) hphase

end

theorem roomEventMessage_not_report {event : RoomEvent} {message : Message Value}
    (h : roomEventMessage codec event = some message) (he : ∀ reason, event ≠ .roomClosed reason) :
    isReport (.room message) = false := by
  cases event with
  | roomClosed reason => exact absurd rfl (he reason)
  | offerAdded =>
    obtain ⟨_, _, rfl⟩ := Option.map_eq_some_iff.mp h
    rfl
  | peerJoined | peerRenamed | peerLeft | offerRemoved =>
    cases h
    rfl

theorem snapshotOffers_not_report {revision : Nat} {views : List OfferView} {messages : List (Message Value)}
    (h : snapshotOffers codec revision views = .ok messages) : ∀ message ∈ messages, isReport (.room message) = false := by
  induction views generalizing messages with
  | nil =>
    cases h
    simp
  | cons _ views ih =>
    simp only [snapshotOffers] at h
    split at h
    · cases h
    cases hr : snapshotOffers codec revision views with
    | error => simp [hr, Except.map] at h
    | ok =>
      simp only [hr, Except.map, Except.ok.injEq] at h
      subst h
      simpa [isReport] using ih hr

theorem buildResync_not_report {parts views : Room} {messages : List (Message Value)}
    (h : buildResync codec parts views = .ok messages) : ∀ message ∈ messages, isReport (.room message) = false := by
  unfold buildResync snapshotOfferStrings at h
  cases ho : snapshotOffers codec (snapshotParts parts).1 (offerViews views) with
  | error => simp [ho, Except.map] at h
  | ok =>
    simp only [ho, Except.map, Except.ok.injEq] at h
    subst h
    have hoffers := snapshotOffers_not_report ho
    intro message hm
    simp only [mem_cons, mem_append, mem_map, not_mem_nil, or_false] at hm
    rcases hm with rfl | (⟨e, _, rfl⟩ | hm) | rfl
    · rfl
    · rfl
    · exact hoffers message hm
    · rfl

theorem Unreported.select {action : Action} (h : Unreported quiet a) (hp : a.phase = .select)
    (hok : quiet = true → silent a action = true) (hs : a.select codec action = some b) : Unreported quiet b := by
  have hstay : ∀ phase : Phase Value, isLeaving phase = false → isLeaving a.phase = false := by
    intro _ _
    rw [hp]
    rfl
  cases action with
  | sendTo | advance => cases hs
  | inboundText =>
    cases hs
    exact h.of_phase a.revisionSeen (hstay _) trivial
  | inboundBinary =>
    cases hs
    exact h.of_phase a.revisionSeen (hstay _) ⟨rfl, fun _ => nofun⟩
  | inboundClose | inboundEnd | eventsClosed =>
    cases hs
    exact h.of_phase a.revisionSeen (hstay _) fun _ => nofun
  | inboundOther =>
    cases hs
    exact h
  | pingTick =>
    cases hs
    exact h.write (by simp)
  | outgoing =>
    simp only [Actor.select] at hs
    split at hs
    all_goals cases hs
    rename_i hq
    exact h.pop (by rw [hp]; rfl) hq
  | event event =>
    by_cases hclosed : ∃ reason, event = .roomClosed reason
    · obtain ⟨reason, rfl⟩ := hclosed
      cases hs
      exact h.of_phase a.revisionSeen (hstay _) ⟨rfl, fun hq => nomatch hok hq⟩
    simp only [not_exists] at hclosed
    rw [Actor.select] at hs
    · split at hs
      · cases hs
        exact h
      rename_i hm
      cases hs
      exact h.of_phase event.revision (hstay _)
        (by simpa [Awaits] using roomEventMessage_not_report hm hclosed)
    · exact hclosed
  | lagged =>
    simp only [Actor.select] at hs
    split at hs
    · rename_i hm
      cases hs
      exact h.of_phase a.revisionSeen (hstay _) (buildResync_not_report hm)
    · cases hs
      exact h.of_phase a.revisionSeen (hstay _) fun _ => nofun
  | reaperTick expired =>
    cases hs
    cases expired with
    | false => exact h
    | true => exact h.of_phase a.revisionSeen (hstay _) fun _ => nofun

theorem step_unreported {action : Action} (h : Unreported quiet a) (hok : quiet = true → silent a action = true)
    (hs : step codec a action = some b) : Unreported quiet b := by
  unfold step at hs
  split at hs
  · split at hs
    all_goals cases hs
    exact h.sendTo _
  · exact h.advance hok hs
  · split at hs
    · rename_i hp
      exact h.select hp hok hs
    · cases hs

theorem unreported_start (cap revision : Nat) : Unreported quiet (start cap revision : Actor Value) :=
  ⟨by simp [start], by simp [start], trivial⟩

/-- A session that has left its loop ends as it was going to, and what its queue has
stays there. -/
theorem leaving_step {action : Action} {ending : Ending} (he : endingOf a.phase = some ending)
    (hs : step codec a action = some b) : endingOf b.phase = some ending ∧ a.queue ⊆ b.queue := by
  have hsend (message : Outgoing Value) :
      a.queue ⊆ ((a.queueSend message).getD a).queue ∧ ((a.queueSend message).getD a).phase = a.phase := by
    unfold Actor.queueSend
    split <;> simp
  unfold step at hs
  split at hs
  · split at hs
    all_goals cases hs
    exact ⟨by rw [Actor.sendTo, (hsend _).2, he], (hsend _).1⟩
  · unfold Actor.advance at hs
    split at hs
    all_goals rename_i hp
    all_goals rw [hp] at he
    all_goals cases he
    · cases hs
    · cases hs
      exact ⟨rfl, (hsend _).1⟩
    · cases hs
      exact ⟨rfl, Subset.refl _⟩
  · split at hs
    · rename_i hp
      rw [hp] at he
      cases he
    · cases hs

theorem countP_isRoomClosed {wire : List (Frame Value)} (h : ∀ message, .text message ∈ wire → isReport message = false) :
    wire.countP isRoomClosed = 0 := by
  rw [countP_eq_zero]
  intro frame hf hc
  unfold isRoomClosed at hc
  split at hc
  · cases h _ hf
  · cases hc

/-- The reports of a session reach its peer as long as there are none: it does not
read `RoomClosed`, and a binary frame finds the queue full. After the first step
that makes one, the session ends without having written it. -/
theorem reports_then_closes {cap revision : Nat} {a : Actor Value}
    (h : Reaches (step codec) (fun a action => silent a action = true) (start cap revision) a) : ReportsThenCloses a ∧
      ∀ action b, silent a action = false → step codec a action = some b →
        ∀ c ending, Reaches (step codec) always b c → c.phase = .ended ending → ¬ReportsThenCloses c := by
  have hquiet : Unreported true a := h.invariant (unreported_start cap revision)
    fun _ _ _ hu hok hs => step_unreported hu (fun _ => hok) hs
  have hu : Unreported false a := h.invariant (unreported_start cap revision)
    fun _ _ _ hu _ hs => step_unreported hu nofun hs
  refine ⟨⟨fun message hm hmem => ?_, fun reason hp => ?_⟩, fun action b hloud hs c ending hc hend hr => ?_⟩
  · have hno : isReport message = false := hmem.elim (hquiet.queue (.inl rfl) message) (hquiet.wire message)
    rw [hno] at hm
    cases hm
  · have hphase := hquiet.phase
    rw [hp] at hphase
    exact absurd rfl (hphase rfl reason)
  · have hwire := (hc.invariant (step_unreported hu nofun hs) fun _ _ _ hu _ hs => step_unreported hu nofun hs).wire
    have hleft {e : Ending} (he : endingOf b.phase = some e) : endingOf c.phase = some e ∧ b.queue ⊆ c.queue :=
      hc.invariant (P := fun c => endingOf c.phase = some e ∧ b.queue ⊆ c.queue) ⟨he, Subset.refl _⟩
        fun _ _ _ ih _ hs => ⟨(leaving_step ih.1 hs).1, Subset.trans ih.2 (leaving_step ih.1 hs).2⟩
    unfold silent at hloud
    split at hloud
    · rename_i reason
      have hb : endingOf b.phase = some (.roomClosed reason) := by
        simp only [step] at hs
        split at hs
        · cases hs
          rfl
        · cases hs
      have he := (hleft hb).1
      rw [hend] at he
      cases he
      exact absurd (hr.announced reason hend) (by rw [countP_isRoomClosed hwire]; exact Nat.zero_ne_one)
    · split at hloud
      · rename_i report status last hp
        have hroom : a.queue.length < a.cap := Nat.lt_of_not_le (of_decide_eq_false hloud)
        have hphase := hu.phase
        rw [hp] at hphase
        simp only [step, Actor.advance, hp, Actor.queueSend, if_pos hroom, Option.getD_some] at hs
        cases hs
        have hmem : report ∈ c.queue := (hleft rfl).2 (mem_append_right _ mem_cons_self)
        obtain ⟨before, _, _, hw, hb⟩ := hr.reported report hphase.1 (.inl hmem)
        have hno := hwire report (by rw [hw]; exact mem_append_left _ hb)
        rw [hphase.1] at hno
        cases hno
      · cases hloud
    · cases hloud

def outcome (a : Actor Value) : Option Ending × Bool × Nat :=
  (match a.phase with
    | .ended ending => some ending
    | _ => none, a.queue.any isReport, a.wire.countP isRoomClosed)

theorem outcome_ended {ending : Ending} {b : Bool} {n : Nat} (h : outcome a = (some ending, b, n)) :
    a.phase = .ended ending ∧ a.queue.any isReport = b ∧ a.wire.countP isRoomClosed = n := by
  simp only [outcome, Prod.mk.injEq] at h
  refine ⟨?_, h.2⟩
  have hp := h.1
  split at hp
  all_goals cases hp
  rename_i he
  exact he

/-- The owner closes the room: the session enqueues `room_closed`, closes the
socket and never writes it. -/
theorem room_closed_never_written :
    ∃ a : Actor Bytes, Reaches (step SessionMirror.sampleCodec) always (start 64 1) a ∧
      a.phase = .ended (.roomClosed "owner-close") ∧ a.queue.any isReport = true ∧
      a.wire.countP isRoomClosed = 0 ∧ ¬ ReportsThenCloses a := by
  obtain ⟨a, ha, ho⟩ : ∃ a : Actor Bytes, Reaches (step SessionMirror.sampleCodec) always (start 64 1) a ∧
      outcome a = (some (.roomClosed "owner-close"), true, 0) :=
    exec_observe [.event (.roomClosed "owner-close"), .advance, .advance]
      _ (by decide +kernel)
  obtain ⟨hp, hq, hn⟩ := outcome_ended ho
  refine ⟨a, ha, hp, hq, hn, ?_⟩
  intro hr
  have := hr.announced _ hp
  omega

/-- A text is answered, and a binary frame finds the queue full. -/
theorem reports_then_closes_full :
    ∃ a : Actor Bytes, Reaches (step SessionMirror.sampleCodec) (fun a action => silent a action = true) (start 1 1) a ∧
      a.phase = .ended .binary ∧ ReportsThenCloses a := by
  obtain ⟨a, ha, ho⟩ : ∃ a : Actor Bytes,
      Reaches (step SessionMirror.sampleCodec) (fun a action => silent a action = true) (start 1 1) a ∧
        outcome a = (some .binary, false, 0) :=
    execWhile_observe [.inboundText ["pong"], .advance, .advance, .advance, .outgoing, .sendTo "notice", .inboundBinary,
      .advance, .advance] _ (by decide +kernel)
  exact ⟨a, ha, (outcome_ended ho).1, (reports_then_closes ha).1⟩

end Bore.ControlReports
