import Bore.Runs

/-! The slot of one fast link upload: the downloads that claim it, the one-place
channel through which they hand themselves over, the upload task and its guard. -/

namespace Bore.FastSlot

open List Option

inductive SlotState
  | waiting
  | streaming
  | closed
  deriving DecidableEq

inductive Download
  | found
  | claimed
  | sent
  | refused (status : Nat)
  deriving DecidableEq

/-- The upload task. Its last three points are the drops of the guard (which
closes the slot, then removes it) and of the receiver. -/
inductive Upload
  | inserted
  | opening
  | waiting
  | expired
  | ended
  | inFlight (expired : Bool)
  | streaming (download : Nat)
  | rearmed
  | failing
  | completed
  | closes
  | removes
  | dropsReceiver
  | returned
  deriving DecidableEq

/-- The gauges are shared with other slots, whose part is recorded apart. -/
structure System where
  state : SlotState
  channel : Option Nat
  registered : Bool
  upload : Upload
  downloads : List Download
  waiting : UInt64
  streaming : UInt64
  otherWaiting : UInt64
  otherStreaming : UInt64
  deriving DecidableEq

def System.transition (s : System) (target : SlotState) : System :=
  if s.state = target then s
  else
    let waiting := if s.state = .waiting then s.waiting - 1 else s.waiting
    let streaming := if s.state = .streaming then s.streaming - 1 else s.streaming
    { s with
      state := target
      waiting := if target = .waiting then waiting + 1 else waiting
      streaming := if target = .streaming then streaming + 1 else streaming }

def System.claim (s : System) (i : Nat) : System :=
  match s.state with
  | .waiting =>
    { s with
      state := .streaming
      waiting := s.waiting - 1
      streaming := s.streaming + 1
      downloads := s.downloads.set i .claimed }
  | .streaming => { s with downloads := s.downloads.set i (.refused 409) }
  | .closed => { s with downloads := s.downloads.set i (.refused 404) }

/-- `try_send` of the handoff: the receiver lives until the upload task returns. -/
def System.send (s : System) (i : Nat) : System :=
  if s.channel.isNone && decide (s.upload ≠ .returned) then
    { s with channel := some i, downloads := s.downloads.set i .sent }
  else { s with downloads := s.downloads.set i (.refused 503) }

/-- `take_or_close`: the second component says that a claim is in flight. -/
def System.takeOrClose (s : System) : System × Bool :=
  match s.state with
  | .waiting => ({ s with state := .closed, waiting := s.waiting - 1 }, false)
  | .streaming => (s, true)
  | .closed => (s, false)

inductive Action
  | lookup
  | claim (i : Nat)
  | send (i : Nat)
  | upload (ok : Bool)
  | receive
  | expire
  | uploadEnds
  | malformed
  | rearm
  | others (waiting streaming : UInt64)
  deriving DecidableEq

/-- The next step of the upload task where only one kind is possible; `ok` says
whether what it writes to the uploader, or the pump, succeeds, and lets a wait
for a claimed download time out. -/
def System.uploadStep (s : System) (ok : Bool) : Option System :=
  match s.upload with
  | .inserted => some { s with waiting := s.waiting + 1, upload := .opening }
  | .opening => some { s with upload := if ok then .waiting else .closes }
  | .expired =>
    let (s, inFlight) := s.takeOrClose
    some { s with upload := if inFlight then .inFlight true else .failing }
  | .ended =>
    let (s, inFlight) := s.takeOrClose
    some { s with upload := if inFlight then .inFlight false else .failing }
  | .inFlight _ => if ok then none else some { s with upload := .failing }
  | .streaming _ =>
    if ok then some { s.transition .closed with upload := .completed } else some { s with upload := .failing }
  | .rearmed => some { s with upload := if ok then .waiting else .failing }
  | .failing => some { s with upload := .closes }
  | .completed => some { s with upload := .closes }
  | .closes => some { s.transition .closed with upload := .removes }
  | .removes => some { s with registered := false, upload := .dropsReceiver }
  | .dropsReceiver => some { s with channel := none, upload := .returned }
  | .waiting => none
  | .returned => none

/-- The upload task takes a handoff from the channel. After the end of the
upload it only answers the download. -/
def System.receive (s : System) : Option System :=
  match s.channel, s.upload with
  | some i, .waiting => some { s with channel := none, upload := .streaming i }
  | some i, .inFlight true => some { s with channel := none, upload := .streaming i }
  | some _, .inFlight false => some { s with channel := none, upload := .failing }
  | _, _ => none

def step (s : System) : Action → Option System
  | .lookup => if s.registered then some { s with downloads := s.downloads ++ [.found] } else none
  | .claim i => if s.downloads[i]? = some .found then some (s.claim i) else none
  | .send i => if s.downloads[i]? = some .claimed then some (s.send i) else none
  | .upload ok => s.uploadStep ok
  | .receive => s.receive
  | .expire => if s.upload = .waiting then some { s with upload := .expired } else none
  | .uploadEnds => if s.upload = .waiting then some { s with upload := .ended } else none
  | .malformed => if s.upload = .waiting then some { s with upload := .failing } else none
  | .rearm =>
    match s.upload with
    | .streaming _ => some { s.transition .waiting with upload := .rearmed }
    | _ => none
  | .others waiting streaming =>
    some { s with
      waiting := s.waiting + waiting
      streaming := s.streaming + streaming
      otherWaiting := s.otherWaiting + waiting
      otherStreaming := s.otherStreaming + streaming }

def start (waiting streaming : UInt64) : System :=
  ⟨.waiting, none, true, .inserted, [], waiting, streaming, waiting, streaming⟩

def isStreaming : Upload → Bool
  | .streaming _ => true
  | _ => false

def pending (s : System) : Nat :=
  s.downloads.count .claimed + s.channel.toList.length + (isStreaming s.upload).toNat

def isServing : Upload → Bool
  | .inFlight _ | .streaming _ => true
  | _ => false

def awaits : Upload → Bool
  | .inserted | .opening | .waiting | .expired | .ended | .inFlight _ | .rearmed | .streaming _ => true
  | .failing | .completed | .closes | .removes | .dropsReceiver | .returned => false

def closedBy : Upload → Bool
  | .completed | .removes | .dropsReceiver | .returned => true
  | _ => false

def gone : Upload → Bool
  | .dropsReceiver | .returned => true
  | _ => false

structure Gauged (s : System) : Prop where
  waiting : s.waiting + (if s.upload = .inserted then 1 else 0) =
    s.otherWaiting + (if s.state = .waiting then 1 else 0)
  streaming : s.streaming = s.otherStreaming + (if s.state = .streaming then 1 else 0)

structure Held (s : System) : Prop where
  one : pending s ≤ 1
  idle : s.state = .waiting → pending s = 0
  awaited : awaits s.upload = true → s.state = .waiting ∨ s.state = .streaming ∧ pending s = 1
  served : isServing s.upload = true → s.state = .streaming
  closed : closedBy s.upload = true → s.state = .closed
  registered : s.registered = !gone s.upload
  emptied : s.upload = .returned → s.channel = none

structure SlotInv (s : System) : Prop extends Held s where
  gauges : Gauged s

section Invariant

variable {s s' : System}

variable {i : Nat}

theorem step_gauged {a : Action} (h : Gauged s) (hs : step s a = some s') : Gauged s' := by
  obtain ⟨hwaiting, hstreaming⟩ := h
  revert hs
  fun_cases step s a
  case case7 =>
    intro hs
    simp only [System.uploadStep, System.takeOrClose, System.transition] at hs
    repeat' split at hs
    all_goals cases hs
    all_goals constructor
    all_goals grind
  case case8 =>
    intro hs
    simp only [System.receive] at hs
    split at hs
    all_goals cases hs
    all_goals constructor
    all_goals grind
  all_goals rintro ⟨⟩
  all_goals constructor
  all_goals grind [System.claim, System.send, System.transition]

@[simp] theorem transition_state (s : System) (target : SlotState) : (s.transition target).state = target := by
  rw [System.transition]
  split
  · assumption
  · rfl

@[simp] theorem transition_channel (s : System) (target : SlotState) : (s.transition target).channel = s.channel := by
  rw [System.transition]
  split <;> rfl

@[simp] theorem transition_downloads (s : System) (target : SlotState) : (s.transition target).downloads = s.downloads := by
  rw [System.transition]
  split <;> rfl

theorem transition_closed (s : System) : ∃ waiting streaming,
    s.transition .closed = { s with state := .closed, waiting := waiting, streaming := streaming } := by
  unfold System.transition
  split
  · rename_i hs
    exact ⟨s.waiting, s.streaming, by rw [← hs]⟩
  · exact ⟨_, _, rfl⟩

structure Legal (s : System) (u : Upload) : Prop where
  streams : isStreaming u = true → isStreaming s.upload = true
  awaited : awaits u = true → awaits s.upload = true ∧ isStreaming u = isStreaming s.upload
  served : isServing u = true → s.state = .streaming
  closed : closedBy u = true → s.state = .closed
  gone : gone u = gone s.upload
  stays : u ≠ .returned

variable {u : Upload}

section

variable (h : Held s)
include h

theorem Held.moves (hm : Legal s u) : Held { s with upload := u } := by
  cases h
  cases hm
  constructor
  all_goals grind -ring -linarith [pending, Bool.toNat]

theorem Held.givesUp (hu : u = .failing ∨ u = .closes) (hv : gone s.upload = false) : Held { s with upload := u } := by
  rcases hu with rfl | rfl
  all_goals exact h.moves ⟨nofun, nofun, nofun, nofun, hv.symm, nofun⟩

theorem Held.goesOn (hu : u = .waiting ∨ u = .expired ∨ u = .ended)
    (hw : awaits s.upload = true ∧ isStreaming s.upload = false) (hv : gone s.upload = false) :
    Held { s with upload := u } := by
  rcases hu with rfl | rfl | rfl
  all_goals exact h.moves ⟨nofun, fun _ => ⟨hw.1, hw.2.symm⟩, nofun, nofun, hv.symm, nofun⟩

theorem Held.closes (hu : u = .completed ∨ u = .removes) (hv : gone s.upload = false) :
    Held { s.transition .closed with upload := u } := by
  obtain ⟨waiting, streaming, ht⟩ := transition_closed s
  cases h
  rcases hu with rfl | rfl
  all_goals constructor
  all_goals grind -ring -linarith [pending, Bool.toNat, awaits, isStreaming, isServing, closedBy, gone]

theorem takeOrClose_held (hw : awaits s.upload = true ∧ isStreaming s.upload = false) (hv : gone s.upload = false)
    (expired : Bool) :
    Held { s.takeOrClose.1 with upload := if s.takeOrClose.2 then .inFlight expired else .failing } := by
  cases h
  rw [System.takeOrClose]
  split
  all_goals constructor
  all_goals grind -ring -linarith [pending, Bool.toNat, awaits, isStreaming, isServing, closedBy, gone]

theorem receive_held (hs : s.receive = some s') : Held s' := by
  cases h
  simp only [System.receive] at hs
  split at hs
  all_goals cases hs
  all_goals constructor
  all_goals grind -ring -linarith [pending, awaits, isStreaming, isServing, closedBy, gone]

theorem claim_held (hi : s.downloads[i]? = some .found) : Held (s.claim i) := by
  cases h
  rw [System.claim]
  split
  all_goals constructor
  all_goals grind -ring -linarith [pending]

theorem send_held (hi : s.downloads[i]? = some .claimed) : Held (s.send i) := by
  cases h
  rw [System.send]
  cases hc : s.channel
  all_goals split
  all_goals constructor
  all_goals grind -ring -linarith [pending, awaits]

theorem Held.of_downloads {downloads : List Download}
    (hcount : downloads.count .claimed = s.downloads.count .claimed) : Held { s with downloads := downloads } := by
  cases h
  constructor
  all_goals grind -ring -linarith [pending]

theorem rearm_held (hu : s.upload = .streaming i) : Held { s.transition .waiting with upload := .rearmed } := by
  cases h
  rw [System.transition]
  split
  all_goals constructor
  all_goals grind -ring -linarith [pending, awaits, isStreaming, isServing, closedBy, gone]

theorem uploadStep_held {ok : Bool} (hs : s.uploadStep ok = some s') : Held s' := by
  revert hs
  fun_cases System.uploadStep s ok
  all_goals rintro ⟨⟩
  case case1 hu =>
    cases h
    constructor
    all_goals grind -ring -linarith [pending, awaits, isStreaming, isServing, closedBy, gone]
  case case2 hu | case9 hu =>
    cases ok with
    | true => exact h.goesOn (.inl rfl) (hu ▸ ⟨rfl, rfl⟩) (hu ▸ rfl)
    | false => exact h.givesUp (by simp) (hu ▸ rfl)
  case case3 hu _ _ ht =>
    have hheld := takeOrClose_held h (hu ▸ ⟨rfl, rfl⟩) (hu ▸ rfl) true
    rwa [ht] at hheld
  case case4 hu _ _ ht =>
    have hheld := takeOrClose_held h (hu ▸ ⟨rfl, rfl⟩) (hu ▸ rfl) false
    rwa [ht] at hheld
  case case6 hu _ | case8 hu _ => exact h.givesUp (.inl rfl) (hu ▸ rfl)
  case case10 hu | case11 hu => exact h.givesUp (.inr rfl) (hu ▸ rfl)
  case case7 hu _ => exact h.closes (.inl rfl) (hu ▸ rfl)
  case case12 hu => exact h.closes (.inr rfl) (hu ▸ rfl)
  case case13 hu | case14 hu =>
    cases h
    constructor
    all_goals grind -ring -linarith [pending, awaits, isStreaming, isServing, closedBy, gone]

theorem step_held {a : Action} (hs : step s a = some s') : Held s' := by
  revert hs
  fun_cases step s a
  case case7 => exact uploadStep_held h
  case case8 => exact receive_held h
  all_goals rintro ⟨⟩
  case case1 => exact h.of_downloads (by simp [count_append])
  case case3 hi => exact claim_held h hi
  case case5 hi => exact send_held h hi
  case case9 hu | case11 hu => exact h.goesOn (by simp) (hu ▸ ⟨rfl, rfl⟩) (hu ▸ rfl)
  case case13 hu => exact h.givesUp (.inl rfl) (hu ▸ rfl)
  case case15 hu => exact rearm_held h hu
  case case17 => exact { h with }

end

theorem step_inv {a : Action} (h : SlotInv s) (hs : step s a = some s') : SlotInv s' :=
  ⟨step_held h.toHeld hs, step_gauged h.gauges hs⟩

theorem start_inv (waiting streaming : UInt64) : SlotInv (start waiting streaming) where
  one := Nat.zero_le 1
  idle := fun _ => rfl
  awaited := fun _ => .inl rfl
  served := nofun
  closed := nofun
  registered := rfl
  emptied := nofun
  gauges := ⟨rfl, by simp [start]⟩

end Invariant

end Bore.FastSlot
