import Bore.Runs

/-! The control session of the page. While one of its callbacks is open the page may
call the session again, and the rest of the function that called it waits. -/

namespace Bore.ControlSession

open Runs

/-- The callbacks after which the session goes on: `onClose` before a reconnect is
scheduled, `onStateChange` before its timer is armed. Nothing of the session is
left to do after the others. -/
inductive Callback
  | onClose
  | onStateChange
  deriving DecidableEq

/-- `hello`, `ping` and `reconnect` say which timers are armed. A socket is known
by its number; `opened` counts them, `terminal` says that a terminal close was
reported, `pending` is the callback that is open. -/
structure Session where
  socket : Option Nat
  hello : Bool
  ping : Bool
  reconnect : Bool
  helloAcked : Bool
  everAcked : Bool
  authRefusals : Nat
  stopped : Bool
  opened : Nat
  terminal : Bool
  pending : Option Callback

namespace Session

variable (s : Session)

def clearTimers : Session := { s with hello := false, ping := false, reconnect := false }

def scheduleReconnect : Session := if s.stopped then s else { s with pending := some .onStateChange }

def abandon : Session :=
  { s.clearTimers with socket := none, helloAcked := false, authRefusals := 0, pending := some .onClose }

/-- `throws` says that the browser refused to make the socket. -/
def connect (throws : Bool) : Session :=
  let s := { s.clearTimers with helloAcked := false }
  if throws then s.scheduleReconnect else { s with socket := some s.opened, opened := s.opened + 1, hello := true }

def message : Session :=
  if s.helloAcked then s
  else { s with helloAcked := true, everAcked := true, hello := false, authRefusals := 0, ping := true }

def authRefusalsBeforeTerminal : Nat := 2

def close (code : Nat) : Session :=
  let refusals := if code = 4001 then s.authRefusals + 1 else 0
  let closed := { s.clearTimers with socket := none, helloAcked := false, authRefusals := refusals }
  if code = 4004 ∨ code = 4010 ∨ code = 4001 ∧ (s.everAcked = false ∨ authRefusalsBeforeTerminal ≤ refusals) then
    { closed with terminal := true }
  else { closed with pending := some .onClose }

def resume (callback : Callback) : Session :=
  match callback with
  | .onClose => { s with pending := none }.scheduleReconnect
  | .onStateChange => { s with pending := none, reconnect := true }

def cycle : Session := if s.stopped = true ∨ s.socket = none then s else s.abandon

def stop : Session := { s.clearTimers with stopped := true, socket := none }

end Session

open Session

/-- What happens to a socket; `text` says that a message is one. -/
inductive Event
  | opens
  | message (text : Bool)
  | close (code : Nat)
  | error

/-- `gives` says that the tick finds a ping unanswered for too long. -/
inductive Action
  | socket (id : Nat) (event : Event)
  | helloFires
  | pingFires (gives : Bool)
  | reconnectFires (throws : Bool)
  | resume
  | cycle
  | stop

/-- While a callback is open nothing happens but what the page calls from it. -/
def step (s : Session) (a : Action) : Option Session :=
  match s.pending, a with
  | _, .cycle => some s.cycle
  | _, .stop => some s.stop
  | some callback, .resume => some (s.resume callback)
  | none, .socket id event =>
    if s.socket ≠ some id then some s
    else match event with
      | .message true => some s.message
      | .close code => some (s.close code)
      | _ => some s
  | none, .helloFires => if s.hello then some { s with hello := false }.abandon else none
  | none, .pingFires gives => if s.ping then some (if gives then s.abandon else s) else none
  | none, .reconnectFires throws => if s.reconnect then some ({ s with reconnect := false }.connect throws) else none
  | _, _ => none

def start (throws : Bool) : Session := connect ⟨none, false, false, false, false, false, 0, false, 0, false, none⟩ throws

/-- The page does not stop the session from within `onStateChange`. -/
def leavesStateChange (s : Session) : Action → Bool
  | .stop => s.pending ≠ some .onStateChange
  | _ => true

/-- The server says nothing but 4001, and no socket is given up before it does. -/
def refusing (_ : Session) : Action → Bool
  | .socket _ (.message text) => !text
  | .socket _ (.close code) => code = 4001
  | .helloFires | .pingFires _ | .cycle => false
  | _ => true

/-- A session that has not ended has one of a socket, a reconnect timer and a
callback after which the timer is armed. -/
structure Inv (s : Session) : Prop where
  one : s.stopped = false → s.terminal = false → (s.socket = none ↔ s.reconnect = true ∨ s.pending ≠ none)
  apart : s.reconnect = true → s.pending = none
  ended : s.stopped = true ∨ s.terminal = true →
    s.socket = none ∧ s.reconnect = false ∧ s.pending ≠ some .onStateChange
  terminal : s.terminal = true → s.pending = none
  hello : s.hello = true → s.socket ≠ none
  ping : s.ping = true → s.socket ≠ none ∧ s.helloAcked = true

section Steps

variable {s s' : Session} {a : Action}

theorem Inv.abandon (h : Inv s) (hs : s.socket ≠ none) : Inv s.abandon := by
  have hlive : ¬ (s.stopped = true ∨ s.terminal = true) := fun hdead => hs (h.ended hdead).1
  constructor <;> simp_all [Session.abandon, clearTimers]

theorem Inv.close (h : Inv s) (hs : s.socket ≠ none) (hp : s.pending = none) (code : Nat) : Inv (s.close code) := by
  have hlive : ¬ (s.stopped = true ∨ s.terminal = true) := fun hdead => hs (h.ended hdead).1
  rw [Session.close]
  generalize (if code = 4001 then s.authRefusals + 1 else 0) = refusals
  split
  · constructor <;> simp_all [clearTimers]
  · constructor <;> simp_all [clearTimers]

theorem Inv.message (h : Inv s) (hs : s.socket ≠ none) : Inv s.message := by
  obtain ⟨hone, hapart, hended, hterminal, -, -⟩ := id h
  rw [Session.message]
  split
  · exact h
  · exact ⟨hone, hapart, hended, hterminal, nofun, fun _ => ⟨hs, rfl⟩⟩

theorem Inv.connect (h : Inv s) (hr : s.reconnect = true) (throws : Bool) :
    Inv ({ s with reconnect := false }.connect throws) := by
  obtain ⟨hone, hapart, hended, -, -, -⟩ := h
  cases throws <;> constructor <;> simp_all [Session.connect, clearTimers, scheduleReconnect]

theorem Inv.resume (h : Inv s) {callback : Callback} (hp : s.pending = some callback) : Inv (s.resume callback) := by
  obtain ⟨hone, hapart, hended, hterminal, hhello, hping⟩ := h
  cases callback with
  | onClose =>
    rw [Session.resume, scheduleReconnect]
    split <;> constructor <;> simp_all
  | onStateChange => constructor <;> simp_all [Session.resume]

theorem Inv.cycle (h : Inv s) : Inv s.cycle := by
  rw [Session.cycle]
  split
  · exact h
  · rename_i hlive
    exact h.abandon fun hn => hlive (.inr hn)

theorem Inv.stop (h : Inv s) (hp : s.pending ≠ some .onStateChange) : Inv s.stop := by
  have hterminal := h.terminal
  constructor <;> simp_all [Session.stop, clearTimers]

theorem inv_step (h : Inv s) (hok : leavesStateChange s a = true) (hs : step s a = some s') : Inv s' := by
  revert hs
  fun_cases step s a
  all_goals rintro ⟨⟩
  case case1 => exact h.cycle
  case case2 => exact h.stop (of_decide_eq_true hok)
  case case3 hp => exact h.resume hp
  case case5 hid => exact h.message (by simp [not_not.mp hid])
  case case6 hp hid code => exact h.close (by simp [not_not.mp hid]) hp code
  case case8 hfires => exact h.abandon (h.hello hfires)
  case case10 hfires =>
    split
    · exact h.abandon (h.ping hfires).1
    · exact h
  case case12 hfires => exact h.connect hfires _
  all_goals exact h

theorem inv_start (throws : Bool) : Inv (start throws) := by
  cases throws <;> constructor <;> simp [start, connect, clearTimers, scheduleReconnect]

theorem resume_frame (s : Session) (callback : Callback) : (s.resume callback).opened = s.opened ∧
    (s.resume callback).stopped = s.stopped ∧ (s.resume callback).terminal = s.terminal ∧
    (s.resume callback).authRefusals = s.authRefusals := by
  cases callback with
  | onClose =>
    rw [Session.resume, scheduleReconnect]
    split <;> exact ⟨rfl, rfl, rfl, rfl⟩
  | onStateChange => exact ⟨rfl, rfl, rfl, rfl⟩

theorem ended_step (h : Inv s) (he : s.stopped = true ∨ s.terminal = true) (hs : step s a = some s') :
    s'.opened = s.opened ∧ (s'.stopped = true ∨ s'.terminal = true) := by
  obtain ⟨hsocket, hreconnect, -⟩ := h.ended he
  have hhello : s.hello = false := Bool.eq_false_iff.mpr fun ht => h.hello ht hsocket
  have hping : s.ping = false := Bool.eq_false_iff.mpr fun ht => (h.ping ht).1 hsocket
  revert hs
  fun_cases step s a
  all_goals rintro ⟨⟩
  case case1 => simp [Session.cycle, hsocket, he]
  case case2 => exact ⟨rfl, .inl rfl⟩
  case case3 callback _ =>
    obtain ⟨hopened, hstopped, hterminal, -⟩ := resume_frame s callback
    rw [hopened, hstopped, hterminal]
    exact ⟨rfl, he⟩
  all_goals simp_all

theorem close_refused (s : Session) : (s.close 4001).terminal = true ∨
    s.terminal = false ∧ (s.close 4001).authRefusals = s.authRefusals + 1 ∧ s.authRefusals = 0 := by
  rw [Session.close]
  simp only [if_true, true_and, authRefusalsBeforeTerminal]
  split
  · exact .inl rfl
  · cases ht : s.terminal with
    | true => exact .inl ht
    | false => exact .inr ⟨rfl, rfl, by omega⟩

/-- A server that only refuses does not reset the count. -/
theorem refused_step (h : s.terminal = true ∨ 1 ≤ s.authRefusals) (hok : refusing s a = true)
    (hs : step s a = some s') : s'.terminal = true ∨ 1 ≤ s'.authRefusals := by
  revert hs
  fun_cases step s a
  all_goals rintro ⟨⟩
  case case3 callback _ =>
    obtain ⟨-, -, hterminal, hrefusals⟩ := resume_frame s callback
    rwa [hterminal, hrefusals]
  case case6 =>
    cases of_decide_eq_true hok
    exact (close_refused s).imp_right fun hc => by omega
  case case12 throws _ _ =>
    cases throws
    · exact h
    · rw [Session.connect, if_pos rfl, scheduleReconnect]
      split <;> exact h
  any_goals exact h
  all_goals cases hok

end Steps

/-- With no callback open a session that has not ended has a socket or a reconnect
timer, never both. It pings an acked socket only, the events of other sockets do
nothing, and after its end nothing is armed or opened; a second refusal in a row
ends it. All this as long as the page does not stop it from within
`onStateChange`: the timer is armed after such a stop. -/
theorem control_session_is_guarded {s : Session} {throws : Bool}
    (hr : Reaches step (fun s a => leavesStateChange s a = true) (start throws) s) :
    (s.pending = none → s.stopped = false ∧ s.terminal = false → (s.socket = none ↔ s.reconnect = true)) ∧
    (s.ping = true → s.socket ≠ none ∧ s.helloAcked = true) ∧
    (∀ id event, s.pending = none → s.socket ≠ some id → step s (.socket id event) = some s) ∧
    (s.stopped = true ∨ s.terminal = true → (s.hello, s.ping, s.reconnect) = (false, false, false) ∧
      ∀ s', Reaches step (fun s a => leavesStateChange s a = true) s s' → s'.opened = s.opened) ∧
    (∀ id s₁ s₂ id₂ s₃, s.socket = some id → step s (.socket id (.close 4001)) = some s₁ →
      Reaches step (fun s a => refusing s a = true) s₁ s₂ → s₂.socket = some id₂ →
      step s₂ (.socket id₂ (.close 4001)) = some s₃ → s₃.terminal = true) ∧
    (s.pending = some .onStateChange →
      ((step s .stop).bind (step · .resume)).map (fun s => (s.stopped, s.reconnect)) = some (true, true)) := by
  have h : Inv s := hr.invariant (inv_start throws) fun _ _ _ h hok hs => inv_step h hok hs
  refine ⟨fun hp hlive => ?_, h.ping, fun id event hp hne => ?_, fun he => ⟨?_, fun s' hr' => ?_⟩, ?_, fun hp => ?_⟩
  · simpa [hp] using h.one hlive.1 hlive.2
  · simp [step, hp, hne]
  · obtain ⟨hsocket, hreconnect, -⟩ := h.ended he
    have hhello : s.hello = false := Bool.eq_false_iff.mpr fun ht => h.hello ht hsocket
    have hping : s.ping = false := Bool.eq_false_iff.mpr fun ht => (h.ping ht).1 hsocket
    rw [hhello, hping, hreconnect]
  · have hover : Inv s' ∧ s'.opened = s.opened ∧ (s'.stopped = true ∨ s'.terminal = true) := by
      refine hr'.invariant (P := fun t => Inv t ∧ t.opened = s.opened ∧ (t.stopped = true ∨ t.terminal = true))
        ⟨h, rfl, he⟩ fun t a u ht hok hs => ?_
      obtain ⟨hopened, hover⟩ := ended_step ht.1 ht.2.2 hs
      exact ⟨inv_step ht.1 hok hs, hopened.trans ht.2.1, hover⟩
    exact hover.2.1
  · intro id s₁ s₂ id₂ s₃ hid hs₁ hr' hid₂ hs₃
    have hclose (t t' : Session) (id : Nat) (hid : t.socket = some id) (hs : step t (.socket id (.close 4001)) = some t') :
        t' = t.close 4001 := by
      cases hp : t.pending <;> simp_all [step]
    cases hclose s s₁ id hid hs₁
    cases hclose s₂ s₃ id₂ hid₂ hs₃
    have hrefused : s₂.terminal = true ∨ 1 ≤ s₂.authRefusals :=
      hr'.invariant ((close_refused s).imp_right fun hc => by omega) fun _ _ _ ht hok hs => refused_step ht hok hs
    rcases close_refused s₂ with ht | ⟨ht, -, hnone⟩
    · exact ht
    · rcases hrefused with ht' | hle
      · rw [ht] at ht'
        cases ht'
      · omega
  · simp [step, Session.stop, Session.resume, clearTimers, hp]

def refusedTwice : List Action :=
  [.socket 0 .opens, .socket 0 (.message true), .pingFires false, .socket 0 (.close 4001), .resume, .resume,
    .reconnectFires false, .socket 0 (.close 1000), .socket 1 (.close 4001)]

theorem control_session_is_guarded_reaped :
    ∃ s, Reaches step (fun s a => leavesStateChange s a = true) (start false) s ∧ (s.opened, s.terminal) = (2, true) ∧
      ∀ s', Reaches step (fun s a => leavesStateChange s a = true) s s' → s'.opened = 2 := by
  refine execWhile_shows refusedTwice _ (by decide +kernel) fun s hr hs => ?_
  obtain ⟨hopened, hterminal⟩ := Prod.mk.inj hs
  obtain ⟨-, -, -, hover, -⟩ := control_session_is_guarded hr
  exact hopened ▸ (hover (.inr hterminal)).2

/-- Stopped while the page is told of a reconnect, the session opens another socket. -/
theorem stop_in_state_change :
    (exec step (start false) [.socket 0 (.close 1006), .resume, .stop, .resume]).map
      (fun s => (s.stopped, s.reconnect)) = some (true, true) ∧
    (exec step (start false) [.socket 0 (.close 1006), .resume, .stop, .resume, .reconnectFires false]).map
      (fun s => (s.stopped, s.opened, s.socket)) = some (true, 2, some 1) := by
  decide +kernel

end Bore.ControlSession
