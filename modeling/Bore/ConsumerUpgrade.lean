import Bore.Runs

/-! The relay → direct upgrades of a secret consumer: one loop owns the control
stream, each attempt runs in a task of its own, and an answer carries no
identifier of the offer it is for. -/

namespace Bore.ConsumerUpgrade

open Runs List Function

/-- A control message the server has not answered yet. Offer zero is that of
the initial negotiation. -/
inductive Request
  | hint
  | offer (attempt : Nat)
  deriving DecidableEq

/-- Where the task of an attempt stands: it gathers, has handed its offer to
the loop, has its answer, or is gone. -/
inductive Phase
  | gathering
  | offered
  | dialing
  | ended (connected : Bool)
  deriving DecidableEq

/-- The loop of `Proxy::listen`. `candRx`, `punchTx` and `doneRx` name the
attempt whose end of the channel the loop holds; `candidates` is whether an
offer lies in the first. `handed` logs each answer with the attempt it was
given to. -/
structure Session where
  direct : Bool
  waitingForStunHint : Bool
  candRx : Option Nat
  candidates : Bool
  punchTx : Option Nat
  doneRx : Option Nat
  spawned : Nat
  task : Nat → Phase
  requests : List Request
  handed : List (Nat × Nat)

inductive Action
  | start
  | answer (i : Nat)
  | candidates
  | done
  | gathered (attempt : Nat) (ok : Bool)
  | punched (attempt : Nat) (available : Bool)
  | dialed (attempt : Nat) (connected : Bool)
  deriving DecidableEq

namespace Session

variable (s : Session)

def setTask (attempt : Nat) (phase : Phase) : Session := { s with task := update s.task attempt phase }

def spawn : Session :=
  let attempt := s.spawned + 1
  { s.setTask attempt .gathering with
    waitingForStunHint := false, candRx := some attempt, candidates := false, punchTx := some attempt
    doneRx := some attempt, spawned := attempt }

/-- The control arm. Nobody receives what is sent to a task that is gone. -/
def receive : Request → Session
  | .hint => if s.waitingForStunHint then s.spawn else s
  | .offer offer =>
    match s.punchTx with
    | none => s
    | some attempt =>
      match s.task attempt with
      | .ended _ => { s with punchTx := none }
      | _ => { s with punchTx := none, handed := (attempt, offer) :: s.handed }

end Session

def step (s : Session) : Action → Option Session
  | .start =>
    if s.direct = false ∧ s.doneRx = none ∧ s.waitingForStunHint = false then
      some { s with waitingForStunHint := true, requests := s.requests ++ [.hint] }
    else none
  | .answer i => (s.requests[i]?).map (fun request => { s with requests := s.requests.eraseIdx i }.receive request)
  | .candidates =>
    match s.candRx with
    | none => none
    | some attempt =>
      if s.candidates then some { s with candRx := none, requests := s.requests ++ [.offer attempt] }
      else
        match s.task attempt with
        | .ended _ => some { s with candRx := none, punchTx := none, doneRx := none }
        | _ => none
  | .done =>
    match s.doneRx with
    | none => none
    | some attempt =>
      match s.task attempt with
      | .ended connected =>
        some { s with candRx := none, punchTx := none, doneRx := none, direct := s.direct || connected }
      | _ => none
  | .gathered attempt ok =>
    if s.task attempt = .gathering then
      if ok ∧ s.candRx = some attempt then some { s.setTask attempt .offered with candidates := true }
      else some (s.setTask attempt (.ended false))
    else none
  | .punched attempt available =>
    if s.task attempt = .offered ∧ s.punchTx ≠ some attempt then
      some (s.setTask attempt (if available && attempt ∈ s.handed.map Prod.fst then .dialing else .ended false))
    else none
  | .dialed attempt connected =>
    if s.task attempt = .dialing then some (s.setTask attempt (.ended connected)) else none

/-- After an initial negotiation without a direct path, which may have timed
out with a message unanswered. -/
def start (pending : Option Request) : Session :=
  ⟨false, false, none, false, none, none, 0, fun _ => .ended false, pending.toList, []⟩

/-- The server reads one message after the other and answers each before it
reads the next. -/
def inOrder : Action → Bool
  | .answer i => i == 0
  | _ => true

def Phase.inFlight : Phase → Bool
  | .ended _ => false
  | _ => true

structure Matched (s : Session) : Prop where
  single : ∀ a b, (s.task a).inFlight = true → (s.task b).inFlight = true → a = b
  own : ∀ e ∈ s.handed, e.1 = e.2

/-- The loop holds only ends of the attempt in flight. Of an attempt's offer the
answer is owed while its task waits for it; the one answer that an earlier offer
can still have comes before everything else. -/
structure Orderly (s : Session) : Prop where
  flies : ∀ b, (s.task b).inFlight = true → s.doneRx = some b
  waits : s.waitingForStunHint = true → s.doneRx = none
  punch : ∀ a, s.punchTx = some a → s.doneRx = some a
  cand : ∀ a, s.candRx = some a → s.punchTx = some a ∧ (s.candidates = true → s.task a = .offered)
  owed : ∀ (i : Nat) (o : Nat), s.requests[i]? = some (.offer o) → s.doneRx = none ∧ i = 0 ∨
    s.doneRx = some o ∧ s.punchTx = some o ∧ s.candRx = none ∧ s.task o = .offered ∧ i + 1 = s.requests.length
  own : ∀ e ∈ s.handed, e.1 = e.2

variable {s s' : Session}

theorem orderly_receive {request : Request} {rest : List Request} (h : Orderly s) (hr : s.requests = request :: rest) :
    Orderly ({ s with requests := rest }.receive request) := by
  obtain ⟨h1, h2, h3, h4, h5, h6⟩ := h
  have hhead := h5 0
  have hrest (i o : Nat) (hi : rest[i]? = some (.offer o)) := h5 (i + 1) o (by rw [hr]; exact hi)
  fun_cases Session.receive { s with requests := rest } request
  all_goals constructor
  all_goals dsimp only [Session.spawn, Session.setTask] at *
  all_goals grind [update_apply, Phase.inFlight]

theorem orderly_step {a : Action} (h : Orderly s) (hok : inOrder a = true)
    (hs : step s a = some s') : Orderly s' := by
  revert hs
  fun_cases step s a
  all_goals rintro hs
  case case3 i =>
    cases beq_iff_eq.mp hok
    obtain ⟨request, hr, rfl⟩ := Option.map_eq_some_iff.mp hs
    rw [← head?_eq_getElem?] at hr
    obtain ⟨rest, hreq⟩ := head?_eq_some_iff.mp hr
    rw [hreq, eraseIdx_zero, tail_cons]
    exact orderly_receive h hreq
  all_goals cases hs
  -- A message is sent, the ends of an attempt that is over are dropped, or a task moves on.
  case' case1 => refine { h with waits := ?_, owed := ?_ }
  case' case5 => refine { h with cand := nofun, owed := ?_ }
  case' case6 | case9 => refine { h with flies := ?_, waits := ?_, punch := nofun, cand := nofun, owed := ?_ }
  case' case11 | case12 | case14 | case16 => refine { h with flies := ?_, cand := ?_, owed := ?_ }
  all_goals obtain ⟨hflies, hwaits, hpunch, hcand, howed, -⟩ := h
  all_goals try dsimp only [Session.setTask] at *
  all_goals grind [update_apply, Phase.inFlight]

theorem upgrade_answers_belong (pending : Option Request) (s : Session)
    (h : Reaches step (fun _ a => inOrder a = true) (start pending) s) : Matched s := by
  have hstart : Orderly (start pending) := by
    refine ⟨nofun, nofun, nofun, nofun, fun i o ho => .inl ⟨rfl, ?_⟩, nofun⟩
    cases pending <;> cases i <;> first | rfl | cases ho
  have hinv := h.invariant hstart fun _ _ _ ht hok hs => orderly_step ht hok hs
  exact ⟨fun a b ha hb => Option.some.inj ((hinv.flies a ha).symm.trans (hinv.flies b hb)), hinv.own⟩

theorem upgrade_answers_belong_late : ∃ s, Reaches step (fun _ a => inOrder a = true) (start (some (.offer 0))) s ∧
    s.handed = [(1, 1)] ∧ Matched s :=
  execWhile_shows [.start, .answer 0, .answer 0, .gathered 1 true, .candidates, .answer 0] Session.handed
    (by decide +kernel) fun s hr _ => upgrade_answers_belong _ s hr

/-- A hint that overtakes the late answer lets the first attempt take it. -/
theorem overtaken_answer_goes_astray : ∃ s, Reaches step always (start (some (.offer 0))) s ∧ s.handed = [(1, 0)] :=
  exec_observe [.start, .answer 1, .answer 0] Session.handed (by decide +kernel)

end Bore.ConsumerUpgrade
