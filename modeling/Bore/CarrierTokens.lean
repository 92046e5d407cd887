import Bore.Runs
import Bore.Table

namespace Bore.CarrierTokens

open Runs Option

inductive Kind
  | publicPort | secret | vhost | sshJump
deriving DecidableEq

inductive Message
  | error | hello | ok | vhostReady | sshJumpReady | carrierToken | warning | udpOffer
deriving DecidableEq

/-- What a handler does, as far as its token depends on it. A failed `send`
makes the handler return, the result of a `trySend` is ignored, and `serve` is
the loop that ends when the control connection does. -/
inductive Op
  | send (message : Message)
  | trySend (message : Message)
  | insertToken
  | buildGuard
  | serve
deriving DecidableEq

structure Request where
  kind : Kind
  accepted : Bool
  carriers : Nat
  maxCarriers : Nat
  autoCarriers : Bool
  udp : Bool
  downgraded : Bool

namespace Request

def effective (r : Request) : Nat := max 1 (min r.carriers (max r.maxCarriers 1))

def offersPool (r : Request) : Bool :=
  match r.kind with
  | .vhost => decide (1 < r.effective) || r.autoCarriers
  | .publicPort | .secret | .sshJump => decide (1 < r.carriers)

end Request

def ready : Kind → Message
  | .publicPort => .hello
  | .secret => .ok
  | .vhost => .vhostReady
  | .sshJump => .sshJumpReady

/-- The public and the SSH-jump handler build the guard before the send. -/
def offerToken : Kind → List Op
  | .publicPort | .sshJump => [.insertToken, .buildGuard, .send .carrierToken]
  | .secret | .vhost => [.insertToken, .send .carrierToken, .buildGuard]

def afterToken (r : Request) : List Op :=
  match r.kind with
  | .publicPort =>
    (if r.downgraded then [.trySend .warning] else []) ++ (if r.udp then [.trySend .udpOffer] else [])
  | .secret => []
  | .vhost =>
    (if r.udp then [.send .udpOffer] else []) ++ (if r.downgraded then [.trySend .warning] else [])
  | .sshJump => if r.udp then [.send .udpOffer] else []

def program (r : Request) : List Op :=
  if r.accepted then
    .send (ready r.kind) :: ((if r.offersPool then offerToken r.kind else []) ++ (afterToken r ++ [.serve]))
  else [.send .error]

/-- A handler that has returned has no operations left and no guard. -/
structure Handler where
  kind : Kind
  rest : Option (List Op)
  guard : Bool
deriving DecidableEq

/-- A token is a fresh v4 UUID, so that it is known by the handler that drew it. -/
structure State where
  pendingCarriers : Finset Nat
  handlers : Table Nat Handler

def start : State := ⟨∅, ∅⟩

variable {pending pending' : Finset Nat} {h : Nat} {handler handler' : Handler} {ops : List Op} {s s' : State}

def leave (pending : Finset Nat) (h : Nat) (handler : Handler) : Finset Nat × Handler :=
  (if handler.guard then pending.erase h else pending, { handler with rest := none, guard := false })

def perform (pending : Finset Nat) (h : Nat) (handler : Handler) : List Op → Finset Nat × Handler
  | [] => leave pending h handler
  | .send _ :: rest | .trySend _ :: rest => (pending, { handler with rest := some rest })
  | .insertToken :: rest => (insert h pending, { handler with rest := some rest })
  | .buildGuard :: rest => (pending, { handler with rest := some rest, guard := true })
  | .serve :: _ => (pending, handler)

def fail (pending : Finset Nat) (h : Nat) (handler : Handler) : List Op → Option (Finset Nat × Handler)
  | .send _ :: _ | .serve :: _ => some (leave pending h handler)
  | _ => none

inductive Action
  | accept (h : Nat) (r : Request)
  | perform (h : Nat)
  | fail (h : Nat)

def running (s : State) (h : Nat) : Option (Handler × List Op) :=
  (s.handlers.get? h).bind (fun handler => handler.rest.map (handler, ·))

def State.put (s : State) (h : Nat) (p : Finset Nat × Handler) : State := ⟨p.1, s.handlers.insert h p.2⟩

def step (s : State) : Action → Option State
  | .accept h r =>
    if s.handlers.contains h then none
    else some (s.put h (s.pendingCarriers, ⟨r.kind, some (program r), false⟩))
  | .perform h => (running s h).map (fun p => s.put h (perform s.pendingCarriers h p.1 p.2))
  | .fail h => (running s h).bind (fun p => (fail s.pendingCarriers h p.1 p.2).map (s.put h))

/-- The send of the token does not fail in a secret or vhost handler. -/
def tokenSent (s : State) : Action → Bool
  | .fail h =>
    match running s h with
    | some (handler, .send .carrierToken :: _) => handler.kind = .publicPort ∨ handler.kind = .sshJump
    | _ => true
  | _ => true

def plain : List Op → Bool
  | [] => true
  | .insertToken :: _ | .buildGuard :: _ => false
  | _ :: ops => plain ops

/-- The guard is next, or it follows the send of the token in one of the two
handlers that build it late. -/
def closing : Kind → List Op → Bool
  | _, .buildGuard :: ops => plain ops
  | .secret, .send .carrierToken :: .buildGuard :: ops => plain ops
  | .vhost, .send .carrierToken :: .buildGuard :: ops => plain ops
  | _, _ => false

def tidy (kind : Kind) : List Op → Bool
  | [] => true
  | .insertToken :: ops => closing kind ops
  | .buildGuard :: _ => false
  | _ :: ops => tidy kind ops

theorem tidy_program (r : Request) : tidy r.kind (program r) = true := by
  obtain ⟨kind, accepted, carriers, maxCarriers, auto, udp, downgraded⟩ := r
  unfold program
  generalize Request.offersPool _ = offers
  cases kind <;> cases accepted <;> cases offers <;> cases udp <;> cases downgraded <;> rfl

inductive Stands (listed : Prop) : Handler → Prop
  | before {kind ops} (hl : ¬listed) (hops : tidy kind ops = true) : Stands listed ⟨kind, some ops, false⟩
  | exposed {kind ops} (hops : closing kind ops = true) : Stands listed ⟨kind, some ops, false⟩
  | guarded {kind ops} (hops : plain ops = true) : Stands listed ⟨kind, some ops, true⟩
  | returned (kind : Kind) (hl : ¬listed) : Stands listed ⟨kind, none, false⟩

structure Sound (pending : Finset Nat) (h : Nat) (p : Finset Nat × Handler) : Prop where
  stands : Stands (h ∈ p.1) p.2
  others : ∀ j, j ≠ h → (j ∈ p.1 ↔ j ∈ pending)

theorem sound_leave (hg : handler.guard = true ∨ h ∉ pending) : Sound pending h (leave pending h handler) := by
  unfold leave
  cases hb : handler.guard with
  | true => exact ⟨.returned _ (Finset.notMem_erase h pending), fun j hj => by simp [hj]⟩
  | false =>
    rw [hb] at hg
    exact ⟨.returned _ (hg.resolve_left nofun), fun j _ => Iff.rfl⟩

theorem sound_perform (hst : Stands (h ∈ pending) handler) (hr : handler.rest = some ops) :
    Sound pending h (perform pending h handler ops) := by
  fun_cases perform pending h handler ops
  case case1 =>
    refine sound_leave ?_
    cases hst <;> cases hr
    · exact Or.inr ‹_›
    · contradiction
    · exact Or.inl rfl
  case case2 =>
    refine ⟨?_, fun _ _ => Iff.rfl⟩
    cases hst with
    | before hl hops =>
      cases hr
      exact .before hl hops
    | exposed hops =>
      cases hr
      refine .exposed ?_
      unfold closing at hops
      split at hops <;> simp_all [closing]
    | guarded hops =>
      cases hr
      exact .guarded hops
    | returned => cases hr
  case case3 =>
    refine ⟨?_, fun _ _ => Iff.rfl⟩
    cases hst <;> cases hr
    · exact .before ‹_› ‹_›
    · contradiction
    · exact .guarded ‹_›
  case case4 =>
    refine ⟨?_, fun j hj => by simp [hj]⟩
    cases hst <;> cases hr
    · exact .exposed ‹_›
    all_goals contradiction
  case case5 =>
    refine ⟨?_, fun _ _ => Iff.rfl⟩
    cases hst <;> cases hr
    · contradiction
    · exact .guarded ‹_›
    · contradiction
  case case6 => exact ⟨hst, fun _ _ => Iff.rfl⟩

theorem sound_fail {p : Finset Nat × Handler} (hst : Stands (h ∈ pending) handler) (hr : handler.rest = some ops)
    (hok : ∀ rest, ops = .send .carrierToken :: rest → handler.kind = .publicPort ∨ handler.kind = .sshJump)
    (hs : fail pending h handler ops = some p) : Sound pending h p := by
  have hleave : (∃ m rest, ops = .send m :: rest) ∨ (∃ rest, ops = .serve :: rest) → Sound pending h (leave pending h handler) := by
    intro ho
    refine sound_leave ?_
    cases hst with
    | before hl | returned _ hl => exact Or.inr hl
    | exposed hops =>
      cases hr
      unfold closing at hops
      split at hops <;> simp_all
    | guarded => exact Or.inl rfl
  revert hs
  fun_cases fail pending h handler ops
  all_goals rintro ⟨⟩
  case case1 m rest => exact hleave (.inl ⟨m, rest, rfl⟩)
  case case2 rest => exact hleave (.inr ⟨rest, rfl⟩)

/-- Every token in the map belongs to a handler that will come to its guard. -/
def Owned (s : State) : Prop :=
  ∀ h, (s.handlers.get? h).elim (h ∉ s.pendingCarriers) (Stands (h ∈ s.pendingCarriers))

theorem Owned.put {p : Finset Nat × Handler} (ho : Owned s) (hp : Sound s.pendingCarriers h p) : Owned (s.put h p) := by
  intro j
  rw [State.put, Table.get?_insert]
  split
  · rename_i he
    exact he ▸ hp.stands
  · rename_i hj
    rw [propext (hp.others j hj)]
    exact ho j

theorem Owned.running (ho : Owned s) (hr : running s h = some (handler, ops)) :
    Stands (h ∈ s.pendingCarriers) handler ∧ handler.rest = some ops := by
  obtain ⟨x, hg, hr⟩ := bind_eq_some_iff.mp hr
  obtain ⟨_, hx, he⟩ := map_eq_some_iff.mp hr
  cases he
  have hst := ho h
  rw [hg] at hst
  exact ⟨hst, hx⟩

theorem Owned.step {a : Action} (ho : Owned s) (hok : tokenSent s a = true) (hs : step s a = some s') : Owned s' := by
  cases a with
  | accept h r =>
    obtain ⟨hn, hs⟩ := ite_none_left_eq_some.mp hs
    cases hs
    have hst := ho h
    rw [not_isSome_iff_eq_none.mp hn] at hst
    exact ho.put ⟨.before hst (tidy_program r), fun _ _ => Iff.rfl⟩
  | perform =>
    obtain ⟨⟨handler, ops⟩, hr, rfl⟩ := map_eq_some_iff.mp hs
    obtain ⟨hst, hrest⟩ := ho.running hr
    exact ho.put (sound_perform hst hrest)
  | fail =>
    obtain ⟨⟨handler, ops⟩, hr, hs⟩ := bind_eq_some_iff.mp hs
    obtain ⟨p, hp, rfl⟩ := map_eq_some_iff.mp hs
    obtain ⟨hst, hrest⟩ := ho.running hr
    refine ho.put (sound_fail hst hrest (fun rest he => ?_) hp)
    subst he
    simpa only [tokenSent, hr, decide_eq_true_eq] using hok

theorem returned_token_gone (hr : Reaches step (fun s a => tokenSent s a = true) start s)
    (hg : s.handlers.get? h = some handler) (hret : handler.rest = none) : h ∉ s.pendingCarriers := by
  have ho : Owned s := hr.invariant (P := Owned) (fun _ => Finset.notMem_empty _) (fun _ _ _ ho hok hs => ho.step hok hs)
  have hst := ho h
  rw [hg] at hst
  cases hst with
  | returned _ hl => exact hl
  | _ => cases hret

def twoCarriers (kind : Kind) : Request := ⟨kind, true, 2, 4, false, false, false⟩

/-- The peer of a public handler is gone when the token is sent, a vhost
provider disconnects while it is served. -/
def disconnections : List Action :=
  [.accept 1 (twoCarriers .publicPort), .perform 1, .accept 2 (twoCarriers .vhost), .perform 1, .perform 2, .perform 2,
    .perform 1, .perform 2, .fail 1, .perform 2, .fail 2]

theorem returned_token_gone_disconnections : ∃ s : State, (s.handlers.get? 1).map (·.rest) = some none ∧
    (s.handlers.get? 2).map (·.rest) = some none ∧ 1 ∉ s.pendingCarriers ∧ 2 ∉ s.pendingCarriers := by
  obtain ⟨s, hr, hs⟩ := execWhile_observe disconnections (fun s => (s.handlers.get? 1, s.handlers.get? 2))
    (show (execWhile step tokenSent start disconnections).map _ =
      some (some ⟨.publicPort, none, false⟩, some ⟨.vhost, none, false⟩) by decide +kernel)
  obtain ⟨h1, h2⟩ := Prod.mk.inj hs
  exact ⟨s, congrArg _ h1, congrArg _ h2, returned_token_gone hr h1 rfl, returned_token_gone hr h2 rfl⟩

/-- The provider of a secret tunnel is gone when the token is sent: the handler
returns before the guard is built. -/
theorem secret_token_orphaned : ∃ s, Reaches step always start s ∧
    (s.handlers.get? 1).map (·.rest) = some none ∧ 1 ∈ s.pendingCarriers := by
  obtain ⟨s, hr, hs⟩ := exec_observe [Action.accept 1 (twoCarriers .secret), .perform 1, .perform 1, .fail 1]
    (fun s : State => decide ((s.handlers.get? 1).map (·.rest) = some none ∧ 1 ∈ s.pendingCarriers))
    (show (exec step start _).map _ = some true by decide +kernel)
  exact ⟨s, hr, of_decide_eq_true hs⟩

end Bore.CarrierTokens
