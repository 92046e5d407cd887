import Bore.Runs

namespace Bore.DiagnosticPairing

open Runs Function

inductive UdpTestRole
  | listener
  | dialer
  deriving DecidableEq

/-- Where the handler of a peer is: before it looks for a waiting peer, before
it registers itself, waiting until another takes its entry and sends, sending, or
in the relay loop, which it may have left. -/
inductive Phase
  | absent
  | joining
  | alone
  | waiting (taker : Option Nat)
  | holding (other : Nat)
  | started (role : UdpTestRole) (nonce other : Nat) (left : Bool)
  | cancelled
  | gone
  deriving DecidableEq

/-- The handlers of one id. A peer is known by the token of its registration, so
a peer that joins again is another one. A nonce is drawn once; `pairs` has the
listener and the dialer it was drawn for. -/
structure Registry where
  pending : Option Nat
  peers : Nat → Phase
  drawn : Nat
  pairs : Nat → Nat × Nat

inductive Action
  | join (i : Nat)
  | take (i : Nat)
  | insert (i : Nat)
  | send (i : Nat)
  | disconnect (i : Nat)

def step (s : Registry) : Action → Option Registry
  | .join i => if s.peers i = .absent then some { s with peers := update s.peers i .joining } else none
  | .take i =>
    if s.peers i = .joining then
      match s.pending with
      | none => some { s with peers := update s.peers i .alone }
      | some other => some { s with
          pending := none
          peers := update (update s.peers other (.waiting (some i))) i (.holding other) }
    else none
  -- The entry that is replaced takes the sender of its peer's start with it.
  | .insert i =>
    if s.peers i = .alone then
      match s.pending with
      | none => some { s with pending := some i, peers := update s.peers i (.waiting none) }
      | some other => some { s with
          pending := some i
          peers := update (update s.peers other .cancelled) i (.waiting none) }
    else none
  | .send i =>
    match s.peers i with
    | .holding other =>
      if s.peers other = .waiting (some i) then
        some { s with
          drawn := s.drawn + 1
          pairs := update s.pairs s.drawn (other, i)
          peers := 
            update (update s.peers other (.started .listener s.drawn i false)) i (.started .dialer s.drawn other false) }
      else some { s with peers := update s.peers i .alone }
    | _ => none
  | .disconnect i =>
    match s.peers i with
    | .waiting _ =>
      some { s with pending := if s.pending = some i then none else s.pending, peers := update s.peers i .gone }
    | .started role nonce other false => some { s with peers := update s.peers i (.started role nonce other true) }
    | _ => none

def start : Registry := ⟨none, fun _ => .absent, 0, fun _ => (0, 0)⟩

/-- A peer registers itself only where no other is registered. -/
def apart (s : Registry) : Action → Bool
  | .insert _ => s.pending = none
  | _ => true

structure Paired (s : Registry) : Prop where
  kept : ∀ i, s.peers i = .waiting none → s.pending = some i
  taken : ∀ i j, s.peers i = .waiting (some j) → s.peers j = .holding i
  uncancelled : ∀ i, s.peers i ≠ .cancelled
  joined : ∀ i role nonce other left, s.peers i = .started role nonce other left →
    s.pairs nonce = (if role = .listener then (i, other) else (other, i)) ∧
    ∃ left', s.peers other = .started (if role = .listener then .dialer else .listener) nonce i left'

structure Inv (s : Registry) : Prop where
  paired : Paired s
  pending : ∀ i, s.pending = some i → s.peers i = .waiting none
  drawn : ∀ i role nonce other left, s.peers i = .started role nonce other left → nonce < s.drawn

theorem inv_step {s s' : Registry} {a : Action} (h : Inv s) (hok : apart s a = true) (hs : step s a = some s') : Inv s' := by
  obtain ⟨⟨hkept, htaken, huncancelled, hjoined⟩, hpending, hdrawn⟩ := h
  revert hs
  fun_cases step s a
  all_goals rintro ⟨⟩
  -- no entry and no other peer names one that joins or finds nobody
  case case1 | case3 => refine ⟨⟨?_, ?_, ?_, ?_⟩, ?_, ?_⟩ <;> grind [update_apply]
  case case4 other hp =>
    have hother := hpending other hp
    refine ⟨⟨?_, ?_, ?_, ?_⟩, ?_, ?_⟩ <;> grind [update_apply]
  case case6 => refine ⟨⟨?_, ?_, ?_, ?_⟩, ?_, ?_⟩ <;> grind [update_apply]
  case case7 hp => simp [apart, hp] at hok
  -- the nonce is fresh, so the pair that is made meets no earlier one
  case case9 => refine ⟨⟨?_, ?_, ?_, ?_⟩, ?_, ?_⟩ <;> grind [update_apply]
  case case10 | case12 | case13 => refine ⟨⟨?_, ?_, ?_, ?_⟩, ?_, ?_⟩ <;> grind [update_apply]

section Rounds

variable {O : Type}

structure RoundStart (O : Type) where
  generation : UInt32
  nonce : Nat
  peer : O

structure Round (O : Type) where
  generation : UInt32
  nonce : Nat
  latest : Bool → Option O

/-- `queued` is what is in the restart queue of a side, which is closed once its
relay loop has ended. `given` has every start that entered a queue, `fired` the
rounds, both with the newest first. -/
structure RoundBroker (O : Type) where
  generation : UInt32
  offers : Bool → Option O
  queued : Bool → Nat
  closed : Bool → Bool
  drawn : Nat
  latest : Bool → Option O
  given : Bool → List (RoundStart O)
  fired : List (Round O)

inductive Call (O : Type)
  | offer (side : Bool) (o : O)
  | restart (side : Bool)
  | leave (side : Bool)

namespace RoundBroker

variable (b : RoundBroker O)

def new : RoundBroker O :=
  ⟨0, fun _ => none, fun _ => 0, fun _ => false, 0, fun _ => none, fun _ => [], []⟩

def takes (side : Bool) : Bool := !b.closed side && b.queued side < 4

/-- A queue that is full or closed loses the round for its side. -/
def fire (first second : O) : RoundBroker O :=
  let start := fun side => ⟨b.generation + 1, b.drawn, if side then first else second⟩
  { b with
    generation := b.generation + 1
    drawn := b.drawn + 1
    offers := fun _ => none
    queued := fun side => if b.takes side then b.queued side + 1 else b.queued side
    given := fun side => if b.takes side then start side :: b.given side else b.given side
    fired := ⟨b.generation + 1, b.drawn, b.latest⟩ :: b.fired }

def record (side : Bool) (o : O) : RoundBroker O :=
  { b with offers := update b.offers side (some o), latest := update b.latest side (some o) }

def offer (side : Bool) (o : O) : RoundBroker O :=
  match (b.record side o).offers false, (b.record side o).offers true with
  | some first, some second => (b.record side o).fire first second
  | _, _ => b.record side o

def step : Call O → Option (RoundBroker O)
  | .offer side o => if b.closed side then none else some (b.offer side o)
  | .restart side =>
    if b.closed side ∨ b.queued side = 0 then none
    else some { b with queued := update b.queued side (b.queued side - 1) }
  | .leave side => some { b with queued := update b.queued side 0, closed := update b.closed side true }

/-- The offer that completes a round finds both sides there, with room for it. -/
def roomy : Call O → Bool
  | .offer side _ => (b.offers !side).isNone || b.takes false && b.takes true
  | .restart _ | .leave _ => true

/-- Each side was given every round, with what the other side had offered last. -/
def GivenAll : Prop :=
  ∀ side, List.Forall₂ (fun start r => start.generation = r.generation ∧ start.nonce = r.nonce ∧
    r.latest (!side) = some start.peer) (b.given side) b.fired

/-- Nonces are new, and so are generations until their counter wraps. -/
structure Brokered (b : RoundBroker O) : Prop where
  given : b.GivenAll
  newer : b.fired.Pairwise fun r earlier => earlier.nonce < r.nonce ∧
    (b.fired.length < 2 ^ 32 → earlier.generation < r.generation)

structure Inv (b : RoundBroker O) : Prop where
  given : b.GivenAll
  numbered : b.fired.map (fun r => (r.nonce, r.generation)) =
    (List.range b.drawn).reverse.map (fun n => (n, UInt32.ofNat (n + 1)))
  next : b.generation = UInt32.ofNat b.drawn
  latest : ∀ side o, b.offers side = some o → b.latest side = some o

theorem Inv.brokered {b : RoundBroker O} (h : Inv b) : Brokered b := by
  refine ⟨h.given, ?_⟩
  have hlen : b.fired.length = b.drawn := by simpa using congrArg List.length h.numbered
  have hnumbers : (b.fired.map (fun r => (r.nonce, r.generation))).Pairwise
      (fun p q => q.1 < p.1 ∧ (b.fired.length < 2 ^ 32 → q.2 < p.2)) := by
    rw [h.numbered, hlen, List.pairwise_map, List.pairwise_reverse]
    refine List.pairwise_lt_range.imp_of_mem fun {m n} _ hn hlt => ⟨hlt, fun hsmall => ?_⟩
    have hn := List.mem_range.mp hn
    rw [UInt32.lt_iff_toNat_lt, UInt32.toNat_ofNat_of_lt' (show m + 1 < 2 ^ 32 by omega),
      UInt32.toNat_ofNat_of_lt' (show n + 1 < 2 ^ 32 by omega)]
    omega
  exact List.pairwise_map.mp hnumbers

theorem Inv.record {b : RoundBroker O} (h : Inv b) (side : Bool) (o : O) : Inv (b.record side o) := by
  refine ⟨h.given, h.numbered, h.next, fun other o' hother => ?_⟩
  simp only [RoundBroker.record, update_apply] at hother ⊢
  split
  · rwa [if_pos ‹_›] at hother
  · rw [if_neg ‹_›] at hother
    exact h.latest other o' hother

theorem Inv.fire {b : RoundBroker O} (h : Inv b) (hroom : ∀ side, b.takes side = true) {first second : O}
    (hfirst : b.offers false = some first) (hsecond : b.offers true = some second) : Inv (b.fire first second) := by
  have hgeneration : b.generation + 1 = UInt32.ofNat (b.drawn + 1) := by
    rw [h.next, UInt32.ofNat_add]
    rfl
  refine ⟨fun side => ?_, ?_, hgeneration, by rintro _ _ ⟨⟩⟩
  · simp only [RoundBroker.fire, hroom, if_true]
    refine .cons ⟨rfl, rfl, ?_⟩ (h.given side)
    cases side
    · exact h.latest true second hsecond
    · exact h.latest false first hfirst
  · simp only [RoundBroker.fire, List.range_succ, List.reverse_append, List.reverse_singleton, List.singleton_append,
      List.map_cons, hgeneration, h.numbered]

theorem Inv.offer {b : RoundBroker O} (h : Inv b) {side : Bool} {o : O} (hok : b.roomy (.offer side o) = true) :
    Inv (b.offer side o) := by
  rw [RoundBroker.offer]
  split
  · rename_i first second hfirst hsecond
    have hpeer : (b.offers !side).isNone = false := by
      cases side <;> simp_all [RoundBroker.record]
    simp only [roomy, hpeer, Bool.false_or, Bool.and_eq_true] at hok
    refine (h.record side o).fire (fun other => ?_) hfirst hsecond
    cases other
    · exact hok.1
    · exact hok.2
  · exact h.record side o

theorem inv_step {b b' : RoundBroker O} {c : Call O} (h : Inv b) (hok : roomy b c = true)
    (hs : step b c = some b') : Inv b' := by
  revert hs
  fun_cases step b c
  all_goals rintro ⟨⟩
  case case2 => exact h.offer hok
  case case4 | case5 => exact ⟨h.given, h.numbered, h.next, h.latest⟩

end RoundBroker

end Rounds

/-- A waiting peer keeps its entry until it is taken, pairs are made of a
listener and a dialer with a nonce of their own, and each round reaches both
sides, where no peer registers itself over another and each round finds both
sides there, with room for it. -/
theorem diagnostics_pair_up {O : Type} :
    (∀ s, Reaches step (fun s a => apart s a = true) start s → Paired s) ∧
    ∀ b : RoundBroker O, Reaches RoundBroker.step (fun b c => b.roomy c = true) .new b → b.Brokered := by
  constructor
  · intro s hr
    refine (hr.invariant (P := Inv) ?_ fun _ _ _ h hok hs => inv_step h hok hs).paired
    refine ⟨⟨?_, ?_, ?_, ?_⟩, ?_, ?_⟩ <;> simp [start]
  · intro b hr
    refine (hr.invariant (P := RoundBroker.Inv) ?_ fun _ _ _ h hok hs => RoundBroker.inv_step h hok hs).brokered
    exact ⟨fun _ => .nil, rfl, rfl, by rintro _ _ ⟨⟩⟩

theorem diagnostics_pair_up_twice :
    (∃ s, Reaches step (fun s a => apart s a = true) start s ∧
      (s.peers 0, s.peers 2, s.pending) = (.started .listener 0 2 true, .started .dialer 0 0 false, some 1) ∧ Paired s) ∧
    ∃ b : RoundBroker Nat, Reaches RoundBroker.step (fun b c => b.roomy c = true) .new b ∧
      (b.given false).map (fun start => (start.generation, start.peer)) = [(2, 21), (1, 20)] ∧ b.Brokered := by
  constructor
  · exact execWhile_shows [.join 0, .take 0, .join 1, .insert 0, .join 2, .take 2, .take 1, .send 2, .insert 1, .disconnect 0]
      _ (by decide +kernel) fun s hr _ => (diagnostics_pair_up (O := Unit)).1 s hr
  · exact execWhile_shows [.offer false 10, .offer true 20, .offer true 20, .restart false, .offer true 21, .offer false 11]
      _ (by decide +kernel) fun b hr _ => diagnostics_pair_up.2 b hr

/-- Two peers that find nobody register themselves: the second takes the place
of the first, whose wait is cancelled. A side that reads nothing loses a round, and
so does one that has left. -/
theorem arrival_cancels_wait :
    (∃ s, Reaches step always start s ∧ (s.peers 0, s.peers 1) = (.cancelled, .waiting none)) ∧
    (∃ b : RoundBroker Unit, Reaches RoundBroker.step always .new b ∧
      ((b.given false).length, (b.given true).length) = (4, 5)) ∧
    ∃ b : RoundBroker Unit, Reaches RoundBroker.step always .new b ∧
      ((b.given false).length, (b.given true).length) = (0, 1) := by
  refine ⟨?_, ?_, ?_⟩
  · exact exec_observe [.join 0, .join 1, .take 0, .take 1, .insert 0, .insert 1] _ (by decide +kernel)
  · let round : List (Call Unit) := [.offer false (), .offer true (), .restart true]
    exact exec_observe (round ++ round ++ round ++ round ++ round) _ (by decide +kernel)
  · exact exec_observe [.offer false (), .leave false, .offer true ()] _ (by decide +kernel)

end Bore.DiagnosticPairing
