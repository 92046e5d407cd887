import Bore.RegistryCapacity

namespace Bore.RegistrySplices

open List

open RegistryTypes RegistryRelay RegistryPermits RegistrySystem RegistrySteps RegistryTasks RegistrySections
  RegistryCapacity RegistrySlots RegistryTerminal Runs

variable {cfg : Config} {l : Ledger}

structure Leg where
  room : RoomRef
  attach : RelayAttach
  grant : RelayTicketRecord

structure Splice where
  key : RelayKey
  parked : Nat
  second : Option Nat
  deriving DecidableEq

/-- The registry with the history of its relay sockets: each one that was
accepted, the record its join found, the socket handed over to a parked one,
and the pairs that were activated. -/
structure Ledger where
  system : System
  legs : Nat → Option Leg
  found : Nat → Option TransferRecord
  partner : Nat → Option Nat
  splices : List Splice

def enter {V : Type} (f : Nat → Option V) : Option (Nat × V) → Nat → Option V
  | some (i, v) => Function.update f i (some v)
  | none => f

variable {V : Type} {event : Option (Nat × V)}

theorem enter_some {f : Nat → Option V} {i : Nat} {v : V}
    (h : enter f event i = some v) : f i = some v ∨ event = some (i, v) := by
  cases event with
  | none => exact .inl h
  | some e =>
    obtain ⟨j, w⟩ := e
    rw [enter, Function.update_apply] at h
    split at h
    · subst ‹i = j›
      cases h
      exact .inr rfl
    · exact .inl h

theorem enter_self (f : Nat → Option V) (i : Nat) (v : V) : enter f (some (i, v)) i = some v := by
  rw [enter, Function.update_self]

theorem enter_of_ne (f : Nat → Option V) {i : Nat} (h : ∀ v, event ≠ some (i, v)) : enter f event i = f i := by
  cases event with
  | none => rfl
  | some e =>
    obtain ⟨j, w⟩ := e
    refine Function.update_of_ne ?_ _ _
    rintro rfl
    exact h w rfl

section Events

variable (cfg : Config) (l : Ledger)

def Ledger.acceptance : Action → Option (Nat × Leg)
  | .call room now (.attach attach) =>
    if (joinConsume cfg now attach l.system.inner).2 then
      (l.system.inner.tickets.get? (cfg.ticketHash attach.ticket)).map (fun grant =>
        (l.system.nextTask, ⟨room, attach, grant⟩))
    else none
  | _ => none

def Ledger.join : Action → Option (Nat × TransferRecord)
  | .resume i _ .go =>
    match l.system.tasks.get? i with
    | some (.legAttached room attach) =>
      if (joinCheck attach (l.system.scope room)).isSome then
        (l.system.record? room attach.transferId).map (fun r => (i, r))
      else none
    | _ => none
  | _ => none

def Ledger.handover : Action → Option (Nat × Nat)
  | .resume i _ .go =>
    match l.system.tasks.get? i with
    | some (.legHandoff _ _ parked) =>
      match l.system.tasks.get? parked with
      | some (.legParked _ _ _) => some (parked, i)
      | _ => none
    | _ => none
  | _ => none

def Ledger.activation : Action → Option Splice
  | .resume i _ .go =>
    match l.system.tasks.get? i with
    | some (.legPaired key _ _) =>
      if (activateRelay key.transfer key.attempt (l.system.scope key.room)).2.isSome then
        some ⟨key, i, l.partner i⟩
      else none
    | _ => none
  | _ => none

def Ledger.after (a : Action) (s : System) : Ledger :=
  ⟨s, enter l.legs (l.acceptance cfg a), enter l.found (l.join a), enter l.partner (l.handover a),
    l.splices ++ (l.activation a).toList⟩

def ledgerStep (a : Action) : Option Ledger := (step cfg l.system a).map (l.after cfg a)

end Events

def ledgerStart (cfg : Config) (maxPeersGlobal : Nat) (relayOnly : RoomRef → Bool) : Ledger :=
  ⟨initial cfg maxPeersGlobal relayOnly, fun _ => none, fun _ => none, fun _ => none, []⟩

/-- What a step draws was never used: its attempt identifier in no attempt that
is alive or was activated, its tickets by no socket. -/
structure NeverUsed (cfg : Config) (l : Ledger) (a : Action) : Prop where
  draw : FreshDraw l.system a
  activated : ∀ draw, Action.attemptDraw a = some draw → ∀ splice ∈ l.splices, splice.key.attempt ≠ draw
  tickets : ∀ pair, pairOf a = some pair → ∀ i leg, l.legs i = some leg →
    cfg.ticketHash leg.attach.ticket ≠ cfg.ticketHash pair.first ∧
      cfg.ticketHash leg.attach.ticket ≠ cfg.ticketHash pair.second

/-- The record waits for the relay on the attempt of the socket, and the socket
is that of the party whose role it takes. -/
structure Joined (r : TransferRecord) (attach : RelayAttach) : Prop where
  waiting : r.state = .waitingRelay
  current : r.attemptId = some attach.attemptId
  party : (match attach.role with | .source => r.source | .recipient => r.recipient) = attach.peerId

/-- The ticket was stored with this grant while the record it is for waited for
the relay on its attempt. -/
def Issued (cfg : Config) (start s : System) (ticket : RelayTicket) (grant : RelayTicketRecord) : Prop :=
  ∃ u room, Reaches (step cfg) always start u ∧ Reaches (step cfg) always u s ∧
    u.inner.tickets.get? (cfg.ticketHash ticket) = some grant ∧ Granted (u.scope room) grant

structure Accepted (cfg : Config) (start s : System) (leg : Leg) : Prop where
  issued : Issued cfg start s leg.attach.ticket leg.grant
  transferId : leg.grant.transferId = leg.attach.transferId
  attemptId : leg.grant.attemptId = leg.attach.attemptId
  role : leg.grant.role = leg.attach.role
  peerId : leg.grant.peerId = leg.attach.peerId

structure Matched (l : Ledger) (key : RelayKey) (i j : Nat) : Prop where
  legs : ∃ a b, l.legs i = some a ∧ l.legs j = some b ∧ a.room = key.room ∧ b.room = key.room ∧
    (a.attach.transferId, a.attach.attemptId) = (key.transfer, key.attempt) ∧
    (b.attach.transferId, b.attach.attemptId) = (key.transfer, key.attempt) ∧ a.attach.role ≠ b.attach.role ∧
    (∃ r, l.found i = some r ∧ Joined r a.attach) ∧ ∃ r, l.found j = some r ∧ Joined r b.attach

def legOf : Task → Option (RoomRef × RelayAttach)
  | .legAttached room attach | .legEntering room attach _ | .legParked room attach _ | .legHandoff room attach _ =>
    some (room, attach)
  | _ => none

def joinedLeg : Task → Option (RoomRef × RelayAttach)
  | .legEntering room attach _ | .legParked room attach _ | .legHandoff room attach _ => some (room, attach)
  | _ => none

structure LedgerInv (cfg : Config) (start : System) (l : Ledger) : Prop where
  reach : Reaches (step cfg) always start l.system
  bounded : ∀ i task, l.system.tasks.get? i = some task → i < l.system.nextTask
  accepted : ∀ i leg, l.legs i = some leg → i < l.system.nextTask ∧ Accepted cfg start l.system leg
  gone : ∀ i leg, l.legs i = some leg → l.system.inner.tickets.get? (cfg.ticketHash leg.attach.ticket) = none
  once : ∀ i j leg leg', l.legs i = some leg → l.legs j = some leg' →
    cfg.ticketHash leg.attach.ticket = cfg.ticketHash leg'.attach.ticket → i = j
  socket : ∀ i task room attach, l.system.tasks.get? i = some task → legOf task = some (room, attach) →
    ∃ leg, l.legs i = some leg ∧ leg.room = room ∧ leg.attach = attach
  unseen : ∀ i room attach, l.system.tasks.get? i = some (.legAttached room attach) → l.found i = none
  unborn : ∀ i, l.system.nextTask ≤ i → l.found i = none
  joined : ∀ i task room attach, l.system.tasks.get? i = some task → joinedLeg task = some (room, attach) →
    ∃ r, l.found i = some r ∧ Joined r attach
  unique : NamesUnique l.system
  placed : ∀ i task room attach, l.system.tasks.get? i = some task → joinedLeg task = some (room, attach) →
    ∀ room' id r, l.system.record? room' id = some r → names r attach.attemptId → room' = room
  agree : ∀ i j task task' room room' attach attach', l.system.tasks.get? i = some task →
    l.system.tasks.get? j = some task' → joinedLeg task = some (room, attach) →
    joinedLeg task' = some (room', attach') → attach.attemptId = attach'.attemptId → room = room'
  waiter : ∀ key w, l.system.inner.relayWaiters.get? key = some w → ∃ leg, l.legs w.leg = some leg ∧
    (leg.attach.transferId, leg.attach.attemptId) = key ∧ leg.attach.role = w.firstRole
  handoff : ∀ i room attach parked, l.system.tasks.get? i = some (.legHandoff room attach parked) →
    ∃ leg, l.legs parked = some leg ∧
      (leg.attach.transferId, leg.attach.attemptId) = (attach.transferId, attach.attemptId) ∧
      leg.attach.role ≠ attach.role
  paired : ∀ i key source recipient, l.system.tasks.get? i = some (.legPaired key source recipient) →
    ∃ j, l.partner i = some j ∧ Matched l key i j
  spliced : ∀ splice ∈ l.splices, ∃ j, splice.second = some j ∧ Matched l splice.key splice.parked j
  keys : (l.splices.map Splice.key).Nodup
  spent : ∀ splice ∈ l.splices, Spent l.system splice.key
  pumps : ∀ i task key, l.system.tasks.get? i = some task → taskPair task = some key →
    ∃ splice ∈ l.splices, splice.key = key ∧ splice.parked = i

section Steps

variable {start : System} {l' : Ledger} {a : Action}
variable {attach : RelayAttach} {now : Instant} {grant : RelayTicketRecord} {i j : Nat} {r : TransferRecord}
  {s s' : System} {task : Task} {room : RoomRef}

variable {cancel : Token}

theorem joinCheck_joined {sc : Scope} (h : joinCheck attach sc = some cancel) :
    ∃ r, sc.record? attach.transferId = some r ∧ Joined r attach := by
  rw [joinCheck] at h
  cases hr : sc.record? attach.transferId with
  | none =>
    rw [hr] at h
    cases h
  | some r =>
    refine ⟨r, rfl, ?_⟩
    cases hrole : attach.role <;>
    · simp only [hr, hrole, Bool.and_eq_true, decide_eq_true_eq, beq_iff_eq, ite_eq_iff, reduceCtorEq, and_false,
        or_false] at h
      obtain ⟨⟨⟨hwaiting, hcurrent⟩, hparty⟩, _⟩ := h
      refine ⟨hwaiting, hcurrent, ?_⟩
      rw [hrole]
      exact hparty

variable {inner : RegistryInner}

theorem joinConsume_accepted (hg : inner.tickets.get? (cfg.ticketHash attach.ticket) = some grant)
    (h : (joinConsume cfg now attach inner).2 = true) :
    grant.transferId = attach.transferId ∧ grant.attemptId = attach.attemptId ∧ grant.role = attach.role ∧
      grant.peerId = attach.peerId := by
  rw [joinConsume, consumeRelayTicket, hg] at h
  dsimp only at h
  split at h
  · cases h
  rename_i hc
  split at hc
  · cases hc
  split at hc
  · cases hc
  rename_i hne
  cases hc
  simp only [Bool.or_eq_true, decide_eq_true_eq, not_or, ne_eq, not_not] at hne
  simp only [Bool.and_eq_true, beq_iff_eq] at h
  exact ⟨h.1.symm, h.2.symm, hne.1, hne.2⟩

theorem joinConsume_spends :
    (joinConsume cfg now attach inner).1.tickets.get? (cfg.ticketHash attach.ticket) = none := by
  have hconsume : (consumeRelayTicket cfg now attach.ticket attach.role attach.peerId inner).1.tickets.get?
      (cfg.ticketHash attach.ticket) = none := by
    rw [consumeRelayTicket]
    split
    · assumption
    repeat' split
    all_goals
      rw [Table.get?_erase, if_pos rfl]
  rw [joinConsume]
  split <;>
  · rename_i he
    rw [he] at hconsume
    exact hconsume

theorem acceptance_some {leg : Leg} (h : l.acceptance cfg a = some (i, leg)) :
    i = l.system.nextTask ∧ ∃ now, a = .call leg.room now (.attach leg.attach) ∧
      (joinConsume cfg now leg.attach l.system.inner).2 = true ∧
      l.system.inner.tickets.get? (cfg.ticketHash leg.attach.ticket) = some leg.grant := by
  rw [Ledger.acceptance.eq_def] at h
  split at h
  · rename_i now _
    split at h
    · rename_i hok
      obtain ⟨grant, hg, he⟩ := Option.map_eq_some_iff.mp h
      cases he
      exact ⟨rfl, now, rfl, hok, hg⟩
    · cases h
  · cases h

theorem join_some (h : l.join a = some (i, r)) :
    ∃ now room attach cancel, a = .resume i now .go ∧ l.system.tasks.get? i = some (.legAttached room attach) ∧
      joinCheck attach (l.system.scope room) = some cancel := by
  rw [Ledger.join.eq_def] at h
  split at h
  · split at h
    · rename_i now _ room attach hi
      split at h
      · rename_i hok
        obtain ⟨_, _, he⟩ := Option.map_eq_some_iff.mp h
        cases he
        obtain ⟨cancel, hcheck⟩ := Option.isSome_iff_exists.mp hok
        exact ⟨now, room, attach, cancel, rfl, hi, hcheck⟩
      · cases h
    · cases h
  · cases h

theorem handover_some {parked : Nat} (h : l.handover a = some (parked, j)) :
    ∃ room attach cancel, l.system.tasks.get? parked = some (.legParked room attach cancel) := by
  rw [Ledger.handover.eq_def] at h
  split at h
  · split at h
    · split at h
      all_goals cases h
      exact ⟨_, _, _, ‹_›⟩
    · cases h
  · cases h

variable {splice : Splice}

theorem activation_some (h : l.activation a = some splice) :
    ∃ now source recipient, a = .resume splice.parked now .go ∧
      l.system.tasks.get? splice.parked = some (.legPaired splice.key source recipient) ∧
      splice.second = l.partner splice.parked ∧
      (activateRelay splice.key.transfer splice.key.attempt (l.system.scope splice.key.room)).2.isSome = true := by
  rw [Ledger.activation.eq_def] at h
  split at h
  · split at h
    · rename_i now _ _ source recipient hi
      split at h
      all_goals cases h
      exact ⟨now, source, recipient, rfl, hi, rfl, ‹_›⟩
    · cases h
  · cases h

variable {ticket : RelayTicket}

theorem issued_later {u : System}
    (h : Issued cfg u s ticket grant) (hs : Reaches (step cfg) always s s') : Issued cfg u s' ticket grant := by
  obtain ⟨w, room, huw, hws, hget, hgranted⟩ := h
  exact ⟨w, room, huw, hws.trans hs, hget, hgranted⟩

theorem tickets_issued (hreach : Reaches (step cfg) always start s)
    (hstart : ∀ hash, start.inner.tickets.get? hash = none)
    (ht : s.inner.tickets.get? (cfg.ticketHash ticket) = some grant) : Issued cfg start s ticket grant := by
  induction hreach with
  | refl =>
    rw [hstart] at ht
    cases ht
  | @tail u v hu hm ih =>
    obtain ⟨b, _, hstep⟩ := hm
    have hv : Reaches (step cfg) always start v := hu.tail ⟨b, trivial, hstep⟩
    rcases step_tickets hstep ht with hold | ⟨⟨room, hgranted⟩, _⟩
    · exact issued_later (ih hold) (Reaches.tail .refl trivial hstep)
    · exact ⟨v, room, hv, .refl, ht, hgranted⟩

structure Extends (l l' : Ledger) : Prop where
  legs : ∀ i leg, l.legs i = some leg → l'.legs i = some leg
  found : ∀ i r, l.found i = some r → l'.found i = some r

variable {key : RelayKey}

theorem matched_extends (h : Matched l key i j) (he : Extends l l') : Matched l' key i j := by
  obtain ⟨a, b, ha, hb, hra, hrb, hka, hkb, hrole, ⟨r, hr, hjr⟩, q, hq, hjq⟩ := h.legs
  exact ⟨a, b, he.legs i a ha, he.legs j b hb, hra, hrb, hka, hkb, hrole, ⟨r, he.found i r hr, hjr⟩,
    q, he.found j q hq, hjq⟩

theorem joinedLeg_origin (h : step cfg s a = some s') (hi : s'.tasks.get? i = some task) (hj : joinedLeg task = some (room, attach)) :
    (∃ old, s.tasks.get? i = some old ∧ joinedLeg old = some (room, attach)) ∨
      (∃ now, a = .resume i now .go) ∧ s.tasks.get? i = some (.legAttached room attach) ∧
        ∃ cancel, joinCheck attach (s.scope room) = some cancel := by
  rcases step_tasks h i task hi with hold | hcame
  · exact .inl ⟨task, hold, hj⟩
  cases task with
  | legEntering _ _ cancel =>
    cases hj
    obtain ⟨hold, hgo, hcheck⟩ := hcame
    exact .inr ⟨hgo, hold, cancel, hcheck⟩
  | legParked =>
    cases hj
    exact .inl ⟨_, hcame, rfl⟩
  | legHandoff =>
    cases hj
    obtain ⟨cancel, _, hold, _⟩ := hcame
    exact .inl ⟨_, hold, rfl⟩
  | _ => cases hj

theorem legOf_of_joinedLeg {leg : RoomRef × RelayAttach} (h : joinedLeg task = some leg) : legOf task = some leg := by
  cases task <;> first | exact h | cases h

theorem legOf_cases (h : legOf task = some (room, attach)) :
    task = .legAttached room attach ∨ joinedLeg task = some (room, attach) := by
  cases task <;> first | exact .inr h | cases h
  exact .inl rfl

theorem legOf_origin (h : step cfg s a = some s') (hi : s'.tasks.get? i = some task) (hj : legOf task = some (room, attach)) :
    (∃ old, s.tasks.get? i = some old ∧ legOf old = some (room, attach)) ∨
      i = s.nextTask ∧ ∃ now, a = .call room now (.attach attach) ∧ (joinConsume cfg now attach s.inner).2 = true := by
  rcases legOf_cases hj with rfl | hj
  · rcases step_tasks h i _ hi with hold | ⟨now, ha, hnew, hok⟩
    · exact .inl ⟨_, hold, rfl⟩
    · exact .inr ⟨hnew, now, ha, hok⟩
  · rcases joinedLeg_origin h hi hj with ⟨old, hold, hj⟩ | ⟨-, hold, -⟩
    · exact .inl ⟨old, hold, legOf_of_joinedLeg hj⟩
    · exact .inl ⟨_, hold, rfl⟩

theorem attach_step
    (h : step cfg s (.call room now (.attach attach)) = some s') (hok : (joinConsume cfg now attach s.inner).2 = true) :
    s'.nextTask = s.nextTask + 1 ∧ s'.inner = (joinConsume cfg now attach s.inner).1 := by
  cases hj : joinConsume cfg now attach s.inner with
  | mk =>
    rw [hj] at hok
    cases hok
    simp only [step, callStep, hj, Option.some.injEq] at h
    subst h
    exact ⟨rfl, rfl⟩

theorem accepted_new {leg : Leg} (hs : step cfg l.system a = some s') (hl : LedgerInv cfg start l)
    (hstart : ∀ hash, start.inner.tickets.get? hash = none) (h : l.acceptance cfg a = some (i, leg)) :
    i < s'.nextTask ∧ Accepted cfg start s' leg ∧
      s'.inner.tickets.get? (cfg.ticketHash leg.attach.ticket) = none := by
  obtain ⟨rfl, now, rfl, hok, hget⟩ := acceptance_some h
  obtain ⟨hn, hinner⟩ := attach_step hs hok
  obtain ⟨htransfer, hattempt, hrole, hpeer⟩ := joinConsume_accepted hget hok
  have hissued := issued_later (tickets_issued hl.reach hstart hget) (Reaches.tail .refl trivial hs)
  refine ⟨?_, ⟨hissued, htransfer, hattempt, hrole, hpeer⟩, ?_⟩
  · rw [hn]
    exact Nat.lt_succ_self _
  · rw [hinner]
    exact joinConsume_spends

theorem join_step (hs : step cfg l.system a = some s') (h : l.join a = some (i, r)) :
    ∃ room attach cancel, s'.tasks.get? i = some (.legEntering room attach cancel) := by
  obtain ⟨now, room, attach, cancel, rfl, hi, hcheck⟩ := join_some h
  simp only [step, hi, Option.bind_some, resumeStep, relayStep, hcheck, Option.some.injEq] at hs
  refine ⟨room, attach, cancel, ?_⟩
  rw [← hs, System.suspend]
  exact Table.get?_insert_self _ _ _

theorem joinedLeg_mentioned
    (hi : s.tasks.get? i = some task) (hleg : joinedLeg task = some (room, attach)) : Mentioned s attach.attemptId := by
  refine .inr (.inr (.inl ⟨i, task, attach.transferId, hi, ?_⟩))
  cases task <;> cases hleg <;> rfl

theorem matched_new (hl : LedgerInv cfg start l) {room' : RoomRef} {first second : RelayAttach}
    (hi : l.system.tasks.get? i = some (.legParked room first cancel))
    (hj : l.system.tasks.get? j = some (.legHandoff room' second i)) : Matched l (attachKey room first) i j := by
  obtain ⟨leg, hleg, hroom, rfl⟩ := hl.socket i _ room first hi rfl
  obtain ⟨leg', hleg', hroom', rfl⟩ := hl.socket j _ room' second hj rfl
  obtain ⟨leg₀, hleg₀, hkey, hrole⟩ := hl.handoff j room' leg'.attach i hj
  rw [hleg] at hleg₀
  cases hleg₀
  have hagree := hl.agree i j _ _ room room' _ _ hi hj rfl rfl (Prod.mk.inj hkey).2
  exact ⟨leg, leg', hleg, hleg', hroom, hroom'.trans hagree.symm, rfl, hkey.symm, hrole,
    hl.joined i _ room leg.attach hi rfl, hl.joined j _ room' leg'.attach hj rfl⟩

theorem activation_newPair (h : l.activation a = some splice) : NewPair l.system a splice.parked splice.key := by
  obtain ⟨now, source, recipient, ha, htask, _, hok⟩ := activation_some h
  obtain ⟨cancel, hcancel⟩ := Option.isSome_iff_exists.mp hok
  exact ⟨⟨source, recipient, htask⟩, ⟨now, ha⟩, activateRelay_some (Prod.ext rfl hcancel)⟩

theorem newPair_activation (h : NewPair l.system a i key) : l.activation a = some ⟨key, i, l.partner i⟩ := by
  obtain ⟨⟨source, recipient, htask⟩, ⟨now, rfl⟩, r, hr, hst, hattempt⟩ := h
  have hr' : (l.system.scope key.room).record? key.transfer = some r := hr
  rw [Ledger.activation, htask]
  dsimp only
  rw [if_pos]
  rw [activateRelay, hr']
  dsimp only
  rw [hst, hattempt]
  simp

variable {task' : Task} {room' : RoomRef} {attach' : RelayAttach} {leg leg' : Leg}
variable (hl : LedgerInv cfg start l)
include hl

theorem ledger_extends (a : Action) (s' : System) : Extends l (l.after cfg a s') := by
  constructor
  · intro i leg hi
    refine (enter_of_ne _ ?_).trans hi
    intro leg' hacc
    exact Nat.ne_of_lt (hl.accepted i leg hi).1 (acceptance_some hacc).1
  · intro i r hi
    refine (enter_of_ne _ ?_).trans hi
    intro r' hjoin
    obtain ⟨_, room, attach, _, _, htask, _⟩ := join_some hjoin
    rw [hl.unseen i room attach htask] at hi
    cases hi

theorem ledger_once (hi : (l.after cfg a s').legs i = some leg) (hj : (l.after cfg a s').legs j = some leg')
    (hash : cfg.ticketHash leg.attach.ticket = cfg.ticketHash leg'.attach.ticket) : i = j := by
  rcases enter_some hi with hold | hnew <;> rcases enter_some hj with hold' | hnew'
  · exact hl.once i j leg leg' hold hold' hash
  · obtain ⟨_, _, _, _, hget⟩ := acceptance_some hnew'
    rw [← hash, hl.gone i leg hold] at hget
    cases hget
  · obtain ⟨_, _, _, _, hget⟩ := acceptance_some hnew
    rw [hash, hl.gone j leg' hold'] at hget
    cases hget
  · exact (acceptance_some hnew).1.trans (acceptance_some hnew').1.symm

theorem ledger_keys : ((l.after cfg a s').splices.map Splice.key).Nodup := by
  rw [Ledger.after]
  cases hact : l.activation a with
  | none =>
    rw [Option.toList_none, append_nil]
    exact hl.keys
  | some =>
    rw [Option.toList_some, map_append, map_singleton, nodup_append]
    refine ⟨hl.keys, nodup_singleton _, ?_⟩
    rintro key hold _ hnew rfl
    cases mem_singleton.mp hnew
    obtain ⟨splice', hmem, hkey⟩ := mem_map.mp hold
    obtain ⟨_, _, r, hr, hst, hattempt⟩ := activation_newPair hact
    have hpast := hl.spent splice' hmem
    rw [hkey] at hpast
    rcases hpast r hr hattempt with hp | hp | hp <;> rw [hst] at hp <;> cases hp

theorem ledger_spliced (hm : splice ∈ (l.after cfg a s').splices) : ∃ j, splice.second = some j ∧ Matched
    (l.after cfg a s') splice.key splice.parked j := by
  have hext := ledger_extends hl a s'
  rcases mem_append.mp hm with hold | hnew
  · obtain ⟨j, hj, hmatched⟩ := hl.spliced splice hold
    exact ⟨j, hj, matched_extends hmatched hext⟩
  · obtain ⟨_, source, recipient, _, htask, hsecond, _⟩ := activation_some (Option.mem_toList.mp hnew)
    obtain ⟨j, hj, hmatched⟩ := hl.paired _ _ source recipient htask
    exact ⟨j, hsecond.trans hj, matched_extends hmatched hext⟩

variable (h : step cfg l.system a = some s')
include h

theorem ledger_accepted (hstart : ∀ hash, start.inner.tickets.get? hash = none)
    (hi : (l.after cfg a s').legs i = some leg) : i < s'.nextTask ∧ Accepted cfg start s' leg := by
  rcases enter_some hi with hold | hnew
  · obtain ⟨hlt, hacc⟩ := hl.accepted i leg hold
    exact ⟨Nat.lt_of_lt_of_le hlt (step_taskStep h).nextTask_le, { hacc with
      issued := issued_later hacc.issued (Reaches.tail .refl trivial h) }⟩
  · obtain ⟨hlt, hacc, _⟩ := accepted_new h hl hstart hnew
    exact ⟨hlt, hacc⟩

theorem ledger_gone (hu : NeverUsed cfg l a) (hstart : ∀ hash, start.inner.tickets.get? hash = none)
    (hi : (l.after cfg a s').legs i = some leg) : s'.inner.tickets.get? (cfg.ticketHash leg.attach.ticket) = none := by
  rcases enter_some hi with hold | hnew
  · cases ht : s'.inner.tickets.get? (cfg.ticketHash leg.attach.ticket) with
    | none => rfl
    | some =>
      rcases step_tickets h ht with hbefore | ⟨_, pair, hpair, hfirst | hsecond⟩
      · rw [hl.gone i leg hold] at hbefore
        cases hbefore
      · exact absurd hfirst (hu.tickets pair hpair i leg hold).1
      · exact absurd hsecond (hu.tickets pair hpair i leg hold).2
  · exact (accepted_new h hl hstart hnew).2.2

theorem ledger_socket (hi : s'.tasks.get? i = some task) (hleg : legOf task = some (room, attach)) : ∃ leg,
    (l.after cfg a s').legs i = some leg ∧ leg.room = room ∧ leg.attach = attach := by
  rcases legOf_origin h hi hleg with ⟨old, hold, hleg'⟩ | ⟨rfl, now, rfl, hok⟩
  · obtain ⟨leg, hlegs, hroom, hattach⟩ := hl.socket i old room attach hold hleg'
    exact ⟨leg, (ledger_extends hl _ s').legs i leg hlegs, hroom, hattach⟩
  obtain ⟨grant, hget, _⟩ := joinConsume_true hok
  refine ⟨⟨room, attach, grant⟩, ?_, rfl, rfl⟩
  rw [Ledger.after, Ledger.acceptance, if_pos hok, hget]
  exact enter_self _ _ _

theorem ledger_unseen (hi : s'.tasks.get? i = some (.legAttached room attach)) : (l.after cfg a s').found i = none := by
  refine (enter_of_ne _ ?_).trans ?_
  · intro r hjoin
    obtain ⟨room', attach', cancel, hi'⟩ := join_step h hjoin
    rw [hi] at hi'
    cases hi'
  · rcases step_tasks h i _ hi with hold | ⟨_, _, rfl, _⟩
    · exact hl.unseen i room attach hold
    · exact hl.unborn _ (Nat.le_refl _)

theorem ledger_unborn (hi : s'.nextTask ≤ i) : (l.after cfg a s').found i = none := by
  have hle := Nat.le_trans (step_taskStep h).nextTask_le hi
  refine (enter_of_ne _ ?_).trans (hl.unborn i hle)
  intro r hjoin
  obtain ⟨_, _, _, _, _, htask, _⟩ := join_some hjoin
  exact absurd (hl.bounded i _ htask) (Nat.not_lt.mpr hle)

theorem ledger_joined (hi : s'.tasks.get? i = some task) (hleg : joinedLeg task = some (room, attach)) : ∃ r,
    (l.after cfg a s').found i = some r ∧ Joined r attach := by
  rcases joinedLeg_origin h hi hleg with ⟨old, hold, hleg'⟩ | ⟨⟨now, rfl⟩, hold, cancel, hcheck⟩
  · obtain ⟨r, hr, hjoined⟩ := hl.joined i old room attach hold hleg'
    exact ⟨r, (ledger_extends hl _ s').found i r hr, hjoined⟩
  obtain ⟨r, hr, hjoined⟩ := joinCheck_joined hcheck
  refine ⟨r, ?_, hjoined⟩
  have hr' : l.system.record? room attach.transferId = some r := hr
  rw [Ledger.after, Ledger.join, hold]
  dsimp only
  rw [hcheck, Option.isSome_some, if_pos rfl, hr']
  exact enter_self _ _ _

theorem ledger_placed {id : TransferId} (hu : NeverUsed cfg l a) (hi : s'.tasks.get? i = some task)
    (hleg : joinedLeg task = some (room, attach)) (hr : s'.record? room' id = some r) (hn : names r attach.attemptId) :
    room' = room := by
  rcases joinedLeg_origin h hi hleg with ⟨old, hold, hleg'⟩ | ⟨⟨now, rfl⟩, hold, cancel, hcheck⟩
  · rcases step_names h hr hn with ⟨r₀, hr₀, hn₀⟩ | hgiven
    · exact hl.placed i old room attach hold hleg' room' id r₀ hr₀ hn₀
    · exact absurd (joinedLeg_mentioned hold hleg') (hu.draw _ hgiven.attemptDraw)
  obtain ⟨q, hq, hjoined⟩ := joinCheck_joined hcheck
  rcases step_names h hr hn with ⟨r₀, hr₀, hn₀⟩ | hgiven
  · exact (hl.unique _ _ _ _ _ _ _ hr₀ hq hn₀ (.inl hjoined.current)).1
  · cases hgiven.attemptDraw

theorem ledger_agree (hi : s'.tasks.get? i = some task) (hj : s'.tasks.get? j = some task')
    (hleg : joinedLeg task = some (room, attach)) (hleg' : joinedLeg task' = some (room', attach'))
    (ha : attach.attemptId = attach'.attemptId) : room = room' := by
  rcases joinedLeg_origin h hi hleg with ⟨old, hold, hk⟩ | ⟨⟨now, rfl⟩, hold, cancel, hcheck⟩ <;>
    rcases joinedLeg_origin h hj hleg' with ⟨old', hold', hk'⟩ | ⟨⟨now', ha'⟩, hold', cancel', hcheck'⟩
  · exact hl.agree i j old old' room room' attach attach' hold hold' hk hk' ha
  · obtain ⟨q, hq, hjoined⟩ := joinCheck_joined hcheck'
    refine (hl.placed i old room attach hold hk room' _ q hq (.inl ?_)).symm
    rw [ha]
    exact hjoined.current
  · obtain ⟨q, hq, hjoined⟩ := joinCheck_joined hcheck
    refine hl.placed j old' room' attach' hold' hk' room _ q hq (.inl ?_)
    rw [← ha]
    exact hjoined.current
  · cases ha'
    rw [hold] at hold'
    cases hold'
    rfl

theorem ledger_waiter (key : TransferId × AttemptId) (w : RelayWaiter) (hw : s'.inner.relayWaiters.get? key = some w) :
    ∃ leg, (l.after cfg a s').legs w.leg = some leg ∧ (leg.attach.transferId, leg.attach.attemptId) = key ∧
    leg.attach.role = w.firstRole := by
  have hext := ledger_extends hl a s'
  rcases step_waiters h hw with hold | ⟨room, attach, cancel, now, _, htask, rfl, hrole⟩
  · obtain ⟨leg, hleg, hkey, hrole⟩ := hl.waiter key w hold
    exact ⟨leg, hext.legs _ _ hleg, hkey, hrole⟩
  · obtain ⟨leg, hleg, _, rfl⟩ := hl.socket w.leg _ room attach htask rfl
    exact ⟨leg, hext.legs _ _ hleg, rfl, hrole.symm⟩

theorem ledger_handoff (parked : Nat) (hi : s'.tasks.get? i = some (.legHandoff room attach parked)) : ∃ leg,
    (l.after cfg a s').legs parked = some leg ∧ (leg.attach.transferId, leg.attach.attemptId) =
    (attach.transferId, attach.attemptId) ∧ leg.attach.role ≠ attach.role := by
  have hext := ledger_extends hl a s'
  rcases step_tasks h i _ hi with hold | ⟨cancel, waiter, _, hwaiter, rfl, hne⟩
  · obtain ⟨leg, hleg, hkey, hrole⟩ := hl.handoff i room attach parked hold
    exact ⟨leg, hext.legs _ _ hleg, hkey, hrole⟩
  obtain ⟨leg, hleg, hkey, hrole⟩ := hl.waiter _ waiter hwaiter
  refine ⟨leg, hext.legs _ _ hleg, hkey, ?_⟩
  rw [hrole]
  exact hne

theorem ledger_paired (source recipient : PeerId) (hi : s'.tasks.get? i = some (.legPaired key source recipient)) : ∃ j,
    (l.after cfg a s').partner i = some j ∧ Matched (l.after cfg a s') key i j := by
  have hext := ledger_extends hl a s'
  rcases step_tasks h i _ hi with hold | ⟨room, first, cancel, k, now, room', second, rfl, hparked, hhandoff, rfl, _⟩
  · obtain ⟨j, hj, hmatched⟩ := hl.paired i key source recipient hold
    refine ⟨j, (enter_of_ne _ ?_).trans hj, matched_extends hmatched hext⟩
    intro j' hhand
    obtain ⟨_, _, _, hparked⟩ := handover_some hhand
    rw [hold] at hparked
    cases hparked
  refine ⟨k, ?_, matched_extends (matched_new hl hparked hhandoff) hext⟩
  rw [Ledger.after, Ledger.handover, hhandoff]
  dsimp only
  rw [hparked]
  exact enter_self _ _ _

theorem ledger_spent (hu : NeverUsed cfg l a) (hm : splice ∈ (l.after cfg a s').splices) : Spent s' splice.key := by
  rcases mem_append.mp hm with hold | hnew
  · exact step_spent_of_ne h (fun draw hdraw => hu.activated draw hdraw splice hold) (hl.spent splice hold)
  obtain ⟨r, _, _, _, hr'⟩ := newPair_record h (activation_newPair (Option.mem_toList.mp hnew))
  intro q hq _
  rw [hr'] at hq
  cases hq
  exact .inl rfl

theorem ledger_pumps (hi : s'.tasks.get? i = some task) (hk : taskPair task = some key) : ∃ splice ∈
    (l.after cfg a s').splices, splice.key = key ∧ splice.parked = i := by
  rw [Ledger.after]
  rcases pair_origin h hi hk with ⟨old, hold, hk', _⟩ | hnew
  · obtain ⟨splice, hm, heq⟩ := hl.pumps i old key hold hk'
    exact ⟨splice, mem_append_left _ hm, heq⟩
  · rw [newPair_activation hnew]
    exact ⟨_, mem_append_right _ (mem_singleton_self _), rfl, rfl⟩

theorem ledger_inv (hu : NeverUsed cfg l a) (hstart : ∀ hash, start.inner.tickets.get? hash = none) : LedgerInv cfg
    start (l.after cfg a s') where
  reach := hl.reach.tail trivial h
  bounded := (step_taskStep h).bounded hl.bounded
  accepted := fun _ _ => ledger_accepted hl h hstart
  gone := fun _ _ => ledger_gone hl h hu hstart
  once := fun _ _ _ _ => ledger_once hl
  socket := fun _ _ _ _ => ledger_socket hl h
  unseen := fun _ _ _ => ledger_unseen hl h
  unborn := fun _ => ledger_unborn hl h
  joined := fun _ _ _ _ => ledger_joined hl h
  unique := step_unique h hu.draw hl.unique
  placed := fun _ _ _ _ hi hleg _ _ _ => ledger_placed hl h hu hi hleg
  agree := fun _ _ _ _ _ _ _ _ => ledger_agree hl h
  waiter := ledger_waiter hl h
  handoff := fun _ _ _ => ledger_handoff hl h
  paired := fun _ _ => ledger_paired hl h
  spliced := fun _ => ledger_spliced hl
  keys := ledger_keys hl
  spent := fun _ => ledger_spent hl h hu
  pumps := fun _ _ _ => ledger_pumps hl h

end Steps

theorem ledgerStart_inv (cfg : Config) (maxPeersGlobal : Nat) (relayOnly : RoomRef → Bool) :
    LedgerInv cfg (initial cfg maxPeersGlobal relayOnly) (ledgerStart cfg maxPeersGlobal relayOnly) := by
  constructor
  case reach => exact .refl
  case unborn => exact fun _ _ => rfl
  case keys => exact nodup_nil
  case unique => exact fun _ _ _ _ _ _ _ h => nomatch h
  all_goals
    intros
    contradiction

variable {maxPeersGlobal : Nat} {relayOnly : RoomRef → Bool}

theorem roles_complement {x y : RelayRole} (h : x ≠ y) :
    x = .source ∧ y = .recipient ∨ x = .recipient ∧ y = .source := by
  cases x <;> cases y <;> simp_all

/-- Two sockets are spliced only if they presented two different tickets of one
attempt, one as its source and one as its recipient, and the attempt was the
current one and waited for the relay when each of them joined. No ticket is
accepted twice, and no attempt is activated twice. -/
theorem relay_splices_are_safe (cfg : Config) (maxPeersGlobal : Nat) (relayOnly : RoomRef → Bool) (l : Ledger)
    (hreach : Reaches (ledgerStep cfg) (NeverUsed cfg) (ledgerStart cfg maxPeersGlobal relayOnly) l) :
    (∀ i task key, l.system.tasks.get? i = some task → taskPair task = some key →
      ∃ splice ∈ l.splices, splice.key = key ∧ splice.parked = i) ∧
    (∀ splice ∈ l.splices, ∃ j a b r q, splice.second = some j ∧ l.legs splice.parked = some a ∧ l.legs j = some b ∧
      a.room = splice.key.room ∧ b.room = splice.key.room ∧ a.attach.ticket ≠ b.attach.ticket ∧
      Accepted cfg (initial cfg maxPeersGlobal relayOnly) l.system a ∧
      Accepted cfg (initial cfg maxPeersGlobal relayOnly) l.system b ∧
      (a.grant.transferId, a.grant.attemptId) = (splice.key.transfer, splice.key.attempt) ∧
      (b.grant.transferId, b.grant.attemptId) = (splice.key.transfer, splice.key.attempt) ∧
      (a.grant.role = .source ∧ b.grant.role = .recipient ∨ a.grant.role = .recipient ∧ b.grant.role = .source) ∧
      l.found splice.parked = some r ∧ Joined r a.attach ∧ l.found j = some q ∧ Joined q b.attach) ∧
    (∀ i j a b, l.legs i = some a → l.legs j = some b → a.attach.ticket = b.attach.ticket → i = j) ∧
    (l.splices.map Splice.key).Nodup := by
  have hl : LedgerInv cfg (initial cfg maxPeersGlobal relayOnly) l :=
    hreach.invariant (ledgerStart_inv cfg maxPeersGlobal relayOnly) fun _ _ _ hl hu hstep => by
      obtain ⟨s, hs, rfl⟩ := Option.map_eq_some_iff.mp hstep
      exact ledger_inv hl hs hu fun _ => rfl
  refine ⟨hl.pumps, fun splice hm => ?_, fun i j a b ha hb ht => ?_, hl.keys⟩
  · obtain ⟨j, hsecond, hmatched⟩ := hl.spliced splice hm
    obtain ⟨a, b, ha, hb, hra, hrb, hka, hkb, hrole, ⟨r, hr, hjr⟩, q, hq, hjq⟩ := hmatched.legs
    have hacc := (hl.accepted _ a ha).2
    have hacc' := (hl.accepted _ b hb).2
    have hticket : a.attach.ticket ≠ b.attach.ticket := by
      intro he
      obtain rfl := hl.once _ _ a b ha hb (congrArg cfg.ticketHash he)
      rw [ha] at hb
      cases hb
      exact hrole rfl
    refine ⟨j, a, b, r, q, hsecond, ha, hb, hra, hrb, hticket, hacc, hacc', ?_, ?_, ?_, hr, hjr, hq, hjq⟩
    · rw [hacc.transferId, hacc.attemptId, hka]
    · rw [hacc'.transferId, hacc'.attemptId, hkb]
    · rw [hacc.role, hacc'.role]
      exact roles_complement hrole
  · exact hl.once i j a b ha hb (congrArg cfg.ticketHash ht)

def neverUsedCheck (cfg : Config) (l : Ledger) (a : Action) : Bool :=
  sustainedCheck cfg l.system a &&
    (Action.attemptDraw a).all (fun d => l.splices.all (fun splice => splice.key.attempt != d)) &&
    (pairOf a).all (fun pair => (range l.system.nextTask).all (fun i => (l.legs i).all (fun leg =>
      cfg.ticketHash leg.attach.ticket != cfg.ticketHash pair.first &&
        cfg.ticketHash leg.attach.ticket != cfg.ticketHash pair.second)))

theorem neverUsed_of_check {start : System} {a : Action} (hzero : OnlyRoomZero l.system)
    (hl : LedgerInv cfg start l) (h : neverUsedCheck cfg l a = true) : NeverUsed cfg l a := by
  simp only [neverUsedCheck, Bool.and_eq_true] at h
  obtain ⟨⟨hsustained, hactivated⟩, htickets⟩ := h
  refine ⟨(sustained_of_check hzero hsustained).fresh, fun draw hdraw splice hm => ?_, fun pair hpair i leg hi => ?_⟩
  · rw [hdraw, Option.all_some, all_eq_true] at hactivated
    simpa using hactivated splice hm
  · rw [hpair, Option.all_some, all_eq_true] at htickets
    have hchecked := htickets i (mem_range.mpr (hl.accepted i leg hi).1)
    rw [hi, Option.all_some] at hchecked
    simpa using hchecked

theorem reaches_of_neverUsedCheck (as : List Action)
    (h : execWhile (ledgerStep cfg) (neverUsedCheck cfg) (ledgerStart cfg maxPeersGlobal relayOnly) as = some l) :
    Reaches (ledgerStep cfg) (NeverUsed cfg) (ledgerStart cfg maxPeersGlobal relayOnly) l := by
  refine execWhile_reaches_of
    (P := fun l => OnlyRoomZero l.system ∧ LedgerInv cfg (initial cfg maxPeersGlobal relayOnly) l)
    ⟨fun _ _ _ => rfl, ledgerStart_inv cfg maxPeersGlobal relayOnly⟩ ?_ (fun _ _ hP => neverUsed_of_check hP.1 hP.2) as h
  rintro t a _ ⟨hzero, hl⟩ hc hu
  obtain ⟨s, hs, rfl⟩ := Option.map_eq_some_iff.mp hu
  refine ⟨?_, ledger_inv hl hs (neverUsed_of_check hzero hl hc) fun _ => rfl⟩
  simp only [neverUsedCheck, sustainedCheck, Bool.and_eq_true] at hc
  exact step_onlyRoomZero hzero hc.1.1.1.1 hs

theorem relay_splices_are_safe_sample :
    ∃ l a b, Reaches (ledgerStep sampleConfig) (NeverUsed sampleConfig) (ledgerStart sampleConfig 100 fun _ => false) l ∧
      l.splices = [⟨⟨0, 100, 11⟩, 2, some 3⟩] ∧ l.legs 2 = some a ∧ l.legs 3 = some b ∧
      a.attach.ticket ≠ b.attach.ticket ∧ (a.grant.transferId, a.grant.attemptId) = (100, 11) ∧
      (b.grant.transferId, b.grant.attemptId) = (100, 11) := by
  obtain ⟨l, hl, hsplices⟩ : ∃ l, execWhile (ledgerStep sampleConfig) (neverUsedCheck sampleConfig)
      (ledgerStart sampleConfig 100 fun _ => false) (sampleRequest ++ sampleRelay) = some l ∧
      l.splices = [⟨⟨0, 100, 11⟩, 2, some 3⟩] :=
    Option.map_eq_some_iff.mp (by decide +kernel)
  have hreach := reaches_of_neverUsedCheck _ hl
  obtain ⟨_, hsafe, _⟩ := relay_splices_are_safe sampleConfig 100 (fun _ => false) l hreach
  have hmem : ⟨⟨0, 100, 11⟩, 2, some 3⟩ ∈ l.splices := by
    rw [hsplices]
    exact mem_singleton_self _
  obtain ⟨j, a, b, _, _, hj, ha, hb, _, _, hne, _, _, hka, hkb, _⟩ := hsafe _ hmem
  cases hj
  exact ⟨l, a, b, hreach, hsplices, ha, hb, hne, hka, hkb⟩

end Bore.RegistrySplices
