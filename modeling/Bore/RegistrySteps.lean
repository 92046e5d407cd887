import Bore.RegistrySections
import Bore.RegistryAdmission

namespace Bore.RegistrySteps

open RegistryTypes RegistryDirect RegistryRelay RegistryCatalogue RegistryMoves RegistryEffects RegistryPermits
  RegistryAdmission RegistrySystem RegistrySections

def negotiates (s : System) : Action → Bool
  | .call _ _ (.rtc ..) | .call _ _ (.directReady ..) | .call _ _ (.deadline ..) => true
  | .resume i _ _ => (s.tasks.get? i).any fun
    | .readyTail .. | .failedFallback .. | .failedAdopt .. | .pumpStart .. => true
    | _ => false
  | _ => false

/-- Who performs a move: the action that writes the record, and the guard the
record met before. Moves that no result below singles out are free. -/
def Performed (cfg : Config) (s : System) (a : Action) (room : RoomRef) (id : TransferId) (r : TransferRecord) :
    Act → Prop
  | .retry draw => ∃ now req draws, a = .call room now (.request req draws draw) ∧ retries cfg (s.rooms room) req id
  | .commitUpgrade => ∃ now peer attempt ranges,
      a = .call room now (.directReady peer id attempt ranges) ∧ commitsUpgrade r peer attempt = true
  | .startProbe draw => ∃ now, a = .call room now (.upgradeElapsed id draw)
  | .fallback draw =>
    (∃ now attempt pair, a = .call room now (.deadline id attempt draw pair) ∧ fallsBack .deadline r attempt = true) ∨
    (∃ i now attempt isRecipient counterpart reason ranges pair, a = .resume i now (.fallback draw pair) ∧
      s.tasks.get? i = some (.failedFallback ⟨room, id, attempt⟩ isRecipient counterpart reason ranges) ∧
      fallsBack .reported r attempt = true)
  | .grant => ∃ i now attempt permit pair, a = .resume i now (.tickets pair) ∧
      s.tasks.get? i = some (.admitHold ⟨room, id, attempt⟩ permit)
  | .activate => ∃ i now attempt source recipient, a = .resume i now .go ∧
      s.tasks.get? i = some (.legPaired ⟨room, id, attempt⟩ source recipient) ∧ r.attemptId = some attempt
  | .release => ∃ i now attempt ended, a = .resume i now .go ∧
      s.tasks.get? i = some (.pumpClosing ⟨room, id, attempt⟩ ended) ∧ r.attemptId = some attempt
  | .signal | .probe | .commitDirect | .resume => negotiates s a = true
  | _ => True

def Drawn (cfg : Config) (s : System) (a : Action) (room : RoomRef) (id : TransferId) (draw : AttemptId) : Prop :=
  ∃ now req draws, a = .call room now (.request req draws draw) ∧ creates cfg (s.rooms room) req draws id

def pairOf : Action → Option TicketPair
  | .call _ _ (.sourceReady _ _ _ _ pair) | .call _ _ (.deadline _ _ _ pair) | .resume _ _ (.fallback _ pair)
  | .resume _ _ (.tickets pair) => some pair
  | _ => none

def Enters (s : System) (a : Action) (key : TransferId × AttemptId) (w : RelayWaiter) : Prop :=
  ∃ room attach cancel now, a = .resume w.leg now .go ∧ s.tasks.get? w.leg = some (.legEntering room attach cancel) ∧
    key = (attach.transferId, attach.attemptId) ∧ w.firstRole = attach.role

structure Effect (cfg : Config) (s : System) (a : Action) (room : RoomRef) (sc : Scope) : Prop where
  evolves : Evolves (Performed cfg s a room) (Drawn cfg s a room) (s.rooms room) sc.room
  slots : (pool sc).Subperm (pool (s.scope room)) ∨ ∃ i now key permit pair, a = .resume i now (.tickets pair) ∧
    s.tasks.get? i = some (.admitHold key permit) ∧ (pool sc).Subperm (permit :: pool (s.scope room))
  tickets : ∀ hash t, sc.inner.tickets.get? hash = some t → s.inner.tickets.get? hash = some t ∨
    Granted sc t ∧ ∃ p, pairOf a = some p ∧ (hash = cfg.ticketHash p.first ∨ hash = cfg.ticketHash p.second)
  waiters : ∀ key w, sc.inner.relayWaiters.get? key = some w → s.inner.relayWaiters.get? key = some w ∨ Enters s a key w
  purges : Purges (s.scope room) sc

section Effects

variable {cfg : Config} {s : System} {a : Action} {room : RoomRef} {sc : Scope}

theorem effect_of_section {allowed drawn} (h : Section cfg [] (pairOf a) allowed drawn (s.scope room) sc)
    (ha : ∀ id r act, allowed id r act → Performed cfg s a room id r act)
    (hd : ∀ id d, drawn id d → Drawn cfg s a room id d) : Effect cfg s a room sc :=
  ⟨fun id => (h.evolves id).mono (fun r act _ => ha id r act) (hd id), .inl h.slots, h.tickets,
    fun _ _ hw => .inl (h.waiters ▸ hw), h.purges⟩

theorem effect_free {acts : Act → Prop} (h : Section cfg [] (pairOf a) (fun _ _ act => acts act) noDraw (s.scope room) sc)
    (ha : ∀ act, acts act → ∀ id r, Performed cfg s a room id r act) : Effect cfg s a room sc :=
  effect_of_section h (fun id r act hact => ha act hact id r) fun _ _ hf => hf.elim

theorem effect_ends (h : Section cfg [] (pairOf a) ends noDraw (s.scope room) sc) : Effect cfg s a room sc :=
  effect_free h (by
    rintro _ rfl _ _
    trivial)

theorem effect_still (h : Section cfg [] (pairOf a) (fun _ _ _ => False) noDraw (s.scope room) sc) :
    Effect cfg s a room sc :=
  effect_free h (fun _ hf => hf.elim)

theorem effect_inner {inner : RegistryInner} (hp : inner.relayPermits.Subperm s.inner.relayPermits)
    (ht : ∀ hash t, inner.tickets.get? hash = some t → s.inner.tickets.get? hash = some t)
    (hw : ∀ key w, inner.relayWaiters.get? key = some w → s.inner.relayWaiters.get? key = some w ∨ Enters s a key w) :
    Effect cfg s a room ⟨inner, s.rooms room⟩ :=
  ⟨Evolves.refl _ _ _, .inl ((List.subperm_append_right _).mpr hp), fun hash t h => .inl (ht hash t h), hw,
    purges_of_transfers_eq rfl⟩

theorem joinEnter_waiters {i : Nat} {now : Instant} {room : RoomRef} {attach : RelayAttach} {cancel : Token}
    (hi : s.tasks.get? i = some (.legEntering room attach cancel)) (key : TransferId × AttemptId) (w : RelayWaiter)
    (hw : (joinEnter attach i s.inner).1.relayWaiters.get? key = some w) :
    s.inner.relayWaiters.get? key = some w ∨ Enters s (.resume i now .go) key w := by
  revert hw
  fun_cases joinEnter attach i s.inner
  case case1 => exact .inl
  case case2 => exact fun hw => .inl (Table.get?_of_erase hw)
  case case3 =>
    intro hw
    rw [Table.get?_insert] at hw
    split at hw
    · rename_i hk
      cases hw
      exact .inr ⟨room, attach, cancel, now, rfl, hi, hk, rfl⟩
    · exact .inl hw

theorem ran_effect {outbox : Outbox} (h : Ran cfg s a room sc outbox) : Effect cfg s a room sc := by
  cases h with
  | still | busy | commit => exact effect_still (Section.refl _)
  | join _ _ _ name => exact effect_still (joinPeer_section name)
  | openSession => exact effect_still (section_of_eq (by fun_cases openSession <;> rfl) rfl rfl rfl)
  | rename => exact effect_still (section_of_eq (by fun_cases renamePeer <;> rfl) rfl rfl rfl)
  | publish _ _ _ offer manifestOffer canonical mac =>
    exact effect_still (publishOffer_section offer manifestOffer canonical mac)
  | withdraw _ _ _ offer => exact effect_ends (withdrawOffer_section offer)
  | leave => exact effect_ends (removePeer_closes.toSection fun _ _ => rfl)
  | request _ now req draws draw =>
    refine effect_of_section (requestCheck_section draws draw req) ?_ ?_
    · rintro id r act ⟨rfl, hr⟩
      exact ⟨now, req, draws, rfl, hr⟩
    · rintro id d ⟨rfl, hd⟩
      exact ⟨now, req, draws, rfl, hd⟩
  | sourceReady _ _ _ _ _ digest =>
    refine effect_free (sourceReady_section digest) ?_
    rintro _ (rfl | rfl) _ _ <;> trivial
  | sourceReject => exact effect_ends sourceReject_section
  | rtc _ _ _ _ _ carrier signal =>
    refine effect_free (forwardRtc_section carrier signal) ?_
    rintro _ (rfl | rfl) _ _ <;> rfl
  | upgradeReady _ now peer _ attempt ranges =>
    refine effect_of_section (upgradeReady_section ranges) ?_ fun _ _ hf => hf.elim
    rintro j r act ⟨rfl, rfl | ⟨rfl, hc⟩⟩
    · rfl
    · exact ⟨now, peer, attempt, ranges, rfl, hc⟩
  | deadline _ now _ attempt draw pair _ _ hf =>
    refine effect_of_section (Section.of_fst hf (fallbackToRelay_section draw attempt [] .deadline)) ?_ fun _ _ hf => hf.elim
    rintro j r act ⟨rfl, rfl, hc⟩
    exact .inl ⟨now, attempt, pair, rfl, hc⟩
  | upgradeElapsed _ now _ draw =>
    refine effect_of_section (directUpgradeElapsed_section draw) ?_ fun _ _ hf => hf.elim
    rintro j r act ⟨rfl, rfl⟩
    exact ⟨now, rfl⟩
  | probeDeadline | clear =>
    refine effect_free clearUpgrade_section ?_
    rintro _ rfl _ _
    trivial
  | cancel => exact effect_ends cancelTransfer_section
  | progress _ _ _ _ _ receivedBytes =>
    refine effect_free (reportProgress_section receivedBytes) ?_
    rintro _ rfl _ _
    trivial
  | complete _ _ _ _ _ root => exact effect_ends (completeTransfer_section root)
  | attach _ _ attach =>
    obtain ⟨hp, hw, ht⟩ := joinConsume_frame attach s.inner
    exact effect_inner (hp ▸ List.Subperm.refl _) ht fun _ _ h => .inl (hw ▸ h)
  | deliver =>
    refine effect_free (requestDeliver_section _) ?_
    rintro _ (rfl | rfl) _ _ <;> trivial
  | directReady _ _ _ _ _ _ hi =>
    refine effect_free directReady_section ?_
    rintro _ (rfl | rfl) _ _ <;> simp [Performed, negotiates, hi]
  | fallback i now key isRecipient counterpart reason ranges draw pair _ _ hi hf =>
    refine effect_of_section (Section.of_fst hf (fallbackToRelay_section draw _ _ .reported)) ?_ fun _ _ hf => hf.elim
    rintro j r act ⟨rfl, rfl, hc⟩
    exact .inr ⟨i, now, key.attempt, isRecipient, counterpart, reason, ranges, pair, rfl, hi, hc⟩
  | adopt _ _ _ ranges hi =>
    refine effect_free (adoptLateRecipientResume_section ranges) ?_
    rintro _ rfl _ _
    simp [Performed, negotiates, hi]
  | take _ _ _ permit rest _ _ hfree =>
    refine effect_inner ?_ (fun _ _ h => h) fun _ _ h => .inl h
    rw [hfree]
    exact (List.sublist_cons_self permit rest).subperm
  | issue i now key permit pair hi =>
    have h : Section cfg [permit] (some pair) _ noDraw (s.scope key.room)
        (admitIssue cfg now pair key.transfer key.attempt permit (s.scope key.room)).1 := admitIssue_section permit
    refine ⟨fun id => (h.evolves id).mono ?_ fun _ hf => hf.elim, .inr ⟨i, now, key, permit, pair, rfl, hi, h.slots⟩,
      h.tickets, fun _ _ hw => .inl (h.waiters ▸ hw), h.purges⟩
    rintro r act - ⟨rfl, rfl⟩
    exact ⟨i, now, key.attempt, permit, pair, rfl, hi⟩
  | enter i _ _ attach _ hi =>
    obtain ⟨ht, hp⟩ := joinEnter_frame attach i s.inner
    exact effect_inner (hp ▸ List.Subperm.refl _) (fun _ _ h => ht ▸ h) (joinEnter_waiters hi)
  | abandon =>
    exact effect_inner (List.Subperm.refl _) (fun _ _ h => h) fun _ _ h => .inl (Table.get?_of_erase h)
  | activate i now key source recipient hi =>
    refine effect_of_section activateRelay_section ?_ fun _ _ hf => hf.elim
    rintro id r act ⟨rfl, rfl, ha⟩
    exact ⟨i, now, key.attempt, source, recipient, rfl, hi, ha⟩
  | release i now key how hi =>
    refine effect_of_section releaseRelayPermit_section ?_ fun _ _ hf => hf.elim
    rintro id r act ⟨rfl, rfl, ha⟩
    exact ⟨i, now, key.attempt, how, rfl, hi, ha⟩
  | fail => exact effect_ends (terminateLocked_section rfl)

end Effects

variable {cfg : Config} {s s' : System} {a : Action}

def Steps (cfg : Config) (s : System) (a : Action) (s' : System) : Prop :=
  ∀ room id, Change (Performed cfg s a room id) (Drawn cfg s a room id) (s.record? room id) (s'.record? room id)

section

variable (h : step cfg s a = some s')
include h

/-- Every step of the system writes each record by at most one move, and the
move has a performer. -/
theorem step_steps : Steps cfg s a s' := by
  obtain ⟨room, sc, outbox, hleft⟩ := step_left h
  intro room' id
  rw [System.record?, System.record?, hleft.rooms]
  by_cases hr : room' = room
  · subst hr
    rw [Function.update_self]
    exact (ran_effect hleft.ran).evolves id
  · rw [Function.update_of_ne hr]
    exact .same _

theorem step_waiters {key : TransferId × AttemptId} {w : RelayWaiter}
    (hw : s'.inner.relayWaiters.get? key = some w) :
    s.inner.relayWaiters.get? key = some w ∨ Enters s a key w := by
  obtain ⟨room, sc, outbox, hleft⟩ := step_left h
  rw [hleft.inner] at hw
  exact (ran_effect hleft.ran).waiters key w hw

theorem step_tickets {hash : Digest} {t : RelayTicketRecord}
    (ht : s'.inner.tickets.get? hash = some t) : s.inner.tickets.get? hash = some t ∨
      (∃ room, Granted (s'.scope room) t) ∧
      ∃ pair, pairOf a = some pair ∧ (hash = cfg.ticketHash pair.first ∨ hash = cfg.ticketHash pair.second) := by
  obtain ⟨room, sc, outbox, hleft⟩ := step_left h
  rw [hleft.inner] at ht
  refine ((ran_effect hleft.ran).tickets hash t ht).imp_right fun ⟨hg, hpair⟩ => ⟨⟨room, ?_⟩, hpair⟩
  rwa [System.scope, hleft.inner, hleft.rooms, Function.update_self]

theorem step_purges {room : RoomRef} {id : TransferId} {r r' : TransferRecord}
    (hr : s.record? room id = some r) (hl : r.state.isLive = true) (hr' : s'.record? room id = some r')
    {hash : Digest} {t : RelayTicketRecord} (ht : s'.inner.tickets.get? hash = some t) (hid : t.transferId = id) :
    r'.state.isLive = true := by
  by_contra hd
  rw [Bool.not_eq_true] at hd
  obtain ⟨room', sc, outbox, hleft⟩ := step_left h
  rw [hleft.inner] at ht
  rw [System.record?, hleft.rooms] at hr'
  by_cases hroom : room = room'
  · subst hroom
    rw [Function.update_self] at hr'
    exact (ran_effect hleft.ran).purges id r r' hr hl hr' hd hash t ht hid
  rw [Function.update_of_ne hroom] at hr'
  rw [System.record?, hr'] at hr
  cases hr
  rw [hl] at hd
  cases hd

end

end Bore.RegistrySteps
