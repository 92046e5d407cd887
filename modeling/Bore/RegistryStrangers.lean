import Bore.RegistryTerminal

namespace Bore.RegistryStrangers

open List Option

open RegistryTypes RegistryOps RegistryDirect RegistryRelay RegistryCatalogue RegistryMoves RegistryEffects RegistryAdmission
  RegistryPermits RegistrySystem RegistrySteps RegistryTasks RegistrySections RegistryTerminal Runs

def Concerns (id : TransferId) : Envelope → Prop
  | .incoming j _ _ _ _ _ | .directStart j _ _ _ _ _ _ _ | .rtc j _ _ _ | .relayTicket j _ _ | .pathCommit j _ _ _
  | .directFailed j _ _ _ | .progress j _ _ _ | .cancelled j _ | .completed j _ => j = id
  | .errorAnon _ text => text = some (toString id)

structure Stranger (peer : PeerId) (r : TransferRecord) : Prop where
  source : r.source ≠ peer
  recipient : r.recipient ≠ peer

def Spared (now : Instant) (r : TransferRecord) (o : Option TransferRecord) : Prop :=
  o = some r ∨ retained now r = false ∧ o = none

/-- A section run for a peer leaves the transfers of others alone and sends
nothing about them. -/
def Spares (now : Instant) (peer : PeerId) (s s' : Scope) (outbox : Outbox) : Prop :=
  ∀ id r, s.record? id = some r → Stranger peer r →
    Spared now r (s'.record? id) ∧ ∀ e ∈ outbox, ¬ Concerns id e.2

def Party (peer : PeerId) (s : Scope) (id : TransferId) : Prop :=
  ∀ r, s.record? id = some r → ¬ Stranger peer r

def Within (id : TransferId) (outbox : Outbox) : Prop := ∀ e ∈ outbox, ∀ j, Concerns j e.2 → j = id

section Sections

variable {cfg : Config} {now : Instant} {pair : TicketPair} {s s' : Scope} {id : TransferId} {peer : PeerId}
  {attemptId : AttemptId} {outbox : Outbox}

theorem spares_same (h : s'.room.transfers = s.room.transfers) : Spares now peer s s' [] := by
  intro id r hr _
  refine ⟨.inl ?_, nofun⟩
  rw [Scope.record?, h]
  exact hr

theorem spares_own (hp : Party peer s id) (ho : Within id outbox)
    (h : ∀ j r, j ≠ id → s.record? j = some r → Spared now r (s'.record? j)) : Spares now peer s s' outbox := by
  intro j r hr hs
  have hj : j ≠ id := by
    rintro rfl
    exact hp r hr hs
  exact ⟨h j r hj hr, fun e he hc => hj (ho e he j hc)⟩

theorem spares_own_of_eq (hp : Party peer s id) (ho : Within id outbox)
    (h : ∀ j, j ≠ id → s'.record? j = s.record? j) : Spares now peer s s' outbox :=
  spares_own hp ho fun j _ hj hr => .inl ((h j hj).trans hr)

theorem party_of_record {r : TransferRecord} (hr : s.record? id = some r) (h : ¬ Stranger peer r) : Party peer s id := by
  intro r' hr'
  rw [hr] at hr'
  cases hr'
  exact h

variable {record : TransferRecord}

theorem sideOf_party {isSource : Bool} (hr : s.record? id = some record) (h : sideOf record peer = .ok isSource) :
    Party peer s id := by
  refine party_of_record hr ?_
  rw [sideOf] at h
  split at h
  · rename_i hs
    exact fun hstranger => hstranger.source hs
  split at h
  · rename_i hr
    exact fun hstranger => hstranger.recipient hr
  · cases h

theorem within_nil : Within id [] := nofun

variable {p : PeerId} {envelope : Envelope}

theorem within_one (h : ∀ j, Concerns j envelope → j = id) : Within id [(p, envelope)] := by
  intro e he
  cases mem_singleton.mp he
  exact h

theorem within_cons (h : ∀ j, Concerns j envelope → j = id) (ho : Within id outbox) :
    Within id ((p, envelope) :: outbox) := by
  intro e he
  rcases mem_cons.mp he with rfl | he
  · exact h
  · exact ho e he

theorem updateRecord_elsewhere (f : TransferRecord → TransferRecord) (j : TransferId) (hj : j ≠ id) :
    (s.updateRecord id f).record? j = s.record? j := by
  rw [record?_updateRecord, if_neg hj]

theorem installAttempt_elsewhere (a : AttemptState) (f : TransferRecord → TransferRecord) (j : TransferId) (hj : j ≠ id) :
    (s.installAttempt id a f).record? j = s.record? j := by
  rw [record?_installAttempt, if_neg hj]

theorem spared_gc (r : TransferRecord) : Spared now r ((some r).filter (retained now)) := by
  rw [Option.filter_some]
  split
  · exact .inl rfl
  · exact .inr ⟨Bool.not_eq_true _ ▸ ‹_›, rfl⟩

theorem terminateLocked_spared (st : TransferState) (j : TransferId) (r : TransferRecord) (hj : j ≠ id)
    (hr : s.record? j = some r) : Spared now r ((terminateLocked now id st s).1.record? j) := by
  rw [terminateLocked]
  split
  · exact .inl hr
  split
  · change Spared now r ((gcTerminalsLocked now (s.updateRecord id (finish now st)).room).transfers.get? j)
    rw [gc_record]
    change Spared now r (((s.updateRecord id (finish now st)).record? j).filter (retained now))
    rw [updateRecord_elsewhere _ j hj, hr]
    exact spared_gc r
  · exact .inl hr

theorem storePermit_elsewhere (permit : Permit) (j : TransferId) (hj : j ≠ id) :
    (storePermit id permit s).record? j = s.record? j := by
  rw [storePermit]
  split
  · exact updateRecord_elsewhere _ j hj
  · rfl

theorem admitRelayAttempt_elsewhere (j : TransferId) (hj : j ≠ id) :
    (admitRelayAttempt cfg now pair id attemptId s).1.record? j = s.record? j := by
  rw [admitRelayAttempt]
  split
  · rfl
  split
  · rfl
  · exact storePermit_elsewhere _ j hj

theorem ticketOutbox_within (source recipient : PeerId) : Within id (ticketOutbox id attemptId source recipient pair) :=
  within_cons (fun _ h => h.symm) (within_one fun _ h => h.symm)

theorem admitRelayAttempt_within : Within id (admitRelayAttempt cfg now pair id attemptId s).2.2 := by
  rw [admitRelayAttempt]
  split
  · exact within_nil
  split
  · exact within_nil
  · exact ticketOutbox_within _ _

theorem sourceReadyGuard_party {digest : Digest}
    (h : sourceReadyGuard record peer attemptId digest = .ok ()) : ¬ Stranger peer record := by
  revert h
  fun_cases sourceReadyGuard record peer attemptId digest
  case case6 hs _ _ _ => exact fun _ hstranger => hs hstranger.source
  all_goals rintro ⟨⟩

theorem sourceReady_spares (digest : Digest) :
    Spares now peer s (sourceReady cfg now pair peer id attemptId digest s).1
      (readyOutbox (sourceReady cfg now pair peer id attemptId digest s).2) := by
  rw [sourceReady]
  split
  · exact spares_same rfl
  rename_i hr
  split
  · exact spares_same rfl
  rename_i hguard
  have hp := party_of_record hr (sourceReadyGuard_party hguard)
  split
  · refine spares_own_of_eq hp admitRelayAttempt_within fun j hj => ?_
    exact (admitRelayAttempt_elsewhere j hj).trans (installAttempt_elsewhere _ _ j hj)
  · exact spares_own_of_eq hp (within_cons (fun _ h => h.symm) (within_one fun _ h => h.symm)) (updateRecord_elsewhere _)

theorem sourceReject_spares :
    Spares now peer s (sourceReject now peer id s).1 (outboxOf (sourceReject now peer id s).2) := by
  fun_cases sourceReject now peer id s
  case case5 record hr hs _ =>
    have hp := party_of_record hr fun hstranger : Stranger peer record => hs hstranger.source
    exact spares_own hp (within_one fun _ h => h.symm) (terminateLocked_spared _)
  all_goals exact spares_same rfl

theorem signalSlot_party {carrier : Nat} {kind : SignalKind} {counterpart : PeerId}
    (h : (signalSlot cfg peer id attemptId carrier kind s).2 = .ok counterpart) : Party peer s id := by
  rw [signalSlot] at h
  split at h
  · cases h
  rename_i hr
  split at h
  · cases h
  rename_i hside
  exact sideOf_party hr hside

theorem signalSlot_spares (carrier : Nat) (kind : SignalKind) :
    Spares now peer s (signalSlot cfg peer id attemptId carrier kind s).1 [] := by
  fun_cases signalSlot cfg peer id attemptId carrier kind s
  case case5 hr _ hside _ _ _ _ _ _ =>
    exact spares_own_of_eq (sideOf_party hr hside) within_nil (updateRecord_elsewhere _)
  all_goals exact spares_same rfl

theorem forwardRtc_spares (carrier : Nat) (signal : RtcSignal) :
    Spares now peer s (forwardRtc cfg peer id attemptId carrier signal s).1
      (outboxOf (forwardRtc cfg peer id attemptId carrier signal s).2) := by
  have hslot : Spares now peer s (signalSlot cfg peer id attemptId carrier (signalKind signal) s).1 [] :=
    signalSlot_spares carrier _
  rw [forwardRtc]
  split
  · rename_i he
    rw [he] at hslot
    exact hslot
  rename_i he
  have hparty := signalSlot_party (congrArg Prod.snd he)
  rw [he] at hslot
  intro j r hr hs
  refine ⟨(hslot j r hr hs).1, fun e hm hc => ?_⟩
  cases mem_singleton.mp hm
  cases hc
  exact hparty r hr hs

theorem upgradeReady_spares (ranges : Ranges) : Spares now peer s (upgradeReady peer id attemptId ranges s).1
      (upgradeOutbox (upgradeReady peer id attemptId ranges s).2) := by
  fun_cases upgradeReady peer id attemptId ranges s
  case case7 hr _ _ _ _ hside _ _ _ _ _ _ _ =>
    exact spares_own_of_eq (sideOf_party hr hside)
      (within_cons (fun _ h => h.symm) (within_one fun _ h => h.symm)) (installAttempt_elsewhere _ _)
  case case8 hr _ _ _ _ hside _ _ _ _ _ =>
    exact spares_own_of_eq (sideOf_party hr hside) within_nil (updateRecord_elsewhere _)
  all_goals exact spares_same rfl

theorem directReady_spares :
    Spares now peer s (directReady peer id attemptId s).1 (outboxOf (directReady peer id attemptId s).2) := by
  fun_cases directReady peer id attemptId s
  case case5 hr _ hside _ _ _ _ _ _ _ _ =>
    exact spares_own_of_eq (sideOf_party hr hside)
      (within_cons (fun _ h => h.symm) (within_one fun _ h => h.symm)) (updateRecord_elsewhere _)
  case case6 hr _ hside _ _ _ _ _ _ _ =>
    exact spares_own_of_eq (sideOf_party hr hside) within_nil (updateRecord_elsewhere _)
  all_goals exact spares_same rfl

theorem cancelTransfer_spares :
    Spares now peer s (cancelTransfer now peer id s).1 (cancelOutbox (cancelTransfer now peer id s).2) := by
  fun_cases cancelTransfer now peer id s
  case case4 hr _ _ hside =>
    exact spares_own (sideOf_party hr hside) (within_one fun _ h => h.symm) (terminateLocked_spared _)
  all_goals exact spares_same rfl

theorem reportProgress_spares (receivedBytes : Nat) :
    Spares now peer s (reportProgress peer id attemptId receivedBytes s).1
      (outboxOf (reportProgress peer id attemptId receivedBytes s).2) := by
  have own {record : TransferRecord} (hr : s.record? id = some record) (h : ¬ record.recipient ≠ peer) : Party peer s id :=
    party_of_record hr fun hstranger => h hstranger.recipient
  fun_cases reportProgress peer id attemptId receivedBytes s
  case case7 hr hpeer _ _ _ _ _ _ _ =>
    exact spares_own_of_eq (own hr hpeer) (within_one fun _ h => h.symm) (updateRecord_elsewhere _)
  case case8 hr hpeer _ _ _ _ _ _ =>
    exact spares_own_of_eq (own hr hpeer) (within_one fun _ h => h.symm) fun _ _ => rfl
  all_goals exact spares_same rfl

theorem completeTransfer_spares (root : Digest) : Spares now peer s (completeTransfer now peer id attemptId root s).1
      (outboxOf (completeTransfer now peer id attemptId root s).2) := by
  fun_cases completeTransfer now peer id attemptId root s
  case case8 record hr hpeer _ _ _ _ =>
    have hp := party_of_record hr fun hstranger : Stranger peer record => hpeer hstranger.recipient
    exact spares_own hp (within_one fun _ h => h.symm) (terminateLocked_spared _)
  all_goals exact spares_same rfl

theorem requestCheck_spares (draws : List TransferId) (draw : AttemptId) (req : TransferRequest)
    (hpeer : req.recipient = peer) : Spares now peer s (requestCheck cfg now draws draw req s).1 [] := by
  rw [requestCheck.eq_def]
  split
  · exact spares_same rfl
  split
  · rename_i id record hfind
    split
    · exact spares_same rfl
    split
    · exact spares_same rfl
    have hr : s.record? id = some record :=
      (Table.get?_eq_some_iff _ _ _).mpr (mem_of_find?_eq_some hfind)
    have hsame := find?_some hfind
    simp only [sameSelection, Bool.and_eq_true, beq_iff_eq] at hsame
    have hp : Party peer s id :=
      party_of_record hr fun hstranger => hstranger.recipient (hsame.1.1.2.trans hpeer)
    exact spares_own_of_eq hp within_nil (installAttempt_elsewhere _ _)
  split
  · exact spares_same rfl
  split
  · exact spares_same rfl
  rename_i id hdraw
  intro j r hr hs
  refine ⟨?_, (by simp)⟩
  have hfree : s.record? id = none := by
    have hnew := find?_some hdraw
    rw [Bool.not_eq_true', Table.contains, isSome_eq_false_iff, isNone_iff_eq_none] at hnew
    exact hnew
  have hj : j ≠ id := by
    rintro rfl
    rw [hfree] at hr
    cases hr
  change Spared now r ((gcTerminalsLocked now _).transfers.get? j)
  rw [gc_record, Table.get?_insert_of_ne _ _ hj]
  change Spared now r ((s.record? j).filter (retained now))
  rw [hr]
  exact spared_gc r

section Own

variable (hp : Party peer s id)
include hp

theorem requestDeliver_spares (delivered : Bool) (ho : Within id outbox) :
    Spares now peer s (requestDeliver now delivered id s) outbox := by
  rw [requestDeliver]
  split
  · exact spares_own_of_eq hp ho (updateRecord_elsewhere _)
  · exact spares_own hp ho (terminateLocked_spared _)

theorem clearUpgrade_spares : Spares now peer s (clearUpgrade id attemptId s).1 [] := by
  rw [clearUpgrade]
  split
  · exact spares_same rfl
  split
  · exact spares_own_of_eq hp within_nil (updateRecord_elsewhere _)
  · exact spares_same rfl

theorem fallbackToRelay_spares {draw failed : AttemptId} {ranges : Ranges} {cause : FallbackCause} {sc : Scope}
    {fallback : FallbackOutcome} (h : fallbackToRelay cfg now draw pair id failed ranges cause s = (sc, some fallback))
    {p : PeerId} {envelope : Envelope} (he : ∀ j, Concerns j envelope → j = id) :
    Spares now peer s sc ((p, envelope) :: fallback.outbox) := by
  obtain ⟨_, number, _, _, _, _, _, hinstall⟩ := fallbackToRelay_some h
  have hout : Within id (admitRelayAttempt cfg now pair id draw (s.installAttempt id ⟨draw, number, none⟩
      (fallbackRecord draw number failed fallback.ranges))).2.2 := admitRelayAttempt_within
  have hrest (j : TransferId) (hj : j ≠ id) : (admitRelayAttempt cfg now pair id draw
      (s.installAttempt id ⟨draw, number, none⟩ (fallbackRecord draw number failed fallback.ranges))).1.record? j =
        s.record? j := (admitRelayAttempt_elsewhere j hj).trans (installAttempt_elsewhere _ _ j hj)
  rw [hinstall] at hout hrest
  exact spares_own_of_eq hp (within_cons he hout) hrest

theorem adoptLateRecipientResume_spares (ranges : Ranges) :
    Spares now peer s (adoptLateRecipientResume id attemptId ranges s) [] := by
  fun_cases adoptLateRecipientResume id attemptId ranges s
  case case3 => exact spares_own_of_eq hp within_nil (updateRecord_elsewhere _)
  all_goals exact spares_same rfl

theorem admitTimeout_spares : Spares now peer s s (admitTimeout id attemptId s) := by
  refine spares_own_of_eq hp ?_ fun _ _ => rfl
  rw [admitTimeout]
  split
  · split
    · exact within_one fun _ h => (Nat.repr_inj.mp (some.inj h)).symm
    · exact within_nil
  · exact within_nil

theorem admitIssue_spares (permit : Permit) : Spares now peer s (admitIssue cfg now pair id attemptId permit s).1
      (admitIssue cfg now pair id attemptId permit s).2 := by
  rw [admitIssue]
  split
  · exact spares_same rfl
  split
  · exact spares_same rfl
  split
  · exact spares_own_of_eq hp (ticketOutbox_within _ _) (storePermit_elsewhere _)
  · exact spares_same rfl

end Own

end Sections

def messageOf : Call → Option PeerId
  | .request req _ _ => some req.recipient
  | .sourceReady peer _ _ _ _ | .sourceReject peer _ | .rtc peer _ _ _ _ | .directReady peer _ _ _
  | .directFailed peer _ _ _ _ | .cancel peer _ | .progress peer _ _ _ | .complete peer _ _ _ => some peer
  | _ => none

/-- The registry, and the peer whose message each task is at work on. -/
structure Traced where
  system : System
  senders : Nat → Option PeerId

def Traced.sender (t : Traced) : Action → Option PeerId
  | .call _ _ c => messageOf c
  | .resume i _ _ => t.senders i

def traced (cfg : Config) (t : Traced) (a : Action) : Option Traced :=
  (step cfg t.system a).map (fun s => ⟨s, Function.update t.senders t.system.nextTask (t.sender a)⟩)

def tracedInitial (cfg : Config) (maxPeersGlobal : Nat) (relayOnly : RoomRef → Bool) : Traced :=
  ⟨initial cfg maxPeersGlobal relayOnly, fun _ => none⟩

/-- The transfer on which a task goes on without asking again who its sender is. -/
def taskTransfer : Task → Option (RoomRef × TransferId)
  | .requestSend room checked => some (room, checked.id)
  | .failedClear key _ _ _ _ | .failedFallback key _ _ _ _ | .failedAdopt key _ | .admitWait key | .admitHold key _ =>
    some (key.room, key.transfer)
  | .spawnAdmit room id => some (room, id)
  | _ => none

/-- A transfer identifier that a request draws is not the one that a pending
task is at work on. -/
def FreshTransfer (t : Traced) : Action → Prop
  | .call room _ (.request _ draws _) => ∀ id ∈ draws, ∀ i task, t.system.tasks.get? i = some task →
      taskTransfer task ≠ some (room, id)
  | _ => True

/-- The task may go on for the peer: it will ask who the peer is, or its
transfer is the peer's. -/
def OwnTask (s : System) (peer : PeerId) (task : Task) : Prop :=
  (∃ room id attempt, task = .readyTail room peer id attempt) ∨
    ∃ room id, taskTransfer task = some (room, id) ∧ Party peer (s.scope room) id

structure Attributed (t : Traced) : Prop where
  bounded : ∀ i task, t.system.tasks.get? i = some task → i < t.system.nextTask
  own : ∀ i task peer, t.system.tasks.get? i = some task → t.senders i = some peer → OwnTask t.system peer task

section Steps

variable {cfg : Config} {s s' : System} {a : Action}
variable {id : TransferId} {sc : Scope} {peer : PeerId} {room : RoomRef} {now : Instant} {task : Task}

variable {req : TransferRequest} {draws : List TransferId}

theorem creates_draw {room : Room} (h : creates cfg room req draws id) : id ∈ draws := by
  obtain ⟨_, _, _, hdraw⟩ := h
  exact mem_of_mem_take (mem_of_find?_eq_some hdraw)

variable {sc' : Scope}

theorem party_of_change {allowed drawn} (hc : Change allowed drawn (sc.record? id) (sc'.record? id))
    (hd : ∀ a, ¬ drawn a) (hp : Party peer sc id) : Party peer sc' id := by
  intro r' hr' hstranger
  rw [hr'] at hc
  generalize ho : sc.record? id = o at hc
  cases hc with
  | same => exact hp r' ho hstranger
  | moved _ hm =>
    obtain ⟨hsource, hrecipient⟩ := participants_move hm
    exact hp _ ho ⟨hsource ▸ hstranger.source, hrecipient ▸ hstranger.recipient⟩
  | created ha => exact hd _ ha

theorem step_party (h : step cfg s a = some s')
    (hdraw : ∀ now req draws draw, a = .call room now (.request req draws draw) → id ∉ draws)
    (hp : Party peer (s.scope room) id) : Party peer (s'.scope room) id := by
  refine party_of_change (step_steps h room id) (fun _ hd => ?_) hp
  obtain ⟨now, req, draws, ha, hcreates⟩ := hd
  exact hdraw now req draws _ ha (creates_draw hcreates)

theorem directFailedParty_party {result : Bool × PeerId}
    (h : directFailedParty peer id sc = .ok result) : Party peer sc id := by
  rw [directFailedParty] at h
  split at h
  · cases h
  rename_i hr
  split at h
  · cases h
  rename_i hside
  exact sideOf_party hr hside

theorem sourceReady_party {pair : TicketPair} {attempt : AttemptId} {digest : Digest} {result : ReadyOutcome × Outbox}
    (h : (sourceReady cfg now pair peer id attempt digest sc).2 = .ok result) : Party peer sc id := by
  rw [sourceReady] at h
  split at h
  · cases h
  rename_i hr
  split at h
  · cases h
  rename_i hguard
  exact party_of_record hr (sourceReadyGuard_party hguard)

theorem requestCheck_party {draw : AttemptId} {checked : Checked}
    (h : requestCheck cfg now draws draw req sc = (sc', .ok (.proceed checked))) :
    Party req.recipient sc' checked.id := by
  rw [requestCheck.eq_def] at h
  split at h
  · cases h
  split at h
  · rename_i id record hfind
    split at h
    · cases h
    split at h
    · cases h
    cases h
    intro r hr hstranger
    rw [record?_installAttempt, if_pos rfl] at hr
    obtain ⟨old, hold, rfl⟩ := map_eq_some_iff.mp hr
    have hrec : sc.record? id = some record :=
      (Table.get?_eq_some_iff _ _ _).mpr (mem_of_find?_eq_some hfind)
    rw [hrec] at hold
    cases hold
    have hsame := find?_some hfind
    simp only [sameSelection, Bool.and_eq_true, beq_iff_eq] at hsame
    exact hstranger.recipient hsame.1.1.2
  split at h
  · cases h
  split at h
  · cases h
  cases h
  intro r hr hstranger
  change (gcTerminalsLocked now _).transfers.get? _ = some r at hr
  rw [gc_record, Table.get?_insert_self] at hr
  obtain ⟨he, _⟩ := filter_eq_some_iff.mp hr
  cases he
  exact hstranger.recipient rfl

theorem callStep_own {c : Call} (hc : messageOf c = some peer) (hnone : s.tasks.get? s.nextTask = none)
    (h : (callStep cfg s room now c).tasks.get? s.nextTask = some task) :
    OwnTask (callStep cfg s room now c) peer task := by
  have spawned : ∀ {t : System} {new : Task}, t.tasks = s.tasks → t.nextTask = s.nextTask →
      (t.spawn new).tasks.get? s.nextTask = some task → task = new := by
    intro t new ht hn h
    rw [System.spawn, ht, hn] at h
    rw [Table.get?_insert_self] at h
    exact (some.inj h).symm
  have quiet : ∀ {t : System}, t.tasks = s.tasks → t.tasks.get? s.nextTask = some task → OwnTask t peer task := by
    intro t ht h
    rw [ht, hnone] at h
    cases h
  have placed : ∀ {t : System} {sc : Scope} {id : TransferId}, t.rooms = Function.update s.rooms room sc.room → Party peer sc id →
      Party peer (t.scope room) id := by
    intro t sc id ht hp r hr
    refine hp r ?_
    change (t.rooms room).transfers.get? id = some r at hr
    rwa [ht, Function.update_self] at hr
  revert h
  cases c with
  | request =>
    cases hc
    simp only [callStep]
    split
    · rename_i checked hcheck
      intro h
      cases spawned rfl rfl h
      exact .inr ⟨room, checked.id, rfl, placed rfl (requestCheck_party hcheck)⟩
    · exact quiet rfl
  | sourceReady _ id attempt digest pair =>
    cases hc
    simp only [callStep, readyOutcome]
    split
    · exact quiet rfl
    rename_i hready
    split
    · intro h
      cases spawned rfl rfl h
      have hsec : Section cfg [] (some pair) _ noDraw (s.scope room)
          (sourceReady cfg now pair peer id attempt digest (s.scope room)).1 := sourceReady_section digest
      exact .inr ⟨room, id, rfl, placed rfl (party_of_change (hsec.evolves _) (fun _ h => h) (sourceReady_party hready))⟩
    · exact quiet rfl
  | directReady _ id attempt =>
    cases hc
    simp only [callStep]
    split
    · exact quiet rfl
    · intro h
      cases spawned rfl rfl h
      exact .inl ⟨room, id, attempt, rfl⟩
    · exact quiet rfl
  | directFailed _ id =>
    cases hc
    simp only [callStep]
    split
    · rename_i hparty
      intro h
      cases spawned rfl rfl h
      exact .inr ⟨room, id, rfl, directFailedParty_party hparty⟩
    · exact quiet rfl
  | cancel =>
    simp only [callStep]
    split <;> exact quiet rfl
  | sourceReject | rtc | progress | complete => exact quiet rfl
  | _ => cases hc

theorem relayTask_of_own (h : OwnTask s peer task) : relayTask task = false := by
  rcases h with ⟨room, id, attempt, rfl⟩ | ⟨room, id, ht, _⟩
  · rfl
  · cases task <;> first | rfl | cases ht

theorem party_of_own (h : OwnTask s peer task)
    (ht : taskTransfer task = some (room, id)) : Party peer (s.scope room) id := by
  rcases h with ⟨_, _, _, rfl⟩ | ⟨room', id', ht', hp⟩
  · cases ht
  · rw [ht] at ht'
    cases ht'
    exact hp

theorem resume_own {i j : Nat} {choice : Choice} {old : Task}
    (hcame : Came cfg s (.resume i now choice) j task) (hold : s.tasks.get? j = some old)
    (hk : relayTask old = relayTask task) (hown : OwnTask s peer old) :
    ∃ room id, taskTransfer old = some (room, id) ∧ taskTransfer task = some (room, id) := by
  have hkind : relayTask task = false := hk.symm.trans (relayTask_of_own hown)
  cases task with
  | requestSend =>
    obtain ⟨_, _, _, _, _, ha, _⟩ := hcame
    cases ha
  | readyTail =>
    obtain ⟨_, _, ha⟩ := hcame
    cases ha
  | failedClear =>
    obtain ⟨_, _, ha, _⟩ := hcame
    cases ha
  | failedFallback =>
    cases hold.symm.trans hcame
    exact ⟨_, _, rfl, rfl⟩
  | failedAdopt =>
    obtain ⟨_, _, hcame⟩ := hcame
    cases hold.symm.trans hcame
    exact ⟨_, _, rfl, rfl⟩
  | spawnAdmit =>
    rcases hcame with ⟨_, _, _, _, ha⟩ | ⟨_, _, _, _, _, hcame⟩
    · cases ha
    · cases hold.symm.trans hcame
      exact ⟨_, _, rfl, rfl⟩
  | admitWait =>
    rcases hcame with ⟨_, _, _, _, ha⟩ | hcame
    · cases ha
    · cases hold.symm.trans hcame
      exact ⟨_, _, rfl, rfl⟩
  | admitHold =>
    cases hold.symm.trans hcame.1
    exact ⟨_, _, rfl, rfl⟩
  | _ => cases hkind

end Steps

section Traced

variable {cfg : Config} {t t' : Traced} {a : Action}
variable {room : RoomRef}

theorem traced_system (h : traced cfg t a = some t') : step cfg t.system a = some t'.system ∧
    t'.senders = Function.update t.senders t.system.nextTask (t.sender a) := by
  obtain ⟨s, hs, rfl⟩ := map_eq_some_iff.mp h
  exact ⟨hs, rfl⟩

theorem traced_attributed (h : traced cfg t a = some t') (hf : FreshTransfer t a) (ht : Attributed t) : Attributed t' := by
  obtain ⟨hs, hsenders⟩ := traced_system h
  have drawn : ∀ {i : Nat} {task : Task} {room : RoomRef} {id : TransferId}, t.system.tasks.get? i = some task →
      taskTransfer task = some (room, id) →
      ∀ now req draws draw, a = .call room now (.request req draws draw) → id ∉ draws := by
    rintro i task room id hi htransfer now req draws draw rfl hmem
    exact hf id hmem i task hi htransfer
  have kept : ∀ {i : Nat} {task : Task} {peer : PeerId}, t.system.tasks.get? i = some task →
      OwnTask t.system peer task → OwnTask t'.system peer task := by
    intro i task peer hi hown
    rcases hown with hready | ⟨room, id, htransfer, hp⟩
    · exact .inl hready
    · exact .inr ⟨room, id, htransfer, step_party hs (drawn hi htransfer) hp⟩
  constructor
  · exact (step_taskStep hs).bounded ht.bounded
  have before : ∀ {j : Nat} {task : Task} {peer : PeerId}, t.system.tasks.get? j = some task →
      t'.senders j = some peer → OwnTask t.system peer task := by
    intro j task peer hj hsend
    rw [hsenders, Function.update_of_ne (ht.bounded j task hj).ne] at hsend
    exact ht.own j task peer hj hsend
  intro j task peer hj hsend
  rcases step_tasks hs j task hj with hold | hcame
  · exact kept hold (before hold hsend)
  rcases (step_taskStep hs).index hj with hold | ⟨i, now, choice, old, rfl, hold, hk⟩ | ⟨room, now, c, rfl, rfl, _⟩
  · exact kept hold (before hold hsend)
  · have hown := before hold hsend
    obtain ⟨room, id, hfrom, hto⟩ := resume_own hcame hold hk hown
    exact .inr ⟨room, id, hto, step_party hs (drawn hold hfrom) (party_of_own hown hfrom)⟩
  · rw [hsenders, Function.update_self] at hsend
    have hcall : callStep cfg t.system room now c = t'.system := some.inj hs
    rw [← hcall] at hj ⊢
    refine callStep_own hsend ?_ hj
    cases hnone : t.system.tasks.get? t.system.nextTask with
    | none => rfl
    | some old => exact absurd (ht.bounded _ old hnone) (lt_irrefl _)

def timeOf : Action → Instant
  | .call _ now _ => now
  | .resume _ now _ => now

variable {peer : PeerId}

theorem ran_spares (ht : Attributed t) (hsend : t.sender a = some peer) {sc : Scope}
    {outbox : Outbox} (h : Ran cfg t.system a room sc outbox) :
    Spares (timeOf a) peer (t.system.scope room) sc outbox := by
  cases h with
  | still | take => exact spares_same rfl
  | join | openSession | rename | publish | withdraw | leave | deadline | upgradeElapsed | probeDeadline | attach =>
    cases hsend
  | request _ _ req draws draw =>
    cases hsend
    exact requestCheck_spares draws draw req rfl
  | sourceReady _ _ _ _ _ digest =>
    cases hsend
    exact sourceReady_spares digest
  | sourceReject =>
    cases hsend
    exact sourceReject_spares
  | rtc _ _ _ _ _ carrier signal =>
    cases hsend
    exact forwardRtc_spares carrier signal
  | upgradeReady _ _ _ _ _ ranges =>
    cases hsend
    exact upgradeReady_spares ranges
  | cancel =>
    cases hsend
    exact cancelTransfer_spares
  | progress _ _ _ _ _ receivedBytes =>
    cases hsend
    exact reportProgress_spares receivedBytes
  | complete _ _ _ _ _ root =>
    cases hsend
    exact completeTransfer_spares root
  | deliver i _ _ _ _ hi =>
    have hp := party_of_own (ht.own i _ peer hi hsend) rfl
    refine requestDeliver_spares hp _ ?_
    split
    · exact within_one fun _ h => h.symm
    · exact within_nil
  | directReady i _ _ _ _ _ hi =>
    rcases ht.own i _ peer hi hsend with ⟨_, _, _, he⟩ | ⟨_, _, he, _⟩
    · cases he
      exact directReady_spares
    · cases he
  | clear i _ _ _ _ _ _ hi => exact clearUpgrade_spares (party_of_own (ht.own i _ peer hi hsend) rfl)
  | fallback i _ _ _ _ _ _ _ _ _ _ hi hf =>
    exact fallbackToRelay_spares (party_of_own (ht.own i _ peer hi hsend) rfl) hf fun _ h => h.symm
  | adopt i _ _ ranges hi => exact adoptLateRecipientResume_spares (party_of_own (ht.own i _ peer hi hsend) rfl) ranges
  | busy i _ _ hi => exact admitTimeout_spares (party_of_own (ht.own i _ peer hi hsend) rfl)
  | issue i _ _ permit _ hi => exact admitIssue_spares (party_of_own (ht.own i _ peer hi hsend) rfl) permit
  | enter i _ _ _ _ hi | abandon i _ _ _ _ _ hi | activate i _ _ _ _ hi | commit i _ _ _ _ _ hi | release i _ _ _ hi
      | fail i _ _ _ _ hi =>
      cases relayTask_of_own (ht.own i _ peer hi hsend)

def SilentAbout (room : RoomRef) (id : TransferId) (t t' : Traced) : Prop :=
  ∃ sent, t'.system.notices = t.system.notices ++ sent ∧
    ∀ peer envelope, (room, peer, envelope) ∈ sent → ¬ Concerns id envelope

variable {id : TransferId}

theorem SilentAbout.trans {u : Traced} (h : SilentAbout room id t u)
    (k : SilentAbout room id u t') : SilentAbout room id t t' := by
  obtain ⟨sent, hsent, hquiet⟩ := h
  obtain ⟨sent', hsent', hquiet'⟩ := k
  refine ⟨sent ++ sent', by rw [hsent', hsent, append_assoc], fun peer envelope hm => ?_⟩
  rcases mem_append.mp hm with hm | hm
  · exact hquiet peer envelope hm
  · exact hquiet' peer envelope hm

theorem traced_spares (h : traced cfg t a = some t') (ht : Attributed t) (hsend : t.sender a = some peer)
    {r : TransferRecord} (hr : t.system.record? room id = some r)
    (hs : Stranger peer r) : Spared (timeOf a) r (t'.system.record? room id) ∧ SilentAbout room id t t' := by
  obtain ⟨room', sc, outbox, hleft⟩ := step_left (traced_system h).1
  have hspares := ran_spares ht hsend hleft.ran
  have hrooms := congrFun hleft.rooms room
  by_cases hroom : room = room'
  · subst hroom
    obtain ⟨hkept, hquiet⟩ := hspares id r hr hs
    rw [Function.update_self] at hrooms
    refine ⟨?_, _, hleft.notices, fun p envelope hm hc => ?_⟩
    · rw [System.record?, hrooms]
      exact hkept
    · obtain ⟨e, he, heq⟩ := mem_map.mp hm
      cases heq
      exact hquiet e he hc
  rw [Function.update_of_ne hroom] at hrooms
  refine ⟨.inl ?_, _, hleft.notices, fun p envelope hm _ => ?_⟩
  · rw [System.record?, hrooms]
    exact hr
  · obtain ⟨e, _, heq⟩ := mem_map.mp hm
    exact hroom (congrArg Prod.fst heq).symm

end Traced

def MessagesOf (peer : PeerId) (t : Traced) (a : Action) : Prop := FreshTransfer t a ∧ t.sender a = some peer

/-- Whatever transfer messages a stranger sends, and however their critical
sections fall among those of others, the record of the transfer stays as it is
and nobody hears about it. Only a record that has ended and outlived its
retention can be collected. -/
theorem strangers_leave_transfers_alone (cfg : Config) (maxPeersGlobal : Nat) (relayOnly : RoomRef → Bool) (t t' : Traced)
    (hreach : Reaches (traced cfg) FreshTransfer (tracedInitial cfg maxPeersGlobal relayOnly) t)
    (room : RoomRef) (id : TransferId) (r : TransferRecord) (hr : t.system.record? room id = some r)
    (peer : PeerId) (hs : Stranger peer r) (hrun : Reaches (traced cfg) (MessagesOf peer) t t') :
    t'.system.record? room id = some r ∧ SilentAbout room id t t' ∨
      ∃ u a u', Reaches (traced cfg) (MessagesOf peer) t u ∧ u.system.record? room id = some r ∧
        MessagesOf peer u a ∧ traced cfg u a = some u' ∧ Reaches (traced cfg) (MessagesOf peer) u' t' ∧
        SilentAbout room id t u' ∧ u'.system.record? room id = none ∧ r.state.isLive = false ∧
        ∃ ended, r.terminatedAt = some ended ∧ terminalRetention ≤ timeOf a - ended := by
  have hstart : Attributed (tracedInitial cfg maxPeersGlobal relayOnly) :=
    ⟨nofun, nofun⟩
  have hattr : Attributed t := hreach.invariant hstart fun _ _ _ hu hf hstep => traced_attributed hstep hf hu
  have hkeep : ∀ u, Reaches (traced cfg) (MessagesOf peer) t u → Attributed u := fun u hu =>
    hu.invariant hattr fun _ _ _ hv hm hstep => traced_attributed hstep hm.1 hv
  induction hrun with
  | refl => exact .inl ⟨hr, [], (append_nil _).symm, nofun⟩
  | @tail u v hu hm ih =>
    obtain ⟨a, hmsg, hstep⟩ := hm
    rcases ih with ⟨hru, hquiet⟩ | ⟨w, b, w', hw, hrw, hb, hwb, hw', hrest⟩
    · obtain ⟨hkept, hsilent⟩ := traced_spares hstep (hkeep u hu) hmsg.2 hru hs
      rcases hkept with hsame | ⟨hold, hnone⟩
      · exact .inl ⟨hsame, hquiet.trans hsilent⟩
      refine .inr ⟨u, a, v, hu, hru, hmsg, hstep, .refl, hquiet.trans hsilent, hnone, ?_⟩
      simp only [retained, Bool.or_eq_false_iff] at hold
      refine ⟨hold.1, ?_⟩
      cases hended : r.terminatedAt with
      | none => simp [hended] at hold
      | some ended =>
        simp only [hended, decide_eq_false_iff_not, Nat.not_lt] at hold
        exact ⟨ended, rfl, hold.2⟩
    · exact .inr ⟨w, b, w', hw, hrw, hb, hwb, hw'.tail hmsg hstep, hrest⟩

def freshCheck (t : Traced) : Action → Bool
  | .call room _ (.request _ draws _) =>
    draws.all (fun id => t.system.tasks.values.all (fun task => taskTransfer task != some (room, id)))
  | _ => true

variable {t : Traced} {a : Action}

theorem fresh_of_check (h : freshCheck t a = true) : FreshTransfer t a := by
  rw [freshCheck.eq_def] at h
  rw [FreshTransfer.eq_def]
  split at h
  · intro id hid i task hi
    have htask := all_eq_true.mp (all_eq_true.mp h id hid) task ((Table.mem_values_iff _ _).mpr ⟨i, hi⟩)
    simpa using htask
  · trivial

def messageCheck (peer : PeerId) (t : Traced) (a : Action) : Bool :=
  freshCheck t a && decide (t.sender a = some peer)

theorem messages_of_check {peer : PeerId} (h : messageCheck peer t a = true) : MessagesOf peer t a := by
  rw [messageCheck, Bool.and_eq_true, decide_eq_true_eq] at h
  exact ⟨fresh_of_check h.1, h.2⟩

def sampleTraced : Traced := tracedInitial sampleConfig 100 (fun _ => false)

def sampleStranger : List Action := [.call 0 0 (.join 3 none), .call 0 0 (.openSession 3)]

theorem stranger_runs {B C : Type} {x : B} {y : C} (as bs : List Action) (f : Traced → B) (g : Traced → C)
    (h : (execWhile (traced sampleConfig) freshCheck sampleTraced as).bind (fun t =>
      (execWhile (traced sampleConfig) (messageCheck 3) t bs).map (fun u => (f t, g u))) = some (x, y)) :
    ∃ t t', Reaches (traced sampleConfig) FreshTransfer sampleTraced t ∧ f t = x ∧
      Reaches (traced sampleConfig) (MessagesOf 3) t t' ∧ g t' = y := by
  obtain ⟨t, ht, h⟩ := bind_eq_some_iff.mp h
  obtain ⟨u, hu, h⟩ := map_eq_some_iff.mp h
  cases h
  exact ⟨t, u, (execWhile_reaches as ht).mono fun _ _ => fresh_of_check, rfl,
    (execWhile_reaches bs hu).mono fun _ _ => messages_of_check, rfl⟩

def partiesAndState (t : Traced) : Option (PeerId × PeerId × TransferState) :=
  (t.system.record? 0 100).map (fun r => (r.source, r.recipient, r.state))

theorem stranger_of_parties {r : TransferRecord} {state : TransferState}
    (h : (r.source, r.recipient, r.state) = (1, 2, state)) : Stranger 3 r := by
  have hsource : r.source = 1 := congrArg Prod.fst h
  have hrecipient : r.recipient = 2 := congrArg (·.2.1) h
  constructor
  · rw [hsource]
    decide
  · rw [hrecipient]
    decide

/-- Peer 3 tries to cancel the transfer, to report it ready and to fail it, and
requests the same offer. -/
theorem strangers_leave_transfers_alone_sample :
    ∃ t t' r, Reaches (traced sampleConfig) FreshTransfer sampleTraced t ∧ t.system.record? 0 100 = some r ∧
      Stranger 3 r ∧ Reaches (traced sampleConfig) (MessagesOf 3) t t' ∧ t'.system.nextTask = 3 ∧
      t'.system.record? 0 100 = some r ∧ SilentAbout 0 100 t t' := by
  obtain ⟨t, t', hreach, ht, hrun, ht'⟩ : ∃ t t', Reaches (traced sampleConfig) FreshTransfer sampleTraced t ∧
      partiesAndState t = some (1, 2, .waitingSource) ∧ Reaches (traced sampleConfig) (MessagesOf 3) t t' ∧
      t'.system.nextTask = 3 :=
    stranger_runs (sampleRequest ++ sampleStranger) [.call 0 0 (.cancel 3 100),
      .call 0 0 (.directReady 3 100 10 []), .resume 1 0 .go, .call 0 0 (.directFailed 3 100 10 "timeout" [(0, 1)]),
      .call 0 0 (.request ⟨3, 1, ["0"], 5, "raw", none⟩ [300] 30), .resume 2 0 (.accepted true)]
      partiesAndState (fun t => t.system.nextTask) (by decide +kernel)
  obtain ⟨r, hr, he⟩ := map_eq_some_iff.mp ht
  have hs : Stranger 3 r := stranger_of_parties he
  rcases strangers_leave_transfers_alone sampleConfig 100 (fun _ => false) t t' hreach 0 100 r hr 3 hs hrun with
    hkept | ⟨_, _, _, _, _, _, _, _, _, _, hended, _⟩
  · exact ⟨t, t', r, hreach, hr, hs, hrun, ht', hkept⟩
  · have hlive : r.state = .waitingSource := congrArg (·.2.2) he
    rw [hlive] at hended
    cases hended

/-- A request of peer 3 five minutes after the end of the transfer collects its
record. -/
theorem stranger_collects_record :
    ∃ t t' r, Reaches (traced sampleConfig) FreshTransfer sampleTraced t ∧ t.system.record? 0 100 = some r ∧
      Stranger 3 r ∧ Reaches (traced sampleConfig) (MessagesOf 3) t t' ∧ t'.system.record? 0 100 = none := by
  obtain ⟨t, t', hreach, ht, hrun, ht'⟩ : ∃ t t', Reaches (traced sampleConfig) FreshTransfer sampleTraced t ∧
      partiesAndState t = some (1, 2, .cancelled) ∧ Reaches (traced sampleConfig) (MessagesOf 3) t t' ∧
      t'.system.record? 0 100 = none :=
    stranger_runs (sampleRequest ++ sampleStranger ++ [.call 0 0 (.cancel 2 100)])
      [.call 0 terminalRetention (.request ⟨3, 1, ["0"], 5, "raw", none⟩ [300] 30)]
      partiesAndState (fun t => t.system.record? 0 100) (by decide +kernel)
  obtain ⟨r, hr, he⟩ := map_eq_some_iff.mp ht
  exact ⟨t, t', r, hreach, hr, stranger_of_parties he, hrun, ht'⟩

end Bore.RegistryStrangers
