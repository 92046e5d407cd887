import Bore.RegistryTasks

namespace Bore.RegistrySections

open RegistryTypes RegistryOps RegistryDirect RegistryRelay RegistryCatalogue RegistrySystem RegistryTasks

def withdrawOutbox : Except WebTransferError (Option (RoomEvent × Outbox)) → Outbox
  | .ok (some (_, outbox)) => outbox
  | _ => []

def departureOutbox : Option Departure → Outbox
  | some departure => departure.outbox
  | none => []

def readyOutbox : Except WebTransferError (ReadyOutcome × Outbox) → Outbox
  | .ok (_, outbox) => outbox
  | .error _ => []

def upgradeOutbox : Except WebTransferError (Option Outbox) → Outbox
  | .ok (some outbox) => outbox
  | _ => []

def cancelOutbox : Except WebTransferError (CancelOutcome × Outbox) → Outbox
  | .ok (_, outbox) => outbox
  | .error _ => []

/-- The critical section that a step runs: the room it locks, what it leaves
there and in the shared state, and what it hands over for delivery. -/
inductive Ran (cfg : Config) (s : System) : Action → RoomRef → Scope → Outbox → Prop
  | still (a room) : Ran cfg s a room (s.scope room) []
  | join (room now peer name) :
      Ran cfg s (.call room now (.join peer name)) room (joinPeer cfg peer name (s.scope room)).1 []
  | openSession (room now peer) :
      Ran cfg s (.call room now (.openSession peer)) room ⟨s.inner, RegistryCatalogue.openSession peer (s.rooms room)⟩ []
  | rename (room now peer name) :
      Ran cfg s (.call room now (.rename peer name)) room ⟨s.inner, (renamePeer cfg peer name (s.rooms room)).1⟩ []
  | publish (room now peer offer manifestOffer canonical mac) :
      Ran cfg s (.call room now (.publish peer offer manifestOffer canonical mac)) room
        (publishOffer cfg peer offer manifestOffer canonical mac (s.scope room)).1 []
  | withdraw (room now peer offer) :
      Ran cfg s (.call room now (.withdraw peer offer)) room (withdrawOffer now peer offer (s.scope room)).1
        (withdrawOutbox (withdrawOffer now peer offer (s.scope room)).2)
  | leave (room now peer) :
      Ran cfg s (.call room now (.leave peer)) room (removePeer now peer (s.scope room)).1
        (departureOutbox (removePeer now peer (s.scope room)).2)
  | request (room now req draws draw) :
      Ran cfg s (.call room now (.request req draws draw)) room (requestCheck cfg now draws draw req (s.scope room)).1 []
  | sourceReady (room now peer id attempt digest pair) :
      Ran cfg s (.call room now (.sourceReady peer id attempt digest pair)) room
        (RegistryRelay.sourceReady cfg now pair peer id attempt digest (s.scope room)).1
        (readyOutbox (RegistryRelay.sourceReady cfg now pair peer id attempt digest (s.scope room)).2)
  | sourceReject (room now peer id) :
      Ran cfg s (.call room now (.sourceReject peer id)) room (RegistryRelay.sourceReject now peer id (s.scope room)).1
        (outboxOf (RegistryRelay.sourceReject now peer id (s.scope room)).2)
  | rtc (room now peer id attempt carrier signal) :
      Ran cfg s (.call room now (.rtc peer id attempt carrier signal)) room
        (forwardRtc cfg peer id attempt carrier signal (s.scope room)).1
        (outboxOf (forwardRtc cfg peer id attempt carrier signal (s.scope room)).2)
  | upgradeReady (room now peer id attempt ranges) :
      Ran cfg s (.call room now (.directReady peer id attempt ranges)) room
        (RegistryDirect.upgradeReady peer id attempt ranges (s.scope room)).1
        (upgradeOutbox (RegistryDirect.upgradeReady peer id attempt ranges (s.scope room)).2)
  | deadline (room now id attempt draw pair sc fallback)
      (h : fallbackToRelay cfg now draw pair id attempt [] .deadline (s.scope room) = (sc, some fallback)) :
      Ran cfg s (.call room now (.deadline id attempt draw pair)) room sc
        (deadlineOutbox (sc.record? id) id attempt fallback.ranges ++ fallback.outbox)
  | upgradeElapsed (room now id draw) :
      Ran cfg s (.call room now (.upgradeElapsed id draw)) room
        (directUpgradeElapsed cfg now draw id (s.scope room)).1 (directUpgradeElapsed cfg now draw id (s.scope room)).2
  | probeDeadline (room now id attempt) :
      Ran cfg s (.call room now (.probeDeadline id attempt)) room (clearUpgrade id attempt (s.scope room)).1 []
  | cancel (room now peer id) :
      Ran cfg s (.call room now (.cancel peer id)) room (cancelTransfer now peer id (s.scope room)).1
        (cancelOutbox (cancelTransfer now peer id (s.scope room)).2)
  | progress (room now peer id attempt receivedBytes) :
      Ran cfg s (.call room now (.progress peer id attempt receivedBytes)) room
        (reportProgress peer id attempt receivedBytes (s.scope room)).1
        (outboxOf (reportProgress peer id attempt receivedBytes (s.scope room)).2)
  | complete (room now peer id attempt root) :
      Ran cfg s (.call room now (.complete peer id attempt root)) room
        (completeTransfer now peer id attempt root (s.scope room)).1
        (outboxOf (completeTransfer now peer id attempt root (s.scope room)).2)
  | attach (room now attach) :
      Ran cfg s (.call room now (.attach attach)) room ⟨(joinConsume cfg now attach s.inner).1, s.rooms room⟩ []
  | deliver (i now room checked queued) (hi : s.tasks.get? i = some (.requestSend room checked)) :
      Ran cfg s (.resume i now (.accepted queued)) room
        (requestDeliver now ((s.rooms room).sessions.contains checked.source && queued) checked.id (s.scope room))
        (if (s.rooms room).sessions.contains checked.source && queued then incomingNotice checked else [])
  | directReady (i now room peer id attempt) (hi : s.tasks.get? i = some (.readyTail room peer id attempt)) :
      Ran cfg s (.resume i now .go) room (RegistryDirect.directReady peer id attempt (s.scope room)).1
        (outboxOf (RegistryDirect.directReady peer id attempt (s.scope room)).2)
  | clear (i now key isRecipient counterpart reason ranges)
      (hi : s.tasks.get? i = some (.failedClear key isRecipient counterpart reason ranges)) :
      Ran cfg s (.resume i now .go) key.room (clearUpgrade key.transfer key.attempt (s.scope key.room)).1 []
  | fallback (i now key isRecipient counterpart reason ranges draw pair sc fallback)
      (hi : s.tasks.get? i = some (.failedFallback key isRecipient counterpart reason ranges))
      (h : fallbackToRelay cfg now draw pair key.transfer key.attempt (if isRecipient then ranges else []) .reported
        (s.scope key.room) = (sc, some fallback)) :
      Ran cfg s (.resume i now (.fallback draw pair)) key.room sc
        ((counterpart, .directFailed key.transfer key.attempt reason fallback.ranges) :: fallback.outbox)
  | adopt (i now key ranges) (hi : s.tasks.get? i = some (.failedAdopt key ranges)) :
      Ran cfg s (.resume i now .go) key.room
        (adoptLateRecipientResume key.transfer key.attempt ranges (s.scope key.room)) []
  | take (i now key permit rest room) (hi : s.tasks.get? i = some (.admitWait key))
      (h : s.inner.relayPermits = permit :: rest) :
      Ran cfg s (.resume i now .go) room ⟨{ s.inner with relayPermits := rest }, s.rooms room⟩ []
  | busy (i now key) (hi : s.tasks.get? i = some (.admitWait key)) :
      Ran cfg s (.resume i now .timeout) key.room (s.scope key.room)
        (admitTimeout key.transfer key.attempt (s.scope key.room))
  | issue (i now key permit pair) (hi : s.tasks.get? i = some (.admitHold key permit)) :
      Ran cfg s (.resume i now (.tickets pair)) key.room
        (admitIssue cfg now pair key.transfer key.attempt permit (s.scope key.room)).1
        (admitIssue cfg now pair key.transfer key.attempt permit (s.scope key.room)).2
  | enter (i now room attach cancel) (hi : s.tasks.get? i = some (.legEntering room attach cancel)) :
      Ran cfg s (.resume i now .go) room ⟨(joinEnter attach i s.inner).1, s.rooms room⟩ []
  | abandon (i now choice room attach cancel) (hi : s.tasks.get? i = some (.legParked room attach cancel)) :
      Ran cfg s (.resume i now choice) room
        ⟨(abandonRelayWaiter attach.transferId attach.attemptId s.inner).1, s.rooms room⟩ []
  | activate (i now key source recipient) (hi : s.tasks.get? i = some (.legPaired key source recipient)) :
      Ran cfg s (.resume i now .go) key.room (activateRelay key.transfer key.attempt (s.scope key.room)).1 []
  | commit (i now key source recipient cancel) (hi : s.tasks.get? i = some (.pumpStart key source recipient cancel)) :
      Ran cfg s (.resume i now .go) key.room (s.scope key.room)
        (relayCommit key.transfer key.attempt source recipient (s.scope key.room))
  | release (i now key how) (hi : s.tasks.get? i = some (.pumpClosing key how)) :
      Ran cfg s (.resume i now .go) key.room (releaseRelayPermit key.transfer key.attempt (s.scope key.room)).1 []
  | fail (i now key source recipient) (hi : s.tasks.get? i = some (.abortFail key source recipient)) :
      Ran cfg s (.resume i now .go) key.room (failTransfer now key.transfer (s.scope key.room)).1
        (if (failTransfer now key.transfer (s.scope key.room)).2 then
          [(source, .errorAnon "DIRECT_FAILED" (some (toString key.transfer))),
            (recipient, .errorAnon "DIRECT_FAILED" (some (toString key.transfer)))]
        else [])

/-- The state a section leaves, up to the tasks and the history of aborts. -/
structure Left (cfg : Config) (s : System) (a : Action) (s' : System) (room : RoomRef) (sc : Scope) (outbox : Outbox) :
    Prop where
  ran : Ran cfg s a room sc outbox
  state : s' = { (s.put room sc).notify cfg room outbox with
    tasks := s'.tasks, nextTask := s'.nextTask, aborts := s'.aborts }
  tasks : TaskStep cfg s a s'

def Leaves (cfg : Config) (s : System) (a : Action) (s' : System) : Prop :=
  ∃ room sc outbox, Left cfg s a s' room sc outbox

section Left

variable {cfg : Config} {s s' : System} {a : Action} {room : RoomRef} {sc : Scope} {outbox : Outbox}

section

variable (h : Left cfg s a s' room sc outbox)
include h

theorem Left.inner : s'.inner = sc.inner := by
  rw [h.state]
  rfl

theorem Left.rooms : s'.rooms = Function.update s.rooms room sc.room := by
  rw [h.state]
  rfl

theorem Left.notices : s'.notices = s.notices ++ outbox.map (fun (peer, envelope) => (room, peer, envelope)) := by
  rw [h.state]
  rfl

theorem Left.issued : s'.issued = s.issued ++ outbox.filterMap (ticketNotice cfg sc.inner room) := by
  rw [h.state]
  rfl

end

theorem left_quiet (h : Ran cfg s a room sc []) (hs : s' = { s.put room sc with
      tasks := s'.tasks, nextTask := s'.nextTask, aborts := s'.aborts }) (ht : TaskStep cfg s a s') :
    Leaves cfg s a s' := by
  refine ⟨room, sc, [], h, ?_, ht⟩
  rw [System.notify, List.map_nil, List.filterMap_nil, List.append_nil, List.append_nil]
  exact hs

theorem left_inner {inner : RegistryInner} (h : Ran cfg s a room ⟨inner, s.rooms room⟩ [])
    (hs : s' = { s with inner := inner, tasks := s'.tasks, nextTask := s'.nextTask, aborts := s'.aborts })
    (ht : TaskStep cfg s a s') : Leaves cfg s a s' := by
  refine left_quiet h ?_ ht
  rw [System.put, Function.update_eq_self]
  exact hs

section Result

variable {α : Type} {r : Scope × α} {result : α} {f : α → Outbox}

theorem left_sent (h : Ran cfg s a room r.1 (f r.2)) (hr : r = (sc, result))
    (hs : s' = { (s.put room sc).notify cfg room (f result) with
      tasks := s'.tasks, nextTask := s'.nextTask, aborts := s'.aborts }) (ht : TaskStep cfg s a s') :
    Leaves cfg s a s' := by
  subst hr
  exact ⟨room, sc, f result, h, hs, ht⟩

theorem left_silent (h : Ran cfg s a room r.1 (f r.2)) (hr : r = (sc, result)) (ho : f result = [])
    (hs : s' = { s.put room sc with tasks := s'.tasks, nextTask := s'.nextTask, aborts := s'.aborts })
    (ht : TaskStep cfg s a s') : Leaves cfg s a s' := by
  subst hr
  exact left_quiet (ho ▸ h) hs ht

theorem left_entered {r : RegistryInner × α} {inner : RegistryInner} (h : Ran cfg s a room ⟨r.1, s.rooms room⟩ [])
    (hr : r = (inner, result))
    (hs : s' = { s with inner := inner, tasks := s'.tasks, nextTask := s'.nextTask, aborts := s'.aborts })
    (ht : TaskStep cfg s a s') : Leaves cfg s a s' := by
  subst hr
  exact left_inner h hs ht

end Result

theorem left_still (hs : s' = { s with tasks := s'.tasks, nextTask := s'.nextTask, aborts := s'.aborts })
    (ht : TaskStep cfg s a s') : Leaves cfg s a s' :=
  left_inner (.still a 0) hs ht

theorem left_notify (h : Ran cfg s a room (s.scope room) outbox) (hs : s' = { s.notify cfg room outbox with
      tasks := s'.tasks, nextTask := s'.nextTask, aborts := s'.aborts }) (ht : TaskStep cfg s a s') :
    Leaves cfg s a s' := by
  refine ⟨room, s.scope room, outbox, h, ?_, ht⟩
  rw [System.put, System.scope, Function.update_eq_self]
  exact hs

theorem fallbackToRelay_none {now : Instant} {draw failed : AttemptId} {pair : TicketPair} {id : TransferId}
    {ranges : Ranges} {cause : FallbackCause} {sc sc' : Scope}
    (h : fallbackToRelay cfg now draw pair id failed ranges cause sc = (sc', none)) : sc' = sc := by
  revert h
  fun_cases fallbackToRelay cfg now draw pair id failed ranges cause sc
  case case5 => nofun
  all_goals exact fun h => (Prod.mk.inj h).1.symm

theorem callStep_left (room : RoomRef) (now : Instant) (c : Call) :
    Leaves cfg s (.call room now c) (callStep cfg s room now c) := by
  fun_cases callStep cfg s room now c
  case case1 peer name => exact left_quiet (.join room now peer name) rfl (.same rfl rfl rfl)
  case case2 peer => exact left_quiet (.openSession room now peer) rfl (.same rfl rfl rfl)
  case case3 peer name => exact left_quiet (.rename room now peer name) rfl (.same rfl rfl rfl)
  case case4 peer offer manifestOffer canonical mac =>
    exact left_quiet (.publish room now peer offer manifestOffer canonical mac) rfl (.same rfl rfl rfl)
  case case5 peer offer _ _ _ h => exact left_sent (.withdraw room now peer offer) h rfl (.same rfl rfl rfl)
  case case6 peer offer _ result hnone h =>
    have hempty : withdrawOutbox result = [] := by
      rw [withdrawOutbox.eq_def]
      split
      · exact (hnone _ _ rfl).elim
      · rfl
    exact left_silent (.withdraw room now peer offer) h hempty rfl (.same rfl rfl rfl)
  case case7 peer _ _ h => exact left_sent (.leave room now peer) h rfl (.same rfl rfl rfl)
  case case8 peer _ h => exact left_silent (.leave room now peer) h rfl rfl (.same rfl rfl rfl)
  case case9 req draws draw sc _ h =>
    exact left_silent (f := fun _ => []) (.request room now req draws draw) h rfl rfl
      (.spawned room now _ _ rfl rfl rfl rfl ⟨now, req, draws, draw, sc, rfl, h⟩)
  case case10 req draws draw _ _ _ h =>
    exact left_silent (f := fun _ => []) (.request room now req draws draw) h rfl rfl (.same rfl rfl rfl)
  case case11 peer id attempt digest pair sc _ h =>
    have hran : Ran cfg s _ _ _ _ := .sourceReady room now peer id attempt digest pair
    rw [h] at hran
    rw [readyOutcome.eq_def]
    split
    · exact left_quiet hran rfl (.same rfl rfl rfl)
    split
    · exact ⟨room, sc, _, hran, rfl, .spawned room now _ _ rfl rfl rfl rfl (.inl ⟨now, peer, digest, pair, rfl⟩)⟩
    · exact ⟨room, sc, _, hran, rfl, .same rfl rfl rfl⟩
  case case12 peer id _ _ h => exact left_sent (.sourceReject room now peer id) h rfl (.same rfl rfl rfl)
  case case13 peer id attempt carrier signal _ _ h =>
    exact left_sent (.rtc room now peer id attempt carrier signal) h rfl (.same rfl rfl rfl)
  case case14 peer id attempt ranges _ _ h =>
    exact left_sent (.upgradeReady room now peer id attempt ranges) h rfl (.same rfl rfl rfl)
  case case15 peer id attempt ranges _ h =>
    exact left_silent (.upgradeReady room now peer id attempt ranges) h rfl rfl
      (.spawned room now _ _ rfl rfl rfl rfl ⟨now, ranges, rfl⟩)
  case case16 peer id attempt ranges _ _ h =>
    exact left_silent (.upgradeReady room now peer id attempt ranges) h rfl rfl (.same rfl rfl rfl)
  case case17 peer _ _ _ _ _ _ h =>
    exact left_still rfl (.spawned room now _ _ rfl rfl rfl rfl ⟨now, peer, rfl, h⟩)
  case case18 => exact left_still rfl (.same rfl rfl rfl)
  case case19 id attempt draw pair sc fallback h _ _ _ =>
    exact ⟨room, sc, _, .deadline room now id attempt draw pair sc fallback h, rfl,
      .spawned room now _ _ rfl rfl rfl rfl (.inl ⟨now, attempt, draw, pair, rfl⟩)⟩
  case case20 id attempt draw pair sc fallback h _ _ _ =>
    exact ⟨room, sc, _, .deadline room now id attempt draw pair sc fallback h, rfl, .same rfl rfl rfl⟩
  case case21 h =>
    obtain rfl := fallbackToRelay_none h
    exact left_quiet (.still _ room) rfl (.same rfl rfl rfl)
  case case22 id draw _ _ h => exact left_sent (f := fun outbox => outbox) (.upgradeElapsed room now id draw) h rfl (.same rfl rfl rfl)
  case case23 id attempt => exact left_quiet (.probeDeadline room now id attempt) rfl (.same rfl rfl rfl)
  case case24 peer id _ _ _ h => exact left_sent (.cancel room now peer id) h rfl (.same rfl rfl rfl)
  case case25 peer id _ _ h => exact left_silent (.cancel room now peer id) h rfl rfl (.same rfl rfl rfl)
  case case26 peer id attempt receivedBytes _ _ h =>
    exact left_sent (.progress room now peer id attempt receivedBytes) h rfl (.same rfl rfl rfl)
  case case27 peer id attempt root _ _ h =>
    exact left_sent (.complete room now peer id attempt root) h rfl (.same rfl rfl rfl)
  case case28 attach _ h =>
    exact left_entered (.attach room now attach) h rfl (.spawned room now _ _ rfl rfl rfl rfl ⟨now, rfl, rfl, congrArg Prod.snd h⟩)
  case case29 attach _ h =>
    exact left_entered (.attach room now attach) h rfl (.same rfl rfl rfl)

section Resumed

variable {i : Nat} {now : Instant} {task : Task} {choice : Choice} (hi : s.tasks.get? i = some task)

include hi

theorem task_goes {new : Task} (ht : s'.tasks = s.tasks.insert i new) (hn : s'.nextTask = s.nextTask)
    (hb : s'.aborts = s.aborts) (hk : relayTask task = relayTask new) (hc : Came cfg s (.resume i now choice) i new) :
    TaskStep cfg s (.resume i now choice) s' :=
  .continued i now choice task new rfl hi ht hn hb hk hc

theorem relayStep_left (h : relayStep cfg s i now task choice = some s') :
    Leaves cfg s (.resume i now choice) s' := by
  revert h
  fun_cases relayStep cfg s i now task choice
  all_goals rintro ⟨⟩
  case case1 hcheck =>
    exact left_still rfl (task_goes hi rfl rfl rfl rfl ⟨hi, ⟨now, rfl⟩, hcheck⟩)
  case case3 room attach cancel _ _ hj =>
    exact left_entered (.enter i now room attach cancel hi) hj rfl (.ended i rfl rfl rfl)
  case case4 room attach cancel _ _ hj =>
    exact left_entered (.enter i now room attach cancel hi) hj rfl (task_goes hi rfl rfl rfl rfl hi)
  case case5 room attach cancel _ _ waiter hj =>
    exact left_entered (.enter i now room attach cancel hi) hj rfl
      (task_goes hi rfl rfl rfl rfl ⟨cancel, waiter, hi, (joinEnter_pair hj).1, rfl, (joinEnter_pair hj).2⟩)
  case case6 room attach cancel _ _ hj =>
    exact left_entered (.abandon i now .timeout room attach cancel hi) hj rfl (task_goes hi rfl rfl rfl rfl trivial)
  case case7 room attach cancel _ _ hj _ _ =>
    exact left_entered (.abandon i now .timeout room attach cancel hi) hj rfl (.ended i rfl rfl rfl)
  case case8 room attach cancel _ _ _ hj =>
    exact left_entered (.abandon i now (.ended .cancelled) room attach cancel hi) hj rfl (.ended i rfl rfl rfl)
  case case10 room attach parked parkedRoom first cancel hparked =>
    exact left_still rfl (.handed i now room attach parked parkedRoom first cancel rfl hi hparked rfl rfl rfl)
  case case12 key source recipient _ _ _ hact =>
    exact left_silent (f := fun _ => []) (.activate i now key source recipient hi) hact rfl rfl
      (task_goes hi rfl rfl rfl rfl ⟨hi, ⟨now, rfl⟩, activateRelay_some hact⟩)
  case case13 key source recipient _ _ hact =>
    exact left_silent (f := fun _ => []) (.activate i now key source recipient hi) hact rfl rfl
      (task_goes hi rfl rfl rfl rfl trivial)
  case case15 key source recipient cancel _ =>
    exact left_notify (.commit i now key source recipient cancel hi) rfl (task_goes hi rfl rfl rfl rfl ⟨source, recipient, hi⟩)
  case case16 =>
    exact left_still rfl (.same rfl rfl rfl)
  case case18 cancel _ _ =>
    exact left_still rfl (task_goes hi rfl rfl rfl rfl ⟨cancel, hi⟩)
  case case19 key how _ =>
    exact left_quiet (.release i now key how hi) rfl (task_goes hi rfl rfl rfl rfl trivial)
  case case24 hcheck =>
    exact left_still rfl (task_goes hi rfl rfl rfl rfl ⟨hi, ⟨now, rfl⟩, abortCheck_some hcheck⟩)
  -- an abort fails the transfer, or finds it ended
  case case25 key source recipient current sc _ _ _ hfail =>
    have hran : Ran cfg s _ _ _ _ := .fail i now key source recipient hi
    rw [hfail] at hran
    obtain ⟨r, hr⟩ := failTransfer_true hfail
    have hcurrent : current = r.attemptId := by
      simp [current, currentAttempt, hr]
    exact ⟨key.room, sc, _, hran, rfl, .failed i key source recipient r hi hr rfl rfl (by rw [← hcurrent]; rfl)⟩
  case case26 key source recipient _ _ hfail _ hf =>
    have hran : Ran cfg s _ _ _ _ := .fail i now key source recipient hi
    rw [hfail, if_neg hf] at hran
    exact left_quiet hran rfl (.ended i rfl rfl rfl)
  all_goals first
    | exact left_still rfl (.ended i rfl rfl rfl)
    | exact left_still rfl (task_goes hi rfl rfl rfl rfl trivial)

theorem resumeStep_left (h : resumeStep cfg s i now task choice = some s') :
    Leaves cfg s (.resume i now choice) s' := by
  revert h
  fun_cases resumeStep cfg s i now task choice
  case case16 => exact relayStep_left hi
  all_goals rintro ⟨⟩
  case case1 room checked queued _ _ =>
    exact ⟨room, _, _, .deliver i now room checked queued hi, rfl, .ended i rfl rfl rfl⟩
  case case2 room peer id attempt _ _ hready =>
    exact left_sent (.directReady i now room peer id attempt hi) hready rfl (.ended i rfl rfl rfl)
  case case3 key isRecipient counterpart reason ranges _ _ hclear =>
    exact left_silent (f := fun _ => []) (.clear i now key isRecipient counterpart reason ranges hi) hclear rfl rfl
      (.ended i rfl rfl rfl)
  case case4 key isRecipient counterpart reason ranges _ _ hclear _ _ =>
    exact left_silent (f := fun _ => []) (.clear i now key isRecipient counterpart reason ranges hi) hclear rfl rfl
      (task_goes hi rfl rfl rfl rfl hi)
  case case5 key isRecipient counterpart reason ranges draw pair sc fallback hfall _ _ _ =>
    exact ⟨key.room, sc, _, .fallback i now key isRecipient counterpart reason ranges draw pair sc fallback hi hfall, rfl,
      task_goes hi rfl rfl rfl rfl (.inr ⟨key.attempt, isRecipient, counterpart, reason, ranges, hi⟩)⟩
  case case6 key isRecipient counterpart reason ranges draw pair sc fallback hfall _ _ _ =>
    exact ⟨key.room, sc, _, .fallback i now key isRecipient counterpart reason ranges draw pair sc fallback hi hfall, rfl,
      .ended i rfl rfl rfl⟩
  case case7 key isRecipient counterpart reason _ _ _ _ hfall _ hadopt =>
    obtain rfl := fallbackToRelay_none hfall
    obtain rfl : isRecipient = true := (Bool.and_eq_true_iff.mp hadopt).1
    exact left_quiet (.still _ key.room) rfl (task_goes hi rfl rfl rfl rfl ⟨counterpart, reason, hi⟩)
  case case8 key _ _ _ _ _ _ _ hfall _ _ =>
    obtain rfl := fallbackToRelay_none hfall
    exact left_quiet (.still _ key.room) rfl (.ended i rfl rfl rfl)
  case case9 key ranges =>
    exact left_quiet (.adopt i now key ranges hi) rfl (.ended i rfl rfl rfl)
  case case10 =>
    exact left_still rfl (task_goes hi rfl rfl rfl rfl (.inr hi))
  case case13 key permit rest hp =>
    exact left_inner (.take i now key permit rest 0 hi hp) rfl (task_goes hi rfl rfl rfl rfl ⟨hi, ⟨now, rfl⟩, rest, hp⟩)
  case case14 key =>
    exact left_notify (.busy i now key hi) rfl (.ended i rfl rfl rfl)
  case case15 key permit pair sc outbox hissue =>
    have hran : Ran cfg s _ _ _ _ := .issue i now key permit pair hi
    rw [hissue] at hran
    exact ⟨key.room, sc, outbox, hran, rfl, .ended i rfl rfl rfl⟩
  all_goals exact left_still rfl (.ended i rfl rfl rfl)

end Resumed

theorem step_left (h : step cfg s a = some s') : Leaves cfg s a s' := by
  cases a with
  | call room now c =>
    cases h
    exact callStep_left room now c
  | resume =>
    obtain ⟨task, hi, h⟩ := Option.bind_eq_some_iff.mp h
    exact resumeStep_left hi h

theorem step_taskStep (h : step cfg s a = some s') : TaskStep cfg s a s' := by
  obtain ⟨_, _, _, hleft⟩ := step_left h
  exact hleft.tasks

theorem step_tasks (h : step cfg s a = some s') : Continues cfg s a s' := (step_taskStep h).continues

end Left

end Bore.RegistrySections
