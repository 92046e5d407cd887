import Bore.RegistrySystem

namespace Bore.RegistryTasks

open RegistryTypes RegistryOps RegistryDirect RegistryRelay RegistrySystem

/-- Where a task comes from: the task it continues, and what the registry showed
when the step that created it ran. -/
def Came (cfg : Config) (s : System) (a : Action) (j : Nat) : Task → Prop
  | .requestSend room checked => ∃ now req draws draw sc, a = .call room now (.request req draws draw) ∧
      requestCheck cfg now draws draw req (s.scope room) = (sc, .ok (.proceed checked))
  | .readyTail room peer id attempt => ∃ now ranges, a = .call room now (.directReady peer id attempt ranges)
  | .failedClear key isRecipient counterpart reason ranges =>
    ∃ now peer, a = .call key.room now (.directFailed peer key.transfer key.attempt reason ranges) ∧
      directFailedParty peer key.transfer (s.scope key.room) = .ok (isRecipient, counterpart)
  | .failedFallback key isRecipient counterpart reason ranges =>
    s.tasks.get? j = some (.failedClear key isRecipient counterpart reason ranges)
  | .failedAdopt key ranges => ∃ counterpart reason,
      s.tasks.get? j = some (.failedFallback key true counterpart reason ranges)
  | .spawnAdmit room id => (∃ now attempt draw pair, a = .call room now (.deadline id attempt draw pair)) ∨
      ∃ attempt isRecipient counterpart reason ranges,
        s.tasks.get? j = some (.failedFallback ⟨room, id, attempt⟩ isRecipient counterpart reason ranges)
  | .admitWait key =>
    (∃ now peer digest pair, a = .call key.room now (.sourceReady peer key.transfer key.attempt digest pair)) ∨
    s.tasks.get? j = some (.spawnAdmit key.room key.transfer)
  | .admitHold key permit => s.tasks.get? j = some (.admitWait key) ∧ (∃ now, a = .resume j now .go) ∧
      ∃ rest, s.inner.relayPermits = permit :: rest
  | .legAttached room attach => ∃ now, a = .call room now (.attach attach) ∧ j = s.nextTask ∧
      (joinConsume cfg now attach s.inner).2 = true
  | .legEntering room attach cancel => s.tasks.get? j = some (.legAttached room attach) ∧
      (∃ now, a = .resume j now .go) ∧ joinCheck attach (s.scope room) = some cancel
  | .legParked room attach cancel => s.tasks.get? j = some (.legEntering room attach cancel)
  | .legHandoff room attach parked => ∃ cancel waiter, s.tasks.get? j = some (.legEntering room attach cancel) ∧
      s.inner.relayWaiters.get? (attach.transferId, attach.attemptId) = some waiter ∧ waiter.leg = parked ∧
      waiter.firstRole ≠ attach.role
  | .legPaired key source recipient => ∃ room first cancel i now room' second, a = .resume i now .go ∧
      s.tasks.get? j = some (.legParked room first cancel) ∧ s.tasks.get? i = some (.legHandoff room' second j) ∧
      key = attachKey room first ∧ .legPaired key source recipient = pairedTask room first second.peerId
  | .pumpStart key source recipient _ => s.tasks.get? j = some (.legPaired key source recipient) ∧
      (∃ now, a = .resume j now .go) ∧
      ∃ r, s.record? key.room key.transfer = some r ∧ r.state = .waitingRelay ∧ r.attemptId = some key.attempt
  | .pump key cancel => ∃ source recipient, s.tasks.get? j = some (.pumpStart key source recipient cancel)
  | .pumpClosing key _ => ∃ cancel, s.tasks.get? j = some (.pump key cancel)
  | .abortFail key _ _ => s.tasks.get? j = some (.abortStart key) ∧ (∃ now, a = .resume j now .go) ∧
      ∃ r, s.record? key.room key.transfer = some r ∧ r.attemptId = some key.attempt
  | _ => True

def relayTask : Task → Bool
  | .requestSend _ _ | .readyTail _ _ _ _ | .failedClear _ _ _ _ _ | .failedFallback _ _ _ _ _ | .failedAdopt _ _
  | .spawnAdmit _ _ | .admitWait _ | .admitHold _ _ => false
  | _ => true

/-- What a step does to the tasks: a call spawns at most one, a task that is
resumed goes on as another of its kind or ends, and a leg that ends may have
been handed to the one it waited for. The aborts that fail a transfer are
entered when their task ends. -/
inductive TaskStep (cfg : Config) (s : System) (a : Action) (s' : System) : Prop
  | same (ht : s'.tasks = s.tasks) (hn : s'.nextTask = s.nextTask) (hb : s'.aborts = s.aborts)
  | spawned (room now c task) (ha : a = .call room now c) (ht : s'.tasks = s.tasks.insert s.nextTask task)
      (hn : s'.nextTask = s.nextTask + 1) (hb : s'.aborts = s.aborts) (hc : Came cfg s a s.nextTask task)
  | continued (i now choice old task) (ha : a = .resume i now choice) (hi : s.tasks.get? i = some old)
      (ht : s'.tasks = s.tasks.insert i task) (hn : s'.nextTask = s.nextTask) (hb : s'.aborts = s.aborts)
      (hk : relayTask old = relayTask task) (hc : Came cfg s a i task)
  | ended (i) (ht : s'.tasks = s.tasks.erase i) (hn : s'.nextTask = s.nextTask) (hb : s'.aborts = s.aborts)
  | failed (i key source recipient r) (hi : s.tasks.get? i = some (.abortFail key source recipient))
      (hr : s.record? key.room key.transfer = some r) (ht : s'.tasks = s.tasks.erase i) (hn : s'.nextTask = s.nextTask)
      (hb : s'.aborts = s.aborts ++ [⟨key, r.attemptId⟩])
  | handed (i now room attach parked parkedRoom first cancel) (ha : a = .resume i now .go)
      (hi : s.tasks.get? i = some (.legHandoff room attach parked))
      (hp : s.tasks.get? parked = some (.legParked parkedRoom first cancel))
      (ht : s'.tasks = (s.tasks.insert parked (pairedTask parkedRoom first attach.peerId)).erase i)
      (hn : s'.nextTask = s.nextTask) (hb : s'.aborts = s.aborts)

def Continues (cfg : Config) (s : System) (a : Action) (s' : System) : Prop :=
  ∀ j task, s'.tasks.get? j = some task → s.tasks.get? j = some task ∨ Came cfg s a j task

section Origins

variable {cfg : Config} {s s' : System} {a : Action}

theorem pairedTask_key (room : RoomRef) (parked : RelayAttach) (second : PeerId) :
    ∃ source recipient, pairedTask room parked second = .legPaired (attachKey room parked) source recipient := by
  rw [pairedTask]
  split
  · exact ⟨_, _, rfl⟩
  · exact ⟨_, _, rfl⟩

theorem TaskStep.continues (h : TaskStep cfg s a s') : Continues cfg s a s' := by
  intro j task hj
  have inserted : ∀ {i new}, Came cfg s a i new → (s.tasks.insert i new).get? j = some task →
      s.tasks.get? j = some task ∨ Came cfg s a j task := by
    intro i new hc hget
    rw [Table.get?_insert] at hget
    split at hget
    · subst ‹j = i›
      cases hget
      exact .inr hc
    · exact .inl hget
  cases h with
  | same ht => exact .inl (ht ▸ hj)
  | spawned _ _ _ _ _ ht _ _ hc | continued _ _ _ _ _ _ _ ht _ _ _ hc => exact inserted hc (ht ▸ hj)
  | ended _ ht | failed _ _ _ _ _ _ _ ht => exact .inl (Table.get?_of_erase (ht ▸ hj))
  | handed i now room attach parked parkedRoom first cancel ha hi hp ht =>
    obtain ⟨source, recipient, hpaired⟩ := pairedTask_key parkedRoom first attach.peerId
    have hcame : Came cfg s a parked (.legPaired (attachKey parkedRoom first) source recipient) :=
      ⟨parkedRoom, first, cancel, i, now, room, attach, ha, hp, hi, rfl, hpaired.symm⟩
    rw [ht, hpaired] at hj
    exact inserted hcame (Table.get?_of_erase hj)

theorem TaskStep.nextTask_le (h : TaskStep cfg s a s') : s.nextTask ≤ s'.nextTask := by
  cases h <;> omega

theorem TaskStep.index (h : TaskStep cfg s a s') {j : Nat} {task : Task} (hj : s'.tasks.get? j = some task) :
    s.tasks.get? j = some task ∨
      (∃ i now choice old, a = .resume i now choice ∧ s.tasks.get? j = some old ∧ relayTask old = relayTask task) ∨
      ∃ room now c, a = .call room now c ∧ j = s.nextTask ∧ s'.nextTask = s.nextTask + 1 := by
  cases h with
  | same ht => exact .inl (ht ▸ hj)
  | ended _ ht | failed _ _ _ _ _ _ _ ht => exact .inl (Table.get?_of_erase (ht ▸ hj))
  | spawned room now c _ ha ht hn =>
    rw [ht, Table.get?_insert] at hj
    split at hj
    · exact .inr (.inr ⟨room, now, c, ha, ‹_›, hn⟩)
    · exact .inl hj
  | continued i now choice old _ ha hi ht _ _ hk =>
    rw [ht, Table.get?_insert] at hj
    split at hj
    · subst ‹j = i›
      cases hj
      exact .inr (.inl ⟨j, now, choice, old, ha, hi, hk⟩)
    · exact .inl hj
  | handed i now _ _ parked _ _ _ ha _ hp ht =>
    replace hj := Table.get?_of_erase (ht ▸ hj)
    rw [Table.get?_insert] at hj
    split at hj
    · subst ‹j = parked›
      cases hj
      refine .inr (.inl ⟨i, now, .go, _, ha, hp, ?_⟩)
      rw [pairedTask]
      split <;> rfl
    · exact .inl hj

theorem TaskStep.bounded (h : TaskStep cfg s a s') (hb : ∀ i task, s.tasks.get? i = some task → i < s.nextTask)
    (j : Nat) (task : Task) (hj : s'.tasks.get? j = some task) : j < s'.nextTask := by
  rcases h.index hj with hold | ⟨_, _, _, old, _, hold, _⟩ | ⟨_, _, _, _, rfl, hn⟩
  · exact Nat.lt_of_lt_of_le (hb j task hold) h.nextTask_le
  · exact Nat.lt_of_lt_of_le (hb j old hold) h.nextTask_le
  · rw [hn]
    exact Nat.lt_succ_self _

theorem TaskStep.aborts (h : TaskStep cfg s a s') {n : AbortNotice} (hn : n ∈ s'.aborts) :
    n ∈ s.aborts ∨ ∃ i source recipient r, s.tasks.get? i = some (.abortFail n.key source recipient) ∧
      s.record? n.key.room n.key.transfer = some r ∧ n.current = r.attemptId := by
  cases h with
  | failed i _ source recipient r hi hr _ _ hb =>
    rw [hb] at hn
    rcases List.mem_append.mp hn with hn | hn
    · exact .inl hn
    · obtain rfl := List.mem_singleton.mp hn
      exact .inr ⟨i, source, recipient, r, hi, hr, rfl⟩
  | same _ _ hb | spawned _ _ _ _ _ _ _ hb | continued _ _ _ _ _ _ _ _ _ hb | ended _ _ _ hb
  | handed _ _ _ _ _ _ _ _ _ _ _ _ _ hb =>
    exact .inl (hb ▸ hn)

end Origins

section Facts

variable {cfg : Config}

variable {now : Instant} {attach : RelayAttach} {inner : RegistryInner}

theorem joinConsume_true (h : (joinConsume cfg now attach inner).2 = true) :
    ∃ t, inner.tickets.get? (cfg.ticketHash attach.ticket) = some t ∧ t.transferId = attach.transferId ∧
      t.attemptId = attach.attemptId := by
  revert h
  fun_cases joinConsume cfg now attach inner
  case case1 => nofun
  case case2 grant hg =>
    intro h
    revert hg
    fun_cases consumeRelayTicket cfg now attach.ticket attach.role attach.peerId inner
    case case4 record hr _ _ _ =>
      intro hg
      obtain rfl : record = grant := Except.ok.inj (Prod.mk.inj hg).2
      rw [Bool.and_eq_true, beq_iff_eq, beq_iff_eq] at h
      exact ⟨record, hr, h.1.symm, h.2.symm⟩
    all_goals exact fun hg => nomatch (Prod.mk.inj hg).2

theorem joinEnter_pair {leg : Nat} {inner' : RegistryInner} {waiter : RelayWaiter}
    (h : joinEnter attach leg inner = (inner', .pair waiter)) :
    inner.relayWaiters.get? (attach.transferId, attach.attemptId) = some waiter ∧ waiter.firstRole ≠ attach.role := by
  revert h
  fun_cases joinEnter attach leg inner
  case case2 hne =>
    rintro ⟨⟩
    rw [Bool.or_eq_true, decide_eq_true_eq, not_or] at hne
    exact ⟨‹_›, hne.1⟩
  all_goals nofun

variable {id : TransferId} {attempt : AttemptId} {sc sc' : Scope}

theorem activateRelay_some {cancel : Token} (h : activateRelay id attempt sc = (sc', some cancel)) :
    ∃ r, sc.record? id = some r ∧ r.state = .waitingRelay ∧ r.attemptId = some attempt := by
  revert h
  fun_cases activateRelay id attempt sc
  case case2 r hr hst =>
    intro _
    rw [Bool.and_eq_true, decide_eq_true_eq, decide_eq_true_eq] at hst
    exact ⟨r, hr, hst⟩
  all_goals nofun

theorem abortCheck_some {parties : PeerId × PeerId} (h : abortCheck id attempt sc = some parties) :
    ∃ r, sc.record? id = some r ∧ r.attemptId = some attempt := by
  revert h
  fun_cases abortCheck id attempt sc
  case case2 r hr ha => exact fun _ => ⟨r, hr, ha⟩
  all_goals nofun

theorem failTransfer_true (h : failTransfer now id sc = (sc', true)) : ∃ r, sc.record? id = some r := by
  unfold failTransfer terminateLocked at h
  split at h
  · cases h
  · exact ⟨_, ‹_›⟩

end Facts

end Bore.RegistryTasks
