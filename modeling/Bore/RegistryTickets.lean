import Bore.RegistryTerminal
import Bore.RegistryNotices

namespace Bore.RegistryTickets

open List

open RegistryTypes RegistryOps RegistryDirect RegistryRelay RegistryAdmission RegistrySystem RegistrySections
  RegistrySteps RegistryNotices RegistryTerminal Runs

def TicketNotice.coherent (n : TicketNotice) : Prop := n.bound.map RelayTicketRecord.attemptId = some n.attempt

instance (n : TicketNotice) : Decidable (TicketNotice.coherent n) := inferInstanceAs (Decidable (_ = _))

/-- A waiter owns a permit, its attempt is not the current one, and the current
one waits for a slot as well. -/
def issuesStale (s : System) : Action → Bool
  | .resume i _ (.tickets _) =>
    match s.tasks.get? i with
    | some (.admitHold key _) => (s.record? key.room key.transfer).any (fun r =>
      busyRetry r && r.attemptId.any (fun current => current != key.attempt))
    | _ => false
  | _ => false

def Bound (cfg : Config) (inner : RegistryInner) (outbox : Outbox) : Prop :=
  ∀ peer id attempt ticket, (peer, Envelope.relayTicket id attempt ticket) ∈ outbox →
    (inner.tickets.get? (cfg.ticketHash ticket)).map RelayTicketRecord.attemptId = some attempt

def ticketless (outbox : Outbox) : Bool :=
  outbox.all (fun e => match e.2 with
    | .relayTicket _ _ _ => false
    | _ => true)

variable {cfg : Config} {inner : RegistryInner} {now : Instant} {pair : TicketPair} {peer : PeerId}
  {id : TransferId} {attemptId : AttemptId} {s : Scope}

variable {outbox : Outbox}

theorem Bound.of_ticketless (h : ticketless outbox = true) : Bound cfg inner outbox := by
  intro peer id attempt ticket hm
  cases all_eq_true.mp h _ hm

theorem Bound.append {xs ys : Outbox} (hx : Bound cfg inner xs) (hy : Bound cfg inner ys) :
    Bound cfg inner (xs ++ ys) := by
  intro peer id attempt ticket hm
  rcases mem_append.mp hm with hm | hm
  · exact hx peer id attempt ticket hm
  · exact hy peer id attempt ticket hm

variable {room : RoomRef}

theorem Bound.notice (h : Bound cfg inner outbox) {n : TicketNotice}
    (hn : n ∈ outbox.filterMap (ticketNotice cfg inner room)) : TicketNotice.coherent n := by
  obtain ⟨⟨peer, envelope⟩, hm, he⟩ := mem_filterMap.mp hn
  cases envelope with
  | relayTicket id attempt ticket =>
    cases he
    exact h peer id attempt ticket hm
  | _ => cases he

theorem storeTickets_attempt (source recipient : PeerId) {ticket : RelayTicket}
    (ht : ticket = pair.first ∨ ticket = pair.second) :
    ((storeTickets cfg now id attemptId source recipient pair inner).tickets.get? (cfg.ticketHash ticket)).map
      RelayTicketRecord.attemptId = some attemptId := by
  simp only [storeTickets, Table.get?_insert]
  split
  · rfl
  split
  · rfl
  · rcases ht with rfl | rfl
    · exact absurd rfl ‹_›
    · exact absurd rfl ‹_›

theorem ticketOutbox_bound (source recipient : PeerId)
    (hs : s.inner.tickets = (storeTickets cfg now id attemptId source recipient pair inner).tickets) :
    Bound cfg s.inner (ticketOutbox id attemptId source recipient pair) := by
  intro peer j attempt ticket hm
  simp only [ticketOutbox, mem_cons, Prod.mk.injEq, Envelope.relayTicket.injEq, not_mem_nil, or_false] at hm
  rw [hs]
  rcases hm with ⟨-, -, rfl, rfl⟩ | ⟨-, -, rfl, rfl⟩
  · exact storeTickets_attempt source recipient (.inl rfl)
  · exact storeTickets_attempt source recipient (.inr rfl)

theorem admitRelayAttempt_bound : Bound cfg (admitRelayAttempt cfg now pair id attemptId s).1.inner
      (admitRelayAttempt cfg now pair id attemptId s).2.2 := by
  unfold admitRelayAttempt
  split
  · exact .of_ticketless rfl
  · split
    · exact .of_ticketless rfl
    · exact ticketOutbox_bound _ _ ((storePermit_frame _ _).1)

theorem sourceReady_bound (digest : Digest) : Bound cfg (sourceReady cfg now pair peer id attemptId digest s).1.inner
      (readyOutbox (sourceReady cfg now pair peer id attemptId digest s).2) := by
  rw [sourceReady]
  split
  · exact .of_ticketless rfl
  split
  · exact .of_ticketless rfl
  split
  · exact admitRelayAttempt_bound
  · exact .of_ticketless rfl

theorem fallbackToRelay_bound {draw failedAttempt : AttemptId} {ranges : Ranges} {cause : FallbackCause} {s' : Scope}
    {fallback : FallbackOutcome}
    (h : fallbackToRelay cfg now draw pair id failedAttempt ranges cause s = (s', some fallback)) :
    Bound cfg s'.inner fallback.outbox := by
  obtain ⟨_, number, _, _, _, _, _, hinstall⟩ := fallbackToRelay_some h
  have hb : Bound cfg (admitRelayAttempt cfg now pair id draw (s.installAttempt id ⟨draw, number, none⟩
      (fallbackRecord draw number failedAttempt fallback.ranges))).1.inner _ := admitRelayAttempt_bound
  rwa [hinstall] at hb

theorem admitIssue_bound (permit : Permit)
    (h : ∀ r current, s.record? id = some r → r.attemptId = some current → busyRetry r = true → current = attemptId) :
    Bound cfg (admitIssue cfg now pair id attemptId permit s).1.inner
      (admitIssue cfg now pair id attemptId permit s).2 := by
  unfold admitIssue
  split
  · exact .of_ticketless rfl
  rename_i r hr
  split
  · exact .of_ticketless rfl
  rename_i current hc
  split
  · rename_i hst
    have hcur : current = attemptId := h r current hr hc hst
    subst hcur
    exact ticketOutbox_bound _ _ ((storePermit_frame _ _).1)
  · exact .of_ticketless rfl

theorem ticketless_of_plain (h : Plain outbox) : ticketless outbox = true := by
  rw [Plain, all_eq_true] at h
  rw [ticketless, all_eq_true]
  intro e he
  have hp := h e he
  generalize e.2 = envelope at hp
  cases envelope with
  | relayTicket => cases hp
  | _ => rfl

variable {a : Action}

theorem ran_bound {s : System} {sc : Scope}
    (h : Ran cfg s a room sc outbox) (hok : issuesStale s a = false) : Bound cfg sc.inner outbox := by
  have plain (hn : negotiates s a = false) (ha : admits s a = false) : Bound cfg sc.inner outbox :=
    .of_ticketless (ticketless_of_plain (ran_plain h hn ha))
  cases h with
  | still | commit | adopt => exact .of_ticketless rfl
  | sourceReady _ _ _ _ _ digest => exact sourceReady_bound digest
  | rtc => exact .of_ticketless (by fun_cases forwardRtc <;> rfl)
  | upgradeReady => exact .of_ticketless (by fun_cases upgradeReady <;> rfl)
  | directReady => exact .of_ticketless (by fun_cases directReady <;> rfl)
  | deadline _ _ _ _ _ _ _ _ hf =>
    refine Bound.append (.of_ticketless ?_) (fallbackToRelay_bound hf)
    unfold deadlineOutbox
    split <;> rfl
  | fallback _ _ key _ counterpart reason _ _ _ _ fallback _ hf =>
    have hfailed : ticketless [(counterpart, .directFailed key.transfer key.attempt reason fallback.ranges)] = true := rfl
    exact Bound.append (.of_ticketless hfailed) (fallbackToRelay_bound hf)
  | issue _ _ key permit _ hi =>
    refine admitIssue_bound permit fun r current hr hc hbusy => ?_
    have hr' : s.record? key.room key.transfer = some r := hr
    simpa [issuesStale, hi, hr', hc, hbusy] using hok
  | _ => exact plain (by first | rfl | simp [negotiates, *]) (by first | rfl | simp [admits, *])

variable {s' : System}

theorem step_issues {s : System} (hok : (!issuesStale s a) = true) (h : step cfg s a = some s') :
    ∀ n ∈ s'.issued, n ∈ s.issued ∨ TicketNotice.coherent n := by
  obtain ⟨room, sc, outbox, hleft⟩ := step_left h
  intro n hn
  rw [hleft.issued] at hn
  rcases mem_append.mp hn with hn | hn
  · exact .inl hn
  · exact .inr ((ran_bound hleft.ran (by simpa using hok)).notice hn)

theorem issuesStale_spec {s : System} (h : issuesStale s a = true) :
    ∃ i now pair key permit r current, a = .resume i now (.tickets pair) ∧
      s.tasks.get? i = some (.admitHold key permit) ∧ s.record? key.room key.transfer = some r ∧
      busyRetry r = true ∧ r.attemptId = some current ∧ current ≠ key.attempt := by
  unfold issuesStale at h
  split at h
  · rename_i i now pair
    split at h
    · rename_i key permit hi
      cases hr : s.record? key.room key.transfer with
      | none => simp [hr] at h
      | some r =>
        cases hc : r.attemptId with
        | none => simp [hr, hc] at h
        | some current =>
          simp only [hr, hc, Option.any_some, Bool.and_eq_true, bne_iff_ne] at h
          exact ⟨i, now, pair, key, permit, r, current, rfl, hi, hr, h.1, hc, h.2⟩
    · cases h
  · cases h

theorem admitIssue_busy {r : TransferRecord} {current : AttemptId} (permit : Permit) (hr : s.record? id = some r)
    (hc : r.attemptId = some current) (hb : busyRetry r = true) : admitIssue cfg now pair id attemptId permit s =
      (storePermit id permit { s with
        inner := storeTickets cfg now id current r.source r.recipient pair s.inner },
        ticketOutbox id attemptId r.source r.recipient pair) := by
  have hb' : (decide (r.state = .waitingRelay) && r.permitless) = true := hb
  simp only [admitIssue, hr, hc, hb', if_true]

theorem admitIssue_idle (permit : Permit)
    (h : ∀ r current, s.record? id = some r → r.attemptId = some current → busyRetry r = false) :
    admitIssue cfg now pair id attemptId permit s = ({ s with inner := releasePermit s.inner (some permit) }, []) := by
  unfold admitIssue
  split
  · rfl
  rename_i r hr
  split
  · rfl
  · rename_i current hc
    have hb : (decide (r.state = .waitingRelay) && r.permitless) = false := h r current hr hc
    rw [if_neg (by simp [hb])]

theorem step_issuesStale {s : System} (h : issuesStale s a = true) :
    ∃ s', step cfg s a = some s' ∧ ∃ n ∈ s'.issued, ¬ TicketNotice.coherent n := by
  obtain ⟨i, now, pair, key, permit, r, current, rfl, hi, hr, hbusy, hc, hne⟩ := issuesStale_spec h
  have hissue : admitIssue cfg now pair key.transfer key.attempt permit (s.scope key.room) = _ :=
    admitIssue_busy permit hr hc hbusy
  simp only [step, hi, Option.bind_some, resumeStep, hissue, Option.some.injEq, exists_eq_left']
  refine ⟨_, mem_append_right _ mem_cons_self, ?_⟩
  change ¬ ((storePermit key.transfer permit _).inner.tickets.get? _).map RelayTicketRecord.attemptId = some key.attempt
  rw [(storePermit_frame _ _).1, storeTickets_attempt r.source r.recipient (.inl rfl)]
  simpa using hne

theorem stale_waiter_idle {s : System} {i : Nat} {key : RelayKey} {permit : Permit}
    (hi : s.tasks.get? i = some (.admitHold key permit))
    (hcur : currentAttempt key.transfer (s.scope key.room) ≠ some key.attempt)
    (hok : issuesStale s (.resume i now (.tickets pair)) = false)
    (h : step cfg s (.resume i now (.tickets pair)) = some s') :
    s'.notices = s.notices ∧ s'.issued = s.issued ∧ s'.inner.tickets = s.inner.tickets := by
  have hidle : ∀ r current, (s.scope key.room).record? key.transfer = some r → r.attemptId = some current →
      busyRetry r = false := by
    intro r current hr hc
    have hne : current ≠ key.attempt := by
      rintro rfl
      exact hcur (by simp [currentAttempt, hr, hc])
    have hr' : s.record? key.room key.transfer = some r := hr
    simpa [issuesStale, hi, hr', hc, hne] using hok
  have hissue : admitIssue cfg now pair key.transfer key.attempt permit (s.scope key.room) = _ :=
    admitIssue_idle permit hidle
  simp only [step, hi, Option.bind_some, resumeStep, hissue, Option.some.injEq] at h
  subst h
  exact ⟨append_nil _, append_nil _, rfl⟩

/-- In a run in which no stale waiter finds the current attempt waiting as well,
every ticket message names the attempt its ticket is bound to, and a stale
waiter issues nothing. Each step that breaks the condition breaks the binding. -/
theorem relay_tickets_name_their_attempt (cfg : Config) (maxPeersGlobal : Nat) (relayOnly : RoomRef → Bool) :
    (∀ s, Reaches (step cfg) (fun t a => !issuesStale t a) (initial cfg maxPeersGlobal relayOnly) s →
      ∀ n ∈ s.issued, TicketNotice.coherent n) ∧
    (∀ s s' i now pair key permit, s.tasks.get? i = some (.admitHold key permit) →
      currentAttempt key.transfer (s.scope key.room) ≠ some key.attempt →
      issuesStale s (.resume i now (.tickets pair)) = false → step cfg s (.resume i now (.tickets pair)) = some s' →
      s'.notices = s.notices ∧ s'.issued = s.issued ∧ s'.inner.tickets = s.inner.tickets) ∧
    ∀ s a, issuesStale s a = true → ∃ s', step cfg s a = some s' ∧ ∃ n ∈ s'.issued, ¬ TicketNotice.coherent n := by
  refine ⟨?_, fun s s' i now pair key permit hi hcur hok h => stale_waiter_idle hi hcur hok h,
    fun s a h => step_issuesStale h⟩
  intro s h
  refine h.invariant (P := fun s => ∀ n ∈ s.issued, TicketNotice.coherent n) ?_ ?_
  · intro n hn
    cases hn
  · intro t a u ht hok hs n hn
    rcases step_issues hok hs n hn with hn | hn
    · exact ht n hn
    · exact hn

def relayOnlyStart : System := initial sampleConfig 100 (fun _ => true)

def sampleQueue : List Action :=
  [.call 0 0 (.join 1 none), .call 0 0 (.openSession 1), .call 0 0 (.join 2 none), .call 0 0 (.join 3 none),
    .call 0 0 (.publish 1 1 1 [] 3), .call 0 0 (.request ⟨2, 1, ["0"], 5, "raw", none⟩ [100] 10),
    .resume 0 0 (.accepted true), .call 0 0 (.request ⟨3, 1, ["0"], 5, "raw", none⟩ [200] 20),
    .resume 1 0 (.accepted true), .call 0 0 (.sourceReady 1 100 10 5 (samplePair 1)),
    .call 0 0 (.sourceReady 1 200 20 5 (samplePair 3)),
    .call 0 0 (.request ⟨3, 1, ["0"], 5, "raw", none⟩ [201] 21), .resume 3 0 (.accepted true),
    .call 0 0 (.sourceReady 1 200 21 5 (samplePair 5))]

def lastTicket (s : System) : Option (AttemptId × Option AttemptId) :=
  s.issued.getLast?.map (fun n => (n.attempt, n.bound.map RelayTicketRecord.attemptId))

/-- The slot is freed and goes to the older waiter: the source is told about
attempt 20 and given a ticket of attempt 21. -/
theorem stale_waiter_issues_tickets : ∃ s, Reaches (step sampleConfig) always relayOnlyStart s ∧
      lastTicket s = some (20, some 21) :=
  exec_observe (sampleQueue ++ [.call 0 0 (.cancel 2 100), .resume 2 0 .go, .resume 2 0 (.tickets (samplePair 7))])
    lastTicket
    (by decide +kernel)

/-- The slot goes to the waiter of the current attempt, and to the older waiter
once the transfer has ended. -/
theorem relay_tickets_name_their_attempt_queue :
    ∃ s s', Reaches (step sampleConfig) (fun t a => !issuesStale t a) relayOnlyStart s ∧ s.issued.length = 4 ∧
      (∀ n ∈ s.issued, TicketNotice.coherent n) ∧ s.tasks.get? 2 = some (.admitHold ⟨0, 200, 20⟩ 0) ∧
      step sampleConfig s (.resume 2 0 (.tickets (samplePair 7))) = some s' ∧ s'.issued = s.issued := by
  obtain ⟨s, hs, he⟩ : ∃ s, Reaches (step sampleConfig) (fun t a => !issuesStale t a) relayOnlyStart s ∧
      (s.issued.length, s.tasks.get? 2, currentAttempt 200 (s.scope 0), issuesStale s (.resume 2 0 (.tickets (samplePair 7))),
        (step sampleConfig s (.resume 2 0 (.tickets (samplePair 7)))).isSome) =
      (4, some (.admitHold ⟨0, 200, 20⟩ 0), some 21, false, true) :=
    execWhile_observe (sampleQueue ++ [.call 0 0 (.cancel 2 100), .resume 4 0 .go,
      .resume 4 0 (.tickets (samplePair 9)), .call 0 0 (.cancel 3 200), .resume 2 0 .go]) _ (by decide +kernel)
  simp only [Prod.mk.injEq] at he
  obtain ⟨hl, ht, hc, hok, hsome⟩ := he
  obtain ⟨s', hs'⟩ := Option.isSome_iff_exists.mp hsome
  have hall := relay_tickets_name_their_attempt sampleConfig 100 (fun _ => true)
  exact ⟨s, s', hs, hl, hall.1 s hs, ht, hs', (hall.2.1 s s' 2 0 _ _ _ ht (by rw [hc]; decide) hok hs').2.1⟩

end Bore.RegistryTickets
