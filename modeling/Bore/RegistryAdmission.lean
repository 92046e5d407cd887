import Bore.RegistryEffects

namespace Bore.RegistryAdmission

open RegistryTypes RegistryOps RegistryDirect RegistryRelay RegistryMoves RegistryPermits RegistryEffects List Option

variable {now : Instant} {cfg : Config} {pair : TicketPair} {drew : Option TicketPair} {peer : PeerId} {id : TransferId}
  {attemptId : AttemptId} {s : Scope} {record : TransferRecord}

theorem storePermit_record {att : AttemptState} (permit : Permit) (inner : RegistryInner)
    (hr : s.record? id = some record) (ha : record.attempt = some att) (j : TransferId) :
    (storePermit id permit { s with inner := inner }).record? j =
      if j = id then some { record with attempt := some { att with relayPermit := some permit } }
      else s.record? j := by
  have hr' : ({ s with inner := inner } : Scope).record? id = some record := hr
  unfold storePermit
  simp only [hr', bind_some, ha]
  change (s.updateRecord id _).record? j = _
  by_cases hj : j = id
  · subst hj
    simp [hr, ha]
  · simp [hj]

theorem storePermit_frame (permit : Permit) (s : Scope) : (storePermit id permit s).inner.tickets = s.inner.tickets ∧
      (storePermit id permit s).inner.relayWaiters = s.inner.relayWaiters := by
  fun_cases storePermit id permit s <;> exact ⟨rfl, rfl⟩

theorem releasePermit_pool (permit : Permit) (s : Scope) :
    (pool { s with inner := releasePermit s.inner (some permit) }).Subperm (permit :: pool s) := by
  rw [pool, releasePermit, toList_some, append_assoc]
  exact perm_middle.subperm

theorem storePermit_pool (permit : Permit) (s : Scope) : (pool (storePermit id permit s)).Subperm (permit :: pool s) := by
  fun_cases storePermit id permit s
  case case1 hatt s' =>
    obtain ⟨r, hr, ha⟩ := bind_eq_some_iff.mp hatt
    refine subperm_modify [permit] hr rfl ?_
    simp only [releasePermit, TransferRecord.permit, ha, map_some, bind_some, toList_some,
      s', Scope.updateRecord]
    exact perm_append_comm.subperm
  case case2 => exact releasePermit_pool permit s

theorem storeTickets_granted {att : AttemptState} {permit : Permit} {inner : RegistryInner}
    (hr : s.record? id = some record) (ha : record.attempt = some att) (hst : record.state = .waitingRelay)
    (hid : record.attemptId = some attemptId) (source recipient : PeerId) {hash : Digest} {t : RelayTicketRecord}
    (ht : (storePermit id permit { s with
      inner := storeTickets cfg now id attemptId source recipient pair inner }).inner.tickets.get? hash = some t) :
    inner.tickets.get? hash = some t ∨
      Granted (storePermit id permit { s with
        inner := storeTickets cfg now id attemptId source recipient pair inner }) t ∧
      ∃ p, some pair = some p ∧ (hash = cfg.ticketHash p.first ∨ hash = cfg.ticketHash p.second) := by
  have hg : ∀ t, t.transferId = id → t.attemptId = attemptId → Granted (storePermit id permit { s with
      inner := storeTickets cfg now id attemptId source recipient pair inner }) t := by
    rintro t rfl rfl
    exact ⟨_, (storePermit_record permit _ hr ha _).trans (if_pos rfl), hid, hst, rfl⟩
  rw [(storePermit_frame permit _).1] at ht
  simp only [storeTickets, Table.get?_insert] at ht
  split at ht
  · cases ht
    exact .inr ⟨hg _ rfl rfl, pair, rfl, .inr ‹_›⟩
  split at ht
  · cases ht
    exact .inr ⟨hg _ rfl rfl, pair, rfl, .inl ‹_›⟩
  · exact .inl ht

theorem installAdmit_record (cfg : Config) (now : Instant) (pair : TicketPair) (attemptId : AttemptId) (n : Nat)
    (f : TransferRecord → TransferRecord) (hr : s.record? id = some record) :
    ∃ p, ∀ j, (admitRelayAttempt cfg now pair id attemptId (s.installAttempt id ⟨attemptId, n, none⟩ f)).1.record? j =
      if j = id then some { f record with attempt := some ⟨attemptId, n, p⟩ } else s.record? j := by
  have hi := record?_install hr ⟨attemptId, n, none⟩ f
  have hid := (hi id).trans (if_pos rfl)
  rw [admitRelayAttempt, hid]
  dsimp only
  split
  · exact ⟨none, hi⟩
  rename_i permit _ _
  refine ⟨some permit, fun j => ?_⟩
  rw [storePermit_record permit _ hid rfl j]
  by_cases hj : j = id
  · rw [if_pos hj, if_pos hj]
  · rw [if_neg hj, if_neg hj, hi j, if_neg hj]

theorem installAdmit_section {allowed drawn} {n : Nat} {f : TransferRecord → TransferRecord} {act : Act}
    (hr : s.record? id = some record) (ha : allowed id record act) (hf : act ≠ .finish)
    (hm : ∀ p, Move act record { f record with attempt := some ⟨attemptId, n, p⟩ })
    (hst : (f record).state = .waitingRelay) (hid : (f record).attemptId = some attemptId) :
    Section cfg [] (some pair) allowed drawn s
      (admitRelayAttempt cfg now pair id attemptId (s.installAttempt id ⟨attemptId, n, none⟩ f)).1 := by
  have hi : (s.installAttempt id ⟨attemptId, n, none⟩ f).record? id =
      some { f record with attempt := some ⟨attemptId, n, none⟩ } := by
    simp [hr]
  rw [admitRelayAttempt, hi]
  dsimp only
  split
  · exact section_install hr ha (hm none) hf
  rename_i permit _ hfree
  have hpool : (pool (s.installAttempt id ⟨attemptId, n, none⟩ f)).Subperm (pool s) := installAttempt_pool hr
  rw [pool, hfree, cons_append] at hpool
  refine section_of_evolves (evolves_set hr (fun j => ?_) ⟨ha, hf⟩ (hm (some permit)))
    ((storePermit_pool permit _).trans hpool) (fun hash t ht => storeTickets_granted hi rfl hst hid _ _ ht)
    (storePermit_frame permit _).2
  rw [storePermit_record permit _ hi rfl j]
  by_cases hj : j = id
  · rw [if_pos hj, if_pos hj]
  · rw [if_neg hj, if_neg hj, record?_installAttempt, if_neg hj]

theorem sourceReadyGuard_ok {digest : Digest} (h : sourceReadyGuard record peer attemptId digest = .ok ()) :
    record.state = .waitingSource ∧ record.attemptId = some attemptId := by
  revert h
  fun_cases sourceReadyGuard record peer attemptId digest
  case case6 hst ha _ => exact fun _ => ⟨not_not.mp hst, not_not.mp ha⟩
  all_goals nofun

theorem sourceReady_section (digest : Digest) :
    Section cfg [] (some pair) (fun _ _ act => act = .negotiate ∨ act = .relayOnly) noDraw s
      (sourceReady cfg now pair peer id attemptId digest s).1 := by
  rw [sourceReady]
  split
  · exact .refl s
  rename_i hr
  split
  · exact .refl s
  rename_i hg
  obtain ⟨hst, ha⟩ := sourceReadyGuard_ok hg
  split
  · exact installAdmit_section hr (.inr rfl) nofun (fun p => .relayOnly attemptId p hst ha) rfl ha
  · exact section_write hr (.inl rfl) (.negotiate now hst) nofun fun _ => rfl

theorem fallbackRecord_move {draw failedAttempt : AttemptId} {number : Nat} (ranges : Ranges) (p : Option Permit)
    (h : record.state.isNegotiatingDirect = true ∨ record.state = .activeDirect)
    (ha : record.attemptId = some failedAttempt) (hn : nextAttemptNumber record.attemptNumber = .ok number) :
    Move (.fallback draw) record
      { fallbackRecord draw number failedAttempt ranges record with attempt := some ⟨draw, number, p⟩ } := by
  have hm (resume : Option ResumeDescriptor) := Move.fallback draw number failedAttempt resume p h ha hn
  unfold fallbackRecord setResumeIfAny
  split
  · exact hm record.resume
  · exact hm _

theorem fallbackRecord_waiting (draw : AttemptId) (number : Nat) (failedAttempt : AttemptId) (ranges : Ranges)
    (r : TransferRecord) : (fallbackRecord draw number failedAttempt ranges r).state = .waitingRelay ∧
      (fallbackRecord draw number failedAttempt ranges r).attemptId = some draw := by
  unfold fallbackRecord setResumeIfAny
  split <;> exact ⟨rfl, rfl⟩

theorem fallbackToRelay_some {draw failed : AttemptId} {ranges : Ranges} {cause : FallbackCause} {sc : Scope}
    {fallback : FallbackOutcome}
    (h : fallbackToRelay cfg now draw pair id failed ranges cause s = (sc, some fallback)) :
    ∃ r number, s.record? id = some r ∧ fallbackPermitted cause r.state = true ∧ r.attemptId = some failed ∧
      nextAttemptNumber r.attemptNumber = .ok number ∧
      fallback.ranges = (if ranges.isEmpty then knownRanges r else ranges) ∧
      admitRelayAttempt cfg now pair id draw (s.installAttempt id ⟨draw, number, none⟩
        (fallbackRecord draw number failed fallback.ranges)) = (sc, fallback.outcome, fallback.outbox) := by
  revert h
  fun_cases fallbackToRelay cfg now draw pair id failed ranges cause s
  case case5 r hr hp ha number hn _ _ _ _ _ hinstall =>
    rintro ⟨⟩
    exact ⟨r, number, hr, by simpa using hp, not_not.mp ha, hn, rfl, hinstall⟩
  all_goals nofun

theorem fallbackToRelay_section (draw failedAttempt : AttemptId) (ranges : Ranges) (cause : FallbackCause) :
    Section cfg [] (some pair) (onTransfer id fun r act => act = .fallback draw ∧ fallsBack cause r failedAttempt = true)
      noDraw s (fallbackToRelay cfg now draw pair id failedAttempt ranges cause s).1 := by
  rw [fallbackToRelay]
  split
  · exact .refl s
  rename_i record hr
  split
  · exact .refl s
  rename_i hp
  split
  · exact .refl s
  rename_i ha
  split
  · exact .refl s
  rename_i hn
  have hp : fallbackPermitted cause record.state = true := by simpa using hp
  have ha : record.attemptId = some failedAttempt := not_not.mp ha
  have hlt := (nextAttemptNumber_ok hn).1
  exact installAdmit_section hr ⟨rfl, rfl, by simp [fallsBack, hp, ha, hlt]⟩ nofun
    (fun p => fallbackRecord_move _ p (fallbackPermitted_direct hp) ha hn) (fallbackRecord_waiting _ _ _ _ record).1
    (fallbackRecord_waiting _ _ _ _ record).2

theorem permitless_attempt (h : record.permitless = true) :
    ∃ att, record.attempt = some att ∧ att.relayPermit = none := by
  unfold TransferRecord.permitless at h
  split at h
  · exact ⟨_, ‹_›, by simpa using h⟩
  · cases h

theorem admitIssue_section (permit : Permit) :
    Section cfg [permit] (some pair) (onTransfer id fun _ act => act = .grant) noDraw s
      (admitIssue cfg now pair id attemptId permit s).1 := by
  have hdropped : Section cfg [permit] (some pair) (onTransfer id fun _ act => act = .grant) noDraw s
      { s with inner := releasePermit s.inner (some permit) } :=
    section_of_evolves (evolves_of_transfers_eq rfl) (releasePermit_pool permit s) (fun _ _ h => .inl h) rfl
  rw [admitIssue]
  split
  · exact hdropped
  rename_i hr
  split
  · exact hdropped
  rename_i hc
  split
  · rename_i hst
    simp only [Bool.and_eq_true, decide_eq_true_eq] at hst
    obtain ⟨att, ha, hp⟩ := permitless_attempt hst.2
    exact section_of_evolves
      (evolves_set hr (storePermit_record permit _ hr ha) ⟨⟨rfl, rfl⟩, nofun⟩ (.grant att permit hst.1 ha hp))
      (storePermit_pool permit _) (fun hash t ht => storeTickets_granted hr ha hst.1 hc _ _ ht)
      (storePermit_frame permit _).2
  · exact hdropped

theorem insertRecord_change {allowed : TransferRecord → Act → Prop} {drawn : AttemptId → Prop} (room : Room)
    {a : AttemptId} (hf : Fresh a record) (hn : room.transfers.get? id = none) (j : TransferId)
    (hd : j = id → drawn a) : Change allowed drawn (room.transfers.get? j)
      ((gcTerminalsLocked now { room with transfers := room.transfers.insert id record }).transfers.get? j) := by
  have hlive : record.state.isLive = true := by
    rw [hf.state]
    rfl
  rw [gc_record]
  simp only [Table.get?_insert]
  by_cases hj : j = id
  · subst hj
    simp only [if_true, hn, Option.filter, retained_of_live hlive]
    exact .created (hd rfl) hf
  · rw [if_neg hj]
    exact .gc now _

theorem insertRecord_held (room : Room) (hp : record.permit = none) :
    (held (gcTerminalsLocked now { room with transfers := room.transfers.insert id record })).Subperm (held room) := by
  have hins := (Table.perm_collect_insert TransferRecord.permit room.transfers id record).subperm
  rw [hp, toList_none, nil_append] at hins
  refine List.Subperm.trans ?_ (hins.trans (Table.collect_erase_sublist TransferRecord.permit room.transfers id).subperm)
  exact (Table.collect_retain_sublist _ _ _).subperm

theorem requestCheck_section (draws : List TransferId) (attemptDraw : AttemptId) (req : TransferRequest) :
    Section cfg [] drew (fun j _ act => act = .retry attemptDraw ∧ retries cfg s.room req j)
      (fun j a => a = attemptDraw ∧ creates cfg s.room req draws j) s
      (requestCheck cfg now draws attemptDraw req s).1 := by
  rw [requestCheck.eq_def]
  split
  · exact .refl s
  rename_i sel hsel
  split
  · rename_i id record hfind
    have hr : s.record? id = some record :=
      (Table.get?_eq_some_iff _ _ _).mpr (mem_of_find?_eq_some hfind)
    split
    · exact .refl s
    rename_i hbusy
    have hbusy : busyRetry record = true := by simpa using hbusy
    split
    · exact .refl s
    · rename_i number hn
      exact section_install hr ⟨rfl, sel, record, hsel, hfind, hbusy⟩ (.retry attemptDraw number hbusy hn) nofun
  rename_i hfind
  split
  · exact section_of_eq rfl rfl rfl rfl
  split
  · exact .refl s
  rename_i id hid
  have hn : s.room.transfers.get? id = none := by
    simpa [Table.contains] using find?_some hid
  refine section_of_evolves (fun j => ?_) ((subperm_append_left _).mpr (insertRecord_held s.room rfl))
    (fun _ _ h => .inl h) rfl
  exact insertRecord_change s.room ⟨rfl, rfl, rfl, rfl, rfl⟩ hn j
    (fun hj => ⟨rfl, sel, hsel, hfind, hj ▸ hid⟩)

theorem joinEnter_frame (attach : RelayAttach) (leg : Nat) (inner : RegistryInner) :
    (joinEnter attach leg inner).1.tickets = inner.tickets ∧
      (joinEnter attach leg inner).1.relayPermits = inner.relayPermits := by
  fun_cases joinEnter attach leg inner <;> exact ⟨rfl, rfl⟩

theorem consumeRelayTicket_frame (ticket : RelayTicket) (role : RelayRole) (inner : RegistryInner) :
    (consumeRelayTicket cfg now ticket role peer inner).1.relayPermits = inner.relayPermits ∧
      (consumeRelayTicket cfg now ticket role peer inner).1.relayWaiters = inner.relayWaiters ∧
      ∀ hash t, (consumeRelayTicket cfg now ticket role peer inner).1.tickets.get? hash = some t →
        inner.tickets.get? hash = some t := by
  have herase : ∀ hash t, (inner.tickets.erase (cfg.ticketHash ticket)).get? hash = some t →
      inner.tickets.get? hash = some t := by
    intro hash t ht
    rw [Table.get?_erase] at ht
    split at ht
    · cases ht
    · exact ht
  fun_cases consumeRelayTicket cfg now ticket role peer inner
  case case1 => exact ⟨rfl, rfl, fun _ _ h => h⟩
  all_goals exact ⟨rfl, rfl, herase⟩

theorem joinConsume_frame (attach : RelayAttach) (inner : RegistryInner) :
    (joinConsume cfg now attach inner).1.relayPermits = inner.relayPermits ∧
      (joinConsume cfg now attach inner).1.relayWaiters = inner.relayWaiters ∧
      ∀ hash t, (joinConsume cfg now attach inner).1.tickets.get? hash = some t → inner.tickets.get? hash = some t := by
  have h : (joinConsume cfg now attach inner).1 =
      (consumeRelayTicket cfg now attach.ticket attach.role attach.peerId inner).1 := by
    unfold joinConsume
    split <;> simp_all
  rw [h]
  exact consumeRelayTicket_frame _ _ _

end Bore.RegistryAdmission
