import Bore.RegistryPermits

namespace Bore.RegistryEffects

open RegistryTypes RegistryOps RegistryDirect RegistryRelay RegistryCatalogue RegistryMoves RegistryPermits Option

/-- The report that completes a probe: it names it, its side has signaled, and
the other side has reported. -/
def commitsUpgrade (r : TransferRecord) (peer : PeerId) (attemptId : AttemptId) : Bool :=
  match r.upgrade, sideOf r peer with
  | some up, .ok isSource =>
    decide (up.attemptId = attemptId) && (match markReady up.bits isSource with
      | .ok bits => bothReady bits && decide (r.attemptNumber < u64Max)
      | .error _ => false)
  | _, _ => false

def fallsBack (cause : FallbackCause) (r : TransferRecord) (failedAttempt : AttemptId) : Bool :=
  fallbackPermitted cause r.state && decide (r.attemptId = some failedAttempt) &&
    decide (r.attemptNumber < u64Max)

def retries (cfg : Config) (room : Room) (req : TransferRequest) (id : TransferId) : Prop :=
  ∃ sel r, selectTransfer cfg room req = .ok sel ∧
    room.transfers.entries.find? (fun e => sameSelection req sel e.2) = some (id, r) ∧ busyRetry r = true

def creates (cfg : Config) (room : Room) (req : TransferRequest) (draws : List TransferId) (id : TransferId) : Prop :=
  ∃ sel, selectTransfer cfg room req = .ok sel ∧
    room.transfers.entries.find? (fun e => sameSelection req sel e.2) = none ∧ drawTransferId room draws = some id

theorem nextAttemptNumber_ok {n m : Nat} (h : nextAttemptNumber n = .ok m) : n < u64Max ∧ m = n + 1 := by
  unfold nextAttemptNumber at h
  split at h
  · cases h
    exact ⟨‹_›, rfl⟩
  · cases h

theorem fallbackPermitted_direct {cause : FallbackCause} {state : TransferState}
    (h : fallbackPermitted cause state = true) : state.isNegotiatingDirect = true ∨ state = .activeDirect := by
  cases cause with
  | reported => simpa [fallbackPermitted] using h
  | deadline => exact .inl (by simpa [fallbackPermitted] using h)

def onTransfer (id : TransferId) (acts : TransferRecord → Act → Prop) :
    TransferId → TransferRecord → Act → Prop :=
  fun j r act => j = id ∧ acts r act

section Terminal

variable {now : Instant} {s : Scope} {id : TransferId}

theorem countTerminal_frame (inner : RegistryInner) (st : TransferState) :
    (countTerminal inner st).relayPermits = inner.relayPermits ∧ (countTerminal inner st).tickets = inner.tickets ∧
      (countTerminal inner st).relayWaiters = inner.relayWaiters := by
  cases st <;> exact ⟨rfl, rfl, rfl⟩

theorem terminateLocked_record {record : TransferRecord} (hr : s.record? id = some record)
    (hl : record.state.isLive = true) (st : TransferState) (j : TransferId) :
    (terminateLocked now id st s).1.record? j =
      ((s.updateRecord id (finish now st)).record? j).filter (retained now) := by
  rw [terminateLocked, hr]
  dsimp only
  rw [if_pos hl]
  exact gc_record now _ j

theorem terminateLocked_closes {st : TransferState} (hst : st.isLive = false) :
    Closes now s (terminateLocked now id st s).1 := by
  fun_cases terminateLocked now id st s
  case case1 | case3 => exact closes_of_eq rfl rfl rfl rfl
  case case2 record hr hl inner inner' s' =>
    have hrec : ∀ j, (terminateLocked now id st s).1.record? j = _ := terminateLocked_record hr hl st
    rw [terminateLocked, hr] at hrec
    dsimp only at hrec
    rw [if_pos hl] at hrec
    have htickets : ∀ hash t, (countTerminal inner' st).tickets.get? hash = some t →
        s.inner.tickets.get? hash = some t ∧ t.transferId ≠ id := by
      intro hash t ht
      rw [(countTerminal_frame inner' st).2.1, Table.get?_retain] at ht
      obtain ⟨hold, hne⟩ := filter_eq_some_iff.mp ht
      exact ⟨hold, by simpa using hne⟩
    refine ⟨fun j => ?_, ?_, fun hash t ht => (htickets hash t ht).1, (countTerminal_frame inner' st).2.2, ?_⟩
    · rw [hrec j]
      refine Ended.trans ?_ (Ended.gc _)
      rw [record?_updateRecord]
      by_cases hj : j = id
      · subst hj
        rw [hr, if_pos rfl, map_some]
        exact .finished st hl hst
      · rw [if_neg hj]
        exact .same _
    · have hpool : (pool ⟨inner', s'.room⟩).Subperm (pool s) := by
        refine subperm_modify [] hr rfl ?_
        simp [inner', inner, releasePermit, finish, TransferRecord.permit, List.Subperm.refl]
      exact (pool_gc now (countTerminal_frame inner' st).1 rfl).trans hpool
    · intro j r r' hrj hlj hr' hd hash t ht
      by_cases hj : j = id
      · exact hj ▸ (htickets hash t ht).2
      rw [hrec j, record?_updateRecord, if_neg hj, hrj, filter_some, if_pos (retained_of_live hlj)] at hr'
      cases hr'
      rw [hlj] at hd
      cases hd

theorem cancelOne_closes (byPeer : PeerId) (acc : Scope × Outbox) (id : TransferId) :
    Closes now acc.1 (cancelOne now byPeer acc id).1 := by
  have h : Closes now acc.1 (terminateLocked now id .cancelled acc.1).1 := terminateLocked_closes rfl
  simp only [cancelOne]
  repeat' split
  all_goals exact h

theorem cancelOnes_closes (byPeer : PeerId) (ids : List TransferId) (acc : Scope × Outbox) :
    Closes now acc.1 (ids.foldl (cancelOne now byPeer) acc).1 := by
  induction ids generalizing acc with
  | nil => exact closes_of_eq rfl rfl rfl rfl
  | cons id _ ih => exact (cancelOne_closes byPeer acc id).trans (ih _)

theorem cancelWhereLocked_closes (byPeer : PeerId) (matched : TransferRecord → Bool) :
    Closes now s (cancelWhereLocked now byPeer matched s).1 :=
  cancelOnes_closes byPeer _ (s, [])

end Terminal

section Operations

variable {now : Instant} {cfg : Config} {drew : Option TicketPair} {peer : PeerId} {id : TransferId}
  {attemptId : AttemptId} {s : Scope}

theorem terminateLocked_section {st : TransferState} (hst : st.isLive = false) :
    Section cfg [] drew ends noDraw s (terminateLocked now id st s).1 :=
  (terminateLocked_closes hst).toSection fun _ _ => rfl

theorem requestDeliver_section (delivered : Bool) :
    Section cfg [] drew (fun _ _ act => act = .sent ∨ act = .finish) noDraw s (requestDeliver now delivered id s) := by
  rw [requestDeliver]
  split
  · refine section_update (fun r _ => ?_) (fun r => ?_)
    · by_cases hq : r.state = .requested
      · rw [if_pos hq]
        exact .inr ⟨.sent, ⟨.inl rfl, nofun⟩, .sent hq⟩
      · exact .inl (if_neg hq)
    · split <;> rfl
  · exact (terminateLocked_closes rfl).toSection fun _ _ => .inr rfl

theorem sourceReject_section : Section cfg [] drew ends noDraw s (sourceReject now peer id s).1 := by
  fun_cases sourceReject now peer id s
  all_goals first
    | exact .refl s
    | exact terminateLocked_section rfl

theorem cancelTransfer_section : Section cfg [] drew ends noDraw s (cancelTransfer now peer id s).1 := by
  fun_cases cancelTransfer now peer id s
  all_goals first
    | exact .refl s
    | exact terminateLocked_section rfl

theorem completeTransfer_section (root : Digest) :
    Section cfg [] drew ends noDraw s (completeTransfer now peer id attemptId root s).1 := by
  fun_cases completeTransfer now peer id attemptId root s
  all_goals first
    | exact .refl s
    | exact terminateLocked_section rfl

theorem withdrawOffer_section (offer : OfferId) :
    Section cfg [] drew ends noDraw s (withdrawOffer now peer offer s).1 := by
  fun_cases withdrawOffer now peer offer s
  case case4 record _ _ _ _ s' _ hcancel =>
    have hdrop : Closes now s (dropOffer s offer record) := closes_of_eq rfl rfl rfl rfl
    have hcancelled : Closes now _ s' := Closes.of_fst hcancel (cancelWhereLocked_closes _ _)
    refine Closes.toSection ((hdrop.trans hcancelled).trans ?_) fun _ _ => rfl
    exact closes_of_eq rfl rfl rfl rfl
  all_goals exact .refl s

theorem joinPeer_section (name : Option String) {allowed drawn} :
    Section cfg [] drew allowed drawn s (joinPeer cfg peer name s).1 := by
  refine section_of_eq ?_ ?_ ?_ ?_ <;> rw [joinPeer.eq_def] <;> simp only [joinLocked]
  all_goals
    repeat' split
    all_goals rfl

theorem publishOffer_section (offer manifestOffer : OfferId) (canonical : Bytes) (mac : Digest) {allowed drawn} :
    Section cfg [] drew allowed drawn s (publishOffer cfg peer offer manifestOffer canonical mac s).1 := by
  fun_cases publishOffer cfg peer offer manifestOffer canonical mac s
  all_goals exact section_of_eq rfl rfl rfl rfl

theorem removeOffers_closes (incremental : Bool) (owned : List (OfferId × OfferRecord)) (s : Scope) (revision : Nat) :
    Closes now s (removeOffers peer incremental owned s revision).1 := by
  induction owned generalizing s revision with
  | nil => exact closes_of_eq rfl rfl rfl rfl
  | cons e _ ih =>
    have hdrop : Closes now s (dropOffer s e.1 e.2) := closes_of_eq rfl rfl rfl rfl
    exact hdrop.trans (ih _ _)

theorem removePeer_closes : Closes now s (removePeer now peer s).1 := by
  fun_cases removePeer now peer s
  case case1 => exact closes_of_eq rfl rfl rfl rfl
  case case2 s₀ s₁ _ _ hremove s₂ _ hcancel _ _ | case3 s₀ s₁ _ _ hremove s₂ _ hcancel _ _ =>
    have hleft : Closes now s s₀ := closes_of_eq rfl rfl rfl rfl
    have hoffers : Closes now s₀ s₁ := Closes.of_fst hremove (removeOffers_closes _ _ _ _)
    have hcancelled : Closes now s₁ s₂ := Closes.of_fst hcancel (cancelWhereLocked_closes _ _)
    refine ((hleft.trans hoffers).trans hcancelled).trans ?_
    exact closes_of_eq rfl rfl rfl rfl

variable {record : TransferRecord} {startedAt : Instant} {bits : NegotiationBits}

theorem signalTarget_own (h : signalTarget record attemptId = .ok (false, startedAt, bits)) :
    record.state = .negotiatingDirect startedAt bits := by
  revert h
  fun_cases signalTarget record attemptId
  case case1 hst => rintro ⟨⟩; exact hst
  all_goals nofun

theorem signalTarget_probe
    (h : signalTarget record attemptId = .ok (true, startedAt, bits)) : ∃ up, record.upgrade = some up := by
  revert h
  fun_cases signalTarget record attemptId
  case case3 up hu _ => exact fun _ => ⟨up, hu⟩
  all_goals nofun

theorem signalSlot_section (carrier : Nat) (kind : SignalKind) :
    Section cfg [] drew (fun _ _ act => act = .signal ∨ act = .probe) noDraw s
      (signalSlot cfg peer id attemptId carrier kind s).1 := by
  fun_cases signalSlot cfg peer id attemptId carrier kind s
  case case4 =>
    refine section_of_eq rfl ?_ ?_ ?_ <;>
      (simp only [refusedOnLimit]; split <;> rfl)
  case case5 record hr _ _ onProbe startedAt bits ht bits' _ =>
    refine section_update (fun r hr' => .inr ?_) fun r => by cases onProbe <;> rfl
    rw [hr] at hr'
    cases hr'
    cases onProbe with
    | false => exact ⟨.signal, ⟨.inl rfl, nofun⟩, .signal startedAt bits bits' (signalTarget_own ht)⟩
    | true =>
      obtain ⟨up, hu⟩ := signalTarget_probe ht
      refine ⟨.probe, ⟨.inr rfl, nofun⟩, ?_⟩
      simpa only [if_true, setProbeBits, hu, map_some] using
        Move.probe up bits' record.resume hu
  all_goals exact .refl s

theorem forwardRtc_section (carrier : Nat) (signal : RtcSignal) :
    Section cfg [] drew (fun _ _ act => act = .signal ∨ act = .probe) noDraw s
      (forwardRtc cfg peer id attemptId carrier signal s).1 := by
  have h : (forwardRtc cfg peer id attemptId carrier signal s).1 =
      (signalSlot cfg peer id attemptId carrier (signalKind signal) s).1 := by
    unfold forwardRtc
    split <;> simp_all
  rw [h]
  exact signalSlot_section carrier _

theorem commitProbe_move {up : UpgradeState} {number : Nat} (ranges : Ranges)
    (hu : record.upgrade = some up) (hn : nextAttemptNumber record.attemptNumber = .ok number) :
    Move .commitUpgrade record
      { commitProbe up number ranges record with attempt := some ⟨up.attemptId, number, none⟩ } := by
  have h (resume : Option ResumeDescriptor) := Move.commitUpgrade up number resume hu hn
  unfold commitProbe setResumeIfAny
  split
  · exact h record.resume
  · exact h _

theorem upgradeReady_section (ranges : Ranges) : Section cfg [] drew (onTransfer id fun r act =>
        act = .probe ∨ act = .commitUpgrade ∧ commitsUpgrade r peer attemptId = true) noDraw s
      (upgradeReady peer id attemptId ranges s).1 := by
  fun_cases upgradeReady peer id attemptId ranges s
  case case7 hr up hu ha _ hside _ hb _ _ hn hboth _ =>
    refine section_install hr ⟨rfl, .inr ⟨rfl, ?_⟩⟩ (commitProbe_move _ hu hn) nofun
    have hlt := (nextAttemptNumber_ok hn).1
    have hid : up.attemptId = attemptId := not_not.mp ha
    simp [commitsUpgrade, hu, hside, hid, hb, hboth, hlt]
  case case8 record hr up hu _ _ _ bits _ _ _ _ =>
    refine section_update (fun r hr' => .inr ⟨.probe, ⟨⟨rfl, .inl rfl⟩, nofun⟩, ?_⟩) fun r => ?_
    · rw [hr] at hr'
      cases hr'
      simp only [setProbeBits, hu, map_some]
      split
      · exact Move.probe up bits _ hu
      · exact Move.probe up bits record.resume hu
    · split <;> rfl
  all_goals exact .refl s

theorem directReady_section : Section cfg [] drew (fun _ _ act => act = .signal ∨ act = .commitDirect) noDraw s
      (directReady peer id attemptId s).1 := by
  fun_cases directReady peer id attemptId s
  case case5 hr _ _ _ _ _ hst _ _ _ _ =>
    exact section_write hr (.inr rfl) (.commitDirect (by rw [hst]; rfl)) nofun fun _ => rfl
  case case6 hr _ _ _ startedAt bits hst bits' _ _ =>
    exact section_write hr (.inl rfl) (.signal startedAt bits bits' hst) nofun fun _ => rfl
  all_goals exact .refl s

theorem clearUpgrade_section :
    Section cfg [] drew (fun _ _ act => act = .clearProbe) noDraw s (clearUpgrade id attemptId s).1 := by
  fun_cases clearUpgrade id attemptId s
  case case2 hr _ => exact section_write hr rfl .clearProbe nofun fun _ => rfl
  all_goals exact .refl s

theorem directUpgradeElapsed_section (draw : AttemptId) :
    Section cfg [] drew (onTransfer id fun _ act => act = .startProbe draw) noDraw s
      (directUpgradeElapsed cfg now draw id s).1 := by
  fun_cases directUpgradeElapsed cfg now draw id s
  case case5 hr hst ht =>
    simp only [Bool.or_eq_true, decide_eq_true_eq, not_or, not_not, not_isSome_iff_eq_none] at hst
    exact section_write hr ⟨rfl, rfl⟩ (.startProbe draw now hst.1 hst.2 (Nat.lt_of_not_le ht)) nofun fun _ => rfl
  all_goals exact .refl s

theorem adoptLateRecipientResume_section (ranges : Ranges) :
    Section cfg [] drew (fun _ _ act => act = .resume) noDraw s (adoptLateRecipientResume id attemptId ranges s) := by
  fun_cases adoptLateRecipientResume id attemptId ranges s
  case case3 hr hst =>
    simp only [Bool.or_eq_true, decide_eq_true_eq, not_or, not_not] at hst
    exact section_write hr rfl (.resume _ hst.1) nofun fun _ => rfl
  all_goals exact .refl s

theorem reportProgress_section (receivedBytes : Nat) : Section cfg [] drew (fun _ _ act => act = .carry) noDraw s
      (reportProgress peer id attemptId receivedBytes s).1 := by
  fun_cases reportProgress peer id attemptId receivedBytes s
  case case7 record hr _ hst _ _ direct _ _ _ =>
    obtain ⟨hp, ht, hw⟩ : (countCarried s.inner direct).relayPermits = s.inner.relayPermits ∧
        (countCarried s.inner direct).tickets = s.inner.tickets ∧
        (countCarried s.inner direct).relayWaiters = s.inner.relayWaiters := by
      cases direct <;> exact ⟨rfl, rfl, rfl⟩
    simp only [Bool.or_eq_true, decide_eq_true_eq, not_or, not_not, Bool.not_eq_true', Bool.not_eq_false] at hst
    refine section_of_evolves (evolves_update (record?_updateRecord s id · _) fun r hr' => .inr ?_)
      (subperm_pool_of_eq hp (held_updateRecord fun _ => rfl)) (fun _ _ h => .inl (ht ▸ h)) hw
    rw [hr] at hr'
    cases hr'
    exact ⟨.carry, ⟨rfl, nofun⟩, .carry _ hst.2⟩
  all_goals exact .refl s

theorem activateRelay_section :
    Section cfg [] drew (onTransfer id fun r act => act = .activate ∧ r.attemptId = some attemptId) noDraw s
      (activateRelay id attemptId s).1 := by
  fun_cases activateRelay id attemptId s
  case case2 hr hst =>
    simp only [Bool.and_eq_true, decide_eq_true_eq] at hst
    exact section_write hr ⟨rfl, rfl, hst.2⟩ (.activate hst.1) nofun fun _ => rfl
  all_goals exact .refl s

theorem releaseRelayPermit_section :
    Section cfg [] drew (onTransfer id fun r act => act = .release ∧ r.attemptId = some attemptId) noDraw s
      (releaseRelayPermit id attemptId s).1 := by
  fun_cases releaseRelayPermit id attemptId s
  case case2 record hr ha s' =>
    refine section_of_evolves (evolves_update (record?_updateRecord s id · _) fun r hr' => .inr ?_)
      (subperm_modify [] hr rfl ?_) (fun _ _ h => .inl h) rfl
    · rw [hr] at hr'
      cases hr'
      exact ⟨.release, ⟨⟨rfl, rfl, ha⟩, nofun⟩, .release⟩
    · have hn : ({ record with attempt := record.attempt.map (fun a => { a with relayPermit := none }) } :
          TransferRecord).permit = none := by
        cases record.attempt <;> simp [TransferRecord.permit]
      simp [releasePermit, hn, s', Scope.updateRecord, List.Subperm.refl]
  all_goals exact .refl s

end Operations

end Bore.RegistryEffects
