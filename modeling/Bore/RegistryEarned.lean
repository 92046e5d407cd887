import Bore.RegistryCourses

namespace Bore.RegistryEarned

open List Option

open RegistryTypes RegistryDirect RegistryRelay RegistrySystem RegistrySteps RegistrySections RegistryCapacity
  RegistryAttempts RegistryTerminal RegistryCourses DirectCourse Runs

def attemptOf : Envelope → Option AttemptId
  | .incoming _ _ _ attempt _ _ | .directStart _ attempt _ _ _ _ _ _ | .rtc _ attempt _ _ | .relayTicket _ attempt _
  | .pathCommit _ attempt _ _ | .directFailed _ attempt _ _ | .progress _ attempt _ _ => some attempt
  | .cancelled _ _ | .completed _ _ | .errorAnon _ _ => none

/-- A drawn attempt identifier is in use nowhere, and no peer has heard of it. -/
structure NewDraw (s : System) (a : Action) : Prop where
  fresh : FreshDraw s a
  unheard : ∀ draw, Action.attemptDraw a = some draw → ∀ n ∈ s.notices, attemptOf n.2.2 ≠ some draw

/-- In some step of the run the peer declared itself ready for the attempt. -/
def Reported (cfg : Config) (start s : System) (key : RelayKey) (peer : PeerId) : Prop :=
  ∃ u now ranges v, Reaches (step cfg) NewDraw start u ∧
    step cfg u (.call key.room now (.directReady peer key.transfer key.attempt ranges)) = some v ∧
    Reaches (step cfg) NewDraw v s

def StepsBack (key : RelayKey) (s s' : System) : Prop :=
  ∃ r r', s.record? key.room key.transfer = some r ∧ s'.record? key.room key.transfer = some r' ∧
    FallsBack key.attempt r r'

def SteppedBack (cfg : Config) (start s : System) (key : RelayKey) : Prop :=
  ∃ u a v, Reaches (step cfg) NewDraw start u ∧ NewDraw u a ∧ step cfg u a = some v ∧ StepsBack key u v ∧
    Reaches (step cfg) NewDraw v s

def Timer (key : RelayKey) (a : Action) : Prop :=
  (∃ now draw pair, a = .call key.room now (.deadline key.transfer key.attempt draw pair)) ∨
    ∃ now, a = .call key.room now (.probeDeadline key.transfer key.attempt)

structure Kept (cfg : Config) (start s : System) : Prop where
  fits : ∀ key r, s.record? key.room key.transfer = some r →
    Fits (iceBudget cfg.limits.directCarriers) (Reported cfg start s key) r.source r.recipient (pathLog key s)
      (stage r key.attempt)
  budgeted : ∀ key, Budgeted (iceBudget cfg.limits.directCarriers) (pathLog key s)
  tails : ∀ i room peer id attempt, s.tasks.get? i = some (.readyTail room peer id attempt) →
    Reported cfg start s ⟨room, id, attempt⟩ peer

section Steps

variable {cfg : Config} {start s s' : System} {a : Action} {key : RelayKey}

theorem pathOf_attempt {sent : PeerId × Envelope} {id : TransferId} {attempt : AttemptId} {e : PathEvent}
    (h : pathOf sent = some (id, attempt, e)) : attemptOf sent.2 = some attempt := by
  obtain ⟨peer, envelope⟩ := sent
  cases envelope with
  | rtc | directFailed =>
    cases h
    rfl
  | pathCommit =>
    rw [pathOf] at h
    split at h
    all_goals cases h
    rfl
  | _ => cases h

theorem pathLog_unheard (h : ∀ n ∈ s.notices, attemptOf n.2.2 ≠ some key.attempt) : pathLog key s = [] := by
  rw [pathLog, filterMap_eq_nil_iff]
  rintro ⟨room, sent⟩ hn
  dsimp only
  cases hp : pathOf sent with
  | none => rfl
  | some found =>
    refine if_neg ?_
    rintro rfl
    exact h _ hn (pathOf_attempt hp)

theorem Reported.later {peer : PeerId} (h : Reported cfg start s key peer) (hnew : NewDraw s a)
    (hs : step cfg s a = some s') : Reported cfg start s' key peer := by
  obtain ⟨u, now, ranges, v, hu, hv, hvs⟩ := h
  exact ⟨u, now, ranges, v, hu, hv, hvs.tail hnew hs⟩

theorem roomApart_reached {maxPeersGlobal : Nat} {relayOnly : RoomRef → Bool}
    (h : Reaches (step cfg) NewDraw (initial cfg maxPeersGlobal relayOnly) s) (room : RoomRef) : RoomApart (s.rooms room) := by
  intro id r hr attempt ha
  exact (reaches_ticketsKept (h.mono fun _ _ hnew => hnew.fresh)).apart room id r attempt hr ha

section

variable (hreach : Reaches (step cfg) NewDraw start s) (h : step cfg s a = some s') (hnew : NewDraw s a)
  (hapart : ∀ room, RoomApart (s.rooms room)) (hk : Kept cfg start s)
include hreach h hnew hapart hk

theorem step_kept_course (key : RelayKey) : ∃ new, pathLog key s' = pathLog key s ++ new ∧
      Course cfg a (Reported cfg start s') key (s.record? key.room key.transfer) new
        (s'.record? key.room key.transfer) := by
  refine step_course ?_ ?_ h hapart key
  · rintro room now peer id attempt ranges rfl
    exact ⟨s, now, ranges, s', hreach, h, .refl⟩
  · exact fun i room peer id attempt hi => (hk.tails i room peer id attempt hi).later hnew h

theorem kept_step : Kept cfg start s' := by
  have hcourse := step_kept_course hreach h hnew hapart hk
  have later (key r) (hr : s.record? key.room key.transfer = some r) :
      Fits (iceBudget cfg.limits.directCarriers) (Reported cfg start s' key) r.source r.recipient (pathLog key s)
        (stage r key.attempt) :=
    (hk.fits key r hr).mono fun _ hp => hp.later hnew h
  refine ⟨fun key r' hr' => ?_, fun key => ?_, fun i room peer id attempt hi => ?_⟩
  · obtain ⟨new, hlog, hc⟩ := hcourse key
    rw [hr'] at hc
    rw [hlog]
    generalize ho : s.record? key.room key.transfer = o at hc
    cases hc with
    | turn ht hp =>
      obtain ⟨hsource, hrecipient⟩ := hp r' rfl
      rw [hsource, hrecipient]
      exact fits_turn ht (later key _ ho)
    | drawn hd hst =>
      rw [pathLog_unheard (hnew.unheard _ hd)]
      rcases hst with hst | hst <;> rw [hst]
      · exact append_nil []
      · exact negotiated_start
    | absent hst =>
      have hst : stage r' key.attempt = none := hst
      rw [hst]
      trivial
  · obtain ⟨new, hlog, hc⟩ := hcourse key
    rw [hlog]
    generalize ho : s.record? key.room key.transfer = o at hc
    generalize s'.record? key.room key.transfer = o' at hc
    cases hc with
    | turn ht => exact budgeted_turn ht (later key _ ho) (hk.budgeted key)
    | drawn | absent =>
      rw [append_nil]
      exact hk.budgeted key
  · rcases step_tasks h i _ hi with hold | ⟨now, ranges, rfl⟩
    · exact (hk.tails i room peer id attempt hold).later hnew h
    · exact ⟨s, now, ranges, s', hreach, h, .refl⟩

end

theorem pathLog_reaches (h : Reaches (step cfg) NewDraw s s') {e : PathEvent} (he : e ∈ pathLog key s) :
    e ∈ pathLog key s' := by
  refine h.invariant (P := fun t => e ∈ pathLog key t) he fun t b u ht _ hs => ?_
  obtain ⟨room, sc, outbox, hleft⟩ := step_left hs
  rw [pathLog_append key hleft.notices]
  exact mem_append_left _ ht

end Steps

section Reached

variable {cfg : Config} {maxPeersGlobal : Nat} {relayOnly : RoomRef → Bool} {s s' : System} {a : Action} {key : RelayKey}

theorem reaches_kept (h : Reaches (step cfg) NewDraw (initial cfg maxPeersGlobal relayOnly) s) :
    Kept cfg (initial cfg maxPeersGlobal relayOnly) s := by
  induction h with
  | refl =>
    refine ⟨fun _ _ hr => (nomatch hr), fun key => ?_, fun _ _ _ _ _ hi => (nomatch hi)⟩
    have hstart : Negotiated (iceBudget cfg.limits.directCarriers) (fun _ => True) 0 0 {} [] := negotiated_start
    exact budgeted_negotiated hstart
  | tail hu hm ih =>
    obtain ⟨b, hnew, hs⟩ := hm
    exact kept_step hu hs hnew (roomApart_reached hu) ih

theorem unfailed_of_fallsBack (hk : Kept cfg (initial cfg maxPeersGlobal relayOnly) s) {r r' : TransferRecord}
    (hr : s.record? key.room key.transfer = some r) (hf : FallsBack key.attempt r r') (p : PeerId) :
    .failed p ∉ pathLog key s := by
  have hfits := hk.fits key r hr
  rw [stage, if_pos hf.1] at hfits
  rcases hf.2.1 with hs | hs
  · cases hst : r.state with
    | negotiatingDirect =>
      rw [hst] at hfits
      exact hfits.tallied.unfailed p
    | _ => simp [hst, TransferState.isNegotiatingDirect] at hs
  · rw [hs] at hfits
    exact hfits p

theorem failed_of_steppedBack (h : SteppedBack cfg (initial cfg maxPeersGlobal relayOnly) s key) :
    ∃ p, .failed p ∈ pathLog key s := by
  obtain ⟨u, b, v, hu, hnew, hs, ⟨r, r', hr, hr', hf⟩, hvs⟩ := h
  obtain ⟨new, hlog, hc⟩ := step_kept_course hu hs hnew (roomApart_reached hu) (reaches_kept hu) key
  rw [hr, hr'] at hc
  cases hc with
  | turn _ _ hfall =>
    obtain ⟨p, hp⟩ := hfall r' rfl hf
    refine ⟨p, pathLog_reaches hvs ?_⟩
    rw [hlog]
    exact mem_append_right _ hp
  | drawn _ _ hno => exact absurd hf (hno r rfl)

theorem not_negotiating_of_commit (hk : Kept cfg (initial cfg maxPeersGlobal relayOnly) s) {p : PeerId}
    (hc : .commit p ∈ pathLog key s) {r : TransferRecord} (hr : s.record? key.room key.transfer = some r)
    (bits : NegotiationBits) : stage r key.attempt ≠ some (.negotiating bits) := by
  intro hst
  have hfits := hk.fits key r hr
  rw [hst] at hfits
  exact hfits.tallied.uncommitted p hc

theorem put_scope (s : System) (room : RoomRef) : s.put room (s.scope room) = s := by
  rw [System.put, System.scope, Function.update_eq_self]

theorem timer_after_commit (hapart : ∀ room, RoomApart (s.rooms room))
    (hk : Kept cfg (initial cfg maxPeersGlobal relayOnly) s) {p : PeerId} (hc : .commit p ∈ pathLog key s)
    (ht : Timer key a) (h : step cfg s a = some s') : s' = s := by
  rcases ht with ⟨now, draw, pair, rfl⟩ | ⟨now, rfl⟩
  · have hnone : fallbackToRelay cfg now draw pair key.transfer key.attempt [] .deadline (s.scope key.room) =
        (s.scope key.room, none) := by
      rw [fallbackToRelay]
      split
      · rfl
      rename_i r hr
      split
      · rfl
      rename_i hp
      split
      · rfl
      rename_i ha
      -- The deadline is for a negotiation, and this attempt has left its own.
      have hneg : r.state.isNegotiatingDirect = true := by simpa [fallbackPermitted] using hp
      cases hst : r.state with
      | negotiatingDirect _ bits =>
        exact absurd (stage_own (not_not.mp ha) hst) (not_negotiating_of_commit hk hc hr bits)
      | _ => simp [hst, TransferState.isNegotiatingDirect] at hneg
    rw [step, callStep, hnone] at h
    exact (some.inj h).symm.trans (put_scope s key.room)
  have hnone : clearUpgrade key.transfer key.attempt (s.scope key.room) = (s.scope key.room, false) := by
    rw [clearUpgrade]
    split
    · rfl
    rename_i r hr
    refine if_neg fun hu => ?_
    obtain ⟨up, hup, he⟩ := map_eq_some_iff.mp hu
    have hne : r.attemptId ≠ some key.attempt := fun ha => hapart key.room key.transfer r hr _ ha hu
    exact not_negotiating_of_commit hk hc hr up.bits (stage_probe hne hup he)
  rw [step, callStep, hnone] at h
  exact (some.inj h).symm.trans (put_scope s key.room)

end Reached

section Runs

def newDrawCheck (s : System) (a : Action) : Bool :=
  roomZero a && (Action.attemptDraw a).all (fun d => !mentionedCheck s d &&
    s.notices.all (fun n => decide (attemptOf n.2.2 ≠ some d)))

theorem newDraw_of_check {s : System} {a : Action} (hs : OnlyRoomZero s) (h : newDrawCheck s a = true) : NewDraw s a := by
  rw [newDrawCheck, Bool.and_eq_true] at h
  refine ⟨fun d hd hm => ?_, fun d hd n hn => ?_⟩
  · simp [hd, mentionedCheck_of hs hm] at h
  · have hall := h.2
    rw [hd, all_some, Bool.and_eq_true] at hall
    exact of_decide_eq_true (all_eq_true.mp hall.2 n hn)

theorem reaches_of_newDrawCheck {cfg : Config} {maxPeersGlobal : Nat} {relayOnly : RoomRef → Bool} {s : System}
    (as : List Action) (h : execWhile (step cfg) newDrawCheck (initial cfg maxPeersGlobal relayOnly) as = some s) :
    OnlyRoomZero s ∧ Reaches (step cfg) NewDraw (initial cfg maxPeersGlobal relayOnly) s := by
  have hroom : ∀ t a u, OnlyRoomZero t → newDrawCheck t a = true → step cfg t a = some u → OnlyRoomZero u := by
    intro t a u ht hc hu
    rw [newDrawCheck, Bool.and_eq_true] at hc
    exact step_onlyRoomZero ht hc.1 hu
  refine ⟨?_, execWhile_reaches_of (P := OnlyRoomZero) (fun _ _ _ => rfl) hroom (fun _ _ => newDraw_of_check) as h⟩
  exact (execWhile_reaches as h).invariant (P := OnlyRoomZero) (fun _ _ _ => rfl) hroom

def sampleDirect : List Action :=
  [.call 0 0 (.sourceReady 1 100 10 5 (samplePair 1)), .call 0 0 (.rtc 2 100 10 0 (.offer "o")),
    .call 0 0 (.rtc 1 100 10 0 (.answer "a")), .call 0 0 (.directReady 1 100 10 []), .resume 1 0 .go,
    .call 0 0 (.directReady 2 100 10 [])]

end Runs

end Bore.RegistryEarned
