import Bore.RegistrySteps

namespace Bore.RegistryNotices

open RegistryTypes RegistryOps RegistryDirect RegistryRelay RegistryCatalogue RegistryMoves RegistryAdmission RegistrySystem
  RegistrySections RegistrySteps

def Act.direct : Act → Bool
  | .signal | .commitDirect | .probe | .commitUpgrade | .resume | .fallback _ => true
  | _ => false

def pathless : Envelope → Bool
  | .rtc .. | .pathCommit .. | .directFailed .. => false
  | _ => true

def plain : Envelope → Bool
  | .relayTicket .. => false
  | e => pathless e

def admits (s : System) : Action → Bool
  | .call _ _ (.sourceReady ..) => true
  | .resume i _ _ => (s.tasks.get? i).any fun
    | .admitHold .. => true
    | _ => false
  | _ => false

section Outboxes

variable {cfg : Config} {now : Instant} {pair : TicketPair} {s : Scope} {id : TransferId} {peer : PeerId}
  {attemptId : AttemptId}

def Plain (outbox : Outbox) : Prop := outbox.all (fun e => plain e.2) = true

def Pathless (outbox : Outbox) : Prop := outbox.all (fun e => pathless e.2) = true

theorem Plain.toPathless {outbox : Outbox} (h : Plain outbox) : Pathless outbox := by
  rw [Plain, List.all_eq_true] at h
  rw [Pathless, List.all_eq_true]
  intro e he
  have hp := h e he
  revert hp
  fun_cases plain e.2
  · nofun
  · exact id

theorem cancelOnes_plain (byPeer : PeerId) (ids : List TransferId) (acc : Scope × Outbox) (h : Plain acc.2) :
    Plain (ids.foldl (cancelOne now byPeer) acc).2 := by
  induction ids generalizing acc with
  | nil => exact h
  | cons id _ ih =>
    refine ih _ ?_
    fun_cases cancelOne now byPeer acc id
    case case1 =>
      rw [Plain, List.all_append, h]
      rfl
    all_goals exact h

theorem cancelWhereLocked_plain {matched : TransferRecord → Bool} {s' : Scope} {outbox : Outbox}
    (h : cancelWhereLocked now peer matched s = (s', outbox)) : Plain outbox := by
  have hp : Plain (cancelWhereLocked now peer matched s).2 := cancelOnes_plain peer _ _ rfl
  rwa [h] at hp

theorem withdrawOffer_plain (offer : OfferId) : Plain (withdrawOutbox (withdrawOffer now peer offer s).2) := by
  fun_cases withdrawOffer now peer offer s
  case case4 hcancel => exact cancelWhereLocked_plain hcancel
  all_goals rfl

theorem removePeer_plain : Plain (departureOutbox (removePeer now peer s).2) := by
  fun_cases removePeer now peer s
  case case1 => rfl
  all_goals
    rename_i hcancel _ _
    exact cancelWhereLocked_plain hcancel

theorem admitRelayAttempt_pathless : Pathless (admitRelayAttempt cfg now pair id attemptId s).2.2 := by
  fun_cases admitRelayAttempt cfg now pair id attemptId s <;> rfl

theorem fallbackToRelay_pathless {draw failed : AttemptId} {ranges : Ranges} {cause : FallbackCause} {sc : Scope}
    {fallback : FallbackOutcome}
    (h : fallbackToRelay cfg now draw pair id failed ranges cause s = (sc, some fallback)) : Pathless fallback.outbox := by
  obtain ⟨_, number, _, _, _, _, _, hinstall⟩ := fallbackToRelay_some h
  have hp : Pathless (admitRelayAttempt cfg now pair id draw (s.installAttempt id ⟨draw, number, none⟩
      (fallbackRecord draw number failed fallback.ranges))).2.2 := admitRelayAttempt_pathless
  rwa [hinstall] at hp

theorem sourceReady_pathless (digest : Digest) :
    Pathless (readyOutbox (sourceReady cfg now pair peer id attemptId digest s).2) := by
  rw [sourceReady]
  repeat' split
  all_goals first | rfl | exact admitRelayAttempt_pathless

end Outboxes

section Steps

variable {cfg : Config} {s : System} {a : Action} {room : RoomRef} {sc : Scope} {outbox : Outbox}

theorem ran_plain (h : Ran cfg s a room sc outbox) (hn : negotiates s a = false) (ha : admits s a = false) :
    Plain outbox := by
  cases h with
  | rtc | upgradeReady | deadline => cases hn
  | sourceReady => cases ha
  | directReady _ _ _ _ _ _ hi | fallback _ _ _ _ _ _ _ _ _ _ _ hi | commit _ _ _ _ _ _ hi =>
    simp [negotiates, hi] at hn
  | issue _ _ _ _ _ hi => simp [admits, hi] at ha
  | withdraw _ _ _ offer => exact withdrawOffer_plain offer
  | leave => exact removePeer_plain
  | sourceReject => fun_cases sourceReject <;> rfl
  | upgradeElapsed => fun_cases directUpgradeElapsed <;> rfl
  | cancel => fun_cases cancelTransfer <;> rfl
  | progress => fun_cases reportProgress <;> rfl
  | complete => fun_cases completeTransfer <;> rfl
  | busy => fun_cases admitTimeout <;> rfl
  | deliver | fail => split <;> rfl
  | _ => rfl

theorem ran_pathless (h : Ran cfg s a room sc outbox) (hn : negotiates s a = false) : Pathless outbox := by
  cases ha : admits s a with
  | false => exact (ran_plain h hn ha).toPathless
  | true =>
    cases h with
    | sourceReady _ _ _ _ _ digest => exact sourceReady_pathless digest
    | issue => fun_cases admitIssue <;> rfl
    | still => rfl
    | _ => simp_all [admits]

theorem performed_direct {id : TransferId} {r : TransferRecord} {act : Act} (h : Performed cfg s a room id r act)
    (hn : negotiates s a = false) : Act.direct act = false := by
  cases act with
  | signal | commitDirect | probe | resume =>
    rw [Performed, hn] at h
    cases h
  | commitUpgrade =>
    obtain ⟨_, _, _, _, rfl, _⟩ := h
    cases hn
  | fallback =>
    rcases h with ⟨_, _, _, rfl, _⟩ | ⟨i, _, _, _, _, _, _, _, rfl, hi, _⟩
    · cases hn
    · simp [negotiates, hi] at hn
  | _ => rfl

end Steps

end Bore.RegistryNotices
