import Bore.RegistryTerminal

namespace Bore.RegistryAborts

open RegistryTypes RegistryMoves RegistrySystem RegistrySections RegistrySteps RegistryTerminal Runs

def Act.replaces : Act → Bool
  | .retry _ | .commitUpgrade | .fallback _ => true
  | _ => false

variable {r r' : TransferRecord}

theorem Move.attemptId_eq {act : Act} (h : Move act r r') (ha : Act.replaces act = false) :
    r'.attemptId = r.attemptId := by
  cases h with
  | retry | commitUpgrade | fallback => cases ha
  | _ => rfl

/-- No retry, upgrade switch or fallback runs on a transfer while an abort of it
is between its attempt check and its transition to `Failed`, and no request
draws the identifier again in between. -/
def Undisturbed (cfg : Config) (s : System) (a : Action) : Prop :=
  ∀ i key source recipient, s.tasks.get? i = some (.abortFail key source recipient) →
    (∀ r act, s.record? key.room key.transfer = some r → Act.replaces act = true →
      ¬ Performed cfg s a key.room key.transfer r act) ∧
    (s.record? key.room key.transfer = none → ∀ draw, ¬ Drawn cfg s a key.room key.transfer draw)

/-- Every abort that passed its check would still pass it, and so did those that
failed a transfer. -/
structure AbortsCurrent (s : System) : Prop where
  pending : ∀ i key source recipient r, s.tasks.get? i = some (.abortFail key source recipient) →
    s.record? key.room key.transfer = some r → r.attemptId = some key.attempt
  done : ∀ n ∈ s.aborts, n.current = some n.key.attempt

variable {cfg : Config} {s s' : System} {a : Action}

variable {room : RoomRef} {id : TransferId}

theorem attemptId_of_unreplaced (h : step cfg s a = some s')
    (hp : ∀ r act, s.record? room id = some r → Act.replaces act = true → ¬ Performed cfg s a room id r act)
    (hd : s.record? room id = none → ∀ draw, ¬ Drawn cfg s a room id draw) (hr' : s'.record? room id = some r') :
    ∃ r, s.record? room id = some r ∧ r'.attemptId = r.attemptId := by
  have hc := step_steps h room id
  rw [hr'] at hc
  generalize ho : s.record? room id = o at hc
  cases hc with
  | same => exact ⟨r', rfl, rfl⟩
  | created hdraw => exact absurd hdraw (hd ho _)
  | @moved r _ act hperf hm =>
    refine ⟨r, rfl, Move.attemptId_eq hm ?_⟩
    cases hrep : Act.replaces act with
    | false => rfl
    | true => exact absurd hperf (hp r act ho hrep)

variable {now : Instant}

theorem not_performed_go {i : Nat} {act : Act}
    (ha : Act.replaces act = true) : ¬ Performed cfg s (.resume i now .go) room id r act := by
  cases act with
  | retry =>
    rintro ⟨_, _, _, h, _⟩
    cases h
  | commitUpgrade =>
    rintro ⟨_, _, _, _, h, _⟩
    cases h
  | fallback =>
    rintro (⟨_, _, _, h, _⟩ | ⟨_, _, _, _, _, _, _, _, h, _⟩) <;> cases h
  | _ => cases ha

theorem not_drawn_go {i : Nat} {draw : AttemptId} : ¬ Drawn cfg s (.resume i now .go) room id draw := by
  rintro ⟨_, _, _, h, _⟩
  cases h

theorem step_abortsCurrent (h : step cfg s a = some s') (hok : Undisturbed cfg s a) (hs : AbortsCurrent s) :
    AbortsCurrent s' := by
  constructor
  · intro i key source recipient r' hi hr'
    rcases step_tasks h i _ hi with hi | ⟨_, ⟨now, rfl⟩, r, hr, ha⟩
    · obtain ⟨hp, hd⟩ := hok i key source recipient hi
      obtain ⟨r, hr, he⟩ := attemptId_of_unreplaced h hp hd hr'
      rw [he]
      exact hs.pending i key source recipient r hi hr
    obtain ⟨r₀, hr₀, he⟩ := attemptId_of_unreplaced h (fun _ _ _ => not_performed_go) (fun _ _ => not_drawn_go) hr'
    rw [hr] at hr₀
    cases hr₀
    rw [he, ha]
  · intro n hn
    rcases (step_taskStep h).aborts hn with hn | ⟨i, source, recipient, r, hi, hr, hc⟩
    · exact hs.done n hn
    · rw [hc]
      exact hs.pending i n.key source recipient r hi hr

/-- In a run that leaves each abort undisturbed between its two critical
sections, an abort fails a transfer only on the attempt it aborts. -/
theorem abort_fails_only_its_attempt (cfg : Config) (maxPeersGlobal : Nat) (relayOnly : RoomRef → Bool) (s : System)
    (h : Reaches (step cfg) (Undisturbed cfg) (initial cfg maxPeersGlobal relayOnly) s) :
    ∀ n ∈ s.aborts, n.current = some n.key.attempt := by
  refine (h.invariant (P := AbortsCurrent) ⟨?_, ?_⟩ (fun t a u ht hok hs => step_abortsCurrent hs hok ht)).done
  · intro i key source recipient r hi
    cases hi
  · intro n hn
    cases hn

/-- The relay attempt 11 dies; between the two sections of its abort the
recipient's report switches the transfer to attempt 12, which then fails. -/
theorem abort_fails_upgraded_attempt :
    ∃ s, Reaches (step sampleConfig) always sampleStart s ∧ s.aborts = [⟨⟨0, 100, 11⟩, some 12⟩] :=
  exec_observe (sampleRequest ++ sampleRelay ++ sampleProbe ++ [.call 0 0 (.directReady 1 100 12 []),
    .resume 2 0 (.ended .sourceGone), .resume 2 0 .go, .resume 2 0 .go, .resume 2 0 .go,
    .call 0 0 (.directReady 2 100 12 []), .resume 2 0 .go]) System.aborts (by decide +kernel)

def abortPending (s : System) : Bool :=
  s.tasks.values.any (fun task => match task with
    | .abortFail _ _ _ => true
    | _ => false)

def continuing : Action → Bool
  | .resume _ _ .go => true
  | _ => false

theorem undisturbed_of_continuing (h : (!abortPending s || continuing a) = true) : Undisturbed cfg s a := by
  intro i key source recipient hi
  have hp : abortPending s = true :=
    List.any_eq_true.mpr ⟨_, (Table.mem_values_iff _ _).mpr ⟨i, hi⟩, rfl⟩
  have hc : continuing a = true := by simpa [hp] using h
  unfold continuing at hc
  split at hc
  · exact ⟨fun _ _ _ => not_performed_go, fun _ _ => not_drawn_go⟩
  · cases hc

theorem abort_fails_only_its_attempt_sourceGone :
    ∃ s, Reaches (step sampleConfig) (Undisturbed sampleConfig) sampleStart s ∧ s.aborts.length = 1 ∧
      ∀ n ∈ s.aborts, n.current = some n.key.attempt := by
  obtain ⟨s, hs, hl⟩ : ∃ s, Reaches (step sampleConfig) (fun t a => !abortPending t || continuing a) sampleStart s ∧
      s.aborts.length = 1 :=
    execWhile_observe (sampleRequest ++ sampleRelay ++ [.resume 2 0 (.ended .sourceGone), .resume 2 0 .go,
      .resume 2 0 .go, .resume 2 0 .go, .resume 2 0 .go]) _ (by decide +kernel)
  have hs : Reaches (step sampleConfig) (Undisturbed sampleConfig) sampleStart s :=
    hs.mono (fun _ _ => undisturbed_of_continuing)
  exact ⟨s, hs, hl, abort_fails_only_its_attempt sampleConfig 100 (fun _ => false) s hs⟩

end Bore.RegistryAborts
