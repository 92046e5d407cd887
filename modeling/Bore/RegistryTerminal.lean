import Bore.RegistrySteps

namespace Bore.RegistryTerminal

open RegistryTypes RegistryOps RegistryDirect RegistryRelay RegistryMoves RegistryEffects RegistrySystem
  RegistrySteps Runs

/-- A `transfer.direct_ready` that completes the probe an ended transfer left
open. No terminal transition clears the probe and no guard asks for a live
transfer. -/
def revives (s : System) : Action → Bool
  | .call room _ (.directReady peer id attempt _) =>
    (s.record? room id).any (fun r => !r.state.isLive && commitsUpgrade r peer attempt)
  | _ => false

theorem isLive_of_isNegotiatingDirect {state : TransferState} (h : state.isNegotiatingDirect = true) :
    state.isLive = true := by
  cases state <;> first | rfl | cases h

theorem Move.terminal {act : Act} {r r' : TransferRecord} (h : Move act r r') (hr : r.state.isLive = false)
    (ha : act ≠ .commitUpgrade) : r'.state.isLive = false := by
  cases h with
  | commitUpgrade => exact absurd rfl ha
  | sent h | negotiate _ h | relayOnly _ _ h | signal _ _ _ h | activate h => simp [h, TransferState.isLive] at hr
  | retry _ _ h =>
    simp only [busyRetry, Bool.and_eq_true, decide_eq_true_eq] at h
    simp [h.1, TransferState.isLive] at hr
  | commitDirect h => simp [isLive_of_isNegotiatingDirect h] at hr
  | fallback _ _ _ _ _ h =>
    rcases h with h | h
    · simp [isLive_of_isNegotiatingDirect h] at hr
    · simp [h, TransferState.isLive] at hr
  | finish _ _ _ hst => exact hst
  | probe | startProbe | clearProbe | resume | carry | grant | release => exact hr

theorem step_terminal {cfg : Config} {s s' : System} {a : Action} (h : step cfg s a = some s')
    (ha : (!revives s a) = true) {room : RoomRef} {id : TransferId} {r : TransferRecord}
    (hr : s.record? room id = some r) (ht : r.state.isLive = false) :
    (∃ r', s'.record? room id = some r' ∧ r'.state.isLive = false) ∨ s'.record? room id = none := by
  have hc := step_steps h room id
  rw [hr] at hc
  generalize s'.record? room id = o at hc
  cases hc with
  | same => exact .inl ⟨r, rfl, ht⟩
  | collected => exact .inr rfl
  | moved hp hm =>
    refine .inl ⟨_, rfl, Move.terminal hm ht ?_⟩
    rintro rfl
    obtain ⟨now, peer, attempt, ranges, rfl, hcommit⟩ := hp
    simp [revives, hr, ht, hcommit] at ha

theorem commitsUpgrade_spec {r : TransferRecord} {peer : PeerId} {attempt : AttemptId}
    (h : commitsUpgrade r peer attempt = true) :
    ∃ up isSource bits, r.upgrade = some up ∧ sideOf r peer = .ok isSource ∧ up.attemptId = attempt ∧
      markReady up.bits isSource = .ok bits ∧ bothReady bits = true ∧ r.attemptNumber < u64Max := by
  unfold commitsUpgrade at h
  split at h
  · rename_i up isSource hu hs
    simp only [Bool.and_eq_true, decide_eq_true_eq] at h
    obtain ⟨ha, h⟩ := h
    split at h
    · rename_i bits hb
      simp only [Bool.and_eq_true, decide_eq_true_eq] at h
      exact ⟨up, isSource, bits, hu, hs, ha, hb, h.1, h.2⟩
    · cases h
  · cases h

@[simp] theorem commitProbe_state (up : UpgradeState) (number : Nat) (ranges : Ranges) (r : TransferRecord) :
    (commitProbe up number ranges r).state = .activeDirect := by
  unfold commitProbe setResumeIfAny
  split <;> rfl

theorem upgradeReady_commits {peer : PeerId} {id : TransferId} {attempt : AttemptId} (s : Scope) (ranges : Ranges)
    {r : TransferRecord} (hr : s.record? id = some r) (h : commitsUpgrade r peer attempt = true) :
    ∃ r', (upgradeReady peer id attempt ranges s).1.record? id = some r' ∧ r'.state = .activeDirect := by
  obtain ⟨up, isSource, bits, hu, hs, rfl, hb, hboth, hlt⟩ := commitsUpgrade_spec h
  have hn : nextAttemptNumber r.attemptNumber = .ok (r.attemptNumber + 1) := if_pos hlt
  simp [upgradeReady, hr, hu, hs, hb, hn, hboth]

theorem step_revives {cfg : Config} {s : System} {a : Action} (h : revives s a = true) :
    ∃ s' room id r r', step cfg s a = some s' ∧ s.record? room id = some r ∧ r.state.isLive = false ∧
      s'.record? room id = some r' ∧ r'.state = .activeDirect := by
  unfold revives at h
  split at h
  · rename_i room now peer id attempt ranges
    cases hr : s.record? room id with
    | none => simp [hr] at h
    | some r =>
      simp only [hr, Option.any_some, Bool.and_eq_true, Bool.not_eq_true'] at h
      obtain ⟨r', hr', hs'⟩ := upgradeReady_commits (s.scope room) ranges hr h.2
      refine ⟨_, room, id, r, r', rfl, hr, h.1, ?_, hs'⟩
      have hrooms : (callStep cfg s room now (.directReady peer id attempt ranges)).rooms room =
          (upgradeReady peer id attempt ranges (s.scope room)).1.room := by
        simp only [callStep]
        split <;> simp_all [System.put, System.notify, System.spawn]
      rw [System.record?, hrooms]
      exact hr'
  · cases h

/-- In a run without such a report, a transfer that ended stays ended for as
long as its record is kept. Each such report makes an ended transfer direct. -/
theorem terminal_is_final (cfg : Config) :
    (∀ s s' room id r, Reaches (step cfg) (fun t a => !revives t a) s s' → s.record? room id = some r →
      r.state.isLive = false → (∃ r', s'.record? room id = some r' ∧ r'.state.isLive = false) ∨
      ∃ t, Reaches (step cfg) (fun t a => !revives t a) s t ∧
        Reaches (step cfg) (fun t a => !revives t a) t s' ∧ t.record? room id = none) ∧
    ∀ s a, revives s a = true → ∃ s' room id r r', step cfg s a = some s' ∧ s.record? room id = some r ∧
      r.state.isLive = false ∧ s'.record? room id = some r' ∧ r'.state = .activeDirect := by
  refine ⟨?_, fun s a h => step_revives h⟩
  intro s s' room id r h hr ht
  induction h with
  | refl => exact .inl ⟨r, hr, ht⟩
  | @tail u v hu hm ih =>
    obtain ⟨a, ha, hs⟩ := hm
    have hv := Reaches.tail hu ha hs
    rcases ih with ⟨r', hr', ht'⟩ | ⟨t, hst, htu, hn⟩
    · rcases step_terminal hs ha hr' ht' with hv' | hn
      · exact .inl hv'
      · exact .inr ⟨v, hv, .refl, hn⟩
    · exact .inr ⟨t, hst, htu.tail ha hs, hn⟩

def sampleConfig : Config where
  limits := ⟨16, 16, 1000, 1000, 8, 1, 1⟩
  iceServers := []
  directDeadlineMs := 20000
  ticketTtl := 30000
  nfc := id
  parseManifest := fun _ => .ok ⟨1, "a", [⟨0, "a", 3, 0, [7], some 9⟩]⟩
  selectionDigest := fun _ _ _ _ => 5
  ticketHash := id

def sampleStart : System := initial sampleConfig 100 (fun _ => false)

def samplePair (ticket : RelayTicket) : TicketPair := ⟨ticket, ticket + 1, Nat.ne_of_lt (Nat.lt_succ_self ticket)⟩

def sampleRequest : List Action :=
  [.call 0 0 (.join 1 none), .call 0 0 (.openSession 1), .call 0 0 (.join 2 none), .call 0 0 (.openSession 2),
    .call 0 0 (.publish 1 1 1 [] 3), .call 0 0 (.request ⟨2, 1, ["0"], 5, "raw", none⟩ [100] 10),
    .resume 0 0 (.accepted true)]

def sampleRelay : List Action :=
  [.call 0 0 (.sourceReady 1 100 10 5 (samplePair 1)), .call 0 0 (.directFailed 2 100 10 "timeout" []),
    .resume 1 0 .go, .resume 1 0 (.fallback 11 (samplePair 21)),
    .call 0 0 (.attach ⟨1, 100, 11, .source, 21⟩), .call 0 0 (.attach ⟨2, 100, 11, .recipient, 22⟩),
    .resume 2 0 .go, .resume 2 0 .go, .resume 3 0 .go, .resume 3 0 .go, .resume 3 0 .go, .resume 2 0 .go,
    .resume 2 0 .go]

def sampleProbe : List Action :=
  [.call 0 0 (.upgradeElapsed 100 12), .call 0 0 (.rtc 2 100 12 0 (.offer "o")),
    .call 0 0 (.rtc 1 100 12 0 (.answer "a"))]

def stateAndToken (s : System) : Option (TransferState × Token) :=
  (s.record? 0 100).map (fun r => (r.state, r.cancel))

/-- The recipient cancels while the probe is open; the two ready reports then
make the cancelled transfer direct. -/
theorem cancelled_becomes_activeDirect :
    ∃ s s', Reaches (step sampleConfig) always sampleStart s ∧ stateAndToken s = some (.cancelled, 0) ∧
      Reaches (step sampleConfig) (fun _ _ => true) s s' ∧ stateAndToken s' = some (.activeDirect, 0) :=
  exec_observe_twice (sampleRequest ++ sampleRelay ++ sampleProbe ++ [.call 0 0 (.cancel 2 100)])
    [.call 0 0 (.directReady 1 100 12 []), .call 0 0 (.directReady 2 100 12 [])] stateAndToken stateAndToken
    (by decide +kernel)

/-- The same cancelled transfer, with the source's report and a late completion
only. -/
theorem terminal_is_final_cancelled :
    ∃ s s' r, Reaches (step sampleConfig) (fun t a => !revives t a) s s' ∧ s.record? 0 100 = some r ∧
      r.state = .cancelled ∧ ((∃ r', s'.record? 0 100 = some r' ∧ r'.state.isLive = false) ∨
      ∃ t, Reaches (step sampleConfig) (fun t a => !revives t a) s t ∧
        Reaches (step sampleConfig) (fun t a => !revives t a) t s' ∧ t.record? 0 100 = none) := by
  have h : ∃ s s', Reaches (step sampleConfig) always sampleStart s ∧ stateAndToken s = some (.cancelled, 0) ∧
      Reaches (step sampleConfig) (fun t a => !revives t a) s s' ∧ stateAndToken s' = some (.cancelled, 0) :=
    exec_observe_twice (sampleRequest ++ sampleRelay ++ sampleProbe ++ [.call 0 0 (.cancel 2 100)])
      [.call 0 0 (.directReady 1 100 12 []), .call 0 0 (.complete 2 100 11 9)] stateAndToken stateAndToken
      (by decide +kernel)
  obtain ⟨s, s', _, hr, hs', _⟩ := h
  obtain ⟨r, hr, he⟩ := Option.map_eq_some_iff.mp hr
  have ht : r.state = .cancelled := congrArg Prod.fst he
  exact ⟨s, s', r, hs', hr, ht, (terminal_is_final sampleConfig).1 s s' 0 100 r hs' hr (by rw [ht]; rfl)⟩

end Bore.RegistryTerminal
