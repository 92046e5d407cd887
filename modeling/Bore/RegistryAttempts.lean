import Bore.RegistryCapacity

namespace Bore.RegistryAttempts

open Option

open RegistryTypes RegistryOps RegistryMoves RegistryEffects RegistrySystem RegistrySteps RegistryCapacity
  RegistryTerminal Runs

/-- The stored attempt of a record is its current one, a live record has one,
and a relay permit is held on the relay only. -/
structure AttemptKept (r : TransferRecord) : Prop where
  current : ∀ attempt, r.attempt = some attempt →
    r.attemptId = some attempt.attemptId ∧ attempt.attemptNumber = r.attemptNumber
  stored : r.state.isLive = true → r.attempt.isSome = true
  permit : r.permit.isSome = true → r.state = .waitingRelay ∨ r.state = .active

section Moves

variable {act : Act} {r r' : TransferRecord}

variable {a : AttemptId}

theorem attemptKept_fresh (h : Fresh a r) : AttemptKept r := by
  refine ⟨fun attempt he => ?_, fun _ => ?_, fun hp => ?_⟩
  · rw [h.attempt] at he
    cases he
    exact ⟨h.attemptId, h.attemptNumber.symm⟩
  · rw [h.attempt]
    rfl
  · rw [TransferRecord.permit, h.attempt] at hp
    cases hp

theorem attemptKept_move (hm : Move act r r') (h : AttemptKept r) : AttemptKept r' := by
  -- A state in which no permit is held.
  have idle : r.state ≠ .waitingRelay → r.state ≠ .active → r.permit.isSome = true → False :=
    fun hw ha hp => (h.permit hp).elim hw ha
  cases hm with
  | sent hs | negotiate _ hs | signal _ _ _ hs =>
    refine ⟨h.current, fun _ => h.stored (by rw [hs]; rfl), fun hp => (idle ?_ ?_ hp).elim⟩ <;> simp [hs]
  | retry | commitUpgrade =>
    refine ⟨fun attempt he => ?_, fun _ => rfl, (by rintro ⟨⟩)⟩
    cases he
    exact ⟨rfl, rfl⟩
  | relayOnly _ _ _ ha =>
    refine ⟨fun attempt he => ?_, fun _ => rfl, fun _ => .inl rfl⟩
    cases he
    exact ⟨ha, rfl⟩
  | commitDirect hs =>
    refine ⟨h.current, fun _ => h.stored (isLive_of_isNegotiatingDirect hs), fun hp => (idle ?_ ?_ hp).elim⟩ <;>
      · intro he
        rw [he] at hs
        cases hs
  | probe | startProbe | clearProbe | resume | carry => exact { h with }
  | grant att _ hs ha =>
    refine ⟨fun attempt he => ?_, fun _ => rfl, fun _ => .inl hs⟩
    cases he
    exact h.current att ha
  | activate hs => exact ⟨h.current, fun _ => h.stored (by rw [hs]; rfl), fun _ => .inr rfl⟩
  | release =>
    refine ⟨fun attempt he => ?_, fun hl => ?_, fun hp => ?_⟩
    · obtain ⟨att, ha, rfl⟩ := map_eq_some_iff.mp he
      exact h.current att ha
    · rw [isSome_map]
      exact h.stored hl
    · rw [TransferRecord.permit] at hp
      cases ha : r.attempt <;> simp [ha] at hp
  | fallback =>
    refine ⟨fun attempt he => ?_, fun _ => rfl, fun _ => .inl rfl⟩
    cases he
    exact ⟨rfl, rfl⟩
  | finish _ st _ hst =>
    refine ⟨(by rintro _ ⟨⟩), fun hl' => ?_, (by rintro ⟨⟩)⟩
    change st.isLive = true at hl'
    rw [hst] at hl'
    cases hl'

theorem attemptNumber_move (hm : Move act r r') :
    r'.attemptId = r.attemptId ∧ r'.attemptNumber = r.attemptNumber ∨ r'.attemptNumber = r.attemptNumber + 1 := by
  cases hm with
  | retry a n _ hn | commitUpgrade _ n _ _ hn | fallback _ n _ _ _ _ _ hn => exact .inr (nextAttemptNumber_ok hn).2
  | _ => exact .inl ⟨rfl, rfl⟩

/-- A relay attempt that has tickets keeps its permit until its pump releases
it: what a move that is not the attempt's own draw leaves of it. -/
theorem onRelay_move {Q : Prop} (hm : Move act r r') (ha : r'.attemptId = some a)
    (hd : Act.draw act ≠ some a) (hu : r.upgrade.map UpgradeState.attemptId ≠ some a) (hf : act ≠ .finish)
    (hw : act = .release → r.state ≠ .waitingRelay) (hr : r.attemptId = some a →
      r.state = .waitingRelay ∧ r.permit.isSome = true ∨ r.state = .active ∧ (r.permit.isSome = true ∨ Q)) :
    r'.state = .waitingRelay ∧ r'.permit.isSome = true ∨ r'.state = .active ∧ (r'.permit.isSome = true ∨ Q ∨
        act = .release ∧ r.attemptId = some a ∧ r.permit.isSome = true) := by
  have carried : r.attemptId = some a → r.state = .waitingRelay ∧ r.permit.isSome = true ∨
      r.state = .active ∧ (r.permit.isSome = true ∨ Q ∨
        act = .release ∧ r.attemptId = some a ∧ r.permit.isSome = true) :=
    fun he => (hr he).imp_right fun ⟨hs, hp⟩ => ⟨hs, hp.imp_right .inl⟩
  cases hm with
  | retry | fallback => exact absurd ha hd
  | commitUpgrade _ _ _ hup =>
    refine absurd ?_ hu
    rw [hup]
    exact ha
  | sent h | negotiate _ h | relayOnly _ _ h | signal _ _ _ h =>
    have hs := hr ha
    simp [h] at hs
  | commitDirect h =>
    rcases hr ha with ⟨hs, _⟩ | ⟨hs, _⟩ <;>
      · rw [hs] at h
        cases h
  | finish => exact absurd rfl hf
  | grant _ _ h hatt hp =>
    rcases hr ha with ⟨_, hs⟩ | ⟨hs, _⟩
    · simp [TransferRecord.permit, hatt, hp] at hs
    · rw [h] at hs
      cases hs
  | activate h =>
    rcases hr ha with ⟨_, hp⟩ | ⟨hs, _⟩
    · exact .inr ⟨rfl, .inl hp⟩
    · rw [h] at hs
      cases hs
  | release =>
    rcases hr ha with ⟨hs, _⟩ | ⟨hs, hp | hq⟩
    · exact absurd hs (hw rfl)
    · exact .inr ⟨hs, .inr (.inr ⟨rfl, ha, hp⟩)⟩
    · exact .inr ⟨hs, .inr (.inl hq)⟩
  | probe | startProbe | clearProbe | resume | carry => exact carried ha

end Moves

variable {cfg : Config} {ok : System → Action → Prop} {maxPeersGlobal : Nat} {relayOnly : RoomRef → Bool} {s : System}
  {room : RoomRef} {id : TransferId} {r : TransferRecord}

theorem reaches_records {P : TransferRecord → Prop} (hf : ∀ a r, Fresh a r → P r)
    (hm : ∀ act r r', Move act r r' → P r → P r') (h : Reaches (step cfg) ok (initial cfg maxPeersGlobal relayOnly) s)
    (hr : s.record? room id = some r) : P r := by
  revert room id r
  refine h.invariant (P := fun s => ∀ {room id r}, s.record? room id = some r → P r) nofun ?_
  intro t a u ht _ hs room id r hr
  have hc := step_steps hs room id
  rw [hr] at hc
  generalize ho : t.record? room id = o at hc
  cases hc with
  | same => exact ht ho
  | created _ hfresh => exact hf _ _ hfresh
  | moved _ hmove => exact hm _ _ _ hmove (ht ho)

theorem reaches_attemptNumber {s' : System} (h : Reaches (step cfg) ok s s') (hr : s.record? room id = some r) :
    (∃ r', s'.record? room id = some r' ∧ (r'.attemptId = r.attemptId ∧ r'.attemptNumber = r.attemptNumber ∨
      r.attemptNumber < r'.attemptNumber)) ∨
    ∃ t, Reaches (step cfg) ok s t ∧ Reaches (step cfg) ok t s' ∧ t.record? room id = none := by
  induction h with
  | refl => exact .inl ⟨r, hr, .inl ⟨rfl, rfl⟩⟩
  | @tail u v hu hm ih =>
    obtain ⟨a, ha, hs⟩ := hm
    rcases ih with ⟨r', hr', hle⟩ | ⟨t, hst, htu, hn⟩
    · have hc := step_steps hs room id
      rw [hr'] at hc
      generalize ho : v.record? room id = o at hc
      cases hc with
      | same => exact .inl ⟨r', rfl, hle⟩
      | collected => exact .inr ⟨v, Reaches.tail hu ha hs, .refl, ho⟩
      | @moved _ r'' _ _ hmove =>
        refine .inl ⟨r'', rfl, ?_⟩
        rcases attemptNumber_move hmove with ⟨hid, hnum⟩ | hnum
        · rw [hid, hnum]
          exact hle
        · rcases hle with ⟨_, heq⟩ | hlt <;> exact .inr (by omega)
    · exact .inr ⟨t, hst, Reaches.tail htu ha hs, hn⟩

section Steps

variable {cfg : Config} {s s' : System} {a : Action}

def PumpEnded (cfg : Config) (start s : System) (key : RelayKey) : Prop :=
  ∃ u i now how r v, Reaches (step cfg) FreshDraw start u ∧ u.tasks.get? i = some (.pumpClosing key how) ∧
    u.record? key.room key.transfer = some r ∧ r.attemptId = some key.attempt ∧ r.permit.isSome = true ∧
    step cfg u (.resume i now .go) = some v ∧ Reaches (step cfg) FreshDraw v s

/-- If the ticket's attempt is current, its record is on the relay and holds its
permit, or held it until its pump ended. -/
def TicketBacked (cfg : Config) (start s : System) (t : RelayTicketRecord) : Prop :=
  ∀ room r, s.record? room t.transferId = some r → r.attemptId = some t.attemptId →
    r.state = .waitingRelay ∧ r.permit.isSome = true ∨
    r.state = .active ∧ (r.permit.isSome = true ∨ PumpEnded cfg start s ⟨room, t.transferId, t.attemptId⟩)

structure TicketsKept (cfg : Config) (start s : System) : Prop where
  unique : NamesUnique s
  apart : ∀ room id r attempt, s.record? room id = some r → r.attemptId = some attempt →
    r.upgrade.map UpgradeState.attemptId ≠ some attempt
  spent : PairsSpent s
  probes : ∀ hash t room r, s.inner.tickets.get? hash = some t → s.record? room t.transferId = some r →
    r.upgrade.map UpgradeState.attemptId ≠ some t.attemptId
  tickets : ∀ hash t, s.inner.tickets.get? hash = some t → TicketBacked cfg start s t

variable {start : System}

theorem step_probe (h : step cfg s a = some s') {room : RoomRef} {id : TransferId} {r' : TransferRecord}
    {attempt : AttemptId} (hr' : s'.record? room id = some r')
    (hu : r'.upgrade.map UpgradeState.attemptId = some attempt) :
    (∃ r, s.record? room id = some r ∧ r.upgrade.map UpgradeState.attemptId = some attempt ∧
      (r'.attemptId = r.attemptId ∨ Action.attemptDraw a = r'.attemptId)) ∨
    Action.attemptDraw a = some attempt ∧ ∃ r, s.record? room id = some r ∧ r'.attemptId = r.attemptId := by
  have hc := step_steps h room id
  rw [hr'] at hc
  generalize ho : s.record? room id = o at hc
  cases hc with
  | same => exact .inl ⟨r', rfl, hu, .inl rfl⟩
  | created _ hf =>
    rw [hf.upgrade] at hu
    cases hu
  | @moved r _ act hp hm =>
    have draws : ∀ d, Act.draw act = some d → Action.attemptDraw a = some d :=
      fun d hd => (given_of_performed hp hd).attemptDraw
    cases hm with
    | retry d | fallback d => exact .inl ⟨r, rfl, hu, .inr (draws d rfl)⟩
    | commitUpgrade | clearProbe => cases hu
    | startProbe d =>
      cases hu
      exact .inr ⟨draws d rfl, r, rfl, rfl⟩
    | probe _ _ _ hup => exact .inl ⟨r, rfl, by rw [hup]; exact hu, .inl rfl⟩
    | _ => exact .inl ⟨r, rfl, hu, .inl rfl⟩

theorem step_apart (h : step cfg s a = some s') (hfresh : FreshDraw s a) (hs : TicketsKept cfg start s)
    (room id r' attempt) (hr' : s'.record? room id = some r') (ha : r'.attemptId = some attempt) :
    r'.upgrade.map UpgradeState.attemptId ≠ some attempt := by
  intro hu
  rcases step_probe h hr' hu with ⟨r, hr, hu₀, he | hd⟩ | ⟨hd, r, hr, he⟩
  · exact hs.apart room id r attempt hr (he ▸ ha) hu₀
  · rw [ha] at hd
    exact hfresh attempt hd (.inl ⟨room, id, r, hr, .inr hu₀⟩)
  · exact hfresh attempt hd (.inl ⟨room, id, r, hr, .inl (he ▸ ha)⟩)

section

variable (hreach : Reaches (step cfg) FreshDraw start s) (h : step cfg s a = some s') (hfresh : FreshDraw s a)
  (hs : TicketsKept cfg start s)
include hreach h hfresh hs

theorem step_backed {hash : Digest} {t : RelayTicketRecord} (ht : s.inner.tickets.get? hash = some t)
    (ht' : s'.inner.tickets.get? hash = some t) : TicketBacked cfg start s' t := by
  intro room r' hr' ha
  have hmentioned : Mentioned s t.attemptId := .inr (.inl ⟨hash, t, ht, rfl⟩)
  have later : ∀ key, PumpEnded cfg start s key → PumpEnded cfg start s' key := by
    rintro key ⟨u, i, now, how, r, v, hu, hi, hr, hid, hp, hv, hvs⟩
    exact ⟨u, i, now, how, r, v, hu, hi, hr, hid, hp, hv, Reaches.tail hvs hfresh h⟩
  have hc := step_steps h room t.transferId
  have hr'' := hr'
  rw [hr'] at hc
  generalize ho : s.record? room t.transferId = o at hc
  cases hc with
  | same => exact (hs.tickets hash t ht room r' ho ha).imp_right fun ⟨hst, hp⟩ => ⟨hst, hp.imp_right (later _)⟩
  | created hdrawn hf =>
    rw [hf.attemptId] at ha
    cases ha
    exact absurd hmentioned (hfresh _ (given_of_drawn hdrawn).attemptDraw)
  | @moved r _ act hp hm =>
    have hd : Act.draw act ≠ some t.attemptId :=
      fun hd => hfresh _ (given_of_performed hp hd).attemptDraw hmentioned
    have hu := hs.probes hash t room r ht ho
    -- The end of the transfer would have taken the ticket with it.
    have hf : act ≠ .finish := by
      rintro rfl
      cases hm with
      | finish _ st hl hst =>
        have hlive : st.isLive = true := step_purges h ho hl hr'' ht' rfl
        rw [hst] at hlive
        cases hlive
    rcases onRelay_move hm ha hd hu hf (fun he => by subst he; exact not_waiting_of_release hs.spent ho hp)
      (hs.tickets hash t ht room r ho) with hw | ⟨hst, hper | hq | ⟨rfl, hid, hper⟩⟩
    · exact .inl hw
    · exact .inr ⟨hst, .inl hper⟩
    · exact .inr ⟨hst, .inr (later _ hq)⟩
    · obtain ⟨i, now, attempt, how, rfl, hi, hid'⟩ := hp
      rw [hid] at hid'
      cases hid'
      exact .inr ⟨hst, .inr ⟨s, i, now, how, r, s', hreach, hi, ho, hid, hper, h, .refl⟩⟩

theorem step_ticketsKept : TicketsKept cfg start s' := by
  have hunique := step_unique h hfresh hs.unique
  have hapart := step_apart h hfresh hs
  refine ⟨hunique, hapart, step_pairsSpent h hfresh hs.spent, fun hash t room r' ht' hr' hu => ?_, fun hash t ht' => ?_⟩
  · rcases step_tickets h ht' with ht | ⟨⟨room₀, r₀, hr₀, ha₀, _, _⟩, -⟩
    · rcases step_probe h hr' hu with ⟨r, hr, hu₀, _⟩ | ⟨hd, _⟩
      · exact hs.probes hash t room r ht hr hu₀
      · exact hfresh _ hd (.inr (.inl ⟨hash, t, ht, rfl⟩))
    · obtain ⟨rfl, _⟩ := hunique room₀ _ r₀ room _ r' _ hr₀ hr' (.inl ha₀) (.inr hu)
      cases hr₀.symm.trans hr'
      exact hapart _ _ _ _ hr' ha₀ hu
  · rcases step_tickets h ht' with ht | ⟨⟨room₀, r₀, hr₀, ha₀, hst, hp⟩, -⟩
    · exact step_backed hreach h hfresh hs ht ht'
    · intro room r' hr' ha
      obtain ⟨rfl, _⟩ := hunique room₀ _ r₀ room _ r' _ hr₀ hr' (.inl ha₀) (.inl ha)
      cases hr₀.symm.trans hr'
      exact .inl ⟨hst, hp⟩

end

end Steps

theorem reaches_ticketsKept (h : Reaches (step cfg) FreshDraw (initial cfg maxPeersGlobal relayOnly) s) :
    TicketsKept cfg (initial cfg maxPeersGlobal relayOnly) s := by
  induction h with
  | refl =>
    exact ⟨fun _ _ _ _ _ _ _ hr => (nomatch hr), fun _ _ _ _ hr => (nomatch hr), fun _ _ _ hi => (nomatch hi),
      fun _ _ _ _ ht => (nomatch ht), fun _ _ ht => (nomatch ht)⟩
  | tail hu hm ih =>
    obtain ⟨a, hfresh, hs⟩ := hm
    exact step_ticketsKept hu hs hfresh ih

/-- Attempts and permits of a room: the stored attempt of a live record is its
current one; numbers of attempts grow; permits are held on the relay only; and
the tickets of a current attempt are backed by a permit. -/
theorem attempts_and_permits (cfg : Config) (maxPeersGlobal : Nat) (relayOnly : RoomRef → Bool) :
    (∀ s room id r, Reaches (step cfg) always (initial cfg maxPeersGlobal relayOnly) s → s.record? room id = some r →
      (r.state.isLive = true → ∃ attempt, r.attempt = some attempt ∧ r.attemptId = some attempt.attemptId ∧
        attempt.attemptNumber = r.attemptNumber) ∧
      (r.permit.isSome = true → r.state = .waitingRelay ∨ r.state = .active)) ∧
    (∀ s s' room id r, Reaches (step cfg) always s s' → s.record? room id = some r →
      (∃ r', s'.record? room id = some r' ∧ (r'.attemptId = r.attemptId ∧ r'.attemptNumber = r.attemptNumber ∨
        r.attemptNumber < r'.attemptNumber)) ∨
      ∃ t, Reaches (step cfg) always s t ∧ Reaches (step cfg) always t s' ∧ t.record? room id = none) ∧
    ∀ s hash t, Reaches (step cfg) FreshDraw (initial cfg maxPeersGlobal relayOnly) s →
      s.inner.tickets.get? hash = some t → TicketBacked cfg (initial cfg maxPeersGlobal relayOnly) s t := by
  refine ⟨fun s room id r hs hr => ?_, fun s s' room id r hs hr => reaches_attemptNumber hs hr,
    fun s hash t hs ht => (reaches_ticketsKept hs).tickets hash t ht⟩
  have h : AttemptKept r :=
    reaches_records (fun _ _ => attemptKept_fresh) (fun _ _ _ => attemptKept_move) hs hr
  refine ⟨fun hl => ?_, h.permit⟩
  obtain ⟨attempt, ha⟩ := isSome_iff_exists.mp (h.stored hl)
  exact ⟨attempt, ha, h.current attempt ha⟩

/-- The direct attempt of the sample transfer falls back to the relay attempt
11, with the number 2 and the tickets 21 and 22. -/
theorem attempts_and_permits_fallback :
    ∃ s r t, Reaches (step sampleConfig) FreshDraw sampleStart s ∧ s.record? 0 100 = some r ∧
      (r.state, r.attemptId, r.attemptNumber) = (.waitingRelay, some 11, 2) ∧ s.inner.tickets.get? 21 = some t ∧
      (∃ attempt, r.attempt = some attempt ∧ r.attemptId = some attempt.attemptId ∧
        attempt.attemptNumber = r.attemptNumber) ∧
      TicketBacked sampleConfig sampleStart s t ∧ r.permit.isSome = true ∧
      ((∃ r', s.record? 0 100 = some r' ∧ (r'.attemptId = r.attemptId ∧ r'.attemptNumber = r.attemptNumber ∨
          r.attemptNumber < r'.attemptNumber)) ∨
        ∃ t, Reaches (step sampleConfig) always s t ∧ Reaches (step sampleConfig) always t s ∧
          t.record? 0 100 = none) := by
  obtain ⟨s, hs, ho⟩ : ∃ s, execWhile (step sampleConfig) (sustainedCheck sampleConfig) sampleStart
      (sampleRequest ++ sampleRelay.take 4) = some s ∧
      ((s.record? 0 100).map (fun r => (r.state, r.attemptId, r.attemptNumber)),
        (s.inner.tickets.get? 21).map (fun t => (t.transferId, t.attemptId))) =
        (some (.waitingRelay, some 11, 2), some (100, 11)) :=
    map_eq_some_iff.mp (by decide +kernel)
  have hreach : Reaches (step sampleConfig) FreshDraw sampleStart s :=
    (reaches_of_sustainedCheck _ hs).mono fun _ _ h => h.fresh
  obtain ⟨hrec, hget⟩ := Prod.mk.inj ho
  obtain ⟨r, hr, hst⟩ := map_eq_some_iff.mp hrec
  obtain ⟨t, ht, hbound⟩ := map_eq_some_iff.mp hget
  obtain ⟨kept, numbers, tickets⟩ := attempts_and_permits sampleConfig 100 (fun _ => false)
  have hal := hreach.mono fun _ _ _ => trivial
  have hstate : r.state = .waitingRelay := congrArg Prod.fst hst
  have hback := tickets s 21 t hreach ht
  have htid : t.transferId = 100 := congrArg Prod.fst hbound
  have hatt : r.attemptId = some t.attemptId := by
    have hr : r.attemptId = some 11 := congrArg (·.2.1) hst
    have ht : t.attemptId = 11 := congrArg Prod.snd hbound
    rw [hr, ht]
  have hpermit : r.permit.isSome = true := by
    rcases hback 0 r (htid ▸ hr) hatt with ⟨_, hp⟩ | ⟨ha, _⟩
    · exact hp
    · rw [hstate] at ha
      cases ha
  exact ⟨s, r, t, hreach, hr, hst, ht, (kept s 0 100 r hal hr).1 (by rw [hstate]; rfl), hback, hpermit,
    numbers s s 0 100 r .refl hr⟩

end Bore.RegistryAttempts
