import Bore.RegistrySlots
import Bore.RegistryTerminal

namespace Bore.RegistryCapacity

open List

open RegistryTypes RegistryOps RegistryRelay RegistryMoves RegistryEffects RegistryPermits RegistrySystem
  RegistrySections RegistrySteps RegistryTasks RegistrySlots RegistryTerminal Runs

variable {cfg : Config} {s : System}

def names (r : TransferRecord) (a : AttemptId) : Prop :=
  r.attemptId = some a ∨ r.upgrade.map UpgradeState.attemptId = some a

def past (r : TransferRecord) : Prop := r.state = .active ∨ r.state = .activeDirect ∨ r.state.isLive = false

def onRelay (r : TransferRecord) : Prop := r.state = .waitingRelay ∧ r.permit.isSome = true ∨ past r

def Act.draw : Act → Option AttemptId
  | .retry a | .fallback a | .startProbe a => some a
  | _ => none

section Moves

variable {act : Act} {r r' : TransferRecord} {a : AttemptId}

theorem Move.names_of (h : Move act r r') (hn : names r' a) : names r a ∨ Act.draw act = some a := by
  cases h with
  | retry | fallback =>
    rcases hn with hn | hn
    · exact .inr hn
    · exact .inl (.inr hn)
  | startProbe =>
    rcases hn with hn | hn
    · exact .inl (.inl hn)
    · exact .inr hn
  | commitUpgrade _ _ _ hu =>
    rcases hn with hn | hn
    · exact .inl (.inr (by rw [hu]; exact hn))
    · cases hn
  | probe _ _ _ hu =>
    rcases hn with hn | hn
    · exact .inl (.inl hn)
    · exact .inl (.inr (by rw [hu]; exact hn))
  | clearProbe =>
    rcases hn with hn | hn
    · exact .inl (.inl hn)
    · cases hn
  | _ => exact .inl hn

theorem Move.past (h : Move act r r') (ha : r'.attemptId = some a) (hd : Act.draw act ≠ some a)
    (hr : r.attemptId = some a → past r) : past r' := by
  cases h with
  | retry b | fallback b => exact absurd ha hd
  | commitUpgrade | commitDirect => exact .inr (.inl rfl)
  | finish _ _ _ hst => exact .inr (.inr hst)
  | activate => exact .inl rfl
  | sent h | negotiate _ h | relayOnly _ _ h | signal _ _ _ h =>
    have hp := hr ha
    simp [RegistryCapacity.past, h, TransferState.isLive] at hp
  | probe | startProbe | clearProbe | resume | carry | grant | release => exact hr ha

theorem Move.onRelay (h : Move act r r') (ha : r'.attemptId = some a) (hd : Act.draw act ≠ some a)
    (hrel : act = .release → r.state ≠ .waitingRelay) (hr : r.attemptId = some a → onRelay r) : onRelay r' := by
  have hpast : (r.attemptId = some a → RegistryCapacity.past r) → RegistryCapacity.onRelay r' :=
    fun hp => .inr (Move.past h ha hd hp)
  cases h with
  | retry b | fallback b => exact absurd ha hd
  | commitUpgrade | commitDirect => exact .inr (.inr (.inl rfl))
  | finish _ _ _ hst => exact .inr (.inr (.inr hst))
  | activate => exact .inr (.inl rfl)
  | sent h | negotiate _ h | relayOnly _ _ h | signal _ _ _ h =>
    have hp := hr ha
    simp [RegistryCapacity.onRelay, RegistryCapacity.past, h, TransferState.isLive] at hp
  | grant _ _ _ hatt hp =>
    rcases hr ha with ⟨_, hs⟩ | hp'
    · simp [TransferRecord.permit, hatt, hp] at hs
    · exact hpast (fun _ => hp')
  | release =>
    rcases hr ha with ⟨hw, _⟩ | hp'
    · exact absurd hw (hrel rfl)
    · exact hpast (fun _ => hp')
  | probe | startProbe | clearProbe | resume | carry => exact hr ha

theorem Move.carrying (h : Move act r r') (hr : r.state = .active) (hr' : r'.state = .active) (ha : act ≠ .release) :
    r'.attemptId = r.attemptId ∧ r'.permit = r.permit := by
  cases h with
  | release => exact absurd rfl ha
  | retry | negotiate | relayOnly | signal | commitDirect | commitUpgrade | fallback | sent => cases hr'
  | finish _ st _ hst =>
    have hst' : st = .active := hr'
    rw [hst'] at hst
    cases hst
  | grant _ _ h | activate h =>
    rw [hr] at h
    cases h
  | _ => exact ⟨rfl, rfl⟩

end Moves

def taskLeg : Task → Option (TransferId × AttemptId)
  | .legAttached _ attach | .legEntering _ attach _ | .legParked _ attach _ | .legHandoff _ attach _ =>
    some (attach.transferId, attach.attemptId)
  | .legPaired key _ _ => some (key.transfer, key.attempt)
  | _ => none

def taskPair : Task → Option RelayKey
  | .pumpStart key _ _ _ | .pump key _ | .pumpClosing key _ => some key
  | _ => none

def taskRunning : Task → Option RelayKey
  | .pumpStart key _ _ _ | .pump key _ => some key
  | _ => none

def taskForwarding : Task → Option RelayKey
  | .pump key _ => some key
  | _ => none

def forwarding (s : System) : List RelayKey := s.tasks.collect taskForwarding

theorem taskPair_of_running {task : Task} {key : RelayKey} (h : taskRunning task = some key) :
    taskPair task = some key := by
  cases task <;> first | exact h | cases h

theorem taskRunning_of_forwarding {task : Task} {key : RelayKey} (h : taskForwarding task = some key) :
    taskRunning task = some key := by
  cases task <;> first | exact h | cases h

/-- An attempt identifier that a record, a ticket, a leg or a pair carries. -/
def Mentioned (s : System) (a : AttemptId) : Prop :=
  (∃ room id r, s.record? room id = some r ∧ names r a) ∨
  (∃ hash t, s.inner.tickets.get? hash = some t ∧ t.attemptId = a) ∨
  (∃ i task id, s.tasks.get? i = some task ∧ taskLeg task = some (id, a)) ∨
  ∃ i task key, s.tasks.get? i = some task ∧ taskPair task = some key ∧ key.attempt = a

def Action.attemptDraw : Action → Option AttemptId
  | .call _ _ (.request _ _ draw) | .call _ _ (.deadline _ _ draw _) | .call _ _ (.upgradeElapsed _ draw)
  | .resume _ _ (.fallback draw _) => some draw
  | _ => none

def FreshDraw (s : System) (a : Action) : Prop := ∀ draw, Action.attemptDraw a = some draw → ¬ Mentioned s draw

/-- No step takes a transfer off the relay while its pair runs, and drawn attempt
identifiers are new. -/
structure Sustained (cfg : Config) (s : System) (a : Action) : Prop where
  active : ∀ i task key s', s.tasks.get? i = some task → taskRunning task = some key → step cfg s a = some s' →
    ∃ r, s'.record? key.room key.transfer = some r ∧ r.state = .active
  fresh : ∀ draw, Action.attemptDraw a = some draw → ¬ Mentioned s draw

def Admitted (s : System) (id : TransferId) (a : AttemptId) : Prop :=
  ∀ room r, s.record? room id = some r → r.attemptId = some a → onRelay r

def Spent (s : System) (key : RelayKey) : Prop :=
  ∀ r, s.record? key.room key.transfer = some r → r.attemptId = some key.attempt → past r

def NamesUnique (s : System) : Prop :=
  ∀ room id r room' id' r' a, s.record? room id = some r → s.record? room' id' = some r' → names r a →
    names r' a → room = room' ∧ id = id'

def PairsSpent (s : System) : Prop :=
  ∀ i task key, s.tasks.get? i = some task → taskPair task = some key → Spent s key

structure RelayInv (s : System) : Prop where
  unique : NamesUnique s
  tickets : ∀ hash t, s.inner.tickets.get? hash = some t → Admitted s t.transferId t.attemptId
  legs : ∀ i task id a, s.tasks.get? i = some task → taskLeg task = some (id, a) → Admitted s id a
  spent : PairsSpent s
  running : ∀ i task key, s.tasks.get? i = some task → taskRunning task = some key →
    ∃ r, s.record? key.room key.transfer = some r ∧ r.state = .active ∧ r.attemptId = some key.attempt ∧
      r.permit.isSome = true
  distinct : ∀ i j task task' key, i ≠ j → s.tasks.get? i = some task → s.tasks.get? j = some task' →
    taskRunning task = some key → taskPair task' ≠ some key

section Draws

variable {a : Action} {room room' : RoomRef} {id id' : TransferId} {d : AttemptId}

def Given (cfg : Config) (s : System) (a : Action) (room : RoomRef) (id : TransferId) (d : AttemptId) : Prop :=
  (∃ now req draws, a = .call room now (.request req draws d) ∧
    (retries cfg (s.rooms room) req id ∨ creates cfg (s.rooms room) req draws id)) ∨
  (∃ now, a = .call room now (.upgradeElapsed id d)) ∨
  (∃ now attempt pair, a = .call room now (.deadline id attempt d pair)) ∨
  ∃ i now pair attempt isRecipient counterpart reason ranges, a = .resume i now (.fallback d pair) ∧
    s.tasks.get? i = some (.failedFallback ⟨room, id, attempt⟩ isRecipient counterpart reason ranges)

theorem Given.attemptDraw (h : Given cfg s a room id d) : Action.attemptDraw a = some d := by
  rcases h with ⟨_, _, _, rfl, _⟩ | ⟨_, rfl⟩ | ⟨_, _, _, rfl⟩ | ⟨_, _, _, _, _, _, _, _, rfl, _⟩ <;> rfl

theorem given_of_performed {r : TransferRecord} {act : Act} (h : Performed cfg s a room id r act)
    (hd : Act.draw act = some d) : Given cfg s a room id d := by
  cases act with
  | retry =>
    cases hd
    obtain ⟨now, req, draws, rfl, hr⟩ := h
    exact .inl ⟨now, req, draws, rfl, .inl hr⟩
  | startProbe =>
    cases hd
    obtain ⟨now, rfl⟩ := h
    exact .inr (.inl ⟨now, rfl⟩)
  | fallback =>
    cases hd
    rcases h with ⟨now, attempt, pair, rfl, _⟩ | ⟨i, now, attempt, isR, c, reason, ranges, pair, rfl, hi, _⟩
    · exact .inr (.inr (.inl ⟨now, attempt, pair, rfl⟩))
    · exact .inr (.inr (.inr ⟨i, now, pair, attempt, isR, c, reason, ranges, rfl, hi⟩))
  | _ => cases hd

theorem given_of_drawn (h : Drawn cfg s a room id d) : Given cfg s a room id d := by
  obtain ⟨now, req, draws, rfl, hc⟩ := h
  exact .inl ⟨now, req, draws, rfl, .inr hc⟩

theorem request_place {room : Room} {req : TransferRequest} {draws : List TransferId}
    (h : retries cfg room req id ∨ creates cfg room req draws id)
    (h' : retries cfg room req id' ∨ creates cfg room req draws id') : id = id' := by
  rcases h with ⟨sel, r, hs, hf, _⟩ | ⟨sel, hs, hf, hd⟩ <;>
    rcases h' with ⟨sel', r', hs', hf', _⟩ | ⟨sel', hs', hf', hd'⟩ <;>
    rw [hs] at hs' <;> cases hs' <;> rw [hf] at hf' <;> cases hf'
  · rfl
  · rw [hd] at hd'
    cases hd'
    rfl

theorem Given.unique (h : Given cfg s a room id d) (h' : Given cfg s a room' id' d) : room = room' ∧ id = id' := by
  rcases h with ⟨_, _, _, rfl, hp⟩ | ⟨_, rfl⟩ | ⟨_, _, _, rfl⟩ | ⟨_, _, _, _, _, _, _, _, rfl, hi⟩ <;>
    rcases h' with ⟨_, _, _, he, hp'⟩ | ⟨_, he⟩ | ⟨_, _, _, he⟩ | ⟨_, _, _, _, _, _, _, _, he, hi'⟩ <;> cases he
  · exact ⟨rfl, request_place hp hp'⟩
  · exact ⟨rfl, rfl⟩
  · exact ⟨rfl, rfl⟩
  · rw [hi] at hi'
    cases hi'
    exact ⟨rfl, rfl⟩

end Draws

section Step

variable {s' : System} {a : Action} {room : RoomRef} {id : TransferId} {d : AttemptId}
variable {key : RelayKey} {i : Nat} {task' : Task}

theorem step_names (h : step cfg s a = some s') {r' : TransferRecord} (hr' : s'.record? room id = some r')
    (hn : names r' d) : (∃ r, s.record? room id = some r ∧ names r d) ∨ Given cfg s a room id d := by
  have hc := step_steps h room id
  rw [hr'] at hc
  generalize ho : s.record? room id = o at hc
  cases hc with
  | same => exact .inl ⟨r', rfl, hn⟩
  | @created b _ hdraw hf =>
    refine .inr (given_of_drawn ?_)
    rcases hn with hn | hn
    · rw [hf.attemptId] at hn
      cases hn
      exact hdraw
    · rw [hf.upgrade] at hn
      cases hn
  | @moved r _ _ hp hm =>
    rcases Move.names_of hm hn with hn | hd
    · exact .inl ⟨r, rfl, hn⟩
    · exact .inr (given_of_performed hp hd)

theorem step_unique (h : step cfg s a = some s') (hfresh : FreshDraw s a) (hs : NamesUnique s) : NamesUnique s' := by
  intro room id r room' id' r' d hr hr' hn hn'
  rcases step_names h hr hn with ⟨r₀, hr₀, hn₀⟩ | hg <;> rcases step_names h hr' hn' with ⟨r₁, hr₁, hn₁⟩ | hg'
  · exact hs _ _ _ _ _ _ d hr₀ hr₁ hn₀ hn₁
  · exact absurd (.inl ⟨room, id, r₀, hr₀, hn₀⟩) (hfresh d hg'.attemptDraw)
  · exact absurd (.inl ⟨room', id', r₁, hr₁, hn₁⟩) (hfresh d hg.attemptDraw)
  · exact hg.unique hg'

theorem not_waiting_of_release (hs : PairsSpent s) {r : TransferRecord} (hr : s.record? room id = some r)
    (hp : Performed cfg s a room id r .release) : r.state ≠ .waitingRelay := by
  obtain ⟨i, now, attempt, ended, -, hi, ha⟩ := hp
  have hpast := hs i _ ⟨room, id, attempt⟩ hi rfl r hr ha
  intro hw
  simp [past, hw, TransferState.isLive] at hpast

section

variable (h : step cfg s a = some s')
include h

theorem step_admitted (hfresh : FreshDraw s a) (hs : PairsSpent s)
    (hm : Mentioned s d) (ha : Admitted s id d) : Admitted s' id d := by
  intro room r' hr' hid
  have hc := step_steps h room id
  rw [hr'] at hc
  generalize ho : s.record? room id = o at hc
  cases hc with
  | same => exact ha room r' ho hid
  | created hdraw hf =>
    rw [hf.attemptId] at hid
    cases hid
    exact absurd hm (hfresh _ (given_of_drawn hdraw).attemptDraw)
  | @moved r _ _ hp hmv =>
    refine Move.onRelay hmv hid ?_ ?_ (ha room r ho)
    · intro hd
      exact hfresh d (given_of_performed hp hd).attemptDraw hm
    · rintro rfl
      exact not_waiting_of_release hs ho hp

theorem step_spent_of_ne
    (hd : ∀ draw, Action.attemptDraw a = some draw → key.attempt ≠ draw) (ha : Spent s key) : Spent s' key := by
  intro r' hr' hid
  have hc := step_steps h key.room key.transfer
  rw [hr'] at hc
  generalize ho : s.record? key.room key.transfer = o at hc
  cases hc with
  | same => exact ha r' ho hid
  | created hdraw hf =>
    rw [hf.attemptId] at hid
    cases hid
    exact absurd rfl (hd _ (given_of_drawn hdraw).attemptDraw)
  | @moved r _ _ hp hmv =>
    refine Move.past hmv hid ?_ (ha r ho)
    intro hdraw
    exact hd _ (given_of_performed hp hdraw).attemptDraw rfl

theorem step_spent (hfresh : FreshDraw s a) (hm : Mentioned s key.attempt) (ha : Spent s key) : Spent s' key := by
  refine step_spent_of_ne h (fun draw hdraw he => ?_) ha
  rw [he] at hm
  exact hfresh draw hdraw hm

theorem leg_origin (hi : s'.tasks.get? i = some task') (hl : taskLeg task' = some (id, d)) :
    (∃ task, s.tasks.get? i = some task ∧ taskLeg task = some (id, d)) ∨
      ∃ hash t, s.inner.tickets.get? hash = some t ∧ t.transferId = id ∧ t.attemptId = d := by
  rcases step_tasks h i task' hi with hi | hc
  · exact .inl ⟨task', hi, hl⟩
  cases task' with
  | legAttached =>
    cases hl
    obtain ⟨now, -, -, hjoin⟩ := hc
    obtain ⟨t, ht, hid, ha⟩ := joinConsume_true hjoin
    exact .inr ⟨_, t, ht, hid, ha⟩
  | legEntering => exact .inl ⟨_, hc.1, hl⟩
  | legParked => exact .inl ⟨_, hc, hl⟩
  | legHandoff =>
    obtain ⟨cancel, waiter, hc, -⟩ := hc
    exact .inl ⟨_, hc, hl⟩
  | legPaired =>
    obtain ⟨room, first, cancel, _, _, _, _, -, hc, -, rfl, -⟩ := hc
    exact .inl ⟨_, hc, hl⟩
  | _ => cases hl

def NewPair (s : System) (a : Action) (i : Nat) (key : RelayKey) : Prop :=
  (∃ source recipient, s.tasks.get? i = some (.legPaired key source recipient)) ∧ (∃ now, a = .resume i now .go) ∧
    ∃ r, s.record? key.room key.transfer = some r ∧ r.state = .waitingRelay ∧ r.attemptId = some key.attempt

theorem pair_origin (hi : s'.tasks.get? i = some task') (hk : taskPair task' = some key) :
    (∃ task, s.tasks.get? i = some task ∧ taskPair task = some key ∧
      (taskRunning task' = some key → taskRunning task = some key)) ∨ NewPair s a i key := by
  rcases step_tasks h i task' hi with hi | hc
  · exact .inl ⟨task', hi, hk, fun h => h⟩
  cases task' with
  | pumpStart _ source recipient =>
    cases hk
    obtain ⟨hi, hgo, hr⟩ := hc
    exact .inr ⟨⟨source, recipient, hi⟩, hgo, hr⟩
  | pump =>
    obtain ⟨source, recipient, hc⟩ := hc
    exact .inl ⟨_, hc, hk, fun h => h⟩
  | pumpClosing =>
    obtain ⟨cancel, hc⟩ := hc
    exact .inl ⟨_, hc, hk, fun h => by cases h⟩
  | _ => cases hk

theorem newPair_record (hn : NewPair s a i key) :
    ∃ r, s.record? key.room key.transfer = some r ∧ r.state = .waitingRelay ∧ r.attemptId = some key.attempt ∧
      s'.record? key.room key.transfer = some { r with state := .active } := by
  obtain ⟨⟨source, recipient, hi⟩, ⟨now, rfl⟩, r, hr, hst, ha⟩ := hn
  have hr' : (s.scope key.room).record? key.transfer = some r := hr
  refine ⟨r, hr, hst, ha, ?_⟩
  simp only [step, hi, Option.bind_some, resumeStep, relayStep, activateRelay, hr', hst, ha, decide_true,
    Bool.and_self, if_true, Option.some.injEq] at h
  subst h
  simp only [System.record?, System.suspend, System.put, Function.update_self]
  change ((s.scope key.room).updateRecord key.transfer _).record? key.transfer = _
  simp [hr']

theorem step_running (hok : Sustained cfg s a) (hs : RelayInv s) {task : Task}
    (hi : s.tasks.get? i = some task) (hk : taskRunning task = some key) :
    ∃ r, s'.record? key.room key.transfer = some r ∧ r.state = .active ∧ r.attemptId = some key.attempt ∧
      r.permit.isSome = true := by
  obtain ⟨r, hr, hst, ha, hp⟩ := hs.running i task key hi hk
  obtain ⟨r', hr', hst'⟩ := hok.active i task key s' hi hk h
  refine ⟨r', hr', hst', ?_⟩
  have hc := step_steps h key.room key.transfer
  rw [hr, hr'] at hc
  cases hc with
  | same => exact ⟨ha, hp⟩
  | @moved _ _ act hperf hm =>
    have hrel : act ≠ .release := by
      rintro rfl
      obtain ⟨j, now, attempt, ended, -, hj, ha'⟩ := hperf
      have hkey : key = ⟨key.room, key.transfer, attempt⟩ := by
        rw [ha] at ha'
        cases ha'
        rfl
      have hij : i ≠ j := by
        rintro rfl
        rw [hi] at hj
        cases hj
        cases hk
      exact hs.distinct i j task _ key hij hi hj hk (congrArg some hkey.symm)
    obtain ⟨hid, hperm⟩ := Move.carrying hm hst hst' hrel
    rw [hid, hperm]
    exact ⟨ha, hp⟩

theorem step_distinct (hs : RelayInv s) {j : Nat} {task : Task} (hij : i ≠ j)
    (hi : s'.tasks.get? i = some task) (hj : s'.tasks.get? j = some task')
    (hk : taskRunning task = some key) : taskPair task' ≠ some key := by
  intro hk'
  rcases pair_origin h hi (taskPair_of_running hk) with ⟨t, ht, htk, hrun⟩ | ⟨-, ⟨now, ha⟩, r, hr, hst, hid⟩ <;>
    rcases pair_origin h hj hk' with ⟨t', ht', htk', -⟩ | ⟨-, ⟨now', ha'⟩, r', hr', hst', hid'⟩
  · exact hs.distinct i j t t' key hij ht ht' (hrun hk) htk'
  · obtain ⟨r, hr, hact, -⟩ := hs.running i t key ht (hrun hk)
    rw [hr] at hr'
    cases hr'
    rw [hact] at hst'
    cases hst'
  · have hpast := hs.spent j t' key ht' htk' r hr hid
    simp [past, hst, TransferState.isLive] at hpast
  · rw [ha] at ha'
    cases ha'
    exact hij rfl

theorem step_pairsSpent (hfresh : FreshDraw s a) (hs : PairsSpent s) : PairsSpent s' := by
  intro i task key hi hk
  rcases pair_origin h hi hk with ⟨task₀, hi₀, hk₀, -⟩ | hnew
  · exact step_spent h hfresh (.inr (.inr (.inr ⟨i, task₀, key, hi₀, hk₀, rfl⟩))) (hs i task₀ key hi₀ hk₀)
  obtain ⟨r, -, -, -, hr'⟩ := newPair_record h hnew
  intro r' hr'' _
  rw [hr'] at hr''
  cases hr''
  exact .inl rfl

theorem step_relayInv (hok : Sustained cfg s a) (hs : RelayInv s) : RelayInv s' := by
  have hunique := step_unique h hok.fresh hs.unique
  refine ⟨hunique, ?_, ?_, step_pairsSpent h hok.fresh hs.spent, ?_, ?_⟩
  · intro hash t ht
    rcases step_tickets h ht with ht | ⟨⟨room, r, hr, ha, hst, hp⟩, -⟩
    · exact step_admitted h hok.fresh hs.spent (.inr (.inl ⟨hash, t, ht, rfl⟩)) (hs.tickets hash t ht)
    intro room' r' hr' ha'
    obtain ⟨rfl, -⟩ := hunique room _ r room' _ r' _ hr hr' (.inl ha) (.inl ha')
    cases hr.symm.trans hr'
    exact .inl ⟨hst, hp⟩
  · intro i task id d hi hl
    rcases leg_origin h hi hl with ⟨task₀, hi₀, hl₀⟩ | ⟨hash, t, ht, rfl, rfl⟩
    · exact step_admitted h hok.fresh hs.spent (.inr (.inr (.inl ⟨i, task₀, id, hi₀, hl₀⟩))) (hs.legs i task₀ id d hi₀ hl₀)
    · exact step_admitted h hok.fresh hs.spent (.inr (.inl ⟨hash, t, ht, rfl⟩)) (hs.tickets hash t ht)
  · intro i task key hi hk
    rcases pair_origin h hi (taskPair_of_running hk) with ⟨task₀, hi₀, -, hrun⟩ | hnew
    · exact step_running h hok hs hi₀ (hrun hk)
    obtain ⟨r, hr, hst, ha, hr'⟩ := newPair_record h hnew
    obtain ⟨⟨source, recipient, hleg⟩, -⟩ := hnew
    refine ⟨_, hr', rfl, ha, ?_⟩
    rcases hs.legs i _ key.transfer key.attempt hleg rfl key.room r hr ha with ⟨-, hp⟩ | hpast
    · exact hp
    · simp [past, hst, TransferState.isLive] at hpast
  · intro i j task task' key hij hi hj hk
    exact step_distinct h hs hij hi hj hk

end

end Step

theorem initial_relayInv (cfg : Config) (maxPeersGlobal : Nat) (relayOnly : RoomRef → Bool) :
    RelayInv (initial cfg maxPeersGlobal relayOnly) where
  unique := fun _ _ _ _ _ _ _ hr => by cases hr
  tickets := fun _ _ ht => by cases ht
  legs := fun _ _ _ _ hi => by cases hi
  spent := fun _ _ _ hi => by cases hi
  running := fun _ _ _ hi => by cases hi
  distinct := fun _ _ _ _ _ _ hi => by cases hi

section Count

variable {budget : Nat}

theorem held_injective {room : Room} (h : (held room).Nodup) {id id' : TransferId} {r r' : TransferRecord} {p : Permit}
    (hr : room.transfers.get? id = some r) (hr' : room.transfers.get? id' = some r') (hp : r.permit = some p)
    (hp' : r'.permit = some p) : id = id' := by
  by_contra hne
  have hperm : (held room).Perm (r.permit.toList ++ (room.transfers.erase id).collect TransferRecord.permit) :=
    Table.perm_collect_erase _ hr
  have hmem : p ∈ (room.transfers.erase id).collect TransferRecord.permit := by
    refine (Table.mem_collect _).mpr ⟨id', r', ?_, hp'⟩
    rw [Table.get?_erase, if_neg (Ne.symm hne), hr']
  rw [hperm.nodup_iff, hp, Option.toList_some, singleton_append, nodup_cons] at h
  exact h.1 hmem

def slotOf (s : System) (key : RelayKey) : Option Permit :=
  (s.record? key.room key.transfer).bind TransferRecord.permit

theorem running_slot (hs : RelayInv s) {i : Nat} {task : Task} {key : RelayKey} (hi : s.tasks.get? i = some task)
    (hk : taskRunning task = some key) : ∃ r p, s.record? key.room key.transfer = some r ∧
      r.attemptId = some key.attempt ∧ r.permit = some p ∧ slotOf s key = some p := by
  obtain ⟨r, hr, -, ha, hp⟩ := hs.running i task key hi hk
  obtain ⟨p, hp⟩ := Option.isSome_iff_exists.mp hp
  exact ⟨r, p, hr, ha, hp, by simp [slotOf, hr, hp]⟩

theorem slotOf_injective (hs : RelayInv s) (ho : SlotsOwned budget s) {i j : Nat} {task task' : Task}
    {key key' : RelayKey} (hij : i ≠ j) (hi : s.tasks.get? i = some task) (hj : s.tasks.get? j = some task')
    (hk : taskRunning task = some key) (hk' : taskRunning task' = some key') : slotOf s key ≠ slotOf s key' := by
  obtain ⟨r, p, hr, ha, hp, hslot⟩ := running_slot hs hi hk
  obtain ⟨r', p', hr', ha', hp', hslot'⟩ := running_slot hs hj hk'
  intro he
  rw [hslot, hslot'] at he
  cases he
  have hmem : p ∈ held (s.rooms key.room) := (Table.mem_collect _).mpr ⟨_, r, hr, hp⟩
  have hmem' : p ∈ held (s.rooms key'.room) := (Table.mem_collect _).mpr ⟨_, r', hr', hp'⟩
  by_cases hroom : key.room = key'.room
  · have hnodup : (held (s.rooms key.room)).Nodup := by
      have hn := ho.nodup key.room
      rw [slots, append_assoc, nodup_append', nodup_append'] at hn
      exact hn.2.1.1
    have hr'' : (s.rooms key.room).transfers.get? key'.transfer = some r' := by
      rw [hroom]
      exact hr'
    have hid : key.transfer = key'.transfer := held_injective hnodup hr hr'' hp hp'
    rw [← hid] at hr''
    cases hr.symm.trans hr''
    have hkey : key' = key := by
      rw [ha] at ha'
      cases key
      cases key'
      cases ha'
      simp_all
    exact hs.distinct i j task task' key hij hi hj hk (hkey ▸ taskPair_of_running hk')
  · exact ho.disjoint _ _ hroom hmem hmem'

theorem forwarding_length_le (hs : RelayInv s) (ho : SlotsOwned budget s) : (forwarding s).length ≤ budget := by
  have hmem : ∀ e ∈ s.tasks.entries, s.tasks.get? e.1 = some e.2 :=
    fun e he => (Table.get?_eq_some_iff _ _ _).mpr he
  have hnodup : ((forwarding s).map (slotOf s)).Nodup := by
    have hkeys := pairwise_map.mp s.tasks.nodup
    rw [List.Nodup, pairwise_map, forwarding, Table.collect, pairwise_filterMap]
    refine hkeys.imp_of_mem (fun {e e'} he he' hne key hk key' hk' => ?_)
    exact slotOf_injective hs ho hne (hmem e he) (hmem e' he') (taskRunning_of_forwarding hk)
      (taskRunning_of_forwarding hk')
  have hsub : (forwarding s).map (slotOf s) ⊆ (range budget).map some := by
    intro o hmap
    obtain ⟨key, hkey, rfl⟩ := mem_map.mp hmap
    obtain ⟨i, task, hi, hk⟩ := (Table.mem_collect _).mp hkey
    obtain ⟨r, p, hr, -, hp, hslot⟩ := running_slot hs hi (taskRunning_of_forwarding hk)
    have hheld : p ∈ held (s.rooms key.room) := (Table.mem_collect _).mpr ⟨_, r, hr, hp⟩
    rw [hslot]
    exact mem_map_of_mem (mem_range.mpr (ho.bounded key.room p (mem_slots.mpr (.inr (.inl hheld)))))
  have hlen := (subperm_of_subset hnodup hsub).length_le
  simpa using hlen

end Count

/-- In a run that never takes a transfer off the relay while its pair runs, the
pairs in the forwarding loop fit the budget, and each of them forwards for the
current attempt of a record that holds a slot. -/
theorem relay_pairs_within_budget (cfg : Config) (maxPeersGlobal : Nat) (relayOnly : RoomRef → Bool) (s : System)
    (h : Reaches (step cfg) (Sustained cfg) (initial cfg maxPeersGlobal relayOnly) s) :
    (forwarding s).length ≤ cfg.limits.maxRelaysGlobal ∧
    ∀ key ∈ forwarding s, ∃ r, s.record? key.room key.transfer = some r ∧ r.attemptId = some key.attempt ∧
      r.permit.isSome = true := by
  have hinv : RelayInv s :=
    h.invariant (initial_relayInv cfg maxPeersGlobal relayOnly) (fun _ _ _ ht hok hs => step_relayInv hs hok ht)
  have hslots : SlotsOwned cfg.limits.maxRelaysGlobal s :=
    h.invariant (initial_slotsOwned cfg maxPeersGlobal relayOnly) fun _ _ _ ht _ hs => ht.step (step_slots hs)
  refine ⟨forwarding_length_le hinv hslots, fun key hkey => ?_⟩
  obtain ⟨i, task, hi, hk⟩ := (Table.mem_collect _).mp hkey
  obtain ⟨r, hr, -, ha, hp⟩ := hinv.running i task key hi (taskRunning_of_forwarding hk)
  exact ⟨r, hr, ha, hp⟩

def sampleSecondRelay : List Action :=
  [.call 0 0 (.join 3 none), .call 0 0 (.request ⟨3, 1, ["0"], 5, "raw", none⟩ [200] 20), .resume 4 0 (.accepted true),
    .call 0 0 (.sourceReady 1 200 20 5 (samplePair 3)), .call 0 0 (.directFailed 3 200 20 "timeout" []),
    .resume 5 0 .go, .resume 5 0 (.fallback 21 (samplePair 31)), .call 0 0 (.attach ⟨1, 200, 21, .source, 31⟩),
    .call 0 0 (.attach ⟨3, 200, 21, .recipient, 32⟩), .resume 6 0 .go, .resume 6 0 .go, .resume 7 0 .go,
    .resume 7 0 .go, .resume 7 0 .go, .resume 6 0 .go, .resume 6 0 .go]

/-- The upgrade of transfer 100 frees the only slot while its pump still
forwards; transfer 200 takes the slot and forwards as well. -/
theorem relay_pairs_exceed_budget : ∃ s, Reaches (step sampleConfig) always sampleStart s ∧
      (sampleConfig.limits.maxRelaysGlobal, forwarding s) = (1, [⟨0, 100, 11⟩, ⟨0, 200, 21⟩]) :=
  exec_observe (sampleRequest ++ sampleRelay ++ sampleProbe ++ [.call 0 0 (.directReady 1 100 12 []),
    .call 0 0 (.directReady 2 100 12 [])] ++ sampleSecondRelay)
    _ (by decide +kernel)

def mentionedCheck (s : System) (d : AttemptId) : Bool :=
  (s.rooms 0).transfers.values.any (fun r =>
    decide (r.attemptId = some d) || decide (r.upgrade.map UpgradeState.attemptId = some d)) ||
  s.inner.tickets.values.any (fun t => decide (t.attemptId = d)) ||
  s.tasks.values.any (fun task => (taskLeg task).any (fun leg => decide (leg.2 = d)) ||
    (taskPair task).any (fun key => decide (key.attempt = d)))

def roomZero : Action → Bool
  | .call room _ _ => decide (room = 0)
  | .resume _ _ _ => true

def sustainedCheck (cfg : Config) (s : System) (a : Action) : Bool :=
  roomZero a && (Action.attemptDraw a).all (fun d => !mentionedCheck s d) &&
    s.tasks.values.all (fun task => (taskRunning task).all (fun key => (step cfg s a).all (fun s' =>
      (s'.record? key.room key.transfer).any (fun r => decide (r.state = .active)))))

def OnlyRoomZero (s : System) : Prop := ∀ room id, room ≠ 0 → s.record? room id = none

theorem step_onlyRoomZero {s' : System} {a : Action} (hs : OnlyRoomZero s) (ha : roomZero a = true)
    (h : step cfg s a = some s') : OnlyRoomZero s' := by
  intro room id hne
  have hc := step_steps h room id
  rw [hs room id hne] at hc
  generalize s'.record? room id = o at hc
  cases hc with
  | same => rfl
  | created hd =>
    obtain ⟨now, req, draws, rfl, -⟩ := hd
    exact absurd (of_decide_eq_true ha) hne

theorem mentionedCheck_of (hs : OnlyRoomZero s) {d : AttemptId} (h : Mentioned s d) : mentionedCheck s d = true := by
  unfold mentionedCheck
  simp only [Bool.or_eq_true]
  rcases h with ⟨room, id, r, hr, hn⟩ | ⟨hash, t, ht, rfl⟩ | ⟨i, task, id, hi, hl⟩ | ⟨i, task, key, hi, hk, rfl⟩
  · have hroom : room = 0 := by
      by_contra hne
      rw [hs room id hne] at hr
      cases hr
    subst hroom
    refine .inl (.inl (any_eq_true.mpr ⟨r, (Table.mem_values_iff _ _).mpr ⟨id, hr⟩, ?_⟩))
    simpa [names] using hn
  · exact .inl (.inr (any_eq_true.mpr ⟨t, (Table.mem_values_iff _ _).mpr ⟨hash, ht⟩, by simp⟩))
  · exact .inr (any_eq_true.mpr ⟨task, (Table.mem_values_iff _ _).mpr ⟨i, hi⟩, by simp [hl]⟩)
  · exact .inr (any_eq_true.mpr ⟨task, (Table.mem_values_iff _ _).mpr ⟨i, hi⟩, by simp [hk]⟩)

theorem sustained_of_check {a : Action} (hs : OnlyRoomZero s)
    (h : sustainedCheck cfg s a = true) : Sustained cfg s a := by
  simp only [sustainedCheck, Bool.and_eq_true] at h
  obtain ⟨⟨-, hfresh⟩, hactive⟩ := h
  constructor
  · intro i task key s' hi hk hstep
    have ht := all_eq_true.mp hactive task ((Table.mem_values_iff _ _).mpr ⟨i, hi⟩)
    simp only [hk, hstep, Option.all_some] at ht
    cases hr : s'.record? key.room key.transfer with
    | none => simp [hr] at ht
    | some r => exact ⟨r, rfl, by simpa [hr] using ht⟩
  · intro d hd hm
    simp [hd, mentionedCheck_of hs hm] at hfresh

theorem reaches_of_sustainedCheck {maxPeersGlobal : Nat} {relayOnly : RoomRef → Bool} (as : List Action)
    (h : execWhile (step cfg) (sustainedCheck cfg) (initial cfg maxPeersGlobal relayOnly) as = some s) :
    Reaches (step cfg) (Sustained cfg) (initial cfg maxPeersGlobal relayOnly) s := by
  refine execWhile_reaches_of (P := OnlyRoomZero) (fun _ _ _ => rfl) ?_ (fun _ _ => sustained_of_check) as h
  intro t a u ht hc hu
  simp only [sustainedCheck, Bool.and_eq_true] at hc
  exact step_onlyRoomZero ht hc.1.1 hu

theorem exists_forwarding :
    ∃ s, Reaches (step sampleConfig) (Sustained sampleConfig) sampleStart s ∧ forwarding s = [⟨0, 100, 11⟩] := by
  obtain ⟨s, hs, hf⟩ : ∃ s, execWhile (step sampleConfig) (sustainedCheck sampleConfig) sampleStart
      (sampleRequest ++ sampleRelay) = some s ∧ forwarding s = [⟨0, 100, 11⟩] :=
    Option.map_eq_some_iff.mp (by decide +kernel)
  exact ⟨s, reaches_of_sustainedCheck _ hs, hf⟩

theorem relay_pairs_within_budget_one :
    ∃ s, Reaches (step sampleConfig) (Sustained sampleConfig) sampleStart s ∧ forwarding s = [⟨0, 100, 11⟩] ∧
      (forwarding s).length ≤ 1 := by
  obtain ⟨s, hr, hf⟩ := exists_forwarding
  exact ⟨s, hr, hf, (relay_pairs_within_budget sampleConfig 100 (fun _ => false) s hr).1⟩

/-- As long as no draw repeats an attempt that is still mentioned, no two
records of any rooms name one attempt, and while a pair that was activated has
not ended, its record does not wait for the relay on that attempt again. -/
theorem attempts_are_not_reused (cfg : Config) (maxPeersGlobal : Nat) (relayOnly : RoomRef → Bool) (s : System)
    (hreach : Reaches (step cfg) FreshDraw (initial cfg maxPeersGlobal relayOnly) s) :
    NamesUnique s ∧ PairsSpent s := by
  refine hreach.invariant (P := fun s => NamesUnique s ∧ PairsSpent s) ⟨?_, ?_⟩ ?_
  · intro _ _ _ _ _ _ _ hr
    cases hr
  · intro _ _ _ hi
    cases hi
  · intro s a s' hs hfresh h
    exact ⟨step_unique h hfresh hs.1, step_pairsSpent h hfresh hs.2⟩

theorem attempts_are_not_reused_sample :
    ∃ s, Reaches (step sampleConfig) FreshDraw sampleStart s ∧ forwarding s = [⟨0, 100, 11⟩] ∧
      NamesUnique s ∧ PairsSpent s := by
  obtain ⟨s, hs, hf⟩ := exists_forwarding
  have hr := hs.mono fun _ _ h => h.fresh
  exact ⟨s, hr, hf, attempts_are_not_reused sampleConfig 100 (fun _ => false) s hr⟩

end Bore.RegistryCapacity
