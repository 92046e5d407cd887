import Bore.RegistrySteps

namespace Bore.RegistrySlots

open RegistryTypes RegistryPermits RegistrySystem RegistryTasks RegistrySections RegistrySteps List

def taskPermit : Task → Option Permit
  | .admitHold _ permit => some permit
  | _ => none

def waiting (s : System) : List Permit := s.tasks.collect taskPermit

def slots (s : System) (room : RoomRef) : List Permit := s.inner.relayPermits ++ held (s.rooms room) ++ waiting s

structure SlotsOwned (budget : Nat) (s : System) : Prop where
  nodup : ∀ room, (slots s room).Nodup
  disjoint : ∀ room room', room ≠ room' → List.Disjoint (held (s.rooms room)) (held (s.rooms room'))
  bounded : ∀ room, ∀ p ∈ slots s room, p < budget

def SlotStep (s s' : System) : Prop :=
  ∃ room, (∀ other, other ≠ room → s'.rooms other = s.rooms other) ∧ (slots s' room).Subperm (slots s room)

section Frames

variable {s s' : System} {room room' : RoomRef} {budget : Nat} {p : Permit}

theorem mem_slots : p ∈ slots s room ↔ p ∈ s.inner.relayPermits ∨ p ∈ held (s.rooms room) ∨ p ∈ waiting s := by
  simp [slots]

theorem SlotsOwned.not_mem (h : SlotsOwned budget s) (hne : room ≠ room') (hp : p ∈ slots s room)
    (hp' : p ∈ held (s.rooms room')) : False := by
  have hn := h.nodup room'
  rw [slots, append_assoc, nodup_append'] at hn
  obtain ⟨-, hn₂, hfree⟩ := hn
  rw [nodup_append'] at hn₂
  rcases mem_slots.mp hp with hp | hp | hp
  · exact hfree hp (mem_append_left _ hp')
  · exact h.disjoint room room' hne hp hp'
  · exact hn₂.2.2 hp' hp

theorem SlotsOwned.step (h : SlotsOwned budget s) (hs : SlotStep s s') : SlotsOwned budget s' := by
  obtain ⟨room, hother, hsub⟩ := hs
  have hmem : ∀ p, p ∈ slots s' room → p ∈ slots s room := fun p hp => hsub.subset hp
  have hroom : (slots s' room).Nodup := by
    obtain ⟨l, hperm, hl⟩ := hsub
    exact hperm.nodup_iff.mp ((h.nodup room).sublist hl)
  have hrest : (s'.inner.relayPermits ++ waiting s').Nodup := by
    refine hroom.sublist ?_
    rw [slots, append_assoc]
    exact (sublist_append_right _ _).append_left _
  have hrest_mem : ∀ p, p ∈ s'.inner.relayPermits ++ waiting s' → p ∈ slots s room := by
    intro p hp
    refine hmem p (mem_slots.mpr ?_)
    rcases mem_append.mp hp with hp | hp
    · exact .inl hp
    · exact .inr (.inr hp)
  have hheld_mem : ∀ p, p ∈ held (s'.rooms room) → p ∈ slots s room :=
    fun p hp => hmem p (mem_slots.mpr (.inr (.inl hp)))
  refine ⟨?_, ?_, ?_⟩
  · intro other
    by_cases ho : other = room
    · exact ho ▸ hroom
    have hheld : (held (s.rooms other)).Nodup := by
      have hn := h.nodup other
      rw [slots, append_assoc, nodup_append', nodup_append'] at hn
      exact hn.2.1.1
    have hperm : (slots s' other).Perm (held (s.rooms other) ++ (s'.inner.relayPermits ++ waiting s')) := by
      rw [slots, hother other ho, ← append_assoc]
      exact perm_append_comm.append_right _
    rw [hperm.nodup_iff, nodup_append']
    exact ⟨hheld, hrest, fun p hp hp' => h.not_mem (Ne.symm ho) (hrest_mem p hp') hp⟩
  · intro r r' hne p hp hp'
    by_cases hr : r = room
    · subst hr
      rw [hother r' (Ne.symm hne)] at hp'
      exact h.not_mem hne (hheld_mem p hp) hp'
    rw [hother r hr] at hp
    by_cases hr' : r' = room
    · subst hr'
      exact h.not_mem (Ne.symm hne) (hheld_mem p hp') hp
    · rw [hother r' hr'] at hp'
      exact h.disjoint r r' hne hp hp'
  · intro other p hp
    by_cases ho : other = room
    · subst ho
      exact h.bounded _ p (hmem p hp)
    rcases mem_slots.mp hp with hp | hp | hp
    · exact h.bounded room p (hrest_mem p (mem_append_left _ hp))
    · rw [hother other ho] at hp
      exact h.bounded other p (mem_slots.mpr (.inr (.inl hp)))
    · exact h.bounded room p (hrest_mem p (mem_append_right _ hp))

end Frames

variable {cfg : Config} {s s' : System} {a : Action}

theorem waiting_step (h : TaskStep cfg s a s') : (waiting s').Subperm (waiting s) ∨
    ∃ i now key permit rest, a = .resume i now .go ∧ s.tasks.get? i = some (.admitWait key) ∧
      s.inner.relayPermits = permit :: rest := by
  have erased : ∀ {tasks : Table Nat Task} (i), ((tasks.erase i).collect taskPermit).Subperm (tasks.collect taskPermit) :=
    fun i => (Table.collect_erase_sublist _ _ i).subperm
  have inserted : ∀ {task i}, taskPermit task = none → ((s.tasks.insert i task).collect taskPermit).Subperm (waiting s) := by
    intro task i hp
    have hinsert := (Table.perm_collect_insert taskPermit s.tasks i task).subperm
    rw [hp, Option.toList_none, nil_append] at hinsert
    exact hinsert.trans (erased i)
  cases h with
  | same ht => exact .inl (by rw [waiting, ht, waiting])
  | ended i ht | failed i _ _ _ _ _ _ ht =>
    rw [waiting, ht]
    exact .inl (erased i)
  | spawned _ _ _ task ha ht _ _ hc =>
    rw [waiting, ht]
    cases task with
    | admitHold =>
      obtain ⟨_, ⟨now, hgo⟩, _⟩ := hc
      cases ha.symm.trans hgo
    | _ => exact .inl (inserted rfl)
  | continued i _ _ _ task _ _ ht _ _ _ hc =>
    rw [waiting, ht]
    cases task with
    | admitHold key permit =>
      obtain ⟨hi, ⟨now, hgo⟩, rest, hfree⟩ := hc
      exact .inr ⟨i, now, key, permit, rest, hgo, hi, hfree⟩
    | _ => exact .inl (inserted rfl)
  | handed i _ _ _ _ _ _ _ _ _ _ ht =>
    rw [waiting, ht]
    refine .inl ((erased i).trans (inserted ?_))
    rw [pairedTask]
    split <;> rfl

theorem slotStep_take {i : Nat} {now : Instant} {key : RelayKey} {permit : Permit} {rest : List Permit}
    (hi : s.tasks.get? i = some (.admitWait key)) (hfree : s.inner.relayPermits = permit :: rest)
    (h : step cfg s (.resume i now .go) = some s') : SlotStep s s' := by
  simp only [step, hi, Option.bind_some, resumeStep, hfree, Option.some.injEq] at h
  subst h
  refine ⟨0, fun other _ => rfl, ?_⟩
  have hnew : ((s.tasks.insert i (.admitHold key permit)).collect taskPermit).Perm
      (permit :: (s.tasks.erase i).collect taskPermit) := Table.perm_collect_insert taskPermit s.tasks i _
  have hold : (waiting s).Perm ((s.tasks.erase i).collect taskPermit) := Table.perm_collect_erase taskPermit hi
  rw [slots, slots, hfree]
  refine ((hnew.append_left _).trans ?_).subperm
  exact perm_middle.trans ((hold.symm.append_left _).cons _)

theorem step_slots (h : step cfg s a = some s') : SlotStep s s' := by
  obtain ⟨room, sc, outbox, hleft⟩ := step_left h
  have hother : ∀ other, other ≠ room → s'.rooms other = s.rooms other := by
    intro other ho
    rw [hleft.rooms, Function.update_of_ne ho]
  have hroom : s'.rooms room = sc.room := by
    rw [hleft.rooms, Function.update_self]
  rcases (ran_effect hleft.ran).slots with hsub | ⟨i, now, key, permit, pair, rfl, hi, hsub⟩
  · rcases waiting_step hleft.tasks with hw | ⟨i, now, key, permit, rest, rfl, hi, hfree⟩
    · refine ⟨room, hother, ?_⟩
      rw [slots, slots, hleft.inner, hroom]
      exact ((subperm_append_right _).mpr hsub).trans ((subperm_append_left _).mpr hw)
    · exact slotStep_take hi hfree h
  -- a waiter puts its slot into the record or back
  · refine ⟨room, hother, ?_⟩
    have htasks : s'.tasks = s.tasks.erase i := by
      simp only [step, hi, Option.bind_some, resumeStep, Option.some.injEq] at h
      rw [← h]
      rfl
    have hold : (waiting s).Perm (permit :: waiting s') := by
      rw [waiting, waiting, htasks]
      exact Table.perm_collect_erase taskPermit hi
    rw [slots, slots, hleft.inner, hroom]
    refine ((subperm_append_right _).mpr hsub).trans ?_
    exact (perm_middle.symm.trans (hold.symm.append_left _)).subperm

theorem initial_slotsOwned (cfg : Config) (maxPeersGlobal : Nat) (relayOnly : RoomRef → Bool) :
    SlotsOwned cfg.limits.maxRelaysGlobal (initial cfg maxPeersGlobal relayOnly) := by
  have hs : ∀ room, slots (initial cfg maxPeersGlobal relayOnly) room = range cfg.limits.maxRelaysGlobal := by
    intro room
    change (range _ ++ [] ++ [] : List Permit) = _
    simp
  refine ⟨fun room => ?_, fun room room' _ p hp => ?_, fun room p hp => ?_⟩
  · rw [hs]
    exact nodup_range
  · cases hp
  · rw [hs] at hp
    exact mem_range.mp hp

end Bore.RegistrySlots
