import Bore.RoomOwner

namespace Bore.RoomLeases

open RegistryTypes RoomOwner Runs

/-- There is a lease exactly while the owner is attached, and it has the epoch
of the room. A monitor of that epoch wakes after the grace, and one that found
the room stale still finds it so. Whoever destroys the room has removed its
entry, and a resume that has not returned yet finds it there. -/
structure Owned (s : System) : Prop where
  current : s.owner.epoch = s.epoch
  leased : ∀ i lease, s.leases.get? i = some lease → s.owner.isAttached = true ∧ lease.epoch = s.epoch
  loaded : ∀ i lease e, s.leases.get? i = some lease → lease.stage = .dropping e → e = s.epoch
  single : ∀ i j lease lease', s.leases.get? i = some lease → s.leases.get? j = some lease' → i = j
  attached : s.owner.isAttached = true → ∃ i lease, s.leases.get? i = some lease
  known : ∀ i m, s.monitors.get? i = some m → m.epoch ≤ s.epoch ∧ (s.owner.isAttached = true → m.epoch < s.epoch)
  detached : s.owner.isAttached = false → s.detachedSince ≠ none
  armed : ∀ since i m, s.owner.isAttached = false → s.detachedSince = some since → s.monitors.get? i = some m →
    m.epoch = s.epoch → since + s.grace ≤ m.wake
  decided : ∀ i m, s.monitors.get? i = some m → m.stage ≠ .sleeping →
    s.owner.isAttached = false ∧ m.epoch = s.epoch ∧ m.wake ≤ s.now
  standing : s.entry = .room → s.registryAlive = true ∧ s.destroyed = false
  removed : ∀ i lease, s.leases.get? i = some lease → lease.stage = .removed → s.entry ≠ .room
  resumed : ∀ i lease, s.leases.get? i = some lease → lease.stage = .resumed → s.entry = .room
  removals : ∀ i m, s.monitors.get? i = some m → m.stage = .removed → s.entry ≠ .room

theorem vacant_ne_room : Entry.vacant ≠ .room := by decide

section

variable {s t : System} {a : Action} {task monitor : Nat} {lease : Lease} {m : Monitor} (h : Owned s)
include h

theorem Owned.setStage {stage : LeaseStage} (hl : s.leases.get? task = some lease)
    (hdrop : ∀ e, stage = .dropping e → e = s.epoch) (hremoved : stage = .removed → s.entry ≠ .room)
    (hresumed : stage ≠ .resumed) : Owned (s.setStage task lease stage) := by
  cases h
  constructor
  all_goals first | assumption | simp only [System.setStage, Table.get?_insert]
  case attached => exact fun _ => ⟨task, _, if_pos rfl⟩
  all_goals grind

theorem Owned.setMonitor {stage : MonitorStage} (hm : s.monitors.get? monitor = some m)
    (hd : s.owner.isAttached = false ∧ m.epoch = s.epoch ∧ m.wake ≤ s.now) (hr : stage = .removed → s.entry ≠ .room) :
    Owned (s.setMonitor monitor m stage) := by
  cases h
  constructor
  all_goals first | assumption | simp only [System.setMonitor, Table.get?_insert]
  all_goals grind

theorem Owned.dropMonitor : Owned (s.dropMonitor monitor) := by
  cases h
  constructor
  all_goals first | assumption | simp only [System.dropMonitor, Table.get?_erase]
  all_goals grind

theorem Owned.destroy (he : s.entry ≠ .room) : Owned s.destroy :=
  { h with standing := fun hroom => absurd hroom he }

/-- The entry is another one, and no resume is about to return. -/
theorem Owned.vacate {alive : Bool} {entry : Entry} (he : entry ≠ .room)
    (hr : ∀ i lease, s.leases.get? i = some lease → lease.stage ≠ .resumed) :
    Owned { s with registryAlive := alive, entry := entry } :=
  { h with
    standing := fun hroom => absurd hroom he
    removed := fun _ _ _ _ => he
    resumed := fun i lease hl hst => absurd hst (hr i lease hl)
    removals := fun _ _ _ _ => he }

theorem Owned.resumeLocked
    (hok : s.owner.isAttached = false → s.entry = .room ∧ ∀ i m, s.monitors.get? i = some m → m.stage = .sleeping) :
    Owned (s.resumeLocked task) := by
  unfold System.resumeLocked
  split
  · exact h
  split
  · cases h
    constructor
    all_goals simp only [Table.get?_insert]
    case attached => exact fun _ => ⟨task, _, if_pos rfl⟩
    all_goals grind [OwnerState.isAttached, OwnerState.epoch]
  · exact h

theorem Owned.detachLocked {epoch e : Nat} (hl : s.leases.get? task = some ⟨e, .dropping epoch⟩) :
    Owned ({ s with leases := s.leases.erase task }.detachLocked epoch monitor) := by
  have hatt := (h.leased task _ hl).1
  obtain rfl : epoch = s.epoch := h.loaded task _ epoch hl rfl
  have hcurrent := h.current
  cases howner : s.owner with
  | detached =>
    rw [howner] at hatt
    cases hatt
  | attached current =>
    rw [howner] at hcurrent
    simp only [System.detachLocked, if_pos (show current = s.epoch from hcurrent), System.armMonitor]
    cases h
    constructor
    all_goals simp only [Table.get?_insert, Table.get?_erase]
    all_goals grind [OwnerState.isAttached, OwnerState.epoch]

theorem step_owned (hok : undecided s a = true) (hs : step s a = some t) : Owned t := by
  have hresumed : s.entry ≠ .room → ∀ i l, s.leases.get? i = some l → l.stage ≠ .resumed :=
    fun he i l hl hst => he (h.resumed i l hl hst)
  revert hs
  fun_cases step s a
  all_goals rintro ⟨⟩
  case case1 =>
    refine { h with decided := fun i m hm hst => ?_ }
    obtain ⟨hdet, hepoch, hwake⟩ := h.decided i m hm hst
    exact ⟨hdet, hepoch, Nat.le_trans hwake (Nat.le_add_right _ _)⟩
  case case2 hc =>
    rw [Bool.and_eq_true, decide_eq_true_eq] at hc
    exact h.vacate (by simp) (hresumed (by simp [hc.2]))
  case case4 hc => exact h.vacate (by simp) (hresumed (by simp [hc]))
  case case7 hc =>
    refine h.vacate (by simp) fun i l hl hst => ?_
    simp only [System.inRegistryCall, Bool.or_eq_true, List.any_eq_true, not_or, not_exists, not_and] at hc
    have := hc.2 l ((Table.mem_values_iff _ _).mpr ⟨i, hl⟩)
    simp [hst] at this
  case case8 | case10 | case11 => exact { h with }
  case case13 task _ _ =>
    have h' : Owned { s with resumes := s.resumes.erase task } := { h with }
    apply h'.resumeLocked
    intro hd
    simp only [undecided, hd, Bool.false_or, Bool.and_eq_true, beq_iff_eq, List.all_eq_true] at hok
    exact ⟨hok.1, fun i m hm => hok.2 m ((Table.mem_values_iff _ _).mpr ⟨i, hm⟩)⟩
  case case15 hl | case17 hl | case22 hl _ => exact h.setStage hl (by simp) (by simp) (by simp)
  case case19 hl _ => exact h.detachLocked hl
  case case25 task _ hl =>
    -- the closing lease is the only one, so no resume is about to return
    have hnot : ∀ i l, s.leases.get? i = some l → l.stage ≠ .resumed := by
      intro i l hi hst
      rw [h.single i task l _ hi hl, hl] at hi
      cases hi
      cases hst
    by_cases he : s.entry = .room
    · simp only [System.removeRoomIfCurrent, if_pos he]
      exact (h.vacate vacant_ne_room hnot).setStage hl (by simp) (fun _ => vacant_ne_room) (by simp)
    · simp only [System.removeRoomIfCurrent, if_neg he]
      exact h.setStage hl (by simp) (fun _ => he) (by simp)
  case case27 task _ hl => exact (h.destroy (h.removed task _ hl rfl)).setStage hl (by simp) (by simp) (by simp)
  case case29 | case34 | case35 => exact h.dropMonitor
  case case33 monitor wake hwake current _ howner hm =>
    refine h.setMonitor hm ⟨by rw [howner]; rfl, ?_, Nat.le_of_not_lt hwake⟩ (by simp)
    rw [← h.current, howner]
    rfl
  case case37 monitor _ _ hm _ _ hu =>
    have hd := h.decided monitor _ hm (by simp)
    have hnot : ∀ i l, s.leases.get? i = some l → l.stage ≠ .resumed := by
      intro i l hl
      rw [(h.leased i l hl).1] at hd
      cases hd.1
    by_cases he : s.entry = .room
    · rw [System.removeRoomIfCurrent, if_pos he] at hu
      cases hu
      exact (h.vacate vacant_ne_room hnot).setMonitor hm hd (fun _ => vacant_ne_room)
    · rw [System.removeRoomIfCurrent, if_neg he] at hu
      cases hu
  case case38 hu =>
    by_cases he : s.entry = .room
    · rw [System.removeRoomIfCurrent, if_pos he] at hu
      cases hu
    · rw [System.removeRoomIfCurrent, if_neg he] at hu
      cases hu
      exact h.dropMonitor
  -- the registry is gone, and its entries with it
  case case39 halive => exact (h.destroy fun he => halive (h.standing he).1).dropMonitor
  case case41 monitor _ _ hm => exact (h.destroy (h.removals monitor _ hm rfl)).dropMonitor

end

theorem start_owned (grace : Nat) (ownerHash : Digest) (now : Instant) : Owned (start grace ownerHash now) := by
  constructor
  all_goals simp only [start, Table.get?_insert]
  case attached => exact fun _ => ⟨0, _, if_pos rfl⟩
  all_goals grind [OwnerState.isAttached, OwnerState.epoch, Table.get?_empty]

def AttachedIffLeased (s : System) : Prop :=
  ∀ epoch, (s.owner.isAttached = true ∧ s.owner.epoch = epoch) ↔
    ∃ i lease, s.leases.get? i = some lease ∧ lease.isLive = true ∧ lease.epoch = epoch

/-- While every resume of a detached room takes the lock before a monitor has
found the room stale: a resume returns a registered room that is not destroyed,
a monitor removes a room whose owner has been away for the grace, there is at
most one lease, and the owner is attached exactly for a live lease, as long as
no lease was closed explicitly. -/
theorem resumed_room_is_live {grace : Nat} {ownerHash : Digest} {now : Instant} {s : System}
    (h : Reaches step (fun s a => undecided s a = true) (start grace ownerHash now) s) :
    (∀ task t, step s (.resumeReturn task) = some t → s.entry = .room ∧ s.destroyed = false) ∧
    (∀ monitor t, step s (.monitorRemove monitor) = some t → s.entry = .room →
      s.owner.isAttached = false ∧ ∃ since, s.detachedSince = some since ∧ since + s.grace ≤ s.now) ∧
    (∀ i j lease lease', s.leases.get? i = some lease → s.leases.get? j = some lease' → i = j) ∧
    (AttachedIffLeased s ↔ ∀ i lease, s.leases.get? i = some lease → lease.isLive = true) := by
  have howned : Owned s := h.invariant (start_owned grace ownerHash now) (fun _ _ _ hi hok hs => step_owned hi hok hs)
  refine ⟨?_, ?_, howned.single, ?_, ?_⟩
  · intro task t hs
    simp only [step] at hs
    split at hs
    · rename_i hl
      have he := howned.resumed task _ hl rfl
      exact ⟨he, (howned.standing he).2⟩
    · cases hs
  · intro monitor t hs _
    simp only [step] at hs
    split at hs
    · rename_i hm
      obtain ⟨hdet, hepoch, hwake⟩ := howned.decided monitor _ hm (by simp)
      obtain ⟨since, hsince⟩ := Option.ne_none_iff_exists'.mp (howned.detached hdet)
      exact ⟨hdet, since, hsince, Nat.le_trans (howned.armed since monitor _ hdet hsince hm hepoch) hwake⟩
    · cases hs
  · intro hiff i lease hl
    obtain ⟨hatt, hepoch⟩ := howned.leased i lease hl
    obtain ⟨j, live, hj, hlive, _⟩ := (hiff s.owner.epoch).mp ⟨hatt, rfl⟩
    rw [howned.single j i live lease hj hl, hl] at hj
    cases hj
    exact hlive
  · intro hlive epoch
    constructor
    · rintro ⟨hatt, rfl⟩
      obtain ⟨i, lease, hl⟩ := howned.attached hatt
      exact ⟨i, lease, hl, hlive i lease hl, (howned.leased i lease hl).2.trans howned.current.symm⟩
    · rintro ⟨i, lease, hl, _, rfl⟩
      obtain ⟨hatt, hepoch⟩ := howned.leased i lease hl
      exact ⟨hatt, howned.current.trans hepoch.symm⟩

def expiredResume : List Action :=
  [.dropLoad 0, .dropDetach 0 0, .resumeLookup 1 7, .resumeMatch 1, .tick 60, .monitorTest 0, .monitorRemove 0,
    .monitorDestroy 0, .resumeAttach 1]

def overtakenMonitor : List Action :=
  [.dropLoad 0, .dropDetach 0 0, .tick 60, .monitorTest 0, .resumeLookup 1 7, .resumeMatch 1, .resumeAttach 1,
    .resumeReturn 1]

/-- A resume returns a room that is destroyed and not registered; a monitor
removes a room whose owner is attached; and a closed lease leaves the owner
attached. -/
theorem resumed_room_is_destroyed : (∃ s t, Reaches step always (start 60 7 0) s ∧ step s (.resumeReturn 1) = some t ∧
      s.entry = .vacant ∧ s.destroyed = true) ∧
    (∃ s t, Reaches step always (start 60 7 0) s ∧ step s (.monitorRemove 0) = some t ∧
      s.entry = .room ∧ s.owner.isAttached = true) ∧
    ∃ s, Reaches step always (start 60 7 0) s ∧ ¬ AttachedIffLeased s := by
  have hnext (actions : List Action) (a : Action) (flag : System → Bool) (entry : Entry)
      (h : (exec step (start 60 7 0) actions).map (fun s => ((step s a).isSome, s.entry, flag s)) = some (true, entry, true)) :
      ∃ s t, Reaches step always (start 60 7 0) s ∧ step s a = some t ∧ s.entry = entry ∧ flag s = true := by
    obtain ⟨s, hs, ho⟩ := exec_observe _ _ h
    simp only [Prod.mk.injEq] at ho
    obtain ⟨t, ht⟩ := Option.isSome_iff_exists.mp ho.1
    exact ⟨s, t, hs, ht, ho.2⟩
  refine ⟨hnext expiredResume _ (·.destroyed) _ (by decide +kernel),
    hnext overtakenMonitor _ (·.owner.isAttached) _ (by decide +kernel), ?_⟩
  · obtain ⟨s, hs, ho⟩ : ∃ s, Reaches step always (start 60 7 0) s ∧
        (s.owner.isAttached, s.leases.values.any Lease.isLive) = (true, false) :=
      exec_observe [.closeExplicit 0] _ (by decide +kernel)
    simp only [Prod.mk.injEq, List.any_eq_false] at ho
    refine ⟨s, hs, fun hiff => ?_⟩
    obtain ⟨i, lease, hl, hlive, _⟩ := (hiff s.owner.epoch).mp ⟨ho.1, rfl⟩
    exact ho.2 lease ((Table.mem_values_iff _ _).mpr ⟨i, hl⟩) hlive

theorem resumed_room_is_live_within_grace : ∃ s t, Reaches step (fun s a => undecided s a = true) (start 60 7 0) s ∧
      step s (.resumeReturn 1) = some t ∧ s.entry = .room ∧ s.destroyed = false := by
  obtain ⟨s, hs, ho⟩ : ∃ s, Reaches step (fun s a => undecided s a = true) (start 60 7 0) s ∧
      (step s (.resumeReturn 1)).isSome = true :=
    execWhile_observe [.dropLoad 0, .dropDetach 0 0, .tick 30, .resumeLookup 1 7, .resumeMatch 1, .resumeAttach 1]
      _ (by decide +kernel)
  obtain ⟨t, ht⟩ := Option.isSome_iff_exists.mp ho
  exact ⟨s, t, hs, ht, (resumed_room_is_live hs).1 1 t ht⟩

end Bore.RoomLeases
