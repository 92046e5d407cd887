import Bore.VpnHub

namespace Bore.HubResidue

open Runs VpnHub Coordinator

/-- The coordinator, with the peers whose `Leave` it has taken. -/
structure Hub where
  coordinator : Coordinator
  departed : List UInt32

/-- What one turn of `run_hub_coordinator` takes from its two channels; `built` is
the outcome of the build that it may cause. -/
inductive Action
  | substream (peerId : UInt32) (tag : Tag) (built : Bool)
  | event (event : HubEvent) (built : Bool)
  deriving DecidableEq

def left : HubEvent → List UInt32
  | .leave peerId => [peerId]
  | .join .. => []

def step (h : Hub) : Action → Option Hub
  | .substream peerId tag built => some { h with coordinator := h.coordinator.handleSubstream peerId tag built }
  | .event event built => some ⟨h.coordinator.handleEvent event built, left event ++ h.departed⟩

def begins : Hub := ⟨⟨∅, ∅, ∅, 0⟩, []⟩

/-- Nothing of a peer arrives after its leave, but a substream that finds the buffer
full, or a `Join` of no carriers whose build fails. -/
def inTime (h : Hub) : Action → Bool
  | .substream peerId _ _ => peerId ∉ h.departed || maxPendingPeers ≤ h.coordinator.pending.size
  | .event (.join peerId _ _ carriers) built => peerId ∉ h.departed || carriers == 0 && !built
  | .event (.leave _) _ => true

def Absent (c : Coordinator) (peerId : UInt32) : Prop := c.pending.get? peerId = none ∧ c.live.get? peerId = none

instance (c : Coordinator) (peerId : UInt32) : Decidable (Absent c peerId) :=
  inferInstanceAs (Decidable (_ ∧ _))

section Frame

variable {c : Coordinator} {peerId other : UInt32} (hne : other ≠ peerId)
include hne

theorem absent_setPending (entry : PendingPeer) : Absent (c.setPending peerId entry) other ↔ Absent c other := by
  rw [Absent, Absent, setPending, Table.get?_insert_of_ne _ _ hne]

theorem absent_tryBuildPeer (built : Bool) : Absent (c.tryBuildPeer peerId built) other ↔ Absent c other := by
  fun_cases tryBuildPeer c peerId built with
  | case1 => rfl
  | case2 => simp [Absent, Table.get?_erase, Table.get?_insert, hne]
  | case3 => simp [Absent, Table.get?_erase, hne]

theorem absent_addSubstream (tag : Tag) : Absent (c.addSubstream peerId tag).1 other ↔ Absent c other := by
  fun_cases addSubstream c peerId tag with
  | case1 => rfl
  | case2 | case3 | case4 | case5 => exact absent_setPending hne _

theorem absent_handleSubstream (tag : Tag) (built : Bool) :
    Absent (c.handleSubstream peerId tag built) other ↔ Absent c other := by
  rw [handleSubstream]
  split
  · rw [absent_tryBuildPeer hne, absent_addSubstream hne]
  · exact absent_addSubstream hne tag

end Frame

section Late

variable {c : Coordinator} {peerId : UInt32} (ha : Absent c peerId)
include ha

/-- A substream of a peer without entries makes one, whatever its tag, unless the
buffer is full. -/
theorem absent_late_substream (tag : Tag) (built : Bool) :
    Absent (c.handleSubstream peerId tag built) peerId ↔ maxPendingPeers ≤ c.pending.size := by
  have hnew : c.pendingOf peerId = ⟨none, 0, 0⟩ := by rw [pendingOf, ha.1, Option.getD_none]
  have hcontains : c.pending.contains peerId = false := by rw [Table.contains, ha.1, Option.isSome_none]
  by_cases hfull : maxPendingPeers ≤ c.pending.size
  · simp [handleSubstream, addSubstream, hcontains, hfull, ha]
  · -- the new entry has no metadata, so that nothing is built
    cases tag <;>
      simp [handleSubstream, addSubstream, tryBuildPeer, complete,
        setPending, maxPendingPerPeer, Absent, hcontains, hfull, hnew]

theorem absent_late_join (overlay : UInt32) (nonce : Nat) (carriers : UInt16) (built : Bool) :
    Absent (c.handleEvent (.join peerId overlay nonce carriers) built) peerId ↔ carriers = 0 ∧ built = false := by
  have hnew : c.pendingOf peerId = ⟨none, 0, 0⟩ := by rw [pendingOf, ha.1, Option.getD_none]
  have hcomplete : (c.addJoin peerId overlay nonce carriers).complete peerId =
      if 0 < carriers.toNat then none else some (nonce, overlay) := by
    simp [addJoin, setPending, complete, hnew]
  rw [handleEvent, tryBuildPeer, hcomplete, ← UInt16.toNat_inj]
  by_cases hc : 0 < carriers.toNat
  · simp [hc, hc.ne', Absent, addJoin, setPending]
  · have hz : carriers.toNat = 0 := by omega
    cases built <;> simp [hz, Absent, addJoin, setPending, Table.get?_erase, ha.2]

end Late

def Clear (h : Hub) : Prop := ∀ peerId ∈ h.departed, Absent h.coordinator peerId

theorem absent_handleLeave (c : Coordinator) (peerId other : UInt32) :
    Absent (c.handleLeave peerId) other ↔ other = peerId ∨ Absent c other := by
  rw [handleLeave]
  by_cases hne : other = peerId
  · cases hlive : c.live.get? peerId <;> simp [Absent, Table.get?_erase, hne, hlive]
  · cases c.live.get? peerId <;> simp [Absent, Table.get?_erase, hne]

/-- One turn keeps the tables clear of the departed peers exactly if it is in time. -/
theorem clear_step {h h' : Hub} {a : Action} (hc : Clear h) (hs : step h a = some h') : Clear h' ↔ inTime h a = true := by
  cases a with
  | substream peerId tag built =>
    cases hs
    by_cases hin : peerId ∈ h.departed
    · simp only [inTime, hin, not_true, decide_false, Bool.false_or, decide_eq_true_eq,
        ← absent_late_substream (hc peerId hin) tag built]
      refine ⟨fun hclear => hclear peerId hin, fun hlate other ho => ?_⟩
      by_cases hne : other = peerId
      · exact hne ▸ hlate
      · exact (absent_handleSubstream hne tag built).mpr (hc other ho)
    · simp only [inTime, hin, not_false_eq_true, decide_true, Bool.true_or, iff_true]
      intro other ho
      have hne : other ≠ peerId := fun he => hin (he ▸ ho)
      exact (absent_handleSubstream hne tag built).mpr (hc other ho)
  | event event built =>
    cases hs
    cases event with
    | leave peerId =>
      refine iff_of_true (fun other ho => ?_) rfl
      refine (absent_handleLeave h.coordinator peerId other).mpr ?_
      rcases List.mem_cons.mp ho with he | ho
      · exact Or.inl he
      · exact Or.inr (hc other ho)
    | join peerId overlay nonce carriers =>
      have hother {other} (hne : other ≠ peerId) (ho : other ∈ h.departed) :
          Absent (h.coordinator.handleEvent (.join peerId overlay nonce carriers) built) other :=
        (absent_tryBuildPeer hne built).mpr ((absent_setPending hne _).mpr (hc other ho))
      by_cases hin : peerId ∈ h.departed
      · have hlate := absent_late_join (hc peerId hin) overlay nonce carriers built
        simp only [inTime, hin, not_true, decide_false, Bool.false_or, Bool.and_eq_true, beq_iff_eq, Bool.not_eq_true',
          ← hlate]
        refine ⟨fun hclear => hclear peerId hin, fun hlate other ho => ?_⟩
        by_cases hne : other = peerId
        · exact hne ▸ hlate
        · exact hother hne ho
      · simp only [inTime, hin, not_false_eq_true, decide_true, Bool.true_or, iff_true]
        exact fun other ho => hother (fun he => hin (he ▸ ho)) ho

/-- While nothing arrives late, no peer that has left is pending or live, and the
first late arrival leaves an entry. -/
theorem departed_peers_leave_nothing {h : Hub} (hr : Reaches step (fun h a => inTime h a = true) begins h) :
    (∀ peerId ∈ h.departed, h.coordinator.pending.get? peerId = none ∧ h.coordinator.live.get? peerId = none) ∧
      ∀ a h', step h a = some h' → inTime h a = false →
        ∃ peerId ∈ h'.departed, h'.coordinator.pending.contains peerId ∨ h'.coordinator.live.contains peerId := by
  have hclear : Clear h :=
    hr.invariant (P := Clear) (by rintro _ ⟨⟩) fun _ _ _ hc hok hs => (clear_step hc hs).mpr hok
  refine ⟨hclear, fun a h' hs hlate => ?_⟩
  have hnot : ¬Clear h' := by rw [clear_step hclear hs, hlate]; exact Bool.false_ne_true
  rw [Clear] at hnot
  push Not at hnot
  obtain ⟨peerId, hp, hpresent⟩ := hnot
  refine ⟨peerId, hp, ?_⟩
  rw [Absent, not_and_or] at hpresent
  simpa [Table.contains, Option.isSome_iff_ne_none] using hpresent

theorem departed_peers_leave_nothing_built : ∃ h : Hub, Reaches step (fun h a => inTime h a = true) begins h ∧
    (h.coordinator.live.keys, h.coordinator.pending.keys, h.departed) = ([2], [3], [1]) ∧
      h.coordinator.pending.get? 1 = none ∧ h.coordinator.live.get? 1 = none := by
  refine execWhile_shows [.event (.join 1 10 0 1) true, .substream 1 .up true, .substream 2 .up true, .substream 1 .down true,
    .event (.join 2 11 1 1) true, .substream 3 .unknown true, .event (.leave 1) true, .substream 2 .down true] _
    (by decide +kernel) fun h hr hs => ?_
  have hdeparted : h.departed = [1] := (Prod.mk.inj (Prod.mk.inj hs).2).2
  exact (departed_peers_leave_nothing hr).1 1 (by simp [hdeparted])

/-- A substream that comes after the leave of its peer waits for ever, also one
whose tag is unknown. -/
theorem late_substream_stays : ∃ h, Reaches step always begins h ∧
    (h.coordinator.pending.keys, h.departed) = ([1, 2], [2, 1]) :=
  exec_observe [.event (.leave 1) false, .event (.leave 2) false, .substream 1 .up false, .substream 2 .unknown false] _
    (by decide +kernel)

end Bore.HubResidue
