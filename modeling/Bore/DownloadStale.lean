import Bore.Download

namespace Bore.Download

open Frames

/-- The two awaits of an archive's FINAL after which nothing asks whether the
attempt is over. -/
def Point.checksFinal : Point → Bool
  | .rooting .. => true
  | .recording .. => true
  | _ => false

section Stale

variable {hash : Hash} {s : System} {p : Pump}

section

variable (h : s.transfer.stale p.attempt = true)
include h

theorem returns_of_stale : s.returns p = { s with running := none } := by
  rw [System.returns, if_pos h]

theorem throws_of_stale : s.throws p = { s with running := none } := by
  rw [System.throws, if_pos h, returns_of_stale h]

theorem nextBatch_of_stale : s.nextBatch p = { s with running := none } := by
  unfold System.nextBatch
  rw [if_pos (.inr (.inr h)), returns_of_stale h]

theorem consume_of_stale : s.consume hash p = { s with running := none } := by
  unfold System.consume
  split
  · exact nextBatch_of_stale h
  · rw [if_pos (.inr h)]
    exact returns_of_stale h

end

variable (hash) in
theorem advance_of_stale (h : s.transfer.stale p.attempt = true) (hp : p.point.checksFinal = false) :
    ∃ parts running, s.advance hash p = { s with parts := parts, running := running } ∧
      ∀ q, running = some q → q.attempt = p.attempt ∧ q.point.checksFinal = false := by
  have none_running : ∀ q : Pump, (none : Option Pump) = some q →
      q.attempt = p.attempt ∧ q.point.checksFinal = false := fun q hq => by cases hq
  have consuming : ∀ q : Pump, some { p with point := .consuming } = some q →
      q.attempt = p.attempt ∧ q.point.checksFinal = false := by
    intro q hq
    cases hq
    exact ⟨rfl, rfl⟩
  unfold System.advance
  cases hpt : p.point with
  | opening =>
    dsimp only
    split
    · exact ⟨s.parts, none, throws_of_stale h, none_running⟩
    refine ⟨s.parts, _, rfl, ?_⟩
    intro q hq
    cases hq
    exact ⟨rfl, rfl⟩
  | consuming => exact ⟨s.parts, none, consume_of_stale h, none_running⟩
  | hashing =>
    refine ⟨s.parts, _, ?_, consuming⟩
    unfold System.hashed
    dsimp only
    rw [if_pos h]
    rfl
  | writing _ chunk index =>
    refine ⟨s.parts.insert index chunk, _, ?_, consuming⟩
    unfold System.written
    dsimp only
    rw [if_pos h]
    rfl
  | saving =>
    refine ⟨s.parts, _, ?_, consuming⟩
    unfold System.saved
    dsimp only
    rw [if_pos h]
    rfl
  | rooting | recording =>
    rw [hpt] at hp
    cases hp

end Stale

end Bore.Download
