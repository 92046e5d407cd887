import Mathlib

namespace Bore.PortMapping

variable {E : Type} [DecidableEq E]

def seconds (n : Nat) : Nat := n * 1000000000

def renewBackoffMax : Nat := seconds 30

/-- What `renewal_loop` carries from one round to the next, with the value of
the watch channel. The last three fields are for the record only: when and what
the last success granted, and how many renewals have failed since. -/
structure Lease (E : Type) where
  clock : Nat
  current : E
  lifetime : Nat
  backoff : Nat
  changed : E
  granted : Nat
  endpoint : E
  failures : Nat

def spawnManager (external : E) (lifetime : Nat) : Lease E :=
  ⟨0, external, lifetime, seconds 1, external, 0, external, 0⟩

namespace Lease

def wait (l : Lease E) : Nat := max (l.lifetime / 2) (seconds 5)

def attemptAt (l : Lease E) : Nat := l.clock + l.wait

/-- One round of the loop. A renewal that fails (`none`) is followed by a sleep
of its own, before the wait of the next round. -/
def round (l : Lease E) : Option (E × Nat) → Lease E
  | some (external, newLifetime) =>
    { clock := l.attemptAt
      current := if external ≠ l.current then external else l.current
      lifetime := newLifetime
      backoff := seconds 1
      changed := if external ≠ l.current then external else l.changed
      granted := l.attemptAt
      endpoint := external
      failures := 0 }
  | none =>
    { l with
      clock := l.attemptAt + l.backoff
      backoff := min (l.backoff * 2) renewBackoffMax
      failures := l.failures + 1 }

def renewalLoop : Lease E → List (Option (E × Nat)) → Lease E := List.foldl round

structure Scheduled (l : Lease E) : Prop where
  current : l.current = l.endpoint
  changed : l.changed = l.endpoint
  backoff : l.backoff = seconds (min (2 ^ l.failures) 30)
  lifetime : seconds 20 ≤ l.lifetime
  first : l.failures = 0 → l.clock = l.granted
  later : l.failures ≠ 0 → l.granted + l.wait + seconds 1 ≤ l.clock

theorem Scheduled.round {l : Lease E} (h : Scheduled l) (outcome : Option (E × Nat))
    (hl : ∀ granted ∈ outcome, seconds 20 ≤ granted.2) : Scheduled (l.round outcome) := by
  obtain ⟨hcurrent, hchanged, hbackoff, hlifetime, hfirst, hlater⟩ := h
  cases outcome with
  | some granted =>
    refine ⟨?_, ?_, rfl, hl _ rfl, fun _ => rfl, fun hf => absurd rfl hf⟩
    · simp only [Lease.round]
      split
      · rfl
      · rename_i he
        exact (not_not.mp he).symm
    · simp only [Lease.round]
      split
      · rfl
      · rename_i he
        exact hchanged.trans (hcurrent.symm.trans (not_not.mp he).symm)
  | none =>
    have hpos : seconds 1 ≤ l.backoff := by
      have := Nat.one_le_two_pow (n := l.failures)
      simp only [hbackoff, seconds]
      omega
    refine ⟨hcurrent, hchanged, ?_, hlifetime, fun hf => absurd hf (Nat.succ_ne_zero _), fun _ => ?_⟩
    · simp only [Lease.round, hbackoff, renewBackoffMax, seconds, pow_succ]
      omega
    · simp only [Lease.round, attemptAt, wait] at hpos hlater ⊢
      by_cases hf : l.failures = 0
      · omega
      · omega

theorem scheduled_renewalLoop {l : Lease E} (h : Scheduled l) (outcomes : List (Option (E × Nat)))
    (hl : ∀ granted, some granted ∈ outcomes → seconds 20 ≤ granted.2) : Scheduled (l.renewalLoop outcomes) := by
  induction outcomes generalizing l with
  | nil => exact h
  | cons outcome _ ih =>
    refine ih (h.round outcome fun granted hg => hl granted ?_) fun granted hg => hl granted (.tail _ hg)
    rw [← Option.mem_def.mp hg]
    exact .head _

end Lease

/-- How many renewals have failed since the last success. -/
def failed (outcomes : List (Option (E × Nat))) : Nat := (outcomes.reverse.takeWhile Option.isNone).length

omit [DecidableEq E] in
theorem failed_concat (outcomes : List (Option (E × Nat))) (outcome : Option (E × Nat)) :
    failed (outcomes ++ [outcome]) = if outcome.isNone then failed outcomes + 1 else 0 := by
  cases outcome <;> simp [failed]

theorem failures_renewalLoop (external : E) (lifetime : Nat) (outcomes : List (Option (E × Nat))) :
    ((spawnManager external lifetime).renewalLoop outcomes).failures = failed outcomes := by
  induction outcomes using List.reverseRecOn with
  | nil => rfl
  | append_singleton outcomes outcome ih =>
    rw [failed_concat, Lease.renewalLoop, List.foldl_concat]
    cases outcome with
    | some => rfl
    | none => exact congrArg (· + 1) ih

/-- The next attempt comes before the lease lapses exactly while no renewal has
failed: a failure is followed by its back-off and by a whole wait. -/
theorem leases_are_renewed (external : E) (lifetime : Nat) (hlifetime : seconds 20 ≤ lifetime)
    (outcomes : List (Option (E × Nat))) (hl : ∀ granted, some granted ∈ outcomes → seconds 20 ≤ granted.2) :
    let l := (spawnManager external lifetime).renewalLoop outcomes
    (l.attemptAt < l.granted + l.lifetime ↔ failed outcomes = 0) ∧
      (l.round none).clock = l.attemptAt + seconds (min (2 ^ failed outcomes) 30) ∧ l.changed = l.endpoint := by
  intro l
  have h : l.Scheduled := Lease.scheduled_renewalLoop
    ⟨rfl, rfl, rfl, hlifetime, fun _ => rfl, fun hf => absurd rfl hf⟩ outcomes hl
  obtain ⟨-, hchanged, hbackoff, hlong, hfirst, hlater⟩ := h
  have hfailed : l.failures = failed outcomes := failures_renewalLoop external lifetime outcomes
  rw [← hfailed, ← hbackoff]
  refine ⟨?_, rfl, hchanged⟩
  simp only [Lease.attemptAt, Lease.wait, seconds] at *
  omega

theorem leases_are_renewed_after_failures :
    let l := (spawnManager 7 (seconds 40)).renewalLoop [none, none, some (8, seconds 20)]
    (l.attemptAt, l.granted, l.changed) = (seconds 73, seconds 63, 8) ∧ l.attemptAt < l.granted + l.lifetime := by
  have h := leases_are_renewed 7 (seconds 40) (by decide) [none, none, some (8, seconds 20)] (by simp)
  exact ⟨by decide, h.1.mpr rfl⟩

/-- A lease of twenty seconds whose first renewal fails: the second attempt
comes one second after it has lapsed. -/
theorem failed_renewal_comes_late :
    let l := (spawnManager 7 (seconds 20)).renewalLoop [none]
    (l.attemptAt, l.granted + l.lifetime) = (seconds 21, seconds 20) := by
  decide

end Bore.PortMapping
