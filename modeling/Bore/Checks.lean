import Mathlib

/-! Validators as sequences of fallible checks. -/

namespace Bore.Checks

variable {ε α β : Type}

def ensure (p : Prop) [Decidable p] (e : ε) : Except ε Unit :=
  if p then .ok () else .error e

variable {p : Prop} {e : ε} {f : α → Except ε β} {x : Except ε α}

theorem bind_ok_iff {b : β} : (x >>= f) = .ok b ↔ ∃ a, x = .ok a ∧ f a = .ok b := by
  cases x with
  | error | ok => simp [bind, Except.bind]

theorem error_ite_ok_iff [Decidable p] {a : α} : (if p then .error e else x) = .ok a ↔ ¬ p ∧ x = .ok a := by
  by_cases hp : p
  · simp [hp]
  · simp [hp]

def Accepts (x : Except ε α) : Prop := ∃ a, x = .ok a

theorem not_accepts_error : ¬ Accepts (.error e : Except ε α) := fun ⟨_, h⟩ => nomatch h

instance (x : Except ε α) : Decidable (Accepts x) :=
  match x with
  | .ok a => .isTrue ⟨a, rfl⟩
  | .error _ => .isFalse not_accepts_error

end Bore.Checks
