import Mathlib

namespace Bore.CheckedWords

open List

/-- Machine arithmetic of a build that checks for overflow, which is `none`. -/
def sub8 (a b : UInt8) : Option UInt8 := if b ≤ a then some (a - b) else none

def add32 (a b : UInt32) : Option UInt32 := if a.toNat + b.toNat < 2 ^ 32 then some (a + b) else none

def mul32 (a b : UInt32) : Option UInt32 := if a.toNat * b.toNat < 2 ^ 32 then some (a * b) else none

def shl32 (a : UInt32) (n : UInt8) : Option UInt32 := if n < 32 then some (a <<< n.toUInt32) else none

theorem sub8_eq {a b : UInt8} (h : b ≤ a) : sub8 a b = some (a - b) := if_pos h

theorem add32_eq {a b : UInt32} (h : a.toNat + b.toNat < 2 ^ 32) : add32 a b = some (a + b) := if_pos h

theorem mul32_eq {a b : UInt32} (h : a.toNat * b.toNat < 2 ^ 32) : mul32 a b = some (a * b) := if_pos h

theorem shl32_eq {a : UInt32} {n : UInt8} (h : n < 32) : shl32 a n = some (a <<< n.toUInt32) := if_pos h

section Lists

variable {α β : Type} {xs : List α}

theorem anyM_eq {f : α → Option Bool} {g : α → Bool} (h : ∀ x ∈ xs, f x = some (g x)) : xs.anyM f = some (xs.any g) := by
  induction xs with
  | nil => rfl
  | cons x _ ih =>
    have hrest := ih (fun y hy => h y (mem_cons_of_mem x hy))
    rw [anyM, h x mem_cons_self, any_cons]
    cases g x with
    | true => rfl
    | false => exact hrest

theorem findSomeM?_eq {f : α → Option (Option β)} {g : α → Option β} (h : ∀ x ∈ xs, f x = some (g x)) :
    xs.findSomeM? f = some (xs.findSome? g) := by
  induction xs with
  | nil => rfl
  | cons x _ ih =>
    have hrest := ih (fun y hy => h y (mem_cons_of_mem x hy))
    rw [findSomeM?, h x mem_cons_self, findSome?_cons]
    cases g x with
    | some => rfl
    | none => exact hrest

def retainM (f : α → Option Bool) : List α → Option (List α)
  | [] => some []
  | x :: xs => do
    let keep ← f x
    let rest ← retainM f xs
    return if keep then x :: rest else rest

/-- A loop stops at the first element on which its body overflows. -/
theorem retainM_ite (bad : α → Prop) [DecidablePred bad] (g : α → Bool) (xs : List α) :
    retainM (fun x => if bad x then none else some (g x)) xs =
      if ∃ x ∈ xs, bad x then none else some (xs.filter g) := by
  induction xs with
  | nil => simp [retainM]
  | cons x xs ih =>
    rw [retainM, ih]
    by_cases hx : bad x
    · simp [hx]
    · by_cases hxs : ∃ y ∈ xs, bad y
      · simp [hx, hxs]
      · simp [hx, hxs, filter_cons]

theorem findSomeM?_ite (bad g : α → Bool) (xs : List α) :
    xs.findSomeM? (fun x => if bad x then none else some (if g x then some x else none)) =
      if (xs.find? (fun x => bad x || g x)).any bad then none else some (xs.find? g) := by
  induction xs with
  | nil => rfl
  | cons x xs ih =>
    rw [findSomeM?, find?_cons, find?_cons]
    cases hbad : bad x with
    | true => simp [hbad]
    | false =>
      cases g x with
      | true => simp [hbad]
      | false => simpa using ih

def pairs : List α → List (α × α)
  | [] => []
  | x :: xs => xs.map (x, ·) ++ pairs xs

theorem pairwise_iff_pairs {r : α → α → Prop} : xs.Pairwise r ↔ ∀ p ∈ pairs xs, r p.1 p.2 := by
  induction xs with
  | nil => simp [pairs]
  | cons x xs ih => simp [pairs, pairwise_cons, ih, or_imp, forall_and]

theorem findSome?_ite (p : β → Bool) (f : α → β) (xs : List α) :
    xs.findSome? (fun x => if p (f x) then some (f x) else none) = (xs.map f).find? p := by
  induction xs with
  | nil => rfl
  | cons x _ ih =>
    rw [findSome?_cons, map_cons, find?_cons]
    cases p (f x) with
    | true => rfl
    | false => exact ih

end Lists

end Bore.CheckedWords
