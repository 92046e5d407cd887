import Mathlib

/-! The windows of the direct path from one memory budget. -/

namespace Bore.UdpTuning

def directWindowRatio : Nat := 16

def minDirectStreamReceiveWindow : Nat := 1024 * 1024

def directQuicConnectionReceiveWindow : Nat := 256 * 1024 * 1024

/-- The widths of `usize` on the targets that are shipped. -/
inductive Target
  | bits32 | bits64

def Target.usizeBits : Target → Nat
  | .bits32 => 32
  | .bits64 => 64

inductive UdpBudgetShortfall
  | belowCarrierCount (maxCarriers slots : Nat)
  | belowOneConnection (perConnection : Nat)

/-- The windows; a budget leaves the other settings at their defaults. -/
structure UdpDirectTuning where
  streamReceiveWindow : Nat
  connectionReceiveWindow : Nat
  sendWindow : Nat

structure UdpBudgetPlan where
  tuning : UdpDirectTuning
  directSlots : Nat
  shortfall : Option UdpBudgetShortfall
  windowAtFloor : Bool

def windowFloor : Nat := directWindowRatio * minDirectStreamReceiveWindow

def checkedDiv (a b : Nat) : Option Nat := if b = 0 then none else some (a / b)

def checkedSub (a b : Nat) : Option Nat := if b ≤ a then some (a - b) else none

/-- A step that overflows or divides by zero is `none`; a cast drops high bits. -/
def fromMemoryBudget (target : Target) (budget : UInt64) (maxCarriers : UInt32) : Option UdpBudgetPlan := do
  let carriers := max maxCarriers.toNat 1
  let floor ← if windowFloor < 2 ^ 32 then some windowFloor else none
  let raw ← checkedDiv budget.toNat carriers
  let clamped := max floor (min raw directQuicConnectionReceiveWindow)
  let conn ← checkedSub clamped (clamped % directWindowRatio)
  let fitting ← checkedDiv budget.toNat conn
  let slots := max fitting 1 % 2 ^ target.usizeBits
  let shortfall :=
    if budget.toNat < floor then some (.belowOneConnection conn)
    else if slots < carriers % 2 ^ target.usizeBits then some (.belowCarrierCount (carriers % 2 ^ 32) slots)
    else none
  return ⟨⟨conn / directWindowRatio % 2 ^ 32, conn % 2 ^ 32, conn⟩, slots, shortfall, raw < floor⟩

/-- The window that a budget leaves each of the carriers, within its bounds and
in whole stream windows. -/
def perConnection (budget maxCarriers : Nat) : Nat :=
  let clamped := max windowFloor (min (budget / max maxCarriers 1) directQuicConnectionReceiveWindow)
  clamped - clamped % directWindowRatio

theorem perConnection_bounds (budget maxCarriers : Nat) :
    let clamped := max windowFloor (min (budget / max maxCarriers 1) directQuicConnectionReceiveWindow)
    let conn := perConnection budget maxCarriers
    checkedSub clamped (clamped % directWindowRatio) = some conn ∧ directWindowRatio ∣ conn ∧ windowFloor ≤ conn ∧
      conn ≤ directQuicConnectionReceiveWindow ∧ (conn ≤ budget / max maxCarriers 1 ∨ conn = windowFloor) := by
  refine ⟨if_pos (Nat.mod_le _ _), Nat.dvd_sub_mod _, ?_⟩
  simp only [perConnection, windowFloor, directWindowRatio, minDirectStreamReceiveWindow,
    directQuicConnectionReceiveWindow]
  omega

theorem slots_pos_iff (target : Target) {budget conn : Nat} (hb : budget < 2 ^ 64) (hconn : 0 < conn) :
    1 ≤ max (budget / conn) 1 % 2 ^ target.usizeBits ↔
      ¬ (target = .bits32 ∧ conn ≤ budget ∧ 2 ^ 32 ∣ budget / conn) := by
  have hq : budget / conn < 2 ^ 64 := (Nat.div_le_self _ _).trans_lt hb
  have hfits : conn ≤ budget ↔ 1 ≤ budget / conn := (Nat.div_pos_iff.trans (and_iff_right hconn)).symm
  cases target with
  | bits32 =>
    simp only [Target.usizeBits, hfits, Nat.dvd_iff_mod_eq_zero, true_and]
    omega
  | bits64 =>
    simp only [Target.usizeBits, reduceCtorEq, false_and, not_false_eq_true, iff_true]
    omega

/-- There is a plan for every budget. It leaves no slot exactly if on a 32-bit
target the number of connections that fit is a positive multiple of 2^32. -/
theorem budget_plan (target : Target) (budget : UInt64) (maxCarriers : UInt32) :
    let conn := perConnection budget.toNat maxCarriers.toNat
    ∃ plan, fromMemoryBudget target budget maxCarriers = some plan ∧
      plan.tuning.connectionReceiveWindow = conn ∧
      plan.tuning.connectionReceiveWindow = directWindowRatio * plan.tuning.streamReceiveWindow ∧
      windowFloor ≤ conn ∧ conn ≤ directQuicConnectionReceiveWindow ∧
      (1 ≤ plan.directSlots ↔ ¬ (target = .bits32 ∧ conn ≤ budget.toNat ∧ 2 ^ 32 ∣ budget.toNat / conn)) ∧
      ((∀ n, plan.shortfall ≠ some (.belowOneConnection n)) → plan.directSlots * conn ≤ budget.toNat) ∧
      (plan.shortfall ≠ none ↔ plan.directSlots < max maxCarriers.toNat 1 ∨ budget.toNat < windowFloor) := by
  have hcarriers : max maxCarriers.toNat 1 < 2 ^ 32 := max_lt maxCarriers.toNat_lt (by decide)
  have hbits : 2 ^ 32 ≤ 2 ^ target.usizeBits := by cases target <;> decide
  have hbounds := perConnection_bounds budget.toNat maxCarriers.toNat
  dsimp only at hbounds ⊢
  generalize perConnection budget.toNat maxCarriers.toNat = conn at hbounds ⊢
  obtain ⟨hconn, hdvd, hlow, hhigh, hfits⟩ := hbounds
  have hsmall : conn < 2 ^ 32 := hhigh.trans_lt (by decide)
  have hpos : 0 < conn := lt_of_lt_of_le (by decide) hlow
  refine ⟨_, by
    simp only [fromMemoryBudget, checkedDiv, hconn, if_neg hpos.ne', if_neg (show max maxCarriers.toNat 1 ≠ 0 by omega),
      if_pos (show windowFloor < 2 ^ 32 by decide), Option.bind_eq_bind, Option.bind_some]
    rfl, ?_⟩
  dsimp only
  rw [Nat.mod_eq_of_lt hsmall, Nat.mod_eq_of_lt ((Nat.div_le_self _ _).trans_lt hsmall),
    Nat.mod_eq_of_lt (hcarriers.trans_le hbits)]
  refine ⟨rfl, (Nat.mul_div_cancel' hdvd).symm, hlow, hhigh, slots_pos_iff target budget.toNat_lt hpos, fun h => ?_, ?_⟩
  · have hb : windowFloor ≤ budget.toNat := not_lt.mp fun hb => h _ (if_pos hb)
    have hle : conn ≤ budget.toNat := hfits.elim (Nat.div_le_self _ _).trans' (· ▸ hb)
    calc _ ≤ max (budget.toNat / conn) 1 * conn := Nat.mul_le_mul_right _ (Nat.mod_le _ _)
      _ = budget.toNat / conn * conn := by rw [max_eq_left (Nat.div_pos hle hpos)]
      _ ≤ budget.toNat := Nat.div_mul_le_self _ _
  · split_ifs with hb hs
    · exact iff_of_true nofun (.inr hb)
    · exact iff_of_true nofun (.inl hs)
    · exact iff_of_false (· rfl) (not_or.mpr ⟨hs, hb⟩)

theorem slots_wrap_to_zero : (fromMemoryBudget .bits32 (2 ^ 60) 1).map (·.directSlots) = some 0 := by
  decide +kernel

end Bore.UdpTuning
