import Bore.Runs

namespace Bore.PmtuMonitor

open Runs

def recentGrowTicks : Nat := 6

def ceilingDecayTicks : Nat := 60

def pmtuDecision (currentMtu : Nat) (samples : List Nat) (ceiling : Option Nat) : Option Nat :=
  if samples.length < 3 then none
  else
    match samples.drop (samples.length - 3) with
    | [] => none
    | stable :: last =>
      let candidate := min stable 9000
      if last.any (fun s => s != stable) then none
      else if stable < 576 then none
      else if candidate - currentMtu + (currentMtu - candidate) < 16 then none
      else if candidate > currentMtu ∧ ceiling.any (fun c => c ≤ candidate) then none
      else some candidate

def pmtuShrinkNow (currentMtu sample : Nat) : Option Nat :=
  if sample < 576 then none
  else if 16 ≤ currentMtu - min sample 9000 then some (min sample 9000) else none

structure Monitor where
  current : Nat
  samples : List Nat
  ceiling : Option Nat
  lastGrownTo : Nat
  ticksSinceGrow : Nat
  stableTicks : Nat

def start (initialMtu : Nat) : Monitor := ⟨initialMtu, [], none, 0, 2 ^ 32 - 1, 0⟩

def saturatingSucc (n : Nat) : Nat := min (n + 1) (2 ^ 32 - 1)

def Monitor.push (m : Monitor) (sample : Nat) : List Nat :=
  if 3 < (m.samples ++ [sample]).length then (m.samples ++ [sample]).tail else m.samples ++ [sample]

def Monitor.hold (m : Monitor) : Monitor :=
  { m with
    stableTicks := saturatingSucc m.stableTicks
    ceiling := if ceilingDecayTicks ≤ saturatingSucc m.stableTicks then none else m.ceiling }

def Monitor.adjust (m : Monitor) (newMtu : Nat) : Monitor :=
  { m with
    current := newMtu
    ceiling := if newMtu < m.current ∧ m.ticksSinceGrow ≤ recentGrowTicks ∧ newMtu < m.lastGrownTo then some m.lastGrownTo
      else m.ceiling
    lastGrownTo := if m.current < newMtu then newMtu else m.lastGrownTo
    ticksSinceGrow := if m.current < newMtu then 0 else m.ticksSinceGrow
    stableTicks := 0 }

def tick (pin : Bool) (m : Monitor) (maxDatagram : Option Nat) : Monitor :=
  let m := { m with ticksSinceGrow := saturatingSucc m.ticksSinceGrow }
  match maxDatagram with
  | none => m
  | some sample =>
    if pin then m
    else
      let m := { m with samples := m.push sample }
      match (pmtuShrinkNow m.current sample).or (pmtuDecision m.current m.samples m.ceiling) with
      | none => m.hold
      | some newMtu => m.adjust newMtu

def run (pin : Bool) (m : Monitor) (samples : List (Option Nat)) : Monitor := samples.foldl (tick pin) m

theorem run_concat (pin : Bool) (m : Monitor) (samples : List (Option Nat)) (x : Option Nat) :
    run pin m (samples ++ [x]) = tick pin (run pin m samples) x := List.foldl_concat ..

section Decisions

variable {current sample newMtu : Nat} {samples : List Nat} {ceiling : Option Nat}

theorem pmtuDecision_some (h : pmtuDecision current samples ceiling = some newMtu) :
    576 ≤ newMtu ∧ newMtu ≤ 9000 ∧ newMtu ≠ current ∧ (current < newMtu → ∀ c, ceiling = some c → newMtu < c) := by
  revert h
  fun_cases pmtuDecision current samples ceiling
  all_goals intro h
  case case7 stable last candidate hany hlow hdiff hcap =>
    cases ceiling <;> grind
  all_goals cases h

theorem pmtuShrinkNow_some (h : pmtuShrinkNow current sample = some newMtu) :
    576 ≤ newMtu ∧ newMtu ≤ 9000 ∧ newMtu < current ∧ newMtu = min sample 9000 := by
  revert h
  fun_cases pmtuShrinkNow current sample
  all_goals rintro ⟨⟩
  omega

end Decisions

structure Ticked (m m' : Monitor) : Prop where
  bounded : m'.current = m.current ∨ 576 ≤ m'.current ∧ m'.current ≤ 9000
  below : m.current < m'.current → ∀ c, m.ceiling = some c → m'.current < c
  grown : m'.lastGrownTo = if m.current < m'.current then m'.current else m.lastGrownTo
  since : m'.ticksSinceGrow = if m.current < m'.current then 0 else saturatingSucc m.ticksSinceGrow
  capped : m'.current < m.current → saturatingSucc m.ticksSinceGrow ≤ recentGrowTicks →
    m'.current < m.lastGrownTo → m'.ceiling = some m.lastGrownTo
  kept : m'.ceiling = m.ceiling ∨ m'.ceiling = some m.lastGrownTo ∨
    m'.current = m.current ∧ ceilingDecayTicks ≤ m.stableTicks + 1
  stable : m'.stableTicks ≤ if m'.current = m.current then m.stableTicks + 1 else 0

theorem ticked (pin : Bool) (m : Monitor) (x : Option Nat) : Ticked m (tick pin m x) := by
  fun_cases tick pin m x
  case case4 newMtu h =>
    have hnew : 576 ≤ newMtu ∧ newMtu ≤ 9000 ∧ newMtu ≠ m.current ∧ (m.current < newMtu → ∀ c, m.ceiling = some c → newMtu < c) := by
      rcases Option.or_eq_some_iff.mp h with h | ⟨-, h⟩
      · have := pmtuShrinkNow_some h
        grind
      · exact pmtuDecision_some h
    constructor <;> grind [Monitor.adjust]
  all_goals constructor
  all_goals grind [Monitor.hold, saturatingSucc]

theorem tick_shrinks {m : Monitor} {x : Nat} (hmin : 576 ≤ x) (hx : x + 16 ≤ m.current) :
    (tick false m (some x)).current = min x 9000 := by
  have hnow : pmtuShrinkNow m.current x = some (min x 9000) := by
    rw [pmtuShrinkNow, if_neg (by omega), if_pos (by omega)]
  simp [tick, hnow, Monitor.adjust]

theorem run_bounded (pin : Bool) (initial : Nat) (samples : List (Option Nat)) :
    (run pin (start initial) samples).current = initial ∨
      576 ≤ (run pin (start initial) samples).current ∧ (run pin (start initial) samples).current ≤ 9000 := by
  induction samples using List.reverseRecOn with
  | nil => exact .inl rfl
  | append_singleton samples x ih =>
    rw [run_concat]
    have := (ticked pin (run pin (start initial) samples) x).bounded
    grind

def NoGrowth (pin : Bool) : Monitor → List (Option Nat) → Prop
  | _, [] => True
  | m, x :: rest => (tick pin m x).current ≤ m.current ∧ NoGrowth pin (tick pin m x) rest

theorem NoGrowth.run {pin : Bool} {m : Monitor} {between : List (Option Nat)} (h : NoGrowth pin m between) :
    (run pin m between).lastGrownTo = m.lastGrownTo ∧
      (run pin m between).ticksSinceGrow ≤ m.ticksSinceGrow + between.length := by
  induction between generalizing m with
  | nil => exact ⟨rfl, le_rfl⟩
  | cons x rest ih =>
    obtain ⟨hgrown, hsince⟩ := ih h.2
    have ht := ticked pin m x
    have hle := Nat.not_lt.mpr h.1
    rw [ht.grown, if_neg hle] at hgrown
    rw [ht.since, if_neg hle, saturatingSucc] at hsince
    refine ⟨hgrown, hsince.trans ?_⟩
    rw [List.length_cons]
    omega

structure Watched where
  monitor : Monitor
  quiet : Nat

def step (pin : Bool) (s : Watched) (x : Option Nat) : Option Watched :=
  some ⟨tick pin s.monitor x, if (tick pin s.monitor x).current = s.monitor.current then s.quiet + 1 else 0⟩

def unsettled (s : Watched) (_ : Option Nat) : Prop := s.quiet < ceilingDecayTicks

structure Capped (g : Nat) (s : Watched) : Prop where
  below : s.monitor.current < g
  grown : s.monitor.lastGrownTo ≤ g
  stable : s.monitor.stableTicks ≤ s.quiet
  ceiling : s.quiet < ceilingDecayTicks → ∃ c, s.monitor.ceiling = some c ∧ c ≤ g

theorem capped_step {pin : Bool} {g : Nat} {s s' : Watched} {x : Option Nat} (h : Capped g s) (hq : unsettled s x)
    (hs : step pin s x = some s') : Capped g s' := by
  cases hs
  cases h
  obtain ⟨t1, t2, t3, t4, t5, t6, t7⟩ := ticked pin s.monitor x
  constructor
  all_goals grind [unsettled]

/-- The MTU stays in bounds and is lowered at once; a size it had to leave within
six ticks is not reached again before the MTU has rested. -/
theorem pmtu_does_not_flap (initial : Nat) (samples : List (Option Nat)) :
    (∀ pin, (run pin (start initial) samples).current = initial ∨
      576 ≤ (run pin (start initial) samples).current ∧ (run pin (start initial) samples).current ≤ 9000) ∧
    ∀ m, run false (start initial) samples = m →
      (∀ x, 576 ≤ x → x + 16 ≤ m.current → (tick false m (some x)).current = min x 9000) ∧
      ∀ grow between shrink, m.current < (tick false m grow).current → NoGrowth false (tick false m grow) between →
        between.length < recentGrowTicks →
        ∀ last, run false (tick false m grow) between = last → (tick false last shrink).current < last.current →
          (tick false last shrink).current < (tick false m grow).current →
          ∀ t, Reaches (step false) unsettled ⟨tick false last shrink, 0⟩ t → t.monitor.current < (tick false m grow).current := by
  refine ⟨fun pin => run_bounded pin initial samples, fun m _ => ⟨fun x hmin hx => tick_shrinks hmin hx, ?_⟩⟩
  intro grow between shrink hgrow hno hlen last hlast hshrink hbelow t hr
  have hm := ticked false m grow
  obtain ⟨hgrown, hsince⟩ := hno.run
  rw [hlast, hm.grown, if_pos hgrow] at hgrown
  rw [hlast, hm.since, if_pos hgrow] at hsince
  have hl := ticked false last shrink
  have hceiling := hl.capped hshrink (by simp only [saturatingSucc, recentGrowTicks] at *; omega) (hgrown ▸ hbelow)
  refine (hr.invariant (P := Capped (tick false m grow).current) ?_ fun _ _ _ h hok hs => capped_step h hok hs).below
  refine ⟨hbelow, ?_, ?_, fun _ => ⟨_, hceiling, hgrown.le⟩⟩
  · rw [hl.grown, if_neg (by omega), hgrown]
  · have := hl.stable
    rwa [if_neg (by omega)] at this

theorem pmtu_does_not_flap_shrunk :
    let grown := tick false (run false (start 1280) [some 1400, some 1400]) (some 1400)
    grown.current = 1400 ∧
      ∀ t, Reaches (step false) unsettled ⟨tick false grown (some 1300), 0⟩ t → t.monitor.current < grown.current := by
  refine ⟨by decide, ((pmtu_does_not_flap 1280 [some 1400, some 1400]).2 _ rfl).2 (some 1400) [] (some 1300) ?_ trivial ?_ _
    List.foldl_nil ?_ ?_⟩
  all_goals decide

/-- A growth in between moves the ceiling to the larger size, and a sample below
the smallest MTU lowers nothing. -/
theorem smaller_growth_is_repeated :
    [2, 3, 6, 7, 10].map (fun n => (run false (start 1280)
        ([1400, 1400, 1400, 1450, 1450, 1450, 1300, 1400, 1400, 1400].map some |>.take n)).current) =
      [1280, 1400, 1450, 1300, 1400] ∧
    (tick false (start 1280) (some 575)).current = 1280 := by decide

end Bore.PmtuMonitor
