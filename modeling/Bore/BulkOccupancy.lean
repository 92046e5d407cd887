import Bore.CarrierPool

namespace Bore.BulkOccupancy

open Runs CarrierPool Function List

/-- Where one half of a connection stands in `record`: past the load of the
flag, past a sum that reached the threshold, past its own exchange. -/
inductive Half
  | idle
  | loaded (n : Nat)
  | crossed
  | won
deriving DecidableEq

inductive Life
  | live
  | releasing
  | gone
deriving DecidableEq

structure BulkTicket where
  bytes : Nat
  threshold : Nat
  classified : Bool
  carrier : Option Nat
  halves : Bool → Half
  life : Life

namespace BulkTicket

def withThreshold (carrier : Option Nat) (threshold : Nat) : BulkTicket :=
  ⟨0, threshold, false, carrier, fun _ => .idle, .live⟩

inductive Act
  | load (side : Bool) (n : Nat)
  | add (side : Bool)
  | exchange (side : Bool)
  | count (side : Bool)
  | drop
  | release

/-- One atomic access of `record` or `drop`, with what it does to the counter
of the carrier. The last reference is dropped when no half records. -/
def act (t : BulkTicket) : Act → Option (BulkTicket × (Nat → Nat))
  | .load side n =>
    if t.life = .live ∧ t.halves side = .idle then
      if n = 0 ∨ t.classified then some (t, id)
      else some ({ t with halves := update t.halves side (.loaded n) }, id)
    else none
  | .add side =>
    match t.halves side with
    | .loaded n =>
      let total := (t.bytes + n) % 2 ^ 64
      some ({ t with
        bytes := total
        halves := update t.halves side (if total < t.threshold then .idle else .crossed) }, id)
    | _ => none
  | .exchange side =>
    if t.halves side = .crossed then
      if t.classified then some ({ t with halves := update t.halves side .idle }, id)
      else some ({ t with classified := true, halves := update t.halves side .won }, id)
    else none
  | .count side =>
    if t.halves side = .won then some ({ t with halves := update t.halves side .idle }, (· + 1)) else none
  | .drop =>
    if t.life = .live ∧ t.halves false = .idle ∧ t.halves true = .idle then
      some ({ t with life := if t.classified then .releasing else .gone }, id)
    else none
  | .release => if t.life = .releasing then some ({ t with life := .gone }, (· - 1)) else none

def counted (t : BulkTicket) : Bool :=
  t.classified && t.life ≠ .gone && t.halves false ≠ .won && t.halves true ≠ .won

def quiet (t : BulkTicket) : Bool := t.halves false = .idle && t.halves true = .idle && t.life ≠ .releasing

/-- One half at most has classified the ticket and not counted it yet, and a
total that reached the threshold is classified or about to be. -/
structure Sound (t : BulkTicket) : Prop where
  won : ∀ side, t.halves side = .won → t.classified = true
  once : ¬ (t.halves false = .won ∧ t.halves true = .won)
  crossed : ∀ side, t.halves side = .crossed → t.threshold ≤ t.bytes
  reached : t.classified = true → t.threshold ≤ t.bytes
  noticed : t.threshold ≤ t.bytes → t.classified = true ∨ t.halves false = .crossed ∨ t.halves true = .crossed
  ended : t.life ≠ .live → t.halves false = .idle ∧ t.halves true = .idle
  releasing : t.life = .releasing → t.classified = true

def fits (t : BulkTicket) : Act → Bool
  | .add side => match t.halves side with
    | .loaded n => t.bytes + n < 2 ^ 64
    | _ => true
  | _ => true

variable {t t' : BulkTicket} {a : Act} {f : Nat → Nat}

theorem act_sound (h : t.Sound) (hok : t.fits a = true) (ha : t.act a = some (t', f)) : t'.Sound := by
  obtain ⟨hw, ho, hc, hr, hn, he, hl⟩ := h
  revert ha
  fun_cases act t a
  all_goals rintro ⟨⟩
  case case4 side n hs total =>
    have ht : total = t.bytes + n := Nat.mod_eq_of_lt (by simpa [fits, hs] using hok)
    clear_value total
    subst ht
    cases side <;> constructor <;> simp_all [update_apply] <;> grind
  all_goals try (rename Bool => side; cases side)
  all_goals constructor <;> simp_all [update_apply]

theorem act_counted (h : t.Sound) (ha : t.act a = some (t', f)) {b : Nat} (hb : t.counted.toNat ≤ b) :
    t'.carrier = t.carrier ∧ f b + t.counted.toNat = b + t'.counted.toNat := by
  obtain ⟨hw, ho, hc, hr, hn, he, hl⟩ := h
  revert ha
  fun_cases act t a
  all_goals rintro ⟨⟩
  all_goals grind [update_apply, counted, Bool.toNat]

end BulkTicket

structure State where
  tickets : List BulkTicket
  bulk : Nat → Nat

def start : State := ⟨[], fun _ => 0⟩

inductive Action
  | accept (carrier : Option Nat) (threshold : Nat)
  | act (i : Nat) (a : BulkTicket.Act)

def step (s : State) : Action → Option State
  | .accept carrier threshold => some { s with tickets := s.tickets ++ [.withThreshold carrier threshold] }
  | .act i a => do
      let t ← s.tickets[i]?
      let (t', f) ← t.act a
      some ⟨s.tickets.set i t', fun c => if t.carrier = some c then f (s.bulk c) else s.bulk c⟩

def fits (s : State) : Action → Bool
  | .accept _ threshold => 0 < threshold
  | .act i a => (s.tickets[i]?).all (fun t => t.fits a)

structure Inv (s : State) : Prop where
  sound : ∀ t ∈ s.tickets, t.Sound
  bulk : ∀ c, s.bulk c = s.tickets.countP (fun t => t.carrier = some c && t.counted)

theorem countP_step {tickets : List BulkTicket} {i c : Nat} {t t' : BulkTicket} {a : BulkTicket.Act} {f : Nat → Nat}
    (hs : t.Sound) (ht : tickets[i]? = some t) (ha : t.act a = some (t', f)) :
    let held := fun t : BulkTicket => t.carrier = some c && t.counted
    (tickets.set i t').countP held =
      if t.carrier = some c then f (tickets.countP held) else tickets.countP held := by
  intro held
  obtain ⟨hi, rfl⟩ := List.getElem?_eq_some_iff.mp ht
  have hle := boole_getElem_le_countP (p := held) hi
  rw [countP_set hi]
  have hcarrier := (BulkTicket.act_counted hs ha (Bool.toNat_le _)).1
  by_cases hc : tickets[i].carrier = some c
  · have hcount := (BulkTicket.act_counted hs ha (b := tickets.countP held) (by grind [Bool.toNat])).2
    grind [Bool.toNat]
  · grind

theorem step_inv {s s' : State} {a : Action} (h : Inv s) (hok : fits s a = true) (hs : step s a = some s') : Inv s' := by
  cases a with
  | accept carrier threshold =>
    cases hs
    have hpos : threshold ≠ 0 := by simpa [fits, Nat.pos_iff_ne_zero] using hok
    constructor
    · intro t ht
      rcases mem_append.mp ht with ht | ht
      · exact h.sound t ht
      · cases mem_singleton.mp ht
        constructor <;> simp [BulkTicket.withThreshold, hpos]
    · intro c
      simp [h.bulk, countP_append, BulkTicket.withThreshold, BulkTicket.counted]
  | act i a =>
    obtain ⟨t, ht, hs⟩ := Option.bind_eq_some_iff.mp hs
    obtain ⟨⟨t', f⟩, ha, hs⟩ := Option.bind_eq_some_iff.mp hs
    cases hs
    have htok := h.sound t (mem_of_getElem? ht)
    constructor
    · intro u hu
      rcases mem_or_eq_of_mem_set hu with hu | rfl
      · exact h.sound u hu
      · exact BulkTicket.act_sound htok (by simpa [fits, ht] using hok) ha
    · intro c
      dsimp only
      rw [countP_step htok ht ha, h.bulk]

section Choice

variable (loads : List Nat) (start : Nat)

def scan : Nat → Nat
  | 0 => start
  | k + 1 =>
    let best := scan k
    let idx := (start + (k + 1)) % loads.length
    if loads.getD idx 0 < loads.getD best 0 then idx else best

def chooseCarrier : Nat := scan loads start (loads.length - 1)

variable {loads start} (hs : start < loads.length)
include hs

theorem scan_best (k : Nat) : scan loads start k < loads.length ∧
    ∀ j ≤ k, loads.getD (scan loads start k) 0 ≤ loads.getD ((start + j) % loads.length) 0 := by
  induction k with
  | zero =>
    refine ⟨hs, fun j hj => ?_⟩
    simp [Nat.le_zero.mp hj, Nat.mod_eq_of_lt hs, scan]
  | succ k ih =>
    have hmod := Nat.mod_lt (start + (k + 1)) (Nat.zero_lt_of_lt hs)
    grind [scan]

theorem chooseCarrier_min {i : Nat} (hi : i < loads.length) :
    loads.getD (chooseCarrier loads start) 0 ≤ loads.getD i 0 := by
  obtain ⟨j, hj, hlt, rfl⟩ := exists_round start i hi
  have hbest := (scan_best hs (loads.length - 1)).2 (j - start) (by omega)
  rwa [Nat.add_sub_cancel' hj] at hbest

theorem chooseCarrier_equal (h : ∀ i < loads.length, loads.getD i 0 = loads.getD start 0) :
    chooseCarrier loads start = start := by
  rw [chooseCarrier]
  induction loads.length - 1 with
  | zero => rfl
  | succ k ih =>
    have hidx := h _ (Nat.mod_lt (start + (k + 1)) (Nat.zero_lt_of_lt hs))
    rw [scan, ih, hidx]
    simp

end Choice

/-- The loads are sampled one after the other, so they are whatever the
counters held then. -/
def pickAvoidingBulk (p : Pool) (alive : Nat → Bool) (loads : Nat → Nat) : Pool × Option Nat :=
  let carriers := p.carriers.filter alive
  if carriers = [] then (⟨carriers, p.next⟩, none)
  else (⟨carriers, (p.next + 1) % 2 ^ 64⟩,
    carriers[chooseCarrier (carriers.map loads) (p.next % carriers.length)]?)

/-- The pick is a live carrier of minimal load, and the one of `pick` when all
loads are equal. -/
def PicksLeast (p : Pool) (alive : Nat → Bool) (loads : Nat → Nat) : Prop :=
  ∃ p' id, pickAvoidingBulk p alive loads = (p', some id) ∧ id ∈ p.carriers ∧ alive id = true ∧
    (∀ j ∈ p.carriers, alive j = true → loads id ≤ loads j) ∧
    ((∀ j ∈ p.carriers, alive j = true → loads j = loads id) → p.pick alive = (p', some id))

theorem picksLeast {p : Pool} {alive : Nat → Bool} (loads : Nat → Nat)
    (hlive : ∃ j ∈ p.carriers, alive j = true) : PicksLeast p alive loads := by
  unfold PicksLeast pickAvoidingBulk Pool.pick Pool.choose
  generalize hl : p.carriers.filter alive = live
  have hmem : ∀ j, j ∈ live ↔ j ∈ p.carriers ∧ alive j = true := fun j => hl ▸ mem_filter
  obtain ⟨j, hj, ha⟩ := hlive
  have hpos := length_pos_of_mem ((hmem j).mpr ⟨hj, ha⟩)
  have hstart : p.next % live.length < (live.map loads).length := by
    rw [length_map]
    exact Nat.mod_lt _ hpos
  have hget : ∀ {i} (hi : i < live.length), (live.map loads).getD i 0 = loads live[i] := fun hi => by simp [hi]
  have hbest := (scan_best hstart ((live.map loads).length - 1)).1
  have hmin := @chooseCarrier_min _ _ hstart
  have hequal := chooseCarrier_equal hstart
  change chooseCarrier _ _ < _ at hbest
  rw [length_map] at hbest hmin hequal
  simp only [if_neg (ne_nil_of_length_pos hpos), getElem?_eq_getElem hbest]
  obtain ⟨hin, halive⟩ := (hmem _).mp (getElem_mem hbest)
  refine ⟨_, _, rfl, hin, halive, fun j hj ha => ?_, fun heq => ?_⟩
  · obtain ⟨i, hi, rfl⟩ := getElem_of_mem ((hmem j).mpr ⟨hj, ha⟩)
    have hle := hmin hi
    rwa [hget hbest, hget hi] at hle
  · rw [← getElem?_eq_getElem hbest, hequal]
    intro i hi
    have hload : ∀ {k} (hk : k < live.length), (live.map loads).getD k 0 = loads _ := fun hk =>
      (hget hk).trans (heq _ ((hmem _).mp (getElem_mem hk)).1 ((hmem _).mp (getElem_mem hk)).2)
    rw [hload hi, hload (Nat.mod_lt _ hpos)]

/-- Once no half records and no ticket is being released, a carrier's counter
is the number of its live classified tickets, and these are the ones whose total
reached the threshold. -/
theorem bulk_counts_classified {s : State} (hr : Reaches step (fun s a => fits s a = true) start s) :
    ((∀ t ∈ s.tickets, t.quiet = true) →
      (∀ c, s.bulk c = s.tickets.countP (fun t => t.carrier = some c && t.classified && t.life = .live)) ∧
      ∀ t ∈ s.tickets, t.classified = true ↔ t.threshold ≤ t.bytes) ∧
    ∀ p alive loads, (∃ j ∈ p.carriers, alive j = true) → PicksLeast p alive loads := by
  have hinv : Inv s := by
    refine hr.invariant ?_ (fun _ _ _ h hok hs => step_inv h hok hs)
    constructor <;> simp [start]
  refine ⟨fun hq => ⟨fun c => ?_, fun t ht => ?_⟩, fun p alive loads hlive => picksLeast loads hlive⟩
  · rw [hinv.bulk]
    refine countP_congr (fun t ht => ?_)
    cases hlife : t.life <;> simp_all [BulkTicket.quiet, BulkTicket.counted]
  · have hs := hinv.sound t ht
    refine ⟨hs.reached, fun hle => ?_⟩
    have hn := hs.noticed hle
    simp_all [BulkTicket.quiet]

theorem bulk_counts_classified_two_halves : ∃ s : State, Reaches step (fun s a => fits s a = true) start s ∧
    s.bulk 0 = 1 ∧ s.tickets.countP (fun t => t.carrier = some 0 && t.classified && t.life = .live) = 1 := by
  obtain ⟨s, hr, hs⟩ := execWhile_observe
    [.accept (some 0) 10, .act 0 (.load false 6), .act 0 (.load true 12), .act 0 (.add false), .act 0 (.add true),
      .act 0 (.exchange true), .act 0 (.count true)]
    (fun s : State => (s.tickets.all BulkTicket.quiet, s.bulk 0))
    (show (execWhile step fits start _).map _ = some (true, 1) by decide +kernel)
  obtain ⟨hq, hb⟩ := Prod.mk.inj hs
  have hcount := ((bulk_counts_classified hr).1 (all_eq_true.mp hq)).1 0
  exact ⟨s, hr, hb, hcount.symm.trans hb⟩

/-- A total that wraps around passes its threshold unnoticed, and a threshold of zero
is passed before anything is recorded. -/
theorem wrapped_total_is_not_bulk :
    (∃ s, Reaches step always start s ∧
      s.tickets.map (fun t => (t.quiet, t.threshold, t.bytes, t.classified)) = [(true, 10, 0, false)]) ∧
    ∃ s, Reaches step always start s ∧
      s.tickets.map (fun t => (t.quiet, t.threshold, t.bytes, t.classified)) = [(true, 0, 0, false)] :=
  ⟨exec_observe [.accept none 10, .act 0 (.load false 5), .act 0 (.add false), .act 0 (.load false (2 ^ 64 - 5)),
    .act 0 (.add false)] _ (by decide +kernel), exec_observe [.accept none 0] _ (by decide +kernel)⟩

end Bore.BulkOccupancy
