import Bore.Runs
import Bore.Table

namespace Bore.CarrierPool

open Runs List

/-- The carriers, named by their connections, and the round-robin cursor. -/
structure Pool where
  carriers : List Nat
  next : Nat
deriving DecidableEq

namespace Pool

def push (p : Pool) (id max : Nat) : Pool :=
  if max ≤ p.carriers.length then p else { p with carriers := p.carriers ++ [id] }

def choose (p : Pool) : Pool × Option Nat :=
  if p.carriers = [] then (p, none)
  else ({ p with next := (p.next + 1) % 2 ^ 64 }, p.carriers[p.next % p.carriers.length]?)

def pick (p : Pool) (alive : Nat → Bool) : Pool × Option Nat :=
  choose { p with carriers := p.carriers.filter alive }

theorem pick_carriers (p : Pool) (alive : Nat → Bool) : (p.pick alive).1.carriers = p.carriers.filter alive := by
  unfold pick choose
  split <;> rfl

theorem pick_none {p p' : Pool} {alive : Nat → Bool} (h : p.pick alive = (p', none)) : p'.carriers = [] := by
  unfold pick choose at h
  split at h
  · rename_i he
    cases h
    exact he
  · rename_i he
    rw [getElem?_eq_getElem (Nat.mod_lt _ (length_pos_iff.mpr he))] at h
    cases h

theorem pick_some {p p' : Pool} {alive : Nat → Bool} {id : Nat} (h : p.pick alive = (p', some id)) :
    p' = ⟨p.carriers.filter alive, (p.next + 1) % 2 ^ 64⟩ ∧
      (p.carriers.filter alive)[p.next % (p.carriers.filter alive).length]? = some id := by
  unfold pick choose at h
  split at h
  · cases h
  · obtain ⟨rfl, hid⟩ := Prod.mk.inj h
    exact ⟨rfl, hid⟩

end Pool

inductive Stage
  | trying
  | opening (id : Nat)
  | opened
  | failed
deriving DecidableEq

def Stage.underway : Stage → Bool
  | .trying | .opening _ => true
  | .opened | .failed => false

/-- A call of `open_with_failover`: the attempts left and the carriers whose
open failed. -/
structure Call where
  left : Nat
  tried : List Nat
  stage : Stage
deriving DecidableEq

/-- One tunnel. A connection has dropped (`down`) before the server clears the
alive flag of its carrier (`ended`) and before the client stops counting it
(`live`). The client has `missed` so many carriers when it last looked, and
`batch` are still to be dialed. A dialed connection is `joining` until
`serve_carrier` has sent it to the handler, which takes it from the `channel`. -/
structure State where
  pool : Pool
  nextId : Nat
  down : List Nat
  ended : List Nat
  joining : List Nat
  channel : List Nat
  live : List Nat
  target : Nat
  missed : Option Nat
  batch : Option Nat
  calls : Table Nat Call

/-- Connection 0 is the tunnel's own; when it drops the tunnel is gone. -/
def start (extra : Nat) : State := ⟨⟨[0], 0⟩, 1, [], [], [], [], [], extra, none, none, ∅⟩

def State.alive (s : State) (id : Nat) : Bool := id ∉ s.ended

inductive Action
  | load
  | redial
  | dial
  | endBatch
  | setTarget (target : Nat)
  | join (id : Nat)
  | receive
  | cut (id : Nat)
  | serverEnds (id : Nat)
  | clientEnds (id : Nat)
  | pick
  | call (k : Nat)
  | attempt (k : Nat)
  | opened (k : Nat)
  | refused (k : Nat)
deriving DecidableEq

/-- One round of the loop in `open_with_failover`, up to the open. -/
def attempt (s : State) (k : Nat) : Option State :=
  match s.calls.get? k with
  | some ⟨left + 1, tried, .trying⟩ =>
    match s.pool.pick s.alive with
    | (pool, none) => some { s with pool, calls := s.calls.insert k ⟨left + 1, tried, .failed⟩ }
    | (pool, some id) => some { s with pool, calls := s.calls.insert k ⟨left, tried, .opening id⟩ }
  | _ => none

def refused (s : State) (k : Nat) : Option State :=
  match s.calls.get? k with
  | some ⟨left, tried, .opening id⟩ =>
    some { s with calls := s.calls.insert k ⟨left, id :: tried, if left = 0 then .failed else .trying⟩ }
  | _ => none

def opened (s : State) (k : Nat) : Option State :=
  match s.calls.get? k with
  | some ⟨left, tried, .opening _⟩ => some { s with calls := s.calls.insert k ⟨left, tried, .opened⟩ }
  | _ => none

/-- `limit` is the handler's bound on its pool: the effective number of carriers,
or the ceiling of a vhost that lets the server choose. -/
def step (limit : Nat) (s : State) : Action → Option State
  | .load => if s.live.length < s.target then some { s with missed := some (s.target - s.live.length) } else none
  | .redial =>
    match s.missed with
    | some need => some { s with missed := none, batch := s.batch.or (some need) }
    | none => none
  | .dial =>
    match s.batch with
    | some (need + 1) =>
      some { s with batch := some need, nextId := s.nextId + 1, joining := s.nextId :: s.joining, live := s.nextId :: s.live }
    | _ => none
  | .endBatch => if s.batch = none then none else some { s with batch := none }
  | .setTarget target => if 1 ≤ target ∧ target ≤ limit then some { s with target := target - 1 } else none
  | .join id =>
    if id ∈ s.joining then some { s with joining := s.joining.erase id, channel := s.channel ++ [id] } else none
  | .receive =>
    match s.channel with
    | id :: rest => some { s with channel := rest, pool := s.pool.push id limit }
    | [] => none
  | .cut id => if 0 < id ∧ id < s.nextId then some { s with down := id :: s.down } else none
  | .serverEnds id => if id ∈ s.down ∧ id ∉ s.joining then some { s with ended := id :: s.ended } else none
  | .clientEnds id => if id ∈ s.down then some { s with live := s.live.erase id } else none
  | .pick => some { s with pool := (s.pool.pick s.alive).1 }
  | .call k =>
    if s.calls.contains k then none
    else some { s with calls := s.calls.insert k ⟨max 1 s.pool.carriers.length, [], .trying⟩ }
  | .attempt k => attempt s k
  | .opened k => opened s k
  | .refused k => refused s k

variable {limit k : Nat} {s s' : State} {a : Action}

section Failover

def State.members (s : State) : List Nat := s.pool.carriers.filter s.alive

/-- Call `k` has an attempt left. -/
def State.searches (s : State) (k : Nat) : Bool :=
  (s.calls.get? k).any (fun call => call.stage.underway && call.left ≠ 0)

/-- While call `k` will pick again nobody else moves the cursor, no carrier of the
pool dies and the cursor does not wrap; and none joins until it is through. -/
def undisturbed (limit k : Nat) (s : State) : Action → Bool
  | .pick => !s.searches k
  | .attempt j => !s.searches k || j = k ∧ s.pool.next + 1 < 2 ^ 64
  | .serverEnds id => !s.searches k || id ∉ s.members
  | .receive => !(s.calls.get? k).any (fun call => call.stage.underway) || limit ≤ s.pool.carriers.length
  | _ => true

/-- Since the cursor stood at `c` the call has seen the members at every
position passed, and it has attempts left for the others. -/
structure Rounds (pool : Pool) (members : List Nat) (left : Nat) (seen : List Nat) (c : Nat) : Prop where
  enough : members.length ≤ left + (pool.next - c)
  seen : ∀ i, c ≤ i → i < pool.next → ∀ id, members[i % members.length]? = some id → id ∈ seen
  pruned : c < pool.next → pool.carriers = members
  le : c ≤ pool.next

def Covering (s : State) (call : Call) : Prop :=
  match call.stage with
  | .trying => 0 < call.left ∧ ∃ c, Rounds s.pool s.members call.left call.tried c
  | .opening id => (call.left = 0 → ∀ j ∈ s.pool.carriers, j ∈ id :: call.tried) ∧
    (call.left ≠ 0 → ∃ c, Rounds s.pool s.members call.left (id :: call.tried) c)
  | .opened | .failed => True

theorem exists_round {n : Nat} (c j : Nat) (hj : j < n) : ∃ i, c ≤ i ∧ i < c + n ∧ i % n = j := by
  refine ⟨c + (j + n - c % n) % n, by omega, Nat.add_lt_add_left (Nat.mod_lt _ (by omega)) c, ?_⟩
  have hc := Nat.mod_lt c (by omega : 0 < n)
  rw [Nat.add_mod_mod, ← Nat.mod_add_mod, show c % n + (j + n - c % n) = j + n by omega, Nat.add_mod_right,
    Nat.mod_eq_of_lt hj]

theorem Rounds.all_seen {pool : Pool} {members seen : List Nat} {c id : Nat} (h : Rounds pool members 0 seen c)
    (hc : c < pool.next) (hid : id ∈ pool.carriers) : id ∈ seen := by
  rw [h.pruned hc] at hid
  obtain ⟨j, hj, he⟩ := getElem_of_mem hid
  obtain ⟨i, hci, hi, hij⟩ := exists_round c j hj
  have henough := h.enough
  refine h.seen i hci (by omega) id ?_
  rw [hij, getElem?_eq_getElem hj, he]

theorem Covering.congr {call : Call} (h : Covering s call) (hp : s'.pool = s.pool) (hm : s'.members = s.members) :
    Covering s' call := by
  unfold Covering
  rw [hp, hm]
  exact h

def Fair (k : Nat) (s s' : State) : Prop :=
  ∀ call, s'.calls.get? k = some call → Covering s' call ∧
    (call.stage = .failed → s.calls.get? k = some call ∨ ∀ id ∈ s'.pool.carriers, id ∈ call.tried)

def Covers (k : Nat) (s : State) : Prop := ∀ call, s.calls.get? k = some call → Covering s call

theorem Covers.same (h : Covers k s) (hp : s'.pool = s.pool) (hm : s'.members = s.members)
    (hc : s'.calls.get? k = s.calls.get? k) : Fair k s s' := by
  intro call hg
  rw [hc] at hg
  exact ⟨(h call hg).congr hp hm, fun _ => Or.inl hg⟩

theorem fair_of_idle (hi : (s.calls.get? k).any (fun call => call.stage.underway) = false)
    (hc : s'.calls.get? k = s.calls.get? k) : Fair k s s' := by
  intro call hg
  rw [hc] at hg
  refine ⟨?_, fun _ => Or.inl hg⟩
  rw [hg, Option.any_some] at hi
  obtain ⟨left, tried, stage⟩ := call
  cases stage <;> trivial

/-- A call without attempts left has seen what is in the pool. -/
theorem Covers.spent (h : Covers k s) (hn : s.searches k = false) (hsub : s'.pool.carriers ⊆ s.pool.carriers)
    (hc : s'.calls.get? k = s.calls.get? k) : Fair k s s' := by
  intro call hg
  rw [hc] at hg
  refine ⟨?_, fun _ => Or.inl hg⟩
  have hcov := h call hg
  rw [State.searches, hg, Option.any_some] at hn
  obtain ⟨left, tried, stage⟩ := call
  cases stage with
  | trying => exact absurd hn (by simp [Stage.underway, Nat.ne_of_gt hcov.1])
  | opening id =>
    have hl : left = 0 := by simpa [Stage.underway] using hn
    exact ⟨fun _ j hj => hcov.1 hl j (hsub hj), fun hne => absurd hl hne⟩
  | opened | failed => trivial

theorem attempt_fair (h : Covers k s) (hwrap : s.pool.next + 1 < 2 ^ 64) (hs : attempt s k = some s') :
    Fair k s s' := by
  revert hs
  fun_cases attempt s k
  all_goals rintro ⟨⟩
  case case1 hpick =>
    intro call hcall
    rw [Table.get?_insert_self] at hcall
    cases hcall
    refine ⟨trivial, fun _ => Or.inr (fun id hid => ?_)⟩
    rw [Pool.pick_none hpick] at hid
    cases hid
  case case2 left tried hg pool id hpick =>
    intro call hcall
    rw [Table.get?_insert_self] at hcall
    cases hcall
    refine ⟨?_, nofun⟩
    obtain ⟨-, c, hc⟩ := h _ hg
    obtain ⟨rfl, hid⟩ := Pool.pick_some hpick
    rw [Nat.mod_eq_of_lt hwrap]
    have hle := hc.le
    have henough := hc.enough
    have hm : (s.pool.carriers.filter s.alive).filter s.alive = s.members := by
      rw [filter_filter, State.members]
      exact filter_congr (fun _ _ => Bool.and_self _)
    have hrounds : Rounds ⟨s.pool.carriers.filter s.alive, s.pool.next + 1⟩ s.members left (id :: tried) c := by
      refine ⟨?_, fun i hci hi j hj => ?_, fun _ => rfl, Nat.le_succ_of_le hle⟩
      · simp only at henough ⊢
        omega
      · rcases Nat.lt_succ_iff_lt_or_eq.mp hi with hi | rfl
        · exact mem_cons_of_mem _ (hc.seen i hci hi j hj)
        · exact mem_cons.mpr (Or.inl (Option.some.inj (hj.symm.trans hid)))
    refine ⟨fun hl j hj => ?_, fun _ => ⟨c, show Rounds _ (filter s.alive (filter s.alive _)) _ _ _ from hm ▸ hrounds⟩⟩
    subst hl
    exact hrounds.all_seen (Nat.lt_succ_of_le hle) hj

theorem refused_fair (h : Covers k s) (hs : refused s k = some s') : Fair k s s' := by
  revert hs
  fun_cases refused s k
  all_goals rintro ⟨⟩
  case case1 left _ _ hg =>
    have hcov := h _ hg
    intro call hcall
    rw [Table.get?_insert_self] at hcall
    cases hcall
    by_cases hl : left = 0
    · subst hl
      exact ⟨trivial, fun _ => Or.inr (hcov.1 rfl)⟩
    · rw [if_neg hl]
      exact ⟨⟨Nat.pos_of_ne_zero hl, hcov.2 hl⟩, nofun⟩

theorem opened_fair (h : Covers k s) {j : Nat} (hs : opened s j = some s') : Fair k s s' := by
  revert hs
  fun_cases opened s j
  all_goals rintro ⟨⟩
  case case1 =>
    by_cases hj : k = j
    · intro call hcall
      rw [hj, Table.get?_insert_self] at hcall
      cases hcall
      exact ⟨trivial, nofun⟩
    · exact h.same rfl rfl (Table.get?_insert_of_ne _ _ hj)

theorem call_fair (h : Covers k s) (j : Nat) :
    Fair k s { s with calls := s.calls.insert j ⟨max 1 s.pool.carriers.length, [], .trying⟩ } := by
  by_cases hj : k = j
  · intro call hcall
    rw [hj, Table.get?_insert_self] at hcall
    cases hcall
    have hl : s.members.length ≤ max 1 s.pool.carriers.length :=
      Nat.le_trans (length_filter_le _ _) (Nat.le_max_right _ _)
    refine ⟨⟨Nat.lt_of_lt_of_le Nat.one_pos (Nat.le_max_left _ _), s.pool.next, ?_⟩, nofun⟩
    exact ⟨Nat.le_trans hl (Nat.le_add_right _ _), fun i h₁ h₂ => absurd h₁ (Nat.not_le.mpr h₂),
      fun hlt => absurd hlt (Nat.lt_irrefl _), Nat.le_refl _⟩
  · exact h.same rfl rfl (Table.get?_insert_of_ne _ _ hj)

theorem attempt_calls {j : Nat} (hs : attempt s j = some s') :
    s.searches j = true ∧ ∀ k, k ≠ j → s'.calls.get? k = s.calls.get? k := by
  revert hs
  fun_cases attempt s j
  all_goals rintro ⟨⟩
  case case1 hg _ _ | case2 hg _ _ _ =>
    rw [State.searches, hg]
    exact ⟨rfl, fun _ hk => Table.get?_insert_of_ne _ _ hk⟩

theorem attempt_eq {j : Nat} (hs : attempt s j = some s') : ∃ calls, s' = { s with pool := (s.pool.pick s.alive).1, calls } := by
  revert hs
  fun_cases attempt s j
  all_goals rintro ⟨⟩
  all_goals
    rename_i hp
    rw [hp]
    exact ⟨_, rfl⟩

theorem refused_calls {j : Nat} (hs : refused s j = some s') (hj : k ≠ j) :
    s'.pool = s.pool ∧ s'.ended = s.ended ∧ s'.calls.get? k = s.calls.get? k := by
  revert hs
  fun_cases refused s j
  all_goals rintro ⟨⟩
  exact ⟨rfl, rfl, Table.get?_insert_of_ne _ _ hj⟩

theorem pick_fair (h : Covers k s) (hn : s.searches k = false) (hp : s'.pool = (s.pool.pick s.alive).1)
    (hc : s'.calls.get? k = s.calls.get? k) : Fair k s s' := by
  refine h.spent hn ?_ hc
  rw [hp, Pool.pick_carriers]
  exact filter_subset_self _

theorem serverEnds_fair (h : Covers k s) {id : Nat} (hok : s.searches k = false ∨ id ∉ s.members) :
    Fair k s { s with ended := id :: s.ended } := by
  rcases hok with hn | hm
  · exact h.spent hn (Subset.refl _) rfl
  · refine h.same rfl (filter_congr fun j hj => ?_) rfl
    have hne : s.alive j = true → j ≠ id := by
      rintro ha rfl
      exact hm (mem_filter.mpr ⟨hj, ha⟩)
    simp only [State.alive, mem_cons, decide_eq_decide, decide_eq_true_eq] at hne ⊢
    tauto

theorem step_fair (h : Covers k s) (hok : undisturbed limit k s a = true) (hs : step limit s a = some s') :
    Fair k s s' := by
  cases a with
  | attempt j =>
    obtain ⟨hsearch, hothers⟩ := attempt_calls hs
    simp only [undisturbed, Bool.or_eq_true, Bool.not_eq_true', decide_eq_true_eq] at hok
    by_cases hj : k = j
    · subst hj
      rw [hsearch] at hok
      exact attempt_fair h (hok.resolve_left nofun).2 hs
    · obtain ⟨calls, rfl⟩ := attempt_eq hs
      exact pick_fair h (hok.resolve_right fun hn => hj hn.1.symm) rfl (hothers k hj)
  | opened j => exact opened_fair h hs
  | refused j =>
    by_cases hj : k = j
    · subst hj
      exact refused_fair h hs
    · obtain ⟨hp, he, hc⟩ := refused_calls hs hj
      exact h.same hp (by rw [State.members, State.members, hp]; unfold State.alive; rw [he]) hc
  | pick =>
    cases hs
    exact pick_fair h (by simpa [undisturbed] using hok) rfl rfl
  | serverEnds id =>
    obtain ⟨-, he⟩ := Option.ite_none_right_eq_some.mp hs
    cases he
    exact serverEnds_fair h (by simpa [undisturbed] using hok)
  | receive =>
    simp only [undisturbed, Bool.or_eq_true, Bool.not_eq_true', decide_eq_true_eq] at hok
    simp only [step] at hs
    split at hs
    all_goals cases hs
    rcases hok with hi | hfull
    · exact fair_of_idle hi rfl
    · have hpool (id : Nat) : s.pool.push id limit = s.pool := if_pos hfull
      exact h.same (hpool _) (by rw [State.members, hpool]; rfl) rfl
  | call j =>
    simp only [step] at hs
    split at hs
    all_goals cases hs
    exact call_fair h j
  | _ =>
    simp only [step] at hs
    repeat' split at hs
    all_goals cases hs
    all_goals exact h.same rfl rfl rfl

/-- The step on which an undisturbed call of `open_with_failover` fails finds
that every carrier of the pool has failed an attempt of that call. -/
theorem failover_tries_every_carrier {extra : Nat} {call call' : Call}
    (hr : Reaches (step limit) (fun s a => undisturbed limit k s a = true) (start extra) s) (hok : undisturbed limit k s a = true)
    (hs : step limit s a = some s') (hcall : s.calls.get? k = some call) (hway : call.stage.underway = true)
    (hcall' : s'.calls.get? k = some call') (hfail : call'.stage = .failed) : ∀ id ∈ s'.pool.carriers, id ∈ call'.tried := by
  have h : Covers k s := hr.invariant (P := Covers k) nofun
    (fun _ _ _ h hok hs call hg => (step_fair h hok hs call hg).1)
  rcases (step_fair h hok hs call' hcall').2 hfail with hg | hall
  · cases hcall.symm.trans hg
    rw [hfail] at hway
    cases hway
  · exact hall

def widened : List Action := [.load, .redial, .dial, .endBatch, .join 1, .receive]

def failingCall : List Action := widened ++ [.call 5, .attempt 5, .refused 5, .attempt 5]

theorem failover_tries_every_carrier_two : ∃ s s' : State,
    Reaches (step 2) (fun s a => undisturbed 2 5 s a = true) (start 1) s ∧ s.calls.get? 5 = some ⟨0, [0], .opening 1⟩ ∧
    step 2 s (.refused 5) = some s' ∧ s'.calls.get? 5 = some ⟨0, [1, 0], .failed⟩ ∧
    ∀ id ∈ s'.pool.carriers, id ∈ [1, 0] := by
  obtain ⟨s, hr, hs⟩ := execWhile_observe failingCall
    (fun s : State => (s.calls.get? 5, (step 2 s (.refused 5)).map (fun s' => s'.calls.get? 5)))
    (show (execWhile (step 2) (undisturbed 2 5) (start 1) failingCall).map _ =
      some (some ⟨0, [0], .opening 1⟩, some (some ⟨0, [1, 0], .failed⟩)) by decide +kernel)
  obtain ⟨hc, hs⟩ := Prod.mk.inj hs
  obtain ⟨s', hs, hc'⟩ := Option.map_eq_some_iff.mp hs
  exact ⟨s, s', hr, hc, hs, hc', failover_tries_every_carrier hr rfl hs hc rfl hc' rfl⟩

/-- Another pick between the two attempts of a call moves the cursor past the
second carrier: the first is tried twice. -/
theorem failover_misses_carrier : ∃ s s' : State, Reaches (step 2) always (start 1) s ∧
    ((s.calls.get? 5).map (·.stage) = some .trying ∧ s.pool.carriers = [0, 1]) ∧
    Reaches (step 2) always s s' ∧ s'.calls.get? 5 = some ⟨0, [0, 0], .failed⟩ ∧ s'.pool.carriers = [0, 1] := by
  obtain ⟨s, s', hr, hs, hr', hs'⟩ := exec_observe_twice (widened ++ [.call 5]) [.attempt 5, .pick, .refused 5, .attempt 5, .refused 5]
    (fun s : State => decide ((s.calls.get? 5).map (·.stage) = some .trying ∧ s.pool.carriers = [0, 1]))
    (fun s : State => decide (s.calls.get? 5 = some ⟨0, [0, 0], .failed⟩ ∧ s.pool.carriers = [0, 1]))
    (show (exec (step 2) (start 1) _).bind (fun t => (execWhile (step 2) (fun _ _ => true) t _).map _) = some (true, true)
      by decide +kernel)
  exact ⟨s, s', hr, of_decide_eq_true hs, hr'.mono (fun _ _ _ => trivial), of_decide_eq_true hs'⟩

end Failover

section Width

/-- No carrier in the pool has lost its connection when another one joins, and a
batch begins with no more than what is missing then. -/
def tended (s : State) : Action → Bool
  | .receive => s.pool.carriers.all (fun id => id ∉ s.down)
  | .redial => s.batch ≠ none || s.missed.all (fun need => s.live.length + need ≤ s.target)
  | _ => true

structure Placed (limit : Nat) (s : State) : Prop where
  nodup : (s.joining ++ s.channel ++ s.pool.carriers).Nodup
  below : ∀ id ∈ s.joining ++ s.channel ++ s.pool.carriers, id < s.nextId
  own : 0 ∈ s.pool.carriers ∧ 0 ∉ s.down
  ended : ∀ id ∈ s.ended, id ∈ s.down
  counted : ∀ id, 0 < id → id < s.nextId → id ∉ s.down →
    id ∈ s.live ∧ (id ∈ s.joining ∨ id ∈ s.channel ∨ id ∈ s.pool.carriers)
  live : s.live.Nodup ∧ ∀ id ∈ s.live, 0 < id ∧ id < s.nextId
  bounded : s.live.length + s.batch.getD 0 < limit ∧ s.target < limit

section

variable (h : Placed limit s)
include h

theorem Placed.pick {calls : Table Nat Call} :
    Placed limit { s with pool := (s.pool.pick s.alive).1, calls } := by
  have hsub : (s.pool.pick s.alive).1.carriers.Sublist s.pool.carriers := Pool.pick_carriers _ _ ▸ filter_sublist
  have hkeep : ∀ id, id ∉ s.down → id ∈ s.pool.carriers → id ∈ (s.pool.pick s.alive).1.carriers := by
    intro id hd hid
    rw [Pool.pick_carriers, mem_filter, State.alive, decide_eq_true_eq]
    exact ⟨hid, fun he => hd (h.ended id he)⟩
  refine { h with nodup := ?_, below := ?_, own := ?_, counted := ?_ }
  · exact h.nodup.sublist (hsub.append_left _)
  · exact fun id hid => h.below id ((hsub.append_left _).subset hid)
  · exact ⟨hkeep 0 h.own.2 h.own.1, h.own.2⟩
  · intro id h0 hlt hd
    obtain ⟨hl, hp⟩ := h.counted id h0 hlt hd
    exact ⟨hl, hp.imp_right (Or.imp_right (hkeep id hd))⟩

theorem Placed.dial {need : Nat} (hb : s.batch = some (need + 1)) : Placed limit { s with
      batch := some need, nextId := s.nextId + 1, joining := s.nextId :: s.joining, live := s.nextId :: s.live } := by
  have hpos : 0 < s.nextId := h.below 0 (mem_append_right _ h.own.1)
  refine { h with nodup := ?_, below := ?_, counted := ?_, live := ?_, bounded := ?_ }
  · exact nodup_cons.mpr ⟨fun hm => Nat.lt_irrefl _ (h.below _ hm), h.nodup⟩
  · rintro id (_ | ⟨_, hm⟩)
    · exact Nat.lt_succ_self _
    · exact Nat.lt_succ_of_lt (h.below id hm)
  · intro id h0 hlt hd
    rcases Nat.lt_succ_iff_lt_or_eq.mp hlt with hlt | rfl
    · obtain ⟨hl, hp⟩ := h.counted id h0 hlt hd
      exact ⟨mem_cons_of_mem _ hl, hp.imp_left (mem_cons_of_mem _)⟩
    · exact ⟨mem_cons_self, Or.inl mem_cons_self⟩
  · refine ⟨nodup_cons.mpr ⟨fun hm => Nat.lt_irrefl _ (h.live.2 _ hm).2, h.live.1⟩, ?_⟩
    rintro id (_ | ⟨_, hm⟩)
    · exact ⟨hpos, Nat.lt_succ_self _⟩
    · exact ⟨(h.live.2 id hm).1, Nat.lt_succ_of_lt (h.live.2 id hm).2⟩
  · obtain ⟨hb', ht⟩ := h.bounded
    rw [hb] at hb'
    simp only [length_cons, Option.getD_some] at hb' ⊢
    exact ⟨by omega, ht⟩

theorem Placed.join {id : Nat} (hid : id ∈ s.joining) :
    Placed limit { s with joining := s.joining.erase id, channel := s.channel ++ [id] } := by
  have hperm : (s.joining.erase id ++ (s.channel ++ [id]) ++ s.pool.carriers).Perm (s.joining ++ s.channel ++ s.pool.carriers) := by
    refine List.Perm.append_right _ ?_
    rw [← append_assoc]
    refine (perm_append_singleton _ _).trans ?_
    exact ((perm_cons_erase hid).symm.append_right _)
  refine { h with nodup := hperm.nodup_iff.mpr h.nodup, below := fun j hj => h.below j (hperm.mem_iff.mp hj), counted := ?_ }
  intro j h0 hlt hd
  obtain ⟨hl, hp⟩ := h.counted j h0 hlt hd
  refine ⟨hl, ?_⟩
  by_cases he : j = id
  · exact Or.inr (Or.inl (mem_append_right _ (mem_singleton.mpr he)))
  · exact hp.imp (fun hm => (mem_erase_of_ne he).mpr hm) (Or.imp_left (mem_append_left _))

theorem Placed.room {id : Nat} {rest : List Nat} (hc : s.channel = id :: rest)
    (hup : ∀ j ∈ s.pool.carriers, j ∉ s.down) (hid : id ∉ s.down) : s.pool.carriers.length < limit := by
  have hn := h.nodup
  rw [hc, append_assoc] at hn
  have hnew : (id :: s.pool.carriers).Nodup :=
    (nodup_append.mp hn).2.1.sublist ((sublist_append_right rest _).cons_cons id)
  have hlt : ∀ j ∈ id :: s.pool.carriers, j < s.nextId := by
    intro j hj
    refine h.below j ?_
    rw [hc]
    rcases mem_cons.mp hj with rfl | hj
    · simp
    · exact mem_append_right _ hj
  have hsub : id :: s.pool.carriers ⊆ 0 :: s.live := by
    intro j hj
    rcases Nat.eq_zero_or_pos j with rfl | h0
    · exact mem_cons_self
    refine mem_cons_of_mem _ (h.counted j h0 (hlt j hj) ?_).1
    rcases mem_cons.mp hj with rfl | hj
    · exact hid
    · exact hup j hj
  have hle := (hnew.subperm hsub).length_le
  have hb := h.bounded.1
  simp only [length_cons] at hle
  omega

theorem Placed.receive {id : Nat} {rest : List Nat} (hc : s.channel = id :: rest)
    (hup : ∀ j ∈ s.pool.carriers, j ∉ s.down) :
    Placed limit { s with channel := rest, pool := s.pool.push id limit } := by
  have hn := h.nodup
  have hb := h.below
  rw [hc] at hn hb
  by_cases hfull : limit ≤ s.pool.carriers.length
  · rw [Pool.push, if_pos hfull]
    have hsub : (s.joining ++ rest ++ s.pool.carriers).Sublist (s.joining ++ id :: rest ++ s.pool.carriers) :=
      ((sublist_cons_self id rest).append_left _).append_right _
    refine { h with nodup := hn.sublist hsub, below := fun j hj => hb j (hsub.subset hj), counted := ?_ }
    intro j h0 hlt hd
    obtain ⟨hl, hp⟩ := h.counted j h0 hlt hd
    refine ⟨hl, hp.imp_right (Or.imp_left (fun hm => ?_))⟩
    rw [hc] at hm
    rcases mem_cons.mp hm with rfl | hm
    · exact absurd hfull (Nat.not_le.mpr (h.room hc hup hd))
    · exact hm
  rw [Pool.push, if_neg hfull]
  have hperm : (s.joining ++ rest ++ (s.pool.carriers ++ [id])).Perm (s.joining ++ id :: rest ++ s.pool.carriers) := by
    rw [← append_assoc]
    refine (perm_append_singleton _ _).trans ?_
    exact (perm_middle.symm.append_right _)
  refine { h with
    nodup := hperm.nodup_iff.mpr hn, below := fun j hj => hb j (hperm.mem_iff.mp hj)
    own := ⟨mem_append_left _ h.own.1, h.own.2⟩, counted := ?_ }
  intro j h0 hlt hd
  obtain ⟨hl, hp⟩ := h.counted j h0 hlt hd
  rw [hc, mem_cons] at hp
  refine ⟨hl, ?_⟩
  rcases hp with hp | (rfl | hp) | hp
  · exact Or.inl hp
  · exact Or.inr (Or.inr (mem_append_right _ (mem_singleton_self _)))
  · exact Or.inr (Or.inl hp)
  · exact Or.inr (Or.inr (mem_append_left _ hp))

end

theorem Placed.step (h : Placed limit s) (hok : tended s a = true) (hs : step limit s a = some s') : Placed limit s' := by
  revert hs
  fun_cases CarrierPool.step limit s a
  case case24 =>
    intro hs
    obtain ⟨calls, rfl⟩ := attempt_eq hs
    exact h.pick
  case case25 j =>
    fun_cases opened s j
    all_goals rintro ⟨⟩
    exact { h with }
  case case26 j =>
    fun_cases refused s j
    all_goals rintro ⟨⟩
    exact { h with }
  all_goals rintro ⟨⟩
  · exact { h with }
  · rename_i need hm
    refine { h with bounded := ⟨?_, h.bounded.2⟩ }
    obtain ⟨hb, ht⟩ := h.bounded
    simp only [tended, hm, Option.all_some] at hok
    cases hbatch : s.batch with
    | none =>
      have hle : s.live.length + need ≤ s.target := by simpa [hbatch] using hok
      simpa [hbatch] using Nat.lt_of_le_of_lt hle ht
    | some => simpa [hbatch] using hb
  · exact h.dial ‹_›
  · refine { h with bounded := ⟨?_, h.bounded.2⟩ }
    exact Nat.lt_of_le_of_lt (Nat.le_add_right _ _) h.bounded.1
  · exact { h with bounded := ⟨h.bounded.1, by simp only; omega⟩ }
  · exact h.join ‹_›
  · refine h.receive ‹_› (fun j hj => ?_)
    exact of_decide_eq_true (all_eq_true.mp hok j hj)
  · rename_i hid
    refine { h with own := ⟨h.own.1, ?_⟩, ended := ?_, counted := ?_ }
    · rintro (_ | ⟨_, hd⟩)
      · exact absurd hid.1 (Nat.lt_irrefl 0)
      · exact h.own.2 hd
    · exact fun j hj => mem_cons_of_mem _ (h.ended j hj)
    · exact fun j h0 hlt hd => h.counted j h0 hlt (fun hm => hd (mem_cons_of_mem _ hm))
  · rename_i hid
    refine { h with ended := ?_ }
    rintro j (_ | ⟨_, hj⟩)
    · exact hid.1
    · exact h.ended j hj
  · rename_i id hid
    refine { h with counted := ?_, live := ?_, bounded := ⟨?_, h.bounded.2⟩ }
    · intro j h0 hlt hd
      obtain ⟨hl, hp⟩ := h.counted j h0 hlt hd
      refine ⟨(mem_erase_of_ne ?_).mpr hl, hp⟩
      rintro rfl
      exact hd hid
    · exact ⟨h.live.1.erase id, fun j hj => h.live.2 j (mem_of_mem_erase hj)⟩
    · exact Nat.lt_of_le_of_lt (Nat.add_le_add_right (erase_sublist.length_le) _) h.bounded.1
  · exact h.pick
  · exact { h with }

/-- The handler has taken up every connection that has not dropped, and the
client has replaced every carrier whose connection dropped. -/
def Replaced (s : State) : Prop :=
  (∀ id ∈ s.joining ++ s.channel, id ∈ s.down) ∧ (∀ id ∈ s.live, id ∉ s.down) ∧ s.target ≤ s.live.length

instance (s : State) : Decidable (Replaced s) := inferInstanceAs (Decidable (_ ∧ _ ∧ _))

/-- A carrier that joins while there is room for a live one is added, and once
the client has replaced what dropped the pool has its full width again. -/
theorem pool_returns_to_width {extra : Nat} (hl : extra < limit)
    (hr : Reaches (step limit) (fun s a => tended s a = true) (start extra) s) :
    (∀ id rest, s.channel = id :: rest → tended s .receive = true →
      (s.pool.carriers.filter s.alive).length < limit → id ∈ (s.pool.push id limit).carriers) ∧
    (Replaced s → s.target + 1 ≤ (s.pool.carriers.filter (fun id => id ∉ s.down)).length) := by
  have h : Placed limit s := by
    refine hr.invariant (P := Placed limit) ?_ (fun _ _ _ h hok hs => h.step hok hs)
    have hone : ∀ id, 0 < id → id < 1 → False := fun id h0 h1 => by omega
    exact ⟨nodup_singleton 0, by simp [start], by simp [start], nofun, fun id h0 h1 => (hone id h0 h1).elim,
      ⟨nodup_nil, nofun⟩, Nat.lt_of_le_of_lt (Nat.zero_le _) hl, hl⟩
  refine ⟨fun id rest _ hp hlen => ?_, fun ⟨hj, hup, ht⟩ => ?_⟩
  · have hall : s.pool.carriers.filter s.alive = s.pool.carriers := by
      refine filter_eq_self.mpr (fun j hj => decide_eq_true (fun he => ?_))
      exact of_decide_eq_true (all_eq_true.mp hp j hj) (h.ended j he)
    rw [hall] at hlen
    rw [Pool.push, if_neg (Nat.not_le.mpr hlen)]
    exact mem_append_right _ (mem_singleton_self id)
  · have hnew : (0 :: s.live).Nodup :=
      nodup_cons.mpr ⟨fun hm => Nat.lt_irrefl 0 (h.live.2 0 hm).1, h.live.1⟩
    have hsub : 0 :: s.live ⊆ s.pool.carriers.filter (fun id => id ∉ s.down) := by
      intro id hid
      rw [mem_filter, decide_eq_true_eq]
      rcases mem_cons.mp hid with rfl | hid
      · exact h.own
      · obtain ⟨-, hm⟩ := h.counted id (h.live.2 id hid).1 (h.live.2 id hid).2 (hup id hid)
        rw [← or_assoc, ← mem_append] at hm
        exact ⟨hm.resolve_left (fun h => hup id hid (hj id h)), hup id hid⟩
    exact Nat.le_trans (Nat.succ_le_succ ht) (hnew.subperm hsub).length_le

def replacement : List Action :=
  widened ++ [.cut 1, .serverEnds 1, .pick, .clientEnds 1, .load, .redial, .dial, .endBatch, .join 2, .receive]

theorem pool_returns_to_width_replacement : ∃ s : State,
    Reaches (step 2) (fun s a => tended s a = true) (start 1) s ∧ Replaced s ∧ s.target = 1 ∧
    s.target + 1 ≤ (s.pool.carriers.filter (fun id => id ∉ s.down)).length := by
  obtain ⟨s, hr, hs⟩ := execWhile_observe replacement (fun s : State => decide (Replaced s ∧ s.target = 1))
    (show (execWhile (step 2) tended (start 1) replacement).map _ = some true by decide +kernel)
  obtain ⟨hrep, ht⟩ := of_decide_eq_true hs
  exact ⟨s, hr, hrep, ht, (pool_returns_to_width (by decide) hr).2 hrep⟩

/-- The client has replaced what dropped and the pool stays narrow, in a run whose
other actions than the one spared are all tended. -/
def Narrows (spared : Action) : Prop := ∃ s : State,
  Reaches (step 2) (fun s a => (a = spared || tended s a) = true) (start 1) s ∧
    Replaced s ∧ s.target = 1 ∧ s.pool.carriers = [0]

theorem narrows_of_run {spared : Action} (actions : List Action)
    (h : (execWhile (step 2) (fun s a => a = spared || tended s a) (start 1) actions).map
      (fun s : State => decide (Replaced s ∧ s.target = 1 ∧ s.pool.carriers = [0])) = some true) : Narrows spared := by
  obtain ⟨s, hr, hs⟩ := execWhile_observe _ _ h
  exact ⟨s, hr, of_decide_eq_true hs⟩

/-- No pick happens between the death of the second carrier and the join of its
replacement, which the full pool refuses, and the client counts its own as live.
Or a first batch dials between the count and the swap of a second one; the pool
refuses the carrier too many, and the client counts it when the other one dies. -/
theorem replacement_is_refused : Narrows .receive ∧ Narrows .redial :=
  ⟨narrows_of_run (widened ++ [.cut 1, .serverEnds 1, .clientEnds 1, .load, .redial, .dial, .endBatch, .join 2, .receive,
      .pick]) (by decide +kernel),
    narrows_of_run [.load, .redial, .load, .dial, .endBatch, .redial, .dial, .endBatch, .join 1, .receive, .join 2, .receive,
      .cut 1, .serverEnds 1, .clientEnds 1, .pick] (by decide +kernel)⟩

end Width

end Bore.CarrierPool
