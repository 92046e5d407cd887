import Bore.Runs

namespace Bore.DownloadOutcome

open Runs Function

inductive SourceTerminal
  | complete
  | failed
  deriving DecidableEq

inductive OneShotStatus
  | streaming
  | consumed
  | failed
  deriving DecidableEq

/-- What a call on the outcome does next; `ok` says that the connection
succeeded. -/
inductive Call
  | setSource (terminal : SourceTerminal)
  | setConnection (ok : Bool)
  | readSource
  | readConnection (source : Option SourceTerminal)
  | exchange (success : Bool)
  | settle (success : Bool)
  | returned
  deriving DecidableEq

/-- `asked` and `answered` are the results of the calls that were made, `sources`
and `connections` those results in the order in which the calls took the lock.
`finals` has the verdicts that were carried out, `writer` and `winner` are the calls
that were the last to write and to win the exchange. -/
structure Outcome where
  source : Option SourceTerminal
  connection : Option Bool
  finalized : Bool
  oneshot : OneShotStatus
  calls : Nat → Call
  asked : List SourceTerminal
  answered : List Bool
  sources : List SourceTerminal
  connections : List Bool
  finals : List Bool
  writer : Nat
  winner : Nat

/-- The decision of `try_finalize`, `none` where it returns. -/
def verdict : Option SourceTerminal → Option Bool → Option Bool
  | _, none => none
  | _, some false => some false
  | none, some true => none
  | some terminal, some true => some (terminal = .complete)

inductive Action
  | setSource (i : Nat) (terminal : SourceTerminal)
  | setConnection (i : Nat) (ok : Bool)
  | advance (i : Nat)

def advance (s : Outcome) (i : Nat) : Call → Option Outcome
  | .setSource terminal =>
    some { s with
      source := if s.source = none then some terminal else s.source
      sources := s.sources ++ [terminal]
      writer := i
      calls := update s.calls i .readSource }
  | .setConnection ok =>
    some { s with
      connection := if s.connection = none then some ok else s.connection
      connections := s.connections ++ [ok]
      writer := i
      calls := update s.calls i .readSource }
  | .readSource => some { s with calls := update s.calls i (.readConnection s.source) }
  | .readConnection source =>
    match verdict source s.connection with
    | none => some { s with calls := update s.calls i .returned }
    | some success => some { s with calls := update s.calls i (.exchange success) }
  | .exchange success =>
    if s.finalized then some { s with calls := update s.calls i .returned }
    else some { s with
      finalized := true
      finals := s.finals ++ [success]
      winner := i
      calls := update s.calls i (.settle success) }
  | .settle success =>
    some { s with
      oneshot := if success then .consumed else .failed
      calls := update s.calls i .returned }
  | .returned => none

def step (s : Outcome) : Action → Option Outcome
  | .setSource i terminal =>
    if s.calls i = .returned then
      some { s with asked := terminal :: s.asked, calls := update s.calls i (.setSource terminal) }
    else none
  | .setConnection i ok =>
    if s.calls i = .returned then
      some { s with answered := ok :: s.answered, calls := update s.calls i (.setConnection ok) }
    else none
  | .advance i => advance s i (s.calls i)

def start : Outcome := ⟨none, none, false, .streaming, fun _ => .returned, [], [], [], [], [], 0, 0⟩

def status (success : Bool) : OneShotStatus := if success then .consumed else .failed

def finds (connection : Option Bool) : Call → Prop
  | .readSource => True
  | .readConnection source => verdict source connection ≠ none
  | .exchange _ => True
  | _ => False

structure Inv (s : Outcome) : Prop where
  source : s.source = s.sources.head?
  connection : s.connection = s.connections.head?
  read : ∀ i source, s.calls i = .readConnection source → source = none ∨ s.source = source
  exchange : ∀ i success, s.calls i = .exchange success → verdict s.source s.connection = some success
  settle : ∀ i success, s.calls i = .settle success → s.finals = [success]
  unmade : s.finalized = false → s.finals = [] ∧ s.oneshot = .streaming
  made : s.finalized = true → ∃ success, s.finals = [success] ∧ verdict s.source s.connection = some success ∧
    (s.oneshot = status success ∨ s.oneshot = .streaming ∧ s.calls s.winner = .settle success)
  found : verdict s.source s.connection ≠ none → s.finalized = true ∨ finds s.connection (s.calls s.writer)

theorem head?_concat {α : Type} [DecidableEq α] (xs : List α) (x : α) :
    (xs ++ [x]).head? = if xs.head? = none then some x else xs.head? := by
  cases xs <;> rfl

theorem verdict_of_decisive {source : Option SourceTerminal} {connection : Option Bool}
    (h : connection = some false ∨ connection ≠ none ∧ source ≠ none) :
    verdict source connection = some (decide (source = some .complete ∧ connection = some true)) := by
  revert h
  fun_cases verdict source connection <;> simp

theorem verdict_stable {source source' : Option SourceTerminal} {connection connection' : Option Bool} {success : Bool}
    (h : verdict source connection = some success) (hs : source = none ∨ source' = source)
    (hc : connection = none ∨ connection' = connection) : verdict source' connection' = some success := by
  revert h
  fun_cases verdict source connection <;> grind [verdict]

theorem inv_step {s s' : Outcome} {a : Action} (h : Inv s) (hs : step s a = some s') : Inv s' := by
  cases h
  revert hs
  fun_cases step s a
  case case1 | case3 =>
    rintro ⟨⟩
    constructor <;> grind -ring -linarith [update_apply, finds]
  case case5 i =>
    generalize hc : s.calls i = c
    fun_cases advance s i c
    all_goals rintro ⟨⟩
    -- a first write keeps every verdict that was found, and its call comes to find one
    case case1 | case2 => constructor <;> grind -ring -linarith [update_apply, verdict_stable, finds, head?_concat]
    case case3 | case4 | case5 => constructor <;> grind -ring -linarith [update_apply, verdict_stable, finds]
    case case6 | case7 | case8 => constructor <;> grind -ring -linarith [update_apply, finds, status]
  all_goals rintro ⟨⟩

section Calls

def left : Call → Nat
  | .setSource _ | .setConnection _ => 5
  | .readSource => 4
  | .readConnection _ => 3
  | .exchange _ => 2
  | .settle _ => 1
  | .returned => 0

/-- What one step of a call does to the others and to the results. -/
structure Advanced (s s' : Outcome) (i : Nat) : Prop where
  others : ∀ j ≠ i, s'.calls j = s.calls j
  left : left (s'.calls i) < left (s.calls i)
  asked : s'.asked = s.asked ∧ s'.answered = s.answered
  sources : s.sources ⊆ s'.sources ∧ ∀ terminal, s.calls i = .setSource terminal → terminal ∈ s'.sources
  connections : s.connections ⊆ s'.connections ∧ ∀ ok, s.calls i = .setConnection ok → ok ∈ s'.connections

theorem advanced {s : Outcome} {i : Nat} (hi : s.calls i ≠ .returned) :
    ∃ s', step s (.advance i) = some s' ∧ Advanced s s' i := by
  rw [step]
  generalize hc : s.calls i = c at hi
  fun_cases advance s i c
  all_goals first | exact absurd rfl hi | refine ⟨_, rfl, ?_⟩
  all_goals constructor
  all_goals simp_all [left]

/-- The result of every call that was made is stored, or the call is yet to. -/
structure Stored (s : Outcome) : Prop where
  asked : ∀ terminal ∈ s.asked, terminal ∈ s.sources ∨ ∃ i, s.calls i = .setSource terminal
  answered : ∀ ok ∈ s.answered, ok ∈ s.connections ∨ ∃ i, s.calls i = .setConnection ok

theorem stored_step {s s' : Outcome} {a : Action} (h : Stored s) (hs : step s a = some s') : Stored s' := by
  have hkeep {i j : Nat} {c c' : Call} (hi : s.calls i = .returned) (hj : s.calls j = c) (hc : c ≠ .returned) :
      update s.calls i c' j = c := by
    rw [update_of_ne, hj]
    rintro rfl
    exact hc (hj.symm.trans hi)
  cases a with
  | setSource i terminal =>
    obtain ⟨hi, hs⟩ := Option.ite_none_right_eq_some.mp hs
    cases hs
    refine ⟨List.forall_mem_cons.mpr ⟨.inr ⟨i, update_self ..⟩, fun t ht => ?_⟩, fun ok hok => ?_⟩
    · exact (h.asked t ht).imp_right fun ⟨j, hj⟩ => ⟨j, hkeep hi hj nofun⟩
    · exact (h.answered ok hok).imp_right fun ⟨j, hj⟩ => ⟨j, hkeep hi hj nofun⟩
  | setConnection i ok =>
    obtain ⟨hi, hs⟩ := Option.ite_none_right_eq_some.mp hs
    cases hs
    refine ⟨fun t ht => ?_, List.forall_mem_cons.mpr ⟨.inr ⟨i, update_self ..⟩, fun ok hok => ?_⟩⟩
    · exact (h.asked t ht).imp_right fun ⟨j, hj⟩ => ⟨j, hkeep hi hj nofun⟩
    · exact (h.answered ok hok).imp_right fun ⟨j, hj⟩ => ⟨j, hkeep hi hj nofun⟩
  | advance i =>
    have hi : s.calls i ≠ .returned := fun hi => by simp [step, hi, advance] at hs
    obtain ⟨t, ht, hadvanced⟩ := advanced hi
    cases hs.symm.trans ht
    refine ⟨fun terminal hm => ?_, fun ok hm => ?_⟩
    · rcases h.asked terminal (hadvanced.asked.1 ▸ hm) with hm | ⟨j, hj⟩
      · exact .inl (hadvanced.sources.1 hm)
      · by_cases hji : j = i
        · exact .inl (hadvanced.sources.2 terminal (hji ▸ hj))
        · exact .inr ⟨j, (hadvanced.others j hji).trans hj⟩
    · rcases h.answered ok (hadvanced.asked.2 ▸ hm) with hm | ⟨j, hj⟩
      · exact .inl (hadvanced.connections.1 hm)
      · by_cases hji : j = i
        · exact .inl (hadvanced.connections.2 ok (hji ▸ hj))
        · exact .inr ⟨j, (hadvanced.others j hji).trans hj⟩

end Calls

/-- Finalized at most once and only with a connection result. A call that has not
returned can take one of its at most five steps, and once all have returned and
the calls made are decisive, the outcome is finalized, with the one-shot source in
the state that the first results call for. -/
theorem outcome_is_single {s : Outcome} (hr : Reaches step always start s) :
    s.finals.length ≤ 1 ∧ (s.finals ≠ [] → s.connection ≠ none) ∧ (s.oneshot = .streaming ∨ s.finals ≠ []) ∧
    s.source = s.sources.head? ∧ s.connection = s.connections.head? ∧
    (∀ i, s.calls i ≠ .returned → ∃ s', step s (.advance i) = some s' ∧ left (s'.calls i) < left (s.calls i) ∧
      ∀ j ≠ i, s'.calls j = s.calls j) ∧
    ((∀ i, s.calls i = .returned) →
      s.asked ⊆ s.sources ∧ s.answered ⊆ s.connections ∧
      (s.connection = some false ∨ s.answered ≠ [] ∧ s.asked ≠ [] → s.finals.length = 1 ∧ s.oneshot =
        if s.source = some .complete ∧ s.connection = some true then .consumed else .failed)) := by
  have h : Inv s ∧ Stored s := by
    refine hr.invariant (P := fun s => Inv s ∧ Stored s) ?_ fun _ _ _ h _ hs => ⟨inv_step h.1 hs, stored_step h.2 hs⟩
    constructor <;> constructor <;> simp [start, verdict]
  obtain ⟨⟨hsource, hconnection, -, -, -, hunmade, hmade, hfound⟩, hasked, hanswered⟩ := h
  have hone : s.finals.length ≤ 1 ∧ (s.finals ≠ [] → s.connection ≠ none) ∧ (s.oneshot = .streaming ∨ s.finals ≠ []) := by
    revert hunmade hmade hfound
    fun_cases verdict s.source s.connection <;> cases s.finalized <;> grind [status]
  refine ⟨hone.1, hone.2.1, hone.2.2, hsource, hconnection, fun i hi => ?_, fun hreturned => ?_⟩
  · obtain ⟨s', hs, hadvanced⟩ := advanced hi
    exact ⟨s', hs, hadvanced.left, hadvanced.others⟩
  · have hsources : s.asked ⊆ s.sources := fun terminal hm =>
      (hasked terminal hm).resolve_right fun ⟨i, hi⟩ => by simp [hreturned] at hi
    have hconnections : s.answered ⊆ s.connections := fun ok hm =>
      (hanswered ok hm).resolve_right fun ⟨i, hi⟩ => by simp [hreturned] at hi
    refine ⟨hsources, hconnections, fun hdecisive => ?_⟩
    have hboth : s.connection = some false ∨ s.connection ≠ none ∧ s.source ≠ none := by
      refine hdecisive.imp_right fun ⟨hanswers, hasks⟩ => ?_
      rw [hsource, hconnection, ne_eq, ne_eq, List.head?_eq_none_iff, List.head?_eq_none_iff]
      exact ⟨fun hn => hanswers (List.subset_nil.mp (hn ▸ hconnections)),
        fun hn => hasks (List.subset_nil.mp (hn ▸ hsources))⟩
    have hverdict := verdict_of_decisive hboth
    have hfinalized : s.finalized = true :=
      (hfound (by simp [hverdict])).resolve_right fun hfinds => by simp [finds, hreturned] at hfinds
    obtain ⟨success, hfinals, hsuccess, hshot⟩ := hmade hfinalized
    rw [hshot.resolve_right fun hwins => by simp [hreturned] at hwins, hfinals]
    cases hverdict.symm.trans hsuccess
    simp [status]

theorem outcome_is_single_raced : ∃ s : Outcome, Reaches step always start s ∧ (∀ i, s.calls i = .returned) ∧
    (s.asked, s.answered) = ([.complete], [false]) ∧ s.finals.length = 1 ∧ s.oneshot = .failed := by
  let raced : List Action := [.setSource 0 .complete, .setConnection 1 false, .advance 0, .advance 0, .advance 1,
    .advance 0, .advance 1, .advance 1, .advance 1, .advance 1, .advance 0]
  have hreturned : ∃ s, exec step start raced = some s ∧ (∀ i, s.calls i = .returned) ∧
      (s.asked, s.answered, s.connection) = ([.complete], [false], some false) := by
    refine ⟨_, rfl, fun i => ?_, rfl⟩
    simp only [update_apply]
    split_ifs <;> rfl
  obtain ⟨s, hs, hi, hcalls⟩ := hreturned
  simp only [Prod.mk.injEq] at hcalls
  have hr := exec_reaches raced hs
  obtain ⟨-, -, -, -, -, -, hquiet⟩ := outcome_is_single hr
  have hover := (hquiet hi).2.2 (.inl hcalls.2.2)
  refine ⟨s, hr, hi, ?_, hover.1, hover.2.trans ?_⟩
  · rw [hcalls.1, hcalls.2.1]
  · simp [hcalls.2.2]

end Bore.DownloadOutcome
