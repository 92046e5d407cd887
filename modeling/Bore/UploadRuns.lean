import Bore.UploadSteps

namespace Bore.Upload

open Frames List Option

namespace Memory

/-- The table names live records, every run and every abort controller belongs
to its record, and a run that acts belongs to the attempt that its record is
sending. -/
structure Owned (m : Memory) : Prop where
  transfers : ∀ transferId address, m.transfers.get? transferId = some address →
    ∃ record, m.records[address]? = some record ∧ record.transferId = transferId ∧ record.aborted = false
  homes : ∀ (id : RunId) run, m.runs[id]? = some run → ∃ record, m.records[run.address]? = some record
  controllers : ∀ (address : Address) record id, m.records[address]? = some record → record.attemptAbort = some id →
    ∃ run, m.runs[id]? = some run ∧ run.address = address
  transferId : ∀ (id : RunId) run record, m.runs[id]? = some run → m.records[run.address]? = some record →
    run.key.transferId = record.transferId
  live : ∀ (id : RunId) run record, m.runs[id]? = some run → m.records[run.address]? = some record →
    run.acts = true → record.aborted = false
  current : ∀ (id : RunId) run record, m.runs[id]? = some run → m.records[run.address]? = some record →
    run.acts = true → record.attemptAbort = some id ∧ record.state = .sending ∧ run.key.attemptId = record.attemptId

section Frame

variable {m : Memory} {transferId : TransferId} {address : Address} {record record' : Record} {id : RunId}

theorem tracked_eq_some_iff : m.tracked transferId = some (address, record) ↔
    m.transfers.get? transferId = some address ∧ m.records[address]? = some record := by
  unfold tracked
  split
  · rename_i h
    simp [h]
  rename_i h
  simp only [h, map_eq_some_iff, Prod.mk.injEq, some.injEq]
  constructor
  · rintro ⟨_, hr, rfl, rfl⟩
    exact ⟨rfl, hr⟩
  · rintro ⟨rfl, hr⟩
    exact ⟨record, hr, rfl, rfl⟩

theorem Owned.labelled (h : m.Owned) : m.Labelled := by
  intro transferId address record ht
  obtain ⟨hget, hrec⟩ := tracked_eq_some_iff.mp ht
  obtain ⟨record', hrec', hid, _⟩ := h.transfers _ _ hget
  rw [hrec] at hrec'
  cases hrec'
  exact hid

variable {α : Type} {xs : List α} {i : Nat} {x : α}

theorem getElem?_set_of_some (h : xs[i]? = some x) (y : α) (j : Nat) :
    (xs.set i y)[j]? = if j = i then some y else xs[j]? := by
  obtain ⟨hi, _⟩ := List.getElem?_eq_some_iff.mp h
  rw [getElem?_set]
  by_cases hj : i = j
  · subst hj
    simp [hi]
  · rw [if_neg hj, if_neg (Ne.symm hj)]

theorem getElem?_concat_eq (xs : List α) (x : α) (i : Nat) :
    (xs ++ [x])[i]? = if i = xs.length then some x else xs[i]? := by
  rcases Nat.lt_trichotomy i xs.length with hi | rfl | hi
  · rw [getElem?_append_left hi, if_neg (Nat.ne_of_lt hi)]
  · rw [getElem?_concat_length, if_pos rfl]
  · rw [if_neg (Nat.ne_of_gt hi), getElem?_eq_none (Nat.le_of_lt hi), getElem?_eq_none (by simpa using hi)]

theorem runs_abortAttempt (m : Memory) (record : Record) (id : RunId) :
    (m.abortAttempt record).runs[id]? = (m.runs[id]?).map
      (fun run => if record.attemptAbort = some id then { run with aborted := true } else run) := by
  unfold abortAttempt
  cases h : record.attemptAbort with
  | none => simp
  | some =>
    rw [getElem?_modify]
    simp only [Option.some.injEq, Option.map_eq_map]

theorem records_abortAttempt (m : Memory) (record : Record) : (m.abortAttempt record).records = m.records := by
  unfold abortAttempt
  split <;> rfl

theorem log_abortAttempt (m : Memory) (record : Record) : (m.abortAttempt record).log = m.log := by
  unfold abortAttempt
  split <;> rfl

theorem transfers_handled (cut : Bool) : (m.handled cut address record record').transfers = m.transfers := by
  unfold handled
  split
  · unfold abortAttempt
    split <;> rfl
  · rfl

theorem log_handled (cut : Bool) : (m.handled cut address record record').log = m.log := by
  unfold handled
  split
  · exact log_abortAttempt m record
  · rfl

theorem records_handled (cut : Bool) :
    (m.handled cut address record record').records = m.records.set address record' := by
  unfold handled setRecord
  split
  · rw [records_abortAttempt]
  · rfl

theorem runs_handled (cut : Bool) (id : RunId) : (m.handled cut address record record').runs[id]? =
    (m.runs[id]?).map (fun run => if cut = true ∧ record.attemptAbort = some id then { run with aborted := true } else run) := by
  unfold handled setRecord
  cases cut with
  | false => simp
  | true => simpa using runs_abortAttempt m record id

end Frame

section Owned

variable {registered : Incoming → Prop} {m m' : Memory}

theorem acts_eq_true_iff {run : Run} : run.acts = true ↔ run.aborted = false ∧ run.point ≠ .ended := by
  simp [Run.acts]

variable {record : Record}

theorem owned_handled (h : m.Owned) {transferId : TransferId} {address : Address} {record' : Record}
    {cut : Bool} (ht : m.tracked transferId = some (address, record)) (hh : Handles cut record record') :
    (m.handled cut address record record').Owned := by
  obtain ⟨hget, hrec⟩ := tracked_eq_some_iff.mp ht
  obtain ⟨hnamed, hhomes, hcontrollers, hids, hlive, hcurrent⟩ := h
  cases hh
  constructor
  all_goals simp only [transfers_handled, records_handled, runs_handled, getElem?_set_of_some hrec, map_eq_some_iff]
  all_goals grind [acts_eq_true_iff]

theorem owned_beginSend (h : m.Owned) (transferId : TransferId) (resumeRanges : List Range) :
    (m.beginSend transferId resumeRanges).Owned := by
  unfold beginSend
  split
  · exact h
  rename_i ht
  split
  · exact h
  obtain ⟨hget, hrec⟩ := tracked_eq_some_iff.mp ht
  obtain ⟨hnamed, hhomes, hcontrollers, hids, hlive, hcurrent⟩ := h
  constructor
  all_goals simp only [setRecord, getElem?_set_of_some hrec, getElem?_concat_eq]
  case controllers =>
    intros
    split <;> grind
  all_goals grind [acts_eq_true_iff]

theorem owned_forget (h : m.Owned) (transferId : TransferId) : (m.forget transferId).Owned := by
  unfold forget
  split
  · exact h
  rename_i address record ht
  obtain ⟨hget, hrec⟩ := tracked_eq_some_iff.mp ht
  obtain ⟨hnamed, hhomes, hcontrollers, hids, hlive, hcurrent⟩ := h
  constructor
  all_goals simp only [setRecord, runs_abortAttempt, records_abortAttempt, getElem?_set_of_some hrec,
    Table.get?_erase, map_eq_some_iff]
  all_goals grind [acts_eq_true_iff]

theorem owned_register (h : m.Owned) (i : Incoming) : (m.register i).Owned := by
  obtain ⟨hnamed, hhomes, hcontrollers, hids, hlive, hcurrent⟩ := h
  constructor
  all_goals simp only [register, Table.get?_insert, getElem?_concat_eq]
  case transfers =>
    intros
    split <;> grind [Incoming.record]
  all_goals grind [Incoming.record]

theorem owned_took (h : m.Owned) {id : RunId} {run : Run} {turn : Turn}
    (hrun : m.runs[id]? = some run) (hrec : m.records[run.address]? = some record) (hp : run.point ≠ .ended)
    (hf : turn.Fits run record id) : (m.took id run.address turn).Owned := by
  obtain ⟨hnamed, hhomes, hcontrollers, hids, hlive, hcurrent⟩ := h
  obtain ⟨haddress, hkey, haborted, htransfer, hattempt, hgone, habort, hstate, -⟩ := hf
  constructor
  all_goals simp only [took, getElem?_set_of_some hrec, getElem?_set_of_some hrun]
  all_goals grind [acts_eq_true_iff]

end Owned

end Memory

end Bore.Upload
