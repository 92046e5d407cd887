import Bore.TransferDisk
import Bore.TransferJournal

namespace Bore.TransferMarks

open OsPath TransferManifest TransferResume TransferReceiver TransferJournal

def Proven (written recorded : List Record) (record : Record) : Prop := record ∈ written ∧ record ∈ recorded

theorem Proven.mono {written recorded written' recorded' : List Record} (hw : written ⊆ written')
    (hr : recorded ⊆ recorded') {record : Record} (h : Proven written recorded record) :
    Proven written' recorded' record :=
  ⟨hw h.1, hr h.2⟩

def batch : Worker → List Record
  | .appending records _ => records
  | _ => []

def written : Worker → List Record
  | .appending records _ => records
  | .marking entry chunkIndex => [(entry.id, chunkIndex)]
  | _ => []

def owes : Worker → Bool
  | .appending _ _ | .finished _ => false
  | _ => true

def failed : Worker → Bool
  | .finished ok | .flushing (.closed ok) | .appending _ (.closed ok) => !ok
  | _ => false

def Held (run : Run) (record : Record) : Prop := ∃ w worker, run.workers.get? w = some worker ∧ record ∈ batch worker

def Failed (run : Run) : Prop := ∃ w worker, run.workers.get? w = some worker ∧ failed worker = true

/-- The record of a chunk that was marked is in the journal, or some data stream
still has to put it there or fails. -/
def Accounted (W R : List Record) (run : Run) (record : Record) : Prop :=
  record ∈ W ∧ (record ∈ R ∨ record ∈ run.runtime.pendingJournal ∨ Held run record ∨ Failed run)

structure Serving (W R : List Record) (run : Run) : Prop where
  marks : MarksIn (Accounted W R run) run.runtime.state
  pending : ∀ record ∈ run.runtime.pendingJournal, record ∈ W
  workers : ∀ w worker, run.workers.get? w = some worker → ∀ record ∈ written worker, record ∈ W
  owed : run.runtime.pendingJournal ≠ [] → ∃ w worker, run.workers.get? w = some worker ∧ owes worker = true

theorem Serving.initial {W R : List Record} {state : ResumeState} (h : MarksIn (Proven W R) state) (options : Options)
    (name : Bytes) (awaited : Nat) : Serving W R ⟨options, name, .new state, ∅, awaited⟩ := by
  refine ⟨h.mono (fun _ hr => ⟨hr.1, .inl hr.2⟩), ?_, ?_, ?_⟩
  · intro record hm
    cases hm
  · intro w worker hw
    cases hw
  · intro hne
    exact absurd rfl hne

section Change

variable {W R W' R' : List Record} {run : Run} {runtime : ResumeRuntime} {w : Nat} {old new : Worker}

theorem get?_setWorker (v : Nat) :
    (run.setWorker w new).workers.get? v = if v = w then some new else run.workers.get? v :=
  Table.get?_insert run.workers w v new

variable (runtime new) in
theorem held_setWorker {record : Record} (hold : run.workers.get? w = some old) (h : Held run record) :
    record ∈ batch old ∨ Held ({ run with runtime := runtime }.setWorker w new) record := by
  obtain ⟨v, worker, hv, hm⟩ := h
  by_cases hvw : v = w
  · subst hvw
    cases hold.symm.trans hv
    exact .inl hm
  · exact .inr ⟨v, worker, by rw [get?_setWorker, if_neg hvw]; exact hv, hm⟩

theorem failed_setWorker (hold : run.workers.get? w = some old) (hf : failed old = true → failed new = true)
    (h : Failed run) : Failed ({ run with runtime := runtime }.setWorker w new) := by
  obtain ⟨v, worker, hv, hm⟩ := h
  by_cases hvw : v = w
  · subst hvw
    cases hold.symm.trans hv
    exact ⟨v, new, by rw [get?_setWorker, if_pos rfl], hf hm⟩
  · exact ⟨v, worker, by rw [get?_setWorker, if_neg hvw]; exact hv, hm⟩

variable (runtime) in
theorem Serving.change (h : Serving W R run) (hold : run.workers.get? w = some old) (hW : W ⊆ W') (hR : R ⊆ R')
    (hmarks : MarksIn (fun record => Accounted W R run record ∨ record ∈ W' ∧ record ∈ runtime.pendingJournal)
      runtime.state)
    (hpending : ∀ record ∈ run.runtime.pendingJournal, record ∈ runtime.pendingJournal ∨ record ∈ batch new)
    (hbatch : ∀ record ∈ batch old, record ∈ R' ∨ record ∈ batch new ∨ failed new = true)
    (hfailed : failed old = true → failed new = true) (hwritten : ∀ record ∈ written new, record ∈ W')
    (hpw : ∀ record ∈ runtime.pendingJournal, record ∈ W') (howes : runtime.pendingJournal ≠ [] →
      owes new = true ∨ run.runtime.pendingJournal ≠ [] ∧ owes old = false) :
    Serving W' R' ({ run with runtime := runtime }.setWorker w new) := by
  have hnew : ({ run with runtime := runtime }.setWorker w new).workers.get? w = some new := by
    rw [get?_setWorker, if_pos rfl]
  refine ⟨?_, hpw, ?_, ?_⟩
  · refine hmarks.mono ?_
    rintro record (⟨hw, hr | hp | hh | hf⟩ | ⟨hw, hp⟩)
    · exact ⟨hW hw, .inl (hR hr)⟩
    · rcases hpending record hp with hp | hb
      · exact ⟨hW hw, .inr (.inl hp)⟩
      · exact ⟨hW hw, .inr (.inr (.inl ⟨w, new, hnew, hb⟩))⟩
    · rcases held_setWorker runtime new hold hh with hb | hh
      · rcases hbatch record hb with hr | hb | hf
        · exact ⟨hW hw, .inl hr⟩
        · exact ⟨hW hw, .inr (.inr (.inl ⟨w, new, hnew, hb⟩))⟩
        · exact ⟨hW hw, .inr (.inr (.inr ⟨w, new, hnew, hf⟩))⟩
      · exact ⟨hW hw, .inr (.inr (.inl hh))⟩
    · exact ⟨hW hw, .inr (.inr (.inr (failed_setWorker hold hfailed hf)))⟩
    · exact ⟨hw, .inr (.inl hp)⟩
  · intro v worker hv record hm
    rw [get?_setWorker] at hv
    split at hv
    · cases hv
      exact hwritten record hm
    · exact hW (h.workers v worker hv record hm)
  · intro hne
    rcases howes hne with hn | ⟨hne, ho⟩
    · exact ⟨w, new, hnew, hn⟩
    obtain ⟨v, worker, hv, hw⟩ := h.owed hne
    have hvw : v ≠ w := by
      rintro rfl
      cases hold.symm.trans hv
      rw [ho] at hw
      cases hw
    exact ⟨v, worker, by rw [get?_setWorker, if_neg hvw]; exact hv, hw⟩

theorem Serving.setWorker (h : Serving W R run) (hold : run.workers.get? w = some old) (hW : W ⊆ W') (hR : R ⊆ R')
    (hbatch : ∀ record ∈ batch old, record ∈ R' ∨ record ∈ batch new ∨ failed new = true)
    (hfailed : failed old = true → failed new = true) (hwritten : ∀ record ∈ written new, record ∈ W')
    (howes : owes new = true ∨ owes old = false) : Serving W' R' (run.setWorker w new) := by
  refine h.change run.runtime hold hW hR (h.marks.mono fun _ => .inl) (fun _ => .inl) hbatch hfailed hwritten
    (fun record hm => hW (h.pending record hm)) (fun hne => ?_)
  rcases howes with ho | ho
  · exact .inl ho
  · exact .inr ⟨hne, ho⟩

theorem Serving.turn (h : Serving W R run) (hold : run.workers.get? w = some old) (hb : batch old = [])
    (hf : failed old = true → failed new = true) (hn : written new = []) (ho : owes new = true) :
    Serving W R (run.setWorker w new) := by
  refine h.setWorker hold (List.Subset.refl W) (List.Subset.refl R) ?_ hf ?_ (.inl ho)
  · intro record hm
    rw [hb] at hm
    cases hm
  · intro record hm
    rw [hn] at hm
    cases hm

theorem Serving.connect (h : Serving W R run) (hnone : run.workers.get? w = none) (awaited : Nat) :
    Serving W R { run.setWorker w .reading with awaited := awaited } := by
  have hkeep (v : Nat) (worker : Worker) (hv : run.workers.get? v = some worker) :
      (run.setWorker w .reading).workers.get? v = some worker := by
    rw [get?_setWorker, if_neg]
    · exact hv
    · rintro rfl
      rw [hnone] at hv
      cases hv
  refine ⟨h.marks.mono ?_, h.pending, ?_, ?_⟩
  · rintro record ⟨hw, hr | hp | ⟨v, worker, hv, hb⟩ | ⟨v, worker, hv, hf⟩⟩
    · exact ⟨hw, .inl hr⟩
    · exact ⟨hw, .inr (.inl hp)⟩
    · exact ⟨hw, .inr (.inr (.inl ⟨v, worker, hkeep v worker hv, hb⟩))⟩
    · exact ⟨hw, .inr (.inr (.inr ⟨v, worker, hkeep v worker hv, hf⟩))⟩
  · intro v worker hv record hm
    have hv' : (run.setWorker w .reading).workers.get? v = some worker := hv
    rw [get?_setWorker] at hv'
    split at hv'
    · cases hv'
      cases hm
    · exact h.workers v worker hv' record hm
  · intro hne
    obtain ⟨v, worker, hv, ho⟩ := h.owed hne
    exact ⟨v, worker, hkeep v worker hv, ho⟩

theorem Serving.settled (h : Serving W R run) (hall : ∀ w worker, run.workers.get? w = some worker → worker = .finished true) :
    MarksIn (Proven W R) run.runtime.state := by
  refine h.marks.mono ?_
  rintro record ⟨hw, hr | hp | ⟨v, worker, hv, hb⟩ | ⟨v, worker, hv, hf⟩⟩
  · exact ⟨hw, hr⟩
  · obtain ⟨v, worker, hv, ho⟩ := h.owed (List.ne_nil_of_mem hp)
    rw [hall v worker hv] at ho
    cases ho
  · rw [hall v worker hv] at hb
    cases hb
  · rw [hall v worker hv] at hf
    cases hf

end Change

end Bore.TransferMarks
