import Bore.TransferMarks
import Bore.TransferMoves

namespace Bore.TransferCrash

open List Option

open OsPath PathTable TransferManifest TransferResume TransferReceiver TransferJournal TransferDisk TransferMarks
  TransferMoves

section Runtime

variable {runtime runtime' : ResumeRuntime} {entryId chunkIndex : UInt32}

theorem markChunkComplete_spec {fsyncStaged flush : Bool} {path : PathBuf}
    (h : runtime.markChunkComplete fsyncStaged entryId chunkIndex path = some (runtime', flush)) :
    (∀ e i, Marked runtime'.state e i → Marked runtime.state e i ∨
      e = entryId ∧ chunkIndex.toNat = i ∧ (entryId, chunkIndex) ∈ runtime'.pendingJournal) ∧
    (∀ record ∈ runtime.pendingJournal, record ∈ runtime'.pendingJournal) ∧
    ∀ record ∈ runtime'.pendingJournal, record ∈ runtime.pendingJournal ∨ record = (entryId, chunkIndex) := by
  unfold ResumeRuntime.markChunkComplete at h
  split at h
  · cases h
  rename_i hpos
  obtain ⟨file, hf, hid⟩ := fileIndex_some hpos
  simp only [hf] at h
  split at h
  · cases h
  rename_i wasComplete hc
  cases h
  refine ⟨?_, ?_, ?_⟩
  · intro e i hm
    rcases marked_set hf hm with hm | ⟨he, rfl⟩
    · exact .inl hm
    · cases wasComplete with
      | true => exact .inl ⟨file, mem_of_getElem? hf, he, hc⟩
      | false => exact .inr ⟨he.symm.trans hid, rfl, by simp⟩
  · intro record hm
    cases wasComplete <;> simp [hm]
  · intro record hm
    cases wasComplete with
    | true => exact .inl hm
    | false => simpa using hm

theorem marked_resetFile (h : runtime.resetFile entryId = some runtime') {e : UInt32} {i : Nat}
    (hm : Marked runtime'.state e i) : Marked runtime.state e i := by
  unfold ResumeRuntime.resetFile at h
  split at h
  · cases h
  cases h
  obtain ⟨file, hf, he, hc⟩ := hm
  obtain ⟨j, hj⟩ := mem_iff_getElem?.mp hf
  simp only [getElem?_modify] at hj
  split at hj
  · obtain ⟨file', -, rfl⟩ := map_eq_some_iff.mp hj
    rw [getElem?_map] at hc
    obtain ⟨_, -, hfalse⟩ := map_eq_some_iff.mp hc
    cases hfalse
  · simp only [Option.map_eq_map, Option.map_id'] at hj
    exact ⟨file, mem_of_getElem? hj, he, hc⟩

theorem takePending_spec {taken : Option (List PathBuf × List Record)} (h : runtime.takePending = (runtime', taken)) :
    runtime'.state = runtime.state ∧ runtime'.pendingJournal = [] ∧
      runtime.pendingJournal = (taken.map Prod.snd).getD [] := by
  unfold ResumeRuntime.takePending at h
  split at h
  · rename_i he
    cases h
    simp only [Bool.and_eq_true, List.isEmpty_iff] at he
    exact ⟨rfl, he.2, he.2⟩
  · cases h
    exact ⟨rfl, rfl, rfl⟩

theorem not_marked_fresh (transferId manifestHash finalName : String) (entries : List ManifestEntry) (e : UInt32) (i : Nat) :
    ¬ Marked (freshResumeState transferId manifestHash finalName entries) e i := by
  rintro ⟨file, hf, -, hc⟩
  obtain ⟨entry, -, rfl⟩ := mem_map.mp hf
  simp [getElem?_replicate] at hc

end Runtime

section Orderly

variable (services : Services) (job : Job)

def batchOf (s : System) (w : Nat) : List Record :=
  match s.phase with
  | .serving run => ((run.workers.get? w).map batch).getD []
  | _ => []

def appends (s : System) : Action → Bool
  | .append w => !(batchOf s w).isEmpty
  | .flushError w k | .stop w k => !(batchOf s w).isEmpty && k ≠ 0
  | _ => false

def isStateFile (path : Option PathBuf) : Bool :=
  path = some (job.stateFile services) || path = some (job.journalFile services)

def holdsStateFile (path : PathBuf) : Bool :=
  under path (job.stateFile services) || under path (job.journalFile services)

/-- The step puts a file of the transfer in the place of `state.json` or of the
journal. -/
def overwrites (s : System) (a : Action) : Bool :=
  match a, s.phase with
  | .prepare, .preparing _ name _ _ (entry :: _) => isStateFile services job (job.staged services name entry)
  | .writePart w _, .serving run | .write w, .serving run =>
    match run.workers.get? w with
    | some (.writing entry _ _) => isStateFile services job (job.staged services run.name entry)
    | _ => false
  | .commit _, .committing run _ => holdsStateFile services job (job.finalPath run.name)
  | .commitChild child _, .committing _ _ => holdsStateFile services job (job.destRoot.join { components := [child] })
  | _, _ => false

def journalLength (s : System) : Nat := ((s.disk.get? (job.journalFile services)).getD []).length

/-- Nothing is appended to a journal that ends with a torn record, and no file of
the transfer takes the place of `state.json` or of the journal. -/
def orderly (s : System) (a : Action) : Bool :=
  !overwrites services job s a && (!appends s a || journalLength services job s % 8 = 0)

end Orderly

section Invariant

variable (services : Services) (job : Job)

structure OnDisk (W R : List Record) (disk : Disk) : Prop where
  state : ∀ bytes state, disk.get? (job.stateFile services) = some bytes → services.decodeState bytes = some state →
    MarksIn (Proven W R) state
  journal : ∀ bytes, disk.get? (job.journalFile services) = some bytes → Holds (Proven W R) bytes

/-- So does the state a run has in memory, as far as it can reach the disk. -/
def InMemory (W R : List Record) : Phase → Prop
  | .creating _ _ state | .created _ _ state | .loaded _ state | .folded _ state _ | .persisted _ state
  | .preparing _ _ state _ _ => MarksIn (Proven W R) state
  | .serving run => Serving W R run
  | .verifying run _ _ | .resetting run | .dropping run => MarksIn (Proven W R) run.runtime.state
  | .down | .opening _ | .committing _ _ | .removing _ | .completed | .reacknowledged => True

structure Recovers (s : System) : Prop where
  disk : OnDisk services job s.written s.recorded s.disk
  memory : InMemory s.written s.recorded s.phase

variable {services job} {W R W' R' : List Record} {disk disk' : Disk}

section

variable (h : OnDisk services job W R disk)
include h

theorem OnDisk.mono (hW : W ⊆ W') (hR : R ⊆ R')
    (hs : ∀ bytes, disk'.get? (job.stateFile services) = some bytes → disk.get? (job.stateFile services) = some bytes)
    (hj : ∀ bytes, disk'.get? (job.journalFile services) = some bytes → disk.get? (job.journalFile services) = some bytes) :
    OnDisk services job W' R' disk' := by
  refine ⟨fun bytes state hb hd => ?_, fun bytes hb => ?_⟩
  · exact (h.state bytes state (hs bytes hb) hd).mono (fun _ => Proven.mono hW hR)
  · exact (h.journal bytes (hj bytes hb)).mono (fun _ => Proven.mono hW hR)

theorem OnDisk.insert (hW : W ⊆ W') {path : PathBuf} (data : Bytes)
    (hp : isStateFile services job (some path) = false) : OnDisk services job W' R (disk.insert path data) := by
  simp only [isStateFile, some.injEq, Bool.or_eq_false_iff, decide_eq_false_iff_not] at hp
  refine h.mono hW (Subset.refl R) (fun bytes hb => ?_) (fun bytes hb => ?_)
  · rwa [Table.get?_insert_of_ne _ _ (Ne.symm hp.1)] at hb
  · rwa [Table.get?_insert_of_ne _ _ (Ne.symm hp.2)] at hb

theorem OnDisk.persist {state : ResumeState} (hs : MarksIn (Proven W R) state) :
    OnDisk services job W R (persistState services job disk state) := by
  refine ⟨fun bytes state' hb hd => ?_, fun bytes hb => ?_⟩
  · rw [get?_persistState, if_pos rfl] at hb
    cases hb
    rw [services.decode_encode] at hd
    cases hd
    exact hs
  · rw [journal_persistState] at hb
    exact h.journal bytes hb

theorem OnDisk.truncate : OnDisk services job W R (truncateJournal services job disk) := by
  refine h.mono (Subset.refl W) (Subset.refl R) (fun bytes hb => ?_) (fun bytes hb => ?_)
  · rwa [state_truncateJournal] at hb
  · rw [truncateJournal, Table.get?_erase, if_pos rfl] at hb
    cases hb

theorem OnDisk.rename {source target : PathBuf}
    (ht : holdsStateFile services job target = false) : OnDisk services job W R (disk.renameTree source target) := by
  simp only [holdsStateFile, Bool.or_eq_false_iff] at ht
  exact h.mono (Subset.refl W) (Subset.refl R) (fun _ hb => get?_renameTree_some hb ht.1)
    (fun _ hb => get?_renameTree_some hb ht.2)

theorem OnDisk.erase (path : PathBuf) : OnDisk services job W R (disk.erase path) := by
  refine h.mono (Subset.refl W) (Subset.refl R) (fun bytes hb => ?_) (fun bytes hb => ?_)
  all_goals
    rw [Table.get?_erase] at hb
    split at hb
    · cases hb
    · exact hb

theorem OnDisk.retain (p : PathBuf → Bytes → Bool) : OnDisk services job W R (disk.retain p) := by
  refine h.mono (Subset.refl W) (Subset.refl R) (fun bytes hb => ?_) (fun bytes hb => ?_)
  all_goals
    rw [Table.get?_retain, filter_eq_some_iff] at hb
    exact hb.1

end

theorem OnDisk.appendBatch {s : System} (h : OnDisk services job s.written s.recorded s.disk) {records : List Record}
    {k : Nat} (hw : ∀ record ∈ records, record ∈ s.written)
    (ha : records ≠ [] → k ≠ 0 → journalLength services job s % 8 = 0) :
    OnDisk services job (appendBatch services job s records k).written (appendBatch services job s records k).recorded
      (appendBatch services job s records k).disk := by
  unfold TransferReceiver.appendBatch
  split
  · exact h
  rename_i hne
  simp only [Bool.or_eq_true, List.isEmpty_iff, decide_eq_true_eq, not_or] at hne
  have hgrow : s.recorded ⊆ records.take (k / 8) ++ s.recorded := List.subset_append_right _ _
  refine ⟨fun bytes state hb hd => ?_, fun bytes hb => ?_⟩
  · rw [appendJournal, Table.get?_insert_of_ne _ _ (journalFile_ne_stateFile services job).symm] at hb
    exact (h.state bytes state hb hd).mono (fun _ => Proven.mono (Subset.refl _) hgrow)
  · rw [appendJournal, Table.get?_insert_self] at hb
    cases hb
    refine Holds.append ?_ (ha hne.1 hne.2) ?_
    · cases hj : s.disk.get? (job.journalFile services) with
      | none => exact Holds.nil _
      | some bytes => exact (h.journal bytes hj).mono (fun _ => Proven.mono (Subset.refl _) hgrow)
    · intro record hm
      exact ⟨hw record (List.mem_of_mem_take hm), List.mem_append_left _ hm⟩

end Invariant

section Steps

variable {services : Services} {job : Job} {s s' : System} {a : Action}

theorem orderly_iff : orderly services job s a = true ↔
    overwrites services job s a = false ∧ (appends s a = true → journalLength services job s % 8 = 0) := by
  simp only [orderly, Bool.and_eq_true, Bool.not_eq_true', Bool.or_eq_true, decide_eq_true_eq]
  cases appends s a <;> simp

variable (services job) in
theorem written_receiveChunk (entryId chunkIndex : UInt32) (offset : UInt64) (len : UInt32) (payload : Bytes)
    (blake3 : String) : written (receiveChunk services job entryId chunkIndex offset len payload blake3) = [] ∧
      owes (receiveChunk services job entryId chunkIndex offset len payload blake3) = true := by
  unfold receiveChunk
  repeat' split
  all_goals exact ⟨rfl, rfl⟩

theorem written_next (after : AfterFlush) : written after.next = [] := by
  cases after <;> rfl

theorem failed_next {after : AfterFlush} {worker : Worker} (hw : failed worker = true)
    (h : worker = .flushing after ∨ ∃ records, worker = .appending records after) : failed after.next = true := by
  cases after with
  | closed =>
    rcases h with rfl | ⟨records, rfl⟩
    · exact hw
    · exact hw
  | nextFrame | workerDone =>
    rcases h with rfl | ⟨records, rfl⟩
    · cases hw
    · cases hw

variable (services job s) in
theorem written_appendBatch (records : List Record) (k : Nat) :
    (appendBatch services job s records k).written = s.written := by
  unfold appendBatch
  split <;> rfl

theorem recorded_appendBatch (records : List Record) (k : Nat) :
    s.recorded ⊆ (appendBatch services job s records k).recorded := by
  unfold appendBatch
  split
  · exact Subset.refl _
  · exact subset_append_right _ _

theorem recorded_whole (records : List Record) :
    records ⊆ (appendBatch services job s records (8 * records.length)).recorded := by
  unfold appendBatch
  split
  · rename_i he
    cases records with
    | nil => exact nil_subset _
    | cons => simp at he
  · have hk : 8 * records.length / 8 = records.length := by omega
    rw [hk, take_length]
    exact subset_append_left _ _

theorem workerMove_recovers {run : Run} {w : Nat} (h : Recovers services job s) (hp : s.phase = .serving run)
    (hok : orderly services job s a = true) (hm : WorkerMove services job s run w a s') : Recovers services job s' := by
  have hs : Serving s.written s.recorded run := by
    have := h.memory
    rwa [hp] at this
  obtain ⟨hover, haligned⟩ := orderly_iff.mp hok
  cases hm with
  | deliver entryId chunkIndex offset len payload blake3 hw =>
    obtain ⟨hn, ho⟩ := written_receiveChunk services job entryId chunkIndex offset len payload blake3
    exact ⟨h.disk, hs.turn hw rfl (by rintro ⟨⟩) hn ho⟩
  | unknown hw | skip hw | accept hw | unwritten hw | unmarked hw | workerDone hw =>
    exact ⟨h.disk, hs.turn hw rfl (by rintro ⟨⟩) rfl rfl⟩
  | @writePart _ _ _ _ _ _ hw hpath =>
    unfold overwrites at hover
    rw [hp] at hover
    simp only [hw, hpath] at hover
    refine ⟨?_, h.memory⟩
    exact h.disk.insert (Subset.refl _) _ hover
  | @write _ _ _ _ _ hw hpath =>
    unfold overwrites at hover
    rw [hp] at hover
    simp only [hw, hpath] at hover
    refine ⟨h.disk.insert (subset_cons_self _ _) _ hover, ?_⟩
    refine hs.setWorker hw (subset_cons_self _ _) (Subset.refl _) (by rintro _ ⟨⟩) (by rintro ⟨⟩) ?_ (.inl rfl)
    intro record hr
    cases mem_singleton.mp hr
    exact mem_cons_self
  | @mark entry chunkIndex _ _ flush hw hmark =>
    obtain ⟨hmarked, hkept, hnew⟩ := markChunkComplete_spec hmark
    have hwritten : (entry.id, chunkIndex) ∈ s.written := hs.workers w _ hw _ (mem_singleton.mpr rfl)
    refine ⟨h.disk, hs.change _ hw (Subset.refl _) (Subset.refl _) ?_
      (fun r hr => .inl (hkept r hr)) (by rintro _ ⟨⟩) (by rintro ⟨⟩)
      ?_ ?_ ?_⟩
    · intro e i hm
      rcases hmarked e i hm with hm | ⟨rfl, rfl, hpend⟩
      · obtain ⟨chunk, hc, hacc⟩ := hs.marks e i hm
        exact ⟨chunk, hc, .inl hacc⟩
      · exact ⟨chunkIndex, rfl, .inr ⟨hwritten, hpend⟩⟩
    · cases flush <;> rintro _ ⟨⟩
    · intro record hr
      rcases hnew record hr with hr | rfl
      · exact hs.pending record hr
      · exact hwritten
    · cases flush <;> exact fun _ => .inl rfl
  | @idle _ _ hw ht =>
    obtain ⟨hstate, hempty, htaken⟩ := takePending_spec ht
    refine ⟨h.disk, hs.change _ hw (Subset.refl _) (Subset.refl _) ?_ ?_ (by rintro _ ⟨⟩)
      (fun hf => failed_next hf (.inl rfl)) ?_ ?_ ?_⟩
    · rw [hstate]
      exact hs.marks.mono (fun _ => .inl)
    · rw [htaken]
      simp
    · rw [written_next]
      simp
    · rw [hempty]
      simp
    · exact fun hne => absurd hempty hne
  | @lock after _ _ _ hw ht =>
    obtain ⟨hstate, hempty, htaken⟩ := takePending_spec ht
    refine ⟨h.disk, hs.change _ hw (Subset.refl _) (Subset.refl _) ?_ ?_ (by rintro _ ⟨⟩) ?_ ?_ ?_ ?_⟩
    · rw [hstate]
      exact hs.marks.mono (fun _ => .inl)
    · rw [htaken]
      exact fun _ hr => .inr hr
    · cases after <;> exact fun hf => hf
    · intro record hr
      exact hs.pending record (htaken ▸ hr)
    · rw [hempty]
      simp
    · exact fun hne => absurd hempty hne
  | @append records _ hw =>
    refine ⟨h.disk.appendBatch (hs.workers w _ hw) (fun hne _ => haligned ?_), ?_⟩
    · simpa [appends, batchOf, hp, hw, batch] using hne
    · refine hs.setWorker hw (written_appendBatch services job s records _ ▸ Subset.refl _)
        (recorded_appendBatch records _) (fun record hr => .inl (recorded_whole records hr))
        (fun hf => failed_next hf (.inr ⟨records, rfl⟩)) ?_ (.inr rfl)
      rw [written_next]
      simp
  | @flushError k records after hw =>
    obtain ⟨hfailed, hnone⟩ : failed after.failed = true ∧ written after.failed = [] := by
      cases after <;> exact ⟨rfl, rfl⟩
    refine ⟨h.disk.appendBatch (hs.workers w _ hw) (fun hne hk => haligned ?_), ?_⟩
    · simpa [appends, batchOf, hp, hw, batch, hk] using hne
    · refine hs.setWorker hw (written_appendBatch services job s records _ ▸ Subset.refl _)
        (recorded_appendBatch records _) (fun record hr => .inr (.inr hfailed)) (fun _ => hfailed) ?_ (.inr rfl)
      rw [hnone]
      simp
  | workerError hw hr =>
    rcases hr with rfl | ⟨entry, chunkIndex, payload, rfl⟩ | rfl
    all_goals exact ⟨h.disk, hs.turn hw rfl (by rintro ⟨⟩) rfl rfl⟩

end Steps

end Bore.TransferCrash
