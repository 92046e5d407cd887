import Bore.TransferChunks
import Bore.TransferCrash
import Bore.TransferValid

namespace Bore.TransferContent

open OsPath PathTable TransferManifest TransferResume TransferReceiver TransferJournal TransferCrash TransferChunks

variable (services : Services) (job : Job) (entry : ManifestEntry) (content : Bytes)

structure Scanned : Prop where
  size : entry.size.map UInt64.toNat = some content.length
  hash : entry.fullHash = some (services.hash content)
  chunks : content.length ≤ entry.chunkCount.toNat * chunkSize

/-- The destination and the backup of an existing one are apart from the staged
file. -/
def apartOnCommit (run : Run) (found : Found) : Bool :=
  let backup := (job.stageDir services).joinBytes (asciiBytes "overwrite-backup")
  let outside (root : PathBuf) (path : Option PathBuf) : Bool := !(path.map (under root)).getD false
  found = .absent || (outside backup (job.staged services run.name entry) &&
    outside (job.finalPath run.name) (job.staged services run.name entry) && outside backup (job.final run.name entry))

/-- What is written for the entry is its content, no chunk of it is marked a
second time, and neither the journal nor another destination takes the place of
its staged file. -/
def faithful (s : System) (a : Action) : Bool :=
  match a, s.phase with
  | .writePart w _, .serving run | .write w, .serving run =>
    match run.workers.get? w with
    | some (.writing e i payload) => e.id ≠ entry.id || payload = chunk content i.toNat
    | _ => true
  | .mark w, .serving run =>
    match run.workers.get? w with
    | some (.marking e i) => e.id ≠ entry.id || run.runtime.isChunkComplete e.id i = some false
    | _ => true
  | .append w, .serving run | .flushError w _, .serving run =>
    (batchOf s w).isEmpty || job.staged services run.name entry ≠ some (job.journalFile services)
  | .commit found, .committing run _ => apartOnCommit services job entry run found
  | .commitChild child _, .committing run _ =>
    !((job.staged services run.name entry).map (under (job.destRoot.join { components := [child] }))).getD false
  | _, _ => true

def chunkOf : Worker → Option (ManifestEntry × UInt32)
  | .checked e i _ | .writing e i _ | .marking e i => some (e, i)
  | _ => none

def Known (workers : Table Nat Worker) : Prop :=
  ∀ w worker e i, workers.get? w = some worker → chunkOf worker = some (e, i) → e ∈ job.entries ∧ i < e.chunkCount

def FreshRight (data : Bytes) (runtime : ResumeRuntime) : Prop :=
  ∃ fresh : List UInt32, fresh.Nodup ∧ fresh.length = runtime.fresh entry.id ∧
    ∀ i ∈ fresh, i < entry.chunkCount ∧ slot runtime.state (entry.id, i) = some true ∧ Agrees data content i.toNat

def MarkingRight (data : Bytes) (workers : Table Nat Worker) : Prop :=
  ∀ w e i, workers.get? w = some (.marking e i) → e.id = entry.id → Agrees data content i.toNat

section Fresh

variable {entry content} {data : Bytes} {runtime runtime' : ResumeRuntime}

theorem slot_of_isChunkComplete {entryId chunkIndex : UInt32}
    (h : runtime.isChunkComplete entryId chunkIndex = some false) :
    slot runtime.state (entryId, chunkIndex) ≠ some true := by
  obtain ⟨file, hf, hc⟩ := Option.map_eq_some_iff.mp h
  obtain ⟨pos, hpos, hf⟩ := Option.bind_eq_some_iff.mp hf
  intro hs
  simp only [slot, hpos, hf, Option.bind_some] at hs
  simp [hs] at hc

theorem markChunkComplete_fresh {fsyncStaged flush : Bool} {entryId chunkIndex : UInt32} {path : PathBuf}
    (h : runtime.markChunkComplete fsyncStaged entryId chunkIndex path = some (runtime', flush)) :
    (∀ id, runtime'.fresh id = if id = entryId then runtime.fresh id + 1 else runtime.fresh id) ∧
    slot runtime'.state (entryId, chunkIndex) = some true ∧
    ∀ record, slot runtime.state record = some true → slot runtime'.state record = some true := by
  unfold ResumeRuntime.markChunkComplete at h
  split at h
  · cases h
  rename_i hpos
  obtain ⟨file, hf, -⟩ := fileIndex_some hpos
  simp only [hf] at h
  split at h
  · cases h
  rename_i done hc
  cases h
  refine ⟨fun id => ?_, ?_, fun record hr => ?_⟩
  · simp only [ResumeRuntime.fresh, Table.get?_insert]
    split
    · rename_i heq
      rw [heq]
      rfl
    · rfl
  · have hs : slot runtime.state (entryId, chunkIndex) = some done := by
      simp only [slot, hpos, hf, hc, Option.bind_some]
    rw [slot_set (entryId, chunkIndex) _ hpos hf, hs]
    simp
  · rw [slot_set (entryId, chunkIndex) _ hpos hf, hr]
    rfl

theorem FreshRight.mark (h : FreshRight entry content data runtime) {fsyncStaged flush : Bool} {e : ManifestEntry}
    {i : UInt32} {path : PathBuf} (hm : runtime.markChunkComplete fsyncStaged e.id i path = some (runtime', flush))
    (hright : e.id = entry.id → i < entry.chunkCount ∧ Agrees data content i.toNat ∧
      runtime.isChunkComplete e.id i = some false) : FreshRight entry content data runtime' := by
  obtain ⟨hfresh, hslot, hkeep⟩ := markChunkComplete_fresh hm
  obtain ⟨fresh, hnodup, hlen, hall⟩ := h
  by_cases he : e.id = entry.id
  · obtain ⟨hlt, hag, hnot⟩ := hright he
    have hnew : i ∉ fresh := by
      intro hi
      exact slot_of_isChunkComplete hnot (he ▸ (hall i hi).2.1)
    refine ⟨i :: fresh, List.nodup_cons.mpr ⟨hnew, hnodup⟩, ?_, ?_⟩
    · rw [hfresh, if_pos he.symm, List.length_cons, hlen]
    · intro j hj
      rcases List.mem_cons.mp hj with rfl | hj
      · exact ⟨hlt, he ▸ hslot, hag⟩
      · obtain ⟨hlt, hs, hag⟩ := hall j hj
        exact ⟨hlt, hkeep _ hs, hag⟩
  refine ⟨fresh, hnodup, ?_, ?_⟩
  · rw [hfresh, if_neg (Ne.symm he), hlen]
  · intro j hj
    obtain ⟨hlt, hs, hag⟩ := hall j hj
    exact ⟨hlt, hkeep _ hs, hag⟩

theorem FreshRight.whole (h : FreshRight entry content data runtime) (hl : data.length = content.length)
    (hn : content.length ≤ entry.chunkCount.toNat * chunkSize)
    (hf : runtime.allChunksFresh entry.id entry.chunkCount = true) : data = content := by
  obtain ⟨fresh, hnodup, hlen, hall⟩ := h
  have hcount : entry.chunkCount.toNat ≤ (fresh.map UInt32.toNat).length := by
    rw [List.length_map, hlen]
    simpa [ResumeRuntime.allChunksFresh] using hf
  have hdistinct : (fresh.map UInt32.toNat).Nodup := hnodup.map (fun _ _ => UInt32.toNat_inj.mp)
  refine eq_of_agrees hl hn (fun i hi => ?_)
  have hm : i ∈ fresh.map UInt32.toNat := by
    refine mem_of_nodup_length hdistinct ?_ hcount hi
    intro j hj
    obtain ⟨k, hk, rfl⟩ := List.mem_map.mp hj
    exact (hall k hk).1
  obtain ⟨k, hk, rfl⟩ := List.mem_map.mp hm
  exact (hall k hk).2.2

end Fresh

end Bore.TransferContent
