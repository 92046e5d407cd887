import Bore.TransferContent
import Bore.TransferRecovery

namespace Bore.TransferVerified

open OsPath TransferManifest TransferResume TransferReceiver TransferDisk TransferMarks TransferMoves TransferCrash
  TransferChunks TransferValid TransferContent TransferRecovery

section Invariant

variable (services : Services) (job : Job) (entry : ManifestEntry) (content : Bytes) (rel : PathBuf)

def place (name : Bytes) : PathBuf := below (job.stageRoot services name) rel.components

structure Built (disk : Disk) (run : Run) (data : Bytes) : Prop where
  file : disk.get? (place services job rel run.name) = some data
  length : data.length = content.length
  fresh : FreshRight entry content data run.runtime

structure Building (disk : Disk) (run : Run) (data : Bytes) : Prop extends
    Built services job entry content rel disk run data where
  marking : MarkingRight entry content data run.workers
  known : Known job run.workers

def Genuine (data : Bytes) : Prop :=
  entry.size.map UInt64.toNat = some data.length ∧ entry.fullHash = some (services.hash data)

def StagedGenuine (disk : Disk) (name : Bytes) : Prop :=
  ∃ data, disk.get? (place services job rel name) = some data ∧ Genuine services entry data

def Awaits (todo : List Component) : Prop :=
  job.begin.multiSource = false ∨ ∃ c ∈ todo, rel.components.head? = some c

def InPhase (disk : Disk) : Phase → Prop
  | .preparing _ name _ _ todo => (∀ e ∈ todo, e ∈ job.entries) ∧
      (entry ∈ todo ∨ ∃ data, disk.get? (place services job rel name) = some data ∧ data.length = content.length)
  | .serving run => ∃ data, Building services job entry content rel disk run data
  | .verifying run _ todo => (entry ∈ todo ∧ ∃ data, Built services job entry content rel disk run data) ∨
      StagedGenuine services job entry rel disk run.name
  | .committing run todo => todo.Nodup ∧ (∀ c ∈ todo, c.isNormal = true) ∧ (job.begin.multiSource = false → todo = []) ∧
      (Awaits job rel todo → StagedGenuine services job entry rel disk run.name)
  | _ => True

structure Verified (s : System) : Prop where
  committed : ∀ data, (entry, data) ∈ s.committed → ∃ d, data = some d ∧ Genuine services entry d
  phase : InPhase services job entry content rel s.disk s.phase

end Invariant

section Workers

variable {services : Services} {job : Job} {entry : ManifestEntry} {content : Bytes} {rel : PathBuf}
  {disk : Disk} {run : Run} {data : Bytes} {w : Nat} {worker : Worker}

theorem known_setWorker (h : Known job run.workers)
    (hw : ∀ e i, chunkOf worker = some (e, i) → e ∈ job.entries ∧ i < e.chunkCount) :
    Known job (run.setWorker w worker).workers := by
  intro v worker' e i hv hc
  rw [get?_setWorker] at hv
  split at hv
  · cases hv
    exact hw e i hc
  · exact h v worker' e i hv hc

theorem markingRight_setWorker (h : MarkingRight entry content data run.workers)
    (hw : ∀ e i, worker = .marking e i → e.id = entry.id → Agrees data content i.toNat) :
    MarkingRight entry content data (run.setWorker w worker).workers := by
  intro v e i hv he
  rw [get?_setWorker] at hv
  split at hv
  · cases hv
    exact hw e i rfl he
  · exact h v e i hv he

section

variable (h : Building services job entry content rel disk run data)
include h

theorem Building.turn (hk : ∀ e i, chunkOf worker = some (e, i) → e ∈ job.entries ∧ i < e.chunkCount)
    (hm : ∀ e i, worker = .marking e i → e.id = entry.id → Agrees data content i.toNat) :
    Building services job entry content rel disk (run.setWorker w worker) data :=
  ⟨⟨h.file, h.length, h.fresh⟩, markingRight_setWorker h.marking hm, known_setWorker h.known hk⟩

theorem Building.rest (hn : chunkOf worker = none) :
    Building services job entry content rel disk (run.setWorker w worker) data := by
  refine h.turn (fun e i hc => ?_) ?_
  · rw [hn] at hc
    cases hc
  · rintro e i rfl
    cases hn

theorem Building.elsewhere {path : PathBuf} (hp : path ≠ place services job rel run.name) (bytes : Bytes) :
    Building services job entry content rel (disk.insert path bytes) run data := by
  refine ⟨⟨?_, h.length, h.fresh⟩, h.marking, h.known⟩
  rw [Table.get?_insert_of_ne _ _ (Ne.symm hp)]
  exact h.file

theorem Building.write {i : Nat} (hi : i * chunkSize ≤ content.length) (k : Nat) :
    Building services job entry content rel
      (disk.insert (place services job rel run.name) (writeAt data (i * chunkSize) ((chunk content i).take k))) run
      (writeAt data (i * chunkSize) ((chunk content i).take k)) := by
  refine ⟨⟨Table.get?_insert_self _ _ _, ?_, ?_⟩, ?_, h.known⟩
  · rw [length_writeAt (chunk_fits h.length hi k), h.length]
  · obtain ⟨fresh, hnodup, hlen, hall⟩ := h.fresh
    refine ⟨fresh, hnodup, hlen, fun j hj => ?_⟩
    obtain ⟨hlt, hs, hag⟩ := hall j hj
    exact ⟨hlt, hs, hag.write h.length hi k⟩
  · intro v e j hv he
    exact (h.marking v e j hv he).write h.length hi k

end

section

variable (entryId chunkIndex : UInt32) (offset : UInt64) (len : UInt32) (payload : Bytes) (blake3 : String)
  (e : ManifestEntry) (i : UInt32)
include entryId chunkIndex offset len payload blake3 e i

theorem receiveChunk_known
    (h : chunkOf (receiveChunk services job entryId chunkIndex offset len payload blake3) = some (e, i)) :
    e ∈ job.entries ∧ i < e.chunkCount := by
  unfold receiveChunk at h
  split at h
  · cases h
  rename_i hfind
  split at h
  · cases h
  split at h
  · cases h
  rename_i hgeometry
  split at h
  · cases h
  cases h
  refine ⟨List.mem_of_find?_eq_some hfind, ?_⟩
  unfold validateChunkGeometry at hgeometry
  split at hgeometry
  · cases hgeometry
  split at hgeometry
  · cases hgeometry
  · rename_i hlt
    exact UInt32.not_le.mp hlt

theorem receiveChunk_not_marking :
    receiveChunk services job entryId chunkIndex offset len payload blake3 ≠ .marking e i := by
  unfold receiveChunk
  repeat' split
  all_goals exact nofun

end

end Workers

structure Subject (services : Services) (job : Job) (entry : ManifestEntry) (content : Bytes) (rel : PathBuf) : Prop where
  valid : validateManifest job.begin.rootSource job.entries = .ok ()
  mem : entry ∈ job.entries
  regular : entry.isRegular = true
  accepted : Accepted .filesystem entry rel
  scanned : Scanned services entry content

section Steps

variable {services : Services} {job : Job} {entry : ManifestEntry} {content : Bytes} {rel : PathBuf}
  {s s' : System} {a : Action} {run : Run} {w : Nat} {e : ManifestEntry} {path : PathBuf} {i : UInt32} {disk : Disk} {data : Bytes}

theorem chunkOf_next (after : AfterFlush) : chunkOf after.next = none ∧ chunkOf after.failed = none := by
  cases after <;> exact ⟨rfl, rfl⟩

theorem committed_appendBatch (records : List Record) (k : Nat) :
    (appendBatch services job s records k).committed = s.committed := by
  unfold appendBatch
  split <;> rfl

theorem Building.taken (hb : Building services job entry content rel disk run data)
    {runtime : ResumeRuntime} {taken : Option (List PathBuf × List Record)}
    (ht : run.runtime.takePending = (runtime, taken)) :
    Building services job entry content rel disk { run with runtime := runtime } data := by
  have hkept : runtime.state = run.runtime.state ∧ runtime.freshChunks = run.runtime.freshChunks := by
    unfold ResumeRuntime.takePending at ht
    split at ht <;> cases ht <;> exact ⟨rfl, rfl⟩
  refine ⟨⟨hb.file, hb.length, ?_⟩, hb.marking, hb.known⟩
  obtain ⟨fresh, hnodup, hlen, hall⟩ := hb.fresh
  refine ⟨fresh, hnodup, ?_, ?_⟩
  · rw [ResumeRuntime.fresh, hkept.2]
    exact hlen
  · rw [hkept.1]
    exact hall

variable (h : Subject services job entry content rel)
include h

theorem Subject.same (hm : e ∈ job.entries) (he : e.id = entry.id) : e = entry :=
  entry_unique h.valid hm h.mem (.inl he)

theorem Subject.place_ne (hm : e ∈ job.entries) (hne : e ≠ entry) {name : Bytes} (hp : job.staged services name e = some path) :
    path ≠ place services job rel name := by
  obtain ⟨rel', hacc⟩ := accepted_entry h.valid hm
  rw [staged_eq name hacc] at hp
  cases hp
  intro heq
  have hc : rel'.components = rel.components := below_inj.mp heq
  have hrel : rel' = rel := by
    have ha := hacc.relative.trans h.accepted.relative.symm
    cases rel
    cases rel'
    simp_all
  exact hne (entry_unique h.valid hm h.mem (.inr (hacc.decoded.trans (hrel ▸ h.accepted.decoded.symm))))

theorem Subject.staged (name : Bytes) :
    job.staged services name entry = some (place services job rel name) :=
  staged_eq name h.accepted

theorem Subject.offset (hi : i < entry.chunkCount) :
    i.toNat * chunkSize ≤ content.length := by
  obtain ⟨size, hash, hsize, -, hcount⟩ := h.accepted.sized h.regular rfl
  have hl := h.scanned.size
  rw [hsize, Option.map_some, Option.some.injEq] at hl
  rw [← hl]
  exact chunk_offset_le (hcount ▸ hi)

theorem Building.written (hb : Building services job entry content rel disk run data) {payload : Bytes}
    {old : Bytes} (hw : run.workers.get? w = some (.writing e i payload))
    (hp : job.staged services run.name e = some path) (hd : disk.get? path = some old)
    (hpay : e.id ≠ entry.id ∨ payload = chunk content i.toNat) (k : Nat) :
    ∃ data', Building services job entry content rel
        (disk.insert path (writeAt old (i.toNat * chunkSize) (payload.take k))) run data' ∧
      (payload.length ≤ k → e.id = entry.id → Agrees data' content i.toNat) := by
  obtain ⟨hm, hi⟩ := hb.known w _ e i hw rfl
  by_cases he : e.id = entry.id
  · have hsame := h.same hm he
    subst hsame
    rcases hpay with hne | rfl
    · exact absurd rfl hne
    cases (h.staged run.name).symm.trans hp
    cases hb.file.symm.trans hd
    refine ⟨_, hb.write (h.offset hi) k, fun hk _ => ?_⟩
    rw [List.take_of_length_le hk]
    exact agrees_written hb.length (h.offset hi)
  · refine ⟨data, hb.elsewhere (h.place_ne hm (fun heq => he (heq ▸ rfl)) hp) _, fun _ hid => absurd hid he⟩

theorem Building.appended (hb : Building services job entry content rel s.disk run data) {records : List Record} (k : Nat)
    (hj : records = [] ∨ job.staged services run.name entry ≠ some (job.journalFile services)) :
    Building services job entry content rel (appendBatch services job s records k).disk run data := by
  refine ⟨⟨?_, hb.length, hb.fresh⟩, hb.marking, hb.known⟩
  rcases hj with rfl | hj
  · exact hb.file
  · rw [h.staged] at hj
    rw [get?_appendBatch services job s records k (fun he => hj (he ▸ rfl))]
    exact hb.file

theorem workerMove_building (hp : s.phase = .serving run)
    (hb : ∃ data, Building services job entry content rel s.disk run data)
    (hok : faithful services job entry content s a = true) (hm : WorkerMove services job s run w a s') :
    InPhase services job entry content rel s'.disk s'.phase ∧ s'.committed = s.committed := by
  obtain ⟨data, hb⟩ := hb
  cases hm with
  | deliver entryId chunkIndex offset len payload blake3 =>
    exact ⟨⟨data, hb.turn (receiveChunk_known entryId chunkIndex offset len payload blake3)
      (fun e i he => absurd he (receiveChunk_not_marking entryId chunkIndex offset len payload blake3 e i))⟩, rfl⟩
  | unknown | skip | unwritten | unmarked | workerDone | workerError => exact ⟨⟨data, hb.rest rfl⟩, rfl⟩
  | @accept e i _ hw =>
    refine ⟨⟨data, hb.turn (fun e' i' he => ?_) (by simp)⟩, rfl⟩
    cases he
    exact hb.known w _ e i hw rfl
  | @writePart k _ _ _ _ _ hw hpath hd =>
    simp only [faithful, hp, hw, Bool.or_eq_true, decide_eq_true_eq] at hok
    obtain ⟨data', hb', -⟩ := hb.written h hw hpath hd hok k
    rw [hp]
    exact ⟨⟨data', hb'⟩, rfl⟩
  | @write e i payload _ _ hw hpath hd =>
    simp only [faithful, hp, hw, Bool.or_eq_true, decide_eq_true_eq] at hok
    obtain ⟨data', hb', hag⟩ := hb.written h hw hpath hd hok payload.length
    rw [List.take_length] at hb'
    refine ⟨⟨data', hb'.turn (fun e' i' he => ?_) (fun e' i' he hid => ?_)⟩, rfl⟩
    · cases he
      exact hb.known w _ e i hw rfl
    · cases he
      exact hag (Nat.le_refl _) hid
  | @mark e i _ runtime flush hw hmark =>
    simp only [faithful, hp, hw, Bool.or_eq_true, decide_eq_true_eq] at hok
    obtain ⟨hmem, hi⟩ := hb.known w _ e i hw rfl
    have hfresh : FreshRight entry content data runtime := by
      refine hb.fresh.mark hmark (fun he => ?_)
      have hsame := h.same hmem he
      subst hsame
      exact ⟨hi, hb.marking w e i hw rfl, hok.resolve_left (not_not.mpr rfl)⟩
    have hb' : Building services job entry content rel s.disk { run with runtime := runtime } data :=
      ⟨⟨hb.file, hb.length, hfresh⟩, hb.marking, hb.known⟩
    exact ⟨⟨data, hb'.rest (by cases flush <;> rfl)⟩, rfl⟩
  | @idle after _ _ ht => exact ⟨⟨data, (hb.taken ht).rest (chunkOf_next after).1⟩, rfl⟩
  | @lock _ _ _ _ _ ht => exact ⟨⟨data, (hb.taken ht).rest rfl⟩, rfl⟩
  | @append records after hw =>
    have hj : records = [] ∨ job.staged services run.name entry ≠ some (job.journalFile services) := by
      unfold faithful at hok
      simpa [batchOf, hp, hw, batch] using hok
    exact ⟨⟨data, (hb.appended h _ hj).rest (chunkOf_next after).1⟩, committed_appendBatch records _⟩
  | @flushError k records after hw =>
    have hj : records = [] ∨ job.staged services run.name entry ≠ some (job.journalFile services) := by
      unfold faithful at hok
      simpa [batchOf, hp, hw, batch] using hok
    exact ⟨⟨data, (hb.appended h k hj).rest (chunkOf_next after).2⟩, committed_appendBatch records k⟩

end Steps

end Bore.TransferVerified
