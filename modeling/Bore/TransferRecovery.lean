import Bore.TransferCrash

namespace Bore.TransferRecovery

open List

open OsPath PathTable TransferManifest TransferResume TransferReceiver TransferJournal TransferDisk TransferMarks TransferMoves
  TransferCrash Runs

section Steps

variable {services : Services} {job : Job} {s s' : System} {a : Action}

theorem createStep_inMemory (W R : List Record) (options : Options) (name : Option Bytes) :
    InMemory W R (createStep services job options name) := by
  unfold createStep
  split
  · exact trivial
  · exact fun e i hm => absurd hm (not_marked_fresh _ _ _ _ e i)

theorem openStep_inMemory (h : Recovers services job s) (options : Options) (satisfied : Bool) (name : Option Bytes) :
    InMemory s.written s.recorded (openStep services job options satisfied name s.disk) := by
  unfold openStep
  split
  · split
    · exact trivial
    · exact createStep_inMemory _ _ options name
  rename_i bytes hsome
  split
  · exact createStep_inMemory _ _ options name
  rename_i state hd
  split
  · exact trivial
  · split
    · exact trivial
    · exact h.disk.state bytes state hsome hd

variable {W R : List Record}

theorem resumeStep_inMemory {state : ResumeState} (h : MarksIn (Proven W R) state) (options : Options) :
    InMemory W R (resumeStep job options state) := by
  unfold resumeStep
  split
  · exact trivial
  · exact h

theorem backup_free :
    holdsStateFile services job ((job.stageDir services).joinBytes (asciiBytes "overwrite-backup")) = false := by
  have hb : (job.stageDir services).joinBytes (asciiBytes "overwrite-backup") =
      below (job.stageDir services) [.normal (asciiBytes "overwrite-backup")] :=
    joinBytes_eq_below _ (by decide +kernel) (by decide +kernel)
  rw [holdsStateFile, hb, stateFile_eq, journalFile_eq, under_below_below, under_below_below]
  decide +kernel

variable {disk disk' : Disk} {collision : CollisionPolicy} {found : Found} {name : Bytes}

theorem commitTree_onDisk (h : OnDisk services job W R disk)
    (hfree : holdsStateFile services job (job.finalPath name) = false)
    (hc : commitTree services job collision found name disk = some disk') : OnDisk services job W R disk' := by
  unfold commitTree at hc
  split at hc
  · cases hc
    exact h.rename hfree
  split at hc
  all_goals cases hc
  exact ((h.rename backup_free).rename hfree).retain _

theorem commitChildTree_onDisk {child : Component} {moved : Bool} (h : OnDisk services job W R disk)
    (hfree : holdsStateFile services job (job.destRoot.join { components := [child] }) = false)
    (hc : commitChildTree services job collision found name child disk = some (disk', moved)) :
    OnDisk services job W R disk' := by
  unfold commitChildTree at hc
  split at hc <;> cases hc
  · exact h.rename hfree
  · exact h
  · exact h.rename hfree

theorem step_recovers (h : Recovers services job s) (hok : orderly services job s a = true)
    (hs : step services job s a = some s') : Recovers services job s' := by
  obtain ⟨hover, haligned⟩ := orderly_iff.mp hok
  have hmem := h.memory
  cases step_move hs with
  | halt | start | decline | verified | commitEnd => exact ⟨h.disk, trivial⟩
  | openState satisfied name => exact ⟨h.disk, openStep_inMemory h _ satisfied name⟩
  | @fold _ _ _ _ hp hj =>
    rw [hp] at hmem
    refine ⟨h.disk, ?_⟩
    have hf := marksIn_applyResumeJournal hmem h.disk.journal
    rw [hj] at hf
    exact hf
  | create hp | checkpoint hp | reset hp =>
    rw [hp] at hmem
    exact ⟨h.disk.persist hmem, hmem⟩
  | resume hp =>
    rw [hp] at hmem
    exact ⟨h.disk, resumeStep_inMemory hmem _⟩
  | begin hp =>
    rw [hp] at hmem
    exact ⟨h.disk.truncate, hmem⟩
  | resumeTruncated hp =>
    rw [hp] at hmem
    exact ⟨h.disk.truncate, resumeStep_inMemory hmem _⟩
  | drop => exact ⟨h.disk.truncate, trivial⟩
  | @prepare _ _ _ _ _ _ _ hp hpath =>
    unfold overwrites at hover
    rw [hp] at hover
    simp only [hpath] at hover
    rw [hp] at hmem
    exact ⟨h.disk.insert (List.Subset.refl _) _ hover, hmem⟩
  | serve hp =>
    rw [hp] at hmem
    exact ⟨h.disk, Serving.initial hmem _ _ _⟩
  | connect w hp hw =>
    rw [hp] at hmem
    exact ⟨h.disk, Serving.connect hmem hw _⟩
  | worker hp hm => exact workerMove_recovers h hp hok hm
  | summary _ hp hw =>
    rw [hp] at hmem
    exact ⟨h.disk, Serving.settled hmem hw⟩
  | verify hp =>
    rw [hp] at hmem
    exact ⟨h.disk, hmem⟩
  | mismatch hp hr =>
    rw [hp] at hmem
    exact ⟨h.disk, fun e i hm => hmem e i (marked_resetFile hr hm)⟩
  | @commit _ _ disk _ hp _ hc =>
    unfold overwrites at hover
    rw [hp] at hover
    exact ⟨commitTree_onDisk h.disk hover hc, trivial⟩
  | commitChild _ _ hp _ hc =>
    unfold overwrites at hover
    rw [hp] at hover
    exact ⟨commitChildTree_onDisk h.disk hover hc, trivial⟩
  | unlink path hp =>
    exact ⟨h.disk.erase path, hp ▸ hmem⟩
  | cleanup => exact ⟨h.disk, by split <;> exact trivial⟩
  | @crash _ _ _ w _ hp hw =>
    rw [hp] at hmem
    refine ⟨h.disk.appendBatch (Serving.workers hmem w _ hw) (fun hne hk => haligned ?_), trivial⟩
    simpa [appends, batchOf, hp, hw, batch, hk] using hne

end Steps

section Runs

variable (services : Services) (job : Job)

def idle (disk : Disk) : System := ⟨disk, .down, [], [], []⟩

variable {disk : Disk}

section

variable (hs : disk.get? (job.stateFile services) = none) (hj : disk.get? (job.journalFile services) = none)
include hs hj

theorem recovers_idle : Recovers services job (idle disk) := by
  refine ⟨⟨fun bytes state hb _ => ?_, fun bytes hb => ?_⟩, trivial⟩
  · rw [idle, hs] at hb
    cases hb
  · rw [idle, hj] at hb
    cases hb

end

/-- In orderly runs, whatever ends them, the state that a later run folds marks
only chunks whose bytes were written and whose record was appended; and folding
a second time adds nothing. -/
theorem folded_chunks_were_recorded {disk : Disk} {s : System} (hs : disk.get? (job.stateFile services) = none)
    (hj : disk.get? (job.journalFile services) = none)
    (hrun : Reaches (step services job) (fun s a => orderly services job s a = true) (idle disk) s) :
    (∀ options state replayed, s.phase = .folded options state replayed → ∀ entryId i, Marked state entryId i →
      ∃ chunk : UInt32, chunk.toNat = i ∧ (entryId, chunk) ∈ s.written ∧ (entryId, chunk) ∈ s.recorded) ∧
    ∀ state journal, applyResumeJournal (applyResumeJournal state journal).1 journal =
      ((applyResumeJournal state journal).1, 0) := by
  refine ⟨?_, applyResumeJournal_again⟩
  intro options state replayed hp entryId i hm
  have hmem := (hrun.invariant (recovers_idle services job hs hj)
    fun _ _ _ h hok hstep => step_recovers h hok hstep).memory
  rw [hp] at hmem
  exact hmem entryId i hm

end Runs

section Sample

def numberBytes (n : Nat) : Bytes := 1 :: replicate n 2

def rowBytes (row : List Nat) : Bytes := 0 :: row.flatMap numberBytes

def readByte (b : UInt8) (acc : Nat × List Nat × List (List Nat)) : Nat × List Nat × List (List Nat) :=
  if b = 2 then (acc.1 + 1, acc.2) else if b = 1 then (0, acc.1 :: acc.2.1, acc.2.2) else (0, [], acc.2.1 :: acc.2.2)

theorem readByte_number (n : Nat) (acc : List Nat × List (List Nat)) :
    (numberBytes n).foldr readByte (0, acc) = (0, n :: acc.1, acc.2) := by
  have htwos : (replicate n 2).foldr readByte (0, acc) = (n, acc) := by
    induction n with
    | zero => rfl
    | succ n ih =>
      rw [replicate_succ, foldr_cons, ih]
      rfl
  rw [numberBytes, foldr_cons, htwos]
  rfl

theorem readByte_row (row : List Nat) (rows : List (List Nat)) :
    (rowBytes row).foldr readByte (0, [], rows) = (0, [], row :: rows) := by
  have hnumbers : (row.flatMap numberBytes).foldr readByte (0, [], rows) = (0, row, rows) := by
    induction row with
    | nil => rfl
    | cons _ _ ih => rw [flatMap_cons, foldr_append, ih, readByte_number]
  rw [rowBytes, foldr_cons, hnumbers]
  rfl

theorem readByte_rows (rows : List (List Nat)) :
    (rows.flatMap rowBytes).foldr readByte (0, [], []) = (0, [], rows) := by
  induction rows with
  | nil => rfl
  | cons _ _ ih => rw [flatMap_cons, foldr_append, ih, readByte_row]

def textRow (text : String) : List Nat := text.toList.map Char.toNat

def rowText (row : List Nat) : String := String.ofList (row.map Char.ofNat)

def fileRow (file : FileResumeState) : List Nat := file.entryId.toNat :: file.completed.map Bool.toNat

def rowFile (row : List Nat) : FileResumeState := ⟨UInt32.ofNat (row.headD 0), row.tail.map (· == 1)⟩

def sampleEncode (state : ResumeState) : Bytes :=
  ([state.protocolVersion.toNat] :: textRow state.transferId :: textRow state.manifestHash :: textRow state.finalName ::
    state.files.map fileRow).flatMap rowBytes

def sampleDecode (bytes : Bytes) : Option ResumeState :=
  match (bytes.foldr readByte (0, [], [])).2.2 with
  | [version] :: transferId :: manifestHash :: finalName :: files =>
    some ⟨UInt32.ofNat version, rowText transferId, rowText manifestHash, rowText finalName, files.map rowFile⟩
  | _ => none

theorem rowText_textRow (text : String) : rowText (textRow text) = text := by
  simp [rowText, textRow, Function.comp_def]

theorem rowFile_fileRow (file : FileResumeState) : rowFile (fileRow file) = file := by
  have hb : ((fun n : Nat => n == 1) ∘ Bool.toNat) = id := by
    funext b
    cases b <;> rfl
  simp [rowFile, fileRow, hb]

theorem sampleDecode_sampleEncode (state : ResumeState) : sampleDecode (sampleEncode state) = some state := by
  have hf : rowFile ∘ fileRow = id := funext rowFile_fileRow
  simp only [sampleDecode, sampleEncode, readByte_rows, rowText_textRow, map_map, hf, map_id,
    UInt32.ofNat_toNat]

def sampleServices : Services where
  hash bytes := String.ofList (bytes.map (fun b => Char.ofNat b.toNat))
  manifestHash _ _ _ := ""
  transferHash _ := ""
  encodeState := sampleEncode
  decodeState := sampleDecode
  decode_encode := sampleDecode_sampleEncode

def sampleFile (id : UInt32) (relPath : String) (content : Bytes) : ManifestEntry :=
  ⟨id, relPath, .regularFile, some (UInt64.ofNat content.length), some (sampleServices.hash content),
    chunkCountFor (UInt64.ofNat content.length), none, none, none⟩

def sampleRoot : ManifestEntry := ⟨0, "", .directory, none, none, 0, none, none, none⟩

def sampleJob : Job where
  begin := ⟨protocolVersion, "", "u:64", .filesystem, 3, 1, false⟩
  entries := [sampleRoot, sampleFile 1 "u:61" [7], sampleFile 257 "u:62" [8]]
  destRoot := ⟨true, [.normal (asciiBytes "inbox")]⟩
  filesystem := rfl

def opening : List Action := [.start ⟨.fail, false⟩, .openState false (some (asciiBytes "d"))]

def sending : List Action :=
  [.prepare, .prepare, .prepare, .connect 0, .deliver 0 1 0 0 1 [7] (sampleServices.hash [7]), .check 0, .write 0,
    .mark 0, .workerDone 0, .lock 0]

def foldedState (s : System) : Option ResumeState :=
  match s.phase with
  | .folded _ state _ => some state
  | _ => none

theorem phase_of_foldedState {s : System} {state : ResumeState} (h : foldedState s = some state) :
    ∃ options replayed, s.phase = .folded options state replayed := by
  unfold foldedState at h
  split at h
  · rename_i options _ replayed hp
    cases h
    exact ⟨options, replayed, hp⟩
  · cases h

/-- The first run is killed one byte into its record. The second one finds
nothing to fold, keeps that byte and appends after it, and the third one reads
the record of a chunk that was never sent. -/
theorem torn_record_marks_other_chunk :
    ∃ s options state replayed, Reaches (step sampleServices sampleJob) always (idle ∅) s ∧
      s.phase = .folded options state replayed ∧ Marked state 257 0 ∧ (257, 0) ∉ s.written ∧ (257, 0) ∉ s.recorded := by
  have hend : ∃ s, Reaches (step sampleServices sampleJob) always (idle ∅) s ∧
      (foldedState s, s.written, s.recorded) =
        (some ⟨3, "", "", "u:64", [⟨1, [false]⟩, ⟨257, [true]⟩]⟩, [(1, 0), (1, 0)], [(1, 0)]) :=
    exec_observe (opening ++ [.persist, .truncate] ++ sending ++ [.stop 0 1] ++
      opening ++ [.fold, .persist] ++ sending ++ [.append 0, .stop 0 0] ++ opening ++ [.fold])
      _ (by decide +kernel)
  obtain ⟨s, hrun, hs⟩ := hend
  simp only [Prod.mk.injEq] at hs
  obtain ⟨hf, hw, hr⟩ := hs
  obtain ⟨options, replayed, hp⟩ := phase_of_foldedState hf
  refine ⟨s, options, _, replayed, hrun, hp, ⟨⟨257, [true]⟩, by simp, rfl, rfl⟩, ?_, ?_⟩
  · rw [hw]
    decide
  · rw [hr]
    decide

theorem folded_chunks_were_recorded_whole :
    ∃ (s : System) (options : Options) (state : ResumeState) (replayed : Nat),
      s.phase = .folded options state replayed ∧ Marked state 1 0 ∧
      ∃ chunk : UInt32, chunk.toNat = 0 ∧ (1, chunk) ∈ s.written ∧ (1, chunk) ∈ s.recorded := by
  have hend : ∃ s, Reaches (step sampleServices sampleJob) (fun s a => orderly sampleServices sampleJob s a = true)
      (idle ∅) s ∧ foldedState s = some ⟨3, "", "", "u:64", [⟨1, [true]⟩, ⟨257, [false]⟩]⟩ :=
    execWhile_observe (opening ++ [.persist, .truncate] ++ sending ++ [.append 0, .stop 0 0] ++ opening ++ [.fold])
      foldedState (by decide +kernel)
  obtain ⟨s, hrun, hf⟩ := hend
  obtain ⟨options, replayed, hp⟩ := phase_of_foldedState hf
  have hm : Marked ⟨3, "", "", "u:64", [⟨1, [true]⟩, ⟨257, [false]⟩]⟩ 1 0 := ⟨⟨1, [true]⟩, by simp, rfl, rfl⟩
  exact ⟨s, options, _, replayed, hp, hm,
    (folded_chunks_were_recorded sampleServices sampleJob rfl rfl hrun).1 options _ replayed hp 1 0 hm⟩

end Sample

end Bore.TransferRecovery
