import Bore.TransferVerified

namespace Bore.TransferCompleted

open List Option

open OsPath PathTable TransferManifest TransferReceiver TransferMoves TransferChunks TransferValid TransferContent
  TransferRecovery TransferVerified Runs

section Steps

variable {services : Services} {job : Job} {entry : ManifestEntry} {content : Bytes} {rel : PathBuf}
  {s s' : System} {a : Action} {run : Run}
variable {disk disk' : Disk} {found : Found} {name : Bytes} {child : Component} {collision : CollisionPolicy}
  {moved : Bool}

theorem Passes.genuine (h : Subject services job entry content rel) {data : Bytes}
    (hb : Built services job entry content rel s.disk run data) (hv : Passes services job s run entry) :
    StagedGenuine services job entry rel s.disk run.name := by
  obtain ⟨-, hfresh | ⟨path, data', hp, hd, hh⟩⟩ := hv h.regular
  · have hwhole := hb.fresh.whole hb.length h.scanned.chunks hfresh
    subst hwhole
    exact ⟨data, hb.file, h.scanned.size, h.scanned.hash⟩
  · rw [h.staged] at hp
    cases hp
    cases hb.file.symm.trans hd
    exact ⟨data, hb.file, by rw [hb.length]; exact h.scanned.size, hh⟩

theorem commitTree_final (h : Subject services job entry content rel) {data : Bytes}
    (hd : disk.get? (place services job rel run.name) = some data)
    (hap : apartOnCommit services job entry run found = true)
    (hc : commitTree services job run.options.collision found run.name disk = some disk') :
    (job.final run.name entry).bind disk'.get? = some data := by
  unfold apartOnCommit at hap
  rw [h.staged, final_eq run.name h.accepted] at hap
  rw [final_eq run.name h.accepted, bind_some]
  simp only [map_some, getD_some, Bool.or_eq_true, decide_eq_true_eq, Bool.and_eq_true,
    Bool.not_eq_true'] at hap
  unfold commitTree at hc
  split at hc
  · cases hc
    rw [get?_renameTree_target]
    exact hd
  rename_i hne
  obtain ⟨⟨hbackup, hfinal⟩, hout⟩ := hap.resolve_left hne
  split at hc
  all_goals cases hc
  have hkept : (disk.renameTree (job.finalPath run.name)
      ((job.stageDir services).joinBytes (asciiBytes "overwrite-backup"))).get? (place services job rel run.name) =
      some data := by
    rw [get?_renameTree_outside disk hbackup, hfinal]
    exact hd
  rw [Table.get?_retain, get?_renameTree_target]
  exact filter_eq_some_iff.mpr ⟨hkept, by simpa using hout⟩

theorem mem_movedFiles {entries : List ManifestEntry} {data : Option Bytes}
    (h : (entry, data) ∈ movedFiles job name disk entries) :
    entry ∈ entries ∧ data = (job.final name entry).bind disk.get? := by
  obtain ⟨e, hm, he⟩ := mem_map.mp h
  cases he
  exact ⟨(mem_filter.mp hm).1, rfl⟩

theorem child?_eq (h : Accepted .filesystem entry rel) : Job.child? entry = rel.components.head? := by
  rw [Job.child?, h.decoded]
  rfl

theorem join_child (root : PathBuf) (hc : child.isNormal = true) :
    root.join { components := [child] } = below root [child] := by
  refine join_eq_below root rfl ?_
  intro hm
  rw [← mem_singleton.mp hm] at hc
  cases hc

theorem rename_child (name : Bytes) (hc : child.isNormal = true) (hh : rel.components.head? = some child) :
    (disk.renameTree ((job.stageRoot services name).join { components := [child] })
      (job.destRoot.join { components := [child] })).get? (below job.destRoot rel.components) =
      disk.get? (place services job rel name) := by
  obtain ⟨rest, hrest⟩ := head?_eq_some_iff.mp hh
  rw [join_child _ hc, join_child _ hc, place, hrest]
  have hsplit (root : PathBuf) : below root (child :: rest) = below (below root [child]) rest := by
    rw [below_below]
    rfl
  rw [hsplit, hsplit, get?_renameTree_target]

theorem rename_other_child (name : Bytes) (hc : child.isNormal = true) (hh : rel.components.head? ≠ some child)
    (ho : under (job.destRoot.join { components := [child] }) (place services job rel name) = false) :
    (disk.renameTree ((job.stageRoot services name).join { components := [child] })
      (job.destRoot.join { components := [child] })).get? (place services job rel name) =
      disk.get? (place services job rel name) := by
  have hs : under ((job.stageRoot services name).join { components := [child] }) (place services job rel name) = false := by
    rw [join_child _ hc, place, under_below_below, Bool.eq_false_iff]
    intro hp
    obtain ⟨rest, hrest⟩ := isPrefixOf_iff_prefix.mp hp
    exact hh (by rw [← hrest]; rfl)
  rw [get?_renameTree_outside disk ho, hs]
  rfl

theorem inPhase_openStep (disk disk' : Disk) (options : Options) (satisfied : Bool) (name : Option Bytes) :
    InPhase services job entry content rel disk (openStep services job options satisfied name disk') := by
  unfold openStep createStep
  repeat' split
  all_goals exact trivial

section

variable (h : Subject services job entry content rel)
include h

theorem inPhase_regular (disk : Disk) (options : Options) (name : Bytes)
    (state : ResumeState) (plan : List ResumeFilePlan) :
    InPhase services job entry content rel disk (.preparing options name state plan job.regular) :=
  ⟨fun _ hm => (mem_filter.mp hm).1, .inl (mem_filter.mpr ⟨h.mem, h.regular⟩)⟩

theorem inPhase_resumeStep (disk : Disk) (options : Options)
    (state : ResumeState) : InPhase services job entry content rel disk (resumeStep job options state) := by
  unfold resumeStep
  split
  · exact trivial
  · exact inPhase_regular h disk _ _ _ _

theorem inPhase_prepare {options : Options}
    {state : ResumeState} {plan : List ResumeFilePlan} {e : ManifestEntry} {todo : List ManifestEntry} {path : PathBuf}
    (hin : InPhase services job entry content rel disk (.preparing options name state plan (e :: todo)))
    (hp : job.staged services name e = some path) : InPhase services job entry content rel
      (disk.insert path (setLen ((disk.get? path).getD []) (e.size.getD 0).toNat))
      (.preparing options name state plan todo) := by
  obtain ⟨hsub, hfile⟩ := hin
  refine ⟨fun e' hm => hsub e' (mem_cons_of_mem _ hm), ?_⟩
  by_cases he : e = entry
  · subst he
    rw [h.staged] at hp
    cases hp
    refine .inr ⟨_, Table.get?_insert_self _ _ _, ?_⟩
    obtain ⟨size, -, hsize, -⟩ := h.accepted.sized h.regular rfl
    have hl := h.scanned.size
    rw [hsize, map_some, some.injEq] at hl
    rw [length_setLen, hsize]
    exact hl
  rcases hfile with hm | ⟨data, hd, hl⟩
  · exact .inl ((mem_cons.mp hm).resolve_left (Ne.symm he))
  · refine .inr ⟨data, ?_, hl⟩
    rw [Table.get?_insert_of_ne _ _ (Ne.symm (h.place_ne (hsub e mem_cons_self) he hp))]
    exact hd

theorem inPhase_children (hg : StagedGenuine services job entry rel disk run.name) :
    InPhase services job entry content rel disk
      (.committing run (if job.begin.multiSource then job.children else [])) := by
  refine ⟨?_, ?_, ?_, fun _ => hg⟩
  · split
    · exact nodup_dedup _
    · exact nodup_nil
  · intro c hm
    split at hm
    · obtain ⟨e, he, hc⟩ := mem_filterMap.mp (mem_dedup.mp hm)
      obtain ⟨rel', hacc⟩ := accepted_entry h.valid he
      rw [child?_eq hacc] at hc
      exact hacc.normal c (mem_of_mem_head? hc)
    · cases hm
  · intro hmulti
    rw [hmulti]
    rfl

end

theorem commitChildTree_cases
    (hc : commitChildTree services job collision found name child disk = some (disk', moved)) :
    disk' = disk ∧ moved = false ∨ disk' = disk.renameTree ((job.stageRoot services name).join { components := [child] })
      (job.destRoot.join { components := [child] }) ∧ moved = true := by
  unfold commitChildTree at hc
  split at hc <;> cases hc
  · exact .inr ⟨rfl, rfl⟩
  · exact .inl ⟨rfl, rfl⟩
  · exact .inr ⟨rfl, rfl⟩

theorem committed_child (h : Subject services job entry content rel) {todo : List Component} (hm : child ∈ todo)
    (hin : InPhase services job entry content rel disk (.committing run todo))
    (hc : commitChildTree services job collision found run.name child disk = some (disk', moved)) (data : Option Bytes)
    (hd : (entry, data) ∈ if moved then
      movedFiles job run.name disk' (job.entries.filter (fun e => Job.child? e == some child)) else []) :
    ∃ d, data = some d ∧ Genuine services entry d := by
  obtain ⟨-, hnormal, hsingle, hg⟩ := hin
  rcases commitChildTree_cases hc with ⟨-, rfl⟩ | ⟨rfl, rfl⟩
  · cases hd
  obtain ⟨hmem, hdata⟩ := mem_movedFiles hd
  have hchild := (mem_filter.mp hmem).2
  rw [beq_iff_eq, child?_eq h.accepted] at hchild
  obtain ⟨d, hstaged, hgen⟩ := hg (.inr ⟨child, hm, hchild⟩)
  have hmulti : job.begin.multiSource = true := by
    by_contra hne
    rw [hsingle (by simpa using hne)] at hm
    cases hm
  refine ⟨d, ?_, hgen⟩
  rw [hdata, final_eq run.name h.accepted, bind_some, Job.finalPath, hmulti, if_pos rfl,
    rename_child run.name (hnormal child hm) hchild]
  exact hstaged

theorem inPhase_commitChild {todo : List Component} (hm : child ∈ todo)
    (hin : InPhase services job entry content rel disk (.committing run todo))
    (ho : under (job.destRoot.join { components := [child] }) (place services job rel run.name) = false)
    (hc : commitChildTree services job collision found run.name child disk = some (disk', moved)) :
    InPhase services job entry content rel disk' (.committing run (todo.erase child)) := by
  obtain ⟨hnodup, hnormal, hsingle, hg⟩ := hin
  have hmulti : job.begin.multiSource ≠ false := by
    intro hne
    rw [hsingle hne] at hm
    cases hm
  refine ⟨hnodup.erase child, fun c hc => hnormal c (mem_of_mem_erase hc), fun hne => absurd hne hmulti, ?_⟩
  rintro (hne | ⟨c, hmc, hhead⟩)
  · exact absurd hne hmulti
  · obtain ⟨hdiff, hmc⟩ := hnodup.mem_erase_iff.mp hmc
    obtain ⟨d, hd, hgen⟩ := hg (.inr ⟨c, hmc, hhead⟩)
    refine ⟨d, ?_, hgen⟩
    rcases commitChildTree_cases hc with ⟨rfl, -⟩ | ⟨rfl, -⟩
    · exact hd
    · rw [rename_other_child run.name (hnormal child hm) (fun he => hdiff (some.inj (hhead.symm.trans he))) ho]
      exact hd

theorem step_verified (h : Subject services job entry content rel) (hv : Verified services job entry content rel s)
    (hok : faithful services job entry content s a = true) (hs : step services job s a = some s') :
    Verified services job entry content rel s' := by
  have hin := hv.phase
  cases step_move hs with
  | halt | start | fold | create | checkpoint | reset | drop | decline | mismatch | commitEnd =>
    exact ⟨hv.committed, trivial⟩
  | openState satisfied name => exact ⟨hv.committed, inPhase_openStep _ _ _ satisfied name⟩
  | resume | resumeTruncated => exact ⟨hv.committed, inPhase_resumeStep h _ _ _⟩
  | begin => exact ⟨hv.committed, inPhase_regular h _ _ _ _ _⟩
  | prepare hp hpath =>
    rw [hp] at hin
    exact ⟨hv.committed, inPhase_prepare h hin hpath⟩
  | serve hp =>
    rw [hp] at hin
    obtain ⟨-, hm | ⟨data, hd, hl⟩⟩ := hin
    · cases hm
    refine ⟨hv.committed, data, ⟨hd, hl, ⟨[], nodup_nil, rfl, by simp⟩⟩, ?_, ?_⟩
    · intro w e i hw
      cases hw
    · intro w worker e i hw
      cases hw
  | connect w hp =>
    rw [hp] at hin
    obtain ⟨data, hb⟩ := hin
    have hb' : Building services job entry content rel s.disk (Run.setWorker _ w .reading) data := hb.rest rfl
    exact ⟨hv.committed, data, ⟨hb'.file, hb'.length, hb'.fresh⟩, hb'.marking, hb'.known⟩
  | worker hp hm =>
    rw [hp] at hin
    obtain ⟨hin', hc⟩ := workerMove_building h hp hin hok hm
    exact ⟨hc ▸ hv.committed, hin'⟩
  | summary _ hp =>
    rw [hp] at hin
    obtain ⟨data, hb⟩ := hin
    exact ⟨hv.committed, .inl ⟨h.mem, data, hb.toBuilt⟩⟩
  | @verify _ _ _ _ hp hpass =>
    rw [hp] at hin
    refine ⟨hv.committed, ?_⟩
    rcases hin with ⟨hm, data, hb⟩ | hg
    · rcases mem_cons.mp hm with rfl | hm
      · exact .inr (Passes.genuine h hb hpass)
      · exact .inl ⟨hm, data, hb⟩
    · exact .inr hg
  | verified hp =>
    rw [hp] at hin
    rcases hin with ⟨hm, -⟩ | hg
    · cases hm
    · exact ⟨hv.committed, inPhase_children h hg⟩
  | @commit run _ _ found hp hmulti hc =>
    rw [hp] at hin
    obtain ⟨-, -, -, hg⟩ := hin
    obtain ⟨d, hd, hgen⟩ := hg (.inl hmulti)
    have hap : apartOnCommit services job entry run found = true := by
      unfold faithful at hok
      rw [hp] at hok
      exact hok
    refine ⟨fun data hm => ?_, trivial⟩
    rcases mem_append.mp hm with hm | hm
    · rw [(mem_movedFiles hm).2]
      exact ⟨d, commitTree_final h hd hap hc, hgen⟩
    · exact hv.committed data hm
  | @commitChild run _ _ _ child _ hp hm hc =>
    rw [hp] at hin
    have ho : under (job.destRoot.join { components := [child] }) (place services job rel run.name) = false := by
      unfold faithful at hok
      rw [hp] at hok
      simpa only [h.staged, map_some, getD_some, Bool.not_eq_true'] using hok
    refine ⟨fun data hd => ?_, inPhase_commitChild hm hin ho hc⟩
    rcases mem_append.mp hd with hd | hd
    · exact committed_child h hm hin hc data hd
    · exact hv.committed data hd
  | unlink _ hp =>
    rw [hp]
    exact ⟨hv.committed, trivial⟩
  | cleanup => exact ⟨hv.committed, by split <;> exact trivial⟩
  | crash _ k => exact ⟨committed_appendBatch (s := s) _ k ▸ hv.committed, trivial⟩

theorem step_refused (hv : validateManifest job.begin.rootSource job.entries ≠ .ok ())
    (h : s.phase = .down ∧ s.committed = []) (hs : step services job s a = some s') :
    s'.phase = .down ∧ s'.committed = [] := by
  obtain ⟨hdown, hnone⟩ := h
  cases step_move hs with
  | halt => exact ⟨rfl, hnone⟩
  | start _ hvalid => exact absurd hvalid hv
  | openState _ _ hp | fold hp _ | create hp | resume hp | checkpoint hp | reset hp | begin hp | resumeTruncated hp | drop hp
  | prepare hp _ | serve hp | decline hp | connect _ hp _ | worker hp _ | summary _ hp _ | verify hp _ | mismatch hp _
  | verified hp | commit _ hp _ _ | commitEnd _ hp _ | commitChild _ _ hp _ _ | unlink _ hp | cleanup hp
  | crash _ _ hp =>
    rw [hdown] at hp
    cases hp

end Steps

section Runs

variable (services : Services) (job : Job)

/-- In every run that is faithful to a regular file of the manifest, from any
files at the destination, what is committed for it has the manifest's size and
hash. -/
theorem committed_file_matches_manifest {entry : ManifestEntry} {content : Bytes} (hm : entry ∈ job.regular)
    (hscan : Scanned services entry content) {disk : Disk} {s : System}
    (hrun : Reaches (step services job) (fun s a => faithful services job entry content s a = true) (idle disk) s)
    {data : Option Bytes} (hd : (entry, data) ∈ s.committed) :
    ∃ d, data = some d ∧ entry.size.map UInt64.toNat = some d.length ∧ entry.fullHash = some (services.hash d) := by
  obtain ⟨hmem, hreg⟩ := mem_filter.mp hm
  by_cases hv : validateManifest job.begin.rootSource job.entries = .ok ()
  · obtain ⟨rel, hacc⟩ := accepted_entry hv hmem
    have hsub : Subject services job entry content rel := ⟨hv, hmem, hreg, hacc, hscan⟩
    have hinv : Verified services job entry content rel s :=
      hrun.invariant ⟨by simp [idle], trivial⟩ (fun _ _ _ h hok hstep => step_verified hsub h hok hstep)
    exact hinv.committed data hd
  have hinv : s.phase = .down ∧ s.committed = [] :=
    hrun.invariant ⟨rfl, rfl⟩ (fun _ _ _ h _ hstep => step_refused hv h hstep)
  rw [hinv.2] at hd
  cases hd

end Runs

section Sample

theorem sampleHash_injective : Function.Injective sampleServices.hash := by
  intro xs ys h
  have hmap : xs.map (fun b => Char.ofNat b.toNat) = ys.map (fun b => Char.ofNat b.toNat) := String.ofList_injective h
  refine map_injective_iff.mpr ?_ hmap
  intro a b hab
  have htoNat (c : UInt8) : (Char.ofNat c.toNat).toNat = c.toNat := by
    have hc : c.toNat.isValidChar := .inl (Nat.lt_trans c.toNat_lt (by decide))
    rw [Char.ofNat, dif_pos hc]
    rfl
  apply UInt8.toNat_inj.mp
  rw [← htoNat a, ← htoNat b]
  exact congrArg Char.toNat hab

def fileJob : Job where
  begin := ⟨protocolVersion, "", "u:66", .filesystem, 1, 1, false⟩
  entries := [sampleFile 0 "" [1]]
  destRoot := ⟨true, [.normal (asciiBytes "inbox")]⟩
  filesystem := rfl

def transfer (payload : Bytes) : List Action :=
  [.start ⟨.fail, false⟩, .openState false (some (asciiBytes "f")), .persist, .truncate, .prepare, .prepare, .connect 0,
    .deliver 0 0 0 0 1 payload (sampleServices.hash payload), .check 0, .write 0, .mark 0, .workerDone 0, .lock 0,
    .append 0, .lock 0, .summary (fileJob.summary sampleServices), .verify, .verify, .commit .absent, .cleanup]

def isCompleted (s : System) : Bool :=
  match s.phase with
  | .completed => true
  | _ => false

theorem phase_of_isCompleted {s : System} (h : isCompleted s = true) : s.phase = .completed := by
  unfold isCompleted at h
  split at h
  · assumption
  · cases h

/-- The file changed after it was scanned: its new chunk comes with its own hash,
every chunk is fresh, and the transfer completes with content that the manifest
does not describe. -/
theorem changed_file_is_committed : Function.Injective sampleServices.hash ∧
      ∃ s entry data, Reaches (step sampleServices fileJob) always (idle ∅) s ∧ s.phase = .completed ∧
        entry ∈ fileJob.regular ∧ (entry, some data) ∈ s.committed ∧
        entry.fullHash ≠ some (sampleServices.hash data) := by
  have hend : ∃ s, Reaches (step sampleServices fileJob) always (idle ∅) s ∧
      (isCompleted s, s.committed) = (true, [(sampleFile 0 "" [1], some [2])]) :=
    exec_observe (transfer [2]) _ (by decide +kernel)
  obtain ⟨s, hrun, hs⟩ := hend
  simp only [Prod.mk.injEq] at hs
  refine ⟨sampleHash_injective, s, sampleFile 0 "" [1], [2], hrun, phase_of_isCompleted hs.1, by decide +kernel, ?_, ?_⟩
  · rw [hs.2]
    exact mem_singleton.mpr rfl
  · decide +kernel

theorem committed_file_matches_manifest_byte :
    ∃ (s : System) (d : Bytes), s.phase = .completed ∧ (sampleFile 0 "" [1], some d) ∈ s.committed ∧
      (sampleFile 0 "" [1]).size.map UInt64.toNat = some d.length ∧
      (sampleFile 0 "" [1]).fullHash = some (sampleServices.hash d) := by
  have hend : ∃ s, Reaches (step sampleServices fileJob)
      (fun s a => faithful sampleServices fileJob (sampleFile 0 "" [1]) [1] s a = true) (idle ∅) s ∧
      (isCompleted s, s.committed) = (true, [(sampleFile 0 "" [1], some [1])]) :=
    execWhile_observe (transfer [1]) _ (by decide +kernel)
  obtain ⟨s, hrun, hs⟩ := hend
  simp only [Prod.mk.injEq] at hs
  have hmem : (sampleFile 0 "" [1], some [1]) ∈ s.committed := by
    rw [hs.2]
    exact mem_singleton.mpr rfl
  have hscan : Scanned sampleServices (sampleFile 0 "" [1]) [1] := ⟨by decide +kernel, rfl, by decide +kernel⟩
  obtain ⟨d, hd, hsize, hhash⟩ := committed_file_matches_manifest sampleServices fileJob (by decide +kernel) hscan hrun hmem
  exact ⟨s, d, phase_of_isCompleted hs.1, hd ▸ hmem, hsize, hhash⟩

end Sample

end Bore.TransferCompleted
