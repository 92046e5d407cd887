import Bore.DownloadArchive
import Bore.DownloadWork

namespace Bore.Download

open Frames Runs List

/-! ### What a source sends for a commit -/

section Sends

variable (hash : Hash) (fragment : Nat) (ranges : List Range)

/-- A raw source and a recipient that agree: the source reads the manifest's
chunks, and the recipient holds what the commit lets the source skip. -/
structure RawSends (content : Nat → Bytes) (b : Books) : Prop where
  archive : b.archive = false
  finalEntry : b.finalEntry = none
  reads : Reads hash content b.entry
  separated : Separated b.verifiedRanges
  within : ∀ i, covered b.verifiedRanges i = true → i < b.entry.chunkCount
  capped : b.verifiedRanges.length ≤ maxResumeRanges
  bounded : ∀ r ∈ ranges, inBounds b.entry.chunkCount r = true
  few : ranges.length ≤ maxResumeRanges
  resumed : ∀ i, covered ranges i = true → covered b.verifiedRanges i = true
  safe : totalLength ((outside b.entry.chunkCount ranges).map content) ≤ maxSafeInteger

def archiveSkip : Nat := Books.rangesEnd (verifiedPrefix (ranges.filter (fun r => r.1 ≤ r.2)))

/-- An archive's source and a recipient that agree: what the source skips are
whole chunks whose leaves the recipient has. -/
structure ArchiveSends (chunks : List Bytes) (b : Books) : Prop where
  archive : b.archive = true
  chunked : Chunked chunks
  counted : b.leaves.length = b.archiveChunks
  verified : b.verifiedRanges = ledgerRanges b.archiveChunks
  skipped : archiveSkip ranges ≤ b.archiveChunks
  within : archiveSkip ranges ≤ chunks.length
  whole : ∀ chunk ∈ chunks.take (archiveSkip ranges), chunk.length = chunkBytes
  leaves : b.leaves.take (archiveSkip ranges) = (chunks.take (archiveSkip ranges)).map hash.sha256
  expected : ∀ tuple, b.expectedTuple = some tuple → tuple = archiveTuple hash chunks

/-- The stream of a source that agrees with the recipient's books, and what
the books say once it is verified. -/
inductive Sends (b : Books) : List Opened → (Books → Prop) → Prop
  | raw {content} (h : RawSends hash ranges content b) :
      Sends b (rawStream fragment ((outside b.entry.chunkCount ranges).map content)) (fun b => b.complete = true)
  | archive {chunks} (h : ArchiveSends hash ranges chunks b) :
      Sends b (archiveStream hash fragment chunks (archiveSkip ranges))
        (fun b => b.finalEntry = some (archiveTuple hash chunks))

variable {hash fragment ranges} {b : Books}

variable {content : Nat → Bytes}

theorem totalLength_windows {entry : Entry} (h : Reads hash content entry) {plan : List Nat}
    (hp : ∀ i ∈ plan, i < entry.chunkCount) :
    totalLength (plan.map content) = (plan.map (chunkWindow entry.size)).sum := by
  rw [totalLength, map_map]
  refine congrArg sum (map_congr_left fun i hi => ?_)
  exact (h i (hp i hi)).1

theorem rawCourse_committed (hf : 0 < fragment) (h : RawSends hash ranges content b) :
    RawCourse hash fragment content (b.committed ranges) .consuming
      (rawStream fragment ((outside b.entry.chunkCount ranges).map content)) := by
  have hvalid : ∀ r ∈ b.verifiedRanges, r.1 ≤ r.2 := fun r hr => (h.separated.1 r hr).le
  have hrvalid : ∀ r ∈ ranges, r.1 ≤ r.2 := by
    intro r hr
    have hb := h.bounded r hr
    simp only [inBounds, Bool.and_eq_true, decide_eq_true_eq] at hb
    exact hb.1
  have hfilter : ranges.filter (inBounds b.entry.chunkCount) = ranges := filter_eq_self.mpr h.bounded
  have hplan : outside b.entry.chunkCount (capRanges (coalesceRanges ranges)) = outside b.entry.chunkCount ranges := by
    simp only [outside, covered_capRanges h.few hrvalid]
  have hplanned : ∀ i ∈ outside b.entry.chunkCount ranges, i < b.entry.chunkCount := fun i hi => (mem_outside.mp hi).1
  have hbytes := totalLength_windows h.reads hplanned
  have hcommitted : b.committed ranges = { b with
      state := .receiving
      chunkBuffers := []
      receivedBytes := 0
      plan := outside b.entry.chunkCount ranges
      planPos := 0
      expectedBytes := totalLength ((outside b.entry.chunkCount ranges).map content)
      verifiedRanges := capRanges (coalesceRanges b.verifiedRanges) } := by
    unfold Books.committed Books.applyCommitPlan Books.adoptAttempt Books.planRaw Books.windowBytes Books.chunkCount
    simp only [h.archive, h.finalEntry, Bool.false_eq_true, if_false, hfilter, hplan, hbytes]
  have hcov := covered_capRanges h.capped hvalid
  have hbooks : RawBooks hash content (b.committed ranges) := by
    rw [hcommitted]
    exact ⟨h.archive, h.finalEntry, h.reads, hplanned, h.safe, separated_capRanges h.capped h.separated,
      fun i hi => h.within i (by rw [← hcov i]; exact hi)⟩
  have htail : rawTail fragment content (b.committed ranges) (b.committed ranges).planPos =
      rawStream fragment ((outside b.entry.chunkCount ranges).map content) := by
    rw [hcommitted]
    rfl
  have hplace := rawAt_tail hf hbooks (by rw [hcommitted]) (by rw [hcommitted]; exact Nat.zero_le _)
  rw [htail] at hplace
  refine .on hbooks hplace ?_ ?_ ?_
  · rw [hcommitted, rawStream, dataBytes_append, dataBytes_dataFrames hf]
    exact Nat.zero_add _
  · exact .inr rfl
  · rw [hcommitted]
    intro i hi
    rw [hcov i]
    cases hc : covered ranges i with
    | true => exact .inl (h.resumed i hc)
    | false => exact .inr (mem_outside.mpr ⟨hi, hc⟩)

variable {chunks : List Bytes}

theorem totalLength_whole (h : ∀ chunk ∈ chunks, chunk.length = chunkBytes) :
    totalLength chunks = chunks.length * chunkBytes := by
  rw [totalLength, map_congr_left h, map_const', sum_replicate_nat]

theorem archiveCourse_committed (hf : 0 < fragment) (h : ArchiveSends hash ranges chunks b) :
    ArchiveCourse hash fragment chunks (b.committed ranges) .consuming
      (archiveStream hash fragment chunks (archiveSkip ranges)) := by
  generalize hk : archiveSkip ranges = k at *
  have hskip := h.skipped
  have hwithin := h.within
  have hwhole := h.whole
  have hleaves := h.leaves
  rw [hk] at hskip hwithin hwhole hleaves
  have hkeep : b.replanKeep ranges = k := by
    rw [Books.replanKeep, h.verified, rangesEnd_ledgerRanges]
    change min (archiveSkip ranges) _ = k
    rw [hk, Nat.min_eq_left hskip]
  have hledger : (b.committed ranges).ledger = b.ledger.replanned k := by
    rw [← hkeep]
    exact ledger_adopt_commit h.verified h.archive h.counted ranges
  have hcount : (b.committed ranges).archiveChunks = k := congrArg Ledger.archiveChunks hledger
  have hcommitted : b.committed ranges = { b.adoptAttempt.replanArchive ranges with state := .receiving } := by
    unfold Books.committed Books.applyCommitPlan
    rw [if_pos ((archive_adoptAttempt b).trans h.archive)]
  have hexp : b.adoptAttempt.expectedTuple = b.expectedTuple := by
    unfold Books.adoptAttempt
    simp only [h.archive, if_true]
    rfl
  have hbuf : (b.committed ranges).chunkBuffers = [] := by
    rw [hcommitted]
    rfl
  have hbooks : ArchiveBooks hash chunks (b.committed ranges) := by
    refine ⟨?_, h.chunked, ?_, ?_, ?_, ?_⟩
    · exact (archive_applyCommitPlan _ ranges).trans ((archive_adoptAttempt b).trans h.archive)
    · rw [hcount]
      exact hwithin
    · rw [hcount, ← hleaves, ← setLength_of_le (by rw [h.counted]; exact hskip)]
      exact congrArg Ledger.leaves hledger
    · rw [hcount, totalLength_whole hwhole, length_take, Nat.min_eq_left hwithin]
      exact congrArg Ledger.archiveBytes hledger
    · rw [hcommitted]
      intro tuple ht
      exact h.expected tuple (hexp ▸ ht)
  have hplace : ArchiveAt hash fragment chunks (b.committed ranges) .consuming _ := archiveAt_tail hf hbooks hbuf
  rw [hcount] at hplace
  exact .on hbooks hplace (.inr (by rw [hcommitted]))

variable {stream : List Opened} {done : Books → Prop}

theorem Sends.course (h : Sends hash fragment ranges b stream done) (hf : 0 < fragment) :
    ∃ Course, Courses hash Course ∧ Course (b.committed ranges) .consuming stream ∧
      ∀ b', Course b' .consuming [] → done b' := by
  cases h with
  | raw h =>
    exact ⟨RawCourse hash fragment _, rawCourse_courses hf, rawCourse_committed hf h, fun _ hc => (rawCourse_over hc).1⟩
  | archive h =>
    exact ⟨ArchiveCourse hash fragment _, archiveCourse_courses hf, archiveCourse_committed hf h,
      fun _ hc => (archiveCourse_over hc).1⟩

theorem Sends.fits (h : Sends hash fragment ranges b stream done)
    (hf : 0 < fragment) (hle : fragment ≤ fragmentBytes) : ∀ opened ∈ stream, opened.fits = true := by
  cases h with
  | raw => exact fits_rawStream hf hle
  | archive => exact fits_archiveStream hf hle

end Sends

/-! ### Every interleaving -/

section Runs

variable {hash : Hash} {fragment : Nat} {ranges : List Range} {attempt : AttemptId} {s : System}
  {stream : List Opened} {done : Books → Prop} {carriers : List (List Nat)} {l₀ l : Link}

theorem sound_of_reaches (hf : 0 < fragment) (hle : fragment ≤ fragmentBytes) (hs : Settled attempt s)
    (hc : Carried stream carriers) (hsend : Sends hash fragment ranges s.transfer.toBooks stream done)
    (hb : Begins attempt ranges s carriers l₀)
    (hr : Reaches (Link.step hash attempt stream) (fun l a => l.timely attempt stream a = true) l₀ l) :
    ∃ Course u w, Courses hash Course ∧ (∀ b, Course b .consuming [] → done b) ∧
      l.Sound attempt stream Course ranges s.transfer.toBooks u w := by
  obtain ⟨Course, hC, hstart, hdone⟩ := hsend.course hf
  obtain ⟨u, h₀⟩ := sound_begins hs hc rfl hstart hb
  refine ⟨Course, u, _, hC, hdone, hr.invariant h₀ ?_⟩
  intro l a l' h ht hstep
  exact sound_step hC (hsend.fits hf hle) hstart h ht hstep

variable {Course : Books → Point → List Opened → Prop} {b₀ : Books} {u : Option (AttemptId × Nat)}

theorem Link.Sound.ends {w : Bool} (h : l.Sound attempt stream Course ranges b₀ u w) (ho : l.finished = true) :
    Course l.page.transfer.toBooks .consuming [] := by
  simp only [Link.finished, Bool.and_eq_true, List.isEmpty_iff, Option.isNone_iff_eq_none] at ho
  obtain ⟨⟨hcar, hcom⟩, hq⟩ := ho
  obtain ⟨consumed, next, hflow⟩ := h.flow
  rw [hcar, hcom] at hflow
  exact hflow.ends hq

theorem Link.Sound.live {w : Bool} (h : l.Sound attempt stream Course ranges b₀ u w) : l.page.live = true := by
  obtain ⟨consumed, next, hflow⟩ := h.flow
  exact hflow.live

/-- Whatever the order in which the frames and the commit arrive, as long as
no frame is consumed before the commit is handled: the download never fails,
every run of it ends, and at its end the stream is verified and its FINAL
accepted. -/
theorem frames_outrun_commit (hf : 0 < fragment) (hle : fragment ≤ fragmentBytes) (hs : Settled attempt s)
    (hc : Carried stream carriers) (hsend : Sends hash fragment ranges s.transfer.toBooks stream done)
    (hb : Begins attempt ranges s carriers l₀)
    (hr : Reaches (Link.step hash attempt stream) (fun l a => l.timely attempt stream a = true) l₀ l) :
    l.page.live = true ∧
      (l.finished = true → l.page.transfer.state = .completePending ∧ done l.page.transfer.toBooks) ∧
      (l.finished = false → ∃ a, (l.step hash attempt stream a).isSome = true) ∧
      ∀ a l', l.step hash attempt stream a = some l' → l'.work stream.length < l.work stream.length := by
  obtain ⟨Course, u, w, hC, hdone, h⟩ := sound_of_reaches hf hle hs hc hsend hb hr
  refine ⟨h.live, fun ho => ?_, fun ho => step_enabled h ho, fun a l' hstep => step_work h hstep⟩
  exact ⟨hC.ends _ (h.ends ho), hdone _ (h.ends ho)⟩

end Runs

def pairEntry : Entry := ⟨2, [Hash.sha256 default [1, 2]], by decide⟩

def pairStart : System := startDownload false pairEntry ⟨[], [], none, false, ∅⟩

def pairStream : List Opened := rawStream 1 [[1, 2]]

theorem pair_sends {b : Books} (ha : b.archive = false) (he : b.entry = pairEntry) (hf : b.finalEntry = none)
    (hv : b.verifiedRanges = []) : Sends default 1 [] b pairStream (fun b => b.complete = true) := by
  have hstream : pairStream = rawStream 1 ((outside b.entry.chunkCount []).map fun _ => [1, 2]) := by
    rw [he]
    rfl
  rw [hstream]
  refine Sends.raw ⟨ha, hf, ?_, ?_, ?_, ?_, ?_, ?_, ?_, ?_⟩
  · rw [he]
    intro i hi
    obtain rfl : i = 0 := Nat.lt_one_iff.mp hi
    decide
  · rw [hv]
    exact separated_nil
  · rw [hv]
    intro i hi
    cases hi
  · rw [hv]
    decide
  · intro r hr
    cases hr
  · decide
  · intro i hi
    cases hi
  · rw [he]
    decide

theorem settled_of_idle {s : System} (hl : s.live = true) (ho : s.online = true) (hd : s.derivations = ∅)
    (hc : s.chain = []) (hr : s.running = none) (attempt : AttemptId) : Settled attempt s := by
  refine ⟨hl, ho, hd, fun job hj => ?_, fun p hp => ?_⟩
  · rw [hc] at hj
    cases hj
  · rw [hr] at hp
    cases hp

def pairUpgraded : System :=
  (exec (step default) pairStart
    [.beginDirect 1 1, .derive 0 false, .derive 0 false, .commitDirect 1 [], .prepareUpgrade 2 1]).get (by decide +kernel)

theorem pair_carried : Carried pairStream [[0, 1, 2]] := ⟨by decide, by decide⟩

theorem frames_outrun_commit_pair :
    ∃ l, Reaches (Link.step default 1 pairStream) (fun l a => l.timely 1 pairStream a = true)
        ⟨.direct, pairStart.beginDirect 1 1, [[0, 1, 2]], some []⟩ l ∧
      l.finished = true ∧ l.page.live = true ∧ l.page.transfer.complete = true := by
  let actions : List LinkAction :=
    [.arrives 0 false, .derive 0 false, .derive 0 false, .pump, .pump, .commits, .arrives 0 false, .arrives 0 false]
  refine execWhile_shows (actions ++ replicate 9 .pump) _ (by decide +kernel) fun l hr ho => ?_
  have h := frames_outrun_commit (by decide) (by decide) (settled_of_idle rfl rfl rfl rfl rfl 1) pair_carried
    (pair_sends rfl rfl rfl rfl) (.first rfl rfl) hr
  exact ⟨h.1, (h.2.1 ho).2⟩

/-- A frame that is consumed before the commit is lost with the buffers that
the commit clears, and a frame of an upgrade that arrives before the commit is
dropped; either way the download fails. -/
theorem frames_outrun_commit_fails : (Settled 1 pairStart ∧ Carried pairStream [[0, 1, 2]] ∧
      Sends default 1 [] pairStart.transfer.toBooks pairStream (fun b => b.complete = true) ∧
      ∃ l, Reaches (Link.step default 1 pairStream) always
          ⟨.direct, pairStart.beginDirect 1 1, [[0, 1, 2]], some []⟩ l ∧ l.page.live = false) ∧
    (Reaches (step default) always pairStart pairUpgraded ∧ Settled 2 pairUpgraded ∧
      pairUpgraded.transfer.upgrade = some (2, 1) ∧
      Sends default 1 [] pairUpgraded.transfer.toBooks pairStream (fun b => b.complete = true) ∧
      ∃ l, Reaches (Link.step default 2 pairStream) always ⟨.direct, pairUpgraded, [[0, 1, 2]], some []⟩ l ∧
        l.page.live = false) := by
  refine ⟨⟨settled_of_idle rfl rfl rfl rfl rfl 1, pair_carried, pair_sends rfl rfl rfl rfl, ?_⟩,
    exec_reaches _ (Option.some_get _).symm, settled_of_idle rfl rfl rfl rfl rfl 2, rfl, pair_sends rfl rfl rfl rfl, ?_⟩
  · let actions : List LinkAction := [.derive 0 false, .derive 0 false, .arrives 0 false, .pump, .pump, .pump, .commits,
      .arrives 0 false, .arrives 0 false, .pump, .pump, .pump, .pump]
    exact exec_observe actions _ (by decide +kernel)
  · let actions : List LinkAction :=
      [.arrives 0 false, .commits, .derive 1 false, .derive 1 false, .arrives 0 false, .pump, .pump]
    exact exec_observe actions _ (by decide +kernel)

end Bore.Download
