import Bore.DownloadCourse

namespace Bore.Download

open Frames List

section Archive

variable (hash : Hash) (fragment : Nat) (chunks : List Bytes)

structure Chunked : Prop where
  nonempty : ∀ chunk ∈ chunks, chunk ≠ []
  atMost : ∀ chunk ∈ chunks, chunk.length ≤ chunkBytes
  full : ∀ i, i + 1 < chunks.length → ∀ chunk, chunks[i]? = some chunk → chunk.length = chunkBytes
  total : totalLength chunks ≤ maxSafeInteger
  count : chunks.length ≤ maxSafeInteger

def archiveTail (n : Nat) : List Opened :=
  dataFrames fragment (chunks.drop n) ++ [.final (archiveFinalPayload (archiveTuple hash chunks))]

/-- The chunk is the next one, and with FINAL it is the last. -/
inductive NextChunk (b : Books) : Goal → Bytes → List Opened → Prop
  | data {chunk} (hc : chunks[b.archiveChunks]? = some chunk) (hl : chunk.length = chunkBytes) :
      NextChunk b .archiveData chunk (archiveTail hash fragment chunks (b.archiveChunks + 1))
  | final {chunk} (hc : chunks[b.archiveChunks]? = some chunk) (hl : b.archiveChunks + 1 = chunks.length) :
      NextChunk b (.archiveFinal (archiveTuple hash chunks)) chunk []

inductive ArchiveAt (b : Books) : Point → List Opened → Prop
  | chunk {chunk pieces} (hc : chunks[b.archiveChunks]? = some chunk)
      (hp : ∀ piece ∈ pieces, piece ≠ []) (hs : b.chunkBuffers.flatten ++ pieces.flatten = chunk)
      (hl : pieces = [] → chunk.length < chunkBytes) :
      ArchiveAt b .consuming (pieces.map Opened.data ++ archiveTail hash fragment chunks (b.archiveChunks + 1))
  | last (hn : b.archiveChunks = chunks.length) (hb : b.chunkBuffers = []) :
      ArchiveAt b .consuming [.final (archiveFinalPayload (archiveTuple hash chunks))]
  | hashing {goal chunk stream} (hb : b.chunkBuffers = [])
      (hn : NextChunk hash fragment chunks b goal chunk stream) : ArchiveAt b (.hashing goal chunk) stream
  | writing {goal chunk stream} (hb : b.chunkBuffers = [])
      (hn : NextChunk hash fragment chunks b goal chunk stream) :
      ArchiveAt b (.writing goal chunk b.archiveChunks) stream
  | savingData (hb : b.chunkBuffers = []) :
      ArchiveAt b (.saving .archiveData) (archiveTail hash fragment chunks b.archiveChunks)
  | savingFinal (hb : b.chunkBuffers = []) (hn : b.archiveChunks = chunks.length) :
      ArchiveAt b (.saving (.archiveFinal (archiveTuple hash chunks))) []
  | rooting : ArchiveAt b (.rooting (archiveTuple hash chunks) (archiveTuple hash chunks).root) []
  | recording : ArchiveAt b (.recording (archiveTuple hash chunks)) []

structure ArchiveBooks (b : Books) : Prop where
  archive : b.archive = true
  chunked : Chunked chunks
  counted : b.archiveChunks ≤ chunks.length
  leaves : b.leaves = (chunks.take b.archiveChunks).map hash.sha256
  summed : b.archiveBytes = totalLength (chunks.take b.archiveChunks)
  expected : ∀ tuple, b.expectedTuple = some tuple → tuple = archiveTuple hash chunks

/-- The download of an archive is on course, or its FINAL was accepted. -/
inductive ArchiveCourse (b : Books) : Point → List Opened → Prop
  | on {point stream} (books : ArchiveBooks hash chunks b)
      (place : ArchiveAt hash fragment chunks b point stream)
      (active : b.state = .direct ∨ b.state = .receiving) : ArchiveCourse b point stream
  | done (complete : b.finalEntry = some (archiveTuple hash chunks)) (state : b.state = .completePending) :
      ArchiveCourse b .consuming []

variable {hash fragment chunks}

variable {b : Books}

theorem archiveAt_tail (hf : 0 < fragment) (hb : ArchiveBooks hash chunks b) (he : b.chunkBuffers = []) :
    ArchiveAt hash fragment chunks b .consuming (archiveTail hash fragment chunks b.archiveChunks) := by
  rcases Nat.lt_or_eq_of_le hb.counted with hlt | heq
  · have hc : chunks[b.archiveChunks]? = some chunks[b.archiveChunks] := getElem?_eq_getElem hlt
    have htail : archiveTail hash fragment chunks b.archiveChunks =
        (fragments fragment chunks[b.archiveChunks]).map Opened.data ++
          archiveTail hash fragment chunks (b.archiveChunks + 1) := by
      rw [archiveTail, drop_eq_getElem_cons hlt, dataFrames, flatMap_cons, append_assoc]
      rfl
    have hne := hb.chunked.nonempty _ (getElem_mem hlt)
    rw [htail]
    refine ArchiveAt.chunk hc (fun piece hp => (mem_fragments hf hp).1) ?_ ?_
    · rw [he, flatten_fragments hf]
      rfl
    · exact fun hz => absurd hz (fragments_ne_nil hf hne)
  have htail : archiveTail hash fragment chunks b.archiveChunks =
      [.final (archiveFinalPayload (archiveTuple hash chunks))] := by
    rw [archiveTail, heq, drop_length]
    rfl
  rw [htail]
  exact ArchiveAt.last heq he

variable {s : System} {p : Pump} {chunk : Bytes}

theorem archiveCourse_piece {piece : Bytes} {pieces : List Bytes}
    {later : List Opened} (hs : s.transfer.toBooks = b) (hb : ArchiveBooks hash chunks b)
    (hc : chunks[b.archiveChunks]? = some chunk) (hp : ∀ x ∈ piece :: pieces, x ≠ [])
    (hw : b.chunkBuffers.flatten ++ (piece :: pieces).flatten = chunk)
    (hl : later = pieces.map Opened.data ++ archiveTail hash fragment chunks (b.archiveChunks + 1))
    (ha : b.state = .direct ∨ b.state = .receiving) :
    ∃ b' point, s.acceptArchiveData hash p piece = (s.setBooks b').goes p point ∧
      ArchiveCourse hash fragment chunks b' point later := by
  subst hs
  have hflat : (s.transfer.chunkBuffers ++ [piece]).flatten ++ pieces.flatten = chunk := by
    rw [← hw, flatten_append, flatten_cons, flatten_nil, append_nil, flatten_cons,
      append_assoc]
  have hsum := congrArg length hflat
  rw [length_append] at hsum
  have hmost := hb.chunked.atMost chunk (mem_of_getElem? hc)
  let b' : Books := { s.transfer.toBooks with
    chunkBuffers := s.transfer.chunkBuffers ++ [piece]
    receivedBytes := s.transfer.receivedBytes + piece.length }
  have hbuf : b'.buffered = (s.transfer.chunkBuffers ++ [piece]).flatten.length := buffered_eq b'
  unfold System.acceptArchiveData
  by_cases hshort : b'.buffered < chunkBytes
  · refine ⟨b', .consuming, ?_, ?_⟩
    · rw [if_pos hshort]
      rfl
    · refine .on { hb with } ?_ ha
      rw [hl]
      refine ArchiveAt.chunk hc (fun x hx => hp x (mem_cons_of_mem _ hx)) hflat ?_
      rintro rfl
      rw [flatten_nil, append_nil] at hflat
      rw [← hflat, ← hbuf]
      exact hshort
  have hfull : b'.buffered = chunkBytes := by omega
  have hnil : pieces.flatten = [] := length_eq_zero_iff.mp (by omega)
  have hpieces : pieces = [] := by
    cases pieces with
    | nil => rfl
    | cons x => exact absurd (append_eq_nil_iff.mp hnil).1 (hp x (by simp))
  subst hpieces
  rw [flatten_nil, append_nil] at hflat
  refine ⟨{ b' with chunkBuffers := [] }, .hashing .archiveData chunk, ?_, ?_⟩
  · rw [if_neg hshort, if_neg (by rw [show Books.buffered _ = _ from hfull]; exact Nat.lt_irrefl _)]
    unfold System.commitArchiveChunk
    rw [if_neg]
    · rw [← hflat]
      rfl
    · change b'.buffered ≠ 0
      rw [hfull]
      decide
  · refine .on { hb with } ?_ ha
    rw [hl]
    refine ArchiveAt.hashing rfl (NextChunk.data hc ?_)
    rw [← hflat, ← hbuf]
    exact hfull

theorem archiveCourse_totals (hst : s.transfer.stale p.attempt = false)
    (hb : ArchiveBooks hash chunks s.transfer.toBooks) (hn : s.transfer.archiveChunks = chunks.length) :
    s.checkTotals hash p (archiveTuple hash chunks) =
      s.goes p (.rooting (archiveTuple hash chunks) (archiveTuple hash chunks).root) := by
  have hsum := hb.summed
  have hleaves := hb.leaves
  rw [hn, take_length] at hsum hleaves
  unfold System.checkTotals
  rw [if_neg (by rw [hst]; simp), if_neg (by rw [hsum]; simp [archiveTuple]),
    if_neg (by rw [hn]; simp [archiveTuple]), hleaves, fileRoot_eq]

variable (fragment) in
theorem archiveCourse_final (hst : s.transfer.stale p.attempt = false)
    (hb : ArchiveBooks hash chunks s.transfer.toBooks) (ha : s.transfer.state = .direct ∨ s.transfer.state = .receiving)
    (hwhere : s.transfer.archiveChunks = chunks.length ∧ s.transfer.chunkBuffers = [] ∨
      s.transfer.archiveChunks + 1 = chunks.length ∧
        chunks[s.transfer.archiveChunks]? = some s.transfer.chunkBuffers.flatten) :
    ∃ b' point, s.acceptFinal hash p (archiveFinalPayload (archiveTuple hash chunks)) = (s.setBooks b').goes p point ∧
      ArchiveCourse hash fragment chunks b' point [] := by
  have hparse : parseArchiveFinalPayload (archiveFinalPayload (archiveTuple hash chunks)) =
      some (archiveTuple hash chunks) :=
    parseArchiveFinalPayload_archiveFinalPayload (length_root hash chunks) hb.chunked.total hb.chunked.count
  unfold System.acceptFinal
  rw [if_pos hb.archive, hparse]
  unfold System.commitArchiveChunk
  dsimp only
  rcases hwhere with ⟨hn, he⟩ | ⟨hn, hc⟩
  · refine ⟨s.transfer.toBooks, .rooting (archiveTuple hash chunks) (archiveTuple hash chunks).root, ?_,
      .on hb ArchiveAt.rooting ha⟩
    rw [if_pos (by rw [buffered_eq, he]; rfl)]
    exact archiveCourse_totals hst hb hn
  have hne := hb.chunked.nonempty _ (mem_of_getElem? hc)
  refine ⟨{ s.transfer.toBooks with chunkBuffers := [] },
    .hashing (.archiveFinal (archiveTuple hash chunks)) s.transfer.chunkBuffers.flatten, ?_,
    .on { hb with }
      (ArchiveAt.hashing rfl (NextChunk.final hc hn)) ha⟩
  rw [if_neg]
  · rfl
  · rw [buffered_eq]
    exact fun hz => hne (length_eq_zero_iff.mp hz)

variable {goal : Goal} {stream : List Opened}

theorem NextChunk.isNext
    (h : NextChunk hash fragment chunks b goal chunk stream) : chunks[b.archiveChunks]? = some chunk := by
  cases h with
  | data hc => exact hc
  | final hc => exact hc

theorem NextChunk.hashed (h : NextChunk hash fragment chunks s.transfer.toBooks goal chunk stream)
    (hst : s.transfer.stale p.attempt = false) :
    s.hashed hash p goal chunk = s.goes p (.writing goal chunk s.transfer.archiveChunks) := by
  unfold System.hashed
  rw [if_neg (by rw [hst]; simp)]
  cases h <;> rfl

def countChunk (hash : Hash) (b : Books) (chunk : Bytes) : Books :=
  { b with
    leaves := b.leaves ++ [hash.sha256 chunk]
    archiveChunks := b.archiveChunks + 1
    archiveBytes := b.archiveBytes + chunk.length
    verifiedRanges := [(0, b.archiveChunks + 1)]
    record := true }

theorem NextChunk.noteChunk (h : NextChunk hash fragment chunks b goal chunk stream) :
    System.noteChunk hash b goal chunk b.archiveChunks = countChunk hash b chunk := by
  cases h <;> rfl

theorem ArchiveBooks.countChunk (hb : ArchiveBooks hash chunks b)
    (hc : chunks[b.archiveChunks]? = some chunk) : ArchiveBooks hash chunks (countChunk hash b chunk) := by
  obtain ⟨hlt, hget⟩ := List.getElem?_eq_some_iff.mp hc
  have htake : chunks.take (b.archiveChunks + 1) = chunks.take b.archiveChunks ++ [chunk] := by
    rw [take_succ_eq_append_getElem hlt, hget]
  refine ⟨hb.archive, hb.chunked, hlt, ?_, ?_, hb.expected⟩
  · change b.leaves ++ [hash.sha256 chunk] = (chunks.take (b.archiveChunks + 1)).map hash.sha256
    rw [htake, map_append, ← hb.leaves]
    rfl
  · change b.archiveBytes + chunk.length = totalLength (chunks.take (b.archiveChunks + 1))
    rw [htake, totalLength, map_append, sum_append, hb.summed]
    rfl

variable (hash fragment chunks) in
theorem archiveCourse_finish (hon : s.online = true) (p : Pump) :
    ∃ b completes, s.finishArchive p (archiveTuple hash chunks) =
        s.after b s.parts completes ⟨p.attempt, .consuming, p.rest⟩ ∧
      ArchiveCourse hash fragment chunks b .consuming [] := by
  refine ⟨{ s.transfer.toBooks with finalEntry := some (archiveTuple hash chunks), state := .completePending },
    s.completes + 1, ?_, .done rfl rfl⟩
  rw [System.finishArchive, finished_eq_after (by exact hon)]
  rfl

variable (fragment) in
theorem archiveCourse_root (hon : s.online = true) (p : Pump)
    (hb : ArchiveBooks hash chunks s.transfer.toBooks) (ha : s.transfer.state = .direct ∨ s.transfer.state = .receiving) :
    ∃ b completes point, s.checkRoot p (archiveTuple hash chunks) (archiveTuple hash chunks).root =
        s.after b s.parts completes ⟨p.attempt, point, p.rest⟩ ∧ ArchiveCourse hash fragment chunks b point [] := by
  have hany : s.transfer.expectedTuple.any (· ≠ archiveTuple hash chunks) = false := by
    cases he : s.transfer.expectedTuple with
    | none => rfl
    | some tuple => simp [hb.expected tuple he]
  unfold System.checkRoot
  rw [if_neg (fun h => h rfl), if_neg (by rw [hany]; simp)]
  split
  · refine ⟨{ s.transfer.toBooks with expectedTuple := some (archiveTuple hash chunks) }, s.completes,
      .recording (archiveTuple hash chunks), rfl, .on ?_ ArchiveAt.recording ha⟩
    exact { hb with expected := fun tuple ht => (Option.some.inj ht).symm }
  · obtain ⟨b, completes, he, hc⟩ := archiveCourse_finish hash fragment chunks
      (s := s.setTransfer { s.transfer with expectedTuple := some (archiveTuple hash chunks) }) hon p
    exact ⟨b, completes, .consuming, he, hc⟩

theorem archiveCourse_advances (hf : 0 < fragment) (s : System) (p : Pump) :
    Advances hash (ArchiveCourse hash fragment chunks) s p := by
  intro later h hst hlive hon hrest
  obtain ⟨attempt, point, rest⟩ := p
  generalize hg : rest ++ later = stream at h
  cases h with
  | done =>
    rw [append_eq_nil_iff] at hg
    exact absurd hg.1 (hrest rfl)
  | on books place active =>
    cases place with
    | chunk hc hp hs hl =>
      rename_i chunk pieces
      obtain ⟨opened, rest, rfl⟩ := exists_cons_of_ne_nil (hrest rfl)
      cases pieces with
      | nil =>
        -- A short chunk waits for FINAL, so it is the last one.
        have hlast : s.transfer.archiveChunks + 1 = chunks.length := by
          obtain ⟨hlt, _⟩ := List.getElem?_eq_some_iff.mp hc
          by_contra hne
          have := books.chunked.full _ (by omega) chunk hc
          have := hl rfl
          omega
        have hnil : dataFrames fragment [] = [] := rfl
        rw [map_nil, nil_append, archiveTail, hlast, drop_length, hnil, nil_append,
          cons_append, cons.injEq] at hg
        obtain ⟨rfl, hg⟩ := hg
        rw [flatten_nil, append_nil] at hs
        obtain ⟨b', point, he, hcourse⟩ := archiveCourse_final fragment (p := ⟨attempt, .consuming, rest⟩)
          hst books active (.inr ⟨hlast, hs.symm ▸ hc⟩)
        refine ⟨b', s.parts, s.completes, ⟨attempt, point, rest⟩, ?_, rfl, suffix_cons _ _, hg ▸ hcourse⟩
        exact (if_neg (by simp [hlive, hst])).trans he
      | cons =>
        rw [map_cons, cons_append, cons_append, cons.injEq] at hg
        obtain ⟨rfl, hg⟩ := hg
        obtain ⟨b', point, he, hcourse⟩ := archiveCourse_piece (s := s) (p := ⟨attempt, .consuming, rest⟩)
          rfl books hc hp hs rfl active
        refine ⟨b', s.parts, s.completes, ⟨attempt, point, rest⟩, ?_, rfl, suffix_cons _ _, hg ▸ hcourse⟩
        exact (if_neg (by simp [hlive, hst])).trans ((if_pos books.archive).trans he)
    | last hn hb =>
      obtain ⟨opened, rest, rfl⟩ := exists_cons_of_ne_nil (hrest rfl)
      rw [cons_append, cons.injEq] at hg
      obtain ⟨rfl, hg⟩ := hg
      obtain ⟨b', point, he, hcourse⟩ := archiveCourse_final fragment (p := ⟨attempt, .consuming, rest⟩)
        hst books active (.inl ⟨hn, hb⟩)
      refine ⟨b', s.parts, s.completes, ⟨attempt, point, rest⟩, ?_, rfl, suffix_cons _ _, hg ▸ hcourse⟩
      exact (if_neg (by simp [hlive, hst])).trans he
    | hashing hb hn =>
      exact ⟨s.transfer.toBooks, s.parts, s.completes, _, hn.hashed hst, rfl, suffix_refl _,
        hg ▸ .on books (ArchiveAt.writing hb hn) active⟩
    | writing hb hn =>
      rename_i goal chunk
      have hbooks := books.countChunk hn.isNext
      refine ⟨countChunk hash s.transfer.toBooks chunk, s.parts.insert s.transfer.archiveChunks chunk, s.completes,
        ⟨attempt, .saving goal, rest⟩, ?_, rfl, suffix_refl _, ?_⟩
      · unfold System.advance System.written
        simp only [hst, Bool.false_eq_true, if_false]
        rw [hn.noteChunk]
        rfl
      · rw [hg]
        refine .on hbooks ?_ active
        cases hn with
        | data => exact ArchiveAt.savingData hb
        | final _ hl => exact ArchiveAt.savingFinal hb hl
    | savingData hb =>
      refine ⟨s.transfer.toBooks, s.parts, s.completes, ⟨attempt, .consuming, rest⟩, ?_, rfl, suffix_refl _,
        hg ▸ .on books (archiveAt_tail hf books hb) active⟩
      unfold System.advance System.saved
      simp only [hst, Bool.false_eq_true, if_false]
      rfl
    | savingFinal _ hn =>
      refine ⟨s.transfer.toBooks, s.parts, s.completes,
        ⟨attempt, .rooting (archiveTuple hash chunks) (archiveTuple hash chunks).root, rest⟩, ?_, rfl, suffix_refl _,
        hg ▸ .on books ArchiveAt.rooting active⟩
      unfold System.advance System.saved
      simp only [hst, Bool.false_eq_true, if_false]
      exact archiveCourse_totals hst books hn
    | rooting =>
      obtain ⟨b, completes, point, he, hcourse⟩ :=
        archiveCourse_root fragment hon ⟨attempt, _, rest⟩ books active
      exact ⟨b, s.parts, completes, _, he, rfl, suffix_refl _, hg ▸ hcourse⟩
    | recording =>
      obtain ⟨b, completes, he, hcourse⟩ := archiveCourse_finish hash fragment chunks hon ⟨attempt, _, rest⟩
      exact ⟨b, s.parts, completes, _, he, rfl, suffix_refl _, hg ▸ hcourse⟩

theorem archiveCourse_over (h : ArchiveCourse hash fragment chunks b .consuming []) :
    b.finalEntry = some (archiveTuple hash chunks) ∧ b.state = .completePending := by
  generalize hg : ([] : List Opened) = stream at h
  cases h with
  | done complete state => exact ⟨complete, state⟩
  | on _ place =>
    cases place with
    | chunk =>
      have := congrArg length hg
      simp [archiveTail] at this
    | last => cases hg

theorem archiveCourse_courses (hf : 0 < fragment) : Courses hash (ArchiveCourse hash fragment chunks) where
  advances := archiveCourse_advances hf
  active b point stream h hne := by
    cases h with
    | on _ _ active => exact active
    | done => exact absurd rfl hne
  ends b h := (archiveCourse_over h).2

end Archive

end Bore.Download
