import Bore.DownloadCommit

namespace Bore.Download

open Frames Runs List

/-- The source of an archive has not changed: its chunks are the staged parts,
and a tuple that was accepted before is still its tuple. -/
structure Unchanged (hash : Hash) (chunks : List Bytes) (s : System) : Prop where
  chunked : Chunked chunks
  parts : ∀ i < s.transfer.archiveChunks, s.parts.get? i = chunks[i]?
  expected : ∀ tuple, s.transfer.expectedTuple = some tuple → tuple = archiveTuple hash chunks

section Fallback

variable {hash : Hash} {chunks : List Bytes} {s : System}

theorem Unchanged.within (h : Unchanged hash chunks s) (hi : s.transfer.ledger.Sound hash s.parts) :
    s.transfer.archiveChunks ≤ chunks.length := by
  by_contra hgt
  obtain ⟨part, hp, _⟩ := hi.digests chunks.length (Nat.not_le.mp hgt)
  rw [h.parts _ (Nat.not_le.mp hgt), getElem?_eq_none (Nat.le_refl _)] at hp
  cases hp

theorem Unchanged.leaves (h : Unchanged hash chunks s) (hi : s.transfer.ledger.Sound hash s.parts) :
    s.transfer.leaves = (chunks.take s.transfer.archiveChunks).map hash.sha256 := by
  have hlen : s.transfer.leaves.length = s.transfer.archiveChunks := hi.counted
  refine ext_getElem? fun i => ?_
  by_cases hlt : i < s.transfer.archiveChunks
  · obtain ⟨part, hp, hd⟩ := hi.digests i hlt
    rw [h.parts i hlt] at hp
    rw [getElem?_map, getElem?_take_of_lt hlt, hp]
    exact hd
  · rw [getElem?_eq_none (by omega), getElem?_eq_none]
    rw [length_map, length_take]
    omega

theorem Unchanged.whole (h : Unchanged hash chunks s) (hw : wholeParts s.parts s.transfer.archiveChunks = true) :
    ∀ chunk ∈ chunks.take s.transfer.archiveChunks, chunk.length = chunkBytes := by
  intro chunk hc
  obtain ⟨i, hi, hget⟩ := mem_take_iff_getElem.mp hc
  have hlt : i < s.transfer.archiveChunks := Nat.lt_of_lt_of_le hi (Nat.min_le_left _ _)
  have hall := all_eq_true.mp hw i (mem_range.mpr hlt)
  rw [h.parts i hlt, getElem?_eq_getElem (Nat.lt_of_lt_of_le hi (Nat.min_le_right _ _)), hget] at hall
  exact of_decide_eq_true hall

theorem archiveSends_reported (hi : ArchiveSound hash s) (h : Unchanged hash chunks s)
    (hw : wholeParts s.parts s.transfer.archiveChunks = true) :
    ArchiveSends hash s.transfer.verifiedRanges chunks s.transfer.toBooks := by
  have hranges : s.transfer.verifiedRanges = ledgerRanges s.transfer.archiveChunks := hi.sound.ranges
  have hcounted : s.transfer.leaves.length = s.transfer.archiveChunks := hi.sound.counted
  have hskip : archiveSkip s.transfer.verifiedRanges = s.transfer.archiveChunks := by
    rw [hranges]
    exact verifiedPrefix_ledgerRanges _
  refine ⟨hi.archive, h.chunked, hcounted, hranges, ?_, ?_, ?_, ?_, h.expected⟩
  · exact Nat.le_of_eq hskip
  · rw [hskip]
    exact h.within hi.sound
  · rw [hskip]
    exact h.whole hw
  · rw [hskip, ← h.leaves hi.sound, ← hcounted, take_length]

end Fallback

section Resumed

variable (part : Bytes)

/-- The first chunk of an archive is there from an earlier download. -/
def keptPartial : Partial :=
  ⟨[(0, 1)], (∅ : Table Nat Bytes).insert 0 ((default : Hash).sha256 part), none, (∅ : Table Nat Bytes).insert 0 part⟩

def keptStart : System :=
  startDownload true .empty ⟨[(0, 1)], [(default : Hash).sha256 part], none, true, (∅ : Table Nat Bytes).insert 0 part⟩

def keptCommitted : System := ((keptStart part).beginDirect 1 1).commitDirect 1 [(0, 1)]

/-- The direct attempt of the resumed download has failed. -/
def keptFailed : System :=
  ((exec (step default) (keptCommitted part) [.derive 0 false, .derive 0 false, .directFailed 1]).getD (keptCommitted part))

def keptStream : List Opened :=
  let root := fileRoot default [(default : Hash).sha256 part, (default : Hash).sha256 [1, 2, 3]]
  [.data [1, 2, 3], .final (archiveFinalPayload ⟨1048579, 2, root.getD []⟩)]

variable {part} (hl : part.length = chunkBytes)
include hl

theorem storedArchive_kept : startDownload true .empty (storedArchive default ∅ (some (keptPartial part))) = keptStart part := by
  have hrehash : (keptPartial part).rehash default 0 = some ((default : Hash).sha256 part) := if_pos ⟨hl, rfl⟩
  have hleaves : (keptPartial part).rehashFrom default 0 1 = [(default : Hash).sha256 part] := by
    simp [Partial.rehashFrom, hrehash]
  have hclaimed : Books.rangesEnd (verifiedPrefix (keptPartial part).verifiedRanges) = 1 := rfl
  rw [storedArchive, Partial.rehashArchiveRecord, hclaimed, hleaves]
  rfl

theorem wholeParts_kept : wholeParts ((∅ : Table Nat Bytes).insert 0 part) 1 = true := by
  simp [wholeParts, range_succ, hl]

theorem reaches_kept : Reaches (step default) (fun s a => replansWhole s a = true) (keptStart part) (keptFailed part) := by
  have hfits {s : System} (hp : s.parts = (∅ : Table Nat Bytes).insert 0 part) (hn : s.running = none) (r : Replan)
      (hk : r.keep = 1) : r.fits s = true := by
    rw [Replan.fits, hp, hk, sum_wholeParts (wholeParts_kept hl), System.writingAt, hn]
    simp
  have hbegins : replansWhole (keptStart part) (.beginDirect 1 1) = true := hfits rfl rfl ⟨1, 1, true⟩ rfl
  have hcommits : replansWhole ((keptStart part).beginDirect 1 1) (.commitDirect 1 [(0, 1)]) = true :=
    hfits rfl rfl ⟨1, 1, false⟩ rfl
  have hreached : Reaches (step default) (fun s a => replansWhole s a = true) (keptStart part) (keptCommitted part) :=
    (Relation.ReflTransGen.single ⟨.beginDirect 1 1, hbegins, rfl⟩).tail ⟨.commitDirect 1 [(0, 1)], hcommits, rfl⟩
  have hex : execWhile (step default) replansWhole (keptCommitted part)
      [.derive 0 false, .derive 0 false, .directFailed 1] = some (keptFailed part) := rfl
  exact hreached.trans (execWhile_reaches _ hex)

theorem chunked_kept : Chunked [part, [1, 2, 3]] := by
  have hne : part ≠ [] := ne_nil_of_length_pos (by rw [hl]; decide)
  refine ⟨?_, ?_, ?_, ?_, Nat.le_of_ble_eq_true rfl⟩
  · simp [hne]
  · simp [hl, chunkBytes]
  · rintro (_ | i) hi chunk hc
    · cases hc
      exact hl
    · exact absurd hi (by simp)
  · simp [totalLength, hl, chunkBytes, maxSafeInteger]

theorem unchanged_kept : Unchanged default [part, [1, 2, 3]] (keptFailed part) := by
  refine ⟨chunked_kept hl, fun i hi => ?_, fun tuple ht => by cases ht⟩
  obtain rfl := Nat.lt_one_iff.mp hi
  rfl

/-- What is left of the archive, with the length of the whole in the FINAL. -/
theorem archiveStream_kept : archiveStream default 3 [part, [1, 2, 3]] 1 = keptStream part := by
  have htotal : totalLength [part, [1, 2, 3]] = 1048579 := by simp [totalLength, hl, chunkBytes]
  rw [archiveStream, archiveTuple, htotal]
  rfl

end Resumed

def zeroChunk : Bytes := replicate chunkBytes 0

theorem length_zeroChunk : zeroChunk.length = chunkBytes := length_replicate

def shortChunks : List Bytes := [[1, 2, 3]]

def shortStart : System := startDownload true .empty ⟨[], [], none, false, ∅⟩

def shortFrame (seq : Nat) : Message := frameAt 1 (archiveStream default 3 shortChunks 0) seq

def shortClosed : System :=
  (exec (step default) shortStart
    [.beginDirect 1 1, .commitDirect 1 [], .derive 0 false, .derive 0 false, .directFrame 1 (shortFrame 0) false,
      .directFrame 1 (shortFrame 1) false, .pump, .pump, .pump, .pump, .pump, .pump, .directFailed 1]).get
    (by decide +kernel)

theorem short_chunked : Chunked shortChunks := by
  refine ⟨by decide, by decide, fun i hi => ?_, by decide, by decide⟩
  exact absurd hi (Nat.not_lt.mpr (Nat.le_add_left 1 i))

end Bore.Download
