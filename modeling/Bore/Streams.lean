import Bore.Ranges

namespace Bore.Frames

open WireBytes (toBe ofBe_toBe length_toBe)
open List

variable {size fragment : Nat} {opened : Opened} {chunks : List Bytes}

/-! ### FINAL payloads -/

theorem parseArchiveFinalPayload_archiveFinalPayload {tuple : ArchiveTuple} (hr : tuple.root.length = 32)
    (ht : tuple.totalBytes ≤ maxSafeInteger) (hc : tuple.chunkCount ≤ maxSafeInteger) :
    parseArchiveFinalPayload (archiveFinalPayload tuple) = some tuple := by
  have hsafe : maxSafeInteger < 256 ^ 8 := by decide
  have h8 : (archiveFinalPayload tuple).take 8 = toBe 8 tuple.totalBytes := rfl
  have h16 : ((archiveFinalPayload tuple).drop 8).take 8 = toBe 8 tuple.chunkCount := rfl
  have hroot : (archiveFinalPayload tuple).drop 16 = tuple.root := rfl
  have hlen : (archiveFinalPayload tuple).length = 48 := by
    simp [archiveFinalPayload, length_toBe, hr]
  rw [parseArchiveFinalPayload]
  simp only [h8, h16, hroot, hlen, ofBe_toBe (Nat.lt_of_le_of_lt ht hsafe),
    ofBe_toBe (Nat.lt_of_le_of_lt hc hsafe), ht, hc, and_self, if_true]

/-! ### Fragments -/

def cut (size : Nat) : Nat → Bytes → List Bytes
  | 0, _ => []
  | rounds + 1, bytes => if bytes = [] then [] else bytes.take size :: cut size rounds (bytes.drop size)

def fragments (size : Nat) (bytes : Bytes) : List Bytes := cut size bytes.length bytes

section Cut

variable {size rounds : Nat} {bytes : Bytes}

theorem flatten_cut (hs : 0 < size) (h : bytes.length ≤ rounds) : (cut size rounds bytes).flatten = bytes := by
  induction rounds generalizing bytes with
  | zero =>
    rw [length_eq_zero_iff.mp (Nat.le_zero.mp h)]
    rfl
  | succ rounds ih =>
    rw [cut]
    split
    · rename_i he
      rw [he]
      rfl
    have hd : (bytes.drop size).length ≤ rounds := by
      rw [length_drop]
      omega
    rw [flatten_cons, ih hd, take_append_drop]

theorem mem_cut (hs : 0 < size) {piece : Bytes} (h : piece ∈ cut size rounds bytes) :
    piece ≠ [] ∧ piece.length ≤ size := by
  induction rounds generalizing bytes with
  | zero => simp [cut] at h
  | succ _ ih =>
    rw [cut] at h
    split at h
    · simp at h
    rename_i hne
    rcases mem_cons.mp h with rfl | h
    · refine ⟨fun hz => ?_, length_take_le _ _⟩
      rcases take_eq_nil_iff.mp hz with hz | hz
      · omega
      · exact hne hz
    · exact ih h

end Cut

theorem flatten_fragments (hs : 0 < size) (bytes : Bytes) : (fragments size bytes).flatten = bytes :=
  flatten_cut hs (Nat.le_refl _)

theorem mem_fragments (hs : 0 < size) {bytes piece : Bytes} (h : piece ∈ fragments size bytes) :
    piece ≠ [] ∧ piece.length ≤ size :=
  mem_cut hs h

theorem fragments_ne_nil (hs : 0 < size) {bytes : Bytes} (h : bytes ≠ []) : fragments size bytes ≠ [] := by
  intro he
  have := flatten_fragments hs bytes
  rw [he] at this
  exact h this.symm

/-! ### What a source sends -/

def dataFrames (fragment : Nat) (chunks : List Bytes) : List Opened :=
  chunks.flatMap (fun chunk => (fragments fragment chunk).map Opened.data)

def totalLength (chunks : List Bytes) : Nat := (chunks.map length).sum

def rawStream (fragment : Nat) (chunks : List Bytes) : List Opened :=
  dataFrames fragment chunks ++ [.final (finalPayload (totalLength chunks))]

def archiveTuple (hash : Hash) (chunks : List Bytes) : ArchiveTuple :=
  ⟨totalLength chunks, chunks.length, (fileRoot hash (chunks.map hash.sha256)).getD []⟩

def archiveStream (hash : Hash) (fragment : Nat) (chunks : List Bytes) (skip : Nat) : List Opened :=
  dataFrames fragment (chunks.drop skip) ++ [.final (archiveFinalPayload (archiveTuple hash chunks))]

def sealFrame (attempt : AttemptId) (seq : Nat) : Opened → Message
  | .data plaintext => .frame (some attempt) .data seq plaintext
  | .final plaintext => .frame (some attempt) .final seq plaintext

def frameAt (attempt : AttemptId) (stream : List Opened) (seq : Nat) : Message :=
  match stream[seq]? with
  | some opened => sealFrame attempt seq opened
  | none => .short 0

def Opened.fits : Opened → Bool
  | .data plaintext => 0 < plaintext.length && plaintext.length ≤ fragmentBytes
  | .final plaintext => isFinalLength plaintext.length

theorem decodeFrameWithKey_sealFrame (h : opened.fits = true) (attempt : AttemptId) (seq : Nat) :
    decodeFrameWithKey (some attempt) (sealFrame attempt seq opened) seq = some opened := by
  cases opened with
  | data =>
    simp only [Opened.fits, Bool.and_eq_true, decide_eq_true_eq] at h
    simp [sealFrame, decodeFrameWithKey, h.1, h.2]
  | final =>
    simp only [Opened.fits] at h
    simp [sealFrame, decodeFrameWithKey, h]

theorem decodeFrameWithKey_frameAt {stream : List Opened} {seq : Nat}
    (hs : stream[seq]? = some opened) (h : opened.fits = true) (attempt : AttemptId) :
    decodeFrameWithKey (some attempt) (frameAt attempt stream seq) seq = some opened := by
  rw [frameAt, hs]
  exact decodeFrameWithKey_sealFrame h attempt seq

theorem peekFrameSeq_frameAt {stream : List Opened} {seq : Nat} (h : seq < stream.length) (attempt : AttemptId) :
    peekFrameSeq (frameAt attempt stream seq) = some seq := by
  rw [frameAt, getElem?_eq_getElem h]
  cases stream[seq] <;> rfl

theorem fits_of_mem_dataFrames (h0 : 0 < fragment) (hle : fragment ≤ fragmentBytes)
    (h : opened ∈ dataFrames fragment chunks) : opened.fits = true := by
  obtain ⟨chunk, _, hm⟩ := mem_flatMap.mp h
  obtain ⟨piece, hp, rfl⟩ := mem_map.mp hm
  obtain ⟨hne, hlen⟩ := mem_fragments h0 hp
  simp only [Opened.fits, Bool.and_eq_true, decide_eq_true_eq]
  exact ⟨length_pos_iff.mpr hne, Nat.le_trans hlen hle⟩

theorem fits_rawStream (h0 : 0 < fragment) (hle : fragment ≤ fragmentBytes) :
    ∀ opened ∈ rawStream fragment chunks, opened.fits = true := by
  intro opened h
  rcases mem_append.mp h with hd | hf
  · exact fits_of_mem_dataFrames h0 hle hd
  · rw [mem_singleton.mp hf]
    rfl

theorem fileRoot_eq (hash : Hash) (chunks : List Bytes) :
    fileRoot hash (chunks.map hash.sha256) = some (archiveTuple hash chunks).root := by
  have hn : (chunks.map hash.sha256).any isEmpty = false := by
    rw [any_eq_false]
    intro leaf hl
    obtain ⟨chunk, _, rfl⟩ := mem_map.mp hl
    rw [List.isEmpty_iff, ← List.length_eq_zero_iff, hash.length_sha256]
    decide
  simp [archiveTuple, fileRoot, hn]

theorem length_root (hash : Hash) (chunks : List Bytes) : (archiveTuple hash chunks).root.length = 32 := by
  have h := fileRoot_eq hash chunks
  unfold fileRoot at h
  split at h
  · cases h
  · rw [← Option.some.inj h]
    exact hash.length_sha256 _

theorem fits_archiveStream {hash : Hash} (h0 : 0 < fragment) (hle : fragment ≤ fragmentBytes) {skip : Nat} :
    ∀ opened ∈ archiveStream hash fragment chunks skip, opened.fits = true := by
  intro opened h
  rcases mem_append.mp h with hd | hf
  · exact fits_of_mem_dataFrames h0 hle hd
  · rw [mem_singleton.mp hf]
    simp [Opened.fits, isFinalLength, archiveFinalPayload, length_toBe, length_root]

end Bore.Frames
