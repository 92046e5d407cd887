import Bore.Download
import Bore.Streams

namespace Bore.Download

open Frames List

def System.after (s : System) (b : Books) (parts : Table Nat Bytes) (completes : Nat) (p : Pump) : System :=
  { s with transfer := { s.transfer with toBooks := b }, parts := parts, completes := completes, running := some p }

/-- A turn of the pump within a batch neither returns nor throws, and keeps a
predicate on the books, the await of the pump and the frames still to consume. -/
def Advances (hash : Hash) (Course : Books → Point → List Opened → Prop) (s : System) (p : Pump) : Prop :=
  ∀ later : List Opened,
    Course s.transfer.toBooks p.point (p.rest ++ later) → s.transfer.stale p.attempt = false →
    s.live = true → s.online = true → (p.point = .consuming → p.rest ≠ []) →
    ∃ b parts completes q, s.advance hash p = s.after b parts completes q ∧ q.attempt = p.attempt ∧
      q.rest <:+ p.rest ∧ Course b q.point (q.rest ++ later)

structure Courses (hash : Hash) (Course : Books → Point → List Opened → Prop) : Prop where
  advances : ∀ s p, Advances hash Course s p
  active : ∀ b point stream, Course b point stream → stream ≠ [] → b.state = .direct ∨ b.state = .receiving
  ends : ∀ b, Course b .consuming [] → b.state = .completePending

def dataBytes (stream : List Opened) : Nat :=
  (stream.map fun
    | .data plaintext => plaintext.length
    | .final _ => 0).sum

theorem dataBytes_append (xs ys : List Opened) : dataBytes (xs ++ ys) = dataBytes xs + dataBytes ys := by
  rw [dataBytes, map_append, sum_append]
  rfl

theorem dataBytes_data (pieces : List Bytes) : dataBytes (pieces.map Opened.data) = pieces.flatten.length := by
  induction pieces with
  | nil => rfl
  | cons _ _ ih =>
    rw [flatten_cons, length_append, ← ih]
    rfl

theorem dataBytes_dataFrames {fragment : Nat} (h : 0 < fragment) (chunks : List Bytes) :
    dataBytes (dataFrames fragment chunks) = totalLength chunks := by
  induction chunks with
  | nil => rfl
  | cons chunk _ ih =>
    rw [dataFrames, flatMap_cons, dataBytes_append, dataBytes_data, flatten_fragments h]
    exact congrArg (chunk.length + ·) ih

theorem buffered_eq (b : Books) : b.buffered = b.chunkBuffers.flatten.length := length_flatten.symm

theorem finished_eq_after {s : System} (h : s.online = true) (p : Pump) :
    s.finished p = s.after { s.transfer.toBooks with state := .completePending } s.parts (s.completes + 1)
      ⟨p.attempt, .consuming, p.rest⟩ := by
  exact if_pos h

/-! ### The course of a raw file -/

section Raw

variable (hash : Hash) (fragment : Nat) (content : Nat → Bytes)

def Reads (entry : Entry) : Prop :=
  ∀ i < entry.chunkCount, (content i).length = chunkWindow entry.size i ∧
    entry.chunks[i]? = some (hash.sha256 (content i))

def rawTail (b : Books) (n : Nat) : List Opened :=
  dataFrames fragment ((b.plan.drop n).map content) ++ [.final (finalPayload b.expectedBytes)]

inductive RawAt (b : Books) : Point → List Opened → Prop
  | chunk {i pieces} (hi : b.plan[b.planPos]? = some i) (hne : pieces ≠ [])
      (hp : ∀ piece ∈ pieces, piece ≠ []) (hc : b.chunkBuffers.flatten ++ pieces.flatten = content i) :
      RawAt b .consuming (pieces.map Opened.data ++ rawTail fragment content b (b.planPos + 1))
  | last (hp : b.planPos = b.plan.length) (hb : b.chunkBuffers = []) :
      RawAt b .consuming [.final (finalPayload b.expectedBytes)]
  | hashing {i} (hi : b.plan[b.planPos]? = some i) (hb : b.chunkBuffers = []) :
      RawAt b (.hashing (.rawChunk i) (content i)) (rawTail fragment content b (b.planPos + 1))
  | writing {i} (hi : b.plan[b.planPos]? = some i) (hb : b.chunkBuffers = []) :
      RawAt b (.writing (.rawChunk i) (content i) i) (rawTail fragment content b (b.planPos + 1))
  | saving {i} (hi : b.plan[b.planPos]? = some i) (hb : b.chunkBuffers = [])
      (hv : covered b.verifiedRanges i = true) :
      RawAt b (.saving (.rawChunk i)) (rawTail fragment content b (b.planPos + 1))

structure RawBooks (b : Books) : Prop where
  archive : b.archive = false
  finalEntry : b.finalEntry = none
  reads : Reads hash content b.entry
  planned : ∀ i ∈ b.plan, i < b.entry.chunkCount
  safe : b.expectedBytes ≤ maxSafeInteger
  separated : Separated b.verifiedRanges
  within : ∀ i, covered b.verifiedRanges i = true → i < b.entry.chunkCount

inductive RawCourse (b : Books) : Point → List Opened → Prop
  | on {point stream} (books : RawBooks hash content b)
      (place : RawAt fragment content b point stream)
      (received : b.receivedBytes + dataBytes stream = b.expectedBytes)
      (active : b.state = .direct ∨ b.state = .receiving)
      (covers : ∀ i < b.entry.chunkCount, covered b.verifiedRanges i = true ∨ i ∈ b.plan.drop b.planPos) :
      RawCourse b point stream
  | done (complete : b.complete = true) (state : b.state = .completePending) : RawCourse b .consuming []

variable {hash fragment content}

variable {entry : Entry} {i : Nat}

theorem chunkWindow_pos (h : i < entry.chunkCount) : 0 < chunkWindow entry.size i := by
  rw [Entry.chunkCount, entry.counted] at h
  have hpos : 0 < chunkBytes := by decide
  have hmul : i * chunkBytes < entry.size := by
    have h1 := (Nat.lt_div_iff_mul_lt hpos).mp h
    omega
  rw [chunkWindow]
  omega

theorem Reads.ne_nil (h : Reads hash content entry) (hi : i < entry.chunkCount) : content i ≠ [] := by
  have hpos := chunkWindow_pos hi
  rw [← (h i hi).1] at hpos
  exact length_pos_iff.mp hpos

variable {b : Books}

theorem rawAt_tail (hf : 0 < fragment) (hb : RawBooks hash content b) (he : b.chunkBuffers = []) :
    b.planPos ≤ b.plan.length → RawAt fragment content b .consuming (rawTail fragment content b b.planPos) := by
  intro hle
  rcases Nat.lt_or_eq_of_le hle with hlt | heq
  · have hi : b.plan[b.planPos]? = some b.plan[b.planPos] := getElem?_eq_getElem hlt
    have htail : rawTail fragment content b b.planPos =
        (fragments fragment (content b.plan[b.planPos])).map Opened.data ++
          rawTail fragment content b (b.planPos + 1) := by
      rw [rawTail, drop_eq_getElem_cons hlt, map_cons, dataFrames, flatMap_cons, append_assoc]
      rfl
    have hne := hb.reads.ne_nil (hb.planned _ (getElem_mem hlt))
    rw [htail]
    refine RawAt.chunk hi (fragments_ne_nil hf hne) (fun piece hp => (mem_fragments hf hp).1) ?_
    rw [he, flatten_fragments hf]
    rfl
  have htail : rawTail fragment content b b.planPos = [.final (finalPayload b.expectedBytes)] := by
    rw [rawTail, heq, drop_length]
    rfl
  rw [htail]
  exact RawAt.last heq he

variable {s : System}

theorem rawCourse_piece {p : Pump} {piece : Bytes} {pieces : List Bytes}
    {later : List Opened} (hs : s.transfer.toBooks = b) (hb : RawBooks hash content b)
    (hi : b.plan[b.planPos]? = some i) (hp : ∀ x ∈ piece :: pieces, x ≠ [])
    (hc : b.chunkBuffers.flatten ++ (piece :: pieces).flatten = content i)
    (hl : later = pieces.map Opened.data ++ rawTail fragment content b (b.planPos + 1))
    (hr : b.receivedBytes + dataBytes (.data piece :: later) = b.expectedBytes)
    (ha : b.state = .direct ∨ b.state = .receiving)
    (hv : ∀ i < b.entry.chunkCount, covered b.verifiedRanges i = true ∨ i ∈ b.plan.drop b.planPos) :
    ∃ b' point, s.acceptRawData p piece = (s.setBooks b').goes p point ∧
      RawCourse hash fragment content b' point later := by
  subst hs
  have hlen := (hb.reads i (hb.planned i (mem_of_getElem? hi))).1
  have hflat : (s.transfer.chunkBuffers ++ [piece]).flatten ++ pieces.flatten = content i := by
    rw [← hc, flatten_append, flatten_cons, flatten_nil, append_nil, flatten_cons,
      append_assoc]
  have hsum := congrArg length hflat
  rw [length_append, hlen] at hsum
  have hrec : s.transfer.receivedBytes + piece.length + dataBytes later = s.transfer.expectedBytes := by
    have : dataBytes (.data piece :: later) = piece.length + dataBytes later := by
      rfl
    omega
  let b' : Books := { s.transfer.toBooks with
    chunkBuffers := s.transfer.chunkBuffers ++ [piece]
    receivedBytes := s.transfer.receivedBytes + piece.length }
  have hbuf : b'.buffered = (s.transfer.chunkBuffers ++ [piece]).flatten.length := buffered_eq b'
  unfold System.acceptRawData
  simp only [hi]
  by_cases hnil : pieces = []
  · subst hnil
    have hwhole : b'.buffered = chunkWindow s.transfer.entry.size i := by
      rw [hbuf, ← hsum]
      rfl
    rw [flatten_nil, append_nil] at hflat
    refine ⟨{ b' with chunkBuffers := [] }, .hashing (.rawChunk i) (content i), ?_, ?_⟩
    · rw [if_neg (by rw [show Books.buffered _ = _ from hwhole]; exact Nat.lt_irrefl _),
        if_neg (by rw [show Books.buffered _ = _ from hwhole]; exact Nat.lt_irrefl _), hflat]
      rfl
    · refine .on { hb with } ?_ hrec ha hv
      rw [hl]
      exact RawAt.hashing hi rfl
  have hpos : 0 < pieces.flatten.length := by
    obtain ⟨x, xs, rfl⟩ := exists_cons_of_ne_nil hnil
    have hx := length_pos_iff.mpr (hp x (by simp))
    rw [flatten_cons, length_append]
    omega
  have hshort : b'.buffered < chunkWindow s.transfer.entry.size i := by
    omega
  refine ⟨b', .consuming, ?_, ?_⟩
  · rw [if_pos hshort]
    rfl
  · refine .on { hb with } ?_ hrec ha hv
    rw [hl]
    exact RawAt.chunk hi hnil (fun x hx => hp x (mem_cons_of_mem _ hx)) hflat

variable (fragment) in
theorem rawCourse_final {p : Pump} (hs : s.transfer.toBooks = b) (hon : s.online = true)
    (hb : RawBooks hash content b) (hpos : b.planPos = b.plan.length) (hr : b.receivedBytes = b.expectedBytes)
    (hv : ∀ i < b.entry.chunkCount, covered b.verifiedRanges i = true ∨ i ∈ b.plan.drop b.planPos) :
    ∃ b' completes, s.acceptFinal hash p (finalPayload b.expectedBytes) =
        s.after b' s.parts completes ⟨p.attempt, .consuming, p.rest⟩ ∧
      RawCourse hash fragment content b' .consuming [] := by
  subst hs
  have hread : WireBytes.ofBe (finalPayload s.transfer.expectedBytes) = s.transfer.expectedBytes :=
    WireBytes.ofBe_toBe (Nat.lt_of_le_of_lt hb.safe (by decide))
  have hwhole : ∀ i, covered s.transfer.verifiedRanges i = true ↔ i < s.transfer.entry.chunkCount := by
    intro i
    refine ⟨hb.within i, fun hi => (hv i hi).resolve_right ?_⟩
    rw [hpos, drop_length]
    exact not_mem_nil
  have hcomplete : s.transfer.toBooks.complete = true := by
    have he := hb.separated.eq_whole hwhole
    have hcount : s.transfer.toBooks.chunkCount = s.transfer.entry.chunkCount := by
      rw [Books.chunkCount, hb.finalEntry]
    rw [Books.complete, hcount, he]
    split <;> simp
  refine ⟨{ s.transfer.toBooks with state := .completePending }, s.completes + 1, ?_, ?_⟩
  · unfold System.acceptFinal
    rw [if_neg (by simp [hb.archive]), if_neg (by simp [finalPayload, WireBytes.length_toBe]),
      if_neg (by rw [hread, hr]; simp), if_neg (by rw [hcomplete]; simp)]
    exact finished_eq_after hon p
  · exact .done hcomplete rfl

variable {ranges : List Range}

theorem separated_append_coalesce (h : Separated ranges) (i : Nat) :
    Separated (coalesceRanges (ranges ++ [(i, i + 1)])) := by
  refine separated_coalesceRanges fun r hr => ?_
  rcases mem_append.mp hr with hr | hr
  · exact h.1 r hr
  · rw [mem_singleton.mp hr]
    exact Nat.lt_succ_self i

theorem covered_append_coalesce (h : Separated ranges) (i j : Nat) :
    covered (coalesceRanges (ranges ++ [(i, i + 1)])) j = true ↔ covered ranges j = true ∨ j = i := by
  have hn : ∀ r ∈ ranges ++ [(i, i + 1)], r.1 ≤ r.2 := by
    intro r hr
    rcases mem_append.mp hr with hr | hr
    · exact (h.1 r hr).le
    · rw [mem_singleton.mp hr]
      exact Nat.le_succ i
  rw [covered_coalesceRanges hn, covered, any_append, Bool.or_eq_true]
  refine or_congr Iff.rfl ?_
  simp only [any_cons, any_nil, Bool.or_false, Bool.and_eq_true, decide_eq_true_eq]
  omega

theorem rawCourse_advances (hf : 0 < fragment) (s : System) (p : Pump) :
    Advances hash (RawCourse hash fragment content) s p := by
  intro later h hst hlive hon hrest
  obtain ⟨attempt, point, rest⟩ := p
  generalize hg : rest ++ later = stream at h
  cases h with
  | done =>
    rw [append_eq_nil_iff] at hg
    exact absurd hg.1 (hrest rfl)
  | on books place received active covers =>
    cases place with
    | chunk hi hne hp hc =>
      obtain ⟨piece, pieces, rfl⟩ := exists_cons_of_ne_nil hne
      obtain ⟨opened, rest, rfl⟩ := exists_cons_of_ne_nil (hrest rfl)
      rw [map_cons, cons_append, cons_append, cons.injEq] at hg
      obtain ⟨rfl, hg⟩ := hg
      obtain ⟨b', point, he, hcourse⟩ := rawCourse_piece (s := s) (p := ⟨attempt, .consuming, rest⟩) rfl books hi hp
        hc rfl received active covers
      refine ⟨b', s.parts, s.completes, ⟨attempt, point, rest⟩, ?_, rfl, suffix_cons _ _, hg ▸ hcourse⟩
      exact (if_neg (by simp [hlive, hst])).trans ((if_neg (by simp [books.archive])).trans he)
    | last hpos =>
      obtain ⟨opened, rest, rfl⟩ := exists_cons_of_ne_nil (hrest rfl)
      rw [cons_append, cons.injEq] at hg
      obtain ⟨rfl, hg⟩ := hg
      obtain ⟨b', completes, he, hcourse⟩ := rawCourse_final fragment (s := s) (p := ⟨attempt, .consuming, rest⟩)
        rfl hon books hpos received covers
      refine ⟨b', s.parts, completes, ⟨attempt, .consuming, rest⟩, ?_, rfl, suffix_cons _ _, hg ▸ hcourse⟩
      exact (if_neg (by simp [hlive, hst])).trans he
    | hashing hi hb =>
      rename_i i
      have hd := (books.reads i (books.planned i (mem_of_getElem? hi))).2
      refine ⟨s.transfer.toBooks, s.parts, s.completes, ⟨attempt, .writing (.rawChunk i) (content i) i, rest⟩, ?_, rfl,
        suffix_refl _, hg ▸ .on books (RawAt.writing hi hb) received active covers⟩
      unfold System.advance System.hashed
      simp only [hst, Bool.false_eq_true, if_false, hd, if_true]
      rfl
    | writing hi hb =>
      rename_i i
      have hcov := covered_append_coalesce books.separated i
      refine ⟨System.noteChunk hash s.transfer.toBooks (.rawChunk i) (content i) i, s.parts.insert i (content i),
        s.completes, ⟨attempt, .saving (.rawChunk i), rest⟩, ?_, rfl, suffix_refl _, hg ▸ .on ?_ ?_ received active ?_⟩
      · unfold System.advance System.written
        simp only [hst, Bool.false_eq_true, if_false]
        rfl
      · refine ⟨books.archive, books.finalEntry, books.reads, books.planned, books.safe,
          separated_append_coalesce books.separated i, fun j hj => ?_⟩
        rcases (hcov j).mp hj with hj | rfl
        · exact books.within j hj
        · exact books.planned j (mem_of_getElem? hi)
      · exact RawAt.saving hi hb ((hcov i).mpr (.inr rfl))
      · exact fun j hj => (covers j hj).imp_left fun hv => (hcov j).mpr (.inl hv)
    | saving hi hb hv =>
      obtain ⟨hlt, hget⟩ := List.getElem?_eq_some_iff.mp hi
      have hbooks : RawBooks hash content { s.transfer.toBooks with planPos := s.transfer.planPos + 1 } :=
        { books with }
      refine ⟨{ s.transfer.toBooks with planPos := s.transfer.planPos + 1 }, s.parts, s.completes,
        ⟨attempt, .consuming, rest⟩, ?_, rfl, suffix_refl _,
        hg ▸ .on hbooks (rawAt_tail hf hbooks hb hlt) received active ?_⟩
      · unfold System.advance System.saved
        simp only [hst, Bool.false_eq_true, if_false]
        rfl
      · intro j hj
        rcases covers j hj with hc | hm
        · exact .inl hc
        rw [drop_eq_getElem_cons hlt, hget] at hm
        rcases mem_cons.mp hm with rfl | hm
        · exact .inl hv
        · exact .inr hm

theorem rawCourse_over (h : RawCourse hash fragment content b .consuming []) :
    b.complete = true ∧ b.state = .completePending := by
  generalize hg : ([] : List Opened) = stream at h
  cases h with
  | done complete state => exact ⟨complete, state⟩
  | on _ place =>
    cases place with
    | chunk =>
      have := congrArg length hg
      simp [rawTail] at this
    | last => cases hg

theorem rawCourse_courses (hf : 0 < fragment) : Courses hash (RawCourse hash fragment content) where
  advances := rawCourse_advances hf
  active b point stream h hne := by
    cases h with
    | on _ _ _ active => exact active
    | done => exact absurd rfl hne
  ends b h := (rawCourse_over h).2

end Raw

end Bore.Download
