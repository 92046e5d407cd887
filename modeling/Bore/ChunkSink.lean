import Bore.WireBytes

/-! The sink that cuts an archive into chunks of one size. -/

namespace Bore.ChunkSink

open List WireBytes

/-- `calls` are the calls of `onChunk`, oldest first. -/
structure Sink (chunkBytes : Nat) where
  buffer : Bytes
  filled : Nat
  chunks : Nat
  bytes : Nat
  calls : List (Bytes × Nat)
  size : buffer.length = chunkBytes
  bound : filled ≤ chunkBytes

variable {chunkBytes : Nat} {s : Sink chunkBytes} {written view : Bytes}

namespace Sink

variable (s : Sink chunkBytes)

def flush : Sink chunkBytes :=
  if s.filled = 0 then s
  else
    { s with
      filled := 0, chunks := s.chunks + 1, calls := s.calls ++ [(s.buffer.take s.filled, s.chunks)]
      bound := Nat.zero_le _ }

def taken (view : Bytes) : Nat := min (chunkBytes - s.filled) view.length

theorem filled_taken (view : Bytes) : s.filled + s.taken view ≤ chunkBytes := by
  have := s.bound
  unfold taken
  omega

/-- `buffer.set(view.subarray(0, take), filled)` and `filled += take` -/
def fill (view : Bytes) : Sink chunkBytes :=
  { s with
    buffer := s.buffer.take s.filled ++ view.take (s.taken view) ++ s.buffer.drop (s.filled + s.taken view)
    filled := s.filled + s.taken view
    size := by
      have := s.filled_taken view
      have := s.size
      simp only [length_append, length_take, length_drop, taken] at *
      omega
    bound := s.filled_taken view }

def copy (view : Bytes) : Sink chunkBytes :=
  if (s.fill view).filled = chunkBytes then (s.fill view).flush else s.fill view

theorem copy_filled (h : 0 < chunkBytes) (view : Bytes) : (s.copy view).filled ≠ chunkBytes := by
  unfold copy
  split
  · next hf =>
      rw [flush, if_neg (hf.trans_ne h.ne')]
      exact h.ne
  · assumption

/-- The loop of `write`. A turn takes a byte, or empties a buffer that was full. -/
def loop (h : 0 < chunkBytes) (s : Sink chunkBytes) (view : Bytes) : Sink chunkBytes :=
  if view = [] then s else loop h (s.copy view) (view.drop (s.taken view))
termination_by 2 * view.length + if s.filled = chunkBytes then 1 else 0
decreasing_by
  next hv =>
    have hlen := length_pos_iff.mpr hv
    have := s.bound
    rw [if_neg (s.copy_filled h view), length_drop, taken]
    split <;> omega

def write (h : 0 < chunkBytes) (s : Sink chunkBytes) (view : Bytes) : Sink chunkBytes :=
  loop h { s with bytes := s.bytes + view.length } view

end Sink

def createChunkSink (chunkBytes : Nat) : Sink chunkBytes :=
  ⟨replicate chunkBytes 0, 0, 0, 0, [], length_replicate, Nat.zero_le _⟩

structure Cuts (s : Sink chunkBytes) (written : Bytes) : Prop where
  text : (s.calls.map Prod.fst).flatten ++ s.buffer.take s.filled = written
  whole : ∀ c ∈ s.calls, c.1.length = chunkBytes
  indexes : s.calls.map Prod.snd = range s.chunks

theorem Cuts.flush (h : Cuts s written) (hf : s.filled = chunkBytes) : Cuts s.flush written := by
  unfold Sink.flush
  split
  · exact h
  · exact {
      text := by simpa using h.text
      whole := forall_mem_append.mpr ⟨h.whole, by simp [s.size, hf]⟩
      indexes := by simp [h.indexes, range_succ] }

theorem Cuts.copy (h : Cuts s written) : Cuts (s.copy view) (written ++ view.take (s.taken view)) := by
  have hfill : Cuts (s.fill view) (written ++ view.take (s.taken view)) := by
    refine { h with text := ?_ }
    have hlen : (s.buffer.take s.filled).length = s.filled := length_take_of_le (s.bound.trans_eq s.size.symm)
    have ht : (view.take (s.taken view)).length = s.taken view := length_take_of_le (min_le_right _ _)
    rw [← h.text, append_assoc]
    congr 1
    exact take_left' (by rw [length_append, hlen, ht]; rfl)
  unfold Sink.copy
  split
  · exact hfill.flush ‹_›
  · exact hfill

theorem Cuts.loop (hpos : 0 < chunkBytes) (h : Cuts s written) : Cuts (Sink.loop hpos s view) (written ++ view) := by
  induction s, view using Sink.loop.induct hpos generalizing written with
  | case1 s =>
    rwa [Sink.loop, if_pos rfl, append_nil]
  | case2 s view hv ih =>
    rw [Sink.loop, if_neg hv]
    have := ih h.copy
    rwa [append_assoc, take_append_drop] at this

theorem Cuts.writes (hpos : 0 < chunkBytes) (h : Cuts s written) (writes : List Bytes) :
    Cuts (writes.foldl (Sink.write hpos) s) (written ++ writes.flatten) := by
  induction writes generalizing s written with
  | nil => rwa [flatten_nil, append_nil]
  | cons view writes ih =>
    rw [foldl_cons, flatten_cons, ← append_assoc]
    exact ih (Cuts.loop hpos { h with })

/-- The chunks that `onChunk` gets when the stream is written and closed: all but
the last are whole, and there is none only if nothing was written. -/
theorem chunks_tile_the_writes (h : 0 < chunkBytes) (writes : List Bytes) :
    let s := (writes.foldl (Sink.write h) (createChunkSink chunkBytes)).flush
    let chunks := s.calls.map Prod.fst
    chunks.flatten = writes.flatten ∧ (∀ c ∈ chunks.dropLast, c.length = chunkBytes) ∧
      (∀ c ∈ chunks, c ≠ [] ∧ c.length ≤ chunkBytes) ∧ (chunks = [] ↔ writes.flatten = []) ∧
      s.calls.map Prod.snd = range chunks.length := by
  intro s chunks
  suffices hs : chunks.flatten = writes.flatten ∧ (∀ c ∈ chunks.dropLast, c.length = chunkBytes) ∧
      (∀ c ∈ chunks, c ≠ [] ∧ c.length ≤ chunkBytes) ∧ s.calls.map Prod.snd = range s.chunks by
    obtain ⟨htext, hwhole, hsome, hindex⟩ := hs
    have hcount : chunks.length = s.chunks := by simpa [chunks] using congrArg length hindex
    refine ⟨htext, hwhole, hsome, ?_, hcount ▸ hindex⟩
    rw [← htext, flatten_eq_nil_iff, eq_nil_iff_forall_not_mem]
    exact forall₂_congr fun c hc => iff_of_false id (hsome c hc).1
  have hinit : Cuts (createChunkSink chunkBytes) [] := ⟨rfl, nofun, rfl⟩
  have hcuts := hinit.writes h writes
  rw [nil_append] at hcuts
  dsimp only [chunks, s]
  generalize writes.foldl (Sink.write h) (createChunkSink chunkBytes) = s at hcuts
  have hfull : ∀ c ∈ s.calls.map Prod.fst, c.length = chunkBytes := forall_mem_map.mpr hcuts.whole
  have hsome : ∀ c ∈ s.calls.map Prod.fst, c ≠ [] ∧ c.length ≤ chunkBytes := fun c hc =>
    ⟨length_pos_iff.mp (h.trans_eq (hfull c hc).symm), (hfull c hc).le⟩
  have htext := hcuts.text
  unfold Sink.flush
  split
  · next hf =>
      rw [hf, take_zero, append_nil] at htext
      exact ⟨htext, fun c hc => hfull c (mem_of_mem_dropLast hc), hsome, hcuts.indexes⟩
  · next hf =>
      have hlast : (s.buffer.take s.filled).length = s.filled := length_take_of_le (s.bound.trans_eq s.size.symm)
      simp only [map_append, map_cons, map_nil, dropLast_concat, flatten_append, flatten_singleton, forall_mem_append,
        forall_mem_singleton, hcuts.indexes, range_succ]
      exact ⟨htext, hfull, ⟨hsome, length_pos_iff.mp (by omega), hlast.trans_le s.bound⟩, trivial⟩

theorem chunks_tile_the_writes_of_two :
    (([[1, 2], [3]].foldl (Sink.write Nat.two_pos) (createChunkSink 2)).flush.calls.map Prod.fst).flatten = [1, 2, 3] :=
  (chunks_tile_the_writes Nat.two_pos [[1, 2], [3]]).1

end Bore.ChunkSink
