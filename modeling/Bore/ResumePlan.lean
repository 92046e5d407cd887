import Bore.RegistryRanges

namespace Bore.ResumePlan

open Frames (Range Separated covered covered_iff coalesceRanges capRanges contiguous maxResumeRanges maxSafeInteger
  fragmentBytes rangeLe inBounds outside)
open RegistryRanges (parseVerifiedRanges overlapping)
open List

section Accepted

variable {ranges : List Range}

theorem contiguous_eq (h : Separated ranges) (n : Nat) :
    contiguous n ranges = [] ∨ ∃ r ∈ ranges, contiguous n ranges = [r] := by
  rcases ranges with _ | ⟨r, _ | ⟨x, rest⟩⟩
  · exact .inl rfl
  · by_cases hn : r.1 = n <;> simp [contiguous, hn]
  · have hgap := (Frames.separated_cons.mp h).2.1 x mem_cons_self
    by_cases hn : r.1 = n <;> simp [contiguous, hn, Nat.ne_of_gt hgap]

theorem overlapping_eq_false (h : Separated ranges) : overlapping ranges = false := by
  induction ranges with
  | nil => rfl
  | cons a rest ih =>
    obtain ⟨-, hgap, hrest⟩ := Frames.separated_cons.mp h
    cases rest with
    | nil => rfl
    | cons b =>
      have := hgap b mem_cons_self
      rw [overlapping, ih hrest, Bool.or_false, decide_eq_false_iff_not]
      omega

theorem parseVerifiedRanges_separated (h : Separated ranges) (hl : ranges.length ≤ maxResumeRanges) :
    parseVerifiedRanges ranges = some ranges := by
  have hany : ¬ ranges.any (fun range => decide (range.2 ≤ range.1)) = true := by
    simpa using h.1
  have hsort : ranges.insertionSort rangeLe = ranges := by
    refine (h.2.imp_of_mem fun {a b} ha _ hab => ?_).insertionSort_eq
    have := h.1 a ha
    exact .inl (by omega)
  rw [parseVerifiedRanges, if_neg (by omega), if_neg hany, hsort]
  simp [overlapping_eq_false h]

/-- Whatever ranges a recipient holds, what it reports covers no other chunks,
all of them while the ranges are within the cap, is sorted with gaps between the
ranges, and is what the server stores. -/
theorem recipient_ranges_are_accepted (ranges : List Range) (h : ∀ r ∈ ranges, r.1 < r.2) :
    let out := capRanges (coalesceRanges ranges)
    (∀ i, covered out i = true → covered ranges i = true) ∧
    ((coalesceRanges ranges).length ≤ maxResumeRanges → ∀ i, covered out i = covered ranges i) ∧
    Separated out ∧ parseVerifiedRanges out = some out := by
  intro out
  have hmerged := Frames.separated_coalesceRanges (Frames.separated_coalesceRanges h).1
  have hsame (i : Nat) : covered (coalesceRanges (coalesceRanges ranges)) i = covered ranges i := by
    rw [Frames.covered_coalesceRanges fun r hr => ((Frames.separated_coalesceRanges h).1 r hr).le,
      Frames.covered_coalesceRanges fun r hr => (h r hr).le]
  by_cases hl : (coalesceRanges (coalesceRanges ranges)).length ≤ maxResumeRanges
  · have hout : out = coalesceRanges (coalesceRanges ranges) := if_pos hl
    rw [hout]
    exact ⟨fun i hi => hsame i ▸ hi, fun _ => hsame, hmerged, parseVerifiedRanges_separated hmerged hl⟩
  · have hout : out = contiguous 0 (coalesceRanges (coalesceRanges ranges)) := if_neg hl
    have hover : ¬ (coalesceRanges ranges).length ≤ maxResumeRanges :=
      fun hle => hl (Nat.le_trans (Frames.coalesceRanges_length _) hle)
    rcases contiguous_eq hmerged 0 with he | ⟨r, hr, he⟩
    · rw [hout, he]
      exact ⟨by simp [covered], fun hle => absurd hle hover, Frames.separated_nil, rfl⟩
    · rw [hout, he]
      have hone : Separated [r] := ⟨by simpa using hmerged.1 r hr, pairwise_singleton _ _⟩
      refine ⟨fun i hi => ?_, fun hle => absurd hle hover, hone, parseVerifiedRanges_separated hone (by simp [maxResumeRanges])⟩
      rw [← hsame, covered_iff]
      exact ⟨r, hr, by simpa [covered] using hi⟩

theorem recipient_ranges_are_accepted_overlapping :
    capRanges (coalesceRanges [(4, 5), (0, 2), (1, 3), (5, 7)]) = [(0, 3), (4, 7)] ∧
      parseVerifiedRanges (capRanges (coalesceRanges [(4, 5), (0, 2), (1, 3), (5, 7)])) = some [(0, 3), (4, 7)] := by
  have hout : capRanges (coalesceRanges [(4, 5), (0, 2), (1, 3), (5, 7)]) = [(0, 3), (4, 7)] := by decide
  have h := (recipient_ranges_are_accepted [(4, 5), (0, 2), (1, 3), (5, 7)] (by decide)).2.2.2
  exact ⟨hout, hout ▸ h⟩

end Accepted

section Report

variable {r : Range} {ranges ranges' : List Range}

theorem covered_cons (i : Nat) :
    covered (r :: ranges) i = true ↔ (r.1 ≤ i ∧ i < r.2) ∨ covered ranges i = true := by
  simp [covered]

theorem covered_first (h : Separated (r :: ranges)) : covered (r :: ranges) r.1 = true :=
  (covered_cons _).mpr (.inl ⟨le_rfl, h.1 r mem_cons_self⟩)

theorem lt_of_covered (h : Separated (r :: ranges)) (i : Nat) (hi : covered ranges i = true) : r.2 < i := by
  obtain ⟨x, hx, hle, -⟩ := (covered_iff _ _).mp hi
  exact Nat.lt_of_lt_of_le ((Frames.separated_cons.mp h).2.1 x hx) hle

theorem separated_ext (h : Separated ranges) (h' : Separated ranges')
    (hc : ∀ i, covered ranges i = true ↔ covered ranges' i = true) : ranges = ranges' := by
  induction ranges generalizing ranges' with
  | nil =>
    cases ranges' with
    | nil => rfl
    | cons r' _ => cases (hc r'.1).mpr (covered_first h')
  | cons r rest ih =>
    cases ranges' with
    | nil => cases (hc r.1).mp (covered_first h)
    | cons r' rest' =>
      have hr := h.1 r mem_cons_self
      have hr' := h'.1 r' mem_cons_self
      have hfar := lt_of_covered h
      have hfar' := lt_of_covered h'
      simp only [covered_cons] at hc
      have hfirst : r.1 = r'.1 := by grind
      have hend : r.2 = r'.2 := by
        have := hc r.2
        have := hc r'.2
        grind
      rw [Prod.ext hfirst hend, ih (Frames.separated_cons.mp h).2.2 (Frames.separated_cons.mp h').2.2 ?_]
      grind

/-- The merged ranges depend on the chunks that are held and not on the order in
which they came, and within the cap they are what is reported. -/
theorem report_depends_on_chunks (ranges ranges' : List Range) (h : ∀ r ∈ ranges, r.1 < r.2)
    (h' : ∀ r ∈ ranges', r.1 < r.2) :
    (coalesceRanges ranges = coalesceRanges ranges' ↔ ∀ i, covered ranges i = covered ranges' i) ∧
      ((coalesceRanges ranges).length ≤ maxResumeRanges → capRanges (coalesceRanges ranges) = coalesceRanges ranges) := by
  have hsame := Frames.covered_coalesceRanges fun r hr => (h r hr).le
  have hsame' := Frames.covered_coalesceRanges fun r hr => (h' r hr).le
  have hsep := Frames.separated_coalesceRanges h
  refine ⟨⟨fun he i => ?_, fun hc => ?_⟩, fun hl => ?_⟩
  · rw [← hsame, he, hsame']
  · refine separated_ext hsep (Frames.separated_coalesceRanges h') fun i => ?_
    rw [hsame, hsame', hc]
  · have htwice : coalesceRanges (coalesceRanges ranges) = coalesceRanges ranges := by
      refine separated_ext (Frames.separated_coalesceRanges hsep.1) hsep fun i => ?_
      rw [Frames.covered_coalesceRanges fun r hr => (hsep.1 r hr).le]
    rw [capRanges, htwice]
    exact if_pos hl

theorem report_depends_on_chunks_reordered :
    capRanges (coalesceRanges [(2, 3), (0, 1), (1, 2)]) = [(0, 3)] ∧
      ∀ i, covered [(2, 3), (0, 1), (1, 2)] i = covered [(0, 1), (1, 3)] i := by
  have h := report_depends_on_chunks [(2, 3), (0, 1), (1, 2)] [(0, 1), (1, 3)] (by decide) (by decide)
  have he : coalesceRanges [(2, 3), (0, 1), (1, 2)] = [(0, 3)] := by decide
  exact ⟨(h.2 (by decide)).trans he, h.1.mp (he.trans (by decide))⟩

end Report

section Windows

structure Window where
  offset : Nat
  length : Nat

structure SendPlan where
  send : List Nat
  rehashOnly : List Nat

-- The chunk size is a constant of the page; nothing below depends on its value.
def chunkWindow (chunkBytes entrySize chunkIndex : Nat) : Except String (Nat × Int) :=
  if maxSafeInteger < entrySize then .error "entry size must be a safe non-negative integer"
  else if maxSafeInteger < chunkIndex then .error "chunk index must be a safe non-negative integer"
  else if entrySize ≤ chunkIndex * chunkBytes ∧ entrySize ≠ 0 then .error "chunk index past the entry end"
  else .ok (chunkIndex * chunkBytes, min (chunkBytes : Int) (entrySize - (chunkIndex * chunkBytes : Nat)))

def fragments (size pos left : Nat) : List Window :=
  if 0 < size ∧ 0 < left then
    ⟨pos, min size left⟩ :: fragments size (pos + min size left) (left - min size left)
  else []
termination_by left

def fragmentWindow (offset length size : Nat) : Except String (List Window) :=
  if maxSafeInteger < offset then .error "fragment offset must be a safe non-negative integer"
  else if maxSafeInteger < length then .error "fragment length must be a safe non-negative integer"
  else if size = 0 ∨ fragmentBytes < size then .error "fragment size must be a safe integer in 1..=24576"
  else .ok (fragments size offset length)

def planSend (chunkCount : Nat) (verifiedRanges : List Range) : Except String SendPlan :=
  if maxSafeInteger < chunkCount then .error "chunk count must be a safe non-negative integer"
  else match Frames.planSend chunkCount verifiedRanges with
    | some send => .ok ⟨send, (range chunkCount).filter (covered verifiedRanges)⟩
    | none => .error "resume range out of bounds"

/-- Non-empty windows of at most limit bytes, each where the one before it ends. -/
def Tiles (limit : Nat) : Nat → Nat → List Window → Prop
  | start, stop, [] => start = stop
  | start, stop, w :: rest =>
    w.offset = start ∧ 0 < w.length ∧ w.length ≤ limit ∧ Tiles limit (start + w.length) stop rest

variable {chunkBytes size limit : Nat}

theorem Tiles.concat {start stop : Nat} {windows : List Window} {w : Window} (h : Tiles limit start stop windows)
    (ho : w.offset = stop) (hpos : 0 < w.length) (hle : w.length ≤ limit) :
    Tiles limit start (stop + w.length) (windows ++ [w]) := by
  induction windows generalizing start with
  | nil =>
    obtain rfl : start = stop := h
    exact ⟨ho, hpos, hle, rfl⟩
  | cons v rest ih => exact ⟨h.1, h.2.1, h.2.2.1, ih h.2.2.2⟩

theorem fragments_tile (hlimit : 0 < limit) (pos left : Nat) : Tiles limit pos (pos + left) (fragments limit pos left) := by
  fun_induction fragments limit pos left with
  | case1 pos left h ih =>
    refine ⟨rfl, by simp; omega, by simp, ?_⟩
    rwa [Nat.add_assoc, Nat.add_sub_cancel' (Nat.min_le_right _ _)] at ih
  | case2 pos left h =>
    simp [Tiles]
    omega

def chunkCount (chunkBytes size : Nat) : Nat := (size + chunkBytes - 1) / chunkBytes

theorem lt_chunkCount (hchunk : 0 < chunkBytes) {i : Nat} : i < chunkCount chunkBytes size ↔ i * chunkBytes < size := by
  rw [chunkCount, Nat.lt_div_iff_mul_lt hchunk]
  omega

def window (chunkBytes size i : Nat) : Window := ⟨i * chunkBytes, min chunkBytes (size - i * chunkBytes)⟩

def Window.pair (w : Window) : Nat × Int := (w.offset, w.length)

theorem chunkWindow_eq (hsize : size ≤ maxSafeInteger) {i : Nat} (hi : i * chunkBytes < size)
    (hchunk : 0 < chunkBytes) : chunkWindow chunkBytes size i = .ok (window chunkBytes size i).pair := by
  have := Nat.le_mul_of_pos_right i hchunk
  rw [chunkWindow, if_neg (by omega), if_neg (by omega), if_neg (by omega), Window.pair, window]
  push_cast [hi.le]
  rfl

theorem windows_tile (hchunk : 0 < chunkBytes) {k : Nat} (hk : k ≤ chunkCount chunkBytes size) :
    Tiles chunkBytes 0 (min (k * chunkBytes) size) ((range k).map (window chunkBytes size)) := by
  induction k with
  | zero => simp [Tiles]
  | succ k ih =>
    have hin := (lt_chunkCount hchunk).mp hk
    have hend : min ((k + 1) * chunkBytes) size = min (k * chunkBytes) size + (window chunkBytes size k).length := by
      simp only [window, Nat.succ_mul]
      omega
    rw [range_succ, map_append, hend]
    exact (ih (by omega)).concat (by simp [window]; omega) (by simp [window]; omega) (by simp [window])

/-- Every chunk is sent or rehashed, in order; the chunk windows tile the file and
the fragments of a chunk tile its window. -/
theorem send_plan_tiles_the_file (chunkBytes size limit : Nat) (ranges : List Range) (hchunk : 0 < chunkBytes)
    (hsize : size ≤ maxSafeInteger) (hlimit : 0 < limit ∧ limit ≤ fragmentBytes)
    (hranges : ∀ r ∈ ranges, r.1 ≤ r.2 ∧ r.2 ≤ chunkCount chunkBytes size) :
    ∃ plan, planSend (chunkCount chunkBytes size) ranges = .ok plan ∧
      plan.send.Pairwise (· < ·) ∧ plan.rehashOnly.Pairwise (· < ·) ∧
      (∀ i, i ∈ plan.rehashOnly ↔ covered ranges i = true) ∧
      (plan.send ++ plan.rehashOnly).Perm (range (chunkCount chunkBytes size)) ∧
      ∃ window : Nat → Window, (∀ i < chunkCount chunkBytes size, chunkWindow chunkBytes size i = .ok (window i).pair) ∧
        Tiles chunkBytes 0 size ((range (chunkCount chunkBytes size)).map window) ∧
        ∀ i ∈ plan.send, ∃ parts, fragmentWindow (window i).offset (window i).length limit = .ok parts ∧
          Tiles limit (window i).offset ((window i).offset + (window i).length) parts := by
  have hcount : chunkCount chunkBytes size ≤ size := by
    by_contra hc
    have := (lt_chunkCount hchunk).mp (not_le.mp hc)
    have := Nat.le_mul_of_pos_right size hchunk
    omega
  have hall : ranges.all (inBounds (chunkCount chunkBytes size)) = true := by simpa [inBounds] using hranges
  refine ⟨⟨outside (chunkCount chunkBytes size) ranges, (range (chunkCount chunkBytes size)).filter (covered ranges)⟩,
    ?_, ?_, ?_, fun i => ?_, ?_, window chunkBytes size,
    fun i hi => chunkWindow_eq hsize ((lt_chunkCount hchunk).mp hi) hchunk, ?_, fun i hi => ?_⟩
  · rw [planSend, if_neg (by omega), Frames.planSend, if_pos hall]
  · exact pairwise_lt_range.filter _
  · exact pairwise_lt_range.filter _
  · rw [mem_filter, mem_range, and_iff_right_iff_imp, covered_iff]
    rintro ⟨r, hr, -, hlt⟩
    exact Nat.lt_of_lt_of_le hlt (hranges r hr).2
  · exact perm_append_comm.trans (filter_append_perm _ _)
  · have hend : size ≤ chunkCount chunkBytes size * chunkBytes :=
      not_lt.mp fun hc => lt_irrefl _ ((lt_chunkCount hchunk).mpr hc)
    have htile := windows_tile hchunk (le_refl (chunkCount chunkBytes size))
    rwa [Nat.min_eq_right hend] at htile
  · have hin := (lt_chunkCount hchunk).mp (Frames.mem_outside.mp hi).1
    refine ⟨fragments limit _ _, ?_, fragments_tile hlimit.1 _ _⟩
    rw [fragmentWindow, if_neg (by simp [window]; omega), if_neg (by simp [window]; omega), if_neg (by omega)]

theorem send_plan_tiles_the_file_resumed :
    planSend (chunkCount 10 25) [(0, 1)] = .ok ⟨[1, 2], [0]⟩ ∧
      ∃ parts, fragmentWindow 20 5 4 = .ok parts ∧ Tiles 4 20 25 parts := by
  obtain ⟨plan, hp, -, -, -, -, window, hw, -, hf⟩ :=
    send_plan_tiles_the_file 10 25 4 [(0, 1)] (by decide) (by decide) (by decide) (by decide)
  obtain rfl : plan = ⟨[1, 2], [0]⟩ := (Except.ok.inj hp).symm
  have h2 : ((20 : Nat), (5 : Int)) = (window 2).pair := Except.ok.inj (hw 2 (by decide))
  have := hf 2 (by decide)
  rw [← (Prod.mk.inj h2).1, ← Int.ofNat_inj.mp (Prod.mk.inj h2).2] at this
  exact ⟨hp, this⟩

end Windows

end Bore.ResumePlan
