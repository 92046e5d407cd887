import Bore.Frames

namespace Bore.Frames

open List

variable {ranges : List Range}

/-! ### Coalesced ranges -/

theorem covered_iff (ranges : List Range) (i : Nat) : covered ranges i = true ↔ ∃ r ∈ ranges, r.1 ≤ i ∧ i < r.2 := by
  simp [covered]

def Separated (ranges : List Range) : Prop :=
  (∀ r ∈ ranges, r.1 < r.2) ∧ ranges.Pairwise (fun a b => a.2 < b.1)

theorem separated_nil : Separated [] := ⟨fun _ h => by simp at h, List.Pairwise.nil⟩

theorem separated_cons {r : Range} :
    Separated (r :: ranges) ↔ r.1 < r.2 ∧ (∀ x ∈ ranges, r.2 < x.1) ∧ Separated ranges := by
  simp only [Separated, forall_mem_cons, pairwise_cons]
  tauto

theorem mergeRanges_separated (last : Range) (rest : List Range) (hl : last.1 < last.2)
    (hn : ∀ r ∈ rest, r.1 < r.2) (hs : (last :: rest).Pairwise (fun a b => a.1 ≤ b.1)) :
    Separated (mergeRanges last rest) ∧ ∀ r ∈ mergeRanges last rest, last.1 ≤ r.1 := by
  induction rest generalizing last with
  | nil =>
    refine ⟨⟨?_, pairwise_singleton _ _⟩, ?_⟩ <;> simp [mergeRanges, hl]
  | cons r rest ih =>
    rw [pairwise_cons, forall_mem_cons] at hs
    obtain ⟨⟨hlr, hlrest⟩, hrest⟩ := hs
    have hn' : ∀ x ∈ rest, x.1 < x.2 := fun x hx => hn x (mem_cons_of_mem _ hx)
    rw [mergeRanges]
    split
    · have hrest' := (pairwise_cons.mp hrest).2
      exact ih (last.1, max last.2 r.2) (by dsimp only; omega) hn' (pairwise_cons.mpr ⟨hlrest, hrest'⟩)
    obtain ⟨hsep, hge⟩ := ih r (hn r mem_cons_self) hn' hrest
    refine ⟨separated_cons.mpr ⟨hl, fun x hx => ?_, hsep⟩, ?_⟩
    · have := hge x hx
      omega
    · rw [forall_mem_cons]
      exact ⟨Nat.le_refl _, fun x hx => Nat.le_trans hlr (hge x hx)⟩

theorem covered_mergeRanges (last : Range) (rest : List Range) (hn : ∀ r ∈ last :: rest, r.1 ≤ r.2)
    (hs : (last :: rest).Pairwise (fun a b => a.1 ≤ b.1)) (i : Nat) :
    covered (mergeRanges last rest) i = covered (last :: rest) i := by
  induction rest generalizing last with
  | nil => rfl
  | cons r _ ih =>
    rw [forall_mem_cons, forall_mem_cons] at hn
    rw [pairwise_cons, forall_mem_cons] at hs
    obtain ⟨hll, hlr, hlrest⟩ := hn
    obtain ⟨⟨hle, hlast⟩, hrest⟩ := hs
    have hrest' := (pairwise_cons.mp hrest).2
    rw [mergeRanges]
    split
    · rw [ih (last.1, max last.2 r.2)
        (forall_mem_cons.mpr ⟨by dsimp only; omega, hlrest⟩) (pairwise_cons.mpr ⟨hlast, hrest'⟩)]
      have hcell : (decide (last.1 ≤ i) && decide (i < max last.2 r.2)) =
          (decide (last.1 ≤ i) && decide (i < last.2) || decide (r.1 ≤ i) && decide (i < r.2)) := by
        rw [Bool.eq_iff_iff]
        simp only [Bool.and_eq_true, Bool.or_eq_true, decide_eq_true_eq]
        omega
      simp only [covered, any_cons, hcell, Bool.or_assoc]
    · have hi := ih r (forall_mem_cons.mpr ⟨hlr, hlrest⟩) hrest
      simp only [covered, any_cons] at hi ⊢
      rw [hi]

instance : Std.Total rangeLe where
  total a b := by
    unfold rangeLe
    omega

instance : IsTrans Range rangeLe where
  trans a b c := by
    unfold rangeLe
    omega

theorem sorted_starts (ranges : List Range) : (ranges.insertionSort rangeLe).Pairwise (fun a b => a.1 ≤ b.1) := by
  refine (pairwise_insertionSort rangeLe ranges).imp ?_
  intro a b h
  unfold rangeLe at h
  omega

theorem mem_insertionSort_ranges (ranges : List Range) (r : Range) : r ∈ ranges.insertionSort rangeLe ↔ r ∈ ranges :=
  (perm_insertionSort rangeLe ranges).mem_iff

theorem covered_coalesceRanges (h : ∀ r ∈ ranges, r.1 ≤ r.2) (i : Nat) :
    covered (coalesceRanges ranges) i = covered ranges i := by
  have hsort : covered (ranges.insertionSort rangeLe) i = covered ranges i := by
    rw [Bool.eq_iff_iff, covered_iff, covered_iff]
    simp only [mem_insertionSort_ranges]
  have hn : ∀ r ∈ ranges.insertionSort rangeLe, r.1 ≤ r.2 :=
    fun r hr => h r ((mem_insertionSort_ranges ranges r).mp hr)
  have hs := sorted_starts ranges
  rw [← hsort, coalesceRanges]
  split
  · rename_i he
    rw [he]
  · rename_i r rest he
    rw [he] at hn hs ⊢
    exact covered_mergeRanges r rest hn hs i

theorem separated_coalesceRanges (h : ∀ r ∈ ranges, r.1 < r.2) : Separated (coalesceRanges ranges) := by
  have hn : ∀ r ∈ ranges.insertionSort rangeLe, r.1 < r.2 :=
    fun r hr => h r ((mem_insertionSort_ranges ranges r).mp hr)
  have hs := sorted_starts ranges
  rw [coalesceRanges]
  split
  · exact separated_nil
  rename_i r rest he
  rw [he, forall_mem_cons] at hn
  rw [he] at hs
  exact (mergeRanges_separated r rest hn.1 hn.2 hs).1

theorem mergeRanges_length (last : Range) (rest : List Range) : (mergeRanges last rest).length ≤ rest.length + 1 := by
  induction rest generalizing last with
  | nil => exact Nat.le_refl _
  | cons r _ ih =>
    rw [mergeRanges, length_cons]
    split
    · exact Nat.le_trans (ih _) (Nat.le_succ _)
    · exact Nat.succ_le_succ (ih r)

theorem coalesceRanges_length (ranges : List Range) : (coalesceRanges ranges).length ≤ ranges.length := by
  rw [← length_insertionSort rangeLe ranges, coalesceRanges]
  split
  · exact Nat.zero_le _
  · rename_i r rest he
    rw [he]
    exact mergeRanges_length r rest

theorem mergeRanges_valid (last : Range) (rest : List Range) (h : ∀ r ∈ last :: rest, r.1 ≤ r.2) :
    ∀ r ∈ mergeRanges last rest, r.1 ≤ r.2 := by
  induction rest generalizing last with
  | nil => exact h
  | cons r _ ih =>
    rw [forall_mem_cons, forall_mem_cons] at h
    obtain ⟨hl, hr, hrest⟩ := h
    rw [mergeRanges]
    split
    · exact ih _ (forall_mem_cons.mpr ⟨by dsimp only; omega, hrest⟩)
    · exact forall_mem_cons.mpr ⟨hl, ih r (forall_mem_cons.mpr ⟨hr, hrest⟩)⟩

theorem coalesceRanges_valid (h : ∀ r ∈ ranges, r.1 ≤ r.2) : ∀ r ∈ coalesceRanges ranges, r.1 ≤ r.2 := by
  have hn : ∀ r ∈ ranges.insertionSort rangeLe, r.1 ≤ r.2 :=
    fun r hr => h r ((mem_insertionSort_ranges ranges r).mp hr)
  rw [coalesceRanges]
  split
  · exact fun r hr => absurd hr not_mem_nil
  · rename_i r rest he
    rw [he] at hn
    exact mergeRanges_valid r rest hn

theorem capRanges_coalesceRanges (h : ranges.length ≤ maxResumeRanges) :
    capRanges (coalesceRanges ranges) = coalesceRanges (coalesceRanges ranges) := by
  unfold capRanges
  rw [if_pos]
  exact Nat.le_trans (coalesceRanges_length _) (Nat.le_trans (coalesceRanges_length _) h)

theorem covered_capRanges (hl : ranges.length ≤ maxResumeRanges) (h : ∀ r ∈ ranges, r.1 ≤ r.2)
    (i : Nat) : covered (capRanges (coalesceRanges ranges)) i = covered ranges i := by
  rw [capRanges_coalesceRanges hl, covered_coalesceRanges (coalesceRanges_valid h), covered_coalesceRanges h]

theorem separated_capRanges (hl : ranges.length ≤ maxResumeRanges) (h : Separated ranges) :
    Separated (capRanges (coalesceRanges ranges)) := by
  rw [capRanges_coalesceRanges hl]
  exact separated_coalesceRanges (separated_coalesceRanges h.1).1

theorem mem_outside {n i : Nat} : i ∈ outside n ranges ↔ i < n ∧ covered ranges i = false := by
  simp [outside]

theorem Separated.eq_whole {n : Nat} (h : Separated ranges)
    (hc : ∀ i, covered ranges i = true ↔ i < n) : ranges = if n = 0 then [] else [(0, n)] := by
  have hin : ∀ r ∈ ranges, ∀ i, r.1 ≤ i → i < r.2 → i < n := fun r hr i h1 h2 =>
    (hc i).mp ((covered_iff _ _).mpr ⟨r, hr, h1, h2⟩)
  cases ranges with
  | nil =>
    have hz : n = 0 := by
      by_contra hne
      have := (hc 0).mpr (Nat.pos_of_ne_zero hne)
      simp [covered] at this
    rw [if_pos hz]
  | cons r rest =>
    obtain ⟨hr, hgap, hrest⟩ := separated_cons.mp h
    have hlast := hin r mem_cons_self (r.2 - 1) (by omega) (by omega)
    have hout : ∀ i, i < n → r.2 ≤ i → ∃ x ∈ rest, x.1 ≤ i := by
      intro i hi hge
      obtain ⟨x, hx, hx1, hx2⟩ := (covered_iff _ _).mp ((hc i).mpr hi)
      rcases mem_cons.mp hx with rfl | hx
      · omega
      · exact ⟨x, hx, hx1⟩
    have hstart : r.1 = 0 := by
      obtain ⟨x, hx, hx1, _⟩ := (covered_iff _ _).mp ((hc 0).mpr (by omega))
      rcases mem_cons.mp hx with rfl | hx
      · omega
      · have := hgap x hx
        omega
    have hend : r.2 = n := by
      by_contra hne
      obtain ⟨x, hx, hx1⟩ := hout r.2 (by omega) (Nat.le_refl _)
      have := hgap x hx
      omega
    have hnil : rest = [] := by
      refine eq_nil_iff_forall_not_mem.mpr fun x hx => ?_
      have h1 := hgap x hx
      have h2 := hin x (mem_cons_of_mem _ hx) x.1 (Nat.le_refl _) (hrest.1 x hx)
      omega
    rw [if_neg (by omega), hnil, ← hstart, ← hend]

end Bore.Frames
