import Mathlib

namespace Bore.ExpiringCache

open List

variable {I V : Type}

structure Entry (I V : Type) where
  id : I
  value : V
  stored : Nat
  deriving DecidableEq

abbrev Cache (I V : Type) := List (Entry I V)

def fresh (ttl now : Nat) (e : Entry I V) : Bool := now - e.stored < ttl

def expire (ttl now : Nat) (cache : Cache I V) : Cache I V := cache.filter (fresh ttl now)

def find [DecidableEq I] (cache : Cache I V) (id : I) : Option V := (cache.find? (fun e => e.id = id)).map Entry.value

def shrink (cap : Nat) : Cache I V → Cache I V
  | [] => []
  | e :: rest => if cap ≤ (e :: rest).length then shrink cap rest else e :: rest

def insert [DecidableEq I] (ttl cap : Nat) (cache : Cache I V) (id : I) (value : V) (now : Nat) : Cache I V :=
  shrink cap ((expire ttl now cache).filter (fun e => e.id ≠ id)) ++ [⟨id, value, now⟩]

theorem shrink_append (cap : Nat) (before after : Cache I V) (h : after.length < cap) :
    ∃ kept, kept.Sublist before ∧ shrink cap (before ++ after) = kept ++ after := by
  induction before with
  | nil =>
    refine ⟨[], List.Sublist.refl _, ?_⟩
    cases after with
    | nil => rfl
    | cons => exact if_neg (Nat.not_le_of_lt h)
  | cons e before ih =>
    rw [cons_append, shrink]
    split
    · obtain ⟨kept, hsub, he⟩ := ih
      exact ⟨kept, hsub.cons e, he⟩
    · exact ⟨e :: before, List.Sublist.refl _, rfl⟩

/-- The entry is in the cache, and everything stored after it bears one of the
identifiers seen since. -/
def Holds (e : Entry I V) (seen : Finset I) (cache : Cache I V) : Prop :=
  ∃ before after, cache = before ++ e :: after ∧ (∀ x ∈ before, x.id ≠ e.id) ∧ (after.map Entry.id).Nodup ∧
    ∀ x ∈ after, x.id ∈ seen

section Holds

variable {ttl cap now : Nat} {cache : Cache I V} {e : Entry I V} {seen : Finset I}

theorem holds_insert_self [DecidableEq I] (id : I) (value : V) : Holds ⟨id, value, now⟩ ∅ (insert ttl cap cache id value now) := by
  refine ⟨shrink cap ((expire ttl now cache).filter (fun e => e.id ≠ id)), [], rfl, fun x hx => ?_, nodup_nil,
    fun x hx => absurd hx not_mem_nil⟩
  have hsub : ∀ xs : Cache I V, (shrink cap xs).Sublist xs := by
    intro xs
    induction xs with
    | nil => exact List.Sublist.refl _
    | cons y _ ih =>
      rw [shrink]
      split
      · exact ih.cons y
      · exact List.Sublist.refl _
  have hm := (hsub _).subset hx
  simpa using (mem_filter.mp hm).2

theorem Holds.mono {seen' : Finset I} (h : Holds e seen cache) (hs : seen ⊆ seen') : Holds e seen' cache := by
  obtain ⟨before, after, hc, hb, hn, ha⟩ := h
  exact ⟨before, after, hc, hb, hn, fun x hx => hs (ha x hx)⟩

theorem Holds.expire (h : Holds e seen cache) (hf : now - e.stored < ttl) : Holds e seen (expire ttl now cache) := by
  obtain ⟨before, after, rfl, hb, hn, ha⟩ := h
  refine ⟨before.filter (fresh ttl now), after.filter (fresh ttl now), ?_, fun x hx => hb x (mem_filter.mp hx).1,
    hn.sublist (filter_sublist.map _), fun x hx => ha x (mem_filter.mp hx).1⟩
  rw [ExpiringCache.expire, filter_append, filter_cons_of_pos (by simpa only [fresh, decide_eq_true_eq] using hf)]

theorem Holds.find [DecidableEq I] (h : Holds e seen cache) : find cache e.id = some e.value := by
  obtain ⟨before, after, rfl, hb, -, -⟩ := h
  rw [ExpiringCache.find, find?_append, find?_eq_none.mpr (by simpa using hb), Option.none_or,
    find?_cons_of_pos (by simp)]
  rfl

theorem Holds.insert [DecidableEq I] {id : I} {value : V} (h : Holds e seen cache) (hf : now - e.stored < ttl) (hid : id ≠ e.id)
    (hcard : (Insert.insert id seen).card < cap) :
    Holds e (Insert.insert id seen) (insert ttl cap cache id value now) := by
  obtain ⟨before, after, hc, hb, hn, ha⟩ := h.expire hf
  have hfilter : (ExpiringCache.expire ttl now cache).filter (fun x => x.id ≠ id) =
      before.filter (fun x => x.id ≠ id) ++ e :: after.filter (fun x => x.id ≠ id) := by
    rw [hc, filter_append, filter_cons_of_pos (by simpa using Ne.symm hid)]
  have hn' : ((after.filter (fun x => x.id ≠ id)).map Entry.id).Nodup := hn.sublist (filter_sublist.map _)
  have hlen : (after.filter (fun x => x.id ≠ id)).length + 1 ≤ (Insert.insert id seen).card := by
    have hnodup : (id :: (after.filter (fun x => x.id ≠ id)).map Entry.id).Nodup := by
      refine nodup_cons.mpr ⟨fun hm => ?_, hn'⟩
      obtain ⟨x, hx, he⟩ := mem_map.mp hm
      exact absurd he (by simpa using (mem_filter.mp hx).2)
    have hsub : (id :: (after.filter (fun x => x.id ≠ id)).map Entry.id).toFinset ⊆ Insert.insert id seen := by
      intro j hj
      rw [mem_toFinset, mem_cons] at hj
      rcases hj with rfl | hj
      · exact Finset.mem_insert_self _ _
      · obtain ⟨x, hx, rfl⟩ := mem_map.mp hj
        exact Finset.mem_insert_of_mem (ha x (mem_filter.mp hx).1)
    have hle := Finset.card_le_card hsub
    rwa [toFinset_card_of_nodup hnodup, length_cons, length_map] at hle
  obtain ⟨kept, hkept, hshrink⟩ := shrink_append cap (before.filter (fun x => x.id ≠ id))
    (e :: after.filter (fun x => x.id ≠ id)) (Nat.lt_of_le_of_lt hlen hcard)
  refine ⟨kept, after.filter (fun x => x.id ≠ id) ++ [⟨id, value, now⟩], ?_, fun x hx => ?_, ?_, fun x hx => ?_⟩
  · rw [ExpiringCache.insert, hfilter, hshrink, append_assoc, cons_append]
  · exact hb x (mem_filter.mp (hkept.subset hx)).1
  · rw [map_append, nodup_append]
    refine ⟨hn', nodup_singleton _, fun j hj k hk => ?_⟩
    obtain ⟨x, hx, rfl⟩ := mem_map.mp hj
    rw [mem_singleton.mp hk]
    simpa using (mem_filter.mp hx).2
  · rcases mem_append.mp hx with hx | hx
    · exact Finset.mem_insert_of_mem (ha x (mem_filter.mp hx).1)
    · rw [mem_singleton.mp hx]
      exact Finset.mem_insert_self _ _

end Holds

end Bore.ExpiringCache
