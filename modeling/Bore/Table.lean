import Mathlib

namespace Bore

open List

variable {K V : Type} [DecidableEq K]

/-- A finite map as the list of its entries in insertion order. Every key
occurs once, so a lookup never depends on the position of its entry. -/
structure Table (K V : Type) where
  entries : List (K × V)
  nodup : (entries.map Prod.fst).Nodup

namespace Table

variable {k j : K} {xs : List (K × V)} {t : Table K V} {v : V}

def empty : Table K V := ⟨[], nodup_nil⟩

instance : EmptyCollection (Table K V) := ⟨empty⟩

instance : Inhabited (Table K V) := ⟨empty⟩

instance [DecidableEq V] : DecidableEq (Table K V) := fun s t =>
  decidable_of_iff (s.entries = t.entries) (by
    constructor
    · intro h
      cases s
      cases t
      cases h
      rfl
    · exact congrArg entries)

def lookup (k : K) : List (K × V) → Option V
  | [] => none
  | (j, v) :: rest => if k = j then some v else lookup k rest

def get? (t : Table K V) (k : K) : Option V := lookup k t.entries

def contains (t : Table K V) (k : K) : Bool := (t.get? k).isSome

def keys (t : Table K V) : List K := t.entries.map Prod.fst

def values (t : Table K V) : List V := t.entries.map Prod.snd

def size (t : Table K V) : Nat := t.entries.length

def setEntry (k : K) (v : V) : List (K × V) → List (K × V)
  | [] => [(k, v)]
  | (j, w) :: rest => if k = j then (k, v) :: rest else (j, w) :: setEntry k v rest

theorem mem_keys_setEntry (k : K) (v : V) (xs : List (K × V)) (j : K) :
    j ∈ (setEntry k v xs).map Prod.fst ↔ j = k ∨ j ∈ xs.map Prod.fst := by
  induction xs with
  | nil => simp [setEntry]
  | cons x _ ih =>
    rcases x with ⟨i, w⟩
    by_cases hk : k = i
    · subst hk
      simp [setEntry]
    · simp only [setEntry, hk, if_false, map_cons, mem_cons, ih]
      tauto

theorem nodup_setEntry (k : K) (v : V) (xs : List (K × V)) (h : (xs.map Prod.fst).Nodup) :
    ((setEntry k v xs).map Prod.fst).Nodup := by
  induction xs with
  | nil => simp [setEntry]
  | cons x _ ih =>
    rcases x with ⟨i, w⟩
    obtain ⟨hi, hx⟩ := nodup_cons.mp h
    by_cases hk : k = i
    · subst hk
      simpa [setEntry] using h
    simp only [setEntry, hk, if_false, map_cons, nodup_cons]
    refine ⟨?_, ih hx⟩
    rw [mem_keys_setEntry]
    rintro (rfl | hm)
    · exact hk rfl
    · exact hi hm

/-- An existing key keeps its position and takes the new value; a new key is
added at the end. -/
def insert (t : Table K V) (k : K) (v : V) : Table K V :=
  ⟨setEntry k v t.entries, nodup_setEntry k v t.entries t.nodup⟩

def erase (t : Table K V) (k : K) : Table K V :=
  ⟨t.entries.filter (fun e => e.1 ≠ k), t.nodup.sublist (filter_sublist.map Prod.fst)⟩

def retain (t : Table K V) (p : K → V → Bool) : Table K V :=
  ⟨t.entries.filter (fun e => p e.1 e.2), t.nodup.sublist (filter_sublist.map Prod.fst)⟩

def modify (t : Table K V) (k : K) (f : V → V) : Table K V :=
  ⟨t.entries.map (fun e => if e.1 = k then (e.1, f e.2) else e), by
    have he : (fun e : K × V => (if e.1 = k then (e.1, f e.2) else e).1) = Prod.fst := by
      funext e
      by_cases h : e.1 = k <;> simp [h]
    rw [map_map, Function.comp_def, he]
    exact t.nodup⟩

@[simp] theorem get?_empty (k : K) : (∅ : Table K V).get? k = none := rfl

theorem lookup_setEntry (k j : K) (v : V) (xs : List (K × V)) :
    lookup j (setEntry k v xs) = if j = k then some v else lookup j xs := by
  induction xs with
  | nil => by_cases h : j = k <;> simp [setEntry, lookup, h]
  | cons x _ ih =>
    rcases x with ⟨i, w⟩
    by_cases hk : k = i
    · subst hk
      by_cases h : j = k <;> simp [setEntry, lookup, h]
    by_cases h : j = i
    · subst h
      simp [setEntry, hk, lookup, Ne.symm hk]
    · simp [setEntry, hk, lookup, h, ih]

theorem get?_insert (t : Table K V) (k j : K) (v : V) : (t.insert k v).get? j = if j = k then some v else t.get? j :=
  lookup_setEntry k j v t.entries

@[simp] theorem get?_insert_self (t : Table K V) (k : K) (v : V) : (t.insert k v).get? k = some v := by
  simp [get?_insert]

theorem get?_insert_of_ne (t : Table K V) (v : V) (h : j ≠ k) : (t.insert k v).get? j = t.get? j := by
  simp [get?_insert, h]

theorem lookup_eq_some_iff (h : (xs.map Prod.fst).Nodup) (k : K) (v : V) : lookup k xs = some v ↔ (k, v) ∈ xs := by
  induction xs with
  | nil => simp [lookup]
  | cons x xs ih =>
    rcases x with ⟨i, w⟩
    obtain ⟨hi, hx⟩ := nodup_cons.mp h
    by_cases hk : k = i
    · subst hk
      have hn : (k, v) ∉ xs := fun hm => hi (mem_map.mpr ⟨(k, v), hm, rfl⟩)
      simp [lookup, hn, eq_comm]
    · simp [lookup, hk, ih hx]

theorem get?_eq_some_iff (t : Table K V) (k : K) (v : V) : t.get? k = some v ↔ (k, v) ∈ t.entries :=
  lookup_eq_some_iff t.nodup k v

theorem lookup_eq_none_iff (k : K) (xs : List (K × V)) : lookup k xs = none ↔ k ∉ xs.map Prod.fst := by
  induction xs with
  | nil => simp [lookup]
  | cons x _ ih =>
    rcases x with ⟨i, w⟩
    by_cases h : k = i <;> simp [lookup, h, ih]

theorem lookup_perm {ys : List (K × V)} (h : xs.Perm ys) (hn : (xs.map Prod.fst).Nodup) (k : K) :
    lookup k xs = lookup k ys := by
  have hy : (ys.map Prod.fst).Nodup := (h.map Prod.fst).nodup_iff.mp hn
  apply Option.ext
  intro v
  rw [lookup_eq_some_iff hn, lookup_eq_some_iff hy]
  exact h.mem_iff

theorem lookup_map {W : Type} (f : V → W) (k : K) (xs : List (K × V)) :
    lookup k (xs.map (fun e => (e.1, f e.2))) = (lookup k xs).map f := by
  induction xs with
  | nil => rfl
  | cons x _ ih => by_cases h : k = x.1 <;> simp [lookup, h, ih]

omit [DecidableEq K] in
theorem keys_filterMap_sublist {W : Type} (g : V → Option W) (xs : List (K × V)) :
    ((xs.filterMap (fun e => (g e.2).map (fun w => (e.1, w)))).map Prod.fst).Sublist (xs.map Prod.fst) := by
  induction xs with
  | nil => exact List.Sublist.slnil
  | cons x _ ih => cases hx : g x.2 <;> simp [hx, ih, ih.cons]

theorem lookup_filterMap {W : Type} (g : V → Option W) (hn : (xs.map Prod.fst).Nodup) (k : K) :
    lookup k (xs.filterMap (fun e => (g e.2).map (fun w => (e.1, w)))) = (lookup k xs).bind g := by
  apply Option.ext
  intro w
  rw [lookup_eq_some_iff (hn.sublist (keys_filterMap_sublist g xs)), Option.bind_eq_some_iff]
  simp only [mem_filterMap, Option.map_eq_some_iff, Prod.mk.injEq, lookup_eq_some_iff hn]
  constructor
  · rintro ⟨⟨i, v⟩, hm, u, hu, rfl, rfl⟩
    exact ⟨v, hm, hu⟩
  · rintro ⟨v, hm, hu⟩
    exact ⟨(k, v), hm, w, hu, rfl, rfl⟩

theorem get?_foldl_insert (hn : (xs.map Prod.fst).Nodup) (t : Table K V) (k : K) :
    (xs.foldl (fun t e => t.insert e.1 e.2) t).get? k = (lookup k xs).or (t.get? k) := by
  induction xs generalizing t with
  | nil => rfl
  | cons x _ ih =>
    obtain ⟨hx, hn⟩ := nodup_cons.mp hn
    rw [foldl_cons, ih hn, get?_insert]
    by_cases h : k = x.1
    · subst h
      simp [lookup, (lookup_eq_none_iff _ _).mpr hx]
    · simp [lookup, h]

theorem mem_values_iff (t : Table K V) (v : V) : v ∈ t.values ↔ ∃ k, t.get? k = some v := by
  simp [values, get?_eq_some_iff]

theorem mem_keys_iff (t : Table K V) (k : K) : k ∈ t.keys ↔ ∃ v, t.get? k = some v := by
  simp [keys, get?_eq_some_iff]

theorem get?_retain (t : Table K V) (p : K → V → Bool) (k : K) : (t.retain p).get? k = (t.get? k).filter (p k) := by
  apply Option.ext
  intro v
  rw [get?_eq_some_iff, Option.filter_eq_some_iff, get?_eq_some_iff]
  simp [retain]

theorem get?_erase (t : Table K V) (k j : K) : (t.erase k).get? j = if j = k then none else t.get? j := by
  apply Option.ext
  intro v
  rw [get?_eq_some_iff]
  by_cases h : j = k
  · simp [erase, h]
  · simp [erase, h, get?_eq_some_iff]

theorem of_get?_erase (h : (t.erase k).get? j = some v) : j ≠ k ∧ t.get? j = some v := by
  rw [get?_erase] at h
  split at h
  · cases h
  · exact ⟨‹_›, h⟩

theorem get?_of_erase (h : (t.erase k).get? j = some v) : t.get? j = some v :=
  (of_get?_erase h).2

theorem lookup_modify (k j : K) (f : V → V) (xs : List (K × V)) :
    lookup j (xs.map (fun e => if e.1 = k then (e.1, f e.2) else e)) =
      if j = k then (lookup j xs).map f else lookup j xs := by
  induction xs with
  | nil => simp [lookup]
  | cons x _ ih =>
    rcases x with ⟨i, w⟩
    by_cases hj : j = i
    · subst hj
      by_cases hk : j = k <;> simp [lookup, hk]
    · by_cases hk : i = k
      · subst hk
        simp [lookup, hj, ih]
      · simp [lookup, hj, hk, ih]

theorem get?_modify (t : Table K V) (k j : K) (f : V → V) :
    (t.modify k f).get? j = if j = k then (t.get? j).map f else t.get? j :=
  lookup_modify k j f t.entries

theorem perm_cons_filter (h : (xs.map Prod.fst).Nodup) (hm : (k, v) ∈ xs) :
    xs.Perm ((k, v) :: xs.filter (fun e => e.1 ≠ k)) := by
  have hn : xs.Nodup := h.of_map
  have hn' : ((k, v) :: xs.filter (fun e => e.1 ≠ k)).Nodup := nodup_cons.mpr ⟨by simp, hn.filter _⟩
  refine (perm_ext_iff_of_nodup hn hn').mpr fun e => ?_
  rw [mem_cons, mem_filter, decide_eq_true_eq]
  constructor
  · intro he
    by_cases hk : e.1 = k
    · exact .inl (inj_on_of_nodup_map h he hm hk)
    · exact .inr ⟨he, hk⟩
  · rintro (rfl | he)
    · exact hm
    · exact he.1

theorem filter_setEntry (k : K) (v : V) (xs : List (K × V)) :
    (setEntry k v xs).filter (fun e => e.1 ≠ k) = xs.filter (fun e => e.1 ≠ k) := by
  induction xs with
  | nil => simp [setEntry]
  | cons x _ ih =>
    rcases x with ⟨i, w⟩
    by_cases hk : k = i
    · subst hk
      simp [setEntry]
    · have hi : decide (i ≠ k) = true := by simpa using Ne.symm hk
      simp only [setEntry, hk, if_false, filter_cons, hi, if_true, ih]

theorem erase_insert (t : Table K V) (k : K) (v : V) : (t.insert k v).erase k = t.erase k := by
  simp only [erase, insert, filter_setEntry]

theorem erase_of_get?_none (h : t.get? k = none) : (t.erase k).entries = t.entries := by
  refine filter_eq_self.mpr (fun e he => ?_)
  have hne : e.1 ≠ k := by
    rintro rfl
    rw [(get?_eq_some_iff t e.1 e.2).mpr he] at h
    cases h
  simpa using hne

theorem perm_keys_erase (h : t.get? k = some v) : t.keys.Perm (k :: (t.erase k).keys) :=
  (perm_cons_filter t.nodup ((get?_eq_some_iff t k v).mp h)).map Prod.fst

theorem perm_insert (h : t.get? k = none) (v : V) : (t.insert k v).entries.Perm ((k, v) :: t.entries) := by
  have hp := perm_cons_filter (t.insert k v).nodup ((get?_eq_some_iff _ _ _).mp (get?_insert_self t k v))
  have he : (t.insert k v).entries.filter (fun e => e.1 ≠ k) = (t.erase k).entries := filter_setEntry k v t.entries
  rwa [he, erase_of_get?_none h] at hp

theorem perm_values_erase (h : t.get? k = some v) : t.values.Perm (v :: (t.erase k).values) :=
  (perm_cons_filter t.nodup ((get?_eq_some_iff t k v).mp h)).map Prod.snd

theorem perm_values_insert (h : t.get? k = none) (v : V) : (t.insert k v).values.Perm (v :: t.values) :=
  (perm_insert h v).map Prod.snd

theorem sum_values_erase (f : V → Nat) (h : t.get? k = some v) :
    (t.values.map f).sum = f v + ((t.erase k).values.map f).sum := by
  rw [((perm_values_erase h).map f).sum_nat, map_cons, sum_cons]

section Collect

variable {W : Type} (g : V → Option W)
variable {t : Table K V}

def collect (t : Table K V) : List W := t.entries.filterMap (fun e => g e.2)

theorem perm_collect_erase {k : K} {v : V} (h : t.get? k = some v) :
    (t.collect g).Perm ((g v).toList ++ (t.erase k).collect g) := by
  have hp := (perm_cons_filter t.nodup ((get?_eq_some_iff t k v).mp h)).filterMap (fun e => g e.2)
  refine hp.trans ?_
  rw [filterMap_cons]
  cases hg : g v <;> simp [collect, erase]

theorem perm_collect_insert (t : Table K V) (k : K) (v : V) :
    ((t.insert k v).collect g).Perm ((g v).toList ++ (t.erase k).collect g) := by
  have h := perm_collect_erase g (get?_insert_self t k v)
  rwa [erase_insert] at h

theorem erase_modify (t : Table K V) (k : K) (f : V → V) : (t.modify k f).erase k = t.erase k := by
  have h (xs : List (K × V)) : (xs.map (fun e => if e.1 = k then (e.1, f e.2) else e)).filter (fun e => e.1 ≠ k) =
      xs.filter (fun e => e.1 ≠ k) := by
    induction xs with
    | nil => rfl
    | cons x _ ih =>
      by_cases hx : x.1 = k
      · simp only [map_cons, hx, if_true, filter_cons, ne_eq, not_true, decide_false]
        simpa using ih
      · simp only [map_cons, hx, if_false, filter_cons, ne_eq, not_false_eq_true, decide_true, if_true]
        simpa using ih
  simp only [erase, modify, h]

theorem perm_collect_modify {k : K} {v : V} (f : V → V) (h : t.get? k = some v) :
    ((t.modify k f).collect g).Perm ((g (f v)).toList ++ (t.erase k).collect g) := by
  have hm : (t.modify k f).get? k = some (f v) := by
    rw [get?_modify, if_pos rfl, h, Option.map_some]
  have hp := perm_collect_erase g hm
  rwa [erase_modify] at hp

omit [DecidableEq K] in
theorem collect_retain_sublist (t : Table K V) (p : K → V → Bool) : ((t.retain p).collect g).Sublist (t.collect g) :=
  filter_sublist.filterMap _

theorem collect_erase_sublist (t : Table K V) (k : K) : ((t.erase k).collect g).Sublist (t.collect g) :=
  filter_sublist.filterMap _

theorem mem_collect {w : W} : w ∈ t.collect g ↔ ∃ k v, t.get? k = some v ∧ g v = some w := by
  simp [collect, get?_eq_some_iff]

end Collect

end Table

end Bore
