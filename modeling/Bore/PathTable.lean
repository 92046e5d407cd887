import Bore.OsPath
import Bore.Table

namespace Bore

variable {V : Type}

namespace PathTable

open OsPath

def under (root path : PathBuf) : Bool := path.absolute == root.absolute && root.components.isPrefixOf path.components

end PathTable

open OsPath PathTable

/-- What `rename` makes of a table keyed by paths, for one entry or a whole tree:
what was under the new name is gone. -/
def Table.renameTree (table : Table PathBuf V) (source target : PathBuf) : Table PathBuf V :=
  (table.entries.filter (fun e => under source e.1)).foldl
    (fun table e => table.insert { target with
      components := target.components ++ e.1.components.drop source.components.length } e.2)
    (table.retain (fun path _ => !under source path && !under target path))

namespace PathTable

theorem under_below (path : PathBuf) (rest : List Component) : under path (below path rest) = true := by
  simp [under, below]

theorem under_iff {root path : PathBuf} : under root path = true ↔ ∃ rest, path = below root rest := by
  constructor
  · intro h
    simp only [under, Bool.and_eq_true, beq_iff_eq, List.isPrefixOf_iff_prefix] at h
    obtain ⟨ha, rest, hr⟩ := h
    refine ⟨rest, ?_⟩
    rcases path with ⟨absolute, components⟩
    simp_all [below]
  · rintro ⟨rest, rfl⟩
    exact under_below root rest

theorem under_below_below (path : PathBuf) (xs ys : List Component) :
    under (below path xs) (below path ys) = xs.isPrefixOf ys := by
  rw [Bool.eq_iff_iff, under_iff, List.isPrefixOf_iff_prefix]
  simp only [below_below, below_inj]
  exact exists_congr (fun rest => eq_comm)

section Rename

def moved (source target path : PathBuf) : PathBuf := below target (path.components.drop source.components.length)

theorem moved_below (source target : PathBuf) (rest : List Component) :
    moved source target (below source rest) = below target rest := by
  simp [moved, below]

theorem moved_inj {source target p q : PathBuf} (hp : under source p = true) (hq : under source q = true)
    (h : moved source target p = moved source target q) : p = q := by
  obtain ⟨xs, rfl⟩ := under_iff.mp hp
  obtain ⟨ys, rfl⟩ := under_iff.mp hq
  rw [moved_below, moved_below, below_inj] at h
  rw [h]

section

variable (table : Table PathBuf V)
include table

theorem renameTree_eq_foldl (source target : PathBuf) : table.renameTree source target =
      (((table.entries.filter (fun e => under source e.1)).map (fun e => (moved source target e.1, e.2))).foldl
        (fun table e => table.insert e.1 e.2)
        (table.retain (fun path _ => !under source path && !under target path)) : Table PathBuf V) := by
  rw [List.foldl_map]
  rfl

theorem nodup_moved (source target : PathBuf) :
    (((table.entries.filter (fun e => under source e.1)).map (fun e => (moved source target e.1, e.2))).map
      Prod.fst).Nodup := by
  have hn : ((table.entries.filter (fun e => under source e.1)).map Prod.fst).Nodup :=
    table.nodup.sublist (List.filter_sublist.map Prod.fst)
  have he : ((table.entries.filter (fun e => under source e.1)).map (fun e => (moved source target e.1, e.2))).map Prod.fst =
      ((table.entries.filter (fun e => under source e.1)).map Prod.fst).map (moved source target) := by
    simp only [List.map_map, Function.comp_def]
  rw [he]
  refine hn.map_on ?_
  intro p hp q hq h
  obtain ⟨e, hm, rfl⟩ := List.mem_map.mp hp
  obtain ⟨e', hm', rfl⟩ := List.mem_map.mp hq
  exact moved_inj (List.mem_filter.mp hm).2 (List.mem_filter.mp hm').2 h

theorem get?_renameTree (source target path : PathBuf) : (table.renameTree source target).get? path =
      (Table.lookup path ((table.entries.filter (fun e => under source e.1)).map
        (fun e => (moved source target e.1, e.2)))).or
        ((table.get? path).filter (fun _ => !under source path && !under target path)) := by
  rw [renameTree_eq_foldl, Table.get?_foldl_insert (nodup_moved table source target), Table.get?_retain]

theorem get?_renameTree_target (source target : PathBuf) (rest : List Component) :
    (table.renameTree source target).get? (below target rest) = table.get? (below source rest) := by
  have hf : ((table.get? (below target rest)).filter
      (fun _ => !under source (below target rest) && !under target (below target rest))) = none := by
    rw [under_below, Bool.not_true, Bool.and_false]
    cases table.get? (below target rest) <;> rfl
  rw [get?_renameTree, hf, Option.or_none]
  apply Option.ext
  intro data
  rw [Table.lookup_eq_some_iff (nodup_moved table source target), Table.get?_eq_some_iff]
  constructor
  · intro hm
    obtain ⟨e, he, heq⟩ := List.mem_map.mp hm
    obtain ⟨he, hu⟩ := List.mem_filter.mp he
    obtain ⟨ys, hys⟩ := under_iff.mp hu
    rw [Prod.mk.injEq, hys, moved_below, below_inj] at heq
    rw [← heq.1, ← heq.2, ← hys]
    exact he
  · intro hm
    refine List.mem_map.mpr ⟨_, List.mem_filter.mpr ⟨hm, under_below source rest⟩, ?_⟩
    rw [moved_below]

theorem get?_renameTree_outside {source target path : PathBuf} (h : under target path = false) :
    (table.renameTree source target).get? path = if under source path then none else table.get? path := by
  have hl : Table.lookup path ((table.entries.filter (fun e => under source e.1)).map
      (fun e => (moved source target e.1, e.2))) = none := by
    refine (Table.lookup_eq_none_iff _ _).mpr (fun hm => ?_)
    obtain ⟨e, he, rfl⟩ := List.mem_map.mp hm
    obtain ⟨e, -, rfl⟩ := List.mem_map.mp he
    rw [moved, under_below] at h
    cases h
  rw [get?_renameTree, hl, Option.none_or, h]
  cases under source path <;> cases table.get? path <;> rfl

end

theorem get?_renameTree_some {table : Table PathBuf V} {source target path : PathBuf} {data : V}
    (h : (table.renameTree source target).get? path = some data) (ht : under target path = false) :
    table.get? path = some data := by
  rw [get?_renameTree_outside table ht] at h
  split at h
  · cases h
  · exact h

end Rename

end PathTable

end Bore
