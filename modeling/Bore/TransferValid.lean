import Bore.TransferDisk

namespace Bore.TransferValid

open OsPath TransferManifest TransferReceiver List

structure Accepted (source : RootSourceKind) (entry : ManifestEntry) (path : PathBuf) : Prop where
  decoded : decodeRelativePath entry.relPath = .ok path
  relative : path.absolute = false
  normal : ∀ c ∈ path.components, c.isNormal = true
  sized : entry.isRegular = true → source = .filesystem → ∃ size hash,
    entry.size = some size ∧ entry.fullHash = some hash ∧ entry.chunkCount = chunkCountFor size

variable {source : RootSourceKind} {ids : List UInt32} {paths : List (PathBuf × EntryKind)} {entry : ManifestEntry}
  {path : PathBuf} {entries : List ManifestEntry}

theorem validateRelativePath_ok (h : validateRelativePath path = .ok ()) :
    path.absolute = false ∧ ∀ c ∈ path.components, c.isNormal = true := by
  unfold validateRelativePath at h
  split at h
  · rename_i hc
    simpa using hc
  · cases h

theorem validateRegular_filesystem (h : validateRegular .filesystem entry = .ok ()) :
    ∃ size hash, entry.size = some size ∧ entry.fullHash = some hash ∧ entry.chunkCount = chunkCountFor size := by
  simp only [validateRegular] at h
  split at h
  · rename_i size hsize
    split at h
    · cases h
    rename_i hhash
    obtain ⟨hash, hhash⟩ : ∃ hash, entry.fullHash = some hash :=
      Option.ne_none_iff_exists'.mp (by simpa using hhash)
    split at h
    · cases h
    · rename_i hcount
      exact ⟨size, hash, hsize, hhash, not_not.mp hcount⟩
  · cases h

theorem validateEntry_ok (h : validateEntry source ids paths entry = .ok path) :
    entry.id ∉ ids ∧ (∀ seen ∈ paths, seen.1 ≠ path) ∧
      (∀ ancestor ∈ path.ancestors, ∀ seen ∈ paths, seen.1 = ancestor → seen.2 = .directory) ∧
      Accepted source entry path := by
  unfold validateEntry at h
  split at h
  · cases h
  rename_i hid
  split at h
  · cases h
  rename_i decoded hdecode
  split at h
  · cases h
  rename_i hrel
  split at h
  · cases h
  rename_i hnew
  split at h
  · cases h
  rename_i hancestors
  obtain ⟨hpath, hsized⟩ : decoded = path ∧ (entry.isRegular = true → validateRegular source entry = .ok ()) := by
    split at h
    · cases hv : validateRegular source entry with
      | error =>
        rw [hv] at h
        cases h
      | ok =>
        rw [hv] at h
        cases h
        exact ⟨rfl, fun _ => rfl⟩
    · rename_i hreg
      cases h
      exact ⟨rfl, fun hr => absurd hr hreg⟩
  subst hpath
  obtain ⟨habs, hnormal⟩ := validateRelativePath_ok hrel
  refine ⟨by simpa using hid, ?_, ?_, ⟨hdecode, habs, hnormal, ?_⟩⟩
  · intro seen hm he
    exact hnew (any_eq_true.mpr ⟨seen, hm, by simp [he]⟩)
  · intro ancestor ha seen hm he
    by_contra hne
    refine hancestors (any_eq_true.mpr ⟨ancestor, ha, any_eq_true.mpr ⟨seen, mem_cons_of_mem _ hm, ?_⟩⟩)
    simp [he, hne]
  · rintro hr rfl
    exact validateRegular_filesystem (hsized hr)

theorem validateEntries_cons {rest : List ManifestEntry} (h : validateEntries source ids paths (entry :: rest) = .ok ()) :
    ∃ path, validateEntry source ids paths entry = .ok path ∧
      validateEntries source (entry.id :: ids) ((path, entry.kind) :: paths) rest = .ok () := by
  rw [validateEntries] at h
  split at h
  · cases h
  · exact ⟨_, by assumption, h⟩

section

variable (h : validateEntries source ids paths entries = .ok ())
include h

theorem validateEntries_accepted : ∀ entry ∈ entries, ∃ path, Accepted source entry path := by
  induction entries generalizing ids paths with
  | nil => simp
  | cons _ _ ih =>
    obtain ⟨path, he, hrest⟩ := validateEntries_cons h
    intro entry hm
    rcases mem_cons.mp hm with rfl | hm
    · exact ⟨path, (validateEntry_ok he).2.2.2⟩
    · exact ih hrest entry hm

theorem validateEntries_new : ∀ entry ∈ entries, entry.id ∉ ids ∧
      ∀ seen ∈ paths, ∀ path, decodeRelativePath entry.relPath = .ok path → seen.1 ≠ path := by
  induction entries generalizing ids paths with
  | nil => simp
  | cons _ _ ih =>
    obtain ⟨path, he, hrest⟩ := validateEntries_cons h
    obtain ⟨hid, hnew, -, hacc⟩ := validateEntry_ok he
    intro entry hm
    rcases mem_cons.mp hm with rfl | hm
    · refine ⟨hid, fun seen hs p hp => ?_⟩
      cases hacc.decoded.symm.trans hp
      exact hnew seen hs
    · obtain ⟨hi, hp⟩ := ih hrest entry hm
      exact ⟨fun hid => hi (mem_cons_of_mem _ hid), fun seen hs => hp seen (mem_cons_of_mem _ hs)⟩

def Distinct (a b : ManifestEntry) : Prop :=
  a.id ≠ b.id ∧ decodeRelativePath a.relPath ≠ decodeRelativePath b.relPath

instance : Std.Symm Distinct := ⟨fun _ _ h => ⟨h.1.symm, h.2.symm⟩⟩

theorem validateEntries_distinct : entries.Pairwise Distinct := by
  induction entries generalizing ids paths with
  | nil => exact List.Pairwise.nil
  | cons e _ ih =>
    obtain ⟨path, he, hrest⟩ := validateEntries_cons h
    refine List.Pairwise.cons (fun b hb => ?_) (ih hrest)
    obtain ⟨hi, hp⟩ := validateEntries_new hrest b hb
    refine ⟨fun hid => hi (hid ▸ mem_cons_self), fun hd => ?_⟩
    have hdecoded := (validateEntry_ok he).2.2.2.decoded
    exact hp (path, e.kind) mem_cons_self path (hd ▸ hdecoded) rfl

end

theorem valid_entries (h : validateManifest source entries = .ok ()) :
    validateEntries source [] [] entries = .ok () := by
  unfold validateManifest at h
  split at h
  · cases h
  split at h
  · cases h
  · exact h

theorem entry_unique (h : validateManifest source entries = .ok ()) {a b : ManifestEntry}
    (ha : a ∈ entries) (hb : b ∈ entries)
    (he : a.id = b.id ∨ decodeRelativePath a.relPath = decodeRelativePath b.relPath) : a = b := by
  by_contra hne
  have hp := (validateEntries_distinct (valid_entries h)).forall ha hb hne
  rcases he with he | he
  · exact hp.1 he
  · exact hp.2 he

section Job

variable {services : Services} {job : Job}

theorem accepted_entry (h : validateManifest job.begin.rootSource job.entries = .ok ()) (hm : entry ∈ job.entries) :
    ∃ path, Accepted .filesystem entry path := by
  have hacc := validateEntries_accepted (valid_entries h) entry hm
  rwa [job.filesystem] at hacc

theorem stagePath_eq {root : PathBuf} (h : Accepted source entry path) :
    stagePath root entry.relPath = .ok (below root path.components) := by
  unfold stagePath
  split
  · rename_i he
    have hd := h.decoded
    unfold decodeRelativePath at hd
    rw [if_pos (by simpa using he)] at hd
    cases hd
    simp only [below, List.append_nil]
  · rw [h.decoded]
    have hc : .curDir ∉ path.components := fun hm => by cases h.normal _ hm
    exact congrArg Except.ok (join_eq_below root h.relative hc)

theorem staged_eq (name : Bytes) (h : Accepted source entry path) :
    job.staged services name entry = some (below (job.stageRoot services name) path.components) := by
  rw [Job.staged, stagePath_eq h]
  rfl

theorem final_eq (name : Bytes) (h : Accepted source entry path) :
    job.final name entry = some (below (job.finalPath name) path.components) := by
  rw [Job.final, stagePath_eq h]
  rfl

end Job

end Bore.TransferValid
