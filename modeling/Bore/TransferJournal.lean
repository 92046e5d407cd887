import Bore.TransferResume

namespace Bore.TransferJournal

open OsPath TransferManifest TransferResume List

variable {good : Record → Prop} {journal : Bytes} {record : Record} {state : ResumeState} {entryId : UInt32}
  {files : List FileResumeState} {pos i : Nat} {file : FileResumeState}

theorem ofLeBytes_leBytes (n : UInt32) :
    ofLeBytes (UInt8.ofNat n.toNat) (UInt8.ofNat (n.toNat / 256)) (UInt8.ofNat (n.toNat / 65536))
      (UInt8.ofNat (n.toNat / 16777216)) = n := by
  have hn := n.toNat_lt
  apply UInt32.toNat_inj.mp
  simp only [ofLeBytes, UInt32.toNat_ofNat', UInt8.toNat_ofNat']
  omega

theorem readRecords_record (record : Record) (rest : Bytes) :
    readRecords (recordBytes record ++ rest) = record :: readRecords rest := by
  simp only [recordBytes, leBytes, cons_append, nil_append, readRecords, ofLeBytes_leBytes]

theorem readRecords_short {tail : Bytes} (h : tail.length < 8) : readRecords tail = [] := by
  match tail with
  | [] | [_] | [_, _] | [_, _, _] | [_, _, _, _] | [_, _, _, _, _] | [_, _, _, _, _, _] | [_, _, _, _, _, _, _] => rfl
  | _ :: _ :: _ :: _ :: _ :: _ :: _ :: _ :: _ =>
    simp only [length_cons] at h
    omega

theorem readRecords_batch (records : List Record) {tail : Bytes} (h : tail.length < 8) :
    readRecords (records.flatMap recordBytes ++ tail) = records := by
  induction records with
  | nil => exact readRecords_short h
  | cons _ _ ih => rw [flatMap_cons, append_assoc, readRecords_record, ih]

theorem length_recordBytes (record : Record) : (recordBytes record).length = 8 := rfl

theorem length_batch (records : List Record) : (records.flatMap recordBytes).length = 8 * records.length := by
  induction records with
  | nil => rfl
  | cons _ _ ih =>
    rw [flatMap_cons, length_append, length_recordBytes, ih, length_cons]
    omega

theorem take_batch (records : List Record) (k : Nat) : ∃ tail : Bytes, tail.length < 8 ∧
      (records.flatMap recordBytes).take k = (records.take (k / 8)).flatMap recordBytes ++ tail := by
  induction records generalizing k with
  | nil => exact ⟨[], by simp⟩
  | cons record _ ih =>
    rw [flatMap_cons, take_append, length_recordBytes]
    by_cases hk : k < 8
    · refine ⟨(recordBytes record).take k, ?_, ?_⟩
      · rw [length_take, length_recordBytes]
        omega
      · have h0 : k - 8 = 0 := by omega
        have h1 : k / 8 = 0 := by omega
        simp [h0, h1]
    obtain ⟨tail, ht, he⟩ := ih (k - 8)
    have h1 : k / 8 = (k - 8) / 8 + 1 := by omega
    refine ⟨tail, ht, ?_⟩
    rw [he, h1, take_succ_cons, flatMap_cons, append_assoc,
      take_of_length_le (by rw [length_recordBytes]; omega)]

def Holds (good : Record → Prop) (journal : Bytes) : Prop :=
  ∃ (records : List Record) (tail : Bytes), journal = records.flatMap recordBytes ++ tail ∧ tail.length < 8 ∧
    ∀ record ∈ records, good record

theorem Holds.nil (good : Record → Prop) : Holds good [] := ⟨[], [], rfl, by decide, by simp⟩

theorem Holds.mono {good' : Record → Prop} (h : Holds good journal)
    (hle : ∀ record, good record → good' record) : Holds good' journal := by
  obtain ⟨records, tail, he, ht, hr⟩ := h
  exact ⟨records, tail, he, ht, fun record hm => hle record (hr record hm)⟩

theorem Holds.mem (h : Holds good journal) (hm : record ∈ readRecords journal) : good record := by
  obtain ⟨records, tail, rfl, ht, hr⟩ := h
  rw [readRecords_batch records ht] at hm
  exact hr record hm

theorem Holds.append (h : Holds good journal) (ha : journal.length % 8 = 0)
    {records : List Record} {k : Nat} (hr : ∀ record ∈ records.take (k / 8), good record) :
    Holds good (journal ++ (records.flatMap recordBytes).take k) := by
  obtain ⟨old, tail, rfl, ht, ho⟩ := h
  have ht0 : tail = [] := by
    rw [length_append, length_batch] at ha
    exact length_eq_zero_iff.mp (by omega)
  obtain ⟨tail', ht', he⟩ := take_batch records k
  refine ⟨old ++ records.take (k / 8), tail', ?_, ht', ?_⟩
  · rw [ht0, he, append_nil, flatMap_append, append_assoc]
  · intro record hm
    rcases mem_append.mp hm with hm | hm
    · exact ho record hm
    · exact hr record hm

def Marked (state : ResumeState) (entryId : UInt32) (i : Nat) : Prop :=
  ∃ file ∈ state.files, file.entryId = entryId ∧ file.completed[i]? = some true

def MarksIn (good : Record → Prop) (state : ResumeState) : Prop :=
  ∀ entryId i, Marked state entryId i → ∃ chunk : UInt32, chunk.toNat = i ∧ good (entryId, chunk)

theorem MarksIn.mono {good' : Record → Prop} (h : MarksIn good state)
    (hle : ∀ record, good record → good' record) : MarksIn good' state := by
  intro entryId i hm
  obtain ⟨chunk, hc, hg⟩ := h entryId i hm
  exact ⟨chunk, hc, hle _ hg⟩

theorem fileIndex_some
    (h : fileIndex entryId files = some pos) : ∃ file, files[pos]? = some file ∧ file.entryId = entryId := by
  induction files generalizing pos with
  | nil => cases h
  | cons file files ih =>
    cases hi : fileIndex entryId files with
    | some =>
      rw [fileIndex, hi] at h
      cases h
      simpa using ih hi
    | none =>
      simp only [fileIndex, hi] at h
      split at h
      all_goals cases h
      exact ⟨file, rfl, by assumption⟩

theorem fileIndex_congr (entryId : UInt32) {files' : List FileResumeState}
    (h : files.map FileResumeState.entryId = files'.map FileResumeState.entryId) :
    fileIndex entryId files = fileIndex entryId files' := by
  induction files generalizing files' with
  | nil =>
    cases files' with
    | nil => rfl
    | cons => cases h
  | cons _ _ ih =>
    cases files' with
    | nil => cases h
    | cons =>
      obtain ⟨hf, hfs⟩ := cons.inj h
      rw [fileIndex, fileIndex, ih hfs, hf]

theorem marked_set (hf : state.files[pos]? = some file) {j : Nat}
    (h : Marked { state with files := state.files.set pos (setChunk i file) } entryId j) :
    Marked state entryId j ∨ file.entryId = entryId ∧ j = i := by
  obtain ⟨file', hm, he, hc⟩ := h
  rcases mem_or_eq_of_mem_set hm with hm | rfl
  · exact .inl ⟨file', hm, he, hc⟩
  by_cases hj : i = j
  · exact .inr ⟨he, hj.symm⟩
  · refine .inl ⟨file, mem_of_getElem? hf, he, ?_⟩
    rwa [setChunk, getElem?_set_ne hj] at hc

def slot (state : ResumeState) (record : Record) : Option Bool :=
  (fileIndex record.1 state.files).bind (fun pos => state.files[pos]?.bind (fun file => file.completed[record.2.toNat]?))

theorem applyRecord_cases (acc : ResumeState × Nat) (record : Record) :
    slot acc.1 record ≠ some false ∧ applyRecord acc record = acc ∨
    slot acc.1 record = some false ∧ ∃ pos file, fileIndex record.1 acc.1.files = some pos ∧
      acc.1.files[pos]? = some file ∧ applyRecord acc record =
        ({ acc.1 with files := acc.1.files.set pos (setChunk record.2.toNat file) }, acc.2 + 1) := by
  unfold applyRecord slot
  split
  · next hpos => exact .inl ⟨by simp [hpos], rfl⟩
  rename_i pos hpos
  obtain ⟨file, hf, -⟩ := fileIndex_some hpos
  simp only [hpos, hf, Option.bind_some]
  split
  · next hc => exact .inr ⟨hc, pos, file, rfl, hf, rfl⟩
  · next hc => exact .inl ⟨hc, rfl⟩

theorem marked_applyRecord {acc : ResumeState × Nat} (h : Marked (applyRecord acc record).1 entryId i) :
    Marked acc.1 entryId i ∨ (record.1 = entryId ∧ record.2.toNat = i) := by
  rcases applyRecord_cases acc record with ⟨-, he⟩ | ⟨-, pos, file, hpos, hf, he⟩
  · exact .inl (he ▸ h)
  rw [he] at h
  obtain ⟨file', hf', hid⟩ := fileIndex_some hpos
  cases hf.symm.trans hf'
  rcases marked_set hf h with h | ⟨hid', hi⟩
  · exact .inl h
  · exact .inr ⟨hid.symm.trans hid', hi.symm⟩

theorem marked_foldl (records : List Record) {acc : ResumeState × Nat}
    (h : Marked (records.foldl applyRecord acc).1 entryId i) :
    Marked acc.1 entryId i ∨ ∃ record ∈ records, record.1 = entryId ∧ record.2.toNat = i := by
  induction records generalizing acc with
  | nil => exact .inl h
  | cons record records ih =>
    rcases ih h with h | ⟨r, hm, hr⟩
    · refine (marked_applyRecord h).imp_right fun hr => ?_
      exact ⟨record, mem_cons_self, hr⟩
    · exact .inr ⟨r, mem_cons_of_mem _ hm, hr⟩

theorem marksIn_applyResumeJournal {journal : Option Bytes}
    (hs : MarksIn good state) (hj : ∀ bytes, journal = some bytes → Holds good bytes) :
    MarksIn good (applyResumeJournal state journal).1 := by
  cases journal with
  | none => exact hs
  | some bytes =>
    intro entryId i hm
    rcases marked_foldl _ hm with hm | ⟨record, hr, rfl, rfl⟩
    · exact hs entryId i hm
    · exact ⟨record.2, rfl, (hj bytes rfl).mem hr⟩

theorem map_entryId_set (hf : files[pos]? = some file) :
    (files.set pos (setChunk i file)).map FileResumeState.entryId = files.map FileResumeState.entryId := by
  rw [map_set]
  apply ext_getElem?
  intro j
  by_cases hj : pos = j
  · subst hj
    obtain ⟨hlt, he⟩ := List.getElem?_eq_some_iff.mp hf
    simp [hlt, he, setChunk]
  · rw [getElem?_set_ne hj]

theorem slot_set (record other : Record) (hpos : fileIndex record.1 state.files = some pos)
    (hf : state.files[pos]? = some file) :
    slot { state with files := state.files.set pos (setChunk record.2.toNat file) } other =
      (slot state other).map (· || decide (other = record)) := by
  simp only [slot]
  rw [fileIndex_congr other.1 (map_entryId_set hf)]
  cases ho : fileIndex other.1 state.files with
  | none => rfl
  | some pos' =>
    simp only [Option.bind_some]
    obtain ⟨hlt, -⟩ := List.getElem?_eq_some_iff.mp hf
    by_cases hp : pos = pos'
    · subst hp
      have he : other.1 = record.1 := by
        obtain ⟨_, hf₁, hid₁⟩ := fileIndex_some ho
        obtain ⟨_, hf₂, hid₂⟩ := fileIndex_some hpos
        rw [← hid₁, ← hid₂, Option.some.inj (hf₁.symm.trans hf₂)]
      simp only [getElem?_set_self hlt, hf, Option.bind_some, setChunk, getElem?_set, Prod.ext_iff, he, true_and,
        ← UInt32.toNat_inj]
      grind
    · have hne : other ≠ record := by
        rintro rfl
        exact hp (Option.some.inj (hpos.symm.trans ho))
      simp [getElem?_set_ne hp, hne]

theorem slot_applyRecord (acc : ResumeState × Nat) (record other : Record) :
    slot (applyRecord acc record).1 other = (slot acc.1 other).map (· || decide (other = record)) := by
  rcases applyRecord_cases acc record with ⟨hs, he⟩ | ⟨-, pos, file, hpos, hf, he⟩
  · rw [he]
    by_cases ho : other = record
    · subst ho
      rcases h : slot acc.1 other with _ | _ | _ <;> simp_all
    · simp [ho]
  · rw [he, slot_set record other hpos hf]

theorem slot_foldl (records : List Record) (acc : ResumeState × Nat) (record : Record) :
    slot (records.foldl applyRecord acc).1 record = (slot acc.1 record).map (· || decide (record ∈ records)) := by
  induction records generalizing acc with
  | nil => simp
  | cons r records ih =>
    rw [foldl_cons, ih, slot_applyRecord, Option.map_map]
    congr 1
    funext b
    simp [Bool.or_assoc]

theorem foldl_of_slots (records : List Record) (h : ∀ record ∈ records, slot state record ≠ some false)
    (n : Nat) : records.foldl applyRecord (state, n) = (state, n) := by
  induction records with
  | nil => rfl
  | cons record _ ih =>
    have hone : applyRecord (state, n) record = (state, n) := by
      rcases applyRecord_cases (state, n) record with ⟨-, he⟩ | ⟨hs, -⟩
      · exact he
      · exact absurd hs (h record mem_cons_self)
    rw [foldl_cons, hone]
    exact ih (fun r hm => h r (mem_cons_of_mem _ hm))

theorem applyResumeJournal_again (state : ResumeState) (journal : Option Bytes) :
    applyResumeJournal (applyResumeJournal state journal).1 journal = ((applyResumeJournal state journal).1, 0) := by
  cases journal with
  | none => rfl
  | some =>
    refine foldl_of_slots _ (fun record hm => ?_) 0
    rw [applyResumeJournal, slot_foldl]
    simp [hm]

end Bore.TransferJournal
