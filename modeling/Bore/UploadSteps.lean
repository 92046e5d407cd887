import Bore.Upload

namespace Bore.Upload

open Frames

def Point.imported : Point → Bool
  | .attemptKey => false
  | .importKey => false
  | _ => true

def Run.acts (run : Run) : Bool := !run.aborted && run.point ≠ .ended

structure Turn.Fits (run : Run) (record : Record) (id : RunId) (turn : Turn) : Prop where
  address : turn.run.address = run.address
  key : turn.run.key = run.key
  aborted : turn.run.aborted = run.aborted
  transferId : turn.record.transferId = record.transferId
  attemptId : turn.record.attemptId = record.attemptId
  gone : turn.record.aborted = record.aborted
  attemptAbort : turn.record.attemptAbort = record.attemptAbort
  state : turn.record.state = record.state ∨ turn.run.point = .ended ∧ run.aborted = false
  aesKey : turn.record.aesKey = record.aesKey ∨
    (run.point = .importKey ∧ turn.record.aesKey = some run.key) ∨
    (turn.record.aesKey = none ∧ turn.run.point = .ended ∧ run.aborted = false)
  seals : ∀ f, turn.sealed = some f → f.run = id ∧
    (run.point = .fileRoot (some f.key) ∨
      run.aborted = false ∧ run.point.imported = true ∧ record.aesKey = some f.key)
  captures : ∀ aesKey, turn.run.point = .fileRoot aesKey →
    run.aborted = false ∧ run.point = .writeArchive ∧ aesKey = record.aesKey
  imported : turn.run.point.imported = true → turn.run.point = .ended ∨ run.point.imported = true ∨
    turn.record.aesKey = some run.key
  importing : turn.run.point = .importKey → run.aborted = false
  stale : run.aborted = true → run.point ≠ .importKey → turn.record = record
  forgets : turn.forgets = true → run.aborted = true → record.aborted = true

structure Amid (run₀ : Run) (record₀ : Record) (run : Run) (record : Record) : Prop where
  address : run.address = run₀.address
  key : run.key = run₀.key
  aborted : run.aborted = run₀.aborted
  transferId : record.transferId = record₀.transferId
  attemptId : record.attemptId = record₀.attemptId
  gone : record.aborted = record₀.aborted
  attemptAbort : record.attemptAbort = record₀.attemptAbort
  state : record.state = record₀.state
  aesKey : record.aesKey = record₀.aesKey ∨ run₀.point = .importKey ∧ record.aesKey = some run₀.key
  stale : run₀.aborted = true → run₀.point ≠ .importKey → record = record₀

namespace Amid

variable {hash : Hash} {run₀ run : Run} {record₀ record : Record} {id : RunId}

theorem refl (run₀ : Run) (record₀ : Record) : Amid run₀ record₀ run₀ record₀ :=
  ⟨rfl, rfl, rfl, rfl, rfl, rfl, rfl, rfl, .inl rfl, fun _ _ => rfl⟩

section

variable (h : Amid run₀ record₀ run record)
include h

theorem waits {point : Point} (hi : point.imported = true)
    (hf : ∀ aesKey, point ≠ .fileRoot aesKey)
    (hk : point = .ended ∨ run₀.point.imported = true ∨ record.aesKey = some run₀.key) :
    (run.waits record point).Fits run₀ record₀ id := by
  refine { h with
    state := .inl h.state, aesKey := ?_, seals := nofun, captures := fun aesKey hk => absurd hk (hf aesKey)
    imported := fun _ => hk, importing := fun hp => ?_, forgets := nofun }
  · rcases h.aesKey with hk | hk
    · exact .inl hk
    · exact .inr (.inl hk)
  · change point = .importKey at hp
    rw [hp] at hi
    cases hi

theorem returns : (run.returns record).Fits run₀ record₀ id :=
  h.waits rfl (fun _ => nofun) (.inl rfl)

theorem throws (abortError : Bool) : (run.throws record abortError).Fits run₀ record₀ id := by
  have hr : (run.returns record).Fits run₀ record₀ id := h.returns
  refine { hr with forgets := ?_ }
  intro hf ha
  rw [← h.gone]
  simpa [Run.throws, h.aborted, ha] using hf

section

variable (ha : run₀.aborted = false) (hi : run₀.point.imported = true)
include ha hi

theorem seals {ftype : FrameType} {plaintext : Bytes} {point : Point} (hp : point.imported = true)
    (hf : ∀ aesKey, point ≠ .fileRoot aesKey) : (run.seals record id record.aesKey ftype plaintext point).Fits run₀ record₀ id := by
  have hkey : record.aesKey = record₀.aesKey := by
    rcases h.aesKey with hk | hk
    · exact hk
    · rw [hk.1] at hi
      cases hi
  unfold Run.seals
  split
  · exact h.throws false
  rename_i key hkey'
  have hw : (run.waits record point).Fits run₀ record₀ id := h.waits hp hf (.inr (.inl hi))
  refine { hw with seals := ?_ }
  intro f hf
  cases hf
  exact ⟨rfl, .inr ⟨ha, hi, hkey.symm.trans hkey'⟩⟩

theorem nextChunk (index : Nat) : (run.nextChunk record id index).Fits run₀ record₀ id := by
  unfold Run.nextChunk
  split
  · exact h.waits rfl (fun _ => nofun) (.inr (.inl hi))
  · exact h.seals ha hi rfl (fun _ => nofun)

theorem nextFragment (next : Option Nat) (rest : List Bytes) :
    (run.nextFragment record id next rest).Fits run₀ record₀ id := by
  cases rest with
  | cons => exact h.seals ha hi rfl (fun _ => nofun)
  | nil =>
    cases next with
    | some index => exact h.nextChunk ha hi index
    | none => exact h.waits rfl (fun _ => nofun) (.inr (.inl hi))

theorem sendChunk (next : Option Nat) (chunk : Bytes) :
    (run.sendChunk record id next chunk).Fits run₀ record₀ id := by
  unfold Run.sendChunk
  split
  · exact h.throws false
  split
  · exact h.nextFragment ha hi next _
  · exact h.throws false

end

end

end Amid

namespace Run

variable {hash : Hash} {run : Run} {record : Record} {id : RunId}

theorem imported_fits (hp : run.point = .importKey) : (run.imported record id).Fits run record id := by
  have hamid : ∀ base sent, Amid run record run
      { record with aesKey := some run.key, baseBytes := base, attemptBytes := 0, sentBytes := sent } :=
    fun _ _ => ⟨rfl, rfl, rfl, rfl, rfl, rfl, rfl, rfl, .inr ⟨hp, rfl⟩, fun _ hne => absurd hp hne⟩
  unfold imported
  dsimp only
  split
  · exact (hamid 0 0).waits rfl (fun _ => nofun) (.inr (.inr rfl))
  rename_i hraw
  rw [Bool.not_eq_true] at hraw
  split
  · refine Amid.throws ?_ false
    exact ⟨rfl, rfl, rfl, rfl, rfl, rfl, rfl, rfl, .inr ⟨hp, rfl⟩, fun _ hne => absurd hp hne⟩
  have hpos : 0 < record.chunkCount := by
    rw [Record.chunkCount, hraw]
    exact List.length_pos_of_ne_nil (record.selection.chunked hraw)
  unfold nextChunk
  rw [if_pos (by exact hpos)]
  exact (hamid _ _).waits rfl (fun _ => nofun) (.inr (.inr rfl))

theorem finishes_fits (ha : run.aborted = false) (final : Bool) :
    (run.finishes { record with finalSent := final }).Fits run record id := by
  have hr : (run.returns record).Fits run record id := (Amid.refl run record).returns
  refine ⟨rfl, rfl, rfl, rfl, rfl, rfl, rfl, .inr ⟨rfl, ha⟩, .inr (.inr ⟨rfl, rfl, ha⟩), hr.seals,
    hr.captures, fun _ => .inl rfl, hr.importing, fun hab => ?_, hr.forgets⟩
  rw [ha] at hab
  cases hab

section

variable (hi : run.point.imported = true)
include hi

theorem hashed_fits (index : Nat) (bytes : Bytes) :
    (run.hashed hash record id index bytes).Fits run record id := by
  have h := Amid.refl run record
  unfold hashed
  split
  · exact h.returns
  rename_i ha
  rw [Bool.not_eq_true] at ha
  split
  · exact h.throws false
  split
  · exact h.nextChunk ha hi _
  · exact h.sendChunk ha hi _ _

theorem packHashed_fits (chunk : Bytes) :
    (run.packHashed hash record id chunk).Fits run record id := by
  have hamid : Amid run record
      { run with leaves := run.leaves ++ [hash.sha256 chunk], packed := run.packed + chunk.length } record :=
    ⟨rfl, rfl, rfl, rfl, rfl, rfl, rfl, rfl, .inl rfl, fun _ _ => rfl⟩
  unfold packHashed
  dsimp only
  split
  · exact hamid.throws true
  rename_i ha
  rw [Bool.not_eq_true] at ha
  split
  · refine Amid.waits ?_ rfl (fun _ => nofun) (.inr (.inl hi))
    exact ⟨rfl, rfl, rfl, rfl, rfl, rfl, rfl, rfl, .inl rfl, fun hab => by rw [ha] at hab; cases hab⟩
  · exact hamid.sendChunk ha hi _ _

theorem sealedData_fits (next : Option Nat) (length : Nat) (rest : List Bytes) :
    (run.sealedData record id next length rest).Fits run record id := by
  have h := Amid.refl run record
  unfold sealedData
  split
  · split
    · exact h.returns
    · exact h.throws true
  rename_i ha
  rw [Bool.not_eq_true] at ha
  split
  · exact h.throws false
  · refine Amid.nextFragment ?_ ha hi next rest
    exact ⟨rfl, rfl, rfl, rfl, rfl, rfl, rfl, rfl, .inl rfl,
      fun hab => by rw [ha] at hab; cases hab⟩

theorem sealedFinal_fits (drained : Bool) : (run.sealedFinal record drained).Fits run record id := by
  have h := Amid.refl run record
  unfold sealedFinal
  split
  · exact h.returns
  rename_i ha
  rw [Bool.not_eq_true] at ha
  split
  · exact h.throws false
  split
  · exact finishes_fits ha true
  · refine Amid.waits ?_ rfl (fun _ => nofun) (.inr (.inl hi))
    exact ⟨rfl, rfl, rfl, rfl, rfl, rfl, rfl, rfl, .inl rfl, fun hab => by rw [ha] at hab; cases hab⟩

end

theorem rooted_fits {aesKey : Option Key} (hp : run.point = .fileRoot aesKey) :
    (run.rooted hash record id aesKey).Fits run record id := by
  have hi : run.point.imported = true := by rw [hp]; rfl
  have h := Amid.refl run record
  unfold rooted
  split
  · exact h.throws false
  unfold seals
  split
  · exact h.throws false
  have hw : (run.waits record .sealFinal).Fits run record id := h.waits rfl (fun _ => nofun) (.inr (.inl hi))
  refine ⟨rfl, rfl, rfl, rfl, rfl, rfl, rfl, .inl rfl, .inl rfl, ?_, hw.captures, hw.imported,
    hw.importing, fun _ _ => rfl, hw.forgets⟩
  intro f hf
  cases hf
  exact ⟨rfl, .inl hp⟩

theorem captures_fits (hp : run.point = .writeArchive) (ha : run.aborted = false) :
    (run.waits record (.fileRoot record.aesKey)).Fits run record id := by
  have hi : run.point.imported = true := by rw [hp]; rfl
  refine ⟨rfl, rfl, rfl, rfl, rfl, rfl, rfl, .inl rfl, .inl rfl, nofun, fun aesKey hk => ?_,
    fun _ => .inr (.inl hi), nofun, fun _ _ => rfl, nofun⟩
  cases hk
  exact ⟨ha, hp, rfl⟩

theorem importing_fits (ha : run.aborted = false) :
    (run.waits record .importKey).Fits run record id := by
  exact ⟨rfl, rfl, rfl, rfl, rfl, rfl, rfl, .inl rfl, .inl rfl, nofun, nofun, nofun, fun _ => ha, fun _ _ => rfl,
    nofun⟩

theorem point_ne_ended {input : Input} {turn : Turn} (h : run.resume hash record id input = some turn) :
    run.point ≠ .ended := by
  intro hp
  cases input <;> simp [resume, hp] at h

theorem resume_fits {input : Input} {turn : Turn} (h : run.resume hash record id input = some turn) :
    turn.Fits run record id := by
  have hamid := Amid.refl run record
  cases input with
  | rejects abortError =>
    simp only [resume] at h
    split at h
    all_goals cases h
    exact hamid.throws abortError
  | bytes =>
    cases hp : run.point <;> simp only [resume, hp, reduceCtorEq, Option.some.injEq] at h
    case arrayBuffer index =>
      subst h
      split
      · exact hamid.returns
      · exact hamid.waits rfl (fun _ => nofun) (.inr (.inl (by rw [hp]; rfl)))
    case writeArchive =>
      subst h
      exact hamid.waits rfl (fun _ => nofun) (.inr (.inl (by rw [hp]; rfl)))
  | drained =>
    cases hp : run.point <;> simp only [resume, hp, reduceCtorEq, Option.some.injEq] at h
    case sealFinal =>
      subst h
      exact sealedFinal_fits (by rw [hp]; rfl) true
    case flush =>
      subst h
      split
      · exact hamid.throws true
      · rename_i ha
        rw [Bool.not_eq_true] at ha
        exact finishes_fits ha record.finalSent
  | resolves =>
    cases hp : run.point <;> simp only [resume, hp, reduceCtorEq, Option.some.injEq] at h
    all_goals subst h
    case attemptKey =>
      split
      · exact hamid.returns
      · rename_i ha
        exact importing_fits (by simpa using ha)
    case importKey => exact imported_fits hp
    case lowWater index =>
      split
      · exact hamid.returns
      · exact hamid.waits rfl (fun _ => nofun) (.inr (.inl (by rw [hp]; rfl)))
    case sha256 index bytes => exact hashed_fits (by rw [hp]; rfl) index bytes
    case writeArchive =>
      split
      · exact hamid.throws true
      · rename_i ha
        exact captures_fits hp (by simpa using ha)
    case packLowWater chunk =>
      split
      · exact hamid.throws true
      · exact hamid.waits rfl (fun _ => nofun) (.inr (.inl (by rw [hp]; rfl)))
    case packSha256 chunk => exact packHashed_fits (by rw [hp]; rfl) chunk
    case sealData next length rest => exact sealedData_fits (by rw [hp]; rfl) next length rest
    case fileRoot aesKey => exact rooted_fits hp
    case sealFinal => exact sealedFinal_fits (by rw [hp]; rfl) false
    case flush =>
      split
      · exact hamid.throws true
      · exact hamid.waits rfl (fun _ => nofun) (.inr (.inl (by rw [hp]; rfl)))

end Run

/-- What a control message does to the record it names: the key, the abort
controller and the identity stay. Unless the attempt is abandoned, a record
that is being sent keeps its attempt and its state. -/
structure Handles (cut : Bool) (record record' : Record) : Prop where
  transferId : record'.transferId = record.transferId
  aesKey : record'.aesKey = record.aesKey
  gone : record'.aborted = record.aborted
  attemptAbort : record'.attemptAbort = record.attemptAbort
  attemptId : cut = true ∨ record'.attemptId = record.attemptId
  state : cut = true ∨ record'.state = record.state ∨ record.state ≠ .sending

namespace Memory

def handled (m : Memory) (cut : Bool) (address : Address) (record record' : Record) : Memory :=
  (if cut then m.abortAttempt record else m).setRecord address record'

def Labelled (m : Memory) : Prop :=
  ∀ transferId address record, m.tracked transferId = some (address, record) → record.transferId = transferId

/-- Everything that a turn of the page can do to its records and runs, if the
requests it may register are `registered`. -/
inductive Evolves (registered : Incoming → Prop) (m : Memory) : Memory → Prop
  | still : Evolves registered m m
  | controls {transferId address record record'} (cut : Bool) (ht : m.tracked transferId = some (address, record))
      (h : Handles cut record record') : Evolves registered m (m.handled cut address record record')
  | begins {transferId address record record'} (cut : Bool) (ht : m.tracked transferId = some (address, record))
      (h : Handles cut record record') (resumeRanges : List Range) :
      Evolves registered m ((m.handled cut address record record').beginSend transferId resumeRanges)
  | starts (i : Incoming) (sent : Bool) (hi : registered i) : Evolves registered m (m.startIncoming i sent)
  | forgets (transferId : TransferId) : Evolves registered m (m.forget transferId)
  | turns {id run record turn} (hr : m.runs[id]? = some run) (hrec : m.records[run.address]? = some record)
      (hp : run.point ≠ .ended) (hf : Turn.Fits run record id turn) : Evolves registered m (m.take id run.address turn)

section Evolves

variable {hash : Hash} {registered : Incoming → Prop} {m : Memory}

theorem relayTicket_evolves (transferId : TransferId) (attemptId : AttemptId) (socket : Nat) :
    Evolves registered m (m.relayTicket transferId attemptId socket) := by
  unfold relayTicket
  split
  · exact .still
  rename_i ht
  split
  · exact .controls true ht ⟨rfl, rfl, rfl, rfl, .inl rfl, .inl rfl⟩
  split
  · rename_i hs
    refine .controls false ht ⟨rfl, rfl, rfl, rfl, .inr rfl, .inr (.inr fun hsend => ?_)⟩
    rw [hsend] at hs
    rcases hs with hs | hs <;> cases hs
  · exact .controls false ht ⟨rfl, rfl, rfl, rfl, .inr rfl, .inr (.inl rfl)⟩

theorem commitCurrent_evolves {transferId : TransferId} {address : Address} {record : Record}
    (ht : m.tracked transferId = some (address, record)) (hid : record.transferId = transferId) (path : Path)
    (resumeRanges : List Range) : Evolves registered m (m.commitCurrent address record path resumeRanges) := by
  unfold commitCurrent
  split
  · exact .still
  rename_i hs
  have hne : record.state ≠ .sending := by
    intro h
    rw [h] at hs
    exact hs nofun
  subst hid
  have hc : Handles false record { record with state := .committed } :=
    ⟨rfl, rfl, rfl, rfl, .inr rfl, .inr (.inr hne)⟩
  cases path with
  | direct | relay =>
    dsimp only
    split
    · exact .controls false ht ⟨rfl, rfl, rfl, rfl, .inr rfl, .inr (.inr hne)⟩
    · exact .begins false ht hc resumeRanges

theorem pathCommit_evolves (hm : m.Labelled) (transferId : TransferId) (path : Path) (attemptId : AttemptId)
    (resumeRanges : List Range) : Evolves registered m (m.pathCommit transferId path attemptId resumeRanges) := by
  unfold pathCommit
  split
  · exact .still
  rename_i record ht
  have hid := hm _ _ _ ht
  split
  · split
    · rename_i size _ _
      have hc : Handles true record { record with
          upgrade := none
          attemptId := attemptId
          sink := some size
          direct := true
          socket := none
          ticket := false
          state := .committed } := ⟨rfl, rfl, rfl, rfl, .inl rfl, .inl rfl⟩
      subst hid
      exact .begins true ht hc resumeRanges
    · split
      · exact .still
      · exact commitCurrent_evolves ht hid path resumeRanges
  · split
    · exact .still
    · exact commitCurrent_evolves ht hid path resumeRanges

theorem attachDirect_evolves (transferId : TransferId) (attemptId : AttemptId) (size : Nat) :
    Evolves registered m (m.attachDirect transferId attemptId size) := by
  unfold attachDirect
  split
  · exact .still
  rename_i record ht
  split
  · exact .still
  split
  · exact .controls false ht ⟨rfl, rfl, rfl, rfl, .inr rfl, .inr (.inl rfl)⟩
  split
  · rename_i hs
    have hne : record.state ≠ .sending := by
      rw [hs]
      exact nofun
    have hc : Handles false record { record with sink := some size, direct := true, state := .committed } :=
      ⟨rfl, rfl, rfl, rfl, .inr rfl, .inr (.inr hne)⟩
    exact .begins false ht hc record.pendingResumeRanges
  · exact .still

theorem detachDirect_evolves (transferId : TransferId) (attemptId : AttemptId) :
    Evolves registered m (m.detachDirect transferId attemptId) := by
  unfold detachDirect
  split
  · exact .still
  rename_i ht
  split
  · exact .still
  split
  · exact .controls false ht ⟨rfl, rfl, rfl, rfl, .inr rfl, .inr (.inl rfl)⟩
  · exact .controls true ht ⟨rfl, rfl, rfl, rfl, .inl rfl, .inl rfl⟩

theorem resume_evolves {m' : Memory} {id : RunId} {input : Input} (h : m.resume hash id input = some m') :
    Evolves registered m m' := by
  unfold resume at h
  split at h
  · cases h
  rename_i hrun
  split at h
  · cases h
  rename_i hrec
  obtain ⟨turn, hturn, rfl⟩ := Option.map_eq_some_iff.mp h
  exact .turns hrun hrec (Run.point_ne_ended hturn) (Run.resume_fits hturn)

end Evolves

end Memory

def Page.registers (page : Page) (a : Action) (i : Incoming) : Prop :=
  ∃ position sent, a = .incomingResolves position sent ∧ page.incomings[position]? = some i

theorem evolves_of_step {hash : Hash} {page page' : Page} {a : Action} (hm : page.toMemory.Labelled)
    (h : step hash page a = some page') : Memory.Evolves (page.registers a) page.toMemory page'.toMemory := by
  cases a with
  | incoming =>
    simp only [step] at h
    split at h
    all_goals cases h
    exact .still
  | incomingResolves position sent =>
    simp only [step] at h
    split at h
    all_goals cases h
    rename_i i hi
    exact .starts i sent ⟨position, sent, rfl, hi⟩
  | relayTicket transferId attemptId =>
    cases h
    exact Memory.relayTicket_evolves transferId attemptId page.nextSocket
  | pathCommit transferId path attemptId ranges =>
    cases h
    exact Memory.pathCommit_evolves hm transferId path attemptId ranges
  | attachDirect transferId attemptId size =>
    cases h
    exact Memory.attachDirect_evolves transferId attemptId size
  | detachDirect transferId attemptId =>
    cases h
    exact Memory.detachDirect_evolves transferId attemptId
  | attachUpgrade =>
    cases h
    unfold Memory.attachUpgrade
    split
    · exact .still
    rename_i ht
    split
    · exact .still
    · exact .controls false ht ⟨rfl, rfl, rfl, rfl, .inr rfl, .inr (.inl rfl)⟩
  | detachUpgrade =>
    cases h
    unfold Memory.detachUpgrade
    split
    · exact .still
    rename_i ht
    split
    · exact .still
    · exact .controls false ht ⟨rfl, rfl, rfl, rfl, .inr rfl, .inr (.inl rfl)⟩
  | relayClosed transferId =>
    cases h
    unfold Memory.relayClosed
    split
    · exact .still
    rename_i ht
    split
    · exact .still
    split
    · exact .forgets transferId
    · exact .controls false ht ⟨rfl, rfl, rfl, rfl, .inr rfl, .inr (.inl rfl)⟩
  | forgets transferId =>
    cases h
    exact .forgets transferId
  | resume =>
    obtain ⟨m, hm', rfl⟩ := Option.map_eq_some_iff.mp h
    exact Memory.resume_evolves hm'

end Bore.Upload
