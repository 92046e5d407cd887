import Bore.DownloadStale

namespace Bore.Download

open Frames

structure Ledger where
  leaves : List Bytes
  archiveChunks : Nat
  archiveBytes : Nat
  verifiedRanges : List Range
  deriving DecidableEq

def Books.ledger (b : Books) : Ledger := ⟨b.leaves, b.archiveChunks, b.archiveBytes, b.verifiedRanges⟩

def Goal.isArchive : Goal → Bool
  | .rawChunk _ => false
  | _ => true

def Point.resting : Point → Bool
  | .writing .. => false
  | .hashing goal _ => goal.isArchive
  | .saving goal => goal.isArchive
  | _ => true

def Point.work : Point → Nat
  | .opening _ batch => 1 + 10 * batch.length
  | .consuming => 0
  | .hashing .. => 5
  | .writing .. => 4
  | .saving _ => 3
  | .rooting .. => 2
  | .recording _ => 1

def pumpWork : Option Pump → Nat
  | none => 0
  | some p => 1 + p.point.work + 10 * p.rest.length

/-- The ledger and the parts are left alone; the attempt may be closed. -/
structure Calm (s s' : System) : Prop where
  attemptId : s'.transfer.attemptId = s.transfer.attemptId
  ledger : s'.transfer.ledger = s.transfer.ledger
  archive : s'.transfer.archive = s.transfer.archive
  closed : s.transfer.attemptClosed = true → s'.transfer.attemptClosed = true
  parts : s'.parts = s.parts

/-- No attempt begins, no frame is queued and no key is installed. -/
structure Quiet (s s' : System) : Prop where
  attemptId : s'.transfer.attemptId = s.transfer.attemptId
  pendingFrames : s.transfer.pendingFrames = [] → s'.transfer.pendingFrames = []
  inbox : s.transfer.inbox = [] → s'.transfer.inbox = []
  reorder : s.transfer.reorder = ∅ → s'.transfer.reorder = ∅
  derivations : ∀ id d, s'.derivations.get? id = some d → s.derivations.get? id = some d
  aesKey : s'.transfer.aesKey = s.transfer.aesKey ∨ s'.transfer.aesKey = none ∧ s'.live = false
  live : s'.live = true → s.live = true

structure Mild (s s' : System) : Prop extends Quiet s s', Calm s s'

section Mild

variable {s u v : System} {p : Pump}

theorem Calm.refl (s : System) : Calm s s := ⟨rfl, rfl, rfl, id, rfl⟩

theorem Calm.trans (h : Calm s u) (k : Calm u v) : Calm s v :=
  ⟨k.attemptId.trans h.attemptId, k.ledger.trans h.ledger, k.archive.trans h.archive, fun hc => k.closed (h.closed hc),
    k.parts.trans h.parts⟩

theorem Quiet.refl (s : System) : Quiet s s := ⟨rfl, id, id, id, fun _ _ hd => hd, .inl rfl, id⟩

theorem Quiet.trans (h : Quiet s u) (k : Quiet u v) : Quiet s v := by
  refine ⟨k.attemptId.trans h.attemptId, fun he => k.pendingFrames (h.pendingFrames he), fun he => k.inbox (h.inbox he),
    fun he => k.reorder (h.reorder he), fun id d hd => h.derivations id d (k.derivations id d hd), ?_,
    fun hl => h.live (k.live hl)⟩
  rcases k.aesKey with hk | hk
  · rcases h.aesKey with hh | ⟨hn, hl⟩
    · exact .inl (hk.trans hh)
    · refine .inr ⟨hk.trans hn, ?_⟩
      by_contra hv
      rw [k.live (Bool.eq_true_of_not_eq_false hv)] at hl
      cases hl
  · exact .inr hk

namespace Mild

theorem refl (s : System) : Mild s s := { Quiet.refl s, Calm.refl s with }

theorem trans (h : Mild s u) (k : Mild u v) : Mild s v :=
  { h.toQuiet.trans k.toQuiet, h.toCalm.trans k.toCalm with }

theorem setBooks {b : Books} (hl : b.ledger = s.transfer.ledger) (ha : b.archive = s.transfer.archive) :
    Mild s (s.setBooks b) := { Mild.refl s with ledger := hl, archive := ha }

theorem forget (s : System) : Mild s s.forget := by
  rw [System.forget]
  split
  · exact { Mild.refl s with aesKey := .inr ⟨rfl, rfl⟩, live := nofun }
  · exact .refl s

theorem returns (s : System) (p : Pump) : Mild s (s.returns p) := by
  rw [System.returns]
  split <;> exact { Mild.refl s with }

theorem throws (s : System) (p : Pump) : Mild s (s.throws p) := by
  rw [System.throws]
  split
  · exact .returns s p
  · exact (Mild.forget s).trans (.returns _ p)

theorem erase (s : System) (id : Nat) : Mild s { s with derivations := s.derivations.erase id } :=
  { Mild.refl s with derivations := fun _ _ hd => Table.get?_of_erase hd }

theorem closeDirect (s : System) (attempt : AttemptId) : Mild s (s.closeDirect attempt) := by
  rw [System.closeDirect]
  split
  · exact .refl s
  · exact { Mild.refl s with
      pendingFrames := fun _ => rfl, inbox := fun _ => rfl, reorder := fun _ => rfl, closed := fun _ => rfl }

theorem relayCheck (s : System) (attempt : Option AttemptId) : Mild s (s.relayCheck attempt) := by
  rw [System.relayCheck]
  split
  · exact .refl s
  · exact .forget s

theorem stage (s : System) (count : Nat) : Mild s (s.stage count) := by
  rw [System.stage]
  split
  · exact .forget s
  split
  · exact .forget s
  · refine Mild.trans ?_ (.forget _)
    exact { Mild.refl s with }

end Mild

theorem running_forget (s : System) : s.forget.running = s.running := by
  rw [System.forget]
  split <;> rfl

theorem running_closeDirect (s : System) (attempt : AttemptId) : (s.closeDirect attempt).running = s.running := by
  rw [System.closeDirect]
  split <;> rfl

theorem running_relayCheck (s : System) (attempt : Option AttemptId) : (s.relayCheck attempt).running = s.running := by
  rw [System.relayCheck]
  split
  · rfl
  · exact running_forget s

theorem running_stage (s : System) (count : Nat) : (s.stage count).running = s.running := by
  rw [System.stage]
  split
  · exact running_forget s
  split
  · exact running_forget s
  · exact running_forget _

end Mild

/-! ### The turns of the pump -/

/-- Where the pump may go on in a turn that began as `p`: it does not open a
batch, it has less to do, the verdict on a FINAL is begun for the attempt of the
state, and for an archive it begins at most the write of the next part. -/
structure Next (s : System) (p : Pump) (point : Point) (rest : List Opened) : Prop where
  work : 1 + point.work + 10 * rest.length < pumpWork (some p)
  opens : ∀ aesKey batch, point ≠ .opening aesKey batch
  checksFinal : point.checksFinal = true → p.point.checksFinal = true ∨ p.attempt = s.transfer.attemptId
  resting : s.transfer.archive = true → p.point.resting = true → point.resting = true ∨
    ∃ goal chunk, goal.isArchive = true ∧ point = .writing goal chunk s.transfer.archiveChunks

structure SameLedger (s : System) (b : Books) : Prop where
  ledger : b.ledger = s.transfer.ledger
  archive : b.archive = s.transfer.archive

/-- A turn of the pump that neither takes a batch nor writes a part ends at the
next await or ends the pump. -/
inductive Turn (s : System) (p : Pump) : System → Prop
  | goes {b completes point rest} (hb : SameLedger s b) (h : Next s p point rest) :
      Turn s p { s.setBooks b with completes := completes, running := some ⟨p.attempt, point, rest⟩ }
  | returns {b} (hb : SameLedger s b) : Turn s p ((s.setBooks b).returns p)
  | throws {b} (hb : SameLedger s b) : Turn s p ((s.setBooks b).throws p)

theorem attempt_of_not_stale {t : Transfer} {attempt : Option AttemptId} (h : ¬ t.stale attempt = true) :
    attempt = t.attemptId := by
  simp only [Transfer.stale, ne_eq, Bool.or_eq_true, decide_eq_true_eq, not_or, Decidable.not_not] at h
  exact h.2.symm

theorem length_openAll {aesKey : Option AttemptId} {batch : List (Message × Nat)} {opened : List Opened}
    (h : System.openAll aesKey batch = some opened) : opened.length = batch.length := by
  induction batch generalizing opened with
  | nil =>
    cases h
    rfl
  | cons _ _ ih =>
    rw [System.openAll, List.mapM_cons] at h
    obtain ⟨first, _, h⟩ := Option.bind_eq_some_iff.mp h
    obtain ⟨rest, hrest, h⟩ := Option.bind_eq_some_iff.mp h
    cases h
    rw [List.length_cons, List.length_cons, ih hrest]

namespace Turn

variable {s s' : System} {p q : Pump} {b : Books}

theorem mild (h : Turn s p s') : Mild s s' := by
  cases h with
  | goes hb => exact { Mild.setBooks hb.ledger hb.archive with }
  | returns hb => exact (Mild.setBooks hb.ledger hb.archive).trans (.returns _ p)
  | throws hb => exact (Mild.setBooks hb.ledger hb.archive).trans (.throws _ p)

theorem running (h : Turn s p s') {q : Pump} (hq : s'.running = some q) :
    q.attempt = p.attempt ∧ Next s p q.point q.rest := by
  cases h with
  | goes _ hn =>
    cases hq
    exact ⟨rfl, hn⟩
  | returns | throws => cases hq

theorem work (h : Turn s p s') : pumpWork s'.running < pumpWork (some p) := by
  cases h with
  | goes _ hn => exact hn.work
  | returns | throws =>
    change 0 < pumpWork (some p)
    simp only [pumpWork]
    omega

theorem frame (h : Turn s p s') : s'.chain = s.chain ∧ s'.derivations = s.derivations ∧
    s'.transfer.expectedSeq = s.transfer.expectedSeq ∧ s'.transfer.pendingFrames = s.transfer.pendingFrames := by
  cases h with
  | goes => exact ⟨rfl, rfl, rfl, rfl⟩
  | returns =>
    rw [System.returns]
    split <;> exact ⟨rfl, rfl, rfl, rfl⟩
  | throws =>
    rw [System.throws, System.forget, System.returns]
    repeat' split
    all_goals exact ⟨rfl, rfl, rfl, rfl⟩

section Functions

variable (hb : SameLedger s b) (hq : q.attempt = p.attempt)

include hb hq

theorem goesOn {point : Point} (h : Next s p point q.rest) : Turn s p ((s.setBooks b).goes q point) := by
  obtain ⟨attempt, _, rest⟩ := q
  cases hq
  exact .goes hb h

theorem consumes (hw : 1 + 10 * q.rest.length < pumpWork (some p)) : Turn s p ((s.setBooks b).goes q .consuming) :=
  goesOn hb hq ⟨hw, nofun, nofun, fun _ _ => .inl rfl⟩

theorem stops : Turn s p ((s.setBooks b).returns q) := by
  obtain ⟨attempt, _, rest⟩ := q
  cases hq
  exact .returns hb

theorem fails : Turn s p ((s.setBooks b).throws q) := by
  obtain ⟨attempt, _, rest⟩ := q
  cases hq
  exact .throws hb

theorem finished (hw : 1 + 10 * q.rest.length < pumpWork (some p)) : Turn s p ((s.setBooks b).finished q) := by
  have hs : SameLedger s { b with state := .completePending } := ⟨hb.ledger, hb.archive⟩
  rw [System.finished]
  split
  · obtain ⟨attempt, _, rest⟩ := q
    cases hq
    exact .goes hs ⟨hw, nofun, nofun, fun _ _ => .inl rfl⟩
  · exact fails hs hq

theorem finishArchive (hw : 1 + 10 * q.rest.length < pumpWork (some p)) (tuple : ArchiveTuple) :
    Turn s p ((s.setBooks b).finishArchive q tuple) := by
  have hs : SameLedger s { b with finalEntry := some tuple } := ⟨hb.ledger, hb.archive⟩
  exact finished hs hq hw

theorem checkTotals (hash : Hash) (hw : 3 + 10 * q.rest.length < pumpWork (some p)) (tuple : ArchiveTuple) :
    Turn s p ((s.setBooks b).checkTotals hash q tuple) := by
  rw [System.checkTotals]
  split
  · exact consumes hb hq (by omega)
  rename_i hstale
  split
  · exact fails hb hq
  split
  · exact fails hb hq
  split
  · exact fails hb hq
  · exact goesOn hb hq ⟨hw, nofun, fun _ => .inr (hq ▸ attempt_of_not_stale hstale), fun _ _ => .inl rfl⟩

theorem checkRoot (hp : p.point.checksFinal = true) (hw : 2 + 10 * q.rest.length < pumpWork (some p))
    (tuple : ArchiveTuple) (root : Bytes) : Turn s p ((s.setBooks b).checkRoot q tuple root) := by
  have hs : SameLedger s { b with expectedTuple := some tuple } := ⟨hb.ledger, hb.archive⟩
  rw [System.checkRoot]
  split
  · exact fails hb hq
  split
  · exact fails hb hq
  split
  · exact goesOn hs hq ⟨hw, nofun, fun _ => .inl hp, fun _ _ => .inl rfl⟩
  · exact finishArchive hs hq (by omega) tuple

section

variable (hash : Hash) (hw : 6 + 10 * q.rest.length < pumpWork (some p))
include hash hw

theorem commitArchiveChunk {goal : Goal}
    (hg : goal.isArchive = true) : Turn s p ((s.setBooks b).commitArchiveChunk hash q goal) := by
  have hs : SameLedger s { b with chunkBuffers := [] } := ⟨hb.ledger, hb.archive⟩
  rw [System.commitArchiveChunk.eq_def]
  dsimp only
  split
  · split
    · exact checkTotals hb hq hash (by omega) _
    · exact consumes hb hq (by omega)
  · exact goesOn hs hq ⟨hw, nofun, nofun, fun _ _ => .inl hg⟩

theorem acceptData (plaintext : Bytes) : Turn s p ((s.setBooks b).acceptData hash q plaintext) := by
  rw [System.acceptData]
  split
  · have hs : SameLedger s { b with
        chunkBuffers := b.chunkBuffers ++ [plaintext]
        receivedBytes := b.receivedBytes + plaintext.length } := ⟨hb.ledger, hb.archive⟩
    rw [System.acceptArchiveData]
    split
    · exact consumes hs hq (by omega)
    split
    · exact fails hs hq
    · exact commitArchiveChunk hs hq hash hw rfl
  rename_i hraw
  have hs : ∀ buffers, SameLedger s { b with
      chunkBuffers := buffers, receivedBytes := b.receivedBytes + plaintext.length } :=
    fun _ => ⟨hb.ledger, hb.archive⟩
  rw [System.acceptRawData]
  dsimp only
  split
  · exact fails hb hq
  split
  · exact consumes (hs _) hq (by omega)
  split
  · exact fails (hs _) hq
  · exact goesOn (hs _) hq ⟨hw, nofun, nofun, fun ha => absurd (hb.archive.trans ha) hraw⟩

theorem acceptFinal (plaintext : Bytes) : Turn s p ((s.setBooks b).acceptFinal hash q plaintext) := by
  rw [System.acceptFinal]
  split
  · split
    · exact fails hb hq
    · exact commitArchiveChunk hb hq hash hw rfl
  split
  · exact fails hb hq
  split
  · exact fails hb hq
  split
  · exact fails hb hq
  · exact finished hb hq (by omega)

end

end Functions

theorem hashed (hash : Hash) {goal : Goal} {chunk : Bytes} (hpt : p.point = .hashing goal chunk) :
    Turn s p (s.hashed hash p goal chunk) := by
  have h : SameLedger s s.transfer.toBooks := ⟨rfl, rfl⟩
  have hwork : pumpWork (some p) = 6 + 10 * p.rest.length := by simp only [pumpWork, hpt, Point.work]
  rw [System.hashed.eq_def]
  dsimp only
  split
  · exact consumes h rfl (by omega)
  split
  · split
    · refine goesOn h rfl ⟨by simp only [Point.work]; omega, nofun, nofun, fun _ hr => ?_⟩
      rw [hpt] at hr
      cases hr
    · exact fails h rfl
  · exact goesOn h rfl ⟨by simp only [Point.work]; omega, nofun, nofun, fun _ hr =>
      .inr ⟨goal, chunk, by rwa [hpt] at hr, rfl⟩⟩

theorem saved (hash : Hash) {goal : Goal} (hpt : p.point = .saving goal) : Turn s p (s.saved hash p goal) := by
  have h : SameLedger s s.transfer.toBooks := ⟨rfl, rfl⟩
  have hwork : pumpWork (some p) = 4 + 10 * p.rest.length := by simp only [pumpWork, hpt, Point.work]
  rw [System.saved.eq_def]
  dsimp only
  split
  · exact consumes h rfl (by omega)
  split
  · have hs : SameLedger s { s.transfer.toBooks with planPos := s.transfer.planPos + 1 } := ⟨rfl, rfl⟩
    exact consumes hs rfl (by omega)
  · exact consumes h rfl (by omega)
  · exact checkTotals h rfl hash (by omega) _

theorem of_advance (hash : Hash) (s : System) (p : Pump) (hwrite : ∀ goal chunk index, p.point ≠ .writing goal chunk index)
    (hne : ¬ (p.point = .consuming ∧ p.rest = [])) : Turn s p (s.advance hash p) := by
  have h : SameLedger s s.transfer.toBooks := ⟨rfl, rfl⟩
  cases hpt : p.point <;> simp only [System.advance, hpt]
  case opening aesKey batch =>
    split
    · exact fails h rfl
    rename_i hopen
    refine .goes h ⟨?_, nofun, nofun, fun _ _ => .inl rfl⟩
    simp only [pumpWork, hpt, Point.work, length_openAll hopen]
    omega
  case consuming =>
    rw [System.consume]
    split
    · rename_i hnil
      exact absurd ⟨hpt, hnil⟩ hne
    rename_i rest hrest
    dsimp only
    have hw : 6 + 10 * rest.length < pumpWork (some p) := by
      simp only [pumpWork, hpt, hrest, Point.work, List.length_cons]
      omega
    split
    · exact stops h (by rfl)
    split
    · exact acceptData h (by rfl) hash hw _
    · exact acceptFinal h (by rfl) hash hw _
  case hashing goal chunk => exact hashed hash hpt
  case writing goal chunk index => exact absurd hpt (hwrite goal chunk index)
  case saving goal => exact saved hash hpt
  case rooting tuple root =>
    refine checkRoot h rfl (by rw [hpt]; rfl) ?_ tuple root
    simp only [pumpWork, hpt, Point.work]
    omega
  case recording tuple =>
    refine finishArchive h rfl ?_ tuple
    simp only [pumpWork, hpt, Point.work]
    omega

end Turn

theorem advance_of_consumed (hash : Hash) (s : System) {p : Pump} (h : p.point = .consuming ∧ p.rest = []) :
    s.advance hash p = s.nextBatch p := by
  rw [System.advance, h.1]
  rw [System.consume, h.2]

/-! ### The actions that only end things -/

/-- The actions that are no turn of the pump, begin no attempt and bring neither
a frame nor a key. -/
def Action.mild : Action → Bool
  | .deriveFails _ | .prepareUpgrade .. | .abandonUpgrade _ | .directFailed _ | .stalled | .relayClosed _ => true
  | .completeAck | .completeError _ | .completed | .stageResolves | .cancelled | .online _ => true
  | _ => false

theorem mild_stageCompleted (s : System) : Mild s s.stageCompleted ∧ s.stageCompleted.running = s.running := by
  rw [System.stageCompleted]
  split
  · exact ⟨{ Mild.refl s with }, rfl⟩
  · exact ⟨.refl s, rfl⟩

theorem mild_of_step {hash : Hash} {s s' : System} {a : Action} (ha : a.mild = true) (hs : step hash s a = some s') :
    Mild s s' ∧ s'.running = s.running := by
  have still : Mild s s ∧ s.running = s.running := ⟨.refl s, rfl⟩
  revert hs
  fun_cases step hash s a
  all_goals rintro ⟨⟩
  case case14 id _ _ => exact ⟨(Mild.erase s id).trans (.forget _), running_forget _⟩
  case case16 =>
    rw [System.prepareUpgrade]
    split
    · exact still
    · exact ⟨{ Mild.refl s with }, rfl⟩
  case case17 =>
    rw [System.abandonUpgrade]
    split
    · exact ⟨{ Mild.refl s with }, rfl⟩
    · exact still
  case case20 attempt =>
    rw [System.directFailed]
    split
    · exact still
    split
    · exact ⟨{ Mild.refl s with }, rfl⟩
    · exact ⟨.closeDirect s attempt, running_closeDirect s attempt⟩
  case case21 =>
    rw [Transfer.failAttempt]
    split
    · exact ⟨{ Mild.refl s with }, rfl⟩
    · exact ⟨{ Mild.refl s with inbox := fun _ => rfl, reorder := fun _ => rfl }, rfl⟩
  case case23 | case31 | case36 => exact ⟨{ Mild.refl s with }, rfl⟩
  case case29 =>
    obtain ⟨hm, hr⟩ := mild_stageCompleted { s with completes := s.completes - 1 }
    exact ⟨{ hm with }, hr⟩
  case case32 => exact mild_stageCompleted s
  case case34 count stagings _ => exact ⟨{ Mild.stage { s with stagings := stagings } count with }, running_stage _ count⟩
  case case35 => exact ⟨.forget s, running_forget s⟩
  all_goals cases ha

end Bore.Download
