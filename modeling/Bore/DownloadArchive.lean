import Bore.DownloadTurns
import Bore.Runs

namespace Bore.Download

open Frames List Books

def partLength (parts : Table Nat Bytes) (index : Nat) : Nat := ((parts.get? index).map length).getD 0

def ledgerRanges (count : Nat) : List Range := if count = 0 then [] else [(0, count)]

structure Ledger.Sound (hash : Hash) (l : Ledger) (parts : Table Nat Bytes) : Prop where
  counted : l.leaves.length = l.archiveChunks
  digests : ∀ i < l.archiveChunks, ∃ part, parts.get? i = some part ∧ l.leaves[i]? = some (hash.sha256 part)
  summed : l.archiveBytes = ((range l.archiveChunks).map (partLength parts)).sum
  ranges : l.verifiedRanges = ledgerRanges l.archiveChunks

section Calm

variable {s u : System}

theorem Calm.nextBatch (s : System) (p : Pump) : Calm s (s.nextBatch p) := by
  rw [System.nextBatch]
  split
  · exact (Mild.returns s p).toCalm
  · exact { Calm.refl s with }

theorem Calm.deliverFrame (h : Calm s u) (data : Message) (stalled : Bool) : Calm s (u.deliverFrame data stalled) := by
  obtain ⟨pendingFrames, inbox, reorder, next, pumping, chain, he⟩ := u.deliverFrame_eq data stalled
  rw [he]
  exact { h with }

theorem Calm.installKey (h : Calm s u) (aesKey : Option AttemptId) (stalled : Bool) :
    Calm s (u.installKey aesKey stalled) := by
  rw [System.installKey]
  split
  · exact foldlRecOn (motive := Calm s) _ _ { h with } fun _ hv data _ => hv.deliverFrame data stalled
  · exact { h with }

theorem running_deliverFrame (s : System) (data : Message) (stalled : Bool) :
    (s.deliverFrame data stalled).running = s.running := by
  obtain ⟨pendingFrames, inbox, reorder, next, pumping, chain, he⟩ := s.deliverFrame_eq data stalled
  rw [he]

theorem running_installKey (s : System) (aesKey : Option AttemptId) (stalled : Bool) :
    (s.installKey aesKey stalled).running = s.running := by
  rw [System.installKey]
  split
  · refine foldlRecOn (motive := fun v => v.running = s.running) _ _ ?_ fun v hv data _ =>
      (running_deliverFrame v data stalled).trans hv
    rfl
  · rfl

end Calm

/-! ### The ledger under writes and re-plans -/

theorem sum_partLength_insert (parts : Table Nat Bytes) {n index : Nat} (chunk : Bytes) (h : n ≤ index) :
    ((range n).map (partLength (parts.insert index chunk))).sum = ((range n).map (partLength parts)).sum := by
  refine congrArg sum (map_congr_left fun i hi => ?_)
  have hne : i ≠ index := by
    have := mem_range.mp hi
    omega
  rw [partLength, partLength, Table.get?_insert_of_ne _ _ hne]

namespace Ledger

variable {hash : Hash} {l l' : Ledger} {parts : Table Nat Bytes}

theorem Sound.insert_past (h : l.Sound hash parts) {index : Nat} (hi : l.archiveChunks ≤ index) (chunk : Bytes) :
    l.Sound hash (parts.insert index chunk) := by
  refine ⟨h.counted, ?_, ?_, h.ranges⟩
  · intro i hlt
    obtain ⟨part, hp, hd⟩ := h.digests i hlt
    exact ⟨part, by rw [Table.get?_insert_of_ne _ _ (by omega), hp], hd⟩
  · rw [sum_partLength_insert parts chunk hi]
    exact h.summed

theorem Sound.append (h : l.Sound hash parts) (chunk : Bytes) :
    Sound hash ⟨l.leaves ++ [hash.sha256 chunk], l.archiveChunks + 1, l.archiveBytes + chunk.length,
      [(0, l.archiveChunks + 1)]⟩ (parts.insert l.archiveChunks chunk) := by
  have past := h.insert_past (Nat.le_refl _) chunk
  refine ⟨?_, ?_, ?_, ?_⟩
  · rw [length_append, h.counted]
    rfl
  · intro i hi
    rcases Nat.lt_succ_iff_lt_or_eq.mp hi with hlt | rfl
    · obtain ⟨part, hp, hd⟩ := past.digests i hlt
      refine ⟨part, hp, ?_⟩
      rw [getElem?_append_left (by rw [h.counted]; exact hlt)]
      exact hd
    · refine ⟨chunk, Table.get?_insert_self _ _ _, ?_⟩
      rw [← h.counted, getElem?_concat_length]
  · have hlast : partLength (parts.insert l.archiveChunks chunk) l.archiveChunks = chunk.length := by
      rw [partLength, Table.get?_insert_self]
      rfl
    rw [range_succ, map_append, sum_append, map_singleton, sum_singleton, hlast,
      ← past.summed]
  · rw [ledgerRanges, if_neg (Nat.succ_ne_zero _)]

end Ledger

def wholeParts (parts : Table Nat Bytes) (count : Nat) : Bool :=
  (range count).all (fun i => (parts.get? i).any (fun part => part.length = chunkBytes))

theorem sum_wholeParts {parts : Table Nat Bytes} {count : Nat} (h : wholeParts parts count = true) :
    ((range count).map (partLength parts)).sum = count * chunkBytes := by
  have hall : ∀ i ∈ range count, partLength parts i = chunkBytes := by
    intro i hi
    have hw := all_eq_true.mp h i hi
    rw [partLength]
    cases hp : parts.get? i with
    | none => simp [hp] at hw
    | some =>
      rw [hp] at hw
      exact of_decide_eq_true hw
  rw [map_congr_left hall, map_const', sum_replicate_nat, length_range]

def Ledger.replanned (l : Ledger) (keep : Nat) : Ledger :=
  ⟨setLength l.leaves keep, keep, keep * chunkBytes, ledgerRanges keep⟩

theorem setLength_of_le {leaves : List Bytes} {keep : Nat} (h : keep ≤ leaves.length) :
    setLength leaves keep = leaves.take keep := by
  rw [setLength, Nat.sub_eq_zero_of_le h, replicate_zero, append_nil]

namespace Ledger

variable {hash : Hash} {l : Ledger} {parts : Table Nat Bytes}

theorem Sound.replanned (h : l.Sound hash parts) {keep : Nat} (hk : keep ≤ l.archiveChunks)
    (hw : ((range keep).map (partLength parts)).sum = keep * chunkBytes) : (l.replanned keep).Sound hash parts := by
  have hl : keep ≤ l.leaves.length := by rw [h.counted]; exact hk
  refine ⟨?_, ?_, hw.symm, rfl⟩
  · change (setLength l.leaves keep).length = keep
    rw [setLength_of_le hl, length_take, Nat.min_eq_left hl]
  · intro i (hi : i < keep)
    obtain ⟨part, hp, hd⟩ := h.digests i (Nat.lt_of_lt_of_le hi hk)
    refine ⟨part, hp, ?_⟩
    change (setLength l.leaves keep)[i]? = _
    rw [setLength_of_le hl, getElem?_take_of_lt hi]
    exact hd

theorem replanned_replanned {k k' : Nat} (h : k' ≤ k) (hk : k ≤ l.leaves.length) :
    (l.replanned k).replanned k' = l.replanned k' := by
  have hlen : k' ≤ (setLength l.leaves k).length := by
    rw [setLength_of_le hk, length_take, Nat.min_eq_left hk]
    exact h
  have htake : setLength (setLength l.leaves k) k' = setLength l.leaves k' := by
    rw [setLength_of_le hlen, setLength_of_le hk, take_take, Nat.min_eq_left h,
      setLength_of_le (Nat.le_trans h hk)]
  exact congrArg (fun leaves => Ledger.mk leaves k' (k' * chunkBytes) (ledgerRanges k')) htake

end Ledger

theorem verifiedPrefix_ledgerRanges (n : Nat) :
    rangesEnd (verifiedPrefix ((ledgerRanges n).filter (fun r => r.1 ≤ r.2))) = n := by
  unfold ledgerRanges
  split
  · rename_i hz
    rw [hz]
    rfl
  · rename_i hz
    simp [verifiedPrefix, coalesceRanges, mergeRanges, rangesEnd, hz]

theorem rangesEnd_ledgerRanges (n : Nat) : rangesEnd (ledgerRanges n) = n := by
  unfold ledgerRanges
  split
  · rename_i hz
    exact hz.symm
  · rfl

/-! ### The invariant of an archive download -/

/-- What the pump is doing fits the ledger: a part that is being written is
not counted, and it is the next one unless the attempt is over. While no attempt
has a name, a name may still make the attempt of the pump current. -/
def Flight (t : Transfer) (p : Pump) : Prop :=
  match p.point with
  | .writing goal _ index =>
    goal.isArchive = true ∧ t.archiveChunks ≤ index ∧
      (t.stale p.attempt = false ∨ t.attemptId = none → t.archiveChunks = index)
  | point => point.resting = true

structure ArchiveSound (hash : Hash) (s : System) : Prop where
  archive : s.transfer.archive = true
  sound : s.transfer.ledger.Sound hash s.parts
  flight : ∀ p, s.running = some p → Flight s.transfer p

variable {t : Transfer}

theorem flight_of_resting {p : Pump} (h : p.point.resting = true) : Flight t p := by
  unfold Flight
  split
  · rename_i hp
    rw [hp] at h
    cases h
  · exact h

theorem Flight.mono {t' : Transfer} {p : Pump} (h : Flight t p) (hn : t'.archiveChunks = t.archiveChunks)
    (hs : t'.stale p.attempt = false ∨ t'.attemptId = none → t.stale p.attempt = false ∨ t.attemptId = none) :
    Flight t' p := by
  unfold Flight at *
  split at h
  · obtain ⟨hg, hle, he⟩ := h
    rw [hn]
    exact ⟨hg, hle, fun hf => he (hs hf)⟩
  · exact h

variable {hash : Hash} {s s' : System}

theorem Calm.current (h : Calm s s') {attempt : Option AttemptId} (hs : s'.transfer.stale attempt = false) :
    s.transfer.stale attempt = false := by
  rw [Transfer.stale, Bool.or_eq_false_iff, h.attemptId] at hs
  rw [Transfer.stale, Bool.or_eq_false_iff]
  refine ⟨Bool.eq_false_iff.mpr fun hc => ?_, hs.2⟩
  rw [h.closed hc] at hs
  cases hs.1

theorem Calm.keeps (h : Calm s s') (hi : ArchiveSound hash s)
    (hf : ∀ p, s'.running = some p → s.running = some p ∨ Flight s'.transfer p) : ArchiveSound hash s' := by
  refine ⟨h.archive.trans hi.archive, ?_, fun p hp => ?_⟩
  · rw [h.ledger, h.parts]
    exact hi.sound
  · rcases hf p hp with hold | hnew
    · exact (hi.flight p hold).mono (congrArg Ledger.archiveChunks h.ledger) (Or.imp h.current h.attemptId.symm.trans)
    · exact hnew

theorem Calm.keeps_still (h : Calm s s') (hr : s'.running = s.running)
    (hi : ArchiveSound hash s) : ArchiveSound hash s' :=
  h.keeps hi fun _ hp => .inl (hr ▸ hp)

section Turns

variable {p : Pump} (hi : ArchiveSound hash s)
include hi

theorem nextBatch_keeps : ArchiveSound hash (s.nextBatch p) := by
  refine (Calm.nextBatch s p).keeps hi fun q hq => .inr (flight_of_resting ?_)
  rw [System.nextBatch] at hq
  split at hq
  · cases hq
  · cases hq
    rfl

theorem turn_keeps (h : Turn s p s') (hpt : p.point.resting = true) : ArchiveSound hash s' := by
  refine h.mild.toCalm.keeps hi fun q hq => .inr ?_
  rcases (h.running hq).2.resting hi.archive hpt with hr | ⟨goal, chunk, hg, hw⟩
  · exact flight_of_resting hr
  · have hl : s'.transfer.archiveChunks = s.transfer.archiveChunks := congrArg Ledger.archiveChunks h.mild.ledger
    rw [Flight, hw]
    exact ⟨hg, Nat.le_of_eq hl, fun _ => hl⟩

variable {goal : Goal}

omit hi in
theorem ledger_noteChunk (b : Books) (hg : goal.isArchive = true) (chunk : Bytes) (index : Nat) :
    (System.noteChunk hash b goal chunk index).ledger =
      ⟨b.leaves ++ [hash.sha256 chunk], index + 1, b.archiveBytes + chunk.length, [(0, index + 1)]⟩ := by
  cases goal with
  | rawChunk => cases hg
  | archiveData => rfl
  | archiveFinal => rfl

theorem written_keeps {chunk : Bytes} {index : Nat}
    (hg : goal.isArchive = true) (hle : s.transfer.archiveChunks ≤ index)
    (he : s.transfer.stale p.attempt = false ∨ s.transfer.attemptId = none → s.transfer.archiveChunks = index) :
    ArchiveSound hash (s.written hash p goal chunk index) := by
  unfold System.written
  dsimp only
  split
  · refine ⟨hi.archive, hi.sound.insert_past hle chunk, ?_⟩
    intro q hq
    cases hq
    exact rfl
  rename_i hs
  obtain rfl := he (.inl (Bool.not_eq_true _ ▸ hs))
  refine ⟨?_, ?_, ?_⟩
  · cases goal <;> exact hi.archive
  · change (System.noteChunk hash s.transfer.toBooks goal chunk s.transfer.archiveChunks).ledger.Sound hash _
    rw [ledger_noteChunk _ hg]
    exact hi.sound.append chunk
  · intro q hq
    cases hq
    exact hg

theorem advance_keeps (hp : s.running = some p) :
    ArchiveSound hash (s.advance hash p) := by
  have hf := hi.flight p hp
  by_cases hwrite : ∃ goal chunk index, p.point = .writing goal chunk index
  · obtain ⟨goal, chunk, index, hpt⟩ := hwrite
    rw [Flight, hpt] at hf
    rw [System.advance, hpt]
    exact written_keeps hi hf.1 hf.2.1 hf.2.2
  have hrest : p.point.resting = true := by
    rw [Flight] at hf
    split at hf
    · rename_i hpt
      exact absurd ⟨_, _, _, hpt⟩ hwrite
    · exact hf
  by_cases hhead : p.point = .consuming ∧ p.rest = []
  · rw [advance_of_consumed hash s hhead]
    exact nextBatch_keeps hi
  · exact turn_keeps hi
      (.of_advance hash s p (fun goal chunk index hpt => hwrite ⟨goal, chunk, index, hpt⟩) hhead) hrest

end Turns

/-! ### Re-plans -/

/-- A re-plan: the attempt that is current after it, the chunks that it keeps, and
whether the attempt begins afresh. -/
structure Replan where
  next : AttemptId
  keep : Nat
  afresh : Bool

def System.replan (s : System) : Action → Option Replan
  | .beginDirect next _ =>
    if s.live ∧ s.transfer.state = .requested then some ⟨next, s.transfer.archiveChunks, true⟩ else none
  | .relayTicket (some next) =>
    if s.live ∧ s.transfer.attemptId.any (· ≠ next) ∧ s.transfer.state ≠ .completePending ∧ s.transfer.state ≠ .staged then
      some ⟨next, s.transfer.archiveChunks, true⟩
    else none
  | .commitDirect next ranges =>
    if s.live ∧ s.transfer.upgrade.any (·.1 = next) then some ⟨next, s.transfer.replanKeep ranges, true⟩
    else if s.live ∧ s.transfer.attemptId = some next then some ⟨next, s.transfer.replanKeep ranges, false⟩
    else none
  | .commitRelay next ranges => if s.live then some ⟨next, s.transfer.replanKeep ranges, false⟩ else none
  | _ => none

def Action.replans : Action → Bool
  | .beginDirect .. => true
  | .relayTicket _ => true
  | .commitDirect .. => true
  | .commitRelay .. => true
  | _ => false

def System.writingAt (s : System) (attempt : AttemptId) : Option Nat :=
  s.running.bind fun p =>
    match p.point with
    | .writing _ _ index => if p.attempt = some attempt then some index else none
    | _ => none

/-- The chunks that are kept are full, and the part that the attempt is writing, if
any, comes right after them, unless the attempt is over. -/
def Replan.fits (r : Replan) (s : System) : Bool :=
  ((range r.keep).map (partLength s.parts)).sum = r.keep * chunkBytes &&
    (s.transfer.attemptClosed && !r.afresh || (s.writingAt r.next).all (· = r.keep))

/-- What a control message does to the archive. Without a re-plan an attempt that
has no name may get one. -/
structure Replans (s : System) (plan : Option Replan) (s' : System) : Prop where
  archive : s'.transfer.archive = s.transfer.archive
  parts : s'.parts = s.parts
  running : s'.running = s.running
  ledger : s'.transfer.ledger = plan.elim s.transfer.ledger (s.transfer.ledger.replanned ·.keep)
  attemptId : plan.elim (s'.transfer.attemptId = s.transfer.attemptId ∨ s.transfer.attemptId = none)
    (s'.transfer.attemptId = some ·.next)
  closed : s'.transfer.attemptClosed = plan.elim s.transfer.attemptClosed (s.transfer.attemptClosed && !·.afresh)

section Replan

variable {b : Books}

theorem archive_adoptAttempt (b : Books) : b.adoptAttempt.archive = b.archive := by
  unfold adoptAttempt
  dsimp only
  split <;> rfl

theorem archive_applyCommitPlan (b : Books) (ranges : List Range) :
    (b.applyCommitPlan ranges).archive = b.archive := by
  unfold applyCommitPlan
  split <;> rfl

theorem ledger_applyCommitPlan (ha : b.archive = true) (ranges : List Range) :
    (b.applyCommitPlan ranges).ledger = b.ledger.replanned (b.replanKeep ranges) := by
  rw [applyCommitPlan, if_pos ha]
  rfl

section

variable (hr : b.verifiedRanges = ledgerRanges b.archiveChunks)
include hr

theorem replanKeep_le (ranges : List Range) : b.replanKeep ranges ≤ b.archiveChunks := by
  rw [replanKeep, hr, rangesEnd_ledgerRanges]
  exact Nat.min_le_right _ _

variable (ha : b.archive = true)
include ha

/-- An attempt that is adopted keeps every chunk that is counted. -/
theorem ledger_adoptAttempt : b.adoptAttempt.ledger = b.ledger.replanned b.archiveChunks := by
  have hkeep : b.replanKeep b.verifiedRanges = b.archiveChunks := by
    rw [replanKeep, hr, verifiedPrefix_ledgerRanges, rangesEnd_ledgerRanges, Nat.min_self]
  rw [adoptAttempt]
  simp only [ha, if_true]
  exact congrArg b.ledger.replanned hkeep

theorem ledger_adopt_commit (hc : b.leaves.length = b.archiveChunks) (ranges : List Range) :
    (b.adoptAttempt.applyCommitPlan ranges).ledger = b.ledger.replanned (b.replanKeep ranges) := by
  have he := ledger_adoptAttempt hr ha
  have hsame : b.adoptAttempt.verifiedRanges = b.verifiedRanges := (congrArg Ledger.verifiedRanges he).trans hr.symm
  have hkeep : b.adoptAttempt.replanKeep ranges = b.replanKeep ranges := by rw [replanKeep, hsame, replanKeep]
  rw [ledger_applyCommitPlan ((archive_adoptAttempt b).trans ha), he, hkeep]
  exact Ledger.replanned_replanned (replanKeep_le hr ranges) (Nat.le_of_eq hc.symm)

end

variable {u : System} {plan : Option Replan}

theorem Replans.refl (s : System) : Replans s none s := ⟨rfl, rfl, rfl, rfl, .inl rfl, rfl⟩

theorem Replans.openRelay (h : Replans s plan u) : Replans s plan u.openRelay := by
  unfold System.openRelay
  split
  · exact { h with }
  · exact h

theorem Replans.of_eq {plan' : Option Replan} (h : Replans s plan s') (hp : plan' = plan) : Replans s plan' s' := by
  rw [hp]
  exact h

section

variable (hi : ArchiveSound hash s)
include hi

theorem beginDirect_replans (next : AttemptId) (carriers : Nat) :
    Replans s (s.replan (.beginDirect next carriers)) (s.beginDirect next carriers) := by
  unfold System.beginDirect
  split
  · exact (Replans.refl s).of_eq (if_neg (by grind))
  · refine Replans.of_eq ?_ (if_pos (by grind))
    exact ⟨archive_adoptAttempt _, rfl, rfl, ledger_adoptAttempt hi.sound.ranges hi.archive, rfl, (Bool.and_false _).symm⟩

theorem relayTicket_replans (attemptId : Option AttemptId) :
    Replans s (s.replan (.relayTicket attemptId)) (s.relayTicket attemptId) := by
  unfold System.relayTicket
  dsimp only
  split
  · refine (Replans.refl s).of_eq ?_
    cases attemptId <;> simp_all [System.replan]
  split
  · rename_i hcurrent
    have hnone : ∀ next, s.replan (.relayTicket next) = none := by rintro (_ | next) <;> simp [System.replan, hcurrent]
    refine Replans.of_eq ?_ (hnone _)
    exact Replans.openRelay ⟨rfl, rfl, rfl, rfl, .inr hcurrent, rfl⟩
  · exact (Replans.refl s).openRelay
  rename_i current next hcurrent
  split
  · exact (Replans.refl s).openRelay.of_eq (if_neg (by simp_all))
  split
  · exact (Replans.refl s).of_eq (if_neg (by grind))
  · refine Replans.of_eq (Replans.openRelay ?_) (if_pos (by grind))
    exact ⟨archive_adoptAttempt _, rfl, rfl, ledger_adoptAttempt hi.sound.ranges hi.archive, rfl, (Bool.and_false _).symm⟩

theorem commitCurrent_replans (next : AttemptId) (ranges : List Range) :
    Replans s (if s.transfer.attemptId = some next then some ⟨next, s.transfer.replanKeep ranges, false⟩ else none)
      (s.commitCurrent next ranges) := by
  rw [System.commitCurrent]
  by_cases hsame : s.transfer.attemptId = some next
  · rw [if_pos hsame, if_neg (not_not.mpr hsame)]
    exact ⟨archive_applyCommitPlan _ ranges, rfl, rfl, ledger_applyCommitPlan hi.archive ranges, hsame,
      (Bool.and_true _).symm⟩
  · rw [if_neg hsame, if_pos hsame]
    exact .refl s

theorem commitDirect_replans (next : AttemptId) (ranges : List Range) :
    Replans s (s.replan (.commitDirect next ranges)) (s.commitDirect next ranges) := by
  have hcurrent := commitCurrent_replans hi next ranges
  unfold System.commitDirect
  split
  · refine (Replans.refl s).of_eq ?_
    simp_all [System.replan]
  rename_i hlive
  rw [Bool.not_eq_true', Bool.not_eq_false] at hlive
  split
  · rename_i hup
    split
    · refine Replans.of_eq ?_ (if_pos (by simp_all))
      exact ⟨(archive_applyCommitPlan _ ranges).trans (archive_adoptAttempt _), rfl, rfl,
        ledger_adopt_commit hi.sound.ranges hi.archive hi.sound.counted ranges, rfl, (Bool.and_false _).symm⟩
    · rename_i hother
      simpa [System.replan, hlive, hup, hother] using hcurrent
  · rename_i hup
    simpa [System.replan, hlive, hup] using hcurrent

theorem commitRelay_replans (next : AttemptId) (ranges : List Range) :
    Replans s (s.replan (.commitRelay next ranges)) (s.commitRelay next ranges) := by
  unfold System.commitRelay
  split
  · exact (Replans.refl s).of_eq (if_neg (by simp_all))
  · refine Replans.of_eq ?_ (if_pos (by simp_all))
    exact ⟨archive_applyCommitPlan _ ranges, rfl, rfl, ledger_applyCommitPlan hi.archive ranges, rfl,
      (Bool.and_true _).symm⟩

theorem replans_of_step {a : Action} (ha : a.replans = true) (hs : step hash s a = some s') : Replans s (s.replan a) s' := by
  cases a with
  | beginDirect next carriers =>
    cases hs
    exact beginDirect_replans hi next carriers
  | relayTicket attemptId =>
    cases hs
    exact relayTicket_replans hi attemptId
  | commitDirect next ranges =>
    cases hs
    exact commitDirect_replans hi next ranges
  | commitRelay next ranges =>
    cases hs
    exact commitRelay_replans hi next ranges
  | _ => cases ha

theorem keep_le {a : Action} {r : Replan} (hr : s.replan a = some r) : r.keep ≤ s.transfer.archiveChunks := by
  have hle := replanKeep_le hi.sound.ranges
  revert hr
  fun_cases System.replan s a
  all_goals rintro ⟨⟩
  all_goals first | exact Nat.le_refl _ | exact hle _

end

variable {r : Replan}

theorem Replans.stale (h : Replans s (some r) s') (attempt : Option AttemptId) :
    s'.transfer.stale attempt = (s.transfer.attemptClosed && !r.afresh || decide (some r.next ≠ attempt)) := by
  have hid : s'.transfer.attemptId = some r.next := h.attemptId
  rw [Transfer.stale, h.closed, hid]
  rfl

theorem Replans.keeps_ledger (h : Replans s none s') (hi : ArchiveSound hash s) : ArchiveSound hash s' := by
  refine ⟨h.archive.trans hi.archive, by rw [h.ledger, h.parts]; exact hi.sound, fun p hp => ?_⟩
  refine (hi.flight p (h.running ▸ hp)).mono (congrArg Ledger.archiveChunks h.ledger) fun hc => ?_
  rcases h.attemptId with hid | hnone
  · have hclosed : s'.transfer.attemptClosed = s.transfer.attemptClosed := h.closed
    simpa only [Transfer.stale, hid, hclosed] using hc
  · exact .inr hnone

theorem Replans.keeps (h : Replans s (some r) s') (hi : ArchiveSound hash s)
    (hk : r.keep ≤ s.transfer.archiveChunks) (hok : r.fits s = true) : ArchiveSound hash s' := by
  obtain ⟨hsum, hwrite⟩ := Bool.and_eq_true _ _ |>.mp hok
  have hcount : s'.transfer.archiveChunks = r.keep := congrArg Ledger.archiveChunks h.ledger
  refine ⟨h.archive.trans hi.archive, ?_, fun p hp => ?_⟩
  · rw [h.ledger, h.parts]
    exact hi.sound.replanned hk (of_decide_eq_true hsum)
  · rw [h.running] at hp
    have hf := hi.flight p hp
    unfold Flight at hf ⊢
    split at hf
    · rename_i goal chunk index hpt
      refine ⟨hf.1, hcount ▸ Nat.le_trans hk hf.2.1, fun hc => hcount.trans ?_⟩
      rcases hc with hc | hc
      · rw [h.stale, Bool.or_eq_false_iff] at hc
        rw [hc.1, Bool.false_or, System.writingAt, hp, Option.bind_some, hpt] at hwrite
        simp only [decide_eq_false_iff_not, not_not] at hc
        simp only [hc.2, if_true, Option.all_some, decide_eq_true_eq] at hwrite
        exact hwrite.symm
      · cases hc.symm.trans h.attemptId
    · exact hf

end Replan

/-! ### Runs -/

def replansWhole (s : System) (a : Action) : Bool := (s.replan a).all (Replan.fits · s)

section Steps

theorem pump_keeps (hi : ArchiveSound hash s) (hs : step hash s .pump = some s') : ArchiveSound hash s' := by
  simp only [step] at hs
  split at hs
  all_goals cases hs
  · rename_i hp
    exact advance_keeps hi hp
  · rename_i job chain hrun _
    have hc : ArchiveSound hash { s with running := none, chain := chain } := ⟨hi.archive, hi.sound, nofun⟩
    rw [← hrun] at hc
    cases job with
    | pump => exact nextBatch_keeps hc
    | drain attempt => exact (Mild.closeDirect _ attempt).toCalm.keeps_still (running_closeDirect _ attempt) hc
    | relayClosed attempt => exact (Mild.relayCheck _ attempt).toCalm.keeps_still (running_relayCheck _ attempt) hc

theorem step_keeps {a : Action} (hi : ArchiveSound hash s) (hok : replansWhole s a = true)
    (hs : step hash s a = some s') : ArchiveSound hash s' := by
  cases hr : a.replans with
  | true =>
    have hplan := replans_of_step hi hr hs
    rw [replansWhole] at hok
    cases hp : s.replan a with
    | none =>
      rw [hp] at hplan
      exact hplan.keeps_ledger hi
    | some r =>
      rw [hp] at hplan hok
      exact hplan.keeps hi (keep_le hi hp) hok
  | false =>
    by_cases hm : a.mild = true
    · exact (mild_of_step hm hs).1.toCalm.keeps_still (mild_of_step hm hs).2 hi
    have frame := fun data stalled =>
      ((Calm.refl s).deliverFrame data stalled).keeps_still (running_deliverFrame s data stalled) hi
    cases a with
    | pump => exact pump_keeps hi hs
    | pumpFails =>
      simp only [step] at hs
      repeat' split at hs
      all_goals cases hs
      all_goals exact (Mild.throws s _).toCalm.keeps hi nofun
    | derive _ stalled =>
      have hc : ∀ derivations, Calm s { s with derivations := derivations } := fun _ => { Calm.refl s with }
      simp only [step] at hs
      split at hs
      · cases hs
      split at hs
      · cases hs
        exact ((hc _).installKey _ stalled).keeps_still (running_installKey _ _ stalled) hi
      split at hs
      · cases hs
      split at hs <;> cases hs <;> exact (hc _).keeps_still rfl hi
    | directFrame _ data stalled =>
      cases hs
      rw [System.deliverDirectFrame]
      split
      · exact hi
      · exact frame data stalled
    | relayFrame _ data stalled =>
      cases hs
      rw [System.deliverRelayFrame]
      split
      · exact hi
      · exact frame data stalled
    | _ => first | exact absurd rfl hm | cases hr

end Steps

/-- What the repository has of an archive: its record and its staged parts. -/
structure Partial where
  verifiedRanges : List Range
  chunkDigests : Table Nat Bytes
  expected : Option ArchiveTuple
  parts : Table Nat Bytes

namespace Partial

/-- The digest of a part that is there, has full length and is as it was recorded. -/
def rehash (hash : Hash) (stored : Partial) (index : Nat) : Option Bytes :=
  match stored.parts.get? index with
  | none => none
  | some bytes =>
    if bytes.length = chunkBytes ∧ stored.chunkDigests.get? index = some (hash.sha256 bytes) then some (hash.sha256 bytes)
    else none

/-- The leaves up to the first part that is missing, short or altered. -/
def rehashFrom (hash : Hash) (stored : Partial) (index : Nat) : Nat → List Bytes
  | 0 => []
  | left + 1 =>
    match stored.rehash hash index with
    | none => []
    | some digest => digest :: stored.rehashFrom hash (index + 1) left

def rehashArchiveRecord (hash : Hash) (stored : Partial) : Stored :=
  let claimed := rangesEnd (verifiedPrefix stored.verifiedRanges)
  let leaves := stored.rehashFrom hash 0 claimed
  { ranges := ledgerRanges leaves.length
    leaves := leaves
    expectedTuple := stored.expected
    record := true
    parts := stored.parts.retain (fun i _ => i < leaves.length || claimed ≤ i) }

theorem of_rehash {hash : Hash} {stored : Partial} {index : Nat} {digest : Bytes}
    (h : stored.rehash hash index = some digest) :
    ∃ part, stored.parts.get? index = some part ∧ part.length = chunkBytes ∧ digest = hash.sha256 part := by
  unfold rehash at h
  split at h
  · cases h
  · rename_i part hp
    obtain ⟨hok, he⟩ := Option.ite_none_right_eq_some.mp h
    exact ⟨part, hp, hok.1, (Option.some.inj he).symm⟩

theorem rehash_of_getElem? {hash : Hash} {stored : Partial} {n left i : Nat} {digest : Bytes}
    (h : (stored.rehashFrom hash n left)[i]? = some digest) : stored.rehash hash (n + i) = some digest := by
  induction left generalizing n i with
  | zero => cases h
  | succ left ih =>
    unfold rehashFrom at h
    split at h
    · cases h
    · rename_i hd
      cases i with
      | zero => exact hd.trans h
      | succ i =>
        rw [← Nat.succ_add_eq_add_succ]
        exact ih h

end Partial

/-- What a download of an archive starts from. Nothing is taken from a record that
is absent, of another manifest, or cannot be read. -/
def storedArchive (hash : Hash) (parts : Table Nat Bytes) : Option Partial → Stored
  | none => ⟨[], [], none, false, parts⟩
  | some stored => stored.rehashArchiveRecord hash

/-- The chunks that a start counts have full length and match their leaves. -/
structure Stored.Rehashed (hash : Hash) (stored : Stored) : Prop where
  counted : stored.leaves.length = rangesEnd (verifiedPrefix stored.ranges)
  digests : ∀ i < stored.leaves.length, ∃ part,
    stored.parts.get? i = some part ∧ part.length = chunkBytes ∧ stored.leaves[i]? = some (hash.sha256 part)

theorem verifiedPrefix_ledger (n : Nat) : rangesEnd (verifiedPrefix (ledgerRanges n)) = n := by
  have hf : (ledgerRanges n).filter (fun r => r.1 ≤ r.2) = ledgerRanges n := by
    unfold ledgerRanges
    split <;> simp
  exact hf ▸ verifiedPrefix_ledgerRanges n

theorem storedArchive_rehashed (hash : Hash) (parts : Table Nat Bytes) (stored : Option Partial) :
    (storedArchive hash parts stored).Rehashed hash := by
  cases stored with
  | none => exact ⟨rfl, fun i hi => absurd hi (Nat.not_lt_zero i)⟩
  | some stored =>
    refine ⟨(verifiedPrefix_ledger _).symm, fun i hi => ?_⟩
    obtain ⟨part, hp, hl, hd⟩ := Partial.of_rehash (Partial.rehash_of_getElem? (getElem?_eq_getElem hi))
    rw [Nat.zero_add] at hp
    refine ⟨part, ?_, hl, (getElem?_eq_getElem hi).trans (congrArg some hd)⟩
    have hi' : i < (stored.rehashFrom hash 0 (rangesEnd (verifiedPrefix stored.verifiedRanges))).length := hi
    simp [storedArchive, Partial.rehashArchiveRecord, Table.get?_retain, hp, hi']

theorem verifiedPrefix_eq (ranges : List Range) :
    verifiedPrefix ranges = ledgerRanges (rangesEnd (verifiedPrefix ranges)) := by
  unfold verifiedPrefix
  split
  · rfl
  split
  · rfl
  · rename_i h
    rw [rangesEnd, ledgerRanges, if_neg (fun hz => h (.inr hz))]

theorem archiveSound_start {stored : Stored} (entry : Entry) (h : stored.Rehashed hash) :
    ArchiveSound hash (startDownload true entry stored) := by
  have hn := h.counted
  have hw : wholeParts stored.parts (rangesEnd (verifiedPrefix stored.ranges)) = true := by
    refine all_eq_true.mpr fun i hi => ?_
    obtain ⟨part, hp, hl, _⟩ := h.digests i (hn ▸ mem_range.mp hi)
    simp [hp, hl]
  refine ⟨rfl, ⟨hn, ?_, (sum_wholeParts hw).symm, verifiedPrefix_eq _⟩, fun p hp => by cases hp⟩
  intro i hi
  obtain ⟨part, hp, _, hd⟩ := h.digests i (hn ▸ hi)
  exact ⟨part, hp, hd⟩

end Bore.Download
