import Bore.RegistryNotices
import Bore.RegistryAttempts
import Bore.Ranges

namespace Bore.RegistryRanges

open List

open RegistryTypes RegistryOps RegistryDirect RegistryRelay RegistryMoves RegistryEffects RegistryAdmission
  RegistryPermits RegistrySystem RegistrySteps RegistrySections RegistryTerminal Runs
open RegistryNotices (Pathless ran_pathless performed_direct fallbackToRelay_pathless)
open Frames (chunkBytes maxResumeRanges rangeLe planSend inBounds)

def chunkCount (size : Nat) : Nat := (size + chunkBytes - 1) / chunkBytes

def overlapping : Ranges → Bool
  | a :: b :: rest => decide (b.1 < a.2) || overlapping (b :: rest)
  | _ => false

def parseVerifiedRanges (raw : Ranges) : Option Ranges :=
  if raw.length > maxResumeRanges then none
  else if raw.any (fun range => range.2 ≤ range.1) then none
  else
    let sorted := raw.insertionSort rangeLe
    if overlapping sorted then none else some sorted

structure Ascending (ranges : Ranges) : Prop where
  nonempty : ∀ range ∈ ranges, range.1 < range.2
  disjoint : ranges.Pairwise (fun a b => a.2 ≤ b.1)

structure Inside (chunks : Nat) (ranges : Ranges) : Prop extends Ascending ranges where
  bounded : ∀ range ∈ ranges, range.2 ≤ chunks

theorem inside_nil (chunks : Nat) : Inside chunks [] := ⟨⟨nofun, .nil⟩, nofun⟩

theorem ascending_of_not_overlapping (ranges : Ranges) (hn : ∀ range ∈ ranges, range.1 < range.2)
    (h : overlapping ranges = false) : Ascending ranges := by
  refine ⟨hn, ?_⟩
  induction ranges with
  | nil => exact .nil
  | cons a rest ih =>
    cases rest with
    | nil => exact pairwise_singleton _ _
    | cons b =>
      simp only [overlapping, Bool.or_eq_false_iff, decide_eq_false_iff_not, Nat.not_lt] at h
      have hrest := ih (fun range hr => hn range (mem_cons_of_mem a hr)) h.2
      refine pairwise_cons.mpr ⟨fun c hc => ?_, hrest⟩
      rcases mem_cons.mp hc with rfl | hc
      · exact h.1
      · have hb := hn b (mem_cons_of_mem a mem_cons_self)
        have hbc := (pairwise_cons.mp hrest).1 c hc
        exact h.1.trans (hb.le.trans hbc)

theorem parseVerifiedRanges_ascending {raw ranges : Ranges} (h : parseVerifiedRanges raw = some ranges) :
    Ascending ranges := by
  rw [parseVerifiedRanges] at h
  split at h
  · cases h
  split at h
  · cases h
  rename_i hn
  dsimp only at h
  split at h
  · cases h
  rename_i ho
  cases h
  refine ascending_of_not_overlapping _ (fun range hr => ?_) (Bool.not_eq_true _ ▸ ho)
  have hmem := (Frames.mem_insertionSort_ranges raw range).mp hr
  simp only [any_eq_true, decide_eq_true_eq, not_exists, not_and, Nat.not_le] at hn
  exact hn range hmem

theorem planSend_of_inside {chunks : Nat} {ranges : Ranges} (h : Inside chunks ranges) :
    (planSend chunks ranges).isSome = true := by
  have hall : ranges.all (inBounds chunks) = true := by
    rw [all_eq_true]
    intro range hr
    simp only [inBounds, Bool.and_eq_true, decide_eq_true_eq]
    exact ⟨(h.nonempty range hr).le, h.bounded range hr⟩
  rw [planSend, if_pos hall]
  rfl

/-- The manifest decoder counts the chunks of every entry. -/
def ManifestsCounted (cfg : Config) : Prop :=
  ∀ bytes manifest, cfg.parseManifest bytes = .ok manifest → ∀ entry ∈ manifest.entries,
    entry.chunks.length = chunkCount entry.size

def InsideFile (r : TransferRecord) (ranges : Ranges) : Prop :=
  r.mode = .raw → ∃ size, r.entrySize = some size ∧ Inside (chunkCount size) ranges

def Kept (r : TransferRecord) : Prop := InsideFile r (knownRanges r)

def RoomKept (room : Room) : Prop := ∀ id r, room.transfers.get? id = some r → Kept r

def rangesOf : Envelope → Option (TransferId × Ranges)
  | .pathCommit id _ _ ranges => some (id, ranges)
  | .directFailed id _ _ ranges => some (id, ranges)
  | _ => none

/-- What is sent about a raw transfer is inside its file; of a transfer that is
gone nothing is known. -/
def Sends (sc : Scope) (outbox : Outbox) : Prop :=
  ∀ peer envelope, (peer, envelope) ∈ outbox → ∀ id ranges, rangesOf envelope = some (id, ranges) →
    (∀ r, sc.record? id = some r → InsideFile r ranges) ∧ (sc.record? id = none → ranges = [])

def Act.reports : Act → Bool
  | .probe | .commitUpgrade | .resume | .fallback _ => true
  | _ => false

section Records

variable {act : Act} {r r' : TransferRecord}

theorem move_file (hm : Move act r r') : r'.mode = r.mode ∧ r'.entrySize = r.entrySize := by
  cases hm <;> exact ⟨rfl, rfl⟩

theorem kept_move (hm : Move act r r') (ha : Act.reports act = false) (h : Kept r) : Kept r' := by
  have hknown : knownRanges r' = knownRanges r := by
    cases hm <;> first | rfl | cases ha
  rw [Kept, hknown, InsideFile, (move_file hm).1, (move_file hm).2]
  exact h

theorem reports_of_direct (h : RegistryNotices.Act.direct act = false) : Act.reports act = false := by
  cases act <;> first | rfl | cases h

theorem kept_setResumeIfAny {ranges : Ranges} (h : Kept r) (hr : InsideFile r ranges) :
    Kept (setResumeIfAny ranges r) := by
  rw [setResumeIfAny]
  split
  · exact h
  · exact hr

end Records

section Sections

variable {cfg : Config} {now : Instant} {pair : TicketPair} {s s' : Scope} {id : TransferId} {peer : PeerId}
  {attemptId : AttemptId}
variable {r : TransferRecord} {ranges : Ranges} {outbox : Outbox}

theorem told_of_record (hr : s.record? id = some r) (h : InsideFile r ranges) :
    (∀ r', s.record? id = some r' → InsideFile r' ranges) ∧ (s.record? id = none → ranges = []) := by
  rw [hr]
  exact ⟨fun _ he => Option.some.inj he ▸ h, nofun⟩

theorem sends_about (hr : s.record? id = some r)
    (hranges : InsideFile r ranges) (h : ∀ e ∈ outbox, rangesOf e.2 = some (id, ranges) ∨ rangesOf e.2 = none) :
    Sends s outbox := by
  intro p envelope hm j rs hrs
  rcases h _ hm with he | he
  · rw [he] at hrs
    cases hrs
    exact told_of_record hr hranges
  · rw [he] at hrs
    cases hrs

def Rangeless (outbox : Outbox) : Prop := ∀ e ∈ outbox, rangesOf e.2 = none

theorem sends_of_rangeless (h : Rangeless outbox) : Sends s outbox := by
  intro peer envelope hm id ranges hr
  rw [h _ hm] at hr
  cases hr

theorem rangeless_nil : Rangeless [] := nofun

theorem rangeless_of_pathless (h : Pathless outbox) : Rangeless outbox := by
  intro e he
  have hp := all_eq_true.mp h e he
  generalize e.2 = envelope at hp
  cases envelope with
  | pathCommit | directFailed => cases hp
  | _ => rfl

theorem checkResume_inside {entry : ManifestEntry} {resume resume' : Option ResumeDescriptor}
    (h : checkResume (some entry) resume = .ok resume') (hp : ∀ d, resume = some d → Ascending d.verifiedRanges) :
    ∀ d, resume' = some d → Inside entry.chunks.length d.verifiedRanges := by
  rw [checkResume.eq_def] at h
  split at h
  · cases h
    exact nofun
  rename_i descriptor
  dsimp only at h
  split at h
  · cases h
  rename_i hbound
  split at h
  · cases h
  cases h
  rintro d ⟨⟩
  refine ⟨hp descriptor rfl, fun range hr => ?_⟩
  simp only [any_eq_true, decide_eq_true_eq, not_exists, not_and, Nat.not_lt] at hbound
  exact hbound range hr

theorem selectTransfer_inside (hc : ManifestsCounted cfg) {room : Room} {req : TransferRequest} {sel : Selected}
    (h : selectTransfer cfg room req = .ok sel) (hp : ∀ d, req.resume = some d → Ascending d.verifiedRanges)
    (hm : sel.mode = .raw) :
    ∃ size, sel.entrySize = some size ∧ ∀ d, sel.resume = some d → Inside (chunkCount size) d.verifiedRanges := by
  revert h
  fun_cases selectTransfer cfg room req
  all_goals rintro ⟨⟩
  rename_i manifest hmanifest selection _ _ hentry _ _ hresume
  cases selection with
  | zip => cases hm
  | raw =>
    rw [selectedEntry] at hentry
    split at hentry
    · cases hentry
    rename_i found hfind
    split at hentry
    · cases hentry
    cases hentry
    refine ⟨found.size, rfl, ?_⟩
    rw [← hc _ manifest hmanifest found (mem_of_find?_eq_some hfind)]
    exact checkResume_inside hresume hp

theorem forwardRtc_rangeless (carrier : Nat) (signal : RtcSignal) :
    Rangeless (outboxOf (forwardRtc cfg peer id attemptId carrier signal s).2) := by
  rw [forwardRtc]
  split
  · exact rangeless_nil
  · rintro e he
    cases mem_singleton.mp he
    rfl

variable (hs : RoomKept s.room)
include hs

theorem roomKept_of_evolves {allowed drawn} (h : Evolves allowed drawn s.room s'.room)
    (ha : ∀ id r act, allowed id r act → Act.reports act = false) (hd : ∀ id attempt, ¬ drawn id attempt) :
    RoomKept s'.room := by
  intro id r' hr'
  have hc := h id
  rw [hr'] at hc
  generalize ho : s.room.transfers.get? id = o at hc
  cases hc with
  | same => exact hs id r' ho
  | moved hallowed hm => exact kept_move hm (ha id _ _ hallowed) (hs id _ ho)
  | created hdrawn => exact absurd hdrawn (hd id _)

theorem roomKept_update {f : TransferRecord → TransferRecord}
    (h : ∀ j, s'.record? j = if j = id then (s.record? j).map f else s.record? j)
    (hf : ∀ r, s.record? id = some r → Kept (f r)) : RoomKept s'.room := by
  intro j r' hr'
  have hj : s'.record? j = some r' := hr'
  rw [h j] at hj
  split at hj
  · rename_i he
    subst he
    obtain ⟨r, hr, rfl⟩ := Option.map_eq_some_iff.mp hj
    exact hf r hr
  · exact hs j r' hj

theorem knownRanges_inside (hr : s.record? id = some r) : InsideFile r (knownRanges r) :=
  hs id r hr

theorem insideFile_nil (hr : s.record? id = some r) : InsideFile r [] := by
  intro hm
  obtain ⟨size, hsize, _⟩ := hs id r hr hm
  exact ⟨size, hsize, inside_nil _⟩

theorem upgradeReady_kept
    (hranges : ∀ r, s.record? id = some r → sideOf r peer = .ok false → InsideFile r ranges) :
    RoomKept (upgradeReady peer id attemptId ranges s).1.room ∧
      Sends s (upgradeOutbox (upgradeReady peer id attemptId ranges s).2) := by
  have quiet : ∀ e : Except WebTransferError (Option Outbox), upgradeOutbox e = [] → RoomKept s.room ∧
      Sends s (upgradeOutbox e) := by
    intro e he
    rw [he]
    exact ⟨hs, (by rintro _ _ ⟨⟩)⟩
  rw [upgradeReady.eq_def]
  cases hr : s.record? id with
  | none => exact quiet _ rfl
  | some record =>
    dsimp only
    split
    · exact quiet _ rfl
    rename_i up _
    split
    · exact quiet _ rfl
    cases hside : sideOf record peer with
    | error => exact quiet _ rfl
    | ok isSource =>
      dsimp only
      split
      · exact quiet _ rfl
      -- The ranges of the commit come from the recipient or from the record.
      have hin : InsideFile record
          (if isSource || ranges.isEmpty then knownRanges record else ranges) := by
        split
        · exact knownRanges_inside hs hr
        · rename_i hc
          simp only [Bool.or_eq_true, not_or, Bool.not_eq_true] at hc
          exact hranges record hr (hc.1 ▸ hside)
      split
      · exact quiet _ rfl
      rename_i number _
      split
      · refine ⟨roomKept_update hs (record?_installAttempt s id · _ _) fun r hr' => ?_, ?_⟩
        · rw [hr] at hr'
          cases hr'
          exact kept_setResumeIfAny (r := { record with
            upgrade := none, attemptNumber := number, attemptId := some up.attemptId, state := .activeDirect })
            (hs id record hr) hin
        · refine sends_about hr hin fun e he => ?_
          simp only [upgradeOutbox, mem_cons, not_mem_nil, or_false] at he
          rcases he with rfl | rfl <;> exact .inl rfl
      refine ⟨roomKept_update hs (record?_updateRecord s id · _) fun r hr' => ?_, (by rintro _ _ ⟨⟩)⟩
      rw [hr] at hr'
      cases hr'
      split
      · rename_i hc
        simp only [Bool.and_eq_true, Bool.not_eq_true'] at hc
        exact hranges record hr (hc.1 ▸ hside)
      · exact hs id record hr

theorem storePermit_kept (permit : Permit) : RoomKept (storePermit id permit s).room := by
  rw [storePermit]
  split
  · exact roomKept_update hs (record?_updateRecord s id · _) fun r hr => hs id r hr
  · exact hs

theorem admitRelayAttempt_kept : RoomKept (admitRelayAttempt cfg now pair id attemptId s).1.room := by
  rw [admitRelayAttempt]
  split
  · exact hs
  split
  · exact hs
  · refine storePermit_kept ?_ _
    exact hs

theorem fallbackToRelay_kept {draw failed : AttemptId} {cause : FallbackCause}
    {sc : Scope} {fallback : FallbackOutcome}
    (h : fallbackToRelay cfg now draw pair id failed ranges cause s = (sc, some fallback))
    (hranges : ∀ r, s.record? id = some r → InsideFile r ranges) :
    RoomKept sc.room ∧ (∃ r, s.record? id = some r ∧ InsideFile r fallback.ranges) ∧ Rangeless fallback.outbox := by
  obtain ⟨r, number, hr, _, _, _, hrs, hinstall⟩ := fallbackToRelay_some h
  have hin : InsideFile r fallback.ranges := by
    rw [hrs]
    split
    · exact hs id r hr
    · exact hranges r hr
  have hkept : RoomKept (admitRelayAttempt cfg now pair id draw (s.installAttempt id ⟨draw, number, none⟩
      (fallbackRecord draw number failed fallback.ranges))).1.room := by
    refine admitRelayAttempt_kept (roomKept_update hs (record?_installAttempt s id · _ _) fun r' hr' => ?_)
    cases hr.symm.trans hr'
    exact kept_setResumeIfAny (r := { r with
      attemptNumber := number, attemptId := some draw, state := .waitingRelay, lastDirectAttempt := some failed })
      (hs id r hr) hin
  rw [hinstall] at hkept
  exact ⟨hkept, ⟨r, hr, hin⟩, rangeless_of_pathless (fallbackToRelay_pathless h)⟩

theorem adoptLateRecipientResume_kept
    (hranges : ∀ r, s.record? id = some r → InsideFile r ranges) :
    RoomKept (adoptLateRecipientResume id attemptId ranges s).room := by
  rw [adoptLateRecipientResume]
  split
  · exact hs
  split
  · exact hs
  · exact roomKept_update hs (record?_updateRecord s id · _) fun r hr => hranges r hr

theorem requestCheck_kept (hc : ManifestsCounted cfg) {draws : List TransferId} {draw : AttemptId}
    {req : TransferRequest} (hp : ∀ d, req.resume = some d → Ascending d.verifiedRanges) :
    RoomKept (requestCheck cfg now draws draw req s).1.room := by
  rw [requestCheck.eq_def]
  split
  · exact hs
  rename_i sel hsel
  split
  · split
    · exact hs
    split
    · exact hs
    · exact roomKept_update hs (record?_installAttempt s _ · _ _) fun r hr => hs _ r hr
  split
  · exact hs
  split
  · exact hs
  intro j r hr
  rw [gc_record, Table.get?_insert] at hr
  obtain ⟨hr, _⟩ := Option.filter_eq_some_iff.mp hr
  split at hr
  · cases hr
    intro hm
    obtain ⟨size, hsize, hresume⟩ := selectTransfer_inside hc hsel hp hm
    refine ⟨size, hsize, ?_⟩
    cases hd : sel.resume with
    | none =>
      rw [knownRanges, freshRecord, hd]
      exact inside_nil _
    | some d =>
      rw [knownRanges, freshRecord, hd]
      exact hresume d hd
  · exact hs j r hr

theorem forwardRtc_kept (carrier : Nat) (signal : RtcSignal) :
    RoomKept (forwardRtc cfg peer id attemptId carrier signal s).1.room := by
  have hslot : RoomKept (signalSlot cfg peer id attemptId carrier (signalKind signal) s).1.room := by
    rw [signalSlot]
    split
    · exact hs
    split
    · exact hs
    split
    · exact hs
    split
    · exact hs
    · refine roomKept_update hs (record?_updateRecord s id · _) fun r hr => ?_
      split <;> exact hs id r hr
  rw [forwardRtc]
  split
  · rename_i hslot'
    rw [hslot'] at hslot
    exact hslot
  · rename_i hslot'
    rw [hslot'] at hslot
    exact hslot

theorem directReady_sends : Sends s (outboxOf (directReady peer id attemptId s).2) := by
  rw [directReady]
  cases hr : s.record? id with
  | none => exact sends_of_rangeless rangeless_nil
  | some record =>
    dsimp only
    split
    · exact sends_of_rangeless rangeless_nil
    split
    · exact sends_of_rangeless rangeless_nil
    split
    · split
      · exact sends_of_rangeless rangeless_nil
      split
      · refine sends_about hr (knownRanges_inside hs hr) fun e he => ?_
        simp only [outboxOf, mem_cons, not_mem_nil, or_false] at he
        rcases he with rfl | rfl <;> exact .inl rfl
      · exact sends_of_rangeless rangeless_nil
    · exact sends_of_rangeless rangeless_nil

theorem relayCommit_sends (source recipient : PeerId) :
    Sends s (relayCommit id attemptId source recipient s) := by
  intro p envelope hm j rs hrs
  have henv : envelope = .pathCommit id attemptId "relay" ((s.record? id).elim [] knownRanges) := by
    simp only [relayCommit, mem_cons, Prod.mk.injEq, not_mem_nil, or_false] at hm
    cases hr : s.record? id <;> exact (hr ▸ hm).elim And.right And.right
  subst henv
  cases hrs
  cases hr : s.record? id with
  | none => exact ⟨fun _ he => (by cases he), fun _ => rfl⟩
  | some r => exact ⟨fun _ he => Option.some.inj he ▸ hs id r hr, fun he => by cases he⟩

end Sections

def reported (s : System) : Action → Option (RoomRef × TransferId × Ranges)
  | .call room _ (.directReady peer id _ ranges) =>
    if (s.record? room id).any (fun r => r.source != peer && r.recipient == peer) then some (room, id, ranges) else none
  | .resume i _ (.fallback _ _) =>
    match s.tasks.get? i with
    | some (.failedFallback key true _ _ ranges) => some (key.room, key.transfer, ranges)
    | _ => none
  | .resume i _ .go =>
    match s.tasks.get? i with
    | some (.failedAdopt key ranges) => some (key.room, key.transfer, ranges)
    | _ => none
  | _ => none

def withinFile (s : System) (a : Action) : Bool :=
  (reported s a).all fun (room, id, ranges) =>
    (s.record? room id).all fun r =>
      r.mode ≠ .raw || r.entrySize.all (fun size => ranges.all (fun range => range.2 ≤ chunkCount size))

def Parsed : Action → Prop
  | .call _ _ (.request req _ _) =>
    ∀ d, req.resume = some d → ∃ raw, parseVerifiedRanges raw = some d.verifiedRanges
  | .call _ _ (.directReady _ _ _ ranges) => ∃ raw, parseVerifiedRanges raw = some ranges
  | .call _ _ (.directFailed _ _ _ _ ranges) => ∃ raw, parseVerifiedRanges raw = some ranges
  | _ => True

def taskRanges : Task → Option Ranges
  | .failedClear _ _ _ _ ranges | .failedFallback _ _ _ _ ranges | .failedAdopt _ ranges => some ranges
  | _ => none

/-- Every room is kept and every report under way is ascending. -/
structure RangesKept (s : System) : Prop where
  rooms : ∀ room, RoomKept (s.rooms room)
  reports : ∀ i task ranges, s.tasks.get? i = some task → taskRanges task = some ranges → Ascending ranges

section Steps

variable {cfg : Config} {s s' : System} {a : Action}
variable {room : RoomRef}

theorem insideFile_of_withinFile (hs : RangesKept s) (hw : withinFile s a = true) {id : TransferId}
    {ranges : Ranges} (hr : reported s a = some (room, id, ranges)) (hasc : Ascending ranges) {r : TransferRecord}
    (hrec : s.record? room id = some r) : InsideFile r ranges := by
  intro hm
  obtain ⟨size, hsize, _⟩ := hs.rooms room id r hrec hm
  refine ⟨size, hsize, hasc, fun range hrange => ?_⟩
  simp only [withinFile, hr, hrec, hsize, Option.all_some, hm, ne_eq, not_true_eq_false, decide_false, Bool.false_or,
    all_eq_true, decide_eq_true_eq] at hw
  exact hw range hrange

theorem step_reports (h : step cfg s a = some s') (hp : Parsed a) (hs : RangesKept s) (i : Nat) (task : Task)
    (ranges : Ranges) (hi : s'.tasks.get? i = some task) (hr : taskRanges task = some ranges) : Ascending ranges := by
  rcases step_tasks h i task hi with hold | hcame
  · exact hs.reports i task ranges hold hr
  cases task with
  | failedClear =>
    cases hr
    obtain ⟨now, peer, rfl, _⟩ := hcame
    obtain ⟨raw, hraw⟩ := hp
    exact parseVerifiedRanges_ascending hraw
  | failedFallback =>
    cases hr
    exact hs.reports i _ _ hcame rfl
  | failedAdopt =>
    cases hr
    obtain ⟨counterpart, reason, hold⟩ := hcame
    exact hs.reports i _ _ hold rfl
  | _ => cases hr

theorem ran_kept (hc : ManifestsCounted cfg) (hs : RangesKept s) (hp : Parsed a) (hw : withinFile s a = true)
    {sc : Scope} {outbox : Outbox} (h : Ran cfg s a room sc outbox) :
    RoomKept sc.room ∧ Sends (s.scope room) outbox := by
  have hroom : RoomKept (s.scope room).room := hs.rooms room
  have silent : Sends (s.scope room) [] := sends_of_rangeless rangeless_nil
  -- A section outside the negotiation, unless it draws a record.
  have quiet (hn : negotiates s a = false) (hd : ∀ id d, ¬ Drawn cfg s a room id d) :
      RoomKept sc.room ∧ Sends (s.scope room) outbox :=
    ⟨roomKept_of_evolves hroom (ran_effect h).evolves (fun _ _ _ hact => reports_of_direct (performed_direct hact hn)) hd,
      sends_of_rangeless (rangeless_of_pathless (ran_pathless h hn))⟩
  cases h with
  | still => exact ⟨hroom, silent⟩
  | request =>
    refine ⟨requestCheck_kept hroom hc fun d hd => ?_, silent⟩
    obtain ⟨raw, hraw⟩ := hp d hd
    exact parseVerifiedRanges_ascending hraw
  | rtc _ _ _ _ _ carrier signal =>
    exact ⟨forwardRtc_kept hroom carrier signal, sends_of_rangeless (forwardRtc_rangeless carrier signal)⟩
  | upgradeReady _ _ _ id =>
    refine upgradeReady_kept hroom fun r hr hside => ?_
    obtain ⟨raw, hraw⟩ := hp
    refine insideFile_of_withinFile hs hw ?_ (parseVerifiedRanges_ascending hraw) hr
    have hr' : s.record? room id = some r := hr
    rw [reported, hr', if_pos]
    rw [sideOf] at hside
    split at hside
    · cases hside
    split at hside
    · rename_i hne heq
      simp [hne, heq]
    · cases hside
  | deadline _ _ _ _ _ _ _ _ hf =>
    obtain ⟨hkept, ⟨r, hr, hin⟩, hquiet⟩ := fallbackToRelay_kept hroom hf fun _ hr => insideFile_nil hroom hr
    refine ⟨hkept, sends_about hr hin fun e he => ?_⟩
    rcases mem_append.mp he with he | he
    · rw [deadlineOutbox.eq_def] at he
      split at he
      · cases he
      · simp only [mem_cons, not_mem_nil, or_false] at he
        rcases he with rfl | rfl <;> exact .inl rfl
    · exact .inr (hquiet e he)
  | directReady _ _ room peer id attempt =>
    have hsec : Section cfg [] none _ noDraw (s.scope room) (directReady peer id attempt (s.scope room)).1 :=
      directReady_section
    refine ⟨roomKept_of_evolves hroom hsec.evolves ?_ fun _ _ hd => hd, directReady_sends hroom⟩
    rintro _ _ _ (rfl | rfl) <;> rfl
  | fallback i _ key isRecipient _ _ ranges _ _ _ _ hi hf =>
    have hranges : ∀ r, (s.scope key.room).record? key.transfer = some r →
        InsideFile r (if isRecipient then ranges else []) := by
      intro r hr
      cases isRecipient with
      | false => exact insideFile_nil hroom hr
      | true =>
        refine insideFile_of_withinFile hs hw ?_ (hs.reports i _ ranges hi rfl) hr
        rw [reported, hi]
    obtain ⟨hkept, ⟨r, hr, hin⟩, hquiet⟩ := fallbackToRelay_kept hroom hf hranges
    refine ⟨hkept, sends_about hr hin fun e he => ?_⟩
    rcases mem_cons.mp he with rfl | he
    · exact .inl rfl
    · exact .inr (hquiet e he)
  | adopt i _ _ ranges hi =>
    refine ⟨adoptLateRecipientResume_kept hroom fun r hr => ?_, silent⟩
    refine insideFile_of_withinFile hs hw ?_ (hs.reports i _ ranges hi rfl) hr
    rw [reported, hi]
  | commit _ _ _ source recipient => exact ⟨hroom, relayCommit_sends hroom source recipient⟩
  | _ =>
    refine quiet ?_ ?_
    · first | rfl | simp [negotiates, *]
    · rintro _ _ ⟨_, _, _, he, _⟩
      cases he

theorem step_rangesKept (hc : ManifestsCounted cfg) (h : step cfg s a = some s') (hp : Parsed a)
    (hw : withinFile s a = true) (hs : RangesKept s) : RangesKept s' := by
  obtain ⟨room, sc, outbox, hleft⟩ := step_left h
  refine ⟨fun room' => ?_, step_reports h hp hs⟩
  rw [hleft.rooms]
  by_cases hroom : room' = room
  · subst hroom
    rw [Function.update_self]
    exact (ran_kept hc hs hp hw hleft.ran).1
  · rw [Function.update_of_ne hroom]
    exact hs.rooms room'

theorem step_sends (hc : ManifestsCounted cfg) (h : step cfg s a = some s') (hp : Parsed a)
    (hw : withinFile s a = true) (hs : RangesKept s) {peer : PeerId} {envelope : Envelope}
    (hm : (room, peer, envelope) ∈ s'.notices.drop s.notices.length) {id : TransferId} {ranges : Ranges}
    (hr : rangesOf envelope = some (id, ranges)) :
    (∀ r, s.record? room id = some r → InsideFile r ranges) ∧ (s.record? room id = none → ranges = []) := by
  obtain ⟨room', sc, outbox, hleft⟩ := step_left h
  rw [hleft.notices, drop_left, mem_map] at hm
  obtain ⟨⟨peer', envelope'⟩, hm, he⟩ := hm
  cases he
  exact (ran_kept hc hs hp hw hleft.ran).2 peer envelope hm id ranges hr

end Steps

/-- If the ranges a recipient reports of a raw transfer end inside its file, the
ranges of every record and of every path commit and failure notice are in order
and inside the file, and the sender's plan is not refused. -/
theorem ranges_stay_inside (cfg : Config) (hc : ManifestsCounted cfg) (maxPeersGlobal : Nat)
    (relayOnly : RoomRef → Bool) (s : System)
    (hreach : Reaches (step cfg) (fun s a => Parsed a ∧ withinFile s a = true)
      (initial cfg maxPeersGlobal relayOnly) s) :
    (∀ room id r, s.record? room id = some r → r.mode = .raw → ∃ size, r.entrySize = some size ∧
        Inside (chunkCount size) (knownRanges r) ∧ (planSend (chunkCount size) (knownRanges r)).isSome = true) ∧
      ∀ a s', step cfg s a = some s' → Parsed a → withinFile s a = true →
        ∀ room peer envelope, (room, peer, envelope) ∈ s'.notices.drop s.notices.length →
        ∀ id ranges, rangesOf envelope = some (id, ranges) → (s.record? room id = none → ranges = []) ∧
          ∀ r, s.record? room id = some r → r.mode = .raw → ∃ size, r.entrySize = some size ∧
            Inside (chunkCount size) ranges ∧ (planSend (chunkCount size) ranges).isSome = true := by
  have hkept : RangesKept s := hreach.invariant ⟨fun _ _ _ h => (nomatch h), fun _ _ _ h => nomatch h⟩
    fun t a u ht hok hstep => step_rangesKept hc hstep hok.1 hok.2 ht
  refine ⟨fun room id r hr hm => ?_, fun a s' hstep hp hw room peer envelope hnotice id ranges hranges => ?_⟩
  · obtain ⟨size, hsize, hin⟩ := hkept.rooms room id r hr hm
    exact ⟨size, hsize, hin, planSend_of_inside hin⟩
  · obtain ⟨hsome, hnone⟩ := step_sends hc hstep hp hw hkept hnotice hranges
    refine ⟨hnone, fun r hr hm => ?_⟩
    obtain ⟨size, hsize, hin⟩ := hsome r hr hm
    exact ⟨size, hsize, hin, planSend_of_inside hin⟩

def decoded (ranges : Ranges) : Bool := decide (parseVerifiedRanges ranges = some ranges)

def parsedCheck : Action → Bool
  | .call _ _ (.request req _ _) => req.resume.all (fun d => decoded d.verifiedRanges)
  | .call _ _ (.directReady _ _ _ ranges) => decoded ranges
  | .call _ _ (.directFailed _ _ _ _ ranges) => decoded ranges
  | _ => true

theorem parsed_of_check (a : Action) (h : parsedCheck a = true) : Parsed a := by
  rw [parsedCheck.eq_def] at h
  rw [Parsed.eq_def]
  split at h
  · intro d hd
    rw [hd] at h
    exact ⟨_, of_decide_eq_true h⟩
  · exact ⟨_, of_decide_eq_true h⟩
  · exact ⟨_, of_decide_eq_true h⟩
  · trivial

theorem manifestsCounted_sample : ManifestsCounted sampleConfig := by
  rintro _ _ ⟨⟩ entry he
  cases mem_singleton.mp he
  rfl

def sampleReport (ranges : Ranges) : List Action :=
  [.call 0 0 (.sourceReady 1 100 10 5 (samplePair 1)), .call 0 0 (.directFailed 2 100 10 "timeout" ranges),
    .resume 1 0 .go, .resume 1 0 (.fallback 11 (samplePair 21))]

def fileAndRanges (s : System) : Option (TransferMode × Option Nat × Ranges) :=
  (s.record? 0 100).map (fun r => (r.mode, r.entrySize, knownRanges r))

theorem ranges_stay_inside_report :
    ∃ s r, Reaches (step sampleConfig) (fun s a => Parsed a ∧ withinFile s a = true) sampleStart s ∧
      s.record? 0 100 = some r ∧ knownRanges r = [(0, 1)] ∧
      ∃ size, r.entrySize = some size ∧ Inside (chunkCount size) (knownRanges r) ∧
        (planSend (chunkCount size) (knownRanges r)).isSome = true := by
  obtain ⟨s, hs, ho⟩ : ∃ s, Reaches (step sampleConfig) (fun s a => (parsedCheck a && withinFile s a) = true)
      sampleStart s ∧ fileAndRanges s = some (.raw, some 3, [(0, 1)]) :=
    execWhile_observe (sampleRequest ++ sampleReport [(0, 1)]) fileAndRanges (by decide +kernel)
  have hreach := hs.mono fun _ a h => (Bool.and_eq_true _ _ ▸ h : _ ∧ _).imp_left (parsed_of_check a)
  obtain ⟨r, hr, he⟩ := Option.map_eq_some_iff.mp ho
  have hrec := (ranges_stay_inside sampleConfig manifestsCounted_sample 100 (fun _ => false) s hreach).1
  exact ⟨s, r, hreach, hr, congrArg (·.2.2) he, hrec 0 100 r hr (congrArg Prod.fst he)⟩

/-- A report of a hundred chunks is stored and handed to the source; the plan
of the one chunk there is is refused. -/
theorem ranges_leave_the_file : ∃ s, Reaches (step sampleConfig) (fun _ a => Parsed a) sampleStart s ∧
      fileAndRanges s = some (.raw, some 3, [(0, 100)]) ∧
      (0, 1, .directFailed 100 10 "timeout" [(0, 100)]) ∈ s.notices ∧ planSend (chunkCount 3) [(0, 100)] = none := by
  obtain ⟨s, hs, ho⟩ : ∃ s, Reaches (step sampleConfig) (fun _ a => parsedCheck a = true) sampleStart s ∧
      decide (fileAndRanges s = some (.raw, some 3, [(0, 100)]) ∧
        (0, 1, .directFailed 100 10 "timeout" [(0, 100)]) ∈ s.notices) = true :=
    execWhile_observe (sampleRequest ++ sampleReport [(0, 100)])
      _ (by decide +kernel)
  obtain ⟨hfile, hnotice⟩ := of_decide_eq_true ho
  exact ⟨s, hs.mono fun _ a h => parsed_of_check a h, hfile, hnotice, by decide +kernel⟩

end Bore.RegistryRanges
