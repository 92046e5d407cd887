import Bore.DirectCourse
import Bore.RegistryAttempts
import Bore.RegistryNotices

namespace Bore.RegistryCourses

open List

open RegistryTypes RegistryOps RegistryDirect RegistryRelay RegistryMoves RegistryEffects RegistryAdmission
  RegistryPermits RegistrySystem RegistrySteps RegistrySections RegistryNotices RegistryCapacity RegistryTerminal
  DirectCourse

def stage (r : TransferRecord) (attempt : AttemptId) : Option Stage :=
  if r.attemptId = some attempt then
    match r.state with
    | .requested | .waitingSource => some .waiting
    | .negotiatingDirect _ bits => some (.negotiating bits)
    | .activeDirect => some .direct
    | _ => none
  else match r.upgrade with
    | some up => if up.attemptId = attempt then some (.negotiating up.bits) else none
    | none => none

def pathOf : PeerId × Envelope → Option (TransferId × AttemptId × PathEvent)
  | (peer, .rtc id attempt carrier signal) => some (id, attempt, .signal peer carrier (signalKind signal))
  | (peer, .pathCommit id attempt path _) => if path = "direct" then some (id, attempt, .commit peer) else none
  | (peer, .directFailed id attempt _ _) => some (id, attempt, .failed peer)
  | _ => none

def about (key : RelayKey) (room : RoomRef) : TransferId × AttemptId × PathEvent → Option PathEvent
  | (id, attempt, e) => if (⟨room, id, attempt⟩ : RelayKey) = key then some e else none

def pathLog (key : RelayKey) (s : System) : List PathEvent :=
  s.notices.filterMap (fun (room, sent) => (pathOf sent).bind (about key room))

def FallsBack (attempt : AttemptId) (r r' : TransferRecord) : Prop :=
  r.attemptId = some attempt ∧ (r.state.isNegotiatingDirect = true ∨ r.state = .activeDirect) ∧ r'.state = .waitingRelay

inductive Course (cfg : Config) (a : Action) (reported : RelayKey → PeerId → Prop) (key : RelayKey) :
    Option TransferRecord → List PathEvent → Option TransferRecord → Prop
  | turn {r o' new}
      (h : Turn (iceBudget cfg.limits.directCarriers) (reported key) r.source r.recipient (stage r key.attempt) new
        (o'.bind (stage · key.attempt)))
      (hp : ∀ r', o' = some r' → r'.source = r.source ∧ r'.recipient = r.recipient)
      (hf : ∀ r', o' = some r' → FallsBack key.attempt r r' → ∃ p, .failed p ∈ new) :
      Course cfg a reported key (some r) new o'
  | drawn {o r'} (hd : Action.attemptDraw a = some key.attempt)
      (h : stage r' key.attempt = some .waiting ∨ stage r' key.attempt = some (.negotiating {}))
      (hf : ∀ r, o = some r → ¬ FallsBack key.attempt r r') : Course cfg a reported key o [] (some r')
  | absent {o'} (h : o'.bind (stage · key.attempt) = none) : Course cfg a reported key none [] o'

def Apart (r : TransferRecord) : Prop :=
  ∀ attempt, r.attemptId = some attempt → r.upgrade.map UpgradeState.attemptId ≠ some attempt

def RoomApart (room : Room) : Prop := ∀ id r, room.transfers.get? id = some r → Apart r

section Stages

variable {act : Act} {r r' : TransferRecord} {attempt : AttemptId}

variable {bits : NegotiationBits}

theorem stage_own (ha : r.attemptId = some attempt) {started : Instant}
    (hs : r.state = .negotiatingDirect started bits) : stage r attempt = some (.negotiating bits) := by
  rw [stage, if_pos ha, hs]

variable {up : UpgradeState}

theorem stage_probe (ha : r.attemptId ≠ some attempt) (hu : r.upgrade = some up)
    (he : up.attemptId = attempt) : stage r attempt = some (.negotiating up.bits) := by
  rw [stage, if_neg ha, hu]
  exact if_pos he

theorem stage_none (ha : r.attemptId ≠ some attempt) (hu : r.upgrade.map UpgradeState.attemptId ≠ some attempt) :
    stage r attempt = none := by
  rw [stage, if_neg ha]
  cases h : r.upgrade with
  | none => rfl
  | some =>
    rw [h] at hu
    exact if_neg fun he => hu (congrArg some he)

theorem stage_settled (ha : r.attemptId = some attempt) (hs : r.state = .waitingRelay ∨ r.state.isLive = false) :
    stage r attempt = none := by
  rw [stage, if_pos ha]
  rcases hs with hs | hs
  · rw [hs]
  · cases h : r.state with
    | completed | cancelled | failed => rfl
    | _ => simp [h, TransferState.isLive] at hs

def Act.plain : Act → Bool
  | .signal | .commitDirect | .probe | .commitUpgrade | .fallback _ => false
  | _ => true

theorem plain_of_direct (h : Act.direct act = false) : Act.plain act = true := by
  cases act <;> first | rfl | cases h

theorem stage_move (hm : Move act r r') (hp : Act.plain act = true) (hapart : Apart r) (attempt : AttemptId) :
    stage r' attempt = stage r attempt ∨ stage r' attempt = none ∨
      stage r attempt = some .waiting ∧ stage r' attempt = some (.negotiating {}) ∨ Act.draw act = some attempt ∧
        (stage r' attempt = some .waiting ∨ stage r' attempt = some (.negotiating {})) := by
  cases hm with
  | signal | commitDirect | probe | commitUpgrade | fallback => cases hp
  | resume | carry | grant | release => exact .inl rfl
  | sent hs | activate hs =>
    left
    rw [stage, stage, hs]
  | negotiate _ hs =>
    by_cases ha : r.attemptId = some attempt
    · refine .inr (.inr (.inl ⟨?_, if_pos ha⟩))
      rw [stage, if_pos ha, hs]
    · left
      rw [stage, stage, if_neg ha, if_neg ha]
  | relayOnly =>
    by_cases ha : r.attemptId = some attempt
    · exact .inr (.inl (stage_settled ha (.inl rfl)))
    · left
      rw [stage, stage, if_neg ha, if_neg ha]
  | finish _ _ _ hst =>
    by_cases ha : r.attemptId = some attempt
    · exact .inr (.inl (stage_settled ha (.inr hst)))
    · left
      rw [stage, stage, if_neg ha]
      exact if_neg ha
  | retry a =>
    by_cases hd : a = attempt
    · subst hd
      exact .inr (.inr (.inr ⟨rfl, .inl (if_pos rfl)⟩))
    have hne : ¬ (some a = some attempt) := fun he => hd (Option.some.inj he)
    by_cases ha : r.attemptId = some attempt
    · exact .inr (.inl (stage_none hne (hapart attempt ha)))
    · left
      rw [stage, stage, if_neg ha]
      exact if_neg hne
  | startProbe a =>
    by_cases ha : r.attemptId = some attempt
    · left
      rw [stage, stage, if_pos ha, if_pos ha]
    by_cases hd : a = attempt
    · refine .inr (.inr (.inr ⟨congrArg some hd, .inr ?_⟩))
      rw [stage, if_neg ha]
      exact if_pos hd
    · refine .inr (.inl (stage_none ha ?_))
      exact fun he => hd (Option.some.inj he)
  | clearProbe =>
    by_cases ha : r.attemptId = some attempt
    · left
      rw [stage, stage, if_pos ha, if_pos ha]
    · exact .inr (.inl (stage_none ha nofun))

theorem not_fallsBack_move (hm : Move act r r') (hp : Act.plain act = true) : ¬ FallsBack attempt r r' := by
  rintro ⟨_, hdirect, hw⟩
  have hstate : r.state ≠ .waitingRelay := by
    rintro he
    rw [he] at hdirect
    rcases hdirect with h | h <;> cases h
  cases hm with
  | signal | commitDirect | probe | commitUpgrade | fallback => cases hp
  | relayOnly a p hs =>
    rw [hs] at hdirect
    rcases hdirect with h | h <;> cases h
  | finish _ st _ hst =>
    change st = .waitingRelay at hw
    rw [hw] at hst
    cases hst
  | sent | retry | negotiate | activate => cases hw
  | startProbe | clearProbe | resume | carry | grant | release => exact hstate hw

theorem stage_commitUpgrade (hm : Move .commitUpgrade r r') (hu : r.upgrade = some up) :
    r'.state = .activeDirect ∧ stage r' up.attemptId = some .direct ∧
      ∀ attempt, attempt ≠ up.attemptId → stage r' attempt = none := by
  cases hm with
  | commitUpgrade _ _ _ hu' =>
    cases hu.symm.trans hu'
    exact ⟨rfl, if_pos rfl, fun attempt hne => stage_none (fun he => hne (Option.some.inj he).symm) nofun⟩

theorem stage_setBits (ha : r'.attemptId = r.attemptId)
    (hs : r'.state = r.state) (hu : r.upgrade = some up) (hu' : r'.upgrade = some { up with bits := bits })
    (hne : r.attemptId ≠ some up.attemptId) : stage r' up.attemptId = some (.negotiating bits) ∧
      ∀ attempt, attempt ≠ up.attemptId → stage r' attempt = stage r attempt := by
  refine ⟨stage_probe (ha ▸ hne) hu' rfl, fun attempt hb => ?_⟩
  rw [stage, stage, ha, hs, hu, hu']
  dsimp only
  rw [if_neg hb.symm, if_neg hb.symm]

theorem stage_fallback {draw failed : AttemptId} (hm : Move (.fallback draw) r r') (hapart : Apart r)
    (ha : r.attemptId = some failed) : (∃ st, stage r failed = some st ∧ st ≠ .waiting) ∧ stage r' failed = none ∧
      ∀ attempt, attempt ≠ failed → stage r' attempt = stage r attempt ∨ stage r' attempt = none := by
  cases hm with
  | fallback _ _ _ _ _ hdirect =>
    have hother : ∀ attempt, attempt ≠ draw → ¬ (some draw = some attempt) :=
      fun attempt hb he => hb (Option.some.inj he).symm
    refine ⟨?_, ?_, fun attempt hb => ?_⟩
    · rw [stage, if_pos ha]
      rcases hdirect with hs | hs
      · cases h : r.state with
        | negotiatingDirect => exact ⟨_, rfl, nofun⟩
        | _ => simp [h, TransferState.isNegotiatingDirect] at hs
      · rw [hs]
        exact ⟨_, rfl, nofun⟩
    · by_cases hd : failed = draw
      · exact stage_settled (congrArg some hd.symm) (.inl rfl)
      · exact stage_none (hother failed hd) (hapart failed ha)
    · by_cases hd : attempt = draw
      · exact .inr (stage_settled (congrArg some hd.symm) (.inl rfl))
      · left
        have hne : r.attemptId ≠ some attempt := fun he => hb (Option.some.inj (he.symm.trans ha))
        rw [stage, stage, if_neg hne]
        exact if_neg (hother attempt hd)

end Stages

section Sections

variable {cfg : Config} {a : Action} {reported : RelayKey → PeerId → Prop} {key : RelayKey} {now : Instant}
  {pair : TicketPair} {s sc : Scope} {id : TransferId} {peer : PeerId} {attemptId : AttemptId} {room : RoomRef}
  {outbox : Outbox}

def outboxLog (key : RelayKey) (room : RoomRef) (outbox : Outbox) : List PathEvent :=
  (outbox.filterMap pathOf).filterMap (about key room)

def Courses (cfg : Config) (a : Action) (reported : RelayKey → PeerId → Prop) (room : RoomRef) (s sc : Scope)
    (outbox : Outbox) : Prop :=
  ∀ key : RelayKey, key.room = room →
    Course cfg a reported key (s.record? key.transfer) (outboxLog key room outbox) (sc.record? key.transfer)

def Quiet (outbox : Outbox) : Prop := outbox.filterMap pathOf = []

theorem course_same (o : Option TransferRecord) : Course cfg a reported key o [] o := by
  cases o with
  | none => exact .absent rfl
  | some =>
    refine .turn (.stay _) (fun r' he => ?_) fun r' he hf => ?_
    · cases he
      exact ⟨rfl, rfl⟩
    · cases he
      obtain ⟨_, hdirect, hw⟩ := hf
      rw [hw] at hdirect
      rcases hdirect with h | h <;> cases h

theorem outboxLog_quiet (h : Quiet outbox) : outboxLog key room outbox = [] := by
  rw [outboxLog, h]
  rfl

theorem quiet_of_pathless (h : Pathless outbox) : Quiet outbox := by
  rw [Quiet, filterMap_eq_nil_iff]
  rintro ⟨_, envelope⟩ he
  have hp := all_eq_true.mp h _ he
  cases envelope with
  | rtc | pathCommit | directFailed => cases hp
  | _ => rfl

theorem courses_same (h : sc.room.transfers = s.room.transfers) (hq : Quiet outbox) :
    Courses cfg a reported room s sc outbox := by
  intro key _
  rw [outboxLog_quiet hq, Scope.record?, Scope.record?, h]
  exact course_same _

theorem courses_of_evolves {allowed drawn} (h : Evolves allowed drawn s.room sc.room) (hq : Quiet outbox)
    (hapart : RoomApart s.room)
    (ha : ∀ id r act, allowed id r act → Act.plain act = true ∧ ∀ d, Act.draw act = some d → Action.attemptDraw a = some d)
    (hd : ∀ id d, drawn id d → Action.attemptDraw a = some d) : Courses cfg a reported room s sc outbox := by
  intro key _
  have hc : Change (allowed key.transfer) (drawn key.transfer) (s.record? key.transfer) (sc.record? key.transfer) :=
    h key.transfer
  rw [outboxLog_quiet hq]
  generalize ho : s.record? key.transfer = o at hc
  generalize sc.record? key.transfer = o' at hc
  cases hc with
  | same => exact course_same o
  | @created d r hdrawn hf =>
    by_cases he : d = key.attempt
    · subst he
      refine .drawn (hd _ _ hdrawn) (.inl ?_) fun _ hn => (nomatch hn)
      rw [stage, if_pos hf.attemptId, hf.state]
    refine .absent (stage_none ?_ ?_)
    · rw [hf.attemptId]
      exact fun hn => he (Option.some.inj hn)
    · rw [hf.upgrade]
      nofun
  | collected => exact .turn (.leave _) (fun _ hn => (nomatch hn)) fun _ hn => (nomatch hn)
  | @moved r r' _ hallowed hm =>
    obtain ⟨hplain, hdraw⟩ := ha _ _ _ hallowed
    have hparts : ∀ r'', some r' = some r'' → r''.source = r.source ∧ r''.recipient = r.recipient := by
      rintro _ ⟨⟩
      exact participants_move hm
    have hfall : ∀ r'', some r' = some r'' → ¬ FallsBack key.attempt r r'' := by
      rintro _ ⟨⟩
      exact not_fallsBack_move hm hplain
    have turn {o'' : Option Stage} (he : stage r' key.attempt = o'')
        (ht : Turn (iceBudget cfg.limits.directCarriers) (reported key) r.source r.recipient (stage r key.attempt) []
          o'') : Course cfg a reported key (some r) [] (some r') := by
      subst he
      exact .turn ht hparts fun _ he hf => absurd hf (hfall _ he)
    rcases stage_move hm hplain (hapart _ r ho) key.attempt with he | he | ⟨hw, he⟩ | ⟨hd', he⟩
    · exact turn he (.stay _)
    · exact turn he (.leave _)
    · refine turn he ?_
      rw [hw]
      exact .negotiate
    · exact .drawn (hdraw _ hd') he fun _ hr hf => by
        cases hr
        exact hfall _ rfl hf

structure Writes (s sc : Scope) (id : TransferId) (attempt : AttemptId) (r r' : TransferRecord) (outbox : Outbox)
    (events : List PathEvent) : Prop where
  before : s.record? id = some r
  after : ∀ j, sc.record? j = if j = id then some r' else s.record? j
  participants : r'.source = r.source ∧ r'.recipient = r.recipient
  others : ∀ b, b ≠ attempt → stage r' b = stage r b ∨ stage r' b = none
  sent : outbox.filterMap pathOf = events.map (fun e => (id, attempt, e))
  falls : ∀ b, FallsBack b r r' → b = attempt ∧ ∃ p, .failed p ∈ events

theorem about_self (room : RoomRef) (events : List PathEvent) :
    (events.map (fun e => (id, attemptId, e))).filterMap (about ⟨room, id, attemptId⟩ room) = events := by
  rw [filterMap_map]
  have h : (about ⟨room, id, attemptId⟩ room ∘ fun e => (id, attemptId, e)) = some := by
    funext e
    exact if_pos rfl
  rw [h, filterMap_some]

theorem about_other (h : (⟨room, id, attemptId⟩ : RelayKey) ≠ key) (events : List PathEvent) :
    (events.map (fun e => (id, attemptId, e))).filterMap (about key room) = [] := by
  rw [filterMap_eq_nil_iff]
  intro x hx
  obtain ⟨e, _, rfl⟩ := mem_map.mp hx
  exact if_neg h

theorem courses_of_writes (id : TransferId) (attemptId : AttemptId) (r r' : TransferRecord) (events : List PathEvent)
    (h : Writes s sc id attemptId r r' outbox events)
    (ht : Turn (iceBudget cfg.limits.directCarriers) (reported ⟨room, id, attemptId⟩) r.source r.recipient
      (stage r attemptId) events (stage r' attemptId)) : Courses cfg a reported room s sc outbox := by
  rintro ⟨room', id', attempt'⟩ hroom
  obtain rfl : room' = room := hroom
  rw [h.after, outboxLog, h.sent]
  by_cases hid : id' = id
  · subst hid
    rw [if_pos rfl, h.before]
    have hparts : ∀ r'', some r' = some r'' → r''.source = r.source ∧ r''.recipient = r.recipient := by
      rintro _ ⟨⟩
      exact h.participants
    by_cases hb : attempt' = attemptId
    · subst hb
      rw [about_self]
      refine .turn ht hparts ?_
      rintro _ ⟨⟩ hf
      exact (h.falls _ hf).2
    rw [about_other (by rintro ⟨⟩; exact hb rfl)]
    have hfall : ∀ r'', some r' = some r'' → FallsBack attempt' r r'' → ∃ p, .failed p ∈ ([] : List PathEvent) := by
      rintro _ ⟨⟩ hf
      exact absurd (h.falls _ hf).1 hb
    rcases h.others attempt' hb with he | he
    · refine .turn ?_ hparts hfall
      change Turn _ _ _ _ (stage r attempt') [] (stage r' attempt')
      rw [he]
      exact .stay _
    refine .turn ?_ hparts hfall
    change Turn _ _ _ _ (stage r attempt') [] (stage r' attempt')
    rw [he]
    exact .leave _
  · rw [if_neg hid, about_other (by rintro ⟨⟩; exact hid rfl)]
    exact course_same _

variable {r : TransferRecord}

theorem sideOf_side {isSource : Bool} (h : sideOf r peer = .ok isSource) :
    Side r.source r.recipient isSource ∧ sender r.source r.recipient isSource = peer := by
  rw [sideOf] at h
  split at h
  · rename_i hs
    cases h
    exact ⟨nofun, hs⟩
  rename_i hs
  split at h
  all_goals cases h
  rename_i hr
  exact ⟨fun _ he => hs (he.trans hr), hr⟩

theorem signalTarget_stage {onProbe : Bool} {startedAt : Instant} {bits : NegotiationBits}
    (h : signalTarget r attemptId = .ok (onProbe, startedAt, bits)) (bits' : NegotiationBits) (r' : TransferRecord)
    (hr' : r' = if onProbe then setProbeBits bits' r else { r with state := .negotiatingDirect startedAt bits' }) :
    stage r attemptId = some (.negotiating bits) ∧ stage r' attemptId = some (.negotiating bits') ∧
      (∀ b, b ≠ attemptId → stage r' b = stage r b) ∧ (r'.state = r.state ∨ r'.state.isNegotiatingDirect = true) ∧
      r'.source = r.source ∧ r'.recipient = r.recipient := by
  rw [signalTarget] at h
  split at h
  · rename_i ha
    split at h
    all_goals cases h
    rename_i hs
    rw [if_neg Bool.false_ne_true] at hr'
    subst hr'
    refine ⟨stage_own ha hs, if_pos ha, fun b hb => ?_, .inr rfl, rfl, rfl⟩
    have hne : r.attemptId ≠ some b := fun he => hb (Option.some.inj (he.symm.trans ha))
    rw [stage, stage, if_neg hne, if_neg hne]
  rename_i ha
  split at h
  · rename_i up hu
    split at h
    all_goals cases h
    rename_i he
    subst he
    rw [if_pos rfl, setProbeBits, hu, Option.map_some] at hr'
    have hset : stage r' up.attemptId = some (.negotiating bits') ∧
        ∀ b, b ≠ up.attemptId → stage r' b = stage r b :=
      stage_setBits (by rw [hr']) (by rw [hr']) hu (by rw [hr']) ha
    subst hr'
    exact ⟨stage_probe ha hu rfl, hset.1, hset.2, .inl rfl, rfl, rfl⟩
  · cases h

theorem not_fallsBack_of_state {r' : TransferRecord} {b : AttemptId}
    (h : r'.state = r.state ∨ r'.state.isNegotiatingDirect = true ∨ r'.state = .activeDirect) : ¬ FallsBack b r r' := by
  rintro ⟨_, hdirect, hw⟩
  rcases h with h | h | h
  · rw [← h, hw] at hdirect
    rcases hdirect with h | h <;> cases h
  · rw [hw] at h
    cases h
  · rw [hw] at h
    cases h

theorem forwardRtc_courses (carrier : Nat) (signal : RtcSignal) :
    Courses cfg a reported room s (forwardRtc cfg peer id attemptId carrier signal s).1
      (outboxOf (forwardRtc cfg peer id attemptId carrier signal s).2) := by
  rw [forwardRtc, signalSlot.eq_def]
  cases hr : s.record? id with
  | none => exact courses_same rfl rfl
  | some r =>
    dsimp only
    cases hside : sideOf r peer with
    | error => exact courses_same rfl rfl
    | ok isSource =>
      cases ht : signalTarget r attemptId with
      | error => exact courses_same rfl rfl
      | ok target =>
        obtain ⟨onProbe, startedAt, bits⟩ := target
        dsimp only
        cases happ : applySignal bits isSource carrier (signalKind signal) (iceBudget cfg.limits.directCarriers) with
        | error => exact courses_same rfl rfl
        | ok bits' =>
          obtain ⟨hbefore, hafter, hothers, hstate, hparts⟩ := signalTarget_stage ht bits' _ rfl
          refine courses_of_writes id attemptId r _
            [.signal (receiver r.source r.recipient isSource) carrier (signalKind signal)]
            ⟨hr, record?_update hr _, hparts, fun b hb => .inl (hothers b hb), rfl, fun b hf => ?_⟩ ?_
          · exact absurd hf (not_fallsBack_of_state (hstate.imp_right .inl))
          · rw [hbefore]
            exact (congrArg (Turn _ _ _ _ _ _) hafter).mpr
              (.signal isSource carrier _ bits bits' (sideOf_side hside).1 happ)

theorem upgradeReady_courses (hapart : RoomApart s.room) (ranges : Ranges)
    (hreport : reported ⟨room, id, attemptId⟩ peer) :
    Courses cfg a reported room s (upgradeReady peer id attemptId ranges s).1
      (upgradeOutbox (upgradeReady peer id attemptId ranges s).2) := by
  rw [upgradeReady.eq_def]
  cases hr : s.record? id with
  | none => exact courses_same rfl rfl
  | some r =>
    dsimp only
    cases hu : r.upgrade with
    | none => exact courses_same rfl rfl
    | some up =>
      dsimp only
      split
      · exact courses_same rfl rfl
      rename_i he
      obtain rfl : up.attemptId = attemptId := not_not.mp he
      have hne : r.attemptId ≠ some up.attemptId := fun ha => hapart id r hr _ ha (by rw [hu]; rfl)
      have hbefore := stage_probe hne hu rfl
      split
      · exact courses_same rfl rfl
      rename_i isSource hside
      obtain ⟨hs, hsender⟩ := sideOf_side hside
      rw [← hsender] at hreport
      split
      · exact courses_same rfl rfl
      rename_i bits hm
      split
      · exact courses_same rfl rfl
      rename_i hn
      split
      · rename_i hboth
        generalize (if isSource || ranges.isEmpty then knownRanges r else ranges) = ranges'
        have hmove := commitProbe_move ranges' hu hn
        obtain ⟨hactive, hdirect, hover⟩ := stage_commitUpgrade hmove hu
        refine courses_of_writes id up.attemptId r _ [.commit r.recipient, .commit r.source]
          ⟨hr, record?_install hr _ _, participants_move hmove, fun b hb => .inr (hover b hb), rfl, fun b hf => ?_⟩ ?_
        · exact absurd hf (not_fallsBack_of_state (.inr (.inr hactive)))
        · rw [hbefore, hdirect]
          exact .commit isSource up.bits bits hs hreport hm hboth
      have hset : ∀ r' : TransferRecord, r' = (if !isSource && !ranges.isEmpty then
          setResume ranges (setProbeBits bits r) else setProbeBits bits r) →
          r'.attemptId = r.attemptId ∧ r'.state = r.state ∧ r'.upgrade = some { up with bits := bits } ∧
            r'.source = r.source ∧ r'.recipient = r.recipient := by
        rintro _ rfl
        rw [setProbeBits, hu]
        split <;> exact ⟨rfl, rfl, rfl, rfl, rfl⟩
      obtain ⟨hid, hstate, hup, hparts⟩ := hset _ rfl
      obtain ⟨hprobe, hothers⟩ := stage_setBits hid hstate hu hup hne
      refine courses_of_writes id up.attemptId r _ []
        ⟨hr, record?_update hr _, hparts, fun b hb => .inl (hothers b hb), rfl, fun b hf => ?_⟩ ?_
      · exact absurd hf (not_fallsBack_of_state (.inl hstate))
      · rw [hbefore]
        exact (congrArg (Turn _ _ _ _ _ _) hprobe).mpr (.ready isSource up.bits bits hs hreport hm)

theorem directReady_courses (hreport : reported ⟨room, id, attemptId⟩ peer) :
    Courses cfg a reported room s (directReady peer id attemptId s).1
      (outboxOf (directReady peer id attemptId s).2) := by
  rw [directReady.eq_def]
  cases hr : s.record? id with
  | none => exact courses_same rfl rfl
  | some r =>
    dsimp only
    split
    · exact courses_same rfl rfl
    rename_i isSource hside
    obtain ⟨hs, hsender⟩ := sideOf_side hside
    rw [← hsender] at hreport
    split
    · exact courses_same rfl rfl
    rename_i ha
    have ha : r.attemptId = some attemptId := not_not.mp ha
    split
    · rename_i bits hst
      have hbefore := stage_own ha hst
      have hothers (state : TransferState) (b : AttemptId) (hb : b ≠ attemptId) :
          stage { r with state := state } b = stage r b := by
        have hne : r.attemptId ≠ some b := fun he => hb (Option.some.inj (he.symm.trans ha))
        rw [stage, stage, if_neg hne, if_neg hne]
      split
      · exact courses_same rfl rfl
      rename_i bits' hm
      split
      · rename_i hboth
        refine courses_of_writes id attemptId r _ [.commit r.recipient, .commit r.source]
          ⟨hr, record?_update hr _, ⟨rfl, rfl⟩, fun b hb => .inl (hothers _ b hb), rfl, fun b hf => ?_⟩ ?_
        · exact absurd hf (not_fallsBack_of_state (.inr (.inr rfl)))
        · rw [hbefore, stage, if_pos ha]
          exact .commit isSource bits bits' hs hreport hm hboth
      refine courses_of_writes id attemptId r _ []
        ⟨hr, record?_update hr _, ⟨rfl, rfl⟩, fun b hb => .inl (hothers _ b hb), rfl, fun b hf => ?_⟩ ?_
      · exact absurd hf (not_fallsBack_of_state (.inr (.inl rfl)))
      · rw [hbefore, stage, if_pos ha]
        exact .ready isSource bits bits' hs hreport hm
    · exact courses_same rfl rfl

variable {draw failed : AttemptId} {ranges : Ranges} {cause : FallbackCause} {fallback : FallbackOutcome}

theorem fallbackToRelay_record

    (h : fallbackToRelay cfg now draw pair id failed ranges cause s = (sc, some fallback)) :
    Quiet fallback.outbox ∧ ∃ r r', s.record? id = some r ∧ r.attemptId = some failed ∧ Move (.fallback draw) r r' ∧
      ∀ j, sc.record? j = if j = id then some r' else s.record? j := by
  obtain ⟨r, number, hr, hp, ha, hn, _, hinstall⟩ := fallbackToRelay_some h
  obtain ⟨p, hafter⟩ := installAdmit_record cfg now pair draw number (fallbackRecord draw number failed fallback.ranges) hr
  rw [hinstall] at hafter
  exact ⟨quiet_of_pathless (fallbackToRelay_pathless h), r, _, hr, ha,
    fallbackRecord_move _ p (fallbackPermitted_direct hp) ha hn, hafter⟩

theorem fallbackToRelay_courses (hapart : RoomApart s.room)
    (h : fallbackToRelay cfg now draw pair id failed ranges cause s = (sc, some fallback)) (told : Outbox)
    (peers : List PeerId) (htold : told.filterMap pathOf = peers.map (fun p => (id, failed, .failed p)))
    (hne : peers ≠ []) : Courses cfg a reported room s sc (told ++ fallback.outbox) := by
  obtain ⟨hquiet, r, r', hr, ha, hmove, hafter⟩ := fallbackToRelay_record h
  obtain ⟨⟨st, hst, hwait⟩, hover, hothers⟩ := stage_fallback hmove (hapart id r hr) ha
  refine courses_of_writes id failed r r' (peers.map .failed)
    ⟨hr, hafter, participants_move hmove, hothers, ?_, fun b hf => ?_⟩ ?_
  · rw [filterMap_append, htold, hquiet, append_nil, map_map]
    rfl
  · obtain ⟨x, xs, rfl⟩ := exists_cons_of_ne_nil hne
    exact ⟨Option.some.inj (hf.1.symm.trans ha), x, mem_cons_self⟩
  · rw [hst, hover]
    exact .fail st peers hwait

end Sections

section Steps

variable {cfg : Config} {s s' : System} {a : Action} {reported : RelayKey → PeerId → Prop}

variable {room : RoomRef} {outbox : Outbox}

theorem pathLog_append (key : RelayKey)
    (h : s'.notices = s.notices ++ outbox.map (fun (peer, envelope) => (room, peer, envelope))) :
    pathLog key s' = pathLog key s ++ outboxLog key room outbox := by
  rw [pathLog, h, filterMap_append, filterMap_map, outboxLog, filterMap_filterMap]
  rfl

theorem outboxLog_elsewhere {key : RelayKey} (h : key.room ≠ room) (outbox : Outbox) :
    outboxLog key room outbox = [] := by
  rw [outboxLog, filterMap_eq_nil_iff]
  rintro ⟨id, attempt, e⟩ _
  refine if_neg ?_
  rintro rfl
  exact h rfl

variable (hcall : ∀ room now peer id attempt ranges, a = .call room now (.directReady peer id attempt ranges) →
    reported ⟨room, id, attempt⟩ peer)
  (htail : ∀ i room peer id attempt, s.tasks.get? i = some (.readyTail room peer id attempt) →
    reported ⟨room, id, attempt⟩ peer)
include hcall htail

theorem ran_courses {sc : Scope} (h : Ran cfg s a room sc outbox) (hapart : RoomApart (s.rooms room)) :
    Courses cfg a reported room (s.scope room) sc outbox := by
  cases hn : negotiates s a with
  | false =>
    exact courses_of_evolves (ran_effect h).evolves (quiet_of_pathless (ran_pathless h hn)) hapart
      (fun _ _ _ hact => ⟨plain_of_direct (performed_direct hact hn), fun _ hd => (given_of_performed hact hd).attemptDraw⟩)
      fun _ _ hd => (given_of_drawn hd).attemptDraw
  | true =>
    cases h with
    | still | commit => exact courses_same rfl rfl
    | rtc _ _ _ _ _ carrier signal => exact forwardRtc_courses carrier signal
    | upgradeReady _ _ _ _ _ ranges => exact upgradeReady_courses hapart ranges (hcall _ _ _ _ _ _ rfl)
    | deadline _ _ id _ _ _ _ _ hf =>
      obtain ⟨_, _, r', _, _, _, hafter⟩ := fallbackToRelay_record hf
      rw [(hafter id).trans (if_pos rfl)]
      exact fallbackToRelay_courses hapart hf _ [r'.source, r'.recipient] rfl nofun
    | directReady i _ _ peer id attempt hi => exact directReady_courses (htail i _ peer id attempt hi)
    | fallback _ _ key _ counterpart reason ranges _ _ _ fallback _ hf =>
      exact fallbackToRelay_courses hapart hf
        [(counterpart, .directFailed key.transfer key.attempt reason fallback.ranges)] [counterpart] rfl nofun
    | adopt _ _ key ranges =>
      have hsec : Section cfg [] none _ noDraw (s.scope key.room)
          (adoptLateRecipientResume key.transfer key.attempt ranges (s.scope key.room)) :=
        adoptLateRecipientResume_section ranges
      refine courses_of_evolves hsec.evolves rfl hapart ?_ fun _ _ hf => hf.elim
      rintro _ _ _ rfl
      exact ⟨rfl, fun _ hd => (nomatch hd)⟩
    | _ => simp_all [negotiates]

theorem step_course (h : step cfg s a = some s') (hapart : ∀ room, RoomApart (s.rooms room)) (key : RelayKey) :
    ∃ new, pathLog key s' = pathLog key s ++ new ∧
      Course cfg a reported key (s.record? key.room key.transfer) new (s'.record? key.room key.transfer) := by
  obtain ⟨room, sc, outbox, hleft⟩ := step_left h
  refine ⟨_, pathLog_append key hleft.notices, ?_⟩
  rw [System.record?, System.record?, hleft.rooms]
  by_cases hroom : key.room = room
  · subst hroom
    rw [Function.update_self]
    exact ran_courses hcall htail hleft.ran (hapart _) key rfl
  · rw [Function.update_of_ne hroom, outboxLog_elsewhere hroom]
    exact course_same _

end Steps

end Bore.RegistryCourses
