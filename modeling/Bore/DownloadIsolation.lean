import Bore.DownloadPipe
import Bore.DownloadTurns

namespace Bore.Download

open Frames Option

/-- Where the pump may be after the turns of one that began as `p` in state
`s`: a batch is opened with the key of the state, for the attempt of the state,
and the verdict on a FINAL is begun for the attempt of the state. -/
structure Pumped (s : System) (p : Pump) (s' : System) : Prop extends Quiet s s' where
  running : ∀ q, s'.running = some q → s.running = some q ∨ q.attempt = p.attempt ∧
    (∀ aesKey batch, q.point = .opening aesKey batch →
      s.live = true ∧ s.transfer.inbox ≠ [] ∧ p.attempt = s.transfer.attemptId ∧ aesKey = s.transfer.aesKey) ∧
    (q.point.checksFinal = true → p.point.checksFinal = true ∨ p.attempt = s.transfer.attemptId)

namespace Pumped

theorem of_turn {s s' : System} {p : Pump} (h : Turn s p s') : Pumped s p s' := by
  refine ⟨h.mild.toQuiet, fun q hq => .inr ?_⟩
  obtain ⟨hat, hn⟩ := h.running hq
  exact ⟨hat, fun aesKey batch he => absurd he (hn.opens aesKey batch), hn.checksFinal⟩

theorem nextBatch (s : System) (p : Pump) : Pumped s p (s.nextBatch p) := by
  rw [System.nextBatch]
  split
  · exact ⟨(Mild.returns s p).toQuiet, nofun⟩
  rename_i hc
  simp only [not_or, Bool.not_eq_true', Bool.not_eq_false] at hc
  obtain ⟨hinbox, hlive, hstale⟩ := hc
  refine ⟨{ Quiet.refl s with inbox := fun he => absurd he hinbox }, ?_⟩
  rintro _ ⟨⟩
  refine .inr ⟨rfl, fun aesKey batch he => ?_, nofun⟩
  cases he
  exact ⟨hlive, hinbox, attempt_of_not_stale (by simpa using hstale), rfl⟩

theorem written (hash : Hash) (s : System) (p : Pump) (goal : Goal) (chunk : Bytes) (index : Nat) :
    Pumped s p (s.written hash p goal chunk index) := by
  rw [System.written]
  split
  all_goals
    refine ⟨{ Quiet.refl s with }, ?_⟩
    rintro _ ⟨⟩
    exact .inr ⟨rfl, nofun, nofun⟩

theorem advance (hash : Hash) (s : System) (p : Pump) : Pumped s p (s.advance hash p) := by
  by_cases hwrite : ∃ goal chunk index, p.point = .writing goal chunk index
  · obtain ⟨goal, chunk, index, hpt⟩ := hwrite
    rw [System.advance, hpt]
    exact written hash s p goal chunk index
  by_cases hhead : p.point = .consuming ∧ p.rest = []
  · rw [advance_of_consumed hash s hhead]
    exact nextBatch s p
  · exact of_turn (.of_advance hash s p (fun goal chunk index hpt => hwrite ⟨goal, chunk, index, hpt⟩) hhead)

end Pumped

def System.attemptOf (s : System) : Action → Option (Option AttemptId)
  | .pump =>
    match s.running, s.chain with
    | some p, _ => some p.attempt
    | none, .drain attempt :: _ => some (some attempt)
    | none, .relayClosed attempt :: _ => some attempt
    | none, .pump :: _ => none
    | none, [] => none
  | .pumpFails => s.running.map Pump.attempt
  | .derive id _ => (s.derivations.get? id).map Derivation.attempt
  | .deriveFails id => (s.derivations.get? id).map Derivation.attempt
  | .directFrame attemptId _ _ => some (some attemptId)
  | .relayFrame attempt _ _ => some attempt
  | .directFailed attemptId => some (some attemptId)
  | .relayClosed attempt => some attempt
  | _ => none

/-- The record, the derivations and the running pump belong to the attempts
they were started for. -/
structure Isolated (s : System) : Prop where
  derivations : ∀ id d, s.derivations.get? id = some d →
    d.attempt = s.transfer.attemptId ∧ (d.importing = true → d.attempt.isSome = true)
  aesKey : s.transfer.aesKey = none ∨ s.transfer.aesKey = s.transfer.attemptId
  keyless : s.live = true → s.transfer.aesKey = none → s.transfer.inbox = [] ∧ s.transfer.reorder = ∅
  unnamed : s.live = true → s.transfer.attemptId = none → s.transfer.pendingFrames = []
  opening : ∀ p aesKey batch, s.running = some p → p.point = .opening aesKey batch →
    aesKey = p.attempt ∧ p.attempt.isSome = true
  checksFinal : ∀ p, s.running = some p → p.point.checksFinal = true → p.attempt = s.transfer.attemptId

/-- Nothing that was started for an earlier attempt can reach into this one: no
derivation is left, and no job and no pump of an earlier attempt of this name,
nor one that is past the checks of its FINAL. -/
def System.vacant (s : System) (attempt : AttemptId) : Bool :=
  s.derivations.entries.isEmpty &&
    s.chain.all (fun job => job ≠ .drain attempt && job ≠ .relayClosed (some attempt)) &&
    s.running.all (fun p => p.attempt ≠ some attempt && !p.point.checksFinal)

/-- The side condition of a step: an attempt begins when it is vacant, and a
relay path is committed and read for the attempt of its ticket. -/
def keepsAttempts (s : System) (a : Action) : Bool :=
  !s.live ||
    match a with
    | .beginDirect attemptId _ => s.vacant attemptId
    | .relayTicket (some attemptId) => s.transfer.attemptId = some attemptId || s.vacant attemptId
    | .commitDirect attemptId _ => s.transfer.upgrade.map Prod.fst ≠ some attemptId || s.vacant attemptId
    | .commitRelay attemptId _ => s.transfer.attemptId = some attemptId
    | .relayFrame attempt _ _ => attempt.isSome
    | _ => true

structure Cleared (t : Transfer) : Prop where
  aesKey : t.aesKey = none
  pendingFrames : t.pendingFrames = []
  inbox : t.inbox = []
  reorder : t.reorder = ∅

/-- A step keeps attempts apart: the next state is isolated, and an attempt
begins with nothing of the one before. -/
structure Succeeds (s s' : System) : Prop where
  isolated : Isolated s'
  begins : s'.transfer.attemptId = s.transfer.attemptId ∨ Cleared s'.transfer

section Isolated

variable {s s' : System} {p : Pump}

theorem isolated_quiet (h : Isolated s) (hq : Quiet s s') (hr : s'.running = s.running) : Isolated s' := by
  refine ⟨fun id d hd => ?_, ?_, fun hl hk => ?_, fun hl ha => ?_, fun p aesKey batch hp => ?_, fun p hp => ?_⟩
  · rw [hq.attemptId]
    exact h.derivations id d (hq.derivations id d hd)
  · rcases hq.aesKey with hk | hk
    · rw [hk, hq.attemptId]
      exact h.aesKey
    · exact .inl hk.1
  · rcases hq.aesKey with hk' | ⟨_, hl'⟩
    · obtain ⟨hi, hr⟩ := h.keyless (hq.live hl) (hk' ▸ hk)
      exact ⟨hq.inbox hi, hq.reorder hr⟩
    · rw [hl] at hl'
      cases hl'
  · exact hq.pendingFrames (h.unnamed (hq.live hl) (hq.attemptId ▸ ha))
  · exact h.opening p aesKey batch (hr ▸ hp)
  · rw [hq.attemptId]
    exact h.checksFinal p (hr ▸ hp)

theorem succeeds_quiet (h : Isolated s) (hq : Quiet s s') (hr : s'.running = s.running) : Succeeds s s' :=
  ⟨isolated_quiet h hq hr, .inl hq.attemptId⟩

theorem succeeds_pumped (h : Isolated s) (hp : Pumped s p s') (hr : s.running = some p ∨ p.point = .consuming) :
    Succeeds s s' := by
  have hq : Isolated { s' with running := s.running } :=
    isolated_quiet h { hp.toQuiet with } rfl
  refine ⟨⟨hq.derivations, hq.aesKey, hq.keyless, hq.unnamed, fun q aesKey batch hrun hpt => ?_, fun q hrun hpt => ?_⟩,
    .inl hp.attemptId⟩
  · rcases hp.running q hrun with hold | ⟨hat, hopen, _⟩
    · exact h.opening q aesKey batch hold hpt
    · obtain ⟨hl, hi, ha, hk⟩ := hopen aesKey batch hpt
      have hsome : s.transfer.aesKey ≠ none := fun hn => hi (h.keyless hl hn).1
      have hcur := h.aesKey.resolve_left hsome
      rw [hat, ha, hk]
      exact ⟨hcur, hcur ▸ isSome_iff_ne_none.mpr hsome⟩
  · rw [hp.attemptId]
    rcases hp.running q hrun with hold | ⟨hat, _, hfinal⟩
    · exact h.checksFinal q hold hpt
    rw [hat]
    rcases hfinal hpt with hold | hcur
    · rcases hr with hr | hr
      · exact h.checksFinal p hr hold
      · rw [hr] at hold
        cases hold
    · exact hcur

theorem isolated_deriveAttemptKey (h : Isolated s) : Isolated s.deriveAttemptKey := by
  refine ⟨fun id d hd => ?_, h.aesKey, h.keyless, h.unnamed, h.opening, h.checksFinal⟩
  rw [System.deriveAttemptKey, Table.get?_insert] at hd
  split at hd
  · cases hd
    exact ⟨rfl, (by simp)⟩
  · exact h.derivations id d hd

variable {attempt : AttemptId} {t : Transfer}

theorem isolated_adopted (h : Isolated s) (hv : s.vacant attempt = true)
    (ha : t.attemptId = some attempt) (hc : Cleared t) : Isolated (s.setTransfer t) := by
  simp only [System.vacant, Bool.and_eq_true, List.isEmpty_iff] at hv
  obtain ⟨⟨hd, _⟩, hrun⟩ := hv
  refine ⟨fun id d hget => ?_, .inl hc.aesKey, fun _ _ => ⟨hc.inbox, hc.reorder⟩, fun _ hn => ?_, h.opening,
    fun p hp hpt => ?_⟩
  · have hmem := (s.derivations.get?_eq_some_iff id d).mp hget
    rw [hd] at hmem
    cases hmem
  · change t.attemptId = none at hn
    rw [ha] at hn
    cases hn
  · change s.running = some p at hp
    simp [hp, hpt] at hrun

theorem cleared_adoptAttempt (t : Transfer) (attempt : AttemptId) : Cleared (t.adoptAttempt attempt) :=
  ⟨rfl, rfl, rfl, rfl⟩

theorem isolated_openRelay (h : Isolated s) : Isolated s.openRelay := by
  rw [System.openRelay]
  split
  · refine isolated_deriveAttemptKey ?_
    exact isolated_quiet h { Quiet.refl s with } rfl
  · exact h

theorem transfer_openRelay (s : System) : ∃ state, s.openRelay.transfer = { s.transfer with state := state } := by
  rw [System.openRelay]
  split
  · exact ⟨.ticketed, rfl⟩
  · exact ⟨s.transfer.state, rfl⟩

theorem succeeds_openRelay (h : Isolated (s.setTransfer t))
    (hb : t.attemptId = s.transfer.attemptId ∨ Cleared t) : Succeeds s (s.setTransfer t).openRelay := by
  obtain ⟨state, he⟩ := transfer_openRelay (s.setTransfer t)
  refine ⟨isolated_openRelay h, ?_⟩
  rw [he]
  exact hb.imp id fun hc => { hc with }

theorem keyless_deliverFrame (s : System) (data : Message) (stalled : Bool) (hk : s.transfer.aesKey = none) :
    (s.deliverFrame data stalled).transfer.inbox = s.transfer.inbox ∧
      (s.deliverFrame data stalled).transfer.reorder = s.transfer.reorder := by
  rw [System.deliverFrame, hk]
  split
  · exact ⟨rfl, rfl⟩
  · exact ⟨rfl, rfl⟩

theorem isolated_deliverFrame (h : Isolated s) (ha : s.transfer.attemptId ≠ none) (data : Message) (stalled : Bool) :
    Isolated (s.deliverFrame data stalled) ∧
      (s.deliverFrame data stalled).transfer.attemptId = s.transfer.attemptId := by
  have hkeyless := keyless_deliverFrame s data stalled
  obtain ⟨pendingFrames, inbox, reorder, next, pumping, chain, he⟩ := s.deliverFrame_eq data stalled
  rw [he] at hkeyless ⊢
  refine ⟨⟨h.derivations, h.aesKey, fun hl hk => ?_, fun _ hn => absurd hn ha, h.opening, h.checksFinal⟩, rfl⟩
  obtain ⟨hi, hr⟩ := h.keyless hl hk
  exact ⟨(hkeyless hk).1.trans hi, (hkeyless hk).2.trans hr⟩

theorem isolated_delivered (frames : List Message) (h : Isolated s) (ha : s.transfer.attemptId ≠ none) (stalled : Bool) :
    Isolated (frames.foldl (fun s data => s.deliverFrame data stalled) s) ∧
      (frames.foldl (fun s data => s.deliverFrame data stalled) s).transfer.attemptId = s.transfer.attemptId := by
  induction frames generalizing s with
  | nil => exact ⟨h, rfl⟩
  | cons data _ ih =>
    obtain ⟨hi, he⟩ := isolated_deliverFrame h ha data stalled
    obtain ⟨hi', he'⟩ := ih hi (he ▸ ha)
    exact ⟨hi', he'.trans he⟩

theorem succeeds_delivered (h : Isolated s) (ha : s.transfer.attemptId ≠ none) (data : Message) (stalled : Bool) :
    Succeeds s (s.deliverFrame data stalled) :=
  ⟨(isolated_deliverFrame h ha data stalled).1, .inl (isolated_deliverFrame h ha data stalled).2⟩

theorem succeeds_installKey (h : Isolated s) {id : Nat} {d : Derivation} (hd : s.derivations.get? id = some d)
    (hi : d.importing = true) (stalled : Bool) :
    Succeeds s ({ s with derivations := s.derivations.erase id }.installKey d.attempt stalled) := by
  obtain ⟨hcur, hsome⟩ := h.derivations id d hd
  have ha : s.transfer.attemptId ≠ none := isSome_iff_ne_none.mp (hcur ▸ hsome hi)
  have hset : Isolated { s with
      derivations := s.derivations.erase id
      transfer := { s.transfer with aesKey := d.attempt, pendingFrames := [] } } := by
    refine ⟨fun other e he => ?_, .inr hcur, fun _ hk => ?_, fun _ hn => absurd hn ha, h.opening, h.checksFinal⟩
    · exact h.derivations other e (Table.get?_of_erase he)
    · exact absurd (hcur.symm.trans hk) ha
  rw [System.installKey]
  split
  · obtain ⟨hi', he'⟩ := isolated_delivered s.transfer.pendingFrames hset ha stalled
    exact ⟨hi', .inl he'⟩
  · exact ⟨hset, .inl rfl⟩

theorem succeeds_beginDirect (h : Isolated s) (hv : s.live = true → s.vacant attempt = true)
    (carriers : Nat) : Succeeds s (s.beginDirect attempt carriers) := by
  rw [System.beginDirect]
  split
  · exact succeeds_quiet h (.refl s) rfl
  rename_i hc
  obtain ⟨hlive, _⟩ := not_or.mp hc
  have hcleared := cleared_adoptAttempt s.transfer attempt
  refine ⟨isolated_deriveAttemptKey (isolated_adopted h (hv (by simpa using hlive)) rfl ?_), .inr ?_⟩ <;>
    exact { hcleared with }

theorem succeeds_relayTicket (h : Isolated s) {ticket : Option AttemptId}
    (hv : s.live = true → ∀ attempt, ticket = some attempt →
      s.transfer.attemptId = some attempt ∨ s.vacant attempt = true) : Succeeds s (s.relayTicket ticket) := by
  have same : Succeeds s s.openRelay := succeeds_openRelay (t := s.transfer) h (.inl rfl)
  rw [System.relayTicket.eq_def]
  dsimp only
  split
  · exact succeeds_quiet h (.refl s) rfl
  rename_i hlive
  rw [Bool.not_eq_true', Bool.not_eq_false] at hlive
  cases hcur : s.transfer.attemptId with
  | none =>
    -- The first attempt of the download takes the queues as they are.
    have hk : s.transfer.aesKey = none := h.aesKey.elim id fun he => he.trans hcur
    obtain ⟨hi, hr⟩ := h.keyless hlive hk
    have hc : Cleared { s.transfer with attemptId := ticket } := ⟨hk, h.unnamed hlive hcur, hi, hr⟩
    refine succeeds_openRelay ?_ (.inr hc)
    cases ticket with
    | none => exact isolated_quiet h { Quiet.refl s with attemptId := hcur.symm } rfl
    | some attempt =>
      refine isolated_adopted h ((hv hlive attempt rfl).resolve_left ?_) rfl hc
      rw [hcur]
      exact nofun
  | some =>
    cases ticket with
    | none => exact same
    | some next =>
      dsimp only
      split
      · exact same
      rename_i hne
      split
      · exact succeeds_quiet h (.refl s) rfl
      have hcleared := cleared_adoptAttempt s.transfer next
      have hc : Cleared { s.transfer.adoptAttempt next with state := .requested } :=
        { hcleared with }
      refine succeeds_openRelay (isolated_adopted h ((hv hlive next rfl).resolve_left ?_) rfl hc) (.inr hc)
      rw [hcur]
      exact fun he => hne (some.inj he)

theorem succeeds_commitDirect (h : Isolated s) (ranges : List Range)
    (hv : s.live = true → s.transfer.upgrade.map Prod.fst = some attempt → s.vacant attempt = true) :
    Succeeds s (s.commitDirect attempt ranges) := by
  have current : Succeeds s (s.commitCurrent attempt ranges) := by
    rw [System.commitCurrent]
    split
    · exact succeeds_quiet h (.refl s) rfl
    · exact succeeds_quiet h { Quiet.refl s with } rfl
  rw [System.commitDirect.eq_def]
  split
  · exact succeeds_quiet h (.refl s) rfl
  rename_i hlive
  rw [Bool.not_eq_true', Bool.not_eq_false] at hlive
  split
  · rename_i next _ hup
    split
    · rename_i he
      subst he
      have hcleared := cleared_adoptAttempt s.transfer next
      refine ⟨isolated_deriveAttemptKey (isolated_adopted h (hv hlive (by rw [hup]; rfl)) rfl ?_), .inr ?_⟩ <;>
        exact { hcleared with }
    · exact current
  · exact current

theorem succeeds_commitRelay (h : Isolated s) (ranges : List Range)
    (ha : s.live = true → s.transfer.attemptId = some attempt) : Succeeds s (s.commitRelay attempt ranges) := by
  rw [System.commitRelay]
  split
  · exact succeeds_quiet h (.refl s) rfl
  · rename_i hlive
    rw [Bool.not_eq_true', Bool.not_eq_false] at hlive
    exact succeeds_quiet h { Quiet.refl s with attemptId := (ha hlive).symm } rfl

theorem succeeds_startJob (h : Isolated s) (job : Job) : Succeeds s (s.startJob job) := by
  cases job with
  | pump => exact succeeds_pumped h (.nextBatch s _) (.inr rfl)
  | drain attempt => exact succeeds_quiet h (Mild.closeDirect s attempt).toQuiet (running_closeDirect s attempt)
  | relayClosed attempt => exact succeeds_quiet h (Mild.relayCheck s attempt).toQuiet (running_relayCheck s attempt)

variable {hash : Hash} {a : Action}

theorem succeeds_step (h : Isolated s) (hok : keepsAttempts s a = true)
    (hs : step hash s a = some s') : Succeeds s s' := by
  have still : Succeeds s s := succeeds_quiet h (.refl s) rfl
  have named : ∀ attempt : AttemptId, s.transfer.attemptId = some attempt → s.transfer.attemptId ≠ none :=
    fun attempt he hn => by rw [hn] at he; cases he
  by_cases hm : a.mild = true
  · exact succeeds_quiet h (mild_of_step hm hs).1.toQuiet (mild_of_step hm hs).2
  revert hs
  fun_cases step hash s a
  all_goals rintro ⟨⟩
  case case1 p hrun => exact succeeds_pumped h (.advance hash s p) (.inl hrun)
  case case2 job chain _ hrun =>
    have hq : Isolated { s with running := none, chain := chain } :=
      isolated_quiet h { Quiet.refl s with } hrun.symm
    rw [← hrun] at hq
    exact ⟨(succeeds_startJob hq job).isolated, (succeeds_startJob hq job).begins⟩
  case case4 p hrun _ _ _ _ | case5 p hrun _ _ =>
    exact succeeds_pumped h ⟨(Mild.throws s p).toQuiet, (by rintro _ ⟨⟩)⟩ (.inl hrun)
  case case9 stalled d hd hi => exact succeeds_installKey h hd hi stalled
  case case11 id _ _ _ _ _ _ => exact succeeds_quiet h (Mild.erase s id).toQuiet rfl
  case case12 id _ d hd _ hsome _ =>
    refine ⟨⟨fun other e he => ?_, h.aesKey, h.keyless, h.unnamed, h.opening, h.checksFinal⟩, .inl rfl⟩
    rw [Table.get?_insert] at he
    split at he
    · cases he
      exact ⟨(h.derivations id d hd).1, fun _ => by simpa [isSome_iff_ne_none] using hsome⟩
    · exact h.derivations other e he
  case case15 carriers => exact succeeds_beginDirect h (fun hl => by simpa [keepsAttempts, hl] using hok) carriers
  case case18 attempt data stalled =>
    rw [System.deliverDirectFrame]
    split
    · exact still
    · rename_i hc
      simp only [ne_eq, not_or, Decidable.not_not] at hc
      exact succeeds_delivered h (named attempt hc.2.1) data stalled
  case case19 data stalled =>
    rw [System.deliverRelayFrame]
    split
    · exact still
    rename_i hc
    simp only [ne_eq, not_or, Decidable.not_not, Bool.not_eq_true', Bool.not_eq_false] at hc
    refine succeeds_delivered h ?_ data stalled
    rw [hc.2]
    exact isSome_iff_ne_none.mp (by simpa [keepsAttempts, hc.1] using hok)
  case case25 =>
    refine succeeds_relayTicket h fun hl attempt he => ?_
    subst he
    simpa [keepsAttempts, hl] using hok
  case case26 ranges => exact succeeds_commitDirect h ranges fun hl hup => by simpa [keepsAttempts, hl, hup] using hok
  case case27 ranges => exact succeeds_commitRelay h ranges fun hl => by simpa [keepsAttempts, hl] using hok
  all_goals exact absurd rfl hm

theorem isolated_startDownload (archive : Bool) (entry : Entry) (stored : Stored) :
    Isolated (startDownload archive entry stored) := by
  rw [startDownload]
  refine ⟨nofun, .inl ?_, fun _ _ => ?_, fun _ _ => ?_, nofun, nofun⟩
  all_goals cases archive <;> simp

/-- What is done for an attempt that is not current reaches the part files, the
running pump and the jobs that wait, and nothing else. -/
theorem stale_step (h : Isolated s) (hs : step hash s a = some s')
    {attempt : Option AttemptId} (ho : s.attemptOf a = some attempt) (hne : attempt ≠ s.transfer.attemptId) :
    ∃ parts running chain, s' = { s with parts := parts, running := running, chain := chain } := by
  have stale : ∀ x : Option AttemptId, x ≠ s.transfer.attemptId → s.transfer.stale x = true := by
    intro x hx
    simp only [Transfer.stale, Bool.or_eq_true, decide_eq_true_eq]
    exact .inr hx.symm
  have derived : ∀ id d, s.derivations.get? id = some d → (s.derivations.get? id).map Derivation.attempt ≠ some attempt := by
    intro id d hget hd
    rw [hget] at hd
    cases hd
    exact hne (h.derivations id d hget).1
  revert hs
  fun_cases step hash s a
  all_goals rintro ⟨⟩
  case case1 p hrun =>
    simp only [System.attemptOf, hrun, some.injEq] at ho
    subst ho
    have hpt : p.point.checksFinal = false := by
      by_contra hpt
      exact hne (h.checksFinal p hrun (Bool.eq_true_of_not_eq_false hpt))
    obtain ⟨parts, running, he, _⟩ := advance_of_stale hash (stale p.attempt hne) hpt
    exact ⟨parts, running, s.chain, he⟩
  case case2 job chain hchain hrun =>
    simp only [System.attemptOf, hrun, hchain] at ho
    refine ⟨s.parts, s.running, chain, ?_⟩
    cases job with
    | pump => cases ho
    | drain =>
      cases ho
      rw [System.startJob, System.closeDirect, if_pos (.inr (.inl hne.symm))]
    | relayClosed =>
      cases ho
      rw [System.startJob, System.relayCheck, if_pos (.inr (.inl hne.symm))]
  case case4 p hrun _ _ _ _ | case5 p hrun _ _ =>
    simp only [System.attemptOf, hrun, map_some, some.injEq] at ho
    subst ho
    exact ⟨s.parts, none, s.chain, throws_of_stale (stale p.attempt hne)⟩
  case case9 hd _ | case11 hd _ _ _ | case12 hd _ _ _ | case14 hd => exact absurd ho (derived _ _ hd)
  case case23 hc =>
    cases ho
    exact absurd hc.2.symm hne
  all_goals cases ho
  case case18.refl =>
    refine ⟨s.parts, s.running, s.chain, ?_⟩
    rw [System.deliverDirectFrame, if_pos (.inr (.inl hne.symm))]
  case case19.refl =>
    refine ⟨s.parts, s.running, s.chain, ?_⟩
    rw [System.deliverRelayFrame, if_pos (.inr hne.symm)]
  case case20.refl =>
    refine ⟨s.parts, s.running, s.chain, ?_⟩
    rw [System.directFailed, if_pos (.inr hne.symm)]

end Isolated

end Bore.Download
