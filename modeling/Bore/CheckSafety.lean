import Bore.CheckRound

namespace Bore.CheckRound

open CheckFrames Round Runs List
open WireBytes (Bytes)

variable (cfg : CheckConfig) (peers : List SocketAddr)

/-- A frame of this round and of the other role came from the address. -/
def Heard (heard : List (SocketAddr × Bytes)) (addr : SocketAddr) (f : Frame) : Prop :=
  ∃ buf, (addr, buf) ∈ heard ∧ parse cfg.mac buf = some f ∧ cfg.admits f = true

def Asked (heard : List (SocketAddr × Bytes)) (addr : SocketAddr) : Prop :=
  ∃ f, Heard cfg heard addr f ∧ f.kind = kindRequest

/-- The address answered a request that was sent to exactly it. -/
def Answered (heard : List (SocketAddr × Bytes)) (sent : List (SocketAddr × Frame)) (addr : SocketAddr) : Prop :=
  ∃ f, Heard cfg heard addr f ∧ f.kind = kindResponse ∧ (addr, cfg.requestFrame f.txid) ∈ sent

/-- The source whose announcement the driver is working on. -/
def Driver.src : Driver → Option SocketAddr
  | .requesting _ src | .sending _ _ src => src
  | .handing src => some src
  | _ => none

def Round.responses (s : Round) : Nat := s.sent.countP (fun e => e.2.kind = kindResponse)

def Actor.inFlight : Actor → Nat
  | .replying _ _ => 1
  | _ => 0

/-- Who is a target and why, who is told what, and which transactions can be
answered by whom. -/
structure Sound (s : Round) : Prop where
  size : s.targets.length ≤ maxUdpCandidates
  known : ∀ a ∈ s.targets, a ∈ sanitizeCandidates peers ∨ Asked cfg s.heard a
  order : ∀ a ∈ s.probeOrder, a ∈ s.targets
  inbound : ∀ a ∈ s.inbound, Asked cfg s.heard a
  requesting : ∀ target src, s.driver = .requesting target src → target ∈ s.targets
  sending : ∀ txid target src, s.driver = .sending txid target src → target ∈ s.targets ∧ txid ∈ s.drawn ∧
    (∀ b, (b, cfg.requestFrame txid) ∉ s.sent) ∧
    ∀ state a, s.checks = some state → state.pending.get? txid = some a → a = target
  source : ∀ a, s.driver.src = some a → Asked cfg s.heard a
  replying : ∀ f dest, s.actor = .replying f dest → f.kind = kindResponse ∧ Asked cfg s.heard dest
  announcing : ∀ a, s.actor = .announcing a → Asked cfg s.heard a
  sent : ∀ a f, (a, f) ∈ s.sent → f.kind = kindRequest ∧ a ∈ s.targets ∨ f.kind = kindResponse ∧ Asked cfg s.heard a
  sentDrawn : ∀ a txid, (a, cfg.requestFrame txid) ∈ s.sent → txid ∈ s.drawn
  drawnBuilt : ∀ txid ∈ s.drawn, ∃ f ∈ s.built, f.txid = txid
  pending : ∀ state txid a, s.checks = some state → state.pending.get? txid = some a →
    txid ∈ s.drawn ∧ a ∈ s.targets ∧ ∀ b, (b, cfg.requestFrame txid) ∈ s.sent → b = a
  built : ∀ f ∈ s.built, (f.kind = kindRequest ∨ f.kind = kindResponse) ∧ (f.role ≠ cfg.role.byte → f.txid ∈ s.drawn →
    ∃ target, (target, cfg.requestFrame f.txid) ∈ s.sent)
  validated : ∀ p ∈ s.validated, p.1 ∈ s.targets ∧ Answered cfg s.heard s.sent p.1
  nominated : ∀ a, s.nominated = some a →
    a ∈ s.targets ∧ Answered cfg s.heard s.sent a ∨ cfg.role = .listener ∧ Asked cfg s.heard a
  capped : s.responses + s.actor.inFlight ≤ checkMaxResponses
  counted : ∀ state, s.checks = some state → s.responses + s.actor.inFlight ≤ state.responsesSent

theorem sound_start : Sound cfg peers (start cfg peers) := by
  constructor
  case size => exact length_sanitizeCandidates peers
  case known => exact fun _ => .inl
  case pending => rintro _ _ _ ⟨⟩ ⟨⟩
  case counted => exact fun _ _ => Nat.zero_le _
  all_goals simp [start, Driver.src, Round.responses, Actor.inFlight]

variable {cfg} {peers}
variable {s s' : Round}
variable {f : Frame} {buf : Bytes} {state : CheckState} {source : SocketAddr}

section Driver

variable {a : SocketAddr}

theorem mem_joinOrder {targets group order : List SocketAddr} (h : a ∈ joinOrder targets group order) :
    a ∈ order ∨ a ∈ targets := by
  induction group generalizing order with
  | nil => exact .inl h
  | cons _ _ ih =>
    rw [joinOrder, foldl_cons] at h
    rcases ih h with h | h
    · split at h
      · rename_i hc
        rcases mem_append.mp h with h | h
        · exact .inl h
        · rw [mem_singleton.mp h]
          exact .inr (contains_iff_mem.mp (Bool.and_eq_true_iff.mp hc).1)
      · exact .inl h
    · exact .inr h

theorem mem_joinOrders {targets : List SocketAddr} {groups : List (List SocketAddr)} {order : List SocketAddr}
    (h : a ∈ groups.foldl (fun order group => joinOrder targets group order) order) : a ∈ order ∨ a ∈ targets := by
  induction groups generalizing order with
  | nil => exact .inl h
  | cons _ _ ih =>
    exact (ih h).elim mem_joinOrder .inr

theorem mem_activate {active : Nat} (h : a ∈ (s.activate active).probeOrder) : a ∈ s.probeOrder ∨ a ∈ s.targets := by
  simp only [Round.activate] at h
  split at h
  · exact (mem_joinOrder h).elim mem_joinOrders .inr
  · exact mem_joinOrders h

theorem requestFrame_inj {t u : Txid} : cfg.requestFrame t = cfg.requestFrame u ↔ t = u := by
  refine ⟨congrArg Frame.txid, ?_⟩
  rintro rfl
  rfl

theorem requestFrame_kind (txid : Txid) : (cfg.requestFrame txid).kind = kindRequest := rfl

theorem Asked.cons {heard : List (SocketAddr × Bytes)} (h : Asked cfg heard a) (e : SocketAddr × Bytes) :
    Asked cfg (e :: heard) a := by
  obtain ⟨f, ⟨buf, hm, hp⟩, hk⟩ := h
  exact ⟨f, ⟨buf, mem_cons_of_mem e hm, hp⟩, hk⟩

theorem Answered.mono {heard heard' : List (SocketAddr × Bytes)} {sent sent' : List (SocketAddr × Frame)}
    (h : Answered cfg heard sent a) (hh : heard ⊆ heard') (hs : sent ⊆ sent') : Answered cfg heard' sent' a := by
  obtain ⟨f, ⟨buf, hm, hp⟩, hk, hf⟩ := h
  exact ⟨f, ⟨buf, hh hm, hp⟩, hk, hs hf⟩

theorem Answered.send {heard : List (SocketAddr × Bytes)} {sent : List (SocketAddr × Frame)}
    (h : Answered cfg heard sent a) (e : SocketAddr × Frame) : Answered cfg heard (e :: sent) a :=
  h.mono (Subset.refl _) (subset_cons_self e sent)

theorem Answered.hear {heard : List (SocketAddr × Bytes)} {sent : List (SocketAddr × Frame)}
    (h : Answered cfg heard sent a) (e : SocketAddr × Bytes) : Answered cfg (e :: heard) sent a :=
  h.mono (subset_cons_self e heard) (Subset.refl _)

end Driver

section

variable (h : Sound cfg peers s)
include h

theorem Sound.probe {active : Nat} (hs : s.probe active = some s') : Sound cfg peers s' := by
  have hactive (a : SocketAddr) (ha : a ∈ (s.activate active).probeOrder) : a ∈ s.targets :=
    (mem_activate ha).elim (h.order a) id
  simp only [Round.probe] at hs
  split at hs
  · split at hs
    · cases hs
      exact { h with order := hactive }
    · rename_i ht
      cases hs
      refine { h with order := hactive, requesting := ?_, sending := nofun, source := nofun }
      rintro _ _ ⟨⟩
      exact hactive _ (mem_of_getElem? ht)
  · cases hs

theorem Sound.learn (ha : Asked cfg s.heard source) : Sound cfg peers (s.learn source) := by
  rw [Round.learn]
  split
  · cases h
    constructor
    case size => grind
    case known => grind
    case order => grind
    -- The other fields hold of the targets there were, and these stay.
    all_goals first | assumption | grind
  · exact h

theorem Sound.takeInbound {elapsed : Bool} (hs : s.takeInbound elapsed = some s') : Sound cfg peers s' := by
  simp only [Round.takeInbound] at hs
  split at hs
  · rename_i src rest _ hin
    have hsrc : Asked cfg s.heard src := h.inbound src (hin ▸ mem_cons_self)
    have hrest : Sound cfg peers { s with inbound := rest } :=
      { h with inbound := fun a ha => h.inbound a (hin ▸ mem_cons_of_mem src ha) }
    have hl := hrest.learn hsrc
    have hheard : ({ s with inbound := rest }.learn src).heard = s.heard := by
      rw [Round.learn]
      split <;> rfl
    split at hs
    all_goals cases hs
    · exact { hl with requesting := by grind, sending := nofun, source := by grind [Driver.src] }
    · exact { hl with requesting := nofun, sending := nofun, source := by grind [Driver.src] }
  · cases hs

theorem Sound.takeValidated (hs : s.takeValidated cfg = some s') : Sound cfg peers s' := by
  rw [Round.takeValidated] at hs
  split at hs
  all_goals cases hs
  rename_i target obs _ _ hv
  have hhead := h.validated (target, obs) (hv ▸ mem_cons_self)
  have htail := h.validated
  cases hr : cfg.role
  all_goals exact { h with
    requesting := nofun, sending := nofun, source := nofun, validated := by grind, nominated := by grind }

theorem Sound.deadline {beforeCap : Bool} (hs : s.deadline cfg beforeCap = some s') : Sound cfg peers s' := by
  revert hs
  fun_cases Round.deadline
  case case1 =>
    rintro ⟨⟩
    exact { h with }
  case case2 =>
    rintro ⟨⟩
    exact { h with requesting := nofun, sending := nofun, source := nofun }
  case case3 => exact nofun

theorem Sound.register {txid : Txid} (hs : s.register cfg txid = some s') : Sound cfg peers s' := by
  cases h
  revert hs
  fun_cases Round.register
  all_goals rintro ⟨⟩
  cases hc : s.checks
  all_goals constructor
  case none.requesting | some.requesting => exact nofun
  case none.sending | some.sending => grind [Table.get?_insert]
  case none.source | some.source => grind [Driver.src]
  case none.sentDrawn | some.sentDrawn => grind
  case none.drawnBuilt | some.drawnBuilt => grind [requestFrame_kind, CheckConfig.requestFrame, request]
  case none.pending | some.pending => grind [Table.get?_insert]
  case none.built | some.built => grind [CheckConfig.requestFrame, request]
  case none.counted | some.counted => grind [Round.responses]
  all_goals assumption

theorem Sound.send {ok : Bool} (hs : s.send cfg ok = some s') : Sound cfg peers s' := by
  cases h
  revert hs
  fun_cases Round.send
  all_goals rintro ⟨⟩
  rename_i src _
  cases ok <;> cases src
  all_goals constructor
  case false.none.requesting | false.some.requesting | true.none.requesting | true.some.requesting => exact nofun
  case false.none.sending | false.some.sending | true.none.sending | true.some.sending => exact nofun
  case false.none.source | true.none.source => exact nofun
  case false.some.source | true.some.source => grind [Driver.src, Driver.after]
  case true.none.sent | true.some.sent => grind [requestFrame_kind]
  case true.none.sentDrawn | true.some.sentDrawn => grind [requestFrame_inj]
  case true.none.pending | true.some.pending => grind [requestFrame_inj]
  case true.none.built | true.some.built => grind
  case true.none.validated | true.some.validated => grind [Answered.send]
  case true.none.nominated | true.some.nominated => grind [Answered.send]
  all_goals assumption

theorem Sound.handOff (hs : s.handOff cfg = some s') : Sound cfg peers s' := by
  revert hs
  fun_cases Round.handOff
  case case1 src hd hok =>
    rintro ⟨⟩
    refine { h with requesting := nofun, sending := nofun, source := nofun, nominated := ?_ }
    rintro a ⟨⟩
    exact .inr ⟨hok.1, h.source _ (hd ▸ rfl)⟩
  case case2 =>
    rintro ⟨⟩
    exact { h with requesting := nofun, sending := nofun, source := nofun }
  case case3 => exact nofun

theorem Sound.disable (hs : s.disable = some s') : Sound cfg peers s' := by
  revert hs
  fun_cases Round.disable
  case case1 =>
    rintro ⟨⟩
    exact { h with requesting := nofun, sending := nofun, source := nofun, pending := nofun, counted := nofun }
  case case2 => exact nofun

theorem Sound.reply {ok : Bool} (hs : s.reply ok = some s') : Sound cfg peers s' := by
  cases h
  revert hs
  fun_cases Round.reply
  all_goals rintro ⟨⟩
  cases ok
  all_goals constructor
  case false.replying | true.replying => exact nofun
  case false.announcing | true.announcing => grind
  case false.capped | true.capped => grind [Round.responses, Actor.inFlight]
  case false.counted | true.counted => grind [Round.responses, Actor.inFlight]
  case true.sent => grind
  -- A response is none of our requests.
  case true.sending | true.sentDrawn | true.pending | true.built => grind [requestFrame_kind, kindRequest, kindResponse]
  case true.validated | true.nominated => grind [Answered.send]
  all_goals assumption

theorem Sound.announce (hs : s.announce = some s') : Sound cfg peers s' := by
  cases h
  revert hs
  fun_cases Round.announce
  all_goals rintro ⟨⟩
  constructor
  case inbound => grind
  case replying | announcing => simp
  case capped | counted => grind [Actor.inFlight, Round.responses]
  all_goals assumption

theorem Sound.peer (hok : Unforged cfg s (.peer f)) (hs : s.peer f = some s') : Sound cfg peers s' := by
  have hbuilt := h.built
  have hdrawn := h.drawnBuilt
  revert hs
  fun_cases Round.peer
  all_goals rintro ⟨⟩
  exact { h with drawnBuilt := by grind, built := by grind [Unforged] }

theorem Sound.hears (e : SocketAddr × Bytes) : Sound cfg peers { s with heard := e :: s.heard } := by
  cases h
  constructor
  all_goals first | assumption | grind [Asked.cons, Answered.hear]

theorem Sound.answers (hun : ∃ g ∈ s.built, buf = build cfg.mac g)
    (hp : parse cfg.mac buf = some f) (ha : cfg.admits f = true) (hd : f.txid ∈ s.drawn) :
    ∃ target, (target, cfg.requestFrame f.txid) ∈ s.sent := by
  obtain ⟨g, hg, rfl⟩ := hun
  obtain ⟨hk, hsent⟩ := h.built g hg
  rw [parse_build cfg.mac g hk] at hp
  cases hp
  have hrole : g.role ≠ cfg.role.byte := by
    simpa only [CheckConfig.admits, Bool.and_eq_true, bne_iff_ne] using (Bool.and_eq_true_iff.mp ha).2
  exact hsent hrole hd

theorem Sound.handleCheckFrame (hidle : s.actor = .idle)
    (hheard : (source, buf) ∈ s.heard) (hun : ∀ f, parse cfg.mac buf = some f → ∃ g ∈ s.built, buf = build cfg.mac g) :
    Sound cfg peers (s.handleCheckFrame cfg buf source) := by
  have hasked {f : Frame} (hp : parse cfg.mac buf = some f) (ha : cfg.admits f = true) (hk : f.kind = kindRequest) :
      Asked cfg s.heard source := ⟨f, ⟨buf, hheard, hp, ha⟩, hk⟩
  have hanswers {f : Frame} (hp : parse cfg.mac buf = some f) (ha : cfg.admits f = true)
      (hk : f.kind = kindResponse) (hs : (source, cfg.requestFrame f.txid) ∈ s.sent) :
      Answered cfg s.heard s.sent source := ⟨f, ⟨buf, hheard, hp, ha⟩, hk, hs⟩
  have hsent {f : Frame} (hp : parse cfg.mac buf = some f) := h.answers (hun f hp) hp
  have hkind (txid : Txid) : (response cfg.role.byte cfg.generation txid source).kind = kindResponse := by
    cases source <;> rfl
  have hrole (txid : Txid) : (response cfg.role.byte cfg.generation txid source).role = cfg.role.byte := by
    cases source <;> rfl
  cases h
  fun_cases Round.handleCheckFrame
  all_goals constructor
  case case4.replying => exact nofun
  case case4.announcing | case5.announcing => grind
  case case4.capped | case4.counted | case5.capped | case5.counted => grind [Round.responses, Actor.inFlight]
  case case5.sending | case5.pending | case5.drawnBuilt | case5.built => grind
  case case5.replying => grind
  case case6.sending | case6.pending => grind [Table.get?_erase]
  case case6.validated => grind
  case case6.counted => grind [Round.responses]
  all_goals assumption

theorem Sound.deliver (hok : Unforged cfg s (.deliver source buf))
    (hs : s.deliver cfg source buf = some s') : Sound cfg peers s' := by
  rw [Round.deliver] at hs
  split at hs
  · rename_i hidle
    have hh := h.hears (source, buf)
    split at hs
    · cases hs
      exact hh
    split at hs
    · cases hs
      exact hh.handleCheckFrame hidle mem_cons_self hok
    · cases hs
      exact { hh with }
  · cases hs

theorem sound_step {a : Action} (hok : Unforged cfg s a) (hs : step cfg s a = some s') : Sound cfg peers s' := by
  cases a with
  | probe => exact h.probe hs
  | inbound => exact h.takeInbound hs
  | validated => exact h.takeValidated hs
  | deadline => exact h.deadline hs
  | register => exact h.register hs
  | send => exact h.send hs
  | handoff => exact h.handOff hs
  | disable => exact h.disable hs
  | deliver => exact h.deliver hok hs
  | reply => exact h.reply hs
  | announce => exact h.announce hs
  | peer => exact h.peer hok hs

end

theorem silent_deliver (hbad : ∀ f, parse cfg.mac buf = some f → cfg.admits f = false)
    (hs : s.deliver cfg source buf = some s') :
    ∃ invalid other, s' = { s with heard := (source, buf) :: s.heard, invalidChecks := invalid, peerDatagrams := other } := by
  rw [Round.deliver] at hs
  split at hs
  · split at hs
    · cases hs
      exact ⟨_, _, rfl⟩
    split at hs
    · cases hs
      rw [Round.handleCheckFrame]
      split
      · exact ⟨_, _, rfl⟩
      split
      · exact ⟨_, _, rfl⟩
      · rename_i f hp
        rw [hbad f hp]
        exact ⟨_, _, rfl⟩
    · cases hs
      exact ⟨_, _, rfl⟩
  · cases hs

/-- Every check request goes to an offered candidate or to the source of an
authenticated request, every response to such a source, and the nominated
address has answered or, for the listener, has asked. -/
theorem check_round_is_guarded (cfg : CheckConfig) (peers : List SocketAddr) (s : Round)
    (h : Reaches (step cfg) (Unforged cfg) (start cfg peers) s) :
    (∀ a f, (a, f) ∈ s.sent → f.kind = kindRequest ∧ (a ∈ sanitizeCandidates peers ∨ Asked cfg s.heard a) ∨
      f.kind = kindResponse ∧ Asked cfg s.heard a) ∧ s.targets.length ≤ maxUdpCandidates ∧ s.responses ≤ checkMaxResponses ∧
    (∀ a, s.nominated = some a →
      a ∈ s.targets ∧ Answered cfg s.heard s.sent a ∨ cfg.role = .listener ∧ Asked cfg s.heard a) ∧
    (∀ source buf s', (∀ f, parse cfg.mac buf = some f → cfg.admits f = false) →
      step cfg s (.deliver source buf) = some s' →
      ∃ invalid other, s' = { s with heard := (source, buf) :: s.heard, invalidChecks := invalid, peerDatagrams := other }) := by
  have hsound : Sound cfg peers s :=
    h.invariant (P := Sound cfg peers) (sound_start cfg peers) (fun _ _ _ hp hok hs => sound_step hp hok hs)
  refine ⟨fun a f hm => ?_, hsound.size, Nat.le_trans (Nat.le_add_right _ _) hsound.capped, hsound.nominated,
    fun source buf s' hbad hs => silent_deliver hbad hs⟩
  exact (hsound.sent a f hm).imp_left (And.imp_right (hsound.known a))

def plainDialer : CheckConfig :=
  ⟨⟨WireBytes.padded, WireBytes.length_padded⟩, 7, .dialer, none⟩

def plainTxid (b : UInt8) : Txid := ⟨replicate 12 b, rfl⟩

def learnedRun : List Action :=
  let listener := SocketAddr.v4 0x09090909 9
  let asks := request 1 7 (plainTxid 2)
  let answers := response 1 7 (plainTxid 3) (.v4 0x01010101 1)
  [.probe 1, .register (plainTxid 1), .send true, .peer asks, .deliver listener (build plainDialer.mac asks), .reply true,
    .announce, .inbound false, .register (plainTxid 3), .send true, .handoff, .peer answers,
    .deliver listener (build plainDialer.mac answers), .validated, .disable]

def learnedStart : Round := start plainDialer [.v4 0x01020304 5, .v4 0 5, .v4 0x01020304 5]

theorem check_round_is_guarded_learned : ∃ s : Round, Reaches (step plainDialer) (Unforged plainDialer) learnedStart s ∧
      (s.nominated, s.targets, s.responses) = (some (.v4 0x09090909 9), [.v4 0x01020304 5, .v4 0x09090909 9], 1) ∧
      ∀ a, s.nominated = some a →
        a ∈ s.targets ∧ Answered plainDialer s.heard s.sent a ∨ plainDialer.role = .listener ∧ Asked plainDialer s.heard a := by
  have hrun : (execWhile (step plainDialer) (fun s a => decide (Unforged plainDialer s a)) learnedStart learnedRun).map
      (fun s => (s.nominated, s.targets, s.responses)) =
      some (some (.v4 0x09090909 9), [.v4 0x01020304 5, .v4 0x09090909 9], 1) := by
    decide +kernel
  obtain ⟨s, hs, ho⟩ := execWhile_observe _ _ hrun
  have hreach := hs.mono (fun _ _ h => of_decide_eq_true h)
  exact ⟨s, hreach, ho, (check_round_is_guarded plainDialer _ s hreach).2.2.2.1⟩

end Bore.CheckRound
