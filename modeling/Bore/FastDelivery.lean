import Bore.PumpVerdict

/-! One upload and the downloads that are handed to it in turn: the leftover of
the head, the prefill while it waits, the replay and the pump. -/

namespace Bore.FastDelivery

open WireBytes (Bytes)
open BodyFraming FastPump Runs List Option

structure Download where
  received : Bytes
  completed : Bool
  deriving DecidableEq

inductive Phase
  | waiting
  | announcing
  | greeting
  | pumping (replayed : Bytes) (pump : Pump)
  | rearming
  | over
  deriving DecidableEq

structure Session where
  state : PumpState
  unread : Bytes
  phase : Phase
  downloads : List Download

def serveUpload (cfg : PumpConfig) (framing : Framing) (leftover unread : Bytes) : Session :=
  let state : PumpState := ⟨.new framing, some [], 0⟩
  if leftover.isEmpty then ⟨state, unread, .waiting, []⟩
  else match state.absorb cfg.replayWindow leftover with
    | (state, .ok _) => ⟨state, unread, .waiting, []⟩
    | (state, .error _) => ⟨state, unread, .over, []⟩

def prefillCap (cfg : PumpConfig) (st : PumpState) : Option Nat :=
  if !st.framer.isDone && decide (st.consumed < cfg.replayWindow) then
    some (min cfg.buffer (cfg.replayWindow - st.consumed))
  else none

def rearmOrFail (st : PumpState) : Phase := if st.replay.isSome then .rearming else .over

inductive Action
  | prefill (n : Nat)
  | uploadEnds
  | refuse
  | handoff
  | announce (ok : Bool)
  | greet (sent : Option Nat)
  | pump (a : FastPump.Action)
  | finish
  | rearm (ok : Bool)
  deriving DecidableEq

/-- `greet none` writes the head and the replay, `greet (some k)` fails with the
first `k` bytes of the replay out; `refuse` answers a claimed download after the
upload has ended. -/
def step (cfg : PumpConfig) (s : Session) (a : Action) : Option Session :=
  match s.phase, a with
  | .waiting, .prefill n =>
    match prefillCap cfg s.state with
    | some cap =>
      if 1 ≤ n ∧ n ≤ cap ∧ n ≤ s.unread.length then
        match s.state.absorb cfg.replayWindow (s.unread.take n) with
        | (state, .ok _) => some { s with state := state, unread := s.unread.drop n }
        | (state, .error _) => some { s with state := state, unread := s.unread.drop n, phase := .over }
      else none
    | none => none
  | .waiting, .uploadEnds => some { s with phase := .over }
  | .waiting, .refuse => some { s with phase := .over, downloads := s.downloads ++ [⟨[], false⟩] }
  | .waiting, .handoff => some { s with phase := .announcing }
  | .announcing, .announce true => some { s with phase := .greeting }
  | .announcing, .announce false => some { s with phase := .over, downloads := s.downloads ++ [⟨[], false⟩] }
  | .greeting, .greet none =>
    some { s with phase := .pumping (s.state.replay.getD []) (start cfg s.state s.unread) }
  | .greeting, .greet (some k) =>
    some { s with
      phase := rearmOrFail s.state
      downloads := s.downloads ++ [⟨(s.state.replay.getD []).take k, false⟩] }
  | .pumping replayed p, .pump a => (FastPump.step cfg p a).map (fun p => { s with phase := .pumping replayed p })
  | .pumping replayed p, .finish =>
    match p.coordinator with
    | .ended verdict =>
      some { s with
        state := p.state
        unread := p.unread
        phase := if verdict = .downloaderGone then rearmOrFail p.state else .over
        downloads := s.downloads ++ [⟨replayed ++ (p.delivered ++ p.stray), decide (verdict = .completed)⟩] }
    | _ => none
  | .rearming, .rearm ok => some { s with phase := if ok then .waiting else .over }
  | _, _ => none

def Session.pumpState (s : Session) : PumpState :=
  match s.phase with
  | .pumping _ p => p.state
  | _ => s.state

structure Tracks (body : Bytes) (st : PumpState) (unread : Bytes) : Prop where
  bound : st.consumed ≤ body.length
  expects : Expects st.framer unread (body.drop st.consumed)
  replay : ∀ r, st.replay = some r → r = body.take st.consumed

theorem Tracks.absorb {body : Bytes} {st : PumpState} {input rest : Bytes} (h : Tracks body st (input ++ rest))
    (window : Nat) : ∃ st' piece, st.absorb window input = (st', .ok piece) ∧ Tracks body st' rest ∧
      st'.consumed ≤ st.consumed + input.length ∧ body.take st.consumed ++ piece = body.take st'.consumed ∧
      (st'.consumed ≤ window → st.replay.isSome = true → st'.replay.isSome = true) := by
  obtain ⟨framer, hfeed, hexpects⟩ := h.expects.feed
  have hbound := h.bound
  have hlen : (body.drop st.consumed).length = body.length - st.consumed := length_drop
  generalize hforward : min input.length (body.drop st.consumed).length = forward at hfeed
  have hpiece : input.take forward = (body.drop st.consumed).take forward := by
    obtain ⟨t, ht⟩ := h.expects.starts
    have htake := congrArg (take forward) ht
    rwa [take_append_of_le_length (by omega), take_append_of_le_length (by omega), eq_comm] at htake
  have hjoin : body.take st.consumed ++ input.take forward = body.take (st.consumed + forward) := by
    rw [hpiece, take_add]
  have hdrop : (body.drop st.consumed).drop input.length = body.drop (st.consumed + forward) := by
    rw [drop_drop]
    by_cases hle : input.length ≤ (body.drop st.consumed).length
    · rw [show forward = input.length by omega]
    · rw [drop_of_length_le (by omega), drop_of_length_le (by omega)]
  refine ⟨_, _, by rw [PumpState.absorb, hfeed], ⟨?_, ?_, ?_⟩, ?_, hjoin, ?_⟩
  · dsimp only
    omega
  · rw [hdrop] at hexpects
    exact hexpects
  · intro r hr
    obtain ⟨replay, hreplay, hr⟩ := bind_eq_some_iff.mp hr
    split at hr
    all_goals cases hr
    rw [h.replay replay hreplay]
    exact hjoin
  · dsimp only
    omega
  · intro hw hs
    obtain ⟨replay, hreplay⟩ := isSome_iff_exists.mp hs
    rw [hreplay, bind_some, if_pos hw]
    rfl

structure PumpTracks (body replayed : Bytes) (p : Pump) : Prop where
  tracks : Tracks body p.state p.unread
  joined : replayed ++ p.forwarded = body.take p.state.consumed

section Pump

variable {cfg : PumpConfig} {body replayed : Bytes} {p p' : Pump}

section

variable (h : PumpTracks body replayed p)
include h

theorem PumpTracks.of_eq (hstate : p'.state = p.state) (hunread : p'.unread = p.unread)
    (hforwarded : p'.forwarded = p.forwarded) : PumpTracks body replayed p' := by
  refine ⟨?_, ?_⟩
  · rw [hstate, hunread]
    exact h.tracks
  · rw [hforwarded, hstate]
    exact h.joined

theorem readerMove_tracks (hm : ReaderMove cfg p p') : PumpTracks body replayed p' := by
  have hread (n : Nat) : Tracks body p.state (p.unread.take n ++ p.unread.drop n) := by
    rw [take_append_drop]
    exact h.tracks
  cases hm with
  | absorbs n _ _ _ _ _ _ habsorb =>
    obtain ⟨st', piece', heq, htracks, -, hjoin, -⟩ := (hread n).absorb cfg.replayWindow
    rw [heq] at habsorb
    cases habsorb
    refine ⟨htracks, ?_⟩
    rw [← append_assoc, h.joined]
    exact hjoin
  | rejects n _ _ _ _ _ _ habsorb =>
    obtain ⟨st', piece', heq, -⟩ := (hread n).absorb cfg.replayWindow
    rw [heq] at habsorb
    cases habsorb
  | goes | finishes | orphaned | sends | cancels | drops => exact h.of_eq rfl rfl rfl

theorem pumpStep_tracks {a : FastPump.Action} (hs : FastPump.step cfg p a = some p') :
    PumpTracks body replayed p' := by
  cases a with
  | reader => exact readerMove_tracks h (readerStep_move hs)
  | writer =>
    have hs : writerStep cfg p _ = some p' := hs
    rw [writerStep.eq_def] at hs
    repeat' split at hs
    all_goals cases hs
    all_goals exact h.of_eq rfl rfl rfl
  | joinReader =>
    have hs : joinReader p = some p' := hs
    rw [joinReader.eq_def] at hs
    split at hs <;> cases hs <;> exact h.of_eq rfl rfl rfl
  | joinWriter =>
    have hs : joinWriter p = some p' := hs
    rw [joinWriter.eq_def] at hs
    split at hs <;> cases hs <;> exact h.of_eq rfl rfl rfl

theorem PumpTracks.received (hp : PumpInv p) : replayed ++ (p.delivered ++ p.stray) <+: body := by
  have hsent : replayed ++ (p.delivered ++ p.stray) <+: replayed ++ p.forwarded :=
    (prefix_append_right_inj _).mpr hp.sent
  rw [h.joined] at hsent
  exact hsent.trans ( take_prefix _ _)

theorem PumpTracks.completed (hp : PumpInv p) (hc : p.coordinator = .ended .completed) :
    replayed ++ (p.delivered ++ p.stray) = body := by
  obtain ⟨hr, hw⟩ := hp.completed hc
  obtain ⟨hdone, hall⟩ := hp.all_delivered (.inr hw) hr
  have hstray : p.stray = [] := hp.clear (by simp [hw])
  have hend : body.drop p.state.consumed = [] := h.tracks.expects.isDone_iff.mp hdone
  rw [hstray, append_nil, hall, h.joined]
  have := take_append_drop p.state.consumed body
  rwa [hend, append_nil] at this

end

end Pump

def Phase.serves : Phase → Bool
  | .waiting | .announcing | .greeting | .rearming => true
  | .pumping _ _ | .over => false

structure Delivers (body : Bytes) (s : Session) : Prop where
  tracks : (∀ replayed p, s.phase ≠ .pumping replayed p) → Tracks body s.state s.unread
  window : s.phase.serves = true → s.state.replay.isSome = true
  pump : ∀ replayed p, s.phase = .pumping replayed p → PumpInv p ∧ PumpTracks body replayed p
  received : ∀ d ∈ s.downloads, d.received <+: body ∧ (d.completed = true → d.received = body)

section Session

variable {cfg : PumpConfig} {body unread : Bytes} {s s' : Session} {downloads : List Download} {state : PumpState}

theorem received_snoc {d : Download}
    (h : ∀ x ∈ downloads, x.received <+: body ∧ (x.completed = true → x.received = body))
    (hd : d.received <+: body ∧ (d.completed = true → d.received = body)) :
    ∀ x ∈ downloads ++ [d], x.received <+: body ∧ (x.completed = true → x.received = body) := by
  intro x hx
  rcases mem_append.mp hx with hx | hx
  · exact h x hx
  · obtain rfl := mem_singleton.mp hx
    exact hd

theorem Delivers.of_state {phase : Phase} (htracks : Tracks body state unread)
    (hwindow : phase.serves = true → state.replay.isSome = true) (hphase : ∀ replayed p, phase ≠ .pumping replayed p)
    (hreceived : ∀ d ∈ downloads, d.received <+: body ∧ (d.completed = true → d.received = body)) :
    Delivers body ⟨state, unread, phase, downloads⟩ :=
  ⟨fun _ => htracks, hwindow, fun replayed p hp => absurd hp (hphase replayed p), hreceived⟩

theorem rearmOrFail_cases (st : PumpState) :
    rearmOrFail st = .rearming ∧ st.replay.isSome = true ∨ rearmOrFail st = .over := by
  rw [rearmOrFail]
  split
  · rename_i h
    exact .inl ⟨rfl, h⟩
  · exact .inr rfl

theorem Delivers.rearmOrFail (htracks : Tracks body state unread)
    (hreceived : ∀ d ∈ downloads, d.received <+: body ∧ (d.completed = true → d.received = body)) :
    Delivers body ⟨state, unread, rearmOrFail state, downloads⟩ := by
  rcases rearmOrFail_cases state with ⟨hp, hs⟩ | hp <;> rw [hp]
  · exact .of_state htracks (fun _ => hs) (fun _ _ h => nomatch h) hreceived
  · exact .of_state htracks (fun h => nomatch h) (fun _ _ h => nomatch h) hreceived

theorem Delivers.prefill (h : Delivers body s) (hphase : s.phase = .waiting) {n cap : Nat}
    (hcap : prefillCap cfg s.state = some cap) (hn : n ≤ cap) :
    ∃ state piece, s.state.absorb cfg.replayWindow (s.unread.take n) = (state, .ok piece) ∧
      Delivers body { s with state := state, unread := s.unread.drop n } := by
  have htracks : Tracks body s.state (s.unread.take n ++ s.unread.drop n) := by
    rw [take_append_drop]
    exact h.tracks (by simp [hphase])
  obtain ⟨state, piece, habsorb, ht, hle, -, hwindow⟩ := htracks.absorb cfg.replayWindow
  have hfits : state.consumed ≤ cfg.replayWindow := by
    rw [prefillCap] at hcap
    split at hcap
    all_goals cases hcap
    rename_i hc
    simp only [Bool.and_eq_true, decide_eq_true_eq] at hc
    have := length_take_le n s.unread
    omega
  refine ⟨state, piece, habsorb, fun _ => ht, fun _ => hwindow hfits (h.window (by rw [hphase]; rfl)), fun replayed p hp => ?_,
    h.received⟩
  rw [hphase] at hp
  cases hp

theorem step_delivers {a : Action} (h : Delivers body s) (hs : step cfg s a = some s') : Delivers body s' := by
  obtain ⟨state, unread, phase, downloads⟩ := s
  rw [step.eq_def] at hs
  dsimp only at hs
  split at hs
  case h_1 =>
    -- a read while the upload waits
    split at hs
    · rename_i hcap
      split at hs
      · rename_i hn
        obtain ⟨state', piece, habsorb, hd⟩ := h.prefill rfl hcap hn.2.1
        rw [habsorb] at hs
        cases hs
        exact hd
      · cases hs
    · cases hs
  case h_9 replayed p a =>
    obtain ⟨p', hp', rfl⟩ := map_eq_some_iff.mp hs
    obtain ⟨hinv, htracks⟩ := h.pump replayed p rfl
    refine ⟨fun hne => absurd rfl (hne _ _), nofun, fun replayed' q hq => ?_, h.received⟩
    cases hq
    exact ⟨step_inv hinv hp', pumpStep_tracks htracks hp'⟩
  case h_10 replayed p =>
    obtain ⟨hinv, htracks⟩ := h.pump replayed p rfl
    split at hs
    all_goals cases hs
    rename_i verdict hend
    have hcompleted (hc : decide (verdict = .completed) = true) : replayed ++ (p.delivered ++ p.stray) = body :=
      htracks.completed hinv (by rw [hend, of_decide_eq_true hc])
    have hreceived := received_snoc (d := ⟨replayed ++ (p.delivered ++ p.stray), decide (verdict = .completed)⟩)
      h.received ⟨htracks.received hinv, hcompleted⟩
    split
    · exact .rearmOrFail htracks.tracks hreceived
    · exact .of_state htracks.tracks nofun (fun _ _ h => nomatch h) hreceived
  all_goals cases hs
  all_goals have htracks := h.tracks (by simp)
  case h_3 | h_6 => exact .of_state htracks nofun (fun _ _ h => nomatch h) (received_snoc h.received ⟨ nil_prefix, nofun⟩)
  case h_4 | h_5 => exact .of_state htracks (fun _ => h.window rfl) (fun _ _ h => nomatch h) h.received
  case h_7 =>
    -- the replay is out and the pump starts
    obtain ⟨replay, hreplay⟩ := isSome_iff_exists.mp (h.window rfl)
    refine ⟨fun hne => absurd rfl (hne _ _), nofun, fun replayed p hp => ?_, h.received⟩
    cases hp
    refine ⟨start_inv cfg state unread, htracks, ?_⟩
    rw [hreplay, getD_some, htracks.replay replay hreplay]
    exact append_nil _
  case h_8 =>
    obtain ⟨replay, hreplay⟩ := isSome_iff_exists.mp (h.window rfl)
    refine .rearmOrFail htracks (received_snoc h.received ⟨?_, nofun⟩)
    rw [hreplay, getD_some, htracks.replay replay hreplay]
    exact ( take_prefix _ _).trans ( take_prefix _ _)
  case h_11 ok =>
    cases ok with
    | true => exact .of_state htracks (fun _ => h.window rfl) (fun _ _ h => nomatch h) h.received
    | false => exact .of_state htracks nofun (fun _ _ h => nomatch h) h.received
  case h_2 => exact .of_state htracks nofun (fun _ _ h => nomatch h) h.received

theorem serveUpload_delivers {framing : Framing} {leftover : Bytes}
    (hbody : Expects (.new framing) (leftover ++ unread) body) (hleftover : leftover.length ≤ cfg.replayWindow) :
    Delivers body (serveUpload cfg framing leftover unread) := by
  have htracks : Tracks body ⟨.new framing, some [], 0⟩ (leftover ++ unread) :=
    ⟨Nat.zero_le _, hbody, fun r hr => by cases hr; rfl⟩
  rw [serveUpload]
  split
  · rename_i he
    rw [isEmpty_iff.mp he, nil_append] at htracks
    exact .of_state htracks (fun _ => rfl) (fun _ _ h => nomatch h) (fun _ h => nomatch h)
  · obtain ⟨state, piece, habsorb, ht, hle, -, hwindow⟩ := htracks.absorb cfg.replayWindow
    rw [habsorb]
    exact .of_state ht (fun _ => hwindow (by dsimp only at hle; omega) rfl) (fun _ _ h => nomatch h) (fun _ h => nomatch h)

end Session

/-- Delivery is exact: the replay is what has been consumed, a completed download
has received the whole body, and every other one has received a prefix of it. -/
theorem delivery_is_exact (cfg : PumpConfig) (framing : Framing) (body leftover unread : Bytes)
    (hbody : Expects (.new framing) (leftover ++ unread) body) (hleftover : leftover.length ≤ cfg.replayWindow)
    (s : Session) (hreach : Reaches (step cfg) always (serveUpload cfg framing leftover unread) s) :
    (∀ r, s.pumpState.replay = some r → r = body.take s.pumpState.consumed) ∧
    (∀ d ∈ s.downloads, d.received <+: body ∧ (d.completed = true → d.received = body)) ∧
    (∀ replayed p, s.phase = .pumping replayed p → replayed ++ (p.delivered ++ p.stray) <+: body) := by
  have h : Delivers body s :=
    hreach.invariant (serveUpload_delivers hbody hleftover) fun _ _ _ ht _ hstep => step_delivers ht hstep
  refine ⟨?_, h.received, fun replayed p hp => ?_⟩
  · rw [Session.pumpState]
    split
    · rename_i replayed p hp
      exact (h.pump replayed p hp).2.tracks.replay
    · rename_i hne
      exact (h.tracks hne).replay
  · obtain ⟨hinv, htracks⟩ := h.pump replayed p hp
    exact htracks.received hinv

def sampleDrop : List Action :=
  [.prefill 1, .handoff, .announce true, .greet (some 1), .rearm true, .handoff, .announce true, .greet none]

def samplePump : List FastPump.Action :=
  [.reader .blocks, .reader .blocks, .reader .blocks, .reader .blocks, .reader (.bytes 1), .reader .blocks,
    .reader .blocks, .reader .blocks, .reader .blocks, .writer .done, .writer .done, .writer .done, .writer .done,
    .writer .done, .writer .done, .joinReader, .joinWriter]

theorem delivery_is_exact_second_download :
    ∃ s, Reaches (step PumpVerdict.sampleConfig) always (serveUpload PumpVerdict.sampleConfig (.contentLength 3) [1] [2, 3]) s ∧
      s.downloads = [⟨[1], false⟩, ⟨[1, 2, 3], true⟩] ∧
      ∀ d ∈ s.downloads, d.received <+: [1, 2, 3] ∧ (d.completed = true → d.received = [1, 2, 3]) := by
  have hbody : Expects (.new (.contentLength 3)) ([1] ++ [2, 3]) [1, 2, 3] :=
    ⟨rfl, ⟨⟨.contentLength 0 3, none⟩, by decide⟩, prefix_refl _⟩
  exact exec_shows (sampleDrop ++ samplePump.map .pump ++ [.finish]) Session.downloads (by decide +kernel) fun s hreach _ =>
    (delivery_is_exact PumpVerdict.sampleConfig (.contentLength 3) [1, 2, 3] [1] [2, 3] hbody (by decide) s hreach).2.1

end Bore.FastDelivery
