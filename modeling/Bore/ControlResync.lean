import Bore.ControlActor
import Bore.SessionMirror

namespace Bore.ControlResync

open RegistryTypes RegistryCatalogue SessionViews SessionRoom ControlActor Runs List Option
open PeerSession hiding Phase Action step
open SessionMirror (sampleCodec emptyRoom)

variable {Manifest Value : Type} (codec : ManifestCodec Manifest Value)
variable {views : Room} {a : Actor Value} {revision : Nat} {messages : List (Message Value)}

def resyncSize (parts views : Room) : Nat := 2 + parts.peers.size + views.offers.size

theorem buildResync_length (parts : Room) (h : Readable codec views) :
    ∃ messages, buildResync codec parts views = .ok messages ∧ messages.length = resyncSize parts views := by
  have hviews := (offerViews_view codec h).1
  have hpage : (pageOffers codec (offerViews views)).length = (offerViews views).length := by
    unfold pageOffers
    generalize offerViews views = list at hviews
    induction list with
    | nil => rfl
    | cons view _ ih =>
      obtain ⟨value, hv⟩ := isSome_iff_exists.mp (hviews view mem_cons_self)
      have := ih (fun w hw => hviews w (mem_cons_of_mem view hw))
      simpa [filterMap_cons, hv] using this
  have hpeers : (snapshotParts parts).2.length = parts.peers.size := by simp [snapshotParts, Table.size]
  have hoffers : (offerViews views).length = views.offers.size := by simp [offerViews, Table.size]
  refine ⟨_, by simp [buildResync, snapshotOfferStrings, snapshotOffers_ok hviews, Except.map]; rfl, ?_⟩
  simp only [length_cons, length_append, length_map, length_nil, hpage, hpeers, hoffers, resyncSize]
  omega

def turns (schedule : List (Option String)) : List Action :=
  schedule.map (fun turn => match turn with
    | none => .advance
    | some raw => .sendTo raw)

def ownTurns (schedule : List (Option String)) : Nat := schedule.countP isNone

def foreignTurns (schedule : List (Option String)) : Nat := schedule.countP isSome

/-- However the tasks take turns, with at most `pushes` messages of others for
the session, the arm of a lagged receiver enqueues the whole snapshot and the
loop selects again. -/
def ResyncCompletes (a : Actor Value) (parts views : Room) (pushes : Nat) :
    Prop :=
  ∀ schedule, foreignTurns schedule ≤ pushes → ownTurns schedule = resyncSize parts views + 1 →
    ∃ b, exec (step codec) a (.lagged parts views :: turns schedule) = some b ∧ b.phase = .select

def isEnded : Phase Value → Bool
  | .ended _ => true
  | _ => false

theorem step_sendTo (h : isEnded a.phase = false) (raw : String) :
    step codec a (.sendTo raw) = some (a.sendTo raw) := by
  unfold step
  cases hp : a.phase with
  | ended => simp [hp, isEnded] at h
  | _ => rfl

theorem sendTo_frame (a : Actor Value) (raw : String) : (a.sendTo raw).phase = a.phase ∧ (a.sendTo raw).cap = a.cap ∧
      (a.sendTo raw).queue.length = a.queue.length + (if a.queue.length < a.cap then 1 else 0) := by
  unfold Actor.sendTo Actor.queueSend
  split <;> simp

theorem foreign_keep_phase (h : isEnded a.phase = false) (schedule : List (Option String))
    (hs : ownTurns schedule = 0) : ∃ b, exec (step codec) a (turns schedule) = some b ∧ b.phase = a.phase := by
  induction schedule generalizing a with
  | nil => exact ⟨a, rfl, rfl⟩
  | cons turn _ ih =>
    cases turn with
    | none => simp [ownTurns] at hs
    | some raw =>
      have hframe := (sendTo_frame a raw).1
      obtain ⟨b, hb, hp⟩ := ih (a := a.sendTo raw) (by rw [hframe]; exact h) (by simpa [ownTurns] using hs)
      refine ⟨b, ?_, hp.trans hframe⟩
      simp only [turns, map_cons, exec_cons, step_sendTo codec h, bind_some]
      exact hb

theorem advance_resyncing {message : Message Value} {rest : List (Message Value)}
    (hp : a.phase = .resyncing (message :: rest) revision) (hroom : a.queue.length < a.cap) :
    ∃ b r, step codec a .advance = some b ∧ b.phase = .resyncing rest r ∧ b.cap = a.cap ∧
      b.queue.length = a.queue.length + 1 := by
  refine ⟨{ a with
    queue := a.queue ++ [.room message], phase := .resyncing rest (Actor.snapshotEndRevision message revision) },
    _, ?_, rfl, rfl, by simp⟩
  simp only [step, Actor.advance, hp, Actor.queueSend, if_pos hroom]

theorem advance_resyncing_full {message : Message Value} {rest : List (Message Value)}
    (hp : a.phase = .resyncing (message :: rest) revision) (hfull : ¬ a.queue.length < a.cap) :
    ∃ b, step codec a .advance = some b ∧ b.phase = .ended .tooSlow :=
  ⟨_, by simp only [step, Actor.advance, hp, Actor.queueSend, if_neg hfull]; rfl, rfl⟩

theorem resync_returns (hp : a.phase = .resyncing messages revision) (schedule : List (Option String))
    (hown : ownTurns schedule = messages.length + 1)
    (hroom : a.queue.length + foreignTurns schedule + messages.length ≤ a.cap) :
    ∃ b, exec (step codec) a (turns schedule) = some b ∧ b.phase = .select := by
  induction schedule generalizing a messages revision with
  | nil => simp [ownTurns] at hown
  | cons turn schedule ih =>
    cases turn with
    | some raw =>
      obtain ⟨hphase, hcap, hlen⟩ := sendTo_frame a raw
      have hforeign : foreignTurns (some raw :: schedule) = foreignTurns schedule + 1 := by simp [foreignTurns]
      have hlt : a.queue.length < a.cap := by omega
      rw [if_pos hlt] at hlen
      obtain ⟨b, hb, hs⟩ := ih (a := a.sendTo raw) (hphase.trans hp) (by simpa [ownTurns] using hown) (by omega)
      refine ⟨b, ?_, hs⟩
      simp only [turns, map_cons, exec_cons, step_sendTo codec (a := a) (by rw [hp]; rfl), bind_some]
      exact hb
    | none =>
      have hforeign : foreignTurns (none :: schedule) = foreignTurns schedule := by simp [foreignTurns]
      have hrest : ownTurns schedule = messages.length := by simpa [ownTurns] using hown
      cases messages with
      | nil =>
        obtain ⟨b, hb, hs⟩ := foreign_keep_phase codec
          (a := { a with revisionSeen := revision, phase := .select }) rfl schedule (by simpa using hrest)
        refine ⟨b, ?_, hs⟩
        simp only [turns, map_cons, exec_cons, step, Actor.advance, hp, bind_some]
        exact hb
      | cons =>
        simp only [length_cons] at hrest hroom
        obtain ⟨c, r, hc, hphase, hcap, hlen⟩ := advance_resyncing codec hp (by omega)
        obtain ⟨b, hb, hs⟩ := ih hphase hrest (by omega)
        refine ⟨b, ?_, hs⟩
        simp only [turns, map_cons, exec_cons, hc, bind_some]
        exact hb

theorem resync_times_out {b : Actor Value}
    (hp : a.phase = .resyncing messages revision) (hfill : a.queue.length ≤ a.cap)
    (hover : a.cap < a.queue.length + messages.length)
    (hb : exec (step codec) a (turns (replicate (messages.length + 1) none)) = some b) : False := by
  induction messages generalizing a revision with
  | nil =>
    simp only [length_nil] at hover
    omega
  | cons _ _ ih =>
    simp only [length_cons] at hover hb
    rw [replicate_succ, turns, map_cons, exec_cons] at hb
    by_cases hroom : a.queue.length < a.cap
    · obtain ⟨c, r, hc, hphase, hcap, hlen⟩ := advance_resyncing codec hp hroom
      rw [hc, bind_some] at hb
      exact ih hphase (by omega) (by omega) hb
    · obtain ⟨c, hc, hphase⟩ := advance_resyncing_full codec hp hroom
      rw [hc, bind_some, replicate_succ, map_cons, exec_cons] at hb
      simp [step, Actor.advance, hphase] at hb

theorem foreign_fill (h : isEnded a.phase = false) (hfill : a.queue.length ≤ a.cap) (k : Nat) :
    ∃ b, exec (step codec) a (turns (replicate k (some ""))) = some b ∧ b.phase = a.phase ∧ b.cap = a.cap ∧
      b.queue.length = min a.cap (a.queue.length + k) := by
  induction k generalizing a with
  | zero => exact ⟨a, rfl, rfl, rfl, by omega⟩
  | succ k ih =>
    obtain ⟨hphase, hcap, hlen⟩ := sendTo_frame a ""
    have hle : (a.sendTo "").queue.length ≤ (a.sendTo "").cap := by
      split at hlen <;> omega
    obtain ⟨b, hb, hp, hc, hl⟩ := ih (a := a.sendTo "") (by rw [hphase]; exact h) hle
    refine ⟨b, ?_, hp.trans hphase, hc.trans hcap, ?_⟩
    · rw [replicate_succ, turns, map_cons, exec_cons, step_sendTo codec h, bind_some]
      exact hb
    · split at hlen <;> omega

theorem step_lagged {parts : Room} (hp : a.phase = .select) (hm : buildResync codec parts views = .ok messages) :
    step codec a (.lagged parts views) = some { a with phase := .resyncing messages a.revisionSeen } := by
  simp only [step, hp, Actor.select, hm]

theorem not_resyncCompletes {parts : Room} (hr : Readable codec views)
    (hp : a.phase = .select) (hfill : a.queue.length ≤ a.cap) {pushes : Nat}
    (hover : a.cap < a.queue.length + pushes + resyncSize parts views) :
    ¬ ResyncCompletes codec a parts views pushes := by
  intro h
  obtain ⟨messages, hm, hlen⟩ := buildResync_length codec parts hr
  have hn : 0 < resyncSize parts views := by
    unfold resyncSize
    omega
  obtain ⟨b, hb, _⟩ := h (replicate pushes (some "") ++ replicate (resyncSize parts views + 1) none)
    (by simp [foreignTurns, countP_replicate]) (by simp [ownTurns, countP_replicate])
  obtain ⟨c, hc, hphase, hcap, hl⟩ := foreign_fill codec
    (a := { a with phase := .resyncing messages a.revisionSeen }) rfl hfill pushes
  rw [exec_cons, step_lagged codec hp hm, bind_some, turns, map_append, exec_append] at hb
  change (exec (step codec) _ (turns _)).bind _ = _ at hb
  rw [hc, bind_some, ← hlen] at hb
  refine resync_times_out codec (a := c) hphase ?_ ?_ hb <;> simp only [hcap, hl] <;> omega

/-- A resync completes exactly when the queue has room for the whole snapshot
on top of what is in it and of what other tasks send meanwhile. -/
theorem resync_completes_iff {a : Actor Value} {parts views : Room} (hr : Readable codec views)
    (hp : a.phase = .select) (hfill : a.queue.length ≤ a.cap) (pushes : Nat) :
    ResyncCompletes codec a parts views pushes ↔ a.queue.length + pushes + resyncSize parts views ≤ a.cap := by
  constructor
  · intro h
    by_contra hover
    exact not_resyncCompletes codec hr hp hfill (by omega) h
  · intro hroom schedule hforeign hown
    obtain ⟨messages, hm, hlen⟩ := buildResync_length codec parts hr
    obtain ⟨b, hb, hs⟩ := resync_returns codec (a := { a with phase := .resyncing messages a.revisionSeen })
      rfl schedule (by omega) (by simp only; omega)
    exact ⟨b, by rw [exec_cons, step_lagged codec hp hm, bind_some]; exact hb, hs⟩

def Admits (limits : WebTransferLimits) (room : Room) : Prop :=
  room.peers.size ≤ limits.maxPeersPerRoom ∧
    ∀ peer ∈ room.peers.keys,
      (room.offers.values.filter (fun o => o.owner == peer)).length ≤ limits.maxOffersPerPeer

instance (limits : WebTransferLimits) (room : Room) : Decidable (Admits limits room) :=
  inferInstanceAs (Decidable (_ ∧ _))

def defaultLimits : WebTransferLimits where
  maxPeersPerRoom := 32
  maxOffersPerPeer := 64
  maxMetadataPerRoomBytes := 16777216
  maxMetadataTotalBytes := 268435456
  maxTransfersPerPeer := 8
  maxRelaysGlobal := 256
  directCarriers := 8

def busyRoom : Room where
  relayOnly := false
  peers := ⟨(range 32).map (fun p => (p, ⟨none⟩)), by simp [Function.comp_def, nodup_range]⟩
  offers := ⟨(range 160).map (fun o => (o, ⟨o % 32, [], 0, 64⟩)), by simp [Function.comp_def, nodup_range]⟩
  transfers := ∅
  sessions := range 32
  metadataBytes := 160 * 64
  revision := 192

def isTooSlow : Phase Value → Bool
  | .ended .tooSlow => true
  | _ => false

/-- The loop has just been entered, the queue is empty and nobody else sends:
the snapshot of a room well inside the default limits ends the session. -/
theorem resync_overflows_own_queue : Admits defaultLimits busyRoom ∧
      ¬ ResyncCompletes sampleCodec (start (webTransferOutgoingCap defaultLimits.directCarriers) 1)
        busyRoom busyRoom 0 ∧ ∃ a : Actor Bytes, Reaches (step sampleCodec) always
        (start (webTransferOutgoingCap defaultLimits.directCarriers) 1) a ∧ a.phase = .ended .tooSlow := by
  refine ⟨by decide +kernel, not_resyncCompletes _ ?_ rfl (Nat.zero_le _) (by decide +kernel), ?_⟩
  · intro o record h
    simp [shown, sampleCodec]
  · obtain ⟨a, ha, hp⟩ : ∃ a : Actor Bytes, Reaches (step sampleCodec) always
        (start (webTransferOutgoingCap defaultLimits.directCarriers) 1) a ∧ isTooSlow a.phase = true :=
      exec_observe (.lagged busyRoom busyRoom :: turns (replicate 177 none))
        _ (by decide +kernel)
    refine ⟨a, ha, ?_⟩
    unfold isTooSlow at hp
    split at hp
    · assumption
    · cases hp

/-- The empty room's snapshot fits, also with one message of another task. -/
theorem resync_completes_iff_empty : Readable sampleCodec emptyRoom.room ∧
      ResyncCompletes sampleCodec (start 64 1) emptyRoom.room
        emptyRoom.room 1 := by
  have hr : Readable sampleCodec emptyRoom.room := by
    intro o record h
    cases h
  exact ⟨hr, (resync_completes_iff _ (a := start 64 1) hr rfl (by decide) 1).mpr (by decide)⟩

end Bore.ControlResync
