import Bore.SessionTracks

namespace Bore.SessionMirror

open RegistryTypes RegistryCatalogue PeerSession Replay SessionViews SessionRoom SessionTracks Runs

variable {Manifest Value : Type} {codec : ManifestCodec Manifest Value} {cfg : Config} {me : Connection}
variable {s t : System Value} {connection : Connection} {room : Room} {browser : BrowserState Value}

def Sound (codec : ManifestCodec Manifest Value) (s : System Value) : Prop :=
  s.destroyed = false ∧ Faithful codec s.scope.room s.sending s.phase

theorem announced_announce (s : System Value) (connection : Connection) (scope : Scope) (events : List RoomEvent) :
    announced s (s.announce connection scope events) = events := by
  cases events <;> simp [announced, System.announce]

variable {scope : Scope}

theorem Sound.announce {events : List RoomEvent}
    (h : Sound codec s) (ha : Announces codec s.scope.room scope.room events)
    (hapart : ∀ e ∈ announced s (s.announce connection scope events), ∀ f ∈ unsent s.sending, e.apart f = true) :
    Sound codec (s.announce connection scope events) := by
  rw [announced_announce] at hapart
  exact ⟨h.1, h.2.announce connection ha hapart⟩

section

variable (h : Sound codec s) (hd : t.destroyed = s.destroyed) (hr : t.scope.room = s.scope.room)
  (hs : t.sending = s.sending)
include h hd hr hs

theorem Sound.of_room (hp : t.phase = s.phase) : Sound codec t := by
  unfold Sound
  rw [hd, hr, hs, hp]
  exact h

theorem Sound.of_phase (ht : Tracks codec s.scope.room (unsent s.sending) t.phase) : Sound codec t := by
  refine ⟨hd.trans h.1, ?_⟩
  rw [hr, hs]
  exact h.2.of_phase ht

end

theorem broadcast_frame (s : System Value) (e : RoomEvent) :
    (s.broadcast e).destroyed = s.destroyed ∧ (s.broadcast e).scope = s.scope ∧
      (s.broadcast e).sending = s.sending := by
  unfold System.broadcast
  split <;> exact ⟨rfl, rfl, rfl⟩

theorem Sound.broadcast {e : RoomEvent} {rest : List (Connection × List RoomEvent)} (h : Sound codec s)
    (hpop : popEvent connection s.sending = some (e, rest)) (hc : covered s.phase e = true) :
    Sound codec (System.broadcast { s with sending := rest } e) := by
  obtain ⟨hd, hscope, hsending⟩ := broadcast_frame { s with sending := rest } e
  refine ⟨hd.trans h.1, ?_⟩
  rw [hscope, hsending]
  exact h.2.broadcast hpop hc

variable {now : Instant} {peer : PeerId}

theorem Sound.depart (h : Sound codec s)
    (hnamed : ∀ e ∈ announced s (s.depart now connection peer), e.peer?.isSome = true)
    (hapart : ∀ e ∈ announced s (s.depart now connection peer), ∀ f ∈ unsent s.sending, e.apart f = true) :
    Sound codec (s.depart now connection peer) := by
  have hs : Sound codec { s with connections := s.connections.erase connection } := h.of_room rfl rfl rfl rfl
  unfold System.depart at hnamed hapart ⊢
  simp only at hnamed hapart ⊢
  cases hrem : removePeer now peer s.scope with
  | mk _ departure =>
    rw [hrem] at hnamed hapart
    cases departure with
    | none => exact h.of_room rfl (removePeer_absent hrem) rfl rfl
    | some d =>
      by_cases hd : d.exhausted
      · -- the only announcement would be the close of the room
        simp only [hd, if_true, h.1, Bool.false_eq_true, if_false] at hnamed
        have hclosed := hnamed (.roomClosed "revision-exhausted") (by simp [announced, System.announce])
        simp [RoomEvent.peer?] at hclosed
      · have hd : d.exhausted = false := by simpa using hd
        simp only [hd, Bool.false_eq_true, if_false] at hapart ⊢
        exact hs.announce (removePeer_announces hrem hd) hapart

variable {sending : List (Connection × List RoomEvent)}

theorem tracks_snapshotParts {phase : Phase Value} (h : Faithful codec room sending phase) (peer : PeerId) :
    Tracks codec room (unsent sending) (.parts peer (snapshotParts room).1 (snapshotParts room).2) := by
  obtain ⟨hn, hview⟩ := snapshotParts_view codec room
  refine ⟨Nat.le_refl _, hn, ?_, ?_⟩
  · intro e he ho _ offers
    rw [hview]
    exact (h.stands e he).peers_fixed ho offers
  · intro offers
    rw [hview]
    -- every event still to be sent was announced before the read
    have hfix : replay (act codec) (unsent sending) (roomView codec room) = roomView codec room :=
      replay_of_fixed (fun e he => (h.stands e he).fixed)
    have hpart : (replay (act codec) (unsent sending) ⟨(roomView codec room).peers, offers⟩).peers =
        (replay (act codec) (unsent sending) (roomView codec room)).peers :=
      replay_part View.peers act_peers_congr _ rfl
    rw [hpart, hfix]

theorem tracks_offerViews {revision : Nat}
    {peers : List (PeerId × Option String)} (h : Faithful codec room sending (.parts peer revision peers)) :
    Tracks codec room (unsent sending) (.views peer revision peers (offerViews room) room.revision) := by
  obtain ⟨hr, hn, hfix, hview⟩ := h.tracks
  obtain ⟨hread, hno, hoffers⟩ := offerViews_view codec h.readable
  refine ⟨hr, Nat.le_refl _, hn, hread, hno, _, rfl, ?_, ?_⟩
  · intro e he hle
    rw [hoffers]
    cases ho : e.offer? with
    | none => exact hfix e he ho (by simpa [ho] using hle) _
    | some =>
      apply View.ext
      · exact act_peers_of_offer (by rw [ho]; rfl) _
      · exact (h.stands e he).offers_fixed _
  · rw [hoffers]
    exact View.ext (hview _) (replay_offers_of_stands h.stands _)

theorem Sound.receive {receiver : Receiver}
    (h : Sound codec s) (hp : s.phase = .live browser receiver) (hs : s.receive codec now me browser receiver = some t)
    (hnamed : ∀ e ∈ announced s t, e.peer?.isSome = true)
    (hapart : ∀ e ∈ announced s t, ∀ f ∈ unsent s.sending, e.apart f = true) : Sound codec t := by
  have htracks := h.2.tracks
  rw [hp] at htracks
  obtain ⟨hl, hview⟩ := htracks
  unfold System.receive at hs
  simp only [hl, Bool.false_eq_true, if_false] at hs
  split at hs
  · cases hs
  · split at hs
    · cases hs
      exact h.of_phase rfl rfl rfl trivial
    · cases hs
      have hd : Sound codec (s.depart now me _) := h.depart hnamed hapart
      exact hd.of_phase rfl rfl rfl trivial
  · rename_i hu
    cases hs
    refine h.of_phase rfl rfl rfl ⟨rfl, ?_⟩
    rw [hu] at hview
    rw [browserView_deliver]
    exact hview

variable {a : Action Manifest}

theorem timely_announced (h : timely codec cfg me s a = true) (hs : step codec cfg me s a = some t) :
    (∀ e ∈ announced s t, e.peer?.isSome = true) ∧ ∀ e ∈ announced s t, ∀ f ∈ unsent s.sending, e.apart f = true := by
  simp only [timely, hs, Bool.and_eq_true, List.all_eq_true] at h
  exact ⟨fun e he => (h.1 e he).1, fun e he => (h.1 e he).2⟩

theorem step_sound (h : Sound codec s)
    (htimely : timely codec cfg me s a = true) (hs : step codec cfg me s a = some t) : Sound codec t := by
  obtain ⟨hnamed, hapart⟩ := timely_announced htimely hs
  have htracks := h.2.tracks
  revert hs
  fun_cases step codec cfg me s a
  all_goals intro hs
  all_goals try cases hs
  case case2.refl hj => exact h.of_room rfl (joinPeer_error hj) rfl rfl
  case case3.refl scope e hj _ _ _ =>
    have ha : Announces codec s.scope.room scope.room [e] := joinPeer_announces hj
    exact (h.announce ha hapart).of_phase rfl rfl rfl trivial
  case case5 scope e hj _ _ =>
    have ha : Announces codec s.scope.room scope.room [e] := joinPeer_announces hj
    obtain rfl := Option.some.inj hs
    exact (h.announce ha hapart).of_room rfl rfl rfl rfl
  case case7.refl => exact h
  case case8.refl hr => exact h.announce (renamePeer_announces hr) hapart
  case case10.refl hp => exact h.of_room rfl (publishOffer_error hp) rfl rfl
  case case11.refl hp => exact h.announce (publishOffer_announces hp) hapart
  case case13.refl hw => exact h.announce (withdrawOffer_announces hw) hapart
  case case14.refl hne hw =>
    refine h.of_room rfl (withdrawOffer_room hw ?_) rfl rfl
    rintro ⟨e, outbox⟩ hr
    exact hne e outbox hr
  case case16.refl => exact (h.depart hnamed hapart).of_phase rfl rfl rfl trivial
  case case17.refl => exact h.depart hnamed hapart
  case case19.refl e _ hpop =>
    have hc : covered s.phase e = true := by
      simp only [timely, step, hpop, Bool.and_eq_true] at htimely
      simpa using htimely.2
    exact h.broadcast hpop hc
  case case21.refl => exact h.of_phase rfl rfl rfl (tracks_snapshotParts h.2 _)
  case case23.refl hp => exact h.of_phase rfl rfl rfl (tracks_offerViews (hp ▸ h.2))
  case case24.refl hp _ _ | case25.refl hp _ _ =>
    rw [hp] at htracks
    exact htracks.elim
  case case27.refl peer revision _ _ _ hp _ hm =>
    rw [hp] at htracks
    obtain ⟨_, _, hn, hread, hno, v, rfl, _, hview⟩ := htracks
    obtain ⟨_, hm', hbrowser⟩ := initialMessages_view s.scope.room peer revision hn hno hread {}
    cases hm.symm.trans hm'
    refine h.of_phase rfl rfl rfl ⟨rfl, ?_⟩
    rw [hbrowser]
    exact hview
  case case28.refl peer revision _ _ _ hp _ hm =>
    rw [hp] at htracks
    obtain ⟨_, _, hn, hread, hno, _⟩ := htracks
    obtain ⟨_, hm', _⟩ := initialMessages_view s.scope.room peer revision hn hno hread {}
    cases hm.symm.trans hm'
  case case30 hp => exact h.receive hp hs hnamed hapart

def start (scope : Scope) : System Value := ⟨scope, false, ∅, [], .offline⟩

structure Mirrors (codec : ManifestCodec Manifest Value) (browser : BrowserState Value) (room : Room) : Prop where
  peers : ∀ p, browser.peers.get? p = (room.peers.get? p).map PeerRecord.displayName
  offers : ∀ o, (browser.offers.get? o).map some = (room.offers.get? o).map (shown codec)

theorem mirrors_of_view (hr : Readable codec room)
    (h : browserView browser = roomView codec room) : Mirrors codec browser room := by
  refine ⟨fun p => congrFun (congrArg View.peers h) p, ?_⟩
  intro o
  have ho : browser.offers.get? o = (room.offers.get? o).bind (shown codec) := congrFun (congrArg View.offers h) o
  rw [ho]
  cases hrec : room.offers.get? o with
  | none => rfl
  | some record =>
    obtain ⟨b, hb⟩ := Option.isSome_iff_exists.mp (hr o record hrec)
    simp [hb]

/-- In every run whose steps are timely, a session that has been told of every
event shows the room. -/
theorem caught_up_session_mirrors_room {scope : Scope} (hr : Readable codec scope.room) {s : System Value}
    (h : Reaches (step codec cfg me) (fun s a => timely codec cfg me s a = true) (start scope) s)
    {browser : BrowserState Value} {receiver : Receiver} (hp : s.phase = .live browser receiver)
    (hunread : receiver.unread = []) (hsent : s.sending = []) : Mirrors codec browser s.scope.room := by
  have hsound : Sound codec s :=
    h.invariant ⟨rfl, hr, List.Pairwise.nil, by simp [start], by simp [start], trivial⟩ (fun _ _ _ hi ht hs => step_sound hi ht hs)
  have htracks := hsound.2.tracks
  rw [hp, hsent] at htracks
  obtain ⟨_, hview⟩ := htracks
  rw [hunread] at hview
  exact mirrors_of_view hsound.2.readable hview

def sampleCodec : ManifestCodec Bytes Bytes := ⟨id, some, fun _ => rfl⟩

def sampleLimits : Config where
  limits := ⟨16, 16, 1000, 1000, 8, 1, 1⟩
  iceServers := []
  directDeadlineMs := 20000
  ticketTtl := 30000
  nfc := id
  parseManifest := fun _ => .error (.invalid "unused")
  selectionDigest := fun _ _ _ _ => 0
  ticketHash := id

def emptyRoom : Scope where
  inner := ⟨16, [], ∅, ∅, [], 0, 0, 0, 0, 0, 0, 0, 0, 0⟩
  room := ⟨false, ∅, ∅, ∅, [], 0, 0⟩

def snapshotRead : List (Action Bytes) :=
  [.join 1 1 none, .send 1, .join 0 2 none, .send 0, .snapshotParts, .offerViews]

def outcome (s : System Bytes) : Option (Bool × Bool × Bool) :=
  match s.phase with
  | .live browser receiver =>
    some (receiver.unread.isEmpty && s.sending.isEmpty, browser.offers.contains 5, s.scope.room.offers.contains 5)
  | _ => none

theorem outcome_caught_up {s : System Bytes} {b c : Bool} (h : outcome s = some (true, b, c)) :
    ∃ browser receiver, s.phase = .live browser receiver ∧ receiver.unread = [] ∧ s.sending = [] ∧
      browser.offers.contains 5 = b ∧ s.scope.room.offers.contains 5 = c := by
  unfold outcome at h
  split at h
  · rename_i browser receiver hp
    simp only [Option.some.injEq, Prod.mk.injEq, Bool.and_eq_true, List.isEmpty_iff] at h
    exact ⟨browser, receiver, hp, h.1.1, h.1.2, h.2⟩
  · cases h

theorem Mirrors.contains (h : Mirrors codec browser room) (o : OfferId) :
    browser.offers.contains o = room.offers.contains o := by
  simpa [Table.contains] using congrArg Option.isSome (h.offers o)

/-- Peer 1 publishes between the reads and the subscription of peer 2, whose
page never shows the offer. -/
theorem offer_lost_before_subscribe :
    ∃ s browser receiver, Reaches (step sampleCodec sampleLimits 0) always (start emptyRoom) s ∧
      s.phase = .live browser receiver ∧ receiver.unread = [] ∧ s.sending = [] ∧
      ¬ Mirrors sampleCodec browser s.scope.room := by
  obtain ⟨s, hs, ho⟩ : ∃ s, Reaches (step sampleCodec sampleLimits 0) always (start emptyRoom) s ∧
      outcome s = some (true, false, true) :=
    exec_observe (snapshotRead ++ [.publish 1 5 5 [7] 9, .send 1, .subscribe 0]) outcome (by decide +kernel)
  obtain ⟨browser, receiver, hp, hu, hsent, hb, hc⟩ := outcome_caught_up ho
  refine ⟨s, browser, receiver, hs, hp, hu, hsent, ?_⟩
  intro hm
  have := hm.contains 5
  rw [hb, hc] at this
  cases this

theorem caught_up_session_mirrors_room_published : ∃ s browser receiver,
      Reaches (step sampleCodec sampleLimits 0) (fun s a => timely sampleCodec sampleLimits 0 s a = true)
        (start emptyRoom) s ∧ s.phase = .live browser receiver ∧ browser.offers.contains 5 = true ∧
      Mirrors sampleCodec browser s.scope.room := by
  obtain ⟨s, hs, ho⟩ : ∃ s, Reaches (step sampleCodec sampleLimits 0)
      (fun s a => timely sampleCodec sampleLimits 0 s a = true) (start emptyRoom) s ∧
      outcome s = some (true, true, true) :=
    execWhile_observe (snapshotRead ++ [.publish 1 5 5 [7] 9, .subscribe 0, .send 1, .receive 0]) outcome
      (by decide +kernel)
  obtain ⟨browser, receiver, hp, hu, hsent, hb, _⟩ := outcome_caught_up ho
  refine ⟨s, browser, receiver, hs, hp, hb, ?_⟩
  exact caught_up_session_mirrors_room (fun o record h => by cases h) hs hp hu hsent

end Bore.SessionMirror
