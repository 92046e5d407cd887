import Bore.SessionRoom

namespace Bore.SessionTracks

open RegistryTypes RegistryCatalogue PeerSession Replay SessionViews SessionRoom List

variable {Manifest Value : Type} (codec : ManifestCodec Manifest Value) (cfg : Config) (me : Connection)

/-- The event may be broadcast without the session: what it announces was there
when the session read that part. A subscribed session has to have room for it. -/
def covered (phase : Phase Value) (e : RoomEvent) : Bool :=
  match phase with
  | .parts _ revision _ => e.offer?.isSome || e.revision ≤ revision
  | .views _ revision _ _ seen => e.revision ≤ if e.offer?.isSome then seen else revision
  | .live _ receiver | .resync _ receiver _ _ => receiver.unread.length < eventCapacity
  | .offline | .joined _ | .ended => true

def announced (s t : System Value) : List RoomEvent := unsent (t.sending.drop s.sending.length)

/-- An operation begins when every earlier change that names its peer or one of
its offers has been broadcast, and does not close the room; no event is
broadcast that the session would miss. -/
def timely (s : System Value) (a : Action Manifest) : Bool :=
  match step codec cfg me s a with
  | none => true
  | some t =>
    (announced s t).all (fun e => e.peer?.isSome && (unsent s.sending).all (fun f => e.apart f)) &&
      match a with
      | .send connection => ((popEvent connection s.sending).map Prod.fst).all (covered s.phase)
      | _ => true

/-- What the session has read so far, replayed up to the events that are still
to be broadcast, is the room. -/
def Tracks (room : Room) (pending : List RoomEvent) : Phase Value → Prop
  | .offline | .joined _ | .ended => True
  | .parts _ revision peers =>
    revision ≤ room.revision ∧ (peers.map Prod.fst).Nodup ∧
      (∀ e ∈ pending, e.offer? = none → e.revision ≤ revision →
        ∀ offers, act codec e ⟨fun p => Table.lookup p peers, offers⟩ = ⟨fun p => Table.lookup p peers, offers⟩) ∧
      ∀ offers, (replay (act codec) pending ⟨fun p => Table.lookup p peers, offers⟩).peers = (roomView codec room).peers
  | .views _ revision peers views seen =>
    revision ≤ room.revision ∧ seen ≤ room.revision ∧ (peers.map Prod.fst).Nodup ∧
      (∀ view ∈ views, (codec.fromSlice view.manifest).isSome) ∧ ((pageOffers codec views).map Prod.fst).Nodup ∧
      ∃ v : View Value, v = ⟨fun p => Table.lookup p peers, fun o => Table.lookup o (pageOffers codec views)⟩ ∧
        (∀ e ∈ pending, (e.revision ≤ if e.offer?.isSome then seen else revision) → act codec e v = v) ∧
        replay (act codec) pending v = roomView codec room
  | .live browser receiver =>
    receiver.lagged = false ∧ replay (act codec) (receiver.unread ++ pending) (browserView browser) = roomView codec room
  | .resync _ _ _ _ => False

def Separate (sending : List (Connection × List RoomEvent)) : Prop :=
  sending.Pairwise (fun a b => ∀ e ∈ a.2, ∀ f ∈ b.2, e.apart f = true)

structure Faithful (room : Room) (sending : List (Connection × List RoomEvent)) (phase : Phase Value) : Prop where
  readable : Readable codec room
  apart : Separate sending
  stands : ∀ e ∈ unsent sending, Stands codec e (roomView codec room)
  past : ∀ e ∈ unsent sending, e.revision ≤ room.revision
  tracks : Tracks codec room (unsent sending) phase

variable {codec cfg me}
variable {room : Room} {events : List RoomEvent} {phase : Phase Value} {e : RoomEvent}
  {rest sending : List (Connection × List RoomEvent)}

theorem Tracks.announce {room' : Room} {pending : List RoomEvent}
    (h : Tracks codec room pending phase) (ha : Announces codec room room' events) :
    Tracks codec room' (pending ++ events) phase := by
  cases phase with
  | offline | joined | ended => trivial
  | resync => exact h
  | parts _ revision peers =>
    obtain ⟨hr, hn, hfix, hview⟩ := h
    refine ⟨Nat.le_trans hr ha.revision, hn, ?_, ?_⟩
    · intro e he ho hle
      rcases mem_append.mp he with he | he
      · exact hfix e he ho hle
      · have := (ha.fresh e he).1
        omega
    · intro offers
      rw [replay_append, ha.view]
      exact replay_part View.peers act_peers_congr events (hview offers)
  | views _ revision =>
    obtain ⟨hr, hs, hn, hread, hno, v, hv, hfix, hview⟩ := h
    refine ⟨Nat.le_trans hr ha.revision, Nat.le_trans hs ha.revision, hn, hread, hno, v, hv, ?_, ?_⟩
    · intro e he hle
      rcases mem_append.mp he with he | he
      · exact hfix e he hle
      · have := (ha.fresh e he).1
        split at hle <;> omega
    · rw [replay_append, hview, ha.view]
  | live =>
    obtain ⟨hl, hview⟩ := h
    exact ⟨hl, by rw [← append_assoc, replay_append, hview, ha.view]⟩

theorem Tracks.broadcast {pre post : List RoomEvent} {s : System Value}
    (h : Tracks codec room (pre ++ e :: post) s.phase) (hapart : ∀ f ∈ pre, e.apart f = true)
    (hc : covered s.phase e = true) : Tracks codec room (pre ++ post) (s.broadcast e).phase := by
  have hcomm : ∀ f ∈ pre, Commutes (act codec) e f := fun f hf => apart_commutes (hapart f hf)
  have hsub : ∀ f, f ∈ pre ++ post → f ∈ pre ++ e :: post := by
    intro f hf
    rcases mem_append.mp hf with hf | hf
    · exact mem_append_left _ hf
    · exact mem_append_right _ (mem_cons_of_mem e hf)
  have he : e ∈ pre ++ e :: post := mem_append_right _ mem_cons_self
  unfold System.broadcast
  cases hp : s.phase with
  | offline | joined | ended =>
    simp only [hp]
    trivial
  | resync =>
    rw [hp] at h
    exact h.elim
  | parts _ revision peers =>
    rw [hp] at h hc
    simp only [hp]
    obtain ⟨hr, hn, hfix, hview⟩ := h
    refine ⟨hr, hn, fun f hf => hfix f (hsub f hf), ?_⟩
    intro offers
    have hsame : (act codec e ⟨fun p => Table.lookup p peers, offers⟩).peers = fun p => Table.lookup p peers := by
      cases ho : e.offer? with
      | some => exact act_peers_of_offer (by rw [ho]; rfl) _
      | none =>
        have hle : e.revision ≤ revision := by simpa [covered, ho] using hc
        rw [hfix e he ho hle]
    rw [← hview offers, replay_overtake post hcomm]
    exact replay_part View.peers act_peers_congr _ hsame.symm
  | views =>
    rw [hp] at h hc
    simp only [hp]
    obtain ⟨hr, hs, hn, hread, hno, v, hv, hfix, hview⟩ := h
    refine ⟨hr, hs, hn, hread, hno, v, hv, fun f hf => hfix f (hsub f hf), ?_⟩
    rw [replay_overtake post hcomm, hfix e he (by simpa [covered] using hc)] at hview
    exact hview
  | live _ receiver =>
    rw [hp] at h hc
    obtain ⟨hl, hview⟩ := h
    have hlen : receiver.unread.length < eventCapacity := by simpa [covered] using hc
    simp only [Receiver.push, if_pos hlen]
    refine ⟨hl, ?_⟩
    rw [replay_append, replay_overtake post hcomm] at hview
    simpa using hview

@[simp] theorem unsent_nil : unsent [] = [] := rfl

@[simp] theorem unsent_cons (c : Connection) (events : List RoomEvent) (rest : List (Connection × List RoomEvent)) :
    unsent ((c, events) :: rest) = events ++ unsent rest := rfl

@[simp] theorem unsent_append (xs ys : List (Connection × List RoomEvent)) :
    unsent (xs ++ ys) = unsent xs ++ unsent ys :=
  flatMap_append

theorem separate_cons {c : Connection} :
    Separate ((c, events) :: rest) ↔ (∀ e ∈ events, ∀ f ∈ unsent rest, e.apart f = true) ∧ Separate rest := by
  simp only [Separate, pairwise_cons, unsent, mem_flatMap]
  constructor
  · rintro ⟨h, hr⟩
    refine ⟨?_, hr⟩
    rintro e he f ⟨b, hb, hf⟩
    exact h b hb e he f hf
  · rintro ⟨h, hr⟩
    exact ⟨fun b hb e he f hf => h e he f ⟨b, hb, hf⟩, hr⟩

theorem popEvent_spec {connection : Connection}
    (h : popEvent connection sending = some (e, rest)) (hs : Separate sending) :
    ∃ pre post, unsent sending = pre ++ e :: post ∧ unsent rest = pre ++ post ∧ (∀ f ∈ pre, e.apart f = true) ∧
      Separate rest := by
  induction sending generalizing rest with
  | nil => cases h
  | cons x sending ih =>
    rcases x with ⟨c, events⟩
    obtain ⟨hx, hrest⟩ := separate_cons.mp hs
    unfold popEvent at h
    split at h
    · split at h
      all_goals cases h
      · exact ⟨[], unsent sending, rfl, rfl, by simp, hrest⟩
      · rename_i next events'
        refine ⟨[], next :: events' ++ unsent sending, rfl, rfl, by simp, separate_cons.mpr ⟨?_, hrest⟩⟩
        exact fun f hf => hx f (mem_cons_of_mem _ hf)
    obtain ⟨⟨e', rest'⟩, hpop, he⟩ := Option.map_eq_some_iff.mp h
    cases he
    obtain ⟨pre, post, hsend, hleft, hpre, hsep⟩ := ih hpop hrest
    refine ⟨events ++ pre, post, by simp [hsend], by simp [hleft], ?_, separate_cons.mpr ⟨?_, hsep⟩⟩
    · intro f hf
      rcases mem_append.mp hf with hf | hf
      · exact RoomEvent.apart_symm (hx f hf e' (by simp [hsend]))
      · exact hpre f hf
    · intro f hf g hg
      refine hx f hf g ?_
      rw [hleft] at hg
      rw [hsend]
      simp only [mem_append, mem_cons] at hg ⊢
      tauto

theorem Faithful.announce {room' : Room} (connection : Connection) (h : Faithful codec room sending phase)
    (ha : Announces codec room room' events) (hapart : ∀ e ∈ events, ∀ f ∈ unsent sending, e.apart f = true) :
    Faithful codec room' (if events.isEmpty then sending else sending ++ [(connection, events)]) phase := by
  have hu : unsent (if events.isEmpty then sending else sending ++ [(connection, events)]) =
      unsent sending ++ events := by
    cases events <;> simp
  refine ⟨ha.readable h.readable, ?_, ?_, ?_, ?_⟩
  · split
    · exact h.apart
    · refine pairwise_append.mpr ⟨h.apart, pairwise_singleton _ _, ?_⟩
      intro b hb c hc e he f hf
      cases mem_singleton.mp hc
      exact RoomEvent.apart_symm (hapart f hf e (mem_flatMap.mpr ⟨b, hb, he⟩))
  · rw [hu]
    intro e he
    rcases mem_append.mp he with he | he
    · rw [ha.view]
      exact (h.stands e he).replay (fun f hf => RoomEvent.apart_symm (hapart f hf e he))
    · exact ha.stands e he
  · rw [hu]
    intro e he
    rcases mem_append.mp he with he | he
    · exact Nat.le_trans (h.past e he) ha.revision
    · exact (ha.fresh e he).2
  · rw [hu]
    exact h.tracks.announce ha

theorem Faithful.of_phase {phase' : Phase Value}
    (h : Faithful codec room sending phase) (ht : Tracks codec room (unsent sending) phase') :
    Faithful codec room sending phase' :=
  { h with tracks := ht }

theorem Faithful.broadcast {s : System Value} {connection : Connection} (h : Faithful codec s.scope.room s.sending s.phase)
    (hpop : popEvent connection s.sending = some (e, rest)) (hc : covered s.phase e = true) :
    Faithful codec s.scope.room rest (System.broadcast { s with sending := rest } e).phase := by
  obtain ⟨pre, post, hsend, hrest, hpre, hsep⟩ := popEvent_spec hpop h.apart
  have hsub : ∀ f ∈ unsent rest, f ∈ unsent s.sending := by
    intro f hf
    rw [hrest] at hf
    rw [hsend]
    simp only [mem_append, mem_cons] at hf ⊢
    tauto
  refine ⟨h.readable, hsep, fun f hf => h.stands f (hsub f hf), fun f hf => h.past f (hsub f hf), ?_⟩
  rw [hrest]
  exact Tracks.broadcast (hsend ▸ h.tracks) hpre hc

end Bore.SessionTracks
