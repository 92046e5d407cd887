import Bore.SessionViews

namespace Bore.SessionRoom

open RegistryTypes RegistryOps RegistryCatalogue PeerSession Replay SessionViews List

variable {Manifest Value : Type} (codec : ManifestCodec Manifest Value)

def shown (record : OfferRecord) : Option (BrowserOffer Value) :=
  (codec.fromSlice record.manifest).map (fun value => ⟨record.owner, value, record.mac⟩)

def roomView (room : Room) : View Value :=
  ⟨fun p => (room.peers.get? p).map PeerRecord.displayName, fun o => (room.offers.get? o).bind (shown codec)⟩

def Readable (room : Room) : Prop := ∀ o record, room.offers.get? o = some record → (shown codec record).isSome

theorem snapshotParts_view (room : Room) : ((snapshotParts room).2.map Prod.fst).Nodup ∧
      (fun p => Table.lookup p (snapshotParts room).2) = (roomView codec room).peers := by
  have hperm := perm_insertionSort (fun a b => a.1 ≤ b.1)
    (room.peers.entries.map (fun e => (e.1, e.2.displayName)))
  have hn : ((room.peers.entries.map (fun e => (e.1, e.2.displayName))).map Prod.fst).Nodup := by
    simpa [map_map, Function.comp_def] using room.peers.nodup
  constructor
  · exact (hperm.map Prod.fst).nodup_iff.mpr hn
  · funext p
    exact (Table.lookup_perm hperm.symm hn p).symm.trans (Table.lookup_map _ p _)

theorem offerViews_view (h : Readable codec room) :
    (∀ view ∈ offerViews room, (codec.fromSlice view.manifest).isSome) ∧
      ((pageOffers codec (offerViews room)).map Prod.fst).Nodup ∧
      (fun o => Table.lookup o (pageOffers codec (offerViews room))) = (roomView codec room).offers := by
  have hperm := perm_insertionSort (fun a b => a.offer ≤ b.offer)
    (room.offers.entries.map (fun e => OfferView.mk e.2.owner e.1 e.2.manifest e.2.mac))
  have hpage : pageOffers codec (room.offers.entries.map (fun e => OfferView.mk e.2.owner e.1 e.2.manifest e.2.mac)) =
      room.offers.entries.filterMap (fun e => (shown codec e.2).map (fun b => (e.1, b))) := by
    simp [pageOffers, filterMap_map, Function.comp_def, shown]
  have hp : (pageOffers codec (offerViews room)).Perm
      (room.offers.entries.filterMap (fun e => (shown codec e.2).map (fun b => (e.1, b)))) := by
    rw [← hpage]
    exact hperm.filterMap _
  have hn := room.offers.nodup.sublist (Table.keys_filterMap_sublist (shown codec) room.offers.entries)
  refine ⟨?_, (hp.map Prod.fst).nodup_iff.mpr hn, ?_⟩
  · intro view hv
    obtain ⟨e, he, rfl⟩ := mem_map.mp (hperm.mem_iff.mp hv)
    simpa [shown] using h e.1 e.2 ((Table.get?_eq_some_iff _ _ _).mpr he)
  · funext o
    exact (Table.lookup_perm hp.symm hn o).symm.trans (Table.lookup_filterMap _ room.offers.nodup o)

/-- The room changed by what the events announce, and each event has a revision
of its own later than all before. -/
structure Announces (room room' : Room) (events : List RoomEvent) : Prop where
  view : roomView codec room' = replay (act codec) events (roomView codec room)
  stands : ∀ e ∈ events, Stands codec e (roomView codec room')
  fresh : ∀ e ∈ events, room.revision < e.revision ∧ e.revision ≤ room'.revision
  revision : room.revision ≤ room'.revision
  readable : Readable codec room → Readable codec room'

def SameCatalogue (room room' : Room) : Prop :=
  room'.peers = room.peers ∧ room'.offers = room.offers ∧ room'.revision = room.revision

variable {codec} {now : Instant} {cfg : Config} {peer : PeerId} {s s' : Scope}

theorem roomView_congr (hp : room'.peers = room.peers) (ho : room'.offers = room.offers) :
    roomView codec room' = roomView codec room := by
  simp only [roomView, hp, ho]

theorem SameCatalogue.announces (h : SameCatalogue room room') : Announces codec room room' [] where
  view := roomView_congr h.1 h.2.1
  stands := by simp
  fresh := by simp
  revision := Nat.le_of_eq h.2.2.symm
  readable := by
    intro hr o record ho
    exact hr o record (h.2.1 ▸ ho)

theorem terminateLocked_sameCatalogue (id : TransferId) (st : TransferState) (s : Scope) :
    SameCatalogue s.room (terminateLocked now id st s).1.room := by
  unfold terminateLocked
  split
  · exact ⟨rfl, rfl, rfl⟩
  · split <;> exact ⟨rfl, rfl, rfl⟩

theorem cancelOnes_sameCatalogue (byPeer : PeerId) (ids : List TransferId) (acc : Scope × Outbox) :
    SameCatalogue acc.1.room (ids.foldl (cancelOne now byPeer) acc).1.room := by
  refine foldlRecOn (motive := fun b : Scope × Outbox => SameCatalogue acc.1.room b.1.room) _ _ ⟨rfl, rfl, rfl⟩
    fun b hb id _ => ?_
  have ht : SameCatalogue b.1.room (terminateLocked now id .cancelled b.1).1.room :=
    terminateLocked_sameCatalogue id .cancelled b.1
  unfold cancelOne
  simp only
  repeat' split
  all_goals exact ⟨ht.1.trans hb.1, ht.2.1.trans hb.2.1, ht.2.2.trans hb.2.2⟩

theorem cancelWhereLocked_sameCatalogue (matched : TransferRecord → Bool) (s : Scope) :
    SameCatalogue s.room (cancelWhereLocked now peer matched s).1.room :=
  cancelOnes_sameCatalogue peer _ (s, [])

theorem checkedRoomRevision_ok {current steps revision : Nat} (h : checkedRoomRevision current steps = .ok revision) :
    revision = current + steps := by
  unfold checkedRoomRevision at h
  split at h
  · cases h
    rfl
  · cases h

theorem joinLocked_announces {name : Option String} (h : joinLocked cfg peer name s = (s', .ok e)) :
    Announces codec s.room s'.room [e] := by
  unfold joinLocked at h
  repeat' split at h
  all_goals cases h
  rename_i revision hrev
  have hr := checkedRoomRevision_ok hrev
  refine ⟨?_, ?_, ?_, ?_, fun hread => hread⟩
  · apply View.ext <;> funext k <;> simp only [roomView, replay_cons, replay_nil, act, peerAct, offerAct,
      RoomEvent.peer?, Table.get?_insert]
    grind
  · simp [Stands, roomView]
  · simp [RoomEvent.revision, hr]
  · simp [hr]

theorem joinPeer_announces {displayName : Option String}
    (h : joinPeer cfg peer displayName s = (s', .ok e)) : Announces codec s.room s'.room [e] := by
  unfold joinPeer at h
  repeat' split at h
  all_goals first | exact joinLocked_announces h | cases h

theorem joinPeer_error {displayName : Option String} {e : WebTransferError}
    (h : joinPeer cfg peer displayName s = (s', .error e)) : s'.room = s.room := by
  unfold joinPeer joinLocked at h
  repeat' split at h
  all_goals
    cases h
    try rfl

theorem renamePeer_announces {rawName : String}
    (h : renamePeer cfg peer rawName room = (room', .ok e)) : Announces codec room room' [e] := by
  unfold renamePeer at h
  repeat' split at h
  all_goals cases h
  rename_i hmem _ revision hrev
  have hr := checkedRoomRevision_ok hrev
  obtain ⟨old, hold⟩ : ∃ old, room.peers.get? peer = some old := by
    simpa [Table.contains, Option.ne_none_iff_exists'] using hmem
  refine ⟨?_, ?_, ?_, ?_, fun hread => hread⟩
  · apply View.ext <;> funext k <;> simp only [roomView, replay_cons, replay_nil, act, peerAct, offerAct,
      RoomEvent.peer?, Table.get?_insert]
    grind
  · simp [Stands, roomView]
  · simp [RoomEvent.revision, hr]
  · simp [hr]

theorem publishOffer_announces {manifestOffer : OfferId} {manifest : Manifest} {mac : Digest} {e : Option RoomEvent}
    (h : publishOffer cfg peer offer manifestOffer (codec.canonical manifest) mac s = (s', .ok e)) :
    Announces codec s.room s'.room e.toList := by
  unfold publishOffer at h
  repeat' split at h
  all_goals cases h
  · exact SameCatalogue.announces ⟨rfl, rfl, rfl⟩
  · rename_i revision hrev
    have hr := checkedRoomRevision_ok hrev
    obtain ⟨value, hv⟩ := Option.isSome_iff_exists.mp (codec.reads manifest)
    refine ⟨?_, ?_, ?_, ?_, ?_⟩
    · apply View.ext <;> funext k <;> simp only [roomView, Option.toList_some, replay_cons, replay_nil, act, peerAct,
        offerAct, RoomEvent.peer?, Table.get?_insert, hv]
      all_goals grind [shown]
    · simp [Stands, roomView, shown, hv]
    · simp [RoomEvent.revision, hr]
    · simp [hr]
    · intro hread o record ho
      simp only [Table.get?_insert] at ho
      split at ho
      · cases ho
        simp [shown, hv]
      · exact hread o record ho

theorem publishOffer_error {manifestOffer : OfferId} {canonical : Bytes} {mac : Digest} {e : WebTransferError}
    (h : publishOffer cfg peer offer manifestOffer canonical mac s = (s', .error e)) : s'.room = s.room := by
  unfold publishOffer at h
  repeat' split at h
  all_goals
    cases h
    try rfl

theorem Readable.of_get? (h : Readable codec room)
    (ho : ∀ o record, room'.offers.get? o = some record → room.offers.get? o = some record) : Readable codec room' :=
  fun o record hr => h o record (ho o record hr)

theorem erase_announces (hp : room'.peers = room.peers)
    (ho : room'.offers = room.offers.erase offer) (hr : room'.revision = room.revision + 1) :
    Announces codec room room' [.offerRemoved peer offer (room.revision + 1)] where
  view := by
    apply View.ext <;> funext k <;> simp only [roomView, hp, ho, replay_cons, replay_nil, act, peerAct, offerAct,
      Table.get?_erase]
    all_goals grind
  stands := by simp [Stands, roomView, ho, Table.get?_erase]
  fresh := by simp [RoomEvent.revision, hr]
  revision := by omega
  readable := by
    intro h
    refine h.of_get? ?_
    intro o record
    rw [ho, Table.get?_erase]
    grind

theorem withdrawOffer_announces {outbox : Outbox}
    (h : withdrawOffer now peer offer s = (s', .ok (some (e, outbox)))) : Announces codec s.room s'.room [e] := by
  unfold withdrawOffer at h
  repeat' split at h
  all_goals cases h
  rename_i record _ _ _ _ hrev _ t ht
  have hsame : SameCatalogue (dropOffer s offer record).room t.room := by
    have hc : SameCatalogue (dropOffer s offer record).room
        (cancelWhereLocked now peer (fun r => r.offerId == offer) (dropOffer s offer record)).1.room :=
      cancelWhereLocked_sameCatalogue _ _
    rwa [ht] at hc
  have hr := checkedRoomRevision_ok hrev
  subst hr
  exact erase_announces hsame.1 hsame.2.1 rfl

theorem withdrawOffer_room {r : Except WebTransferError (Option (RoomEvent × Outbox))}
    (h : withdrawOffer now peer offer s = (s', r)) (hr : ∀ e, r ≠ .ok (some e)) : s'.room = s.room := by
  unfold withdrawOffer at h
  repeat' split at h
  all_goals
    cases h
    try rfl
  exact absurd rfl (hr _)

variable (codec peer) in
structure Removed (keys : List OfferId) (s : Scope) (revision : Nat) (result : Scope × Nat × List RoomEvent) : Prop where
  peers : result.1.room.peers = s.room.peers
  offers : ∀ o, result.1.room.offers.get? o = if o ∈ keys then none else s.room.offers.get? o
  last : result.2.1 = revision + keys.length
  events : ∀ e ∈ result.2.2, ∃ o r, e = .offerRemoved peer o r ∧ o ∈ keys ∧ revision < r ∧ r ≤ result.2.1
  replay : ∀ v : View Value, replay (act codec) result.2.2 v =
    ⟨v.peers, fun o => if o ∈ keys then none else v.offers o⟩
variable {room room' : Room} {e : RoomEvent} {offer : OfferId}

theorem removeOffers_removed (owned : List (OfferId × OfferRecord)) (s : Scope) (revision : Nat) :
    Removed codec peer (owned.map Prod.fst) s revision (removeOffers peer true owned s revision) := by
  induction owned generalizing s revision with
  | nil => exact ⟨rfl, by simp [removeOffers], rfl, by simp [removeOffers], fun v => by simp [removeOffers]⟩
  | cons e _ ih =>
    rcases e with ⟨offer, record⟩
    have h := ih (dropOffer s offer record) (revision + 1)
    simp only [removeOffers, if_true]
    refine ⟨h.peers, ?_, ?_, ?_, ?_⟩
    · intro o
      rw [h.offers o]
      simp only [dropOffer, Table.get?_erase, map_cons, mem_cons]
      grind
    · rw [h.last]
      simp only [map_cons, length_cons]
      omega
    · intro e he
      rcases mem_cons.mp he with rfl | he
      · refine ⟨offer, revision + 1, rfl, by simp, by omega, ?_⟩
        rw [h.last]
        omega
      · obtain ⟨o, r, rfl, ho, hlt, hle⟩ := h.events e he
        exact ⟨o, r, rfl, mem_cons_of_mem _ ho, by omega, hle⟩
    · intro v
      rw [replay_cons, h.replay]
      apply View.ext
      · funext p
        simp [act, peerAct]
      · funext o
        simp only [act, offerAct, map_cons, mem_cons]
        grind

theorem removePeer_absent (h : removePeer now peer s = (s', none)) : s'.room = s.room := by
  unfold removePeer at h
  split at h
  · cases h
    rfl
  · simp only at h
    split at h <;> cases h

theorem Removed.announces {keys : List OfferId} {t : Scope} {result : Scope × Nat × List RoomEvent}
    (h : Removed codec peer keys t s.room.revision result) (hoffers : t.room.offers = s.room.offers)
    (hpeers : t.room.peers = s.room.peers.erase peer)
    (howned : ∀ o record, s.room.offers.get? o = some record → record.owner = peer → o ∈ keys)
    (hsame : SameCatalogue { result.1.room with revision := result.2.1 + 1 } room) :
    Announces codec s.room room (result.2.2 ++ [.peerLeft peer (result.2.1 + 1)]) := by
  have hp : ∀ p, room.peers.get? p = if p = peer then none else s.room.peers.get? p := by
    intro p
    rw [hsame.1, h.peers, hpeers, Table.get?_erase]
  have ho : ∀ o, room.offers.get? o = if o ∈ keys then none else s.room.offers.get? o := by
    intro o
    rw [hsame.2.1, h.offers, hoffers]
  have hlast : result.2.1 = s.room.revision + keys.length := h.last
  have hr : room.revision = result.2.1 + 1 := hsame.2.2
  have hleft : ∀ o b, (roomView codec room).offers o = some b → b.peerId ≠ peer := by
    intro o b hb hbp
    obtain ⟨record, hrec, hb⟩ := Option.bind_eq_some_iff.mp hb
    obtain ⟨value, _, rfl⟩ := Option.map_eq_some_iff.mp hb
    rw [ho] at hrec
    split at hrec
    · cases hrec
    · rename_i hk
      exact hk (howned o record hrec hbp)
  refine ⟨?_, ?_, ?_, by omega, ?_⟩
  · rw [replay_append, h.replay]
    apply View.ext
    · funext p
      simp only [replay_cons, replay_nil, act, peerAct, RoomEvent.peer?, roomView, hp]
      grind
    · funext o
      have hentry : (if o ∈ keys then none else (roomView codec s.room).offers o) = (roomView codec room).offers o := by
        simp only [roomView, ho]
        grind
      rw [replay_cons, replay_nil, act_peerLeft_offers]
      · exact hentry.symm
      · intro b hb
        exact hleft o b (hentry.symm.trans hb)
  · intro e he
    rcases mem_append.mp he with he | he
    · obtain ⟨o, r, rfl, hk, _⟩ := h.events e he
      simp [Stands, roomView, ho, hk]
    · obtain rfl := mem_singleton.mp he
      exact ⟨by simp [roomView, hp], hleft⟩
  · intro e he
    rcases mem_append.mp he with he | he
    · obtain ⟨o, r, rfl, _, hlt, hle⟩ := h.events e he
      exact ⟨hlt, by simp only [RoomEvent.revision]; omega⟩
    · obtain rfl := mem_singleton.mp he
      simp only [RoomEvent.revision]
      omega
  · intro hread
    refine hread.of_get? ?_
    intro o record
    grind

theorem removePeer_announces {d : Departure} (h : removePeer now peer s = (s', some d)) (hd : d.exhausted = false) :
    Announces codec s.room s'.room d.events := by
  unfold removePeer at h
  split at h
  · cases h
  simp only at h
  split at h
  · rename_i hinc
    rw [hinc] at h
    cases h
    refine (removeOffers_removed (s.room.offers.entries.filter (fun e => e.2.owner == peer)) _ _).announces
      rfl rfl ?_ ?_
    · intro o record hrec howner
      exact mem_map.mpr ⟨(o, record), mem_filter.mpr
        ⟨(Table.get?_eq_some_iff _ _ _).mp hrec, by simpa using howner⟩, rfl⟩
    · exact ⟨(cancelWhereLocked_sameCatalogue _ _).1, (cancelWhereLocked_sameCatalogue _ _).2.1, rfl⟩
  · cases h
    cases hd

end Bore.SessionRoom
