import Bore.SessionMirror

namespace Bore.SessionOrder

open RegistryTypes RegistryOps RegistryCatalogue PeerSession SessionRoom List

variable {Manifest Value : Type} {codec : ManifestCodec Manifest Value} {cfg : Config} {me : Connection}

/-- A joining peer has a fresh ID, an offer is published when every earlier
change that names it has been broadcast, and the receiver has room for what is
broadcast. -/
def settled (s : System Value) : Action Manifest → Bool
  | .join _ peer _ =>
    !s.connections.values.contains peer && (unsent s.sending).all (fun f => f.peer? != some peer)
  | .publish _ offer _ _ _ => (unsent s.sending).all (fun f => f.offer? != some offer)
  | .send _ =>
    match s.phase with
    | .live _ receiver => receiver.unread.length < eventCapacity
    | _ => true
  | _ => true

/-- Each connection acts for a peer of its own, an event that is still to be
broadcast names the peer of the connection that sends it, and one that names an
offer of the room comes from the offer's owner. -/
structure Ordered (connections : Table Connection PeerId) (offers : Table OfferId OfferRecord)
    (sending : List (Connection × List RoomEvent)) : Prop where
  distinct : ∀ c d p, connections.get? c = some p → connections.get? d = some p → c = d
  named : ∀ x ∈ sending, ∀ e ∈ x.2, ∃ p, e.peer? = some p ∧ ∀ d, connections.get? d = some p → d = x.1
  owned : ∀ o record, offers.get? o = some record → ∀ e ∈ unsent sending, e.offer? = some o →
    e.peer? = some record.owner

structure Operation (s : System Value) (c : Connection) (p : PeerId) (connections : Table Connection PeerId)
    (offers : Table OfferId OfferRecord) (events : List RoomEvent) : Prop where
  idle : ∀ x ∈ s.sending, x.1 ≠ c
  fresh : ∀ f ∈ unsent s.sending, f.peer? ≠ some p
  alone : ∀ d, s.connections.get? d = some p → d = c
  connections : ∀ d q, connections.get? d = some q → s.connections.get? d = some q ∨ d = c ∧ q = p
  named : ∀ e ∈ events, e.peer? = some p
  touched : ∀ e ∈ events, ∀ o, e.offer? = some o →
    (∃ record, s.scope.room.offers.get? o = some record ∧ record.owner = p) ∨ ∀ f ∈ unsent s.sending, f.offer? ≠ some o
  kept : ∀ o record, offers.get? o = some record →
    s.scope.room.offers.get? o = some record ∨ ∀ f ∈ unsent s.sending, f.offer? ≠ some o
  left : ∀ e ∈ events, ∀ o record, e.offer? = some o → offers.get? o = some record → record.owner = p

variable {s t : System Value} {c : Connection} {p : PeerId} {connections : Table Connection PeerId}
  {offers : Table OfferId OfferRecord} {events : List RoomEvent}

variable {e : RoomEvent}

section

variable (h : Operation s c p connections offers events)
  (ho : Ordered s.connections s.scope.room.offers s.sending)
include h ho

theorem Operation.apart {f : RoomEvent} (he : e ∈ events) (hf : f ∈ unsent s.sending) : e.apart f = true := by
  have hpeer : e.peer? ≠ f.peer? := by
    rw [h.named e he]
    exact fun heq => h.fresh f hf heq.symm
  have hoffer : e.offer?.isNone = true ∨ e.offer? ≠ f.offer? := by
    cases hoff : e.offer? with
    | none => exact Or.inl rfl
    | some o =>
      refine Or.inr fun heq => ?_
      rcases h.touched e he o hoff with ⟨record, hrec, howner⟩ | hnone
      · -- an unsent event of the offer would come from the same peer
        have := ho.owned o record hrec f hf heq.symm
        rw [howner] at this
        exact h.fresh f hf this
      · exact hnone f hf heq.symm
  simpa [RoomEvent.apart, hpeer] using hoffer

theorem Operation.ordered :
    Ordered connections offers (if events.isEmpty then s.sending else s.sending ++ [(c, events)]) := by
  have hmem : ∀ x ∈ (if events.isEmpty then s.sending else s.sending ++ [(c, events)]),
      x ∈ s.sending ∨ x = (c, events) := by
    intro x hx
    split at hx
    · exact Or.inl hx
    · simpa using hx
  refine ⟨?_, ?_, ?_⟩
  · intro a b q ha hb
    rcases h.connections a q ha with ha | ⟨rfl, rfl⟩ <;> rcases h.connections b q hb with hb | ⟨hb, hq⟩
    · exact ho.distinct a b q ha hb
    · rw [hb]
      exact h.alone a (hq ▸ ha)
    · exact (h.alone b hb).symm
    · exact hb.symm
  · intro x hx e he
    rcases hmem x hx with hx | rfl
    · obtain ⟨q, hq, hown⟩ := ho.named x hx e he
      refine ⟨q, hq, ?_⟩
      intro d hd
      rcases h.connections d q hd with hd | ⟨_, rfl⟩
      · exact hown d hd
      · exact absurd hq (h.fresh e (mem_flatMap.mpr ⟨x, hx, he⟩))
    refine ⟨p, h.named e he, ?_⟩
    intro d hd
    rcases h.connections d p hd with hd | ⟨rfl, _⟩
    · exact h.alone d hd
    · rfl
  · intro o record hrec e he hoff
    obtain ⟨x, hx, he⟩ := mem_flatMap.mp he
    rcases hmem x hx with hx | rfl
    · have hun : e ∈ unsent s.sending := mem_flatMap.mpr ⟨x, hx, he⟩
      rcases h.kept o record hrec with hold | hnone
      · exact ho.owned o record hold e hun hoff
      · exact absurd hoff (hnone e hun)
    · rw [h.named e he, h.left e he o record hoff hrec]

end

variable {sending rest : List (Connection × List RoomEvent)}

theorem popEvent_mem (h : popEvent c sending = some (e, rest)) :
    (∃ x ∈ sending, e ∈ x.2) ∧ ∀ y ∈ rest, ∃ x ∈ sending, x.1 = y.1 ∧ ∀ f ∈ y.2, f ∈ x.2 := by
  induction sending generalizing rest with
  | nil => cases h
  | cons x _ ih =>
    rcases x with ⟨d, events⟩
    unfold popEvent at h
    split at h
    · split at h
      all_goals cases h
      · refine ⟨⟨_, mem_cons_self, mem_cons_self⟩, ?_⟩
        exact fun y hy => ⟨y, mem_cons_of_mem _ hy, rfl, fun f hf => hf⟩
      · refine ⟨⟨_, mem_cons_self, mem_cons_self⟩, ?_⟩
        intro y hy
        rcases mem_cons.mp hy with rfl | hy
        · exact ⟨_, mem_cons_self, rfl, fun f hf => mem_cons_of_mem _ hf⟩
        · exact ⟨y, mem_cons_of_mem _ hy, rfl, fun f hf => hf⟩
    obtain ⟨⟨e', rest'⟩, hpop, he⟩ := Option.map_eq_some_iff.mp h
    cases he
    obtain ⟨⟨x, hx, hex⟩, hrest⟩ := ih hpop
    refine ⟨⟨x, mem_cons_of_mem _ hx, hex⟩, ?_⟩
    intro y hy
    rcases mem_cons.mp hy with rfl | hy
    · exact ⟨_, mem_cons_self, rfl, fun f hf => hf⟩
    · obtain ⟨z, hz, hzy, hsub⟩ := hrest y hy
      exact ⟨z, mem_cons_of_mem _ hz, hzy, hsub⟩

theorem Ordered.pop (h : Ordered connections offers sending) (hpop : popEvent c sending = some (e, rest)) :
    Ordered connections offers rest := by
  obtain ⟨_, hrest⟩ := popEvent_mem hpop
  refine ⟨h.distinct, ?_, ?_⟩
  · intro y hy f hf
    obtain ⟨x, hx, hxy, hsub⟩ := hrest y hy
    rw [← hxy]
    exact h.named x hx f (hsub f hf)
  · intro o record hrec f hf hoff
    obtain ⟨y, hy, hf⟩ := mem_flatMap.mp hf
    obtain ⟨x, hx, _, hsub⟩ := hrest y hy
    exact h.owned o record hrec f (mem_flatMap.mpr ⟨x, hx, hsub f hf⟩) hoff

theorem actor_spec (ho : Ordered s.connections s.scope.room.offers s.sending) (h : s.actor me c = some p) :
    (∀ x ∈ s.sending, x.1 ≠ c) ∧ (∀ f ∈ unsent s.sending, f.peer? ≠ some p) ∧ s.connections.get? c = some p ∧
      ∀ d, s.connections.get? d = some p → d = c := by
  unfold System.actor at h
  split at h
  · cases h
  rename_i hidle
  simp only [Bool.not_eq_true, any_eq_false, beq_iff_eq] at hidle
  have hconn : s.connections.get? c = some p := by
    split at h
    · split at h
      · exact h
      · cases h
    · exact h
  refine ⟨hidle, ?_, hconn, fun d hd => ho.distinct d c p hd hconn⟩
  intro f hf hpeer
  obtain ⟨x, hx, hf⟩ := mem_flatMap.mp hf
  obtain ⟨q, hq, hown⟩ := ho.named x hx f hf
  rw [hpeer] at hq
  cases hq
  exact hidle x hx (hown c hconn).symm

section Functions

variable {now : Instant} {scope scope' : Scope}

variable {e : RoomEvent}

theorem joinPeer_offers {displayName : Option String} (h : joinPeer cfg p displayName scope = (scope', .ok e)) :
    scope'.room.offers = scope.room.offers ∧ e.peer? = some p ∧ e.offer? = none := by
  unfold joinPeer joinLocked at h
  repeat' split at h
  all_goals
    cases h
    try exact ⟨rfl, rfl, rfl⟩

theorem renamePeer_offers {rawName : String} {room room' : Room}
    (h : renamePeer cfg p rawName room = (room', .ok e)) :
    room'.offers = room.offers ∧ e.peer? = some p ∧ e.offer? = none := by
  unfold renamePeer at h
  repeat' split at h
  all_goals
    cases h
    try exact ⟨rfl, rfl, rfl⟩

variable {offer : OfferId}

theorem publishOffer_offers {manifestOffer : OfferId} {canonical : Bytes} {mac : Digest} {e : Option RoomEvent}
    (h : publishOffer cfg p offer manifestOffer canonical mac scope = (scope', .ok e)) :
    (∀ f ∈ e.toList, (f.peer? = some p ∧ f.offer? = some offer) ∧
      ∀ record, scope'.room.offers.get? offer = some record → record.owner = p) ∧
      ∀ o record, scope'.room.offers.get? o = some record →
        scope.room.offers.get? o = some record ∨ o = offer ∧ record.owner = p := by
  unfold publishOffer at h
  repeat' split at h
  all_goals cases h
  · exact ⟨by simp, fun o record hr => Or.inl hr⟩
  · refine ⟨?_, ?_⟩
    · simp only [Option.toList_some, mem_singleton, forall_eq, Table.get?_insert_self, Option.some.injEq]
      exact ⟨⟨rfl, rfl⟩, fun record hr => by rw [← hr]⟩
    · intro o record hr
      simp only [Table.get?_insert] at hr
      split at hr
      · rename_i heq
        cases hr
        exact Or.inr ⟨heq, rfl⟩
      · exact Or.inl hr

theorem withdrawOffer_offers {outbox : Outbox}
    (h : withdrawOffer now p offer scope = (scope', .ok (some (e, outbox)))) :
    (e.peer? = some p ∧ e.offer? = some offer) ∧
      (∃ record, scope.room.offers.get? offer = some record ∧ record.owner = p) ∧
      scope'.room.offers = scope.room.offers.erase offer := by
  unfold withdrawOffer at h
  repeat' split at h
  all_goals cases h
  rename_i record hrec howner _ _ _ _ _ hu
  refine ⟨⟨rfl, rfl⟩, ⟨record, hrec, by simpa using howner⟩, ?_⟩
  have hc : SameCatalogue (dropOffer scope offer record).room
      (cancelWhereLocked now p (fun r => r.offerId == offer) (dropOffer scope offer record)).1.room :=
    cancelWhereLocked_sameCatalogue _ _
  rw [hu] at hc
  exact hc.2.1

theorem removePeer_offers (codec : ManifestCodec Manifest Value) {d : Departure} (h : removePeer now p scope = (scope', some d))
    (hd : d.exhausted = false) : (∀ e ∈ d.events, e.peer? = some p ∧ ∀ o, e.offer? = some o →
      (∃ record, scope.room.offers.get? o = some record ∧ record.owner = p) ∧ scope'.room.offers.get? o = none) ∧
    ∀ o record, scope'.room.offers.get? o = some record → scope.room.offers.get? o = some record := by
  unfold removePeer at h
  split at h
  · cases h
  simp only at h
  split at h
  · rename_i hinc
    rw [hinc] at h
    cases h
    have hrem : Removed codec p _ _ _ (removeOffers p true
        (scope.room.offers.entries.filter (fun e => e.2.owner == p)) _ scope.room.revision) :=
      removeOffers_removed _ { scope with room := { scope.room with
        peers := scope.room.peers.erase p
        sessions := scope.room.sessions.filter (· ≠ p) } } _
    have hsame : ∀ (u : Scope) o,
        (cancelWhereLocked now p (fun r => r.source == p || r.recipient == p) u).1.room.offers.get? o =
          u.room.offers.get? o :=
      fun u o => congrArg (fun offers : Table OfferId OfferRecord => offers.get? o)
        (cancelWhereLocked_sameCatalogue _ u).2.1
    have howner : ∀ o, o ∈ (scope.room.offers.entries.filter (fun e => e.2.owner == p)).map Prod.fst →
        ∃ record, scope.room.offers.get? o = some record ∧ record.owner = p := by
      intro o ho
      obtain ⟨e, he, rfl⟩ := mem_map.mp ho
      obtain ⟨hmem, hown⟩ := mem_filter.mp he
      exact ⟨e.2, (Table.get?_eq_some_iff _ _ _).mpr hmem, by simpa using hown⟩
    refine ⟨?_, ?_⟩
    · intro e he
      rcases mem_append.mp he with he | he
      · obtain ⟨o, r, rfl, hk, _⟩ := hrem.events e he
        refine ⟨rfl, ?_⟩
        intro o' ho
        cases ho
        exact ⟨howner o hk, (hsame _ o).trans ((hrem.offers o).trans (if_pos hk))⟩
      · rw [mem_singleton.mp he]
        exact ⟨rfl, fun o ho => by cases ho⟩
    · intro o record hr
      have hkept := (hrem.offers o).symm.trans ((hsame _ o).symm.trans hr)
      split at hkept
      · cases hkept
      · exact hkept
  · cases h
    cases hd

end Functions

end Bore.SessionOrder
