import Bore.SessionOrder

namespace Bore.SessionConverge

open List

open RegistryTypes RegistryCatalogue PeerSession SessionViews SessionRoom SessionTracks SessionMirror SessionOrder Runs

variable {Manifest Value : Type} {codec : ManifestCodec Manifest Value} {cfg : Config} {me : Connection}
  {s t : System Value} {a : Action Manifest} {c : Connection} {p : PeerId} {now : Instant}

def OrderedSystem (s : System Value) : Prop := Ordered s.connections s.scope.room.offers s.sending

/-- What a step does to the operations under way: it begins one, it closes the
room, it broadcasts an event of one, or it leaves them alone. -/
inductive Turn (s t : System Value) : Prop
  | operation (c : Connection) (p : PeerId) (events : List RoomEvent)
      (hop : Operation s c p t.connections t.scope.room.offers events)
      (hsending : t.sending = if events.isEmpty then s.sending else s.sending ++ [(c, events)])
      (hdestroyed : t.destroyed = s.destroyed)
  | closes (c : Connection) (reason : String) (hdestroyed : t.destroyed = true)
      (hsending : t.sending = s.sending ++ [(c, [.roomClosed reason])])
  | sends (c : Connection) (e : RoomEvent) (hpop : popEvent c s.sending = some (e, t.sending))
      (hconnections : t.connections = s.connections) (hoffers : t.scope.room.offers = s.scope.room.offers)
      (hdestroyed : t.destroyed = s.destroyed)
  | quiet (hsending : t.sending = s.sending) (hconnections : t.connections = s.connections)
      (hoffers : t.scope.room.offers = s.scope.room.offers) (hdestroyed : t.destroyed = s.destroyed)

theorem Turn.ordered (h : Turn s t) (ho : OrderedSystem s) : t.destroyed = true ∨ OrderedSystem t := by
  cases h with
  | operation _ _ _ hop hsending =>
    right
    unfold OrderedSystem
    rw [hsending]
    exact hop.ordered ho
  | closes _ _ hdestroyed => exact .inl hdestroyed
  | sends _ _ hpop hconnections hoffers =>
    right
    unfold OrderedSystem
    rw [hconnections, hoffers]
    exact ho.pop hpop
  | quiet hsending hconnections hoffers =>
    right
    unfold OrderedSystem
    rw [hsending, hconnections, hoffers]
    exact ho

theorem Turn.of_phase (h : Turn s t) (phase : Phase Value) : Turn s { t with phase := phase } := by
  cases h with
  | operation c p events hop hsending hdestroyed => exact .operation c p events hop hsending hdestroyed
  | closes c reason hdestroyed hsending => exact .closes c reason hdestroyed hsending
  | sends c e hpop hconnections hoffers hdestroyed => exact .sends c e hpop hconnections hoffers hdestroyed
  | quiet hsending hconnections hoffers hdestroyed => exact .quiet hsending hconnections hoffers hdestroyed

theorem broadcast_connections (s : System Value) (e : RoomEvent) : (s.broadcast e).connections = s.connections := by
  unfold System.broadcast
  split <;> rfl

variable {sending rest : List (Connection × List RoomEvent)} {e : RoomEvent}

theorem popEvent_length (h : popEvent c sending = some (e, rest)) : rest.length ≤ sending.length := by
  induction sending generalizing rest with
  | nil => cases h
  | cons _ _ ih =>
    unfold popEvent at h
    split at h
    · split at h <;> cases h <;> simp
    · obtain ⟨⟨e', rest'⟩, hpop, he⟩ := Option.map_eq_some_iff.mp h
      cases he
      simpa using ih hpop

theorem Turn.closed (h : Turn s t) (hd : s.destroyed = false) (hd' : t.destroyed = true) :
    ∃ c reason, t.sending = s.sending ++ [(c, [.roomClosed reason])] := by
  cases h with
  | closes c reason _ hsending => exact ⟨c, reason, hsending⟩
  | operation _ _ _ _ _ hdestroyed | sends _ _ _ _ _ hdestroyed | quiet _ _ _ hdestroyed =>
    rw [hdestroyed, hd] at hd'
    cases hd'

theorem Turn.apart (h : Turn s t) (ho : OrderedSystem s) (hd : t.destroyed = false) :
    (announced s t).all (fun e => e.peer?.isSome && (unsent s.sending).all (fun f => e.apart f)) = true := by
  cases h with
  | operation _ _ events hop hsending =>
    have hann : announced s t = events := by
      unfold announced
      rw [hsending]
      cases events <;> simp
    rw [hann]
    simp only [all_eq_true, Bool.and_eq_true]
    intro e he
    exact ⟨by rw [hop.named e he]; rfl, fun f hf => hop.apart ho he hf⟩
  | closes _ _ hdestroyed =>
    rw [hd] at hdestroyed
    cases hdestroyed
  | sends _ _ hpop =>
    have hlen : t.sending.length ≤ s.sending.length := popEvent_length hpop
    simp [announced, drop_eq_nil_of_le hlen]
  | quiet hsending => simp [announced, hsending]

theorem depart_turn (codec : ManifestCodec Manifest Value) (hd : s.destroyed = false)
    (hactor : (∀ x ∈ s.sending, x.1 ≠ c) ∧ (∀ f ∈ unsent s.sending, f.peer? ≠ some p) ∧
      s.connections.get? c = some p ∧ ∀ d, s.connections.get? d = some p → d = c) : Turn s (s.depart now c p) := by
  obtain ⟨hidle, hfresh, hconn, halone⟩ := hactor
  have hsub : ∀ d q, (s.connections.erase c).get? d = some q → s.connections.get? d = some q ∨ d = c ∧ q = p := by
    exact fun d q hq => .inl (Table.get?_of_erase hq)
  unfold System.depart
  simp only
  cases hrem : removePeer now p s.scope with
  | mk scope departure =>
    cases departure with
    | none =>
      refine .operation c p [] ⟨hidle, hfresh, halone, hsub, by simp, by simp, ?_, by simp⟩ rfl rfl
      intro o record hr
      have hroom : scope.room = s.scope.room := removePeer_absent hrem
      exact .inl (hroom ▸ hr)
    | some d =>
      by_cases hex : d.exhausted
      · simp only [hex, if_true, hd, Bool.false_eq_true, if_false]
        exact .closes c "revision-exhausted" rfl rfl
      have hex : d.exhausted = false := by simpa using hex
      obtain ⟨hevents, hkept⟩ := removePeer_offers codec hrem hex
      simp only [hex, Bool.false_eq_true, if_false]
      refine .operation c p d.events ⟨hidle, hfresh, halone, hsub, fun e he => (hevents e he).1, ?_, ?_, ?_⟩ rfl rfl
      · exact fun e he o hoff => .inl ((hevents e he).2 o hoff).1
      · exact fun o record hr => .inl (hkept o record hr)
      · intro e he o record hoff hr
        have hgone := ((hevents e he).2 o hoff).2
        cases hgone.symm.trans hr

theorem joinPeer_operation {displayName : Option String} {scope : Scope}
    (hset : settled s (.join c p displayName : Action Manifest) = true)
    (hidle : ¬ (s.connections.contains c || s.sending.any (fun e => e.1 == c)) = true)
    (hj : joinPeer cfg p displayName s.scope = (scope, .ok e)) :
    Operation s c p (s.connections.insert c p) scope.room.offers [e] := by
  simp only [Bool.or_eq_true, not_or, Bool.not_eq_true, any_eq_false, beq_iff_eq] at hidle
  simp only [settled, Bool.and_eq_true, Bool.not_eq_true', all_eq_true, bne_iff_ne] at hset
  obtain ⟨hoffers, hpeer, hoff⟩ := joinPeer_offers hj
  have hnone : ∀ d, s.connections.get? d ≠ some p := by
    intro d hget
    have hmem : p ∈ s.connections.values := (Table.mem_values_iff _ _).mpr ⟨d, hget⟩
    simp [hmem] at hset
  refine ⟨hidle.2, hset.2, fun d hget => absurd hget (hnone d), ?_, by simpa using hpeer, by simp [hoff], ?_,
    by simp [hoff]⟩
  · intro d q hq
    rw [Table.get?_insert] at hq
    split at hq
    · rename_i hdc
      cases hq
      exact .inr ⟨hdc, rfl⟩
    · exact .inl hq
  · intro o record hr
    exact .inl (hoffers ▸ hr)

def Following (s : System Value) : Prop :=
  s.phase = .ended ∨ ∃ browser receiver, s.phase = .live browser receiver ∧ receiver.lagged = false ∧
    ∀ e ∈ receiver.unread, e.peer?.isSome = true

theorem step_turn (ho : OrderedSystem s) (hd : s.destroyed = false) (hfollow : Following s) (hset : settled s a = true)
    (hs : step codec cfg me s a = some t) : Turn s t := by
  revert hs
  fun_cases step codec cfg me s a
  all_goals intro hs
  all_goals try cases hs
  case case2.refl hj => exact .quiet rfl rfl (by simp [joinPeer_error hj]) rfl
  case case3.refl hj hidle _ _ => exact .operation me _ _ (joinPeer_operation hset hidle hj) rfl rfl
  case case5 hidle _ _ hj _ _ =>
    obtain rfl := Option.some.inj hs
    exact .operation _ _ _ (joinPeer_operation hset hidle hj) rfl rfl
  case case7.refl => exact .quiet rfl rfl rfl rfl
  case case8.refl connection _ peer hactor _ e hr =>
    obtain ⟨hidle, hfresh, _, halone⟩ := actor_spec ho hactor
    obtain ⟨hoffers, hpeer, hoff⟩ := renamePeer_offers hr
    exact .operation connection peer [e] ⟨hidle, hfresh, halone, fun d q hq => .inl hq, by simpa using hpeer,
      by simp [hoff], fun o record hrec => .inl (hoffers ▸ hrec), by simp [hoff]⟩ rfl rfl
  case case10.refl hp => exact .quiet rfl rfl (by simp [publishOffer_error hp]) rfl
  case case11.refl connection _ _ _ _ peer hactor _ e hp =>
    obtain ⟨hidle, hfresh, _, halone⟩ := actor_spec ho hactor
    simp only [settled, all_eq_true, bne_iff_ne] at hset
    obtain ⟨hevents, hkept⟩ := publishOffer_offers hp
    refine .operation connection peer e.toList ⟨hidle, hfresh, halone, fun d q hq => .inl hq,
      fun f hf => (hevents f hf).1.1, ?_, ?_, ?_⟩ rfl rfl
    · intro f hf o hoff
      rw [(hevents f hf).1.2] at hoff
      cases hoff
      exact .inr hset
    · intro o record hr
      rcases hkept o record hr with hold | ⟨rfl, _⟩
      · exact .inl hold
      · exact .inr hset
    · intro f hf o record hoff hr
      rw [(hevents f hf).1.2] at hoff
      cases hoff
      exact (hevents f hf).2 record hr
  case case13.refl connection offer peer hactor scope e _ hw =>
    obtain ⟨hidle, hfresh, _, halone⟩ := actor_spec ho hactor
    obtain ⟨⟨hpeer, hoff⟩, hrecord, hoffers⟩ := withdrawOffer_offers hw
    refine .operation connection peer [e] ⟨hidle, hfresh, halone, fun d q hq => .inl hq, by simpa using hpeer,
      ?_, ?_, ?_⟩ rfl rfl
    · intro f hf o ho'
      rw [mem_singleton.mp hf, hoff] at ho'
      cases ho'
      exact .inl hrecord
    · intro o record hr
      exact .inl (Table.get?_of_erase (hoffers ▸ hr))
    · intro f hf o record ho' hr
      rw [mem_singleton.mp hf, hoff] at ho'
      cases ho'
      change scope.room.offers.get? offer = some record at hr
      rw [hoffers, Table.get?_erase, if_pos rfl] at hr
      cases hr
  case case14.refl scope r hne hw =>
    refine .quiet rfl rfl ?_ rfl
    have hroom : scope.room = s.scope.room := by
      refine withdrawOffer_room hw ?_
      rintro ⟨e, outbox⟩ hr
      exact hne e outbox hr
    simp [hroom]
  case case16.refl hactor => exact (depart_turn codec hd (actor_spec ho hactor)).of_phase _
  case case17.refl hactor _ => exact depart_turn codec hd (actor_spec ho hactor)
  case case19.refl connection e rest hpop =>
    obtain ⟨hdest, hscope, hsending⟩ := broadcast_frame { s with sending := rest } e
    refine .sends connection e (hpop.trans ?_) (broadcast_connections _ e) ?_ hdest
    · rw [hsending]
    · rw [hscope]
  case case30 hp =>
    rcases hfollow with hp' | ⟨_, _, hp', hl, hnamed⟩ <;> cases hp.symm.trans hp'
    simp only [System.receive, hl, Bool.false_eq_true, if_false] at hs
    split at hs
    · cases hs
    · rename_i hu
      have := hnamed _ (by rw [hu]; exact mem_cons_self)
      cases this
    · cases hs
      exact .quiet rfl rfl rfl rfl
  -- A session that follows the room has taken its snapshot.
  case case21.refl hp _ _ | case23.refl hp | case24.refl hp _ _ | case25.refl hp _ _ | case27.refl hp _ _ |
      case28.refl hp _ _ =>
    rcases hfollow with hp' | ⟨_, _, hp', _⟩ <;> cases hp.symm.trans hp'

/-- What a step does to the session: it stays or ends, an event is broadcast, or
it reads the next event. -/
inductive Course (codec : ManifestCodec Manifest Value) (s t : System Value) : Prop
  | stays (hphase : t.phase = s.phase ∨ t.phase = .ended) (more : List (Connection × List RoomEvent))
      (hsending : t.sending = s.sending ++ more) (hdestroyed : s.destroyed = true → t.destroyed = true)
  | sends (c : Connection) (e : RoomEvent) (rest : List (Connection × List RoomEvent))
      (hpop : popEvent c s.sending = some (e, rest))
      (hroom : ∀ browser receiver, s.phase = .live browser receiver → receiver.unread.length < eventCapacity)
      (ht : t = System.broadcast { s with sending := rest } e)
  | reads (browser : BrowserState Value) (receiver : Receiver) (event : RoomEvent) (rest : List RoomEvent)
      (hp : s.phase = .live browser receiver) (hu : receiver.unread = event :: rest)
      (hevent : ∀ reason, event ≠ .roomClosed reason)
      (ht : t = { s with phase := .live (deliver codec browser event) ⟨rest, false⟩ })

theorem announce_course (codec : ManifestCodec Manifest Value) (s : System Value) (c : Connection) (scope : Scope)
    (events : List RoomEvent) : Course codec s (s.announce c scope events) := by
  cases events with
  | nil => exact .stays (.inl rfl) [] (by simp [System.announce]) id
  | cons e events => exact .stays (.inl rfl) [(c, e :: events)] rfl id

theorem depart_stays (s : System Value) (now : Instant) (c : Connection) (p : PeerId) :
    ∃ more, (s.depart now c p).phase = s.phase ∧ (s.depart now c p).sending = s.sending ++ more ∧
      (s.destroyed = true → (s.depart now c p).destroyed = true) := by
  unfold System.depart
  simp only
  split
  · exact ⟨[], rfl, by simp, id⟩
  rename_i departure _
  split
  · by_cases hd : s.destroyed = true
    · exact ⟨[], rfl, by simp [System.announce, hd], fun _ => rfl⟩
    · exact ⟨[(c, [.roomClosed "revision-exhausted"])], rfl, by simp [System.announce, hd], fun _ => rfl⟩
  · cases hev : departure.events with
    | nil => exact ⟨[], rfl, by simp [System.announce], id⟩
    | cons e events => exact ⟨[(c, e :: events)], rfl, rfl, id⟩

def CaughtUp (s : System Value) : Prop :=
  s.phase = .ended ∨ ∃ browser receiver, s.phase = .live browser receiver ∧ receiver.lagged = false

theorem step_course (hlive : CaughtUp s) (hset : settled s a = true) (hs : step codec cfg me s a = some t) : Course codec s t := by
  have hsame : ∀ scope : Scope, Course codec s { s with scope := scope } :=
    fun scope => .stays (.inl rfl) [] (by simp) id
  revert hs
  fun_cases step codec cfg me s a
  all_goals intro hs
  all_goals try cases hs
  case case2.refl | case7.refl | case10.refl | case14.refl => exact hsame _
  case case3.refl hp =>
    rcases hlive with hp' | ⟨_, _, hp', _⟩ <;> cases hp.symm.trans hp'
  case case5 connection _ _ _ _ e _ _ _ =>
    obtain rfl := Option.some.inj hs
    exact .stays (.inl rfl) [(connection, [e])] rfl id
  case case8.refl | case11.refl | case13.refl => exact announce_course _ _ _ _ _
  case case16.refl now peer _ =>
    obtain ⟨more, _, hsending, hdestroyed⟩ := depart_stays s now me peer
    exact .stays (.inr rfl) more hsending hdestroyed
  case case17.refl now connection peer _ _ =>
    obtain ⟨more, hphase, hsending, hdestroyed⟩ := depart_stays s now connection peer
    exact .stays (.inl hphase) more hsending hdestroyed
  case case19.refl connection e rest hpop =>
    exact .sends connection e rest hpop (fun browser receiver hp => by simpa [settled, hp] using hset) rfl
  case case30 now browser receiver hp =>
    rcases hlive with hp' | ⟨_, _, hp', hl⟩ <;> cases hp.symm.trans hp'
    simp only [System.receive, hl, Bool.false_eq_true, if_false] at hs
    split at hs
    · cases hs
    · split at hs
      · cases hs
        exact .stays (.inr rfl) [] (by simp) id
      · rename_i peer _
        obtain ⟨more, _, hsending, hdestroyed⟩ := depart_stays s now me peer
        cases hs
        exact .stays (.inr rfl) more hsending hdestroyed
    · rename_i event rest hevent hu
      cases hs
      exact .reads browser receiver event rest hp hu hevent rfl
  case case21.refl hp _ _ | case23.refl hp | case24.refl hp _ _ | case25.refl hp _ _ | case27.refl hp _ _ |
      case28.refl hp _ _ =>
    rcases hlive with hp' | ⟨_, _, hp', _⟩ <;> cases hp.symm.trans hp'

theorem popEvent_unsent
    (h : popEvent c sending = some (e, rest)) : ∀ f ∈ unsent sending, f = e ∨ f ∈ unsent rest := by
  induction sending generalizing rest with
  | nil => cases h
  | cons x _ ih =>
    rcases x with ⟨d, events⟩
    unfold popEvent at h
    split at h
    · split at h <;> cases h <;> simp
    obtain ⟨⟨e', rest'⟩, hpop, he⟩ := Option.map_eq_some_iff.mp h
    cases he
    intro f hf
    rcases mem_append.mp hf with hf | hf
    · exact .inr (mem_append_left _ hf)
    · rcases ih hpop f hf with hf | hf
      · exact .inl hf
      · exact .inr (mem_append_right _ hf)

def Closing (s : System Value) : Prop :=
  s.destroyed = true ∧ (s.phase = .ended ∨ ∃ browser receiver, s.phase = .live browser receiver ∧
    receiver.lagged = false ∧ ∃ reason, .roomClosed reason ∈ unsent s.sending ∨ .roomClosed reason ∈ receiver.unread)

theorem broadcast_live {browser : BrowserState Value} {receiver : Receiver}
    (hp : s.phase = .live browser receiver) (hroom : receiver.unread.length < eventCapacity) :
    (s.broadcast e).phase = .live browser { receiver with unread := receiver.unread ++ [e] } := by
  simp only [System.broadcast, hp, Receiver.push, if_pos hroom]

theorem broadcast_ended (hp : s.phase = .ended) : (s.broadcast e).phase = .ended := by
  simp only [System.broadcast, hp]

theorem Course.closing (h : Course codec s t) (hc : Closing s) : Closing t := by
  obtain ⟨hd, hphase⟩ := hc
  cases h with
  | stays hstay _ hsending hdestroyed =>
    refine ⟨hdestroyed hd, ?_⟩
    rcases hstay with hstay | hstay
    · rw [hstay]
      refine hphase.imp_right ?_
      rintro ⟨browser, receiver, hp, hl, reason, hmem⟩
      refine ⟨browser, receiver, hp, hl, reason, hmem.imp_left ?_⟩
      intro hmem
      rw [hsending, unsent_append]
      exact mem_append_left _ hmem
    · exact .inl hstay
  | sends c e rest hpop hroom ht =>
    subst ht
    obtain ⟨hdest, _, hsending⟩ := broadcast_frame { s with sending := rest } e
    refine ⟨hdest.trans hd, ?_⟩
    rcases hphase with hp | ⟨browser, receiver, hp, hl, reason, hmem⟩
    · exact .inl (broadcast_ended hp)
    refine .inr ⟨browser, _, broadcast_live hp (hroom browser receiver hp), hl, reason, ?_⟩
    rw [hsending]
    rcases hmem with hmem | hmem
    · rcases popEvent_unsent hpop _ hmem with heq | hmem
      · exact .inr (by simp [← heq])
      · exact .inl hmem
    · exact .inr (mem_append_left _ hmem)
  | reads _ _ _ _ hp hu hevent ht =>
    subst ht
    refine ⟨hd, .inr ⟨_, _, rfl, rfl, ?_⟩⟩
    rcases hphase with hended | ⟨_, _, hp', _, reason, hmem⟩
    · rw [hp] at hended
      cases hended
    rw [hp] at hp'
    cases hp'
    refine ⟨reason, hmem.imp_right ?_⟩
    intro hmem
    rw [hu] at hmem
    rcases mem_cons.mp hmem with heq | hmem
    · exact absurd heq.symm (hevent reason)
    · exact hmem

theorem Course.following (h : Course codec s t) (ho : OrderedSystem s) (hf : Following s) : Following t := by
  cases h with
  | stays hstay =>
    rcases hstay with hstay | hstay
    · unfold Following
      rw [hstay]
      exact hf
    · exact .inl hstay
  | sends _ e _ hpop hroom ht =>
    subst ht
    rcases hf with hp | ⟨browser, receiver, hp, hl, hnamed⟩
    · exact .inl (broadcast_ended hp)
    refine .inr ⟨browser, _, broadcast_live hp (hroom browser receiver hp), hl, ?_⟩
    obtain ⟨x, hx, he⟩ := (popEvent_mem hpop).1
    obtain ⟨q, hq, _⟩ := ho.named x hx e he
    intro f hmem
    rcases mem_append.mp hmem with hmem | hmem
    · exact hnamed f hmem
    · rw [mem_singleton.mp hmem, hq]
      rfl
  | reads _ _ _ _ hp hu _ ht =>
    subst ht
    refine .inr ⟨_, _, rfl, rfl, ?_⟩
    rcases hf with hended | ⟨_, _, hp', _, hnamed⟩
    · rw [hp] at hended
      cases hended
    rw [hp] at hp'
    cases hp'
    intro f hmem
    exact hnamed f (by rw [hu]; exact mem_cons_of_mem _ hmem)

def Converging (codec : ManifestCodec Manifest Value) (s : System Value) : Prop :=
  Sound codec s ∧ OrderedSystem s ∧ Following s ∨ Closing s

theorem Following.live (h : Following s) : CaughtUp s :=
  h.imp_right fun ⟨browser, receiver, hp, hl, _⟩ => ⟨browser, receiver, hp, hl⟩

theorem Closing.live (h : Closing s) : CaughtUp s :=
  h.2.imp_right fun ⟨browser, receiver, hp, hl, _⟩ => ⟨browser, receiver, hp, hl⟩

theorem settled_timely (ho : OrderedSystem s) (hf : Following s) (hset : settled s a = true)
    (hs : step codec cfg me s a = some t) (hturn : Turn s t) (hd : t.destroyed = false) :
    timely codec cfg me s a = true := by
  simp only [timely, hs, Bool.and_eq_true]
  refine ⟨hturn.apart ho hd, ?_⟩
  cases a with
  | send connection =>
    simp only [Option.all_map]
    cases hpop : popEvent connection s.sending with
    | none => rfl
    | some =>
      rcases hf with hp | ⟨browser, receiver, hp, _⟩
      · simp [covered, hp]
      · simpa [covered, settled, hp] using hset
  | _ => rfl

theorem step_converging (h : Converging codec s) (hset : settled s a = true)
    (hs : step codec cfg me s a = some t) : Converging codec t := by
  rcases h with ⟨hsound, ho, hf⟩ | hclosing
  · have hcourse := step_course hf.live hset hs
    have hturn := step_turn ho hsound.1 hf hset hs
    cases hd : t.destroyed with
    | false =>
      have hsound' := step_sound hsound (settled_timely ho hf hset hs hturn hd) hs
      refine .inl ⟨hsound', ?_, hcourse.following ho hf⟩
      rcases hturn.ordered ho with hd' | ho'
      · rw [hd] at hd'
        cases hd'
      · exact ho'
    | true =>
      -- the departure that ran out of revisions closed the room
      obtain ⟨c, reason, hsending⟩ := hturn.closed hsound.1 hd
      refine .inr ⟨hd, ?_⟩
      rcases hcourse.following ho hf with hp | ⟨browser, receiver, hp, hl, _⟩
      · exact .inl hp
      · exact .inr ⟨browser, receiver, hp, hl, reason, .inl (by simp [hsending])⟩
  · exact .inr ((step_course hclosing.live hset hs).closing hclosing)

structure Subscribed (codec : ManifestCodec Manifest Value) (page : BrowserState Value) (s : System Value) : Prop where
  opened : s.destroyed = false
  readable : Readable codec s.scope.room
  quiet : s.sending = []
  distinct : ∀ c d p, s.connections.get? c = some p → s.connections.get? d = some p → c = d
  phase : s.phase = .live page ⟨[], false⟩
  mirrors : Mirrors codec page s.scope.room

variable {page : BrowserState Value}

theorem Mirrors.view {room : Room} (h : Mirrors codec page room) : browserView page = roomView codec room := by
  apply View.ext
  · exact funext h.peers
  · funext o
    have ho := h.offers o
    change page.offers.get? o = (room.offers.get? o).bind (shown codec)
    cases hrec : room.offers.get? o with
    | none => simpa [hrec] using ho
    | some =>
      rw [hrec] at ho
      obtain ⟨b, hb, hshown⟩ := Option.map_eq_some_iff.mp ho
      rw [hb, Option.bind_some, ← hshown]

theorem Subscribed.converging (h : Subscribed codec page s) : Converging codec s := by
  refine .inl ⟨⟨h.opened, h.readable, ?_, ?_, ?_, ?_⟩, ⟨h.distinct, ?_, ?_⟩, .inr ⟨page, _, h.phase, rfl, by simp⟩⟩
  · rw [h.quiet]
    exact List.Pairwise.nil
  · simp [h.quiet]
  · simp [h.quiet]
  · rw [h.phase, h.quiet]
    exact ⟨rfl, by simpa using Mirrors.view h.mirrors⟩
  · simp [h.quiet]
  · simp [h.quiet]

/-- In every run in which peers have fresh IDs and an offer is published only
after every earlier change of it was broadcast, a subscribed session that has
read all events shows the peers and offers of the room. -/
theorem subscribed_page_converges {page : BrowserState Value} {s₀ : System Value} (hsub : Subscribed codec page s₀)
    (h : Reaches (step codec cfg me) (fun s a => settled s a = true) s₀ s)
    {browser : BrowserState Value} {receiver : Receiver} (hp : s.phase = .live browser receiver)
    (hunread : receiver.unread = []) (hsent : s.sending = []) : Mirrors codec browser s.scope.room := by
  have hconv : Converging codec s :=
    h.invariant hsub.converging (fun _ _ _ hi hset hs => step_converging hi hset hs)
  rcases hconv with ⟨hsound, _, _⟩ | ⟨_, hended | ⟨_, _, hp', _, reason, hmem⟩⟩
  · have htracks := hsound.2.tracks
    rw [hp, hsent] at htracks
    obtain ⟨_, hview⟩ := htracks
    rw [hunread] at hview
    exact mirrors_of_view hsound.2.readable hview
  · rw [hp] at hended
    cases hended
  · rw [hp] at hp'
    cases hp'
    simp [hsent, hunread] at hmem

def lobby : System Bytes where
  scope := { emptyRoom with
    room := ⟨false, (∅ : Table PeerId PeerRecord).insert 2 ⟨some "Peer 0002"⟩, ∅, ∅, [2], 0, 1⟩ }
  destroyed := false
  connections := (∅ : Table Connection PeerId).insert 0 2
  sending := []
  phase := .live { peers := (∅ : Table PeerId (Option String)).insert 2 (some "Peer 0002") } ⟨[], false⟩

theorem lobby_subscribed : ∃ page, Subscribed sampleCodec page lobby := by
  refine ⟨_, rfl, ?_, rfl, ?_, rfl, ?_, ?_⟩
  · intro o record h
    cases h
  · intro c d p hc hd
    simp only [lobby, Table.get?_insert, Table.get?_empty] at hc hd
    split at hc <;> split at hd <;> simp_all
  · intro p
    simp only [lobby, Table.get?_insert, Table.get?_empty]
    split <;> rfl
  · intro o
    rfl

def published : List (Action Bytes) :=
  [.join 1 1 none, .send 1, .receive 0, .join 3 3 none, .send 3, .receive 0, .publish 1 5 5 [7] 9, .send 1, .receive 0]

/-- Peer 1 withdraws the offer and peer 3 publishes under the same ID; the
second change is broadcast first, and the page loses the offer for good. -/
theorem republished_offer_lost : ∃ page s browser receiver, Subscribed sampleCodec page lobby ∧
      Reaches (step sampleCodec sampleLimits 0) always lobby s ∧
      s.phase = .live browser receiver ∧ receiver.unread = [] ∧ s.sending = [] ∧
      ¬ Mirrors sampleCodec browser s.scope.room := by
  obtain ⟨page, hsub⟩ := lobby_subscribed
  obtain ⟨s, hs, ho⟩ : ∃ s, Reaches (step sampleCodec sampleLimits 0) always lobby s ∧
      outcome s = some (true, false, true) :=
    exec_observe (published ++ [.withdraw 0 1 5, .publish 3 5 5 [8] 9, .send 3, .send 1, .receive 0, .receive 0]) outcome
      (by decide +kernel)
  obtain ⟨browser, receiver, hp, hu, hsent, hb, hc⟩ := outcome_caught_up ho
  refine ⟨page, s, browser, receiver, hsub, hs, hp, hu, hsent, ?_⟩
  intro hm
  have := hm.contains 5
  rw [hb, hc] at this
  cases this

/-- The same changes, each broadcast before the next begins. -/
theorem subscribed_page_converges_republished : ∃ page s browser receiver, Subscribed sampleCodec page lobby ∧
      Reaches (step sampleCodec sampleLimits 0) (fun s a => settled s a = true) lobby s ∧
      s.phase = .live browser receiver ∧ browser.offers.contains 5 = true ∧
      Mirrors sampleCodec browser s.scope.room := by
  obtain ⟨page, hsub⟩ := lobby_subscribed
  obtain ⟨s, hs, ho⟩ : ∃ s, Reaches (step sampleCodec sampleLimits 0) (fun s a => settled s a = true) lobby s ∧
      outcome s = some (true, true, true) :=
    execWhile_observe (published ++ [.withdraw 0 1 5, .send 1, .publish 3 5 5 [8] 9, .send 3, .receive 0, .receive 0])
      outcome (by decide +kernel)
  obtain ⟨browser, receiver, hp, hu, hsent, hb, _⟩ := outcome_caught_up ho
  exact ⟨page, s, browser, receiver, hsub, hs, hp, hb, subscribed_page_converges hsub hs hp hu hsent⟩

end Bore.SessionConverge
