import Bore.PeerSession
import Bore.Replay

namespace Bore.RegistryCatalogue.RoomEvent

open RegistryTypes

variable {e f : RoomEvent}

def peer? : RoomEvent → Option PeerId
  | peerJoined peer _ _ | peerRenamed peer _ _ | peerLeft peer _ | offerAdded peer _ _ _ _
  | offerRemoved peer _ _ => some peer
  | roomClosed _ => none

def offer? : RoomEvent → Option OfferId
  | offerAdded _ offer _ _ _ | offerRemoved _ offer _ => some offer
  | peerJoined _ _ _ | peerRenamed _ _ _ | peerLeft _ _ | roomClosed _ => none

def revision : RoomEvent → Nat
  | peerJoined _ _ revision | peerRenamed _ _ revision | peerLeft _ revision | offerAdded _ _ _ _ revision
  | offerRemoved _ _ revision => revision
  | roomClosed _ => 0

def apart (e f : RoomEvent) : Bool := e.peer? != f.peer? && (e.offer?.isNone || e.offer? != f.offer?)

theorem apart_peer (h : e.apart f = true) : e.peer? ≠ f.peer? := by
  simp only [apart, Bool.and_eq_true, bne_iff_ne] at h
  exact h.1

theorem apart_offer (h : e.apart f = true) {o : OfferId} (he : e.offer? = some o) : f.offer? ≠ some o := by
  simp only [apart, he, Option.isNone_some, Bool.false_or, Bool.and_eq_true, bne_iff_ne] at h
  exact fun hf => h.2 hf.symm

theorem apart_symm (h : e.apart f = true) : f.apart e = true := by
  have hp := apart_peer h
  have ho : ∀ o, e.offer? = some o → f.offer? ≠ some o := fun o => apart_offer h
  cases hf : f.offer? with
  | none => simp [apart, hp.symm, hf]
  | some o => simpa [apart, hp.symm, hf] using fun he : some o = e.offer? => ho o he.symm hf

end Bore.RegistryCatalogue.RoomEvent

namespace Bore.SessionViews

open RegistryTypes RegistryCatalogue PeerSession Replay

variable {Manifest Value : Type} (codec : ManifestCodec Manifest Value)

@[ext] structure View (Value : Type) where
  peers : PeerId → Option (Option String)
  offers : OfferId → Option (BrowserOffer Value)

def peerAct : RoomEvent → Option (Option String) → Option (Option String)
  | .peerJoined _ name _, _ => some name
  | .peerRenamed _ name _, entry => entry.map (fun _ => some name)
  | .peerLeft _ _, _ => none
  | .offerAdded _ _ _ _ _, entry | .offerRemoved _ _ _, entry | .roomClosed _, entry => entry

/-- What an event makes of one offer; `present` says whether the view has the
peer the event names. -/
def offerAct (event : RoomEvent) (present : Bool) (o : OfferId) (entry : Option (BrowserOffer Value)) :
    Option (BrowserOffer Value) :=
  match event with
  | .peerLeft peer _ => if present then entry.filter (fun b => b.peerId ≠ peer) else entry
  | .offerAdded peer offer manifest mac _ =>
    if offer = o then
      match codec.fromSlice manifest with
      | some value => some ⟨peer, value, mac⟩
      | none => entry
    else entry
  | .offerRemoved _ offer _ => if offer = o then none else entry
  | .peerJoined _ _ _ | .peerRenamed _ _ _ | .roomClosed _ => entry

def present (event : RoomEvent) (peers : PeerId → Option (Option String)) : Bool :=
  (event.peer?.bind peers).isSome

def act (event : RoomEvent) (v : View Value) : View Value where
  peers p := if event.peer? = some p then peerAct event (v.peers p) else v.peers p
  offers o := offerAct codec event (present event v.peers) o (v.offers o)

variable {codec}

theorem present_act (h : e.peer? ≠ f.peer?) (v : View Value) :
    present e (act codec f v).peers = present e v.peers := by
  unfold present
  cases he : e.peer? with
  | none => rfl
  | some p =>
    have hf : f.peer? ≠ some p := fun hp => h (he.trans hp.symm)
    simp [act, hf]

theorem offerAct_comm (h : e.apart f = true) (b c : Bool) (o : OfferId) (entry : Option (BrowserOffer Value)) :
    offerAct codec e b o (offerAct codec f c o entry) = offerAct codec f c o (offerAct codec e b o entry) := by
  have hp := RoomEvent.apart_peer h
  have ho : ∀ o, e.offer? = some o → f.offer? ≠ some o := fun o => RoomEvent.apart_offer h
  cases e <;> cases f <;> cases entry <;> simp only [offerAct] <;>
    simp only [RoomEvent.peer?, RoomEvent.offer?, ne_eq, Option.some.injEq] at hp ho <;> grind

theorem apart_commutes (h : e.apart f = true) : Commutes (act codec) e f := by
  intro v
  have hp := RoomEvent.apart_peer h
  apply View.ext
  · funext p
    by_cases he : e.peer? = some p
    · have hf : f.peer? ≠ some p := fun hf => hp (he.trans hf.symm)
      simp [act, he, hf]
    · simp [act, he]
  · funext o
    change offerAct codec e (present e (act codec f v).peers) o (offerAct codec f (present f v.peers) o (v.offers o)) =
      offerAct codec f (present f (act codec e v).peers) o (offerAct codec e (present e v.peers) o (v.offers o))
    rw [present_act hp, present_act hp.symm]
    exact offerAct_comm h _ _ o _

theorem act_peers_congr (e : RoomEvent) (v w : View Value) (h : v.peers = w.peers) :
    (act codec e v).peers = (act codec e w).peers := by
  simp only [act, h]

variable (codec)

def Stands : RoomEvent → View Value → Prop
  | .peerJoined peer name _, v => v.peers peer = some name
  | .peerRenamed peer name _, v => v.peers peer = some (some name)
  | .peerLeft peer _, v => v.peers peer = none ∧ ∀ o b, v.offers o = some b → b.peerId ≠ peer
  | .offerAdded peer offer manifest mac _, v =>
    v.offers offer = (codec.fromSlice manifest).map (fun value => ⟨peer, value, mac⟩)
  | .offerRemoved _ offer _, v => v.offers offer = none
  | .roomClosed _, _ => True

variable {codec}
variable {e f : RoomEvent} {o : OfferId} {v : View Value}

theorem offerAct_eq_some {c : Bool} {entry : Option (BrowserOffer Value)}
    {b : BrowserOffer Value} (h : offerAct codec e c o entry = some b) : entry = some b ∨ e.peer? = some b.peerId := by
  cases entry <;> cases e <;> simp only [offerAct, RoomEvent.peer?] at h ⊢ <;> grind

theorem offerAct_of_foreign {entry : Option (BrowserOffer Value)}
    (ho : e.offer? ≠ some o) (hp : ∀ b, entry = some b → e.peer? ≠ some b.peerId) (c : Bool) :
    offerAct codec e c o entry = entry := by
  cases entry <;> cases e <;> simp only [offerAct, RoomEvent.peer?, RoomEvent.offer?] at ho hp ⊢ <;> grind

theorem act_peers_of_foreign {p : PeerId} (h : e.peer? ≠ some p) (v : View Value) :
    (act codec e v).peers p = v.peers p := by
  simp [act, h]

theorem act_peerLeft_offers {peer : PeerId} {revision : Nat} (h : ∀ b, v.offers o = some b → b.peerId ≠ peer) :
    (act codec (.peerLeft peer revision) v).offers o = v.offers o := by
  change offerAct codec (.peerLeft peer revision) _ o (v.offers o) = v.offers o
  refine offerAct_of_foreign (by simp [RoomEvent.offer?]) ?_ _
  intro b hb hp
  cases hp
  exact h b hb rfl

theorem Stands.act (hs : Stands codec e v) (h : e.apart f = true) : Stands codec e (act codec f v) := by
  have hp : ∀ p, e.peer? = some p → f.peer? ≠ some p := fun p he hf => RoomEvent.apart_peer h (he.trans hf.symm)
  have ho : ∀ o, e.offer? = some o → f.offer? ≠ some o := fun o => RoomEvent.apart_offer h
  cases e with
  | peerJoined peer | peerRenamed peer => exact (act_peers_of_foreign (hp peer rfl) v).trans hs
  | peerLeft peer =>
    refine ⟨(act_peers_of_foreign (hp peer rfl) v).trans hs.1, ?_⟩
    intro o b hb
    rcases offerAct_eq_some hb with hv | hf
    · exact hs.2 o b hv
    · rintro rfl
      exact hp b.peerId rfl hf
  | offerAdded peer offer =>
    refine (offerAct_of_foreign (ho offer rfl) ?_ _).trans hs
    intro b hb hf
    have hv : v.offers offer = _ := hs
    obtain ⟨value, _, rfl⟩ := Option.map_eq_some_iff.mp (hv.symm.trans hb)
    exact hp peer rfl hf
  | offerRemoved _ offer =>
    have hv : v.offers offer = none := hs
    refine (offerAct_of_foreign (ho offer rfl) ?_ _).trans hs
    intro b hb
    cases hv.symm.trans hb
  | roomClosed => trivial

theorem Stands.peers_fixed (hs : Stands codec e v) (he : e.offer? = none)
    (offers : OfferId → Option (BrowserOffer Value)) : SessionViews.act codec e ⟨v.peers, offers⟩ = ⟨v.peers, offers⟩ := by
  cases e <;> simp only [RoomEvent.offer?, reduceCtorEq] at he <;> simp only [Stands] at hs <;> apply View.ext <;>
    funext k <;> simp only [SessionViews.act, peerAct, offerAct, present, RoomEvent.peer?] <;> grind

theorem Stands.offers_fixed (hs : Stands codec e v)
    (peers : PeerId → Option (Option String)) : (SessionViews.act codec e ⟨peers, v.offers⟩).offers = v.offers := by
  funext o
  cases e with
  | peerLeft => exact act_peerLeft_offers (hs.2 o)
  | offerAdded | offerRemoved =>
    simp only [Stands] at hs
    simp only [SessionViews.act, offerAct]
    grind
  | peerJoined | peerRenamed | roomClosed => rfl

theorem Stands.fixed (hs : Stands codec e v) : SessionViews.act codec e v = v := by
  apply View.ext
  · funext p
    cases e <;> simp only [Stands] at hs <;> simp only [SessionViews.act, peerAct, RoomEvent.peer?] <;> grind
  · exact hs.offers_fixed v.peers

theorem act_peers_of_offer (he : e.offer?.isSome) (v : View Value) : (act codec e v).peers = v.peers := by
  funext p
  cases e <;> simp only [RoomEvent.offer?, Option.isSome_none, Bool.false_eq_true] at he <;> simp [SessionViews.act, peerAct]

theorem Stands.replay {es : List RoomEvent} (hs : Stands codec e v)
    (h : ∀ f ∈ es, e.apart f = true) : Stands codec e (replay (SessionViews.act codec) es v) := by
  induction es generalizing v with
  | nil => exact hs
  | cons f _ ih => exact ih (hs.act (h f List.mem_cons_self)) (fun g hg => h g (List.mem_cons_of_mem f hg))

theorem replay_offers_of_stands {es : List RoomEvent} (h : ∀ e ∈ es, Stands codec e v)
    (peers : PeerId → Option (Option String)) : (replay (SessionViews.act codec) es ⟨peers, v.offers⟩).offers = v.offers := by
  induction es generalizing peers with
  | nil => rfl
  | cons e _ ih =>
    have he := (h e List.mem_cons_self).offers_fixed peers
    have hv : SessionViews.act codec e ⟨peers, v.offers⟩ =
        ⟨(SessionViews.act codec e ⟨peers, v.offers⟩).peers, v.offers⟩ :=
      View.ext rfl he
    rw [replay_cons, hv]
    exact ih (fun f hf => h f (List.mem_cons_of_mem e hf)) _

section Browser

variable (codec)

def browserView (browser : BrowserState Value) : View Value := ⟨browser.peers.get?, browser.offers.get?⟩

theorem browserView_deliver (browser : BrowserState Value) (event : RoomEvent) :
    browserView (deliver codec browser event) = act codec event (browserView browser) := by
  cases event with
  | peerJoined peer =>
    apply View.ext <;> funext k <;>
      simp only [deliver, roomEventMessage, reduce, browserView, act, peerAct, offerAct, RoomEvent.peer?, Table.get?_insert]
    grind
  | peerRenamed peer | peerLeft peer =>
    cases h : browser.peers.get? peer <;> apply View.ext <;> funext k <;>
      simp only [deliver, roomEventMessage, reduce, Table.contains, h, Option.isSome_some, Option.isSome_none,
        if_true, Bool.false_eq_true, if_false, browserView, act, peerAct, offerAct, present, RoomEvent.peer?,
        Table.get?_insert, Table.get?_erase, Table.get?_retain, Option.bind_some] <;> grind
  | offerAdded _ _ manifest =>
    apply View.ext <;> funext k <;> simp only [deliver, roomEventMessage] <;> cases hv : codec.fromSlice manifest <;>
      simp only [Option.map_some, Option.map_none, reduce, browserView, act, peerAct, offerAct, hv, Table.get?_insert] <;>
      grind
  | offerRemoved _ offer =>
    cases h : browser.offers.get? offer <;> apply View.ext <;> funext k <;>
      simp only [deliver, roomEventMessage, reduce, Table.contains, h, Option.isSome_some, Option.isSome_none,
        if_true, Bool.false_eq_true, if_false, browserView, act,
        peerAct, offerAct, Table.get?_erase] <;> grind
  | roomClosed =>
    apply View.ext <;> funext k <;> simp only [deliver, roomEventMessage, reduce, browserView, act, offerAct, RoomEvent.peer?]
    grind

def pageOffers (views : List OfferView) : List (OfferId × BrowserOffer Value) :=
  views.filterMap (fun view =>
    (codec.fromSlice view.manifest).map (fun value => (view.offer, ⟨view.peer, value, view.mac⟩)))

variable {codec}

theorem foldl_snapshotPeer (revision : Nat) (peers : List (PeerId × Option String)) (browser : BrowserState Value) :
    (peers.map (fun e => Message.snapshotPeer e.1 e.2 revision)).foldl reduce browser =
      { browser with peers := peers.foldl (fun t e => t.insert e.1 e.2) browser.peers } := by
  induction peers generalizing browser with
  | nil => rfl
  | cons _ _ ih => exact ih _

theorem snapshotOffers_ok {revision : Nat} {views : List OfferView}
    (h : ∀ view ∈ views, (codec.fromSlice view.manifest).isSome) :
    snapshotOffers codec revision views = .ok ((pageOffers codec views).map (fun e =>
      .snapshotOffer e.2.peerId e.1 e.2.manifest e.2.mac revision)) := by
  induction views with
  | nil => rfl
  | cons view _ ih =>
    obtain ⟨value, hv⟩ := Option.isSome_iff_exists.mp (h view List.mem_cons_self)
    have hr := ih (fun w hw => h w (List.mem_cons_of_mem view hw))
    simp [snapshotOffers, pageOffers, hv, hr, Except.map]

theorem foldl_snapshotOffer (revision : Nat) (offers : List (OfferId × BrowserOffer Value))
    (browser : BrowserState Value) :
    (offers.map (fun e => Message.snapshotOffer e.2.peerId e.1 e.2.manifest e.2.mac revision)).foldl reduce browser =
      { browser with offers := offers.foldl (fun t e => t.insert e.1 e.2) browser.offers } := by
  induction offers generalizing browser with
  | nil => rfl
  | cons _ _ ih => exact ih _

theorem initialMessages_view (room : Room) (peer : PeerId) (revision : Nat) {peers : List (PeerId × Option String)}
    {views : List OfferView} (hp : (peers.map Prod.fst).Nodup) (ho : ((pageOffers codec views).map Prod.fst).Nodup)
    (hr : ∀ view ∈ views, (codec.fromSlice view.manifest).isSome) (browser : BrowserState Value) :
    ∃ messages, initialMessages codec room peer revision peers views = .ok messages ∧
      browserView (messages.foldl reduce browser) =
        ⟨fun p => Table.lookup p peers, fun o => Table.lookup o (pageOffers codec views)⟩ := by
  refine ⟨_, by simp [initialMessages, snapshotOfferStrings, snapshotOffers_ok hr, Except.map]; rfl, ?_⟩
  simp only [List.foldl_cons, List.foldl_append, List.foldl_nil, reduce, foldl_snapshotPeer, foldl_snapshotOffer]
  apply View.ext
  · funext p
    simp [browserView, Table.get?_foldl_insert hp]
  · funext o
    simp [browserView, Table.get?_foldl_insert ho]

end Browser

end Bore.SessionViews
