import Bore.OfferBooks
import Bore.RegistryTerminal

namespace Bore.OfferAccounting

open RegistryTypes RegistryCatalogue OfferSections OfferBooks Runs List
open RegistrySystem (emptyRoom)

section Sums

variable {α : Type} (f : α → Nat)

variable {xs : List α}

theorem sum_map_set {i : Nat} {old : α} (new : α) (h : xs[i]? = some old) :
    ((xs.set i new).map f).sum + f old = (xs.map f).sum + f new := by
  obtain ⟨hi, rfl⟩ := List.getElem?_eq_some_iff.mp h
  have hnew := ((set_perm_cons_eraseIdx hi new).map f).sum_nat
  have hold := ((getElem_cons_eraseIdx_perm hi).map f).sum_nat
  rw [map_cons, sum_cons] at hnew hold
  omega

theorem le_sum_map {i : Nat} {x : α} (h : xs[i]? = some x) : f x ≤ (xs.map f).sum :=
  le_sum_of_mem (mem_map_of_mem (mem_of_getElem? h))

end Sums

def slotPoint (slot : Slot) : Option Point := slot.inside.map Visit.point

def roomBytes (s : System) : Nat := (s.slots.map (fun slot => slot.room.metadataBytes)).sum

def reservationBytes : Reservation → Nat
  | .held bytes => bytes
  | _ => 0

def liveReservations (s : System) : Nat :=
  (s.slots.map (fun slot => heldBytes (slotPoint slot))).sum + (s.reservations.map reservationBytes).sum

def offerCount (s : System) : Nat := (s.slots.map (fun slot => slot.room.offers.values.length)).sum

def uncounted (s : System) : Nat := (s.slots.map (fun slot => dueOffers (slotPoint slot))).sum

def Clean (found room : Room) (metadataNet offersNet : Int) (held : Nat) : Prop :=
  room = found ∧ metadataNet = held ∧ offersNet = 0

structure Accounts (cfg : Config) (s : System) : Prop where
  fits : ∀ slot ∈ s.slots, Fits cfg slot.room (slotPoint slot)
  clean : ∀ slot ∈ s.slots, ∀ v, slot.inside = some v → (publication (some v.point)).isSome = true →
    Clean v.found slot.room v.metadataNet v.offersNet (heldBytes (some v.point))
  metadata : s.inner.metadataCurrent = roomBytes s + liveReservations s
  within : Within cfg s.inner.metadataCurrent
  swaps : ∀ bytes current, .swapping bytes current ∈ s.reservations → Within cfg (current + bytes)
  offers : s.inner.offersCurrent = UInt64.ofNat (offerCount s + uncounted s)
  returned : ∀ ret ∈ s.returns, ∀ e, ret.reply = .published (.error e) →
    Clean ret.found ret.left ret.metadataNet ret.offersNet 0

section Runs

variable {cfg : Config} {s s' : System}

theorem ofNat_balance {n n' : UInt64} {a b total total' : Nat} (h : n' + UInt64.ofNat a = n + UInt64.ofNat b)
    (hn : n = UInt64.ofNat total) (ht : total' + a = total + b) : n' = UInt64.ofNat total' := by
  have hsum : UInt64.ofNat (total' + a) = UInt64.ofNat (total + b) := congrArg _ ht
  rw [UInt64.ofNat_add, UInt64.ofNat_add, ← hn, ← h] at hsum
  exact (UInt64.add_left_inj _).mp hsum.symm

variable {i : Nat}

theorem Accounts.lands (h : Accounts cfg s) {slot : Slot} (hi : s.slots[i]? = some slot) {found : Room}
    {metadataNet offersNet : Int} {r : Scope × Outcome} (hb : Balanced cfg ⟨s.inner, slot.room⟩ (slotPoint slot) r)
    (hq : (publication (slotPoint slot)).isSome = (slotPoint slot).isSome →
      Clean found slot.room metadataNet offersNet (heldBytes (slotPoint slot))) :
    Accounts cfg (s.lands i found metadataNet offersNet r) := by
  obtain ⟨t, outcome⟩ := r
  obtain ⟨hfits, hmetadata, hwithin, hcount, hquiet⟩ := hb
  obtain ⟨h1, h2, h3, h4, h5, h6, h7⟩ := h
  have hrooms (inside : Option Visit) := sum_map_set (fun x : Slot => x.room.metadataBytes) ⟨t.room, inside⟩ hi
  have hheld (inside : Option Visit) := sum_map_set (fun x : Slot => heldBytes (slotPoint x)) ⟨t.room, inside⟩ hi
  have hcounts (inside : Option Visit) := sum_map_set (fun x : Slot => x.room.offers.values.length) ⟨t.room, inside⟩ hi
  have hdue (inside : Option Visit) := sum_map_set (fun x : Slot => dueOffers (slotPoint x)) ⟨t.room, inside⟩ hi
  cases outcome
  all_goals constructor
  case goes.offers | returns.offers =>
    refine ofNat_balance hcount h6 ?_
    grind [System.lands, offerCount, uncounted, outcomePoint, slotPoint]
  all_goals grind [System.lands, roomBytes, liveReservations, outcomePoint, slotPoint, unpublished,
    heldBytes, Clean, mem_or_eq_of_mem_set]

theorem Accounts.acquire (h : Accounts cfg s) {enter : Scope → Scope × Outcome} (hs : s.acquire i enter = some s')
    (hb : ∀ t, Fits cfg t.room none → Within cfg t.inner.metadataCurrent → Balanced cfg t none (enter t)) :
    Accounts cfg s' := by
  revert hs
  fun_cases System.acquire s i enter
  all_goals rintro ⟨⟩
  rename_i room hi
  exact h.lands hi (hb ⟨s.inner, room⟩ (h.fits _ (mem_of_getElem? hi)) h.within) fun _ => ⟨rfl, rfl, rfl⟩

theorem Accounts.advance (h : Accounts cfg s) {now : Instant} {spurious : Bool}
    (hs : s.advance cfg i now spurious = some s') : Accounts cfg s' := by
  revert hs
  fun_cases System.advance cfg s i now spurious
  all_goals rintro ⟨⟩
  rename_i room v hi
  have hmem := mem_of_getElem? hi
  have hle : room.metadataBytes + heldBytes (some v.point) ≤ s.inner.metadataCurrent := by
    have hroom := le_sum_map (fun x : Slot => x.room.metadataBytes) hi
    have hheld := le_sum_map (fun x : Slot => heldBytes (slotPoint x)) hi
    have hsum := h.metadata
    simp only [roomBytes, liveReservations, slotPoint, Option.map_some] at hsum hroom hheld
    omega
  exact h.lands hi (visitStep_balanced now spurious (h.fits _ hmem) h.within hle) (h.clean _ hmem v rfl)

theorem offerCharge_ok {n charge : Nat} (h : offerCharge n = .ok charge) : 64 ≤ charge := by
  rw [offerCharge] at h
  split at h
  · cases h
    exact Nat.le_add_left _ _
  · cases h

theorem Accounts.publish (h : Accounts cfg s) {peer : PeerId} {offer manifestOffer : OfferId}
    {canonical : Bytes} {mac : Digest} (hs : s.publish i peer offer manifestOffer canonical mac = some s') :
    Accounts cfg s' := by
  revert hs
  fun_cases System.publish s i peer offer manifestOffer canonical mac
  case case3 hcharge =>
    exact fun hs => h.acquire hs fun _ hf hw => enterPublish_balanced hf hw (offerCharge_ok hcharge)
  all_goals
    intro hs
    obtain ⟨slot, _, rfl⟩ := Option.map_eq_some_iff.mp hs
    refine { h with returned := ?_ }
    grind [Clean, h.returned]

theorem reserveStep_balanced {inner : RegistryInner} (spurious : Bool) (r : Reservation)
    (hw : Within cfg inner.metadataCurrent) (hle : reservationBytes r ≤ inner.metadataCurrent)
    (hswap : ∀ bytes current, r = .swapping bytes current → Within cfg (current + bytes)) :
    (reserveStep cfg inner spurious r).1.metadataCurrent + reservationBytes r =
        inner.metadataCurrent + reservationBytes (reserveStep cfg inner spurious r).2 ∧
      Within cfg (reserveStep cfg inner spurious r).1.metadataCurrent ∧
      (reserveStep cfg inner spurious r).1.offersCurrent = inner.offersCurrent ∧
      ∀ bytes current, (reserveStep cfg inner spurious r).2 = .swapping bytes current → Within cfg (current + bytes) := by
  have hback (n : Nat) (hc : n ≤ inner.metadataCurrent) := fetchSub_of_le hc hw.2
  fun_cases reserveStep cfg inner spurious r
  all_goals grind [reservationBytes, Within, → checkReserve_ok, → checkReserve_error]

theorem Accounts.reservation (h : Accounts cfg s) {k : Nat} {r : Reservation} (hk : s.reservations[k]? = some r)
    (spurious : Bool) : Accounts cfg { s with
      inner := (reserveStep cfg s.inner spurious r).1
      reservations := s.reservations.set k (reserveStep cfg s.inner spurious r).2 } := by
  have hheld := le_sum_map reservationBytes hk
  have hset := sum_map_set reservationBytes (reserveStep cfg s.inner spurious r).2 hk
  have hsum := h.metadata
  simp only [roomBytes, liveReservations] at hsum
  obtain ⟨hm, hw, ho, hswap⟩ := reserveStep_balanced spurious r h.within (by omega) fun bytes current he =>
    h.swaps bytes current (he ▸ mem_of_getElem? hk)
  refine { h with metadata := ?_, within := hw, swaps := fun bytes current hmem => ?_, offers := ho.trans h.offers }
  · simp only [roomBytes, liveReservations]
    omega
  · rcases mem_or_eq_of_mem_set hmem with hmem | he
    · exact h.swaps bytes current hmem
    · exact hswap bytes current he.symm

theorem Accounts.createRoom (h : Accounts cfg s) (relayOnly : Bool) :
    Accounts cfg { s with slots := s.slots ++ [⟨emptyRoom relayOnly, none⟩] } := by
  have hpoint : slotPoint ⟨emptyRoom relayOnly, none⟩ = none := rfl
  have hbytes : (emptyRoom relayOnly).metadataBytes = 0 := rfl
  have hoffers : (emptyRoom relayOnly).offers.values = [] := rfl
  have hempty : Fits cfg (emptyRoom relayOnly) none :=
    ⟨rfl, Nat.zero_le _, fun _ => Nat.zero_le _, nofun, nofun, nofun, nofun, nofun⟩
  obtain ⟨h1, h2, h3, h4, h5, h6, h7⟩ := h
  constructor
  case metadata => simpa [roomBytes, liveReservations, hpoint, hbytes, heldBytes] using h3
  case offers => simpa [offerCount, uncounted, hpoint, hoffers, dueOffers] using h6
  all_goals grind

theorem step_accounts {a : Action} (h : Accounts cfg s) (hs : step cfg s a = some s') : Accounts cfg s' := by
  cases a with
  | createRoom relayOnly =>
    cases hs
    exact h.createRoom relayOnly
  | join i peer displayName =>
    exact h.acquire hs fun _ hf hw => enterJoin_balanced hf hw peer displayName
  | publish => exact h.publish hs
  | withdraw i peer offer =>
    exact h.acquire hs fun _ hf hw => enterWithdraw_balanced hf hw peer offer
  | removePeer i peer =>
    exact h.acquire hs fun _ hf hw => enterRemove_balanced hf hw peer
  | advance => exact h.advance hs
  | reserve =>
    cases hs
    refine { h with metadata := ?_, swaps := fun b c hm => ?_ }
    · simp only [roomBytes, liveReservations, map_append, map_singleton, sum_append, sum_singleton,
        reservationBytes, Nat.add_zero]
      exact h.metadata
    · rcases mem_append.mp hm with hm | hm
      · exact h.swaps b c hm
      · cases mem_singleton.mp hm
  | reservation k spurious =>
    obtain ⟨r, hk, rfl⟩ := Option.map_eq_some_iff.mp hs
    exact h.reservation hk spurious

theorem start_accounts (maxPeersGlobal : Nat) : Accounts cfg (start cfg maxPeersGlobal) where
  fits := nofun
  clean := nofun
  metadata := rfl
  within := ⟨Nat.zero_le _, Nat.zero_le _⟩
  swaps := nofun
  offers := rfl
  returned := nofun

theorem Accounts.offerCount_le (h : Accounts cfg s) : offerCount s ≤ u64Max := by
  have hslot : ∀ slot ∈ s.slots, slot.room.offers.values.length ≤ slot.room.metadataBytes := by
    intro slot hm
    have hf := h.fits slot hm
    have hlen : (slot.room.offers.values.map (fun _ => 1)).sum ≤ charged slot.room := by
      refine sum_le_sum fun record hr => ?_
      obtain ⟨id, hid⟩ := (Table.mem_values_iff _ _).mp hr
      exact Nat.le_trans (by decide) (hf.weight id record hid)
    rw [map_const', sum_replicate_nat, Nat.mul_one] at hlen
    have := hf.bytes
    omega
  have hsum : offerCount s ≤ roomBytes s := sum_le_sum hslot
  have := h.metadata
  have := h.within.2
  omega

end Runs

/-- Offer and metadata accounting. A room in which no section is under way is
charged exactly for its offers and all their owners are present; the counters
agree with all rooms and reservations at every moment; and a publication that
fails has changed nothing. -/
theorem offers_are_accounted (cfg : Config) (maxPeersGlobal : Nat) (s : System)
    (hreach : Reaches (step cfg) always (start cfg maxPeersGlobal) s) :
    (∀ slot ∈ s.slots, slot.inside = none → slot.room.metadataBytes = charged slot.room ∧
      ∀ id record, slot.room.offers.get? id = some record → slot.room.peers.contains record.owner = true) ∧
    (∀ slot ∈ s.slots, slot.room.metadataBytes = charged slot.room + dueBytes (slotPoint slot) ∧
      slot.room.metadataBytes ≤ cfg.limits.maxMetadataPerRoomBytes ∧
      (∀ peer, owned slot.room peer ≤ cfg.limits.maxOffersPerPeer) ∧
      ∀ id record, slot.room.offers.get? id = some record →
        slot.room.peers.contains record.owner = true ∨ id ∈ leaving (slotPoint slot)) ∧
    s.inner.metadataCurrent = roomBytes s + liveReservations s ∧
    s.inner.metadataCurrent ≤ cfg.limits.maxMetadataTotalBytes ∧
    s.inner.offersCurrent = UInt64.ofNat (offerCount s + uncounted s) ∧
    ((∀ slot ∈ s.slots, slot.inside = none) → s.inner.offersCurrent.toNat = offerCount s) ∧
    (∀ ret ∈ s.returns, ∀ e, ret.reply = .published (.error e) →
      ret.left = ret.found ∧ ret.metadataNet = 0 ∧ ret.offersNet = 0) := by
  have h : Accounts cfg s :=
    hreach.invariant (start_accounts maxPeersGlobal) fun _ _ _ ht _ hstep => step_accounts ht hstep
  refine ⟨fun slot hm hfree => ?_, fun slot hm => ?_, h.metadata, h.within.1, h.offers, fun hfree => ?_,
    fun ret hret e he => ?_⟩
  · have hf := h.fits slot hm
    have hp : slotPoint slot = none := by rw [slotPoint, hfree]; rfl
    rw [hp] at hf
    exact ⟨hf.bytes, fun id record hid => (hf.owners id record hid).resolve_right not_mem_nil⟩
  · have hf := h.fits slot hm
    exact ⟨hf.bytes, hf.cap, hf.quota, hf.owners⟩
  · have hzero : uncounted s = 0 := by
      refine sum_eq_zero fun n hn => ?_
      obtain ⟨slot, hm, rfl⟩ := mem_map.mp hn
      rw [slotPoint, hfree slot hm]
      rfl
    have hlt : offerCount s < 2 ^ 64 := Nat.lt_of_le_of_lt h.offerCount_le (by decide)
    rw [h.offers, hzero, Nat.add_zero, UInt64.toNat_ofNat_of_lt' hlt]
  · obtain ⟨hroom, hmetadata, hoffers⟩ := h.returned ret hret e he
    exact ⟨hroom.symm ▸ rfl, hmetadata, hoffers⟩

def refusedPublish (ret : Return) : Bool :=
  match ret.reply with
  | .published (.error _) => true
  | _ => false

/-- A reservation of 900 bytes comes between the exchange and the end of a
publication in room 0, and a publication in room 1 finds the budget exhausted. -/
theorem offers_are_accounted_two_rooms :
    ∃ s, Reaches (step RegistryTerminal.sampleConfig) always (start RegistryTerminal.sampleConfig 100) s ∧
      (s.inner.metadataCurrent, s.inner.offersCurrent, s.returns.countP refusedPublish) = (964, 1, 1) ∧
      s.inner.metadataCurrent = roomBytes s + liveReservations s ∧ s.inner.offersCurrent.toNat = offerCount s := by
  obtain ⟨s, hreach, hs⟩ : ∃ s, Reaches (step RegistryTerminal.sampleConfig) always
      (start RegistryTerminal.sampleConfig 100) s ∧
      (s.inner.metadataCurrent, s.inner.offersCurrent, s.returns.countP refusedPublish,
        s.slots.all (fun slot => slot.inside.isNone)) = (964, 1, 1, true) :=
    exec_observe [.createRoom false, .createRoom false, .join 0 1 none, .join 1 2 none, .publish 0 1 5 5 [] 3,
      .advance 0 0 false, .advance 0 0 false, .reserve 900, .reservation 0 false, .reservation 0 false,
      .publish 1 2 6 6 [] 3, .advance 1 0 false, .advance 0 0 false] _ (by decide +kernel)
  simp only [Prod.mk.injEq, all_eq_true, Option.isNone_iff_eq_none] at hs
  obtain ⟨hm, hn, hr, hfree⟩ := hs
  obtain ⟨_, _, hmetadata, _, _, hcount, _⟩ := offers_are_accounted RegistryTerminal.sampleConfig 100 s hreach
  exact ⟨s, hreach, by rw [hm, hn, hr], hmetadata, hcount hfree⟩

end Bore.OfferAccounting
