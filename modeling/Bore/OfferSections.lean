import Bore.RegistrySystem

/-! The offer operations with the accesses of the counters that all rooms share
as separate steps. A thread works under its room's lock, so what it does to the
room between two such accesses belongs to the step of the later one. -/

namespace Bore.OfferSections

open RegistryTypes RegistryOps RegistryCatalogue
open RegistrySystem (emptyRoom emptyInner)

inductive PublishOutcome
  | created
  | idempotent
  deriving DecidableEq

inductive WithdrawOutcome
  | removed
  | alreadyGone
  deriving DecidableEq

def fetchSub (current bytes : Nat) : Nat := (current + (2 ^ 64 - bytes % 2 ^ 64)) % 2 ^ 64

structure Publication where
  peer : PeerId
  offer : OfferId
  canonical : Bytes
  mac : Digest
  charge : Nat
  deriving DecidableEq

/-- Where the holder of a room's lock stands, before its next access of a
shared counter. -/
inductive Point
  | loading (p : Publication)
  | swapping (p : Publication) (current : Nat)
  | reserved (p : Publication)
  | taking (peer : PeerId) (offer : OfferId) (record : OfferRecord) (revision : Nat)
  | releasing (peer : PeerId) (offer : OfferId) (record : OfferRecord) (revision : Nat)
  | cancelling (peer : PeerId) (offer : OfferId) (revision : Nat)
  | dropping (peer : PeerId) (owned : List OfferId) (incremental : Bool) (revision : Nat)
  | counting (peer : PeerId) (owned : List OfferId) (incremental : Bool) (revision : Nat)

inductive Reply
  | joined
  | published (result : Except WebTransferError PublishOutcome)
  | withdrew (result : Except WebTransferError WithdrawOutcome)
  | departed (revisionExhausted : Bool)

inductive Outcome
  | goes (point : Point)
  | returns (reply : Reply)

/-- The checks of `try_reserve_metadata`'s loop on the value it has seen. -/
def checkReserve (cfg : Config) (inner : RegistryInner) (current bytes : Nat) :
    Except (RegistryInner × WebTransferError) Nat :=
  if u64Max < current + bytes then .error (inner, .limit "web-transfer metadata budget exhausted")
  else if cfg.limits.maxMetadataTotalBytes < current + bytes then
    .error (refused inner, .limit "web-transfer metadata budget exhausted")
  else .ok (current + bytes)

def seen (cfg : Config) (p : Publication) (s : Scope) : Scope × Outcome :=
  match checkReserve cfg s.inner s.inner.metadataCurrent p.charge with
  | .error (inner, e) => ({ s with inner := inner }, .returns (.published (.error e)))
  | .ok _ => (s, .goes (.swapping p s.inner.metadataCurrent))

def giveUp (p : Publication) (e : WebTransferError) (inner : RegistryInner) (room : Room) : Scope × Outcome :=
  (⟨{ inner with metadataCurrent := fetchSub inner.metadataCurrent p.charge }, room⟩, .returns (.published (.error e)))

def settle (cfg : Config) (p : Publication) (s : Scope) : Scope × Outcome :=
  if cfg.limits.maxOffersPerPeer ≤ (s.room.offers.values.filter (fun o => o.owner == p.peer)).length then
    giveUp p (.limit "peer offer budget exhausted") (refused s.inner) s.room
  else if u64Max < s.room.metadataBytes + p.charge then
    giveUp p (.limit "web-transfer metadata budget exhausted") s.inner s.room
  else if cfg.limits.maxMetadataPerRoomBytes < s.room.metadataBytes + p.charge then
    giveUp p (.limit "web-transfer metadata budget exhausted") (refused s.inner) s.room
  else match checkedRoomRevision s.room.revision 1 with
    | .error e => giveUp p e s.inner s.room
    | .ok revision =>
      ({ inner := { s.inner with offersCurrent := s.inner.offersCurrent + 1 }
         room := { s.room with
           metadataBytes := s.room.metadataBytes + p.charge
           offers := s.room.offers.insert p.offer ⟨p.peer, p.canonical, p.mac, p.charge⟩
           revision := revision } },
        .returns (.published (.ok .created)))

/-- The next step of the holder of the room's lock; `spurious` lets the weak
exchange fail on an equal value. -/
def visitStep (cfg : Config) (now : Instant) (spurious : Bool) (point : Point) (s : Scope) : Scope × Outcome :=
  match point with
  | .loading p => seen cfg p s
  | .swapping p current =>
    if s.inner.metadataCurrent = current && !spurious then
      ({ s with inner := { s.inner with metadataCurrent := current + p.charge } }, .goes (.reserved p))
    else seen cfg p s
  | .reserved p => settle cfg p s
  | .taking peer offer record revision =>
    ({ inner := { s.inner with offersCurrent := s.inner.offersCurrent - 1 }
       room := { s.room with offers := s.room.offers.erase offer } },
      .goes (.releasing peer offer record revision))
  | .releasing peer offer record revision =>
    ({ inner := { s.inner with metadataCurrent := fetchSub s.inner.metadataCurrent record.metadataBytes }
       room := { s.room with metadataBytes := s.room.metadataBytes - record.metadataBytes } },
      .goes (.cancelling peer offer revision))
  | .cancelling peer offer revision =>
    let s := (cancelWhereLocked now peer (fun r => r.offerId == offer) s).1
    ({ s with room := { s.room with revision := revision } }, .returns (.withdrew (.ok .removed)))
  | .dropping peer (offer :: owned) incremental revision =>
    match s.room.offers.get? offer with
    | none => (s, .goes (.dropping peer owned incremental revision))
    | some record =>
      ({ inner := { s.inner with metadataCurrent := fetchSub s.inner.metadataCurrent record.metadataBytes }
         room := { s.room with
           offers := s.room.offers.erase offer
           metadataBytes := s.room.metadataBytes - record.metadataBytes } },
        .goes (.counting peer owned incremental revision))
  | .counting peer owned incremental revision =>
    ({ s with inner := { s.inner with offersCurrent := s.inner.offersCurrent - 1 } },
      .goes (.dropping peer owned incremental (if incremental then revision + 1 else revision)))
  | .dropping peer [] incremental revision =>
    let s := (cancelWhereLocked now peer (fun r => r.source == peer || r.recipient == peer) s).1
    let inner := { s.inner with peerPermits := s.inner.peerPermits + 1 }
    if incremental then (⟨inner, { s.room with revision := revision + 1 }⟩, .returns (.departed false))
    else (⟨inner, s.room⟩, .returns (.departed true))

/-- `publish_offer` from the acquisition of the lock to the reservation. -/
def enterPublish (p : Publication) (s : Scope) : Scope × Outcome :=
  if !s.room.peers.contains p.peer then (s, .returns (.published (.error (.invalid "unknown peer"))))
  else match s.room.offers.get? p.offer with
    | some existing =>
      if existing.owner = p.peer && existing.manifest = p.canonical && existing.mac = p.mac then
        (s, .returns (.published (.ok .idempotent)))
      else (s, .returns (.published (.error (.offerChanged "offer ID already published"))))
    | none => (s, .goes (.loading p))

def enterWithdraw (peer : PeerId) (offer : OfferId) (s : Scope) : Scope × Outcome :=
  match s.room.offers.get? offer with
  | none => (s, .returns (.withdrew (.ok .alreadyGone)))
  | some record =>
    if record.owner ≠ peer then (s, .returns (.withdrew (.error (.notParticipant "only the offer owner withdraws"))))
    else match checkedRoomRevision s.room.revision 1 with
      | .error e => (s, .returns (.withdrew (.error e)))
      | .ok revision => (s, .goes (.taking peer offer record revision))

def enterRemove (peer : PeerId) (s : Scope) : Scope × Outcome :=
  if !s.room.peers.contains peer then (s, .returns (.departed false))
  else
    let owned := (s.room.offers.entries.filter (fun e => e.2.owner == peer)).map Prod.fst
    let incremental := decide (s.room.revision + (owned.length + 1) ≤ u64Max)
    ({ s with room := { s.room with
        peers := s.room.peers.erase peer
        sessions := s.room.sessions.filter (· ≠ peer) } },
      .goes (.dropping peer owned incremental s.room.revision))

def enterJoin (cfg : Config) (peer : PeerId) (displayName : Option String) (s : Scope) : Scope × Outcome :=
  ((joinPeer cfg peer displayName s).1, .returns .joined)

/-- A critical section under way. The room it found and the sums of what it has
added to the two counters are recorded for the statements only. -/
structure Visit where
  found : Room
  metadataNet : Int
  offersNet : Int
  point : Point

structure Slot where
  room : Room
  inside : Option Visit

/-- A `try_reserve_metadata` call of its own and the reservation it returns. -/
inductive Reservation
  | loading (bytes : Nat)
  | swapping (bytes current : Nat)
  | held (bytes : Nat)
  | gone
  deriving DecidableEq

structure Return where
  index : Nat
  found : Room
  left : Room
  metadataNet : Int
  offersNet : Int
  reply : Reply

structure System where
  inner : RegistryInner
  slots : List Slot
  reservations : List Reservation
  returns : List Return

def System.lands (s : System) (i : Nat) (found : Room) (metadataNet offersNet : Int) (r : Scope × Outcome) : System :=
  let metadataNet := metadataNet + (r.1.inner.metadataCurrent - s.inner.metadataCurrent)
  let offersNet := offersNet + (r.1.inner.offersCurrent.toNat - s.inner.offersCurrent.toNat)
  match r.2 with
  | .goes point =>
    { s with inner := r.1.inner, slots := s.slots.set i ⟨r.1.room, some ⟨found, metadataNet, offersNet, point⟩⟩ }
  | .returns reply =>
    { s with
      inner := r.1.inner
      slots := s.slots.set i ⟨r.1.room, none⟩
      returns := s.returns ++ [⟨i, found, r.1.room, metadataNet, offersNet, reply⟩] }

def System.acquire (s : System) (i : Nat) (enter : Scope → Scope × Outcome) : Option System :=
  match s.slots[i]? with
  | some ⟨room, none⟩ => some (s.lands i room 0 0 (enter ⟨s.inner, room⟩))
  | _ => none

def System.advance (cfg : Config) (s : System) (i : Nat) (now : Instant) (spurious : Bool) : Option System :=
  match s.slots[i]? with
  | some ⟨room, some v⟩ =>
    some (s.lands i v.found v.metadataNet v.offersNet (visitStep cfg now spurious v.point ⟨s.inner, room⟩))
  | _ => none

def System.publish (s : System) (i : Nat) (peer : PeerId) (offer manifestOffer : OfferId) (canonical : Bytes)
    (mac : Digest) : Option System :=
  let rejects (e : WebTransferError) : Option System := s.slots[i]?.map (fun slot =>
    { s with returns := s.returns ++ [⟨i, slot.room, slot.room, 0, 0, .published (.error e)⟩] })
  if manifestOffer ≠ offer then rejects (.invalid "offer ID must match its manifest")
  else match offerCharge canonical.length with
    | .error e => rejects e
    | .ok charge => s.acquire i (enterPublish ⟨peer, offer, canonical, mac, charge⟩)

def reserveStep (cfg : Config) (inner : RegistryInner) (spurious : Bool) : Reservation → RegistryInner × Reservation
  | .loading bytes =>
    match checkReserve cfg inner inner.metadataCurrent bytes with
    | .error (inner, _) => (inner, .gone)
    | .ok _ => (inner, .swapping bytes inner.metadataCurrent)
  | .swapping bytes current =>
    if inner.metadataCurrent = current && !spurious then
      ({ inner with metadataCurrent := current + bytes }, .held bytes)
    else match checkReserve cfg inner inner.metadataCurrent bytes with
      | .error (inner, _) => (inner, .gone)
      | .ok _ => (inner, .swapping bytes inner.metadataCurrent)
  | .held bytes => ({ inner with metadataCurrent := fetchSub inner.metadataCurrent bytes }, .gone)
  | .gone => (inner, .gone)

inductive Action
  | createRoom (relayOnly : Bool)
  | join (i : Nat) (peer : PeerId) (displayName : Option String)
  | publish (i : Nat) (peer : PeerId) (offer manifestOffer : OfferId) (canonical : Bytes) (mac : Digest)
  | withdraw (i : Nat) (peer : PeerId) (offer : OfferId)
  | removePeer (i : Nat) (peer : PeerId)
  | advance (i : Nat) (now : Instant) (spurious : Bool)
  | reserve (bytes : Nat)
  | reservation (k : Nat) (spurious : Bool)
  deriving DecidableEq

def step (cfg : Config) (s : System) : Action → Option System
  | .createRoom relayOnly => some { s with slots := s.slots ++ [⟨emptyRoom relayOnly, none⟩] }
  | .join i peer displayName => s.acquire i (enterJoin cfg peer displayName)
  | .publish i peer offer manifestOffer canonical mac => s.publish i peer offer manifestOffer canonical mac
  | .withdraw i peer offer => s.acquire i (enterWithdraw peer offer)
  | .removePeer i peer => s.acquire i (enterRemove peer)
  | .advance i now spurious => s.advance cfg i now spurious
  | .reserve bytes => some { s with reservations := s.reservations ++ [.loading bytes] }
  | .reservation k spurious => s.reservations[k]?.map (fun r =>
    let out := reserveStep cfg s.inner spurious r
    { s with inner := out.1, reservations := s.reservations.set k out.2 })

def start (cfg : Config) (maxPeersGlobal : Nat) : System := ⟨emptyInner cfg.limits maxPeersGlobal, [], [], []⟩

theorem fetchSub_of_le {current bytes : Nat} (hle : bytes ≤ current) (h : current ≤ u64Max) :
    fetchSub current bytes = current - bytes := by
  simp only [fetchSub, u64Max] at *
  omega

section Alone

variable {cfg : Config} {now : Instant} {peer : PeerId} {s : Scope}

/-- The steps of a thread that no other one comes between. -/
def runAlone (cfg : Config) (now : Instant) : Nat → Scope × Outcome → Scope × Outcome
  | n + 1, (s, .goes point) => runAlone cfg now n (visitStep cfg now false point s)
  | _, r => r

theorem fetchSub_add {current bytes : Nat} (h : ¬ u64Max < current + bytes) : fetchSub (current + bytes) bytes = current := by
  rw [fetchSub_of_le (Nat.le_add_left ..) (Nat.le_of_not_lt h), Nat.add_sub_cancel]

theorem publish_alone {offer : OfferId} {canonical : Bytes} {mac : Digest} {charge : Nat}
    (hc : offerCharge canonical.length = .ok charge) :
    (runAlone cfg now 3 (enterPublish ⟨peer, offer, canonical, mac, charge⟩ s)).1 =
      (publishOffer cfg peer offer offer canonical mac s).1 := by
  simp only [publishOffer, enterPublish, hc, ne_eq, not_true, if_false]
  split
  · rfl
  cases s.room.offers.get? offer with
  | some existing =>
    dsimp only
    split <;> rfl
  | none =>
    simp only [runAlone, visitStep, seen, checkReserve]
    split_ifs with hmax htotal
    · rfl
    · rfl
    all_goals simp only [*, runAlone, visitStep, decide_true, Bool.not_false, Bool.and_self, if_true, if_false, settle,
      giveUp, fetchSub_add hmax, refused]
    cases checkedRoomRevision s.room.revision 1 <;> rfl

theorem withdraw_alone {offer : OfferId} (hw : s.inner.metadataCurrent ≤ u64Max)
    (hle : ∀ record, s.room.offers.get? offer = some record → record.metadataBytes ≤ s.inner.metadataCurrent) :
    (runAlone cfg now 3 (enterWithdraw peer offer s)).1 = (withdrawOffer now peer offer s).1 := by
  fun_cases withdrawOffer now peer offer s
  all_goals simp_all [runAlone, enterWithdraw, visitStep, dropOffer, fetchSub_of_le]

theorem drops_alone {incremental : Bool} {owned : List (OfferId × OfferRecord)} {revision : Nat}
    (hin : ∀ e ∈ owned, s.room.offers.get? e.1 = some e.2) (hn : (owned.map Prod.fst).Nodup)
    (hw : s.inner.metadataCurrent ≤ u64Max)
    (hle : (owned.map (fun e => e.2.metadataBytes)).sum ≤ s.inner.metadataCurrent) (n : Nat) :
    runAlone cfg now (2 * owned.length + n) (s, .goes (.dropping peer (owned.map Prod.fst) incremental revision)) =
      runAlone cfg now n ((removeOffers peer incremental owned s revision).1,
        .goes (.dropping peer [] incremental (removeOffers peer incremental owned s revision).2.1)) := by
  induction owned generalizing s revision with
  | nil => simp [removeOffers]
  | cons e owned ih =>
    obtain ⟨hfst, hn⟩ := List.nodup_cons.mp hn
    have hget := hin e List.mem_cons_self
    rw [List.map_cons, List.sum_cons] at hle
    have hrest := @ih (dropOffer s e.1 e.2) (if incremental then revision + 1 else revision)
      (fun e' he' => ?_) hn ((Nat.sub_le ..).trans hw) (Nat.le_sub_of_add_le' hle)
    · rw [List.length_cons, Nat.mul_succ, Nat.add_right_comm, List.map_cons]
      simp only [runAlone, visitStep, hget, fetchSub_of_le (Nat.le_of_add_right_le hle) hw]
      exact hrest
    · rw [dropOffer, Table.get?_erase, if_neg]
      · exact hin e' (List.mem_cons_of_mem _ he')
      · intro he
        exact hfst (he ▸ List.mem_map_of_mem he')

theorem remove_alone (hw : s.inner.metadataCurrent ≤ u64Max)
    (hle : (s.room.offers.values.map OfferRecord.metadataBytes).sum ≤ s.inner.metadataCurrent) :
    ∃ n, (runAlone cfg now n (enterRemove peer s)).1 = (removePeer now peer s).1 := by
  refine ⟨2 * (s.room.offers.entries.filter (fun e => e.2.owner == peer)).length + 1, ?_⟩
  rw [enterRemove, removePeer]
  split
  · rfl
  dsimp only
  generalize hs : Scope.mk s.inner _ = left
  have hoffers : left.room.offers = s.room.offers := by rw [← hs]
  have hinner : left.inner = s.inner := by rw [← hs]
  rw [drops_alone]
  · simp only [runAlone, visitStep, List.length_map]
    split <;> rfl
  · rw [hoffers]
    exact fun e he => (Table.get?_eq_some_iff _ _ _).mpr (List.mem_of_mem_filter he)
  · exact s.room.offers.nodup.sublist (List.filter_sublist.map _)
  · rwa [hinner]
  · rw [hinner]
    refine le_trans ((List.filter_sublist.map _).sum_le_sum (by simp)) (le_of_eq_of_le ?_ hle)
    rw [Table.values, List.map_map]
    rfl

end Alone

end Bore.OfferSections
