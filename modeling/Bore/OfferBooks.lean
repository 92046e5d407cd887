import Bore.OfferSections

namespace Bore.OfferBooks

open RegistryTypes RegistryOps RegistryCatalogue OfferSections List

def charged (room : Room) : Nat := (room.offers.values.map OfferRecord.metadataBytes).sum

def owned (room : Room) (peer : PeerId) : Nat := (room.offers.values.filter (fun o => o.owner == peer)).length

def dueBytes : Option Point → Nat
  | some (.releasing _ _ record _) => record.metadataBytes
  | _ => 0

def dueOffers : Option Point → Nat
  | some (.counting _ _ _ _) => 1
  | _ => 0

def heldBytes : Option Point → Nat
  | some (.reserved p) => p.charge
  | _ => 0

def leaving : Option Point → List OfferId
  | some (.dropping _ owned _ _) => owned
  | some (.counting _ owned _ _) => owned
  | _ => []

def publication : Option Point → Option Publication
  | some (.loading p) => some p
  | some (.swapping p _) => some p
  | some (.reserved p) => some p
  | _ => none

def Within (cfg : Config) (bytes : Nat) : Prop := bytes ≤ cfg.limits.maxMetadataTotalBytes ∧ bytes ≤ u64Max

def outcomePoint : Outcome → Option Point
  | .goes point => some point
  | .returns _ => none

def unpublished : Outcome → Bool
  | .goes point => (publication (some point)).isSome
  | .returns (.published (.error _)) => true
  | _ => false

structure Fits (cfg : Config) (room : Room) (point : Option Point) : Prop where
  bytes : room.metadataBytes = charged room + dueBytes point
  cap : room.metadataBytes ≤ cfg.limits.maxMetadataPerRoomBytes
  quota : ∀ peer, owned room peer ≤ cfg.limits.maxOffersPerPeer
  weight : ∀ id record, room.offers.get? id = some record → 64 ≤ record.metadataBytes
  owners : ∀ id record, room.offers.get? id = some record →
    room.peers.contains record.owner = true ∨ id ∈ leaving point
  publishes : ∀ p, publication point = some p →
    room.offers.get? p.offer = none ∧ room.peers.contains p.peer = true ∧ 64 ≤ p.charge
  swaps : ∀ p current, point = some (.swapping p current) → Within cfg (current + p.charge)
  takes : ∀ peer offer record revision, point = some (.taking peer offer record revision) →
    room.offers.get? offer = some record

structure Balanced (cfg : Config) (s : Scope) (point : Option Point) (r : Scope × Outcome) : Prop extends
    Fits cfg r.1.room (outcomePoint r.2) where
  metadata : r.1.inner.metadataCurrent + (s.room.metadataBytes + heldBytes point) =
    s.inner.metadataCurrent + (r.1.room.metadataBytes + heldBytes (outcomePoint r.2))
  within : Within cfg r.1.inner.metadataCurrent
  count : r.1.inner.offersCurrent + UInt64.ofNat (s.room.offers.values.length + dueOffers point) =
    s.inner.offersCurrent + UInt64.ofNat (r.1.room.offers.values.length + dueOffers (outcomePoint r.2))
  quiet : unpublished r.2 = true → (publication point).isSome = point.isSome ∧ r.1.room = s.room ∧
    r.1.inner.offersCurrent = s.inner.offersCurrent

section Offers

variable {offers : Table OfferId OfferRecord} {offer : OfferId} {record : OfferRecord}

theorem sum_insert (f : OfferRecord → Nat) (h : offers.get? offer = none) :
    ((offers.insert offer record).values.map f).sum = f record + (offers.values.map f).sum := by
  rw [((Table.perm_values_insert h record).map f).sum_nat, map_cons, sum_cons]

def ownedIn (offers : Table OfferId OfferRecord) (peer : PeerId) : Nat :=
  (offers.values.filter (fun o => o.owner == peer)).length

theorem length_filter_owner (offers : Table OfferId OfferRecord) (peer : PeerId) :
    (offers.values.filter (fun o => o.owner == peer)).length = ownedIn offers peer := rfl

theorem ownedIn_erase (h : offers.get? offer = some record) (peer : PeerId) :
    ownedIn (offers.erase offer) peer ≤ ownedIn offers peer := by
  rw [ownedIn, ownedIn, ((Table.perm_values_erase h).filter _).length_eq, filter_cons]
  split <;> simp

theorem ownedIn_insert (h : offers.get? offer = none) (peer : PeerId) :
    ownedIn (offers.insert offer record) peer = ownedIn offers peer + if record.owner = peer then 1 else 0 := by
  rw [ownedIn, ownedIn, ((Table.perm_values_insert h record).filter _).length_eq, filter_cons]
  by_cases hp : record.owner = peer <;> simp [hp]

theorem length_erase (h : offers.get? offer = some record) :
    offers.values.length = (offers.erase offer).values.length + 1 :=
  (Table.perm_values_erase h).length_eq

theorem length_insert (h : offers.get? offer = none) :
    (offers.insert offer record).values.length = offers.values.length + 1 :=
  (Table.perm_values_insert h record).length_eq

end Offers

structure SameBooks (s s' : Scope) : Prop where
  offers : s'.room.offers = s.room.offers
  peers : ∀ peer, s.room.peers.contains peer = true → s'.room.peers.contains peer = true
  bytes : s'.room.metadataBytes = s.room.metadataBytes
  metadata : s'.inner.metadataCurrent = s.inner.metadataCurrent
  count : s'.inner.offersCurrent = s.inner.offersCurrent

theorem SameBooks.refl (s : Scope) : SameBooks s s := ⟨rfl, fun _ h => h, rfl, rfl, rfl⟩

theorem terminateLocked_sameBooks (now : Instant) (id : TransferId) (terminal : TransferState) (s : Scope) :
    SameBooks s (terminateLocked now id terminal s).1 := by
  rw [terminateLocked]
  split
  · exact .refl s
  · split
    · refine ⟨rfl, fun _ h => h, rfl, ?_, ?_⟩ <;> cases terminal <;> rfl
    · exact .refl s

theorem cancelWhereLocked_sameBooks (now : Instant) (peer : PeerId) (matched : TransferRecord → Bool) (s : Scope) :
    SameBooks s (cancelWhereLocked now peer matched s).1 := by
  refine foldlRecOn (motive := fun acc : Scope × Outbox => SameBooks s acc.1) _ _ (.refl s)
    fun acc hacc id _ => ?_
  have ht := terminateLocked_sameBooks now id .cancelled acc.1
  have hs : SameBooks s (terminateLocked now id .cancelled acc.1).1 :=
    ⟨ht.offers.trans hacc.offers, fun peer hp => ht.peers peer (hacc.peers peer hp), ht.bytes.trans hacc.bytes,
      ht.metadata.trans hacc.metadata, ht.count.trans hacc.count⟩
  rw [cancelOne]
  dsimp only
  repeat' split
  all_goals exact hs

section Sections

variable {cfg : Config} {s : Scope} {inner : RegistryInner} {p : Publication}

theorem checkReserve_ok {current bytes next : Nat}
    (h : checkReserve cfg inner current bytes = .ok next) : Within cfg (current + bytes) := by
  revert h
  fun_cases checkReserve cfg inner current bytes
  all_goals rintro ⟨⟩
  exact ⟨Nat.le_of_not_lt ‹_›, Nat.le_of_not_lt ‹_›⟩

theorem checkReserve_error {inner' : RegistryInner} {current bytes : Nat} {e : WebTransferError}
    (h : checkReserve cfg inner current bytes = .error (inner', e)) :
    inner'.metadataCurrent = inner.metadataCurrent ∧ inner'.offersCurrent = inner.offersCurrent := by
  revert h
  fun_cases checkReserve cfg inner current bytes
  all_goals rintro ⟨⟩
  all_goals exact ⟨rfl, rfl⟩

theorem ofNat_succ_sub (n : UInt64) (k : Nat) : n - 1 + UInt64.ofNat (k + 1) = n + UInt64.ofNat k := by
  rw [UInt64.ofNat_add]
  grind

theorem seen_balanced {point : Option Point} (hf : Fits cfg s.room point) (hw : Within cfg s.inner.metadataCurrent)
    (hp : point = some (.loading p) ∨ ∃ current, point = some (.swapping p current)) :
    Balanced cfg s point (seen cfg p s) := by
  cases hf
  fun_cases seen cfg p s
  all_goals refine ⟨⟨?_, ?_, ?_, ?_, ?_, ?_, ?_, ?_⟩, ?_, ?_, ?_, ?_⟩
  all_goals rcases hp with rfl | ⟨_, rfl⟩
  all_goals simp only [outcomePoint, dueBytes, dueOffers, heldBytes, leaving, publication, unpublished] at *
  all_goals grind [→ checkReserve_ok, → checkReserve_error]

theorem settle_balanced (hf : Fits cfg s.room (some (.reserved p))) (hw : Within cfg s.inner.metadataCurrent)
    (hle : s.room.metadataBytes + p.charge ≤ s.inner.metadataCurrent) :
    Balanced cfg s (some (.reserved p)) (settle cfg p s) := by
  have hback : fetchSub s.inner.metadataCurrent p.charge = s.inner.metadataCurrent - p.charge :=
    fetchSub_of_le (by omega) hw.2
  cases hf
  fun_cases settle cfg p s
  all_goals refine ⟨⟨?_, ?_, ?_, ?_, ?_, ?_, ?_, ?_⟩, ?_, ?_, ?_, ?_⟩
  all_goals simp only [giveUp, refused, Within, outcomePoint, dueBytes, dueOffers, heldBytes, leaving, publication,
    unpublished, charged, owned, length_filter_owner, Table.get?_insert] at *
  all_goals grind [sum_insert, ownedIn_insert, length_insert, UInt64.ofNat_add]

theorem SameBooks.balanced {point : Option Point} {r : Scope × Outcome} (h : SameBooks s r.1)
    (hf : Fits cfg s.room point) (hw : Within cfg s.inner.metadataCurrent)
    (hend : outcomePoint r.2 = none ∧ unpublished r.2 = false)
    (hdue : dueBytes point = 0 ∧ dueOffers point = 0 ∧ heldBytes point = 0 ∧ leaving point = []) :
    Balanced cfg s point r := by
  cases hf
  obtain ⟨ho, hp, hb, hm, hc⟩ := h
  refine ⟨⟨?_, ?_, ?_, ?_, ?_, ?_, ?_, ?_⟩, ?_, ?_, ?_, ?_⟩
  all_goals simp only [hend, charged, owned, length_filter_owner, dueBytes, dueOffers, heldBytes, leaving, publication] at *
  all_goals grind

theorem visitStep_balanced {point : Point} (now : Instant) (spurious : Bool) (hf : Fits cfg s.room (some point))
    (hw : Within cfg s.inner.metadataCurrent)
    (hle : s.room.metadataBytes + heldBytes (some point) ≤ s.inner.metadataCurrent) :
    Balanced cfg s (some point) (visitStep cfg now spurious point s) := by
  have hback (n : Nat) (hc : n ≤ s.inner.metadataCurrent) := fetchSub_of_le hc hw.2
  fun_cases visitStep cfg now spurious point s
  case case1 => exact seen_balanced hf hw (.inl rfl)
  case case3 => exact seen_balanced hf hw (.inr ⟨_, rfl⟩)
  case case4 => exact settle_balanced hf hw hle
  case case7 | case11 | case12 =>
    exact SameBooks.balanced { cancelWhereLocked_sameBooks now _ _ s with } hf hw ⟨rfl, rfl⟩ ⟨rfl, rfl, rfl, rfl⟩
  case' case2 hsame => have hfits := hf.swaps _ _ rfl
  case' case5 peer offer record revision =>
    have htaken := hf.takes peer offer record revision rfl
    have hsum := Table.sum_values_erase OfferRecord.metadataBytes htaken
    have hcount := ofNat_succ_sub s.inner.offersCurrent (s.room.offers.erase offer).values.length
    have hlength := length_erase htaken
    have howned := ownedIn_erase htaken
  case' case6 peer offer record revision => have hreturned := hback record.metadataBytes
  case' case9 offer _ _ _ record hfound =>
    have hreturned := hback record.metadataBytes
    have hsum := Table.sum_values_erase OfferRecord.metadataBytes hfound
    have hlength := length_erase hfound
    have howned := ownedIn_erase hfound
  case' case10 => have hcount := ofNat_succ_sub s.inner.offersCurrent s.room.offers.values.length
  all_goals obtain ⟨hbytes, hcap, hquota, hweight, howners, hpublishes, hswaps, htakes⟩ := hf
  all_goals refine ⟨⟨?_, ?_, ?_, ?_, ?_, ?_, ?_, ?_⟩, ?_, ?_, ?_, ?_⟩
  all_goals simp only [Within, outcomePoint, dueBytes, dueOffers, heldBytes, leaving, publication, unpublished,
    charged, owned, length_filter_owner, Table.get?_erase] at *
  all_goals grind

theorem joinPeer_sameBooks (cfg : Config) (peer : PeerId) (displayName : Option String) (s : Scope) :
    SameBooks s (joinPeer cfg peer displayName s).1 := by
  have hlocked (name : Option String) : SameBooks s (joinLocked cfg peer name s).1 := by
    fun_cases joinLocked cfg peer name s
    all_goals constructor
    all_goals grind [refused, Table.contains, Table.get?_insert]
  fun_cases joinPeer cfg peer displayName s
  all_goals first | exact hlocked _ | exact ⟨rfl, fun _ h => h, rfl, rfl, rfl⟩

section Entries

variable (hf : Fits cfg s.room none) (hw : Within cfg s.inner.metadataCurrent)
include hf hw

theorem enterPublish_balanced (hcharge : 64 ≤ p.charge) : Balanced cfg s none (enterPublish p s) := by
  cases hf
  fun_cases enterPublish p s
  all_goals refine ⟨⟨?_, ?_, ?_, ?_, ?_, ?_, ?_, ?_⟩, ?_, ?_, ?_, ?_⟩
  all_goals simp only [outcomePoint, dueBytes, dueOffers, heldBytes, leaving, publication, unpublished] at *
  all_goals grind

theorem enterWithdraw_balanced (peer : PeerId) (offer : OfferId) : Balanced cfg s none (enterWithdraw peer offer s) := by
  cases hf
  fun_cases enterWithdraw peer offer s
  all_goals refine ⟨⟨?_, ?_, ?_, ?_, ?_, ?_, ?_, ?_⟩, ?_, ?_, ?_, ?_⟩
  all_goals simp only [outcomePoint, dueBytes, dueOffers, heldBytes, leaving, publication, unpublished] at *
  all_goals grind

theorem enterRemove_balanced (peer : PeerId) : Balanced cfg s none (enterRemove peer s) := by
  have howned (id : OfferId) (record : OfferRecord) (hid : s.room.offers.get? id = some record) :
      record.owner = peer → id ∈ (s.room.offers.entries.filter (fun e => e.2.owner == peer)).map Prod.fst := by
    intro ho
    refine mem_map.mpr ⟨(id, record), mem_filter.mpr ⟨?_, by simpa using ho⟩, rfl⟩
    exact (Table.get?_eq_some_iff _ _ _).mp hid
  cases hf
  fun_cases enterRemove peer s
  all_goals refine ⟨⟨?_, ?_, ?_, ?_, ?_, ?_, ?_, ?_⟩, ?_, ?_, ?_, ?_⟩
  all_goals simp only [outcomePoint, dueBytes, dueOffers, heldBytes, leaving, publication, unpublished, Table.contains,
    Table.get?_erase, charged, owned, length_filter_owner] at *
  all_goals grind

theorem enterJoin_balanced (peer : PeerId) (displayName : Option String) :
    Balanced cfg s none (enterJoin cfg peer displayName s) :=
  (joinPeer_sameBooks cfg peer displayName s).balanced hf hw ⟨rfl, rfl⟩ ⟨rfl, rfl, rfl, rfl⟩

end Entries

end Sections

end Bore.OfferBooks
