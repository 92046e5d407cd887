import Bore.VpnRelay

namespace Bore.VpnRelay

open Runs List VpnRelay.System
open VpnHub (Coordinator HubEvent PendingPeer Tag)

section Keys

variable {s s' : System}

def pendingKey (hubSecret : String) (entry : PendingPeer) : Option Key :=
  entry.joined.map (fun joined => (deriveKeysListener hubSecret joined.2.1).egress)

def eventKey (hubSecret : String) : HubEvent → Option Key
  | .join _ _ nonce _ => some (deriveKeysListener hubSecret nonce).egress
  | .leave _ => none

def eventKeys (hubSecret : String) (events : List HubEvent) : List Key := events.filterMap (eventKey hubSecret)

def pendingKeys (hubSecret : String) (c : Coordinator) : List Key := c.pending.collect (pendingKey hubSecret)

def owedKeys (s : System) : List Key :=
  s.ready.map (fun endpoint => endpoint.keys.egress) ++
    (eventKeys s.hubSecret s.events ++ pendingKeys s.hubSecret s.coordinator)

def allKeys (s : System) : List Key := s.links.map Link.key ++ owedKeys s

structure KeysApart (s : System) : Prop where
  nodup : (allKeys s).Nodup
  issued : ∀ key ∈ allKeys s, key.nonce < s.issued

theorem KeysApart.of_count (h : KeysApart s) (hissued : s'.issued = s.issued)
    (hle : ∀ key, (allKeys s').count key ≤ (allKeys s).count key) : KeysApart s' := by
  refine ⟨nodup_iff_count_le_one.mpr fun key => (hle key).trans (nodup_iff_count_le_one.mp h.nodup key), fun key hkey => ?_⟩
  rw [hissued]
  exact h.issued key (count_pos_iff.mp ((count_pos_iff.mpr hkey).trans_le (hle key)))

theorem KeysApart.issue (h : KeysApart s) (fresh : List Key) (hissued : s'.issued = s.issued + 1) (hfresh : fresh.Nodup)
    (hnonce : ∀ key ∈ fresh, key.nonce = s.issued)
    (hcount : ∀ key, (allKeys s').count key = fresh.count key + (allKeys s).count key) : KeysApart s' := by
  have hperm : (allKeys s').Perm (fresh ++ allKeys s) := by
    refine perm_iff_count.mpr fun key => ?_
    rw [hcount, count_append]
  have hapart : fresh.Disjoint (allKeys s) := fun key hnew hold => (h.issued key hold).ne (hnonce key hnew)
  refine ⟨hperm.nodup_iff.mpr (hfresh.append h.nodup hapart), fun key hkey => ?_⟩
  rw [hissued]
  rcases mem_append.mp (hperm.subset hkey) with hnew | hold
  · exact hnonce key hnew ▸ Nat.lt_succ_self _
  · exact Nat.lt_succ_of_lt (h.issued key hold)

variable {key : Key}

theorem eventKeys_cons (hubSecret : String) (event : HubEvent) (events : List HubEvent) :
    eventKeys hubSecret (event :: events) = (eventKey hubSecret event).toList ++ eventKeys hubSecret events := by
  cases event <;> rfl

theorem eventKeys_concat (hubSecret : String) (events : List HubEvent) (event : HubEvent) :
    eventKeys hubSecret (events ++ [event]) = eventKeys hubSecret events ++ (eventKey hubSecret event).toList := by
  rw [eventKeys, filterMap_append]
  cases event <;> rfl

section Coordinator

variable {c : Coordinator} {hubSecret : String}

theorem count_pending (peerId : UInt32) : (pendingKeys hubSecret c).count key =
    ((c.pending.get? peerId).bind (pendingKey hubSecret)).toList.count key +
      ((c.pending.erase peerId).collect (pendingKey hubSecret)).count key := by
  rw [pendingKeys]
  cases hget : c.pending.get? peerId with
  | none => simp [Table.collect, Table.erase_of_get?_none hget]
  | some => simp [(Table.perm_collect_erase _ hget).count_eq]

theorem count_erase_le (peerId : UInt32) :
    ((c.pending.erase peerId).collect (pendingKey hubSecret)).count key ≤ (pendingKeys hubSecret c).count key :=
  (Nat.le_add_left _ _).trans_eq (count_pending peerId).symm

theorem count_handleLeave (peerId : UInt32) :
    (pendingKeys hubSecret (c.handleLeave peerId)).count key ≤ (pendingKeys hubSecret c).count key := by
  rw [Coordinator.handleLeave]
  split <;> exact count_erase_le peerId

theorem count_setPending (peerId : UInt32) (entry : PendingPeer) : (pendingKeys hubSecret (c.setPending peerId entry)).count key =
    (pendingKey hubSecret entry).toList.count key + ((c.pending.erase peerId).collect (pendingKey hubSecret)).count key := by
  rw [pendingKeys, Coordinator.setPending, (Table.perm_collect_insert _ _ _ _).count_eq, count_append]

theorem count_addSubstream (peerId : UInt32) (tag : Tag) :
    (pendingKeys hubSecret (c.addSubstream peerId tag).1).count key = (pendingKeys hubSecret c).count key := by
  have hsame (entry : PendingPeer) (hjoined : entry.joined = (c.pendingOf peerId).joined) :
      (pendingKeys hubSecret (c.setPending peerId entry)).count key = (pendingKeys hubSecret c).count key := by
    have hkey : pendingKey hubSecret entry = (c.pending.get? peerId).bind (pendingKey hubSecret) := by
      rw [pendingKey, hjoined, Coordinator.pendingOf]
      cases c.pending.get? peerId <;> rfl
    rw [count_setPending, hkey, count_pending peerId]
  fun_cases Coordinator.addSubstream c peerId tag with
  | case1 => rfl
  | case2 | case3 | case4 | case5 => exact hsame _ rfl

/-- The key of a peer that can be built is that of its entry, which goes. -/
theorem count_complete {peerId : UInt32} {nonce : Nat} {overlay : UInt32} (h : c.complete peerId = some (nonce, overlay)) :
    (pendingKeys hubSecret c).count key = [(deriveKeysListener hubSecret nonce).egress].count key +
      ((c.pending.erase peerId).collect (pendingKey hubSecret)).count key := by
  obtain ⟨entry, hget, h⟩ := Option.bind_eq_some_iff.mp h
  obtain ⟨joined, hj, h⟩ := Option.bind_eq_some_iff.mp h
  obtain ⟨-, he⟩ := Option.ite_none_left_eq_some.mp h
  rw [count_pending peerId, hget, Option.bind_some, pendingKey, hj, Option.map_some, Option.some.inj he, Option.toList_some]

end Coordinator

theorem count_tryBuildPeer {c : Coordinator} (peerId : UInt32) (built : Bool) :
    (allKeys (s.tryBuildPeer c peerId built)).count key ≤ (allKeys { s with coordinator := c }).count key := by
  rw [tryBuildPeer, Coordinator.tryBuildPeer]
  cases hc : c.complete peerId with
  | none => exact le_rfl
  | some joined =>
    have h : (pendingKeys s.hubSecret c).count key = _ := count_complete hc
    cases built <;>
      simp only [allKeys, owedKeys, makeRelay, map_append, map_cons, map_nil, count_append, pendingKeys, if_true,
        Bool.false_eq_true, if_false] at h ⊢ <;>
      omega

theorem count_coordinator {c : Coordinator} {n : Nat}
    (h : (pendingKeys s.hubSecret c).count key ≤ n + (pendingKeys s.hubSecret s.coordinator).count key) :
    (allKeys { s with coordinator := c }).count key ≤ n + (allKeys s).count key := by
  simp only [allKeys, owedKeys, count_append]
  omega

theorem count_takeEvent (event : HubEvent) (built : Bool) :
    (allKeys (s.takeEvent event built)).count key ≤ (eventKey s.hubSecret event).toList.count key + (allKeys s).count key := by
  cases event with
  | join peerId overlay nonce carriers =>
    refine (count_tryBuildPeer _ _).trans (count_coordinator ?_)
    exact (count_setPending peerId _).trans_le (Nat.add_le_add_left (count_erase_le peerId) _)
  | leave peerId => exact count_coordinator ((count_handleLeave peerId).trans (Nat.le_add_left _ _))

theorem count_takeSubstream (peerId : UInt32) (tag : Tag) (built : Bool) :
    (allKeys (s.takeSubstream peerId tag built)).count key ≤ (allKeys s).count key := by
  have hadded : (allKeys { s with coordinator := (s.coordinator.addSubstream peerId tag).1 }).count key =
      (allKeys s).count key := by
    simp only [allKeys, owedKeys, count_append, count_addSubstream]
  dsimp only [takeSubstream]
  split
  · exact (count_tryBuildPeer _ _).trans_eq hadded
  · exact hadded.le

/-- A turn of the coordinator makes a link or does not touch the links. -/
def Turned (s s' : System) : Prop :=
  ∃ c, s' = { s with coordinator := c } ∨ ∃ keys, s' = { s.makeRelay keys with coordinator := c }

theorem turned_tryBuildPeer (c : Coordinator) (peerId : UInt32) (built : Bool) : Turned s (s.tryBuildPeer c peerId built) := by
  rw [tryBuildPeer]
  split
  · cases built
    · exact ⟨_, .inl rfl⟩
    · exact ⟨_, .inr ⟨_, rfl⟩⟩
  · exact ⟨_, .inl rfl⟩

theorem turned_takeEvent (event : HubEvent) (built : Bool) : Turned s (s.takeEvent event built) := by
  cases event with
  | join => exact turned_tryBuildPeer _ _ _
  | leave => exact ⟨_, .inl rfl⟩

theorem turned_takeSubstream (peerId : UInt32) (tag : Tag) (built : Bool) : Turned s (s.takeSubstream peerId tag built) := by
  dsimp only [takeSubstream]
  split
  · exact turned_tryBuildPeer _ _ _
  · exact ⟨_, .inl rfl⟩

theorem Turned.issued (h : Turned s s') : s'.issued = s.issued := by
  obtain ⟨c, rfl | ⟨keys, rfl⟩⟩ := h <;> rfl

theorem count_build {k : Nat} {endpoint : Endpoint} (hget : s.ready[k]? = some endpoint) :
    (allKeys { s.makeRelay endpoint.keys with ready := s.ready.eraseIdx k }).count key = (allKeys s).count key := by
  obtain ⟨hk, rfl⟩ := List.getElem?_eq_some_iff.mp hget
  have hready := ((getElem_cons_eraseIdx_perm hk).map (fun endpoint => endpoint.keys.egress)).count_eq key
  simp only [allKeys, owedKeys, makeRelay, map_append, map_cons, map_nil, count_append, count_cons, count_nil] at hready ⊢
  omega

theorem keys_set {links : List Link} {l : Nat} {shared : Link} (hget : links[l]? = some shared) (counter : UInt64) :
    (links.set l { shared with counter := counter }).map Link.key = links.map Link.key := by
  obtain ⟨hl, rfl⟩ := List.getElem?_eq_some_iff.mp hget
  have hsame := set_getElem_self (show l < (links.map Link.key).length by rwa [length_map])
  rw [getElem_map] at hsame
  rw [map_set, hsame]

theorem step_keysApart {a : Action} (h : KeysApart s) (hstep : step s a = some s') : KeysApart s' := by
  revert hstep
  fun_cases step s a
  all_goals rintro ⟨⟩
  case case1 listenerSecret connectorSecret =>
    refine h.issue [⟨listenerSecret, s.issued, .l2c⟩, ⟨connectorSecret, s.issued, .c2l⟩] rfl (by simp) (by simp) fun key => ?_
    simp only [allKeys, owedKeys, map_cons, count_append, count_cons, count_nil, Endpoint.keys, deriveKeysListener,
      deriveKeysConnector]
    omega
  case case2 connectorSecret =>
    refine h.issue [⟨connectorSecret, s.issued, .c2l⟩, ⟨s.hubSecret, s.issued, .l2c⟩] rfl (by simp) (by simp) fun key => ?_
    simp only [allKeys, owedKeys, map_cons, eventKeys_concat, count_append, count_cons, count_nil,
      Endpoint.keys, HubEvent.received, eventKey, Option.toList_some, deriveKeysListener, deriveKeysConnector]
    omega
  case case4 hget => exact h.of_count rfl fun _ => (count_build hget).le
  case case7 hevents =>
    refine h.of_count (turned_takeEvent _ _).issued fun key => (count_takeEvent _ _).trans ?_
    simp only [allKeys, owedKeys, hevents, eventKeys_cons, count_append]
    omega
  case case8 => exact h.of_count (turned_takeSubstream _ _ _).issued fun _ => count_takeSubstream _ _ _
  case case5 =>
    refine h.of_count rfl fun key => Nat.le_of_eq ?_
    simp [allKeys, owedKeys, eventKeys_concat, eventKey]
  case case19 hget =>
    refine h.of_count rfl fun _ => Nat.le_of_eq ?_
    simp only [allKeys, owedKeys, setSender, keys_set hget]
  case case22 =>
    rw [sealPacket]
    split <;> exact h.of_count rfl fun _ => le_rfl
  all_goals exact h.of_count rfl fun _ => le_rfl

end Keys

section Counters

variable {s s' : System}

def drawnUse (keys : List Key) : Sender → Option (Option Key × UInt64)
  | .relay l (some ⟨_, some counter⟩) => some (keys[l]?, counter)
  | _ => none

def uses (s : System) : List (Option Key × UInt64) :=
  s.sealed.map (fun frame => (some frame.key, frame.counter)) ++ s.senders.filterMap (drawnUse (s.links.map Link.key))

/-- Every counter that was drawn is behind its link's, and no two uses of a key
share one. -/
structure DrawnOnce (s : System) : Prop where
  once : (uses s).Nodup
  behind : ∀ u ∈ uses s, ∃ link ∈ s.links, u.1 = some link.key ∧ u.2 < link.counter
  short : ∀ frame ∈ s.sealed, frame.counter < maxCounter

theorem DrawnOnce.quiet (h : DrawnOnce s) (hlinks : ∀ link ∈ s.links, link ∈ s'.links)
    (hcount : ∀ u, (uses s').count u ≤ (uses s).count u) (hshort : ∀ frame ∈ s'.sealed, frame.counter < maxCounter) :
    DrawnOnce s' := by
  refine ⟨nodup_iff_count_le_one.mpr fun u => (hcount u).trans (nodup_iff_count_le_one.mp h.once u), fun u hu => ?_, hshort⟩
  obtain ⟨link, hlink, hbehind⟩ := h.behind u (count_pos_iff.mp ((count_pos_iff.mpr hu).trans_le (hcount u)))
  exact ⟨link, hlinks link hlink, hbehind⟩

section Set

variable {senders : List Sender} {i : Nat} {keys : List Key} (sender : Sender) (u : Option Key × UInt64)

variable (keys) in
theorem count_set {old : Sender} (hi : senders[i]? = some old) :
    ((senders.set i sender).filterMap (drawnUse keys)).count u + (drawnUse keys old).toList.count u =
      (drawnUse keys sender).toList.count u + (senders.filterMap (drawnUse keys)).count u := by
  obtain ⟨hlt, rfl⟩ := List.getElem?_eq_some_iff.mp hi
  have hnew := ((set_perm_cons_eraseIdx hlt sender).filterMap (drawnUse keys)).count_eq u
  have hold := ((getElem_cons_eraseIdx_perm hlt).filterMap (drawnUse keys)).count_eq u
  cases hx : drawnUse keys sender <;> cases hy : drawnUse keys senders[i] <;> simp_all [count_cons] <;> omega

theorem count_set_le (hnew : drawnUse keys sender = none) :
    ((senders.set i sender).filterMap (drawnUse keys)).count u ≤ (senders.filterMap (drawnUse keys)).count u := by
  cases hi : senders[i]? with
  | none => rw [set_eq_of_length_le (getElem?_eq_none_iff.mp hi)]
  | some old =>
    have h := count_set keys sender u hi
    rw [hnew] at h
    exact (Nat.le_add_right _ _).trans_eq (h.trans (Nat.zero_add _))

end Set

theorem DrawnOnce.setSender (h : DrawnOnce s) {i : Nat} {sender : Sender}
    (hnew : drawnUse (s.links.map Link.key) sender = none) : DrawnOnce (s.setSender i sender) := by
  refine h.quiet (fun _ => id) (fun u => ?_) h.short
  rw [uses, uses, count_append, count_append]
  exact Nat.add_le_add_left (count_set_le sender u hnew) _

section Senders

variable {keys : List Key}

theorem drawnUse_clone (sender : Sender) : drawnUse keys sender.clone = none := by
  cases sender <;> rfl

theorem drawnUse_rest (link : Nat) (packets : List Packet) : drawnUse keys (.relay link (restOf packets)) = none := by
  cases packets <;> rfl

theorem drawnUse_drawn {links : List Link} {l : Nat} {shared : Link} (hl : links[l]? = some shared) (packets : List Packet)
    (counter : UInt64) :
    drawnUse (links.map Link.key) (.relay l (some ⟨packets, some counter⟩)) = some (some shared.key, counter) := by
  rw [drawnUse, getElem?_map, hl, Option.map_some]

end Senders

theorem fetch_drawnOnce (h : DrawnOnce s) (hkeys : (s.links.map Link.key).Nodup) {i l : Nat} {packets : List Packet}
    {shared : Link} (hi : s.senders[i]? = some (.relay l (some ⟨packets, none⟩))) (hl : s.links[l]? = some shared)
    (hlow : shared.counter ≠ 0xFFFFFFFFFFFFFFFF) :
    DrawnOnce { s.setSender i (.relay l (some ⟨packets, some shared.counter⟩)) with
      links := s.links.set l { shared with counter := shared.counter + 1 } } := by
  have hlt : shared.counter < shared.counter + 1 := by
    have hne : shared.counter.toNat ≠ 2 ^ 64 - 1 := fun heq => hlow (UInt64.toNat_inj.mp heq)
    have hlt64 := shared.counter.toNat_lt
    rw [UInt64.lt_iff_toNat_lt, UInt64.toNat_add, show (1 : UInt64).toNat = 1 from rfl]
    omega
  have hlink := mem_of_getElem? hl
  have hself := mem_set (List.getElem?_eq_some_iff.mp hl).1 { shared with counter := shared.counter + 1 }
  have hunused : (some shared.key, shared.counter) ∉ uses s := by
    intro hmem
    obtain ⟨link, hlink', hkey, hbehind⟩ := h.behind _ hmem
    rw [inj_on_of_nodup_map hkeys hlink' hlink (Option.some.inj hkey).symm] at hbehind
    exact UInt64.lt_irrefl _ hbehind
  have hperm : (uses { s.setSender i (.relay l (some ⟨packets, some shared.counter⟩)) with
      links := s.links.set l { shared with counter := shared.counter + 1 } }).Perm
      ((some shared.key, shared.counter) :: uses s) := by
    refine perm_iff_count.mpr fun u => ?_
    have hset := count_set (s.links.map Link.key) (.relay l (some ⟨packets, some shared.counter⟩)) u hi
    rw [drawnUse_drawn hl, show drawnUse _ (.relay l (some ⟨packets, none⟩)) = none from rfl] at hset
    rw [← singleton_append, count_append, uses, uses, count_append, count_append, keys_set hl]
    exact (congrArg _ hset).trans (Nat.add_left_comm _ _ _)
  refine ⟨hperm.nodup_iff.mpr (nodup_cons.mpr ⟨hunused, h.once⟩), fun u hu => ?_, h.short⟩
  rcases mem_cons.mp (hperm.subset hu) with rfl | hu
  · exact ⟨_, hself, rfl, hlt⟩
  · obtain ⟨link, hmem, hkey, hbehind⟩ := h.behind u hu
    by_cases hsame : link = shared
    · subst hsame
      exact ⟨_, hself, hkey, UInt64.lt_trans hbehind hlt⟩
    · obtain ⟨m, hm⟩ := getElem?_of_mem hmem
      refine ⟨link, mem_of_getElem? (i := m) ?_, hkey, hbehind⟩
      rwa [getElem?_set_ne]
      rintro rfl
      exact hsame (Option.some.inj (hm.symm.trans hl))

theorem sealPacket_drawnOnce (h : DrawnOnce s) {i l : Nat} {packet : Packet} {rest : List Packet} {counter : UInt64}
    {shared : Link} (hi : s.senders[i]? = some (.relay l (some ⟨packet :: rest, some counter⟩)))
    (hl : s.links[l]? = some shared) (accepted : Bool) :
    DrawnOnce (s.sealPacket i l shared.key counter packet rest accepted) := by
  rw [sealPacket, sealWithCounter]
  split
  · exact h.setSender rfl
  rename_i frame hseal
  split at hseal
  · cases hseal
  rename_i hshort
  cases hseal
  have hempty : drawnUse (s.links.map Link.key) (.relay l (if accepted then restOf rest else none)) = none := by
    cases accepted
    · rfl
    · exact drawnUse_rest l rest
  refine h.quiet (fun _ => id) (fun u => ?_) (forall_mem_cons.mpr ⟨UInt64.not_le.mp hshort, h.short⟩)
  have hset := count_set (s.links.map Link.key) (.relay l (if accepted then restOf rest else none)) u hi
  rw [hempty, drawnUse_drawn hl] at hset
  simp only [Option.toList_some, Option.toList_none, count_nil, count_singleton] at hset
  simp only [uses, setSender, map_cons, count_append, count_cons]
  omega

theorem DrawnOnce.makeRelay (h : DrawnOnce s) {keys : DirectionKeys} (hlinks : s'.links = (s.makeRelay keys).links)
    (hsenders : s'.senders = (s.makeRelay keys).senders) (hsealed : s'.sealed = s.sealed) : DrawnOnce s' := by
  refine h.quiet (fun link hlink => hlinks ▸ mem_append_left _ hlink) (fun u => Nat.le_of_eq ?_) (hsealed ▸ h.short)
  -- a sender that holds a counter has its link among the old ones
  have hold (sender) (hmem : sender ∈ s.senders) : drawnUse ((s.links ++ [(⟨keys.egress, 0⟩ : Link)]).map Link.key) sender =
      drawnUse (s.links.map Link.key) sender := by
    fun_cases drawnUse (s.links.map Link.key) sender
    case case2 hno => fun_cases drawnUse <;> simp_all
    case case1 l packets counter =>
      obtain ⟨link, -, hkey, -⟩ := h.behind ((s.links.map Link.key)[l]?, counter)
        (mem_append_right _ (mem_filterMap.mpr ⟨_, hmem, rfl⟩))
      rw [drawnUse, map_append, getElem?_append_left (List.getElem?_eq_some_iff.mp hkey).1]
  rw [uses, uses, hlinks, hsenders, hsealed, System.makeRelay, filterMap_append, filterMap_congr hold]
  simp [filterMap_cons, drawnUse]

theorem Turned.drawnOnce (ht : Turned s s') (h : DrawnOnce s) : DrawnOnce s' := by
  obtain ⟨c, rfl | ⟨keys, rfl⟩⟩ := ht
  · exact { h with }
  · exact h.makeRelay rfl rfl rfl

theorem step_drawnOnce {a : Action} (h : DrawnOnce s) (hapart : KeysApart s) (hlow : staysBelow s a = true)
    (hstep : step s a = some s') : DrawnOnce s' := by
  revert hstep
  fun_cases step s a
  all_goals rintro ⟨⟩
  case case1 | case2 | case5 => exact { h with }
  case case4 => exact h.makeRelay rfl rfl rfl
  case case7 => exact (turned_takeEvent _ _).drawnOnce { h with }
  case case8 => exact (turned_takeSubstream _ _ _).drawnOnce h
  case case10 =>
    refine h.quiet (fun _ => id) (fun u => Nat.le_of_eq ?_) h.short
    simp [uses, drawnUse_clone]
  case case11 | case15 => exact h.setSender rfl
  case case13 => exact h.setSender (drawnUse_clone _)
  case case16 => exact h.setSender (drawnUse_rest _ _)
  case case19 hi _ hl =>
    simp only [staysBelow, hi, hl, Option.all_some, bne_iff_ne] at hlow
    exact fetch_drawnOnce h (hapart.nodup.sublist (sublist_append_left _ _)) hi hl hlow
  case case22 hi _ hl => exact sealPacket_drawnOnce h hi hl _

theorem reaches_drawnOnce {hubSecret : String} (h : Reaches step (fun s a => staysBelow s a = true) (start hubSecret) s) :
    DrawnOnce s := by
  have hboth : KeysApart s ∧ DrawnOnce s := by
    refine h.invariant (P := fun s => KeysApart s ∧ DrawnOnce s)
      ⟨⟨nodup_nil, nofun⟩, nodup_nil, nofun, nofun⟩ ?_
    rintro t a u ⟨hapart, honce⟩ hlow hstep
    exact ⟨step_keysApart hapart hstep, step_drawnOnce honce hapart hlow hstep⟩
  exact hboth.2

end Counters

theorem nonceFromCounter_injective : Function.Injective nonceFromCounter := by
  intro c d h
  simp only [nonceFromCounter, cons.injEq, true_and, and_true, ← UInt8.toNat_inj, UInt64.toNat_toUInt8,
    UInt64.toNat_shiftRight] at h
  have hc := c.toNat_lt
  have hd := d.toNat_lt
  simp only [Nat.shiftRight_eq_div_pow, UInt64.reduceToNat, Nat.reduceMod, Nat.reducePow] at h
  rw [← UInt64.toNat_inj]
  omega

/-- As long as no counter wraps, no key is used twice with one nonce by any sender
of any endpoint, and a counter at the end of its range seals nothing. -/
theorem relay_nonces_are_fresh (hubSecret : String) (s : System)
    (h : Reaches step (fun s a => staysBelow s a = true) (start hubSecret) s) :
    (s.sealed.map (fun frame => (frame.key, nonceFromCounter frame.counter))).Nodup ∧
      ∀ frame ∈ s.sealed, frame.counter < maxCounter := by
  have honce := reaches_drawnOnce h
  refine ⟨?_, honce.short⟩
  have hinj : Function.Injective (fun u : Option Key × UInt64 => (u.1, nonceFromCounter u.2)) :=
    Function.injective_id.prodMap nonceFromCounter_injective
  have hmap := honce.once.of_append_left.map hinj
  refine List.Nodup.of_map (fun x => (some x.1, x.2)) ?_
  rw [map_map] at hmap ⊢
  exact hmap

def sampleRun : List Action :=
  [.pair "k" "k", .build 0, .build 0, .clone 0, .send 0 [[1], [2]], .fetch 0, .encrypt 0 true, .fetch 0, .encrypt 0 true,
    .upgrade 0, .fallBack 0 2, .send 0 [[3]], .fetch 0, .encrypt 0 true, .send 1 [[4]], .fetch 1, .encrypt 1 true]

theorem relay_nonces_are_fresh_fallback : ∃ s, Reaches step (fun s a => staysBelow s a = true) (start "h") s ∧
      s.sealed = [⟨⟨"k", 0, .c2l⟩, 0, [4]⟩, ⟨⟨"k", 0, .l2c⟩, 2, [3]⟩, ⟨⟨"k", 0, .l2c⟩, 1, [2]⟩, ⟨⟨"k", 0, .l2c⟩, 0, [1]⟩] ∧
      (s.sealed.map (fun frame => (frame.key, nonceFromCounter frame.counter))).Nodup :=
  execWhile_shows sampleRun sealed (by decide +kernel) fun s hr _ => (relay_nonces_are_fresh "h" s hr).1

section Wrap

def idle (counter : UInt64) (sealed : List Frame) : System :=
  { start "h" with
    issued := 1
    ready := [⟨.connector, "k", 0⟩]
    links := [⟨⟨"k", 0, .l2c⟩, counter⟩]
    senders := [.relay 0 none]
    sealed := sealed }

theorem idle_send (counter : UInt64) (log : List Frame) : Reaches step always (idle counter log) (idle (counter + 1)
      (if maxCounter ≤ counter then log else ⟨⟨"k", 0, .l2c⟩, counter, []⟩ :: log)) := by
  refine exec_reaches [.send 0 [[]], .fetch 0, .encrypt 0 true] ?_
  by_cases hmax : maxCounter ≤ counter
  · simp [exec, execWhile, step, idle, start, setSender, restOf, sealPacket, sealWithCounter, hmax]
  · simp [exec, execWhile, step, idle, start, setSender, restOf, sealPacket, sealWithCounter, hmax]

theorem idle_sends (n : Nat) : ∃ log, Reaches step always (start "h") (idle (UInt64.ofNat n) log) ∧
    (0 < n → (⟨⟨"k", 0, .l2c⟩, 0, []⟩ : Frame) ∈ log) := by
  induction n with
  | zero => exact ⟨[], exec_reaches [.pair "k" "k", .build 0] rfl, fun h => absurd h (Nat.lt_irrefl 0)⟩
  | succ n ih =>
    obtain ⟨log, hr, hlog⟩ := ih
    have hnext := idle_send (UInt64.ofNat n) log
    rw [show UInt64.ofNat n + 1 = UInt64.ofNat (n + 1) from (UInt64.ofNat_add n 1).symm] at hnext
    refine ⟨_, hr.trans hnext, fun _ => ?_⟩
    cases n with
    | zero => exact mem_cons_self
    | succ n =>
      split
      · exact hlog (Nat.succ_pos n)
      · exact mem_cons_of_mem _ (hlog (Nat.succ_pos n))

/-- Two packets fail when the counter is used up, and the next one is sealed with
the first counter again. -/
theorem exhausted_counter_wraps : ∃ s, Reaches step always (start "h") s ∧
    ¬(s.sealed.map (fun frame => (frame.key, nonceFromCounter frame.counter))).Nodup := by
  obtain ⟨log, hr, hlog⟩ := idle_sends (2 ^ 64)
  have hzero : UInt64.ofNat (2 ^ 64) = 0 := by decide
  refine ⟨_, hr.trans (idle_send 0 log), ?_⟩
  intro hnodup
  have hmem := mem_map_of_mem (f := fun frame => (frame.key, nonceFromCounter frame.counter)) (hlog (by decide))
  exact (nodup_cons.mp hnodup).1 hmem

end Wrap

end Bore.VpnRelay
