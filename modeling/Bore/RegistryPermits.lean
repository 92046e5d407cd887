import Bore.RegistryMoves

namespace Bore.RegistryPermits

open RegistryTypes RegistryOps RegistryRelay RegistryMoves List

def held (room : Room) : List Permit := room.transfers.collect TransferRecord.permit

def pool (s : Scope) : List Permit := s.inner.relayPermits ++ held s.room

/-- The record a ticket is for waits for the relay on the ticket's attempt and
has its slot. -/
def Granted (s : Scope) (t : RelayTicketRecord) : Prop :=
  ∃ r, s.record? t.transferId = some r ∧ r.attemptId = some t.attemptId ∧ r.state = .waitingRelay ∧
    r.permit.isSome = true

def Purges (s s' : Scope) : Prop :=
  ∀ id r r', s.record? id = some r → r.state.isLive = true → s'.record? id = some r' → r'.state.isLive = false →
    ∀ hash t, s'.inner.tickets.get? hash = some t → t.transferId ≠ id

/-- What one critical section does. It moves slots, with those its caller brings,
and may lose one, but makes none and copies none. It stores no ticket but those
of the pair it drew, for an attempt it grants a slot. -/
structure Section (cfg : Config) (extra : List Permit) (pair : Option TicketPair)
    (allowed : TransferId → TransferRecord → Act → Prop) (drawn : TransferId → AttemptId → Prop) (s s' : Scope) :
    Prop where
  evolves : Evolves allowed drawn s.room s'.room
  slots : (pool s').Subperm (extra ++ pool s)
  tickets : ∀ hash t, s'.inner.tickets.get? hash = some t → s.inner.tickets.get? hash = some t ∨
    Granted s' t ∧ ∃ p, pair = some p ∧ (hash = cfg.ticketHash p.first ∨ hash = cfg.ticketHash p.second)
  waiters : s'.inner.relayWaiters = s.inner.relayWaiters
  purges : Purges s s'

section Slots

variable {s s' : Scope} {id : TransferId} {f : TransferRecord → TransferRecord}

theorem subperm_pool_of_eq (hf : s'.inner.relayPermits = s.inner.relayPermits) (ht : held s'.room = held s.room) :
    (pool s').Subperm (pool s) := by
  rw [pool, pool, hf, ht]

theorem held_updateRecord (h : ∀ r, (f r).attempt = r.attempt) : held (s.updateRecord id f).room = held s.room := by
  simp only [held, Table.collect, Scope.updateRecord, Table.modify, filterMap_map]
  refine filterMap_congr (fun e _ => ?_)
  by_cases he : e.1 = id <;> simp [he, TransferRecord.permit, h]

theorem subperm_modify {r : TransferRecord} (extra : List Permit) (hr : s.record? id = some r)
    (hs : s'.room.transfers = (s.updateRecord id f).room.transfers)
    (hp : (s'.inner.relayPermits ++ (f r).permit.toList).Subperm
      (extra ++ (s.inner.relayPermits ++ r.permit.toList))) : (pool s').Subperm (extra ++ pool s) := by
  have hnew : (held s'.room).Perm ((f r).permit.toList ++ (s.room.transfers.erase id).collect TransferRecord.permit) := by
    rw [held, hs]
    exact Table.perm_collect_modify _ f hr
  have hold : (held s.room).Perm (r.permit.toList ++ (s.room.transfers.erase id).collect TransferRecord.permit) :=
    Table.perm_collect_erase _ hr
  have h₁ : (pool s').Perm ((s'.inner.relayPermits ++ (f r).permit.toList) ++
      (s.room.transfers.erase id).collect TransferRecord.permit) := by
    rw [append_assoc]
    exact hnew.append_left _
  have h₂ : (extra ++ pool s).Perm ((extra ++ (s.inner.relayPermits ++ r.permit.toList)) ++
      (s.room.transfers.erase id).collect TransferRecord.permit) := by
    rw [append_assoc, append_assoc]
    exact (hold.append_left _).append_left _
  exact h₁.subperm.trans (((subperm_append_right _).mpr hp).trans h₂.symm.subperm)

theorem pool_gc (now : Instant) (hf : s'.inner.relayPermits = s.inner.relayPermits)
    (hs : s'.room = gcTerminalsLocked now s.room) : (pool s').Subperm (pool s) := by
  rw [pool, pool, hf, hs]
  exact ((Table.collect_retain_sublist _ _ _).append_left _).subperm

end Slots

section Purges

variable {s s' : Scope}

theorem purges_of_evolves {allowed drawn} (h : Evolves allowed drawn s.room s'.room)
    (ha : ∀ id r act, allowed id r act → act ≠ .finish) : Purges s s' := by
  intro id r r' hr hl hr' hd
  have hc : Change (allowed id) (drawn id) (s.record? id) (s'.record? id) := h id
  rw [hr, hr'] at hc
  cases hc with
  | same =>
    rw [hl] at hd
    cases hd
  | moved hallowed hm =>
    rw [isLive_move hm (ha id r _ hallowed) hl] at hd
    cases hd

theorem purges_of_transfers_eq (h : s'.room.transfers = s.room.transfers) : Purges s s' := by
  have he : Evolves (fun _ _ _ => False) noDraw s.room s'.room := evolves_of_transfers_eq h
  exact purges_of_evolves he fun _ _ _ hf => hf.elim

theorem Purges.trans {u : Scope} (h : Purges s s') (k : Purges s' u)
    (hnone : ∀ id, s'.record? id = none → u.record? id = none)
    (ht : ∀ hash t, u.inner.tickets.get? hash = some t → s'.inner.tickets.get? hash = some t) : Purges s u := by
  intro id r r'' hr hl hr'' hd hash t hget
  cases hr' : s'.record? id with
  | none =>
    rw [hnone id hr'] at hr''
    cases hr''
  | some r' =>
    cases hl' : r'.state.isLive with
    | true => exact k id r' r'' hr' hl' hr'' hd hash t hget
    | false => exact h id r r' hr hl hr' hl' hash t (ht hash t hget)

end Purges

section Sections

variable {cfg : Config} {extra : List Permit} {pair : Option TicketPair}
  {allowed : TransferId → TransferRecord → Act → Prop} {drawn : TransferId → AttemptId → Prop} {s s' : Scope}
  {id : TransferId} {r : TransferRecord} {f : TransferRecord → TransferRecord} {act : Act}

theorem Section.of_fst {α : Type} {p : Scope × α} {x : α} (he : p = (s', x))
    (h : Section cfg extra pair allowed drawn s p.1) : Section cfg extra pair allowed drawn s s' := by
  rwa [he] at h

theorem section_of_evolves (he : Evolves (fun j r act => allowed j r act ∧ act ≠ .finish) drawn s.room s'.room)
    (hp : (pool s').Subperm (extra ++ pool s))
    (ht : ∀ hash t, s'.inner.tickets.get? hash = some t → s.inner.tickets.get? hash = some t ∨
      Granted s' t ∧ ∃ p, pair = some p ∧ (hash = cfg.ticketHash p.first ∨ hash = cfg.ticketHash p.second))
    (hw : s'.inner.relayWaiters = s.inner.relayWaiters) : Section cfg extra pair allowed drawn s s' :=
  ⟨fun j => (he j).mono (fun _ _ _ h => h.1) (fun _ h => h), hp, ht, hw, purges_of_evolves he fun _ _ _ h => h.2⟩

theorem section_of_eq (hr : s'.room.transfers = s.room.transfers)
    (hp : s'.inner.relayPermits = s.inner.relayPermits) (ht : s'.inner.tickets = s.inner.tickets)
    (hw : s'.inner.relayWaiters = s.inner.relayWaiters) : Section cfg [] pair allowed drawn s s' :=
  section_of_evolves (evolves_of_transfers_eq hr) (subperm_pool_of_eq hp (by rw [held, held, hr]))
    (fun _ _ h => .inl (ht ▸ h)) hw

theorem Section.refl (s : Scope) : Section cfg [] pair allowed drawn s s := section_of_eq rfl rfl rfl rfl

theorem section_update (hm : ∀ r, s.record? id = some r → f r = r ∨
      ∃ act, (allowed id r act ∧ act ≠ .finish) ∧ Move act r (f r))
    (h : ∀ r, (f r).attempt = r.attempt) : Section cfg [] pair allowed drawn s (s.updateRecord id f) :=
  section_of_evolves (evolves_update (record?_updateRecord s id · f) hm)
    (subperm_pool_of_eq rfl (held_updateRecord h)) (fun _ _ h => .inl h) rfl

theorem section_write (hr : s.record? id = some r) (ha : allowed id r act) (hm : Move act r (f r))
    (hf : act ≠ .finish) (h : ∀ r, (f r).attempt = r.attempt) :
    Section cfg [] pair allowed drawn s (s.updateRecord id f) := by
  refine section_update (fun r' hr' => .inr ⟨act, ?_⟩) h
  rw [hr] at hr'
  cases hr'
  exact ⟨⟨ha, hf⟩, hm⟩

theorem installAttempt_pool {a : AttemptId} {n : Nat} (hr : s.record? id = some r) :
    (pool (s.installAttempt id ⟨a, n, none⟩ f)).Subperm (pool s) := by
  refine subperm_modify (f := fun r => { f r with attempt := some ⟨a, n, none⟩ }) [] hr rfl ?_
  simp [Scope.installAttempt, releasePermit, hr, TransferRecord.permit, Scope.updateRecord, List.Subperm.refl]

theorem section_install {a : AttemptId} {n : Nat} (hr : s.record? id = some r) (ha : allowed id r act)
    (hm : Move act r { f r with attempt := some ⟨a, n, none⟩ }) (hf : act ≠ .finish) :
    Section cfg [] pair allowed drawn s (s.installAttempt id ⟨a, n, none⟩ f) := by
  refine section_of_evolves (evolves_update (record?_installAttempt s id · _ _) fun r' hr' => .inr ⟨act, ?_⟩)
    (installAttempt_pool hr) (fun _ _ h => .inl h) rfl
  rw [hr] at hr'
  cases hr'
  exact ⟨⟨ha, hf⟩, hm⟩

end Sections

structure Closes (now : Instant) (s s' : Scope) : Prop where
  ended : ∀ j, Ended now (s.record? j) (s'.record? j)
  slots : (pool s').Subperm (pool s)
  tickets : ∀ hash t, s'.inner.tickets.get? hash = some t → s.inner.tickets.get? hash = some t
  waiters : s'.inner.relayWaiters = s.inner.relayWaiters
  purges : Purges s s'

def ends : TransferId → TransferRecord → Act → Prop := fun _ _ act => act = .finish

section Closes

variable {now : Instant} {s s' u : Scope}

theorem closes_of_eq (hr : s'.room.transfers = s.room.transfers)
    (hp : s'.inner.relayPermits = s.inner.relayPermits) (ht : s'.inner.tickets = s.inner.tickets)
    (hw : s'.inner.relayWaiters = s.inner.relayWaiters) : Closes now s s' := by
  refine ⟨fun j => ?_, subperm_pool_of_eq hp (by rw [held, held, hr]), fun _ _ h => ht ▸ h, hw,
    purges_of_transfers_eq hr⟩
  rw [Scope.record?, Scope.record?, hr]
  exact .same _

theorem Closes.of_fst {α : Type} {p : Scope × α} {x : α} (he : p = (s', x)) (h : Closes now s p.1) : Closes now s s' := by
  rwa [he] at h

theorem Closes.trans (h : Closes now s s') (k : Closes now s' u) : Closes now s u := by
  refine ⟨fun j => (h.ended j).trans (k.ended j), k.slots.trans h.slots,
    fun hash t ht => h.tickets hash t (k.tickets hash t ht), k.waiters.trans h.waiters,
    h.purges.trans k.purges (fun j hn => ?_) k.tickets⟩
  have hended := k.ended j
  rw [hn] at hended
  exact hended.none

theorem Closes.toSection {cfg : Config} {pair : Option TicketPair} {allowed} (h : Closes now s s')
    (ha : ∀ j r, allowed j r .finish) : Section cfg [] pair allowed noDraw s s' :=
  ⟨fun j => (h.ended j).change fun r _ => ha j r, h.slots, fun hash t ht => .inl (h.tickets hash t ht), h.waiters, h.purges⟩

end Closes

end Bore.RegistryPermits
