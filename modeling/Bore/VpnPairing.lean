import Bore.VpnLeases

namespace Bore.VpnPairing

open Ipv4Pool VpnServer Runs Option Server

variable {config : Config} {s s' : Server} {h : Nat} {handler : Handler} {hello : HelloVpn} {session : Nat}
  {id : String} {entry : VpnProviderEntry}
variable {opener : Nat} {handler' : Handler}

def readEntry : Phase → Option VpnProviderEntry
  | .looked entry | .addressed entry _ | .announced entry _ => some entry
  | _ => none

def pending (handler : Handler) : Option (String × VpnProviderEntry) :=
  match handler.role with
  | .connector connect => (readEntry handler.phase).map (connect.id, ·)
  | .listener _ _ => none

def listed : Phase → Bool
  | .waiting | .serving | .returning true => true
  | _ => false

def anyPending (s : Server) (p : String → VpnProviderEntry → Bool) : Bool :=
  s.handlers.values.any (fun handler => (pending handler).any (fun r => p r.1 r.2))

/-- While a connector is between its lookup and its pairing, no listener registers
under its ID and the listener it has read does not leave while it is registered; and
it has not read a listener that is leaving already. -/
def undisturbed (s : Server) : Action → Bool
  | .openListener h _ | .registerHub h =>
    match s.handlers.get? h with
    | some ⟨.listener hello _, _, _, _⟩ => s.providers.contains hello.id || !anyPending s (fun id _ => id == hello.id)
    | _ => true
  | .leave h => !anyPending s (fun id entry => entry.opener == h && s.providers.get? id == some entry)
  | .lookup h _ =>
    match s.handlers.get? h with
    | some ⟨.connector connect, _, _, _⟩ =>
      (s.providers.get? connect.id).all (fun entry => entry.hub || s.isWaiting entry.opener)
    | _ => true
  | _ => true

/-- Every registration belongs to a listener that has not deregistered; what a
connector has read is still registered by a listener that waits, unless the ID is
free; and whatever a connector took away was the registration it had read, and its
message arrived. -/
structure Coherent (s : Server) : Prop where
  owned : ∀ id entry, s.providers.get? id = some entry → ∃ handler hello, s.handlers.get? entry.opener = some handler ∧
    handler.role = .listener hello entry.session ∧ hello.id = id ∧ listed handler.phase = true
  steady : ∀ h handler id entry, s.handlers.get? h = some handler → pending handler = some (id, entry) →
    entry.hub = false ∧ (s.providers.get? id = none ∨
      s.providers.get? id = some entry ∧ s.isWaiting entry.opener = true)
  taken : ∀ t ∈ s.taken, t.delivered = true ∧ t.removed = t.read

theorem pending_none (hp : readEntry handler.phase = none) : pending handler = none := by
  rw [pending, hp]
  split <;> rfl

theorem anyPending_false {p : String → VpnProviderEntry → Bool} (hf : (!anyPending s p) = true) : ∀ j other id entry,
    s.handlers.get? j = some other → pending other = some (id, entry) → p id entry = false := by
  intro j other id entry hj hp
  rw [Bool.not_eq_true', anyPending, List.any_eq_false] at hf
  have hany := hf other ((Table.mem_values_iff _ _).mpr ⟨j, hj⟩)
  rwa [hp, any_some, Bool.not_eq_true] at hany

section

variable (hc : Coherent s)
include hc

theorem Coherent.arrive {n : Nat} (hnew : ¬ s.handlers.contains h = true) (hphase : handler.phase = .arrived) :
    Coherent { s.setHandler h handler with nextSession := n } := by
  have hnone : pending handler = none := pending_none (by rw [hphase]; rfl)
  obtain ⟨owned, steady, taken⟩ := hc
  refine ⟨?_, ?_, taken⟩
  all_goals simp only [setHandler, isWaiting, Table.get?_insert, Table.contains] at *
  all_goals grind [listed]

/-- The listener that waits is paired, and its registration goes. Another ID has
another listener. -/
theorem Coherent.remove {t : Taken} {ready : VpnReady} (hentry : s.providers.get? id = some entry)
    (ht : t.delivered = true ∧ t.removed = t.read) :
    Coherent { s with
      providers := s.providers.erase id
      handlers := s.handlers.modify entry.opener (fun x => { x with phase := .paired ready })
      taken := t :: s.taken } := by
  obtain ⟨owned, steady, taken⟩ := hc
  obtain ⟨listener, hello, hlistener, hrole, hid, -⟩ := owned id entry hentry
  have hnone : pending { listener with phase := .paired ready } = none := pending_none rfl
  have hget (j : Nat) : (s.handlers.modify entry.opener (fun x => { x with phase := .paired ready })).get? j =
      if j = entry.opener then some { listener with phase := .paired ready } else s.handlers.get? j := by
    rw [Table.get?_modify]
    split
    · simp [*]
    · rfl
  constructor
  all_goals simp only [isWaiting, Table.get?_erase, hget] at *
  all_goals grind

section Handler

variable (hg : s.handlers.get? h = some handler)
include hg

theorem Coherent.retire (hrole : handler'.role = handler.role) (hlisted' : listed handler'.phase = true)
    (hpending' : pending handler' = none)
    (hfree : (!anyPending s (fun id entry => entry.opener == h && s.providers.get? id == some entry)) = true) :
    Coherent (s.setHandler h handler') := by
  have hother := anyPending_false hfree
  obtain ⟨owned, steady, taken⟩ := hc
  refine ⟨?_, ?_, taken⟩
  all_goals simp only [setHandler, isWaiting, Table.get?_insert] at *
  all_goals grind [listed]

theorem Coherent.unlist (hhandler : handler.role = .listener hello session) (hphase : handler.phase = .returning true)
    (hpending' : pending handler' = none) : Coherent ((s.deregister hello session).setHandler h handler') := by
  obtain ⟨owned, steady, taken⟩ := hc
  fun_cases deregister
  all_goals refine ⟨?_, ?_, taken⟩
  all_goals simp only [setHandler, isWaiting, Table.get?_insert, Table.get?_erase] at *
  all_goals grind [listed]

section

variable (hlisted : listed handler.phase = false)
include hlisted

theorem Coherent.turn {pool : Option VpnPool} (handler' : Handler)
    (hpending : ∀ id entry, pending handler' = some (id, entry) → pending handler = some (id, entry) ∨
      entry.hub = false ∧ s.providers.get? id = some entry ∧ s.isWaiting entry.opener = true) :
    Coherent { s.setHandler h handler' with pool := pool } := by
  obtain ⟨owned, steady, taken⟩ := hc
  refine ⟨?_, ?_, taken⟩
  all_goals simp only [setHandler, isWaiting, Table.get?_insert] at *
  all_goals grind [listed]

theorem Coherent.register {hub : Bool} (hhandler : handler.role = .listener hello session) (hlisted' : listed handler'.phase = true)
    (hrole : handler'.role = handler.role)
    (hfree : (!anyPending s (fun id _ => id == hello.id)) = true) :
    Coherent { s.setHandler h handler' with
      providers := s.providers.insert hello.id (entryFor h hello session hub) } := by
  have hnone : pending handler' = none := by rw [pending, hrole, hhandler]
  have hother := anyPending_false hfree
  obtain ⟨owned, steady, taken⟩ := hc
  refine ⟨?_, ?_, taken⟩
  all_goals simp only [setHandler, isWaiting, Table.get?_insert, entryFor] at *
  all_goals grind [listed]

theorem Coherent.finish {pool : Option VpnPool} : Coherent { s with pool := pool, handlers := s.handlers.erase h } := by
  obtain ⟨owned, steady, taken⟩ := hc
  refine ⟨?_, ?_, taken⟩
  all_goals simp only [isWaiting, Table.get?_erase] at *
  all_goals grind [listed]

theorem Coherent.setPhase {phase : Phase}
    (hread : readEntry phase = none) : Coherent (s.setPhase h handler phase) := by
  refine hc.turn hg hlisted { handler with phase := phase } (fun id entry hp => ?_)
  rw [pending_none hread] at hp
  cases hp

theorem Coherent.registers (hrole : handler.role = .listener hello session) (hub : Bool)
    (hfree : (s.providers.contains hello.id || !anyPending s (fun id _ => id == hello.id)) = true) :
    Coherent (s.register h handler hello session hub) := by
  rw [Server.register]
  split
  · exact hc.setPhase hg hlisted rfl
  · rename_i hvacant
    exact hc.register hg hlisted hrole (by cases hub <;> rfl) rfl (by simpa [Table.contains, hvacant] using hfree)

end

theorem Coherent.leave (hrun : ∀ b, handler.phase ≠ .returning b)
    (hok : undisturbed s (.leave h) = true) : Coherent (s.setPhase h handler (.returning handler.phase.isRegistered)) := by
  cases hl : listed handler.phase with
  | false => exact hc.setPhase hg hl rfl
  | true =>
    refine hc.retire hg rfl ?_ (pending_none rfl) hok
    unfold listed at hl
    grind [Phase.isRegistered, listed]

end Handler

section Functions

variable {connect : ConnectVpn} {lease : Option Block} {guarded : Bool}

theorem Coherent.openListener {permit : Bool}
    (hg : s.handlers.get? h = some ⟨.listener hello session, .arrived, none, false⟩)
    (hok : undisturbed s (.openListener h permit) = true) :
    Coherent (s.openListener config h ⟨.listener hello session, .arrived, none, false⟩ hello session permit) := by
  simp only [undisturbed, hg] at hok
  fun_cases openListener
  · exact hc.setPhase hg rfl rfl
  · fun_cases openHub
    all_goals first | exact hc.setPhase hg rfl rfl | exact hc.turn hg rfl _ (fun _ _ hp => by cases hp)
  · exact hc.registers hg rfl rfl false hok

theorem Coherent.lookupEntry {permit : Bool}
    (hg : s.handlers.get? h = some ⟨.connector connect, .arrived, lease, guarded⟩)
    (hok : undisturbed s (.lookup h permit) = true) :
    Coherent (s.lookupEntry h ⟨.connector connect, .arrived, lease, guarded⟩ connect permit) := by
  fun_cases lookupEntry
  · exact hc.setPhase hg rfl rfl
  · exact hc.setPhase hg rfl rfl
  rename_i entry hentry
  simp only [undisturbed, hg, hentry, all_some] at hok
  cases hhub : entry.hub with
  | true => exact hc.setPhase hg rfl rfl
  | false =>
    rw [hhub, Bool.false_or] at hok
    refine hc.turn hg rfl ⟨.connector connect, .looked entry, lease, guarded⟩ (fun id e hp => .inr ?_)
    cases hp
    exact ⟨hhub, hentry, hok⟩

theorem Coherent.checkAddresses {lease' : Option Block} {guarded' : Bool}
    (hg : s.handlers.get? h = some ⟨.connector connect, .looked entry, lease, guarded⟩) (pool : Option VpnPool)
    (l c : UInt32) : Coherent ({ s with pool := pool }.checkAddresses config h
      ⟨.connector connect, .looked entry, lease', guarded'⟩ connect entry l c) := by
  fun_cases checkAddresses
  · exact hc.turn hg rfl _ (fun _ _ hp => by cases hp)
  · exact hc.turn hg rfl _ (fun _ _ hp => .inl hp)

theorem Coherent.addressEntry (hg : s.handlers.get? h = some ⟨.connector connect, .looked entry, none, false⟩) :
    Coherent (s.addressEntry config h ⟨.connector connect, .looked entry, none, false⟩ connect entry) := by
  fun_cases addressEntry
  all_goals first | exact hc.setPhase hg rfl rfl | exact hc.checkAddresses hg _ _ _

theorem Coherent.pairEntry {ready : VpnReady}
    (hg : s.handlers.get? h = some ⟨.connector connect, .announced entry ready, lease, guarded⟩) :
    Coherent (s.pairEntry h ⟨.connector connect, .announced entry ready, lease, guarded⟩ connect entry ready) := by
  obtain ⟨hhub, hold⟩ := hc.steady h _ connect.id entry hg rfl
  rw [Server.pairEntry]
  split
  · exact hc.setPhase hg rfl rfl
  rename_i removed hremoved
  -- what is registered now is what was read
  obtain ⟨rfl, hw⟩ : removed = entry ∧ s.isWaiting entry.opener = true := by simpa [hremoved] using hold
  simp only [hhub, hw, Bool.not_false, Bool.and_self, if_true]
  have hmiddle : Coherent (s.setPhase h ⟨.connector connect, .announced removed ready, lease, guarded⟩ .linked) :=
    hc.setPhase hg rfl rfl
  exact hmiddle.remove hremoved ⟨rfl, rfl⟩

end Functions

theorem coherent_step {a : Action} (hstep : step config s a = some s') (hok : undisturbed s a = true) : Coherent s' := by
  revert hstep
  fun_cases step config s a
  all_goals rintro ⟨⟩
  case case2 hnew => exact hc.arrive hnew rfl
  case case4 hnew => exact hc.arrive hnew rfl
  case case5 hg => exact hc.openListener hg hok
  case case7 hg =>
    simp only [undisturbed, hg] at hok
    exact hc.registers hg rfl rfl true hok
  case case9 hg => exact hc.lookupEntry hg hok
  case case11 hg => exact hc.addressEntry hg
  case case13 hg => exact hc.turn hg rfl _ (fun _ _ hp => .inl hp)
  case case15 hg => exact hc.pairEntry hg
  case case18 handler hrun hg =>
    refine hc.leave hg (fun b hb => ?_) hok
    exact hrun handler.role b handler.lease handler.guarded (by rw [← hb])
  case case20 hg => exact hc.unlist hg rfl rfl rfl
  case case22 hg => exact hc.finish hg rfl

end

theorem start_coherent (cidr : Option Ipv4Net) : Coherent (start cidr) :=
  ⟨fun _ _ h => (by cases h), fun _ _ _ _ h => (by cases h), fun _ h => (by cases h)⟩

/-- In every run in which nobody registers or leaves between the lookup and the
pairing of a connector, whatever a connector removed is the registration it has
read, and its message was delivered there. -/
theorem taken_registration_was_read {cidr : Option Ipv4Net}
    (hr : Reaches (step config) (fun s a => undisturbed s a = true) (start cidr) s) :
    ∀ t ∈ s.taken, t.delivered = true ∧ t.removed = t.read :=
  (hr.invariant (start_coherent cidr) (fun _ _ _ hc hok hstep => coherent_step hc hstep hok)).taken

section Sample

def sampleConfig : Config := ⟨4, 28⟩

def sampleCidr : Ipv4Net := ⟨0x0A000000, 24⟩

def sampleHello : HelloVpn := ⟨"a", [], .pool, 1, 1⟩

def sampleRead : List Action :=
  [.listen 0 sampleHello, .openListener 0 true, .connect 1 ⟨"a", [], .pool, 1⟩, .lookup 1 true, .address 1, .announce 1]

theorem taken_registration_was_read_pair : ∃ s,
    Reaches (step sampleConfig) (fun s a => undisturbed s a = true) (start (some sampleCidr)) s ∧
      s.taken = [⟨⟨[], .pool, 0, false, 1, 1⟩, ⟨[], .pool, 0, false, 1, 1⟩, true⟩] ∧
      ∀ t ∈ s.taken, t.delivered = true ∧ t.removed = t.read :=
  execWhile_shows (sampleRead ++ [.pair 1]) taken (by decide +kernel) fun _ hr _ => taken_registration_was_read hr

/-- The listener reconnects with another network between the lookup and the pairing:
the message that was made for the first registration goes to the second. A hub that
takes the ID instead loses its registration and is not even paired. -/
theorem taken_registration_was_replaced : (∃ s, Reaches (step sampleConfig) always (start (some sampleCidr)) s ∧
      s.taken = [⟨⟨[], .pool, 0, false, 1, 1⟩, ⟨[⟨0xC0A80000, 16⟩], .pool, 2, false, 1, 2⟩, true⟩]) ∧
    ∃ s, Reaches (step sampleConfig) always (start (some sampleCidr)) s ∧
      s.taken = [⟨⟨[], .pool, 0, false, 1, 1⟩, ⟨[], .pool, 2, true, 1, 2⟩, false⟩] :=
  ⟨exec_observe (sampleRead ++ [.leave 0, .deregister 0, .listen 2 ⟨"a", [⟨0xC0A80000, 16⟩], .pool, 1, 1⟩,
      .openListener 2 true, .pair 1]) taken (by decide +kernel),
    exec_observe (sampleRead ++ [.leave 0, .deregister 0, .listen 2 ⟨"a", [], .pool, 1, 2⟩, .openListener 2 true,
      .registerHub 2, .pair 1]) taken (by decide +kernel)⟩

end Sample

end Bore.VpnPairing
