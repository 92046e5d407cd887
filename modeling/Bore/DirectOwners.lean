import Bore.DirectEndpoint
import Bore.Numerals

namespace Bore.DirectEndpoint

open State Runs List
open Option (bind_eq_some_iff)

section Keys

theorem publicKey_injective {p q : UInt16} (h : publicKey p = publicKey q) : p = q := by
  have hd : Nat.toDigits 10 p.toNat = Nat.toDigits 10 q.toNat := append_cancel_left h
  have hv := congrArg Numerals.readDecimal hd
  rw [Numerals.readDecimal_toDigits, Numerals.readDecimal_toDigits] at hv
  exact UInt16.toNat_inj.mp hv

end Keys

theorem get?_removeIf {V : Type} (t : Table Text V) (name j : Text) (p : V → Bool) :
    (removeIf t name p).get? j = if j = name ∧ (t.get? name).any p then none else t.get? j := by
  unfold removeIf
  split <;> simp [Table.get?_erase, *]

theorem of_get?_modify {V : Type} {t : Table Nat V} {k j : Nat} {f : V → V} {v : V} (h : (t.modify k f).get? j = some v) :
    ∃ w, t.get? j = some w ∧ (v = w ∨ v = f w) := by
  rw [Table.get?_modify] at h
  split at h
  · obtain ⟨w, hw, rfl⟩ := Option.map_eq_some_iff.mp h
    exact ⟨w, hw, .inr rfl⟩
  · exact ⟨v, h, .inl rfl⟩

section Condition

variable {T : Type} (s : State T)

def Stage.waiting : Stage → Bool
  | .accepted _ | .admitted _ => true
  | _ => false

def State.waitsOn (key : Text) : Bool := s.conns.values.any (fun conn => conn.key == key && conn.stage.waiting)

def State.heldByNative (label : Text) : Bool :=
  ((s.vhostRegistry.get? label).bind s.tunnels.get?).any (fun t => t.gateway.isNone)

/-- A name is registered again only when no connection waits under it and no
nonce is pending for it, a label is not the key of a public port, and the
gateway frees no label of a native provider. -/
def careful : Action T → Bool
  | .register (.vhost label) _ _ _ =>
    !startsWith portMark label && !s.vhostPending.contains label && !s.waitsOn label
  | .register (.publicPort port) _ _ _ => !s.waitsOn (publicKey port)
  | .takeover (.vhost label) newcomer => !(evicts (s.vhostOwners.get? label) newcomer && s.heldByNative label)
  | .abandon r =>
    match (s.tunnels.get? r).map Tunnel.kind with
    | some (.vhost label) => !s.heldByNative label
    | _ => true
  | _ => true

end Condition

variable {T : Type} (deriveToken : Nonce → T)

def Presented (s : State T) (r : Nat) (received : T) : Prop := ∃ n, (r, n) ∈ s.issued ∧ deriveToken n = received

def CarriersBelong (s : State T) : Prop :=
  ∀ r pool m, s.pools.get? r = some pool → m ∈ pool.conns →
    ∃ conn, s.conns.get? m.conn = some conn ∧ Presented deriveToken s r conn.received

def Stage.owner : Stage → Option Nat
  | .accepted owner | .admitted owner => some owner
  | _ => none

def Stage.served : Stage → Option Nat
  | .found r | .installed r _ => some r
  | _ => none

/-- The registries, the pending nonces and the connections agree on who owns
what. While a connection waits, the second lookup can only find a registration
its token speaks for. -/
structure Owned (s : State T) : Prop where
  nextId : 0 < s.nextId
  ids : ∀ r t, s.tunnels.get? r = some t → r < s.nextId
  nativeUdp : ∀ r t, s.tunnels.get? r = some t → t.udp = true → t.gateway = none
  labels : ∀ r t label, s.tunnels.get? r = some t → t.kind = .vhost label → startsWith portMark label = false
  vhostEntry : ∀ r t label, s.tunnels.get? r = some t → t.kind = .vhost label → t.gateway = none → t.phase = .serving →
    s.vhostRegistry.get? label = some r
  publicEntry : ∀ r t port, s.tunnels.get? r = some t → t.kind = .publicPort port → t.gateway = none ∧
    (t.phase = .serving → s.publicRegistry.get? (publicKey port) = some r)
  jumpEntry : ∀ name r, s.jumpRegistry.get? name = some r → 0 < r ∧ r < s.nextId
  vhostNonce : ∀ label n, s.vhostPending.get? label = some n → startsWith portMark label = false ∧
    ∀ r, s.vhostRegistry.get? label = some r → (r, n) ∈ s.issued
  publicNonce : ∀ key n, s.publicPending.get? key = some n →
    (∃ port r t, key = publicKey port ∧ s.tunnels.get? r = some t ∧ t.kind = .publicPort port) ∧
      ∀ r, s.publicRegistry.get? key = some r → (r, n) ∈ s.issued
  jumpNonce : ∀ key p, s.jumpPending.get? key = some p → (p.ownerId, p.nonce) ∈ s.issued
  owners : ∀ c conn owner, s.conns.get? c = some conn → conn.stage.owner = some owner → owner < s.nextId
  jumps : ∀ c conn r name, s.conns.get? c = some conn → conn.stage.owner = some r →
    stripMark jumpMark conn.key = some name → s.jumpRegistry.get? name = some r → Presented deriveToken s r conn.received
  publicPorts : ∀ c conn owner r, s.conns.get? c = some conn → conn.stage.owner = some owner →
    stripMark jumpMark conn.key = none → startsWith portMark conn.key = true →
    s.publicRegistry.get? conn.key = some r → Presented deriveToken s r conn.received
  vhosts : ∀ c conn owner r, s.conns.get? c = some conn → conn.stage.owner = some owner →
    stripMark jumpMark conn.key = none → startsWith portMark conn.key = false →
    s.vhostRegistry.get? conn.key = some r → Presented deriveToken s r conn.received
  serves : ∀ c conn r, s.conns.get? c = some conn → conn.stage.served = some r → Presented deriveToken s r conn.received
  pools : CarriersBelong deriveToken s

variable {deriveToken}
variable {s s' : State T}

theorem bound_of_tunnel {port : UInt16} (ht : s.tunnels.get? r = some t)
    (hk : t.kind = .publicPort port) : s.bound port = true := by
  rw [State.bound, any_eq_true]
  exact ⟨t, (Table.mem_values_iff _ _).mpr ⟨r, ht⟩, by rw [hk, beq_self_eq_true]⟩

theorem waitsOn_of_conn {c owner : Nat} {conn : Conn T} (hc : s.conns.get? c = some conn)
    (hst : conn.stage.owner = some owner) : s.waitsOn conn.key = true := by
  rw [State.waitsOn, any_eq_true]
  refine ⟨conn, (Table.mem_values_iff _ _).mpr ⟨c, hc⟩, ?_⟩
  unfold Stage.owner at hst
  split at hst <;> simp_all [Stage.waiting]

section

variable (h : Owned deriveToken s)
include h

theorem Owned.setPhase {phase : Phase} (ht : s.tunnels.get? r = some t) (hp : phase = .serving → t.gateway ≠ none) :
    Owned deriveToken (s.setPhase r t phase) := by
  refine { h with ids := ?_, nativeUdp := ?_, labels := ?_, vhostEntry := ?_, publicEntry := ?_, publicNonce := ?_ }
  all_goals simp only [State.setPhase, Table.get?_insert]
  all_goals cases h; grind -ring -linarith

theorem Owned.eraseTunnel (ht : s.tunnels.get? r = some t)
    (hport : ∀ port, t.kind = .publicPort port → s.publicPending.get? (publicKey port) = none) :
    Owned deriveToken { s with tunnels := s.tunnels.erase r } := by
  refine { h with ids := ?_, nativeUdp := ?_, labels := ?_, vhostEntry := ?_, publicEntry := ?_, publicNonce := ?_ }
  all_goals simp only [Table.get?_erase]
  all_goals cases h; grind -ring -linarith

theorem Owned.eraseLabel {label : Text} (hfree : s.heldByNative label = false) :
    Owned deriveToken { s with vhostRegistry := s.vhostRegistry.erase label } := by
  refine { h with vhostEntry := ?_, vhostNonce := ?_, vhosts := ?_ }
  all_goals simp only [heldByNative, Table.get?_erase] at hfree ⊢
  all_goals cases h; grind -ring -linarith [Presented]

theorem Owned.dropEntry (ht : s.tunnels.get? r = some t) (hp : t.phase = .closed) :
    Owned deriveToken (s.dropEntry r t.kind) := by
  cases t.kind
  case' vhost => refine { h with vhostEntry := ?_, vhostNonce := ?_, vhosts := ?_ }
  case' publicPort => refine { h with publicEntry := ?_, publicNonce := ?_, publicPorts := ?_ }
  case' jump => refine { h with jumpEntry := ?_, jumps := ?_ }
  all_goals simp only [State.dropEntry, get?_removeIf]
  all_goals cases h; grind -ring -linarith [Presented]

theorem Owned.closeAll (r : Nat) : Owned deriveToken (s.closeAll r) := by
  refine { h with pools := fun j pool' m hp hm => ?_ }
  obtain ⟨pool, hpool, rfl | rfl⟩ := of_get?_modify hp
  · exact h.pools j _ m hpool hm
  · cases hm

theorem Owned.removeEntry (hs : s.removeEntry r = some s') : Owned deriveToken s' := by
  obtain ⟨t, ht, hs⟩ := bind_eq_some_iff.mp hs
  split at hs
  all_goals cases hs
  rename_i hp
  refine (h.dropEntry ht hp).setPhase ?_ nofun
  cases t.kind <;> exact ht

theorem Owned.endTunnel (hs : s.endTunnel r = some s') : Owned deriveToken s' := by
  obtain ⟨t, ht, hs⟩ := bind_eq_some_iff.mp hs
  have hclosed : Owned deriveToken ((s.closeAll r).setPhase r t .closed) := (h.closeAll r).setPhase ht nofun
  split at hs
  all_goals cases hs
  case h_1 => exact h.setPhase ht nofun
  case h_2 => cases t.kind <;> exact { hclosed with }
  case h_3 | h_4 => exact hclosed

theorem Owned.own (hs : s.own r = some s') : Owned deriveToken s' := by
  obtain ⟨t, ht, hs⟩ := bind_eq_some_iff.mp hs
  split at hs
  all_goals cases hs
  rename_i hg _
  have hserves : Owned deriveToken (s.setPhase r t .serving) := h.setPhase ht (by simp [hg])
  cases t.kind <;> exact { hserves with }

theorem Owned.abandon (hs : s.abandon r = some s') (hok : careful s (.abandon r) = true) : Owned deriveToken s' := by
  obtain ⟨t, ht, hs⟩ := bind_eq_some_iff.mp hs
  split at hs
  all_goals cases hs
  rename_i hk _
  simp only [careful, ht, Option.map_some, hk, Bool.not_eq_true'] at hok
  exact (h.eraseLabel hok).eraseTunnel ht (by simp [hk])

theorem Owned.takeover {newcomer : Text} (hs : s.takeover kind newcomer = some s')
    (hok : careful s (.takeover kind newcomer) = true) : Owned deriveToken s' := by
  revert hs
  fun_cases State.takeover s kind newcomer
  all_goals rintro ⟨⟩
  case case1 label hev =>
    rw [Bool.and_eq_true] at hev
    simp only [careful, hev.2, Bool.true_and, Bool.not_eq_true'] at hok
    exact { h.eraseLabel hok with }
  case case4 name hev =>
    exact { h with
      jumpEntry := fun name r hr => h.jumpEntry name r (Table.get?_of_erase hr)
      jumps := fun c conn r name hc ho hm hr => h.jumps c conn r name hc ho hm (Table.get?_of_erase hr) }
  all_goals exact h

theorem Owned.removePending (hs : s.removePending r = some s') : Owned deriveToken s' := by
  obtain ⟨t, ht, hs⟩ := bind_eq_some_iff.mp hs
  dsimp only at hs
  split at hs
  case h_1 hk =>
    have hgone := h.eraseTunnel ht (by simp [hk])
    cases hs
    split
    · refine { hgone with jumpNonce := fun key p hp => h.jumpNonce key p ?_ }
      grind [get?_removeIf]
    · exact hgone
  case h_2 port _ hk =>
    have hforgot : Owned deriveToken { s with publicPending := s.publicPending.erase (publicKey port) } :=
      { h with publicNonce := fun key n hn => h.publicNonce key n (Table.get?_of_erase hn) }
    cases hs
    exact hforgot.eraseTunnel ht (by simp [hk, Table.get?_erase])
  case h_3 hk =>
    have hgone := h.eraseTunnel ht (by simp [hk])
    split at hs
    all_goals cases hs
    · rw [hk]
      exact { hgone with }
    split
    · exact { hgone with vhostNonce := fun label n hn => h.vhostNonce label n (Table.get?_of_erase hn) }
    · exact hgone
  case h_4 => cases hs

theorem Owned.register (hs : s.register cfg kind gateway udp clientId = some s')
    (hok : careful s (.register kind gateway udp clientId) = true) : Owned deriveToken s' := by
  cases h
  unfold State.register at hs
  split at hs
  all_goals cases hs
  rename_i hc
  cases kind
  all_goals simp only [careful, vacant, udpAllowed, accepts, Table.contains, Bool.and_eq_true, Bool.or_eq_true,
    Option.isNone_iff_eq_none] at hok hc
  all_goals constructor
  all_goals first | assumption | simp only [setEntry, Table.get?_insert, CarriersBelong]
  all_goals grind -ring -linarith [CarriersBelong, Presented, publicKey_injective, bound_of_tunnel, waitsOn_of_conn]

theorem Owned.issue (r : Nat) (n : Nonce) : Owned deriveToken { s with issued := (r, n) :: s.issued } := by
  cases h
  constructor
  all_goals first | assumption | simp only [CarriersBelong, Presented, mem_cons] at *
  all_goals grind -ring -linarith

theorem Owned.offer {n : Nonce} (hs : s.offer r n = some s') : Owned deriveToken s' := by
  obtain ⟨t, ht, hs⟩ := bind_eq_some_iff.mp hs
  split at hs
  all_goals cases hs
  have hissue := h.issue r n
  cases hk : t.kind
  case' vhost => refine { hissue with vhostNonce := ?_ }
  case' publicPort => refine { hissue with publicNonce := ?_ }
  case' jump => refine { hissue with jumpNonce := ?_ }
  all_goals simp only [sendUdpOffer, Table.get?_insert]
  all_goals cases h; grind -ring -linarith

theorem Owned.renew {asked : Kind} {n : Nonce} (hs : s.renew r asked n = some s') : Owned deriveToken s' := by
  obtain ⟨t, ht, hs⟩ := bind_eq_some_iff.mp hs
  split at hs
  · split at hs
    · exact h.offer hs
    · cases hs
      exact h
  · cases hs

theorem Owned.setConn {c : Nat} {conn' : Conn T}
    (hsame : ∀ conn, s.conns.get? c = some conn → conn'.received = conn.received)
    (howner : ∀ owner, conn'.stage.owner = some owner → owner < s.nextId ∧
      ∀ r, s.target conn'.key owner = some r → Presented deriveToken s r conn'.received)
    (hserved : ∀ r, conn'.stage.served = some r → Presented deriveToken s r conn'.received) :
    Owned deriveToken (s.setConn c conn') := by
  cases h
  constructor
  all_goals first | assumption | simp only [State.setConn, Table.get?_insert, CarriersBelong]
  all_goals grind -ring -linarith [CarriersBelong, Presented, target]

theorem Owned.clears {c owner : Nat} {conn : Conn T} (hc : s.conns.get? c = some conn)
    (ho : conn.stage.owner = some owner) : owner < s.nextId ∧
      ∀ r, s.target conn.key owner = some r → Presented deriveToken s r conn.received := by
  refine ⟨h.owners c conn owner hc ho, fun r hr => ?_⟩
  unfold target at hr
  split at hr
  · rename_i name hm
    obtain ⟨hr, hown⟩ := Option.filter_eq_some_iff.mp hr
    cases beq_iff_eq.mp hown
    exact h.jumps c conn owner name hc ho hm hr
  · rename_i hm
    split at hr
    · exact h.publicPorts c conn owner r hc ho hm (by assumption) hr
    · rename_i hp
      exact h.vhosts c conn owner r hc ho hm (Bool.not_eq_true _ ▸ hp) hr

theorem Owned.hello {c : Nat} {key : Text} {received : T} (hs : s.hello c key received = some s') :
    Owned deriveToken s' := by
  revert hs
  fun_cases State.hello
  all_goals rintro ⟨⟩
  apply h.setConn
  all_goals grind [Table.contains, Stage.owner, Stage.served]

section Connection

variable {c : Nat} {conn : Conn T} (hc : s.conns.get? c = some conn)
include hc

theorem Owned.setStage {stage : Stage} (howner : ∀ owner, stage.owner = some owner → owner < s.nextId ∧
      ∀ r, s.target conn.key owner = some r → Presented deriveToken s r conn.received)
    (hserved : ∀ r, stage.served = some r → Presented deriveToken s r conn.received) :
    Owned deriveToken (s.setStage c conn stage) :=
  h.setConn (by simp [hc]) howner hserved

theorem Owned.drops {stage : Stage} (hn : stage.owner = none) (hn' : stage.served = none) :
    Owned deriveToken (s.setStage c conn stage) :=
  h.setStage hc (by simp [hn]) (by simp [hn'])

theorem Owned.checkToken [DecidableEq T] {n : Nonce} {owner : Nat}
    (howner : owner < s.nextId) (ht : ∀ r, s.target conn.key owner = some r → (r, n) ∈ s.issued) :
    Owned deriveToken (s.checkToken deriveToken c conn n owner) := by
  rw [State.checkToken]
  split
  · rename_i hmatch
    refine h.setStage hc ?_ (by simp [Stage.served])
    rintro _ ⟨⟩
    exact ⟨howner, fun r hr => ⟨n, ht r hr, hmatch⟩⟩
  · exact h.drops hc rfl rfl

end Connection

theorem Owned.admitDirect {c : Nat} (hs : s.admitDirect c = some s') : Owned deriveToken s' := by
  obtain ⟨conn, hc, hs⟩ := bind_eq_some_iff.mp hs
  have hcl {owner : Nat} (ho : conn.stage = .accepted owner) := h.clears hc (by rw [ho]; rfl)
  split at hs
  all_goals cases hs
  · rename_i hst _
    exact h.setStage hc (by simpa [Stage.owner] using hcl hst) (by simp [Stage.served])
  · exact h.drops hc rfl rfl
  · rename_i owner n hst _
    have hset : Owned deriveToken (s.setConn c { conn with stage := .admitted owner, permit := true }) :=
      h.setConn (by simp [hc]) (by simpa [Stage.owner] using hcl hst) (by simp [Stage.served])
    exact { hset with }

theorem Owned.resolve {c : Nat} (hs : s.resolve c = some s') : Owned deriveToken s' := by
  obtain ⟨conn, hc, hs⟩ := bind_eq_some_iff.mp hs
  split at hs
  · rename_i owner hst
    split at hs
    · rename_i r hr
      cases hs
      refine h.setStage hc (by simp [Stage.owner]) ?_
      rintro _ ⟨⟩
      exact (h.clears hc (by rw [hst]; rfl)).2 r hr
    · cases hs
      exact h.drops hc rfl rfl
  · cases hs

theorem Owned.install {c : Nat} (hs : s.install c = some s') : Owned deriveToken s' := by
  obtain ⟨conn, hc, hs⟩ := bind_eq_some_iff.mp hs
  split at hs
  · rename_i r hst
    have hcl : Presented deriveToken s r conn.received := h.serves c conn r hc (by rw [hst]; rfl)
    obtain ⟨pool, hpool, hs⟩ := bind_eq_some_iff.mp hs
    split at hs
    · cases hs
      exact h.drops hc rfl rfl
    cases hs
    have hset : Owned deriveToken (s.setStage c conn (.installed r pool.ids)) :=
      h.setStage hc (by simp [Stage.owner]) (by simpa [Stage.served] using hcl)
    refine { hset with pools := fun j pool' m hp hm => ?_ }
    have hall := hset.pools
    simp only [Table.get?_insert, State.setStage, State.setConn, CarriersBelong, Presented] at *
    grind
  · cases hs

theorem Owned.finish {c : Nat} (hs : s.finish c = some s') : Owned deriveToken s' := by
  obtain ⟨conn, hc, hs⟩ := bind_eq_some_iff.mp hs
  have hset : Owned deriveToken (s.setConn c { conn with stage := .closed, permit := false }) :=
    h.setConn (by simp [hc]) (by simp [Stage.owner]) (by simp [Stage.served])
  dsimp only at hs
  split at hs
  · cases hs
    refine { hset with pools := fun j pool' m hp hm => ?_ }
    obtain ⟨pool, hpool, rfl | rfl⟩ := of_get?_modify hp
    · exact hset.pools j _ m hpool hm
    · exact hset.pools j pool m hpool (mem_of_mem_filter hm)
  · cases hs
    exact { hset with }

variable [DecidableEq T]

/-- Not even a label that looks like the key of a jump host reaches one: no
registration has the number zero. -/
theorem Owned.lookupVhost {c : Nat} (hs : s.lookupVhost deriveToken c = some s') : Owned deriveToken s' := by
  obtain ⟨conn, hc, hs⟩ := bind_eq_some_iff.mp hs
  split at hs
  · split at hs
    · rename_i n hn
      cases hs
      refine h.checkToken hc h.nextId (fun r hr => ?_)
      obtain ⟨hport, hissued⟩ := h.vhostNonce conn.key n hn
      unfold target at hr
      split at hr
      · obtain ⟨hr, hown⟩ := Option.filter_eq_some_iff.mp hr
        cases beq_iff_eq.mp hown
        exact absurd (h.jumpEntry _ 0 hr).1 (Nat.lt_irrefl 0)
      · rw [hport] at hr
        exact hissued r hr
    · cases hs
      exact h.drops hc rfl rfl
  · cases hs

theorem Owned.lookupPublic {c : Nat} (hs : s.lookupPublic deriveToken c = some s') : Owned deriveToken s' := by
  obtain ⟨conn, hc, hs⟩ := bind_eq_some_iff.mp hs
  split at hs
  · split at hs
    · rename_i n hn
      cases hs
      refine h.checkToken hc h.nextId (fun r hr => ?_)
      obtain ⟨⟨port, -, -, hkey, -⟩, hissued⟩ := h.publicNonce conn.key n hn
      exact hissued r (hkey ▸ hr)
    · cases hs
      exact h.drops hc rfl rfl
  · cases hs

theorem Owned.lookupJump {c : Nat} (hs : s.lookupJump deriveToken c = some s') : Owned deriveToken s' := by
  obtain ⟨conn, hc, hs⟩ := bind_eq_some_iff.mp hs
  split at hs
  · split at hs
    · rename_i p hp
      cases hs
      simp only [State.jumpNonce, Option.bind_eq_bind, bind_eq_some_iff] at hp
      obtain ⟨p', hp', name, hm, entry, he, hp⟩ := hp
      split at hp
      all_goals cases hp
      rename_i howner
      refine h.checkToken hc (howner ▸ (h.jumpEntry name entry he).2) (fun r hr => ?_)
      rw [target, hm] at hr
      cases beq_iff_eq.mp (Option.filter_eq_some_iff.mp hr).2
      exact h.jumpNonce conn.key p hp'
    · cases hs
      exact h.drops hc rfl rfl
  · cases hs

end

variable [DecidableEq T]
variable {name key clientId : Text} {owner r : Nat} {t : Tunnel} {kind : Kind} {cfg : Config} {gateway : Option Text}
  {udp : Bool}

theorem owned_step {a : Action T} (h : Owned deriveToken s) (hok : careful s a = true)
    (hs : step cfg deriveToken s a = some s') : Owned deriveToken s' := by
  cases a with
  | register => exact h.register hs hok
  | own => exact h.own hs
  | abandon => exact h.abandon hs hok
  | takeover => exact h.takeover hs hok
  | offer => exact h.offer hs
  | renew => exact h.renew hs
  | endTunnel => exact h.endTunnel hs
  | removeEntry => exact h.removeEntry hs
  | removePending => exact h.removePending hs
  | hello => exact h.hello hs
  | lookupVhost => exact h.lookupVhost hs
  | lookupPublic => exact h.lookupPublic hs
  | lookupJump => exact h.lookupJump hs
  | admitDirect => exact h.admitDirect hs
  | resolve => exact h.resolve hs
  | install => exact h.install hs
  | finish => exact h.finish hs

theorem direct_carriers_belong (cfg : Config) (deriveToken : Nonce → T) (permits : Option Nat) (s : State T)
    (h : Reaches (step cfg deriveToken) (fun s a => careful s a = true) (start permits) s) : CarriersBelong deriveToken s :=
  (h.invariant (P := Owned deriveToken) (by constructor <;> simp [start, CarriersBelong])
    (fun _ _ _ hown hok hs => owned_step hown hok hs)).pools

def openConfig : Config := ⟨id, [], none⟩

def threeTunnels : List (Action Nat) :=
  [.register (.publicPort 80) none true [], .register (.vhost ['x']) none true [], .register (.jump ['x']) none true [],
    .offer 1 10, .offer 2 20, .renew 3 (.jump ['x']) 30,
    .hello 0 (publicKey 80) 10, .hello 1 ['x'] 20, .hello 2 (directKey ['x']) 30,
    .lookupVhost 0, .lookupPublic 0, .lookupVhost 1, .lookupVhost 2, .lookupPublic 2, .lookupJump 2,
    .admitDirect 0, .admitDirect 1, .admitDirect 2, .resolve 0, .resolve 1, .resolve 2, .install 0, .install 1, .install 2]

theorem direct_carriers_belong_three_tunnels : ∃ s : State Nat, (s.pools.get? 1, s.pools.get? 2, s.pools.get? 3) =
      (some ⟨[⟨0, 0⟩], 1⟩, some ⟨[⟨0, 1⟩], 1⟩, some ⟨[⟨0, 2⟩], 1⟩) ∧ CarriersBelong id s := by
  have hrun : (execWhile (step openConfig id) careful (start none) threeTunnels).map
      (fun s => (s.pools.get? 1, s.pools.get? 2, s.pools.get? 3)) =
      some (some ⟨[⟨0, 0⟩], 1⟩, some ⟨[⟨0, 1⟩], 1⟩, some ⟨[⟨0, 2⟩], 1⟩) := by
    decide +kernel
  obtain ⟨s, hs, hp⟩ := execWhile_observe _ _ hrun
  exact ⟨s, hp, direct_carriers_belong openConfig id none s hs⟩

def labelOfPort : List (Action Nat) :=
  [.register (.publicPort 80) none true [], .offer 1 10, .register (.vhost (publicKey 80)) none true [], .offer 2 20,
    .hello 0 (publicKey 80) 20, .lookupVhost 0, .admitDirect 0, .resolve 0, .install 0]

def labelChangesHands : List (Action Nat) :=
  [.register (.vhost ['x']) none true [], .offer 1 10, .hello 0 ['x'] 10, .lookupVhost 0,
    .endTunnel 1, .removeEntry 1, .removePending 1, .register (.vhost ['x']) none true [],
    .admitDirect 0, .resolve 0, .install 0]

theorem exists_not_carriersBelong {run : List (Action Nat)} (r c token : Nat) (issued : List (Nat × Nonce))
    (h : (exec (step openConfig id) (start none) run).map
        (fun s => (s.pools.get? r, (s.conns.get? c).map Conn.received, s.issued)) =
      some (some ⟨[⟨0, c⟩], 1⟩, some token, issued)) (hno : (r, token) ∉ issued) :
    ∃ s, exec (step openConfig id) (start none) run = some s ∧ ¬ CarriersBelong id s := by
  obtain ⟨s, hs, h⟩ := Option.map_eq_some_iff.mp h
  refine ⟨s, hs, fun hb => ?_⟩
  simp only [Prod.mk.injEq] at h
  obtain ⟨hp, hc, hi⟩ := h
  obtain ⟨conn, hconn, n, hn, hd⟩ := hb r _ ⟨0, c⟩ hp mem_cons_self
  rw [hconn, Option.map_some, Option.some.injEq, ← hd] at hc
  exact hno (hi ▸ hc ▸ hn)

theorem carrier_of_another_tunnel :
    (∃ s, exec (step openConfig id) (start none) labelOfPort = some s ∧ ¬ CarriersBelong id s) ∧
    (∃ s, exec (step openConfig id) (start none) labelChangesHands = some s ∧ ¬ CarriersBelong id s) := by
  constructor
  · exact exists_not_carriersBelong 1 0 20 [(2, 20), (1, 10)] (by decide +kernel) (by decide)
  · exact exists_not_carriersBelong 2 0 10 [(1, 10)] (by decide +kernel) (by decide)

end Bore.DirectEndpoint
