import Mathlib

namespace Bore.FlowPinning

abbrev Packet := List UInt8

def mix (h : UInt64) (b : UInt8) : UInt64 := (h ^^^ b.toUInt64) * 0x100000001b3

def version (pkt : Packet) : UInt8 := pkt.getD 0 0 >>> 4

def headerLength (pkt : Packet) : Nat := (pkt.getD 0 0 &&& 0x0f).toNat * 4

def slice (pkt : Packet) (first last : Nat) : Packet := (pkt.take last).drop first

def isTransport (proto : UInt8) : Bool := proto == 6 || proto == 17

def flowCarrier (pkt : Packet) (n : Nat) : Nat :=
  if n ≤ 1 then 0
  else
    let h : UInt64 := 0xcbf29ce484222325
    let h :=
      if 20 ≤ pkt.length ∧ version pkt = 4 then
        let proto := pkt.getD 9 0
        let h := (slice pkt 12 20).foldl mix (mix h proto)
        let ihl := headerLength pkt
        if isTransport proto ∧ ihl + 4 ≤ pkt.length then (slice pkt ihl (ihl + 4)).foldl mix h else h
      else (pkt.take 1).foldl mix h
    h.toNat % n

/-- The place of the packet's payload in its datagram, in units of eight bytes. -/
def fragmentOffset (pkt : Packet) : Nat := (pkt.getD 6 0 &&& 0x1f).toNat * 256 + (pkt.getD 7 0).toNat

structure Flow where
  protocol : UInt8
  addresses : Packet
  ports : Packet

/-- An IPv4 packet of the flow. The ports are those of the datagram: they stand
behind the header of the packet that begins it. -/
structure Flow.Carries (flow : Flow) (pkt : Packet) : Prop where
  whole : 20 ≤ pkt.length ∧ 20 ≤ headerLength pkt
  version : version pkt = 4
  protocol : pkt.getD 9 0 = flow.protocol
  addresses : slice pkt 12 20 = flow.addresses
  ports : isTransport flow.protocol = true → fragmentOffset pkt = 0 →
    headerLength pkt + 4 ≤ pkt.length ∧ slice pkt (headerLength pkt) (headerLength pkt + 4) = flow.ports

theorem xor_byte_div (h : UInt64) (b : UInt8) : (h ^^^ b.toUInt64).toNat / 2 ^ 8 = h.toNat / 2 ^ 8 := by
  have hb : b.toNat < 2 ^ 8 := b.toNat_lt
  rw [UInt64.toNat_xor, UInt8.toNat_toUInt64, Nat.xor_div_two_pow, Nat.div_eq_of_lt hb, Nat.xor_zero]

theorem xor_byte_inj {h : UInt64} {b c : UInt8} (he : (h ^^^ b.toUInt64).toNat = (h ^^^ c.toUInt64).toNat) : b = c := by
  rw [UInt64.toNat_xor, UInt64.toNat_xor, Nat.xor_right_inj, UInt8.toNat_toUInt64, UInt8.toNat_toUInt64] at he
  exact UInt8.toNat_inj.mp he

/-- A byte moves a state a little, and then the distance of two states is
multiplied. -/
theorem mix_gap (u v : UInt64) (b c : UInt8) : ∃ δ : Int, (-510 ≤ δ ∧ δ ≤ 510) ∧ (u = v → δ = 0 → b = c) ∧
    ((mix u b).toNat - (mix v c).toNat : Int) ≡ (u.toNat - v.toNat + δ) * 0x100000001b3 [ZMOD 2 ^ 64] := by
  have hu := xor_byte_div u b
  have hv := xor_byte_div v c
  refine ⟨((u ^^^ b.toUInt64).toNat - u.toNat) - ((v ^^^ c.toUInt64).toNat - v.toNat), by omega, ?_, ?_⟩
  · rintro rfl hδ
    exact xor_byte_inj (h := u) (by omega)
  · rw [mix, mix, UInt64.toNat_mul, UInt64.toNat_mul]
    push_cast
    calc _ ≡ (u ^^^ b.toUInt64).toNat * 0x100000001b3 - (v ^^^ c.toUInt64).toNat * 0x100000001b3 [ZMOD 2 ^ 64] :=
          (Int.mod_modEq _ _).sub (Int.mod_modEq _ _)
      _ = _ := by ring

/-- A combination of small moves that is a multiple of 2^64 is trivial. The prime
is 2^40 + 435. -/
theorem moves_trivial {a b c d : Int} (ha : -510 ≤ a ∧ a ≤ 510) (hb : -510 ≤ b ∧ b ≤ 510) (hc : -510 ≤ c ∧ c ≤ 510)
    (hd : -510 ≤ d ∧ d ≤ 510)
    (h : (2 ^ 64 : Int) ∣ ((a * 0x100000001b3 + b) * 0x100000001b3 + c) * 0x100000001b3 + d) :
    a = 0 ∧ b = 0 ∧ c = 0 ∧ d = 0 := by
  obtain ⟨k, hk⟩ := h
  -- the part below 2^40 is too small to carry, so that both parts vanish
  obtain ⟨j, hj⟩ : ∃ j, 567675 * a + 870 * b + c = 2 ^ 24 * j :=
    ⟨k - (2 ^ 56 + 1305 * 2 ^ 16) * a - 2 ^ 16 * b, by omega⟩
  have hlow : 82312875 * a + 189225 * b + 435 * c + d = 0 := by omega
  have hc' : -1 ≤ 189225 * a + 435 * b + c ∧ 189225 * a + 435 * b + c ≤ 1 := by omega
  have hb' : -1 ≤ 435 * a + b ∧ 435 * a + b ≤ 1 := by omega
  have hj' : -5 ≤ j ∧ j ≤ 5 := by omega
  have ha' : a = 0 := by
    obtain ⟨hlo, hhi⟩ := hj'
    interval_cases j <;> omega
  have hj0 : j = 0 := by omega
  omega

/-- The hash tells the port pairs of two packets apart. -/
theorem foldl_mix_inj {h : UInt64} {bs cs : Packet} (hb : bs.length = 4) (hc : cs.length = 4)
    (he : bs.foldl mix h = cs.foldl mix h) : bs = cs := by
  obtain ⟨b₁, b₂, b₃, b₄, rfl⟩ := List.length_eq_four.mp hb
  obtain ⟨c₁, c₂, c₃, c₄, rfl⟩ := List.length_eq_four.mp hc
  simp only [List.foldl] at he
  obtain ⟨δ₁, hδ₁, hi₁, hg₁⟩ := mix_gap h h b₁ c₁
  obtain ⟨δ₂, hδ₂, hi₂, hg₂⟩ := mix_gap (mix h b₁) (mix h c₁) b₂ c₂
  obtain ⟨δ₃, hδ₃, hi₃, hg₃⟩ := mix_gap (mix (mix h b₁) b₂) (mix (mix h c₁) c₂) b₃ c₃
  obtain ⟨δ₄, hδ₄, hi₄, hg₄⟩ := mix_gap (mix (mix (mix h b₁) b₂) b₃) (mix (mix (mix h c₁) c₂) c₃) b₄ c₄
  have hsum := hg₄.trans (((hg₃.trans (((hg₂.trans ((hg₁.add_right δ₂).mul_right _)).add_right δ₃).mul_right
    _)).add_right δ₄).mul_right _)
  rw [he, sub_self, sub_self, zero_add] at hsum
  obtain ⟨rfl, rfl, rfl, rfl⟩ := moves_trivial hδ₁ hδ₂ hδ₃ hδ₄
    (Int.dvd_of_dvd_mul_left_of_gcd_one (Int.modEq_zero_iff_dvd.mp hsum.symm) (by decide))
  obtain rfl := hi₁ rfl rfl
  obtain rfl := hi₂ rfl rfl
  obtain rfl := hi₃ rfl rfl
  obtain rfl := hi₄ rfl rfl
  rfl

/-- The bytes that are hashed as the port pair of a TCP or UDP packet. -/
def portBytes (pkt : Packet) : Packet :=
  if headerLength pkt + 4 ≤ pkt.length then slice pkt (headerLength pkt) (headerLength pkt + 4) else []

def Flow.hash (flow : Flow) : UInt64 := (flow.protocol :: flow.addresses).foldl mix 0xcbf29ce484222325

def Flow.hashOf (flow : Flow) (pkt : Packet) : UInt64 :=
  if isTransport flow.protocol then (portBytes pkt).foldl mix flow.hash else flow.hash

variable {flow : Flow} {p q : Packet}

theorem flowCarrier_eq (h : flow.Carries p) (n : Nat) :
    flowCarrier p n = if n ≤ 1 then 0 else (flow.hashOf p).toNat % n := by
  obtain ⟨⟨hlen, -⟩, hversion, hprotocol, haddresses, -⟩ := h
  unfold flowCarrier
  split
  · rfl
  simp only [if_pos (And.intro hlen hversion), hprotocol, haddresses, Flow.hashOf, portBytes]
  cases isTransport flow.protocol with
  | false => simp [Flow.hash]
  | true =>
    by_cases hlong : headerLength p + 4 ≤ p.length
    · simp [hlong, Flow.hash]
    · simp [hlong, Flow.hash]

theorem length_portBytes (pkt : Packet) : portBytes pkt = [] ∨ (portBytes pkt).length = 4 := by
  unfold portBytes
  split
  · next hlong =>
      right
      simp only [slice, List.length_drop, List.length_take]
      omega
  · exact .inl rfl

theorem foldl_portBytes_iff (h : UInt64) (hl : (portBytes p).length = (portBytes q).length) :
    (portBytes p).foldl mix h = (portBytes q).foldl mix h ↔ portBytes p = portBytes q := by
  refine ⟨fun he => ?_, fun he => by rw [he]⟩
  rcases length_portBytes p with hp | hp
  · rw [hp, List.length_nil] at hl
    rw [hp, List.length_eq_zero_iff.mp hl.symm]
  · exact foldl_mix_inj hp (hl.symm.trans hp) he

def udpPacket (offset : UInt8) (payload : Packet) : Packet :=
  [0x45, 0, 0, 28, 0, 1, 0, offset, 64, 17, 0, 0, 10, 0, 0, 1, 10, 0, 0, 2] ++ payload

def udpFlow : Flow := ⟨17, [10, 0, 0, 1, 10, 0, 0, 2], [0, 53, 0, 53]⟩

theorem udpFlow_carries (payload : Packet) : udpFlow.Carries (udpPacket 0 ([0, 53, 0, 53] ++ payload)) := by
  constructor <;> simp [udpPacket, udpFlow, slice, headerLength, version, fragmentOffset]
  decide

end Bore.FlowPinning
