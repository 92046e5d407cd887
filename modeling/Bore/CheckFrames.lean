import Bore.WireBytes

namespace Bore.CheckFrames

open WireBytes List

inductive SocketAddr
  | v4 (ip : UInt32) (port : UInt16)
  | v6 (ip : BitVec 128) (port : UInt16) (flowinfo scope : UInt32)
  deriving DecidableEq

def maxUdpCandidates : Nat := 16

def checkMaxResponses : Nat := 256

def validCandidate : SocketAddr → Bool
  | .v4 ip port => port != 0 && ip != 0 && ip >>> 28 != 14 && ip != 0xFFFFFFFF
  | .v6 ip port _ _ => port != 0 && ip != 0 && ip >>> 120 != 255

/-- The closure of `sanitize_candidates`; `seen` is what it has kept. -/
def keepCandidate (seen : List SocketAddr) (addr : SocketAddr) : Bool :=
  validCandidate addr && !seen.contains addr && seen.length < maxUdpCandidates

def sanitizeCandidates (candidates : List SocketAddr) : List SocketAddr :=
  candidates.foldl (fun seen addr => if keepCandidate seen addr then seen ++ [addr] else seen) []

theorem length_sanitizeCandidates (candidates : List SocketAddr) :
    (sanitizeCandidates candidates).length ≤ maxUdpCandidates := by
  have hkeep : ∀ seen : List SocketAddr, seen.length ≤ maxUdpCandidates →
      (candidates.foldl (fun seen addr => if keepCandidate seen addr then seen ++ [addr] else seen) seen).length ≤
        maxUdpCandidates := by
    induction candidates with
    | nil => exact fun _ h => h
    | cons _ _ ih =>
      intro seen hseen
      rw [foldl_cons]
      apply ih
      split
      · rename_i hk
        simp only [keepCandidate, Bool.and_eq_true, decide_eq_true_eq] at hk
        rw [length_append, length_singleton]
        exact hk.2
      · exact hseen
  exact hkeep [] (Nat.zero_le _)

structure Txid where
  bytes : Bytes
  length_eq : bytes.length = 12
  deriving DecidableEq

structure Mac where
  tag : Bytes → Bytes
  length_tag : ∀ bytes, (tag bytes).length = 32

def kindRequest : UInt8 := 1

def kindResponse : UInt8 := 2

/-- A check frame. The observed source is an IPv4 address and a port. -/
structure Frame where
  kind : UInt8
  role : UInt8
  generation : UInt32
  txid : Txid
  observed : Option (UInt32 × UInt16)
  deriving DecidableEq

def magic : Bytes := [0x62, 0x63, 0x63, 0x31]

def frameLen : Nat := 60

def hmacAt : Nat := 28

def observedBytes : Option (UInt32 × UInt16) → Bytes
  | some (ip, port) => toBe 4 ip.toNat ++ toBe 2 port.toNat
  | none => toBe 6 0

def Frame.body (f : Frame) : Bytes :=
  (magic ++ [f.kind, f.role]) ++ (toBe 4 f.generation.toNat ++ (f.txid.bytes ++ observedBytes f.observed))

def build (mac : Mac) (f : Frame) : Bytes := f.body ++ mac.tag f.body

def request (role : UInt8) (generation : UInt32) (txid : Txid) : Frame := ⟨kindRequest, role, generation, txid, none⟩

/-- `check::response`. An IPv6 source is not reported. -/
def response (role : UInt8) (generation : UInt32) (txid : Txid) : SocketAddr → Frame
  | .v4 ip port => ⟨kindResponse, role, generation, txid, some (ip, port)⟩
  | .v6 _ _ _ _ => ⟨kindResponse, role, generation, txid, none⟩

def looksLike (buf : Bytes) : Bool := buf.length == frameLen && buf.take 4 == magic

def parseObserved (bytes : Bytes) : Option (UInt32 × UInt16) :=
  let ip := UInt32.ofNat (ofBe (bytes.take 4))
  let port := UInt16.ofNat (ofBe (bytes.drop 4))
  if ip = 0 ∧ port = 0 then none else some (ip, port)

def parse (mac : Mac) (buf : Bytes) : Option Frame :=
  if !looksLike buf then none
  else
    let kind := buf.getD 4 0
    if kind ≠ kindRequest ∧ kind ≠ kindResponse then none
    else if mac.tag (buf.take hmacAt) ≠ buf.drop hmacAt then none
    else
      let txid := (buf.drop 10).take 12
      if h : txid.length = 12 then
        some ⟨kind, buf.getD 5 0, UInt32.ofNat (ofBe ((buf.drop 6).take 4)), ⟨txid, h⟩,
          parseObserved ((buf.drop 22).take 6)⟩
      else none

theorem length_observedBytes (o : Option (UInt32 × UInt16)) : (observedBytes o).length = 6 := by
  cases o with
  | none => rw [observedBytes, length_toBe]
  | some => rw [observedBytes, length_append, length_toBe, length_toBe]

theorem length_body (f : Frame) : f.body.length = hmacAt := by
  rw [Frame.body, length_append, length_append, length_append, length_append, length_toBe, f.txid.length_eq,
    length_observedBytes]
  rfl

theorem parseObserved_observedBytes (o : Option (UInt32 × UInt16)) :
    parseObserved (observedBytes o) = if o = some (0, 0) then none else o := by
  cases o with
  | none => rfl
  | some p =>
    obtain ⟨ip, port⟩ := p
    have hip : ofBe (toBe 4 ip.toNat) = ip.toNat := ofBe_toBe ip.toNat_lt
    have hport : ofBe (toBe 2 port.toNat) = port.toNat := ofBe_toBe port.toNat_lt
    rw [observedBytes, parseObserved, take_left' (length_toBe 4 _), drop_left' (length_toBe 4 _), hip, hport,
      UInt32.ofNat_toNat, UInt16.ofNat_toNat]
    simp only [Option.some.injEq, Prod.mk.injEq]

theorem parse_build (mac : Mac) (f : Frame) (hk : f.kind = kindRequest ∨ f.kind = kindResponse) :
    parse mac (build mac f) = some { f with observed := if f.observed = some (0, 0) then none else f.observed } := by
  have hlen : (build mac f).length = frameLen := by
    rw [build, length_append, length_body, mac.length_tag]
    rfl
  have hbody : (build mac f).take hmacAt = f.body := take_left' (length_body f)
  have htag : (build mac f).drop hmacAt = mac.tag f.body := drop_left' (length_body f)
  have hmagic : (build mac f).take 4 = magic := rfl
  have h6 : (build mac f).drop 6 =
      toBe 4 f.generation.toNat ++ (f.txid.bytes ++ (observedBytes f.observed ++ mac.tag f.body)) := by
    simp only [build, Frame.body, append_assoc]
    rfl
  have hgen : ((build mac f).drop 6).take 4 = toBe 4 f.generation.toNat := by
    rw [h6, take_left' (length_toBe 4 _)]
  have h10 : (build mac f).drop 10 = f.txid.bytes ++ (observedBytes f.observed ++ mac.tag f.body) := by
    rw [show (10 : Nat) = 6 + 4 from rfl, ← drop_drop, h6, drop_left' (length_toBe 4 _)]
  have htxid : ((build mac f).drop 10).take 12 = f.txid.bytes := by
    rw [h10, take_left' f.txid.length_eq]
  have hobs : ((build mac f).drop 22).take 6 = observedBytes f.observed := by
    rw [show (22 : Nat) = 10 + 12 from rfl, ← drop_drop, h10, drop_left' f.txid.length_eq,
      take_left' (length_observedBytes _)]
  have hkind : ¬ (f.kind ≠ kindRequest ∧ f.kind ≠ kindResponse) := fun h => hk.elim h.1 h.2
  have hfour : (build mac f).getD 4 0 = f.kind := rfl
  have hfive : (build mac f).getD 5 0 = f.role := rfl
  have hg : ofBe (toBe 4 f.generation.toNat) = f.generation.toNat := ofBe_toBe f.generation.toNat_lt
  have hlooks : looksLike (build mac f) = true := by
    rw [looksLike, hlen, hmagic, beq_self_eq_true, beq_self_eq_true]
    rfl
  simp only [parse, hlooks, hfour, hfive, hbody, htag, hgen, htxid, hobs, hg, hkind, parseObserved_observedBytes,
    f.txid.length_eq, UInt32.ofNat_toNat, Bool.not_true, Bool.false_eq_true, ne_eq, not_true_eq_false, if_false, dif_pos]

theorem observedBytes_parseObserved {bytes : Bytes} (h : bytes.length = 6) :
    observedBytes (parseObserved bytes) = bytes := by
  have hip : (bytes.take 4).length = 4 := by simp [h]
  have hport : (bytes.drop 4).length = 2 := by simp [h]
  have hb : toBe 4 (UInt32.ofNat (ofBe (bytes.take 4))).toNat ++ toBe 2 (UInt16.ofNat (ofBe (bytes.drop 4))).toNat =
      bytes := by
    rw [toNat_ofBe hip, UInt16.toNat_ofNat_of_lt' (ofBe_lt hport), toBe_ofBe _ hip,
      toBe_ofBe _ hport, take_append_drop]
  rw [parseObserved]
  split
  case isTrue hz =>
    rw [hz.1, hz.2] at hb
    exact hb
  case isFalse => exact hb

/-- A datagram is accepted exactly if it is the one encoding, under the key of
the round, of the frame it is read as. -/
theorem parse_eq_some_iff (mac : Mac) (buf : Bytes) (f : Frame) :
    parse mac buf = some f ↔
      buf = build mac f ∧ (f.kind = kindRequest ∨ f.kind = kindResponse) ∧ f.observed ≠ some (0, 0) := by
  constructor
  · intro h
    simp only [parse, Option.ite_none_left_eq_some, Option.dite_none_right_eq_some, Option.some.injEq] at h
    obtain ⟨hlooks, hkind, htag, htxid, rfl⟩ := h
    simp only [looksLike, Bool.not_eq_true, Bool.not_eq_false', Bool.and_eq_true, beq_iff_eq] at hlooks
    obtain ⟨hlen, hmagic⟩ := hlooks
    have hgen : ((buf.drop 6).take 4).length = 4 := by simp [hlen, frameLen]
    have hobs : ((buf.drop 22).take 6).length = 6 := by simp [hlen, frameLen]
    have htwo : [buf.getD 4 0, buf.getD 5 0] = (buf.drop 4).take 2 := by
      have hfive : 5 < buf.length := hlen ▸ by decide
      rw [drop_eq_getElem_cons (Nat.lt_of_succ_lt hfive), drop_eq_getElem_cons hfive, getD_eq_getElem, getD_eq_getElem]
      rfl
    have hbody : Frame.body ⟨buf.getD 4 0, buf.getD 5 0, UInt32.ofNat (ofBe ((buf.drop 6).take 4)), ⟨_, htxid⟩,
        parseObserved ((buf.drop 22).take 6)⟩ = buf.take hmacAt := by
      rw [Frame.body, toNat_ofBe hgen, toBe_ofBe _ hgen, observedBytes_parseObserved hobs, ← hmagic, htwo, ← take_add,
        ← append_assoc, ← take_add, ← append_assoc, ← take_add, ← take_add]
      rfl
    refine ⟨?_, ?_, ?_⟩
    · rw [build, hbody, not_not.mp htag, take_append_drop]
    · exact or_iff_not_and_not.mpr hkind
    · simp only [parseObserved]
      split <;> simp_all
  · rintro ⟨rfl, hk, ho⟩
    rw [parse_build mac f hk, if_neg ho]

end Bore.CheckFrames
