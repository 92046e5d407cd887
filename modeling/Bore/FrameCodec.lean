import Bore.WireBytes

namespace Bore.FrameCodec

open WireBytes List

inductive FrameType
  | data
  | final
  deriving DecidableEq

def FrameType.byte : FrameType → UInt8
  | .data => 1
  | .final => 2

def FrameType.tryFrom (value : UInt8) : Except String FrameType :=
  if value = 1 then .ok .data
  else if value = 2 then .ok .final
  else .error ("unknown frame type " ++ toString value.toNat)

def frameMagic : Nat := 0x42575431

def protocolVersion : Nat := 1

def frameMaxPlaintext : Nat := 24 * 1024

def frameMaxBody : Nat := 32 * 1024

structure DecodedFrame where
  ftype : FrameType
  seq : UInt32
  plaintext : Bytes

def frameNonce (seq : UInt32) : Bytes := toBe 8 seq.toNat ++ [0, 0, 0, 0]

def frameHeader (ftype : FrameType) (seq : UInt32) (bodyLen : Nat) : Bytes :=
  toBe 4 frameMagic ++ toBe 2 protocolVersion ++ [ftype.byte, 0] ++ toBe 4 seq.toNat ++ toBe 4 bodyLen

def isFinalLen (len : Nat) : Bool := len = 8 || len = 48

/-- The lengths a plaintext of a type may have, checked by both directions. -/
def checkPlaintext (ftype : FrameType) (plaintext : Bytes) : Except String Unit :=
  match ftype with
  | .data =>
    if plaintext.length = 0 ∨ frameMaxPlaintext < plaintext.length then
      .error "DATA plaintext must be 1..=24576 bytes"
    else .ok ()
  | .final =>
    if isFinalLen plaintext.length then .ok ()
    else .error "FINAL plaintext must be u64be(total) (8 bytes) or the archive tuple (48 bytes)"

section Codec

variable {Key : Type} (a : Aead Key)

def sealFrame (key : Key) (seq : UInt32) (ftype : FrameType) (plaintext : Bytes) : Except String Bytes :=
  match checkPlaintext ftype plaintext with
  | .error e => .error e
  | .ok () =>
    let header := frameHeader ftype seq (plaintext.length + 16)
    .ok (header ++ a.sealInPlace key (frameNonce seq) header plaintext)

def openBody (key : Key) (ftype : FrameType) (seq : UInt32) (header body : Bytes) : Except String DecodedFrame :=
  match a.openInPlace key (frameNonce seq) header body with
  | none => .error "frame authentication failed"
  | some plaintext =>
    match checkPlaintext ftype plaintext with
    | .error e => .error e
    | .ok () => .ok ⟨ftype, seq, plaintext⟩

def openFrame (key : Key) (msg : Bytes) (minSeq : UInt32) : Except String DecodedFrame :=
  if msg.length < 32 then .error "frame shorter than header plus tag"
  else
    match msg with
    | m0 :: m1 :: m2 :: m3 :: v0 :: v1 :: t :: r :: s0 :: s1 :: s2 :: s3 :: l0 :: l1 :: l2 :: l3 :: body =>
      if ofBe [m0, m1, m2, m3] ≠ frameMagic then .error "bad frame magic"
      else if ofBe [v0, v1] ≠ protocolVersion then .error "bad frame version"
      else
        match FrameType.tryFrom t with
        | .error e => .error e
        | .ok ftype =>
          let seq := UInt32.ofNat (ofBe [s0, s1, s2, s3])
          let bodyLen := ofBe [l0, l1, l2, l3]
          if r ≠ 0 then .error "frame reserved bits must be zero"
          else if frameMaxBody < bodyLen then .error "frame body_len exceeds the 32 KiB cap"
          else if bodyLen ≠ body.length then .error "frame body_len does not match trailing bytes"
          else if seq < minSeq then .error "frame sequence is stale"
          else openBody a key ftype seq (msg.take 16) body
    | _ => .error "frame shorter than header plus tag"

end Codec

inductive RelayFrameReject
  | tooShort
  | oversize
  | badMagic
  | badVersion
  | badType
  | badFlags
  | lengthMismatch
  | staleSeq
  deriving DecidableEq

def relayMinFrameLen : Nat := 17

def relayMaxFrameLen : Nat := 32 * 1024

def expectedSeq : Option UInt32 → Option UInt32
  | none => some 0
  | some prev => if prev.toNat + 1 < 2 ^ 32 then some (prev + 1) else none

def checkRelayFrame (prevSeq : Option UInt32) (bytes : Bytes) : Except RelayFrameReject UInt32 :=
  if bytes.length < relayMinFrameLen then .error .tooShort
  else if relayMaxFrameLen < bytes.length then .error .oversize
  else
    match bytes with
    | m0 :: m1 :: m2 :: m3 :: v0 :: v1 :: t :: r :: s0 :: s1 :: s2 :: s3 :: l0 :: l1 :: l2 :: l3 :: body =>
      if ofBe [m0, m1, m2, m3] ≠ frameMagic then .error .badMagic
      else if ofBe [v0, v1] ≠ protocolVersion then .error .badVersion
      else if t ≠ 1 ∧ t ≠ 2 then .error .badType
      else if r ≠ 0 then .error .badFlags
      else if ofBe [l0, l1, l2, l3] ≠ body.length then .error .lengthMismatch
      else
        let seq := UInt32.ofNat (ofBe [s0, s1, s2, s3])
        if expectedSeq prevSeq = some seq then .ok seq else .error .staleSeq
    | _ => .error .tooShort

section Exact

variable {Key : Type} {a : Aead Key} {key : Key} {seq : UInt32} {ftype : FrameType} {plaintext msg : Bytes}

theorem frameHeader_eq (ftype : FrameType) (seq : UInt32) {n : Nat} (hn : n < 2 ^ 32) :
    ∃ m0 m1 m2 m3 v0 v1 s0 s1 s2 s3 l0 l1 l2 l3,
      frameHeader ftype seq n = [m0, m1, m2, m3, v0, v1, ftype.byte, 0, s0, s1, s2, s3, l0, l1, l2, l3] ∧
      ofBe [m0, m1, m2, m3] = frameMagic ∧ ofBe [v0, v1] = protocolVersion ∧
      UInt32.ofNat (ofBe [s0, s1, s2, s3]) = seq ∧ ofBe [l0, l1, l2, l3] = n := by
  have hs : ofBe (toBe 4 seq.toNat) = seq.toNat := ofBe_toBe seq.toNat_lt
  have hl : ofBe (toBe 4 n) = n := ofBe_toBe hn
  refine ⟨_, _, _, _, _, _, _, _, _, _, _, _, _, _, rfl, by decide, by decide, ?_, hl⟩
  exact (congrArg UInt32.ofNat hs).trans UInt32.ofNat_toNat

theorem checkPlaintext_length (h : checkPlaintext ftype plaintext = .ok ()) :
    0 < plaintext.length ∧ plaintext.length ≤ frameMaxPlaintext := by
  revert h
  fun_cases checkPlaintext ftype plaintext
  all_goals rintro ⟨⟩
  · omega
  · rename_i h
    simp only [isFinalLen, Bool.or_eq_true, decide_eq_true_eq] at h
    simp only [frameMaxPlaintext]
    omega

theorem sealFrame_ok (h : sealFrame a key seq ftype plaintext = .ok msg) : checkPlaintext ftype plaintext = .ok () ∧
    msg = frameHeader ftype seq (plaintext.length + 16) ++
      a.sealInPlace key (frameNonce seq) (frameHeader ftype seq (plaintext.length + 16)) plaintext := by
  revert h
  fun_cases sealFrame a key seq ftype plaintext
  all_goals rintro ⟨⟩
  exact ⟨‹_›, rfl⟩

theorem tryFrom_byte (ftype : FrameType) : FrameType.tryFrom ftype.byte = .ok ftype := by
  cases ftype <;> rfl

theorem byte_of_tryFrom {value : UInt8} (h : FrameType.tryFrom value = .ok ftype) : ftype.byte = value := by
  revert h
  fun_cases FrameType.tryFrom value
  all_goals rintro ⟨⟩
  all_goals exact Eq.symm ‹_›

theorem openFrame_sealFrame (h : sealFrame a key seq ftype plaintext = .ok msg) {minSeq : UInt32} (hm : minSeq ≤ seq) :
    openFrame a key msg minSeq = .ok ⟨ftype, seq, plaintext⟩ := by
  obtain ⟨hcheck, rfl⟩ := sealFrame_ok h
  have hlen := checkPlaintext_length hcheck
  simp only [frameMaxPlaintext] at hlen
  have hbody := a.length_seal key (frameNonce seq) (frameHeader ftype seq (plaintext.length + 16)) plaintext
  have hopen := (a.open_iff key (frameNonce seq) (frameHeader ftype seq (plaintext.length + 16)) _ plaintext).mpr rfl
  obtain ⟨m0, m1, m2, m3, v0, v1, s0, s1, s2, s3, l0, l1, l2, l3, hheader, hmagic, hversion, hseq, hbodyLen⟩ :=
    frameHeader_eq ftype seq (n := plaintext.length + 16) (by omega)
  rw [hheader] at hbody hopen ⊢
  simp only [openFrame, openBody, cons_append, nil_append, length_cons, hbody, hmagic, hversion, tryFrom_byte, hseq, hbodyLen,
    take_succ_cons, take_zero, hopen, hcheck, ne_eq, not_true, if_false, frameMaxBody]
  rw [if_neg (by omega), if_neg (by omega), if_neg (UInt32.not_lt.mpr hm)]

theorem checkRelayFrame_sealFrame (h : sealFrame a key seq ftype plaintext = .ok msg) {prev : Option UInt32}
    (hp : expectedSeq prev = some seq) : checkRelayFrame prev msg = .ok seq := by
  obtain ⟨hcheck, rfl⟩ := sealFrame_ok h
  have hlen := checkPlaintext_length hcheck
  simp only [frameMaxPlaintext] at hlen
  have hbody := a.length_seal key (frameNonce seq) (frameHeader ftype seq (plaintext.length + 16)) plaintext
  obtain ⟨m0, m1, m2, m3, v0, v1, s0, s1, s2, s3, l0, l1, l2, l3, hheader, hmagic, hversion, hseq, hbodyLen⟩ :=
    frameHeader_eq ftype seq (n := plaintext.length + 16) (by omega)
  rw [hheader] at hbody ⊢
  have htype : ¬ (ftype.byte ≠ 1 ∧ ftype.byte ≠ 2) := by cases ftype <;> decide
  simp only [checkRelayFrame, cons_append, nil_append, length_cons, hbody, hmagic, hversion, htype, hseq, hbodyLen, hp,
    ne_eq, not_true, if_false, if_true, relayMinFrameLen, relayMaxFrameLen]
  rw [if_neg (by omega), if_neg (by omega)]

theorem openBody_ok {header body : Bytes} {frame : DecodedFrame} (h : openBody a key ftype seq header body = .ok frame) :
    frame.ftype = ftype ∧ frame.seq = seq ∧ checkPlaintext ftype frame.plaintext = .ok () ∧
      a.sealInPlace key (frameNonce seq) header frame.plaintext = body := by
  revert h
  fun_cases openBody a key ftype seq header body
  all_goals rintro ⟨⟩
  exact ⟨rfl, rfl, ‹_›, (a.open_iff ..).mp ‹_›⟩

theorem sealFrame_openFrame {minSeq : UInt32} {frame : DecodedFrame} (h : openFrame a key msg minSeq = .ok frame) :
    sealFrame a key frame.seq frame.ftype frame.plaintext = .ok msg := by
  revert h
  fun_cases openFrame a key msg minSeq
  all_goals intro h
  case case9 m0 m1 m2 m3 v0 v1 t r s0 s1 s2 s3 l0 l1 l2 l3 body hmagic hversion ftype htype seq bodyLen hr _ hlen _ _ =>
    obtain ⟨rfl, hframe, hcheck, hseal⟩ := openBody_ok h
    have hm : toBe 4 frameMagic = [m0, m1, m2, m3] := not_not.mp hmagic ▸ toBe_ofBe [m0, m1, m2, m3] rfl
    have hv : toBe 2 protocolVersion = [v0, v1] := not_not.mp hversion ▸ toBe_ofBe [v0, v1] rfl
    have hs : toBe 4 seq.toNat = [s0, s1, s2, s3] := by
      rw [toNat_ofBe rfl]
      exact toBe_ofBe [s0, s1, s2, s3] rfl
    have hl : toBe 4 body.length = [l0, l1, l2, l3] := not_not.mp hlen ▸ toBe_ofBe [l0, l1, l2, l3] rfl
    have hbody : body.length = frame.plaintext.length + 16 := by rw [← hseal, a.length_seal]
    -- the sixteen bytes read are the header that sealing would write
    have hheader : frameHeader frame.ftype seq (frame.plaintext.length + 16) =
        [m0, m1, m2, m3, v0, v1, t, r, s0, s1, s2, s3, l0, l1, l2, l3] := by
      rw [frameHeader, hm, hv, ← hbody, hs, hl, byte_of_tryFrom htype, not_not.mp hr]
      rfl
    simp only [sealFrame, hframe, hcheck, hheader]
    exact congrArg Except.ok (congrArg _ hseal)
  all_goals cases h

end Exact

/-- What is sealed opens to what was sealed, under every minimum up to its
sequence, and passes the relay after the frame before it; and nothing opens that
was not sealed. -/
theorem frame_codec_is_exact {Key : Type} (a : Aead Key) (key : Key) (msg : Bytes) :
    (∀ seq ftype plaintext, sealFrame a key seq ftype plaintext = .ok msg →
      (∀ minSeq ≤ seq, openFrame a key msg minSeq = .ok ⟨ftype, seq, plaintext⟩) ∧
      (seq = 0 → checkRelayFrame none msg = .ok seq) ∧
      ∀ prev : UInt32, seq.toNat = prev.toNat + 1 → checkRelayFrame (some prev) msg = .ok seq) ∧
    ∀ minSeq frame, openFrame a key msg minSeq = .ok frame →
      sealFrame a key frame.seq frame.ftype frame.plaintext = .ok msg := by
  refine ⟨fun seq ftype plaintext h => ⟨fun minSeq hm => ?_, fun hz => ?_, fun prev hp => ?_⟩, fun minSeq frame h => ?_⟩
  · exact openFrame_sealFrame h hm
  · exact checkRelayFrame_sealFrame h (congrArg some hz.symm)
  · have hlt := seq.toNat_lt
    refine checkRelayFrame_sealFrame h ((if_pos (by omega)).trans (congrArg some (UInt32.toNat_inj.mp ?_)))
    rw [hp, UInt32.toNat_add, UInt32.toNat_one, Nat.mod_eq_of_lt (by omega)]
  · exact sealFrame_openFrame h

end Bore.FrameCodec
