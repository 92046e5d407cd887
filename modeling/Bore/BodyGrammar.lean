import Bore.BodyFraming

namespace Bore.BodyFraming

open List
open WireBytes (Bytes)
open RegistryTypes (u64Max)

/-- The hex digits `0` to `9`, `a` to `f` and `A` to `F`, each with its value. -/
def hexTable : List (UInt8 × Nat) := (range 10).map (fun n => (UInt8.ofNat (0x30 + n), n)) ++
  [(0x61, 10), (0x62, 11), (0x63, 12), (0x64, 13), (0x65, 14), (0x66, 15),
    (0x41, 10), (0x42, 11), (0x43, 12), (0x44, 13), (0x45, 14), (0x46, 15)]

theorem hexDigit_eq (b : UInt8) : hexDigit b = hexTable.lookup b := by
  have h : ∀ n < 256, hexDigit (UInt8.ofNat n) = hexTable.lookup (UInt8.ofNat n) := by decide +kernel
  have hb := h b.toNat b.toNat_lt
  rwa [UInt8.ofNat_toNat] at hb

def hexValue (value : Nat) (digits : Bytes) : Nat := digits.foldl (fun v b => v * 16 + (hexTable.lookup b).getD 0) value

def opensExt (b : UInt8) : Prop := b = 0x3B ∨ b = 0x20 ∨ b = 0x09

def inExt (b : UInt8) : Prop := b ≠ 0x0D ∧ b ≠ 0x0A ∧ (0x20 ≤ b ∨ b = 0x09)

/-- At most sixteen hex digits and an extension, on a line of bounded length. -/
structure SizeLine (digits ext : Bytes) : Prop where
  some : digits ≠ []
  few : digits.length ≤ 16
  hex : ∀ b ∈ digits, hexTable.lookup b ≠ none
  opens : ∀ b ∈ ext.head?, opensExt b
  inside : ∀ b ∈ ext, inExt b
  short : digits.length + ext.length + 1 ≤ maxChunkLine

/-- `chunk* last-chunk` with an empty trailer. -/
inductive ChunkedBody : Bytes → Prop
  | last {digits ext : Bytes} (line : SizeLine digits ext) (size : hexValue 0 digits = 0) :
      ChunkedBody (digits ++ (ext ++ [0x0D, 0x0A, 0x0D, 0x0A]))
  | chunk {digits ext data rest : Bytes} (line : SizeLine digits ext) (size : hexValue 0 digits = data.length)
      (some : data ≠ []) (more : ChunkedBody rest) :
      ChunkedBody (digits ++ (ext ++ 0x0D :: 0x0A :: (data ++ 0x0D :: 0x0A :: rest)))

def Follows (value : Nat) (p : Bytes) : Prop :=
  if value = 0 then p = [0x0D, 0x0A]
  else ∃ data rest, data.length = value ∧ p = data ++ 0x0D :: 0x0A :: rest ∧ ChunkedBody rest

def ChunkState.Completes : ChunkState → Bytes → Prop
  | .sizeDigits value digits lineLen, p => ∃ more ext rest, p = more ++ (ext ++ 0x0D :: 0x0A :: rest) ∧
      digits + more.length ≠ 0 ∧ (∀ b ∈ more, hexTable.lookup b ≠ none) ∧
      (∀ b ∈ ext.head?, opensExt b) ∧ (∀ b ∈ ext, inExt b) ∧ lineLen + more.length + ext.length + 1 ≤ maxChunkLine ∧
      (more ≠ [] → digits + more.length ≤ 16 ∧ hexValue value more ≤ u64Max) ∧ Follows (hexValue value more) rest
  | .ext value lineLen, p => ∃ ext rest, p = ext ++ 0x0D :: 0x0A :: rest ∧ (∀ b ∈ ext, inExt b) ∧
      lineLen + ext.length + 1 ≤ maxChunkLine ∧ Follows value rest
  | .sizeLf value, p => ∃ rest, p = 0x0A :: rest ∧ Follows value rest
  | .data remaining, p => ∃ data rest, data.length = remaining ∧ p = data ++ 0x0D :: 0x0A :: rest ∧ ChunkedBody rest
  | .dataCr, p => ∃ rest, p = 0x0D :: 0x0A :: rest ∧ ChunkedBody rest
  | .dataLf, p => ∃ rest, p = 0x0A :: rest ∧ ChunkedBody rest
  | .trailerStart, p => p = [0x0D, 0x0A]
  | .trailerLf, p => p = [0x0A]
  | .done, p => p = []

theorem lookup_lt {b : UInt8} {d : Nat} (h : hexTable.lookup b = some d) : d < 16 := by
  rw [← hexDigit_eq, hexDigit] at h
  grind [UInt8.le_iff_toNat_le]

theorem le_hexValue (value : Nat) (digits : Bytes) : value ≤ hexValue value digits := by
  induction digits generalizing value with
  | nil => exact le_rfl
  | cons b digits ih => exact le_trans (by omega) (ih (value * 16 + (hexTable.lookup b).getD 0))

theorem hexValue_lt {n value : Nat} (hv : value < 16 ^ n) (digits : Bytes) :
    hexValue value digits < 16 ^ (n + digits.length) := by
  induction digits generalizing n value with
  | nil => exact hv
  | cons b digits ih =>
    have hd : (hexTable.lookup b).getD 0 < 16 := by
      cases hb : hexTable.lookup b with
      | none => decide
      | some => exact lookup_lt hb
    rw [length_cons, Nat.add_comm digits.length, ← Nat.add_assoc]
    exact ih (by beta_reduce; rw [pow_succ]; omega)

theorem completes_start (p : Bytes) : (ChunkState.sizeDigits 0 0 0).Completes p ↔ ChunkedBody p := by
  constructor
  · rintro ⟨digits, ext, rest, rfl, hsome, hhex, hopens, hinside, hshort, hfew, hf⟩
    have hnil : digits ≠ [] := by
      rintro rfl
      exact hsome rfl
    have hline : SizeLine digits ext :=
      ⟨hnil, by simpa using (hfew hnil).1, hhex, hopens, hinside, by omega⟩
    unfold Follows at hf
    split at hf
    · rename_i hzero
      subst hf
      exact .last hline hzero
    · rename_i hpos
      obtain ⟨data, rest, hlen, rfl, hbody⟩ := hf
      exact .chunk hline hlen.symm (by rintro rfl; exact hpos hlen.symm) hbody
  · have hcompletes {digits ext rest : Bytes} (hline : SizeLine digits ext) (hf : Follows (hexValue 0 digits) rest) :
        (ChunkState.sizeDigits 0 0 0).Completes (digits ++ (ext ++ 0x0D :: 0x0A :: rest)) := by
      obtain ⟨hsome, hfew, hhex, hopens, hinside, hshort⟩ := hline
      have hpos := length_pos_of_ne_nil hsome
      have hmax : hexValue 0 digits < 16 ^ 16 :=
        (hexValue_lt (n := 0) (by decide) digits).trans_le (Nat.pow_le_pow_right (by decide) (by omega))
      exact ⟨digits, ext, rest, rfl, by omega, hhex, hopens, hinside, by omega,
        fun _ => ⟨by omega, Nat.le_pred_of_lt hmax⟩, hf⟩
    rintro (⟨hline, hsize⟩ | ⟨hline, hsize, hdata, hbody⟩)
    · exact hcompletes hline (by simp [Follows, hsize])
    · exact hcompletes hline (by simpa [Follows, hsize, hdata] using ⟨_, rfl, _, rfl, hbody⟩)

namespace ChunkState

section Bytes

variable {value digits lineLen : Nat} {b : UInt8} {next : ChunkState} {P : ChunkState → Prop}

theorem expectByte_iff {expected : UInt8} {e : FramingError} :
    (∃ n, expectByte expected next e b = .ok n ∧ P n) ↔ b = expected ∧ P next := by
  unfold expectByte
  split <;> simp [*]

theorem extByte_iff : (∃ n, extByte value lineLen b = .ok n ∧ P n) ↔ lineLen + 1 ≤ maxChunkLine ∧
    (b = 0x0D ∧ P (.sizeLf value) ∨ inExt b ∧ P (.ext value (lineLen + 1))) := by
  unfold extByte inExt
  grind

theorem sizeByte_iff : (∃ n, sizeByte value digits lineLen b = .ok n ∧ P n) ↔ lineLen + 1 ≤ maxChunkLine ∧
    (digits < 16 ∧ hexTable.lookup b ≠ none ∧ hexValue value [b] ≤ u64Max ∧
        P (.sizeDigits (hexValue value [b]) (digits + 1) (lineLen + 1)) ∨
      digits ≠ 0 ∧ (opensExt b ∧ P (.ext value (lineLen + 1)) ∨ b = 0x0D ∧ P (.sizeLf value))) := by
  unfold sizeByte opensExt
  rw [hexDigit_eq]
  cases hb : hexTable.lookup b with
  | none => grind
  | some d =>
    have hother : b ≠ 0x3B ∧ b ≠ 0x20 ∧ b ≠ 0x09 ∧ b ≠ 0x0D := by
      refine ⟨?_, ?_, ?_, ?_⟩ <;> rintro rfl <;> cases hb
    simp [hexValue, hb, hother]
    grind

end Bytes

theorem inExt_of_opensExt {b : UInt8} (h : opensExt b) : inExt b := by
  rcases h with rfl | rfl | rfl <;> simp [inExt]

theorem completes_cons {state : ChunkState} {b : UInt8} {p : Bytes} (hd : state ≠ .done) :
    state.Completes (b :: p) ↔ ∃ next, state.byte b = .ok next ∧ next.Completes p := by
  cases state with
  | sizeDigits value digits lineLen =>
    simp only [byte, sizeByte_iff]
    constructor
    · rintro ⟨_ | ⟨d, more⟩, ext, rest, hp, hsome, hhex, hopens, hinside, hshort, hfew, hf⟩
      · refine ⟨by omega, .inr ⟨hsome, ?_⟩⟩
        rcases ext with _ | ⟨e, ext⟩
        · cases hp
          exact .inr ⟨rfl, rest, rfl, hf⟩
        · cases hp
          rw [length_nil, length_cons] at hshort
          exact .inl ⟨hopens b rfl, ext, rest, rfl, (forall_mem_cons.mp hinside).2, by omega, hf⟩
      · cases hp
        obtain ⟨hd, hmore⟩ := forall_mem_cons.mp hhex
        obtain ⟨hfew, hmax⟩ := hfew (cons_ne_nil b more)
        rw [length_cons] at hfew hshort
        exact ⟨by omega, .inl ⟨by omega, hd, (le_hexValue _ more).trans hmax, more, ext, rest, rfl, by omega,
          hmore, hopens, hinside, by omega, fun _ => ⟨by omega, hmax⟩, hf⟩⟩
    · rintro ⟨hshort, ⟨hlt, hhex, hone, more, ext, rest, rfl, hsome, hmore, hopens, hinside, hlen, hfew, hf⟩ |
        ⟨hsome, ⟨hopens, ext, rest, rfl, hinside, hlen, hf⟩ | ⟨rfl, rest, rfl, hf⟩⟩⟩
      · have hall : digits + 1 + more.length ≤ 16 ∧ hexValue value (b :: more) ≤ u64Max := by
          cases more with
          | nil => exact ⟨hlt, hone⟩
          | cons => exact hfew (cons_ne_nil _ _)
        refine ⟨b :: more, ext, rest, rfl, ?_, forall_mem_cons.mpr ⟨hhex, hmore⟩, hopens, hinside, ?_,
          fun _ => ⟨?_, hall.2⟩, hf⟩
        all_goals rw [length_cons]; omega
      · exact ⟨[], b :: ext, rest, rfl, hsome, by simp, by simpa using hopens,
          forall_mem_cons.mpr ⟨inExt_of_opensExt hopens, hinside⟩, by rw [length_nil, length_cons]; omega, by simp, hf⟩
      · exact ⟨[], [], rest, rfl, hsome, by simp, by simp, by simp, hshort, by simp, hf⟩
  | ext value lineLen =>
    simp only [byte, extByte_iff]
    constructor
    · rintro ⟨_ | ⟨e, ext⟩, rest, hp, hinside, hshort, hf⟩
      · cases hp
        exact ⟨hshort, .inl ⟨rfl, rest, rfl, hf⟩⟩
      · cases hp
        obtain ⟨he, hinside⟩ := forall_mem_cons.mp hinside
        rw [length_cons] at hshort
        exact ⟨by omega, .inr ⟨he, ext, rest, rfl, hinside, by omega, hf⟩⟩
    · rintro ⟨hshort, ⟨rfl, rest, rfl, hf⟩ | ⟨hb, ext, rest, rfl, hinside, hlen, hf⟩⟩
      · exact ⟨[], rest, rfl, by simp, hshort, hf⟩
      · exact ⟨b :: ext, rest, rfl, forall_mem_cons.mpr ⟨hb, hinside⟩, by rw [length_cons]; omega, hf⟩
  | sizeLf value =>
    simp only [byte, expectByte_iff, Completes]
    by_cases hv : value = 0
    · simp [hv, Follows]
    · simp [hv, Follows]
  | data remaining =>
    match remaining with
    | 0 => simp [byte, expectByte_iff, Completes, and_assoc]
    | 1 => simp [byte, Completes, length_eq_one_iff]
    | n + 2 =>
      simp only [byte, Except.ok.injEq, exists_eq_left']
      constructor
      · rintro ⟨data, rest, hlen, hp, hbody⟩
        obtain ⟨d, more, rfl⟩ := exists_cons_of_length_eq_add_one hlen
        cases hp
        exact ⟨more, rest, Nat.succ.inj hlen, rfl, hbody⟩
      · rintro ⟨more, rest, hlen, rfl, hbody⟩
        exact ⟨b :: more, rest, congrArg (· + 1) hlen, rfl, hbody⟩
  | dataCr => simp [Completes, byte, expectByte_iff, and_assoc]
  | dataLf =>
    simp only [byte, expectByte_iff, completes_start]
    simp [Completes]
  | trailerStart => simp [Completes, byte, expectByte_iff]
  | trailerLf => simp [Completes, byte, expectByte_iff]
  | done => exact absurd rfl hd

/-- The framer is done after a prefix exactly when the prefix completes the body. -/
theorem bytes_eq_done_iff (state : ChunkState) (p rest : Bytes) :
    state.bytes (p ++ rest) = .ok (.done, p.length) ↔ state.Completes p := by
  induction p generalizing state with
  | nil =>
    by_cases hd : state = .done
    · subst hd
      simp [bytes_done, Completes]
    · refine ⟨fun h => absurd (bytes_pos h hd) (lt_irrefl 0), fun h => ?_⟩
      cases state <;> simp_all [Completes]
  | cons b p ih =>
    by_cases hd : state = .done
    · subst hd
      simp [bytes_done, Completes]
    rw [completes_cons hd, cons_append]
    constructor
    · intro h
      obtain ⟨next, m, hb, hr, hm⟩ := of_bytes_cons hd h
      cases Nat.succ.inj hm
      exact ⟨next, hb, (ih next).mp hr⟩
    · rintro ⟨next, hb, hc⟩
      rw [bytes_cons hd hb, (ih next).mpr hc]
      rfl

end ChunkState

inductive Verdict
  | inProgress | done
  | failed (e : FramingError)
  deriving DecidableEq

def BodyFramer.verdict (f : BodyFramer) : Verdict :=
  match f.error with
  | some e => .failed e
  | none => if f.isDone then .done else .inProgress

def forwarded : Except FramingError Progress → Nat
  | .ok p => p.forward
  | .error _ => 0

/-- The pieces are fed one after another; the forwarded bytes are counted. -/
def BodyFramer.feedAll : BodyFramer → List Bytes → BodyFramer × Nat
  | f, [] => (f, 0)
  | f, piece :: pieces =>
    let r := f.feed piece
    let rs := r.1.feedAll pieces
    (rs.1, rs.2 + forwarded r.2)

open BodyFraming.Inner

theorem feedAll_error (inner : Inner) (e : FramingError) (pieces : List Bytes) :
    BodyFramer.feedAll ⟨inner, some e⟩ pieces = (⟨inner, some e⟩, 0) := by
  induction pieces with
  | nil => rfl
  | cons piece pieces ih => simp [BodyFramer.feedAll, BodyFramer.feed, ih, forwarded]

theorem feedAll_spec (inner : Inner) (pieces : List Bytes) :
    match inner.advance pieces.flatten with
    | .ok (next, n) => BodyFramer.feedAll ⟨inner, none⟩ pieces = (⟨next, none⟩, n)
    | .error e => (BodyFramer.feedAll ⟨inner, none⟩ pieces).1.error = some e := by
  induction pieces generalizing inner with
  | nil => cases inner <;> simp [advance, ChunkState.bytes, Except.map, BodyFramer.feedAll]
  | cons piece pieces ih =>
    rw [flatten_cons, advance_append]
    cases hp : inner.advance piece with
    | error e => simp [Except.bind, BodyFramer.feedAll, feed_eq, hp, feedAll_error]
    | ok r =>
      obtain ⟨mid, m⟩ := r
      have := ih mid
      cases hr : mid.advance pieces.flatten <;> simp_all [Except.bind, Except.map, BodyFramer.feedAll, feed_eq, forwarded]

theorem chunkedBody_iff {p s : Bytes} (hp : p <+: s) :
    ChunkedBody p ↔ ∃ next, (BodyFramer.new .chunked).inner.advance s = .ok (next, p.length) ∧ next.Done := by
  obtain ⟨rest, rfl⟩ := hp
  rw [← completes_start, ← ChunkState.bytes_eq_done_iff _ p rest]
  simp only [BodyFramer.new, advance_chunked]
  constructor
  · intro h
    exact ⟨_, ⟨_, rfl, h⟩, rfl⟩
  · rintro ⟨_, ⟨last, rfl, h⟩, hd⟩
    cases done_chunked.mp hd
    exact h

theorem feedAll_new (framing : Framing) (pieces : List Bytes) {s : Bytes} (hs : pieces.flatten = s) :
    match (BodyFramer.new framing).inner.advance s with
    | .ok (next, n) => (BodyFramer.new framing).feedAll pieces = (⟨next, none⟩, n)
    | .error e => ((BodyFramer.new framing).feedAll pieces).1.verdict = .failed e := by
  subst hs
  have hnew : BodyFramer.new framing = ⟨(BodyFramer.new framing).inner, none⟩ := by cases framing <;> rfl
  have hspec := feedAll_spec (BodyFramer.new framing).inner pieces
  rw [← hnew] at hspec
  split <;> rename_i ha <;> rw [ha] at hspec
  · exact hspec
  · simp only [BodyFramer.verdict, hspec]

theorem framing_ignores_cuts (framing : Framing) (pieces : List Bytes) :
    let s := pieces.flatten
    let whole := (BodyFramer.new framing).feedAll [s]
    let cut := (BodyFramer.new framing).feedAll pieces
    cut.1.verdict = whole.1.verdict ∧
      ((∀ e, cut.1.verdict ≠ .failed e) →
        cut.2 = whole.2 ∧ cut.2 ≤ s.length ∧ (cut.2 < s.length → cut.1.verdict = .done)) ∧
      (framing = .chunked → (cut.1.verdict = .done ↔ ∃ p, p <+: s ∧ ChunkedBody p) ∧
        (cut.1.verdict = .done → ∀ p, p <+: s → (ChunkedBody p ↔ p = s.take cut.2))) := by
  intro s whole cut
  have hcut := feedAll_new framing pieces (s := s) rfl
  have hwhole := feedAll_new framing [s] flatten_singleton
  split at hcut <;> rename_i ha <;> rw [ha] at hwhole
  · rename_i next n
    obtain ⟨hle, hall⟩ := advance_count ha
    have hsame : cut = (⟨next, none⟩, n) := hcut
    rw [show whole = cut from hwhole.trans hcut.symm, hsame]
    have hverdict : (BodyFramer.mk next none).verdict = .done ↔ next.Done := by simp [BodyFramer.verdict]
    refine ⟨rfl, fun _ => ⟨rfl, hle, fun hlt => hverdict.mpr ?_⟩, ?_⟩
    · by_contra hd
      exact absurd (hall hd) (Nat.ne_of_lt hlt)
    rintro rfl
    have hiff {p : Bytes} (hp : p <+: s) : ChunkedBody p ↔ n = p.length ∧ next.Done := by
      rw [chunkedBody_iff hp, ha]
      simp [Prod.ext_iff, and_assoc]
    rw [hverdict]
    constructor
    · constructor
      · intro hd
        exact ⟨s.take n, take_prefix n s, (hiff ( take_prefix n s)).mpr ⟨by simp [hle], hd⟩⟩
      · rintro ⟨p, hp, hbody⟩
        exact ((hiff hp).mp hbody).2
    · intro hd p hp
      rw [hiff hp]
      constructor
      · rintro ⟨rfl, -⟩
        exact prefix_iff_eq_take.mp hp
      · rintro rfl
        exact ⟨(length_take_of_le hle).symm, hd⟩
  · have hsame : cut.1.verdict = .failed _ := hcut
    rw [hsame, show whole.1.verdict = .failed _ from hwhole]
    refine ⟨rfl, fun hne => absurd rfl (hne _), ?_⟩
    rintro rfl
    refine ⟨iff_of_false Verdict.noConfusion ?_, Verdict.noConfusion⟩
    rintro ⟨p, hp, hbody⟩
    obtain ⟨next, hok, -⟩ := (chunkedBody_iff hp).mp hbody
    cases ha.symm.trans hok

end Bore.BodyFraming
