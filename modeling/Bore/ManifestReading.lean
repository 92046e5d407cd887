import Bore.PageManifest

/-! What the readers of a manifest accept, and what an accepted member was. -/

namespace Bore.WebManifest

open JsonText Numerals
open RegistryTypes (u64Max)
open RegistryOps (parseDecimalU64)

section Fields

variable {obj : Fields} {what field : String}

theorem exactObject_ok_iff {value : Json} {fields : List String} : exactObject value what fields = .ok obj ↔
      value = .object obj ∧ (∀ f ∈ obj, f.1 ∈ fields) ∧ ∀ k ∈ fields, obj.lookup k ≠ none := by
  cases value with
  | object obj' =>
    rw [exactObject]
    have hu : obj'.find? (fun f => !fields.contains f.1) = none ↔ ∀ f ∈ obj', f.1 ∈ fields := by
      simp [List.find?_eq_none]
    have hm : fields.find? (fun k => (obj'.lookup k).isNone) = none ↔ ∀ k ∈ fields, obj'.lookup k ≠ none := by
      simp [List.find?_eq_none]
    constructor
    · intro h
      split at h
      · nomatch h
      next hnone =>
        split at h
        · nomatch h
        · next hsome =>
            cases h
            exact ⟨rfl, hu.mp hnone, hm.mp hsome⟩
    · rintro ⟨he, hk, hp⟩
      cases he
      simp only [hu.mpr hk, hm.mpr hp]
  | null | bool | number | string | array => simp [exactObject]

theorem getStr_ok_iff {s : String} : getStr obj what field = .ok s ↔ obj.lookup field = some (.string s) := by
  rw [getStr]
  split
  · next s' hs => simp [hs]
  next hne =>
    constructor
    · intro h
      nomatch h
    · intro h
      exact absurd h (hne s)

theorem getArray_ok_iff {items : List Json} :
    getArray obj what field = .ok items ↔ obj.lookup field = some (.array items) := by
  rw [getArray]
  split
  · next items' hs => simp [hs]
  next hne =>
    constructor
    · intro h
      nomatch h
    · intro h
      exact absurd h (hne items)

end Fields

section Hex

variable {n : Nat} {what s : String}

theorem isLowerHex_ascii {c : Char} (h : isLowerHex c = true) : c.toNat < 0x80 := by
  rw [isLowerHex, Bool.or_eq_true] at h
  rcases h with h | h
  · have := toNat_isDigit h
    omega
  · simp only [Bool.and_eq_true, decide_eq_true_eq] at h
    omega

def HexOf (n : Nat) (s : String) : Prop := s.toList.length = n * 2 ∧ ∀ c ∈ s.toList, isLowerHex c = true

theorem parseHexId_of_hex (what : String) (h : HexOf n s) : ∃ bytes, parseHexId n what s = .ok bytes ∧ hexText bytes = s := by
  obtain ⟨bytes, hd, hl, he⟩ := hexDecode_lower h.1 h.2
  have hlen : utf8Len s.toList = n * 2 := by
    rw [utf8Len_ascii (fun c hc => isLowerHex_ascii (h.2 c hc)), h.1]
  have hall : s.toList.all isLowerHex = true := List.all_eq_true.mpr h.2
  refine ⟨⟨bytes, hl⟩, ?_, ?_⟩
  · rw [parseHexId, if_neg (not_not.mpr hlen), hall, hd]
    simp [hl]
  · change String.ofList (hexEncode bytes) = s
    rw [he, String.ofList_toList]

theorem hex_of_parseHexId {bytes : List.Vector UInt8 n} (h : parseHexId n what s = .ok bytes) : HexOf n s := by
  rw [parseHexId] at h
  split at h
  · nomatch h
  next hlen =>
    split at h
    · nomatch h
    next hall =>
      have hc : ∀ c ∈ s.toList, isLowerHex c = true := by simpa using hall
      refine ⟨?_, hc⟩
      rw [← utf8Len_ascii (fun c hcm => isLowerHex_ascii (hc c hcm))]
      exact not_not.mp hlen

theorem hexText_of_parseHexId {bytes : List.Vector UInt8 n} (h : parseHexId n what s = .ok bytes) :
    hexText bytes = s := by
  obtain ⟨bytes', hb, ht⟩ := parseHexId_of_hex what (hex_of_parseHexId h)
  rw [h] at hb
  cases hb
  exact ht

end Hex

section Decimals

variable {what s : String} {n : Nat}

def Decimal (s : String) : Prop :=
  s.toList ≠ [] ∧ (∀ c ∈ s.toList, c.isDigit = true) ∧ (1 < s.toList.length → s.toList.head? ≠ some '0')

theorem parseDecimalU64_ok_iff :
    parseDecimalU64 what s = .ok n ↔ Decimal s ∧ readDecimal s.toList = n ∧ n ≤ u64Max := by
  have he : s.isEmpty = true ↔ s.toList = [] := by rw [String.isEmpty_iff, ← String.toList_eq_nil_iff]
  have hfit : (if readDecimal s.toList ≤ u64Max then .ok (readDecimal s.toList) else .error (what ++ " overflows u64")) =
      Except.ok n ↔ readDecimal s.toList = n ∧ n ≤ u64Max := by
    split
    · next hle =>
        rw [Except.ok.injEq]
        exact ⟨fun h => ⟨h, h ▸ hle⟩, And.left⟩
    · next hgt => exact iff_of_false nofun fun h => hgt (h.1 ▸ h.2)
  rw [parseDecimalU64, Checks.error_ite_ok_iff, Checks.error_ite_ok_iff]
  refine (and_congr_right fun _ => and_congr_right fun _ => hfit).trans ?_
  rw [← and_assoc, Decimal]
  refine and_congr_left fun _ => ?_
  simp only [Bool.or_eq_true, Bool.and_eq_true, he, Bool.not_eq_true', List.all_eq_false, not_or, not_exists, not_and,
    not_not, decide_eq_true_eq, beq_iff_eq, ← String.length_toList, and_assoc, gt_iff_lt, ne_eq]

theorem toString_of_parseDecimalU64 (h : parseDecimalU64 what s = .ok n) : toString n = s := by
  obtain ⟨⟨hne, hd, hz⟩, rfl, _⟩ := parseDecimalU64_ok_iff.mp h
  change String.ofList (Nat.toDigits 10 (readDecimal s.toList)) = s
  rw [toDigits_readDecimal hd hne hz, String.ofList_toList]

end Decimals

end Bore.WebManifest
