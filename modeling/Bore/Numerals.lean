import Mathlib

/-! White space, and decimal and lowercase hexadecimal texts: a text in normal form is
the print of what it reads as. -/

namespace Bore.Numerals

open List

def isWhitespace (c : Char) : Bool :=
  (9 ≤ c.toNat && c.toNat ≤ 13) || c.toNat ∈ [0x20, 0x85, 0xA0, 0x1680, 0x2028, 0x2029, 0x202F, 0x205F, 0x3000] ||
    (0x2000 ≤ c.toNat && c.toNat ≤ 0x200A)

def trim (text : List Char) : List Char := ((text.dropWhile isWhitespace).reverse.dropWhile isWhitespace).reverse

def readDecimal (digits : List Char) : Nat := digits.foldl (fun n c => n * 10 + (c.toNat - '0'.toNat)) 0

theorem toNat_isDigit {c : Char} (h : c.isDigit = true) : 48 ≤ c.toNat ∧ c.toNat ≤ 57 := by
  rw [Char.isDigit, Bool.and_eq_true, decide_eq_true_eq, decide_eq_true_eq] at h
  exact ⟨h.1, h.2⟩

theorem digitChar_sub {c : Char} (h : c.isDigit = true) : Nat.digitChar (c.toNat - 48) = c := by
  obtain ⟨hl, hu⟩ := toNat_isDigit h
  apply Char.toNat_inj.mp
  rw [Nat.toNat_digitChar_of_lt_ten (by omega)]
  omega

theorem toDigits_foldl {cs : List Char} (h : ∀ c ∈ cs, c.isDigit = true) {n : Nat} (hn : 0 < n) :
    Nat.toDigits 10 (cs.foldl (fun n c => n * 10 + (c.toNat - '0'.toNat)) n) = Nat.toDigits 10 n ++ cs := by
  induction cs generalizing n with
  | nil => simp
  | cons c cs ih =>
    have hc := h c mem_cons_self
    obtain ⟨hl, hu⟩ := toNat_isDigit hc
    have hd : c.toNat - 48 < 10 := by omega
    have hp := Nat.toDigits_append_toDigits (b := 10) (n := n) (d := c.toNat - 48) (by decide) hn hd
    rw [Nat.toDigits_of_lt_base hd, digitChar_sub hc, Nat.mul_comm] at hp
    rw [foldl_cons, ih (fun d hd => h d (mem_cons_of_mem _ hd)) (by omega)]
    change Nat.toDigits 10 (n * 10 + (c.toNat - 48)) ++ cs = _
    rw [← hp, append_assoc, singleton_append]

theorem toDigits_readDecimal {cs : List Char} (h : ∀ c ∈ cs, c.isDigit = true) (hne : cs ≠ [])
    (hz : 1 < cs.length → cs.head? ≠ some '0') : Nat.toDigits 10 (readDecimal cs) = cs := by
  cases cs with
  | nil => exact absurd rfl hne
  | cons c cs =>
    have hc := h c mem_cons_self
    obtain ⟨hl, hu⟩ := toNat_isDigit hc
    have hd : c.toNat - 48 < 10 := by omega
    change Nat.toDigits 10 (cs.foldl _ (0 * 10 + (c.toNat - 48))) = _
    rw [Nat.zero_mul, Nat.zero_add]
    cases cs with
    | nil => rw [foldl_nil, Nat.toDigits_of_lt_base hd, digitChar_sub hc]
    | cons =>
      have hpos : 0 < c.toNat - 48 := by
        by_contra hle
        apply hz (by simp)
        have hc48 : c.toNat = '0'.toNat := by
          change c.toNat = 48
          omega
        rw [head?_cons, Char.toNat_inj.mp hc48]
      rw [toDigits_foldl (fun e he => h e (mem_cons_of_mem _ he)) hpos, Nat.toDigits_of_lt_base hd,
        digitChar_sub hc, singleton_append]

theorem readDecimal_toDigits (n : Nat) : readDecimal (Nat.toDigits 10 n) = n := by
  rw [readDecimal]
  simpa [Nat.ofDigitChars_eq_foldl, Nat.mul_comm] using Nat.ofDigitChars_toDigits (b := 10) (n := n) (by decide) (by decide)

def isLowerHex (c : Char) : Bool := c.isDigit || (97 ≤ c.toNat && c.toNat ≤ 102)

def hexValue (c : Char) : Option Nat :=
  if c.isDigit then some (c.toNat - 48)
  else if 97 ≤ c.toNat && c.toNat ≤ 102 then some (c.toNat - 87)
  else if 65 ≤ c.toNat && c.toNat ≤ 70 then some (c.toNat - 55)
  else none

def hexDecode : List Char → Option (List UInt8)
  | [] => some []
  | [_] => none
  | high :: low :: rest =>
    match hexValue high, hexValue low, hexDecode rest with
    | some h, some l, some bytes => some (UInt8.ofNat (16 * h + l) :: bytes)
    | _, _, _ => none

def hexEncode : List UInt8 → List Char
  | [] => []
  | b :: rest => Nat.digitChar (b.toNat / 16) :: Nat.digitChar (b.toNat % 16) :: hexEncode rest

theorem hexValue_lower {c : Char} (h : isLowerHex c = true) :
    ∃ n, hexValue c = some n ∧ n < 16 ∧ Nat.digitChar n = c := by
  rw [isLowerHex, Bool.or_eq_true] at h
  by_cases hd : c.isDigit = true
  · obtain ⟨hl, hu⟩ := toNat_isDigit hd
    exact ⟨c.toNat - 48, by rw [hexValue, if_pos hd], by omega, digitChar_sub hd⟩
  have hb := h.resolve_left hd
  have hr : 97 ≤ c.toNat ∧ c.toNat ≤ 102 := by simpa using hb
  refine ⟨c.toNat - 87, by rw [hexValue, if_neg hd, if_pos hb], by omega, ?_⟩
  apply Char.toNat_inj.mp
  have hn : c.toNat = 97 ∨ c.toNat = 98 ∨ c.toNat = 99 ∨ c.toNat = 100 ∨ c.toNat = 101 ∨ c.toNat = 102 := by
    omega
  rcases hn with hn | hn | hn | hn | hn | hn <;> rw [hn] <;> rfl

theorem hexDecode_lower {n : Nat} {cs : List Char} (hlen : cs.length = n * 2) (h : ∀ c ∈ cs, isLowerHex c = true) :
    ∃ bytes, hexDecode cs = some bytes ∧ bytes.length = n ∧ hexEncode bytes = cs := by
  induction n generalizing cs with
  | zero =>
    have hnil : cs = [] := length_eq_zero_iff.mp (by omega)
    subst hnil
    exact ⟨[], rfl, rfl, rfl⟩
  | succ n ih =>
    obtain ⟨a, b, rest, rfl⟩ : ∃ a b rest, cs = a :: b :: rest := by
      match cs, hlen with
      | [], hl => simp at hl
      | [a], hl =>
        rw [length_singleton] at hl
        omega
      | a :: b :: rest, _ => exact ⟨a, b, rest, rfl⟩
    obtain ⟨x, hx, hxl, hxc⟩ := hexValue_lower (h a (by simp))
    obtain ⟨y, hy, hyl, hyc⟩ := hexValue_lower (h b (by simp))
    simp only [length_cons] at hlen
    have hrest : rest.length = n * 2 := by omega
    obtain ⟨bytes, hb, hbl, hbe⟩ := ih hrest (fun c hc => h c (by simp [hc]))
    refine ⟨UInt8.ofNat (16 * x + y) :: bytes, by simp only [hexDecode, hx, hy, hb], by simp [hbl], ?_⟩
    have hv : (UInt8.ofNat (16 * x + y)).toNat = 16 * x + y := by
      rw [UInt8.toNat_ofNat_of_lt']
      change 16 * x + y < 256
      omega
    rw [hexEncode, hv, hbe, show (16 * x + y) / 16 = x by omega, show (16 * x + y) % 16 = y by omega, hxc, hyc]

end Bore.Numerals
