import Bore.HttpGate
import Bore.Numerals

/-! Byte sizes with a unit, as the flags of the direct path take and show them. -/

namespace Bore.HumanSizes

open List HttpGate Numerals

def iecUnits : List (Nat × Text) :=
  [(1024 * 1024 * 1024, "GiB".toList), (1024 * 1024, "MiB".toList), (1024, "KiB".toList)]

def formatIecSize (bytes : UInt64) : Text :=
  match iecUnits.find? (fun u => u.1 ≤ bytes.toNat && bytes.toNat % u.1 == 0) with
  | some u => Nat.toDigits 10 (bytes.toNat / u.1) ++ u.2
  | none => Nat.toDigits 10 bytes.toNat

def multiplier (suffix : Text) : Option Nat :=
  match suffix.map Char.toLower with
  | [] | ['b'] => some 1
  | ['k'] | ['k', 'b'] => some 1000
  | ['m'] | ['m', 'b'] => some 1000000
  | ['g'] | ['g', 'b'] => some 1000000000
  | ['k', 'i'] | ['k', 'i', 'b'] => some 1024
  | ['m', 'i'] | ['m', 'i', 'b'] => some (1024 * 1024)
  | ['g', 'i'] | ['g', 'i', 'b'] => some (1024 * 1024 * 1024)
  | _ => none

def checked (n : Nat) : Option Nat := if n < 2 ^ 64 then some n else none

def parseU64 (number : Text) : Option Nat := if number = [] then none else checked (readDecimal number)

def parseSizeBytes (value : Text) : Option Nat :=
  let trimmed := trim value
  if trimmed = [] then none
  else do
    let bytes ← parseU64 (trimmed.takeWhile Char.isDigit)
    let unit ← multiplier (trim (trimmed.dropWhile Char.isDigit))
    checked (bytes * unit)

theorem checked_eq_some_iff {n m : Nat} : checked n = some m ↔ m = n ∧ n < 2 ^ 64 := by
  unfold checked
  split <;> grind

def blank (text : Text) : Prop := ∀ c ∈ text, isWhitespace c = true

theorem exists_trim (text : Text) : ∃ before after, text = before ++ trim text ++ after ∧ blank before ∧ blank after := by
  have hsplit (l : Text) : l.takeWhile isWhitespace ++ l.dropWhile isWhitespace = l := takeWhile_append_dropWhile
  refine ⟨text.takeWhile isWhitespace, ((text.dropWhile isWhitespace).reverse.takeWhile isWhitespace).reverse, ?_,
    fun c hc => mem_takeWhile_imp hc, fun c hc => mem_takeWhile_imp (mem_reverse.mp hc)⟩
  rw [trim, append_assoc, ← reverse_append, hsplit, reverse_reverse, hsplit]

theorem trim_eq_self {text : Text} (h : ∀ c ∈ text, isWhitespace c = false) : trim text = text := by
  have hdrop : ∀ l : Text, (∀ c ∈ l, isWhitespace c = false) → l.dropWhile isWhitespace = l := by
    intro l hl
    rw [dropWhile_eq_self_iff]
    intro hpos
    simp [hl _ (getElem_mem hpos)]
  rw [trim, hdrop _ h, hdrop _ (fun c hc => h c (mem_reverse.mp hc)), reverse_reverse]

theorem isWhitespace_ascii {c : Char} (h : 0x21 ≤ c.toNat ∧ c.toNat < 0x80) : isWhitespace c = false := by
  simp [isWhitespace]
  omega

/-- A number and a unit are read back, if their product fits. -/
theorem parseSizeBytes_append {n unit : Nat} {suffix : Text} (hd : suffix.takeWhile Char.isDigit = [])
    (hw : ∀ c ∈ suffix, 0x21 ≤ c.toNat ∧ c.toNat < 0x80) (hu : multiplier suffix = some unit) (hn : n < 2 ^ 64)
    (hlt : n * unit < 2 ^ 64) : parseSizeBytes (Nat.toDigits 10 n ++ suffix) = some (n * unit) := by
  have hdigit (c : Char) (hc : c ∈ Nat.toDigits 10 n) : c.isDigit = true :=
    Nat.isDigit_of_mem_toDigits (by decide) (by decide) hc
  have hdrop : suffix.dropWhile Char.isDigit = suffix := by
    have := takeWhile_append_dropWhile (p := Char.isDigit) (l := suffix)
    rwa [hd, nil_append] at this
  have hblank (c : Char) (hc : c ∈ suffix) : isWhitespace c = false := isWhitespace_ascii (hw c hc)
  have htrim : trim (Nat.toDigits 10 n ++ suffix) = Nat.toDigits 10 n ++ suffix := by
    refine trim_eq_self (forall_mem_append.mpr ⟨fun c hc => isWhitespace_ascii ?_, hblank⟩)
    have := toNat_isDigit (hdigit c hc)
    omega
  unfold parseSizeBytes parseU64
  dsimp only
  rw [htrim, takeWhile_append_of_pos hdigit, dropWhile_append_of_pos hdigit, hd, hdrop, append_nil, trim_eq_self hblank, hu,
    readDecimal_toDigits]
  have hne : Nat.toDigits 10 n ++ suffix ≠ [] := append_ne_nil_of_left_ne_nil Nat.toDigits_ne_nil _
  rw [if_neg hne, if_neg Nat.toDigits_ne_nil, checked, if_pos hn]
  exact if_pos hlt

/-- The units of a size, in lower case. -/
def units : List (String × Nat) :=
  [("", 1), ("b", 1), ("k", 1000), ("kb", 1000), ("m", 1000000), ("mb", 1000000), ("g", 1000000000), ("gb", 1000000000),
    ("ki", 1024), ("kib", 1024), ("mi", 1048576), ("mib", 1048576), ("gi", 1073741824), ("gib", 1073741824)]

theorem mem_units {suffix : Text} {unit : Nat} (h : multiplier suffix = some unit) :
    (String.ofList (suffix.map Char.toLower), unit) ∈ units := by
  unfold multiplier at h
  split at h
  case h_15 => cases h
  all_goals
    rename_i hs
    cases h
    rw [hs]
    decide

theorem sizes_round_trip :
    (∀ n : UInt64, parseSizeBytes (formatIecSize n) = some n.toNat) ∧
    ∀ value m, parseSizeBytes value = some m → ∃ before number gap suffix after unit,
      value = before ++ (number ++ (gap ++ suffix ++ after)) ∧ blank before ∧ blank gap ∧ blank after ∧
      number ≠ [] ∧ (∀ c ∈ number, c.isDigit = true) ∧
      (String.ofList (suffix.map Char.toLower), unit) ∈ units ∧      m = readDecimal number * unit ∧ m < 2 ^ 64 := by
  refine ⟨fun n => ?_, fun value m h => ?_⟩
  · have hn := n.toNat_lt
    unfold formatIecSize
    split
    · next u hu =>
        have hmem := mem_of_find?_eq_some hu
        have hu := find?_some hu
        simp only [Bool.and_eq_true, decide_eq_true_eq, beq_iff_eq] at hu
        have hmul : n.toNat / u.1 * u.1 = n.toNat := Nat.div_mul_cancel (Nat.dvd_of_mod_eq_zero hu.2)
        have hall : ∀ u ∈ iecUnits, u.2.takeWhile Char.isDigit = [] ∧ (∀ c ∈ u.2, 0x21 ≤ c.toNat ∧ c.toNat < 0x80) ∧
            multiplier u.2 = some u.1 := by simp [iecUnits, multiplier]
        obtain ⟨hd, hw, hm⟩ := hall u hmem
        rw [parseSizeBytes_append hd hw hm ((Nat.div_le_self _ _).trans_lt hn) (hmul.trans_lt hn), hmul]
    · have h : parseSizeBytes (Nat.toDigits 10 n.toNat ++ []) = some (n.toNat * 1) :=
        parseSizeBytes_append rfl nofun rfl hn (by rwa [mul_one])
      rwa [append_nil, mul_one] at h
  · obtain ⟨before, after, hvalue, hbefore, hafter⟩ := exists_trim value
    unfold parseSizeBytes parseU64 at h
    generalize trim value = trimmed at h hvalue
    obtain ⟨gap, rest, hsuffix, hgap, hrest⟩ := exists_trim (trimmed.dropWhile Char.isDigit)
    simp only [Option.ite_none_left_eq_some, Option.bind_eq_bind, Option.bind_eq_some_iff, checked_eq_some_iff] at h
    obtain ⟨-, _, ⟨hne, rfl, -⟩, unit, hunit, rfl, hlt⟩ := h
    have hsplit : trimmed.takeWhile Char.isDigit ++ trimmed.dropWhile Char.isDigit = trimmed := takeWhile_append_dropWhile
    refine ⟨before, _, gap, _, rest ++ after, unit, ?_, hbefore, hgap, forall_mem_append.mpr ⟨hrest, hafter⟩, hne,
      fun c hc => mem_takeWhile_imp hc, mem_units hunit, rfl, hlt⟩
    rw [← append_assoc (gap ++ _), ← hsuffix, ← append_assoc, append_assoc before,
      ← append_assoc (takeWhile _ _), hsplit, ← append_assoc]
    exact hvalue

end Bore.HumanSizes
