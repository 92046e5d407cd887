import Bore.Checks

/-! JSON values and their text with sorted keys and no blanks. The way a number is
written is a parameter. -/

namespace Bore.JsonText

open List

def utf8Len (cs : List Char) : Nat := (cs.map Char.utf8Size).sum

def units (c : Char) : List Nat :=
  if c.toNat < 0x10000 then [c.toNat]
  else [0xD800 + (c.toNat - 0x10000) / 0x400, 0xDC00 + (c.toNat - 0x10000) % 0x400]

theorem utf8Len_ascii {cs : List Char} (h : ∀ c ∈ cs, c.toNat < 0x80) : utf8Len cs = cs.length := by
  induction cs with
  | nil => rfl
  | cons c _ ih =>
    have hc : c.utf8Size = 1 := by
      rw [Char.utf8Size_eq_one_iff]
      exact Nat.le_of_lt_succ (h c mem_cons_self)
    have ht := ih (fun d hd => h d (mem_cons_of_mem _ hd))
    rw [utf8Len] at ht
    rw [utf8Len, map_cons, sum_cons, ht, hc, length_cons, Nat.add_comm]

def utf16 (cs : List Char) : List Nat := cs.flatMap units

/-- An integer of 64 bits, or a binary64 number with its integral value when it
has one. -/
inductive Number
  | posInt (n : UInt64)
  | negInt (n : Int64)
  | float (whole : Option Int)
  deriving DecidableEq

/-- An object is read as a map: of two members with one key the first counts. -/
inductive Json
  | null
  | bool (b : Bool)
  | number (n : Number)
  | string (s : String)
  | array (items : List Json)
  | object (fields : List (String × Json))

abbrev Fields := List (String × Json)

def Json.field? (key : String) : Json → Option Json
  | .object fields => fields.lookup key
  | _ => none

section Sorted

variable {α : Type}

def insertField (key : String) (value : α) : List (String × α) → List (String × α)
  | [] => [(key, value)]
  | (k, v) :: rest =>
    if key < k then (key, value) :: (k, v) :: rest
    else if key = k then (key, value) :: rest
    else (k, v) :: insertField key value rest

def SortedFields (l : List (String × α)) : Prop := l.Pairwise (fun f g => f.1 < g.1)

variable {key : String} {value : α} {l : List (String × α)} {f : String × α}

theorem mem_insertField (h : f ∈ insertField key value l) : f = (key, value) ∨ f ∈ l := by
  induction l with
  | nil => exact .inl (mem_singleton.mp h)
  | cons _ _ ih =>
    rw [insertField] at h
    split at h
    · exact mem_cons.mp h
    split at h
    · exact (mem_cons.mp h).imp_right (mem_cons_of_mem _)
    · rcases mem_cons.mp h with rfl | h
      · exact .inr mem_cons_self
      · exact (ih h).imp_right (mem_cons_of_mem _)

theorem sorted_insertField (h : SortedFields l) : SortedFields (insertField key value l) := by
  induction l with
  | nil => exact pairwise_singleton _ _
  | cons _ _ ih =>
    obtain ⟨hg, hr⟩ := pairwise_cons.mp h
    rw [insertField]
    split
    · next hlt =>
        refine pairwise_cons.mpr ⟨fun f hf => ?_, h⟩
        rcases mem_cons.mp hf with rfl | hf
        · exact hlt
        · exact lt_trans hlt (hg f hf)
    next hnlt =>
      split
      · next heq =>
          subst heq
          exact pairwise_cons.mpr ⟨hg, hr⟩
      next hne =>
        refine pairwise_cons.mpr ⟨fun f hf => ?_, ih hr⟩
        rcases mem_insertField hf with rfl | hf
        · exact lt_of_le_of_ne (not_lt.mp hnlt) (Ne.symm hne)
        · exact hg f hf

theorem lookup_cons (k : String) (f : String × α) (l : List (String × α)) :
    lookup k (f :: l) = if k = f.1 then some f.2 else l.lookup k := by
  by_cases hk : k = f.1
  · have hb : (k == f.1) = true := beq_iff_eq.mpr hk
    simp only [lookup, hb, if_pos hk]
  · have hb : (k == f.1) = false := beq_eq_false_iff_ne.mpr hk
    simp only [lookup, hb, if_neg hk]

theorem lookup_insertField (key : String) (value : α) (l : List (String × α)) (k : String) :
    (insertField key value l).lookup k = if k = key then some value else l.lookup k := by
  induction l with
  | nil => rw [insertField, lookup_cons]
  | cons g _ ih =>
    rw [insertField]
    split
    · rw [lookup_cons]
    split
    · next heq =>
        rw [lookup_cons, lookup_cons, ← heq]
        by_cases hk : k = key
        · rw [if_pos hk, if_pos hk]
        · rw [if_neg hk, if_neg hk, if_neg hk]
    next hne =>
      rw [lookup_cons, lookup_cons, ih]
      by_cases hk : k = g.1
      · rw [if_pos hk, if_pos hk, if_neg (fun h => hne (h.symm.trans hk))]
      · rw [if_neg hk, if_neg hk]

variable {k : String}

theorem lookup_eq_none (h : ∀ f ∈ l, k ≠ f.1) : l.lookup k = none := by
  induction l with
  | nil => rfl
  | cons g _ ih =>
    rw [lookup_cons, if_neg (h g mem_cons_self)]
    exact ih (fun f hf => h f (mem_cons_of_mem _ hf))

theorem lookup_below (h : SortedFields (f :: l)) (hk : k < f.1) : lookup k (f :: l) = none := by
  apply lookup_eq_none
  intro e he
  rcases mem_cons.mp he with rfl | he
  · exact ne_of_lt hk
  · exact ne_of_lt (lt_trans hk ((pairwise_cons.mp h).1 e he))

theorem eq_of_lookup_eq {m : List (String × α)} (hl : SortedFields l) (hm : SortedFields m)
    (h : ∀ k, l.lookup k = m.lookup k) : l = m := by
  induction l generalizing m with
  | nil =>
    cases m with
    | nil => rfl
    | cons g =>
      have hg := h g.1
      rw [lookup_cons, if_pos rfl] at hg
      nomatch hg
  | cons f l ih =>
    cases m with
    | nil =>
      have hf := h f.1
      rw [lookup_cons, if_pos rfl] at hf
      nomatch hf
    | cons g =>
      have hf := h f.1
      have hg := h g.1
      rw [lookup_cons, if_pos rfl] at hf
      rw [lookup_cons _ g, if_pos rfl] at hg
      -- the least key of one list is found in the other, so the heads agree
      have hk : f.1 = g.1 := by
        rcases lt_trichotomy f.1 g.1 with hlt | heq | hgt
        · rw [lookup_below hm hlt] at hf
          nomatch hf
        · exact heq
        · rw [lookup_below hl hgt] at hg
          nomatch hg
      have hv : f.2 = g.2 := by
        rw [lookup_cons, if_pos hk] at hf
        exact Option.some.inj hf
      obtain ⟨hfl, hl⟩ := pairwise_cons.mp hl
      obtain ⟨hgm, hm⟩ := pairwise_cons.mp hm
      rw [Prod.ext hk hv]
      congr 1
      apply ih hl hm
      intro k
      by_cases hkf : k = f.1
      · rw [hkf, lookup_eq_none (fun e he => ne_of_lt (hfl e he)), hk, lookup_eq_none (fun e he => ne_of_lt (hgm e he))]
      · have hk' := h k
        rwa [lookup_cons, lookup_cons, if_neg hkf, if_neg (fun h => hkf (h.trans hk.symm))] at hk'

end Sorted

def escapeChar (c : Char) : List Char :=
  let n := c.toNat
  if n = 0x22 then ['\\', c]
  else if n = 0x5C then ['\\', c]
  else if n = 0x08 then ['\\', 'b']
  else if n = 0x09 then ['\\', 't']
  else if n = 0x0A then ['\\', 'n']
  else if n = 0x0C then ['\\', 'f']
  else if n = 0x0D then ['\\', 'r']
  else if n < 0x20 then ['\\', 'u', '0', '0', Nat.digitChar (n / 16), Nat.digitChar (n % 16)]
  else [c]

def quote (s : String) : String :=
  String.ofList (Char.ofNat 0x22 :: s.toList.flatMap escapeChar ++ [Char.ofNat 0x22])

section Injective

def hexDigitValue (c : Char) : Nat := if c.isDigit then c.toNat - 48 else c.toNat - 87

def unescapeHead : List Char → Char × List Char
  | '\\' :: 'u' :: _ :: _ :: high :: low :: rest => (Char.ofNat (16 * hexDigitValue high + hexDigitValue low), rest)
  | '\\' :: 'b' :: rest => (Char.ofNat 0x08, rest)
  | '\\' :: 't' :: rest => (Char.ofNat 0x09, rest)
  | '\\' :: 'n' :: rest => (Char.ofNat 0x0A, rest)
  | '\\' :: 'f' :: rest => (Char.ofNat 0x0C, rest)
  | '\\' :: 'r' :: rest => (Char.ofNat 0x0D, rest)
  | '\\' :: c :: rest => (c, rest)
  | c :: rest => (c, rest)
  | [] => ('\\', [])

theorem unescapeHead_escapeChar (c : Char) (rest : List Char) : unescapeHead (escapeChar c ++ rest) = (c, rest) := by
  have hcode {n : Nat} (h : c.toNat = n) : Char.ofNat n = c := by rw [← h, Char.ofNat_toNat]
  simp only [escapeChar]
  iterate 7
    split
    · next h => rw [← hcode h]; rfl
  split
  · next h =>
    have hall : ∀ n < 0x20, 16 * hexDigitValue (Nat.digitChar (n / 16)) + hexDigitValue (Nat.digitChar (n % 16)) = n := by
      decide
    simp only [cons_append, nil_append, unescapeHead, hall _ h, Char.ofNat_toNat]
  · next hb _ _ _ _ _ _ =>
    have hne : c ≠ '\\' := fun h => hb (h ▸ rfl)
    rw [singleton_append]
    unfold unescapeHead
    split <;> simp_all

theorem flatMap_escapeChar_inj {a b : List Char} (h : a.flatMap escapeChar = b.flatMap escapeChar) : a = b := by
  have hne (c : Char) (rest : List Char) : escapeChar c ++ rest ≠ [] := by
    simp only [escapeChar]
    split_ifs <;> simp
  induction a generalizing b with
  | nil =>
    cases b with
    | nil => rfl
    | cons d => exact absurd h.symm (hne d _)
  | cons c a ih =>
    cases b with
    | nil => exact absurd h (hne c _)
    | cons d b =>
      have hhead := congrArg unescapeHead h
      rw [flatMap_cons, flatMap_cons, unescapeHead_escapeChar, unescapeHead_escapeChar, Prod.mk.injEq] at hhead
      rw [hhead.1, ih hhead.2]

theorem quote_injective : Function.Injective quote := by
  intro a b h
  have hlist := String.ofList_injective h
  rw [cons_append, cons_append, cons.injEq, append_cancel_right_eq] at hlist
  exact String.toList_injective (flatMap_escapeChar_inj hlist.2)

end Injective

def writeMembers : List (String × Except String String) → Except String (List String)
  | [] => .ok []
  | (key, text) :: rest => do
    let text ← text
    let texts ← writeMembers rest
    .ok ((quote key ++ ":" ++ text) :: texts)

mutual

def write (number : Number → Except String String) : Json → Except String String
  | .null => .ok "null"
  | .bool b => .ok (if b then "true" else "false")
  | .number n => number n
  | .string s => .ok (quote s)
  | .array items => do
    let texts ← writeItems number items
    .ok ("[" ++ ",".intercalate texts ++ "]")
  | .object fields => do
    let texts ← writeMembers (writeFields number fields)
    .ok ("\x7b" ++ ",".intercalate texts ++ "\x7d")

def writeItems (number : Number → Except String String) : List Json → Except String (List String)
  | [] => .ok []
  | item :: rest => do
    let text ← write number item
    let texts ← writeItems number rest
    .ok (text :: texts)

def writeFields (number : Number → Except String String) : Fields → List (String × Except String String)
  | [] => []
  | (key, value) :: rest => insertField key (write number value) (writeFields number rest)

end

variable {number : Number → Except String String}

theorem write_string (s : String) : write number (.string s) = .ok (quote s) := by rw [write]

theorem sorted_writeFields (fields : Fields) : SortedFields (writeFields number fields) := by
  induction fields with
  | nil => exact List.Pairwise.nil
  | cons _ _ ih =>
    exact sorted_insertField ih

theorem lookup_writeFields (fields : Fields) (k : String) :
    (writeFields number fields).lookup k = (fields.lookup k).map (write number) := by
  induction fields with
  | nil => rfl
  | cons f _ ih =>
    rw [writeFields, lookup_insertField, lookup_cons, ih]
    by_cases hk : k = f.1
    · rw [if_pos hk, if_pos hk, Option.map_some]
    · rw [if_neg hk, if_neg hk]

theorem writeFields_sorted {fields : Fields} (h : SortedFields fields) :
    writeFields number fields = fields.map (fun f => (f.1, write number f.2)) := by
  induction fields with
  | nil => rw [writeFields, map_nil]
  | cons f rest ih =>
    obtain ⟨hf, hrest⟩ := pairwise_cons.mp h
    rw [writeFields, ih hrest, map_cons]
    cases rest with
    | nil => rfl
    | cons g =>
      rw [map_cons, insertField, if_pos (hf g mem_cons_self)]

variable {f g : Fields}

theorem write_object_congr (h : ∀ k, (f.lookup k).map (write number) = (g.lookup k).map (write number)) :
    write number (.object f) = write number (.object g) := by
  have hw : writeFields number f = writeFields number g := by
    apply eq_of_lookup_eq (sorted_writeFields f) (sorted_writeFields g)
    intro k
    rw [lookup_writeFields, lookup_writeFields, h k]
  rw [write, write, hw]

theorem write_object_congr_of_keys {keys : List String} (hf : ∀ x ∈ f, x.1 ∈ keys)
    (hg : ∀ x ∈ g, x.1 ∈ keys) (h : ∀ k ∈ keys, (f.lookup k).map (write number) = (g.lookup k).map (write number)) :
    write number (.object f) = write number (.object g) := by
  apply write_object_congr
  intro k
  by_cases hk : k ∈ keys
  · exact h k hk
  · rw [lookup_eq_none (fun x hx he => hk (by rw [he]; exact hf x hx)), lookup_eq_none (fun x hx he => hk (by rw [he]; exact hg x hx))]

theorem write_array_congr {l m : List Json} (h : List.Forall₂ (fun v w => write number v = write number w) l m) :
    write number (.array l) = write number (.array m) := by
  have hw : writeItems number l = writeItems number m := by
    induction h with
    | nil => rfl
    | cons hvw _ ih => rw [writeItems, writeItems, hvw, ih]
  rw [write, write, hw]

section HasText

def HasText (v : Json) : Prop := ∃ text, ∀ number, write number v = .ok text

theorem hasText_null : HasText .null := ⟨"null", fun _ => by rw [write]⟩

theorem hasText_string (s : String) : HasText (.string s) := ⟨quote s, fun _ => write_string s⟩

theorem hasText_array {items : List Json} (h : ∀ v ∈ items, HasText v) : HasText (.array items) := by
  have hw : ∃ texts, ∀ number, writeItems number items = .ok texts := by
    induction items with
    | nil => exact ⟨[], fun _ => by rw [writeItems]⟩
    | cons v _ ih =>
      obtain ⟨text, ht⟩ := h v mem_cons_self
      obtain ⟨texts, hts⟩ := ih (fun w hw => h w (mem_cons_of_mem _ hw))
      refine ⟨text :: texts, fun number => ?_⟩
      rw [writeItems, ht, hts]
      rfl
  obtain ⟨texts, ht⟩ := hw
  refine ⟨"[" ++ ",".intercalate texts ++ "]", fun number => ?_⟩
  rw [write, ht]
  rfl

def written (f : String × String) : String × Except String String := (f.1, .ok f.2)

theorem insertField_written (key text : String) (l : List (String × String)) :
    insertField key (.ok text) (l.map written) = (insertField key text l).map written := by
  induction l with
  | nil => rfl
  | cons _ _ ih =>
    rw [map_cons, written, insertField, insertField]
    split
    · rfl
    split
    · rfl
    · rw [ih]
      rfl

theorem writeMembers_written (l : List (String × String)) :
    writeMembers (l.map written) = .ok (l.map (fun f => quote f.1 ++ ":" ++ f.2)) := by
  induction l with
  | nil => rfl
  | cons _ _ ih =>
    rw [map_cons, written, writeMembers, ih]
    rfl

theorem hasText_object {fields : Fields} (h : ∀ f ∈ fields, HasText f.2) : HasText (.object fields) := by
  have hw : ∃ l : List (String × String), ∀ number, writeFields number fields = l.map written := by
    induction fields with
    | nil => exact ⟨[], fun _ => by rw [writeFields, map_nil]⟩
    | cons f _ ih =>
      obtain ⟨text, ht⟩ := h f mem_cons_self
      obtain ⟨l, hl⟩ := ih (fun g hg => h g (mem_cons_of_mem _ hg))
      refine ⟨insertField f.1 text l, fun number => ?_⟩
      rw [writeFields, ht, hl, insertField_written]
  obtain ⟨l, hl⟩ := hw
  refine ⟨"\x7b" ++ ",".intercalate (l.map (fun f => quote f.1 ++ ":" ++ f.2)) ++ "\x7d", fun number => ?_⟩
  rw [write, hl, writeMembers_written]
  rfl

end HasText

end Bore.JsonText
