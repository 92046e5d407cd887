import Bore.ManifestReading

/-! The text the server stores for an offer against the text its MAC was computed
over. -/

namespace Bore.WebManifest

open Checks JsonText List
open PageManifest (plainTables sampleLimits fileJob manifestOf readField signedText entryValues readFields)
open RegistryOps (parseDecimalU64)

variable {t : Tables} {limits : ManifestLimits} {number : Number → Except String String}

section Entry

variable {kind : ManifestKind} {position : Nat}

variable {chunks : List Digest}

theorem parseChunks_eq {items : List Json} (h : parseChunks items = .ok chunks) :
    items = chunks.map (fun chunk => .string (hexText chunk)) := by
  induction items generalizing chunks with
  | nil =>
    cases h
    rfl
  | cons item _ ih =>
    cases item with
    | string =>
      simp only [parseChunks, bind_ok_iff] at h
      obtain ⟨chunk, hc, chunks', hr, he⟩ := h
      cases he
      rw [map_cons, hexText_of_parseHexId hc, ← ih hr]
    | null | bool | number | array | object => nomatch h

theorem parseRoot_eq {size chunkCount : Nat} {value : Json} {root : Option Digest}
    (h : parseRoot t position size chunkCount chunks (some value) = .ok root) : value = rootValue root := by
  cases value with
  | null =>
    simp only [parseRoot, bind_ok_iff] at h
    obtain ⟨_, _, he⟩ := h
    cases he
    rfl
  | string =>
    simp only [parseRoot, bind_ok_iff] at h
    obtain ⟨bytes, hb, _, _, _, _, he⟩ := h
    cases he
    rw [rootValue, hexText_of_parseHexId hb]
  | bool | number | array | object => nomatch h

variable {entry : Json} {e : ManifestEntry}

section

variable (h : parseEntry t kind position entry = .ok e)
include h

theorem parseEntry_fields : ∃ obj, entry = .object obj ∧ (∀ f ∈ obj, f.1 ∈ entryFields) ∧
      ∀ k ∈ entryFields, obj.lookup k = (entryValue e).field? k := by
  simp only [parseEntry, bind_ok_iff, getStr_ok_iff, getArray_ok_iff] at h
  obtain ⟨obj, hobj, id, ⟨ids, hids, hid⟩, _, _, _, _, path, hpath, _, _, size, ⟨sizes, hsizes, hsize⟩, mtime,
    ⟨mtimes, hmtimes, hmtime⟩, items, hitems, chunks, hchunks, _, _, chunkCount, ⟨counts, hcounts, hcount⟩, _, _,
    root, hroot, _, _, he⟩ := h
  obtain ⟨rfl, hkeys, hpresent⟩ := exactObject_ok_iff.mp hobj
  cases he
  refine ⟨obj, rfl, hkeys, fun k hk => ?_⟩
  simp only [entryFields, mem_cons, not_mem_nil, or_false] at hk
  rcases hk with rfl | rfl | rfl | rfl | rfl | rfl | rfl
  · rw [hids, ← toString_of_parseDecimalU64 hid]
    rfl
  · rw [hpath]
    rfl
  · rw [hsizes, ← toString_of_parseDecimalU64 hsize]
    rfl
  · rw [hmtimes, ← toString_of_parseDecimalU64 hmtime]
    rfl
  · rw [hitems, parseChunks_eq hchunks]
    rfl
  · rw [hcounts, ← toString_of_parseDecimalU64 hcount]
    rfl
  · obtain ⟨value, hv⟩ := Option.ne_none_iff_exists'.mp (hpresent "root" (by decide))
    rw [hv] at hroot ⊢
    rw [parseRoot_eq hroot]
    rfl

theorem write_entry : write number entry = write number (entryValue e) := by
  obtain ⟨obj, rfl, hkeys, hfields⟩ := parseEntry_fields h
  apply write_object_congr_of_keys hkeys
  · intro x hx
    simp only [mem_cons, not_mem_nil, or_false] at hx
    rcases hx with rfl | rfl | rfl | rfl | rfl | rfl | rfl <;> simp [entryFields]
  · intro k hk
    rw [hfields k hk]
    rfl

theorem page_entryValue : PageManifest.entryValue entry = .ok (entryValue e) := by
  obtain ⟨obj, rfl, _, hfields⟩ := parseEntry_fields h
  have hf : ∀ k ∈ entryFields, ∀ value, (entryValue e).field? k = some value →
      readField obj k = .ok (k, value) := by
    intro k hk value hv
    rw [readField, hfields k hk, hv]
  simp only [PageManifest.entryValue, readFields, hf "chunkCount" (by decide) _ rfl,
    hf "chunks" (by decide) _ rfl, hf "id" (by decide) _ rfl, hf "mtime" (by decide) _ rfl, hf "path" (by decide) _ rfl,
    hf "root" (by decide) _ rfl, hf "size" (by decide) _ rfl]
  rfl

end

end Entry

section Manifest

variable {kind : ManifestKind}

variable {items : List Json}

theorem parseEntries_forall₂ {position total : Nat} {prev : Option String}
    {read : List ManifestEntry × Nat} (h : parseEntries t kind position total prev items = .ok read) :
    List.Forall₂ (fun item e => ∃ position, parseEntry t kind position item = .ok e) items read.1 := by
  induction items generalizing position total prev read with
  | nil =>
    cases h
    exact .nil
  | cons _ _ ih =>
    simp only [parseEntries, bind_ok_iff] at h
    obtain ⟨e, he, _, _, _, _, _, _, read', hr, hread⟩ := h
    cases hread
    exact .cons ⟨position, he⟩ (ih hr)

theorem page_entryValues {entries : List ManifestEntry}
    (h : List.Forall₂ (fun item e => ∃ position, parseEntry t kind position item = .ok e) items entries) :
    entryValues items = .ok (entries.map entryValue) := by
  induction h with
  | nil => rfl
  | cons he _ ih =>
    obtain ⟨position, he⟩ := he
    rw [entryValues, page_entryValue he, ih]
    rfl

variable {s : String}

theorem asStr_of_parse {mode : ManifestMode} (h : ManifestMode.parse s = .ok mode) : mode.asStr = s := by
  rw [ManifestMode.parse] at h
  split at h
  · next hs =>
      cases h
      exact hs.symm
  split at h
  · next hs =>
      cases h
      exact hs.symm
  · nomatch h

theorem kind_asStr_of_parse (h : ManifestKind.parse s = .ok kind) : kind.asStr = s := by
  rw [ManifestKind.parse] at h
  split at h
  · next hs =>
      cases h
      exact hs.symm
  split at h
  · next hs =>
      cases h
      exact hs.symm
  split at h
  · next hs =>
      cases h
      exact hs.symm
  · nomatch h

theorem validateLabel_eq {label label' : String} (h : validateLabel t label = .ok label') : label' = tidyLabel t label := by
  rw [validateLabel] at h
  split at h
  · nomatch h
  split at h
  · nomatch h
  split at h
  · nomatch h
  · cases h
    rfl

def Manifest.sent (m : Manifest) (label : String) : Manifest := { m with label := label }

variable {m : Manifest}

theorem parseManifest_fields {v : Json} (h : parseManifest t limits v = .ok m) :
    ∃ obj label items, v = .object obj ∧ (∀ f ∈ obj, f.1 ∈ manifestFields) ∧
      obj.lookup "label" = some (.string label) ∧ m.label = tidyLabel t label ∧
      obj.lookup "entries" = some (.array items) ∧
      List.Forall₂ (fun item e => ∃ position, parseEntry t m.kind position item = .ok e) items m.entries ∧
      ∀ k ∈ manifestFields, k ≠ "entries" → obj.lookup k = (manifestValue (m.sent label)).field? k := by
  simp only [parseManifest, bind_ok_iff, getStr_ok_iff, getArray_ok_iff] at h
  obtain ⟨obj, hobj, offer, ⟨offers, hoffers, hoffer⟩, mode, ⟨modes, hmodes, hmode⟩, label', ⟨label, hlabel, hl⟩,
    kind, ⟨kinds, hkinds, hkind⟩, chunkSize, ⟨sizes, hsizes, hsize⟩, _, _, createdAt, hcreated, _, _,
    items, hitems, _, _, _, _, read, hread, _, _, _, _, _, _, he⟩ := h
  obtain ⟨rfl, hkeys, _⟩ := exactObject_ok_iff.mp hobj
  cases he
  refine ⟨obj, label, items, rfl, hkeys, hlabel, validateLabel_eq hl, hitems, parseEntries_forall₂ hread, ?_⟩
  intro k hk hne
  simp only [manifestFields, mem_cons, not_mem_nil, or_false] at hk
  rcases hk with rfl | rfl | rfl | rfl | rfl | rfl | rfl
  · rw [hoffers, ← hexText_of_parseHexId hoffer]
    rfl
  · rw [hmodes, ← asStr_of_parse hmode]
    rfl
  · rw [hlabel]
    rfl
  · rw [hkinds, ← kind_asStr_of_parse hkind]
    rfl
  · rw [hsizes, ← toString_of_parseDecimalU64 hsize]
    rfl
  · rw [hcreated]
    rfl
  · exact absurd rfl hne

theorem write_manifest {v : Json} (h : parseManifest t limits v = .ok m) :
    ∃ label, v.field? "label" = some (.string label) ∧ m.label = tidyLabel t label ∧
      PageManifest.manifestValue v = .ok (manifestValue (m.sent label)) ∧
      ∀ number, write number v = write number (manifestValue (m.sent label)) := by
  obtain ⟨obj, label, items, rfl, hkeys, hlabel, htidy, hitems, hentries, hfields⟩ := parseManifest_fields h
  refine ⟨label, hlabel, htidy, ?_, fun number => ?_⟩
  · have hf : ∀ k ∈ manifestFields, k ≠ "entries" → ∀ value, (manifestValue (m.sent label)).field? k = some value →
        readField obj k = .ok (k, value) := by
      intro k hk hne value hv
      rw [readField, hfields k hk hne, hv]
    have ha : getArray obj "manifest" "entries" = .ok items := getArray_ok_iff.mpr hitems
    simp only [PageManifest.manifestValue, readFields, hf "chunkSize" (by decide) (by decide) _ rfl,
      hf "createdAt" (by decide) (by decide) _ rfl, hf "kind" (by decide) (by decide) _ rfl,
      hf "label" (by decide) (by decide) _ rfl, hf "mode" (by decide) (by decide) _ rfl,
      hf "offer" (by decide) (by decide) _ rfl, ha]
    change (entryValues items >>= _) = _
    rw [page_entryValues hentries]
    rfl
  · apply write_object_congr_of_keys hkeys
    · intro x hx
      simp only [mem_cons, not_mem_nil, or_false] at hx
      rcases hx with rfl | rfl | rfl | rfl | rfl | rfl | rfl <;> simp [manifestFields]
    · intro k hk
      by_cases hke : k = "entries"
      · subst hke
        rw [hitems]
        change some (write number (.array items)) = some (write number (.array (m.entries.map entryValue)))
        congr 1
        apply write_array_congr
        rw [forall₂_map_right_iff]
        exact hentries.imp (fun _ _ ⟨_, he⟩ => write_entry he)
      · rw [hfields k hk hke]
        rfl

theorem hasText_entryValue (e : ManifestEntry) : HasText (entryValue e) := by
  apply hasText_object
  intro f hf
  simp only [mem_cons, not_mem_nil, or_false] at hf
  rcases hf with rfl | rfl | rfl | rfl | rfl | rfl | rfl
  any_goals exact hasText_string _
  · apply hasText_array
    intro v hv
    obtain ⟨chunk, _, rfl⟩ := mem_map.mp hv
    exact hasText_string _
  · cases e.root with
    | none => exact hasText_null
    | some => exact hasText_string _

/-- The label stands alone in the text of a manifest. -/
theorem text_manifestValue (m : Manifest) : ∃ before after, ∀ number label,
    write number (manifestValue (m.sent label)) = .ok (before ++ quote label ++ after) := by
  have hentries : HasText (.array (m.entries.map entryValue)) := by
    apply hasText_array
    intro v hv
    obtain ⟨e, _, rfl⟩ := mem_map.mp hv
    exact hasText_entryValue e
  obtain ⟨entries, he⟩ := hentries
  have hkeys : ["chunkSize", "createdAt", "entries", "kind", "label", "mode", "offer"].Pairwise (· < ·) := by
    decide +kernel
  refine ⟨"\x7b" ++ quote "chunkSize" ++ ":" ++ quote (toString m.chunkSize) ++ "," ++ quote "createdAt" ++ ":" ++
      quote m.createdAt ++ "," ++ quote "entries" ++ ":" ++ entries ++ "," ++ quote "kind" ++ ":" ++ quote m.kind.asStr ++
      "," ++ quote "label" ++ ":",
    "," ++ quote "mode" ++ ":" ++ quote m.mode.asStr ++ "," ++ quote "offer" ++ ":" ++ quote (hexText m.offer) ++ "\x7d",
    fun number label => ?_⟩
  rw [manifestValue, write, writeFields_sorted]
  · have hjoin (a b c d e f g : String) : ",".intercalate [a, b, c, d, e, f, g] =
        a ++ "," ++ b ++ "," ++ c ++ "," ++ d ++ "," ++ e ++ "," ++ f ++ "," ++ g := rfl
    simp only [map_cons, map_nil, Manifest.sent, he, write_string, writeMembers, Except.bind, bind, hjoin, String.append_assoc]
  · rw [SortedFields, ← pairwise_map (f := Prod.fst)]
    exact hkeys

/-- The page signs the canonical text of an accepted manifest, and the server
stores that text exactly if the label is normalized and trimmed. -/
theorem stored_manifest_is_signed {v : Json} {m : Manifest} (h : parseManifest t limits v = .ok m) :
    ∃ label, v.field? "label" = some (.string label) ∧ Accepts (canonicalJson v) ∧
      signedText v = canonicalJson v ∧ storedText t limits v = canonicalJson (manifestValue m) ∧
      (canonicalJson (manifestValue m) = canonicalJson v ↔ tidyLabel t label = label) := by
  obtain ⟨label, hlabel, htidy, hpage, hwrite⟩ := write_manifest h
  obtain ⟨before, after, htext⟩ := text_manifestValue m
  have hv : canonicalJson v = .ok (before ++ quote label ++ after) :=
    (hwrite canonicalNumber).trans (htext canonicalNumber label)
  have hm : canonicalJson (manifestValue m) = .ok (before ++ quote m.label ++ after) := htext canonicalNumber m.label
  refine ⟨label, hlabel, ⟨_, hv⟩, ?_, ?_, ?_⟩
  · rw [signedText, hpage, hv]
    exact htext PageManifest.canonicalizeNumber label
  · rw [storedText, h]
    rfl
  · rw [hm, hv, ← htidy]
    constructor
    · intro he
      have hlist := congrArg String.toList (Except.ok.inj he)
      simp only [String.toList_append, append_cancel_right_eq, append_cancel_left_eq] at hlist
      exact quote_injective (String.toList_injective hlist)
    · rintro rfl
      rfl

end Manifest

section Samples

/-- A file whose name starts with a blank is offered under a label the server
trims: the page signs one text and the room sees another. -/
theorem blank_label_breaks_the_mac : Accepts (PageManifest.prepareOffer plainTables sampleLimits (fileJob " a")) ∧
      Accepts (storedText plainTables sampleLimits (manifestOf (fileJob " a"))) ∧
      storedText plainTables sampleLimits (manifestOf (fileJob " a")) ≠
        canonicalJson (manifestOf (fileJob " a")) ∧
      signedText (manifestOf (fileJob " a")) =
        canonicalJson (manifestOf (fileJob " a")) := by
  decide +kernel

theorem stored_manifest_is_signed_plain :
    ∃ m, parseManifest plainTables sampleLimits (manifestOf (fileJob "a")) = .ok m ∧
      canonicalJson (manifestValue m) = canonicalJson (manifestOf (fileJob "a")) := by
  have ha : Accepts (parseManifest plainTables sampleLimits (manifestOf (fileJob "a"))) := by
    decide +kernel
  obtain ⟨m, hm⟩ := ha
  obtain ⟨label, hlabel, -, -, -, hiff⟩ := stored_manifest_is_signed hm
  have hl : (manifestOf (fileJob "a")).field? "label" = some (.string "a") := rfl
  cases hl.symm.trans hlabel
  exact ⟨m, hm, hiff.mpr (by decide +kernel)⟩

end Samples

end Bore.WebManifest
