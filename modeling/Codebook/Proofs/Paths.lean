/-
# Paths and their text

A path is cut at the first point, the last opening bracket and the first `]='`, and each name then
loses the white space around it. What a path is cut into can be cut out of its own text again: a
group has no point, the name of a meta-field no opening bracket, and none of the names of a field's
path holds the mark before its value. So a path that was read is read from its text once more, and
the paths that are read from their text are the ones with such names.

Key definitions: `IsName`, `valueMark`, `DictionaryPath.Readable`, `MetaFieldPath.Readable`,
`FieldPath.Readable`, `AnyPath.Readable`.
Key theorems: `Text.splitFirst_ok`, `Text.splitFirst_append`, `Text.trimChars_trimChars`,
`isName_of_readName`, `AnyPath.readable_of_read`, `AnyPath.read_of_readable`,
`AnyPath.read_own_text`.
-/
import Codebook.Path.Any
import Codebook.Proofs.Directory
import Codebook.Proofs.Schema
import Mathlib.Data.List.DropRight
import Mathlib.Data.List.Infix

namespace Codebook

/-! ### Cutting text -/

namespace Text

theorem dropStart_eq_some {mark cs rest : List Char} :
    dropStart mark cs = some rest ↔ cs = mark ++ rest := by
  refine ⟨fun h => ?_, fun h => h ▸ dropStart_append mark rest⟩
  induction mark generalizing cs with
  | nil => cases cs <;> simp_all [dropStart]
  | cons m mark ih =>
    cases cs with
    | nil => simp [dropStart] at h
    | cons c cs =>
      simp only [dropStart, Option.ite_none_right_eq_some] at h
      obtain ⟨rfl, h⟩ := h
      rw [ih h, List.cons_append]

theorem dropStart_eq_none {mark cs : List Char} : dropStart mark cs = none ↔ ¬ mark <+: cs := by
  rw [Option.eq_none_iff_forall_ne_some]
  refine ⟨fun h ⟨rest, hrest⟩ => h rest (dropStart_eq_some.mpr hrest.symm), fun h rest hrest => ?_⟩
  exact h ⟨rest, (dropStart_eq_some.mp hrest).symm⟩

/-- The first mark is cut out: no other one begins before it, not even one that would end in it. -/
theorem splitFirst_ok {mark : List Char} (hmark : mark ≠ []) :
    ∀ {cs before after : List Char}, splitFirst mark cs = some (before, after) →
      cs = before ++ mark ++ after ∧ ¬ mark <:+: before ++ mark.dropLast
  | [], before, after, h => by
    simp [splitFirst, hmark] at h
  | c :: cs, before, after, h => by
    rw [splitFirst] at h
    split at h
    · rename_i rest hrest
      obtain ⟨rfl, rfl⟩ := Prod.mk.inj (Option.some.inj h)
      refine ⟨dropStart_eq_some.mp hrest, fun hwithin => ?_⟩
      have hlength := hwithin.length_le
      have hpos := List.length_pos_of_ne_nil hmark
      simp only [List.nil_append, List.length_dropLast] at hlength
      omega
    · rename_i hnone
      obtain ⟨⟨before, after⟩, hsplit, heq⟩ := Option.map_eq_some_iff.mp h
      obtain ⟨rfl, rfl⟩ := Prod.mk.inj heq
      obtain ⟨rfl, hfirst⟩ := splitFirst_ok hmark hsplit
      refine ⟨rfl, fun hwithin => ?_⟩
      rcases List.infix_cons_iff.mp hwithin with hstart | hwithin
      · refine dropStart_eq_none.mp hnone (hstart.trans ?_)
        rw [List.append_assoc]
        exact (List.prefix_append_right_inj (c :: before)).mpr
          ((List.dropLast_prefix mark).trans (List.prefix_append mark after))
      · exact hfirst hwithin

theorem splitFirst_append {mark : List Char} (hmark : mark ≠ []) (after : List Char) :
    ∀ {before : List Char}, ¬ mark <:+: before ++ mark.dropLast →
      splitFirst mark (before ++ mark ++ after) = some (before, after)
  | [], _ => by
    obtain ⟨c, cs, rfl⟩ := List.exists_cons_of_ne_nil hmark
    have hdrop := dropStart_append (c :: cs) after
    simp only [List.nil_append, List.cons_append] at hdrop ⊢
    simp only [splitFirst, hdrop]
  | c :: before, h => by
    have hnone : dropStart mark (c :: before ++ mark ++ after) = none := by
      refine dropStart_eq_none.mpr fun hstart => h (List.IsPrefix.isInfix ?_)
      refine List.prefix_of_prefix_length_le hstart ?_ ?_
      · rw [List.append_assoc]
        exact (List.prefix_append_right_inj _).mpr
          ((List.dropLast_prefix mark).trans (List.prefix_append mark after))
      · simp only [List.length_append, List.length_cons, List.length_dropLast]
        omega
    have hrest := splitFirst_append hmark after fun hwithin => h (List.infix_cons hwithin)
    simp only [List.cons_append] at hnone ⊢
    simp only [splitFirst, hnone, hrest, Option.map_some]

theorem splitLast_eq_none {mark : Char} {cs : List Char} : splitLast mark cs = none ↔ mark ∉ cs := by
  induction cs with
  | nil => simp [splitLast]
  | cons c cs ih =>
    rw [splitLast]
    split
    · rename_i hsome
      have hmem : mark ∈ cs := by
        by_contra hmark
        rw [ih.mpr hmark] at hsome
        exact absurd hsome (by simp)
      simp [hmem]
    · rename_i hnone
      simp [ih.mp hnone, eq_comm]

theorem splitLast_ok {mark : Char} : ∀ {cs before after : List Char},
    splitLast mark cs = some (before, after) → cs = before ++ mark :: after ∧ mark ∉ after
  | c :: cs, before, after, h => by
    rw [splitLast] at h
    split at h
    · rename_i b a hsplit
      obtain ⟨rfl, rfl⟩ := Prod.mk.inj (Option.some.inj h)
      obtain ⟨rfl, hlast⟩ := splitLast_ok hsplit
      exact ⟨rfl, hlast⟩
    · rename_i hnone
      simp only [Option.ite_none_right_eq_some] at h
      obtain ⟨rfl, heq⟩ := h
      obtain ⟨rfl, rfl⟩ := Prod.mk.inj (Option.some.inj heq)
      exact ⟨rfl, splitLast_eq_none.mp hnone⟩

theorem splitLast_append {mark : Char} {after : List Char} (h : mark ∉ after) :
    ∀ before : List Char, splitLast mark (before ++ mark :: after) = some (before, after)
  | [] => by simp [splitLast, splitLast_eq_none.mpr h]
  | c :: before => by simp [splitLast, splitLast_append h before]

theorem dropEnd_eq_some {mark : Char} {cs rest : List Char} :
    dropEnd mark cs = some rest ↔ cs = rest ++ [mark] := by
  rw [dropEnd]
  split
  · rename_i c ds hreverse
    rw [List.reverse_eq_cons_iff.mp hreverse, Option.ite_none_right_eq_some]
    simp [and_comm]
  · rename_i hnil
    rw [List.reverse_eq_nil_iff.mp hnil]
    simp

/-! ### White space around names -/

theorem trimChars_infix (cs : List Char) : trimChars cs <:+: cs := by
  have hback : (trimChars cs).reverse <:+ (dropSpace cs).reverse := by
    rw [trimChars, List.reverse_reverse]
    exact List.dropWhile_suffix _
  exact ((List.reverse_suffix.mp hback).isInfix).trans (List.dropWhile_suffix _).isInfix

/-- Nothing is left to take away from what was trimmed. -/
theorem trimChars_trimChars (cs : List Char) : trimChars (trimChars cs) = trimChars cs := by
  have hback : dropSpace (trimChars cs).reverse = (trimChars cs).reverse := by
    rw [trimChars, List.reverse_reverse]
    exact List.dropWhile_idempotent _ _
  have hstart : trimChars cs <+: dropSpace cs := by
    refine List.reverse_suffix.mp ?_
    rw [trimChars, List.reverse_reverse]
    exact List.dropWhile_suffix _
  have hfront : dropSpace (trimChars cs) = trimChars cs := by
    refine List.dropWhile_eq_self_iff.mpr fun hpos => ?_
    rw [hstart.getElem hpos]
    exact List.dropWhile_eq_self_iff.mp (List.dropWhile_idempotent isSpace cs)
      (hpos.trans_le hstart.length_le)
  rw [trimChars, hfront, hback, List.reverse_reverse]

theorem trimChars_of_isBlank {cs : List Char} (h : cs.all isSpace) : trimChars cs = [] := by
  have hfront : dropSpace cs = [] :=
    List.dropWhile_eq_nil_iff.mpr (List.all_eq_true.mp h)
  rw [trimChars, hfront]
  rfl

end Text

/-- A name that a path can hold: it is not blank, and there is no white space around it. -/
structure IsName (s : String) : Prop where
  not_blank : Text.isBlank s = false
  trimmed : Text.trim s = s

theorem IsName.trimChars {s : String} (h : IsName s) : Text.trimChars s.toList = s.toList := by
  rw [← String.toList_ofList (l := Text.trimChars s.toList)]
  exact congrArg String.toList h.trimmed

theorem IsName.toList_ne_nil {s : String} (h : IsName s) : s.toList ≠ [] := by
  intro hnil
  have hblank := h.not_blank
  simp [Text.isBlank, hnil] at hblank

theorem isName_ofList_trimChars {cs : List Char} (h : Text.trimChars cs ≠ []) :
    IsName (String.ofList (Text.trimChars cs)) where
  not_blank := by
    refine Bool.eq_false_iff.mpr fun hblank => h ?_
    rw [Text.isBlank, String.toList_ofList] at hblank
    rw [← Text.trimChars_trimChars, Text.trimChars_of_isBlank hblank]
  trimmed := by
    rw [Text.trim, String.toList_ofList, Text.trimChars_trimChars]

/-- What a path takes for a name is one, and stands in the path as it is. -/
theorem isName_of_readName {path what s : String} {cs : List Char}
    (h : readName path cs what = .ok s) : IsName s ∧ s.toList <:+: cs := by
  simp only [readName] at h
  split at h
  · cases h
  · rename_i hne
    cases h
    rw [String.toList_ofList]
    exact ⟨isName_ofList_trimChars fun hnil => hne (by rw [hnil]; rfl), Text.trimChars_infix cs⟩

theorem IsName.readName_eq {s : String} (h : IsName s) (path what : String) :
    readName path s.toList what = .ok s := by
  simp [readName, h.trimChars, h.toList_ne_nil, List.isEmpty_iff]

/-! ### The mark before a value -/

/-- A mark that does not have the character between two parts is in one of them. -/
theorem infix_append_cons_iff {mark before after : List Char} {c : Char} (hc : c ∉ mark) :
    mark <:+: before ++ c :: after ↔ mark <:+: before ∨ mark <:+: after := by
  constructor
  · intro h
    rcases List.infix_append_iff.mp h with h | h | ⟨start, rest, rfl, hstart, hrest⟩
    · exact .inl h
    · rcases List.infix_cons_iff.mp h with h | h
      · cases mark with
        | nil => exact .inl (List.nil_infix)
        | cons m mark => exact absurd ((List.cons_prefix_cons.mp h).1 ▸ List.mem_cons_self) hc
      · exact .inr h
    · cases rest with
      | nil => exact .inl (by rw [List.append_nil]; exact hstart.isInfix)
      | cons m rest =>
        have hm : m = c := (List.cons_prefix_cons.mp hrest).1
        exact absurd (hm ▸ List.mem_append_right start List.mem_cons_self) hc
  · rintro (h | h)
    · exact h.trans (List.prefix_append before (c :: after)).isInfix
    · exact h.trans ((List.suffix_cons c after).trans (List.suffix_append before _)).isInfix

/-- A mark whose last character is not in what follows does not reach into it. -/
theorem infix_append_iff_of_notMem {mark before after : List Char} {c : Char} (hc : c ∉ after) :
    mark ++ [c] <:+: before ++ after ↔ mark ++ [c] <:+: before := by
  refine ⟨fun h => ?_, fun h => h.trans (List.prefix_append before after).isInfix⟩
  rcases List.infix_append_iff.mp h with h | h | ⟨start, rest, heq, hstart, hrest⟩
  · exact h
  · exact absurd (h.subset (by simp)) hc
  · rcases rest.eq_nil_or_concat' with rfl | ⟨rest, d, rfl⟩
    · rw [heq, List.append_nil]
      exact hstart.isInfix
    · have hd : c = d := by simpa using congrArg List.getLast? heq
      exact absurd (hrest.subset (by simp [hd])) hc

/-- The mark between the name of a field and its value. -/
def valueMark : List Char :=
  "]='".toList

theorem valueMark_infix_append_iff {cs : List Char} :
    valueMark <:+: cs ++ valueMark.dropLast ↔ valueMark <:+: cs :=
  @infix_append_iff_of_notMem [']', '='] cs valueMark.dropLast '\'' (by decide)

/-! ### Paths that are read from their text -/

/-- Names that the text of a dictionary's path keeps apart. -/
structure DictionaryPath.Readable (p : DictionaryPath) : Prop where
  group : IsName p.group
  dictionary : IsName p.dictionary
  pointless : '.' ∉ p.group.toList

/-- Names that the text of a meta-field's path keeps apart. -/
structure MetaFieldPath.Readable (p : MetaFieldPath) : Prop where
  dictionary : p.dictionary.Readable
  field : IsName p.field
  unbracketed : '[' ∉ p.field.toList

/-- Names that the text of a field's path keeps apart, from each other and from its value. -/
structure FieldPath.Readable (p : FieldPath) : Prop where
  metaField : p.metaField.Readable
  group : ¬ valueMark <:+: p.metaField.dictionary.group.toList
  dictionary : ¬ valueMark <:+: p.metaField.dictionary.dictionary.toList
  field : ¬ valueMark <:+: p.metaField.field.toList

/-- Paths whose text keeps their parts apart. -/
def AnyPath.Readable : AnyPath → Prop
  | dictionary p => p.Readable
  | metaField p => p.Readable
  | field p => p.Readable

namespace DictionaryPath

theorem toList_toText (p : DictionaryPath) :
    p.toText.toList = p.group.toList ++ ['.'] ++ p.dictionary.toList := by
  simp [toText, String.toList_append]

theorem readable_of_read {s : String} {p : DictionaryPath} (h : read s = .ok p) :
    p.Readable ∧ p.group.toList <:+: s.toList ∧ p.dictionary.toList <:+: s.toList := by
  rw [read] at h
  split at h
  · cases h
  · rename_i before after hsplit
    obtain ⟨group, hgroup, h⟩ := bind_eq_ok.mp h
    obtain ⟨dictionary, hdictionary, h⟩ := bind_eq_ok.mp h
    cases h
    obtain ⟨hs, hfirst⟩ := Text.splitFirst_ok (by simp) hsplit
    obtain ⟨hgroup, hbefore⟩ := isName_of_readName hgroup
    obtain ⟨hdictionary, hafter⟩ := isName_of_readName hdictionary
    have hpoint : '.' ∉ before := by
      simpa [List.singleton_infix_iff] using hfirst
    refine ⟨⟨hgroup, hdictionary, fun hmem => hpoint (hbefore.subset hmem)⟩, ?_, ?_⟩ <;> rw [hs]
    · rw [List.append_assoc]
      exact hbefore.trans (List.prefix_append before _).isInfix
    · exact hafter.trans (List.suffix_append _ after).isInfix

theorem read_of_readable {p : DictionaryPath} (h : p.Readable) : read p.toText = .ok p := by
  have hsplit : Text.splitFirst ['.'] p.toText.toList =
      some (p.group.toList, p.dictionary.toList) := by
    rw [toList_toText]
    exact Text.splitFirst_append (by simp) _ (by simpa [List.singleton_infix_iff] using h.pointless)
  rw [read, hsplit]
  simp only [h.group.readName_eq, h.dictionary.readName_eq]
  rfl

end DictionaryPath

namespace MetaFieldPath

theorem toList_toText (p : MetaFieldPath) :
    p.toText.toList = p.dictionary.toText.toList ++ '[' :: p.field.toList ++ [']'] := by
  simp [toText, String.toList_append]

theorem readable_of_read {s : String} {p : MetaFieldPath} (h : read s = .ok p) :
    p.Readable ∧ p.dictionary.group.toList <:+: s.toList ∧
      p.dictionary.dictionary.toList <:+: s.toList ∧ p.field.toList <:+: s.toList := by
  rw [read] at h
  split at h
  · cases h
  rename_i body hbody
  split at h
  · cases h
  rename_i before after hsplit
  obtain ⟨dictionary, hdictionary, h⟩ := bind_eq_ok.mp h
  obtain ⟨field, hfield, h⟩ := bind_eq_ok.mp h
  cases h
  obtain ⟨hdictionary, hgroup, hname⟩ := DictionaryPath.readable_of_read hdictionary
  obtain ⟨hfield, hafter⟩ := isName_of_readName hfield
  obtain ⟨hcut, hlast⟩ := Text.splitLast_ok hsplit
  rw [String.toList_ofList] at hgroup hname
  have hs : s.toList = before ++ ('[' :: after ++ [']']) := by
    rw [Text.dropEnd_eq_some.mp hbody, hcut]
    simp
  have hfront : before <:+: s.toList := hs ▸ (List.prefix_append before _).isInfix
  have hback : after <:+: s.toList := ⟨before ++ ['['], [']'], by rw [hs]; simp⟩
  exact ⟨⟨hdictionary, hfield, fun hmem => hlast (hafter.subset hmem)⟩, hgroup.trans hfront,
    hname.trans hfront, hafter.trans hback⟩

theorem read_of_readable {p : MetaFieldPath} (h : p.Readable) : read p.toText = .ok p := by
  have hbody : Text.dropEnd ']' p.toText.toList =
      some (p.dictionary.toText.toList ++ '[' :: p.field.toList) := by
    rw [toList_toText]
    exact Text.dropEnd_eq_some.mpr rfl
  rw [read, hbody]
  simp only [Text.splitLast_append h.unbracketed, String.ofList_toList,
    DictionaryPath.read_of_readable h.dictionary, h.field.readName_eq]
  rfl

end MetaFieldPath

namespace FieldPath

theorem toList_toText (p : FieldPath) :
    p.toText.toList =
      p.metaField.dictionary.toText.toList ++ '[' :: p.metaField.field.toList ++ valueMark ++
        (p.value.toList ++ ['\'']) := by
  simp [toText, MetaFieldPath.toText, String.toList_append, valueMark]

theorem readable_of_read {s : String} {p : FieldPath} (h : read s = .ok p) : p.Readable := by
  rw [read] at h
  split at h
  · cases h
  rename_i before after hsplit
  split at h
  · cases h
  rename_i value hvalue
  obtain ⟨metaField, hmetaField, h⟩ := bind_eq_ok.mp h
  cases h
  obtain ⟨-, hfirst⟩ := Text.splitFirst_ok (by decide) hsplit
  obtain ⟨hmetaField, hgroup, hdictionary, hfield⟩ := MetaFieldPath.readable_of_read hmetaField
  rw [String.toList_ofList] at hgroup hdictionary hfield
  have hmark : ¬ valueMark <:+: before ++ [']'] := fun hwithin => by
    refine hfirst (hwithin.trans (List.IsPrefix.isInfix ⟨['='], ?_⟩))
    simp
  exact ⟨hmetaField, fun h => hmark (h.trans hgroup), fun h => hmark (h.trans hdictionary),
    fun h => hmark (h.trans hfield)⟩

theorem read_of_readable {p : FieldPath} (h : p.Readable) : read p.toText = .ok p := by
  have hmark : ¬ valueMark <:+: (p.metaField.dictionary.toText.toList ++
      '[' :: p.metaField.field.toList) ++ valueMark.dropLast := by
    rw [valueMark_infix_append_iff, infix_append_cons_iff (by decide),
      DictionaryPath.toList_toText, List.append_assoc, List.singleton_append,
      infix_append_cons_iff (by decide)]
    exact not_or.mpr ⟨not_or.mpr ⟨h.group, h.dictionary⟩, h.field⟩
  have hsplit : Text.splitFirst valueMark p.toText.toList =
      some (p.metaField.dictionary.toText.toList ++ '[' :: p.metaField.field.toList,
        p.value.toList ++ ['\'']) := by
    rw [toList_toText]
    exact Text.splitFirst_append (by decide) _ hmark
  have hvalue : Text.dropEnd '\'' (p.value.toList ++ ['\'']) = some p.value.toList :=
    Text.dropEnd_eq_some.mpr rfl
  rw [read, ← valueMark, hsplit]
  simp only [hvalue, ← MetaFieldPath.toList_toText, String.ofList_toList,
    MetaFieldPath.read_of_readable h.metaField]
  rfl

end FieldPath

namespace AnyPath

theorem readable_of_read {k : PathKind} {s : String} {p : AnyPath} (h : read k s = .ok p) :
    p.kind = k ∧ p.Readable := by
  cases k <;> obtain ⟨q, hq, rfl⟩ := map_eq_ok.mp h
  · exact ⟨rfl, (DictionaryPath.readable_of_read hq).1⟩
  · exact ⟨rfl, (MetaFieldPath.readable_of_read hq).1⟩
  · exact ⟨rfl, FieldPath.readable_of_read hq⟩

theorem read_of_readable {p : AnyPath} (h : p.Readable) : read p.kind p.toText = .ok p := by
  cases p with
  | dictionary p => exact map_eq_ok.mpr ⟨p, DictionaryPath.read_of_readable h, rfl⟩
  | metaField p => exact map_eq_ok.mpr ⟨p, MetaFieldPath.read_of_readable h, rfl⟩
  | field p => exact map_eq_ok.mpr ⟨p, FieldPath.read_of_readable h, rfl⟩

/-- **A path that was read is read from its own text again, and the paths that their text gives
back are those whose names are names, with no point in the group, no opening bracket in the field
and no mark of a value in any of the three before a value.** -/
theorem read_own_text (k : PathKind) (p : AnyPath) :
    (∀ s, read k s = .ok p → read k p.toText = .ok p) ∧
      (read k p.toText = .ok p ↔ p.kind = k ∧ p.Readable) := by
  have hback : p.kind = k ∧ p.Readable → read k p.toText = .ok p := by
    rintro ⟨rfl, h⟩
    exact read_of_readable h
  exact ⟨fun s h => hback (readable_of_read h), readable_of_read, hback⟩

/-- A path with white space around its names, points, brackets and apostrophes in them, and all of
these and the mark of a value in its value. -/
theorem read_own_text_of_tangled :
    let p := ofParts "geo" "world.[old]'s" (some "it's.a") (some "x]='y'.[z]='")
    read .field " geo . world.[old]'s [it's.a ]='x]='y'.[z]=''" = .ok p ∧
      read .field p.toText = .ok p ∧ p.Readable := by
  intro p
  have hread : read .field " geo . world.[old]'s [it's.a ]='x]='y'.[z]=''" = .ok p := by
    decide
  have hagain := (read_own_text .field p).1 _ hread
  exact ⟨hread, hagain, ((read_own_text .field p).2.mp hagain).2⟩

end AnyPath

end Codebook
