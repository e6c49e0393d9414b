/-
# Lines of entities

Every entity is written on a line of its own and read from it with all its collections. No text of
plain data holds a character below the blank, so none of its bytes can end a line, and none of the
lines is blank. A file of such lines is therefore cut where it was put together, and what is read of it
is the store that was written.

Key definitions: `EntityKind.Proper`, `Indexed.Legible`, `LineStore.Holds`.
Key theorems: `EntityKind.legible`, `Json.printable_chars`, `LineStore.linesOf_append`,
`MemoryStore.putAll_toList`, `LineStore.holds_toText`.
-/
import Codebook.Proofs.Notation
import Codebook.Proofs.Snapshots
import Codebook.Store.Lines

namespace Codebook

/-! ### Entities with their collections -/

/-- The last change is of the calendar. -/
def Field.Proper (f : Field) : Prop :=
  f.history.changeDate.Proper

/-- The same for a column and its values. Its numbers are of 32 bits. -/
def MetaField.Proper (m : MetaField) : Prop :=
  m.history.changeDate.Proper ∧ (Number.minInt32 ≤ m.flags ∧ m.flags ≤ Number.maxInt32) ∧
    (Number.minInt32 ≤ m.ordinal ∧ m.ordinal ≤ Number.maxInt32) ∧ ∀ f ∈ m.descendants, f.Proper

/-- The same for a dictionary and its columns. -/
def Dictionary.Proper (d : Dictionary) : Prop :=
  d.history.changeDate.Proper ∧ ∀ m ∈ d.descendants, m.Proper

/-- The same for a group and its dictionaries. -/
def Group.Proper (g : Group) : Prop :=
  g.history.changeDate.Proper ∧ ∀ d ∈ g.descendants, d.Proper

/-- The last change is of the calendar. -/
def RecodeRule.Proper (r : RecodeRule) : Prop :=
  r.history.changeDate.Proper

/-- The same for a rule set and its rules. -/
def RecodeRuleSet.Proper (r : RecodeRuleSet) : Prop :=
  r.history.changeDate.Proper ∧ ∀ rule ∈ r.recodeRules, rule.Proper

/-- The fields stand in the order of their columns, and their last changes are of the calendar. -/
def Record.Proper (r : Record) : Prop :=
  Keyed.Ordered r.fields ∧ ∀ e ∈ r.fields, e.2.Proper

/-- The instants of an entity, in its collections too, are of the calendar, and its numbers are those
of a machine. -/
def EntityKind.Proper : (k : EntityKind) → k.Entity → Prop
  | group => Group.Proper
  | dictionary => Dictionary.Proper
  | metaField => MetaField.Proper
  | field => Field.Proper
  | recodeRuleSet => RecodeRuleSet.Proper
  | recodeRule => RecodeRule.Proper
  | record => Record.Proper

namespace Keyed

variable {α : Type}

/-- An entry after all others is put at the end. -/
theorem insert_last {key : String} {a : α} : ∀ {entries : Keyed α}, (∀ e ∈ entries, e.1 < key) →
    insert key a entries = entries ++ [(key, a)]
  | [], _ => rfl
  | (k, b) :: rest, h => by
    have hk : k < key := h (k, b) List.mem_cons_self
    rw [insert, if_neg hk.ne', if_neg (not_lt.mpr hk.le),
      insert_last fun e he => h e (List.mem_cons_of_mem _ he), List.cons_append]

/-- Entries in order are collected as they are. -/
theorem ofList_of_ordered {entries : Keyed α} (h : Ordered entries) : ofList entries = entries := by
  induction entries using List.reverseRecOn with
  | nil => rfl
  | append_singleton entries e ih =>
    obtain ⟨hentries, -, hlast⟩ := List.pairwise_append.mp h
    have hstep : ofList (entries ++ [e]) = insert e.1 e.2 (ofList entries) := by simp [ofList]
    rw [hstep, ih hentries, insert_last fun e' he' => hlast e' he' e (List.mem_singleton_self e)]

end Keyed

section

variable (form : Form)

theorem Data.toList?_map {α : Type} {write : α → Data} {read : Data → Option α} {xs : List α}
    (h : ∀ a ∈ xs, read (write a) = some a) : (list (xs.map write)).toList? read = some xs :=
  mapM_map h

theorem Field.ofData?_toData {f : Field} (h : f.Proper) : ofData? form f.toData = some f := by
  unfold ofData? toData
  rw [Data.toMembers?_record (by simp) (by simp)]
  simp [History.ofData?_toData h form]

theorem MetaField.ofData?_toData {m : MetaField} (h : m.Proper) : ofData? form m.toData = some m := by
  obtain ⟨hdate, hflags, hordinal, hfields⟩ := h
  have hcolumn := Data.toList?_map fun f hf => Field.ofData?_toData form (hfields f hf)
  unfold ofData? toData
  rw [Data.toMembers?_record (by simp) (by simp)]
  simp [History.ofData?_toData hdate form, Data.toName?_text, MetaFieldType.named?_name,
    Data.toInt32?_int hflags.1 hflags.2, Data.toInt32?_int hordinal.1 hordinal.2, hcolumn]

theorem Dictionary.ofData?_toData {d : Dictionary} (h : d.Proper) :
    ofData? form d.toData = some d := by
  have hcolumns := Data.toList?_map fun m hm => MetaField.ofData?_toData form (h.2 m hm)
  unfold ofData? toData
  rw [Data.toMembers?_record (by simp) (by simp)]
  simp [History.ofData?_toData h.1 form, hcolumns]

theorem Group.ofData?_toData {g : Group} (h : g.Proper) : ofData? form g.toData = some g := by
  have hdictionaries := Data.toList?_map fun d hd => Dictionary.ofData?_toData form (h.2 d hd)
  unfold ofData? toData
  rw [Data.toMembers?_record (by simp) (by simp)]
  simp [History.ofData?_toData h.1 form, hdictionaries]

theorem RecodeRule.ofData?_toData {r : RecodeRule} (h : r.Proper) :
    ofData? form r.toData = some r := by
  unfold ofData? toData
  rw [Data.toMembers?_record (by simp) (by simp)]
  simp [History.ofData?_toData h form]

theorem RecodeRuleSet.ofData?_toData {r : RecodeRuleSet} (h : r.Proper) :
    ofData? form r.toData = some r := by
  have hrules := Data.toList?_map fun rule hrule => RecodeRule.ofData?_toData form (h.2 rule hrule)
  unfold ofData? toData
  rw [Data.toMembers?_record (by simp) (by simp)]
  simp [History.ofData?_toData h.1 form, hrules]

theorem Record.ofData?_toData {r : Record} (h : r.Proper) : ofData? form r.toData = some r := by
  have hfields : fieldsOfData? form (.record (r.fields.map fun e => (e.1, e.2.toData))) =
      some r.fields := by
    have hread : (r.fields.map fun e => (e.1, e.2.toData)).mapM
        (fun m => do return (m.1, ← Field.ofData? form m.2)) = some r.fields :=
      Data.mapM_map fun e he => by simp [Field.ofData?_toData form (h.2 e he)]
    unfold fieldsOfData?
    simp only [Option.bind_eq_bind]
    exact (congrArg (Option.bind · _) hread).trans (congrArg some (Keyed.ofList_of_ordered h.1))
  unfold ofData? toData
  rw [Data.toMembers?_record (by simp) (by simp)]
  simp [hfields]

end

theorem History.notes_toData (h : History) : h.toData.Notes := by
  simp [toData]

theorem Field.notes_toData (f : Field) : f.toData.Notes := by
  simp [toData, History.notes_toData]

theorem MetaField.notes_toData {m : MetaField} (h : m.Proper) : m.toData.Notes := by
  simp [toData, History.notes_toData, Field.notes_toData, Json.fits_int32, h.2.1, h.2.2.1]

theorem Dictionary.notes_toData {d : Dictionary} (h : d.Proper) : d.toData.Notes := by
  have hcolumns : ∀ m ∈ d.descendants, m.toData.Notes := fun m hm => MetaField.notes_toData (h.2 m hm)
  simpa [toData, History.notes_toData] using hcolumns

theorem Group.notes_toData {g : Group} (h : g.Proper) : g.toData.Notes := by
  have hdictionaries : ∀ d ∈ g.descendants, d.toData.Notes :=
    fun d hd => Dictionary.notes_toData (h.2 d hd)
  simpa [toData, History.notes_toData] using hdictionaries

theorem RecodeRule.notes_toData (r : RecodeRule) : r.toData.Notes := by
  simp [toData, History.notes_toData]

theorem RecodeRuleSet.notes_toData (r : RecodeRuleSet) : r.toData.Notes := by
  simp [toData, History.notes_toData, RecodeRule.notes_toData]

theorem Record.notes_toData (r : Record) : r.toData.Notes := by
  have hfields : ∀ m ∈ r.fields.map fun e => (e.1, e.2.toData), m.2.Notes := by
    rw [List.forall_mem_map]
    exact fun e _ => e.2.notes_toData
  simpa [toData] using hfields

/-! ### Entities as text -/

/-- An entity can be written as a record with a text of its own, and is read from it. -/
structure Indexed.Legible {α : Type} [Indexed α] (a : α) : Prop where
  record : ∃ members, Indexed.toData a = .record members
  notes : (Indexed.toData a).Notes
  read : Indexed.ofData? .written (Indexed.toData a) = some a

/-- **The entities of all types are legible**, with whatever is in their collections. -/
theorem EntityKind.legible : ∀ {k : EntityKind} {a : k.Entity}, k.Proper a → Indexed.Legible a
  | group, _, h => ⟨⟨_, rfl⟩, Group.notes_toData h, Group.ofData?_toData .written h⟩
  | dictionary, _, h => ⟨⟨_, rfl⟩, Dictionary.notes_toData h, Dictionary.ofData?_toData .written h⟩
  | metaField, _, h => ⟨⟨_, rfl⟩, MetaField.notes_toData h, MetaField.ofData?_toData .written h⟩
  | field, f, h => ⟨⟨_, rfl⟩, f.notes_toData, Field.ofData?_toData .written h⟩
  | recodeRuleSet, r, h => ⟨⟨_, rfl⟩, r.notes_toData, RecodeRuleSet.ofData?_toData .written h⟩
  | recodeRule, r, h => ⟨⟨_, rfl⟩, r.notes_toData, RecodeRule.ofData?_toData .written h⟩
  | record, r, h => ⟨⟨_, rfl⟩, r.notes_toData, Record.ofData?_toData .written h⟩

theorem Indexed.Legible.ofJson? {α : Type} [Indexed α] {a : α} (h : Legible a) :
    ofJson? α (toJson a) = some a := by
  rw [Indexed.ofJson?, toJson, Data.ofJson?_toJson h.notes, Option.bind_some, h.read]

/-! ### Characters of a text -/

namespace Json

/-- Text without characters below the blank. -/
def Printable (cs : List Char) : Prop :=
  ∀ c ∈ cs, 32 ≤ c.toNat

theorem printable_append {cs ds : List Char} :
    Printable (cs ++ ds) ↔ Printable cs ∧ Printable ds :=
  List.forall_mem_append

theorem printable_cons {c : Char} {cs : List Char} :
    Printable (c :: cs) ↔ 32 ≤ c.toNat ∧ Printable cs :=
  List.forall_mem_cons

theorem printable_nil : Printable [] := by simp [Printable]

theorem printable_escapeChar (c : Char) : Printable (escapeChar c) := by
  have hdigit : ∀ n < 16, 32 ≤ (Text.hexDigit n).toNat := by decide
  unfold escapeChar
  split
  iterate 7 simp [Printable]
  · split_ifs with h
    · have hhigh := hdigit (c.toNat / 16) (by omega)
      have hlow := hdigit (c.toNat % 16) (by omega)
      simp [Printable, codeEscape, hhigh, hlow]
    · exact printable_cons.mpr ⟨Nat.le_of_not_lt h, printable_nil⟩

theorem printable_textChars (s : String) : Printable (textChars s) := by
  have hescaped : Printable (s.toList.flatMap escapeChar) := fun c hc => by
    obtain ⟨d, -, hc⟩ := List.mem_flatMap.mp hc
    exact printable_escapeChar d c hc
  have hquote : Printable ['"'] := by simp [Printable]
  exact printable_append.mpr ⟨printable_cons.mpr ⟨by decide, hescaped⟩, hquote⟩

theorem printable_joined {parts : List (List Char)} (h : ∀ part ∈ parts, Printable part) :
    Printable (joined [','] parts) := by
  induction parts with
  | nil => exact printable_nil
  | cons part parts ih =>
    obtain ⟨hpart, hparts⟩ := List.forall_mem_cons.mp h
    cases parts with
    | nil => exact hpart
    | cons next parts =>
      have hcomma : Printable [','] := by simp [Printable]
      exact printable_append.mpr ⟨printable_append.mpr ⟨hpart, hcomma⟩, ih hparts⟩

theorem printable_int (n : Int) : Printable (toString n).toList := by
  have hdigits : ∀ n, Printable (Nat.toDigits 10 n) := fun n c hc => by
    have hdigit : c.isDigit := Nat.isDigit_of_mem_toDigits (by decide) (by decide) hc
    simp only [Char.isDigit, Bool.and_eq_true, decide_eq_true_eq] at hdigit
    exact (by decide : 32 ≤ '0'.toNat).trans hdigit.1
  cases n with
  | ofNat n => exact toList_ofNat n ▸ hdigits n
  | negSucc n => exact toList_negSucc n ▸ printable_cons.mpr ⟨by decide, hdigits (n + 1)⟩

mutual

/-- **Nothing that is printed holds a character below the blank.** -/
theorem printable_chars : ∀ d : Data, Printable (chars d)
  | .null => by simp [Printable, chars, scalarChars]
  | .bool true => by simp [Printable, chars, scalarChars]
  | .bool false => by simp [Printable, chars, scalarChars]
  | .int n => printable_int n
  | .text s => printable_textChars s
  | .other _ => by simp [Printable, chars, scalarChars]
  | .list items => by
    have hitems := printable_joined (printable_itemChars items)
    have hend : Printable [']'] := by simp [Printable]
    exact printable_append.mpr ⟨printable_cons.mpr ⟨by decide, hitems⟩, hend⟩
  | .record members => by
    have hmembers := printable_joined (printable_memberChars members)
    have hend : Printable ['\x7d'] := by simp [Printable]
    exact printable_append.mpr ⟨printable_cons.mpr ⟨by decide, hmembers⟩, hend⟩

theorem printable_itemChars : ∀ items : List Data, ∀ part ∈ itemChars items, Printable part
  | [] => by simp [itemChars]
  | item :: items => by
    rw [itemChars, List.forall_mem_cons]
    exact ⟨printable_chars item, printable_itemChars items⟩

theorem printable_memberChars : ∀ members : List (String × Data),
    ∀ part ∈ memberChars members, Printable part
  | [] => by simp [memberChars]
  | (name, value) :: members => by
    rw [memberChars, List.forall_mem_cons]
    have hvalue := printable_cons.mpr ⟨(by decide : 32 ≤ ':'.toNat), printable_chars value⟩
    exact ⟨printable_append.mpr ⟨printable_textChars name, hvalue⟩, printable_memberChars members⟩

end

end Json

/-! ### Bytes of a text -/

theorem utf8_append (s t : String) : (s ++ t).toUTF8.toList = s.toUTF8.toList ++ t.toUTF8.toList := by
  simp only [toList_bytes, String.toUTF8_eq_toByteArray, String.toByteArray_append,
    ByteArray.data_append, Array.toList_append]

theorem utf8_ofList (cs : List Char) :
    (String.ofList cs).toUTF8.toList = cs.flatMap String.utf8EncodeChar := by
  simp only [toList_bytes, String.toUTF8_eq_toByteArray, String.toByteArray_ofList, List.utf8Encode]
  simp

/-- The bytes of a character that is not below the blank are not either. -/
theorem le_utf8EncodeChar {c : Char} (h : 32 ≤ c.toNat) : ∀ b ∈ String.utf8EncodeChar c, 32 ≤ b.toNat := by
  intro b hb
  unfold String.utf8EncodeChar at hb
  have hval : c.val.toNat = c.toNat := rfl
  simp only [hval] at hb
  split_ifs at hb <;>
    simp only [List.mem_cons, List.not_mem_nil, or_false] at hb <;>
    rcases hb with rfl | rfl | rfl | rfl <;>
    simp only [UInt8.toNat_ofNat'] <;> omega

theorem le_utf8 {cs : List Char} (h : Json.Printable cs) :
    ∀ b ∈ (String.ofList cs).toUTF8.toList, 32 ≤ b.toNat := by
  rw [utf8_ofList]
  intro b hb
  obtain ⟨c, hc, hb⟩ := List.mem_flatMap.mp hb
  exact le_utf8EncodeChar (h c hc) b hb

/-! ### Lines of a file -/

namespace MemoryStore

variable {α : Type} [Indexed α] {m : MemoryStore α}

/-- Entities that are put in the order of their keys stand in this order. -/
theorem putAll_entities : ∀ {entries : Keyed α} {m : MemoryStore α},
    (∀ e ∈ entries, e.1 = Indexed.id e.2) → Keyed.Ordered (m.entities ++ entries) →
      m.putAll (Keyed.values entries) = { entities := m.entities ++ entries }
  | [], m, _, _ => by simp [putAll, Keyed.values]
  | (key, a) :: entries, m, hkeyed, hordered => by
    obtain ⟨hkey, hrest⟩ := List.forall_mem_cons.mp hkeyed
    have hlast : ∀ e ∈ m.entities, e.1 < Indexed.id a := fun e he =>
      hkey ▸ (List.pairwise_append.mp hordered).2.2 e he (key, a) List.mem_cons_self
    have hput : m.put a = { entities := m.entities ++ [(key, a)] } := by
      rw [put, Keyed.insert_last hlast, ← hkey]
    rw [← List.singleton_append, ← List.append_assoc] at hordered ⊢
    have hall := putAll_entities (m := { entities := m.entities ++ [(key, a)] }) hrest hordered
    rw [← hall, ← hput]
    rfl

/-- **A store is what its entities are put together to**, one after the other. -/
theorem putAll_toList (h : m.Sound) : ({} : MemoryStore α).putAll m.toList = m :=
  putAll_entities h.keyed h.ordered

end MemoryStore

namespace LineStore

variable {α : Type} [Indexed α] {m : MemoryStore α}

/-- **A line is cut at its end**, if no byte in it can end one. -/
theorem linesOf_append {line : List UInt8} (h : ∀ b ∈ line, 32 ≤ b.toNat) (rest : List UInt8) :
    linesOf (line ++ 10 :: rest) = line :: linesOf rest := by
  induction line with
  | nil => rw [List.nil_append, linesOf, if_pos rfl]
  | cons b line ih =>
    obtain ⟨hb, hline⟩ := List.forall_mem_cons.mp h
    have hfeed : b ≠ 10 := by
      rintro rfl
      exact absurd hb (by decide)
    have hreturn : b ≠ 13 := by
      rintro rfl
      exact absurd hb (by decide)
    rw [List.cons_append, linesOf, if_neg hfeed, ih hline]
    simp [hreturn]

/-- The line of an entity. -/
def lineOf (a : α) : List UInt8 :=
  (Indexed.toJson a).toUTF8.toList

theorem le_lineOf (a : α) : ∀ b ∈ lineOf a, 32 ≤ b.toNat :=
  le_utf8 (Json.printable_chars _)

theorem linesOf_toText (m : MemoryStore α) : linesOf (toText m).toUTF8.toList = m.toList.map lineOf := by
  have hbytes : ∀ as : List α, (String.join (as.map fun a => Indexed.toJson a ++ "\n")).toUTF8.toList =
      as.flatMap fun a => lineOf a ++ [10] := by
    intro as
    induction as with
    | nil => exact utf8_ofList []
    | cons a as ih =>
      have hfeed : "\n".toUTF8.toList = [10] := utf8_ofList ['\n']
      rw [List.map_cons, String.join_cons, utf8_append, utf8_append, hfeed, ih]
      rfl
  rw [toText, hbytes]
  induction m.toList with
  | nil => rfl
  | cons a as ih =>
    rw [List.flatMap_cons, List.append_assoc, List.singleton_append, linesOf_append (le_lineOf a), ih,
      List.map_cons]

/-- The line of an entity is not blank. -/
theorem isBlank_toJson {a : α} (h : Indexed.Legible a) : Text.isBlank (Indexed.toJson a) = false := by
  obtain ⟨members, hmembers⟩ := h.record
  rw [Indexed.toJson, hmembers, Data.toJson, Text.isBlank, String.toList_ofList]
  rfl

/-- **The lines of entities are read as the entities**, one after the other. -/
theorem readLines_lineOf : ∀ {as : List α}, (∀ a ∈ as, Indexed.Legible a) → ∀ (m : MemoryStore α) number,
    readLines m number (as.map lineOf) = .ok (m.putAll as)
  | [], _, _, _ => rfl
  | a :: as, h, m, number => by
    obtain ⟨ha, has⟩ := List.forall_mem_cons.mp h
    have htext : String.fromUTF8? ⟨(lineOf a).toArray⟩ = some (Indexed.toJson a) :=
      Cbor.decodeText?_utf8 _
    rw [List.map_cons, readLines, htext]
    simp only [isBlank_toJson ha, ha.ofJson?]
    exact readLines_lineOf has (m.put a) (number + 1)

/-- The bytes of a file are read as these entities. -/
def Holds (bytes : List UInt8) (m : MemoryStore α) : Prop :=
  readLines {} 1 (linesOf bytes) = .ok m

/-- **What is written of a store is read as the store.** -/
theorem holds_toText (hm : m.Sound) (h : ∀ a ∈ m.toList, Indexed.Legible a) :
    Holds (toText m).toUTF8.toList m := by
  rw [Holds, linesOf_toText, readLines_lineOf h, MemoryStore.putAll_toList hm]

end LineStore

end Codebook
