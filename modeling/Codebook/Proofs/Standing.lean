/-
# Documents that stand

An id can be any text. What is put under an id that is not blank takes the place of what was there,
so there is one document for each id whose last edit was a put, and none for the others. A blank id
is no value of the key column and nothing is found under it: what is put under it stays for good,
whatever else is put or removed.

Key definitions: `Edit.leave`, `Edit.standing`, `Edit.unnamed`, `committedEdits`.
Key theorems: `Edit.standing_under`, `Edit.length_standing`, `workAll_standing`,
`EntityKind.documents_of_transactions`.
-/
import Codebook.Proofs.Upkeep
import Mathlib.Data.List.Dedup

namespace Codebook

namespace Edit

variable {α : Type} [Indexed α]

/-! ### Entities that stand -/

/-- The entities that are not found under a key. -/
def clear (key : String) (entities : List α) : List α :=
  if Text.isBlank key then entities else entities.filter fun a => Indexed.id a ≠ key

/-- The entities that stand after an edit. -/
def leave (entities : List α) : Edit α → List α
  | put a => clear (Indexed.id a) entities ++ [a]
  | remove id => clear id entities

/-- The entities that stand after edits. -/
def standing (edits : List (Edit α)) : List α :=
  edits.foldl leave []

/-- The entities that are put under blank ids. -/
def unnamed (edits : List (Edit α)) : List α :=
  edits.filterMap fun e => if Text.isBlank e.key then e.left? else none

variable {entities : List α} {id id' : String}

theorem filter_clear (hid : Text.isBlank id = false) :
    (clear id' entities).filter (fun a => Indexed.id a = id) =
      if id = id' then [] else entities.filter fun a => Indexed.id a = id := by
  unfold clear
  by_cases hkey : id = id'
  · subst hkey
    rw [if_pos rfl, hid, if_neg (by simp), List.filter_filter]
    exact List.filter_eq_nil_iff.mpr fun a _ => by simp
  · rw [if_neg hkey]
    split_ifs
    · rfl
    · rw [List.filter_filter]
      refine List.filter_congr fun a _ => ?_
      by_cases ha : Indexed.id a = id
      · simp [ha, hkey]
      · simp [ha]

/-- Under an id that is not blank an edit leaves what it leaves in a store. -/
theorem leave_under (hid : Text.isBlank id = false) {before : Option α}
    (h : entities.filter (fun a => Indexed.id a = id) = before.toList) (e : Edit α) :
    (e.leave entities).filter (fun a => Indexed.id a = id) = (settle id before e).toList := by
  unfold settle
  cases e with
  | put a =>
    rw [leave, List.filter_append, filter_clear hid, h]
    by_cases hkey : id = Indexed.id a
    · simp [hkey, key, left?]
    · have hother : ¬ Indexed.id a = id := fun heq => hkey heq.symm
      simp [hkey, hother, key]
  | remove id' =>
    rw [leave, filter_clear hid, h]
    by_cases hkey : id = id'
    · simp [hkey, key, left?]
    · simp [hkey, key]

theorem filter_clear_blank :
    (clear id entities).filter (fun a => Text.isBlank (Indexed.id a)) =
      entities.filter fun a => Text.isBlank (Indexed.id a) := by
  unfold clear
  split_ifs with hkey
  · rfl
  · rw [List.filter_filter]
    refine List.filter_congr fun a _ => ?_
    by_cases ha : Indexed.id a = id
    · simp [ha, hkey]
    · simp [ha]

theorem leave_blank (e : Edit α) :
    (e.leave entities).filter (fun a => Text.isBlank (Indexed.id a)) =
      entities.filter (fun a => Text.isBlank (Indexed.id a)) ++ unnamed [e] := by
  cases e with
  | put a =>
    rw [leave, List.filter_append, filter_clear_blank]
    by_cases ha : Text.isBlank (Indexed.id a) = true <;> simp [unnamed, key, left?, ha]
  | remove id =>
    rw [leave, filter_clear_blank]
    simp [unnamed, left?]

/-- Under an id that is not blank there stands what the last edit of the id left. -/
theorem standing_under (hid : Text.isBlank id = false) (edits : List (Edit α)) :
    (standing edits).filter (fun a => Indexed.id a = id) = (settled id none edits).toList := by
  induction edits using List.reverseRecOn with
  | nil => rfl
  | append_singleton edits e ih =>
    rw [settled_append, standing, List.foldl_append]
    exact leave_under hid ih e

/-- Under blank ids there stands all that was ever put there. -/
theorem standing_blank (edits : List (Edit α)) :
    (standing edits).filter (fun a => Text.isBlank (Indexed.id a)) = unnamed edits := by
  induction edits using List.reverseRecOn with
  | nil => rfl
  | append_singleton edits e ih =>
    rw [standing, List.foldl_append, unnamed, List.filterMap_append]
    exact (leave_blank e).trans (congrArg (· ++ _) ih)

theorem mem_keys_of_settled {edits : List (Edit α)} (h : (settled id none edits).isSome) :
    id ∈ edits.map key := by
  by_contra hno
  have hunder : under id edits = [] := List.filter_eq_nil_iff.mpr fun e he heq =>
    hno (List.mem_map.mpr ⟨e, he, by simpa using heq⟩)
  rw [← settled_under, hunder] at h
  simp at h

/-- There stand as many entities as there are ids that are not blank and whose last edit was a put,
and those that were put under blank ids. -/
theorem length_standing (edits : List (Edit α)) :
    (standing edits).length = ((edits.map key).dedup.filter fun id =>
      !Text.isBlank id && (settled id none edits).isSome).length + (unnamed edits).length := by
  have hunder : ∀ id, ((standing edits).filter fun a => !Text.isBlank (Indexed.id a)).filter
      (fun a => Indexed.id a == id) =
        if Text.isBlank id then [] else (settled id none edits).toList := by
    intro id
    rw [List.filter_filter]
    split_ifs with hid
    · refine List.filter_eq_nil_iff.mpr fun a _ => ?_
      by_cases ha : Indexed.id a = id <;> simp [ha, hid]
    · rw [← standing_under (by simpa using hid)]
      refine List.filter_congr fun a _ => ?_
      by_cases ha : Indexed.id a = id <;> simp [ha, hid]
  have hperm : (((standing edits).filter fun a => !Text.isBlank (Indexed.id a)).map Indexed.id).Perm
      ((edits.map key).dedup.filter fun id =>
        !Text.isBlank id && (settled id none edits).isSome) := by
    refine (List.perm_ext_iff_of_nodup ?_ ((List.nodup_dedup _).filter _)).mpr fun id => ?_
    · refine List.nodup_iff_count_le_one.mpr fun id => ?_
      rw [List.count, List.countP_map, List.countP_eq_length_filter]
      refine (congrArg List.length (hunder id)).trans_le ?_
      split_ifs
      · exact Nat.zero_le _
      · exact Option.length_toList_le
    · have hmem : id ∈ ((standing edits).filter fun a => !Text.isBlank (Indexed.id a)).map Indexed.id ↔
          ((standing edits).filter fun a => !Text.isBlank (Indexed.id a)).filter
            (fun a => Indexed.id a == id) ≠ [] := by
        rw [Ne, List.filter_eq_nil_iff, List.mem_map]
        push Not
        simp
      rw [hmem, hunder, List.mem_filter, List.mem_dedup]
      by_cases hid : Text.isBlank id = true
      · simp [hid]
      · cases hsettled : settled id none edits with
        | none => simp [hid]
        | some a => simp [hid, mem_keys_of_settled (by rw [hsettled]; rfl)]
  have hsplit := List.length_eq_length_filter_add (l := standing edits)
    fun a => Text.isBlank (Indexed.id a)
  rw [← hperm.length_eq, List.length_map, ← standing_blank]
  omega

end Edit

section

variable {α : Type} [Indexed α] {s : Schema} {entities : List α} {documents : List Document}

/-! ### Documents that stand -/

/-- The documents of some entities, in their order. -/
def Schema.Encodes (s : Schema) (entities : List α) (documents : List Document) : Prop :=
  List.Forall₂ (fun a d => Document.encode s a = .ok d) entities documents

/-- What is taken away under a key are the documents of the entities with this id, or nothing if the
key is blank. -/
theorem Schema.Encodes.clear (hs : s.KeyedBy α) (h : s.Encodes entities documents) (key : String) :
    s.Encodes (Edit.clear key entities) (documents.filter fun d => !d.hasKey s key) := by
  have hkey : ∀ {a : α} {d : Document}, Document.encode s a = .ok d →
      d.hasKey s key = (!Text.isBlank key && decide (Indexed.id a = key)) := by
    intro a d hd
    rw [Bool.eq_iff_iff, Document.hasKey_encoded hs hd]
    by_cases ha : Indexed.id a = key <;> simp [ha]
  unfold Edit.clear
  split_ifs with hblank
  · rw [List.filter_eq_self.mpr]
    · exact h
    · intro d hd
      obtain ⟨a, -, ha⟩ := exists_of_mem_right h hd
      simp [hkey ha, hblank]
  · refine List.rel_filter (fun a d had => ?_) h
    simp [hkey had, hblank]

/-- Under an id that is not blank there are the documents of the entities with this id. -/
theorem Schema.Encodes.under (hs : s.KeyedBy α) (h : s.Encodes entities documents) {id : String}
    (hid : Text.isBlank id = false) :
    s.Encodes (entities.filter fun a => Indexed.id a = id) (docsUnder s id documents) := by
  refine List.rel_filter (fun a d had => ?_) h
  show decide (Indexed.id a = id) = true ↔ d.hasKey s id = true
  rw [Document.hasKey_encoded hs had]
  by_cases ha : Indexed.id a = id <;> simp [ha, hid]

/-- A change leaves the documents of the entities that stand after the edit. -/
theorem Schema.Encodes.leave (hs : s.KeyedBy α) (h : s.Encodes entities documents) {e : Edit α}
    {c : Change} (hc : e.Encoded s c) : s.Encodes (e.leave entities) (c.apply s documents) := by
  cases hc with
  | put hd => exact List.rel_append (h.clear hs _) (.cons hd .nil)
  | remove id => exact h.clear hs id

theorem Schema.Encodes.leaveAll (hs : s.KeyedBy α) (h : s.Encodes entities documents)
    {edits : List (Edit α)} {changes : List Change}
    (hc : List.Forall₂ (Edit.Encoded s) edits changes) :
    s.Encodes (edits.foldl Edit.leave entities) (applyChanges s documents changes) := by
  induction hc generalizing entities documents with
  | nil => exact h
  | cons hec _ ih => exact ih (h.leave hs hec)

/-- The edits of the transactions that are committed. -/
def committedEdits (attempts : List (Attempt α)) : List (Edit α) :=
  attempts.flatMap fun t => if t.commits then t.edits else []

/-- Transactions one after the other leave the documents of the entities that stand after the edits
of those that are committed. -/
theorem workAll_standing {i : Index} {d : Disk} {l : Live} {w : Writer} (hs : i.schema.KeyedBy α)
    (htotal : ∀ a : α, ∃ d, Document.encode i.schema a = .ok d) (hserving : i.Serving d l w)
    (h : i.schema.Encodes entities l.content.documents) : ∀ attempts : List (Attempt α),
    ∃ i' d' l' w', effect (workAll attempts) (i, d) = (.ok (), (i', d')) ∧ i'.schema = i.schema ∧
      i'.Serving d' l' w' ∧
      i.schema.Encodes ((committedEdits attempts).foldl Edit.leave entities) l'.content.documents := by
  intro attempts
  induction attempts generalizing i d l w entities with
  | nil => exact ⟨i, d, l, w, rfl, rfl, hserving, h⟩
  | cons t attempts ih =>
    obtain ⟨tx, htx⟩ := Edit.stageAll_total htotal t.edits {}
    obtain ⟨changes, hchanges, hall⟩ := Edit.encoded_of_stageAll htx
    obtain ⟨i₁, d₁, l₁, w₁, heffect, -, hschema, hserving₁, hdocuments⟩ :=
      t.work_serving hserving htx
    have h₁ : i₁.schema.Encodes
        ((if t.commits then t.edits else []).foldl Edit.leave entities) l₁.content.documents := by
      rw [hdocuments, hschema]
      split_ifs
      · rw [hchanges]
        exact h.leaveAll hs hall
      · exact h
    rw [← hschema] at hs htotal ⊢
    obtain ⟨i', d', l', w', heffect', hschema', hserving', h'⟩ := ih hs htotal hserving₁ h₁
    refine ⟨i', d', l', w', ?_, hschema', hserving', ?_⟩
    · rw [workAll, List.forM_cons, effect_bind_ok heffect]
      exact heffect'
    · rw [committedEdits, List.flatMap_cons, List.foldl_append]
      exact h'

theorem Index.answer_numDocs {i : Index} {l : Live} (hl : i.live = some l) :
    (effect numDocs i).1 = .ok l.content.size := by
  unfold numDocs
  rw [effect_bind_ok (effect_searcher hl)]
  rfl

end

/-- **One document for each key.** Transactions over entities of the model never fail on an open
index. If it was empty at first, its documents afterwards are those of the entities that stand after
the committed edits, one for each: under an id that is not blank the entity that the last edit of
the id put, and nothing if the last edit removed it. So there are as many documents as there are
ids whose last edit was a put, as far as the ids are not blank. Blank ids are another matter: the
documents of all entities that were put under blank ids are still there. -/
theorem EntityKind.documents_of_transactions {k : EntityKind} {config : Config} {i : Index}
    {d : Disk} (hi : Index.Opened k.Entity config i d)
    (hempty : ∀ l, i.live = some l → l.content.documents = []) (attempts : List (Attempt k.Entity)) :
    ∃ i' d' l', effect (workAll attempts) (i, d) = (.ok (), (i', d')) ∧ i'.live = some l' ∧
      i'.schema.Encodes (Edit.standing (committedEdits attempts)) l'.content.documents ∧
      (∀ id, Text.isBlank id = false →
        (Edit.standing (committedEdits attempts)).filter (fun a => Indexed.id a = id) =
          (Edit.settled id none (committedEdits attempts)).toList ∧
        i'.schema.Encodes (Edit.settled id none (committedEdits attempts)).toList
          (docsUnder i'.schema id l'.content.documents)) ∧
      (Edit.standing (committedEdits attempts)).filter (fun a => Text.isBlank (Indexed.id a)) =
        Edit.unnamed (committedEdits attempts) ∧
      (effect Index.numDocs i').1 = .ok (
        (((committedEdits attempts).map Edit.key).dedup.filter fun id => !Text.isBlank id &&
          (Edit.settled id none (committedEdits attempts)).isSome).length +
        (Edit.unnamed (committedEdits attempts)).length) := by
  obtain ⟨hdescribe, -, -, l, w, hserving⟩ := hi.serving
  have hs := EntityKind.keyedBy hdescribe
  have hstart : i.schema.Encodes ([] : List k.Entity) l.content.documents := by
    rw [hempty l hserving.live]
    exact .nil
  obtain ⟨i', d', l', w', hwork, hschema, hserving', h⟩ :=
    workAll_standing hs (EntityKind.encode_total hdescribe) hserving hstart attempts
  rw [← hschema] at h hs
  refine ⟨i', d', l', hwork, hserving'.live, h, fun id hid => ⟨Edit.standing_under hid _, ?_⟩,
    Edit.standing_blank _, ?_⟩
  · rw [← Edit.standing_under hid]
    exact h.under hs hid
  · rw [Index.answer_numDocs hserving'.live, ← Edit.length_standing]
    exact congrArg Except.ok h.length_eq.symm

/-- Records that are put and removed, two of them under a blank id. -/
def blankAttempts : List (Attempt Record) := [
  ⟨[.put (.of " " "x"), .put (.of "a" "x"), .put (.of "a" "y")], true⟩,
  ⟨[.remove "a"], false⟩,
  ⟨[.put (.of " " "y"), .put (.of "b" "x"), .remove "b"], true⟩,
  ⟨[.remove " "], true⟩]

/-- One record is left under its id. Both records with a blank id are left. -/
theorem EntityKind.documents_of_transactions_of_records :
    ∃ i' d', effect (workAll blankAttempts) (Record.opened {}) = (.ok (), (i', d')) ∧
      (effect Index.numDocs i').1 = .ok (1 + 2) := by
  have hempty : ∀ l, (Record.opened {}).1.live = some l → l.content.documents = [] := by
    rintro l ⟨⟩
    rfl
  obtain ⟨i', d', l', hwork, -, -, -, -, hnum⟩ := EntityKind.documents_of_transactions (k := .record)
    ⟨{ schema := Record.schema, priority := 60 }, {}, rfl, Disk.sound_empty, rfl⟩ hempty
    blankAttempts
  refine ⟨i', d', hwork, hnum.trans (congrArg Except.ok ?_)⟩
  decide

end Codebook
