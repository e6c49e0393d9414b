/-
# Visibility

An activity is no part of what criteria look for: it only leaves some of what is found out of sight.
What is found with an activity is what is found with all of them, in the same order, without the
entities whose last change the activity does not admit. This holds for a query of any shape, since
the alternatives for the visible changes stand beside the whole query and not among its clauses.

Pages are not divided in this way: an activity moves the places at which pages begin. But whatever
is on a page is visible.

Key definitions: `Criteria.under`, `FilterResult.cut`, `Generation.ordered`,
`EntityKind.changeType?`, `EntityKind.shows`, `EntityKind.Fills`.
Key theorems: `Criteria.compile_under`, `Generation.ordered_narrower`, `Generation.find_narrower`,
`EntityKind.activity_shows`, `EntityKind.find_under`.
-/
import Codebook.Proofs.Paging
import Codebook.Proofs.Snapshots

namespace Codebook

/-! ### Criteria under an activity -/

namespace Criteria

/-- The same criteria with another activity. -/
def under (c : Criteria) (a : Activity) : Criteria :=
  { c with activity := a }

variable {c : Criteria} {s : Schema} {zone : Instant.Zone} {a : Activity}

/-- Only the query of the visible changes depends on the activity. -/
theorem compile_under {visible : Option Query} (h : (c.under a).activityQuery s = .ok visible) :
    (c.under a).compile s zone =
      ((c.under .all).compile s zone).map fun q => { q with activity := visible } := by
  have hall : (c.under .all).activityQuery s = .ok none := if_pos (by simp +decide [under])
  have hvalid : (c.under a).validate = (c.under .all).validate := rfl
  have hquery : (c.under a).query s zone = (c.under .all).query s zone := rfl
  have hsort : (c.under a).sortKeys s = (c.under .all).sortKeys s := rfl
  unfold compile
  rw [h, hall, hvalid, hquery, hsort]
  cases (c.under .all).validate with
  | error e => rfl
  | ok _ =>
    cases (c.under .all).query s zone with
    | error e => rfl
    | ok q =>
      cases (c.under .all).sortKeys s with
      | error e => rfl
      | ok keys => rfl

/-- Entities without a last change are visible under every activity. -/
theorem compile_unversioned (h : s.isVersioned = false) (c : Criteria) (a : Activity) :
    (c.under a).compile s zone = c.compile s zone := by
  have hnone : ∀ b : Activity, (c.under b).activityQuery s = .ok none := by
    intro b
    exact if_pos (by simp [h])
  rw [compile_under (hnone a), ← compile_under (hnone c.activity)]
  rfl

end Criteria

/-! ### What is found, in order -/

/-- A result without a limit, cut down to some of its items and begun at an offset. -/
def FilterResult.cut {α : Type} (r : FilterResult α) (shown : α → Bool) (offset : Nat) :
    FilterResult α :=
  { items := (r.items.filter shown).drop offset
    countByFilter := (r.items.filter shown).length
    totalCount := r.totalCount }

namespace Generation

/-- The documents that a query selects, in the order of the keys. -/
def ordered (g : Generation) (q : Query) (keys : List ColumnKey) : List Document :=
  (sortBy (Row.order keys) (g.rows q keys)).map Row.document

variable {g : Generation} {q q' : Query} {keys : List ColumnKey} {d : Document}

theorem ordered_perm : (g.ordered q keys).Perm (g.documents.filter q.selects) := by
  rw [← map_rows g q keys]
  exact (sortBy_perm_self _ _).map _

theorem mem_ordered (h : d ∈ g.ordered q keys) : d ∈ g.documents ∧ q.selects d = true :=
  List.mem_filter.mp (ordered_perm.subset h)

/-- The rows of a narrower query are some of the rows of the wider one. -/
theorem rows_narrower (h : ∀ d ∈ g.documents, q'.selects d = true → q.selects d = true) :
    g.rows q' keys = (g.rows q keys).filter fun row => q'.selects row.document := by
  have hselected : g.selected q' = (g.selected q).filter fun x => q'.selects x.1 := by
    unfold selected
    rw [List.filter_filter]
    refine List.filter_congr fun (d, place) hx => ?_
    have hd : d ∈ g.documents := List.fst_mem_of_mem_zipIdx hx
    show q'.selects d = (q'.selects d && q.selects d)
    cases hsel : q'.selects d with
    | false => rfl
    | true => rw [h d hd hsel, Bool.and_self]
  rw [rows, rows, hselected, List.filter_map]
  rfl

/-- What a narrower query selects is in the same order. -/
theorem ordered_narrower (h : ∀ d ∈ g.documents, q'.selects d = true → q.selects d = true) :
    g.ordered q' keys = (g.ordered q keys).filter q'.selects := by
  have hties : ∀ a ∈ g.rows q keys, ∀ b ∈ g.rows q keys, Row.order keys a b = .eq → a = b :=
    fun _ ha _ hb htie => eq_of_place ha hb (Window.place_of_tie htie)
  rw [ordered, ordered, rows_narrower h, sortBy_filter _ hties, List.filter_map]
  rfl

/-- A page is cut out of what is found in order. -/
theorem find_eq_ordered {α : Type} [Indexed α] {s : Schema} {c : Compiled}
    (hrun : g.canRun c.executable = true) (offset : Nat) (limit : Option Nat) :
    g.find α s c offset limit = do
      let found := g.ordered c.executable (c.sort.map ColumnKey.sorting)
      if limit = some 0 then
        return { items := [], countByFilter := found.length, totalCount := g.size }
      let window := (limit.map fun limit => min (offset + limit) maxCount).getD found.length
      let items ← ((found.take window).drop offset).mapM (Document.decode α s)
      return { items, countByFilter := found.length, totalCount := g.size } := by
  have hlength : (g.selected c.executable).length =
      (g.ordered c.executable (c.sort.map ColumnKey.sorting)).length := by
    rw [ordered_perm.length_eq, ← map_selected, List.length_map]
  have hcount : g.count c =
      .ok (g.ordered c.executable (c.sort.map ColumnKey.sorting)).length := by
    rw [count, if_pos hrun, hlength]
  have hrows : (g.rows c.executable (c.sort.map ColumnKey.sorting)).length =
      (g.ordered c.executable (c.sort.map ColumnKey.sorting)).length := by
    rw [← hlength, rows, List.length_map]
  rw [find_eq, hcount]
  simp only [itemsOf, Window.first_eq (fun _ => reads_of_mem_rows) (fun _ ha _ hb => eq_of_place ha hb),
    List.map_take, hrows, ordered]
  rfl

theorem find_unlimited {α : Type} [Indexed α] {s : Schema} {c : Compiled} {offset : Nat}
    {items : List α} (hrun : g.canRun c.executable = true)
    (h : ((g.ordered c.executable (c.sort.map ColumnKey.sorting)).drop offset).mapM
      (Document.decode α s) = .ok items) :
    g.find α s c offset none =
      .ok { items
            countByFilter := (g.ordered c.executable (c.sort.map ColumnKey.sorting)).length
            totalCount := g.size } := by
  rw [find_eq_ordered hrun]
  simp only [reduceCtorEq, if_false, Option.map_none, Option.getD_none, List.take_length, h]
  rfl

/-- **A narrower query finds a part of what the wider one finds**, in the same order: those entities
that are shown, and as many are counted. -/
theorem find_narrower {α : Type} [Indexed α] {s : Schema} {c c' : Compiled} {shown : α → Bool}
    (hsort : c'.sort = c.sort) (hrun : g.canRun c.executable = true)
    (hrun' : g.canRun c'.executable = true)
    (hdocs : ∀ d ∈ g.documents, ∃ a, Document.decode α s d = .ok a ∧
      c'.executable.selects d = (c.executable.selects d && shown a)) (offset : Nat) :
    g.find α s c' offset none = (g.find α s c 0 none).map (·.cut shown offset) ∧
      g.count c' = (g.find α s c 0 none).map fun r => (r.items.filter shown).length := by
  have hnarrow : ∀ d ∈ g.documents, c'.executable.selects d = true →
      c.executable.selects d = true := by
    intro d hd hsel
    obtain ⟨a, -, heq⟩ := hdocs d hd
    rw [heq, Bool.and_eq_true] at hsel
    exact hsel.1
  obtain ⟨found, hfound⟩ : ∃ found,
      found = g.ordered c.executable (c.sort.map ColumnKey.sorting) := ⟨_, rfl⟩
  have hfound' : g.ordered c'.executable (c'.sort.map ColumnKey.sorting) =
      found.filter c'.executable.selects := by
    rw [hsort, hfound]
    exact ordered_narrower hnarrow
  have hmem : ∀ d ∈ found, d ∈ g.documents ∧ c.executable.selects d = true := by
    intro d hd
    exact mem_ordered (hfound ▸ hd)
  -- what is found has entities, and those that are shown are the entities of what is left
  obtain ⟨items, hitems⟩ : ∃ items, found.mapM (Document.decode α s) = .ok items :=
    mapM_total fun d hd => (hdocs d (hmem d hd).1).imp fun _ => And.left
  have hboth := (List.forall₂_and_left _ _).mpr ⟨hmem, forall₂_of_mapM hitems⟩
  have hshown : List.Forall₂ (fun d a => Document.decode α s d = .ok a)
      (found.filter c'.executable.selects) (items.filter shown) := by
    refine (List.rel_filter (fun d a hda => ?_) hboth).imp fun _ _ => And.right
    obtain ⟨⟨hd, hsel⟩, hdecode⟩ := hda
    obtain ⟨b, hb, heq⟩ := hdocs d hd
    obtain rfl : b = a := Except.ok.inj (hb.symm.trans hdecode)
    show c'.executable.selects d = true ↔ shown b = true
    rw [heq, hsel, Bool.true_and]
  have hall : g.find α s c 0 none =
      .ok { items, countByFilter := found.length, totalCount := g.size } := by
    rw [find_unlimited hrun (hfound ▸ hitems), ← hfound]
  have hcut : g.find α s c' offset none =
      .ok { items := (items.filter shown).drop offset
            countByFilter := (items.filter shown).length
            totalCount := g.size } := by
    have hrest := mapM_of_forall₂ (List.forall₂_drop offset hshown)
    rw [find_unlimited hrun' (hfound' ▸ hrest), hfound', hshown.length_eq]
  have hcount : g.count c' = .ok (items.filter shown).length := by
    rw [count, if_pos hrun', ← hshown.length_eq, ← hfound', ordered_perm.length_eq, ← map_selected,
      List.length_map]
  rw [hall, hcut, hcount]
  exact ⟨rfl, rfl⟩

/-- Whatever is on a page is the entity of a document that was selected. -/
theorem mem_find {α : Type} [Indexed α] {s : Schema} {c : Compiled} {offset : Nat}
    {limit : Option Nat} {r : FilterResult α} (h : g.find α s c offset limit = .ok r) {a : α}
    (ha : a ∈ r.items) :
    ∃ d ∈ g.documents, c.executable.selects d = true ∧ Document.decode α s d = .ok a := by
  have hrun : g.canRun c.executable = true := by
    by_contra hnot
    rw [find, count, if_neg hnot] at h
    cases h
  rw [find_eq_ordered hrun] at h
  simp only [pure, Except.pure] at h
  split_ifs at h
  · obtain rfl := Except.ok.inj h
    cases ha
  · obtain ⟨items, hitems, h⟩ := bind_eq_ok.mp h
    obtain rfl := Except.ok.inj h
    obtain ⟨d, hd, hdecode⟩ := exists_of_mem_right (forall₂_of_mapM hitems) ha
    obtain ⟨hmem, hsel⟩ := mem_ordered (List.mem_of_mem_take (List.mem_of_mem_drop hd))
    exact ⟨d, hmem, hsel, hdecode⟩

end Generation

/-! ### Types -/

namespace EntityKind

/-- The last change of an entity, if its type has one. -/
def changeType? : (k : EntityKind) → k.Entity → Option ChangeType
  | group, a => some (Versioned.changeType (α := Group) a)
  | dictionary, a => some (Versioned.changeType (α := Dictionary) a)
  | metaField, a => some (Versioned.changeType (α := MetaField) a)
  | field, a => some (Versioned.changeType (α := Field) a)
  | recodeRuleSet, a => some (Versioned.changeType (α := RecodeRuleSet) a)
  | recodeRule, a => some (Versioned.changeType (α := RecodeRule) a)
  | record, _ => none

/-- Whether an activity admits the last change of an entity, if its type has one. -/
def shows (k : EntityKind) (activity : Activity) (a : k.Entity) : Bool :=
  (k.changeType? a).all activity.admits

theorem shows_all (k : EntityKind) (a : k.Entity) : k.shows .all a = true := by
  unfold shows
  cases k.changeType? a with
  | none => rfl
  | some t => cases t <;> decide

variable {k : EntityKind} {s : Schema}

/-- The last change is indexed by its name, and by nothing else. -/
theorem cellsOf_changeType (hs : Schema.describe k.Entity = .ok s) {a : k.Entity} {t : ChangeType}
    (ht : k.changeType? a = some t) : s.cellsOf a changeTypeField = [.text t.name] := by
  cases k
  case record => cases ht
  all_goals
    obtain rfl := Except.ok.inj (hs.symm.trans rfl)
    obtain rfl := Option.some.inj ht
    rfl

theorem isVersioned_eq (hs : Schema.describe k.Entity = .ok s) (a : k.Entity) :
    s.isVersioned = (k.changeType? a).isSome := by
  cases k
  all_goals
    obtain rfl := Except.ok.inj (hs.symm.trans rfl)
    rfl

/-- The facts of an entity say of its last change what the entity says. -/
theorem activity_shows (hs : Schema.describe k.Entity = .ok s) (activity : Activity) (a : k.Entity) :
    activity.shows (s.facts a) = k.shows activity a := by
  have hversioned : (s.facts a).versioned = (k.changeType? a).isSome := isVersioned_eq hs a
  unfold Activity.shows shows
  rw [hversioned]
  cases ht : k.changeType? a with
  | none => simp
  | some t =>
    have hhas : ∀ u : ChangeType, (s.facts a).has changeTypeField u.name = decide (t = u) := by
      intro u
      show (s.cellsOf a changeTypeField).contains (.text u.name) = _
      rw [cellsOf_changeType hs ht]
      cases t <;> cases u <;> rfl
    simp only [hhas, Option.isSome_some, Bool.not_true, Bool.or_false, Option.all_some]
    -- of all change types only the one that the entity has matters
    have hany : (ChangeType.all.any fun u => activity.admits u && decide (t = u)) =
        activity.admits t := by
      cases t <;> simp [ChangeType.all]
    have hone : activity.admitsAll = true → activity.admits t = true := fun hall =>
      List.all_eq_true.mp hall t (by cases t <;> decide)
    rw [hany]
    cases hall : activity.admitsAll with
    | true => rw [hone hall, Bool.true_or]
    | false => rw [Bool.false_or]

/-- The types of the model have a column for their last change, if they have one. -/
theorem activityQuery_ok (hs : Schema.describe k.Entity = .ok s) (c : Criteria) :
    ∃ visible, c.activityQuery s = .ok visible := by
  unfold Criteria.activityQuery
  split_ifs with hall
  · exact ⟨_, rfl⟩
  · cases k
    case record =>
      obtain rfl := Except.ok.inj (hs.symm.trans rfl)
      exact absurd ((Bool.or_eq_true _ _).mpr (.inr rfl)) hall
    all_goals
      obtain rfl := Except.ok.inj (hs.symm.trans rfl)
      exact ⟨_, rfl⟩

end EntityKind

/-! ### Indexes -/

namespace Index

variable {α : Type} [Indexed α] {i : Index} {c : Criteria}

theorem effect_searcher_closed (h : i.live = none) :
    effect searcher i = (.error (.closed i.name), i) := by
  unfold searcher
  rw [effect_bind_ok (effect_get i), h]
  rfl

/-- A closed index finds nothing. -/
theorem find_closed (h : i.live = none) :
    (effect (find α c) i).1 = (i.compile c).bind fun _ => .error (.closed i.name) := by
  unfold find
  rw [effect_bind_ok (effect_get i)]
  cases i.compile c with
  | error e => exact congrArg Prod.fst (effect_bind_error (effect_lift _ i) _)
  | ok compiled =>
    rw [effect_bind_ok (effect_lift _ i), effect_bind_error (effect_searcher_closed h)]
    rfl

theorem count_closed (h : i.live = none) :
    (effect (count c) i).1 = (i.compile c).bind fun _ => .error (.closed i.name) := by
  unfold count
  rw [effect_bind_ok (effect_get i)]
  cases i.compile c with
  | error e => exact congrArg Prod.fst (effect_bind_error (effect_lift _ i) _)
  | ok compiled =>
    rw [effect_bind_ok (effect_lift _ i), effect_bind_error (effect_searcher_closed h)]
    rfl

/-- Nothing depends on the activity if the entities have no last change. -/
theorem find_unversioned (h : i.schema.isVersioned = false) (c : Criteria) (a : Activity) :
    effect (find α (c.under a)) i = effect (find α c) i := by
  have hcompile : i.compile (c.under a) = i.compile c := Criteria.compile_unversioned h c a
  unfold find
  rw [effect_bind_ok (effect_get i), effect_bind_ok (effect_get i), hcompile]
  rfl

theorem count_unversioned (h : i.schema.isVersioned = false) (c : Criteria) (a : Activity) :
    effect (count (c.under a)) i = effect (count c) i := by
  have hcompile : i.compile (c.under a) = i.compile c := Criteria.compile_unversioned h c a
  unfold count
  rw [effect_bind_ok (effect_get i), effect_bind_ok (effect_get i), hcompile]

end Index

namespace EntityKind

variable {k : EntityKind} {i : Index}

/-- The documents are those of entities of the type, under the fields of the engine for it. -/
structure Fills (k : EntityKind) (s : Schema) (g : Generation) : Prop where
  layout : g.layout = s.layout
  encoded : ∀ d ∈ g.documents, ∃ a : k.Entity, Indexed.Proper a ∧ Document.encode s a = .ok d

/-- What a selected document gives back is an entity that the activity shows. -/
theorem shows_of_selects {s : Schema} {g : Generation} (hs : Schema.describe k.Entity = .ok s)
    (h : k.Fills s g) {c : Criteria} {zone : Instant.Zone} {q : Compiled}
    (hq : c.compile s zone = .ok q) {d : Document} (hd : d ∈ g.documents) :
    ∃ a : k.Entity, Document.decode k.Entity s d = .ok a ∧
      q.executable.selects d =
        ((c.outcome? zone (s.facts a)).getD true && k.shows c.activity a) := by
  obtain ⟨b, hproper, hb⟩ := h.encoded d hd
  obtain ⟨e, he, hdecode, hsame⟩ := decode_encode hs b
  obtain rfl : d = e := Except.ok.inj (hb.symm.trans he)
  have hbare : Document.encode s (k.bare b) = .ok d := hsame _ (by cases k <;> rfl)
  refine ⟨k.bare b, hdecode hproper, ?_⟩
  rw [Criteria.selects_executable hs hq hbare, Criteria.holds, activity_shows hs]

/-- A content shows with an activity the part of what it shows with all of them that the activity
admits. -/
theorem find_content {s : Schema} {g : Generation} (hs : Schema.describe k.Entity = .ok s)
    (h : k.Fills s g) {c : Criteria} {activity : Activity} {zone : Instant.Zone} {q q' : Compiled}
    (hq : (c.under .all).compile s zone = .ok q) (hq' : (c.under activity).compile s zone = .ok q')
    (offset : Nat) :
    g.find k.Entity s q' offset none =
        (g.find k.Entity s q 0 none).map (·.cut (k.shows activity) offset) ∧
      g.count q' =
        (g.find k.Entity s q 0 none).map fun r => (r.items.filter (k.shows activity)).length := by
  have hdescribes := Schema.describes_of_describe hs
  have hrun := Criteria.canRun_executable hdescribes h.layout hq
  have hrun' := Criteria.canRun_executable hdescribes h.layout hq'
  rw [decides hs] at hrun hrun'
  have hsort : q'.sort = q.sort :=
    Except.ok.inj ((Criteria.compile_ok hq').2.1.symm.trans (Criteria.compile_ok hq).2.1)
  refine Generation.find_narrower hsort hrun hrun' (fun d hd => ?_) offset
  obtain ⟨a, hdecode, hsel⟩ := shows_of_selects hs h hq' hd
  obtain ⟨b, hdecode', hall⟩ := shows_of_selects hs h hq hd
  obtain rfl : a = b := Except.ok.inj (hdecode.symm.trans hdecode')
  refine ⟨a, hdecode, ?_⟩
  have hwide : k.shows (c.under .all).activity a = true := shows_all k a
  rw [hsel, hall, hwide, Bool.and_true]
  rfl

/-- Whatever is on a page of a content is shown. -/
theorem shows_of_mem_find {s : Schema} {g : Generation} (hs : Schema.describe k.Entity = .ok s)
    (h : k.Fills s g) {c : Criteria} {zone : Instant.Zone} {q : Compiled}
    (hq : c.compile s zone = .ok q) {offset : Nat} {limit : Option Nat} {r : FilterResult k.Entity}
    (hr : g.find k.Entity s q offset limit = .ok r) {a : k.Entity} (ha : a ∈ r.items) :
    k.shows c.activity a = true := by
  obtain ⟨d, hd, hsel, hdecode⟩ := Generation.mem_find hr ha
  obtain ⟨b, hdecode', heq⟩ := shows_of_selects hs h hq hd
  obtain rfl : a = b := Except.ok.inj (hdecode.symm.trans hdecode')
  rw [heq, Bool.and_eq_true] at hsel
  exact hsel.2

/-- **Visibility is independent of the query.** For criteria of any shape without a limit, what is
found with an activity is what is found with all of them, without the entities whose last change the
activity does not admit, in the same order; this is also what is counted, and a refusal is the same
refusal. On any page there is nothing that the activity of the criteria hides, so without an explicit
activity there is nothing closed. If the entities have no last change, the activity changes
nothing. -/
theorem find_under (hs : Schema.describe k.Entity = .ok i.schema)
    (hfills : ∀ l ∈ i.live, k.Fills i.schema l.content) :
    (∀ (c : Criteria) (activity : Activity), c.limit? = none →
      (effect (Index.find k.Entity (c.under activity)) i).1 =
        (effect (Index.find k.Entity ((c.page 0 c.count).under .all)) i).1.map
          (·.cut (k.shows activity) c.offset) ∧
      (effect (Index.count (c.under activity)) i).1 =
        (effect (Index.find k.Entity ((c.page 0 c.count).under .all)) i).1.map fun r =>
          (r.items.filter (k.shows activity)).length) ∧
    (∀ (c : Criteria) (r : FilterResult k.Entity), (effect (Index.find k.Entity c) i).1 = .ok r →
      ∀ a ∈ r.items, k.shows c.activity a = true ∧
        (c.activity = ({} : Criteria).activity → k.changeType? a ≠ some .close)) ∧
    ∀ (β : Type) [Indexed β] (j : Index), j.schema.isVersioned = false →
      ∀ (c : Criteria) (activity : Activity),
        effect (Index.find β (c.under activity)) j = effect (Index.find β c) j ∧
        effect (Index.count (c.under activity)) j = effect (Index.count c) j := by
  refine ⟨fun c activity hlimit => ?_, fun c r hr a ha => ?_, fun β _ j hj c activity =>
    ⟨Index.find_unversioned hj c activity, Index.count_unversioned hj c activity⟩⟩
  · obtain ⟨visible, hvisible⟩ := activityQuery_ok hs (c.under activity)
    have hpage : i.compile ((c.page 0 c.count).under .all) = i.compile (c.under .all) := rfl
    have hcompile : i.compile (c.under activity) =
        (i.compile (c.under .all)).map fun q => { q with activity := visible } :=
      Criteria.compile_under hvisible
    have hlimit' : (c.under activity).limit? = none := hlimit
    have hlimit'' : ((c.page 0 c.count).under .all).limit? = none := hlimit
    cases hlive : i.live with
    | none =>
      rw [Index.find_closed hlive, Index.find_closed hlive, Index.count_closed hlive, hpage, hcompile]
      cases i.compile (c.under .all) with
      | error e => exact ⟨rfl, rfl⟩
      | ok q => exact ⟨rfl, rfl⟩
    | some l =>
      rw [Index.answer_find hlive, Index.answer_find hlive, Index.answer_count hlive, hlimit',
        hlimit'', hpage]
      cases hq : i.compile (c.under .all) with
      | error e =>
        rw [hcompile, hq]
        exact ⟨rfl, rfl⟩
      | ok q =>
        have hq' : i.compile (c.under activity) = .ok { q with activity := visible } := by
          rw [hcompile, hq]
          rfl
        rw [hq']
        exact find_content hs (hfills l hlive) hq hq' c.offset
  · cases hlive : i.live with
    | none =>
      rw [Index.find_closed hlive] at hr
      obtain ⟨q, -, hr⟩ := bind_eq_ok.mp hr
      cases hr
    | some l =>
      rw [Index.answer_find hlive] at hr
      obtain ⟨q, hq, hr⟩ := bind_eq_ok.mp hr
      have hshown := shows_of_mem_find hs (hfills l hlive) hq hr ha
      refine ⟨hshown, fun hdefault hclosed => ?_⟩
      rw [hdefault, shows, hclosed] at hshown
      exact absurd hshown (by decide)

end EntityKind

/-- An index that was filled with entities holds their documents. -/
theorem EntityKind.fills_stocked {k : EntityKind} {entities : List k.Entity} {i : Index}
    (h : Index.stocked entities = .ok i) (hproper : ∀ a ∈ entities, Indexed.Proper a) :
    Schema.describe k.Entity = .ok i.schema ∧ ∀ l ∈ i.live, k.Fills i.schema l.content := by
  obtain ⟨schema, hschema, h⟩ := bind_eq_ok.mp h
  obtain ⟨documents, hdocuments, h⟩ := bind_eq_ok.mp h
  obtain rfl := Except.ok.inj h
  refine ⟨hschema, fun l hl => ?_⟩
  obtain rfl := Option.some.inj hl
  refine ⟨rfl, fun d hd => ?_⟩
  obtain ⟨a, ha, hencode⟩ := exists_of_mem_right (forall₂_of_mapM hdocuments) hd
  exact ⟨a, hproper a ha, hencode⟩

/-- A group after a change. -/
def Group.changed (id name : String) (changeType : ChangeType) : Group :=
  { id, history := ⟨"h", changeType, .epoch⟩, name, description := none, owner := none
    descendants := [] }

/-- Three groups, of which one was closed. -/
def Group.three : List Group :=
  [.changed "3" "a" .update, .changed "2" "b" .close, .changed "1" "c" .restore]

/-- Criteria of which one part excludes and the other is an alternative to it. -/
def eitherName : Criteria where
  count := -1
  filters := [("name", ⟨.not, .stringEq "a"⟩), ("id", ⟨.or, .stringEq "3"⟩)]

theorem EntityKind.find_under_groups : ∃ i : Index, Index.stocked Group.three = .ok i ∧
    (effect (Index.find Group (eitherName.under .all)) i).1 =
      .ok { items := Group.three, countByFilter := 3, totalCount := 3 } ∧
    (effect (Index.find Group (eitherName.under .actual)) i).1 =
      .ok { items := [.changed "3" "a" .update, .changed "1" "c" .restore]
            countByFilter := 2
            totalCount := 3 } := by
  refine ⟨_, rfl, ?_⟩
  have hproper : ∀ a ∈ Group.three, Indexed.Proper a := by decide
  have hrecalled : Document.recalled Group.three = .ok Group.three :=
    EntityKind.recalled_eq .group fun a ha => ⟨hproper a ha, by revert a; decide⟩
  obtain ⟨g, hg⟩ := Index.contains_stocked rfl hrecalled (by decide)
  have hpage := (hg.find (by decide) (by decide)
    (rfl : Index.compile _ (eitherName.under .all) = .ok _)).trans (if_pos (by decide))
  rw [Criteria.pageOf,
    show (eitherName.under .all).matching _ _ Group.three = Group.three by decide,
    sortBy_of_pairwise (by decide)] at hpage
  obtain ⟨hs, hfills⟩ := EntityKind.fills_stocked (k := .group) rfl hproper
  obtain ⟨hunder, -⟩ := EntityKind.find_under (k := .group) hs hfills
  refine ⟨hpage, ?_⟩
  rw [(hunder eitherName .actual rfl).1]
  exact (congrArg _ hpage).trans rfl

end Codebook
