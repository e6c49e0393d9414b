/-
# Lookups in batches

A batch asks for the entities with many primary keys in one search, and puts what it finds into the
order of the keys. It gives what the lookups of the keys one by one give, without the keys that are
missing, except that a key that is repeated gives its entity only once. A batch that has to be complete
fails at the key at which the lookups one by one would fail first.

Neither depends on the order of a result, so all this holds for keys that are blank, too: nothing is
found under them.

Key definitions: `Index.keyed`, `Index.entity?`.
Key theorems: `Index.pickByIds_eq`, `Index.Contains.findById`, `Index.Contains.findByIds`,
`Index.lookups_in_batches`.
-/
import Codebook.Proofs.Uniqueness
import Mathlib.Data.List.Find

namespace Codebook

/-! ### Lists without repetitions -/

section

variable {β γ : Type} [BEq β] [LawfulBEq β]

theorem filter_eraseDups (p : β → Bool) : ∀ l : List β, l.eraseDups.filter p = (l.filter p).eraseDups
  | [] => rfl
  | b :: l => by
    have hrest := filter_eraseDups p (l.filter fun c => !c == b)
    rw [List.filter_filter] at hrest
    rw [List.eraseDups_cons]
    by_cases hb : p b = true
    · rw [List.filter_cons_of_pos hb, List.filter_cons_of_pos hb, hrest, List.eraseDups_cons,
        List.filter_filter]
      simp only [Bool.and_comm]
    · have hothers : ∀ c ∈ l, (p c && !c == b) = p c := by
        intro c _
        by_cases hc : c = b
        · simp [hc, hb]
        · simp [hc]
      rw [List.filter_cons_of_neg hb, List.filter_cons_of_neg hb, hrest, List.filter_congr hothers]
termination_by l => l.length
decreasing_by exact Nat.lt_succ_of_le (List.length_filter_le _ _)

theorem nodup_eraseDups : ∀ l : List β, l.eraseDups.Nodup
  | [] => List.nodup_nil
  | b :: l => by
    rw [List.eraseDups_cons, List.nodup_cons]
    refine ⟨fun hb => ?_, nodup_eraseDups (l.filter fun c => !c == b)⟩
    simpa using (List.mem_filter.mp (List.mem_eraseDups.mp hb)).2
termination_by l => l.length
decreasing_by exact Nat.lt_succ_of_le (List.length_filter_le _ _)

theorem eraseDups_of_nodup : ∀ {l : List β}, l.Nodup → l.eraseDups = l
  | [], _ => rfl
  | b :: l, h => by
    obtain ⟨hb, hl⟩ := List.nodup_cons.mp h
    have hothers : (l.filter fun c => !c == b) = l := by
      refine List.filter_eq_self.mpr fun c hc => ?_
      have hne : c ≠ b := fun hcb => hb (hcb ▸ hc)
      simpa using hne
    rw [List.eraseDups_cons, hothers, eraseDups_of_nodup hl]

omit [LawfulBEq β] [BEq β] in
theorem map_filterMap_key {look : β → Option γ} {key : γ → β}
    (hkey : ∀ b c, look b = some c → key c = b) :
    ∀ l : List β, (l.filterMap look).map key = l.filter fun b => (look b).isSome
  | [] => rfl
  | b :: l => by
    cases hb : look b with
    | none => simp [hb, map_filterMap_key hkey l]
    | some c => simp [hb, hkey b c hb, map_filterMap_key hkey l]

/-- What is looked up under each key once is what is looked up under all keys, just if no key under
which there is something is repeated. -/
theorem filterMap_eraseDups_iff {look : β → Option γ} {key : γ → β}
    (hkey : ∀ b c, look b = some c → key c = b) (l : List β) :
    l.eraseDups.filterMap look = l.filterMap look ↔ ∀ b c, look b = some c → l.count b ≤ 1 := by
  constructor
  · intro h b c hb
    have hkeys := congrArg (List.map key) h
    rw [map_filterMap_key hkey, map_filterMap_key hkey, filter_eraseDups] at hkeys
    have hnodup : (l.filter fun b => (look b).isSome).Nodup := hkeys ▸ nodup_eraseDups _
    have hcount := List.nodup_iff_count_le_one.mp hnodup b
    rwa [List.count_filter (by rw [hb]; rfl)] at hcount
  · intro h
    have hfound : ∀ l : List β,
        (l.filter fun b => (look b).isSome).filterMap look = l.filterMap look := by
      intro l
      rw [List.filterMap_filter]
      refine List.filterMap_congr fun b _ => ?_
      cases look b <;> rfl
    have hnodup : (l.filter fun b => (look b).isSome).Nodup := by
      refine List.nodup_iff_count_le_one.mpr fun b => ?_
      by_cases hb : (look b).isSome = true
      · obtain ⟨c, hc⟩ := Option.isSome_iff_exists.mp hb
        rw [List.count_filter (a := b) hb]
        exact h b c hc
      · have hmem : b ∉ l.filter fun b => (look b).isSome := by simp [hb]
        rw [List.count_eq_zero_of_not_mem hmem]
        exact Nat.zero_le 1
    rw [← hfound, filter_eraseDups, eraseDups_of_nodup hnodup, hfound]

end

/-- Work for all members of a list fails if it does for one of them, and cannot fail in another way. -/
theorem mapM_failed {ε β γ : Type} {f : β → Except ε γ} {e : ε} {b : β} (hb : f b = .error e) :
    ∀ {l : List β}, b ∈ l → (∀ c ∈ l, ∀ e', f c = .error e' → e' = e) → l.mapM f = .error e
  | c :: l, hmem, hsame => by
    rw [List.mapM_cons]
    cases hc : f c with
    | error e' =>
      rw [hsame c List.mem_cons_self e' hc]
      rfl
    | ok d =>
      have hrest : b ∈ l := by
        refine (List.mem_cons.mp hmem).resolve_left ?_
        rintro rfl
        rw [hb] at hc
        cases hc
      rw [mapM_failed hb hrest fun c hc => hsame c (List.mem_cons_of_mem _ hc)]
      rfl

theorem forall₂_filterMap {β γ : Type} {r : β → γ → Prop} {look : β → Option γ} :
    ∀ {l : List β}, (∀ b ∈ l, ∃ c, look b = some c ∧ r b c) → List.Forall₂ r l (l.filterMap look)
  | [], _ => .nil
  | b :: l, h => by
    obtain ⟨c, hc, hr⟩ := h b List.mem_cons_self
    rw [List.filterMap_cons_some hc]
    exact .cons hr (forall₂_filterMap fun b hb => h b (List.mem_cons_of_mem _ hb))

/-! ### Entities with distinct ids -/

/-- A list has the order of the list that it goes along with. -/
theorem pairwise_of_forall₂ {β γ : Type} {r : β → γ → Prop} {ord : β → β → Prop} {ord' : γ → γ → Prop}
    {xs : List β} {ys : List γ} (h : List.Forall₂ r xs ys) (hxs : xs.Pairwise ord)
    (hord : ∀ x y, r x y → y ∈ ys → ∀ x' y', r x' y' → y' ∈ ys → ord x x' → ord' y y') :
    ys.Pairwise ord' := by
  induction h with
  | nil => exact List.Pairwise.nil
  | @cons x y xs ys hxy hrest ih =>
    obtain ⟨hfirst, hxs⟩ := List.pairwise_cons.mp hxs
    refine List.pairwise_cons.mpr ⟨fun y' hy' => ?_, ih hxs fun x' y' hr hy x'' y'' hr' hy' => ?_⟩
    · obtain ⟨x', hx', hr'⟩ := exists_of_mem_right hrest hy'
      exact hord x y hxy List.mem_cons_self x' y' hr' (List.mem_cons_of_mem y hy') (hfirst x' hx')
    · exact hord x' y' hr (List.mem_cons_of_mem y hy) x'' y'' hr' (List.mem_cons_of_mem y hy')

/-- Documents in the order of rows are in the order of the keys. -/
theorem Generation.pairwise_ordered {g : Generation} {q : Query} {keys : List ColumnKey} :
    (g.ordered q keys).Pairwise fun d e => (compareDocuments keys d e).isLE := by
  refine List.pairwise_map.mpr ((pairwise_sortBy (Row.order keys) _).imp fun hrows => ?_)
  exact Ordering.isLE_left_of_isLE_then hrows

namespace Index

section

variable {α : Type} [Indexed α] {l l' entities : List α} {id : String} {a : α}

theorem find?_id_eq_some (hdistinct : (l.map Indexed.id).Nodup) :
    l.find? (fun a => Indexed.id a == id) = some a ↔ a ∈ l ∧ Indexed.id a = id := by
  constructor
  · intro h
    exact ⟨List.mem_of_find?_eq_some h, by simpa using List.find?_some h⟩
  · rintro ⟨ha, rfl⟩
    obtain ⟨b, hb⟩ : ∃ b, l.find? (fun b => Indexed.id b == Indexed.id a) = some b :=
      Option.isSome_iff_exists.mp (List.find?_isSome.mpr ⟨a, ha, by simp⟩)
    have hid : Indexed.id b = Indexed.id a := by simpa using List.find?_some hb
    rw [hb, List.inj_on_of_nodup_map hdistinct (List.mem_of_find?_eq_some hb) ha hid]

/-- It does not matter in which order an entity with an id is looked for, nor what else there is. -/
theorem find?_id_congr (hdistinct : (l.map Indexed.id).Nodup) (hdistinct' : (l'.map Indexed.id).Nodup)
    (h : ∀ a, Indexed.id a = id → (a ∈ l ↔ a ∈ l')) :
    l.find? (fun a => Indexed.id a == id) = l'.find? fun a => Indexed.id a == id := by
  refine Option.ext fun a => ?_
  rw [find?_id_eq_some hdistinct, find?_id_eq_some hdistinct']
  exact and_congr_left (h a)

/-- Entities are picked one for each key, at the place where the key is first. -/
theorem pickByIds_eq : ∀ (ids : List String) (found : List α),
    pickByIds ids found =
      ids.eraseDups.filterMap fun id => found.reverse.find? fun a => Indexed.id a == id
  | [], _ => rfl
  | id :: ids, found => by
    -- from the second time on there is nothing to pick for a key
    have hrest : ∀ {look look' : String → Option α}, look' id = none →
        (∀ k, k ≠ id → look' k = look k) →
        ids.eraseDups.filterMap look' = (ids.filter fun k => !k == id).eraseDups.filterMap look := by
      intro look look' hnone hothers
      rw [← filter_eraseDups, List.filterMap_filter]
      refine List.filterMap_congr fun k _ => ?_
      by_cases hk : k = id
      · simp [hk, hnone]
      · simp [hk, hothers k hk]
    rw [pickByIds, List.eraseDups_cons, List.filterMap_cons]
    cases hid : found.reverse.find? fun a => Indexed.id a == id with
    | none =>
      show pickByIds ids found = _
      rw [pickByIds_eq ids found]
      exact hrest hid fun _ _ => rfl
    | some a =>
      show a :: pickByIds ids (found.filter fun a => Indexed.id a != id) = a :: _
      rw [pickByIds_eq ids]
      congr 1
      refine hrest ?_ fun k hk => ?_
      · simp
      · rw [← List.filter_reverse, List.find?_filter]
        congr 1
        funext b
        by_cases hb : Indexed.id b = k <;> simp [hb, hk]

/-- The entity with a primary key, unless the key is blank. -/
def entity? (entities : List α) (id : String) : Option α :=
  if Text.isBlank id then none else entities.find? fun a => Indexed.id a == id

theorem id_of_entity? (h : entity? entities id = some a) : Indexed.id a = id := by
  unfold entity? at h
  split_ifs at h
  simpa using List.find?_some h

/-- Where only entities with an id were found, the first one is the entity with this id. -/
theorem head?_eq_entity? (hdistinct : (entities.map Indexed.id).Nodup) (hid : Text.isBlank id = false)
    (hperm : l.Perm (entities.filter fun a => Indexed.id a == id)) : l.head? = entity? entities id := by
  have hall : l.filter (fun a => Indexed.id a == id) = l :=
    List.filter_eq_self.mpr fun a ha => (List.mem_filter.mp (hperm.subset ha)).2
  have hdistinct' : (l.map Indexed.id).Nodup :=
    (hperm.map Indexed.id).nodup_iff.mpr (hdistinct.sublist (List.filter_sublist.map _))
  rw [entity?, hid, ← hall, List.head?_filter]
  refine find?_id_congr hdistinct' hdistinct fun a ha => ?_
  rw [hperm.mem_iff, List.mem_filter]
  simp [ha]

/-- Where the entities with some ids were found, the one with each id is picked. -/
theorem pickByIds_eq_entity? (hdistinct : (entities.map Indexed.id).Nodup) {ids : List String}
    (hperm : l.Perm (entities.filter fun a =>
      (ids.filter fun id => !Text.isBlank id).contains (Indexed.id a))) :
    pickByIds (ids.filter fun id => !Text.isBlank id) l =
      ids.eraseDups.filterMap (entity? entities) := by
  have hdistinct' : (l.reverse.map Indexed.id).Nodup :=
    (((List.reverse_perm l).trans hperm).map Indexed.id).nodup_iff.mpr
      (hdistinct.sublist (List.filter_sublist.map _))
  rw [pickByIds_eq, ← filter_eraseDups, List.filterMap_filter]
  refine List.filterMap_congr fun id hid => ?_
  cases hkey : Text.isBlank id with
  | true => simp [entity?, hkey]
  | false =>
    rw [entity?, hkey]
    refine find?_id_congr hdistinct' hdistinct fun a ha => ?_
    have hmem : (ids.filter fun id => !Text.isBlank id).contains (Indexed.id a) = true := by
      simpa [ha, hkey] using List.mem_eraseDups.mp hid
    rw [List.mem_reverse, hperm.mem_iff, List.mem_filter, and_iff_left hmem]

end

/-! ### Searches for keys -/

/-- Criteria for entities by their primary keys, whatever their last change was. -/
def keyed (t : Test) (count : Int) : Criteria :=
  { filters := [(keyField, t.required)], count, activity := .all }

section

variable {α : Type} [Indexed α] {i : Index} {g : Generation} {entities : List α} {c : Criteria}
  {q : Compiled} {s : Schema} {id : String} {ids : List String} {a : α}

/-- What is found is the first part of the entities that fulfil the criteria. They are in the order that
the criteria ask for, if they have keys. -/
theorem Contains.find_in_order (h : i.Contains g entities) (hq : i.compile c = .ok q)
    (hdecides : i.schema.decides c.activity = true) (hoffset : c.offset = 0)
    (hlimit : c.limit? ≠ some 0) :
    ∃ r found, (effect (Index.find α c) i).1 = .ok r ∧
      found.Perm (c.matching i.schema i.config.zone entities) ∧
      ((∀ a ∈ entities, Text.isBlank (i.schema.keyOf a) = false) →
        found.Pairwise fun a b => (c.order i.schema a b).isLE) ∧
      r.items = (c.limit?.map found.take).getD found := by
  obtain ⟨l, hl, rfl⟩ := Option.map_eq_some_iff.mp h.live
  have hs := Schema.describes_of_describe h.schema
  have hrun : l.content.canRun q.executable = true :=
    (Criteria.canRun_executable hs h.layout hq).trans hdecides
  obtain ⟨ordered, hordered⟩ : ∃ ordered, ordered =
    l.content.ordered q.executable (q.sort.map ColumnKey.sorting) := ⟨_, rfl⟩
  obtain ⟨found, hkept, hperm⟩ := List.perm_comp_forall₂
    (hordered ▸ Generation.ordered_perm : ordered.Perm (l.content.documents.filter q.executable.selects))
    (Criteria.kept_matching hs hq h.kept).flip
  have hlength : ordered.length ≤ maxCount := by
    rw [hkept.length_eq, hperm.length_eq]
    exact (List.length_filter_le _ _).trans h.countable
  have hpage : (ordered.take ((c.limit?.map fun limit => min (0 + limit) maxCount).getD
      ordered.length)).drop 0 = (c.limit?.map ordered.take).getD ordered := by
    rw [drop_take_window hlength]
    cases c.limit? <;> rfl
  have hitems : ((c.limit?.map ordered.take).getD ordered).mapM (Document.decode α i.schema) =
      .ok ((c.limit?.map found.take).getD found) := by
    apply mapM_of_forall₂
    cases c.limit? with
    | none => exact hkept.imp fun _ _ => Document.Keeps.decoded
    | some n => exact (List.forall₂_take n hkept).imp fun _ _ => Document.Keeps.decoded
  have hfind : l.content.find α i.schema q 0 c.limit? =
      .ok ⟨(c.limit?.map found.take).getD found, ordered.length, l.content.size⟩ := by
    rw [Generation.find_eq_ordered hrun, if_neg hlimit, ← hordered]
    simp only [hpage, hitems]
    rfl
  refine ⟨⟨(c.limit?.map found.take).getD found, ordered.length, l.content.size⟩, found, ?_, hperm,
    fun hkeyed => ?_, rfl⟩
  · rw [answer_find hl, hq, hoffset]
    exact hfind
  · have hpairs : ordered.Pairwise fun d e =>
        (compareDocuments (q.sort.map ColumnKey.sorting) d e).isLE :=
      hordered ▸ Generation.pairwise_ordered
    have hmem : ∀ a ∈ found, a ∈ entities := fun a ha => List.mem_of_mem_filter (hperm.subset ha)
    refine pairwise_of_forall₂ hkept hpairs fun d a had ha e b hbe hb hde => ?_
    rw [← Criteria.compareDocuments_eq hs (Criteria.compile_ok hq).2.1 had.encoded hbe.encoded
      (hkeyed a (hmem a ha)) (hkeyed b (hmem b hb))]
    exact hde

theorem Contains.find_some_order (h : i.Contains g entities) (hq : i.compile c = .ok q)
    (hdecides : i.schema.decides c.activity = true) (hoffset : c.offset = 0)
    (hlimit : c.limit? ≠ some 0) :
    ∃ r found, (effect (Index.find α c) i).1 = .ok r ∧
      found.Perm (c.matching i.schema i.config.zone entities) ∧
      r.items = (c.limit?.map found.take).getD found := by
  obtain ⟨r, found, hr, hperm, -, hitems⟩ := h.find_in_order hq hdecides hoffset hlimit
  exact ⟨r, found, hr, hperm, hitems⟩

/-! #### The criteria for keys -/

theorem compile_keyed {t : Test} {count : Int} {q? : Option Query} (hcount : -1 ≤ count)
    (ht : Test.query i.schema i.config.zone keyField t = .ok q?) :
    ∃ change, i.compile (keyed t count) = (i.compile { activity := .all }).map change := by
  have hfilters : Test.queries i.schema i.config.zone none (keyed t count).filters =
      .ok (q?.map (Query.fold none .and)) := by
    show Test.queries _ _ none [(keyField, ⟨.and, t⟩)] = _
    rw [Test.queries, ht]
    cases q? <;> simp [bind, Except.bind, Test.queries]
  exact ⟨_, Criteria.compile_of_filters (if_pos hcount) rfl hfilters⟩

/-- What the test says is what the criteria say. -/
theorem matching_keyed {t : Test} {count : Int} {zone : Instant.Zone} {p : α → Bool}
    (ht : ∀ a, Test.holds? zone (s.facts a) keyField t = some (p a)) :
    (keyed t count).matching s zone entities = entities.filter p := by
  refine List.filter_congr fun a _ => ?_
  have hfilters : (keyed t count).filters = [(keyField, ⟨.and, t⟩)] := rfl
  have hsearch : (keyed t count).search = none := rfl
  have hshown : (keyed t count).activity.shows (s.facts a) = true := by
    simp +decide [keyed, Activity.shows]
  rw [Criteria.holds, hshown, Criteria.outcome?, hsearch, hfilters]
  simp only [Option.bind_none]
  rw [Test.folded, ht a]
  simp [Test.folded, Condition.join]

theorem filterable_key (hs : s.KeyedBy α) (hname : s.primaryKey.name = keyField) :
    s.filterable keyField = .ok s.primaryKey := by
  have hfield : s.field keyField = .ok s.primaryKey := by
    rw [Schema.field, Schema.field?, if_pos hname]
  have hcap : s.primaryKey.capabilities.filterable = true := by rw [hs.describes.key]
  rw [Schema.filterable, hfield]
  exact if_pos hcap

/-- Tests on the key are tests on texts. -/
theorem query_key (hs : s.KeyedBy α) (hname : s.primaryKey.name = keyField) (zone : Instant.Zone)
    {t : Test} (ht : ∀ filters, t ≠ .clause filters) :
    Test.query s zone keyField t = s.testQuery zone keyField .string t := by
  have hstring : s.primaryKey.kind = .string := by rw [hs.describes.key]
  rw [Test.query, hs.describes.fieldQuery_eq (filterable_key hs hname), hstring]
  exact ht

/-- An entity is found under its id and under no other key. -/
theorem fits_key (hs : s.KeyedBy α) (hname : s.primaryKey.name = keyField)
    (hid : Text.isBlank id = false) (a : α) :
    (s.facts a).fits keyField id = (Indexed.id a == id) := by
  have hstring : s.primaryKey.kind = .string := by rw [hs.describes.key]
  rw [hs.describes.fits_text (filterable_key hs hname) hstring hid, ← hname,
    Schema.hasText_sole hs.sole, hs.read]
  simp [Bool.beq_eq_decide_eq]

end

/-! ### Lookups one by one and in batches -/

section

variable {α : Type} [Indexed α] {i : Index} {g : Generation} {entities : List α} {q : Compiled}

/-- A batch of keys is one search, and none if there is nothing to search for. -/
theorem effect_findByIds (ids : List String) (i : Index) :
    effect (findByIds α ids) i = if ids.all Text.isBlank then (.ok [], i)
      else
        let wanted := ids.filter fun id => !Text.isBlank id
        let search := effect (find α (keyed (.stringSet wanted .or) (-1))) i
        (search.1.map fun r => pickByIds wanted r.items, search.2) := by
  have hblank : (ids.filter fun id => !Text.isBlank id).isEmpty = ids.all Text.isBlank := by
    rw [Bool.eq_iff_iff, List.isEmpty_iff, List.filter_eq_nil_iff, List.all_eq_true]
    simp
  unfold findByIds
  simp only [hblank]
  split_ifs
  · rfl
  · exact effect_bind_pure _ _ i

/-- A lookup of a key that has to exist fails if there is nothing under the key. -/
theorem answer_getById (id : String) (i : Index) :
    (effect (getById α id) i).1 =
      (effect (findById α id) i).1.bind fun a? => a?.elim (.error (.notFound i.name id)) .ok := by
  have hname : (effect (findById α id) i).2.name = i.name := by
    unfold findById
    split_ifs
    · rfl
    · rw [effect_bind_pure]
      exact find_name α _ i
  unfold getById
  rw [effect_bind]
  generalize effect (findById α id) i = reply at hname ⊢
  rcases reply with ⟨_ | _ | a, j⟩
  · rfl
  · exact congrArg (fun name => Except.error (IndexError.notFound name id)) hname
  · rfl

/-- A batch that has to be complete fails at the first key under which nothing was found. -/
theorem answer_getByIds (ids : List String) (i : Index) :
    (effect (getByIds α ids) i).1 = (effect (findByIds α ids) i).1.bind fun found =>
      (ids.find? fun id => !found.any fun a => Indexed.id a == id).elim (.ok found) fun id =>
        .error (.notFound i.name id) := by
  have hname : (effect (findByIds α ids) i).2.name = i.name := by
    rw [effect_findByIds]
    split_ifs
    · rfl
    · exact find_name α _ i
  unfold getByIds
  rw [effect_bind]
  generalize effect (findByIds α ids) i = reply at hname ⊢
  rcases reply with ⟨_ | found, j⟩
  · rfl
  · simp only [Except.bind]
    cases ids.find? fun id => !found.any fun a => Indexed.id a == id with
    | none => rfl
    | some id => exact congrArg (fun name => Except.error (IndexError.notFound name id)) hname

namespace Contains

variable (h : i.Contains g entities)

include h

/-- A search for keys finds the entities that the test for the keys holds for, unless criteria without
any filters fail. -/
theorem find_keyed {t : Test} {count : Int} {q? : Option Query} {p : α → Bool} (hcount : -1 ≤ count)
    (hlimit : (keyed t count).limit? ≠ some 0)
    (hquery : Test.query i.schema i.config.zone keyField t = .ok q?)
    (hholds : ∀ a, Test.holds? i.config.zone (i.schema.facts a) keyField t = some (p a)) :
    ∃ found : List α, found.Perm (entities.filter p) ∧ ∀ {β : Type} (f : List α → β),
      (effect (Index.find α (keyed t count)) i).1.map (fun r => f r.items) =
        (i.compile { activity := .all }).map fun _ =>
          f (((keyed t count).limit?.map found.take).getD found) := by
  obtain ⟨l, hl, rfl⟩ := Option.map_eq_some_iff.mp h.live
  obtain ⟨change, hchange⟩ := compile_keyed hcount hquery
  cases hcompiled : i.compile { activity := .all } with
  | error e =>
    refine ⟨entities.filter p, .refl _, fun f => ?_⟩
    rw [answer_find hl, hchange, hcompiled]
    rfl
  | ok q =>
    have hq : i.compile (keyed t count) = .ok (change q) := by
      rw [hchange, hcompiled]
      rfl
    have hdecides : i.schema.decides (keyed t count).activity = true :=
      Schema.decides_eq_true.mpr (.inl (by simp +decide [keyed]))
    obtain ⟨r, found, hr, hperm, hitems⟩ := h.find_some_order hq hdecides rfl hlimit
    rw [matching_keyed hholds] at hperm
    refine ⟨found, hperm, fun f => ?_⟩
    rw [hr, ← hitems]
    rfl

variable (hs : i.schema.KeyedBy α) (hname : i.schema.primaryKey.name = keyField)
  (hdistinct : (entities.map Indexed.id).Nodup)

include hs hname hdistinct

/-- A lookup gives the entity with the key. -/
theorem findById (id : String) :
    (effect (Index.findById α id) i).1 = if Text.isBlank id then .ok none
      else (i.compile { activity := .all }).map fun _ => entity? entities id := by
  rw [answer_findById]
  by_cases hblank : Text.isBlank id = true
  · rw [if_pos hblank, if_pos hblank]
  rw [if_neg hblank, if_neg hblank]
  have hquery : Test.query i.schema i.config.zone keyField (.stringEq id) =
      .ok (some (Query.ofText keyField .string id)) :=
    (query_key hs hname _ (by simp)).trans rfl
  have hholds : ∀ a : α, Test.holds? i.config.zone (i.schema.facts a) keyField (.stringEq id) =
      some (Indexed.id a == id) := fun a => by
    rw [Test.holds?, fits_key hs hname (by simpa using hblank)]
  obtain ⟨found, hperm, hfound⟩ := h.find_keyed (show (-1 : Int) ≤ 1 by decide)
    (by simp [keyed, Criteria.limit?]) hquery hholds
  rw [← head?_eq_entity? hdistinct (by simpa using hblank) hperm]
  cases found <;> exact hfound List.head?

/-- No lookup fails where criteria without any filters compile. -/
theorem findById_ok (hq : i.compile { activity := .all } = .ok q) (id : String) :
    (effect (Index.findById α id) i).1 = .ok (entity? entities id) := by
  rw [h.findById hs hname hdistinct, hq, entity?]
  split_ifs <;> rfl

/-- A batch gives the entity with each key, at the place where the key is first. -/
theorem findByIds (ids : List String) :
    (effect (Index.findByIds α ids) i).1 = if ids.all Text.isBlank then .ok []
      else (i.compile { activity := .all }).map fun _ => ids.eraseDups.filterMap (entity? entities) := by
  rw [effect_findByIds]
  by_cases hblank : ids.all Text.isBlank = true
  · rw [if_pos hblank, if_pos hblank]
  rw [if_neg hblank, if_neg hblank]
  obtain ⟨wanted, hwanted⟩ : ∃ wanted, wanted = ids.filter fun id => !Text.isBlank id := ⟨_, rfl⟩
  rw [← hwanted]
  have hquery : Test.query i.schema i.config.zone keyField (.stringSet wanted .or) =
      .ok (Query.ofSet .or (wanted.map (Query.ofText keyField .string))) :=
    (query_key hs hname _ (by simp)).trans rfl
  have hholds : ∀ a : α, Test.holds? i.config.zone (i.schema.facts a) keyField (.stringSet wanted .or) =
      some (wanted.contains (Indexed.id a)) := fun a => by
    have hsome : ¬ (wanted.map fun id => Indexed.id a == id).isEmpty = true := by
      simpa [hwanted, List.filter_eq_nil_iff] using hblank
    have hmap : wanted.map ((i.schema.facts a).fits keyField) =
        wanted.map fun id => Indexed.id a == id := by
      refine List.map_congr_left fun id hid => fits_key hs hname ?_ a
      have hkept : id ∈ ids.filter fun id => !Text.isBlank id := hwanted ▸ hid
      simpa using (List.mem_filter.mp hkept).2
    rw [Test.holds?, hmap, Condition.ofSet, if_neg hsome, List.contains_eq_any_beq, List.any_map]
    rfl
  obtain ⟨found, hperm, hfound⟩ := h.find_keyed (show (-1 : Int) ≤ -1 by decide)
    (by simp [keyed, Criteria.limit?]) hquery hholds
  rw [← pickByIds_eq_entity? hdistinct (hwanted ▸ hperm), ← hwanted]
  exact hfound (pickByIds wanted)

/-- Where the lookups of keys do not fail, neither does the batch. -/
theorem lookups_done {ids : List String}
    (hdone : ∀ id ∈ ids, ∃ a?, (effect (Index.findById α id) i).1 = .ok a?) :
    (∀ id ∈ ids, (effect (Index.findById α id) i).1 = .ok (entity? entities id)) ∧
      (effect (Index.findByIds α ids) i).1 = .ok (ids.eraseDups.filterMap (entity? entities)) := by
  have hnone : ∀ {id}, Text.isBlank id = true → entity? entities id = none := fun hid => if_pos hid
  have hempty : (∀ id ∈ ids, Text.isBlank id = true) →
      ids.eraseDups.filterMap (entity? entities) = [] := fun hids =>
    List.filterMap_eq_nil_iff.mpr fun id hid => hnone (hids id (List.mem_eraseDups.mp hid))
  cases hcompiled : i.compile { activity := .all } with
  | ok q =>
    refine ⟨fun id _ => h.findById_ok hs hname hdistinct hcompiled id, ?_⟩
    rw [h.findByIds hs hname hdistinct, hcompiled]
    split_ifs with hids
    · rw [hempty (List.all_eq_true.mp hids)]
    · rfl
  | error e =>
    have hids : ∀ id ∈ ids, Text.isBlank id = true := by
      intro id hid
      obtain ⟨a?, ha⟩ := hdone id hid
      by_contra hnot
      rw [h.findById hs hname hdistinct, if_neg hnot, hcompiled] at ha
      cases ha
    constructor
    · intro id hid
      rw [h.findById hs hname hdistinct, if_pos (hids id hid), hnone (hids id hid)]
    · rw [h.findByIds hs hname hdistinct, if_pos (List.all_eq_true.mpr hids), hempty hids]

/-- Where the lookup of a key fails, no lookup finds anything, and the batch fails alike. -/
theorem lookups_failed {ids : List String} {id : String} {e : IndexError} (hid : id ∈ ids)
    (hfailed : (effect (Index.findById α id) i).1 = .error e) :
    (∀ k, (effect (Index.findById α k) i).1 = .ok none ∨ (effect (Index.findById α k) i).1 = .error e) ∧
      (effect (Index.findByIds α ids) i).1 = .error e := by
  simp only [h.findById hs hname hdistinct, h.findByIds hs hname hdistinct] at hfailed ⊢
  have hkey : ¬ Text.isBlank id = true := by
    intro hblank
    rw [if_pos hblank] at hfailed
    cases hfailed
  rw [if_neg hkey] at hfailed
  cases hcompiled : i.compile { activity := .all } with
  | ok q =>
    rw [hcompiled] at hfailed
    cases hfailed
  | error e' =>
    rw [hcompiled] at hfailed
    obtain rfl : e' = e := Except.error.inj hfailed
    constructor
    · intro k
      split_ifs
      · exact .inl rfl
      · exact .inr rfl
    · exact if_neg fun hids => hkey (List.all_eq_true.mp hids id hid)

/-- Where the lookups of keys do not fail, a complete batch fails at the first key that is missing. -/
theorem getByIds_done {ids : List String}
    (hdone : ∀ id ∈ ids, ∃ a?, (effect (Index.findById α id) i).1 = .ok a?) :
    (∀ id, ids.find? (fun id => !(effect (getById α id) i).1.isOk) = some id →
      (effect (getByIds α ids) i).1 = .error (.notFound i.name id)) ∧
    ∀ found, (ids.mapM fun id => (effect (getById α id) i).1) = .ok found →
      (effect (getByIds α ids) i).1 = (ids.eraseDups.mapM fun id => (effect (getById α id) i).1) ∧
      ∃ kept, (effect (getByIds α ids) i).1 = .ok kept ∧ (kept = found ↔ ids.Nodup) := by
  obtain ⟨hfind, hbatch⟩ := h.lookups_done hs hname hdistinct hdone
  have hget : ∀ id ∈ ids, (effect (getById α id) i).1 =
      (entity? entities id).elim (.error (.notFound i.name id)) .ok := by
    intro id hid
    rw [answer_getById, hfind id hid]
    rfl
  have hmissing : ∀ id ∈ ids, (!(ids.eraseDups.filterMap (entity? entities)).any fun a =>
      Indexed.id a == id) = !(effect (getById α id) i).1.isOk := by
    intro id hid
    rw [hget id hid]
    cases hlook : entity? entities id with
    | some a =>
      have hmem : a ∈ ids.eraseDups.filterMap (entity? entities) :=
        List.mem_filterMap.mpr ⟨id, List.mem_eraseDups.mpr hid, hlook⟩
      rw [List.any_eq_true.mpr ⟨a, hmem, by simp [id_of_entity? hlook]⟩]
      rfl
    | none =>
      have hother : ∀ a ∈ ids.eraseDups.filterMap (entity? entities), ¬ (Indexed.id a == id) = true := by
        intro a ha hsame
        obtain ⟨k, -, hk⟩ := List.mem_filterMap.mp ha
        have hkey : k = id := (id_of_entity? hk).symm.trans (by simpa using hsame)
        rw [← hkey, hk] at hlook
        cases hlook
      rw [List.any_eq_false.mpr hother]
      rfl
  have hanswer : (effect (getByIds α ids) i).1 =
      (ids.find? fun id => !(effect (getById α id) i).1.isOk).elim
        (.ok (ids.eraseDups.filterMap (entity? entities))) fun id => .error (.notFound i.name id) := by
    rw [answer_getByIds, hbatch, ← List.find?_congr hmissing]
    rfl
  constructor
  · intro id hid
    rw [hanswer, hid]
    rfl
  · intro found hfound
    have hall : ∀ id ∈ ids, ∃ a, entity? entities id = some a ∧ (effect (getById α id) i).1 = .ok a := by
      intro id hid
      obtain ⟨a, -, ha⟩ := exists_of_mem_left (forall₂_of_mapM hfound) hid
      refine ⟨a, ?_, ha⟩
      rw [hget id hid] at ha
      cases hlook : entity? entities id with
      | some b =>
        rw [hlook] at ha
        exact congrArg some (Except.ok.inj ha)
      | none =>
        rw [hlook] at ha
        cases ha
    have hnone : ids.find? (fun id => !(effect (getById α id) i).1.isOk) = none := by
      refine List.find?_eq_none.mpr fun id hid => ?_
      obtain ⟨a, -, ha⟩ := hall id hid
      rw [ha]
      simp [Except.toBool]
    have hkept : (effect (getByIds α ids) i).1 = .ok (ids.eraseDups.filterMap (entity? entities)) := by
      rw [hanswer, hnone]
      rfl
    have hsingle : ∀ {l : List String}, (∀ id ∈ l, id ∈ ids) →
        (l.mapM fun id => (effect (getById α id) i).1) = .ok (l.filterMap (entity? entities)) :=
      fun hl => mapM_of_forall₂ (forall₂_filterMap fun id hid => hall id (hl id hid))
    obtain rfl : ids.filterMap (entity? entities) = found :=
      Except.ok.inj ((hsingle fun _ => id).symm.trans hfound)
    refine ⟨hkept.trans (hsingle fun _ => List.mem_eraseDups.mp).symm, _, hkept, ?_⟩
    rw [filterMap_eraseDups_iff fun _ _ => id_of_entity?, List.nodup_iff_count_le_one]
    constructor
    · intro hcount id
      by_cases hid : id ∈ ids
      · obtain ⟨a, ha, -⟩ := hall id hid
        exact hcount id a ha
      · rw [List.count_eq_zero_of_not_mem hid]
        exact Nat.zero_le 1
    · intro hcount id _ _
      exact hcount id

end Contains

/-- **Batches are lookups one by one.** A batch gives what the lookups of its keys give, each key at the
place where it is first, without the missing ones. So it differs from the lookups of all keys in the list
just if a key is repeated under which there is something, and it fails where one of them fails. If none
does, a batch that has to be complete fails at the first key that is missing. If no key is missing, it
gives the entities of its keys, again each of them once: one for each place in the list just if nothing
is repeated. -/
theorem lookups_in_batches (h : i.Contains g entities) (hs : i.schema.KeyedBy α)
    (hname : i.schema.primaryKey.name = keyField) (hdistinct : (entities.map Indexed.id).Nodup)
    (ids : List String) :
    (effect (findByIds α ids) i).1 =
      (ids.eraseDups.mapM fun id => (effect (findById α id) i).1).map List.reduceOption ∧
    ((effect (findByIds α ids) i).1 =
        (ids.mapM fun id => (effect (findById α id) i).1).map List.reduceOption ↔
      ∀ id a, (effect (findById α id) i).1 = .ok (some a) → ids.count id ≤ 1) ∧
    (∀ e, (effect (findByIds α ids) i).1 = .error e → (effect (getByIds α ids) i).1 = .error e) ∧
    ((∀ id ∈ ids, ∃ a?, (effect (findById α id) i).1 = .ok a?) →
      (∀ id, ids.find? (fun id => !(effect (getById α id) i).1.isOk) = some id →
        (effect (getByIds α ids) i).1 = .error (.notFound i.name id)) ∧
      ∀ found, (ids.mapM fun id => (effect (getById α id) i).1) = .ok found →
        (effect (getByIds α ids) i).1 = (ids.eraseDups.mapM fun id => (effect (getById α id) i).1) ∧
        ∃ kept, (effect (getByIds α ids) i).1 = .ok kept ∧ (kept = found ↔ ids.Nodup)) := by
  have hrest : (∀ e, (effect (findByIds α ids) i).1 = .error e →
      (effect (getByIds α ids) i).1 = .error e) := by
    intro e he
    rw [answer_getByIds, he]
    rfl
  by_cases hdone : ∀ id ∈ ids, ∃ a?, (effect (findById α id) i).1 = .ok a?
  · obtain ⟨hfind, hbatch⟩ := h.lookups_done hs hname hdistinct hdone
    have hsingle : ∀ {l : List String}, (∀ id ∈ l, id ∈ ids) →
        (l.mapM fun id => (effect (findById α id) i).1).map List.reduceOption =
          .ok (l.filterMap (entity? entities)) := by
      intro l hl
      have hall : List.Forall₂ (fun id a? => (effect (findById α id) i).1 = .ok a?) l
          (l.map (entity? entities)) :=
        List.forall₂_map_right_iff.mpr (List.forall₂_same.mpr fun id hid => hfind id (hl id hid))
      have hfound : (l.map (entity? entities)).reduceOption = l.filterMap (entity? entities) :=
        List.filterMap_map
      rw [mapM_of_forall₂ hall, ← hfound]
      rfl
    refine ⟨hbatch.trans (hsingle fun _ => List.mem_eraseDups.mp).symm, ?_, hrest,
      h.getByIds_done hs hname hdistinct⟩
    rw [hbatch, hsingle fun _ => id, Except.ok.injEq,
      filterMap_eraseDups_iff fun _ _ => id_of_entity?]
    refine forall₂_congr fun id a => ?_
    by_cases hid : id ∈ ids
    · rw [hfind id hid, Except.ok.injEq]
    · have hcount : ids.count id ≤ 1 := by
        rw [List.count_eq_zero_of_not_mem hid]
        exact Nat.zero_le 1
      exact iff_of_true (fun _ => hcount) fun _ => hcount
  · obtain ⟨id, hid, e, hfailed⟩ : ∃ id ∈ ids, ∃ e, (effect (findById α id) i).1 = .error e := by
      push Not at hdone
      obtain ⟨id, hid, hdone⟩ := hdone
      refine ⟨id, hid, ?_⟩
      cases hreply : (effect (findById α id) i).1 with
      | error e => exact ⟨e, rfl⟩
      | ok a? => exact absurd hreply (hdone a?)
    obtain ⟨hothers, hbatch⟩ := h.lookups_failed hs hname hdistinct hid hfailed
    have hsingle : ∀ {l : List String}, id ∈ l →
        (l.mapM fun id => (effect (findById α id) i).1) = .error e := by
      intro l hmem
      refine mapM_failed (f := fun id => (effect (findById α id) i).1) hfailed hmem fun k _ e' he' => ?_
      rcases hothers k with hk | hk
      · rw [hk] at he'
        cases he'
      · exact Except.error.inj (he'.symm.trans hk)
    rw [hsingle (List.mem_eraseDups.mpr hid), hsingle hid]
    refine ⟨hbatch, iff_of_true hbatch fun k a hk => ?_, hrest, fun h => absurd h hdone⟩
    rcases hothers k with hk' | hk' <;> rw [hk'] at hk <;> cases hk

end

end Index

/-- Two versions are asked for, one of them twice, beside keys under which there is nothing. -/
theorem Index.lookups_in_batches_of_versions :
    ∃ i : Index, Index.stocked sharedVersions = .ok i ∧
      (effect (findByIds Dictionary ["d", "z", "", "a", "d"]) i).1 =
        .ok [dictionaryVersion "d" .update (some "1"), dictionaryVersion "a" .create (some "2")] ∧
      (effect (getByIds Dictionary ["d", "z", ""]) i).1 = .error (.notFound "Dictionary" "z") := by
  obtain ⟨g, hg⟩ := Index.contains_stocked rfl recalled_sharedVersions (by decide)
  have hkeyed := EntityKind.keyedBy (k := .dictionary) hg.schema
  have hdistinct : (sharedVersions.map Indexed.id).Nodup := by decide
  refine ⟨_, rfl, ?_, ?_⟩
  · rw [(Index.lookups_in_batches hg hkeyed rfl hdistinct _).1]
    simp only [hg.findById hkeyed rfl hdistinct]
    decide
  · obtain ⟨-, -, -, hcomplete⟩ := Index.lookups_in_batches hg hkeyed rfl hdistinct ["d", "z", ""]
    have hfound : ∀ id, _ = Except.ok _ := hg.findById_ok hkeyed rfl hdistinct rfl
    refine (hcomplete fun id _ => ⟨_, hfound id⟩).1 "z" ?_
    simp only [answer_getById, hfound]
    decide

/-- A key that is repeated gives its entity only once, even in a batch that has to be complete. -/
theorem Index.repetition_dropped :
    ∃ i : Index, Index.stocked sharedVersions = .ok i ∧
      (["a", "a"].mapM fun id => (effect (getById Dictionary id) i).1) =
        .ok [dictionaryVersion "a" .create (some "2"), dictionaryVersion "a" .create (some "2")] ∧
      (effect (findByIds Dictionary ["a", "a"]) i).1 = .ok [dictionaryVersion "a" .create (some "2")] ∧
      (effect (getByIds Dictionary ["a", "a"]) i).1 = .ok [dictionaryVersion "a" .create (some "2")] := by
  obtain ⟨g, hg⟩ := Index.contains_stocked rfl recalled_sharedVersions (by decide)
  have hkeyed := EntityKind.keyedBy (k := .dictionary) hg.schema
  have hdistinct : (sharedVersions.map Indexed.id).Nodup := by decide
  refine ⟨_, rfl, ?_, ?_, ?_⟩
  · simp only [answer_getById, hg.findById hkeyed rfl hdistinct]
    decide
  · rw [hg.findByIds hkeyed rfl hdistinct]
    decide
  · rw [answer_getByIds, hg.findByIds hkeyed rfl hdistinct]
    decide

end Codebook
