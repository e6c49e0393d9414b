/-
# Another declaration

The entities of a type can be indexed under another declaration than before. Whether what an index
holds is out of date is seen by two signs: the fields of the engine under which its content was
written, when it is opened, and the number of documents, before it is rebuilt. If the fields of the
engine are others, the index is made anew and filled again. If they are the same nothing is noticed,
though the documents may be others: free text, for one, has the same field of the engine whatever is
found by it.

Key definitions: `Declared`, `Index.Built`.
Key theorems: `Index.Kept.redeclare`, `Index.Kept.heal`, `Index.Built.redeclared`.
-/
import Codebook.Proofs.Filling
import Codebook.Proofs.Repair

namespace Codebook

open IndexDirectory

/-- The entities of a type under another declaration. -/
def Declared (α : Type) (_ : Declaration) : Type := α

instance {α : Type} [Indexed α] (d : Declaration) : Indexed (Declared α d) where
  entityType := Indexed.entityType α
  declaration := d
  accessors := Indexed.accessors (α := α)
  id := Indexed.id (α := α)
  toData := Indexed.toData (α := α)
  ofData? := Indexed.ofData? (α := α)

namespace Index

variable {i j : Index} {d d' : Disk} {l : Live} {path : Path} {name : String}

/-! ### Opening under another declaration -/

/-- A directory that is made anew is empty. -/
theorem effect_remake (hd : d.Sound) (hp : d.isDirectory path = true)
    (hdirectory : d.isDirectory (path ++ [name]) = true) :
    ∃ d', effect (perform IndexError.io [.removeDirectory (path ++ [name]),
        .makeDirectory (path ++ [name])]) d = (.ok (), d') ∧
      d'.isDirectory (path ++ [name]) = true ∧ (∀ x, d'.node? ((path ++ [name]) ++ [x]) = none) ∧
      ∀ q, ¬ path ++ [name] <+: q → d'.node? q = d.node? q := by
  have hne : path ++ [name] ≠ [] := by simp
  have hout : ¬ path ++ [name] <+: path := fun hpre => by simpa using hpre.length_le
  have hparent : (d.erase (path ++ [name])).isDirectory path = true := by
    rwa [Disk.isDirectory, Disk.node?_erase_outside hout]
  have hgone : (d.erase (path ++ [name])).node? (path ++ [name]) = none := by
    rw [Disk.node?_erase, if_neg hne, if_pos List.prefix_rfl]
  have hmake : (d.erase (path ++ [name])).makeDirectories (path ++ [name]) =
      some ((d.erase (path ++ [name])).insert (path ++ [name]) .directory) := by
    rw [(hd.erase _).makeDirectories_concat hparent, Disk.enter, hgone]
  refine ⟨(d.erase (path ++ [name])).insert (path ++ [name]) .directory, ?_, ?_, fun x => ?_,
    fun q hq => ?_⟩
  · rw [effect_perform]
    simp only [Disk.runAll, DiskStep.run, hdirectory, if_true, hmake]
  · rw [Disk.isDirectory, Disk.node?_insert_self _ _ hne]
    rfl
  · rw [Disk.node?_insert_ne _ _ hne (by simp), Disk.node?_erase, if_neg (by simp),
      if_pos (List.prefix_append _ _)]
  · rw [Disk.node?_insert_ne _ _ hne (fun he => hq (he ▸ List.prefix_rfl)),
      Disk.node?_erase_outside hq]

/-- Content that was written under other fields of the engine is made anew, and nothing of the
generation is left. -/
theorem effect_openOrCreate_anew {g : Generation} (hd : d.Sound) (hp : d.isDirectory path = true)
    (hdirectory : d.isDirectory (path ++ [name]) = true)
    (hcontent : d.node? ((path ++ [name]) ++ [contentName]) = some (.generation g))
    (hlayout : g.layout ≠ j.schema.layout) :
    ∃ d', effect (openOrCreate j (path ++ [name])) d = (.ok j.emptyContent, d') ∧
      d'.isDirectory (path ++ [name]) = true ∧ d'.node? ((path ++ [name]) ++ [lockName]) = none ∧
      ∀ q, ¬ path ++ [name] <+: q → d'.node? q = d.node? q := by
  obtain ⟨d₁, hremake, hmade, hempty, hkeep⟩ := effect_remake hd hp hdirectory
  have hfree : d₁.isDirectory ((path ++ [name]) ++ [contentName]) = false := by
    rw [Disk.isDirectory, hempty]
    rfl
  have hpublish : DiskStep.place d₁ ((path ++ [name]) ++ [contentName]) (.generation j.emptyContent) =
      some (d₁.insert ((path ++ [name]) ++ [contentName]) (.generation j.emptyContent)) := by
    refine Disk.place_of_directory ?_ hfree
    rwa [Path.parent, List.dropLast_concat]
  have hother : ∀ q, (path ++ [name]) ++ [contentName] ≠ q →
      (d₁.insert ((path ++ [name]) ++ [contentName]) (.generation j.emptyContent)).node? q =
        d₁.node? q := fun q => Disk.node?_place hpublish
  refine ⟨d₁.insert ((path ++ [name]) ++ [contentName]) (.generation j.emptyContent), ?_, ?_, ?_,
    fun q hq => ?_⟩
  · rw [effect_openOrCreate_other hcontent hlayout, effect_bind_ok hremake]
    unfold createContent
    rw [effect_bind, effect_perform_one, DiskStep.run, hpublish]
    rfl
  · rwa [Disk.isDirectory, hother _ (by simp)]
  · rw [hother _ (file_ne contentName_ne_lockName _), hempty]
  · rw [hother q fun he => hq (he ▸ List.prefix_append _ _), hkeep q hq]

/-- The content that is found is that of the index if the fields of the engine are the same, and is made
anew if not. In the end nobody holds the lock. -/
theorem Kept.effect_openOrCreate (h : Kept i d l) (hd : d'.Sound)
    (hroot : d'.isDirectory l.directory.path = true)
    (hcurrent : d'.isDirectory l.directory.currentPath = true)
    (hcontent : d'.node? (l.directory.currentPath ++ [contentName]) = some (.generation l.content))
    (hfree : d'.node? (l.directory.currentPath ++ [lockName]) = none ∨
      ∃ bytes, d'.node? (l.directory.currentPath ++ [lockName]) = some (.file bytes none)) :
    ∃ g d'', effect (openOrCreate j l.directory.currentPath) d' = (.ok g, d'') ∧
      g = (if j.schema.layout = i.schema.layout then l.content else j.emptyContent) ∧
      d''.isDirectory l.directory.currentPath = true ∧
      (d''.node? (l.directory.currentPath ++ [lockName]) = none ∨
        ∃ bytes, d''.node? (l.directory.currentPath ++ [lockName]) = some (.file bytes none)) ∧
      ∀ q, ¬ l.directory.currentPath <+: q → d''.node? q = d'.node? q := by
  by_cases hsame : j.schema.layout = i.schema.layout
  · rw [if_pos hsame]
    exact ⟨l.content, d', effect_openOrCreate_same hcontent (h.layout.trans hsame.symm), rfl, hcurrent,
      hfree, fun _ _ => rfl⟩
  · rw [if_neg hsame]
    obtain ⟨d'', hcreated, hmade, hlock, hkeep⟩ := effect_openOrCreate_anew hd hroot hcurrent
      hcontent (h.layout ▸ Ne.symm hsame)
    exact ⟨j.emptyContent, d'', hcreated, rfl, hmade, .inl hlock, hkeep⟩

/-- **A closed index is opened under another schema of the same type.** It shows what it held if the
fields of the engine are the same, and nothing if they are not. -/
theorem Kept.redeclare (h : Kept i d l) (hclosed : i.isReady = false) (hj : j.isReady = false)
    (hjournal : j.journal = none) (hconfig : j.config = i.config) (hname : j.name = i.name) :
    ∃ j' d' g, effect Index.open (j, d) = (.ok (), (j', d')) ∧ Kept j' d' ⟨l.directory, g⟩ ∧
      j'.isReady = true ∧ j'.settings = j.settings ∧
      g = (if j.schema.layout = i.schema.layout then l.content else j.emptyContent) ∧
      ∀ q, ¬ l.directory.currentPath <+: q → d'.node? q = d.node? q := by
  obtain ⟨d₁, hopen, hsound, -, hother, hfree⟩ :=
    h.effect_open_takeOver hclosed hj hconfig hname
  have hcurrent : d₁.isDirectory l.directory.currentPath = true := by
    rw [Disk.isDirectory, hother _ (by simp)]
    exact h.isDirectory_current
  have hroot : d₁.isDirectory l.directory.path = true := by
    have hne : l.directory.currentPath ++ [lockName] ≠ l.directory.path := fun he => by
      simpa [currentPath, IndexDirectory.generationPath] using congrArg List.length he
    rw [Disk.isDirectory, hother _ hne]
    exact h.isDirectory_root
  have hcontent := (hother _ (file_ne contentName_ne_lockName.symm _)).trans h.content
  obtain ⟨g, d₂, hcreated, hg, hmade, hlock, hkeep⟩ := h.effect_openOrCreate (j := j) hsound hroot
    hcurrent hcontent hfree
  obtain ⟨bytes, hwriter⟩ := effect_createWriter_free (i := j) g.documents hmade hlock
    (hconfig ▸ h.heap)
  have hopened : effect Index.open (j, d) = (.ok (),
      ({ j with writer := some ⟨l.directory.currentPath, d₂.holders, g.documents⟩
                live := some ⟨l.directory, g⟩ },
        { d₂.insert (l.directory.currentPath ++ [lockName]) (.file bytes (some d₂.holders)) with
          holders := d₂.holders + 1 })) := by
    rw [hopen]
    unfold takeOver
    rw [effect_bind, effect_onDisk, hcreated]
    simp only
    rw [effect_bind, effect_onDisk, hwriter]
    rfl
  have htidy : d.Tidy (j.config.root ++ [j.name]) := by
    rw [hconfig, hname, ← h.root]
    exact h.tidy
  obtain ⟨l', hkept⟩ := kept_open h.sound h.counted htidy hj hjournal hopened
  obtain rfl : l' = ⟨l.directory, g⟩ := Option.some.inj (hkept.live rfl).symm
  refine ⟨_, _, g, hopened, hkept, rfl, rfl, hg, fun q hq => ?_⟩
  have hlockpath : q ≠ l.directory.currentPath ++ [lockName] := by
    rintro rfl
    exact hq (List.prefix_append _ _)
  refine (Disk.node?_insert_ne d₂ _ (by simp) hlockpath).trans ?_
  rw [hkeep q hq, hother q hlockpath.symm]

end Index

namespace Index

variable {α : Type} [Indexed α] {declaration other : Declaration} {config config' : Config}
  {i j k : Index} {d e : Disk} {l l' : Live} {as : List α} {ds : List Document} {store : Store α}

/-! ### Indexes that were built -/

/-- The index was opened under a declaration, on any disk in order, and then filled with these
entities. -/
def Built (α : Type) [Indexed α] (declaration : Declaration) (config : Config) (as : List α) (i : Index)
    (d : Disk) : Prop :=
  ∃ closed before opened during n, Index.new (Declared α declaration) config = .ok closed ∧
    before.Sound ∧ before.Counted ∧ before.Tidy (closed.config.root ++ [closed.name]) ∧
    effect Index.open (closed, before) = (.ok (), (opened, during)) ∧
    effect (rebuildFrom (Source.ofList as)) (opened, during) = (.ok n, (i, d))

theorem new_ok {β : Type} [Indexed β] (h : Index.new β config = .ok i) :
    Schema.describe β = .ok i.schema ∧ i.config = config ∧ i.journal = none ∧ i.isReady = false ∧
      i.name = Indexed.entityType β := by
  obtain ⟨schema, hschema, hnew⟩ := bind_eq_ok.mp h
  obtain rfl := Except.ok.inj hnew
  exact ⟨hschema, rfl, rfl, rfl, (Schema.describes_of_describe hschema).entityType⟩

/-- It shows the documents of the entities under the schema of the declaration. -/
theorem Built.shows (h : Built α declaration config as i d) :
    Schema.describe (Declared α declaration) = .ok i.schema ∧ i.config = config ∧
      ∃ ds l, as.mapM (Document.encode i.schema) = .ok ds ∧ i.live = some l ∧
        l.content = ⟨i.schema.layout, ds⟩ := by
  obtain ⟨closed, before, opened, during, n, hnew, hsound, -, -, hopen, hfill⟩ := h
  obtain ⟨hdescribe, hconfig, -, hclosed, -⟩ := new_ok hnew
  obtain ⟨l₀, w₀, hs₀, -, hset₀⟩ := serving_open hsound hclosed hopen
  obtain ⟨ds, l, w, hds, -, hs, hdocuments, -, -, hset, -⟩ := hs₀.rebuildFrom_ok hfill
  obtain ⟨hschema₀, hconfig₀⟩ := Prod.mk.inj hset₀
  obtain ⟨hschema, hconfig₁⟩ := Prod.mk.inj hset
  have hlayout := hs.layout
  rw [hschema, hschema₀] at hlayout ⊢
  rw [hschema₀] at hds
  refine ⟨hdescribe, (hconfig₁.trans hconfig₀).trans hconfig, ds, l, hds, hs.live, ?_⟩
  rw [← hlayout, ← hdocuments]

/-- It is kept as long as its generation can be counted, and its pointer can be drafted again. -/
theorem Built.kept (h : Built α declaration config as i d)
    (hcountable : ∀ l, i.live = some l → l.directory.current < Number.maxNat64) :
    ∃ l, Kept i d l ∧ i.isReady = true ∧ i.name = Indexed.entityType α ∧
      d.node? (l.directory.path ++ [draftName]) = none := by
  obtain ⟨closed, before, opened, during, n, hnew, hsound, hcounted, htidy, hopen, hfill⟩ := h
  obtain ⟨-, -, hjournal, hclosed, hname⟩ := new_ok hnew
  obtain ⟨l₀, hkept₀⟩ := kept_open hsound hcounted htidy hclosed hjournal hopen
  obtain ⟨l₁, w₀, hs₀, -, hset₀⟩ := serving_open hsound hclosed hopen
  have hready₀ : opened.isReady = true := by
    rw [isReady, hs₀.live]
    rfl
  obtain rfl : l₀ = l₁ := Option.some.inj ((hkept₀.live hready₀).symm.trans hs₀.live)
  -- the generation that was live before has a lesser number
  obtain ⟨-, l₂, w₂, -, -, hs₂, -, -, habove, -⟩ := hs₀.rebuildFrom_ok hfill
  have hmax := habove.trans (hcountable l₂ hs₂.live)
  obtain ⟨-, l, -, -, hkept, hready, -, hpath, hset, hgone⟩ := hkept₀.rebuildFrom_kept hready₀ hmax hfill
  refine ⟨l, hkept, hready, ?_, hpath ▸ hgone⟩
  rw [Index.name, (Prod.mk.inj hset).1, (Prod.mk.inj hset₀).1]
  exact hname

/-- Indexes of one schema that show the same content give the same answers. -/
theorem answers_of_content (hl : i.live = some l) (hl' : j.live = some l')
    (hcontent : l.content = l'.content) (hschema : i.schema = j.schema)
    (hzone : i.config.zone = j.config.zone) (c : Criteria) :
    (effect (find α c) i).1 = (effect (find α c) j).1 ∧
      (effect (count c) i).1 = (effect (count c) j).1 := by
  have hcompile : i.compile c = j.compile c := by
    rw [compile, compile, hschema, hzone]
  rw [answer_find hl, answer_find hl', answer_count hl, answer_count hl', hcompile, hcontent, hschema]
  exact ⟨rfl, rfl⟩

/-! ### What a run makes of another declaration -/

/-- **What is found when an index is opened under another schema and a run is made.** The documents
that were there stay if the fields of the engine are the same, and if not the entities are encoded
anew. -/
theorem Kept.heal (h : Kept i d l) (hclosed : i.isReady = false) (hj : j.isReady = false)
    (hjournal : j.journal = none) (hconfig : j.config = i.config) (hname : j.name = i.name)
    (hmax : l.directory.current < Number.maxNat64)
    (hdraft : d.node? (l.directory.path ++ [draftName]) = none)
    (hstore : store.source = .ofList store.entities.toList)
    (hsize : l.content.size = store.entities.toList.length)
    (hds : store.entities.toList.mapM (Document.encode j.schema) = .ok ds) (bus : EventBus) :
    ∃ j' d' summary k e bus' l', effect Index.open (j, d) = (.ok (), (j', d')) ∧
      effect (Service.rebuildAll ⟨j', store⟩) ((⟨j', store⟩, d'), bus) =
        (.ok summary, ((⟨k, store⟩, e), bus')) ∧
      summary.errors = 0 ∧ k.settings = j.settings ∧ k.live = some l' ∧
      l'.content = if j.schema.layout = i.schema.layout then l.content else ⟨j.schema.layout, ds⟩ := by
  obtain ⟨j', d', g, hopen, hkept, hready, hset, hg, hother⟩ :=
    h.redeclare hclosed hj hjournal hconfig hname
  obtain ⟨hschema, -⟩ := Prod.mk.inj hset
  have hlive := hkept.live hready
  have hcount : store.source.count = .ok store.entities.toList.length := by rw [hstore]; rfl
  have hlength : ds.length = store.entities.toList.length := (forall₂_of_mapM hds).length_eq.symm
  by_cases hsame : g.size = store.entities.toList.length
  · refine ⟨j', d', _, j', d', bus, _, hopen, Service.rebuildAll_intact hlive hcount hsame, rfl, hset,
      hlive, ?_⟩
    by_cases hlayout : j.schema.layout = i.schema.layout
    · rw [if_pos hlayout] at hg ⊢
      exact hg
    · -- an empty index is intact over an empty store, of which nothing is to be encoded
      rw [if_neg hlayout] at hg ⊢
      rw [hg, ← hlength] at hsame
      rw [List.length_eq_zero_iff.mp hsame.symm]
      exact hg
  · have hlayout : j.schema.layout ≠ i.schema.layout := by
      intro hlayout
      rw [if_pos hlayout] at hg
      exact hsame (hg ▸ hsize)
    have hdraft' : d'.isDirectory (l.directory.path ++ [draftName]) = false := by
      rw [Disk.isDirectory, hother _ not_prefix_draft, hdraft]
      rfl
    have hds' : store.entities.toList.mapM (Document.encode j'.schema) = .ok ds := by
      rw [hschema, hds]
    obtain ⟨n, ⟨k, e⟩, hrebuild⟩ := hkept.rebuildFrom_total hready hmax hdraft' hds'
    obtain ⟨ds', l', hds'', -, hkept', hready', hfilled, -, hset', -⟩ :=
      hkept.rebuildFrom_kept hready hmax hrebuild
    obtain rfl : ds' = ds := Except.ok.inj (hds''.symm.trans hds')
    obtain ⟨hschema', -⟩ := Prod.mk.inj hset'
    refine ⟨j', d', _, k, e, _, l', hopen,
      Service.rebuildAll_corrupted hlive hcount hsame (hstore ▸ hrebuild), rfl, hset'.trans hset,
      hkept'.live hready', ?_⟩
    rw [if_neg hlayout, ← hfilled, ← hschema, ← hschema', ← hkept'.layout]

/-- **Changing the declaration.** An index was filled from a store that can be read to its end, and was
closed. It is opened under another declaration, and a run that is not forced ends without an error. If
the fields of the engine are others, or every entity has the same document under both declarations, it
then answers everything as an index that was built under the other declaration. But if the fields of
the engine are the same it shows what it showed before. -/
theorem Built.redeclared (hbuilt : Built α declaration config store.entities.toList i d)
    (hcountable : ∀ l, i.live = some l → l.directory.current < Number.maxNat64)
    (hnew : Index.new (Declared α other) config = .ok j)
    (hfresh : Built α other config' store.entities.toList k e) (hzone : config'.zone = config.zone)
    (hstore : store.source = .ofList store.entities.toList) (bus : EventBus) :
    ∃ i' d' j' d'' summary s, effect close (i, d) = (.ok (), (i', d')) ∧
      effect Index.open (j, d') = (.ok (), (j', d'')) ∧
      effect (Service.rebuildAll ⟨j', store⟩) ((⟨j', store⟩, d''), bus) = (.ok summary, s) ∧
      summary.errors = 0 ∧
      (j.schema.layout ≠ i.schema.layout ∨
          (∀ a ∈ store.entities.toList, Document.encode j.schema a = Document.encode i.schema a) →
        ∀ c : Criteria, (effect (find α c) s.1.1.index).1 = (effect (find α c) k).1 ∧
          (effect (count c) s.1.1.index).1 = (effect (count c) k).1) ∧
      (j.schema.layout = i.schema.layout →
        s.1.1.index.live.map Live.content = i.live.map Live.content) := by
  obtain ⟨l, hkept, hready, hname, hdraft⟩ := hbuilt.kept hcountable
  obtain ⟨-, hconfig, old, l₀, hold, hl₀, hcontent₀⟩ := hbuilt.shows
  obtain rfl : l = l₀ := Option.some.inj ((hkept.live hready).symm.trans hl₀)
  obtain ⟨hdescribe', hconfig', ds, lₖ, hds, hlₖ, hcontentₖ⟩ := hfresh.shows
  obtain ⟨hdescribe, hconfigⱼ, hjournal, hj, hnameⱼ⟩ := new_ok hnew
  have hschema : j.schema = k.schema := Except.ok.inj (hdescribe.symm.trans hdescribe')
  have hsize : l.content.size = store.entities.toList.length := by
    rw [hcontent₀]
    exact (forall₂_of_mapM hold).length_eq.symm
  obtain ⟨d', hclose, hclosed, hother⟩ := hkept.effect_close hready
  obtain ⟨j', d'', summary, r, e', bus', l', hopen, hrun, herrors, hset, hlive, hcontent⟩ :=
    hclosed.heal rfl hj hjournal (hconfigⱼ.trans hconfig.symm)
      (hnameⱼ.trans hname.symm) (hcountable l hl₀) ((hother _ not_prefix_draft).trans hdraft) hstore hsize
      (hschema ▸ hds) bus
  obtain ⟨hschemaᵣ, hconfigᵣ⟩ := Prod.mk.inj hset
  refine ⟨_, d', j', d'', summary, _, hclose, hopen, hrun, herrors, fun hwhen => ?_, fun hsame => ?_⟩
  · have hshown : l'.content = lₖ.content := by
      rw [hcontent, hcontentₖ, ← hschema]
      by_cases hsame : j.schema.layout = i.schema.layout
      · -- what was there is what is encoded now
        have hencode := hwhen.resolve_left fun hne => hne hsame
        have hequal : old = ds := by
          refine Except.ok.inj (hold.symm.trans (Eq.trans ?_ hds))
          rw [← hschema]
          exact (mapM_congr hencode).symm
        rw [if_pos hsame, hcontent₀, hequal, hsame]
      · rw [if_neg hsame]
    exact answers_of_content hlive hlₖ hshown (hschemaᵣ.trans hschema)
      (by rw [hconfigᵣ, hconfigⱼ, hconfig', hzone])
  · rw [if_pos hsame] at hcontent
    rw [hl₀, hlive, Option.map_some, Option.map_some, hcontent]

end Index

/-! ### Records -/

namespace Record

/-- The declaration of records, but that free text may find the dictionary, or it has other names. -/
def declaredWith (search : Bool) (aliases : List String) : Declaration :=
  { primaryKey := "id", fields := [{ name := "dictionaryId", search, aliases }], collections := ["fields"] }

/-- The schema of that declaration, as long as the names are different from all others. -/
def schemaWith (searchable : Bool) (aliases : List String) : Schema :=
  { Record.schema with
    fields := ⟨"dictionaryId", "dictionaryId", .string, ⟨searchable, true, true⟩, aliases⟩ ::
      aliases.map fun name => ⟨name, "dictionaryId", .string, ⟨false, true, true⟩, []⟩
    columns := ⟨"id", .string, ⟨false, true, true⟩⟩ ::
      ⟨"dictionaryId", .string, ⟨searchable, true, true⟩⟩ ::
        aliases.map fun name => ⟨name, .string, ⟨false, true, true⟩⟩ }

example : Indexed.declaration Record = declaredWith false [] := rfl

/-- A closed index of records under a schema. -/
def closedUnder (s : Schema) : Index :=
  { schema := s, priority := 60 }

/-- A store with one record. -/
def oneStored : Store Record :=
  .ofList [.of "a" "x"]

/-- The index of records under a schema, filled with one of them on an empty disk. -/
def builtUnder (s : Schema) : Index × Disk :=
  (effect (Index.rebuildFrom oneStored.source) (effect Index.open (closedUnder s, {})).2).2

theorem built_under {declaration : Declaration} {s : Schema}
    (hnew : Index.new (Declared Record declaration) {} = .ok (closedUnder s))
    (hopen : (effect Index.open (closedUnder s, {})).1 = .ok ())
    (hfill : (effect (Index.rebuildFrom oneStored.source) (effect Index.open (closedUnder s, {})).2).1 =
      .ok 1) :
    Index.Built Record declaration {} oneStored.entities.toList (builtUnder s).1 (builtUnder s).2 :=
  ⟨closedUnder s, {}, _, _, 1, hnew, Disk.sound_empty, Disk.counted_empty, Disk.tidy_empty _,
    Prod.ext hopen rfl, Prod.ext hfill rfl⟩

theorem built_plain : Index.Built Record (declaredWith false []) {} oneStored.entities.toList
    (builtUnder Record.schema).1 (builtUnder Record.schema).2 :=
  built_under rfl rfl rfl

/-- A rebuild makes the second generation. -/
theorem countable_builtUnder {l : Live} (hl : (builtUnder Record.schema).1.live = some l) :
    l.directory.current < Number.maxNat64 := by
  have hcurrent : ((builtUnder Record.schema).1.live.map fun l => l.directory.current) = some 2 := rfl
  rw [hl, Option.map_some] at hcurrent
  rw [Option.some.inj hcurrent]
  decide

end Record

/-- With another name for the dictionary the fields of the engine are others. -/
theorem Index.Built.redeclared_of_records : ∃ i' d' j' d'' summary s,
    effect close (Record.builtUnder Record.schema) = (.ok (), (i', d')) ∧
    effect Index.open (Record.closedUnder (Record.schemaWith false ["dictionary"]), d') =
      (.ok (), (j', d'')) ∧
    effect (Service.rebuildAll ⟨j', Record.oneStored⟩) ((⟨j', Record.oneStored⟩, d''), {}) =
      (.ok summary, s) ∧ summary.errors = 0 ∧
    ∀ c : Criteria, (effect (count c) s.1.1.index).1 =
      (effect (count c) (Record.builtUnder (Record.schemaWith false ["dictionary"])).1).1 := by
  have hfresh : Index.Built Record (Record.declaredWith false ["dictionary"]) {}
      Record.oneStored.entities.toList (Record.builtUnder (Record.schemaWith false ["dictionary"])).1
      (Record.builtUnder (Record.schemaWith false ["dictionary"])).2 :=
    Record.built_under rfl rfl rfl
  have hnew : Index.new (Declared Record (Record.declaredWith false ["dictionary"])) {} =
      .ok (Record.closedUnder (Record.schemaWith false ["dictionary"])) := rfl
  obtain ⟨i', d', j', d'', summary, s, hclose, hopen, hrun, herrors, hanswers, -⟩ :=
    Record.built_plain.redeclared (fun _ => Record.countable_builtUnder) hnew hfresh rfl rfl {}
  have hother : (Record.schemaWith false ["dictionary"]).layout ≠ Record.schema.layout := by decide
  exact ⟨i', d', j', d'', summary, s, hclose, hopen, hrun, herrors,
    fun c => (hanswers (.inl hother) c).2⟩

/-- When free text begins to find the dictionary the fields of the engine are the same, and a run does
not notice. -/
theorem Index.stale_of_records : ∃ i' d' j' d'' summary s,
    Index.Built Record (Record.declaredWith false []) {} Record.oneStored.entities.toList
      (Record.builtUnder Record.schema).1 (Record.builtUnder Record.schema).2 ∧
    effect close (Record.builtUnder Record.schema) = (.ok (), (i', d')) ∧
    Index.new (Declared Record (Record.declaredWith true [])) {} =
      .ok (Record.closedUnder (Record.schemaWith true [])) ∧
    effect Index.open (Record.closedUnder (Record.schemaWith true []), d') = (.ok (), (j', d'')) ∧
    effect (Service.rebuildAll ⟨j', Record.oneStored⟩) ((⟨j', Record.oneStored⟩, d''), {}) =
      (.ok summary, s) ∧
    Index.Built Record (Record.declaredWith true []) {} Record.oneStored.entities.toList
      (Record.builtUnder (Record.schemaWith true [])).1 (Record.builtUnder (Record.schemaWith true [])).2 ∧
    (effect (count { search := some "x" }) s.1.1.index).1 = .ok 0 ∧
    (effect (count { search := some "x" }) (Record.builtUnder (Record.schemaWith true [])).1).1 = .ok 1 := by
  have hfresh : Index.Built Record (Record.declaredWith true []) {} Record.oneStored.entities.toList
      (Record.builtUnder (Record.schemaWith true [])).1 (Record.builtUnder (Record.schemaWith true [])).2 :=
    Record.built_under rfl rfl rfl
  obtain ⟨l, hkept, hready, -, hdraft⟩ := Record.built_plain.kept fun _ => Record.countable_builtUnder
  have hshown : l.content = ((Record.builtUnder Record.schema).1.live.map Live.content).getD ⟨[], []⟩ := by
    rw [hkept.live hready]
    rfl
  obtain ⟨d', hclose, hclosed, hother⟩ := hkept.effect_close hready
  obtain ⟨ds, hds⟩ : ∃ ds, Record.oneStored.entities.toList.mapM
    (Document.encode (Record.schemaWith true [])) = .ok ds := ⟨_, rfl⟩
  have hj : (Record.closedUnder (Record.schemaWith true [])).isReady = false := rfl
  have hstore : Record.oneStored.source = .ofList Record.oneStored.entities.toList := rfl
  obtain ⟨j', d'', summary, k, e, bus, l', hopen, hrun, -, hset, hlive, hcontent⟩ :=
    hclosed.heal rfl hj rfl rfl rfl (Record.countable_builtUnder (hkept.live hready))
      ((hother _ not_prefix_draft).trans hdraft) hstore (by rw [hshown]; rfl) hds {}
  refine ⟨_, d', j', d'', summary, _, Record.built_plain, hclose, rfl, hopen, hrun, hfresh, ?_, rfl⟩
  -- the fields of the engine are the same
  have hkeptContent : l'.content = l.content := hcontent.trans (if_pos rfl)
  obtain ⟨hschema, hconfig⟩ := Prod.mk.inj hset
  rw [answer_count hlive, compile, hschema, hconfig, hkeptContent, hshown]
  rfl

end Codebook
