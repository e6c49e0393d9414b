/-
# Open indexes

What holds of an index while it is open, and of the disk: the writer sits in the directory of the
live generation and holds its lock, the content on the disk is what searches see, and the pointer
names the live generation. Opening an index brings this about and a commit keeps it; so does
everything that is done to a generation that is not live.

Key definitions: `Index.Relies`, `Index.Serving`, `Index.Committed`.
Key theorems: `Index.Serving.keep`, `Index.Serving.not_prefix`, `Index.Serving.commit`.
-/
import Codebook.Proofs.Directory
import Codebook.Proofs.Effect

namespace Codebook

/-! ### Paths -/

namespace IndexDirectory

variable {dir : IndexDirectory} {m n : Nat} {x y : String}

theorem generationPath_append (dir : IndexDirectory) (n : Nat) (x : String) :
    dir.generationPath n ++ [x] = dir.path ++ [generationName n, x] := by
  simp [generationPath]

theorem file_ne (h : x ≠ y) (path : Path) : path ++ [x] ≠ path ++ [y] := by
  simpa using h

theorem contentName_ne_lockName : contentName ≠ lockName := by decide

/-- The files of different generations are different. -/
theorem generationPath_ne (h : m ≠ n) : dir.generationPath m ++ [x] ≠ dir.generationPath n ++ [y] := by
  intro he
  rw [generationPath_append, generationPath_append, List.append_cancel_left_eq] at he
  exact h (generationName_injective (List.cons.inj he).1)

/-- A generation does not lie in another one. -/
theorem not_prefix_generationPath (h : m ≠ n) :
    ¬ dir.generationPath m <+: dir.generationPath n ++ [x] := by
  intro hp
  rw [generationPath_append, generationPath, List.prefix_append_right_inj, List.cons_prefix_cons] at hp
  exact h (generationName_injective hp.1)


/-- The files of a generation do not lie beside it. -/
theorem file_ne_child : dir.generationPath n ++ [x] ≠ dir.path ++ [y] := by
  intro he
  rw [generationPath_append, List.append_cancel_left_eq] at he
  simp at he

theorem generationPath_ne_pointer : dir.generationPath n ++ [x] ≠ dir.path ++ [pointerName] :=
  file_ne_child

/-- Beside a generation there is nothing that belongs to it. -/
theorem name_of_below (h : dir.generationPath n <+: dir.path ++ [x]) : x = generationName n := by
  rw [generationPath, List.prefix_append_right_inj, List.cons_prefix_cons] at h
  exact h.1.symm

theorem not_prefix_pointer : ¬ dir.generationPath n <+: dir.path ++ [pointerName] :=
  fun h => generationName_ne_pointer n (name_of_below h).symm

theorem not_prefix_draft : ¬ dir.generationPath n <+: dir.path ++ [draftName] :=
  fun h => generationName_ne_draft n (name_of_below h).symm

theorem not_draft_prefix : ¬ dir.path ++ [draftName] <+: dir.generationPath n ++ [x] := by
  intro hp
  rw [generationPath_append, List.prefix_append_right_inj, List.cons_prefix_cons] at hp
  exact generationName_ne_draft n hp.1.symm

end IndexDirectory

namespace Index

open IndexDirectory

variable {i i' : Index} {d d' : Disk} {l : Live} {w : Writer}

theorem isReady_of_live (h : i.live = some l) : i.isReady = true := by
  rw [isReady, h]
  rfl

theorem isReady_of_none (h : i.live = none) : i.isReady = false := by
  rw [isReady, h]
  rfl

theorem isReady_congr (h : i'.live = i.live) : i'.isReady = i.isReady := by
  rw [isReady, isReady, h]

/-! ### The invariant -/

/-- The files that an open index relies on. -/
def Relies (l : Live) (w : Writer) (q : Path) : Prop :=
  q = w.path ++ [contentName] ∨ q = w.path ++ [lockName] ∨ q = l.directory.path ++ [pointerName]

/-- The index is open with this live content and this writer, and the disk agrees with it. -/
structure Serving (i : Index) (d : Disk) (l : Live) (w : Writer) : Prop where
  live : i.live = some l
  writer : i.writer = some w
  root : l.directory.path = i.config.root ++ [i.name]
  name : l.directory.name = i.name
  path : w.path = l.directory.currentPath
  documents : w.documents = l.content.documents
  layout : l.content.layout = i.schema.layout
  content : d.node? (w.path ++ [contentName]) = some (.generation l.content)
  lock : ∃ bytes, d.node? (w.path ++ [lockName]) = some (.file bytes (some w.holder))
  pointer : l.directory.Points d
  sound : d.Sound

namespace Serving

/-- Counters and the journal do not matter. -/
theorem congr (h : Serving i d l w) (hl : i'.live = i.live) (hw : i'.writer = i.writer)
    (hs : i'.schema = i.schema) (hc : i'.config = i.config) : Serving i' d l w where
  live := hl.trans h.live
  writer := hw.trans h.writer
  root := by rw [h.root, hc, Index.name, Index.name, hs]
  name := by rw [h.name, Index.name, Index.name, hs]
  path := h.path
  documents := h.documents
  layout := by rw [h.layout, hs]
  content := h.content
  lock := h.lock
  pointer := h.pointer
  sound := h.sound

/-- Nor does what is done elsewhere on the disk. -/
theorem keep (h : Serving i d l w) (hs : d'.Sound)
    (hk : ∀ q n, Relies l w q → d.node? q = some n → d'.node? q = some n) : Serving i d' l w := by
  obtain ⟨bytes, hlock⟩ := h.lock
  exact { h with
    content := hk _ _ (.inl rfl) h.content
    lock := ⟨bytes, hk _ _ (.inr (.inl rfl)) hlock⟩
    pointer := h.pointer.keep fun n => hk _ n (.inr (.inr rfl))
    sound := hs }

/-- It relies on nothing in generations that are not live. -/
theorem not_prefix (h : Serving i d l w) {n : Nat} (hn : n ≠ l.directory.current) {q : Path}
    (hq : Relies l w q) : ¬ l.directory.generationPath n <+: q := by
  rcases hq with rfl | rfl | rfl
  · rw [h.path]
    exact not_prefix_generationPath hn
  · rw [h.path]
    exact not_prefix_generationPath hn
  · exact not_prefix_pointer

theorem isDirectory (h : Serving i d l w) : d.isDirectory w.path = true := by
  simpa [Path.parent] using h.sound.parent h.content

theorem isDirectory_root (h : Serving i d l w) : d.isDirectory l.directory.path = true := by
  obtain ⟨n, hn, -⟩ := h.pointer
  simpa [Path.parent] using h.sound.parent hn

theorem content_ne_pointer (h : Serving i d l w) :
    w.path ++ [contentName] ≠ l.directory.path ++ [pointerName] := by
  rw [h.path]
  exact generationPath_ne_pointer

/-- The content of the live generation can be written. -/
theorem place_content (h : Serving i d l w) (g : Generation) :
    ∃ d', DiskStep.place d (w.path ++ [contentName]) (.generation g) = some d' := by
  refine ⟨_, Disk.place_of_directory ?_ ?_⟩
  · simpa [Path.parent] using h.isDirectory
  · simp [Disk.isDirectory, h.content]

end Serving

/-! ### Reading and writing contents -/

theorem effect_readContent (path : Path) (d : Disk) {g : Generation}
    (h : d.node? (path ++ [contentName]) = some (.generation g)) :
    effect (readContent path) d = (.ok g, d) := by
  unfold readContent
  rw [effect_bind_ok (effect_get d), h]
  rfl

/-- Changes are applied to what a writer has, and all of it is written at once. -/
theorem effect_applyTo (w : Writer) (changes : List Change) (i : Index) (d : Disk) :
    effect (applyTo w changes) (i, d) =
      let documents := applyChanges i.schema w.documents changes
      match DiskStep.place d (w.path ++ [contentName])
          (.generation { i.emptyContent with documents }) with
      | some d' => (.ok { w with documents }, (i, d'))
      | none => (.error .search, (i, d)) := by
  unfold applyTo
  rw [effect_bind_ok (effect_current i d), effect_bind, effect_onDisk, effect_perform_one]
  simp only [DiskStep.run]
  generalize DiskStep.place d (w.path ++ [contentName]) _ = placed
  cases placed <;> rfl

theorem applyTo_ok {changes : List Change} {w' : Writer}
    (h : effect (applyTo w changes) (i, d) = (.ok w', (i', d'))) :
    i' = i ∧ w' = { w with documents := applyChanges i.schema w.documents changes } ∧
      DiskStep.place d (w.path ++ [contentName])
        (.generation { i.emptyContent with documents := w'.documents }) = some d' := by
  rw [effect_applyTo] at h
  simp only at h
  split at h
  · rename_i hp
    simp only [Prod.mk.injEq, Except.ok.injEq] at h
    obtain ⟨rfl, rfl, rfl⟩ := h
    exact ⟨rfl, rfl, hp⟩
  · simp at h

/-! ### Commits -/

/-- What kind of index it is. -/
def settings (i : Index) : Schema × Config :=
  (i.schema, i.config)

theorem effect_begin (i : Index) (d : Disk) (h : i.writer = some w) :
    effect begin (i, d) = (.ok {}, (i, d)) := by
  unfold begin
  rw [effect_bind_ok (effect_current i d), h]
  rfl

theorem effect_refresh {g : Generation} (hl : i.live = some l)
    (hg : d.node? (l.directory.currentPath ++ [contentName]) = some (.generation g)) :
    effect refresh (i, d) = (.ok (), ({ i with live := some { l with content := g } }, d)) := by
  unfold refresh
  rw [effect_bind_ok (effect_current i d), hl]
  simp only
  rw [effect_bind, effect_onDisk, effect_readContent _ _ hg]
  rfl

/-- What a commit of changes leaves of an open index: searches see the changes, the journal takes
note of them, and on the disk only the content of the live generation changes. -/
structure Committed (i : Index) (d : Disk) (l : Live) (w : Writer) (changes : List Change)
    (i' : Index) (d' : Disk) (g : Generation) : Prop where
  serving : Serving i' d' { l with content := g } { w with documents := g.documents }
  documents : g.documents = applyChanges i.schema l.content.documents changes
  journal : i'.journal = i.journal.map (· ++ changes)
  settings : i'.settings = i.settings
  others : ∀ q, w.path ++ [contentName] ≠ q → d'.node? q = d.node? q

/-- A commit of an open index succeeds. -/
theorem Serving.commit (h : Serving i d l w) (t : Transaction) :
    ∃ i' d' g, effect (commit t) (i, d) = (.ok (), (i', d')) ∧
      Committed i d l w t.changes i' d' g := by
  unfold Index.commit
  rw [effect_bind_ok (effect_current i d), h.writer]
  simp only
  by_cases hempty : t.changes.isEmpty
  · have hnil : t.changes = [] := List.isEmpty_iff.mp hempty
    rw [if_pos hempty, effect_update]
    refine ⟨_, d, l.content, rfl, ?_, by simp [hnil, applyChanges], ?_, rfl, fun _ _ => rfl⟩
    · rw [← h.documents]
      exact h.congr rfl rfl rfl rfl
    · cases i.journal <;> simp [hnil]
  · obtain ⟨d', hplace⟩ := h.place_content
      { i.emptyContent with documents := applyChanges i.schema w.documents t.changes }
    have happly := effect_applyTo w t.changes i d
    simp only [hplace] at happly
    have hnode := Disk.node?_place_self hplace
    have hother : ∀ q, w.path ++ [contentName] ≠ q → d'.node? q = d.node? q :=
      fun q hq => Disk.node?_place hplace hq
    rw [if_neg hempty, effect_bind, effect_tryCatch, happly]
    simp only
    rw [effect_bind_ok (effect_update _ i d'), effect_refresh ?live (h.path ▸ hnode)]
    case live => exact h.live
    refine ⟨_, d', { i.emptyContent with documents := applyChanges i.schema w.documents t.changes }, rfl,
      ?_, congrArg (applyChanges i.schema · t.changes) h.documents, rfl, rfl, hother⟩
    obtain ⟨bytes, hlock⟩ := h.lock
    exact {
      live := rfl
      writer := rfl
      root := h.root
      name := h.name
      path := h.path
      documents := rfl
      layout := rfl
      content := hnode
      lock := ⟨bytes, by rw [hother _ (file_ne contentName_ne_lockName _), hlock]⟩
      pointer := h.pointer.keep fun n hn => by rw [hother _ h.content_ne_pointer, hn]
      sound := h.sound.place hplace }

end Index
end Codebook
