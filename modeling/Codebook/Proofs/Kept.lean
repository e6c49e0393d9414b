/-
# Indexes between requests

Between requests an index is open, or it was closed and can be opened again. Its live generation is
the only one in its directory, and no rebuild is under way. Requests keep it so: a commit changes the
documents of the live generation, opening and closing an index change who holds its lock, and nothing
else on the disk changes.

Key definitions: `Index.Kept`, `Request.changes`, `Request.leaves`, `Request.committed`,
`Index.Progress`.
Key theorems: `Index.Kept.effect_open`, `Index.Kept.request`, `Index.Kept.requests`.
-/
import Codebook.Proofs.Answers
import Codebook.Proofs.Requests

namespace Codebook

namespace Request

/-- The changes that a request makes if the index is open. -/
def changes : Request → List Change
  | commit t => t.changes
  | _ => []

/-- Whether the index is open after a request. -/
def leaves (ready : Bool) : Request → Bool
  | close => false
  | «open» => true
  | _ => ready

/-- The changes that requests make to an index that is open or not. -/
def committed (ready : Bool) : List Request → List Change
  | [] => []
  | r :: rs => (if ready then r.changes else []) ++ committed (r.leaves ready) rs

/-- Whether the index is open after requests. -/
def leavesAll (ready : Bool) (rs : List Request) : Bool :=
  rs.foldl leaves ready

/-- The state after a request. -/
def after (α : Type) [Indexed α] (s : Index × Disk) (r : Request) : Index × Disk :=
  (effect (r.work α) s).2

/-- The state after requests. -/
def afterAll (α : Type) [Indexed α] (s : Index × Disk) (rs : List Request) : Index × Disk :=
  rs.foldl (after α) s

end Request

namespace Disk

variable {d : Disk} {p q : Path} {n : Node} {k : Nat}

/-- The number of holders is no part of what is found. -/
theorem Sound.count (h : d.Sound) (k : Nat) : ({ d with holders := k } : Disk).Sound :=
  ⟨h.nodup, h.named, h.inside⟩

theorem Counted.insert (h : d.Counted) (hp : p ≠ []) (hk : d.holders ≤ k)
    (hn : ∀ bytes j, n = .file bytes (some j) → j < k) :
    ({ d.insert p n with holders := k } : Disk).Counted := by
  intro q bytes j hq
  rw [show ({ d.insert p n with holders := k } : Disk).node? q = (d.insert p n).node? q from rfl,
    node?_insert d n hp] at hq
  split_ifs at hq
  · exact hn bytes j (Option.some.inj hq)
  · exact (h q bytes j hq).trans_le hk

/-- Where a file is there is nothing below. -/
theorem Sound.node?_erase_file (h : d.Sound) {bytes : List UInt8} {holder : Option Nat}
    (hp : d.node? p = some (.file bytes holder)) (hq : p ≠ q) : (d.erase p).node? q = d.node? q := by
  by_cases hpre : p <+: q
  · have hnone : d.node? q = none := by
      refine Option.eq_none_iff_forall_ne_some.mpr fun n hn => ?_
      have hdirectory := h.above hn hpre hq
      simp [isDirectory, hp] at hdirectory
    have hne : q ≠ [] := by
      rintro rfl
      simp at hnone
    rw [node?_erase, if_neg hne, if_pos hpre, hnone]
  · exact node?_erase_outside hpre

end Disk

namespace Index

open IndexDirectory

variable {i i' : Index} {d d' : Disk} {l l' : Live} {w : Writer}

/-! ### The invariant -/

/-- The index is open, or was closed so that it can be opened again. -/
structure Kept (i : Index) (d : Disk) (l : Live) : Prop where
  root : l.directory.path = i.config.root ++ [i.name]
  name : l.directory.name = i.name
  layout : l.content.layout = i.schema.layout
  journal : i.journal = none
  valid : i.config.validate = .ok ()
  heap : i.config.heapPerThread < Config.maxWriterHeapBytes
  countable : l.directory.current ≤ Number.maxNat64
  sound : d.Sound
  counted : d.Counted
  content : d.node? (l.directory.currentPath ++ [contentName]) = some (.generation l.content)
  pointer : l.directory.Points d
  lone : ∀ name n, generationNumber? name = some n → name ≠ generationName l.directory.current →
    d.node? (l.directory.path ++ [name]) = none
  access : (∃ w, Serving i d l w) ∨ i.live = none ∧ i.writer = none ∧
    ∃ bytes, d.node? (l.directory.currentPath ++ [lockName]) = some (.file bytes none)

namespace Kept

/-- An index that is open is kept if its generation is the only one. -/
theorem of_serving (h : Serving i d l w) (hjournal : i.journal = none)
    (hvalid : i.config.validate = .ok ()) (hheap : i.config.heapPerThread < Config.maxWriterHeapBytes)
    (hcountable : l.directory.current ≤ Number.maxNat64) (hcounted : d.Counted)
    (hlone : ∀ name n, generationNumber? name = some n →
      name ≠ generationName l.directory.current → d.node? (l.directory.path ++ [name]) = none) :
    Kept i d l where
  root := h.root
  name := h.name
  layout := h.layout
  journal := hjournal
  valid := hvalid
  heap := hheap
  countable := hcountable
  sound := h.sound
  counted := hcounted
  content := h.path ▸ h.content
  pointer := h.pointer
  lone := hlone
  access := .inl ⟨w, h⟩

/-- Counters do not matter. -/
theorem congr (h : Kept i d l) (hs : i'.schema = i.schema) (hc : i'.config = i.config)
    (hj : i'.journal = i.journal) (hw : i'.writer = i.writer) (hl : i'.live = i.live) : Kept i' d l where
  root := by rw [h.root, hc, Index.name, Index.name, hs]
  name := by rw [h.name, Index.name, Index.name, hs]
  layout := by rw [h.layout, hs]
  journal := hj.trans h.journal
  valid := by rw [hc, h.valid]
  heap := by rw [hc]; exact h.heap
  countable := h.countable
  sound := h.sound
  counted := h.counted
  content := h.content
  pointer := h.pointer
  lone := h.lone
  access := h.access.imp (fun ⟨w, hw'⟩ => ⟨w, hw'.congr hl hw hs hc⟩) fun ⟨hlive, hwriter, hlock⟩ =>
    ⟨hl.trans hlive, hw.trans hwriter, hlock⟩

theorem serving (h : Kept i d l) (hready : i.isReady = true) : ∃ w, Serving i d l w := by
  refine h.access.resolve_right fun ⟨hlive, _⟩ => ?_
  simp [isReady_of_none hlive] at hready

theorem live (h : Kept i d l) (hready : i.isReady = true) : i.live = some l :=
  (h.serving hready).elim fun _ hs => hs.live

theorem closed (h : Kept i d l) (hready : i.isReady = false) : i.live = none ∧ i.writer = none ∧
    ∃ bytes, d.node? (l.directory.currentPath ++ [lockName]) = some (.file bytes none) := by
  refine h.access.resolve_left fun ⟨w, hs⟩ => ?_
  simp [isReady_of_live hs.live] at hready

theorem isDirectory_root (h : Kept i d l) : d.isDirectory l.directory.path = true := by
  obtain ⟨n, hn, -⟩ := h.pointer
  simpa [Path.parent] using h.sound.parent hn

theorem isDirectory_current (h : Kept i d l) : d.isDirectory l.directory.currentPath = true := by
  simpa [Path.parent] using h.sound.parent h.content

/-- The live generation is the only one. -/
theorem mem_generations_iff (h : Kept i d l) {n : Nat} (hn : n ∈ l.directory.generations d) :
    n = l.directory.current := by
  obtain ⟨name, hnode, hnumber⟩ := (mem_generations h.sound).mp hn
  by_contra hne
  have hname : name ≠ generationName l.directory.current := by
    rintro rfl
    exact hne (number_of_generationName hnumber)
  rw [h.lone name n hnumber hname] at hnode
  simp at hnode

theorem orphans (h : Kept i d l) : l.directory.orphans d = [] := by
  refine List.filter_eq_nil_iff.mpr fun n hn => ?_
  simp [h.mem_generations_iff hn]

end Kept

/-! ### Opening and closing -/

/-- A lock that nobody holds is taken. -/
theorem effect_createWriter_free {path : Path} (documents : List Document)
    (hp : d.isDirectory path = true)
    (hlock : d.node? (path ++ [lockName]) = none ∨
      ∃ bytes, d.node? (path ++ [lockName]) = some (.file bytes none))
    (hheap : i.config.heapPerThread < Config.maxWriterHeapBytes) :
    ∃ bytes, effect (createWriter i path documents) d = (.ok ⟨path, d.holders, documents⟩,
      { d.insert (path ++ [lockName]) (.file bytes (some d.holders)) with holders := d.holders + 1 }) := by
  have hfree : d.isDirectory (path ++ [lockName]) = false := by
    rcases hlock with hlock | ⟨bytes, hlock⟩ <;> simp [Disk.isDirectory, hlock]
  obtain ⟨bytes, hrun⟩ : ∃ bytes, (DiskStep.lock (path ++ [lockName]) d.holders).run d =
      some (d.insert (path ++ [lockName]) (.file bytes (some d.holders))) := by
    rcases hlock with hlock | ⟨bytes, hlock⟩
    · exact ⟨[], by
        rw [DiskStep.run, hlock]
        exact Disk.place_of_directory (by simpa [Path.parent] using hp) hfree⟩
    · exact ⟨bytes, by
        rw [DiskStep.run, hlock]
        exact Disk.place_of_directory (by simpa [Path.parent] using hp) hfree⟩
  refine ⟨bytes, ?_⟩
  unfold createWriter
  rw [effect_bind_ok (effect_get d)]
  simp only
  rw [effect_bind, effect_perform_one, hrun]
  simp only
  rw [effect_bind_ok (effect_modify _ _), if_neg (Nat.not_le.mpr hheap)]
  rfl

theorem Kept.effect_take (h : Kept i d l) (hsound : d'.Sound) (hholders : d'.holders = d.holders)
    (hother : ∀ q, l.directory.currentPath ++ [lockName] ≠ q → d'.node? q = d.node? q)
    (hfree : d'.node? (l.directory.currentPath ++ [lockName]) = none ∨
      ∃ bytes, d'.node? (l.directory.currentPath ++ [lockName]) = some (.file bytes none)) :
    ∃ w d'', effect (do
        let content ← onDisk (openOrCreate i l.directory.currentPath)
        let writer ← onDisk (createWriter i l.directory.currentPath content.documents)
        update fun i => { i with writer := some writer, live := some ⟨l.directory, content⟩ }) (i, d') =
        (.ok (), ({ i with writer := some w, live := some l }, d'')) ∧
      Kept { i with writer := some w, live := some l } d'' l ∧
      ∀ q, ¬ l.directory.currentPath <+: q → d''.node? q = d.node? q := by
  have hcontent := hother _ (file_ne contentName_ne_lockName.symm _) |>.trans h.content
  have hdirectory : d'.isDirectory l.directory.currentPath = true := by
    rw [Disk.isDirectory, hother _ (by simp)]
    exact h.isDirectory_current
  obtain ⟨bytes, hwriter⟩ := effect_createWriter_free l.content.documents hdirectory hfree h.heap
  have hp : l.directory.currentPath ++ [lockName] ≠ [] := by simp
  have hnot : d'.isDirectory (l.directory.currentPath ++ [lockName]) = false := by
    rcases hfree with hfree | ⟨bytes, hfree⟩ <;> simp [Disk.isDirectory, hfree]
  have hcounted : d'.Counted := by
    intro q b n hq
    rw [hholders]
    by_cases hne : l.directory.currentPath ++ [lockName] = q
    · subst hne
      rcases hfree with hfree | ⟨bytes, hfree⟩ <;> simp [hfree] at hq
    · exact h.counted q b n (hother q hne ▸ hq)
  have hkeep : ∀ q, l.directory.currentPath ++ [lockName] ≠ q →
      (d'.insert (l.directory.currentPath ++ [lockName]) (.file bytes (some d'.holders))).node? q =
        d.node? q := fun q hq => by
    rw [Disk.node?_insert_ne d' _ hp (Ne.symm hq), hother q hq]
  refine ⟨⟨l.directory.currentPath, d'.holders, l.content.documents⟩,
    { d'.insert (l.directory.currentPath ++ [lockName]) (.file bytes (some d'.holders)) with
      holders := d'.holders + 1 }, ?_,
    of_serving (w := ⟨l.directory.currentPath, d'.holders, l.content.documents⟩) ?_ h.journal h.valid
      h.heap h.countable ?_ ?_, ?_⟩
  · rw [effect_bind, effect_onDisk, effect_openOrCreate_same hcontent h.layout]
    simp only
    rw [effect_bind, effect_onDisk, hwriter]
    rfl
  · exact {
      live := rfl
      writer := rfl
      root := h.root
      name := h.name
      path := rfl
      documents := rfl
      layout := h.layout
      content := (hkeep _ (file_ne contentName_ne_lockName.symm _)).trans h.content
      lock := ⟨bytes, Disk.node?_insert_self d' _ hp⟩
      pointer := h.pointer.keep fun n hn => (hkeep _ generationPath_ne_pointer).trans hn
      sound := (hsound.insert hp (by simpa [Path.parent] using hdirectory) (.inr hnot)).count _ }
  · refine hcounted.insert hp (Nat.le_succ _) fun _ j hj => ?_
    simp only [Node.file.injEq, Option.some.injEq] at hj
    omega
  · intro name n hn hname
    exact (hkeep _ file_ne_child).trans (h.lone name n hn hname)
  · exact fun q hq => hkeep q fun he => hq (he ▸ List.prefix_append _ _)

/-- To open an index where another one was closed there is nothing to bring into order but the lock that
it left. -/
theorem Kept.effect_open_takeOver {j : Index} (h : Kept i d l) (hclosed : i.isReady = false)
    (hj : j.isReady = false) (hconfig : j.config = i.config) (hname : j.name = i.name) :
    ∃ d', effect Index.open (j, d) = effect (takeOver j l.directory) (j, d') ∧ d'.Sound ∧
      d'.holders = d.holders ∧
      (∀ q, l.directory.currentPath ++ [lockName] ≠ q → d'.node? q = d.node? q) ∧
      (d'.node? (l.directory.currentPath ++ [lockName]) = none ∨
        ∃ bytes, d'.node? (l.directory.currentPath ++ [lockName]) = some (.file bytes none)) := by
  obtain ⟨-, -, bytes, hlock⟩ := h.closed hclosed
  have hsettings : effect (liftM j.config.validate : IndexM Unit) (j, d) = (.ok (), (j, d)) := by
    rw [effect_lift, hconfig, h.valid]
  have hdirectory : effect (onDisk (IndexDirectory.open j.config.root j.name)) (j, d) =
      (.ok l.directory, (j, d)) := by
    rw [effect_onDisk, hconfig, hname, effect_open_present h.sound h.root h.name h.pointer
      h.isDirectory_root h.isDirectory_current h.countable]
  have hsweep : effect (onDisk l.directory.sweep) (j, d) = (.ok 0, (j, d)) := by
    rw [effect_onDisk, IndexDirectory.effect_sweep h.isDirectory_root h.orphans]
  unfold Index.open
  rw [effect_bind_ok (effect_current j d), hj, if_neg Bool.false_ne_true,
    effect_bind_ok hsettings, effect_bind_ok hdirectory, effect_bind_ok hsweep]
  split_ifs
  · have hclear : effect (onDisk (l.directory.clearStaleLock l.directory.currentPath)) (j, d) =
        (.ok true, (j, d.erase (l.directory.currentPath ++ [lockName]))) := by
      have hrun : (DiskStep.removeFile (l.directory.currentPath ++ [lockName])).run d =
          some (d.erase (l.directory.currentPath ++ [lockName])) := by
        simp [DiskStep.run, Disk.contains, Disk.isDirectory, hlock]
      rw [effect_onDisk]
      unfold clearStaleLock
      rw [effect_bind_ok (effect_get d), hlock]
      simp only
      rw [effect_bind, effect_perform_one, hrun]
      rfl
    rw [effect_bind_ok hclear]
    refine ⟨_, rfl, h.sound.erase _, rfl, fun q hq => h.sound.node?_erase_file hlock hq, .inl ?_⟩
    rw [Disk.node?_erase, if_neg (by simp), if_pos List.prefix_rfl]
  · exact ⟨d, rfl, h.sound, rfl, fun _ _ => rfl, .inr ⟨bytes, hlock⟩⟩

/-- An index that was closed is opened again with the content that it had. -/
theorem Kept.effect_open (h : Kept i d l) (hclosed : i.isReady = false) :
    ∃ w d', effect Index.open (i, d) = (.ok (), ({ i with writer := some w, live := some l }, d')) ∧
      Kept { i with writer := some w, live := some l } d' l ∧
      ∀ q, ¬ l.directory.currentPath <+: q → d'.node? q = d.node? q := by
  obtain ⟨d', hopen, hsound, hholders, hother, hfree⟩ :=
    h.effect_open_takeOver hclosed hclosed rfl rfl
  rw [hopen]
  exact h.effect_take hsound hholders hother hfree

/-- An open index that is closed lets its lock go. -/
theorem Serving.effect_close (h : Serving i d l w) : ∃ bytes,
    (DiskStep.unlock (w.path ++ [lockName]) w.holder).run d =
      some (d.insert (w.path ++ [lockName]) (.file bytes none)) ∧
    effect close (i, d) = (.ok (), ({ i with writer := none, live := none },
      d.insert (w.path ++ [lockName]) (.file bytes none))) := by
  obtain ⟨bytes, hlock⟩ := h.lock
  have hnot : d.isDirectory (w.path ++ [lockName]) = false := by simp [Disk.isDirectory, hlock]
  have hrun : (DiskStep.unlock (w.path ++ [lockName]) w.holder).run d =
      some (d.insert (w.path ++ [lockName]) (.file bytes none)) := by
    simp only [DiskStep.run, hlock, if_true]
    exact Disk.place_of_directory (by simpa [Path.parent] using h.isDirectory) hnot
  refine ⟨bytes, hrun, ?_⟩
  unfold Index.close
  rw [effect_bind_ok (effect_current i d), h.writer]
  simp only
  rw [effect_bind, effect_onDisk, Writer.releaseSteps, effect_perform_one, hrun]
  rfl

/-- An open index that is closed can be opened again. -/
theorem Kept.effect_close (h : Kept i d l) (hready : i.isReady = true) :
    ∃ d', effect close (i, d) = (.ok (), ({ i with writer := none, live := none }, d')) ∧
      Kept { i with writer := none, live := none } d' l ∧
      ∀ q, ¬ l.directory.currentPath <+: q → d'.node? q = d.node? q := by
  obtain ⟨w, hs⟩ := h.serving hready
  obtain ⟨bytes, hrun, hclose⟩ := hs.effect_close
  have hp : w.path ++ [lockName] ≠ [] := by simp
  have hkeep : ∀ q, w.path ++ [lockName] ≠ q →
      (d.insert (w.path ++ [lockName]) (.file bytes none)).node? q = d.node? q :=
    fun q hq => Disk.node?_insert_ne d _ hp (Ne.symm hq)
  have hpath := hs.path
  refine ⟨d.insert (w.path ++ [lockName]) (.file bytes none), hclose, ?_, fun q hq => hkeep q ?_⟩
  · exact {
      root := h.root
      name := h.name
      layout := h.layout
      journal := h.journal
      valid := h.valid
      heap := h.heap
      countable := h.countable
      sound := h.sound.run hrun
      counted := h.counted.insert (k := d.holders) hp (Nat.le_refl _) (by simp)
      content := by
        rw [← hpath, hkeep _ (file_ne contentName_ne_lockName.symm _), hs.content]
      pointer := h.pointer.keep fun n hn => by
        rw [hkeep _ (hpath ▸ generationPath_ne_pointer), hn]
      lone := fun name n hn hname => by
        rw [hkeep _ (hpath ▸ file_ne_child), h.lone name n hn hname]
      access := .inr ⟨rfl, rfl, bytes, by rw [← hpath, Disk.node?_insert_self d _ hp]⟩ }
  · rintro rfl
    exact hq (hpath ▸ List.prefix_append _ _)

/-! ### Requests -/

/-- What requests leave of a kept index. -/
structure Progress (i : Index) (d : Disk) (l : Live) (changes : List Change) (ready : Bool)
    (s : Index × Disk) (l' : Live) : Prop where
  kept : Kept s.1 s.2 l'
  directory : l'.directory = l.directory
  documents : l'.content.documents = applyChanges i.schema l.content.documents changes
  ready : s.1.isReady = ready
  settings : s.1.settings = i.settings
  others : ∀ q, ¬ l.directory.currentPath <+: q → s.2.node? q = d.node? q

theorem Progress.refl (h : Kept i d l) : Progress i d l [] i.isReady (i, d) l :=
  ⟨h, rfl, rfl, rfl, rfl, fun _ _ => rfl⟩

theorem Progress.idle (h : Kept i d l) {r : Request} (hready : i.isReady = r.leaves i.isReady)
    (hr : (if i.isReady then r.changes else []) = []) :
    Progress i d l (if i.isReady then r.changes else []) (r.leaves i.isReady) (i, d) l := by
  rw [hr, ← hready]
  exact .refl h

theorem Progress.trans {changes more : List Change} {ready ready' : Bool} {s t : Index × Disk}
    {l'' : Live} (h : Progress i d l changes ready s l')
    (h' : Progress s.1 s.2 l' more ready' t l'') : Progress i d l (changes ++ more) ready' t l'' where
  kept := h'.kept
  directory := h'.directory.trans h.directory
  documents := by
    rw [h'.documents, h.documents, show s.1.schema = i.schema from (Prod.mk.inj h.settings).1]
    exact (List.foldl_append ..).symm
  ready := h'.ready
  settings := h'.settings.trans h.settings
  others q hq := by rw [h'.others q (h.directory ▸ hq), h.others q hq]

/-- Only counters change. -/
theorem Progress.count (h : Kept i d l) (statistics : Statistics) :
    Progress i d l [] i.isReady ({ i with statistics }, d) l :=
  ⟨h.congr rfl rfl rfl rfl rfl, rfl, rfl, rfl, rfl, fun _ _ => rfl⟩

theorem effect_done {β γ : Type} (x : IndexM γ) (b : β) (s : Index × Disk) :
    (effect (do let _ ← x; return b : IndexM β) s).2 = (effect x s).2 := by
  rw [effect_bind]
  rcases effect x s with ⟨_ | _, t⟩ <;> rfl

/-- What is the same is the same under a mask that covers nothing. -/
theorem covers_self (hd : d.Sound) (hc : d.Counted) : ({} : Mask).Covers (i, d) (i, d) := by
  have hnode : ∀ n : Node, ({} : Mask).node n = n := by
    rintro (_ | ⟨bytes, _ | k⟩ | g) <;> simp [Mask.holder]
  exact {
    index := {
      schema := rfl
      config := rfl
      priority := rfl
      writer := by
        have hwriter : ∀ w : Writer, ({} : Mask).writer w = w := fun w => by
          simp [Mask.writer, Mask.holder]
        cases i.writer <;> simp [hwriter]
      live := rfl
      journal := fun _ => rfl
      idle := fun hm => absurd rfl hm
      statistics := rfl
      path := by simp
      current := by simp
      written := by simp }
    disk := {
      sound := hd
      sound' := hd
      first := Nat.zero_le _
      holders := rfl
      counted := hc
      node := fun q _ => by cases d.node? q <;> simp [hnode]
      beside := by simp } }

/-- Work that does the same in indexes that are the same keeps the disk sound and the holders of all
locks counted. -/
theorem lawful_of_tandem {β : Type} {V : β → β → Prop} {x : IndexM β}
    (hx : Tandem ({} : Mask).Covers V x x) (hd : d.Sound) (hc : d.Counted) :
    (effect x (i, d)).2.2.Sound ∧ (effect x (i, d)).2.2.Counted := by
  have hends := hx (i, d) (i, d) (covers_self hd hc)
  generalize effect x (i, d) = r at hends ⊢
  cases hends with
  | ok _ hq => exact ⟨hq.disk.sound, hq.disk.counted⟩
  | error he => exact ⟨he.disk.sound, he.disk.counted⟩

theorem counted_of_tandem {β : Type} {V : β → β → Prop} {x : IndexM β}
    (hx : Tandem ({} : Mask).Covers V x x) (hd : d.Sound) (hc : d.Counted) :
    (effect x (i, d)).2.2.Counted :=
  (lawful_of_tandem hx hd hc).2

theorem Kept.commit (h : Kept i d l) (hready : i.isReady = true) (t : Transaction) :
    ∃ l', Progress i d l t.changes true (effect (commit t) (i, d)).2 l' := by
  obtain ⟨w, hs⟩ := h.serving hready
  obtain ⟨i', d', g, heffect, hcommitted⟩ := hs.commit t
  obtain ⟨hschema, hconfig⟩ := Prod.mk.inj hcommitted.settings
  have hcounted : d'.Counted := by
    have hc := counted_of_tandem (i := i) (tandem_commit t) h.sound h.counted
    rwa [heffect] at hc
  rw [heffect]
  refine ⟨{ l with content := g }, .of_serving hcommitted.serving ?_ ?_ ?_ h.countable hcounted ?_, rfl,
    hcommitted.documents, ?_, hcommitted.settings, fun q hq => hcommitted.others q ?_⟩
  · rw [hcommitted.journal, h.journal]
    rfl
  · rw [hconfig, h.valid]
  · rw [hconfig]
    exact h.heap
  · intro name n hn hname
    rw [hcommitted.others _ (hs.path ▸ file_ne_child), h.lone name n hn hname]
  · exact isReady_of_live hcommitted.serving.live
  · rintro rfl
    exact hq (hs.path ▸ List.prefix_append _ _)

/-- Of an index that is closed nothing can be committed or shown, and it is closed again without a
change. -/
theorem effect_commit_closed (h : i.writer = none) (t : Transaction) :
    effect (Index.commit t) (i, d) = (.error (.closed i.name), (i, d)) := by
  unfold Index.commit
  rw [effect_bind_ok (effect_current i d), h]
  rfl

theorem effect_refresh_closed (h : i.live = none) :
    effect Index.refresh (i, d) = (.error (.closed i.name), (i, d)) := by
  unfold Index.refresh
  rw [effect_bind_ok (effect_current i d), h]
  rfl

theorem effect_close_closed (h : i.writer = none) :
    effect Index.close (i, d) = (.ok (), ({ i with writer := none, live := none }, d)) := by
  unfold Index.close
  rw [effect_bind_ok (effect_current i d), h]
  rfl

/-- Closing an index, open or not, leaves it so that it can be opened again. -/
theorem Kept.progress_close (h : Kept i d l) :
    ∃ l', Progress i d l [] false (effect Index.close (i, d)).2 l' := by
  cases hready : i.isReady with
  | true =>
    obtain ⟨d', heffect, hkept, hothers⟩ := h.effect_close hready
    rw [heffect]
    exact ⟨l, hkept, rfl, rfl, rfl, rfl, hothers⟩
  | false =>
    obtain ⟨hlive, hwriter, -⟩ := h.closed hready
    rw [effect_close_closed hwriter]
    exact ⟨l, h.congr rfl rfl rfl hwriter.symm hlive.symm, rfl, rfl, rfl, rfl, fun _ _ => rfl⟩

theorem Kept.close_ok (h : Kept i d l) : (effect Index.close (i, d)).1 = .ok () := by
  cases hready : i.isReady with
  | true =>
    obtain ⟨d', heffect, -⟩ := h.effect_close hready
    rw [heffect]
  | false => rw [effect_close_closed (h.closed hready).2.1]

/-- Opening it, closed or not, shows what it had. -/
theorem Kept.progress_open (h : Kept i d l) :
    ∃ l', Progress i d l [] true (effect Index.open (i, d)).2 l' := by
  cases hready : i.isReady with
  | true =>
    rw [effect_open_ready hready]
    exact ⟨l, hready ▸ Progress.refl h⟩
  | false =>
    obtain ⟨w, d', heffect, hkept, hothers⟩ := h.effect_open hready
    rw [heffect]
    exact ⟨l, hkept, rfl, rfl, rfl, rfl, hothers⟩

theorem Kept.open_ok (h : Kept i d l) : (effect Index.open (i, d)).1 = .ok () := by
  cases hready : i.isReady with
  | true => rw [effect_open_ready hready]
  | false =>
    obtain ⟨w, d', heffect, -⟩ := h.effect_open hready
    rw [heffect]

/-- **Requests keep an index**, with the changes that they make while it is open. -/
theorem Kept.request {α : Type} [Indexed α] (h : Kept i d l) (r : Request) :
    ∃ l', Progress i d l (if i.isReady then r.changes else []) (r.leaves i.isReady)
      (r.after α (i, d)) l' := by
  cases r with
  | begin =>
    have hafter : Request.after α (i, d) .begin = (i, d) := by
      rw [Request.after, Request.work, effect_done]
      unfold Index.begin
      rw [effect_bind_ok (effect_current i d)]
      split_ifs <;> rfl
    rw [hafter]
    exact ⟨l, .idle h rfl (by simp [Request.changes])⟩
  | commit t =>
    rw [Request.after, Request.work, effect_done]
    cases hready : i.isReady with
    | true => exact h.commit hready t
    | false =>
      rw [effect_commit_closed (h.closed hready).2.1]
      exact ⟨l, by simpa [hready] using Progress.idle h (r := .commit t) rfl (by simp [hready])⟩
  | rollback =>
    rw [Request.after, Request.work, effect_done]
    have hcount := Progress.count h i.statistics.recordRollback
    exact ⟨l, by simpa [Request.changes, Request.leaves, Index.rollback] using hcount⟩
  | refresh =>
    rw [Request.after, Request.work, effect_done]
    cases hready : i.isReady with
    | true =>
      obtain ⟨w, hs⟩ := h.serving hready
      rw [effect_refresh hs.live h.content]
      refine ⟨l, h.congr rfl rfl rfl rfl hs.live.symm, rfl, rfl, ?_, rfl, fun _ _ => rfl⟩
      rfl
    | false =>
      rw [effect_refresh_closed (h.closed hready).1]
      exact ⟨l, by simpa [hready] using Progress.idle h (r := .refresh) rfl (by simp [hready])⟩
  | close =>
    rw [Request.after, Request.work, effect_done]
    simpa [Request.changes, Request.leaves] using h.progress_close
  | «open» =>
    rw [Request.after, Request.work, effect_done]
    simpa [Request.changes, Request.leaves] using h.progress_open
  | find c =>
    obtain ⟨statistics, hfind⟩ := find_state α c i
    have hafter : Request.after α (i, d) (.find c) = ({ i with statistics }, d) := by
      rw [Request.after, Request.work, effect_bind, effect_lookup, hfind]
      cases (effect (find α c) i).1 <;> rfl
    rw [hafter]
    exact ⟨l, by simpa [Request.changes, Request.leaves] using Progress.count h statistics⟩

/-- **So do requests one after the other.** -/
theorem Kept.requests {α : Type} [Indexed α] (rs : List Request) : ∀ {i : Index} {d : Disk} {l : Live},
    Kept i d l → ∃ l', Progress i d l (Request.committed i.isReady rs)
      (Request.leavesAll i.isReady rs) (Request.afterAll α (i, d) rs) l' := by
  induction rs with
  | nil => exact fun h => ⟨_, .refl h⟩
  | cons r rs ih =>
    intro i d l h
    obtain ⟨l₁, h₁⟩ := h.request (α := α) r
    obtain ⟨l', h'⟩ := ih h₁.kept
    rw [h₁.ready] at h'
    exact ⟨l', h₁.trans h'⟩

end Index
end Codebook
