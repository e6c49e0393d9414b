/-
# Steps that fail

On a medium a step may fail, and then it may have been done in part. Steps are counted, so that a
medium can fail at any one of them. What opens an index and what rebuilds it is done on a medium step
by step as on a disk; where every step is done that can be done, it is the same.

Key definitions: `DiskStep.Torn`, `DiskStep.Leaves`, `DiskStep.Alters`, `Medium`, `Medium.Sure`,
`Medium.sound`, `TriedM`, `Medium.perform`, `Medium.openIndex`, `Medium.rebuildFrom`, `Echoes`.
Key theorems: `DiskStep.Leaves.sound`, `DiskStep.Leaves.found`, `DiskStep.Leaves.keep`, `Medium.echoes_openIndex`,
`Medium.echoes_beginRebuild`, `Medium.echoes_rebuildFrom`.
-/
import Codebook.Proofs.Filling

namespace Codebook

open IndexDirectory

/-! ### What is left of a step -/

namespace DiskStep

/-- What may be left of a step that fails. Some of the directories on a way were made, some of what is
in a directory was removed, other bytes were written than those that should have been, or a file was
made and not locked. A file gets its new name at once, and so does a generation its content. -/
inductive Torn : DiskStep → Disk → Disk → Prop where
  | untouched (step : DiskStep) (d : Disk) : Torn step d d
  | made {path q : Path} {d d' : Disk} (hq : q <+: path) (h : d.makeDirectories q = some d') :
      Torn (.makeDirectory path) d d'
  | removed {path : Path} {qs : List Path} (d : Disk) (h : ∀ q ∈ qs, path <+: q) :
      Torn (.removeDirectory path) d (qs.foldl Disk.erase d)
  | written {path : Path} {bytes : List UInt8} {d d' : Disk} (other : List UInt8)
      (h : (DiskStep.write path other).run d = some d') : Torn (.write path bytes) d d'
  | unlocked {path : Path} {holder : Nat} {d d' : Disk}
      (h : DiskStep.place d path (.file [] none) = some d') (hnone : d.node? path = none) :
      Torn (.lock path holder) d d'

/-- What may be left of a step, whether it is done or fails. -/
def Leaves (step : DiskStep) (d d' : Disk) : Prop :=
  step.run d = some d' ∨ step.Torn d d'

/-- How a step may change what is found at a path. -/
def Alters (q : Path) (before after : Option Node) : DiskStep → Prop
  | makeDirectory path => q <+: path ∧ before = none ∧ after = some .directory
  | removeDirectory path | removeFile path => path <+: q ∧ after = none
  | write path _ | lock path _ | unlock path _ =>
    path = q ∧ ∃ bytes holder, after = some (.file bytes holder)
  | rename source target => source <+: q ∧ after = none ∨ target = q
  | sync _ => False
  | publish path g => path = q ∧ after = some (.generation g)

variable {step : DiskStep} {d d' : Disk}

theorem sound_erased : ∀ (qs : List Path) {d : Disk}, d.Sound → (qs.foldl Disk.erase d).Sound
  | [], _, h => h
  | q :: qs, _, h => sound_erased qs (h.erase q)

theorem node?_erased (q : Path) : ∀ (qs : List Path) (d : Disk),
    (qs.foldl Disk.erase d).node? q = d.node? q ∨
      (∃ p ∈ qs, p <+: q) ∧ (qs.foldl Disk.erase d).node? q = none
  | [], _ => .inl rfl
  | p :: qs, d => by
    rw [List.foldl_cons]
    rcases node?_erased q qs (d.erase p) with hsame | ⟨⟨p', hp', hpre⟩, hnone⟩
    · rw [hsame, Disk.node?_erase]
      split_ifs with hq hpre
      · exact .inl (by rw [hq, Disk.node?_nil])
      · exact .inr ⟨⟨p, List.mem_cons_self, hpre⟩, rfl⟩
      · exact .inl rfl
    · exact .inr ⟨⟨p', List.mem_cons_of_mem _ hp', hpre⟩, hnone⟩

/-- A disk stays sound also when a step fails. -/
theorem Leaves.sound (h : step.Leaves d d') (hd : d.Sound) : d'.Sound := by
  rcases h with hrun | htorn
  · exact hd.run hrun
  · cases htorn with
    | untouched => exact hd
    | made _ h => exact (Disk.makeDirectories_some h).2 hd
    | removed _ _ => exact sound_erased _ hd
    | written other h => exact hd.run h
    | unlocked h _ => exact hd.place h

theorem found_place {p q : Path} {n : Node} (h : place d p n = some d') :
    d'.node? q = d.node? q ∨ p = q ∧ d'.node? q = some n := by
  by_cases hq : p = q
  · exact .inr ⟨hq, hq ▸ Disk.node?_place_self h⟩
  · exact .inl (Disk.node?_place h hq)

theorem found_file {p q : Path} {bytes : List UInt8} {holder : Option Nat}
    (h : place d p (.file bytes holder) = some d') :
    d'.node? q = d.node? q ∨ p = q ∧ ∃ bytes holder, d'.node? q = some (.file bytes holder) :=
  (found_place h).imp_right (And.imp_right fun hn => ⟨bytes, holder, hn⟩)

theorem found_write {p q : Path} {bytes : List UInt8} (h : (DiskStep.write p bytes).run d = some d') :
    d'.node? q = d.node? q ∨ p = q ∧ ∃ bytes holder, d'.node? q = some (.file bytes holder) := by
  simp only [run] at h
  split at h <;> exact found_file h

theorem found_made {p q path : Path} (hp : p <+: path) (h : d.makeDirectories p = some d') :
    d'.node? q = d.node? q ∨ q <+: path ∧ d.node? q = none ∧ d'.node? q = some .directory := by
  have hnode := (Disk.makeDirectories_some h).1 q
  split_ifs at hnode with hq
  · cases hbefore : d.node? q with
    | none => exact .inr ⟨hq.trans hp, rfl, hnode⟩
    | some n =>
      rw [Disk.makeDirectories_eq] at h
      exact .inl (Disk.foldlM_enter_keeps h hbefore)
  · exact .inl hnode

/-- What is found at a path after a step is what was there before, or what the step puts there. -/
theorem Leaves.found (h : step.Leaves d d') (q : Path) :
    d'.node? q = d.node? q ∨ step.Alters q (d.node? q) (d'.node? q) := by
  have herased : ∀ p, (d.erase p).node? q = d.node? q ∨ p <+: q ∧ (d.erase p).node? q = none :=
    fun p => (node?_erased q [p] d).imp_right fun ⟨⟨_, hp, hpre⟩, hnone⟩ =>
      ⟨List.mem_singleton.mp hp ▸ hpre, hnone⟩
  rcases h with hrun | htorn
  · cases step with
    | makeDirectory path => exact found_made List.prefix_rfl hrun
    | removeDirectory path =>
      simp only [run] at hrun
      split_ifs at hrun
      exact Option.some.inj hrun ▸ herased path
    | removeFile path =>
      simp only [run] at hrun
      split_ifs at hrun
      exact Option.some.inj hrun ▸ herased path
    | write path bytes => exact found_write hrun
    | rename source target =>
      simp only [run] at hrun
      split at hrun
      · simp at hrun
      · simp at hrun
      · rcases found_place (q := q) hrun with hsame | ⟨hq, -⟩
        · rw [hsame]
          exact (herased source).imp_right .inl
        · exact .inr (.inr hq)
    | sync path =>
      simp only [run] at hrun
      split_ifs at hrun
      exact .inl (Option.some.inj hrun ▸ rfl)
    | publish path g => exact found_place hrun
    | lock path holder =>
      simp only [run] at hrun
      split at hrun
      · exact found_file hrun
      · exact found_file hrun
      · simp at hrun
    | unlock path holder =>
      simp only [run] at hrun
      split at hrun
      · split_ifs at hrun
        · exact found_file hrun
        · exact .inl (Option.some.inj hrun ▸ rfl)
      · exact .inl (Option.some.inj hrun ▸ rfl)
  · cases htorn with
    | untouched => exact .inl rfl
    | made hq h => exact found_made hq h
    | removed _ hbelow =>
      rcases node?_erased q _ d with hsame | ⟨⟨p, hp, hpre⟩, hnone⟩
      · exact .inl hsame
      · exact .inr ⟨(hbelow p hp).trans hpre, hnone⟩
    | written other h => exact found_write h
    | unlocked h _ => exact found_file h

/-- What is found at a path stays as it is unless the step harms it. -/
theorem Leaves.keep (h : step.Leaves d d') {q : Path} {n : Node} (hq : d.node? q = some n)
    (hh : ¬ step.harms q) : d'.node? q = some n := by
  rcases h.found q with hsame | halters
  · rw [hsame, hq]
  · cases step with
    | makeDirectory path =>
      rw [hq] at halters
      simp [Alters] at halters
    | sync path => exact halters.elim
    | rename source target => exact absurd (halters.imp_left And.left) hh
    | removeDirectory _ | removeFile _ => exact absurd halters.1 hh
    | write _ _ | publish _ _ | lock _ _ | unlock _ _ => exact absurd halters.1 hh

end DiskStep

/-! ### Media -/

/-- Says of every step whether it is done, and what it leaves. Steps are counted from the first. -/
structure Medium where
  /-- Whether a step is done, and the disk after it. -/
  run : Nat → Disk → DiskStep → Bool × Disk
  done : ∀ {n : Nat} {d : Disk} {step : DiskStep} {d' : Disk},
    run n d step = (true, d') → step.run d = some d'
  torn : ∀ {n : Nat} {d : Disk} {step : DiskStep} {d' : Disk},
    run n d step = (false, d') → step.Torn d d'

/-- Work that may fail, and how many steps were tried. -/
abbrev TriedM (ε σ : Type) := ExceptT ε (StateM (σ × Nat))

section

variable {ε σ α : Type}

/-- Work without a step of its own. -/
def steady (work : ExceptT ε (StateM σ) α) : TriedM ε σ α := do
  let (s, n) ← get
  let (result, s) := work.run s
  set (s, n)
  result

/-- Does work on the disk. -/
def reach (work : TriedM ε Disk α) : TriedM ε (Index × Disk) α := do
  let ((i, d), n) ← get
  let (result, d, n) := work.run (d, n)
  set ((i, d), n)
  result

theorem effect_steady (work : ExceptT ε (StateM σ) α) (s : σ) (n : Nat) :
    effect (steady work) (s, n) = ((effect work s).1, ((effect work s).2, n)) := by
  unfold steady
  rw [effect_bind_ok (effect_get (s, n))]
  show effect (set ((effect work s).2, n) >>= fun _ => liftM (effect work s).1) (s, n) = _
  rw [effect_bind_ok (effect_set _ _), effect_lift]

theorem effect_reach (work : TriedM ε Disk α) (i : Index) (d : Disk) (n : Nat) :
    effect (reach work) ((i, d), n) = ((effect work (d, n)).1, ((i, (effect work (d, n)).2.1),
      (effect work (d, n)).2.2)) := by
  unfold reach
  rw [effect_bind_ok (effect_get ((i, d), n))]
  show effect (set ((i, (effect work (d, n)).2.1), (effect work (d, n)).2.2) >>= fun _ =>
    liftM (effect work (d, n)).1) ((i, d), n) = _
  rw [effect_bind_ok (effect_set _ _), effect_lift]

end

namespace Medium

/-- The step is done if it can be done, and leaves nothing otherwise. -/
def Sure (m : Medium) (n : Nat) : Prop :=
  ∀ d step, m.run n d step = match step.run d with
    | some d' => (true, d')
    | none => (false, d)

/-- A medium on which every step is done that can be done. -/
def sound : Medium where
  run _ d step := match step.run d with
    | some d' => (true, d')
    | none => (false, d)
  done h := by
    split at h
    · rename_i hrun
      rw [hrun, (Prod.mk.inj h).2]
    · simp at h
  torn h := by
    split at h
    · simp at h
    · exact (Prod.mk.inj h).2 ▸ .untouched _ _

theorem sure_sound (n : Nat) : sound.Sure n := fun _ _ => rfl

variable (m : Medium)

/-- Does steps up to the first that fails: whether all were done, the disk as they leave it, and how
many were tried. -/
def runAll (n : Nat) (d : Disk) : List DiskStep → Bool × Disk × Nat
  | [] => (true, d, n)
  | step :: steps =>
    match m.run n d step with
    | (true, d) => runAll (n + 1) d steps
    | (false, d) => (false, d, n + 1)

/-- Does steps, or fails. -/
def perform {ε : Type} (failure : ε) (steps : List DiskStep) : TriedM ε Disk Unit := do
  let (d, n) ← get
  let (done, d, n) := m.runAll n d steps
  set (d, n)
  if !done then throw failure

/-! ### Opening on a medium -/

/-- The number of the live generation. Without a pointer a first generation is made. -/
def findCurrent (path : Path) (name : String) : TriedM IndexError Disk Nat := do
  match ← readPointer path name (← steady get) with
  | some n => return n
  | none =>
    m.perform .io (firstSteps path)
    return 1

/-- Opens the directory of an index, or makes it. -/
def openDirectory (root : Path) (name : String) : TriedM IndexError Disk IndexDirectory := do
  let path := root ++ [name]
  m.perform .io [.makeDirectory path]
  let current ← m.findCurrent path name
  let d : IndexDirectory := { path, name, current }
  m.perform .io [.makeDirectory d.currentPath]
  return d

/-- Removes the generations that are not live. -/
def sweep (dir : IndexDirectory) : TriedM IndexError Disk Nat := do
  let disk ← steady dir.presentDisk
  m.perform .io (dir.sweepSteps disk)
  return (dir.orphans disk).length

/-- Removes the lock that a writer of a generation left over. -/
def clearStaleLock (dir : IndexDirectory) (generation : Path) : TriedM IndexError Disk Bool := do
  let path := generation ++ [lockName]
  match (← steady get).node? path with
  | none => return false
  | some (.file _ none) =>
    m.perform .io [.removeFile path]
    return true
  | some (.file _ (some _)) =>
    throw (.writeConflict dir.name ("writer lock " ++ "/".intercalate path ++ " is held"))
  | some _ => throw .io

/-- Writes a content that has no documents. -/
def createContent (i : Index) (path : Path) : TriedM IndexError Disk Generation := do
  m.perform .search [.publish (path ++ [contentName]) i.emptyContent]
  return i.emptyContent

/-- The content of a generation, made anew if it was not written under the fields of the schema. -/
def openOrCreate (i : Index) (path : Path) : TriedM IndexError Disk Generation := do
  if (← steady get).contains (path ++ [contentName]) then
    let g ← steady (Index.readContent path)
    if g.layout = i.schema.layout then return g
    m.perform .io [.removeDirectory path, .makeDirectory path]
  m.createContent i path

/-- Makes the writer of a generation, if nobody holds its lock. -/
def createWriter (i : Index) (path : Path) (documents : List Document) :
    TriedM IndexError Disk Writer := do
  let holder := (← steady get).holders
  let lock := path ++ [lockName]
  m.perform (.writeConflict i.name "the writer lock is held") [.lock lock holder]
  steady (modify fun disk => { disk with holders := holder + 1 })
  if Config.maxWriterHeapBytes ≤ i.config.heapPerThread then
    m.perform .io [.unlock lock holder]
    throw .search
  return { path, holder, documents }

/-- Opens the index. An open one stays as it is. -/
def openIndex : TriedM IndexError (Index × Disk) Unit := do
  let i ← steady Index.current
  if i.isReady then return
  steady i.config.validate
  let directory ← reach (m.openDirectory i.config.root i.name)
  let _ ← reach (m.sweep directory)
  if i.config.clearStaleLocks then
    let _ ← reach (m.clearStaleLock directory directory.currentPath)
  let content ← reach (m.openOrCreate i directory.currentPath)
  let writer ← reach (m.createWriter i directory.currentPath content.documents)
  steady (Index.update fun i => { i with writer := some writer, live := some { directory, content } })

/-! ### Rebuilding on a medium -/

/-- Makes an empty generation, numbered after all others. -/
def create (dir : IndexDirectory) : TriedM IndexError Disk Nat := do
  let disk ← steady dir.presentDisk
  m.perform .io (dir.createSteps disk)
  return dir.nextNumber disk

/-- Makes a generation live. -/
def swap (dir : IndexDirectory) (n : Nat) : TriedM IndexError Disk IndexDirectory := do
  if !(← steady get).isDirectory (dir.generationPath n) then
    throw (.configuration dir.name s!"generation {n} does not exist")
  m.perform .io (pointerSteps dir.path n)
  return { dir with current := n }

/-- Removes a generation, which must not be the live one. -/
def remove (dir : IndexDirectory) (n : Nat) : TriedM IndexError Disk Unit := do
  if n = dir.current then
    throw (.configuration dir.name s!"cannot remove live generation {n}")
  m.perform .io (dir.removeSteps n (← steady get))

/-- Removes the directory of a generation that was not finished, as far as it can be removed. -/
def discard (path : Path) : TriedM IndexError (Index × Disk) Unit :=
  reach (tryCatch (m.perform .io [.removeDirectory path]) fun _ => pure ())

/-- Makes the content and the writer of a new generation. -/
def startBuilding (number : Nat) (path : Path) : TriedM IndexError (Index × Disk) Building := do
  let i ← steady Index.current
  let _ ← reach (m.createContent i path)
  let writer ← reach (m.createWriter i path [])
  return { number, writer }

/-- Begins a rebuild. -/
def beginRebuild : TriedM IndexError (Index × Disk) Building := do
  steady Index.startJournal
  tryCatch (do
      let directory ← steady Index.liveDirectory
      let number ← reach (m.create directory)
      let path := directory.generationPath number
      tryCatch (m.startBuilding number path) fun e => do
        m.discard path
        throw e)
    fun e => steady (Index.dropJournal e)

/-- Gives up a rebuild. -/
def abandonRebuild {α : Type} (b : Building) (e : IndexError) : TriedM IndexError (Index × Disk) α := do
  reach (m.perform .io (Index.Writer.releaseSteps b.writer))
  m.discard b.writer.path
  steady (Index.dropJournal e)

/-- The documents of a writer after changes, written to its generation. -/
def applyTo (w : Writer) (changes : List Change) : TriedM IndexError (Index × Disk) Writer := do
  let i ← steady Index.current
  let documents := applyChanges i.schema w.documents changes
  reach (m.perform .search [.publish (w.path ++ [contentName]) { i.emptyContent with documents }])
  return { w with documents }

/-- Replays a journal into a new generation. -/
def replay (w : Writer) (journal : List Change) : TriedM IndexError (Index × Disk) Writer :=
  if journal.isEmpty then pure w else m.applyTo w journal

/-- Replays the journal into a new generation and makes it the live one. -/
def swapIn (number : Nat) (w : Writer) : TriedM IndexError (Index × Disk) (Nat × Nat) := do
  let w ← m.replay w (← steady Index.takeJournal)
  let content ← reach (steady (Index.readContent w.path))
  let old ← steady Index.liveDirectory
  let directory ← reach (m.swap old number)
  let retired := (← steady Index.current).writer
  steady (Index.update fun i => { i with writer := some w, live := some { directory, content } })
  if let some r := retired then reach (m.perform .io (Index.Writer.releaseSteps r))
  return (old.current, content.size)

/-- Removes the generation that was live before, if that is possible. -/
def removeRetired (number : Nat) : TriedM IndexError (Index × Disk) Unit :=
  tryCatch (do reach (m.remove (← steady Index.liveDirectory) number)) fun _ => pure ()

/-- Ends a rebuild. -/
def finishRebuild (b : Building) : TriedM IndexError (Index × Disk) Nat := do
  let (old, documents) ← tryCatch
    (do m.swapIn b.number (← m.applyTo { b.writer with documents := b.documents } []))
    (m.abandonRebuild b)
  m.removeRetired old
  steady (Index.update fun i => { i with statistics := i.statistics.recordRebuild documents })
  return documents

/-- Rebuilds the index. -/
def rebuild (fill : Building → IndexM Building) : TriedM IndexError (Index × Disk) Nat := do
  let b ← m.beginRebuild
  let b ← tryCatch (steady (fill b)) (m.abandonRebuild b)
  m.finishRebuild b

/-- Adds the documents of the entities of a store to a new generation, page by page. No step is done
for it. -/
def fillFrom {α : Type} [Indexed α] (source : Source α) (b : Building) : IndexM Building := do
  let pages ← (source.pages (← Index.current).config.rebuildPageSize).mapError IndexError.storage
  Index.addPages b pages

/-- Rebuilds the index from a store, whose entities are read page by page. -/
def rebuildFrom {α : Type} [Indexed α] (source : Source α) : TriedM IndexError (Index × Disk) Nat := do
  let _ ← source.count.mapError IndexError.storage
  m.rebuild (fillFrom source)

end Medium

/-! ### The same work -/

/-- Work on a medium echoes work on a disk if it is the same where every step is done that can be done.
It does so strictly if, besides, whatever comes to its end on the medium does so on the disk. -/
structure Echoes {ε σ α : Type} (m : Medium) (strict : Prop) (x : TriedM ε σ α)
    (y : ExceptT ε (StateM σ) α) : Prop where
  same : (∀ n, m.Sure n) → ∀ s n, ∃ n', effect x (s, n) = ((effect y s).1, ((effect y s).2, n'))
  ok : strict → ∀ {s n a t n'}, effect x (s, n) = (.ok a, (t, n')) → effect y s = (.ok a, t)

namespace Echoes

variable {ε σ α β : Type} {m : Medium} {strict : Prop}

theorem weaken {x : TriedM ε σ α} {y : ExceptT ε (StateM σ) α} (h : Echoes m True x y) :
    Echoes m strict x y :=
  ⟨h.same, fun _ => h.ok trivial⟩

theorem steady (work : ExceptT ε (StateM σ) α) : Echoes m strict (Codebook.steady work) work where
  same _ s n := ⟨n, effect_steady work s n⟩
  ok _ {s n a t n'} h := by
    rw [effect_steady] at h
    obtain ⟨hresult, hstate⟩ := Prod.mk.inj h
    exact Prod.ext hresult (Prod.mk.inj hstate).1

theorem pure (a : α) : Echoes m strict (Pure.pure a : TriedM ε σ α) (Pure.pure a) where
  same _ s n := ⟨n, rfl⟩
  ok _ {s n b t n'} h := by
    obtain ⟨rfl, hstate⟩ := pure_ok h
    rw [effect_pure, (Prod.mk.inj hstate).1]

theorem throw (e : ε) :
    Echoes m strict (MonadExcept.throw e : TriedM ε σ α) (MonadExcept.throw e) where
  same _ s n := ⟨n, rfl⟩
  ok _ {s n a t n'} h := by simp at h

theorem lift (r : Except ε α) : Echoes m strict (liftM r : TriedM ε σ α) (liftM r) where
  same _ s n := ⟨n, by rw [effect_lift, effect_lift]⟩
  ok _ {s n a t n'} h := by
    obtain ⟨rfl, hstate⟩ := lift_ok h
    rw [effect_lift, (Prod.mk.inj hstate).1]

theorem bind {x : TriedM ε σ α} {y : ExceptT ε (StateM σ) α} {f : α → TriedM ε σ β}
    {g : α → ExceptT ε (StateM σ) β} (hx : Echoes m strict x y)
    (hf : ∀ a, Echoes m strict (f a) (g a)) : Echoes m strict (x >>= f) (y >>= g) where
  same hm s n := by
    obtain ⟨n₁, h₁⟩ := hx.same hm s n
    rw [effect_bind, effect_bind, h₁]
    rcases effect y s with ⟨e | a, t⟩
    · exact ⟨n₁, rfl⟩
    · exact (hf a).same hm t n₁
  ok hs {s n b t n'} h := by
    obtain ⟨a, ⟨u, k⟩, hfirst, hrest⟩ := bind_ok h
    rw [effect_bind_ok (hx.ok hs hfirst)]
    exact (hf a).ok hs hrest

theorem tryCatch {x : TriedM ε σ α} {y : ExceptT ε (StateM σ) α} {handle : ε → TriedM ε σ α}
    {handle' : ε → ExceptT ε (StateM σ) α} (hx : Echoes m False x y)
    (hf : ∀ e, Echoes m False (handle e) (handle' e)) :
    Echoes m False (MonadExcept.tryCatch x handle) (MonadExcept.tryCatch y handle') where
  same hm s n := by
    obtain ⟨n₁, h₁⟩ := hx.same hm s n
    rw [effect_tryCatch, effect_tryCatch, h₁]
    rcases effect y s with ⟨e | a, t⟩
    · exact (hf e).same hm t n₁
    · exact ⟨n₁, rfl⟩
  ok hs := hs.elim

/-- What is done after a failure fails, too, so that only work that came to its end does so. -/
theorem tryCatch_fails {x : TriedM ε σ α} {y : ExceptT ε (StateM σ) α} {handle : ε → TriedM ε σ α}
    {handle' : ε → ExceptT ε (StateM σ) α} (hx : Echoes m True x y)
    (hf : ∀ e, Echoes m False (handle e) (handle' e))
    (hfails : ∀ e s, ∃ e', (effect (handle e) s).1 = .error e') :
    Echoes m strict (MonadExcept.tryCatch x handle) (MonadExcept.tryCatch y handle') where
  same := (tryCatch hx.weaken hf).same
  ok _ {s n a t n'} h := by
    rw [effect_tryCatch] at h
    rw [effect_tryCatch]
    rcases hfirst : effect x (s, n) with ⟨e | a', u, k⟩
    · obtain ⟨e', he'⟩ := hfails e (u, k)
      simp only [hfirst] at h
      rw [h] at he'
      simp at he'
    · rw [hfirst] at h
      obtain ⟨hresult, hstate⟩ := Prod.mk.inj h
      obtain rfl := Except.ok.inj hresult
      obtain ⟨rfl, rfl⟩ := Prod.mk.inj hstate
      rw [hx.ok trivial hfirst]

theorem reach {x : TriedM IndexError Disk α} {y : DiskM IndexError α} (h : Echoes m strict x y) :
    Echoes m strict (Codebook.reach x) (Index.onDisk y) where
  same hm := by
    rintro ⟨i, d⟩ n
    obtain ⟨n', hsame⟩ := h.same hm d n
    exact ⟨n', by rw [effect_reach, Index.effect_onDisk, hsame]⟩
  ok hs := by
    rintro ⟨i, d⟩ n a ⟨i', d'⟩ n' hdone
    rw [effect_reach] at hdone
    obtain ⟨hresult, hstate⟩ := Prod.mk.inj hdone
    obtain ⟨hs', hn⟩ := Prod.mk.inj hstate
    obtain ⟨rfl, hd⟩ := Prod.mk.inj hs'
    have hx : effect x (d, n) = (.ok a, (d', n')) := Prod.ext hresult (Prod.ext hd hn)
    rw [Index.effect_onDisk, h.ok hs hx]

end Echoes

namespace Medium

variable {m : Medium} {strict : Prop} {ε α : Type}

theorem runAll_done : ∀ {steps : List DiskStep} {n n' : Nat} {d d' : Disk},
    m.runAll n d steps = (true, d', n') → d.runAll steps = (true, d')
  | [], _, _, _, _, h => by
    obtain ⟨-, hstate⟩ := Prod.mk.inj h
    rw [Disk.runAll, (Prod.mk.inj hstate).1]
  | step :: steps, n, n', d, d', h => by
    rw [runAll] at h
    split at h
    · rename_i hrun
      rw [Disk.runAll, m.done hrun]
      exact runAll_done h
    · simp at h

theorem runAll_sure (hm : ∀ n, m.Sure n) : ∀ (steps : List DiskStep) (n : Nat) (d : Disk),
    ∃ n', m.runAll n d steps = ((d.runAll steps).1, (d.runAll steps).2, n')
  | [], n, _ => ⟨n, rfl⟩
  | step :: steps, n, d => by
    rw [runAll, Disk.runAll, hm n d step]
    cases step.run d with
    | none => exact ⟨n + 1, rfl⟩
    | some d' => exact runAll_sure hm steps (n + 1) d'

theorem effect_perform (failure : ε) (steps : List DiskStep) (d : Disk) (n : Nat) :
    effect (m.perform failure steps) (d, n) =
      (if (m.runAll n d steps).1 then .ok () else .error failure, (m.runAll n d steps).2) := by
  unfold perform
  rw [effect_bind_ok (effect_get (d, n))]
  simp only
  generalize m.runAll n d steps = r
  rcases r with ⟨done, d', n'⟩
  cases done <;> rfl

theorem echoes_perform (failure : ε) (steps : List DiskStep) :
    Echoes m strict (m.perform failure steps) (Codebook.perform failure steps) where
  same hm d n := by
    obtain ⟨n', hrun⟩ := runAll_sure hm steps n d
    exact ⟨n', by rw [effect_perform, Codebook.effect_perform, hrun]⟩
  ok _ {d n a d' n'} h := by
    rw [effect_perform] at h
    rcases hrun : m.runAll n d steps with ⟨done, d₁, n₁⟩
    rw [hrun] at h
    obtain ⟨hresult, hstate⟩ := Prod.mk.inj h
    obtain ⟨rfl, -⟩ := Prod.mk.inj hstate
    cases done with
    | false => simp at hresult
    | true => rw [Codebook.effect_perform, runAll_done hrun]; rfl

/-! ### Opening -/

theorem echoes_findCurrent (path : Path) (name : String) :
    Echoes m strict (m.findCurrent path name) (IndexDirectory.findCurrent path name) := by
  refine .bind (.steady get) fun d => .bind (.lift _) fun found => ?_
  cases found with
  | some n => exact .pure n
  | none => exact .bind (echoes_perform _ _) fun _ => .pure 1

theorem echoes_openDirectory (root : Path) (name : String) :
    Echoes m strict (m.openDirectory root name) (IndexDirectory.open root name) :=
  .bind (echoes_perform _ _) fun _ => .bind (echoes_findCurrent _ _) fun _ =>
    .bind (echoes_perform _ _) fun _ => .pure _

theorem echoes_sweep (dir : IndexDirectory) : Echoes m strict (m.sweep dir) dir.sweep :=
  .bind (.steady _) fun _ => .bind (echoes_perform _ _) fun _ => .pure _

theorem echoes_clearStaleLock (dir : IndexDirectory) (path : Path) :
    Echoes m strict (m.clearStaleLock dir path) (dir.clearStaleLock path) := by
  refine .bind (.steady get) fun d => ?_
  generalize d.node? (path ++ [lockName]) = found
  rcases found with _ | _ | ⟨bytes, _ | holder⟩ | g
  · exact .pure false
  · exact .throw _
  · exact .bind (echoes_perform _ _) fun _ => .pure true
  · exact .throw _
  · exact .throw _

theorem echoes_createContent (i : Index) (path : Path) :
    Echoes m strict (m.createContent i path) (Index.createContent i path) :=
  .bind (echoes_perform _ _) fun _ => .pure _

theorem echoes_openOrCreate (i : Index) (path : Path) :
    Echoes m strict (m.openOrCreate i path) (Index.openOrCreate i path) := by
  have hcreate : Echoes m strict (m.createContent i path) (Index.createContent i path) :=
    echoes_createContent i path
  refine .bind (.steady get) fun d => ?_
  split_ifs
  · refine .bind (.steady _) fun g => ?_
    split_ifs
    · exact .pure g
    · exact .bind (echoes_perform _ _) fun _ => hcreate
  · exact hcreate

theorem echoes_createWriter (i : Index) (path : Path) (documents : List Document) :
    Echoes m strict (m.createWriter i path documents) (Index.createWriter i path documents) := by
  refine .bind (.steady get) fun d => .bind (echoes_perform _ _) fun _ => .bind (.steady _) fun _ => ?_
  split_ifs
  · exact .bind (echoes_perform _ _) fun _ => .bind (.throw _) fun _ => .pure _
  · exact .pure _

/-- **Where every step is done that can be done, an opening is an opening.** -/
theorem echoes_openIndex : Echoes m strict m.openIndex Index.open := by
  refine .bind (.steady _) fun i => ?_
  by_cases hready : i.isReady = true
  · rw [if_pos hready, if_pos hready]
    exact .pure ()
  · rw [if_neg hready, if_neg hready]
    refine .bind (.steady _) fun _ => .bind (.reach (echoes_openDirectory _ _)) fun dir =>
      .bind (.reach (echoes_sweep dir)) fun _ => ?_
    have htake : Echoes m strict (do
        let content ← reach (m.openOrCreate i dir.currentPath)
        let writer ← reach (m.createWriter i dir.currentPath content.documents)
        steady (Index.update fun i => { i with writer := some writer, live := some ⟨dir, content⟩ }))
        (Index.takeOver i dir) :=
      .bind (.reach (echoes_openOrCreate _ _)) fun _ =>
        .bind (.reach (echoes_createWriter _ _ _)) fun _ => .steady _
    split_ifs
    · exact .bind (.reach (echoes_clearStaleLock _ _)) fun _ => htake
    · exact htake

/-! ### Rebuilding -/

theorem echoes_create (dir : IndexDirectory) : Echoes m strict (m.create dir) dir.create :=
  .bind (.steady _) fun _ => .bind (echoes_perform _ _) fun _ => .pure _

theorem echoes_startBuilding (number : Nat) (path : Path) :
    Echoes m strict (m.startBuilding number path) (Index.startBuilding number path) :=
  .bind (.steady _) fun i => .bind (.reach (echoes_createContent i path)) fun _ =>
    .bind (.reach (echoes_createWriter i path [])) fun _ => .pure _

theorem echoes_discard (path : Path) : Echoes m False (m.discard path) (Index.discard path) where
  same hm := by
    rintro ⟨i, d⟩ n
    have hperform : Echoes m False (m.perform IndexError.io [.removeDirectory path])
      (Codebook.perform IndexError.io [.removeDirectory path]) := echoes_perform _ _
    obtain ⟨n', hrun⟩ := hperform.same hm d n
    refine ⟨n', ?_⟩
    unfold discard Index.discard
    rw [effect_reach, effect_tryCatch, hrun, Index.effect_onDisk, Codebook.effect_perform,
      effect_modify]
    split_ifs <;> rfl
  ok h := h.elim

theorem echoes_beginRebuild : Echoes m strict m.beginRebuild Index.beginRebuild := by
  refine .bind (.steady _) fun _ => .tryCatch_fails ?_ (fun e => .steady _) fun e s => ?_
  · refine .bind (.steady _) fun dir => .bind (.reach (echoes_create dir)) fun number => ?_
    refine .tryCatch_fails (echoes_startBuilding _ _)
      (fun e => .bind (echoes_discard _) fun _ => .throw e) fun e s => ?_
    rw [effect_bind]
    split
    · exact ⟨e, rfl⟩
    · exact ⟨_, rfl⟩
  · obtain ⟨⟨i, d⟩, n⟩ := s
    exact ⟨e, by rw [effect_steady]; rfl⟩

theorem echoes_abandonRebuild (b : Building) (e : IndexError) :
    Echoes m False (m.abandonRebuild b e : TriedM IndexError (Index × Disk) α)
      (Index.abandonRebuild b e) :=
  .bind (.reach (echoes_perform _ _)) fun _ => .bind (echoes_discard _) fun _ => .steady _

theorem echoes_applyTo (w : Writer) (changes : List Change) :
    Echoes m strict (m.applyTo w changes) (Index.applyTo w changes) :=
  .bind (.steady _) fun _ => .bind (.reach (echoes_perform _ _)) fun _ => .pure _

theorem echoes_replay (w : Writer) (journal : List Change) :
    Echoes m strict (m.replay w journal) (Index.replay w journal) := by
  unfold replay Index.replay
  split_ifs
  · exact .pure w
  · exact echoes_applyTo w journal

theorem echoes_swap (dir : IndexDirectory) (n : Nat) :
    Echoes m strict (m.swap dir n) (dir.swap n) := by
  refine .bind (.steady get) fun d => ?_
  have hturn : Echoes m strict
      (do m.perform IndexError.io (pointerSteps dir.path n); return { dir with current := n })
      (do Codebook.perform IndexError.io (pointerSteps dir.path n); return { dir with current := n }) :=
    .bind (echoes_perform _ _) fun _ => .pure _
  split_ifs
  · exact .bind (.throw _) fun _ => hturn
  · exact hturn

theorem echoes_swapIn (number : Nat) (w : Writer) :
    Echoes m strict (m.swapIn number w) (Index.swapIn number w) := by
  refine .bind (.steady _) fun journal => .bind (echoes_replay w journal) fun w =>
    .bind (.reach (.steady _)) fun g => .bind (.steady _) fun old => .bind (.reach (echoes_swap old number))
      fun dir => .bind (.steady _) fun i => .bind (.steady _) fun _ => ?_
  cases i.writer with
  | none => exact .pure _
  | some r => exact .bind (.reach (echoes_perform _ _)) fun _ => .pure _

theorem echoes_remove (dir : IndexDirectory) (n : Nat) :
    Echoes m strict (m.remove dir n) (dir.remove n) := by
  unfold remove IndexDirectory.remove
  have hremove : Echoes m strict (do m.perform IndexError.io (dir.removeSteps n (← steady get)))
      (do Codebook.perform IndexError.io (dir.removeSteps n (← get))) :=
    .bind (.steady get) fun _ => echoes_perform _ _
  split_ifs
  · exact .bind (.throw _) fun _ => hremove
  · exact hremove

theorem echoes_removeRetired (number : Nat) :
    Echoes m False (m.removeRetired number) (Index.removeRetired number) :=
  .tryCatch (.bind (.steady _) fun dir => .reach (echoes_remove dir number)) fun _ => .pure ()

theorem echoes_finishRebuild (b : Building) :
    Echoes m False (m.finishRebuild b) (Index.finishRebuild b) :=
  .bind (.tryCatch (.bind (echoes_applyTo _ _) fun v => echoes_swapIn b.number v)
    (echoes_abandonRebuild b)) fun _ =>
      .bind (echoes_removeRetired _) fun _ => .bind (.steady _) fun _ => .pure _

theorem echoes_rebuild (fill : Building → IndexM Building) :
    Echoes m False (m.rebuild fill) (Index.rebuild fill) :=
  .bind echoes_beginRebuild fun b =>
    .bind (.tryCatch (.steady _) (echoes_abandonRebuild b)) fun b => echoes_finishRebuild b

/-- **Where every step is done that can be done, a rebuild is a rebuild.** -/
theorem echoes_rebuildFrom [Indexed α] (source : Source α) :
    Echoes m False (m.rebuildFrom source) (Index.rebuildFrom source) :=
  .bind (.lift _) fun _ => echoes_rebuild _

end Medium

end Codebook
