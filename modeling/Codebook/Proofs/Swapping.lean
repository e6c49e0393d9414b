/-
# Rebuilds on a medium

A rebuild works beside the live generation until it turns the pointer. So whatever step fails before
that, the index serves what it served, and the disk holds it. Once the pointer was turned the new
generation is found, and all that the rebuild still does is done beside that one, unless it takes one of
two steps for failed that come right after the turn: then it removes the generation that the pointer names.

Key definitions: `IndexDirectory.Turned`, `Medium.Balks`, `Medium.Dead`, `Medium.Careful`,
`Index.Standing`, `Source.Yields`.
Key theorems: `Index.Standing.keeps_beginRebuild`, `Index.Standing.swapIn`,
`Index.Standing.finishRebuild`, `Index.Kept.rebuildFrom_outcome`.
-/
import Codebook.Proofs.Recovery

namespace Codebook

open IndexDirectory

/-! ### After the turn of the pointer -/

/-- The pointer was turned away from a generation that is there still. -/
structure IndexDirectory.Turned (dir : IndexDirectory) (d : Disk) : Prop where
  sound : d.Sound
  there : d.isDirectory dir.currentPath = true
  pointer : ∃ c, c ≠ dir.current ∧ readPointer dir.path dir.name d = .ok (some c)

theorem IndexDirectory.Turned.isDirectory_root {dir : IndexDirectory} {d : Disk} (h : dir.Turned d) :
    d.isDirectory dir.path = true :=
  h.sound.above (of_decide_eq_true h.there) (path_prefix_generationPath dir _)
    (by simp [currentPath, generationPath])

namespace Medium

variable (m : Medium)

/-- Right after the turn of the pointer, syncing the directory or letting a lock go fails at a step. -/
def Balks (dir : IndexDirectory) (n : Nat) : Prop :=
  ∃ d step, dir.Turned d ∧ (step = .sync dir.path ∨ ∃ path holder, step = .unlock path holder) ∧
    (m.run n d step).1 = false

/-- From some step on nothing is done any more. -/
def Dead (n : Nat) : Prop :=
  ∀ k, n ≤ k → ∀ d step, m.run k d step = (false, d)

/-- After a failure right after the turn of the pointer nothing is done any more. -/
def Careful (dir : IndexDirectory) : Prop :=
  ∀ n, m.Balks dir n → m.Dead (n + 1)

end Medium

/-! ### What was not disturbed -/

namespace Index

variable {i : Index} {d d' : Disk} {l : Live} {w : Writer} {m : Medium}

/-- The index is open, its directory is tidy, and its settings do not keep it from being opened again. -/
structure Standing (l : Live) (w : Writer) (s : Index × Disk) : Prop where
  serving : Serving s.1 s.2 l w
  tidy : s.2.Tidy l.directory.path
  valid : s.1.config.validate = .ok ()
  heap : s.1.config.heapPerThread < Config.maxWriterHeapBytes

namespace Serving

theorem apart (h : Serving i d l w) {q : Path} (hq : Relies l w q) : l.directory.Apart q := by
  rcases hq with rfl | rfl | rfl
  · exact h.path ▸ apart_current l.directory _
  · exact h.path ▸ apart_current l.directory _
  · exact apart_pointer l.directory

theorem orderly (h : Serving i d l w) (ht : d.Tidy l.directory.path) : d.Orderly l.directory.path where
  sound := h.sound
  tidy := ht
  way q n hq hn := by
    have hroot := of_decide_eq_true h.isDirectory_root
    by_cases hsame : q = l.directory.path
    · exact Option.some.inj (hn.symm.trans (hsame ▸ hroot))
    · have hdirectory := of_decide_eq_true (h.sound.above hroot hq hsame)
      exact Option.some.inj (hn.symm.trans hdirectory)

end Serving

namespace Standing

/-- The disk holds what the index serves. -/
theorem holds (h : Standing l w (i, d)) (hmax : l.directory.current ≤ Number.maxNat64) :
    d.Holds l.directory l.content where
  toOrderly := h.serving.orderly h.tidy
  countable := hmax
  content := .inl (h.serving.path ▸ h.serving.content)
  lock n hn := by
    obtain ⟨bytes, hlock⟩ := h.serving.lock
    rw [h.serving.path] at hlock
    exact ⟨bytes, some w.holder, Option.some.inj (hn.symm.trans hlock)⟩
  pointer := by
    obtain ⟨_, -, hread⟩ := h.serving.pointer
    exact .inl (hread hmax)

/-- **What is done beside the live generation does not disturb an open index**, however far it gets. -/
theorem beside (h : Standing l w (i, d)) {step : DiskStep} (hb : l.directory.Beside step)
    (hl : step.Leaves d d') : Standing l w (i, d') where
  serving := h.serving.keep (hl.sound h.serving.sound) fun q n hq hn => by
    rw [hb.apart (h.serving.apart hq) hl, hn]
  tidy := (hb.orderly (h.serving.orderly h.tidy) hl).tidy
  valid := h.valid
  heap := h.heap

theorem aside (h : Standing l w (i, d)) (ha : l.directory.Aside d d') : Standing l w (i, d') := by
  induction ha with
  | refl => exact h
  | step _ hb hl ih => exact ih.beside hb hl

theorem count (h : Standing l w (i, d)) (k : Nat) :
    Standing l w (i, ({ d with holders := k } : Disk)) where
  serving := h.serving.keep (h.serving.sound.count k) fun _ _ _ hn => hn
  tidy := h.tidy
  valid := h.valid
  heap := h.heap

/-- Counters and the journal do not matter. -/
theorem congr {i' : Index} (h : Standing l w (i, d)) (hl : i'.live = i.live) (hw : i'.writer = i.writer)
    (hs : i'.schema = i.schema) (hc : i'.config = i.config) : Standing l w (i', d) where
  serving := h.serving.congr hl hw hs hc
  tidy := h.tidy
  valid := hc.symm ▸ h.valid
  heap := hc.symm ▸ h.heap

/-! ### The parts of a rebuild -/

variable {ε α : Type} {n : Nat} {v : Writer} {b : Building}

theorem keeps_perform {failure : ε} {steps : List DiskStep}
    (h : ∀ step ∈ steps, l.directory.Beside step) (i : Index) :
    Keeps (fun s : Disk × Nat => Standing l w (i, s.1)) (fun _ => True) (m.perform failure steps) :=
  Medium.keeps_perform fun step hstep d n hd => beside hd (h step hstep) (m.leaves n d step)

theorem keeps_create (i : Index) : Keeps (fun s : Disk × Nat => Standing l w (i, s.1))
    (l.directory.current < ·) (m.create l.directory) := by
  refine .bind Disk.keeps_presentDisk fun d _ => ?_
  have habove : l.directory.current < l.directory.nextNumber d := by
    unfold nextNumber
    omega
  refine .bind (keeps_perform (fun step hstep => ?_) i) fun _ _ => .pure habove
  unfold createSteps at hstep
  simp only [List.mem_append, List.mem_cons, List.not_mem_nil, or_false] at hstep
  rcases hstep with hstep | rfl | rfl
  · split_ifs at hstep
    · rw [List.mem_singleton.mp hstep]
      exact .remove habove.ne'
    · simp at hstep
  · exact .make _
  · exact .sync _

theorem keeps_createContent (hn : n ≠ l.directory.current) (i j : Index) :
    Keeps (fun s : Disk × Nat => Standing l w (i, s.1)) (fun _ => True)
      (m.createContent j (l.directory.generationPath n)) :=
  .bind (keeps_perform (fun _ hstep => List.mem_singleton.mp hstep ▸ .publish hn _) i) fun _ _ =>
    .pure trivial

theorem keeps_createWriter (hn : n ≠ l.directory.current) (i j : Index) (documents : List Document) :
    Keeps (fun s : Disk × Nat => Standing l w (i, s.1)) (·.path = l.directory.generationPath n)
      (m.createWriter j (l.directory.generationPath n) documents) := by
  refine .bind (V := fun _ => True) (keeps_steady fun _ d h => ⟨h, fun _ _ => trivial⟩) fun d _ => ?_
  refine .bind (keeps_perform (fun _ hstep => List.mem_singleton.mp hstep ▸ .lock hn _) i) fun _ _ => ?_
  refine .bind (V := fun _ => True) (keeps_steady fun _ d h => ⟨count h _, fun _ _ => trivial⟩) fun _ _ => ?_
  split_ifs
  · exact .bind (keeps_perform (fun _ hstep => List.mem_singleton.mp hstep ▸ .unlock hn _) i)
      fun _ _ => .bind (V := fun _ => True) (.throw _) fun _ _ => .pure rfl
  · exact .pure rfl

theorem keeps_current : Keeps (fun s : (Index × Disk) × Nat => Standing l w s.1) (fun _ => True)
    (steady Index.current) :=
  keeps_steady fun _ _ h => ⟨h, fun _ _ => trivial⟩

theorem keeps_startBuilding (hn : n ≠ l.directory.current) :
    Keeps (fun s : (Index × Disk) × Nat => Standing l w s.1)
      (·.writer.path = l.directory.generationPath n)
      (m.startBuilding n (l.directory.generationPath n)) :=
  .bind keeps_current fun j _ => .bind (keeps_reach fun i => keeps_createContent hn i j) fun _ _ =>
    .bind (keeps_reach fun i => keeps_createWriter hn i j []) fun _ hpath => .pure hpath

theorem keeps_discard (hn : n ≠ l.directory.current) :
    Keeps (fun s : (Index × Disk) × Nat => Standing l w s.1) (fun _ => True)
      (m.discard (l.directory.generationPath n)) :=
  keeps_reach fun i => .tryCatch
    (keeps_perform (fun _ hstep => List.mem_singleton.mp hstep ▸ .remove hn) i) fun _ => .pure trivial

theorem keeps_dropJournal {V : α → Prop} (e : IndexError) :
    Keeps (fun s : (Index × Disk) × Nat => Standing l w s.1) V (steady (Index.dropJournal e)) :=
  keeps_steady fun _ _ h => ⟨h.congr rfl rfl rfl rfl, fun _ ha => by cases ha⟩

theorem keeps_startJournal : Keeps (fun s : (Index × Disk) × Nat => Standing l w s.1) (fun _ => True)
    (steady Index.startJournal) := by
  refine keeps_steady fun _ s h => ⟨?_, fun _ _ => trivial⟩
  obtain ⟨i, d⟩ := s
  unfold startJournal
  rw [effect_bind_ok (effect_current i d)]
  split_ifs
  · exact h
  · exact h.congr rfl rfl rfl rfl

theorem keeps_liveDirectory : Keeps (fun s : (Index × Disk) × Nat => Standing l w s.1)
    (· = l.directory) (steady Index.liveDirectory) := by
  refine keeps_steady fun _ s h => ?_
  obtain ⟨i, d⟩ := s
  rw [effect_liveDirectory h.serving.live]
  exact ⟨h, fun _ ha => (Except.ok.inj ha).symm⟩

/-- **The beginning of a rebuild does not disturb an open index**, wherever it fails. -/
theorem keeps_beginRebuild : Keeps (fun s : (Index × Disk) × Nat => Standing l w s.1) (fun _ => True)
    m.beginRebuild := by
  refine .bind keeps_startJournal fun _ _ => .tryCatch ?_ fun e => keeps_dropJournal e
  refine .bind keeps_liveDirectory fun dir hdir => ?_
  subst hdir
  refine .bind (keeps_reach fun i => keeps_create i) fun number habove => ?_
  refine .tryCatch ((keeps_startBuilding habove.ne').mono fun _ _ => trivial) fun e => ?_
  exact .bind (keeps_discard habove.ne') fun _ _ => .throw e

/-- Nor does giving it up. -/
theorem keeps_abandonRebuild {V : α → Prop} (hn : n ≠ l.directory.current)
    (hb : b.writer.path = l.directory.generationPath n) (e : IndexError) :
    Keeps (fun s : (Index × Disk) × Nat => Standing l w s.1) V (m.abandonRebuild b e) := by
  have hrelease : ∀ step ∈ Writer.releaseSteps b.writer, l.directory.Beside step := fun step hstep => by
    rw [List.mem_singleton.mp hstep, hb]
    exact .unlock hn _
  have hdiscard : Keeps (fun s : (Index × Disk) × Nat => Standing l w s.1) (fun _ => True)
      (m.discard b.writer.path) := hb ▸ keeps_discard hn
  exact .bind (keeps_reach fun i => keeps_perform hrelease i) fun _ _ => .bind hdiscard fun _ _ =>
    keeps_dropJournal e

theorem keeps_applyTo (hn : n ≠ l.directory.current) (hv : v.path = l.directory.generationPath n)
    (changes : List Change) : Keeps (fun s : (Index × Disk) × Nat => Standing l w s.1) (fun _ => True)
      (m.applyTo v changes) := by
  refine .bind keeps_current fun j _ => .bind (keeps_reach fun i => keeps_perform (fun step hstep => ?_) i)
    fun _ _ => .pure trivial
  rw [List.mem_singleton.mp hstep, hv]
  exact .publish hn _

theorem keeps_replay (hn : n ≠ l.directory.current) (hv : v.path = l.directory.generationPath n)
    (journal : List Change) : Keeps (fun s : (Index × Disk) × Nat => Standing l w s.1) (fun _ => True)
      (m.replay v journal) := by
  unfold Medium.replay
  split_ifs
  · exact .pure trivial
  · exact keeps_applyTo hn hv journal

/-- Nor does removing another generation. -/
theorem keeps_removeRetired (hn : n ≠ l.directory.current) :
    Keeps (fun s : (Index × Disk) × Nat => Standing l w s.1) (fun _ => True) (m.removeRetired n) := by
  refine .tryCatch (.bind keeps_liveDirectory fun dir hdir => ?_) fun _ => .pure trivial
  subst hdir
  refine keeps_reach fun i => ?_
  unfold Medium.remove
  rw [if_neg hn]
  refine keeps_read fun d k h => keeps_perform (fun step hstep => ?_) i (d, k) h
  unfold removeSteps at hstep
  simp only at hstep
  split_ifs at hstep
  · simp only [List.mem_cons, List.not_mem_nil, or_false] at hstep
    rcases hstep with rfl | rfl
    · exact .remove hn
    · exact .sync _
  · simp at hstep

/-! ### The swap -/

theorem effect_swap {dir : IndexDirectory} (k : Nat)
    (hdirectory : d.isDirectory (dir.generationPath n) = true) :
    effect (m.swap dir n) (d, k) = match m.runAll k d (pointerSteps dir.path n) with
      | (true, t) => (.ok { dir with current := n }, t)
      | (false, t) => (.error .io, t) := by
  unfold Medium.swap
  rw [effect_bind_ok (effect_read d k), hdirectory]
  show effect (m.perform IndexError.io (pointerSteps dir.path n) >>= fun _ => _) (d, k) = _
  rw [effect_bind, Medium.effect_perform]
  rcases m.runAll k d (pointerSteps dir.path n) with ⟨_ | _, t⟩ <;> rfl

theorem stores_draft (hb : Draft i d l n v) (hmax : n ≤ Number.maxNat64) :
    d.Stores { l.directory with current := n } { i.emptyContent with documents := v.documents } where
  countable := hmax
  content := by
    have hcontent := hb.content
    rw [hb.path] at hcontent
    exact .inl hcontent
  lock node hnode := by
    obtain ⟨bytes, hlock⟩ := hb.lock
    rw [hb.path] at hlock
    exact ⟨bytes, some v.holder, Option.some.inj (hnode.symm.trans hlock)⟩

/-- After the pointer was turned the generation before is there still. -/
theorem turned {k : Nat} {done : Bool} {k' : Nat} (h : Standing l w (i, d)) (hn : n ≠ l.directory.current)
    (hsound : d'.Sound) (hread : readPointer l.directory.path l.directory.name d' = .ok (some n))
    (hrun : m.runAll k d (pointerSteps l.directory.path n) = (done, d', k')) : l.directory.Turned d' where
  sound := hsound
  there := by
    have hharms : ∀ step ∈ pointerSteps l.directory.path n, ¬ step.harms (w.path ++ [contentName]) :=
      pointerSteps_harms (by rw [h.serving.path]; exact not_draft_prefix)
        h.serving.content_ne_pointer.symm
    have hkept := m.node?_runAll k h.serving.content hharms
    rw [hrun] at hkept
    have hparent := hsound.parent hkept
    rwa [Path.parent, List.dropLast_concat, h.serving.path] at hparent
  pointer := ⟨n, hn, hread⟩

/-- Once the journal was replayed the pointer is turned, the index serves the new generation, and the writer
of the one before lets its lock go. -/
theorem effect_swapIn {i : Index} {d d' : Disk} {k k' : Nat} {v' : Writer}
    (hreplay : effect (m.replay v (i.journal.getD [])) (({ i with journal := none }, d), k) =
      (.ok v', (({ i with journal := none }, d'), k')))
    (hb : Draft { i with journal := none } d' l n v') (hs : Serving { i with journal := none } d' l w) :
    effect (m.swapIn n v) ((i, d), k) =
      match m.runAll k' d' (pointerSteps l.directory.path n) with
      | (false, t) => (.error .io, (({ i with journal := none }, t.1), t.2))
      | (true, t) =>
        let content := { i.emptyContent with documents := v'.documents }
        let served : Index := { i with
          journal := none, writer := some v'
          live := some { directory := { l.directory with current := n }, content } }
        match m.run t.2 t.1 (.unlock (w.path ++ [lockName]) w.holder) with
        | (false, d₃) => (.error .io, ((served, d₃), t.2 + 1))
        | (true, d₃) => (.ok (l.directory.current, content.size), ((served, d₃), t.2 + 1)) := by
  have htake : effect (steady Index.takeJournal : TriedM IndexError (Index × Disk) (List Change))
      ((i, d), k) = (.ok (i.journal.getD []), (({ i with journal := none }, d), k)) := effect_steady _ _ _
  have hread : effect (reach (steady (Index.readContent v'.path)) :
      TriedM IndexError (Index × Disk) Generation) (({ i with journal := none }, d'), k') =
      (.ok { i.emptyContent with documents := v'.documents }, (({ i with journal := none }, d'), k')) := by
    rw [effect_reach, effect_steady, effect_readContent _ _ hb.content]
    rfl
  have hlive : effect (steady Index.liveDirectory : TriedM IndexError (Index × Disk) IndexDirectory)
      (({ i with journal := none }, d'), k') =
      (.ok l.directory, (({ i with journal := none }, d'), k')) := by
    rw [effect_steady, effect_liveDirectory hs.live]
  have hdirectory : d'.isDirectory (l.directory.generationPath n) = true := by
    have hparent := hs.sound.parent hb.content
    rwa [hb.path, Path.parent, List.dropLast_concat] at hparent
  have hcurrent : ∀ s, effect (steady Index.current : TriedM IndexError (Index × Disk) Index) s =
      (.ok s.1.1, s) := fun s => effect_steady _ _ _
  have hupdate : ∀ f s, effect (steady (Index.update f) : TriedM IndexError (Index × Disk) Unit) s =
      (.ok (), ((f s.1.1, s.1.2), s.2)) := fun f s => effect_steady _ _ _
  have hwriter : i.writer = some w := hs.writer
  unfold Medium.swapIn
  rw [effect_bind_ok htake, effect_bind_ok hreplay, effect_bind_ok hread, effect_bind_ok hlive, effect_bind,
    effect_reach, effect_swap k' hdirectory]
  rcases m.runAll k' d' (pointerSteps l.directory.path n) with ⟨_ | _, d₂, k₂⟩
  · rfl
  · simp only
    rw [effect_bind_ok (hcurrent _), effect_bind_ok (hupdate _ _)]
    simp only [hwriter]
    rw [effect_bind, effect_reach, Medium.effect_perform, Writer.releaseSteps]
    rcases hunlock : m.run k₂ d₂ (.unlock (w.path ++ [lockName]) w.holder) with ⟨_ | _, d₃⟩ <;>
      simp only [Medium.runAll, hunlock] <;> rfl

/-- **The swap on a medium.** Either it fails before the pointer is turned, and nothing was disturbed. Or
the new generation is found from then on, and the index serves it unless the swap failed at one of the
two steps that come right after. -/
theorem swapIn (h : Standing l w (i, d)) (hb : Draft i d l n v) (hmax : n ≤ Number.maxNat64) (k : Nat) :
    (∃ e s, effect (m.swapIn n v) ((i, d), k) = (.error e, s) ∧ Standing l w s.1) ∨
    ∃ g s, g.documents = applyChanges i.schema v.documents (i.journal.getD []) ∧
      g.layout = i.schema.layout ∧ s.1.2.Holds { l.directory with current := n } g ∧
      ((∃ e k', effect (m.swapIn n v) ((i, d), k) = (.error e, s) ∧ m.Balks l.directory k' ∧
          s.2 = k' + 1) ∨
        ∃ count v', effect (m.swapIn n v) ((i, d), k) = (.ok (l.directory.current, count), s) ∧
          Standing ⟨{ l.directory with current := n }, g⟩ v' s.1) := by
  have hne : n ≠ l.directory.current := hb.above.ne'
  have hmax₀ : l.directory.current ≤ Number.maxNat64 := hb.above.le.trans hmax
  have h₀ : Standing l w ({ i with journal := none }, d) := h.congr rfl rfl rfl rfl
  have hb₀ : Draft { i with journal := none } d l n v := ⟨hb.path, hb.above, hb.content, hb.lock⟩
  -- the journal is replayed beside the live generation
  rcases hreplay : effect (m.replay v (i.journal.getD [])) (({ i with journal := none }, d), k) with
    ⟨e | v', ⟨⟨i₁, d₁⟩, k₁⟩⟩ <;>
    have hkept := (keeps_replay (m := m) hne hb.path (i.journal.getD [])
      (({ i with journal := none }, d), k) h₀).1 <;> rw [hreplay] at hkept
  · have hend : effect (m.swapIn n v) ((i, d), k) = (.error e, ((i₁, d₁), k₁)) := by
      unfold Medium.swapIn
      rw [effect_bind_ok (effect_steady _ _ _)]
      exact effect_bind_error hreplay _
    exact .inl ⟨e, _, hend, hkept⟩
  obtain ⟨rfl, hv', hb₁, hs₁⟩ :=
    hb₀.replay_ok h₀.serving ((Medium.echoes_replay v _ : Echoes m True _ _).ok trivial hreplay)
  have h₁ : Standing l w ({ i with journal := none }, d₁) := hkept
  have hend := effect_swapIn hreplay hb₁ hs₁
  have hdocuments : v'.documents = applyChanges i.schema v.documents (i.journal.getD []) := by rw [hv']
  rcases hturn : m.runAll k₁ d₁ (pointerSteps l.directory.path n) with ⟨done, d₂, k₂⟩
  rw [hturn] at hend
  rcases (h₁.holds hmax₀).runAll_pointerSteps (stores_draft hb₁ hmax) hturn with
    ⟨haside, rfl⟩ | ⟨hholds, hpointer, hlast⟩
  · exact .inl ⟨_, _, hend, h₁.aside haside⟩
  have hturned := h₁.turned hne hholds.sound hpointer hturn
  cases done with
  | false =>
    obtain ⟨k₃, rfl, hfail⟩ := hlast rfl
    exact .inr ⟨_, _, hdocuments, rfl, hholds,
      .inl ⟨_, k₃, hend, ⟨d₂, _, hturned, .inl rfl, by rw [hfail]⟩, rfl⟩⟩
  | true =>
    rcases hunlock : m.run k₂ d₂ (.unlock (w.path ++ [lockName]) w.holder) with ⟨_ | _, d₃⟩ <;>
      simp only [hunlock] at hend
    · cases m.torn hunlock
      exact .inr ⟨_, _, hdocuments, rfl, hholds,
        .inl ⟨_, k₂, hend, ⟨d₂, _, hturned, .inr ⟨_, _, rfl⟩, by rw [hunlock]⟩, rfl⟩⟩
    · have hbeside : ({ l.directory with current := n } : IndexDirectory).Beside
          (.unlock (w.path ++ [lockName]) w.holder) := by
        rw [hs₁.path]
        exact .unlock hne.symm _
      have hholds₃ := hholds.beside hbeside (.inl (m.done hunlock))
      obtain ⟨g, v'', hs', -⟩ :=
        hb.swapIn_ok h.serving ((Medium.echoes_swapIn n v : Echoes m True _ _).ok trivial hend)
      obtain rfl : { i.emptyContent with documents := v'.documents } = g :=
        congrArg Live.content (Option.some.inj hs'.live)
      exact .inr ⟨_, _, hdocuments, rfl, hholds₃,
        .inr ⟨_, v'', hend, hs', hholds₃.tidy, h.valid, h.heap⟩⟩

/-! ### The end of a rebuild -/

/-- Where nothing is done any more giving up a rebuild does nothing to the disk. -/
theorem dead_abandonRebuild {k : Nat} (hdead : m.Dead k) (b : Building) (e : IndexError) :
    Keeps (fun s : (Index × Disk) × Nat => s.1.2 = d ∧ k ≤ s.2) (fun _ : α => False)
      (m.abandonRebuild b e) := by
  have hperform : ∀ {failure : IndexError} {steps : List DiskStep},
      Keeps (fun s : Disk × Nat => s.1 = d ∧ k ≤ s.2) (fun _ => True) (m.perform failure steps) :=
    Medium.keeps_perform fun step _ d' n h => by
      rw [hdead n h.2]
      exact ⟨h.1, h.2.trans (Nat.le_succ n)⟩
  refine .bind (keeps_reach fun _ => hperform) fun _ _ => .bind (keeps_reach fun _ =>
    .tryCatch hperform fun _ => .pure trivial) fun _ _ => ?_
  exact keeps_steady fun _ _ h => ⟨h, fun _ ha => by cases ha⟩

theorem abandonRebuild_fails (b : Building) (e : IndexError) (s : (Index × Disk) × Nat) :
    ∃ e' t, effect (m.abandonRebuild b e : TriedM IndexError (Index × Disk) α) s = (.error e', t) := by
  have hany : ∀ {β : Type} {x : TriedM IndexError (Index × Disk) β},
      Keeps (fun _ => True) (fun _ => True) x := fun _ _ => ⟨trivial, fun _ _ => trivial⟩
  have hfails : Keeps (fun _ => True) (fun _ : α => False) (m.abandonRebuild b e) :=
    .bind hany fun _ _ => .bind hany fun _ _ =>
      keeps_steady fun _ _ _ => ⟨trivial, fun _ ha => by cases ha⟩
  rcases hend : effect (m.abandonRebuild b e : TriedM IndexError (Index × Disk) α) s with ⟨e' | a, t⟩
  · exact ⟨e', t, rfl⟩
  · exact ((hfails s trivial).2 a (by rw [hend])).elim

theorem effect_removeRetired (n : Nat) (s : (Index × Disk) × Nat) :
    ∃ t, effect (m.removeRetired n) s = (.ok (), t) := by
  unfold Medium.removeRetired
  rw [effect_tryCatch]
  generalize effect (do reach (m.remove (← steady Index.liveDirectory) n)) s = r
  rcases r with ⟨e | a, t⟩ <;> exact ⟨t, rfl⟩

/-- If the swap fails the rebuild is given up. -/
theorem effect_finishRebuild_error {e : IndexError} {s₀ s : (Index × Disk) × Nat}
    (hfirst : effect (do m.swapIn b.number (← m.applyTo { b.writer with documents := b.documents } [])) s₀ =
      (.error e, s)) :
    ∃ e' t, effect (m.abandonRebuild b e : TriedM IndexError (Index × Disk) (Nat × Nat)) s =
      (.error e', t) ∧ effect (m.finishRebuild b) s₀ = (.error e', t) := by
  obtain ⟨e', t, habandon⟩ := abandonRebuild_fails (m := m) (α := Nat × Nat) b e s
  refine ⟨e', t, habandon, ?_⟩
  unfold Medium.finishRebuild
  refine effect_bind_error ?_ _
  rw [effect_tryCatch, hfirst]
  exact habandon

/-- A swap that fails and disturbs nothing ends a rebuild that disturbs nothing. -/
theorem finishRebuild_undisturbed {e : IndexError} {s₀ s : (Index × Disk) × Nat}
    (hn : b.number ≠ l.directory.current) (hb : b.writer.path = l.directory.generationPath b.number)
    (hfirst : effect (do m.swapIn b.number (← m.applyTo { b.writer with documents := b.documents } [])) s₀ =
      (.error e, s)) (hkept : Standing l w s.1) :
    ∃ e s, effect (m.finishRebuild b) s₀ = (.error e, s) ∧ Standing l w s.1 := by
  obtain ⟨e', t, habandon, hend⟩ := effect_finishRebuild_error hfirst
  have hafter := (keeps_abandonRebuild (m := m) (V := fun _ : Nat × Nat => True) hn hb e s hkept).1
  rw [habandon] at hafter
  exact ⟨e', t, hend, hafter⟩

/-- After a swap the generation before is removed, which the index that serves the new one does not see. -/
theorem finishRebuild_swapped {old count : Nat} {s₀ s : (Index × Disk) × Nat}
    (hold : old ≠ l.directory.current)
    (hfirst : effect (do m.swapIn b.number (← m.applyTo { b.writer with documents := b.documents } [])) s₀ =
      (.ok (old, count), s)) (hkept : Standing l w s.1) :
    ∃ t, effect (m.finishRebuild b) s₀ = (.ok count, t) ∧ Standing l w t.1 := by
  obtain ⟨⟨⟨i', d'⟩, k'⟩, hremove⟩ := effect_removeRetired (m := m) old s
  have hafter := (keeps_removeRetired (m := m) hold s hkept).1
  rw [hremove] at hafter
  refine ⟨(({ i' with statistics := i'.statistics.recordRebuild count }, d'), k'), ?_,
    hafter.congr rfl rfl rfl rfl⟩
  unfold Medium.finishRebuild
  rw [effect_bind_ok (by rw [effect_tryCatch, hfirst] :
    effect (tryCatch _ (m.abandonRebuild b)) s₀ = (.ok (old, count), s))]
  simp only
  rw [effect_bind_ok hremove, effect_bind_ok (effect_steady _ _ _)]
  rfl

/-- **The end of a rebuild on a medium.** If it fails nothing was disturbed, and if it succeeds the index
serves the new generation; only after a failure right after the turn of the pointer the new generation is
found and not served. -/
theorem finishRebuild (hcareful : m.Careful l.directory) (h : Standing l w (i, d))
    (hb : Draft i d l b.number b.writer) (hmax : b.number ≤ Number.maxNat64) (k : Nat) :
    (∃ e s, effect (m.finishRebuild b) ((i, d), k) = (.error e, s) ∧ Standing l w s.1) ∨
    ∃ g s, g.documents = applyChanges i.schema b.documents (i.journal.getD []) ∧
      g.layout = i.schema.layout ∧ s.1.2.Holds { l.directory with current := b.number } g ∧
      ((∃ e k', effect (m.finishRebuild b) ((i, d), k) = (.error e, s) ∧ m.Balks l.directory k') ∨
        ∃ count v', effect (m.finishRebuild b) ((i, d), k) = (.ok count, s) ∧
          Standing ⟨{ l.directory with current := b.number }, g⟩ v' s.1) := by
  have hne : b.number ≠ l.directory.current := hb.above.ne'
  rcases hcommit : effect (m.applyTo { b.writer with documents := b.documents } []) ((i, d), k) with
    ⟨e | v, ⟨⟨i₁, d₁⟩, k₁⟩⟩ <;>
    have hkept := (keeps_applyTo (m := m) hne hb.path (v := { b.writer with documents := b.documents }) []
      ((i, d), k) h).1 <;> rw [hcommit] at hkept
  · exact .inl (finishRebuild_undisturbed hne hb.path (effect_bind_error hcommit _) hkept)
  obtain ⟨rfl, hv, hb₁, -, -⟩ := hb.commitBuilding_ok h.serving.sound
    ((Medium.echoes_applyTo _ [] : Echoes m True _ _).ok trivial hcommit)
  have h₁ : Standing l w (i₁, d₁) := hkept
  have hfirst := effect_bind_ok hcommit fun v => m.swapIn b.number v
  rcases h₁.swapIn (m := m) hb₁ hmax k₁ with ⟨e, s, hswap, hstanding⟩ |
    ⟨g, s, hdocuments, hlayout, hholds, ⟨e, k', hswap, hbalks, hcount⟩ | ⟨count, v', hswap, hstanding⟩⟩
  · exact .inl (finishRebuild_undisturbed hne hb.path (hfirst.trans hswap) hstanding)
  · -- nothing is done any more, so that the new generation is not removed
    obtain ⟨e', t, habandon, hend⟩ := effect_finishRebuild_error (hfirst.trans hswap)
    have hafter := (dead_abandonRebuild (α := Nat × Nat) (hcareful k' hbalks) b e s ⟨rfl, hcount.ge⟩).1
    rw [habandon] at hafter
    exact .inr ⟨g, t, hv ▸ hdocuments, hlayout, hafter.1 ▸ hholds, .inl ⟨e', k', hend, hbalks⟩⟩
  · obtain ⟨t, hend, hafter⟩ := finishRebuild_swapped hne.symm (hfirst.trans hswap) hstanding
    exact .inr ⟨g, t, hv ▸ hdocuments, hlayout, hafter.holds hmax, .inr ⟨count, v', hend, hafter⟩⟩

end Standing

end Index

/-! ### A rebuild from a store -/

section

variable {α : Type} [Indexed α]

/-- All pages of the store come, and all entities on them can be encoded, as these documents. -/
def Source.Yields (source : Source α) (s : Schema) (size : Nat) (ds : List Document) : Prop :=
  ∃ pages : List (List α), source.pages size = .ok (pages.map .ok) ∧
    pages.flatten.mapM (Document.encode s) = .ok ds

/-- Counting the entities of the store only tells whether it can be read. -/
theorem Medium.effect_rebuildFrom {m : Medium} (source : Source α) (s : (Index × Disk) × Nat) :
    effect (m.rebuildFrom source) s = match source.count.mapError IndexError.storage with
      | .error e => (.error e, s)
      | .ok _ => effect (m.rebuild (Medium.fillFrom source)) s := by
  unfold Medium.rebuildFrom
  cases source.count.mapError IndexError.storage <;> rfl

namespace Index

variable {i : Index} {d : Disk} {l : Live} {m : Medium}

/-- Reading pages changes nothing. If all come, the documents of all entities on them are added. -/
theorem effect_addPages_outcome (s : Index × Disk) : ∀ (pages : List (Except StoreError (List α)))
    (b : Building), (∃ e, effect (addPages b pages) s = (.error e, s)) ∨
      ∃ (all : List (List α)) (ds : List Document), pages = all.map .ok ∧
        all.flatten.mapM (Document.encode s.1.schema) = .ok ds ∧
        effect (addPages b pages) s = (.ok (b.add ds), s)
  | [], b => .inr ⟨[], [], rfl, rfl, by simp [addPages, Building.add]⟩
  | .error e :: pages, b => .inl ⟨_, effect_addPages_error b e pages s⟩
  | .ok as :: pages, b => by
    rw [effect_addPages]
    cases has : as.mapM (Document.encode s.1.schema) with
    | error e => exact .inl ⟨e, rfl⟩
    | ok ds =>
      rcases effect_addPages_outcome s pages (b.add ds) with hfail | ⟨all, more, rfl, hmore, hadd⟩
      · exact .inl hfail
      · refine .inr ⟨as :: all, ds ++ more, rfl, ?_, ?_⟩
        · rw [List.flatten_cons, List.mapM_append, has, hmore]
          rfl
        · have hsame : (b.add ds).add more = b.add (ds ++ more) := by simp [Building.add]
          exact hsame ▸ hadd

theorem effect_fillFrom (source : Source α) (b : Building) :
    (∃ e, effect (Medium.fillFrom source b) (i, d) = (.error e, (i, d))) ∨
      ∃ ds, source.Yields i.schema i.config.rebuildPageSize ds ∧
        effect (Medium.fillFrom source b) (i, d) = (.ok (b.add ds), (i, d)) := by
  unfold Medium.fillFrom
  rw [effect_bind_ok (effect_current i d)]
  cases hpages : source.pages i.config.rebuildPageSize with
  | error e => exact .inl ⟨_, rfl⟩
  | ok pages =>
    have hread : effect (liftM ((Except.ok pages : Except StoreError _).mapError IndexError.storage) :
        IndexM (List (Except StoreError (List α)))) (i, d) = (.ok pages, (i, d)) := effect_lift _ _
    rw [effect_bind_ok hread]
    rcases effect_addPages_outcome (i, d) pages b with hfail | ⟨all, ds, rfl, hds, hadd⟩
    · exact .inl hfail
    · exact .inr ⟨ds, ⟨all, hpages, hds⟩, hadd⟩

/-- What began on a medium is an empty draft of the next generation, beside the one that is served. -/
theorem Kept.beginRebuild_ok {w : Writer} {b : Building} {i' : Index} {d' : Disk} {k k' : Nat}
    (h : Kept i d l) (hready : i.isReady = true) (hmax : l.directory.current < Number.maxNat64)
    (hs : Standing l w (i, d)) (hbegin : effect m.beginRebuild ((i, d), k) = (.ok b, ((i', d'), k'))) :
    i' = { i with journal := some [] } ∧ b.documents = [] ∧ b.number = l.directory.current + 1 ∧
      Draft { i with journal := some [] } d' l b.number b.writer ∧
      Standing l w ({ i with journal := some [] }, d') := by
  have hkept := (Standing.keeps_beginRebuild (m := m) ((i, d), k) hs).1
  rw [hbegin] at hkept
  have hbegun := (Medium.echoes_beginRebuild : Echoes m True _ _).ok trivial hbegin
  obtain ⟨rfl, hempty, -, hdraft⟩ := hs.serving.beginRebuild_ok hbegun
  obtain ⟨d₁, hexplicit, -⟩ := h.effect_beginRebuild hready hmax
  have hnumber : b.number = l.directory.current + 1 := by
    rw [Except.ok.inj (Prod.mk.inj (hbegun.symm.trans hexplicit)).1]
  exact ⟨rfl, hempty, hnumber, hdraft, hkept⟩

/-- **A rebuild on a medium.** Unless the pointer was turned nothing was disturbed. After that the disk holds
all documents of the store in the next generation, and the index serves them, unless the rebuild failed
right after the turn. -/
theorem Kept.rebuildFrom_outcome (h : Kept i d l) (hready : i.isReady = true)
    (hmax : l.directory.current < Number.maxNat64) (hcareful : m.Careful l.directory)
    (source : Source α) (k : Nat) :
    (∃ e w s, effect (m.rebuildFrom source) ((i, d), k) = (.error e, s) ∧ Standing l w s.1) ∨
    ∃ g s, source.Yields i.schema i.config.rebuildPageSize g.documents ∧ g.layout = i.schema.layout ∧
      s.1.2.Holds { l.directory with current := l.directory.current + 1 } g ∧
      ((∃ e k', effect (m.rebuildFrom source) ((i, d), k) = (.error e, s) ∧ m.Balks l.directory k') ∨
        ∃ n w, effect (m.rebuildFrom source) ((i, d), k) = (.ok n, s) ∧
          Standing ⟨{ l.directory with current := l.directory.current + 1 }, g⟩ w s.1) := by
  obtain ⟨w, hs⟩ := h.serving hready
  have hstanding : Standing l w (i, d) := ⟨hs, h.tidy, h.valid, h.heap⟩
  rw [Medium.effect_rebuildFrom]
  cases source.count.mapError IndexError.storage with
  | error e => exact .inl ⟨e, w, _, rfl, hstanding⟩
  | ok count =>
    simp only
    unfold Medium.rebuild
    rcases hbegin : effect m.beginRebuild ((i, d), k) with ⟨e | b, ⟨⟨i₁, d₁⟩, k₁⟩⟩
    · have hkept := (Standing.keeps_beginRebuild (m := m) ((i, d), k) hstanding).1
      rw [hbegin] at hkept
      exact .inl ⟨e, w, _, effect_bind_error hbegin _, hkept⟩
    obtain ⟨rfl, hempty, hnumber, hdraft, h₁⟩ := h.beginRebuild_ok hready hmax hstanding hbegin
    rw [effect_bind_ok hbegin, effect_bind, effect_tryCatch, effect_steady]
    rcases effect_fillFrom source (i := { i with journal := some [] }) (d := d₁) b with
      ⟨e, hfill⟩ | ⟨ds, hyields, hfill⟩ <;> simp only [hfill]
    · obtain ⟨e', t, habandon⟩ := Standing.abandonRebuild_fails (m := m) (α := Building) b e
        (({ i with journal := some [] }, d₁), k₁)
      have hafter := (Standing.keeps_abandonRebuild (m := m) (V := fun _ : Building => True)
        hdraft.above.ne' hdraft.path e (({ i with journal := some [] }, d₁), k₁) h₁).1
      rw [habandon] at hafter
      simp only [habandon]
      exact .inl ⟨e', w, t, rfl, hafter⟩
    · have hadded : (b.add ds).documents = ds := by simp [Building.add, hempty]
      rcases h₁.finishRebuild hcareful (b := b.add ds) hdraft (hnumber ▸ hmax) k₁ with
        ⟨e, s, hend, hafter⟩ | ⟨g, s, hdocuments, hlayout, hholds, hend⟩
      · exact .inl ⟨e, w, s, hend, hafter⟩
      · have hall : g.documents = ds := by rw [hdocuments, hadded]; rfl
        have hnext : (b.add ds).number = l.directory.current + 1 := hnumber
        rw [hnext] at hholds hend
        exact .inr ⟨g, s, hall ▸ hyields, hlayout, hholds, hend⟩

end Index

end

end Codebook
