/-
# Opening what is open

Somebody opens an index whose directory is in use already. The writer holds the lock of the live
generation, so the second one is refused; but the directory is brought into order before the lock is
tried. So the second one does no harm only if there was nothing to bring into order: no generation
beside the live one, as there is while a rebuild fills the next one, and no content to make anew
under other fields of the engine, unless a look for left-over locks finds the lock first.

Key definitions: `Index.Refused`.
Key theorems: `Index.Serving.effect_open`, `IndexDirectory.sweep_removes`, `Index.Serving.refused_iff`,
`EntityKind.open_beside_iff`.
-/
import Codebook.Proofs.Rebuild

namespace Codebook

/-! ### Bringing the directory into order -/

namespace IndexDirectory

variable {d d' : Disk} {dir : IndexDirectory} {path : Path} {n : Nat}

theorem effect_makeDirectory (hd : d.Sound) (hp : d.isDirectory path = true) :
    effect (perform IndexError.io [.makeDirectory path]) d = (.ok (), d) := by
  rw [effect_perform_one, DiskStep.run, hd.makeDirectories_self hp]

theorem effect_presentDisk (hp : d.isDirectory dir.path = true) :
    effect dir.presentDisk d = (.ok d, d) := by
  unfold presentDisk
  rw [effect_bind_ok (effect_get d), if_pos hp]
  rfl

/-- The directory of an index that is there is opened without any change. -/
theorem effect_open_present {root : Path} {name : String} (hd : d.Sound)
    (hpath : dir.path = root ++ [name]) (hname : dir.name = name) (hpoints : dir.Points d)
    (hroot : d.isDirectory dir.path = true) (hcurrent : d.isDirectory dir.currentPath = true)
    (hmax : dir.current ≤ Number.maxNat64) :
    effect (IndexDirectory.open root name) d = (.ok dir, d) := by
  obtain ⟨n, hn, hread⟩ := hpoints
  obtain ⟨path, name', current⟩ := dir
  simp only [currentPath, generationPath] at hpath hname hread hroot hcurrent hmax
  subst hpath hname
  have hfind : effect (findCurrent (root ++ [name']) name') d = (.ok current, d) := by
    unfold findCurrent
    rw [effect_bind_ok (effect_get d), hread hmax]
    rfl
  unfold IndexDirectory.open
  rw [effect_bind_ok (effect_makeDirectory hd hroot), effect_bind_ok hfind]
  exact effect_bind_ok (effect_makeDirectory hd hcurrent) _

/-- Without generations beside the live one there is nothing to remove. -/
theorem effect_sweep (hp : d.isDirectory dir.path = true) (h : dir.orphans d = []) :
    effect dir.sweep d = (.ok 0, d) := by
  unfold sweep sweepSteps
  rw [effect_bind_ok (effect_presentDisk hp), h]
  rfl

/-- What is found after removals was there before. -/
theorem node?_of_removals {q : Path} {m : Node} : ∀ {ns : List Nat} {d : Disk},
    (d.runAll (ns.map fun n => .removeDirectory (dir.generationPath n))).2.node? q = some m →
      d.node? q = some m
  | [], _, h => h
  | n :: ns, d, h => by
    simp only [List.map_cons, Disk.runAll, DiskStep.run] at h
    split_ifs at h
    · have herased := node?_of_removals h
      rw [Disk.node?_erase] at herased
      split_ifs at herased with hq
      · rw [hq, Disk.node?_nil, herased]
      · exact herased
    · exact h

theorem sweep_error {e : IndexError} (h : effect dir.sweep d = (.error e, d')) : e = .io := by
  unfold sweep at h
  rcases bind_error h with hpresent | ⟨disk, d₁, -, hrest⟩
  · unfold presentDisk at hpresent
    rw [effect_bind_ok (effect_get d)] at hpresent
    split_ifs at hpresent
    · simp at hpresent
    · exact (Except.error.inj (Prod.mk.inj hpresent).1).symm
  · rcases bind_error hrest with hperform | ⟨_, _, -, hpure⟩
    · exact perform_error hperform
    · simp at hpure

/-- Removals make nothing. -/
theorem removals_make_nothing (dir : IndexDirectory) (ns : List Nat) {q : Path} :
    ∀ step ∈ ns.map (fun n => DiskStep.removeDirectory (dir.generationPath n)) ++ [.sync dir.path],
      ¬ step.makes q := by
  intro step hstep
  rcases List.mem_append.mp hstep with hstep | hstep
  · obtain ⟨n, -, rfl⟩ := List.mem_map.mp hstep
    exact id
  · rw [List.mem_singleton.mp hstep]
    exact id

/-- A sweep that is done to its end removes all generations that are not live. -/
theorem sweep_removes (h : effect dir.sweep d = (.ok n, d')) {k : Nat} (hk : k ∈ dir.orphans d) :
    d.isDirectory (dir.generationPath k) = true ∧ d'.node? (dir.generationPath k) = none := by
  obtain ⟨before, after, horphans⟩ := List.append_of_mem hk
  have hsteps : dir.sweepSteps d =
      before.map (fun n => .removeDirectory (dir.generationPath n)) ++
        .removeDirectory (dir.generationPath k) ::
          (after.map (fun n => .removeDirectory (dir.generationPath n)) ++ [.sync dir.path]) := by
    simp [sweepSteps, horphans]
  have hrun := runAll_sweep h
  rw [hsteps, Disk.runAll_append] at hrun
  split_ifs at hrun with hbefore
  · obtain ⟨d₃, hremove, hrest⟩ := Disk.runAll_cons_ok hrun
    simp only [DiskStep.run] at hremove
    split_ifs at hremove with hdirectory
    have hgone : d₃.node? (dir.generationPath k) = none := by
      rw [← Option.some.inj hremove, Disk.node?_erase, if_neg (by simp [generationPath]),
        if_pos (List.prefix_refl _)]
    constructor
    · exact decide_eq_true (node?_of_removals (of_decide_eq_true hdirectory))
    · have hlast := Disk.node?_runAll_none hgone (removals_make_nothing dir after)
      rwa [hrest] at hlast
  · exact absurd (congrArg Prod.fst hrun) hbefore

/-- A lock that somebody holds is found. -/
theorem effect_clearStaleLock_held {bytes : List UInt8} {holder : Nat}
    (h : d.node? (path ++ [lockName]) = some (.file bytes (some holder))) :
    ∃ message, effect (dir.clearStaleLock path) d = (.error (.writeConflict dir.name message), d) := by
  unfold clearStaleLock
  rw [effect_bind_ok (effect_get d), h]
  exact ⟨_, rfl⟩

end IndexDirectory

namespace Index

open IndexDirectory

variable {i j : Index} {d d' : Disk} {l : Live} {w : Writer} {path : Path}

/-- The index is refused because somebody else writes it, and everything stays as it was. -/
def Refused (j : Index) (d : Disk) : Prop :=
  ∃ message, effect Index.open (j, d) = (.error (.writeConflict j.name message), (j, d))

/-- What an opening does once the directory is in order. -/
def takeOver (i : Index) (dir : IndexDirectory) : IndexM Unit := do
  let content ← onDisk (openOrCreate i dir.currentPath)
  let writer ← onDisk (createWriter i dir.currentPath content.documents)
  update fun i => { i with writer := some writer, live := some ⟨dir, content⟩ }

/-- The same, with a look for a lock that was left over. -/
def claim (i : Index) (dir : IndexDirectory) : IndexM Unit := do
  if i.config.clearStaleLocks then
    let _ ← onDisk (dir.clearStaleLock dir.currentPath)
  takeOver i dir

theorem validate_error {c : Config} {e : IndexError} (h : c.validate = .error e) :
    ∃ subject reason, e = .configuration subject reason := by
  unfold Config.validate at h
  simp only at h
  split_ifs at h <;> exact ⟨_, _, (Except.error.inj h).symm⟩

theorem effect_createWriter_held {bytes : List UInt8} {holder : Nat}
    (h : d.node? (path ++ [lockName]) = some (.file bytes (some holder))) (documents : List Document) :
    ∃ message, effect (createWriter j path documents) d =
      (.error (.writeConflict j.name message), d) := by
  unfold createWriter
  refine ⟨"the writer lock is held", ?_⟩
  rw [effect_bind_ok (effect_get d)]
  refine effect_bind_error ?_ _
  rw [effect_perform_one, DiskStep.run, h]

theorem effect_openOrCreate_same {g : Generation}
    (hcontent : d.node? (path ++ [contentName]) = some (.generation g))
    (hlayout : g.layout = j.schema.layout) : effect (openOrCreate j path) d = (.ok g, d) := by
  unfold openOrCreate
  rw [effect_bind_ok (effect_get d), if_pos (by simp [Disk.contains, hcontent]),
    effect_bind_ok (effect_readContent _ d hcontent), if_pos hlayout]
  rfl

theorem effect_openOrCreate_other {g : Generation}
    (hcontent : d.node? (path ++ [contentName]) = some (.generation g))
    (hlayout : g.layout ≠ j.schema.layout) : effect (openOrCreate j path) d = effect (do
      perform IndexError.io [.removeDirectory path, .makeDirectory path]
      createContent j path) d := by
  unfold openOrCreate
  rw [effect_bind_ok (effect_get d), if_pos (by simp [Disk.contains, hcontent]),
    effect_bind_ok (effect_readContent _ d hcontent), if_neg hlayout]

/-- Under the same fields of the engine the lock is tried and found. -/
theorem effect_takeOver_same {g : Generation} {bytes : List UInt8} {holder : Nat} {dir : IndexDirectory}
    (hcontent : d.node? (dir.currentPath ++ [contentName]) = some (.generation g))
    (hlock : d.node? (dir.currentPath ++ [lockName]) = some (.file bytes (some holder)))
    (hlayout : g.layout = j.schema.layout) :
    ∃ message, effect (takeOver j dir) (j, d) = (.error (.writeConflict j.name message), (j, d)) := by
  obtain ⟨message, hwriter⟩ := effect_createWriter_held hlock g.documents
  refine ⟨message, ?_⟩
  unfold takeOver
  rw [effect_bind, effect_onDisk, effect_openOrCreate_same hcontent hlayout]
  simp only
  rw [effect_bind, effect_onDisk, hwriter]

theorem createWriter_free {documents : List Document} {name message : String}
    (hp : d.isDirectory path = true) (hlock : d.node? (path ++ [lockName]) = none) :
    effect (createWriter j path documents) d ≠ (.error (.writeConflict name message), d') := by
  intro h
  obtain ⟨d₁, hplace⟩ : ∃ d₁, DiskStep.place d (path ++ [lockName]) (.file [] (some d.holders)) =
      some d₁ :=
    ⟨_, Disk.place_of_directory (by simpa [Path.parent] using hp) (by simp [Disk.isDirectory, hlock])⟩
  have hrun : effect (perform (IndexError.writeConflict j.name "the writer lock is held")
      [.lock (path ++ [lockName]) d.holders]) d = (.ok (), d₁) := by
    rw [effect_perform_one, DiskStep.run, hlock]
    simp only [hplace]
  unfold createWriter at h
  rw [effect_bind_ok (effect_get d), effect_bind_ok hrun, effect_bind_ok (effect_modify _ _)] at h
  split_ifs at h
  · rcases bind_error h with hunlock | ⟨_, _, -, hthrow⟩
    · simpa using perform_error hunlock
    · simp at hthrow
  · simp at h

/-- Content that was made anew has no lock beside it. -/
theorem openOrCreate_other_ok {g g' : Generation}
    (hcontent : d.node? (path ++ [contentName]) = some (.generation g))
    (hlayout : g.layout ≠ j.schema.layout) (h : effect (openOrCreate j path) d = (.ok g', d')) :
    d'.isDirectory path = true ∧ d'.node? (path ++ [lockName]) = none := by
  rw [effect_openOrCreate_other hcontent hlayout] at h
  obtain ⟨_, d₂, hremake, hcreate⟩ := bind_ok h
  obtain ⟨d₃, hremove, hlast⟩ := Disk.runAll_cons_ok (perform_ok hremake)
  obtain ⟨d₄, hmake, hend⟩ := Disk.runAll_cons_ok hlast
  obtain rfl : d₄ = d₂ := by simpa [Disk.runAll] using hend
  have hmade := (Disk.makeDirectories_some hmake).1
  obtain ⟨-, -, -, hkeep⟩ := createContent_ok hcreate
  constructor
  · rw [Disk.isDirectory, hkeep _ (by simp), hmade, if_pos (List.prefix_refl _)]
    rfl
  · have hbelow : ¬ path ++ [lockName] <+: path := fun hpre => by simpa using hpre.length_le
    simp only [DiskStep.run] at hremove
    split_ifs at hremove
    rw [hkeep _ (file_ne contentName_ne_lockName _), hmade, if_neg hbelow,
      ← Option.some.inj hremove, Disk.node?_erase, if_neg (by simp), if_pos (List.prefix_append _ _)]

theorem openOrCreate_other_error {g : Generation} {name message : String}
    (hcontent : d.node? (path ++ [contentName]) = some (.generation g))
    (hlayout : g.layout ≠ j.schema.layout) :
    effect (openOrCreate j path) d ≠ (.error (.writeConflict name message), d') := by
  intro h
  rw [effect_openOrCreate_other hcontent hlayout] at h
  rcases bind_error h with hremake | ⟨_, _, -, hcreate⟩
  · simpa using perform_error hremake
  · rcases bind_error hcreate with hpublish | ⟨_, _, -, hpure⟩
    · simpa using perform_error hpublish
    · simp at hpure

/-- Under other fields of the engine the content is made anew, and with it the lock is gone. -/
theorem takeOver_other {g : Generation} {dir : IndexDirectory} {name message : String}
    {s : Index × Disk} (hcontent : d.node? (dir.currentPath ++ [contentName]) = some (.generation g))
    (hlayout : g.layout ≠ j.schema.layout) :
    effect (takeOver j dir) (j, d) ≠ (.error (.writeConflict name message), s) := by
  intro h
  obtain ⟨i', d'⟩ := s
  unfold takeOver at h
  rcases bind_error h with hopen | ⟨g', ⟨i₁, d₁⟩, hopen, hrest⟩
  · exact openOrCreate_other_error hcontent hlayout (onDisk_run hopen).2
  · obtain ⟨rfl, hopened⟩ := onDisk_run hopen
    obtain ⟨hdirectory, hfree⟩ := openOrCreate_other_ok hcontent hlayout hopened
    rcases bind_error hrest with hwriter | ⟨_, ⟨_, _⟩, -, hupdate⟩
    · exact createWriter_free hdirectory hfree (onDisk_run hwriter).2
    · simp at hupdate

/-! ### The second one -/

theorem Serving.effect_openDirectory (h : Serving i d l w)
    (hmax : l.directory.current ≤ Number.maxNat64) :
    effect (IndexDirectory.open i.config.root i.name) d = (.ok l.directory, d) :=
  effect_open_present h.sound h.root h.name h.pointer h.isDirectory_root (h.path ▸ h.isDirectory) hmax

/-- Beside an open index, an opening finds the directory as that one knows it. -/
theorem Serving.effect_open (h : Serving i d l w) (hmax : l.directory.current ≤ Number.maxNat64)
    (hclosed : j.isReady = false) (hroot : j.config.root = i.config.root) (hname : j.name = i.name)
    (hvalid : j.config.validate = .ok ()) :
    effect Index.open (j, d) = effect (do
      let _ ← onDisk l.directory.sweep
      claim j l.directory) (j, d) := by
  have hsettings : effect (liftM j.config.validate : IndexM Unit) (j, d) = (.ok (), (j, d)) := by
    rw [effect_lift, hvalid]
  have hdirectory : effect (onDisk (IndexDirectory.open j.config.root j.name)) (j, d) =
      (.ok l.directory, (j, d)) := by
    rw [effect_onDisk, hroot, hname, h.effect_openDirectory hmax]
  unfold Index.open
  rw [effect_bind_ok (effect_current j d), hclosed]
  simp only [Bool.false_eq_true, if_false]
  rw [effect_bind_ok hsettings, effect_bind_ok hdirectory]
  rfl

/-- The lock is found if there is a look for left-over locks, or if the content stays. -/
theorem Serving.effect_claim (h : Serving i d l w) (hname : j.name = i.name)
    (hsafe : j.config.clearStaleLocks = true ∨ j.schema.layout = i.schema.layout) :
    ∃ message, effect (claim j l.directory) (j, d) =
      (.error (.writeConflict j.name message), (j, d)) := by
  obtain ⟨bytes, hlock⟩ := h.lock
  have hcontent := h.content
  rw [h.path] at hlock hcontent
  unfold claim
  by_cases hclear : j.config.clearStaleLocks = true
  · obtain ⟨message, heffect⟩ := effect_clearStaleLock_held hlock
    refine ⟨message, ?_⟩
    rw [if_pos hclear, effect_bind, effect_onDisk, heffect, h.name, hname]
  · rw [if_neg hclear]
    exact effect_takeOver_same hcontent hlock (h.layout.trans (hsafe.resolve_left hclear).symm)

/-- Otherwise the lock is gone with the content before it is tried. -/
theorem Serving.claim_lost (h : Serving i d l w) {name message : String} {s : Index × Disk}
    (hlost : ¬ (j.config.clearStaleLocks = true ∨ j.schema.layout = i.schema.layout)) :
    effect (claim j l.directory) (j, d) ≠ (.error (.writeConflict name message), s) := by
  simp only [not_or] at hlost
  have hcontent := h.content
  rw [h.path] at hcontent
  unfold claim
  rw [if_neg hlost.1]
  exact takeOver_other hcontent fun hsame => hlost.2 (hsame.symm.trans h.layout)

/-- A sweep leaves an open index open. -/
theorem Serving.sweep (h : Serving i d l w) {n : Nat} (hs : effect l.directory.sweep d = (.ok n, d')) :
    Serving i d' l w := by
  obtain ⟨hsound, hkeep⟩ := IndexDirectory.sweep_ok hs
  exact h.keep (hsound h.sound) fun q m hq => hkeep q m fun k hk => h.not_prefix hk hq

/-- **When a second opening does no harm.** Beside an open index, another one is refused and leaves
everything as it was if and only if its settings are valid, there is no generation beside the live
one, and it looks for left-over locks or has the same fields of the engine. -/
theorem Serving.refused_iff (h : Serving i d l w) (hmax : l.directory.current ≤ Number.maxNat64)
    (hclosed : j.isReady = false) (hroot : j.config.root = i.config.root) (hname : j.name = i.name) :
    Refused j d ↔ j.config.validate = .ok () ∧ l.directory.orphans d = [] ∧
      (j.config.clearStaleLocks = true ∨ j.schema.layout = i.schema.layout) := by
  constructor
  · rintro ⟨message, hrefused⟩
    have hvalid : j.config.validate = .ok () := by
      cases hv : j.config.validate with
      | ok _ => rfl
      | error e =>
        obtain ⟨subject, reason, rfl⟩ := validate_error hv
        unfold Index.open at hrefused
        rw [effect_bind_ok (effect_current j d), hclosed] at hrefused
        simp [effect_bind, hv] at hrefused
    rw [h.effect_open hmax hclosed hroot hname hvalid] at hrefused
    -- the lock was found on the disk after the sweep, which is the disk as it was before
    rcases bind_error hrefused with hsweep | ⟨n, ⟨j', d'⟩, hsweep, hclaim⟩
    · simpa using sweep_error (onDisk_run hsweep).2
    obtain ⟨rfl, hswept⟩ := onDisk_run hsweep
    have hsafe : j'.config.clearStaleLocks = true ∨ j'.schema.layout = i.schema.layout := by
      by_contra hlost
      exact (h.sweep hswept).claim_lost hlost hclaim
    obtain ⟨message', hclaim'⟩ := (h.sweep hswept).effect_claim hname hsafe
    rw [hclaim', Prod.mk.injEq, Prod.mk.injEq] at hclaim
    obtain ⟨-, -, rfl⟩ := hclaim
    refine ⟨hvalid, ?_, hsafe⟩
    by_contra horphans
    obtain ⟨k, hk⟩ := List.exists_mem_of_ne_nil _ horphans
    obtain ⟨hbefore, hafter⟩ := sweep_removes hswept hk
    simp [Disk.isDirectory, hafter] at hbefore
  · rintro ⟨hvalid, horphans, hsafe⟩
    obtain ⟨message, hclaim⟩ := h.effect_claim hname hsafe
    refine ⟨message, ?_⟩
    rw [h.effect_open hmax hclosed hroot hname hvalid, effect_bind, effect_onDisk,
      IndexDirectory.effect_sweep h.isDirectory_root horphans]
    exact hclaim

end Index

/-! ### While the next generation is made -/

/-- The number of the generation that a rebuild is filling. -/
def Stage.filling? {α : Type} : Stage α → Option Nat
  | empty b | filling b _ => some b.number
  | filled n _ => some n
  | _ => none

theorem Race.Holds.draft {α : Type} [Indexed α] {r : Race α} {l : Live} {w : Writer}
    {first? : String → Option α} {journaled : List (Edit α)} (h : r.Holds l w first? journaled) {n : Nat}
    (hn : r.stage.filling? = some n) : ∃ v, Index.Draft r.index r.disk l n v := by
  have hbeside := h.beside
  cases hstage : r.stage with
  | empty b =>
    obtain rfl : b.number = n := by simpa [hstage, Stage.filling?] using hn
    rw [hstage] at hbeside
    exact ⟨_, hbeside.1⟩
  | filling b pages =>
    obtain rfl : b.number = n := by simpa [hstage, Stage.filling?] using hn
    rw [hstage] at hbeside
    exact ⟨_, hbeside⟩
  | filled m v =>
    obtain rfl : m = n := by simpa [hstage, Stage.filling?] using hn
    rw [hstage] at hbeside
    exact ⟨v, hbeside⟩
  | _ => simp [hstage, Stage.filling?] at hn

/-- **When a second opening does no harm.** At any moment of a rebuild among transactions, somebody
else who opens the index is refused, with everything as it was, if and only if the settings are valid,
there is no generation beside the live one, and left-over locks are looked for or the fields of the
engine are the same. While a rebuild fills a generation it is never so. -/
theorem EntityKind.open_beside_iff {k : EntityKind} {r₀ r : Race k.Entity} (h₀ : r₀.Ready)
    (hrun : Race.Run r₀ r) {l : Live} (hl : r.index.live = some l)
    (hmax : l.directory.current ≤ Number.maxNat64) {j : Index} (hclosed : j.isReady = false)
    (hroot : j.config.root = r.index.config.root) (hname : j.name = r.index.name) :
    (j.Refused r.disk ↔ j.config.validate = .ok () ∧ l.directory.orphans r.disk = [] ∧
      (j.config.clearStaleLocks = true ∨ j.schema.layout = r.index.schema.layout)) ∧
    ∀ n, r.stage.filling? = some n → n ≤ Number.maxNat64 → ¬ j.Refused r.disk := by
  obtain ⟨l', w, first?, journaled, hr⟩ := ((h₀.sound k.consistent).run hrun).holds
  obtain rfl : l' = l := Option.some.inj (hr.serving.live.symm.trans hl)
  have hiff := hr.serving.refused_iff hmax hclosed hroot hname
  refine ⟨hiff, fun n hn hnmax hrefused => ?_⟩
  obtain ⟨v, hdraft⟩ := hr.draft hn
  have horphan := hdraft.mem_orphans hr.serving.sound hnmax
  simp [(hiff.mp hrefused).2.1] at horphan

/-- A transaction that is not committed yet, and then a rebuild beside it. -/
def Race.openMoves : List (Race.Move Record) :=
  [.write 1 (.put (.of "a" "x")), .begin 1, .proceed, .proceed, .proceed]

theorem EntityKind.open_beside_iff_of_records :
    ∃ r r' : Race Record, ∃ j : Index, Race.Run Race.records r ∧ r.holder = some 1 ∧
      j.Refused r.disk ∧ Race.Run Race.records r' ∧ r'.stage.filling? = some 2 ∧
      ¬ j.Refused r'.disk := by
  obtain ⟨r, hplay, hholder, hlive, hroot, hname, horphans⟩ :
      ∃ r, Race.records.play (Race.openMoves.take 2) = some r ∧ r.holder = some 1 ∧
        r.index.live = some ⟨⟨["index", "Record"], "Record", 1⟩, ⟨Record.schema.layout, []⟩⟩ ∧
        ["index"] = r.index.config.root ∧ "Record" = r.index.name ∧
        IndexDirectory.orphans ⟨["index", "Record"], "Record", 1⟩ r.disk = [] :=
    ⟨_, rfl, rfl, rfl, rfl, rfl, rfl⟩
  obtain ⟨r', hplay', hfilling, hlive', hroot', hname'⟩ :
      ∃ r, Race.records.play Race.openMoves = some r ∧ r.stage.filling? = some 2 ∧
        r.index.live = some ⟨⟨["index", "Record"], "Record", 1⟩, ⟨Record.schema.layout, []⟩⟩ ∧
        ["index"] = r.index.config.root ∧ "Record" = r.index.name :=
    ⟨_, rfl, rfl, rfl, rfl, rfl⟩
  have hrun := Race.run_of_play hplay
  have hrun' := Race.run_of_play hplay'
  have hbefore := EntityKind.open_beside_iff (k := .record) (j := { schema := Record.schema })
    Race.ready_records hrun hlive (by decide) rfl hroot hname
  have hafter := EntityKind.open_beside_iff (k := .record) (j := { schema := Record.schema })
    Race.ready_records hrun' hlive' (by decide) rfl hroot' hname'
  exact ⟨r, r', { schema := Record.schema }, hrun, hholder, hbefore.1.mpr ⟨rfl, horphans, .inl rfl⟩,
    hrun', hfilling, hafter.2 2 hfilling (by decide)⟩

end Codebook
