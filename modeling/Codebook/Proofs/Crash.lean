/-
# A process that stops

A process may stop after any step of what it does to the disk, also in the middle of one. Then whoever
held a lock has let it go, and all that is left of the index is what lies on the disk. The next opening
serves either the documents from before or all that a rebuild read from its store, never a part of them;
and it may itself stop anywhere, any number of times, before one comes to its end.

Key definitions: `Medium.StopsAt`, `Medium.stopping`, `Disk.Fresh`, `Index.reopened`, `Index.Served`.
Key theorems: `Medium.StopsAt.careful`, `Disk.Rests.served`, `Index.served_after_stop`.
-/
import Codebook.Proofs.Swapping

namespace Codebook

open IndexDirectory

/-! ### Media on which the process stops -/

namespace Medium

/-- The process stops at a step. All steps before it are done that can be done, it may be done in part,
and none is done after it. -/
structure StopsAt (m : Medium) (k : Nat) : Prop where
  before : ∀ n, n < k → m.Sure n
  after : m.Dead (k + 1)

/-- The process stops before a step. -/
def stopping (k : Nat) : Medium where
  run n d step := if n < k then sound.run n d step else (false, d)
  done h := by
    split_ifs at h
    · exact sound.done h
    · simp at h
  torn h := by
    split_ifs at h
    · exact sound.torn h
    · exact (Prod.mk.inj h).2 ▸ .untouched _ _

variable {m : Medium} {k : Nat}

theorem stopping_after {n : Nat} (hn : k ≤ n) (d : Disk) (step : DiskStep) :
    (stopping k).run n d step = (false, d) := if_neg (Nat.not_lt.mpr hn)

theorem stopsAt_stopping (k : Nat) : (stopping k).StopsAt k where
  before n hn d step := (if_pos hn).trans (sure_sound n d step)
  after _ hn := stopping_after ((Nat.le_succ k).trans hn)

/-- What comes right after the turn of the pointer does not fail before the process stops. -/
theorem StopsAt.careful (h : m.StopsAt k) (dir : IndexDirectory) : m.Careful dir := by
  rintro n ⟨d, step, hturned, hstep, hfail⟩
  by_cases hn : n < k
  · obtain ⟨d', hrun⟩ : ∃ d', step.run d = some d' := by
      rcases hstep with rfl | ⟨path, holder, rfl⟩
      · have hroot := of_decide_eq_true hturned.isDirectory_root
        exact ⟨d, by simp [DiskStep.run, Disk.contains, hroot]⟩
      · obtain ⟨d', hunlock, -⟩ := hturned.sound.unlock path holder
        exact ⟨d', hunlock⟩
    rw [h.before n hn, hrun] at hfail
    simp at hfail
  · exact fun j hj => h.after j (by omega)

end Medium

/-! ### A fresh directory -/

/-- Nothing lies below a path, nothing but directories on the way to it. -/
structure Disk.Fresh (d : Disk) (path : Path) : Prop where
  sound : d.Sound
  counted : d.Counted
  way : ∀ q n, q <+: path → d.node? q = some n → n = .directory
  empty : ∀ q, path <+: q → q ≠ path → d.node? q = none

theorem Disk.fresh_empty (path : Path) : Disk.Fresh {} path where
  sound := sound_empty
  counted := counted_empty
  way q n _ hn := by
    unfold node? at hn
    split_ifs at hn
    · exact (Option.some.inj hn).symm
    · simp at hn
  empty q hq hne := by
    have hnil : q ≠ [] := fun he => hne (by rw [he] at hq ⊢; exact (List.prefix_nil.mp hq).symm)
    simp [node?, hnil]

/-- A fresh directory holds a first generation without documents. -/
theorem Disk.Fresh.rests {d : Disk} {path : Path} (h : d.Fresh path) (name : String) {g : Generation}
    (hg : g.documents = []) : d.Rests ⟨path, name, 1⟩ g := by
  have hchild : ∀ x, d.node? (path ++ [x]) = none := fun x =>
    h.empty _ (List.prefix_append _ _) (by simp)
  have hfile : ∀ x, d.node? (path ++ [generationName 1] ++ [x]) = none := fun x =>
    h.empty _ (by simp) (by simp)
  exact {
    sound := h.sound
    tidy := fun name k n _ hn => by simp [hchild] at hn
    way := h.way
    countable := show 1 ≤ Number.maxNat64 by decide
    content := .inr ⟨hg, hfile _⟩
    lock := fun n hn => absurd hn (by rw [currentPath, generationPath, hfile]; simp)
    pointer := .inr ⟨rfl, hchild _, by rw [isDirectory, hchild]; rfl⟩
    free := fun n hn => absurd hn (by rw [currentPath, generationPath, hfile]; simp) }

/-! ### The settings of an index -/

namespace Index

variable {α : Type} [Indexed α] {i i' j : Index} {d d' : Disk} {l : Live} {config : Config}

/-- Whatever happens while an index is rebuilt, and whatever becomes of it, its settings stay. -/
theorem Kept.settings_rebuild (h : Kept i d l)
    (hcountable : ∀ l, i.live = some l → l.directory.current < Number.maxNat64)
    {moments : List (Moment α)} {result : Except IndexError Nat}
    (hrebuild : effect (Index.rebuild fun b => fill b moments) (i, d) = (result, (i', d'))) :
    i'.settings = i.settings := by
  cases hready : i.isReady with
  | true =>
    have hmax := hcountable l (h.live hready)
    cases result with
    | ok n =>
      obtain ⟨_, -, hsettings⟩ := h.rebuild_ok hready hmax hrebuild
      exact hsettings
    | error e =>
      obtain ⟨-, -, hundone⟩ := h.rebuild_ends hready hmax moments
      obtain ⟨_, hprogress⟩ := h.requests (α := α) (Moment.asked i.schema moments)
      have hcovers := hundone e _ hrebuild
      rw [← hprogress.settings, settings, settings, hcovers.index.schema, hcovers.index.config]
  | false =>
    have hclosed := effect_rebuild_closed (d := d) (fun b => fill b moments) h.journal
      (h.closed hready).1
    rw [hclosed] at hrebuild
    rw [← (Prod.mk.inj (Prod.mk.inj hrebuild).2).1]
    rfl

/-- An index has the schema of its entities, as one that is made with its configuration. -/
theorem Reached.declared (h : Reached α i d) :
    ∃ closed, Index.new α i.config = .ok closed ∧ closed.schema = i.schema := by
  induction h with
  | @opened config closed i before d hnew hsound _ _ hopen =>
    obtain ⟨schema, -, hclosed⟩ := bind_eq_ok.mp hnew
    obtain rfl := Except.ok.inj hclosed
    obtain ⟨_, _, -, -, hsettings⟩ := serving_open hsound rfl hopen
    obtain ⟨hschema, hconfig⟩ := Prod.mk.inj hsettings
    exact ⟨_, by rw [hconfig]; exact hnew, hschema.symm⟩
  | @request i d h r ih =>
    obtain ⟨l, hkept⟩ := h.kept
    obtain ⟨l', hprogress⟩ := hkept.request (α := α) r
    obtain ⟨hschema, hconfig⟩ := Prod.mk.inj hprogress.settings
    rwa [hschema, hconfig]
  | rebuild h hcountable moments hrebuild ih =>
    obtain ⟨l, hkept⟩ := h.kept
    obtain ⟨hschema, hconfig⟩ := Prod.mk.inj (hkept.settings_rebuild hcountable hrebuild)
    rwa [hschema, hconfig]
  | elsewhere _ _ _ _ ih => exact ih

/-! ### Serving after a stop -/

/-- The disk after openings of an index, each by a process that failed or stopped, or came to its end
and stopped later. -/
def reopened (j : Index) (d : Disk) (ms : List Medium) : Disk :=
  ms.foldl (fun d m => (effect m.openIndex ((j, d), 0)).2.1.2.released) d

/-- An opening succeeds and serves these documents. The pointer names the one generation that is left,
which has this number. -/
def Served (α : Type) [Indexed α] (j : Index) (d : Disk) (n : Nat) (ds : List Document) : Prop :=
  ∃ i d' l, effect Index.open (j, d) = (.ok (), (i, d')) ∧ i.live = some l ∧
    l.content.documents = ds ∧ i.generation? = some n ∧ l.directory.generations d' = [n] ∧
    readPointer l.directory.path l.directory.name d' = .ok (some n) ∧ Reached α i d'

/-- The live generation is the only one. -/
theorem Kept.generations (h : Kept i d l) : l.directory.generations d = [l.directory.current] :=
  generations_eq_live h.sound (spelled_of_tidy h.sound h.tidy) h.countable h.isDirectory_current
    fun _ hn => h.mem_generations_iff hn

theorem counted_reopened (h : d.Counted) (ms : List Medium) : (j.reopened d ms).Counted := by
  induction ms generalizing d with
  | nil => exact h
  | cons m ms ih => exact ih (Disk.counted_released _)

end Index

namespace Disk.Rests

open Index

variable {α : Type} [Indexed α] {j : Index} {d : Disk} {dir : IndexDirectory} {g : Generation}
  {config : Config}

/-- Openings that fail or stop change nothing of what the disk holds. -/
theorem reopened (hclosed : j.isReady = false) (hpath : dir.path = j.config.root ++ [j.name])
    (hname : dir.name = j.name) (hlayout : g.layout = j.schema.layout) (ms : List Medium) :
    ∀ {d : Disk}, d.Rests dir g → (j.reopened d ms).Rests dir g := by
  induction ms with
  | nil => exact fun h => h
  | cons m ms ih => exact fun h => ih (h.toHolds.openIndex m 0 hclosed hpath hname hlayout).released

/-- **What the disk holds is served**, whatever openings stopped before. -/
theorem served (h : d.Rests dir g) (hnew : Index.new α config = .ok j) (hcounted : d.Counted)
    (hpath : dir.path = config.root ++ [j.name]) (hname : dir.name = j.name)
    (hlayout : g.layout = j.schema.layout) (hvalid : config.validate = .ok ())
    (hheap : config.heapPerThread < Config.maxWriterHeapBytes) (ms : List Medium) :
    Served α j (j.reopened d ms) dir.current g.documents := by
  obtain ⟨schema, -, hclosed⟩ := bind_eq_ok.mp hnew
  obtain rfl := Except.ok.inj hclosed
  have hrests := reopened rfl hpath hname hlayout ms h
  obtain ⟨w, d', hopen⟩ := hrests.effect_open rfl hpath hname hlayout hvalid hheap
  have hreached : Reached α _ d' :=
    .opened hnew hrests.sound (counted_reopened hcounted ms) (hpath ▸ hrests.tidy) hopen
  obtain ⟨l, hkept⟩ := hreached.kept
  obtain rfl : ⟨dir, g⟩ = l := Option.some.inj (hkept.live rfl)
  obtain ⟨_, -, hread⟩ := hkept.pointer
  exact ⟨_, d', _, hopen, rfl, rfl, rfl, hkept.generations, hread hkept.countable, hreached⟩

end Disk.Rests

namespace Index

variable {α : Type} [Indexed α] {config : Config} {j : Index}

/-- **A process that stops exposes nothing half-built.** Whatever openings of a fresh directory stopped,
the next one serves no documents. If a rebuild of an open index stops at any step, and any openings after
it, the next one serves the documents from before or all that are in the store. -/
theorem served_after_stop (hnew : Index.new α config = .ok j) (ms : List Medium) :
    (∀ d : Disk, d.Fresh (config.root ++ [j.name]) → config.validate = .ok () →
      config.heapPerThread < Config.maxWriterHeapBytes → Served α j (j.reopened d ms) 1 []) ∧
    ∀ (i : Index) (d : Disk) (l : Live) (source : Source α) (m : Medium) (k : Nat), Reached α i d →
      i.config = config → i.live = some l → l.directory.current < Number.maxNat64 → m.StopsAt k →
      let d' := (effect (m.rebuildFrom source) ((i, d), 0)).2.1.2.released
      Served α j (j.reopened d' ms) l.directory.current l.content.documents ∨
        ∃ ds, source.Yields j.schema config.rebuildPageSize ds ∧
          Served α j (j.reopened d' ms) (l.directory.current + 1) ds := by
  refine ⟨fun d hfresh hvalid hheap => ?_, fun i d l source m k h hconfig hlive hmax hstops => ?_⟩
  · have hrests := hfresh.rests j.name (g := j.emptyContent) rfl
    exact hrests.served hnew hfresh.counted rfl rfl rfl hvalid hheap ms
  obtain ⟨l₀, hkept⟩ := h.kept
  have hready := isReady_of_live hlive
  obtain rfl : l₀ = l := Option.some.inj ((hkept.live hready).symm.trans hlive)
  obtain ⟨closed, hclosed, hschema⟩ := h.declared
  subst hconfig
  obtain rfl : closed = j := Except.ok.inj (hclosed.symm.trans hnew)
  have hname : i.name = closed.name := by rw [Index.name, Index.name, hschema]
  have hserved : ∀ {d' : Disk} {dir : IndexDirectory} {g : Generation}, d'.Holds dir g →
      dir.path = l₀.directory.path → dir.name = l₀.directory.name → g.layout = i.schema.layout →
      Served α closed (closed.reopened d'.released ms) dir.current g.documents :=
    fun hholds hpath hdir hlayout => hholds.released.served hnew (Disk.counted_released _)
      (by rw [hpath, hkept.root, hname]) (by rw [hdir, hkept.name, hname]) (by rw [hlayout, hschema])
      hkept.valid hkept.heap ms
  rcases hkept.rebuildFrom_outcome hready hmax (hstops.careful l₀.directory) source 0 with
    ⟨e, w, s, hend, hstanding⟩ | ⟨g, s, hyields, hlayout, hholds, hend⟩
  · rw [hend]
    exact .inl (hserved (hstanding.holds hkept.countable) rfl rfl hkept.layout)
  · obtain ⟨result, hend⟩ : ∃ result, effect (m.rebuildFrom source) ((i, d), 0) = (result, s) := by
      rcases hend with ⟨e, -, hend, -⟩ | ⟨n, w, hend, -⟩
      · exact ⟨_, hend⟩
      · exact ⟨_, hend⟩
    rw [hend, hschema]
    exact .inr ⟨g.documents, hyields, hserved hholds rfl rfl hlayout⟩

theorem served_after_stop_of_records :
    (∃ j, Index.new Record {} = .ok j ∧ Served Record j (j.reopened {} [.stopping 3]) 1 []) ∧
    ∃ j l, Index.new Record {} = .ok j ∧ (Record.opened {}).1.live = some l ∧
      let d' := (effect ((Medium.stopping 9).rebuildFrom (.ofList [Record.of "a" "x"]))
        (Record.opened {}, 0)).2.1.2.released
      Served Record j (j.reopened d' [.stopping 1]) l.directory.current l.content.documents ∨
        ∃ ds, (Source.ofList [Record.of "a" "x"]).Yields j.schema 10000 ds ∧
          Served Record j (j.reopened d' [.stopping 1]) (l.directory.current + 1) ds := by
  have hnew : Index.new Record {} = .ok { schema := Record.schema, priority := 60 } := rfl
  have hlive : (Record.opened {}).1.live =
    some ⟨⟨["index", "Record"], "Record", 1⟩, ⟨Record.schema.layout, []⟩⟩ := rfl
  have hreached : Reached Record (Record.opened {}).1 (Record.opened {}).2 :=
    .opened hnew Disk.sound_empty Disk.counted_empty (Disk.tidy_empty _) rfl
  refine ⟨⟨_, hnew, (served_after_stop hnew [.stopping 3]).1 {} (Disk.fresh_empty _) rfl (by decide)⟩,
    _, _, hnew, hlive, ?_⟩
  exact (served_after_stop hnew [.stopping 1]).2 _ _ _ _ _ 9 hreached rfl hlive (by decide)
    (Medium.stopsAt_stopping 9)

end Index

end Codebook
