/-
# Failures during a rebuild

A step of a rebuild may fail, be it that something cannot be made, written or synced, that the pointer
cannot be turned or that the generation before cannot be removed. The rebuild then gives up and removes
what it made. Nothing is lost by that, unless the failure comes right after the turn of the pointer: then
the generation that is removed is the one that the pointer names by now, and the next opening finds
nothing and removes the other one as well.

Key definitions: `Medium.refusing`, `Index.Retained`.
Key theorems: `Index.Standing.retained`, `Index.Reached.rebuild_retains`, `Index.rebuild_loses`.
-/
import Codebook.Proofs.Swapping

namespace Codebook

open IndexDirectory

/-- Some steps fail and leave nothing, by their numbers or by what they are. -/
def Medium.refusing (refused : Nat → DiskStep → Bool) : Medium where
  run n d step := if refused n step then (false, d) else sound.run n d step
  done h := by
    split_ifs at h
    · simp at h
    · exact sound.done h
  torn h := by
    split_ifs at h
    · exact (Prod.mk.inj h).2 ▸ .untouched _ _
    · exact sound.torn h

/-- Where neither syncing nor letting a lock go is refused, nothing fails right after the turn. -/
theorem Medium.not_balks_refusing {refused : Nat → DiskStep → Bool} {dir : IndexDirectory} {n : Nat}
    (hsync : refused n (.sync dir.path) = false)
    (hunlock : ∀ path holder, refused n (.unlock path holder) = false) :
    ¬ (refusing refused).Balks dir n := by
  rintro ⟨d, step, hturned, rfl | ⟨path, holder, rfl⟩, hfail⟩
  · have hcontains : d.contains dir.path = true := by
      simp [Disk.contains, of_decide_eq_true hturned.isDirectory_root]
    simp [refusing, sound, DiskStep.run, hsync, hcontains] at hfail
  · obtain ⟨d', hrun, -⟩ := hturned.sound.unlock path holder
    simp [refusing, sound, hunlock, hrun] at hfail

namespace Index

variable {α : Type} [Indexed α] {i : Index} {d : Disk} {l : Live} {w : Writer} {m : Medium}

/-- The pointer names a generation that is there and holds these documents, and the index serves them
again when it is closed and opened. -/
structure Retained (s : Index × Disk) (dir : IndexDirectory) (ds : List Document) : Prop where
  pointer : readPointer dir.path dir.name s.2 = .ok (some dir.current)
  there : s.2.isDirectory dir.currentPath = true
  content : ∃ g, s.2.node? (dir.currentPath ++ [contentName]) = some (.generation g) ∧ g.documents = ds
  again : ∃ t u l, effect close s = (.ok (), t) ∧ effect Index.open t = (.ok (), u) ∧
    u.1.live = some l ∧ l.directory = dir ∧ l.content.documents = ds

/-- After an open index was closed the disk rests. -/
theorem Standing.effect_close (h : Standing l w (i, d)) (hmax : l.directory.current ≤ Number.maxNat64) :
    ∃ d', effect close (i, d) = (.ok (), ({ i with writer := none, live := none }, d')) ∧
      d'.Rests l.directory l.content := by
  obtain ⟨bytes, hrun, hclose⟩ := h.serving.effect_close
  rw [h.serving.path] at hrun hclose
  refine ⟨_, hclose, (h.holds hmax).onLock (.leave w.holder) (.inl hrun), fun n hn => ?_⟩
  rw [Disk.node?_insert_self d _ (by simp)] at hn
  exact ⟨bytes, (Option.some.inj hn).symm⟩

/-- **What an open index serves is retained.** -/
theorem Standing.retained (h : Standing l w (i, d)) (hmax : l.directory.current ≤ Number.maxNat64) :
    Retained (i, d) l.directory l.content.documents where
  pointer := by
    obtain ⟨_, -, hread⟩ := h.serving.pointer
    exact hread hmax
  there := h.serving.path ▸ h.serving.isDirectory
  content := ⟨l.content, h.serving.path ▸ h.serving.content, rfl⟩
  again := by
    obtain ⟨d', hclose, hrests⟩ := h.effect_close hmax
    obtain ⟨w', d'', hopen⟩ := hrests.effect_open (i := { i with writer := none, live := none }) rfl
      h.serving.root h.serving.name h.serving.layout h.valid h.heap
    exact ⟨_, _, _, hclose, hopen, rfl, rfl, rfl⟩

/-- **A failure loses nothing, unless it comes right after the turn of the pointer.** Whatever steps of a
rebuild fail, if it fails the documents from before are retained, and otherwise all that are in the
store. -/
theorem Reached.rebuild_retains (h : Reached α i d) (hlive : i.live = some l)
    (hmax : l.directory.current < Number.maxNat64) (hturn : ∀ n, ¬ m.Balks l.directory n)
    (source : Source α) :
    let r := effect (m.rebuildFrom source) ((i, d), 0)
    (∃ e, r.1 = .error e) ∧ Retained r.2.1 l.directory l.content.documents ∨
      ∃ n ds, r.1 = .ok n ∧ source.Yields i.schema i.config.rebuildPageSize ds ∧
        Retained r.2.1 { l.directory with current := l.directory.current + 1 } ds := by
  obtain ⟨l₀, hkept⟩ := h.kept
  have hready := isReady_of_live hlive
  obtain rfl : l₀ = l := Option.some.inj ((hkept.live hready).symm.trans hlive)
  have hcareful : m.Careful l₀.directory := fun n hbalks => absurd hbalks (hturn n)
  rcases hkept.rebuildFrom_outcome hready hmax hcareful source 0 with
    ⟨e, w, s, hend, hstanding⟩ |
    ⟨g, s, hyields, -, -, ⟨e, k, -, hbalks⟩ | ⟨n, w, hend, hstanding⟩⟩
  · rw [hend]
    exact .inl ⟨⟨e, rfl⟩, hstanding.retained hkept.countable⟩
  · exact absurd hbalks (hturn k)
  · rw [hend]
    exact .inr ⟨n, g.documents, rfl, hyields, hstanding.retained hmax⟩

/-- The index of records after one was put. -/
def recorded : Index × Disk :=
  (effect (putAll [Record.of "a" "x"]) (Record.opened {})).2

theorem rebuild_retains_records : ∃ l, recorded.1.live = some l ∧ l.content.documents.length = 1 ∧
    let r := effect ((Medium.refusing fun _ step => step matches .rename ..).rebuildFrom
      (.ofList [Record.of "a" "y"])) (recorded, 0)
    (∃ e, r.1 = .error e) ∧ Retained r.2.1 l.directory l.content.documents := by
  obtain ⟨t, ht⟩ : ∃ t, Transaction.upsert Record.schema {} (Record.of "a" "x") = .ok t := ⟨_, rfl⟩
  have hnew : Index.new Record {} = .ok { schema := Record.schema, priority := 60 } := rfl
  have hopened : Reached Record (Record.opened {}).1 (Record.opened {}).2 :=
    .opened hnew Disk.sound_empty Disk.counted_empty (Disk.tidy_empty _) rfl
  have hput : recorded = (Request.commit t).after Record (Record.opened {}) := by
    obtain rfl := Except.ok.inj ht
    rfl
  have hreached : Reached Record recorded.1 recorded.2 := hput ▸ hopened.request (.commit t)
  obtain ⟨l, hlive, hcurrent, hsize⟩ : ∃ l, recorded.1.live = some l ∧
    l.directory.current < Number.maxNat64 ∧ l.content.documents.length = 1 :=
      ⟨_, rfl, by decide, rfl⟩
  have hfails : ∃ e, (effect ((Medium.refusing fun _ step => step matches .rename ..).rebuildFrom
    (.ofList [Record.of "a" "y"])) (recorded, 0)).1 = .error e := ⟨_, rfl⟩
  have hturn : ∀ n, ¬ (Medium.refusing fun _ step => step matches .rename ..).Balks l.directory n :=
    fun n => Medium.not_balks_refusing rfl fun _ _ => rfl
  refine ⟨l, hlive, hsize, (Reached.rebuild_retains hreached hlive hcurrent hturn _).resolve_right ?_⟩
  rintro ⟨n, ds, hok, -⟩
  obtain ⟨e, he⟩ := hfails
  rw [hok] at he
  simp at he

/-- A rebuild whose ninth step fails, the sync after the turn of the pointer, removes the generation that
the pointer names. After that the index is opened without any document. -/
theorem rebuild_loses :
    let m := Medium.refusing fun n step => n == 8 && step matches .sync _
    let r := effect (m.rebuildFrom (.ofList [Record.of "a" "y"])) (recorded, 0)
    let u := effect (do close; Index.open) r.2.1
    (recorded.1.live.map fun l => l.content.size) = some 1 ∧ r.1 = .error .io ∧
      r.2.1.2.text? ["index", "Record", pointerName] = some (generationName 2 ++ "\n") ∧
      r.2.1.2.isDirectory ["index", "Record", generationName 2] = false ∧
      u.1.isOk = true ∧ (u.2.1.live.map fun l => l.content.size) = some 0 :=
  ⟨rfl, rfl, by decide +kernel, by decide +kernel, by decide +kernel, by decide +kernel⟩

end Index

end Codebook
