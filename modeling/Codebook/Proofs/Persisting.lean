/-
# Stores in files are stores in memory

A store in a file answers as a store in memory that is given the same calls, whatever is put into it
or removed, and however often it is closed and opened again. Its file is written beside the old one
first, and gets its name at once. So on a medium where steps fail, a call that fails has changed
neither what is in memory nor what is in the file, and the next opening finds what there was before.

Key definitions: `StoreCall`, `MemoryStore.call`, `LineStore.call`, `Medium.callStore`, `Twins`,
`Twins.play`, `LineStore.Settled`.
Key theorems: `Medium.echoes_callStore`, `LineStore.runAll_draftSteps`, `LineStore.Settled.reopens`,
`LineStore.Settled.call`, `Twins.Agree.fails`, `Twins.agree_of_play`.
-/
import Codebook.Proofs.Holding
import Codebook.Proofs.Lines
import Codebook.Proofs.Paths

namespace Codebook

/-! ### Calls -/

/-- What is asked of a store. -/
inductive StoreCall (α : Type) where
  /-- Puts an entity. -/
  | put (a : α)
  /-- Puts entities one after the other. -/
  | putAll (as : List α)
  /-- Removes the entity with a primary key. -/
  | remove (id : String)
  /-- Closes the store and opens it again. -/
  | reopen

/-- The entities of a call. -/
def StoreCall.entities {α : Type} : StoreCall α → List α
  | put a => [a]
  | putAll as => as
  | remove _ | reopen => []

section

variable {α : Type} [Indexed α]

/-- A store in memory after a call. It is never closed. -/
def MemoryStore.call (s : MemoryStore α) : StoreCall α → MemoryStore α
  | .put a => s.put a
  | .putAll as => s.putAll as
  | .remove id => s.remove id
  | .reopen => s

/-- A store in a file after a call, unless the call fails. -/
def LineStore.call (l : LineStore α) : StoreCall α → DiskM StoreError (LineStore α)
  | .put a => l.putAll [a]
  | .putAll as => l.putAll as
  | .remove id => l.remove id
  | .reopen => LineStore.open α l.path

namespace Medium

variable (m : Medium)

/-- Opens a store on a medium. -/
def openStore (α : Type) [Indexed α] (path : Path) : TriedM StoreError Disk (LineStore α) := do
  match (← steady get).node? path with
  | none =>
    m.perform .io [.makeDirectory path.parent]
    return { path }
  | some (.file bytes _) =>
    let memory ← (LineStore.readLines {} 1 (LineStore.linesOf bytes)).mapError
      (LineFault.error path fun _ => "")
    return { path, memory }
  | some _ => throw .io

/-- The store with other entities, once they are written on a medium. -/
def persistStore (l : LineStore α) (next : MemoryStore α) : TriedM StoreError Disk (LineStore α) := do
  m.perform .io (LineStore.persistSteps l.path next)
  return { l with memory := next }

/-- A store in a file on a medium after a call, unless the call fails. -/
def callStore (l : LineStore α) : StoreCall α → TriedM StoreError Disk (LineStore α)
  | .put a => m.persistStore l (l.memory.putAll [a])
  | .putAll as => m.persistStore l (l.memory.putAll as)
  | .remove id =>
    match l.memory.get? id with
    | some _ => m.persistStore l (l.memory.remove id)
    | none => pure l
  | .reopen => m.openStore α l.path

variable {m} {strict : Prop}

theorem echoes_openStore (path : Path) :
    Echoes m strict (m.openStore α path) (LineStore.open α path) := by
  refine .bind (.steady get) fun d => ?_
  generalize d.node? path = found
  rcases found with _ | _ | ⟨bytes, holder⟩ | g
  · exact .bind (echoes_perform _ _) fun _ => .pure _
  · exact .throw _
  · exact .bind (.lift _) fun _ => .pure _
  · exact .throw _

theorem echoes_persistStore (l : LineStore α) (next : MemoryStore α) :
    Echoes m strict (m.persistStore l next) (l.persist next) :=
  .bind (echoes_perform _ _) fun _ => .pure _

/-- **Where every step is done that can be done, a call is a call.** -/
theorem echoes_callStore (l : LineStore α) (c : StoreCall α) :
    Echoes m strict (m.callStore l c) (l.call c) := by
  cases c with
  | put a => exact echoes_persistStore l _
  | putAll as => exact echoes_persistStore l _
  | remove id =>
    unfold callStore LineStore.call LineStore.remove
    simp only
    cases l.memory.get? id with
    | none => exact .pure l
    | some _ => exact echoes_persistStore l _
  | reopen => exact echoes_openStore l.path

end Medium

/-! ### The steps of a change -/

/-- What was done to a file is made to last without any change. -/
theorem DiskStep.Leaves.sync {path : Path} {d d' : Disk} (h : (DiskStep.sync path).Leaves d d') :
    d' = d := by
  rcases h with hrun | htorn
  · simp only [run] at hrun
    split_ifs at hrun
    exact (Option.some.inj hrun).symm
  · cases htorn
    rfl

namespace LineStore

variable {m : Medium} {d d' : Disk} {dir : Path} {name : String} {bytes : List UInt8}
  {done : Bool} {k k' : Nat}

/-- The steps that write bytes to a file. -/
def draftSteps (dir : Path) (name : String) (bytes : List UInt8) : List DiskStep :=
  [.write (dir ++ [draftName name]) bytes, .sync (dir ++ [draftName name]),
    .rename (dir ++ [draftName name]) (dir ++ [name])]

theorem draftPath_concat (dir : Path) (name : String) :
    draftPath (dir ++ [name]) = dir ++ [draftName name] := by
  simp [draftPath, Path.parent]

theorem persistSteps_concat (dir : Path) (name : String) (next : MemoryStore α) :
    persistSteps (dir ++ [name]) next = draftSteps dir name (toText next).toUTF8.toList := by
  simp [persistSteps, draftSteps, draftPath_concat]

/-- A draft has a name of its own: two dots are in it after what it keeps of the name of the file. -/
theorem draftName_ne (name : String) : draftName name ≠ name := by
  intro h
  have hlist : name.toList = ((stem name).toList ++ ".jsonl".toList) ++ '.' :: "tmp".toList := by
    conv_lhs => rw [← h, draftName, String.toList_append]
    simp
  have hlast := Text.splitLast_append (show '.' ∉ "tmp".toList by decide)
    ((stem name).toList ++ ".jsonl".toList)
  rw [← hlist] at hlast
  obtain ⟨c, before, hkept⟩ : ∃ c before, (stem name).toList ++ ".jsonl".toList = c :: before :=
    List.exists_cons_of_ne_nil (by simp)
  have hstem : stem name = String.ofList ((stem name).toList ++ ".jsonl".toList) := by
    conv_lhs => rw [stem, hlast, hkept]
    rw [hkept]
  have hlength := congrArg (fun s => s.toList.length) hstem
  simp at hlength

theorem draft_ne (dir : Path) (name : String) : dir ++ [draftName name] ≠ dir ++ [name] := fun h =>
  draftName_ne name (List.singleton_inj.mp (List.append_cancel_left h))

theorem draft_not_above (dir : Path) (name : String) : ¬ dir ++ [draftName name] <+: dir ++ [name] :=
  fun h => draft_ne dir name (h.eq_of_length (by simp))

theorem draft_not_above_parent (dir : Path) (name : String) : ¬ dir ++ [draftName name] <+: dir := by
  intro h
  have hle := h.length_le
  simp at hle

/-- What the steps of a change leave, however far they get, besides the file. -/
structure Beside (dir : Path) (name : String) (d d' : Disk) : Prop where
  sound : d.Sound → d'.Sound
  apart : ∀ q, q ≠ dir ++ [name] → ¬ dir ++ [draftName name] <+: q → d'.node? q = d.node? q
  drafted : d.isDirectory (dir ++ [draftName name]) = false →
    d'.isDirectory (dir ++ [draftName name]) = false

/-- Every step of a change leaves alone what is not the file or its draft. -/
theorem beside_of_leaves {step : DiskStep} (hstep : step ∈ draftSteps dir name bytes)
    (hl : step.Leaves d d') : Beside dir name d d' := by
  simp only [draftSteps, List.mem_cons, List.not_mem_nil, or_false] at hstep
  refine ⟨hl.sound, fun q hfile hdraft => (hl.found q).resolve_right fun halters => ?_, fun hdraft => ?_⟩
  · rcases hstep with rfl | rfl | rfl
    · exact hdraft (halters.1 ▸ List.prefix_rfl)
    · exact halters
    · exact halters.elim (fun hpre => hdraft hpre.1) fun htarget => hfile htarget.symm
  · unfold Disk.isDirectory at hdraft ⊢
    rcases hl.found (dir ++ [draftName name]) with hsame | halters
    · rw [hsame, hdraft]
    · rcases hstep with rfl | rfl | rfl
      · obtain ⟨-, bytes, holder, hafter⟩ := halters
        simp [hafter]
      · exact halters.elim
      · rcases halters with ⟨-, hnone⟩ | htarget
        · simp [hnone]
        · exact absurd htarget.symm (draft_ne dir name)

theorem runAll_beside (hrun : m.runAll k d (draftSteps dir name bytes) = (done, d', k')) :
    Beside dir name d d' := by
  have hall : Beside dir name d (m.runAll k d (draftSteps dir name bytes)).2.1 := by
    refine Medium.runAll_keeps (P := fun s => Beside dir name d s.1) (fun step hstep d₁ n hd => ?_)
      ⟨id, fun _ _ _ => rfl, id⟩
    have hnext := beside_of_leaves hstep (m.leaves n d₁ step)
    exact ⟨hnext.sound ∘ hd.sound, fun q hfile hdraft =>
      (hnext.apart q hfile hdraft).trans (hd.apart q hfile hdraft), hnext.drafted ∘ hd.drafted⟩
  rwa [hrun] at hall

/-- **What becomes of a file.** If all steps of a change are done it holds what was written, and
otherwise it is as it was. -/
theorem runAll_draftSteps (hrun : m.runAll k d (draftSteps dir name bytes) = (done, d', k')) :
    if done then ∃ holder, d'.node? (dir ++ [name]) = some (.file bytes holder)
    else d'.node? (dir ++ [name]) = d.node? (dir ++ [name]) := by
  have hne := draft_ne dir name
  rw [draftSteps] at hrun
  simp only [Medium.runAll] at hrun
  rcases hwrite : m.run k d (.write (dir ++ [draftName name]) bytes) with ⟨done₁, d₁⟩
  have hkept₁ : d₁.node? (dir ++ [name]) = d.node? (dir ++ [name]) := by
    have hl := m.leaves k d (.write (dir ++ [draftName name]) bytes)
    rw [hwrite] at hl
    exact (hl.found _).resolve_right fun halters => hne halters.1
  rw [hwrite] at hrun
  cases done₁ with
  | false =>
    obtain ⟨rfl, hstate⟩ := Prod.mk.inj hrun
    obtain ⟨rfl, -⟩ := Prod.mk.inj hstate
    exact hkept₁
  | true =>
    obtain ⟨holder, hdraft⟩ := Disk.node?_write (m.done hwrite)
    simp only at hrun
    rcases hsync : m.run (k + 1) d₁ (.sync (dir ++ [draftName name])) with ⟨done₂, d₂⟩
    have hl := m.leaves (k + 1) d₁ (.sync (dir ++ [draftName name]))
    rw [hsync] at hl
    obtain rfl : d₂ = d₁ := hl.sync
    rw [hsync] at hrun
    cases done₂ with
    | false =>
      obtain ⟨rfl, hstate⟩ := Prod.mk.inj hrun
      obtain ⟨rfl, -⟩ := Prod.mk.inj hstate
      exact hkept₁
    | true =>
      simp only at hrun
      rcases hrename : m.run (k + 1 + 1) d₂ (.rename (dir ++ [draftName name]) (dir ++ [name])) with
        ⟨done₃, d₃⟩
      rw [hrename] at hrun
      cases done₃ with
      | false =>
        obtain ⟨rfl, hstate⟩ := Prod.mk.inj hrun
        obtain ⟨rfl, -⟩ := Prod.mk.inj hstate
        cases m.torn hrename
        exact hkept₁
      | true =>
        obtain ⟨rfl, hstate⟩ := Prod.mk.inj hrun
        obtain ⟨rfl, -⟩ := Prod.mk.inj hstate
        have hdone := m.done hrename
        simp only [DiskStep.run, hdraft] at hdone
        exact ⟨holder, Disk.node?_place_self hdone⟩

/-- The steps of a change can be done where there is a directory and nothing is in the way. -/
theorem runAll_draftSteps_done (hdir : d.isDirectory dir = true)
    (hfile : d.isDirectory (dir ++ [name]) = false)
    (hdraft : d.isDirectory (dir ++ [draftName name]) = false) (bytes : List UInt8) :
    (d.runAll (draftSteps dir name bytes)).1 = true := by
  obtain ⟨d₁, hwrite⟩ := Option.isSome_iff_exists.mp (IndexDirectory.write_isSome hdir hdraft bytes)
  obtain ⟨holder, hwritten⟩ := Disk.node?_write hwrite
  have hl : (DiskStep.write (dir ++ [draftName name]) bytes).Leaves d d₁ := .inl hwrite
  have hother : ∀ q, dir ++ [draftName name] ≠ q → d₁.node? q = d.node? q := fun q hq =>
    (hl.found q).resolve_right fun halters => hq halters.1
  have herased : ∀ q, ¬ dir ++ [draftName name] <+: q →
      (d₁.erase (dir ++ [draftName name])).isDirectory q = d.isDirectory q := fun q hq => by
    have hne : dir ++ [draftName name] ≠ q := fun heq => hq (heq ▸ List.prefix_rfl)
    rw [Disk.isDirectory, Disk.node?_erase_outside hq, hother q hne]
    rfl
  have hparent : (d₁.erase (dir ++ [draftName name])).isDirectory (Path.parent (dir ++ [name])) =
      true := by
    rw [Path.parent, List.dropLast_concat, herased dir (draft_not_above_parent dir name), hdir]
  have htarget := (herased (dir ++ [name]) (draft_not_above dir name)).trans hfile
  have hsync : (DiskStep.sync (dir ++ [draftName name])).run d₁ = some d₁ := by
    simp [DiskStep.run, Disk.contains, hwritten]
  obtain ⟨d₂, hrename⟩ : ∃ d₂,
      (DiskStep.rename (dir ++ [draftName name]) (dir ++ [name])).run d₁ = some d₂ := by
    simp only [DiskStep.run, hwritten]
    exact ⟨_, Disk.place_of_directory hparent htarget⟩
  simp only [draftSteps, Disk.runAll, hwrite, hsync, hrename]

/-! ### Stores that are written down -/

/-- What is in memory is what an opening finds: without a file there is nothing, and the file holds
everything otherwise. -/
structure Settled (l : LineStore α) (d : Disk) : Prop where
  sound : d.Sound
  parent : d.isDirectory l.path.parent = true
  file : d.node? l.path = none ∧ l.memory = {} ∨
    ∃ bytes holder, d.node? l.path = some (.file bytes holder) ∧ Holds bytes l.memory
  memory : l.memory.Sound
  legible : ∀ a ∈ l.memory.toList, Indexed.Legible a

namespace Settled

variable {l : LineStore α}

theorem concat (h : l.Settled d) : ∃ dir name, l.path = dir ++ [name] := by
  rcases List.eq_nil_or_concat l.path with hnil | ⟨dir, name, hpath⟩
  · rcases h.file with ⟨hnone, -⟩ | ⟨bytes, holder, hfile, -⟩
    · simp [hnil] at hnone
    · simp [hnil] at hfile
  · exact ⟨dir, name, hpath.trans List.concat_eq_append⟩

theorem not_directory (h : l.Settled d) : d.isDirectory l.path = false := by
  rcases h.file with ⟨hnone, -⟩ | ⟨bytes, holder, hfile, -⟩ <;> simp [Disk.isDirectory, *]

/-- **The next opening finds what is in memory.** -/
theorem reopens (h : l.Settled d) : effect (LineStore.open α l.path) d = (.ok l, d) := by
  obtain ⟨path, memory⟩ := l
  unfold LineStore.open
  rw [effect_bind_ok (effect_get d)]
  rcases h.file with ⟨hnone, hempty⟩ | ⟨bytes, holder, hfile, hholds⟩
  · simp only at hnone hempty
    have hmade : (DiskStep.makeDirectory path.parent).run d = some d :=
      h.sound.makeDirectories_self h.parent
    simp only [hnone]
    rw [effect_bind, effect_perform_one, hmade, hempty]
    rfl
  · simp only at hfile hholds
    simp only [hfile]
    rw [hholds]
    rfl

/-- A store stays as it is while neither its file nor its directory changes. -/
theorem congr (h : l.Settled d) (hsound : d'.Sound) (hfile : d'.node? l.path = d.node? l.path)
    (hparent : d'.node? l.path.parent = d.node? l.path.parent) : l.Settled d' where
  sound := hsound
  parent := by rw [Disk.isDirectory, hparent, ← Disk.isDirectory, h.parent]
  file := by
    rw [hfile]
    exact h.file
  memory := h.memory
  legible := h.legible

end Settled

/-- What a call that should leave other entities in memory comes to. If it comes to its end, they are
written down. If it fails, the file is as it was. Nothing gets in the way of the next draft. -/
inductive Settles (l : LineStore α) (next : MemoryStore α) (d : Disk) :
    Except StoreError (LineStore α) → Disk → Prop where
  | done {d' : Disk} (h : Settled { l with memory := next } d')
    (clear : d.isDirectory (draftPath l.path) = false → d'.isDirectory (draftPath l.path) = false) :
    Settles l next d (.ok { l with memory := next }) d'
  | failed {e : StoreError} {d' : Disk} (h : l.Settled d') (file : d'.node? l.path = d.node? l.path)
    (clear : d.isDirectory (draftPath l.path) = false → d'.isDirectory (draftPath l.path) = false) :
    Settles l next d (.error e) d'

/-- **A change of a file on a medium** comes to its end, or leaves the file as it was. -/
theorem Settled.persist {l : LineStore α} {next : MemoryStore α} (h : l.Settled d) (hnext : next.Sound)
    (hlegible : ∀ a ∈ next.toList, Indexed.Legible a) (n : Nat) :
    l.Settles next d (effect (m.persistStore l next) (d, n)).1
      (effect (m.persistStore l next) (d, n)).2.1 := by
  obtain ⟨path, memory⟩ := l
  obtain ⟨dir, name, rfl⟩ : ∃ dir name, path = dir ++ [name] := h.concat
  have hparent : Path.parent (dir ++ [name]) = dir := List.dropLast_concat
  rcases hrun : m.runAll n d (draftSteps dir name (toText next).toUTF8.toList) with ⟨done, d', n'⟩
  have hbeside := runAll_beside hrun
  have hclear := hbeside.drafted
  rw [← draftPath_concat] at hclear
  have hkept : d'.node? dir = d.node? dir :=
    hbeside.apart dir (by simp) (draft_not_above_parent dir name)
  have hfile := runAll_draftSteps hrun
  have heffect : effect (m.persistStore ⟨dir ++ [name], memory⟩ next) (d, n) =
      (if done then .ok ⟨dir ++ [name], next⟩ else .error .io, (d', n')) := by
    unfold Medium.persistStore
    rw [persistSteps_concat, effect_bind, Medium.effect_perform, hrun]
    cases done <;> rfl
  rw [heffect]
  cases done with
  | false => exact .failed (h.congr (hbeside.sound h.sound) hfile (by rw [hparent, hkept])) hfile hclear
  | true =>
    obtain ⟨holder, hwritten⟩ := hfile
    have hdirectory : d'.isDirectory (Path.parent (dir ++ [name])) = true := by
      rw [Disk.isDirectory, hparent, hkept, ← hparent]
      exact h.parent
    exact .done ⟨hbeside.sound h.sound, hdirectory, .inr ⟨_, holder, hwritten, holds_toText hnext hlegible⟩,
      hnext, hlegible⟩ hclear

end LineStore

/-! ### One call -/

namespace MemoryStore

variable {s : MemoryStore α} {c : StoreCall α}

theorem mem_toList_putAll : ∀ {as : List α} {s : MemoryStore α} {a : α},
    a ∈ (s.putAll as).toList → a ∈ s.toList ∨ a ∈ as
  | [], _, _, h => .inl h
  | b :: as, s, a, h => by
    rcases mem_toList_putAll (show a ∈ ((s.put b).putAll as).toList from h) with hput | has
    · obtain ⟨e, he, rfl⟩ := List.mem_map.mp hput
      rcases Keyed.mem_of_mem_insert he with rfl | he
      · exact .inr List.mem_cons_self
      · exact .inl (List.mem_map_of_mem he)
    · exact .inr (List.mem_cons_of_mem _ has)

theorem Sound.putAll : ∀ {as : List α} {s : MemoryStore α}, s.Sound → (s.putAll as).Sound
  | [], _, h => h
  | a :: as, s, h => by
    have hrest : ((s.put a).putAll as).Sound := Sound.putAll (h.put a)
    exact hrest

omit [Indexed α] in
theorem mem_toList_remove {id : String} {a : α} (h : a ∈ (s.remove id).toList) : a ∈ s.toList := by
  obtain ⟨e, he, rfl⟩ := List.mem_map.mp h
  exact List.mem_map_of_mem (Keyed.mem_of_mem_erase he)

omit [Indexed α] in
/-- There is nothing to remove where nothing is found. -/
theorem remove_of_none {id : String} (h : s.get? id = none) : s.remove id = s := by
  obtain ⟨entries⟩ := s
  have herase : ∀ {entries : Keyed α}, Keyed.get? id entries = none → Keyed.erase id entries = entries := by
    intro entries h
    induction entries with
    | nil => rfl
    | cons e entries ih =>
      obtain ⟨key, a⟩ := e
      rw [Keyed.get?] at h
      split_ifs at h with hkey
      rw [Keyed.erase, if_neg fun heq => hkey heq, ih h]
  exact congrArg mk (herase h)

end MemoryStore

namespace LineStore.Settled

variable {m : Medium} {d : Disk} {l : LineStore α} {c : StoreCall α}

/-- A directory that is there is not changed when it is made, nor is anything in it. -/
theorem found_makeDirectory {d' : Disk} {q : Path} (h : l.Settled d)
    (hl : (DiskStep.makeDirectory l.path.parent).Leaves d d')
    (hq : q.length = l.path.length ∨ q = l.path.parent) : d'.node? q = d.node? q := by
  refine (hl.found q).resolve_right fun halters => ?_
  obtain ⟨dir, name, hpath⟩ := h.concat
  have hparent := h.parent
  rw [hpath, Path.parent, List.dropLast_concat] at hparent halters hq
  rcases hq with hq | rfl
  · have hle := halters.1.length_le
    simp [hq] at hle
  · rw [Disk.isDirectory, halters.2.1] at hparent
    simp at hparent

theorem length_draftPath (h : l.Settled d) : (draftPath l.path).length = l.path.length := by
  obtain ⟨dir, name, hpath⟩ := h.concat
  simp [hpath, draftPath_concat]

/-- **A store that is opened again** is the store that it was, or its file is as it was. -/
theorem reopen (h : l.Settled d) (n : Nat) :
    l.Settles l.memory d (effect (m.openStore α l.path) (d, n)).1
      (effect (m.openStore α l.path) (d, n)).2.1 := by
  unfold Medium.openStore
  rw [effect_bind_ok (effect_read d n)]
  rcases h.file with ⟨hnone, hempty⟩ | ⟨bytes, holder, hfile, hholds⟩
  · have hl := m.leaves n d (.makeDirectory l.path.parent)
    have hfile := h.found_makeDirectory hl (.inl rfl)
    have hsettled := h.congr (hl.sound h.sound) hfile (h.found_makeDirectory hl (.inr rfl))
    have hdraft := h.found_makeDirectory hl (.inl h.length_draftPath)
    have hclear : d.isDirectory (draftPath l.path) = false →
        (m.run n d (.makeDirectory l.path.parent)).2.isDirectory (draftPath l.path) = false := by
      rw [Disk.isDirectory, Disk.isDirectory, hdraft]
      exact id
    simp only [hnone]
    rw [effect_bind, Medium.effect_perform, Medium.runAll]
    rcases hrun : m.run n d (.makeDirectory l.path.parent) with ⟨_ | _, d'⟩ <;>
      rw [hrun] at hsettled hclear hfile
    · exact .failed hsettled hfile hclear
    · obtain ⟨path, memory⟩ := l
      obtain rfl : memory = {} := hempty
      exact .done hsettled hclear
  · simp only [hfile]
    rw [hholds]
    exact .done h id

/-- **A call of a store in a file.** If it comes to its end, what is in memory is what a store in memory
holds after the call, and it is written down. If it fails, the file is as it was. -/
theorem call (h : l.Settled d) (hc : ∀ a ∈ c.entities, Indexed.Legible a) (n : Nat) :
    l.Settles (l.memory.call c) d (effect (m.callStore l c) (d, n)).1
      (effect (m.callStore l c) (d, n)).2.1 := by
  have hputAll : ∀ as, (∀ a ∈ as, Indexed.Legible a) → ∀ a ∈ (l.memory.putAll as).toList,
      Indexed.Legible a := fun as has a ha =>
    (MemoryStore.mem_toList_putAll ha).elim (h.legible a) (has a)
  cases c with
  | put a => exact h.persist (h.memory.put a) (hputAll [a] hc) n
  | putAll as => exact h.persist h.memory.putAll (hputAll as hc) n
  | remove id =>
    simp only [Medium.callStore, MemoryStore.call]
    cases hget : l.memory.get? id with
    | none =>
      rw [MemoryStore.remove_of_none hget]
      exact .done h fun hclear => hclear
    | some b =>
      exact h.persist (h.memory.remove id) (fun a ha => h.legible a (MemoryStore.mem_toList_remove ha)) n
  | reopen => exact h.reopen n

/-- **A call comes to its end** where every step is done that can be done, unless the draft is in the
way of something. -/
theorem call_ok (h : l.Settled d) (hclear : d.isDirectory (draftPath l.path) = false)
    (c : StoreCall α) : ∃ l', (effect (l.call c) d).1 = .ok l' := by
  have hpersist : ∀ next, (effect (l.persist next) d).1 = .ok { l with memory := next } := by
    intro next
    obtain ⟨dir, name, hpath⟩ := h.concat
    have hdir := h.parent
    have hfile := h.not_directory
    rw [hpath, Path.parent, List.dropLast_concat] at hdir
    rw [hpath] at hfile
    rw [hpath, draftPath_concat] at hclear
    unfold LineStore.persist
    rw [effect_bind, effect_perform, hpath, persistSteps_concat,
      runAll_draftSteps_done hdir hfile hclear]
    rfl
  cases c with
  | put a => exact ⟨_, hpersist _⟩
  | putAll as => exact ⟨_, hpersist _⟩
  | remove id =>
    simp only [LineStore.call, LineStore.remove]
    cases l.memory.get? id with
    | none => exact ⟨l, rfl⟩
    | some b => exact ⟨_, hpersist _⟩
  | reopen => exact ⟨l, by rw [LineStore.call, h.reopens]⟩

end LineStore.Settled

/-! ### The first opening -/

namespace LineStore

end LineStore

/-! ### Two stores -/

/-- A store in a file, on a disk, and a store in memory that was given the calls that came to their end. -/
structure Twins (α : Type) where
  /-- The store in a file. -/
  lines : LineStore α
  /-- The store in memory. -/
  memory : MemoryStore α
  /-- The disk. -/
  disk : Disk
  /-- The steps that were tried so far. -/
  tried : Nat

namespace Twins

/-- The stores after a call. -/
def step (m : Medium) (t : Twins α) (c : StoreCall α) : Twins α :=
  match effect (m.callStore t.lines c) (t.disk, t.tried) with
  | (.ok l, (d, n)) => ⟨l, t.memory.call c, d, n⟩
  | (.error _, (d, n)) => ⟨t.lines, t.memory, d, n⟩

/-- The stores after calls. -/
def play (m : Medium) (t : Twins α) (calls : List (StoreCall α)) : Twins α :=
  calls.foldl (step m) t

/-- The store in a file is written down, at its path, and holds what the other one holds. -/
structure Agree (path : Path) (t : Twins α) : Prop where
  path : t.lines.path = path
  memory : t.lines.memory = t.memory
  settled : t.lines.Settled t.disk

variable {m : Medium} {t : Twins α} {path : Path} {c : StoreCall α}

/-- **One call keeps the stores alike**, whether it comes to its end or fails. -/
theorem Agree.step (h : t.Agree path) (hc : ∀ a ∈ c.entities, Indexed.Legible a) :
    (Twins.step m t c).Agree path ∧
      (t.disk.isDirectory (LineStore.draftPath path) = false →
        (Twins.step m t c).disk.isDirectory (LineStore.draftPath path) = false) := by
  have hcall := h.settled.call (m := m) hc t.tried
  unfold Twins.step
  rcases heffect : effect (m.callStore t.lines c) (t.disk, t.tried) with ⟨r, d, n⟩
  rw [heffect] at hcall
  simp only at hcall
  cases hcall with
  | done hsettled hclear =>
    exact ⟨⟨h.path, congrArg (MemoryStore.call · c) h.memory, hsettled⟩, h.path ▸ hclear⟩
  | failed hsettled hfile hclear => exact ⟨⟨h.path, h.memory, hsettled⟩, h.path ▸ hclear⟩

/-- Where every step is done that can be done, a call comes to its end. -/
theorem Agree.step_sure (h : t.Agree path) (hm : ∀ n, m.Sure n)
    (hclear : t.disk.isDirectory (LineStore.draftPath path) = false) :
    (Twins.step m t c).memory = t.memory.call c := by
  obtain ⟨l', hok⟩ := h.settled.call_ok (h.path.symm ▸ hclear) c
  have hechoes : Echoes m True (m.callStore t.lines c) (t.lines.call c) :=
    Medium.echoes_callStore t.lines c
  obtain ⟨n', hsame⟩ := hechoes.same hm t.disk t.tried
  rw [hok] at hsame
  rw [Twins.step, hsame]

/-- **Calls keep the stores alike**, one after the other. -/
theorem Agree.play {calls : List (StoreCall α)} (h : t.Agree path)
    (hcalls : ∀ c ∈ calls, ∀ a ∈ c.entities, Indexed.Legible a) :
    (Twins.play m t calls).Agree path ∧ ((∀ n, m.Sure n) →
      t.disk.isDirectory (LineStore.draftPath path) = false →
        (Twins.play m t calls).memory = calls.foldl MemoryStore.call t.memory) := by
  induction calls generalizing t with
  | nil => exact ⟨h, fun _ _ => rfl⟩
  | cons c calls ih =>
    obtain ⟨hc, hrest⟩ := List.forall_mem_cons.mp hcalls
    obtain ⟨hstep, hclear⟩ := h.step (m := m) hc
    obtain ⟨hagree, hmemory⟩ := ih hstep hrest
    refine ⟨hagree, fun hm hdraft => ?_⟩
    rw [List.foldl_cons, ← h.step_sure hm hdraft]
    exact hmemory hm (hclear hdraft)

end Twins

end

end Codebook
