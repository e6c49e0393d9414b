/-
# Rebuilds that overlap

Any number of rebuilds of one index can be called for, while transactions write it and while it is
closed and opened again. What is done under one lock is one action, and between the actions of a
call there is room for those of others. All calls share the journal: a call that finds none starts
it, every commit is noted in it, and a call takes it when it swaps its generation in. A call that
failed drops the journal at the end, under a lock of its own.

A call that fails before its swap has kept the others from starting until then, so what it drops is
its own. A call that fails in its swap has taken the journal already, and another call may have
started since: then it drops the journal of that one (`Overlap.clobbered`). As long as this does not
happen, the journal belongs to one call at most and holds what was committed since that call
started (`Overlap.Tracked`), and so nothing of it is missing from the generation that the call makes
live.

Key definitions: `Overlap`, `Overlap.Phase`, `Overlap.Act`, `Overlap.act`, `Overlap.play`,
`Edit.Present`, `Overlap.Tracked`.
Key theorems: `Edit.present_of_last`, `Overlap.Tracked.act`, `Overlap.committed_present`,
`Overlap.committed_lost`.
-/
import Codebook.Proofs.Handles
import Codebook.Proofs.Edits
import Codebook.Proofs.Entities
import Mathlib.Logic.Function.Basic

namespace Codebook

/-! ### Edits that are there -/

/-- Documents show what an edit did: the document of the entity that was put is there, and no other
one under its id, or nothing is there of the entity that was removed. -/
def Edit.Present {α : Type} [Indexed α] (s : Schema) (documents : List Document) : Edit α → Prop
  | put a => ∃ d ∈ documents, Document.encode s a = .ok d ∧
      ∀ d' ∈ documents, d'.hasKey s (Indexed.id a) = true → d' = d
  | remove id => ∀ d ∈ documents, ∀ a : α, Document.encode s a = .ok d → Indexed.id a ≠ id

section

variable {α : Type} [Indexed α] {s : Schema} {documents : List Document} {e : Edit α} {c : Change}

theorem Edit.present_apply (hs : s.KeyedBy α) (hc : e.Encoded s c)
    (hkey : e.left? = none → Text.isBlank e.key = false) : e.Present s (c.apply s documents) := by
  cases hc with
  | put ha =>
    refine ⟨_, by simp [Change.apply], ha, fun d' hd' hunder => ?_⟩
    rcases List.mem_append.mp hd' with hd' | hd'
    · simp [hunder] at hd'
    · exact List.mem_singleton.mp hd'
  | remove id =>
    intro d hd a ha hid
    have hunder : d.hasKey s id = true :=
      (Document.hasKey_encoded hs ha id).mpr ⟨by rw [hid]; exact hkey rfl, hid⟩
    simp [Change.apply, hunder] at hd

/-- Changes of other keys leave it so. -/
theorem Edit.Present.apply (hs : s.KeyedBy α) (h : e.Present s documents)
    (hkey : e.left? = none → Text.isBlank e.key = false) {e' : Edit α} (hc : e'.Encoded s c)
    (hne : e'.key ≠ e.key) : e.Present s (c.apply s documents) := by
  cases e with
  | put a =>
    obtain ⟨d, hd, ha, hunique⟩ := h
    have hother : ∀ key, key ≠ Indexed.id a → (!d.hasKey s key) = true := by
      intro key hne
      rw [Bool.not_eq_true', Bool.eq_false_iff]
      exact fun hunder => hne ((Document.hasKey_encoded hs ha key).mp hunder).2.symm
    cases hc with
    | put hb =>
      refine ⟨d, ?_, ha, fun d' hd' hunder => ?_⟩
      · exact List.mem_append_left _ (List.mem_filter.mpr ⟨hd, hother _ hne⟩)
      · rcases List.mem_append.mp hd' with hd' | hd'
        · exact hunique d' (List.mem_filter.mp hd').1 hunder
        · rw [List.mem_singleton.mp hd'] at hunder
          exact absurd ((Document.hasKey_encoded hs hb _).mp hunder).2 hne
    | remove id =>
      refine ⟨d, List.mem_filter.mpr ⟨hd, hother _ hne⟩, ha, fun d' hd' hunder => ?_⟩
      exact hunique d' (List.mem_filter.mp hd').1 hunder
  | remove id =>
    cases hc with
    | @put b d₁ hb =>
      intro d hd a ha hid
      rcases List.mem_append.mp hd with hd | hd
      · exact h d (List.mem_filter.mp hd).1 a ha hid
      · rw [List.mem_singleton.mp hd] at ha
        have hunder : d₁.hasKey s id = true :=
          (Document.hasKey_encoded hs ha id).mpr ⟨by rw [hid]; exact hkey rfl, hid⟩
        exact hne ((Document.hasKey_encoded hs hb id).mp hunder).2
    | remove id' => exact fun d hd => h d (List.mem_filter.mp hd).1

theorem Edit.Present.applyChanges (hs : s.KeyedBy α) (h : e.Present s documents)
    (hkey : e.left? = none → Text.isBlank e.key = false) {after : List (Edit α)}
    {changes : List Change} (hc : List.Forall₂ (Edit.Encoded s) after changes)
    (hlast : ∀ e' ∈ after, e'.key ≠ e.key) : e.Present s (applyChanges s documents changes) := by
  induction hc generalizing documents with
  | nil => exact h
  | cons hec _ ih =>
    have hnext := h.apply hs hkey hec (hlast _ List.mem_cons_self)
    exact ih hnext fun e' he' => hlast e' (List.mem_cons_of_mem _ he')

/-- The last edit of a key is there after all changes. -/
theorem Edit.present_of_last (hs : s.KeyedBy α) {before after : List (Edit α)}
    {changes : List Change} (hc : List.Forall₂ (Edit.Encoded s) (before ++ e :: after) changes)
    (hlast : ∀ e' ∈ after, e'.key ≠ e.key) (hkey : e.left? = none → Text.isBlank e.key = false) :
    e.Present s (applyChanges s documents changes) := by
  induction before generalizing documents changes with
  | cons e₀ before ih =>
    cases hc with
    | @cons _ c₀ _ changes _ hrest =>
      show e.Present s (Codebook.applyChanges s (c₀.apply s documents) changes)
      exact ih hrest
  | nil =>
    cases hc with
    | cons hec hrest => exact (present_apply hs hec hkey).applyChanges hs hkey hrest hlast

end

/-! ### Calls and what they do -/

namespace Overlap

/-- How far a call of the rebuild is. -/
inductive Phase where
  /-- It has not begun. -/
  | waiting
  /-- It has started the journal. -/
  | started
  /-- It has made a directory for the new generation. -/
  | created (number : Nat) (path : Path)
  /-- It fills the new generation. -/
  | building (b : Building)
  /-- What was added is committed. -/
  | filled (number : Nat) (w : Writer)
  /-- It has failed, and still has to let a lock go, to remove a directory, and to drop the journal,
  which the swap may have taken. -/
  | failed (writer : Option Writer) (path : Option Path) (taken : Bool)
  /-- Its generation is live, and the old one is still to be removed. -/
  | swapped (old documents : Nat)
  /-- It has answered. -/
  | answered

/-- Whether the call has started the journal and has neither taken nor dropped it. -/
def Phase.owns : Phase → Bool
  | started | created .. | building _ | filled .. | failed _ _ false => true
  | waiting | failed _ _ true | swapped .. | answered => false

/-- What the call makes lies where it belongs. -/
def Phase.Placed (i : Index) : Phase → Prop
  | created n path => path = i.pathOf n
  | building b => b.writer.path = i.pathOf b.number
  | filled n w => w.path = i.pathOf n
  | _ => True

/-- What is done under one lock, or without any. -/
inductive Act (α : Type) where
  /-- A transaction gets the writer. -/
  | begin
  /-- The transaction commits edits. -/
  | commit (edits : List (Edit α))
  /-- The transaction gives the writer back. -/
  | rollback
  /-- The index is opened. -/
  | open
  /-- The index is closed. -/
  | close
  /-- A call adds documents to its generation. -/
  | add (call : Nat) (documents : List Document)
  /-- What fills the generation of a call fails. -/
  | giveUp (call : Nat)
  /-- A call goes on. -/
  | proceed (call : Nat)

end Overlap

open Overlap in
/-- An index and all that goes on with it. -/
structure Overlap (α : Type) where
  /-- The index. -/
  index : Index
  /-- The disk. -/
  disk : Disk
  /-- Whether a transaction has the writer. -/
  busy : Bool := false
  /-- The calls of the rebuild by their numbers. -/
  calls : Nat → Phase := fun _ => .waiting
  /-- What was committed since each call started. -/
  since : Nat → List (Edit α) := fun _ => []
  /-- Whether a call whose swap had taken its journal has dropped that of another call. -/
  clobbered : Bool := false

namespace Overlap

variable {α : Type} [Indexed α]

/-- Makes the directory of a new generation. The answer is its number and where it is. -/
def makeGeneration : IndexM (Nat × Path) := do
  let directory ← Index.liveDirectory
  let number ← Index.onDisk directory.create
  return (number, directory.generationPath number)

/-- What work leaves of the index and the disk, and how far a call is then. -/
def after {β : Type} (r : Overlap α) (call : Nat) (work : IndexM β) (done : β → Phase)
    (failed : Phase) : Overlap α :=
  let (answer, s) := effect work (r.index, r.disk)
  let phase := match answer with
    | .ok b => done b
    | .error _ => failed
  { r with index := s.1, disk := s.2, calls := Function.update r.calls call phase }

omit [Indexed α] in
theorem after_ok {β : Type} {r : Overlap α} {work : IndexM β} {b : β} {s : Index × Disk}
    (h : effect work (r.index, r.disk) = (.ok b, s)) (call : Nat) (done : β → Phase) (failed : Phase) :
    r.after call work done failed =
      { r with index := s.1, disk := s.2, calls := Function.update r.calls call (done b) } := by
  rw [after, h]

omit [Indexed α] in
theorem after_error {β : Type} {r : Overlap α} {work : IndexM β} {e : IndexError} {s : Index × Disk}
    (h : effect work (r.index, r.disk) = (.error e, s)) (call : Nat) (done : β → Phase)
    (failed : Phase) : r.after call work done failed =
      { r with index := s.1, disk := s.2, calls := Function.update r.calls call failed } := by
  rw [after, h]

/-- What comes next of a call. -/
def proceed (r : Overlap α) (call : Nat) : Option (Overlap α) :=
  match r.calls call with
  | .waiting =>
    some { r.after call Index.startJournal (fun _ => .started) .answered with
      since := Function.update r.since call [] }
  | .started =>
    some (r.after call makeGeneration (fun (n, path) => .created n path) (.failed none none false))
  | .created n path =>
    some (r.after call (Index.startBuilding n path) .building (.failed none (some path) false))
  | .building b =>
    some (r.after call (Index.commitBuilding b) (.filled b.number)
      (.failed (some b.writer) (some b.writer.path) false))
  | .filled n w =>
    -- a swap waits for the writer
    if r.busy then none
    else some (r.after call (Index.swapIn n w) (fun (old, documents) => .swapped old documents)
      (.failed (some w) (some w.path) true))
  | .failed (some w) path taken =>
    some (r.after call (Index.onDisk (perform .io (Index.Writer.releaseSteps w)))
      (fun _ => .failed none path taken) (.failed none path taken))
  | .failed none (some path) taken =>
    some (r.after call (Index.discard path) (fun _ => .failed none none taken)
      (.failed none none taken))
  | .failed none none taken =>
    some { r.after call (Index.dropJournal .cancelled : IndexM Unit) (fun _ => .answered) .answered
      with clobbered := r.clobbered || (taken && r.index.isRebuilding) }
  | .swapped old documents =>
    some (r.after call (do
      Index.removeRetired old
      Index.update fun i => { i with statistics := i.statistics.recordRebuild documents })
      (fun _ => .answered) .answered)
  | .answered => none

/-- What an act leaves, if it is possible. -/
def act (r : Overlap α) : Act α → Option (Overlap α)
  | .begin =>
    if r.busy then none
    else
      let (answer, s) := effect Index.begin (r.index, r.disk)
      some { r with index := s.1, disk := s.2, busy := answer.isOk }
  | .commit edits =>
    if r.busy then
      match Edit.stageAll r.index.schema {} edits with
      | .ok tx =>
        let (answer, s) := effect (Index.commit tx) (r.index, r.disk)
        let noted := if answer.isOk then edits else []
        some { r with index := s.1, disk := s.2, busy := false, since := fun c => r.since c ++ noted }
      | .error _ => none
    else none
  | .rollback =>
    if r.busy then
      let s := (effect Index.rollback (r.index, r.disk)).2
      some { r with index := s.1, disk := s.2, busy := false }
    else none
  | .open =>
    if r.busy then none
    else
      let s := (effect Index.open (r.index, r.disk)).2
      some { r with index := s.1, disk := s.2 }
  | .close =>
    if r.busy then none
    else
      let s := (effect Index.close (r.index, r.disk)).2
      some { r with index := s.1, disk := s.2 }
  | .add call documents =>
    match r.calls call with
    | .building b => some { r with calls := Function.update r.calls call (.building (b.add documents)) }
    | _ => none
  | .giveUp call =>
    match r.calls call with
    | .building b => some { r with
        calls := Function.update r.calls call (.failed (some b.writer) (some b.writer.path) false) }
    | _ => none
  | .proceed call => r.proceed call

/-- Acts one after the other, as far as all are possible. -/
def play (r : Overlap α) (acts : List (Act α)) : Option (Overlap α) :=
  acts.foldlM act r

/-! ### The invariant -/

/-- What the journal holds: there is none if no call has it, and otherwise what was committed since
the call that has it started. -/
def Keeps (r : Overlap α) : Option Nat → Prop
  | none => r.index.journal = none
  | some call => ∃ journal, r.index.journal = some journal ∧
      List.Forall₂ (Edit.Encoded r.index.schema) (r.since call) journal

/-- What holds at every moment. As long as no call has dropped the journal of another one, one call
has it at most. -/
structure Tracked (r : Overlap α) : Prop where
  keyed : r.index.schema.KeyedBy α
  linked : r.index.Linked
  placed : ∀ call, (r.calls call).Placed r.index
  owner : r.clobbered = false →
    ∃ owner, (∀ call, (r.calls call).owns = true ↔ owner = some call) ∧ r.Keeps owner

theorem Phase.Placed.congr {i i' : Index} {phase : Phase} (h : phase.Placed i)
    (hs : i'.settings = i.settings) : phase.Placed i' := by
  have hpath := Index.pathOf_congr hs
  cases phase with
  | created n path => rwa [Placed, hpath]
  | building b => rwa [Placed, hpath]
  | filled n w => rwa [Placed, hpath]
  | waiting | started | failed | swapped | answered => trivial

omit [Indexed α] in
theorem placed_update {r : Overlap α} {i : Index} {c : Nat} {phase : Phase}
    (h : ∀ call, (r.calls call).Placed r.index) (hs : i.settings = r.index.settings)
    (hphase : phase.Placed i) (call : Nat) : (Function.update r.calls c phase call).Placed i := by
  by_cases hc : call = c
  · rw [hc, Function.update_self]
    exact hphase
  · rw [Function.update_of_ne hc]
    exact (h call).congr hs

theorem Keeps.congr {r r' : Overlap α} {owner : Option Nat} (h : r.Keeps owner)
    (hj : r'.index.journal = r.index.journal) (hs : r'.index.settings = r.index.settings)
    (hsince : r'.since = r.since) : r'.Keeps owner := by
  have hschema : r'.index.schema = r.index.schema := congrArg Prod.fst hs
  cases owner with
  | none => exact hj.trans h
  | some call => rwa [Keeps, hj, hschema, hsince]

theorem quiet_makeGeneration : Index.Quiet makeGeneration :=
  Index.quiet_liveDirectory.bind fun _ => (Index.quiet_onDisk _).bind fun _ => Index.quiet_pure _

theorem makeGeneration_ok {i : Index} {d : Disk} {n : Nat} {path : Path} {s : Index × Disk}
    (hi : i.Linked) (h : effect makeGeneration (i, d) = (.ok (n, path), s)) :
    path = i.pathOf n := by
  obtain ⟨dir, ⟨i₁, d₁⟩, hdir, h₁⟩ := bind_ok h
  obtain ⟨number, s₂, -, h₂⟩ := bind_ok h₁
  obtain ⟨l, hl, rfl⟩ := Index.liveDirectory_ok hdir
  obtain ⟨rfl, rfl⟩ := Prod.mk.inj (pure_ok h₂).1
  exact hi.pathOf hl number

namespace Tracked

variable {r r' : Overlap α} {c : Nat}

/-- Work that leaves the journal alone keeps it so, if the call goes on having it or not. -/
theorem relinks {β : Type} {work : IndexM β} {done : β → Phase} {failed : Phase} (h : r.Tracked)
    (hwork : Index.Relinks r.index work)
    (hdone : ∀ b s, effect work (r.index, r.disk) = (.ok b, s) →
      (done b).owns = (r.calls c).owns ∧ (done b).Placed r.index)
    (hfailed : failed.owns = (r.calls c).owns ∧ failed.Placed r.index) :
    (r.after c work done failed).Tracked := by
  obtain ⟨hlinked, hjournal, hsettings⟩ := hwork r.disk
  have hschema : (effect work (r.index, r.disk)).2.1.schema = r.index.schema := congrArg Prod.fst hsettings
  -- how far the call is then
  obtain ⟨phase, hcalls, howns, hplaced⟩ : ∃ phase,
      (r.after c work done failed).calls = Function.update r.calls c phase ∧
      phase.owns = (r.calls c).owns ∧ phase.Placed r.index := by
    rcases heffect : effect work (r.index, r.disk) with ⟨_ | b, s⟩
    · exact ⟨failed, by rw [after_error heffect], hfailed⟩
    · exact ⟨done b, by rw [after_ok heffect], hdone b s heffect⟩
  refine { keyed := ?_, linked := hlinked, placed := ?_, owner := fun hclear => ?_ }
  · show (effect work (r.index, r.disk)).2.1.schema.KeyedBy α
    rw [hschema]
    exact h.keyed
  · rw [hcalls]
    exact placed_update h.placed hsettings (hplaced.congr hsettings)
  · obtain ⟨owner, howner, hkeeps⟩ := h.owner hclear
    refine ⟨owner, fun call => ?_, hkeeps.congr hjournal hsettings rfl⟩
    rw [hcalls, ← howner call]
    by_cases hc : call = c
    · rw [hc, Function.update_self, howns]
    · rw [Function.update_of_ne hc]

/-- So does work beside all calls. -/
theorem elsewhere {β : Type} {work : IndexM β} (h : r.Tracked)
    (hwork : Index.Relinks r.index work) (busy : Bool) :
    Tracked { r with
      index := (effect work (r.index, r.disk)).2.1
      disk := (effect work (r.index, r.disk)).2.2
      busy } := by
  obtain ⟨hlinked, hjournal, hsettings⟩ := hwork r.disk
  have hschema : (effect work (r.index, r.disk)).2.1.schema = r.index.schema := congrArg Prod.fst hsettings
  refine { keyed := ?_, linked := hlinked, placed := fun call => (h.placed call).congr hsettings,
           owner := fun hclear => ?_ }
  · show (effect work (r.index, r.disk)).2.1.schema.KeyedBy α
    rw [hschema]
    exact h.keyed
  · obtain ⟨owner, howner, hkeeps⟩ := h.owner hclear
    exact ⟨owner, howner, hkeeps.congr hjournal hsettings rfl⟩

/-- While a call has the journal no other one has. -/
theorem others (h : r.Tracked) (hclear : r.clobbered = false) (hc : (r.calls c).owns = true)
    {call : Nat} (hne : call ≠ c) : (r.calls call).owns = false := by
  obtain ⟨owner, howner, -⟩ := h.owner hclear
  refine Bool.eq_false_iff.mpr fun hcall => hne ?_
  exact Option.some.inj (((howner call).mp hcall).symm.trans ((howner c).mp hc))

/-- Without a journal no call has it. -/
theorem idle (h : r.Tracked) (hclear : r.clobbered = false) (hnone : r.index.journal = none)
    (call : Nat) : (r.calls call).owns = false := by
  obtain ⟨owner, howner, hkeeps⟩ := h.owner hclear
  refine Bool.eq_false_iff.mpr fun hcall => ?_
  rw [(howner call).mp hcall] at hkeeps
  obtain ⟨journal, hsome, -⟩ := hkeeps
  rw [hnone] at hsome
  simp at hsome

/-- A call that has the journal has noted what was committed since it started. -/
theorem noted (h : r.Tracked) (hclear : r.clobbered = false) (hc : (r.calls c).owns = true) :
    List.Forall₂ (Edit.Encoded r.index.schema) (r.since c) (r.index.journal.getD []) := by
  obtain ⟨owner, howner, hkeeps⟩ := h.owner hclear
  rw [(howner c).mp hc] at hkeeps
  obtain ⟨journal, hsome, hall⟩ := hkeeps
  rwa [hsome]

/-- After the journal was taken or dropped no call has it, if none did but the one that did so. -/
theorem ends {i : Index} {d : Disk} {phase : Phase} {clobbered : Bool} (h : r.Tracked)
    (hlinked : i.Linked) (hjournal : i.journal = none) (hsettings : i.settings = r.index.settings)
    (hphase : phase.owns = false ∧ phase.Placed r.index)
    (hothers : clobbered = false → ∀ call, call ≠ c → (r.calls call).owns = false) :
    Tracked { r with
      index := i, disk := d, calls := Function.update r.calls c phase, clobbered } := by
  have hschema : i.schema = r.index.schema := congrArg Prod.fst hsettings
  refine { keyed := ?_, linked := hlinked
           placed := placed_update h.placed hsettings (hphase.2.congr hsettings)
           owner := fun hclear => ⟨none, fun call => ?_, hjournal⟩ }
  · show i.schema.KeyedBy α
    rw [hschema]
    exact h.keyed
  · simp only [reduceCtorEq, iff_false, Bool.not_eq_true]
    by_cases hc : call = c
    · rw [hc, Function.update_self]
      exact hphase.1
    · rw [Function.update_of_ne hc]
      exact hothers hclear call hc

/-- A call starts the journal if there is none. -/
theorem start (h : r.Tracked) (hc : r.calls c = .waiting) :
    Tracked { r.after c Index.startJournal (fun _ => .started) .answered with
      since := Function.update r.since c [] } := by
  have howns : (r.calls c).owns = false := by rw [hc]; rfl
  cases hjournal : r.index.journal with
  | none =>
    have heffect : effect Index.startJournal (r.index, r.disk) =
        (.ok (), ({ r.index with journal := some [] }, r.disk)) := by
      unfold Index.startJournal
      rw [effect_bind_ok (Index.effect_current _ _), if_neg (by simp [Index.isRebuilding, hjournal]),
        Index.effect_update]
    rw [after_ok heffect]
    refine { keyed := h.keyed, linked := h.linked.congr rfl rfl rfl
             placed := placed_update h.placed rfl trivial
             owner := fun hclear => ⟨some c, fun call => ?_, [], rfl, ?_⟩ }
    · by_cases hne : call = c
      · simp [hne, Phase.owns]
      · simp [Function.update_of_ne hne, h.idle hclear hjournal call, Ne.symm hne]
    · simp only [Function.update_self]
      exact .nil
  | some journal =>
    obtain ⟨e, heffect⟩ : ∃ e, effect Index.startJournal (r.index, r.disk) =
        (.error e, (r.index, r.disk)) := by
      unfold Index.startJournal
      rw [effect_bind_ok (Index.effect_current _ _), if_pos (by simp [Index.isRebuilding, hjournal])]
      exact ⟨_, rfl⟩
    rw [after_error heffect]
    refine { keyed := h.keyed, linked := h.linked, placed := placed_update h.placed rfl trivial
             owner := fun hclear => ?_ }
    obtain ⟨owner, howner, hkeeps⟩ := h.owner hclear
    refine ⟨owner, fun call => ?_, ?_⟩
    · rw [← howner call]
      by_cases hne : call = c
      · simp only [hne, Function.update_self, howns]
        rfl
      · simp only [Function.update_of_ne hne]
    · cases owner with
      | none => exact hkeeps
      | some call =>
        have hne : call ≠ c := by
          rintro rfl
          simp [(howner call).mpr rfl] at howns
        obtain ⟨noted, hsome, hall⟩ := hkeeps
        refine ⟨noted, hsome, ?_⟩
        simp only [Function.update_of_ne hne]
        exact hall

theorem swap {n : Nat} {w : Writer} (h : r.Tracked) (hc : r.calls c = .filled n w) :
    (r.after c (Index.swapIn n w) (fun (old, documents) => .swapped old documents)
      (.failed (some w) (some w.path) true)).Tracked := by
  have hpath : w.path = r.index.pathOf n := by
    have hplaced := h.placed c
    rwa [hc] at hplaced
  obtain ⟨hlinked, hjournal, hsettings⟩ := Index.swapIn_handles h.linked hpath r.disk
  refine h.ends hlinked hjournal hsettings ?_ fun hclear call hne =>
    h.others hclear (by rw [hc]; rfl) hne
  split <;> exact ⟨rfl, trivial⟩

theorem drop {taken : Bool} (h : r.Tracked) (hc : r.calls c = .failed none none taken) :
    Tracked { r.after c (Index.dropJournal .cancelled : IndexM Unit) (fun _ => .answered) .answered
      with clobbered := r.clobbered || (taken && r.index.isRebuilding) } := by
  refine h.ends (h.linked.congr rfl rfl rfl) rfl rfl ⟨rfl, trivial⟩ fun hclear call hne => ?_
  rw [Bool.or_eq_false_iff, Bool.and_eq_false_iff] at hclear
  obtain ⟨hclear, rfl | hjournal⟩ := hclear
  · exact h.others hclear (by rw [hc]; rfl) hne
  · exact h.idle hclear (by simpa [Index.isRebuilding] using hjournal) call

/-- A commit is noted in the journal, if there is one. -/
theorem commit {edits : List (Edit α)} {tx : Transaction} (h : r.Tracked)
    (htx : Edit.stageAll r.index.schema {} edits = .ok tx) {answer : Except IndexError Unit}
    {s : Index × Disk} (heffect : effect (Index.commit tx) (r.index, r.disk) = (answer, s)) :
    Tracked { r with index := s.1, disk := s.2, busy := false,
                     since := fun call => r.since call ++ (if answer.isOk then edits else []) } := by
  obtain ⟨changes, hchanges, hstaged⟩ := Edit.encoded_of_stageAll htx
  obtain ⟨answer', i', d', heffect', hlinked, hsettings, hnoted⟩ :=
    Index.commit_cases h.linked tx r.disk
  obtain ⟨rfl, rfl⟩ := Prod.mk.inj (heffect.symm.trans heffect')
  have hschema : i'.schema = r.index.schema := congrArg Prod.fst hsettings
  refine { keyed := ?_, linked := hlinked, placed := fun call => (h.placed call).congr hsettings,
           owner := fun hclear => ?_ }
  · show i'.schema.KeyedBy α
    rw [hschema]
    exact h.keyed
  · obtain ⟨owner, howner, hkeeps⟩ := h.owner hclear
    refine ⟨owner, howner, ?_⟩
    rcases hnoted with ⟨e, rfl, hjournal⟩ | ⟨rfl, hjournal⟩
    · have hsince : (fun call => r.since call ++
          if (Except.error e : Except IndexError Unit).isOk = true then edits else []) = r.since :=
        funext fun call => List.append_nil _
      exact hkeeps.congr hjournal hsettings hsince
    · cases owner with
      | none =>
        show i'.journal = none
        rw [hjournal, show r.index.journal = none from hkeeps]
        rfl
      | some call =>
        obtain ⟨journal, hsome, hall⟩ := hkeeps
        refine ⟨journal ++ tx.changes, ?_, ?_⟩
        · show i'.journal = _
          rw [hjournal, hsome]
          rfl
        · show List.Forall₂ (Edit.Encoded i'.schema) (r.since call ++ edits) _
          rw [hschema, hchanges]
          exact List.rel_append hall hstaged

theorem proceed (h : r.Tracked) (hr : r.proceed c = some r') : r'.Tracked := by
  unfold Overlap.proceed at hr
  split at hr
  case h_1 hc =>
    cases hr
    exact h.start hc
  case h_2 hc =>
    cases hr
    refine h.relinks (quiet_makeGeneration.relinks h.linked) (fun b s hmade => ?_) ?_ <;> rw [hc]
    · exact ⟨rfl, makeGeneration_ok h.linked hmade⟩
    · exact ⟨rfl, trivial⟩
  case h_3 n path hc =>
    cases hr
    refine h.relinks ((Index.quiet_startBuilding n path).relinks h.linked) (fun b s hbuilt => ?_) ?_ <;>
      rw [hc]
    · have hplaced : path = r.index.pathOf n := by
        have hplaced := h.placed c
        rwa [hc] at hplaced
      obtain ⟨-, hnumber, -, hpath, -⟩ := Index.startBuilding_ok hbuilt
      refine ⟨rfl, ?_⟩
      rw [Phase.Placed, hpath, hnumber, hplaced]
    · exact ⟨rfl, trivial⟩
  case h_4 b hc =>
    cases hr
    refine h.relinks ((Index.quiet_applyTo _ _).relinks h.linked) (fun w s hcommitted => ?_) ?_ <;>
      rw [hc]
    · have hplaced := h.placed c
      rw [hc] at hplaced
      obtain ⟨-, rfl, -⟩ := Index.applyTo_ok hcommitted
      exact ⟨rfl, hplaced⟩
    · exact ⟨rfl, trivial⟩
  case h_5 n w hc =>
    split_ifs at hr
    cases hr
    exact h.swap hc
  case h_6 w path taken hc =>
    cases hr
    refine h.relinks ((Index.quiet_onDisk _).relinks h.linked) (fun _ _ _ => ?_) ?_ <;> rw [hc] <;>
      cases taken <;> exact ⟨rfl, trivial⟩
  case h_7 path taken hc =>
    cases hr
    refine h.relinks ((Index.quiet_onDisk _).relinks h.linked) (fun _ _ _ => ?_) ?_ <;> rw [hc] <;>
      cases taken <;> exact ⟨rfl, trivial⟩
  case h_8 taken hc =>
    cases hr
    exact h.drop hc
  case h_9 old documents hc =>
    cases hr
    refine h.relinks ?_ (fun _ _ _ => ?_) ?_
    · refine (Index.quiet_removeRetired old).relinks_bind h.linked fun _ _ _ _ d => ?_
      exact ⟨h.linked.congr rfl rfl rfl, rfl, rfl⟩
    · rw [hc]
      exact ⟨rfl, trivial⟩
    · rw [hc]
      exact ⟨rfl, trivial⟩
  case h_10 => cases hr

/-- The fill of a generation changes nothing that others see. -/
theorem fill {b : Building} {phase : Phase} (h : r.Tracked) (hc : r.calls c = .building b)
    (howns : phase.owns = true) (hplaced : phase.Placed r.index) :
    Tracked { r with calls := Function.update r.calls c phase } := by
  have hkept : phase.owns = (r.calls c).owns := by
    rw [hc, howns]
    rfl
  have hquiet : Index.Relinks r.index (pure () : IndexM Unit) :=
    (Index.quiet_pure ()).relinks h.linked
  exact h.relinks hquiet (fun _ _ _ => ⟨hkept, hplaced⟩) ⟨hkept, hplaced⟩

/-- **An act keeps track** of who has the journal. -/
theorem act {a : Act α} (h : r.Tracked) (ha : r.act a = some r') : r'.Tracked := by
  unfold Overlap.act at ha
  cases a with
  | begin =>
    simp only at ha
    split_ifs at ha
    cases ha
    refine h.elsewhere (Index.Quiet.relinks (Index.quiet_current fun i => ?_) h.linked) _
    split_ifs
    · exact Index.quiet_current fun i => Index.quiet_throw _
    · exact Index.quiet_pure _
  | commit edits =>
    simp only at ha
    split_ifs at ha
    split at ha
    · rename_i tx htx
      cases ha
      exact h.commit htx rfl
    · cases ha
  | rollback =>
    simp only at ha
    split_ifs at ha
    cases ha
    exact h.elsewhere (fun d => ⟨h.linked.congr rfl rfl rfl, rfl, rfl⟩) false
  | «open» =>
    simp only at ha
    split_ifs at ha
    cases ha
    exact h.elsewhere (Index.relinks_open h.linked) r.busy
  | close =>
    simp only at ha
    split_ifs at ha
    cases ha
    exact h.elsewhere (Index.relinks_close h.linked) r.busy
  | add call documents =>
    simp only at ha
    split at ha
    · rename_i b hc
      have hplaced := h.placed call
      rw [hc] at hplaced
      cases ha
      exact h.fill hc rfl hplaced
    · cases ha
  | giveUp call =>
    simp only at ha
    split at ha
    · rename_i b hc
      cases ha
      exact h.fill hc rfl trivial
    · cases ha
  | proceed call => exact h.proceed ha

theorem play {acts : List (Act α)} (h : r.Tracked) (hplay : r.play acts = some r') : r'.Tracked := by
  induction acts generalizing r with
  | nil =>
    cases hplay
    exact h
  | cons a acts ih =>
    rw [Overlap.play, List.foldlM_cons] at hplay
    obtain ⟨r₁, hact, hrest⟩ := Option.bind_eq_some_iff.mp hplay
    exact ih (h.act hact) hrest

/-- Before anything happens there is nothing to keep track of. -/
theorem new {config : Config} {i : Index} (hα : Indexed.Consistent α)
    (hi : Index.new α config = .ok i) (d : Disk) : Tracked ({ index := i, disk := d } : Overlap α) := by
  obtain ⟨schema, hschema, hnew⟩ := bind_eq_ok.mp hi
  cases hnew
  exact {
    keyed := (Schema.describes_of_describe hschema).keyedBy hα
    linked := .inl ⟨rfl, rfl⟩
    placed := fun _ => trivial
    owner := fun _ => ⟨none, fun _ => by simp [Phase.owns], rfl⟩ }

end Tracked

omit [Indexed α] in
theorem after_eq {β : Type} {r : Overlap α} {c : Nat} {work : IndexM β} {done : β → Phase}
    {failed phase : Phase} (h : (r.after c work done failed).calls c = phase) :
    (∃ b s, effect work (r.index, r.disk) = (.ok b, s) ∧ done b = phase) ∨ failed = phase := by
  rcases heffect : effect work (r.index, r.disk) with ⟨e | b, s⟩
  · rw [after_error heffect] at h
    exact .inr (by simpa using h)
  · rw [after_ok heffect] at h
    exact .inl ⟨b, s, rfl, by simpa using h⟩

omit [Indexed α] in
/-- A call has swapped its generation in only if it did so after it had filled it. -/
theorem swapIn_of_swapped {r r' : Overlap α} {c old count : Nat}
    (hproceed : r.proceed c = some r') (hswapped : r'.calls c = .swapped old count) :
    ∃ n w, r.calls c = .filled n w ∧
      effect (Index.swapIn n w) (r.index, r.disk) = (.ok (old, count), (r'.index, r'.disk)) := by
  unfold proceed at hproceed
  split at hproceed
  case h_5 n w hc =>
    split_ifs at hproceed
    cases hproceed
    rcases after_eq hswapped with ⟨⟨old', count'⟩, s, heffect, hdone⟩ | hfailed
    · cases hdone
      refine ⟨n, w, hc, ?_⟩
      rw [heffect, after_ok heffect]
    · cases hfailed
  case h_10 => cases hproceed
  case h_1 =>
    cases hproceed
    have hafter : (r.after c Index.startJournal (fun _ => .started) .answered).calls c =
        .swapped old count := hswapped
    rcases after_eq hafter with ⟨b, s, -, hdone⟩ | hfailed
    · cases hdone
    · cases hfailed
  case h_8 =>
    cases hproceed
    have hafter : (r.after c (Index.dropJournal .cancelled : IndexM Unit) (fun _ => .answered)
        .answered).calls c = .swapped old count := hswapped
    rcases after_eq hafter with ⟨b, s, -, hdone⟩ | hfailed
    · cases hdone
    · cases hfailed
  -- no other step ends like this
  all_goals
    cases hproceed
    rcases after_eq hswapped with ⟨b, s, -, hdone⟩ | hfailed
    · cases hdone
    · cases hfailed

/-- **Nothing is missing from the generation that a call makes live**, whatever other calls,
transactions and the closing and opening of the index did in the meantime, unless one of the calls
dropped the journal of another one. What an edit did that was committed since the call started is
there, if no later one had the same key. (A removal under a blank id does nothing at all.) -/
theorem committed_present {config : Config} {i : Index} {d : Disk} (hα : Indexed.Consistent α)
    (hi : Index.new α config = .ok i) {acts : List (Act α)} {r r' : Overlap α}
    (hplay : ({ index := i, disk := d } : Overlap α).play acts = some r)
    (hclear : r.clobbered = false) {c old count : Nat} (hproceed : r.proceed c = some r')
    (hswapped : r'.calls c = .swapped old count) :
    ∃ n w l, r.calls c = .filled n w ∧ r'.index.live = some l ∧ l.directory.current = n ∧
      l.content.size = count ∧ ∀ before e after, r.since c = before ++ e :: after →
        (∀ e' ∈ after, e'.key ≠ e.key) → (e.left? = none → Text.isBlank e.key = false) →
        e.Present r'.index.schema l.content.documents := by
  have htracked : r.Tracked := (Tracked.new hα hi d).play hplay
  obtain ⟨n, w, hc, hswap⟩ := swapIn_of_swapped hproceed hswapped
  have hschema : r'.index.schema = r.index.schema := by
    have hpath : w.path = r.index.pathOf n := by
      have hplaced := htracked.placed c
      rwa [hc] at hplaced
    have hhandles := Index.swapIn_handles htracked.linked hpath r.disk
    rw [hswap] at hhandles
    exact congrArg Prod.fst hhandles.2.2
  obtain ⟨l, hlive, hcurrent, hcount, hreplayed⟩ := Index.swapIn_replays hswap
  refine ⟨n, w, l, hc, hlive, hcurrent, hcount.symm, fun before e after hsince hlast hkey => ?_⟩
  have hnoted := htracked.noted hclear (by rw [hc]; rfl)
  rw [hsince] at hnoted
  have hsome : r.index.journal.getD [] ≠ [] := by
    intro hnil
    rw [hnil] at hnoted
    simpa using hnoted.length_eq
  rw [hreplayed hsome, hschema]
  exact Edit.present_of_last htracked.keyed hnoted hlast hkey

/-! ### Runs -/

/-- The closed index of records on an empty disk. -/
def records : Overlap Record :=
  { index := { schema := Record.schema, priority := 60 }, disk := {} }

/-- A call is ready for its swap, the index is closed, and the swap fails. The index is opened, and
a second call starts before the first one has dropped the journal. -/
def lateActs : List (Act Record) := [
  .open, .proceed 1, .proceed 1, .proceed 1, .proceed 1, .close, .proceed 1, .proceed 1, .proceed 1,
  .open, .proceed 2, .proceed 2, .proceed 2, .begin, .commit [.put (.of "a" "x")],
  .proceed 1, .proceed 2]

/-- The same, with nothing left to drop when the second call starts. -/
def orderlyActs : List (Act Record) := [
  .open, .proceed 1, .proceed 1, .proceed 1, .proceed 1, .close, .proceed 1, .proceed 1, .proceed 1,
  .open, .proceed 1, .proceed 2, .proceed 3, .proceed 2, .proceed 2, .begin,
  .commit [.put (.of "a" "x"), .put (.of "b" "x"), .remove "a"], .proceed 2]

theorem committed_present_of_records : ∃ r r' l, records.play orderlyActs = some r ∧
    r.clobbered = false ∧ r.proceed 2 = some r' ∧ r'.calls 2 = .swapped 1 1 ∧
    r'.index.live = some l ∧
    (Edit.put (Record.of "b" "x")).Present r'.index.schema l.content.documents ∧
    (Edit.remove "a" : Edit Record).Present r'.index.schema l.content.documents := by
  have hrun : ((records.play orderlyActs).bind fun r => (r.proceed 2).map fun r' =>
      (r.clobbered, r'.calls 2, r.since 2)) =
      some (false, .swapped 1 1, [.put (.of "a" "x"), .put (.of "b" "x"), .remove "a"]) := by with_unfolding_all rfl
  obtain ⟨r, hplay, hrest⟩ := Option.bind_eq_some_iff.mp hrun
  obtain ⟨r', hproceed, hends⟩ := Option.map_eq_some_iff.mp hrest
  obtain ⟨hclear, hends⟩ := Prod.mk.inj hends
  obtain ⟨hswapped, hsince⟩ := Prod.mk.inj hends
  have hnew : Index.new Record {} = .ok records.index := rfl
  obtain ⟨n, w, l, -, hlive, -, -, hpresent⟩ := committed_present (EntityKind.consistent .record)
    hnew hplay hclear hproceed hswapped
  refine ⟨r, r', l, hplay, hclear, hproceed, hswapped, hlive, ?_, ?_⟩
  · exact hpresent [.put (.of "a" "x")] _ [.remove "a"] hsince (by decide) (by simp [Edit.left?])
  · exact hpresent [.put (.of "a" "x"), .put (.of "b" "x")] _ [] hsince (by simp) (by decide)

/-- **What was committed is lost** where a call drops the journal of another one: the record that
was put since the second call started is not in the generation that this call makes live. -/
theorem committed_lost : ∃ r r' l, records.play lateActs = some r ∧ r.proceed 2 = some r' ∧
    r'.calls 2 = .swapped 1 0 ∧ r.since 2 = [.put (.of "a" "x")] ∧ r'.index.live = some l ∧
    ¬ (Edit.put (Record.of "a" "x")).Present r'.index.schema l.content.documents := by
  have hrun : ((records.play lateActs).bind fun r => (r.proceed 2).map fun r' =>
      (r'.calls 2, r.since 2, r'.index.live.map (·.content.documents))) =
      some (.swapped 1 0, [.put (.of "a" "x")], some []) := by with_unfolding_all rfl
  obtain ⟨r, hplay, hrest⟩ := Option.bind_eq_some_iff.mp hrun
  obtain ⟨r', hproceed, hends⟩ := Option.map_eq_some_iff.mp hrest
  obtain ⟨hswapped, hends⟩ := Prod.mk.inj hends
  obtain ⟨hsince, hdocuments⟩ := Prod.mk.inj hends
  obtain ⟨l, hlive, hnone⟩ := Option.map_eq_some_iff.mp hdocuments
  refine ⟨r, r', l, hplay, hproceed, hswapped, hsince, hlive, ?_⟩
  rintro ⟨d, hd, -⟩
  rw [hnone] at hd
  exact List.not_mem_nil hd

end Overlap
end Codebook
