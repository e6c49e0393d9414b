/-
# A rebuild among transactions

An index is rebuilt from its store while transactions write both. Each transaction first writes the
store, edit by edit, and later commits the same edits to the index; what was written and is not
committed yet is kept in the order in which the store was written. A transaction commits only if for
every key its edits come before what others have written and not committed. The rebuild goes on in
steps, between which anything of this can happen; it reads the store at some moment after it has
started.

At every moment what the next generation will hold under a key is what the store held there when it
was read, then the journal, and then what is still to be committed; and this comes out as what the
store holds now (`Race.Sound`).

Key definitions: `Stage`, `Race`, `Race.Step`, `Race.Run`, `Race.Sound`.
Key theorems: `Race.Sound.step`, `Race.Sound.mirrors`, `Race.Run.counted`.
-/
import Codebook.Proofs.Building
import Codebook.Proofs.Edits
import Codebook.Proofs.Entities
import Mathlib.Logic.Relation

namespace Codebook

/-- How far a rebuild is. -/
inductive Stage (α : Type) where
  /-- It has not started. -/
  | waiting
  /-- The journal is on. -/
  | started
  /-- There is a directory for the new generation. -/
  | created (number : Nat) (path : Path)
  /-- The new generation has a writer. -/
  | empty (b : Building)
  /-- The store was read, and these pages are still to be added. -/
  | filling (b : Building) (pages : List (Except StoreError (List α)))
  /-- What was added is committed. -/
  | filled (number : Nat) (w : Writer)
  /-- The new generation is live, with so many documents, and the old one is still there. -/
  | swapped (old documents : Nat)
  /-- The old generation is removed. -/
  | removed (documents : Nat)
  /-- The rebuild has answered. -/
  | finished (documents : Nat)

namespace Stage

variable {α : Type}

/-- Whether what is committed is also kept in the journal. -/
def isRunning : Stage α → Bool
  | started | created .. | empty _ | filling .. | filled .. => true
  | waiting | swapped .. | removed _ | finished _ => false

/-- The number of documents of the new generation, once it is live. -/
def count? : Stage α → Option Nat
  | swapped _ n | removed n | finished n => some n
  | _ => none

end Stage

/-- An index, its store, and what is going on. -/
structure Race (α : Type) where
  /-- The index. -/
  index : Index
  /-- The disk. -/
  disk : Disk
  /-- The store. -/
  store : MemoryStore α
  /-- What transactions have written to the store and not committed to the index, in order. -/
  written : List (Nat × Edit α) := []
  /-- The transaction that has the writer of the index. -/
  holder : Option Nat := none
  /-- How far the rebuild is. -/
  stage : Stage α := .waiting

namespace Race

variable {α : Type} [Indexed α]

/-- The edits of a transaction. -/
def editsOf (t : Nat) (written : List (Nat × Edit α)) : List (Edit α) :=
  (written.filter fun e => e.1 = t).map Prod.snd

/-- What other transactions have written. -/
def without (t : Nat) (written : List (Nat × Edit α)) : List (Nat × Edit α) :=
  written.filter fun e => e.1 ≠ t

/-- The edits of all transactions. -/
def edits (written : List (Nat × Edit α)) : List (Edit α) :=
  written.map Prod.snd

/-- The same with an index and a disk as some work leaves them. -/
def after (r : Race α) (s : Index × Disk) : Race α :=
  { r with index := s.1, disk := s.2 }

/-- What can happen next. -/
inductive Step : Race α → Race α → Prop where
  /-- A transaction writes the store. -/
  | write (r : Race α) (t : Nat) (e : Edit α) (hkey : Text.isBlank e.key = false) :
    Step r { r with store := e.mirror r.store, written := r.written ++ [(t, e)] }
  /-- A transaction gets the writer of the index. -/
  | begin (r : Race α) (t : Nat) (tx : Transaction) (s : Index × Disk) (hfree : r.holder = none)
    (h : effect Index.begin (r.index, r.disk) = (.ok tx, s)) :
    Step r { r.after s with holder := some t }
  /-- A transaction commits what it has written, key by key in the order of the store. -/
  | commit (r : Race α) (t : Nat) (staged : List (Edit α)) (tx : Transaction) (s : Index × Disk)
    (hholder : r.holder = some t)
    (hstaged : ∀ key, Edit.under key staged = Edit.under key (editsOf t r.written))
    (hfirst : ∀ key, Edit.under key (edits r.written) =
      Edit.under key (editsOf t r.written) ++ Edit.under key (edits (without t r.written)))
    (htx : Edit.stageAll r.index.schema {} staged = .ok tx)
    (h : effect (Index.commit tx) (r.index, r.disk) = (.ok (), s)) :
    Step r { r.after s with written := without t r.written, holder := none }
  /-- A transaction gives the writer back without a commit. -/
  | rollback (r : Race α) (s : Index × Disk)
    (h : effect Index.rollback (r.index, r.disk) = (.ok (), s)) :
    Step r { r.after s with holder := none }
  /-- The rebuild starts. -/
  | start (r : Race α) (s : Index × Disk) (hstage : r.stage = .waiting)
    (h : effect Index.startJournal (r.index, r.disk) = (.ok (), s)) :
    Step r { r.after s with stage := .started }
  /-- Somebody asks for another rebuild in the meantime. -/
  | again (r : Race α) (fill : Building → IndexM Building) (answer : Except IndexError Nat)
    (s : Index × Disk) (hunderway : r.index.isRebuilding = true)
    (h : effect (Index.rebuild fill) (r.index, r.disk) = (answer, s)) : Step r (r.after s)
  /-- The directory of the new generation is made. -/
  | create (r : Race α) (dir : IndexDirectory) (n : Nat) (s s' : Index × Disk)
    (hstage : r.stage = .started)
    (hdir : effect Index.liveDirectory (r.index, r.disk) = (.ok dir, s))
    (h : effect (Index.onDisk dir.create) s = (.ok n, s')) :
    Step r { r.after s' with stage := .created n (dir.generationPath n) }
  /-- The new generation gets its content and its writer. -/
  | build (r : Race α) (n : Nat) (path : Path) (b : Building) (s : Index × Disk)
    (hstage : r.stage = .created n path)
    (h : effect (Index.startBuilding n path) (r.index, r.disk) = (.ok b, s)) :
    Step r { r.after s with stage := .empty b }
  /-- The store is read. -/
  | snapshot (r : Race α) (b : Building) (pages : List (Except StoreError (List α)))
    (hstage : r.stage = .empty b)
    (h : r.store.source.pages r.index.config.rebuildPageSize = .ok pages) :
    Step r { r with stage := .filling b pages }
  /-- A page is added. -/
  | add (r : Race α) (b b' : Building) (page : List α) (pages : List (Except StoreError (List α)))
    (s : Index × Disk) (hstage : r.stage = .filling b (.ok page :: pages))
    (h : effect (Index.addEntities b page) (r.index, r.disk) = (.ok b', s)) :
    Step r { r.after s with stage := .filling b' pages }
  /-- What was added is committed. -/
  | complete (r : Race α) (b : Building) (w : Writer) (s : Index × Disk)
    (hstage : r.stage = .filling b [])
    (h : effect (Index.commitBuilding b) (r.index, r.disk) = (.ok w, s)) :
    Step r { r.after s with stage := .filled b.number w }
  /-- The new generation becomes live, while no transaction has the writer. -/
  | swap (r : Race α) (n old documents : Nat) (w : Writer) (s : Index × Disk)
    (hfree : r.holder = none) (hstage : r.stage = .filled n w)
    (h : effect (Index.swapIn n w) (r.index, r.disk) = (.ok (old, documents), s)) :
    Step r { r.after s with stage := .swapped old documents }
  /-- The old generation is removed. -/
  | retire (r : Race α) (old documents : Nat) (s : Index × Disk)
    (hstage : r.stage = .swapped old documents)
    (h : effect (Index.removeRetired old) (r.index, r.disk) = (.ok (), s)) :
    Step r { r.after s with stage := .removed documents }
  /-- The rebuild answers. -/
  | finish (r : Race α) (documents : Nat) (hstage : r.stage = .removed documents) :
    Step r { r with
      index := { r.index with statistics := r.index.statistics.recordRebuild documents }
      stage := .finished documents }

/-- Any number of steps. -/
def Run : Race α → Race α → Prop :=
  Relation.ReflTransGen Step

/-! ### The invariant -/

/-- The edits lead from what is under each key at first to what the store has there. -/
def Brings (first? : String → Option α) (edits : List (Edit α)) (m : MemoryStore α) : Prop :=
  ∀ key, Edit.settled key (first? key) edits = m.get? key

/-- The journal holds what edits were staged as; without a journal there are none. -/
def Journaled (s : Schema) (edits : List (Edit α)) : Option (List Change) → Prop
  | none => edits = []
  | some journal => List.Forall₂ (Edit.Staged s) edits journal

theorem Journaled.staged {s : Schema} {edits : List (Edit α)} {journal? : Option (List Change)}
    (h : Journaled s edits journal?) : List.Forall₂ (Edit.Staged s) edits (journal?.getD []) := by
  cases journal? with
  | none =>
    rw [show edits = [] from h]
    exact .nil
  | some journal => exact h

/-- What the rebuild has made so far beside the live generation. -/
def Beside (i : Index) (d : Disk) (l : Live) : Stage α → Prop
  | .created n path => path = l.directory.generationPath n ∧ l.directory.current < n
  | .empty b => Index.Draft i d l b.number b.writer ∧ b.documents = []
  | .filling b _ => Index.Draft i d l b.number b.writer
  | .filled n w => Index.Draft i d l n w
  | .swapped old _ => old ≠ l.directory.current
  | _ => True

/-- From what the edits lead to the store: after it was read, from its entities at that time, of
which some are read and some are still on pages; after the swap, from what the index holds. -/
def From (s : Schema) (l : Live) (first? : String → Option α) : Stage α → Prop
  | .filling b pages => ∃ (m : MemoryStore α) (read : List α) (unread : List (List α)), m.Sound ∧
    (∀ a ∈ m.toList, Text.isBlank (Indexed.id a) = false) ∧ first? = m.get? ∧
    m.toList = read ++ unread.flatten ∧ pages = unread.map .ok ∧
    List.Forall₂ (Document.Of s) read b.documents
  | .filled _ w => ∃ m : MemoryStore α, m.Sound ∧ first? = m.get? ∧
    List.Forall₂ (Document.Of s) m.toList w.documents
  | .swapped .. | .removed _ | .finished _ => Mirrors s l.content.documents first?
  | _ => True

/-- What holds at every moment, with what is live, and with what the edits in the journal and those
still to be committed start from. -/
structure Holds (r : Race α) (l : Live) (w : Writer) (first? : String → Option α)
    (journaled : List (Edit α)) : Prop where
  serving : r.index.Serving r.disk l w
  journal : Journaled r.index.schema journaled r.index.journal
  running : r.index.isRebuilding = r.stage.isRunning
  brings : Brings first? (journaled ++ edits r.written) r.store
  beside : Beside r.index r.disk l r.stage
  start : From r.index.schema l first? r.stage

/-- What holds at every moment. -/
structure Sound (r : Race α) : Prop where
  keyed : r.index.schema.KeyedBy α
  store : r.store.Sound
  named : ∀ a ∈ r.store.toList, Text.isBlank (Indexed.id a) = false
  keys : ∀ e ∈ edits r.written, Text.isBlank e.key = false
  holds : ∃ l w first? journaled, r.Holds l w first? journaled

theorem Brings.self {first? : String → Option α} {edits : List (Edit α)} {m : MemoryStore α}
    (h : Brings first? edits m) : Brings m.get? edits m := by
  intro key
  rw [← h key, Edit.settled_twice]

theorem Brings.congr {first? : String → Option α} {edits more : List (Edit α)} {m : MemoryStore α}
    (h : Brings first? edits m) (he : ∀ key, Edit.under key more = Edit.under key edits) :
    Brings first? more m := fun key => (Edit.settled_congr (he key) _).trans (h key)

theorem Brings.shift {first? : String → Option α} {edits more : List (Edit α)} {m : MemoryStore α}
    (h : Brings first? (edits ++ more) m) :
    Brings (fun key => Edit.settled key (first? key) edits) more m := by
  intro key
  rw [← Edit.settled_append, h key]

theorem Brings.write {first? : String → Option α} {edits : List (Edit α)} {m : MemoryStore α}
    (h : Brings first? edits m) (hm : m.Sound) (e : Edit α) :
    Brings first? (edits ++ [e]) (e.mirror m) := by
  intro key
  rw [Edit.settled_append, h key, Edit.get?_mirror hm]
  rfl

/-- What is committed may come before what others have written, since this is so under every key. -/
theorem Brings.commit {first? : String → Option α} {journaled staged : List (Edit α)} {t : Nat}
    {written : List (Nat × Edit α)} {m : MemoryStore α}
    (h : Brings first? (journaled ++ edits written) m)
    (hstaged : ∀ key, Edit.under key staged = Edit.under key (editsOf t written))
    (hfirst : ∀ key, Edit.under key (edits written) =
      Edit.under key (editsOf t written) ++ Edit.under key (edits (without t written))) :
    Brings first? (journaled ++ staged ++ edits (without t written)) m := by
  refine h.congr fun key => ?_
  rw [Edit.under_append, Edit.under_append, Edit.under_append, hstaged, hfirst, List.append_assoc]

omit [Indexed α] in
theorem Beside.imp {i i' : Index} {d d' : Disk} {l l' : Live} {stage : Stage α}
    (h : Beside i d l stage) (hl : l'.directory = l.directory)
    (hdraft : ∀ n w, Index.Draft i d l n w → Index.Draft i' d' l' n w) : Beside i' d' l' stage := by
  cases stage with
  | created n path => rwa [Beside, hl]
  | empty b => exact ⟨hdraft _ _ h.1, h.2⟩
  | filling b pages => exact hdraft _ _ h
  | filled n w => exact hdraft _ _ h
  | swapped old documents => rwa [Beside, hl]
  | waiting | started | removed | finished => trivial

theorem From.live {s : Schema} {l l' : Live} {first? first?' : String → Option α} {stage : Stage α}
    (h : From s l first? stage) (hrunning : stage.isRunning = true → first?' = first?)
    (hmirrors : stage.isRunning = false → Mirrors s l.content.documents first? →
      Mirrors s l'.content.documents first?') : From s l' first?' stage := by
  cases stage with
  | filling b pages => rw [hrunning rfl]; exact h
  | filled n w => rw [hrunning rfl]; exact h
  | swapped old documents => exact hmirrors rfl h
  | removed documents => exact hmirrors rfl h
  | finished documents => exact hmirrors rfl h
  | waiting | started | created | empty => trivial

variable {r : Race α}

/-! ### Steps of transactions -/

theorem Sound.write (h : r.Sound) (t : Nat) (e : Edit α) (hkey : Text.isBlank e.key = false) :
    Sound { r with store := e.mirror r.store, written := r.written ++ [(t, e)] } := by
  have hedits : edits (r.written ++ [(t, e)]) = edits r.written ++ [e] := List.map_append
  have hstore := Edit.sound_mirror h.store e
  refine { keyed := h.keyed, store := hstore, named := fun a ha => ?_, keys := fun e' he' => ?_,
           holds := ?_ }
  · have hget := hstore.mem_toList.mp ha
    rw [Edit.get?_mirror h.store, Edit.settle] at hget
    split_ifs at hget with hid
    · rw [hid, hkey]
    · exact h.named a (h.store.mem_toList.mpr hget)
  · rw [hedits, List.mem_append, List.mem_singleton] at he'
    rcases he' with he' | rfl
    · exact h.keys e' he'
    · exact hkey
  · obtain ⟨l, w, first?, journaled, hr⟩ := h.holds
    refine ⟨l, w, first?, journaled, { hr with brings := ?_ }⟩
    show Brings first? (journaled ++ edits (r.written ++ [(t, e)])) _
    rw [hedits, ← List.append_assoc]
    exact hr.brings.write h.store e

/-- Counters and who has the writer do not matter. -/
theorem Sound.relabel (h : r.Sound) {i : Index} (hl : i.live = r.index.live)
    (hw : i.writer = r.index.writer) (hs : i.settings = r.index.settings)
    (hj : i.journal = r.index.journal) (holder : Option Nat) :
    Sound { r.after (i, r.disk) with holder } := by
  obtain ⟨hschema, hconfig⟩ := Prod.mk.inj hs
  have hschema : i.schema = r.index.schema := hschema
  obtain ⟨l, w, first?, journaled, hr⟩ := h.holds
  refine { keyed := hschema ▸ h.keyed, store := h.store, named := h.named, keys := h.keys,
           holds := ⟨l, w, first?, journaled, ?_⟩ }
  exact {
    serving := hr.serving.congr hl hw hschema hconfig
    journal := by
      show Journaled i.schema journaled i.journal
      rw [hschema, hj]
      exact hr.journal
    running := by
      show i.journal.isSome = _
      rw [hj]
      exact hr.running
    brings := hr.brings
    beside := hr.beside.imp rfl fun n v hd => hd.keep hschema rfl fun _ _ _ hn => hn
    start := by
      show From i.schema l first? r.stage
      rw [hschema]
      exact hr.start }

omit [Indexed α] in
theorem mem_edits_of_editsOf {t : Nat} {written : List (Nat × Edit α)} {e : Edit α}
    (h : e ∈ editsOf t written) : e ∈ edits written := by
  obtain ⟨x, hx, rfl⟩ := List.mem_map.mp h
  exact List.mem_map_of_mem (List.mem_filter.mp hx).1

omit [Indexed α] in
theorem mem_edits_of_without {t : Nat} {written : List (Nat × Edit α)} {e : Edit α}
    (h : e ∈ edits (without t written)) : e ∈ edits written := by
  obtain ⟨x, hx, rfl⟩ := List.mem_map.mp h
  exact List.mem_map_of_mem (List.mem_filter.mp hx).1

theorem Sound.staged (h : r.Sound) {t : Nat} {staged : List (Edit α)} {tx : Transaction}
    (hstaged : ∀ key, Edit.under key staged = Edit.under key (editsOf t r.written))
    (htx : Edit.stageAll r.index.schema {} staged = .ok tx) :
    List.Forall₂ (Edit.Staged r.index.schema) staged tx.changes := by
  have hkeys : ∀ e ∈ staged, Text.isBlank e.key = false := by
    intro e he
    have hmem : e ∈ Edit.under e.key staged := List.mem_filter.mpr ⟨he, by simp⟩
    rw [hstaged] at hmem
    exact h.keys e (mem_edits_of_editsOf (List.mem_filter.mp hmem).1)
  obtain ⟨changes, hchanges, hall⟩ := Edit.staged_of_stageAll hkeys htx
  rw [List.nil_append] at hchanges
  rwa [hchanges]

section

variable {l : Live} {w : Writer} {first? : String → Option α} {journaled staged : List (Edit α)}
  {changes : List Change} {i : Index} {d : Disk} {g : Generation} {t : Nat}

omit [Indexed α] in
theorem Beside.commit {stage : Stage α} (hs : r.index.Serving r.disk l w)
    (h : Beside r.index r.disk l stage) (hc : Index.Committed r.index r.disk l w changes i d g) :
    Beside i d { l with content := g } stage := by
  refine h.imp rfl fun n v hd => hd.keep (congrArg Prod.fst hc.settings) rfl fun q m hq hm => ?_
  rw [hc.others q ?_, hm]
  rcases hq with rfl | rfl
  · exact hd.ne hs _ _
  · exact hd.ne hs _ _

/-- Without a journal, what is committed goes into the index, and what it leaves there is what the
edits still to be committed start from. -/
theorem Holds.commit_idle (h : r.Holds l w first? journaled) (hs : r.index.schema.KeyedBy α)
    (hnone : r.index.journal = none)
    (hstaged : ∀ key, Edit.under key staged = Edit.under key (editsOf t r.written))
    (hfirst : ∀ key, Edit.under key (edits r.written) =
      Edit.under key (editsOf t r.written) ++ Edit.under key (edits (without t r.written)))
    (hall : List.Forall₂ (Edit.Staged r.index.schema) staged changes)
    (hc : Index.Committed r.index r.disk l w changes i d g) :
    Holds { r.after (i, d) with written := without t r.written, holder := none }
      { l with content := g } { w with documents := g.documents }
      (fun key => Edit.settled key (first? key) staged) [] := by
  have hempty : journaled = [] := by simpa only [Journaled, hnone] using h.journal
  have hidle : r.stage.isRunning = false := by rw [← h.running, Index.isRebuilding, hnone]; rfl
  have hstill : i.journal = none := by rw [hc.journal, hnone]; rfl
  have hschema : i.schema = r.index.schema := congrArg Prod.fst hc.settings
  subst hempty
  refine {
    serving := hc.serving
    journal := ?_
    running := ?_
    brings := (h.brings.commit hstaged hfirst).shift
    beside := h.beside.commit h.serving hc
    start := ?_ }
  · show Journaled i.schema [] i.journal
    rw [hstill]
    rfl
  · show i.journal.isSome = r.stage.isRunning
    rw [hstill, hidle]
    rfl
  · show From i.schema _ _ r.stage
    rw [hschema]
    refine h.start.live (fun hrunning => by simp [hidle] at hrunning) fun _ hmirrors => ?_
    rw [hc.documents]
    exact hmirrors.applyChanges hs hall

/-- With a journal, what is committed goes to its end, and the rebuild has not seen it. -/
theorem Holds.commit_running (h : r.Holds l w first? journaled) {journal : List Change}
    (hsome : r.index.journal = some journal)
    (hstaged : ∀ key, Edit.under key staged = Edit.under key (editsOf t r.written))
    (hfirst : ∀ key, Edit.under key (edits r.written) =
      Edit.under key (editsOf t r.written) ++ Edit.under key (edits (without t r.written)))
    (hall : List.Forall₂ (Edit.Staged r.index.schema) staged changes)
    (hc : Index.Committed r.index r.disk l w changes i d g) :
    Holds { r.after (i, d) with written := without t r.written, holder := none }
      { l with content := g } { w with documents := g.documents } first? (journaled ++ staged) := by
  have hlog : List.Forall₂ (Edit.Staged r.index.schema) journaled journal := by
    simpa only [Journaled, hsome] using h.journal
  have hrunning : r.stage.isRunning = true := by rw [← h.running, Index.isRebuilding, hsome]; rfl
  have hlonger : i.journal = some (journal ++ changes) := by rw [hc.journal, hsome]; rfl
  have hschema : i.schema = r.index.schema := congrArg Prod.fst hc.settings
  refine {
    serving := hc.serving
    journal := ?_
    running := ?_
    brings := h.brings.commit hstaged hfirst
    beside := h.beside.commit h.serving hc
    start := ?_ }
  · show Journaled i.schema _ i.journal
    rw [hlonger, hschema]
    exact List.rel_append hlog hall
  · show i.journal.isSome = r.stage.isRunning
    rw [hlonger, hrunning]
    rfl
  · show From i.schema _ _ r.stage
    rw [hschema]
    exact h.start.live (fun _ => rfl) fun hidle => by simp [hrunning] at hidle

end

/-- A commit moves edits from those still to be committed to the journal, or into the index if there
is no journal. -/
theorem Sound.commit (h : r.Sound) {t : Nat} {staged : List (Edit α)} {tx : Transaction}
    {s : Index × Disk}
    (hstaged : ∀ key, Edit.under key staged = Edit.under key (editsOf t r.written))
    (hfirst : ∀ key, Edit.under key (edits r.written) =
      Edit.under key (editsOf t r.written) ++ Edit.under key (edits (without t r.written)))
    (htx : Edit.stageAll r.index.schema {} staged = .ok tx)
    (hc : effect (Index.commit tx) (r.index, r.disk) = (.ok (), s)) :
    Sound { r.after s with written := without t r.written, holder := none } := by
  obtain ⟨l, w, first?, journaled, hr⟩ := h.holds
  obtain ⟨i, d, g, heffect, hcommitted⟩ := hr.serving.commit tx
  rw [heffect, Prod.mk.injEq] at hc
  obtain ⟨-, rfl⟩ := hc
  have hschema : i.schema = r.index.schema := congrArg Prod.fst hcommitted.settings
  have hall := h.staged hstaged htx
  refine { keyed := hschema ▸ h.keyed, store := h.store, named := h.named,
           keys := fun e he => h.keys e (mem_edits_of_without he), holds := ?_ }
  cases hjournal : r.index.journal with
  | none => exact ⟨_, _, _, _, hr.commit_idle h.keyed hjournal hstaged hfirst hall hcommitted⟩
  | some journal => exact ⟨_, _, _, _, hr.commit_running hjournal hstaged hfirst hall hcommitted⟩

/-! ### Steps of the rebuild -/

theorem Sound.start (h : r.Sound) {s : Index × Disk}
    (hc : effect Index.startJournal (r.index, r.disk) = (.ok (), s)) :
    Sound { r.after s with stage := .started } := by
  obtain ⟨i, d⟩ := s
  obtain ⟨hnone, rfl, rfl⟩ := Index.startJournal_ok hc
  obtain ⟨l, w, first?, journaled, hr⟩ := h.holds
  have hempty : journaled = [] := by simpa only [Journaled, hnone] using hr.journal
  subst hempty
  exact { keyed := h.keyed, store := h.store, named := h.named, keys := h.keys
          holds := ⟨l, w, first?, [], {
            serving := hr.serving.congr rfl rfl rfl rfl
            journal := List.Forall₂.nil
            running := rfl
            brings := hr.brings
            beside := trivial
            start := trivial }⟩ }

/-- A step that keeps the live generation, and of the index all but counters, in which the rebuild
goes on. -/
theorem Holds.proceed {l : Live} {w : Writer} {first? first?' : String → Option α}
    {journaled : List (Edit α)} (hr : r.Holds l w first? journaled) {d : Disk} {stage : Stage α}
    (hserving : r.index.Serving d l w) (hrunning : stage.isRunning = r.stage.isRunning)
    (hbrings : Brings first?' (journaled ++ edits r.written) r.store)
    (hbeside : Beside r.index d l stage) (hstart : From r.index.schema l first?' stage) :
    Holds { r.after (r.index, d) with stage } l w first?' journaled where
  serving := hserving
  journal := hr.journal
  running := hr.running.trans hrunning.symm
  brings := hbrings
  beside := hbeside
  start := hstart

theorem Sound.proceed (h : r.Sound) {d : Disk} {stage : Stage α}
    (hholds : ∃ l w first? journaled,
      Holds { r.after (r.index, d) with stage } l w first? journaled) :
    Sound { r.after (r.index, d) with stage } where
  keyed := h.keyed
  store := h.store
  named := h.named
  keys := h.keys
  holds := hholds

theorem Sound.create (h : r.Sound) {dir : IndexDirectory} {n : Nat} {s s' : Index × Disk}
    (hstage : r.stage = .started)
    (hdir : effect Index.liveDirectory (r.index, r.disk) = (.ok dir, s))
    (hc : effect (Index.onDisk dir.create) s = (.ok n, s')) :
    Sound { r.after s' with stage := .created n (dir.generationPath n) } := by
  obtain ⟨l, w, first?, journaled, hr⟩ := h.holds
  rw [Index.effect_liveDirectory hr.serving.live] at hdir
  simp only [Prod.mk.injEq, Except.ok.injEq] at hdir
  obtain ⟨rfl, rfl⟩ := hdir
  obtain ⟨i, d⟩ := s'
  obtain ⟨rfl, habove, hserving⟩ := hr.serving.create_ok hc
  refine h.proceed ⟨l, w, first?, journaled, hr.proceed hserving ?_ hr.brings ⟨rfl, habove⟩ trivial⟩
  rw [hstage]
  rfl

theorem Sound.build (h : r.Sound) {n : Nat} {path : Path} {b : Building} {s : Index × Disk}
    (hstage : r.stage = .created n path)
    (hc : effect (Index.startBuilding n path) (r.index, r.disk) = (.ok b, s)) :
    Sound { r.after s with stage := .empty b } := by
  obtain ⟨l, w, first?, journaled, hr⟩ := h.holds
  have hbeside := hr.beside
  rw [hstage] at hbeside
  obtain ⟨rfl, habove⟩ := hbeside
  obtain ⟨i, d⟩ := s
  obtain ⟨rfl, hempty, hserving, hdraft⟩ := hr.serving.startBuilding_ok habove hc
  refine h.proceed ⟨l, w, first?, journaled,
    hr.proceed hserving ?_ hr.brings ⟨hdraft, hempty⟩ trivial⟩
  rw [hstage]
  rfl

theorem Sound.snapshot (h : r.Sound) {b : Building} {pages : List (Except StoreError (List α))}
    (hstage : r.stage = .empty b)
    (hpages : r.store.source.pages r.index.config.rebuildPageSize = .ok pages) :
    Sound { r with stage := .filling b pages } := by
  obtain ⟨l, w, first?, journaled, hr⟩ := h.holds
  have hbeside := hr.beside
  rw [hstage] at hbeside
  obtain ⟨hdraft, hempty⟩ := hbeside
  obtain ⟨unread, hunread, rfl⟩ := pages_ofList hpages
  -- the store has what is in the journal already, so the journal does it a second time
  refine h.proceed (d := r.disk) ⟨l, w, r.store.get?, journaled,
    hr.proceed hr.serving ?_ hr.brings.self hdraft ?_⟩
  · rw [hstage]
    rfl
  · refine ⟨r.store, [], unread, h.store, h.named, rfl, ?_, rfl, ?_⟩
    · rw [List.nil_append, hunread]
    · rw [hempty]
      exact .nil

theorem Sound.add (h : r.Sound) {b b' : Building} {page : List α}
    {pages : List (Except StoreError (List α))} {s : Index × Disk}
    (hstage : r.stage = .filling b (.ok page :: pages))
    (hc : effect (Index.addEntities b page) (r.index, r.disk) = (.ok b', s)) :
    Sound { r.after s with stage := .filling b' pages } := by
  obtain ⟨l, w, first?, journaled, hr⟩ := h.holds
  have hbeside := hr.beside
  have hstart := hr.start
  rw [hstage] at hbeside hstart
  obtain ⟨m, read, unread, hm, hnamed, rfl, hlist, hpages, hread⟩ := hstart
  obtain ⟨i, d⟩ := s
  obtain ⟨rfl, rfl, ds, hds, rfl⟩ := Index.addEntities_ok hc
  cases unread with
  | nil => simp at hpages
  | cons page' unread =>
    simp only [List.map_cons, List.cons.injEq, Except.ok.injEq] at hpages
    obtain ⟨rfl, rfl⟩ := hpages
    rw [List.flatten_cons, ← List.append_assoc] at hlist
    refine h.proceed ⟨l, w, m.get?, journaled, hr.proceed hr.serving ?_ hr.brings hbeside ?_⟩
    · rw [hstage]
      rfl
    · refine ⟨m, read ++ page, unread, hm, hnamed, rfl, hlist, rfl, List.rel_append hread ?_⟩
      have hpage : ∀ a ∈ page, Text.isBlank (Indexed.id a) = false := fun a ha =>
        hnamed a (by rw [hlist]; simp [ha])
      exact forall₂_of_encoded hpage hds

theorem Sound.complete (h : r.Sound) {b : Building} {v : Writer} {s : Index × Disk}
    (hstage : r.stage = .filling b [])
    (hc : effect (Index.commitBuilding b) (r.index, r.disk) = (.ok v, s)) :
    Sound { r.after s with stage := .filled b.number v } := by
  obtain ⟨l, w, first?, journaled, hr⟩ := h.holds
  have hbeside := hr.beside
  have hstart := hr.start
  rw [hstage] at hbeside hstart
  obtain ⟨m, read, unread, hm, hnamed, rfl, hlist, hpages, hread⟩ := hstart
  have hdraft : Index.Draft r.index r.disk l b.number b.writer := hbeside
  obtain ⟨i, d⟩ := s
  obtain ⟨rfl, hdocuments, hdraft', hsound, hother⟩ := hdraft.commitBuilding_ok hr.serving.sound hc
  have hserving := hr.serving.keep_draft hdraft hsound hother
  refine h.proceed ⟨l, w, m.get?, journaled, hr.proceed hserving ?_ hr.brings hdraft' ?_⟩
  · rw [hstage]
    rfl
  · refine ⟨m, hm, rfl, ?_⟩
    have hnil : unread = [] := by simpa using hpages.symm
    rw [hlist, hnil, List.flatten_nil, List.append_nil, hdocuments]
    exact hread

/-- The swap puts what was read and then the journal in place of the live content; the answer counts
just this. -/
theorem Sound.swap (h : r.Sound) {n old documents : Nat} {v : Writer} {s : Index × Disk}
    (hstage : r.stage = .filled n v)
    (hc : effect (Index.swapIn n v) (r.index, r.disk) = (.ok (old, documents), s)) :
    Sound { r.after s with stage := .swapped old documents } ∧
      ∃ l, s.1.live = some l ∧ documents = l.content.size := by
  obtain ⟨l, w, first?, journaled, hr⟩ := h.holds
  have hbeside := hr.beside
  have hstart := hr.start
  rw [hstage] at hbeside hstart
  obtain ⟨m, hm, rfl, hread⟩ := hstart
  have hdraft : Index.Draft r.index r.disk l n v := hbeside
  obtain ⟨i, d⟩ := s
  obtain ⟨g, v', hserving, hdocuments, rfl, rfl, hnone, hset⟩ := hdraft.swapIn_ok hr.serving hc
  have hschema : i.schema = r.index.schema := congrArg Prod.fst hset
  have hlog := hr.journal.staged
  refine ⟨?_, _, hserving.live, rfl⟩
  refine { keyed := hschema ▸ h.keyed, store := h.store, named := h.named, keys := h.keys,
           holds := ⟨⟨{ l.directory with current := n }, g⟩, v',
             fun key => Edit.settled key (m.get? key) journaled, [], ?_⟩ }
  exact {
    serving := hserving
    journal := by
      show Journaled i.schema [] i.journal
      rw [hnone]
      rfl
    running := by
      show i.journal.isSome = _
      rw [hnone]
      rfl
    brings := hr.brings.shift
    beside := Nat.ne_of_lt hdraft.above
    start := by
      show Mirrors i.schema g.documents _
      rw [hschema, hdocuments]
      exact (mirrors_of_encoded h.keyed hm hread).applyChanges h.keyed hlog }

theorem Sound.retire (h : r.Sound) {old documents : Nat} {s : Index × Disk}
    (hstage : r.stage = .swapped old documents)
    (hc : effect (Index.removeRetired old) (r.index, r.disk) = (.ok (), s)) :
    Sound { r.after s with stage := .removed documents } := by
  obtain ⟨l, w, first?, journaled, hr⟩ := h.holds
  have hbeside := hr.beside
  have hstart := hr.start
  rw [hstage] at hbeside hstart
  obtain ⟨d, heffect, hserving⟩ := hr.serving.removeRetired hbeside
  rw [heffect, Prod.mk.injEq] at hc
  obtain ⟨-, rfl⟩ := hc
  refine h.proceed ⟨l, w, first?, journaled, hr.proceed hserving ?_ hr.brings trivial hstart⟩
  rw [hstage]
  rfl

theorem Sound.finish (h : r.Sound) {documents : Nat} (hstage : r.stage = .removed documents) :
    Sound { r with
      index := { r.index with statistics := r.index.statistics.recordRebuild documents }
      stage := .finished documents } := by
  have h' : Sound { r with stage := .finished documents } := by
    obtain ⟨l, w, first?, journaled, hr⟩ := h.holds
    have hstart := hr.start
    rw [hstage] at hstart
    refine h.proceed (d := r.disk) ⟨l, w, first?, journaled,
      hr.proceed hr.serving ?_ hr.brings trivial hstart⟩
    rw [hstage]
    rfl
  exact h'.relabel (i := { r.index with statistics := r.index.statistics.recordRebuild documents })
    rfl rfl rfl rfl r.holder

/-- Whatever happens next, the invariant is kept. -/
theorem Sound.step {r' : Race α} (h : r.Sound) (hstep : Step r r') : r'.Sound := by
  cases hstep with
  | write t e hkey => exact h.write t e hkey
  | begin t tx s hfree hc =>
    obtain ⟨l, w, first?, journaled, hr⟩ := h.holds
    rw [Index.effect_begin r.index r.disk hr.serving.writer, Prod.mk.injEq] at hc
    exact hc.2 ▸ h.relabel rfl rfl rfl rfl (some t)
  | commit t staged tx s hholder hstaged hfirst htx hc => exact h.commit hstaged hfirst htx hc
  | rollback s hc =>
    rw [Index.rollback, Index.effect_update, Prod.mk.injEq] at hc
    exact hc.2 ▸ h.relabel (i := { r.index with statistics := r.index.statistics.recordRollback })
      rfl rfl rfl rfl none
  | start s hstage hc => exact h.start hc
  | again fill answer s hunderway hc =>
    rw [Index.effect_rebuild_again fill hunderway, Prod.mk.injEq] at hc
    exact hc.2 ▸ h.relabel rfl rfl rfl rfl r.holder
  | create dir n s s' hstage hdir hc => exact h.create hstage hdir hc
  | build n path b s hstage hc => exact h.build hstage hc
  | snapshot b pages hstage hpages => exact h.snapshot hstage hpages
  | add b b' page pages s hstage hc => exact h.add hstage hc
  | complete b w s hstage hc => exact h.complete hstage hc
  | swap n old documents w s hfree hstage hc => exact (h.swap hstage hc).1
  | retire old documents s hstage hc => exact h.retire hstage hc
  | finish documents hstage => exact h.finish hstage

theorem Sound.run {r' : Race α} (h : r.Sound) (hrun : Run r r') : r'.Sound := by
  induction hrun with
  | refl => exact h
  | tail _ hstep ih => exact ih.step hstep

/-- No step changes what kind of index it is. -/
theorem Sound.settings_step {r' : Race α} (h : r.Sound) (hstep : Step r r') :
    r'.index.settings = r.index.settings := by
  obtain ⟨l, w, first?, journaled, hr⟩ := h.holds
  have hbeside := hr.beside
  cases hstep with
  | write t e hkey => rfl
  | begin t tx s hfree hc =>
    rw [Index.effect_begin r.index r.disk hr.serving.writer, Prod.mk.injEq] at hc
    exact hc.2 ▸ rfl
  | commit t staged tx s hholder hstaged hfirst htx hc =>
    obtain ⟨i, d, g, heffect, hcommitted⟩ := hr.serving.commit tx
    rw [heffect, Prod.mk.injEq] at hc
    exact hc.2 ▸ hcommitted.settings
  | rollback s hc =>
    rw [Index.rollback, Index.effect_update, Prod.mk.injEq] at hc
    exact hc.2 ▸ rfl
  | start s hstage hc =>
    obtain ⟨-, hi, -⟩ := Index.startJournal_ok hc
    show s.1.settings = _
    rw [hi]
    rfl
  | again fill answer s hunderway hc =>
    rw [Index.effect_rebuild_again fill hunderway, Prod.mk.injEq] at hc
    exact hc.2 ▸ rfl
  | create dir n s s' hstage hdir hc =>
    rw [Index.effect_liveDirectory hr.serving.live, Prod.mk.injEq] at hdir
    obtain ⟨-, rfl⟩ := hdir
    exact congrArg Index.settings (Index.onDisk_run hc).1
  | build n path b s hstage hc => exact congrArg Index.settings (Index.startBuilding_ok hc).1
  | snapshot b pages hstage hpages => rfl
  | add b b' page pages s hstage hc => exact congrArg Index.settings (Index.addEntities_ok hc).1
  | complete b w s hstage hc =>
    exact congrArg Index.settings (Index.applyTo_ok hc).1
  | swap n old documents v s hfree hstage hc =>
    rw [hstage] at hbeside
    have hdraft : Index.Draft r.index r.disk l n v := hbeside
    obtain ⟨g, v', -, -, -, -, -, hset⟩ := hdraft.swapIn_ok hr.serving hc
    exact hset
  | retire old documents s hstage hc =>
    rw [hstage] at hbeside
    obtain ⟨d, heffect, -⟩ := hr.serving.removeRetired hbeside
    rw [heffect, Prod.mk.injEq] at hc
    exact hc.2 ▸ rfl
  | finish documents hstage => rfl

theorem Sound.settings_run {r' : Race α} (h : r.Sound) (hrun : Run r r') :
    r'.index.settings = r.index.settings := by
  induction hrun with
  | refl => rfl
  | tail hrun hstep ih => exact ((h.run hrun).settings_step hstep).trans ih

/-! ### Runs -/

/-- The index is open, no rebuild is under way, and all that was written is committed. Nothing is
assumed of the content of the index. -/
structure Ready (r : Race α) : Prop where
  described : Schema.describe α = .ok r.index.schema
  store : r.store.Sound
  named : ∀ a ∈ r.store.toList, Text.isBlank (Indexed.id a) = false
  serving : ∃ l w, r.index.Serving r.disk l w
  journal : r.index.journal = none
  stage : r.stage = .waiting
  written : r.written = []

theorem Ready.sound (hα : Indexed.Consistent α) (h : r.Ready) : r.Sound := by
  obtain ⟨l, w, hserving⟩ := h.serving
  have hkeyed := (Schema.describes_of_describe h.described).keyedBy hα
  refine { keyed := hkeyed, store := h.store, named := h.named, keys := by simp [h.written, edits],
           holds := ⟨l, w, r.store.get?, [], ?_⟩ }
  exact {
    serving := hserving
    journal := by rw [h.journal]; rfl
    running := by rw [h.stage, Index.isRebuilding, h.journal]; rfl
    brings := by rw [h.written]; exact fun key => rfl
    beside := by rw [h.stage]; trivial
    start := by rw [h.stage]; trivial }

/-- Once the new generation is live and all that was written is committed, the index mirrors the
store. -/
theorem Sound.mirrors (h : r.Sound) {n : Nat} (hcount : r.stage.count? = some n)
    (hwritten : r.written = []) : ∃ l, r.index.live = some l ∧
      Mirrors r.index.schema l.content.documents r.store.get? := by
  obtain ⟨l, w, first?, journaled, hr⟩ := h.holds
  have hmirrors : r.stage.isRunning = false ∧ Mirrors r.index.schema l.content.documents first? := by
    have hstart := hr.start
    cases hstage : r.stage with
    | swapped old documents => exact ⟨rfl, by rwa [hstage] at hstart⟩
    | removed documents => exact ⟨rfl, by rwa [hstage] at hstart⟩
    | finished documents => exact ⟨rfl, by rwa [hstage] at hstart⟩
    | waiting | started | created | empty | filling | filled => simp [hstage, Stage.count?] at hcount
  have hempty : journaled = [] := by
    have hnone : r.index.journal = none := by
      have hrunning := hr.running
      rw [hmirrors.1] at hrunning
      simpa [Index.isRebuilding] using hrunning
    have hjournal := hr.journal
    rwa [hnone] at hjournal
  have hfirst : first? = r.store.get? := by
    funext key
    have hkey := hr.brings key
    rwa [hempty, hwritten] at hkey
  exact ⟨l, hr.serving.live, hfirst ▸ hmirrors.2⟩

/-- Only the swap sets the number of documents, and it stays. -/
theorem Step.count? {r' : Race α} (h : Step r r') :
    r'.stage.count? = r.stage.count? ∨
      ∃ n old documents w s, r.stage = .filled n w ∧
        effect (Index.swapIn n w) (r.index, r.disk) = (.ok (old, documents), s) ∧
        r' = { r.after s with stage := .swapped old documents } := by
  cases h with
  | swap n old documents w s _ hstage hc => exact .inr ⟨n, old, documents, w, s, hstage, hc, rfl⟩
  | start s hstage _ => exact .inl (by rw [hstage]; rfl)
  | create dir n s s' hstage _ _ => exact .inl (by rw [hstage]; rfl)
  | build n path b s hstage _ => exact .inl (by rw [hstage]; rfl)
  | snapshot b pages hstage _ => exact .inl (by rw [hstage]; rfl)
  | add b b' page pages s hstage _ => exact .inl (by rw [hstage]; rfl)
  | complete b w s hstage _ => exact .inl (by rw [hstage]; rfl)
  | retire old documents s hstage _ => exact .inl (by rw [hstage]; rfl)
  | finish documents hstage => exact .inl (by rw [hstage]; rfl)
  | write | begin | commit | rollback | again => exact .inl rfl

/-- The number of documents that a rebuild gives is the number of those that were live right after
its swap. -/
theorem Run.counted {r₀ : Race α} (h₀ : r₀.Sound) (hbefore : r₀.stage.count? = none)
    (hrun : Run r₀ r) : ∀ {n : Nat}, r.stage.count? = some n →
      ∃ r₁ r₂ l, Run r₀ r₁ ∧ Step r₁ r₂ ∧ Run r₂ r ∧ r₁.stage.count? = none ∧
        r₂.stage.count? = some n ∧ r₂.index.live = some l ∧ n = l.content.size := by
  induction hrun with
  | refl =>
    intro n hn
    simp [hbefore] at hn
  | @tail r₁ r₂ hrun hstep ih =>
    intro n hn
    rcases hstep.count? with hsame | ⟨k, old, documents, w, s, hstage, hc, hafter⟩
    · obtain ⟨r₃, r₄, l, hrun₃, hstep₃, hrun₄, hrest⟩ := ih (hsame ▸ hn)
      exact ⟨r₃, r₄, l, hrun₃, hstep₃, hrun₄.tail hstep, hrest⟩
    · obtain ⟨l, hl, hsize⟩ := ((h₀.run hrun).swap hstage hc).2
      have hnone : r₁.stage.count? = none := by rw [hstage]; rfl
      have hlive : r₂.index.live = some l := by rw [hafter]; exact hl
      have hn' : documents = n := by
        rw [hafter] at hn
        exact Option.some.inj hn
      exact ⟨r₁, r₂, l, hrun, hstep, .refl, hnone, hn, hlive, hn' ▸ hsize⟩

end Race
end Codebook
