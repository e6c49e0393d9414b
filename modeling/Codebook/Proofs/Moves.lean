/-
# Runs that are computed

What happens while an index is rebuilt is asked for move by move, and each move either gives the
next state or is not possible. So a run of the steps of a rebuild among transactions can be computed
from its moves.

Key definitions: `Race.Move`, `Race.proceed`, `Race.move`, `Race.play`.
Key theorems: `Race.step_of_move`, `Race.run_of_play`.
-/
import Codebook.Proofs.Race

namespace Codebook.Race

variable {α : Type} [Indexed α]

/-- Whether a transaction can commit: nothing that others have written before it under its keys is
still to be committed. -/
def leads (t : Nat) : List (Nat × Edit α) → Bool
  | [] => true
  | (u, e) :: written =>
    (u = t || (editsOf t written).all fun e' => e'.key ≠ e.key) && leads t written

theorem under_of_leads {t : Nat} : ∀ {written : List (Nat × Edit α)}, leads t written = true →
    ∀ key, Edit.under key (edits written) =
      Edit.under key (editsOf t written) ++ Edit.under key (edits (without t written))
  | [], _, _ => rfl
  | (u, e) :: written, h, key => by
    simp only [leads, Bool.and_eq_true, Bool.or_eq_true, decide_eq_true_eq, List.all_eq_true] at h
    obtain ⟨hfirst, hrest⟩ := h
    have ih := under_of_leads hrest key
    have hcons : edits ((u, e) :: written) = [e] ++ edits written := rfl
    by_cases hu : u = t
    · have hmine : editsOf t ((u, e) :: written) = [e] ++ editsOf t written := by
        simp [editsOf, hu]
      have hother : without t ((u, e) :: written) = without t written := by simp [without, hu]
      rw [hcons, hmine, hother, Edit.under_append, Edit.under_append, ih, List.append_assoc]
    · have hmine : editsOf t ((u, e) :: written) = editsOf t written := by simp [editsOf, hu]
      have hother : edits (without t ((u, e) :: written)) = [e] ++ edits (without t written) := by
        simp [without, edits, hu]
      rw [hcons, hmine, hother, Edit.under_append, Edit.under_append, ih]
      by_cases he : e.key = key
      · have hnone : Edit.under key (editsOf t written) = [] := by
          refine List.filter_eq_nil_iff.mpr fun e' he' => ?_
          simpa [he] using hfirst.resolve_left hu e' he'
        simp [hnone]
      · have hnone : Edit.under key [e] = [] := by simp [Edit.under, he]
        simp [hnone]

/-- What is to happen next. -/
inductive Move (α : Type) where
  /-- A transaction writes the store. -/
  | write (t : Nat) (e : Edit α)
  /-- A transaction gets the writer. -/
  | begin (t : Nat)
  /-- A transaction commits what it has written. -/
  | commit (t : Nat)
  /-- A transaction gives the writer back. -/
  | rollback
  /-- Somebody asks for another rebuild. -/
  | again
  /-- The rebuild goes on. -/
  | proceed

/-- The next step of the rebuild, if it can go on. -/
def proceed (r : Race α) : Option (Race α) :=
  match r.stage with
  | .waiting =>
    (done? Index.startJournal (r.index, r.disk)).map fun x => { r.after x.2 with stage := .started }
  | .started =>
    (done? Index.liveDirectory (r.index, r.disk)).bind fun x =>
      (done? (Index.onDisk x.1.create) x.2).map fun y =>
        { r.after y.2 with stage := .created y.1 (x.1.generationPath y.1) }
  | .created n path =>
    (done? (Index.startBuilding n path) (r.index, r.disk)).map fun x =>
      { r.after x.2 with stage := .empty x.1 }
  | .empty b =>
    match r.store.source.pages r.index.config.rebuildPageSize with
    | .ok pages => some { r with stage := .filling b pages }
    | .error _ => none
  | .filling b (.ok page :: pages) =>
    (done? (Index.addEntities b page) (r.index, r.disk)).map fun x =>
      { r.after x.2 with stage := .filling x.1 pages }
  | .filling _ (.error _ :: _) => none
  | .filling b [] =>
    (done? (Index.commitBuilding b) (r.index, r.disk)).map fun x =>
      { r.after x.2 with stage := .filled b.number x.1 }
  | .filled n w =>
    if r.holder = none then
      (done? (Index.swapIn n w) (r.index, r.disk)).map fun x =>
        { r.after x.2 with stage := .swapped x.1.1 x.1.2 }
    else none
  | .swapped old documents =>
    (done? (Index.removeRetired old) (r.index, r.disk)).map fun x =>
      { r.after x.2 with stage := .removed documents }
  | .removed documents =>
    some { r with
      index := { r.index with statistics := r.index.statistics.recordRebuild documents }
      stage := .finished documents }
  | .finished _ => none

/-- What comes of a move, if it is possible. -/
def move (r : Race α) : Move α → Option (Race α)
  | .write t e =>
    if Text.isBlank e.key then none
    else some { r with store := e.mirror r.store, written := r.written ++ [(t, e)] }
  | .begin t =>
    if r.holder = none then
      (done? Index.begin (r.index, r.disk)).map fun x => { r.after x.2 with holder := some t }
    else none
  | .commit t =>
    if r.holder = some t ∧ leads t r.written then
      match Edit.stageAll r.index.schema {} (editsOf t r.written) with
      | .ok tx =>
        (done? (Index.commit tx) (r.index, r.disk)).map fun x =>
          { r.after x.2 with written := without t r.written, holder := none }
      | .error _ => none
    else none
  | .rollback =>
    (done? Index.rollback (r.index, r.disk)).map fun x => { r.after x.2 with holder := none }
  | .again =>
    if r.index.isRebuilding then
      some (r.after (effect (Index.rebuild pure) (r.index, r.disk)).2)
    else none
  | .proceed => r.proceed

/-- Moves one after the other, as far as all are possible. -/
def play (r : Race α) (moves : List (Move α)) : Option (Race α) :=
  moves.foldlM move r

theorem step_of_proceed {r' : Race α} (h : r.proceed = some r') : Step r r' := by
  unfold proceed at h
  split at h
  case h_1 hstage =>
    obtain ⟨_, s, hs, rfl⟩ := map_done? h
    exact .start r s hstage hs
  case h_2 hstage =>
    obtain ⟨dir, s, hdir, h₁⟩ := bind_done? h
    obtain ⟨n, s', hs', rfl⟩ := map_done? h₁
    exact .create r dir n s s' hstage hdir hs'
  case h_3 n path hstage =>
    obtain ⟨b, s, hs, rfl⟩ := map_done? h
    exact .build r n path b s hstage hs
  case h_4 b hstage =>
    split at h
    · rename_i pages hpages
      cases h
      exact .snapshot r b pages hstage hpages
    · simp at h
  case h_5 b page pages hstage =>
    obtain ⟨b', s, hs, rfl⟩ := map_done? h
    exact .add r b b' page pages s hstage hs
  case h_6 => simp at h
  case h_7 b hstage =>
    obtain ⟨w, s, hs, rfl⟩ := map_done? h
    exact .complete r b w s hstage hs
  case h_8 n w hstage =>
    split_ifs at h with hfree
    obtain ⟨⟨old, documents⟩, s, hs, rfl⟩ := map_done? h
    exact .swap r n old documents w s hfree hstage hs
  case h_9 old documents hstage =>
    obtain ⟨_, s, hs, rfl⟩ := map_done? h
    exact .retire r old documents s hstage hs
  case h_10 documents hstage =>
    cases h
    exact .finish r documents hstage
  case h_11 => simp at h

theorem step_of_move {r' : Race α} {m : Move α} (h : r.move m = some r') : Step r r' := by
  unfold move at h
  cases m with
  | write t e =>
    simp only at h
    split_ifs at h with hkey
    cases h
    exact .write r t e (by simpa using hkey)
  | begin t =>
    simp only at h
    split_ifs at h with hfree
    obtain ⟨tx, s, hs, rfl⟩ := map_done? h
    exact .begin r t tx s hfree hs
  | commit t =>
    simp only at h
    split_ifs at h with hready
    split at h
    · rename_i tx htx
      obtain ⟨_, s, hs, rfl⟩ := map_done? h
      exact .commit r t _ tx s hready.1 (fun _ => rfl) (under_of_leads hready.2) htx hs
    · simp at h
  | rollback =>
    obtain ⟨_, s, hs, rfl⟩ := map_done? h
    exact .rollback r s hs
  | again =>
    simp only at h
    split_ifs at h with hunderway
    cases h
    exact .again r pure _ _ hunderway rfl
  | proceed => exact step_of_proceed h

/-- Moves are a run. -/
theorem run_of_play : ∀ {moves : List (Move α)} {r r' : Race α}, r.play moves = some r' → Run r r'
  | [], r, r', h => by
    cases h
    exact .refl
  | m :: moves, r, r', h => by
    rw [play, List.foldlM_cons] at h
    obtain ⟨r₁, hm, hrest⟩ := Option.bind_eq_some_iff.mp h
    exact .head (step_of_move hm) (run_of_play hrest)

end Codebook.Race
