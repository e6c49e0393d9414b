/-
# A run over one service

A coordinator that knows one service and is not forced finds out whether there are as many documents in
the index as entities in the store. If so it leaves the index as it is, and if not it rebuilds it.

Key definitions: `Service.rebuildAll`.
Key theorems: `Coordinator.effect_run_intact`, `Coordinator.effect_run_corrupted`,
`Service.effect_isCorrupted`, `Service.rebuildAll_intact`, `Service.rebuildAll_corrupted`.
-/
import Codebook.Proofs.Answers
import Codebook.Proofs.Tandem
import Codebook.Service

namespace Codebook

namespace Coordinator

variable {σ : Type} {u : RebuildUnit σ} {s s' t : σ} {bus : EventBus} {n : Nat}

/-- A run over the only unit of a coordinator. -/
theorem effect_run_single (u : RebuildUnit σ) (s : σ) (bus : EventBus) :
    effect ((({} : Coordinator σ).register u).run (fun _ => false) {}) (s, bus) =
      (.ok (({} : RebuildSummary).push (runUnit false u (s, bus)).1), (runUnit false u (s, bus)).2) := by
  have hordered : (({} : Coordinator σ).register u).ordered = [u] := by
    simp [ordered, register]
  unfold run
  rw [effect_bind_ok (by rw [resolve, hordered]; exact effect_lift _ _)]
  rfl

/-- What follows the work of a unit is given its answer, whatever it is. -/
theorem bind_work {α β : Type} (x : ExceptT IndexError (StateM σ) α)
    (next : Except IndexError α → RunM σ β) (s : σ) (bus : EventBus) :
    (work x >>= next) (s, bus) = next (effect x s).1 ((effect x s).2, bus) := rfl

/-- A unit is rebuilt only if it is found corrupted. -/
theorem runUnit_eq (u : RebuildUnit σ) (s : σ) (bus : EventBus) :
    runUnit false u (s, bus) = match effect u.isCorrupted s with
      | (.ok true, t) => rebuildUnit u (t, bus)
      | (.ok false, t) => ({ entityType := u.name, status := .skipped }, (t, bus))
      | (.error e, t) => ({ entityType := u.name, status := .failed, error := some e }, (t, bus)) := by
  unfold runUnit
  rw [if_neg Bool.false_ne_true, bind_work]
  rcases effect u.isCorrupted s with ⟨_ | _ | _, t⟩ <;> rfl

theorem rebuildUnit_eq (u : RebuildUnit σ) (s : σ) (bus : EventBus) :
    rebuildUnit u (s, bus) = match effect u.rebuild s with
      | (.ok n, t) => ({ entityType := u.name, status := .finished, documentCount := n },
          (t, bus.publish (.rebuilt u.name n)))
      | (.error e, t) => ({ entityType := u.name, status := .failed, error := some e }, (t, bus)) := by
  unfold rebuildUnit
  rw [bind_work]
  rcases effect u.rebuild s with ⟨_ | _, t⟩ <;> rfl

/-- A unit that is found intact is left as it is. -/
theorem effect_run_intact (h : effect u.isCorrupted s = (.ok false, s')) :
    effect ((({} : Coordinator σ).register u).run (fun _ => false) {}) (s, bus) =
      (.ok { units := [{ entityType := u.name, status := .skipped }], skipped := 1 }, (s', bus)) := by
  rw [effect_run_single, runUnit_eq, h]
  rfl

/-- A unit that is found corrupted is rebuilt, which is published. -/
theorem effect_run_corrupted (h : effect u.isCorrupted s = (.ok true, s'))
    (hrebuild : effect u.rebuild s' = (.ok n, t)) :
    effect ((({} : Coordinator σ).register u).run (fun _ => false) {}) (s, bus) =
      (.ok { units := [{ entityType := u.name, status := .finished, documentCount := n }], finished := 1 },
        (t, bus.publish (.rebuilt u.name n))) := by
  rw [effect_run_single, runUnit_eq, h]
  simp only
  rw [rebuildUnit_eq, hrebuild]
  rfl

end Coordinator

namespace Service

/-- Work with the index of a service leaves the store as it is. -/
theorem effect_onIndex {α β : Type} (work : IndexM β) (i : Index) (store : Store α) (d : Disk) :
    effect (onIndex work) (⟨i, store⟩, d) = ((effect work (i, d)).1,
      (⟨(effect work (i, d)).2.1, store⟩, (effect work (i, d)).2.2)) := by
  unfold onIndex
  rw [effect_bind_ok (effect_get _)]
  show effect (set (_, (effect work (i, d)).2.2) >>= fun _ => liftM (effect work (i, d)).1) _ = _
  rw [effect_bind_ok (effect_set _ _), effect_lift]
  rfl

variable {α : Type} {i i' : Index} {d d' : Disk} {store : Store α} {l : Live} {bus : EventBus} {m n : Nat}

/-- An open index is corrupted if it has not as many documents as its store has entities. -/
theorem effect_isCorrupted (hl : i.live = some l) (hcount : store.source.count = .ok n) :
    effect isCorrupted (⟨i, store⟩, d) = (.ok (l.content.size != n), (⟨i, store⟩, d)) := by
  have hdocuments : effect (Index.lookup Index.numDocs) (i, d) = (.ok l.content.size, (i, d)) := by
    rw [Index.effect_lookup]
    unfold Index.numDocs
    rw [effect_bind_ok (Index.effect_searcher hl)]
    rfl
  have hchecked : effect (Index.isCorrupted store.source) (i, d) =
      (.ok (l.content.size != n), (i, d)) := by
    unfold Index.isCorrupted
    rw [effect_bind_ok hdocuments, hcount]
    rfl
  have hwork : effect isCorrupted (⟨i, store⟩, d) =
      effect (onIndex (Index.isCorrupted store.source)) (⟨i, store⟩, d) := rfl
  rw [hwork, effect_onIndex, hchecked]

variable [Indexed α]

/-- A run that is not forced, over this service and no other. -/
def rebuildAll (s : Service α) :
    ExceptT IndexError (Coordinator.RunM (Service α × Disk)) RebuildSummary :=
  (({} : Coordinator (Service α × Disk)).register (s.unit fun work => work)).run (fun _ => false) {}

/-- An index with as many documents as there are entities is left as it is. -/
theorem rebuildAll_intact (hl : i.live = some l) (hcount : store.source.count = .ok n)
    (hsize : l.content.size = n) :
    effect (rebuildAll ⟨i, store⟩) ((⟨i, store⟩, d), bus) =
      (.ok { units := [{ entityType := i.name, status := .skipped }], skipped := 1 },
        ((⟨i, store⟩, d), bus)) := by
  have hchecked : effect isCorrupted (⟨i, store⟩, d) = (.ok false, (⟨i, store⟩, d)) := by
    rw [effect_isCorrupted hl hcount, hsize]
    simp
  exact Coordinator.effect_run_intact hchecked

/-- Another one is rebuilt. -/
theorem rebuildAll_corrupted (hl : i.live = some l) (hcount : store.source.count = .ok n)
    (hsize : l.content.size ≠ n)
    (hrebuild : effect (Index.rebuildFrom store.source) (i, d) = (.ok m, (i', d'))) :
    effect (rebuildAll ⟨i, store⟩) ((⟨i, store⟩, d), bus) =
      (.ok { units := [{ entityType := i.name, status := .finished, documentCount := m }], finished := 1 },
        ((⟨i', store⟩, d'), bus.publish (.rebuilt i.name m))) := by
  have hchecked : effect isCorrupted (⟨i, store⟩, d) = (.ok true, (⟨i, store⟩, d)) := by
    rw [effect_isCorrupted hl hcount]
    simp [hsize]
  have hrebuilt : effect rebuild (⟨i, store⟩, d) = (.ok m, (⟨i', store⟩, d')) := by
    have hwork : effect rebuild (⟨i, store⟩, d) =
        effect (onIndex (Index.rebuildFrom store.source)) (⟨i, store⟩, d) := rfl
    rw [hwork, effect_onIndex, hrebuild]
  exact Coordinator.effect_run_corrupted hchecked hrebuilt

end Service

end Codebook
