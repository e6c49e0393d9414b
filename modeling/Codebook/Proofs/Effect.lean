/-
# What work does

Work with an index and the disk is run step by step: it ends with a value or an error and leaves a
state, and work that follows goes on from there.

Key definitions: `effect`, `done?`.
Key theorems: `effect_bind_ok`, `effect_bind_pure`, `pure_ok`, `lift_ok`, `bind_ok`, `effect_tryCatch`, `effect_perform`, `perform_ok`,
`perform_keep`, `Index.onDisk_run`.
-/
import Codebook.Index.Rebuild
import Codebook.Proofs.Disk

namespace Codebook

section

variable {ε σ α β : Type}

/-- How work ends, and the state that it leaves. -/
def effect (work : ExceptT ε (StateM σ) α) (s : σ) : Except ε α × σ :=
  work.run s

@[simp] theorem effect_pure (a : α) (s : σ) :
    effect (pure a : ExceptT ε (StateM σ) α) s = (.ok a, s) := rfl

@[simp] theorem effect_throw (e : ε) (s : σ) :
    effect (throw e : ExceptT ε (StateM σ) α) s = (.error e, s) := rfl

@[simp] theorem effect_get (s : σ) : effect (get : ExceptT ε (StateM σ) σ) s = (.ok s, s) := rfl

@[simp] theorem effect_set (s t : σ) :
    effect (set t : ExceptT ε (StateM σ) PUnit) s = (.ok (), t) := rfl

@[simp] theorem effect_modify (f : σ → σ) (s : σ) :
    effect (modify f : ExceptT ε (StateM σ) PUnit) s = (.ok (), f s) := rfl

@[simp] theorem effect_lift (r : Except ε α) (s : σ) :
    effect (liftM r : ExceptT ε (StateM σ) α) s = (r, s) := by
  cases r <;> rfl

theorem effect_bind (x : ExceptT ε (StateM σ) α) (f : α → ExceptT ε (StateM σ) β) (s : σ) :
    effect (x >>= f) s =
      match effect x s with
      | (.ok a, t) => effect (f a) t
      | (.error e, t) => (.error e, t) := by
  show (match (x.run s : Except ε α × σ) with
    | (r, t) => (ExceptT.bindCont f r : StateM σ (Except ε β)) t) = _
  unfold effect
  rcases (x.run s : Except ε α × σ) with ⟨r, t⟩
  cases r <;> rfl

theorem effect_bind_ok {x : ExceptT ε (StateM σ) α} {s t : σ} {a : α}
    (h : effect x s = (.ok a, t)) (f : α → ExceptT ε (StateM σ) β) :
    effect (x >>= f) s = effect (f a) t := by
  rw [effect_bind, h]

theorem effect_bind_error {x : ExceptT ε (StateM σ) α} {s t : σ} {e : ε}
    (h : effect x s = (.error e, t)) (f : α → ExceptT ε (StateM σ) β) :
    effect (x >>= f) s = (.error e, t) := by
  rw [effect_bind, h]

/-- Work that only changes the form of a value leaves the state as it is. -/
theorem effect_bind_pure (x : ExceptT ε (StateM σ) α) (f : α → β) (s : σ) :
    effect (x >>= fun a => pure (f a)) s = ((effect x s).1.map f, (effect x s).2) := by
  rw [effect_bind]
  rcases effect x s with ⟨_ | _, _⟩ <;> rfl

theorem pure_ok {a b : α} {s t : σ} (h : effect (pure a : ExceptT ε (StateM σ) α) s = (.ok b, t)) :
    a = b ∧ s = t := by
  rw [effect_pure, Prod.mk.injEq] at h
  exact ⟨Except.ok.inj h.1, h.2⟩

theorem lift_ok {r : Except ε α} {a : α} {s t : σ}
    (h : effect (liftM r : ExceptT ε (StateM σ) α) s = (.ok a, t)) : r = .ok a ∧ s = t := by
  rw [effect_lift, Prod.mk.injEq] at h
  exact h

/-- Work that ends with a value did so part by part. -/
theorem bind_ok {x : ExceptT ε (StateM σ) α} {f : α → ExceptT ε (StateM σ) β} {s t : σ} {b : β}
    (h : effect (x >>= f) s = (.ok b, t)) :
    ∃ a u, effect x s = (.ok a, u) ∧ effect (f a) u = (.ok b, t) := by
  rw [effect_bind] at h
  split at h
  · exact ⟨_, _, by assumption, h⟩
  · simp at h

/-- Work that ends with an error does so in one of its parts. -/
theorem bind_error {x : ExceptT ε (StateM σ) α} {f : α → ExceptT ε (StateM σ) β} {s t : σ} {e : ε}
    (h : effect (x >>= f) s = (.error e, t)) :
    effect x s = (.error e, t) ∨ ∃ a u, effect x s = (.ok a, u) ∧ effect (f a) u = (.error e, t) := by
  rw [effect_bind] at h
  split at h
  · exact .inr ⟨_, _, by assumption, h⟩
  · rename_i hx
    obtain ⟨rfl, rfl⟩ : _ = e ∧ _ = t := by simpa using h
    exact .inl hx

theorem effect_tryCatch (x : ExceptT ε (StateM σ) α) (handle : ε → ExceptT ε (StateM σ) α) (s : σ) :
    effect (tryCatch x handle) s =
      match effect x s with
      | (.ok a, t) => (.ok a, t)
      | (.error e, t) => effect (handle e) t := by
  show (match (x.run s : Except ε α × σ) with
    | (r, t) => (match r with
      | .ok a => pure (.ok a)
      | .error e => handle e : StateM σ (Except ε α)) t) = _
  unfold effect
  rcases (x.run s : Except ε α × σ) with ⟨r, t⟩
  cases r <;> rfl

/-- The value with which work ends and the state that it leaves, unless it fails. -/
def done? (work : ExceptT ε (StateM σ) α) (s : σ) : Option (α × σ) :=
  match effect work s with
  | (.ok a, t) => some (a, t)
  | (.error _, _) => none

theorem done?_eq_some {work : ExceptT ε (StateM σ) α} {s t : σ} {a : α} :
    done? work s = some (a, t) ↔ effect work s = (.ok a, t) := by
  unfold done?
  split <;> simp_all

theorem bind_done? {work : ExceptT ε (StateM σ) α} {f : α × σ → Option β} {s : σ} {b : β}
    (h : (done? work s).bind f = some b) :
    ∃ a t, effect work s = (.ok a, t) ∧ f (a, t) = some b := by
  obtain ⟨⟨a, t⟩, hdone, hf⟩ := Option.bind_eq_some_iff.mp h
  exact ⟨a, t, done?_eq_some.mp hdone, hf⟩

theorem map_done? {work : ExceptT ε (StateM σ) α} {f : α × σ → β} {s : σ} {b : β}
    (h : (done? work s).map f = some b) : ∃ a t, effect work s = (.ok a, t) ∧ f (a, t) = b := by
  obtain ⟨⟨a, t⟩, hdone, hf⟩ := Option.map_eq_some_iff.mp h
  exact ⟨a, t, done?_eq_some.mp hdone, hf⟩

end

theorem effect_perform {ε : Type} (failure : ε) (steps : List DiskStep) (d : Disk) :
    effect (perform failure steps) d =
      (if (d.runAll steps).1 then .ok () else .error failure, (d.runAll steps).2) := by
  unfold perform
  rw [effect_bind_ok (effect_get d)]
  rcases d.runAll steps with ⟨done, d'⟩
  cases done <;> rfl

theorem perform_ok {ε : Type} {failure : ε} {steps : List DiskStep} {d d' : Disk}
    (h : effect (perform failure steps) d = (.ok (), d')) : d.runAll steps = (true, d') := by
  rw [effect_perform] at h
  split_ifs at h with hdone
  · simp only [Prod.mk.injEq, true_and] at h
    exact Prod.ext hdone h
  · simp at h

theorem perform_error {ε : Type} {failure e : ε} {steps : List DiskStep} {d d' : Disk}
    (h : effect (perform failure steps) d = (.error e, d')) : e = failure := by
  rw [effect_perform] at h
  split_ifs at h
  · simp at h
  · exact (Except.error.inj (Prod.mk.inj h).1).symm

/-- Steps that were done leave alone what none of them harms. -/
theorem perform_keep {ε : Type} {failure : ε} {steps : List DiskStep} {d d' : Disk}
    (h : effect (perform failure steps) d = (.ok (), d')) :
    (d.Sound → d'.Sound) ∧ ∀ q n, (∀ step ∈ steps, ¬ step.harms q) → d.node? q = some n →
      d'.node? q = some n := by
  have hrun : (d.runAll steps).2 = d' := congrArg Prod.snd (perform_ok h)
  exact ⟨fun hd => hrun ▸ hd.runAll, fun q n hh hn => hrun ▸ Disk.node?_runAll hn hh⟩

theorem effect_perform_one {ε : Type} (failure : ε) (step : DiskStep) (d : Disk) :
    effect (perform failure [step]) d =
      match step.run d with
      | some d' => (.ok (), d')
      | none => (.error failure, d) := by
  rw [effect_perform, Disk.runAll]
  cases step.run d <;> rfl

theorem perform_one_ok {ε : Type} {failure : ε} {step : DiskStep} {d d' : Disk}
    (h : effect (perform failure [step]) d = (.ok (), d')) : step.run d = some d' := by
  rw [effect_perform_one] at h
  split at h
  · rename_i d₁ hrun
    have hd : d₁ = d' := (Prod.mk.inj h).2
    rw [hrun, hd]
  · simp at h

namespace Index

variable {α : Type}

@[simp] theorem effect_onDisk (work : DiskM IndexError α) (i : Index) (d : Disk) :
    effect (onDisk work) (i, d) = ((effect work d).1, (i, (effect work d).2)) := by
  unfold onDisk
  rw [effect_bind_ok (effect_get (i, d))]
  show effect (set (i, (effect work d).2) >>= fun _ => liftM (effect work d).1) (i, d) = _
  rw [effect_bind_ok (effect_set _ _), effect_lift]

theorem onDisk_run {work : DiskM IndexError α} {i i' : Index} {d d' : Disk}
    {result : Except IndexError α} (h : effect (onDisk work) (i, d) = (result, (i', d'))) :
    i' = i ∧ effect work d = (result, d') := by
  rw [effect_onDisk, Prod.mk.injEq, Prod.mk.injEq] at h
  obtain ⟨hr, hi, hd⟩ := h
  exact ⟨hi.symm, Prod.ext hr hd⟩

@[simp] theorem effect_update (f : Index → Index) (i : Index) (d : Disk) :
    effect (update f) (i, d) = (.ok (), (f i, d)) := rfl

@[simp] theorem effect_current (i : Index) (d : Disk) : effect current (i, d) = (.ok i, (i, d)) := rfl

@[simp] theorem effect_failed (e : IndexError) (i : Index) (d : Disk) :
    effect (failed e : IndexM α) (i, d) =
      (.error e, ({ i with statistics := i.statistics.recordError }, d)) := rfl

end Index
end Codebook
