/-
# Catalogs at work

A catalog that was opened has one service for each type of entities, and its index has the name of the
type. Work with a service replaces this service and leaves the others alone, and no command gives an
index another name. So this stays so for as long as the catalog is at work, whatever is asked of it,
whatever fails, and whatever others do to the disk meanwhile.

Key definitions: `Catalog.Orderly`, `Service.KeepsName`, `Catalog.KeepsOrder`.
Key theorems: `Catalog.service?_of_mem`, `Catalog.effect_within`, `Catalog.orderly_of_open`,
`Catalog.keepsOrder_ask`.
-/
import Codebook.Command.Basic
import Codebook.Proofs.Recount
import Codebook.Proofs.Redeclared
import Codebook.Proofs.Turns
import Codebook.Proofs.Visibility

namespace Codebook

namespace Catalog

variable {c c' : Catalog} {k k' : EntityKind} {β : Type}

/-! ### The services of a catalog -/

theorem service?_cons (e : CatalogEntry) (es : List CatalogEntry) (k : EntityKind) :
    service? ⟨e :: es⟩ k =
      if h : e.kind = k then some (h ▸ e.service) else service? ⟨es⟩ k := by
  simp only [service?, List.findSome?_cons]
  split_ifs <;> rfl

theorem mem_of_service? {s : Service k.Entity} (h : c.service? k = some s) : ⟨k, s⟩ ∈ c.entries := by
  obtain ⟨es⟩ := c
  induction es with
  | nil => simp [service?] at h
  | cons e es ih =>
    obtain ⟨kind, service⟩ := e
    rw [service?_cons] at h
    split_ifs at h with hkind
    · subst hkind
      obtain rfl := Option.some.inj h
      exact List.mem_cons_self
    · exact List.mem_cons_of_mem _ (ih h)

/-- Every entry holds the service of its type. -/
theorem service?_of_mem (hkinds : (c.entries.map CatalogEntry.kind).Nodup) {e : CatalogEntry}
    (he : e ∈ c.entries) : c.service? e.kind = some e.service := by
  obtain ⟨es⟩ := c
  induction es with
  | nil => simp at he
  | cons f es ih =>
    rw [List.map_cons, List.nodup_cons] at hkinds
    rw [service?_cons]
    rcases List.mem_cons.mp he with rfl | he
    · rw [dif_pos rfl]
    · have hkind : e.kind ∈ es.map CatalogEntry.kind := List.mem_map_of_mem he
      have hne : f.kind ≠ e.kind := fun h : f.kind = e.kind => hkinds.1 (h ▸ hkind)
      rw [dif_neg hne]
      exact ih hkinds.2 he

theorem service?_setService_ne (s : Service k.Entity) (hne : k' ≠ k) :
    (c.setService k s).service? k' = c.service? k' := by
  obtain ⟨es⟩ := c
  induction es with
  | nil => rfl
  | cons e es ih =>
    have hset : setService ⟨e :: es⟩ k s =
        ⟨(if e.kind = k then ⟨k, s⟩ else e) :: (setService ⟨es⟩ k s).entries⟩ := rfl
    rw [hset, service?_cons, service?_cons, ih]
    by_cases hkind : e.kind = k
    · rw [if_pos hkind, dif_neg (Ne.symm hne), dif_neg fun h : e.kind = k' => hne (h.symm.trans hkind)]
    · rw [if_neg hkind]

theorem service?_setService_self (s : Service k.Entity) {t : Service k.Entity}
    (h : c.service? k = some t) : (c.setService k s).service? k = some s := by
  obtain ⟨es⟩ := c
  induction es with
  | nil => simp [service?] at h
  | cons e es ih =>
    have hset : setService ⟨e :: es⟩ k s =
        ⟨(if e.kind = k then ⟨k, s⟩ else e) :: (setService ⟨es⟩ k s).entries⟩ := rfl
    rw [service?_cons] at h
    rw [hset, service?_cons]
    by_cases hkind : e.kind = k
    · rw [if_pos hkind, dif_pos rfl]
    · rw [if_neg hkind, dif_neg hkind]
      exact ih (by rwa [dif_neg hkind] at h)

/-- A service that is put in its own place changes nothing. -/
theorem setService_same (hkinds : (c.entries.map CatalogEntry.kind).Nodup) {s : Service k.Entity}
    (h : c.service? k = some s) : c.setService k s = c := by
  have hsame : c.entries.map (fun e => if e.kind = k then ⟨k, s⟩ else e) = c.entries.map id := by
    refine List.map_congr_left fun e he => ?_
    split_ifs with hkind
    · have hservice := service?_of_mem hkinds he
      obtain ⟨kind, service⟩ := e
      subst hkind
      rw [Option.some.inj (h.symm.trans hservice)]
      rfl
    · rfl
  rw [setService, hsame, List.map_id]

/-- Work with a service is done with this service and no other. -/
theorem effect_within {s : Service k.Entity} (h : c.service? k = some s) (work : ServiceM k.Entity β)
    (d : Disk) : effect (within k work) (c, d) = ((effect work (s, d)).1,
      (c.setService k (effect work (s, d)).2.1, (effect work (s, d)).2.2)) := by
  unfold within
  rw [effect_bind_ok (effect_get _)]
  simp only [h]
  show effect (set (_, (effect work (s, d)).2.2) >>= fun _ => liftM (effect work (s, d)).1) _ = _
  rw [effect_bind_ok (effect_set _ _), effect_lift]
  rfl

/-! ### One service for each type -/

/-- There is one service for each type, in their order, and its index has the name of the type. -/
structure Orderly (c : Catalog) : Prop where
  kinds : c.entries.map CatalogEntry.kind = EntityKind.all
  named : ∀ e ∈ c.entries, e.service.index.name = e.kind.name

namespace Orderly

theorem nodup (h : c.Orderly) : (c.entries.map CatalogEntry.kind).Nodup := by
  rw [h.kinds]
  decide

theorem exists_service (h : c.Orderly) (k : EntityKind) : ∃ s, c.service? k = some s := by
  have hk : k ∈ c.entries.map CatalogEntry.kind := by
    rw [h.kinds]
    cases k <;> decide
  obtain ⟨e, he, rfl⟩ := List.mem_map.mp hk
  exact ⟨e.service, service?_of_mem h.nodup he⟩

theorem setService (h : c.Orderly) {s : Service k.Entity} (hname : s.index.name = k.name) :
    (c.setService k s).Orderly where
  kinds := by
    rw [← h.kinds, Catalog.setService, List.map_map]
    refine List.map_congr_left fun e _ => ?_
    simp only [Function.comp_apply]
    split_ifs with hkind
    · exact hkind.symm
    · rfl
  named := by
    intro e he
    obtain ⟨f, hf, rfl⟩ := List.mem_map.mp he
    by_cases hkind : f.kind = k
    · rw [if_pos hkind]
      exact hname
    · rw [if_neg hkind]
      exact h.named f hf

end Orderly

end Catalog

/-! ### Work that keeps the names of indexes -/

/-- Work with a service after which its index has the name that it had. -/
def Service.KeepsName {α β : Type} (work : ServiceM α β) : Prop :=
  ∀ s d, (effect work (s, d)).2.1.index.name = s.index.name

theorem Index.EndsNone.keepsName {α β : Type} {work : IndexM β} (h : EndsNone work) :
    Service.KeepsName (Service.onIndex work : ServiceM α β) := by
  intro s d
  rw [Service.effect_onIndex, Index.name, Index.name]
  exact congrArg (fun t => t.1.1.entityType) (h.tally (s.index, d))

/-- Documents are counted without a trace. -/
theorem Index.effect_numDocs (i : Index) : effect numDocs i =
    (match i.live with
      | some l => .ok l.content.size
      | none => .error (.closed i.name), i) := by
  unfold numDocs
  cases hl : i.live with
  | none => rw [effect_bind_error (effect_searcher_closed hl)]
  | some l =>
    rw [effect_bind_ok (effect_searcher hl)]
    rfl

theorem Service.keepsName_search {α β : Type} {lookup : LookupM β}
    (h : ∀ i, (effect lookup i).2.name = i.name) :
    KeepsName (search lookup : ServiceM α β) := by
  intro s d
  rw [search, effect_onIndex, Index.effect_lookup]
  exact h s.index

/-! ### Catalogs that are opened -/

theorem Service.open_named {α : Type} [Indexed α] {config : Config} {store : Store α} {s : Service α}
    {d d' : Disk} (h : effect (Service.open config store) d = (.ok s, d')) :
    s.index.name = Indexed.entityType α := by
  unfold Service.open at h
  obtain ⟨i, d₁, hnew, h₁⟩ := bind_ok h
  obtain ⟨hi, rfl⟩ := lift_ok hnew
  rw [effect_bind_ok (effect_get d)] at h₁
  have hname : (effect Index.open (i, d)).2.1.name = i.name :=
    congrArg (fun t => t.1.1.entityType) (Index.endsNone_open.tally (i, d))
  obtain ⟨_, d₂, -, h₂⟩ := bind_ok h₁
  obtain ⟨_, d₃, -, h₃⟩ := bind_ok h₂
  obtain ⟨rfl, -⟩ := pure_ok h₃
  exact hname.trans (Index.new_ok hi).2.2.2.2

namespace Catalog

variable {directory : Path} {config : Config} {c c' : Catalog} {d d' : Disk}

theorem openEntry_named {k : EntityKind} {e : CatalogEntry}
    (h : effect (openEntry directory config k) d = (.ok e, d')) :
    e.kind = k ∧ e.service.index.name = e.kind.name := by
  unfold openEntry at h
  rw [effect_bind_ok (effect_get d)] at h
  obtain ⟨_, d₁, -, h₁⟩ := bind_ok h
  obtain ⟨store, d₂, -, h₂⟩ := bind_ok h₁
  obtain ⟨_, d₃, -, h₃⟩ := bind_ok h₂
  obtain ⟨service, d₄, hservice, h₄⟩ := bind_ok h₃
  obtain ⟨hopen, -⟩ := lift_ok hservice
  obtain ⟨rfl, -⟩ := pure_ok h₄
  exact ⟨rfl, Service.open_named (Prod.ext (mapError_eq_ok.mp hopen) rfl)⟩

theorem openAfter_named : ∀ {kinds : List EntityKind} {c : Catalog} {d : Disk},
    (∀ e ∈ c.entries, e.service.index.name = e.kind.name) →
    effect (openAfter directory config c kinds) d = (.ok c', d') →
    c'.entries.map CatalogEntry.kind = c.entries.map CatalogEntry.kind ++ kinds ∧
      ∀ e ∈ c'.entries, e.service.index.name = e.kind.name
  | [], c, d, hnamed, h => by
    obtain ⟨rfl, -⟩ := pure_ok h
    exact ⟨(List.append_nil _).symm, hnamed⟩
  | k :: kinds, c, d, hnamed, h => by
    unfold openAfter at h
    rw [effect_bind_ok (effect_get d)] at h
    rcases hentry : (openEntry directory config k).run d with ⟨e | e, d₁⟩ <;> rw [hentry] at h
    · obtain ⟨_, _, -, hthrow⟩ := bind_ok h
      simp at hthrow
    · obtain ⟨hkind, hname⟩ := openEntry_named hentry
      obtain ⟨_, d₂, -, hrest⟩ := bind_ok h
      obtain ⟨hkinds, hall⟩ :=
        openAfter_named (by simpa [or_imp, forall_and] using ⟨hnamed, hname⟩) hrest
      exact ⟨by simpa [hkind] using hkinds, hall⟩

/-- A catalog that was opened is in order, whatever was on the disk. -/
theorem orderly_of_open (h : effect (Catalog.open directory config) d = (.ok c, d')) : c.Orderly := by
  obtain ⟨hkinds, hnamed⟩ := openAfter_named (by simp) h
  exact ⟨hkinds, hnamed⟩

end Catalog

/-! ### Work of commands -/

@[simp] theorem effect_printLine (line : String) (s : Session) :
    effect (printLine line) s = (.ok (), { s with lines := line :: s.lines }) := rfl

theorem effect_onCatalog {α : Type} (work : CatalogM α) (s : Session) :
    effect (onCatalog work) s = ((effect work (s.catalog, s.disk)).1,
      { s with
        catalog := (effect work (s.catalog, s.disk)).2.1
        disk := (effect work (s.catalog, s.disk)).2.2 }) := by
  unfold onCatalog
  rw [effect_bind_ok (effect_get s)]
  show effect (set { s with
      catalog := (effect work (s.catalog, s.disk)).2.1
      disk := (effect work (s.catalog, s.disk)).2.2 } >>= fun _ => liftM (effect work _).1) s = _
  rw [effect_bind_ok (effect_set s _), effect_lift]

theorem effect_ask {β : Type} (k : EntityKind) (work : ServiceM k.Entity β) (x : Catalog × Disk) :
    effect (Catalog.ask k work) x = ((effect (Catalog.within k work) x).1.mapError CommandError.index,
      (effect (Catalog.within k work) x).2) := by
  unfold Catalog.ask
  rw [effect_bind_ok (effect_get x)]
  show effect (set (effect (Catalog.within k work) x).2 >>= fun _ =>
    liftM ((effect (Catalog.within k work) x).1.mapError CommandError.index)) x = _
  rw [effect_bind_ok (effect_set x _), effect_lift]

namespace Keeps

variable {ε σ α β : Type} {P : σ → Prop}

/-- What each pass through a loop keeps is kept by the loop. -/
theorem forIn {f : α → β → ExceptT ε (StateM σ) (ForInStep β)}
    (hf : ∀ a b, Keeps P (fun _ => True) (f a b)) :
    ∀ (as : List α) (b : β), Keeps P (fun _ => True) (ForIn.forIn as b f)
  | [], b => .pure trivial
  | a :: as, b => by
    rw [List.forIn_cons]
    refine (hf a b).bind fun step _ => ?_
    cases step with
    | done b => exact .pure trivial
    | yield b => exact forIn hf as b

theorem mapM {f : α → ExceptT ε (StateM σ) β} (hf : ∀ a, Keeps P (fun _ => True) (f a)) :
    ∀ as : List α, Keeps P (fun _ => True) (as.mapM f)
  | [] => .pure trivial
  | a :: as => by
    rw [List.mapM_cons]
    exact (hf a).bind fun _ _ => (mapM hf as).bind fun _ _ => .pure trivial

end Keeps

/-- Work with a catalog after which the catalog is in order if it was before. -/
def Catalog.KeepsOrder {β : Type} (work : CatalogM β) : Prop :=
  Keeps (fun x : Catalog × Disk => x.1.Orderly) (fun _ => True) work

theorem Catalog.keepsOrder_ask {β : Type} {k : EntityKind} {work : ServiceM k.Entity β}
    (h : Service.KeepsName work) : KeepsOrder (ask k work) := by
  rintro ⟨c, d⟩ hc
  obtain ⟨s, hs⟩ := hc.exists_service k
  have hname := (h s d).trans (hc.named _ (mem_of_service? hs))
  rw [effect_ask, effect_within hs]
  exact ⟨hc.setService hname, fun _ _ => trivial⟩

theorem Catalog.keepsOrder_close : KeepsOrder close := by
  refine Keeps.get.bind fun x _ => ?_
  refine (Keeps.forIn (fun e _ => ?_) x.1.entries PUnit.unit).bind fun _ _ => .pure trivial
  exact (keepsOrder_ask Index.endsNone_close.keepsName).bind fun _ _ => .pure trivial

namespace Command

/-- Work of a command after which the catalog is in order if it was before. -/
def KeepsOrder {β : Type} (work : CommandM β) : Prop :=
  Keeps (fun s : Session => s.catalog.Orderly) (fun _ => True) work

theorem keepsOrder_onCatalog {β : Type} {work : CatalogM β} (h : Catalog.KeepsOrder work) :
    KeepsOrder (onCatalog work) := by
  intro s hs
  rw [effect_onCatalog]
  exact ⟨(h _ hs).1, fun _ _ => trivial⟩

theorem keepsOrder_printLine (line : String) : KeepsOrder (printLine line) :=
  fun _ hs => ⟨hs, fun _ _ => trivial⟩

theorem keepsOrder_catalogEntries : KeepsOrder catalogEntries :=
  fun _ hs => ⟨hs, fun _ _ => trivial⟩

theorem keepsOrder_runQuery (entity : String) (criteria : Option String) :
    KeepsOrder (runQuery entity criteria) := by
  refine Keeps.get.bind fun s _ => ?_
  refine Keeps.bind (V := fun _ => True) (.lift fun _ _ => trivial) fun e _ => ?_
  refine Keeps.bind (V := fun _ => True) (.lift fun _ _ => trivial) fun c _ => ?_
  refine Keeps.bind (keepsOrder_onCatalog (Catalog.keepsOrder_ask (Service.keepsName_search fun i => ?_)))
    fun found _ => keepsOrder_printLine _
  obtain ⟨statistics, hstate⟩ := Index.find_state e.kind.Entity c i
  rw [hstate]
  rfl

theorem keepsOrder_statsRow (e : CatalogEntry) : KeepsOrder (statsRow e) := by
  refine Keeps.bind (keepsOrder_onCatalog (Catalog.keepsOrder_ask (Service.keepsName_search fun i => ?_)))
    fun _ _ => .pure trivial
  rw [Index.effect_numDocs]

theorem keepsOrder_runStats (format : String) : KeepsOrder (runStats format) := by
  refine keepsOrder_catalogEntries.bind fun es _ => ?_
  refine (Keeps.mapM keepsOrder_statsRow es).bind fun rows _ => ?_
  split_ifs
  · exact keepsOrder_printLine _
  · refine (keepsOrder_printLine _).bind fun _ _ => (keepsOrder_printLine _).bind fun _ _ => ?_
    refine (Keeps.forIn (fun row _ => ?_) rows PUnit.unit).bind fun _ _ => ?_
    · exact (keepsOrder_printLine _).bind fun _ _ => .pure trivial
    · exact (keepsOrder_printLine _).bind fun _ _ => keepsOrder_printLine _
  · exact .throw _

theorem keepsOrder_runVersion : KeepsOrder runVersion :=
  (keepsOrder_printLine _).bind fun _ _ => keepsOrder_printLine _

end Command

end Codebook
