/-
# How many documents a rebuild leaves

A rebuild that comes to its end leaves an open index with one document for each entity of the store,
whatever was on the disk and whatever the index was before: what it writes is what it reads back, since
it begins with a journal of its own and nothing is committed meanwhile. However it ends, the settings of
the index stay.

Key definitions: `Source.Counts`.
Key theorems: `Store.source_counts`, `Index.endsNone_rebuildFrom`, `Index.rebuildFrom_counts`.
-/
import Codebook.Proofs.Calls
import Codebook.Proofs.Filling
import Codebook.Store.Basic

namespace Codebook

open IndexDirectory

/-! ### What there is to count -/

/-- The source says that there are so many entities, and pages that all come hold as many. -/
structure Source.Counts {α : Type} (source : Source α) (n : Nat) : Prop where
  count : source.count = .ok n
  pages : ∀ {size pages}, source.pages size = .ok pages → ∀ {read : List (List α)},
    pages = read.map .ok → read.flatten.length = n

/-- Every store counts its entities, also one whose pages do not all come. -/
theorem Store.source_counts {α : Type} [Indexed α] (store : Store α) :
    store.source.Counts store.entities.size := by
  have hlist : ∀ m : MemoryStore α, (Source.ofList m.toList).Counts m.size := by
    refine fun m => ⟨by simp [Source.ofList, MemoryStore.size, MemoryStore.toList, Keyed.values], ?_⟩
    rintro size pages hpages read rfl
    obtain ⟨unread, hall, hsame⟩ := pages_ofList hpages
    obtain rfl : read = unread := List.map_injective_iff.mpr (fun _ _ => Except.ok.inj) hsame
    simp [hall, MemoryStore.size, MemoryStore.toList, Keyed.values]
  cases store with
  | memory m => exact hlist m
  | lines l => exact hlist l.memory
  | failing after m =>
    refine ⟨(hlist m).count, ?_⟩
    rintro size pages hpages read rfl
    simp only [source, Source.failing] at hpages
    cases hcut : pagesOf size m.toList with
    | error e => simp [hcut, Except.map] at hpages
    | ok cut =>
      -- the last page is a failure, so these are not all the pages
      have hlast := congrArg List.getLast? (Except.ok.inj (hcut ▸ hpages))
      simp only [List.getLast?_concat, List.getLast?_map] at hlast
      cases hread : read.getLast? <;> simp [hread] at hlast

namespace Index

variable {α : Type} [Indexed α] {i i' : Index} {d d' : Disk} {b b' : Building} {n : Nat}
  {source : Source α}

/-! ### The settings stay -/

theorem endsNone_addPages : ∀ (pages : List (Except StoreError (List α))) (b : Building),
    EndsNone (addPages b pages)
  | [], b => (quiet_pure b).endsNone
  | page :: pages, b => by
    refine (quiet_lift _).endsNone.bind fun as => EndsNone.bind ?_ (endsNone_addPages pages)
    exact endsNone_current fun i => (quiet_lift _).endsNone.bind fun _ => (quiet_pure _).endsNone

/-- A rebuild ends no transaction and keeps the settings, whatever becomes of it. -/
theorem endsNone_rebuildFrom (source : Source α) : EndsNone (rebuildFrom source) := by
  refine (quiet_lift _).endsNone.bind fun _ => endsNone_beginRebuild.bind fun b => ?_
  refine EndsNone.bind (.tryCatch ?_ (endsNone_abandonRebuild b)) endsNone_finishRebuild
  exact endsNone_current fun i => (quiet_lift _).endsNone.bind fun pages => endsNone_addPages pages b

/-! ### The documents that are added -/

/-- Pages whose documents were added all came, and no entity on them was passed over. -/
theorem addPages_ok : ∀ {pages : List (Except StoreError (List α))} {b : Building},
    effect (addPages b pages) (i, d) = (.ok b', (i', d')) → i' = i ∧
      ∃ read : List (List α), pages = read.map .ok ∧ b'.size = b.size + read.flatten.length
  | [], b, h => by
    obtain ⟨rfl, hs⟩ := pure_ok h
    exact ⟨(Prod.mk.inj hs).1.symm, [], rfl, rfl⟩
  | page :: pages, b, h => by
    obtain ⟨as, s₁, hpage, h₁⟩ := bind_ok h
    obtain ⟨hcame, rfl⟩ := lift_ok hpage
    obtain rfl : page = .ok as := mapError_eq_ok.mp hcame
    obtain ⟨b₁, ⟨i₂, d₂⟩, hadd, h₂⟩ := bind_ok h₁
    unfold addEntities at hadd
    rw [effect_bind_ok (effect_current i d)] at hadd
    obtain ⟨ds, s₂, hencode, hend⟩ := bind_ok hadd
    obtain ⟨hds, rfl⟩ := lift_ok hencode
    obtain ⟨rfl, hs⟩ := pure_ok hend
    obtain ⟨rfl, rfl⟩ := Prod.mk.inj hs
    obtain ⟨hi, read, rfl, hsize⟩ := addPages_ok h₂
    have hlength : as.length = ds.length := (forall₂_of_mapM hds).length_eq
    refine ⟨hi, as :: read, rfl, ?_⟩
    rw [hsize, List.flatten_cons, List.length_append, hlength, Building.size, Building.add,
      List.length_append, Building.size, Nat.add_assoc]

/-! ### What is brought in -/

theorem beginRebuild_blank (h : effect beginRebuild (i, d) = (.ok b, (i', d'))) :
    i'.journal = some [] ∧ b.documents = [] := by
  unfold beginRebuild at h
  obtain ⟨_, ⟨i₁, d₁⟩, hstart, h₁⟩ := bind_ok h
  obtain ⟨-, rfl, rfl⟩ := startJournal_ok hstart
  have h₂ := tryCatch_ok (fun e u => dropJournal_fails e u) h₁
  obtain ⟨dir, ⟨i₂, d₂⟩, hdir, h₃⟩ := bind_ok h₂
  obtain rfl := quiet_liveDirectory.keeps hdir
  obtain ⟨number, ⟨i₃, d₃⟩, hcreate, h₄⟩ := bind_ok h₃
  obtain rfl := (quiet_onDisk _).keeps hcreate
  have hbuild := tryCatch_ok (fun e u => discard_fails _ e u) h₄
  obtain rfl := (quiet_startBuilding _ _).keeps hbuild
  unfold startBuilding at hbuild
  rw [effect_bind_ok (effect_current _ d₃)] at hbuild
  obtain ⟨_, _, -, hwriter⟩ := bind_ok hbuild
  obtain ⟨w, _, -, hend⟩ := bind_ok hwriter
  obtain ⟨rfl, -⟩ := pure_ok hend
  exact ⟨rfl, rfl⟩

/-- A swap without a journal brings in what is on the disk. -/
theorem swapIn_reads {w : Writer} {answer : Nat × Nat} {g : Generation} (hjournal : i.journal = some [])
    (hnode : d.node? (w.path ++ [contentName]) = some (.generation g))
    (h : effect (swapIn n w) (i, d) = (.ok answer, (i', d'))) :
    answer.2 = g.size ∧ ∃ l, i'.live = some l ∧ l.content = g := by
  rw [effect_swapIn, hjournal] at h
  obtain ⟨w', s₁, hreplay, h₁⟩ := bind_ok h
  obtain ⟨rfl, rfl⟩ := pure_ok (show effect (pure w : IndexM Writer) _ = _ from hreplay)
  obtain ⟨content, ⟨i₂, d₂⟩, hread, h₂⟩ := bind_ok h₁
  obtain ⟨rfl, hcontent⟩ := onDisk_run hread
  obtain ⟨rfl, hfound⟩ := effect_readContent_ok hcontent
  obtain rfl := Node.generation.inj (Option.some.inj (hfound.symm.trans hnode))
  obtain ⟨dir, ⟨i₃, d₃⟩, hdir, h₃⟩ := bind_ok h₂
  obtain ⟨dir', ⟨i₄, d₄⟩, hturn, h₄⟩ := bind_ok h₃
  rw [effect_bind_ok (effect_current i₄ d₄), effect_bind_ok (effect_update _ i₄ d₄)] at h₄
  obtain ⟨rfl, rfl⟩ := retire_ok h₄
  exact ⟨rfl, _, rfl, rfl⟩

theorem finishRebuild_counts (hjournal : i.journal = some [])
    (h : effect (finishRebuild b) (i, d) = (.ok n, (i', d'))) :
    n = b.size ∧ ∃ l, i'.live = some l ∧ l.content.size = b.size := by
  unfold finishRebuild at h
  obtain ⟨⟨old, documents⟩, ⟨i₂, d₂⟩, htry, h₁⟩ := bind_ok h
  have hswapping := tryCatch_ok (fun e u => abandonRebuild_fails b e u) htry
  obtain ⟨w, ⟨i₁, d₁⟩, hcommit, hswap⟩ := bind_ok hswapping
  obtain ⟨rfl, rfl, hplace⟩ := applyTo_ok hcommit
  obtain ⟨rfl, l, hlive, hcontent⟩ := swapIn_reads hjournal (Disk.node?_place_self hplace) hswap
  obtain ⟨_, ⟨i₃, d₃⟩, hremove, h₂⟩ := bind_ok h₁
  obtain rfl := (quiet_removeRetired old).keeps hremove
  rw [effect_bind_ok (effect_update _ i₃ d₃)] at h₂
  obtain ⟨rfl, hend⟩ := pure_ok h₂
  obtain ⟨rfl, -⟩ := Prod.mk.inj hend
  exact ⟨rfl, l, hlive, by rw [hcontent]; rfl⟩

/-- **As many documents as entities.** A rebuild that comes to its end leaves an open index with one
document for each entity of its store, on whatever disk, and this is the number that it answers. -/
theorem rebuildFrom_counts {m : Nat} (hsource : source.Counts m)
    (h : effect (rebuildFrom source) (i, d) = (.ok n, (i', d'))) :
    n = m ∧ ∃ l, i'.live = some l ∧ l.content.size = m := by
  unfold rebuildFrom at h
  obtain ⟨_, s₀, hcount, h₀⟩ := bind_ok h
  obtain ⟨-, rfl⟩ := lift_ok hcount
  unfold rebuild at h₀
  obtain ⟨b, ⟨i₁, d₁⟩, hbegin, h₁⟩ := bind_ok h₀
  obtain ⟨hjournal, hblank⟩ := beginRebuild_blank hbegin
  obtain ⟨b', ⟨i₂, d₂⟩, hfill, hfinish⟩ := bind_ok h₁
  have hpages := tryCatch_ok (fun e u => abandonRebuild_fails b e u) hfill
  rw [effect_bind_ok (effect_current i₁ d₁)] at hpages
  obtain ⟨pages, s₂, hcut, hadd⟩ := bind_ok hpages
  obtain ⟨hread, rfl⟩ := lift_ok hcut
  obtain ⟨rfl, read, hall, hsize⟩ := addPages_ok hadd
  have hm : b'.size = m := by
    rw [hsize, Building.size, hblank, hsource.pages (mapError_eq_ok.mp hread) hall]
    exact Nat.zero_add m
  exact hm ▸ finishRebuild_counts hjournal hfinish

end Index
end Codebook
