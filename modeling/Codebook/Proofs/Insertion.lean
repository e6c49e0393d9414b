/-
# Filters in the order of their insertion

Filters are set and removed by calls. However these alternate, a field has at most one filter, the one
that the last call for the field sets, and the fields stand in the order of the calls that set them
first since they were last removed. This says all about the filters that are left, so calls that
agree in it compile to the same query. Filters that are collected from a list or read from a record
are those that are set one after the other.

Key definitions: `Filters.Call`, `Filters.play`, `Filters.Last`, `Filters.Undone`, `Filters.Begins`,
`Filters.Precedes`, `Filters.Reflects`.
Key theorems: `Filters.get?_play`, `Filters.pairwise_play`, `Filters.reflects_play`,
`Filters.Reflects.eq`, `Filters.insertion_ordered`.
-/
import Codebook.Proofs.Disk
import Codebook.Proofs.Phrasing
import Codebook.Proofs.Rebuild

namespace Codebook
namespace Filters

/-- What is done with filters. -/
inductive Call where
  /-- The filter of a field is set. -/
  | set (field : String) (f : Filter)
  /-- The filter of a field is removed. -/
  | unset (field : String)

/-- The field that a call is for. -/
def Call.field : Call → String
  | set field _ => field
  | unset field => field

/-- The filters after a call. -/
def Call.run (fs : Filters) : Call → Filters
  | set field f => (fs.replace field f).2
  | unset field => (fs.remove field).2

/-- The filters that are left by calls. -/
def play (calls : List Call) : Filters :=
  calls.foldl Call.run []

/-- The last call for the field sets this filter. -/
def Last (calls : List Call) (field : String) (f : Filter) : Prop :=
  ∃ i, calls[i]? = some (Call.set field f) ∧
    ∀ (j : Nat) c, i < j → calls[j]? = some c → c.field ≠ field

/-- Whatever was set for the field was removed later. -/
def Undone (calls : List Call) (field : String) : Prop :=
  ∀ (i : Nat) f, calls[i]? = some (Call.set field f) →
    ∃ j, i < j ∧ calls[j]? = some (Call.unset field)

/-- The call in this place is the first to set the field since it was last removed. -/
def Begins (calls : List Call) (field : String) (i : Nat) : Prop :=
  (∃ f, calls[i]? = some (Call.set field f)) ∧
    (∀ j, i < j → calls[j]? ≠ some (Call.unset field)) ∧ Undone (calls.take i) field

/-- One field was set before another, each for the first time since it was last removed. -/
def Precedes (calls : List Call) (a b : String) : Prop :=
  ∃ i j, Begins calls a i ∧ Begins calls b j ∧ i < j

/-- The filters are what the calls say: a field has the filter that was set last, and the fields stand
in the order in which they were set. -/
structure Reflects (calls : List Call) (fs : Filters) : Prop where
  nodup : fs.names.Nodup
  mem_iff : ∀ field f, (field, f) ∈ fs ↔ Last calls field f
  sublist_iff : ∀ a b, [a, b].Sublist fs.names ↔ Precedes calls a b

variable {fs fs' : Filters} {f : Filter} {field name a b : String} {calls calls' : List Call}
  {c d : Call} {i j : Nat}

/-! ### Answers -/

theorem get?_cons (name : String) (g : Filter) (fs : Filters) (field : String) :
    get? ((name, g) :: fs) field = if field = name then some g else fs.get? field := by
  rw [get?, List.lookup_cons]
  by_cases h : field = name
  · simp [h]
  · rw [beq_false_of_ne h, if_neg h, get?]

theorem get?_eq_some_iff (h : fs.names.Nodup) : fs.get? field = some f ↔ (field, f) ∈ fs :=
  ⟨mem_of_lookup, lookup_of_mem h⟩

theorem isSome_get? (field : String) : ∀ fs : Filters, (fs.get? field).isSome ↔ field ∈ fs.names
  | [] => by simp [get?, names]
  | (name, g) :: fs => by
    have ih := isSome_get? field fs
    rw [get?_cons]
    by_cases h : field = name <;> simp_all [names]

/-- Whoever sets a filter is answered the one that the field had. -/
theorem replace_eq (field : String) (f : Filter) :
    ∀ fs : Filters, fs.replace field f = (fs.get? field, fs.insert field f)
  | [] => rfl
  | (name, g) :: fs => by
    rw [replace, insert, replace_eq field f fs, get?_cons]
    by_cases h : name = field
    · simp [h]
    · simp [h, Ne.symm h]

/-- So is whoever removes it. -/
theorem remove_eq (field : String) :
    ∀ fs : Filters, fs.remove field = (fs.get? field, fs.erase field)
  | [] => rfl
  | (name, g) :: fs => by
    rw [remove, erase, remove_eq field fs, get?_cons]
    by_cases h : name = field
    · simp [h]
    · simp [h, Ne.symm h]

theorem get?_insert (field : String) (f : Filter) (name : String) : ∀ fs : Filters,
    (fs.insert field f).get? name = if name = field then some f else fs.get? name
  | [] => get?_cons field f [] name
  | (other, g) :: fs => by
    have ih := get?_insert field f name fs
    rw [insert, get?_cons]
    by_cases h : other = field
    · rw [if_pos h, get?_cons, h]
      split_ifs <;> rfl
    · rw [if_neg h, get?_cons, ih]
      by_cases hname : name = other
      · simp [hname, h]
      · simp [hname]

theorem names_erase (field : String) : ∀ fs : Filters, (fs.erase field).names = fs.names.erase field
  | [] => rfl
  | (name, g) :: fs => by
    have ih := names_erase field fs
    rw [erase, names, names, List.map_cons, List.erase_cons]
    by_cases h : name = field
    · simp [h]
    · simpa [h, names] using ih

theorem get?_erase (field name : String) : ∀ fs : Filters, fs.names.Nodup →
    (fs.erase field).get? name = if name = field then none else fs.get? name
  | [], _ => by simp [erase, get?]
  | (other, g) :: fs, h => by
    obtain ⟨hother, hrest⟩ := List.nodup_cons.mp h
    have ih := get?_erase field name fs hrest
    rw [erase, get?_cons]
    by_cases hfield : other = field
    · subst hfield
      have hnone : get? fs other = none := by
        rw [← Option.not_isSome_iff_eq_none, isSome_get?]
        exact hother
      rw [if_pos rfl]
      split_ifs with hname
      · rw [hname, hnone]
      · rfl
    · rw [if_neg hfield, get?_cons, ih]
      by_cases hname : name = other
      · simp [hname, hfield]
      · simp [hname]

theorem length_insert (field : String) (f : Filter) (fs : Filters) :
    (fs.insert field f).length = fs.length + if (fs.get? field).isSome then 0 else 1 := by
  have h := congrArg List.length (names_insert field f fs)
  simp only [isSome_get?]
  split_ifs at h ⊢ <;> simpa [names] using h

theorem length_erase (field : String) (fs : Filters) :
    ((fs.erase field).length + if (fs.get? field).isSome then 1 else 0) = fs.length := by
  have h := congrArg List.length (names_erase field fs)
  simp only [isSome_get?]
  by_cases hmem : field ∈ fs.names
  · have hpos := List.length_pos_of_mem hmem
    rw [List.length_erase_of_mem hmem] at h
    rw [if_pos hmem]
    simp only [names, List.length_map] at h hpos
    omega
  · rw [List.erase_of_not_mem hmem] at h
    rw [if_neg hmem]
    simpa [names] using h

/-! ### One more call

What calls leave is shown by induction on them from the last one on, so each notion is told for calls
that are followed by one more. -/

theorem play_concat (calls : List Call) (c : Call) : play (calls ++ [c]) = c.run (play calls) :=
  List.foldl_concat ..

theorem getElem?_concat_iff :
    (calls ++ [c])[i]? = some d ↔ calls[i]? = some d ∨ i = calls.length ∧ c = d := by
  rcases Nat.lt_trichotomy i calls.length with hi | rfl | hi
  · simp [List.getElem?_append_left hi, Nat.ne_of_lt hi]
  · simp
  · have hnone : (calls ++ [c])[i]? = none := List.getElem?_eq_none (by simp; omega)
    simp [hnone, List.getElem?_eq_none (Nat.le_of_lt hi), Nat.ne_of_gt hi]

theorem lt_of_call (h : calls[i]? = some c) : i < calls.length :=
  (List.getElem?_eq_some_iff.mp h).1

/-- Nothing comes after the last call. -/
theorem not_call_of_gt (h : calls.length < j) : (calls ++ [c])[j]? ≠ some d := fun hj => by
  have := lt_of_call hj
  simp at this
  omega

theorem last_concat : Last (calls ++ [c]) field f ↔
    c = .set field f ∨ c.field ≠ field ∧ Last calls field f := by
  constructor
  · rintro ⟨i, hi, hlater⟩
    rcases getElem?_concat_iff.mp hi with hi | ⟨rfl, rfl⟩
    · exact .inr ⟨hlater _ _ (lt_of_call hi) List.getElem?_concat_length, i, hi, fun j d hij hj =>
        hlater j d hij (getElem?_concat_iff.mpr (.inl hj))⟩
    · exact .inl rfl
  · rintro (rfl | ⟨hne, i, hi, hlater⟩)
    · exact ⟨calls.length, List.getElem?_concat_length, fun j d hij hj =>
        absurd hj (not_call_of_gt hij)⟩
    · refine ⟨i, getElem?_concat_iff.mpr (.inl hi), fun j d hij hj => ?_⟩
      rcases getElem?_concat_iff.mp hj with hj | ⟨-, rfl⟩
      · exact hlater j d hij hj
      · exact hne

theorem undone_concat : Undone (calls ++ [c]) field ↔
    c = .unset field ∨ (∀ f, c ≠ .set field f) ∧ Undone calls field := by
  constructor
  · intro h
    by_cases hc : c = .unset field
    · exact .inl hc
    · refine .inr ⟨fun f hf => ?_, fun i f hi => ?_⟩
      · obtain ⟨j, hij, hj⟩ := h calls.length f (hf ▸ List.getElem?_concat_length)
        exact not_call_of_gt hij hj
      · obtain ⟨j, hij, hj⟩ := h i f (getElem?_concat_iff.mpr (.inl hi))
        exact ⟨j, hij, (getElem?_concat_iff.mp hj).resolve_right fun hlast => hc hlast.2⟩
  · rintro (rfl | ⟨hset, h⟩) i f hi
    · rcases getElem?_concat_iff.mp hi with hi | ⟨-, hc⟩
      · exact ⟨_, lt_of_call hi, List.getElem?_concat_length⟩
      · cases hc
    · rcases getElem?_concat_iff.mp hi with hi | ⟨-, hc⟩
      · obtain ⟨j, hij, hj⟩ := h i f hi
        exact ⟨j, hij, getElem?_concat_iff.mpr (.inl hj)⟩
      · exact absurd hc (hset f)

theorem begins_concat : Begins (calls ++ [c]) field i ↔
    Begins calls field i ∧ c ≠ .unset field ∨
      i = calls.length ∧ (∃ f, c = .set field f) ∧ Undone calls field := by
  constructor
  · rintro ⟨⟨f, hi⟩, hkept, hbefore⟩
    rcases getElem?_concat_iff.mp hi with hi | ⟨rfl, rfl⟩
    · have hlt := lt_of_call hi
      rw [List.take_append_of_le_length hlt.le] at hbefore
      refine .inl ⟨⟨⟨f, hi⟩, fun j hij hj => ?_, hbefore⟩, fun hc => ?_⟩
      · exact hkept j hij (getElem?_concat_iff.mpr (.inl hj))
      · exact hkept _ hlt (hc ▸ List.getElem?_concat_length)
    · rw [List.take_left] at hbefore
      exact .inr ⟨rfl, ⟨f, rfl⟩, hbefore⟩
  · rintro (⟨⟨⟨f, hi⟩, hkept, hbefore⟩, hc⟩ | ⟨rfl, ⟨f, rfl⟩, hbefore⟩)
    · refine ⟨⟨f, getElem?_concat_iff.mpr (.inl hi)⟩, fun j hij hj => ?_, ?_⟩
      · rcases getElem?_concat_iff.mp hj with hj | ⟨-, hj⟩
        · exact hkept j hij hj
        · exact hc hj
      · rwa [List.take_append_of_le_length (lt_of_call hi).le]
    · exact ⟨⟨f, List.getElem?_concat_length⟩, fun j hij => not_call_of_gt hij, by
        rwa [List.take_left]⟩

/-! ### What calls leave -/

theorem nodup_play (calls : List Call) : (play calls).names.Nodup := by
  induction calls using List.reverseRecOn with
  | nil => exact List.nodup_nil
  | append_singleton calls c ih =>
    rw [play_concat]
    cases c with
    | set field f =>
      rw [Call.run, replace_eq]
      exact nodup_insert ih
    | unset field =>
      rw [Call.run, remove_eq, names_erase]
      exact ih.erase field

/-- The filter of a field is the one that was set last. -/
theorem get?_play : (play calls).get? field = some f ↔ Last calls field f := by
  induction calls using List.reverseRecOn with
  | nil => simp [play, get?, Last]
  | append_singleton calls c ih =>
    rw [play_concat, last_concat, ← ih]
    cases c with
    | set other g =>
      rw [Call.run, replace_eq, get?_insert]
      by_cases h : field = other
      · simp [h, Call.field]
      · simp [h, Ne.symm h, Call.field]
    | unset other =>
      rw [Call.run, remove_eq, get?_erase _ _ _ (nodup_play calls)]
      by_cases h : field = other
      · simp [h, Call.field]
      · simp [h, Ne.symm h, Call.field]

theorem mem_names_insert : field ∈ (fs.insert name f).names ↔ field = name ∨ field ∈ fs.names := by
  rw [← isSome_get?, get?_insert, ← isSome_get?]
  split_ifs with h <;> simp [h]

/-- A field has no filter if whatever was set for it was removed. -/
theorem not_mem_names_play : field ∉ (play calls).names ↔ Undone calls field := by
  induction calls using List.reverseRecOn with
  | nil => simp [play, names, Undone]
  | append_singleton calls c ih =>
    rw [play_concat, undone_concat, ← ih]
    cases c with
    | set other g =>
      rw [Call.run, replace_eq, mem_names_insert]
      simp [eq_comm]
    | unset other =>
      rw [Call.run, remove_eq, names_erase, (nodup_play calls).mem_erase_iff]
      by_cases h : field = other
      · simp [h]
      · simp [h, Ne.symm h]

theorem Begins.mem_names (h : Begins calls field i) : field ∈ (play calls).names := by
  obtain ⟨⟨f, hi⟩, hkept, -⟩ := h
  by_contra hnone
  obtain ⟨j, hij, hj⟩ := not_mem_names_play.mp hnone i f hi
  exact hkept j hij hj

theorem exists_begins (h : field ∈ (play calls).names) : ∃ i, Begins calls field i := by
  induction calls using List.reverseRecOn with
  | nil => simp [play, names] at h
  | append_singleton calls c ih =>
    by_cases hmem : field ∈ (play calls).names
    · obtain ⟨i, hi⟩ := ih hmem
      refine ⟨i, begins_concat.mpr (.inl ⟨hi, ?_⟩)⟩
      rintro rfl
      rw [play_concat, Call.run, remove_eq, names_erase] at h
      exact (nodup_play calls).not_mem_erase h
    · have hundone := not_mem_names_play.mp hmem
      refine ⟨calls.length, begins_concat.mpr (.inr ⟨rfl, ?_, hundone⟩)⟩
      by_contra hset
      refine not_mem_names_play.mpr (undone_concat.mpr (.inr ⟨fun f hf => hset ⟨f, hf⟩, hundone⟩)) h

/-- A field begins in one place. -/
theorem Begins.le (hi : Begins calls field i) (hj : Begins calls field j) : i ≤ j := by
  obtain ⟨-, -, hundone⟩ := hi
  obtain ⟨⟨f, hset⟩, hkept, -⟩ := hj
  by_contra hlt
  have hbefore : (calls.take i)[j]? = some (Call.set field f) := by
    rw [List.getElem?_take_of_lt (by omega), hset]
  obtain ⟨k, hjk, hk⟩ := hundone j f hbefore
  rw [List.getElem?_take] at hk
  split_ifs at hk
  exact hkept k hjk hk

theorem Precedes.asymm (hab : Precedes calls a b) : ¬ Precedes calls b a := by
  rintro ⟨j', i', hj', hi', hlt'⟩
  obtain ⟨i, j, hi, hj, hlt⟩ := hab
  have := hi'.le hi
  have := hj.le hj'
  omega

theorem Precedes.concat (h : Precedes calls a b) (ha : c ≠ .unset a) (hb : c ≠ .unset b) :
    Precedes (calls ++ [c]) a b := by
  obtain ⟨i, j, hi, hj, hlt⟩ := h
  exact ⟨i, j, begins_concat.mpr (.inl ⟨hi, ha⟩), begins_concat.mpr (.inl ⟨hj, hb⟩), hlt⟩

/-- Fields stand in the order in which they begin. -/
theorem pairwise_play (calls : List Call) : (play calls).names.Pairwise (Precedes calls) := by
  induction calls using List.reverseRecOn with
  | nil => exact .nil
  | append_singleton calls c ih =>
    rw [play_concat]
    cases c with
    | set field f =>
      have hkept : (play calls).names.Pairwise (Precedes (calls ++ [.set field f])) :=
        ih.imp fun h => h.concat nofun nofun
      rw [Call.run, replace_eq, names_insert]
      split_ifs with hmem
      · exact hkept
      · refine List.pairwise_append.mpr ⟨hkept, List.pairwise_singleton .., fun a ha b hb => ?_⟩
        obtain rfl := List.mem_singleton.mp hb
        obtain ⟨i, hi⟩ := exists_begins ha
        obtain ⟨g, hset⟩ := hi.1
        exact ⟨i, calls.length, begins_concat.mpr (.inl ⟨hi, nofun⟩),
          begins_concat.mpr (.inr ⟨rfl, ⟨f, rfl⟩, not_mem_names_play.mp hmem⟩), lt_of_call hset⟩
    | unset field =>
      rw [Call.run, remove_eq, names_erase]
      have hother : ∀ a ∈ (play calls).names.erase field, Call.unset field ≠ .unset a := by
        rintro a ha hsame
        cases hsame
        exact (nodup_play calls).not_mem_erase ha
      exact (ih.sublist List.erase_sublist).imp_of_mem fun ha hb h =>
        h.concat (hother _ ha) (hother _ hb)

/-- Of two members of a list one comes before the other. -/
theorem sublist_or_sublist {α : Type} {x y : α} {l : List α} (hx : x ∈ l) (hy : y ∈ l)
    (hne : x ≠ y) : [x, y].Sublist l ∨ [y, x].Sublist l := by
  obtain ⟨before, after, rfl⟩ := List.append_of_mem hx
  rcases List.mem_append.mp hy with hy | hy
  · exact .inr ((List.singleton_sublist.mpr hy).append (List.singleton_sublist.mpr List.mem_cons_self))
  · have hafter := (List.mem_cons.mp hy).resolve_left (Ne.symm hne)
    exact .inl (((List.singleton_sublist.mpr hafter).cons_cons x).trans (List.sublist_append_right ..))

/-- **Filters are in the order of their insertion**, whatever the calls. -/
theorem reflects_play (calls : List Call) : Reflects calls (play calls) where
  nodup := nodup_play calls
  mem_iff field f := by rw [← get?_eq_some_iff (nodup_play calls), get?_play]
  sublist_iff a b := by
    have hordered {x y : String} (h : [x, y].Sublist (play calls).names) : Precedes calls x y :=
      List.pairwise_iff_forall_sublist.mp (pairwise_play calls) h
    refine ⟨hordered, fun h => ?_⟩
    obtain ⟨i, j, hi, hj, hlt⟩ := id h
    have hne : a ≠ b := by
      rintro rfl
      exact h.asymm h
    refine (sublist_or_sublist hi.mem_names hj.mem_names hne).resolve_right fun hba => ?_
    exact h.asymm (hordered hba)

/-- What the calls say determines the filters. -/
theorem Reflects.eq (h : Reflects calls fs) (h' : Reflects calls fs') : fs = fs' := by
  have hperm : fs.Perm fs' := by
    refine (List.perm_ext_iff_of_nodup (.of_map _ h.nodup) (.of_map _ h'.nodup)).mpr fun e => ?_
    rw [h.mem_iff, h'.mem_iff]
  have hordered : ∀ {gs : Filters}, Reflects calls gs →
      gs.Pairwise fun e e' => Precedes calls e.1 e'.1 := fun hgs =>
    List.pairwise_map.mp (List.pairwise_iff_forall_sublist.mpr fun hsub => (hgs.sublist_iff _ _).mp hsub)
  exact hperm.eq_of_pairwise (fun _ _ _ _ hab hba => absurd hba hab.asymm) (hordered h) (hordered h')

/-! ### Collected and read filters -/

/-- Filters are collected by setting them one after the other. -/
theorem ofList_eq_play (pairs : List (String × Filter)) :
    ofList pairs = play (pairs.map fun p => .set p.1 p.2) := by
  rw [ofList, play, List.foldl_map]
  simp [Call.run, replace_eq]

/-- **Filters keep the order of their insertion.** -/
theorem insertion_ordered :
    (∀ calls : List Call, Reflects calls (play calls) ∧
      (∀ field f, (play calls).get? field = some f ↔ (field, f) ∈ play calls) ∧
      (∀ field f,
        (play calls).replace field f = ((play calls).get? field, play (calls ++ [.set field f])) ∧
        (play (calls ++ [.set field f])).length =
          (play calls).length + if ((play calls).get? field).isSome then 0 else 1) ∧
      ∀ field,
        (play calls).remove field = ((play calls).get? field, play (calls ++ [.unset field])) ∧
        ((play (calls ++ [.unset field])).length + if ((play calls).get? field).isSome then 1 else 0) =
          (play calls).length) ∧
    (∀ pairs, ofList pairs = play (pairs.map fun p => .set p.1 p.2)) ∧
    (∀ depth members, ofData? depth (.record members) =
      (members.mapM fun m => (Filter.ofData? (depth - 1) m.2).map fun f => (m.1, f)).map fun pairs =>
        play (pairs.map fun p => .set p.1 p.2)) ∧
    (∀ depth members, ofClause? (depth + 1) (.record members) =
      (members.mapM fun m => (Filter.inClause? depth m.2).map fun f => (m.1, f)).map fun pairs =>
        play (pairs.map fun p => .set p.1 p.2)) ∧
    ∀ calls calls' fs, Reflects calls fs → Reflects calls' fs → ∀ (c : Criteria) (s : Schema) zone,
      { c with filters := play calls }.compile s zone =
        { c with filters := play calls' }.compile s zone := by
  refine ⟨fun calls => ⟨reflects_play calls, ?get, ?set, ?unset⟩, ofList_eq_play, ?record, ?clause,
    ?query⟩
  case get => exact fun field f => get?_eq_some_iff (nodup_play calls)
  case set =>
    intro field f
    rw [play_concat, Call.run, replace_eq]
    exact ⟨rfl, length_insert ..⟩
  case unset =>
    intro field
    rw [play_concat, Call.run, remove_eq]
    exact ⟨rfl, length_erase ..⟩
  case record =>
    intro depth members
    rw [ofData?_record, collect?, funext ofList_eq_play]
  case clause =>
    intro depth members
    rw [ofClause?_record, collect?, funext ofList_eq_play]
  case query =>
    intro calls calls' fs h h' c s zone
    rw [(reflects_play calls).eq h, (reflects_play calls').eq h']

/-- A field that is removed and set again moves behind one that is only set again, so two other calls
compile to the same query. -/
theorem insertion_ordered_of_moved :
    let calls : List Call := [.set "id" Test.empty.required, .set "dictionaryId" Test.empty.required,
      .unset "id", .set "id" Test.notEmpty.required, .set "dictionaryId" Test.notEmpty.required]
    let fewer : List Call := [.set "dictionaryId" Test.notEmpty.required, .set "id" Test.notEmpty.required]
    Precedes calls "dictionaryId" "id" ∧ Last calls "id" Test.notEmpty.required ∧
    ({ filters := play calls } : Criteria).compile Record.schema .universal =
      ({ filters := play fewer } : Criteria).compile Record.schema .universal := by
  intro calls fewer
  obtain ⟨hplay, -, -, -, hquery⟩ := insertion_ordered
  have hcalls : Reflects calls (play calls) := (hplay calls).1
  have hfewer : Reflects fewer (play calls) := (hplay fewer).1
  exact ⟨(hcalls.sublist_iff _ _).mp (by decide),
    (hcalls.mem_iff _ _).mp (List.mem_of_getElem? (i := 1) rfl),
    hquery calls fewer (play calls) hcalls hfewer {} Record.schema .universal⟩

end Filters
end Codebook
