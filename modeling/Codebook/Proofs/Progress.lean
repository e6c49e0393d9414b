/-
# Scans that come to an end

A scan goes from page to page until a page is not full or has a duplicate. It ends if each page begins
behind the one before it: the values with which pages begin are those of siblings, and there are only
so many of them. A page that begins where the one before it began shows the same rows again, and so
does each one after it. This cannot be if a document has at most one value in the column. If it can
have several, because several fields share their name, siblings are in the way that stand before the
beginning of a page and still have another value from there on; one less than a page holds is enough
of them.

Key definitions: `PageStart.Before`, `Scanner.Reaches`, `Scanner.Advances`, `Scanner.crowd`,
`Schema.straddling`, `Scanner.Ends`.
Key theorems: `Scanner.before_of_crowd`, `Scanner.scan_of_crowded`, `Scanner.scan_of_advances`,
`Scanner.firstDuplicate_ends_iff`.
-/
import Codebook.Proofs.Siblings

namespace Codebook

/-! ### Where pages begin -/

theorem SortValue.isLE_missing {v : SortValue} : (v.compare .missing).isLE = true ↔ v = .missing := by
  cases v <;> simp [SortValue.compare]

namespace PageStart

/-- The value with which a page begins. -/
def floor : PageStart → SortValue
  | first | anyValue => .missing
  | text s => .text s
  | date n => .date n

/-- A page that begins there begins earlier than the other one. All rows come before those with a
value. -/
def Before (start next : PageStart) : Prop :=
  next ≠ first ∧ (start = first ∨ start.floor.compare next.floor = .lt)

instance (start next : PageStart) : Decidable (start.Before next) :=
  inferInstanceAs (Decidable (_ ∧ _))

variable {a b c : PageStart} {v w : SortValue}

theorem Before.trans (hab : a.Before b) (hbc : b.Before c) : a.Before c := by
  refine ⟨hbc.1, hab.2.imp_right fun hlt => ?_⟩
  exact Std.TransCmp.lt_trans hlt (hbc.2.resolve_left hab.1)

theorem not_before_self : ¬ a.Before a := by
  rintro ⟨hne, heq | hlt⟩
  · exact hne heq
  · have hself : a.floor.compare a.floor = .eq := Std.ReflCmp.compare_self
    rw [hself] at hlt
    exact absurd hlt (by decide)

theorem after_ne_first (last : Option SortValue) : after last ≠ first := by
  rcases last with _ | v
  · simp [after]
  · cases v <;> simp [after]

theorem floor_after (h : v.isToken = true) : (after (some v)).floor = v := by
  cases v <;> simp_all [SortValue.isToken, after, floor]

end PageStart

theorem Query.selects_texts_iff {column : String} {d : Document} {first : Option String} :
    (Query.texts column first).selects d = true ↔
      ∃ t, Cell.text t ∈ d.cells column ∧ Query.isFrom first t = true := by
  rw [Query.selects, List.any_eq_true]
  refine exists_congr fun t => and_congr_left' (List.mem_filterMap.trans ⟨?_, fun ht => ⟨_, ht, rfl⟩⟩)
  rintro ⟨cell, hcell, htext⟩
  cases cell with
  | text u => exact Option.some.inj htext ▸ hcell
  | date m => exact absurd htext (by simp)

theorem Query.selects_dates_iff {column : String} {d : Document} {lower : Bound} :
    (Query.dates column lower .unbounded).selects d = true ↔
      ∃ m, Cell.date m ∈ d.cells column ∧ lower.isBelow m = true := by
  rw [Query.selects, List.any_eq_true]
  constructor
  · rintro ⟨cell, hcell, hin⟩
    cases cell with
    | text t => exact absurd hin (by simp [Query.inDates])
    | date m => exact ⟨m, hcell, by simpa [Query.inDates, Bound.isAbove] using hin⟩
  · rintro ⟨m, hcell, hin⟩
    exact ⟨_, hcell, by simpa [Query.inDates, Bound.isAbove] using hin⟩

namespace Scanner

variable {scanner : Scanner} {content : Generation} {siblings : Query} {start next : PageStart}
  {n n' : Neighbours} {rows : List Row}

/-! ### Scans as runs from page to page -/

/-- A scan comes to a page, with what has been seen before it. -/
inductive Reaches (scanner : Scanner) (content : Generation) (siblings : Query) :
    PageStart → Neighbours → Prop
  | first : Reaches scanner content siblings .first {}
  | next {start : PageStart} {n n' : Neighbours} : Reaches scanner content siblings start n →
      scanner.turn content siblings start n = .ok (.inr n') →
      Reaches scanner content siblings (.after n'.last) n'

/-- Each page to which a scan comes and that leads to another one begins earlier than that one. -/
def Advances (scanner : Scanner) (content : Generation) (siblings : Query) : Prop :=
  ∀ start n n', Reaches scanner content siblings start n →
    scanner.turn content siblings start n = .ok (.inr n') → start.Before (.after n'.last)

/-- What a scan comes to it ends with. -/
theorem Reaches.scan_eq (h : Reaches scanner content siblings start n) :
    scanner.scan content siblings .first {} = scanner.scan content siblings start n := by
  induction h with
  | first => rfl
  | next _ hturn ih => rw [ih, scan, hturn]

/-- A page that leads to itself is the last thing that a scan comes to. -/
theorem scan_of_stalled (hturn : scanner.turn content siblings start n = .ok (.inr n))
    (hstart : start = .after n.last) : scanner.scan content siblings start n = none := by
  rw [Option.eq_none_iff_forall_ne_some]
  intro outcome hscan
  -- no outcome is that of this page, as it would have to be the outcome of the next one first
  refine scan.partial_correctness scanner content siblings (fun s m _ => ¬ (s = start ∧ m = n))
    (fun rest ih s m outcome houtcome => ?_) start n outcome hscan ⟨rfl, rfl⟩
  rintro ⟨rfl, rfl⟩
  rw [hturn] at houtcome
  exact ih _ _ _ houtcome ⟨hstart.symm, rfl⟩

theorem eq_of_last (h : n.last = n'.last) : n = n' := by
  cases n
  cases n'
  exact congrArg Neighbours.mk h

/-- What a scan has seen last is the last row with a value. -/
theorem last_of_scanRows : ∀ {n : Neighbours} {rows : List Row}, scanRows n rows = (none, n') →
    n'.last = ((withValue rows).getLast?.map Row.scanned).or n.last
  | n, [], h => by
    obtain rfl : n = n' := (Prod.mk.inj h).2
    rfl
  | n, row :: rows, h => by
    by_cases hrow : row.scanned = .missing
    · rw [scanRows_missing hrow] at h
      rw [withValue, List.filter_cons_of_neg (by simpa using hrow)]
      exact last_of_scanRows h
    · rw [scanRows_value hrow] at h
      split_ifs at h
      · simp at h
      · rw [withValue, List.filter_cons_of_pos (by simpa using hrow), List.getLast?_cons,
          last_of_scanRows h, withValue]
        cases (rows.filter fun row => decide (row.scanned ≠ .missing)).getLast? <;> rfl

/-- Where nothing is found after what was seen, nothing is found from the beginning. -/
theorem scanRows_fresh : ∀ {n : Neighbours} {rows : List Row}, scanRows n rows = (none, n') →
    (scanRows {} rows).1 = none
  | _, [], _ => rfl
  | n, row :: rows, h => by
    by_cases hrow : row.scanned = .missing
    · rw [scanRows_missing hrow] at h ⊢
      exact scanRows_fresh h
    · rw [scanRows_value hrow] at h ⊢
      split_ifs at h
      · simp at h
      · exact congrArg Prod.fst h

/-- Where nothing is found in rows in order, their values increase. -/
theorem increasing_of_scanRows (h : scanRows n rows = (none, n'))
    (hsorted : rows.Pairwise fun a b => (a.scanned.compare b.scanned).isLE = true)
    (htokens : ∀ r ∈ rows, r.scanned ≠ .missing → r.scanned.isToken = true) :
    (withValue rows).Pairwise fun a b => a.scanned.compare b.scanned = .lt := by
  have hempty : Neighbours.Passed [] {} := ⟨List.Pairwise.nil, rfl⟩
  have hnone := scanRows_fresh h
  rw [scanRows_withValue] at hnone
  have htokens' : ∀ r ∈ withValue rows, r.scanned.isToken = true := fun r hr => by
    obtain ⟨hmem, hvalue⟩ := List.mem_filter.mp hr
    exact htokens r hmem (by simpa using hvalue)
  rcases scanRows_sorted hempty (hsorted.filter _) htokens' with
    ⟨_, -, hpassed⟩ | ⟨_, _, _, _, _, hsome, -⟩
  · exact hpassed.increasing
  · exact absurd (hnone.symm.trans (congrArg Prod.fst hsome)) (by simp)

/-! ### Full pages -/

/-- What a scan needs to go from page to page: its searches can be run, and documents have values of
the right kind in the column. -/
structure Paged (scanner : Scanner) (content : Generation) (siblings : Query) : Prop where
  runs : content.canRun siblings = true
  indexed : content.canRun (.texts scanner.field.name none) = true
  suits : ∀ d ∈ content.documents, ∀ cell ∈ d.cells scanner.field.name, cell.Suits scanner.field.kind

/-- The siblings that the bound of a page selects, in the order of the scan. -/
def taken (scanner : Scanner) (content : Generation) (siblings : Query) (start : PageStart) : List Row :=
  (scanner.ordered content siblings).filter fun row =>
    start.takes scanner.field.name scanner.field.kind row.document

/-- The siblings that the bound of a page selects for another value than the one that they are scanned
for, which comes before the page. -/
def crowd (scanner : Scanner) (content : Generation) (siblings : Query) (start : PageStart) : List Row :=
  (scanner.taken content siblings start).filter fun row => !start.admits row.scanned

theorem sorted_taken (scanner : Scanner) (content : Generation) (siblings : Query) (start : PageStart) :
    (scanner.taken content siblings start).Pairwise fun a b =>
      (a.scanned.compare b.scanned).isLE = true :=
  (sorted_ordered scanner content siblings).filter _

theorem token_of_mem_ordered {row : Row} (h : row ∈ scanner.ordered content siblings)
    (hvalue : row.scanned ≠ .missing) : row.scanned.isToken = true := by
  rw [(scanned_of_mem_rows (mem_ordered.mp h)).1] at hvalue ⊢
  exact ColumnKey.isToken_read_encoded hvalue

theorem turn_eq_inr (h : scanner.turn content siblings start n = .ok (.inr n')) :
    ∃ page, scanner.page content siblings start = .ok page ∧ page.length = pageSize ∧
      scanRows n (if start.repeatsLast then page.drop 1 else page) = (none, n') := by
  cases hpage : scanner.page content siblings start with
  | error e =>
    rw [turn, hpage] at h
    exact absurd h (by simp [bind, Except.bind])
  | ok page =>
    rw [turn_of_page hpage rfl, Except.ok.injEq] at h
    refine ⟨page, rfl, ?_⟩
    split at h
    · exact absurd h (by simp)
    · rename_i hscan
      split_ifs at h with hfull
      · exact ⟨hfull, Sum.inr.inj h ▸ hscan⟩

theorem exists_last_two {page : List Row} (h : 2 ≤ page.length) :
    ∃ front x y, page = front ++ [x, y] := by
  obtain ⟨before, y, rfl⟩ := (List.eq_nil_or_concat' page).resolve_left (by
    rintro rfl
    exact absurd h (by decide))
  obtain ⟨front, x, rfl⟩ := (List.eq_nil_or_concat' before).resolve_left (by
    rintro rfl
    exact absurd h (by simp))
  exact ⟨front, x, y, by simp⟩

/-- A full page ends with two rows. If the first of them has a value, that of the second is greater;
and if this one has a value, it is what has been seen last. -/
theorem full_page (h : scanner.Paged content siblings)
    (hturn : scanner.turn content siblings start n = .ok (.inr n')) :
    ∃ front x y rest, scanner.taken content siblings start = front ++ x :: y :: rest ∧
      front.length + 2 = pageSize ∧
      (x.scanned ≠ .missing → x.scanned.compare y.scanned = .lt) ∧
      n'.last = if y.scanned = .missing then n.last else some y.scanned := by
  obtain ⟨page, hpage, hfull, hscan⟩ := turn_eq_inr hturn
  rw [page_takes h.runs h.indexed, Except.ok.injEq] at hpage
  obtain ⟨front, x, y, rfl⟩ := exists_last_two (hfull.symm ▸ (by decide : 2 ≤ pageSize))
  have hlength : front.length + 2 = pageSize := by simpa using hfull
  have hrest := List.take_append_drop pageSize (scanner.taken content siblings start)
  rw [show (scanner.taken content siblings start).take pageSize = _ from hpage, List.append_assoc] at hrest
  refine ⟨front, x, y, _, hrest.symm, hlength, ?_⟩
  -- the last two rows are seen, whether the page begins with a row that was seen before or not
  obtain ⟨front', hseen⟩ : ∃ front', (if start.repeatsLast then (front ++ [x, y]).drop 1
      else front ++ [x, y]) = front' ++ [x, y] := by
    split_ifs
    · refine ⟨front.drop 1, List.drop_append_of_le_length ?_⟩
      unfold pageSize at hlength
      omega
    · exact ⟨front, rfl⟩
  have hsub : (front' ++ [x, y]).Sublist (scanner.ordered content siblings) := by
    have hpart : (front' ++ [x, y]).Sublist (front ++ [x, y]) := by
      rw [← hseen]
      split_ifs
      · exact List.drop_sublist _ _
      · exact List.Sublist.refl _
    rw [← hpage] at hpart
    exact (hpart.trans (List.take_sublist _ _)).trans List.filter_sublist
  rw [hseen] at hscan
  have hsorted := (sorted_ordered scanner content siblings).sublist hsub
  have hincreasing := increasing_of_scanRows hscan hsorted fun r hr hvalue =>
    token_of_mem_ordered (hsub.subset hr) hvalue
  have hlast := last_of_scanRows hscan
  rw [List.append_cons, withValue, List.filter_append] at hincreasing hlast
  constructor
  · intro hx
    have hxy := (List.pairwise_cons.mp (List.pairwise_append.mp hsorted).2.1).1 y (by simp)
    have hy : y.scanned ≠ .missing := fun hy => hx (SortValue.isLE_missing.mp (hy ▸ hxy))
    refine (List.pairwise_append.mp hincreasing).2.2 x ?_ y ?_
    · exact List.mem_filter.mpr ⟨by simp, by simpa using hx⟩
    · exact List.mem_filter.mpr ⟨by simp, by simpa using hy⟩
  · rw [hlast]
    split_ifs with hy
    · have hmissing : ∀ r ∈ front' ++ [x] ++ [y], ¬ decide (r.scanned ≠ .missing) = true := by
        intro r hr
        rcases List.mem_append.mp hr with hr | hr
        · rw [List.append_cons] at hsorted
          have hle := (List.pairwise_append.mp hsorted).2.2 r hr y (by simp)
          simpa using SortValue.isLE_missing.mp (hy ▸ hle)
        · simpa [List.mem_singleton.mp hr] using hy
      rw [← List.filter_append, List.filter_eq_nil_iff.mpr hmissing]
      rfl
    · rw [List.filter_cons_of_pos (by simpa using hy)]
      simp

/-- The values on a page that are admitted come last. -/
theorem admits_of_isLE {v w : SortValue} (hle : (v.compare w).isLE = true)
    (h : start.admits v = true) : start.admits w = true := by
  cases start with
  | first => rfl
  | anyValue =>
    simp only [PageStart.admits, decide_eq_true_eq] at h ⊢
    rintro rfl
    exact h (SortValue.isLE_missing.mp hle)
  | text s => exact Std.TransCmp.isLE_trans h hle
  | date m => exact Std.TransCmp.isLE_trans h hle

/-- A page that does not begin with all rows admits only values from its beginning on. -/
theorem floor_le_of_admits {v : SortValue} (hne : start ≠ .first) (h : start.admits v = true) :
    v ≠ .missing ∧ (start.floor.compare v).isLE = true := by
  cases start with
  | first => exact absurd rfl hne
  | anyValue =>
    have hv : v ≠ .missing := by simpa [PageStart.admits] using h
    exact ⟨hv, by cases v <;> rfl⟩
  | text s =>
    refine ⟨?_, h⟩
    rintro rfl
    exact absurd h (by simp [PageStart.admits, SortValue.compare])
  | date m =>
    refine ⟨?_, h⟩
    rintro rfl
    exact absurd h (by simp [PageStart.admits, SortValue.compare])

/-- Rows in order before one that is not admitted are not admitted either. -/
theorem length_le_crowd {before rest : List Row} {row : Row}
    (h : scanner.taken content siblings start = before ++ row :: rest)
    (hrow : start.admits row.scanned = false) :
    before.length + 1 ≤ (scanner.crowd content siblings start).length := by
  have hsorted := sorted_taken scanner content siblings start
  rw [h] at hsorted
  have hall : ∀ r ∈ before ++ [row], (!start.admits r.scanned) = true := by
    intro r hr
    rcases List.mem_append.mp hr with hr | hr
    · have hle := (List.pairwise_append.mp hsorted).2.2 r hr row List.mem_cons_self
      rw [Bool.not_eq_true', Bool.eq_false_iff]
      intro hadmits
      simp [admits_of_isLE hle hadmits] at hrow
    · rw [List.mem_singleton.mp hr, hrow]
      rfl
  have hcrowd : (before ++ [row]).Sublist (scanner.crowd content siblings start) := by
    rw [crowd, h, List.append_cons before row rest, List.filter_append, List.filter_eq_self.mpr hall]
    exact List.sublist_append_left _ _
  simpa using hcrowd.length_le

/-- A page that follows the value of a row begins with it. -/
theorem floor_after_row {row : Row} (hrow : row ∈ scanner.taken content siblings start)
    (hvalue : row.scanned ≠ .missing) :
    (PageStart.after (some row.scanned)).floor = row.scanned :=
  PageStart.floor_after (token_of_mem_ordered (List.mem_of_mem_filter hrow) hvalue)

/-- **A page that is not crowded leads on**: if it is full and has no duplicate, the next one begins
later. -/
theorem before_of_crowd (h : scanner.Paged content siblings)
    (hturn : scanner.turn content siblings start n = .ok (.inr n'))
    (hcrowd : (scanner.crowd content siblings start).length + 2 ≤ pageSize) :
    start.Before (.after n'.last) := by
  obtain ⟨front, x, y, rest, hrest, hlength, hxy, hlast⟩ := full_page h hturn
  refine ⟨PageStart.after_ne_first _, or_iff_not_imp_left.mpr fun hne => ?_⟩
  have hx : start.admits x.scanned = true := by
    by_contra hx
    have hle := length_le_crowd hrest (by simpa using hx)
    omega
  obtain ⟨hvalue, hfloor⟩ := floor_le_of_admits hne hx
  have hlt := hxy hvalue
  have hy : y.scanned ≠ .missing := fun hy =>
    hvalue (SortValue.isLE_missing.mp (hy ▸ Ordering.isLE_of_eq_lt hlt))
  rw [hlast, if_neg hy, floor_after_row (by rw [hrest]; simp) hy]
  exact Std.TransCmp.lt_of_isLE_of_lt hfloor hlt

/-! ### Pages that follow one another -/

/-- What a scan that comes to a page has seen last: no value, or that of a row with which the page
begins. Of the rows with lesser values the page has not enough for itself. -/
structure Reached (scanner : Scanner) (content : Generation) (siblings : Query) (start : PageStart)
    (n : Neighbours) : Prop where
  start_eq : start = .first ∧ n = {} ∨ start = .after n.last
  last : ∀ v, n.last = some v → v ≠ .missing ∧ start = .after (some v) ∧
    (∃ row ∈ scanner.ordered content siblings, row.scanned = v) ∧
    (scanner.crowd content siblings start).length < pageSize

theorem Paged.suits_of_row (h : scanner.Paged content siblings) {row : Row}
    (hrow : row ∈ scanner.ordered content siblings) (hvalue : row.scanned ≠ .missing) :
    (PageStart.after (some row.scanned)).Suits scanner.field.kind := by
  obtain ⟨hscanned, hdocument⟩ := scanned_of_mem_rows (mem_ordered.mp hrow)
  rw [hscanned] at hvalue ⊢
  exact ColumnKey.suits_after (h.suits _ (List.mem_of_mem_filter hdocument)) hvalue

theorem Reached.suits (h : scanner.Paged content siblings)
    (hreached : scanner.Reached content siblings start n) : start.Suits scanner.field.kind := by
  cases hlast : n.last with
  | none =>
    rcases hreached.start_eq with ⟨rfl, -⟩ | hstart
    · trivial
    · rw [hstart, hlast]
      trivial
  | some v =>
    obtain ⟨hvalue, hstart, ⟨row, hrow, rfl⟩, -⟩ := hreached.last v hlast
    rw [hstart]
    exact h.suits_of_row hrow hvalue

/-- What the bound of a page selects the bound of an earlier one selects, too. -/
theorem takes_of_floor_le {kind : ValueKind} {column : String} {d : Document}
    (hstart : start.Suits kind) (hnext : next.Suits kind) (hne : next ≠ .first)
    (hle : start = .first ∨ (start.floor.compare next.floor).isLE = true)
    (htakes : next.takes column kind d = true) : start.takes column kind d = true := by
  rcases hle with rfl | hle
  · rfl
  cases next with
  | first => exact absurd rfl hne
  | anyValue =>
    cases start with
    | first => rfl
    | anyValue => exact htakes
    | text s => exact absurd hle (by simp [PageStart.floor, SortValue.compare])
    | date m => exact absurd hle (by simp [PageStart.floor, SortValue.compare])
  | text t =>
    cases start with
    | first => rfl
    | anyValue =>
      have hkind : kind ≠ .date := hnext
      simp only [PageStart.takes, PageStart.query?, if_neg hkind] at htakes ⊢
      obtain ⟨u, hcell, -⟩ := Query.selects_texts_iff.mp htakes
      exact Query.selects_texts_iff.mpr ⟨u, hcell, rfl⟩
    | text s =>
      have hst : s ≤ t := SortValue.isLE_compare_text.mp hle
      obtain ⟨u, hcell, hu⟩ := Query.selects_texts_iff.mp htakes
      refine Query.selects_texts_iff.mpr ⟨u, hcell, ?_⟩
      simp only [Query.isFrom, Bool.not_eq_true', decide_eq_false_iff_not, String.not_lt] at hu ⊢
      exact String.le_trans hst hu
    | date m => exact absurd hstart.1 hnext
  | date n =>
    cases start with
    | first => rfl
    | anyValue =>
      simp only [PageStart.takes, PageStart.query?, if_pos hnext.1] at htakes ⊢
      obtain ⟨m, hcell, hm⟩ := Query.selects_dates_iff.mp htakes
      refine Query.selects_dates_iff.mpr ⟨m, hcell, ?_⟩
      have hlt := hnext.2
      simp only [Bound.isBelow, decide_eq_true_eq] at hm ⊢
      omega
    | text s => exact absurd hnext.1 hstart
    | date m =>
      have hmn : m ≤ n := SortValue.isLE_compare_date.mp hle
      obtain ⟨u, hcell, hu⟩ := Query.selects_dates_iff.mp htakes
      refine Query.selects_dates_iff.mpr ⟨u, hcell, ?_⟩
      simp only [Bound.isBelow, decide_eq_true_eq] at hu ⊢
      omega

/-- Where a page goes on from a row of the page before it, only rows before this row are in its way. -/
theorem crowd_le (h : scanner.Paged content siblings) (hsuits : start.Suits scanner.field.kind)
    {before rest : List Row} {row : Row}
    (hrest : scanner.taken content siblings start = before ++ row :: rest)
    (hvalue : row.scanned ≠ .missing) (hadmits : start.admits row.scanned = true) :
    (scanner.crowd content siblings (.after (some row.scanned))).length ≤ before.length := by
  have hrow : row ∈ scanner.taken content siblings start := by
    rw [hrest]
    simp
  have hordered : row ∈ scanner.ordered content siblings := List.mem_of_mem_filter hrow
  obtain ⟨-, hadmitted⟩ := after_token (token_of_mem_ordered hordered hvalue)
  have hle : start = .first ∨
      (start.floor.compare (PageStart.after (some row.scanned)).floor).isLE = true := by
    refine or_iff_not_imp_left.mpr fun hne => ?_
    rw [floor_after_row hrow hvalue]
    exact (floor_le_of_admits hne hadmits).2
  -- what the new bound selects the bound before it selected, and all from the row on is admitted
  have htaken : (scanner.taken content siblings (.after (some row.scanned))).Sublist
      (scanner.taken content siblings start) :=
    List.monotone_filter_right _ fun r hr => takes_of_floor_le hsuits
      (h.suits_of_row hordered hvalue) (PageStart.after_ne_first _) hle hr
  have hsorted := sorted_taken scanner content siblings start
  rw [hrest] at hsorted
  have hrest' : ((row :: rest).filter fun r =>
      !(PageStart.after (some row.scanned)).admits r.scanned) = [] := by
    refine List.filter_eq_nil_iff.mpr fun r hr => ?_
    rw [hadmitted, Bool.not_eq_true', Bool.not_eq_false]
    rcases List.mem_cons.mp hr with rfl | hr
    · exact Std.ReflCmp.isLE_rfl
    · exact (List.pairwise_cons.mp (List.pairwise_append.mp hsorted).2.1).1 r hr
  have hcrowd : (scanner.crowd content siblings (.after (some row.scanned))).Sublist
      (before.filter fun r => !(PageStart.after (some row.scanned)).admits r.scanned) := by
    rw [← List.append_nil (before.filter _), ← hrest', ← List.filter_append, ← hrest]
    exact htaken.filter _
  exact hcrowd.length_le.trans (List.length_filter_le _ _)

/-- A value in the last place of a full page is not one that comes before the page. -/
theorem Reached.admits (hreached : scanner.Reached content siblings start n) {before rest : List Row}
    {row : Row} (hrest : scanner.taken content siblings start = before ++ row :: rest)
    (hfull : before.length + 1 = pageSize) (hvalue : row.scanned ≠ .missing) :
    start.admits row.scanned = true := by
  cases hseen : n.last with
  | none =>
    rcases hreached.start_eq with ⟨rfl, -⟩ | hstart
    · rfl
    · rw [hstart, hseen]
      simpa [PageStart.after, PageStart.admits] using hvalue
  | some v =>
    by_contra hnot
    have hle := length_le_crowd hrest (by simpa using hnot)
    have hlt := (hreached.last v hseen).2.2.2
    omega

/-- If no later page begins with a value on a page, the page begins with this value itself. -/
theorem Reached.eq_of_not_before (hreached : scanner.Reached content siblings start n) {row : Row}
    (hrow : row ∈ scanner.taken content siblings start) (hvalue : row.scanned ≠ .missing)
    (hadmits : start.admits row.scanned = true)
    (hnot : ¬ start.Before (.after (some row.scanned))) :
    start = .after (some row.scanned) ∧ n.last = some row.scanned := by
  have hne : start ≠ .first := fun hfirst => hnot ⟨PageStart.after_ne_first _, Or.inl hfirst⟩
  have hfloor : start.floor = row.scanned := by
    have hle := (floor_le_of_admits hne hadmits).2
    have hge : (row.scanned.compare start.floor).isLE = true := by
      by_contra hgt
      have hlt := Std.OrientedCmp.lt_of_not_isLE hgt
      rw [← floor_after_row hrow hvalue] at hlt
      exact hnot ⟨PageStart.after_ne_first _, Or.inr hlt⟩
    have htoken := token_of_mem_ordered (List.mem_of_mem_filter hrow) hvalue
    exact ((SortValue.compare_eq_iff htoken).mp (Std.OrientedCmp.isLE_antisymm hge hle)).symm
  have hstart := hreached.start_eq.resolve_left fun hfirst => hne hfirst.1
  have hseen : n.last = some row.scanned := by
    cases hseen : n.last with
    | none =>
      rw [hstart, hseen] at hfloor
      exact absurd hfloor.symm hvalue
    | some v =>
      obtain ⟨hv, -, ⟨row', hrow', rfl⟩, -⟩ := hreached.last v hseen
      rw [hstart, hseen, PageStart.floor_after (token_of_mem_ordered hrow' hv)] at hfloor
      rw [hfloor]
  exact ⟨by rw [hstart, hseen], hseen⟩

/-- A page that leads on leads to one that is not too crowded for it, and this one begins later, unless
all is as before. -/
theorem Reached.step (h : scanner.Paged content siblings)
    (hreached : scanner.Reached content siblings start n)
    (hturn : scanner.turn content siblings start n = .ok (.inr n')) :
    scanner.Reached content siblings (.after n'.last) n' ∧
      (start = .after n'.last ∧ n = n' ∨ start.Before (.after n'.last)) := by
  obtain ⟨front, x, y, rest, hrest, hlength, -, hlast⟩ := full_page h hturn
  rw [List.append_cons] at hrest
  have hfull : (front ++ [x]).length + 1 = pageSize := by simpa using hlength
  have hy : y ∈ scanner.taken content siblings start := by
    rw [hrest]
    simp
  by_cases hvalue : y.scanned = .missing
  · -- no row on the page has a value, so nothing was seen
    rw [if_pos hvalue] at hlast
    obtain rfl : n = n' := eq_of_last hlast.symm
    refine ⟨⟨Or.inr rfl, fun v hv => ?_⟩, ?_⟩
    · obtain ⟨hne, hstart, hrow, hcrowd⟩ := hreached.last v hv
      rw [hv, ← hstart]
      exact ⟨hne, rfl, hrow, hcrowd⟩
    · rcases hreached.start_eq with ⟨rfl, -⟩ | hstart
      · exact Or.inr ⟨PageStart.after_ne_first _, Or.inl rfl⟩
      · exact Or.inl ⟨hstart, rfl⟩
  · rw [if_neg hvalue] at hlast
    have hadmits := hreached.admits hrest hfull hvalue
    have hcrowd := crowd_le h (hreached.suits h) hrest hvalue hadmits
    rw [hlast]
    refine ⟨⟨Or.inr (by rw [hlast]), fun v hv => ?_⟩, ?_⟩
    · obtain rfl : y.scanned = v := Option.some.inj (hlast.symm.trans hv)
      exact ⟨hvalue, rfl, ⟨y, List.mem_of_mem_filter hy, rfl⟩, by omega⟩
    · refine or_iff_not_imp_right.mpr fun hnot => ?_
      obtain ⟨hstart, hseen⟩ := hreached.eq_of_not_before hy hvalue hadmits hnot
      exact ⟨hstart, eq_of_last (hseen.trans hlast.symm)⟩

theorem Reaches.reached (h : scanner.Paged content siblings)
    (hreaches : scanner.Reaches content siblings start n) : scanner.Reached content siblings start n := by
  induction hreaches with
  | first => exact ⟨Or.inl ⟨rfl, rfl⟩, fun v hv => absurd hv (by simp)⟩
  | next _ hturn ih => exact (ih.step h hturn).1

/-! ### The end of a scan -/

/-- Where the pages of a scan can begin, the first one apart. -/
def starts (scanner : Scanner) (content : Generation) (siblings : Query) : List PageStart :=
  .anyValue :: (scanner.ordered content siblings).map fun row => .after (some row.scanned)

theorem Reached.mem_starts (h : scanner.Reached content siblings (.after n.last) n) :
    PageStart.after n.last ∈ scanner.starts content siblings := by
  cases hlast : n.last with
  | none => exact List.mem_cons_self
  | some v =>
    obtain ⟨-, -, ⟨row, hrow, rfl⟩, -⟩ := h.last v hlast
    exact List.mem_cons_of_mem _ (List.mem_map_of_mem hrow)

/-- Behind the beginning of a page fewer pages can begin than behind that of an earlier one. -/
theorem later_starts_lt (hbefore : start.Before next) (hnext : next ∈ scanner.starts content siblings) :
    ((scanner.starts content siblings).filter (next.Before ·)).length <
      ((scanner.starts content siblings).filter (start.Before ·)).length := by
  have hlater : (scanner.starts content siblings).filter (next.Before ·) =
      ((scanner.starts content siblings).filter (start.Before ·)).filter (next.Before ·) := by
    rw [List.filter_filter]
    refine List.filter_congr fun s _ => ?_
    by_cases hs : next.Before s
    · simp [hs, hbefore.trans hs]
    · simp [hs]
  rw [hlater, List.length_filter_lt_length_iff_exists]
  exact ⟨next, List.mem_filter.mpr ⟨hnext, by simpa using hbefore⟩, by
    simpa using PageStart.not_before_self⟩

/-- **A scan ends if each page begins behind the one before it.** -/
theorem scan_of_advances (h : scanner.Paged content siblings)
    (hadvances : scanner.Advances content siblings)
    (hreaches : scanner.Reaches content siblings start n) :
    (scanner.scan content siblings start n).isSome = true := by
  -- by induction on the number of pages that can still begin
  induction hlength : ((scanner.starts content siblings).filter (start.Before ·)).length
    using Nat.strong_induction_on generalizing start n with
  | _ length ih =>
    subst hlength
    rw [scan]
    cases hturn : scanner.turn content siblings start n with
    | error e => rfl
    | ok outcome =>
      cases outcome with
      | inl found => rfl
      | inr n' =>
        have hnext := hreaches.next hturn
        exact ih _ (later_starts_lt (hadvances start n n' hreaches hturn) (hnext.reached h).mem_starts)
          hnext rfl

/-- A scan has an outcome just if each page begins behind the one before it. -/
theorem isSome_scan_iff (h : scanner.Paged content siblings) :
    (scanner.scan content siblings .first {}).isSome = true ↔ scanner.Advances content siblings := by
  refine ⟨fun hsome start n n' hreaches hturn => ?_, fun hadvances => scan_of_advances h hadvances .first⟩
  refine ((hreaches.reached h).step h hturn).2.resolve_left ?_
  rintro ⟨hstart, rfl⟩
  rw [hreaches.scan_eq, scan_of_stalled hturn hstart] at hsome
  exact absurd hsome (by decide)

/-- The bound of a page selects a document with whose value the page begins. -/
theorem takes_own {d : Document}
    (hsuits : ∀ cell ∈ d.cells scanner.field.name, cell.Suits scanner.field.kind)
    (hvalue : scanner.key.read d ≠ .missing) :
    (PageStart.after (some (scanner.key.read d))).takes scanner.field.name scanner.field.kind d =
      true := by
  have hstart := ColumnKey.suits_after hsuits hvalue
  unfold key at hvalue ⊢
  rw [ColumnKey.read_encoded_cells hsuits] at hstart hvalue ⊢
  cases hcells : d.cells scanner.field.name with
  | nil => simp [hcells, SortValue.ofCells] at hvalue
  | cons cell cells =>
    rw [hcells] at hstart hvalue
    cases cell with
    | text s =>
      have hkind : scanner.field.kind ≠ .date := hstart
      simp [SortValue.ofCells, SortValue.ofCell, PageStart.after, PageStart.takes, PageStart.query?,
        Query.selects, Document.texts, hcells, Query.isFrom]
    | date m =>
      have hm : m ≠ nullDate := by
        rintro rfl
        simp [SortValue.ofCells, SortValue.ofCell] at hvalue
      simp [SortValue.ofCells, SortValue.ofCell, hm, PageStart.after, PageStart.takes,
        PageStart.query?, Query.selects, hcells, Query.inDates, Bound.isBelow, Bound.isAbove]

/-- Where the rows in the way of a page are as many as those before an admitted one, all of these are in
its way. -/
theorem notMem_of_length_crowd {before rest : List Row} {row last : Row}
    (hrest : scanner.taken content siblings start = before ++ last :: rest)
    (hlast : start.admits last.scanned = true)
    (hcrowd : (scanner.crowd content siblings start).length = before.length)
    (hadmits : start.admits row.scanned = true) : row ∉ before := by
  intro hmem
  have hsorted := sorted_taken scanner content siblings start
  rw [hrest] at hsorted
  have hnone : ((last :: rest).filter fun r => !start.admits r.scanned) = [] := by
    refine List.filter_eq_nil_iff.mpr fun r hr => ?_
    rw [Bool.not_eq_true', Bool.not_eq_false]
    rcases List.mem_cons.mp hr with rfl | hr
    · exact hlast
    · exact admits_of_isLE
        ((List.pairwise_cons.mp (List.pairwise_append.mp hsorted).2.1).1 r hr) hlast
  rw [crowd, hrest, List.filter_append, hnone, List.append_nil] at hcrowd
  have hall := List.length_filter_eq_length_iff.mp hcrowd row hmem
  simp [hadmits] at hall

/-- **A page that is crowded leads back to itself.** If all but the last row of a full page come before
the value with which it begins, the scan never ends. -/
theorem scan_of_crowded (h : scanner.Paged content siblings)
    (hreaches : scanner.Reaches content siblings start n) {v : SortValue} (hlast : n.last = some v)
    (hturn : scanner.turn content siblings start n = .ok (.inr n'))
    (hcrowd : (scanner.crowd content siblings start).length + 1 = pageSize) :
    scanner.scan content siblings .first {} = none := by
  obtain ⟨hvalue, hstart, ⟨row, hrow, rfl⟩, -⟩ := (hreaches.reached h).last v hlast
  obtain ⟨front, x, y, rest, hrest, hlength, -, hseen⟩ := full_page h hturn
  rw [List.append_cons] at hrest
  obtain ⟨hscanned, hdocument⟩ := scanned_of_mem_rows (mem_ordered.mp hrow)
  have htoken := token_of_mem_ordered hrow hvalue
  obtain ⟨-, hadmitted⟩ := after_token htoken
  have hadmits : ∀ w, start.admits w = (row.scanned.compare w).isLE := fun w => by rw [hstart, hadmitted]
  -- the row with which the page begins is on it, and only the last place is left for it
  have htaken : row ∈ scanner.taken content siblings start := by
    refine List.mem_filter.mpr ⟨hrow, ?_⟩
    rw [hstart, hscanned]
    exact takes_own (h.suits _ (List.mem_of_mem_filter hdocument)) (hscanned ▸ hvalue)
  have hy : start.admits y.scanned = true := by
    by_contra hnot
    have hle := length_le_crowd hrest (by simpa using hnot)
    rw [List.length_append, List.length_singleton] at hle
    omega
  have hbefore : row ∉ front ++ [x] := by
    refine notMem_of_length_crowd hrest hy ?_ ((hadmits _).trans Std.ReflCmp.isLE_rfl)
    rw [List.length_append, List.length_singleton]
    omega
  have hsorted := sorted_taken scanner content siblings start
  rw [hrest] at hsorted
  have hafter := (List.pairwise_cons.mp (List.pairwise_append.mp hsorted).2.1).1
  have hle : (y.scanned.compare row.scanned).isLE = true := by
    rw [hrest, List.mem_append] at htaken
    rcases List.mem_cons.mp (htaken.resolve_left hbefore) with rfl | hmem
    · exact Std.ReflCmp.isLE_rfl
    · exact hafter row hmem
  have heq : row.scanned = y.scanned := (SortValue.compare_eq_iff htoken).mp
    (Std.OrientedCmp.isLE_antisymm (hadmits _ ▸ hy) hle)
  rw [← heq, if_neg hvalue, ← hlast] at hseen
  obtain rfl : n = n' := eq_of_last hseen.symm
  rw [hreaches.scan_eq]
  exact scan_of_stalled hturn (hlast ▸ hstart)

theorem advances_of_crowd (h : scanner.Paged content siblings)
    (hcrowd : ∀ start, start.Suits scanner.field.kind →
      (scanner.crowd content siblings start).length + 2 ≤ pageSize) :
    scanner.Advances content siblings := fun start _ _ hreaches hturn =>
  before_of_crowd h hturn (hcrowd start ((hreaches.reached h).suits h))

end Scanner

/-! ### Siblings in the way -/

/-- Whether the first of the values of a column comes before a value while another one does not. -/
def SortValue.straddles (v : SortValue) (cells : List Cell) : Bool :=
  decide ((SortValue.ofCells .string cells).compare v = .lt) &&
    cells.any fun cell => (v.compare (.ofCell .string cell)).isLE

/-- One value does not stand on both sides of another one. -/
theorem SortValue.not_straddles {v : SortValue} {cell? : Option Cell} :
    v.straddles cell?.toList = false := by
  cases cell? with
  | none => simp [straddles]
  | some cell =>
    rw [Bool.eq_false_iff]
    intro h
    obtain ⟨hlt, hle⟩ := Bool.and_eq_true_iff.mp h
    have hlt' : (SortValue.ofCell .string cell).compare v = .lt := of_decide_eq_true hlt
    have hle' : (v.compare (SortValue.ofCell .string cell)).isLE = true := by simpa using hle
    have hself := Std.TransCmp.lt_of_lt_of_isLE hlt' hle'
    have hrefl : (SortValue.ofCell .string cell).compare (.ofCell .string cell) = .eq :=
      Std.ReflCmp.compare_self
    rw [hrefl] at hself
    exact absurd hself (by decide)

/-- The value that stands between the documents in the way of a page and the page: that with which it
begins, or the least value of all. -/
def PageStart.edge : PageStart → SortValue
  | first => .missing
  | anyValue => .date (nullDate + 1)
  | text s => .text s
  | date n => .date n

/-- A document that the bound of a page selects although it is scanned for a value before the page has
values on both sides. -/
theorem PageStart.straddles_edge {start : PageStart} {d : Document} {column : String} {kind : ValueKind}
    (hsuits : ∀ cell ∈ d.cells column, cell.Suits kind) (hstart : start.Suits kind)
    (htakes : start.takes column kind d = true)
    (hadmits : start.admits ((ColumnKey.encoded column kind).read d) = false) :
    start.edge.straddles (d.cells column) = true := by
  rw [ColumnKey.read_encoded_cells hsuits] at hadmits
  cases start with
  | first => simp [admits] at hadmits
  | anyValue =>
    have hmissing : SortValue.ofCells .string (d.cells column) = .missing := by
      simpa [admits] using hadmits
    by_cases hkind : kind = .date
    · simp only [takes, query?, if_pos hkind] at htakes
      obtain ⟨m, hcell, hbelow⟩ := Query.selects_dates_iff.mp htakes
      refine Bool.and_eq_true_iff.mpr ⟨?_, List.any_eq_true.mpr ⟨_, hcell, ?_⟩⟩
      · rw [hmissing]
        rfl
      · have hlt : nullDate < m := by simpa [Bound.isBelow] using hbelow
        rw [SortValue.ofCell, if_neg (by omega)]
        exact SortValue.isLE_compare_date.mpr (by omega)
    · -- texts are values, so a document with a text is not scanned for the want of a value
      simp only [takes, query?, if_neg hkind] at htakes
      obtain ⟨t, hcell, -⟩ := Query.selects_texts_iff.mp htakes
      obtain ⟨cell, cells, hcells⟩ := List.exists_cons_of_ne_nil (List.ne_nil_of_mem hcell)
      have hisDate := (hsuits cell (by rw [hcells]; exact List.mem_cons_self)).1
      rw [hcells] at hmissing
      cases cell with
      | text s => simp [SortValue.ofCells, SortValue.ofCell] at hmissing
      | date m => simp [Cell.isDate, hkind] at hisDate
  | text s =>
    obtain ⟨t, hcell, hfrom⟩ := Query.selects_texts_iff.mp htakes
    refine Bool.and_eq_true_iff.mpr ⟨?_, List.any_eq_true.mpr ⟨_, hcell, ?_⟩⟩
    · exact decide_eq_true (Std.OrientedCmp.lt_of_not_isLE (Bool.eq_false_iff.mp hadmits))
    · rw [Query.isFrom, Bool.not_eq_true', decide_eq_false_iff_not, String.not_lt] at hfrom
      exact SortValue.isLE_compare_text.mpr hfrom
  | date n =>
    obtain ⟨hkind, hlt⟩ := hstart
    obtain ⟨m, hcell, hbelow⟩ := Query.selects_dates_iff.mp htakes
    refine Bool.and_eq_true_iff.mpr ⟨?_, List.any_eq_true.mpr ⟨_, hcell, ?_⟩⟩
    · exact decide_eq_true (Std.OrientedCmp.lt_of_not_isLE (Bool.eq_false_iff.mp hadmits))
    · have hle : n ≤ m := by simpa [Bound.isBelow] using hbelow
      rw [SortValue.ofCell, if_neg (by omega)]
      exact SortValue.isLE_compare_date.mpr hle

section

variable {α : Type} [Indexed α] {s : Schema} {a : α} {zone : Instant.Zone} {q : Compiled}
  {column relationField relatedId : String} {entities : List α}

/-- The active entities under a parent with values on both sides of a value in a column. -/
def Schema.straddling (s : Schema) (column relationField relatedId : String) (entities : List α)
    (v : SortValue) : List α :=
  (s.siblings relationField relatedId entities).filter fun a => v.straddles (s.cellsOf a column)

theorem Schema.length_straddling_le (entities : List α) (v : SortValue) :
    (s.straddling column relationField relatedId entities v).length ≤ entities.length :=
  (List.filter_sublist.trans List.filter_sublist).length_le

/-- No entity has values on both sides of a value in the column of a field whose name no other field
has. -/
theorem Schema.straddling_eq_nil {f : IndexedField}
    (hsole : (s.primaryKey :: s.fields).filter (fun g => g.name = f.name) = [f]) (v : SortValue) :
    s.straddling f.name relationField relatedId entities v = [] := by
  refine List.filter_eq_nil_iff.mpr fun a _ => ?_
  have hcells : s.cellsOf a f.name = (s.cellOf a f).toList := by
    rw [Schema.cellsOf, hsole]
    cases hcell : s.cellOf a f <;> simp [hcell]
  rw [hcells, SortValue.not_straddles]
  decide

/-- The values of a column suit it, as dates are numbers of 64 bits. -/
theorem Schema.Describes.suits_cellsOf (hs : s.Describes α) {f : IndexedField}
    (hf : f ∈ s.primaryKey :: s.fields) {c : Column} (hc : s.column? f.name = some c)
    (hdates : ∀ g ∈ s.primaryKey :: s.fields, g.name = f.name →
      ∀ t, g.read a = .date t → nullDate ≤ t.milliseconds) :
    ∀ cell ∈ s.cellsOf a f.name, cell.Suits f.kind := by
  intro cell hcell
  obtain ⟨g, hg, hvalue⟩ := List.mem_filterMap.mp hcell
  obtain ⟨hg, hname⟩ := List.mem_filter.mp hg
  exact ⟨hs.cellsOf_isDate hf hc cell hcell,
    (Schema.suits_cellOf (hdates g hg (by simpa using hname)) hvalue).2⟩

namespace Scanner

variable {scanner : Scanner} {content : Generation} {start : PageStart}

/-- In the way of a page are siblings with values on both sides of its beginning. -/
theorem crowd_le_straddling (hs : s.Describes α)
    (hq : (siblings relationField relatedId).compile s zone = .ok q)
    (hkept : List.Forall₂ (Document.Keeps s) entities content.documents)
    (hcolumn : (s.column? scanner.field.name).isSome)
    (h : scanner.Paged content q.executable) (hstart : start.Suits scanner.field.kind) :
    (scanner.crowd content q.executable start).length ≤
      (s.straddling scanner.field.name relationField relatedId entities start.edge).length := by
  have hfound := Criteria.kept_matching hs hq hkept
  -- the rows of the crowd hold documents of the siblings, one each
  have hdocuments : (scanner.crowd content q.executable start).length ≤
      ((content.documents.filter q.executable.selects).filter fun d =>
        start.edge.straddles (d.cells scanner.field.name)).length := by
    have hordered := (sortBy_perm_self (Row.order [scanner.key])
      (content.rows q.executable [scanner.key])).map Row.document
    rw [Generation.map_rows] at hordered
    rw [← (hordered.filter _).length_eq, List.filter_map, List.length_map, crowd, taken,
      List.filter_filter, ← List.countP_eq_length_filter, ← List.countP_eq_length_filter]
    refine List.countP_mono_left fun row hrow hcrowd => ?_
    obtain ⟨hscanned, hdocument⟩ := scanned_of_mem_rows (mem_ordered.mp hrow)
    obtain ⟨hadmits, htakes⟩ := Bool.and_eq_true_iff.mp hcrowd
    rw [hscanned, Bool.not_eq_true'] at hadmits
    exact PageStart.straddles_edge (h.suits _ (List.mem_of_mem_filter hdocument)) hstart htakes hadmits
  refine hdocuments.trans (le_of_eq ?_)
  rw [Schema.straddling, ← matching_siblings relationField relatedId zone]
  refine (List.Forall₂.length_eq (R := Document.Keeps s) (List.rel_filter (fun a d had => ?_) hfound)).symm
  show _ ↔ start.edge.straddles (d.cells scanner.field.name) = true
  rw [Document.cells_encode hs had.encoded hcolumn]

theorem advances_of_straddling (hs : s.Describes α)
    (hq : (siblings relationField relatedId).compile s zone = .ok q)
    (hkept : List.Forall₂ (Document.Keeps s) entities content.documents)
    (hcolumn : (s.column? scanner.field.name).isSome)
    (h : scanner.Paged content q.executable)
    (hfew : ∀ v, (s.straddling scanner.field.name relationField relatedId entities v).length + 1 <
      pageSize) : scanner.Advances content q.executable := by
  refine advances_of_crowd h fun start hstart => ?_
  have hcrowd := crowd_le_straddling hs hq hkept hcolumn h hstart
  have hlt := hfew start.edge
  omega

end Scanner

/-! ### Answers -/

theorem Generation.search_eq_error {g : Generation} {q : Query} {keys : List ColumnKey}
    {limit : Option Nat} {e : IndexError} (h : g.search q keys limit = .error e) : e = .search := by
  unfold search at h
  split_ifs at h
  exact (Except.error.inj h).symm

theorem Document.decode_ne_cancelled {d : Document} : d.decode α s ≠ .error .cancelled := by
  unfold decode
  split
  · simp
  · split <;> simp

/-- Work in parts that are not cancelled is not cancelled. -/
theorem bind_ne_cancelled {β γ : Type} {x : Except IndexError β} {f : β → Except IndexError γ}
    (hx : x ≠ .error .cancelled) (hf : ∀ b, f b ≠ .error .cancelled) :
    (x >>= f) ≠ .error .cancelled := by
  cases x with
  | error e => exact fun h => hx (congrArg Except.error (Except.error.inj h))
  | ok b => exact hf b

theorem Schema.field_ne_cancelled {name : String} : s.field name ≠ .error .cancelled := by
  unfold field
  split <;> simp

theorem Schema.column_ne_cancelled {name : String} : s.column name ≠ .error .cancelled := by
  unfold column
  split <;> simp

theorem Criteria.addSortKey_ne_cancelled {keys : List SortKey} {name : String} {descending : Bool} :
    addSortKey s keys name descending ≠ .error .cancelled := by
  refine bind_ne_cancelled (bind_ne_cancelled s.field_ne_cancelled fun f => ?_) fun f =>
    bind_ne_cancelled s.column_ne_cancelled fun column => ?_
  · split_ifs <;> simp [pure, Except.pure, throw, throwThe, MonadExceptOf.throw]
  · split_ifs <;> simp [pure, Except.pure]

namespace Scanner

variable {scanner : Scanner} {content : Generation} {start : PageStart}

theorem compile_ne_cancelled :
    (siblings relationField relatedId).compile s zone ≠ .error .cancelled := by
  have hfield : s.fieldQuery zone relationField (.stringEq relatedId) ≠ .error .cancelled := by
    refine bind_ne_cancelled (bind_ne_cancelled s.field_ne_cancelled fun f => ?_) fun f =>
      bind_ne_cancelled s.column_ne_cancelled fun column => ?_
    · split_ifs <;> simp [pure, Except.pure, throw, throwThe, MonadExceptOf.throw]
    · simp only [Schema.testQuery, Schema.mismatch]
      split_ifs <;> simp
  have hquery : (siblings relationField relatedId).query s zone ≠ .error .cancelled := by
    refine bind_ne_cancelled ?_ fun filters => by simp [pure, Except.pure]
    show Test.queries s zone none [(relationField, ⟨.and, .stringEq relatedId⟩)] ≠ _
    rw [Test.queries, Test.query]
    · refine bind_ne_cancelled hfield fun q => ?_
      cases q <;> simp [Test.queries]
    · simp
  refine bind_ne_cancelled (by simp [siblings, Criteria.validate, Criteria.filter, Except.mapError]) fun _ =>
    bind_ne_cancelled hquery fun _ => bind_ne_cancelled ?_ fun _ => bind_ne_cancelled ?_ fun _ => by
      simp [pure, Except.pure]
  · unfold Criteria.sortKeys
    split
    · exact bind_ne_cancelled Criteria.addSortKey_ne_cancelled fun _ => Criteria.addSortKey_ne_cancelled
    · exact bind_ne_cancelled Criteria.addSortKey_ne_cancelled fun _ => Criteria.addSortKey_ne_cancelled
    · exact Criteria.addSortKey_ne_cancelled
  · unfold Criteria.activityQuery
    split_ifs
    · simp
    · exact bind_ne_cancelled s.column_ne_cancelled fun _ => by simp [pure, Except.pure]

theorem turn_ne_cancelled {n : Neighbours} {siblings : Query} :
    scanner.turn content siblings start n ≠ .error .cancelled := by
  cases hpage : scanner.page content siblings start with
  | error e =>
    obtain rfl : e = .search := Generation.search_eq_error hpage
    rw [turn, hpage]
    simp [bind, Except.bind]
  | ok page =>
    rw [turn_of_page hpage rfl]
    simp

/-- A scan is not cancelled: it has an outcome of its own, or none. -/
theorem scan_ne_cancelled {siblings : Query} :
    scanner.scan content siblings .first {} ≠ some (.error .cancelled) := fun h =>
  scan.partial_correctness scanner content siblings (fun _ _ outcome => outcome ≠ .error .cancelled)
    (fun rest ih start n outcome houtcome => by
      cases hturn : scanner.turn content siblings start n with
      | error e =>
        rw [hturn] at houtcome
        rw [← Option.some.inj houtcome]
        exact fun he => turn_ne_cancelled (hturn.trans (by rw [Except.error.inj he]))
      | ok next =>
        rw [hturn] at houtcome
        cases next with
        | inl found =>
          rw [← Option.some.inj houtcome]
          simp
        | inr n' => exact ih _ _ _ houtcome) .first {} _ h rfl

/-- A search for a duplicate is without an answer just if its scan has no outcome. -/
theorem answer_eq_cancelled_iff {i : Index} {l : Live} (hl : i.live = some l) :
    (effect (scanner.firstDuplicate α relationField relatedId) i).1 = .error .cancelled ↔
      ∃ q, i.compile (siblings relationField relatedId) = .ok q ∧
        scanner.scan l.content q.executable .first {} = none := by
  cases hq : i.compile (siblings relationField relatedId) with
  | error e =>
    have hanswer : (effect (scanner.firstDuplicate α relationField relatedId) i).1 = .error e := by
      rw [answer_of_scan hl, hq]
      rfl
    rw [hanswer]
    refine iff_of_false (fun he => compile_ne_cancelled (hq.trans (by rw [Except.error.inj he]))) ?_
    simp
  | ok q =>
    rw [answer_of_scan hl, hq]
    show ((scanner.scan l.content q.executable .first {}).getD (.error .cancelled)).bind _ = _ ↔ _
    simp only [Except.ok.injEq, exists_eq_left']
    cases hscan : scanner.scan l.content q.executable .first {} with
    | none => exact iff_of_true rfl rfl
    | some outcome =>
      refine iff_of_false ?_ (by simp)
      have houtcome : outcome ≠ .error .cancelled := fun he => scan_ne_cancelled (he ▸ hscan)
      refine bind_ne_cancelled houtcome fun found => ?_
      cases found with
      | none => simp
      | some row =>
        intro h
        cases hdecode : row.document.decode α i.schema with
        | error e =>
          simp only [hdecode, Except.map, Except.error.injEq] at h
          exact Document.decode_ne_cancelled (hdecode.trans (by rw [h]))
        | ok a => simp [hdecode, Except.map] at h

theorem answer_areAllUnique {i : Index} :
    (effect (scanner.areAllUnique α relationField relatedId) i).1 =
      (effect (scanner.firstDuplicate α relationField relatedId) i).1.map Option.isNone := by
  unfold areAllUnique
  rw [effect_bind]
  rcases effect (scanner.firstDuplicate α relationField relatedId) i with ⟨_ | found, j⟩ <;> rfl

/-- The search for a duplicate comes to an end: its criteria are refused, or its scan has an outcome. -/
def Ends (scanner : Scanner) (i : Index) (content : Generation) (relationField relatedId : String) :
    Prop :=
  ∀ q, i.compile (siblings relationField relatedId) = .ok q →
    (scanner.scan content q.executable .first {}).isSome = true

/-- **The search for a duplicate ends just if each page begins behind the one before it**, whatever the
field, the parent and the content. It ends if for no value there are as many siblings with values on
both sides of it as a page has room for beside one more; there are none at all if no other field has
the name of the field. A search that does not end has no answer, for which the model says that it is
cancelled. -/
theorem firstDuplicate_ends_iff {i : Index} {g : Generation} (h : i.Contains g entities)
    {name : String} (hscanner : new i.schema name = .ok scanner)
    (hdates : ∀ a ∈ entities, ∀ f ∈ i.schema.primaryKey :: i.schema.fields, f.name = name →
      ∀ t, f.read a = .date t → nullDate ≤ t.milliseconds)
    (relationField relatedId : String) :
    (scanner.Ends i g relationField relatedId ↔
      ∀ q, i.compile (siblings relationField relatedId) = .ok q → scanner.Advances g q.executable) ∧
    ((effect (scanner.firstDuplicate α relationField relatedId) i).1 = .error .cancelled ↔
      ¬ scanner.Ends i g relationField relatedId) ∧
    ((effect (scanner.areAllUnique α relationField relatedId) i).1 = .error .cancelled ↔
      ¬ scanner.Ends i g relationField relatedId) ∧
    ((∀ v, (i.schema.straddling name relationField relatedId entities v).length + 1 < pageSize) →
      scanner.Ends i g relationField relatedId) ∧
    ((i.schema.primaryKey :: i.schema.fields).filter (fun f => f.name = name) = [scanner.field] →
      ∀ v, i.schema.straddling name relationField relatedId entities v = []) := by
  obtain ⟨l, hl, rfl⟩ := Option.map_eq_some_iff.mp h.live
  have hs := Schema.describes_of_describe h.schema
  obtain ⟨f, hf, hnew⟩ := bind_eq_ok.mp hscanner
  obtain ⟨-, -, hnew⟩ := bind_eq_ok.mp hnew
  obtain rfl : Scanner.mk f = scanner := Except.ok.inj hnew
  obtain ⟨rfl, hmem, hcap⟩ := Schema.filterable_ok hf
  obtain ⟨c, hc, hfilterable⟩ := hs.column_filterable hmem hcap
  have hpaged : ∀ q : Query, l.content.canRun q = true → Paged ⟨f⟩ l.content q := fun q hruns => by
    refine ⟨hruns, Generation.canRun_of_open h.layout ?_, fun d hd => ?_⟩
    · intro name hname
      obtain rfl : name = f.name := by simpa [Query.columns] using hname
      exact ⟨c, hc, hfilterable⟩
    · obtain ⟨a, ha, had⟩ := exists_of_mem_right h.kept hd
      rw [Document.cells_encode hs had.encoded (by simp [hc])]
      exact hs.suits_cellsOf hmem hc (hdates a ha)
  have hscan : ∀ q : Query, (scan ⟨f⟩ l.content q .first {}).isSome = true ↔ Advances ⟨f⟩ l.content q :=
    fun q => by
      cases hruns : l.content.canRun q with
      | true => exact isSome_scan_iff (hpaged q hruns)
      | false =>
        refine iff_of_true ?_ fun start n n' _ hturn => ?_
        · rw [scan, turn_of_not_runs hruns]
          rfl
        · rw [turn_of_not_runs hruns] at hturn
          exact absurd hturn (by simp)
  have hends : Ends ⟨f⟩ i l.content relationField relatedId ↔
      ∀ q, i.compile (siblings relationField relatedId) = .ok q → Advances ⟨f⟩ l.content q.executable :=
    forall₂_congr fun q _ => hscan q.executable
  have hanswer : (effect (firstDuplicate α ⟨f⟩ relationField relatedId) i).1 = .error .cancelled ↔
      ¬ Ends ⟨f⟩ i l.content relationField relatedId := by
    rw [answer_eq_cancelled_iff hl, Ends]
    push Not
    exact exists_congr fun q => and_congr_right fun _ => by simp
  refine ⟨hends, hanswer, ?_, fun hfew => hends.mpr fun q hq => ?_, Schema.straddling_eq_nil⟩
  · rw [← hanswer, answer_areAllUnique]
    cases (effect (firstDuplicate α ⟨f⟩ relationField relatedId) i).1 <;> simp [Except.map]
  · cases hruns : l.content.canRun q.executable with
    | true =>
      exact advances_of_straddling hs hq h.kept (by simp [hc]) (hpaged _ hruns) hfew
    | false =>
      refine (hscan _).mp ?_
      rw [scan, turn_of_not_runs hruns]
      rfl

end Scanner
end

/-- Two recoding rules of a set. Both ends of a rule have the name `fieldId`. -/
def chainedRules : List RecodeRule :=
  [{ id := "r", history := ⟨"h", .create, .epoch⟩, recodeRuleSetId := "s", fromFieldId := "a",
      toFieldId := "c" },
    { id := "q", history := ⟨"h", .create, .epoch⟩, recodeRuleSetId := "s", fromFieldId := "b",
      toFieldId := "c" }]

/-- The ends of a rule are no dates. -/
theorem RecodeRule.read_fieldId {s : Schema} (h : Schema.describe RecodeRule = .ok s) {f : IndexedField}
    (hf : f ∈ s.primaryKey :: s.fields) (hname : f.name = "fieldId") (a : RecodeRule) :
    f.read a = .text a.fromFieldId ∨ f.read a = .text a.toFieldId := by
  have hsource : ∀ f ∈ s.primaryKey :: s.fields, f.name = "fieldId" →
      f.source = "fromFieldId" ∨ f.source = "toFieldId" := by
    obtain rfl := Except.ok.inj h
    decide
  unfold IndexedField.read
  rcases hsource f hf hname with hsource | hsource <;> rw [hsource]
  · exact Or.inl rfl
  · exact Or.inr rfl

theorem Scanner.firstDuplicate_ends_of_rules :
    ∃ i : Index, Index.stocked chainedRules = .ok i ∧ ∃ g, i.Contains g chainedRules ∧
      i.schema.straddling "fieldId" "recodeRuleSetId" "s" chainedRules (.text "c") = chainedRules ∧
      ∃ scanner, Scanner.new i.schema "fieldId" = .ok scanner ∧
        scanner.Ends i g "recodeRuleSetId" "s" ∧
        (effect (scanner.firstDuplicate RecodeRule "recodeRuleSetId" "s") i).1 ≠ .error .cancelled := by
  refine ⟨_, rfl, ?_⟩
  have hrecalled : Document.recalled chainedRules = .ok chainedRules :=
    EntityKind.recalled_eq .recodeRule (by decide)
  obtain ⟨g, hg⟩ := Index.contains_stocked rfl hrecalled (by decide)
  refine ⟨g, hg, by decide, _, rfl, ?_⟩
  obtain ⟨-, hanswer, -, hfew, -⟩ := Scanner.firstDuplicate_ends_iff hg
    (show Scanner.new _ "fieldId" = .ok _ from rfl) (fun a _ f hf hname t hread => by
      rcases RecodeRule.read_fieldId hg.schema hf hname a with htext | htext <;>
        exact absurd (htext.symm.trans hread) (by simp)) "recodeRuleSetId" "s"
  have hends := hfew fun v => by
    exact lt_of_le_of_lt (Nat.add_le_add_right (Schema.length_straddling_le _ v) 1) (by decide)
  exact ⟨hends, fun h => hanswer.mp h hends⟩

end Codebook
