/-
# Siblings that share a value

A scan looks for a value that two siblings share. It goes through them in the order of their values,
page by page, and compares each value with the one before it; a page begins where the one before it
ended. This is the same as going through all siblings at once: whatever was passed is strictly
increasing, and what the next page adds is the beginning of the rest. So the scan stops at the least
value that is there twice.

A scan needs a column in which each document has at most one value. This is so if no other field has
the name of the field.

Key definitions: `Neighbours.Passed`, `Scanner.valued`, `Scanner.Ready`, `Schema.encodedOf`,
`Schema.siblings`, `Schema.siblingValues`, `Index.tellsActive`, `Schema.LeastShared`.
Key theorems: `Scanner.scanRows_sorted`, `Scanner.scan_eq`, `Scanner.scanRows_least`,
`Scanner.firstDuplicate_of_decides`, `Scanner.firstDuplicate_least`.
-/
import Codebook.Entity.Dictionary
import Codebook.Index.Unique
import Codebook.Proofs.Values
import Codebook.Samples.Specimen
import Mathlib.Data.String.Basic

namespace Codebook

/-! ### One scan -/

namespace SortValue

/-- Whether a value is one that columns keep as it is: a text or a date. -/
def isToken : SortValue → Bool
  | text _ | date _ => true
  | missing | number _ => false

variable {v w : SortValue}

theorem ne_missing_of_isToken (h : v.isToken = true) : v ≠ missing := by
  rintro rfl
  simp [isToken] at h

theorem same_iff (hv : v.isToken = true) : v.same w = true ↔ v = w := by
  cases v <;> cases w <;> simp_all [isToken, same]

theorem compare_eq_iff (hv : v.isToken = true) : v.compare w = .eq ↔ v = w := by
  cases v <;> cases w <;> simp_all [isToken, compare]

theorem compare_missing (hv : v.isToken = true) : v.compare missing = .gt := by
  cases v <;> simp_all [isToken, compare]

theorem isLE_compare_text {a b : String} : ((text a).compare (text b)).isLE = true ↔ a ≤ b :=
  Ordering.ne_gt_iff_isLE.symm.trans compare_le_iff_le

theorem isLE_compare_date {m n : Int} : ((date m).compare (date n)).isLE = true ↔ m ≤ n :=
  Ordering.ne_gt_iff_isLE.symm.trans compare_le_iff_le

end SortValue

/-- The value that a row is scanned for. -/
def Row.scanned (row : Row) : SortValue :=
  row.values.getLast?.getD .missing

/-- The rows with a value. -/
def withValue (rows : List Row) : List Row :=
  rows.filter fun row => decide (row.scanned ≠ .missing)

/-- Of some rows no two have the same value, and the value seen last is that of the last one. -/
structure Neighbours.Passed (seen : List Row) (n : Neighbours) : Prop where
  increasing : seen.Pairwise fun a b => a.scanned.compare b.scanned = .lt
  last : n.last = seen.getLast?.map Row.scanned

namespace Scanner

variable {n n' : Neighbours} {row : Row} {rows rows' seen : List Row}

theorem scanRows_missing (h : row.scanned = .missing) :
    scanRows n (row :: rows) = scanRows n rows := by
  rw [scanRows]
  split
  · rfl
  · rename_i hvalue
    exact absurd h hvalue

theorem scanRows_value (h : row.scanned ≠ .missing) :
    scanRows n (row :: rows) =
      if (n.last.map fun before => before.same row.scanned).getD false then
        (some row, { last := some row.scanned })
      else scanRows { last := some row.scanned } rows := by
  rw [scanRows]
  split
  · rename_i hvalue
    exact absurd hvalue h
  · unfold Neighbours.observe Row.scanned
    split <;> rename_i heq <;> simp_all

/-- Rows without a value do not count. -/
theorem scanRows_withValue (n : Neighbours) : ∀ rows : List Row,
    scanRows n rows = scanRows n (withValue rows)
  | [] => rfl
  | row :: rows => by
    by_cases h : row.scanned = .missing
    · rw [scanRows_missing h, scanRows_withValue n rows, withValue, withValue,
        List.filter_cons_of_neg (by simpa using h)]
    · rw [withValue, List.filter_cons_of_pos (by simpa using h), scanRows_value h, scanRows_value h,
        scanRows_withValue _ rows]
      rfl

/-- A scan that finds nothing goes on where it stopped. -/
theorem scanRows_append (n : Neighbours) : ∀ rows rows' : List Row,
    scanRows n (rows ++ rows') =
      match scanRows n rows with
      | (some row, n') => (some row, n')
      | (none, n') => scanRows n' rows'
  | [], rows' => rfl
  | row :: rows, rows' => by
    rw [List.cons_append]
    by_cases h : row.scanned = .missing
    · rw [scanRows_missing h, scanRows_missing h, scanRows_append n rows rows']
    · rw [scanRows_value h, scanRows_value h]
      split_ifs
      · rfl
      · rw [scanRows_append _ rows rows']

/-- A value that is not the one before it is greater than all before it. -/
theorem Passed.step (h : n.Passed seen)
    (hsorted : ∀ r ∈ seen, (r.scanned.compare row.scanned).isLE = true)
    (htokens : ∀ r ∈ seen, r.scanned.isToken = true)
    (hnew : (n.last.map fun before => before.same row.scanned).getD false = false) :
    Neighbours.Passed (seen ++ [row]) { last := some row.scanned } := by
  refine ⟨?_, by simp⟩
  rw [List.pairwise_append]
  refine ⟨h.increasing, List.pairwise_singleton _ _, fun a ha b hb => ?_⟩
  rw [List.mem_singleton.mp hb]
  obtain ⟨before, r, rfl⟩ : ∃ before r, seen = before ++ [r] :=
    ⟨_, _, (List.dropLast_append_getLast (List.ne_nil_of_mem ha)).symm⟩
  have hr : r ∈ before ++ [r] := List.mem_append_right _ (List.mem_singleton_self r)
  have hlast : n.last = some r.scanned := by simp [h.last]
  have hlt : r.scanned.compare row.scanned = .lt := by
    have hne : r.scanned.compare row.scanned ≠ .eq := by
      rw [Ne, SortValue.compare_eq_iff (htokens r hr), ← SortValue.same_iff (htokens r hr)]
      simpa [hlast] using hnew
    have hle := hsorted r hr
    cases hcmp : r.scanned.compare row.scanned with
    | lt => rfl
    | eq => exact absurd hcmp hne
    | gt => simp [hcmp] at hle
  rcases List.mem_append.mp ha with ha | ha
  · have hbefore := (List.pairwise_append.mp h.increasing).2.2 a ha r (List.mem_singleton_self r)
    exact Std.TransCmp.lt_trans hbefore hlt
  · rw [List.mem_singleton.mp ha]
    exact hlt

/-- A scan of rows in order has passed all of them, or stops at the first row with the value of the
row before it. -/
theorem scanRows_sorted (hn : n.Passed seen)
    (hsorted : (seen ++ rows).Pairwise fun a b => (a.scanned.compare b.scanned).isLE = true)
    (htokens : ∀ r ∈ seen ++ rows, r.scanned.isToken = true) :
    (∃ n', scanRows n rows = (none, n') ∧ n'.Passed (seen ++ rows)) ∨
      ∃ before r row after n', scanRows n rows = (some row, n') ∧
        seen ++ rows = before ++ r :: row :: after ∧ r.scanned = row.scanned ∧
        (before ++ [r]).Pairwise fun a b => a.scanned.compare b.scanned = .lt := by
  induction rows generalizing seen n with
  | nil => exact Or.inl ⟨n, rfl, by rwa [List.append_nil]⟩
  | cons row rows ih =>
    have hrow : row.scanned.isToken = true := htokens row (by simp)
    rw [scanRows_value (SortValue.ne_missing_of_isToken hrow)]
    by_cases hsame : (n.last.map fun before => before.same row.scanned).getD false = true
    · rw [if_pos hsame]
      obtain ⟨v, hlast, hv⟩ : ∃ v, n.last = some v ∧ v.same row.scanned = true := by
        cases hlast : n.last with
        | none => simp [hlast] at hsame
        | some v => exact ⟨v, rfl, by simpa [hlast] using hsame⟩
      obtain ⟨r, hr, rfl⟩ := Option.map_eq_some_iff.mp (hn.last.symm.trans hlast)
      obtain ⟨before, rfl⟩ := List.getLast?_eq_some_iff.mp hr
      refine Or.inr ⟨before, r, row, rows, _, rfl, by simp, ?_, hn.increasing⟩
      exact (SortValue.same_iff (htokens r (by simp))).mp hv
    · rw [if_neg hsame]
      have hle : ∀ r ∈ seen, (r.scanned.compare row.scanned).isLE = true := fun r hr =>
        (List.pairwise_append.mp hsorted).2.2 r hr row List.mem_cons_self
      have hstep := Passed.step hn hle (fun r hr => htokens r (List.mem_append_left _ hr))
        (by simpa using hsame)
      rw [List.append_cons] at hsorted htokens ⊢
      exact ih hstep hsorted htokens

/-- Rows whose values increase have no two values that are equal. -/
theorem nodup_of_increasing (h : rows.Pairwise fun a b => a.scanned.compare b.scanned = .lt) :
    (rows.map Row.scanned).Nodup := by
  refine List.pairwise_map.mpr (h.imp fun {a b} hlt heq => ?_)
  have hself : b.scanned.compare b.scanned = .eq := Std.ReflCmp.compare_self
  rw [heq, hself] at hlt
  exact absurd hlt (by decide)

/-- **A scan finds the least value that is there twice**, if there is one. -/
theorem scanRows_least
    (hsorted : rows.Pairwise fun a b => (a.scanned.compare b.scanned).isLE = true)
    (htokens : ∀ r ∈ rows, r.scanned.isToken = true) :
    match (scanRows {} rows).1 with
    | none => (rows.map Row.scanned).Nodup
    | some row => row ∈ rows ∧ 2 ≤ (rows.map Row.scanned).count row.scanned ∧
        ∀ v, 2 ≤ (rows.map Row.scanned).count v → (row.scanned.compare v).isLE = true := by
  have hempty : Neighbours.Passed [] {} := ⟨List.Pairwise.nil, rfl⟩
  rcases scanRows_sorted hempty hsorted htokens with
    ⟨n', hnone, hpassed⟩ | ⟨before, r, row, after, n', hsome, hrows, hsame, hincreasing⟩
  · rw [hnone]
    exact nodup_of_increasing hpassed.increasing
  · rw [hsome]
    rw [List.nil_append] at hrows
    subst hrows
    refine ⟨by simp, ?_, fun v hv => ?_⟩
    · simp only [List.map_append, List.map_cons, List.count_append, hsame, List.count_cons_self]
      omega
    · by_contra hlt
      -- a value before that of the row occurs only among the rows that were passed
      have hafter : ∀ x ∈ r :: row :: after, x.scanned ≠ v := by
        rintro x hx rfl
        rcases List.mem_cons.mp hx with rfl | hx
        · exact hlt (hsame ▸ Std.ReflCmp.isLE_rfl)
        · rcases List.mem_cons.mp hx with rfl | hx
          · exact hlt Std.ReflCmp.isLE_rfl
          · have hrest := (List.pairwise_append.mp hsorted).2.1
            exact hlt ((List.pairwise_cons.mp (List.pairwise_cons.mp hrest).2).1 x hx)
      have hcount : ((r :: row :: after).map Row.scanned).count v = 0 := by
        refine List.count_eq_zero.mpr fun hmem => ?_
        obtain ⟨x, hx, hxv⟩ := List.mem_map.mp hmem
        exact hafter x hx hxv
      have hbefore : (before.map Row.scanned).count v ≤ 1 :=
        List.nodup_iff_count_le_one.mp
          (nodup_of_increasing (List.pairwise_append.mp hincreasing).1) v
      rw [List.map_append, List.count_append, hcount] at hv
      omega

end Scanner

/-! ### Pages of siblings -/

namespace PageStart

/-- Whether a page that begins there holds the rows with this value. -/
def admits : PageStart → SortValue → Bool
  | first, _ => true
  | anyValue, v => decide (v ≠ .missing)
  | text s, v => ((SortValue.text s).compare v).isLE
  | date n, v => ((SortValue.date n).compare v).isLE

/-- Whether the bound of a page that begins there selects a document. -/
def takes (column : String) (kind : ValueKind) (start : PageStart) (d : Document) : Bool :=
  ((start.query? column kind).map (Query.selects d)).getD true

/-- Whether a page can begin there in a column of a kind: with a value of this kind, which is in the
range of values and not the mark of a missing one. -/
def Suits (kind : ValueKind) : PageStart → Prop
  | first | anyValue => True
  | text _ => kind ≠ .date
  | date n => kind = .date ∧ nullDate < n

end PageStart

/-- A value of a column of this kind, in the range of its values. -/
def Cell.Suits (kind : ValueKind) (cell : Cell) : Prop :=
  cell.isDate = decide (kind = .date) ∧ ∀ n, cell = .date n → nullDate ≤ n

/-- A document has at most one value in a column. -/
def Document.Single (d : Document) (column : String) (kind : ValueKind) : Prop :=
  ∃ cell? : Option Cell, d.cells column = cell?.toList ∧ ∀ cell ∈ cell?, cell.Suits kind

theorem ColumnKey.encoded_eq_sorting (name : String) (kind : ValueKind) :
    encoded name kind = sorting ⟨name, if kind = .date then .date else .string, false⟩ := by
  cases kind <;> rfl

/-- A document is scanned for the first of its values. -/
theorem ColumnKey.read_encoded_cells {d : Document} {column : String} {kind : ValueKind}
    (hsuits : ∀ cell ∈ d.cells column, cell.Suits kind) :
    (encoded column kind).read d = .ofCells .string (d.cells column) := by
  rw [encoded_eq_sorting, read_sorting_cells]
  · cases hcells : d.cells column with
    | nil => rfl
    | cons cell cells =>
      show SortValue.ofCell (if kind = .date then .date else .string) cell = SortValue.ofCell .string cell
      split_ifs <;> cases cell <;> rfl
  · intro cell hcell
    rw [(hsuits cell hcell).1]
    by_cases hdate : kind = .date <;> simp [hdate]

/-- The value that a document with at most one value is scanned for. -/
theorem ColumnKey.read_encoded {d : Document} {column : String} {kind : ValueKind}
    {cell? : Option Cell} (hcells : d.cells column = cell?.toList)
    (hsuits : ∀ cell ∈ cell?, cell.Suits kind) :
    (encoded column kind).read d = (cell?.map (SortValue.ofCell .string)).getD .missing := by
  rw [read_encoded_cells fun cell hcell => hsuits cell (Option.mem_toList.mp (hcells ▸ hcell)), hcells]
  cases cell? <;> rfl

theorem ColumnKey.isToken_read_encoded {d : Document} {column : String} {kind : ValueKind}
    (h : (encoded column kind).read d ≠ .missing) : ((encoded column kind).read d).isToken = true := by
  unfold encoded read at h ⊢
  by_cases hdate : kind = .date
  · simp only [hdate, if_true] at h ⊢
    split at h
    · split_ifs at h ⊢ <;> simp_all [SortValue.isToken]
    · exact absurd rfl h
  · simp only [hdate, if_false] at h ⊢
    cases hhead : (d.texts column).head? <;> simp_all [SortValue.isToken]

/-- A page can begin with each value that a document is scanned for. -/
theorem ColumnKey.suits_after {d : Document} {column : String} {kind : ValueKind}
    (hsuits : ∀ cell ∈ d.cells column, cell.Suits kind)
    (h : (encoded column kind).read d ≠ .missing) :
    (PageStart.after (some ((encoded column kind).read d))).Suits kind := by
  rw [read_encoded_cells hsuits] at h ⊢
  cases hcells : d.cells column with
  | nil => simp [hcells, SortValue.ofCells] at h
  | cons cell cells =>
    obtain ⟨hisDate, hrange⟩ := hsuits cell (by rw [hcells]; exact List.mem_cons_self)
    rw [hcells] at h
    cases cell with
    | text s => simpa [Cell.isDate, PageStart.Suits, PageStart.after, SortValue.ofCells,
        SortValue.ofCell] using hisDate
    | date n =>
      have hle : nullDate ≤ n := hrange n rfl
      by_cases hn : n = nullDate
      · simp [SortValue.ofCells, SortValue.ofCell, hn] at h
      · have hlt : nullDate < n := by omega
        simpa [Cell.isDate, PageStart.Suits, PageStart.after, SortValue.ofCells, SortValue.ofCell,
          hn, hlt] using hisDate

theorem Document.Single.suits {d : Document} {column : String} {kind : ValueKind}
    (hd : d.Single column kind) : ∀ cell ∈ d.cells column, cell.Suits kind := by
  obtain ⟨cell?, hcells, hsuits⟩ := hd
  exact fun cell hcell => hsuits cell (Option.mem_toList.mp (hcells ▸ hcell))

/-- The bound of a page selects the documents with the values that the page admits. -/
theorem PageStart.selects_query {start : PageStart} {d : Document} {column : String}
    {kind : ValueKind} (hd : d.Single column kind) (hstart : start.Suits kind) {bound : Query}
    (hbound : start.query? column kind = some bound) :
    bound.selects d = start.admits ((ColumnKey.encoded column kind).read d) := by
  obtain ⟨cell?, hcells, hsuits⟩ := hd
  rw [ColumnKey.read_encoded hcells hsuits]
  cases start with
  | first => simp [query?] at hbound
  | anyValue =>
    obtain rfl := Option.some.inj hbound
    by_cases hkind : kind = .date
    · rw [if_pos hkind, Query.selects, hcells]
      cases cell? with
      | none => rfl
      | some cell =>
        obtain ⟨hisDate, hrange⟩ := hsuits cell rfl
        cases cell with
        | text s => simp [Cell.isDate, hkind] at hisDate
        | date n =>
          have hle : nullDate ≤ n := hrange n rfl
          by_cases hn : n = nullDate
          · simp [Query.inDates, Bound.isBelow, admits, SortValue.ofCell, hn]
          · have hlt : nullDate < n := by omega
            simp [Query.inDates, Bound.isBelow, Bound.isAbove, admits, SortValue.ofCell, hn, hlt]
    · rw [if_neg hkind, Query.selects, Document.texts, hcells]
      cases cell? with
      | none => rfl
      | some cell =>
        obtain ⟨hisDate, -⟩ := hsuits cell rfl
        cases cell with
        | text s => rfl
        | date n => simp [Cell.isDate, hkind] at hisDate
  | text s =>
    obtain rfl := Option.some.inj hbound
    have hkind : kind ≠ .date := hstart
    rw [Query.selects, Document.texts, hcells]
    cases cell? with
    | none => rfl
    | some cell =>
      obtain ⟨hisDate, -⟩ := hsuits cell rfl
      cases cell with
      | text t =>
        have hle : (!decide (t < s)) = ((SortValue.text s).compare (.text t)).isLE := by
          rw [Bool.eq_iff_iff, SortValue.isLE_compare_text, Bool.not_eq_true',
            decide_eq_false_iff_not, String.not_lt]
        simpa [Query.isFrom, admits, SortValue.ofCell] using hle
      | date n => simp [Cell.isDate, hkind] at hisDate
  | date n =>
    obtain rfl := Option.some.inj hbound
    obtain ⟨hkind, hlt⟩ := hstart
    rw [Query.selects, hcells]
    cases cell? with
    | none => rfl
    | some cell =>
      obtain ⟨hisDate, -⟩ := hsuits cell rfl
      cases cell with
      | text s => simp [Cell.isDate, hkind] at hisDate
      | date m =>
        by_cases hm : m = nullDate
        · simp [Query.inDates, Bound.isBelow, Bound.isAbove, admits, SortValue.ofCell, hm,
            SortValue.compare, hlt]
        · have hle : decide (n ≤ m) = ((SortValue.date n).compare (.date m)).isLE := by
            rw [Bool.eq_iff_iff, SortValue.isLE_compare_date, decide_eq_true_iff]
          simpa [Query.inDates, Bound.isBelow, Bound.isAbove, admits, SortValue.ofCell, hm] using hle

/-- A query that asks for more selects some of the rows. -/
theorem Generation.rows_filter {g : Generation} {q q' : Query} {keys : List ColumnKey}
    {p : Document → Bool} (h : ∀ d ∈ g.documents, q'.selects d = (p d && q.selects d)) :
    g.rows q' keys = (g.rows q keys).filter fun row => p row.document := by
  have hselected : g.selected q' = (g.selected q).filter fun x => p x.1 := by
    unfold selected
    rw [List.filter_filter]
    refine List.filter_congr fun x hx => h x.1 ?_
    rw [← List.zipIdx_map_fst 0 g.documents]
    exact List.mem_map_of_mem hx
  rw [rows, rows, hselected, List.filter_map]
  rfl

namespace Scanner

/-- The order of a scan. -/
def key (scanner : Scanner) : ColumnKey :=
  .encoded scanner.field.name scanner.field.kind

/-- The rows of siblings in the order of a scan. -/
def ordered (scanner : Scanner) (content : Generation) (siblings : Query) : List Row :=
  sortBy (Row.order [scanner.key]) (content.rows siblings [scanner.key])

/-- What a scan needs: its searches can be run, and no document has two values. -/
structure Ready (scanner : Scanner) (content : Generation) (siblings : Query) : Prop where
  runs : content.canRun siblings = true
  indexed : content.canRun (.texts scanner.field.name none) = true
  single : ∀ d ∈ content.documents, d.Single scanner.field.name scanner.field.kind

variable {scanner : Scanner} {content : Generation} {siblings : Query} {start : PageStart}
  {n : Neighbours} {seen rest : List Row}

theorem columns_query {column : String} {kind : ValueKind} {bound : Query}
    (h : start.query? column kind = some bound) : bound.columns = [column] := by
  cases start with
  | first => simp [PageStart.query?] at h
  | anyValue =>
    obtain rfl := Option.some.inj h
    split_ifs <;> simp [Query.columns]
  | text s =>
    obtain rfl := Option.some.inj h
    simp [Query.columns]
  | date n =>
    obtain rfl := Option.some.inj h
    simp [Query.columns]

theorem mem_ordered {row : Row} : row ∈ scanner.ordered content siblings ↔
    row ∈ content.rows siblings [scanner.key] :=
  (sortBy_perm_self _ _).mem_iff

theorem scanned_of_mem_rows {row : Row} (h : row ∈ content.rows siblings [scanner.key]) :
    row.scanned = scanner.key.read row.document ∧
      row.document ∈ content.documents.filter siblings.selects := by
  constructor
  · obtain ⟨x, -, rfl⟩ := List.mem_map.mp h
    rfl
  · rw [← Generation.map_rows content siblings [scanner.key]]
    exact List.mem_map_of_mem h

/-- A page holds the first rows of those that its bound selects. -/
theorem page_takes (hruns : content.canRun siblings = true)
    (hindexed : content.canRun (.texts scanner.field.name none) = true) (start : PageStart) :
    scanner.page content siblings start =
      .ok (((scanner.ordered content siblings).filter fun row =>
        start.takes scanner.field.name scanner.field.kind row.document).take pageSize) := by
  have hties : ∀ a ∈ content.rows siblings [scanner.key], ∀ b ∈ content.rows siblings [scanner.key],
      Row.order [scanner.key] a b = .eq → a = b := fun a ha b hb htie =>
    Generation.eq_of_place ha hb (Window.place_of_tie htie)
  have hsearch : ∀ q : Query, content.canRun q = true →
      (∀ d ∈ content.documents, q.selects d =
        (start.takes scanner.field.name scanner.field.kind d && siblings.selects d)) →
      content.search q [scanner.key] (some pageSize) =
        .ok (((scanner.ordered content siblings).filter fun row =>
          start.takes scanner.field.name scanner.field.kind row.document).take pageSize) := by
    intro q hrun hselects
    rw [Generation.search, if_pos hrun, Window.first_eq (fun _ => Generation.reads_of_mem_rows)
      fun _ ha _ hb => Generation.eq_of_place ha hb, Generation.rows_filter hselects,
      sortBy_filter _ hties]
    rfl
  cases hquery : start.query? scanner.field.name scanner.field.kind with
  | none =>
    simp only [page, hquery]
    exact hsearch siblings hruns fun d _ => by simp [PageStart.takes, hquery]
  | some bound =>
    simp only [page, hquery]
    refine hsearch _ ?_ fun d _ => ?_
    · refine List.all_eq_true.mpr fun name hname => ?_
      obtain ⟨clause, hclause, hname⟩ := Query.mem_clauseColumns.mp (by simpa [Query.columns] using hname)
      rcases List.mem_cons.mp hclause with rfl | hclause
      · exact List.all_eq_true.mp hruns name hname
      · obtain rfl := List.mem_singleton.mp hclause
        rw [columns_query hquery, List.mem_singleton] at hname
        exact hname ▸ List.all_eq_true.mp hindexed _ (by simp [Query.columns])
    · simp [PageStart.takes, hquery, Query.selects, Query.clauseResults, Query.combine,
        Query.outcomes, Bool.and_comm]

/-- A page holds the first rows of those that it admits. -/
theorem page_eq (h : scanner.Ready content siblings) (hstart : start.Suits scanner.field.kind) :
    scanner.page content siblings start =
      .ok (((scanner.ordered content siblings).filter fun row => start.admits row.scanned).take
        pageSize) := by
  rw [page_takes h.runs h.indexed]
  refine congrArg (fun rows => Except.ok (List.take pageSize rows)) (List.filter_congr fun row hrow => ?_)
  obtain ⟨hscanned, hdocument⟩ := scanned_of_mem_rows (mem_ordered.mp hrow)
  rw [hscanned]
  cases hquery : start.query? scanner.field.name scanner.field.kind with
  | none =>
    cases start <;> simp [PageStart.query?] at hquery
    rfl
  | some bound =>
    simp only [PageStart.takes, hquery, Option.map_some, Option.getD_some]
    exact PageStart.selects_query (h.single _ (List.mem_of_mem_filter hdocument)) hstart hquery

/-- The siblings with a value, in the order of a scan. -/
def valued (scanner : Scanner) (content : Generation) (siblings : Query) : List Row :=
  withValue (scanner.ordered content siblings)

theorem sorted_ordered (scanner : Scanner) (content : Generation) (siblings : Query) :
    (scanner.ordered content siblings).Pairwise fun a b =>
      (a.scanned.compare b.scanned).isLE = true := by
  refine (pairwise_sortBy (Row.order [scanner.key]) _).imp_of_mem fun ha hb hle => ?_
  rw [(scanned_of_mem_rows (mem_ordered.mp ha)).1, (scanned_of_mem_rows (mem_ordered.mp hb)).1]
  exact Ordering.isLE_left_of_isLE_then (Ordering.isLE_left_of_isLE_then hle)

theorem sorted_valued (scanner : Scanner) (content : Generation) (siblings : Query) :
    (scanner.valued content siblings).Pairwise fun a b =>
      (a.scanned.compare b.scanned).isLE = true :=
  (sorted_ordered scanner content siblings).filter _

theorem of_mem_valued {row : Row} (h : row ∈ scanner.valued content siblings) :
    row.scanned = scanner.key.read row.document ∧
      row.document ∈ content.documents.filter siblings.selects ∧ row.scanned.isToken = true := by
  obtain ⟨hrow, hvalue⟩ := List.mem_filter.mp h
  obtain ⟨hscanned, hdocument⟩ := scanned_of_mem_rows (mem_ordered.mp hrow)
  refine ⟨hscanned, hdocument, ?_⟩
  have hne : row.scanned ≠ .missing := by simpa using hvalue
  rw [hscanned] at hne ⊢
  exact ColumnKey.isToken_read_encoded hne

theorem after_token {v : SortValue} (h : v.isToken = true) :
    (PageStart.after (some v)).repeatsLast = true ∧
      ∀ w, (PageStart.after (some v)).admits w = (v.compare w).isLE := by
  cases v <;> simp_all [SortValue.isToken, PageStart.after, PageStart.repeatsLast, PageStart.admits]

/-- The page after those with the rows that were passed goes on with the rest. -/
theorem next_page (h : scanner.Ready content siblings) (hn : n.Passed seen)
    (hrest : scanner.valued content siblings = seen ++ rest) :
    ∃ page m, 0 < m ∧ scanner.page content siblings (.after n.last) = .ok page ∧
      (if (PageStart.after n.last).repeatsLast then page.drop 1 else page) = rest.take m ∧
      (page.length = pageSize ↔ m ≤ rest.length) := by
  rcases List.eq_nil_or_concat' seen with rfl | ⟨before, r, rfl⟩
  · have hlast : n.last = none := hn.last
    refine ⟨_, pageSize, by decide, page_eq h (by rw [hlast]; trivial), ?_, ?_⟩
    · rw [hlast]
      exact congrArg (List.take pageSize) hrest
    · rw [hlast, List.length_take]
      rw [show (scanner.ordered content siblings).filter (fun row =>
        (PageStart.after none).admits row.scanned) = rest from hrest]
      omega
  · have hr : r ∈ scanner.valued content siblings := by
      rw [hrest]
      simp
    obtain ⟨hscanned, hdocument, htoken⟩ := of_mem_valued hr
    have hlast : n.last = some r.scanned := by simp [hn.last]
    obtain ⟨hrepeats, hadmits⟩ := after_token htoken
    have hsuits : (PageStart.after n.last).Suits scanner.field.kind := by
      rw [hlast, hscanned]
      refine ColumnKey.suits_after (h.single _ (List.mem_of_mem_filter hdocument)).suits ?_
      exact hscanned ▸ SortValue.ne_missing_of_isToken htoken
    have hfilter : ((scanner.ordered content siblings).filter fun row =>
        (PageStart.after n.last).admits row.scanned) = r :: rest := by
      have hvalued : ((scanner.ordered content siblings).filter fun row =>
          (PageStart.after n.last).admits row.scanned) =
          (scanner.valued content siblings).filter fun row =>
            (r.scanned.compare row.scanned).isLE := by
        unfold valued withValue
        rw [List.filter_filter, hlast]
        refine List.filter_congr fun row _ => ?_
        rw [hadmits]
        by_cases hvalue : row.scanned = .missing
        · rw [hvalue, SortValue.compare_missing htoken]
          simp
        · simp [hvalue]
      have hsorted := sorted_valued scanner content siblings
      rw [hrest, List.append_assoc] at hsorted
      have hafter := (List.pairwise_append.mp (List.pairwise_append.mp hsorted).2.1).2.2 r
        (List.mem_singleton_self r)
      have hbefore := (List.pairwise_append.mp hn.increasing).2.2
      rw [hvalued, hrest, List.append_assoc, List.filter_append, List.filter_eq_nil_iff.mpr,
        List.nil_append, List.filter_eq_self.mpr]
      · rfl
      · intro row hrow
        rcases List.mem_cons.mp hrow with rfl | hrow
        · exact Std.ReflCmp.isLE_rfl
        · exact hafter row hrow
      · intro row hrow
        have hlt := hbefore row hrow r (List.mem_singleton_self r)
        have hswap : r.scanned.compare row.scanned = (row.scanned.compare r.scanned).swap :=
          Std.OrientedCmp.eq_swap
        rw [hswap, hlt]
        decide
    refine ⟨_, pageSize - 1, by decide, page_eq h hsuits, ?_, ?_⟩
    · rw [hfilter, hlast, if_pos hrepeats]
      rfl
    · rw [hfilter, List.length_take, List.length_cons]
      unfold pageSize
      omega

/-- A page leads to the first row with the value of the row before it, or to the next page if it is
full. -/
theorem turn_of_page {page rows : List Row} (hpage : scanner.page content siblings start = .ok page)
    (hrows : (if start.repeatsLast then page.drop 1 else page) = rows) :
    scanner.turn content siblings start n = .ok (match scanRows n rows with
      | (some row, _) => .inl (some row)
      | (none, n') => if page.length = pageSize then .inr n' else .inl none) := by
  rw [turn, hpage]
  simp only [bind, Except.bind, hrows]
  rcases scanRows n rows with ⟨found, n'⟩
  cases found <;> rfl

/-- A search that cannot be run ends a scan on its first page. -/
theorem turn_of_not_runs (h : content.canRun siblings = false) :
    scanner.turn content siblings start n = .error .search := by
  have hpage : scanner.page content siblings start = .error .search := by
    cases hquery : start.query? scanner.field.name scanner.field.kind with
    | none => simp [page, hquery, Generation.search, h]
    | some bound =>
      have hcombined : content.canRun (.combined [(.must, siblings), (.must, bound)]) = false := by
        unfold Generation.canRun at h ⊢
        rw [Query.columns, Query.clauseColumns, List.all_append, h]
        rfl
      simp [page, hquery, Generation.search, hcombined]
  rw [turn, hpage]
  rfl

/-- Pages that go on where the rows that were passed end find what the rest of the rows has. -/
theorem scan_after (h : scanner.Ready content siblings) (hn : n.Passed seen)
    (hrest : scanner.valued content siblings = seen ++ rest) :
    scanner.scan content siblings (.after n.last) n = some (.ok (scanRows n rest).1) := by
  induction hlength : rest.length using Nat.strong_induction_on generalizing n seen rest with
  | _ length ih =>
    subst hlength
    obtain ⟨page, m, hm, hpage, hrows, hfull⟩ := next_page h hn hrest
    have hsplit := scanRows_append n (rest.take m) (rest.drop m)
    rw [List.take_append_drop] at hsplit
    rw [scan, turn_of_page hpage hrows, hsplit]
    have hsub : (seen ++ rest.take m).Sublist (scanner.valued content siblings) := by
      rw [hrest]
      exact (List.take_sublist _ _).append_left seen
    rcases scanRows_sorted hn ((sorted_valued _ _ _).sublist hsub)
        (fun r hr => (of_mem_valued (hsub.subset hr)).2.2) with ⟨n', hnone, hpassed⟩ | ⟨_, _, row, _, n', hsome, -⟩
    · simp only [hnone, hfull]
      by_cases hlength : m ≤ rest.length
      · rw [if_pos hlength]
        refine ih (rest.drop m).length ?_ hpassed ?_ rfl
        · rw [List.length_drop]
          omega
        · rw [hrest, List.append_assoc, List.take_append_drop]
      · rw [if_neg hlength, List.drop_of_length_le (by omega)]
        rfl
    · simp only [hsome]

/-- **A scan in pages is a scan of all siblings in order.** -/
theorem scan_eq (h : scanner.Ready content siblings) :
    scanner.scan content siblings .first {} =
      some (.ok (scanRows {} (scanner.valued content siblings)).1) := by
  have hpage : scanner.page content siblings .first =
      .ok ((scanner.ordered content siblings).take pageSize) := by
    have hall : (scanner.ordered content siblings).filter (fun row =>
        PageStart.first.admits row.scanned) = scanner.ordered content siblings :=
      List.filter_eq_self.mpr fun _ _ => rfl
    rw [page_eq h (show PageStart.first.Suits _ from trivial), hall]
  have hvalued : scanner.valued content siblings =
      withValue ((scanner.ordered content siblings).take pageSize) ++
        withValue ((scanner.ordered content siblings).drop pageSize) := by
    unfold valued withValue
    rw [← List.filter_append, List.take_append_drop]
  have hsub : (withValue ((scanner.ordered content siblings).take pageSize)).Sublist
      (scanner.valued content siblings) := by
    rw [hvalued]
    exact List.sublist_append_left _ _
  have hempty : Neighbours.Passed [] {} := ⟨List.Pairwise.nil, rfl⟩
  rw [scan, turn_of_page hpage (if_neg (by decide)), hvalued, scanRows_append,
    scanRows_withValue {} (List.take _ _)]
  have hsorted : ([] ++ withValue ((scanner.ordered content siblings).take pageSize)).Pairwise
      fun a b : Row => (a.scanned.compare b.scanned).isLE = true := (sorted_valued _ _ _).sublist hsub
  rcases scanRows_sorted hempty hsorted (fun r hr => (of_mem_valued (hsub.subset hr)).2.2) with
    ⟨n', hnone, hpassed⟩ | ⟨_, _, row, _, n', hsome, -⟩
  · simp only [hnone]
    by_cases hfull : ((scanner.ordered content siblings).take pageSize).length = pageSize
    · rw [if_pos hfull]
      exact scan_after h hpassed hvalued
    · rw [if_neg hfull, List.drop_of_length_le]
      · rfl
      · rw [List.length_take] at hfull
        omega
  · simp only [hsome]

end Scanner

/-! ### Values of siblings -/

section

variable {α : Type} [Indexed α] {s : Schema} {a : α} {d : Document}

/-- The value of a field as a scan compares it: as it is kept in the index. -/
def Schema.encodedOf (s : Schema) (f : IndexedField) (a : α) : SortValue :=
  ((s.cellOf a f).map (SortValue.ofCell .string)).getD .missing

/-- The active entities under a parent. -/
def Schema.siblings (s : Schema) (relationField relatedId : String) (entities : List α) : List α :=
  entities.filter fun a =>
    (s.facts a).fits relationField relatedId && Activity.actual.shows (s.facts a)

/-- The values that the active entities under a parent have in a field. -/
def Schema.siblingValues (s : Schema) (f : IndexedField) (relationField relatedId : String)
    (entities : List α) : List SortValue :=
  ((s.siblings relationField relatedId entities).map (s.encodedOf f)).filter fun v =>
    decide (v ≠ .missing)

theorem encodeValue_date {entityType field : String} {kind : ValueKind} {value : FieldValue} {n : Int}
    (h : encodeValue entityType field kind value = .ok (some (.date n))) :
    ∃ t, value = .date t ∧ t.milliseconds = n := by
  unfold encodeValue at h
  cases kind <;> cases value <;> simp at h
  exact ⟨_, rfl, h⟩

/-- A value of a field suits the column of the field, as dates are numbers of 64 bits. -/
theorem Schema.suits_cellOf {f : IndexedField}
    (hdates : ∀ t, f.read a = .date t → nullDate ≤ t.milliseconds) {cell : Cell}
    (h : s.cellOf a f = some cell) : cell.Suits f.kind := by
  refine ⟨Schema.cellOf_isDate h, ?_⟩
  rintro n rfl
  unfold cellOf at h
  split at h
  · rename_i hvalue
    obtain ⟨t, hread, rfl⟩ := encodeValue_date (Option.some.inj h ▸ hvalue)
    exact hdates t hread
  · split_ifs at h
    simp only [Option.some.injEq, Cell.date.injEq] at h
    exact h.le
  · simp at h

/-- Outside of dates every value suits its column. -/
theorem Schema.suits_cellOf_of_ne {f : IndexedField} (hkind : f.kind ≠ .date) {cell : Cell}
    (h : s.cellOf a f = some cell) : cell.Suits f.kind := by
  have htext := Schema.cellOf_isDate h
  refine ⟨htext, ?_⟩
  rintro n rfl
  simp [Cell.isDate, hkind] at htext

/-- The document of an entity has at most one value of a field whose name no other field has, and is
scanned for this value. -/
theorem Schema.Describes.single (hs : s.Describes α) (hd : Document.encode s a = .ok d)
    {f : IndexedField} (hc : (s.column? f.name).isSome)
    (hsole : (s.primaryKey :: s.fields).filter (fun g => g.name = f.name) = [f])
    (hsuits : ∀ cell ∈ s.cellOf a f, cell.Suits f.kind) :
    d.Single f.name f.kind ∧ (ColumnKey.encoded f.name f.kind).read d = s.encodedOf f a := by
  have hcells : d.cells f.name = (s.cellOf a f).toList := by
    rw [Document.cells_encode hs hd hc, Schema.cellsOf, hsole]
    cases hcell : s.cellOf a f <;> simp [hcell]
  exact ⟨⟨_, hcells, hsuits⟩, ColumnKey.read_encoded hcells hsuits⟩

namespace Scanner

variable {zone : Instant.Zone} {q : Compiled} {relationField relatedId : String}

theorem holds_siblings (relationField relatedId : String) (zone : Instant.Zone) (x : Facts) :
    (siblings relationField relatedId).holds zone x =
      (x.fits relationField relatedId && Activity.actual.shows x) := rfl

/-- The entities that are scanned are the active ones under the parent. -/
theorem matching_siblings (relationField relatedId : String) (zone : Instant.Zone)
    (entities : List α) : (siblings relationField relatedId).matching s zone entities =
      s.siblings relationField relatedId entities := rfl

/-- Criteria for siblings compile just if default criteria do. -/
theorem compile_siblings_eq (hs : s.Describes α) {relation : IndexedField}
    (hrelation : s.filterable relationField = .ok relation) (hkind : relation.kind ≠ .date)
    (relatedId : String) : ∃ change, (siblings relationField relatedId).compile s zone =
      (({} : Criteria).compile s zone).map change := by
  have hfield : s.fieldQuery zone relationField (.stringEq relatedId) =
      .ok (some (Query.ofText relationField relation.kind relatedId)) :=
    (hs.fieldQuery_eq hrelation zone _).trans (if_neg hkind)
  have hfilters : Test.queries s zone none (siblings relationField relatedId).filters =
      .ok (some (Query.ofText relationField relation.kind relatedId)) := by
    show Test.queries s zone none [(relationField, ⟨.and, .stringEq relatedId⟩)] = _
    rw [Test.queries, Test.query, hfield]
    · rfl
    · simp
  exact ⟨_, Criteria.compile_of_filters rfl rfl hfilters⟩

theorem compile_siblings (hs : s.Describes α) (hdefault : ({} : Criteria).compile s zone = .ok q)
    {relation : IndexedField} (hrelation : s.filterable relationField = .ok relation)
    (hkind : relation.kind ≠ .date) (relatedId : String) :
    ∃ q, (siblings relationField relatedId).compile s zone = .ok q := by
  obtain ⟨change, hchange⟩ : ∃ change, (siblings relationField relatedId).compile s zone =
      (({} : Criteria).compile s zone).map change := compile_siblings_eq hs hrelation hkind relatedId
  rw [hchange, hdefault]
  exact ⟨_, rfl⟩

/-- The values in a scan are those of the entities of the siblings. -/
theorem perm_scanned {scanner : Scanner} {content : Generation} {siblings : Query} {found : List α}
    (hkept : List.Forall₂ (Document.Keeps s) found (content.documents.filter siblings.selects))
    (hread : ∀ a ∈ found, ∀ d, Document.encode s a = .ok d →
      scanner.key.read d = s.encodedOf scanner.field a) :
    ((scanner.valued content siblings).map Row.scanned).Perm
      ((found.map (s.encodedOf scanner.field)).filter fun v => decide (v ≠ .missing)) := by
  have hvalues : (content.rows siblings [scanner.key]).map Row.scanned =
      found.map (s.encodedOf scanner.field) := by
    have hscanned : (content.rows siblings [scanner.key]).map Row.scanned =
        ((content.rows siblings [scanner.key]).map Row.document).map scanner.key.read := by
      rw [List.map_map]
      exact List.map_congr_left fun row hrow => (scanned_of_mem_rows hrow).1
    have hfound : List.Forall₂ (fun a d => s.encodedOf scanner.field a = scanner.key.read d) found
        (content.documents.filter siblings.selects) := by
      refine ((List.forall₂_and_left _ _).mpr ⟨fun a ha => ha, hkept⟩).imp ?_
      exact fun a d had => (hread a had.1 d had.2.encoded).symm
    have hmap := List.forall₂_map_left_iff.mpr (List.forall₂_map_right_iff.mpr hfound)
    rw [List.forall₂_eq_eq_eq] at hmap
    rw [hscanned, Generation.map_rows, hmap]
  rw [← hvalues, List.filter_map]
  exact ((sortBy_perm_self _ _).filter _).map _

/-- What is answered is what the scan comes to. -/
theorem answer_of_scan {i : Index} {l : Live} (hl : i.live = some l) (scanner : Scanner) :
    (effect (scanner.firstDuplicate α relationField relatedId) i).1 =
      (i.compile (siblings relationField relatedId)).bind fun q =>
        ((scanner.scan l.content q.executable .first {}).getD (.error .cancelled)).bind fun
          | none => .ok none
          | some row => (row.document.decode α i.schema).map fun a => some (scanner.field.read a) := by
  unfold firstDuplicate
  rw [effect_bind_ok (effect_get i)]
  cases i.compile (siblings relationField relatedId) with
  | error e => exact congrArg Prod.fst (effect_bind_error (effect_lift _ i) _)
  | ok q =>
    rw [effect_bind_ok (effect_lift _ i), effect_bind_ok (Index.effect_searcher hl), Index.recordSearch,
      effect_bind_ok (effect_modify _ i)]
    simp only [Except.bind]
    cases (scanner.scan l.content q.executable .first {}).getD (.error .cancelled) with
    | error e => rw [effect_bind_error (effect_lift _ _)]
    | ok found =>
      rw [effect_bind_ok (effect_lift _ _)]
      cases found with
      | none => rfl
      | some row =>
        show (effect (liftM (row.document.decode α i.schema) >>= fun a =>
          pure (some (scanner.field.read a))) _).1 = (row.document.decode α i.schema).map _
        rw [effect_bind_pure, effect_lift]

theorem answer_firstDuplicate {i : Index} {l : Live} (hl : i.live = some l)
    (hq : i.compile (siblings relationField relatedId) = .ok q) {scanner : Scanner}
    (hready : scanner.Ready l.content q.executable) :
    (effect (scanner.firstDuplicate α relationField relatedId) i).1 =
      match (scanRows {} (scanner.valued l.content q.executable)).1 with
      | none => .ok none
      | some row => (row.document.decode α i.schema).map fun a => some (scanner.field.read a) := by
  rw [answer_of_scan hl, hq]
  simp only [Except.bind, scan_eq hready, Option.getD_some]

end Scanner

/-! ### The search for a shared value -/

/-- Whether an index can tell what is active. Where it cannot, every search fails that leaves out what
is not active. -/
def Index.tellsActive (i : Index) : Except IndexError Unit :=
  (i.compile {}).bind fun _ => if i.schema.decides .actual then .ok () else .error .search

theorem Index.tellsActive_eq_ok {i : Index} : i.tellsActive = .ok () ↔
    (∃ q, i.compile {} = .ok q) ∧ i.schema.decides .actual = true := by
  unfold tellsActive
  cases i.compile {} with
  | error e => simp [Except.bind]
  | ok q => simp [Except.bind]

/-- What is to be found of the values of a field among the siblings under a parent: nothing just if no
two of them are the same, and otherwise the value of a sibling whose value, as the index keeps it, is
the least that two siblings have. -/
structure Schema.LeastShared (s : Schema) (f : IndexedField) (relationField relatedId : String)
    (entities : List α) (found : Option FieldValue) : Prop where
  eq_none_iff : found = none ↔ (s.siblingValues f relationField relatedId entities).Nodup
  least : ∀ value, found = some value → ∃ a ∈ s.siblings relationField relatedId entities,
    value = f.read a ∧
    2 ≤ (s.siblingValues f relationField relatedId entities).count (s.encodedOf f a) ∧
    ∀ v, 2 ≤ (s.siblingValues f relationField relatedId entities).count v →
      ((s.encodedOf f a).compare v).isLE = true

namespace Scanner

variable {i : Index} {g : Generation} {entities : List α} {q : Compiled} {scanner : Scanner}
  {relation : IndexedField} {name relationField relatedId : String}

/-- The field of a check is open to filters. -/
theorem new_ok {s : Schema} {name : String} {scanner : Scanner} (h : new s name = .ok scanner) :
    s.filterable name = .ok scanner.field ∧ scanner.field.name = name := by
  obtain ⟨f, hf, h⟩ := bind_eq_ok.mp h
  obtain ⟨-, -, h⟩ := bind_eq_ok.mp h
  obtain rfl : Scanner.mk f = scanner := Except.ok.inj h
  exact ⟨hf, (Schema.filterable_ok hf).1⟩

/-- Where an index can tell what is active, a scan of the siblings finds the least value that two of
them have, if no other field has the name of the field. -/
theorem firstDuplicate_of_decides (h : i.Contains g entities)
    (hdecides : i.schema.decides .actual = true)
    (hq : i.compile (siblings relationField relatedId) = .ok q) (hscanner : new i.schema name = .ok scanner)
    (hsole : (i.schema.primaryKey :: i.schema.fields).filter (fun f => f.name = name) =
      [scanner.field])
    (hsuits : ∀ a ∈ entities, ∀ cell ∈ i.schema.cellOf a scanner.field,
      cell.Suits scanner.field.kind) :
    ∃ found, (effect (scanner.firstDuplicate α relationField relatedId) i).1 = .ok found ∧
      i.schema.LeastShared scanner.field relationField relatedId entities found := by
  obtain ⟨l, hl, rfl⟩ := Option.map_eq_some_iff.mp h.live
  have hs := Schema.describes_of_describe h.schema
  obtain ⟨hf, rfl⟩ := new_ok hscanner
  obtain ⟨-, hmem, hcap⟩ := Schema.filterable_ok hf
  obtain ⟨c, hc, hfilterable⟩ := hs.column_filterable hmem hcap
  have hkept := Criteria.kept_matching hs hq h.kept
  have hsingle : ∀ a ∈ entities, ∀ d, Document.encode i.schema a = .ok d →
      d.Single scanner.field.name scanner.field.kind ∧
        scanner.key.read d = i.schema.encodedOf scanner.field a :=
    fun a ha d hd => hs.single hd (by simp [hc]) hsole (hsuits a ha)
  have hready : Ready scanner l.content q.executable := by
    refine ⟨(Criteria.canRun_executable hs h.layout hq).trans hdecides,
      Generation.canRun_of_open h.layout fun column hcolumn => ?_, fun d hd => ?_⟩
    · obtain rfl : column = scanner.field.name := by simpa [Query.columns] using hcolumn
      exact ⟨c, hc, hfilterable⟩
    · obtain ⟨a, ha, had⟩ := exists_of_mem_right h.kept hd
      exact (hsingle a ha d had.encoded).1
  have hperm := perm_scanned hkept fun a ha d hd => (hsingle a (List.mem_of_mem_filter ha) d hd).2
  have hleast := scanRows_least (sorted_valued scanner l.content q.executable) fun _ hr =>
    (of_mem_valued hr).2.2
  have hanswer := answer_firstDuplicate (α := α) hl hq hready
  cases hfound : (scanRows {} (valued scanner l.content q.executable)).1 with
  | none =>
    rw [hfound] at hleast hanswer
    exact ⟨none, hanswer, iff_of_true rfl (hperm.nodup_iff.mp hleast), by simp⟩
  | some row =>
    rw [hfound] at hleast hanswer
    obtain ⟨hrow, htwice, hleast⟩ := hleast
    obtain ⟨hscanned, hdocument, -⟩ := of_mem_valued hrow
    obtain ⟨a, ha, had⟩ := exists_of_mem_right hkept hdocument
    have hvalue : row.scanned = i.schema.encodedOf scanner.field a :=
      hscanned.trans (hsingle a (List.mem_of_mem_filter ha) _ had.encoded).2
    have hcount : ∀ v, ((scanner.valued l.content q.executable).map Row.scanned).count v =
        (i.schema.siblingValues scanner.field relationField relatedId entities).count v :=
      fun v => hperm.count_eq v
    rw [hcount] at htwice
    simp only [had.decoded, Except.map] at hanswer
    refine ⟨_, hanswer, iff_of_false (by simp) fun hnodup => ?_, fun value hread => ⟨a, ha, ?_, ?_,
      fun v hv => ?_⟩⟩
    · have hone := List.nodup_iff_count_le_one.mp hnodup row.scanned
      omega
    · exact (Option.some.inj hread).symm
    · exact hvalue ▸ htwice
    · exact hvalue ▸ hleast v (hcount v ▸ hv)

/-- Where the index cannot tell what is active, a scan of the siblings fails as every search for what is
active does. -/
theorem firstDuplicate_refused_alike (h : i.Contains g entities)
    (hrelation : i.schema.filterable relationField = .ok relation) (hrelated : relation.kind ≠ .date)
    (relatedId : String) {e : IndexError} (hactive : i.tellsActive = .error e) :
    (effect (scanner.firstDuplicate α relationField relatedId) i).1 = .error e := by
  obtain ⟨l, hl, rfl⟩ := Option.map_eq_some_iff.mp h.live
  have hs := Schema.describes_of_describe h.schema
  obtain ⟨change, hchange⟩ : ∃ change,
      i.compile (siblings relationField relatedId) = (i.compile {}).map change :=
    compile_siblings_eq hs hrelation hrelated relatedId
  rw [answer_of_scan hl, hchange]
  rw [Index.tellsActive] at hactive
  cases hdefault : i.compile {} with
  | error e' =>
    rw [hdefault] at hactive
    obtain rfl : e' = e := Except.error.inj hactive
    rfl
  | ok q =>
    rw [hdefault] at hactive
    have hq : i.compile (siblings relationField relatedId) = .ok (change q) := by
      rw [hchange, hdefault]
      rfl
    simp only [Except.bind] at hactive
    split_ifs at hactive with hdecides
    obtain rfl : .search = e := Except.error.inj hactive
    have hundecided : i.schema.decides .actual = false := by simpa using hdecides
    have hrun : l.content.canRun (change q).executable = false :=
      (Criteria.canRun_executable hs h.layout hq).trans hundecided
    have hscan : scanner.scan l.content (change q).executable .first {} = some (.error .search) := by
      rw [scan, turn_of_not_runs hrun]
    simp only [Except.map, Except.bind, hscan, Option.getD_some]

/-- **The search for a value that siblings share is exact.** Of a field that a scanner accepts and
whose name no other field has, the values are compared as the index keeps them. Nothing is found
just if no two active entities under the parent have the same value; otherwise the value of one of
those is found whose values are the least that two of them share. It does not matter how many
siblings there are, which of them have no value, and where the pages end. There is no answer where the
index cannot tell what is active, though nothing is wrong with what was asked. -/
theorem firstDuplicate_least (h : i.Contains g entities) (hscanner : new i.schema name = .ok scanner)
    (hsole : (i.schema.primaryKey :: i.schema.fields).filter (fun f => f.name = name) =
      [scanner.field])
    (hdates : ∀ a ∈ entities, ∀ t, scanner.field.read a = .date t → nullDate ≤ t.milliseconds)
    (hrelation : i.schema.filterable relationField = .ok relation)
    (hkind : relation.kind ≠ .date) (relatedId : String) :
    (∀ e, i.tellsActive = .error e →
      (effect (scanner.firstDuplicate α relationField relatedId) i).1 = .error e) ∧
    (i.tellsActive = .ok () →
      ∃ found, (effect (scanner.firstDuplicate α relationField relatedId) i).1 = .ok found ∧
        i.schema.LeastShared scanner.field relationField relatedId entities found) := by
  refine ⟨fun e he => firstDuplicate_refused_alike h hrelation hkind relatedId he, fun hactive => ?_⟩
  obtain ⟨⟨q, hdefault⟩, hdecides⟩ := Index.tellsActive_eq_ok.mp hactive
  obtain ⟨q, hq⟩ := compile_siblings (Schema.describes_of_describe h.schema) hdefault hrelation hkind
    relatedId
  exact firstDuplicate_of_decides h hdecides hq hscanner hsole fun a ha _ =>
    Schema.suits_cellOf (hdates a ha)

end Scanner

end

/-- A version of a dictionary in a group, and how it came about. -/
def dictionaryVersion (id : String) (change : ChangeType) (version : Option String) : Dictionary where
  id := id
  history := ⟨"h", change, .epoch⟩
  groupId := "g"
  name := "d"
  description := none
  version := version
  descendants := []

/-- Of these versions the least occurs twice, but one of the two is closed. -/
def sharedVersions : List Dictionary :=
  [dictionaryVersion "a" .create (some "2"), dictionaryVersion "b" .close (some "1"),
    dictionaryVersion "c" .create none, dictionaryVersion "d" .update (some "1"),
    dictionaryVersion "e" .restore (some "2"), dictionaryVersion "f" .create none]

theorem Scanner.firstDuplicate_least_of_versions :
    ∃ i : Index, Index.stocked sharedVersions = .ok i ∧
      ∃ scanner, Scanner.new i.schema "version" = .ok scanner ∧
        (effect (scanner.firstDuplicate Dictionary "groupId" "g") i).1 = .ok (some (.text "2")) := by
  refine ⟨_, rfl, _, rfl, ?_⟩
  have hrecalled : Document.recalled sharedVersions = .ok sharedVersions :=
    EntityKind.recalled_eq .dictionary (by decide)
  obtain ⟨g, hg⟩ := Index.contains_stocked rfl hrecalled (by decide)
  have hdates : ∀ a ∈ sharedVersions, ∀ t, IndexedField.read
      ⟨"version", "version", .string, ⟨false, true, true⟩, []⟩ a = .date t → nullDate ≤ t.milliseconds := by
    intro a ha t hread
    simp only [sharedVersions, List.mem_cons, List.not_mem_nil, or_false] at ha
    rcases ha with rfl | rfl | rfl | rfl | rfl | rfl <;> cases hread
  obtain ⟨found, hfound, hnone, hsome⟩ := (Scanner.firstDuplicate_least hg
    (show Scanner.new _ "version" = .ok _ from rfl) (by decide) hdates
    (show Schema.filterable _ "groupId" = .ok _ from rfl) (by decide) "g").2 (by decide)
  cases found with
  | none => exact absurd (hnone.mp rfl) (by decide)
  | some value =>
    obtain ⟨a, ha, rfl, htwice, -⟩ := hsome value rfl
    refine hfound.trans (congrArg (fun v => Except.ok (some v)) ?_)
    clear hfound hnone hsome
    revert a
    decide

/-- An index can refuse the search where it cannot tell what is active: here the last change of the
entities is closed to filters and orders. -/
theorem Scanner.firstDuplicate_refused :
    ∃ (i : Index) (g : Generation) (scanner : Scanner) (relation : IndexedField),
      i.Contains g [(⟨"a"⟩ : Specimen 27)] ∧ Scanner.new i.schema "id" = .ok scanner ∧
      (i.schema.primaryKey :: i.schema.fields).filter (fun f => f.name = "id") = [scanner.field] ∧
      i.schema.filterable "id" = .ok relation ∧ relation.kind ≠ .date ∧
      (effect (scanner.firstDuplicate (Specimen 27) "id" "a") i).1 =
        .error (.unknownField "HiddenActivity" "changeType") := by
  have hrecalled : Document.recalled [(⟨"a"⟩ : Specimen 27)] = .ok [⟨"a"⟩] := by decide +kernel
  obtain ⟨g, hg⟩ := Index.contains_stocked rfl hrecalled (by decide)
  exact ⟨_, g, _, _, hg, rfl, by decide, rfl, by decide, rfl⟩

end Codebook
