/-
# Unique values

A value is compared with those of its siblings: the active entities with the same parent. For a
single value one search for two entities is enough. A whole set of siblings is scanned in pages
that are sorted by the value as it is kept in the index, so that equal values are neighbours. Each
page but the first begins with the value that ended the page before it. Siblings without a value
come first and do not count.

A scan comes to an end when a page is not full. Over a column that several fields share, a page
may begin where the one before it began; such a scan never ends.

Key definitions: `Scanner`, `Scanner.new`, `Scanner.isUnique`, `Scanner.ensureUnique`,
`Scanner.scan`, `Scanner.firstDuplicate`, `Scanner.areAllUnique`.
-/
import Codebook.Index.Find
import Codebook.Search.Duplicates

namespace Codebook

/-- A check of the values of a field. -/
structure Scanner where
  /-- The field. -/
  field : IndexedField
deriving DecidableEq, Repr

/-- Where a page of a scan begins. -/
inductive PageStart where
  /-- With all siblings, those without a value first. -/
  | first
  /-- With the least value. -/
  | anyValue
  /-- With a text. -/
  | text (s : String)
  /-- With a date. -/
  | date (milliseconds : Int)
deriving DecidableEq, Repr

namespace PageStart

/-- Where the page begins that follows one with this last value. -/
def after : Option SortValue → PageStart
  | some (.text s) => text s
  | some (.number x) => text x.canonical
  | some (.date n) => date n
  | some .missing | none => anyValue

/-- Whether the page begins with the last value of the page before it. -/
def repeatsLast : PageStart → Bool
  | text _ | date _ => true
  | first | anyValue => false

/-- What is asked of the column of a page. -/
def query? (column : String) (kind : ValueKind) : PageStart → Option Query
  | first => none
  | anyValue =>
    some (if kind = .date then .dates column (.excluded nullDate) .unbounded
      else .texts column none)
  | text s => some (.texts column (some s))
  | date n => some (.dates column (.included n) .unbounded)

end PageStart

namespace Scanner

/-- The number of siblings on a page. -/
def pageSize : Nat := 512

/-- A check of a field, which has to be open to filters and orders. -/
def new (s : Schema) (field : String) : Except IndexError Scanner := do
  let f ← s.filterable field
  let _ ← s.sortable field
  return ⟨f⟩

/-- The check in diagnostics. -/
def label (i : Index) (scanner : Scanner) : String :=
  Diagnostic.someMembers "UniquenessScanner" [("index", Text.quote i.name),
    ("field", Text.quote scanner.field.name)]

/-- Criteria for the siblings under a parent. -/
def siblings (relationField relatedId : String) : Criteria :=
  ({} : Criteria).filter relationField (Index.textFilter relatedId)

/-- Whether no sibling has a value, apart from one that may be excluded. -/
def isUnique (scanner : Scanner) (relationField relatedId value : String)
    (excluding : Option String) : LookupM Bool := do
  let i ← get
  let c := (siblings relationField relatedId).filter scanner.field.name (Index.textFilter value)
  let compiled ← i.compile (c.page 0 2)
  let content ← Index.searcher
  Index.recordSearch
  let rows ← content.search compiled.executable (compiled.sort.map ColumnKey.sorting) (some 2)
  match rows.map fun row => row.document.key? i.schema with
  | [] => return true
  | [some key] => return excluding == some key
  | _ => return false

/-- Fails unless no sibling has a value, apart from one that may be excluded. -/
def ensureUnique (scanner : Scanner) (relationField relatedId value : String)
    (excluding : Option String) : LookupM Unit := do
  if !(← scanner.isUnique relationField relatedId value excluding) then
    throw (.duplicateValue (← get).name scanner.field.name value)

/-- Looks for the first row whose value equals the one before it, and tells what was seen last. -/
def scanRows (n : Neighbours) : List Row → Option Row × Neighbours
  | [] => (none, n)
  | row :: rows =>
    match row.values.getLast?.getD .missing with
    | .missing => scanRows n rows
    | value =>
      match n.observe value with
      | (true, n) => (some row, n)
      | (false, n) => scanRows n rows

/-- The rows of a page of siblings. -/
def page (scanner : Scanner) (content : Generation) (siblings : Query) (start : PageStart) :
    Except IndexError (List Row) :=
  let field := scanner.field
  let query := match start.query? field.name field.kind with
    | some bound => .combined [(.must, siblings), (.must, bound)]
    | none => siblings
  content.search query [ColumnKey.encoded field.name field.kind] (some pageSize)

/-- What a page of siblings leads to: the first row with the value of the row before it, or nothing if
there are no more pages, or else what has been seen up to the end of the page. -/
def turn (scanner : Scanner) (content : Generation) (siblings : Query) (start : PageStart)
    (n : Neighbours) : Except IndexError (Option Row ⊕ Neighbours) := do
  let rows ← scanner.page content siblings start
  match scanRows n (if start.repeatsLast then rows.drop 1 else rows) with
  | (some row, _) => return .inl (some row)
  | (none, n) => return if rows.length = pageSize then .inr n else .inl none

/-- Scans page after page, and gives the first row with the value of the row before it. A scan that
never comes to an end has no outcome. -/
def scan (scanner : Scanner) (content : Generation) (siblings : Query) (start : PageStart)
    (n : Neighbours) : Option (Except IndexError (Option Row)) :=
  match scanner.turn content siblings start n with
  | .error e => some (.error e)
  | .ok (.inl found) => some (.ok found)
  | .ok (.inr n) => by
    -- `scan scanner content siblings (.after n.last) n`, without its place in the text, which the
    -- equations of a partial fixpoint would keep
    apply scan
    · exact scanner
    · exact content
    · exact siblings
    · exact .after n.last
    · exact n
partial_fixpoint

/-- A value that two siblings share, the first one in the order of the index. -/
def firstDuplicate (α : Type) [Indexed α] (scanner : Scanner) (relationField relatedId : String) :
    LookupM (Option FieldValue) := do
  let i ← get
  let compiled ← i.compile (siblings relationField relatedId)
  let content ← Index.searcher
  Index.recordSearch
  -- without an outcome of the scan there is no answer: nothing gets here any more
  match ← (scanner.scan content compiled.executable .first {}).getD (.error .cancelled) with
  | none => return none
  | some row => return some (scanner.field.read (← row.document.decode α i.schema))

/-- Whether no two siblings share a value. -/
def areAllUnique (α : Type) [Indexed α] (scanner : Scanner) (relationField relatedId : String) :
    LookupM Bool :=
  return (← scanner.firstDuplicate α relationField relatedId).isNone

end Scanner

end Codebook
