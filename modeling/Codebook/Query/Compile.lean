/-
# Criteria as queries

Filters are folded from left to right, each against all that came before it: an "and" makes both
parts required, an "or" makes them alternatives, a "not" excludes the new part. The first filter
stands alone, negated if its condition is "not". Free text comes last and joins by its own
condition; every word of it has to be the beginning of a token. Filters and texts without content
leave no trace. Which entities are visible is no part of this: it becomes a query of its own.

The faults of criteria come in a fixed order: the count, the filters from left to right into
their clauses, the order, and last the visibility.

Key definitions: `SortKey`, `Compiled`, `Query.fold`, `Test.queries`, `Query.ofSearch`,
`Criteria.sortKeys`, `Criteria.compile`, `Compiled.executable`.
-/
import Codebook.Criteria.Basic
import Codebook.Instant.Day
import Codebook.Query.Basic
import Codebook.Schema.Basic

namespace Codebook

/-- One key of an order. -/
structure SortKey where
  /-- The column that is compared. -/
  name : String
  /-- The kind of its values. -/
  kind : ValueKind
  /-- Whether the greatest value comes first. -/
  descending : Bool
deriving DecidableEq, Repr

/-- What becomes of criteria. -/
structure Compiled where
  /-- What the filters and the free text ask for. -/
  query : Query
  /-- The order, the most significant key first. -/
  sort : List SortKey
  /-- What is visible, unless everything is. -/
  activity : Option Query
deriving Repr

namespace Query

/-- Everything that a query does not select. -/
def negate (q : Query) : Query :=
  combined [(.must, all), (.mustNot, q)]

/-- Joins a query to those before it. -/
def fold : Option Query → Condition → Query → Query
  | none, .not, q => negate q
  | none, _, q => q
  | some before, .or, q => combined [(.should, before), (.should, q)]
  | some before, .and, q => combined [(.must, before), (.must, q)]
  | some before, .not, q => combined [(.must, before), (.mustNot, q)]

/-- Combines the queries for the values of a set. An empty set leaves no trace. -/
def ofSet (inner : Condition) (queries : List Query) : Option Query :=
  if queries.isEmpty then none
  else some <| combined <|
    match inner with
    | .and => queries.map fun q => (.must, q)
    | .or => queries.map fun q => (.should, q)
    | .not => (.must, all) :: queries.map fun q => (.mustNot, q)

/-- Documents without a value in a column. -/
def noValue (column : String) (kind : ValueKind) : Query :=
  if kind = .date then term column (.date nullDate) else negate (texts column none)

/-- Documents with a text in a column. A blank text asks for no value, and a number may be spelled
in any way. -/
def ofText (column : String) (kind : ValueKind) (value : String) : Query :=
  if Text.isBlank value then noValue column kind
  else
    match kind, Number.Double.read (Text.trim value) with
    | .number, some x => term column (.text x.canonical)
    | _, _ => term column (.text value)

/-- Documents whose date falls on a day between two days, both included. A missing date never
does. -/
def ofDays (zone : Instant.Zone) (column : String) (first last : Option Instant) : Query :=
  dates column
    (match first with
      | some i => .included (Instant.startOfDay zone i)
      | none => .excluded nullDate)
    (match last with
      | some i => .included (Instant.endOfDay zone i)
      | none => .unbounded)

end Query

/-- Why a test cannot be made on a field: it is a test for other kinds of values. -/
def Schema.mismatch (s : Schema) (field test : String) (kind : ValueKind) : IndexError :=
  .criteria (.invalidCriteria
    s!"{test} does not apply to {kind.label} field '{field}' of {s.entityType}")

/-- The query of a test that is no clause, on a column of a kind. -/
def Schema.testQuery (s : Schema) (zone : Instant.Zone) (field : String) (kind : ValueKind)
    (test : Test) : Except IndexError (Option Query) :=
  let exact (q : Option Query) : Except IndexError (Option Query) :=
    if kind = .date then .error (s.mismatch field "an exact-match filter" kind) else .ok q
  match test with
  | .empty => .ok (some (Query.noValue field kind))
  | .notEmpty => .ok (some (Query.noValue field kind).negate)
  | .boolean b => exact (some (.term field (.text (Diagnostic.bool b))))
  | .enumSet values inner =>
    exact (Query.ofSet inner (values.map fun value => .term field (.text value)))
  | .stringEq value => exact (some (Query.ofText field kind value))
  | .stringSet values inner => exact (Query.ofSet inner (values.map (Query.ofText field kind)))
  | .dateRange first last =>
    if kind = .date then .ok (some (Query.ofDays zone field first last))
    else .error (s.mismatch field "DateRange" kind)
  | .clause _ => .ok none

/-- The query of a test on a field, which has to be open to filters. -/
def Schema.fieldQuery (s : Schema) (zone : Instant.Zone) (field : String) (test : Test) :
    Except IndexError (Option Query) := do
  let f ← s.filterable field
  let column ← s.column f.name
  s.testQuery zone field column.kind test

mutual

/-- The query of a test, if it leaves a trace. The name of a clause is not a field. -/
def Test.query (s : Schema) (zone : Instant.Zone) (field : String) :
    Test → Except IndexError (Option Query)
  | .clause filters => Test.queries s zone none filters
  | test => s.fieldQuery zone field test

/-- The queries of filters, folded into one that begins with `before`. -/
def Test.queries (s : Schema) (zone : Instant.Zone) :
    Option Query → List (String × Joined Test) → Except IndexError (Option Query)
  | before, [] => .ok before
  | before, (field, ⟨condition, test⟩) :: rest => do
    match ← Test.query s zone field test with
    | some q => Test.queries s zone (some (Query.fold before condition q)) rest
    | none => Test.queries s zone before rest

end

/-- The query of free text, if it has any tokens. -/
def Query.ofSearch (text : String) : Option Query :=
  let found := (Text.words text).flatMap tokens
  if found.isEmpty then none
  else some (.combined (found.map fun token => (.must, .beginning token)))

namespace Criteria

/-- The query of the filters and the free text. -/
def query (c : Criteria) (s : Schema) (zone : Instant.Zone) : Except IndexError Query := do
  let filters ← Test.queries s zone none c.filters
  let folded :=
    match c.search.bind Query.ofSearch with
    | some q => some (Query.fold filters c.searchCondition q)
    | none => filters
  return folded.getD .all

/-- Adds a key to an order, unless its column is compared already. -/
def addSortKey (s : Schema) (keys : List SortKey) (name : String) (descending : Bool) :
    Except IndexError (List SortKey) := do
  let f ← s.sortable name
  let column ← s.column f.name
  if keys.any fun key => key.name == column.name then return keys
  return keys ++ [⟨column.name, column.kind, descending⟩]

/-- The order: by the requested key, or by the name of named entities, and then by the primary
key. -/
def sortKeys (c : Criteria) (s : Schema) : Except IndexError (List SortKey) := do
  let keys ← match c.sortKey, s.nameField with
    | some key, _ => addSortKey s [] key (c.sortOrder == .descending)
    | none, some name => addSortKey s [] name false
    | none, none => pure []
  addSortKey s keys s.primaryKey.name false

/-- What is visible, unless everything is or the entities have no last change. -/
def activityQuery (c : Criteria) (s : Schema) : Except IndexError (Option Query) :=
  if c.activity.admitsAll || !s.isVersioned then .ok none
  else do
    let column ← s.column changeTypeField
    let admitted := c.activity.admitted.map fun t => Query.term column.name (.text t.name)
    return some ((Query.ofSet .or admitted).getD (Query.negate .all))

/-- Compiles criteria. -/
def compile (c : Criteria) (s : Schema) (zone : Instant.Zone) : Except IndexError Compiled := do
  c.validate.mapError IndexError.criteria
  let query ← c.query s zone
  let sort ← c.sortKeys s
  let activity ← c.activityQuery s
  return { query, sort, activity }

/-- The compiler for the criteria of a schema in diagnostics. -/
def compilerLabel (s : Schema) : String :=
  Diagnostic.members "CriteriaCompiler" [("entity_type", Text.quote s.entityType)]

end Criteria

/-- The query that is run: what is asked for, as far as it is visible. -/
def Compiled.executable (c : Compiled) : Query :=
  match c.activity with
  | none => c.query
  | some activity => .combined [(.must, c.query), (.must, activity)]

end Codebook
