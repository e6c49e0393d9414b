/-
# Queries

What the engine can look for. A combined query has clauses that must match, clauses of which at
least one should match, and clauses that must not match. The engine's rule for them is this: every
clause of the first kind matches and none of the third; and if there is no clause of the first
kind, some clause of the second kind matches. So a query of excluding clauses alone matches
nothing.

Key definitions: `Occurrence`, `Query`, `Bound`, `Query.selects`, `Query.columns`.
-/
import Codebook.Document.Basic

namespace Codebook

/-- How a clause takes part in a combined query. -/
inductive Occurrence where
  /-- The clause has to match. -/
  | must
  /-- One of these clauses has to match, if none has to in any case. -/
  | should
  /-- The clause must not match. -/
  | mustNot
deriving DecidableEq, Repr

/-- An end of a range. -/
inductive Bound where
  /-- There is no end. -/
  | unbounded
  /-- The end belongs to the range. -/
  | included (value : Int)
  /-- The end does not belong to the range. -/
  | excluded (value : Int)
deriving DecidableEq, Repr

/-- Something to look for. -/
inductive Query where
  /-- Every document. -/
  | all
  /-- Documents with this value in a column. -/
  | term (column : String) (value : Cell)
  /-- Documents with a token in a column, not below the first one if that is given. -/
  | texts (column : String) (first : Option String)
  /-- Documents with a date between two bounds in a column. -/
  | dates (column : String) (lower upper : Bound)
  /-- Documents whose free text has a token with this beginning. -/
  | beginning (text : String)
  /-- Documents that several clauses select together. -/
  | combined (clauses : List (Occurrence × Query))
deriving Repr

namespace Bound

/-- Whether a value lies above the lower end of a range. -/
def isBelow (b : Bound) (n : Int) : Bool :=
  match b with
  | unbounded => true
  | included m => m ≤ n
  | excluded m => m < n

/-- Whether a value lies below the upper end of a range. -/
def isAbove (b : Bound) (n : Int) : Bool :=
  match b with
  | unbounded => true
  | included m => n ≤ m
  | excluded m => n < m

end Bound

namespace Query

/-- Whether a value of a column lies in a range of dates. -/
def inDates (lower upper : Bound) : Cell → Bool
  | .date n => lower.isBelow n && upper.isAbove n
  | .text _ => false

/-- Whether a token is not below the first one, if that is given. Tokens are ordered by the code
points of their characters. -/
def isFrom (first : Option String) (token : String) : Bool :=
  match first with
  | some s => !decide (token < s)
  | none => true

/-- The outcomes of the clauses of one kind. -/
def outcomes (o : Occurrence) (results : List (Occurrence × Bool)) : List Bool :=
  results.filterMap fun (occurrence, result) => if occurrence = o then some result else none

/-- The engine's rule for combined queries. -/
def combine (results : List (Occurrence × Bool)) : Bool :=
  (outcomes .must results).all id && !(outcomes .mustNot results).any id &&
    (!(outcomes .must results).isEmpty || (outcomes .should results).any id)

mutual

/-- Whether a query matches a document. -/
def selects (d : Document) : Query → Bool
  | all => true
  | term column value => (d.cells column).contains value
  | texts column first => (d.texts column).any (isFrom first)
  | dates column lower upper => (d.cells column).any (inDates lower upper)
  | beginning text => d.tokens.any fun token => text.toList.isPrefixOf token.toList
  | combined clauses => combine (clauseResults d clauses)

/-- The outcomes of clauses. -/
def clauseResults (d : Document) : List (Occurrence × Query) → List (Occurrence × Bool)
  | [] => []
  | (o, q) :: rest => (o, selects d q) :: clauseResults d rest

end

mutual

/-- The columns in which a query looks values up. -/
def columns : Query → List String
  | term column _ => [column]
  | texts column _ => [column]
  | dates column _ _ => [column]
  | combined clauses => clauseColumns clauses
  | _ => []

/-- The columns in which clauses look values up. -/
def clauseColumns : List (Occurrence × Query) → List String
  | [] => []
  | (_, q) :: rest => columns q ++ clauseColumns rest

end

end Query

end Codebook
