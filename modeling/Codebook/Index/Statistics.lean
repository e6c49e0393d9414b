/-
# Statistics

What was done with an index since it was made.

Key definitions: `Statistics`, `Statistics.toData`.
-/
import Codebook.Data.Basic

namespace Codebook

/-- The counters of an index. -/
structure Statistics where
  /-- Committed transactions. -/
  commits : Nat := 0
  /-- Transactions that were rolled back or dropped. -/
  rollbacks : Nat := 0
  /-- Documents added or replaced. -/
  documentsWritten : Nat := 0
  /-- Documents deleted. -/
  documentsDeleted : Nat := 0
  /-- Searches. -/
  searches : Nat := 0
  /-- Finished rebuilds. -/
  rebuilds : Nat := 0
  /-- Failed commits and rebuilds. -/
  errors : Nat := 0
deriving DecidableEq, Repr

namespace Statistics

/-- Counts a commit. -/
def recordCommit (s : Statistics) (written deleted : Nat) : Statistics :=
  { s with
    commits := s.commits + 1
    documentsWritten := s.documentsWritten + written
    documentsDeleted := s.documentsDeleted + deleted }

/-- Counts a transaction that was not committed. -/
def recordRollback (s : Statistics) : Statistics :=
  { s with rollbacks := s.rollbacks + 1 }

/-- Counts a search. -/
def recordSearch (s : Statistics) : Statistics :=
  { s with searches := s.searches + 1 }

/-- Counts a finished rebuild. -/
def recordRebuild (s : Statistics) (documents : Nat) : Statistics :=
  { s with rebuilds := s.rebuilds + 1, documentsWritten := s.documentsWritten + documents }

/-- Counts a failure. -/
def recordError (s : Statistics) : Statistics :=
  { s with errors := s.errors + 1 }

/-- The counters as data. -/
def toData (s : Statistics) : Data :=
  .record [("commits", .int s.commits), ("rollbacks", .int s.rollbacks),
    ("documentsWritten", .int s.documentsWritten),
    ("documentsDeleted", .int s.documentsDeleted), ("searches", .int s.searches),
    ("rebuilds", .int s.rebuilds), ("errors", .int s.errors)]

end Statistics

end Codebook
