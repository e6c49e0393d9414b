import Codebook.Main
import Codebook.Path.Any
import Codebook.Proofs.Schema
import Codebook.Report.Entity
import Codebook.Report.Query
import Codebook.Report.Rebuild
import Codebook.Report.Schema
import Codebook.Samples.Script
import Codebook.Samples.Sets
import Codebook.Schema.Registry
import Codebook.Service.Lookup
import Codebook.Service.Setup
import Codebook.Proofs.Document
import Codebook.Proofs.Meaning
import Codebook.Proofs.Disk
import Codebook.Proofs.Effect
import Codebook.Proofs.Store
import Codebook.Proofs.Edits
import Codebook.Proofs.Directory
import Codebook.Proofs.Serving
import Codebook.Proofs.Building
import Codebook.Proofs.Opening
import Codebook.Proofs.Race
import Codebook.Proofs.Rebuild
import Codebook.Proofs.Window
import Codebook.Proofs.Answers
import Codebook.Proofs.Upkeep
import Codebook.Proofs.Contention
import Codebook.Proofs.Paging
import Codebook.Proofs.Siblings
import Codebook.Proofs.Standing
import Codebook.Proofs.Alike
import Codebook.Proofs.Tandem
import Codebook.Proofs.Requests
import Codebook.Proofs.Kept
import Codebook.Proofs.Undone
import Codebook.Proofs.Ending
import Codebook.Proofs.Invisible
import Codebook.Proofs.Handles
import Codebook.Proofs.Overlap
import Codebook.Proofs.Snapshots
import Codebook.Proofs.Visibility
import Codebook.Proofs.Redeclared
import Codebook.Proofs.Turns
import Codebook.Proofs.Recovery
import Codebook.Proofs.Swapping
import Codebook.Proofs.Calls
import Codebook.Proofs.Crash
import Codebook.Proofs.Life
import Codebook.Proofs.Losses
import Codebook.Proofs.Defaults
import Codebook.Proofs.Notation
import Codebook.Proofs.Phrasing
import Codebook.Proofs.Lines
import Codebook.Proofs.Persisting
import Codebook.Proofs.Recount
import Codebook.Proofs.Sessions
import Codebook.Proofs.Settling
import Codebook.Proofs.Progress
import Codebook.Proofs.Rounding
import Codebook.Proofs.Decimals
import Codebook.Proofs.Spelling
import Codebook.Proofs.Numbers
import Codebook.Proofs.Words
import Codebook.Proofs.FreeText
import Codebook.Proofs.Days
import Codebook.Proofs.Uniqueness
import Codebook.Proofs.Batches
import Codebook.Proofs.Paths
import Codebook.Proofs.Namesakes
import Codebook.Proofs.Faults
import Codebook.Proofs.Layout
import Codebook.Proofs.Orphans
import Codebook.Proofs.Delivery
import Codebook.Proofs.Selection
import Codebook.Proofs.Insertion
