import EventSim.Report.RoundLog

set_option autoImplicit false

/-!
# The tables of a report

The two tables lie as files in one folder, which is created with the folders above it. Both files are
created before the run, so that a folder that cannot be used is noticed early. The rows are collected, and
`save` puts them into the files.

## Main definitions

* `EventSim.ReportTables` — the texts of the two tables.
* `EventSim.ReportTables.create` — the tables of a folder, with their files.
* `EventSim.ReportTables.save` — filling the files.
-/

namespace EventSim

/-- The texts of the two tables. -/
structure ReportTables where
  /-- The table of rounds. -/
  rounds : String := RoundRow.header
  /-- The table of arrivals. -/
  arrivals : String := Arrival.header
  deriving DecidableEq, Repr

namespace ReportTables

/-- Adds a round. -/
def addRound (t : ReportTables) (r : RoundRow) : ReportTables := { t with rounds := t.rounds ++ r.line }

/-- Adds arrivals in order. -/
def addArrivals (t : ReportTables) (rows : List Arrival) : ReportTables :=
  { t with arrivals := rows.foldl (fun text a => text ++ a.line) t.arrivals }

instance : RoundWriter ReportTables where
  writeRound r t := (.ok (), t.addRound r)
  finish t := (.ok (), t)

/-! ## Files -/

/-- The path of a file in a folder. -/
def pathIn (folder name : String) : String :=
  if folder.isEmpty || folder.endsWith "/" then folder ++ name else folder ++ "/" ++ name

/-- The file of the table of rounds. -/
def roundsPath (folder : String) : String := pathIn folder "round_summaries.csv"

/-- The file of the table of arrivals. -/
def arrivalsPath (folder : String) : String := pathIn folder "arrivals.csv"

variable {m : Type → Type} [Monad m] [FileSystem m]

/-- Empty tables, once the folder and the two files in it have been created. -/
def create (folder : String) : ExceptT ReportError m ReportTables := do
  ExceptT.adapt .system (ExceptT.mk (FileSystem.createFolders folder))
  ExceptT.adapt .table (ExceptT.mk (FileSystem.create (roundsPath folder)))
  ExceptT.adapt .table (ExceptT.mk (FileSystem.create (arrivalsPath folder)))
  return {}

/-- Puts the tables into their files. -/
def save (t : ReportTables) (folder : String) : ExceptT ReportError m Unit := do
  ExceptT.adapt .system (ExceptT.mk (FileSystem.write (roundsPath folder) t.rounds))
  ExceptT.adapt .system (ExceptT.mk (FileSystem.write (arrivalsPath folder) t.arrivals))

end ReportTables

end EventSim
