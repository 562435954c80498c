import EventSim.Engine.Run
import EventSim.Files
import EventSim.Report.Row

set_option autoImplicit false

/-!
# The log of rounds

The log follows a run and hands a row for every round to a writer. A run must not fail because of its
report. So the log keeps the first failure of the writer, and from then on drops all rows until the failure
is taken out. At the end of a run the writer is finished in any case.

## Main definitions

* `EventSim.RoundWriter` — writers of rows, which may fail at any call.
* `EventSim.RoundLog` — a writer with the failure that is kept.
* `EventSim.RoundLog.observe` — the log as the observer of a run.
-/

namespace EventSim

/-- Why a report cannot be written. -/
inductive ReportError where
  /-- The system refuses. -/
  | system (e : FileError)
  /-- The file of a table is refused. -/
  | table (e : FileError)
  deriving DecidableEq, Repr

/-- What the user is told. -/
def ReportError.message : ReportError → String
  | .system e => "I/O error: " ++ e.message
  | .table e => "CSV write error: " ++ e.message

/-- Writers of rows, as machines with states in `W`. -/
class RoundWriter (W : Type) where
  /-- Writes a row. -/
  writeRound : RoundRow → W → Except ReportError Unit × W
  /-- Makes sure that everything is written. This may be done more than once. -/
  finish : W → Except ReportError Unit × W

/-- A writer that follows a run. -/
structure RoundLog (W : Type) where
  /-- The writer. -/
  writer : W
  /-- The first failure of the writer that has not been taken out. -/
  fault : Option ReportError := none

namespace RoundLog

variable {W P : Type}

/-- The log after a call of the writer. -/
def keep (l : RoundLog W) : Except ReportError Unit × W → RoundLog W
  | (.ok _, writer) => { l with writer }
  | (.error e, writer) => ⟨writer, l.fault.or (some e)⟩

/-- Takes the failure out. -/
def takeFault (l : RoundLog W) : Option ReportError × RoundLog W := (l.fault, { l with fault := none })

variable [RoundWriter W]

/-- Writes the row of a round, unless a failure is kept. -/
def endRound (l : RoundLog W) (s : RoundSummary) : RoundLog W :=
  if l.fault.isSome then l else l.keep (RoundWriter.writeRound (RoundRow.ofSummary s) l.writer)

/-- Finishes the writer. -/
def endRun (l : RoundLog W) : RoundLog W := l.keep (RoundWriter.finish l.writer)

/-- The log as an observer. -/
def observe (l : RoundLog W) : Observation P → RoundLog W
  | .roundEnd record => l.endRound record.summary
  | .runEnd _ => l.endRun
  | _ => l

end RoundLog

end EventSim
