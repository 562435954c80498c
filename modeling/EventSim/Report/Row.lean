import EventSim.Engine.Round
import EventSim.Traffic.Road

set_option autoImplicit false

/-!
# Rows of a report

A run is reported in two tables of comma-separated text, one with a row for every round and one with a row
for every arrival. A table begins with the names of its columns, every line ends with a line feed, and
numbers of seconds are written with as few digits as determine them and without an exponent.

## Main definitions

* `EventSim.RoundRow` — a round in the report.
* `EventSim.RoundRow.line`, `EventSim.Arrival.line` — the lines of the two tables.
-/

namespace EventSim

/-- A line of a table. -/
def tableLine (fields : List String) : String := ",".intercalate fields ++ "\n"

/-! ## Rounds -/

/-- A round in the report. -/
structure RoundRow where
  /-- The number of the round, from one. -/
  round : Nat
  /-- Its horizon in seconds. -/
  horizon : Binary64
  /-- Messages that were handled. -/
  delivered : Nat
  /-- Messages that are still to come, as a word of 64 bits. -/
  pending : UInt64
  deriving DecidableEq, Repr

namespace RoundRow

/-- The row of a round. -/
def ofSummary (s : RoundSummary) : RoundRow :=
  ⟨s.round, s.horizon.secs, s.delivered, s.pendingWord⟩

/-- The names of the columns. -/
def header : String := tableLine ["round", "horizon", "delivered", "pending"]

/-- The row as a line. -/
def line (r : RoundRow) : String :=
  tableLine [toString r.round, Layout.plain.write r.horizon, toString r.delivered, toString r.pending]

end RoundRow

/-! ## Arrivals -/

namespace Arrival

/-- The names of the columns. -/
def header : String := tableLine ["vehicle", "link", "time"]

/-- The arrival as a line. -/
def line (a : Arrival) : String :=
  tableLine [toString a.vehicle.index, toString a.link.index, Layout.plain.write a.time.secs]

end Arrival

end EventSim
