import EventSim.Report.RoundLog

set_option autoImplicit false

/-!
# A writer that refuses

A writer for experiments with the log of rounds. It keeps the rows that it is given, counts its calls, and
refuses rows from a certain round on, or to be finished.

## Main definitions

* `EventSim.RefusingWriter` — the writer.
-/

namespace EventSim

/-- A writer that may refuse. -/
structure RefusingWriter where
  /-- The first round whose row is refused, if there is one. -/
  failFrom : Option Nat := none
  /-- It refuses to be finished. -/
  failFinish : Bool := false
  /-- How many rows it was given. -/
  calls : Nat := 0
  /-- How often it was finished. -/
  finished : Nat := 0
  /-- The rows that it has kept. -/
  rows : Array RoundRow := #[]
  deriving Repr

namespace RefusingWriter

/-- The refusal of what is named. -/
def refusal (what : String) : ReportError := .system (.other (what ++ " refused"))

instance : RoundWriter RefusingWriter where
  writeRound r w :=
    let w := { w with calls := w.calls + 1 }
    if w.failFrom.any (· ≤ r.round) then (.error (refusal ("round " ++ toString r.round)), w)
    else (.ok (), { w with rows := w.rows.push r })
  finish w :=
    (if w.failFinish then .error (refusal "finish") else .ok (), { w with finished := w.finished + 1 })

end RefusingWriter

end EventSim
