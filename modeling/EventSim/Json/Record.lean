import EventSim.Json.Value
import EventSim.Identity
import EventSim.RunConfig

set_option autoImplicit false

/-!
# Records in JSON

How identities, times, horizons and configurations are read from JSON and written to it. An identity is
its bare number and a time its bare seconds. A configuration has a default for every member; a horizon
and a message identity need all of theirs.

## Main definitions

* `EventSim.RunConfig.ofJson?`, `EventSim.RunConfig.json` — a configuration, read and written.
* `EventSim.RunConfig.description`, `EventSim.Horizon.description` — values with named parts.
-/

namespace EventSim

/-! ## Identities -/

/-- An identity is its number. -/
def Id.ofJson? {k : IdKind} (v : JsonValue) : Option (Id k) :=
  (v.natBelow? k.capacity).bind Id.ofNat?

/-- An identity is its number. -/
def Id.json {k : IdKind} (a : Id k) : String := toString a.index

/-- A message identity needs its origin and its running number. -/
def MessageId.ofJson? (v : JsonValue) : Option MessageId :=
  match v.record? ["origin", "seq"] with
  | some [some o, some s] => do return ⟨← Id.ofJson? o, ← s.natBelow? UInt64.size⟩
  | _ => none

/-- A message identity as an object. -/
def MessageId.json (a : MessageId) : String :=
  "\x7b\"origin\":" ++ a.origin.json ++ ",\"seq\":" ++ toString a.seq ++ "\x7d"

/-! ## Times -/

/-- A time is its seconds. -/
def SimTime.ofJson? (v : JsonValue) : Option SimTime := v.real?.map SimTime.mk

/-- A time is its seconds. -/
def SimTime.json (t : SimTime) : String := Layout.json.write t.secs

/-- A horizon needs both its parts. -/
def Horizon.ofJson? (v : JsonValue) : Option Horizon :=
  match v.record? ["current", "delta"] with
  | some [some c, some d] => do return ⟨← SimTime.ofJson? c, ← SimTime.ofJson? d⟩
  | _ => none

/-- A horizon as an object. -/
def Horizon.json (h : Horizon) : String :=
  "\x7b\"current\":" ++ h.current.json ++ ",\"delta\":" ++ h.delta.json ++ "\x7d"

/-- A horizon with its parts named. -/
def Horizon.description (h : Horizon) : String :=
  "Horizon \x7b current: " ++ h.current.description ++ ", delta: " ++ h.delta.description ++ " \x7d"

/-! ## Configurations -/

/-- A configuration; what is missing has its default. -/
def RunConfig.ofJson? (v : JsonValue) : Option RunConfig :=
  let d : RunConfig := {}
  match v.record? ["num_workers", "start_time", "end_time", "skip_idle_rounds"] with
  | some [workers, start, finish, skip] => do
    return { workers := ← JsonValue.orDefault? (·.natBelow? UInt64.size) d.workers workers
             startTime := ← JsonValue.orDefault? SimTime.ofJson? d.startTime start
             endTime := ← JsonValue.orDefault? (·.nullable? SimTime.ofJson?) d.endTime finish
             skipIdleRounds := ← JsonValue.orDefault? (·.bool?) d.skipIdleRounds skip }
  | _ => none

/-- A configuration as an object. -/
def RunConfig.json (c : RunConfig) : String :=
  "\x7b\"num_workers\":" ++ toString c.workers
    ++ ",\"start_time\":" ++ c.startTime.json
    ++ ",\"end_time\":" ++ (match c.endTime with | some t => t.json | none => "null")
    ++ ",\"skip_idle_rounds\":" ++ toString c.skipIdleRounds ++ "\x7d"

/-- A configuration with its parts named. -/
def RunConfig.description (c : RunConfig) : String :=
  "SimConfig \x7b num_workers: " ++ toString c.workers
    ++ ", start_time: " ++ c.startTime.description
    ++ ", end_time: "
    ++ (match c.endTime with | some t => "Some(" ++ t.description ++ ")" | none => "None")
    ++ ", skip_idle_rounds: " ++ toString c.skipIdleRounds ++ " \x7d"

end EventSim
