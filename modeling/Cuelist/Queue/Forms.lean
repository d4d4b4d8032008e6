/-
  JSON forms of what queues keep.

  Names and states are strings; a failed run is an object with its message.  A
  `RecordLine` is a record of a run with a lasting identity and a time.
-/
import Cuelist.Json.Decode
import Cuelist.Queue
import Cuelist.Timestamp

namespace Cuelist

/-! ## States -/

/-- The name of a state. -/
def QueueState.name : QueueState → String
  | .idle => "Idle"
  | .running => "Running"
  | .awaitingCompletion => "AwaitingCompletion"
  | .drained => "Drained"

/-- A state as JSON. -/
def QueueState.toJson (s : QueueState) : Json :=
  .ofString s.name

/-- A state from JSON. -/
def QueueState.ofJson? (v : Json) : Option QueueState := do
  let (name, body) ← v.variant?
  let s ← [QueueState.idle, .running, .awaitingCompletion, .drained].find? (·.name == name)
  if Json.holdsNothing body then some s else none

/-! ## Ends of runs -/

/-- The end of a run as JSON. -/
def Status.toJson : Status → Json
  | .completed => .ofString "Completed"
  | .waiting => .ofString "Waiting"
  | .failed message => .ofMembers [("Failed", .ofString message)]

/-- The end of a run from JSON. -/
def Status.ofJson? (v : Json) : Option Status := do
  let (name, body) ← v.variant?
  if name = "Completed" then if Json.holdsNothing body then some .completed else none
  else if name = "Waiting" then if Json.holdsNothing body then some .waiting else none
  else if name = "Failed" then ((← body).string?).map .failed
  else none

/-! ## Names -/

/-- A queue name as JSON. -/
def QueueId.toJson (id : QueueId) : Json := .ofString id.text

/-- A queue name from JSON; it is taken as it is spelled. -/
def QueueId.ofJson? (v : Json) : Option QueueId :=
  v.string?.map QueueId.mk

/-- An identifier as JSON. -/
def Uuid.toJson (u : Uuid) : Json := .ofString u.render

/-- An identifier from JSON. -/
def Uuid.ofJson? (v : Json) : Option Uuid :=
  v.string?.bind Uuid.read?

/-! ## Lines of history -/

/-- A record of a run as JSON: the command and how it ended. -/
def Record.toJson (r : Record) : Json :=
  .array [.ofString r.command, r.status.toJson]

/-- A record of a run outside of its queue. -/
structure RecordLine where
  entry : Uuid
  command : String
  status : Status
  time : Timestamp
deriving Repr, DecidableEq

/-- A line as JSON. -/
def RecordLine.toJson (r : RecordLine) : Json :=
  .ofMembers [("entry", r.entry.toJson), ("command", .ofString r.command),
    ("status", r.status.toJson), ("timestamp", .ofString r.time.render)]

/-- A line from JSON. -/
def RecordLine.ofJson? (v : Json) : Option RecordLine := do
  match ← Json.fields? ["entry", "command", "status", "timestamp"] v with
  | [entry, command, status, time] =>
    some ⟨← Json.required? Uuid.ofJson? entry, ← Json.required? Json.string? command,
      ← Json.required? Status.ofJson? status,
      ← Json.required? (fun t => t.string?.bind Timestamp.read?) time⟩
  | _ => none

end Cuelist
