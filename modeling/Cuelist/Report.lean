/-
  Reports.

  Commands and queues tell a `Reporter` what they did, one `Notice` at a time.
  A reporter turns a notice into the events that are logged; it has no say in
  what happens next.
-/
import Cuelist.Entry
import Cuelist.Text.Blank

namespace Cuelist

/-- What a reporter is told. -/
inductive Notice where
  /-- What a command did for an entry. -/
  | summary (entry : Entry) (command text : String)
  | error (message : String)
  | warning (message : String)

/-- How serious a line of a trace is. -/
inductive Level where
  | info
  | warn
  | error
deriving Repr, DecidableEq

/-- What can be seen from outside. -/
inductive Event where
  | summary (command text : String)
  | error (message : String)
  | warning (message : String)
  /-- A line of a trace; `queue` is there for lines about an entry. -/
  | trace (level : Level) (message : String) (queue : Option String)
  /-- A message that reached an actor. -/
  | sent (actor message : String)
  /-- A player that left its queue, and how many entries it ran. -/
  | left (queue : String) (count : Nat)
deriving Repr, DecidableEq

/-- One part of a summary. -/
def reportPart (name value : String) : String :=
  s!"{name}='{value}'  "

/-- A way to make events of a notice. -/
structure Reporter where
  events : Notice → List Event

namespace Reporter

/-- Shows every notice. -/
def plain : Reporter where
  events
    | .summary _ command text => [.summary command text]
    | .error message => [.error message]
    | .warning message => [.warning message]

/-- Shows every notice, and warnings as errors. -/
def strict : Reporter where
  events
    | .summary _ command text => [.summary command text]
    | .error message | .warning message => [.error message]

/-- Whether the entry of a summary is shown: reports are on for it, and one of
    the filters names its script if there are any. -/
def admits (enabled : Bool) (filters : List String) (e : Entry) : Bool :=
  enabled && e.shouldDebug && (filters.isEmpty || filters.any e.passesFilter)

/-- A summary without the blanks at its end. -/
def trimmed (text : String) : String :=
  String.ofList (Text.trimEnd text.toList)

/-- Writes lines of a trace: errors and warnings always, summaries of entries
    that are admitted. -/
def trace (enabled : Bool) (filters : List String) : Reporter where
  events
    | .summary e command text =>
      if admits enabled filters e then
        [.trace .info s!"+> Executing '{command}': {trimmed text}"
          (some ((e.queue.map QueueId.text).getD "-"))]
      else []
    | .error message => [.trace .error message none]
    | .warning message => [.trace .warn message none]

end Reporter

end Cuelist
