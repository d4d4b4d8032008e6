/-
  Running a list of entries at a console.

  The console is the only actor.  A `ConsoleLine` is an entry of the list;
  `perform` admits the entries to one queue, lets a player run them, and tells
  what was said when and how it ended.  An entry that waits for a signal from
  outside holds the queue for good: then there is no end.
-/
import Cuelist.Board
import Cuelist.Command.Narrate
import Cuelist.Command.Wait
import Cuelist.Json.Reader
import Cuelist.Player

namespace Cuelist

/-- An entry of a list. -/
structure ConsoleLine where
  command : String
  arguments : List String
  /-- Whether the console is the acting subject. -/
  console : Bool
deriving Repr, DecidableEq

/-- An entry of a list from JSON. -/
def ConsoleLine.ofJson? (v : Json) : Option ConsoleLine := do
  match ← Json.fields? ["command", "args", "console"] v with
  | [command, arguments, console] =>
    some ⟨← Json.required? Json.string? command, ← Json.optional? Json.strings? [] arguments,
      ← Json.optional? Json.bool? true console⟩
  | _ => none

/-- A list of entries from JSON. -/
def ConsoleLine.listOfJson? : Json → Option (List ConsoleLine)
  | .array vs => vs.mapM ofJson?
  | _ => none

namespace Console

/-- The actor behind the console. -/
def actor : Actor := ⟨⟨0⟩, "console", none⟩

/-- The actors of a console. -/
def cast : Cast := ⟨[some actor]⟩

/-- A handle to the console. -/
def ref : ActorRef := ⟨actor.id, actor.name, 0⟩

/-- Finds the console by its name, with or without the mark `a@`; the case does
    not count. -/
def directory : Narrate.Directory := fun cast name =>
  let bare := (Text.after? ['a', '@'] name.toList).getD name.toList
  cast.find? fun n => n.toList == Text.lower bare

/-- The commands at a console. -/
def commands : Registry (Command Unit) :=
  (Registry.empty.register "narrate" (Narrate.command directory)).register "wait" Wait.command

/-- Runs the commands at a console. -/
def executor (s : Settings) : Executor Unit :=
  ⟨commands, Tag.resolve, s.reporter, {}⟩

end Console

/-- Makes the entry of a line. -/
def ConsoleLine.entry (line : ConsoleLine) (w : World Unit) :
    Except CreationError (Entry × World Unit) :=
  (w.newEntry line.command line.arguments none).map fun (e, w) =>
    (if line.console then e.setSubject (some Console.ref) else e, w)

namespace Console

/-- The place of the queue at a console, the first one. -/
abbrev handle : Handle := ⟨0⟩

/-- A console whose queue is still empty. -/
def opened (s : Settings) (queue : QueueId) : World Unit :=
  ((World.start () cast true).newQueue (Queue.make queue s.historyLimit)).2

/-- Admits entries to a queue in order, up to the first that cannot be made; an
    error is its wording. -/
def admitAll (h : Handle) : List ConsoleLine → World Unit → Except String (World Unit)
  | [], w => .ok w
  | line :: lines, w =>
    match line.entry w with
    | .error err => .error err.message
    | .ok (e, w) => match w.enqueue h e with
      | .error err => .error (Failure.queue err).message
      | .ok w => admitAll h lines w

/-- How the run of a list of entries ended. -/
structure Ending where
  /-- The time in milliseconds. -/
  time : Nat
  queue : QueueId
  /-- How many entries were run. -/
  played : Nat
  /-- How many of the runs that the queue remembers failed. -/
  failed : Nat
deriving Repr, DecidableEq

/-- The line that sums a run up. -/
def Ending.summary (e : Ending) : String :=
  s!"Queue {e.queue.text} dispatched {e.played} entries ({e.failed} failed)"

/-- What an event says to the console. -/
def said? : Nat × Event → Option (Nat × String)
  | (time, .sent _ message) => some (time, message)
  | _ => none

/-- When a player left, and how many entries it ran. -/
def left? : Nat × Event → Option (Nat × Nat)
  | (time, .left _ count) => some (time, count)
  | _ => none

/-- Whether a run failed. -/
def isFailure (r : Record) : Bool :=
  match r.status with
  | .failed _ => true
  | .completed | .waiting => false

/-- How the run of a list ended, if the player left the queue. -/
def ending? (w : World Unit) : Option Ending :=
  (w.log.findSome? left?).map fun (time, played) =>
    ⟨time, (w.queues handle).id, played, (w.queues handle).history.countP isFailure⟩

/-- What came of a list of entries. -/
structure Performance where
  /-- What was said to the console, with the time in milliseconds. -/
  said : List (Nat × String)
  /-- The end, unless an entry holds the queue for good. -/
  ending : Option Ending
deriving Repr, DecidableEq

/-- A bound for the steps that tasks take while they run a number of entries, and for the moves of
    the clock. -/
def stepBound (entries : Nat) : Nat := 24 * (entries + 1)

/-- Runs a list of entries on a queue, up to a world in which nothing goes on. -/
def play (s : Settings) (queue : QueueId) (lines : List ConsoleLine) :
    Except String (World Unit) :=
  let bound := stepBound lines.length
  (admitAll handle lines (opened s queue)).map fun w =>
    (w.startPlayer handle s.speed true).playOut (executor s) bound bound

/-- Runs a list of entries on a queue. -/
def perform (s : Settings) (queue : QueueId) (lines : List ConsoleLine) :
    Except String Performance :=
  (play s queue lines).map fun w => ⟨w.log.reverse.filterMap said?, ending? w⟩

end Console

end Cuelist
