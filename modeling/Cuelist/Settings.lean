/-
  Settings.

  `Settings.toJson` and `Settings.ofJson?` are the written form; what is left out
  takes its default.
-/
import Cuelist.Json.Decode
import Cuelist.Json.Writer
import Cuelist.Queue
import Cuelist.Report

namespace Cuelist

/-- What a host can choose. -/
structure Settings where
  /-- The delay after a normal entry, in milliseconds. -/
  tickInterval : Nat := 500
  /-- Whether summaries are reported. -/
  debug : Bool := true
  /-- The scripts to which summaries are limited, if there are any. -/
  filters : List String := []
  /-- How many runs a queue remembers. -/
  historyLimit : Nat := Queue.defaultHistoryLimit
  /-- Whether a player leaves a queue that has nothing left to run. -/
  stopWhenDrained : Bool := true
deriving Repr, DecidableEq

namespace Settings

/-- The delay after a normal entry. -/
def speed (s : Settings) : Span := Span.ofMillis s.tickInterval

/-- The reporter that writes a trace as the settings say. -/
def reporter (s : Settings) : Reporter := Reporter.trace s.debug s.filters

/-- The names of the fields of the written form, in order. -/
def fieldNames : List String :=
  ["tick_interval_ms", "debug", "debug_filters", "history_limit", "stop_when_drained"]

/-- The members of the written form, in order. -/
def members (s : Settings) : List (String × Json) :=
  fieldNames.zip [.ofNat s.tickInterval, .bool s.debug, .ofStrings s.filters,
    .ofNat s.historyLimit, .bool s.stopWhenDrained]

/-- Settings as JSON. -/
def toJson (s : Settings) : Json := .ofMembers s.members

/-- Settings from JSON; a field that is left out takes its default. -/
def ofJson? (v : Json) : Option Settings := do
  let standard : Settings := {}
  match ← Json.fields? fieldNames v with
  | [interval, debug, filters, limit, drained] =>
    some {
      tickInterval := ← Json.optional? Json.uint64? standard.tickInterval interval
      debug := ← Json.optional? Json.bool? standard.debug debug
      filters := ← Json.optional? Json.strings? standard.filters filters
      historyLimit := ← Json.optional? Json.uint64? standard.historyLimit limit
      stopWhenDrained := ← Json.optional? Json.bool? standard.stopWhenDrained drained }
  | _ => none

end Settings

end Cuelist
