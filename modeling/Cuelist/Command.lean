/-
  Commands.

  A command works in two phases on the same entry: `parse` turns arguments into
  objects, `execute` does the work from the objects.  Each phase takes the
  entry and the world and gives them back changed, with a result.
-/
import Cuelist.Registry
import Cuelist.World

namespace Cuelist

/-- What a phase of a command knows of its call. -/
structure Call where
  /-- The name under which the command was called. -/
  command : String
  reporter : Reporter
  scripts : Library

/-- What a phase of a command gives back. -/
structure Reply (σ : Type) where
  result : Except CommandError Unit
  entry : Entry
  world : World σ

/-- A phase of a command. -/
abbrev Phase (σ : Type) := Call → Entry → World σ → Reply σ

/-- A command. -/
structure Command (σ : Type) where
  parse : Phase σ
  execute : Phase σ

/-- Reports a summary for an entry. -/
def World.summarize {σ : Type} (w : World σ) (c : Call) (e : Entry) (text : String) : World σ :=
  w.tell c.reporter (.summary e c.command text)

end Cuelist
