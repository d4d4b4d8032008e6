/-
  Cues: entries as they are written down.

  A cue names all that an entry needs; `World.call` makes the entry.  One cue
  can be called many times, and each call is an entry of its own.
-/
import Cuelist.World

namespace Cuelist

/-- An entry as it is written down. -/
structure Cue where
  /-- The command name, with its sigil. -/
  command : String
  arguments : List String
  script : Option Script := none
  subject : Option ActorRef := none
  secondary : Option ActorRef := none
  /-- Objects and their keys, in the order in which they are put. -/
  objects : List (String × Option Value) := []
  tracked : List String := []
  /-- Whether the entry waits for a signal, if this is not left to the sigil. -/
  waits : Option Bool := none
  /-- Whether the entry is instant, if this is not left to the sigil. -/
  instant : Option Bool := none

namespace Cue

/-- A new entry with what the cue says beyond the call. -/
def dress (c : Cue) (e : Entry) : Entry :=
  let e := (e.setSubject c.subject).setSecondary c.secondary
  let e := c.objects.foldl (fun e p => e.set p.1 p.2) e
  let e := c.tracked.foldl Entry.track e
  e.setInstant (c.instant.getD e.instant)

end Cue

namespace World

variable {σ : Type}

/-- Makes the entry of a cue. -/
def call (w : World σ) (c : Cue) : Except CreationError (Entry × World σ) :=
  (w.newEntry c.command c.arguments c.script).map fun (e, w) =>
    (c.dress e, match c.waits with
      | some waits => w.setWaiting e.id waits
      | none => w)

/-- Makes the entries of several cues, or none if one of them cannot be made. -/
def callAll (w : World σ) : List Cue → Except CreationError (List Entry × World σ)
  | [] => .ok ([], w)
  | c :: cs => do
    let (e, w) ← w.call c
    let (es, w) ← callAll w cs
    return (e :: es, w)

end World

end Cuelist
