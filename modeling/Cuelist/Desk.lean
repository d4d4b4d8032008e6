/-
  A desk: the state of a host that works with queues by name.

  The desk keeps handles of its own, also for queues that are not on the board
  of the world, and it keeps those of queues that were taken off the board
  until the name is used again.
-/
import Cuelist.World

namespace Cuelist

/-- The state of a host that works with queues by name. -/
structure Desk where
  handles : Index Handle := {}
  /-- Handles to the actors who were there at the start. -/
  refs : List ActorRef := []

namespace Desk

/-- The desk with a handle under the name of a queue. -/
def keep (d : Desk) (name : String) (h : Handle) : Desk :=
  { d with handles := d.handles.insert (Key.normalize name) h }

/-- The handle under the name of a queue. -/
def handle? (d : Desk) (name : String) : Option Handle :=
  d.handles.get? (Key.normalize name)

/-- The handle to the actor with a name, spelled exactly so. -/
def actor? (d : Desk) (name : String) : Option ActorRef :=
  d.refs.find? fun a => a.name == name

end Desk

end Cuelist
