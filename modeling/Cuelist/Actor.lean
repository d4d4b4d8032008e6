/-
  Actors and handles to them.

  A host keeps its actors in numbered places.  An `ActorRef` points to such a
  place and remembers who was there when it was made, so that it can be shown
  after the host has let the actor go.  Two handles are the same if they have
  the same identifier.
-/
import Cuelist.Text.Dump
import Cuelist.Text.Quoted
import Cuelist.Uuid

namespace Cuelist

/-- An actor of a host. -/
structure Actor where
  id : Uuid
  name : String
  /-- Whether the actor can be reached now; one for whom nothing is set always
      can. -/
  online : Option Bool
deriving Repr, DecidableEq

/-- A handle to an actor. -/
structure ActorRef where
  id : Uuid
  /-- The name that the actor had when the handle was made. -/
  name : String
  /-- The place in which the host keeps the actor. -/
  place : Nat
deriving Repr, DecidableEq

namespace ActorRef

/-- Whether two handles mean the same actor. -/
def same (a b : ActorRef) : Bool :=
  a.id == b.id

/-- The handle as it is shown to a reader. -/
def display (a : ActorRef) : String :=
  "a@" ++ a.name

/-- The handle with its parts. -/
def debug (a : ActorRef) : String :=
  (Text.Dump.record "ActorRef" [("id", .wrapped "ActorId" (.leaf a.id.render)),
    ("name", .leaf (Text.quote a.name))]).compact

/-- A list of handles as it is shown to a reader. -/
def displayList (as : List ActorRef) : String :=
  "[" ++ Text.joinStrings ", " (as.map display) ++ "]"

end ActorRef

/-! ## The actors of a host -/

/-- The numbered places of a host; a place whose actor was let go is empty. -/
structure Cast where
  places : List (Option Actor) := []
deriving Repr, DecidableEq

namespace Cast

/-- The actor that a handle points to, if the host still has it. -/
def actor? (c : Cast) (a : ActorRef) : Option Actor :=
  c.places[a.place]?.join

/-- Whether the actor of a handle is there and can be reached. -/
def isOnline (c : Cast) (a : ActorRef) : Bool :=
  match c.actor? a with
  | some actor => actor.online.getD true
  | none => false

/-- Handles to the actors that the host has, in the order of their places. -/
def refs (c : Cast) : List ActorRef :=
  c.places.zipIdx.filterMap fun p => p.1.map fun actor => ⟨actor.id, actor.name, p.2⟩

/-- A handle to the first actor whose name passes a test. -/
def find? (c : Cast) (test : String → Bool) : Option ActorRef :=
  c.refs.find? fun a => test a.name

/-- The host without the actor in a place. -/
def letGo (c : Cast) (place : Nat) : Cast where
  places := c.places.set place none

/-- The host with another reachability of the actor in a place, if one is set for
    the actor. -/
def setOnline (c : Cast) (place : Nat) (online : Bool) : Cast where
  places := c.places.modify place fun actor =>
    actor.map fun a => { a with online := a.online.map fun _ => online }

end Cast

end Cuelist
