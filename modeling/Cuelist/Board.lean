/-
  Queues that are known by name.

  The board of a world keeps at most one queue under a name.  A queue that is
  taken off the board is stopped; whoever has its handle still sees it.
-/
import Cuelist.Settings
import Cuelist.World

namespace Cuelist.World

variable {σ : Type}

/-- Makes a queue under a name that is not taken. -/
def createQueue (w : World σ) (s : Settings) (id : QueueId) :
    Except QueueError (Handle × World σ) :=
  if w.board.contains id.text then .error (.alreadyExists id.text)
  else
    let (h, w) := w.newQueue (Queue.make id s.historyLimit)
    .ok (h, { w with board := w.board.insert id.text h })

/-- The queue under a name. -/
def findQueue (w : World σ) (id : QueueId) : Except QueueError Handle :=
  match w.board.get? id.text with
  | some h => .ok h
  | none => .error (.notFound id.text)

/-- Stops the queue under a name and takes it off the board. -/
def removeQueue (w : World σ) (id : QueueId) : Except QueueError (World σ) :=
  (w.findQueue id).map fun h => ({ w with board := w.board.erase id.text }.stop h).2

/-- The names on the board, in ascending order. -/
def queueNames (w : World σ) : List String := w.board.names

/-- Admits an entry to the queue under a name. -/
def enqueueNamed (w : World σ) (id : QueueId) (e : Entry) : Except QueueError (World σ) :=
  (w.findQueue id).bind fun h => w.enqueue h e

end Cuelist.World
