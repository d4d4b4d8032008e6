/-
  The JSON form of what came of advancing a queue.
-/
import Cuelist.Executor
import Cuelist.Queue.Forms

namespace Cuelist

/-- What came of advancing a queue as JSON; `waiting` tells whether an entry still
    waits for its signal. -/
def Tick.toJson (waiting : EntryId → Bool) : Tick → Json
  | ran r => .ofMembers [("ran", r.toJson)]
  | awaiting id => .ofMembers [("awaiting", .bool (waiting id))]
  | empty => .ofString "Empty"
  | busy => .ofString "Busy"

end Cuelist
