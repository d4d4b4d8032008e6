/-
  Entries: one call of a command each.

  An entry is made from a command name and raw arguments.  A sigil in front of
  the name tells when it runs: `^` before the normal entries that wait in its
  queue, `~` so that the queue waits for a signal after it.  Whether an entry
  waits for its signal is known under its `EntryId` outside the entry, because
  the signal reaches entries wherever they are.

  The arguments that a command reads may differ from those of the call, which
  `given` keeps; `copied` starts from these again.
-/
import Cuelist.Failure
import Cuelist.Value

namespace Cuelist

/-- The identity of an entry. -/
structure EntryId where
  number : Nat
deriving Repr, DecidableEq

/-- The name of a queue. -/
structure QueueId where
  text : String
deriving Repr, DecidableEq

/-- The queue name that a text spells; the case does not count. -/
def QueueId.ofName (name : String) : QueueId := ⟨Key.normalize name⟩

/-! ## Command names -/

/-- When an entry runs. -/
inductive Timing where
  | normal
  /-- Before the normal entries of its queue. -/
  | instant
  /-- With its queue waiting for a signal afterwards. -/
  | waitFor
deriving Repr, DecidableEq

/-- The timing and the canonical name that a command name with an optional sigil
    writes. -/
def readCommand (text : String) : Except CreationError (Timing × String) :=
  let name (cs : List Char) := Key.normalize (String.ofList cs)
  match text.toList with
  | [] => .error .emptyName
  | ['^'] | ['~'] => .error (.sigilOnly text)
  | '^' :: rest => .ok (.instant, name rest)
  | '~' :: rest => .ok (.waitFor, name rest)
  | rest => .ok (.normal, name rest)

/-! ## Entries -/

/-- One call of a command. -/
structure Entry where
  id : EntryId
  /-- The name of the command, in canonical form. -/
  command : String
  /-- The arguments that the command reads. -/
  arguments : List String
  /-- The arguments of the call. -/
  given : List String
  instant : Bool
  objects : Store
  /-- The keys of the objects that are handed on to other entries. -/
  tracked : List String
  subject : Option ActorRef
  secondary : Option ActorRef
  script : Option Script
  /-- The queue that admitted the entry first. -/
  queue : Option QueueId
deriving Repr

namespace Entry

/-- A new entry. -/
def make (id : EntryId) (timing : Timing) (command : String) (arguments : List String)
    (script : Option Script) : Entry where
  id := id
  command := command
  arguments := arguments
  given := arguments
  instant := timing == .instant
  objects := {}
  tracked := []
  subject := none
  secondary := none
  script := script
  queue := none

/-- A new entry that calls the same command with the same arguments. -/
def copied (e : Entry) (id : EntryId) : Entry :=
  { e with id, arguments := e.given, queue := none }

/-! ### Command and arguments -/

/-- The entry with another command name. -/
def setCommand (e : Entry) (name : String) : Entry :=
  { e with command := Key.normalize name }

/-- The entry with other arguments to read. -/
def setArguments (e : Entry) (arguments : List String) : Entry :=
  { e with arguments }

/-- The entry with the arguments of the call to read. -/
def resetArguments (e : Entry) : Entry :=
  e.setArguments e.given

/-- Whether an argument has both marks of a tag. -/
def hasMarks (argument : String) : Bool :=
  argument.toList.contains '<' && argument.toList.contains '>'

/-- Whether an argument of the call may have a tag. -/
def hasTags (e : Entry) : Bool :=
  e.given.any hasMarks

/-! ### Objects -/

/-- The object under a key. -/
def get? (e : Entry) (key : String) : Option Value :=
  e.objects.get? key

/-- Whether a key has an object. -/
def has (e : Entry) (key : String) : Bool :=
  e.objects.contains key

/-- The entry with an object under a key. -/
def add (e : Entry) (key : String) (v : Value) : Entry :=
  { e with objects := e.objects.insert key v }

/-- The entry with an object under a key, if there is one to put. -/
def set (e : Entry) (key : String) (v : Option Value) : Entry :=
  match v with
  | some v => e.add key v
  | none => e

/-- The entry without the object under a key. -/
def remove (e : Entry) (key : String) : Entry :=
  { e with objects := e.objects.erase key }

/-- What `ensure` found. -/
inductive Ensured where
  /-- The key had an object. -/
  | existing
  /-- The key took the first candidate. -/
  | defaulted
deriving Repr, DecidableEq

/-- Sees to it that a key has an object: the one it has, or else the first
    candidate that is there. -/
def ensure (e : Entry) (key : String) (candidates : List (Option Value)) :
    Except CommandError (Ensured × Entry) :=
  if e.has key then .ok (.existing, e)
  else match candidates.findSome? (fun v => v) with
    | some v => .ok (.defaulted, e.add key v)
    | none => .error (.missingArgument key)

/-- The object under a key as a text. -/
def text? (e : Entry) (key : String) : Option String :=
  (e.get? key).bind Value.asText

/-- The object under a key as reports show it; empty if there is none. -/
def reportObject (e : Entry) (key : String) : String :=
  match e.get? key with
  | some v => if v.hasLabel then v.debug else s!"{key}='{v.debug}'"
  | none => ""

/-! ### Tracked objects -/

/-- The entry with a key among the tracked ones. -/
def track (e : Entry) (key : String) : Entry :=
  let key := Key.normalize key
  if key ∈ e.tracked then e else { e with tracked := e.tracked ++ [key] }

/-- The target with one tracked object of the source. -/
def injectKey (source target : Entry) (key : String) : Entry :=
  match source.get? key with
  | some v => (target.add key v).track key
  | none => target

/-- The target with all tracked objects of the source. -/
def injectInto (source target : Entry) : Entry :=
  source.tracked.foldl (injectKey source) target

/-! ### Subjects, script and queue -/

/-- The entry with another acting subject. -/
def setSubject (e : Entry) (a : Option ActorRef) : Entry :=
  { e with subject := a }

/-- The entry with another second subject. -/
def setSecondary (e : Entry) (a : Option ActorRef) : Entry :=
  { e with secondary := a }

/-- The entry with another script. -/
def setScript (e : Entry) (s : Option Script) : Entry :=
  { e with script := s }

/-- The entry with a queue that it belongs to; the first queue stays. -/
def attach (e : Entry) (queue : QueueId) : Entry :=
  { e with queue := e.queue.or queue }

/-- The entry with another place before or among the normal entries. -/
def setInstant (e : Entry) (instant : Bool) : Entry :=
  { e with instant }

/-- Whether the entry is reported: yes, unless its script says no. -/
def shouldDebug (e : Entry) : Bool :=
  match e.script with
  | some s => s.debug
  | none => true

/-- Whether a filter names the script of the entry; the case of ASCII letters
    does not count. -/
def passesFilter (e : Entry) (filter : String) : Bool :=
  match e.script with
  | some s => Text.sameIgnoringAsciiCase s.name.toList (Script.unmarked filter).toList
  | none => false

/-! ### For readers -/

/-- The parts of the entry for a reader, with a text for its identity and
    whether it waits for its signal. -/
def dump (e : Entry) (id : String) (waiting : Bool) : Text.Dump :=
  .record "ScriptEntry" [
    ("id", .wrapped "EntryId" (.leaf id)),
    ("command", .leaf (Text.quote e.command)),
    ("arguments", .list (e.arguments.map fun a => .leaf (Text.quote a))),
    ("instant", .leaf (Value.renderBool e.instant)),
    ("wait_for", .leaf (Value.renderBool waiting)),
    ("objects", .record "ContextStore" [("objects",
      .map (e.objects.values.pairs.map fun p => (Text.quote p.1, p.2.dump)))])]

end Entry

end Cuelist
