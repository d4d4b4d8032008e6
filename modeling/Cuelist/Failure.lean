/-
  What can go wrong.

  One type for each concern: making an entry, running a command, managing
  queues, keeping settings, filling tags.  Each constructor is a cause, and
  `message` is its wording; `Failure` joins the concerns that a host meets.
-/
import Cuelist.Text.Quoted

namespace Cuelist

/-! ## Entries -/

/-- Why an entry cannot be made. -/
inductive CreationError where
  /-- The command name is empty. -/
  | emptyName
  /-- The command name is a timing sigil alone. -/
  | sigilOnly (name : String)
deriving Repr, DecidableEq

/-- The wording of the error. -/
def CreationError.message : CreationError → String
  | emptyName => "Command name cannot be empty"
  | sigilOnly name => s!"Command name '{name}' has no name after its timing sigil"

/-! ## Commands -/

/-- Why the dispatch of an entry fails. -/
inductive CommandError where
  /-- The arguments do not make sense to the command. -/
  | invalidArguments (reason : String)
  /-- A value that the command needs is absent. -/
  | missingArgument (key : String)
  /-- No command has this name. -/
  | unknownCommand (name : String)
  /-- The command could not do its work. -/
  | execution (reason : String)
deriving Repr, DecidableEq

namespace CommandError

/-- The wording of the error. -/
def message : CommandError → String
  | invalidArguments reason => s!"Invalid arguments: {reason}"
  | missingArgument key => s!"Missing '{key}' argument!"
  | unknownCommand name => s!"Unknown command '{name}'"
  | execution reason => s!"Execution failed: {reason}"

/-- The phase of dispatch that the error stops. -/
def phase : CommandError → String
  | invalidArguments _ | missingArgument _ => "parse"
  | unknownCommand _ => "dispatch"
  | execution _ => "execute"

/-- Whether the entry is given up before the command does any work. -/
def isInvalidArguments : CommandError → Bool
  | invalidArguments _ | missingArgument _ | unknownCommand _ => true
  | execution _ => false

end CommandError

/-! ## Queues -/

/-- Why a queue cannot be used. -/
inductive QueueError where
  | notFound (id : String)
  | alreadyExists (id : String)
  /-- The queue was stopped for good. -/
  | stopped (id : String)
deriving Repr, DecidableEq

/-- The wording of the error. -/
def QueueError.message : QueueError → String
  | notFound id => s!"Queue '{id}' not found"
  | alreadyExists id => s!"Queue '{id}' already exists"
  | stopped id => s!"Queue '{id}' has been stopped"

/-! ## Settings -/

/-- Why settings cannot be kept or taken up. -/
inductive SettingsError where
  /-- Nothing is at the path. -/
  | notFound (path : String)
  /-- The finished file cannot take its place. -/
  | replaceFailed (path detail : String)
  /-- The file system refuses. -/
  | io (detail : String)
  /-- The text does not describe settings. -/
  | json (detail : String)
deriving Repr, DecidableEq

/-- The wording of the error. -/
def SettingsError.message : SettingsError → String
  | notFound path => s!"Config file not found: {path}"
  | replaceFailed path detail => s!"Atomic write failed for {path}: {detail}"
  | io detail => s!"IO error: {detail}"
  | json detail => s!"JSON error: {detail}"

/-! ## Tags -/

/-- Why the tags of an argument cannot all be filled. -/
inductive TagError where
  /-- Some tags stand for nothing; `text` is the argument with the others
      filled. -/
  | unresolved (text : String) (tags : List String)
  /-- A tag starts inside another one. -/
  | malformed (argument : String)
deriving Repr, DecidableEq

/-- The wording of the error. -/
def TagError.message : TagError → String
  | unresolved _ tags => s!"Unresolved tags {Text.quoteList tags}"
  | malformed argument => s!"Malformed tag expression: {argument}"

/-! ## All together -/

/-- An error of any concern that reaches a host. -/
inductive Failure where
  | creation (e : CreationError)
  | command (e : CommandError)
  | queue (e : QueueError)
  | settings (e : SettingsError)
deriving Repr, DecidableEq

/-- The wording of the error, behind its concern. -/
def Failure.message : Failure → String
  | creation e => "Creation error: " ++ e.message
  | command e => "Command error: " ++ e.message
  | queue e => "Queue error: " ++ e.message
  | settings e => "Configuration error: " ++ e.message

end Cuelist
