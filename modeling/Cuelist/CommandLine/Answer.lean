/-
  What the program answers.

  `answer` does what an invocation asks for in a file tree: what is printed, the
  exit code, and the tree afterwards.
-/
import Cuelist.CommandLine
import Cuelist.Console

namespace Cuelist.CommandLine

/-- What a run of the program leaves behind for its caller. -/
structure Answer where
  code : Nat
  /-- The lines that are printed, each at its time in milliseconds. -/
  lines : List (Nat × String)
  /-- The error that is printed. -/
  error : Option String
  /-- Whether the program goes on for good after that, so that there is no code. -/
  endless : Bool
deriving Repr, DecidableEq

namespace Answer

/-- Success with lines that are printed at once. -/
def ok (lines : List String) : Answer := ⟨0, lines.map fun l => (0, l), none, false⟩

/-- A failure. -/
def failed (message : String) : Answer := ⟨1, [], some s!"Error: {message}", false⟩

/-- Arguments that make no sense. -/
def misused : Answer := ⟨2, [], some "error: invalid arguments", false⟩

/-- All that is printed. -/
def output (a : Answer) : String :=
  String.join (a.lines.map fun l => l.2 ++ "\n")

end Answer

/-- The answer to an attempt to save settings. -/
def initAnswer (config : String) : Except SettingsError Unit → Answer
  | .ok () =>
    let path := Text.quote config
    .ok [s!"Wrote cadence config to {path}"]
  | .error e => .failed (Failure.settings e).message

/-- The settings to save. -/
def initSettings (interval : Nat) (quiet : Bool) : Settings :=
  { tickInterval := interval, debug := !quiet }

/-- The settings for a run: those of the file, or the standard ones if there is no
    file. -/
def runSettings : Except SettingsError Settings → Except SettingsError Settings
  | .error (.notFound _) => .ok {}
  | other => other

/-- The list of entries in a file. -/
def readEntries (path : String) (t : FileTree) : Except String (List ConsoleLine) :=
  let shown := Text.quote path
  match t.read (FilePath.ofText path) with
  | .error _ => .error s!"reading {shown}"
  | .ok content => match String.fromUTF8? content with
    | none => .error s!"reading {shown}"
    | some text => match (Json.read? text).bind ConsoleLine.listOfJson? with
      | none => .error s!"parsing {shown}"
      | some lines => .ok lines

/-- The answer to a list of entries that were run: what was said, and at the end the
    line that sums it up. -/
def performanceAnswer (p : Console.Performance) : Answer :=
  ⟨0, p.said ++ p.ending.toList.map fun e => (e.time, e.summary), none, p.ending.isNone⟩

/-- The answer to a list of entries. -/
def runAnswer (t : FileTree) (config entries queue : String) : Answer :=
  match runSettings (Settings.load config t) with
  | .error e => .failed (Failure.settings e).message
  | .ok settings => match readEntries entries t with
    | .error message => .failed message
    | .ok lines => match Console.perform settings (QueueId.ofName queue) lines with
      | .error message => .failed message
      | .ok p => performanceAnswer p

/-- Does what an invocation asks for. -/
def answer (t : FileTree) : Invocation → Answer × FileTree
  | .init config interval quiet =>
    let (result, t) := (initSettings interval quiet).save config t
    (initAnswer config result, t)
  | .commands => (.ok Console.commands.names, t)
  | .run config entries queue => (runAnswer t config entries queue, t)

/-- The paths of the files that an invocation reads. -/
def Invocation.reads : Invocation → List String
  | .init _ _ _ | .commands => []
  | .run config entries _ => [config, entries]

/-- Does what arguments ask for. -/
def answerTo (t : FileTree) (arguments : List String) : Answer × FileTree :=
  match Invocation.parse? arguments with
  | some i => answer t i
  | none => (.misused, t)

end Cuelist.CommandLine
