/-
  Scripts and their library.

  A `Script` is a named source of entries.  A task is run; a format is a
  template that a text is put into.  A `Library` finds scripts by name without
  regard to case, with or without the mark `s@`.
-/
import Cuelist.Json.Decode
import Cuelist.Key
import Cuelist.Text.Split

namespace Cuelist

/-- What a script is for. -/
inductive ScriptKind where
  /-- A script that is run. -/
  | task
  /-- A template; `<text>` stands for the text that is put into it. -/
  | format (template : String)
deriving Repr, DecidableEq

/-- A named script. -/
structure Script where
  /-- The name, in canonical form if a constructor made it. -/
  name : String
  /-- Whether the entries of the script are reported. -/
  debug : Bool
  kind : ScriptKind
deriving Repr, DecidableEq

namespace Script

/-- A task. -/
def task (name : String) : Script := ⟨Key.normalize name, true, .task⟩

/-- A format with a template. -/
def format (name template : String) : Script := ⟨Key.normalize name, true, .format template⟩

/-- The script with its reports turned on or off. -/
def withDebug (s : Script) (debug : Bool) : Script := { s with debug }

/-- The template of a format. -/
def template? (s : Script) : Option String :=
  match s.kind with
  | .format template => some template
  | .task => none

/-- Whether the script is a format. -/
def isFormat (s : Script) : Bool :=
  s.template?.isSome

/-- The text put into the template of a format; a task leaves it as it is. -/
def render (s : Script) (text : String) : String :=
  match s.kind with
  | .format template =>
    String.ofList (Text.replaceAll "<text>".toList text.toList template.toList)
  | .task => text

/-- The script as it is shown to a reader. -/
def display (s : Script) : String :=
  "s@" ++ s.name

/-- A name without the mark of scripts in front of it. -/
def unmarked (name : String) : String :=
  match Text.after? ['s', '@'] name.toList with
  | some rest => String.ofList rest
  | none => name

end Script

/-! ## JSON forms -/

/-- The kind of a script as JSON. -/
def ScriptKind.toJson : ScriptKind → Json
  | .task => .ofString "Task"
  | .format template =>
    .ofMembers [("Format", .ofMembers [("template", .ofString template)])]

/-- The kind of a script from JSON. -/
def ScriptKind.ofJson? (v : Json) : Option ScriptKind := do
  let (name, body) ← v.variant?
  if name = "Task" then
    if Json.holdsNothing body then some .task else none
  else if name = "Format" then
    match ← Json.fields? ["template"] (← body) with
    | [template] => (Json.required? Json.string? template).map .format
    | _ => none
  else none

/-- A script as JSON. -/
def Script.toJson (s : Script) : Json :=
  .ofMembers [("name", .ofString s.name), ("debug", .bool s.debug), ("kind", s.kind.toJson)]

/-- A script from JSON; its name is taken as it is spelled. -/
def Script.ofJson? (v : Json) : Option Script := do
  match ← Json.fields? ["name", "debug", "kind"] v with
  | [name, debug, kind] =>
    some ⟨← Json.required? Json.string? name, ← Json.required? Json.bool? debug,
      ← Json.required? ScriptKind.ofJson? kind⟩
  | _ => none

/-! ## Libraries -/

/-- A set of scripts with different names. -/
structure Library where
  scripts : Index Script := {}

namespace Library

/-- The library with a script put in; it replaces one of the same name. -/
def insert (l : Library) (s : Script) : Library where
  scripts := l.scripts.insert s.name s

/-- The script with a name. -/
def get? (l : Library) (name : String) : Option Script :=
  l.scripts.get? (Key.normalize (Script.unmarked name))

/-- The format with a name. -/
def format? (l : Library) (name : String) : Option Script :=
  (l.get? name).filter Script.isFormat

/-- How many scripts the library has. -/
def size (l : Library) : Nat := l.scripts.size

/-- Whether the library has no scripts. -/
def isEmpty (l : Library) : Bool := l.scripts.isEmpty

end Library

end Cuelist
