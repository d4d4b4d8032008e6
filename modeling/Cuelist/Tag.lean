/-
  Tags in arguments.

  A tag is a name between `<` and `>`.  `fill` puts the value of each tag in its
  place, from the left; what is put in is not looked at again.  A tag without a
  value stays as it is, and a tag that starts inside another one makes the
  whole argument malformed.  `resolveEntry` fills the arguments of an entry
  from what the entry carries, and turns each failure into a warning.
-/
import Cuelist.Entry
import Cuelist.Text.Blank

namespace Cuelist

/-- What tags can stand for. -/
structure Scope where
  objects : Store
  subject : Option ActorRef
  secondary : Option ActorRef
  script : Option Script

/-- What the tags of an entry can stand for. -/
def Entry.scope (e : Entry) : Scope :=
  ⟨e.objects, e.subject, e.secondary, e.script⟩

/-- A way to fill the tags of an argument. -/
abbrev Resolver := Scope → String → Except TagError String

namespace Tag

/-! ## Names -/

/-- A name without the word `context.` in front of it, in any ASCII case. -/
def inContext (name : List Char) : List Char :=
  if Text.sameIgnoringAsciiCase (name.take 8) "context.".toList then name.drop 8 else name

/-- The text that a tag stands for: the name of a subject or of the script, or
    an object. -/
def lookup (scope : Scope) (tag : List Char) : Option String :=
  let name := Text.trim tag
  let word := String.ofList (Text.asciiLower name)
  if word = "subject" ∨ word = "subject.name" then scope.subject.map ActorRef.name
  else if word = "secondary" ∨ word = "secondary.name" then scope.secondary.map ActorRef.name
  else if word = "script" ∨ word = "script.name" then scope.script.map Script.name
  else (scope.objects.get? (String.ofList (inContext name))).bind Value.asText

/-! ## Arguments -/

/-- A tag with its marks. -/
def marked (tag : List Char) : List Char :=
  '<' :: tag ++ ['>']

/-- A text with its tags filled, and the tags that have no value, in order.
    There is no result if a tag starts inside another one. -/
def fill (scope : Scope) (s : List Char) : Option (List Char × List (List Char)) :=
  match _h : Text.cut '<' s with
  | none => some (s, [])
  | some (before, rest) =>
    match _h' : Text.cut '>' rest with
    | none => some (s, [])
    | some (tag, after) =>
      if '<' ∈ tag then none
      else (fill scope after).map fun filled =>
        match lookup scope tag with
        | some v => (before ++ v.toList ++ filled.1, filled.2)
        | none => (before ++ marked tag ++ filled.1, marked tag :: filled.2)
termination_by s.length
decreasing_by
  have := Text.length_after_cut _h
  have := Text.length_after_cut _h'
  omega

/-- The argument with its tags filled from the scope. -/
def resolve : Resolver := fun scope argument =>
  match fill scope argument.toList with
  | none => .error (.malformed argument)
  | some (text, []) => .ok (String.ofList text)
  | some (text, tags) => .error (.unresolved (String.ofList text) (tags.map String.ofList))

/-- The argument as it is. -/
def keep : Resolver := fun _ argument => .ok argument

/-! ## Entries -/

/-- What becomes of an argument: its text, and a warning if not all of its tags
    have a value. -/
def settle (r : Resolver) (scope : Scope) (argument : String) : String × Option String :=
  match r scope argument with
  | .ok text => (text, none)
  | .error (.unresolved text tags) =>
    let names := Text.joinStrings ", " tags
    (text, some s!"Unable to fill tag(s) {names} in '{argument}'")
  | .error e => (argument, some s!"{e.message} in '{argument}'")

/-- An entry with the tags of its arguments filled, and a warning for each
    argument with a failure.  An entry whose call has no tags stays as it is. -/
def resolveEntry (r : Resolver) (e : Entry) : Entry × List String :=
  if e.hasTags then
    let settled := e.arguments.map (settle r e.scope)
    (e.setArguments (settled.map Prod.fst), settled.filterMap Prod.snd)
  else (e, [])

theorem command_resolveEntry (r : Resolver) (e : Entry) :
    (resolveEntry r e).1.command = e.command := by
  unfold resolveEntry
  split <;> rfl

end Tag

end Cuelist
