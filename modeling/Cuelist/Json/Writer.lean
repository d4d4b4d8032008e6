/-
  Writing JSON.

  `compact` writes a value without blanks, `pretty` with one item to a line and
  two blanks of indentation to a level; an empty array or object stays on its
  line.  Strings are written with the short escapes where there is one and as
  `\u00xx` for the other controls; every other character stands for itself.
-/
import Cuelist.Json.Tree
import Cuelist.Text.Split

namespace Cuelist.Json

/-- One character of a string, escaped if it has to be. -/
def escapeChar (c : Char) : List Char :=
  if c = '"' then ['\\', '"']
  else if c = '\\' then ['\\', '\\']
  else if c = '\x08' then ['\\', 'b']
  else if c = '\x0c' then ['\\', 'f']
  else if c = '\n' then ['\\', 'n']
  else if c = '\r' then ['\\', 'r']
  else if c = '\t' then ['\\', 't']
  else if c.toNat < 0x20 then
    ['\\', 'u', '0', '0', Nat.digitChar (c.toNat / 16), Nat.digitChar (c.toNat % 16)]
  else [c]

/-- A text as a JSON string. -/
def writeText (s : List Char) : List Char :=
  '"' :: s.flatMap escapeChar ++ ['"']

/-- A string of a value; one that stands for no text is written empty. -/
def writeString (s : Option String) : List Char :=
  writeText ((s.getD "").toList)

mutual

/-- A value without blanks. -/
def compactChars : Json → List Char
  | .null => "null".toList
  | .bool b => (if b then "true" else "false").toList
  | .number spelling => spelling
  | .string s => writeString s
  | .array items => '[' :: Text.joinWith [','] (compactItems items) ++ [']']
  | .object members => '\x7b' :: Text.joinWith [','] (compactMembers members) ++ ['\x7d']

/-- The items of an array without blanks. -/
def compactItems : List Json → List (List Char)
  | [] => []
  | item :: items => compactChars item :: compactItems items

/-- The members of an object without blanks. -/
def compactMembers : List (Option String × Json) → List (List Char)
  | [] => []
  | (name, v) :: members => (writeString name ++ ':' :: compactChars v) :: compactMembers members

end

/-- A line break and the indentation of a level. -/
def newline (level : Nat) : List Char :=
  '\n' :: List.replicate (2 * level) ' '

/-- Pieces between two brackets, each on a line of its own. -/
def block (level : Nat) (opening closing : Char) (pieces : List (List Char)) : List Char :=
  if pieces.isEmpty then [opening, closing]
  else
    opening :: newline (level + 1) ++ Text.joinWith (',' :: newline (level + 1)) pieces ++
      newline level ++ [closing]

mutual

/-- A value with indentation, inside `level` brackets. -/
def prettyChars (level : Nat) : Json → List Char
  | .null => "null".toList
  | .bool b => (if b then "true" else "false").toList
  | .number spelling => spelling
  | .string s => writeString s
  | .array items => block level '[' ']' (prettyItems (level + 1) items)
  | .object members => block level '\x7b' '\x7d' (prettyMembers (level + 1) members)

/-- The items of an array with indentation. -/
def prettyItems (level : Nat) : List Json → List (List Char)
  | [] => []
  | item :: items => prettyChars level item :: prettyItems level items

/-- The members of an object with indentation. -/
def prettyMembers (level : Nat) : List (Option String × Json) → List (List Char)
  | [] => []
  | (name, v) :: members =>
    (writeString name ++ ':' :: ' ' :: prettyChars level v) :: prettyMembers level members

end

/-- A value on one line. -/
def compact (v : Json) : String :=
  String.ofList (compactChars v)

/-- A value with one item to a line. -/
def pretty (v : Json) : String :=
  String.ofList (prettyChars 0 v)

end Cuelist.Json
