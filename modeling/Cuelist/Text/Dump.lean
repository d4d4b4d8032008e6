/-
  Structured text for readers.

  A `Dump` is a tree of records, lists and maps over finished texts.  `compact`
  writes it on one line; `pretty` gives each part a line of its own, four
  blanks further in than the part around it, and so indents also the lines of
  a finished text.
-/
import Cuelist.Text.Split

namespace Cuelist.Text

/-- A tree of parts. -/
inductive Dump where
  /-- A finished text. -/
  | leaf (text : String)
  /-- A named part around one other. -/
  | wrapped (name : String) (item : Dump)
  | list (items : List Dump)
  /-- Parts with finished texts as keys. -/
  | map (pairs : List (String × Dump))
  /-- A named part with named fields. -/
  | record (name : String) (fields : List (String × Dump))
deriving Repr, Inhabited

namespace Dump

mutual

/-- The tree on one line. -/
def compact : Dump → String
  | leaf text => text
  | wrapped name item => name ++ "(" ++ item.compact ++ ")"
  | list items => "[" ++ joinStrings ", " (compactItems items) ++ "]"
  | map pairs => "\x7b" ++ joinStrings ", " (compactPairs pairs) ++ "\x7d"
  | record name fields => name ++ " \x7b " ++ joinStrings ", " (compactPairs fields) ++ " \x7d"

/-- Each part of a list on one line. -/
def compactItems : List Dump → List String
  | [] => []
  | item :: items => item.compact :: compactItems items

/-- Each part of a map on one line, behind its key. -/
def compactPairs : List (String × Dump) → List String
  | [] => []
  | (key, item) :: pairs => (key ++ ": " ++ item.compact) :: compactPairs pairs

end

/-- A text with every line indented by four blanks. -/
def indented (text : String) : String :=
  joinStrings "\n" ((splitOn '\n' text.toList).map fun line => "    " ++ String.ofList line)

/-- Parts between two brackets, each on lines of its own; nothing between them
    if there are no parts. -/
def bracketed (opening closing : String) (parts : List String) : String :=
  opening ++ String.join (parts.map fun part => "\n" ++ indented (part ++ ",")) ++
    (if parts.isEmpty then "" else "\n") ++ closing

mutual

/-- The tree with each part on lines of its own. -/
def pretty : Dump → String
  | leaf text => text
  | wrapped name item => bracketed (name ++ "(") ")" [item.pretty]
  | list items => bracketed "[" "]" (prettyItems items)
  | map pairs => bracketed "\x7b" "\x7d" (prettyPairs pairs)
  | record name fields => bracketed (name ++ " \x7b") "\x7d" (prettyPairs fields)

/-- Each part of a list on lines of its own. -/
def prettyItems : List Dump → List String
  | [] => []
  | item :: items => item.pretty :: prettyItems items

/-- Each part of a map on lines of its own, behind its key. -/
def prettyPairs : List (String × Dump) → List String
  | [] => []
  | (key, item) :: pairs => (key ++ ": " ++ item.pretty) :: prettyPairs pairs

end

end Dump

end Cuelist.Text
