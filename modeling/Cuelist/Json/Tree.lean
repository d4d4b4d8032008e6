/-
  JSON values.

  A `Json` is a value as it was written: numbers keep their spelling and the
  members of an object their order and repetitions.  A string whose escapes or
  bytes stand for no text is `none`; a reader that skips the string accepts it.
-/
namespace Cuelist

/-- A JSON value. -/
inductive Json where
  | null
  | bool (b : Bool)
  /-- A number as it is spelled. -/
  | number (spelling : List Char)
  /-- A string; `none` if it stands for no text. -/
  | string (text : Option String)
  | array (items : List Json)
  /-- An object; a name is `none` if it stands for no text. -/
  | object (members : List (Option String × Json))
deriving Repr, Inhabited

namespace Json

/-- A string that stands for a text. -/
def ofString (s : String) : Json := .string (some s)

/-- A whole number. -/
def ofNat (n : Nat) : Json := .number (Nat.toDigits 10 n)

/-- A list of texts. -/
def ofStrings (ss : List String) : Json := .array (ss.map ofString)

/-- An object with the given members, in order. -/
def ofMembers (ms : List (String × Json)) : Json :=
  .object (ms.map fun m => (some m.1, m.2))

end Json

end Cuelist
