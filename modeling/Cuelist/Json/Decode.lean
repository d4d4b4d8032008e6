/-
  From JSON values to data.

  A decoder takes a value of one shape or fails.  `Json.fields?` reads a record
  from an object (its fields in any order, each at most once, other names
  skipped) or from an array (its first fields in order, none left over).
  `Json.variant?` reads one of several alternatives: its name alone, or an
  object whose one member is named so.
-/
import Cuelist.Json.Tree
import Cuelist.Decimal.Numeral

namespace Cuelist.Json

/-! ## Scalars -/

/-- A truth value. -/
def bool? : Json → Option Bool
  | .bool b => some b
  | _ => none

/-- A text. -/
def string? : Json → Option String
  | .string s => s
  | _ => none

/-- A natural number below 2⁶⁴, spelled without sign, point or exponent. -/
def uint64? : Json → Option Nat
  | .number spelling => (Decimal.readNat? spelling).filter (· < Nat.pow 2 64)
  | _ => none

/-- A list of texts. -/
def strings? : Json → Option (List String)
  | .array items => items.mapM string?
  | _ => none

/-! ## Records -/

/-- The members of an object, if every name stands for a text. -/
def named? (members : List (Option String × Json)) : Option (List (String × Json)) :=
  members.mapM fun m => m.1.map fun name => (name, m.2)

/-- The value of a field of an object: `some none` if the object has no such
    member, and nothing if it has two. -/
def field? (members : List (String × Json)) (name : String) : Option (Option Json) :=
  match members.filter fun m => m.1 == name with
  | [] => some none
  | [m] => some (some m.2)
  | _ => none

/-- The values of the fields of a record, in the order of `names`; a field that
    is left out is `none`. -/
def fields? (names : List String) : Json → Option (List (Option Json))
  | .object members => do
    let members ← named? members
    names.mapM (field? members)
  | .array items =>
    if items.length ≤ names.length then
      some (items.map some ++ List.replicate (names.length - items.length) none)
    else none
  | _ => none

/-- A field that has to be there. -/
def required? {α : Type} (decode : Json → Option α) (field : Option Json) : Option α :=
  field.bind decode

/-- A field that may be left out. -/
def optional? {α : Type} (decode : Json → Option α) (default : α) : Option Json → Option α
  | some v => decode v
  | none => some default

/-! ## Alternatives -/

/-- The name of an alternative and what it holds; an alternative that is named
    by a string alone holds nothing. -/
def variant? : Json → Option (String × Option Json)
  | .string (some name) => some (name, none)
  | .object [(some name, v)] => some (name, some v)
  | _ => none

/-- Whether what an alternative holds is nothing. -/
def holdsNothing : Option Json → Bool
  | none => true
  | some .null => true
  | some _ => false

end Cuelist.Json
