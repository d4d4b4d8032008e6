/-
  The arguments of a command.

  An argument is a bare value, or a label and a value with a colon between
  them.  `Argument.parse` takes a text apart, `labelIn` compares the label with
  a list of names, and `list`, `integer` and `duration` read the value.
-/
import Cuelist.Decimal.Float
import Cuelist.Span
import Cuelist.Text.Blank
import Cuelist.Text.Split

namespace Cuelist

/-- An argument of a command. -/
structure Argument where
  /-- The argument as it was written. -/
  raw : String
  /-- What stands before the first colon, in lower case. -/
  label : Option String
  /-- What stands behind the label, or everything. -/
  value : String
deriving Repr, DecidableEq

namespace Argument

/-- An argument from its text.  What stands before the first colon is a label
    unless it is empty or has a blank in it. -/
def parse (raw : String) : Argument :=
  match Text.cut ':' raw.toList with
  | some (label, value) =>
    if label.isEmpty || label.any Text.isBlank then ⟨raw, none, raw⟩
    else ⟨raw, some (String.ofList (Text.lower label)), String.ofList value⟩
  | none => ⟨raw, none, raw⟩

/-- Whether the argument has a label. -/
def hasLabel (a : Argument) : Bool :=
  a.label.isSome

/-- Whether the label is one of the names, which are separated by commas; the
    case of ASCII letters does not count. -/
def labelIn (a : Argument) (names : String) : Bool :=
  match a.label with
  | some label =>
    (Text.splitOn ',' names.toList).any fun name =>
      Text.sameIgnoringAsciiCase (Text.trim name) label.toList
  | none => false

/-- The items of the value, which are separated by bars; the blanks around an
    item do not belong to it, and empty items are left out. -/
def list (a : Argument) : List String :=
  (((Text.splitOn '|' a.value.toList).map Text.trim).filter (!·.isEmpty)).map String.ofList

/-- The value as a whole number. -/
def integer (a : Argument) : Option Int :=
  Decimal.readInt64? (Text.trim a.value.toList)

end Argument

/-! ## Lengths of time -/

/-- The length of a tick. -/
def tickLength : Span := Span.ofMillis 50

/-- A number in front of a unit, and the unit in milliseconds; without a unit
    the number counts seconds. -/
def splitUnit (s : List Char) : List Char × Float :=
  match Text.before? ['m', 's'] s, Text.before? ['s'] s, Text.before? ['m'] s,
    Text.before? ['t'] s with
  | some number, _, _, _ => (number, 1)
  | none, some number, _, _ => (number, 1000)
  | none, none, some number, _ => (number, 60000)
  | none, none, none, some number => (number, tickLength.millis.toFloat)
  | none, none, none, none => (s, 1000)

/-- The length of time that a text such as `500ms`, `2s`, `1.5m`, `20t` or `3`
    writes, to the nearest millisecond.  What does not fit 64 bits is cut off at
    the largest number that does. -/
def readSpan? (text : String) : Option Span :=
  let (number, unit) := splitUnit (Text.asciiLower (Text.trim text.toList))
  (Decimal.read? (Text.trim number)).bind fun value =>
    if value.isFinite && value ≥ 0 then some (Span.ofMillis (value * unit).round.toUInt64.toNat)
    else none

/-- The value of an argument as a length of time. -/
def Argument.duration (a : Argument) : Option Span :=
  readSpan? a.value

end Cuelist
