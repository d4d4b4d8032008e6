/-
  Quoted texts.

  `quote` writes a text between double quotes, with escapes for the quote, the
  backslash, the controls and every character that has no printed form of its
  own or attaches to its neighbour.
-/
import Cuelist.Text.GraphicTable
import Cuelist.Text.CaseTable
import Cuelist.Text.Split

namespace Cuelist.Text

/-- The hexadecimal digits of a number, small letters, without leading zeros. -/
def hexDigits (n : Nat) : List Char :=
  Nat.toDigits 16 n

/-- Whether a character is shown as it is inside a quoted text. -/
def isGraphic (c : Char) : Bool :=
  if c.toNat < 0x7F then 0x20 ≤ c.toNat
  else !inRanges extendingRanges c.toNat && !inRanges fillerRanges c.toNat &&
    !inRanges nongraphicRanges c.toNat

/-- One character inside quotes. -/
def escapeChar (c : Char) : List Char :=
  if c = '\x00' then ['\\', '0']
  else if c = '\t' then ['\\', 't']
  else if c = '\r' then ['\\', 'r']
  else if c = '\n' then ['\\', 'n']
  else if c = '\\' ∨ c = '"' then ['\\', c]
  else if isGraphic c then [c]
  else ['\\', 'u', '\x7b'] ++ hexDigits c.toNat ++ ['\x7d']

/-- A text in double quotes. -/
def quote (s : String) : String :=
  String.ofList ('"' :: s.toList.flatMap escapeChar ++ ['"'])

/-- A list of texts, each quoted, in square brackets. -/
def quoteList (ss : List String) : String :=
  "[" ++ joinStrings ", " (ss.map quote) ++ "]"

end Cuelist.Text
