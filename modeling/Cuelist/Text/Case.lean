/-
  Upper and lower case.

  `upper` and `lower` are the full mappings of Unicode: a character may become
  several (ß to SS), and a capital sigma that ends a word becomes ς.
  `asciiLower` and `sameIgnoringAsciiCase` know the 26 ASCII letters only.
-/
import Cuelist.Text.CaseTable

namespace Cuelist.Text

/-! ## ASCII -/

/-- The lower-case form of an ASCII capital; other characters stay. -/
def asciiLowerChar (c : Char) : Char :=
  if 'A' ≤ c ∧ c ≤ 'Z' then Char.ofNat (c.toNat + 32) else c

/-- The upper-case form of an ASCII small letter; other characters stay. -/
def asciiUpperChar (c : Char) : Char :=
  if 'a' ≤ c ∧ c ≤ 'z' then Char.ofNat (c.toNat - 32) else c

/-- A text with its ASCII capitals made small. -/
def asciiLower (s : List Char) : List Char :=
  s.map asciiLowerChar

/-- Whether two texts differ at most in the case of ASCII letters. -/
def sameIgnoringAsciiCase (s t : List Char) : Bool :=
  asciiLower s == asciiLower t

/-! ## Unicode -/

/-- The image of a code point under a list of shifts, if one covers it. -/
def shifted? (shifts : List Shift) (n : Nat) : Option Nat :=
  (shifts.find? (·.covers n)).map (·.target n)

/-- The upper-case form of one character. -/
def upperChar (c : Char) : List Char :=
  if c.toNat < 128 then [asciiUpperChar c]
  else match upperExpansions.lookup c.toNat with
    | some cs => cs.map Char.ofNat
    | none => match shifted? upperShifts c.toNat with
      | some n => [Char.ofNat n]
      | none => [c]

/-- The upper-case form of a text. -/
def upper (s : List Char) : List Char :=
  s.flatMap upperChar

/-- The lower-case form of one character, apart from its neighbours. -/
def lowerChar (c : Char) : List Char :=
  if c.toNat < 128 then [asciiLowerChar c]
  else if c = 'İ' then ['i', '\u0307']
  else match shifted? lowerShifts c.toNat with
    | some n => [Char.ofNat n]
    | none => [c]

/-- Whether a character is a letter with case. -/
def isCased (c : Char) : Bool :=
  inRanges casedRanges c.toNat

/-- Whether case rules look through a character. -/
def isCaseIgnorable (c : Char) : Bool :=
  inRanges caseIgnorableRanges c.toNat

/-- Whether the first character that case rules do not look through is a letter
    with case. -/
def meetsLetter (s : List Char) : Bool :=
  match s.dropWhile isCaseIgnorable with
  | c :: _ => isCased c
  | [] => false

/-- The lower-case form of what follows `before`, which is given in reverse: a
    capital sigma behind a letter and before none is final. -/
def lowerAfter (before : List Char) : List Char → List Char
  | [] => []
  | c :: rest =>
    let small :=
      if c = 'Σ' then [if meetsLetter before && !meetsLetter rest then 'ς' else 'σ']
      else lowerChar c
    small ++ lowerAfter (c :: before) rest

/-- The lower-case form of a text. -/
def lower (s : List Char) : List Char :=
  lowerAfter [] s

end Cuelist.Text
