/-
  Whole numbers in decimal.

  `readNat?` reads a non-empty row of ASCII digits; `readInt64?` reads a signed
  whole number of 64 bits, `readUInt64?` an unsigned one.  Both accept a plus
  sign.
-/
namespace Cuelist.Decimal

/-- Whether a character is one of the ten ASCII digits. -/
def isDigit (c : Char) : Bool :=
  '0' ≤ c && c ≤ '9'

/-- The value of a row of digits, after `n`. -/
def valueFrom (n : Nat) (digits : List Char) : Nat :=
  digits.foldl (fun n c => 10 * n + (c.toNat - 48)) n

/-- The value of a row of digits. -/
def value (digits : List Char) : Nat :=
  valueFrom 0 digits

/-- The number that a non-empty row of digits writes. -/
def readNat? (s : List Char) : Option Nat :=
  if s.isEmpty || !s.all isDigit then none else some (value s)

/-- Whether a whole number fits 64 bits with a sign. -/
def fitsInt64 (n : Int) : Bool :=
  -Int.pow 2 63 ≤ n && n < Int.pow 2 63

/-- A whole number of 64 bits with an optional sign. -/
def readInt64? (s : List Char) : Option Int :=
  let n? : Option Int := match s with
    | '-' :: digits => (readNat? digits).map fun n => -(n : Int)
    | '+' :: digits => (readNat? digits).map fun n => (n : Int)
    | digits => (readNat? digits).map fun n => (n : Int)
  n?.filter fitsInt64

/-- A natural number below 2⁶⁴ with an optional plus sign. -/
def readUInt64? (s : List Char) : Option Nat :=
  let n? := match s with
    | '+' :: digits => readNat? digits
    | digits => readNat? digits
  n?.filter (· < Nat.pow 2 64)

end Cuelist.Decimal
