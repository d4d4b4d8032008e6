/-
  Floating-point numbers in decimal.

  `read?` accepts a sign, digits with an optional point, and an optional
  exponent, and takes the nearest number; the words for infinity and for no
  number are read too.  `render` writes the fewest digits that read back to the
  same number, always positionally: of two equally short candidates the closer
  one, and on an exact tie the larger.
-/
import Cuelist.Decimal.Numeral
import Cuelist.Text.Case

namespace Cuelist.Decimal

/-! ## Reading -/

/-- The number `digits · 10 ^ exponent`, rounded to the nearest.  Beyond the
    ends of the number range the digits do not matter. -/
def nearest (digits : Nat) (exponent : Int) : Float :=
  let scale := (Nat.toDigits 10 digits).length + exponent
  if digits = 0 ∨ scale < -330 then 0
  else if scale > 310 then 1 / 0
  else Float.ofScientific digits (exponent < 0) exponent.natAbs

/-- An exponent part, or nothing, up to the end of the text. -/
def readExponent? : List Char → Option Int
  | [] => some 0
  | c :: rest =>
    if c = 'e' ∨ c = 'E' then
      match rest with
      | '-' :: digits => (readNat? digits).map fun n => -(n : Int)
      | '+' :: digits => (readNat? digits).map fun n => (n : Int)
      | digits => (readNat? digits).map fun n => (n : Int)
    else none

/-- A number without a sign. -/
def readMagnitude? (s : List Char) : Option Float :=
  let word := Text.asciiLower s
  if word = "inf".toList ∨ word = "infinity".toList then some (1 / 0)
  else if word = "nan".toList then some (0 / 0)
  else
    let whole := s.takeWhile isDigit
    let rest := s.dropWhile isDigit
    let (part, rest) := match rest with
      | '.' :: rest => (rest.takeWhile isDigit, rest.dropWhile isDigit)
      | rest => ([], rest)
    if whole.isEmpty && part.isEmpty then none
    else (readExponent? rest).map fun e =>
      nearest (value (whole ++ part)) (e - part.length)

/-- A number with an optional sign. -/
def read? : List Char → Option Float
  | '-' :: rest => (readMagnitude? rest).map fun x => -x
  | '+' :: rest => readMagnitude? rest
  | s => readMagnitude? s

/-! ## Writing -/

/-- A finite number without its sign: `mantissa · 2 ^ exponent`. -/
structure Binary where
  mantissa : Nat
  exponent : Int
  /-- The gap to the number below is half the gap to the number above. -/
  narrowBelow : Bool

/-- The finite number with the given bits, without its sign. -/
def Binary.ofBits (bits : UInt64) : Binary :=
  let hidden := Nat.pow 2 52
  let e : Nat := (bits.toNat / hidden) % Nat.pow 2 11
  let f : Nat := bits.toNat % hidden
  if e = 0 then ⟨f, -1074, false⟩ else ⟨hidden + f, (e : Int) - 1075, f == 0 && 1 < e⟩

/-- Compares `a · 10 ^ i` with `n · 2 ^ j`. -/
def compareScaled (a : Nat) (i : Int) (n : Nat) (j : Int) : Ordering :=
  compare (a * Nat.pow 10 i.toNat * Nat.pow 2 (-j).toNat)
    (n * Nat.pow 2 j.toNat * Nat.pow 10 (-i).toNat)

/-- Whether `digits · 10 ^ e` lies among the values that round to the number. -/
def Binary.readsBack (x : Binary) (digits : Nat) (e : Int) : Bool :=
  let below := if x.narrowBelow then 4 * x.mantissa - 1 else 4 * x.mantissa - 2
  let above := 4 * x.mantissa + 2
  let closed := x.mantissa % 2 == 0
  let low := compareScaled digits e below (x.exponent - 2)
  let high := compareScaled digits e above (x.exponent - 2)
  (low == .gt || (closed && low == .eq)) && (high == .lt || (closed && high == .eq))

/-- The least `k` such that the number is below `10 ^ k`, from an estimate by
    the binary logarithm. -/
def Binary.scale (x : Binary) : Int :=
  let estimate := Int.fdiv ((x.mantissa.log2 + x.exponent) * 30103) 100000
  let isAbove (k : Int) : Bool := compareScaled 1 k x.mantissa x.exponent == .gt
  if isAbove estimate then estimate
  else if isAbove (estimate + 1) then estimate + 1
  else estimate + 2

/-- The number of the grid of step `10 ^ e` that is nearest to `x` among the two
    neighbours of `x` that read back, if one does. -/
def Binary.onGrid? (x : Binary) (e : Int) : Option (Nat × Int) :=
  let num := x.mantissa * Nat.pow 2 x.exponent.toNat * Nat.pow 10 (-e).toNat
  let den := Nat.pow 2 (-x.exponent).toNat * Nat.pow 10 e.toNat
  let lower := num / den
  let upper := lower + 1
  match x.readsBack lower e, x.readsBack upper e with
  | true, true => if 2 * num < (lower + upper) * den then some (lower, e) else some (upper, e)
  | true, false => some (lower, e)
  | false, true => some (upper, e)
  | false, false => none

/-- Moves the factors ten of the digits into the exponent. -/
def stripZeros (digits : Nat) (e : Int) : Nat × Int :=
  if digits ≠ 0 ∧ digits % 10 = 0 then stripZeros (digits / 10) (e + 1) else (digits, e)
termination_by digits
decreasing_by omega

/-- The fewest digits that read back to a number other than zero, and their
    power of ten. -/
def Binary.shortest (x : Binary) : Nat × Int :=
  let k := x.scale
  let found := (List.range 17).findSome? fun (n : Nat) => x.onGrid? (k - (n + 1))
  let whole := x.mantissa * Nat.pow 2 x.exponent.toNat
  let exact := (whole * Nat.pow 5 (-x.exponent).toNat, min x.exponent 0)
  let (digits, e) := found.getD exact
  stripZeros digits e

/-- Digits times a power of ten, written with a point and without an exponent. -/
def positional (digits : Nat) (e : Int) : List Char :=
  let ds := Nat.toDigits 10 digits
  if 0 ≤ e then ds ++ List.replicate e.toNat '0'
  else
    let places := (-e).toNat
    let padded := List.replicate (places + 1 - ds.length) '0' ++ ds
    let split := padded.length - places
    padded.take split ++ '.' :: padded.drop split

/-- A number in decimal. -/
def render (x : Float) : String :=
  if x.isNaN then "NaN"
  else
    let sign := if x.toBits.toNat < Nat.pow 2 63 then "" else "-"
    if x.isInf then sign ++ "inf"
    else
      let b := Binary.ofBits x.toBits
      if b.mantissa = 0 then sign ++ "0"
      else
        let (digits, e) := b.shortest
        sign ++ String.ofList (positional digits e)

end Cuelist.Decimal
