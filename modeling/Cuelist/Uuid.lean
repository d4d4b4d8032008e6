/-
  Identifiers of 128 bits.

  A `Uuid` is written with 32 small hexadecimal digits and four hyphens.  It is
  read from that form with digits of either case, from the digits alone, from
  the form in braces and from the form behind `urn:uuid:` in any ASCII case.
-/
import Cuelist.Text.Case
import Cuelist.Text.Split

namespace Cuelist

/-- An identifier; below 2¹²⁸. -/
structure Uuid where
  number : Nat
deriving Repr, DecidableEq, Inhabited

namespace Uuid

/-! ## Writing -/

/-- The lowest `n` hexadecimal digits of a number, in front of `rest`. -/
def hexPadded : (n number : Nat) → (rest : List Char) → List Char
  | 0, _, rest => rest
  | n + 1, number, rest => hexPadded n (number / 16) (Nat.digitChar (number % 16) :: rest)

/-- The text of an identifier: groups of 8, 4, 4, 4 and 12 digits. -/
def render (u : Uuid) : String :=
  let digits := hexPadded 32 u.number []
  let group (start length : Nat) := (digits.drop start).take length
  String.ofList (Text.joinWith ['-'] [group 0 8, group 8 4, group 12 4, group 16 4, group 20 12])

/-! ## Reading -/

/-- The value of a hexadecimal digit. -/
def hexValue? (c : Char) : Option Nat :=
  if '0' ≤ c ∧ c ≤ '9' then some (c.toNat - '0'.toNat)
  else if 'a' ≤ c ∧ c ≤ 'f' then some (c.toNat - 'a'.toNat + 10)
  else if 'A' ≤ c ∧ c ≤ 'F' then some (c.toNat - 'A'.toNat + 10)
  else none

/-- The identifier that 32 hexadecimal digits write. -/
def ofDigits? (digits : List Char) : Option Uuid :=
  if digits.length = 32 then
    (digits.mapM hexValue?).map fun values => ⟨values.foldl (fun n d => 16 * n + d) 0⟩
  else none

/-- The identifier that groups of 8, 4, 4, 4 and 12 digits write. -/
def ofGroups? (s : List Char) : Option Uuid :=
  let groups := Text.splitOn '-' s
  if groups.map List.length = [8, 4, 4, 4, 12] then ofDigits? groups.flatten else none

/-- The form without braces or the name of its scheme. -/
def unwrapped (s : List Char) : List Char :=
  if Text.sameIgnoringAsciiCase (s.take 9) "urn:uuid:".toList then s.drop 9
  else match Text.after? ['\x7b'] s with
    | some rest => (Text.before? ['\x7d'] rest).getD s
    | none => s

/-- The identifier that a text writes, in any of its forms. -/
def read? (text : String) : Option Uuid :=
  let s := text.toList
  (ofDigits? s).orElse fun _ => ofGroups? (unwrapped s)

end Uuid

end Cuelist
