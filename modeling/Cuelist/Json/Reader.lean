/-
  Reading JSON.

  A text is read as a row of glyphs: characters, and bytes that belong to no
  character, which may stand inside strings only.  `read?` accepts exactly one
  value between blanks.  A string with half of a surrogate pair or with a stray
  byte is well formed but stands for no text.
-/
import Cuelist.Json.Tree
import Cuelist.Decimal.Numeral

namespace Cuelist.Json

/-- One unit of a text: a character, or a byte that belongs to none. -/
inductive Glyph where
  | char (c : Char)
  | stray (byte : UInt8)

/-! ## Glyphs of texts and bytes -/

/-- The glyphs of a text. -/
def glyphs (s : List Char) : List Glyph :=
  s.map .char

/-- The glyphs of bytes from a position on, at most `fuel` of them. -/
def glyphsFrom (bytes : ByteArray) : (fuel position : Nat) → List Glyph
  | 0, _ => []
  | fuel + 1, i =>
    if h : i < bytes.size then
      match bytes.utf8DecodeChar? i with
      | some c => .char c :: glyphsFrom bytes fuel (i + c.utf8Size)
      | none => .stray bytes[i] :: glyphsFrom bytes fuel (i + 1)
    else []

/-- The glyphs of bytes. -/
def glyphsOfBytes (bytes : ByteArray) : List Glyph :=
  match String.fromUTF8? bytes with
  | some s => glyphs s.toList
  | none => glyphsFrom bytes bytes.size 0

/-! ## Pieces of values -/

/-- The rest of a text behind its leading blanks. -/
def skipBlanks : List Glyph → List Glyph
  | .char ' ' :: rest => skipBlanks rest
  | .char '\n' :: rest => skipBlanks rest
  | .char '\r' :: rest => skipBlanks rest
  | .char '\t' :: rest => skipBlanks rest
  | rest => rest

/-- The rest of a text behind a given word. -/
def skipWord : (word : List Char) → List Glyph → Option (List Glyph)
  | [], rest => some rest
  | c :: word, .char d :: rest => if c = d then skipWord word rest else none
  | _ :: _, _ => none

/-- The value of a hexadecimal digit. -/
def hexValue? (c : Char) : Option Nat :=
  if '0' ≤ c ∧ c ≤ '9' then some (c.toNat - 48)
  else if 'a' ≤ c ∧ c ≤ 'f' then some (c.toNat - 87)
  else if 'A' ≤ c ∧ c ≤ 'F' then some (c.toNat - 55)
  else none

/-- The value of four hexadecimal digits. -/
def hex4? (a b c d : Char) : Option Nat := do
  return ((← hexValue? a) * 16 + (← hexValue? b)) * 256 + ((← hexValue? c) * 16 + (← hexValue? d))

/-- One unit of the inside of a string: a character, a 16-bit unit given by its
    number, or a stray byte. -/
inductive Unit16 where
  | char (c : Char)
  | unit (n : Nat)
  | stray

/-- The units of a string up to its closing quote, and the rest of the text. -/
def stringUnits? : List Glyph → Option (List Unit16 × List Glyph)
  | [] => none
  | .stray _ :: rest => (stringUnits? rest).map fun p => (.stray :: p.1, p.2)
  | .char '"' :: rest => some ([], rest)
  | .char '\\' :: .char 'u' :: .char a :: .char b :: .char c :: .char d :: rest =>
    match hex4? a b c d with
    | some n => (stringUnits? rest).map fun p => (.unit n :: p.1, p.2)
    | none => none
  | .char '\\' :: .char c :: rest =>
    let meaning := match c with
      | '"' => some '"'
      | '\\' => some '\\'
      | '/' => some '/'
      | 'b' => some '\x08'
      | 'f' => some '\x0c'
      | 'n' => some '\n'
      | 'r' => some '\r'
      | 't' => some '\t'
      | _ => none
    match meaning with
    | some m => (stringUnits? rest).map fun p => (.char m :: p.1, p.2)
    | none => none
  | .char '\\' :: _ => none
  | .char c :: rest =>
    if c.toNat < 0x20 then none else (stringUnits? rest).map fun p => (.char c :: p.1, p.2)

/-- The text that units stand for; a surrogate has to be one of a pair. -/
def textOfUnits? : List Unit16 → Option (List Char)
  | [] => some []
  | .char c :: rest => (textOfUnits? rest).map (c :: ·)
  | .stray :: _ => none
  | .unit high :: .unit low :: rest =>
    if 0xD800 ≤ high ∧ high < 0xDC00 then
      if 0xDC00 ≤ low ∧ low < 0xE000 then
        (textOfUnits? rest).map
          (Char.ofNat (0x10000 + (high - 0xD800) * 0x400 + (low - 0xDC00)) :: ·)
      else none
    else if 0xDC00 ≤ high ∧ high < 0xE000 then none
    else (textOfUnits? (.unit low :: rest)).map (Char.ofNat high :: ·)
  | .unit n :: rest =>
    if 0xD800 ≤ n ∧ n < 0xE000 then none else (textOfUnits? rest).map (Char.ofNat n :: ·)

/-- A string behind its opening quote. -/
def readString? (s : List Glyph) : Option (Option String × List Glyph) :=
  (stringUnits? s).map fun p => ((textOfUnits? p.1).map String.ofList, p.2)

/-- The leading digits of a text and what follows them. -/
def spanDigits : List Glyph → List Char × List Glyph
  | .char c :: rest =>
    if Decimal.isDigit c then
      let (ds, rest) := spanDigits rest
      (c :: ds, rest)
    else ([], .char c :: rest)
  | rest => ([], rest)

/-- The part of a number behind the point, with the point. -/
def readFraction? : List Glyph → Option (List Char × List Glyph)
  | .char '.' :: rest =>
    match spanDigits rest with
    | ([], _) => none
    | (ds, rest) => some ('.' :: ds, rest)
  | rest => some ([], rest)

/-- An exponent behind its letter `e`: a sign, if there is one, and digits. -/
def readPower? (e : Char) : List Glyph → Option (List Char × List Glyph)
  | .char '+' :: rest => digits ['+'] rest
  | .char '-' :: rest => digits ['-'] rest
  | rest => digits [] rest
where
  digits (sign : List Char) (rest : List Glyph) : Option (List Char × List Glyph) :=
    match spanDigits rest with
    | ([], _) => none
    | (ds, rest) => some (e :: sign ++ ds, rest)

/-- The exponent of a number, if it has one. -/
def readExponent? : List Glyph → Option (List Char × List Glyph)
  | .char 'e' :: rest => readPower? 'e' rest
  | .char 'E' :: rest => readPower? 'E' rest
  | rest => some ([], rest)

/-- The digits of a number before the point: a zero alone, or digits that do not
    start with zero. -/
def readWhole? (s : List Glyph) : Option (List Char × List Glyph) :=
  match spanDigits s with
  | ([], _) => none
  | (['0'], rest) => some (['0'], rest)
  | ('0' :: _, _) => none
  | (ds, rest) => some (ds, rest)

/-- A number, as it is spelled. -/
def readNumber? (s : List Glyph) : Option (List Char × List Glyph) := do
  let (sign, s) := match s with
    | .char '-' :: rest => (['-'], rest)
    | rest => ([], rest)
  let (whole, s) ← readWhole? s
  let (fraction, s) ← readFraction? s
  let (exponent, s) ← readExponent? s
  return (sign ++ whole ++ fraction ++ exponent, s)

/-! ## Values -/

mutual

/-- A value and the rest of the text. -/
def readValue? : (fuel : Nat) → List Glyph → Option (Json × List Glyph)
  | 0, _ => none
  | fuel + 1, s =>
    match skipBlanks s with
    | .char 'n' :: rest => (skipWord "ull".toList rest).map fun r => (.null, r)
    | .char 't' :: rest => (skipWord "rue".toList rest).map fun r => (.bool true, r)
    | .char 'f' :: rest => (skipWord "alse".toList rest).map fun r => (.bool false, r)
    | .char '"' :: rest => (readString? rest).map fun p => (.string p.1, p.2)
    | .char '[' :: rest =>
      match skipBlanks rest with
      | .char ']' :: rest => some (.array [], rest)
      | rest => (readItems? fuel rest).map fun p => (.array p.1, p.2)
    | .char '\x7b' :: rest =>
      match skipBlanks rest with
      | .char '\x7d' :: rest => some (.object [], rest)
      | rest => (readMembers? fuel rest).map fun p => (.object p.1, p.2)
    | rest => (readNumber? rest).map fun p => (.number p.1, p.2)

/-- The items of an array, up to its closing bracket. -/
def readItems? : (fuel : Nat) → List Glyph → Option (List Json × List Glyph)
  | 0, _ => none
  | fuel + 1, s => do
    let (v, s) ← readValue? fuel s
    match skipBlanks s with
    | .char ',' :: rest => (readItems? fuel rest).map fun p => (v :: p.1, p.2)
    | .char ']' :: rest => some ([v], rest)
    | _ => none

/-- The members of an object, up to its closing brace. -/
def readMembers? : (fuel : Nat) → List Glyph → Option (List (Option String × Json) × List Glyph)
  | 0, _ => none
  | fuel + 1, s =>
    match skipBlanks s with
    | .char '"' :: rest => do
      let (name, s) ← readString? rest
      match skipBlanks s with
      | .char ':' :: rest => do
        let (v, s) ← readValue? fuel rest
        match skipBlanks s with
        | .char ',' :: rest => (readMembers? fuel rest).map fun p => ((name, v) :: p.1, p.2)
        | .char '\x7d' :: rest => some ([(name, v)], rest)
        | _ => none
      | _ => none
    | _ => none

end

/-- The value that a text holds between blanks, if it holds exactly one.  A step
    into a value, an item or a member passes at least one glyph, so the fuel
    suffices. -/
def readGlyphs? (s : List Glyph) : Option Json :=
  match readValue? (2 * s.length + 2) s with
  | some (v, rest) => if (skipBlanks rest).isEmpty then some v else none
  | none => none

/-- The value that a text holds. -/
def read? (s : String) : Option Json :=
  readGlyphs? (glyphs s.toList)

/-- The value that bytes hold. -/
def readBytes? (bytes : ByteArray) : Option Json :=
  readGlyphs? (glyphsOfBytes bytes)

end Cuelist.Json
