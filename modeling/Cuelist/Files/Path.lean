/-
  File paths.

  A path is a row of names; `..` among them leads back to the directory around.
  A path that ends in a slash or in `.` can only mean a directory.  The empty
  text spells a path to an empty name, which nothing has.
-/
import Cuelist.Text.Split

namespace Cuelist

/-- A path of a file tree. -/
structure FilePath where
  /-- Whether the path starts at the root of all, and not where the program
      works. -/
  isAbsolute : Bool
  names : List String
  /-- Whether the path is spelled so that it can only mean a directory. -/
  isDirectory : Bool
deriving Repr, DecidableEq

namespace FilePath

/-- The path that a text spells. -/
def ofText (text : String) : FilePath :=
  let pieces := (Text.splitOn '/' text.toList).map String.ofList
  if text.isEmpty then ⟨false, [""], false⟩
  else
    { isAbsolute := pieces.head? = some ""
      names := pieces.filter fun name => name ≠ "" ∧ name ≠ "."
      isDirectory := pieces.getLast?.all fun name => name = "" ∨ name = "." }

/-- The path without its last name. -/
def parent (p : FilePath) : FilePath := ⟨p.isAbsolute, p.names.dropLast, true⟩

/-- The part of a file name before its last dot; a dot in front does not count,
    and neither does the name without another dot. -/
def stem (name : String) : String :=
  match Text.cut '.' name.toList.reverse with
  | some (_, before) => if before.isEmpty then name else String.ofList before.reverse
  | none => name

/-- The path with another extension of its file name; one without a file name
    stays as it is.  The old extension is taken off first.  At the end of a path
    that leaves `..` of a name such as `..x`, which leads to the directory around
    and takes no extension. -/
def withExtension (p : FilePath) (extension : String) : FilePath :=
  match p.names.getLast? with
  | none => p
  | some name =>
    if name = ".." ∨ name = "" then p
    else if stem name = "." ∧ !p.isDirectory then
      ⟨p.isAbsolute, p.names.dropLast ++ [".."], false⟩
    else ⟨p.isAbsolute, p.names.dropLast ++ [stem name ++ "." ++ extension], false⟩

/-- The path as a text. -/
def render (p : FilePath) : String :=
  (if p.isAbsolute then "/" else "") ++ Text.joinStrings "/" p.names

end FilePath

end Cuelist
