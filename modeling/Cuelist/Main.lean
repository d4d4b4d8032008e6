/-
  The program.

  Files are read and changed and lines are printed here, each at its time; what
  to read, change and print is decided elsewhere.
-/
import Cuelist.CommandLine.Answer

namespace Cuelist.CommandLine

/-- What is at a path of the disk, if there is anything. -/
def diskNode? (path : String) : IO (Option FileNode) := do
  try
    return some (.file (← IO.FS.readBinFile path))
  catch
    | .noFileOrDirectory .. => return none
    | _ => return some .directory

/-- A file tree with what is at some paths of the disk. -/
def diskTree (paths : List String) : IO FileTree := do
  let mut t : FileTree := {}
  for path in paths do
    if let some n ← diskNode? path then
      let p := FilePath.ofText path
      t := match n with
        | .file content => t.plant p content
        | .directory => (t.perform (.makeDirectories p)).2
  return t

/-- Does a change on the disk. -/
def performOnDisk : FileOp → IO Unit
  | .makeDirectories p => if p.names.isEmpty then pure () else IO.FS.createDirAll p.render
  | .create p => IO.FS.writeBinFile p.render .empty
  | .append p bytes => IO.FS.withFile p.render .append fun h => h.write bytes
  -- A handle has no way to wait for the disk; all there is is to empty its buffer.
  | .sync p => IO.FS.withFile p.render .append fun h => h.flush
  | .rename source target => IO.FS.rename source.render target.render

/-- Saves settings on the disk. -/
def saveOnDisk (s : Settings) (path : String) : IO (Except SettingsError Unit) := do
  for op in s.savePlan (FilePath.ofText path) do
    try
      performOnDisk op
    catch e =>
      return .error (Settings.saveError path op e.toString)
  return .ok ()

/-- Prints lines, each at its time. -/
def printTimed (lines : List (Nat × String)) : IO Unit := do
  let mut now := 0
  for (time, line) in lines do
    if now < time then
      IO.sleep (UInt32.ofNat (time - now))
      now := time
    IO.println line

/-- Prints an answer; its code is the exit code of the program, if that ends. -/
def printAnswer (a : Answer) : IO UInt32 := do
  printTimed a.lines
  if let some message := a.error then
    IO.eprintln message
  while a.endless do
    IO.sleep 1000
  return UInt32.ofNat a.code

/-- Does what arguments ask for, on the disk. -/
def runOnDisk (arguments : List String) : IO UInt32 := do
  match Invocation.parse? arguments with
  | some (.init config interval quiet) =>
    printAnswer (initAnswer config (← saveOnDisk (initSettings interval quiet) config))
  | some i => printAnswer (answer (← diskTree i.reads) i).1
  | none => printAnswer .misused

end Cuelist.CommandLine

/-- Runs the program. -/
def main (arguments : List String) : IO UInt32 :=
  Cuelist.CommandLine.runOnDisk arguments
