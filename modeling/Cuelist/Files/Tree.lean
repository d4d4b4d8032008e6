/-
  Trees of files and directories.

  A place is the row of names that leads to it from the root, which is always a
  directory.  There are no links: each file is at one place, and no place stands
  for another.  `locate` follows a path through the directories that exist.

  A `FileOp` is one change of a tree; `perform` does it or fails.  A `Disk` may
  break changes off on its own account: `performOn` does a change on such a disk,
  and `performAll` does several in order, up to the first that fails.
-/
import Cuelist.Files.Path

namespace Cuelist

/-- What is at a place. -/
inductive FileNode where
  | directory
  | file (content : ByteArray)

/-- A tree of files and directories. -/
structure FileTree where
  /-- The places below the root and what is there. -/
  nodes : List (List String × FileNode) := []

/-- Why a file system refuses. -/
inductive FileError where
  | missing
  | notDirectory
  | isDirectory
  | occupied
  | nameTooLong
  | invalidName
  /-- The disk failed, and said why. -/
  | disk (message : String)
deriving Repr, DecidableEq

/-- The wording of the error. -/
def FileError.message : FileError → String
  | missing => "No such file or directory (os error 2)"
  | occupied => "File exists (os error 17)"
  | notDirectory => "Not a directory (os error 20)"
  | isDirectory => "Is a directory (os error 21)"
  | nameTooLong => "File name too long (os error 36)"
  | invalidName => "file name contained an unexpected NUL byte"
  | disk message => message

namespace FileTree

/-! ## Places -/

/-- What is at a place. -/
def node? (t : FileTree) (place : List String) : Option FileNode :=
  if place.isEmpty then some .directory else t.nodes.lookup place

/-- The tree with nothing at a place. -/
def erase (t : FileTree) (place : List String) : FileTree where
  nodes := t.nodes.filter fun p => p.1 != place

/-- The tree with something at a place. -/
def insert (t : FileTree) (place : List String) (n : FileNode) : FileTree where
  nodes := (place, n) :: (t.erase place).nodes

/-- The place that a name leads to from another place, which has to be a
    directory. -/
def enter (t : FileTree) (place : List String) (name : String) : Except FileError (List String) :=
  match t.node? place with
  | some .directory =>
    if name = "" then .error .missing
    else if name = ".." then .ok place.dropLast
    else if name.utf8ByteSize > 255 then .error .nameTooLong
    else .ok (place ++ [name])
  | some (.file _) => .error .notDirectory
  | none => .error .missing

/-- The place that names lead to from another place.  There may be nothing at the
    end, but all on the way has to be there. -/
def locateFrom (t : FileTree) (place : List String) : List String → Except FileError (List String)
  | [] => .ok place
  | name :: names => do locateFrom t (← t.enter place name) names

/-- Whether a path can be followed at all. -/
def checkNames (p : FilePath) : Except FileError Unit :=
  if p.names.any fun name => name.toList.contains '\x00' then .error .invalidName else .ok ()

/-- The place that a path leads to. -/
def locate (t : FileTree) (p : FilePath) : Except FileError (List String) := do
  checkNames p
  t.locateFrom [] p.names

/-- What is at the end of a path. -/
def find? (t : FileTree) (p : FilePath) : Option FileNode :=
  match t.locate p with
  | .error _ => none
  | .ok place => match t.node? place with
    | some (.file content) => if p.isDirectory then none else some (.file content)
    | found => found

/-- The content of the file at the end of a path. -/
def read (t : FileTree) (p : FilePath) : Except FileError ByteArray :=
  match t.find? p with
  | some (.file content) => .ok content
  | some .directory => .error .isDirectory
  | none => .error .missing

/-- The places of a tree as texts, in ascending order; those of directories end
    in a slash. -/
def listing (t : FileTree) : List String :=
  let line (p : List String × FileNode) : String :=
    Text.joinStrings "/" p.1 ++ match p.2 with
      | .directory => "/"
      | .file _ => ""
  (t.nodes.map line).mergeSort fun a b => !decide (b < a)

/-! ## Changes -/

/-- Makes the directories that names lead through, one inside the other. -/
def makeDirectories (t : FileTree) (place : List String) :
    List String → Except FileError Unit × FileTree
  | [] => (.ok (), t)
  | name :: names =>
    match t.enter place name with
    | .error e => (.error e, t)
    | .ok place => match t.node? place with
      | some .directory => makeDirectories t place names
      | some (.file _) => (.error .occupied, t)
      | none => makeDirectories (t.insert place .directory) place names

/-- Makes an empty file at the end of a path, or empties the one that is there. -/
def create (t : FileTree) (p : FilePath) : Except FileError FileTree := do
  let place ← t.locate p
  match t.node? place with
  | some .directory => .error .isDirectory
  | _ => if p.isDirectory then .error .isDirectory else .ok (t.insert place (.file .empty))

/-- Adds bytes to the file at the end of a path. -/
def append (t : FileTree) (p : FilePath) (bytes : ByteArray) : Except FileError FileTree := do
  let place ← t.locate p
  match t.node? place with
  | some (.file content) =>
    if p.isDirectory then .error .notDirectory
    else .ok (t.insert place (.file (content ++ bytes)))
  | some .directory => .error .isDirectory
  | none => .error .missing

/-- Puts a file with a content at the end of a path. -/
def write (t : FileTree) (p : FilePath) (content : ByteArray) : Except FileError FileTree := do
  (← t.create p).append p content

/-- Moves a file to the end of another path, where it replaces a file. -/
def rename (t : FileTree) (source target : FilePath) : Except FileError FileTree := do
  let place ← t.locate source
  match t.node? place with
  | some (.file content) =>
    if target.isDirectory then .error .notDirectory
    else
      let place' ← t.locate target
      match t.node? place' with
      | some .directory => .error .isDirectory
      | _ => .ok ((t.erase place).insert place' (.file content))
  | some .directory => .error .isDirectory
  | none => .error .missing

end FileTree

/-- A change of a file tree. -/
inductive FileOp where
  /-- Makes a directory and those around it, unless they are there. -/
  | makeDirectories (p : FilePath)
  /-- Makes an empty file, or empties the one that is there. -/
  | create (p : FilePath)
  /-- Adds bytes to a file. -/
  | append (p : FilePath) (bytes : ByteArray)
  /-- Waits until the disk has what was written to a file. -/
  | sync (p : FilePath)
  | rename (source target : FilePath)

/-- What is done of a change that breaks off: the first directories, or the first
    bytes.  A file is made, emptied or moved all at once or not at all, and what was
    written can be read whether or not the disk has it. -/
def FileOp.begun (reached : Nat) : FileOp → Option FileOp
  | makeDirectories p => some (.makeDirectories { p with names := p.names.take reached })
  | append p bytes => some (.append p (bytes.extract 0 reached))
  | create _ | sync _ | rename _ _ => none

/-- A failure of the disk during a change. -/
structure DiskFault where
  /-- How far the change gets: how many directories, or how many bytes. -/
  reached : Nat
  message : String
deriving Repr, DecidableEq

/-- A disk, with the failures that changes meet there. -/
structure Disk where
  fault? : FileOp → Option DiskFault

/-- A disk that never fails. -/
def Disk.sound : Disk := ⟨fun _ => none⟩

namespace FileTree

/-- The tree after a change that may fail. -/
def after (t : FileTree) : Except FileError FileTree → Except FileError Unit × FileTree
  | .ok t => (.ok (), t)
  | .error e => (.error e, t)

/-- Does a change.  Directories that were made before a failure stay. -/
def perform (t : FileTree) : FileOp → Except FileError Unit × FileTree
  | .makeDirectories p =>
    match checkNames p with
    | .ok () => t.makeDirectories [] p.names
    | .error e => (.error e, t)
  | .create p => t.after (t.create p)
  | .append p bytes => t.after (t.append p bytes)
  | .sync _ => (.ok (), t)
  | .rename source target => t.after (t.rename source target)

/-- Does a change on a disk that may break it off. -/
def performOn (disk : Disk) (t : FileTree) (op : FileOp) : Except FileError Unit × FileTree :=
  match disk.fault? op with
  | none => t.perform op
  | some fault => match op.begun fault.reached with
    | none => (.error (.disk fault.message), t)
    | some part => match t.perform part with
      | (.ok (), t) => (.error (.disk fault.message), t)
      | (.error e, t) => (.error e, t)

/-- Does changes in order, up to the first that fails. -/
def performAll (disk : Disk) (t : FileTree) :
    List FileOp → Except (FileOp × FileError) Unit × FileTree
  | [] => (.ok (), t)
  | op :: ops =>
    match t.performOn disk op with
    | (.ok (), t) => performAll disk t ops
    | (.error e, t) => (.error (op, e), t)

/-- The tree with a file at the end of a path, and the directories around it, as
    far as they can be made. -/
def plant (t : FileTree) (p : FilePath) (content : ByteArray) : FileTree :=
  (t.performAll .sound [.makeDirectories p.parent, .create p, .append p content]).2

end FileTree

end Cuelist
