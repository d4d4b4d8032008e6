/-
  Settings in files.

  `savePlan` lists the changes by which settings are saved: the directories around
  the file are made, then a file beside it with the extension `tmp`, which is
  written, left to the disk and moved to its place.  `saveOn` makes the changes on
  a disk that may fail at each of them, `save` on one that does not; `load` reads
  settings back.
-/
import Cuelist.Files.Tree
import Cuelist.Json.Reader
import Cuelist.Settings

namespace Cuelist.Settings

/-- The file for settings if nothing else is said. -/
def standardFile : String := "cadence.json"

/-- The text of a settings file. -/
def fileText (s : Settings) : String :=
  s.toJson.pretty

/-- The changes by which settings are saved at a path. -/
def savePlan (s : Settings) (path : FilePath) : List FileOp :=
  let side := path.withExtension "tmp"
  [.makeDirectories path.parent, .create side, .append side s.fileText.toUTF8, .sync side,
    .rename side path]

/-- The error of a change that failed while settings were saved, with the words of
    the file system. -/
def saveError (path : String) (op : FileOp) (detail : String) : SettingsError :=
  match op with
  | .rename _ _ => .replaceFailed path detail
  | .makeDirectories _ | .create _ | .append _ _ | .sync _ => .io detail

/-- Saves settings at a path, on a disk that may fail. -/
def saveOn (s : Settings) (disk : Disk) (path : String) (t : FileTree) :
    Except SettingsError Unit × FileTree :=
  let (result, t) := t.performAll disk (s.savePlan (FilePath.ofText path))
  (result.mapError fun (op, e) => saveError path op e.message, t)

/-- Saves settings at a path. -/
def save (s : Settings) (path : String) (t : FileTree) : Except SettingsError Unit × FileTree :=
  s.saveOn .sound path t

/-- Settings from the content of a file. -/
def ofContent (content : ByteArray) : Except SettingsError Settings :=
  match (Json.readBytes? content).bind ofJson? with
  | some s => .ok s
  | none => .error (.json "no settings")

/-- Loads the settings at a path. -/
def load (path : String) (t : FileTree) : Except SettingsError Settings :=
  let p := FilePath.ofText path
  match t.find? p with
  | none => .error (.notFound path)
  | some .directory => .error (.io FileError.isDirectory.message)
  | some (.file content) => ofContent content

end Cuelist.Settings
