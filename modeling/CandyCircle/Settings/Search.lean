/-
**Looking for a settings file.**

The settings file is looked for in a directory, then in the directory above it, and so on up to the
root; in each directory the preferred name comes first.  A file that cannot be opened, or does not
hold a JSON object, leaves the settings at their defaults.

Main definitions:

* `CandyCircle.Settings.fileNames` — the names of settings files, the preferred one first;
* `CandyCircle.FileTree.findSettings` — the nearest settings file;
* `CandyCircle.Settings.ofBytes`, `CandyCircle.Settings.load` — the settings that a file stands
  for, and the settings of a run.
-/
import CandyCircle.Data.Parser
import CandyCircle.Failure
import CandyCircle.Settings.FileTree

set_option autoImplicit false

namespace CandyCircle

/-- The names of settings files, the preferred one first. -/
def Settings.fileNames : List String :=
  [".candyproofrc.json", "candyproof.config.json"]

/-- The settings file of a directory. -/
def FileTree.settingsIn? (t : FileTree) (directory : Path) : Option Path :=
  (Settings.fileNames.map fun name => directory ++ [name]).find? t.isFile

/-- The nearest settings file, going up from a directory to the root. -/
def FileTree.findSettings (t : FileTree) (start : Path) : Option Path :=
  (Path.upwards start).findSome? t.settingsIn?

namespace Settings

/-- The settings that the bytes of a file stand for: what is not a JSON object stands for the
defaults. -/
def ofBytes (bytes : List UInt8) : Except Failure Settings :=
  match Text.Utf8.decode bytes with
  | .error fault => .error (.notText fault)
  | .ok text =>
      match Data.ofJson text with
      | .error .malformed => .ok {}
      | .error (.tooManyDigits count) => .error (.hugeNumeral count)
      | .error (.tooDeep kind) => .error (.tooDeep kind)
      | .ok data =>
          match data with
          | .object _ => (ofFields data).mapError .settings
          | _ => .ok {}

/-- The settings of a run: those of the named file, else of the nearest one from `start` on, else
the defaults. -/
def load (t : FileTree) (here : Path) (file : Option (List CodePoint)) (start : String) :
    Except Failure Settings :=
  match file with
  | some name =>
      match Text.Utf8.nameFault? name with
      | some fault => .error (.badName fault)
      | none =>
          if name.contains (.scalar '\x00') then .error .nullInName
          else
            match t.open? here (CodePoint.toText name) with
            | some bytes => ofBytes bytes
            | none => .ok {}
  | none =>
      match t.findSettings (Path.absolute here start) with
      | none => .ok {}
      | some path =>
          match t.entry? path with
          | some (.file bytes) => ofBytes bytes
          | _ => .ok {}

end Settings

end CandyCircle
