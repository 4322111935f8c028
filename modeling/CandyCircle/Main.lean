/-
**The program.**

Reads the arguments, the settings files that they can lead to, and the kind of terminal; runs the
line; prints what it leads to.

Main definitions:

* `main` — the program.
-/
import CandyCircle.CommandLine

set_option autoImplicit false

namespace CandyCircle.Program

open CommandLine

/-- The bytes of a file, if it can be read. -/
def bytes? (name : String) : IO (Option (List UInt8)) := do
  try
    return some (← IO.FS.readBinFile name).toList
  catch _ =>
    return none

/-- A path from the root as text. -/
def pathText (p : Path) : String :=
  "/" ++ String.intercalate "/" p

/-- The settings files in a directory and above it. -/
def nearbyFiles (here : Path) : IO (List (Path × Entry)) := do
  let mut entries := [(here, Entry.directory)]
  for directory in Path.upwards here do
    for name in Settings.fileNames do
      let path := directory ++ [name]
      match ← bytes? (pathText path) with
      | some bytes => entries := entries ++ [(path, .file bytes)]
      | none => pure ()
  return entries

/-- The paths on the way to a file, and the path of the file, seen from a directory. -/
def wayTo (here : Path) (name : String) : List Path × Path :=
  (Path.parts name).foldl (fun (passed, path) part => (passed ++ [path], path.descend part))
    ([], Path.origin here name)

/-- The file that a text names, with the directories on the way to it. -/
def namedFile (here : Path) (name : String) : IO (List (Path × Entry)) := do
  match ← bytes? name with
  | none => return []
  | some bytes =>
      let (passed, path) := wayTo here name
      return passed.map (·, Entry.directory) ++ [(path, .file bytes)]

/-- The settings file that a line names. -/
def fileOf? (line : List (List CodePoint)) : Option String :=
  match read line with
  | .ok (some (.prove wishes)) => wishes.fileName.toOption.join.map CodePoint.toText
  | .ok (some (.witness _ _ wishes)) => wishes.fileName.toOption.join.map CodePoint.toText
  | _ => none

/-- What surrounds the program. -/
def surroundings (line : List (List CodePoint)) : IO Surroundings := do
  let here := Path.absolute [] (← IO.currentDir).toString
  let named ← match fileOf? line with
    | some name => namedFile here name
    | none => pure []
  let nearby ← nearbyFiles here
  let colourless := (← IO.getEnv "NO_COLOR").isSome || !(← (← IO.getStdout).isTty)
  return { tree := ⟨named ++ nearby⟩
           here
           terminal := if colourless then .plain else .coloured
           solver := .decided }

/-- Prints what a line leads to, and gives the exit code. -/
def report : Outcome → IO UInt32
  | .done code output log => do
      log.forM fun e => IO.eprintln (e.line levelWidth)
      IO.print output
      return code.toUInt32
  | .misused about fault => do
      IO.eprintln (programName about ++ ": error: " ++ CodePoint.toText fault.message)
      return 2
  | .failed failure => do
      IO.eprintln failure.message
      return 1

end CandyCircle.Program

/-- The program. -/
def main (args : List String) : IO UInt32 := do
  let line := args.map CandyCircle.CodePoint.ofString
  CandyCircle.Program.report
    (CandyCircle.CommandLine.run (← CandyCircle.Program.surroundings line) line)
