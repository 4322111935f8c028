/-
**Files and directories.**

A file system is a finite table of files and directories by absolute path.  Every directory on the
way to an entry exists too.

Main definitions:

* `CandyCircle.Path`, `CandyCircle.Path.absolute` — paths, and the path that a text names;
* `CandyCircle.FileTree`, `CandyCircle.FileTree.entry?` — the table, and what stands at a path;
* `CandyCircle.FileTree.isFile` — whether a file stands at a path;
* `CandyCircle.FileTree.open?` — the bytes of the file that a text names.
-/

set_option autoImplicit false

namespace CandyCircle

/-- A path from the root: the names on the way. -/
abbrev Path := List String

namespace Path

/-- The parts of the text of a path. -/
def parts (s : String) : List String :=
  s.splitOn "/"

/-- The path one part further, by the text alone: two dots go up, one dot and nothing stay. -/
def descend (p : Path) (part : String) : Path :=
  if part == "" || part == "." then p
  else if part == ".." then p.dropLast
  else p ++ [part]

/-- The path that a text starts from: the root if it begins with a slash, else `here`. -/
def origin (here : Path) (s : String) : Path :=
  if s.startsWith "/" then [] else here

/-- The path that a text names, seen from `here`. -/
def absolute (here : Path) (s : String) : Path :=
  (parts s).foldl descend (origin here s)

/-- A path and all directories above it, from the path up to the root. -/
def upwards (p : Path) : List Path :=
  (List.range (p.length + 1)).map fun n => p.take (p.length - n)

end Path

/-- What stands at a path. -/
inductive Entry where
  /-- A file with its bytes. -/
  | file (bytes : List UInt8)
  /-- A directory. -/
  | directory

/-- A file system. -/
structure FileTree where
  /-- The entries by path; directories above an entry need not be listed. -/
  entries : List (Path × Entry)

namespace FileTree

/-- What stands at a path. -/
def entry? (t : FileTree) (p : Path) : Option Entry :=
  match t.entries.find? fun e => e.1 == p with
  | some e => some e.2
  | none =>
      if p.isEmpty || t.entries.any fun e => p.isPrefixOf e.1 then some .directory else none

/-- Whether a file stands at a path. -/
def isFile (t : FileTree) (p : Path) : Bool :=
  match t.entry? p with
  | some (.file _) => true
  | _ => false

/-- Whether a directory stands at a path. -/
def isDirectory (t : FileTree) (p : Path) : Bool :=
  match t.entry? p with
  | some .directory => true
  | _ => false

/-- The path one part further; the way leads only through directories. -/
def enter? (t : FileTree) (p : Path) (part : String) : Option Path :=
  if t.isDirectory p then some (p.descend part) else none

/-- The bytes of the file that a text names, seen from `here`. -/
def open? (t : FileTree) (here : Path) (s : String) : Option (List UInt8) := do
  let p ← (Path.parts s).foldlM t.enter? (Path.origin here s)
  match t.entry? p with
  | some (.file bytes) => some bytes
  | _ => none

end FileTree

end CandyCircle
