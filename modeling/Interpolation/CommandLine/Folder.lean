import Interpolation.Configuration.File

/-!
# Interpolation.CommandLine.Folder

**Folders in memory**: what a program finds when it reads a path, without a file system. A path is
followed part by part from the working folder, or from the root if it begins with a slash.

Design points:

* Every part but the last has to lead to a folder, and so does the last one if a slash follows it. A
  part that is empty or `.` stays where it is, and `..` leads one folder up.
* Names are at most 255 bytes long, paths less than 4096; longer ones are refused before anything
  is looked up under them.
* Outside of the working folder there is only what every system has: the null device,
  which is empty.
-/

namespace Interpolation.CommandLine

/-- A folder: the files in it and below it, each with the names that lead to it. -/
structure Folder where
  /-- The files and their bytes. -/
  files : List (List Text × List UInt8)

namespace Folder

/-- The folder with files under the given paths. Parts of a path that stay where they
are do not count. -/
def ofFiles (files : List (Text × List UInt8)) : Folder :=
  ⟨files.map fun f => ((f.1.splitOn '/').filter fun part => part ≠ [] ∧ part ≠ ['.'], f.2)⟩

/-- The bytes of the file that names lead to. -/
def file? (folder : Folder) (names : List Text) : Option (List UInt8) := folder.files.lookup names

/-- Do the names lead to a folder that holds a file? -/
def holdsFolder (folder : Folder) (names : List Text) : Bool :=
  folder.files.any fun f => names.isPrefixOf f.1 && names.length < f.1.length

end Folder

/-- Where a path leads. -/
inductive Place
  /-- To a file. -/
  | file (bytes : List UInt8)
  /-- To the working folder or a folder below it. -/
  | inner (names : List Text)
  /-- To a folder outside of the working folder. -/
  | outer (names : List Text)

/-- What there is outside of the working folder. -/
def outerFolder : Folder := ⟨[(["dev".toList, "null".toList], [])]⟩

/-- The greatest length of a name in bytes. -/
def nameLimit : Nat := 255

/-- Every path is shorter than this. -/
def pathLimit : Nat := 4096

namespace Place

/-- Look up a name among the files of a folder, after the names that lead to the place. -/
def lookUp (folder : Folder) (place : List Text → Place) (names : List Text) (name : Text) :
    Except ReadError Place :=
  if nameLimit < name.byteLength then .error .nameTooLong
  else match folder.file? (names ++ [name]) with
    | some bytes => .ok (.file bytes)
    | none =>
      if folder.holdsFolder (names ++ [name]) then .ok (place (names ++ [name]))
      else .error .notFound

/-- Follow one part of a path. -/
def follow (folder : Folder) (place : Place) (part : Text) : Except ReadError Place :=
  match place with
  | .file _ => .error .notDirectory
  | .inner names =>
    if part = [] ∨ part = ['.'] then .ok place
    else if part = ['.', '.'] then .ok (if names = [] then .outer [] else .inner names.dropLast)
    else lookUp folder .inner names part
  | .outer names =>
    if part = [] ∨ part = ['.'] then .ok place
    else if part = ['.', '.'] then .ok (.outer names.dropLast)
    else lookUp outerFolder .outer names part

end Place

/-- Read the file that a path leads to. -/
def Folder.read (folder : Folder) (path : Text) : Except ReadError (List UInt8) :=
  if path = [] then .error .notFound
  else if pathLimit ≤ path.byteLength then .error .nameTooLong
  else do
    let start : Place := if path.head? = some '/' then .outer [] else .inner []
    match ← (path.splitOn '/').foldlM (Place.follow folder) start with
    | .file bytes => return bytes
    | _ => .error .isDirectory

end Interpolation.CommandLine
