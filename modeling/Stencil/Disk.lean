import Stencil.Error

/-!
A working directory with files in it, and reading a path relative to it. Nothing outside the
directory is there to be read.
-/

namespace Stencil

structure Disk where
  directories : List (List String) := []
  files : List (List String × List UInt8) := []

namespace Disk

def names (path : String) : List String :=
  ((path.split '/').toList.map (·.toString)).filter fun s => s != "" && s != "."

/-- The place that a path names: two points take back the name before them. -/
def place (path : String) : List String :=
  (names path).foldl (fun done name => if name == ".." then done.dropLast else done ++ [name]) []

def makeDirectory (d : Disk) (path : String) : Disk :=
  { d with directories := d.directories ++ [place path] }

def writeFile (d : Disk) (path : String) (bytes : List UInt8) : Disk :=
  { d with files := (place path, bytes) :: d.files }

/-- Directories stand where one was made, and above every directory and file. -/
def isDirectory (d : Disk) (place : List String) : Bool :=
  place.isEmpty || d.directories.any (fun p => place.isPrefixOf p) ||
    d.files.any fun (p, _) => place.isPrefixOf p && p != place

def nameLimit : Nat := 255

def pathLimit : Nat := 4095

/-- Walks on from a place by the parts of a path. Every part but the last has to be a directory,
and an empty part or a point stands for the place itself. -/
def walk (d : Disk) : List String → List String → Except FileError (List String)
  | place, [] => .ok place
  | place, part :: rest =>
    if !d.isDirectory place then
      .error (if (d.files.lookup place).isSome then .notDirectory else .notFound)
    else if part == "" || part == "." then walk d place rest
    else if part == ".." then
      if place.isEmpty then .error .notFound else walk d place.dropLast rest
    else if nameLimit < part.utf8ByteSize then .error .nameTooLong
    else walk d (place ++ [part]) rest

def read (d : Disk) (path : String) : Except FileError String :=
  if path.contains (Char.ofNat 0) then .error .nulInName
  else if pathLimit < path.utf8ByteSize then .error .nameTooLong
  else if path.startsWith "/" || path.isEmpty then .error .notFound
  else do
    let place ← d.walk [] ((path.split '/').toList.map (·.toString))
    if d.isDirectory place then throw .isDirectory
    match d.files.lookup place with
    | none => throw .notFound
    | some bytes =>
      match String.fromUTF8? ⟨bytes.toArray⟩ with
      | some text => pure text
      | none => throw .notUtf8

def lastName? (path : String) : Option String :=
  match (names path).getLast? with
  | some ".." => none
  | name => name

/-- What stands behind the last point of the last name, unless nothing stands before it. -/
def extension? (path : String) : Option String := do
  let name ← lastName? path
  let tail := name.toList.reverse.takeWhile (· != '.')
  let before := name.toList.reverse.drop (tail.length + 1)
  if before.isEmpty then none else some (String.ofList tail.reverse)

end Disk
end Stencil
