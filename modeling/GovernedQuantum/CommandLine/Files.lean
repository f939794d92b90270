/-!
# Files

Paths as texts, and a directory held in memory: the files below it by the names that lead to them.

* `extension?`, `withExtension`: the last name of a path, cut at its last dot.
* `Directory.locate`: the place that a path leads to, one name after the other. Whatever a name is
  looked up in must be a directory, a single dot included.
* `Directory.read`, `Directory.write`: what an operating system would answer.
-/

namespace GovernedQuantum.CommandLine

/-- Why a file cannot be read or written. -/
inductive FileError where
  | notFound
  | notDirectory
  | isDirectory
  | nameTooLong
  /-- The content is read as text and is none. -/
  | notText
  | other (message : String)
deriving DecidableEq, Repr

def FileError.message : FileError → String
  | notFound => "No such file or directory (os error 2)"
  | notDirectory => "Not a directory (os error 20)"
  | isDirectory => "Is a directory (os error 21)"
  | nameTooLong => "File name too long (os error 36)"
  | notText => "stream did not contain valid UTF-8"
  | other message => message

/-! ## Paths -/

/-- The pieces between slashes; `opened` is the unfinished piece backwards. -/
def piecesFrom (opened : List Char) : List Char → List (List Char)
  | [] => [opened.reverse]
  | '/' :: rest => opened.reverse :: piecesFrom [] rest
  | c :: rest => piecesFrom (c :: opened) rest

/-- What is looked up on the way along a path, dots included. -/
def pieces (path : List Char) : List (List Char) := (piecesFrom [] path).filter (· ≠ [])

/-- The names on a path; a single dot leads nowhere and is left out. -/
def names (path : List Char) : List (List Char) := (pieces path).filter (· ≠ ['.'])

def endsInSlash (path : List Char) : Bool := path.getLast? = some '/'

/-- The file that a path leads to. -/
def fileName? (path : List Char) : Option (List Char) :=
  (names path).getLast?.filter (· ≠ ['.', '.'])

/-- A name up to its last dot and behind it; a dot in front hides a file and divides nothing. -/
def splitName (name : List Char) : List Char × Option (List Char) :=
  let tail := name.reverse.takeWhile (· ≠ '.')
  let stem := (name.reverse.drop (tail.length + 1)).reverse
  if stem.isEmpty then (name, none) else (stem, some tail.reverse)

def extension? (path : String) : Option String :=
  ((fileName? path.toList).bind fun n => (splitName n).2).map String.ofList

/-- A path that ends in its file name, with `extension` behind the stem of that name. A path without
a file name stays as it is. -/
def replaceExtension (path : List Char) (extension : String) : String :=
  match fileName? path with
  | none => String.ofList path
  | some name =>
    String.ofList (path.take (path.length - name.length) ++ (splitName name).1) ++ "." ++ extension

/-- The path with another extension in place of its own, which is cut off behind its dot first. What
is left then may name a directory, as `..` does. -/
def withExtension (path extension : String) : String :=
  let old := ((extension? path).getD "").length
  replaceExtension (path.toList.take (path.length - old)) extension

example : withExtension "dir/prog.x" "y" = "dir/prog.y" := by decide +kernel
example : withExtension ".prog" "y" = ".prog.y" := by decide +kernel
example : withExtension "./..x" "y" = "./.." := by decide +kernel
example : withExtension "...x" "y" = "...y" := by decide +kernel
example : extension? "a/b.c/d" = none := by decide +kernel

/-! ## Places -/

/-- Where a path leads: below the directory, by the names that lead there from it, or out of it, by
the names that lead there from the root. -/
inductive Place where
  | inside (names : List (List Char))
  | outside (names : List (List Char))
deriving DecidableEq, Repr

namespace Place

def child (name : List Char) : Place → Place
  | inside names => inside (names ++ [name])
  | outside names => outside (names ++ [name])

/-- The directory that a place is in; the root is in itself. -/
def parent : Place → Place
  | inside [] => outside []
  | inside names => inside names.dropLast
  | outside names => outside names.dropLast

end Place

/-- What stands at a place. -/
inductive Entry where
  | directory
  | file (content : List UInt8)
  | nothing
deriving DecidableEq, Repr

/-- The directory of devices. -/
def deviceDirectory : List (List Char) := [['d', 'e', 'v']]

/-- The device that is always empty, whatever is written to it. -/
def nullDevice : List (List Char) := deviceDirectory ++ [['n', 'u', 'l', 'l']]

/-- Bytes that a name may take. -/
def maxNameBytes : Nat := 255

/-- Bytes that a path may take. -/
def maxPathBytes : Nat := 4095

/-! ## Directories -/

/-- Files by the names that lead to them from the directory. Of the world outside only the null
device is known. -/
structure Directory where
  files : List (List (List Char) × List UInt8) := []
deriving DecidableEq, Repr, Inhabited

namespace Directory

/-- A directory with files at paths. -/
def ofFiles (files : List (String × List UInt8)) : Directory :=
  ⟨files.map fun (path, bytes) => (names path.toList, bytes)⟩

def file? (d : Directory) (place : List (List Char)) : Option (List UInt8) := d.files.lookup place

/-- The directory itself, or one that a file is in. -/
def isDirectory (d : Directory) (place : List (List Char)) : Bool :=
  place.isEmpty || d.files.any fun f => place.isPrefixOf f.1 && f.1 ≠ place

def entry (d : Directory) : Place → Entry
  | .inside names =>
    if d.isDirectory names then .directory
    else
      match d.file? names with
      | some content => .file content
      | none => .nothing
  | .outside names =>
    if names.isEmpty || names = deviceDirectory then .directory
    else if names = nullDevice then .file []
    else .nothing

/-- Looks a name up at a place, which must be a directory. -/
def lookUp (d : Directory) (place : Place) (name : List Char) : Except FileError Place :=
  match d.entry place with
  | .nothing => .error .notFound
  | .file _ => .error .notDirectory
  | .directory =>
    if maxNameBytes < (String.ofList name).utf8ByteSize then .error .nameTooLong
    else if name = ['.'] then .ok place
    else if name = ['.', '.'] then .ok place.parent
    else .ok (place.child name)

/-- Looks up one name after the other. -/
def walk (d : Directory) (place : Place) : List (List Char) → Except FileError Place
  | [] => .ok place
  | name :: rest =>
    match d.lookUp place name with
    | .error e => .error e
    | .ok next => d.walk next rest

/-- The place that a path leads to. -/
def locate (d : Directory) (path : String) : Except FileError Place :=
  if maxPathBytes < path.utf8ByteSize then .error .nameTooLong
  else d.walk (if path.startsWith "/" then .outside [] else .inside []) (pieces path.toList)

/-- The content of a file. A slash at the end asks for a directory. -/
def read (d : Directory) (path : String) : Except FileError (List UInt8) := do
  match d.entry (← d.locate path) with
  | .directory => throw .isDirectory
  | .file content => if endsInSlash path.toList then throw .notDirectory else return content
  | .nothing => throw .notFound

/-- Puts a file in place of what stands there; what is put outside is out of sight. -/
def put (d : Directory) (place : Place) (bytes : List UInt8) : Directory :=
  match place with
  | .inside names => ⟨d.files.filter (fun f => f.1 ≠ names) ++ [(names, bytes)]⟩
  | .outside _ => d

/-- Writes a file, which a slash at the end makes a directory. -/
def write (d : Directory) (path : String) (bytes : List UInt8) : Except FileError Directory := do
  let place ← d.locate path
  if d.entry place = .directory || endsInSlash path.toList then throw .isDirectory
  else return d.put place bytes

/-- How a place below the directory is written. -/
def display (place : List (List Char)) : String :=
  "/".intercalate (place.map String.ofList)

end Directory

end GovernedQuantum.CommandLine
