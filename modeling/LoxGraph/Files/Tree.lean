import LoxGraph.Files.System

/-!
A tree of files and directories, and the paths that lead through it.

A path starts at the root of the tree or at a working directory in it, and is looked up one name at
a time: only a directory can be passed, `.` and empty names stay where they are, `..` goes up, and
above the root there is only the root again. Such a tree is a file system: nothing is in it but
files and directories, and whoever asks may read and write all of them, without an end to what they
hold.
-/

namespace LoxGraph

namespace Path

/-- The names between the slashes of a path, the empty ones included. -/
def names (path : Path) : List String := path.text.splitOn "/"

/-- Whether a path starts at the root. -/
def isAbsolute (path : Path) : Bool := path.text.startsWith "/"

/-- The number of bytes that a path may have. -/
def maxBytes : Nat := 4095

/-- The number of bytes that a name may have. -/
def maxNameBytes : Nat := 255

end Path

/-- What stands at a place in a tree of files. -/
inductive Entry where
  | file (content : ByteArray)
  | directory

/-- A tree of files: its entries, and its working directory. A place is given by the names on the
way to it from the root. -/
structure Files where
  entries : List (List String × Entry)
  workingDirectory : List String

namespace Files

/-- The name of the working directory of a tree in which there is nothing else. -/
def home : String := "home"

/-- A working directory with nothing in it. -/
def empty : Files := ⟨[([home], .directory)], [home]⟩

/-- The entry at a place. The root is a directory. -/
def entry? (files : Files) (place : List String) : Option Entry :=
  if place = [] then some .directory else files.entries.lookup place

/-- The same tree with another entry at one place. -/
def put (files : Files) (place : List String) (entry : Entry) : Files :=
  { files with entries := files.entries.filter (·.1 != place) ++ [(place, entry)] }

/-- The same tree with directories on the way from the working directory to a place below it. -/
def putDirectories (files : Files) (names : List String) : Files :=
  (List.range names.length).foldl
    (fun tree n => tree.put (files.workingDirectory ++ names.take (n + 1)) .directory) files

/-- The same tree with a file below the working directory, and the directories on the way to it. A
name that ends with a slash stands for a directory. -/
def add (files : Files) (name : String) (content : ByteArray) : Files :=
  let names := (name.splitOn "/").filter (· != "")
  if name.endsWith "/" then files.putDirectories names
  else (files.putDirectories names.dropLast).put (files.workingDirectory ++ names) (.file content)

/-- Whether the way leads through a place. -/
def isDirectory (files : Files) (place : List String) : Bool :=
  match files.entry? place with
  | some .directory => true
  | _ => false

/-- One name further on the way. -/
def step (files : Files) (place : List String) (name : String) : Except FileFault (List String) :=
  if !files.isDirectory place then .error .notDirectory
  else if name = "" ∨ name = "." then .ok place
  else if name = ".." then .ok place.dropLast
  else if Path.maxNameBytes < name.utf8ByteSize then .error .nameTooLong
  else match files.entry? (place ++ [name]) with
    | none => .error .missing
    | some _ => .ok (place ++ [name])

/-- The place at which a path starts. -/
def origin (files : Files) (path : Path) : List String :=
  if path.isAbsolute then [] else files.workingDirectory

/-- The place that a path leads to. -/
def resolve (files : Files) (path : Path) : Except FileFault (List String) :=
  if path.text = "" then .error .missing
  else if Path.maxBytes < path.text.utf8ByteSize then .error .nameTooLong
  else path.names.foldlM files.step (files.origin path)

/-- The bytes of the file that a path leads to. -/
def readBytes (files : Files) (path : Path) : Except FileFault ByteArray := do
  match files.entry? (← files.resolve path) with
  | some (.file content) => .ok content
  | some .directory => .error .isDirectory
  | none => .error .missing

/-- The place that a path names by itself, whatever is there: `..` takes back
the name before it. -/
def plainPlace (files : Files) (path : Path) : List String :=
  path.names.foldl
    (fun place name =>
      if name = "" ∨ name = "." then place
      else if name = ".." then place.dropLast
      else place ++ [name])
    (files.origin path)

/-- The path from the root to a place. -/
def absoluteText (place : List String) : String := "/" ++ "/".intercalate place

/-- Opens a file to write at its end, and makes it if it is not there. Gives the
place of the file. -/
def openAtEnd (files : Files) (path : Path) : Except FileFault (List String × Files) :=
  let place := files.plainPlace path
  if Path.maxBytes < (absoluteText place).utf8ByteSize then .error .nameTooLong
  else if place = [] then .error .isDirectory
  else do
    let parent ← place.dropLast.foldlM files.step []
    if !files.isDirectory parent then .error .notDirectory
    else if Path.maxNameBytes < (place.getLastD "").utf8ByteSize then .error .nameTooLong
    else match files.entry? place with
      | some .directory => .error .isDirectory
      | some (.file _) => .ok (place, files)
      | none => .ok (place, files.put place (.file .empty))

/-- What is said when there is no file to write to. -/
def complaint : String := "--- Logging error ---\n"

/-- Writes text at the end of the file at a place, if there is one. -/
def append (files : Files) (place : List String) (text : String) : Files × Option String :=
  match files.entry? place with
  | some (.file content) => (files.put place (.file (content ++ text.toUTF8)), none)
  | _ => (files, some complaint)

/-- A tree is a file system in which a file is known by its place. -/
instance : FileSystem Files (List String) where
  readBytes := readBytes
  openAtEnd := openAtEnd
  append := append

end Files

end LoxGraph
