/-!
Failures to open or read a file.

A failure is known by its kind and, where there is one, the name of the file.
Kinds are named after the error numbers of the operating system, and one kind
stands for contents that are no text.
-/

namespace LoxGraph

/-- The kinds of failure that have error numbers of their own. -/
def numberedKinds : List (Nat × String) :=
  [(1, "PermissionError"), (2, "FileNotFoundError"), (3, "ProcessLookupError"),
    (4, "InterruptedError"), (10, "ChildProcessError"), (11, "BlockingIOError"),
    (13, "PermissionError"), (17, "FileExistsError"), (20, "NotADirectoryError"),
    (21, "IsADirectoryError"), (32, "BrokenPipeError"), (103, "ConnectionAbortedError"),
    (104, "ConnectionResetError"), (108, "BrokenPipeError"), (110, "TimeoutError"),
    (111, "ConnectionRefusedError"), (114, "BlockingIOError"), (115, "BlockingIOError")]

/-- The kind of failure with the given error number. -/
def kindOfErrorNumber (number : Int) : String :=
  ((numberedKinds.find? fun entry => (entry.1 : Int) == number).map (·.2)).getD "OSError"

/-- Why a file cannot be opened or read: the operating system fails, in a way
that is known by its kind, or the contents are no text. -/
inductive FileFault where
  | system (kind : String)
  | undecodable
deriving DecidableEq

namespace FileFault

/-- The kind of failure that a fault is. -/
def kind : FileFault → String
  | system kind => kind
  | undecodable => "UnicodeDecodeError"

/-- The failure of the operating system with the given error number. -/
def ofErrorNumber (number : Int) : FileFault := .system (kindOfErrorNumber number)

/-- Nothing has the name. -/
def missing : FileFault := .ofErrorNumber 2

/-- A name goes on behind something that is no directory. -/
def notDirectory : FileFault := .ofErrorNumber 20

/-- The name is that of a directory. -/
def isDirectory : FileFault := .ofErrorNumber 21

/-- The name has too many bytes. -/
def nameTooLong : FileFault := .ofErrorNumber 36

end FileFault

/-- A failure to read a file. -/
structure IoFailure where
  kind : String
  file : Option String
deriving DecidableEq

namespace IoFailure

/-- A failure of the given kind, about the file that is asked for, or else the
one that the failure itself is about. -/
def about (kind : String) (asked own : Option String) : IoFailure := ⟨kind, asked <|> own⟩

/-- The line of text that shows a failure. A file without a name is left out. -/
def text (failure : IoFailure) : String :=
  match failure.file with
  | none => "IO error: " ++ failure.kind
  | some name =>
    if name = "" then "IO error: " ++ failure.kind
    else "IO error: " ++ failure.kind ++ " (" ++ name ++ ")"

end IoFailure

end LoxGraph
