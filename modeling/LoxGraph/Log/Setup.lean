import LoxGraph.Files.System
import LoxGraph.Log.Record

/-!
Where log records go.

Until it is set up, the log of the program has no handlers, and records that
are at least warnings are shown without ornament. Each setup replaces all
handlers: one writes to the console and, if a file is named, another one to
the end of that file, both from the same severity on. A setup whose file
cannot be opened leaves the console alone.
-/

namespace LoxGraph

/-- What a handler writes to: the console, or a file that was opened. -/
inductive Sink (φ : Type) where
  | console
  | file (file : φ)
deriving DecidableEq

/-- A handler writes the records that reach its threshold. -/
structure Handler (φ : Type) where
  sink : Sink φ
  threshold : Severity
deriving DecidableEq

/-- The threshold and the handlers that the loggers of the program share. -/
structure Logging (φ : Type) where
  threshold : Severity
  handlers : List (Handler φ)
deriving DecidableEq

namespace Logging

variable {σ φ : Type}

/-- The logger of the whole program. -/
def root : String := "loxc"

/-- Whether a logger is that of the program or one below it. -/
def covers (logger : String) : Bool := logger == root || logger.startsWith (root ++ ".")

/-- The state before any setup. -/
def initial : Logging φ := ⟨.notSet, []⟩

/-- The threshold that counts where none is set. -/
def defaultThreshold : Severity := .warning

/-- The threshold that records of a logger have to reach. -/
def thresholdOf (logging : Logging φ) (logger : String) : Severity :=
  if covers logger ∧ logging.threshold ≠ .notSet then logging.threshold else defaultThreshold

/-- The handlers that get the records of a logger. -/
def handlersOf (logging : Logging φ) (logger : String) : List (Handler φ) :=
  if covers logger then logging.handlers else []

/-- A handler for the console and, if there is a file, one for it. -/
def atLevel (level : Severity) (file : Option φ) : Logging φ :=
  { threshold := level
    handlers := ⟨.console, level⟩ :: (file.map fun file => ⟨.file file, level⟩).toList }

/-- Sets the log up anew. A file that cannot be opened is reported, and then
only the console is set up. -/
def setup [FileSystem σ φ] (level : Severity) (path : Option Path) (files : σ) :
    Logging φ × σ × Option FileFault :=
  match path with
  | none => (atLevel level none, files, none)
  | some path =>
    match FileSystem.openAtEnd files path with
    | .ok (file, files) => (atLevel level (some file), files, none)
    | .error fault => (atLevel level none, files, some fault)

/-- Where a record is written, and as what text. Without a handler it is shown
on the console by itself if it is at least a warning. -/
def deliveries (logging : Logging φ) (time : String) (r : LogRecord) : List (Sink φ × String) :=
  if r.severity.isEnabled ∧ r.severity.reaches (logging.thresholdOf r.logger) then
    match logging.handlersOf r.logger with
    | [] =>
      if r.severity.reaches defaultThreshold then [(.console, r.text ++ "\n")] else []
    | handlers =>
      (handlers.filter fun h => r.severity.reaches h.threshold).map fun h =>
        (h.sink, r.line time)
  else []

end Logging

end LoxGraph
