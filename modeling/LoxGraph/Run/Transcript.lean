import LoxGraph.Log.Setup

/-!
What a run of the program does, in order.

A run is a list of events: text for the standard output, text for the
diagnostics, and log records. `Surroundings` holds what events act on: the
files, the state of the log and everything written so far, where each piece of
text remembers its channel. Log lines and diagnostics share the error stream
with the complaints of the log about files that it cannot write to.
-/

namespace LoxGraph

/-- Something that a run does. -/
inductive Event where
  | out (text : String)
  | err (text : String)
  | log (record : LogRecord)
deriving DecidableEq

/-- The channels that text is written to. -/
inductive Channel where
  | out
  | diagnostics
  | log
  | complaint
deriving DecidableEq

/-- A piece of text on a channel. -/
structure Written where
  channel : Channel
  text : String
deriving DecidableEq

namespace Written

/-- The text on the standard output. -/
def outText (pieces : List Written) : String :=
  String.join ((pieces.filter (·.channel == .out)).map text)

/-- The text on the error stream: diagnostics and log lines. Complaints of the log are left out. -/
def errText (pieces : List Written) : String :=
  String.join ((pieces.filter fun p => p.channel == .diagnostics || p.channel == .log).map text)

/-- The text of all channels together, in the order of writing. -/
def allText (pieces : List Written) : String := String.join (pieces.map text)

end Written

/-- What events act on, in a file system with states `σ` whose opened files are known as `φ`. The
time that log lines show is given. -/
structure Surroundings (σ φ : Type) where
  files : σ
  logging : Logging φ
  written : Array Written
  time : String

namespace Surroundings

variable {σ φ : Type}

/-- Surroundings in which nothing has been written and no log is set up. -/
def start (files : σ) (time : String) : Surroundings σ φ := ⟨files, .initial, #[], time⟩

/-- Writes a piece of text. -/
def write (s : Surroundings σ φ) (channel : Channel) (text : String) : Surroundings σ φ :=
  { s with written := s.written.push ⟨channel, text⟩ }

variable [FileSystem σ φ]

/-- Writes the text of a record to one sink. If a file cannot take it, a complaint is shown. -/
def deliver (s : Surroundings σ φ) : Sink φ × String → Surroundings σ φ
  | (.console, text) => s.write .log text
  | (.file file, text) =>
    match FileSystem.append s.files file text with
    | (files, none) => { s with files := files }
    | (files, some complaint) => { s with files := files }.write .complaint complaint

/-- Lets an event happen. -/
def perform (s : Surroundings σ φ) : Event → Surroundings σ φ
  | .out text => s.write .out text
  | .err text => s.write .diagnostics text
  | .log record => (s.logging.deliveries s.time record).foldl deliver s

/-- Lets events happen one after another. -/
def performAll (s : Surroundings σ φ) (events : List Event) : Surroundings σ φ :=
  events.foldl perform s

/-- Sets the log up; a fault is passed on. -/
def setupLog (s : Surroundings σ φ) (level : Severity) (path : Option Path) :
    Surroundings σ φ × Option FileFault :=
  let (logging, files, fault) := Logging.setup level path s.files
  ({ s with logging := logging, files := files }, fault)

end Surroundings

end LoxGraph
